import AdvanceTrading.Misc.GroupedSeries
import AdvanceTrading.Trading.TriggerRules
import Mathlib.Algebra.Order.Ring.Rat
import Mathlib.Data.Rat.Defs

/-!
# Declarative conditions

Model of `app/strategy_engine/declarative.py:62-258`: the session operands of
the strategy builder, a condition on every bar of a frame (`holds_series`) and
on its last bar (`evaluate`). Instants and durations are microseconds in UTC,
prices exact rationals, and a missing value is `none`. The operands are those
on the strategy's own timeframe that need no indicator library.
-/

namespace AdvanceTrading.StrategyEngine

open TriggerRules (minuteUs istDay)

/-- One row of the frame; `start` is its index. -/
structure Bar where
  start : Int
  open_ : ℚ
  high : ℚ
  low : ℚ
  close : ℚ
  volume : Option ℚ
  deriving DecidableEq, Repr

/-- A frame of bars; an index has no `volume` column. -/
structure Frame where
  bars : List Bar
  hasVolume : Bool
  deriving DecidableEq, Repr

/-- `df.iloc[:n]`. -/
def Frame.cut (f : Frame) (n : Nat) : Frame := { f with bars := f.bars.take n }

/-- The IST trading date of a bar (`_sessions`). -/
def session (b : Bar) : Int := istDay b.start

/-- The positive differences of neighbouring starts. -/
def spacings : List Bar → List Int
  | [] => []
  | [_] => []
  | b :: b' :: bars =>
      if 0 < b'.start - b.start then (b'.start - b.start) :: spacings (b' :: bars)
      else spacings (b' :: bars)

/-- `_base_minutes`, as a duration: the smallest spacing, and at least a minute. -/
def baseMinutes (bars : List Bar) : Int :=
  match (spacings bars).min? with
  | none => minuteUs
  | some least => max minuteUs least

/-- `(high + low + close) / 3`. -/
def typicalPrice (b : Bar) : ℚ := (b.high + b.low + b.close) / 3

/-- `df["volume"].astype(float) if "volume" in df else 0.0`. -/
def volumeOf (f : Frame) (b : Bar) : Option ℚ := if f.hasVolume then b.volume else some 0

/-- `groupby(sess).cumsum()`: a missing value is skipped and stays missing. -/
def cumsum (value : Bar → Option ℚ) (bars : List Bar) : List (Option ℚ) :=
  groupScan
    (fun total b =>
      match value b with
      | none => (total, none)
      | some v => (total + v, some (total + v)))
    session (fun _ => (0 : ℚ)) bars

/-- `groupby(sess).expanding().mean()`. -/
def expandingMean (value : Bar → ℚ) (bars : List Bar) : List ℚ :=
  groupScan
    (fun (state : ℚ × ℚ) b =>
      ((state.1 + value b, state.2 + 1), (state.1 + value b) / (state.2 + 1)))
    session (fun _ => (0, 0)) bars

/-- `_session_vwap` at one bar: the average price where there is no volume yet. -/
def vwapValue (cumV cumPV : Option ℚ) (twap : ℚ) : Option ℚ :=
  match cumV with
  | none => some twap
  | some v => if 0 < v then cumPV.map (· / v) else some twap

/-- `_session_vwap`. -/
def sessionVwap (f : Frame) : List (Option ℚ) :=
  let cumV := cumsum (volumeOf f) f.bars
  let cumPV := cumsum (fun b => (volumeOf f b).map (typicalPrice b * ·)) f.bars
  List.zipWith (fun v rest => vwapValue v rest.1 rest.2) cumV
    (cumPV.zip (expandingMean typicalPrice f.bars))

/-- `_prev_session`: the aggregate of the session before a bar's own. -/
def prevSession (f : Frame) (column : Bar → ℚ) (how : List (Option ℚ) → Option ℚ) :
    List (Option ℚ) :=
  let perDay := groupTable how session (fun b => some (column b)) f.bars
  f.bars.map fun b => shiftedLookup (session b) none perDay

/-- The first start of a bar's session (`_opening_range`, `first`). -/
def firstStart (bars : List Bar) (b : Bar) : Int :=
  (((groupOfRow session b bars).map (·.start)).min?).getD b.start

/-- `start < first + minutes` (`_opening_range`, `in_range`). -/
def inRange (bars : List Bar) (minutes : Nat) (b : Bar) : Bool :=
  b.start < firstStart bars b + minutes * minuteUs

/-- `start + base >= first + minutes` (`_opening_range`, `complete`). -/
def complete (bars : List Bar) (base : Int) (minutes : Nat) (b : Bar) : Bool :=
  firstStart bars b + minutes * minuteUs ≤ b.start + base

/-- `_opening_range`. -/
def openingRange (f : Frame) (minutes : Nat) (column : Bar → ℚ)
    (agg : List (Option ℚ) → Option ℚ) : List (Option ℚ) :=
  let level := groupTransform agg session
    (fun b => if inRange f.bars minutes b then some (column b) else none) f.bars
  List.zipWith (fun b l => if complete f.bars (baseMinutes f.bars) minutes b then l else none)
    f.bars level

/-- The operands of `Operand.series` that are read from the frame itself. -/
inductive Operand where
  | value (v : ℚ)
  | close
  | open_
  | high
  | low
  | vwap
  | dayOpen
  | orHigh (period : Nat)
  | orLow (period : Nat)
  | pdh
  | pdl
  | pdc
  deriving DecidableEq, Repr

/-- `Operand.series`. -/
def Operand.series (f : Frame) : Operand → List (Option ℚ)
  | .value v => f.bars.map fun _ => some v
  | .close => f.bars.map fun b => some b.close
  | .open_ => f.bars.map fun b => some b.open_
  | .high => f.bars.map fun b => some b.high
  | .low => f.bars.map fun b => some b.low
  | .vwap => sessionVwap f
  | .dayOpen => groupTransform firstValid session (fun b => some b.open_) f.bars
  | .orHigh period => openingRange f period (·.high) maxValid
  | .orLow period => openingRange f period (·.low) minValid
  | .pdh => prevSession f (·.high) maxValid
  | .pdl => prevSession f (·.low) minValid
  | .pdc => prevSession f (·.close) lastValid

/-- `Operator`. -/
inductive Operator where
  | gt
  | lt
  | gte
  | lte
  | crossesAbove
  | crossesBelow
  deriving DecidableEq, Repr

/-- `operator in ("CROSSES_ABOVE", "CROSSES_BELOW")`. -/
def Operator.needsPrior : Operator → Bool
  | .crossesAbove | .crossesBelow => true
  | _ => false

/-- The comparison of two values that are there; a crossing compares its last ones here. -/
def Operator.compare : Operator → ℚ → ℚ → Bool
  | .gt, l, r | .crossesAbove, l, r => r < l
  | .lt, l, r | .crossesBelow, l, r => l < r
  | .gte, l, r => r ≤ l
  | .lte, l, r => l ≤ r

/-- What a crossing asks of the values before. -/
def Operator.before : Operator → ℚ → ℚ → Bool
  | .crossesAbove, l, r => l ≤ r
  | .crossesBelow, l, r => r ≤ l
  | _, _, _ => true

/-- `Condition`. -/
structure Condition where
  left : Operand
  operator : Operator
  right : Operand
  deriving DecidableEq, Repr

/-- `shift(1)`. -/
def shift (series : List (Option ℚ)) : List (Option ℚ) := (none :: series).take series.length

namespace Condition

/-- One entry of `out & valid`, for a comparison. -/
def holdsAt (c : Condition) (l r : Option ℚ) : Bool :=
  match l, r with
  | some l, some r => c.operator.compare l r
  | _, _ => false

/-- One entry of `out & valid`, for a crossing. -/
def crossesAt (c : Condition) (prior : Option ℚ × Option ℚ) (l r : Option ℚ) : Bool :=
  match prior with
  | (some lp, some rp) => c.operator.before lp rp && c.holdsAt l r
  | _ => false

/-- `holds_series`. -/
def holdsSeries (c : Condition) (f : Frame) : List Bool :=
  let left := c.left.series f
  let right := c.right.series f
  if c.operator.needsPrior then
    List.zipWith (fun prior last => c.crossesAt prior last.1 last.2)
      ((shift left).zip (shift right)) (left.zip right)
  else List.zipWith c.holdsAt left right

/-- The end of `evaluate`, for a comparison. -/
def answer (c : Condition) (l r : Option ℚ) : Bool × Bool :=
  match l, r with
  | some l, some r => (c.operator.compare l r, true)
  | _, _ => (false, false)

/-- The end of `evaluate`, for a crossing. -/
def crossAnswer (c : Condition) (l r lp rp : Option ℚ) : Bool × Bool :=
  match l, r, lp, rp with
  | some l, some r, some lp, some rp => (c.operator.before lp rp && c.operator.compare l r, true)
  | _, _, _, _ => (false, false)

/-- `evaluate`: whether the condition holds at the last bar, and whether there was enough data. -/
def evaluate (c : Condition) (f : Frame) : Bool × Bool :=
  let left := c.left.series f
  let right := c.right.series f
  let n := f.bars.length
  if n < (if c.operator.needsPrior then 2 else 1) then (false, false)
  else
    let last (series : List (Option ℚ)) := series[n - 1]?.getD none
    let previous (series : List (Option ℚ)) := series[n - 2]?.getD none
    if c.operator.needsPrior then
      c.crossAnswer (last left) (last right) (previous left) (previous right)
    else c.answer (last left) (last right)

end Condition

end AdvanceTrading.StrategyEngine
