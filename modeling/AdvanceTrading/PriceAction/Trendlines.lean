import AdvanceTrading.Misc.Columns
import AdvanceTrading.Misc.Recent
import AdvanceTrading.PriceAction.CausalSwings

/-!
# Trendlines

Model of `app/price_action/trendlines.py:27-89` and of the swings it reads
(`app/price_action/swings.py:59-74`). A frame has finite prices; `none` among the
ranges of `refRange` is a range that is not a number, and as its result the NaN
of too few bars. Slices are read where the source's loops keep them inside the
frame.
-/

namespace AdvanceTrading.PriceAction

open Columns Recent

/-- "support" and "resistance". -/
inductive LineSide where
  | support
  | resistance
  deriving DecidableEq, Repr

/-- The sign of the slope `KINDS` asks of a side. -/
def LineSide.slopeSign : LineSide → ℚ
  | .support => 1
  | .resistance => -1

/-- The column a side's line is drawn over. -/
def LineSide.column : LineSide → Frame → Nat → ℚ
  | .support => low
  | .resistance => high

/-- `max()` over the highs, `min()` over the lows. -/
def LineSide.extreme : LineSide → List ℚ → Option ℚ
  | .support => List.min?
  | .resistance => List.max?

/-! ## The median range -/

/-- `high - low` of every bar. -/
def ranges (f : Frame) : List (Option ℚ) := f.map fun bar => some (bar.high - bar.low)

/-- The bars that `bar_is_full` keeps; a frame without the column keeps all. -/
def fullBars (barIsFull : Option (List Bool)) (rng : List (Option ℚ)) : List (Option ℚ) :=
  match barIsFull with
  | none => rng
  | some full => ((rng.zip full).filter Prod.snd).map Prod.fst

/-- `ref_range` with its defaults `n = 20` and `min_bars = 10`. -/
def refRange (barIsFull : Option (List Bool)) (rng : List (Option ℚ)) : Option ℚ :=
  let arr := (lastN (4 * 20) (fullBars barIsFull rng)).filterMap id
  if arr.length < 10 then none else some (median (lastN 20 arr))

/-! ## Swings -/

/-- One side of `swing_indices`: the bars that are the extreme of the `2 * window + 1` bars around them. -/
def swingIndices (side : LineSide) (f : Frame) (window : Nat) : List Nat :=
  if f.length < window * 2 + 1 then []
  else (List.range' window (f.length - 2 * window)).filter fun i =>
    some (side.column f i) = side.extreme ((List.range' (i - window) (2 * window + 1)).map (side.column f))

/-! ## The finder -/

/-- `Trendline`. -/
structure Trendline where
  side : LineSide
  m : ℚ
  b : ℚ
  a : Nat
  bIdx : Nat
  touches : Nat
  afterB : Nat
  betweenExt : ℚ
  deriving DecidableEq, Repr

/-- A close beyond the line of a side by more than `1e-9`. -/
def LineSide.beyond (side : LineSide) (close line : ℚ) : Bool :=
  match side with
  | .support => close < line - 1 / 10 ^ 9
  | .resistance => line + 1 / 10 ^ 9 < close

/-- What `find_trendline` is called with, beside the frame. -/
structure FinderCall where
  rr : Option ℚ
  side : LineSide
  slopeSign : ℚ
  order : Nat
  minGap : Nat
  maxSlopeK : ℚ
  tol : Option ℚ
  minTouches : Nat
  deriving DecidableEq, Repr

/-- `between_ext`: the opposite extreme between the anchors. -/
def betweenExt (f : Frame) (side : LineSide) (a b : Nat) : ℚ :=
  match side with
  | .support => highest (high f) a (b - a)
  | .resistance => lowest (low f) a (b - a)

/-- The line through the anchors `a` and `b`, unless a test of `find_trendline` passes it over (74-88). -/
def lineThrough (f : Frame) (call : FinderCall) (rr : ℚ) (idx : List Nat) (a b : Nat) : Option Trendline :=
  let y := call.side.column f
  let tol := call.tol.getD (1 / 4 * rr)
  let m := (y b - y a) / ((b - a : Nat) : ℚ)
  let b0 := y a - m * a
  let pts := idx.filter fun i => a ≤ i ∧ |y i - (m * i + b0)| ≤ tol
  if ¬ (0 < m * call.slopeSign ∧ m * call.slopeSign ≤ call.maxSlopeK * rr) then none
  else if (List.range' a (f.length - a)).any fun x => call.side.beyond (close f x) (m * x + b0) then none
  else if pts.length < call.minTouches then none
  else some {
    side := call.side
    m := m
    b := b0
    a := a
    bIdx := b
    touches := pts.length
    afterB := (pts.filter fun i => b < i).length
    betweenExt := betweenExt f call.side a b }

/-- `for A in idx[:bi]`: the first anchors of `b`, oldest first, until one is too near. -/
def firstAnchor (f : Frame) (call : FinderCall) (rr : ℚ) (idx : List Nat) (b : Nat) : List Nat → Option Trendline
  | [] => none
  | a :: later =>
    if b - a < call.minGap then none
    else match lineThrough f call rr idx a b with
      | some line => some line
      | none => firstAnchor f call rr idx b later

/-- `for bi in range(len(idx) - 1, 0, -1)`: the second anchors, newest first. The list is `idx` reversed, so what
follows `b` in it is `idx[:bi]` reversed; the oldest swing has no first anchor before it. -/
def secondAnchor (f : Frame) (call : FinderCall) (considered : Nat → Bool) (rr : ℚ) (idx : List Nat) :
    List Nat → Option Trendline
  | [] => none
  | b :: older =>
    match firstAnchor f call rr idx b (older.reverse.filter considered) with
    | some line => some line
    | none => secondAnchor f call considered rr idx older

/-- `find_trendline` when it considers only some first anchors. -/
def findTrendlineAmong (considered : Nat → Bool) (f : Frame) (call : FinderCall) : Option Trendline :=
  match call.rr with
  | none => none
  | some rr =>
    if rr ≤ 0 ∨ f.length < 2 * call.order + call.minGap + 2 then none
    else
      let idx := (swingIndices call.side f call.order).filter fun i => i + 1 + call.order ≤ f.length
      secondAnchor f call considered rr idx idx.reverse

/-- `find_trendline`. -/
def findTrendline (f : Frame) (call : FinderCall) : Option Trendline := findTrendlineAmong (fun _ => true) f call

end AdvanceTrading.PriceAction
