import AdvanceTrading.Misc.Rounding
import AdvanceTrading.Trading.TriggerRules
import Mathlib.Algebra.Order.Ring.Rat

/-!
# Which level an open position exits at

Model of `app/trading/exit_logic.py:7-73` and of `touched`
(`app/trading/trigger_rules.py:31-33`). A level is judged on the range of a bar, a
single price being a range of its own. The reason of an exit is a `Hit`, one
constructor for each text.
-/

namespace AdvanceTrading.ExitLogic

open TriggerRules (Side)

inductive Direction where
  | long
  | short
  deriving DecidableEq, Repr

/-- The reason of an exit at a level. -/
inductive Hit where
  | stopLoss
  | target2
  | target1
  deriving DecidableEq, Repr

/-- `touched`: the price reached `level` from its side within the range. -/
def touched (level : ℚ) (side : Side) (low high : ℚ) : Bool :=
  match side with
  | .above => level ≤ high
  | .below => low ≤ level

/-- `stop_side`. -/
def Direction.stopSide : Direction → Side
  | .long => .below
  | .short => .above

/-- `target_side`. -/
def Direction.targetSide : Direction → Side
  | .long => .above
  | .short => .below

/-- A short's stop of 0 or less is no stop. -/
def stopSet (direction : Direction) (stopLoss : ℚ) : Bool := direction = .long || 0 < stopLoss

/-- `gapped`: the open is at or beyond the level, on the level's side. -/
def gapped (side : Side) (openPrice level : ℚ) : Bool :=
  match side with
  | .above => level ≤ openPrice
  | .below => openPrice ≤ level

/-- `fill`: the level, or the open of a bar that opens beyond it. -/
def fill (side : Side) (openPrice : Option ℚ) (level : ℚ) : ℚ :=
  match openPrice with
  | none => level
  | some openPrice => if gapped side openPrice level then openPrice else level

section Exits

variable (direction : Direction)

/-- `determine_exit_price`: the stop, then the second target, then the first. -/
def determineExitPrice (stopLoss : ℚ) (target1 target2 : Option ℚ) (low high : ℚ) (openPrice : Option ℚ) :
    Option (Hit × ℚ) :=
  if stopSet direction stopLoss && touched stopLoss direction.stopSide low high then
    some (.stopLoss, fill direction.stopSide openPrice stopLoss)
  else
    match target2.filter (touched · direction.targetSide low high) with
    | some level => some (.target2, fill direction.targetSide openPrice level)
    | none =>
        match target1.filter (touched · direction.targetSide low high) with
        | some level => some (.target1, fill direction.targetSide openPrice level)
        | none => none

/-- `check_exit`: one price is both bounds of its range. -/
def checkExit (stopLoss : ℚ) (target1 target2 : Option ℚ) (currentPrice : ℚ) : Option (Hit × ℚ) :=
  determineExitPrice direction stopLoss target1 target2 currentPrice currentPrice none

/-- `underlying_exit`: which level the price has crossed; the stop may be missing too. -/
def underlyingExit (stopLoss target1 target2 : Option ℚ) (price : ℚ) : Option Hit :=
  if stopLoss.any fun stop => stopSet direction stop && touched stop direction.stopSide price price then
    some .stopLoss
  else if target2.any (touched · direction.targetSide price price) then some .target2
  else if target1.any (touched · direction.targetSide price price) then some .target1
  else none

end Exits

/-! ## The fills -/

/-- A fill at or beyond a level, seen from the level's side. -/
def Beyond (side : Side) (level price : ℚ) : Prop :=
  match side with
  | .above => level ≤ price
  | .below => price ≤ level

variable {direction : Direction} {stopLoss low high price : ℚ} {target1 target2 openPrice : Option ℚ}

/-- A stop fill is no better than the stop: what is beyond it is a loss more. -/
def NoBetter (direction : Direction) (stopLoss price : ℚ) : Prop :=
  match direction with
  | .long => price ≤ stopLoss
  | .short => stopLoss ≤ price

/-- A target fill is no worse than its target. -/
def NoWorse (direction : Direction) (target price : ℚ) : Prop :=
  match direction with
  | .long => target ≤ price
  | .short => price ≤ target

theorem noBetter_of_beyond (beyond : Beyond direction.stopSide stopLoss price) :
    NoBetter direction stopLoss price := by
  cases direction with
  | long => exact beyond
  | short => exact beyond

theorem noWorse_of_beyond {level : ℚ} (beyond : Beyond direction.targetSide level price) :
    NoWorse direction level price := by
  cases direction with
  | long => exact beyond
  | short => exact beyond

/-- A touched level is filled inside the bar, at the level or beyond it. -/
theorem fill_touched {side : Side} {level start : ℚ} (lowest : low ≤ start) (highest : start ≤ high)
    (reached : touched level side low high = true) :
    low ≤ fill side (some start) level ∧ fill side (some start) level ≤ high ∧
      Beyond side level (fill side (some start) level) := by
  unfold fill
  dsimp only
  cases side with
  | above =>
    have atMost : level ≤ high := of_decide_eq_true reached
    by_cases opensBeyond : level ≤ start
    · simpa [gapped, opensBeyond, Beyond] using ⟨lowest, highest⟩
    · have inside : low ≤ level := lowest.trans (not_le.mp opensBeyond).le
      simpa [gapped, opensBeyond, Beyond] using ⟨inside, atMost⟩
  | below =>
    have atLeast : low ≤ level := of_decide_eq_true reached
    by_cases opensBeyond : start ≤ level
    · simpa [gapped, opensBeyond, Beyond] using ⟨lowest, highest⟩
    · have inside : level ≤ high := (not_le.mp opensBeyond).le.trans highest
      simpa [gapped, opensBeyond, Beyond] using ⟨atLeast, inside⟩

/-! ## The exits -/

/-- A stop that is set and reached. -/
def StopTouched (direction : Direction) (stopLoss low high : ℚ) : Prop :=
  stopSet direction stopLoss = true ∧ touched stopLoss direction.stopSide low high = true

/-- A touched stop is the exit, whatever the targets. -/
theorem determine_stop (touchedStop : StopTouched direction stopLoss low high) :
    determineExitPrice direction stopLoss target1 target2 low high openPrice
      = some (.stopLoss, fill direction.stopSide openPrice stopLoss) := by
  unfold determineExitPrice
  rw [touchedStop.1, touchedStop.2]
  rfl

/-- What each reason of an exit says about its fill. -/
theorem determine_cases {hit : Hit}
    (exit : determineExitPrice direction stopLoss target1 target2 low high openPrice = some (hit, price)) :
    (hit = .stopLoss ∧ StopTouched direction stopLoss low high ∧
        price = fill direction.stopSide openPrice stopLoss) ∨
      ∃ level, (hit = .target2 ∧ target2 = some level ∨ hit = .target1 ∧ target1 = some level) ∧
        touched level direction.targetSide low high = true ∧
        price = fill direction.targetSide openPrice level := by
  unfold determineExitPrice at exit
  split at exit
  · next stopped =>
    cases exit
    exact .inl ⟨rfl, by simpa [StopTouched] using stopped, rfl⟩
  · split at exit
    · next level found =>
      obtain ⟨isLevel, reached⟩ := Option.filter_eq_some_iff.mp found
      cases exit
      exact .inr ⟨level, .inl ⟨rfl, isLevel⟩, reached, rfl⟩
    · split at exit
      · next level found =>
        obtain ⟨isLevel, reached⟩ := Option.filter_eq_some_iff.mp found
        cases exit
        exact .inr ⟨level, .inr ⟨rfl, isLevel⟩, reached, rfl⟩
      · cases exit

theorem any_of_filter_none {level : Option ℚ} {p : ℚ → Bool} (none_ : level.filter p = none) : level.any p = false := by
  cases level with
  | none => rfl
  | some level => simpa using none_

/-- At one price, the reason is that of `underlying_exit`. -/
theorem checkExit_reason :
    (checkExit direction stopLoss target1 target2 price).map Prod.fst
      = underlyingExit direction (some stopLoss) target1 target2 price := by
  unfold checkExit determineExitPrice underlyingExit
  simp only [Option.any_some]
  split
  · rfl
  · cases second : target2.filter (touched · direction.targetSide price price) with
    | some level =>
      obtain ⟨isLevel, reached⟩ := Option.filter_eq_some_iff.mp second
      simp [isLevel, reached]
    | none =>
      have unreached := any_of_filter_none second
      cases first : target1.filter (touched · direction.targetSide price price) with
      | some level =>
        obtain ⟨isLevel, reached⟩ := Option.filter_eq_some_iff.mp first
        simp [unreached, isLevel, reached]
      | none =>
        have unreached' := any_of_filter_none first
        simp [unreached, unreached']

/-- An exit on a bar is filled at a price of the bar: no better than the stop, no worse than its
target. A touched stop comes first, and a single price exits for the reason of
`underlying_exit`. -/
theorem exit_fills (direction : Direction) (stopLoss : ℚ) (target1 target2 : Option ℚ) (low start high : ℚ)
    (lowest : low ≤ start) (highest : start ≤ high) :
    (∀ hit price, determineExitPrice direction stopLoss target1 target2 low high (some start) = some (hit, price) →
      (low ≤ price ∧ price ≤ high) ∧
      (hit = .stopLoss → NoBetter direction stopLoss price) ∧
      (hit = .target2 → ∃ level, target2 = some level ∧ NoWorse direction level price) ∧
      (hit = .target1 → ∃ level, target1 = some level ∧ NoWorse direction level price)) ∧
    (StopTouched direction stopLoss low high → ∃ price,
      determineExitPrice direction stopLoss target1 target2 low high (some start) = some (.stopLoss, price)) ∧
    ∀ price, (determineExitPrice direction stopLoss target1 target2 price price none).map Prod.fst
      = underlyingExit direction (some stopLoss) target1 target2 price := by
  refine ⟨?_, fun touchedStop => ⟨_, determine_stop touchedStop⟩, fun price => checkExit_reason⟩
  intro hit price exit
  rcases determine_cases exit with ⟨rfl, ⟨-, reached⟩, rfl⟩ | ⟨level, isTarget, reached, rfl⟩
  · obtain ⟨above, below, beyond⟩ := fill_touched lowest highest reached
    exact ⟨⟨above, below⟩, fun _ => noBetter_of_beyond beyond, nofun, nofun⟩
  · obtain ⟨above, below, beyond⟩ := fill_touched lowest highest reached
    have noWorse := noWorse_of_beyond beyond
    rcases isTarget with ⟨rfl, isLevel⟩ | ⟨rfl, isLevel⟩
    · exact ⟨⟨above, below⟩, nofun, fun _ => ⟨level, isLevel, noWorse⟩, nofun⟩
    · exact ⟨⟨above, below⟩, nofun, nofun, fun _ => ⟨level, isLevel, noWorse⟩⟩

/-- A bar that opens below the stop of a long. -/
theorem exit_fills_gap :
    determineExitPrice .long 98 (some 104) (some 110) 95 99 (some 96) = some (.stopLoss, 96) ∧
      (95 : ℚ) ≤ 96 ∧ NoBetter .long 98 96 := by
  have fills := exit_fills .long 98 (some 104) (some 110) 95 96 99 (by decide +kernel) (by decide +kernel)
  have exit : determineExitPrice .long 98 (some 104) (some 110) 95 99 (some 96) = some (.stopLoss, 96) := by
    decide +kernel
  obtain ⟨⟨above, -⟩, noBetter, -⟩ := fills.1 .stopLoss 96 exit
  exact ⟨exit, above, noBetter rfl⟩

end AdvanceTrading.ExitLogic

/-!
# Dynamic exit rules

Model of `app/trading/exit_rules.py:33-136` and of the bars of an open trade in the
backtest loop (`app/backtest/engine.py:144-189`). Instants are microseconds in UTC,
`time_exit_at` is the time of the IST day that `exit_time_of_day` reads. A time rule
that cannot be computed never holds.
-/

namespace AdvanceTrading.ExitRules

open ExitLogic
open TriggerRules (minuteUs dayUs istOffset)

/-- `ExitRules`. -/
structure Rules where
  trailingStopPct : Option ℚ := none
  breakEvenAtR : Option ℚ := none
  timeExitMinutes : Option ℤ := none
  timeExitAt : Option ℤ := none
  deriving DecidableEq

/-- Why the stop moved. -/
inductive StopReason where
  | breakEven
  | trailing
  deriving DecidableEq, Repr

/-- Why a time rule closes the trade. -/
inductive TimeReason where
  | inTrade (minutes : ℤ)
  | flatAt (time : ℤ)
  deriving DecidableEq, Repr

/-- `ExitUpdate`. -/
structure ExitUpdate where
  stopLoss : ℚ
  bestPrice : ℚ
  stopChanged : Bool
  stopReason : Option StopReason
  timeExitReason : Option TimeReason
  deriving DecidableEq

/-- What the rules read of a trade. -/
structure Position where
  direction : Direction
  entryPrice : ℚ
  initialStop : ℚ
  entryTime : ℤ := 0

/-- A bar, or a quote as a bar of one price. -/
structure Bar where
  open_ : ℚ
  high : ℚ
  low : ℚ
  close : ℚ
  time : ℤ := 0

/-- The stop and the best price a caller keeps of an open trade. -/
structure Held where
  stop : ℚ
  best : Option ℚ := none
  deriving DecidableEq

/-! ## One evaluation -/

/-- A candidate nearer to the price than the stop. -/
def tighter (direction : Direction) (candidate stop : ℚ) : Bool :=
  match direction with
  | .long => stop < candidate
  | .short => candidate < stop

section Evaluation

variable (rules : Rules) (pos : Position)

/-- The best price, with the bar. -/
def bestOf (best : Option ℚ) (bar : Bar) : ℚ :=
  match pos.direction with
  | .long => max (best.getD pos.entryPrice) bar.high
  | .short => min (best.getD pos.entryPrice) bar.low

/-- How far a price is in the trade's favour. -/
def moved (price : ℚ) : ℚ :=
  match pos.direction with
  | .long => price - pos.entryPrice
  | .short => pos.entryPrice - price

/-- The level a percentage behind the best price. -/
def trailLevel (direction : Direction) (best pct : ℚ) : ℚ :=
  match direction with
  | .long => best * (1 - pct / 100)
  | .short => best * (1 + pct / 100)

/-- The break-even stop, where the rule moves the stop there. -/
def breakEvenStop (best stop : ℚ) : Option ℚ :=
  let risk := |pos.entryPrice - pos.initialStop|
  match rules.breakEvenAtR with
  | some r =>
      if 0 < risk ∧ r * risk ≤ moved pos best ∧ tighter pos.direction pos.entryPrice stop then some pos.entryPrice
      else none
  | none => none

/-- The trailing stop, where the rule moves the stop there. -/
def trailingStop (best stop : ℚ) : Option ℚ :=
  match rules.trailingStopPct with
  | some pct =>
      let candidate := Py.round2 (trailLevel pos.direction best pct)
      if 0 < pct ∧ 0 < moved pos best ∧ tighter pos.direction candidate stop then some candidate else none
  | none => none

/-- The stop after both rules, break-even first, with the last reason it moved for. -/
def stopAfter (best currentStop : ℚ) : ℚ × Option StopReason :=
  let scratched : ℚ × Option StopReason :=
    match breakEvenStop rules pos best currentStop with
    | some stop => (stop, some .breakEven)
    | none => (currentStop, none)
  match trailingStop rules pos best scratched.1 with
  | some stop => (stop, some .trailing)
  | none => scratched

/-- The time rules, the minutes in the trade first. -/
def timeReason (now : ℤ) : Option TimeReason :=
  let inTrade := rules.timeExitMinutes.filter fun minutes => 0 < minutes ∧ minutes * minuteUs ≤ now - pos.entryTime
  match inTrade with
  | some minutes => some (.inTrade minutes)
  | none => (rules.timeExitAt.filter fun cutoff => cutoff ≤ (now + istOffset) % dayUs).map .flatAt

/-- `apply_exit_rules`. -/
def applyExitRules (held : Held) (bar : Bar) : ExitUpdate :=
  let best := bestOf pos held.best bar
  let (stop, reason) := stopAfter rules pos best held.stop
  { stopLoss := Py.round2 stop
    bestPrice := Py.round2 best
    stopChanged := stop ≠ held.stop
    stopReason := reason
    timeExitReason := timeReason rules pos bar.time }

end Evaluation

/-! ## A trade over its bars -/

/-- What a caller keeps of an update: the stop when it changed, the best price then or each time. -/
def Held.feed (eachTime : Bool) (held : Held) (update : ExitUpdate) : Held where
  stop := if update.stopChanged then update.stopLoss else held.stop
  best := if update.stopChanged || eachTime then some update.bestPrice else held.best

/-- One bar, fed back. -/
def evaluate (rules : Rules) (pos : Position) (eachTime : Bool) (held : Held) (bar : Bar) : Held :=
  held.feed eachTime (applyExitRules rules pos held bar)

/-- The bars one after another. -/
def evaluateAll (rules : Rules) (pos : Position) (eachTime : Bool) (held : Held) (bars : List Bar) : Held :=
  bars.foldl (evaluate rules pos eachTime) held

/-- How a trade of the backtest ends. -/
inductive Outcome where
  | early (price : ℚ)
  | level (hit : Hit) (price : ℚ)
  | time (reason : TimeReason) (price : ℚ)
  | squareOff (price : ℚ)
  | marginCall (price : ℚ)
  deriving DecidableEq

/-- A bar of the loop: what is decided on it before the rules are read (a square-off the data skipped, a
template's exit), whether the square-off is due at its close, and whether its close calls for margin. -/
structure LoopBar extends Bar where
  early : Option ℚ := none
  squareOff : Bool := false
  marginCall : Bool := false

/-- `open_trade` with the best price the loop keeps beside it. -/
structure OpenTrade extends Position where
  target1 : Option ℚ := none
  target2 : Option ℚ := none
  held : Held

/-- What the loop decides on a bar before the rules' update is kept (`engine.py:147-181`). -/
def decideOutcome (trade : OpenTrade) (bar : LoopBar) (timeReason : Option TimeReason) : Option Outcome :=
  match bar.early with
  | some price => some (.early price)
  | none =>
      match determineExitPrice trade.direction trade.held.stop trade.target1 trade.target2 bar.low
        bar.high (some bar.open_) with
      | some (hit, price) => some (.level hit price)
      | none =>
          match timeReason with
          | some reason => some (.time reason bar.close)
          | none => if bar.squareOff then some (.squareOff bar.close) else none

/-- One bar of an open trade: how it ends, or the trade for the next bar. -/
def onBar (rules : Rules) (trade : OpenTrade) (bar : LoopBar) : Except Outcome OpenTrade :=
  let update := applyExitRules rules trade.toPosition trade.held bar.toBar
  match decideOutcome trade bar update.timeExitReason with
  | some outcome => .error outcome
  | none =>
      if bar.marginCall then .error (.marginCall bar.close)
      else .ok { trade with held := trade.held.feed true update }

/-- The trade after some bars, or how it ended on one of them. -/
def overBars (rules : Rules) (trade : OpenTrade) (bars : List LoopBar) : Except Outcome OpenTrade :=
  bars.foldlM (onBar rules) trade

/-! ## What one evaluation does -/

/-- A stop no farther from the price than another. -/
def NoLooser (direction : Direction) (before after : ℚ) : Prop :=
  match direction with
  | .long => before ≤ after
  | .short => after ≤ before

/-- A price strictly on the losing side of another. -/
def LosingSide (direction : Direction) (stop price : ℚ) : Prop :=
  match direction with
  | .long => stop < price
  | .short => price < stop

theorem NoLooser.refl (direction : Direction) (stop : ℚ) : NoLooser direction stop stop := by
  cases direction <;> exact le_rfl

theorem NoLooser.trans {direction : Direction} {a b c : ℚ} (first : NoLooser direction a b)
    (second : NoLooser direction b c) : NoLooser direction a c := by
  cases direction with
  | long => exact le_trans (show a ≤ b from first) second
  | short => exact le_trans (show c ≤ b from second) first

theorem noLooser_of_tighter {direction : Direction} {candidate stop : ℚ}
    (nearer : tighter direction candidate stop = true) : NoLooser direction stop candidate := by
  cases direction with
  | long => exact (of_decide_eq_true nearer).le
  | short => exact (of_decide_eq_true nearer).le

/-- A stop in whole paise. -/
def WholePaise (price : ℚ) : Prop := Py.round2 price = price

instance (price : ℚ) : Decidable (WholePaise price) := inferInstanceAs (Decidable (_ = _))

/-- The rounding of a trailing level takes it to the best price or past it. -/
def RoundingReaches (direction : Direction) (best pct : ℚ) : Prop :=
  ¬ LosingSide direction (Py.round2 (trailLevel direction best pct)) best

/-- A level more than half a paisa behind the best price is not rounded up to it. -/
theorem not_roundingReaches {direction : Direction} {best pct : ℚ}
    (room : 1 / 200 < best * (pct / 100)) : ¬ RoundingReaches direction best pct := by
  rw [RoundingReaches, not_not]
  have near := abs_le.mp (Py.abs_round2_sub_le (trailLevel direction best pct))
  cases direction with
  | long =>
    have behind : trailLevel .long best pct = best - best * (pct / 100) := by
      unfold trailLevel
      ring
    change Py.round2 _ < best
    linarith [near.2]
  | short =>
    have behind : trailLevel .short best pct = best + best * (pct / 100) := by
      unfold trailLevel
      ring
    change best < Py.round2 _
    linarith [near.1]

section Step

variable {rules : Rules} {pos : Position} {best stop : ℚ}

theorem breakEvenStop_eq {candidate : ℚ} (moves : breakEvenStop rules pos best stop = some candidate) :
    candidate = pos.entryPrice ∧ tighter pos.direction candidate stop = true := by
  unfold breakEvenStop at moves
  dsimp only at moves
  split at moves
  · split at moves
    · next holds =>
      cases moves
      exact ⟨rfl, holds.2.2⟩
    · cases moves
  · cases moves

theorem trailingStop_eq {candidate : ℚ} (moves : trailingStop rules pos best stop = some candidate) :
    ∃ pct, rules.trailingStopPct = some pct ∧ 0 < pct ∧
      candidate = Py.round2 (trailLevel pos.direction best pct) ∧ tighter pos.direction candidate stop = true := by
  unfold trailingStop at moves
  split at moves
  · next pct isPct =>
    dsimp only at moves
    split at moves
    · next holds =>
      cases moves
      exact ⟨pct, isPct, holds.1, rfl, holds.2.2⟩
    · cases moves
  · cases moves

/-- Where the stop is after both rules, by the reason it moved for. -/
structure Moved (rules : Rules) (pos : Position) (best stop : ℚ) (after : ℚ × Option StopReason) : Prop where
  noLooser : NoLooser pos.direction stop after.1
  unmoved : after.2 = none → after.1 = stop
  atEntry : after.2 = some .breakEven → after.1 = pos.entryPrice
  trailed : after.2 = some .trailing → ∃ pct, rules.trailingStopPct = some pct ∧ 0 < pct ∧
    after.1 = Py.round2 (trailLevel pos.direction best pct)

theorem stopAfter_moved (rules : Rules) (pos : Position) (best stop : ℚ) :
    Moved rules pos best stop (stopAfter rules pos best stop) := by
  unfold stopAfter
  cases scratch : breakEvenStop rules pos best stop with
  | none =>
    cases trail : trailingStop rules pos best stop with
    | none => simpa [trail] using ⟨.refl _ _, fun _ => rfl, nofun, nofun⟩
    | some candidate =>
      obtain ⟨pct, isPct, positive, level, nearer⟩ := trailingStop_eq trail
      simpa [trail] using ⟨noLooser_of_tighter nearer, nofun, nofun, fun _ => ⟨pct, isPct, positive, level⟩⟩
  | some entry =>
    obtain ⟨isEntry, nearer⟩ := breakEvenStop_eq scratch
    have toEntry := noLooser_of_tighter nearer
    cases trail : trailingStop rules pos best entry with
    | none => simpa [trail] using ⟨toEntry, nofun, fun _ => isEntry, nofun⟩
    | some candidate =>
      obtain ⟨pct, isPct, positive, level, nearer'⟩ := trailingStop_eq trail
      simpa [trail] using
        ⟨toEntry.trans (noLooser_of_tighter nearer'), nofun, nofun, fun _ => ⟨pct, isPct, positive, level⟩⟩

/-- Both rules move the stop to whole paise. -/
theorem Moved.wholePaise {after : ℚ × Option StopReason} (moved : Moved rules pos best stop after)
    (entry : WholePaise pos.entryPrice) (before : WholePaise stop) : WholePaise after.1 := by
  rcases reason : after.2 with _ | ⟨_ | _⟩
  · rw [moved.unmoved reason]
    exact before
  · rw [moved.atEntry reason]
    exact entry
  · obtain ⟨pct, -, -, level⟩ := moved.trailed reason
    rw [level]
    exact Py.round2_round2 _

end Step

/-- What an update says of the stop of a trade in whole paise. -/
structure Tightened (rules : Rules) (pos : Position) (held : Held) (bar : Bar) (update : ExitUpdate) : Prop where
  noLooser : NoLooser pos.direction held.stop update.stopLoss
  atEntry : update.stopReason = some .breakEven → update.stopLoss = pos.entryPrice
  trailed : update.stopReason = some .trailing → ∃ pct, rules.trailingStopPct = some pct ∧ 0 < pct ∧
    (¬ RoundingReaches pos.direction (bestOf pos held.best bar) pct →
      LosingSide pos.direction update.stopLoss (bestOf pos held.best bar)) ∧
    (1 / 200 < bestOf pos held.best bar * (pct / 100) →
      LosingSide pos.direction update.stopLoss (bestOf pos held.best bar))
  wholePaise : WholePaise update.stopLoss
  unchanged : update.stopChanged = false → update.stopLoss = held.stop

theorem applyExitRules_tightened (rules : Rules) {pos : Position} {held : Held} (entry : WholePaise pos.entryPrice)
    (before : WholePaise held.stop) (bar : Bar) : Tightened rules pos held bar (applyExitRules rules pos held bar) := by
  have moved := stopAfter_moved rules pos (bestOf pos held.best bar) held.stop
  have whole := moved.wholePaise entry before
  have rounded : (applyExitRules rules pos held bar).stopLoss
      = (stopAfter rules pos (bestOf pos held.best bar) held.stop).1 := whole
  constructor
  · rw [rounded]
    exact moved.noLooser
  · intro reason
    rw [rounded]
    exact moved.atEntry reason
  · intro reason
    obtain ⟨pct, isPct, positive, level⟩ := moved.trailed reason
    have behind : ¬ RoundingReaches pos.direction (bestOf pos held.best bar) pct →
        LosingSide pos.direction (applyExitRules rules pos held bar).stopLoss (bestOf pos held.best bar) := by
      intro apart
      rw [rounded, level]
      exact not_not.mp apart
    exact ⟨pct, isPct, positive, behind, fun room => behind (not_roundingReaches room)⟩
  · rw [rounded]
    exact whole
  · intro same
    rw [rounded]
    exact of_not_not (of_decide_eq_false same)

/-! ## Over any bars -/

theorem evaluate_stop (rules : Rules) {pos : Position} {held : Held} (eachTime : Bool)
    (entry : WholePaise pos.entryPrice) (before : WholePaise held.stop) (bar : Bar) :
    (evaluate rules pos eachTime held bar).stop = (applyExitRules rules pos held bar).stopLoss := by
  have tightened := applyExitRules_tightened rules entry before bar
  unfold evaluate Held.feed
  dsimp only
  split
  · rfl
  · next same => exact (tightened.unchanged (by simpa using same)).symm

/-- The stop after any bars is in whole paise and no looser than before them. -/
theorem evaluateAll_noLooser (rules : Rules) {pos : Position} (eachTime : Bool) (entry : WholePaise pos.entryPrice)
    (bars : List Bar) {held : Held} (before : WholePaise held.stop) :
    WholePaise (evaluateAll rules pos eachTime held bars).stop ∧
      NoLooser pos.direction held.stop (evaluateAll rules pos eachTime held bars).stop := by
  induction bars generalizing held with
  | nil => exact ⟨before, .refl _ _⟩
  | cons bar bars ih =>
    have tightened := applyExitRules_tightened rules entry before bar
    have stop := evaluate_stop rules eachTime entry before bar
    have before' : WholePaise (evaluate rules pos eachTime held bar).stop := by
      rw [stop]
      exact tightened.wholePaise
    obtain ⟨whole, noLooser⟩ := ih before'
    refine ⟨whole, NoLooser.trans ?_ noLooser⟩
    rw [stop]
    exact tightened.noLooser

/-- A trade that is open after some bars holds what those bars gave it. -/
theorem overBars_held {rules : Rules} {trade later : OpenTrade} {bars : List LoopBar}
    (open_ : overBars rules trade bars = .ok later) :
    later = { trade with held := evaluateAll rules trade.toPosition true trade.held (bars.map LoopBar.toBar) } := by
  induction bars generalizing trade with
  | nil =>
    cases open_
    rfl
  | cons bar bars ih =>
    rw [overBars, List.foldlM_cons] at open_
    cases step : onBar rules trade bar with
    | error outcome =>
      rw [step] at open_
      cases open_
    | ok next =>
      rw [step] at open_
      have rest := ih open_
      unfold onBar at step
      dsimp only at step
      split at step
      · cases step
      · split at step
        · cases step
        · cases step
          exact rest

/-- A level the loop exits at is one of the stop and targets the trade brought to the bar. -/
theorem onBar_level {rules : Rules} {trade : OpenTrade} {bar : LoopBar} {hit : Hit} {price : ℚ}
    (exit : onBar rules trade bar = .error (.level hit price)) :
    determineExitPrice trade.direction trade.held.stop trade.target1 trade.target2 bar.low bar.high (some bar.open_)
      = some (hit, price) := by
  unfold onBar at exit
  dsimp only at exit
  split at exit
  · next outcome decided =>
    cases exit
    unfold decideOutcome at decided
    split at decided
    · cases decided
    · split at decided
      · next found =>
        cases decided
        exact found
      · split at decided
        · cases decided
        · split at decided <;> cases decided
  · split at exit <;> cases exit

/-- Dynamic exit rules only tighten, over any bars of a trade whose entry and stop are in whole paise: the
stop never moves away from the price, break-even is the entry price, and a trailing stop stays behind the
best price it follows. The backtest judges each bar by the stop of the bars before it. -/
theorem rules_only_tighten (rules : Rules) (pos : Position) (eachTime : Bool) (best : Option ℚ)
    (bars : List Bar) (entry : WholePaise pos.entryPrice) (initial : WholePaise pos.initialStop) :
    (∀ earlier bar rest, bars = earlier ++ bar :: rest →
      let held := evaluateAll rules pos eachTime ⟨pos.initialStop, best⟩ earlier
      NoLooser pos.direction pos.initialStop held.stop ∧
      NoLooser pos.direction held.stop (evaluate rules pos eachTime held bar).stop ∧
      Tightened rules pos held bar (applyExitRules rules pos held bar)) ∧
    ∀ target1 target2 (loopBars : List LoopBar) later,
      overBars rules ⟨pos, target1, target2, ⟨pos.initialStop, best⟩⟩ loopBars = .ok later →
      later.held = evaluateAll rules pos true ⟨pos.initialStop, best⟩ (loopBars.map LoopBar.toBar) ∧
      ∀ bar hit price, onBar rules later bar = .error (.level hit price) →
        determineExitPrice pos.direction
            (evaluateAll rules pos true ⟨pos.initialStop, best⟩ (loopBars.map LoopBar.toBar)).stop
            target1 target2 bar.low bar.high (some bar.open_) = some (hit, price) := by
  constructor
  · intro earlier bar rest _ held
    obtain ⟨whole, noLooser⟩ := @evaluateAll_noLooser rules pos eachTime entry earlier ⟨pos.initialStop, best⟩ initial
    have tightened := applyExitRules_tightened rules entry whole bar
    refine ⟨noLooser, ?_, tightened⟩
    rw [evaluate_stop rules eachTime entry whole bar]
    exact tightened.noLooser
  · intro target1 target2 loopBars later open_
    have isLater := overBars_held open_
    subst isLater
    exact ⟨rfl, fun bar hit price exit => onBar_level exit⟩

/-- A long from 100 with its stop at 98, break-even at 1R and a trailing stop of 1 %. -/
theorem rules_only_tighten_long :
    let rules : Rules := { trailingStopPct := some 1, breakEvenAtR := some 1 }
    let pos : Position := { direction := .long, entryPrice := 100, initialStop := 98 }
    let bars : List Bar := [⟨100, 102, 100, 101, 0⟩, ⟨101, 106, 101, 105, 0⟩]
    NoLooser .long 98 (evaluateAll rules pos true ⟨98, none⟩ (bars.take 1)).stop ∧
      (evaluateAll rules pos true ⟨98, none⟩ bars).stop = 5247 / 50 := by
  intro rules pos bars
  have tightens := rules_only_tighten rules pos true none bars (by decide +kernel) (by decide +kernel)
  have first := tightens.1 (bars.take 1) ⟨101, 106, 101, 105, 0⟩ [] rfl
  exact ⟨first.1, by decide +kernel⟩

end AdvanceTrading.ExitRules
