import AdvanceTrading.Instruments.StructureMetrics
import AdvanceTrading.Misc.Machine
import AdvanceTrading.Misc.PyFloat
import AdvanceTrading.Trading.ExitRules

/-!
# The bars of an option backtest

Model of the bar loop of `run_option_backtest` (`app/backtest/options_engine.py:381-530`)
from the open position's side: which rule closes it on a bar and the spot of the
underlying that its legs are repriced at, with `underlying_exit_reason` and
`structure_exit_reason` (`app/trading/position_monitor.py:1129-1174`) and
`_breach_level`. A text of a reason is a constructor with the numbers it shows.

What the loop asks of other parts is a parameter, by the number of the bar: the
pricer (`none` is `PricingUnavailable`), the margin call, the template's exit
signal, and the position that the entry rules open.
-/

namespace AdvanceTrading.OptionBacktest

open ExitLogic Structures
open ExitRules (Bar)
open TriggerRules (minuteUs dayUs istOffset istDay)

/-- `_Leg`. -/
structure Leg where
  right : Right
  role : Role
  strike : ℚ
  expiry : Int
  ratio : ℚ
  entryPrice : ℚ
  quantity : ℚ
  deriving DecidableEq

/-- What closes a position: the levels of a single option, or the economics of a structure. -/
inductive Plan where
  | single (direction : Direction) (stop t1 t2 premiumLevel : Option ℚ)
  | structured (metrics : StructureMetrics)
  deriving DecidableEq

/-- `_Open`; `nearExpiry` is a day, `entryTime` an instant. -/
structure Open where
  legs : List Leg
  plan : Plan
  entryTime : Int
  nearExpiry : Int
  deriving DecidableEq

/-- The stop and the target of a structure's own value. -/
inductive ValueHit where
  | stop
  | target
  deriving DecidableEq, Repr

/-- A level of the underlying that a structure leaves at. -/
inductive Breach where
  | lowerBreakeven (level : ℚ)
  | upperBreakeven (level : ℚ)
  | shortStrike (strike : ℚ) (right : Right)
  deriving DecidableEq

/-- The reason of an exit. -/
inductive Reason where
  | expiry (day : Int)
  | template
  | underlying (hit : Hit)
  | breach (breach : Breach)
  | timeInTrade (minutes : Int)
  | timeFlatAt (time : Int)
  | squareOff (time : Int)
  | premiumFloor (level : ℚ)
  | premiumCeiling (level : ℚ)
  | value (hit : ValueHit)
  | marginCall
  | endOfBacktest
  deriving DecidableEq

/-- A closed position: its bar, its reason and what its legs were repriced at. -/
structure Exit where
  index : Nat
  bar : Bar
  pos : Open
  reason : Reason
  spot : ℚ
  prices : List ℚ

/-- The settings of a run and what the loop asks of other parts. -/
structure Setup where
  isDaily : Bool := false
  intraday : Bool := true
  heldForDays : Bool := false
  squareOffAt : Option Int := none
  timeExitMinutes : Option Int := none
  exitAt : Option Int := none
  templateExit : Bool := false
  /-- `pricer.price` at a bar, by the leg and the spot. -/
  price : Nat → Leg → ℚ → Option ℚ
  /-- `margin.call` at a bar, by the position, its prices and the spot. -/
  marginCall : Nat → Open → List ℚ → ℚ → Bool := fun _ _ _ _ => false
  /-- `strategy.exit_signal` on a bar's close. -/
  exitSignal : Nat → Open → Bool := fun _ _ => false
  /-- The position that the entry rules open at a bar with none open. -/
  enter : Nat → Option Open

/-- The time of the IST day. -/
def timeOfDay (t : Int) : Int := (t + istOffset) % dayUs

/-- `SETTLEMENT_FROM`: 15:15. -/
def settlementFrom : Int := (15 * 60 + 15) * minuteUs

/-! ## Levels of the underlying -/

/-- `underlying_exit_reason` at a price. -/
def underlyingExitReason (meta_ : StructureMetrics) (price : ℚ) : Option Breach :=
  match meta_.underlyingExits.below.filter (price ≤ ·) with
  | some level => some (.lowerBreakeven level)
  | none =>
      match meta_.underlyingExits.above.filter (· ≤ price) with
      | some level => some (.upperBreakeven level)
      | none =>
          (meta_.shortStrikes.find? fun entry =>
              match entry.1 with
              | .pe => price ≤ entry.2
              | .ce => entry.2 ≤ price).map
            fun entry => .shortStrike entry.2 entry.1

/-- The values of `underlying_exits`, in the order the economics put them in. -/
def exitValues (meta_ : StructureMetrics) : List ℚ :=
  if meta_.payoff then meta_.underlyingExits.above.toList ++ meta_.underlyingExits.below.toList
  else meta_.underlyingExits.below.toList ++ meta_.underlyingExits.above.toList

/-- `candidates`: every level that a structure may leave at. -/
def levels (meta_ : StructureMetrics) : List ℚ := exitValues meta_ ++ meta_.shortStrikes.map Prod.snd

/-- `_breach_level`: the level nearest to the bar's extreme. -/
def breachLevel (meta_ : StructureMetrics) (level : ℚ) : ℚ :=
  (Py.maxBy (fun x y : ℚ => x < y) (fun c => |c - level|) (levels meta_)).getD level

/-- The level of the underlying that closes a position on a bar: the stop first, then a target, seen from the
bar's high and then from its low; of a structure a breach at the low, then at the high. -/
def levelExit (pos : Open) (bar : Bar) : Option (Reason × ℚ) :=
  match pos.plan with
  | .single direction stop t1 t2 _ =>
      let hitLow := underlyingExit direction stop t1 t2 bar.low
      let hitHigh := underlyingExit direction stop t1 t2 bar.high
      if hitLow = some .stopLoss ∨ hitHigh = some .stopLoss then some (.underlying .stopLoss, stop.getD 0)
      else (hitHigh <|> hitLow).map fun hit => (.underlying hit, if hit = .target2 then t2.getD 0 else t1.getD 0)
  | .structured meta_ =>
      match underlyingExitReason meta_ bar.low with
      | some breach => some (.breach breach, breachLevel meta_ bar.low)
      | none => (underlyingExitReason meta_ bar.high).map fun breach => (.breach breach, breachLevel meta_ bar.high)

/-! ## The structure's own value -/

/-- `structure_value`: what closing the structure costs for one unit. -/
def structureValue (pos : Open) (prices : List ℚ) : ℚ :=
  ((pos.legs.zip prices).map fun (leg, price) => (if leg.role = .short then price else -price) * leg.ratio).sum

/-- The stop of a structure is met at a value. -/
def stopMet (meta_ : StructureMetrics) (value : ℚ) : Bool :=
  if meta_.payoff ∨ meta_.pnlStop.isSome then meta_.pnlStop.any (meta_.netCredit - value ≤ ·)
  else if meta_.debit then meta_.stopValue.any (-value ≤ ·)
  else meta_.stopValue.any (· ≤ value)

/-- The target of a structure is met at a value. -/
def targetMet (meta_ : StructureMetrics) (value : ℚ) : Bool :=
  if meta_.payoff ∨ meta_.pnlStop.isSome then meta_.pnlTarget.any (· ≤ meta_.netCredit - value)
  else if meta_.debit then meta_.targetValue.any (· ≤ -value)
  else meta_.targetValue.any (value ≤ ·)

/-- `structure_exit_reason` without a price of the underlying. -/
def structureExitReason (meta_ : StructureMetrics) (value : ℚ) : Option ValueHit :=
  if stopMet meta_ value then some .stop else if targetMet meta_ value then some .target else none

/-! ## One bar -/

section Bars

variable (setup : Setup) (total : Nat)

/-- `past_close`. -/
def pastClose (pos : Open) (bar : Bar) : Bool :=
  pos.nearExpiry < istDay bar.time ||
    istDay bar.time = pos.nearExpiry && (setup.isDaily || settlementFrom ≤ timeOfDay bar.time)

/-- The time rules and the square-off. -/
def timeReason (pos : Open) (bar : Bar) : Option Reason :=
  match setup.timeExitMinutes.filter fun minutes => minutes ≠ 0 ∧ minutes * minuteUs ≤ bar.time - pos.entryTime with
  | some minutes => some (.timeInTrade minutes)
  | none =>
      match setup.exitAt.filter (· ≤ timeOfDay bar.time) with
      | some time => some (.timeFlatAt time)
      | none =>
          if setup.intraday && !setup.isDaily && !setup.heldForDays then
            (setup.squareOffAt.filter (· ≤ timeOfDay bar.time)).map .squareOff
          else none

/-- What the rules before the repricing decide. -/
structure Decision where
  reason : Option Reason
  spot : ℚ
  settle : Bool := false

/-- The settlement, the template's exit, the levels, and the time rules. -/
def decision (exitDue : Bool) (pos : Open) (bar : Bar) : Decision :=
  if pastClose setup pos bar then
    { reason := some (.expiry pos.nearExpiry),
      spot := if pos.nearExpiry < istDay bar.time then bar.open_ else bar.close,
      settle := true }
  else if exitDue then { reason := some .template, spot := bar.open_ }
  else
    match levelExit pos bar with
    | some (reason, spot) => { reason := some reason, spot := spot }
    | none => { reason := timeReason setup pos bar, spot := bar.close }

/-- `leg_prices`: a leg that settles is worth its intrinsic value. -/
def legPrices (index : Nat) (pos : Open) (spot : ℚ) (settle : Bool) : Option (List ℚ) :=
  pos.legs.mapM fun leg =>
    if settle ∧ leg.expiry = pos.nearExpiry then
      some (Py.round2 (match leg.right with
        | .ce => max (spot - leg.strike) 0
        | .pe => max (leg.strike - spot) 0))
    else setup.price index leg spot

/-- The premium's floor or ceiling, or the structure's own value, at the close. -/
def valueReason (pos : Open) (prices : List ℚ) : Option Reason :=
  match pos.plan with
  | .single _ _ _ _ premiumLevel =>
      match premiumLevel, pos.legs.head?, prices.head? with
      | some level, some leg, some price =>
          match leg.role with
          | .long => if price ≤ level then some (.premiumFloor level) else none
          | .short => if level ≤ price then some (.premiumCeiling level) else none
      | _, _, _ => none
  | .structured meta_ => (structureExitReason meta_ (structureValue pos prices)).map .value

/-- The reason of a bar, after the repricing. -/
def reasonOf (index : Nat) (pos : Open) (decided : Decision) (prices : List ℚ) : Option Reason :=
  decided.reason <|> valueReason pos prices <|>
    (if setup.marginCall index pos prices decided.spot then some .marginCall else none)

/-- What the loop carries from bar to bar. -/
structure State where
  openPos : Option Open := none
  exitDue : Bool := false
  exits : List Exit := []

/-- The entry rules of a bar with no position open. -/
def State.entered (s : State) (index : Nat) : State := { s with openPos := setup.enter index }

/-- The turn of the loop at a bar. -/
def turn (s : State) (label : Nat × Bar) : State :=
  let (index, bar) := label
  match s.openPos with
  | none => s.entered setup index
  | some pos =>
      let decided := decision setup s.exitDue pos bar
      match legPrices setup index pos decided.spot decided.settle with
      | none => { s with exitDue := false }
      | some prices =>
          match reasonOf setup index pos decided prices with
          | some reason =>
              ({ openPos := none, exitDue := false,
                 exits := s.exits ++ [⟨index, bar, pos, reason, decided.spot, prices⟩] } : State).entered setup index
          | none => { s with exitDue := setup.templateExit && decide (index + 1 < total) && setup.exitSignal index pos }

/-- The loop as a machine whose labels are the bars with their numbers. -/
def machine : Machine State (Nat × Bar) where
  step s label := some (turn setup total s label)

end Bars

/-- The bars of the loop, from `min_hist` on. -/
def loopBars (minHist : Nat) (bars : List Bar) : List (Nat × Bar) := (bars.zipIdx.map Prod.swap).drop minHist

/-- The position left open is closed at the last bar's close. -/
def finish (setup : Setup) (bars : List Bar) (s : State) : List Exit :=
  match s.openPos, bars.getLast? with
  | some pos, some last =>
      match legPrices setup (bars.length - 1) pos last.close false with
      | some prices => s.exits ++ [⟨bars.length - 1, last, pos, .endOfBacktest, last.close, prices⟩]
      | none => s.exits
  | _, _ => s.exits

/-- The exits of `run_option_backtest`. -/
def exits (setup : Setup) (minHist : Nat) (bars : List Bar) : Option (List Exit) :=
  ((machine setup bars.length).run {} (loopBars minHist bars)).map (finish setup bars)

end AdvanceTrading.OptionBacktest

/-!
# Exits at a traded price of the underlying

Where an exit of the option backtest is repriced at a spot that its bar traded.
The loop fills at the level itself: a bar that lies wholly beyond the level never
traded it, and of a structure the level nearest to the bar's extreme need not be
the one that was reached. `determine_exit_price` fills such a bar at its open.
-/

namespace AdvanceTrading.OptionBacktest

open ExitLogic Structures
open ExitRules (Bar)
open TriggerRules (Side istDay)

/-- A price that the bar traded. -/
def InBar (bar : Bar) (spot : ℚ) : Prop := bar.low ≤ spot ∧ spot ≤ bar.high

/-- A bar whose open and close lie in its range. -/
structure Sound (bar : Bar) : Prop where
  opens : InBar bar bar.open_
  closes : InBar bar bar.close

theorem Sound.range {bar : Bar} (sound : Sound bar) : bar.low ≤ bar.high := sound.opens.1.trans sound.opens.2

/-- The whole bar lies beyond a level, on the side that it is reached from. -/
def Jumped (side : Side) (level : ℚ) (bar : Bar) : Prop :=
  match side with
  | .above => level < bar.low
  | .below => bar.high < level

/-- The bar reaches the stop. -/
def StopReached (direction : Direction) (stop : Option ℚ) (bar : Bar) : Prop :=
  ∃ level, stop = some level ∧ StopTouched direction level bar.low bar.high

/-- A set stop is not jumped; with none reached, neither is the second target, nor the first unless the
bar's high is at the second. -/
structure SingleTraded (direction : Direction) (stop t1 t2 : Option ℚ) (bar : Bar) : Prop where
  stopTraded : ∀ level, stop = some level → stopSet direction level = true → ¬ Jumped direction.stopSide level bar
  second : ¬ StopReached direction stop bar → ∀ level, t2 = some level → ¬ Jumped direction.targetSide level bar
  first : ¬ StopReached direction stop bar → ∀ level, t1 = some level → Jumped direction.targetSide level bar →
    ∃ level', t2 = some level' ∧ touched level' direction.targetSide bar.high bar.high = true

/-- The level nearest to an extreme that a structure is breached at was traded. -/
structure StructureTraded (meta_ : StructureMetrics) (bar : Bar) : Prop where
  low : ∀ breach, underlyingExitReason meta_ bar.low = some breach →
    ∀ level, Py.FirstBest (fun c => |c - bar.low|) (levels meta_) level → InBar bar level
  high : underlyingExitReason meta_ bar.low = none → ∀ breach, underlyingExitReason meta_ bar.high = some breach →
    ∀ level, Py.FirstBest (fun c => |c - bar.high|) (levels meta_) level → InBar bar level

/-- The levels that a bar takes a position out at were traded. -/
def LevelsTraded (pos : Open) (bar : Bar) : Prop :=
  match pos.plan with
  | .single direction stop t1 t2 _ => SingleTraded direction stop t1 t2 bar
  | .structured meta_ => StructureTraded meta_ bar

/-! ## A single option -/

variable {pos : Open} {price level spot : ℚ} {side : Side} {reason : Reason}

section Single

variable {direction : Direction} {stop t1 t2 premium : Option ℚ} {bar : Bar}

/-- The side a level is touched from, at one end of the bar or at the other. -/
theorem touched_range (range : bar.low ≤ bar.high) :
    touched level side bar.low bar.high = true ↔
      touched level side bar.low bar.low = true ∨ touched level side bar.high bar.high = true := by
  cases side with
  | above =>
    simp only [touched, decide_eq_true_eq]
    exact ⟨.inr, fun ends => ends.elim (fun atLow => atLow.trans range) id⟩
  | below =>
    simp only [touched, decide_eq_true_eq]
    exact ⟨.inl, fun ends => ends.elim id fun atHigh => range.trans atHigh⟩

/-- A touched level lies in the bar exactly when it is not jumped. -/
theorem inBar_iff (reached : touched level side bar.low bar.high = true) :
    InBar bar level ↔ ¬ Jumped side level bar := by
  cases side with
  | above =>
    have atMost : level ≤ bar.high := of_decide_eq_true reached
    simp [InBar, Jumped, atMost]
  | below =>
    have atLeast : bar.low ≤ level := of_decide_eq_true reached
    simp [InBar, Jumped, atLeast]

theorem touched_of_jumped (jumped : Jumped side level bar) (inside : InBar bar price) :
    touched level side price price = true := by
  cases side with
  | above => exact decide_eq_true (jumped.le.trans inside.1)
  | below => exact decide_eq_true (inside.2.trans jumped.le)

/-- `underlying_exit` names the stop exactly when the price has reached a set stop. -/
theorem underlyingExit_stop :
    underlyingExit direction stop t1 t2 price = some .stopLoss ↔
      ∃ level, stop = some level ∧ stopSet direction level = true ∧
        touched level direction.stopSide price price = true := by
  have any_iff := Option.any_eq_true
    (fun level => stopSet direction level && touched level direction.stopSide price price) stop
  simp only [Bool.and_eq_true] at any_iff
  rw [← any_iff]
  unfold underlyingExit
  constructor
  · intro named
    by_contra missed
    rw [if_neg missed] at named
    split at named
    · exact nomatch named
    · split at named <;> exact nomatch named
  · exact fun reached => if_pos reached

/-- Without the stop `underlying_exit` names the second target, then the first. -/
theorem underlyingExit_targets (missed : underlyingExit direction stop t1 t2 price ≠ some .stopLoss) :
    underlyingExit direction stop t1 t2 price =
      if t2.any (touched · direction.targetSide price price) then some .target2
      else if t1.any (touched · direction.targetSide price price) then some .target1 else none := by
  unfold underlyingExit at missed ⊢
  split
  · rename_i reached
    exact absurd (if_pos reached) missed
  · rfl

theorem stopReached_iff (t1 t2 : Option ℚ) (range : bar.low ≤ bar.high) :
    StopReached direction stop bar ↔
      underlyingExit direction stop t1 t2 bar.low = some .stopLoss ∨
        underlyingExit direction stop t1 t2 bar.high = some .stopLoss := by
  simp only [underlyingExit_stop, StopReached, StopTouched, touched_range range]
  constructor
  · rintro ⟨level, given, set, atLow | atHigh⟩
    · exact .inl ⟨level, given, set, atLow⟩
    · exact .inr ⟨level, given, set, atHigh⟩
  · rintro (⟨level, given, set, atLow⟩ | ⟨level, given, set, atHigh⟩)
    · exact ⟨level, given, set, .inl atLow⟩
    · exact ⟨level, given, set, .inr atHigh⟩

section

variable (plan : pos.plan = .single direction stop t1 t2 premium)
include plan

section

variable (range : bar.low ≤ bar.high)
include range

/-- The two ends of the bar without a stop: the target named at the high, or else at the low. -/
theorem levelExit_target (missed : ¬ StopReached direction stop bar) :
    levelExit pos bar =
      (underlyingExit direction stop t1 t2 bar.high <|> underlyingExit direction stop t1 t2 bar.low).map fun hit =>
        (.underlying hit, if hit = .target2 then t2.getD 0 else t1.getD 0) := by
  rw [stopReached_iff t1 t2 range] at missed
  unfold levelExit
  rw [plan]
  exact if_neg missed

theorem levelExit_stop (reached : StopReached direction stop bar) :
    levelExit pos bar = some (.underlying .stopLoss, stop.getD 0) := by
  rw [stopReached_iff t1 t2 range] at reached
  unfold levelExit
  rw [plan]
  exact if_pos reached

/-- A target that a bar takes: its level is touched, and the first one is only taken where the high is not at
the second. -/
theorem levelExit_target_cases (missed : ¬ StopReached direction stop bar)
    (exit : levelExit pos bar = some (reason, spot)) :
    touched spot direction.targetSide bar.low bar.high = true ∧
      (reason = .underlying .target2 ∧ t2 = some spot ∨
        reason = .underlying .target1 ∧ t1 = some spot ∧
          ∀ level, t2 = some level → touched level direction.targetSide bar.high bar.high = false) := by
  rw [levelExit_target plan range missed] at exit
  rw [stopReached_iff t1 t2 range, not_or] at missed
  obtain ⟨missedLow, missedHigh⟩ := missed
  rw [underlyingExit_targets missedLow, underlyingExit_targets missedHigh] at exit
  by_cases second : t2.any (touched · direction.targetSide bar.high bar.high) = true
  · rw [if_pos second] at exit
    obtain ⟨level, rfl, reached⟩ := (Option.any_eq_true _ _).mp second
    obtain ⟨rfl, rfl⟩ := Prod.mk.inj (Option.some.inj exit)
    exact ⟨(touched_range range).mpr (.inr reached), .inl ⟨rfl, rfl⟩⟩
  rw [if_neg second] at exit
  have not_second : ∀ level, t2 = some level → touched level direction.targetSide bar.high bar.high = false := by
    rintro level rfl
    exact Bool.eq_false_iff.mpr second
  by_cases first : t1.any (touched · direction.targetSide bar.high bar.high) = true
  · rw [if_pos first] at exit
    obtain ⟨level, rfl, reached⟩ := (Option.any_eq_true _ _).mp first
    obtain ⟨rfl, rfl⟩ := Prod.mk.inj (Option.some.inj exit)
    exact ⟨(touched_range range).mpr (.inr reached), .inr ⟨rfl, rfl, not_second⟩⟩
  rw [if_neg first] at exit
  by_cases secondLow : t2.any (touched · direction.targetSide bar.low bar.low) = true
  · rw [if_pos secondLow] at exit
    obtain ⟨level, rfl, reached⟩ := (Option.any_eq_true _ _).mp secondLow
    obtain ⟨rfl, rfl⟩ := Prod.mk.inj (Option.some.inj exit)
    exact ⟨(touched_range range).mpr (.inl reached), .inl ⟨rfl, rfl⟩⟩
  rw [if_neg secondLow] at exit
  by_cases firstLow : t1.any (touched · direction.targetSide bar.low bar.low) = true
  · rw [if_pos firstLow] at exit
    obtain ⟨level, rfl, reached⟩ := (Option.any_eq_true _ _).mp firstLow
    obtain ⟨rfl, rfl⟩ := Prod.mk.inj (Option.some.inj exit)
    exact ⟨(touched_range range).mpr (.inl reached), .inr ⟨rfl, rfl, not_second⟩⟩
  rw [if_neg firstLow] at exit
  exact nomatch exit

/-- A single option leaves a bar at a traded level exactly when `SingleTraded` says so. -/
theorem singleTraded_iff :
    (∀ reason spot, levelExit pos bar = some (reason, spot) → InBar bar spot) ↔
      SingleTraded direction stop t1 t2 bar := by
  have low_in : InBar bar bar.low := ⟨le_rfl, range⟩
  have high_in : InBar bar bar.high := ⟨range, le_rfl⟩
  constructor
  · intro within
    refine ⟨?_, ?_, ?_⟩
    · rintro level rfl set jumped
      have reached : touched level direction.stopSide bar.low bar.high = true :=
        (touched_range range).mpr (.inl (touched_of_jumped jumped low_in))
      exact (inBar_iff reached).mp (within _ _ (levelExit_stop plan range ⟨level, rfl, set, reached⟩)) jumped
    · rintro missed level rfl jumped
      have named := (not_or.mp ((stopReached_iff t1 (some level) range).not.mp missed)).2
      have exit := levelExit_target plan range missed
      rw [underlyingExit_targets named, Option.any_some, if_pos (touched_of_jumped jumped high_in)] at exit
      have reached := (touched_range range).mpr (.inr (touched_of_jumped jumped high_in))
      exact (inBar_iff reached).mp (within _ _ exit) jumped
    · rintro missed level rfl jumped
      by_contra none_at_high
      have named := (not_or.mp ((stopReached_iff (some level) t2 range).not.mp missed)).2
      have exit := levelExit_target plan range missed
      have not_second : ¬ t2.any (touched · direction.targetSide bar.high bar.high) = true := by
        intro any
        exact none_at_high ((Option.any_eq_true _ _).mp any)
      rw [underlyingExit_targets named, if_neg not_second, Option.any_some,
        if_pos (touched_of_jumped jumped high_in)] at exit
      have reached := (touched_range range).mpr (.inr (touched_of_jumped jumped high_in))
      exact (inBar_iff reached).mp (within _ _ exit) jumped
  · intro traded reason spot exit
    by_cases reached : StopReached direction stop bar
    · obtain ⟨level, rfl, set, range_touched⟩ := reached
      rw [levelExit_stop plan range ⟨level, rfl, set, range_touched⟩] at exit
      obtain ⟨rfl, rfl⟩ := Prod.mk.inj (Option.some.inj exit)
      exact (inBar_iff range_touched).mpr (traded.stopTraded level rfl set)
    · obtain ⟨range_touched, ⟨-, given⟩ | ⟨-, given, not_second⟩⟩ := levelExit_target_cases plan range reached exit
      · exact (inBar_iff range_touched).mpr (traded.second reached spot given)
      · apply (inBar_iff range_touched).mpr
        intro jumped
        obtain ⟨level, second, atHigh⟩ := traded.first reached spot given jumped
        exact Bool.false_ne_true ((not_second level second).symm.trans atHigh)

end

end

end Single

/-! ## A structure -/

section Structured

variable {meta_ : StructureMetrics} {bar : Bar}

/-- A breach is of one of the levels. -/
theorem levels_of_breach {breach : Breach}
    (breached : underlyingExitReason meta_ price = some breach) : levels meta_ ≠ [] := by
  intro none_at_all
  obtain ⟨no_exits, no_strikes⟩ := List.append_eq_nil_iff.mp none_at_all
  have strikes : meta_.shortStrikes = [] := List.map_eq_nil_iff.mp no_strikes
  have below : meta_.underlyingExits.below = none := by
    cases given : meta_.underlyingExits.below with
    | none => rfl
    | some level =>
      simp only [exitValues, given] at no_exits
      split at no_exits <;> simp at no_exits
  have above : meta_.underlyingExits.above = none := by
    cases given : meta_.underlyingExits.above with
    | none => rfl
    | some level =>
      simp only [exitValues, given] at no_exits
      split at no_exits <;> simp at no_exits
  unfold underlyingExitReason at breached
  rw [below, above, strikes] at breached
  exact nomatch breached

theorem breachLevel_nearest (some_level : levels meta_ ≠ []) :
    Py.FirstBest (fun c => |c - price|) (levels meta_) (breachLevel meta_ price) := by
  unfold breachLevel
  cases taken : Py.maxBy (fun x y : ℚ => x < y) (fun c => |c - price|) (levels meta_) with
  | none =>
    cases given : levels meta_ with
    | nil => exact absurd given some_level
    | cons first rest =>
      rw [given] at taken
      exact nomatch taken
  | some level => exact Py.maxBy_firstBest taken

theorem levelExit_low {breach : Breach} (plan : pos.plan = .structured meta_)
    (breached : underlyingExitReason meta_ bar.low = some breach) :
    levelExit pos bar = some (.breach breach, breachLevel meta_ bar.low) := by
  unfold levelExit
  rw [plan]
  simp only [breached]

theorem levelExit_high (plan : pos.plan = .structured meta_)
    (kept : underlyingExitReason meta_ bar.low = none) :
    levelExit pos bar =
      (underlyingExitReason meta_ bar.high).map fun breach => (.breach breach, breachLevel meta_ bar.high) := by
  unfold levelExit
  rw [plan]
  simp only [kept]

/-- A structure leaves a bar at a traded level exactly when `StructureTraded` says so. -/
theorem structureTraded_iff (plan : pos.plan = .structured meta_) :
    (∀ reason spot, levelExit pos bar = some (reason, spot) → InBar bar spot) ↔ StructureTraded meta_ bar := by
  constructor
  · intro within
    refine ⟨fun breach breached level first => ?_, fun kept breach breached level first => ?_⟩
    · rw [first.unique (breachLevel_nearest (levels_of_breach breached))]
      exact within _ _ (levelExit_low plan breached)
    · rw [first.unique (breachLevel_nearest (levels_of_breach breached))]
      apply within (.breach breach)
      rw [levelExit_high plan kept, breached]
      rfl
  · intro traded reason spot exit
    cases breached : underlyingExitReason meta_ bar.low with
    | some breach =>
      rw [levelExit_low plan breached] at exit
      obtain ⟨rfl, rfl⟩ := Prod.mk.inj (Option.some.inj exit)
      exact traded.low breach breached _ (breachLevel_nearest (levels_of_breach breached))
    | none =>
      rw [levelExit_high plan breached] at exit
      obtain ⟨breach, atHigh, given⟩ := Option.map_eq_some_iff.mp exit
      obtain ⟨rfl, rfl⟩ := Prod.mk.inj given
      exact traded.high breached breach atHigh _ (breachLevel_nearest (levels_of_breach atHigh))

end Structured

/-- A position leaves a bar at a traded level exactly when `LevelsTraded` says so. -/
theorem levelsTraded_iff {bar : Bar} (range : bar.low ≤ bar.high) :
    (∀ reason spot, levelExit pos bar = some (reason, spot) → InBar bar spot) ↔ LevelsTraded pos bar := by
  unfold LevelsTraded
  cases plan : pos.plan with
  | single direction stop t1 t2 premium => exact singleTraded_iff plan range
  | structured meta_ => exact structureTraded_iff plan

/-! ## One bar -/

/-- The rules that come before the levels, and the close after the last bar. -/
def Reason.apart : Reason → Bool
  | .expiry _ => true
  | .template => true
  | .endOfBacktest => true
  | _ => false

/-- A stop that is reached is taken: no other rule that judges the bar closes a single option at it, and a
structure's target is not taken at a value that meets its stop. -/
def StopFirst (exit : Exit) : Prop :=
  match exit.pos.plan with
  | .single direction stop _ _ _ =>
      StopReached direction stop exit.bar → exit.reason.apart = false → exit.reason = .underlying .stopLoss
  | .structured meta_ =>
      stopMet meta_ (structureValue exit.pos exit.prices) = true → exit.reason ≠ .value .target

/-- What is claimed of an exit. -/
structure Fair (exit : Exit) : Prop where
  inBar : InBar exit.bar exit.spot
  stopFirst : StopFirst exit

section Turn

variable {setup : Setup} {total : Nat} {bar : Bar} {pos : Open} {exitDue : Bool}

/-- The levels are judged: the position does not settle and no template exit is due. -/
def Judged (setup : Setup) (s : State) (pos : Open) (bar : Bar) : Prop :=
  s.openPos = some pos ∧ pastClose setup pos bar = false ∧ s.exitDue = false

theorem decision_inBar (sound : Sound bar)
    (traded : pastClose setup pos bar = false → exitDue = false → LevelsTraded pos bar) :
    InBar bar (decision setup exitDue pos bar).spot := by
  unfold decision
  by_cases past : pastClose setup pos bar = true
  · rw [if_pos past]
    dsimp only
    split
    · exact sound.opens
    · exact sound.closes
  rw [if_neg past]
  by_cases due : exitDue = true
  · rw [if_pos due]
    exact sound.opens
  rw [if_neg due]
  have within := (levelsTraded_iff sound.range).mpr (traded (Bool.eq_false_iff.mpr past) (Bool.eq_false_iff.mpr due))
  cases exit : levelExit pos bar with
  | none => exact sound.closes
  | some taken => exact within taken.1 taken.2 exit

/-- A stop that is reached decides the bar, unless an earlier rule has. -/
theorem decision_stop (setup : Setup) (exitDue : Bool) {direction : Direction}
    {stop t1 t2 premium : Option ℚ} (plan : pos.plan = .single direction stop t1 t2 premium)
    (range : bar.low ≤ bar.high) (reached : StopReached direction stop bar) :
    ∃ reason, (decision setup exitDue pos bar).reason = some reason ∧
      (reason.apart = true ∨ reason = .underlying .stopLoss) := by
  unfold decision
  split
  · exact ⟨_, rfl, .inl rfl⟩
  split
  · exact ⟨_, rfl, .inl rfl⟩
  rw [levelExit_stop plan range reached]
  exact ⟨_, rfl, .inr rfl⟩

theorem levelExit_not_value (hit : ValueHit) : levelExit pos bar ≠ some (.value hit, spot) := by
  unfold levelExit
  cases pos.plan with
  | single direction stop t1 t2 premium =>
    dsimp only
    split
    · exact nofun
    · cases underlyingExit direction stop t1 t2 bar.high <|> underlyingExit direction stop t1 t2 bar.low <;> exact nofun
  | structured meta_ =>
    dsimp only
    cases underlyingExitReason meta_ bar.low with
    | some breach => simp
    | none => cases underlyingExitReason meta_ bar.high <;> simp

theorem timeReason_not_value (hit : ValueHit) : timeReason setup pos bar ≠ some (.value hit) := by
  unfold timeReason
  split
  · exact nofun
  split
  · exact nofun
  split
  · cases setup.squareOffAt.filter (· ≤ timeOfDay bar.time) <;> exact nofun
  · exact nofun

/-- Only the structure's own value gives a reason of that kind. -/
theorem decision_not_value (hit : ValueHit) : (decision setup exitDue pos bar).reason ≠ some (.value hit) := by
  unfold decision
  split
  · exact nofun
  split
  · exact nofun
  cases exit : levelExit pos bar with
  | none => exact timeReason_not_value hit
  | some taken =>
    rintro given
    have same := Option.some.inj given
    exact levelExit_not_value hit (exit.trans (congrArg some (Prod.ext same rfl)))

theorem structureExitReason_target {meta_ : StructureMetrics} {value : ℚ}
    (taken : structureExitReason meta_ value = some .target) : stopMet meta_ value = false := by
  unfold structureExitReason at taken
  split at taken
  · exact nomatch taken
  · rename_i missed
    exact Bool.eq_false_iff.mpr missed

/-- What a turn of the loop adds to the exits. -/
theorem turn_cases (setup : Setup) (total : Nat) (s : State) (label : Nat × Bar) :
    (turn setup total s label).exits = s.exits ∨
      ∃ pos prices reason, s.openPos = some pos ∧
        reasonOf setup label.1 pos (decision setup s.exitDue pos label.2) prices = some reason ∧
        (turn setup total s label).exits =
          s.exits ++ [⟨label.1, label.2, pos, reason, (decision setup s.exitDue pos label.2).spot, prices⟩] := by
  obtain ⟨index, bar⟩ := label
  unfold turn
  dsimp only
  cases s.openPos with
  | none => exact .inl rfl
  | some pos =>
    dsimp only
    cases legPrices setup index pos (decision setup s.exitDue pos bar).spot
      (decision setup s.exitDue pos bar).settle with
    | none => exact .inl rfl
    | some prices =>
      dsimp only
      cases given : reasonOf setup index pos (decision setup s.exitDue pos bar) prices with
      | none => exact .inl rfl
      | some reason => exact .inr ⟨pos, prices, reason, rfl, given, rfl⟩

/-- The exit that a turn adds is fair where the levels that it judges were traded. -/
theorem fair_of_turn {s : State} {index : Nat} {prices : List ℚ} (sound : Sound bar)
    (traded : pastClose setup pos bar = false → s.exitDue = false → LevelsTraded pos bar)
    (decided : reasonOf setup index pos (decision setup s.exitDue pos bar) prices = some reason) :
    Fair ⟨index, bar, pos, reason, (decision setup s.exitDue pos bar).spot, prices⟩ := by
  refine ⟨decision_inBar sound traded, ?_⟩
  unfold reasonOf at decided
  unfold StopFirst
  cases plan : pos.plan with
  | single direction stop t1 t2 premium =>
    intro reached not_apart
    obtain ⟨first, given, early⟩ := decision_stop setup s.exitDue plan sound.range reached
    rw [given] at decided
    obtain rfl := Option.some.inj decided
    rcases early with is_apart | is_stop
    · exact absurd is_apart (Bool.eq_false_iff.mp not_apart)
    · exact is_stop
  | structured meta_ =>
    rintro met rfl
    cases given : (decision setup s.exitDue pos bar).reason with
    | some first =>
      rw [given] at decided
      exact decision_not_value .target (given.trans decided)
    | none =>
      rw [given] at decided
      cases value : structureExitReason meta_ (structureValue pos prices) with
      | some hit =>
        have valued : valueReason pos prices = some (.value hit) := by
          unfold valueReason
          rw [plan]
          simp only [value, Option.map_some]
        rw [valued] at decided
        obtain rfl := Reason.value.inj (Option.some.inj decided)
        exact Bool.false_ne_true ((structureExitReason_target value).symm.trans met)
      | none =>
        have valued : valueReason pos prices = none := by
          unfold valueReason
          rw [plan]
          simp only [value, Option.map_none]
        rw [valued] at decided
        split at decided <;> exact nomatch decided

end Turn

/-! ## The run -/

/-- On every bar where the levels of the open position are judged, those it is taken out at were traded. -/
def BarsTraded (setup : Setup) (s : State) (label : Nat × Bar) : Prop :=
  ∀ pos, Judged setup s pos label.2 → LevelsTraded pos label.2

theorem fair_step {setup : Setup} {total : Nat} {s : State} {label : Nat × Bar}
    (fair : ∀ exit ∈ s.exits, Fair exit) (sound : Sound label.2) (traded : BarsTraded setup s label) :
    ∀ exit ∈ (turn setup total s label).exits, Fair exit := by
  rcases turn_cases setup total s label with same | ⟨pos, prices, reason, isOpen, decided, added⟩
  · rwa [same]
  · rw [added]
    intro exit member
    rcases List.mem_append.mp member with member | member
    · exact fair exit member
    · rw [List.mem_singleton.mp member]
      exact fair_of_turn sound (fun open_ due => traded pos ⟨isOpen, open_, due⟩) decided

theorem fair_finish {setup : Setup} {bars : List Bar} {s : State} (fair : ∀ exit ∈ s.exits, Fair exit)
    (sound : ∀ bar ∈ bars, Sound bar) : ∀ exit ∈ finish setup bars s, Fair exit := by
  unfold finish
  cases s.openPos with
  | none => exact fair
  | some pos =>
    cases last : bars.getLast? with
    | none => exact fair
    | some bar =>
      dsimp only
      cases legPrices setup (bars.length - 1) pos bar.close false with
      | none => exact fair
      | some prices =>
        intro exit member
        rcases List.mem_append.mp member with member | member
        · exact fair exit member
        · rw [List.mem_singleton.mp member]
          refine ⟨(sound bar (List.mem_of_getLast? last)).closes, ?_⟩
          unfold StopFirst
          cases pos.plan with
          | single direction stop t1 t2 premium => exact fun _ not_apart => nomatch not_apart
          | structured meta_ => exact fun _ => nofun

theorem mem_of_loopBars {minHist : Nat} {bars : List Bar} {label : Nat × Bar}
    (member : label ∈ loopBars minHist bars) : label.2 ∈ bars := by
  obtain ⟨entry, inside, rfl⟩ := List.mem_map.mp (List.mem_of_mem_drop member)
  exact List.fst_mem_of_mem_zipIdx inside

/-- The loop goes through all of its bars. -/
theorem run_isSome (setup : Setup) (total : Nat) (s : State) (labels : List (Nat × Bar)) :
    ∃ t, (machine setup total).run s labels = some t := by
  induction labels generalizing s with
  | nil => exact ⟨s, rfl⟩
  | cons label labels ih => exact ih (turn setup total s label)

/-- In a run of sound bars on which every level that a position is taken out at was traded, every exit is repriced
at a spot that its bar traded, and a stop comes before a target. -/
theorem exits_fair (setup : Setup) (minHist : Nat) (bars : List Bar) (sound : ∀ bar ∈ bars, Sound bar)
    (traded : (machine setup bars.length).Meets (BarsTraded setup) {} (loopBars minHist bars)) :
    ∃ taken, exits setup minHist bars = some taken ∧ ∀ exit ∈ taken, Fair exit := by
  obtain ⟨s, run⟩ := run_isSome setup bars.length {} (loopBars minHist bars)
  have soundLabels : (machine setup bars.length).Meets (fun _ label => Sound label.2) {} (loopBars minHist bars) := by
    refine (machine setup bars.length).meets_of_splits fun earlier label rest _ split _ => ?_
    apply sound
    apply mem_of_loopBars
    rw [split]
    exact List.mem_append_right _ List.mem_cons_self
  have fair := (machine setup bars.length).run_invariant (P := fun s => ∀ exit ∈ s.exits, Fair exit)
    (fun s label t fair both stepped => by
      obtain rfl := Option.some.inj stepped
      exact fair_step fair both.1 both.2)
    (fun _ member => absurd member List.not_mem_nil) ((machine setup bars.length).meets_and soundLabels traded) run
  exact ⟨finish setup bars s, congrArg (Option.map _) run, fair_finish fair sound⟩

/-! ## A gap through the stop -/

/-- A bought call with a stop at 100 on the underlying. -/
def boughtCall : Open where
  legs := [⟨.ce, .long, 100, 1000, 1, 50, 75⟩]
  plan := .single .long (some 100) none none none
  entryTime := 0
  nearExpiry := 1000

/-- The call is opened on the first bar; every premium is 10. -/
def oneCall : Setup where
  intraday := false
  price := fun _ _ _ => some 10
  enter := fun index => if index = 0 then some boughtCall else none

/-- A bar around 105, then one that opens below the stop and stays there. -/
def gapDown : List Bar := [⟨104, 106, 104, 105, 0⟩, ⟨95, 96, 94, 95, 60000000⟩]

theorem exits_gapDown :
    (∀ bar ∈ gapDown, Sound bar) ∧
      exits oneCall 0 gapDown = some [⟨1, ⟨95, 96, 94, 95, 60000000⟩, boughtCall, .underlying .stopLoss, 100, [10]⟩] ∧
      ¬ InBar ⟨95, 96, 94, 95, 60000000⟩ 100 := by
  refine ⟨?_, rfl, ?_⟩
  · intro bar member
    rcases List.mem_cons.mp member with rfl | member
    · exact ⟨by norm_num [InBar], by norm_num [InBar]⟩
    · obtain rfl := List.mem_singleton.mp member
      exact ⟨by norm_num [InBar], by norm_num [InBar]⟩
  · norm_num [InBar]

/-- The same with a second bar that trades through the stop. -/
def fallThrough : List Bar := [⟨104, 106, 104, 105, 0⟩, ⟨104, 104, 94, 95, 60000000⟩]

theorem exits_fair_fallThrough :
    exits oneCall 0 fallThrough =
      some [⟨1, ⟨104, 104, 94, 95, 60000000⟩, boughtCall, .underlying .stopLoss, 100, [10]⟩] ∧
      ∃ taken, exits oneCall 0 fallThrough = some taken ∧ ∀ exit ∈ taken, Fair exit := by
  refine ⟨rfl, exits_fair oneCall 0 fallThrough ?_ ⟨?_, ?_⟩⟩
  · intro bar member
    rcases List.mem_cons.mp member with rfl | member
    · exact ⟨by norm_num [InBar], by norm_num [InBar]⟩
    · obtain rfl := List.mem_singleton.mp member
      exact ⟨by norm_num [InBar], by norm_num [InBar]⟩
  · exact fun pos judged => nomatch judged.1
  · intro opened stepped
    obtain rfl := Option.some.inj stepped
    refine ⟨fun pos judged => ?_, fun _ _ => trivial⟩
    obtain rfl := Option.some.inj judged.1
    refine ⟨?_, fun _ _ given => (nomatch given), fun _ _ given => (nomatch given)⟩
    rintro level given _ jumped
    obtain rfl := Option.some.inj given
    norm_num [Jumped, Direction.stopSide] at jumped

end AdvanceTrading.OptionBacktest
