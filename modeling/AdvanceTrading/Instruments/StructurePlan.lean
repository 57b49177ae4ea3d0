import AdvanceTrading.Misc.Dict
import AdvanceTrading.Misc.Months
import Mathlib.Data.List.Dedup
import Mathlib.Data.Prod.Lex

/-!
# The legs of an option structure

Model of `plan_structure` with `structure_sides`, `_primary_strike_rule`, `_step` and `plan_side`
(`app/instruments/spreads.py`) and of `select_strike` and `select_expiry`
(`app/instruments/contracts.py`). Strikes are rationals, a date is its day number. The texts of
the refusals are left out.
-/

namespace AdvanceTrading.Structures

/-! ## Data -/

/-- `OptionStrategy`. -/
inductive Strategy where
  | single
  | bullPutSpread
  | bearCallSpread
  | ironCondor
  | ironButterfly
  | shortStraddle
  | shortStrangle
  | longStraddle
  | longStrangle
  | calendarSpread
  | callRatioSpread
  | putRatioSpread
  | longButterfly
  | custom
  deriving DecidableEq

inductive SignalDirection where
  | long
  | short
  | noTrade
  deriving DecidableEq

inductive StrikeRule where
  | atm
  | itm
  | otm
  deriving DecidableEq

inductive ExpiryRule where
  | nearest
  | next
  | monthly
  | roll
  deriving DecidableEq

inductive Right where
  | ce
  | pe
  deriving DecidableEq

inductive Role where
  | short
  | long
  deriving DecidableEq

/-- What a structure reads of the `ContractRules`; no strike filters. -/
structure ContractRules where
  expiryRule : ExpiryRule := .nearest
  strikeRule : StrikeRule := .atm
  strikeOffset : ℤ := 0
  ratioShorts : Option ℤ := none

/-- A leg of a free-form structure. -/
structure CustomLeg where
  right : Right
  role : Role
  strikeRule : StrikeRule := .atm
  strikeOffset : ℤ := 0
  ratio : ℤ := 1
  deriving DecidableEq

structure PlannedLeg where
  right : Right
  role : Role
  strike : ℚ
  ratio : ℤ := 1
  farExpiry : Bool := false
  deriving DecidableEq

/-- Why no structure is built. -/
inductive Refusal where
  | direction
  | width
  | spot
  | noLegs
  | customLegs
  | noStrike
  | sameContract
  | ratio
  | ladder
  | noExpiry
  | expiriesDiffer
  | missing
  | noFarExpiry
  deriving DecidableEq

/-! ## The kinds of structures -/

/-- `uses_wings`. -/
def usesWings (strategy : Strategy) : Bool :=
  decide (strategy ∈ [.bullPutSpread, .bearCallSpread, .ironCondor, .ironButterfly])

/-- `RATIO_SPREADS`. -/
def isRatioSpread (strategy : Strategy) : Bool := decide (strategy ∈ [Strategy.callRatioSpread, .putRatioSpread])

/-- `WIDTH_STRUCTURES`. -/
def takesWidth (strategy : Strategy) : Bool :=
  usesWings strategy || isRatioSpread strategy || decide (strategy = .longButterfly)

/-- `is_debit`. -/
def isDebit (strategy : Strategy) : Bool :=
  decide (strategy ∈ [Strategy.longStraddle, .longStrangle, .calendarSpread, .longButterfly])

/-- `structure_direction_ok`. -/
def directionOk (strategy : Strategy) (direction : SignalDirection) : Bool :=
  match strategy with
  | .bullPutSpread | .callRatioSpread => decide (direction = .long)
  | .bearCallSpread | .putRatioSpread => decide (direction = .short)
  | _ => decide (direction = .long ∨ direction = .short)

/-- `_primary_strike_rule`. -/
def primaryStrikeRule (strategy : Strategy) (rules : ContractRules) : StrikeRule × ℤ :=
  match strategy with
  | .ironCondor | .shortStrangle | .longStrangle =>
      (.otm, max 1 (if rules.strikeOffset = 0 then 1 else rules.strikeOffset))
  | .ironButterfly | .shortStraddle | .longStraddle | .calendarSpread | .longButterfly => (.atm, 0)
  | _ => (rules.strikeRule, rules.strikeOffset)

/-- `structure_sides`: the rights of the structure, and the role of each one's primary strike. -/
def structureSides (strategy : Strategy) (direction : SignalDirection) : List Right × Role :=
  let sides :=
    match strategy with
    | .calendarSpread => if direction = .long then [Right.pe] else [.ce]
    | .longButterfly => if direction = .long then [.ce] else [.pe]
    | .bullPutSpread | .putRatioSpread => [.pe]
    | .bearCallSpread | .callRatioSpread => [.ce]
    | _ => [.pe, .ce]
  let long := (isDebit strategy && decide (strategy ≠ .calendarSpread)) || isRatioSpread strategy
  (sides, if long then .long else .short)

/-! ## Strikes and expiries -/

/-- The strikes in order, each once. -/
def ordered (strikes : List ℚ) : List ℚ := sortBy id strikes.dedup

/-- The index of the strike nearest to the spot, the lower of two. -/
def atmIndex (listed : List ℚ) (spot : ℚ) : Option ℕ :=
  (sortBy (fun i => (toLex (|listed.getD i 0 - spot|, listed.getD i 0) : ℚ ×ₗ ℚ)) (List.range listed.length)).head?

/-- `select_strike`. -/
def selectStrike (strikes : List ℚ) (spot : ℚ) (right : Right) (rule : StrikeRule) (offset : ℤ) : Option ℚ :=
  let listed := ordered strikes
  if listed = [] ∨ spot ≤ 0 then none
  else do
    let atm ← atmIndex listed spot
    if rule = .atm ∨ offset ≤ 0 then listed[atm]?
    else
      let towardsLower := decide (rule = .itm) == decide (right = .ce)
      let index : ℤ := if towardsLower then atm - offset else atm + offset
      listed[(max 0 (min ((listed.length : ℤ) - 1) index)).toNat]?

/-- `_step`: the strike some listed places away. -/
def step (strikes : List ℚ) (strike : ℚ) (steps : ℤ) : Option ℚ :=
  let listed := ordered strikes
  if strike ∉ listed then none
  else
    let index : ℤ := listed.idxOf strike + steps
    if index < 0 ∨ (listed.length : ℤ) ≤ index then none else listed[index.toNat]?

/-- `select_expiry`. -/
def selectExpiry (expiries : List ℤ) (rule : ExpiryRule) (today : ℤ) : Option ℤ :=
  match sortBy id (expiries.filter fun e => today ≤ e), rule with
  | [], _ => none
  | first :: _, .nearest => some first
  | first :: rest, .next => some (rest.headD first)
  | first :: rest, .roll => some (if first = today then rest.headD first else first)
  | first :: rest, .monthly => ((first :: rest).filter fun e => Months.monthOf e = Months.monthOf first).max?

/-! ## What is read of the ladder -/

variable {strikes : List ℚ} {k l : ℚ} {n : ℤ} {right : Right}

theorem mem_ordered : k ∈ ordered strikes ↔ k ∈ strikes := by
  rw [ordered, mem_sortBy, List.mem_dedup]

theorem strictly_ordered (strikes : List ℚ) : (ordered strikes).Pairwise (· < ·) := by
  have sorted : (ordered strikes).Pairwise (· ≤ ·) := sortBy_sorted id strikes.dedup
  have distinct : (ordered strikes).Nodup := (sortBy_perm id strikes.dedup).nodup_iff.mpr (List.nodup_dedup strikes)
  exact (sorted.and distinct).imp fun both => lt_of_le_of_ne both.1 both.2

theorem selectStrike_mem {spot : ℚ} {rule : StrikeRule} {offset : ℤ}
    (selected : selectStrike strikes spot right rule offset = some k) : k ∈ strikes := by
  unfold selectStrike at selected
  dsimp only at selected
  split at selected
  · cases selected
  · obtain ⟨atm, -, at_atm⟩ := Option.bind_eq_some_iff.mp selected
    split at at_atm
    · exact mem_ordered.mp (List.mem_of_getElem? at_atm)
    · exact mem_ordered.mp (List.mem_of_getElem? at_atm)

theorem step_mem (stepped : step strikes k n = some l) : l ∈ strikes := by
  unfold step at stepped
  dsimp only at stepped
  split at stepped
  · cases stepped
  · split at stepped
    · cases stepped
    · exact mem_ordered.mp (List.mem_of_getElem? stepped)

/-! ## The plan -/

/-- `_check_width`. -/
def checkWidth (strategy : Strategy) (spreadWidth : Option ℤ) : Except Refusal Unit :=
  if takesWidth strategy ∧ spreadWidth.all (· < 1) then .error .width else .ok ()

/-- The strike a side's width out of the money. -/
def stepOut (strikes : List ℚ) (right : Right) (strike : ℚ) (width : ℤ) : Option ℚ :=
  step strikes strike (if right = .pe then -width else width)

/-- `plan_side`; a structure that takes a width has one (`_check_width`). -/
def planSide (strategy : Strategy) (right : Right) (primary : ℚ) (strikes : List ℚ)
    (spreadWidth : Option ℤ) (primaryRole : Role)
    (ratioShorts : Option ℤ) : Except Refusal (List PlannedLeg) :=
  let width := spreadWidth.getD 0
  if strategy = .calendarSpread then .ok [⟨right, .short, primary, 1, false⟩, ⟨right, .long, primary, 1, true⟩]
  else if isRatioSpread strategy then
    match ratioShorts.filter (1 ≤ ·) with
    | none => .error .ratio
    | some shorts =>
      match stepOut strikes right primary width with
      | none => .error .ladder
      | some strike => .ok [⟨right, .long, primary, 1, false⟩, ⟨right, .short, strike, shorts, false⟩]
  else if strategy = .longButterfly then
    match step strikes primary (-width), step strikes primary width with
    | some lower, some upper =>
        .ok [⟨right, .long, lower, 1, false⟩, ⟨right, .short, primary, 2, false⟩, ⟨right, .long, upper, 1, false⟩]
    | _, _ => .error .ladder
  else if usesWings strategy then
    match stepOut strikes right primary width with
    | none => .error .ladder
    | some wing => .ok [⟨right, .short, primary, 1, false⟩, ⟨right, .long, wing, 1, false⟩]
  else .ok [⟨right, primaryRole, primary, 1, false⟩]

/-- `validate_custom_legs`. -/
def validateCustomLegs (legs : List CustomLeg) : Except Refusal Unit :=
  if legs.length < 2 ∨ 6 < legs.length ∨
    ¬ (legs.map fun l => (l.right, l.strikeRule, l.strikeOffset)).Nodup then .error .customLegs
  else .ok ()

/-- A leg of a free-form structure, after the legs before it. -/
def planCustomLeg (spot : ℚ) (strikes : Right → List ℚ) (legs : List PlannedLeg)
    (spec : CustomLeg) : Except Refusal (List PlannedLeg) :=
  match selectStrike (strikes spec.right) spot spec.right spec.strikeRule spec.strikeOffset with
  | none => .error .noStrike
  | some strike =>
    if ∃ leg ∈ legs, leg.right = spec.right ∧ leg.strike = strike then .error .sameContract
    else .ok (legs ++ [⟨spec.right, spec.role, strike, spec.ratio, false⟩])

/-- The legs of a right, after those of the rights before it. -/
def planRight (strategy : Strategy) (direction : SignalDirection) (rules : ContractRules) (spot : ℚ)
    (strikes : Right → List ℚ)
    (spreadWidth : Option ℤ) (legs : List PlannedLeg) (right : Right) : Except Refusal (List PlannedLeg) := do
  let (rule, offset) := primaryStrikeRule strategy rules
  match selectStrike (strikes right) spot right rule offset with
  | none => .error .noStrike
  | some primary =>
    let side ← planSide strategy right primary (strikes right) spreadWidth
        (structureSides strategy direction).2 rules.ratioShorts
    .ok (legs ++ side)

/-- `plan_structure`. -/
def planStructure (strategy : Strategy) (direction : SignalDirection) (rules : ContractRules)
    (spot : ℚ) (strikes : Right → List ℚ)
    (spreadWidth : Option ℤ) (customLegs : List CustomLeg) : Except Refusal (List PlannedLeg) :=
  if directionOk strategy direction = false then .error .direction
  else do
    checkWidth strategy spreadWidth
    if spot ≤ 0 then .error .spot
    else if strategy = .custom then
      if customLegs = [] then .error .noLegs
      else do
        validateCustomLegs customLegs
        customLegs.foldlM (planCustomLeg spot strikes) []
    else (structureSides strategy direction).1.foldlM (planRight strategy direction rules spot strikes spreadWidth) []

end AdvanceTrading.Structures
