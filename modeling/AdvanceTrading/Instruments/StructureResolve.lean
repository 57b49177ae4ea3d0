import AdvanceTrading.Instruments.StructurePlan
import AdvanceTrading.Misc.Folds
import AdvanceTrading.Misc.PyText

/-!
# The structure resolved from the instrument master

Model of `resolve_structure` and `_resolve_custom` (`app/instruments/spreads.py:449-578`) over the
instrument master (`expiries`, `strikes` and `find_option` in `app/instruments/master.py`): the legs
by the master's records. The notes for the reader are left out.
-/

namespace AdvanceTrading.Structures

/-! ## The master -/

/-- An option's row of one broker and underlying; `expiry` and `strike` may be empty. -/
structure InstrumentRecord where
  tradingsymbol : String
  instrumentType : Right
  expiry : Option ℤ
  strike : Option ℚ
  lotSize : Option ℕ := none
  deriving DecidableEq

abbrev Master := List InstrumentRecord

/-- `master.expiries`. -/
def Master.expiries (m : Master) (right : Right) (onOrAfter : ℤ) : List ℤ :=
  sortBy id (((m.filter fun r => r.instrumentType = right).filterMap (·.expiry)).filter fun e => onOrAfter ≤ e).dedup

/-- `master.strikes`. -/
def Master.strikes (m : Master) (expiry : ℤ) (right : Right) : List ℚ :=
  sortBy id ((m.filter fun r => r.instrumentType = right ∧ r.expiry = some expiry).filterMap (·.strike)).dedup

/-- `master.find_option`: a record of the strike, to a millionth. -/
def Master.findOption (m : Master) (expiry : ℤ) (strike : ℚ) (right : Right) : Option InstrumentRecord :=
  m.find? fun r => r.instrumentType = right ∧ r.expiry = some expiry ∧ r.strike.any fun k => |k - strike| < 1 / 1000000

/-! ## The resolved legs -/

/-- A leg with its contract's record. -/
structure ResolvedLeg where
  role : Role
  right : Right
  record : InstrumentRecord
  ratio : ℤ
  deriving DecidableEq

structure ResolvedStructure where
  strategy : Strategy
  legs : List ResolvedLeg
  lotSize : ℕ
  expiry : ℤ
  widthPoints : ℚ

/-- `int(record.lot_size or 1)`. -/
def InstrumentRecord.lot (r : InstrumentRecord) : ℕ :=
  match r.lotSize with
  | none | some 0 => 1
  | some size => size

/-- What the loops carry. -/
structure Resolving where
  legs : List ResolvedLeg := []
  expiry : Option ℤ := none
  lotSize : ℕ := 0
  widthPoints : ℚ := 0

/-- The expiry of a right's legs, which is the one of the legs before. -/
def legExpiry (m : Master) (rules : ContractRules) (today : ℤ) (before : Option ℤ) (right : Right) : Except Refusal ℤ :=
  match selectExpiry (m.expiries right today) rules.expiryRule today with
  | none => .error .noExpiry
  | some expiry => if before.all (· = expiry) then .ok expiry else .error .expiriesDiffer

/-- One leg of `_resolve_custom`. -/
def resolveCustomLeg (m : Master) (rules : ContractRules) (spot : ℚ) (today : ℤ) (done : Resolving) (spec : CustomLeg) :
    Except Refusal Resolving := do
  let expiry ← legExpiry m rules today done.expiry spec.right
  match selectStrike (m.strikes expiry spec.right) spot spec.right spec.strikeRule spec.strikeOffset with
  | none => .error .noStrike
  | some strike =>
    match m.findOption expiry strike spec.right with
    | none => .error .missing
    | some record =>
      if ∃ leg ∈ done.legs, leg.record.tradingsymbol = record.tradingsymbol then .error .sameContract
      else .ok ⟨done.legs ++ [⟨spec.role, spec.right, record, spec.ratio⟩], some expiry, record.lot, 0⟩

/-- The span of the strikes, of two legs or more. -/
def span (strikes : List ℚ) : ℚ :=
  match strikes.max?, strikes.min? with
  | some most, some least => if 1 < strikes.length then Py.round2 (most - least) else 0
  | _, _ => 0

/-- `_resolve_custom`. -/
def resolveCustom (m : Master) (rules : ContractRules) (specs : List CustomLeg) (spot : ℚ) (today : ℤ) :
    Except Refusal ResolvedStructure :=
  if specs = [] then .error .noLegs
  else do
    validateCustomLegs specs
    let done ← specs.foldlM (resolveCustomLeg m rules spot today) {}
    match done.expiry with
    | none => .error .noExpiry
    | some expiry =>
      .ok ⟨.custom, done.legs, done.lotSize, expiry, span (done.legs.map fun l => l.record.strike.getD 0)⟩

/-- A planned leg's record: the primary's own, or the master's. -/
def resolveLeg (m : Master) (right : Right) (primary : ℚ) (record : InstrumentRecord) (near : ℤ) (far : Option ℤ)
    (leg : PlannedLeg) : Except Refusal ResolvedLeg :=
  let found :=
    if leg.strike = primary ∧ leg.farExpiry = false then some record
    else (if leg.farExpiry then far else some near).bind fun expiry => m.findOption expiry leg.strike right
  match found with
  | none => .error .missing
  | some record => .ok ⟨leg.role, right, record, leg.ratio⟩

/-- One right of `resolve_structure`. -/
def resolveRight (m : Master) (strategy : Strategy) (direction : SignalDirection) (rules : ContractRules) (spot : ℚ)
    (spreadWidth : Option ℤ) (today : ℤ) (done : Resolving) (right : Right) : Except Refusal Resolving := do
  let expiry ← legExpiry m rules today done.expiry right
  let (rule, offset) := primaryStrikeRule strategy rules
  match selectStrike (m.strikes expiry right) spot right rule offset with
  | none => .error .noStrike
  | some primary =>
    match m.findOption expiry primary right with
    | none => .error .missing
    | some record =>
      let planned ← planSide strategy right primary (m.strikes expiry right) spreadWidth
          (structureSides strategy direction).2
        rules.ratioShorts
      let far := (sortBy id (m.expiries right today)).find? fun e => expiry < e
      if strategy = .calendarSpread ∧ far = none then .error .noFarExpiry
      else do
        let legs ← planned.mapM (resolveLeg m right primary record expiry far)
        let width := if strategy = .calendarSpread then done.widthPoints
          else (planned.map fun l => |l.strike - primary|).foldl max done.widthPoints
        .ok ⟨done.legs ++ legs, some expiry, record.lot, width⟩

/-- `resolve_structure`. -/
def resolveStructure (m : Master) (strategy : Strategy) (direction : SignalDirection)
    (rules : ContractRules) (spreadWidth : Option ℤ)
    (spot : Option ℚ) (today : ℤ) (customLegs : List CustomLeg) : Except Refusal ResolvedStructure :=
  if directionOk strategy direction = false then .error .direction
  else do
    checkWidth strategy spreadWidth
    match spot with
    | none => .error .spot
    | some spot =>
      if spot ≤ 0 then .error .spot
      else if strategy = .custom then resolveCustom m rules customLegs spot today
      else do
        let done ← (structureSides strategy direction).1.foldlM
            (resolveRight m strategy direction rules spot spreadWidth today) {}
        match done.expiry with
        | none => .error .noExpiry
        | some expiry => .ok ⟨strategy, done.legs, done.lotSize, expiry, done.widthPoints⟩

end AdvanceTrading.Structures

/-!
# The resolver builds the planned legs

On a master whose rights list the same expiries and that lists no two strikes within a millionth of
each other, the legs `resolveStructure` finds are those `planStructure` makes of the strikes of the
expiry it chose, in order; so where the plan raises, the resolver does.
-/

namespace AdvanceTrading.Structures

/-! ## The legs of a side -/

/-- The legs of a side are of its right, at the primary strike or one of the ladder; only a calendar
has one that is far. -/
theorem planSide_mem {strategy : Strategy} {right : Right} {primary : ℚ} {strikes : List ℚ}
    {width shorts : Option ℤ} {role : Role} {legs : List PlannedLeg} (onLadder : primary ∈ strikes)
    (planned : planSide strategy right primary strikes width role shorts = .ok legs) :
    ∀ leg ∈ legs, leg.right = right ∧ leg.strike ∈ strikes ∧ (leg.farExpiry = true → strategy = .calendarSpread) := by
  unfold planSide stepOut at planned
  dsimp only at planned
  split at planned
  · next calendar =>
    cases planned
    simpa [calendar] using onLadder
  · split at planned
    · split at planned
      · cases planned
      · split at planned
        · cases planned
        · next strike stepped =>
          cases planned
          simpa using ⟨onLadder, step_mem stepped⟩
    · split at planned
      · split at planned
        · next lower upper steppedDown steppedUp =>
          cases planned
          simpa using ⟨step_mem steppedDown, onLadder, step_mem steppedUp⟩
        · cases planned
      · split at planned
        · split at planned
          · cases planned
          · next wing stepped =>
            cases planned
            simpa using ⟨onLadder, step_mem stepped⟩
        · cases planned
          simpa using onLadder

/-! ## The master's records -/

variable {m : Master} {right : Right} {expiry today : ℤ} {rules : ContractRules} {spot : ℚ}
  {spec : CustomLeg} {done done' : Resolving}
  {planned : List PlannedLeg} {strategy : Strategy} {direction : SignalDirection} {spreadWidth : Option ℤ}

/-- Each right lists the same expiries. -/
def Master.SameExpiries (m : Master) : Prop := ∀ today, m.expiries .ce today = m.expiries .pe today

/-- Two strikes listed within a millionth of each other are one strike. -/
def Master.Spaced (m : Master) : Prop :=
  ∀ r ∈ m, ∀ r' ∈ m, ∀ k ∈ r.strike, ∀ k' ∈ r'.strike, |k - k'| < 1 / 1000000 → k = k'

/-- The expiry the rules choose. -/
def Master.chosen (m : Master) (rules : ContractRules) (today : ℤ) : Option ℤ :=
  selectExpiry (m.expiries .pe today) rules.expiryRule today

theorem Master.SameExpiries.chosen_eq (same : m.SameExpiries) (right : Right) :
    selectExpiry (m.expiries right today) rules.expiryRule today = m.chosen rules today := by
  cases right with
  | ce => rw [same today, Master.chosen]
  | pe => rfl

theorem exists_record {k : ℚ} (listed : k ∈ m.strikes expiry right) : ∃ r ∈ m, r.strike = some k := by
  rw [Master.strikes, mem_sortBy, List.mem_dedup, List.mem_filterMap] at listed
  obtain ⟨r, kept, strike⟩ := listed
  exact ⟨r, (List.mem_filter.mp kept).1, strike⟩

/-- The record found for a listed strike is of that strike. -/
theorem Master.Spaced.findOption_eq (spaced : m.Spaced) {k : ℚ} {e : ℤ} {right' : Right}
    {r : InstrumentRecord} (listed : k ∈ m.strikes expiry right)
    (found : m.findOption e k right' = some r) : r.strike = some k ∧ r.expiry = some e := by
  have isFound := List.find?_some found
  have isRow := List.mem_of_find?_eq_some found
  simp only [decide_eq_true_eq] at isFound
  obtain ⟨-, atExpiry, near⟩ := isFound
  obtain ⟨k', strike, close⟩ := Option.any_eq_true _ _ |>.mp near
  obtain ⟨own, ownRow, ownStrike⟩ := exists_record listed
  refine ⟨?_, atExpiry⟩
  rw [strike, spaced r isRow own ownRow k' strike k ownStrike (of_decide_eq_true close)]

theorem legExpiry_eq (same : m.SameExpiries) {before : Option ℤ}
    (found : legExpiry m rules today before right = .ok expiry) :
    m.chosen rules today = some expiry := by
  unfold legExpiry at found
  rw [same.chosen_eq] at found
  split at found
  · cases found
  · next e chosen =>
    split at found
    · cases found
      exact chosen
    · cases found

/-! ## The legs are the plan's -/

/-- A resolved leg as the plan has it, by the structure's near expiry. -/
def ResolvedLeg.asPlanned (near : ℤ) (leg : ResolvedLeg) : PlannedLeg :=
  ⟨leg.right, leg.role, leg.record.strike.getD 0, leg.ratio, decide (leg.record.expiry ≠ some near)⟩

/-- What is resolved so far is what is planned so far, each leg with the record found for it. -/
structure Follows (m : Master) (chosen : Option ℤ) (done : Resolving) (planned : List PlannedLeg) : Prop where
  expiry : done.expiry = none ∧ done.legs = [] ∧ planned = [] ∨ done.expiry = chosen
  legs : ∀ e, chosen = some e → done.legs.map (ResolvedLeg.asPlanned e) = planned

theorem follows_start {chosen : Option ℤ} : Follows m chosen {} [] := ⟨Or.inl ⟨rfl, rfl, rfl⟩, fun _ _ => rfl⟩

theorem resolveLeg_asPlanned (spaced : m.Spaced) {primary : ℚ} {record : InstrumentRecord}
    {far : Option ℤ} {leg : PlannedLeg} {resolved : ResolvedLeg}
    (found : m.findOption expiry primary right = some record)
    (onLadder : primary ∈ m.strikes expiry right) (later : ∀ e ∈ far, expiry < e)
    (isRight : leg.right = right) (listed : leg.strike ∈ m.strikes expiry right)
    (made : resolveLeg m right primary record expiry far leg = .ok resolved) :
    resolved.asPlanned expiry = leg := by
  unfold resolveLeg at made
  dsimp only at made
  split at made
  · cases made
  · next r isFound =>
    cases made
    have known : r.strike = some leg.strike ∧ decide (r.expiry ≠ some expiry) = leg.farExpiry := by
      split at isFound
      · next own =>
        cases isFound
        obtain ⟨strike, atExpiry⟩ := spaced.findOption_eq onLadder found
        rw [strike, atExpiry, own.1, own.2]
        simp
      · obtain ⟨e, isExpiry, isFound⟩ := Option.bind_eq_some_iff.mp isFound
        obtain ⟨strike, atExpiry⟩ := spaced.findOption_eq listed isFound
        refine ⟨strike, ?_⟩
        rw [atExpiry]
        cases farExpiry : leg.farExpiry with
        | true =>
          rw [farExpiry, if_pos rfl] at isExpiry
          have after := later e isExpiry
          simp [after.ne']
        | false =>
          rw [farExpiry, if_neg Bool.false_ne_true] at isExpiry
          cases isExpiry
          simp
    rw [ResolvedLeg.asPlanned, known.1, known.2, Option.getD_some, ← isRight]

theorem resolveRight_follows (same : m.SameExpiries) (spaced : m.Spaced)
    (follows : Follows m (m.chosen rules today) done planned)
    (resolved : resolveRight m strategy direction rules spot spreadWidth today done right = .ok done') :
    ∃ planned', planRight strategy direction rules spot
      (m.strikes ((m.chosen rules today).getD 0)) spreadWidth planned right = .ok planned' ∧
      Follows m (m.chosen rules today) done' planned' := by
  unfold resolveRight at resolved
  obtain ⟨e, isExpiry, resolved⟩ := bind_eq_ok resolved
  have chosen := legExpiry_eq same isExpiry
  rw [show (m.chosen rules today).getD 0 = e by rw [chosen, Option.getD_some]]
  dsimp only at resolved
  split at resolved
  · cases resolved
  · next primary selected =>
    have onLadder := selectStrike_mem selected
    split at resolved
    · cases resolved
    · next record found =>
      obtain ⟨side, isSide, resolved⟩ := bind_eq_ok resolved
      have isPlanned := planSide_mem onLadder isSide
      split at resolved
      · cases resolved
      · obtain ⟨legs, isLegs, resolved⟩ := bind_eq_ok resolved
        cases resolved
        unfold planRight
        dsimp only
        rw [selected]
        refine ⟨planned ++ side, ?_, Or.inr chosen.symm, fun e' chosen' => ?_⟩
        · show (planSide strategy right primary (m.strikes e right) spreadWidth _ _ >>= _) = _
          rw [isSide]
          rfl
        · rw [chosen] at chosen'
          cases chosen'
          have later : ∀ e' ∈ (sortBy id (m.expiries right today)).find? fun e' => e < e', e < e' :=
            fun e' isFar => by simpa using List.find?_some isFar
          have made : legs.map (ResolvedLeg.asPlanned e) = side := mapM_leads_back
            (fun leg mem resolvedLeg isLeg => resolveLeg_asPlanned spaced found onLadder
              later (isPlanned leg mem).1 (isPlanned leg mem).2.1 isLeg) isLegs
          rw [List.map_append, follows.legs e chosen, made]

/-- In a free-form structure each leg's record is the one found for its strike. -/
structure FollowsCustom (m : Master) (chosen : Option ℤ) (done : Resolving) (planned : List PlannedLeg) : Prop
    extends Follows m chosen done planned where
  found : ∀ e, chosen = some e → ∀ leg ∈ done.legs,
    m.findOption e (leg.record.strike.getD 0) leg.right = some leg.record

theorem resolveCustomLeg_follows (same : m.SameExpiries) (spaced : m.Spaced)
    (follows : FollowsCustom m (m.chosen rules today) done planned)
    (resolved : resolveCustomLeg m rules spot today done spec = .ok done') :
    ∃ planned', planCustomLeg spot (m.strikes ((m.chosen rules today).getD 0)) planned spec = .ok planned' ∧
      FollowsCustom m (m.chosen rules today) done' planned' := by
  unfold resolveCustomLeg at resolved
  obtain ⟨e, isExpiry, resolved⟩ := bind_eq_ok resolved
  have chosen := legExpiry_eq same isExpiry
  rw [show (m.chosen rules today).getD 0 = e by rw [chosen, Option.getD_some]]
  split at resolved
  · cases resolved
  · next strike selected =>
    split at resolved
    · cases resolved
    · next record found =>
      obtain ⟨isStrike, atExpiry⟩ := spaced.findOption_eq (selectStrike_mem selected) found
      split at resolved
      · cases resolved
      · next fresh =>
        cases resolved
        unfold planCustomLeg
        rw [selected]
        dsimp only
        have legs := follows.legs e chosen
        -- an earlier leg of this right and strike would have this record
        have isFresh : ¬ ∃ leg ∈ planned, leg.right = spec.right ∧ leg.strike = strike := by
          rintro ⟨leg, mem, isRight, atStrike⟩
          rw [← legs] at mem
          obtain ⟨earlier, isEarlier, rfl⟩ := List.mem_map.mp mem
          have again := follows.found e chosen earlier isEarlier
          rw [show earlier.record.strike.getD 0 = strike from atStrike,
            show earlier.right = spec.right from isRight, found] at again
          cases again
          exact fresh ⟨earlier, isEarlier, rfl⟩
        rw [if_neg isFresh]
        refine ⟨_, rfl, ⟨Or.inr chosen.symm, fun e' chosen' => ?_⟩, fun e' chosen' leg mem => ?_⟩
        · rw [chosen] at chosen'
          cases chosen'
          rw [List.map_append, legs, List.map_singleton, ResolvedLeg.asPlanned]
          simp [isStrike, atExpiry]
        · rw [chosen] at chosen'
          cases chosen'
          rcases List.mem_append.mp mem with isEarlier | isThis
          · exact follows.found e chosen leg isEarlier
          · rw [List.mem_singleton.mp isThis]
            simpa [isStrike] using found

/-! ## The structure -/

/-- When the loop is over with an expiry, it is the chosen one, and the legs are the plan's. -/
theorem Follows.finished (follows : Follows m (m.chosen rules today) done planned)
    (atExpiry : done.expiry = some expiry) :
    m.chosen rules today = some expiry ∧ done.legs.map (ResolvedLeg.asPlanned expiry) = planned := by
  have chosen : m.chosen rules today = some expiry := by
    rcases follows.expiry with ⟨none, -⟩ | same
    · rw [atExpiry] at none
      cases none
    · rw [← same, atExpiry]
  exact ⟨chosen, follows.legs expiry chosen⟩

theorem planned_of_resolveCustom (same : m.SameExpiries) (spaced : m.Spaced)
    {specs : List CustomLeg} {s : ResolvedStructure}
    (resolved : resolveCustom m rules specs spot today = .ok s) :
    specs ≠ [] ∧ validateCustomLegs specs = .ok () ∧ m.chosen rules today = some s.expiry ∧
      specs.foldlM (planCustomLeg spot (m.strikes s.expiry)) [] =
        .ok (s.legs.map (ResolvedLeg.asPlanned s.expiry)) := by
  unfold resolveCustom at resolved
  split at resolved
  · cases resolved
  · next hasLegs =>
    obtain ⟨_, isValid, resolved⟩ := bind_eq_ok resolved
    obtain ⟨done, isDone, resolved⟩ := bind_eq_ok resolved
    have start : FollowsCustom m (m.chosen rules today) {} [] := ⟨follows_start, fun _ _ _ mem => by cases mem⟩
    obtain ⟨planned, isPlanned, follows⟩ := foldlM_follows (R := FollowsCustom m (m.chosen rules today))
      (g := planCustomLeg spot (m.strikes ((m.chosen rules today).getD 0)))
      (fun _ _ _ _ follows ran => resolveCustomLeg_follows same spaced follows ran) start isDone
    split at resolved
    · cases resolved
    · next expiry atExpiry =>
      cases resolved
      obtain ⟨chosen, legs⟩ := follows.toFollows.finished atExpiry
      rw [chosen, Option.getD_some] at isPlanned
      exact ⟨hasLegs, isValid, chosen, by rw [isPlanned, legs]⟩

/-- Where the resolver gets through, so does the plan on the strikes of the chosen expiry, with the same legs. -/
theorem planned_of_resolved (same : m.SameExpiries) (spaced : m.Spaced) {quote : Option ℚ}
    {customLegs : List CustomLeg} {s : ResolvedStructure}
    (resolved : resolveStructure m strategy direction rules spreadWidth quote today customLegs = .ok s) :
    ∃ spot ∈ quote, m.chosen rules today = some s.expiry ∧
      planStructure strategy direction rules spot (m.strikes s.expiry) spreadWidth customLegs =
        .ok (s.legs.map (ResolvedLeg.asPlanned s.expiry)) := by
  unfold resolveStructure at resolved
  split at resolved
  · cases resolved
  · next fits =>
    obtain ⟨_, isWidth, resolved⟩ := bind_eq_ok resolved
    cases quote with
    | none => cases resolved
    | some spot =>
      refine ⟨spot, rfl, ?_⟩
      unfold planStructure
      rw [if_neg fits, isWidth]
      show _ ∧ (if spot ≤ 0 then _ else _) = _
      dsimp only at resolved
      split at resolved
      · cases resolved
      · next hasSpot =>
        rw [if_neg hasSpot]
        split at resolved
        · next isCustom =>
          rw [if_pos isCustom]
          obtain ⟨hasLegs, isValid, chosen, legs⟩ := planned_of_resolveCustom same spaced resolved
          rw [if_neg hasLegs, isValid]
          exact ⟨chosen, legs⟩
        · next notCustom =>
          rw [if_neg notCustom]
          obtain ⟨done, isDone, resolved⟩ := bind_eq_ok resolved
          obtain ⟨planned, isPlanned, follows⟩ := foldlM_follows (R := Follows m (m.chosen rules today))
            (g := planRight strategy direction rules spot (m.strikes ((m.chosen rules today).getD 0)) spreadWidth)
            (fun _ _ _ _ follows ran => resolveRight_follows same spaced follows ran) follows_start isDone
          split at resolved
          · cases resolved
          · next expiry atExpiry =>
            cases resolved
            obtain ⟨chosen, legs⟩ := follows.finished atExpiry
            rw [chosen, Option.getD_some] at isPlanned
            exact ⟨chosen, by rw [isPlanned, legs]⟩

/-- On a master that lists the same expiries for each right, and no two strikes within a millionth of each other, a
structure that is resolved has the planned legs, in order; and where the plan raises, the resolver raises. -/
theorem resolved_as_planned (m : Master) (same : m.SameExpiries) (spaced : m.Spaced)
    (strategy : Strategy) (direction : SignalDirection) (rules : ContractRules)
    (spreadWidth : Option ℤ) (spot : ℚ) (today : ℤ) (customLegs : List CustomLeg) :
    (∀ s, resolveStructure m strategy direction rules spreadWidth (some spot) today customLegs = .ok s →
      m.chosen rules today = some s.expiry ∧
        planStructure strategy direction rules spot (m.strikes s.expiry) spreadWidth customLegs =
          .ok (s.legs.map (ResolvedLeg.asPlanned s.expiry))) ∧
    ∀ expiry, m.chosen rules today = some expiry →
      (∃ e, planStructure strategy direction rules spot (m.strikes expiry) spreadWidth customLegs = .error e) →
      ∃ e, resolveStructure m strategy direction rules spreadWidth (some spot) today customLegs = .error e := by
  have legs : ∀ s, resolveStructure m strategy direction rules spreadWidth (some spot) today customLegs = .ok s →
      m.chosen rules today = some s.expiry ∧
        planStructure strategy direction rules spot (m.strikes s.expiry) spreadWidth customLegs =
          .ok (s.legs.map (ResolvedLeg.asPlanned s.expiry)) := by
    intro s resolved
    obtain ⟨spot', isSpot, chosen, planned⟩ := planned_of_resolved same spaced resolved
    cases isSpot
    exact ⟨chosen, planned⟩
  refine ⟨legs, ?_⟩
  rintro expiry chosen ⟨e, raises⟩
  cases resolved : resolveStructure m strategy direction rules spreadWidth (some spot) today customLegs with
  | error e => exact ⟨e, rfl⟩
  | ok s =>
    obtain ⟨chosen', planned⟩ := legs s resolved
    rw [chosen] at chosen'
    cases chosen'
    rw [planned] at raises
    cases raises

/-! ## Two masters -/

/-- Three strikes of each right. -/
def threeStrikes : Master :=
  [⟨"P100", .pe, some 10, some 100, some 75⟩, ⟨"P150", .pe, some 10, some 150, some 75⟩,
    ⟨"P200", .pe, some 10, some 200, some 75⟩,
    ⟨"C100", .ce, some 10, some 100, some 75⟩, ⟨"C150", .ce, some 10, some 150, some 75⟩,
    ⟨"C200", .ce, some 10, some 200, some 75⟩]

/-- An iron butterfly about the middle strike. -/
theorem resolved_as_planned_butterfly :
    ∃ s, resolveStructure threeStrikes .ironButterfly .long {} (some 1) (some 151) 3 [] = .ok s ∧
      planStructure .ironButterfly .long {} 151 (threeStrikes.strikes s.expiry) (some 1) [] =
        .ok (s.legs.map (ResolvedLeg.asPlanned s.expiry)) ∧
      s.legs.map (ResolvedLeg.asPlanned s.expiry) =
        [⟨.pe, .short, 150, 1, false⟩, ⟨.pe, .long, 100, 1, false⟩, ⟨.ce, .short, 150, 1, false⟩,
          ⟨.ce, .long, 200, 1, false⟩] := by
  have same : threeStrikes.SameExpiries := fun today => rfl
  have spaced : threeStrikes.Spaced := by
    unfold Master.Spaced
    decide +kernel
  have found : (resolveStructure threeStrikes .ironButterfly .long {} (some 1) (some 151) 3 []).toOption.any
      (fun s => decide (s.legs.map (ResolvedLeg.asPlanned s.expiry) =
        [⟨.pe, .short, 150, 1, false⟩, ⟨.pe, .long, 100, 1, false⟩, ⟨.ce, .short, 150, 1, false⟩,
          ⟨.ce, .long, 200, 1, false⟩])) = true := by
    decide +kernel
  cases resolved : resolveStructure threeStrikes .ironButterfly .long {} (some 1) (some 151) 3 [] with
  | error e =>
    rw [resolved] at found
    cases found
  | ok s =>
    rw [resolved] at found
    exact ⟨s, rfl, ((resolved_as_planned threeStrikes same spaced .ironButterfly .long {}
      (some 1) 151 3 []).1 s resolved).2,
      of_decide_eq_true found⟩

/-- Two put strikes within a millionth of each other: the record found for the second is the first's. -/
def closeStrikes : Master :=
  [⟨"P100", .pe, some 10, some 100, some 75⟩, ⟨"P100X", .pe, some 10, some (100 + 1 / 2000000), some 75⟩,
    ⟨"C100", .ce, some 10, some 100, some 75⟩, ⟨"C150", .ce, some 10, some 150, some 75⟩]

theorem resolved_beside_plan :
    closeStrikes.SameExpiries ∧ ∃ s planned, resolveStructure closeStrikes .shortStraddle .long
      {} none (some 101) 3 [] = .ok s ∧
      planStructure .shortStraddle .long {} 101 (closeStrikes.strikes s.expiry) none [] = .ok planned ∧
      s.legs.map (ResolvedLeg.asPlanned s.expiry) ≠ planned := by
  refine ⟨fun today => rfl, ?_⟩
  have found : (resolveStructure closeStrikes .shortStraddle .long {} none (some 101) 3 []).toOption.any
      (fun s => (planStructure .shortStraddle .long {} 101 (closeStrikes.strikes s.expiry) none []).toOption.any
        fun planned => decide (s.legs.map (ResolvedLeg.asPlanned s.expiry) ≠ planned)) = true := by
    decide +kernel
  cases resolved : resolveStructure closeStrikes .shortStraddle .long {} none (some 101) 3 [] with
  | error e =>
    rw [resolved] at found
    cases found
  | ok s =>
    rw [resolved] at found
    change (planStructure .shortStraddle .long {} 101 (closeStrikes.strikes s.expiry) none
      []).toOption.any _ = true at found
    cases isPlanned : planStructure .shortStraddle .long {} 101 (closeStrikes.strikes s.expiry) none [] with
    | error e =>
      rw [isPlanned] at found
      cases found
    | ok planned =>
      rw [isPlanned] at found
      exact ⟨s, planned, rfl, isPlanned, of_decide_eq_true found⟩

end AdvanceTrading.Structures
