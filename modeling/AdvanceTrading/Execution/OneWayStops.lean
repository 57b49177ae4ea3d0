import AdvanceTrading.Execution.StoredTrailing
import AdvanceTrading.Misc.Rounding
import Mathlib.Data.List.Induction

/-!
# A trailing stop moves one way

The numbers an exit is accepted with keep its first stop on the losing side of
the reference (`Armed.start`), and a shift within its step keeps a moved stop
there of the best reading (`trailedStop_apart`). So over any readings the stop is
never less favourable than before, and the reading that moves it does not reach
it.
-/

namespace AdvanceTrading.GroupExits

/-! ## What is accepted -/

/-- A number of four decimals, as the stop is rounded to. -/
def FourDecimals (x : ℚ) : Prop := ∃ n : ℤ, x = n / 10 ^ 4

/-- The user's numbers have four decimals. -/
structure Exact (row : GroupExit) : Prop where
  stop : ∀ x ∈ row.slValue, FourDecimals x
  basis : ∀ x ∈ row.basisValue, FourDecimals x
  lock : ∀ x ∈ (trailSpec row).lock, FourDecimals x
  shift : ∀ x ∈ (trailSpec row).shift, FourDecimals x

/-- An exit as the user set it, by creating it or by an edit. -/
inductive SetByUser : GroupExit → Prop
  | created {ask trades saved nowValue now row} : create ask trades saved nowValue now = .ok row → SetByUser row
  | edited {row trades request values} : edit row trades request = .ok values → SetByUser (values.write row)

/-- What an accepted exit starts with: numbers the trailing accepts, a first stop on the losing side of the
reference, and no reading yet. -/
structure Armed (row : GroupExit) : Prop where
  numbers : trailErrors row.trailKind (trailSpec row) row.slValue = []
  start : ∀ first ∈ firstStop row, ∀ ref ∈ reference row, 0 < (ref - first) * favour row
  unread : row.bestValue = none
  unmoved : row.currentSl = none

theorem sayWhen_eq_nil_iff {condition : Prop} [Decidable condition] {text : String} :
    sayWhen condition text = [] ↔ ¬condition := by
  unfold sayWhen
  split <;> simp [*]

/-- Only the keys of its kind are checked. -/
theorem trailErrors_trailJsonOf (kind : TrailKind) (spec : TrailSpec) (slValue : Option ℚ) :
    trailErrors kind ((trailJsonOf kind spec).getD {}) slValue = trailErrors kind spec slValue := by
  cases kind <;> rfl

/-- An error that is not about the ticked legs is told of an edit too. -/
theorem filter_sayWhen {condition : Prop} [Decidable condition] {text : String} (told : aboutTicked text = false) :
    (sayWhen condition text).filter (!aboutTicked ·) = sayWhen condition text := by
  unfold sayWhen
  split <;> simp [told]

theorem filter_trailErrors (kind : TrailKind) (spec : TrailSpec) (slValue : Option ℚ) :
    (trailErrors kind spec slValue).filter (!aboutTicked ·) = trailErrors kind spec slValue := by
  have lock : (lockErrors spec).filter (!aboutTicked ·) = lockErrors spec := by
    unfold lockErrors
    rw [List.filter_append, List.filter_append, filter_sayWhen (by decide +kernel), filter_sayWhen (by decide +kernel),
      filter_sayWhen (by decide +kernel)]
  have shift : ∀ text, aboutTicked text = false →
      (shiftErrors spec text).filter (!aboutTicked ·) = shiftErrors spec text := by
    intro text told
    unfold shiftErrors
    rw [List.filter_append, List.filter_append, filter_sayWhen told, filter_sayWhen (by decide +kernel),
      filter_sayWhen (by decide +kernel)]
  cases kind with
  | none => rfl
  | breakEven => exact filter_sayWhen (by decide +kernel)
  | lock => exact lock
  | lockTrail =>
    unfold trailErrors
    rw [List.filter_append, lock, shift _ (by decide +kernel)]
  | trail =>
    unfold trailErrors
    rw [List.filter_append, filter_sayWhen (by decide +kernel), shift _ (by decide +kernel)]

/-- The checks of an ask that its trailing and its stop pass, of an edit too. -/
theorem ask_accepted {ask : Ask} {trades : List Ticked}
    (accepted : (askErrors ask trades).filter (!aboutTicked ·) = []) :
    trailErrors ask.trailKind ask.trail ask.slValue = [] ∧ ∀ value ∈ ask.slValue, 0 < value := by
  unfold askErrors at accepted
  simp only [List.filter_append, List.append_eq_nil_iff] at accepted
  obtain ⟨⟨⟨⟨⟨⟨⟨⟨⟨⟨⟨⟨⟨-, trail⟩, stop⟩, -⟩, -⟩, -⟩, -⟩, -⟩, -⟩, -⟩, -⟩, -⟩, -⟩, -⟩ := accepted
  rw [filter_trailErrors] at trail
  rw [filter_sayWhen (by decide +kernel), sayWhen_eq_nil_iff] at stop
  refine ⟨trail, fun value isSet => ?_⟩
  by_contra negative
  exact stop ⟨value, isSet, not_lt.mp negative⟩

variable {row : GroupExit}

/-- A stop that differs from the value its side is read from is on the losing side of it. -/
theorem sideFor_losing {level ref : ℚ} (measured : row.measure ≠ .mtmInr) (differs : level ≠ ref)
    (side : row.slSide = some (sideFor level ref)) : 0 < (ref - level) * favour row := by
  unfold favour
  unfold sideFor at side
  split at side
  · next above =>
    rw [side]
    cases measure : row.measure with
    | mtmInr => exact absurd measure measured
    | netPremium => linarith
    | spot => linarith
  · next notAbove =>
    have below : level < ref := lt_of_le_of_ne (not_lt.mp notAbove) differs
    rw [side]
    cases measure : row.measure with
    | mtmInr => exact absurd measure measured
    | netPremium => linarith
    | spot => linarith

/-- The first stop is on the losing side: an amount under zero, or a level apart from the reading. -/
theorem start_losing (positive : ∀ value ∈ row.slValue, 0 < value)
    (apart : row.measure ≠ .mtmInr → ∀ level ∈ row.slValue, ∀ ref ∈ row.basisValue, level ≠ ref ∧
      row.slSide = some (sideFor level ref)) :
    ∀ first ∈ firstStop row, ∀ ref ∈ reference row, 0 < (ref - first) * favour row := by
  intro first isFirst ref isRef
  obtain ⟨value, isSet, rfl⟩ := Option.map_eq_some_iff.mp isFirst
  unfold reference at isRef
  by_cases money : row.measure = .mtmInr
  · rw [if_pos money] at isRef ⊢
    obtain rfl := Option.some.inj isRef
    have above := positive value isSet
    rw [abs_of_pos above]
    unfold favour
    rw [money]
    linarith
  · rw [if_neg money] at isRef ⊢
    obtain ⟨differs, side⟩ := apart money value isSet ref isRef
    exact sideFor_losing money differs side

theorem atValueErrors_eq_nil {slValue targetValue : Option ℚ} {value : ℚ}
    (none_ : atValueErrors slValue targetValue value = []) : ∀ level ∈ slValue, level ≠ value := by
  unfold atValueErrors at none_
  rw [List.append_eq_nil_iff, sayWhen_eq_nil_iff] at none_
  rintro level isSet rfl
  exact none_.1 isSet

/-- What the user set starts armed. -/
theorem SetByUser.armed (set : SetByUser row) : Armed row := by
  cases set with
  | @created ask trades saved nowValue now _ made =>
    unfold create at made
    dsimp only at made
    split at made
    · cases made
    · next clear =>
      rw [not_not] at clear
      unfold createErrors at clear
      rw [List.append_eq_nil_iff] at clear
      obtain ⟨accepted, atValue⟩ := clear
      split at made
      · cases made
      · next mode _ =>
        have kept := @ask_accepted (resolveCheckMode ask saved) trades (by rw [accepted]; rfl)
        cases made
        refine ⟨?_, start_losing kept.2 ?_, rfl, rfl⟩
        · exact (trailErrors_trailJsonOf _ _ _).trans kept.1
        · intro level stop isSet ref isRef
          dsimp only at level isSet isRef ⊢
          rw [if_neg level] at atValue ⊢
          obtain rfl : nowValue = some ref := isRef
          refine ⟨atValueErrors_eq_nil atValue stop isSet, ?_⟩
          rw [Option.bind_some, isSet]
          rfl
  | @edited old trades request values made =>
    unfold edit at made
    split at made
    · cases made
    split at made
    · cases made
    split at made
    · cases made
    dsimp only at made
    split at made
    · cases made
    · next clear =>
      rw [not_not, List.append_eq_nil_iff] at clear
      obtain ⟨accepted, atValue⟩ := clear
      have kept := ask_accepted accepted
      cases made
      refine ⟨?_, start_losing kept.2 ?_, rfl, rfl⟩
      · exact (trailErrors_trailJsonOf _ _ _).trans kept.1
      · intro level stop isSet ref isRef
        dsimp only [EditValues.write] at level isSet isRef ⊢
        unfold readingErrors at atValue
        rw [if_neg level] at atValue isRef ⊢
        cases now : request.nowValue with
        | none =>
          rw [now] at atValue
          cases atValue
        | some value =>
          rw [now] at atValue isRef
          obtain rfl : value = ref := Option.some.inj isRef
          refine ⟨atValueErrors_eq_nil atValue stop isSet, ?_⟩
          rw [isSet]
          rfl

/-! ## Where a moved stop is -/

theorem favour_cases (row : GroupExit) : favour row = 1 ∨ favour row = -1 := by
  unfold favour
  split
  · exact .inl rfl
  · exact .inl rfl
  · exact .inr rfl
  · split
    · exact .inl rfl
    · exact .inr rfl

theorem favour_mul_self (row : GroupExit) : favour row * favour row = 1 := by
  rcases favour_cases row with up | down
  · rw [up]
    norm_num
  · rw [down]
    norm_num

theorem FourDecimals.roundTo {x : ℚ} (four : FourDecimals x) : Py.roundTo 4 x = x := by
  obtain ⟨n, rfl⟩ := four
  unfold Py.roundTo
  rw [div_mul_cancel₀ _ (by norm_num), Py.roundHalfEven_intCast]

theorem FourDecimals.add {x y : ℚ} (left : FourDecimals x) (right : FourDecimals y) : FourDecimals (x + y) := by
  obtain ⟨m, rfl⟩ := left
  obtain ⟨n, rfl⟩ := right
  refine ⟨m + n, ?_⟩
  push_cast
  ring

theorem FourDecimals.intMul {x : ℚ} (n : ℤ) (four : FourDecimals x) : FourDecimals (n * x) := by
  obtain ⟨m, rfl⟩ := four
  refine ⟨n * m, ?_⟩
  push_cast
  ring

theorem FourDecimals.neg {x : ℚ} (four : FourDecimals x) : FourDecimals (-x) := by
  have mirrored := four.intMul (-1)
  push_cast at mirrored
  rwa [neg_one_mul] at mirrored

theorem FourDecimals.favour {x : ℚ} (row : GroupExit) (four : FourDecimals x) : FourDecimals (favour row * x) := by
  rcases favour_cases row with up | down
  · rwa [up, one_mul]
  · rw [down, neg_one_mul]
    exact four.neg

theorem Exact.reference (exact_ : Exact row) : ∀ ref ∈ reference row, FourDecimals ref := by
  intro ref isRef
  unfold GroupExits.reference at isRef
  split at isRef
  · obtain rfl := Option.some.inj isRef
    exact ⟨0, by norm_num⟩
  · exact exact_.basis ref isRef

theorem Exact.firstStop (exact_ : Exact row) : ∀ first ∈ firstStop row, FourDecimals first := by
  intro first isFirst
  obtain ⟨value, isSet, rfl⟩ := Option.map_eq_some_iff.mp isFirst
  have four := exact_.stop value isSet
  split
  · rcases abs_choice value with same | mirrored
    · rw [same]
      exact four.neg
    · rw [mirrored]
      exact four.neg.neg
  · exact four

/-- A shift within its step does not take more than the steps were worth. -/
theorem floor_mul_shift_le {gain step shift : ℚ} (stepPos : 0 < step) (within : shift ≤ step)
    (nonneg : 0 ≤ gain) : ⌊gain / step⌋ * shift ≤ gain := by
  have whole : (0 : ℚ) ≤ ⌊gain / step⌋ := by exact_mod_cast Int.floor_nonneg.mpr (div_nonneg nonneg stepPos.le)
  calc (⌊gain / step⌋ : ℚ) * shift ≤ ⌊gain / step⌋ * step := mul_le_mul_of_nonneg_left within whole
    _ ≤ gain / step * step := mul_le_mul_of_nonneg_right (Int.floor_le _) stepPos.le
    _ = gain := div_mul_cancel₀ _ stepPos.ne'

/-- What the checks of a lock say of its numbers. -/
theorem lockErrors_eq_nil {spec : TrailSpec} (none_ : lockErrors spec = []) {after keep : ℚ}
    (isAfter : spec.after = some after) (isLock : spec.lock = some keep) :
    0 < after ∧ keep < after := by
  unfold lockErrors at none_
  simp only [List.append_eq_nil_iff, sayWhen_eq_nil_iff] at none_
  obtain ⟨⟨positive, -⟩, kept⟩ := none_
  have above : 0 < after := by
    simpa [isAfter] using positive
  refine ⟨above, ?_⟩
  by_contra beyond
  exact kept ⟨after, isAfter, keep, isLock, above, not_lt.mp beyond⟩

/-- What the checks of a step say of its numbers. -/
theorem shiftErrors_eq_nil {spec : TrailSpec} {needsStep : String}
    (none_ : shiftErrors spec needsStep = []) {step shift : ℚ} (isStep : spec.step = some step)
    (isShift : spec.shift = some shift) : 0 < step ∧ shift ≤ step := by
  unfold shiftErrors at none_
  simp only [List.append_eq_nil_iff, sayWhen_eq_nil_iff] at none_
  obtain ⟨⟨positive, -⟩, within⟩ := none_
  have above : 0 < step := by
    simpa [isStep] using positive
  refine ⟨above, ?_⟩
  by_contra beyond
  exact within ⟨step, isStep, shift, isShift, above, not_le.mp beyond⟩

/-- What the further steps add to a lock is within the gain they are counted in. -/
theorem shifted_within {spec : TrailSpec} {needsStep : String}
    (none_ : shiftErrors spec needsStep = []) (four : ∀ x ∈ spec.shift, FourDecimals x) {gain : ℚ}
    (nonneg : 0 ≤ gain) : let moved := match spec.step, spec.shift with
      | some step, some shift => if 0 < step then ⌊gain / step⌋ * shift else 0
      | _, _ => 0
    FourDecimals moved ∧ moved ≤ gain := by
  dsimp only
  have none_moves : FourDecimals 0 ∧ (0 : ℚ) ≤ gain := ⟨⟨0, by norm_num⟩, nonneg⟩
  split
  · next step shift isStep isShift =>
    obtain ⟨stepPos, within⟩ := shiftErrors_eq_nil none_ isStep isShift
    rw [if_pos stepPos]
    exact ⟨(four shift isShift).intMul _, floor_mul_shift_le stepPos within nonneg⟩
  · exact none_moves

/-- The gain left between the best reading and a stop that keeps part of it. -/
theorem apart_of_kept {best ref kept : ℚ} (less : kept < (best - ref) * favour row) :
    0 < (best - (ref + favour row * kept)) * favour row := by
  have unit := favour_mul_self row
  have split : (best - (ref + favour row * kept)) * favour row =
      (best - ref) * favour row - favour row * favour row * kept := by
    ring
  rw [split, unit, one_mul]
  linarith

/-- A moved stop is on the losing side of the best reading. -/
theorem trailedStop_apart (armed : Armed row) (exact_ : Exact row) {best stop : ℚ}
    (moved : trailedStop row best = some stop) : 0 < (best - stop) * favour row := by
  have numbers := armed.numbers
  unfold trailedStop at moved
  dsimp only at moved
  split at moved
  · cases moved
  · next ref isRef =>
    have refFour := exact_.reference ref isRef
    unfold trailErrors at numbers
    split at moved
    · cases moved
    · next kind =>
      rw [kind] at numbers
      split at moved
      · next after isAfter =>
        split at moved
        · cases moved
        · next reached =>
          obtain rfl := Option.some.inj moved
          have above : 0 < after := by
            simpa [sayWhen_eq_nil_iff, isAfter] using numbers
          rw [refFour.roundTo]
          linarith
      · cases moved
    · next kind =>
      rw [kind] at numbers
      split at moved
      · next after keep isAfter isLock =>
        split at moved
        · cases moved
        · next reached =>
          obtain rfl := Option.some.inj moved
          obtain ⟨-, kept⟩ := lockErrors_eq_nil numbers isAfter isLock
          rw [(refFour.add ((exact_.lock keep isLock).favour row)).roundTo]
          exact apart_of_kept (by linarith)
      · cases moved
    · next kind =>
      rw [kind] at numbers
      obtain ⟨lockNumbers, stepNumbers⟩ := List.append_eq_nil_iff.mp numbers
      split at moved
      · next after keep isAfter isLock =>
        split at moved
        · cases moved
        · next reached =>
          obtain rfl := Option.some.inj moved
          obtain ⟨-, kept⟩ := lockErrors_eq_nil lockNumbers isAfter isLock
          obtain ⟨four, within⟩ := shifted_within stepNumbers exact_.shift (sub_nonneg.mpr (not_lt.mp reached))
          have rounded := (refFour.add (((exact_.lock keep isLock).add four).favour row)).roundTo
          have less := add_lt_add_of_lt_of_le kept within
          rw [add_sub_cancel] at less
          have apart := apart_of_kept less
          rw [← rounded] at apart
          exact apart
      · cases moved
    · next kind =>
      rw [kind] at numbers
      obtain ⟨-, stepNumbers⟩ := List.append_eq_nil_iff.mp numbers
      split at moved
      · next step shift first isStep isShift isFirst =>
        split at moved
        · cases moved
        · next reached =>
          obtain rfl := Option.some.inj moved
          obtain ⟨stepPos, within⟩ := shiftErrors_eq_nil stepNumbers isStep isShift
          rw [not_or, not_le, not_lt] at reached
          have start := armed.start first isFirst ref isRef
          have taken := floor_mul_shift_le stepPos within (stepPos.le.trans reached.2)
          have four : FourDecimals (first + favour row * ⌊(best - ref) * favour row / step⌋ * shift) := by
            rw [mul_assoc]
            exact (exact_.firstStop first isFirst).add (((exact_.shift shift isShift).intMul _).favour row)
          rw [four.roundTo, mul_assoc]
          have fromStart : ⌊(best - ref) * favour row / step⌋ * shift < (best - first) * favour row := by
            have longer : (best - first) * favour row = (best - ref) * favour row + (ref - first) * favour row := by
              ring
            linarith
          exact apart_of_kept fromStart
      · cases moved

/-! ## One reading -/

/-- A reading writes the best one, the stop and the time of the lock. -/
theorem applyTrail_eq (row : GroupExit) (value : ℚ) (now : Int) : ∃ best stop locked,
    applyTrail row value now = { row with bestValue := best, currentSl := stop, lockedAt := locked } := by
  unfold applyTrail
  split
  · dsimp only
    split
    · exact ⟨_, _, _, rfl⟩
    · split
      · exact ⟨_, _, _, rfl⟩
      · exact ⟨_, _, _, rfl⟩
  · exact ⟨_, _, _, rfl⟩

theorem applyTrail_best (on : trailingOn row = true) (value : ℚ) (now : Int) :
    (applyTrail row value now).bestValue = better row.bestValue (some value) (favour row) := by
  unfold applyTrail
  rw [if_pos on]
  dsimp only
  split
  · rfl
  · split
    · rfl
    · rfl

/-- The stop stays, or moves to what the trailing asks for after the best reading, and that is more favourable. -/
theorem applyTrail_stop {row : GroupExit} (value : ℚ) (now : Int) :
    stopNow (applyTrail row value now) = stopNow row ∨ ∃ best wanted,
      (applyTrail row value now).bestValue = some best ∧ trailedStop row best = some wanted ∧
        stopNow (applyTrail row value now) = some wanted ∧
        better (stopNow row) (some wanted) (favour row) = some wanted := by
  unfold applyTrail
  split
  · dsimp only
    split
    · exact .inl rfl
    · next wanted asked =>
      obtain ⟨best, isBest, isWanted⟩ := Option.bind_eq_some_iff.mp asked
      split
      · exact .inl rfl
      · next moves =>
        refine .inr ⟨best, wanted, isBest, isWanted, rfl, ?_⟩
        cases held : stopNow row with
        | none => rfl
        | some stop =>
          rw [held] at moves
          simp only [Option.isSome_some, true_and] at moves
          unfold better at moves ⊢
          dsimp only at moves ⊢
          split
          · next up =>
            rw [if_pos up] at moves
            have differs : max stop wanted ≠ stop := fun same => moves (congrArg some same)
            rw [(max_choice stop wanted).resolve_left differs]
          · next down =>
            rw [if_neg down] at moves
            have differs : min stop wanted ≠ stop := fun same => moves (congrArg some same)
            rw [(min_choice stop wanted).resolve_left differs]
  · exact .inl rfl

/-- The more favourable of two is at least as favourable as each. -/
theorem favours_better {row : GroupExit} {a b : Option ℚ} : Favours (favour row) a (better a b (favour row)) := by
  intro was isSet
  subst isSet
  cases b with
  | none => exact ⟨was, rfl, by simp⟩
  | some b =>
    unfold better
    dsimp only
    rcases favour_cases row with up | down
    · rw [up, if_pos one_pos]
      exact ⟨max was b, rfl, by rw [one_mul]; exact sub_nonneg.mpr (le_max_left _ _)⟩
    · rw [down, if_neg (by norm_num)]
      exact ⟨min was b, rfl, by linarith [min_le_left was b]⟩

theorem better_comm {a b : Option ℚ} {fav : ℚ} : better a b fav = better b a fav := by
  unfold better
  cases a with
  | none => cases b <;> rfl
  | some a =>
    cases b with
    | none => rfl
    | some b =>
      dsimp only
      rw [max_comm, min_comm]

theorem better_choice (a b fav : ℚ) :
    better (some a) (some b) fav = some a ∨ better (some a) (some b) fav = some b := by
  unfold better
  dsimp only
  split
  · rcases max_choice a b with same | same <;> simp [same]
  · rcases min_choice a b with same | same <;> simp [same]

/-- A level is reached against the trade. -/
theorem stopSide_eq (level : row.measure ≠ .mtmInr) :
    stopSide row = some (if 0 < favour row then .below else .above) := by
  unfold stopSide
  rw [if_neg level]
  cases side : row.slSide with
  | none => rfl
  | some side_ =>
    have direction : favour row = if side_ = .below then 1 else -1 := by
      unfold favour
      rw [side]
      cases measure : row.measure with
      | mtmInr => exact absurd measure level
      | netPremium => cases side_ <;> rfl
      | spot => cases side_ <;> rfl
    rw [direction]
    cases side_ <;> simp

/-- A stop on the losing side of a reading is not reached by it. -/
theorem judge_of_apart {value stop : ℚ} (held : stopNow row = some stop)
    (apart : 0 < (value - stop) * favour row) : judge row value ≠ some .sl := by
  unfold judge
  rw [held]
  split
  · next money =>
    have up : favour row = 1 := by
      unfold favour
      rw [money]
    rw [up, mul_one] at apart
    have far : ¬value ≤ stop := by linarith
    simp only [Option.any_some, far, decide_false, Bool.false_eq_true, if_false]
    split <;> simp
  · next level =>
    have far : reached (some stop) (stopSide row) value = false := by
      rw [stopSide_eq level]
      rcases favour_cases row with up | down
      · rw [up, mul_one] at apart
        rw [up, if_pos one_pos]
        exact decide_eq_false (by linarith)
      · rw [down, mul_neg_one] at apart
        rw [down, if_neg (by norm_num)]
        exact decide_eq_false (by linarith)
    rw [far]
    simp only [Bool.false_eq_true, if_false]
    split <;> simp

/-! ## Any readings -/

/-- An exit after readings, oldest first. -/
def afterReadings (row : GroupExit) (readings : List (ℚ × Int)) : GroupExit :=
  readings.foldl (fun row reading => applyTrail row reading.1 reading.2) row

/-- Readings leave what the user set. -/
theorem afterReadings_eq (row : GroupExit) (readings : List (ℚ × Int)) : ∃ best stop locked,
    afterReadings row readings = { row with bestValue := best, currentSl := stop, lockedAt := locked } := by
  induction readings using List.reverseRecOn with
  | nil => exact ⟨_, _, _, rfl⟩
  | append_singleton readings reading ih =>
    obtain ⟨best, stop, locked, before⟩ := ih
    obtain ⟨best', stop', locked', after⟩ := applyTrail_eq (afterReadings row readings) reading.1 reading.2
    refine ⟨best', stop', locked', ?_⟩
    unfold afterReadings at after before ⊢
    rw [List.foldl_append, List.foldl_cons, List.foldl_nil, after, before]

/-- The best value kept is the most favourable reading so far. -/
def IsBest (fav : ℚ) (readings : List (ℚ × Int)) (best : Option ℚ) : Prop :=
  (readings = [] ∧ best = none) ∨
    ∃ most, best = some most ∧ most ∈ readings.map Prod.fst ∧ ∀ x ∈ readings.map Prod.fst, 0 ≤ fav * (most - x)

theorem IsBest.snoc {readings : List (ℚ × Int)} {best : Option ℚ}
    (isBest : IsBest (favour row) readings best) (reading : ℚ × Int) :
    IsBest (favour row) (readings ++ [reading]) (better best (some reading.1) (favour row)) := by
  right
  rcases isBest with ⟨rfl, rfl⟩ | ⟨most, rfl, mem, all⟩
  · exact ⟨reading.1, rfl, by simp, by simp⟩
  · have kept := @favours_better row (some most) (some reading.1) most rfl
    have taken := @favours_better row (some reading.1) (some most) reading.1 rfl
    rw [better_comm] at taken
    obtain ⟨now, isNow, overMost⟩ := kept
    obtain ⟨_, isNow', overReading⟩ := taken
    obtain rfl := Option.some.inj (isNow.symm.trans isNow')
    refine ⟨now, isNow, ?_, ?_⟩
    · rw [List.map_append, List.mem_append]
      rcases better_choice most reading.1 (favour row) with old | new
      · rw [old] at isNow
        obtain rfl := Option.some.inj isNow
        exact .inl mem
      · rw [new] at isNow
        obtain rfl := Option.some.inj isNow
        exact .inr (by simp)
    · intro x seen
      rw [List.map_append, List.mem_append] at seen
      rcases seen with before | last
      · have beyond := all x before
        have split : favour row * (now - x) = favour row * (now - most) + favour row * (most - x) := by
          ring
        rw [split]
        exact add_nonneg overMost beyond
      · obtain rfl : x = reading.1 := by simpa using last
        exact overReading

/-- What one more reading does after others: the stop is at least as favourable, the best value is the best reading,
and a stop that the reading moved, as the best one, is on its losing side and is not reached by it. -/
structure OneWay (before after : GroupExit) (readings : List (ℚ × Int)) (value : ℚ) : Prop where
  stop : Favours (favour before) (stopNow before) (stopNow after)
  best : ∃ most, after.bestValue = some most ∧ most ∈ readings.map Prod.fst ∧
    ∀ x ∈ readings.map Prod.fst, 0 ≤ favour before * (most - x)
  apart : after.bestValue = some value → stopNow after ≠ stopNow before →
    (∃ stop, stopNow after = some stop ∧ 0 < favour before * (value - stop)) ∧ judge after value ≠ some .sl

theorem afterReadings_snoc (row : GroupExit) (readings : List (ℚ × Int)) (reading : ℚ × Int) :
    afterReadings row (readings ++ [reading]) = applyTrail (afterReadings row readings) reading.1 reading.2 := by
  unfold afterReadings
  rw [List.foldl_append, List.foldl_cons, List.foldl_nil]

theorem isBest_afterReadings (on : trailingOn row = true) (unread : row.bestValue = none)
    (readings : List (ℚ × Int)) :
    IsBest (favour row) readings (afterReadings row readings).bestValue := by
  induction readings using List.reverseRecOn with
  | nil => exact .inl ⟨rfl, unread⟩
  | append_singleton readings reading ih =>
    obtain ⟨best, stop, locked, before⟩ := afterReadings_eq row readings
    have sameDirection : favour (afterReadings row readings) = favour row := by
      rw [before]
      rfl
    have stillOn : trailingOn (afterReadings row readings) = true := by
      rw [before]
      exact on
    rw [afterReadings_snoc, applyTrail_best stillOn, sameDirection]
    exact ih.snoc reading

/-- Over any readings of an exit as the user set it, its trailing stop moves in his favour only and is not reached by
the reading that moves it. -/
theorem trailing_stop_one_way {row : GroupExit} (set : SetByUser row) (on : trailingOn row = true)
    (exact_ : Exact row) (readings : List (ℚ × Int)) (value : ℚ) (now : Int) :
    OneWay (afterReadings row readings) (afterReadings row (readings ++ [(value, now)]))
      (readings ++ [(value, now)]) value := by
  have armed := set.armed
  obtain ⟨best, stop, locked, before⟩ := afterReadings_eq row readings
  have sameDirection : favour (afterReadings row readings) = favour row := by
    rw [before]
    rfl
  have sameTrail : ∀ best, trailedStop (afterReadings row readings) best = trailedStop row best := by
    intro best
    rw [before]
    rfl
  refine { stop := ?_, best := ?_, apart := ?_ }
  · rw [afterReadings_snoc]
    rcases @applyTrail_stop (afterReadings row readings) value now with same | ⟨-, wanted, -, -, moved, further⟩
    · rw [same]
      exact .refl _ _
    · rw [moved, ← further]
      exact favours_better
  · have isBest := isBest_afterReadings on armed.unread (readings ++ [(value, now)])
    rw [sameDirection]
    rcases isBest with ⟨empty, -⟩ | found
    · exact absurd empty (by simp)
    · exact found
  · rw [afterReadings_snoc]
    intro newBest moves
    rcases @applyTrail_stop (afterReadings row readings) value now with same | ⟨best, wanted, isBest, asked, moved, -⟩
    · exact absurd same moves
    · obtain rfl := Option.some.inj (isBest.symm.trans newBest)
      rw [sameTrail] at asked
      have apart := trailedStop_apart armed exact_ asked
      obtain ⟨best', stop', locked', after⟩ := applyTrail_eq (afterReadings row readings) best now
      refine ⟨⟨wanted, moved, ?_⟩, judge_of_apart moved ?_⟩
      · rw [sameDirection, mul_comm]
        exact apart
      · rw [after]
        show 0 < (best - wanted) * favour (afterReadings row readings)
        rw [sameDirection]
        exact apart

/-- A stop at 100 on a spot at 120: lock 20 after 50, then shift 10 for every 10 more. -/
def lockTrailAsk : Ask where
  tradeIds := [1]
  measure := .spot
  slValue := some 100
  targetValue := none
  spotSymbol := some "NIFTY"
  spotExchange := some "NSE"
  checkMode := some .touch
  timeframeMinutes := none
  trailKind := .lockTrail
  trail := { after := some 50, lock := some 20, step := some 10, shift := some 10 }

/-- The exit of that ask. -/
def lockTrailExit : GroupExit where
  measure := .spot
  tradeIds := [1]
  spotSymbol := some "NIFTY"
  spotExchange := some "NSE"
  slValue := some 100
  slSide := some .below
  basisValue := some 120
  checkMode := .touch
  trailKind := .lockTrail
  trailJson := some { after := some 50, lock := some 20, step := some 10, shift := some 10 }
  createdAt := 0

/-- At 180 the stop moves from 100 to 150. -/
theorem lockTrail_one_way :
    stopNow (afterReadings lockTrailExit [(125, 0)]) = some 100 ∧
      stopNow (afterReadings lockTrailExit [(125, 0), (180, 1)]) = some 150 ∧
      OneWay (afterReadings lockTrailExit [(125, 0)]) (afterReadings lockTrailExit [(125, 0), (180, 1)])
        [(125, 0), (180, 1)] 180 := by
  have made : create lockTrailAsk [{ mode := .paper }] none (some 120) 0 = .ok lockTrailExit := by rfl
  refine ⟨by decide +kernel, by decide +kernel, trailing_stop_one_way (.created made) rfl ?_ [(125, 0)] 180 1⟩
  refine { stop := ?_, basis := ?_, lock := ?_, shift := ?_ }
  · rintro _ ⟨⟩
    exact ⟨1000000, by norm_num⟩
  · rintro _ ⟨⟩
    exact ⟨1200000, by norm_num⟩
  · rintro _ ⟨⟩
    exact ⟨200000, by norm_num⟩
  · rintro _ ⟨⟩
    exact ⟨100000, by norm_num⟩

end AdvanceTrading.GroupExits
