import AdvanceTrading.RiskEngine.OwnLimits
import Mathlib.Data.List.Induction

/-!
# A limit protects its day

A draft of a save holds the value in force: the value of a key the user set is
within its bounds, any other is off. So the stored text of a save gives back its
draft: the current value on the day of the save, the waiting one from the next
day on.
-/

namespace AdvanceTrading.OwnLimits

/-! ## Values -/

variable {key : Key} {x : ℚ}

theorem inBounds_number :
    inBounds key (some (.number x)) = true ↔ 0 ≤ x ∧ x ≤ key.high ∧ (key.positive = true → 0 < x) := by
  simp only [inBounds, valid, Bool.and_eq_true, decide_eq_true_eq, Bool.or_eq_true, Bool.not_eq_true']
  cases key.positive <;> simp [and_assoc]

/-- What is read of an accepted number is within the bounds, and is read as itself. -/
theorem read_inBounds (within : inBounds key (some (.number x)) = true) :
    inBounds key (some (.number (key.read x))) = true ∧ key.read (key.read x) = key.read x := by
  obtain ⟨low, upto, above⟩ := inBounds_number.mp within
  unfold Key.read
  by_cases whole : key.whole
  · simp only [whole, if_true]
    have floor : truncate x = ⌊x⌋ := if_pos low
    have nonneg : (0 : ℚ) ≤ (⌊x⌋ : ℤ) := by exact_mod_cast Int.floor_nonneg.mpr low
    rw [floor, inBounds_number]
    refine ⟨⟨nonneg, (Int.floor_le x).trans upto, ?_⟩, ?_⟩
    · intro positive
      cases key <;> simp [Key.whole, Key.positive] at whole positive
    · unfold truncate
      rw [if_pos nonneg, Int.floor_intCast]
  · simp only [whole, Bool.false_eq_true, if_false]
    exact ⟨within, trivial⟩

/-- The values of an accepted save are within their bounds. -/
theorem Save.Accepted.inBounds {s : Save} (accepted : s.Accepted) {raw : ℚ}
    (named : s.change key = some (some raw)) :
    OwnLimits.inBounds key (some (.number raw)) = true := by
  unfold Save.Accepted validateSettings at accepted
  rw [List.append_eq_nil_iff, List.append_eq_nil_iff, List.filterMap_eq_nil_iff] at accepted
  have here := accepted.1.1 key key.mem_sorted
  rw [named] at here
  by_contra outside
  simp [outside] at here

/-! ## Drafts -/

/-- A draft with the value in force of its key. -/
structure Draft.Sound (key : Key) (d : Draft) : Prop where
  within : d.explicit = true → OwnLimits.inBounds key (some (.number d.current)) = true ∧ key.read d.current = d.current
  off : d.explicit = false → d.current = 0

/-- A value the user set is read as itself; any other is off. -/
theorem readValue_sound (key : Key) (value : Option Value) (explicit : Bool) (deferred : Option (Option Value)) :
    Draft.Sound key
      { current := readValue key value explicit, explicit := explicit && OwnLimits.inBounds key value, deferred } := by
  cases value with
  | none => exact ⟨by simp [OwnLimits.inBounds, valid], fun _ => rfl⟩
  | some v =>
    cases v with
    | other => exact ⟨by simp [OwnLimits.inBounds, valid], fun _ => rfl⟩
    | number x =>
      cases explicit with
      | false => exact ⟨by simp, fun _ => by simp [readValue]⟩
      | true =>
        unfold readValue
        simp only [Bool.true_and]
        refine ⟨?_, ?_⟩
        · intro within
          have bounded : valid (some (.number x)) 0 key.high = true := by
            simp only [OwnLimits.inBounds, Bool.and_eq_true] at within
            exact within.1
          simp only [bounded, if_true]
          exact read_inBounds within
        · intro outside
          simp only at outside ⊢
          split
          · rename_i bounded
            -- within the bounds but not above 0: a limit that is off
            simp only [OwnLimits.inBounds, bounded, Bool.true_and, Bool.or_eq_false_iff, Bool.not_eq_false',
              decide_eq_false_iff_not, not_lt] at outside
            simp only [valid, decide_eq_true_eq] at bounded
            have zero : x = 0 := le_antisymm outside.2 bounded.1
            rw [zero]
            unfold Key.read truncate
            simp
          · rfl

theorem draft_sound (t : Stored) (today : Nat) (key : Key) : (draft t today key).Sound key :=
  readValue_sound key (on_ t today key).1 (on_ t today key).2 (waiting t today key)

variable {raw : Option ℚ} {d : Draft}

theorem planKey_sound (sound : d.Sound key)
    (accepted : ∀ x ∈ raw, inBounds key (some (.number x)) = true) :
    (planKey key raw d).Sound key := by
  unfold planKey
  cases raw with
  | none =>
    dsimp only
    split
    · exact ⟨sound.within, sound.off⟩
    · exact ⟨fun isSet => (by cases isSet), fun _ => rfl⟩
  | some x =>
    dsimp only
    split
    · exact ⟨sound.within, sound.off⟩
    · exact ⟨fun _ => read_inBounds (accepted x rfl), fun unset => by cases unset⟩

theorem planned_sound (t : Stored) {s : Save} (accepted : s.Accepted) (key : Key) :
    (planned t s.change s.day key).Sound key := by
  unfold planned
  cases named : s.change key with
  | none => exact draft_sound t s.day key
  | some raw =>
    apply planKey_sound (draft_sound t s.day key)
    rintro x rfl
    exact accepted.inBounds named

/-! ## The text of a save -/

section Text

variable {t : Stored} {change : Change} {today day : Nat} {key : Key}

theorem explicitKeys_planChange :
    explicitKeys (planChange t change today).stored key = (planned t change today key).explicit := by
  simp [explicitKeys, planChange, key.mem_sorted]

/-- The values that wait in the text of a save. -/
theorem pending_planChange :
    ((planChange t change today).stored.pending.bind fun p => p.values key) =
      (planned t change today key).deferred := by
  simp only [planChange]
  split
  · rfl
  · rename_i none_
    simp only [List.any_eq_true, not_exists, not_and, Bool.not_eq_true, Option.isSome_eq_false_iff,
      Option.isNone_iff_eq_none] at none_
    exact (none_ key key.mem_sorted).symm

theorem pending_start {p : Pending} (waits : (planChange t change today).stored.pending = some p) :
    p.start = today + 1 := by
  simp only [planChange] at waits
  split at waits
  · cases waits
    rfl
  · cases waits

/-- The value in force from a draft's value. -/
theorem Draft.Sound.readValue (sound : d.Sound key) :
    OwnLimits.readValue key (if d.explicit then some (.number d.current) else none) d.explicit = d.current := by
  cases named : d.explicit with
  | false => exact (sound.off named).symm
  | true =>
    obtain ⟨within, read⟩ := sound.within named
    have bounded : valid (some (.number d.current)) 0 key.high = true := by
      simp only [OwnLimits.inBounds, Bool.and_eq_true] at within
      exact within.1
    simp only [if_true, OwnLimits.readValue, bounded, Bool.and_self, read]

/-- On the day of the save its draft is in force. -/
theorem settingsOn_planChange (sound : (planned t change today key).Sound key) :
    settingsOn (planChange t change today).stored today key = (planned t change today key).current := by
  have early : ((planChange t change today).stored.pending.filter fun p => p.start ≤ today) = none := by
    cases waits : (planChange t change today).stored.pending with
    | none => rfl
    | some p => simp [Option.filter, pending_start waits]
  have here : on_ (planChange t change today).stored today key =
      ((planChange t change today).stored.values key, explicitKeys (planChange t change today).stored key) := by
    unfold on_
    rw [early]
    rfl
  rw [settingsOn_eq, here, explicitKeys_planChange]
  exact sound.readValue

/-- What a waiting value comes to. -/
def due (key : Key) (d : Draft) : ℚ :=
  match d.deferred with
  | none => d.current
  | some none => 0
  | some (some value) => readValue key (some value) true

/-- From the next day on what waits is in force. -/
theorem settingsOn_planChange_later (sound : (planned t change today key).Sound key) (later : today < day) :
    settingsOn (planChange t change today).stored day key = due key (planned t change today key) := by
  have come : ((planChange t change today).stored.pending.filter fun p => p.start ≤ day) =
      (planChange t change today).stored.pending := by
    cases waits : (planChange t change today).stored.pending with
    | none => rfl
    | some p =>
      have start := pending_start waits
      rw [Option.filter_some, if_pos]
      exact decide_eq_true (by omega)
  have here : on_ (planChange t change today).stored day key =
      match (planned t change today key).deferred with
      | none => ((planChange t change today).stored.values key, explicitKeys (planChange t change today).stored key)
      | some none => (none, false)
      | some (some value) => (some value, true) := by
    unfold on_
    rw [come]
    cases is : (planned t change today key).deferred with
    | none => rw [pending_planChange, is]
    | some deferred => cases deferred <;> rw [pending_planChange, is]
  rw [settingsOn_eq, here]
  unfold due
  cases (planned t change today key).deferred with
  | none =>
    dsimp only
    rw [explicitKeys_planChange]
    exact sound.readValue
  | some value =>
    cases value with
    | none => rfl
    | some v => rfl

/-- What waits in a text that a save wrote on a day up to `today` starts tomorrow at the latest. -/
def WrittenBy (t : Stored) (today : Nat) : Prop := ∀ p ∈ t.pending, p.start ≤ today + 1

theorem writtenBy_planChange (upto : today ≤ day) : WrittenBy (planChange t change today).stored day := by
  intro p waits
  have := pending_start waits
  omega

/-- The draft before the loop holds what the text holds. -/
theorem due_draft (written : WrittenBy t today) (later : today < day) :
    settingsOn t day key = due key (draft t today key) := by
  unfold due
  rw [settingsOn_eq]
  cases waits : t.pending with
  | none =>
    have here : on_ t day key = on_ t today key := by
      unfold on_
      rw [waits]
      rfl
    have none_ : (draft t today key).deferred = none := by
      simp [draft, waiting, waits]
    rw [none_, here]
    rfl
  | some p =>
    have start := written p waits
    by_cases tomorrow : today < p.start
    · have here : on_ t day key =
          match p.values key with
          | none => (t.values key, explicitKeys t key)
          | some none => (none, false)
          | some (some value) => (some value, true) := by
        have due_ : p.start ≤ day := by omega
        unfold on_
        rw [waits, Option.filter_some_pos (by simpa using due_)]
        rfl
      have before : on_ t today key = (t.values key, explicitKeys t key) := by
        unfold on_
        rw [waits, Option.filter_some_neg (by simpa using tomorrow)]
        rfl
      have waits_ : (draft t today key).deferred = p.values key := by
        unfold draft waiting
        rw [waits, Option.filter_some_pos (by simpa using tomorrow)]
        rfl
      rw [waits_, here]
      cases value : p.values key with
      | none =>
        show readValue key (t.values key) (explicitKeys t key) = settingsOn t today key
        rw [settingsOn_eq, before]
      | some v =>
        cases v with
        | none => rfl
        | some v => rfl
    · have same : on_ t day key = on_ t today key := by
        have due_ : p.start ≤ day := by omega
        have due' : p.start ≤ today := by omega
        unfold on_
        rw [waits, Option.filter_some_pos (by simpa using due_), Option.filter_some_pos (by simpa using due')]
      have none_ : (draft t today key).deferred = none := by
        unfold draft waiting
        rw [waits, Option.filter_some_neg (by simpa using tomorrow)]
        rfl
      rw [none_, same]
      rfl

end Text

/-! ## Runs of saves -/

/-- A save makes a limit looser, or turns off one that is on. -/
def Looser (key : Key) (old new : ℚ) : Prop := loosens key old new = true ∨ isOn old = true ∧ isOn new = false

/-- The value of a save, as it is kept: `none` is off. -/
def submitted (key : Key) (raw : Option ℚ) : ℚ := raw.elim 0 key.read

/-- The value last submitted for a key. -/
def lastSubmitted (key : Key) (saves : List Save) : Option (Option ℚ) :=
  (saves.filterMap fun s => s.change key).getLast?

section Runs

variable {t : Stored} {s : Save} {key : Key}

theorem isOn_of_loosens_eq_false {old new : ℚ} (on : isOn old = true) (kept : loosens key old new = false)
    (within : inBounds key (some (.number new)) = true) : isOn new = true := by
  obtain ⟨low, _, positive⟩ := inBounds_number.mp within
  simp only [isOn, decide_eq_true_eq] at on ⊢
  by_contra off
  have zero : new = 0 := le_antisymm (not_lt.mp off) low
  cases key <;> simp [loosens, Key.noLimitZero, Key.positive, zero, on, on.ne] at kept positive

/-- A limit that is on is not made looser on the day of a save. -/
theorem not_looser_planKey (sound : d.Sound key)
    (accepted : ∀ x ∈ raw, inBounds key (some (.number x)) = true) (on : isOn d.current = true) :
    ¬Looser key d.current (planKey key raw d).current := by
  have named : d.explicit = true := by
    cases explicit : d.explicit with
    | true => rfl
    | false =>
      rw [sound.off explicit] at on
      simp [isOn] at on
  have same : ¬Looser key d.current d.current := by
    rintro (loosened | ⟨_, off⟩)
    · cases key <;> simp [loosens, Key.noLimitZero] at loosened
    · rw [on] at off
      cases off
  unfold planKey
  cases raw with
  | none =>
    dsimp only
    rw [named, on, Bool.and_self, if_pos rfl]
    exact same
  | some x =>
    dsimp only
    rw [named, Bool.true_and]
    split
    · exact same
    · rename_i kept
      rw [Bool.not_eq_true] at kept
      rintro (loosened | ⟨_, off⟩)
      · rw [kept] at loosened
        cases loosened
      · rw [isOn_of_loosens_eq_false on kept (read_inBounds (accepted x rfl)).1] at off
        cases off

/-- What a save submits comes to be in force on the next day. -/
theorem due_planKey (accepted : ∀ x ∈ raw, inBounds key (some (.number x)) = true) :
    due key (planKey key raw d) = submitted key raw := by
  unfold planKey
  cases raw with
  | none =>
    dsimp only
    split
    · rfl
    · rfl
  | some x =>
    obtain ⟨within, read⟩ := read_inBounds (accepted x rfl)
    have bounded : valid (some (.number (key.read x))) 0 key.high = true := by
      simp only [inBounds, Bool.and_eq_true] at within
      exact within.1
    dsimp only
    split
    · simp [due, submitted, readValue, bounded, read]
    · rfl

/-- A save on its own day: a limit that is on is not made looser. -/
theorem not_looser_save (accepted : s.Accepted) (on : isOn (settingsOn t s.day key) = true) :
    ¬Looser key (settingsOn t s.day key) (settingsOn (planChange t s.change s.day).stored s.day key) := by
  rw [settingsOn_planChange (planned_sound t accepted key)]
  unfold planned
  cases named : s.change key with
  | none =>
    dsimp only
    rintro (loosened | ⟨_, off⟩)
    · have same : (draft t s.day key).current = settingsOn t s.day key := rfl
      rw [same] at loosened
      cases key <;> simp [loosens, Key.noLimitZero] at loosened
    · have same : (draft t s.day key).current = settingsOn t s.day key := rfl
      rw [same, on] at off
      cases off
  | some raw =>
    dsimp only
    apply not_looser_planKey (draft_sound t s.day key) _ on
    rintro x rfl
    exact accepted.inBounds named

/-- A key that a save does not name keeps its value on every day, and what waits. -/
theorem unnamed_save (accepted : s.Accepted) (written : WrittenBy t s.day) (unnamed : s.change key = none) :
    (∀ day, s.day ≤ day → settingsOn (planChange t s.change s.day).stored day key = settingsOn t day key) ∧
      waiting (planChange t s.change s.day).stored s.day key = waiting t s.day key := by
  have same : planned t s.change s.day key = draft t s.day key := by
    unfold planned
    rw [unnamed]
  refine ⟨?_, ?_⟩
  · intro day upto
    rcases Nat.lt_or_eq_of_le upto with later | rfl
    · rw [settingsOn_planChange_later (planned_sound t accepted key) later, same, due_draft written later]
    · rw [settingsOn_planChange (planned_sound t accepted key), same]
      rfl
  · have all_ : ((planChange t s.change s.day).stored.pending.filter fun p => s.day < p.start) =
        (planChange t s.change s.day).stored.pending := by
      cases waits : (planChange t s.change s.day).stored.pending with
      | none => rfl
      | some p => exact Option.filter_some_pos (by simp [pending_start waits])
    show ((planChange t s.change s.day).stored.pending.filter fun p => s.day < p.start).bind (fun p => p.values key) = _
    rw [all_, pending_planChange, same]
    rfl

theorem saveAll_concat (t : Stored) (saves : List Save) (s : Save) :
    saveAll t (saves ++ [s]) = (planChange (saveAll t saves) s.change s.day).stored := by
  simp [saveAll]

/-- A run of saves leaves a text that is written by the day of its last save. -/
theorem writtenBy_saveAll {saves : List Save} {day : Nat} (written : WrittenBy t day)
    (ordered : ∀ s ∈ saves, s.day ≤ day) : WrittenBy (saveAll t saves) day := by
  induction saves using List.reverseRecOn with
  | nil => exact written
  | append_singleton saves s _ =>
    rw [saveAll_concat]
    exact writtenBy_planChange (ordered s (by simp))

/-- On a later day the value last submitted is in force. -/
theorem settingsOn_saveAll {saves : List Save} {day start : Nat} (written : WrittenBy t start)
    (accepted : ∀ s ∈ saves, s.Accepted) (ordered : (start :: saves.map Save.day).Pairwise (· ≤ ·))
    (earlier : ∀ s ∈ saves, s.day < day) (last : lastSubmitted key saves = some raw) :
    settingsOn (saveAll t saves) day key = submitted key raw := by
  induction saves using List.reverseRecOn with
  | nil => cases last
  | append_singleton saves s ih =>
    have mine : s.Accepted := accepted s (by simp)
    have before : s.day < day := earlier s (by simp)
    rw [saveAll_concat]
    rw [List.map_append, ← List.cons_append, List.pairwise_append] at ordered
    obtain ⟨ordered, _, upto⟩ := ordered
    have startUpto : start ≤ s.day := upto start List.mem_cons_self s.day (by simp)
    have savesUpto : ∀ s' ∈ saves, s'.day ≤ s.day := by
      intro s' mem
      exact upto s'.day (List.mem_cons_of_mem start (List.mem_map_of_mem mem)) s.day (by simp)
    unfold lastSubmitted at last
    rw [List.filterMap_append] at last
    cases named : s.change key with
    | some raw' =>
      have asked : raw' = raw := by simpa [named] using last
      subst asked
      have here : planned (saveAll t saves) s.change s.day key =
          planKey key raw' (draft (saveAll t saves) s.day key) := by
        unfold planned
        rw [named]
      rw [settingsOn_planChange_later (planned_sound _ mine key) before, here]
      apply due_planKey
      rintro x rfl
      exact mine.inBounds named
    | none =>
      have written' : WrittenBy (saveAll t saves) s.day := by
        apply writtenBy_saveAll _ savesUpto
        intro p waits
        have := written p waits
        omega
      rw [(unnamed_save mine written' named).1 day before.le]
      apply ih (fun s' mem => accepted s' (by simp [mem])) ordered (fun s' mem => earlier s' (by simp [mem]))
      simpa [lastSubmitted, named] using last

/-- A run of saves from a text that a save wrote, and one more save. On its own day the save makes no limit that is on
looser; a key that it does not name keeps its value from that day on and what waits; on a later day the value last
submitted for a key is in force. -/
theorem ownLimits_protected (text : Stored) (first : Save) (saves : List Save) (s : Save)
    (accepted : ∀ s' ∈ first :: saves ++ [s], s'.Accepted)
    (ordered : ((first :: saves ++ [s]).map Save.day).Pairwise (· ≤ ·)) (key : Key) :
    let t := saveAll (planChange text first.change first.day).stored saves
    let t' := (planChange t s.change s.day).stored
    (isOn (settingsOn t s.day key) = true → ¬Looser key (settingsOn t s.day key) (settingsOn t' s.day key)) ∧
      (s.change key = none →
        (∀ day, s.day ≤ day → settingsOn t' day key = settingsOn t day key) ∧
          waiting t' s.day key = waiting t s.day key) ∧
      ∀ day raw, s.day < day → lastSubmitted key (saves ++ [s]) = some raw →
        settingsOn t' day key = submitted key raw := by
  intro t t'
  have mine : s.Accepted := accepted s (by simp)
  have run : t' = saveAll (planChange text first.change first.day).stored (saves ++ [s]) :=
    (saveAll_concat _ saves s).symm
  rw [List.cons_append, List.map_cons] at ordered
  have upto : ∀ s' ∈ saves ++ [s], s'.day ≤ s.day := by
    intro s' mem
    have later := (List.pairwise_cons.mp ordered).2
    rw [List.map_append, List.pairwise_append] at later
    rcases List.mem_append.mp mem with inside | last
    · exact later.2.2 s'.day (List.mem_map_of_mem inside) s.day (by simp)
    · rw [List.mem_singleton.mp last]
  have firstUpto : first.day ≤ s.day := (List.pairwise_cons.mp ordered).1 s.day (by simp)
  refine ⟨not_looser_save mine, ?_, ?_⟩
  · apply unnamed_save mine
    apply writtenBy_saveAll (writtenBy_planChange firstUpto)
    exact fun s' mem => upto s' (List.mem_append_left [s] mem)
  · intro day raw later last
    rw [run]
    apply settingsOn_saveAll (writtenBy_planChange le_rfl) (fun s' mem => accepted s' (by simp at mem ⊢; tauto)) ordered
    · exact fun s' mem => (upto s' mem).trans_lt later
    · exact last

/-- A daily loss limit of 2 %, and the wish for 5 % and no minimum reward:risk on the same day. -/
theorem ownLimits_protected_dailyLoss :
    settingsOn (planChange (planChange {} (Function.update (fun _ => none) .dailyLossPct (some (some 2))) 1).stored
        (Function.update (fun _ => none) .dailyLossPct (some (some 5))) 1).stored 2 .dailyLossPct = 5 ∧
      ¬Looser .dailyLossPct 2
        (settingsOn (planChange (planChange {} (Function.update (fun _ => none) .dailyLossPct (some (some 2))) 1).stored
          (Function.update (fun _ => none) .dailyLossPct (some (some 5))) 1).stored 1 .dailyLossPct) := by
  have protected_ := ownLimits_protected {} ⟨1, Function.update (fun _ => none) .dailyLossPct (some (some 2)), {}⟩ []
    ⟨1, Function.update (fun _ => none) .dailyLossPct (some (some 5)), {}⟩
    (by
      simp only [Save.Accepted, List.cons_append, List.nil_append, List.forall_mem_cons,
        List.not_mem_nil, false_implies,
        implies_true, and_true]
      decide +kernel)
    (by decide) .dailyLossPct
  refine ⟨?_, ?_⟩
  · exact protected_.2.2 2 (some 5) (by decide) (by decide +kernel)
  · exact protected_.1 (by decide +kernel)

/-- A limit that is off is set at once, which `loosens` calls looser, and a count loses its fraction. -/
theorem ownLimits_setAtOnce :
    Looser .riskPerTradePct (settingsOn (planChange {} (fun _ => none) 0).stored 1 .riskPerTradePct)
        (settingsOn (planChange (planChange {} (fun _ => none) 0).stored
          (Function.update (fun _ => none) .riskPerTradePct (some (some 2))) 1).stored 1 .riskPerTradePct) ∧
      settingsOn (planChange (planChange {} (fun _ => none) 0).stored
        (Function.update (fun _ => none) .maxTradesPerDay (some (some (5 / 2)))) 1).stored 2 .maxTradesPerDay ≠ 5 / 2 ∧
      validateSettings (Function.update (fun _ => none) .riskPerTradePct (some (some 2))) {} = [] ∧
      validateSettings (Function.update (fun _ => none) .maxTradesPerDay (some (some (5 / 2)))) {} = [] := by
  refine ⟨Or.inl ?_, ?_⟩
  · decide +kernel
  · decide +kernel

end Runs

end AdvanceTrading.OwnLimits
