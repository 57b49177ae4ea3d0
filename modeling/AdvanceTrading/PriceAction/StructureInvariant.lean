import AdvanceTrading.PriceAction.StructureTracker
import Mathlib.Data.List.Chain

/-!
# What every state of the structure tracker keeps

The swings alternate, and a state has the fields its steps read: so no assertion
of a step fails and no minimum or maximum is taken of nothing. What a step does to
the lists is kept apart from what it does to the state.
-/

namespace AdvanceTrading.StructureTracker

/-! ## Sequences -/

section Sequences

variable {α : Type} {xs : List ℚ} {ys : List α} {a b n : Nat}

@[simp] theorem ok_bind {β γ : Type} (x : β) (f : β → Except Fault γ) : (Except.ok x >>= f) = f x := rfl

theorem maxOf_ok (some_ : xs ≠ []) : ∃ x, maxOf xs = .ok x ∧ x ∈ xs ∧ ∀ y ∈ xs, y ≤ x := by
  unfold maxOf
  cases isMax : xs.max? with
  | none => exact absurd (List.max?_eq_none_iff.mp isMax) some_
  | some x =>
    obtain ⟨mem, bound⟩ := List.max?_eq_some_iff.mp isMax
    exact ⟨x, rfl, mem, bound⟩

theorem minOf_ok (some_ : xs ≠ []) : ∃ x, minOf xs = .ok x ∧ x ∈ xs ∧ ∀ y ∈ xs, x ≤ y := by
  unfold minOf
  cases isMin : xs.min? with
  | none => exact absurd (List.min?_eq_none_iff.mp isMin) some_
  | some x =>
    obtain ⟨mem, bound⟩ := List.min?_eq_some_iff.mp isMin
    exact ⟨x, rfl, mem, bound⟩

theorem slice_ne_nil (lt : a < b) (inside : a < ys.length) : slice a b ys ≠ [] := by
  unfold slice
  intro none_
  have length := congrArg List.length none_
  rw [List.length_drop, List.length_take, List.length_nil] at length
  omega

theorem lastN_ne_nil (some_ : ys ≠ []) : lastN n ys ≠ [] := by
  unfold lastN
  split
  · exact some_
  · intro none_
    have length := congrArg List.length none_
    have positive := List.length_pos_of_ne_nil some_
    rw [List.length_drop, List.length_nil] at length
    omega

end Sequences

/-! ## What holds between bars -/

/-- A swing and the one after it. -/
def Alternates (a b : Swing) : Prop := a.kind ≠ b.kind ∧ a.idx ≤ b.idx

/-- The lists of a tracker; a swing is known `R` bars after its own. -/
structure Listed (cfg : Config) (m : Tracker) : Prop where
  alternate : m.swings.IsChain Alternates
  known : ∀ sw ∈ m.swings, sw.idx + m.radius cfg < m.bars.length
  lows : m.effLo.length = m.bars.length
  highs : m.effHi.length = m.bars.length

/-- The fields that the state of a tracker reads. -/
structure Placed (m : Tracker) : Prop where
  start : m.state = .init → m.s = none
  ranging : m.state = .range →
    m.s = none ∧ ∃ hi lo, m.rangeHi = some hi ∧ m.rangeLo = some lo ∧ lo ≤ hi
  trending : ∀ s phase, m.state = .trend s phase →
    m.s = some s ∧ m.prot.isSome = true ∧ m.ext.isSome = true
  weak : ∀ s, m.state = .trend s .weak →
    m.weakExt.isSome = true ∧ ∃ choch, m.chochIdx = some choch ∧ choch < m.bars.length
  swung : m.state ≠ .init → m.swings ≠ []

/-- The invariant of the tracker. -/
structure Coherent (cfg : Config) (m : Tracker) : Prop where
  listed : Listed cfg m
  placed : Placed m

/-- What the state's steps leave as it is. -/
structure SameLists (m m' : Tracker) : Prop where
  tf : m'.tf = m.tf
  bars : m'.bars = m.bars
  effLo : m'.effLo = m.effLo
  effHi : m'.effHi = m.effHi
  swings : m'.swings = m.swings

theorem Listed.same {cfg : Config} {m m' : Tracker} (listed : Listed cfg m) (same : SameLists m m') :
    Listed cfg m' where
  alternate := same.swings ▸ listed.alternate
  known := by
    unfold Tracker.radius
    rw [same.swings, same.bars, same.tf]
    exact listed.known
  lows := by rw [same.effLo, same.bars, listed.lows]
  highs := by rw [same.effHi, same.bars, listed.highs]

theorem SameLists.refl (m : Tracker) : SameLists m m := ⟨rfl, rfl, rfl, rfl, rfl⟩

theorem SameLists.trans {m m' m'' : Tracker} (first : SameLists m m') (second : SameLists m' m'') :
    SameLists m m'' where
  tf := second.tf.trans first.tf
  bars := second.bars.trans first.bars
  effLo := second.effLo.trans first.effLo
  effHi := second.effHi.trans first.effHi
  swings := second.swings.trans first.swings

variable {s : Direction}

section Placing

variable {m : Tracker}

/-- A tracker in a trend that has what the trend reads. -/
theorem Placed.ofTrend {phase : Phase} (inTrend : m.state = .trend s phase) (isS : m.s = some s)
    (prot : m.prot.isSome = true) (ext : m.ext.isSome = true)
    (weak : phase = .weak → m.weakExt.isSome = true ∧ ∃ choch, m.chochIdx = some choch ∧ choch < m.bars.length)
    (swung : m.swings ≠ []) : Placed m where
  start isInit := by
    rw [inTrend] at isInit
    cases isInit
  ranging isRange := by
    rw [inTrend] at isRange
    cases isRange
  trending s' phase' isTrend := by
    rw [inTrend] at isTrend
    cases isTrend
    exact ⟨isS, prot, ext⟩
  weak s' isWeak := by
    rw [inTrend] at isWeak
    cases isWeak
    exact weak rfl
  swung _ := swung

theorem Placed.ofRange (inRange : m.state = .range) (isS : m.s = none) {hi lo : ℚ}
    (isHi : m.rangeHi = some hi) (isLo : m.rangeLo = some lo) (le : lo ≤ hi)
    (swung : m.swings ≠ []) : Placed m where
  start isInit := by
    rw [inRange] at isInit
    cases isInit
  ranging _ := ⟨isS, hi, lo, isHi, isLo, le⟩
  trending s phase isTrend := by
    rw [inRange] at isTrend
    cases isTrend
  weak s isWeak := by
    rw [inRange] at isWeak
    cases isWeak
  swung _ := swung

theorem Placed.push (cfg : Config) (placed : Placed m) (bar : Bar) : Placed (m.push cfg bar) where
  start := placed.start
  ranging := placed.ranging
  trending := placed.trending
  weak := by
    intro s isWeak
    obtain ⟨weakExt, choch, isChoch, before⟩ := placed.weak s isWeak
    refine ⟨weakExt, choch, isChoch, ?_⟩
    simp only [Tracker.push, List.length_append]
    omega
  swung := placed.swung

/-- The state does not read the swings but for there being some. -/
theorem Placed.withSwings (placed : Placed m) (swings : List Swing) (events : List Event)
    (effLo effHi : List ℚ) (kept : m.swings ≠ [] → swings ≠ []) :
    Placed { m with swings := swings, events := events, effLo := effLo, effHi := effHi } where
  start := placed.start
  ranging := placed.ranging
  trending := placed.trending
  weak := placed.weak
  swung other := kept (placed.swung other)

end Placing

variable {choch p : Nat}

namespace Tracker

variable (cfg : Config) {m : Tracker}

/-- A change of state touches the state and the records of it alone. -/
theorem setState_eq (m : Tracker) (t : Nat) (state : State) (type : EventType) (price : ℚ)
    (more : Change) : ∃ events changes, m.setState t state type price more
      = { m with state := state, events := events, changes := changes } := by
  unfold setState
  dsimp only
  split
  · exact ⟨_, m.changes, rfl⟩
  · exact ⟨_, _, rfl⟩

/-! ## Pivots -/

theorem settleSpikes_eq (m : Tracker) (t : Nat) : ∃ effLo effHi,
    m.settleSpikes cfg t = { m with effLo := effLo, effHi := effHi } ∧
      effLo.length = m.effLo.length ∧ effHi.length = m.effHi.length := by
  unfold settleSpikes
  split
  · exact ⟨_, _, rfl, rfl, rfl⟩
  · dsimp only
    split
    · exact ⟨_, m.effHi, rfl, List.length_set, rfl⟩
    · exact ⟨m.effLo, _, rfl, rfl, List.length_set⟩
    · exact ⟨_, _, rfl, rfl, rfl⟩

/-- With bars on both sides a pivot can be judged. -/
theorem isPivot_ok (kind : Kind) (positive : 0 < m.radius cfg) (inside : p + 1 < m.bars.length) :
    ∃ b, m.isPivot cfg p kind = .ok b := by
  unfold isPivot
  dsimp only
  split
  · exact ⟨false, rfl⟩
  · have left (f : Bar → ℚ) : slice (p - m.radius cfg) p (m.bars.map f) ≠ [] := by
      apply slice_ne_nil (by omega)
      rw [List.length_map]
      omega
    have right (f : Bar → ℚ) : slice (p + 1) (p + m.radius cfg + 1) (m.bars.map f) ≠ [] := by
      apply slice_ne_nil (by omega)
      rw [List.length_map]
      omega
    cases kind with
    | high =>
      obtain ⟨top, isTop, -⟩ := maxOf_ok (left Bar.high)
      obtain ⟨next, isNext, -⟩ := maxOf_ok (right Bar.high)
      simp only [isTop, isNext, ok_bind]
      split <;> exact ⟨_, rfl⟩
    | low =>
      obtain ⟨bottom, isBottom, -⟩ := minOf_ok (left Bar.low)
      obtain ⟨next, isNext, -⟩ := minOf_ok (right Bar.low)
      simp only [isBottom, isNext, ok_bind]
      split <;> exact ⟨_, rfl⟩

/-- A pivot changes the swings alone: it is ignored, or becomes their last one. -/
theorem addPivot_cases (m : Tracker) (p : Nat) (kind : Kind) (t : Nat) :
    m.addPivot cfg p kind t = (m, none) ∨
      ∃ status sw before, m.addPivot cfg p kind t
          = ({ m with swings := before ++ [sw] }, some (status, sw)) ∧
        sw.kind = kind ∧ sw.idx = p ∧
        ((before = m.swings ∧ ∀ last, m.swings.getLast? = some last → last.kind ≠ kind) ∨
          ∃ last, m.swings = before ++ [last] ∧ last.kind = kind) := by
  unfold addPivot
  dsimp only
  cases isLast : m.swings.getLast? with
  | none =>
    refine .inr ⟨.added, _, m.swings, rfl, rfl, rfl, .inl ⟨rfl, ?_⟩⟩
    intro last isSome
    cases isSome
  | some last =>
    dsimp only
    obtain ⟨before, split⟩ := List.getLast?_eq_some_iff.mp isLast
    split
    · rename_i same
      split
      · refine .inr ⟨.replaced, _, m.swings.dropLast, rfl, rfl, rfl, .inr ⟨last, ?_, same⟩⟩
        rw [split, List.dropLast_concat]
      · exact .inl rfl
    · rename_i other
      split
      · exact .inl rfl
      · refine .inr ⟨.added, _, m.swings, rfl, rfl, rfl, .inl ⟨rfl, ?_⟩⟩
        intro last' isSome
        cases isSome
        exact other

/-- Swings stay alternating with a pivot at or after all of them. -/
theorem alternate_addPivot (kind : Kind) (t : Nat) (alternate : m.swings.IsChain Alternates)
    (upTo : ∀ sw ∈ m.swings, sw.idx ≤ p) :
    (m.addPivot cfg p kind t).1.swings.IsChain Alternates ∧
      (∀ sw ∈ (m.addPivot cfg p kind t).1.swings, sw.idx ≤ p) ∧
      (m.swings ≠ [] → (m.addPivot cfg p kind t).1.swings ≠ []) := by
  rcases addPivot_cases cfg m p kind t with ignored | ⟨status, sw, before, added, isKind, isP, how⟩
  · rw [ignored]
    exact ⟨alternate, upTo, id⟩
  · rw [added]
    have earlier : before.IsChain Alternates ∧ (∀ s ∈ before, s.idx ≤ p) ∧
        ∀ last, before.getLast? = some last → last.kind ≠ kind := by
      rcases how with ⟨rfl, differs⟩ | ⟨last, split, sameKind⟩
      · exact ⟨alternate, upTo, differs⟩
      · rw [split] at alternate upTo
        refine ⟨alternate.left_of_append, fun s mem => upTo s (List.mem_append_left _ mem), ?_⟩
        intro last' isLast same
        obtain ⟨first, split'⟩ := List.getLast?_eq_some_iff.mp isLast
        rw [split', List.append_assoc] at alternate
        have next := (List.isChain_append.mp alternate).2.1
        simp only [List.singleton_append, List.isChain_cons_cons] at next
        exact next.1.1 (same.trans sameKind.symm)
    refine ⟨?_, ?_, fun _ => by simp⟩
    · apply earlier.1.append (.singleton sw)
      intro last isLast sw' isHead
      cases isHead
      refine ⟨fun same => earlier.2.2 last isLast (same.trans isKind), ?_⟩
      rw [isP]
      exact earlier.2.1 last (List.mem_of_getLast? isLast)
    · intro s mem
      rcases List.mem_append.mp mem with old | new
      · exact earlier.2.1 s old
      · rw [List.mem_singleton.mp new, isP]

/-- The new swings of a bar, on the way. -/
structure Pivoted (t : Nat) (m : Tracker) (new : List (Status × Swing)) : Prop where
  alternate : m.swings.IsChain Alternates
  upTo : ∀ sw ∈ m.swings, sw.idx + m.radius cfg ≤ t
  some_ : new ≠ [] → m.swings ≠ []

theorem takePivot_ok {t : Nat} (kind : Kind) {new : List (Status × Swing)}
    (pivoted : Pivoted cfg t m new) (positive : 0 < m.radius cfg) (now : m.bars.length = t + 1) :
    ∃ m' new', takePivot cfg t kind (m, new) = .ok (m', new') ∧ Pivoted cfg t m' new' ∧
      (m.swings ≠ [] → m'.swings ≠ []) ∧
      ∃ swings events, m' = { m with swings := swings, events := events } := by
  unfold takePivot
  dsimp only
  split
  · exact ⟨m, new, rfl, pivoted, id, _, _, rfl⟩
  · obtain ⟨b, judged⟩ := isPivot_ok cfg (p := t - m.radius cfg) kind positive (by omega)
    simp only [judged, ok_bind]
    cases b with
    | false => exact ⟨m, new, rfl, pivoted, id, _, _, rfl⟩
    | true =>
      have upToP : ∀ sw ∈ m.swings, sw.idx ≤ t - m.radius cfg := by
        intro sw mem
        have upTo := pivoted.upTo sw mem
        omega
      obtain ⟨alternate, upTo, kept⟩ := alternate_addPivot cfg kind t pivoted.alternate upToP
      rcases addPivot_cases cfg m (t - m.radius cfg) kind t with
        ignored | ⟨status, sw, before, added, -, -, -⟩
      · rw [ignored]
        exact ⟨m, new, rfl, pivoted, id, _, _, rfl⟩
      · rw [added] at alternate upTo kept ⊢
        refine ⟨_, _, rfl, ⟨alternate, ?_, fun _ => by simp [emit]⟩, kept, _, _, rfl⟩
        intro sw' mem
        have upTo := upTo sw' mem
        show sw'.idx + m.radius cfg ≤ t
        omega

/-! ## Steps of the state -/

theorem weakBookkeeping_ok (t : Nat) (s : Direction) (isChoch : m.chochIdx = some choch) :
    ∃ settled, m.weakBookkeeping cfg t s = .ok { m with weakMinSettled := settled } := by
  unfold weakBookkeeping
  simp only [isChoch]
  split
  · exact ⟨_, rfl⟩
  · exact ⟨m.weakMinSettled, by rw [← isChoch]⟩

theorem minLowBefore_ok (t : Nat) (s : Direction) (upto : Nat) (isChoch : m.chochIdx = some choch) :
    ∃ floor, m.minLowBefore cfg t s upto = .ok floor := by
  unfold minLowBefore
  rw [isChoch]
  exact ⟨_, rfl⟩

theorem recentRange_ok (swung : m.swings ≠ []) :
    ∃ hi lo, m.recentRange cfg = .ok (hi, lo) ∧ lo ≤ hi := by
  have some_ : (lastN cfg.initSwings m.swings).map Swing.price ≠ [] := by
    rw [ne_eq, List.map_eq_nil_iff]
    exact lastN_ne_nil swung
  obtain ⟨hi, isHi, mem, -⟩ := maxOf_ok some_
  obtain ⟨lo, isLo, -, bound⟩ := minOf_ok some_
  refine ⟨hi, lo, ?_, bound hi mem⟩
  unfold recentRange
  simp only [isHi, isLo, ok_bind]
  rfl

/-- Within a trend the state stays one of the trend that are not weak. -/
theorem withinTrend_eq (m : Tracker) (t : Nat) (s : Direction) (prevExt ext : ℚ) :
    ∃ state broken events changes, m.withinTrend cfg t s prevExt ext
        = { m with state := state, lastShBroken := broken, events := events, changes := changes } ∧
      (state = m.state ∨ state = .trend s .base ∨ state = .trend s .pullback) := by
  unfold withinTrend
  dsimp only
  split
  · obtain ⟨events, changes, set⟩ := setState_eq { m with lastShBroken := true } t (.trend s .base)
      .bos _ _
    exact ⟨_, true, events, changes, set, .inr (.inl rfl)⟩
  · split
    · obtain ⟨events, changes, set⟩ := setState_eq m t (.trend s .base) .pullbackEnd
        (s.signed (m.signedClose s t)) .plain
      exact ⟨_, m.lastShBroken, events, changes, set, .inr (.inl rfl)⟩
    · split
      · obtain ⟨events, changes, set⟩ := setState_eq m t (.trend s .pullback) .pullbackStart
          (s.signed (m.signedClose s t)) .plain
        exact ⟨_, m.lastShBroken, events, changes, set, .inr (.inr rfl)⟩
      · exact ⟨m.state, m.lastShBroken, m.events, m.changes, rfl, .inl rfl⟩

section Steps

variable {t : Nat} (listed : Listed cfg m) (now : m.bars.length = t + 1)

include now in
theorem breakProtected_ok (ext prot : ℚ) (isS : m.s = some s) (isProt : m.prot.isSome = true)
    (isExt : m.ext.isSome = true) (swung : m.swings ≠ []) :
    ∃ m', m.breakProtected cfg t s ext prot = .ok m' ∧ Placed m' ∧ SameLists m m' := by
  unfold breakProtected
  obtain ⟨events, changes, set⟩ := setState_eq (m.weakened t ext) t (.trend s .weak) .choch
    (s.signed prot) (.protectedBroken (s.signed prot))
  rw [set]
  have isChoch : ({ m.weakened t ext with
      state := .trend s .weak, events := events, changes := changes } : Tracker).chochIdx = some t := rfl
  obtain ⟨settled, folded⟩ := weakBookkeeping_ok cfg t s isChoch
  rw [folded]
  refine ⟨_, rfl, .ofTrend rfl isS isProt isExt (fun _ => ⟨rfl, t, rfl, ?_⟩) swung,
    ⟨rfl, rfl, rfl, rfl, rfl⟩⟩
  show t < m.bars.length
  omega

include now in
theorem stepTrend_ok (prevExt prot : ℚ) (new : List (Status × Swing)) (isS : m.s = some s)
    (inTrend : m.state = .trend s .base ∨ m.state = .trend s .pullback) (swung : m.swings ≠ []) :
    ∃ m', m.stepTrend cfg t s prevExt prot new = .ok m' ∧ Placed m' ∧ SameLists m m' := by
  unfold stepTrend
  dsimp only
  generalize new.foldl (Levels.follow s (m.tol cfg.eqTol)) ⟨prot, m.lastSh, m.lastShBroken⟩ = levels
  generalize max prevExt (m.signedHigh s t) = ext
  split
  · obtain ⟨m', broken, placed, same⟩ :=
      breakProtected_ok cfg (m := m.withLevels ext levels) now ext levels.prot isS rfl rfl swung
    have lists : SameLists m (m.withLevels ext levels) := ⟨rfl, rfl, rfl, rfl, rfl⟩
    exact ⟨m', broken, placed, lists.trans same⟩
  · obtain ⟨state, broken, events, changes, within, kept⟩ :=
      withinTrend_eq cfg (m.withLevels ext levels) t s prevExt ext
    rw [within]
    refine ⟨_, rfl, ?_, ⟨rfl, rfl, rfl, rfl, rfl⟩⟩
    have isState : state = .trend s .base ∨ state = .trend s .pullback := by
      rcases kept with same | kept
      · rw [same]
        exact inTrend
      · exact kept
    rcases isState with rfl | rfl <;>
      exact .ofTrend rfl isS rfl rfl (fun isWeak => by cases isWeak) swung

include listed in
theorem length_weakLows (s : Direction) : (m.weakLows s).length = m.bars.length := by
  cases s with
  | up => exact listed.lows
  | down => simp [weakLows, listed.highs]

include listed in
/-- A trend turns once a change of character and a swing against it are known. -/
theorem toOpposite_ok (t : Nat) (s : Direction) (trigger : Nat) {lh : Swing}
    (isChoch : m.chochIdx = some choch) (before : choch < m.bars.length) (isLh : m.lh = some lh)
    (swung : m.swings ≠ []) :
    ∃ m', m.toOpposite t s trigger = .ok m' ∧ Placed m' ∧ SameLists m m' := by
  have length := length_weakLows cfg listed s
  have some_ : slice choch (max trigger (choch + 1)) (m.weakLows s) ≠ [] :=
    slice_ne_nil (by omega) (by omega)
  obtain ⟨floor, isFloor, -⟩ := minOf_ok some_
  unfold toOpposite
  simp only [isChoch, isLh, isFloor, ok_bind]
  obtain ⟨events, changes, set⟩ := setState_eq (m.turned t s trigger floor lh) t
    (.trend s.opposite .base) .reversalConfirmed (s.signed floor)
    (.reversal (m.barEnd trigger) trigger lh.price)
  refine ⟨_, congrArg Except.ok set, ?_, ⟨rfl, rfl, rfl, rfl, rfl⟩⟩
  exact .ofTrend rfl rfl rfl rfl (fun isWeak => by cases isWeak) swung

include listed in
theorem catchUpDown_ok (s : Direction) (before : choch < m.bars.length) (ks : List Nat) :
    ∃ caught, m.catchUpDown s choch ks = .ok caught := by
  induction ks with
  | nil => exact ⟨none, rfl⟩
  | cons k ks ih =>
    unfold catchUpDown
    split
    · rename_i later
      have length := length_weakLows cfg listed s
      have some_ : slice choch k (m.weakLows s) ≠ [] := slice_ne_nil later (by omega)
      obtain ⟨floor, isFloor, -⟩ := minOf_ok some_
      simp only [isFloor, ok_bind]
      split
      · exact ⟨_, rfl⟩
      · exact ih
    · exact ih

/-- A weak trend keeps what it reads as its swings are counted. -/
structure Weak (s : Direction) (choch : Nat) (m : Tracker) : Prop where
  state : m.state = .trend s .weak
  isS : m.s = some s
  prot : m.prot.isSome = true
  ext : m.ext.isSome = true
  weakExt : m.weakExt.isSome = true
  isChoch : m.chochIdx = some choch
  before : choch < m.bars.length
  swung : m.swings ≠ []

theorem Weak.placed (weak : Weak s choch m) : Placed m :=
  .ofTrend weak.state weak.isS weak.prot weak.ext
    (fun _ => ⟨weak.weakExt, choch, weak.isChoch, weak.before⟩) weak.swung

theorem weakSwings_ok (t : Nat) (s : Direction) (weakExt : ℚ) (choch : Nat)
    (new : List (Status × Swing)) (listed : Listed cfg m) (weak : Weak s choch m) :
    ∃ m' turned, weakSwings cfg t s weakExt choch m new = .ok (m', turned) ∧ SameLists m m' ∧
      Placed m' ∧ (turned = false → Weak s choch m') := by
  induction new generalizing m with
  | nil => exact ⟨m, false, rfl, .refl m, weak.placed, fun _ => weak⟩
  | cons entry rest ih =>
    obtain ⟨status, sw⟩ := entry
    unfold weakSwings
    split
    · exact ih listed weak
    · dsimp only
      have counted : Weak s choch { m with weakSwingCount := m.weakSwingCount + 1 } := { weak with }
      split
      · -- the swing is a qualifying one: the trend may have turned on an earlier bar
        have noted : Weak s choch
            { m with weakSwingCount := m.weakSwingCount + 1, lh := some sw } := { weak with }
        have same : SameLists m { m with weakSwingCount := m.weakSwingCount + 1, lh := some sw } :=
          ⟨rfl, rfl, rfl, rfl, rfl⟩
        obtain ⟨caught, isCaught⟩ := catchUpDown_ok cfg (listed.same same) s noted.before
          (List.range' (sw.idx + 1) (t - sw.idx))
        simp only [isCaught, ok_bind]
        cases caught with
        | none =>
          obtain ⟨m', turned, ran, same', rest'⟩ := ih (listed.same same) noted
          exact ⟨m', turned, ran, same.trans same', rest'⟩
        | some k =>
          obtain ⟨m', turned, placed, same'⟩ := toOpposite_ok cfg (listed.same same) t s k noted.isChoch
            noted.before rfl noted.swung
          simp only [turned, ok_bind]
          exact ⟨m', true, rfl, same.trans same', placed, fun no => by cases no⟩
      · have same : SameLists m { m with weakSwingCount := m.weakSwingCount + 1 } :=
          ⟨rfl, rfl, rfl, rfl, rfl⟩
        obtain ⟨m', turned, ran, same', rest'⟩ := ih (listed.same same) counted
        exact ⟨m', turned, ran, same.trans same', rest'⟩

theorem fallsBelow_cases (t : Nat) (s : Direction) (isChoch : m.chochIdx = some choch) :
    ∃ falls, m.fallsBelow cfg t s choch = .ok falls ∧ (falls = true → m.lh.isSome = true) := by
  unfold fallsBelow
  split
  · rename_i both
    obtain ⟨floor, isFloor⟩ := minLowBefore_ok cfg t s (t - 1) isChoch
    rw [isFloor]
    exact ⟨_, rfl, fun _ => both.1⟩
  · exact ⟨false, rfl, fun no => by cases no⟩

theorem decideWeak_ok (t : Nat) (s : Direction) (choch : Nat) (listed : Listed cfg m)
    (weak : Weak s choch m) :
    ∃ m', m.decideWeak cfg t s choch = .ok m' ∧ Placed m' ∧ SameLists m m' := by
  unfold decideWeak
  obtain ⟨falls, isFalls, known⟩ := fallsBelow_cases cfg t s weak.isChoch
  simp only [isFalls, ok_bind]
  split
  · rename_i true_
    obtain ⟨lh, isLh⟩ := Option.isSome_iff_exists.mp (known true_)
    exact toOpposite_ok cfg listed t s t weak.isChoch weak.before isLh weak.swung
  · split
    · obtain ⟨hi, lo, isRange, le⟩ := recentRange_ok cfg weak.swung
      simp only [isRange, ok_bind]
      obtain ⟨events, changes, set⟩ := setState_eq { m with rangeHi := some hi, rangeLo := some lo }
        t .range .rangeStart (m.close t) (.rangeOf hi lo)
      refine ⟨_, rfl, ?_, ?_⟩
      · rw [show close { m with rangeHi := some hi, rangeLo := some lo } t = m.close t from rfl, set]
        exact .ofRange rfl rfl rfl rfl le weak.swung
      · rw [show close { m with rangeHi := some hi, rangeLo := some lo } t = m.close t from rfl, set]
        exact ⟨rfl, rfl, rfl, rfl, rfl⟩
    · exact ⟨m, rfl, weak.placed, .refl m⟩

theorem stepWeak_ok (t : Nat) (s : Direction) (new : List (Status × Swing)) (listed : Listed cfg m)
    (weak : Weak s choch m) :
    ∃ m', m.stepWeak cfg t s new = .ok m' ∧ Placed m' ∧ SameLists m m' := by
  obtain ⟨weakExt, isWeakExt⟩ := Option.isSome_iff_exists.mp weak.weakExt
  obtain ⟨settled, folded⟩ := weakBookkeeping_ok cfg t s weak.isChoch
  have booked : Weak s choch { m with weakMinSettled := settled } := { weak with }
  have same : SameLists m { m with weakMinSettled := settled } := ⟨rfl, rfl, rfl, rfl, rfl⟩
  unfold stepWeak
  rw [isWeakExt, weak.isChoch]
  simp only [folded, ok_bind]
  split
  · obtain ⟨floor, isFloor⟩ := minLowBefore_ok cfg t s t booked.isChoch
    simp only [isFloor, ok_bind]
    obtain ⟨events, changes, set⟩ := setState_eq
      (recovered { m with weakMinSettled := settled } t s weakExt floor) t (.trend s .base) .recovery
      (s.signed (signedClose { m with weakMinSettled := settled } s t))
      (.recoveredAbove (s.signed weakExt))
    refine ⟨_, congrArg Except.ok set, ?_, ⟨rfl, rfl, rfl, rfl, rfl⟩⟩
    refine .ofTrend rfl weak.isS ?_ rfl (fun isWeak => by cases isWeak) weak.swung
    show (floor.or m.prot).isSome = true
    rw [Option.isSome_or, weak.prot, Bool.or_true]
  · obtain ⟨m', turned, ran, same', placed, still⟩ :=
      weakSwings_ok cfg t s weakExt choch new (listed.same same) booked
    simp only [ran, ok_bind]
    cases turned with
    | true => exact ⟨m', rfl, placed, same.trans same'⟩
    | false =>
      obtain ⟨m'', decided, placed', same''⟩ :=
        decideWeak_ok cfg t s choch ((listed.same same).same same') (still rfl)
      exact ⟨m'', decided, placed', (same.trans same').trans same''⟩

theorem mem_of_lastTwo {swings : List Swing} {last before : Swing}
    (two : lastTwo swings = some (last, before)) : last ∈ swings := by
  unfold lastTwo at two
  split at two
  · rename_i split
    cases two
    have mem : last ∈ swings.reverse := by
      rw [split]
      exact List.mem_cons_self
    exact List.mem_reverse.mp mem
  · cases two

theorem mem_of_mem_lastN {α : Type} {n : Nat} {xs : List α} {x : α} (mem : x ∈ lastN n xs) : x ∈ xs := by
  unfold lastN at mem
  split at mem
  · exact mem
  · exact List.mem_of_mem_drop mem

include now in
theorem firstTrend_ok (s : Direction) (prot : Swing) {top : Swing} (known : top.idx < m.bars.length)
    (swung : m.swings ≠ []) :
    ∃ m', m.firstTrend t s prot top = .ok m' ∧ Placed m' ∧ SameLists m m' := by
  have some_ : (List.range' top.idx (t + 1 - top.idx)).map (m.signedHigh s) ≠ [] := by
    rw [ne_eq, List.map_eq_nil_iff, List.range'_eq_nil_iff]
    omega
  obtain ⟨ext, isExt, -⟩ := maxOf_ok some_
  unfold firstTrend
  simp only [isExt, ok_bind]
  obtain ⟨events, changes, set⟩ := setState_eq { m with
    s := some s
    prot := some (s.signed prot.price)
    ext := some ext
    lastSh := some (s.signed top.price, some top.idx)
    lastShBroken := false } t (.trend s .base) .initTrend (m.close t) .plain
  refine ⟨_, congrArg Except.ok set, ?_, ⟨rfl, rfl, rfl, rfl, rfl⟩⟩
  exact .ofTrend rfl rfl rfl rfl (fun isWeak => by cases isWeak) swung

theorem firstRange_ok (t : Nat) (isS : m.s = none) (swung : m.swings ≠ []) :
    ∃ m', m.firstRange cfg t = .ok m' ∧ Placed m' ∧ SameLists m m' := by
  obtain ⟨hi, lo, isRange, le⟩ := recentRange_ok cfg swung
  unfold firstRange
  simp only [isRange, ok_bind]
  obtain ⟨events, changes, set⟩ := setState_eq { m with rangeHi := some hi, rangeLo := some lo } t
    .range .initRange (m.close t) (.rangeOf hi lo)
  exact ⟨_, congrArg Except.ok set, .ofRange rfl isS rfl rfl le swung, ⟨rfl, rfl, rfl, rfl, rfl⟩⟩

include listed now in
theorem tryInit_ok (placed : Placed m) (isInit : m.state = .init) :
    ∃ m', m.tryInit cfg t = .ok m' ∧ Placed m' ∧ SameLists m m' := by
  unfold tryInit
  split
  · exact ⟨m, rfl, placed, .refl m⟩
  · dsimp only
    split
    · rename_i high highBefore low lowBefore highs lows
      have inSwings {kind : Kind} {sw before : Swing} (two : lastTwo
          ((lastN cfg.initSwings m.swings).filter fun sw => sw.kind = kind) = some (sw, before)) :
          sw ∈ m.swings := mem_of_mem_lastN (List.mem_filter.mp (mem_of_lastTwo two)).1
      have isHigh := inSwings highs
      have isLow := inSwings lows
      have swung := List.ne_nil_of_mem isHigh
      split
      · exact firstTrend_ok now .up low (by have := listed.known high isHigh; omega) swung
      · exact firstTrend_ok now .down high (by have := listed.known low isLow; omega) swung
      · exact firstRange_ok cfg t (placed.start isInit) swung
    · exact ⟨m, rfl, placed, .refl m⟩

theorem widen_ok (new : List (Status × Swing)) (isS : m.s = none) (inRange : m.state = .range)
    (swung : m.swings ≠ []) {hi lo : ℚ} (isHi : m.rangeHi = some hi) (isLo : m.rangeLo = some lo)
    (le : lo ≤ hi) :
    ∃ m' hi lo, widen cfg m new = .ok m' ∧ m'.rangeHi = some hi ∧ m'.rangeLo = some lo ∧
      Placed m' ∧ SameLists m m' := by
  induction new generalizing m hi lo with
  | nil => exact ⟨m, hi, lo, rfl, isHi, isLo, .ofRange inRange isS isHi isLo le swung, .refl m⟩
  | cons entry rest ih =>
    obtain ⟨hi', lo', isRange, le'⟩ := recentRange_ok cfg swung
    unfold widen
    simp only [isRange, ok_bind]
    obtain ⟨m', high, low, ran, isHigh, isLow, placed, same⟩ :=
      ih (m := { m with rangeHi := some hi', rangeLo := some lo' }) isS inRange swung rfl rfl le'
    have lists : SameLists m { m with rangeHi := some hi', rangeLo := some lo' } :=
      ⟨rfl, rfl, rfl, rfl, rfl⟩
    exact ⟨m', high, low, ran, isHigh, isLow, placed, lists.trans same⟩

theorem enterTrend_placed (t : Nat) (s : Direction) (protPrice : ℚ) (type : EventType)
    (swung : m.swings ≠ []) :
    Placed (m.enterTrend t s protPrice type) ∧ SameLists m (m.enterTrend t s protPrice type) := by
  obtain ⟨events, changes, set⟩ := setState_eq { m with
    s := some s
    prot := some (s.signed protPrice)
    ext := some (m.signedHigh s t)
    lastSh := (lastOf s.highKind m.swings).map fun sw : Swing => (s.signed sw.price, some sw.idx)
    lastShBroken := true } t (.trend s .base) type (m.close t) .plain
  unfold enterTrend
  rw [set]
  exact ⟨.ofTrend rfl rfl rfl rfl (fun isWeak => by cases isWeak) swung, rfl, rfl, rfl, rfl, rfl⟩

theorem stepRange_ok (t : Nat) (new : List (Status × Swing)) (placed : Placed m)
    (inRange : m.state = .range) :
    ∃ m', m.stepRange cfg t new = .ok m' ∧ Placed m' ∧ SameLists m m' := by
  obtain ⟨isS, hi, lo, isHi, isLo, le⟩ := placed.ranging inRange
  have swung := placed.swung (by rw [inRange]; exact fun no => by cases no)
  obtain ⟨m', hi', lo', ran, isHi', isLo', placed', same⟩ :=
    widen_ok cfg new isS inRange swung isHi isLo le
  have swung' : m'.swings ≠ [] := by
    rw [same.swings]
    exact swung
  unfold stepRange
  simp only [ran, ok_bind, isHi', isLo']
  split
  · obtain ⟨entered, same'⟩ := enterTrend_placed t .up _ .rangeExitUp swung'
    exact ⟨_, rfl, entered, same.trans same'⟩
  · obtain ⟨entered, same'⟩ := enterTrend_placed t .down _ .rangeExitDown swung'
    exact ⟨_, rfl, entered, same.trans same'⟩
  · exact ⟨m', rfl, placed', same⟩

include listed now in
/-- No step of the state fails, and its next state has what it reads. -/
theorem step_ok (new : List (Status × Swing)) (placed : Placed m) :
    ∃ m', m.step cfg t new = .ok m' ∧ Placed m' ∧ SameLists m m' := by
  unfold step
  cases isState : m.state with
  | init => exact tryInit_ok cfg listed now placed isState
  | range => exact stepRange_ok cfg t new placed isState
  | trend s phase =>
    obtain ⟨isS, isProt, isExt⟩ := placed.trending s phase isState
    obtain ⟨prot, isProt'⟩ := Option.isSome_iff_exists.mp isProt
    obtain ⟨ext, isExt'⟩ := Option.isSome_iff_exists.mp isExt
    have swung := placed.swung (by rw [isState]; exact fun no => by cases no)
    dsimp only
    rw [isExt', isProt', isS]
    dsimp only
    cases phase with
    | base =>
      rw [if_pos (.inl rfl)]
      exact stepTrend_ok cfg now ext prot new isS (.inl isState) swung
    | pullback =>
      rw [if_pos (.inr rfl)]
      exact stepTrend_ok cfg now ext prot new isS (.inr isState) swung
    | weak =>
      rw [if_neg (by simp)]
      obtain ⟨isWeakExt, choch, isChoch, before⟩ := placed.weak s isState
      exact stepWeak_ok cfg t s new listed
        ⟨isState, isS, isProt, isExt, isWeakExt, isChoch, before, swung⟩

end Steps

/-! ## Bars -/

theorem sweep_eq (t : Nat) (m : Tracker) (sw : Swing) :
    ∃ swept events, sweep t m sw = { m with swept := swept, events := events } := by
  unfold sweep
  split
  · exact ⟨m.swept, m.events, rfl⟩
  · split
    · exact ⟨_, _, rfl⟩
    · exact ⟨m.swept, m.events, rfl⟩

theorem detectSweeps_eq (t : Nat) (m : Tracker) :
    ∃ swept events, m.detectSweeps t = { m with swept := swept, events := events } := by
  have folded (swings : List Swing) (m : Tracker) : ∃ swept events,
      swings.foldl (sweep t) m = { m with swept := swept, events := events } := by
    induction swings generalizing m with
    | nil => exact ⟨m.swept, m.events, rfl⟩
    | cons sw swings ih =>
      obtain ⟨swept, events, swung⟩ := sweep_eq t m sw
      rw [List.foldl_cons, swung]
      exact ih _
  unfold detectSweeps
  split
  · exact ⟨m.swept, m.events, rfl⟩
  · exact folded _ m

/-- A bar's pivots are taken without a fault, at or after every swing known before it. -/
theorem takePivots_ok (bar : Bar) (effLo effHi : List ℚ) (positive : 0 < m.radius cfg)
    (coherent : Coherent cfg m) : ∃ new swings events,
      (takePivot cfg m.bars.length .high ({ m.push cfg bar with effLo := effLo, effHi := effHi }, [])
          >>= takePivot cfg m.bars.length .low)
        = .ok ({ m.push cfg bar with
            effLo := effLo, effHi := effHi, swings := swings, events := events }, new) ∧
      Pivoted cfg m.bars.length { m.push cfg bar with
        effLo := effLo, effHi := effHi, swings := swings, events := events } new ∧
      (m.swings ≠ [] → swings ≠ []) := by
  have now : (m.push cfg bar).bars.length = m.bars.length + 1 := by simp [Tracker.push]
  have pivoted : Pivoted cfg m.bars.length
      { m.push cfg bar with effLo := effLo, effHi := effHi } [] := by
    exact ⟨coherent.listed.alternate, fun sw mem => (coherent.listed.known sw mem).le,
      fun no => absurd rfl no⟩
  obtain ⟨m₁, new₁, taken₁, pivoted₁, kept₁, swings₁, events₁, is₁⟩ :=
    takePivot_ok cfg .high pivoted positive now
  rw [is₁] at taken₁ pivoted₁ kept₁
  obtain ⟨m₂, new₂, taken₂, pivoted₂, kept₂, swings₂, events₂, is₂⟩ :=
    takePivot_ok cfg .low pivoted₁ positive now
  rw [is₂] at taken₂ pivoted₂ kept₂
  refine ⟨new₂, swings₂, events₂, ?_, pivoted₂, fun some_ => kept₂ (kept₁ some_)⟩
  rw [taken₁, ok_bind, taken₂]

/-- Every bar is taken without a fault, and leaves a coherent tracker. -/
theorem onBar_ok (bar : Bar) (positive : 0 < m.radius cfg) (coherent : Coherent cfg m) :
    ∃ m', m.onBar cfg bar = .ok m' ∧ Coherent cfg m' ∧ m'.tf = m.tf := by
  have pushed := coherent.placed.push cfg bar
  have now : (m.push cfg bar).bars.length = m.bars.length + 1 := by simp [Tracker.push]
  have lows : (m.push cfg bar).effLo.length = m.bars.length + 1 := by
    simp [Tracker.push, coherent.listed.lows]
  have highs : (m.push cfg bar).effHi.length = m.bars.length + 1 := by
    simp [Tracker.push, coherent.listed.highs]
  unfold onBar
  dsimp only
  split
  · refine ⟨_, rfl, ⟨⟨coherent.listed.alternate, ?_, lows.trans now.symm, highs.trans now.symm⟩,
      pushed⟩, rfl⟩
    intro sw mem
    rw [now]
    exact (coherent.listed.known sw mem).trans (Nat.lt_succ_self _)
  · obtain ⟨effLo, effHi, settled, sameLows, sameHighs⟩ :=
      settleSpikes_eq cfg (m.push cfg bar) m.bars.length
    rw [settled]
    obtain ⟨new, swings, events, taken, pivoted, kept⟩ :=
      takePivots_ok cfg bar effLo effHi positive coherent
    rw [← bind_assoc, taken, ok_bind]
    have listed : Listed cfg { m.push cfg bar with
        effLo := effLo, effHi := effHi, swings := swings, events := events } := by
      refine ⟨pivoted.alternate, ?_, ?_, ?_⟩
      · intro sw mem
        have upTo : sw.idx + m.radius cfg ≤ m.bars.length := pivoted.upTo sw mem
        show sw.idx + m.radius cfg < (m.push cfg bar).bars.length
        omega
      · exact sameLows.trans (lows.trans now.symm)
      · exact sameHighs.trans (highs.trans now.symm)
    have placed := pushed.withSwings swings events effLo effHi kept
    obtain ⟨m', stepped, placed', same⟩ := step_ok cfg listed now new placed
    obtain ⟨swept, events', swept_⟩ := detectSweeps_eq m.bars.length m'
    rw [stepped]
    refine ⟨_, congrArg Except.ok swept_, ⟨?_, ?_⟩, same.tf⟩
    · exact (listed.same same).same ⟨rfl, rfl, rfl, rfl, rfl⟩
    · exact { placed' with }

end Tracker

theorem coherent_start (cfg : Config) (tf : String) : Coherent cfg { tf := tf } where
  listed := ⟨.nil, fun _ mem => absurd mem List.not_mem_nil, rfl, rfl⟩
  placed := {
    start := fun _ => rfl
    ranging := fun no => by cases no
    trending := fun _ _ no => by cases no
    weak := fun _ no => by cases no
    swung := fun no => absurd rfl no }

/-- With pivots judged on at least one bar each side, no bar raises a fault, and every state keeps
the invariant: it alternates its swings and has the fields its next step reads. -/
theorem run_coherent (cfg : Config) (tf : String) (bars : List Bar)
    (positive : 0 < (cfg.pivotN.get tf).getD 3) : ∃ m, run cfg tf bars = .ok m ∧ Coherent cfg m := by
  have from_ (bars : List Bar) (m : Tracker) (coherent : Coherent cfg m) (isTf : m.tf = tf) :
      ∃ m', bars.foldlM (Tracker.onBar cfg) m = .ok m' ∧ Coherent cfg m' := by
    induction bars generalizing m with
    | nil => exact ⟨m, rfl, coherent⟩
    | cons bar bars ih =>
      obtain ⟨next, taken, coherent', sameTf⟩ :=
        Tracker.onBar_ok cfg bar (by unfold Tracker.radius; rw [isTf]; exact positive) coherent
      rw [List.foldlM_cons, taken]
      exact ih next coherent' (sameTf.trans isTf)
  exact from_ bars _ (coherent_start cfg tf) rfl

/-- Bars from `a` to `b` in `n` even steps, with a wick of one either way. -/
def leg (a b : ℚ) (n : Nat) : List Bar :=
  (List.range n).map fun i =>
    let opens := a + (b - a) / n * i
    let closes := a + (b - a) / n * (i + 1)
    ⟨0, opens, max opens closes + 1, min opens closes - 1, closes, true⟩

/-- A rise, and a fall below the low it started from. -/
def reversed : List Bar :=
  leg 100 120 4 ++ leg 120 110 4 ++ leg 110 134 4 ++ leg 134 122 4 ++ leg 122 142 4 ++ leg 142 112 5 ++
    leg 112 126 4 ++ leg 126 100 6

/-- A run through an uptrend, its change of character and the downtrend after it. -/
theorem run_coherent_default : ∃ m, run {} "5m" reversed = .ok m ∧ Coherent {} m ∧
    m.changes.map StateChange.state = [.trend .up .base, .trend .up .weak, .trend .down .base] := by
  obtain ⟨m, ran, coherent⟩ := run_coherent {} "5m" reversed (by decide)
  have states : (run {} "5m" reversed).toOption.map (fun m => m.changes.map StateChange.state) =
      some [.trend .up .base, .trend .up .weak, .trend .down .base] := by
    decide +kernel
  rw [ran] at states
  exact ⟨m, ran, coherent, Option.some.inj states⟩

end AdvanceTrading.StructureTracker
