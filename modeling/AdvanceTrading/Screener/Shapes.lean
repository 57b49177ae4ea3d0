import AdvanceTrading.Screener.LaterBars

/-!
# What decides which bars are collected

Which bars closed buckets collect is decided by when the bars start and by which
of them have a close, whatever the other values are.
-/

namespace AdvanceTrading.Screener

variable {clock : Clock} {src tf : Timeframe}

/-- When a bar starts, and whether it has a close. -/
def Row.shape (row : Row) : Int × Bool := (row.start, row.close.isSome)

/-- Frames whose bars start at the same times and have closes in the same places. -/
def Frame.SameShape (f g : Frame clock src) : Prop :=
  f.columns = g.columns ∧ f.rows.map Row.shape = g.rows.map Row.shape

/-- Symbols with the same frames, as to the shapes of their bars. -/
def SameShape (a b : Frames clock) : Prop :=
  ∀ tf, (a tf = none ∧ b tf = none) ∨ ∃ f g, a tf = some f ∧ b tf = some g ∧ f.SameShape g

theorem SameShape.symm {a b : Frames clock} (same : SameShape a b) : SameShape b a := by
  intro tf
  rcases same tf with ⟨none_, none_'⟩ | ⟨f, g, isF, isG, columns, rows⟩
  · exact Or.inl ⟨none_', none_⟩
  · exact Or.inr ⟨g, f, isG, isF, columns.symm, rows.symm⟩

theorem SameShape.frame {a b : Frames clock} (same : SameShape a b) {f : Frame clock src}
    (isF : a src = some f) : ∃ g, b src = some g ∧ f.SameShape g := by
  rcases same src with ⟨none_, -⟩ | ⟨f', g, isF', isG, alike⟩
  · rw [none_] at isF
    cases isF
  · rw [isF'] at isF
    cases isF
    exact ⟨g, isG, alike⟩

theorem SameShape.none_iff {a b : Frames clock} (same : SameShape a b) (tf : Timeframe) :
    a tf = none ↔ b tf = none := by
  rcases same tf with ⟨none_, none_'⟩ | ⟨f, g, isF, isG, -⟩
  · simp [none_, none_']
  · simp [isF, isG]

/-- `collected`, of shapes. -/
def collectedOf (clock : Clock) (src tf : Timeframe) (c : Int) (shapes : List (Int × Bool)) :
    List Int :=
  match shapes.getLast? with
  | some last =>
      (shapes.filter fun s =>
        barClose clock tf (label clock tf s.1) ≤ min c (barClose clock src last.1) &&
          shapes.any fun s' => label clock tf s'.1 = label clock tf s.1 && s'.2).map Prod.fst
  | none => []

theorem collected_eq (frame : Frame clock src) (tf : Timeframe) (c : Int) :
    frame.collected tf c = collectedOf clock src tf c (frame.rows.map Row.shape) := by
  unfold Frame.collected Frame.collectedRows collectedOf
  rw [List.getLast?_map]
  cases frame.rows.getLast? with
  | none => rfl
  | some last =>
    simp only [Option.map_some, List.filter_map, List.map_map, List.any_map]
    rfl

theorem Frame.SameShape.collected {f g : Frame clock src} (same : f.SameShape g) (tf : Timeframe)
    (c : Int) : f.collected tf c = g.collected tf c := by
  rw [collected_eq, collected_eq, same.2]

/-- The shapes of coarser bars. -/
theorem buckets_shape (first : Int) (rows : List Row) :
    (buckets clock tf first rows).map Row.shape
      = ((Dict.groupBy (fun s : Int × Bool => bucketStart clock tf first s.1)
          (rows.map Row.shape)).map fun e => (e.1, e.2.any Prod.snd)).filter Prod.snd := by
  rw [Dict.groupBy_map]
  have shape : ∀ l (group : List Row),
      (aggregate l group).shape = (l, (group.map Row.shape).any Prod.snd) := by
    intro l group
    unfold Row.shape
    rw [aggregate_close_isSome, List.any_map]
    rfl
  unfold buckets
  simp only [List.filter_map, List.map_map]
  have kept : ((fun row : Row => row.close.isSome) ∘ fun e : Int × List Row => aggregate e.1 e.2)
      = Prod.snd ∘ (fun e : Int × List (Int × Bool) => (e.1, e.2.any Prod.snd))
          ∘ fun e : Int × List Row => (e.1, e.2.map Row.shape) := by
    funext e
    exact congrArg Prod.snd (shape e.1 e.2)
  rw [kept]
  apply List.map_congr_left
  intro e _
  exact shape e.1 e.2

theorem resampledRows_shape {f g : Frame clock src} (same : f.SameShape g) (tf : Timeframe) :
    (resampledRows clock src tf f.rows).map Row.shape
      = (resampledRows clock src tf g.rows).map Row.shape := by
  have heads : (f.rows.head?).map Row.shape = (g.rows.head?).map Row.shape := by
    rw [← List.head?_map, same.2, List.head?_map]
  have lasts : (f.rows.getLast?).map Row.shape = (g.rows.getLast?).map Row.shape := by
    rw [← List.getLast?_map, same.2, List.getLast?_map]
  cases isHead : f.rows.head? with
  | none =>
    rw [isHead] at heads
    have isHead' := Option.map_eq_none_iff.mp heads.symm
    simp [resampledRows, isHead, isHead']
  | some head =>
    rw [isHead] at heads
    obtain ⟨head', isHead', shape⟩ := Option.map_eq_some_iff.mp heads.symm
    cases isLast : f.rows.getLast? with
    | none => simp [List.getLast?_eq_none_iff.mp isLast] at isHead
    | some last =>
      rw [isLast] at lasts
      obtain ⟨last', isLast', shape'⟩ := Option.map_eq_some_iff.mp lasts.symm
      have start : head'.start = head.start := congrArg Prod.fst shape
      have start' : last'.start = last.start := congrArg Prod.fst shape'
      have filtered : ∀ (p : Int → Bool) (rows : List Row),
          (rows.filter fun r => p r.start).map Row.shape
            = (rows.map Row.shape).filter fun s => p s.1 := by
        intro p rows
        rw [List.filter_map]
        rfl
      rw [resampledRows_eq f.spaced isLast isHead, resampledRows_eq g.spaced isLast' isHead', start,
        start', filtered fun t => decide (barClose clock tf t ≤ _),
        filtered fun t => decide (barClose clock tf t ≤ _), buckets_shape, buckets_shape, same.2]

theorem Frame.SameShape.resample {f g : Frame clock src} (same : f.SameShape g) {f' : Frame clock tf}
    (built : f.resample tf = .ok f') : ∃ g', g.resample tf = .ok g' ∧ f'.SameShape g' := by
  unfold Frame.resample at built ⊢
  rw [← same.1]
  split at built
  · cases built
  · cases built
    exact ⟨_, rfl, rfl, resampledRows_shape same tf⟩

theorem Daily.shape {baseTf : Timeframe} {a b : Frames clock} (same : SameShape a b)
    {f : Frame clock .d1} (daily : Daily baseTf a f) : ∃ g, Daily baseTf b g ∧ f.SameShape g := by
  rcases daily with given | ⟨none_, base, isBase, built⟩
  · obtain ⟨g, isG, alike⟩ := same.frame given
    exact ⟨g, Or.inl isG, alike⟩
  · obtain ⟨base', isBase', alike⟩ := same.frame isBase
    obtain ⟨g, built', alike'⟩ := alike.resample built
    exact ⟨g, Or.inr ⟨(same.none_iff .d1).mp none_, base', isBase', built'⟩, alike'⟩

/-- Whether anything is collected late is decided by the shapes of the bars. -/
theorem NothingLate.shape {baseTf : Timeframe} {short long short' long' : Frames clock} {c : Int}
    (nothing : NothingLate baseTf short long c) (left : SameShape short short')
    (right : SameShape long long') : NothingLate baseTf short' long' c where
  onBase := by
    intro tf f' g' coarser none_ isF' isG'
    obtain ⟨f, isF, alike⟩ := left.symm.frame isF'
    obtain ⟨g, isG, alike'⟩ := right.symm.frame isG'
    rw [alike.collected, alike'.collected]
    exact nothing.onBase tf f g coarser ((left.none_iff tf).mpr none_) isF isG
  onDaily := by
    intro tf f' g' intraday coarser none_ isF' isG'
    obtain ⟨f, isF, alike⟩ := isF'.shape left.symm
    obtain ⟨g, isG, alike'⟩ := isG'.shape right.symm
    rw [alike.collected, alike'.collected]
    exact nothing.onDaily tf f g intraday coarser ((left.none_iff tf).mpr none_) isF isG

end AdvanceTrading.Screener
