import AdvanceTrading.Screener.Bars

/-!
# Later bars

A symbol's frames and the same frames with later bars after them. A coarser bar
that has closed collects the bars of its bucket; where closed buckets collect the
same bars from both, the coarser frames show the same bars. Only a bucket of half
hours or hours, which closes at 15:30, can collect more after it has closed. A
week or a month built from daily bars is there once the last of them has closed.
-/

namespace AdvanceTrading.Screener

variable {clock : Clock}

/-- `long` has the frames of `short` with later bars after them: bars that close after the last one
of the base timeframe did. Every frame has the columns `SymbolData` speaks of. -/
def Extends (baseTf : Timeframe) (short long : Frames clock) : Prop :=
  ∃ base last, short baseTf = some base ∧ base.rows.getLast? = some last ∧
    ∀ tf, (short tf = none ∧ long tf = none) ∨
      ∃ f g later, short tf = some f ∧ long tf = some g ∧ f.columns = g.columns ∧
        (∀ c ∈ resampledColumns, f.columns c = true) ∧ g.rows = f.rows ++ later ∧
        ∀ row ∈ later, barClose clock baseTf last.start < barClose clock tf row.start

variable {baseTf : Timeframe} {short : Frames clock}

theorem Extends.none_iff {long : Frames clock} (extends_ : Extends baseTf short long)
    (tf : Timeframe) : short tf = none ↔ long tf = none := by
  obtain ⟨base, last, -, -, all⟩ := extends_
  rcases all tf with ⟨no, no'⟩ | ⟨f, g, later, isF, isG, -⟩
  · simp [no, no']
  · simp [isF, isG]

theorem Extends.append {tf : Timeframe} {long : Frames clock} (extends_ : Extends baseTf short long)
    {f g : Frame clock tf} (isF : short tf = some f) (isG : long tf = some g) :
    f.columns = g.columns ∧ ∃ later, g.rows = f.rows ++ later := by
  obtain ⟨base, last, -, -, all⟩ := extends_
  rcases all tf with ⟨no, -⟩ | ⟨f', g', later, isF', isG', columns, -, rows, -⟩
  · rw [no] at isF
    cases isF
  · rw [isF'] at isF
    rw [isG'] at isG
    cases isF
    cases isG
    exact ⟨columns, later, rows⟩

theorem Extends.base {long : Frames clock} (extends_ : Extends baseTf short long) :
    ∃ f g, short baseTf = some f ∧ long baseTf = some g := by
  obtain ⟨base, last, isBase, -, all⟩ := extends_
  rcases all baseTf with ⟨no, -⟩ | ⟨f, g, later, isF, isG, -⟩
  · rw [no] at isBase
    cases isBase
  · exact ⟨f, g, isF, isG⟩

/-- The label of the bucket holding `t`. -/
def label (clock : Clock) (tf : Timeframe) (t : Int) : Int := bucketStart clock tf t t

/-- The bars that coarser bars collect by `c`: those in a bucket that has a close and has closed by
then and by the close of the frame's last bar. -/
def Frame.collectedRows {src : Timeframe} (frame : Frame clock src) (tf : Timeframe) (c : Int) :
    List Row :=
  match frame.rows.getLast? with
  | some last =>
      frame.rows.filter fun row =>
        barClose clock tf (label clock tf row.start) ≤ min c (barClose clock src last.start) &&
          frame.rows.any fun r => label clock tf r.start = label clock tf row.start && r.close.isSome
  | none => []

/-- When they start. -/
def Frame.collected {src : Timeframe} (frame : Frame clock src) (tf : Timeframe) (c : Int) : List Int :=
  (frame.collectedRows tf c).map Row.start

/-- The daily frame weeks and months are built from: the one given, or one built before. -/
def Daily (baseTf : Timeframe) (frames : Frames clock) (daily : Frame clock .d1) : Prop :=
  frames .d1 = some daily ∨
    frames .d1 = none ∧ ∃ base, frames baseTf = some base ∧ base.resample .d1 = .ok daily

/-- Closed buckets collect the same bars from the shorter and from the longer data. -/
structure NothingLate (baseTf : Timeframe) (short long : Frames clock) (c : Int) : Prop where
  onBase : ∀ tf f g, baseTf.minutes ≤ tf.minutes → short tf = none →
    short baseTf = some f → long baseTf = some g → f.collected tf c = g.collected tf c
  onDaily : ∀ tf f g, baseTf.minutes < Timeframe.d1.minutes →
    Timeframe.d1.minutes < tf.minutes → short tf = none →
    Daily baseTf short f → Daily baseTf long g → f.collected tf c = g.collected tf c

/-! ## What both data show by an instant -/

/-- Frames of the same columns that show the same bars by `c`. -/
def Alike (c : Int) {tf : Timeframe} (f g : Frame clock tf) : Prop :=
  f.columns = g.columns ∧ f.closedBy c = g.closedBy c

section Collecting

variable {src tf : Timeframe}

/-- Bars of one frame are told apart by when they start. -/
theorem eq_of_starts (rows : List Row) {a b : List Row} (distinct : (rows.map Row.start).Nodup)
    (left : ∀ r ∈ a, r ∈ rows) (right : ∀ r ∈ b, r ∈ rows)
    (same : a.map Row.start = b.map Row.start) : a = b := by
  induction a generalizing b with
  | nil => exact (List.map_eq_nil_iff.mp same.symm).symm
  | cons r a ih =>
    cases b with
    | nil => cases same
    | cons r' b =>
      obtain ⟨head, tail⟩ := List.cons.inj same
      have isIt := List.inj_on_of_nodup_map distinct (left r List.mem_cons_self)
        (right r' List.mem_cons_self) head
      rw [isIt, ih (fun x mem => left x (List.mem_cons_of_mem _ mem))
        (fun x mem => right x (List.mem_cons_of_mem _ mem)) tail]

theorem mem_of_mem_collectedRows {frame : Frame clock src} {tf : Timeframe} {c : Int} {row : Row}
    (mem : row ∈ frame.collectedRows tf c) :
    row ∈ frame.rows ∧ barClose clock tf (label clock tf row.start) ≤ c := by
  unfold Frame.collectedRows at mem
  split at mem
  · obtain ⟨inRows, holds⟩ := List.mem_filter.mp mem
    rw [Bool.and_eq_true, decide_eq_true_iff] at holds
    exact ⟨inRows, holds.1.trans (min_le_left _ _)⟩
  · cases mem

theorem aggregate_close_isSome (l : Int) (rows : List Row) :
    (aggregate l rows).close.isSome = rows.any fun r => r.close.isSome := by
  induction rows using List.reverseRecOn with
  | nil => rfl
  | append_singleton rows row ih =>
    simp only [aggregate, lastValid, List.map_append, List.filterMap_append] at ih ⊢
    cases isClose : row.close with
    | none => simpa [isClose] using ih
    | some x => simp [isClose]

theorem bucketStart_eq_label (first t : Int) : bucketStart clock tf first t = label clock tf t :=
  bucketStart_first clock tf first t t

/-- Bars in buckets without a close make no coarser bar. -/
theorem buckets_of_closes (first : Int) (rows : List Row) :
    buckets clock tf first rows = buckets clock tf first (rows.filter fun row =>
      rows.any fun r => label clock tf r.start = label clock tf row.start && r.close.isSome) := by
  have kept := filter_buckets clock tf first rows fun l =>
    rows.any fun r => label clock tf r.start = l && r.close.isSome
  simp only [bucketStart_eq_label] at kept
  rw [← kept]
  symm
  apply List.filter_eq_self.mpr
  intro row mem
  obtain ⟨listed, hasClose⟩ := List.mem_filter.mp mem
  obtain ⟨e, inGroups, rfl⟩ := List.mem_map.mp listed
  rw [aggregate_close_isSome] at hasClose
  obtain ⟨r, inGroup, closes⟩ := List.any_eq_true.mp hasClose
  have group := Dict.get_groupBy (fun row : Row => bucketStart clock tf first row.start) rows e.1
  rw [Dict.get_of_mem (Dict.nodup_keys_groupBy _ _) inGroups, Option.getD_some] at group
  rw [group] at inGroup
  obtain ⟨inRows, key⟩ := List.mem_filter.mp inGroup
  apply List.any_eq_true.mpr
  refine ⟨r, inRows, ?_⟩
  rw [← bucketStart_eq_label first, closes, Bool.and_true]
  exact key

/-- The coarser bars shown by `c` are those of the bars collected by then. -/
theorem closedBy_resampledRows (frame : Frame clock src) (tf : Timeframe) (c first : Int) :
    (resampledRows clock src tf frame.rows).filter (fun row => barClose clock tf row.start ≤ c)
      = buckets clock tf first (frame.collectedRows tf c) := by
  cases isLast : frame.rows.getLast? with
  | none =>
    rw [List.getLast?_eq_none_iff] at isLast
    simp [resampledRows, Frame.collectedRows, isLast, buckets]
  | some last =>
    obtain ⟨initial, split⟩ := List.getLast?_eq_some_iff.mp isLast
    obtain ⟨head, isHead⟩ : ∃ head, frame.rows.head? = some head := by
      cases initial <;> simp [split]
    have labels : ∀ rows : List Row,
        buckets clock tf head.start rows = buckets clock tf first rows := by
      intro rows
      simp only [buckets, bucketStart_eq_label]
    rw [resampledRows_eq frame.spaced isLast isHead, labels, List.filter_filter,
      buckets_of_closes first frame.rows]
    rw [filter_buckets clock tf first _ fun l =>
      decide (barClose clock tf l ≤ c) && decide (barClose clock tf l ≤ barClose clock src last.start),
      List.filter_filter]
    simp only [Frame.collectedRows, isLast, bucketStart_eq_label, le_min_iff, Bool.decide_and]

/-- Frames whose closed buckets collect the same bars are alike once resampled. -/
theorem resample_alike (tf : Timeframe) {f g : Frame clock src} {c : Int}
    (columns : f.columns = g.columns) (same : f.collectedRows tf c = g.collectedRows tf c) :
    (∃ e, f.resample tf = .error e ∧ g.resample tf = .error e)
      ∨ ∃ f' g', f.resample tf = .ok f' ∧ g.resample tf = .ok g' ∧ Alike c f' g' := by
  unfold Frame.resample
  rw [← columns]
  cases resampledColumns.find? fun c => !f.columns c with
  | some c => exact Or.inl ⟨_, rfl, rfl⟩
  | none =>
    refine Or.inr ⟨_, _, rfl, rfl, rfl, ?_⟩
    unfold Frame.closedBy
    rw [closedBy_resampledRows f tf c 0, closedBy_resampledRows g tf c 0, same]

end Collecting

/-! ## Appending -/

/-- What closed buckets collect from frames that extend each other. -/
theorem collectedRows_of_append {src tf : Timeframe} {f g : Frame clock src} {later : List Row}
    {c : Int} (rows : g.rows = f.rows ++ later) (same : f.collected tf c = g.collected tf c) :
    f.collectedRows tf c = g.collectedRows tf c := by
  apply eq_of_starts g.rows _ _ _ same
  · exact List.pairwise_map.mpr (g.starts_increase.imp fun lt => lt.ne)
  · intro r mem
    rw [rows]
    exact List.mem_append_left _ (mem_of_mem_collectedRows mem).1
  · intro r mem
    exact (mem_of_mem_collectedRows mem).1

section Appending

variable {src : Timeframe} {f g : Frame clock src} {later : List Row} {last : Row} {c : Int}

theorem close_le_start (rows : g.rows = f.rows ++ later) (isLast : f.rows.getLast? = some last)
    {r : Row} (mem : r ∈ later) : barClose clock src last.start ≤ r.start := by
  obtain ⟨initial, split⟩ := List.getLast?_eq_some_iff.mp isLast
  have spaced := g.spaced
  rw [rows, split] at spaced
  exact (List.pairwise_append.mp spaced).2.2 last
    (List.mem_append_right _ (List.mem_singleton_self last)) r mem

theorem exists_last_of_append (rows : g.rows = f.rows ++ later)
    (isLast : f.rows.getLast? = some last) :
    ∃ last', g.rows.getLast? = some last'
      ∧ barClose clock src last.start ≤ barClose clock src last'.start := by
  cases isLater : later.getLast? with
  | none => exact ⟨last, by rw [rows, List.getLast?_append, isLater, isLast]; rfl, le_refl _⟩
  | some last' =>
    refine ⟨last', by rw [rows, List.getLast?_append, isLater]; rfl, ?_⟩
    have after := close_le_start rows isLast (List.mem_of_getLast? isLater)
    exact after.trans (lt_barClose clock src _).le

/-- Buckets that are not capped collect no bar after they have closed. -/
theorem collectedRows_uncapped (tf : Timeframe) (rows : g.rows = f.rows ++ later)
    (isLast : f.rows.getLast? = some last) (uncapped : sessionCapped tf clock.exchange = false)
    (le : c ≤ barClose clock src last.start) : f.collectedRows tf c = g.collectedRows tf c := by
  obtain ⟨last', isLast', closes⟩ := exists_last_of_append rows isLast
  have open_ : ∀ r ∈ later, ¬ barClose clock tf (label clock tf r.start) ≤ c := by
    intro r mem closed
    have after := close_le_start rows isLast mem
    have inBucket := lt_barClose_bucketStart clock tf r.start uncapped r.start
    exact absurd (inBucket.trans_le closed) (not_lt.mpr (le.trans after))
  simp only [Frame.collectedRows, isLast, isLast', min_eq_left le, min_eq_left (le.trans closes)]
  rw [rows, List.filter_append]
  have none_ : later.filter (fun row => barClose clock tf (label clock tf row.start) ≤ c &&
      (f.rows ++ later).any fun r =>
        label clock tf r.start = label clock tf row.start && r.close.isSome) = [] := by
    apply List.filter_eq_nil_iff.mpr
    intro r mem both
    rw [Bool.and_eq_true, decide_eq_true_iff] at both
    exact open_ r mem both.1
  rw [none_, List.append_nil]
  apply List.filter_congr
  intro row _
  by_cases closed : barClose clock tf (label clock tf row.start) ≤ c
  · have notLater : later.any (fun r =>
        label clock tf r.start = label clock tf row.start && r.close.isSome) = false := by
      apply List.any_eq_false.mpr
      intro r mem both
      rw [Bool.and_eq_true, decide_eq_true_iff] at both
      exact open_ r mem (by rw [both.1]; exact closed)
    rw [List.any_append, notLater, Bool.or_false]
  · simp [closed]

end Appending

/-- The daily bars weeks and months are built from only get later bars, too. -/
theorem Daily.append {long : Frames clock} (extends_ : Extends baseTf short long)
    {f g : Frame clock .d1} (left : Daily baseTf short f) (right : Daily baseTf long g) :
    f.columns = g.columns ∧ ∃ later, g.rows = f.rows ++ later := by
  rcases left with given | ⟨none_, p, isP, built⟩
  · rcases right with given' | ⟨none_', -⟩
    · exact extends_.append given given'
    · rw [(extends_.none_iff .d1).mpr none_'] at given
      cases given
  · rcases right with given' | ⟨-, q, isQ, built'⟩
    · rw [(extends_.none_iff .d1).mp none_] at given'
      cases given'
    · obtain ⟨columns, later, rows⟩ := extends_.append isP isQ
      obtain ⟨p', last, isP', isLast, -⟩ := extends_
      rw [isP] at isP'
      cases isP'
      have isHead : ∃ head, p.rows.head? = some head := by
        obtain ⟨initial, split⟩ := List.getLast?_eq_some_iff.mp isLast
        cases initial <;> simp [split]
      obtain ⟨head, isHead⟩ := isHead
      have same := collectedRows_uncapped .d1 rows isLast rfl (le_refl _)
      have shown := closedBy_resampledRows p .d1 (barClose clock baseTf last.start) 0
      rw [same, ← closedBy_resampledRows q] at shown
      have all : (resampledRows clock baseTf .d1 p.rows).filter (fun row =>
          barClose clock .d1 row.start ≤ barClose clock baseTf last.start)
            = resampledRows clock baseTf .d1 p.rows := by
        rw [resampledRows_eq p.spaced isLast isHead, List.filter_filter]
        simp
      obtain ⟨rest, split, -⟩ := g.split_closedBy (barClose clock baseTf last.start)
      unfold Frame.resample at built built'
      split at built
      · cases built
      · split at built'
        · cases built'
        · cases built
          cases built'
          refine ⟨columns, rest, split.trans ?_⟩
          congr 1
          exact shown.symm.trans all

end AdvanceTrading.Screener
