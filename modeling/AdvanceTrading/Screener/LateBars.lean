import AdvanceTrading.Screener.LookAhead
import AdvanceTrading.Screener.Shapes

/-!
# Bars collected late

Where closed buckets collect different bars, a screen tells: it reads the volume
of the coarser bars, and the bars are given a volume where the last of those
collected is, and none elsewhere. So a screen never looks ahead exactly when no
bar is collected late.
-/

namespace AdvanceTrading.Screener

open TriggerRules (minuteUs dayUs)

variable {clock : Clock}

/-! ## The last bar collected -/

variable {row : Row}

section LastCollected

variable {src tf : Timeframe} {f g : Frame clock src} {later : List Row} {last : Row} {c : Int}

theorem mem_collectedRows_iff (isLast : f.rows.getLast? = some last) :
    row ∈ f.collectedRows tf c ↔ row ∈ f.rows ∧
      barClose clock tf (label clock tf row.start) ≤ min c (barClose clock src last.start) ∧
      ∃ r ∈ f.rows, label clock tf r.start = label clock tf row.start ∧ r.close.isSome = true := by
  simp only [Frame.collectedRows, isLast, List.mem_filter, Bool.and_eq_true, decide_eq_true_iff,
    List.any_eq_true]

/-- Whatever the shorter data collect, the longer collect as well. -/
theorem collectedRows_subset (rows : g.rows = f.rows ++ later)
    (isLast : f.rows.getLast? = some last) (mem : row ∈ f.collectedRows tf c) :
    row ∈ g.collectedRows tf c := by
  obtain ⟨last', isLast', closes⟩ := exists_last_of_append rows isLast
  obtain ⟨inRows, closed, r, mem', same, hasClose⟩ := (mem_collectedRows_iff isLast).mp mem
  rw [mem_collectedRows_iff isLast', rows]
  exact ⟨List.mem_append_left _ inRows, closed.trans (min_le_min_left c closes),
    r, List.mem_append_left _ mem', same, hasClose⟩

/-- Where the data collect different bars, the last one of the longer is missing from the shorter. -/
theorem exists_late_of_last (rows : g.rows = f.rows ++ later) (isLast : f.rows.getLast? = some last)
    (differ : f.collected tf c ≠ g.collected tf c) :
    ∃ t, (g.collected tf c).getLast? = some t ∧ t ∉ f.collected tf c := by
  have inOrder : (g.collectedRows tf c).Pairwise fun r r' => r.start < r'.start := by
    unfold Frame.collectedRows
    split
    · exact g.starts_increase.filter _
    · exact List.Pairwise.nil
  have inOrder' : (f.collectedRows tf c).Pairwise fun r r' => r.start < r'.start := by
    unfold Frame.collectedRows
    split
    · exact f.starts_increase.filter _
    · exact List.Pairwise.nil
  have subset : ∀ row ∈ f.collectedRows tf c, row ∈ g.collectedRows tf c := fun row mem =>
    collectedRows_subset rows isLast mem
  cases isY : (g.collectedRows tf c).getLast? with
  | none =>
    rw [List.getLast?_eq_none_iff] at isY
    rw [isY] at subset
    have none_ : f.collectedRows tf c = [] :=
      List.eq_nil_iff_forall_not_mem.mpr fun row mem => List.not_mem_nil (subset row mem)
    exact absurd (by unfold Frame.collected; rw [none_, isY]) differ
  | some y =>
    refine ⟨y.start, by unfold Frame.collected; rw [List.getLast?_map, isY]; rfl, ?_⟩
    intro started
    have collected : y ∈ f.collectedRows tf c := by
      obtain ⟨r, mem, sameStart⟩ := List.mem_map.mp started
      have distinct : (g.rows.map Row.start).Nodup :=
        List.pairwise_map.mpr (g.starts_increase.imp fun lt => lt.ne)
      have isIt := List.inj_on_of_nodup_map distinct
        (mem_of_mem_collectedRows (subset r mem)).1
        (mem_of_mem_collectedRows (List.mem_of_getLast? isY)).1 sameStart
      exact isIt ▸ mem
    obtain ⟨initial, split⟩ := List.getLast?_eq_some_iff.mp isY
    obtain ⟨inF, closedY, -⟩ := (mem_collectedRows_iff isLast).mp collected
    obtain ⟨last', isLast', -⟩ := exists_last_of_append rows isLast
    have upToY : ∀ row ∈ g.collectedRows tf c, row.start ≤ y.start := by
      intro row mem
      rw [split] at mem inOrder
      rcases List.mem_append.mp mem with before | isIt
      · exact ((List.pairwise_append.mp inOrder).2.2 row before y (List.mem_singleton_self y)).le
      · rw [List.mem_singleton.mp isIt]
    -- nothing collected is a later bar: those start after `y`
    have notLater : ∀ row ∈ g.collectedRows tf c, row ∈ f.rows := by
      intro row mem
      have inG := (mem_of_mem_collectedRows mem).1
      rw [rows] at inG
      rcases List.mem_append.mp inG with inRows | inLater
      · exact inRows
      · have increase := g.starts_increase
        rw [rows] at increase
        exact absurd (upToY row mem)
          (not_le.mpr ((List.pairwise_append.mp increase).2.2 y inF row inLater))
    have superset : ∀ row ∈ g.collectedRows tf c, row ∈ f.collectedRows tf c := by
      intro row mem
      obtain ⟨inG, closed, r, inG', same, hasClose⟩ := (mem_collectedRows_iff isLast').mp mem
      have alsoCollected : r ∈ g.collectedRows tf c := by
        rw [mem_collectedRows_iff isLast', same]
        exact ⟨inG', closed, r, inG', same, hasClose⟩
      rw [mem_collectedRows_iff isLast]
      refine ⟨notLater row mem, ?_, r, notLater r alsoCollected, same, hasClose⟩
      have notAfter := barClose_bucketStart_mono clock tf y.start (upToY row mem)
      rw [bucketStart_eq_label, bucketStart_eq_label] at notAfter
      exact notAfter.trans closedY
    have equal : f.collectedRows tf c = g.collectedRows tf c := by
      have antisymm : Std.Antisymm fun r r' : Row => r.start < r'.start :=
        ⟨fun _ _ lt lt' => absurd lt lt'.not_gt⟩
      have irrefl : Std.Irrefl fun r r' : Row => r.start < r'.start := ⟨fun _ => lt_irrefl _⟩
      exact inOrder'.eq_of_mem_iff inOrder fun row => ⟨subset row, superset row⟩
    exact differ (by unfold Frame.collected; rw [equal])

theorem exists_late (rows : g.rows = f.rows ++ later)
    (differ : f.collected tf c ≠ g.collected tf c) :
    ∃ t, (g.collected tf c).getLast? = some t ∧ t ∉ f.collected tf c := by
  cases isLast : f.rows.getLast? with
  | some last => exact exists_late_of_last rows isLast differ
  | none =>
    have none_ : f.collected tf c = [] := by simp [Frame.collected, Frame.collectedRows, isLast]
    rw [none_] at differ ⊢
    cases isT : (g.collected tf c).getLast? with
    | none => exact absurd (List.getLast?_eq_none_iff.mp isT).symm differ
    | some t => exact ⟨t, rfl, List.not_mem_nil⟩

end LastCollected

/-! ## Volumes of coarser bars -/

section Volumes

variable {src tf : Timeframe}

/-- A coarser bar adds up the volumes of its bucket's bars. -/
theorem volume_of_mem_buckets {first : Int} {rows : List Row}
    (mem : row ∈ buckets clock tf first rows) :
    row.volume = some ((rows.filter fun r =>
      bucketStart clock tf first r.start = row.start).filterMap Row.volume).sum := by
  obtain ⟨e, inGroups, rfl⟩ := List.mem_map.mp (List.mem_filter.mp mem).1
  have group := Dict.get_groupBy (fun row : Row => bucketStart clock tf first row.start) rows e.1
  rw [Dict.get_of_mem (Dict.nodup_keys_groupBy _ _) inGroups, Option.getD_some] at group
  exact congrArg (fun l : List Row => some (l.filterMap Row.volume).sum) group

theorem exists_mem_buckets {first : Int} {rows : List Row} {r : Row} (mem : r ∈ rows)
    (hasClose : r.close.isSome = true) :
    ∃ row ∈ buckets clock tf first rows, row.start = bucketStart clock tf first r.start := by
  obtain ⟨group, found⟩ :=
    Dict.exists_get_groupBy (fun row : Row => bucketStart clock tf first row.start) mem
  have isGroup := Dict.get_groupBy (fun row : Row => bucketStart clock tf first row.start) rows
    (bucketStart clock tf first r.start)
  rw [found, Option.getD_some] at isGroup
  refine ⟨aggregate (bucketStart clock tf first r.start) group, ?_, rfl⟩
  refine List.mem_filter.mpr ⟨List.mem_map.mpr ⟨_, Dict.mem_of_get found, rfl⟩, ?_⟩
  rw [aggregate_close_isSome, isGroup]
  exact List.any_eq_true.mpr ⟨r, List.mem_filter.mpr ⟨mem, decide_eq_true rfl⟩, hasClose⟩

/-- The volume shown by `c`. -/
def Frame.knownVolume (frame : Frame clock tf) (c : Int) : Cell :=
  lastKnown c ((frame.rows.map fun r => barClose clock tf r.start).zip
    (frame.rows.map fun r => Cell.ofNumber r.volume))

/-- It is that of the last bar shown, where no volume is missing. -/
theorem knownVolume_eq {frame : Frame clock tf} {c : Int}
    (there : ∀ r ∈ frame.rows, r.volume.isSome = true) :
    frame.knownVolume c
      = ((frame.closedBy c).getLast?.map fun r => Cell.ofNumber r.volume).getD .nan := by
  have kept : (frame.rows.map fun r => (barClose clock tf r.start, Cell.ofNumber r.volume)).filter
        (fun e => e.1 ≤ c && !e.2.missing)
      = (frame.closedBy c).map fun r => (barClose clock tf r.start, Cell.ofNumber r.volume) := by
    rw [List.filter_map]
    unfold Frame.closedBy
    congr 1
    apply List.filter_congr
    intro r mem
    obtain ⟨x, isX⟩ := Option.isSome_iff_exists.mp (there r mem)
    simp [isX, Cell.ofNumber, Cell.missing]
  unfold Frame.knownVolume lastKnown
  rw [List.zip_map', kept, List.map_map, List.getLast?_map]
  rfl

/-- Bars that have a volume at `t` alone. -/
def VolumeAt (t : Int) (rows : List Row) : Prop :=
  ∀ r ∈ rows, ∃ x, r.volume = some x ∧ 0 ≤ x ∧ (0 < x ↔ r.start = t)

variable {f g : Frame clock src} {f' g' : Frame clock tf} {c : Int}

theorem closedBy_resample (built : f.resample tf = .ok f') (c : Int) :
    f'.closedBy c = buckets clock tf 0 (f.collectedRows tf c) := by
  unfold Frame.resample at built
  split at built
  · cases built
  · cases built
    exact closedBy_resampledRows f tf c 0

theorem volume_isSome_of_resample (built : f.resample tf = .ok f') :
    ∀ r ∈ f'.rows, r.volume.isSome = true := by
  intro r mem
  have shown : r ∈ f'.closedBy (barClose clock tf r.start) :=
    List.mem_filter.mpr ⟨mem, decide_eq_true (le_refl _)⟩
  rw [closedBy_resample built] at shown
  rw [volume_of_mem_buckets shown]
  rfl

/-- Without the bar at `t`, no volume is shown. -/
theorem knownVolume_of_not_collected {t : Int} (built : f.resample tf = .ok f')
    (volumes : VolumeAt t f.rows) (notCollected : t ∉ f.collected tf c) :
    CompareOp.gt.cells (f'.knownVolume c) (.num 0) = false := by
  rw [knownVolume_eq (volume_isSome_of_resample built), closedBy_resample built]
  cases isLast : (buckets clock tf 0 (f.collectedRows tf c)).getLast? with
  | none => rfl
  | some row =>
    have zero : (((f.collectedRows tf c).filter fun r =>
        bucketStart clock tf 0 r.start = row.start).filterMap Row.volume).sum = 0 := by
      apply List.sum_eq_zero
      intro x mem
      obtain ⟨r, inFilter, isX⟩ := List.mem_filterMap.mp mem
      have inRows := (List.mem_filter.mp inFilter).1
      obtain ⟨x', isX', nonneg, positive⟩ := volumes r (mem_of_mem_collectedRows inRows).1
      rw [isX'] at isX
      cases isX
      by_contra nonzero
      have isY := positive.mp (lt_of_le_of_ne nonneg (Ne.symm nonzero))
      exact notCollected (List.mem_map.mpr ⟨r, inRows, isY⟩)
    have volume := volume_of_mem_buckets (List.mem_of_getLast? isLast)
    simp only [Option.map_some, Option.getD_some, volume, zero]
    rfl

/-- With it as the last one collected, the volume shown is its bucket's. -/
theorem knownVolume_of_collected {t : Int} (built : g.resample tf = .ok g')
    (volumes : VolumeAt t g.rows) (isLastCollected : (g.collected tf c).getLast? = some t) :
    CompareOp.gt.cells (g'.knownVolume c) (.num 0) = true := by
  rw [knownVolume_eq (volume_isSome_of_resample built), closedBy_resample built]
  unfold Frame.collected at isLastCollected
  rw [List.getLast?_map] at isLastCollected
  obtain ⟨y, isY, rfl⟩ := Option.map_eq_some_iff.mp isLastCollected
  have inRows := List.mem_of_getLast? isY
  have inOrder : (g.collectedRows tf c).Pairwise fun r r' => r.start ≤ r'.start := by
    unfold Frame.collectedRows
    split
    · exact (g.starts_increase.filter _).imp fun lt => lt.le
    · exact List.Pairwise.nil
  obtain ⟨initial, split⟩ := List.getLast?_eq_some_iff.mp isY
  obtain ⟨x, isX, -, positive⟩ := volumes y (mem_of_mem_collectedRows inRows).1
  -- the bucket of `y` has a close, so it is there, and it is the last one
  have shown : ∃ row ∈ buckets clock tf 0 (g.collectedRows tf c), row.start = label clock tf y.start := by
    cases isLast : g.rows.getLast? with
    | none => simp [Frame.collectedRows, isLast] at inRows
    | some last =>
      obtain ⟨inG, closed, r, inG', same, hasClose⟩ := (mem_collectedRows_iff isLast).mp inRows
      have alsoCollected : r ∈ g.collectedRows tf c := by
        rw [mem_collectedRows_iff isLast, same]
        exact ⟨inG', closed, r, inG', same, hasClose⟩
      obtain ⟨row, mem, isLabel⟩ : ∃ row ∈ buckets clock tf 0 (g.collectedRows tf c),
          row.start = bucketStart clock tf 0 r.start := exists_mem_buckets alsoCollected hasClose
      exact ⟨row, mem, isLabel.trans ((bucketStart_eq_label 0 r.start).trans same)⟩
  obtain ⟨own, inBuckets, isLabel⟩ := shown
  cases isLast : (buckets clock tf 0 (g.collectedRows tf c)).getLast? with
  | none =>
    rw [List.getLast?_eq_none_iff.mp isLast] at inBuckets
    cases inBuckets
  | some row =>
    obtain ⟨before, split'⟩ := List.getLast?_eq_some_iff.mp isLast
    have isRow : row.start = label clock tf y.start := by
      apply le_antisymm
      · obtain ⟨w, mem, isStart⟩ := exists_of_mem_buckets (List.mem_of_getLast? isLast)
        have upToY : w.start ≤ y.start := by
          rw [split] at mem inOrder
          rcases List.mem_append.mp mem with earlier | isIt
          · exact (List.pairwise_append.mp inOrder).2.2 w earlier y (List.mem_singleton_self y)
          · rw [List.mem_singleton.mp isIt]
        have le := bucketStart_mono clock tf 0 upToY
        rw [isStart, bucketStart_eq_label] at le
        exact le
      · have spaced : (buckets clock tf 0 (g.collectedRows tf c)).Pairwise fun r r' =>
            barClose clock tf r.start ≤ r'.start := buckets_spaced inOrder
        rw [split'] at inBuckets spaced
        rcases List.mem_append.mp inBuckets with earlier | isIt
        · have le := (List.pairwise_append.mp spaced).2.2 own earlier row (List.mem_singleton_self row)
          rw [← isLabel]
          exact (lt_barClose clock tf own.start).le.trans le
        · rw [← isLabel, List.mem_singleton.mp isIt]
    have volume := volume_of_mem_buckets (List.mem_of_getLast? isLast)
    have atLeast : x ≤ (((g.collectedRows tf c).filter fun r =>
        bucketStart clock tf 0 r.start = row.start).filterMap Row.volume).sum := by
      apply List.single_le_sum
      · intro z mem
        obtain ⟨r, inFilter, isZ⟩ := List.mem_filterMap.mp mem
        obtain ⟨z', isZ', nonneg, -⟩ :=
          volumes r (mem_of_mem_collectedRows (List.mem_filter.mp inFilter).1).1
        rw [isZ'] at isZ
        cases isZ
        exact nonneg
      · refine List.mem_filterMap.mpr ⟨y, List.mem_filter.mpr ⟨inRows, decide_eq_true ?_⟩, isX⟩
        rw [isRow, bucketStart_eq_label]
    have above := (positive.mpr rfl).trans_le atLeast
    simp only [Option.map_some, Option.getD_some, volume, Cell.ofNumber]
    simpa [CompareOp.cells, Cell.missing, Cell.number, CompareOp.holds] using above

end Volumes

/-! ## A screen that tells -/

section Telling

variable {setting : Setting clock} {s s' : Frames clock} {tf own : Timeframe}

theorem representable_zero : Py.Representable 0 :=
  ⟨by norm_num, 0, 0, by norm_num, by norm_num, by norm_num⟩

/-- The number nought. -/
def nought : Node := .num (.finite ⟨0, representable_zero⟩)

/-- `volume@tf`. -/
def volumeOf (tf : Timeframe) : Node := .field ['v', 'o', 'l', 'u', 'm', 'e'] 0 (some tf)

/-- `volume@1d < 0 OR volume@tf > 0`: the daily bars are read first. -/
def lateScreen (tf : Timeframe) : Node :=
  .logic .any [.compare .lt (volumeOf .d1) nought, .compare .gt (volumeOf tf) nought]

theorem frame_of_some {f : Frame clock tf} (given : s tf = some f) :
    setting.frame tf s = .ok (f, s) := by
  unfold Setting.frame
  rw [bind_of_ok (show (get : Eval clock (Frames clock)) s = .ok (s, s) from rfl)]
  simp only [given]
  rfl

theorem frame_of_none {f : Frame clock tf} (none_ : s tf = none) (built : setting.build s tf = .ok f) :
    setting.frame tf s = .ok (f, Function.update s tf (some f)) := by
  unfold Setting.frame
  rw [bind_of_ok (show (get : Eval clock (Frames clock)) s = .ok (s, s) from rfl)]
  simp only [none_, built]
  rfl

variable {frame : Frame clock own} {base : Frame clock setting.baseTf}

/-- The volumes of another timeframe, on the bars of the screen. -/
theorem ev_volumeOf (reads : setting.frame own s = .ok (frame, s')) (isFrame : s' own = some frame)
    (isBase : s' setting.baseTf = some base) (ne : own ≠ setting.baseTf)
    (column : frame.columns .volume = true) :
    (volumeOf own).ev setting setting.baseTf s
      = .ok (.series (base.rows.map fun r =>
          frame.knownVolume (barClose clock setting.baseTf r.start)), s') := by
  simp only [volumeOf, Node.ev, Option.getD_some]
  rw [bind_of_ok reads]
  have field : (frame.field ['v', 'o', 'l', 'u', 'm', 'e']).shift 0
      = .series (frame.rows.map fun r => Cell.ofNumber r.volume) := by
    have named : Column.ofName ['v', 'o', 'l', 'u', 'm', 'e'] = some .volume := by decide
    simp [Frame.field, named, Frame.column, column, Value.shift, Row.get, Function.comp_def]
  rw [field]
  simp only [Setting.align, if_neg ne]
  rw [bind_of_ok (frame_of_some isFrame), bind_of_ok (frame_of_some isBase)]
  rfl

theorem ev_compare_nought (op : CompareOp) {node : Node} {cells : List Cell}
    (returned : node.ev setting tf s = .ok (.series cells, s')) :
    (Node.compare op node nought).ev setting tf s
      = .ok (.series (cells.map fun c => .flag (op.cells c (.num 0))), s') := by
  simp only [Node.ev]
  rw [bind_of_ok returned]
  rfl

theorem evAll_pair {node node' : Node} {v v' : Value} {s'' : Frames clock}
    (first : node.ev setting tf s = .ok (v, s')) (second : node'.ev setting tf s' = .ok (v', s'')) :
    evAll setting [node, node'] tf s = .ok ([v, v'], s'') := by
  have last : evAll setting [node'] tf s' = .ok ([v'], s'') := by
    rw [evAll, bind_of_ok second]
    rfl
  rw [evAll, bind_of_ok first, bind_of_ok last]
  rfl

variable {s₁ s₂ : Frames clock} {day : Frame clock .d1} {coarse : Frame clock tf}

/-- What the screen gives at a bar. -/
theorem evaluate_lateScreen {k : Nat} (given : s setting.baseTf = some base)
    (bar : base.rows[k]? = some row) (dayReads : setting.frame .d1 s = .ok (day, s₁))
    (isDay : s₁ .d1 = some day) (isBase₁ : s₁ setting.baseTf = some base)
    (intraday : Timeframe.d1 ≠ setting.baseTf) (dayColumn : day.columns .volume = true)
    (reads : setting.frame tf s₁ = .ok (coarse, s₂)) (isCoarse : s₂ tf = some coarse)
    (isBase₂ : s₂ setting.baseTf = some base) (ne : tf ≠ setting.baseTf)
    (column : coarse.columns .volume = true) :
    (evaluate setting (lateScreen tf) s).map (Value.at_ k)
      = .ok (.flag (CompareOp.lt.cells (day.knownVolume (barClose clock setting.baseTf row.start)) (.num 0)
          || CompareOp.gt.cells (coarse.knownVolume (barClose clock setting.baseTf row.start)) (.num 0))) := by
  have first := ev_compare_nought .lt (ev_volumeOf dayReads isDay isBase₁ intraday dayColumn)
  have second := ev_compare_nought .gt (ev_volumeOf reads isCoarse isBase₂ ne column)
  have some_ : base.rows ≠ [] := List.ne_nil_of_mem (List.mem_of_getElem? bar)
  have all : (lateScreen tf).ev setting setting.baseTf s
      = .ok (.series (base.rows.map fun r => .flag
          (CompareOp.lt.cells (day.knownVolume (barClose clock setting.baseTf r.start)) (.num 0)
            || CompareOp.gt.cells (coarse.knownVolume (barClose clock setting.baseTf r.start)) (.num 0))),
          s₂) := by
    rw [lateScreen, Node.ev, bind_of_ok (evAll_pair first second)]
    show Except.ok (Value.connect or (.series _) (.series _), s₂) = _
    simp only [Value.connect, List.map_map, List.zipWith_map, List.zipWith_self]
    rfl
  unfold evaluate
  simp only [given, if_neg some_, all]
  simp [Except.map, Value.at_, bar]

end Telling

/-! ## Bars given volumes -/

variable {src baseTf : Timeframe} {volume : Int → ℚ}

section GivenVolumes

variable {tf : Timeframe}

/-- A bar with another volume. -/
def Row.withVolume (volume : Int → ℚ) (row : Row) : Row :=
  { row with volume := some (volume row.start) }

@[simp] theorem Row.start_withVolume (volume : Int → ℚ) (row : Row) :
    (row.withVolume volume).start = row.start := rfl

/-- A frame with other volumes. -/
def Frame.withVolumes (volume : Int → ℚ) (frame : Frame clock tf) : Frame clock tf where
  columns := frame.columns
  rows := frame.rows.map (Row.withVolume volume)
  spaced := by
    rw [List.pairwise_map]
    exact frame.spaced

def withVolumes (volume : Int → ℚ) (frames : Frames clock) : Frames clock :=
  fun tf => (frames tf).map (Frame.withVolumes volume)

theorem Frame.sameShape_withVolumes (volume : Int → ℚ) (frame : Frame clock tf) :
    frame.SameShape (frame.withVolumes volume) := by
  refine ⟨rfl, ?_⟩
  simp only [Frame.withVolumes, List.map_map]
  rfl

theorem sameShape_withVolumes (volume : Int → ℚ) (frames : Frames clock) :
    SameShape frames (withVolumes volume frames) := by
  intro tf
  cases isF : frames tf with
  | none => exact Or.inl ⟨rfl, by simp [withVolumes, isF]⟩
  | some f => exact Or.inr ⟨f, _, rfl, by simp [withVolumes, isF], f.sameShape_withVolumes volume⟩

theorem Extends.withVolumes {short long : Frames clock} (volume : Int → ℚ)
    (extends_ : Extends baseTf short long) :
    Extends baseTf (withVolumes volume short) (withVolumes volume long) := by
  obtain ⟨base, last, isBase, isLast, all⟩ := extends_
  refine ⟨base.withVolumes volume, last.withVolume volume, ?_, ?_, ?_⟩
  · simp [Screener.withVolumes, isBase]
  · simp [Frame.withVolumes, isLast]
  · intro tf
    rcases all tf with ⟨none_, none_'⟩ | ⟨f, g, later, isF, isG, columns, complete, rows, closes⟩
    · exact Or.inl ⟨by simp [Screener.withVolumes, none_], by simp [Screener.withVolumes, none_']⟩
    · refine Or.inr ⟨f.withVolumes volume, g.withVolumes volume,
        later.map (Row.withVolume volume), ?_, ?_, columns, complete, ?_, ?_⟩
      · simp [Screener.withVolumes, isF]
      · simp [Screener.withVolumes, isG]
      · simp [Frame.withVolumes, rows]
      · intro r mem
        obtain ⟨r', mem', rfl⟩ := List.mem_map.mp mem
        exact closes r' mem'

/-- Bars whose volumes are there and not negative. -/
def Nonneg (rows : List Row) : Prop := ∀ r ∈ rows, ∃ x, r.volume = some x ∧ 0 ≤ x

theorem nonneg_withVolumes (nonneg : ∀ t, 0 ≤ volume t) (frame : Frame clock tf) :
    Nonneg (frame.withVolumes volume).rows := by
  intro r mem
  obtain ⟨r', -, rfl⟩ := List.mem_map.mp mem
  exact ⟨_, rfl, nonneg r'.start⟩

theorem Nonneg.resample {f : Frame clock src} {f' : Frame clock tf} (nonneg : Nonneg f.rows)
    (built : f.resample tf = .ok f') : Nonneg f'.rows := by
  intro r mem
  have shown : r ∈ f'.closedBy (barClose clock tf r.start) :=
    List.mem_filter.mpr ⟨mem, decide_eq_true (le_refl _)⟩
  rw [closedBy_resample built] at shown
  refine ⟨_, volume_of_mem_buckets shown, List.sum_nonneg ?_⟩
  intro x inVolumes
  obtain ⟨b, inFilter, isX⟩ := List.mem_filterMap.mp inVolumes
  obtain ⟨x', isX', atLeast⟩ := nonneg b (mem_of_mem_collectedRows (List.mem_filter.mp inFilter).1).1
  rw [isX'] at isX
  cases isX
  exact atLeast

/-- No volume that is known is below nought. -/
theorem knownVolume_not_neg {frame : Frame clock tf} (nonneg : Nonneg frame.rows) (c : Int) :
    CompareOp.lt.cells (frame.knownVolume c) (.num 0) = false := by
  rw [knownVolume_eq fun r mem => by
    obtain ⟨x, isX, -⟩ := nonneg r mem
    rw [isX]
    rfl]
  cases isLast : (frame.closedBy c).getLast? with
  | none => rfl
  | some r =>
    obtain ⟨x, isX, atLeast⟩ := nonneg r (List.mem_filter.mp (List.mem_of_getLast? isLast)).1
    simp [isX, Cell.ofNumber, CompareOp.cells, Cell.missing, Cell.number, CompareOp.holds, atLeast]

theorem volumeAt_withVolumes (frame : Frame clock tf) (t : Int) :
    VolumeAt t (frame.withVolumes fun u => if u = t then 1 else 0).rows := by
  intro r mem
  obtain ⟨r', -, rfl⟩ := List.mem_map.mp mem
  refine ⟨_, rfl, ?_, ?_⟩ <;> by_cases isT : r'.start = t <;> simp [isT]

/-- Bars with a volume on one day alone make daily bars with a volume on that day alone. -/
theorem volumeAt_resample {f : Frame clock src} {f' : Frame clock tf} (t : Int)
    (built : (f.withVolumes fun u => if label clock tf u = t then 1 else 0).resample tf = .ok f') :
    VolumeAt t f'.rows := by
  intro r mem
  have shown : r ∈ f'.closedBy (barClose clock tf r.start) :=
    List.mem_filter.mpr ⟨mem, decide_eq_true (le_refl _)⟩
  rw [closedBy_resample built] at shown
  obtain ⟨b, inCollected, isLabel⟩ := exists_of_mem_buckets shown
  have each : ∀ x ∈ (((f.withVolumes fun u => if label clock tf u = t then 1 else 0).collectedRows tf
      (barClose clock tf r.start)).filter fun r' =>
        bucketStart clock tf 0 r'.start = r.start).filterMap Row.volume,
      x = if r.start = t then 1 else 0 := by
    intro x inVolumes
    obtain ⟨b', inFilter, isX⟩ := List.mem_filterMap.mp inVolumes
    obtain ⟨inCollected', isLabel'⟩ := List.mem_filter.mp inFilter
    obtain ⟨b'', -, rfl⟩ := List.mem_map.mp (mem_of_mem_collectedRows inCollected').1
    have isLabel'' := (bucketStart_eq_label 0 b''.start).symm.trans (of_decide_eq_true isLabel')
    cases isX
    simp only [isLabel'']
  refine ⟨_, volume_of_mem_buckets shown, ?_, ?_⟩
  · apply List.sum_nonneg
    intro x inVolumes
    rw [each x inVolumes]
    split <;> norm_num
  · by_cases isT : r.start = t
    · refine iff_of_true ?_ isT
      obtain ⟨b', -, isB⟩ := List.mem_map.mp (mem_of_mem_collectedRows inCollected).1
      have volume : b.volume = some 1 := by
        have isLabel' : label clock tf b.start = t :=
          (bucketStart_eq_label 0 b.start).symm.trans (isLabel.trans isT)
        rw [← isB, Row.start_withVolume] at isLabel'
        rw [← isB]
        show some (if label clock tf b'.start = t then (1 : ℚ) else 0) = some 1
        rw [if_pos isLabel']
      have one : (1 : ℚ) ∈ (((f.withVolumes fun u => if label clock tf u = t then 1 else 0).collectedRows
          tf (barClose clock tf r.start)).filter fun r' =>
            bucketStart clock tf 0 r'.start = r.start).filterMap Row.volume :=
        List.mem_filterMap.mpr ⟨b, List.mem_filter.mpr ⟨inCollected, decide_eq_true isLabel⟩, volume⟩
      have atLeast := List.single_le_sum (fun x inVolumes => by
        rw [each x inVolumes]
        split <;> norm_num) _ one
      exact lt_of_lt_of_le one_pos atLeast
    · refine iff_of_false ?_ isT
      rw [List.sum_eq_zero fun x inVolumes => by rw [each x inVolumes, if_neg isT]]
      exact lt_irrefl 0

end GivenVolumes

/-! ## Nothing late, exactly -/

section Exactness

variable {setting : Setting clock} {tf : Timeframe}

theorem resample_of_complete {f : Frame clock src}
    (complete : ∀ c ∈ resampledColumns, f.columns c = true) (tf : Timeframe) :
    ∃ f', f.resample tf = .ok f' ∧ f'.columns = f.columns := by
  unfold Frame.resample
  cases missing : resampledColumns.find? fun c => !f.columns c with
  | none => exact ⟨_, rfl, rfl⟩
  | some c =>
    have absent := List.find?_some missing
    rw [complete c (List.mem_of_find?_eq_some missing)] at absent
    cases absent

theorem Daily.unique {frames : Frames clock} {f g : Frame clock .d1} (left : Daily baseTf frames f)
    (right : Daily baseTf frames g) : f = g := by
  rcases left with given | ⟨none_, base, isBase, built⟩
  · rcases right with given' | ⟨none_', -⟩
    · rw [given] at given'
      exact Option.some.inj given'
    · rw [none_'] at given
      cases given
  · rcases right with given' | ⟨-, base', isBase', built'⟩
    · rw [none_] at given'
      cases given'
    · rw [isBase] at isBase'
      cases isBase'
      rw [built] at built'
      exact Except.ok.inj built'

variable (setting) in
/-- What the screen gives on one side: whether the coarser bars show a volume. -/
theorem tell {s : Frames clock} {base : Frame clock setting.baseTf} {k : Nat}
    (isBase : s setting.baseTf = some base) (bar : base.rows[k]? = some row) (isNew : s tf = none)
    (intraday : setting.baseTf.minutes < Timeframe.d1.minutes) (notDay : tf ≠ .d1)
    (complete : ∀ tf f, s tf = some f → ∀ c ∈ resampledColumns, f.columns c = true)
    (nonneg : ∀ tf (f : Frame clock tf), s tf = some f → Nonneg f.rows) :
    ∃ (day : Frame clock .d1) (coarse : Frame clock tf), Daily setting.baseTf s day ∧
      (if Timeframe.d1.minutes < tf.minutes then day.resample tf = .ok coarse
        else base.resample tf = .ok coarse) ∧
      (evaluate setting (lateScreen tf) s).map (Value.at_ k)
        = .ok (.flag (CompareOp.gt.cells
            (coarse.knownVolume (barClose clock setting.baseTf row.start)) (.num 0))) := by
  have notBase : Timeframe.d1 ≠ setting.baseTf := by
    intro same
    rw [← same] at intraday
    exact lt_irrefl _ intraday
  have notBase' : tf ≠ setting.baseTf := by
    rintro rfl
    rw [isNew] at isBase
    cases isBase
  -- the daily bars, given or built
  obtain ⟨day, s₁, reads, isDay, grown, isNew₁, daily, dayComplete, dayNonneg⟩ :
      ∃ day s₁, setting.frame .d1 s = .ok (day, s₁) ∧ s₁ .d1 = some day ∧ Grown s s₁ ∧ s₁ tf = none ∧
        Daily setting.baseTf s day ∧ (∀ c ∈ resampledColumns, day.columns c = true) ∧
        Nonneg day.rows := by
    cases given : s .d1 with
    | some day =>
      exact ⟨day, s, frame_of_some given, given, Grown.refl s, isNew, Or.inl given,
        complete .d1 day given, nonneg .d1 day given⟩
    | none =>
      obtain ⟨day, built, columns⟩ := resample_of_complete (complete _ base isBase) .d1
      have builds : setting.build s .d1 = .ok day := by
        unfold Setting.build
        simp only [isBase, lt_irrefl, and_false, if_false]
        exact built
      refine ⟨day, _, frame_of_none given builds, Function.update_self _ _ _, ?_, ?_,
        Or.inr ⟨given, base, isBase, built⟩, ?_, (nonneg _ base isBase).resample built⟩
      · intro tf' f isF
        rw [Function.update_of_ne (by rintro rfl; rw [given] at isF; cases isF)]
        exact isF
      · rw [Function.update_of_ne notDay]
        exact isNew
      · rw [columns]
        exact complete _ base isBase
  -- the coarser bars, built from one or the other
  obtain ⟨coarse, builds, coarseBuilt, columns⟩ : ∃ coarse, setting.build s₁ tf = .ok coarse ∧
      (if Timeframe.d1.minutes < tf.minutes then day.resample tf = .ok coarse
        else base.resample tf = .ok coarse) ∧ coarse.columns .volume = true := by
    unfold Setting.build
    simp only [grown _ _ isBase, isDay, intraday, true_and]
    by_cases longer : Timeframe.d1.minutes < tf.minutes
    · obtain ⟨coarse, built, columns⟩ := resample_of_complete dayComplete tf
      simp only [if_pos longer]
      exact ⟨coarse, built, built, columns ▸ dayComplete .volume (by decide)⟩
    · obtain ⟨coarse, built, columns⟩ := resample_of_complete (complete _ base isBase) tf
      simp only [if_neg longer]
      exact ⟨coarse, built, built, columns ▸ complete _ base isBase .volume (by decide)⟩
  refine ⟨day, coarse, daily, coarseBuilt, ?_⟩
  have isBase₁ := grown _ _ isBase
  have isBase₂ : Function.update s₁ tf (some coarse) setting.baseTf = some base := by
    rw [Function.update_of_ne notBase'.symm]
    exact isBase₁
  rw [evaluate_lateScreen isBase bar reads isDay isBase₁ notBase (dayComplete .volume (by decide))
    (frame_of_none isNew₁ builds) (Function.update_self _ _ _) isBase₂ notBase' columns,
    knownVolume_not_neg dayNonneg, Bool.false_or]

theorem Extends.complete {short long : Frames clock} (extends_ : Extends baseTf short long)
    {f : Frame clock tf} (given : short tf = some f ∨ long tf = some f) :
    ∀ c ∈ resampledColumns, f.columns c = true := by
  obtain ⟨base, last, -, -, all⟩ := extends_
  rcases all tf with ⟨none_, none_'⟩ | ⟨f', g', later, isF, isG, columns, complete, -⟩
  · rw [none_, none_'] at given
    rcases given with given | given <;> cases given
  · rcases given with given | given
    · rw [isF] at given
      cases given
      exact complete
    · rw [isG] at given
      cases given
      rw [← columns]
      exact complete

/-- What is told of bars with volumes, on both sides, when a bar is collected late. -/
theorem late_told {f g : Frame clock src} {f' g' : Frame clock tf} {t c : Int}
    (built : f.resample tf = .ok f') (built' : g.resample tf = .ok g') (volumes : VolumeAt t f.rows)
    (volumes' : VolumeAt t g.rows) (isLast : (g.collected tf c).getLast? = some t)
    (notCollected : t ∉ f.collected tf c) :
    CompareOp.gt.cells (f'.knownVolume c) (.num 0) ≠ CompareOp.gt.cells (g'.knownVolume c) (.num 0) := by
  rw [knownVolume_of_not_collected built volumes notCollected,
    knownVolume_of_collected built' volumes' isLast]
  exact Bool.false_ne_true

/-- Functions that know nothing. -/
def silent (clock : Clock) : Library clock := fun _ _ _ _ _ => .ok (.const .nan)

theorem silent_causal : Causal (silent clock) := by
  intro _ _ _ _ _ _ _ _ _ _ _ _ _ _ _
  exact Or.inr ⟨_, _, rfl, rfl, rfl⟩

/-- No look-ahead at a bar, for all data of these shapes: every screen has the same value there with
the later bars and without them, for all parameters and causal functions. -/
def SameAtBar (baseTf : Timeframe) (short long : Frames clock) (k : Nat) : Prop :=
  ∀ short' long' : Frames clock, SameShape short short' → SameShape long long' →
    Extends baseTf short' long' → ∀ (params : Text → Option Cell) (library : Library clock),
    Causal library → ∀ node : Node, node.checked baseTf = true →
      (evaluate ⟨baseTf, params, library⟩ node short').map (Value.at_ k)
        = (evaluate ⟨baseTf, params, library⟩ node long').map (Value.at_ k)

section Necessity

variable {baseTf : Timeframe} {short long : Frames clock} {base base' : Frame clock baseTf} {k : Nat}
  {row : Row}

/-- Volumes that make daily bars with a volume on one day alone, whether they are given or built. -/
theorem exists_volumes (extends_ : Extends baseTf short long) {f g : Frame clock .d1}
    (left : Daily baseTf short f) (_ : Daily baseTf long g) (t : Int) :
    ∃ volume : Int → ℚ, (∀ u, 0 ≤ volume u) ∧
      (∀ day, Daily baseTf (withVolumes volume short) day → VolumeAt t day.rows) ∧
      ∀ day, Daily baseTf (withVolumes volume long) day → VolumeAt t day.rows := by
  have ofGiven : ∀ (frames : Frames clock) (h : Frame clock .d1), frames .d1 = some h →
      ∀ day, Daily baseTf (withVolumes (fun u => if u = t then 1 else 0) frames) day →
        VolumeAt t day.rows := by
    intro frames h given day daily
    rw [daily.unique (Or.inl (by simp [withVolumes, given]; rfl))]
    exact volumeAt_withVolumes h t
  have ofBuilt : ∀ frames : Frames clock, frames .d1 = none →
      ∀ day, Daily baseTf (withVolumes (fun u => if label clock .d1 u = t then 1 else 0) frames) day →
        VolumeAt t day.rows := by
    rintro frames none_ day (given | ⟨-, base, isBase, built⟩)
    · simp [withVolumes, none_] at given
    · obtain ⟨b, -, rfl⟩ := Option.map_eq_some_iff.mp isBase
      exact volumeAt_resample t built
  rcases left with given | ⟨none_, -⟩
  · have given' : ∃ h, long .d1 = some h := by
      cases isLong : long .d1 with
      | some h => exact ⟨h, rfl⟩
      | none =>
        rw [(extends_.none_iff .d1).mpr isLong] at given
        cases given
    obtain ⟨h, given'⟩ := given'
    refine ⟨fun u => if u = t then 1 else 0, ?_, ofGiven short f given, ofGiven long h given'⟩
    intro u
    dsimp only
    split <;> norm_num
  · refine ⟨fun u => if label clock .d1 u = t then 1 else 0, ?_, ofBuilt short none_,
      ofBuilt long ((extends_.none_iff .d1).mp none_)⟩
    intro u
    dsimp only
    split <;> norm_num

variable (extends_ : Extends baseTf short long) (isBase : short baseTf = some base)
  (isBase' : long baseTf = some base') (bar : base.rows[k]? = some row)
include extends_ isBase isBase' bar

/-- The screen that tells gives the same on both sides, whatever the volumes. -/
theorem SameAtBar.told (same : SameAtBar baseTf short long k) (bar' : base'.rows[k]? = some row)
    (nonneg : ∀ t, 0 ≤ volume t) (isNew : short tf = none) (coarser : baseTf.minutes ≤ tf.minutes)
    (intraday : baseTf.minutes < Timeframe.d1.minutes) (notDay : tf ≠ .d1) :
    ∃ (day day' : Frame clock .d1) (coarse coarse' : Frame clock tf),
      Daily baseTf (withVolumes volume short) day ∧ Daily baseTf (withVolumes volume long) day' ∧
      (if Timeframe.d1.minutes < tf.minutes then day.resample tf = .ok coarse
        else (base.withVolumes volume).resample tf = .ok coarse) ∧
      (if Timeframe.d1.minutes < tf.minutes then day'.resample tf = .ok coarse'
        else (base'.withVolumes volume).resample tf = .ok coarse') ∧
      CompareOp.gt.cells (coarse.knownVolume (barClose clock baseTf row.start)) (.num 0)
        = CompareOp.gt.cells (coarse'.knownVolume (barClose clock baseTf row.start)) (.num 0) := by
  have nonnegFrames : ∀ (frames : Frames clock) tf (f : Frame clock tf),
      withVolumes volume frames tf = some f → Nonneg f.rows := by
    intro frames tf f given
    obtain ⟨f', -, rfl⟩ := Option.map_eq_some_iff.mp given
    exact nonneg_withVolumes nonneg f'
  have given := extends_.withVolumes volume
  have checked : (lateScreen tf).checked baseTf = true := by
    simp [lateScreen, Node.checked, allChecked, volumeOf, nought, checkedAt, maxOffset, coarser,
      intraday.le]
  have equal := same _ _ (sameShape_withVolumes volume short) (sameShape_withVolumes volume long) given
    (fun _ => none) (silent clock) silent_causal (lateScreen tf) checked
  let setting : Setting clock := ⟨baseTf, fun _ => none, silent clock⟩
  have left : withVolumes volume short baseTf = some (base.withVolumes volume) := by
    simp [withVolumes, isBase]
  have right : withVolumes volume long baseTf = some (base'.withVolumes volume) := by
    simp [withVolumes, isBase']
  have atBar : ∀ f : Frame clock baseTf, f.rows[k]? = some row →
      (f.withVolumes volume).rows[k]? = some (row.withVolume volume) := by
    intro f isRow
    simp [Frame.withVolumes, isRow]
  obtain ⟨day, coarse, daily, built, value⟩ := tell setting left (atBar base bar)
    (by simp [withVolumes, isNew]) intraday notDay (fun _ _ isF => given.complete (Or.inl isF))
    (nonnegFrames short)
  obtain ⟨day', coarse', daily', built', value'⟩ := tell setting right (atBar base' bar')
    (by simp [withVolumes, (extends_.none_iff tf).mp isNew]) intraday notDay
    (fun _ _ isF => given.complete (Or.inr isF)) (nonnegFrames long)
  refine ⟨day, day', coarse, coarse', daily, daily', built, built', ?_⟩
  rw [value, value'] at equal
  exact Cell.flag.inj (Except.ok.inj equal)

/-- A bar of the shorter data is one of the longer, and the shorter data go on to its close. -/
theorem Extends.sameBar :
    base'.rows[k]? = some row ∧ ∃ later last, base'.rows = base.rows ++ later ∧
      base.rows.getLast? = some last ∧
      barClose clock baseTf row.start ≤ barClose clock baseTf last.start := by
  obtain ⟨-, later, rows⟩ := extends_.append isBase isBase'
  have inRows : row ∈ base.rows := List.mem_of_getElem? bar
  obtain ⟨last, isLast⟩ : ∃ last, base.rows.getLast? = some last := by
    cases isLast : base.rows.getLast? with
    | none =>
      rw [List.getLast?_eq_none_iff.mp isLast] at inRows
      cases inRows
    | some last => exact ⟨last, rfl⟩
  refine ⟨?_, later, last, rows, isLast, ?_⟩
  · obtain ⟨inside, -⟩ := List.getElem?_eq_some_iff.mp bar
    rw [rows, List.getElem?_append_left inside, bar]
  · obtain ⟨initial, split⟩ := List.getLast?_eq_some_iff.mp isLast
    have increase := base.closes_increase
    rw [split] at inRows increase
    rcases List.mem_append.mp inRows with before | isIt
    · exact ((List.pairwise_append.mp increase).2.2 row before last (List.mem_singleton_self last)).le
    · rw [List.mem_singleton.mp isIt]

theorem SameAtBar.onBase (same : SameAtBar baseTf short long k) (isNew : short tf = none)
    (coarser : baseTf.minutes ≤ tf.minutes) :
    base.collected tf (barClose clock baseTf row.start)
      = base'.collected tf (barClose clock baseTf row.start) := by
  obtain ⟨bar', later, last, rows, isLast, upToLast⟩ := extends_.sameBar isBase isBase' bar
  cases capped : sessionCapped tf clock.exchange with
  | false =>
    unfold Frame.collected
    rw [collectedRows_uncapped tf rows isLast capped upToLast]
  | true =>
    have shorter : tf.minutes < Timeframe.d1.minutes := by
      by_contra longer
      unfold sessionCapped at capped
      rw [if_pos (Or.inl (not_lt.mp longer))] at capped
      cases capped
    by_contra differ
    obtain ⟨t, isLastCollected, notCollected⟩ := exists_late rows differ
    have nonneg : ∀ u : Int, (0 : ℚ) ≤ if u = t then 1 else 0 := by
      intro u
      split <;> norm_num
    obtain ⟨day, day', coarse, coarse', -, -, built, built', equal⟩ := same.told extends_ isBase isBase' bar
      bar' nonneg isNew coarser (coarser.trans_lt shorter) (by rintro rfl; exact lt_irrefl _ shorter)
    rw [if_neg shorter.not_gt] at built built'
    rw [(base.sameShape_withVolumes _).collected] at notCollected
    rw [(base'.sameShape_withVolumes _).collected] at isLastCollected
    exact late_told built built' (volumeAt_withVolumes base t) (volumeAt_withVolumes base' t)
      isLastCollected notCollected equal

theorem SameAtBar.onDaily (same : SameAtBar baseTf short long k) (isNew : short tf = none)
    (intraday : baseTf.minutes < Timeframe.d1.minutes) (coarser : Timeframe.d1.minutes < tf.minutes)
    {f g : Frame clock .d1} (left : Daily baseTf short f) (right : Daily baseTf long g) :
    f.collected tf (barClose clock baseTf row.start)
      = g.collected tf (barClose clock baseTf row.start) := by
  obtain ⟨bar', -⟩ := extends_.sameBar isBase isBase' bar
  obtain ⟨-, later, rows⟩ := left.append extends_ right
  by_contra differ
  obtain ⟨t, isLastCollected, notCollected⟩ := exists_late rows differ
  obtain ⟨volume, nonneg, volumes, volumes'⟩ := exists_volumes extends_ left right t
  obtain ⟨day, day', coarse, coarse', isDay, isDay', built, built', equal⟩ := same.told extends_
    isBase isBase' bar bar' nonneg isNew (intraday.le.trans coarser.le) intraday
    (by rintro rfl; exact lt_irrefl _ coarser)
  rw [if_pos coarser] at built built'
  obtain ⟨shaped, daily, alike⟩ := left.shape (sameShape_withVolumes volume short)
  obtain ⟨shaped', daily', alike'⟩ := right.shape (sameShape_withVolumes volume long)
  rw [daily.unique isDay] at alike
  rw [daily'.unique isDay'] at alike'
  rw [alike.collected] at notCollected
  rw [alike'.collected] at isLastCollected
  exact late_told built built' (volumes day isDay) (volumes' day' isDay') isLastCollected notCollected
    equal

end Necessity

/-- A screen never looks ahead at a bar, whatever the values, exactly when closed buckets collect the
same bars by the bar's close. -/
theorem sameAtBar_iff {baseTf : Timeframe} {short long : Frames clock}
    (extends_ : Extends baseTf short long) {base : Frame clock baseTf} {k : Nat} {row : Row}
    (isBase : short baseTf = some base) (bar : base.rows[k]? = some row) :
    SameAtBar baseTf short long k
      ↔ NothingLate baseTf short long (barClose clock baseTf row.start) := by
  constructor
  · intro same
    refine ⟨?_, ?_⟩
    · intro tf f g coarser isNew isF isG
      rw [isBase] at isF
      cases isF
      exact same.onBase extends_ isBase isG bar isNew coarser
    · intro tf f g intraday coarser isNew left right
      obtain ⟨-, base', -, isBase'⟩ := extends_.base
      exact same.onDaily extends_ isBase isBase' bar isNew intraday coarser left right
  · intro nothing short' long' left right extends' params library causal node checked
    obtain ⟨base', isBase', -, rows⟩ := left.frame isBase
    have shapes := congrArg (fun l : List (Int × Bool) => l[k]?) rows
    simp only [List.getElem?_map, bar, Option.map_some] at shapes
    obtain ⟨row', bar', shape⟩ := Option.map_eq_some_iff.mp shapes.symm
    have start : row'.start = row.start := congrArg Prod.fst shape
    exact evaluate_same ⟨baseTf, params, library⟩ extends' (nothing.shape left right) causal isBase'
      bar' (by rw [start]) checked

end Exactness

/-! ## A session and the auction after it -/

section Auction

/-- Stamps in UTC, on the session of NSE. -/
def utc : Clock := { aware := false, exchange := none }

/-- A bar at one price. -/
def flat (start : Int) (price : ℚ) : Row :=
  { start, open_ := some price, high := some price, low := some price, close := some price,
    volume := some 1, oi := none }

/-- The last three five-minute bars of a session, from 15:15 IST. -/
def lastBars : List Row := [585, 590, 595].map fun minute => flat (minute * minuteUs) 100

/-- The bar of the closing auction, from 15:30 IST. -/
def auction : Row := flat (600 * minuteUs) 101

def fiveMinutes (rows : List Row)
    (spaced : rows.Pairwise fun r r' => barClose utc .m5 r.start ≤ r'.start) : Frames utc
  | .m5 => some { columns := fun _ => true, rows, spaced }
  | _ => none

/-- `close@30m == close`. -/
def halfHourClose : Node :=
  .compare .eq (.field ['c', 'l', 'o', 's', 'e'] 0 (some .m30)) (.field ['c', 'l', 'o', 's', 'e'] 0 none)

/-- The half hour from 15:15 is visible at 15:30, and the auction's bar is in it. -/
theorem auction_seen :
    Extends .m5 (fiveMinutes lastBars (by decide +kernel))
        (fiveMinutes (lastBars ++ [auction]) (by decide +kernel)) ∧
      halfHourClose.checked .m5 = true ∧
      (evaluate ⟨.m5, fun _ => none, silent utc⟩ halfHourClose
        (fiveMinutes lastBars (by decide +kernel))).map (Value.at_ 2) = .ok (.flag true) ∧
      (evaluate ⟨.m5, fun _ => none, silent utc⟩ halfHourClose
        (fiveMinutes (lastBars ++ [auction]) (by decide +kernel))).map (Value.at_ 2)
          = .ok (.flag false) := by
  refine ⟨⟨_, _, rfl, rfl, ?_⟩, by decide +kernel, by decide +kernel, by decide +kernel⟩
  intro tf
  cases tf with
  | m5 =>
    refine Or.inr ⟨_, _, [auction], rfl, rfl, rfl, fun _ _ => rfl, rfl, ?_⟩
    decide +kernel
  | _ => exact Or.inl ⟨rfl, rfl⟩

/-- Two weeks of daily bars, the second just begun. -/
def newWeek : List Row := [4, 5, 6, 7, 8, 11].map fun day => flat (day * dayUs) 100

def daily (rows : List Row)
    (spaced : rows.Pairwise fun r r' => barClose utc .d1 r.start ≤ r'.start) : Frames utc
  | .d1 => some { columns := fun _ => true, rows, spaced }
  | _ => none

/-- Nothing is late in daily bars: the week that has ended stays as it is. -/
theorem newWeek_same :
    SameAtBar .d1 (daily newWeek (by decide +kernel))
      (daily (newWeek ++ [flat (12 * dayUs) 101]) (by decide +kernel)) 5 := by
  refine (sameAtBar_iff ⟨_, _, rfl, rfl, ?_⟩ rfl rfl).mpr ⟨?_, ?_⟩
  · intro tf
    cases tf with
    | d1 =>
      refine Or.inr ⟨_, _, [flat (12 * dayUs) 101], rfl, rfl, rfl, fun _ _ => rfl, rfl, ?_⟩
      decide +kernel
    | _ => exact Or.inl ⟨rfl, rfl⟩
  · intro tf f g coarser isNew isF isG
    cases isF
    cases isG
    cases tf with
    | d1 => cases isNew
    | w1 => decide +kernel
    | mo1 => decide +kernel
    | _ => exact absurd coarser (by decide)
  · intro tf f g intraday
    exact absurd intraday (by decide)

end Auction

end AdvanceTrading.Screener
