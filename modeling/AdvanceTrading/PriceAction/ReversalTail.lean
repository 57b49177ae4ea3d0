import AdvanceTrading.PriceAction.Reversal

/-!
# A bounded tail reads like the whole history

How far back an evaluation of `reversal.py` reads: the windows of the bar, of the
bars that follow-through looks back to, three bars before a window for the
overlap, and the median range behind each of them. A tail with room for these is
as good as the whole frame, and `scan_markers` gives each bar such a tail.
-/

namespace AdvanceTrading.Reversal

open PriceAction Columns Py

/-- The bars from `off` on, with median ranges of their own. -/
def Bars.tail (b : Bars) (off : Nat) (mr : Nat → Option ℚ) : Bars where
  o := from_ off b.o
  h := from_ off b.h
  l := from_ off b.l
  c := from_ off b.c
  mr := mr
  n := b.n - off

/-- From bar `k` of the tail on the median ranges are those of the whole. -/
def SameRanges (b : Bars) (off k : Nat) (mr : Nat → Option ℚ) : Prop := ∀ a, k ≤ a → mr a = b.mr (off + a)

section Tail

variable {b : Bars} {off k j n : Nat} {mr : Nat → Option ℚ} {d : Direction} {levels : List ℚ} {tol : ℚ} {s : Settings}

/-! ## A window -/

theorem view_tail {a : Nat} (inside : a ≤ j) (three : 3 ≤ a) :
    view (b.tail off mr) a j n d = view b (off + a) (off + j) n d := by
  have bars : off + j - (off + a) = j - a := by omega
  have closes : off + j + 1 - (off + a) = j + 1 - a := by omega
  have previous : off + j - 1 = off + (j - 1) := by omega
  have first : off + a - 3 = off + (a - 3) := by omega
  have before : off + a - 1 - (off + (a - 3)) = a - 1 - (a - 3) := by omega
  have some_before : 0 < off + a := by omega
  have some_before' : 0 < a := by omega
  have negated : (List.range' a (j + 1 - a)).map (fun i => -from_ off b.c i) =
      (List.range' (off + a) (j + 1 - a)).map fun i => -b.c i := map_from (fun i => -b.c i) off a (j + 1 - a)
  cases d <;>
    simp only [view, Bars.tail, bars, closes, previous, first, before, some_before, some_before', if_true, highest_from,
      lowest_from, map_from, negated] <;>
    rfl

theorem composite_tail {a : Nat} (inside : a ≤ j) :
    composite (b.tail off mr) a j = composite b (off + a) (off + j) := by
  have bars : off + j - (off + a) = j - a := by omega
  simp only [composite, Bars.tail, bars, highest_from, lowest_from]
  rfl

section

variable (same : SameRanges b off k mr)
include same

theorem evaluateWindow_tail (positive : 1 ≤ n) (room : k + n + 3 ≤ j + 1) :
    evaluateWindow (b.tail off mr) j n d levels tol s {} = evaluateWindow b (off + j) n d levels tol s {} := by
  have start : off + j + 1 - n = off + (j + 1 - n) := by omega
  have reference : strengthReference (b.tail off mr) {} (j + 1 - n) = strengthReference b {} (off + (j + 1 - n)) :=
    same _ (by omega)
  have outside : (j + 1 < n ∨ j + 1 - n < (0 : Nat) ∨ (b.tail off mr).n ≤ j) ↔
      (off + j + 1 < n ∨ off + (j + 1 - n) < (0 : Nat) ∨ b.n ≤ off + j) := by
    simp only [Bars.tail]
    omega
  unfold evaluateWindow
  simp only [start, reference, composite_tail (show j + 1 - n ≤ j by omega),
    view_tail (show j + 1 - n ≤ j by omega) (show 3 ≤ j + 1 - n by omega)]
  refine if_congr outside rfl ?_
  rfl

/-! ## The windows of a bar -/

theorem windows_tail {nmax : Nat} (room : k + nmax + 3 ≤ j + 1) :
    windows (b.tail off mr) d levels tol s {} j nmax = windows b d levels tol s {} (off + j) nmax := by
  apply List.map_congr_left
  intro n member
  rw [List.mem_range'_1] at member
  exact evaluateWindow_tail same member.1 (by omega)

theorem carried_tail {turn nmax : Nat} (room : k + nmax + turn + 3 ≤ j + 1) :
    carried (b.tail off mr) j d levels tol s {} turn nmax = carried b (off + j) d levels tol s {} turn nmax := by
  apply List.filterMap_congr
  intro n member
  rw [List.mem_range'_1] at member
  have back : off + j - turn = off + (j - turn) := by omega
  have start : off + (j - turn) + 1 - n = off + (j - turn + 1 - n) := by omega
  simp only [back, start, evaluateWindow_tail same member.1 (show k + n + 3 ≤ j - turn + 1 by omega),
    evaluateWindow_tail same (show 1 ≤ n + turn by omega) (show k + (n + turn) + 3 ≤ j + 1 by omega),
    composite_tail (show j - turn + 1 - n ≤ j by omega)]

theorem between_tail {turn nmax : Nat} (room : k + nmax + turn + 3 ≤ j + 1) :
    ((List.range' (j - turn + 1) (turn - 1)).any fun x =>
        (windows (b.tail off mr) d levels tol s {} x nmax).any Result.ok) =
      (List.range' (off + j - turn + 1) (turn - 1)).any fun x =>
        (windows b d levels tol s {} x nmax).any Result.ok := by
  have shifted : List.range' (off + j - turn + 1) (turn - 1) =
      (List.range' (j - turn + 1) (turn - 1)).map (off + ·) := by
    rw [List.map_add_range', show off + (j - turn + 1) = off + j - turn + 1 by omega]
  rw [shifted, List.any_map, Bool.eq_iff_iff, List.any_eq_true, List.any_eq_true]
  refine exists_congr fun x => and_congr_right fun member => ?_
  rw [List.mem_range'_1] at member
  rw [windows_tail same (by omega), Function.comp_apply]

theorem followthroughFrom_tail {nmax : Nat} (left turn : Nat)
    (room : k + nmax + (turn + left) + 3 ≤ j + 1) :
    followthroughFrom (b.tail off mr) j d levels tol s {} nmax left turn =
      followthroughFrom b (off + j) d levels tol s {} nmax left turn := by
  induction left generalizing turn with
  | zero => rfl
  | succ left ih =>
    have back : off + j - turn = off + (j - turn) := by omega
    have closes : ∀ i, (b.tail off mr).c i = b.c (off + i) := fun _ => rfl
    simp only [followthroughFrom, closes, ih (turn + 1) (by omega),
      between_tail same (show k + nmax + turn + 3 ≤ j + 1 by omega),
      carried_tail same (show k + nmax + turn + 3 ≤ j + 1 by omega), back]
    refine if_congr (by omega) rfl ?_
    rfl

theorem added_tail (inside : off + j < b.n)
    (room : k + s.touchReclaimWindow + s.followthroughMaxBars + 5 ≤ j + 1) :
    added (b.tail off mr) j d levels tol s {} = added b (off + j) d levels tol s {} := by
  have window_pos := s.window_pos
  have read : 1 ≤ j ∧ j < (b.tail off mr).n := ⟨by omega, by simp only [Bars.tail]; omega⟩
  have back : off + j - 1 = off + (j - 1) := by omega
  unfold added
  simp only [if_pos read, if_pos (show 1 ≤ off + j ∧ off + j < b.n by omega)]
  cases s.followthroughMode with
  | legacy =>
    simp only [back, evaluateWindow_tail same window_pos (show k + s.touchReclaimWindow + 3 ≤ j - 1 + 1 by omega),
      evaluateWindow_tail same (show 1 ≤ s.touchReclaimWindow + 1 by omega)
        (show k + (s.touchReclaimWindow + 1) + 3 ≤ j + 1 by omega)]
    rfl
  | addendum => exact followthroughFrom_tail same s.followthroughMaxBars 1 (by omega)

end

theorem evaluate_tail (d : Direction) (levels : List ℚ) (tol : ℚ) (same : SameRanges b off k mr)
    (inside : off + j < b.n) (room : k + s.touchReclaimWindow + s.followthroughMaxBars + 5 ≤ j + 1) :
    evaluate (b.tail off mr) j d levels tol s {} = evaluate b (off + j) d levels tol s {} := by
  unfold evaluate
  rw [windows_tail same (by omega), added_tail same inside room]

end Tail

/-! ## The score mode -/

theorem mapM_congr {α β : Type} {f g : α → Option β} {xs : List α} (same : ∀ x ∈ xs, f x = g x) :
    xs.mapM f = xs.mapM g := by
  induction xs with
  | nil => rfl
  | cons x xs ih =>
    rw [List.mapM_cons, List.mapM_cons, same x List.mem_cons_self,
      ih fun x' member => same x' (List.mem_cons_of_mem _ member)]

section Score

variable (f : Frame) (off n : Nat) (level : ℚ) (d : Direction) (s : Settings)

/-- A column of the bars from `off` on. -/
theorem column_drop (x : SwingBar → ℚ) :
    (fun i => ((f.drop off)[i]?.map x).getD 0) = from_ off fun i => (f[i]?.map x).getD 0 := by
  funext i
  rw [List.getElem?_drop]
  rfl

theorem open_drop : open_ (f.drop off) = from_ off (open_ f) := column_drop f off SwingBar.open_

theorem high_drop : high (f.drop off) = from_ off (high f) := column_drop f off SwingBar.high

theorem low_drop : low (f.drop off) = from_ off (low f) := column_drop f off SwingBar.low

theorem close_drop : close (f.drop off) = from_ off (close f) := column_drop f off SwingBar.close

theorem barsOf_drop (m : Nat) : barsOf (f.drop off) m = (barsOf f m).tail off (Breaks.medianRange (f.drop off) m) := by
  simp only [barsOf, Bars.tail, open_drop, high_drop, low_drop, close_drop, List.length_drop]

theorem sameRanges_drop (m : Nat) : SameRanges (barsOf f m) off m (Breaks.medianRange (f.drop off) m) := by
  intro a inside
  unfold Breaks.medianRange
  rw [high_drop, low_drop]
  exact priorMedian_from (fun i => high f i - low f i) off inside

theorem ranges_drop (a k : Nat) : ranges (f.drop off) a k = ranges f (off + a) k := by
  unfold ranges
  rw [high_drop, low_drop]
  exact map_from (fun i => high f i - low f i) off a k

variable {f off n s}

theorem medianBefore_drop (room : off + n + s.medianRangeN ≤ f.length) :
    medianBefore (f.drop off) n s = medianBefore f n s := by
  have start : f.length - n - s.medianRangeN = off + (f.length - off - n - s.medianRangeN) := by omega
  have bars : f.length - off - n - (f.length - off - n - s.medianRangeN) =
      f.length - n - (f.length - n - s.medianRangeN) := by omega
  simp only [medianBefore, List.length_drop, ranges_drop, bars, ← start]

theorem timedComposite_drop {a j : Nat} (inside : a ≤ j) :
    timedComposite (f.drop off) a j = timedComposite f (off + a) (off + j) := by
  have bars : off + j - (off + a) = j - a := by omega
  simp only [timedComposite, open_drop, high_drop, low_drop, close_drop, highest_from, lowest_from,
    List.getElem?_drop, bars]
  rfl

theorem closesOf_drop (a j : Nat) : closesOf (f.drop off) a j d = closesOf f (off + a) (off + j) d := by
  have bars : off + j + 1 - (off + a) = j + 1 - a := by omega
  unfold closesOf
  rw [close_drop, bars]
  exact map_from (fun i => d.times (close f i)) off a (j + 1 - a)

theorem scoreWindow_drop (positive : 1 ≤ n) (candles : off + n + s.scoreMinMedianCandles ≤ f.length)
    (room : off + n + s.medianRangeN ≤ f.length) :
    scoreWindow (f.drop off) n level d s = scoreWindow f n level d s := by
  have start : off + (f.length - off - n) = f.length - n := by omega
  have last : off + (f.length - off - 1) = f.length - 1 := by omega
  have enough : ¬ f.length < n + s.scoreMinMedianCandles := by omega
  have enough' : ¬ f.length - off < n + s.scoreMinMedianCandles := by omega
  have opens : open_ (f.drop off) (f.length - off - 1) = open_ f (f.length - 1) := by
    rw [open_drop, from_, last]
  have closes : close (f.drop off) (f.length - off - 1) = close f (f.length - 1) := by
    rw [close_drop, from_, last]
  unfold scoreWindow
  simp only [List.length_drop, medianBefore_drop room,
    timedComposite_drop (show f.length - off - n ≤ f.length - off - 1 by omega), closesOf_drop,
    start, last, enough, enough', opens, closes]

section

variable (candles : off + (s.scoreSpeed.length + 1) + s.scoreMinMedianCandles ≤ f.length)
variable (room : off + (s.scoreSpeed.length + 1) + s.medianRangeN ≤ f.length)
include candles room

theorem scoreAdded_drop : scoreAdded (f.drop off) level d s = scoreAdded f level d s := by
  have candles_pos := s.candles_pos
  have three := s.three_speeds
  have last : off + (f.length - off - 1) = f.length - 1 := by omega
  have enough : s.scoreSpeed.length + 2 ≤ f.length := by omega
  have enough' : s.scoreSpeed.length + 2 ≤ f.length - off := by omega
  have before : (f.drop off).dropLast = f.dropLast.drop off := by
    rw [List.dropLast_eq_take, List.dropLast_eq_take, List.drop_take, List.length_drop]
    congr 1
    omega
  have previous : scoreWindow (f.dropLast.drop off) s.scoreSpeed.length level d s =
      scoreWindow f.dropLast s.scoreSpeed.length level d s := by
    apply scoreWindow_drop
    · omega
    · rw [List.length_dropLast]
      omega
    · rw [List.length_dropLast]
      omega
  unfold scoreAdded
  simp only [List.length_drop, before, previous, enough, enough', if_true, open_drop, close_drop, from_, last,
    scoreWindow_drop level d (show 1 ≤ s.scoreSpeed.length + 1 by omega) candles room]

theorem scoreRejection_drop :
    scoreRejection (f.drop off) level d s = scoreRejection f level d s := by
  have windows : (List.range' 1 s.scoreSpeed.length).mapM (fun n => scoreWindow (f.drop off) n level d s) =
      (List.range' 1 s.scoreSpeed.length).mapM fun n => scoreWindow f n level d s := by
    apply mapM_congr
    intro n member
    rw [List.mem_range'_1] at member
    exact scoreWindow_drop level d (by omega) (by omega) (by omega)
  unfold scoreRejection
  rw [windows, scoreAdded_drop level d candles room]

end

end Score

/-! ## One bar -/

/-- What a bounded tail is enough for. -/
theorem evaluateReversal_drop {f : Frame} {off : Nat} (levels : List ℚ) (d : Direction)
    {s : Settings} (room : off + tailLength s ≤ f.length) :
    evaluateReversal (f.drop off) levels d s {} = evaluateReversal f levels d s {} := by
  have three := s.three_speeds
  unfold tailLength at room
  have kept : (f.drop off).isEmpty = f.isEmpty := by
    rw [Bool.eq_iff_iff, List.isEmpty_iff, List.isEmpty_iff, List.drop_eq_nil_iff, ← List.length_eq_zero_iff]
    omega
  unfold evaluateReversal
  rw [kept]
  refine if_congr Iff.rfl rfl ?_
  cases s.reversalMode with
  | score100 =>
    simp only
    rw [scoreRejection_drop _ d (by omega) (by omega)]
  | composite =>
    have last : off + (f.length - off - 1) = f.length - 1 := by omega
    have same := sameRanges_drop f off s.medianRangeN
    have reference : Breaks.medianRange (f.drop off) s.medianRangeN (f.length - off - 1) =
        (barsOf f s.medianRangeN).mr (f.length - 1) := by
      rw [same _ (by omega), last]
    have whole := evaluate_tail (s := s) d levels
      (s.touchTolMr * ((barsOf f s.medianRangeN).mr (f.length - 1)).getD 0) same
      (show off + (f.length - off - 1) < (barsOf f s.medianRangeN).n by simp only [barsOf]; omega) (by omega)
    rw [last] at whole
    rw [barsOf_drop]
    simp only [Bars.tail, barsOf]
    rw [reference]
    exact congrArg (Option.map compositeReply) whole

/-! ## The scan -/

theorem foldlM_congr {α σ : Type*} {step step' : σ → α → Option σ} {xs : List α}
    (same : ∀ x ∈ xs, ∀ state, step state x = step' state x) (state : σ) :
    xs.foldlM step state = xs.foldlM step' state := by
  induction xs generalizing state with
  | nil => rfl
  | cons x xs ih =>
    rw [List.foldlM_cons, List.foldlM_cons, same x List.mem_cons_self]
    exact bind_congr fun next => ih (fun x' member => same x' (List.mem_cons_of_mem _ member)) next

section Scan

variable {f : Frame} {levels : List ℚ} {s : Settings} {maxDistanceMr : ℚ} {bars bars' : Nat → Frame}

/-- The scan with every bar evaluated on the whole history up to it. -/
def scanWhole (f : Frame) (levels : List ℚ) (s : Settings) (maxDistanceMr : ℚ) : Option (List Marker) :=
  scanWith f levels s maxDistanceMr fun i => f.take (i + 1)

/-- Frames that every evaluation reads alike. -/
def ReadAlike (s : Settings) (f g : Frame) : Prop :=
  ∀ lv d, evaluateReversal f [lv] d s {} = evaluateReversal g [lv] d s {}

theorem boundedTail_alike {i : Nat} (inside : i < f.length) : ReadAlike s (boundedTail f s i) (f.take (i + 1)) := by
  intro lv d
  unfold boundedTail
  by_cases short : i + 1 ≤ tailLength s
  · rw [Nat.sub_eq_zero_of_le short, List.drop_zero]
  · apply evaluateReversal_drop
    rw [List.length_take]
    omega

theorem bestLevel_congr {g g' : Frame} (alike : ReadAlike s g g') (closing m : ℚ) :
    bestLevel levels s maxDistanceMr g closing m = bestLevel levels s maxDistanceMr g' closing m := by
  have equal : ∀ lv d, evaluateReversal g [lv] d s {} = evaluateReversal g' [lv] d s {} := alike
  unfold bestLevel
  simp only [equal]

theorem markBar_congr {i : Nat} (alike : ReadAlike s (bars i) (bars' i)) (state : Int × List Marker) :
    markBar f levels s maxDistanceMr bars state i = markBar f levels s maxDistanceMr bars' state i := by
  unfold markBar
  cases Breaks.medianRange f s.medianRangeN i with
  | none => rfl
  | some m =>
    refine if_congr Iff.rfl rfl ?_
    rw [bestLevel_congr alike]

theorem scanMarkers_eq_scanWhole (f : Frame) (levels : List ℚ) (s : Settings) (maxDistanceMr : ℚ) :
    scanMarkers f levels s maxDistanceMr = scanWhole f levels s maxDistanceMr := by
  unfold scanMarkers scanWhole scanWith
  rw [foldlM_congr]
  intro i member state
  rw [List.mem_range'_1] at member
  exact markBar_congr (boundedTail_alike (by omega)) state

/-! ## The scan of a cut frame -/

/-- A turn of the scan appends at most a marker at its bar. -/
theorem markBar_appends {i : Nat} {state state' : Int × List Marker}
    (turn : markBar f levels s maxDistanceMr bars state i = some state') :
    ∃ more, state'.2 = state.2 ++ more ∧ ∀ marker ∈ more, marker.index = i := by
  unfold markBar at turn
  cases given : Breaks.medianRange f s.medianRangeN i with
  | none =>
    rw [given] at turn
    obtain rfl := Option.some.inj turn
    exact ⟨[], (List.append_nil _).symm, fun _ member => nomatch member⟩
  | some m =>
    rw [given] at turn
    by_cases flat : m ≤ 0
    · obtain rfl := Option.some.inj ((if_pos flat).symm.trans turn)
      exact ⟨[], (List.append_nil _).symm, fun _ member => nomatch member⟩
    · obtain ⟨best, _, kept⟩ := Option.bind_eq_some_iff.mp ((if_neg flat).symm.trans turn)
      cases best with
      | none =>
        obtain rfl := Option.some.inj kept
        exact ⟨[], (List.append_nil _).symm, fun _ member => nomatch member⟩
      | some best =>
        by_cases apart : state.1 < (i : Int) - best.2.n + 1
        · obtain rfl := Option.some.inj ((if_pos apart).symm.trans kept)
          exact ⟨_, rfl, fun marker member => by rw [List.mem_singleton.mp member]⟩
        · obtain rfl := Option.some.inj ((if_neg apart).symm.trans kept)
          exact ⟨[], (List.append_nil _).symm, fun _ member => nomatch member⟩

theorem foldlM_markBar_appends {places : List Nat} {state state' : Int × List Marker}
    (scanned : places.foldlM (markBar f levels s maxDistanceMr bars) state = some state') :
    ∃ more, state'.2 = state.2 ++ more ∧ ∀ marker ∈ more, marker.index ∈ places := by
  induction places generalizing state with
  | nil =>
    obtain rfl := Option.some.inj scanned
    exact ⟨[], (List.append_nil _).symm, fun _ member => nomatch member⟩
  | cons i places ih =>
    rw [List.foldlM_cons] at scanned
    obtain ⟨next, turn, rest⟩ := Option.bind_eq_some_iff.mp scanned
    obtain ⟨first, first_eq, at_first⟩ := markBar_appends turn
    obtain ⟨more, more_eq, at_more⟩ := ih rest
    refine ⟨first ++ more, by rw [more_eq, first_eq, List.append_assoc], fun marker member => ?_⟩
    rcases List.mem_append.mp member with member | member
    · rw [at_first marker member]
      exact List.mem_cons_self
    · exact List.mem_cons_of_mem _ (at_more marker member)

/-- A turn at a bar of the cut frame is the turn of the whole. -/
theorem markBar_take {m i : Nat} (inside : i < m) (state : Int × List Marker) :
    markBar (f.take m) levels s maxDistanceMr (fun i => (f.take m).take (i + 1)) state i =
      markBar f levels s maxDistanceMr (fun i => f.take (i + 1)) state i := by
  have column : ∀ (x : SwingBar → ℚ) k, k < m → ((f.take m)[k]?.map x).getD 0 = (f[k]?.map x).getD 0 := by
    intro x k before
    rw [List.getElem?_take_of_lt before]
  have ranges' : Breaks.medianRange (f.take m) s.medianRangeN i = Breaks.medianRange f s.medianRangeN i := by
    have agree : AgreeBelow m (fun k => high (f.take m) k - low (f.take m) k) fun k => high f k - low f k := by
      intro k before
      exact congrArg₂ (· - ·) (column SwingBar.high k before) (column SwingBar.low k before)
    exact agree.priorMedian i inside
  have closing : close (f.take m) i = close f i := column _ i inside
  have history : (f.take m).take (i + 1) = f.take (i + 1) := by
    rw [List.take_take, Nat.min_eq_left inside]
  unfold markBar
  simp only [ranges', closing, history]

/-- The markers of a run of turns from none, each at one of its bars. -/
theorem scanned_places {places : List Nat} {marks : List Marker}
    (scanned : (places.foldlM (markBar f levels s maxDistanceMr bars) (-1, [])).map Prod.snd = some marks) :
    ∀ marker ∈ marks, marker.index ∈ places := by
  obtain ⟨state, run, rfl⟩ := Option.map_eq_some_iff.mp scanned
  obtain ⟨more, appended, at_places⟩ := foldlM_markBar_appends run
  rw [appended, List.nil_append]
  exact at_places

/-- The markers up to a bar are those of the frame cut after it. -/
theorem scanWhole_take (m : Nat) {marks : List Marker} (scanned : scanWhole f levels s maxDistanceMr = some marks) :
    scanWhole (f.take m) levels s maxDistanceMr = some (marks.filter fun marker => marker.index < m) := by
  unfold scanWhole scanWith at scanned ⊢
  by_cases short : f.length < s.medianRangeN + 2
  · obtain rfl := Option.some.inj ((if_pos short).symm.trans scanned)
    rw [if_pos (by rw [List.length_take]; omega)]
    rfl
  have scanned := (if_neg short).symm.trans scanned
  by_cases cut : (f.take m).length < s.medianRangeN + 2
  · rw [if_pos cut]
    have none_before : marks.filter (fun marker => marker.index < m) = [] := by
      rw [List.filter_eq_nil_iff]
      intro marker member
      have place := scanned_places scanned marker member
      rw [List.mem_range'_1] at place
      rw [List.length_take] at cut
      rw [decide_eq_true_eq]
      omega
    rw [none_before]
  · rw [if_neg cut]
    rw [List.length_take] at cut ⊢
    have parts : List.range' (s.medianRangeN + 1) (f.length - (s.medianRangeN + 1)) =
        List.range' (s.medianRangeN + 1) (min m f.length - (s.medianRangeN + 1)) ++
          List.range' (min m f.length) (f.length - min m f.length) := by
      have reached : s.medianRangeN + 1 + 1 * (min m f.length - (s.medianRangeN + 1)) = min m f.length := by omega
      have last := @List.range'_append (s.medianRangeN + 1) (min m f.length - (s.medianRangeN + 1))
        (f.length - min m f.length) 1
      rw [reached] at last
      rw [last]
      congr 1
      omega
    rw [parts, List.foldlM_append] at scanned
    obtain ⟨state, run, rfl⟩ := Option.map_eq_some_iff.mp scanned
    obtain ⟨middle, first, rest⟩ := Option.bind_eq_some_iff.mp run
    have same : (List.range' (s.medianRangeN + 1) (min m f.length - (s.medianRangeN + 1))).foldlM
        (markBar (f.take m) levels s maxDistanceMr fun i => (f.take m).take (i + 1)) (-1, []) = some middle := by
      rw [← first]
      refine foldlM_congr (fun i member state => ?_) _
      rw [List.mem_range'_1] at member
      exact markBar_take (by omega) state
    have before := scanned_places (congrArg (Option.map Prod.snd) first)
    obtain ⟨more, appended, after⟩ := foldlM_markBar_appends rest
    rw [same, Option.map_some, appended, List.filter_append]
    have kept : middle.2.filter (fun marker => marker.index < m) = middle.2 := by
      rw [List.filter_eq_self]
      intro marker member
      have place := before marker member
      rw [List.mem_range'_1] at place
      rw [decide_eq_true_eq]
      omega
    have dropped : more.filter (fun marker => marker.index < m) = [] := by
      rw [List.filter_eq_nil_iff]
      intro marker member
      have place := after marker member
      rw [List.mem_range'_1] at place
      rw [decide_eq_true_eq]
      omega
    rw [kept, dropped, List.append_nil]

end Scan

/-- The scan with bounded tails reads like the scan of the whole history, and the markers up to a bar are
those of the frame cut after it. -/
theorem scanMarkers_bounded (f : Frame) (levels : List ℚ) (s : Settings) (maxDistanceMr : ℚ) :
    scanMarkers f levels s maxDistanceMr = scanWhole f levels s maxDistanceMr ∧
      ∀ i marks, scanMarkers f levels s maxDistanceMr = some marks →
        scanMarkers (f.take (i + 1)) levels s maxDistanceMr = some (marks.filter fun marker => marker.index ≤ i) := by
  refine ⟨scanMarkers_eq_scanWhole f levels s maxDistanceMr, fun i marks scanned => ?_⟩
  rw [scanMarkers_eq_scanWhole] at scanned ⊢
  rw [scanWhole_take (i + 1) scanned]
  simp only [Nat.lt_succ_iff]

/-- Two quiet bars, a hammer on the level 100 and a bar above it. -/
def hammerFrame : Frame :=
  [⟨0, 1, 100, 101, 99, 100⟩, ⟨1, 2, 100, 101, 99, 100⟩, ⟨2, 3, 101, 102, 99, 102⟩, ⟨3, 4, 102, 103, 101, 102⟩]

/-- The median range of one bar. -/
def oneBar : Settings := { medianRangeN := 1 }

/-- The marker of the hammer. -/
def hammerMark : Marker where
  index := 2
  level := 100
  bullish := true
  scorePct := .fin (354 / 5)
  n := 1
  label := some .hammer

theorem scanMarkers_bounded_hammer :
    scanMarkers hammerFrame [100] oneBar 6 = some [hammerMark] ∧
      scanMarkers (hammerFrame.take 3) [100] oneBar 6 = some ([hammerMark].filter fun marker => marker.index ≤ 2) := by
  have whole : scanMarkers hammerFrame [100] oneBar 6 = some [hammerMark] := by decide +kernel
  exact ⟨whole, (scanMarkers_bounded hammerFrame [100] oneBar 6).2 2 _ whole⟩

end AdvanceTrading.Reversal
