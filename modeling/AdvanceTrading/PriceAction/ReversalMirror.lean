import AdvanceTrading.PriceAction.Reversal

/-!
# Reversals of bulls and bears

The mirror of `reversal.py`: prices negated, highs and lows exchanged. A rule is
written once, on the prices that `view` mirrors for a bearish read, so the proofs
are about what is read of the bars (`view_mirrored`, `closesOf_mirrored`); what is
computed from it is the same and only the results in real prices are turned
back. The names of `_label` are mirrored too.
-/

namespace AdvanceTrading.Reversal

open PriceAction Columns Py

/-! ## The mirror -/

def Direction.opposite : Direction → Direction
  | .bullish => .bearish
  | .bearish => .bullish

def mirrorBar (bar : SwingBar) : SwingBar :=
  { bar with open_ := -bar.open_, high := -bar.low, low := -bar.high, close := -bar.close }

def mirrorFrame (f : Frame) : Frame := f.map mirrorBar

def Bars.mirrored (b : Bars) : Bars where
  o i := -b.o i
  h i := -b.l i
  l i := -b.h i
  c i := -b.c i
  mr := b.mr
  n := b.n

def Extras.mirrored (kw : Extras) : Extras := { kw with inv := kw.inv.map fun x => -x }

def Composite.mirrored (comp : Composite) : Composite where
  o := -comp.o
  h := -comp.l
  l := -comp.h
  c := -comp.c

def Label.mirrored : Label → Label
  | .hammer => .shootingStar
  | .shootingStar => .hammer
  | .piercing => .darkCloud
  | .darkCloud => .piercing
  | .failedBreakdown => .failedBreakout
  | .failedBreakout => .failedBreakdown
  | label => label

/-- The touched level, the composite and the name are mirrored, nothing else is. -/
def Result.mirrored (r : Result) : Result :=
  { r with
    touched := r.touched.map fun x => -x
    comp := r.comp.map Composite.mirrored
    label := r.label.map Label.mirrored }

def TimedComposite.mirrored (timed : TimedComposite) : TimedComposite := { timed with comp := timed.comp.mirrored }

def ScoreResult.mirrored (r : ScoreResult) : ScoreResult :=
  { r with composite := r.composite.map TimedComposite.mirrored, label := r.label.map Label.mirrored }

/-! ## What is read of the bars -/

@[simp] theorem times_opposite (d : Direction) (x : ℚ) : d.opposite.times x = -d.times x := by
  cases d
  · rfl
  · exact (neg_neg x).symm

@[simp] theorem times_neg (d : Direction) (x : ℚ) : d.times (-x) = -d.times x := by
  cases d <;> rfl

theorem view_mirrored (b : Bars) (a j n : Nat) (d : Direction) : view b.mirrored a j n d.opposite = view b a j n d := by
  cases d <;>
    simp only [view, Bars.mirrored, Direction.opposite, highest_neg, lowest_neg, neg_neg]

theorem composite_mirrored (b : Bars) (a j : Nat) : composite b.mirrored a j = (composite b a j).mirrored := by
  simp only [composite, Composite.mirrored, Bars.mirrored, highest_neg, lowest_neg]

theorem levels_mirrored (d : Direction) (levels : List ℚ) :
    (levels.map fun x => -x).map d.opposite.times = levels.map d.times := by
  rw [List.map_map]
  apply List.map_congr_left
  intro x _
  simp

theorem strengthReference_mirrored (b : Bars) (kw : Extras) (a : Nat) :
    strengthReference b.mirrored kw.mirrored a = strengthReference b kw a := rfl

/-! ## The rules -/

theorem label_mirrored (n : Nat) (v : View) (d : Direction) : label n v d.opposite = (label n v d).mirrored := by
  unfold label
  simp only [apply_ite Label.mirrored]
  cases d <;> rfl

theorem inv_mirrored (kw : Extras) (d : Direction) (p : ℚ → Bool) :
    (kw.mirrored.inv.any fun inv => p (d.opposite.times inv)) = kw.inv.any fun inv => p (d.times inv) := by
  cases given : kw.inv with
  | none => simp [Extras.mirrored, given]
  | some inv => simp [Extras.mirrored, given]

theorem rules_mirrored (v : View) (lv : List ℚ) (top m tol : ℚ) (n j : Nat) (d : Direction)
    (s : Settings) (kw : Extras) (closeLoc : ℚ) (out : Result) :
    rules v lv top m tol n j d.opposite s kw.mirrored closeLoc out.mirrored =
      (rules v lv top m tol n j d s kw closeLoc out).mirrored := by
  unfold rules
  have beyond := inv_mirrored kw d fun inv => v.l ≤ inv || v.closes.any (· ≤ inv)
  have reclaimRef : kw.mirrored.reclaimRef = kw.reclaimRef := rfl
  simp only [beyond, reclaimRef, apply_ite Result.mirrored]
  simp only [times_opposite]
  refine if_congr Iff.rfl rfl (if_congr Iff.rfl rfl ?_)
  cases lateReason v _ closeLoc m n s with
  | some reason => rfl
  | none =>
    simp only [apply_ite Result.mirrored]
    rfl

/-- A window of the mirrored bars, read the other way. -/
theorem evaluateWindow_mirrored (b : Bars) (j n : Nat) (d : Direction) (levels : List ℚ) (tol : ℚ)
    (s : Settings) (kw : Extras) :
    evaluateWindow b.mirrored j n d.opposite (levels.map fun x => -x) tol s kw.mirrored =
      (evaluateWindow b j n d levels tol s kw).mirrored := by
  unfold evaluateWindow
  simp only [apply_ite Result.mirrored, levels_mirrored, strengthReference_mirrored, view_mirrored, composite_mirrored,
    label_mirrored]
  refine if_congr Iff.rfl rfl ?_
  cases ((levels.map d.times).insertionSort (· ≤ ·)).getLast? with
  | none => rfl
  | some top =>
    cases strengthReference b kw (j + 1 - n) with
    | none => rfl
    | some m =>
      simp only [apply_ite Result.mirrored]
      refine if_congr Iff.rfl rfl ?_
      symm
      exact (rules_mirrored _ _ top m tol n j d s kw _ _).symm

/-! ## The best window -/

theorem filter_ok_mirrored (res : List Result) :
    (res.map Result.mirrored).filter Result.ok = (res.filter Result.ok).map Result.mirrored := by
  rw [List.filter_map]
  rfl

theorem bestOf_mirrored (res : List Result) : bestOf (res.map Result.mirrored) = (bestOf res).map Result.mirrored := by
  unfold bestOf
  rw [filter_ok_mirrored, List.isEmpty_map]
  split
  · exact maxBy_map (fun _ => rfl) res
  · exact maxBy_map (fun _ => rfl) _

section Evaluate

variable (b : Bars) (j : Nat) (d : Direction) (levels : List ℚ) (tol : ℚ) (s : Settings) (kw : Extras)

theorem windows_mirrored (nmax : Nat) :
    windows b.mirrored d.opposite (levels.map fun x => -x) tol s kw.mirrored j nmax =
      (windows b d levels tol s kw j nmax).map Result.mirrored := by
  simp only [windows, List.map_map]
  apply List.map_congr_left
  intro n _
  exact evaluateWindow_mirrored b j n d levels tol s kw

theorem any_ok_mirrored (res : List Result) : (res.map Result.mirrored).any Result.ok = res.any Result.ok := by
  rw [List.any_map]
  rfl

theorem carried_mirrored (k nmax : Nat) :
    carried b.mirrored j d.opposite (levels.map fun x => -x) tol s kw.mirrored k nmax =
      (carried b j d levels tol s kw k nmax).map Result.mirrored := by
  unfold carried
  rw [List.map_filterMap]
  apply List.filterMap_congr
  intro n _
  simp only [evaluateWindow_mirrored, composite_mirrored, apply_ite (Option.map Result.mirrored)]
  rfl

/-- A distance from one price to a later one, in the direction of the trade. -/
theorem toward_mirrored (x y : ℚ) : d.opposite.times (-x - -y) = d.times (x - y) := by
  rw [times_opposite, ← times_neg]
  congr 1
  ring

theorem followthroughFrom_mirrored (nmax left k : Nat) :
    followthroughFrom b.mirrored j d.opposite (levels.map fun x => -x) tol s kw.mirrored nmax left k =
      (followthroughFrom b j d levels tol s kw nmax left k).map Result.mirrored := by
  induction left generalizing k with
  | zero => rfl
  | succ left ih =>
    have beyond := inv_mirrored kw d fun inv => (List.range' (j - k + 1) k).any fun x => d.times (b.c x) ≤ inv
    have closes : ∀ x, d.opposite.times (b.mirrored.c x) = d.times (b.c x) := fun x => by simp [Bars.mirrored]
    have moved : d.opposite.times (b.mirrored.c j - b.mirrored.c (j - k)) = d.times (b.c j - b.c (j - k)) :=
      toward_mirrored d _ _
    simp only [followthroughFrom, closes, moved, beyond, windows_mirrored, any_ok_mirrored, carried_mirrored, ih,
      apply_ite (List.map Result.mirrored), List.map_append, List.map_nil]

theorem added_mirrored :
    added b.mirrored j d.opposite (levels.map fun x => -x) tol s kw.mirrored =
      (added b j d levels tol s kw).map Result.mirrored := by
  have moved : d.opposite.times (b.mirrored.c j - b.mirrored.o j) = d.times (b.c j - b.o j) := toward_mirrored d _ _
  unfold added
  cases s.followthroughMode with
  | legacy =>
    simp only [moved, evaluateWindow_mirrored, apply_ite (List.map Result.mirrored), List.map_nil]
    rfl
  | addendum =>
    simp only [followthrough, followthroughFrom_mirrored, apply_ite (List.map Result.mirrored), List.map_nil]
    rfl

theorem evaluate_mirrored :
    evaluate b.mirrored j d.opposite (levels.map fun x => -x) tol s kw.mirrored =
      (evaluate b j d levels tol s kw).map Result.mirrored := by
  unfold evaluate
  rw [windows_mirrored, added_mirrored, ← List.map_append, bestOf_mirrored]

end Evaluate

/-! ## The score mode -/

section Score

variable (f : Frame) (n : Nat) (level : ℚ) (d : Direction) (s : Settings)

@[simp] theorem length_mirrorFrame : (mirrorFrame f).length = f.length := List.length_map _

/-- A column of the mirrored frame, of a value that the mirror negates. -/
theorem column_mirrored {x y : SwingBar → ℚ} (negated : ∀ bar, x (mirrorBar bar) = -y bar) (i : Nat) :
    ((mirrorFrame f)[i]?.map x).getD 0 = -(f[i]?.map y).getD 0 := by
  rw [mirrorFrame, List.getElem?_map]
  cases f[i]? with
  | none => exact neg_zero.symm
  | some bar => exact negated bar

@[simp] theorem open_mirrored (i : Nat) : open_ (mirrorFrame f) i = -open_ f i := column_mirrored f (fun _ => rfl) i

@[simp] theorem high_mirrored (i : Nat) : high (mirrorFrame f) i = -low f i := column_mirrored f (fun _ => rfl) i

@[simp] theorem low_mirrored (i : Nat) : low (mirrorFrame f) i = -high f i := column_mirrored f (fun _ => rfl) i

@[simp] theorem close_mirrored (i : Nat) : close (mirrorFrame f) i = -close f i := column_mirrored f (fun _ => rfl) i

theorem timestamp_mirrored (i : Nat) : (mirrorFrame f)[i]?.map SwingBar.timestamp = f[i]?.map SwingBar.timestamp := by
  rw [mirrorFrame, List.getElem?_map, Option.map_map]
  rfl

theorem range_mirrored (i : Nat) :
    high (mirrorFrame f) i - low (mirrorFrame f) i = high f i - low f i := by
  rw [high_mirrored, low_mirrored]
  ring

theorem barsOf_mirrored (m : Nat) : barsOf (mirrorFrame f) m = (barsOf f m).mirrored := by
  simp only [barsOf, Bars.mirrored, Breaks.medianRange, range_mirrored, length_mirrorFrame]
  congr 1 <;>
    · funext i
      simp

theorem medianBefore_mirrored : medianBefore (mirrorFrame f) n s = medianBefore f n s := by
  simp only [medianBefore, ranges, length_mirrorFrame, range_mirrored]
  rfl

theorem timedComposite_mirrored (a j : Nat) :
    timedComposite (mirrorFrame f) a j = (timedComposite f a j).mirrored := by
  have highs : high (mirrorFrame f) = fun i => -low f i := funext (high_mirrored f)
  have lows : low (mirrorFrame f) = fun i => -high f i := funext (low_mirrored f)
  simp only [timedComposite, TimedComposite.mirrored, Composite.mirrored, open_mirrored, close_mirrored, highs, lows,
    highest_neg, lowest_neg, timestamp_mirrored]

theorem closesOf_mirrored (a j : Nat) : closesOf (mirrorFrame f) a j d.opposite = closesOf f a j d := by
  unfold closesOf
  apply List.map_congr_left
  intro i _
  simp

theorem scoreLabel_mirrored (sweep : Bool) : scoreLabel n sweep d.opposite = (scoreLabel n sweep d).mirrored := by
  unfold scoreLabel
  simp only [apply_ite Label.mirrored]
  cases d <;> rfl

theorem scoreParts_mirrored (o h l c lv med : ℚ) (closes : List ℚ) (closeLoc : ℚ) (out : ScoreResult) :
    scoreParts o h l c lv med closes n d.opposite s closeLoc out.mirrored =
      (scoreParts o h l c lv med closes n d s closeLoc out).map ScoreResult.mirrored := by
  unfold scoreParts
  simp only [scoreLabel_mirrored]
  cases divide (min o c - l) (h - l) with
  | none => rfl
  | some wick =>
    cases divide ((c - l) / med) s.scoreBounceFullMr with
    | none => rfl
    | some bounce =>
      simp only [Option.bind_eq_bind, Option.bind_some, apply_ite (Option.map ScoreResult.mirrored)]
      rfl

/-- The last candle closes in the direction of the trade. -/
theorem lastWith_mirrored (j : Nat) :
    (if d.opposite = .bullish then open_ (mirrorFrame f) j < close (mirrorFrame f) j
      else close (mirrorFrame f) j < open_ (mirrorFrame f) j) ↔
      (if d = .bullish then open_ f j < close f j else close f j < open_ f j) := by
  cases d <;> simp [Direction.opposite]

theorem scoreWindow_mirrored :
    scoreWindow (mirrorFrame f) n (-level) d.opposite s = (scoreWindow f n level d s).map ScoreResult.mirrored := by
  unfold scoreWindow
  have highs : ∀ timed : TimedComposite,
      d.opposite.times (if d.opposite = .bullish then timed.mirrored.comp.h else timed.mirrored.comp.l) =
        d.times (if d = .bullish then timed.comp.h else timed.comp.l) := by
    intro timed
    cases d <;> simp [Direction.opposite, Direction.times, TimedComposite.mirrored, Composite.mirrored]
  have lows : ∀ timed : TimedComposite,
      d.opposite.times (if d.opposite = .bullish then timed.mirrored.comp.l else timed.mirrored.comp.h) =
        d.times (if d = .bullish then timed.comp.l else timed.comp.h) := by
    intro timed
    cases d <;> simp [Direction.opposite, Direction.times, TimedComposite.mirrored, Composite.mirrored]
  have opens : ∀ timed : TimedComposite, d.opposite.times timed.mirrored.comp.o = d.times timed.comp.o := by
    intro timed
    simp [TimedComposite.mirrored, Composite.mirrored]
  have closes : ∀ timed : TimedComposite, d.opposite.times timed.mirrored.comp.c = d.times timed.comp.c := by
    intro timed
    simp [TimedComposite.mirrored, Composite.mirrored]
  have level' : d.opposite.times (-level) = d.times level := by simp
  simp only [length_mirrorFrame, medianBefore_mirrored, timedComposite_mirrored, highs, lows, opens,
    closes, level', abs_neg,
    lastWith_mirrored, closesOf_mirrored, apply_ite (Option.map ScoreResult.mirrored)]
  refine if_congr Iff.rfl rfl (if_congr Iff.rfl rfl (if_congr Iff.rfl rfl (if_congr Iff.rfl rfl (if_congr Iff.rfl rfl
    (if_congr Iff.rfl rfl (if_congr Iff.rfl rfl ?_))))))
  symm
  exact (scoreParts_mirrored n d s _ _ _ _ _ _ _ _ _).symm

theorem mirrorFrame_dropLast : (mirrorFrame f).dropLast = mirrorFrame f.dropLast := List.map_dropLast.symm

theorem scoreAdded_mirrored :
    scoreAdded (mirrorFrame f) (-level) d.opposite s =
      (scoreAdded f level d s).map fun more => more.map ScoreResult.mirrored := by
  unfold scoreAdded
  simp only [length_mirrorFrame, mirrorFrame_dropLast, scoreWindow_mirrored, lastWith_mirrored]
  split
  · cases scoreWindow f.dropLast s.scoreSpeed.length level d s with
    | none => rfl
    | some prev =>
      cases scoreWindow f (s.scoreSpeed.length + 1) level d s with
      | none =>
        simp only [Option.map_some, Option.map_none, Option.bind_eq_bind, Option.bind_some, Option.bind_none,
          apply_ite (Option.map _)]
        rfl
      | some more =>
        simp only [Option.map_some, Option.bind_eq_bind, Option.bind_some, apply_ite (Option.map _)]
        rfl
  · rfl

theorem bestScored_mirrored (res : List ScoreResult) :
    bestScored (res.map ScoreResult.mirrored) = (bestScored res).map ScoreResult.mirrored := by
  have passing :
      (res.map ScoreResult.mirrored).filter ScoreResult.ok = (res.filter ScoreResult.ok).map ScoreResult.mirrored := by
    rw [List.filter_map]
    rfl
  unfold bestScored
  rw [passing, List.isEmpty_map]
  split
  · exact maxBy_map (fun _ => rfl) res
  · exact maxBy_map (fun _ => rfl) _

theorem scoreWindows_mirrored (sizes : List Nat) :
    (sizes.mapM fun n => scoreWindow (mirrorFrame f) n (-level) d.opposite s) =
      (sizes.mapM fun n => scoreWindow f n level d s).map (List.map ScoreResult.mirrored) := by
  induction sizes with
  | nil => rfl
  | cons n sizes ih =>
    rw [List.mapM_cons, List.mapM_cons, scoreWindow_mirrored, ih]
    cases scoreWindow f n level d s with
    | none => rfl
    | some r => cases sizes.mapM fun n => scoreWindow f n level d s <;> rfl

theorem scoreRejection_mirrored :
    scoreRejection (mirrorFrame f) (-level) d.opposite s = (scoreRejection f level d s).map ScoreResult.mirrored := by
  unfold scoreRejection
  rw [scoreWindows_mirrored, scoreAdded_mirrored]
  cases (List.range' 1 s.scoreSpeed.length).mapM fun n => scoreWindow f n level d s with
  | none => rfl
  | some results =>
    cases scoreAdded f level d s with
    | none => rfl
    | some more =>
      simp only [Option.map_some, Option.bind_eq_bind, Option.bind_some, ← List.map_append, bestScored_mirrored]

end Score

/-- Every evaluation of mirrored candles in the other direction is the mirror of the evaluation of the
candles, on any bars and with any reference for the strength, in both modes; and the mirrored candles have
the same median ranges. -/
theorem reversal_mirror (b : Bars) (f : Frame) (j : Nat) (d : Direction) (levels : List ℚ)
    (level tol : ℚ) (s : Settings) (kw : Extras) :
    evaluate b.mirrored j d.opposite (levels.map fun x => -x) tol s kw.mirrored =
        (evaluate b j d levels tol s kw).map Result.mirrored ∧
      barsOf (mirrorFrame f) s.medianRangeN = (barsOf f s.medianRangeN).mirrored ∧
      scoreRejection (mirrorFrame f) (-level) d.opposite s = (scoreRejection f level d s).map ScoreResult.mirrored :=
  ⟨evaluate_mirrored b j d levels tol s kw, barsOf_mirrored f s.medianRangeN, scoreRejection_mirrored f level d s⟩

end AdvanceTrading.Reversal
