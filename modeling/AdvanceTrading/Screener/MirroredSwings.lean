import AdvanceTrading.PriceAction.ConfirmedSwings
import AdvanceTrading.Screener.BreakoutBars
import Mathlib.Tactic.Linarith
import Mathlib.Tactic.Ring

/-!
# Swings of mirrored bars

`mirror C` replaces every price `p` of a frame by `C - p` and swaps highs and
lows. The ZigZag runs over the mirrored bars as the mirror of its run over the
bars, but for its opening: while no swing is confirmed both sides are sought, and
of a bar that confirms a high and a low the high is taken (`causal_swings.py:134`).
The swings and the Dow trend of the mirrored bars are the mirror exactly when no
such bar opens the swings (`screener/mirror.py:12-17`, `SWING_WARMUP`).
-/

namespace AdvanceTrading.Breakouts

open PriceAction Scan

/-! ## The mirror -/

def mirrorBar (C : ℚ) (bar : SwingBar) : SwingBar where
  timestamp := bar.timestamp
  barEnd := bar.barEnd
  open_ := C - bar.open_
  high := C - bar.low
  low := C - bar.high
  close := C - bar.close

/-- The bars with every price `p` replaced by `C - p`. -/
def mirror (C : ℚ) (f : Frame) : Frame := f.map (mirrorBar C)

def mirrorKind : SwingKind → SwingKind
  | .high => .low
  | .low => .high

def mirrorPivot (C : ℚ) (p : RawPivot) : RawPivot :=
  { p with kind := mirrorKind p.kind, price := C - p.price }

def Swing.mirror (C : ℚ) (pv : Swing) : Swing :=
  { pv with kind := mirrorKind pv.kind, price := C - pv.price }

def mirrorTrend : Trend → Trend
  | .undecided => .undecided
  | .rising => .falling
  | .falling => .rising

def mirrorState (C : ℚ) (s : ZigzagState) : ZigzagState where
  trend := mirrorTrend s.trend
  hi := s.lo
  lo := s.hi
  out := s.out.map (mirrorPivot C)

def SwingLabel.mirror : SwingLabel → SwingLabel
  | .hh => .ll
  | .lh => .hl
  | .hl => .lh
  | .ll => .hh

def DowTrend.mirror : DowTrend → DowTrend
  | .up => .down
  | .down => .up
  | .range => .range

/-! ## When the opening has two sides -/

/-- The bars before `i` hold a high above those of the bars up to `i`, and bar `i` is back from it by the
threshold. -/
def FellBack (f : Frame) (thr : Nat → Option ℚ) (i : Nat) : Prop :=
  ∃ k < i, (∀ j ≤ i, high f j ≤ high f k) ∧ high f i < high f k ∧ movedBack (high f k - low f i) (thr i) = true

/-- The bars before `i` hold a low below those of the bars up to `i`, and bar `i` is back from it by the
threshold. -/
def RoseBack (f : Frame) (thr : Nat → Option ℚ) (i : Nat) : Prop :=
  ∃ k < i, (∀ j ≤ i, low f k ≤ low f j) ∧ low f k < low f i ∧ movedBack (high f i - low f k) (thr i) = true

/-- The first bar that is back from either extreme is back from both. -/
def OpensBothWays (f : Frame) (thr : Nat → Option ℚ) : Prop :=
  ∃ i < f.length, FellBack f thr i ∧ RoseBack f thr i ∧ ∀ j < i, ¬ FellBack f thr j ∧ ¬ RoseBack f thr j

/-- The swings and the Dow trend of the mirrored bars are the mirror of those of the bars. -/
structure Mirrors (C : ℚ) (f : Frame) (dowMinBars degree : Nat) (s : SwingSettings) : Prop where
  swings : modeSwings (mirror C f) degree s = (modeSwings f degree s).map (List.map (Swing.mirror C))
  dow : dow (mirror C f) dowMinBars degree s = (dow f dowMinBars degree s).map (List.map (Option.map DowTrend.mirror))

/-! ## Prices and thresholds -/

variable {C : ℚ} {f : Frame} {thr thr' : Nat → Option ℚ} {i k : Nat} {s : ZigzagState}

@[simp] theorem length_mirror : (mirror C f).length = f.length := List.length_map _

theorem high_mirror (inside : i < f.length) : high (mirror C f) i = C - low f i := by
  simp [high, low, mirror, mirrorBar, inside]

theorem low_mirror (inside : i < f.length) : low (mirror C f) i = C - high f i := by
  simp [high, low, mirror, mirrorBar, inside]

theorem close_mirror (inside : i < f.length) : close (mirror C f) i = C - close f i := by
  simp [close, mirror, mirrorBar, inside]

theorem trueRange_mirror (inside : i < f.length) : trueRange (mirror C f) i = trueRange f i := by
  cases i with
  | zero =>
    simp only [trueRange]
    rw [high_mirror inside, low_mirror inside]
    ring
  | succ i =>
    have before : i < f.length := Nat.lt_of_succ_lt inside
    have range : C - low f (i + 1) - (C - high f (i + 1)) = high f (i + 1) - low f (i + 1) := by ring
    have above : |C - low f (i + 1) - (C - close f i)| = |low f (i + 1) - close f i| := by
      rw [abs_sub_comm]
      congr 1
      ring
    have below : |C - high f (i + 1) - (C - close f i)| = |high f (i + 1) - close f i| := by
      rw [abs_sub_comm]
      congr 1
      ring
    simp only [trueRange]
    rw [high_mirror inside, low_mirror inside, close_mirror before, range, above, below,
      max_comm |low f (i + 1) - close f i|]

theorem atr_mirror {n : Nat} (inside : i < f.length) : atr (mirror C f) n i = atr f n i := by
  have ranges : (List.range n).map (fun k => trueRange (mirror C f) (i - k)) =
      (List.range n).map fun k => trueRange f (i - k) :=
    List.map_congr_left fun k _ => trueRange_mirror (by omega)
  unfold atr
  rw [ranges]

theorem highestBar_mirror {a b : Nat} (nonempty : a < b) (inside : b ≤ f.length) :
    highestBar (mirror C f) a b = lowestBar f a b := by
  refine argmax_order_congr nonempty fun i j upper upper' => ?_
  rw [high_mirror (by omega), high_mirror (by omega)]
  exact (sub_lt_sub_iff_left C).trans neg_lt_neg_iff.symm

theorem lowestBar_mirror {a b : Nat} (nonempty : a < b) (inside : b ≤ f.length) :
    lowestBar (mirror C f) a b = highestBar f a b := by
  refine argmax_order_congr nonempty fun i j upper upper' => ?_
  rw [low_mirror (by omega), low_mirror (by omega), neg_lt_neg_iff]
  exact sub_lt_sub_iff_left C

/-! ## The run over the mirrored bars -/

/-- The high the loop seeks, with bar `i` seen. -/
def seekHigh (f : Frame) (s : ZigzagState) (i : Nat) : Nat :=
  if s.trend ≠ .falling ∧ high f s.hi ≤ high f i then i else s.hi

/-- The low the loop seeks, with bar `i` seen. -/
def seekLow (f : Frame) (s : ZigzagState) (i : Nat) : Nat :=
  if s.trend ≠ .rising ∧ low f i ≤ low f s.lo then i else s.lo

def ConfirmsHigh (f : Frame) (thr : Nat → Option ℚ) (s : ZigzagState) (i : Nat) : Prop :=
  s.trend ≠ .falling ∧ seekHigh f s i < i ∧ movedBack (high f (seekHigh f s i) - low f i) (thr i) = true

def ConfirmsLow (f : Frame) (thr : Nat → Option ℚ) (s : ZigzagState) (i : Nat) : Prop :=
  s.trend ≠ .rising ∧ seekLow f s i < i ∧ movedBack (high f i - low f (seekLow f s i)) (thr i) = true

theorem zigzagStep_high (confirms : ConfirmsHigh f thr s i) :
    zigzagStep f thr s i =
      { trend := .falling
        hi := seekHigh f s i
        lo := lowestBar f (seekHigh f s i + 1) (i + 1)
        out := s.out ++ [⟨.high, seekHigh f s i, i, high f (seekHigh f s i)⟩] } :=
  if_pos confirms

theorem zigzagStep_low (passes : ¬ ConfirmsHigh f thr s i) (confirms : ConfirmsLow f thr s i) :
    zigzagStep f thr s i =
      { trend := .rising
        hi := highestBar f (seekLow f s i + 1) (i + 1)
        lo := seekLow f s i
        out := s.out ++ [⟨.low, seekLow f s i, i, low f (seekLow f s i)⟩] } :=
  (if_neg passes).trans (if_pos confirms)

theorem zigzagStep_neither (passes : ¬ ConfirmsHigh f thr s i) (passes' : ¬ ConfirmsLow f thr s i) :
    zigzagStep f thr s i = { s with hi := seekHigh f s i, lo := seekLow f s i } :=
  (if_neg passes).trans (if_neg passes')

theorem seekHigh_le (le : s.hi ≤ i) : seekHigh f s i ≤ i := by
  unfold seekHigh
  split <;> omega

theorem seekLow_le (le : s.lo ≤ i) : seekLow f s i ≤ i := by
  unfold seekLow
  split <;> omega

theorem mirrorTrend_ne_falling {trend : Trend} : mirrorTrend trend ≠ .falling ↔ trend ≠ .rising := by
  cases trend <;> decide

theorem mirrorTrend_ne_rising {trend : Trend} : mirrorTrend trend ≠ .rising ↔ trend ≠ .falling := by
  cases trend <;> decide

theorem seekHigh_mirror (inside : i < f.length) (lo_le : s.lo ≤ i) :
    seekHigh (mirror C f) (mirrorState C s) i = seekLow f s i := by
  refine if_congr (and_congr mirrorTrend_ne_falling ?_) rfl rfl
  show high (mirror C f) s.lo ≤ high (mirror C f) i ↔ _
  rw [high_mirror inside, high_mirror (by omega)]
  exact sub_le_sub_iff_left C

theorem seekLow_mirror (inside : i < f.length) (hi_le : s.hi ≤ i) :
    seekLow (mirror C f) (mirrorState C s) i = seekHigh f s i := by
  refine if_congr (and_congr mirrorTrend_ne_rising ?_) rfl rfl
  show low (mirror C f) i ≤ low (mirror C f) s.hi ↔ _
  rw [low_mirror inside, low_mirror (by omega)]
  exact sub_le_sub_iff_left C

theorem confirmsHigh_mirror (inside : i < f.length) (lo_le : s.lo ≤ i) (same : thr' i = thr i) :
    ConfirmsHigh (mirror C f) thr' (mirrorState C s) i ↔ ConfirmsLow f thr s i := by
  have bound := seekLow_le (f := f) lo_le
  unfold ConfirmsHigh ConfirmsLow
  rw [seekHigh_mirror inside lo_le, high_mirror (by omega), low_mirror inside, sub_sub_sub_cancel_left, same]
  exact and_congr_left' mirrorTrend_ne_falling

theorem confirmsLow_mirror (inside : i < f.length) (hi_le : s.hi ≤ i) (same : thr' i = thr i) :
    ConfirmsLow (mirror C f) thr' (mirrorState C s) i ↔ ConfirmsHigh f thr s i := by
  have bound := seekHigh_le (f := f) hi_le
  unfold ConfirmsHigh ConfirmsLow
  rw [seekLow_mirror inside hi_le, high_mirror inside, low_mirror (by omega), sub_sub_sub_cancel_left, same]
  exact and_congr_left' mirrorTrend_ne_rising

/-- A bar that does not confirm both sides is taken as its mirror is. -/
theorem zigzagStep_mirror (inside : i < f.length) (hi_le : s.hi ≤ i) (lo_le : s.lo ≤ i)
    (same : thr' i = thr i) (one : ¬ (ConfirmsHigh f thr s i ∧ ConfirmsLow f thr s i)) :
    zigzagStep (mirror C f) thr' (mirrorState C s) i = mirrorState C (zigzagStep f thr s i) := by
  have high_iff := confirmsHigh_mirror (C := C) (s := s) inside lo_le same
  have low_iff := confirmsLow_mirror (C := C) (s := s) inside hi_le same
  have high_bound := seekHigh_le (f := f) hi_le
  have low_bound := seekLow_le (f := f) lo_le
  by_cases up : ConfirmsHigh f thr s i
  · have down : ¬ ConfirmsLow f thr s i := fun down => one ⟨up, down⟩
    have before := up.2.1
    rw [zigzagStep_high up, zigzagStep_low (fun up' => down (high_iff.mp up')) (low_iff.mpr up),
      seekLow_mirror inside hi_le, highestBar_mirror (by omega) (by omega), low_mirror (by omega)]
    simp [mirrorState, mirrorPivot, mirrorTrend, mirrorKind]
  · by_cases down : ConfirmsLow f thr s i
    · have before := down.2.1
      rw [zigzagStep_low up down, zigzagStep_high (high_iff.mpr down), seekHigh_mirror inside lo_le,
        lowestBar_mirror (by omega) (by omega), high_mirror (by omega)]
      simp [mirrorState, mirrorPivot, mirrorTrend, mirrorKind]
    · rw [zigzagStep_neither up down,
        zigzagStep_neither (fun up' => down (high_iff.mp up')) fun down' => up (low_iff.mp down'),
        seekHigh_mirror inside lo_le, seekLow_mirror inside hi_le]
      rfl

/-! ## The opening -/

theorem fellBack_mirror (inside : i < f.length) (same : thr' i = thr i) :
    FellBack (mirror C f) thr' i ↔ RoseBack f thr i := by
  refine exists_congr fun k => and_congr_right fun before => ?_
  rw [high_mirror inside, high_mirror (by omega), low_mirror inside, same, sub_sub_sub_cancel_left, sub_lt_sub_iff_left]
  refine and_congr_left fun _ => forall₂_congr fun j le => ?_
  rw [high_mirror (by omega), sub_le_sub_iff_left]

theorem roseBack_mirror (inside : i < f.length) (same : thr' i = thr i) :
    RoseBack (mirror C f) thr' i ↔ FellBack f thr i := by
  refine exists_congr fun k => and_congr_right fun before => ?_
  rw [low_mirror inside, low_mirror (by omega), high_mirror inside, same, sub_sub_sub_cancel_left, sub_lt_sub_iff_left]
  refine and_congr_left fun _ => forall₂_congr fun j le => ?_
  rw [low_mirror (by omega), sub_le_sub_iff_left]

theorem OpensBothWays.mirror (opens : OpensBothWays f thr) (same : ∀ i < f.length, thr' i = thr i) :
    OpensBothWays (Breakouts.mirror C f) thr' := by
  obtain ⟨i, inside, fell, rose, first⟩ := opens
  refine ⟨i, by rwa [length_mirror], (fellBack_mirror inside (same i inside)).mpr rose,
    (roseBack_mirror inside (same i inside)).mpr fell, ?_⟩
  intro j before
  have inside_j : j < f.length := before.trans inside
  rw [fellBack_mirror inside_j (same j inside_j), roseBack_mirror inside_j (same j inside_j)]
  exact (first j before).symm

/-- While both sides are sought, the high is confirmed by a bar back from the highest. -/
theorem confirmsHigh_iff (undecided : s.trend = .undecided) (tracked : Greatest (high f) 0 k s.hi) :
    ConfirmsHigh f thr s (k + 1) ↔ FellBack f thr (k + 1) := by
  have last := tracked.last
  have seek : seekHigh f s (k + 1) = if high f s.hi ≤ high f (k + 1) then k + 1 else s.hi := by
    unfold seekHigh
    simp [undecided]
  unfold ConfirmsHigh
  rw [seek]
  constructor
  · rintro ⟨-, before, moved⟩
    split at before
    case isTrue => omega
    case isFalse below =>
      rw [if_neg below] at moved
      refine ⟨s.hi, before, ?_, not_le.mp below, moved⟩
      intro j le
      rcases Nat.lt_or_eq_of_le le with earlier | rfl
      · exact tracked.bound j (Nat.zero_le j) (Nat.le_of_lt_succ earlier)
      · exact (not_le.mp below).le
  · rintro ⟨m, before, top, below, moved⟩
    have same : high f m = high f s.hi :=
      le_antisymm (tracked.bound m (Nat.zero_le m) (Nat.le_of_lt_succ before)) (top s.hi (by omega))
    rw [same] at below moved
    rw [if_neg (not_le.mpr below)]
    exact ⟨by simp [undecided], by omega, moved⟩

theorem confirmsLow_iff (undecided : s.trend = .undecided) (tracked : Greatest (fun j => -low f j) 0 k s.lo)
    (inside : k + 1 < f.length) : ConfirmsLow f thr s (k + 1) ↔ RoseBack f thr (k + 1) := by
  have last := tracked.last
  have turned : Greatest (high (mirror 0 f)) 0 k (mirrorState 0 s).hi := by
    refine ⟨tracked.first, last, fun j lower upper => ?_⟩
    show high (mirror 0 f) j ≤ high (mirror 0 f) s.lo
    rw [high_mirror (by omega), high_mirror (by omega), zero_sub, zero_sub]
    exact tracked.bound j lower upper
  have still : (mirrorState 0 s).trend = .undecided := by
    show mirrorTrend s.trend = .undecided
    rw [undecided]
    rfl
  rw [← confirmsHigh_mirror (C := 0) inside (by omega : s.lo ≤ k + 1) (rfl : thr (k + 1) = thr (k + 1)),
    confirmsHigh_iff still turned, fellBack_mirror inside rfl]

/-- No bar up to `k` is back from an extreme of the bars before it. -/
def Unopened (f : Frame) (thr : Nat → Option ℚ) (k : Nat) : Prop :=
  ∀ j ≤ k, ¬ FellBack f thr j ∧ ¬ RoseBack f thr j

theorem unopened_succ :
    Unopened f thr (k + 1) ↔ Unopened f thr k ∧ ¬ FellBack f thr (k + 1) ∧ ¬ RoseBack f thr (k + 1) := by
  constructor
  · exact fun none_back => ⟨fun j le => none_back j (Nat.le_succ_of_le le), none_back (k + 1) le_rfl⟩
  · rintro ⟨before, here⟩ j le
    rcases Nat.lt_or_eq_of_le le with earlier | rfl
    · exact before j (Nat.le_of_lt_succ earlier)
    · exact here

/-- The first swing decides the trend for good. -/
theorem zigzagStep_decided (decided : s.trend ≠ .undecided) : (zigzagStep f thr s i).trend ≠ .undecided := by
  by_cases up : ConfirmsHigh f thr s i
  · rw [zigzagStep_high up]
    exact Trend.noConfusion
  · by_cases down : ConfirmsLow f thr s i
    · rw [zigzagStep_low up down]
      exact Trend.noConfusion
    · rw [zigzagStep_neither up down]
      exact decided

/-- What the bar after an undecided loop confirms. -/
theorem confirms_of_undecided (inside : k + 1 < f.length)
    (undecided : (zigzagLoop f thr k).trend = .undecided) (empty : (zigzagLoop f thr k).out = []) :
    (ConfirmsHigh f thr (zigzagLoop f thr k) (k + 1) ↔ FellBack f thr (k + 1)) ∧
      (ConfirmsLow f thr (zigzagLoop f thr k) (k + 1) ↔ RoseBack f thr (k + 1)) := by
  have inv : ZigzagInv f k (zigzagLoop f thr k) := zigzagLoop_inv (by omega)
  have high_sought := (inv.seeksHigh (by simp [undecided])).tracked
  have low_sought := (inv.seeksLow (by simp [undecided])).tracked
  rw [empty] at high_sought low_sought
  exact ⟨confirmsHigh_iff undecided high_sought, confirmsLow_iff undecided low_sought inside⟩

/-- The loop is undecided just until a bar is back from an extreme, and has no swing until then. -/
theorem undecided_iff (inside : k < f.length) :
    ((zigzagLoop f thr k).trend = .undecided ↔ Unopened f thr k) ∧
      ((zigzagLoop f thr k).trend = .undecided → (zigzagLoop f thr k).out = []) := by
  induction k with
  | zero =>
    refine ⟨iff_of_true rfl ?_, fun _ => rfl⟩
    intro j le
    obtain rfl := Nat.le_zero.mp le
    exact ⟨fun ⟨k, before, _⟩ => absurd before (Nat.not_lt_zero k),
      fun ⟨k, before, _⟩ => absurd before (Nat.not_lt_zero k)⟩
  | succ k ih =>
    obtain ⟨trend_iff, empty⟩ := ih (by omega)
    show ((zigzagStep f thr (zigzagLoop f thr k) (k + 1)).trend = .undecided ↔ _) ∧
      ((zigzagStep f thr (zigzagLoop f thr k) (k + 1)).trend = .undecided → _)
    rw [unopened_succ, ← trend_iff]
    by_cases undecided : (zigzagLoop f thr k).trend = .undecided
    · obtain ⟨high_iff, low_iff⟩ := confirms_of_undecided inside undecided (empty undecided)
      rw [← high_iff, ← low_iff]
      by_cases up : ConfirmsHigh f thr (zigzagLoop f thr k) (k + 1)
      · rw [zigzagStep_high up]
        simp [up]
      · by_cases down : ConfirmsLow f thr (zigzagLoop f thr k) (k + 1)
        · rw [zigzagStep_low up down]
          simp [down]
        · refine ⟨?_, fun _ => ?_⟩
          · rw [zigzagStep_neither up down]
            simp [up, down]
          · show (zigzagStep f thr (zigzagLoop f thr k) (k + 1)).out = []
            rw [zigzagStep_neither up down]
            exact empty undecided
    · have decided := @zigzagStep_decided f thr (k + 1) _ undecided
      exact ⟨iff_of_false decided fun both => undecided both.1, fun still => absurd still decided⟩

/-! ## The mirrored loop -/

/-- With no bar that opens both ways, the loop over the mirrored bars is the mirror of the loop. -/
theorem zigzagLoop_mirror (same : ∀ i < f.length, thr' i = thr i) (one : ¬ OpensBothWays f thr)
    (inside : k < f.length) :
    zigzagLoop (mirror C f) thr' k = mirrorState C (zigzagLoop f thr k) := by
  induction k with
  | zero => rfl
  | succ k ih =>
    have inv : ZigzagInv f k (zigzagLoop f thr k) := zigzagLoop_inv (by omega)
    show zigzagStep (mirror C f) thr' (zigzagLoop (mirror C f) thr' k) (k + 1) =
      mirrorState C (zigzagStep f thr (zigzagLoop f thr k) (k + 1))
    rw [ih (by omega)]
    refine zigzagStep_mirror inside (Nat.le_succ_of_le inv.hi_le) (Nat.le_succ_of_le inv.lo_le) (same _ inside) ?_
    rintro ⟨up, down⟩
    have undecided : (zigzagLoop f thr k).trend = .undecided := by
      have not_falling := up.1
      have not_rising := down.1
      cases trend : (zigzagLoop f thr k).trend with
      | undecided => rfl
      | rising => exact absurd trend not_rising
      | falling => exact absurd trend not_falling
    obtain ⟨trend_iff, empty⟩ := @undecided_iff f thr k (by omega)
    obtain ⟨high_iff, low_iff⟩ := confirms_of_undecided inside undecided (empty undecided)
    refine one ⟨k + 1, inside, high_iff.mp up, low_iff.mp down, ?_⟩
    exact fun j before => trend_iff.mp undecided j (Nat.le_of_lt_succ before)

/-- The swings confirmed so far stay the first ones. -/
theorem zigzagLoop_out_grows {m : Nat} (le : k ≤ m) : (zigzagLoop f thr k).out <+: (zigzagLoop f thr m).out := by
  induction m, le using Nat.le_induction with
  | base => exact List.prefix_rfl
  | succ m le ih =>
    obtain ⟨added, out_eq, -⟩ := zigzagStep_out f thr (zigzagLoop f thr m) (m + 1)
    exact ih.trans ⟨added, out_eq.symm⟩

/-- A bar that opens both ways opens the swings with a high. -/
theorem OpensBothWays.opens_high (opens : OpensBothWays f thr) :
    ∃ p rest, zigzagPivots f thr = p :: rest ∧ p.kind = .high := by
  obtain ⟨i, inside, fell, rose, first⟩ := opens
  obtain ⟨k, rfl⟩ : ∃ k, i = k + 1 := by
    obtain ⟨k, before, -⟩ := fell
    exact ⟨i - 1, by omega⟩
  obtain ⟨trend_iff, empty⟩ := @undecided_iff f thr k (by omega)
  have undecided := trend_iff.mpr fun j le => first j (Nat.lt_succ_of_le le)
  obtain ⟨high_iff, -⟩ := confirms_of_undecided inside undecided (empty undecided)
  have out : (zigzagLoop f thr (k + 1)).out =
      [⟨.high, seekHigh f (zigzagLoop f thr k) (k + 1), k + 1, high f (seekHigh f (zigzagLoop f thr k) (k + 1))⟩] := by
    show (zigzagStep f thr (zigzagLoop f thr k) (k + 1)).out = _
    rw [zigzagStep_high (high_iff.mpr fell), empty undecided]
    rfl
  have shown := @zigzagLoop_out_grows f thr (k + 1) (f.length - 1) (by omega)
  obtain ⟨rest, eq⟩ := shown
  rw [out] at eq
  exact ⟨_, rest, (if_neg (by omega)).trans eq.symm, rfl⟩

theorem zigzagSwings_mirror_iff (same : ∀ i < f.length, thr' i = thr i) :
    zigzagSwings (mirror C f) thr' = (zigzagSwings f thr).map (Swing.mirror C) ↔ ¬ OpensBothWays f thr := by
  constructor
  · intro mirrored opens
    obtain ⟨p, rest, eq, kind⟩ := opens.opens_high
    obtain ⟨p', rest', eq', kind'⟩ := (opens.mirror (C := C) same).opens_high
    unfold zigzagSwings at mirrored
    rw [eq, eq', List.map_cons, List.map_cons, List.map_cons, List.cons_eq_cons] at mirrored
    have kinds : p'.kind = mirrorKind p.kind := congrArg Swing.kind mirrored.1
    rw [kind, kind'] at kinds
    exact nomatch kinds
  · intro one
    unfold zigzagSwings zigzagPivots
    rw [length_mirror]
    by_cases short : f.length < 2
    · rw [if_pos short, if_pos short]
      rfl
    · rw [if_neg short, if_neg short, zigzagLoop_mirror same one (by omega)]
      simp [mirrorState, mirrorPivot, Swing.mirror, Swing.ofPivot]

/-! ## The Dow trend -/

def mirrorDow (C : ℚ) (d : DowState) : DowState where
  lastHigh := d.lastLow.map fun price => C - price
  lastLow := d.lastHigh.map fun price => C - price
  labelHigh := d.labelLow.map SwingLabel.mirror
  labelLow := d.labelHigh.map SwingLabel.mirror
  cur := d.cur.map DowTrend.mirror

/-- An equal swing does not extend the structure on either side. -/
theorem labelled_mirror (kind : SwingKind) (prev price : ℚ) :
    labelled (mirrorKind kind) (C - prev) (C - price) = (labelled kind prev price).mirror := by
  cases kind with
  | high =>
    simp only [labelled, mirrorKind, sub_lt_sub_iff_left]
    split <;> rfl
  | low =>
    simp only [labelled, mirrorKind, sub_lt_sub_iff_left]
    split <;> rfl

theorem trendOf_mirror (high low : SwingLabel) : trendOf low.mirror high.mirror = (trendOf high low).mirror := by
  cases high <;> cases low <;> rfl

theorem read_mirror (d : DowState) : (mirrorDow C d).read = mirrorDow C d.read := by
  unfold DowState.read
  rcases eq_high : d.labelHigh with _ | high <;> rcases eq_low : d.labelLow with _ | low <;>
    simp [mirrorDow, eq_high, eq_low, trendOf_mirror]

/-- The label a swing gives its kind, over the mirrored last swing. -/
theorem label_mirror (kind : SwingKind) (last : Option ℚ) (price : ℚ) (label : Option SwingLabel) :
    (((last.map fun prev => C - prev).map fun prev => labelled (mirrorKind kind) prev (C - price)).or
        (label.map SwingLabel.mirror)) =
      ((last.map fun prev => labelled kind prev price).or label).map SwingLabel.mirror := by
  cases last with
  | none => simp
  | some prev => simp [labelled_mirror]

theorem swing_mirror (d : DowState) (pv : Swing) : (mirrorDow C d).swing (pv.mirror C) = mirrorDow C (d.swing pv) := by
  rcases pv with ⟨kind, price, bar, confirmed⟩
  cases kind with
  | high =>
    have label := label_mirror (C := C) .high d.lastHigh price d.labelHigh
    show DowState.read _ = mirrorDow C (DowState.read _)
    rw [← read_mirror]
    congr 1
    simp only [mirrorDow]
    rw [← label]
    rfl
  | low =>
    have label := label_mirror (C := C) .low d.lastLow price d.labelLow
    show DowState.read _ = mirrorDow C (DowState.read _)
    rw [← read_mirror]
    congr 1
    simp only [mirrorDow]
    rw [← label]
    rfl

theorem known_mirror (d : DowState) (t : Nat) (piv : List Swing) :
    (mirrorDow C d).known t (piv.map (Swing.mirror C)) =
      (mirrorDow C (d.known t piv).1, (d.known t piv).2.map (Swing.mirror C)) := by
  induction piv generalizing d with
  | nil => rfl
  | cons pv rest ih =>
    have same : (pv.mirror C).confirmedIdx = pv.confirmedIdx := rfl
    simp only [List.map_cons, DowState.known, same]
    split
    · rw [swing_mirror, ih]
    · rfl

theorem dowFrom_mirror (d : DowState) (piv : List Swing) (t bars : Nat) :
    dowFrom (mirrorDow C d) (piv.map (Swing.mirror C)) t bars =
      (dowFrom d piv t bars).map (Option.map DowTrend.mirror) := by
  induction bars generalizing d piv t with
  | zero => rfl
  | succ bars ih =>
    simp only [dowFrom, known_mirror, List.map_cons, ih]
    rfl

/-! ## Exactly when -/

/-- The frame's degree has a threshold, the same over the mirrored bars, or raises either way. -/
theorem swingThreshold_mirror (C : ℚ) (f : Frame) (degree : Nat) {settings : SwingSettings}
    (atr_ : settings.swingMode = .atr) :
    (∃ e, swingThreshold f degree settings = .error e ∧ swingThreshold (mirror C f) degree settings = .error e) ∨
      ∃ thr thr', swingThreshold f degree settings = .ok thr ∧ swingThreshold (mirror C f) degree settings = .ok thr' ∧
        ∀ i < f.length, thr' i = thr i := by
  unfold swingThreshold threshold
  rw [atr_]
  cases settings.swingAtrMult[degree]? with
  | none => exact .inl ⟨_, rfl, rfl⟩
  | some mult =>
    refine .inr ⟨_, _, rfl, rfl, ?_⟩
    intro i inside
    rw [atr_mirror inside]

theorem modeSwings_atr {settings : SwingSettings} {degree : Nat} (atr_ : settings.swingMode = .atr) :
    modeSwings f degree settings = (swingThreshold f degree settings).map (zigzagSwings f) :=
  if_pos (by simp [atr_])

/-- Mirrored swings give the mirrored trend. -/
theorem dow_mirror {settings : SwingSettings} {dowMinBars degree : Nat}
    (mirrored : pivots (mirror C f) degree settings = (pivots f degree settings).map (List.map (Swing.mirror C))) :
    dow (mirror C f) dowMinBars degree settings =
      (dow f dowMinBars degree settings).map (List.map (Option.map DowTrend.mirror)) := by
  unfold dow
  rw [mirrored]
  cases pivots f degree settings with
  | error e => rfl
  | ok piv =>
    have bars := dowFrom_mirror (C := C) {} piv 0 f.length
    have start : mirrorDow C {} = {} := rfl
    rw [start] at bars
    cases dowWarm dowMinBars degree with
    | error e => rfl
    | ok warm =>
      show Except.ok _ = Except.ok _
      rw [length_mirror, bars]
      simp

/-- With the thresholds of the average true range, the swings and the Dow trend of the mirrored bars are the mirror
exactly when no bar opens the swings both ways. -/
theorem mirrors_iff (C : ℚ) (f : Frame) (dowMinBars degree : Nat) (settings : SwingSettings)
    (atr_ : settings.swingMode = .atr) :
    Mirrors C f dowMinBars degree settings ↔
      ∀ thr, swingThreshold f degree settings = .ok thr → ¬ OpensBothWays f thr := by
  constructor
  · intro mirrored thr known
    rcases swingThreshold_mirror C f degree atr_ with ⟨e, error, -⟩ | ⟨thr', thr'', known', mirror_known, same⟩
    · rw [error] at known
      exact nomatch known
    · obtain rfl := Except.ok.inj (known.symm.trans known')
      have swings := mirrored.swings
      rw [modeSwings_atr atr_, modeSwings_atr atr_, known, mirror_known] at swings
      exact (zigzagSwings_mirror_iff same).mp (Except.ok.inj swings)
  · intro one
    have swings : modeSwings (mirror C f) degree settings =
        (modeSwings f degree settings).map (List.map (Swing.mirror C)) := by
      rw [modeSwings_atr atr_, modeSwings_atr atr_]
      rcases swingThreshold_mirror C f degree atr_ with ⟨e, error, error'⟩ | ⟨thr, thr', known, known', same⟩
      · rw [error, error']
        rfl
      · rw [known, known']
        exact congrArg Except.ok ((zigzagSwings_mirror_iff same).mpr (one thr known))
    refine ⟨swings, dow_mirror ?_⟩
    unfold pivots
    rw [length_mirror, swings]
    split
    · rfl
    · split
      · rfl
      · cases modeSwings f degree settings <;> rfl

/-- The first bar holds every price of the next thirteen well inside its range. -/
def wideFirstBar : Frame := fiveMinuteBars ((100, 0) :: List.replicate 13 (55, 45))

theorem mirrors_iff_wideFirstBar : (defaultSwings .atr).swingMode = .atr ∧
    (Mirrors 100 wideFirstBar 40 0 (defaultSwings .atr) ↔
      ∀ thr, swingThreshold wideFirstBar 0 (defaultSwings .atr) = .ok thr → ¬ OpensBothWays wideFirstBar thr) :=
  ⟨rfl, mirrors_iff 100 wideFirstBar 40 0 (defaultSwings .atr) rfl⟩

/-- At the fourteenth bar the average range is known, and the bar confirms the first high and the first low. -/
theorem wideFirstBar_opens : ¬ Mirrors 100 wideFirstBar 40 0 (defaultSwings .atr) := by
  intro mirrored
  exact absurd mirrored.swings (by decide +kernel)

end AdvanceTrading.Breakouts
