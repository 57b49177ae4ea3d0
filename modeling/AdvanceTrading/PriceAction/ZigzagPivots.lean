import AdvanceTrading.PriceAction.CausalSwings

/-!
# What the ZigZag loop keeps

The loop tracks the greatest high and the least low since the last pivot's bar,
as long as its trend looks for that side. A pivot is the tracked extreme of the
bar that confirms it, so it is the extreme of every bar since the pivot before
it. Nothing here depends on the thresholds, which only say when to confirm.
-/

namespace AdvanceTrading.PriceAction

open Scan

/-- What a side looks for the greatest of: the highs, or the lows turned over. -/
def reach (f : Frame) : SwingKind → Nat → ℚ
  | .high, i => high f i
  | .low, i => -low f i

/-- The price of a side at a bar. -/
def priceAt (f : Frame) : SwingKind → Nat → ℚ
  | .high, i => high f i
  | .low, i => low f i

/-- The first bar after the pivot before, the first bar of all where there is none. -/
def fromBar (previous : Option RawPivot) : Nat := previous.elim 0 fun q => q.pivotBar + 1

/-- A pivot after the one before it: the other side, a later bar, known later than its own
bar, and of its side's prices the extreme from the bar after the previous pivot's to the bar
that confirms it. -/
structure Confirms (f : Frame) (previous : Option RawPivot) (p : RawPivot) : Prop where
  other : ∀ q ∈ previous, q.kind ≠ p.kind
  later : fromBar previous ≤ p.pivotBar
  known : p.pivotBar < p.confirmBar
  inside : p.confirmBar < f.length
  price : p.price = priceAt f p.kind p.pivotBar
  extreme : ∀ j, fromBar previous ≤ j → j ≤ p.confirmBar → reach f p.kind j ≤ reach f p.kind p.pivotBar

/-- The side's extreme since the last pivot, up to bar `k`, and the last pivot is of the other side. -/
structure Seeks (f : Frame) (kind : SwingKind) (k idx : Nat) (out : List RawPivot) : Prop where
  other : ∀ q ∈ out.getLast?, q.kind ≠ kind
  tracked : Greatest (reach f kind) (fromBar out.getLast?) k idx

variable {f : Frame} {thr : Nat → Option ℚ} {k idx : Nat} {out : List RawPivot}

/-- The tracked extreme, once confirmed, follows the last pivot. -/
theorem Seeks.confirms {kind : SwingKind} (seeks : Seeks f kind k idx out) (before : idx < k)
    (inside : k < f.length) : Confirms f out.getLast? ⟨kind, idx, k, priceAt f kind idx⟩ where
  other := seeks.other
  later := seeks.tracked.first
  known := before
  inside := inside
  price := rfl
  extreme := seeks.tracked.bound

theorem Seeks.advance {kind : SwingKind} (seeks : Seeks f kind k idx out) :
    Seeks f kind (k + 1) (if reach f kind idx ≤ reach f kind (k + 1) then k + 1 else idx) out := by
  refine ⟨seeks.other, seeks.tracked.advance ?_⟩
  have first := seeks.tracked.first
  have last := seeks.tracked.last
  omega

/-- After a pivot the other side is sought from the bar after it. -/
theorem Seeks.reseed {p : RawPivot} {kind : SwingKind} (other : p.kind ≠ kind) (before : p.pivotBar < k) :
    Seeks f kind k (argmax (reach f kind) (p.pivotBar + 1) (k + 1)) (out ++ [p]) := by
  rw [← List.concat_eq_append]
  constructor
  · simpa using other
  · simpa [fromBar] using argmax_greatest (reach f kind) before

/-- After bar `k` the loop's pivots follow one another, and each side its trend allows is tracked. -/
structure ZigzagInv (f : Frame) (k : Nat) (s : ZigzagState) : Prop where
  linked : Linked (Confirms f) none s.out
  seeksHigh : s.trend ≠ .falling → Seeks f .high k s.hi s.out
  seeksLow : s.trend ≠ .rising → Seeks f .low k s.lo s.out
  hi_le : s.hi ≤ k
  lo_le : s.lo ≤ k

theorem zigzagInv_start : ZigzagInv f 0 {} where
  linked := trivial
  seeksHigh := fun _ => ⟨by simp, .single _ 0⟩
  seeksLow := fun _ => ⟨by simp, .single _ 0⟩
  hi_le := le_refl 0
  lo_le := le_refl 0

/-- One bar keeps the invariant. -/
theorem ZigzagInv.step {s : ZigzagState} (inv : ZigzagInv f k s) (inside : k + 1 < f.length) :
    ZigzagInv f (k + 1) (zigzagStep f thr s (k + 1)) := by
  have high_sought : s.trend ≠ .falling → Seeks f .high (k + 1)
      (if s.trend ≠ .falling ∧ high f s.hi ≤ high f (k + 1) then k + 1 else s.hi) s.out := by
    intro sought
    rw [if_congr (and_iff_right sought) rfl rfl]
    exact (inv.seeksHigh sought).advance
  have low_sought : s.trend ≠ .rising → Seeks f .low (k + 1)
      (if s.trend ≠ .rising ∧ low f (k + 1) ≤ low f s.lo then k + 1 else s.lo) s.out := by
    intro sought
    rw [if_congr ((and_iff_right sought).trans neg_le_neg_iff.symm) rfl rfl]
    exact (inv.seeksLow sought).advance
  have hi_le := inv.hi_le
  have lo_le := inv.lo_le
  unfold zigzagStep
  dsimp only
  generalize hi_eq : (if s.trend ≠ .falling ∧ high f s.hi ≤ high f (k + 1) then k + 1 else s.hi) = hi
    at high_sought ⊢
  generalize lo_eq : (if s.trend ≠ .rising ∧ low f (k + 1) ≤ low f s.lo then k + 1 else s.lo) = lo
    at low_sought ⊢
  have hi_here : hi ≤ k + 1 := by split at hi_eq <;> omega
  have lo_here : lo ≤ k + 1 := by split at lo_eq <;> omega
  split
  case isTrue confirmed =>
    obtain ⟨sought, before, -⟩ := confirmed
    have next := (high_sought sought).confirms before inside
    have low_next : Seeks f .low (k + 1) (lowestBar f (hi + 1) (k + 1 + 1))
        (s.out ++ [⟨.high, hi, k + 1, high f hi⟩]) :=
      Seeks.reseed (p := ⟨.high, hi, k + 1, high f hi⟩) (by simp) before
    exact ⟨inv.linked.snoc (by rw [Option.or_none]; exact next), by simp, fun _ => low_next, hi_here,
      low_next.tracked.last⟩
  case isFalse =>
    split
    case isTrue confirmed =>
      obtain ⟨sought, before, -⟩ := confirmed
      have next := (low_sought sought).confirms before inside
      have high_next : Seeks f .high (k + 1) (highestBar f (lo + 1) (k + 1 + 1))
          (s.out ++ [⟨.low, lo, k + 1, low f lo⟩]) :=
        Seeks.reseed (p := ⟨.low, lo, k + 1, low f lo⟩) (by simp) before
      exact ⟨inv.linked.snoc (by rw [Option.or_none]; exact next), fun _ => high_next, by simp,
        high_next.tracked.last, lo_here⟩
    case isFalse =>
      exact ⟨inv.linked, high_sought, low_sought, hi_here, lo_here⟩

theorem zigzagLoop_inv (inside : k < f.length) : ZigzagInv f k (zigzagLoop f thr k) := by
  induction k with
  | zero => exact zigzagInv_start
  | succ k ih => exact (ih (by omega)).step inside

/-- The pivots of the ZigZag follow one another. -/
theorem zigzagPivots_linked (f : Frame) (thr : Nat → Option ℚ) :
    Linked (Confirms f) none (zigzagPivots f thr) := by
  unfold zigzagPivots
  split
  case isTrue => trivial
  case isFalse long => exact (zigzagLoop_inv (by omega)).linked

/-! ## Shorter frames -/

theorem high_take {n i : Nat} (inside : i < n) : high (f.take n) i = high f i := by
  simp [high, inside]

theorem low_take {n i : Nat} (inside : i < n) : low (f.take n) i = low f i := by
  simp [low, inside]

theorem close_take {n i : Nat} (inside : i < n) : close (f.take n) i = close f i := by
  simp [close, inside]

theorem highestBar_take {n a b : Nat} (nonempty : a < b) (inside : b ≤ n) :
    highestBar (f.take n) a b = highestBar f a b :=
  argmax_congr nonempty fun j upper => high_take (by omega)

theorem lowestBar_take {n a b : Nat} (nonempty : a < b) (inside : b ≤ n) :
    lowestBar (f.take n) a b = lowestBar f a b :=
  argmax_congr nonempty fun j upper => by rw [low_take (by omega)]

variable {thr' : Nat → Option ℚ}

/-- One bar of the loop reads no later bar. -/
theorem zigzagStep_take {s : ZigzagState} {n i : Nat} (inside : i < n) (hi_le : s.hi ≤ i)
    (lo_le : s.lo ≤ i) (same : thr' i = thr i) :
    zigzagStep (f.take n) thr' s i = zigzagStep f thr s i := by
  unfold zigzagStep
  dsimp only
  rw [high_take inside, low_take inside, high_take (by omega : s.hi < n),
    low_take (by omega : s.lo < n), same]
  generalize hi_eq : (if s.trend ≠ .falling ∧ high f s.hi ≤ high f i then i else s.hi) = hi
  generalize lo_eq : (if s.trend ≠ .rising ∧ low f i ≤ low f s.lo then i else s.lo) = lo
  have hi_here : hi ≤ i := by split at hi_eq <;> omega
  have lo_here : lo ≤ i := by split at lo_eq <;> omega
  rw [high_take (by omega : hi < n), low_take (by omega : lo < n)]
  by_cases up : s.trend ≠ .falling ∧ hi < i ∧ movedBack (high f hi - low f i) (thr i) = true
  · rw [if_pos up, if_pos up, lowestBar_take (by omega) (by omega)]
  · rw [if_neg up, if_neg up]
    by_cases down : s.trend ≠ .rising ∧ lo < i ∧ movedBack (high f i - low f lo) (thr i) = true
    · rw [if_pos down, if_pos down, highestBar_take (by omega) (by omega)]
    · rw [if_neg down, if_neg down]

theorem zigzagLoop_take {n : Nat} (same : ∀ i < n, thr' i = thr i) (short : n ≤ f.length)
    (inside : k < n) : zigzagLoop (f.take n) thr' k = zigzagLoop f thr k := by
  induction k with
  | zero => rfl
  | succ k ih =>
    have before : zigzagLoop (f.take n) thr' k = zigzagLoop f thr k := ih (by omega)
    have inv : ZigzagInv f k (zigzagLoop f thr k) := zigzagLoop_inv (by omega)
    have hi_le := inv.hi_le
    have lo_le := inv.lo_le
    unfold zigzagLoop
    rw [before]
    exact zigzagStep_take inside (by omega) (by omega) (same _ inside)

/-- A bar adds at most pivots it confirms itself. -/
theorem zigzagStep_out (f : Frame) (thr : Nat → Option ℚ) (s : ZigzagState) (i : Nat) :
    ∃ added : List RawPivot, (zigzagStep f thr s i).out = s.out ++ added ∧
      ∀ p ∈ added, p.confirmBar = i := by
  unfold zigzagStep
  dsimp only
  generalize (if s.trend ≠ .falling ∧ high f s.hi ≤ high f i then i else s.hi) = hi
  generalize (if s.trend ≠ .rising ∧ low f i ≤ low f s.lo then i else s.lo) = lo
  split
  case isTrue => exact ⟨_, rfl, by simp⟩
  case isFalse =>
    split
    case isTrue => exact ⟨_, rfl, by simp⟩
    case isFalse => exact ⟨[], by simp, by simp⟩

theorem zigzagLoop_confirm_le : ∀ p ∈ (zigzagLoop f thr k).out, p.confirmBar ≤ k := by
  induction k with
  | zero => simp [zigzagLoop]
  | succ k ih =>
    obtain ⟨added, out_eq, confirmed⟩ := zigzagStep_out f thr (zigzagLoop f thr k) (k + 1)
    intro p mem
    unfold zigzagLoop at mem
    rw [out_eq] at mem
    obtain old | new := List.mem_append.mp mem
    · exact Nat.le_succ_of_le (ih p old)
    · exact (confirmed p new).le

/-- The pivots confirmed before bar `n` are those of the loop up to the bar before. -/
theorem zigzagLoop_known {n : Nat} (positive : 0 < n) (later : n ≤ k + 1) :
    (zigzagLoop f thr k).out.filter (fun p => p.confirmBar < n) = (zigzagLoop f thr (n - 1)).out := by
  have whole : ∀ k, n = k + 1 →
      (zigzagLoop f thr k).out.filter (fun p => p.confirmBar < n) = (zigzagLoop f thr (n - 1)).out := by
    rintro k rfl
    apply List.filter_eq_self.mpr
    intro p mem
    have upper := zigzagLoop_confirm_le p mem
    simp only [decide_eq_true_eq]
    omega
  induction k with
  | zero => exact whole 0 (by omega)
  | succ k ih =>
    by_cases last : n = k + 2
    · exact whole (k + 1) last
    · obtain ⟨added, out_eq, confirmed⟩ :=
        zigzagStep_out f thr (zigzagLoop f thr k) (k + 1)
      have none_added : added.filter (fun p => p.confirmBar < n) = [] := by
        apply List.filter_eq_nil_iff.mpr
        intro p mem
        have at_ := confirmed p mem
        simp only [decide_eq_true_eq]
        omega
      show (zigzagStep f thr (zigzagLoop f thr k) (k + 1)).out.filter _ = _
      rw [out_eq, List.filter_append, none_added, List.append_nil]
      exact ih (by omega)

/-- A frame cut at bar `n` shows the pivots confirmed before it. -/
theorem zigzagPivots_take {n : Nat} (same : ∀ i < n, thr' i = thr i) (positive : 2 ≤ n)
    (short : n ≤ f.length) :
    zigzagPivots (f.take n) thr' = (zigzagPivots f thr).filter fun p => p.confirmBar < n := by
  have length : (f.take n).length = n := by
    rw [List.length_take]
    omega
  unfold zigzagPivots
  rw [length, if_neg (by omega), if_neg (by omega), zigzagLoop_known (by omega) (by omega)]
  exact congrArg ZigzagState.out (zigzagLoop_take same short (by omega))

end AdvanceTrading.PriceAction
