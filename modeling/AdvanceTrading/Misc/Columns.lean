import Mathlib.Algebra.Order.Field.Rat
import Mathlib.Algebra.Order.Group.MinMax
import Mathlib.Data.List.Sort

/-!
# Columns of numbers

A column is a function of the bar's place. The window functions read the places
of their windows only, so columns that agree below a place have the same windows
there. `none` is a value that is not there. Nothing here knows what the columns
are of.
-/

namespace AdvanceTrading

namespace Columns

/-- Two columns are the same at every place before `k`. -/
def AgreeBelow {α : Type*} (k : Nat) (x y : Nat → α) : Prop := ∀ i, i < k → x i = y i

section Windows

/-- The greatest value at `a, …, a + k`. -/
def highest (x : Nat → ℚ) (a : Nat) : Nat → ℚ
  | 0 => x a
  | k + 1 => max (highest x a k) (x (a + k + 1))

/-- The least value at `a, …, a + k`. -/
def lowest (x : Nat → ℚ) (a : Nat) : Nat → ℚ
  | 0 => x a
  | k + 1 => min (lowest x a k) (x (a + k + 1))

/-- The middle value, or the mean of the two middle ones. -/
def median (values : List ℚ) : ℚ :=
  let sorted := values.insertionSort (· ≤ ·)
  if values.length % 2 = 1 then sorted.getD (values.length / 2) 0
  else (sorted.getD (values.length / 2 - 1) 0 + sorted.getD (values.length / 2) 0) / 2

/-- The median of the `m` values before place `j`. -/
def priorMedian (x : Nat → ℚ) (m j : Nat) : Option ℚ :=
  if j < m then none else some (median ((List.range' (j - m) m).map x))

variable {x y : Nat → ℚ} {k m j a n : Nat}

theorem lowest_congr (same : ∀ i, i ≤ a + n → x i = y i) : lowest x a n = lowest y a n := by
  induction n with
  | zero => exact same a (by omega)
  | succ n ih =>
    unfold lowest
    rw [ih fun i upto => same i (by omega), same (a + n + 1) (by omega)]

theorem highest_neg (x : Nat → ℚ) (a n : Nat) : highest (fun i => -x i) a n = -lowest x a n := by
  induction n with
  | zero => rfl
  | succ n ih =>
    unfold highest lowest
    rw [ih, max_neg_neg]

theorem lowest_neg (x : Nat → ℚ) (a n : Nat) : lowest (fun i => -x i) a n = -highest x a n := by
  induction n with
  | zero => rfl
  | succ n ih =>
    unfold highest lowest
    rw [ih, min_neg_neg]

/-- A column read from place `d` on. -/
def from_ {α : Type*} (d : Nat) (x : Nat → α) : Nat → α := fun i => x (d + i)

theorem highest_from (x : Nat → ℚ) (d a n : Nat) : highest (from_ d x) a n = highest x (d + a) n := by
  induction n with
  | zero => rfl
  | succ n ih =>
    unfold highest
    rw [ih, from_, ← Nat.add_assoc, ← Nat.add_assoc]

theorem lowest_from (x : Nat → ℚ) (d a n : Nat) : lowest (from_ d x) a n = lowest x (d + a) n := by
  induction n with
  | zero => rfl
  | succ n ih =>
    unfold lowest
    rw [ih, from_, ← Nat.add_assoc, ← Nat.add_assoc]

theorem map_from {α : Type*} (x : Nat → α) (d a n : Nat) :
    (List.range' a n).map (from_ d x) = (List.range' (d + a) n).map x := by
  rw [← List.map_add_range', List.map_map]
  rfl

/-- Where the window lies inside, the median before a place is the one before it in the whole column. -/
theorem priorMedian_from (x : Nat → ℚ) (d : Nat) (inside : m ≤ j) :
    priorMedian (from_ d x) m j = priorMedian x m (d + j) := by
  unfold priorMedian
  rw [if_neg (by omega), if_neg (by omega), map_from x d (j - m) m, show d + (j - m) = d + j - m by omega]

namespace AgreeBelow

theorem priorMedian (agree : AgreeBelow k x y) : AgreeBelow k (priorMedian x m) (Columns.priorMedian y m) := by
  intro j inside
  unfold Columns.priorMedian
  split
  · rfl
  · have same : (List.range' (j - m) m).map x = (List.range' (j - m) m).map y := by
      apply List.map_congr_left
      intro i mem
      exact agree i (by simp at mem; omega)
    rw [same]

end AgreeBelow

end Windows

end Columns

end AdvanceTrading
