import Mathlib.Data.List.Basic
import Mathlib.Data.List.MinMax
import Mathlib.Order.Lattice

/-!
# The last items of a list

The last `n` items, all of them where there are fewer, under taking more and under a
new item at the end.
-/

namespace AdvanceTrading

namespace Recent

variable {α β : Type*} {xs : List α} {n m : ℕ}

/-- The last `n` items. -/
def lastN (n : ℕ) (xs : List α) : List α := xs.drop (xs.length - n)

@[simp] theorem length_lastN (n : ℕ) (xs : List α) : (lastN n xs).length = min n xs.length := by
  unfold lastN
  rw [List.length_drop]
  omega

/-- Of the last items, the last ones. -/
theorem lastN_lastN (fewer : n ≤ m) (xs : List α) : lastN n (lastN m xs) = lastN n xs := by
  unfold lastN
  rw [List.length_drop, List.drop_drop]
  congr 1
  omega

theorem map_lastN (f : α → β) (n : ℕ) (xs : List α) : lastN n (xs.map f) = (lastN n xs).map f := by
  unfold lastN
  rw [List.length_map, List.map_drop]

end Recent

end AdvanceTrading

/-!
# A minimum kept value by value

The least of a list when it is kept as one value and the values still to come, and
when two lists have the same least.
-/

namespace AdvanceTrading

namespace RunningMin

variable {α : Type*} [LinearOrder α] {xs ys : List α} {v : α}

/-- The minimum once `v` is taken in. -/
def takeIn (least : Option α) (v : α) : Option α := some (least.elim v fun m => min m v)

theorem min?_snoc (xs : List α) (v : α) : (xs ++ [v]).min? = takeIn xs.min? v := by
  cases xs with
  | nil => rfl
  | cons x xs =>
    show some (List.foldl min x (xs ++ [v])) = some (min (List.foldl min x xs) v)
    rw [List.foldl_append]
    rfl

/-- What was taken in may be replaced by its minimum. -/
theorem min?_toList_append (xs ys : List α) : (xs.min?.toList ++ ys).min? = (xs ++ ys).min? := by
  cases xs with
  | nil => rfl
  | cons x xs =>
    show some (List.foldl min (List.foldl min x xs) ys) = some (List.foldl min x (xs ++ ys))
    rw [List.foldl_append]

/-- No value of `ys` is below all of `xs`. -/
def Bounds (xs ys : List α) : Prop := ∀ y ∈ ys, ∃ x ∈ xs, x ≤ y

theorem Bounds.least_le {m n : α} (bounds : Bounds xs ys) (least : xs.min? = some m)
    (least' : ys.min? = some n) : m ≤ n := by
  obtain ⟨x, mem, le⟩ := bounds n (List.min?_eq_some_iff.mp least').1
  exact ((List.min?_eq_some_iff.mp least).2 x mem).trans le

/-- Two lists have the same minimum when each holds a value below any of the other. -/
theorem min?_eq_iff : xs.min? = ys.min? ↔ Bounds xs ys ∧ Bounds ys xs := by
  constructor
  · intro same
    have bounds {us vs : List α} (same : us.min? = vs.min?) : Bounds us vs := by
      intro v mem
      cases least : vs.min? with
      | none =>
        rw [List.min?_eq_none_iff.mp least] at mem
        cases mem
      | some m =>
        rw [least] at same
        exact ⟨m, (List.min?_eq_some_iff.mp same).1, (List.min?_eq_some_iff.mp least).2 v mem⟩
    exact ⟨bounds same, bounds same.symm⟩
  · rintro ⟨below, above⟩
    cases least : xs.min? with
    | none =>
      rw [List.min?_eq_none_iff.mp least] at below
      cases ys with
      | nil => rfl
      | cons y ys =>
        obtain ⟨x, mem, -⟩ := below y List.mem_cons_self
        cases mem
    | some m =>
      cases least' : ys.min? with
      | none =>
        obtain ⟨y, mem, -⟩ := above m (List.min?_eq_some_iff.mp least).1
        rw [List.min?_eq_none_iff.mp least'] at mem
        cases mem
      | some n => rw [le_antisymm (below.least_le least least') (above.least_le least' least)]

end RunningMin

end AdvanceTrading
