import Mathlib.Algebra.BigOperators.Group.List.Basic
import Mathlib.Algebra.BigOperators.Ring.List
import Mathlib.Data.List.Count
import Mathlib.Data.List.Nodup
import Mathlib.Data.Rat.Defs
import Mathlib.Tactic.Ring

/-!
# Shares of a sum

Items have weights. Where each item has one owner, the owners' sums add up to the sum of all items;
lists of items that weigh the same under all weights are the same items.
-/

namespace AdvanceTrading.Shares

variable {ι ω : Type*}

section Weights

variable [DecidableEq ι]

/-- The weight of one item alone. -/
def only (i j : ι) : ℚ := if j = i then 1 else 0

theorem sum_only (xs : List ι) (i : ι) : (xs.map (only i)).sum = xs.count i := by
  induction xs with
  | nil => simp
  | cons x xs ih =>
    rw [List.map_cons, List.sum_cons, ih, List.count_cons]
    by_cases same : x = i
    · simp [only, same, add_comm]
    · simp [only, same]

/-- Items that weigh the same, whichever one of them has a weight. -/
theorem perm_of_sums {xs ys : List ι} (same : ∀ i, (xs.map (only i)).sum = (ys.map (only i)).sum) : xs.Perm ys := by
  rw [List.perm_iff_count]
  intro i
  have counts := same i
  rw [sum_only, sum_only] at counts
  exact_mod_cast counts

end Weights

section Owners

variable {owns : ω → ι → Bool} {owners : List ω}

/-- An item's weight is counted for its one owner. -/
theorem sum_owner (distinct : owners.Nodup) {i : ι} {x : ℚ}
    (one : ∃ o ∈ owners, owns o i = true ∧ ∀ p ∈ owners, owns p i = true → p = o) :
    (owners.map fun o => if owns o i = true then x else 0).sum = x := by
  obtain ⟨o, mem, isOwner, unique⟩ := one
  obtain ⟨before, after, rfl⟩ := List.append_of_mem mem
  obtain ⟨-, rest, apart⟩ := List.nodup_append.mp distinct
  have none_ (part : List ω) (sub : ∀ p ∈ part, p ∈ before ++ o :: after) (other : ∀ p ∈ part, p ≠ o) :
      (part.map fun p => if owns p i = true then x else 0).sum = 0 := by
    apply List.sum_eq_zero
    intro y inMap
    obtain ⟨p, isPart, rfl⟩ := List.mem_map.mp inMap
    exact if_neg fun isOwner' => other p isPart (unique p (sub p isPart) isOwner')
  rw [List.map_append, List.map_cons, List.sum_append, List.sum_cons, if_pos isOwner,
    none_ before (fun p inBefore => List.mem_append_left _ inBefore),
    none_ after (fun p inAfter => List.mem_append_right _ (List.mem_cons_of_mem _ inAfter))]
  · ring
  · rintro p inAfter rfl
    exact (List.nodup_cons.mp rest).1 inAfter
  · rintro p inBefore rfl
    exact apart p inBefore p List.mem_cons_self rfl

/-- Where each item has one owner, the owners' sums add up. -/
theorem sum_owned (distinct : owners.Nodup) (weight : ι → ℚ) {items : List ι}
    (one : ∀ i ∈ items, ∃ o ∈ owners, owns o i = true ∧ ∀ p ∈ owners, owns p i = true → p = o) :
    (owners.map fun o => ((items.filter (owns o)).map weight).sum).sum = (items.map weight).sum := by
  induction items with
  | nil => simp
  | cons i items ih =>
    have rest := ih fun j mem => one j (List.mem_cons_of_mem _ mem)
    have each (o : ω) : (((i :: items).filter (owns o)).map weight).sum =
        (if owns o i = true then weight i else 0) + ((items.filter (owns o)).map weight).sum := by
      by_cases isOwner : owns o i = true
      · simp [isOwner]
      · simp [isOwner]
    rw [List.map_congr_left fun o _ => each o, List.sum_map_add, rest, List.map_cons, List.sum_cons,
      sum_owner distinct (one i List.mem_cons_self)]

end Owners

end AdvanceTrading.Shares
