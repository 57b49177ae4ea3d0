import AdvanceTrading.Misc.Processes
import Mathlib.Algebra.BigOperators.Fin
import Mathlib.Algebra.Order.BigOperators.Group.Finset

/-!
# Tallies of processes

A weight of program points, summed over the processes. One statement moves one
process, so it changes the sum by that process's weights before and after.
-/

namespace AdvanceTrading

namespace Procs

variable {σ π : Type*} {n : Nat} {w : Procs σ π n}

/-- The weights of the points where the processes are. -/
def total (g : π → Nat) (w : Procs σ π n) : Nat := ∑ q, g (w.point q)

/-- How many processes are at a point of some kind. -/
def tally (p : π → Bool) (w : Procs σ π n) : Nat := w.total fun point => if p point then 1 else 0

/-- A move changes the sum by the weights of the process that moves. -/
theorem total_move (g : π → Nat) (who : Fin n) (shared : σ) (next : π) :
    (w.move who shared next).total g + g (w.point who) = w.total g + g next := by
  have moved : (fun q => g ((w.move who shared next).point q)) =
      Function.update (fun q => g (w.point q)) who (g next) := by
    funext q
    by_cases same : q = who
    · subst same
      simp
    · rw [move_other same, Function.update_of_ne same]
  have before := Finset.add_sum_erase Finset.univ (fun q => g (w.point q)) (Finset.mem_univ who)
  unfold total
  rw [moved, Finset.sum_update_of_mem (Finset.mem_univ who), ← before, Finset.sdiff_singleton_eq_erase]
  omega

theorem tally_move (p : π → Bool) (who : Fin n) (shared : σ) (next : π) :
    (w.move who shared next).tally p + (if p (w.point who) then 1 else 0) = w.tally p + if p next then 1 else 0 :=
  total_move (fun point => if p point then 1 else 0) who shared next

/-- A kind that implies another is at most as frequent. -/
theorem tally_le {p q : π → Bool} (weaker : ∀ point, p point = true → q point = true) : w.tally p ≤ w.tally q := by
  unfold tally total
  apply Finset.sum_le_sum
  intro who _
  by_cases here : p (w.point who)
  · simp [here, weaker _ here]
  · simp [here]

theorem tally_eq_zero {p : π → Bool} (none_ : ∀ q, p (w.point q) = false) : w.tally p = 0 := by
  unfold tally total
  apply Finset.sum_eq_zero
  intro q _
  simp [none_ q]

end Procs

end AdvanceTrading
