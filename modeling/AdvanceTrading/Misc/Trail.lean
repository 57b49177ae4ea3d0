import Mathlib.Data.List.Chain

/-!
# Trails

The statuses a row was written with, oldest first, as a chain of allowed moves.
What a chain says about a status depends only on the moves into it and out of
it: a status without moves out of it is the last one, and a status that only
one other leads to is left for that other one before it comes again.
-/

namespace AdvanceTrading

namespace Trail

variable {σ : Type*} {allowed : σ → σ → Prop}

section

variable {trail : List σ} (chain : trail.IsChain allowed)
include chain

/-- One more allowed move extends the chain. -/
theorem snoc {last next : σ} (current : trail.getLast? = some last) (move : allowed last next) :
    (trail ++ [next]).IsChain allowed := by
  refine chain.append (.singleton next) ?_
  intro x hx y hy
  rw [current] at hx
  cases hx
  cases hy
  exact move

/-- Neighbours of a chain are allowed moves. -/
theorem move {i : Nat} {a b : σ}
    (before : trail[i]? = some a) (after : trail[i + 1]? = some b) : allowed a b := by
  obtain ⟨hi, rfl⟩ := List.getElem?_eq_some_iff.mp before
  obtain ⟨hj, rfl⟩ := List.getElem?_eq_some_iff.mp after
  exact List.isChain_iff_getElem.mp chain i hj

/-- A status without moves out of it stands last. -/
theorem terminal_last {s : σ} (stuck : ∀ t, ¬ allowed s t) {i : Nat} (here : trail[i]? = some s) :
    i + 1 = trail.length := by
  obtain ⟨inside, -⟩ := List.getElem?_eq_some_iff.mp here
  by_contra later
  have next : i + 1 < trail.length := by omega
  exact stuck _ (move chain here (List.getElem?_eq_getElem next))

/-- Between two visits of a status that only `source` leads to, `source` is visited. -/
theorem revisit {s source : σ} (only : ∀ t, allowed t s → t = source) (other : source ≠ s)
    {i j : Nat} (before : i < j) (first : trail[i]? = some s) (second : trail[j]? = some s) :
    ∃ k, i < k ∧ k < j ∧ trail[k]? = some source := by
  obtain ⟨k, rfl⟩ : ∃ k, j = k + 1 := ⟨j - 1, by omega⟩
  obtain ⟨inside, -⟩ := List.getElem?_eq_some_iff.mp second
  have here : trail[k]? = some trail[k] := List.getElem?_eq_getElem (by omega)
  have came : trail[k] = source := only _ (move chain here second)
  have apart : k ≠ i := by
    rintro rfl
    rw [here, came] at first
    exact other (Option.some.inj first)
  exact ⟨k, by omega, by omega, by rw [here, came]⟩

end

end Trail

end AdvanceTrading
