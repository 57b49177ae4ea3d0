import Mathlib.Data.List.Basic
import Mathlib.Logic.Basic
import Mathlib.Order.Defs.Unbundled

/-!
# Loops that can raise

Two loops over one list, each with its own state and its own way to raise: when every step of the
first that gets through is matched by one of the second, the first loop that gets through is matched
by the second.
-/

namespace AdvanceTrading

universe u

variable {α ε ε' : Type*} {σ τ : Type u}

/-- From a result that got through, both parts did. -/
theorem bind_eq_ok {x : Except ε σ} {f : σ → Except ε τ} {b : τ} (through : (x >>= f) = .ok b) :
    ∃ a, x = .ok a ∧ f a = .ok b := by
  cases x with
  | error e => cases through
  | ok a => exact ⟨a, rfl, through⟩

theorem ok_of_toOption {x : Except ε τ} {b : τ} (got : x.toOption = some b) : x = .ok b := by
  cases x with
  | error e => cases got
  | ok b' =>
    cases got
    rfl

/-- The second loop follows the first. -/
theorem foldlM_follows {f : σ → α → Except ε σ} {g : τ → α → Except ε' τ} {R : σ → τ → Prop}
    {xs : List α} (step : ∀ s t x s', R s t → f s x = .ok s' → ∃ t', g t x = .ok t' ∧ R s' t')
    {s s' : σ} {t : τ} (related : R s t) (through : xs.foldlM f s = .ok s') :
    ∃ t', xs.foldlM g t = .ok t' ∧ R s' t' := by
  induction xs generalizing s t with
  | nil =>
    cases through
    exact ⟨t, rfl, related⟩
  | cons x xs ih =>
    rw [List.foldlM_cons] at through
    obtain ⟨next, first, rest⟩ := bind_eq_ok through
    obtain ⟨next', first', related'⟩ := step s t x next related first
    obtain ⟨t', rest', last⟩ := ih related' rest
    refine ⟨t', ?_, last⟩
    rw [List.foldlM_cons, first']
    exact rest'

/-- What every item is made into leads back to it. -/
theorem mapM_leads_back {f : α → Except ε τ} {g : τ → α} {xs : List α} (back : ∀ x ∈ xs, ∀ y, f x = .ok y → g y = x)
    {ys : List τ} (through : xs.mapM f = .ok ys) : ys.map g = xs := by
  induction xs generalizing ys with
  | nil =>
    cases through
    rfl
  | cons x xs ih =>
    rw [List.mapM_cons] at through
    obtain ⟨y, first, rest⟩ := bind_eq_ok through
    obtain ⟨ys', others, made⟩ := bind_eq_ok rest
    cases made
    rw [List.map_cons, back x (List.mem_cons_self ..) y first,
      ih (fun x' mem => back x' (List.mem_cons_of_mem x mem)) others]

end AdvanceTrading

/-!
# The unit of work of a session

A session that loaded a row writes, at its next flush, the columns whose value
it changed since then, whatever the stored row has become in between. A column
it set to the value it had loaded is not written.
-/

namespace AdvanceTrading

variable {α : Type*} [DecidableEq α]

/-- A stored column after a flush of a session that loaded `loaded` and now holds `new`. -/
def flushed (loaded new stored : α) : α := if new = loaded then stored else new

@[simp] theorem flushed_same (loaded stored : α) : flushed loaded loaded stored = stored := if_pos rfl

theorem flushed_changed {loaded new : α} (changed : new ≠ loaded) (stored : α) :
    flushed loaded new stored = new := if_neg changed

/-- A flush leaves a column as stored or as the session holds it. -/
theorem flushed_cases (loaded new stored : α) :
    flushed loaded new stored = stored ∨ flushed loaded new stored = new := by
  unfold flushed
  split
  · exact .inl rfl
  · exact .inr rfl

/-- A session that loaded the stored value writes what it holds. -/
theorem flushed_fresh (loaded new : α) : flushed loaded new loaded = new := by
  unfold flushed
  split
  · exact Eq.symm ‹_›
  · rfl

end AdvanceTrading

/-!
# What a program does to its state

`Along`: every run of a program over a state leads from a state to one related to
it. The rules follow the programs: one for each way they are put together.
-/

namespace AdvanceTrading

universe u

variable {σ α β : Type u}

/-- Every run leads to a state that `R` relates to the one it starts in. -/
def Along (R : σ → σ → Prop) (m : StateM σ α) : Prop := ∀ s, R s (m.run s).2

namespace Along

variable {R : σ → σ → Prop} {m : StateM σ α} {f : α → StateM σ β}

theorem ret [IsPreorder σ R] (a : α) : Along R (pure a : StateM σ α) := fun s => refl_of R s

theorem bind [IsPreorder σ R] (first : Along R m) (next : ∀ a, Along R (f a)) : Along R (m >>= f) :=
  fun s => trans_of R (first s) (next _ _)

theorem get [IsPreorder σ R] : Along R (get : StateM σ σ) := fun s => refl_of R s

theorem modify {g : σ → σ} (related : ∀ s, R s (g s)) : Along R (modify g : StateM σ PUnit) := related

end Along

end AdvanceTrading
