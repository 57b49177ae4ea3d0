import AdvanceTrading.Misc.Machine
import Mathlib.Algebra.GroupWithZero.Nat
import Mathlib.Logic.Function.Basic

/-!
# Processes that share a state

`n` processes, each at a program point of its own, take statements on one
shared state in any order; `outside` is what happens to the shared state
without any of them. A statement reads and writes the shared state and moves
its process; the other processes stay where they are.
-/

namespace AdvanceTrading

/-- One process has a number. -/
instance (priority := high) neZero_one : NeZero 1 := ⟨by decide⟩

/-- Two processes have numbers. -/
instance (priority := high) neZero_two : NeZero 2 := ⟨by decide⟩

/-- The shared state and the program point of each process. -/
structure Procs (σ : Type*) (π : Type*) (n : Nat) where
  shared : σ
  point : Fin n → π

/-- A statement of one process, or something from outside. -/
inductive ProcEvent (n : Nat) (α : Type*) (ω : Type*) where
  | act (who : Fin n) (action : α)
  | outside (event : ω)

namespace Procs

variable {σ π α ω : Type*} {n : Nat}

/-- Move one process. -/
def move (w : Procs σ π n) (who : Fin n) (shared : σ) (point : π) : Procs σ π n :=
  ⟨shared, Function.update w.point who point⟩

/-- All interleavings of the processes' statements. -/
def interleave (statement : σ → π → α → Option (σ × π)) (outside : σ → ω → Option σ) (n : Nat) :
    Machine (Procs σ π n) (ProcEvent n α ω) where
  step w
    | .act who action =>
        (statement w.shared (w.point who) action).map fun (shared, point) => w.move who shared point
    | .outside event => (outside w.shared event).map fun shared => { w with shared := shared }

variable {w : Procs σ π n} {who : Fin n} {shared : σ} {next : π}

variable {statement : σ → π → α → Option (σ × π)} {outside : σ → ω → Option σ} {t : Procs σ π n}

/-- A step is a statement of the process that acts, which moves that process only. -/
theorem act_eq {action : α}
    (stepped : (interleave statement outside n).step w (.act who action) = some t) :
    ∃ shared next, statement w.shared (w.point who) action = some (shared, next) ∧
      t = w.move who shared next := by
  obtain ⟨⟨shared, next⟩, ran, rfl⟩ := Option.map_eq_some_iff.mp stepped
  exact ⟨shared, next, ran, rfl⟩

theorem outside_eq {event : ω}
    (stepped : (interleave statement outside n).step w (.outside event) = some t) :
    ∃ shared, outside w.shared event = some shared ∧ t = { w with shared := shared } := by
  obtain ⟨shared, ran, rfl⟩ := Option.map_eq_some_iff.mp stepped
  exact ⟨shared, ran, rfl⟩

@[simp] theorem move_shared : (w.move who shared next).shared = shared := rfl

@[simp] theorem move_self : (w.move who shared next).point who = next :=
  Function.update_self ..

theorem move_other {q : Fin n} (other : q ≠ who) : (w.move who shared next).point q = w.point q :=
  Function.update_of_ne other ..

/-- What holds of every point still holds after a move to a point of which it holds. -/
theorem forall_move {P : π → Prop} (all : ∀ q, q ≠ who → P (w.point q)) (there : P next) (q : Fin n) :
    P ((w.move who shared next).point q) := by
  by_cases same : q = who
  · subst same
    rw [move_self]
    exact there
  · rw [move_other same]
    exact all q same

/-- A process at a point of some kind remains after a move, unless the one that moves was the only
one and leaves it. -/
theorem exists_move {P : π → Prop} (still : P (w.point who) → P next ∨ ∃ q, q ≠ who ∧ P (w.point q))
    (before : ∃ q, P (w.point q)) : ∃ q, P ((w.move who shared next).point q) := by
  have elsewhere : (∃ q, q ≠ who ∧ P (w.point q)) → ∃ q, P ((w.move who shared next).point q) := by
    rintro ⟨q, other, held⟩
    refine ⟨q, ?_⟩
    rw [move_other other]
    exact held
  obtain ⟨q, held⟩ := before
  by_cases same : q = who
  · subst same
    rcases still held with own | other
    · refine ⟨q, ?_⟩
      rw [move_self]
      exact own
    · exact elsewhere other
  · exact elsewhere ⟨q, same, held⟩

/-! ## One process alone -/

@[simp] theorem move_move {t : σ} {point : π} :
    (w.move who t point).move who shared next = w.move who shared next := by
  simp [move, Function.update_idem]

@[simp] theorem move_here : w.move who w.shared (w.point who) = w := by
  simp [move]

/-- The statements of one process while no other moves. -/
def solo (statement : σ → π → α → Option (σ × π)) : σ → π → List α → Option (σ × π)
  | s, point, [] => some (s, point)
  | s, point, action :: rest =>
      (statement s point action).bind fun (t, next) => solo statement t next rest

/-- A run in which one process takes every step is its statements alone. -/
theorem run_solo (statement : σ → π → α → Option (σ × π)) (outside : σ → ω → Option σ)
    (who : Fin n) (actions : List α) (w : Procs σ π n) :
    (interleave statement outside n).run w (actions.map (.act who)) =
      (solo statement w.shared (w.point who) actions).map fun (s, point) => w.move who s point := by
  induction actions generalizing w with
  | nil => simp [solo]
  | cons action rest ih =>
    rw [List.map_cons, Machine.run_cons]
    show ((statement w.shared (w.point who) action).map _).bind _ = _
    rw [solo]
    cases statement w.shared (w.point who) action with
    | none => rfl
    | some reached =>
      obtain ⟨t, point⟩ := reached
      show (interleave statement outside n).run (w.move who t point) _ = _
      rw [ih, move_self, move_shared]
      simp

end Procs

end AdvanceTrading
