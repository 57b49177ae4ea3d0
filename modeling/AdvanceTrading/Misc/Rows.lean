import Mathlib.Algebra.BigOperators.Group.List.Basic
import Mathlib.Data.List.Basic
import Mathlib.Tactic.Abel

/-!
# Tables with conditional updates

A table is a list of rows; each row carries a note of every value it was
written with. `updateWhere` is `UPDATE ... SET ... WHERE ...` as one atomic
statement: the condition is asked of the row as it is when the statement runs,
whatever an earlier read of it said.
-/

namespace AdvanceTrading

/-- A row with one note for each time it was written, oldest first. -/
structure Tracked (ρ : Type*) (ν : Type*) where
  row : ρ
  notes : List ν
  deriving DecidableEq

/-- The row as written, with the note of this write. -/
def Tracked.write {ρ ν : Type*} (write : ρ → ρ) (note : ρ → ν) (t : Tracked ρ ν) : Tracked ρ ν :=
  ⟨write t.row, t.notes ++ [note (write t.row)]⟩

namespace Rows

variable {ρ ν : Type*}

/-- `UPDATE table SET write WHERE guard`. -/
def updateWhere (guard : ρ → Bool) (write : ρ → ρ) (note : ρ → ν) (rows : List (Tracked ρ ν)) :
    List (Tracked ρ ν) :=
  rows.map fun t => if guard t.row then Tracked.write write note t else t

variable {guard : ρ → Bool} {write : ρ → ρ} {note : ρ → ν} {rows : List (Tracked ρ ν)}

/-- A row after the update is an old row, written exactly when the condition held of it. -/
theorem mem_updateWhere {t : Tracked ρ ν} (mem : t ∈ updateWhere guard write note rows) :
    ∃ old ∈ rows, (guard old.row = true ∧ t = Tracked.write write note old) ∨
      (guard old.row = false ∧ t = old) := by
  obtain ⟨old, held, rfl⟩ := List.mem_map.mp mem
  cases met : guard old.row with
  | true => exact ⟨old, held, .inl ⟨met, by simp⟩⟩
  | false => exact ⟨old, held, .inr ⟨met, by simp⟩⟩

/-- What holds of every row, and of every row the condition admits once it is written, holds
of every row after the update. -/
theorem forall_updateWhere {P : Tracked ρ ν → Prop} (all : ∀ t ∈ rows, P t)
    (written : ∀ t ∈ rows, guard t.row = true → P t → P (Tracked.write write note t)) :
    ∀ t ∈ updateWhere guard write note rows, P t := by
  intro t mem
  obtain ⟨old, held, ⟨met, rfl⟩ | ⟨-, rfl⟩⟩ := mem_updateWhere mem
  · exact written old held met (all old held)
  · exact all _ held

/-! ## Rows without notes -/

section Plain

variable {guard : ρ → Bool} {write : ρ → ρ} {rows : List ρ}

/-- `UPDATE table SET write WHERE guard` of rows that keep no notes. -/
def setWhere (guard : ρ → Bool) (write : ρ → ρ) (rows : List ρ) : List ρ :=
  rows.map fun r => if guard r then write r else r

/-- A row after the update is an old row, written exactly when the condition held of it. -/
theorem mem_setWhere {r : ρ} (mem : r ∈ setWhere guard write rows) :
    ∃ old ∈ rows, (guard old = true ∧ r = write old) ∨ (guard old = false ∧ r = old) := by
  obtain ⟨old, held, rfl⟩ := List.mem_map.mp mem
  cases met : guard old with
  | true => exact ⟨old, held, .inl ⟨met, by simp⟩⟩
  | false => exact ⟨old, held, .inr ⟨met, by simp⟩⟩

/-- A column the update does not write keeps its values. -/
theorem map_setWhere {κ : Type*} {c : ρ → κ} (kept : ∀ r, c (write r) = c r) :
    (setWhere guard write rows).map c = rows.map c := by
  unfold setWhere
  rw [List.map_map]
  apply List.map_congr_left
  intro r _
  show c (if guard r = true then write r else r) = c r
  split
  · exact kept r
  · rfl

/-- An update of one row changes the sum of a column by what it changes in that row. -/
theorem sum_setWhere {M : Type*} [AddCommGroup M] {c : ρ → M} {w : ρ → ρ} {r : ρ}
    (one : rows.filter guard = [r]) :
    ((setWhere guard w rows).map c).sum =
      (rows.map c).sum + (c (w r) - c r) := by
  have general : ((setWhere guard w rows).map c).sum =
      (rows.map c).sum + ((rows.filter guard).map fun r => c (w r) - c r).sum := by
    clear one
    unfold setWhere
    induction rows with
    | nil => simp
    | cons head tail ih =>
      simp only [List.map_cons, List.sum_cons, ih]
      cases met : guard head with
      | true =>
        simp only [List.filter_cons, met, if_true, List.map_cons, List.sum_cons]
        abel
      | false =>
        simp only [List.filter_cons, met, Bool.false_eq_true, if_false]
        abel
  rw [general, one]
  simp

end Plain

end Rows

end AdvanceTrading
