import Mathlib.Data.Bool.Basic
import Mathlib.Data.List.Basic

/-!
# Truth values that may be unknown

A truth value that is not known yet is `none`. A connective of such values is
known as soon as every way of knowing its parts gives the same (`lift₂`), which
for AND and OR is Kleene's strong tables. What it leaves open is then just what
its parts, each for itself, can still bring it to.
-/

namespace AdvanceTrading

namespace ThreeValued

/-- A truth value as far as it is known. -/
abbrev Truth := Option Bool

/-- The truth values it may still turn out to be. -/
def Truth.open_ : Truth → List Bool
  | some b => [b]
  | none => [false, true]

/-- What answers agree on. -/
def agreed (answers : List Bool) : Truth :=
  if answers.all id then some true else if answers.all not then some false else none

/-- A connective of truth values as far as they are known. -/
def lift₂ (f : Bool → Bool → Bool) (v w : Truth) : Truth :=
  agreed (v.open_.flatMap fun a => w.open_.map (f a))

/-- A negation of a truth value as far as it is known. -/
def negate (v : Truth) : Truth := v.map not

variable {f : Bool → Bool → Bool} {v w : Truth} {a b c : Bool}

@[simp] theorem mem_open_some : a ∈ Truth.open_ (some b) ↔ a = b := List.mem_singleton

@[simp] theorem mem_open_none : a ∈ Truth.open_ none := by cases a <;> simp [Truth.open_]

/-- What is agreed is every answer. -/
theorem eq_of_agreed {answers : List Bool} (known : agreed answers = some c) (given : a ∈ answers) : a = c := by
  unfold agreed at known
  split at known
  case isTrue all_true =>
    obtain rfl := Option.some.inj known
    exact List.all_eq_true.mp all_true a given
  case isFalse =>
    split at known
    case isTrue all_false =>
      obtain rfl := Option.some.inj known
      simpa using List.all_eq_true.mp all_false a given
    case isFalse => exact nomatch known

/-- Where nothing is agreed, both answers are given. -/
theorem mem_of_not_agreed {answers : List Bool} (unknown : agreed answers = none) (c : Bool) : c ∈ answers := by
  unfold agreed at unknown
  split at unknown
  case isTrue => exact nomatch unknown
  case isFalse not_all_true =>
    split at unknown
    case isTrue => exact nomatch unknown
    case isFalse not_all_false =>
      cases c with
      | false =>
        by_contra missing
        refine not_all_true (List.all_eq_true.mpr fun a given => ?_)
        cases a with
        | false => exact absurd given missing
        | true => rfl
      | true =>
        by_contra missing
        refine not_all_false (List.all_eq_true.mpr fun a given => ?_)
        cases a with
        | false => rfl
        | true => exact absurd given missing

/-- What agreed answers leave open is given, if there are answers at all. -/
theorem mem_open_agreed {answers : List Bool} (nonempty : answers ≠ []) :
    c ∈ (agreed answers).open_ ↔ c ∈ answers := by
  cases known : agreed answers with
  | none => exact iff_of_true mem_open_none (mem_of_not_agreed known c)
  | some b =>
    obtain ⟨a, given⟩ := List.exists_mem_of_ne_nil answers nonempty
    obtain rfl := eq_of_agreed known given
    rw [mem_open_some]
    exact ⟨fun same => same ▸ given, eq_of_agreed known⟩

theorem open_ne_nil : v.open_ ≠ [] := by cases v <;> exact List.cons_ne_nil _ _

/-- A connective may still come to just what its parts, each for itself, may bring it to. -/
theorem mem_open_lift₂ : c ∈ (lift₂ f v w).open_ ↔ ∃ a ∈ v.open_, ∃ b ∈ w.open_, f a b = c := by
  have answers : v.open_.flatMap (fun a => w.open_.map (f a)) ≠ [] := by
    obtain ⟨a, left⟩ := List.exists_mem_of_ne_nil _ (open_ne_nil (v := v))
    obtain ⟨b, right⟩ := List.exists_mem_of_ne_nil _ (open_ne_nil (v := w))
    exact List.ne_nil_of_mem (List.mem_flatMap.mpr ⟨a, left, List.mem_map_of_mem right⟩)
  unfold lift₂
  rw [mem_open_agreed answers]
  simp only [List.mem_flatMap, List.mem_map]

theorem mem_open_negate : c ∈ (negate v).open_ ↔ ∃ a ∈ v.open_, (!a) = c := by
  cases v with
  | none => exact iff_of_true mem_open_none ⟨!c, mem_open_none, Bool.not_not c⟩
  | some b =>
    show c ∈ Truth.open_ (some !b) ↔ _
    simp [eq_comm]

/-- AND is known to be false from one side alone. -/
example : lift₂ and (some false) none = some false ∧ lift₂ or none (some true) = some true ∧
    lift₂ and (some true) none = none := by decide

end ThreeValued

end AdvanceTrading
