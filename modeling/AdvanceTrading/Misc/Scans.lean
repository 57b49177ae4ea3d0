import Mathlib.Data.List.Basic
import Mathlib.Data.Option.Basic
import Mathlib.Order.Basic
import Mathlib.Order.Lattice
import Mathlib.Order.Nat

/-!
# Scans

The index of the first greatest value of a slice (`argmax`), and lists whose
members each stand in a relation to the one before them, the first to none.
-/

namespace AdvanceTrading

namespace Scan

section Argmax

variable {P : Type*} [LinearOrder P]

/-- The first index of `a, …, a + k` with the greatest value. -/
def argmaxTo (f : Nat → P) (a : Nat) : Nat → Nat
  | 0 => a
  | k + 1 => if f (argmaxTo f a k) < f (a + k + 1) then a + k + 1 else argmaxTo f a k

/-- `a + argmax(f[a:b])`. -/
def argmax (f : Nat → P) (a b : Nat) : Nat := argmaxTo f a (b - a - 1)

/-- `i` is in `a, …, k` and no value there exceeds the one at `i`. -/
structure Greatest (f : Nat → P) (a k i : Nat) : Prop where
  first : a ≤ i
  last : i ≤ k
  bound : ∀ j, a ≤ j → j ≤ k → f j ≤ f i

variable {f g : Nat → P} {a b k i : Nat}

theorem Greatest.single (f : Nat → P) (a : Nat) : Greatest f a a a where
  first := le_refl a
  last := le_refl a
  bound := fun j lower upper => by rw [le_antisymm upper lower]

/-- The greatest value so far, after one more. -/
theorem Greatest.advance (g : Greatest f a k i) (start : a ≤ k + 1) :
    Greatest f a (k + 1) (if f i ≤ f (k + 1) then k + 1 else i) := by
  split
  case isTrue above =>
    refine ⟨start, le_refl _, ?_⟩
    intro j lower upper
    by_cases new : j = k + 1
    · rw [new]
    · exact le_trans (g.bound j lower (by omega)) above
  case isFalse below =>
    refine ⟨g.first, Nat.le_succ_of_le g.last, ?_⟩
    intro j lower upper
    by_cases new : j = k + 1
    · rw [new]
      exact le_of_not_ge below
    · exact g.bound j lower (by omega)

theorem argmaxTo_greatest (f : Nat → P) (a k : Nat) : Greatest f a (a + k) (argmaxTo f a k) := by
  induction k with
  | zero => exact .single f a
  | succ k ih =>
    unfold argmaxTo
    split
    case isTrue above =>
      refine ⟨by omega, by omega, ?_⟩
      intro j lower upper
      by_cases new : j = a + k + 1
      · rw [new]
      · exact le_trans (ih.bound j lower (by omega)) (le_of_lt above)
    case isFalse below =>
      refine ⟨ih.first, Nat.le_succ_of_le ih.last, ?_⟩
      intro j lower upper
      by_cases new : j = a + k + 1
      · rw [new]
        exact not_lt.mp below
      · exact ih.bound j lower (by omega)

/-- `argmax` finds the greatest value of a slice that is not empty. -/
theorem argmax_greatest (f : Nat → P) (nonempty : a ≤ k) : Greatest f a k (argmax f a (k + 1)) := by
  have found := argmaxTo_greatest f a (k - a)
  rw [Nat.add_sub_cancel' nonempty] at found
  have steps : k + 1 - a - 1 = k - a := by omega
  unfold argmax
  rw [steps]
  exact found

/-- Only the order of a slice's values decides their first greatest. -/
theorem argmaxTo_order_congr
    (same : ∀ i j, a ≤ i → i ≤ a + k → a ≤ j → j ≤ a + k → (f i < f j ↔ g i < g j)) :
    argmaxTo f a k = argmaxTo g a k := by
  induction k with
  | zero => rfl
  | succ k ih =>
    have before := ih fun i j lower upper lower' upper' => same i j lower (by omega) lower' (by omega)
    have bounds := argmaxTo_greatest g a k
    have last := bounds.last
    unfold argmaxTo
    rw [before]
    exact if_congr (same _ (a + k + 1) bounds.first (by omega) (by omega) (by omega)) rfl rfl

theorem argmax_order_congr (nonempty : a < b)
    (same : ∀ i j, i < b → j < b → (f i < f j ↔ g i < g j)) : argmax f a b = argmax g a b :=
  argmaxTo_order_congr fun i j _ upper _ upper' => same i j (by omega) (by omega)

/-- `argmax` reads nothing outside its slice. -/
theorem argmax_congr (nonempty : a < b) (same : ∀ j, j < b → f j = g j) :
    argmax f a b = argmax g a b :=
  argmax_order_congr nonempty fun i j upper upper' => by rw [same i upper, same j upper']

end Argmax

section Linked

variable {α : Type*} {R S : Option α → α → Prop}

/-- Every member stands in `R` to the one before it, the first to `previous`. -/
def Linked (R : Option α → α → Prop) : Option α → List α → Prop
  | _, [] => True
  | previous, x :: xs => R previous x ∧ Linked R (some x) xs

instance instDecidableLinked [∀ q x, Decidable (R q x)] : ∀ previous xs, Decidable (Linked R previous xs)
  | _, [] => isTrue trivial
  | previous, x :: xs =>
      have : Decidable (Linked R (some x) xs) := instDecidableLinked (some x) xs
      inferInstanceAs (Decidable (R previous x ∧ Linked R (some x) xs))

variable {previous : Option α} {xs : List α}

/-- One more member, linked to the last. -/
theorem Linked.snoc {x : α} (linked : Linked R previous xs) (next : R (xs.getLast?.or previous) x) :
    Linked R previous (xs ++ [x]) := by
  induction xs generalizing previous with
  | nil => exact ⟨next, trivial⟩
  | cons y ys ih =>
    refine ⟨linked.1, ih linked.2 ?_⟩
    rw [List.getLast?_cons] at next
    cases last : ys.getLast? <;> simpa [last] using next

theorem Linked.imp (weaker : ∀ q x, R q x → S q x) (linked : Linked R previous xs) :
    Linked S previous xs := by
  induction xs generalizing previous with
  | nil => trivial
  | cons x xs ih => exact ⟨weaker _ _ linked.1, ih linked.2⟩

/-- A list of images is linked as its members' images are. -/
theorem linked_map {β : Type*} {T : Option β → β → Prop} {g : α → β} :
    Linked T (previous.map g) (xs.map g) ↔ Linked (fun q x => T (q.map g) (g x)) previous xs := by
  induction xs generalizing previous with
  | nil => exact Iff.rfl
  | cons x xs ih => exact and_congr Iff.rfl (@ih (some x))

/-- What every link gives holds of every member. -/
theorem Linked.forall_mem {P : α → Prop} (each : ∀ q x, R q x → P x) (linked : Linked R previous xs) :
    ∀ x ∈ xs, P x := by
  induction xs generalizing previous with
  | nil => simp
  | cons x xs ih =>
    intro y mem
    obtain rfl | later := List.mem_cons.mp mem
    · exact each _ _ linked.1
    · exact ih linked.2 y later

end Linked

end Scan

end AdvanceTrading

/-!
# The earliest of several places

A search answers with a place or with none. `earlier` keeps the first of two
answers, `before m` forgets an answer that is not before place `m`; a search
that is cut off at `m` should answer `before m` of what the whole search does.
Nothing here knows what is searched for.
-/

namespace AdvanceTrading

namespace Earliest

/-- The earlier of two answers. -/
def earlier : Option Nat → Option Nat → Option Nat
  | none, y => y
  | some x, none => some x
  | some x, some y => some (min x y)

/-- An answer as it is known from the places before `m`. -/
def before (m : Nat) (x : Option Nat) : Option Nat := x.filter fun i => i < m

variable {m : Nat} {x y : Option Nat}

@[simp] theorem earlier_none_left (y : Option Nat) : earlier none y = y := rfl

@[simp] theorem earlier_none_right (x : Option Nat) : earlier x none = x := by cases x <;> rfl

@[simp] theorem before_none (m : Nat) : before m none = none := rfl

theorem before_some (m i : Nat) : before m (some i) = if i < m then some i else none := by
  by_cases inside : i < m <;> simp [before, Option.filter, inside]

theorem before_eq_some {i : Nat} : before m x = some i ↔ x = some i ∧ i < m := by
  cases x with
  | none => simp
  | some k =>
    rw [before_some]
    split <;> grind

/-- Cutting off commutes with taking the earlier one. -/
theorem before_earlier (m : Nat) (x y : Option Nat) : before m (earlier x y) = earlier (before m x) (before m y) := by
  cases x with
  | none => simp
  | some i =>
    cases y with
    | none => simp
    | some k =>
      simp only [earlier, before_some]
      by_cases first : i < m <;> by_cases second : k < m <;> simp [first, second] <;> omega

/-- An answer that is not before `m` does not change what is known before `m`. -/
theorem before_earlier_late {i : Nat} (late : m ≤ i) (y : Option Nat) : before m (earlier (some i) y) = before m y := by
  rw [before_earlier, before_some, if_neg (by omega), earlier_none_left]

/-- An answer before `m` is the earlier one of those known before `m`. -/
theorem before_earlier_soon {i : Nat} (soon : i < m) (y : Option Nat) :
    before m (earlier (some i) y) = earlier (some i) (before m y) := by
  rw [before_earlier, before_some, if_pos soon]

theorem any_before (k : Nat) (upto : k ≤ m) : (before m x).any (fun i => i < k) = x.any fun i => i < k := by
  cases x with
  | none => rfl
  | some i =>
    rw [before_some]
    split <;> simp
    omega

/-- The first place from `a` on with a property, of the places before `m`. -/
theorem find_before (p : Nat → Bool) (a : Nat) {k : Nat} (upto : m ≤ k) :
    (List.range' a (m - a)).find? p = before m ((List.range' a (k - a)).find? p) := by
  have split : List.range' a (k - a) = List.range' a (m - a) ++ List.range' (max a m) (k - max a m) := by
    rw [show k - a = (m - a) + (k - max a m) by omega, ← List.range'_append_1]
    rcases Nat.le_total a m with first | first
    · rw [show a + (m - a) = max a m by omega]
    · rw [show max a m = a by omega, show m - a = 0 by omega]
      rfl
  rw [split, List.find?_append]
  cases found : (List.range' a (m - a)).find? p with
  | some i =>
    have inside := List.mem_of_find?_eq_some found
    rw [List.mem_range'_1] at inside
    rw [Option.some_or, before_some, if_pos (by omega)]
  | none =>
    rw [Option.none_or]
    cases later : (List.range' (max a m) (k - max a m)).find? p with
    | none => rfl
    | some i =>
      have outside := List.mem_of_find?_eq_some later
      rw [List.mem_range'_1] at outside
      rw [before_some, if_neg (by omega)]

end Earliest

end AdvanceTrading
