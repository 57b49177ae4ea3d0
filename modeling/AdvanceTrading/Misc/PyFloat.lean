import AdvanceTrading.Misc.PyText

/-!
# Numbers that a division by zero can leave

A float as far as a division by zero shows: a rational, an infinity or NaN, with
exact arithmetic in between. A comparison with NaN is false.

`maxBy` is `max(items, key=...)`, which keeps the first item that no later one
exceeds, whatever its comparison does.
-/

namespace AdvanceTrading

namespace Py

/-- A number, an infinity or NaN. -/
inductive Num where
  | fin (x : ℚ)
  | inf (negative : Bool)
  | nan
  deriving DecidableEq, Repr

namespace Num

/-- `x / y` of numbers. -/
def quotient (x y : ℚ) : Num :=
  if y = 0 then (if x = 0 then .nan else .inf (x < 0)) else .fin (x / y)

/-- `a + b`. -/
def add : Num → Num → Num
  | .fin x, .fin y => .fin (x + y)
  | .fin _, .inf negative => .inf negative
  | .inf negative, .fin _ => .inf negative
  | .inf left, .inf right => if left = right then .inf left else .nan
  | _, _ => .nan

/-- `w * a` with a number `w`. -/
def scale (w : ℚ) : Num → Num
  | .fin x => .fin (w * x)
  | .inf negative => if w = 0 then .nan else .inf (if w < 0 then !negative else negative)
  | .nan => .nan

/-- `a / y` with a number `y` above zero. -/
def per (a : Num) (y : ℚ) : Num := scale (1 / y) a

/-- `a < b`. -/
def lt : Num → Num → Bool
  | .fin x, .fin y => x < y
  | .fin _, .inf negative => !negative
  | .inf negative, .fin _ => negative
  | .inf left, .inf right => left && !right
  | _, _ => false

/-- `a == b`. -/
def eq (a b : Num) : Bool := a ≠ .nan && a = b

/-- `max(a, b)`. -/
def max (a b : Num) : Num := if lt a b then b else a

/-- `min(a, b)`. -/
def min (a b : Num) : Num := if lt b a then b else a

/-- `round(a, places)`. -/
def roundTo (places : Nat) : Num → Num
  | .fin x => .fin (Py.roundTo places x)
  | a => a

/-- `sum(values)`. -/
def sum (values : List Num) : Num := values.foldl add (.fin 0)

end Num

section MaxBy

variable {α β κ : Type*}

/-- `max(items, key=key)`, where `gt` is the `>` of the keys; the error of no items is `none`. -/
def maxBy (gt : κ → κ → Bool) (key : α → κ) : List α → Option α
  | [] => none
  | first :: rest => some (rest.foldl (fun best item => if gt (key item) (key best) then item else best) first)

variable {gt : κ → κ → Bool}

/-- Items with the keys of others are taken where those are. -/
theorem maxBy_map {key : α → κ} {key' : β → κ} {f : α → β} (same : ∀ x, key' (f x) = key x)
    (items : List α) : maxBy gt key' (items.map f) = (maxBy gt key items).map f := by
  cases items with
  | nil => rfl
  | cons first rest =>
    simp only [maxBy, List.map_cons, Option.map_some, Option.some.injEq]
    induction rest generalizing first with
    | nil => rfl
    | cons item rest ih =>
      rw [List.map_cons, List.foldl_cons, List.foldl_cons, same, same, ← apply_ite f]
      exact ih _

/-- The first of the items whose key none exceeds. -/
def FirstBest [LT κ] (key : α → κ) (items : List α) (x : α) : Prop :=
  ∃ before after, items = before ++ x :: after ∧ (∀ y ∈ before, key x < key y) ∧ ∀ y ∈ after, ¬ key y < key x

theorem FirstBest.unique [Preorder κ] {key : α → κ} {items : List α} {x y : α}
    (first : FirstBest key items x) (second : FirstBest key items y) : x = y := by
  obtain ⟨before, after, rfl, above, not_below⟩ := first
  obtain ⟨before', after', split, above', not_below'⟩ := second
  rcases List.append_eq_append_iff.mp split with ⟨between, rfl, rest⟩ | ⟨between, rfl, rest⟩
  · cases between with
    | nil => exact (List.cons.inj rest).1
    | cons z between =>
      obtain ⟨rfl, rfl⟩ := List.cons.inj rest
      exact absurd (above' x (by simp)) (not_below y (by simp))
  · cases between with
    | nil => exact (List.cons.inj rest).1.symm
    | cons z between =>
      obtain ⟨rfl, rfl⟩ := List.cons.inj rest
      exact absurd (above y (by simp)) (not_below' x (by simp))

/-- The fold of `maxBy` for a least item: the best so far with the items gone through around it. -/
theorem foldl_firstBest [LinearOrder κ] (key : α → κ) (rest before after : List α) {best : α}
    (above : ∀ y ∈ before, key best < key y) (not_below : ∀ y ∈ after, ¬ key y < key best) :
    FirstBest key (before ++ best :: after ++ rest)
      (rest.foldl (fun best item => if decide (key item < key best) then item else best) best) := by
  induction rest generalizing before after best with
  | nil => exact ⟨before, after, by simp, above, not_below⟩
  | cons item rest ih =>
    rw [List.foldl_cons]
    by_cases better : key item < key best
    · have passed : ∀ y ∈ before ++ best :: after, key item < key y := by
        intro y member
        rcases List.mem_append.mp member with member | member
        · exact better.trans (above y member)
        · rcases List.mem_cons.mp member with rfl | member
          · exact better
          · exact better.trans_le (not_lt.mp (not_below y member))
      have next := ih (before ++ best :: after) [] passed fun _ member => nomatch member
      simpa [better] using next
    · have passed : ∀ y ∈ after ++ [item], ¬ key y < key best := by
        intro y member
        rcases List.mem_append.mp member with member | member
        · exact not_below y member
        · rw [List.mem_singleton.mp member]
          exact better
      have next := ih before (after ++ [item]) above passed
      simpa [better] using next

/-- `min(items, key=key)`: with the keys' `<` for the comparison the first least item is taken. -/
theorem maxBy_firstBest [LinearOrder κ] {key : α → κ} {items : List α} {x : α}
    (taken : maxBy (fun a b => a < b) key items = some x) : FirstBest key items x := by
  cases items with
  | nil => exact nomatch taken
  | cons first rest =>
    obtain rfl := Option.some.inj taken
    exact foldl_firstBest key rest [] [] (fun _ member => nomatch member) fun _ member => nomatch member

end MaxBy

end Py

end AdvanceTrading
