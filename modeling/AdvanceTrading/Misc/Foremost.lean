import Mathlib.Data.List.MinMax
import Mathlib.Order.Lattice

/-!
# The foremost of the good items

Items have two keys. Of the good ones the foremost has the greatest outer key
and, among those, the least inner key. `rounds` finds it group by group, a group
being the items of one outer key. Two searches that both find a foremost item
find the same keys (`Foremost.unique`), however they went about it.
-/

namespace AdvanceTrading

namespace Choice

section Pairs

variable {ι κ : Type*} [LinearOrder ι] [LinearOrder κ] {P : κ → ι → Prop}

/-- `(a, b)` has the greatest outer key `b` of all the pairs in `P` and, among those, the least inner key `a`. -/
structure Foremost (P : κ → ι → Prop) (a : κ) (b : ι) : Prop where
  holds : P a b
  outer : ∀ a' b', P a' b' → b' ≤ b
  inner : ∀ a', P a' b → a ≤ a'

theorem Foremost.unique {a a' : κ} {b b' : ι} (one : Foremost P a b) (other : Foremost P a' b') : a = a' ∧ b = b' := by
  have outer : b = b' := le_antisymm (other.outer a b one.holds) (one.outer a' b' other.holds)
  subst outer
  exact ⟨le_antisymm (one.inner a' other.holds) (other.inner a one.holds), rfl⟩

/-- What a search for the foremost pair of `P` returns, told by the keys. -/
def Finds (P : κ → ι → Prop) : Option (κ × ι) → Prop
  | some (a, b) => Foremost P a b
  | none => ∀ a b, ¬ P a b

theorem Finds.unique {x y : Option (κ × ι)} (one : Finds P x) (other : Finds P y) : x = y := by
  cases x with
  | none =>
    cases y with
    | none => rfl
    | some found => exact absurd other.holds (one _ _)
  | some found =>
    cases y with
    | none => exact absurd one.holds (other _ _)
    | some found' =>
      obtain ⟨inner, outer⟩ := Foremost.unique one other
      exact congrArg some (Prod.ext inner outer)

theorem Finds.congr {Q : κ → ι → Prop} {x : Option (κ × ι)} (same : ∀ a b, P a b ↔ Q a b)
    (finds : Finds P x) : Finds Q x := by
  have eq : P = Q := funext fun a => funext fun b => propext (same a b)
  rwa [eq] at finds

end Pairs

section Rounds

variable {α ι κ : Type*} [LinearOrder ι] [LinearOrder κ] {key : α → κ} {xs : List α} {x y : α}

/-- The first of the items whose key is least. -/
def leastFirst (key : α → κ) : List α → Option α
  | [] => none
  | x :: xs => some (xs.foldl (fun best y => if key y < key best then y else best) x)

theorem foldl_least (xs : List α) (x : α) :
    (xs.foldl (fun best y => if key y < key best then y else best) x ∈ x :: xs) ∧
      ∀ y ∈ x :: xs, key (xs.foldl (fun best y => if key y < key best then y else best) x) ≤ key y := by
  induction xs generalizing x with
  | nil => simp
  | cons z xs ih =>
    rw [List.foldl_cons]
    by_cases smaller : key z < key x
    · rw [if_pos smaller]
      obtain ⟨member, least⟩ := ih z
      refine ⟨List.mem_cons_of_mem _ member, ?_⟩
      intro y mem
      rcases List.mem_cons.mp mem with rfl | later
      · exact (least z List.mem_cons_self).trans smaller.le
      · exact least y later
    · rw [if_neg smaller]
      obtain ⟨member, least⟩ := ih x
      refine ⟨?_, ?_⟩
      · rcases List.mem_cons.mp member with first | later
        · rw [first]
          exact List.mem_cons_self
        · exact List.mem_cons_of_mem _ (List.mem_cons_of_mem _ later)
      · intro y mem
        rcases List.mem_cons.mp mem with rfl | later
        · exact least y List.mem_cons_self
        · rcases List.mem_cons.mp later with rfl | later
          · exact (least x List.mem_cons_self).trans (not_lt.mp smaller)
          · exact least y (List.mem_cons_of_mem _ later)

theorem leastFirst_eq_none : leastFirst key xs = none ↔ xs = [] := by
  cases xs <;> simp [leastFirst]

theorem leastFirst_mem (found : leastFirst key xs = some x) : x ∈ xs := by
  cases xs with
  | nil => cases found
  | cons z xs =>
    obtain rfl := Option.some.inj found
    exact (foldl_least xs z).1

theorem leastFirst_le (found : leastFirst key xs = some x) (mem : y ∈ xs) : key x ≤ key y := by
  cases xs with
  | nil => cases found
  | cons z xs =>
    obtain rfl := Option.some.inj found
    exact (foldl_least xs z).2 y mem

/-- The items of the greatest outer key, the good one of the least inner key if there is one; else the
items of the next greatest outer key, for as many rounds as given. -/
def rounds (outer : α → ι) (inner : α → κ) (good : α → Bool) : Nat → List α → Option α
  | 0, _ => none
  | n + 1, xs =>
    match (xs.map outer).max? with
    | none => none
    | some top =>
      match leastFirst inner ((xs.filter fun x => outer x = top).filter good) with
      | some x => some x
      | none => rounds outer inner good n (xs.filter fun x => outer x ≠ top)

variable {outer : α → ι} {inner : α → κ} {good : α → Bool} {n : Nat}

theorem rounds_some (found : rounds outer inner good n xs = some x) :
    x ∈ xs ∧ good x ∧ ∀ y ∈ xs, good y → outer y ≤ outer x ∧ (outer y = outer x → inner x ≤ inner y) := by
  induction n generalizing xs with
  | zero => cases found
  | succ n ih =>
    unfold rounds at found
    cases greatest : (xs.map outer).max? with
    | none => rw [greatest] at found; cases found
    | some top =>
      have bound : ∀ y ∈ xs, outer y ≤ top := by
        intro y mem
        exact (List.max?_eq_some_iff.mp greatest).2 _ (List.mem_map_of_mem mem)
      simp only [greatest] at found
      cases least : leastFirst inner ((xs.filter fun x => outer x = top).filter good) with
      | some z =>
        rw [least] at found
        obtain rfl := Option.some.inj found
        have member := leastFirst_mem least
        simp only [List.mem_filter, decide_eq_true_eq] at member
        obtain ⟨⟨mem, atTop⟩, isGood⟩ := member
        refine ⟨mem, isGood, ?_⟩
        intro y mem_y good_y
        refine ⟨atTop ▸ bound y mem_y, ?_⟩
        intro same
        refine leastFirst_le least ?_
        simp only [List.mem_filter, decide_eq_true_eq]
        exact ⟨⟨mem_y, same.trans atTop⟩, good_y⟩
      | none =>
        rw [least] at found
        have empty := leastFirst_eq_none.mp least
        obtain ⟨mem, isGood, foremost⟩ := ih found
        rw [List.mem_filter] at mem
        refine ⟨mem.1, isGood, ?_⟩
        intro y mem_y good_y
        -- no item of the greatest outer key is good
        have below : outer y ≠ top := by
          intro same
          have listed : y ∈ (xs.filter fun x => outer x = top).filter good := by
            simp only [List.mem_filter, decide_eq_true_eq]
            exact ⟨⟨mem_y, same⟩, good_y⟩
          rw [empty] at listed
          cases listed
        exact foremost y (List.mem_filter.mpr ⟨mem_y, decide_eq_true below⟩) good_y

/-- As many rounds as items are enough. -/
theorem rounds_none (enough : xs.length ≤ n) (missed : rounds outer inner good n xs = none)
    (mem : x ∈ xs) : good x = false := by
  induction n generalizing xs with
  | zero =>
    rw [List.eq_nil_of_length_eq_zero (Nat.le_zero.mp enough)] at mem
    cases mem
  | succ n ih =>
    unfold rounds at missed
    cases greatest : (xs.map outer).max? with
    | none =>
      rw [List.max?_eq_none_iff, List.map_eq_nil_iff] at greatest
      rw [greatest] at mem
      cases mem
    | some top =>
      simp only [greatest] at missed
      cases least : leastFirst inner ((xs.filter fun x => outer x = top).filter good) with
      | some z => rw [least] at missed; cases missed
      | none =>
        rw [least] at missed
        by_cases atTop : outer x = top
        · have empty := leastFirst_eq_none.mp least
          rw [List.filter_eq_nil_iff] at empty
          have listed := empty x (List.mem_filter.mpr ⟨mem, decide_eq_true atTop⟩)
          exact Bool.eq_false_iff.mpr listed
        · have fewer : (xs.filter fun x => outer x ≠ top).length < xs.length := by
            obtain ⟨z, mem_z, atTop_z⟩ := List.mem_map.mp (List.max?_mem greatest)
            refine List.length_filter_lt_length_iff_exists.mpr ⟨z, mem_z, ?_⟩
            simp [atTop_z]
          exact ih (by omega) missed (List.mem_filter.mpr ⟨mem, decide_eq_true atTop⟩)

/-- The rounds find the foremost keys of the good items. -/
theorem rounds_finds (enough : xs.length ≤ n) :
    Finds (fun a b => ∃ x ∈ xs, good x ∧ inner x = a ∧ outer x = b)
      ((rounds outer inner good n xs).map fun x => (inner x, outer x)) := by
  cases found : rounds outer inner good n xs with
  | none =>
    rintro a b ⟨x, mem, isGood, -⟩
    rw [rounds_none enough found mem] at isGood
    cases isGood
  | some x =>
    obtain ⟨mem, isGood, foremost⟩ := rounds_some found
    refine ⟨⟨x, mem, isGood, rfl, rfl⟩, ?_, ?_⟩
    · rintro a b ⟨y, mem_y, good_y, -, rfl⟩
      exact (foremost y mem_y good_y).1
    · rintro a ⟨y, mem_y, good_y, rfl, same⟩
      exact (foremost y mem_y good_y).2 same

end Rounds

end Choice

end AdvanceTrading
