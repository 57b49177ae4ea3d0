import Mathlib.Data.List.ReduceOption
import Mathlib.Tactic.Basic

/-!
# Series with a warm-up

A series of values of which the first ones are missing. `From d` says from which
length on it has a value; each operation on series moves that length: a shift and
a window add to it, a pointwise operation takes the larger of two.
-/

namespace AdvanceTrading.Warmup

variable {α β γ : Type*}

/-- A value at each position from the length `d` on, and none before. -/
def From (d : ℕ) (xs : List (Option α)) : Prop := ∀ k, (h : k < xs.length) → (xs[k].isSome ↔ d ≤ k + 1)

/-! ## Operations -/

/-- Every value as many positions later. -/
def shift (n : ℕ) (xs : List (Option α)) : List (Option α) := (List.replicate n none ++ xs).take xs.length

/-- The values of the `w` positions up to each one, together; none where one of them is missing. -/
def rolling (w : ℕ) (together : List α → β) (xs : List (Option α)) : List (Option β) :=
  (List.range xs.length).map fun k =>
    let window := (xs.take (k + 1)).drop (k + 1 - w)
    if w ≤ k + 1 ∧ window.all Option.isSome then some (together window.reduceOption) else none

section Lengths

variable (n w : ℕ) (together : List α → β) (xs : List (Option α))

@[simp] theorem length_shift : (shift n xs).length = xs.length := by
  simp [shift]

@[simp] theorem length_rolling : (rolling w together xs).length = xs.length := by
  simp [rolling]

end Lengths

/-! ## Where an operation has values -/

section From

variable {d e : ℕ} {xs : List (Option α)} {ys : List (Option β)}

/-- No position tells the lengths 0 and 1 apart. -/
theorem From.congr (same : max 1 d = max 1 e) (has : From d xs) : From e xs := by
  intro k inside
  rw [has k inside]
  omega

theorem from_zero (all : ∀ x ∈ xs, x.isSome) : From 0 xs := by
  intro k inside
  simp [all _ (List.getElem_mem inside)]

theorem From.map₂ {f : Option α → Option β → Option γ} (some_iff : ∀ x y, (f x y).isSome ↔ x.isSome ∧ y.isSome)
    (left : From d xs) (right : From e ys) : From (max d e) (List.zipWith f xs ys) := by
  intro k inside
  have inLeft : k < xs.length := by
    rw [List.length_zipWith] at inside
    omega
  have inRight : k < ys.length := by
    rw [List.length_zipWith] at inside
    omega
  rw [List.getElem_zipWith, some_iff, left k inLeft, right k inRight]
  omega

theorem From.map {f : Option α → Option β} (some_iff : ∀ x, (f x).isSome ↔ x.isSome)
    (has : From d xs) : From d (xs.map f) := by
  intro k inside
  rw [List.length_map] at inside
  rw [List.getElem_map, some_iff, has k inside]

theorem From.shift (n : ℕ) (positive : 1 ≤ d) (has : From d xs) : From (n + d) (shift n xs) := by
  intro k inside
  rw [length_shift] at inside
  simp only [Warmup.shift, List.getElem_take]
  by_cases early : k < n
  · rw [List.getElem_append_left (by simpa using early)]
    simp only [List.getElem_replicate, Option.isSome_none, Bool.false_eq_true, false_iff]
    omega
  · rw [List.getElem_append_right (by simpa using early)]
    simp only [List.length_replicate]
    rw [has (k - n) (by omega)]
    omega

/-- A window has a value when the first of its positions has one. -/
theorem From.rolling {w : ℕ} (together : List α → β) (wide : 1 ≤ w) (positive : 1 ≤ d)
    (has : From d xs) : From (w - 1 + d) (rolling w together xs) := by
  intro k inside
  rw [length_rolling] at inside
  simp only [Warmup.rolling, List.getElem_map, List.getElem_range]
  have full : w ≤ k + 1 → (((xs.take (k + 1)).drop (k + 1 - w)).all Option.isSome ↔ d ≤ k + 1 - w + 1) := by
    intro fits
    rw [List.all_eq_true]
    constructor
    · intro all
      have first : k + 1 - w < xs.length := by omega
      rw [← has (k + 1 - w) first]
      refine all _ (List.mem_iff_getElem.mpr ⟨0, ?_, ?_⟩)
      · rw [List.length_drop, List.length_take]
        omega
      · simp [List.getElem_drop, List.getElem_take]
    · intro reached x mem
      obtain ⟨i, inWindow, rfl⟩ := List.mem_iff_getElem.mp mem
      rw [List.length_drop, List.length_take] at inWindow
      rw [List.getElem_drop, List.getElem_take, has _ (by omega)]
      omega
  split
  case isTrue both =>
    have reached := (full both.1).mp both.2
    simp only [Option.isSome_some, true_iff]
    omega
  case isFalse lacking =>
    simp only [Option.isSome_none, Bool.false_eq_true, false_iff]
    intro enough
    have fits : w ≤ k + 1 := by omega
    exact lacking ⟨fits, (full fits).mpr (by omega)⟩

/-- The last value is there when the series is long enough. -/
theorem From.last {n : ℕ} (has : From d xs) (length : xs.length = n + 1) :
    (xs.get ⟨n, by omega⟩).isSome ↔ d ≤ n + 1 :=
  has n (by omega)

end From

end AdvanceTrading.Warmup
