import AdvanceTrading.Misc.PyText
import Mathlib.Tactic.FieldSimp
import Mathlib.Tactic.Linarith
import Mathlib.Tactic.NormNum
import Mathlib.Tactic.Ring

/-!
# Rounding

`round` of Python: to the nearest, a tie to the even one. It moves a number by half a unit at most,
keeps the order and the sign, and leaves what is already rounded.
-/

namespace AdvanceTrading

namespace Py

/-! ## To an integer -/

variable (x : ℚ)

/-- Rounding stays between the floor and the ceiling. -/
theorem roundHalfEven_bounds : ⌊x⌋ ≤ roundHalfEven x ∧ roundHalfEven x ≤ ⌈x⌉ := by
  have low := Int.floor_le x
  have ceiling := Int.floor_le_ceil x
  -- where it goes up, the ceiling is above the floor
  have up : 1 / 2 ≤ x - ⌊x⌋ → ⌊x⌋ + 1 ≤ ⌈x⌉ := by
    intro far
    apply Int.add_one_le_of_lt
    apply Int.lt_ceil.mpr
    linarith
  unfold roundHalfEven
  split
  · exact ⟨le_refl _, ceiling⟩
  · rename_i notBelow
    have raised := up (not_lt.mp notBelow)
    split
    · exact ⟨by omega, raised⟩
    · split
      · exact ⟨le_refl _, ceiling⟩
      · exact ⟨by omega, raised⟩

@[simp] theorem roundHalfEven_intCast (n : ℤ) : roundHalfEven (n : ℚ) = n := by
  unfold roundHalfEven
  simp

/-- Rounding moves a number by half a unit at most. -/
theorem abs_sub_roundHalfEven_le : |x - roundHalfEven x| ≤ 1 / 2 := by
  have low := Int.floor_le x
  have high := Int.lt_floor_add_one x
  unfold roundHalfEven
  split
  · rw [abs_le]
    constructor <;> linarith
  split
  · push_cast
    rw [abs_le]
    constructor <;> linarith
  split
  · rw [abs_le]
    constructor <;> linarith
  · push_cast
    rw [abs_le]
    constructor <;> linarith

theorem roundHalfEven_mono {x y : ℚ} (le : x ≤ y) : roundHalfEven x ≤ roundHalfEven y := by
  rcases eq_or_lt_of_le (Int.floor_le_floor le) with same | less
  · have fractions : x - ⌊x⌋ ≤ y - ⌊y⌋ := by
      rw [same]
      linarith
    unfold roundHalfEven
    rw [same] at fractions ⊢
    split_ifs <;> first | omega | linarith
  · have upper : ⌈x⌉ ≤ ⌊x⌋ + 1 := Int.ceil_le_floor_add_one x
    have below := (roundHalfEven_bounds x).2
    have above := (roundHalfEven_bounds y).1
    omega

theorem roundHalfEven_neg : roundHalfEven (-x) = -roundHalfEven x := by
  by_cases whole : (⌊x⌋ : ℚ) = x
  · rw [← whole, roundHalfEven_intCast, ← Int.cast_neg, roundHalfEven_intCast]
  · have low : (⌊x⌋ : ℚ) < x := lt_of_le_of_ne (Int.floor_le x) whole
    have high := Int.lt_floor_add_one x
    have mirrored : ⌊-x⌋ = -⌊x⌋ - 1 := by
      rw [Int.floor_eq_iff]
      push_cast
      constructor <;> linarith
    unfold roundHalfEven
    rw [mirrored]
    push_cast
    split_ifs <;> first | omega | linarith

/-! ## To two places -/

theorem round2_eq : round2 x = roundHalfEven (x * 100) / 100 := by
  unfold round2 roundTo
  norm_num

/-- A whole number of hundredths stays. -/
theorem round2_hundredths (n : ℤ) : round2 (n / 100) = n / 100 := by
  rw [round2_eq, div_mul_cancel₀ _ (by norm_num), roundHalfEven_intCast]

theorem abs_round2_sub_le : |round2 x - x| ≤ 1 / 200 := by
  have near := abs_le.mp (abs_sub_roundHalfEven_le (x * 100))
  rw [round2_eq, abs_le]
  constructor <;> linarith [near.1, near.2]

theorem round2_neg : round2 (-x) = -round2 x := by
  rw [round2_eq, round2_eq, neg_mul, roundHalfEven_neg]
  push_cast
  ring

theorem round2_mono {x y : ℚ} (le : x ≤ y) : round2 x ≤ round2 y := by
  rw [round2_eq, round2_eq]
  gcongr
  exact_mod_cast roundHalfEven_mono (by gcongr)

@[simp] theorem round2_zero : round2 0 = 0 := by
  have whole := round2_hundredths 0
  simpa using whole

/-- A difference of rounded amounts is rounded. -/
theorem round2_sub_round2 (x y : ℚ) : round2 (round2 x - round2 y) = round2 x - round2 y := by
  have whole : round2 x - round2 y = ((roundHalfEven (x * 100) - roundHalfEven (y * 100) : ℤ) : ℚ) / 100 := by
    rw [round2_eq, round2_eq]
    push_cast
    ring
  rw [whole, round2_hundredths]

@[simp] theorem round2_round2 : round2 (round2 x) = round2 x := by
  have rounded := round2_sub_round2 x 0
  simpa using rounded

/-- A sum of rounded amounts is rounded. -/
theorem round2_add {x y : ℚ} (left : round2 x = x) (right : round2 y = y) : round2 (x + y) = x + y := by
  have rounded := round2_sub_round2 x (-y)
  rwa [round2_neg, left, right, sub_neg_eq_add] at rounded

theorem round2_sum {xs : List ℚ} (each : ∀ x ∈ xs, round2 x = x) : round2 xs.sum = xs.sum := by
  induction xs with
  | nil => exact round2_zero
  | cons x xs ih =>
    rw [List.sum_cons]
    exact round2_add (each x List.mem_cons_self) (ih fun y mem => each y (List.mem_cons_of_mem _ mem))

end Py

end AdvanceTrading
