import AdvanceTrading.Misc.Rounding
import Mathlib.Data.Int.Log
import Mathlib.Tactic.Positivity

/-!
# Binary64

The finite values of a double, the double nearest to a rational, and the
shortest decimal that reads back as a given double. The two zeros are one value,
as `==` compares them; there is no NaN.
-/

namespace AdvanceTrading

variable {x : ℚ}

namespace Py

/-! ## Rounding to an integer -/

theorem abs_roundHalfEven_le {n : ℤ} (bound : |x| ≤ n) : |roundHalfEven x| ≤ n := by
  obtain ⟨low, high⟩ := roundHalfEven_bounds x
  obtain ⟨below, above⟩ := abs_le.mp bound
  have floor : -n ≤ ⌊x⌋ := by
    apply Int.le_floor.mpr
    push_cast
    exact below
  have ceil : ⌈x⌉ ≤ n := Int.ceil_le.mpr above
  exact abs_le.mpr ⟨floor.trans low, high.trans ceil⟩

/-! ## Finite values -/

/-- A finite double: at most 53 bits times a power of two, within the range. -/
def Representable (x : ℚ) : Prop :=
  |x| < 2 ^ 1024 ∧ ∃ m e : ℤ, |m| ≤ 2 ^ 53 ∧ -1074 ≤ e ∧ x = m * 2 ^ e

/-- The finite doubles. -/
structure Finite where
  value : ℚ
  representable : Representable value

/-- A double that is not a NaN. -/
inductive Double where
  | finite (x : Finite)
  | infinite (negative : Bool)

/-- The double is not an infinity. -/
def Double.isFinite : Double → Bool
  | .finite _ => true
  | .infinite _ => false

theorem Representable.neg (representable : Representable x) : Representable (-x) := by
  obtain ⟨range, m, e, bits, exponent, rfl⟩ := representable
  refine ⟨by rwa [abs_neg], -m, e, by rwa [abs_neg], exponent, ?_⟩
  push_cast
  ring

theorem Representable.abs (representable : Representable x) : Representable |x| := by
  rcases abs_choice x with same | opposite
  · rw [same]
    exact representable
  · rw [opposite]
    exact representable.neg

/-- `-x`. -/
def Double.neg : Double → Double
  | .finite x => .finite ⟨-x.value, x.representable.neg⟩
  | .infinite negative => .infinite !negative

/-- The magnitude of a finite double. -/
def Finite.magnitude (x : Finite) : Finite := ⟨|x.value|, x.representable.abs⟩

/-! ## The nearest double -/

/-- The exponent of the last bit of a double near `x`. -/
def ulp (x : ℚ) : ℤ := max (Int.log 2 |x| - 52) (-1074)

/-- The nearest value with 53 bits and an exponent of at least -1074, a tie to the even one. -/
def snap (x : ℚ) : ℚ := roundHalfEven (x / 2 ^ ulp x) * 2 ^ ulp x

theorem two_zpow_pos (e : ℤ) : (0 : ℚ) < 2 ^ e := zpow_pos (by norm_num) e

theorem abs_lt_ulp (x : ℚ) : |x| < 2 ^ (ulp x + 53) := by
  have below : |x| < ((2 : ℕ) : ℚ) ^ (Int.log 2 |x| + 1) := Int.lt_zpow_succ_log_self (by norm_num) |x|
  have exponent : Int.log 2 |x| + 1 ≤ ulp x + 53 := by
    have := le_max_left (Int.log 2 |x| - 52) (-1074)
    unfold ulp
    omega
  calc |x| < 2 ^ (Int.log 2 |x| + 1) := by exact_mod_cast below
    _ ≤ 2 ^ (ulp x + 53) := zpow_le_zpow_right₀ (by norm_num) exponent

/-- What is snapped has at most 53 bits. -/
theorem snap_bits (x : ℚ) : |roundHalfEven (x / 2 ^ ulp x)| ≤ 2 ^ 53 := by
  have positive := two_zpow_pos (ulp x)
  have bound : |x / 2 ^ ulp x| ≤ ((2 ^ 53 : ℤ) : ℚ) := by
    rw [abs_div, abs_of_pos positive, div_le_iff₀ positive]
    have below := (abs_lt_ulp x).le
    rw [add_comm, zpow_add₀ (by norm_num)] at below
    exact_mod_cast below
  exact abs_roundHalfEven_le bound

theorem snap_representable (range : |snap x| < 2 ^ 1024) : Representable (snap x) :=
  ⟨range, roundHalfEven (x / 2 ^ ulp x), ulp x, snap_bits x, le_max_right _ _, rfl⟩

/-- A double is a whole number of its last bits. -/
theorem Representable.whole (representable : Representable x) : ∃ k : ℤ, x / 2 ^ ulp x = k := by
  obtain ⟨-, m, e, bits, least, rfl⟩ := representable
  generalize exponent : ulp ((m : ℚ) * 2 ^ e) = u
  by_cases zero : m = 0
  · subst zero
    refine ⟨0, ?_⟩
    simp
  by_cases fine : u ≤ e
  · -- the value has a coarser last bit
    refine ⟨m * 2 ^ (e - u).toNat, ?_⟩
    have power : (2 : ℚ) ^ (e - u).toNat = 2 ^ (e - u) := by
      rw [← zpow_natCast, Int.toNat_of_nonneg (by omega)]
    push_cast
    rw [power, zpow_sub₀ (by norm_num)]
    ring
  · -- 2^53 last bits, which are 2^52 of the next exponent
    have size : |(m : ℚ) * 2 ^ e| = |m| * 2 ^ e := by
      rw [abs_mul, abs_of_pos (two_zpow_pos e), Int.cast_abs]
    have nonzero : 0 < |(m : ℚ) * 2 ^ e| := by
      rw [abs_pos]
      exact mul_ne_zero (by exact_mod_cast zero) (two_zpow_pos e).ne'
    have log : u = Int.log 2 |(m : ℚ) * 2 ^ e| - 52 := by
      unfold ulp at exponent
      omega
    have least_log : (2 : ℚ) ^ (u + 52) ≤ |(m : ℚ) * 2 ^ e| := by
      have below : ((2 : ℕ) : ℚ) ^ Int.log 2 |(m : ℚ) * 2 ^ e| ≤ |(m : ℚ) * 2 ^ e| :=
        Int.zpow_log_le_self (by norm_num) nonzero
      rw [log, sub_add_cancel]
      exact_mod_cast below
    have most : |(m : ℚ) * 2 ^ e| ≤ 2 ^ (e + 53) := by
      rw [size, add_comm, zpow_add₀ (by norm_num)]
      exact mul_le_mul_of_nonneg_right (by exact_mod_cast bits) (two_zpow_pos e).le
    have close : u + 52 ≤ e + 53 :=
      (zpow_le_zpow_iff_right₀ (by norm_num : (1 : ℚ) < 2)).mp (least_log.trans most)
    have next : u = e + 1 := by omega
    have exact_size : |m| = 2 ^ 53 := by
      have equal : |(m : ℚ) * 2 ^ e| = 2 ^ (e + 53) := by
        apply le_antisymm most
        rw [next] at least_log
        rw [show e + 53 = e + 1 + 52 by ring]
        exact least_log
      rw [size, add_comm, zpow_add₀ (by norm_num)] at equal
      have := mul_right_cancel₀ (two_zpow_pos e).ne' equal
      exact_mod_cast this
    have half : (m : ℚ) * 2 ^ e / 2 ^ u = m / 2 := by
      rw [next, zpow_add₀ (by norm_num), zpow_one]
      have := (two_zpow_pos e).ne'
      field_simp
    rw [half]
    rcases abs_eq (by norm_num) |>.mp exact_size with up | down
    · refine ⟨2 ^ 52, ?_⟩
      rw [up]
      norm_num
    · refine ⟨-2 ^ 52, ?_⟩
      rw [down]
      norm_num

/-- A double is nearest to itself. -/
theorem Representable.snap (representable : Representable x) : Py.snap x = x := by
  obtain ⟨k, whole⟩ := representable.whole
  unfold Py.snap
  rw [whole, roundHalfEven_intCast, ← whole, div_mul_cancel₀ _ (two_zpow_pos _).ne']

/-- The double nearest to a rational; beyond the largest finite one it is an infinity. -/
def ofRat (x : ℚ) : Double :=
  if range : |snap x| < 2 ^ 1024 then .finite ⟨snap x, snap_representable range⟩
  else .infinite (decide (x < 0))

/-! ## The shortest decimal -/

/-- The exponent of the last of `n` significant decimal digits of `x`. -/
def lastDigit (x : ℚ) (n : ℕ) : ℤ := Int.log 10 x - n + 1

/-- The decimal `digits` at `exponent` reads back as `x`. -/
def ReadsBack (x : ℚ) (digits : ℕ) (exponent : ℤ) : Prop := snap (digits * 10 ^ exponent) = x

instance (x : ℚ) (digits : ℕ) (exponent : ℤ) : Decidable (ReadsBack x digits exponent) :=
  inferInstanceAs (Decidable (_ = _))

/-- Of the decimals next to `x` from below and above, the upper one is the one to print: it is
closer, or as close and even. -/
def UpperIsCloser (x : ℚ) (low : ℕ) (exponent : ℤ) : Prop :=
  (low + 1) * 10 ^ exponent - x < x - low * 10 ^ exponent ∨
    (low + 1) * 10 ^ exponent - x = x - low * 10 ^ exponent ∧ low % 2 = 1

instance (x : ℚ) (low : ℕ) (exponent : ℤ) : Decidable (UpperIsCloser x low exponent) :=
  inferInstanceAs (Decidable (_ ∨ _))

/-- The decimal of `n` significant digits that reads back as `x` and is closest to it, if any
(with no digits, the next power of ten). -/
def withDigits (x : ℚ) (n : ℕ) : Option ℕ :=
  let exponent := lastDigit x n
  let low := ⌊x / 10 ^ exponent⌋₊
  if ReadsBack x low exponent then
    if ReadsBack x (low + 1) exponent ∧ UpperIsCloser x low exponent then some (low + 1) else some low
  else if ReadsBack x (low + 1) exponent then some (low + 1)
  else none

theorem withDigits_of_exact {n d : ℕ} (representable : Representable x)
    (exact_ : x = d * 10 ^ lastDigit x n) : (withDigits x n).isSome = true := by
  have positive : (0 : ℚ) < 10 ^ lastDigit x n := zpow_pos (by norm_num) _
  have quotient : x / 10 ^ lastDigit x n = d := by
    rw [div_eq_iff positive.ne']
    exact exact_
  have floor : ⌊x / 10 ^ lastDigit x n⌋₊ = d := by
    rw [quotient]
    exact Nat.floor_natCast d
  have reads : ReadsBack x ⌊x / 10 ^ lastDigit x n⌋₊ (lastDigit x n) := by
    unfold ReadsBack
    rw [floor, ← exact_]
    exact representable.snap
  unfold withDigits
  dsimp only
  rw [if_pos reads]
  split <;> rfl

/-- With enough digits a double is a decimal. -/
theorem exists_withDigits (representable : Representable x) (positive : 0 < x) :
    ∃ n, (withDigits x n).isSome = true := by
  obtain ⟨-, m, e, -, -, value⟩ := id representable
  have m_pos : 0 < m := by
    have : (0 : ℚ) < m * 2 ^ e := value ▸ positive
    exact_mod_cast (pos_iff_pos_of_mul_pos this).mpr (two_zpow_pos e)
  -- so many digits that the last one is at most the last bit
  let n : ℕ := (Int.log 10 x + 1).toNat + e.natAbs
  refine ⟨n, ?_⟩
  have least : lastDigit x n ≤ 0 ∧ lastDigit x n ≤ e := by
    unfold lastDigit
    omega
  have tens : (10 : ℚ) ^ (-lastDigit x n).toNat = 10 ^ (-lastDigit x n) := by
    rw [← zpow_natCast, Int.toNat_of_nonneg (by omega)]
  have twos : (2 : ℚ) ^ (e - lastDigit x n).toNat = 2 ^ (e - lastDigit x n) := by
    rw [← zpow_natCast, Int.toNat_of_nonneg (by omega)]
  have fives : (5 : ℚ) ^ (-lastDigit x n).toNat = 5 ^ (-lastDigit x n) := by
    rw [← zpow_natCast, Int.toNat_of_nonneg (by omega)]
  apply withDigits_of_exact (d := m.toNat * 2 ^ (e - lastDigit x n).toNat *
    5 ^ (-lastDigit x n).toNat) representable
  have cast : ((m.toNat : ℕ) : ℚ) = m := by exact_mod_cast Int.toNat_of_nonneg m_pos.le
  push_cast
  rw [cast, twos, fives]
  generalize lastDigit x n = k
  rw [value, show (10 : ℚ) = 2 * 5 by norm_num, mul_zpow, zpow_sub₀ (by norm_num), zpow_neg]
  have two := (two_zpow_pos k).ne'
  have five : (5 : ℚ) ^ k ≠ 0 := (zpow_pos (by norm_num) k).ne'
  field_simp

/-- The shortest decimal that reads back as a positive double: its digits and their exponent. -/
def shortest (x : Finite) (positive : 0 < x.value) : ℕ × ℤ :=
  let n := Nat.find (exists_withDigits x.representable positive)
  ((withDigits x.value n).getD 0, lastDigit x.value n)

end Py

end AdvanceTrading
