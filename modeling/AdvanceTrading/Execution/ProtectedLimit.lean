import AdvanceTrading.Execution.PaperAdapter
import AdvanceTrading.Misc.Rounding

/-!
# The protected limit of the router

Model of `protected_limit_price` (`app/execution/router.py:87-92`) beside
`marketable_limit_price` (`app/execution/marketable_limit.py:48-60`). Both put
the limit a band past the reference on the 0.05 tick: the router on the nearest
tick, the other one on the next tick outward, after a rounding to six places.
-/

namespace AdvanceTrading.PaperAdapter

/-- `_TICK`. -/
def tick : ℚ := 5 / 100

/-- The price a band past the reference, before it is put on the tick. -/
def rawLimit (reference : ℚ) (side : Side) (protectionPct : ℚ) : ℚ :=
  let band := max 0 protectionPct / 100
  match side with
  | .buy => reference * (1 + band)
  | .sell => reference * (1 - band)

/-- `protected_limit_price`. -/
def protectedLimitPrice (reference : ℚ) (side : Side) (protectionPct : ℚ) : ℚ :=
  max tick (Py.round2 (Py.roundHalfEven (rawLimit reference side protectionPct / tick) * tick))

/-- What a protected limit is for: the reference is inside it, it is a price of the exchange, it is the limit
of the other paths, and an order at it fills at the reference. -/
structure Marketable (reference : ℚ) (side : Side) (protectionPct : ℚ) : Prop where
  inside : inside side reference (protectedLimitPrice reference side protectionPct) = true
  onTick : ∃ steps : ℕ, 0 < steps ∧ protectedLimitPrice reference side protectionPct = steps * tick
  oneRule : marketableLimitPrice reference side protectionPct = some (protectedLimitPrice reference side protectionPct)
  fills : ∀ money, (paperFill money .limit side reference (protectedLimitPrice reference side protectionPct) 0).1 =
    some reference

/-- How far the raw price is past the tick below it, in ticks. -/
def pastTick (reference : ℚ) (side : Side) (protectionPct : ℚ) : ℚ :=
  rawLimit reference side protectionPct / tick - ⌊rawLimit reference side protectionPct / tick⌋

/-- The nearest tick is the one outward: the raw price is nearer to it, or is on the one inward but for what the
rounding to six places drops, and that tick is still not past the reference. -/
def OutwardIsNearest (reference : ℚ) (side : Side) (protectionPct : ℚ) : Prop :=
  let raw := rawLimit reference side protectionPct
  let past := pastTick reference side protectionPct
  match side with
  | .buy =>
      1 / 2 < past ∨ past = 1 / 2 ∧ ⌊raw / tick⌋ % 2 = 1 ∨
        past ≤ 5 / 10 ^ 7 ∧ past * tick ≤ raw - reference
  | .sell =>
      raw < tick ∨ past < 1 / 2 ∨ past = 1 / 2 ∧ ⌊raw / tick⌋ % 2 = 0 ∨
        1 - past ≤ 5 / 10 ^ 7 ∧ (1 - past) * tick ≤ reference - raw

/-! ## Rounding to some places -/

/-- What rounds to an even number is no more than a half away from it. -/
theorem roundHalfEven_eq_even_iff {x : ℚ} {e : ℤ} (even : e % 2 = 0) : Py.roundHalfEven x = e ↔ |x - e| ≤ 1 / 2 := by
  constructor
  · rintro rfl
    exact Py.abs_sub_roundHalfEven_le x
  · intro near
    obtain ⟨low, high⟩ := abs_le.mp near
    rcases lt_or_ge x e with below | above
    · have floor : ⌊x⌋ = e - 1 := by
        rw [Int.floor_eq_iff]
        push_cast
        constructor <;> linarith
      unfold Py.roundHalfEven
      rw [floor]
      push_cast
      rw [if_neg (by linarith)]
      split
      · omega
      · rw [if_neg (by omega)]
        omega
    · have floor : ⌊x⌋ = e := by
        rw [Int.floor_eq_iff]
        constructor <;> linarith
      unfold Py.roundHalfEven
      rw [floor]
      split_ifs
      · rfl
      · linarith
      · rfl

/-- The rounding to six places stays between the whole numbers. -/
theorem six_places_between (x : ℚ) : ⌊x⌋ * 10 ^ 6 ≤ Py.roundHalfEven (x * 10 ^ 6) ∧
    Py.roundHalfEven (x * 10 ^ 6) ≤ (⌊x⌋ + 1) * 10 ^ 6 := by
  have low := Int.floor_le x
  have high := Int.lt_floor_add_one x
  constructor
  · rw [← Py.roundHalfEven_intCast (⌊x⌋ * 10 ^ 6)]
    exact Py.roundHalfEven_mono (by push_cast; linarith)
  · rw [← Py.roundHalfEven_intCast ((⌊x⌋ + 1) * 10 ^ 6)]
    exact Py.roundHalfEven_mono (by push_cast; linarith)

/-- The ceiling after a rounding to six places. -/
theorem ceil_roundTo (x : ℚ) :
    ⌈Py.roundTo 6 x⌉ = if x - ⌊x⌋ ≤ 5 / 10 ^ 7 then ⌊x⌋ else ⌊x⌋ + 1 := by
  have low := Int.floor_le x
  have high := Int.lt_floor_add_one x
  obtain ⟨least, most⟩ := six_places_between x
  have same : Py.roundHalfEven (x * 10 ^ 6) = ⌊x⌋ * 10 ^ 6 ↔ x - ⌊x⌋ ≤ 5 / 10 ^ 7 := by
    rw [roundHalfEven_eq_even_iff (by omega)]
    push_cast
    rw [abs_of_nonneg (by linarith)]
    constructor <;> intro near <;> linarith
  have leastQ : (⌊x⌋ : ℚ) * 10 ^ 6 ≤ Py.roundHalfEven (x * 10 ^ 6) := by exact_mod_cast least
  have mostQ : (Py.roundHalfEven (x * 10 ^ 6) : ℚ) ≤ (⌊x⌋ + 1) * 10 ^ 6 := by exact_mod_cast most
  unfold Py.roundTo
  rw [Int.ceil_eq_iff]
  split
  · next near =>
    rw [same.mpr near]
    push_cast
    constructor <;> linarith
  · next far =>
    have differ : ⌊x⌋ * 10 ^ 6 < Py.roundHalfEven (x * 10 ^ 6) :=
      lt_of_le_of_ne least fun eq => far (same.mp eq.symm)
    have differQ : (⌊x⌋ : ℚ) * 10 ^ 6 < Py.roundHalfEven (x * 10 ^ 6) := by exact_mod_cast differ
    push_cast
    constructor
    · rw [lt_div_iff₀ (by norm_num)]
      linarith
    · rw [div_le_iff₀ (by norm_num)]
      linarith

/-- The floor after a rounding to six places. -/
theorem floor_roundTo (x : ℚ) :
    ⌊Py.roundTo 6 x⌋ = if 1 - (x - ⌊x⌋) ≤ 5 / 10 ^ 7 then ⌊x⌋ + 1 else ⌊x⌋ := by
  have turned : Py.roundTo 6 x = -Py.roundTo 6 (-x) := by
    simp only [Py.roundTo, neg_mul, Py.roundHalfEven_neg, Int.cast_neg, neg_div, neg_neg]
  rw [turned, Int.floor_neg, ceil_roundTo, Int.floor_neg]
  by_cases whole : x ∈ Set.range ((↑) : ℤ → ℚ)
  · obtain ⟨n, rfl⟩ := whole
    norm_num
  · rw [(Int.ceil_eq_floor_add_one_iff_notMem x).mpr whole]
    push_cast
    have same : -x - (-1 + -(⌊x⌋ : ℚ)) = 1 - (x - ⌊x⌋) := by ring
    split_ifs <;> grind

/-- The nearest integer is the one above. -/
def RoundsUp (x : ℚ) : Prop := 1 / 2 < x - ⌊x⌋ ∨ x - ⌊x⌋ = 1 / 2 ∧ ⌊x⌋ % 2 = 1

/-- The nearest integer is the one below. -/
def RoundsDown (x : ℚ) : Prop := x - ⌊x⌋ < 1 / 2 ∨ x - ⌊x⌋ = 1 / 2 ∧ ⌊x⌋ % 2 = 0

theorem roundsUp_or_down (x : ℚ) :
    RoundsUp x ∧ Py.roundHalfEven x = ⌊x⌋ + 1 ∨ RoundsDown x ∧ Py.roundHalfEven x = ⌊x⌋ := by
  unfold Py.roundHalfEven
  rcases lt_trichotomy (x - ⌊x⌋) (1 / 2) with below | tie | above
  · right
    exact ⟨.inl below, if_pos below⟩
  · have notBelow : ¬x - ⌊x⌋ < 1 / 2 := by linarith
    have notAbove : ¬1 / 2 < x - ⌊x⌋ := by linarith
    rw [if_neg notBelow, if_neg notAbove]
    rcases Int.emod_two_eq_zero_or_one ⌊x⌋ with even | odd
    · right
      exact ⟨.inr ⟨tie, even⟩, if_pos even⟩
    · left
      refine ⟨.inr ⟨tie, odd⟩, if_neg ?_⟩
      omega
  · left
    refine ⟨.inl above, ?_⟩
    rw [if_neg (by linarith), if_pos above]

theorem not_roundsDown {x : ℚ} (up : RoundsUp x) : ¬RoundsDown x := by
  rintro (below | ⟨tie, even⟩) <;> rcases up with above | ⟨tied, odd⟩
  · linarith
  · linarith
  · linarith
  · omega

/-! ## On the tick -/

theorem tick_pos : 0 < tick := by
  norm_num [tick]

theorem round2_steps (n : ℤ) : Py.round2 (n * tick) = n * tick := by
  have hundredths : (n * tick : ℚ) = ((5 * n : ℤ) : ℚ) / 100 := by
    unfold tick
    push_cast
    ring
  rw [hundredths, Py.round2_hundredths]

theorem max_tick_steps (n : ℤ) : max tick (n * tick) = (max 1 n : ℤ) * tick := by
  push_cast
  rw [max_mul_of_nonneg _ _ tick_pos.le, one_mul]

/-- The tick outward of a price in ticks, but for what the rounding to six places drops. -/
def outwardSteps (side : Side) (x : ℚ) : ℤ :=
  match side with
  | .buy => ⌈Py.roundTo 6 x⌉
  | .sell => ⌊Py.roundTo 6 x⌋

theorem protectedLimitPrice_eq (reference : ℚ) (side : Side) (pct : ℚ) :
    protectedLimitPrice reference side pct =
      (max 1 (Py.roundHalfEven (rawLimit reference side pct / tick)) : ℤ) * tick := by
  unfold protectedLimitPrice
  rw [round2_steps, max_tick_steps]

theorem marketableLimitPrice_eq {reference : ℚ} (positive : 0 < reference) (side : Side) (pct : ℚ) :
    marketableLimitPrice reference side pct =
      some ((max 1 (outwardSteps side (rawLimit reference side pct / tick)) : ℤ) * tick) := by
  have same : (defaultTick : ℚ) = tick := by
    norm_num [defaultTick, tick]
  unfold marketableLimitPrice
  rw [if_neg (not_le.mpr positive)]
  cases side <;>
    simp only [same, max_tick_steps, round2_steps, outwardSteps, rawLimit]

/-- The reference is inside the limit and it is the limit of the other paths: what else a protected limit is
for holds of every one, or follows. -/
theorem marketable_iff {reference pct : ℚ} {side : Side} :
    Marketable reference side pct ↔
      inside side reference (protectedLimitPrice reference side pct) = true ∧
      marketableLimitPrice reference side pct = some (protectedLimitPrice reference side pct) := by
  constructor
  · rintro ⟨reached, -, oneRule, -⟩
    exact ⟨reached, oneRule⟩
  · rintro ⟨reached, oneRule⟩
    refine ⟨reached, ?_, oneRule, ?_⟩
    · rw [protectedLimitPrice_eq]
      generalize Py.roundHalfEven _ = steps
      have least : 1 ≤ max 1 steps := le_max_left _ _
      refine ⟨(max 1 steps).toNat, by omega, ?_⟩
      congr 1
      exact_mod_cast (Int.toNat_of_nonneg (by omega)).symm
    · intro money
      unfold paperFill
      simp only
      rw [if_pos reached]

theorem steps_injective {m n : ℤ} (same : (m : ℚ) * tick = n * tick) : m = n := by
  have cancelled := mul_right_cancel₀ tick_pos.ne' same
  exact_mod_cast cancelled

/-! ## When the limit is marketable -/

section

variable {reference : ℚ} (priced : tick ≤ reference) (pct : ℚ)
include priced

theorem band_nonneg : 0 ≤ reference * (max 0 pct / 100) := by
  have positive := tick_pos
  exact mul_nonneg (by linarith) (div_nonneg (le_max_left _ _) (by norm_num))

theorem reference_le_rawLimit : reference ≤ rawLimit reference .buy pct := by
  have room := band_nonneg priced pct
  simp only [rawLimit]
  linarith

theorem rawLimit_le_reference : rawLimit reference .sell pct ≤ reference := by
  have room := band_nonneg priced pct
  simp only [rawLimit]
  linarith

/-- A buy is marketable where the nearest tick is the outward one and is not below the reference. -/
theorem marketable_buy : Marketable reference .buy pct ↔ OutwardIsNearest reference .buy pct := by
  have beyond := reference_le_rawLimit priced pct
  have positive := tick_pos
  rw [marketable_iff, protectedLimitPrice_eq, marketableLimitPrice_eq (by linarith)]
  unfold OutwardIsNearest pastTick
  simp only [outwardSteps, ceil_roundTo, inside, decide_eq_true_eq, Option.some.injEq]
  generalize rawLimit reference .buy pct = raw at beyond ⊢
  have ticks : raw / tick * tick = raw := div_mul_cancel₀ _ positive.ne'
  have priceable : 1 ≤ raw / tick := by
    rw [le_div_iff₀ positive]
    linarith
  generalize raw / tick = x at ticks priceable ⊢
  have low := Int.floor_le x
  have high := Int.lt_floor_add_one x
  have whole : 1 ≤ ⌊x⌋ := Int.le_floor.mpr (by exact_mod_cast priceable)
  rcases roundsUp_or_down x with ⟨up, nearest⟩ | ⟨down, nearest⟩
  · rw [nearest, max_eq_right (by omega : (1 : ℤ) ≤ ⌊x⌋ + 1)]
    have far : ¬x - ⌊x⌋ ≤ 5 / 10 ^ 7 := by
      rcases up with above | ⟨tie, -⟩ <;> linarith
    rw [if_neg far, max_eq_right (by omega : (1 : ℤ) ≤ ⌊x⌋ + 1)]
    have outside : reference ≤ ((⌊x⌋ + 1 : ℤ) : ℚ) * tick := by
      have step : x * tick ≤ ((⌊x⌋ + 1 : ℤ) : ℚ) * tick := by
        push_cast
        exact mul_le_mul_of_nonneg_right high.le positive.le
      linarith
    exact iff_of_true ⟨outside, rfl⟩ (up.imp_right .inl)
  · rw [nearest, max_eq_right whole]
    have notUp : ¬(1 / 2 < x - ⌊x⌋ ∨ x - ⌊x⌋ = 1 / 2 ∧ ⌊x⌋ % 2 = 1) := fun up => not_roundsDown up down
    rw [← or_assoc, or_iff_right notUp]
    have rest : (x - ⌊x⌋) * tick = raw - ⌊x⌋ * tick := by
      rw [sub_mul, ticks]
    rw [rest]
    by_cases near : x - ⌊x⌋ ≤ 5 / 10 ^ 7
    · rw [if_pos near, max_eq_right whole]
      constructor
      · rintro ⟨reached, -⟩
        exact ⟨near, by linarith⟩
      · rintro ⟨-, reached⟩
        exact ⟨by linarith, rfl⟩
    · rw [if_neg near, max_eq_right (by omega : (1 : ℤ) ≤ ⌊x⌋ + 1)]
      constructor
      · rintro ⟨-, oneRule⟩
        have clash := steps_injective oneRule
        omega
      · rintro ⟨close, -⟩
        exact absurd close near

/-- A sale is marketable where the nearest tick is the outward one and is not above the reference; one tick is
the least limit there is. -/
theorem marketable_sell : Marketable reference .sell pct ↔ OutwardIsNearest reference .sell pct := by
  have beyond := rawLimit_le_reference priced pct
  have positive := tick_pos
  rw [marketable_iff, protectedLimitPrice_eq, marketableLimitPrice_eq (by linarith)]
  unfold OutwardIsNearest pastTick
  simp only [outwardSteps, floor_roundTo, inside, decide_eq_true_eq, Option.some.injEq]
  generalize rawLimit reference .sell pct = raw at beyond ⊢
  have ticks : raw / tick * tick = raw := div_mul_cancel₀ _ positive.ne'
  have least : raw < tick ↔ raw / tick < 1 := by
    rw [div_lt_iff₀ positive, one_mul]
  rw [least]
  generalize raw / tick = x at ticks ⊢
  have low := Int.floor_le x
  have high := Int.lt_floor_add_one x
  rcases lt_or_ge x 1 with small | priceable
  · -- both are put up to the least limit
    have wholeQ : (⌊x⌋ : ℚ) < 1 := by linarith
    have whole : ⌊x⌋ < 1 := by exact_mod_cast wholeQ
    have nearest : max 1 (Py.roundHalfEven x) = 1 := by
      rcases roundsUp_or_down x with ⟨-, nearest⟩ | ⟨-, nearest⟩ <;> rw [nearest] <;> omega
    have outward : max 1 (if 1 - (x - ⌊x⌋) ≤ 5 / 10 ^ 7 then ⌊x⌋ + 1 else ⌊x⌋) = 1 := by
      split <;> omega
    rw [nearest, outward]
    refine iff_of_true ⟨?_, rfl⟩ (.inl small)
    push_cast
    linarith
  · have whole : 1 ≤ ⌊x⌋ := Int.le_floor.mpr (by exact_mod_cast priceable)
    rw [or_iff_right (not_lt.mpr priceable)]
    rcases roundsUp_or_down x with ⟨up, nearest⟩ | ⟨down, nearest⟩
    · rw [nearest, max_eq_right (by omega : (1 : ℤ) ≤ ⌊x⌋ + 1)]
      have notDown : ¬(x - ⌊x⌋ < 1 / 2 ∨ x - ⌊x⌋ = 1 / 2 ∧ ⌊x⌋ % 2 = 0) := not_roundsDown up
      rw [← or_assoc, or_iff_right notDown]
      have rest : (1 - (x - ⌊x⌋)) * tick = ((⌊x⌋ + 1 : ℤ) : ℚ) * tick - raw := by
        rw [← ticks]
        push_cast
        ring
      rw [rest]
      by_cases near : 1 - (x - ⌊x⌋) ≤ 5 / 10 ^ 7
      · rw [if_pos near, max_eq_right (by omega : (1 : ℤ) ≤ ⌊x⌋ + 1)]
        constructor
        · rintro ⟨reached, -⟩
          exact ⟨near, by linarith⟩
        · rintro ⟨-, reached⟩
          exact ⟨by linarith, rfl⟩
      · rw [if_neg near, max_eq_right whole]
        constructor
        · rintro ⟨-, oneRule⟩
          have clash := steps_injective oneRule
          omega
        · rintro ⟨close, -⟩
          exact absurd close near
    · rw [nearest, max_eq_right whole]
      have far : ¬1 - (x - ⌊x⌋) ≤ 5 / 10 ^ 7 := by
        rcases down with below | ⟨tie, -⟩ <;> linarith
      rw [if_neg far, max_eq_right whole]
      have outside : (⌊x⌋ : ℚ) * tick ≤ reference := by
        have step : ⌊x⌋ * tick ≤ x * tick := mul_le_mul_of_nonneg_right low positive.le
        linarith
      exact iff_of_true ⟨outside, rfl⟩ (down.imp_right .inl)

end

/-- A protected limit is marketable, by one rule on every path, exactly where the tick nearest to the raw price
is the one outward of it. -/
theorem protected_limit_marketable_iff {reference : ℚ} (priced : tick ≤ reference) (side : Side) (protectionPct : ℚ) :
    Marketable reference side protectionPct ↔ OutwardIsNearest reference side protectionPct := by
  cases side with
  | buy => exact marketable_buy priced protectionPct
  | sell => exact marketable_sell priced protectionPct

/-- A buy at 106.00 with a band of half a percent is sent at 106.55, outward and nearest. -/
theorem wide_band_marketable : Marketable 106 .buy (1 / 2) :=
  (protected_limit_marketable_iff (by norm_num [tick]) .buy (1 / 2)).mpr (by
    left
    norm_num [pastTick, rawLimit, tick])

/-- At 1.01 with a band of half a percent the router buys at 1.00, below the reference. -/
theorem narrow_band_below_reference : ¬Marketable (101 / 100) .buy (1 / 2) := by
  intro marketable
  have reached := marketable.inside
  revert reached
  decide +kernel

end AdvanceTrading.PaperAdapter
