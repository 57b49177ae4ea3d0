import AdvanceTrading.Instruments.ExpiryPayoff
import Mathlib.Algebra.Order.Group.MinMax

/-!
# The analysis of a payoff is sound and tight

Over every underlying from zero on, the profit is within the loss and the profit
`analyse` tells where it tells one, and is without bound where it tells none. The
figures are the ones before their rounding; no two legs share more than an expiry.
-/

namespace AdvanceTrading.Structures

open Piecewise

/-! ## The extremes are reached -/

theorem foldr_max_mem {α : Type*} [LinearOrder α] (xs : List α) (x : α) : xs.foldr max x = x ∨ xs.foldr max x ∈ xs := by
  induction xs with
  | nil => exact .inl rfl
  | cons y ys ih =>
    rw [List.foldr_cons]
    rcases max_choice y (ys.foldr max x) with first | later
    · rw [first]
      exact .inr List.mem_cons_self
    · rw [later]
      exact ih.imp_right (List.mem_cons_of_mem y)

theorem foldr_min_mem {α : Type*} [LinearOrder α] (xs : List α) (x : α) : xs.foldr min x = x ∨ xs.foldr min x ∈ xs :=
  @foldr_max_mem αᵒᵈ _ xs x

variable {legs : List PayoffLeg}

section

variable (positive : ∀ l ∈ legs, 0 < l.strike)
include positive

theorem strikesOf_pos {k : ℚ} (mem : k ∈ strikesOf legs) : 0 < k := by
  obtain ⟨l, isLeg, rfl⟩ := mem_strikesOf.mp mem
  exact positive l isLeg

theorem peakOf_mem : ∃ s, 0 ≤ s ∧ pnl legs s = peakOf legs := by
  rcases foldr_max_mem ((strikesOf legs).map (pnl legs)) (pnl legs 0) with atZero | atStrike
  · exact ⟨0, le_rfl, atZero.symm⟩
  · obtain ⟨k, mem, value⟩ := List.mem_map.mp atStrike
    exact ⟨k, (strikesOf_pos positive mem).le, value⟩

theorem troughOf_mem : ∃ s, 0 ≤ s ∧ pnl legs s = troughOf legs := by
  rcases foldr_min_mem ((strikesOf legs).map (pnl legs)) (pnl legs 0) with atZero | atStrike
  · exact ⟨0, le_rfl, atZero.symm⟩
  · obtain ⟨k, mem, value⟩ := List.mem_map.mp atStrike
    exact ⟨k, (strikesOf_pos positive mem).le, value⟩

theorem pieces_strikes : Pieces (pnl legs) (slopeUp legs : ℚ) 0 (strikesOf legs) := by
  have ascending : (0 :: strikesOf legs).Pairwise (· < ·) :=
    List.pairwise_cons.mpr ⟨fun k mem => strikesOf_pos positive mem, strictly_ordered _⟩
  exact pieces_pnl ascending fun l mem => .inr (mem_strikesOf.mpr ⟨l, mem, rfl⟩)

theorem pnl_le_peakOf (falls : slopeUp legs ≤ 0) {s : ℚ} (nonneg : 0 ≤ s) : pnl legs s ≤ peakOf legs := by
  obtain ⟨atZero, atStrikes⟩ := peakOf_le.mp (le_refl (peakOf legs))
  apply (pieces_strikes positive).le (by exact_mod_cast falls) _ nonneg
  intro p mem
  rcases List.mem_cons.mp mem with rfl | mem
  · exact atZero
  · obtain ⟨l, isLeg, rfl⟩ := mem_strikesOf.mp mem
    exact atStrikes l isLeg

theorem troughOf_le_pnl (climbs : 0 ≤ slopeUp legs) {s : ℚ} (nonneg : 0 ≤ s) : troughOf legs ≤ pnl legs s := by
  obtain ⟨atZero, atStrikes⟩ := le_troughOf.mp (le_refl (troughOf legs))
  apply (pieces_strikes positive).ge (by exact_mod_cast climbs) _ nonneg
  intro p mem
  rcases List.mem_cons.mp mem with rfl | mem
  · exact atZero
  · obtain ⟨l, isLeg, rfl⟩ := mem_strikesOf.mp mem
    exact atStrikes l isLeg

end

/-! ## Steepness -/

theorem PayoffLeg.abs_intrinsic_sub (l : PayoffLeg) (x y : ℚ) : |l.intrinsic x - l.intrinsic y| ≤ |x - y| := by
  unfold PayoffLeg.intrinsic
  cases l.right with
  | ce =>
    simp only [if_true]
    have near := abs_max_sub_max_le_abs (x - l.strike) (y - l.strike) 0
    rwa [sub_sub_sub_cancel_right] at near
  | pe =>
    simp only [reduceCtorEq, if_false]
    have near := abs_max_sub_max_le_abs (l.strike - x) (l.strike - y) 0
    rwa [sub_sub_sub_cancel_left, abs_sub_comm y x] at near

/-- The steepest a profit can be: every leg the same way. -/
def steepest (legs : List PayoffLeg) : ℚ := (legs.map fun l => |((l.sign * l.ratio : ℤ) : ℚ)|).sum

theorem abs_pnl_sub (legs : List PayoffLeg) (x y : ℚ) : |pnl legs x - pnl legs y| ≤ steepest legs * |x - y| := by
  have terms : |(legs.map fun l => ((l.sign * l.ratio : ℤ) : ℚ) * l.intrinsic x).sum -
      (legs.map fun l => ((l.sign * l.ratio : ℤ) : ℚ) * l.intrinsic y).sum| ≤ steepest legs * |x - y| := by
    unfold steepest
    induction legs with
    | nil => simp
    | cons l legs ih =>
      simp only [List.map_cons, List.sum_cons]
      have leg : |((l.sign * l.ratio : ℤ) : ℚ) * l.intrinsic x - ((l.sign * l.ratio : ℤ) : ℚ) * l.intrinsic y| ≤
          |((l.sign * l.ratio : ℤ) : ℚ)| * |x - y| := by
        rw [← mul_sub, abs_mul]
        exact mul_le_mul_of_nonneg_left (l.abs_intrinsic_sub x y) (abs_nonneg _)
      rw [add_sub_add_comm, add_mul]
      exact (abs_add_le _ _).trans (add_le_add leg ih)
  unfold pnl
  rwa [add_sub_add_left_eq_sub]

/-! ## The analysis -/

/-- What an analysis tells is so: the loss and the profit bound the payoff and are reached, a side it calls open is
without bound, a breakeven is a root, and where the sign changes there is a breakeven. -/
structure SoundAndTight (legs : List PayoffLeg) (a : PayoffAnalysis) : Prop where
  loss : ∀ most ∈ a.maxLoss, (∀ s, 0 ≤ s → -most ≤ pnl legs s) ∧ (0 < most → ∃ s, 0 ≤ s ∧ pnl legs s = -most)
  profit : ∀ most ∈ a.maxProfit, (∀ s, 0 ≤ s → pnl legs s ≤ most) ∧ ∃ s, 0 ≤ s ∧ pnl legs s = most
  openLoss : a.upsideDefined = false → ∀ bound, ∃ start, ∀ s, start ≤ s → pnl legs s < bound
  openProfit : a.maxProfit = none → ∀ bound, ∃ start, ∀ s, start ≤ s → bound < pnl legs s
  roots : ∀ b ∈ a.breakevens, pnl legs b = 0
  changes : ∀ s, 0 < s → SignChanges (pnl legs) s → s ∈ a.breakevens

/-- The analysis of legs of positive strikes is sound and tight. -/
theorem analyse_soundAndTight {a : PayoffAnalysis} (positive : ∀ l ∈ legs, 0 < l.strike)
    (analysed : analyse id legs = some a) : SoundAndTight legs a := by
  unfold analyse at analysed
  split at analysed
  · cases analysed
  obtain rfl := Option.some.inj analysed
  have breakeven : ∀ b, b ∈ (analysisOf id legs).breakevens ↔ b ∈ breakevensOf legs := by
    intro b
    unfold analysisOf
    rw [List.map_id, mem_ordered]
  refine { loss := ?_, profit := ?_, openLoss := ?_, openProfit := ?_, roots := ?_, changes := ?_ }
  · intro most told
    simp only [analysisOf, id_eq, Option.mem_def] at told
    split at told
    · next defined =>
      obtain rfl := Option.some.inj told
      simp only [Bool.and_eq_true, decide_eq_true_eq] at defined
      have least : ∀ s, 0 ≤ s → troughOf legs ≤ pnl legs s := fun s nonneg => troughOf_le_pnl positive defined.1 nonneg
      refine ⟨fun s nonneg => ?_, fun isLoss => ?_⟩
      · have worst := le_max_right 0 (-troughOf legs)
        linarith [least s nonneg]
      · have worst : max 0 (-troughOf legs) = -troughOf legs :=
          (max_choice 0 (-troughOf legs)).resolve_left fun none_ => absurd none_ isLoss.ne'
        rw [worst, neg_neg]
        exact troughOf_mem positive
    · cases told
  · intro most told
    simp only [analysisOf, id_eq, Option.mem_def] at told
    split at told
    · cases told
    · next level =>
      obtain rfl := Option.some.inj told
      exact ⟨fun s nonneg => pnl_le_peakOf positive (not_lt.mp level) nonneg, peakOf_mem positive⟩
  · intro isOpen bound
    simp only [analysisOf, decide_eq_false_iff_not, not_le] at isOpen
    obtain ⟨last, tail⟩ := (pieces_strikes positive).slopeFrom_last
    exact tail.falls_below (by exact_mod_cast isOpen) bound
  · intro untold bound
    have climbs : 0 < slopeUp legs := by
      by_contra level
      simp [analysisOf, level] at untold
    obtain ⟨last, tail⟩ := (pieces_strikes positive).slopeFrom_last
    exact tail.exceeds (by exact_mod_cast climbs) bound
  · intro b told
    exact ((mem_breakevens positive).mp ((breakeven b).mp told)).2.1
  · intro s isPositive changes
    have root := root_of_signChanges (abs_pnl_sub legs) changes
    obtain ⟨y, nonneg, nonzero, beside⟩ := exists_beside_of_signChanges (strikesOf legs) root changes
    rw [breakeven, mem_breakevens positive]
    exact ⟨isPositive, root, .inr ⟨y, nonneg, nonzero, fun l mem =>
      beside l.strike (mem_strikesOf.mpr ⟨l, mem, rfl⟩)⟩⟩

/-- A call ratio spread, one bought at 100 and two sold at 110: an open loss, and its breakevens at 102 and 118. -/
theorem ratio_spread_analysed :
    SoundAndTight [⟨.ce, .long, 100, 6, 1⟩, ⟨.ce, .short, 110, 2, 2⟩]
      (analysisOf id [⟨.ce, .long, 100, 6, 1⟩, ⟨.ce, .short, 110, 2, 2⟩]) :=
  analyse_soundAndTight (by decide +kernel) rfl

end AdvanceTrading.Structures
