import AdvanceTrading.Instruments.ExpiryPayoff
import AdvanceTrading.Misc.Rounding
import Mathlib.Algebra.Order.Group.MinMax

/-!
# The other side of a structure

Who takes the other side of every leg, the bought sold and the sold bought, wins what this side loses. What
`analyse` tells of that side is told by what it tells of this one: the roots are the same, the extremes and the
credit change their sign, and the side left open is the one whose profit was.
-/

namespace AdvanceTrading.Structures

open Piecewise

variable {legs : List PayoffLeg}

/-- The leg of the one who takes the other side. -/
def PayoffLeg.countered (leg : PayoffLeg) : PayoffLeg :=
  { leg with role := if leg.role = .long then .short else .long }

/-- The legs of the one who takes the other side. -/
abbrev countered (legs : List PayoffLeg) : List PayoffLeg := legs.map PayoffLeg.countered

/-- What is told of the other side, by what is told of this one. -/
def PayoffAnalysis.countered (a : PayoffAnalysis) : PayoffAnalysis where
  netCredit := -a.netCredit
  peak := -a.trough
  trough := -a.peak
  maxProfit := if a.slopeUp < 0 then none else some (-a.trough)
  maxLoss := if a.slopeUp ≤ 0 ∧ 0 ≤ a.slopeDown then some (max 0 a.peak) else none
  breakevens := a.breakevens
  upsideDefined := decide (a.slopeUp ≤ 0)
  downsideDefined := decide (0 ≤ a.slopeDown)
  slopeUp := -a.slopeUp
  slopeDown := -a.slopeDown
  strikes := a.strikes

theorem countered_countered (legs : List PayoffLeg) : countered (countered legs) = legs := by
  induction legs with
  | nil => rfl
  | cons l legs ih =>
    obtain ⟨right, role, strike, premium, ratio⟩ := l
    cases role <;> exact congrArg (List.cons _) ih

@[simp] theorem PayoffLeg.sign_countered (leg : PayoffLeg) : leg.countered.sign = -leg.sign := by
  unfold countered sign
  cases leg.role <;> rfl

/-! ## Sums over the legs -/

/-- A sum of what every leg changes the sign of. -/
theorem sum_countered {M : Type} [AddCommGroup M] {g : PayoffLeg → M} (odd : ∀ l, g l.countered = -g l)
    (legs : List PayoffLeg) : ((countered legs).map g).sum = -(legs.map g).sum := by
  induction legs with
  | nil => simp
  | cons l legs ih =>
    show g l.countered + ((countered legs).map g).sum = -(g l + (legs.map g).sum)
    rw [odd, ih, neg_add]

theorem netCredit_countered : netCredit (countered legs) = -netCredit legs := by
  refine sum_countered (fun l => ?_) legs
  show ((-l.countered.sign * l.ratio : ℤ) : ℚ) * l.premium = _
  rw [l.sign_countered]
  push_cast
  ring

/-- What one side wins the other loses. -/
theorem pnl_countered : pnl (countered legs) = fun spot => -pnl legs spot := by
  funext spot
  unfold pnl
  rw [netCredit_countered, neg_add, ← sum_countered fun l => ?_]
  show ((l.countered.sign * l.ratio : ℤ) : ℚ) * l.intrinsic spot = _
  rw [l.sign_countered]
  push_cast
  ring

theorem slopeUp_countered : slopeUp (countered legs) = -slopeUp legs := by
  unfold slopeUp
  rw [List.filter_map]
  refine sum_countered (fun l => ?_) _
  show l.countered.sign * l.ratio = _
  rw [l.sign_countered, neg_mul]

theorem slopeDown_countered : slopeDown (countered legs) = -slopeDown legs := by
  unfold slopeDown
  rw [List.filter_map]
  refine sum_countered (fun l => ?_) _
  show -l.countered.sign * l.ratio = _
  rw [l.sign_countered, neg_mul]

/-! ## The extremes and the roots -/

theorem strikesOf_countered : strikesOf (countered legs) = strikesOf legs := by
  unfold strikesOf
  rw [List.map_map]
  rfl

theorem foldr_max_neg {R : Type*} [AddCommGroup R] [LinearOrder R] [IsOrderedAddMonoid R]
    (xs : List R) (x : R) : (xs.map Neg.neg).foldr max (-x) = -xs.foldr min x := by
  induction xs with
  | nil => rfl
  | cons y ys ih => rw [List.map_cons, List.foldr_cons, List.foldr_cons, ih, max_neg_neg]

theorem peakOf_countered (legs : List PayoffLeg) : peakOf (countered legs) = -troughOf legs := by
  unfold peakOf troughOf
  rw [strikesOf_countered, pnl_countered, ← foldr_max_neg, List.map_map]
  rfl

theorem troughOf_countered : troughOf (countered legs) = -peakOf legs := by
  have peak := peakOf_countered (countered legs)
  rw [countered_countered] at peak
  rw [peak, neg_neg]

theorem breakevensOf_countered : breakevensOf (countered legs) = breakevensOf legs := by
  unfold breakevensOf
  rw [strikesOf_countered, pnl_countered, slopeUp_countered, Int.cast_neg, roots_neg]

/-- What is told of the other side of a structure is the mirror of what is told of this one, and at every spot the
one wins what the other loses. -/
theorem analyse_countered (legs : List PayoffLeg) :
    analyse Py.round2 (countered legs) = (analyse Py.round2 legs).map PayoffAnalysis.countered ∧
      ∀ spot, pnl (countered legs) spot = -pnl legs spot := by
  refine ⟨?_, congrFun pnl_countered⟩
  unfold analyse
  by_cases none_ : legs = []
  · rw [none_]
    rfl
  rw [if_neg none_, if_neg (by rwa [List.map_eq_nil_iff]), Option.map_some]
  -- a loss never below zero is so before the rounding as after it
  have worst : Py.round2 (max 0 (peakOf legs)) = max 0 (Py.round2 (peakOf legs)) := by
    have kept : Monotone Py.round2 := fun _ _ => Py.round2_mono
    rw [kept.map_max, Py.round2_zero]
  unfold analysisOf PayoffAnalysis.countered
  simp only [netCredit_countered, peakOf_countered, troughOf_countered, slopeUp_countered, slopeDown_countered,
    breakevensOf_countered, strikesOf_countered, Py.round2_neg, neg_neg, Left.neg_pos_iff, Left.nonneg_neg_iff,
    Left.neg_nonpos_iff, worst, Bool.and_eq_true, decide_eq_true_eq]

end AdvanceTrading.Structures
