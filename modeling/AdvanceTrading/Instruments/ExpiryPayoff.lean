import AdvanceTrading.Instruments.StructurePlan
import AdvanceTrading.Misc.PiecewiseLinear
import AdvanceTrading.Misc.PyText

/-!
# The payoff at expiry

Model of `app/instruments/payoff.py`: the profit of a set of option legs as a function of the
underlying at expiry, its extremes at the strikes and its roots. `rnd` is the rounding of the
figures: `Py.round2` in the code, the identity where the figures before it are meant.
-/

namespace AdvanceTrading.Structures

open Piecewise

structure PayoffLeg where
  right : Right
  role : Role
  strike : ℚ
  premium : ℚ
  ratio : ℤ := 1
  deriving DecidableEq

def PayoffLeg.sign (leg : PayoffLeg) : ℤ := if leg.role = .long then 1 else -1

def PayoffLeg.intrinsic (leg : PayoffLeg) (spot : ℚ) : ℚ :=
  if leg.right = .ce then max (spot - leg.strike) 0 else max (leg.strike - spot) 0

structure PayoffAnalysis where
  netCredit : ℚ
  peak : ℚ
  trough : ℚ
  maxProfit : Option ℚ
  maxLoss : Option ℚ
  breakevens : List ℚ
  upsideDefined : Bool
  downsideDefined : Bool
  slopeUp : ℤ
  slopeDown : ℤ
  strikes : List ℚ
  deriving DecidableEq

/-- `net_credit` before its rounding. -/
def netCredit (legs : List PayoffLeg) : ℚ := (legs.map fun l => ((-l.sign * l.ratio : ℤ) : ℚ) * l.premium).sum

/-- `pnl`. -/
def pnl (legs : List PayoffLeg) (spot : ℚ) : ℚ :=
  netCredit legs + (legs.map fun l => ((l.sign * l.ratio : ℤ) : ℚ) * l.intrinsic spot).sum

def slopeUp (legs : List PayoffLeg) : ℤ := ((legs.filter fun l => l.right = .ce).map fun l => l.sign * l.ratio).sum

def slopeDown (legs : List PayoffLeg) : ℤ := ((legs.filter fun l => l.right = .pe).map fun l => -l.sign * l.ratio).sum

/-- `sorted({leg.strike for leg in legs})`. -/
def strikesOf (legs : List PayoffLeg) : List ℚ := ordered (legs.map (·.strike))

/-- The best value at a strike or at zero. -/
def peakOf (legs : List PayoffLeg) : ℚ := ((strikesOf legs).map (pnl legs)).foldr max (pnl legs 0)

/-- The worst value at a strike or at zero. -/
def troughOf (legs : List PayoffLeg) : ℚ := ((strikesOf legs).map (pnl legs)).foldr min (pnl legs 0)

/-- The positive roots, before their rounding. -/
def breakevensOf (legs : List PayoffLeg) : List ℚ :=
  (roots (pnl legs) (slopeUp legs : ℚ) 0 (strikesOf legs)).filter fun b => 0 < b

/-- What `analyse` tells of legs. -/
def analysisOf (rnd : ℚ → ℚ) (legs : List PayoffLeg) : PayoffAnalysis :=
  let upside := decide (0 ≤ slopeUp legs)
  let downside := decide (slopeDown legs ≤ 0)
  { netCredit := rnd (netCredit legs)
    peak := rnd (peakOf legs)
    trough := rnd (troughOf legs)
    maxProfit := if 0 < slopeUp legs then none else some (rnd (peakOf legs))
    maxLoss := if upside && downside then some (rnd (max 0 (-troughOf legs))) else none
    breakevens := ordered ((breakevensOf legs).map rnd)
    upsideDefined := upside
    downsideDefined := downside
    slopeUp := slopeUp legs
    slopeDown := slopeDown legs
    strikes := strikesOf legs }

/-- `analyse`; no legs are refused. -/
def analyse (rnd : ℚ → ℚ) (legs : List PayoffLeg) : Option PayoffAnalysis :=
  if legs = [] then none else some (analysisOf rnd legs)

/-! ## The extremes -/

theorem foldr_max_le {α : Type*} [LinearOrder α] {xs : List α} {x bound : α} :
    xs.foldr max x ≤ bound ↔ x ≤ bound ∧ ∀ y ∈ xs, y ≤ bound := by
  induction xs with
  | nil => simp
  | cons y ys ih =>
    rw [List.foldr_cons, max_le_iff, ih, List.forall_mem_cons]
    tauto

theorem le_foldr_min {α : Type*} [LinearOrder α] {xs : List α} {x bound : α} :
    bound ≤ xs.foldr min x ↔ bound ≤ x ∧ ∀ y ∈ xs, bound ≤ y := by
  induction xs with
  | nil => simp
  | cons y ys ih =>
    rw [List.foldr_cons, le_min_iff, ih, List.forall_mem_cons]
    tauto

variable {legs : List PayoffLeg} {bound spot : ℚ}

theorem mem_strikesOf : spot ∈ strikesOf legs ↔ ∃ l ∈ legs, l.strike = spot := by
  rw [strikesOf, ordered, mem_sortBy, List.mem_dedup, List.mem_map]

theorem peakOf_le : peakOf legs ≤ bound ↔ pnl legs 0 ≤ bound ∧ ∀ l ∈ legs, pnl legs l.strike ≤ bound := by
  rw [peakOf, foldr_max_le, List.forall_mem_map]
  refine and_congr_right fun _ => ⟨fun all l mem => all l.strike (mem_strikesOf.mpr ⟨l, mem, rfl⟩), fun all k mem => ?_⟩
  obtain ⟨l, isLeg, rfl⟩ := mem_strikesOf.mp mem
  exact all l isLeg

theorem le_troughOf : bound ≤ troughOf legs ↔ bound ≤ pnl legs 0 ∧ ∀ l ∈ legs, bound ≤ pnl legs l.strike := by
  rw [troughOf, le_foldr_min, List.forall_mem_map]
  refine and_congr_right fun _ => ⟨fun all l mem => all l.strike (mem_strikesOf.mpr ⟨l, mem, rfl⟩), fun all k mem => ?_⟩
  obtain ⟨l, isLeg, rfl⟩ := mem_strikesOf.mp mem
  exact all l isLeg

/-! ## The pieces -/

theorem PayoffLeg.linearOn (l : PayoffLeg) {a b : ℚ} (apart : l.strike ≤ a ∨ b ≤ l.strike) :
    LinearOn l.intrinsic a b := by
  unfold PayoffLeg.intrinsic
  cases l.right with
  | ce =>
    simp only [if_true]
    rcases apart with before | after
    · refine ⟨1, fun x from_a _ => ?_⟩
      beta_reduce
      rw [max_eq_left (by linarith), max_eq_left (by linarith)]
      ring
    · refine ⟨0, fun x from_a to_b => ?_⟩
      beta_reduce
      rw [max_eq_right (by linarith), max_eq_right (by linarith)]
      ring
  | pe =>
    simp only [reduceCtorEq, if_false]
    rcases apart with before | after
    · refine ⟨0, fun x from_a _ => ?_⟩
      beta_reduce
      rw [max_eq_right (by linarith), max_eq_right (by linarith)]
      ring
    · refine ⟨-1, fun x from_a to_b => ?_⟩
      beta_reduce
      rw [max_eq_left (by linarith), max_eq_left (by linarith)]
      ring

theorem PayoffLeg.slopeFrom (l : PayoffLeg) {a : ℚ} (before : l.strike ≤ a) :
    SlopeFrom l.intrinsic (if l.right = .ce then 1 else 0) a := by
  unfold PayoffLeg.intrinsic
  cases l.right with
  | ce =>
    intro x from_a
    simp only [if_true]
    rw [max_eq_left (by linarith), max_eq_left (by linarith)]
    ring
  | pe =>
    intro x from_a
    simp only [reduceCtorEq, if_false]
    rw [max_eq_right (by linarith), max_eq_right (by linarith)]
    ring

theorem linearOn_pnl {a b : ℚ} (apart : ∀ l ∈ legs, l.strike ≤ a ∨ b ≤ l.strike) : LinearOn (pnl legs) a b := by
  have intrinsics : LinearOn (fun s => (legs.map fun l => ((l.sign * l.ratio : ℤ) : ℚ) * l.intrinsic s).sum) a b := by
    induction legs with
    | nil => exact linearOn_const 0
    | cons l legs ih =>
      simp only [List.map_cons, List.sum_cons]
      exact ((l.linearOn (apart l (List.mem_cons_self ..))).mul _).add
        (ih fun l mem => apart l (List.mem_cons_of_mem _ mem))
  exact (linearOn_const _).add intrinsics

theorem slopeFrom_pnl {a : ℚ} (before : ∀ l ∈ legs, l.strike ≤ a) : SlopeFrom (pnl legs) (slopeUp legs) a := by
  have intrinsics : SlopeFrom (fun s =>
      (legs.map fun l => ((l.sign * l.ratio : ℤ) : ℚ) * l.intrinsic s).sum) (slopeUp legs) a := by
    induction legs with
    | nil => exact slopeFrom_const 0
    | cons l legs ih =>
      have first := (l.slopeFrom (before l (List.mem_cons_self ..))).mul ((l.sign * l.ratio : ℤ) : ℚ)
      have others := ih fun l mem => before l (List.mem_cons_of_mem _ mem)
      have slope : ((slopeUp (l :: legs) : ℤ) : ℚ) =
          ((l.sign * l.ratio : ℤ) : ℚ) * (if l.right = .ce then 1 else 0) + slopeUp legs := by
        unfold slopeUp
        rw [List.filter_cons]
        cases l.right <;> simp
      rw [slope]
      simp only [List.map_cons, List.sum_cons]
      exact first.add others
  have whole := (slopeFrom_const (a := a) (netCredit legs)).add intrinsics
  rw [zero_add] at whole
  exact whole

theorem pieces_pnl {a : ℚ} {rest : List ℚ} (ascending : (a :: rest).Pairwise (· < ·))
    (covered : ∀ l ∈ legs, l.strike ≤ a ∨ l.strike ∈ rest) :
    Pieces (pnl legs) (slopeUp legs) a rest := by
  induction rest generalizing a with
  | nil => exact slopeFrom_pnl fun l mem => (covered l mem).resolve_right List.not_mem_nil
  | cons b rest ih =>
    obtain ⟨first, ascending'⟩ := List.pairwise_cons.mp ascending
    obtain ⟨second, -⟩ := List.pairwise_cons.mp ascending'
    refine ⟨linearOn_pnl fun l mem => (covered l mem).imp id ?_, ih ascending' fun l mem => ?_⟩
    · intro later
      rcases List.mem_cons.mp later with same | later
      · exact same.ge
      · exact (second _ later).le
    · rcases covered l mem with before | later
      · exact Or.inl (before.trans (first b (List.mem_cons_self ..)).le)
      · rcases List.mem_cons.mp later with same | later
        · exact Or.inl same.le
        · exact Or.inr later

/-- The breakevens before rounding: the positive roots, less those where the profit is zero about them. -/
theorem mem_breakevens (positive : ∀ l ∈ legs, 0 < l.strike) {b : ℚ} :
    b ∈ breakevensOf legs ↔
      0 < b ∧ pnl legs b = 0 ∧
        (b ∈ strikesOf legs ∨ ∃ s, 0 ≤ s ∧ pnl legs s ≠ 0 ∧ ∀ l ∈ legs,
          ¬ (min b s < l.strike ∧ l.strike < max b s)) := by
  have above : ∀ k ∈ strikesOf legs, 0 < k := by
    intro k mem
    obtain ⟨l, isLeg, rfl⟩ := mem_strikesOf.mp mem
    exact positive l isLeg
  have ascending : (0 :: strikesOf legs).Pairwise (· < ·) := List.pairwise_cons.mpr ⟨above, strictly_ordered _⟩
  have pieces : Pieces (pnl legs) (slopeUp legs : ℚ) 0 (strikesOf legs) :=
    pieces_pnl ascending fun l mem => Or.inr (mem_strikesOf.mpr ⟨l, mem, rfl⟩)
  rw [breakevensOf, List.mem_filter, decide_eq_true_eq, and_comm]
  refine and_congr_right fun isPositive => ?_
  rw [mem_roots ascending pieces isPositive]
  constructor
  · rintro ⟨-, root, isPoint | ⟨s, from_zero, nonzero, beside⟩⟩
    · exact ⟨root, Or.inl ((List.mem_cons.mp isPoint).resolve_left isPositive.ne')⟩
    · exact ⟨root, Or.inr ⟨s, from_zero, nonzero, fun l mem =>
        beside l.strike (List.mem_cons_of_mem 0 (mem_strikesOf.mpr ⟨l, mem, rfl⟩))⟩⟩
  · rintro ⟨root, isStrike | ⟨s, from_zero, nonzero, beside⟩⟩
    · exact ⟨isPositive.le, root, Or.inl (List.mem_cons_of_mem 0 isStrike)⟩
    · refine ⟨isPositive.le, root, Or.inr ⟨s, from_zero, nonzero, fun p mem between => ?_⟩⟩
      rcases List.mem_cons.mp mem with rfl | isStrike
      · exact absurd between.1 (not_lt.mpr (le_min isPositive.le from_zero))
      · obtain ⟨l, isLeg, rfl⟩ := mem_strikesOf.mp isStrike
        exact beside l isLeg between

end AdvanceTrading.Structures
