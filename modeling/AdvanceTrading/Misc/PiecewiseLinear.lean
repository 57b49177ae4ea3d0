import Mathlib.Algebra.Order.Field.Basic
import Mathlib.Data.Sign.Defs
import Mathlib.Tactic.FieldSimp
import Mathlib.Tactic.Linarith
import Mathlib.Tactic.Ring

/-!
# Piecewise linear functions

A function that is linear between points in order, and of one slope from the last on: its roots are
found from its values at the points. A root that is not a point is found when the function is not
zero over the whole of its piece. Its bounds are those of its values at the points, where the last slope
does not leave them; a place where its sign changes is a root. Its negative has the same roots.
-/

namespace AdvanceTrading

namespace Piecewise

variable {R : Type*} [Field R] [LinearOrder R]

/-- `f` is linear from `a` to `b`. -/
def LinearOn (f : R → R) (a b : R) : Prop := ∃ slope, ∀ x, a ≤ x → x ≤ b → f x = f a + slope * (x - a)

/-- `f` has one slope from `a` on. -/
def SlopeFrom (f : R → R) (slope a : R) : Prop := ∀ x, a ≤ x → f x = f a + slope * (x - a)

/-- `f` is linear between the points, and of one slope after them. -/
def Pieces (f : R → R) (slope : R) : R → List R → Prop
  | a, [] => SlopeFrom f slope a
  | a, b :: rest => LinearOn f a b ∧ Pieces f slope b rest

/-- The root between two points of opposite signs. -/
def crossing (f : R → R) (a b : R) : List R :=
  if f a < 0 ∧ 0 < f b ∨ f b < 0 ∧ 0 < f a then [a + (b - a) * (-f a) / (f b - f a)] else []

/-- The root after the last point. -/
def crossingAfter (f : R → R) (slope a : R) : List R :=
  if slope ≠ 0 ∧ decide (0 < f a) ≠ decide (0 < slope) then [a - f a / slope] else []

/-- The roots from the first point on, by the values at the points. -/
def roots (f : R → R) (slope : R) : R → List R → List R
  | a, [] => if f a = 0 then [a] else crossingAfter f slope a
  | a, b :: rest => (if f a = 0 ∧ 0 < a then [a] else []) ++ crossing f a b ++ roots f slope b rest

variable {f g : R → R} {a b x y slope slope' : R} {rest : List R}

/-! ## Sums -/

theorem linearOn_const (c : R) : LinearOn (fun _ => c) a b := ⟨0, fun _ _ _ => by ring⟩

theorem LinearOn.add (onF : LinearOn f a b) (onG : LinearOn g a b) : LinearOn (fun x => f x + g x) a b := by
  obtain ⟨m, isF⟩ := onF
  obtain ⟨n, isG⟩ := onG
  refine ⟨m + n, fun x from_a to_b => ?_⟩
  show f x + g x = f a + g a + _
  rw [isF x from_a to_b, isG x from_a to_b]
  ring

theorem LinearOn.mul (c : R) (onF : LinearOn f a b) : LinearOn (fun x => c * f x) a b := by
  obtain ⟨m, isF⟩ := onF
  refine ⟨c * m, fun x from_a to_b => ?_⟩
  show c * f x = c * f a + _
  rw [isF x from_a to_b]
  ring

theorem slopeFrom_const (c : R) : SlopeFrom (fun _ => c) 0 a := fun _ _ => by ring

theorem SlopeFrom.add (onF : SlopeFrom f slope a) (onG : SlopeFrom g slope' a) :
    SlopeFrom (fun x => f x + g x) (slope + slope') a := by
  intro x from_a
  show f x + g x = f a + g a + _
  rw [onF x from_a, onG x from_a]
  ring

theorem SlopeFrom.mul (c : R) (onF : SlopeFrom f slope a) : SlopeFrom (fun x => c * f x) (c * slope) a := by
  intro x from_a
  show c * f x = c * f a + _
  rw [onF x from_a]
  ring

theorem Pieces.mul (c : R) (pieces : Pieces f slope a rest) : Pieces (fun x => c * f x) (c * slope) a rest := by
  induction rest generalizing a with
  | nil => exact SlopeFrom.mul c pieces
  | cons b rest ih => exact ⟨LinearOn.mul c pieces.1, ih pieces.2⟩

theorem Pieces.slopeFrom_last (pieces : Pieces f slope a rest) : ∃ last, SlopeFrom f slope last := by
  induction rest generalizing a with
  | nil => exact ⟨a, pieces⟩
  | cons b rest ih => exact ih pieces.2

/-! ## Roots -/

variable [IsStrictOrderedRing R]

/-- A root inside a piece that is not zero over it lies where the values at its ends say. -/
theorem mem_crossing_of_root (linear : LinearOn f a b) (from_a : a < x) (to_b : x < b)
    (root : f x = 0) (inside : a ≤ y ∧ y ≤ b) (nonzero : f y ≠ 0) : x ∈ crossing f a b := by
  obtain ⟨m, isF⟩ := linear
  have atX := isF x from_a.le to_b.le
  have atB := isF b (from_a.trans to_b).le le_rfl
  have atY := isF y inside.1 inside.2
  rw [root] at atX
  have start : f a = -(m * (x - a)) := by linarith
  have last : f b = m * (b - x) := by linarith
  have steep : m ≠ 0 := by
    rintro rfl
    apply nonzero
    rw [atY, start]
    ring
  have run : 0 < x - a := by linarith
  have rise : 0 < b - x := by linarith
  have found : a + (b - a) * (-f a) / (f b - f a) = x := by
    have ne : m * (b - x) + m * (x - a) ≠ 0 := by
      rw [← mul_add]
      exact mul_ne_zero steep (by linarith)
    rw [start, last, neg_neg, sub_neg_eq_add, eq_comm, ← sub_eq_iff_eq_add', eq_div_iff ne]
    ring
  rw [crossing, if_pos, found]
  · exact List.mem_singleton_self x
  · rcases lt_or_gt_of_ne steep with falls | climbs
    · exact Or.inr ⟨last ▸ mul_neg_of_neg_of_pos falls rise, by rw [start]; linarith [mul_neg_of_neg_of_pos falls run]⟩
    · exact Or.inl ⟨by rw [start]; linarith [mul_pos climbs run], last ▸ mul_pos climbs rise⟩

/-- What lies between two points of opposite signs is a root. -/
theorem root_of_mem_crossing (linear : LinearOn f a b) (below : a < b) (mem : x ∈ crossing f a b) :
    a < x ∧ x < b ∧ f x = 0 ∧ f a ≠ 0 := by
  unfold crossing at mem
  split at mem
  · next opposite =>
    rw [List.mem_singleton] at mem
    obtain ⟨m, isF⟩ := linear
    have atB := isF b below.le le_rfl
    have width : 0 < b - a := by linarith
    have span : f b - f a = m * (b - a) := by linarith
    have nonzero : f a ≠ 0 := by
      rcases opposite with ⟨down, -⟩ | ⟨-, up⟩
      · exact down.ne
      · exact up.ne'
    have steep : m ≠ 0 := by
      rintro rfl
      rw [zero_mul] at span
      rcases opposite with ⟨down, up⟩ | ⟨down, up⟩ <;> linarith
    have place : m * (x - a) = -f a := by
      rw [mem, span]
      field_simp
      ring
    have place' : m * (b - x) = f b := by linarith [mul_sub m b x, mul_sub m x a, mul_sub m b a]
    have inside : a < x ∧ x < b := by
      rcases lt_or_gt_of_ne steep with falls | climbs
      · rcases opposite with ⟨down, up⟩ | ⟨down, up⟩
        · nlinarith [mul_neg_of_neg_of_pos falls width]
        · exact ⟨by nlinarith, by nlinarith⟩
      · rcases opposite with ⟨down, up⟩ | ⟨down, up⟩
        · exact ⟨by nlinarith, by nlinarith⟩
        · nlinarith [mul_pos climbs width]
    refine ⟨inside.1, inside.2, ?_, nonzero⟩
    rw [isF x inside.1.le inside.2.le, place]
    ring
  · cases mem

theorem mem_crossingAfter (onF : SlopeFrom f slope a) (nonzero : f a ≠ 0) :
    x ∈ crossingAfter f slope a ↔ a ≤ x ∧ f x = 0 := by
  unfold crossingAfter
  constructor
  · intro mem
    split at mem
    · next turns =>
      rw [List.mem_singleton] at mem
      obtain ⟨steep, turns⟩ := turns
      have place : slope * (x - a) = -f a := by
        rw [mem]
        field_simp
        ring
      have after : a ≤ x := by
        rcases lt_or_gt_of_ne nonzero with down | up
        · have climbs : 0 < slope := by
            by_contra falls
            simp [down.not_gt, falls] at turns
          nlinarith
        · have falls : slope < 0 := by
            by_contra climbs
            have climbs' : 0 < slope := lt_of_le_of_ne (not_lt.mp climbs) (Ne.symm steep)
            simp [up, climbs'] at turns
          nlinarith
      refine ⟨after, ?_⟩
      rw [onF x after, place]
      ring
    · cases mem
  · rintro ⟨after, root⟩
    have atX := onF x after
    rw [root] at atX
    have start : f a = -(slope * (x - a)) := by linarith
    have steep : slope ≠ 0 := by
      rintro rfl
      apply nonzero
      rw [start]
      ring
    have run : 0 < x - a := by
      refine lt_of_le_of_ne (by linarith) fun same => ?_
      apply nonzero
      rw [start, ← same]
      ring
    have turns : decide (0 < f a) ≠ decide (0 < slope) := by
      rcases lt_or_gt_of_ne steep with falls | climbs
      · have up : 0 < f a := by
          rw [start]
          linarith [mul_neg_of_neg_of_pos falls run]
        simp [up, falls.not_gt]
      · have down : f a < 0 := by
          rw [start]
          linarith [mul_pos climbs run]
        simp [down.not_gt, climbs]
    rw [if_pos ⟨steep, turns⟩, List.mem_singleton, start]
    field_simp
    ring

/-- Two places with no point between them. -/
def Beside (points : List R) (x y : R) : Prop := ∀ p ∈ points, ¬ (min x y < p ∧ p < max x y)

/-- The roots found are the positive roots, less those inside a piece that is zero over its length. -/
theorem mem_roots (ordered : (a :: rest).Pairwise (· < ·)) (pieces : Pieces f slope a rest) (positive : 0 < x) :
    x ∈ roots f slope a rest ↔
      a ≤ x ∧ f x = 0 ∧ (x ∈ a :: rest ∨ ∃ y, a ≤ y ∧ f y ≠ 0 ∧ Beside (a :: rest) x y) := by
  induction rest generalizing a with
  | nil =>
    have onF : SlopeFrom f slope a := pieces
    unfold roots
    split
    · next zero =>
      rw [List.mem_singleton]
      constructor
      · rintro rfl
        exact ⟨le_rfl, zero, Or.inl rfl⟩
      · rintro ⟨after, root, isPoint | ⟨y, afterY, nonzero, -⟩⟩
        · exact isPoint
        · have atX := onF x after
          have atY := onF y afterY
          rw [root, zero, zero_add] at atX
          rw [zero, zero_add] at atY
          rcases mul_eq_zero.mp atX.symm with flat | same
          · rw [flat, zero_mul] at atY
            exact absurd atY nonzero
          · exact sub_eq_zero.mp same
    · next nonzero =>
      rw [mem_crossingAfter onF nonzero]
      constructor
      · rintro ⟨after, root⟩
        refine ⟨after, root, Or.inr ⟨a, le_rfl, nonzero, fun p mem between => ?_⟩⟩
        rw [List.mem_singleton.mp mem, min_eq_right after] at between
        exact lt_irrefl a between.1
      · rintro ⟨after, root, -⟩
        exact ⟨after, root⟩
  | cons b rest ih =>
    obtain ⟨linear, pieces⟩ := pieces
    obtain ⟨first, ordered'⟩ := List.pairwise_cons.mp ordered
    have below : a < b := first b (List.mem_cons_self ..)
    have later : ∀ p ∈ b :: rest, b ≤ p := by
      intro p mem
      rcases List.mem_cons.mp mem with rfl | mem
      · exact le_rfl
      · exact ((List.pairwise_cons.mp ordered').1 p mem).le
    rw [roots, List.mem_append, List.mem_append, ih ordered' pieces]
    constructor
    · rintro ((isFirst | crosses) | ⟨after, root, found⟩)
      · split at isFirst
        · next zero =>
          rw [List.mem_singleton.mp isFirst]
          exact ⟨le_rfl, zero.1, Or.inl (List.mem_cons_self ..)⟩
        · cases isFirst
      · obtain ⟨from_a, to_b, root, nonzero⟩ := root_of_mem_crossing linear below crosses
        refine ⟨from_a.le, root, Or.inr ⟨a, le_rfl, nonzero, fun p mem between => ?_⟩⟩
        rw [min_eq_right from_a.le, max_eq_left from_a.le] at between
        rcases List.mem_cons.mp mem with rfl | mem
        · exact lt_irrefl _ between.1
        · exact absurd (later p mem) (not_le.mpr (between.2.trans to_b))
      · refine ⟨below.le.trans after, root, found.imp (List.mem_cons_of_mem a) ?_⟩
        rintro ⟨y, afterY, nonzero, beside⟩
        refine ⟨y, below.le.trans afterY, nonzero, fun p mem between => ?_⟩
        rcases List.mem_cons.mp mem with rfl | mem
        · exact absurd between.1 (not_lt.mpr (below.le.trans (le_min after afterY)))
        · exact beside p mem between
    · rintro ⟨after, root, found⟩
      rcases eq_or_lt_of_le after with rfl | from_a
      · rw [if_pos ⟨root, positive⟩]
        exact Or.inl (Or.inl (List.mem_singleton_self _))
      · rcases lt_or_ge x b with to_b | from_b
        · -- between the first two points: not a point, so its piece is not zero
          rcases found with isPoint | ⟨y, afterY, nonzero, beside⟩
          · rcases List.mem_cons.mp isPoint with rfl | isPoint
            · exact absurd from_a (lt_irrefl _)
            · exact absurd (later x isPoint) (not_le.mpr to_b)
          · have inside : y ≤ b := by
              by_contra beyond
              exact beside b (by simp) ⟨(min_le_left x y).trans_lt to_b, (not_le.mp beyond).trans_le (le_max_right x y)⟩
            exact Or.inl (Or.inr (mem_crossing_of_root linear from_a to_b root ⟨afterY, inside⟩ nonzero))
        · refine Or.inr ⟨from_b, root, ?_⟩
          rcases found with isPoint | ⟨y, afterY, nonzero, beside⟩
          · rcases List.mem_cons.mp isPoint with rfl | isPoint
            · exact absurd from_a (lt_irrefl _)
            · exact Or.inl isPoint
          · rcases eq_or_lt_of_le from_b with rfl | from_b
            · exact Or.inl (List.mem_cons_self ..)
            · refine Or.inr ⟨y, ?_, nonzero, fun p mem => beside p (List.mem_cons_of_mem a mem)⟩
              by_contra before
              exact beside b (by simp)
                ⟨(min_le_right x y).trans_lt (not_le.mp before), from_b.trans_le (le_max_left x y)⟩

/-! ## The negative of a function -/

theorem crossing_neg (f : R → R) (a b : R) : crossing (fun x => -f x) a b = crossing f a b := by
  unfold crossing
  have turns : -f a < 0 ∧ 0 < -f b ∨ -f b < 0 ∧ 0 < -f a ↔ f a < 0 ∧ 0 < f b ∨ f b < 0 ∧ 0 < f a := by
    simp only [neg_lt_zero, neg_pos]
    tauto
  have place : (b - a) * (- -f a) / (-f b - -f a) = (b - a) * (-f a) / (f b - f a) := by
    rw [← neg_div_neg_eq]
    ring_nf
  simp only [turns, place]

theorem crossingAfter_neg (nonzero : f a ≠ 0) : crossingAfter (fun x => -f x) (-slope) a = crossingAfter f slope a := by
  unfold crossingAfter
  have flips : ∀ {x : R}, x ≠ 0 → (0 < -x ↔ ¬0 < x) := fun apart => by
    rw [neg_pos, not_lt, le_iff_lt_or_eq, or_iff_left apart]
  simp only [ne_eq, neg_eq_zero, neg_div_neg_eq]
  by_cases level : slope = 0
  · simp only [level, not_true_eq_false, false_and]
  · simp only [flips nonzero, flips level, decide_not, Bool.not_inj_iff]

/-- A function and its negative have the same roots. -/
theorem roots_neg (f : R → R) (slope a : R) (rest : List R) :
    roots (fun x => -f x) (-slope) a rest = roots f slope a rest := by
  induction rest generalizing a with
  | nil =>
    rw [roots, roots]
    simp only [neg_eq_zero]
    by_cases zero : f a = 0
    · rw [if_pos zero, if_pos zero]
    · rw [if_neg zero, if_neg zero, crossingAfter_neg zero]
  | cons b rest ih =>
    rw [roots, roots, ih, crossing_neg]
    simp only [neg_eq_zero]

/-! ## Bounds -/

theorem LinearOn.le {bound : R} (onF : LinearOn f a b) (first : f a ≤ bound) (last : f b ≤ bound)
    (from_a : a ≤ x) (to_b : x ≤ b) : f x ≤ bound := by
  obtain ⟨m, isF⟩ := onF
  have atX := isF x from_a to_b
  have atB := isF b (from_a.trans to_b) le_rfl
  rcases le_total 0 m with climbs | falls
  · have step : m * (x - a) ≤ m * (b - a) := mul_le_mul_of_nonneg_left (by linarith) climbs
    linarith
  · have step : m * (x - a) ≤ 0 := mul_nonpos_of_nonpos_of_nonneg falls (by linarith)
    linarith

/-- Where the last slope does not rise the function is within a bound of its values at the points. -/
theorem Pieces.le {bound : R} (pieces : Pieces f slope a rest) (falls : slope ≤ 0)
    (points : ∀ p ∈ a :: rest, f p ≤ bound) (after : a ≤ x) : f x ≤ bound := by
  induction rest generalizing a with
  | nil =>
    have onF : SlopeFrom f slope a := pieces
    have step : slope * (x - a) ≤ 0 := mul_nonpos_of_nonpos_of_nonneg falls (by linarith)
    have first := points a List.mem_cons_self
    rw [onF x after]
    linarith
  | cons b rest ih =>
    obtain ⟨linear, pieces⟩ := pieces
    rcases le_total x b with to_b | from_b
    · exact linear.le (points a List.mem_cons_self) (points b (by simp)) after to_b
    · exact ih pieces (fun p mem => points p (List.mem_cons_of_mem a mem)) from_b

theorem Pieces.ge {bound : R} (pieces : Pieces f slope a rest) (climbs : 0 ≤ slope)
    (points : ∀ p ∈ a :: rest, bound ≤ f p) (after : a ≤ x) : bound ≤ f x := by
  have mirrored : -1 * f x ≤ -bound :=
    (pieces.mul (-1)).le (by linarith) (fun p mem => by linarith [points p mem]) after
  linarith

/-- Where the last slope rises the function leaves every bound. -/
theorem SlopeFrom.exceeds (onF : SlopeFrom f slope a) (climbs : 0 < slope) (bound : R) :
    ∃ start, ∀ x, start ≤ x → bound < f x := by
  refine ⟨max a (a + (bound - f a) / slope + 1), fun x late => ?_⟩
  obtain ⟨after, beyond⟩ := max_le_iff.mp late
  rw [onF x after]
  have step : (bound - f a) / slope < x - a := by linarith
  rw [div_lt_iff₀ climbs] at step
  linarith [mul_comm slope (x - a)]

theorem SlopeFrom.falls_below (onF : SlopeFrom f slope a) (falls : slope < 0) (bound : R) :
    ∃ start, ∀ x, start ≤ x → f x < bound := by
  obtain ⟨start, mirrored⟩ := (onF.mul (-1)).exceeds (by linarith) (-bound)
  refine ⟨start, fun x late => ?_⟩
  have above := mirrored x late
  linarith

/-! ## Signs -/

/-- However near, some place from zero on has another sign. -/
def SignChanges (f : R → R) (x : R) : Prop :=
  ∀ ε, 0 < ε → ∃ y, 0 ≤ y ∧ |y - x| < ε ∧ SignType.sign (f y) ≠ SignType.sign (f x)

/-- Where the sign changes a function that is nowhere steeper than `steep` has a root. -/
theorem root_of_signChanges {steep : R} (lipschitz : ∀ x y, |f x - f y| ≤ steep * |x - y|)
    (changes : SignChanges f x) : f x = 0 := by
  by_contra nonzero
  have size : 0 < |f x| := abs_pos.mpr nonzero
  have width : 0 < |steep| + 1 := by
    have nonneg := abs_nonneg steep
    linarith
  obtain ⟨y, -, near, differs⟩ := changes (|f x| / (|steep| + 1)) (div_pos size width)
  rw [lt_div_iff₀ width] at near
  have steepness : steep * |y - x| ≤ |y - x| * (|steep| + 1) := by
    have most : steep * |y - x| ≤ |steep| * |y - x| := mul_le_mul_of_nonneg_right (le_abs_self _) (abs_nonneg _)
    linarith [abs_nonneg (y - x), mul_comm |steep| |y - x|]
  have close : |f y - f x| < |f x| := (lipschitz y x).trans_lt (steepness.trans_lt near)
  obtain ⟨low, high⟩ := abs_lt.mp close
  apply differs
  rcases lt_or_gt_of_ne nonzero with down | up
  · rw [abs_of_neg down] at high
    rw [sign_neg down, sign_neg (by linarith)]
  · rw [abs_of_pos up] at low
    rw [sign_pos up, sign_pos (by linarith)]

/-- Around a place no other point is near. -/
theorem exists_gap (points : List R) (x : R) : ∃ ε, 0 < ε ∧ ∀ p ∈ points, p ≠ x → ε ≤ |p - x| := by
  induction points with
  | nil => exact ⟨1, one_pos, by simp⟩
  | cons p points ih =>
    obtain ⟨ε, positive, clear⟩ := ih
    by_cases here : p = x
    · refine ⟨ε, positive, ?_⟩
      rintro q mem other
      rcases List.mem_cons.mp mem with rfl | mem
      · exact absurd here other
      · exact clear q mem other
    · refine ⟨min ε |p - x|, lt_min positive (abs_pos.mpr (sub_ne_zero.mpr here)), ?_⟩
      rintro q mem other
      rcases List.mem_cons.mp mem with rfl | mem
      · exact min_le_right _ _
      · exact (min_le_left _ _).trans (clear q mem other)

/-- What is between two places is nearer to the one than the other is. -/
theorem abs_sub_lt_of_between {p : R} (between : min x y < p ∧ p < max x y) : p ≠ x ∧ |p - x| < |y - x| := by
  rcases le_total x y with up | down
  · rw [min_eq_left up, max_eq_right up] at between
    rw [abs_of_pos (by linarith), abs_of_nonneg (by linarith)]
    exact ⟨between.1.ne', by linarith⟩
  · rw [min_eq_right down, max_eq_left down] at between
    rw [abs_of_neg (by linarith), abs_of_nonpos (by linarith)]
    exact ⟨between.2.ne, by linarith⟩

/-- Where the sign changes at a root there is a place that is not one, with no point between. -/
theorem exists_beside_of_signChanges (points : List R) (root : f x = 0) (changes : SignChanges f x) :
    ∃ y, 0 ≤ y ∧ f y ≠ 0 ∧ Beside points x y := by
  obtain ⟨ε, positive, clear⟩ := exists_gap points x
  obtain ⟨y, nonneg, near, differs⟩ := changes ε positive
  refine ⟨y, nonneg, ?_, ?_⟩
  · intro zero
    rw [root, zero] at differs
    exact differs rfl
  · intro p mem between
    obtain ⟨other, nearer⟩ := abs_sub_lt_of_between between
    exact absurd (clear p mem other) (not_le.mpr (nearer.trans near))

end Piecewise

end AdvanceTrading
