import Mathlib.Algebra.Order.Field.Rat
import Mathlib.Algebra.Order.BigOperators.Group.List
import Mathlib.Data.List.Count
import Mathlib.Data.Option.Basic
import Mathlib.Tactic.Linarith
import Mathlib.Tactic.Positivity
import Mathlib.Tactic.Ring

/-!
# Percentile ranks and weighted means

The percentile of one item's value among the values that are present, ties
taking the average of their places, and the mean of weighted parts of which
some are missing. Both keep the order of what they are made from: an item that
is raised while others stay or fall never ranks lower. Items and values are
arbitrary, values are of any linear order.
-/

namespace AdvanceTrading

section Ranks

variable {ι α : Type*} [LinearOrder α]

/-- The average of the places that the ties of `v` take among `xs`, the first place being 1. -/
def averageRank (xs : List α) (v : α) : ℚ := xs.countP (· < v) + (xs.countP (· = v) + 1) / 2

/-- The percentile, up to 100, of an item's value among those of the items that have one. -/
def percentRank (ids : List ι) (x : ι → Option α) (i : ι) : Option ℚ :=
  (x i).map fun v => averageRank (ids.filterMap x) v / (ids.filterMap x).length * 100

/-- What `u` adds to the rank of `v`. -/
def share (v u : α) : ℚ := if u < v then 1 else if u = v then 1 / 2 else 0

theorem share_self (v : α) : share v v = 1 / 2 := by simp [share]

theorem share_le_one (v u : α) : share v u ≤ 1 := by
  unfold share
  split_ifs <;> norm_num

/-- A higher value and a lower rival both help. -/
theorem share_mono {v w u t : α} (higher : v ≤ w) (lower : t ≤ u) : share v u ≤ share w t := by
  unfold share
  by_cases under : u < v
  · have : t < w := lower.trans_lt (under.trans_le higher)
    simp [under, this]
  · by_cases tie : u = v
    · subst tie
      rcases (lower.trans higher).lt_or_eq with less | same
      · rw [if_neg under, if_pos rfl, if_pos less]
        norm_num
      · subst same
        simp
    · rw [if_neg under, if_neg tie]
      split_ifs <;> norm_num

theorem averageRank_eq (xs : List α) (v : α) : averageRank xs v = (xs.map (share v)).sum + 1 / 2 := by
  unfold averageRank
  induction xs with
  | nil => simp
  | cons u xs ih =>
    rw [List.map_cons, List.sum_cons, add_assoc, ← ih, List.countP_cons, List.countP_cons]
    unfold share
    by_cases less : u < v
    · simp [less, less.ne]
      ring
    · by_cases tie : u = v
      · simp [tie]
        ring
      · simp [less, tie]

theorem averageRank_pos (xs : List α) (v : α) : 0 < averageRank xs v := by
  unfold averageRank
  positivity

theorem sum_share_le (xs : List α) (v : α) : (xs.map (share v)).sum ≤ xs.length := by
  induction xs with
  | nil => simp
  | cons u xs ih =>
    rw [List.map_cons, List.sum_cons, List.length_cons, Nat.cast_add_one]
    linarith [share_le_one v u]

/-- A value of the list is at most last. -/
theorem averageRank_le {xs : List α} {v : α} (mem : v ∈ xs) : averageRank xs v ≤ xs.length := by
  obtain ⟨front, back, rfl⟩ := List.append_of_mem mem
  rw [averageRank_eq, List.map_append, List.map_cons, List.sum_append, List.sum_cons, share_self, List.length_append,
    List.length_cons]
  push_cast
  linarith [sum_share_le front v, sum_share_le back v]

variable {i : ι} {ids : List ι} {x : ι → Option α}

/-- Percentiles lie above 0 and are at most 100. -/
theorem percentRank_bounds (listed : i ∈ ids) {r : ℚ} (ranked : percentRank ids x i = some r) :
    0 < r ∧ r ≤ 100 := by
  obtain ⟨v, present, rfl⟩ := Option.map_eq_some_iff.mp ranked
  have among : v ∈ ids.filterMap x := List.mem_filterMap.mpr ⟨i, listed, present⟩
  have some_ : (0 : ℚ) < (ids.filterMap x).length := by exact_mod_cast List.length_pos_of_mem among
  have most := averageRank_le among
  have least := averageRank_pos (ids.filterMap x) v
  constructor
  · positivity
  · have portion : averageRank (ids.filterMap x) v / (ids.filterMap x).length ≤ 1 := (div_le_one some_).mpr most
    linarith

@[simp] theorem isSome_percentRank (ids : List ι) (x : ι → Option α) (i : ι) :
    (percentRank ids x i).isSome = (x i).isSome := by
  simp [percentRank]

/-- One item's value goes up or stays, those of the others go down or stay; the same ones are missing. -/
structure Raised (i : ι) (x y : ι → Option α) : Prop where
  own : Option.Rel (· ≤ ·) (x i) (y i)
  others : ∀ j, j ≠ i → Option.Rel (· ≤ ·) (y j) (x j)

theorem rel_refl (a : Option α) : Option.Rel (· ≤ ·) a a := by
  cases a with
  | none => exact .none
  | some a => exact .some le_rfl

theorem Raised.refl (i : ι) (x : ι → Option α) : Raised i x x := ⟨rel_refl _, fun _ _ => rel_refl _⟩

theorem rel_isSome {a b : Option α} (rel : Option.Rel (· ≤ ·) a b) : a.isSome = b.isSome := by
  cases rel <;> rfl

theorem Raised.isSome_eq {y : ι → Option α} (raised : Raised i x y) (j : ι) :
    (x j).isSome = (y j).isSome := by
  by_cases own : j = i
  · subst own
    exact rel_isSome raised.own
  · exact (rel_isSome (raised.others j own)).symm

section

variable {y : ι → Option α} (same : ∀ j, (x j).isSome = (y j).isSome)
include same

omit [LinearOrder α] in
theorem length_filterMap_eq : (ids.filterMap x).length = (ids.filterMap y).length := by
  induction ids with
  | nil => rfl
  | cons j ids ih =>
    have here := same j
    cases atX : x j <;> cases atY : y j <;> simp_all

/-- The shares of two readings of one list, item by item. -/
theorem sum_share_mono (ids : List ι) {v w : α}
    (le : ∀ j u t, x j = some u → y j = some t → share v u ≤ share w t) :
    ((ids.filterMap x).map (share v)).sum ≤ ((ids.filterMap y).map (share w)).sum := by
  induction ids with
  | nil => simp
  | cons j ids ih =>
    have here := same j
    cases atX : x j with
    | none =>
      cases atY : y j with
      | none => simpa [atX, atY] using ih
      | some t => simp [atX, atY] at here
    | some u =>
      cases atY : y j with
      | none => simp [atX, atY] at here
      | some t =>
        rw [List.filterMap_cons_some atX, List.filterMap_cons_some atY, List.map_cons, List.map_cons, List.sum_cons,
          List.sum_cons]
        linarith [le j u t atX atY]

/-- Larger shares of as many values are a higher percentile. -/
theorem percentRank_rel
    (le : ∀ v w, x i = some v → y i = some w → ∀ j u t, x j = some u → y j = some t → share v u ≤ share w t) :
    Option.Rel (· ≤ ·) (percentRank ids x i) (percentRank ids y i) := by
  have here := same i
  unfold percentRank
  cases atX : x i with
  | none =>
    cases atY : y i with
    | none => exact .none
    | some w => simp [atX, atY] at here
  | some v =>
    cases atY : y i with
    | none => simp [atX, atY] at here
    | some w =>
      refine .some ?_
      simp only
      rw [averageRank_eq, averageRank_eq, length_filterMap_eq same]
      have sums := sum_share_mono same ids (le v w atX atY)
      gcongr

end

/-- A raised item does not rank lower. -/
theorem Raised.percentRank_own {y : ι → Option α} (raised : Raised i x y) (ids : List ι) :
    Option.Rel (· ≤ ·) (percentRank ids x i) (percentRank ids y i) := by
  refine percentRank_rel raised.isSome_eq fun v w atX atY j u t hu ht => ?_
  by_cases own : j = i
  · subst own
    obtain rfl : v = u := Option.some.inj (atX.symm.trans hu)
    obtain rfl : w = t := Option.some.inj (atY.symm.trans ht)
    rw [share_self, share_self]
  · have higher := raised.own
    rw [atX, atY] at higher
    have lower := raised.others j own
    rw [hu, ht] at lower
    cases higher with
    | some higher => cases lower with
      | some lower => exact share_mono higher lower

/-- Where only one item is raised, no other ranks higher. -/
theorem percentRank_other {k : ι} {y : ι → Option α} (own : Option.Rel (· ≤ ·) (x i) (y i))
    (others : ∀ j, j ≠ i → y j = x j) (other : k ≠ i) (ids : List ι) :
    Option.Rel (· ≤ ·) (percentRank ids y k) (percentRank ids x k) := by
  have raised : Raised i x y := ⟨own, fun j ne => others j ne ▸ rel_refl _⟩
  refine percentRank_rel (fun j => (raised.isSome_eq j).symm) fun v w atY atX j u t hu ht => ?_
  obtain rfl : v = w := Option.some.inj ((others k other ▸ atY).symm.trans atX)
  by_cases here : j = i
  · subst here
    rw [hu, ht] at own
    cases own with
    | some lower => exact share_mono le_rfl lower
  · obtain rfl : u = t := Option.some.inj ((others j here ▸ hu).symm.trans ht)
    exact le_rfl

/-- One raised item raises its percentile and lowers those of the others. -/
theorem raised_percentRank {y : ι → Option α} (own : Option.Rel (· ≤ ·) (x i) (y i))
    (others : ∀ j, j ≠ i → y j = x j) (ids : ι → List ι) :
    Raised i (fun j => percentRank (ids j) x j) fun j => percentRank (ids j) y j where
  own := (Raised.mk own fun j ne => others j ne ▸ rel_refl _).percentRank_own (ids i)
  others k ne := percentRank_other own others ne (ids k)

/-- A strictly increasing change of the values leaves the percentiles alone. -/
theorem percentRank_map {β : Type*} [LinearOrder β] {f : α → β} (increasing : StrictMono f) (ids : List ι)
    (x : ι → Option α) (i : ι) : percentRank ids (fun j => (x j).map f) i = percentRank ids x i := by
  have values : ids.filterMap (fun j => (x j).map f) = (ids.filterMap x).map f := by
    rw [List.map_filterMap]
  unfold percentRank
  rw [values, Option.map_map]
  congr 1
  funext v
  unfold averageRank
  rw [Function.comp_apply, List.countP_map, List.countP_map, List.length_map]
  simp only [Function.comp_def, increasing.lt_iff_lt, increasing.injective.eq_iff]

end Ranks

section Means

/-- The sum of the weighted parts that are present. -/
def weightedSum (parts : List (ℚ × Option ℚ)) : ℚ :=
  parts.foldl (fun num p => match p.2 with | some s => num + s * p.1 | none => num) 0

/-- The sum of the weights of the parts that are present. -/
def presentWeight (parts : List (ℚ × Option ℚ)) : ℚ :=
  parts.foldl (fun den p => match p.2 with | some _ => den + p.1 | none => den) 0

/-- The mean of the parts that are present. -/
def weightedMean (parts : List (ℚ × Option ℚ)) : Option ℚ :=
  if presentWeight parts = 0 then none else some (weightedSum parts / presentWeight parts)

variable {parts : List (ℚ × Option ℚ)}

theorem weightedSum_eq (parts : List (ℚ × Option ℚ)) :
    weightedSum parts = (parts.map fun p => (p.2.map (· * p.1)).getD 0).sum := by
  have all : ∀ start : ℚ, parts.foldl (fun num p => match p.2 with | some s => num + s * p.1 | none => num) start
      = start + (parts.map fun p => (p.2.map (· * p.1)).getD 0).sum := by
    induction parts with
    | nil => simp
    | cons p parts ih =>
      intro start
      rw [List.foldl_cons, ih, List.map_cons, List.sum_cons]
      cases p.2 <;> simp [add_assoc]
  exact (all 0).trans (zero_add _)

theorem presentWeight_eq (parts : List (ℚ × Option ℚ)) :
    presentWeight parts = (parts.map fun p => (p.2.map fun _ => p.1).getD 0).sum := by
  have all : ∀ start : ℚ, parts.foldl (fun den p => match p.2 with | some _ => den + p.1 | none => den) start
      = start + (parts.map fun p => (p.2.map fun _ => p.1).getD 0).sum := by
    induction parts with
    | nil => simp
    | cons p parts ih =>
      intro start
      rw [List.foldl_cons, ih, List.map_cons, List.sum_cons]
      cases p.2 <;> simp [add_assoc]
  exact (all 0).trans (zero_add _)

/-- No part is present, or the parts that are lie together in their bounds. -/
theorem weightedSum_bounds {low high : ℚ} (inside : ∀ p ∈ parts, 0 < p.1 ∧ ∀ s ∈ p.2, low < s ∧ s ≤ high) :
    (presentWeight parts = 0 ∧ weightedSum parts = 0) ∨
      (0 < presentWeight parts ∧ low * presentWeight parts < weightedSum parts ∧
        weightedSum parts ≤ high * presentWeight parts) := by
  rw [weightedSum_eq, presentWeight_eq]
  induction parts with
  | nil => simp
  | cons p parts ih =>
    have rest := ih fun q mem => inside q (List.mem_cons_of_mem _ mem)
    obtain ⟨positive, bounds⟩ := inside p List.mem_cons_self
    rw [List.map_cons, List.map_cons, List.sum_cons, List.sum_cons]
    cases here : p.2 with
    | none => simpa using rest
    | some s =>
      obtain ⟨above, most⟩ := bounds s here
      have lower : low * p.1 < s * p.1 := mul_lt_mul_of_pos_right above positive
      have upper : s * p.1 ≤ high * p.1 := mul_le_mul_of_nonneg_right most positive.le
      simp only [Option.map_some, Option.getD_some]
      right
      rcases rest with ⟨none_, zero⟩ | ⟨some_, least, greatest⟩
      · rw [none_, zero]
        simp only [add_zero]
        exact ⟨positive, lower, upper⟩
      · refine ⟨by linarith, ?_, ?_⟩
        · rw [mul_add]
          linarith
        · rw [mul_add]
          linarith

/-- A mean of parts within bounds is within them. -/
theorem weightedMean_bounds {low high m : ℚ} (inside : ∀ p ∈ parts, 0 < p.1 ∧ ∀ s ∈ p.2, low < s ∧ s ≤ high)
    (mean : weightedMean parts = some m) : low < m ∧ m ≤ high := by
  unfold weightedMean at mean
  split at mean
  · cases mean
  · rename_i some_
    cases mean
    rcases weightedSum_bounds inside with ⟨none_, _⟩ | ⟨positive, least, greatest⟩
    · exact absurd none_ some_
    · exact ⟨(lt_div_iff₀ positive).mpr least, (div_le_iff₀ positive).mpr greatest⟩

/-- A mean comes from some part. -/
theorem exists_of_weightedMean {m : ℚ} (mean : weightedMean parts = some m) : ∃ p ∈ parts, p.2.isSome := by
  by_contra none_
  push Not at none_
  have zero : presentWeight parts = 0 := by
    rw [presentWeight_eq]
    apply List.sum_eq_zero
    intro w mem
    obtain ⟨p, listed, rfl⟩ := List.mem_map.mp mem
    rw [Option.not_isSome_iff_eq_none.mp (none_ p listed)]
    rfl
  unfold weightedMean at mean
  rw [if_pos zero] at mean
  cases mean

/-- Two lists of parts of the same positive weights, none of the first above its fellow. -/
abbrev PartsLe (ps qs : List (ℚ × Option ℚ)) : Prop :=
  List.Forall₂ (fun p q => p.1 = q.1 ∧ 0 < p.1 ∧ Option.Rel (· ≤ ·) p.2 q.2) ps qs

theorem PartsLe.sums {ps qs : List (ℚ × Option ℚ)} (le : PartsLe ps qs) :
    presentWeight ps = presentWeight qs ∧ 0 ≤ presentWeight ps ∧ weightedSum ps ≤ weightedSum qs := by
  rw [weightedSum_eq, weightedSum_eq, presentWeight_eq, presentWeight_eq]
  induction le with
  | nil => simp
  | @cons p q ps qs here rest ih =>
    obtain ⟨weights, positive, rel⟩ := here
    obtain ⟨same, nonneg, sums⟩ := ih
    simp only [List.map_cons, List.sum_cons]
    rw [← weights, same] at *
    generalize p.2 = a, q.2 = b at rel
    cases rel with
    | none =>
      simp only [Option.map_none, Option.getD_none, zero_add]
      exact ⟨trivial, nonneg, sums⟩
    | some le =>
      simp only [Option.map_some, Option.getD_some]
      have scaled := mul_le_mul_of_nonneg_right le positive.le
      exact ⟨trivial, by linarith, by linarith⟩

/-- A mean of parts that do not fall does not fall. -/
theorem weightedMean_rel {ps qs : List (ℚ × Option ℚ)} (le : PartsLe ps qs) :
    Option.Rel (· ≤ ·) (weightedMean ps) (weightedMean qs) := by
  obtain ⟨same, nonneg, sums⟩ := le.sums
  unfold weightedMean
  rw [← same]
  split
  · exact .none
  · exact .some (div_le_div_of_nonneg_right sums nonneg)

end Means

end AdvanceTrading
