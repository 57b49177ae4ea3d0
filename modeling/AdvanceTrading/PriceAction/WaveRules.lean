import Mathlib.Algebra.Order.Field.Rat
import Mathlib.Algebra.Order.Group.Unbundled.Abs
import Mathlib.Data.List.GetD

/-!
# Elliott wave rules

Model of `app/price_action/daily_trend/rules.py` and of the reduction of a move
to fewer waves (`legs.py:137-166`). A move is the prices of its extremes; a
price past the end of a list, which the rules never look at, is 0.
-/

namespace AdvanceTrading.DailyTrend

/-- `x[i]`. -/
def pt (x : List ℚ) (i : Nat) : ℚ := x.getD i 0

/-! ## Rules -/

/-- The keys of `PATTERN_DEFAULTS`. -/
structure Ratios where
  zzMaxBa : ℚ
  flatMinBa : ℚ
  flatBMax : ℚ
  flatExpandedMin : ℚ
  deriving DecidableEq, Repr

/-- `PATTERN_DEFAULTS`. -/
def patternDefaults : Ratios :=
  { zzMaxBa := 90 / 100, flatMinBa := 618 / 1000, flatBMax := 2, flatExpandedMin := 105 / 100 }

/-- `beyond`. -/
def beyond (a b : ℚ) (dirn : Int) : Bool := 0 < (a - b) * dirn

/-- `reached`. -/
def reached (cEnd aEnd : ℚ) (d : Int) : Bool := 0 ≤ (cEnd - aEnd) * d

/-- `_d`. -/
def directionOf (x : List ℚ) : Int := if pt x 0 < pt x 1 then 1 else -1

/-- `_L`. -/
def lengths (x : List ℚ) : List ℚ := (List.range (x.length - 1)).map fun i => |pt x (i + 1) - pt x i|

/-- `_complete`. -/
def complete (n k : Nat) (finished : Bool) : Bool := k < n || (n == k && finished)

/-- The two kinds of wedges and triangles. -/
inductive WedgeKind where
  | contracting
  | expanding
  deriving DecidableEq, Repr

/-- `triangle`: whether it is valid, and whether it is a barrier triangle. -/
def triangle (x : List ℚ) (finished : Bool) (kind : WedgeKind) (barrierTol : ℚ) : Bool × Bool :=
  let n := x.length - 1
  let d := directionOf x
  if n < 2 then (true, false)
  else
    match kind with
    | .contracting =>
      if 4 ≤ n && beyond (pt x 4) (pt x 2) (-d) then (false, false)
      else if 5 ≤ n && beyond (pt x 5) (pt x 3) d then (false, false)
      else (true, 4 ≤ n && decide (|pt x 4 - pt x 2| ≤ barrierTol))
    | .expanding =>
      if complete n 3 finished && !beyond (pt x 3) (pt x 1) d then (false, false)
      else if complete n 4 finished && !beyond (pt x 4) (pt x 2) (-d) then (false, false)
      else if complete n 5 finished && !beyond (pt x 5) (pt x 3) d then (false, false)
      else (true, false)

/-- `wedge`. -/
def wedge (x : List ℚ) (finished : Bool) (kind : WedgeKind) : Bool :=
  let n := x.length - 1
  let d := directionOf x
  let l := lengths x
  let con := kind == .contracting
  if n < 2 then true
  else if beyond (pt x 2) (pt x 0) (-d) then false
  else if complete n 3 finished && !beyond (pt x 3) (pt x 1) d then false
  else if 3 ≤ n && con && pt l 0 ≤ pt l 2 then false
  else if 3 ≤ n && !con && complete n 3 finished && pt l 2 ≤ pt l 0 then false
  else if 4 ≤ n && beyond (pt x 4) (pt x 2) (-d) then false
  else if 4 ≤ n && con && pt l 1 ≤ pt l 3 then false
  else if 4 ≤ n && !con && complete n 4 finished && pt l 3 ≤ pt l 1 then false
  else if 5 ≤ n && con && pt l 2 ≤ pt l 4 then false
  else if 5 ≤ n && !con && complete n 5 finished && pt l 4 ≤ pt l 2 then false
  else if 5 ≤ n && complete n 5 finished && !beyond (pt x 5) (pt x 3) d then false
  else true

/-- `impulse`. -/
def impulse (x : List ℚ) (finished : Bool) : Bool :=
  let n := x.length - 1
  let d := directionOf x
  let l := lengths x
  if n < 2 then true
  else if beyond (pt x 2) (pt x 0) (-d) then false
  else if complete n 3 finished && !beyond (pt x 3) (pt x 1) d then false
  else if 4 ≤ n && !beyond (pt x 4) (pt x 1) d then false
  else if 5 ≤ n && pt l 2 < pt l 0 && pt l 2 < pt l 4 then false
  else if 5 ≤ n && complete n 5 finished && !beyond (pt x 5) (pt x 3) d then false
  else true

/-- The ratio of the second wave to the first; nothing is infinity. -/
def ratioBA (x : List ℚ) : Option ℚ :=
  let l := lengths x
  if pt l 0 = 0 then none else some (pt l 1 / pt l 0)

/-- `zigzag`; its other two results are always empty. -/
def zigzag (x : List ℚ) (s : Ratios) : Bool := !(2 ≤ x.length - 1 && (ratioBA x).all fun b => s.zzMaxBa ≤ b)

/-- `flat`: whether it is one, the strong evidence, and the sub-type. -/
def flat (x : List ℚ) (finished : Bool) (s : Ratios) : Bool × List String × Option String :=
  let n := x.length - 1
  let b := ratioBA x
  let strong := if b.all fun b => s.flatBMax < b then ["flat B > 2A"] else []
  let d := directionOf x
  if n < 2 then (true, [], some "pending")
  else if complete n 2 finished && b.any fun b => b < s.flatMinBa then (false, [], none)
  else if n < 3 then (true, strong, some "pending")
  else if (b.all fun b => s.flatExpandedMin < b) && beyond (pt x 3) (pt x 1) d then (true, strong, some "expanded")
  else if (b.all fun b => 1 < b) && !reached (pt x 3) (pt x 1) d then
    (true, strong, some (if finished then "running" else "pending"))
  else (true, strong, some (if finished || reached (pt x 3) (pt x 1) d then "regular" else "pending"))

/-! ## Reduction -/

/-- The pair at `i`, if the prices left without it stay extremes and it is smaller than the one held. -/
def smallerPair (d : Int) (xs : List ℚ) (best : Option (ℚ × Nat)) (i : Nat) : Option (ℚ × Nat) :=
  let a := pt xs i
  let b := pt xs (i + 1)
  let sgn := if i % 2 = 1 then d else -d
  if (0 ≤ (pt xs (i + 2) - a) * sgn ∧ 0 ≤ (b - pt xs (i - 1)) * sgn) ∧ best.all fun held => |b - a| < held.1 then
    some (|b - a|, i)
  else best

/-- The inner loop of `reduce_counted`: the smallest inner pair that can be taken out, the first of equals. -/
def smallestPair (d : Int) (xs : List ℚ) : Option (ℚ × Nat) :=
  (List.range' 1 (xs.length - 3)).foldl (smallerPair d xs) none

/-- The stages of `reduce_counted`: the waves that are left, and how many legs each holds. -/
def stagesFrom (d : Int) : Nat → List ℚ → List Nat → List (List ℚ × List Nat)
  | 0, xs, cnt => [(xs, cnt)]
  | fuel + 1, xs, cnt =>
    (xs, cnt) ::
      if 1 < xs.length - 1 then
        match smallestPair d xs with
        | some (_, i) =>
          let merged := cnt.getD (i - 1) 0 + cnt.getD i 0 + cnt.getD (i + 1) 0
          stagesFrom d fuel (xs.take i ++ xs.drop (i + 2)) (cnt.take (i - 1) ++ merged :: cnt.drop (i + 2))
        | none => []
      else []

/-- `reduce_counted`. -/
def reduceCounted (x : List ℚ) : List (List ℚ × List Nat) :=
  stagesFrom (if pt x 0 < x.getLastD 0 then 1 else -1) x.length x (List.replicate (x.length - 1) 1)

/-- `red.get(n)`. -/
def stage (n : Nat) (red : List (List ℚ × List Nat)) : Option (List ℚ × List Nat) :=
  red.find? fun s => s.1.length - 1 = n

/-- The loop of `_segments`, from price `k` on. -/
def segmentsFrom (prices : List ℚ) : Nat → List Nat → List (List ℚ)
  | _, [] => []
  | k, c :: counts => (prices.drop k).take (c + 1) :: segmentsFrom prices (k + c) counts

/-- `_segments`. -/
def segments (prices : List ℚ) (counts : List Nat) : List (List ℚ) := segmentsFrom prices 0 counts

section Reduction

variable {d : Int} {xs : List ℚ} {cnt : List Nat} {i : Nat}

theorem smallerPair_eq (d : Int) (xs : List ℚ) (best : Option (ℚ × Nat)) (i : Nat) :
    smallerPair d xs best i = best ∨ ∃ size, smallerPair d xs best i = some (size, i) := by
  unfold smallerPair
  simp only
  generalize (if i % 2 = 1 then d else -d) = sgn
  split
  · exact .inr ⟨_, rfl⟩
  · exact .inl rfl

/-- Only a pair with a wave on either side is taken out. -/
theorem smallestPair_inner {size : ℚ} (found : smallestPair d xs = some (size, i)) : 1 ≤ i ∧ i + 3 ≤ xs.length := by
  have all : ∀ (is : List Nat) (best : Option (ℚ × Nat)), (∀ i ∈ is, 1 ≤ i ∧ i + 3 ≤ xs.length) →
      (∀ held ∈ best, 1 ≤ held.2 ∧ held.2 + 3 ≤ xs.length) →
        ∀ held ∈ is.foldl (smallerPair d xs) best, 1 ≤ held.2 ∧ held.2 + 3 ≤ xs.length := by
    intro is
    induction is with
    | nil => exact fun _ _ inner => inner
    | cons i is ih =>
      intro best inside inner
      rw [List.foldl_cons]
      refine ih _ (fun j mem => inside j (List.mem_cons_of_mem _ mem)) ?_
      rcases smallerPair_eq d xs best i with same | ⟨size, taken⟩
      · rw [same]
        exact inner
      · rw [taken]
        rintro held ⟨⟩
        exact inside i List.mem_cons_self
  refine all _ none ?_ (by simp) _ found
  intro j mem
  rw [List.mem_range'_1] at mem
  omega

/-- What every stage keeps: a count for each wave, none of them 0, and together the legs there were. -/
structure Counted (legs : Nat) (s : List ℚ × List Nat) : Prop where
  length_eq : s.2.length = s.1.length - 1
  positive : ∀ c ∈ s.2, 1 ≤ c
  sum_eq : s.2.sum = legs

/-- Merging a pair with its two neighbours keeps the legs. -/
theorem counted_merge {legs : Nat} (counted : Counted legs (xs, cnt)) (inner : 1 ≤ i ∧ i + 3 ≤ xs.length) :
    Counted legs (xs.take i ++ xs.drop (i + 2),
      cnt.take (i - 1) ++ (cnt.getD (i - 1) 0 + cnt.getD i 0 + cnt.getD (i + 1) 0) :: cnt.drop (i + 2)) := by
  obtain ⟨lengths, positive, total⟩ := counted
  obtain ⟨first, last⟩ := inner
  simp only at lengths positive total
  obtain ⟨j, rfl⟩ : ∃ j, i = j + 1 := ⟨i - 1, by omega⟩
  have split : cnt = cnt.take j ++ cnt[j] :: cnt[j + 1] :: cnt[j + 2] :: cnt.drop (j + 3) := by
    rw [← List.drop_eq_getElem_cons, ← List.drop_eq_getElem_cons, ← List.drop_eq_getElem_cons, List.take_append_drop]
  have a : cnt.getD (j + 1 - 1) 0 = cnt[j] := List.getD_eq_getElem _ _ (by omega)
  have b : cnt.getD (j + 1) 0 = cnt[j + 1] := List.getD_eq_getElem _ _ (by omega)
  have c : cnt.getD (j + 1 + 1) 0 = cnt[j + 2] := List.getD_eq_getElem _ _ (by omega)
  refine ⟨?_, ?_, ?_⟩
  · simp only [List.length_append, List.length_take, List.length_cons, List.length_drop]
    omega
  · intro x mem
    rw [List.mem_append, List.mem_cons] at mem
    rcases mem with mem | rfl | mem
    · exact positive x (List.mem_of_mem_take mem)
    · have := positive cnt[j] (List.getElem_mem _)
      omega
    · exact positive x (List.mem_of_mem_drop mem)
  · have parts : cnt.sum = (cnt.take j).sum + (cnt[j] + (cnt[j + 1] + (cnt[j + 2] + (cnt.drop (j + 3)).sum))) := by
      conv_lhs => rw [split]
      simp only [List.sum_append, List.sum_cons]
    have behind : j + 1 + 2 = j + 3 := by omega
    rw [a, b, c, behind]
    simp only [Nat.add_sub_cancel, List.sum_append, List.sum_cons]
    omega

theorem counted_stagesFrom {legs fuel : Nat} (counted : Counted legs (xs, cnt)) :
    ∀ s ∈ stagesFrom d fuel xs cnt, Counted legs s := by
  induction fuel generalizing xs cnt with
  | zero =>
    intro s mem
    rw [stagesFrom, List.mem_singleton] at mem
    exact mem ▸ counted
  | succ fuel ih =>
    intro s mem
    rw [stagesFrom, List.mem_cons] at mem
    rcases mem with rfl | mem
    · exact counted
    · split at mem
      · split at mem
        · rename_i found
          exact ih (counted_merge counted (smallestPair_inner found)) s mem
        · cases mem
      · cases mem

/-- A stage of `reduce_counted` shares out the legs of the move among its waves. -/
theorem counted_stage {prices : List ℚ} {n : Nat} {s : List ℚ × List Nat}
    (found : stage n (reduceCounted prices) = some s) :
    s.2.length = n ∧ (∀ c ∈ s.2, 1 ≤ c) ∧ s.2.sum = prices.length - 1 := by
  have counted : Counted (prices.length - 1) s := by
    refine counted_stagesFrom ?_ s (List.mem_of_find?_eq_some found)
    refine ⟨by simp, ?_, by simp⟩
    intro c mem
    exact (List.eq_of_mem_replicate mem).ge
  have waves := List.find?_some found
  simp only [decide_eq_true_eq] at waves
  exact ⟨counted.length_eq.trans waves, counted.positive, counted.sum_eq⟩

/-- The loop of `reduce_counted` is over before its allowance is: a turn takes two prices away. -/
theorem stagesFrom_enough {fuel : Nat} (enough : xs.length ≤ fuel) :
    stagesFrom d (fuel + 1) xs cnt = stagesFrom d fuel xs cnt := by
  induction fuel generalizing xs cnt with
  | zero =>
    have none_ : xs = [] := List.length_eq_zero_iff.mp (by omega)
    subst none_
    simp [stagesFrom]
  | succ fuel ih =>
    rw [stagesFrom, stagesFrom]
    split
    · cases found : smallestPair d xs with
      | none => rfl
      | some held =>
        obtain ⟨size, i⟩ := held
        have inner := smallestPair_inner found
        simp only
        rw [ih]
        simp only [List.length_append, List.length_take, List.length_drop]
        omega
    · rfl

end Reduction

end AdvanceTrading.DailyTrend
