import AdvanceTrading.PriceAction.CounterReading

/-!
# The waves of a motive move

Model of `motive_segs` (`app/price_action/daily_trend/legs.py:325-352`), which
repeats the motive readings of `read_counter` to get their five waves. Between
its five-wave impulse and its extended impulse `read_counter` reads triangles
and combinations too, so it stops before the extension on some moves whose waves
`motive_segs` returns (`Shadowed`).
-/

namespace AdvanceTrading.DailyTrend

/-! ## The waves -/

/-- The waves of a reading of five (`:330-339`). -/
def motiveFive (m : Move) (x5 : List ℚ) (c5 : List Nat) : Reader (Option (List (List ℚ))) := do
  let seg5 := segments m.prices c5
  let sub ← motiveThenCorrective m.ratios seg5
  if impulse x5 true && sub then return some seg5
  let subdivided ← if sub then pure true else allOf (seg5.map (isCorrective m.ratios))
  if subdivided && (wedge x5 true .contracting || wedge x5 true .expanding) then return some seg5
  return none

/-- `waves`, the one at `j` being extended. -/
def wavesFrom (j : Nat) : List (List Nat) :=
  (List.range j).map (fun k => [k]) ++ [List.range' j 5] ++ (List.range' (j + 5) (9 - (j + 5))).map fun k => [k]

/-- The loop over the wave that may be extended (`:344-351`). -/
def motiveNine (m : Move) (x9 : List ℚ) (c9 : List Nat) : List Nat → Reader (Option (List (List ℚ)))
  | [] => pure none
  | j :: js => do
    let waves := wavesFrom j
    if waves.length ≠ 5 then motiveNine m x9 c9 js
    else
      let x5e := pt x9 0 :: waves.map fun w => pt x9 (w.getLastD 0 + 1)
      let segs := waves.map (joined (segments m.prices c9))
      if ← provided (impulse x5e true) (motiveThenCorrective m.ratios segs) then return some segs
      motiveNine m x9 c9 js

/-- `red.get(k)`, when the move has `k` legs at least. -/
def wavesAt (m : Move) (k : Nat) (read : List ℚ → List Nat → Reader (Option (List (List ℚ)))) :
    Reader (Option (List (List ℚ))) :=
  match stage k (reduceCounted m.prices) with
  | some (x, c) => if k ≤ m.prices.length - 1 then read x c else pure none
  | none => pure none

/-- `motive_segs`, as a part of a reading. -/
def motiveBody (m : Move) : Reader (Option (List (List ℚ))) := do
  match ← wavesAt m 5 (motiveFive m) with
  | some segs => return some segs
  | none => wavesAt m 9 fun x9 c9 => motiveNine m x9 c9 [0, 2, 4]

/-- `motive_segs(prices)` after some calls of `read_counter`. -/
def motiveSegs (calls : List Call) (prices : List ℚ) : Option (List (List ℚ)) :=
  (counterReader.perform (motiveBody ⟨prices, patternDefaults⟩) (memoAfter calls)).1

/-! ## Tilings -/

/-- Segments that share their ends and make up the list. -/
structure Tiles (prices : List ℚ) (segs : List (List ℚ)) : Prop where
  five : segs.length = 5
  legs : ∀ seg ∈ segs, 2 ≤ seg.length
  chained : segs.IsChain fun a b => a.getLast? = b.head?
  first : (segs.headD []).head? = prices.head?
  last : (segs.getLastD []).getLast? = prices.getLast?
  points : segs.headD [] ++ segs.tail.flatMap List.tail = prices

section Tiling

variable {prices : List ℚ} {k : Nat} {counts : List Nat}

/-- The `a` legs from price `k` on. -/
def slice (prices : List ℚ) (k a : Nat) : List ℚ := (prices.drop k).take (a + 1)

theorem slice_append (prices : List ℚ) (k a b : Nat) :
    slice prices k a ++ (slice prices (k + a) b).tail = slice prices k (a + b) := by
  unfold slice
  rw [show a + b + 1 = (a + 1) +
    b by omega, List.take_add (i := a + 1), List.drop_drop, ← List.drop_one, List.drop_take,
    List.drop_drop, Nat.add_sub_cancel, Nat.add_assoc]

theorem head_slice (a : Nat) : (slice prices k a).head? = prices[k]? := by
  unfold slice
  rw [List.head?_take, if_neg (by omega), List.head?_drop]

theorem last_slice {a : Nat} (inside : k + a < prices.length) : (slice prices k a).getLast? = prices[k + a]? := by
  unfold slice
  rw [List.getLast?_eq_getElem?, List.length_take, List.length_drop,
    show min (a + 1) (prices.length - k) - 1 = a by omega,
    List.getElem?_take, if_pos (by omega), List.getElem?_drop]

theorem segmentsFrom_cons (c : Nat) :
    segmentsFrom prices k (c :: counts) = slice prices k c :: segmentsFrom prices (k + c) counts := rfl

theorem segmentsFrom_nil : segmentsFrom prices k [] = [] := rfl

/-- Segments one after the other, without the shared ends, are the legs of all. -/
theorem segmentsFrom_points (c : Nat) :
    slice prices k c ++ (segmentsFrom prices (k + c) counts).flatMap List.tail = slice prices k (c + counts.sum) := by
  induction counts generalizing c with
  | nil => simp [segmentsFrom]
  | cons d counts ih =>
    rw [segmentsFrom_cons, List.flatMap_cons, ← List.append_assoc, slice_append, Nat.add_assoc, ih, List.sum_cons,
      Nat.add_assoc]

section

variable (inside : k + counts.sum < prices.length)
include inside

/-- Segments that stay inside the list share their ends. -/
theorem segmentsFrom_chained :
    (segmentsFrom prices k counts).IsChain fun a b => a.getLast? = b.head? := by
  induction counts generalizing k with
  | nil => exact .nil
  | cons c counts ih =>
    rw [List.sum_cons] at inside
    rw [segmentsFrom_cons]
    have rest := ih (k := k + c) (by omega)
    cases counts with
    | nil => exact .singleton _
    | cons d counts =>
      rw [segmentsFrom_cons] at rest ⊢
      refine .cons_cons ?_ rest
      rw [last_slice (by omega), head_slice]

theorem segmentsFrom_last (some_ : counts ≠ []) :
    ((segmentsFrom prices k counts).getLastD []).getLast? = prices[k + counts.sum]? := by
  induction counts generalizing k with
  | nil => exact absurd rfl some_
  | cons c counts ih =>
    rw [List.sum_cons] at inside ⊢
    rw [segmentsFrom_cons]
    cases counts with
    | nil => exact last_slice (by simpa using inside)
    | cons d counts =>
      have rest := ih (k := k + c) (by omega) (List.cons_ne_nil _ _)
      rw [segmentsFrom_cons] at rest ⊢
      rw [← Nat.add_assoc]
      exact rest

theorem segmentsFrom_legs (positive : ∀ c ∈ counts, 1 ≤ c) :
    ∀ seg ∈ segmentsFrom prices k counts, 2 ≤ seg.length := by
  induction counts generalizing k with
  | nil => exact fun _ mem => nomatch mem
  | cons c counts ih =>
    rw [List.sum_cons] at inside
    have own := positive c List.mem_cons_self
    intro seg mem
    rcases List.mem_cons.mp mem with rfl | mem
    · rw [List.length_take, List.length_drop]
      omega
    · exact ih (k := k + c) (by omega) (fun d among => positive d (List.mem_cons_of_mem _ among)) seg mem

end

theorem length_segmentsFrom : (segmentsFrom prices k counts).length = counts.length := by
  induction counts generalizing k with
  | nil => rfl
  | cons c counts ih => rw [segmentsFrom_cons, List.length_cons, ih, List.length_cons]

/-- Five segments one after the other. -/
theorem slice_five (prices : List ℚ) (k a b c d e : Nat) :
    slice prices k a ++ ((slice prices (k + a) b).tail ++ ((slice prices (k + a + b) c).tail ++
      ((slice prices (k + a + b + c) d).tail ++ (slice prices (k + a + b + c + d) e).tail))) =
        slice prices k (a + (b + (c + (d + e)))) := by
  simpa [segmentsFrom_cons, segmentsFrom_nil] using @segmentsFrom_points prices k [b, c, d, e] a

/-- Five counts that share out the legs of a move cut it into a tiling. -/
theorem tiles_segments (waves : counts.length = 5) (positive : ∀ c ∈ counts, 1 ≤ c)
    (total : counts.sum = prices.length - 1) (some_left : prices ≠ []) :
    Tiles prices (segments prices counts) := by
  have longer : 0 < prices.length := List.length_pos_iff.mpr some_left
  have inside : 0 + counts.sum < prices.length := by omega
  refine ⟨length_segmentsFrom.trans waves, segmentsFrom_legs inside positive, segmentsFrom_chained inside, ?_, ?_, ?_⟩
  · cases counts with
    | nil => exact nomatch waves
    | cons c counts =>
      rw [segments, segmentsFrom_cons, List.headD_cons, head_slice, List.head?_eq_getElem?]
  · have some_ : counts ≠ [] := by
      rintro rfl
      exact nomatch waves
    rw [segments, segmentsFrom_last inside some_, List.getLast?_eq_getElem?, ← total, Nat.zero_add]
  · cases counts with
    | nil => exact nomatch waves
    | cons c counts =>
      rw [List.sum_cons] at total
      rw [segments, segmentsFrom_cons, List.headD_cons, List.tail_cons, segmentsFrom_points, total,
        slice, List.drop_zero,
        Nat.sub_add_cancel longer, List.take_length]

end Tiling

/-! ## Readings of the parts -/

/-- `_is_motive`, by the plain reading. -/
def motiveSeg (seg : List ℚ) : Bool := decide (seg.length = 2) || decide ((plainReading (seg, none)).family ∈ motive)

/-- `_is_corrective`, by the plain reading. -/
def correctiveSeg (seg : List ℚ) : Bool :=
  decide (seg.length = 2) || decide ((plainReading (seg, none)).family ∈ corrective)

/-- A complete corrective form of several legs. -/
def completeSeg (seg : List ℚ) : Bool :=
  decide (2 < seg.length) && decide ((plainReading (seg, none)).family ∈ completeForms)

/-- Waves 1, 3 and 5 are motive, and 2 and 4 corrective. -/
def subdivides (segs : List (List ℚ)) : Bool :=
  (pick segs [0, 2, 4]).all motiveSeg && (pick segs [1, 3]).all correctiveSeg

/-- Five waves that are an impulse or a diagonal. -/
def fiveMotive (x5 : List ℚ) (segs : List (List ℚ)) : Bool :=
  (impulse x5 true && subdivides segs) ||
    ((subdivides segs || segs.all correctiveSeg) && (wedge x5 true .contracting || wedge x5 true .expanding))

/-- Five waves that are a triangle or a combination, if they are not motive. -/
def fiveCorrective (x5 : List ℚ) (segs : List (List ℚ)) : Bool :=
  (segs.all correctiveSeg && ((triangle x5 true .contracting 0).1 || (triangle x5 true .expanding 0).1) &&
      !impulse x5 true) ||
    ((pick segs [0, 2, 4]).all completeSeg && (pick segs [1, 3]).all correctiveSeg)

/-- Nine waves that are an impulse whose wave at `j` is extended. -/
def extended (x9 : List ℚ) (seg9 : List (List ℚ)) (j : Nat) : Bool :=
  impulse (pt x9 0 :: (wavesFrom j).map fun w => pt x9 (w.getLastD 0 + 1)) true &&
    subdivides ((wavesFrom j).map (joined seg9))

/-- What holds of the waves of a reduction, if it has that stage. -/
def atWaves (prices : List ℚ) (k : Nat) (p : List ℚ → List (List ℚ) → Bool) : Bool :=
  (stage k (reduceCounted prices)).any fun s => p s.1 (segments prices s.2)

/-- The five waves are read as a triangle or a combination, and the nine are an impulse with an extended wave. -/
def Shadowed (prices : List ℚ) : Prop :=
  atWaves prices 5 fiveMotive = false ∧ atWaves prices 5 fiveCorrective = true ∧
    (atWaves prices 9 fun x9 seg9 => [0, 2, 4].any (extended x9 seg9)) = true

instance (prices : List ℚ) : Decidable (Shadowed prices) := inferInstanceAs (Decidable (_ ∧ _ ∧ _))

/-- Prices of the two lists that differ are still different rounded to six decimals, as the memo files them. -/
def ToldApart (us vs : List ℚ) : Prop := ∀ u ∈ us, ∀ v ∈ vs, Py.roundTo 6 u = Py.roundTo 6 v → u = v

instance (us vs : List ℚ) : Decidable (ToldApart us vs) :=
  inferInstanceAs (Decidable (∀ u ∈ us, ∀ v ∈ vs, _ → u = v))

variable {js : List Nat} {j : Nat}

variable (f : Move → Reading)

section Plain

variable {prices : List ℚ} {x : List ℚ} {c : List Nat} {segs : List (List ℚ)}

/-- A move read by the default ratios. -/
abbrev defaultMove (prices : List ℚ) : Move := ⟨prices, patternDefaults⟩

theorem eval_andThen (p q : Reader Bool) : (andThen p q).eval f = (p.eval f && q.eval f) := by
  unfold andThen
  rw [Ask.eval_bind, Ask.eval_ite]
  cases p.eval f <;> rfl

theorem eval_provided (cond : Bool) (q : Reader Bool) :
    (provided cond q).eval f = (cond && q.eval f) := by
  cases cond <;> rfl

theorem eval_allOf (g : List ℚ → Reader Bool) (segs : List (List ℚ)) :
    (allOf (segs.map g)).eval f = segs.all fun seg => (g seg).eval f := by
  induction segs with
  | nil => rfl
  | cons seg segs ih => rw [List.map_cons, allOf, eval_andThen, ih, List.all_cons]

theorem eval_isMotive (seg : List ℚ) : (isMotive patternDefaults seg).eval plainReader.answer = motiveSeg seg := by
  unfold isMotive motiveSeg
  split
  · rename_i leg
    rw [Ask.eval_pure, decide_eq_true leg, Bool.true_or]
  · rename_i legs
    rw [decide_eq_false legs, Bool.false_or]
    rfl

theorem eval_isCorrective (seg : List ℚ) :
    (isCorrective patternDefaults seg).eval plainReader.answer = correctiveSeg seg := by
  unfold isCorrective correctiveSeg
  split
  · rename_i leg
    rw [Ask.eval_pure, decide_eq_true leg, Bool.true_or]
  · rename_i legs
    rw [decide_eq_false legs, Bool.false_or]
    rfl

theorem eval_isComplete (seg : List ℚ) :
    (isComplete patternDefaults seg).eval plainReader.answer = completeSeg seg := by
  unfold isComplete completeSeg
  rw [eval_provided]
  rfl

theorem eval_motiveThenCorrective (segs : List (List ℚ)) :
    (motiveThenCorrective patternDefaults segs).eval plainReader.answer = subdivides segs := by
  unfold motiveThenCorrective subdivides
  rw [eval_andThen, eval_allOf, eval_allOf]
  simp only [eval_isMotive, eval_isCorrective]

/-- What the five waves of a move are read as. -/
theorem eval_readFive :
    (readFive (defaultMove prices) x c).eval plainReader.answer =
      if impulse x true && subdivides (segments prices c) then some .impulse
      else if fiveMotive x (segments prices c) then some .diagonal
      else if (segments prices c).all correctiveSeg &&
          ((triangle x true .contracting 0).1 || (triangle x true .expanding 0).1) &&
            !impulse x true then some .triangle
      else if fiveCorrective x (segments prices c) then some .combination
      else none := by
  unfold readFive fiveMotive fiveCorrective
  simp only [Ask.eval_bind, Ask.eval_ite, Ask.eval_pure, eval_provided, eval_motiveThenCorrective, eval_allOf,
    eval_isCorrective, eval_isComplete, eval_andThen]
  generalize subdivides (segments prices c) = sub
  generalize (segments prices c).all (fun seg => correctiveSeg seg) = corrAll
  generalize ((triangle x true .contracting 0).1 || (triangle x true .expanding 0).1) = triangles
  cases sub <;> cases corrAll <;> cases triangles <;> cases impulse x true <;>
    simp [eval_andThen, eval_allOf, eval_isCorrective, eval_isComplete]

theorem eval_motiveFive :
    (motiveFive (defaultMove prices) x c).eval plainReader.answer =
      if fiveMotive x (segments prices c) then some (segments prices c) else none := by
  unfold motiveFive fiveMotive
  simp only [Ask.eval_bind, Ask.eval_ite, Ask.eval_pure, eval_motiveThenCorrective, eval_allOf, eval_isCorrective]
  generalize subdivides (segments prices c) = sub
  generalize (segments prices c).all (fun seg => correctiveSeg seg) = corrAll
  cases sub <;> cases corrAll <;> cases impulse x true <;> simp

/-- The two spellings of the groups are the same. -/
theorem extendedWaves_eq (one : j ∈ [0, 2, 4]) :
    extendedWaves j = wavesFrom j ∧ (wavesFrom j).length = 5 := by
  revert j
  decide

theorem eval_readNine (known : ∀ j ∈ js, j ∈ [0, 2, 4]) :
    (readNine (defaultMove prices) x c js).eval plainReader.answer =
      if js.any (extended x (segments prices c)) then some .impulse else none := by
  induction js with
  | nil => rfl
  | cons j js ih =>
    obtain ⟨same, five⟩ := extendedWaves_eq (known j List.mem_cons_self)
    rw [readNine, same, if_neg (not_not.mpr five)]
    simp only [Ask.eval_bind, Ask.eval_ite, Ask.eval_pure, eval_provided, eval_motiveThenCorrective,
      ih fun k mem => known k (List.mem_cons_of_mem _ mem), List.any_cons]
    rw [← extended]
    by_cases here : extended x (segments prices c) j = true
    · simp [here]
    · simp [here]

theorem eval_motiveNine (known : ∀ j ∈ js, j ∈ [0, 2, 4]) :
    (motiveNine (defaultMove prices) x c js).eval plainReader.answer =
      (js.find? (extended x (segments prices c))).map fun j => (wavesFrom j).map (joined (segments prices c)) := by
  induction js with
  | nil => rfl
  | cons j js ih =>
    obtain ⟨-, five⟩ := extendedWaves_eq (known j List.mem_cons_self)
    rw [motiveNine, if_neg (not_not.mpr five)]
    simp only [Ask.eval_bind, Ask.eval_ite, Ask.eval_pure, eval_provided, eval_motiveThenCorrective,
      ih fun k mem => known k (List.mem_cons_of_mem _ mem), List.find?_cons]
    rw [← extended]
    by_cases here : extended x (segments prices c) j = true
    · simp [here]
    · simp [here]

/-- A reading that is no impulse and no diagonal. -/
def NotMotive (fam : Option Family) : Prop := ∀ f ∈ fam, f ∉ motive

theorem eval_readThree (m : Move) (x a c : List ℚ) : NotMotive ((readThree m x a c).eval f) := by
  unfold readThree
  simp only [Ask.eval_bind, Ask.eval_ite, Ask.eval_pure]
  split_ifs <;> simp [NotMotive, motive]

theorem eval_readLaterB (m : Move) (a : List ℚ) (ia : Nat) (ibs : List Nat) :
    NotMotive ((readLaterB m a ia ibs).eval f) := by
  induction ibs with
  | nil => exact fun _ found => nomatch found
  | cons ib ibs ih =>
    rw [readLaterB]
    simp only [Ask.eval_bind, Ask.eval_ite, Ask.eval_pure]
    split_ifs <;> first | exact ih | simp [NotMotive, motive]

/-- Three waves are never read as motive. -/
theorem eval_readThreeStage (m : Move) : NotMotive ((readThreeStage m).eval f) := by
  unfold readThreeStage
  split
  · rename_i x3 c3 _
    rw [Ask.eval_bind]
    have three := eval_readThree f m x3 ((segments m.prices c3).getD 0 []) ((segments m.prices c3).getD 2 [])
    generalize (readThree m x3 ((segments m.prices c3).getD 0 [])
      ((segments m.prices c3).getD 2 [])).eval f = fam at three ⊢
    cases fam with
    | none => exact eval_readLaterB f m _ _ _
    | some fam => exact three
  · exact fun _ found => nomatch found

/-- A stage of `k` waves has `k` legs to share out. -/
theorem legs_of_stage {k : Nat} (found : stage k (reduceCounted prices) = some (x, c)) : k ≤ prices.length - 1 := by
  obtain ⟨waves, positive, total⟩ := counted_stage found
  have := List.length_le_sum_of_one_le c positive
  simp only at waves total
  omega

theorem eval_atStage (m : Move) (k : Nat) (read : List ℚ → List Nat → Reader (Option Family)) :
    (atStage m k read).eval f = (stage k (reduceCounted m.prices)).elim none fun s => (read s.1 s.2).eval f := by
  unfold atStage
  cases found : stage k (reduceCounted m.prices) with
  | none => rfl
  | some s =>
    dsimp only
    rw [if_pos (legs_of_stage found)]
    rfl

theorem eval_wavesAt (m : Move) (k : Nat)
    (read : List ℚ → List Nat → Reader (Option (List (List ℚ)))) :
    (wavesAt m k read).eval f = (stage k (reduceCounted m.prices)).elim none fun s => (read s.1 s.2).eval f := by
  unfold wavesAt
  cases found : stage k (reduceCounted m.prices) with
  | none => rfl
  | some s =>
    dsimp only
    rw [if_pos (legs_of_stage found)]
    rfl

/-- The nine waves are an impulse with one of the motive waves extended. -/
abbrev nineMotive (x9 : List ℚ) (seg9 : List (List ℚ)) : Bool := [0, 2, 4].any (extended x9 seg9)

/-- What the five waves of a move are read as, if it has them. -/
theorem eval_five (prices : List ℚ) :
    (atWaves prices 5 fiveMotive = true ∧
        ∃ f ∈ motive, (atStage (defaultMove prices) 5 (readFive (defaultMove prices))).eval
          plainReader.answer = some f) ∨
      (atWaves prices 5 fiveMotive = false ∧ atWaves prices 5 fiveCorrective = true ∧
        ∃ f ∉ motive, (atStage (defaultMove prices) 5 (readFive (defaultMove prices))).eval
          plainReader.answer = some f) ∨
      (atWaves prices 5 fiveMotive = false ∧ atWaves prices 5 fiveCorrective = false ∧
        (atStage (defaultMove prices) 5 (readFive (defaultMove prices))).eval plainReader.answer = none) := by
  rw [eval_atStage]
  unfold atWaves
  cases stage 5 (reduceCounted prices) with
  | none => exact .inr (.inr ⟨rfl, rfl, rfl⟩)
  | some s =>
    simp only [Option.any_some, Option.elim_some, eval_readFive]
    cases five : fiveMotive s.1 (segments prices s.2) with
    | true =>
      left
      refine ⟨rfl, ?_⟩
      rw [if_pos rfl]
      split_ifs
      · exact ⟨.impulse, by decide, rfl⟩
      · exact ⟨.diagonal, by decide, rfl⟩
    | false =>
      have no_impulse : ¬ (impulse s.1 true && subdivides (segments prices s.2)) = true := by
        intro is_impulse
        rw [fiveMotive, is_impulse] at five
        exact nomatch five
      rw [if_neg no_impulse, if_neg Bool.false_ne_true]
      split_ifs with triangles combination
      · exact .inr (.inl ⟨rfl, by rw [fiveCorrective, triangles, Bool.true_or], .triangle, by decide, rfl⟩)
      · exact .inr (.inl ⟨rfl, combination, .combination, by decide, rfl⟩)
      · exact .inr (.inr ⟨rfl, Bool.eq_false_of_not_eq_true combination, rfl⟩)

theorem eval_nine (prices : List ℚ) :
    (atStage (defaultMove prices) 9 fun x9 c9 => readNine (defaultMove prices) x9 c9 [0, 2, 4]).eval
      plainReader.answer =
      if atWaves prices 9 nineMotive = true then some .impulse else none := by
  rw [eval_atStage]
  unfold atWaves
  cases stage 9 (reduceCounted prices) with
  | none => rfl
  | some s =>
    rw [Option.elim_some, eval_readNine fun _ mem => mem]
    rfl

/-- A single leg has no reduction to several waves. -/
theorem atWaves_of_single {k : Nat} (several : 2 ≤ k) (single : prices.length - 1 ≤ 1)
    (p : List ℚ → List (List ℚ) → Bool) : atWaves prices k p = false := by
  unfold atWaves
  cases found : stage k (reduceCounted prices) with
  | none => rfl
  | some s =>
    have legs := legs_of_stage found
    omega

/-- The family that the plain recursion reads. -/
theorem plainReading_family :
    (plainReading (prices, none)).family ∈ motive ↔
      atWaves prices 5 fiveMotive = true ∨ atWaves prices 5 fiveCorrective = false ∧
        atWaves prices 9 nineMotive = true := by
  have equation : plainReading (prices, none) =
      (singleLeg (defaultMove prices)).getD ((readBody (defaultMove prices)).eval plainReader.answer) :=
    plainReader.answer_eq (defaultMove prices)
  rw [equation, singleLeg]
  split
  · rename_i single
    rw [atWaves_of_single (by omega) single, atWaves_of_single (by omega) single, atWaves_of_single (by omega) single]
    simp [motive]
  · rw [Option.getD_none, readBody, readFamily]
    simp only [Ask.eval_bind, Ask.eval_pure]
    rcases eval_five prices with ⟨isMotive, f, among, read⟩ | ⟨notMotive, corrective, f, other, read⟩ |
      ⟨notMotive, not, read⟩
    · rw [read]
      exact iff_of_true among (.inl isMotive)
    · rw [read, notMotive, corrective]
      simp [orElse_, other]
    · rw [read, notMotive, not]
      by_cases nine : atWaves prices 9 nineMotive = true
      · simp [orElse_, eval_nine, nine, motive]
      · have three := eval_readThreeStage plainReader.answer (defaultMove prices)
        have left_out : (orElse_ none (atStage (defaultMove prices) 9 fun x9 c9 =>
            readNine (defaultMove prices) x9 c9 [0, 2, 4])).eval plainReader.answer = none := by
          rw [orElse_, eval_nine, if_neg nine]
        rw [left_out, orElse_]
        refine iff_of_false ?_ (by simp [nine])
        cases found : (readThreeStage (defaultMove prices)).eval plainReader.answer with
        | none => decide
        | some f => exact three f found

/-- The waves that the plain recursion gives. -/
theorem motiveBody_waves :
    ((motiveBody (defaultMove prices)).eval plainReader.answer).isSome = true ↔
      atWaves prices 5 fiveMotive = true ∨ atWaves prices 9 nineMotive = true := by
  unfold motiveBody atWaves
  rw [Ask.eval_bind, eval_wavesAt]
  have nine : ((wavesAt (defaultMove prices) 9 fun x9 c9 => motiveNine (defaultMove prices) x9 c9 [0, 2, 4]).eval
      plainReader.answer).isSome = (stage 9 (reduceCounted prices)).any fun s =>
        nineMotive s.1 (segments prices s.2) := by
    rw [eval_wavesAt]
    cases stage 9 (reduceCounted prices) with
    | none => rfl
    | some s =>
      rw [Option.elim_some, eval_motiveNine fun _ mem => mem, Option.isSome_map, List.isSome_find?, Option.any_some]
  cases stage 5 (reduceCounted prices) with
  | none => simp [nine]
  | some s =>
    simp only [Option.elim_some, eval_motiveFive, Option.any_some]
    by_cases five : fiveMotive s.1 (segments prices s.2) = true
    · simp [five]
    · simp [five, nine]

end Plain

/-! ## What the waves are -/

section Waves

variable {m : Move} {prices : List ℚ} {x : List ℚ} {c : List Nat} {segs : List (List ℚ)}

theorem asks_motiveFive (found : stage 5 (reduceCounted m.prices) = some (x, c)) :
    (motiveFive m x c).Asks (PartOf m) := by
  have parts := segment_of_stage found (by omega)
  have some_ : segments m.prices c ≠ [] := by
    have waves := (counted_stage found).1
    apply segments_ne_nil
    rintro rfl
    simp at waves
  refine Ask.asks_bind (asks_motiveThenCorrective parts some_) fun sub => asks_ite (Ask.asks_pure _ _) ?_
  have rest : ∀ subdivided : Bool, (if subdivided && (wedge x true .contracting || wedge x true .expanding) then
      pure (some (segments m.prices c)) else pure none : Reader (Option (List (List ℚ)))).Asks (PartOf m) :=
    fun subdivided => asks_ite (Ask.asks_pure _ _) (Ask.asks_pure _ _)
  exact asks_ite (rest true) (Ask.asks_bind (asks_all _ (fun _ => asks_isCorrective) parts) rest)

theorem asks_motiveNine (found : stage 9 (reduceCounted m.prices) = some (x, c))
    (known : ∀ j ∈ js, j ∈ [0, 2, 4]) : (motiveNine m x c js).Asks (PartOf m) := by
  obtain ⟨waves, positive, total⟩ := counted_stage found
  simp only at waves positive total
  induction js with
  | nil => exact Ask.asks_pure _ _
  | cons j js ih =>
    have later := ih fun e mem => known e (List.mem_cons_of_mem _ mem)
    obtain ⟨same, five⟩ := extendedWaves_eq (known j List.mem_cons_self)
    have parts : ∀ seg ∈ (wavesFrom j).map (joined (segments m.prices c)), Segment m seg := by
      intro seg mem
      obtain ⟨w, among, rfl⟩ := List.mem_map.mp mem
      have less := sum_extended_lt waves positive (known j List.mem_cons_self) (same ▸ among)
      obtain ⟨bound, within⟩ := joined_spec m.prices c w
      exact ⟨by omega, within⟩
    have some_ : (wavesFrom j).map (joined (segments m.prices c)) ≠ [] := by
      intro none_left
      rw [List.map_eq_nil_iff.mp none_left] at five
      exact nomatch five
    rw [motiveNine]
    refine asks_ite later (Ask.asks_bind (asks_provided (asks_motiveThenCorrective parts some_)) fun _ => ?_)
    exact asks_ite (Ask.asks_pure _ _) later

theorem asks_wavesAt {k : Nat} {read : List ℚ → List Nat → Reader (Option (List (List ℚ)))}
    (asks : ∀ x c, stage k (reduceCounted m.prices) = some (x, c) → (read x c).Asks (PartOf m)) :
    (wavesAt m k read).Asks (PartOf m) := by
  unfold wavesAt
  split
  · rename_i x c found
    exact asks_ite (asks x c found) (Ask.asks_pure _ _)
  · exact Ask.asks_pure _ _

/-- `motive_segs` reads only shorter parts of the move. -/
theorem asks_motiveBody (m : Move) : (motiveBody m).Asks (PartOf m) := by
  refine Ask.asks_bind (asks_wavesAt fun x c found => asks_motiveFive found) fun segs => ?_
  cases segs with
  | some segs => exact Ask.asks_pure _ _
  | none => exact asks_wavesAt fun x c found => asks_motiveNine found fun _ mem => mem

/-- The counts of nine waves, those of the five that make one wave added up. -/
def mergedCounts (j : Nat) (c : List Nat) : List Nat := c.take j ++ ((c.drop j).take 5).sum :: c.drop (j + 5)

/-- The groups of nine waves are the segments of their merged counts. -/
theorem waves_segments (nine : c.length = 9) (one : j ∈ [0, 2, 4]) :
    (wavesFrom j).map (joined (segments prices c)) = segments prices (mergedCounts j c) := by
  match c, nine with
  | [c0, c1, c2, c3, c4, c5, c6, c7, c8], _ =>
    simp only [List.mem_cons, List.not_mem_nil, or_false] at one
    rcases one with rfl | rfl | rfl
    · have group := slice_five prices 0 c0 c1 c2 c3 c4
      simpa [wavesFrom, mergedCounts, segments, segmentsFrom, joined, List.range_succ, List.range',
        Nat.add_assoc, slice]
        using group
    · have group := slice_five prices (c0 + c1) c2 c3 c4 c5 c6
      simpa [wavesFrom, mergedCounts, segments, segmentsFrom, joined, List.range_succ, List.range',
        Nat.add_assoc, slice]
        using group
    · have group := slice_five prices (c0 + c1 + c2 + c3) c4 c5 c6 c7 c8
      simpa [wavesFrom, mergedCounts, segments, segmentsFrom, joined, List.range_succ, List.range',
        Nat.add_assoc, slice]
        using group

theorem mergedCounts_spec (nine : c.length = 9) (positive : ∀ d ∈ c, 1 ≤ d) (one : j ∈ [0, 2, 4]) :
    (mergedCounts j c).length = 5 ∧ (∀ d ∈ mergedCounts j c, 1 ≤ d) ∧ (mergedCounts j c).sum = c.sum := by
  match c, nine with
  | [c0, c1, c2, c3, c4, c5, c6, c7, c8], _ =>
    simp only [List.mem_cons, List.not_mem_nil, or_false, forall_eq_or_imp, forall_eq] at positive
    simp only [List.mem_cons, List.not_mem_nil, or_false] at one
    rcases one with rfl | rfl | rfl <;>
      · refine ⟨rfl, ?_, ?_⟩ <;> simp [mergedCounts] <;> omega

/-- The waves that `motive_segs` gives tile the move. -/
theorem motiveBody_tiles (waves : (motiveBody (defaultMove prices)).eval plainReader.answer = some segs) :
    Tiles prices segs := by
  have some_left : ∀ {k} {s : List ℚ × List Nat}, 1 ≤ k → stage k (reduceCounted prices) = some s → prices ≠ [] := by
    rintro k s several found rfl
    have legs := legs_of_stage found
    simp at legs
    omega
  unfold motiveBody at waves
  rw [Ask.eval_bind, eval_wavesAt] at waves
  have nine : ∀ segs, (wavesAt (defaultMove prices) 9 fun x9 c9 => motiveNine (defaultMove prices) x9 c9 [0, 2, 4]).eval
      plainReader.answer = some segs → Tiles prices segs := by
    intro segs waves
    rw [eval_wavesAt] at waves
    cases found : stage 9 (reduceCounted prices) with
    | none =>
      rw [found] at waves
      exact nomatch waves
    | some s =>
      rw [found, Option.elim_some, eval_motiveNine fun _ mem => mem] at waves
      obtain ⟨j, one, rfl⟩ := Option.map_eq_some_iff.mp waves
      obtain ⟨nine, positive, total⟩ := counted_stage found
      have among := List.mem_of_find?_eq_some one
      obtain ⟨five, each, same⟩ := mergedCounts_spec nine positive among
      rw [waves_segments nine among]
      exact tiles_segments five each (same.trans total) (some_left (by omega) found)
  cases found : stage 5 (reduceCounted prices) with
  | none =>
    rw [found] at waves
    exact nine segs waves
  | some s =>
    rw [found, Option.elim_some, eval_motiveFive] at waves
    by_cases isFive : fiveMotive s.1 (segments prices s.2) = true
    · obtain ⟨five, positive, total⟩ := counted_stage found
      rw [if_pos isFive] at waves
      rw [← Option.some.inj waves]
      exact tiles_segments five positive total (some_left (by omega) found)
    · rw [if_neg isFive] at waves
      exact nine segs waves

section

variable {calls : List Call} (own : ToldApart prices prices)
  (earlier : ∀ d ∈ calls, d.move.ratios = patternDefaults → ToldApart d.1 prices)
include own earlier

/-- Behind the memo, `motive_segs` gives what the plain recursion does. -/
theorem motiveSegs_eq :
    motiveSegs calls prices = (motiveBody (defaultMove prices)).eval plainReader.answer := by
  refine Memo.perform_eq_eval (separates_of (fun _ _ told => told) prices patternDefaults)
    (moves_of_calls (P := fun us => ToldApart us prices) earlier) ?_ ?_
  · exact (asks_motiveBody _).mono fun r part _ u mem => own u (part.within u mem)
  · exact (asks_motiveBody _).mono fun r part => ⟨part.ratios_eq, part.within⟩

theorem readCounter_eq : readCounter calls (prices, none) = plainReading (prices, none) :=
  Memo.recall_eq_answer (separates_of (fun _ _ told => told) prices patternDefaults)
    (moves_of_calls (P := fun us => ToldApart us prices) earlier) (fun _ => own) ⟨rfl, fun _ mem => mem⟩

end

/-- After any calls on prices that the memo's rounding tells from these, `motive_segs` gives waves exactly when
`read_counter` reads the move as motive, and they tile the move, unless its five waves are read as a triangle or a
combination while its nine are an impulse. -/
theorem motiveSegs_agrees {calls calls' : List Call} (own : ToldApart prices prices)
    (earlier : ∀ d ∈ calls, d.move.ratios = patternDefaults → ToldApart d.1 prices)
    (earlier' : ∀ d ∈ calls', d.move.ratios = patternDefaults → ToldApart d.1 prices) :
    (((motiveSegs calls prices).isSome = true ↔ (readCounter calls' (prices, none)).family ∈ motive) ∧
      ∀ segs, motiveSegs calls prices = some segs → Tiles prices segs) ↔ ¬ Shadowed prices := by
  rw [motiveSegs_eq own earlier, readCounter_eq own earlier', motiveBody_waves, plainReading_family, Shadowed,
    and_iff_left fun segs => motiveBody_tiles]
  cases atWaves prices 5 fiveMotive <;> cases atWaves prices 5 fiveCorrective <;> cases atWaves
    prices 9 nineMotive <;> simp

/-- Five waves that rise. -/
def fiveRising : List ℚ := [0, 10, 5, 20, 15, 30]

theorem motiveSegs_agrees_fiveRising :
    ((motiveSegs [([0, 8, 4], none)] fiveRising).isSome = true ↔ (readCounter [] (fiveRising, none)).family ∈ motive) ∧
      ∀ segs, motiveSegs [([0, 8, 4], none)] fiveRising = some segs → Tiles fiveRising segs := by
  refine (motiveSegs_agrees ?_ ?_ ?_).mpr ?_
  · decide +kernel
  · decide +kernel
  · decide
  · decide +kernel

/-- Nine waves whose third is extended, and whose first five make one wave of an expanding triangle. -/
def underTriangle : List ℚ := [0, 20, 16, 19, 17, 60, 30, 80, 24, 100]

theorem motiveSegs_underTriangle :
    ¬ ((motiveSegs [] underTriangle).isSome = true ↔ (readCounter [] (underTriangle, none)).family ∈ motive) := by
  decide +kernel

end Waves

end AdvanceTrading.DailyTrend
