import AdvanceTrading.PriceAction.MotiveSegs
import AdvanceTrading.PriceAction.WaveCounter
import Mathlib.Data.List.ReduceOption

/-!
# The mirrored move

What `read_counter` reads of a move with every price negated. The rules and the
reduction take a direction from two prices (`1 if x[1] > x[0] else -1`), which
calls equal prices a fall on either side of the mirror. Where no direction is
taken of equal prices (`untied`) a move and its mirror image are read alike.
-/

namespace AdvanceTrading.DailyTrend

/-- The prices of the mirror image. -/
def mirrored (x : List ℚ) : List ℚ := x.map fun u => -u

def Move.mirrored (m : Move) : Move := ⟨DailyTrend.mirrored m.prices, m.ratios⟩

@[simp] theorem Move.prices_mirrored (m : Move) : m.mirrored.prices = DailyTrend.mirrored m.prices := rfl

@[simp] theorem Move.ratios_mirrored (m : Move) : m.mirrored.ratios = m.ratios := rfl

section Rules

variable {x : List ℚ} {s : Ratios} {finished : Bool} {kind : WedgeKind}

@[simp] theorem length_mirrored (x : List ℚ) : (mirrored x).length = x.length := List.length_map _

@[simp] theorem pt_mirrored (x : List ℚ) (i : Nat) : pt (mirrored x) i = -pt x i := by
  unfold pt mirrored
  rw [List.getD_eq_getElem?_getD, List.getD_eq_getElem?_getD, List.getElem?_map]
  cases x[i]? with
  | none => exact neg_zero.symm
  | some u => rfl

/-- Two prices that differ are ordered the other way in the mirror. -/
theorem direction_neg {u v : ℚ} (apart : u ≠ v) : (if -u < -v then 1 else -1 : Int) = -if u < v then 1 else -1 := by
  rcases lt_or_gt_of_ne apart with less | more
  · rw [if_pos less, if_neg (not_lt.mpr (neg_le_neg less.le))]
  · rw [if_neg (not_lt.mpr more.le), if_pos (neg_lt_neg more), neg_neg]

theorem directionOf_mirrored (apart : pt x 0 ≠ pt x 1) : directionOf (mirrored x) = -directionOf x := by
  unfold directionOf
  rw [pt_mirrored, pt_mirrored]
  exact direction_neg apart

@[simp] theorem lengths_mirrored (x : List ℚ) : lengths (mirrored x) = lengths x := by
  unfold lengths
  rw [length_mirrored]
  apply List.map_congr_left
  intro i _
  rw [pt_mirrored, pt_mirrored, neg_sub_neg, abs_sub_comm]

@[simp] theorem beyond_neg (u v : ℚ) (d : Int) : beyond (-u) (-v) (-d) = beyond u v d := by
  unfold beyond
  push_cast
  rw [neg_sub_neg, mul_neg, ← neg_mul, neg_sub]

@[simp] theorem reached_neg (u v : ℚ) (d : Int) : reached (-u) (-v) (-d) = reached u v d := by
  unfold reached
  push_cast
  rw [neg_sub_neg, mul_neg, ← neg_mul, neg_sub]

section

variable (apart : pt x 0 ≠ pt x 1)
include apart

theorem triangle_mirrored : triangle (mirrored x) finished kind 0 = triangle x finished kind 0 := by
  unfold triangle
  rw [directionOf_mirrored apart, length_mirrored]
  simp only [pt_mirrored, beyond_neg]
  simp only [neg_sub_neg, abs_sub_comm (pt x 2)]

theorem wedge_mirrored : wedge (mirrored x) finished kind = wedge x finished kind := by
  unfold wedge
  rw [directionOf_mirrored apart, length_mirrored, lengths_mirrored]
  simp only [pt_mirrored, beyond_neg]

theorem impulse_mirrored : impulse (mirrored x) finished = impulse x finished := by
  unfold impulse
  rw [directionOf_mirrored apart, length_mirrored, lengths_mirrored]
  simp only [pt_mirrored, beyond_neg]

omit apart in
theorem zigzag_mirrored (x : List ℚ) : zigzag (mirrored x) s = zigzag x s := by
  unfold zigzag ratioBA
  rw [length_mirrored, lengths_mirrored]

theorem flat_mirrored : flat (mirrored x) finished s = flat x finished s := by
  unfold flat ratioBA
  rw [directionOf_mirrored apart, length_mirrored, lengths_mirrored]
  simp only [pt_mirrored, beyond_neg, reached_neg]

end

/-- Whether three waves may be a flat takes no direction. -/
theorem flat_fst (x : List ℚ) :
    (flat x finished s).1 =
      (decide (x.length - 1 < 2) ||
        !(complete (x.length - 1) 2 finished && (ratioBA x).any fun b => decide (b < s.flatMinBa))) := by
  unfold flat
  dsimp only
  by_cases short : x.length - 1 < 2
  · rw [if_pos short, decide_eq_true short, Bool.true_or]
  · rw [if_neg short, decide_eq_false short, Bool.false_or]
    by_cases small : (complete (x.length - 1) 2 finished && (ratioBA x).any fun b => decide (b < s.flatMinBa)) = true
    · rw [if_pos small, small]
      rfl
    · rw [if_neg small, Bool.eq_false_of_not_eq_true small]
      split_ifs <;> rfl

theorem flat_fst_mirrored (x : List ℚ) : (flat (mirrored x) finished s).1 = (flat x finished s).1 := by
  have ratio : ratioBA (mirrored x) = ratioBA x := by
    unfold ratioBA
    rw [lengths_mirrored]
  rw [flat_fst, flat_fst, length_mirrored, ratio]

end Rules

section Reduction

variable {d : Int} {xs : List ℚ} {cnt : List Nat}

theorem smallerPair_mirrored (best : Option (ℚ × Nat)) (i : Nat) :
    smallerPair (-d) (mirrored xs) best i = smallerPair d xs best i := by
  have sign : (if i % 2 = 1 then -d else - -d) = -(if i % 2 = 1 then d else -d) := by
    split <;> rfl
  have turned : ∀ (u v : ℚ) (e : Int), (-u - -v) * ((-e : Int) : ℚ) = (u - v) * e := by
    intro u v e
    push_cast
    ring
  have size : ∀ u v : ℚ, |-u - -v| = |u - v| := by
    intro u v
    rw [neg_sub_neg, abs_sub_comm]
  unfold smallerPair
  dsimp only
  rw [sign]
  simp only [pt_mirrored, turned, size]

theorem smallestPair_mirrored : smallestPair (-d) (mirrored xs) = smallestPair d xs := by
  unfold smallestPair
  rw [length_mirrored]
  congr 1
  funext best i
  exact smallerPair_mirrored best i

/-- The stage of the mirrored move. -/
def mirroredStage (s : List ℚ × List Nat) : List ℚ × List Nat := (mirrored s.1, s.2)

theorem stagesFrom_mirrored (fuel : Nat) :
    stagesFrom (-d) fuel (mirrored xs) cnt = (stagesFrom d fuel xs cnt).map mirroredStage := by
  induction fuel generalizing xs cnt with
  | zero => rfl
  | succ fuel ih =>
    rw [stagesFrom, stagesFrom, smallestPair_mirrored, length_mirrored, List.map_cons]
    congr 1
    split
    · cases smallestPair d xs with
      | none => rfl
      | some held =>
        dsimp only
        rw [← ih]
        congr 1
        simp only [mirrored, List.map_append, List.map_take, List.map_drop]
    · rfl

theorem getLastD_mirrored (x : List ℚ) : (mirrored x).getLastD 0 = -x.getLastD 0 := by
  unfold mirrored
  rw [List.getLastD_eq_getLast?, List.getLastD_eq_getLast?, List.getLast?_map]
  cases x.getLast? with
  | none => exact neg_zero.symm
  | some u => rfl

/-- A move whose ends differ is reduced alike in the mirror. -/
theorem reduceCounted_mirrored {x : List ℚ} (apart : pt x 0 ≠ x.getLastD 0) :
    reduceCounted (mirrored x) = (reduceCounted x).map mirroredStage := by
  unfold reduceCounted
  rw [pt_mirrored, getLastD_mirrored, direction_neg apart, length_mirrored, stagesFrom_mirrored]

theorem stage_mirrored (n : Nat) (red : List (List ℚ × List Nat)) :
    stage n (red.map mirroredStage) = (stage n red).map mirroredStage := by
  unfold stage
  rw [List.find?_map]
  congr 2
  funext s
  simp [mirroredStage]

theorem segments_mirrored (prices : List ℚ) (counts : List Nat) :
    segments (mirrored prices) counts = (segments prices counts).map mirrored := by
  have from_ : ∀ k, segmentsFrom (mirrored prices) k counts = (segmentsFrom prices k counts).map mirrored := by
    induction counts with
    | nil => exact fun k => rfl
    | cons c counts ih =>
      intro k
      rw [segmentsFrom, segmentsFrom, List.map_cons, ih]
      simp only [mirrored, List.map_take, List.map_drop]
  exact from_ 0

theorem getD_map_mirrored (segs : List (List ℚ)) (k : Nat) :
    (segs.map mirrored).getD k [] = mirrored (segs.getD k []) := by
  rw [List.getD_eq_getElem?_getD, List.getD_eq_getElem?_getD, List.getElem?_map]
  cases segs[k]? <;> rfl

theorem pick_mirrored (segs : List (List ℚ)) (ks : List Nat) :
    pick (segs.map mirrored) ks = (pick segs ks).map mirrored := by
  unfold pick
  rw [List.map_map]
  exact List.map_congr_left fun k _ => getD_map_mirrored segs k

theorem joined_mirrored (segs : List (List ℚ)) (w : List Nat) :
    joined (segs.map mirrored) w = mirrored (joined segs w) := by
  cases w with
  | nil => rfl
  | cons k ks =>
    rw [joined, joined, getD_map_mirrored]
    simp only [getD_map_mirrored]
    simp only [mirrored, List.map_append, List.map_flatMap, List.map_tail]

end Reduction

/-! ## Readers -/

section Readers

variable {s : Ratios} {seg : List ℚ} {segs : List (List ℚ)} {p q : Reader Bool}

theorem andThen_mirrored : (andThen p q).mapQ Move.mirrored =
    andThen (p.mapQ Move.mirrored) (q.mapQ Move.mirrored) := by
  unfold andThen
  rw [Ask.mapQ_bind]
  simp only [Ask.mapQ_ite, Ask.mapQ_pure]

theorem provided_mirrored (cond : Bool) :
    (provided cond q).mapQ Move.mirrored = provided cond (q.mapQ Move.mirrored) := by
  cases cond <;> rfl

theorem reads_mirrored (families : List Family) :
    reads families (mirrored seg) s = (reads families seg s).mapQ Move.mirrored := rfl

theorem isMotive_mirrored : isMotive s (mirrored seg) = (isMotive s seg).mapQ Move.mirrored := by
  unfold isMotive
  rw [length_mirrored, Ask.mapQ_ite]
  rfl

theorem isCorrective_mirrored : isCorrective s (mirrored seg) = (isCorrective s seg).mapQ Move.mirrored := by
  unfold isCorrective
  rw [length_mirrored, Ask.mapQ_ite]
  rfl

theorem isComplete_mirrored : isComplete s (mirrored seg) = (isComplete s seg).mapQ Move.mirrored := by
  unfold isComplete
  rw [length_mirrored, provided_mirrored]
  rfl

/-- A check of several segments, each of which is alike in the mirror. -/
theorem allOf_mirrored {f : List ℚ → Reader Bool} (each : ∀ seg, f (mirrored seg) = (f seg).mapQ Move.mirrored)
    (segs : List (List ℚ)) : allOf ((segs.map mirrored).map f) = (allOf (segs.map f)).mapQ Move.mirrored := by
  induction segs with
  | nil => rfl
  | cons seg segs ih =>
    rw [List.map_cons, List.map_cons, List.map_cons, allOf, allOf, andThen_mirrored, ih, each]

theorem motiveThenCorrective_mirrored :
    motiveThenCorrective s (segs.map mirrored) = (motiveThenCorrective s segs).mapQ Move.mirrored := by
  unfold motiveThenCorrective
  rw [pick_mirrored, pick_mirrored, allOf_mirrored fun _ => isMotive_mirrored,
    allOf_mirrored fun _ => isCorrective_mirrored,
    andThen_mirrored]

variable {m : Move} {x : List ℚ} {c : List Nat}

theorem readFive_mirrored (apart : pt x 0 ≠ pt x 1) :
    readFive m.mirrored (mirrored x) c = (readFive m x c).mapQ Move.mirrored := by
  unfold readFive
  dsimp only [Move.mirrored]
  simp only [segments_mirrored, pick_mirrored, allOf_mirrored fun _ => isCorrective_mirrored,
    allOf_mirrored fun _ => isComplete_mirrored, motiveThenCorrective_mirrored,
    impulse_mirrored apart, wedge_mirrored apart,
    triangle_mirrored apart, ← provided_mirrored, ← andThen_mirrored]
  simp only [Ask.mapQ_bind, Ask.mapQ_ite, Ask.mapQ_pure, provided_mirrored]

theorem readThree_mirrored {x3 a c : List ℚ} :
    readThree m.mirrored (mirrored x3) (mirrored a) (mirrored c) = (readThree m x3 a c).mapQ Move.mirrored := by
  unfold readThree
  dsimp only [Move.mirrored]
  simp only [length_mirrored, reads_mirrored, isMotive_mirrored, isCorrective_mirrored,
    zigzag_mirrored, flat_fst_mirrored,
    ← provided_mirrored, ← andThen_mirrored, Ask.mapQ_bind, Ask.mapQ_ite, Ask.mapQ_pure]

theorem readLaterB_mirrored {a : List ℚ} {ia : Nat} (ibs : List Nat) :
    readLaterB m.mirrored (mirrored a) ia ibs = (readLaterB m a ia ibs).mapQ Move.mirrored := by
  induction ibs with
  | nil => rfl
  | cons ib ibs ih =>
    have points : ([pt m.mirrored.prices 0, pt m.mirrored.prices ia, pt m.mirrored.prices ib,
        pt m.mirrored.prices (m.mirrored.prices.length - 1)] : List ℚ) =
          mirrored [pt m.prices 0, pt m.prices ia, pt m.prices ib, pt m.prices (m.prices.length - 1)] := by
      dsimp only [Move.mirrored]
      simp only [pt_mirrored, length_mirrored]
      rfl
    have turned : (pt m.mirrored.prices ib - pt m.mirrored.prices 0) *
        (pt m.mirrored.prices (m.mirrored.prices.length - 1) - pt m.mirrored.prices 0) =
          (pt m.prices ib - pt m.prices 0) * (pt m.prices (m.prices.length - 1) - pt m.prices 0) := by
      dsimp only [Move.mirrored]
      rw [length_mirrored, pt_mirrored, pt_mirrored, pt_mirrored]
      ring
    have part : ∀ k n, (m.mirrored.prices.drop k).take n = mirrored ((m.prices.drop k).take n) := by
      intro k n
      simp only [Move.mirrored, mirrored, List.map_take, List.map_drop]
    have rest : m.mirrored.prices.drop ib = mirrored (m.prices.drop ib) := by
      simp only [Move.mirrored, mirrored, List.map_drop]
    rw [readLaterB, readLaterB]
    rw [turned, points, part, rest, length_mirrored, ih]
    simp only [Move.ratios_mirrored, isMotive_mirrored, isCorrective_mirrored, zigzag_mirrored, flat_fst_mirrored,
      ← provided_mirrored, ← andThen_mirrored, Ask.mapQ_bind, Ask.mapQ_ite, Ask.mapQ_pure]

theorem readThreeStage_mirrored (apart : pt m.prices 0 ≠ m.prices.getLastD 0) :
    readThreeStage m.mirrored = (readThreeStage m).mapQ Move.mirrored := by
  unfold readThreeStage
  simp only [Move.prices_mirrored, reduceCounted_mirrored apart, stage_mirrored, length_mirrored]
  cases stage 3 (reduceCounted m.prices) with
  | none => rfl
  | some st =>
    dsimp only [Option.map_some, mirroredStage]
    rw [segments_mirrored, getD_map_mirrored, getD_map_mirrored, Ask.mapQ_bind, readThree_mirrored]
    congr 1
    funext fam
    cases fam with
    | none => exact readLaterB_mirrored _
    | some fam => rfl

end Readers

/-! ## Moves without ties -/

/-- The loop over the wave that may be extended takes no direction of equal prices. -/
def noTieNine (m : Move) (x9 : List ℚ) (c9 : List Nat) : List Nat → Bool
  | [] => true
  | ext :: exts =>
    decide (pt x9 0 ≠ pt x9 (((extendedWaves ext).headD []).getLastD 0 + 1)) &&
      (decide ((readNine m x9 c9 [ext]).eval plainReader.answer ≠ none) || noTieNine m x9 c9 exts)

/-- No direction that the reading of a move goes by is taken of equal prices: not of its ends, of the first of its five
waves, or, where these are not read, of the first of the groups that are tried of its nine. -/
def noTie (m : Move) : Bool :=
  decide (pt m.prices 0 ≠ m.prices.getLastD 0) &&
    ((stage 5 (reduceCounted m.prices)).all fun s => decide (pt s.1 0 ≠ pt s.1 1)) &&
    (decide ((atStage m 5 (readFive m)).eval plainReader.answer ≠ none) ||
      (stage 9 (reduceCounted m.prices)).all fun s => noTieNine m s.1 s.2 [0, 2, 4])

/-- `untied`, for moves of some length at most. -/
def untiedBelow : Nat → Move → Bool
  | 0, _ => true
  | n + 1, m =>
    decide (m.prices.length - 1 ≤ 1) || (noTie m && ((readBody m).questions plainReader.answer).all (untiedBelow n))

/-- No direction is taken of equal prices, neither of the move nor of the parts that are read for it. -/
def untied (m : Move) : Bool := untiedBelow m.prices.length m

section Untied

variable {m : Move}

/-- A program on the mirrored move comes to what the one on the move does, if the moves it reads are read alike. -/
def Mirrors {α : Type} (p' p : Reader α) : Prop := Ask.Like Move.mirrored plainReader.answer p' p

theorem readNine_mirrored {x : List ℚ} {c : List Nat} {exts : List Nat}
    (five : ∀ ext ∈ exts, (extendedWaves ext).length = 5) (apart : noTieNine m x c exts = true) :
    Mirrors (readNine m.mirrored (mirrored x) c exts) (readNine m x c exts) := by
  induction exts with
  | nil => exact Ask.like_pure none
  | cons ext exts ih =>
    obtain ⟨own, later⟩ := Bool.and_eq_true_iff.mp apart
    have length : ¬ (extendedWaves ext).length ≠ 5 := not_not.mpr (five ext List.mem_cons_self)
    have ends : (pt (mirrored x) 0 :: (extendedWaves ext).map fun w => pt (mirrored x) (w.getLastD 0 + 1)) =
        mirrored (pt x 0 :: (extendedWaves ext).map fun w => pt x (w.getLastD 0 + 1)) := by
      simp only [pt_mirrored]
      rw [mirrored, List.map_cons, List.map_map]
      rfl
    have groups : (extendedWaves ext).map (joined (segments m.mirrored.prices c)) =
        ((extendedWaves ext).map (joined (segments m.prices c))).map mirrored := by
      dsimp only [Move.mirrored]
      rw [List.map_map, segments_mirrored]
      exact List.map_congr_left fun w _ => joined_mirrored _ w
    have first : pt (pt x 0 :: (extendedWaves ext).map fun w => pt x (w.getLastD 0 + 1)) 0 ≠
        pt (pt x 0 :: (extendedWaves ext).map fun w => pt x (w.getLastD 0 + 1)) 1 := by
      generalize extendedWaves ext = waves at own length
      cases waves with
      | nil => exact absurd (by decide) length
      | cons w waves => exact of_decide_eq_true own
    rw [readNine, readNine, if_neg length, if_neg length]
    dsimp only
    rw [ends, groups, impulse_mirrored first, Move.ratios_mirrored, motiveThenCorrective_mirrored, ← provided_mirrored]
    refine Ask.like_mapQ.bind ?_
    split
    · exact Ask.like_pure _
    · rename_i fits
      refine ih (fun k mem => five k (List.mem_cons_of_mem _ mem)) ?_
      -- the group is no impulse, so the next one is tried
      have none_ : (readNine m x c [ext]).eval plainReader.answer = none := by
        rw [readNine, if_neg length]
        dsimp only
        rw [Ask.eval_bind, if_neg fits]
        rfl
      simpa [none_] using later

theorem atStage_mirrored (apart : pt m.prices 0 ≠ m.prices.getLastD 0) {k : Nat}
    {read read' : List ℚ → List Nat → Reader (Option Family)}
    (same : ∀ st, stage k (reduceCounted m.prices) = some st → Mirrors (read' (mirrored st.1) st.2) (read st.1 st.2)) :
    Mirrors (atStage m.mirrored k read') (atStage m k read) := by
  unfold atStage
  simp only [Move.prices_mirrored, reduceCounted_mirrored apart, stage_mirrored, length_mirrored]
  cases found : stage k (reduceCounted m.prices) with
  | none => exact Ask.like_pure none
  | some st =>
    dsimp only [Option.map_some, mirroredStage]
    split
    · exact same st found
    · exact Ask.like_pure none

/-- Where no direction is taken of equal prices, the mirrored move is read alike if its parts are. -/
theorem readBody_mirrored (apart : noTie m = true) : Mirrors (readBody m.mirrored) (readBody m) := by
  unfold noTie at apart
  simp only [Bool.and_eq_true, decide_eq_true_eq] at apart
  obtain ⟨⟨ends, five⟩, nine⟩ := apart
  have orElse_same : ∀ {fam : Option Family} {next next' : Reader (Option Family)}, (fam = none → Mirrors next' next) →
      Mirrors (orElse_ fam next') (orElse_ fam next) := by
    rintro (_ | fam) next next' same
    · exact same rfl
    · exact Ask.like_pure _
  have family : Mirrors (readFamily m.mirrored) (readFamily m) := by
    refine Ask.Like.bind (atStage_mirrored ends fun st found => ?_) (Ask.Like.bind (orElse_same fun none_ => ?_) ?_)
    · rw [found] at five
      rw [readFive_mirrored (of_decide_eq_true five)]
      exact Ask.like_mapQ
    · refine atStage_mirrored ends fun st found => readNine_mirrored (by decide) ?_
      simpa [none_, found] using nine
    · refine orElse_same fun _ => ?_
      rw [readThreeStage_mirrored ends]
      exact Ask.like_mapQ
  unfold readBody
  rw [Move.prices_mirrored, length_mirrored]
  exact family.bind (Ask.like_pure _)

end Untied

/-- Where no direction is taken of equal prices, a move and its mirror image are read alike. -/
theorem answer_mirrored {m : Move} (apart : untied m = true) :
    plainReader.answer m.mirrored = plainReader.answer m := by
  have below : ∀ n m, m.prices.length < n + 1 → untiedBelow n m = true →
      plainReader.answer m.mirrored = plainReader.answer m := by
    intro n
    induction n with
    | zero =>
      intro m short _
      obtain ⟨prices, s⟩ := m
      have empty : prices = [] := List.length_eq_zero_iff.mp (Nat.lt_one_iff.mp short)
      rw [empty]
      rfl
    | succ n ih =>
      intro m short apart
      have same_base : plainReader.base m.mirrored = plainReader.base m := by
        show singleLeg m.mirrored = singleLeg m
        unfold singleLeg
        simp only [Move.prices_mirrored, length_mirrored]
      rw [plainReader.answer_eq m.mirrored, plainReader.answer_eq m, same_base]
      cases single : plainReader.base m with
      | some reading => rfl
      | none =>
        have legs : ¬ m.prices.length - 1 ≤ 1 := by
          intro short
          rw [show plainReader.base m = singleLeg m from rfl, singleLeg, if_pos short] at single
          cases single
        rw [untiedBelow, decide_eq_false legs, Bool.false_or, Bool.and_eq_true, List.all_eq_true] at apart
        rw [Option.getD_none, Option.getD_none]
        show (readBody m.mirrored).eval plainReader.answer = (readBody m).eval plainReader.answer
        refine readBody_mirrored apart.1 fun q asked => ?_
        have shorter := ((asks_readBody m).questions plainReader.answer q asked).shorter
        exact ih q (by omega) (apart.2 q asked)
  exact below _ m (Nat.lt_succ_self _) apart

end AdvanceTrading.DailyTrend

/-!
# The count without its memos

`count` keeps the families it has asked for (`inner_family`), and `read_counter`
keeps its own memo. Where the memo of the thread tells the prices of the waves
apart, the count is the pure function of its arguments that is stated here.
-/

namespace AdvanceTrading.Waves

open DailyTrend

/-! ## What a count is without memos -/

section Plain

variable (a : Args)

/-- The family of a wave's inner points, by the plain reading. -/
def family (i : Nat) : Family := (askFamily a i).eval plainReader.answer

/-- The readings from one origin. -/
def originPlain (j : Nat) : List Reading :=
  if noLength (ends a j) then []
  else
    ((structureTypes (ends a j) a.settings).map fun t =>
      readingOf a j t.1 t.2 (((List.range ((ends a j).length - 1 - 1)).map (j + ·)).map (family a))).reduceOption

def readingsPlain : List Reading := sortBy (rank a.context) ((origins a).map (originPlain a)).flatten

def countPlain : WaveCount := countOf a (readingsPlain a)

/-- The waves that a count reads: with points between their ends, from the origins whose waves have some structure. -/
def readWaves : List Nat :=
  ((origins a).flatMap fun j =>
    if noLength (ends a j) || (structureTypes (ends a j) a.settings).isEmpty then []
    else (List.range ((ends a j).length - 1 - 1)).map (j + ·)).filter fun i => 2 < (wavePoints a i).length

/-- The prices of the moves that a count reads. -/
def readPrices : List ℚ := (readWaves a).flatMap (wavePoints a)

end Plain

/-! ## The kept families -/

section Kept

variable {a : Args} {α β : Type}

/-- Every kept family is the wave's. -/
def Right (a : Args) (known : Dict Nat Family) : Prop := ∀ i f, Dict.get i known = some f → f = family a i

/-- A part of a count that returns a value, from any right families and leaving right ones. -/
def Yields (a : Args) (p : Counting α) (value : α) : Prop :=
  ∀ known, Right a known → ((p.run known).eval plainReader.answer).1 = value ∧
    Right a ((p.run known).eval plainReader.answer).2

theorem yields_pure (value : α) : Yields a (pure value) value := fun _ right => ⟨rfl, right⟩

variable {f : α → Counting β} {p : Counting α}

theorem yields_bind {x : α} {y : β} (first : Yields a p x) (later : Yields a (f x) y) :
    Yields a (p >>= f) y := by
  intro known right
  obtain ⟨value, kept⟩ := first known right
  have parts : ((p >>= f).run known).eval plainReader.answer =
      ((f ((p.run known).eval plainReader.answer).1).run ((p.run known).eval plainReader.answer).2).eval
        plainReader.answer := Ask.eval_bind _ _
  rw [parts, value]
  exact later _ kept

theorem yields_gatherAll {g : α → β} {xs : List α} (each : ∀ x ∈ xs, Yields a (f x) (g x)) :
    Yields a (gatherAll f xs) (xs.map g) := by
  induction xs with
  | nil => exact yields_pure []
  | cons x xs ih =>
    refine yields_bind (each x List.mem_cons_self) ?_
    refine yields_bind (ih fun y mem => each y (List.mem_cons_of_mem _ mem)) ?_
    exact yields_pure _

theorem yields_familyOf (a : Args) (i : Nat) : Yields a (familyOf a i) (family a i) := by
  intro known right
  unfold StateT.run familyOf
  cases kept : Dict.get i known with
  | some f => exact ⟨right i f kept, right⟩
  | none =>
    dsimp only
    rw [Ask.eval_bind, Ask.eval_pure]
    refine ⟨rfl, fun k f found => ?_⟩
    by_cases same : k = i
    · rw [same, Dict.get_set_self] at found
      rw [same]
      exact (Option.some.inj found).symm
    · rw [Dict.get_set_of_ne _ _ same] at found
      exact right k f found

theorem yields_originReadings (j : Nat) : Yields a (originReadings a j) (originPlain a j) := by
  unfold originReadings originPlain
  dsimp only
  split
  · exact yields_pure []
  · refine yields_bind (yields_gatherAll fun t _ => ?_) (yields_pure _)
    exact yields_bind (yields_gatherAll fun i _ => yields_familyOf a i) (yields_pure _)

theorem yields_readings : Yields a (readings a) (readingsPlain a) :=
  yields_bind (yields_gatherAll fun j _ => yields_originReadings j) (yields_pure _)

theorem eval_countBody (a : Args) : (countBody a).eval plainReader.answer = countPlain a := by
  have ranked := (yields_readings (a := a) [] fun _ _ found => nomatch found).1
  unfold countBody countPlain
  rw [Ask.eval_bind, Ask.eval_pure, ranked]

/-- What the parts of a count put to `read_counter`. -/
def AsksOnly (P : Move → Prop) (p : Counting α) : Prop := ∀ known, (p.run known).Asks P

variable {P : Move → Prop}

theorem asksOnly_pure (value : α) : AsksOnly P (pure value : Counting α) := fun _ => trivial

theorem asksOnly_bind (first : AsksOnly P p) (later : ∀ x, AsksOnly P (f x)) :
    AsksOnly P (p >>= f) := fun known => Ask.asks_bind (first known) fun r => later r.1 r.2

theorem asksOnly_gatherAll {xs : List α} (each : ∀ x ∈ xs, AsksOnly P (f x)) :
    AsksOnly P (gatherAll f xs) := by
  induction xs with
  | nil => exact asksOnly_pure []
  | cons x xs ih =>
    refine asksOnly_bind (each x List.mem_cons_self) fun y => ?_
    exact asksOnly_bind (ih fun y mem => each y (List.mem_cons_of_mem _ mem)) fun ys => asksOnly_pure _

theorem asksOnly_familyOf {i : Nat} (holds : 2 < (wavePoints a i).length → P ⟨wavePoints a i, a.settings⟩) :
    AsksOnly P (familyOf a i) := by
  have asks : (askFamily a i).Asks P := by
    unfold askFamily
    dsimp only
    split
    · rename_i long
      exact Ask.asks_bind (Ask.asks_query (holds long)) fun _ => trivial
    · trivial
  intro known
  unfold StateT.run familyOf
  cases Dict.get i known with
  | some f => trivial
  | none => exact Ask.asks_bind asks fun _ => trivial

theorem length_ends (a : Args) (j : Nat) : (ends a j).length = a.swings.length + 1 - j := by
  unfold ends Args.pts
  rw [List.length_map, List.length_drop, List.length_append, List.length_singleton]

theorem pt_ends (a : Args) (j k : Nat) : pt (ends a j) k = pt (ends a 0) (j + k) := by
  unfold ends pt
  rw [List.getD_eq_getElem?_getD, List.getD_eq_getElem?_getD, List.getElem?_map, List.getElem?_map, List.getElem?_drop,
    List.drop_zero]

/-- Neighbouring ends of the waves from an origin differ, if none of them has no length. -/
theorem pt_ne_of_noLength {x : List ℚ} (lengths : noLength x = false) {k : Nat}
    (inside : k + 1 < x.length) : pt x k ≠ pt x (k + 1) := by
  induction x generalizing k with
  | nil => exact absurd inside (Nat.not_lt_zero _)
  | cons u x ih =>
    cases x with
    | nil => exact absurd inside (by simp)
    | cons v x =>
      have both : decide (u = v) = false ∧ noLength (v :: x) = false := Bool.or_eq_false_iff.mp lengths
      cases k with
      | zero => exact of_decide_eq_false both.1
      | succ k => exact ih both.2 (by simpa using inside)

/-- The ends of a finished wave of an origin differ. -/
theorem finished_apart {j k : Nat} (lengths : noLength (ends a j) = false)
    (less : k < (ends a j).length - 1 - 1) : pt (ends a 0) (j + k) ≠ pt (ends a 0) (j + k + 1) := by
  have apart := pt_ne_of_noLength lengths (k := k) (by omega)
  rwa [pt_ends a j k, pt_ends a j (k + 1), ← Nat.add_assoc] at apart

/-- The waves of an origin but the last are read, where some structure asks for them. -/
theorem mem_readWaves {j k : Nat} (among : j ∈ origins a) (lengths : noLength (ends a j) = false)
    (structured : structureTypes (ends a j) a.settings ≠ []) (less : k < (ends a j).length - 1 - 1)
    (long : 2 < (wavePoints a (j + k)).length) : j + k ∈ readWaves a := by
  refine List.mem_filter.mpr ⟨List.mem_flatMap.mpr ⟨j, among, ?_⟩, decide_eq_true long⟩
  rw [lengths, List.isEmpty_eq_false_iff.mpr structured]
  exact List.mem_map_of_mem (List.mem_range.mpr less)

/-- A count asks for the waves it reads only. -/
theorem asks_countBody (each : ∀ i ∈ readWaves a, P ⟨wavePoints a i, a.settings⟩) : (countBody a).Asks P := by
  have origin : ∀ j ∈ origins a, AsksOnly P (originReadings a j) := by
    intro j among
    unfold originReadings
    dsimp only
    split
    · exact asksOnly_pure []
    · rename_i lengths
      refine asksOnly_bind (asksOnly_gatherAll fun t isType => ?_) fun _ => asksOnly_pure _
      refine asksOnly_bind (asksOnly_gatherAll fun i mem => asksOnly_familyOf fun long => each i ?_)
        fun _ => asksOnly_pure _
      obtain ⟨k, less, rfl⟩ := List.mem_map.mp mem
      exact mem_readWaves among (Bool.eq_false_of_not_eq_true lengths) (List.ne_nil_of_mem isType)
        (List.mem_range.mp less) long
  have all : AsksOnly P (readings a) := asksOnly_bind (asksOnly_gatherAll origin) fun _ => asksOnly_pure _
  exact Ask.asks_bind (all []) fun _ => trivial

end Kept

/-! ## Counts of like readings -/

/-- The count with every reading changed. -/
def WaveCount.map (g : Reading → Reading) (context : Int) (c : WaveCount) : WaveCount :=
  { c with main := c.main.map g, alternate := c.alternate.map g, context := context, readings := c.readings.map g }

/-- A change of readings that a count does not notice. -/
structure Alike (context context' : Int) (g : Reading → Reading) : Prop where
  label r : (g r).label = r.label
  type r : (g r).type = r.type
  clear r : (g r).clear = r.clear
  altOnly r : (g r).altOnly = r.altOnly
  length_points r : (g r).points.length = r.points.length
  origin r r' : (g r).origin = (g r').origin ↔ r.origin = r'.origin
  trend r r' : (g r).trend = (g r').trend ↔ r.trend = r'.trend
  against r : against context' (g r) = against context r

section Alike

variable {a a' : Args} {context context' : Int} {g : Reading → Reading}

theorem Alike.alternateOf (alike : Alike context context' g) (main : Reading) (others : List Reading) :
    alternateOf (g main) (others.map g) = (Waves.alternateOf main others).map g := by
  have found : ∀ (rs : List Reading) (p p' : Reading → Bool), (∀ r, p' (g r) = p r) →
      (rs.map g).find? p' = (rs.find? p).map g := by
    intro rs p p' same
    rw [List.find?_map]
    congr 2
    exact funext same
  have same : ((others.map g).filter fun r => r.origin = (g main).origin) =
      (others.filter fun r => r.origin = main.origin).map g := by
    rw [List.filter_map]
    congr 1
    apply List.filter_congr
    intro r _
    exact decide_eq_decide.mpr (alike.origin r main)
  have choice : ∀ p q r : Option Reading, (p.map g <|> q.map g <|> r.map g) = (p <|> q <|> r).map g := by
    rintro (_ | _) (_ | _) r <;> rfl
  unfold Waves.alternateOf
  dsimp only
  rw [same, found _ (fun r => r.label ≠ main.label) _ fun r => by rw [alike.label, alike.label],
    found _ (fun r => r.label ≠ main.label ∧ 2 < r.points.length) _ fun r => by
      rw [alike.label, alike.label, alike.length_points],
    found _ (fun r => r.type ≠ main.type) _ fun r => by rw [alike.type, alike.type]]
  exact choice _ _ _

theorem Alike.clarityOf (alike : Alike context context' g) (main : Reading) (alternate : Option Reading) :
    clarityOf (g main) (alternate.map g) = Waves.clarityOf main alternate := by
  unfold Waves.clarityOf
  rw [alike.clear]
  cases alternate with
  | none => rfl
  | some alternate =>
    dsimp only [Option.map_some]
    simp only [alike.trend]

/-- The count of readings that are changed so is the changed count. -/
theorem Alike.countOf (alike : Alike a.context a'.context g) (bar : a'.runningEnd.confirmBar = a.runningEnd.confirmBar)
    (ranked : List Reading) : countOf a' (ranked.map g) = (Waves.countOf a ranked).map g a'.context := by
  have candidates : ((ranked.map g).filter fun r => !r.altOnly) = (ranked.filter fun r => !r.altOnly).map g := by
    rw [List.filter_map]
    congr 1
    apply List.filter_congr
    intro r _
    rw [Function.comp_apply, alike.altOnly]
  have others : ((ranked.map g).eraseP fun r => !r.altOnly) = (ranked.eraseP fun r => !r.altOnly).map g := by
    rw [List.eraseP_map]
    congr 2
    funext r
    rw [Function.comp_apply, alike.altOnly]
  unfold Waves.countOf
  dsimp only
  rw [candidates, others, bar]
  cases ranked.filter fun r => !r.altOnly with
  | nil =>
    dsimp only [List.map_nil]
    rw [List.head?_map]
    rfl
  | cons main rest =>
    have ties : (rest.map g).any (fun r => tier a'.context r = tier a'.context (g main) ∧ r.trend ≠ (g main).trend) =
        rest.any fun r => tier a.context r = tier a.context main ∧ r.trend ≠ main.trend := by
      rw [List.any_map]
      congr 1
      funext r
      have tiers : tier a'.context (g r) = tier a'.context (g main) ↔ tier a.context r = tier a.context main := by
        unfold tier
        rw [alike.against, alike.against, Prod.mk.injEq, Prod.mk.injEq, alike.origin]
      simp only [Function.comp_apply, tiers, ne_eq, alike.trend]
    rw [List.map_cons]
    dsimp only
    rw [ties, alike.alternateOf, alike.clarityOf, alike.label, alike.type]
    split <;> rfl

end Alike

theorem context_countPlain (a : Args) : (countPlain a).context = a.context := by
  unfold countPlain countOf
  dsimp only
  split
  · rfl
  · split <;> rfl

/-- Items are sorted alike after a function that keeps their order. -/
theorem sortBy_map {α β κ : Type*} [LinearOrder κ] (key : β → κ) (key' : α → κ) (f : α → β)
    (same : ∀ x y, key (f x) ≤ key (f y) ↔ key' x ≤ key' y) (xs : List α) :
    sortBy key (xs.map f) = (sortBy key' xs).map f :=
  (List.map_insertionSort (fun x y => key' x ≤ key' y) (fun x y => key x ≤ key y) f xs
    fun x _ y _ => (same x y).symm).symm

theorem reduceOption_map_map {α : Type} (g : Reading → Reading) (read : α → Option Reading) (ts : List α) :
    (ts.map fun t => (read t).map g).reduceOption = (ts.map read).reduceOption.map g := by
  rw [← List.reduceOption_map, List.map_map]
  rfl

/-! ## Behind the memo of the thread -/

/-- The memo tells the prices of the waves apart, from each other and from those of the moves read before. -/
structure Filed (calls : List Call) (a : Args) : Prop where
  own : ToldApart (readPrices a) (readPrices a)
  earlier : ∀ d ∈ calls, d.move.ratios = a.settings → ToldApart d.1 (readPrices a)

theorem count_eq {calls : List Call} {a : Args} (filed : Filed calls a) : count a calls = countPlain a := by
  have among : ∀ i ∈ readWaves a, ∀ u ∈ wavePoints a i, u ∈ readPrices a :=
    fun i mem u inside => List.mem_flatMap.mpr ⟨i, mem, inside⟩
  rw [← eval_countBody]
  refine Memo.perform_eq_eval (separates_of (fun _ _ told => told) (readPrices a) a.settings)
    (moves_of_calls (P := fun us => ToldApart us (readPrices a)) filed.earlier) ?_ ?_
  · exact asks_countBody fun i mem _ u inside => filed.own u (among i mem u inside)
  · exact asks_countBody fun i mem => ⟨rfl, among i mem⟩

end AdvanceTrading.Waves
