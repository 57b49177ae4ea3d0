import AdvanceTrading.Misc.MemoTable
import AdvanceTrading.Misc.Rounding
import AdvanceTrading.PriceAction.WaveRules

/-!
# Reading a move by the Elliott rules

Model of `read_counter` and its memo (`app/price_action/daily_trend/legs.py:169-262`).
A move is filed under its prices rounded to six decimals, so moves that differ
by less are one move to the memo. Prices are exact.
-/

namespace AdvanceTrading.DailyTrend

/-- What a move is read as. -/
inductive Family where
  | single
  | impulse
  | diagonal
  | triangle
  | combination
  | zigzag
  | flat
  | threeWave
  deriving DecidableEq, Repr

/-- `MOTIVE`. -/
def motive : List Family := [Family.impulse, Family.diagonal]

/-- `CORRECTIVE`. -/
def corrective : List Family := [Family.zigzag, Family.flat, Family.triangle, Family.combination, Family.threeWave]

/-- `COMPLETE`. -/
def completeForms : List Family := [Family.zigzag, Family.flat, Family.triangle, Family.combination]

/-- What `read_counter` returns. -/
structure Reading where
  family : Family
  n : Nat
  deriving DecidableEq, Repr

/-- A move with the ratios it is read by. -/
structure Move where
  prices : List ℚ
  ratios : Ratios
  deriving DecidableEq

/-- A part of a reading, which may read other moves. -/
abbrev Reader := Ask Move Reading

/-! ## The reading -/

/-- `p() and q()`. -/
def andThen (p q : Reader Bool) : Reader Bool := do
  if ← p then q else pure false

/-- `all(…)`. -/
def allOf : List (Reader Bool) → Reader Bool
  | [] => pure true
  | p :: ps => andThen p (allOf ps)

/-- `cond and q()`. -/
def provided (cond : Bool) (q : Reader Bool) : Reader Bool := if cond then q else pure false

/-- `read_counter(seg, s)["family"] in families`. -/
def reads (families : List Family) (seg : List ℚ) (s : Ratios) : Reader Bool := do
  let r ← Ask.query ⟨seg, s⟩
  pure (decide (r.family ∈ families))

/-- `_is_motive`. -/
def isMotive (s : Ratios) (seg : List ℚ) : Reader Bool := if seg.length = 2 then pure true else reads motive seg s

/-- `_is_corrective`. -/
def isCorrective (s : Ratios) (seg : List ℚ) : Reader Bool :=
  if seg.length = 2 then pure true else reads corrective seg s

/-- `len(seg) > 2 and read_counter(seg, s)["family"] in COMPLETE`. -/
def isComplete (s : Ratios) (seg : List ℚ) : Reader Bool := provided (2 < seg.length) (reads completeForms seg s)

/-- The segments at some places. -/
def pick (segs : List (List ℚ)) (ks : List Nat) : List (List ℚ) := ks.map fun k => segs.getD k []

/-- Waves 1, 3 and 5 of five are motive, and 2 and 4 corrective. -/
def motiveThenCorrective (s : Ratios) (segs : List (List ℚ)) : Reader Bool :=
  andThen (allOf ((pick segs [0, 2, 4]).map (isMotive s))) (allOf ((pick segs [1, 3]).map (isCorrective s)))

/-- The reading of five waves. -/
def readFive (m : Move) (x5 : List ℚ) (c5 : List Nat) : Reader (Option Family) := do
  let segs := segments m.prices c5
  let corrAll ← allOf (segs.map (isCorrective m.ratios))
  if ← provided (impulse x5 true) (motiveThenCorrective m.ratios segs) then return some .impulse
  let subdivided ← if corrAll then pure true else motiveThenCorrective m.ratios segs
  if subdivided && (wedge x5 true .contracting || wedge x5 true .expanding) then return some .diagonal
  if corrAll && ((triangle x5 true .contracting 0).1 || (triangle x5 true .expanding 0).1) && !impulse x5 true then
    return some .triangle
  if ← andThen (allOf ((pick segs [0, 2, 4]).map (isComplete m.ratios)))
      (allOf ((pick segs [1, 3]).map (isCorrective m.ratios))) then return some .combination
  return none

/-- The groups of nine waves that make five, the one at `ext` being extended. -/
def extendedWaves (ext : Nat) : List (List Nat) :=
  let grp := (List.range 9).map fun k => [k]
  grp.take ext ++ [List.range' ext 5] ++ grp.drop (ext + 5)

/-- A group's segment: those of its waves one after the other, without the shared ends. -/
def joined (segs : List (List ℚ)) : List Nat → List ℚ
  | [] => []
  | k :: ks => segs.getD k [] ++ ks.flatMap fun k => (segs.getD k []).tail

/-- The loop over the wave that may be extended. -/
def readNine (m : Move) (x9 : List ℚ) (c9 : List Nat) : List Nat → Reader (Option Family)
  | [] => pure none
  | ext :: exts => do
    let waves := extendedWaves ext
    if waves.length ≠ 5 then readNine m x9 c9 exts
    else
      let x5e := pt x9 0 :: waves.map fun w => pt x9 (w.getLastD 0 + 1)
      let segs := waves.map (joined (segments m.prices c9))
      if ← provided (impulse x5e true) (motiveThenCorrective m.ratios segs) then return some .impulse
      readNine m x9 c9 exts

/-- The reading of three waves, B ending at the most extreme point. -/
def readThree (m : Move) (x3 a c : List ℚ) : Reader (Option Family) := do
  let s := m.ratios
  if ← provided (2 < a.length && 2 < c.length) (andThen (reads completeForms a s) (reads completeForms c s)) then
    return some .combination
  if ← provided (zigzag x3 s) (andThen (isMotive s a) (isMotive s c)) then return some .zigzag
  if ← provided (flat x3 true s).1 (andThen (isCorrective s a) (isMotive s c)) then return some .flat
  return none

/-- The loop over the later points that may end B. -/
def readLaterB (m : Move) (a : List ℚ) (ia : Nat) : List Nat → Reader (Option Family)
  | [] => pure none
  | ib :: ibs => do
    let s := m.ratios
    let n := m.prices.length - 1
    let first := pt m.prices 0
    let last := pt m.prices n
    let xb := [first, pt m.prices ia, pt m.prices ib, last]
    let b := (m.prices.drop ia).take (ib + 1 - ia)
    let c := m.prices.drop ib
    if (pt m.prices ib - first) * (last - first) < 0 ∨ c.length < 2 then readLaterB m a ia ibs
    else
      if ← andThen (isCorrective s b) (isMotive s c) then
        if ← provided (zigzag xb s) (isMotive s a) then return some .zigzag
        if ← provided (flat xb true s).1 (isCorrective s a) then return some .flat
        readLaterB m a ia ibs
      else readLaterB m a ia ibs

/-- `fam or …`: what is tried while there is no family yet. -/
def orElse_ (fam : Option Family) (next : Reader (Option Family)) : Reader (Option Family) :=
  match fam with
  | some f => pure (some f)
  | none => next

/-- `red.get(k)`, when the move has `k` legs at least (`:203-204`, `:218-219`). -/
def atStage (m : Move) (k : Nat) (read : List ℚ → List Nat → Reader (Option Family)) : Reader (Option Family) :=
  match stage k (reduceCounted m.prices) with
  | some (x, c) => if k ≤ m.prices.length - 1 then read x c else pure none
  | none => pure none

/-- The reading of three waves (`:234-259`). -/
def readThreeStage (m : Move) : Reader (Option Family) :=
  match stage 3 (reduceCounted m.prices) with
  | some (x3, c3) => do
    let segs := segments m.prices c3
    let a := segs.getD 0 []
    let c := segs.getD 2 []
    let ia := c3.getD 0 0
    let fam ← readThree m x3 a c
    orElse_ fam (readLaterB m a ia (List.range' (ia + 1) ((m.prices.length - 1 - ia) / 2) 2))
  | none => pure none

/-- The readings of a reduction, in their order (`:203-259`). -/
def readFamily (m : Move) : Reader (Option Family) := do
  let fam ← atStage m 5 (readFive m)
  let fam ← orElse_ fam (atStage m 9 fun x9 c9 => readNine m x9 c9 [0, 2, 4])
  orElse_ fam (readThreeStage m)

/-- `read_counter` after its base case and its memo. -/
def readBody (m : Move) : Reader Reading := do
  let fam ← readFamily m
  return ⟨fam.getD .threeWave, m.prices.length - 1⟩

/-! ## What a reading reads -/

section Parts

variable {m : Move} {s : Ratios} {seg : List ℚ} {segs : List (List ℚ)}

/-- A shorter move of the same prices, read by the same ratios. -/
structure PartOf (m r : Move) : Prop where
  ratios_eq : r.ratios = m.ratios
  shorter : r.prices.length < m.prices.length
  within : ∀ u ∈ r.prices, u ∈ m.prices

/-- A segment that may be read for the move. -/
def Segment (m : Move) (seg : List ℚ) : Prop := seg.length < m.prices.length ∧ ∀ u ∈ seg, u ∈ m.prices

theorem Segment.part (segment : Segment m seg) : PartOf m ⟨seg, m.ratios⟩ := ⟨rfl, segment.1, segment.2⟩

variable {P : Move → Prop}

theorem asks_andThen {p q : Reader Bool} (first : p.Asks P) (second : q.Asks P) : (andThen p q).Asks P := by
  refine Ask.asks_bind first fun value => ?_
  cases value with
  | true => exact second
  | false => exact Ask.asks_pure P false

theorem asks_ite {α : Type} {cond : Prop} [Decidable cond] {p q : Reader α} (yes : p.Asks P)
    (no : q.Asks P) : (if cond then p else q).Asks P := by
  split
  · exact yes
  · exact no

theorem asks_provided {cond : Bool} {q : Reader Bool} (asks : q.Asks P) : (provided cond q).Asks P := by
  cases cond with
  | true => exact asks
  | false => exact Ask.asks_pure P false

theorem asks_allOf {ps : List (Reader Bool)} (each : ∀ p ∈ ps, p.Asks P) : (allOf ps).Asks P := by
  induction ps with
  | nil => exact Ask.asks_pure P true
  | cons p ps ih =>
    exact asks_andThen (each p List.mem_cons_self) (ih fun q mem => each q (List.mem_cons_of_mem _ mem))

theorem asks_orElse {fam : Option Family} {next : Reader (Option Family)} (asks : next.Asks P) :
    (orElse_ fam next).Asks P := by
  cases fam with
  | some f => exact Ask.asks_pure P (some f)
  | none => exact asks

section

variable (segment : Segment m seg)
include segment

theorem asks_reads {families : List Family} : (reads families seg m.ratios).Asks (PartOf m) :=
  Ask.asks_bind (Ask.asks_query segment.part) fun _ => Ask.asks_pure _ _

theorem asks_isMotive : (isMotive m.ratios seg).Asks (PartOf m) := by
  unfold isMotive
  split
  · exact Ask.asks_pure _ _
  · exact asks_reads segment

theorem asks_isCorrective : (isCorrective m.ratios seg).Asks (PartOf m) := by
  unfold isCorrective
  split
  · exact Ask.asks_pure _ _
  · exact asks_reads segment

theorem asks_isComplete : (isComplete m.ratios seg).Asks (PartOf m) :=
  asks_provided (asks_reads segment)

end

/-- Places past the last segment are empty. -/
theorem segment_pick (parts : ∀ seg ∈ segs, Segment m seg) (some_ : segs ≠ []) {ks : List Nat} :
    ∀ seg ∈ pick segs ks, Segment m seg := by
  intro seg mem
  obtain ⟨k, _, rfl⟩ := List.mem_map.mp mem
  by_cases inside : k < segs.length
  · rw [List.getD_eq_getElem _ _ inside]
    exact parts _ (List.getElem_mem _)
  · rw [List.getD_eq_default _ _ (by omega)]
    obtain ⟨first, among⟩ := List.exists_mem_of_ne_nil segs some_
    refine ⟨?_, by simp⟩
    have := (parts first among).1
    simp only [List.length_nil]
    omega

theorem asks_all (f : List ℚ → Reader Bool) (each : ∀ seg, Segment m seg → (f seg).Asks (PartOf m))
    (parts : ∀ seg ∈ segs, Segment m seg) : (allOf (segs.map f)).Asks (PartOf m) := by
  refine asks_allOf fun p mem => ?_
  obtain ⟨seg, listed, rfl⟩ := List.mem_map.mp mem
  exact each seg (parts seg listed)

theorem asks_motiveThenCorrective (parts : ∀ seg ∈ segs, Segment m seg) (some_ : segs ≠ []) :
    (motiveThenCorrective m.ratios segs).Asks (PartOf m) :=
  asks_andThen (asks_all _ (fun _ => asks_isMotive) (segment_pick parts some_))
    (asks_all _ (fun _ => asks_isCorrective) (segment_pick parts some_))

/-- A segment is no longer than its count of legs and holds prices of the move. -/
theorem segmentsFrom_spec {prices : List ℚ} {k : Nat} {counts : List Nat} :
    List.Forall₂ (fun seg c => seg.length ≤ c + 1 ∧ ∀ u ∈ seg, u ∈ prices) (segmentsFrom prices k counts) counts := by
  induction counts generalizing k with
  | nil => exact .nil
  | cons c counts ih =>
    refine .cons ⟨List.length_take_le _ _, fun u mem => ?_⟩ ih
    exact List.mem_of_mem_drop (List.mem_of_mem_take mem)

/-- One count of several is less than their sum. -/
theorem lt_sum_of_mem {counts : List Nat} {c : Nat} (positive : ∀ c ∈ counts, 1 ≤ c)
    (several : 2 ≤ counts.length) (mem : c ∈ counts) : c < counts.sum := by
  obtain ⟨front, back, rfl⟩ := List.append_of_mem mem
  have others : (front ++ back).length ≤ (front ++ back).sum := by
    apply List.length_le_sum_of_one_le
    intro d among
    apply positive
    simp only [List.mem_append, List.mem_cons] at among ⊢
    tauto
  simp only [List.length_append, List.length_cons, List.sum_append, List.sum_cons] at *
  omega

variable {c : List Nat} {x : List ℚ}

/-- The segments of a stage with several waves are segments of the move. -/
theorem segment_of_stage {n : Nat} (found : stage n (reduceCounted m.prices) = some (x, c))
    (several : 2 ≤ n) : ∀ seg ∈ segments m.prices c, Segment m seg := by
  obtain ⟨waves, positive, total⟩ := counted_stage found
  simp only at waves positive total
  intro seg mem
  have spec := @segmentsFrom_spec m.prices 0 c
  obtain ⟨count, listed, bound, within⟩ : ∃ count ∈ c, seg.length ≤ count + 1 ∧ ∀ u ∈ seg, u ∈ m.prices := by
    unfold segments at mem
    generalize segmentsFrom m.prices 0 c = all at spec mem
    clear waves positive total found
    induction spec with
    | nil => cases mem
    | @cons seg' count segs counts here rest ih =>
      rcases List.mem_cons.mp mem with rfl | mem
      · exact ⟨count, List.mem_cons_self, here⟩
      · obtain ⟨d, listed, both⟩ := ih mem
        exact ⟨d, List.mem_cons_of_mem _ listed, both⟩
  have less := lt_sum_of_mem positive (by omega) listed
  exact ⟨by omega, within⟩

theorem segments_ne_nil {prices : List ℚ} (some_ : c ≠ []) : segments prices c ≠ [] := by
  cases c with
  | nil => exact absurd rfl some_
  | cons c counts => simp [segments, segmentsFrom]

/-- The segment at a place, by the count there. -/
theorem segments_getD (prices : List ℚ) (c : List Nat) (k : Nat) :
    ((segments prices c).getD k []).length ≤ c.getD k 0 + 1 ∧ ∀ u ∈ (segments prices c).getD k [], u ∈ prices := by
  have spec := @segmentsFrom_spec prices 0 c
  unfold segments
  generalize segmentsFrom prices 0 c = all at spec
  induction spec generalizing k with
  | nil => simp
  | cons here rest ih =>
    cases k with
    | zero => exact here
    | succ k => exact ih k

/-- A group of waves holds the legs of its waves. -/
theorem joined_spec (prices : List ℚ) (c : List Nat) (w : List Nat) :
    (joined (segments prices c) w).length ≤ (w.map fun k => c.getD k 0).sum + 1 ∧
      ∀ u ∈ joined (segments prices c) w, u ∈ prices := by
  have tails : ∀ ks : List Nat, (ks.flatMap fun k => ((segments prices c).getD k []).tail).length
      ≤ (ks.map fun k => c.getD k 0).sum := by
    intro ks
    induction ks with
    | nil => simp
    | cons k ks ih =>
      have own := (segments_getD prices c k).1
      simp only [List.flatMap_cons, List.length_append, List.length_tail, List.map_cons, List.sum_cons]
      omega
  cases w with
  | nil => simp [joined]
  | cons k ks =>
    have own := segments_getD prices c k
    have others := tails ks
    constructor
    · simp only [joined, List.length_append, List.map_cons, List.sum_cons]
      omega
    · intro u mem
      rw [joined, List.mem_append, List.mem_flatMap] at mem
      rcases mem with mem | ⟨j, _, mem⟩
      · exact own.2 u mem
      · exact (segments_getD prices c j).2 u (List.mem_of_mem_tail mem)

/-- Five of nine waves leave four legs out at least, one of nine eight. -/
theorem sum_extended_lt (nine : c.length = 9) (positive : ∀ d ∈ c, 1 ≤ d) {ext : Nat}
    (one : ext ∈ [0, 2, 4]) {w : List Nat} (mem : w ∈ extendedWaves ext) :
    (w.map fun k => c.getD k 0).sum < c.sum := by
  match c, nine with
  | [c0, c1, c2, c3, c4, c5, c6, c7, c8], _ =>
    simp only [List.mem_cons, List.not_mem_nil, or_false, forall_eq_or_imp, forall_eq] at positive
    have waves : w ∈ [[0, 1, 2, 3, 4], [2, 3, 4, 5, 6], [4, 5, 6, 7, 8], [0], [1], [2], [3], [5], [6], [7], [8]] := by
      simp only [List.mem_cons, List.not_mem_nil, or_false] at one
      rcases one with rfl | rfl | rfl <;> revert w <;> decide
    simp only [List.mem_cons, List.not_mem_nil, or_false] at waves
    rcases waves with rfl | rfl | rfl | rfl | rfl | rfl | rfl | rfl | rfl | rfl | rfl <;> simp <;> omega

theorem asks_readFive (found : stage 5 (reduceCounted m.prices) = some (x, c)) :
    (readFive m x c).Asks (PartOf m) := by
  have parts := segment_of_stage found (by omega)
  have some_ : segments m.prices c ≠ [] := by
    have waves := (counted_stage found).1
    apply segments_ne_nil
    rintro rfl
    simp at waves
  have corrections := asks_all _ (fun _ => asks_isCorrective) (@segment_pick m _ parts some_ [1, 3])
  have completes := asks_all _ (fun _ => asks_isComplete) (@segment_pick m _ parts some_ [0, 2, 4])
  have both := asks_motiveThenCorrective parts some_
  have rest : ∀ corrAll subdivided : Bool, (if subdivided && (wedge x true .contracting || wedge x true .expanding) then
      pure (some Family.diagonal)
    else if corrAll && ((triangle x true .contracting 0).1 || (triangle x true .expanding 0).1) && !impulse x true then
      pure (some Family.triangle)
    else do
      if ← andThen (allOf ((pick (segments m.prices c) [0, 2, 4]).map (isComplete m.ratios)))
          (allOf ((pick (segments m.prices c) [1, 3]).map (isCorrective m.ratios))) then
        pure (some Family.combination)
      else pure none : Reader (Option Family)).Asks (PartOf m) := by
    intro corrAll subdivided
    refine asks_ite (Ask.asks_pure _ _) (asks_ite (Ask.asks_pure _ _) ?_)
    exact Ask.asks_bind (asks_andThen completes corrections) fun _ => asks_ite (Ask.asks_pure _ _) (Ask.asks_pure _ _)
  refine Ask.asks_bind (asks_all _ (fun _ => asks_isCorrective) parts) fun corrAll => ?_
  refine Ask.asks_bind (asks_provided both) fun isImpulse => asks_ite (Ask.asks_pure _ _) ?_
  exact asks_ite (rest corrAll true) (Ask.asks_bind both fun subdivided => rest corrAll subdivided)

theorem asks_readNine (found : stage 9 (reduceCounted m.prices) = some (x, c)) {exts : List Nat}
    (known : ∀ ext ∈ exts, ext ∈ [0, 2, 4]) : (readNine m x c exts).Asks (PartOf m) := by
  obtain ⟨waves, positive, total⟩ := counted_stage found
  simp only at waves positive total
  induction exts with
  | nil => exact Ask.asks_pure _ _
  | cons ext exts ih =>
    have later := ih fun e mem => known e (List.mem_cons_of_mem _ mem)
    have parts : ∀ seg ∈ (extendedWaves ext).map (joined (segments m.prices c)), Segment m seg := by
      intro seg mem
      obtain ⟨w, among, rfl⟩ := List.mem_map.mp mem
      have less := sum_extended_lt waves positive (known ext List.mem_cons_self) among
      obtain ⟨bound, within⟩ := joined_spec m.prices c w
      exact ⟨by omega, within⟩
    have some_ : (extendedWaves ext).map (joined (segments m.prices c)) ≠ [] := by simp [extendedWaves]
    rw [readNine]
    refine asks_ite later (Ask.asks_bind (asks_provided (asks_motiveThenCorrective parts some_)) fun _ => ?_)
    exact asks_ite (Ask.asks_pure _ _) later

theorem asks_readThree {a c : List ℚ} (segA : Segment m a) (segC : Segment m c) :
    (readThree m x a c).Asks (PartOf m) := by
  unfold readThree
  refine Ask.asks_bind (asks_provided (asks_andThen (asks_reads segA) (asks_reads segC))) fun _ => ?_
  refine asks_ite (Ask.asks_pure _ _) ?_
  refine Ask.asks_bind (asks_provided (asks_andThen (asks_isMotive segA) (asks_isMotive segC))) fun _ => ?_
  refine asks_ite (Ask.asks_pure _ _) ?_
  refine Ask.asks_bind (asks_provided (asks_andThen (asks_isCorrective segA) (asks_isMotive segC))) fun _ => ?_
  exact asks_ite (Ask.asks_pure _ _) (Ask.asks_pure _ _)

theorem asks_readLaterB {a : List ℚ} {ia : Nat} (segA : Segment m a) (positive : 1 ≤ ia) {ibs : List Nat}
    (after : ∀ ib ∈ ibs, ia < ib ∧ ib < m.prices.length - 1) : (readLaterB m a ia ibs).Asks (PartOf m) := by
  induction ibs with
  | nil => exact Ask.asks_pure _ _
  | cons ib ibs ih =>
    obtain ⟨behind, inside⟩ := after ib List.mem_cons_self
    have later := ih fun e mem => after e (List.mem_cons_of_mem _ mem)
    have segB : Segment m ((m.prices.drop ia).take (ib + 1 - ia)) := by
      refine ⟨?_, fun u mem => List.mem_of_mem_drop (List.mem_of_mem_take mem)⟩
      have := List.length_take_le (ib + 1 - ia) (m.prices.drop ia)
      omega
    have segC : Segment m (m.prices.drop ib) := by
      refine ⟨?_, fun u mem => List.mem_of_mem_drop mem⟩
      rw [List.length_drop]
      omega
    rw [readLaterB]
    refine asks_ite later (Ask.asks_bind (asks_andThen (asks_isCorrective segB) (asks_isMotive segC)) fun _ => ?_)
    refine asks_ite (Ask.asks_bind (asks_provided (asks_isMotive segA)) fun _ => asks_ite (Ask.asks_pure _ _) ?_) later
    exact Ask.asks_bind (asks_provided (asks_isCorrective segA)) fun _ => asks_ite (Ask.asks_pure _ _) later

theorem asks_atStage {k : Nat} {read : List ℚ → List Nat → Reader (Option Family)}
    (asks : ∀ x c, stage k (reduceCounted m.prices) = some (x, c) → (read x c).Asks (PartOf m)) :
    (atStage m k read).Asks (PartOf m) := by
  unfold atStage
  split
  · rename_i x c found
    exact asks_ite (asks x c found) (Ask.asks_pure _ _)
  · exact Ask.asks_pure _ _

theorem asks_readThreeStage (m : Move) : (readThreeStage m).Asks (PartOf m) := by
  unfold readThreeStage
  split
  · rename_i x3 c3 found
    have parts := segment_of_stage found (by omega)
    obtain ⟨waves, positive, total⟩ := counted_stage found
    simp only at waves positive total
    have some_ : segments m.prices c3 ≠ [] := by
      apply segments_ne_nil
      rintro rfl
      simp at waves
    have segA := @segment_pick m _ parts some_ [0] _ List.mem_cons_self
    have segC := @segment_pick m _ parts some_ [2] _ List.mem_cons_self
    have first : 1 ≤ c3.getD 0 0 := by
      rw [List.getD_eq_getElem _ _ (by omega)]
      exact positive _ (List.getElem_mem _)
    refine Ask.asks_bind (asks_readThree segA segC) fun _ => asks_orElse (asks_readLaterB segA first ?_)
    intro ib mem
    obtain ⟨i, less, rfl⟩ := List.mem_range'.mp mem
    omega
  · exact Ask.asks_pure _ _

theorem asks_readFamily (m : Move) : (readFamily m).Asks (PartOf m) := by
  refine Ask.asks_bind (asks_atStage fun x c found => asks_readFive found) fun _ => ?_
  refine Ask.asks_bind (asks_orElse (asks_atStage fun x c found => asks_readNine found fun _ mem => mem)) fun _ => ?_
  exact asks_orElse (asks_readThreeStage m)

/-- A reading reads only shorter parts of the move, whatever it is told of them. -/
theorem asks_readBody (m : Move) : (readBody m).Asks (PartOf m) :=
  Ask.asks_bind (asks_readFamily m) fun _ => Ask.asks_pure _ _

end Parts

/-! ## The memo -/

/-- The key of a move (`:190`): no ratios for the defaults (`_settings_key`). -/
structure MoveKey where
  prices : List ℚ
  ratios : Option Ratios
  deriving DecidableEq

/-- `_settings_key`. -/
def settingsKey (s : Ratios) : Option Ratios := if s = patternDefaults then none else some s

/-- `n <= 1`: a single leg. -/
def singleLeg (m : Move) : Option Reading :=
  if m.prices.length - 1 ≤ 1 then some ⟨.single, m.prices.length - 1⟩ else none

/-- `read_counter` without its memo. -/
def plainReader : Recursion Move Reading where
  size m := m.prices.length
  base := singleLeg
  body := readBody
  smaller m := (asks_readBody m).mono fun _ part => part.shorter

/-- `read_counter`. -/
def counterReader : Memo Move Reading MoveKey where
  toRecursion := plainReader
  key m := ⟨m.prices.map (Py.roundTo 6), settingsKey m.ratios⟩
  guard m := ⟨.threeWave, m.prices.length - 1⟩
  limit := 20000
  keySize k := k.prices.length
  keySize_key m := by simp [plainReader]

/-- The arguments of a call; no settings are the defaults. -/
abbrev Call := List ℚ × Option Ratios

/-- The move of a call. -/
def Call.move (c : Call) : Move := ⟨c.1, c.2.getD patternDefaults⟩

/-- A thread's memo after some calls. -/
def memoAfter (calls : List Call) : Table Reading MoveKey := counterReader.recallAll (calls.map Call.move) {}

/-- `read_counter(prices, s)` after some calls. -/
def readCounter (calls : List Call) (c : Call) : Reading := (counterReader.consult c.move (memoAfter calls)).1

/-- The same recursion without memo and guard. -/
def plainReading (c : Call) : Reading := plainReader.answer c.move

/-! ## The memo changes no reading -/

section Memoised

variable {prices : List ℚ} {s : Ratios}

/-- Different prices of the two lists are more than 1e-6 apart. -/
def Apart (us vs : List ℚ) : Prop := ∀ u ∈ us, ∀ v ∈ vs, u ≠ v → 1 / 1000000 < |u - v|

theorem abs_sub_le_of_roundTo {u v : ℚ} (same : Py.roundTo 6 u = Py.roundTo 6 v) : |u - v| ≤ 1 / 1000000 := by
  unfold Py.roundTo at same
  have scaled : (Py.roundHalfEven (u * 10 ^ 6) : ℚ) = Py.roundHalfEven (v * 10 ^ 6) :=
    (div_left_inj' (by norm_num)).mp same
  have nearU := Py.abs_sub_roundHalfEven_le (u * 10 ^ 6)
  have nearV := Py.abs_sub_roundHalfEven_le (v * 10 ^ 6)
  rw [scaled] at nearU
  rw [abs_le] at *
  constructor <;> linarith

/-- Lists that a function does not tell apart, though it tells their items apart. -/
theorem eq_of_map_eq {α β : Type} {f : α → β} {us vs : List α} (same : us.map f = vs.map f)
    (told : ∀ u ∈ us, ∀ v ∈ vs, f u = f v → u = v) : us = vs := by
  induction us generalizing vs with
  | nil => exact (List.map_eq_nil_iff.mp same.symm).symm
  | cons u us ih =>
    cases vs with
    | nil => cases same
    | cons v vs =>
      obtain ⟨first, rest⟩ := List.cons.inj same
      rw [told u List.mem_cons_self v List.mem_cons_self first,
        ih rest fun u mem v mem' => told u (List.mem_cons_of_mem _ mem) v (List.mem_cons_of_mem _ mem')]

theorem settingsKey_inj {s t : Ratios} (same : settingsKey s = settingsKey t) : s = t := by
  unfold settingsKey at same
  split at same <;> split at same
  · rename_i default_ default'
    rw [default_, default']
  · cases same
  · cases same
  · exact Option.some.inj same

/-- A move made of some prices, read by some ratios. -/
def MadeOf (prices : List ℚ) (s : Ratios) (m : Move) : Prop := m.ratios = s ∧ ∀ u ∈ m.prices, u ∈ prices

/-- A move whose prices, if it is read by the same ratios, are those or more than 1e-6 away. -/
def ClearOf (prices : List ℚ) (s : Ratios) (m : Move) : Prop := m.ratios = s → Apart m.prices prices

/-- Among moves whose prices, if they are read by the same ratios, are told from some by the rounding, the key tells
those made of these prices. -/
theorem separates_of {R : ℚ → ℚ → Prop} (told : ∀ u v, R u v → Py.roundTo 6 u = Py.roundTo 6 v → u = v)
    (prices : List ℚ) (s : Ratios) :
    counterReader.Separates (MadeOf prices s) fun m => m.ratios = s → ∀ u ∈ m.prices, ∀ v ∈ prices, R u v where
  good m made := by
    refine (asks_readBody m).mono fun r part => ⟨part.ratios_eq.trans made.1, fun u mem => ?_⟩
    exact made.2 u (part.within u mem)
  occurs m clear_ := by
    refine (asks_readBody m).mono fun r part same u mem => ?_
    exact clear_ (part.ratios_eq.symm.trans same) u (part.within u mem)
  told q g clear_ made same := by
    obtain ⟨keyed, ratioKeys⟩ := MoveKey.mk.inj same
    have ratios := settingsKey_inj ratioKeys
    have one : q.prices = g.prices :=
      eq_of_map_eq keyed fun u mem v mem' => told u v (clear_ (ratios.trans made.1) u mem v (made.2 v mem'))
    cases q
    cases g
    simp_all

/-- Among moves that are clear of some prices, the key tells those made of them. -/
theorem separates_prices (prices : List ℚ) (s : Ratios) :
    counterReader.Separates (MadeOf prices s) (ClearOf prices s) := by
  refine separates_of (R := fun u v => u ≠ v → 1 / 1000000 < |u - v|) (fun u v far rounded => ?_) prices s
  by_contra ne
  exact absurd (abs_sub_le_of_roundTo rounded) (not_le.mpr (far ne))

/-- What holds of the prices of calls holds of the moves that they put to the memo. -/
theorem moves_of_calls {calls : List Call} {P : List ℚ → Prop} (earlier : ∀ d ∈ calls, d.move.ratios = s → P d.1) :
    ∀ m ∈ calls.map Call.move, m.ratios = s → P m.prices := by
  intro m mem
  obtain ⟨d, among, rfl⟩ := List.mem_map.mp mem
  exact fun same => earlier d among same

/-- The memo of a thread, after any calls. A list of prices that are more than 1e-6 apart from each other, and from the
prices of the moves that were read before by the same ratios, is read as without memo and guard. Every reading
reads shorter parts only, so the recursion ends in the answer of its own equation; and no guard is ever read. -/
theorem readCounter_plain :
    (∀ (calls : List Call) (c : Call), Apart c.1 c.1 →
      (∀ d ∈ calls, d.move.ratios = c.move.ratios → Apart d.1 c.1) → readCounter calls c = plainReading c) ∧
    (∀ m, (readBody m).Asks (PartOf m)) ∧
    (∀ m, plainReader.answer m = (singleLeg m).getD ((readBody m).eval plainReader.answer)) ∧
    (∀ calls, (memoAfter calls).guardsRead = 0) := by
  refine ⟨fun calls c own earlier => ?_, asks_readBody, plainReader.answer_eq, fun calls => ?_⟩
  · exact Memo.recall_eq_answer (separates_prices c.1 c.move.ratios)
      (moves_of_calls (P := fun us => Apart us c.1) earlier) (fun _ => own) ⟨rfl, fun _ mem => mem⟩
  · exact Memo.guardsRead_eq_zero counterReader _

/-- A move whose second wave is nine tenths of its first, and one that misses that by less than 1e-6. -/
def ninetyPercent : List ℚ := [0, 10, 1, 12]

def underNinetyPercent : List ℚ := [0, 10, 10000001 / 10000000, 12]

theorem apart_ninetyPercent : Apart ninetyPercent ninetyPercent := by
  intro u memU v memV ne
  simp only [ninetyPercent, List.mem_cons, List.not_mem_nil, or_false] at memU memV
  rcases memU with rfl | rfl | rfl | rfl <;> rcases memV with rfl | rfl | rfl | rfl <;>
    first | exact absurd rfl ne | norm_num

/-- Read by other ratios before, or not at all, the move is a flat; after the move that misses it is taken for that
one's zigzag. -/
theorem readCounter_near :
    ¬ ∀ (calls : List Call) (c : Call), Apart c.1 c.1 → readCounter calls c = plainReading c := by
  intro always
  have same := always [(underNinetyPercent, none)] (ninetyPercent, none) apart_ninetyPercent
  have differ : readCounter [(underNinetyPercent, none)] (ninetyPercent, none) ≠
      plainReading (ninetyPercent, none) := by
    decide +kernel
  exact differ same

/-- Under other ratios the move that misses does no harm. -/
theorem readCounter_plain_ninetyPercent :
    readCounter [(underNinetyPercent, some { patternDefaults with zzMaxBa := 80 / 100 })] (ninetyPercent, none)
      = plainReading (ninetyPercent, none) := by
  refine readCounter_plain.1 _ _ apart_ninetyPercent fun d mem same => ?_
  rw [List.mem_singleton] at mem
  subst mem
  exact absurd same (by decide +kernel)

end Memoised

end AdvanceTrading.DailyTrend
