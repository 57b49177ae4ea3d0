import AdvanceTrading.PriceAction.CounterMirror

/-!
# The mirrored count

The count of the mirrored swings: every price negated, highs and lows exchanged,
the context negated.
-/

namespace AdvanceTrading.Waves

open DailyTrend

/-! ## The mirror -/

def SwingKind.mirrored : SwingKind → SwingKind
  | .high => .low
  | .low => .high

def Swing.mirrored (p : Swing) : Swing := { p with kind := p.kind.mirrored, price := -p.price }

def Args.mirrored (a : Args) : Args where
  swings := a.swings.map Swing.mirrored
  runningEnd := a.runningEnd.mirrored
  inner := a.inner.map Swing.mirrored
  context := -a.context
  settings := a.settings

/-- A reading with its prices negated, its direction and its trend turned. -/
def Reading.mirrored (r : Reading) : Reading :=
  { r with points := DailyTrend.mirrored r.points, direction := -r.direction, trend := -r.trend }

/-- The same state, type and clarity; the readings mirrored. -/
def WaveCount.mirrored (c : WaveCount) : WaveCount := c.map Reading.mirrored (-c.context)

/-! ## A leg's points -/

section Legs

variable {aBar bBar upto : Int} {aPrice bPrice : ℚ} {inner : List Swing}

theorem SwingKind.mirrored_inj {k k' : SwingKind} : k.mirrored = k'.mirrored ↔ k = k' := by
  cases k <;> cases k' <;> decide

def Gathered.mirrored (g : Gathered) : Gathered :=
  ⟨-g.price, g.kind.mirrored, g.bar, g.earlier.map fun e => (-e.1, e.2)⟩

theorem gather_mirrored (g : Gathered) (p : Swing) : gather g.mirrored p.mirrored = (gather g p).mirrored := by
  have some_left : g.mirrored.earlier ≠ [] ↔ g.earlier ≠ [] := by simp [Gathered.mirrored]
  have kinds : p.mirrored.kind ≠ g.mirrored.kind ↔ p.kind ≠ g.kind := not_congr SwingKind.mirrored_inj
  have turned : (p.mirrored.price - g.mirrored.price) * p.mirrored.kind.sign = (p.price - g.price) * p.kind.sign := by
    have signs : p.mirrored.kind.sign = -p.kind.sign := by
      unfold Swing.mirrored
      cases p.kind
      · rfl
      · exact (neg_neg _).symm
    rw [signs]
    show (-p.price - -g.price) * -p.kind.sign = _
    ring
  unfold gather
  simp only [kinds, some_left, turned]
  split_ifs <;> rfl

theorem startKind_mirrored (apart : aPrice ≠ bPrice) :
    startKind (-aPrice) (-bPrice) = (startKind aPrice bPrice).mirrored := by
  unfold startKind
  rcases lt_or_gt_of_ne apart with less | more
  · rw [if_pos less, if_neg (not_lt.mpr (neg_le_neg less.le))]
    rfl
  · rw [if_neg (not_lt.mpr more.le), if_pos (neg_lt_neg more)]
    rfl

theorem endKind_mirrored (apart : aPrice ≠ bPrice) :
    endKind (-aPrice) (-bPrice) = (endKind aPrice bPrice).mirrored := by
  unfold endKind
  rcases lt_or_gt_of_ne apart with less | more
  · rw [if_pos less, if_neg (not_lt.mpr (neg_le_neg less.le))]
    rfl
  · rw [if_neg (not_lt.mpr more.le), if_pos (neg_lt_neg more)]
    rfl

theorem legPoints_mirrored (apart : aPrice ≠ bPrice) :
    legPoints aBar (-aPrice) bBar (-bPrice) upto (inner.map Swing.mirrored) =
      (legPoints aBar aPrice bBar bPrice upto inner).map fun e => (-e.1, e.2) := by
  have inside : ((inner.map Swing.mirrored).filter fun p => p.confirmBar ≤ upto ∧ aBar < p.bar ∧ p.bar < bBar) =
      (inner.filter fun p => p.confirmBar ≤ upto ∧ aBar < p.bar ∧ p.bar < bBar).map Swing.mirrored := by
    rw [List.filter_map]
    rfl
  have gathered : ∀ (ps : List Swing) (g : Gathered),
      (ps.map Swing.mirrored).foldl gather g.mirrored = (ps.foldl gather g).mirrored := by
    intro ps
    induction ps with
    | nil => exact fun g => rfl
    | cons p ps ih =>
      intro g
      rw [List.map_cons, List.foldl_cons, gather_mirrored, ih, List.foldl_cons]
  have start : (⟨-aPrice, startKind (-aPrice) (-bPrice), aBar, []⟩ : Gathered) =
      (⟨aPrice, startKind aPrice bPrice, aBar, []⟩ : Gathered).mirrored := by
    rw [startKind_mirrored apart]
    rfl
  unfold legPoints
  dsimp only
  rw [inside, sortBy_map (·.bar) (·.bar) Swing.mirrored (fun _ _ => Iff.rfl), start, gathered, endKind_mirrored apart]
  generalize List.foldl gather _ _ = g
  have some_left : g.mirrored.earlier ≠ [] ↔ g.earlier ≠ [] := by simp [Gathered.mirrored]
  have kinds : g.mirrored.kind = (endKind aPrice bPrice).mirrored ↔
      g.kind = endKind aPrice bPrice := SwingKind.mirrored_inj
  simp only [some_left, kinds]
  rw [List.map_reverse]
  congr 1
  split_ifs <;> rfl

end Legs

/-! ## Readings -/

section Readings

variable {a : Args} {x : List ℚ} {s : Ratios}

theorem pts_mirrored (a : Args) : a.mirrored.pts = a.pts.map Swing.mirrored := by
  unfold Args.pts Args.mirrored
  rw [List.map_append]
  rfl

theorem ends_mirrored (a : Args) (j : Nat) : ends a.mirrored j = mirrored (ends a j) := by
  unfold ends mirrored
  rw [pts_mirrored, ← List.map_drop, List.map_map, List.map_map]
  rfl

theorem wavePoints_mirrored {i : Nat} (apart : pt (ends a 0) i ≠ pt (ends a 0) (i + 1)) :
    wavePoints a.mirrored i = mirrored (wavePoints a i) := by
  have price : ∀ k p, a.pts[k]? = some p → pt (ends a 0) k = p.price := by
    intro k p found
    unfold pt ends
    rw [List.getD_eq_getElem?_getD, List.getElem?_map, List.drop_zero, found]
    rfl
  unfold wavePoints
  rw [pts_mirrored, List.getElem?_map, List.getElem?_map]
  cases first : a.pts[i]? with
  | none => rfl
  | some p =>
    cases second : a.pts[i + 1]? with
    | none => rfl
    | some q =>
      rw [price i p first, price (i + 1) q second] at apart
      have points := @legPoints_mirrored p.bar q.bar a.runningEnd.confirmBar p.price q.price a.inner apart
      dsimp only [Option.map_some, Swing.mirrored, Args.mirrored]
      rw [points, List.map_map, mirrored, List.map_map]
      rfl

/-- No direction of the inner structure of a wave that is read is taken of equal prices. -/
def Untied (a : Args) : Prop :=
  ∀ i ∈ readWaves a, untied ⟨wavePoints a i, a.settings⟩ = true

instance (a : Args) : Decidable (Untied a) := inferInstanceAs (Decidable (∀ i ∈ readWaves a, _ = true))

theorem family_mirrored {i : Nat} (apart : pt (ends a 0) i ≠ pt (ends a 0) (i + 1))
    (free : 2 < (wavePoints a i).length → untied ⟨wavePoints a i, a.settings⟩ = true) :
    family a.mirrored i = family a i := by
  unfold family askFamily
  dsimp only
  rw [wavePoints_mirrored apart, length_mirrored, Ask.eval_ite, Ask.eval_ite]
  refine ite_congr rfl (fun long => ?_) fun _ => rfl
  have read : plainReader.answer ⟨mirrored (wavePoints a i), a.settings⟩ =
      plainReader.answer ⟨wavePoints a i, a.settings⟩ :=
    answer_mirrored (free long)
  rw [Ask.eval_bind, Ask.eval_bind]
  exact congrArg DailyTrend.Reading.family read

theorem structureTypes_mirrored (apart : pt x 0 ≠ pt x 1) : structureTypes (mirrored x) s = structureTypes x s := by
  unfold structureTypes
  dsimp only
  rw [length_mirrored, impulse_mirrored apart, wedge_mirrored apart, wedge_mirrored apart, zigzag_mirrored,
    flat_mirrored apart, triangle_mirrored apart, triangle_mirrored apart, directionOf_mirrored apart, pt_mirrored,
    pt_mirrored, beyond_neg]

theorem readingOf_mirrored {j : Nat} (apart : pt (ends a j) 0 ≠ pt (ends a j) 1) (kind : WaveType)
    (altOnly : Bool) (fams : List Family) :
    readingOf a.mirrored j kind altOnly fams = (readingOf a j kind altOnly fams).map Reading.mirrored := by
  have bars : (a.mirrored.pts.drop j).map (·.bar) = (a.pts.drop j).map (·.bar) := by
    rw [pts_mirrored, ← List.map_drop, List.map_map]
    rfl
  unfold readingOf
  dsimp only
  rw [ends_mirrored, length_mirrored, directionOf_mirrored apart, bars]
  split
  · rw [Option.map_some]
    unfold Reading.mirrored
    congr 2
    dsimp only
    split <;> rfl
  · rfl

theorem noLength_mirrored (x : List ℚ) : noLength (mirrored x) = noLength x := by
  unfold noLength mirrored
  rw [← List.map_tail, List.zip_map, List.any_map]
  congr 1
  funext e
  exact decide_eq_decide.mpr neg_inj

theorem originPlain_mirrored (free : Untied a) {j : Nat} (among : j ∈ origins a) :
    originPlain a.mirrored j = (originPlain a j).map Reading.mirrored := by
  unfold originPlain
  rw [ends_mirrored, noLength_mirrored]
  cases lengths : noLength (ends a j) with
  | true => rfl
  | false =>
    have first : pt (ends a j) 0 ≠ pt (ends a j) 1 := by
      refine pt_ne_of_noLength lengths (k := 0) ?_
      unfold origins at among
      rw [List.mem_range'_1] at among
      rw [length_ends]
      omega
    simp only [Bool.false_eq_true, if_false]
    rw [structureTypes_mirrored first, length_mirrored]
    simp only [readingOf_mirrored first]
    rw [← reduceOption_map_map]
    congr 1
    apply List.map_congr_left
    intro t isType
    have fams : ∀ i ∈ (List.range ((ends a j).length - 1 - 1)).map (j + ·), family a.mirrored i = family a i := by
      intro i mem
      obtain ⟨k, less, rfl⟩ := List.mem_map.mp mem
      have inside := List.mem_range.mp less
      refine family_mirrored (finished_apart lengths inside) fun long => ?_
      exact free _ (mem_readWaves among lengths (List.ne_nil_of_mem isType) inside long)
    rw [List.map_congr_left fams]

theorem against_mirrored (context : Int) (r : Reading) : against (-context) r.mirrored = against context r := by
  unfold against
  dsimp only [Reading.mirrored]
  simp only [neg_eq_zero, neg_inj]

theorem rank_mirrored (context : Int) (r : Reading) : rank (-context) r.mirrored = rank context r := by
  unfold rank
  rw [against_mirrored]
  rfl

theorem readingsPlain_mirrored (free : Untied a) :
    readingsPlain a.mirrored = (readingsPlain a).map Reading.mirrored := by
  have lengths : a.mirrored.swings.length = a.swings.length := List.length_map _
  have all : (origins a.mirrored).map (originPlain a.mirrored) =
      (origins a).map fun j => (originPlain a j).map Reading.mirrored := by
    unfold origins
    rw [lengths]
    exact List.map_congr_left fun j among => originPlain_mirrored free among
  have joined_ : ((origins a).map fun j => (originPlain a j).map Reading.mirrored).flatten =
      ((origins a).map (originPlain a)).flatten.map Reading.mirrored := by
    rw [List.map_flatten, List.map_map]
    rfl
  unfold readingsPlain
  rw [all, joined_]
  apply sortBy_map
  intro r r'
  rw [show a.mirrored.context = -a.context from rfl, rank_mirrored, rank_mirrored]

theorem alike_mirrored (context : Int) : Alike context (-context) Reading.mirrored where
  label _ := rfl
  type _ := rfl
  clear _ := rfl
  altOnly _ := rfl
  length_points _ := length_mirrored _
  origin _ _ := Iff.rfl
  trend _ _ := neg_inj
  against := against_mirrored context

/-- The count of the mirrored swings is the mirrored count. -/
theorem countPlain_mirrored (free : Untied a) : countPlain a.mirrored = (countPlain a).mirrored := by
  unfold WaveCount.mirrored
  rw [context_countPlain]
  have alike : Alike a.context a.mirrored.context Reading.mirrored := alike_mirrored a.context
  unfold countPlain
  rw [readingsPlain_mirrored free]
  exact alike.countOf rfl _

end Readings

end AdvanceTrading.Waves

/-!
# What a count looks at

A count looks at the last five swings, the running end and the inner swings
confirmed by the end's confirm bar. With the mirror (`CountMirror`) this is what
a count may be relied on for, where no direction of an inner structure is taken
of equal prices.
-/

namespace AdvanceTrading.Waves

open DailyTrend

/-! ## Older swings -/

/-- The arguments with older swings before them. -/
def Args.older (a : Args) (swings : List Swing) : Args := { a with swings := swings ++ a.swings }

/-- A reading whose origin has `k` swings more before it. -/
def Reading.shifted (k : Nat) (r : Reading) : Reading := { r with origin := k + r.origin }

/-- The count with the origins of its readings moved on. -/
def WaveCount.shifted (k : Nat) (c : WaveCount) : WaveCount := c.map (Reading.shifted k) c.context

section Older

variable {a : Args} {swings : List Swing}

theorem pts_older (a : Args) (swings : List Swing) : (a.older swings).pts = swings ++ a.pts := List.append_assoc _ _ _

theorem drop_pts_older (j : Nat) : (a.older swings).pts.drop (swings.length + j) = a.pts.drop j := by
  rw [pts_older, ← List.drop_drop, List.drop_left]

theorem ends_older (j : Nat) : ends (a.older swings) (swings.length + j) = ends a j := by
  unfold ends
  rw [drop_pts_older]

theorem wavePoints_older (i : Nat) : wavePoints (a.older swings) (swings.length + i) = wavePoints a i := by
  have at_ : ∀ k, (a.older swings).pts[swings.length + k]? = a.pts[k]? := by
    intro k
    rw [pts_older, List.getElem?_append_right (by omega), Nat.add_sub_cancel_left]
  unfold wavePoints
  rw [Nat.add_assoc, at_, at_]
  rfl

theorem family_older (i : Nat) : family (a.older swings) (swings.length + i) = family a i := by
  unfold family askFamily
  dsimp only
  rw [wavePoints_older]
  rfl

theorem readingOf_older (j : Nat) (kind : WaveType) (altOnly : Bool) (fams : List Family) :
    readingOf (a.older swings) (swings.length + j) kind altOnly fams =
      (readingOf a j kind altOnly fams).map (Reading.shifted swings.length) := by
  unfold readingOf
  dsimp only
  rw [ends_older, drop_pts_older]
  split <;> rfl

theorem originPlain_older (j : Nat) :
    originPlain (a.older swings) (swings.length + j) = (originPlain a j).map (Reading.shifted swings.length) := by
  have fams : ((List.range ((ends a j).length - 1 - 1)).map (swings.length + j + ·)).map (family (a.older swings)) =
      ((List.range ((ends a j).length - 1 - 1)).map (j + ·)).map (family a) := by
    rw [List.map_map, List.map_map]
    apply List.map_congr_left
    intro k _
    rw [Function.comp_apply, Function.comp_apply, Nat.add_assoc, family_older]
  unfold originPlain
  rw [ends_older, fams]
  cases noLength (ends a j) with
  | true => rfl
  | false =>
    simp only [Bool.false_eq_true, if_false, readingOf_older]
    exact reduceOption_map_map _ _ _

/-- With five swings at least, the candidate origins are the same ones. -/
theorem origins_older (enough : maxWaves ≤ a.swings.length) :
    origins (a.older swings) = (origins a).map (swings.length + ·) := by
  unfold origins
  rw [List.map_add_range', show (a.older swings).swings.length =
    swings.length + a.swings.length from List.length_append]
  congr 1 <;> omega

theorem rank_shifted (context : Int) (k : Nat) (r r' : Reading) :
    rank context (r.shifted k) ≤ rank context (r'.shifted k) ↔ rank context r ≤ rank context r' := by
  have same : ∀ r : Reading, against context (r.shifted k) = against context r := fun _ => rfl
  unfold rank
  simp only [Prod.Lex.toLex_le_toLex, same]
  simp only [Reading.shifted, add_lt_add_iff_left, add_right_inj]

theorem readingsPlain_older (enough : maxWaves ≤ a.swings.length) :
    readingsPlain (a.older swings) = (readingsPlain a).map (Reading.shifted swings.length) := by
  have all : ((origins (a.older swings)).map (originPlain (a.older swings))).flatten =
      ((origins a).map (originPlain a)).flatten.map (Reading.shifted swings.length) := by
    rw [origins_older enough, List.map_map, List.map_flatten, List.map_map]
    congr 1
    apply List.map_congr_left
    intro j _
    exact originPlain_older j
  unfold readingsPlain
  rw [all]
  exact sortBy_map _ _ _ (rank_shifted a.context swings.length) _

theorem alike_shifted (context : Int) (k : Nat) : Alike context context (Reading.shifted k) where
  label _ := rfl
  type _ := rfl
  clear _ := rfl
  altOnly _ := rfl
  length_points _ := rfl
  origin _ _ := Nat.add_right_inj
  trend _ _ := Iff.rfl
  against _ := rfl

theorem countPlain_older (enough : maxWaves ≤ a.swings.length) :
    countPlain (a.older swings) = (countPlain a).shifted swings.length := by
  have alike : Alike a.context (a.older swings).context (Reading.shifted swings.length) := alike_shifted a.context _
  unfold WaveCount.shifted
  rw [context_countPlain]
  unfold countPlain
  rw [readingsPlain_older enough]
  exact alike.countOf rfl _

end Older

/-! ## Later inner swings -/

/-- The inner swings confirmed by the bar of the running end. -/
def visible (a : Args) (inner : List Swing) : List Swing := inner.filter fun p => p.confirmBar ≤ a.runningEnd.confirmBar

section Later

variable {a : Args} {inner : List Swing}
variable (same : visible a inner = visible a a.inner)
include same

theorem legPoints_visible (aBar : Int) (aPrice : ℚ) (bBar : Int) (bPrice : ℚ) :
    legPoints aBar aPrice bBar bPrice a.runningEnd.confirmBar inner =
      legPoints aBar aPrice bBar bPrice a.runningEnd.confirmBar a.inner := by
  have inside : ∀ ps : List Swing,
      (ps.filter fun p => p.confirmBar ≤ a.runningEnd.confirmBar ∧ aBar < p.bar ∧ p.bar < bBar) =
        (visible a ps).filter fun p => aBar < p.bar ∧ p.bar < bBar := by
    intro ps
    unfold visible
    rw [List.filter_filter]
    apply List.filter_congr
    intro p _
    rw [← Bool.decide_and, Bool.decide_congr and_comm]
  unfold legPoints
  dsimp only
  rw [inside inner, inside a.inner, same]

theorem wavePoints_later (i : Nat) : wavePoints { a with inner := inner } i = wavePoints a i := by
  have pts : ({ a with inner := inner } : Args).pts = a.pts := rfl
  unfold wavePoints
  rw [pts]
  cases a.pts[i]? with
  | none => rfl
  | some p =>
    cases a.pts[i + 1]? with
    | none => rfl
    | some q => exact congrArg (List.map Prod.fst) (legPoints_visible same p.bar p.price q.bar q.price)

theorem countPlain_later : countPlain { a with inner := inner } = countPlain a := by
  have families : family { a with inner := inner } = family a := by
    funext i
    unfold family askFamily
    dsimp only
    rw [wavePoints_later same]
  have each : originPlain { a with inner := inner } = originPlain a := by
    funext j
    unfold originPlain
    rw [families]
    rfl
  unfold countPlain readingsPlain
  rw [each]
  rfl

end Later

/-! ## Symmetry and locality -/

/-- Behind the memos of their threads: where no direction of an inner structure is taken of equal prices, the count of
the mirrored swings is the mirrored count; older swings before the last five only move the origins on, and inner
swings confirmed after the end change nothing. -/
theorem count_symmetric {a : Args} {calls : List Call} (filed : Filed calls a) :
    (Untied a → ∀ calls', Filed calls' a.mirrored → count a.mirrored calls' = (count a calls).mirrored) ∧
      (∀ calls' swings, maxWaves ≤ a.swings.length → Filed calls' (a.older swings) →
        count (a.older swings) calls' = (count a calls).shifted swings.length) ∧
      ∀ calls' inner, visible a inner = visible a a.inner → Filed calls' { a with inner := inner } →
        count { a with inner := inner } calls' = count a calls := by
  rw [count_eq filed]
  refine ⟨fun free calls' filed' => ?_, fun calls' swings enough filed' => ?_, fun calls' inner same filed' => ?_⟩
  · rw [count_eq filed', countPlain_mirrored free]
  · rw [count_eq filed', countPlain_older enough]
  · rw [count_eq filed', countPlain_later same]

/-- Swings that become known a bar after they are made, alternately lows and highs. -/
def swingsFrom (kind : SwingKind) (bar step : Int) : List ℚ → List Swing
  | [] => []
  | price :: prices => ⟨kind, price, bar, bar + 1⟩ :: swingsFrom kind.mirrored (bar + step) step prices

/-- Five waves up, the first of three legs. -/
def fiveUp : Args where
  swings := swingsFrom .low 0 20 [100, 150, 120, 200, 160]
  runningEnd := ⟨.high, 230, 100, 101⟩
  inner := swingsFrom .high 2 2 [130, 110]
  context := 1
  settings := patternDefaults

theorem count_symmetric_fiveUp :
    count fiveUp.mirrored [] = (count fiveUp []).mirrored ∧
      count (fiveUp.older (swingsFrom .low (-40) 20 [90, 140])) [] = (count fiveUp []).shifted 2 ∧
      count { fiveUp with inner := fiveUp.inner ++ swingsFrom .high 102 2 [220] } [] = count fiveUp [] := by
  have filed : Filed [] fiveUp := ⟨by decide +kernel, fun _ mem => nomatch mem⟩
  obtain ⟨mirror, older, later⟩ := count_symmetric filed
  refine ⟨mirror ?_ [] ⟨?_, fun _ mem => nomatch mem⟩, older [] _ ?_ ⟨?_, fun _ mem => nomatch mem⟩,
    later [] _ ?_ ⟨?_, fun _ mem => nomatch mem⟩⟩
  · decide +kernel
  · decide +kernel
  · decide
  · decide +kernel
  · decide +kernel
  · decide +kernel

/-- A finished rise whose inner highs and lows meet at 106, a fall and another rise. -/
def meetingLevels : Args where
  swings := [⟨.low, 100, 0, 1⟩, ⟨.high, 116, 20, 21⟩, ⟨.low, 110, 24, 25⟩]
  runningEnd := ⟨.high, 118, 27, 28⟩
  inner := swingsFrom .high 2 2 [106, 103, 107, 106, 111, 110, 116, 114]
  context := 0
  settings := patternDefaults

/-- The rise is read as a flat and its mirror image as three waves, so the one count is wave C of a double three and
the other wave B of a flat. -/
theorem count_meetingLevels : count meetingLevels.mirrored [] ≠ (count meetingLevels []).mirrored := by
  intro same
  have states := congrArg WaveCount.state same
  exact absurd states (by decide +kernel)

end AdvanceTrading.Waves
