import AdvanceTrading.StrategyEngine.Declarative

/-!
# The live answer and the series

`holds_series` answers for every bar of a frame, `evaluate` for the last bar of
the frame cut there. Every operand but the opening range answers from the bars
so far. An opening range is hidden until its last bar, and how long that bar
lasts is the smallest spacing of the frame at hand, so the two agree at a bar
exactly when both spacings hide the same ranges there or the comparison fails
anyway.
-/

namespace AdvanceTrading.StrategyEngine

open TriggerRules (minuteUs istDay)

/-- The bars of a frame: in time order, on the grid of one base timeframe. -/
structure OnGrid (bars : List Bar) : Prop where
  ordered : bars.Pairwise fun b b' => b.start < b'.start
  grid : ∃ (minutes : Nat) (origin : Int), 0 < minutes ∧
    ∀ b ∈ bars, (b.start - origin) % (minutes * minuteUs) = 0

variable {bars : List Bar}

theorem OnGrid.take (grid : OnGrid bars) (n : Nat) : OnGrid (bars.take n) where
  ordered := grid.ordered.sublist (List.take_sublist n bars)
  grid := by
    obtain ⟨minutes, origin, positive, each⟩ := grid.grid
    exact ⟨minutes, origin, positive, fun b mem => each b (List.mem_of_mem_take mem)⟩

/-- Bars on a grid are at least a minute apart. -/
theorem OnGrid.apart (grid : OnGrid bars) :
    bars.Pairwise fun b b' => b.start + minuteUs ≤ b'.start := by
  obtain ⟨minutes, origin, positive, each⟩ := grid.grid
  apply grid.ordered.imp_of_mem
  intro b b' mem mem' before
  obtain ⟨k, isK⟩ := Int.dvd_of_emod_eq_zero (each b mem)
  obtain ⟨k', isK'⟩ := Int.dvd_of_emod_eq_zero (each b' mem')
  have one : 0 < minuteUs := by decide
  have period : 0 < (minutes : Int) * minuteUs := by positivity
  have steps : k < k' := by
    by_contra notBefore
    have := mul_le_mul_of_nonneg_left (not_lt.mp notBefore) period.le
    omega
  have scaled := mul_le_mul_of_nonneg_left (show k + 1 ≤ k' from steps) period.le
  have minute : minuteUs ≤ (minutes : Int) * minuteUs := by
    have := mul_le_mul_of_nonneg_right (show (1 : Int) ≤ minutes by omega) one.le
    omega
  rw [mul_add] at scaled
  omega

/-- The sessions of bars in time order. -/
theorem OnGrid.sessions (grid : OnGrid bars) :
    bars.Pairwise fun b b' => session b ≤ session b' := by
  apply grid.ordered.imp
  intro b b' before
  unfold session istDay TriggerRules.dayUs minuteUs
  omega

/-- Bars whose neighbours are `base` apart are all `base` apart. -/
theorem apart_of_spacings {base : Int} (ordered : bars.Pairwise fun b b' => b.start < b'.start)
    (least : ∀ d ∈ spacings bars, base ≤ d) :
    bars.Pairwise fun b b' => b.start + base ≤ b'.start := by
  induction bars with
  | nil => exact List.Pairwise.nil
  | cons b bars ih =>
    obtain ⟨first, rest⟩ := List.pairwise_cons.mp ordered
    cases bars with
    | nil => exact List.pairwise_singleton _ _
    | cons b' bars =>
      have next := first b' List.mem_cons_self
      have unfolded : spacings (b :: b' :: bars)
          = (b'.start - b.start) :: spacings (b' :: bars) := by
        rw [spacings, if_pos (by omega)]
      rw [unfolded] at least
      have here := least _ List.mem_cons_self
      refine List.pairwise_cons.mpr ⟨?_, ih rest fun d mem => least d (List.mem_cons_of_mem _ mem)⟩
      intro b'' mem
      rcases List.mem_cons.mp mem with rfl | later
      · omega
      · have := (List.pairwise_cons.mp rest).1 b'' later
        omega

theorem minute_le_of_spacings (apart : bars.Pairwise fun b b' => b.start + minuteUs ≤ b'.start) :
    ∀ d ∈ spacings bars, minuteUs ≤ d := by
  induction bars with
  | nil => simp [spacings]
  | cons b bars ih =>
    obtain ⟨first, rest⟩ := List.pairwise_cons.mp apart
    cases bars with
    | nil => simp [spacings]
    | cons b' bars =>
      have next := first b' List.mem_cons_self
      intro d mem
      rw [spacings] at mem
      split at mem
      · rcases List.mem_cons.mp mem with rfl | later
        · omega
        · exact ih rest d later
      · exact ih rest d mem

/-- No two bars of a frame are closer than its base spacing. -/
theorem OnGrid.base_apart (grid : OnGrid bars) :
    bars.Pairwise fun b b' => b.start + baseMinutes bars ≤ b'.start := by
  apply apart_of_spacings grid.ordered
  intro d mem
  have minute := minute_le_of_spacings grid.apart d mem
  unfold baseMinutes
  cases least : (spacings bars).min? with
  | none => exact minute
  | some m =>
    have := (List.min?_eq_some_iff.mp least).2 d mem
    exact max_le minute this

variable {agg : List (Option ℚ) → Option ℚ} {minutes : Nat}

section Groups

variable {earlier later : List Bar} {b : Bar}

/-- The first bar of a session is not after the ones that came with it. -/
theorem firstStart_append (ordered : (earlier ++ later).Pairwise fun b b' => b.start < b'.start)
    (mem : b ∈ earlier) : firstStart (earlier ++ later) b = firstStart earlier b := by
  obtain ⟨-, -, between⟩ := List.pairwise_append.mp ordered
  have own : b.start ∈ (groupOfRow session b earlier).map (·.start) :=
    List.mem_map.mpr ⟨b, List.mem_filter.mpr ⟨mem, decide_eq_true rfl⟩, rfl⟩
  unfold firstStart
  congr 1
  obtain ⟨m, isLeast⟩ := Option.isSome_iff_exists.mp
    (List.isSome_min?_of_mem own)
  rw [isLeast]
  obtain ⟨inEarlier, below⟩ := List.min?_eq_some_iff.mp isLeast
  apply List.min?_eq_some_iff.mpr
  unfold groupOfRow
  rw [List.filter_append, List.map_append]
  refine ⟨List.mem_append_left _ inEarlier, ?_⟩
  intro t mem'
  rcases List.mem_append.mp mem' with old | new
  · exact below t old
  · obtain ⟨b', inLater, rfl⟩ := List.mem_map.mp new
    have before := between b mem b' (List.mem_of_mem_filter inLater)
    have := below _ own
    omega

/-- Bars of one session have one first start. -/
theorem firstStart_congr {b' : Bar} (same : session b = session b') (mem : b ∈ bars) :
    firstStart bars b = firstStart bars b' := by
  have sameGroup : groupOfRow session b bars = groupOfRow session b' bars := by
    unfold groupOfRow
    rw [same]
  have own : b.start ∈ (groupOfRow session b bars).map (·.start) :=
    List.mem_map.mpr ⟨b, List.mem_filter.mpr ⟨mem, decide_eq_true rfl⟩, rfl⟩
  obtain ⟨m, isLeast⟩ := Option.isSome_iff_exists.mp (List.isSome_min?_of_mem own)
  unfold firstStart
  rw [← sameGroup, isLeast]
  rfl

/-- An aggregate of a session's opening range so far. -/
def rangeLevel (agg : List (Option ℚ) → Option ℚ) (minutes : Nat) (column : Bar → ℚ)
    (bars : List Bar) (b : Bar) : Option ℚ :=
  agg ((groupOfRow session b bars).map fun b' =>
    if inRange bars minutes b' then some (column b') else none)

/-- An aggregate that skips missing values. -/
def Skips (agg : List (Option ℚ) → Option ℚ) : Prop :=
  ∀ values missing, (∀ v ∈ missing, v = none) → agg (values ++ missing) = agg values

theorem filterMap_skips {values missing : List (Option ℚ)} (none_ : ∀ v ∈ missing, v = none) :
    (values ++ missing).filterMap id = values.filterMap id := by
  have gone : missing.filterMap id = [] := by
    apply List.filterMap_eq_nil_iff.mpr
    intro v mem
    rw [none_ v mem]
    rfl
  rw [List.filterMap_append, gone, List.append_nil]

theorem maxValid_skips : Skips maxValid := by
  intro values missing none_
  unfold maxValid
  rw [filterMap_skips none_]

theorem minValid_skips : Skips minValid := by
  intro values missing none_
  unfold minValid
  rw [filterMap_skips none_]

/-- A complete opening range has no bar after the one that completes it. -/
theorem rangeLevel_append {base : Int} (column : Bar → ℚ) (skips : Skips agg)
    (ordered : (earlier ++ later).Pairwise fun b b' => b.start < b'.start) (mem : b ∈ earlier)
    (spaced : ∀ b' ∈ later, b.start + base ≤ b'.start)
    (done : complete (earlier ++ later) base minutes b = true) :
    rangeLevel agg minutes column (earlier ++ later) b = rangeLevel agg minutes column earlier b := by
  unfold rangeLevel groupOfRow
  rw [List.filter_append, List.map_append, skips]
  · congr 1
    apply List.map_congr_left
    intro b' own
    unfold inRange
    rw [firstStart_append ordered (List.mem_of_mem_filter own)]
  · intro v isMissing
    obtain ⟨b', own, rfl⟩ := List.mem_map.mp isMissing
    obtain ⟨inLater, same⟩ := List.mem_filter.mp own
    have reach := of_decide_eq_true done
    have far := spaced b' inLater
    rw [if_neg]
    unfold inRange
    rw [decide_eq_true_iff, not_lt,
      ← firstStart_congr (of_decide_eq_true same).symm (List.mem_append_left _ mem)]
    omega

end Groups

section Series

variable {f : Frame}

/-- The operands that are never hidden. -/
def Operand.shown : Operand → Bool
  | .orHigh _ | .orLow _ => false
  | _ => true

/-- An opening range of the operand is complete at bar `j`, when a bar lasts `base`. -/
def Operand.ready (o : Operand) (bars : List Bar) (base : Int) (j : Nat) : Bool :=
  match o with
  | .orHigh period | .orLow period => (bars[j]?).all (complete bars base period)
  | _ => true

/-- What the operand comes to at bar `j` on the bars so far, hidden or not. -/
def Operand.level (o : Operand) (f : Frame) (j : Nat) : Option ℚ :=
  let bars := f.bars.take (j + 1)
  match o with
  | .orHigh period => (f.bars[j]?).bind (rangeLevel maxValid period (·.high) bars)
  | .orLow period => (f.bars[j]?).bind (rangeLevel minValid period (·.low) bars)
  | o => ((o.series (f.cut (j + 1)))[j]?).getD none

theorem length_sessionVwap (f : Frame) : (sessionVwap f).length = f.bars.length := by
  simp [sessionVwap, cumsum, expandingMean]

@[simp] theorem Operand.length_series (o : Operand) (f : Frame) :
    (o.series f).length = f.bars.length := by
  cases o <;> simp [Operand.series, prevSession, openingRange, length_sessionVwap]

/-- Running session values do not see later bars. -/
theorem sessionVwap_cut (f : Frame) (n : Nat) : sessionVwap (f.cut n) = (sessionVwap f).take n := by
  unfold sessionVwap cumsum expandingMean Frame.cut
  simp only [groupScan_take, List.zip_eq_zipWith, List.take_zipWith]
  rfl

/-- The first open of a session does not see later bars. -/
theorem dayOpen_cut (bars : List Bar) (n : Nat) :
    groupTransform firstValid session (fun b => some b.open_) (bars.take n)
      = (groupTransform firstValid session (fun b => some b.open_) bars).take n := by
  unfold groupTransform
  rw [← List.map_take]
  apply List.map_congr_left
  intro b mem
  have own : b ∈ groupOfRow session b (bars.take n) :=
    List.mem_filter.mpr ⟨mem, decide_eq_true rfl⟩
  have split : groupOfRow session b bars
      = groupOfRow session b (bars.take n) ++ groupOfRow session b (bars.drop n) := by
    unfold groupOfRow
    rw [← List.filter_append, List.take_append_drop]
  have kept : ∀ rows : List Bar, (rows.map fun b => some b.open_).filterMap id
      = rows.map (·.open_) := by
    intro rows
    rw [List.filterMap_map]
    exact congrFun List.filterMap_eq_map' rows
  unfold firstValid
  rw [kept, kept, split, List.map_append]
  cases rows : groupOfRow session b (bars.take n) with
  | nil =>
    rw [rows] at own
    cases own
  | cons first rest => rfl

/-- The session before a bar's own does not see later bars. -/
theorem prevSession_cut (grid : OnGrid f.bars) (column : Bar → ℚ) (how : List (Option ℚ) → Option ℚ)
    (n : Nat) : prevSession (f.cut n) column how = (prevSession f column how).take n := by
  unfold prevSession Frame.cut
  rw [← List.map_take]
  apply List.map_congr_left
  intro b mem
  have sorted := grid.sessions
  rw [← List.take_append_drop n f.bars] at sorted
  conv_rhs => rw [← List.take_append_drop n f.bars]
  exact (shiftedLookup_append how (fun b => some (column b)) sorted mem).symm

/-- The operands that are never hidden answer from the bars so far. -/
theorem Operand.series_cut {o : Operand} (grid : OnGrid f.bars) (isShown : o.shown = true) (n : Nat) :
    o.series (f.cut n) = (o.series f).take n := by
  cases o with
  | value | close | open_ | high | low => exact List.map_take
  | vwap => exact sessionVwap_cut f n
  | dayOpen => exact dayOpen_cut f.bars n
  | orHigh | orLow => cases isShown
  | pdh | pdl | pdc => exact prevSession_cut grid _ _ n

/-- An opening range at a bar: what the bars so far say, once it is complete. -/
theorem openingRange_at (grid : OnGrid f.bars) {column : Bar → ℚ} (skips : Skips agg) {j : Nat}
    (inside : j < f.bars.length) :
    (openingRange f minutes column agg)[j]?.getD none
      = if complete f.bars (baseMinutes f.bars) minutes f.bars[j] then
          rangeLevel agg minutes column (f.bars.take (j + 1)) f.bars[j] else none := by
  have value : (openingRange f minutes column agg)[j]?.getD none
      = if complete f.bars (baseMinutes f.bars) minutes f.bars[j] then
          rangeLevel agg minutes column f.bars f.bars[j] else none := by
    unfold openingRange groupTransform rangeLevel
    rw [List.getElem?_zipWith, List.getElem?_map, List.getElem?_eq_getElem inside]
    rfl
  rw [value]
  split
  · rename_i done
    have ordered := grid.ordered
    have apart := grid.base_apart
    have mem : f.bars[j] ∈ f.bars.take (j + 1) := by
      rw [List.take_succ_eq_append_getElem inside]
      exact List.mem_append_right _ (List.mem_singleton_self _)
    have spaced : ∀ b' ∈ f.bars.drop (j + 1),
        f.bars[j].start + baseMinutes f.bars ≤ b'.start := by
      rw [← List.take_append_drop (j + 1) f.bars] at apart
      exact fun b' later => (List.pairwise_append.mp (by simpa using apart)).2.2 _ mem b' later
    have reached : complete (f.bars.take (j + 1) ++ f.bars.drop (j + 1)) (baseMinutes f.bars) minutes
        f.bars[j] = true := by
      rwa [List.take_append_drop]
    have same := rangeLevel_append column skips (by rwa [List.take_append_drop]) mem spaced reached
    rwa [List.take_append_drop] at same
  · rfl

/-- What an operand answers at a bar. -/
theorem Operand.series_at (o : Operand) (grid : OnGrid f.bars) {j : Nat} (inside : j < f.bars.length) :
    (o.series f)[j]?.getD none
      = if o.ready f.bars (baseMinutes f.bars) j then o.level f j else none := by
  have shown : ∀ o : Operand, o.shown = true →
      (o.series f)[j]?.getD none = (o.series (f.cut (j + 1)))[j]?.getD none := by
    intro o shown
    rw [Operand.series_cut grid shown, List.getElem?_take_of_lt (Nat.lt_succ_self j)]
  cases o with
  | orHigh period =>
    simp only [Operand.series, Operand.ready, Operand.level, List.getElem?_eq_getElem inside]
    exact openingRange_at grid maxValid_skips inside
  | orLow period =>
    simp only [Operand.series, Operand.ready, Operand.level, List.getElem?_eq_getElem inside]
    exact openingRange_at grid minValid_skips inside
  | value | close | open_ | high | low | vwap | dayOpen | pdh | pdl | pdc => exact shown _ rfl

/-- What an operand comes to at a bar does not depend on later bars. -/
theorem Operand.level_cut (o : Operand) (f : Frame) {j n : Nat} (le : j < n) :
    o.level (f.cut n) j = o.level f j := by
  have bars : (f.bars.take n).take (j + 1) = f.bars.take (j + 1) := by
    rw [List.take_take, Nat.min_eq_left le]
  have frames : (f.cut n).cut (j + 1) = f.cut (j + 1) := by
    unfold Frame.cut
    rw [bars]
  have entry : (f.cut n).bars[j]? = f.bars[j]? := List.getElem?_take_of_lt le
  unfold Operand.level
  simp only [frames, entry]
  unfold Frame.cut
  simp only [bars]

/-- Whether a range is complete depends on the bars so far and on how long a bar lasts. -/
theorem Operand.ready_cut (o : Operand) (grid : OnGrid bars) (base : Int) {j n : Nat} (le : j < n) :
    o.ready (bars.take n) base j = o.ready bars base j := by
  have entry : (bars.take n)[j]? = bars[j]? := List.getElem?_take_of_lt le
  have same : ∀ period, ((bars.take n)[j]?).all (complete (bars.take n) base period)
      = (bars[j]?).all (complete bars base period) := by
    intro period
    rw [entry]
    cases found : bars[j]? with
    | none => rfl
    | some b =>
      have mem : b ∈ bars.take n := List.mem_of_getElem? (entry.trans found)
      have ordered := grid.ordered
      rw [← List.take_append_drop n bars] at ordered
      have first := firstStart_append ordered mem
      rw [List.take_append_drop] at first
      simp only [Option.all_some, complete, first]
  cases o with
  | orHigh period => exact same period
  | orLow period => exact same period
  | value | close | open_ | high | low | vwap | dayOpen | pdh | pdl | pdc => rfl

end Series

variable (c : Condition)

namespace Condition

variable {f : Frame} {i : Nat}

/-- The comparison comes true at bar `i` on what the operands come to on the bars so far. -/
def Compares (c : Condition) (f : Frame) (i : Nat) : Prop :=
  c.holdsAt (c.left.level f i) (c.right.level f i) = true ∧
    (c.operator.needsPrior = true → 0 < i ∧
      c.crossesAt (c.left.level f (i - 1), c.right.level f (i - 1)) (c.left.level f i)
        (c.right.level f i) = true)

/-- Every opening range the condition reads at bar `i` is complete, when a bar lasts `base`. -/
def Ready (c : Condition) (bars : List Bar) (base : Int) (i : Nat) : Prop :=
  (c.left.ready bars base i = true ∧ c.right.ready bars base i = true) ∧
    (c.operator.needsPrior = true → 0 < i →
      c.left.ready bars base (i - 1) = true ∧ c.right.ready bars base (i - 1) = true)

theorem shift_at (series : List (Option ℚ)) {i : Nat} (inside : i < series.length) :
    (shift series)[i]? = some (if i = 0 then none else series[i - 1]?.getD none) := by
  unfold shift
  rw [List.getElem?_take_of_lt inside]
  cases i with
  | zero => rfl
  | succ i =>
    have before : i < series.length := by omega
    simp [before]

/-- Hidden values make a comparison fail. -/
theorem holdsAt_hidden (p q : Bool) (l r : Option ℚ) :
    c.holdsAt (if p then l else none) (if q then r else none) = true ↔
      (p = true ∧ q = true) ∧ c.holdsAt l r = true := by
  cases p <;> cases q <;> cases l <;> cases r <;> simp [holdsAt]

theorem crossesAt_hidden (p q p' q' : Bool) (lp rp l r : Option ℚ) :
    c.crossesAt (if p' then lp else none, if q' then rp else none)
        (if p then l else none) (if q then r else none) = true ↔
      ((p = true ∧ q = true) ∧ p' = true ∧ q' = true) ∧ c.crossesAt (lp, rp) l r = true := by
  cases p' <;> cases q' <;> cases lp <;> cases rp <;>
    simp [crossesAt, holdsAt_hidden, and_assoc, and_left_comm]

theorem holdsAt_of_crossesAt {c : Condition} {prior : Option ℚ × Option ℚ} {l r : Option ℚ}
    (crosses : c.crossesAt prior l r = true) : c.holdsAt l r = true := by
  obtain ⟨lp, rp⟩ := prior
  cases lp with
  | none => cases crosses
  | some lp =>
    cases rp with
    | none => cases crosses
    | some rp => exact ((Bool.and_eq_true _ _).mp crosses).2

/-- The series at a bar: the comparison of the bars so far, once the ranges are complete by the
spacing of the whole frame. -/
theorem holdsSeries_at (grid : OnGrid f.bars) (inside : i < f.bars.length) :
    (c.holdsSeries f)[i]? = some true ↔
      c.Ready f.bars (baseMinutes f.bars) i ∧ c.Compares f i := by
  have atL := c.left.series_at grid inside
  have atR := c.right.series_at grid inside
  have insideL : i < (c.left.series f).length := by simpa using inside
  have insideR : i < (c.right.series f).length := by simpa using inside
  have entryL : (c.left.series f)[i]? = some ((c.left.series f)[i]?.getD none) := by
    rw [List.getElem?_eq_getElem insideL]
    rfl
  have entryR : (c.right.series f)[i]? = some ((c.right.series f)[i]?.getD none) := by
    rw [List.getElem?_eq_getElem insideR]
    rfl
  unfold holdsSeries Ready Compares
  cases prior : c.operator.needsPrior with
  | false =>
    simp only [Bool.false_eq_true, if_false, false_implies, and_true]
    rw [List.getElem?_zipWith, entryL, entryR, atL, atR]
    simp only [Option.some.injEq]
    exact c.holdsAt_hidden _ _ _ _
  | true =>
    simp only [if_true, true_implies]
    rw [List.zip_eq_zipWith, List.zip_eq_zipWith, List.getElem?_zipWith, List.getElem?_zipWith,
      List.getElem?_zipWith,
      shift_at _ insideL, shift_at _ insideR, entryL, entryR, atL, atR]
    simp only [Option.some.injEq]
    cases i with
    | zero => simp [crossesAt]
    | succ i =>
      have before : i < f.bars.length := by omega
      simp only [Nat.succ_ne_zero, if_false, Nat.add_sub_cancel, Nat.succ_pos, true_implies,
        true_and, c.left.series_at grid before, c.right.series_at grid before]
      rw [crossesAt_hidden]
      constructor
      · rintro ⟨ready, crosses⟩
        exact ⟨ready, holdsAt_of_crossesAt crosses, crosses⟩
      · rintro ⟨ready, -, crosses⟩
        exact ⟨ready, crosses⟩

theorem answer_iff (l r : Option ℚ) : c.answer l r = (true, true) ↔ c.holdsAt l r = true := by
  cases l <;> cases r <;> simp [answer, holdsAt]

theorem crossAnswer_iff (l r lp rp : Option ℚ) :
    c.crossAnswer l r lp rp = (true, true) ↔ c.crossesAt (lp, rp) l r = true := by
  cases l <;> cases r <;> cases lp <;> cases rp <;> simp [crossAnswer, crossesAt, holdsAt]

/-- The live answer: the same comparison, once the ranges are complete by the spacing so far. -/
theorem evaluate_at (grid : OnGrid f.bars) (inside : i < f.bars.length) :
    c.evaluate (f.cut (i + 1)) = (true, true) ↔
      c.Ready f.bars (baseMinutes (f.bars.take (i + 1))) i ∧ c.Compares f i := by
  have length : (f.cut (i + 1)).bars.length = i + 1 := by
    simp only [Frame.cut, List.length_take]
    omega
  have gridCut : OnGrid (f.cut (i + 1)).bars := grid.take (i + 1)
  have read : ∀ (o : Operand) (j : Nat), j ≤ i → (o.series (f.cut (i + 1)))[j]?.getD none
      = if o.ready f.bars (baseMinutes (f.bars.take (i + 1))) j then o.level f j else none := by
    intro o j le
    rw [o.series_at gridCut (by omega), o.level_cut f (by omega)]
    exact congrArg (fun p => if p = true then o.level f j else none)
      (o.ready_cut grid _ (by omega))
  unfold evaluate Ready Compares
  dsimp only
  rw [length]
  cases prior : c.operator.needsPrior with
  | false =>
    simp only [Bool.false_eq_true, if_false, false_implies, and_true]
    rw [if_neg (by omega), answer_iff, read _ _ (by omega), read _ _ (by omega)]
    exact c.holdsAt_hidden _ _ _ _
  | true =>
    simp only [if_true, true_implies]
    cases i with
    | zero => simp
    | succ i =>
      rw [if_neg (by omega), crossAnswer_iff, read _ _ (by omega), read _ _ (by omega), read _ _ (by omega),
        read _ _ (by omega)]
      simp only [Nat.add_sub_cancel, Nat.succ_pos, true_implies, true_and,
        show i + 1 + 1 - 2 = i by omega]
      rw [crossesAt_hidden]
      constructor
      · rintro ⟨ready, crosses⟩
        exact ⟨ready, holdsAt_of_crossesAt crosses, crosses⟩
      · rintro ⟨ready, -, crosses⟩
        exact ⟨ready, crosses⟩

/-- The series and the live answer agree at a bar exactly when the comparison fails there, or both
spacings find the opening ranges complete, or neither does. -/
theorem holdsSeries_iff_evaluate (c : Condition) (f : Frame) (i : Nat) (grid : OnGrid f.bars)
    (inside : i < f.bars.length) :
    ((c.holdsSeries f)[i]? = some true ↔ c.evaluate (f.cut (i + 1)) = (true, true)) ↔
      (c.Compares f i →
        (c.Ready f.bars (baseMinutes f.bars) i ↔
          c.Ready f.bars (baseMinutes (f.bars.take (i + 1))) i)) := by
  rw [c.holdsSeries_at grid inside, c.evaluate_at grid inside]
  tauto

/-- A bar of the twenty-thousandth IST day. -/
def barAt (hour minute : Int) (price : ℚ) : Bar where
  start := 20000 * TriggerRules.dayUs - TriggerRules.istOffset + (hour * 60 + minute) * minuteUs
  open_ := price
  high := price + 1
  low := price - 1
  close := price
  volume := some 10

/-- Five-minute bars from the open, of which 09:20 and 09:30 are missing. -/
def gapped : Frame where
  bars := [barAt 9 15 100, barAt 9 25 101, barAt 9 35 104, barAt 9 40 103]
  hasVolume := true

theorem gapped_onGrid : OnGrid gapped.bars where
  ordered := by decide +kernel
  grid := ⟨5, 0, by decide, by decide +kernel⟩

/-- `CLOSE > OR_HIGH(minutes)`. -/
def closeAboveRange (minutes : Nat) : Condition where
  left := .close
  operator := .gt
  right := .orHigh minutes

/-- `CLOSE <= OR_HIGH(minutes)`. -/
def closeWithinRange (minutes : Nat) : Condition where
  left := .close
  operator := .lte
  right := .orHigh minutes

/-- At 09:35 the close is above the high of the first twenty minutes, in the series and live. -/
theorem gapped_agrees :
    ((closeAboveRange 20).holdsSeries gapped)[2]? = some true ∧
      ((((closeAboveRange 20).holdsSeries gapped)[2]? = some true ↔
          (closeAboveRange 20).evaluate (gapped.cut 3) = (true, true)) ↔
        ((closeAboveRange 20).Compares gapped 2 →
          ((closeAboveRange 20).Ready gapped.bars (baseMinutes gapped.bars) 2 ↔
            (closeAboveRange 20).Ready gapped.bars (baseMinutes (gapped.bars.take 3)) 2))) :=
  ⟨by decide +kernel, holdsSeries_iff_evaluate _ gapped 2 gapped_onGrid (by decide)⟩

/-- Two bars ten minutes apart make a bar last ten minutes: live, the twenty minutes are complete at
09:25, in the series only later. And a frame of one bar makes it last one minute. -/
theorem live_range_too_early :
    OnGrid gapped.bars ∧
      ¬ (((closeWithinRange 20).holdsSeries gapped)[1]? = some true ↔
        (closeWithinRange 20).evaluate (gapped.cut 2) = (true, true)) ∧
      ¬ (((closeWithinRange 5).holdsSeries gapped)[0]? = some true ↔
        (closeWithinRange 5).evaluate (gapped.cut 1) = (true, true)) :=
  ⟨gapped_onGrid, by decide +kernel, by decide +kernel⟩

end Condition

end AdvanceTrading.StrategyEngine
