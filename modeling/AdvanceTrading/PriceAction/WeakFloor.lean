import AdvanceTrading.Misc.Folds
import AdvanceTrading.Misc.Recent
import AdvanceTrading.PriceAction.StructureInvariant

/-!
# The floor of a weak trend

`_weak_bookkeeping`, `_min_low_before` and the trigger of `_step_weak` of
`app/price_action/structure_tracker.py`, over whole runs. The floor is kept as the
bars settle, `spike_return_bars` after their own; a bar on which `on_bar` returns
early (no positive reference range) takes nothing in, and the bar it would have
taken in is never counted.
-/

namespace AdvanceTrading.StructureTracker

open Tracker

/-! ## The bars that count -/

/-- The ranges of the full bars. -/
def rangesOf (bars : List Bar) : List ℚ := (bars.filter Bar.full).map fun bar => bar.high - bar.low

/-- `on_bar` returns early on bar `j`: there is no positive reference range. -/
def skips (cfg : Config) (bars : List Bar) (j : Nat) : Bool :=
  (refRangeFromRanges (rangesOf (bars.take (j + 1))) cfg.refRangeBars cfg.refRangeMinBars).getD 0 ≤ 0

/-- The settled bars from `choch` on whose settling bar was not skipped. -/
def takenIn (cfg : Config) (bars : List Bar) (choch : Nat) : List Nat :=
  (List.range' choch (bars.length - cfg.spikeReturnBars - choch)).filter fun k =>
    !skips cfg bars (k + cfg.spikeReturnBars)

namespace Tracker

/-- A signed low, with a spike's body edge once it is settled. -/
def lowOf (m : Tracker) (s : Direction) (k : Nat) : ℚ := ((m.weakLows s)[k]?).getD 0

/-- `min(lows[choch:t])`. -/
def naiveLow (m : Tracker) (s : Direction) (choch t : Nat) : Option ℚ :=
  (slice choch t (m.weakLows s)).min?

/-- A weak trend before its trigger: after a bar's new swings, neither recovered nor turned. -/
def weakAfter (cfg : Config) (t : Nat) (m : Tracker) (new : List (Status × Swing)) :
    Option (Tracker × Direction × Nat) :=
  match m.state, m.ext, m.prot, m.s, m.weakExt, m.chochIdx with
  | .trend _ .weak, some _, some _, some s, some weakExt, some choch =>
      match m.weakBookkeeping cfg t s with
      | .error _ => none
      | .ok m =>
          if weakExt < m.signedClose s t then none
          else
            match weakSwings cfg t s weakExt choch m new with
            | .ok (m, false) => some (m, s, choch)
            | _ => none
  | _, _, _, _, _, _ => none

/-- The tracker on which a bar's close is judged against the floor, if it comes to that. -/
def judged (cfg : Config) (m : Tracker) (bar : Bar) : Option (Tracker × Direction × Nat) :=
  let t := m.bars.length
  let m := m.push cfg bar
  if m.refRange ≤ 0 then none
  else
    match takePivot cfg t .high (m.settleSpikes cfg t, []) >>= takePivot cfg t .low with
    | .error _ => none
    | .ok (m, new) => weakAfter cfg t m new

/-- The minimum kept after `_weak_bookkeeping` on bar `t`, from the one before. -/
def booked (cfg : Config) (m : Tracker) (t : Nat) (s : Direction) (choch : Nat) (least : Option ℚ) :
    Option ℚ :=
  if choch + cfg.spikeReturnBars ≤ t then RunningMin.takeIn least (m.lowOf s (t - cfg.spikeReturnBars))
  else least

end Tracker

/-! ## What a step leaves -/

/-- The recorded bars are the same. -/
structure SameBars (m m' : Tracker) : Prop where
  bars : m'.bars = m.bars
  ranges : m'.ranges = m.ranges
  effLo : m'.effLo = m.effLo
  effHi : m'.effHi = m.effHi

/-- So are the fields that the floor of a weak trend is read from. -/
structure SameFloor (m m' : Tracker) : Prop extends SameBars m m' where
  state : m'.state = m.state
  s : m'.s = m.s
  chochIdx : m'.chochIdx = m.chochIdx
  settled : m'.weakMinSettled = m.weakMinSettled

theorem SameBars.refl (m : Tracker) : SameBars m m := ⟨rfl, rfl, rfl, rfl⟩

theorem SameBars.trans {m m' m'' : Tracker} (first : SameBars m m') (second : SameBars m' m'') :
    SameBars m m'' where
  bars := second.bars.trans first.bars
  ranges := second.ranges.trans first.ranges
  effLo := second.effLo.trans first.effLo
  effHi := second.effHi.trans first.effHi

theorem SameFloor.refl (m : Tracker) : SameFloor m m := ⟨.refl m, rfl, rfl, rfl, rfl⟩

theorem SameFloor.trans {m m' m'' : Tracker} (first : SameFloor m m') (second : SameFloor m' m'') :
    SameFloor m m'' where
  toSameBars := first.toSameBars.trans second.toSameBars
  state := second.state.trans first.state
  s := second.s.trans first.s
  chochIdx := second.chochIdx.trans first.chochIdx
  settled := second.settled.trans first.settled

theorem SameBars.weakLows {m m' : Tracker} (same : SameBars m m') (s : Direction) :
    m'.weakLows s = m.weakLows s := by
  cases s with
  | up => exact same.effLo
  | down => exact congrArg (List.map fun x => -x) same.effHi

theorem SameBars.lowOf {m m' : Tracker} (same : SameBars m m') (s : Direction) (k : Nat) :
    m'.lowOf s k = m.lowOf s k := by
  unfold Tracker.lowOf
  rw [same.weakLows]

/-- What a bar's step may do: no weak trend is left, one begins on the bar, or one goes on. -/
inductive Outcome (cfg : Config) (t : Nat) (m m' : Tracker) : Prop where
  | other (notWeak : ∀ s, m'.state ≠ .trend s .weak)
  | begins {s : Direction} (isWeak : m'.state = .trend s .weak) (isS : m'.s = some s)
      (isChoch : m'.chochIdx = some t) (settled : m'.weakMinSettled = m.booked cfg t s t none)
  | goesOn {s : Direction} {choch : Nat} (isState : m'.state = m.state) (isS : m.s = some s)
      (isS' : m'.s = some s) (isChoch : m.chochIdx = some choch) (isChoch' : m'.chochIdx = some choch)
      (settled : m'.weakMinSettled = m.booked cfg t s choch m.weakMinSettled)

variable {s : Direction} {new : List (Status × Swing)} {choch : Nat}

namespace Tracker

variable {cfg : Config} {t : Nat} {m m' : Tracker}

theorem notWeak_of_base {s' : Direction} (isBase : m'.state = .trend s' .base) :
    ∀ s, m'.state ≠ .trend s .weak := by
  intro s isWeak
  rw [isBase] at isWeak
  cases isWeak

theorem notWeak_of_range (isRange : m'.state = .range) : ∀ s, m'.state ≠ .trend s .weak := by
  intro s isWeak
  rw [isRange] at isWeak
  cases isWeak

/-- The folding of a bar, once the bar of the change of character is known. -/
theorem weakBookkeeping_eq (isChoch : m.chochIdx = some choch) :
    m.weakBookkeeping cfg t s
      = .ok { m with weakMinSettled := m.booked cfg t s choch m.weakMinSettled } := by
  unfold weakBookkeeping booked
  simp only [isChoch]
  split
  · rfl
  · rw [← isChoch]

theorem sameBars_setState (m : Tracker) (t : Nat) (state : State) (type : EventType) (price : ℚ)
    (more : Change) : SameBars m (m.setState t state type price more) ∧
      (m.setState t state type price more).state = state := by
  obtain ⟨events, changes, set⟩ := setState_eq m t state type price more
  rw [set]
  exact ⟨⟨rfl, rfl, rfl, rfl⟩, rfl⟩

theorem toOpposite_turns {trigger : Nat} (turns : m.toOpposite t s trigger = .ok m') :
    SameBars m m' ∧ ∃ s', m'.state = .trend s' .base := by
  unfold toOpposite at turns
  split at turns
  · rename_i choch lh isChoch isLh
    obtain ⟨floor, -, is⟩ := bind_eq_ok turns
    cases is
    obtain ⟨same, isState⟩ := sameBars_setState (m.turned t s trigger floor lh) t
      (.trend s.opposite .base) .reversalConfirmed (s.signed floor)
      (.reversal (m.barEnd trigger) trigger lh.price)
    exact ⟨⟨same.bars, same.ranges, same.effLo, same.effHi⟩, _, isState⟩
  · cases turns

theorem weakSwings_leaves {weakExt : ℚ} {turned : Bool}
    (ran : weakSwings cfg t s weakExt choch m new = .ok (m', turned)) :
    SameBars m m' ∧ (turned = true → ∃ s', m'.state = .trend s' .base) ∧
      (turned = false → SameFloor m m') := by
  induction new generalizing m with
  | nil =>
    cases ran
    exact ⟨.refl _, (fun no => by cases no), fun _ => .refl _⟩
  | cons entry rest ih =>
    obtain ⟨status, sw⟩ := entry
    have after {m₁ : Tracker} (ran : weakSwings cfg t s weakExt choch m₁ rest = .ok (m', turned))
        (same : SameFloor m m₁) :
        SameBars m m' ∧ (turned = true → ∃ s', m'.state = .trend s' .base) ∧
          (turned = false → SameFloor m m') := by
      obtain ⟨bars, turns, floor⟩ := ih ran
      exact ⟨same.toSameBars.trans bars, turns, fun no => same.trans (floor no)⟩
    unfold weakSwings at ran
    split at ran
    · exact after ran (.refl m)
    · dsimp only at ran
      split at ran
      · obtain ⟨caught, -, rest_⟩ := bind_eq_ok ran
        cases caught with
        | none =>
          dsimp only at rest_
          exact after rest_ ⟨⟨rfl, rfl, rfl, rfl⟩, rfl, rfl, rfl, rfl⟩
        | some k =>
          obtain ⟨m₁, turns, is⟩ := bind_eq_ok rest_
          cases is
          obtain ⟨same, isBase⟩ := toOpposite_turns turns
          exact ⟨⟨same.bars, same.ranges, same.effLo, same.effHi⟩, fun _ => isBase, fun no => by cases no⟩
      · exact after ran ⟨⟨rfl, rfl, rfl, rfl⟩, rfl, rfl, rfl, rfl⟩

theorem decideWeak_leaves (ran : m.decideWeak cfg t s choch = .ok m') :
    SameFloor m m' ∨ SameBars m m' ∧ ∀ s, m'.state ≠ .trend s .weak := by
  unfold decideWeak at ran
  obtain ⟨falls, -, ran⟩ := bind_eq_ok ran
  split at ran
  · obtain ⟨same, s', isBase⟩ := toOpposite_turns ran
    exact .inr ⟨same, notWeak_of_base isBase⟩
  · split at ran
    · obtain ⟨⟨hi, lo⟩, -, is⟩ := bind_eq_ok ran
      cases is
      obtain ⟨same, isRange⟩ := sameBars_setState { m with rangeHi := some hi, rangeLo := some lo } t
        .range .rangeStart (m.close t) (.rangeOf hi lo)
      exact .inr ⟨⟨same.bars, same.ranges, same.effLo, same.effHi⟩, notWeak_of_range isRange⟩
    · cases ran
      exact .inl (.refl _)

theorem stepWeak_outcome (isS : m.s = some s) (ran : m.stepWeak cfg t s new = .ok m') :
    SameBars m m' ∧ Outcome cfg t m m' := by
  unfold stepWeak at ran
  split at ran
  · rename_i weakExt choch isWeakExt isChoch
    rw [weakBookkeeping_eq isChoch, ok_bind] at ran
    split at ran
    · obtain ⟨floor, -, is⟩ := bind_eq_ok ran
      cases is
      obtain ⟨same, isBase⟩ := sameBars_setState
        (recovered { m with weakMinSettled := m.booked cfg t s choch m.weakMinSettled } t s weakExt floor)
        t (.trend s .base) .recovery (s.signed (m.signedClose s t)) (.recoveredAbove (s.signed weakExt))
      exact ⟨⟨same.bars, same.ranges, same.effLo, same.effHi⟩, .other (notWeak_of_base isBase)⟩
    · obtain ⟨⟨m₁, turned⟩, swung, ran⟩ := bind_eq_ok ran
      obtain ⟨bars, turns, floor⟩ := weakSwings_leaves swung
      have bars₁ : SameBars m m₁ := ⟨bars.bars, bars.ranges, bars.effLo, bars.effHi⟩
      cases turned with
      | true =>
        cases ran
        obtain ⟨s', isBase⟩ := turns rfl
        exact ⟨bars₁, .other (notWeak_of_base isBase)⟩
      | false =>
        have kept := floor rfl
        rcases decideWeak_leaves ran with same | ⟨same, notWeak⟩
        · have kept' := kept.trans same
          refine ⟨bars₁.trans same.toSameBars, .goesOn kept'.state isS ?_ isChoch ?_ kept'.settled⟩
          · exact kept'.s.trans isS
          · exact kept'.chochIdx.trans isChoch
        · exact ⟨bars₁.trans same, .other notWeak⟩
  · cases ran

theorem breakProtected_outcome {ext prot : ℚ} (isS : m.s = some s)
    (ran : m.breakProtected cfg t s ext prot = .ok m') : SameBars m m' ∧ Outcome cfg t m m' := by
  unfold breakProtected at ran
  obtain ⟨events, changes, set⟩ := setState_eq (m.weakened t ext) t (.trend s .weak) .choch
    (s.signed prot) (.protectedBroken (s.signed prot))
  have isChoch : ({ m.weakened t ext with
      state := .trend s .weak, events := events, changes := changes } : Tracker).chochIdx = some t := rfl
  rw [set, weakBookkeeping_eq isChoch] at ran
  cases ran
  exact ⟨⟨rfl, rfl, rfl, rfl⟩, .begins rfl isS rfl rfl⟩

theorem stepTrend_outcome {prevExt prot : ℚ} (isS : m.s = some s)
    (inTrend : m.state = .trend s .base ∨ m.state = .trend s .pullback)
    (ran : m.stepTrend cfg t s prevExt prot new = .ok m') : SameBars m m' ∧ Outcome cfg t m m' := by
  unfold stepTrend at ran
  dsimp only at ran
  generalize new.foldl (Levels.follow s (m.tol cfg.eqTol)) ⟨prot, m.lastSh, m.lastShBroken⟩ = levels
    at ran
  generalize max prevExt (m.signedHigh s t) = ext at ran
  split at ran
  · obtain ⟨same, outcome⟩ := breakProtected_outcome (m := m.withLevels ext levels) isS ran
    refine ⟨⟨same.bars, same.ranges, same.effLo, same.effHi⟩, ?_⟩
    cases outcome with
    | other notWeak => exact .other notWeak
    | begins isWeak isS isChoch settled => exact .begins isWeak isS isChoch settled
    | goesOn isState isS isS' isChoch isChoch' settled =>
      exact .goesOn isState isS isS' isChoch isChoch' settled
  · obtain ⟨state, broken, events, changes, within, kept⟩ :=
      withinTrend_eq cfg (m.withLevels ext levels) t s prevExt ext
    rw [within] at ran
    cases ran
    refine ⟨⟨rfl, rfl, rfl, rfl⟩, .other ?_⟩
    have isState : state = .trend s .base ∨ state = .trend s .pullback := by
      rcases kept with same | kept
      · rw [same]
        exact inTrend
      · exact kept
    intro s' isWeak
    rcases isState with rfl | rfl <;> cases isWeak

theorem firstTrend_leaves {prot top : Swing} (ran : m.firstTrend t s prot top = .ok m') :
    SameBars m m' ∧ ∀ s, m'.state ≠ .trend s .weak := by
  unfold firstTrend at ran
  obtain ⟨ext, -, is⟩ := bind_eq_ok ran
  cases is
  obtain ⟨same, isBase⟩ := sameBars_setState { m with
    s := some s
    prot := some (s.signed prot.price)
    ext := some ext
    lastSh := some (s.signed top.price, some top.idx)
    lastShBroken := false } t (.trend s .base) .initTrend (m.close t) .plain
  exact ⟨⟨same.bars, same.ranges, same.effLo, same.effHi⟩, notWeak_of_base isBase⟩

theorem firstRange_leaves (ran : m.firstRange cfg t = .ok m') :
    SameBars m m' ∧ ∀ s, m'.state ≠ .trend s .weak := by
  unfold firstRange at ran
  obtain ⟨⟨hi, lo⟩, -, is⟩ := bind_eq_ok ran
  cases is
  obtain ⟨same, isRange⟩ := sameBars_setState { m with rangeHi := some hi, rangeLo := some lo } t
    .range .initRange (m.close t) (.rangeOf hi lo)
  exact ⟨⟨same.bars, same.ranges, same.effLo, same.effHi⟩, notWeak_of_range isRange⟩

theorem tryInit_leaves (isInit : m.state = .init) (ran : m.tryInit cfg t = .ok m') :
    SameBars m m' ∧ ∀ s, m'.state ≠ .trend s .weak := by
  have unmoved : SameBars m m ∧ ∀ s, m.state ≠ .trend s .weak := by
    refine ⟨.refl m, fun s isWeak => ?_⟩
    rw [isInit] at isWeak
    cases isWeak
  unfold tryInit at ran
  split at ran
  · cases ran
    exact unmoved
  · dsimp only at ran
    split at ran
    · split at ran
      · exact firstTrend_leaves ran
      · exact firstTrend_leaves ran
      · exact firstRange_leaves ran
    · cases ran
      exact unmoved

theorem widen_leaves (ran : widen cfg m new = .ok m') : SameBars m m' ∧ m'.state = m.state := by
  induction new generalizing m with
  | nil =>
    cases ran
    exact ⟨.refl _, rfl⟩
  | cons entry rest ih =>
    unfold widen at ran
    obtain ⟨⟨hi, lo⟩, -, ran⟩ := bind_eq_ok ran
    obtain ⟨same, isState⟩ := ih ran
    exact ⟨⟨same.bars, same.ranges, same.effLo, same.effHi⟩, isState⟩

theorem enterTrend_leaves (m : Tracker) (t : Nat) (s : Direction) (protPrice : ℚ) (type : EventType) :
    SameBars m (m.enterTrend t s protPrice type) ∧
      ∀ s', (m.enterTrend t s protPrice type).state ≠ .trend s' .weak := by
  obtain ⟨events, changes, set⟩ := setState_eq { m with
    s := some s
    prot := some (s.signed protPrice)
    ext := some (m.signedHigh s t)
    lastSh := (lastOf s.highKind m.swings).map fun sw : Swing => (s.signed sw.price, some sw.idx)
    lastShBroken := true } t (.trend s .base) type (m.close t) .plain
  unfold enterTrend
  rw [set]
  exact ⟨⟨rfl, rfl, rfl, rfl⟩, notWeak_of_base rfl⟩

theorem stepRange_leaves (inRange : m.state = .range) (ran : m.stepRange cfg t new = .ok m') :
    SameBars m m' ∧ ∀ s, m'.state ≠ .trend s .weak := by
  unfold stepRange at ran
  obtain ⟨m₁, widened, ran⟩ := bind_eq_ok ran
  obtain ⟨same, isState⟩ := widen_leaves widened
  have enters (s : Direction) (protPrice : ℚ) (type : EventType) :
      SameBars m (m₁.enterTrend t s protPrice type) ∧
        ∀ s', (m₁.enterTrend t s protPrice type).state ≠ .trend s' .weak := by
    obtain ⟨same', notWeak⟩ := enterTrend_leaves m₁ t s protPrice type
    exact ⟨same.trans same', notWeak⟩
  split at ran
  · dsimp only at ran
    split at ran
    · cases ran
      exact enters _ _ _
    · cases ran
      exact enters _ _ _
    · cases ran
      exact ⟨same, notWeak_of_range (isState.trans inRange)⟩
  · cases ran

/-- A step of the state keeps the recorded bars, and has one of the outcomes. -/
theorem step_outcome (ran : m.step cfg t new = .ok m') : SameBars m m' ∧ Outcome cfg t m m' := by
  unfold step at ran
  cases isState : m.state with
  | init =>
    rw [isState] at ran
    obtain ⟨same, notWeak⟩ := tryInit_leaves isState ran
    exact ⟨same, .other notWeak⟩
  | range =>
    rw [isState] at ran
    obtain ⟨same, notWeak⟩ := stepRange_leaves isState ran
    exact ⟨same, .other notWeak⟩
  | trend s phase =>
    rw [isState] at ran
    dsimp only at ran
    split at ran
    · rename_i ext prot s' isExt isProt isS
      split at ran
      · rename_i inTrend
        exact stepTrend_outcome isS (by rw [isState]; exact inTrend) ran
      · exact stepWeak_outcome isS ran
    · cases ran
    · cases ran

/-! ## Bars -/

theorem takePivot_leaves {kind : Kind} {new' : List (Status × Swing)}
    (took : takePivot cfg t kind (m, new) = .ok (m', new')) : SameFloor m m' := by
  unfold takePivot at took
  dsimp only at took
  split at took
  · cases took
    exact .refl _
  · obtain ⟨isPivot, -, took⟩ := bind_eq_ok took
    cases isPivot with
    | false =>
      cases took
      exact .refl _
    | true =>
      rcases addPivot_cases cfg m (t - m.radius cfg) kind t with ignored | ⟨status, sw, before, added, -⟩
      · rw [ignored] at took
        cases took
        exact .refl _
      · rw [added] at took
        cases took
        exact ⟨⟨rfl, rfl, rfl, rfl⟩, rfl, rfl, rfl, rfl⟩

/-- Settling touches the bar that has just settled alone. -/
theorem settleSpikes_leaves (cfg : Config) (m : Tracker) (t : Nat) : ∃ effLo effHi,
    m.settleSpikes cfg t = { m with effLo := effLo, effHi := effHi } ∧
      effLo.length = m.effLo.length ∧ effHi.length = m.effHi.length ∧
      ∀ k, k + cfg.spikeReturnBars ≠ t → effLo[k]? = m.effLo[k]? ∧ effHi[k]? = m.effHi[k]? := by
  unfold settleSpikes
  split
  · exact ⟨_, _, rfl, rfl, rfl, fun k _ => ⟨rfl, rfl⟩⟩
  · rename_i settles
    have elsewhere (xs : List ℚ) (x : ℚ) (k : Nat) (other : k + cfg.spikeReturnBars ≠ t) :
        (xs.set (t - cfg.spikeReturnBars) x)[k]? = xs[k]? := List.getElem?_set_ne (by omega)
    dsimp only
    split
    · exact ⟨_, m.effHi, rfl, List.length_set, rfl, fun k other => ⟨elsewhere _ _ k other, rfl⟩⟩
    · exact ⟨m.effLo, _, rfl, rfl, List.length_set, fun k other => ⟨rfl, elsewhere _ _ k other⟩⟩
    · exact ⟨_, _, rfl, rfl, rfl, fun k _ => ⟨rfl, rfl⟩⟩

end Tracker

/-! ## What is taken in -/

section TakenIn

variable {cfg : Config} {bars : List Bar} {bar : Bar} {choch k : Nat}

theorem skips_append (inside : k < bars.length) : skips cfg (bars ++ [bar]) k = skips cfg bars k := by
  unfold skips
  rw [List.take_append_of_le_length (by omega)]

theorem rangesOf_snoc (bars : List Bar) (bar : Bar) : rangesOf (bars ++ [bar])
    = if bar.full then rangesOf bars ++ [bar.high - bar.low] else rangesOf bars := by
  unfold rangesOf
  rw [List.filter_append, List.map_append]
  cases isFull : bar.full <;> simp [isFull]

theorem mem_takenIn : k ∈ takenIn cfg bars choch ↔ choch ≤ k ∧ k + cfg.spikeReturnBars < bars.length ∧
    skips cfg bars (k + cfg.spikeReturnBars) = false := by
  unfold takenIn
  rw [List.mem_filter, List.mem_range'_1]
  cases skips cfg bars (k + cfg.spikeReturnBars) with
  | true => simp
  | false =>
    simp only [Bool.not_false, and_true]
    omega

/-- One more bar takes in the one that it settles, unless it is skipped. -/
theorem takenIn_snoc : takenIn cfg (bars ++ [bar]) choch = takenIn cfg bars choch ++
    if choch + cfg.spikeReturnBars ≤ bars.length ∧ skips cfg (bars ++ [bar]) bars.length = false
    then [bars.length - cfg.spikeReturnBars] else [] := by
  have before : (List.range' choch (bars.length - cfg.spikeReturnBars - choch)).filter
      (fun k => !skips cfg (bars ++ [bar]) (k + cfg.spikeReturnBars)) = takenIn cfg bars choch := by
    unfold takenIn
    apply List.filter_congr
    intro k mem
    have bounds := List.mem_range'_1.mp mem
    rw [skips_append (by omega)]
  unfold takenIn at before ⊢
  rw [List.length_append, List.length_singleton]
  by_cases settles : choch + cfg.spikeReturnBars ≤ bars.length
  · have more : bars.length + 1 - cfg.spikeReturnBars - choch
        = (bars.length - cfg.spikeReturnBars - choch) + 1 := by omega
    have last : choch + 1 * (bars.length - cfg.spikeReturnBars - choch)
        = bars.length - cfg.spikeReturnBars := by omega
    have own : bars.length - cfg.spikeReturnBars + cfg.spikeReturnBars = bars.length := by omega
    rw [more, List.range'_concat, List.filter_append, before, last]
    congr 1
    cases isSkipped : skips cfg (bars ++ [bar]) bars.length <;> simp [own, isSkipped, settles]
  · have none_ : bars.length + 1 - cfg.spikeReturnBars - choch
        = bars.length - cfg.spikeReturnBars - choch := by omega
    rw [none_, before, if_neg (fun both => settles both.1), List.append_nil]

end TakenIn

/-! ## The invariant -/

/-- The kept minimum of a weak trend is that of the bars that were taken in. -/
structure Tally (cfg : Config) (bars : List Bar) (m : Tracker) : Prop where
  recorded : m.bars = bars
  ranges : m.ranges = rangesOf bars
  lows : m.effLo.length = bars.length
  highs : m.effHi.length = bars.length
  weak : ∀ s, m.state = .trend s .weak → m.s = some s ∧ ∃ choch, m.chochIdx = some choch ∧
    choch < bars.length ∧ m.weakMinSettled = ((takenIn cfg bars choch).map (m.lowOf s)).min?

section Runs

variable {cfg : Config} {bars : List Bar} {bar : Bar} {m m' : Tracker}

theorem length_push (bar : Bar) (tally : Tally cfg bars m) : (m.push cfg bar).bars = bars ++ [bar] ∧
    (m.push cfg bar).ranges = rangesOf (bars ++ [bar]) ∧
    (m.push cfg bar).effLo.length = bars.length + 1 ∧
    (m.push cfg bar).effHi.length = bars.length + 1 := by
  refine ⟨?_, ?_, ?_, ?_⟩
  · exact congrArg (· ++ [bar]) tally.recorded
  · rw [rangesOf_snoc, ← tally.ranges]
    rfl
  · rw [← tally.lows]
    exact List.length_append
  · rw [← tally.highs]
    exact List.length_append

theorem lowOf_push (bar : Bar) (tally : Tally cfg bars m) (s : Direction) {k : Nat}
    (inside : k < bars.length) : (m.push cfg bar).lowOf s k = m.lowOf s k := by
  have lows : k < m.effLo.length := tally.lows ▸ inside
  have highs : k < m.effHi.length := tally.highs ▸ inside
  cases s with
  | up =>
    show ((m.effLo ++ [bar.low])[k]?).getD 0 = (m.effLo[k]?).getD 0
    rw [List.getElem?_append_left lows]
  | down =>
    show (((m.effHi ++ [bar.high]).map fun x => -x)[k]?).getD 0 = ((m.effHi.map fun x => -x)[k]?).getD 0
    rw [List.getElem?_map, List.getElem?_map, List.getElem?_append_left highs]

/-- `on_bar` returns early when the prefix up to the bar says so. -/
theorem refRange_push (bar : Bar) (tally : Tally cfg bars m) :
    (m.push cfg bar).refRange ≤ 0 ↔ skips cfg (bars ++ [bar]) bars.length = true := by
  have ranges := (length_push bar tally).2.1
  unfold skips
  rw [List.take_of_length_le (by simp), ← ranges]
  exact decide_eq_true_iff.symm

/-- The bars that were taken in keep their lows. -/
theorem map_lowOf (same : ∀ k, k + cfg.spikeReturnBars < bars.length → m'.lowOf s k = m.lowOf s k) :
    (takenIn cfg bars choch).map (m'.lowOf s) = (takenIn cfg bars choch).map (m.lowOf s) := by
  apply List.map_congr_left
  intro k mem
  exact same k (mem_takenIn.mp mem).2.1

/-- A bar that is not skipped takes in the bar that it settles. -/
theorem min?_takenIn (acts : skips cfg (bars ++ [bar]) bars.length = false)
    (same : ∀ k, k + cfg.spikeReturnBars < bars.length → m'.lowOf s k = m.lowOf s k) :
    ((takenIn cfg (bars ++ [bar]) choch).map (m'.lowOf s)).min?
      = m'.booked cfg bars.length s choch ((takenIn cfg bars choch).map (m.lowOf s)).min? := by
  rw [takenIn_snoc, List.map_append, map_lowOf same]
  unfold booked
  by_cases settles : choch + cfg.spikeReturnBars ≤ bars.length
  · rw [if_pos (And.intro settles acts), if_pos settles, List.map_singleton, RunningMin.min?_snoc]
  · rw [if_neg (fun both => settles (And.left both)), if_neg settles, List.map_nil, List.append_nil]

/-- Nothing has been taken in on the bar of the change of character itself. -/
theorem takenIn_start (cfg : Config) (bars : List Bar) : takenIn cfg bars bars.length = [] := by
  unfold takenIn
  rw [show bars.length - cfg.spikeReturnBars - bars.length = 0 by omega, List.range'_zero,
    List.filter_nil]

theorem booked_congr (same : SameBars m m') (t : Nat) (s : Direction) (choch : Nat)
    (least : Option ℚ) : m'.booked cfg t s choch least = m.booked cfg t s choch least := by
  unfold booked
  rw [same.lowOf]

/-- A tracker of a bar that is not skipped, before the step of its state: the bar is recorded, and only
the bar that it settles has another low. -/
structure Ready (cfg : Config) (bars : List Bar) (bar : Bar) (m m' : Tracker) : Prop where
  recorded : m'.bars = bars ++ [bar]
  ranges : m'.ranges = rangesOf (bars ++ [bar])
  lows : m'.effLo.length = bars.length + 1
  highs : m'.effHi.length = bars.length + 1
  state : m'.state = m.state
  s : m'.s = m.s
  chochIdx : m'.chochIdx = m.chochIdx
  settled : m'.weakMinSettled = m.weakMinSettled
  elsewhere : ∀ s k, k + cfg.spikeReturnBars < bars.length → m'.lowOf s k = m.lowOf s k

theorem ready (tally : Tally cfg bars m) {m₂ : Tracker}
    (took : (takePivot cfg bars.length .high ((m.push cfg bar).settleSpikes cfg bars.length, []) >>=
      takePivot cfg bars.length .low) = .ok (m₂, new)) :
    Ready cfg bars bar m m₂ := by
  obtain ⟨recorded, ranges, lows, highs⟩ := length_push bar tally
  obtain ⟨effLo, effHi, settled, sameLows, sameHighs, elsewhere⟩ :=
    settleSpikes_leaves cfg (m.push cfg bar) bars.length
  rw [settled] at took
  obtain ⟨⟨m₁, new₁⟩, took₁, took₂⟩ := bind_eq_ok took
  have same := (takePivot_leaves took₁).trans (takePivot_leaves took₂)
  have lowOf (s : Direction) (k : Nat) (before : k + cfg.spikeReturnBars < bars.length) :
      m₂.lowOf s k = m.lowOf s k := by
    rw [same.toSameBars.lowOf, ← lowOf_push bar tally s (by omega)]
    obtain ⟨sameLow, sameHigh⟩ := elsewhere k (by omega)
    cases s with
    | up =>
      show (effLo[k]?).getD 0 = ((m.push cfg bar).effLo[k]?).getD 0
      rw [sameLow]
    | down =>
      show ((effHi.map fun x => -x)[k]?).getD 0 = (((m.push cfg bar).effHi.map fun x => -x)[k]?).getD 0
      rw [List.getElem?_map, List.getElem?_map, sameHigh]
  exact ⟨same.bars.trans recorded, same.ranges.trans ranges,
    (congrArg List.length same.effLo).trans (sameLows.trans lows),
    (congrArg List.length same.effHi).trans (sameHighs.trans highs),
    same.state, same.s, same.chochIdx, same.settled, lowOf⟩

/-- Booking the bar keeps the minimum that of the bars taken in. -/
theorem Ready.booked_eq {m₂ m₃ : Tracker} (ready : Ready cfg bars bar m m₂) (same : SameBars m₂ m₃)
    (acts : skips cfg (bars ++ [bar]) bars.length = false) (s : Direction) (choch : Nat) :
    m₂.booked cfg bars.length s choch ((takenIn cfg bars choch).map (m.lowOf s)).min?
      = ((takenIn cfg (bars ++ [bar]) choch).map (m₃.lowOf s)).min? := by
  rw [min?_takenIn (m := m) acts fun k before => (same.lowOf s k).trans (ready.elsewhere s k before),
    booked_congr same]

/-- Every bar keeps the invariant, also one that is skipped. -/
theorem onBar_tally (tally : Tally cfg bars m) (took : m.onBar cfg bar = .ok m') :
    Tally cfg (bars ++ [bar]) m' := by
  obtain ⟨recorded, ranges, lows, highs⟩ := length_push bar tally
  have more : (bars ++ [bar]).length = bars.length + 1 := by simp
  unfold onBar at took
  dsimp only at took
  rw [tally.recorded] at took
  split at took
  · -- skipped: nothing is taken in, and the bar that would settle never will be
    rename_i notPositive
    have isSkipped := (refRange_push bar tally).mp notPositive
    cases took
    refine ⟨recorded, ranges, lows.trans more.symm, highs.trans more.symm, ?_⟩
    intro s isWeak
    obtain ⟨isS, choch, isChoch, before, settled⟩ := tally.weak s isWeak
    refine ⟨isS, choch, isChoch, by omega, ?_⟩
    rw [takenIn_snoc, if_neg (fun both => by rw [isSkipped] at both; cases both.2), List.append_nil,
      map_lowOf fun k inside => lowOf_push _ tally s (by omega)]
    exact settled
  · rename_i positive
    have acts : skips cfg (bars ++ [bar]) bars.length = false :=
      Bool.eq_false_iff.mpr fun isSkipped => positive ((refRange_push _ tally).mpr isSkipped)
    rw [← bind_assoc] at took
    obtain ⟨⟨m₂, new⟩, took₂, took⟩ := bind_eq_ok took
    obtain ⟨m₃, stepped, is⟩ := bind_eq_ok took
    have ready := ready tally took₂
    obtain ⟨same, outcome⟩ := step_outcome stepped
    obtain ⟨swept, events, swept_⟩ := detectSweeps_eq bars.length m₃
    rw [swept_] at is
    cases is
    refine ⟨same.bars.trans ready.recorded, same.ranges.trans ready.ranges, ?_, ?_, ?_⟩
    · exact (congrArg List.length same.effLo).trans (ready.lows.trans more.symm)
    · exact (congrArg List.length same.effHi).trans (ready.highs.trans more.symm)
    intro s isWeak
    have isWeak : m₃.state = .trend s .weak := isWeak
    cases outcome with
    | other notWeak => exact absurd isWeak (notWeak s)
    | @begins s' isWeak' isS isChoch settled =>
      rw [isWeak'] at isWeak
      cases isWeak
      refine ⟨isS, bars.length, isChoch, by omega, ?_⟩
      have none_ : ((takenIn cfg bars bars.length).map (m.lowOf s)).min? = none := by
        rw [takenIn_start]
        rfl
      refine settled.trans ?_
      rw [← none_]
      exact ready.booked_eq same acts s bars.length
    | @goesOn s' choch isState isS isS' isChoch isChoch' settled =>
      have wasWeak : m.state = .trend s .weak := ready.state.symm.trans (isState.symm.trans isWeak)
      obtain ⟨wasS, choch', wasChoch, before, least⟩ := tally.weak s wasWeak
      have sameS : s' = s := Option.some.inj (isS.symm.trans (ready.s.trans wasS))
      have sameChoch : choch' = choch :=
        Option.some.inj (wasChoch.symm.trans (ready.chochIdx.symm.trans isChoch))
      subst sameS sameChoch
      refine ⟨isS', choch', isChoch', by omega, settled.trans ?_⟩
      rw [ready.settled, least]
      exact ready.booked_eq same acts s' choch'

theorem tally_start (cfg : Config) (tf : String) : Tally cfg [] { tf := tf } where
  recorded := rfl
  ranges := rfl
  lows := rfl
  highs := rfl
  weak := fun s isWeak => by cases isWeak

/-- The invariant over every run. -/
theorem run_tally {tf : String} (ran : run cfg tf bars = .ok m) : Tally cfg bars m := by
  have from_ (bars : List Bar) : ∀ m, run cfg tf bars = .ok m → Tally cfg bars m := by
    induction bars using List.reverseRecOn with
    | nil =>
      intro m ran
      cases ran
      exact tally_start cfg tf
    | append_singleton bars bar ih =>
      intro m ran
      unfold run at ran
      rw [List.foldlM_append] at ran
      obtain ⟨m₁, ran₁, took⟩ := bind_eq_ok ran
      rw [List.foldlM_cons] at took
      obtain ⟨m₂, took, is⟩ := bind_eq_ok took
      cases is
      exact onBar_tally (ih m₁ ran₁) took
  exact from_ bars m ran

/-! ## The floor -/

theorem slice_weakLows {a b : Nat} (inside : b ≤ (m.weakLows s).length) :
    slice a b (m.weakLows s) = (List.range' a (b - a)).map (m.lowOf s) := by
  apply List.ext_getElem?
  intro i
  unfold slice
  rw [List.getElem?_drop, List.getElem?_take, List.getElem?_map]
  by_cases before : i < b - a
  · have within : a + i < (m.weakLows s).length := by omega
    rw [if_pos (by omega), List.getElem?_range' before, Option.map_some, Nat.one_mul]
    unfold Tracker.lowOf
    rw [List.getElem?_eq_getElem within]
    rfl
  · rw [if_neg (by omega), List.getElem?_eq_none (by rw [List.length_range']; omega)]
    rfl

/-- What a bar that comes to its trigger has behind it. -/
structure Trigger (cfg : Config) (bars : List Bar) (bar : Bar) (m' : Tracker) (s : Direction)
    (choch : Nat) : Prop where
  isChoch : m'.chochIdx = some choch
  before : choch < bars.length
  acts : skips cfg (bars ++ [bar]) bars.length = false
  length : (m'.weakLows s).length = bars.length + 1
  settled : m'.weakMinSettled = ((takenIn cfg (bars ++ [bar]) choch).map (m'.lowOf s)).min?

theorem length_weakLows_eq {n : Nat} (lows : m.effLo.length = n) (highs : m.effHi.length = n)
    (s : Direction) : (m.weakLows s).length = n := by
  cases s with
  | up => exact lows
  | down => exact (List.length_map _).trans highs

theorem weakAfter_some {t : Nat} (weak : weakAfter cfg t m new = some (m', s, choch)) :
    (∃ s', m.state = .trend s' .weak) ∧ m.s = some s ∧ m.chochIdx = some choch ∧ SameBars m m' ∧
      m'.chochIdx = some choch ∧ m'.weakMinSettled = m.booked cfg t s choch m.weakMinSettled := by
  unfold weakAfter at weak
  split at weak
  · rename_i s' ext prot s₁ weakExt choch₁ isState isExt isProt isS isWeakExt isChoch
    rw [weakBookkeeping_eq isChoch] at weak
    dsimp only at weak
    split at weak
    · cases weak
    · split at weak
      · rename_i m₁ swung
        cases weak
        have same := (weakSwings_leaves swung).2.2 rfl
        exact ⟨⟨s', isState⟩, isS, isChoch, ⟨same.bars, same.ranges, same.effLo, same.effHi⟩,
          same.chochIdx.trans isChoch, same.settled⟩
      · cases weak
  · cases weak

theorem trigger_of_judged (tally : Tally cfg bars m)
    (judges : m.judged cfg bar = some (m', s, choch)) : Trigger cfg bars bar m' s choch := by
  unfold judged at judges
  dsimp only at judges
  rw [tally.recorded] at judges
  split at judges
  · cases judges
  · rename_i positive
    have acts : skips cfg (bars ++ [bar]) bars.length = false :=
      Bool.eq_false_iff.mpr fun isSkipped => positive ((refRange_push _ tally).mpr isSkipped)
    split at judges
    · cases judges
    · rename_i m₂ new took
      have ready := ready tally took
      obtain ⟨⟨s', isState⟩, isS, isChoch, same, isChoch', settled⟩ := weakAfter_some judges
      obtain ⟨wasS, choch', wasChoch, before, least⟩ := tally.weak s' (ready.state.symm.trans isState)
      have sameS : s' = s := Option.some.inj (wasS.symm.trans (ready.s.symm.trans isS))
      have sameChoch : choch' = choch :=
        Option.some.inj (wasChoch.symm.trans (ready.chochIdx.symm.trans isChoch))
      subst sameS sameChoch
      refine ⟨isChoch', before, acts, length_weakLows_eq ?_ ?_ s', settled.trans ?_⟩
      · exact (congrArg List.length same.effLo).trans ready.lows
      · exact (congrArg List.length same.effHi).trans ready.highs
      · rw [ready.settled, least]
        exact ready.booked_eq same acts s' choch'

/-- The bars that have not settled when `bars.length` is judged. -/
def pending (cfg : Config) (bars : List Bar) (choch : Nat) : List Nat :=
  let first := max choch (bars.length + 1 - cfg.spikeReturnBars)
  List.range' first (bars.length - first)

/-- The floor of a bar is the minimum over the bars taken in and those not settled yet. -/
theorem Trigger.minLowBefore_eq (trigger : Trigger cfg bars bar m' s choch) :
    m'.minLowBefore cfg bars.length s (bars.length - 1) = .ok
      ((takenIn cfg (bars ++ [bar]) choch ++ pending cfg bars choch).map (m'.lowOf s)).min? := by
  have before := trigger.before
  have length := trigger.length
  have waiting : (if max choch (bars.length + 1 - cfg.spikeReturnBars) ≤ bars.length - 1 then
      slice (max choch (bars.length + 1 - cfg.spikeReturnBars)) (bars.length - 1 + 1) (m'.weakLows s)
      else []) = (pending cfg bars choch).map (m'.lowOf s) := by
    unfold pending
    dsimp only
    split
    · rw [show bars.length - 1 + 1 = bars.length by omega]
      exact slice_weakLows (by omega)
    · rw [show bars.length - max choch (bars.length + 1 - cfg.spikeReturnBars) = 0 by omega]
      rfl
  have kept : (if choch + cfg.spikeReturnBars ≤ bars.length then m'.weakMinSettled.toList else [])
      = m'.weakMinSettled.toList := by
    split
    · rfl
    · rename_i unsettled
      have none_ : takenIn cfg (bars ++ [bar]) choch = [] := by
        unfold takenIn
        rw [List.length_append, List.length_singleton,
          show bars.length + 1 - cfg.spikeReturnBars - choch = 0 by omega]
        rfl
      rw [trigger.settled, none_]
      rfl
  unfold minLowBefore
  rw [trigger.isChoch]
  dsimp only
  rw [waiting, kept, trigger.settled, RunningMin.min?_toList_append, List.map_append]

/-- The floor that the source's comment names, and what a close below the floor then says. -/
structure TrueFloor (cfg : Config) (t : Nat) (m : Tracker) (s : Direction) (choch : Nat) : Prop where
  floor : m.minLowBefore cfg t s (t - 1) = .ok (m.naiveLow s choch t)
  below : m.fallsBelow cfg t s choch = .ok true →
    ∀ k, choch ≤ k → k < t → m.signedClose s t < m.lowOf s k

/-- The low of a bar counts on bar `t`: it has settled on a bar that was not skipped, or not yet. The bar
itself counts where bars settle at once. -/
structure Counts (cfg : Config) (bars : List Bar) (t k : Nat) : Prop where
  earlier : k < t ∨ k = t ∧ cfg.spikeReturnBars = 0
  settled : k + cfg.spikeReturnBars ≤ t → skips cfg bars (k + cfg.spikeReturnBars) = false

/-- A bar with the lowest low since the change of character counts, and bar `t`, where it counts, is
no lower. -/
structure LowestCounts (cfg : Config) (bars : List Bar) (t : Nat) (m : Tracker) (s : Direction)
    (choch : Nat) : Prop where
  lowest : ∃ k, choch ≤ k ∧ Counts cfg bars t k ∧ ∀ j, choch ≤ j → j < t → m.lowOf s k ≤ m.lowOf s j
  own : cfg.spikeReturnBars = 0 → ∃ j, choch ≤ j ∧ j < t ∧ m.lowOf s j ≤ m.lowOf s t

theorem mem_pending {k : Nat} : k ∈ pending cfg bars choch ↔
    choch ≤ k ∧ bars.length < k + cfg.spikeReturnBars ∧ k < bars.length := by
  unfold pending
  rw [List.mem_range'_1]
  omega

section

variable (trigger : Trigger cfg bars bar m' s choch)
include trigger

theorem Trigger.mem_counted {k : Nat} :
    k ∈ takenIn cfg (bars ++ [bar]) choch ++ pending cfg bars choch ↔
      choch ≤ k ∧ Counts cfg (bars ++ [bar]) bars.length k := by
  have before := trigger.before
  rw [List.mem_append, mem_takenIn, mem_pending, List.length_append, List.length_singleton]
  constructor
  · rintro (⟨from_, settles, taken⟩ | ⟨from_, waits, inside⟩)
    · exact ⟨from_, by omega, fun _ => taken⟩
    · exact ⟨from_, .inl inside, fun settles => by omega⟩
  · rintro ⟨from_, earlier, counts⟩
    by_cases settles : k + cfg.spikeReturnBars ≤ bars.length
    · exact .inl ⟨from_, by omega, counts settles⟩
    · exact .inr ⟨from_, by omega, by omega⟩

theorem Trigger.naiveLow_eq :
    m'.naiveLow s choch bars.length
      = ((List.range' choch (bars.length - choch)).map (m'.lowOf s)).min? := by
  have length := trigger.length
  unfold naiveLow
  rw [slice_weakLows (by omega)]

/-- The floor is the naive one when a lowest bar counts. -/
theorem Trigger.floor_iff :
    m'.minLowBefore cfg bars.length s (bars.length - 1) = .ok (m'.naiveLow s choch bars.length) ↔
      LowestCounts cfg (bars ++ [bar]) bars.length m' s choch := by
  have before := trigger.before
  have same {x y : Option ℚ} : (Except.ok x : Except Fault (Option ℚ)) = .ok y ↔ x = y :=
    ⟨Except.ok.inj, congrArg Except.ok⟩
  rw [trigger.minLowBefore_eq, trigger.naiveLow_eq, same, RunningMin.min?_eq_iff]
  have inside {j : Nat} : j ∈ List.range' choch (bars.length - choch) ↔ choch ≤ j ∧ j < bars.length := by
    rw [List.mem_range'_1]
    omega
  constructor
  · rintro ⟨below, above⟩
    refine ⟨?_, ?_⟩
    · -- the naive minimum is some bar's low, and a bar that counts is as low
      have some_ : (List.range' choch (bars.length - choch)).map (m'.lowOf s) ≠ [] := by
        rw [ne_eq, List.map_eq_nil_iff, List.range'_eq_nil_iff]
        omega
      obtain ⟨least, -, mem, least_le⟩ := minOf_ok some_
      obtain ⟨x, mem', le⟩ := below least mem
      obtain ⟨k, counts, rfl⟩ := List.mem_map.mp mem'
      obtain ⟨from_, counts⟩ := trigger.mem_counted.mp counts
      refine ⟨k, from_, counts, fun j first last => ?_⟩
      exact le.trans (least_le _ (List.mem_map_of_mem (inside.mpr ⟨first, last⟩)))
    · intro atOnce
      have own : bars.length ∈ takenIn cfg (bars ++ [bar]) choch ++ pending cfg bars choch := by
        refine trigger.mem_counted.mpr ⟨before.le, .inr ⟨rfl, atOnce⟩, fun _ => ?_⟩
        rw [atOnce]
        exact trigger.acts
      obtain ⟨x, mem, le⟩ := above _ (List.mem_map_of_mem own)
      obtain ⟨j, covered, rfl⟩ := List.mem_map.mp mem
      exact ⟨j, (inside.mp covered).1, (inside.mp covered).2, le⟩
  · rintro ⟨⟨k, from_, counts, least⟩, own⟩
    refine ⟨?_, ?_⟩
    · intro y mem
      obtain ⟨j, covered, rfl⟩ := List.mem_map.mp mem
      exact ⟨_, List.mem_map_of_mem (trigger.mem_counted.mpr ⟨from_, counts⟩),
        least j (inside.mp covered).1 (inside.mp covered).2⟩
    · intro y mem
      obtain ⟨j, counted, rfl⟩ := List.mem_map.mp mem
      obtain ⟨first, earlier, -⟩ := trigger.mem_counted.mp counted
      rcases earlier with last | ⟨rfl, atOnce⟩
      · exact ⟨_, List.mem_map_of_mem (inside.mpr ⟨first, last⟩), le_refl _⟩
      · obtain ⟨j, first, last, le⟩ := own atOnce
        exact ⟨_, List.mem_map_of_mem (inside.mpr ⟨first, last⟩), le⟩

/-- Where the floor is the naive one, a close that falls below it is below every low it covers. -/
theorem Trigger.below_of_floor
    (floor : m'.minLowBefore cfg bars.length s (bars.length - 1) = .ok (m'.naiveLow s choch bars.length))
    (falls : m'.fallsBelow cfg bars.length s choch = .ok true) {k : Nat} (first : choch ≤ k)
    (last : k < bars.length) : m'.signedClose s bars.length < m'.lowOf s k := by
  unfold fallsBelow at falls
  split at falls
  · rw [floor, trigger.naiveLow_eq] at falls
    have covered : m'.lowOf s k ∈ (List.range' choch (bars.length - choch)).map (m'.lowOf s) := by
      refine List.mem_map_of_mem ?_
      rw [List.mem_range'_1]
      omega
    obtain ⟨least, isLeast, -, least_le⟩ := minOf_ok (List.ne_nil_of_mem covered)
    have isMin : ((List.range' choch (bars.length - choch)).map (m'.lowOf s)).min? = some least := by
      cases isMin : ((List.range' choch (bars.length - choch)).map (m'.lowOf s)).min? with
      | none =>
        rw [List.min?_eq_none_iff.mp isMin] at covered
        cases covered
      | some x =>
        unfold minOf at isLeast
        rw [isMin] at isLeast
        exact congrArg some (Except.ok.inj isLeast)
    rw [isMin] at falls
    exact (of_decide_eq_true (Except.ok.inj falls)).trans_le (least_le _ covered)
  · cases falls

end

/-- On every bar of every run that comes to its trigger, the floor is the minimum of all lows since the
change of character exactly when a bar with the lowest of them counts. -/
theorem trueFloor_iff {tf : String} {s : Direction} {choch : Nat} (ran : run cfg tf bars = .ok m)
    (judges : m.judged cfg bar = some (m', s, choch)) :
    TrueFloor cfg bars.length m' s choch ↔ LowestCounts cfg (bars ++ [bar]) bars.length m' s choch := by
  have trigger := trigger_of_judged (run_tally ran) judges
  rw [← trigger.floor_iff]
  constructor
  · exact TrueFloor.floor
  · intro floor
    exact ⟨floor, fun falls k first last => trigger.below_of_floor floor falls first last⟩

end Runs

/-! ## A flat stretch -/

/-- `n` bars that do not move. -/
def flat (price : ℚ) (n : Nat) : List Bar := List.replicate n ⟨0, price, price, price, price, true⟩

/-- A rise, ten flat bars, the change of character with a low of 100, two flat bars on which the median
range is 0, and a recovery to 132. -/
def stalled : List Bar :=
  leg 100 120 4 ++ leg 120 110 4 ++ leg 110 134 4 ++ leg 134 122 4 ++ leg 122 142 4 ++ leg 142 134 2 ++
    flat 134 10 ++ [⟨0, 134, 134, 100, 112, true⟩] ++ flat 116 2 ++ leg 116 134 9 ++ leg 134 122 4 ++
    leg 122 134 4 ++ [⟨0, 134, 135, 126, 127, true⟩, ⟨0, 127, 128, 119, 120, true⟩]

/-- The bar that turns the trend with a close of 110. -/
def turning : Bar := ⟨0, 120, 121, 109, 110, true⟩

/-- The trend turns though the close is above the low of the bar of the change of character. -/
theorem trueFloor_stalled : ¬ ∀ (cfg : Config) (tf : String) (bars : List Bar) (bar : Bar) (m m' : Tracker)
    (s : Direction) (choch : Nat), run cfg tf bars = .ok m → m.judged cfg bar = some (m', s, choch) →
      m'.lh.isSome = true → TrueFloor cfg bars.length m' s choch := by
  intro claimed
  have turns : (((run {} "5m" stalled).toOption.bind fun m => m.judged {} turning).any fun found =>
      found.1.lh.isSome && (found.1.fallsBelow {} stalled.length found.2.1 found.2.2).toOption.any id &&
        decide (found.2.2 < stalled.length ∧
          found.1.lowOf found.2.1 found.2.2 ≤ found.1.signedClose found.2.1 stalled.length)) = true := by
    decide +kernel
  obtain ⟨⟨m', s, choch⟩, found, turns⟩ := (Option.any_eq_true _ _).mp turns
  obtain ⟨m, ran, judges⟩ := Option.bind_eq_some_iff.mp found
  rw [Bool.and_eq_true, Bool.and_eq_true, decide_eq_true_iff] at turns
  obtain ⟨⟨isLh, falls⟩, before, above⟩ := turns
  have floor := claimed {} "5m" stalled turning m m' s choch (ok_of_toOption ran) judges isLh
  obtain ⟨b, isB, rfl⟩ := (Option.any_eq_true _ _).mp falls
  exact absurd (floor.below (ok_of_toOption isB) choch (le_refl _) before) (not_lt.mpr above)

/-- The same run, at the same bar. -/
theorem trueFloor_iff_stalled : ∃ m m' s choch, run {} "5m" stalled = .ok m ∧
    m.judged {} turning = some (m', s, choch) ∧ m'.lh.isSome = true ∧
      (TrueFloor {} stalled.length m' s choch ↔
        LowestCounts {} (stalled ++ [turning]) stalled.length m' s choch) := by
  have turns : (((run {} "5m" stalled).toOption.bind fun m => m.judged {} turning).any fun found =>
      found.1.lh.isSome) = true := by
    decide +kernel
  obtain ⟨⟨m', s, choch⟩, found, isLh⟩ := (Option.any_eq_true _ _).mp turns
  obtain ⟨m, ran, judges⟩ := Option.bind_eq_some_iff.mp found
  have ran := ok_of_toOption ran
  exact ⟨m, m', s, choch, ran, judges, isLh, trueFloor_iff ran judges⟩

end AdvanceTrading.StructureTracker
