import AdvanceTrading.PriceAction.StructureMirror

/-!
# Up and down alike

The steps of the tracker's state commute with the mirror, and so do its runs in
which no bar is read in an order.
-/

namespace AdvanceTrading.StructureTracker

namespace Tracker

variable (cfg : Config) (m : Tracker)

/-! ## Weak trends -/

section Weak

variable (t : Nat) (s : Direction)

theorem weakBookkeeping_mirror :
    m.mirror.weakBookkeeping cfg t s.opposite = (m.weakBookkeeping cfg t s).map mirror := by
  have same : m.mirror.chochIdx = m.chochIdx := rfl
  unfold weakBookkeeping
  rw [same, weakLows_mirror]
  cases m.chochIdx with
  | none => rfl
  | some choch =>
    dsimp only
    split <;> rfl

theorem minLowBefore_mirror (upto : Nat) :
    m.mirror.minLowBefore cfg t s.opposite upto = m.minLowBefore cfg t s upto := by
  unfold minLowBefore
  rw [weakLows_mirror]
  rfl

theorem catchUpDown_mirror (choch : Nat) (ks : List Nat) :
    m.mirror.catchUpDown s.opposite choch ks = m.catchUpDown s choch ks := by
  induction ks with
  | nil => rfl
  | cons k rest ih =>
    unfold catchUpDown
    rw [weakLows_mirror, signedClose_mirror, ih]

theorem turned_mirror (trigger : Nat) (floor : ℚ) (lh : Swing) :
    m.mirror.turned t s.opposite trigger floor lh.mirror = (m.turned t s trigger floor lh).mirror := by
  have last : lastOf s.opposite.lowKind m.mirror.swings
      = (lastOf s.lowKind m.swings).map Swing.mirror := by
    rw [Direction.lowKind_opposite]
    exact lastOf_mirror s.lowKind m.swings
  have highs : m.mirror.signedHigh s.opposite.opposite = m.signedHigh s.opposite := by
    funext i
    exact signedHigh_mirror m i s.opposite
  have close : m.mirror.signedClose s.opposite.opposite t = m.signedClose s.opposite t :=
    signedClose_mirror m t s.opposite
  unfold turned
  dsimp only
  rw [last, highs, close]
  cases lastOf s.lowKind m.swings <;> simp [mirror, Swing.mirror]

theorem toOpposite_mirror (trigger : Nat) :
    m.mirror.toOpposite t s.opposite trigger = (m.toOpposite t s trigger).map mirror := by
  have sameChoch : m.mirror.chochIdx = m.chochIdx := rfl
  have isLh : m.mirror.lh = m.lh.map Swing.mirror := rfl
  unfold toOpposite
  rw [sameChoch, isLh, weakLows_mirror]
  cases m.chochIdx with
  | none => rfl
  | some choch =>
    cases m.lh with
    | none => rfl
    | some lh =>
      dsimp only [Option.map_some]
      cases minOf (slice choch (max trigger (choch + 1)) (m.weakLows s)) with
      | error e => rfl
      | ok floor =>
        have placed := setState_mirror (m.turned t s trigger floor lh) t (.trend s.opposite .base)
          .reversalConfirmed (s.signed floor) (.reversal (m.barEnd trigger) trigger lh.price)
        simp only [ok_bind, turned_mirror, Direction.signed_opposite, barEnd_mirror]
        exact congrArg Except.ok placed

theorem weakSwings_mirror (weakExt : ℚ) (choch : Nat) (new : List (Status × Swing)) :
    weakSwings cfg t s.opposite weakExt choch m.mirror (new.map mirrorNew)
      = (weakSwings cfg t s weakExt choch m new).map fun e => (e.1.mirror, e.2) := by
  induction new generalizing m with
  | nil => rfl
  | cons entry rest ih =>
    obtain ⟨status, sw⟩ := entry
    have kind : sw.mirror.kind = s.opposite.highKind ↔ sw.kind = s.highKind := by
      rw [Direction.highKind_opposite]
      exact Kind.mirror_inj
    have price : s.opposite.signed sw.mirror.price = s.signed sw.price := by simp [Swing.mirror]
    simp only [List.map_cons, mirrorNew, weakSwings]
    by_cases old : sw.idx ≤ choch
    · rw [if_pos (show sw.mirror.idx ≤ choch from old), if_pos old]
      exact ih m
    rw [if_neg (show ¬ sw.mirror.idx ≤ choch from old), if_neg old]
    by_cases lower : sw.kind = s.highKind ∧ s.signed sw.price <
        weakExt - ({ m with weakSwingCount := m.weakSwingCount + 1 } : Tracker).tol cfg.lhTol
    · rw [if_pos (by rw [kind, price]; exact lower), if_pos lower]
      -- a lower high: what it leads to, from the tracker that knows it
      let caught : Tracker := { m with weakSwingCount := m.weakSwingCount + 1, lh := some sw }
      refine (congrArg (· >>= _) (catchUpDown_mirror (m := caught) ..)).trans ?_
      show (caught.catchUpDown s choch (List.range' (sw.idx + 1) (t - sw.idx)) >>= _) =
        (caught.catchUpDown s choch (List.range' (sw.idx + 1) (t - sw.idx)) >>= _).map _
      cases caught.catchUpDown s choch (List.range' (sw.idx + 1) (t - sw.idx)) with
      | error e => rfl
      | ok found =>
        cases found with
        | none => exact ih caught
        | some k =>
          show (caught.mirror.toOpposite t s.opposite k >>= fun m' => pure (m', true)) =
            (caught.toOpposite t s k >>= fun m' => pure (m', true)).map fun e => (e.1.mirror, e.2)
          rw [toOpposite_mirror]
          cases caught.toOpposite t s k <;> rfl
    · rw [if_neg (by rw [kind, price]; exact lower), if_neg lower]
      exact ih { m with weakSwingCount := m.weakSwingCount + 1 }

theorem fallsBelow_mirror (choch : Nat) :
    m.mirror.fallsBelow cfg t s.opposite choch = m.fallsBelow cfg t s choch := by
  have isLh : m.mirror.lh.isSome = m.lh.isSome := by simp [mirror]
  unfold fallsBelow
  rw [isLh, minLowBefore_mirror, signedClose_mirror]

theorem recentRange_mirror :
    m.mirror.recentRange cfg = (m.recentRange cfg).map fun e => (-e.2, -e.1) := by
  have prices : (lastN cfg.initSwings m.mirror.swings).map Swing.price
      = ((lastN cfg.initSwings m.swings).map Swing.price).map fun x => -x := by
    simp only [mirror, lastN_map, List.map_map]
    rfl
  unfold recentRange
  rw [prices]
  dsimp only
  rw [maxOf_neg, minOf_neg]
  by_cases none_ : (lastN cfg.initSwings m.swings).map Swing.price = []
  · rw [none_]
    rfl
  · obtain ⟨hi, isHi, -⟩ := maxOf_ok none_
    obtain ⟨lo, isLo, -⟩ := minOf_ok none_
    rw [isHi, isLo]
    rfl

theorem setRange_mirror (type : EventType) (hi lo : ℚ) :
    ({ m.mirror with rangeHi := some (-lo), rangeLo := some (-hi) } : Tracker).setState t .range
        type.mirror (m.mirror.close t) (.rangeOf (-lo) (-hi))
      = (({ m with rangeHi := some hi, rangeLo := some lo } : Tracker).setState t .range type
        (m.close t) (.rangeOf hi lo)).mirror := by
  rw [← setState_mirror, close_mirror]
  rfl

theorem decideWeak_mirror (choch : Nat) :
    m.mirror.decideWeak cfg t s.opposite choch = (m.decideWeak cfg t s choch).map mirror := by
  unfold decideWeak
  rw [fallsBelow_mirror, toOpposite_mirror, recentRange_mirror]
  cases m.fallsBelow cfg t s choch with
  | error e => rfl
  | ok falls =>
    simp only [ok_bind]
    split
    · rfl
    rw [show m.mirror.weakSwingCount = m.weakSwingCount from rfl]
    split
    · cases m.recentRange cfg with
      | error e => rfl
      | ok range =>
        exact congrArg (fun m : Tracker => Except.ok ({ m with s := none, prot := none, ext := none }))
          (setRange_mirror m t .rangeStart range.1 range.2)
    · rfl

theorem recovered_mirror (weakExt : ℚ) (floor : Option ℚ) :
    m.mirror.recovered t s.opposite weakExt floor = (m.recovered t s weakExt floor).mirror := by
  unfold recovered
  rw [signedHigh_mirror]
  rfl

theorem stepWeak_mirror (new : List (Status × Swing)) :
    m.mirror.stepWeak cfg t s.opposite (new.map mirrorNew) = (m.stepWeak cfg t s new).map mirror := by
  unfold stepWeak
  rw [show m.mirror.weakExt = m.weakExt from rfl, show m.mirror.chochIdx = m.chochIdx from rfl,
    weakBookkeeping_mirror]
  cases m.weakExt with
  | none => rfl
  | some weakExt =>
    cases m.chochIdx with
    | none => rfl
    | some choch =>
      dsimp only
      cases m.weakBookkeeping cfg t s with
      | error e => rfl
      | ok m =>
        simp only [Except.map, ok_bind, signedClose_mirror]
        split
        · rw [minLowBefore_mirror]
          cases m.minLowBefore cfg t s t with
          | error e => rfl
          | ok floor =>
            have placed := setState_mirror (m.recovered t s weakExt floor) t (.trend s .base) .recovery
              (s.signed (m.signedClose s t)) (.recoveredAbove (s.signed weakExt))
            simp only [ok_bind, recovered_mirror, Direction.signed_opposite]
            exact congrArg Except.ok placed
        · rw [weakSwings_mirror]
          cases weakSwings cfg t s weakExt choch m new with
          | error e => rfl
          | ok swung =>
            simp only [Except.map, ok_bind]
            split
            · rfl
            · exact decideWeak_mirror cfg swung.1 t s choch

end Weak

/-! ## Trends -/

section Trends

variable (t : Nat) (s : Direction)

theorem follow_mirror (tol : ℚ) (levels : Levels) (entry : Status × Swing) :
    Levels.follow s.opposite tol levels (mirrorNew entry) = Levels.follow s tol levels entry := by
  have kind : entry.2.mirror.kind = s.opposite.highKind ↔ entry.2.kind = s.highKind := by
    rw [Direction.highKind_opposite]
    exact Kind.mirror_inj
  have price : s.opposite.signed entry.2.mirror.price = s.signed entry.2.price := by
    simp [Swing.mirror]
  unfold Levels.follow mirrorNew
  simp only [kind, price]
  rfl

theorem breakProtected_mirror (ext prot : ℚ) :
    m.mirror.breakProtected cfg t s.opposite ext prot = (m.breakProtected cfg t s ext prot).map mirror := by
  have placed := setState_mirror (m.weakened t ext) t (.trend s .weak) .choch (s.signed prot)
    (.protectedBroken (s.signed prot))
  unfold breakProtected
  rw [← weakBookkeeping_mirror, ← placed, Direction.signed_opposite]
  rfl

theorem withinTrend_mirror (prevExt ext : ℚ) :
    m.mirror.withinTrend cfg t s.opposite prevExt ext = (m.withinTrend cfg t s prevExt ext).mirror := by
  have pullback : m.mirror.state = .trend s.opposite .pullback ↔ m.state = .trend s .pullback :=
    State.mirror_inj _ (.trend s .pullback)
  have base : m.mirror.state = .trend s.opposite .base ↔ m.state = .trend s .base :=
    State.mirror_inj _ (.trend s .base)
  unfold withinTrend
  simp only [signedClose_mirror, tol_mirror, pullback, base, Direction.signed_opposite]
  rw [show m.mirror.lastSh = m.lastSh from rfl, show m.mirror.lastShBroken = m.lastShBroken from rfl]
  split
  · rename_i sh _
    exact setState_mirror { m with lastShBroken := true } t (.trend s .base) .bos _ (.brokeSwing sh.2)
  · split
    · exact setState_mirror m t (.trend s .base) .pullbackEnd _ .plain
    · split
      · exact setState_mirror m t (.trend s .pullback) .pullbackStart _ .plain
      · rfl

theorem stepTrend_mirror (prevExt prot : ℚ) (new : List (Status × Swing)) :
    m.mirror.stepTrend cfg t s.opposite prevExt prot (new.map mirrorNew)
      = (m.stepTrend cfg t s prevExt prot new).map mirror := by
  have followed : (new.map mirrorNew).foldl (Levels.follow s.opposite (m.tol cfg.eqTol))
        ⟨prot, m.lastSh, m.lastShBroken⟩
      = new.foldl (Levels.follow s (m.tol cfg.eqTol)) ⟨prot, m.lastSh, m.lastShBroken⟩ := by
    rw [List.foldl_map]
    congr 1
    funext levels entry
    exact follow_mirror s _ levels entry
  have levelled (ext : ℚ) (levels : Levels) :
      m.mirror.withLevels ext levels = (m.withLevels ext levels).mirror := rfl
  unfold stepTrend
  simp only [signedHigh_mirror, tol_mirror]
  rw [show m.mirror.lastSh = m.lastSh from rfl, show m.mirror.lastShBroken = m.lastShBroken from rfl,
    followed]
  simp only [levelled, signedClose_mirror]
  split
  · exact breakProtected_mirror cfg _ t s _ _
  · exact congrArg Except.ok (withinTrend_mirror cfg _ t s prevExt _)

end Trends

/-! ## Before and between trends -/

section Between

variable (t : Nat)

theorem lastTwo_mirror (swings : List Swing) :
    lastTwo (swings.map Swing.mirror) = (lastTwo swings).map fun e => (e.1.mirror, e.2.mirror) := by
  unfold lastTwo
  rw [← List.map_reverse]
  cases swings.reverse with
  | nil => rfl
  | cons last rest => cases rest <;> rfl

theorem filter_kind_mirror (kind : Kind) (swings : List Swing) :
    (swings.map Swing.mirror).filter (fun sw => sw.kind = kind.mirror)
      = (swings.filter fun sw => sw.kind = kind).map Swing.mirror := by
  rw [List.filter_map]
  congr 2
  funext sw
  simp [Swing.mirror]

theorem lastTwo_highs_mirror (swings : List Swing) :
    lastTwo ((swings.map Swing.mirror).filter fun sw => sw.kind = .high)
      = (lastTwo (swings.filter fun sw => sw.kind = .low)).map fun e => (e.1.mirror, e.2.mirror) := by
  rw [← lastTwo_mirror, ← filter_kind_mirror]
  rfl

theorem lastTwo_lows_mirror (swings : List Swing) :
    lastTwo ((swings.map Swing.mirror).filter fun sw => sw.kind = .low)
      = (lastTwo (swings.filter fun sw => sw.kind = .high)).map fun e => (e.1.mirror, e.2.mirror) := by
  rw [← lastTwo_mirror, ← filter_kind_mirror]
  rfl

theorem bothMove_mirror {tol : ℚ} (positive : 0 ≤ tol) (high highBefore low lowBefore : Swing) :
    bothMove tol low.mirror lowBefore.mirror high.mirror highBefore.mirror
      = (bothMove tol high highBefore low lowBefore).map Direction.opposite := by
  have rise (a b : ℚ) : -b + tol < -a ↔ a < b - tol := by constructor <;> intro lt <;> linarith
  have fall (a b : ℚ) : -a < -b - tol ↔ b + tol < a := by constructor <;> intro lt <;> linarith
  unfold bothMove
  simp only [Swing.mirror, rise, fall]
  by_cases up : highBefore.price + tol < high.price ∧ lowBefore.price + tol < low.price
  · have down : ¬ (low.price < lowBefore.price - tol ∧ high.price < highBefore.price - tol) := by
      rintro ⟨lower, -⟩
      linarith [up.2]
    rw [if_neg down, if_pos up, if_pos up.symm]
    rfl
  · rw [if_neg up]
    by_cases down : high.price < highBefore.price - tol ∧ low.price < lowBefore.price - tol
    · rw [if_pos down, if_pos down.symm]
      rfl
    · rw [if_neg down, if_neg fun no => down no.symm, if_neg fun no => up no.symm]
      rfl

theorem firstTrend_mirror (s : Direction) (prot top : Swing) :
    m.mirror.firstTrend t s.opposite prot.mirror top.mirror = (m.firstTrend t s prot top).map mirror := by
  have highs : m.mirror.signedHigh s.opposite = m.signedHigh s := by
    funext i
    exact signedHigh_mirror m i s
  unfold firstTrend
  rw [highs, show top.mirror.idx = top.idx from rfl]
  cases maxOf ((List.range' top.idx (t + 1 - top.idx)).map (m.signedHigh s)) with
  | error e => rfl
  | ok ext =>
    have placed := setState_mirror { m with
      s := some s
      prot := some (s.signed prot.price)
      ext := some ext
      lastSh := some (s.signed top.price, some top.idx)
      lastShBroken := false } t (.trend s .base) .initTrend (m.close t) .plain
    simp only [ok_bind, Swing.mirror, Direction.signed_opposite, Direction.signed_neg, neg_neg,
      close_mirror]
    exact congrArg Except.ok placed

theorem firstRange_mirror : m.mirror.firstRange cfg t = (m.firstRange cfg t).map mirror := by
  unfold firstRange
  rw [recentRange_mirror]
  cases m.recentRange cfg with
  | error e => rfl
  | ok range => exact congrArg Except.ok (setRange_mirror m t .initRange range.1 range.2)

theorem tryInit_mirror (tolerant : cfg.Tolerant) (decided : 0 ≤ m.refRange) :
    m.mirror.tryInit cfg t = (m.tryInit cfg t).map mirror := by
  have positive : 0 ≤ m.tol cfg.eqTol := mul_nonneg tolerant.eqTol decided
  have known : m.mirror.swings = m.swings.map Swing.mirror := rfl
  unfold tryInit
  rw [known, List.length_map, lastN_map]
  split
  · rfl
  dsimp only
  rw [lastTwo_highs_mirror, lastTwo_lows_mirror]
  cases lastTwo ((lastN cfg.initSwings m.swings).filter fun sw => sw.kind = .high) with
  | none => cases lastTwo ((lastN cfg.initSwings m.swings).filter fun sw => sw.kind = .low) <;> rfl
  | some highs =>
    cases lastTwo ((lastN cfg.initSwings m.swings).filter fun sw => sw.kind = .low) with
    | none => rfl
    | some lows =>
      simp only [Option.map_some, tol_mirror, bothMove_mirror positive]
      cases bothMove (m.tol cfg.eqTol) highs.1 highs.2 lows.1 lows.2 with
      | none => exact firstRange_mirror cfg m t
      | some s =>
        cases s with
        | up => exact firstTrend_mirror m t .up lows.1 highs.1
        | down => exact firstTrend_mirror m t .down highs.1 lows.1

theorem enterTrend_mirror (s : Direction) (protPrice : ℚ) (type : EventType) :
    m.mirror.enterTrend t s.opposite (-protPrice) type.mirror = (m.enterTrend t s protPrice type).mirror := by
  have placed := setState_mirror { m with
    s := some s
    prot := some (s.signed protPrice)
    ext := some (m.signedHigh s t)
    lastSh := (lastOf s.highKind m.swings).map fun sw : Swing => (s.signed sw.price, some sw.idx)
    lastShBroken := true } t (.trend s .base) type (m.close t) .plain
  have last : lastOf s.opposite.highKind m.mirror.swings
      = (lastOf s.highKind m.swings).map Swing.mirror := by
    rw [Direction.highKind_opposite]
    exact lastOf_mirror s.highKind m.swings
  unfold enterTrend
  rw [← placed, last, signedHigh_mirror, close_mirror, Direction.signed_opposite, Direction.signed_neg,
    neg_neg, Option.map_map]
  congr 1
  simp [mirror, Swing.mirror, Function.comp_def]

theorem widen_mirror (new : List (Status × Swing)) :
    widen cfg m.mirror (new.map mirrorNew) = (widen cfg m new).map mirror := by
  induction new generalizing m with
  | nil => rfl
  | cons entry rest ih =>
    rw [List.map_cons]
    unfold widen
    rw [recentRange_mirror]
    cases m.recentRange cfg with
    | error e => rfl
    | ok range => exact ih { m with rangeHi := some range.1, rangeLo := some range.2 }

/-- The range stays in order, and the reference range as it was. -/
theorem widen_range (new : List (Status × Swing)) (swung : m.swings ≠ [])
    (ordered : ∀ hi lo, m.rangeHi = some hi → m.rangeLo = some lo → lo ≤ hi) {m' : Tracker}
    (ran : widen cfg m new = .ok m') :
    m'.rr = m.rr ∧ ∀ hi lo, m'.rangeHi = some hi → m'.rangeLo = some lo → lo ≤ hi := by
  induction new generalizing m with
  | nil =>
    cases ran
    exact ⟨rfl, ordered⟩
  | cons entry rest ih =>
    obtain ⟨hi, lo, isRange, le⟩ := recentRange_ok cfg swung
    unfold widen at ran
    simp only [isRange, ok_bind] at ran
    apply ih { m with rangeHi := some hi, rangeLo := some lo } swung ?_ ran
    intro hi' lo' isHi isLo
    cases isHi
    cases isLo
    exact le

theorem stepRange_mirror (tolerant : cfg.Tolerant) (decided : 0 ≤ m.refRange)
    (new : List (Status × Swing)) (swung : m.swings ≠ [])
    (ordered : ∀ hi lo, m.rangeHi = some hi → m.rangeLo = some lo → lo ≤ hi) :
    m.mirror.stepRange cfg t (new.map mirrorNew) = (m.stepRange cfg t new).map mirror := by
  unfold stepRange
  rw [widen_mirror]
  cases ran : widen cfg m new with
  | error e => rfl
  | ok m' =>
    obtain ⟨sameRr, ordered'⟩ := widen_range cfg m new swung ordered ran
    have positive : 0 ≤ m'.tol cfg.rangeExitK := by
      refine mul_nonneg tolerant.rangeExitK ?_
      unfold refRange
      rw [sameRr]
      exact decided
    simp only [Except.map, ok_bind, show m'.mirror.swings = m'.swings.map Swing.mirror from rfl,
      lastTwo_highs_mirror, lastTwo_lows_mirror, tol_mirror, close_mirror]
    rw [show m'.mirror.rangeHi = m'.rangeLo.map fun x => -x from rfl,
      show m'.mirror.rangeLo = m'.rangeHi.map fun x => -x from rfl]
    cases isHi : m'.rangeHi with
    | none => cases m'.rangeLo <;> rfl
    | some hi =>
      cases isLo : m'.rangeLo with
      | none => rfl
      | some lo =>
        have le := ordered' hi lo isHi isLo
        generalize m'.tol cfg.rangeExitK = tol at positive
        have climbs : ((lastTwo (m'.swings.filter fun sw => sw.kind = .high)).map
              fun e => (e.1.mirror, e.2.mirror)).filter
              (fun e => -lo + tol < -m'.close t ∧ e.2.price < e.1.price)
            = ((lastTwo (m'.swings.filter fun sw => sw.kind = .high)).filter fun e =>
              m'.close t < lo - tol ∧ e.1.price < e.2.price).map fun e => (e.1.mirror, e.2.mirror) := by
          have beyond : -lo + tol < -m'.close t ↔ m'.close t < lo - tol := by
            constructor <;> intro lt <;> linarith
          cases lastTwo (m'.swings.filter fun sw => sw.kind = .high) <;>
            simp [Option.filter, Swing.mirror, beyond, apply_ite]
        have falls : ((lastTwo (m'.swings.filter fun sw => sw.kind = .low)).map
              fun e => (e.1.mirror, e.2.mirror)).filter
              (fun e => -m'.close t < -hi - tol ∧ e.1.price < e.2.price)
            = ((lastTwo (m'.swings.filter fun sw => sw.kind = .low)).filter fun e =>
              hi + tol < m'.close t ∧ e.2.price < e.1.price).map fun e => (e.1.mirror, e.2.mirror) := by
          have beyond : -m'.close t < -hi - tol ↔ hi + tol < m'.close t := by
            constructor <;> intro lt <;> linarith
          cases lastTwo (m'.swings.filter fun sw => sw.kind = .low) <;>
            simp [Option.filter, Swing.mirror, beyond, apply_ite]
        dsimp only [Option.map_some]
        rw [climbs, falls]
        cases isClimb : (lastTwo (m'.swings.filter fun sw => sw.kind = .low)).filter fun e =>
            hi + tol < m'.close t ∧ e.2.price < e.1.price with
        | none =>
          cases (lastTwo (m'.swings.filter fun sw => sw.kind = .high)).filter fun e =>
              m'.close t < lo - tol ∧ e.1.price < e.2.price with
          | none => rfl
          | some e => exact congrArg Except.ok (enterTrend_mirror m' t .down e.1.price .rangeExitDown)
        | some e =>
          have none_ : (lastTwo (m'.swings.filter fun sw => sw.kind = .high)).filter (fun e =>
              m'.close t < lo - tol ∧ e.1.price < e.2.price) = none := by
            obtain ⟨-, above⟩ := Option.filter_eq_some_iff.mp isClimb
            have above := (decide_eq_true_iff.mp above).1
            rw [Option.filter_eq_none_iff]
            intro e' _ below
            have below := (decide_eq_true_iff.mp below).1
            linarith
          rw [none_]
          exact congrArg Except.ok (enterTrend_mirror m' t .up e.1.price .rangeExitUp)

theorem step_mirror (tolerant : cfg.Tolerant) (decided : 0 ≤ m.refRange) (placed : Placed m)
    (new : List (Status × Swing)) :
    m.mirror.step cfg t (new.map mirrorNew) = (m.step cfg t new).map mirror := by
  have base (s : Direction) : m.mirror.state = .trend s.opposite .base ↔ m.state = .trend s .base :=
    State.mirror_inj _ (.trend s .base)
  have pullback (s : Direction) :
      m.mirror.state = .trend s.opposite .pullback ↔ m.state = .trend s .pullback :=
    State.mirror_inj _ (.trend s .pullback)
  unfold step
  cases isState : m.state with
  | init =>
    rw [show m.mirror.state = .init by simp [mirror, isState, State.mirror]]
    exact tryInit_mirror cfg m t tolerant decided
  | range =>
    rw [show m.mirror.state = .range by simp [mirror, isState, State.mirror]]
    obtain ⟨-, hi, lo, isHi, isLo, le⟩ := placed.ranging isState
    apply stepRange_mirror cfg m t tolerant decided new
    · exact placed.swung (by rw [isState]; exact fun no => by cases no)
    · intro hi' lo' isHi' isLo'
      rw [isHi] at isHi'
      rw [isLo] at isLo'
      cases isHi'
      cases isLo'
      exact le
  | trend s phase =>
    rw [show m.mirror.state = .trend s.opposite phase by simp [mirror, isState, State.mirror]]
    dsimp only
    rw [show m.mirror.ext = m.ext from rfl, show m.mirror.prot = m.prot from rfl,
      show m.mirror.s = m.s.map Direction.opposite from rfl]
    cases m.ext with
    | none => rfl
    | some ext =>
      cases m.prot with
      | none => rfl
      | some prot =>
        cases m.s with
        | none => rfl
        | some s' =>
          have same (phase' : Phase) : State.trend s.opposite phase = .trend s'.opposite phase' ↔
              State.trend s phase = .trend s' phase' :=
            State.mirror_inj (.trend s phase) (.trend s' phase')
          simp only [Option.map_some, same]
          split
          · exact stepTrend_mirror cfg m t s' ext prot new
          · exact stepWeak_mirror cfg m t s' new

end Between

/-! ## Sweeps -/

theorem sweep_mirror (t : Nat) (sw : Swing) :
    sweep t m.mirror sw.mirror = (sweep t m sw).mirror := by
  have known : (sw.idx, sw.kind.mirror) ∈ m.mirror.swept ↔ (sw.idx, sw.kind) ∈ m.swept := by
    simp only [mirror, List.mem_map, Prod.mk.injEq, Prod.exists]
    constructor
    · rintro ⟨idx, kind, mem, rfl, same⟩
      rw [Kind.mirror_inj] at same
      rwa [← same]
    · intro mem
      exact ⟨sw.idx, sw.kind, mem, rfl, rfl⟩
  have passes : m.mirror.sweeps t sw.mirror = m.sweeps t sw := by
    unfold sweeps
    rw [show sw.mirror.kind = sw.kind.mirror from rfl, show sw.mirror.price = -sw.price from rfl]
    cases sw.kind <;> simp [Kind.mirror]
  have swept := emit_mirror { m with swept := m.swept ++ [(sw.idx, sw.kind)] } t .sweep sw.price
    (.sweep sw.kind sw.idx)
  unfold sweep
  rw [passes, show sw.mirror.kind = sw.kind.mirror from rfl, show sw.mirror.idx = sw.idx from rfl,
    show sw.mirror.confirmedIdx = sw.confirmedIdx from rfl]
  simp only [known]
  split
  · rfl
  split
  · rw [← swept]
    simp [mirror, Swing.mirror, EventType.mirror, Details.mirror]
  · rfl

theorem detectSweeps_mirror (t : Nat) : m.mirror.detectSweeps t = (m.detectSweeps t).mirror := by
  have folded (swings : List Swing) (m : Tracker) :
      (swings.map Swing.mirror).foldl (sweep t) m.mirror = (swings.foldl (sweep t) m).mirror := by
    induction swings generalizing m with
    | nil => rfl
    | cons sw swings ih => rw [List.map_cons, List.foldl_cons, List.foldl_cons, sweep_mirror, ih]
  unfold detectSweeps
  rw [show m.mirror.swings = m.swings.map Swing.mirror from rfl, List.length_map, lastN_map, folded]
  split <;> rfl

/-! ## Bars -/

theorem push_mirror (bar : Bar) : m.mirror.push cfg bar.mirror = (m.push cfg bar).mirror := by
  have range : bar.mirror.high - bar.mirror.low = bar.high - bar.low := by
    simp only [Bar.mirror]
    ring
  unfold push
  rw [range, show bar.mirror.full = bar.full from rfl]
  simp [mirror, Bar.mirror]

/-- Nothing about the newest bar `t` is left to the order in which up and down are read: no bar
judged for a spike on it has two equally long wicks, and the bar judged for a swing is not both
a high and a low. -/
structure Even (t : Nat) : Prop where
  settled : cfg.spikeBodyEdge = true → cfg.spikeReturnBars ≤ t →
    ¬ m.Balanced cfg (t - cfg.spikeReturnBars) t
  taken : cfg.spikeBodyEdge = true → 2 * m.radius cfg ≤ t →
    m.isPivot cfg (t - m.radius cfg) .high = .ok true ∨ m.isPivot cfg (t - m.radius cfg) .low = .ok true →
    ¬ m.Balanced cfg (t - m.radius cfg) t
  single : 2 * m.radius cfg ≤ t → m.isPivot cfg (t - m.radius cfg) .high = .ok true →
    m.isPivot cfg (t - m.radius cfg) .low ≠ .ok true

instance (t : Nat) : Decidable (m.Even cfg t) :=
  decidable_of_iff (_ ∧ _ ∧ _)
    ⟨fun ⟨settled, taken, single⟩ => ⟨settled, taken, single⟩,
      fun even => ⟨even.settled, even.taken, even.single⟩⟩

/-- With no bar to the left of a swing there is no maximum to judge it by. -/
theorem takePivot_radius_zero (t : Nat) (new : List (Status × Swing)) (zero : m.radius cfg = 0) :
    takePivot cfg t .high (m, new) = .error .emptySequence := by
  unfold takePivot isPivot
  simp only [zero, Nat.mul_zero, Nat.not_lt_zero, if_false, Nat.sub_zero, slice, List.drop_take,
    Nat.sub_self, List.take_zero]
  rfl

theorem takePivots_mirror (tolerant : cfg.Tolerant) (decided : 0 ≤ m.refRange) {t : Nat}
    (even : m.Even cfg t) (positive : 0 < m.radius cfg) (now : m.bars.length = t + 1) :
    (takePivot cfg t .high (m.mirror, []) >>= takePivot cfg t .low)
      = (takePivot cfg t .high (m, []) >>= takePivot cfg t .low).map mirrorTaken := by
  rw [takePivot_swap cfg m [] positive now even.single]
  have first := takePivot_mirror cfg m tolerant decided t .low [] fun edge deep isLow =>
    even.taken edge deep (.inr isLow)
  rw [show takePivot cfg t .high (m.mirror, []) = _ from first]
  cases isTaken : takePivot cfg t .low (m, []) with
  | error e => rfl
  | ok taken =>
    obtain ⟨m', new⟩ := taken
    obtain ⟨swings, events, rfl⟩ := takePivot_swings cfg m isTaken
    exact takePivot_mirror cfg { m with swings := swings, events := events } tolerant decided t .high new
      fun edge deep isHigh => even.taken edge deep (.inl isHigh)

theorem onBar_mirror (tolerant : cfg.Tolerant) (bar : Bar)
    (coherent : 0 < m.radius cfg → Coherent cfg m)
    (even : 0 < (m.push cfg bar).refRange → (m.push cfg bar).Even cfg m.bars.length) :
    m.mirror.onBar cfg bar.mirror = (m.onBar cfg bar).map mirror := by
  have length : m.mirror.bars.length = m.bars.length := by simp [mirror]
  unfold onBar
  dsimp only
  rw [length, push_mirror, refRange_mirror]
  by_cases undecided : (m.push cfg bar).refRange ≤ 0
  · rw [if_pos undecided, if_pos undecided]
    rfl
  rw [if_neg undecided, if_neg undecided]
  have decided := not_le.mp undecided
  rw [settleSpikes_mirror cfg _ _ (even decided).settled]
  obtain ⟨effLo, effHi, settled, -⟩ := settleSpikes_eq cfg (m.push cfg bar) m.bars.length
  rw [settled]
  have first (m' : Tracker) (tf : m'.tf = m.tf) (zero : m.radius cfg = 0) :
      takePivot cfg m.bars.length .high (m', []) = .error .emptySequence :=
    takePivot_radius_zero cfg m' m.bars.length [] (by unfold radius; rw [tf]; exact zero)
  by_cases zero : m.radius cfg = 0
  · rw [first (mirror { m.push cfg bar with effLo := effLo, effHi := effHi }) rfl zero,
      first { m.push cfg bar with effLo := effLo, effHi := effHi } rfl zero]
    rfl
  have positive := Nat.pos_of_ne_zero zero
  have now : (m.push cfg bar).bars.length = m.bars.length + 1 := by simp [Tracker.push]
  have mirrored := takePivots_mirror cfg { m.push cfg bar with effLo := effLo, effHi := effHi } tolerant
    decided.le ⟨(even decided).settled, (even decided).taken, (even decided).single⟩ positive now
  obtain ⟨new, swings, events, taken, -, kept⟩ :=
    takePivots_ok cfg bar effLo effHi positive (coherent positive)
  rw [taken] at mirrored
  rw [← bind_assoc, mirrored]
  conv_rhs => rw [← bind_assoc, taken]
  have placed := ((coherent positive).placed.push cfg bar).withSwings swings events effLo effHi kept
  have stepped := step_mirror cfg { m.push cfg bar with
    effLo := effLo, effHi := effHi, swings := swings, events := events } m.bars.length tolerant
    decided.le placed new
  simp only [Except.map, mirrorTaken, ok_bind, stepped]
  cases step cfg { m.push cfg bar with
      effLo := effLo, effHi := effHi, swings := swings, events := events } m.bars.length new with
  | error e => rfl
  | ok m' => exact congrArg Except.ok (detectSweeps_mirror m' m.bars.length)

/-- A tracker that can judge swings stays coherent; one that cannot takes no bar it would decide on. -/
theorem onBar_coherent (bar : Bar) (coherent : 0 < m.radius cfg → Coherent cfg m) {m' : Tracker}
    (taken : m.onBar cfg bar = .ok m') (positive : 0 < m'.radius cfg) : Coherent cfg m' := by
  by_cases zero : m.radius cfg = 0
  · unfold onBar at taken
    dsimp only at taken
    split at taken
    · cases taken
      exact absurd zero positive.ne'
    · obtain ⟨effLo, effHi, settled, -⟩ := settleSpikes_eq cfg (m.push cfg bar) m.bars.length
      rw [settled, takePivot_radius_zero cfg { m.push cfg bar with effLo := effLo, effHi := effHi } _ _
        zero] at taken
      cases taken
  · obtain ⟨next, isNext, coherent', -⟩ :=
      onBar_ok cfg bar (Nat.pos_of_ne_zero zero) (coherent (Nat.pos_of_ne_zero zero))
    rw [isNext] at taken
    cases taken
    exact coherent'

/-- No bar is read in an order, from bar to bar. -/
def EvenBars : Tracker → List Bar → Prop
  | _, [] => True
  | m, bar :: bars =>
      (0 < (m.push cfg bar).refRange → (m.push cfg bar).Even cfg m.bars.length) ∧
        ∀ m' ∈ (m.onBar cfg bar).toOption, EvenBars m' bars

instance decidableEvenBars : (m : Tracker) → (bars : List Bar) → Decidable (EvenBars cfg m bars)
  | _, [] => isTrue trivial
  | _, _ :: bars =>
      haveI : DecidablePred fun m' => EvenBars cfg m' bars := fun m' => decidableEvenBars m' bars
      inferInstanceAs (Decidable (_ ∧ _))

theorem bars_mirror (tolerant : cfg.Tolerant) (bars : List Bar)
    (coherent : 0 < m.radius cfg → Coherent cfg m) (even : EvenBars cfg m bars) :
    (bars.map Bar.mirror).foldlM (onBar cfg) m.mirror = (bars.foldlM (onBar cfg) m).map mirror := by
  induction bars generalizing m with
  | nil => rfl
  | cons bar bars ih =>
    rw [List.map_cons, List.foldlM_cons, List.foldlM_cons,
      onBar_mirror cfg m tolerant bar coherent even.1]
    cases taken : m.onBar cfg bar with
    | error e => rfl
    | ok next =>
      apply ih next (onBar_coherent cfg m bar coherent taken)
      apply even.2 next
      rw [taken]
      rfl

theorem EvenBars.left {before after : List Bar} (even : EvenBars cfg m (before ++ after)) :
    EvenBars cfg m before := by
  induction before generalizing m with
  | nil => trivial
  | cons bar before ih => exact ⟨even.1, fun m' taken => ih m' (even.2 m' taken)⟩

end Tracker

/-- While no bar is read in an order, mirrored bars run through mirrored trackers. -/
theorem run_mirror (cfg : Config) (tf : String) (bars : List Bar) (tolerant : cfg.Tolerant)
    (even : Tracker.EvenBars cfg { tf := tf } bars) (before after : List Bar)
    (isBars : bars = before ++ after) :
    run cfg tf (before.map Bar.mirror) = (run cfg tf before).map Tracker.mirror ∧
      ∀ m, run cfg tf before = .ok m → m.mirror.protectedLevel = m.protectedLevel.map fun x => -x := by
  refine ⟨?_, fun m _ => Tracker.protectedLevel_mirror m⟩
  subst isBars
  exact Tracker.bars_mirror cfg { tf := tf } tolerant before (fun _ => coherent_start cfg tf)
    (Tracker.EvenBars.left cfg _ even)

/-- Five-minute bars of one size, then a swing high. -/
def peakBars : List Bar :=
  (List.range 9).map (fun i => ⟨i, 10, 11, 9, 10, true⟩) ++
    [⟨9, 10, 14, 9, 10, true⟩, ⟨10, 10, 11, 9, 10, true⟩, ⟨11, 10, 11, 9, 10, true⟩]

theorem run_mirror_peak :
    run {} "5m" (peakBars.map Bar.mirror) = (run {} "5m" peakBars).map Tracker.mirror :=
  (run_mirror {} "5m" peakBars ⟨by decide +kernel, by decide +kernel⟩ (by decide +kernel) peakBars []
    (List.append_nil _).symm).1

/-- Five-minute bars of one size, then one that is both a swing high and a swing low. -/
def outsideBars : List Bar :=
  (List.range 9).map (fun i => ⟨i, 10, 11, 9, 10, true⟩) ++
    [⟨9, 10, 14, 6, 10, true⟩, ⟨10, 10, 11, 9, 10, true⟩, ⟨11, 10, 11, 9, 10, true⟩]

/-- Of the mirrored outside bar the high is taken first as well. -/
theorem run_mirror_outside : (run {} "5m" (outsideBars.map Bar.mirror)).map Tracker.swings
    ≠ ((run {} "5m" outsideBars).map Tracker.mirror).map Tracker.swings := by
  decide +kernel

end AdvanceTrading.StructureTracker
