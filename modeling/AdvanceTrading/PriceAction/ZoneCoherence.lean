import AdvanceTrading.PriceAction.ZoneTracker

/-!
# What a zone's tracker always says

The state of a tracker (`app/price_action/zones/lifecycle.py:56-79`), the side
the zone acts on and the counters beside them are kept on different lines of
`track_zone` (`lifecycle.py:211-292`). They tell one story in every tracker
that calls over any frames leave: that of all the events so far, of which the
last few are stored.
-/

namespace AdvanceTrading.Zones

open PriceAction

/-- `replay`. -/
def replay (start : ZoneState) (events : List ZoneEvent) : ZoneState := events.foldl transition start

/-- A visit of the zone. -/
def ZoneEvent.isVisit : ZoneEvent → Bool
  | .touch | .gapThrough => true
  | .flip | .structuralBreak => false

/-- The number of TOUCH and GAP_THROUGH events. -/
def visits (events : List EventRow) : Nat := events.countP (·.event.isVisit)

/-- The number of FLIP events. -/
def flipCount (events : List EventRow) : Nat := events.countP (·.event = .flip)

/-- A level strictly beyond the band on a side. -/
def Ahead (lo hi : ℚ) (side : ZoneSide) (level : ℚ) : Prop :=
  match side with
  | .support => level < lo
  | .resistance => hi < level

instance (lo hi : ℚ) (side : ZoneSide) (level : ℚ) : Decidable (Ahead lo hi side level) := by
  unfold Ahead
  split <;> infer_instance

/-- A tracker beside the events it has emitted, the trimmed ones too. -/
structure Logged (s : ZoneSettings) (tr : ZoneTracker) (log : List EventRow) : Prop where
  kept : tr.events = keep s.maxEventsKept log
  state : tr.state = replay .fresh (log.map (·.event))
  touches : tr.touches = visits log
  flips : tr.flips = flipCount log
  last : tr.lastEvent = log.getLast?

/-- A live tracker, between two bars. -/
structure Live (s : ZoneSettings) (tr : ZoneTracker) : Prop where
  alive : tr.state ≠ .invalidated
  flipped : tr.state = .flipped ↔ tr.side ≠ tr.originSide
  fresh : tr.state = .fresh ↔ tr.touches = 0 ∧ tr.flips = 0
  ahead : ∀ level ∈ tr.structure_, Ahead tr.bandLow tr.bandHigh tr.side level
  logged : ∃ log, Logged s tr log ∧ ∀ row ∈ log, row.event ≠ .structuralBreak

variable {f : Frame} {s : ZoneSettings} {tr : ZoneTracker} {k : Nat}

/-! ## Events -/

/-- Trimming what was trimmed before. -/
theorem keep_snoc (kept : Nat) (log : List EventRow) (row : EventRow) :
    keep kept (keep kept log ++ [row]) = keep kept (log ++ [row]) := by
  unfold keep
  by_cases none_ : kept = 0
  · simp [none_]
  · simp only [none_, if_false, List.length_append, List.length_drop, List.length_singleton]
    rw [List.drop_append_of_le_length (by rw [List.length_drop]; omega), List.drop_append_of_le_length (by omega),
      List.drop_drop]
    congr 2
    omega

/-- Nothing is trimmed while all of it fits. -/
theorem keep_of_le {kept : Nat} {log : List EventRow} (fits : log.length ≤ kept) : keep kept log = log := by
  unfold keep
  split
  · rename_i none_
    exact (List.eq_nil_of_length_eq_zero (by omega)).symm
  · rw [Nat.sub_eq_zero_of_le fits, List.drop_zero]

theorem replay_snoc (start : ZoneState) (events : List ZoneEvent) (event : ZoneEvent) :
    replay start (events ++ [event]) = transition (replay start events) event := by
  simp [replay]

/-- An event of a tracker goes into its log; the flips are counted after it. -/
theorem Logged.emit {log : List EventRow} (logged : Logged s tr log) (event : ZoneEvent) :
    Logged s { emit f s tr event k with flips := if event = .flip then tr.flips + 1 else tr.flips }
      (log ++ [⟨event, stamp f k, close f k⟩]) where
  kept := by
    show keep _ (tr.events ++ _) = _
    rw [logged.kept, keep_snoc]
  state := by
    show transition tr.state event = _
    rw [logged.state, List.map_append, List.map_singleton, replay_snoc]
  touches := by
    have counted := logged.touches
    cases event <;> simp_all [Zones.emit, visits, ZoneEvent.isVisit]
  flips := by
    have counted := logged.flips
    cases event <;> simp_all [flipCount]
  last := by simp [Zones.emit]

/-! ## The structure -/

/-- The swing that is looked up lies beyond the band. -/
theorem structureSwing_ahead {side : ZoneSide} {lo hi : ℚ} {known i : Nat}
    (found : structureSwing f s side lo hi known = some i) : beyondBand f s.structureSwingOrder lo hi side i := by
  have kept := (List.mem_filter.mp (List.mem_of_getLast? found)).2
  exact (of_decide_eq_true kept).2.2

/-- A structure set at a swing beyond the band is ahead. -/
theorem setStructure_ahead {found : Option Nat}
    (beyond : ∀ i ∈ found, beyondBand f s.structureSwingOrder tr.bandLow tr.bandHigh tr.side i) :
    ∀ level ∈ (setStructure f tr found).structure_, Ahead tr.bandLow tr.bandHigh tr.side level := by
  intro level is
  cases found with
  | none => cases is
  | some i =>
    have past := (Bool.and_eq_true_iff.mp (beyond i rfl)).2
    cases side : tr.side with
    | support =>
      simp only [setStructure, side, Option.mem_def, Option.some.injEq] at is past
      subst is
      exact of_decide_eq_true past
    | resistance =>
      simp only [setStructure, side, Option.mem_def, Option.some.injEq] at is past
      subst is
      exact of_decide_eq_true past

/-- A structure that is set replaces the one before. -/
theorem setStructure_forget (found : Option Nat) :
    setStructure f { tr with structure_ := none } found = setStructure f tr found := by
  cases found <;> rfl

/-- A structure changes neither the state, nor the side, nor the counters, nor the events. -/
theorem Live.setStructure (live : Live s tr) {found : Option Nat}
    (beyond : ∀ i ∈ found, beyondBand f s.structureSwingOrder tr.bandLow tr.bandHigh tr.side i) :
    Live s (setStructure f tr found) := by
  have ahead := setStructure_ahead beyond
  obtain ⟨log, logged, unbroken⟩ := live.logged
  cases found with
  | none =>
    exact ⟨live.alive, live.flipped, live.fresh, ahead, log,
      ⟨logged.kept, logged.state, logged.touches, logged.flips, logged.last⟩, unbroken⟩
  | some i =>
    exact ⟨live.alive, live.flipped, live.fresh, ahead, log,
      ⟨logged.kept, logged.state, logged.touches, logged.flips, logged.last⟩, unbroken⟩

/-! ## A bar -/

/-- The other fields of a tracker are free. -/
theorem Live.congr {tr' : ZoneTracker} (live : Live s tr) (state : tr'.state = tr.state) (side : tr'.side = tr.side)
    (origin : tr'.originSide = tr.originSide) (low : tr'.bandLow = tr.bandLow) (high : tr'.bandHigh = tr.bandHigh)
    (touches : tr'.touches = tr.touches) (flips : tr'.flips = tr.flips) (structure_ : tr'.structure_ = tr.structure_)
    (last : tr'.lastEvent = tr.lastEvent) (events : tr'.events = tr.events) : Live s tr' := by
  obtain ⟨log, logged, unbroken⟩ := live.logged
  refine ⟨?_, ?_, ?_, ?_, log, ⟨?_, ?_, ?_, ?_, ?_⟩, unbroken⟩
  · exact state ▸ live.alive
  · rw [state, side, origin]
    exact live.flipped
  · rw [state, touches, flips]
    exact live.fresh
  · rw [structure_, low, high, side]
    exact live.ahead
  · exact events.trans logged.kept
  · exact state.trans logged.state
  · exact touches.trans logged.touches
  · exact flips.trans logged.flips
  · exact last.trans logged.last

theorem Live.adopt (live : Live s tr) : Live s (adopt f s tr k) := by
  unfold Zones.adopt
  split
  · rename_i confirmed
    apply live.setStructure
    intro i is
    cases is
    exact confirmed.2.2
  · exact live

/-- A visit tests a fresh zone and leaves the others. -/
theorem Live.visit (live : Live s tr) {event : ZoneEvent} (visit : event.isVisit = true) :
    Live s (emit f s tr event k) := by
  obtain ⟨log, logged, unbroken⟩ := live.logged
  have other : event ≠ .structuralBreak ∧ event ≠ .flip := by
    constructor <;> rintro rfl <;> cases visit
  have counted : (Zones.emit f s tr event k).touches = tr.touches + 1 := by
    cases event <;> simp_all [Zones.emit, ZoneEvent.isVisit]
  refine ⟨?_, ?_, ?_, live.ahead, log ++ [⟨event, stamp f k, close f k⟩], ?_, ?_⟩
  · exact transition_live live.alive other.1
  · show transition tr.state event = .flipped ↔ tr.side ≠ tr.originSide
    rw [← live.flipped]
    cases tr.state <;> cases event <;> simp_all [transition]
  · show transition tr.state event = .fresh ↔ _ ∧ tr.flips = 0
    rw [counted]
    cases tr.state <;> cases event <;> simp_all [transition]
  · have after := @Logged.emit f s tr k log logged event
    rw [if_neg other.2] at after
    exact after
  · intro row mem
    rcases List.mem_append.mp mem with older | last
    · exact unbroken row older
    · rw [List.mem_singleton.mp last]
      exact other.1

theorem Live.visited (live : Live s tr) : Live s (visited f s tr k) := by
  have arrived : Live s (arrive f s tr k) := by
    unfold arrive
    split
    · exact live.visit rfl
    split
    · exact live.visit rfl
    · exact live
  exact arrived.congr rfl rfl rfl rfl rfl rfl rfl rfl rfl rfl

/-- A flip turns the zone, and a second one turns it back. -/
theorem Live.flipOver (live : Live s tr) : Live s (flipOver f s tr k) := by
  obtain ⟨log, logged, unbroken⟩ := live.logged
  have after := @Logged.emit f s tr k log logged .flip
  rw [if_pos rfl] at after
  have counts : Logged s { turned (emit f s tr .flip k) with structure_ := none }
    (log ++ [⟨.flip, stamp f k, close f k⟩]) :=
    ⟨after.kept, after.state, after.touches, after.flips, after.last⟩
  have turns : Live s { turned (emit f s tr .flip k) with structure_ := none } := by
    refine ⟨?_, ?_, ?_, ?_, _, counts, ?_⟩
    · exact transition_live live.alive (by simp)
    · show transition tr.state .flip = .flipped ↔ tr.side.opposite ≠ tr.originSide
      have alive := live.alive
      have flipped := live.flipped
      cases state : tr.state <;> cases side : tr.side <;> cases origin : tr.originSide <;>
        simp_all [transition, ZoneSide.opposite]
    · show transition tr.state .flip = .fresh ↔ _ ∧ tr.flips + 1 = 0
      have alive := live.alive
      cases state : tr.state <;> simp_all [transition]
    · intro level is
      cases is
    · intro row mem
      rcases List.mem_append.mp mem with older | last
      · exact unbroken row older
      · rw [List.mem_singleton.mp last]
        exact ZoneEvent.noConfusion
  unfold Zones.flipOver
  rw [← setStructure_forget]
  exact turns.setStructure fun i found => structureSwing_ahead found

theorem Live.counted (live : Live s tr) : Live s (counted f s tr k) := by
  have counts : Live s (countBeyond f s tr k) := live.congr rfl rfl rfl rfl rfl rfl rfl rfl rfl rfl
  unfold Zones.counted
  split
  · exact counts.flipOver
  · exact counts

/-- After a bar, fewer closes in a row lie beyond the far edge than a flip takes. -/
theorem counted_beyond (positive : 0 < s.flipConfirmCloses) : (counted f s tr k).beyond < s.flipConfirmCloses := by
  unfold counted
  split
  · have zero : (flipOver f s (countBeyond f s tr k) k).beyond = 0 := by
      unfold flipOver
      dsimp only
      cases structureSwing f s _ _ _ (k + 1) <;> rfl
    omega
  · omega

/-! ## A call -/

/-- What a tracker says about itself. A live one has emitted its visits and flips, and nothing else. -/
structure Coherent (s : ZoneSettings) (tr : ZoneTracker) : Prop where
  flipped : tr.state ≠ .invalidated → (tr.state = .flipped ↔ tr.side ≠ tr.originSide)
  fresh : tr.state ≠ .invalidated → (tr.state = .fresh ↔ tr.touches = 0 ∧ tr.flips = 0)
  beyond : tr.state ≠ .invalidated → tr.beyond < s.flipConfirmCloses
  ahead : tr.state ≠ .invalidated → ∀ level ∈ tr.structure_, Ahead tr.bandLow tr.bandHigh tr.side level
  stored : tr.state ≠ .invalidated → tr.events.length = min (tr.touches + tr.flips) s.maxEventsKept
  /-- Nothing has been trimmed: what is stored tells it all. -/
  replayed : tr.state ≠ .invalidated → tr.touches + tr.flips ≤ s.maxEventsKept →
    tr.state = replay .fresh (tr.events.map (·.event)) ∧ tr.touches = visits tr.events ∧ tr.flips = flipCount tr.events
  broken : tr.state = .invalidated → ∃ row, tr.lastEvent = some row ∧ row.event = .structuralBreak

/-- Every event of a zone that was never broken is a visit or a flip. -/
theorem length_of_unbroken {log : List EventRow} (unbroken : ∀ row ∈ log, row.event ≠ .structuralBreak) :
    log.length = visits log + flipCount log := by
  induction log with
  | nil => rfl
  | cons row log ih =>
    have rest := ih fun row mem => unbroken row (List.mem_cons_of_mem _ mem)
    have here := unbroken row List.mem_cons_self
    unfold visits flipCount at rest ⊢
    rw [List.length_cons, rest, List.countP_cons, List.countP_cons]
    cases event : row.event <;> simp_all [ZoneEvent.isVisit] <;> omega

theorem Live.coherent (live : Live s tr) (beyond : tr.beyond < s.flipConfirmCloses) : Coherent s tr := by
  obtain ⟨log, logged, unbroken⟩ := live.logged
  have emitted : log.length = tr.touches + tr.flips := by
    rw [logged.touches, logged.flips]
    exact length_of_unbroken unbroken
  refine ⟨fun _ => live.flipped, fun _ => live.fresh, fun _ => beyond, fun _ => live.ahead,
    fun _ => ?_, fun _ fits => ?_,
    fun dead => absurd dead live.alive⟩
  · rw [logged.kept, ← emitted]
    unfold keep
    split
    · rename_i none_
      simp [none_]
    · rw [List.length_drop]
      omega
  · have whole : tr.events = log := logged.kept.trans (keep_of_le (emitted ▸ fits))
    rw [whole]
    exact ⟨logged.state, logged.touches, logged.flips⟩

/-- What calls keep of a tracker. -/
inductive Kept (s : ZoneSettings) (tr : ZoneTracker) : Prop
  | live (live : Live s tr) (beyond : tr.beyond < s.flipConfirmCloses)
  | broken (dead : tr.state = .invalidated) (row : EventRow) (last : tr.lastEvent = some row)
      (is : row.event = .structuralBreak)

theorem Kept.coherent (kept : Kept s tr) : Coherent s tr := by
  cases kept with
  | live live beyond => exact live.coherent beyond
  | broken dead row last is =>
    exact ⟨(absurd dead ·), (absurd dead ·), (absurd dead ·), (absurd dead ·), (absurd dead ·), (absurd dead ·),
      fun _ => ⟨row, last, is⟩⟩

/-- The loop over the bars: a break ends it, and is the last event. -/
theorem trackBars_kept (positive : 0 < s.flipConfirmCloses) {ks : List Nat} (live : Live s tr)
    (beyond : tr.beyond < s.flipConfirmCloses) : Kept s (trackBars f s tr ks) := by
  induction ks generalizing tr with
  | nil => exact .live (live.congr rfl rfl rfl rfl rfl rfl rfl rfl rfl rfl) beyond
  | cons k ks ih =>
    rw [trackBars_cons]
    split
    · refine .broken ?_ _ rfl rfl
      show transition _ .structuralBreak = .invalidated
      cases (adopt f s tr k).state <;> rfl
    · exact ih live.adopt.visited.counted (counted_beyond positive)

/-- A live tracker starts the loop as one that knows its structure. -/
theorem Live.start (live : Live s tr) (first : Nat) : Live s (checkStructure f s (noteUnseen f tr first) first) := by
  have noted : Live s (noteUnseen f tr first) := by
    unfold noteUnseen
    split
    · split
      · exact live.congr rfl rfl rfl rfl rfl rfl rfl rfl rfl rfl
      · exact live
    · exact live
  unfold checkStructure
  split
  · exact noted
  · have checked : Live s { noteUnseen f tr first with structureChecked := true } :=
      noted.congr rfl rfl rfl rfl rfl rfl rfl rfl rfl rfl
    exact checked.setStructure fun i found => structureSwing_ahead found

theorem start_beyond (first : Nat) : (checkStructure f s (noteUnseen f tr first) first).beyond = tr.beyond := by
  have noted : (noteUnseen f tr first).beyond = tr.beyond := by
    unfold noteUnseen
    split
    · split <;> rfl
    · rfl
  unfold checkStructure
  split
  · exact noted
  · cases structureSwing f s _ _ _ first <;> exact noted

theorem Kept.trackZone (positive : 0 < s.flipConfirmCloses) (kept : Kept s tr)
    (startAfter : Option Int) : Kept s (trackZone f s startAfter tr) := by
  cases kept with
  | broken dead row last is =>
    rw [trackZone_dead dead]
    exact .broken dead row last is
  | live live beyond =>
    by_cases idle : f.length ≤ firstAfter f (tr.lastBarAt.or startAfter)
    · rw [trackZone_idle idle]
      exact .live live beyond
    · rw [trackZone_new live.alive rfl (not_le.mp idle)]
      exact trackBars_kept positive (live.start _) ((start_beyond _).symm ▸ beyond)

/-- The calls of `track_zone` on one tracker, each with its frame and its `start_after`. -/
def tracked (s : ZoneSettings) (calls : List (Frame × Option Int)) (tr : ZoneTracker) : ZoneTracker :=
  calls.foldl (fun tr call => trackZone call.1 s call.2 tr) tr

theorem tracked_dead (dead : tr.state = .invalidated) (calls : List (Frame × Option Int)) :
    tracked s calls tr = tr := by
  induction calls with
  | nil => rfl
  | cons call calls ih =>
    show tracked s calls (trackZone call.1 s call.2 tr) = tr
    rw [trackZone_dead dead, ih]

theorem Kept.tracked (positive : 0 < s.flipConfirmCloses) (kept : Kept s tr)
    (calls : List (Frame × Option Int)) : Kept s (tracked s calls tr) := by
  induction calls generalizing tr with
  | nil => exact kept
  | cons call calls ih => exact ih (kept.trackZone positive call.2)

/-- A tracker of a new zone. -/
theorem kept_newTracker (positive : 0 < s.flipConfirmCloses) (zoneLow zoneHigh : ℚ) (side : ZoneSide) (tol : ℚ)
    (startAt : Option Int) : Kept s (newTracker zoneLow zoneHigh side tol startAt) := by
  refine .live ⟨by simp [newTracker], by simp [newTracker], by simp [newTracker], by simp [newTracker], [], ?_, by simp⟩
    positive
  exact ⟨by simp [newTracker, keep], rfl, rfl, rfl, rfl⟩

/-- Calls over any frames leave a tracker whose state, side and counters agree, and no call changes one that is dead. -/
theorem tracker_coherent (s : ZoneSettings) (positive : 1 ≤ s.flipConfirmCloses)
    (zoneLow zoneHigh : ℚ) (side : ZoneSide) (tol : ℚ) (startAt : Option Int)
    (calls : List (Frame × Option Int)) :
    Coherent s (tracked s calls (newTracker zoneLow zoneHigh side tol startAt)) ∧
      ((tracked s calls (newTracker zoneLow zoneHigh side tol startAt)).state = .invalidated → ∀ more,
        tracked s (calls ++ more) (newTracker zoneLow zoneHigh side tol startAt) =
          tracked s calls (newTracker zoneLow zoneHigh side tol startAt)) := by
  refine ⟨((kept_newTracker positive zoneLow zoneHigh side tol startAt).tracked positive calls).coherent,
    fun dead more => ?_⟩
  unfold tracked at dead ⊢
  rw [List.foldl_append]
  exact tracked_dead dead more

theorem tracker_coherent_zoneBars :
    Coherent { structureSwingOrder := 1 } (tracked { structureSwingOrder := 1 } [(zoneBars.take 6, none)]
        (newTracker 100 105 .support 0 (some 2))) ∧
      (tracked { structureSwingOrder := 1 } [(zoneBars.take 6, none)]
        (newTracker 100 105 .support 0 (some 2))).state = .flipped :=
  ⟨(tracker_coherent { structureSwingOrder := 1 } (by decide) 100 105 .support 0 (some 2) [(zoneBars.take 6, none)]).1,
    by decide +kernel⟩

end AdvanceTrading.Zones
