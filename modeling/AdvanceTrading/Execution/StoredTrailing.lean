import AdvanceTrading.Execution.GroupExits

/-!
# The stored trailing of a combined exit

Between two edits the stored best reading and stop move in the trade's favour
only, and the lock is set once: every write of these asks for the version the
pass read. The bookmark of a closed-candle check does not: it shares a column
with the user's numbers and goes out with the pass's flush. The numbers stay
those of the last edit exactly where no such flush lands on other numbers than
its pass had read.
-/

namespace AdvanceTrading.GroupExits

variable {n : Nat}

/-! ## What is asked for and what is stored -/

/-- The trailing as stored: its kind and the user's numbers. -/
def GroupExit.trailing (row : GroupExit) : TrailKind × TrailSpec :=
  (row.trailKind, (trailSpec row).numbers)

/-- The trailing an edit writes. -/
def EditValues.trailing (values : EditValues) : TrailKind × TrailSpec :=
  (values.trailKind, (values.trailJson.getD {}).numbers)

/-- The edit a statement commits. -/
def editedBy (stored : GroupExit) : Point → Action → Option EditValues
  | .editing values, .update =>
      if stored.status = .armed ∧ stored.version + 1 = values.version then some values else none
  | _, _ => none

/-- The edit an event commits. -/
def edited (w : Procs GroupExit Point n) : ProcEvent n Action Empty → Option EditValues
  | .act who action => editedBy w.shared (w.point who) action
  | .outside _ => none

/-- The trailing asked for after an event, `before` where it commits no edit. -/
def askedAfter (before : TrailKind × TrailSpec) (w : Procs GroupExit Point n)
    (event : ProcEvent n Action Empty) : TrailKind × TrailSpec :=
  (edited w event).elim before EditValues.trailing

/-- The trailing of the last edit that committed along a run, `before` where none did. -/
def lastAsked (before : TrailKind × TrailSpec) :
    Procs GroupExit Point n → List (ProcEvent n Action Empty) → TrailKind × TrailSpec
  | _, [] => before
  | w, event :: rest =>
      ((passes n).step w event).elim before fun t => lastAsked (askedAfter before w event) t rest

/-- A stored number that is set stays set and moves in the trade's favour only. -/
def Favours (fav : ℚ) (old new : Option ℚ) : Prop :=
  ∀ was, old = some was → ∃ is, new = some is ∧ 0 ≤ fav * (is - was)

/-- The trailing state moves in the trade's favour, and a lock that is set stays as it is. -/
structure Forward (s t : GroupExit) : Prop where
  best : Favours (favour s) s.bestValue t.bestValue
  stop : Favours (favour s) s.currentSl t.currentSl
  locked : ∀ time, s.lockedAt = some time → t.lockedAt = some time

/-- A pass that moved the bookmark flushes onto the numbers it had read. -/
def CareBy (stored : GroupExit) : Point → Action → Prop
  | .saving loaded new _ todo, .write .columns =>
      .columns ∈ todo → new.trailJson ≠ loaded.trailJson →
        (trailSpec loaded).numbers = (trailSpec stored).numbers
  | _, _ => True

/-- The condition on an event. -/
def Care (w : Procs GroupExit Point n) : ProcEvent n Action Empty → Prop
  | .act who action => CareBy w.shared (w.point who) action
  | .outside _ => True

/-! ## A pass's reading leaves the user's numbers -/

/-- The numbers and the direction of a gain are those of the row that was read. -/
structure Reads (loaded new : GroupExit) : Prop where
  numbers : (trailSpec new).numbers = (trailSpec loaded).numbers
  favour : favour new = favour loaded

variable (row : GroupExit)

theorem Reads.refl : Reads row row := ⟨rfl, rfl⟩

theorem Reads.trans {a b c : GroupExit} (first : Reads a b) (second : Reads b c) : Reads a c :=
  ⟨second.numbers.trans first.numbers, second.favour.trans first.favour⟩

theorem markSeen_reads (stop : Int) : Reads row (markSeen row stop) := ⟨rfl, rfl⟩

theorem applyTrail_reads (value : ℚ) (now : Int) : Reads row (applyTrail row value now) := by
  unfold applyTrail
  split
  · dsimp only
    split
    · exact ⟨rfl, rfl⟩
    · split
      · exact ⟨rfl, rfl⟩
      · exact ⟨rfl, rfl⟩
  · exact .refl row

theorem readCandles_reads (start now : Int) (candles : List (TriggerRules.Candle ℚ))
    (row : GroupExit) : Reads row (readCandles start now row candles).1 := by
  induction candles generalizing row with
  | nil => exact .refl row
  | cons candle rest ih =>
    rw [readCandles]
    split
    · exact ih row
    · dsimp only
      have marked := markSeen_reads row candle.stop
      split
      · exact marked
      · split
        · exact marked
        · exact marked.trans ((applyTrail_reads _ candle.close now).trans (ih _))

theorem keepLast_reads (closed : List (TriggerRules.Candle ℚ)) (now : Int) :
    Reads row (keepLast row closed now) := by
  unfold keepLast
  split <;> exact ⟨rfl, rfl⟩

theorem groupReading_reads {row new : GroupExit} {reading : Reading} {now : Int}
    {kind : Option Fired} (ran : groupReading row reading now = .ok (new, kind)) : Reads row new := by
  unfold groupReading at ran
  split at ran
  · -- a closed candle
    split at ran
    · rename_i bars timeframe _ _
      split at ran
      · cases ran
        exact .refl row
      · cases built : TriggerRules.closedCandles bars timeframe now with
        | error _ =>
          rw [built] at ran
          cases ran
        | ok closed =>
          rw [built] at ran
          have kept := keepLast_reads row closed now
          change (if _ then _ else _) = _ at ran
          split at ran
          · have read := readCandles_reads ((trailSeen (keepLast row closed now)).elim
              (keepLast row closed now).createdAt (max (keepLast row closed now).createdAt))
              now closed (keepLast row closed now)
            have ended : trailedCloseReading (keepLast row closed now) closed now = (new, kind) :=
              Except.ok.inj ran
            rw [← trailedCloseReading, ended] at read
            exact kept.trans read
          · cases plain : closeReading (keepLast row closed now) bars timeframe now with
            | error _ =>
              rw [plain] at ran
              cases ran
            | ok found =>
              rw [plain] at ran
              cases ran
              exact kept
    · cases ran
      exact .refl row
  · -- every reading
    split at ran
    · cases ran
      exact .refl row
    · rename_i value _
      cases ran
      have last : Reads row { row with lastValue := some value, lastCheckedAt := some now } := ⟨rfl, rfl⟩
      exact last.trans (applyTrail_reads _ value now)

/-! ## One statement -/

theorem Favours.refl (fav : ℚ) (value : Option ℚ) : Favours fav value value := by
  intro was set
  refine ⟨was, set, ?_⟩
  simp

theorem Favours.trans {fav : ℚ} {a b c : Option ℚ} (first : Favours fav a b)
    (second : Favours fav b c) : Favours fav a c := by
  intro was set
  obtain ⟨is, middle, gained⟩ := first was set
  obtain ⟨final, last, more⟩ := second is middle
  refine ⟨final, last, ?_⟩
  have split : fav * (final - was) = fav * (is - was) + fav * (final - is) := by ring
  rw [split]
  exact add_nonneg gained more

theorem favours_of_ahead {fav : ℚ} {old new : Option ℚ} (is_ahead : ahead fav old new = true) :
    Favours fav old new := by
  intro was set
  subst set
  cases new with
  | none => cases is_ahead
  | some is =>
    refine ⟨is, rfl, ?_⟩
    unfold ahead at is_ahead
    dsimp only at is_ahead
    split at is_ahead
    · rename_i up
      have rose := of_decide_eq_true is_ahead
      exact mul_nonneg up.le (sub_nonneg.mpr rose.le)
    · rename_i down
      have fell := of_decide_eq_true is_ahead
      exact mul_nonneg_of_nonpos_of_nonpos (not_lt.mp down) (sub_nonpos.mpr fell.le)

theorem Forward.refl : Forward row row :=
  ⟨.refl _ _, .refl _ _, fun _ set => set⟩

/-- What a step that commits no edit leaves: the version, the direction of a gain, and the trailing
state or one further on. -/
structure Onward (s t : GroupExit) : Prop where
  version : t.version = s.version
  favour : favour t = favour s
  forward : Forward s t

theorem Onward.refl : Onward row row := ⟨rfl, rfl, .refl row⟩

theorem Onward.trans {s t u : GroupExit} (first : Onward s t) (second : Onward t u) : Onward s u where
  version := second.version.trans first.version
  favour := second.favour.trans first.favour
  forward := by
    have best := second.forward.best
    have stop := second.forward.stop
    rw [first.favour] at best stop
    exact ⟨first.forward.best.trans best, first.forward.stop.trans stop,
      fun time set => second.forward.locked time (first.forward.locked time set)⟩

/-- A row that was loaded is of an earlier version, or gains the way the stored one does. -/
structure Seen (stored row : GroupExit) : Prop where
  version : row.version ≤ stored.version
  favour : row.version = stored.version → favour row = favour stored

theorem Seen.onward {s t row : GroupExit} (seen : Seen s row) (onward : Onward s t) : Seen t row where
  version := by
    rw [onward.version]
    exact seen.version
  favour := by
    intro same
    rw [onward.version] at same
    rw [onward.favour]
    exact seen.favour same

theorem Seen.later {s t row : GroupExit} (seen : Seen s row) (later : s.version < t.version) :
    Seen t row where
  version := seen.version.trans later.le
  favour := by
    intro same
    have := seen.version
    omega

/-- What a process knows of the stored row. -/
def Point.Known (stored : GroupExit) : Point → Prop
  | .loaded row => Seen stored row
  | .saving row new _ _ => Seen stored row ∧ Reads row new
  | _ => True

/-- What one statement does to the stored row. -/
structure Stepped (s : GroupExit) (point : Point) (action : Action) (t : GroupExit) (next : Point) :
    Prop where
  edit : ∀ values, editedBy s point action = some values →
    t = values.write s ∧ s.version + 1 = values.version
  onward : editedBy s point action = none → Onward s t
  trailing : editedBy s point action = none → CareBy s point action → t.trailing = s.trailing
  known : next.Known t

variable {action : Action} {point : Point}

theorem Stepped.still {s : GroupExit} {next : Point} (none_ : editedBy s point action = none)
    (known : next.Known s) :
    Stepped s point action s next where
  edit := by
    intro values some_
    rw [none_] at some_
    cases some_
  onward := fun _ => .refl s
  trailing := fun _ _ => rfl
  known := known

/-- A statement that writes the status and what goes with firing. -/
theorem Stepped.ended {s : GroupExit} {next : Point} {status : Status} {kind : Option Fired}
    {time : Option Int} {value : Option ℚ} {passes : Nat} (none_ : editedBy s point action = none)
    (known : ∀ t, next.Known t) :
    Stepped s point action { s with
      status := status, firedKind := kind, firedAt := time, firedValue := value,
      passesFiring := passes } next where
  edit := by
    intro values some_
    rw [none_] at some_
    cases some_
  onward := fun _ => ⟨rfl, rfl, .refl _ _, .refl _ _, fun _ set => set⟩
  trailing := fun _ _ => rfl
  known := known _

theorem Write.run_onward {s loaded new : GroupExit} (seen : Seen s loaded)
    (reads : Reads loaded new) (column : Write) : Onward s (column.run loaded new s) := by
  cases column with
  | best =>
    unfold Write.run
    dsimp only
    split
    · rename_i met
      obtain ⟨-, same, further⟩ := met
      rw [reads.favour, seen.favour same.symm] at further
      exact ⟨rfl, rfl, favours_of_ahead further, .refl _ _, fun _ set => set⟩
    · exact .refl s
  | stop =>
    unfold Write.run
    dsimp only
    split
    · rename_i met
      obtain ⟨-, same, further⟩ := met
      rw [reads.favour, seen.favour same.symm] at further
      exact ⟨rfl, rfl, .refl _ _, favours_of_ahead further, fun _ set => set⟩
    · exact .refl s
  | locked =>
    unfold Write.run
    dsimp only
    split
    · rename_i met
      refine ⟨rfl, rfl, .refl _ _, .refl _ _, ?_⟩
      intro time set
      rw [met.2] at set
      cases set
    · exact .refl s
  | columns => exact ⟨rfl, rfl, .refl _ _, .refl _ _, fun _ set => set⟩

/-- A write other than the flush leaves the user's trailing. -/
theorem Write.run_trailing {s loaded new : GroupExit} {column : Write} (other : column ≠ .columns) :
    (column.run loaded new s).trailing = s.trailing := by
  cases column with
  | columns => exact absurd rfl other
  | best =>
    unfold Write.run
    dsimp only
    split <;> rfl
  | stop =>
    unfold Write.run
    dsimp only
    split <;> rfl
  | locked =>
    unfold Write.run
    dsimp only
    split <;> rfl

/-- The flush leaves the user's trailing exactly where its pass moved no bookmark or had read the
numbers that are stored. -/
theorem flush_trailing {s loaded new : GroupExit} (reads : Reads loaded new) :
    (Write.columns.run loaded new s).trailing = s.trailing ↔
      (new.trailJson ≠ loaded.trailJson → (trailSpec loaded).numbers = (trailSpec s).numbers) := by
  by_cases moved : new.trailJson = loaded.trailJson
  · have kept : flushed loaded.trailJson new.trailJson s.trailJson = s.trailJson := by
      rw [moved]
      exact flushed_same _ _
    have same : (Write.columns.run loaded new s).trailing = s.trailing := by
      show (s.trailKind, ((flushed loaded.trailJson new.trailJson s.trailJson).getD {}).numbers) = _
      rw [kept]
      rfl
    exact ⟨fun _ changed => absurd moved changed, fun _ => same⟩
  · have written : (Write.columns.run loaded new s).trailing =
        (s.trailKind, (trailSpec loaded).numbers) := by
      show (s.trailKind, ((flushed loaded.trailJson new.trailJson s.trailJson).getD {}).numbers) = _
      rw [flushed_changed moved, ← reads.numbers]
      rfl
    rw [written]
    constructor
    · intro same _
      exact congrArg Prod.snd same
    · intro same
      rw [same moved]
      rfl

theorem Write.run_stepped {s loaded new : GroupExit} {reached : Option Fired} {todo : List Write}
    {column : Write} (member : column ∈ todo) (seen : Seen s loaded) (reads : Reads loaded new) :
    Stepped s (.saving loaded new reached todo) (.write column) (column.run loaded new s)
      (.saving loaded new reached (todo.erase column)) where
  edit := by
    intro values some_
    cases some_
  onward := fun _ => Write.run_onward seen reads column
  trailing := by
    intro _ care
    by_cases flush : column = .columns
    · subst flush
      exact (flush_trailing reads).mpr (care member)
    · exact Write.run_trailing flush
  known := ⟨seen.onward (Write.run_onward seen reads column), reads⟩

theorem statement_stepped {s t : GroupExit} {next : Point} (knows : point.Known s)
    (ran : statement s point action = some (t, next)) : Stepped s point action t next := by
  unfold statement at ran
  split at ran
  · cases ran
  · -- stop
    cases ran
    refine .still ?_ trivial
    unfold editedBy
    split
    · rename_i stops _
      cases stops
    · rfl
  · -- load
    split at ran
    · cases ran
      exact .still rfl ⟨le_refl _, fun _ => rfl⟩
    · cases ran
      exact .still rfl trivial
    · cases ran
  · -- read
    split at ran
    · rename_i read
      cases ran
      exact .still rfl ⟨knows, groupReading_reads read⟩
    · cases ran
      exact .still rfl trivial
  · -- legsGone
    cases ran
    exact .ended rfl fun _ => trivial
  · -- write
    split at ran
    · rename_i member
      cases ran
      exact Write.run_stepped member knows.1 knows.2
    · cases ran
  · -- commit
    split at ran
    · cases ran
      exact .still rfl trivial
    · cases ran
      exact .still rfl trivial
  · -- claim
    split at ran
    · cases ran
      exact .ended rfl fun _ => trivial
    · cases ran
      exact .still rfl trivial
  · -- legs
    split at ran
    · cases ran
      exact .ended rfl fun _ => trivial
    · cases ran
      exact .ended rfl fun _ => trivial
  · -- edit
    split at ran
    · cases ran
      exact .still rfl trivial
    · cases ran
      exact .still rfl trivial
  · -- the edit's update
    split at ran
    · rename_i matched
      cases ran
      have commits : editedBy s (.editing _) .update = some _ := if_pos matched
      refine ⟨?_, ?_, ?_, trivial⟩
      · intro values some_
        rw [commits] at some_
        cases some_
        exact ⟨rfl, matched.2⟩
      · intro none_
        rw [commits] at none_
        cases none_
      · intro none_
        rw [commits] at none_
        cases none_
    · rename_i refused
      cases ran
      exact .still (if_neg refused) trivial
  · -- cancel
    split at ran
    · cases ran
      exact .still rfl trivial
    · cases ran
  · -- the cancel's update
    split at ran
    · cases ran
      exact .ended rfl fun _ => trivial
    · cases ran
      exact .still rfl trivial
  · cases ran

/-! ## Whole runs -/

/-- A stored row, and processes that have not read it. -/
def start (n : Nat) (row : GroupExit) : Procs GroupExit Point n := ⟨row, fun _ => .idle⟩

/-- Every process knows the stored row. -/
def AllKnown (w : Procs GroupExit Point n) : Prop := ∀ who, (w.point who).Known w.shared

theorem allKnown_start : AllKnown (start n row) := fun _ => trivial

theorem Point.Known.after {s t : GroupExit} (knows : point.Known s)
    (later : Onward s t ∨ s.version < t.version) : point.Known t := by
  have seen : ∀ row, Seen s row → Seen t row := by
    intro row seen
    rcases later with onward | later
    · exact seen.onward onward
    · exact seen.later later
  cases point with
  | loaded row => exact seen row knows
  | saving row new _ _ => exact ⟨seen row knows.1, knows.2⟩
  | _ => trivial

variable {event : ProcEvent n Action Empty} {w : Procs GroupExit Point n}

/-- What one event does: it is a statement of the process that acts. -/
theorem event_stepped {t : Procs GroupExit Point n} (known : AllKnown w)
    (stepped : (passes n).step w event = some t) :
    ∃ who action shared next, event = .act who action ∧ t = w.move who shared next ∧
      Stepped w.shared (w.point who) action shared next := by
  cases event with
  | act who action =>
    obtain ⟨shared, next, ran, rfl⟩ := Procs.act_eq stepped
    exact ⟨who, action, shared, next, rfl, rfl, statement_stepped (known who) ran⟩
  | outside event => exact event.elim

theorem allKnown_step {t : Procs GroupExit Point n} (known : AllKnown w)
    (stepped : (passes n).step w event = some t) : AllKnown t := by
  obtain ⟨who, action, shared, next, rfl, rfl, effect⟩ := event_stepped known stepped
  have later : Onward w.shared shared ∨ w.shared.version < shared.version := by
    cases commits : editedBy w.shared (w.point who) action with
    | none => exact .inl (effect.onward commits)
    | some values =>
      obtain ⟨rfl, version⟩ := effect.edit values commits
      right
      show w.shared.version < values.version
      omega
  exact Procs.forall_move (P := Point.Known shared)
    (fun q _ => (known q).after later) effect.known

variable {events : List (ProcEvent n Action Empty)}

theorem allKnown_run {row : GroupExit} (ran : (passes n).run (start n row) events = some w) :
    AllKnown w :=
  (passes n).run_invariant_all (fun _ _ _ => allKnown_step) (allKnown_start row) ran

/-- While no edit commits, the trailing state moves forward only. -/
theorem run_onward {t : Procs GroupExit Point n} (known : AllKnown w)
    (unedited : (passes n).Meets (fun w event => edited w event = none) w events)
    (ran : (passes n).run w events = some t) : Onward w.shared t.shared := by
  refine (passes n).run_relates (R := fun w t => Onward w.shared t.shared) (fun w => .refl w.shared)
    (fun _ _ _ => Onward.trans) ?_ known unedited ran
  intro w event t known none_ stepped
  refine ⟨allKnown_step known stepped, ?_⟩
  obtain ⟨who, action, shared, next, rfl, rfl, effect⟩ := event_stepped known stepped
  exact effect.onward none_

/-- A careful step leaves the trailing that is asked for after it. -/
theorem step_trailing {t : Procs GroupExit Point n} (known : AllKnown w) (care : Care w event)
    (stepped : (passes n).step w event = some t) :
    t.shared.trailing = askedAfter w.shared.trailing w event := by
  obtain ⟨who, action, shared, next, rfl, rfl, effect⟩ := event_stepped known stepped
  show shared.trailing = (editedBy w.shared (w.point who) action).elim _ _
  cases commits : editedBy w.shared (w.point who) action with
  | none => exact effect.trailing commits care
  | some values =>
    obtain ⟨rfl, -⟩ := effect.edit values commits
    rfl

theorem run_trailing {t : Procs GroupExit Point n} (known : AllKnown w)
    (careful : (passes n).Meets Care w events) (ran : (passes n).run w events = some t) :
    t.shared.trailing = lastAsked w.shared.trailing w events := by
  induction events generalizing w with
  | nil =>
    cases ran
    rfl
  | cons event rest ih =>
    rw [Machine.run_cons] at ran
    obtain ⟨next, stepped, ran⟩ := Option.bind_eq_some_iff.mp ran
    have kept := step_trailing known careful.1 stepped
    have ended := ih (allKnown_step known stepped) (careful.2 next stepped) ran
    rw [lastAsked, stepped, ended, kept]
    rfl

theorem lastAsked_snoc {before : TrailKind × TrailSpec} {t u : Procs GroupExit Point n}
    (ran : (passes n).run w events = some t) (stepped : (passes n).step t event = some u) :
    lastAsked before w (events ++ [event]) = askedAfter (lastAsked before w events) t event := by
  induction events generalizing w before with
  | nil =>
    cases ran
    show ((passes n).step t event).elim before _ = askedAfter before t event
    rw [stepped]
    rfl
  | cons first rest ih =>
    rw [Machine.run_cons] at ran
    obtain ⟨next, taken, ran⟩ := Option.bind_eq_some_iff.mp ran
    rw [List.cons_append, lastAsked, lastAsked, taken]
    exact ih ran

/-- A flush that is not careful leaves other numbers than are asked for. -/
theorem careful_of_trailing (known : AllKnown w)
    (kept : ∀ t, (passes n).step w event = some t → t.shared.trailing = askedAfter w.shared.trailing w event) :
    Care w event := by
  cases event with
  | outside event => exact event.elim
  | act who action =>
    have knows := known who
    show CareBy w.shared (w.point who) action
    unfold CareBy
    split
    · rename_i loaded new reached todo stands
      intro member
      rw [stands] at knows
      have ran : statement w.shared (w.point who) (.write .columns) =
          some (Write.columns.run loaded new w.shared,
            .saving loaded new reached (todo.erase .columns)) := by
        rw [stands]
        exact if_pos member
      have stepped : (passes n).step w (.act who (.write .columns)) =
          some (w.move who (Write.columns.run loaded new w.shared)
            (.saving loaded new reached (todo.erase .columns))) := by
        show (statement w.shared (w.point who) (.write .columns)).map _ = _
        rw [ran]
        rfl
      have unedited : askedAfter w.shared.trailing w (.act who (.write .columns)) =
          w.shared.trailing := by
        show (editedBy w.shared (w.point who) (.write .columns)).elim _ _ = _
        rw [stands]
        rfl
      have same := kept _ stepped
      rw [unedited] at same
      exact (flush_trailing knows.2).mp same
    · trivial

/-- In every run over a stored row: while no edit commits, its best reading and its stop move in
the trade's favour only and its lock is set once; and the trailing stored is that of the last
edit at every point of the run exactly where every pass that moved the bookmark flushes onto
the numbers it had read. -/
theorem trailing_survives_edits (row : GroupExit) (events : List (ProcEvent n Action Empty)) :
    (∀ earlier later rest w t, events = earlier ++ later ++ rest →
      (passes n).run (start n row) earlier = some w → (passes n).run w later = some t →
        (passes n).Meets (fun w event => edited w event = none) w later →
          Forward w.shared t.shared) ∧
    ((∀ earlier rest w, events = earlier ++ rest →
      (passes n).run (start n row) earlier = some w →
        w.shared.trailing = lastAsked row.trailing (start n row) earlier) ↔
      (passes n).Meets Care (start n row) events) := by
  refine ⟨?_, ?_, ?_⟩
  · intro earlier later rest w t _ reached ran unedited
    exact (run_onward (allKnown_run reached) unedited ran).forward
  · intro stored
    apply (passes n).meets_of_splits
    intro earlier event rest w split ran
    apply careful_of_trailing (allKnown_run ran)
    intro t stepped
    have before := stored earlier (event :: rest) w split ran
    have after := stored (earlier ++ [event]) rest t (by rw [split, List.append_assoc]; rfl) (by
      rw [Machine.run_append, ran]
      show (passes n).run w [event] = some t
      rw [Machine.run_cons, stepped]
      rfl)
    rw [after, lastAsked_snoc ran stepped, before]
  · intro careful earlier rest w split ran
    rw [split] at careful
    exact run_trailing (allKnown_start row) ((passes n).meets_left careful) ran

/-- A stop-loss at 100 on the spot, checked on one-minute candles, that locks 20 after 50. -/
def lockExit : GroupExit where
  measure := .spot
  tradeIds := [1, 2]
  spotSymbol := some "NIFTY"
  spotExchange := some "NSE"
  slValue := some 100
  slSide := some .below
  basisValue := some 120
  checkMode := .close
  timeframeMinutes := some 1
  trailKind := .lock
  trailJson := some { after := some 50, lock := some 20 }
  createdAt := 0

/-- The user asks for a lock of 60 after 100 instead. -/
def lockLater : EditRequest where
  version := 1
  slValue := some 100
  targetValue := none
  nowValue := some 125
  trailing := some (.lock, { after := some 100, lock := some 60 })

/-- A candle that closed at 125. -/
def candleAt125 : Reading where
  bars := some [{ timestamp := 0, low := 124, high := 126, close := 125 }]

/-- One pass reads the row and a closed candle, the user's edit commits, and the pass flushes. -/
def editBeforeFlush : List (ProcEvent 2 Action Empty) :=
  [.act 0 .load, .act 0 (.read candleAt125 TriggerRules.minuteUs),
    .act 1 (.edit [{ mode := .paper }, { mode := .paper }] lockLater), .act 1 .update,
    .act 0 (.write .best), .act 0 (.write .columns), .act 0 .commit]

/-- The edit asked for 100 and 60; the stored row of the edit's version has 50 and 20. -/
theorem editBeforeFlush_restores :
    ∃ w, (passes 2).run (start 2 lockExit) editBeforeFlush = some w ∧ w.shared.version = 2 ∧
      lastAsked lockExit.trailing (start 2 lockExit) editBeforeFlush =
        (.lock, { after := some 100, lock := some 60 }) ∧
      w.shared.trailing = (.lock, { after := some 50, lock := some 20 }) := by
  have runs : ((passes 2).run (start 2 lockExit) editBeforeFlush).any (fun w =>
      decide (w.shared.version = 2 ∧
        lastAsked lockExit.trailing (start 2 lockExit) editBeforeFlush =
          (.lock, { after := some 100, lock := some 60 }) ∧
        w.shared.trailing = (.lock, { after := some 50, lock := some 20 }))) = true := by
    decide +kernel
  obtain ⟨w, ran, met⟩ := (Option.any_eq_true _ _).mp runs
  exact ⟨w, ran, of_decide_eq_true met⟩

end AdvanceTrading.GroupExits
