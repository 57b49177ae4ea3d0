import AdvanceTrading.MarketData.SymbolCalls
import AdvanceTrading.Misc.Processes

/-!
# Registrations from two processes

One call of each of two processes on the set they share: each loads the set, works on
what it loaded, and saves. Between the load and the save the other process may load
and save as well; the mirror takes every save. A process keeps its own copy for when
the mirror has none.
-/

namespace AdvanceTrading.FanIn

/-- What a call saves, of the set it loaded (`fanin.py:209-247`); one that does not register saves nothing. -/
def Call.saved (now : ℚ) (loaded : Entries) : Call → Option Entries
  | .admitOne symbol exchange priority _ register =>
      if register then some (upsert (prune loaded now) (keyOf symbol exchange) priority now) else none
  | .admitMany symbols priority cap register =>
      let (base, out) := Session.admitLoop priority cap now register (prune loaded now) symbols
      if register ∧ out ≠ [] then some base else none
  | .replace priority symbols => some (replaced (prune loaded now) priority symbols now)
  | .plan _ => none

/-- Where a process is in its call. -/
inductive Stage where
  | idle
  /-- It has read the mirror, and works on this set. -/
  | loaded (mirror : Option Entries) (set : Entries)
  | done
  deriving DecidableEq

/-- A process: its call and the time of it, its own copy, and where it is. -/
structure Registrar where
  now : ℚ
  call : Call
  held : Entries
  stage : Stage

inductive Statement where
  | load
  | save
  deriving DecidableEq

/-- The next statement of a process on the mirror. -/
def registering (mirror : Option Entries) (p : Registrar) : Statement → Option (Option Entries × Registrar)
  | .load =>
      match p.stage with
      | .idle =>
          let (s, set) := (⟨mirror, p.held⟩ : Session).load
          some (mirror, { p with held := s.held, stage := .loaded mirror set })
      | _ => none
  | .save =>
      match p.stage with
      | .loaded _ set =>
          match p.call.saved p.now set with
          | some entries =>
              let s := (⟨mirror, p.held⟩ : Session).save true entries
              some (s.stored, { p with held := s.held, stage := .done })
          | none => some (mirror, { p with stage := .done })
      | _ => none

/-- Two processes, in any interleaving of their statements. -/
def twoProcesses : Machine (Procs (Option Entries) Registrar 2) (ProcEvent 2 Statement Empty) :=
  Procs.interleave registering (fun _ never => never.elim) 2

/-- One process's whole call. -/
def wholeCall (who : Fin 2) : List (ProcEvent 2 Statement Empty) := [.act who .load, .act who .save]

/-- A save finds the mirror as the process read it. -/
def FindsAsLoaded (w : Procs (Option Entries) Registrar 2) : ProcEvent 2 Statement Empty → Prop
  | .act who .save => ∀ mirror set, (w.point who).stage = .loaded mirror set → w.shared = mirror
  | _ => True

instance (w : Procs (Option Entries) Registrar 2) : ∀ event, Decidable (FindsAsLoaded w event)
  | .act who .save =>
      match stage : (w.point who).stage with
      | .loaded mirror set =>
          decidable_of_iff (w.shared = mirror) (by simp [FindsAsLoaded, stage])
      | .idle | .done => isTrue (by simp [FindsAsLoaded, stage])
  | .act _ .load => isTrue trivial
  | .outside never => never.elim

/-! ## Interleavings -/

section Interleavings

/-- The mirror after a process's whole call. -/
def afterCall (p : Registrar) (mirror : Option Entries) : Option Entries :=
  match p.call.saved p.now (mirror.getD p.held) with
  | some entries => some entries
  | none => mirror

variable {w u : Procs (Option Entries) Registrar 2} {event : ProcEvent 2 Statement Empty}

/-- A process once it has read the mirror. -/
def Registrar.afterLoad (p : Registrar) (mirror : Option Entries) : Registrar :=
  { p with held := mirror.getD p.held, stage := .loaded mirror (mirror.getD p.held) }

theorem registering_load {mirror : Option Entries} {p : Registrar} (isIdle : p.stage = .idle) :
    registering mirror p .load = some (mirror, p.afterLoad mirror) := by
  simp only [registering, isIdle, Session.load_eq]
  rfl

/-- What the two processes have done to the mirror that `w` started with. -/
structure Traced (w u : Procs (Option Entries) Registrar 2) : Prop where
  own : ∀ q, (u.point q).now = (w.point q).now ∧ (u.point q).call = (w.point q).call
  held : ∀ q, (u.point q).stage = .idle → (u.point q).held = (w.point q).held
  read : ∀ q mirror set, (u.point q).stage = .loaded mirror set → set = mirror.getD (w.point q).held
  untouched : (∀ q, (u.point q).stage ≠ .done) → u.shared = w.shared
  one : ∀ a b, a ≠ b → (u.point a).stage = .done → (u.point b).stage ≠ .done → u.shared = afterCall (w.point a) w.shared
  both : (∀ q, (u.point q).stage = .done) → ∃ a b, a ≠ b ∧
    u.shared = afterCall (w.point b) (afterCall (w.point a) w.shared)

theorem traced_start (idle : ∀ q, (w.point q).stage = .idle) : Traced w w where
  own _ := ⟨rfl, rfl⟩
  held _ _ := rfl
  read q mirror set loaded := by rw [idle q] at loaded; cases loaded
  untouched _ := rfl
  one a b _ done _ := by rw [idle a] at done; cases done
  both done := by have := done 0; rw [idle 0] at this; cases this

/-- A load leaves the mirror, and neither ends the call. -/
theorem Traced.load (traced : Traced w u) (who : Fin 2) (isIdle : (u.point who).stage = .idle) :
    Traced w (u.move who u.shared ((u.point who).afterLoad u.shared)) := by
  have stages (q : Fin 2) : ((u.move who u.shared ((u.point who).afterLoad u.shared)).point
      q).stage = .done ↔ (u.point q).stage = .done := by
    by_cases same : q = who
    · subst same
      rw [Procs.move_self, isIdle]
      simp [Registrar.afterLoad]
    · rw [Procs.move_other same]
  refine ⟨fun q => ?_, fun q idle => ?_, fun q mirror set loaded => ?_, ?_, ?_, ?_⟩
  · by_cases same : q = who
    · subst same
      rw [Procs.move_self]
      exact traced.own q
    · rw [Procs.move_other same]
      exact traced.own q
  · by_cases same : q = who
    · subst same
      rw [Procs.move_self] at idle
      cases idle
    · rw [Procs.move_other same] at idle ⊢
      exact traced.held q idle
  · by_cases same : q = who
    · subst same
      rw [Procs.move_self] at loaded
      cases loaded
      rw [traced.held q isIdle]
    · rw [Procs.move_other same] at loaded
      exact traced.read q mirror set loaded
  · intro none_
    exact traced.untouched fun q => (stages q).not.mp (none_ q)
  · intro a b apart done waits
    exact traced.one a b apart ((stages a).mp done) ((stages b).not.mp waits)
  · intro done
    exact traced.both fun q => (stages q).mp (done q)

/-- A save of what was read from the mirror as it is ends the call as a whole one would. -/
theorem Traced.save {next : Registrar} {mirror : Option Entries} {set : Entries} {shared : Option Entries}
    (traced : Traced w u) (who : Fin 2) (isLoaded : (u.point who).stage = .loaded mirror set)
      (found : u.shared = mirror)
    (isShared : shared = match (u.point who).call.saved (u.point who).now set with
      | some entries => some entries
      | none => u.shared)
    (own : next.now = (u.point who).now ∧ next.call = (u.point who).call) (isDone : next.stage = .done) :
    Traced w (u.move who shared next) := by
  have isAfter : shared = afterCall (w.point who) u.shared := by
    have isSet := traced.read who mirror set isLoaded
    obtain ⟨isNow, isCall⟩ := traced.own who
    rw [isShared, isCall, isNow, isSet, ← found]
    rfl
  have notDone : (u.point who).stage ≠ .done := by
    rw [isLoaded]
    simp
  have ended : ((u.move who shared next).point who).stage = .done := by
    rw [Procs.move_self]
    exact isDone
  refine ⟨fun q => ?_, fun q idle => ?_, fun q mirror' set' loaded => ?_, ?_, ?_, ?_⟩
  · by_cases same : q = who
    · subst same
      rw [Procs.move_self]
      exact ⟨own.1.trans (traced.own q).1, own.2.trans (traced.own q).2⟩
    · rw [Procs.move_other same]
      exact traced.own q
  · by_cases same : q = who
    · subst same
      rw [ended] at idle
      cases idle
    · rw [Procs.move_other same] at idle ⊢
      exact traced.held q idle
  · by_cases same : q = who
    · subst same
      rw [ended] at loaded
      cases loaded
    · rw [Procs.move_other same] at loaded
      exact traced.read q mirror' set' loaded
  · intro none_
    exact absurd ended (none_ who)
  · intro a b apart done waits
    have isOther : b ≠ who := by
      rintro rfl
      exact waits ended
    have isWho : a = who := by omega
    subst isWho
    rw [Procs.move_other isOther] at waits
    have start := traced.untouched fun q => by
      by_cases same : q = a
      · exact same ▸ notDone
      · have isB : q = b := by omega
        exact isB ▸ waits
    show shared = _
    rw [isAfter, start]
  · intro done
    obtain ⟨other, apart⟩ : ∃ other, other ≠ who := ⟨1 - who, by omega⟩
    have before := done other
    rw [Procs.move_other apart] at before
    refine ⟨other, who, apart, ?_⟩
    show shared = _
    rw [isAfter, traced.one other who apart before notDone]

theorem traced_step (traced : Traced w u) {v : Procs (Option Entries) Registrar 2} (finds : FindsAsLoaded u event)
    (stepped : twoProcesses.step u event = some v) : Traced w v := by
  cases event with
  | act who statement =>
    obtain ⟨shared, next, ran, rfl⟩ := Procs.act_eq stepped
    cases statement with
    | load =>
      by_cases isIdle : (u.point who).stage = .idle
      · rw [registering_load isIdle] at ran
        cases ran
        exact traced.load who isIdle
      · dsimp only [registering] at ran
        split at ran
        · contradiction
        · cases ran
    | save =>
      dsimp only [registering] at ran
      split at ran
      · rename_i mirror set isLoaded
        have found := finds mirror set isLoaded
        split at ran
        · rename_i entries saved
          cases ran
          exact traced.save who isLoaded found (by rw [saved]; rfl) ⟨rfl, rfl⟩ rfl
        · rename_i saved
          cases ran
          exact traced.save who isLoaded found (by rw [saved]) ⟨rfl, rfl⟩ rfl
      · cases ran
  | outside never => exact never.elim

/-- A process that waits runs its whole call. -/
theorem run_wholeCall (who : Fin 2) (isIdle : (u.point who).stage = .idle) :
    ∃ v, twoProcesses.run u (wholeCall who) = some v ∧ v.shared = afterCall (u.point who) u.shared ∧
      ∀ q, q ≠ who → v.point q = u.point q := by
  obtain ⟨next, saves⟩ : ∃ next, registering u.shared ((u.point who).afterLoad u.shared) .save =
      some (afterCall (u.point who) u.shared, next) := by
    dsimp only [registering, afterCall, Registrar.afterLoad]
    split
    · exact ⟨_, rfl⟩
    · exact ⟨_, rfl⟩
  refine ⟨u.move who (afterCall (u.point who) u.shared) next, ?_, rfl, fun q other => Procs.move_other other⟩
  have alone : twoProcesses.run u (wholeCall who) = _ :=
    Procs.run_solo registering (fun _ never => Empty.elim never) who [.load, .save] u
  rw [alone]
  simp only [Procs.solo, registering_load isIdle, Option.bind_some, saves, Option.map_some]

end Interleavings

/-- Two registrations whose saves find the mirror as they read it leave what one after the other leaves. -/
theorem registrations_serial {w u : Procs (Option Entries) Registrar 2} {events : List (ProcEvent 2 Statement Empty)}
    (idle : ∀ q, (w.point q).stage = .idle) (ran : twoProcesses.run w events = some u)
    (done : ∀ q, (u.point q).stage = .done) (meets : twoProcesses.Meets FindsAsLoaded w events) :
    ∃ a b, a ≠ b ∧ (twoProcesses.run w (wholeCall a ++ wholeCall b)).map Procs.shared = some u.shared := by
  have traced : Traced w u := twoProcesses.run_invariant (P := Traced w)
    (fun s event t traced finds stepped => traced_step traced finds stepped) (traced_start idle) meets ran
  obtain ⟨a, b, apart, isShared⟩ := traced.both done
  refine ⟨a, b, apart, ?_⟩
  obtain ⟨v, first, isFirst, others⟩ := run_wholeCall a (idle a)
  have isB : v.point b = w.point b := others b (Ne.symm apart)
  obtain ⟨v', second, isSecond, -⟩ := run_wholeCall (u := v) b (by rw [isB]; exact idle b)
  rw [Machine.run_append, first, Option.bind_some, second, Option.map_some, isSecond, isB, isFirst, isShared]

/-- The interface process puts a symbol on a chart while the worker replaces the positions. -/
def chartWhilePositions : Procs (Option Entries) Registrar 2 where
  shared := some []
  point who := ⟨100, if who = 0 then .admitOne "INFY" "NSE" .chart 200 true else
    .replace .position [("TCS", "NSE")], [], .idle⟩

/-- The worker reads the set after the chart is saved. -/
theorem registrations_serial_inTurn : ∃ u, twoProcesses.run chartWhilePositions (wholeCall 0 ++ wholeCall 1) = some u ∧
    ∃ a b, a ≠ b ∧ (twoProcesses.run chartWhilePositions (wholeCall a ++ wholeCall b)).map
      Procs.shared = some u.shared := by
  have runs : (twoProcesses.run chartWhilePositions (wholeCall 0 ++ wholeCall 1)).any (fun u => decide
      (∀ q, (u.point q).stage = .done)) = true := by decide +kernel
  obtain ⟨u, ran, done⟩ := (Option.any_eq_true _ _).mp runs
  have meets : twoProcesses.Meets FindsAsLoaded chartWhilePositions (wholeCall 0 ++ wholeCall 1) := by decide +kernel
  exact ⟨u, ran, registrations_serial (by decide +kernel) ran (of_decide_eq_true done) meets⟩

/-- Both read the set before either saves: the chart's demand is gone, which no order of the two calls loses. -/
theorem chart_overwritten : ∃ u, twoProcesses.run chartWhilePositions
      [.act 0 .load, .act 1 .load, .act 0 .save, .act 1 .save] = some u ∧ (∀ q, (u.point q).stage = .done) ∧
    ∀ a b, a ≠ b → (twoProcesses.run chartWhilePositions (wholeCall a ++ wholeCall b)).map
      Procs.shared ≠ some u.shared := by
  have runs : (twoProcesses.run chartWhilePositions
      [.act 0 .load, .act 1 .load, .act 0 .save, .act 1 .save]).any (fun u => decide ((∀ q, (u.point q).stage = .done) ∧
        ∀ a b : Fin 2, a ≠ b →
          (twoProcesses.run chartWhilePositions (wholeCall a ++ wholeCall b)).map Procs.shared ≠
            some u.shared)) = true := by
    decide +kernel
  obtain ⟨u, ran, told⟩ := (Option.any_eq_true _ _).mp runs
  exact ⟨u, ran, of_decide_eq_true told⟩

end AdvanceTrading.FanIn
