import Mathlib.Algebra.Order.Ring.Rat
import Mathlib.Data.List.Sort

/-!
# Closing a structure

Model of `close_group` (`app/trading/position_monitor.py:1207-1265`) up to the alert
on held wings that follows its loop, with `is_short`
(`app/execution/group_exits.py:95-100`). What a `close_position` call answers, and
whether a broker session is found for a leg, is left to a `World`, which may
answer by everything called so far.
-/

namespace AdvanceTrading.PositionMonitor

/-! ## Legs and answers -/

inductive Mode where
  | paper
  | live
  deriving DecidableEq, Repr

/-- The sides of a position, and the roles of a structure's legs. -/
inductive Role where
  | long
  | short
  deriving DecidableEq, Repr

/-- What `close_group` reads of a `TradeRecord`, as loaded. -/
structure Leg where
  id : Nat
  symbol : String
  mode : Mode
  legRole : Option Role
  direction : Role
  exitTime : Option Int := none
  deriving DecidableEq, Repr

/-- `is_short`: the structure role where there is one, else the leg's own direction. -/
def Leg.isShort (leg : Leg) : Bool := leg.legRole.getD leg.direction = .short

structure CloseOutcome where
  tradeId : Nat
  closed : Bool
  warnings : List String := []
  deriving DecidableEq, Repr

/-- A call of `close_position`. -/
structure Call where
  leg : Leg
  price : ℚ
  reason : String
  /-- A broker session was passed. -/
  broker : Bool
  deriving DecidableEq

/-- What a call returned, and the leg's `exit_time` then. -/
structure Returned where
  closed : Bool
  warnings : List String
  exitTime : Option Int
  /-- `exit_time` is set before an outcome says closed (`position_monitor.py:1068-1082`). -/
  booked : closed = true → exitTime.isSome = true

inductive Answer where
  | raised
  | returned (result : Returned)

/-- The calls made, each with its answer, in order. -/
abbrev Calls := List (Call × Answer)

structure World where
  /-- `broker_for_trade`; `none` where it raises. -/
  brokerFor : Calls → Leg → Option Bool
  closePosition : Calls → Call → Answer

/-! ## The loop -/

/-- How far a pass over the legs has come. -/
structure Progress where
  calls : Calls := []
  outcomes : List CloseOutcome := []
  stuckShort : Option Leg := none
  raised : Bool := false

/-- The arguments of `close_group` besides the legs. -/
structure Request where
  prices : Nat → Option ℚ
  reason : String
  reasons : Nat → Option String := fun _ => none
  broker : Bool

/-- Shorts first, then by id. -/
def Leg.before (a b : Leg) : Prop :=
  (a.isShort = true ∧ b.isShort = false) ∨ (a.isShort = b.isShort ∧ a.id ≤ b.id)

instance : DecidableRel Leg.before := fun _ _ => inferInstanceAs (Decidable (_ ∨ _))

/-- The outcome of a leg is kept; the first short it leaves open is the one that is stuck. -/
def Progress.note (p : Progress) (leg : Leg) (outcome : CloseOutcome) (exitTime : Option Int) :
    Progress where
  calls := p.calls
  outcomes := p.outcomes ++ [outcome]
  stuckShort := p.stuckShort.or
    (if leg.isShort ∧ outcome.closed = false ∧ exitTime = none then some leg else none)
  raised := p.raised

/-- The outcome of a wing that waits for a short. -/
def held (wing short : Leg) : CloseOutcome where
  tradeId := wing.id
  closed := false
  warnings :=
    [s!"Held: short leg #{short.id} ({short.symbol}) did not close - closing this wing now would " ++
      "leave a naked short; the short is tried first again next cycle"]

/-- The outcome of a leg without a quote. -/
def unpriced (leg : Leg) : CloseOutcome where
  tradeId := leg.id
  closed := false
  warnings := [s!"Price unavailable for {leg.symbol} - left open"]

/-- The broker session a leg is closed with: a LIVE leg's own where none was given. -/
def legBroker (world : World) (request : Request) (calls : Calls) (leg : Leg) : Option Bool :=
  match leg.mode, request.broker with
  | .paper, _ => some false
  | .live, true => some true
  | .live, false => world.brokerFor calls leg

/-- `close_position` of one leg. -/
def Progress.attempt (world : World) (request : Request) (p : Progress) (leg : Leg) : Progress :=
  match request.prices leg.id with
  | none => p.note leg (unpriced leg) leg.exitTime
  | some price =>
      match legBroker world request p.calls leg with
      | none => { p with raised := true }
      | some broker =>
          let call := ⟨leg, price, (request.reasons leg.id).getD request.reason, broker⟩
          let answer := world.closePosition p.calls call
          let p := { p with calls := p.calls ++ [(call, answer)] }
          match answer with
          | .raised => { p with raised := true }
          | .returned result => p.note leg ⟨leg.id, result.closed, result.warnings⟩ result.exitTime

/-- One leg's turn; nothing happens after an exception. -/
def Progress.turn (world : World) (request : Request) (p : Progress) (leg : Leg) : Progress :=
  if p.raised then p
  else
    match p.stuckShort with
    | some short =>
        if leg.isShort then p.attempt world request leg
        else p.note leg (held leg short) leg.exitTime
    | none => p.attempt world request leg

/-- The order in which the legs have their turn. -/
def turns (legs : List Leg) : List Leg := legs.insertionSort Leg.before

/-- `close_group`, as far as it has come when it returns or raises. -/
def closeGroup (world : World) (request : Request) (legs : List Leg) : Progress :=
  (turns legs).foldl (Progress.turn world request) {}

/-- The outcomes the caller gets; none where an exception passes through. -/
def Progress.report (p : Progress) : Option (List CloseOutcome) :=
  if p.raised then none else some p.outcomes

/-! ## The order of turns -/

instance : Std.Total Leg.before where
  total a b := by
    unfold Leg.before
    cases a.isShort <;> cases b.isShort <;> simp [Nat.le_total]

instance : IsTrans Leg Leg.before where
  trans a b c first second := by
    unfold Leg.before at *
    rcases first with ⟨short, wing⟩ | ⟨same, le⟩
    · rcases second with ⟨short', -⟩ | ⟨same', -⟩
      · rw [wing] at short'
        cases short'
      · exact .inl ⟨short, same' ▸ wing⟩
    · rcases second with ⟨short', wing'⟩ | ⟨same', le'⟩
      · exact .inl ⟨same.trans short', wing'⟩
      · exact .inr ⟨same.trans same', le.trans le'⟩

variable {legs : List Leg} {leg : Leg}

theorem mem_turns : leg ∈ turns legs ↔ leg ∈ legs :=
  (List.perm_insertionSort Leg.before legs).mem_iff

/-- After a wing's turn only wings have theirs. -/
theorem turns_wings_last (legs : List Leg) :
    (turns legs).Pairwise fun a b => a.isShort = false → b.isShort = false := by
  refine (List.pairwise_insertionSort Leg.before legs).imp ?_
  intro a b before wing
  rcases before with ⟨short, -⟩ | ⟨same, -⟩
  · rw [wing] at short
    cases short
  · exact same ▸ wing

/-! ## What a turn does -/

section Turns

variable (world : World) (request : Request)

/-- A pass that has not raised leaves a leg with an outcome, calls for it, or raises. -/
theorem attempt_cases (p : Progress) (leg : Leg) :
    p.attempt world request leg = p.note leg (unpriced leg) leg.exitTime
      ∨ p.attempt world request leg = { p with raised := true }
      ∨ ∃ call answer, call.leg = leg ∧
          ((answer = .raised ∧ p.attempt world request leg
              = { p with calls := p.calls ++ [(call, answer)], raised := true })
            ∨ ∃ result, answer = .returned result ∧ p.attempt world request leg
              = ({ p with calls := p.calls ++ [(call, answer)] } : Progress).note leg
                  ⟨leg.id, result.closed, result.warnings⟩ result.exitTime) := by
  unfold Progress.attempt
  cases request.prices leg.id with
  | none => exact .inl rfl
  | some price =>
    cases legBroker world request p.calls leg with
    | none => exact .inr (.inl rfl)
    | some broker =>
      refine .inr (.inr ⟨⟨leg, price, (request.reasons leg.id).getD request.reason, broker⟩,
        world.closePosition p.calls ⟨leg, price, (request.reasons leg.id).getD request.reason, broker⟩,
        rfl, ?_⟩)
      dsimp only
      cases world.closePosition p.calls
        ⟨leg, price, (request.reasons leg.id).getD request.reason, broker⟩ with
      | raised => exact .inl ⟨rfl, rfl⟩
      | returned result => exact .inr ⟨result, rfl, rfl⟩

theorem turn_cases (p : Progress) (leg : Leg) :
    (p.raised = true ∧ p.turn world request leg = p)
      ∨ p.raised = false ∧
        ((∃ short, p.stuckShort = some short ∧ leg.isShort = false ∧
            p.turn world request leg = p.note leg (held leg short) leg.exitTime)
          ∨ (p.stuckShort = none ∨ leg.isShort = true) ∧
            p.turn world request leg = p.attempt world request leg) := by
  unfold Progress.turn
  cases raised : p.raised with
  | true => exact .inl ⟨rfl, rfl⟩
  | false =>
    refine .inr ⟨rfl, ?_⟩
    cases stuck : p.stuckShort with
    | none => exact .inr ⟨.inl rfl, rfl⟩
    | some short =>
      cases isShort : leg.isShort with
      | true => exact .inr ⟨.inr rfl, rfl⟩
      | false => exact .inl ⟨short, rfl, rfl, rfl⟩

/-- A turn calls for its own leg, once, or not at all. -/
theorem turn_calls (p : Progress) (leg : Leg) :
    (p.turn world request leg).calls = p.calls
      ∨ ∃ call answer, call.leg = leg ∧
          (p.turn world request leg).calls = p.calls ++ [(call, answer)] := by
  rcases turn_cases world request p leg with ⟨-, same⟩ | ⟨-, ⟨short, -, -, waits⟩ | ⟨-, attempts⟩⟩
  · exact .inl (by rw [same])
  · exact .inl (by rw [waits]; rfl)
  · rw [attempts]
    rcases attempt_cases world request p leg with
      noted | raised | ⟨call, answer, isLeg, ⟨-, raised⟩ | ⟨result, -, noted⟩⟩
    · exact .inl (by rw [noted]; rfl)
    · exact .inl (by rw [raised])
    · exact .inr ⟨call, answer, isLeg, by rw [raised]⟩
    · exact .inr ⟨call, answer, isLeg, by rw [noted]; rfl⟩

/-- The calls follow the turns, at most one for each. -/
theorem calls_sublist (legs done : List Leg) (p : Progress)
    (sofar : (p.calls.map fun e => e.1.leg).Sublist done) :
    ((legs.foldl (Progress.turn world request) p).calls.map fun e => e.1.leg).Sublist (done ++ legs) := by
  induction legs generalizing done p with
  | nil => simpa using sofar
  | cons leg legs ih =>
    rw [List.foldl_cons, List.append_cons]
    apply ih
    rcases turn_calls world request p leg with same | ⟨call, answer, isLeg, called⟩
    · rw [same]
      exact sofar.trans (List.sublist_append_left done [leg])
    · rw [called, List.map_append]
      simpa [isLeg] using sofar.append (List.Sublist.refl [leg])

end Turns

/-! ## What holds between turns -/

/-- The leg was closed when it was loaded, or a call left it so. -/
def ClosedAfter (calls : Calls) (leg : Leg) : Prop :=
  leg.exitTime.isSome = true ∨
    ∃ call result, (call, Answer.returned result) ∈ calls ∧ call.leg = leg ∧
      result.exitTime.isSome = true

theorem ClosedAfter.mono {calls calls' : Calls} (closed : ClosedAfter calls leg)
    (more : calls ⊆ calls') : ClosedAfter calls' leg := by
  rcases closed with loaded | ⟨call, result, mem, isLeg, booked⟩
  · exact .inl loaded
  · exact .inr ⟨call, result, more mem, isLeg, booked⟩

/-- An outcome is its leg's, and says closed only where a call for the leg did. -/
def Reports (calls : Calls) (leg : Leg) (outcome : CloseOutcome) : Prop :=
  outcome.tradeId = leg.id ∧ (outcome.closed = true →
    ∃ call result, (call, Answer.returned result) ∈ calls ∧ call.leg = leg ∧ result.closed = true)

theorem Reports.mono {calls calls' : Calls} {outcome : CloseOutcome}
    (reports : Reports calls leg outcome) (more : calls ⊆ calls') : Reports calls' leg outcome := by
  refine ⟨reports.1, fun closed => ?_⟩
  obtain ⟨call, result, mem, isLeg, saysClosed⟩ := reports.2 closed
  exact ⟨call, result, more mem, isLeg, saysClosed⟩

theorem exists_outcome {calls : Calls} {outcomes : List CloseOutcome}
    (reports : List.Forall₂ (Reports calls) legs outcomes) (mem : leg ∈ legs) :
    ∃ outcome ∈ outcomes, Reports calls leg outcome := by
  induction reports with
  | nil => cases mem
  | cons first _ ih =>
    rcases List.mem_cons.mp mem with rfl | later
    · exact ⟨_, List.mem_cons_self, first⟩
    · obtain ⟨outcome, inOutcomes, reports⟩ := ih later
      exact ⟨outcome, List.mem_cons_of_mem _ inOutcomes, reports⟩

/-- A call for a wing was made with every short closed. -/
def Guarded (legs : List Leg) (calls : Calls) : Prop :=
  ∀ earlier call answer later, calls = earlier ++ (call, answer) :: later →
    call.leg.isShort = false → ∀ short ∈ legs, short.isShort = true → ClosedAfter earlier short

/-- Between the turns of `done` and those of `rest`. -/
structure Kept (done rest : List Leg) (p : Progress) : Prop where
  shorts : p.raised = false → p.stuckShort = none →
    ∀ short ∈ done, short.isShort = true → ClosedAfter p.calls short
  guarded : Guarded (done ++ rest) p.calls
  reports : p.raised = false → List.Forall₂ (Reports p.calls) done p.outcomes

section Keeping

variable {done rest : List Leg} {leg : Leg} {p : Progress}

theorem Guarded.called {calls : Calls} (guarded : Guarded legs calls) {call : Call}
    (answer : Answer)
    (safe : call.leg.isShort = false → ∀ short ∈ legs, short.isShort = true → ClosedAfter calls short) :
    Guarded legs (calls ++ [(call, answer)]) := by
  intro earlier c a later split wing
  rcases List.eq_nil_or_concat' later with none_ | ⟨before, last, isLast⟩
  · rw [none_] at split
    obtain ⟨same, isIt⟩ := List.append_inj' split rfl
    obtain ⟨rfl, rfl⟩ := Prod.mk.inj (List.cons.inj isIt).1
    exact same ▸ safe wing
  · rw [isLast, ← List.cons_append, ← List.append_assoc] at split
    exact guarded earlier c a before (List.append_inj' split rfl).1 wing

section

variable (kept : Kept done (leg :: rest) p)
include kept

/-- Calling for a leg keeps what holds. -/
theorem Kept.called {call : Call} (answer : Answer)
    (safe : call.leg.isShort = false →
      ∀ short ∈ done ++ leg :: rest, short.isShort = true → ClosedAfter p.calls short) :
    Kept done (leg :: rest) { p with calls := p.calls ++ [(call, answer)] } where
  shorts sound free short mem isShort :=
    (kept.shorts sound free short mem isShort).mono (List.subset_append_left _ _)
  guarded := kept.guarded.called answer safe
  reports sound := (kept.reports sound).imp fun _ _ reports => reports.mono (List.subset_append_left _ _)

/-- An exception ends the pass. -/
theorem Kept.raise :
    Kept (done ++ [leg]) rest { p with raised := true } where
  shorts sound := by cases sound
  guarded := by simpa using kept.guarded
  reports sound := by cases sound

/-- Noting an outcome of the leg ends its turn. -/
theorem Kept.note {outcome : CloseOutcome} {exitTime : Option Int}
    (reports : Reports p.calls leg outcome) (closes : outcome.closed = true → exitTime.isSome = true)
    (booked : exitTime.isSome = true → ClosedAfter p.calls leg) :
    Kept (done ++ [leg]) rest (p.note leg outcome exitTime) where
  shorts := by
    intro sound free short mem isShort
    obtain ⟨wasFree, notStuck⟩ := Option.or_eq_none_iff.mp free
    rcases List.mem_append.mp mem with before | isIt
    · exact kept.shorts sound wasFree short before isShort
    · rw [List.mem_singleton.mp isIt] at isShort ⊢
      apply booked
      cases exited : exitTime with
      | some t => rfl
      | none =>
        have notClosed : outcome.closed = false := by
          cases closed : outcome.closed with
          | false => rfl
          | true => simp [exited] at closes; simp [closed] at closes
        simp [isShort, notClosed, exited] at notStuck
  guarded := by simpa [Progress.note] using kept.guarded
  reports sound := List.rel_append (kept.reports sound) (.cons reports .nil)

end

variable (world : World) (request : Request)

/-- One leg's turn, when only wings come after a wing. -/
theorem Kept.turn (kept : Kept done (leg :: rest) p)
    (wings : leg.isShort = false → ∀ other ∈ rest, other.isShort = false) :
    Kept (done ++ [leg]) rest (p.turn world request leg) := by
  have unbooked : leg.exitTime.isSome = true → ClosedAfter p.calls leg := .inl
  rcases turn_cases world request p leg with ⟨raised, same⟩ | ⟨sound, ⟨short, -, -, waits⟩ | ⟨free, attempts⟩⟩
  · rw [same]
    have ended := kept.raise
    rwa [show ({ p with raised := true } : Progress) = p by rw [← raised]] at ended
  · rw [waits]
    exact kept.note ⟨rfl, fun closed => by cases closed⟩ (fun closed => by cases closed) unbooked
  · -- a wing has its turn here with no short stuck: every short was before it, and is closed
    have safe : leg.isShort = false →
        ∀ short ∈ done ++ leg :: rest, short.isShort = true → ClosedAfter p.calls short := by
      intro wing short mem isShort
      rcases free with free | isShort'
      · rcases List.mem_append.mp mem with before | here
        · exact kept.shorts sound free short before isShort
        · rcases List.mem_cons.mp here with rfl | later
          · rw [wing] at isShort
            cases isShort
          · rw [wings wing short later] at isShort
            cases isShort
      · rw [wing] at isShort'
        cases isShort'
    rw [attempts]
    rcases attempt_cases world request p leg with
      noted | raised | ⟨call, answer, isLeg, ⟨-, raised⟩ | ⟨result, returned, noted⟩⟩
    · rw [noted]
      exact kept.note ⟨rfl, fun closed => by cases closed⟩ (fun closed => by cases closed) unbooked
    · rw [raised]
      exact kept.raise
    · rw [raised]
      exact (kept.called answer (isLeg ▸ safe)).raise
    · rw [noted]
      have mem : (call, Answer.returned result) ∈ p.calls ++ [(call, answer)] := by
        rw [returned]
        exact List.mem_append_right _ (List.mem_singleton_self _)
      refine (kept.called answer (isLeg ▸ safe)).note ?_ result.booked ?_
      · exact ⟨rfl, fun closed => ⟨call, result, mem, isLeg, closed⟩⟩
      · exact fun booked => .inr ⟨call, result, mem, isLeg, booked⟩

/-- All turns, when no short comes after a wing. -/
theorem Kept.turns (kept : Kept done rest p)
    (wingsLast : rest.Pairwise fun a b => a.isShort = false → b.isShort = false) :
    Kept (done ++ rest) [] (rest.foldl (Progress.turn world request) p) := by
  induction rest generalizing done p with
  | nil => simpa using kept
  | cons leg rest ih =>
    obtain ⟨first, others⟩ := List.pairwise_cons.mp wingsLast
    rw [List.foldl_cons, List.append_cons]
    exact ih (kept.turn world request fun wing other mem => first other mem wing) others

/-- Before the first turn. -/
theorem Kept.start (legs : List Leg) : Kept [] legs {} where
  shorts _ _ short mem := absurd mem List.not_mem_nil
  guarded earlier call answer later split := by simp at split
  reports _ := .nil

end Keeping

theorem closeGroup_kept (world : World) (request : Request) (legs : List Leg) :
    Kept (turns legs) [] (closeGroup world request legs) :=
  (Kept.start (turns legs)).turns world request (turns_wings_last legs)

/-! ## Closing never leaves a naked short -/

/-- Legs are called for at most as often as they are listed; with distinct legs, once. -/
theorem count_calls_le (world : World) (request : Request) (legs : List Leg) (leg : Leg) :
    ((closeGroup world request legs).calls.map fun e => e.1.leg).count leg ≤ legs.count leg := by
  have follows := calls_sublist world request (turns legs) [] {} (by simp)
  rw [List.nil_append] at follows
  calc _ ≤ (turns legs).count leg := follows.count_le leg
    _ = legs.count leg := (List.perm_insertionSort Leg.before legs).count_eq leg

/-- A wing is only called for when every short is closed, a leg at most once for each time it is
listed, and a report says not closed of every leg that no call closed. -/
theorem closeGroup_safe (world : World) (request : Request) (legs : List Leg) :
    Guarded legs (closeGroup world request legs).calls ∧
      (∀ leg, ((closeGroup world request legs).calls.map fun e => e.1.leg).count leg
        ≤ legs.count leg) ∧
      ∀ outcomes, (closeGroup world request legs).report = some outcomes →
        ∀ leg ∈ legs, (∀ call result,
            (call, Answer.returned result) ∈ (closeGroup world request legs).calls →
              call.leg = leg → result.closed = false) →
          ∃ outcome ∈ outcomes, outcome.tradeId = leg.id ∧ outcome.closed = false := by
  have kept := closeGroup_kept world request legs
  refine ⟨?_, count_calls_le world request legs, ?_⟩
  · intro earlier call answer later split wing short mem
    refine kept.guarded earlier call answer later split wing short ?_
    rw [List.append_nil]
    exact mem_turns.mpr mem
  · intro outcomes returned leg mem open_
    unfold Progress.report at returned
    split at returned
    · cases returned
    · rename_i sound
      cases returned
      obtain ⟨outcome, inOutcomes, isLeg, closed⟩ := exists_outcome
        (kept.reports (Bool.eq_false_of_not_eq_true sound)) (mem_turns.mpr mem)
      refine ⟨outcome, inOutcomes, isLeg, ?_⟩
      by_contra closes
      obtain ⟨call, result, called, isIt, saysClosed⟩ := closed (by simpa using closes)
      rw [open_ call result called isIt] at saysClosed
      cases saysClosed

/-- A short of a structure. -/
def soldCall : Leg where
  id := 1
  symbol := "NIFTY25000CE"
  mode := .paper
  legRole := some .short
  direction := .short

/-- Where the first call raises, the caller gets no report at all. -/
theorem exception_unreported :
    ¬ ∀ (world : World) (request : Request) (legs : List Leg), ∀ leg ∈ legs,
      (∀ call result, (call, Answer.returned result) ∈ (closeGroup world request legs).calls →
        call.leg = leg → result.closed = false) →
      ∃ outcomes, (closeGroup world request legs).report = some outcomes ∧
        ∃ outcome ∈ outcomes, outcome.tradeId = leg.id ∧ outcome.closed = false := by
  intro always
  obtain ⟨outcomes, reported, -⟩ := always ⟨fun _ _ => none, fun _ _ => .raised⟩
    ⟨fun _ => some 50, "Group stop", fun _ => none, false⟩ [soldCall] soldCall
    (List.mem_singleton_self _) (by
      intro call result called
      simp [closeGroup, turns, Progress.turn, Progress.attempt, legBroker, soldCall] at called)
  cases reported

end AdvanceTrading.PositionMonitor
