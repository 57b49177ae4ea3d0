import AdvanceTrading.Misc.Processes
import Mathlib.Data.Fintype.Basic

/-!
# Trigger plans

Model of the passes over a plan that has met its condition (`run`, `fire`, `_arm_target`, `_ask`
in `app/execution/trigger_plans.py:463-642`) and of the approvals they ask for
(`execute_approved` there, with the decision, the outcome and the sweep of a proposal in
`app/ai/monitor.py` and `app/execution/approval.py`). A pass loads the plan with its results,
settles the orders one by one from its own copy of them, and stores the whole copy after each;
a pass can stop at every statement. The ticket makes one order under a client reference, the
approvals one proposal under a key, the resting book one exit under a client reference.
What makes a condition met, the broker's own GTT, the texts and the notices are left out.
-/

namespace AdvanceTrading.TriggerPlans

/-! ## Data -/

inductive PlanStatus where
  | armed
  | triggered
  | done
  deriving DecidableEq

inductive ResultStatus where
  | placed
  | refused
  | failed
  | proposed
  | notProposed
  | notPlaced
  | rejected
  | expired
  deriving DecidableEq

/-- One order's entry of `results_json`; `proposed`: it keeps a `proposal_id`. -/
structure Result where
  status : Option ResultStatus := none
  tradeId : Option ℕ := none
  proposed : Bool := false
  settled : Bool := false
  targetArmed : Bool := false
  deriving DecidableEq

/-- `results_json`, by the number of the order. -/
abbrev Results := ℕ → Option Result

inductive ActionStatus where
  | proposed
  | approved
  | rejected
  | expired
  | executed
  | failed
  deriving DecidableEq

/-- The `AiActionRecord` of an order's key; `linked`: its evidence names the plan's order. -/
structure Action where
  status : ActionStatus := .proposed
  linked : Bool := false
  tradeId : Option ℕ := none
  deriving DecidableEq

/-- The plan's orders: for each, whether it has a target. -/
structure Plan where
  targets : List Bool

def Plan.hasTarget (p : Plan) (n : ℕ) : Bool := p.targets.getD n false

/-- What is stored: the plan's row, and by order the ticket's order (with its position, if any), the order an approval
without the plan's evidence makes, the positions opened, the target's exit and the proposal; which positions are
closed; and the approvals being carried out, each with whether it read the plan's evidence. -/
structure Desk where
  status : PlanStatus
  results : Results
  tickets : ℕ → Option (Option ℕ)
  plain : ℕ → Option ℕ
  opened : ℕ → List ℕ
  exits : ℕ → Option ℕ
  actions : ℕ → Option Action
  closed : List ℕ
  next : ℕ
  carrying : List (ℕ × Bool)

/-- What the ticket makes of an order: refused (or failed) before it looks for it, or, when it has none, an order
without a position or one with. -/
inductive Choice where
  | refused (failed : Bool)
  | rejected
  | placed
  deriving DecidableEq

/-! ## The ticket, the exits and the proposals -/

/-- `fno_ticket.place` under the reference of order `n`. -/
def Desk.place (s : Desk) (n : ℕ) (choice : Choice) : Result × Desk :=
  match choice, s.tickets n with
  | .refused failed, _ => ({ status := some (if failed then .failed else .refused), settled := true }, s)
  | _, some (some trade) => ({ status := some .placed, tradeId := some trade, settled := true }, s)
  | _, some none => ({ status := some .refused, settled := true }, s)
  | .rejected, none =>
      ({ status := some .refused, settled := true }, { s with tickets := Function.update s.tickets n (some none) })
  | .placed, none =>
      ({ status := some .placed, tradeId := some s.next, settled := true },
        { s with
          tickets := Function.update s.tickets n (some (some s.next))
          opened := Function.update s.opened n (s.opened n ++ [s.next])
          next := s.next + 1 })

/-- `_arm_target`, where `refused` is a `RestingOrderError`. -/
def Desk.armTarget (s : Desk) (n trade : ℕ) (refused : Bool) : Desk :=
  if trade ∈ s.closed ∨ refused then s
  else { s with exits := Function.update s.exits n ((s.exits n).or (some trade)) }

/-- The proposal's answer, as `_ask` reads it. -/
def readAnswer (r : Result) : Option Action → Result
  | none => { r with status := some .notPlaced, settled := true }
  | some action =>
    match action.status with
    | .executed => { r with status := some .placed, tradeId := action.tradeId, settled := true }
    | .rejected => { r with status := some .rejected, settled := true }
    | .expired => { r with status := some .expired, settled := true }
    | .failed => { r with status := some .failed, settled := true }
    | .proposed | .approved => r

/-- `propose_entry` under the key of order `n`: the proposal that is there, or a new one. -/
def Desk.propose (s : Desk) (n : ℕ) : Desk :=
  match s.actions n with
  | some _ => s
  | none => { s with actions := Function.update s.actions n (some {}) }

/-- The evidence of the proposal names the plan's order. -/
def Desk.link (s : Desk) (n : ℕ) : Desk :=
  { s with actions := Function.update s.actions n ((s.actions n).map fun action => { action with linked := true }) }

/-! ## A pass -/

/-- Where a pass stands: `results` is its own copy. -/
inductive Point where
  | idle
  /-- The plan was read. -/
  | loaded (status : PlanStatus) (results : Results)
  /-- Before the order `n`. -/
  | at (askFirst : Bool) (results : Results) (n : ℕ)
  /-- The proposal of order `n` is raised. -/
  | linking (results : Results) (n : ℕ)
  /-- `r` is what became of order `n`; its target and the store come next. -/
  | storing (askFirst : Bool) (results : Results) (n : ℕ) (r : Result)
  | ended

inductive Act where
  | load
  /-- The conditional move from ARMED to TRIGGERED. -/
  | trigger
  /-- `fire` begins: the account's state, and whether it asks first. -/
  | begin (active askFirst : Bool)
  /-- The order is settled already. -/
  | keep
  | place (choice : Choice)
  | propose
  /-- `propose_entry` raises, before or after its row. -/
  | raise (raised : Bool)
  | link
  | read
  | store (refused : Bool)
  | finish
  | stop

/-- The copy's entry for the order, or an empty one. -/
def entry (results : Results) (n : ℕ) : Result := (results n).getD {}

/-- The order's target, for a result that names a position. -/
def Desk.target (p : Plan) (s : Desk) (n : ℕ) (r : Result) (refused : Bool) : Result × Desk :=
  match r.tradeId with
  | some trade =>
    if p.hasTarget n ∧ r.targetArmed = false then
      ({ r with targetArmed := true }, s.armTarget n trade refused)
    else (r, s)
  | none => (r, s)

/-- One statement of a pass. -/
def statement (p : Plan) (s : Desk) (point : Point) (act : Act) : Option (Desk × Point) :=
  match point, act with
  | .idle, .load => some (s, .loaded s.status s.results)
  | .loaded .armed results, .trigger =>
      if s.status = .armed then some ({ s with status := .triggered }, .loaded .triggered results) else some (s, .ended)
  | .loaded .triggered results, .begin active askFirst =>
      if active then some (s, .at askFirst results 0)
      else some (if s.status = .triggered then { s with status := .done } else s, .ended)
  | .at askFirst results n, .keep =>
      if n < p.targets.length ∧ (entry results n).settled then
        some (s, .storing askFirst results n (entry results n))
      else none
  | .at false results n, .place choice =>
      if n < p.targets.length ∧ ¬ (entry results n).settled then
        some ((s.place n choice).2, .storing false results n (s.place n choice).1)
      else none
  | .at true results n, .propose =>
      if n < p.targets.length ∧ ¬ (entry results n).settled ∧ ¬ (entry results n).proposed then
        some (s.propose n, .linking results n)
      else none
  | .at true results n, .raise raised =>
      if n < p.targets.length ∧ ¬ (entry results n).settled ∧ ¬ (entry results n).proposed then
        some (if raised then s.propose n else s,
          .storing true results n { status := some .notProposed, settled := true })
      else none
  | .linking results n, .link => some (s.link n, .storing true results n { status := some .proposed, proposed := true })
  | .at true results n, .read =>
      if n < p.targets.length ∧ ¬ (entry results n).settled ∧ (entry results n).proposed then
        some (s, .storing true results n (readAnswer (entry results n) (s.actions n)))
      else none
  | .storing askFirst results n r, .store refused =>
      let copy := Function.update results n (some (s.target p n r refused).1)
      some ({ (s.target p n r refused).2 with results := copy }, .at askFirst copy (n + 1))
  | .at _ results n, .finish =>
      if n = p.targets.length then
        if (∀ m < p.targets.length, (entry results m).settled) ∧ s.status = .triggered then
          some ({ s with status := .done }, .ended)
        else some (s, .ended)
      else none
  | _, .stop => some (s, .ended)
  | _, _ => none

/-- What happens to the proposals and the positions outside the passes. -/
inductive Event where
  /-- He decides, or the time is over. -/
  | decide (n : ℕ) (status : ActionStatus)
  /-- `execute_entry` reads the approved proposal and its evidence. -/
  | takeUp (n : ℕ)
  /-- It places the order it has read of. -/
  | carryOut (n : ℕ) (linked : Bool) (choice : Choice)
  /-- Its outcome is recorded: the position the order of the plan, or the one of an approval without the plan, has. -/
  | executed (n trade : ℕ)
  /-- It is recorded as not carried out: by the approval, or by the sweep of an interrupted one. -/
  | unplaced (n : ℕ) (expired : Bool)
  | close (trade : ℕ)

/-- A proposal's row in a status, given another. -/
def Desk.settleAction (s : Desk) (n : ℕ) (expect : ActionStatus) (write : Action → Action) : Option Desk :=
  match s.actions n with
  | some action =>
      if action.status = expect then
        some { s with actions := Function.update s.actions n (some (write action)) }
      else none
  | none => none

/-- `execute_entry` of a proposal without the plan's evidence: its own order, under the proposal's key. -/
def Desk.placePlain (s : Desk) (n : ℕ) (choice : Choice) : Desk :=
  match s.plain n, choice with
  | none, .placed =>
      { s with
        plain := Function.update s.plain n (some s.next)
        opened := Function.update s.opened n (s.opened n ++ [s.next])
        next := s.next + 1 }
  | _, _ => s

def outside (s : Desk) : Event → Option Desk
  | .decide n status =>
      if status = .approved ∨ status = .rejected ∨ status = .expired then
        s.settleAction n .proposed fun action => { action with status := status }
      else none
  | .takeUp n =>
      match s.actions n with
      | some action =>
        if action.status = .approved then some { s with carrying := (n, action.linked) :: s.carrying } else none
      | none => none
  | .carryOut n linked choice =>
      if (n, linked) ∈ s.carrying then
        let placed := if linked then (s.place n choice).2 else s.placePlain n choice
        some { placed with carrying := s.carrying.erase (n, linked) }
      else none
  | .executed n trade =>
      if s.tickets n = some (some trade) ∨ s.plain n = some trade then
        s.settleAction n .approved fun action => { action with status := .executed, tradeId := some trade }
      else none
  | .unplaced n expired =>
      s.settleAction n .approved fun action => { action with status := if expired then .expired else .failed }
  | .close trade => some { s with closed := trade :: s.closed }

/-- Any number of passes, with what happens to the proposals and the positions. -/
def passes (p : Plan) (n : ℕ) : Machine (Procs Desk Point n) (ProcEvent n Act Event) :=
  Procs.interleave (statement p) outside n

/-- An armed plan before any pass. -/
def armedPlan (n : ℕ) : Procs Desk Point n :=
  ⟨⟨.armed, fun _ => none, fun _ => none, fun _ => none, fun _ => [], fun _ => none, fun _ => none,
    [], 0, []⟩, fun _ => .idle⟩

/-! ## What is to hold -/

/-- Each order opened at most one position; and when the plan is done each order's result names the position it opened,
and that is closed or has the order's target armed. -/
structure Truthful (p : Plan) (s : Desk) : Prop where
  once : ∀ n, (s.opened n).length ≤ 1
  named : s.status = .done → ∀ n < p.targets.length, ∀ trade ∈ s.opened n,
    ∃ r, s.results n = some r ∧ r.tradeId = some trade ∧ r.status = some .placed
  armed : s.status = .done → ∀ n < p.targets.length, p.hasTarget n = true → ∀ trade ∈ s.opened n,
    trade ∈ s.closed ∨ s.exits n = some trade

/-- The entry says that nothing was opened. -/
def Result.denies (r : Result) : Bool := r.settled && r.tradeId.isNone

/-- The copy a pass works on. -/
def Point.copy : Point → Results
  | .at _ results _ | .linking results _ | .storing _ results _ _ | .loaded _ results => results
  | .idle | .ended => fun _ => none

/-- A pass knows the order as one that opened nothing. -/
def Point.denies (n : ℕ) : Point → Bool
  | .storing _ results m r => (entry results n).denies || (m == n && r.denies)
  | point => (entry point.copy n).denies

/-- The ticket opens a position for the order. -/
def Desk.opens (s : Desk) (n : ℕ) (choice : Choice) : Bool := decide (choice = .placed) && (s.tickets n).isNone

/-- The ticket answers with the position of the order it has. -/
def Desk.replays (s : Desk) (n : ℕ) : Choice → Bool
  | .refused _ => false
  | .rejected | .placed => (s.tickets n).join.isSome

/-- A position may be opened for the order: it has none, the plan is not done, and neither the plan nor a pass has it
as one that opened nothing. -/
def MayOpen {k : ℕ} (w : Procs Desk Point k) (n : ℕ) : Prop :=
  w.shared.opened n = [] ∧ w.shared.status ≠ .done ∧ (entry w.shared.results n).denies = false ∧
    ∀ q, (w.point q).denies n = false

/-- The proposal is over and was not carried out, or is gone. -/
def Desk.turnedDown (s : Desk) (n : ℕ) : Bool :=
  match s.actions n with
  | some action => action.status = .rejected ∨ action.status = .expired ∨ action.status = .failed
  | none => true

/-- What the steps meet: a position is opened only where it may be; a pass takes an order for one that opened nothing
only where it has not; a pass stores no copy that has an order open which is stored as settled; a target is refused
only for a closed position; and the plan ends without its account only where nothing was opened. -/
def Straight (p : Plan) {k : ℕ} (w : Procs Desk Point k) : ProcEvent k Act Event → Prop
  | .act q act =>
    match w.point q, act with
    | .at _ _ n, .place choice =>
        if w.shared.opens n choice then MayOpen w n else w.shared.replays n choice = false → w.shared.opened n = []
    | .at _ _ n, .raise _ => w.shared.opened n = []
    | .at _ _ n, .read => w.shared.turnedDown n = true → w.shared.opened n = []
    | .storing _ results n r, .store refused =>
        (∀ m < p.targets.length, (entry w.shared.results m).settled = true →
          (entry (Function.update results n (some r)) m).settled = true) ∧
        (refused = true → ∀ trade ∈ r.tradeId, trade ∈ w.shared.closed)
    | .loaded _ _, .begin active _ => active = false → ∀ n < p.targets.length, w.shared.opened n = []
    | _, _ => True
  | .outside (.carryOut n linked choice) =>
    if linked then w.shared.opens n choice = true → MayOpen w n
    else w.shared.plain n = none → choice = .placed → MayOpen w n
  | .outside _ => True

end AdvanceTrading.TriggerPlans
