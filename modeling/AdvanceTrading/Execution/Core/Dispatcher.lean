import AdvanceTrading.Execution.Core.Intents
import AdvanceTrading.Misc.Processes
import Mathlib.Data.Fintype.Basic

/-!
# The dispatcher

Model of `app/execution/core/dispatcher.py` and `policy.py`, together with the
queue operations of one drain, as `n` workers that act on one intent. Every
statement of the queue names one id, so other intents do not enter.

A worker stands at a `Point`: the place between two statements it has come to,
with what it has read so far. An `Action` is its next statement, and carries
what the environment answers (switches, prices, refusals, the clock). Workers
move in any order; a worker may stop, and a dispatch may raise, at any point.
-/

namespace AdvanceTrading.Execution.Core

/-! ## The routing policy -/

/-- `policy.decide`, on the modes `submit` stores. -/
def Policy.decide (mode : Mode) (approvalRequired phase0Locked autoPaperEnabled : Bool) : Route × String :=
  match mode with
  | .autoLive =>
      (.refuse, if phase0Locked then
        "Auto LIVE refused: the Phase 0 PAPER-only lock (phase0_paper_only) is on"
      else "Auto LIVE is not available: ATP places no broker API order in N1 (PAPER only)")
  | .notify => (.notify, "Notify only")
  | .oneClick => (.propose, "One-click: a PAPER entry proposal")
  | .autoPaper =>
      if approvalRequired then
        (.propose, "Approval-only mode is on: Auto PAPER becomes a proposal a person approves")
      else if autoPaperEnabled then (.paper, "Auto PAPER")
      else (.propose, "Auto PAPER is not enabled for this organisation: a proposal instead")

/-- `policy.level_problems`. -/
def Policy.levelProblems (cfg : Settings) (direction : String) (signal : Signal) (needStop : Bool) :
    List String :=
  let side := Py.upper direction
  if side ≠ "LONG" ∧ side ≠ "SHORT" then
    ["Direction must be LONG or SHORT, not '" ++ direction ++ "'"]
  else
    match signal.entry with
    | none => ["An entry price above zero is needed"]
    | some entry =>
        if ¬ 0 < entry then ["An entry price above zero is needed"]
        else
          let long := side = "LONG"
          let wrong (what : String) (level : Rat) :=
            what ++ " " ++ cfg.priceText level ++ " is on the wrong side of the entry " ++
              cfg.priceText entry ++ " for a " ++ Py.lower side
          let stop := match signal.stopLoss with
            | none => if needStop then ["A stop loss is needed"] else []
            | some stop =>
                if (long ∧ ¬ stop < entry) ∨ (¬ long ∧ ¬ entry < stop) then [wrong "The stop" stop]
                else []
          let target := match signal.target1 with
            | none => []
            | some target =>
                if (long ∧ ¬ entry < target) ∨ (¬ long ∧ ¬ target < entry) then
                  [wrong "Target 1" target]
                else []
          stop ++ target

/-! ## Where a worker stands -/

/-- Who asks for the earlier outcome. -/
inductive Reader where
  | overdue (scope : Scope) (now : Int)
  | stale (snapshot : Snapshot)
  | dispatch (now : Int)

/-- The place in `dispatch_one` between two of its statements. -/
inductive Stage where
  /-- No earlier outcome; `existing_order` is asked again. -/
  | recheck
  /-- The organisation, the owner and the switches are read. -/
  | facts
  | notifying (reason : String)
  | proposing (reason : String)
  /-- `_paper`: who holds the order key. -/
  | paper
  | checks
  | placing (price : Rat)
  /-- `execute_signal_for_user`, with the order this attempt created. -/
  | pipeline (price : Rat)
  /-- `_placed`: the order is reported executed. -/
  | placed (order : Order) (price : Rat)
  /-- `_placed`, after its `finish` found the row no longer CLAIMED. -/
  | relinking (order : Order) (price : Rat)
  /-- The outcome is decided and `finish` is next. -/
  | finishing (f : Finish)

/-- Where a worker stands with the intent. -/
inductive Point where
  | idle
  | claiming (now : Int)
  | lookingOrder (reader : Reader)
  | lookingProposal (reader : Reader)
  | linking (scope : Scope) (now : Int) (out : Outcome)
  | closing (scope : Scope) (now : Int)
  | requeueing (snapshot : Snapshot) (earlier : Option Outcome)
  | taken
  | dispatch (now : Int) (stage : Stage)

/-- The order key of the intent, its proposal, and its row. -/
structure Shared where
  row : Intent
  holder : Option Order := none
  proposal : Option Nat := none

/-- What `dispatch_one` reads about the organisation, the owner and the switches. -/
structure Facts where
  /-- The organisation's status and whether it is active, when it exists. -/
  tenant : Option (String × Bool)
  ownerActive : Bool
  /-- `auto_paper.intent_places`; false when it could not be read. -/
  autoPaperEnabled : Bool
  approvalRequired : Bool
  phase0Locked : Bool

/-- The answer of `_paper_checks`, or the error it raised. -/
inductive Checks where
  | refuse (why : String)
  | propose (why : String)
  | place (price : Rat)
  | error (type : String)

/-- A worker's next statement. -/
inductive Action where
  | readQueued (scope : Scope) (now : Int)
  | readOverdue (scope : Scope) (now : Int)
  | readStale (scope : Scope) (now : Int)
  | look
  | update
  | load (now : Int)
  | recheck
  | facts (facts : Facts)
  | notify (notificationId : Nat)
  | propose (answer : Except String Nat)
  | paper (approvalRequired : Bool)
  | check (answer : Checks)
  | create (orderId : Nat)
  | advance (next : OrderStatus) (tradeId : Option Nat) (reasons : String)
  | returned
  | raised (type : String) (now : Int)
  | stop

/-! ## One statement -/

/-- Where an earlier outcome leads its reader. -/
def Reader.answered (reader : Reader) (earlier : Option Outcome) : Point :=
  match reader, earlier with
  | .overdue scope now, some out => .linking scope now out
  | .overdue scope now, none => .closing scope now
  | .stale snapshot, earlier => .requeueing snapshot earlier
  | .dispatch now, some out =>
      .dispatch now (.finishing {
        status := out.status, route := out.route, reason := out.reason,
        aiActionId := out.aiActionId, now := now })
  | .dispatch now, none => .dispatch now .recheck

/-- The clock an earlier outcome is dated with. -/
def Reader.now : Reader → Int
  | .overdue _ now => now
  | .stale snapshot => snapshot.now
  | .dispatch now => now

/-- `expire_overdue` reads the row: it looks for an earlier outcome of a retried one. -/
def readOverdue (row : Intent) (scope : Scope) (now : Int) : Point :=
  if overdueRetried scope now row then .lookingOrder (.overdue scope now) else .closing scope now

/-- `requeue_stale` reads the row: it looks for an earlier outcome at the last attempt. -/
def readStale (cfg : Settings) (row : Intent) (scope : Scope) (now : Int) : Option Point :=
  if stale cfg scope now row then
    row.claimedAt.map fun at_ =>
      let snapshot : Snapshot := ⟨row.id, row.attempts, at_, now⟩
      if cfg.maxAttempts ≤ row.attempts then .lookingOrder (.stale snapshot)
      else .requeueing snapshot none
  else none

/-- `dispatch_one` from the organisation's status to the route (`dispatcher.py:133-171`). -/
def routeOf (cfg : Settings) (row : Intent) (facts : Facts) (now : Int) : Stage :=
  let refuse (why : String) : Stage :=
    .finishing { status := .refused, route := some .refuse, reason := why, now := now }
  let status := match facts.tenant with
    | none => "gone"
    | some (status, _) => status
  if (facts.tenant.map Prod.snd).getD false = false then
    refuse ("The organisation is " ++ status ++ ": nothing was raised")
  else if ¬ facts.ownerActive then
    refuse "The person this intent is for is no longer an active member - nothing was raised"
  else
    -- the switch is read for an Auto PAPER intent only
    let autoPaperEnabled := decide (row.requestedMode = .autoPaper) && facts.autoPaperEnabled
    let (route, reason) :=
      Policy.decide row.requestedMode facts.approvalRequired facts.phase0Locked autoPaperEnabled
    if route = .refuse then refuse reason
    else
      let problems := Policy.levelProblems cfg row.direction row.signal (decide (route ≠ .notify))
      if problems ≠ [] then refuse ("; ".intercalate problems)
      else
        match route with
        | .notify => .notifying reason
        | .propose => .proposing reason
        | .paper => .paper
        | .refuse =>
            refuse "Auto PAPER is placed only for an armed scan template - nothing was placed"

/-- The UPDATE a worker has come to, as its condition and its values. -/
def updateAt (cfg : Settings) (s : Shared) : Point → Option ((Intent → Bool) × (Intent → Intent))
  | .claiming now => some (fun row => decide (row.status = .queued), claimWrite now)
  | .linking _ _ out => some (fun row => decide (row.status = .queued), out.write)
  | .closing scope now => some (overdue scope now, expireWrite now)
  | .requeueing snapshot earlier => some (snapshot.finds, snapshot.write cfg earlier)
  | .dispatch _ (.finishing f) => some (fun row => decide (row.status = .claimed), f.write)
  | .dispatch now (.placed order price) =>
      let position := match order.tradeId with
        | none => ""
        | some trade => "; position #" ++ toString trade
      let f : Finish := {
        status := .done, route := some .paper, now := now,
        reason := "Auto PAPER: PAPER order #" ++ toString order.id ++ " at " ++
          cfg.priceText price ++ position }
      some (fun row => decide (row.status = .claimed), f.write)
  | .dispatch now (.relinking order price) =>
      let there := (existingOrder s.holder).any fun own => decide (own.status ∈ placedOrder)
      let position := match order.tradeId with
        | none => ""
        | some trade => "; position #" ++ toString trade
      some (fun row => there && decide (row.status = .expired ∨ row.status = .failed),
        relinkWrite .paper ("Auto PAPER: PAPER order #" ++ toString order.id ++ " at " ++
          cfg.priceText price ++ position ++ " (placed while the row was being swept)") now)
  | _ => none

/-- Where the UPDATE leaves its worker, by whether it matched. -/
def afterUpdate (point : Point) (matched : Bool) : Point :=
  match point with
  | .claiming _ => if matched then .taken else .idle
  | .linking scope now _ => .closing scope now
  | .dispatch now (.placed order price) =>
      if matched then .idle else .dispatch now (.relinking order price)
  | _ => .idle

/-- `_dispatch_batch` after an error: the intent fails. -/
def dispatchError (type : String) (now : Int) : Point :=
  .dispatch now (.finishing {
    status := .failed, route := none, now := now,
    reason := "Dispatch error (" ++ type ++ "); the worker log has the details" })

/-- The row `create_order` opens. -/
def newOrder (id : Nat) : Order where
  id := id
  ownPaper := true
  status := .created
  tradeId := none

/-- One statement of a worker that stands at `point`: what it leaves in the tables, and where it
leaves the worker. -/
def statement (cfg : Settings) (s : Shared) (point : Point) (action : Action) :
    Option (Shared × Point) :=
  match point, action with
  | .idle, .stop => none
  | _, .stop => some (s, .idle)
  | .idle, .readQueued scope now =>
      if claimable scope now s.row then some (s, .claiming now) else none
  | .idle, .readOverdue scope now => some (s, readOverdue s.row scope now)
  | .idle, .readStale scope now => (readStale cfg s.row scope now).map fun point => (s, point)
  | .lookingOrder reader, .look =>
      -- an order answers alone, also with nothing while it is in flight
      match existingOrder s.holder with
      | some order => some (s, reader.answered (earlierOutcome (some order) none reader.now))
      | none => some (s, .lookingProposal reader)
  | .lookingProposal reader, .look =>
      some (s, reader.answered (earlierOutcome none s.proposal reader.now))
  | point, .update =>
      (updateAt cfg s point).map fun (guard, write) =>
        ({ s with row := if guard s.row then write s.row else s.row },
          afterUpdate point (guard s.row))
  | .taken, .load now =>
      if s.row.status ≠ .claimed then some (s, .idle)
      else if 1 < s.row.attempts then some (s, .lookingOrder (.dispatch now))
      else some (s, .dispatch now .facts)
  | .dispatch now .recheck, .recheck =>
      -- an order in flight is left to the attempt that fills it
      some (s, if (existingOrder s.holder).isSome then .idle else .dispatch now .facts)
  | .dispatch now .facts, .facts facts => some (s, .dispatch now (routeOf cfg s.row facts now))
  | .dispatch now (.notifying reason), .notify notificationId =>
      some (s, .dispatch now (.finishing {
        status := .done, route := some .notify, reason := reason,
        notificationId := some notificationId, now := now }))
  | .dispatch now (.proposing reason), .propose answer =>
      match answer with
      | .error paused =>
          some (s, .dispatch now (.finishing {
            status := .refused, route := some .refuse, reason := paused, now := now }))
      | .ok id =>
          -- a proposal that is there keeps its key: the insert fails and it is found again
          let action := s.proposal.getD id
          some ({ s with proposal := some action }, .dispatch now (.finishing {
            status := .done, route := some .propose, aiActionId := some action, now := now,
            reason := reason ++ " (proposal #" ++ toString action ++ ")" }))
  | .dispatch now .paper, .paper approvalRequired =>
      match s.holder with
      | some order =>
          if order.ownPaper = false then
            some (s, .dispatch now (.finishing {
              status := .refused, route := some .refuse, now := now,
              reason := "The order key of this intent is used by another order (#" ++
                toString order.id ++ ") - nothing was placed" }))
          else if order.status ∈ inFlightOrder then some (s, .idle)
          else
            some (s, .dispatch now (.finishing {
              status := .done, route := some .paper, now := now,
              reason := "Auto PAPER: PAPER order #" ++ toString order.id ++
                " was placed before an interruption" }))
      | none =>
          some (s, .dispatch now (if approvalRequired then
            .proposing "Approval-only mode is on: Auto PAPER becomes a proposal a person approves"
          else .checks))
  | .dispatch now .checks, .check answer =>
      some (s, .dispatch now (match answer with
        | .refuse why =>
            .finishing { status := .refused, route := some .refuse, reason := cut 300 why, now := now }
        | .propose why => .proposing why
        | .place price => .placing price
        | .error type =>
            .finishing {
              status := .failed, route := some .paper, now := now,
              reason := "Auto PAPER checks could not run (" ++ type ++ ") - nothing was placed" }))
  | .dispatch now (.placing price), .create orderId =>
      match s.holder with
      | none =>
          some ({ s with holder := some (newOrder orderId) },
            .dispatch now (.pipeline price))
      | some order =>
          -- another attempt holds the key: its outcome is replayed
          if order.status ∈ placedOrder then some (s, .dispatch now (.placed order price))
          else if order.status ∈ inFlightOrder then some (s, .idle)
          else
            some (s, .dispatch now (.finishing {
              status := .refused, route := some .paper, now := now,
              reason := cut 300 ("PAPER order not placed: " ++
                orElse order.reasons order.status.value) }))
  | .dispatch now (.pipeline price), .advance next tradeId reasons =>
      match existingOrder s.holder with
      | some order =>
          if next ∈ transitions order.status then
            some ({ s with
                holder := some { order with status := next, tradeId := tradeId, reasons := reasons } },
              .dispatch now (.pipeline price))
          else none
      | none => none
  | .dispatch now (.pipeline price), .returned =>
      match existingOrder s.holder with
      | some order =>
          if order.status ∈ placedOrder then some (s, .dispatch now (.placed order price))
          else if order.status ∈ inFlightOrder then none
          else
            some (s, .dispatch now (.finishing {
              status := .refused, route := some .paper, now := now,
              reason := cut 300 ("PAPER order not placed: " ++
                orElse order.reasons order.status.value) }))
      | none => none
  | .dispatch now (.pipeline _), .raised type _ =>
      some (s, .dispatch now (.finishing {
        status := .failed, route := some .paper, now := now,
        reason := "Auto PAPER placement failed (" ++ type ++ ") - see the worker log" }))
  | .dispatch now _, .raised type _ => some (s, dispatchError type now)
  | .lookingOrder (.dispatch now), .raised type _ => some (s, dispatchError type now)
  | .lookingProposal (.dispatch now), .raised type _ => some (s, dispatchError type now)
  | .taken, .raised type now => some (s, dispatchError type now)
  | _, _ => none

/-! ## Any number of workers -/

/-- The tables and where each of `n` workers stands. -/
abbrev World (n : Nat) := Procs Shared Point n

/-- A worker's statement, or the order of someone else under the intent's key. -/
abbrev Event (n : Nat) := ProcEvent n Action Order

/-- Someone else's order takes the key, or that order changes. -/
def foreignOrder (s : Shared) (order : Order) : Option Shared :=
  if order.ownPaper = false ∧ existingOrder s.holder = none then some { s with holder := some order }
  else none

/-- All workers idle, nothing raised or placed. -/
def World.start (n : Nat) (row : Intent) : World n := ⟨{ row := row }, fun _ => .idle⟩

/-- The workers as one machine. -/
def workers (cfg : Settings) (n : Nat) : Machine (World n) (Event n) :=
  Procs.interleave (statement cfg) foreignOrder n

end AdvanceTrading.Execution.Core
