import AdvanceTrading.Execution.OrderStateMachine
import AdvanceTrading.Misc.Machine
import AdvanceTrading.Misc.PyText
import AdvanceTrading.Misc.Rows
import AdvanceTrading.Misc.Trail

/-!
# The intent queue

Model of `app/execution/core/intents.py`: the `execution_intents` table, which
producers write and any number of workers claim, finish, sweep and relink.

An operation that reads a snapshot and updates from it later is two labels of
the machine: the read puts one half in flight for each row it answered with,
the write takes a half up again. Halves of any number of workers are in flight
at a time, and a worker that stops drops its halves. A clock is the `now` the
operation is called with.
-/

namespace AdvanceTrading.Execution.Core

/-- `QUEUED, CLAIMED, DONE, REFUSED, FAILED, EXPIRED`. -/
inductive Status where
  | queued
  | claimed
  | done
  | refused
  | failed
  | expired
  deriving DecidableEq, Repr

/-- `FINAL`. -/
def Status.final : List Status := [.done, .refused, .failed, .expired]

/-- The moves the module's docstring lists, with the linked outcomes of an earlier attempt. -/
def Status.moves : Status → List Status
  | .queued => [.claimed, .expired, .done, .refused]
  | .claimed => [.queued, .done, .refused, .failed]
  | .failed | .expired => [.done]
  | .done | .refused => []

/-- `policy.MODES`. -/
inductive Mode where
  | notify
  | oneClick
  | autoPaper
  | autoLive
  deriving DecidableEq, Repr

/-- The mode a text names (`(mode or "").strip().upper()`). -/
def Mode.ofText (mode : String) : Option Mode :=
  let text := Py.upper (Py.strip mode)
  if text = "NOTIFY" then some .notify
  else if text = "ONE_CLICK" then some .oneClick
  else if text = "AUTO_PAPER" then some .autoPaper
  else if text = "AUTO_LIVE" then some .autoLive
  else none

/-- `policy.ROUTES`. -/
inductive Route where
  | notify
  | propose
  | paper
  | refuse
  deriving DecidableEq, Repr

/-- What the core reads of a `Signal`. -/
structure Signal where
  symbol : String
  strategyId : String
  direction : String
  entry : Option Rat
  stopLoss : Option Rat
  target1 : Option Rat
  deriving DecidableEq

/-- `ExecutionIntentRecord`. -/
structure Intent where
  id : Nat
  tenantId : Nat
  userId : Nat
  source : String
  sourceRef : String
  idempotencyKey : String
  requestedMode : Mode
  route : Option Route := none
  status : Status := .queued
  symbol : String
  exchange : String
  direction : String
  strategyId : String
  signal : Signal
  reason : Option String := none
  aiActionId : Option Nat := none
  notificationId : Option Nat := none
  attempts : Nat := 0
  claimedAt : Option Int := none
  finishedAt : Option Int := none
  expiresAt : Int
  createdAt : Int
  deriving DecidableEq

/-- The settings the queue reads (`app_config`), the digest of `queue_key`, and how a price is
printed in a reason (`{price:g}`). -/
structure Settings where
  ttlSeconds : Int := 300
  claimStaleSeconds : Int := 120
  maxAttempts : Nat := 3
  sha256 : String → String
  priceText : Rat → String

/-- `text[:size]`. -/
def cut (size : Nat) (text : String) : String := String.ofList (text.toList.take size)

/-- `text or default`. -/
def orElse (text default : String) : String := if text = "" then default else text

/-- `queue_key`: a key that does not fit the column is hashed. -/
def queueKey (cfg : Settings) (source key : String) : String :=
  let whole := source ++ ":" ++ key
  if whole.length ≤ 200 then whole else source ++ ":sha256:" ++ cfg.sha256 key

/-! ## The order or proposal of an earlier attempt -/

/-- What the core reads of an `OrderRecord`. -/
structure Order where
  id : Nat
  /-- It is a PAPER order of the intent's own person. -/
  ownPaper : Bool
  status : OrderStatus
  tradeId : Option Nat
  /-- `"; ".join(reasons)`. -/
  reasons : String := ""
  deriving DecidableEq

/-- `existing_order`, of the order that holds the intent's key (the key is unique in an
organisation): only the person's own PAPER order is the intent's. -/
def existingOrder (holder : Option Order) : Option Order := holder.filter Order.ownPaper

/-- `IN_FLIGHT_ORDER`. -/
def inFlightOrder : List OrderStatus :=
  [.created, .validating, .riskCheck, .submitted, .pending, .partialFill]

/-- `PLACED_ORDER`. -/
def placedOrder : List OrderStatus := [.filled, .positionOpen]

/-- The values that finish a row, with the order they come from. -/
structure Outcome where
  status : Status
  route : Option Route
  reason : String
  finishedAt : Int
  aiActionId : Option Nat := none
  order : Option Order := none
  deriving DecidableEq

/-- `order_outcome`: nothing while the order is in flight. -/
def orderOutcome (order : Order) (now : Int) : Option Outcome :=
  if order.status ∈ inFlightOrder then none
  else if order.status ∈ placedOrder ∨ order.tradeId.isSome then
    some { status := .done, route := some .paper, finishedAt := now,
           reason := "Auto PAPER: PAPER order #" ++ toString order.id ++
             " was placed before an interruption" }
  else
    some { status := .refused, route := some .paper, finishedAt := now,
           reason := "Auto PAPER: PAPER order #" ++ toString order.id ++ " was not placed (" ++
             orElse (Py.lower order.status.value) "not filled" ++ ")" }

/-- `earlier_outcome`: the intent's own order if there is one, else its proposal `action`. -/
def earlierOutcome (order : Option Order) (action : Option Nat) (now : Int) : Option Outcome :=
  match order, action with
  | some order, _ => (orderOutcome order now).map fun out => { out with order := some order }
  | none, some action =>
      some { status := .done, route := some .propose, finishedAt := now, aiActionId := some action,
             reason := "Proposal #" ++ toString action ++ " was raised before an interruption" }
  | none, none => none

/-- An earlier attempt's outcome is DONE or REFUSED. -/
theorem earlierOutcome_status {order : Option Order} {action : Option Nat} {now : Int}
    {out : Outcome} (found : earlierOutcome order action now = some out) :
    out.status = .done ∨ out.status = .refused := by
  cases order with
  | none =>
    cases action with
    | none => cases found
    | some action =>
      cases found
      exact .inl rfl
  | some order =>
    obtain ⟨out, settled, rfl⟩ := Option.map_eq_some_iff.mp found
    unfold orderOutcome at settled
    split at settled
    · cases settled
    · split at settled
      · cases settled
        exact .inl rfl
      · cases settled
        exact .inr rfl

/-! ## The table -/

/-- A stored intent with every status it was written with and the clock of each write. -/
abbrev Row := Tracked Intent (Status × Int)

/-- The statuses of a row, oldest first. -/
def trail (row : Row) : List Status := row.notes.map Prod.fst

/-- Which organisations are drained: `none` is every one. -/
abbrev Scope := Option (List Nat)

/-- `_in_scope`. -/
def inScope (scope : Scope) (intent : Intent) : Bool :=
  match scope with
  | none => true
  | some tenants => decide (intent.tenantId ∈ tenants)

/-- An UPDATE at `now`. -/
def update (now : Int) (guard : Intent → Bool) (write : Intent → Intent) (rows : List Row) : List Row :=
  Rows.updateWhere guard write (fun intent => (intent.status, now)) rows

/-- `.order_by(id).limit(max(1, limit))` of the rows that meet a condition. -/
def select (guard : Intent → Bool) (limit : Int) (rows : List Row) : List Intent :=
  ((rows.map Tracked.row).filter guard).take (max 1 limit).toNat

/-- The facts and arguments of one `submit`. -/
structure Request where
  enabled : Bool
  tenantId : Nat
  userId : Nat
  /-- The person's organisation and whether they are active, when the row exists. -/
  person : Option (Nat × Bool)
  source : String
  sourceRef : String
  idempotencyKey : String
  mode : String
  signal : Signal
  exchange : String := "NSE"
  now : Int

/-- `CoreDisabled` and `IntentRejected`. -/
inductive SubmitError where
  | coreDisabled (text : String)
  | intentRejected (text : String)

/-- `SOURCES`. -/
def sources : List String := ["scan"]

/-- The row `submit` adds. -/
def newIntent (cfg : Settings) (id : Nat) (r : Request) (mode : Mode) : Intent where
  id := id
  tenantId := r.tenantId
  userId := r.userId
  source := r.source
  sourceRef := cut 120 r.sourceRef
  idempotencyKey := queueKey cfg r.source r.idempotencyKey
  requestedMode := mode
  symbol := cut 40 r.signal.symbol
  exchange := cut 12 (Py.upper (orElse r.exchange "NSE"))
  direction := cut 8 r.signal.direction
  strategyId := cut 80 (orElse r.signal.strategyId r.source)
  signal := r.signal
  expiresAt := r.now + cfg.ttlSeconds
  createdAt := r.now

/-- `submit`: the intent of this organisation, person and key, and whether it is new. The
unique constraint makes the look-up and the insert one step: a concurrent submit of the
same key that won is found by the second look-up. -/
def submit (cfg : Settings) (rows : List Row) (nextId : Nat) (r : Request) :
    Except SubmitError (Intent × Bool) :=
  if ¬ r.enabled then
    .error (.coreDisabled "The 'execution_core' feature is off for this organisation")
  else if r.source ∉ sources then
    .error (.intentRejected ("Unknown intent source '" ++ r.source ++ "'"))
  else
    match Mode.ofText r.mode with
    | none =>
        .error (.intentRejected ("Unknown mode '" ++ Py.upper (Py.strip r.mode) ++
          "' - one of NOTIFY, ONE_CLICK, AUTO_PAPER, AUTO_LIVE"))
    | some mode =>
        if r.person ≠ some (r.tenantId, true) then
          .error (.intentRejected
            "The intent's person is not an active member of this organisation")
        else
          match (rows.map Tracked.row).find? fun intent =>
              intent.tenantId = r.tenantId ∧ intent.userId = r.userId ∧
                intent.idempotencyKey = queueKey cfg r.source r.idempotencyKey with
          | some existing => .ok (existing, false)
          | none => .ok (newIntent cfg nextId r mode, true)

/-! ## Claiming, finishing and sweeping -/

/-- The rows `claim` reads: QUEUED and not expired at its clock. -/
def claimable (scope : Scope) (now : Int) (intent : Intent) : Bool :=
  decide (intent.status = .queued ∧ now < intent.expiresAt) && inScope scope intent

/-- The values `claim` writes. -/
def claimWrite (now : Int) (intent : Intent) : Intent :=
  { intent with status := .claimed, claimedAt := some now, attempts := intent.attempts + 1 }

/-- The UPDATE of `claim`, for one id it read. -/
def claim (id : Nat) (now : Int) (rows : List Row) : List Row :=
  update now (fun intent => decide (intent.id = id ∧ intent.status = .queued)) (claimWrite now) rows

/-- What `finish` records. -/
structure Finish where
  status : Status
  route : Option Route
  reason : String
  aiActionId : Option Nat := none
  notificationId : Option Nat := none
  now : Int
  deriving DecidableEq

/-- The values `finish` writes; a proposal or a notification that is not given stays. -/
def Finish.write (f : Finish) (intent : Intent) : Intent :=
  { intent with
    status := f.status, route := f.route, reason := some (cut 300 f.reason),
    finishedAt := some f.now, aiActionId := f.aiActionId.or intent.aiActionId,
    notificationId := f.notificationId.or intent.notificationId }

/-- `finish`: only a CLAIMED row is finished; a status that is not final is a `ValueError`. -/
def finish (id : Nat) (f : Finish) (rows : List Row) : Except String (List Row) :=
  if f.status ∉ Status.final then .error "not a final status"
  else
    .ok (update f.now (fun intent => decide (intent.id = id ∧ intent.status = .claimed)) f.write rows)

/-- The retried rows `expire_overdue` reads. -/
def overdueRetried (scope : Scope) (now : Int) (intent : Intent) : Bool :=
  decide (intent.status = .queued ∧ intent.expiresAt ≤ now ∧ 0 < intent.attempts) &&
    inScope scope intent

/-- The values of an earlier attempt's outcome; columns they do not name stay. -/
def Outcome.write (out : Outcome) (intent : Intent) : Intent :=
  { intent with
    status := out.status, route := out.route, reason := some out.reason,
    finishedAt := some out.finishedAt, aiActionId := out.aiActionId.or intent.aiActionId }

/-- `expire_overdue` for one retried id: the row is linked to what its earlier attempt did. -/
def linkOverdue (id : Nat) (now : Int) (order : Option Order) (action : Option Nat)
    (rows : List Row) : List Row :=
  match earlierOutcome order action now with
  | none => rows
  | some out =>
      update now (fun intent => decide (intent.id = id ∧ intent.status = .queued)) out.write rows

/-- The rows the UPDATE that ends `expire_overdue` matches. -/
def overdue (scope : Scope) (now : Int) (intent : Intent) : Bool :=
  decide (intent.status = .queued ∧ intent.expiresAt ≤ now) && inScope scope intent

/-- The values it writes. -/
def expireWrite (now : Int) (intent : Intent) : Intent :=
  { intent with
    status := .expired, finishedAt := some now,
    reason := some "Not dispatched in time - nothing was raised" }

/-- The UPDATE that ends `expire_overdue`. -/
def expireOverdue (scope : Scope) (now : Int) (rows : List Row) : List Row :=
  update now (overdue scope now) (expireWrite now) rows

/-- The rows `requeue_stale` reads. -/
def stale (cfg : Settings) (scope : Scope) (now : Int) (intent : Intent) : Bool :=
  decide (intent.status = .claimed) &&
    (match intent.claimedAt with
      | none => false
      | some at_ => decide (at_ ≤ now - cfg.claimStaleSeconds)) && inScope scope intent

/-- What `requeue_stale` read of one stale row. -/
structure Snapshot where
  id : Nat
  attempts : Nat
  claimedAt : Int
  now : Int
  deriving DecidableEq

/-- The values `requeue_stale` writes to a row with this snapshot, where the earlier outcome is
asked for at the last attempt only. -/
def Snapshot.write (cfg : Settings) (s : Snapshot) (earlier : Option Outcome) (intent : Intent) :
    Intent :=
  if cfg.maxAttempts ≤ s.attempts then
    match earlier with
    | some out => out.write intent
    | none =>
        { intent with
          status := .failed, finishedAt := some s.now,
          reason := some ("Interrupted " ++ toString s.attempts ++
            " times - nothing more is tried") }
  else { intent with status := .queued, claimedAt := none }

/-- The rows the UPDATE of `requeue_stale` matches: still CLAIMED, with the `claimed_at` read. -/
def Snapshot.finds (s : Snapshot) (intent : Intent) : Bool :=
  decide (intent.id = s.id ∧ intent.status = .claimed ∧ intent.claimedAt = some s.claimedAt)

/-- The UPDATE of `requeue_stale`, for one snapshot. -/
def requeueStale (cfg : Settings) (s : Snapshot) (order : Option Order) (action : Option Nat)
    (rows : List Row) : List Row :=
  update s.now s.finds (s.write cfg (earlierOutcome order action s.now)) rows

/-- The values `relink_placed` writes. -/
def relinkWrite (route : Route) (reason : String) (now : Int) (intent : Intent) : Intent :=
  { intent with
    status := .done, route := some route, reason := some (cut 300 reason), finishedAt := some now }

/-- `relink_placed`: an EXPIRED or FAILED row whose own attempt placed its order. -/
def relinkPlaced (id : Nat) (route : Route) (reason : String) (now : Int) (rows : List Row) :
    List Row :=
  update now
    (fun intent => decide (intent.id = id ∧ (intent.status = .expired ∨ intent.status = .failed)))
    (relinkWrite route reason now) rows

/-! ## Runs of the queue -/

/-- A row an operation has read and not yet updated. -/
inductive Half where
  | claim (id : Nat) (now : Int)
  | link (id : Nat) (now : Int)
  | requeue (snapshot : Snapshot)
  deriving DecidableEq

/-- The table, the next id, and the halves of all workers in flight. -/
structure Queue where
  rows : List Row := []
  nextId : Nat := 1
  inFlight : List Half := []

/-- One committed step of some worker or producer. -/
inductive Step where
  | submit (request : Request)
  | readQueued (scope : Scope) (now limit : Int)
  | claim (id : Nat) (now : Int)
  | finish (id : Nat) (f : Finish)
  | readOverdue (scope : Scope) (now : Int)
  | link (id : Nat) (now : Int) (order : Option Order) (action : Option Nat)
  | expire (scope : Scope) (now : Int)
  | readStale (scope : Scope) (now limit : Int)
  | requeue (snapshot : Snapshot) (order : Option Order) (action : Option Nat)
  | relink (id : Nat) (route : Route) (reason : String) (now : Int)
  | stop (half : Half)

/-- The snapshot of a row `requeue_stale` read. -/
def snapshotOf (now : Int) (intent : Intent) : Option Half :=
  intent.claimedAt.map fun at_ => .requeue ⟨intent.id, intent.attempts, at_, now⟩

/-- Take up a half in flight. -/
def Queue.take (q : Queue) (half : Half) (act : List Row → List Row) : Option Queue :=
  if half ∈ q.inFlight then
    some { q with rows := act q.rows, inFlight := q.inFlight.erase half }
  else none

/-- The queue as a machine. A call that raises leaves the table as it was. -/
def queue (cfg : Settings) : Machine Queue Step where
  step q
    | .submit r =>
        match submit cfg q.rows q.nextId r with
        | .ok (intent, true) =>
            some { q with
              rows := q.rows ++ [⟨intent, [(.queued, intent.createdAt)]⟩], nextId := q.nextId + 1 }
        | _ => some q
    | .readQueued scope now limit =>
        let ids := (select (claimable scope now) limit q.rows).map Intent.id
        some { q with inFlight := q.inFlight ++ ids.map fun id => .claim id now }
    | .claim id now => q.take (.claim id now) (claim id now)
    | .finish id f =>
        match finish id f q.rows with
        | .ok rows => some { q with rows := rows }
        | .error _ => some q
    | .readOverdue scope now =>
        let ids := ((q.rows.map Tracked.row).filter (overdueRetried scope now)).map Intent.id
        some { q with inFlight := q.inFlight ++ ids.map fun id => .link id now }
    | .link id now order action => q.take (.link id now) (linkOverdue id now order action)
    | .expire scope now => some { q with rows := expireOverdue scope now q.rows }
    | .readStale scope now limit =>
        some { q with
          inFlight := q.inFlight ++
            (select (stale cfg scope now) limit q.rows).filterMap (snapshotOf now) }
    | .requeue snapshot order action =>
        q.take (.requeue snapshot) (requeueStale cfg snapshot order action)
    | .relink id route reason now => some { q with rows := relinkPlaced id route reason now q.rows }
    | .stop half => q.take half id

/-! ## The default settings -/

/-- The default settings; no key here is long enough to be hashed, and no price is printed. -/
def defaults : Settings where
  sha256 key := key
  priceText price := toString price.num

/-- One scan setup for person 7 of organisation 1. -/
def setup : Request where
  enabled := true
  tenantId := 1
  userId := 7
  person := some (1, true)
  source := "scan"
  sourceRef := "rule:12:symbol:NIFTY"
  idempotencyKey := "12:NIFTY:0915"
  mode := "AUTO_PAPER"
  signal := {
    symbol := "NIFTY", strategyId := "orb", direction := "LONG", entry := some 100,
    stopLoss := some 95, target1 := some 110 }
  now := 0

end AdvanceTrading.Execution.Core
