import AdvanceTrading.Execution.OrderStateMachine
import AdvanceTrading.Execution.OrderTags
import Mathlib.Data.Rat.Defs

/-!
# The start-up order sweeper

Model of `app/execution/order_sweeper.py`: one LIVE order row is settled
against the order books of the organisation's broker sessions. A book that
could not be read is `none`. The books are read once per sweep, so the sessions
are their books here.

The router sends every slice of a sliced entry under one tag
(`app/execution/router.py:299-306`), and `_match` answers with one entry.
-/

namespace AdvanceTrading.Execution

/-- The fields of `BrokerOrderStatus` the sweeper reads (`app/brokers/models.py:192-208`). -/
structure BrokerOrder where
  orderId : String
  status : String
  filledQuantity : ℚ := 0
  tag : Option String := none
  deriving DecidableEq, Repr

/-- The fields of `OrderRecord` the sweeper reads and writes (`app/db/models.py:914-945`). -/
structure Order where
  id : Nat
  symbol : String
  status : OrderStatus
  brokerOrderId : Option String
  algoTag : Option String
  deriving DecidableEq, Repr

/-- An `order_events` row. -/
structure OrderEvent where
  fromStatus : OrderStatus
  toStatus : OrderStatus
  detail : String
  deriving DecidableEq, Repr

/-- One `_flag`: a notification, CRITICAL when the LIVE entries pause with it. -/
structure Flag where
  orderId : Nat
  message : String
  pause : Bool
  deriving DecidableEq, Repr

/-- The row being settled, the organisation's broker-uncertain mark, and what
the sweep has written and reported so far. -/
structure Sweep where
  order : Order
  brokerUncertain : Option String
  events : List OrderEvent := []
  flags : List Flag := []
  settled : List OrderStatus := []
  unchecked : List Nat := []
  deriving DecidableEq, Repr

/-- `InvalidOrderTransition`. -/
structure InvalidOrderTransition where
  fromStatus : OrderStatus
  toStatus : OrderStatus
  deriving DecidableEq, Repr

/-- The statuses a broker reports for an order that filled. -/
def filledWords : List String := ["COMPLETE", "COMPLETED", "FILLED", "TRADED", "EXECUTED"]

/-- The statuses a broker reports for an order that ended unfilled. -/
def deadWords : List String :=
  ["REJECTED", "CANCELLED", "CANCELED", "CANCELLED AMO", "EXPIRED", "LAPSED"]

/-- `SWEEP_BOOK_HOURS`, in microseconds. -/
def sweepBookAge : Int := 12 * 3600 * 1000000

/-! ## Writing the row -/

/-- `transition_order` (`app/execution/order_persistence.py:104-121`). -/
def transitionOrder (sweep : Sweep) (toStatus : OrderStatus) (detail : String) :
    Except InvalidOrderTransition Sweep :=
  if toStatus ∈ transitions sweep.order.status then
    .ok { sweep with
      order := { sweep.order with status := toStatus }
      events := sweep.events ++ [⟨sweep.order.status, toStatus, detail⟩] }
  else .error ⟨sweep.order.status, toStatus⟩

/-- `mark_broker_uncertain`: the first cause is kept. -/
def markBrokerUncertain (mark : Option String) (reason : String) : Option String :=
  match mark with
  | some first => some first
  | none => some (String.ofList (reason.toList.take 500))

/-- `_flag` (`order_sweeper.py:147-158`). -/
def flag (sweep : Sweep) (why : String) (pause : Bool) : Sweep :=
  let order := sweep.order
  { sweep with
    brokerUncertain :=
      if pause then markBrokerUncertain sweep.brokerUncertain s!"order {order.id} ({order.symbol}): {why}"
      else sweep.brokerUncertain
    flags := sweep.flags ++ [⟨order.id,
      s!"After a restart, order #{order.id} on {order.symbol}: {why}. Please check it at your broker.",
      pause⟩] }

/-- The loop of `_move`: only the last transition carries the detail. -/
def follow (goal : OrderStatus) (detail : String) : Sweep → List OrderStatus →
    Except InvalidOrderTransition Sweep
  | sweep, [] => .ok sweep
  | sweep, status :: rest => do
      let next ← transitionOrder sweep status (if status = goal then detail else "Start-up order check")
      follow goal detail next rest

/-- `_move` (`order_sweeper.py:77-88`). -/
def move (sweep : Sweep) (goal : OrderStatus) (detail : String) : Except InvalidOrderTransition Sweep :=
  if sweep.order.status = goal then .ok sweep
  else if path sweep.order.status goal = [] then
    .ok (flag sweep s!"it is {sweep.order.status.value} and could not be settled automatically" false)
  else do
    let moved ← follow goal detail sweep (path sweep.order.status goal)
    .ok (if goal ∈ terminalStatuses then { moved with settled := moved.settled ++ [goal] } else moved)

/-! ## Looking the order up -/

/-- `(text or "").strip().upper()`. -/
def normalTag (text : Option String) : String := Py.upper (Py.strip (text.getD ""))

/-- `text` where Python takes it as true: present and not empty. -/
def truthy (text : Option String) : Option String := text.filter (· != "")

/-- `tag_client_id` (`order_sweeper.py:91-94`). -/
def tagClientId (clientOrderId : Nat → String) (order : Order) : Option String :=
  if hasClientId order.algoTag (clientOrderId order.id) then some (clientOrderId order.id) else none

/-- The lookup by the broker's own order id. -/
def matchBrokerId (book : List BrokerOrder) (order : Order) : Option BrokerOrder :=
  match truthy order.brokerOrderId with
  | some orderId => book.find? (·.orderId == orderId)
  | none => none

/-- `_match` (`order_sweeper.py:135-143`): of several entries with the tag, the last. -/
def matchBook (book : List BrokerOrder) (order : Order) (cid : Option String) : Option BrokerOrder :=
  match truthy cid, truthy order.algoTag with
  | some _, some tag =>
      match (book.filter fun o => normalTag o.tag == normalTag (some tag)).getLast? with
      | some hit => some hit
      | none => matchBrokerId book order
  | _, _ => matchBrokerId book order

/-- The loop over the sessions (`order_sweeper.py:168-176`): the entry found,
and whether every book that was asked could be read. -/
def lookUp (order : Order) (cid : Option String) :
    List (Option (List BrokerOrder)) → Bool → Option BrokerOrder × Bool
  | [], allRead => (none, allRead)
  | none :: rest, _ => lookUp order cid rest false
  | some book :: rest, allRead =>
      match matchBook book order cid with
      | some found => (some found, allRead)
      | none => lookUp order cid rest allRead

/-- `status in _DEAD and filled <= 0` of the entry found. -/
def endedUnfilled (found : BrokerOrder) : Bool :=
  Py.upper found.status ∈ deadWords && found.filledQuantity ≤ 0

/-- What `_settle_live` does with the entry it found (`order_sweeper.py:186-198`). -/
def settleFound (sweep : Sweep) (found : BrokerOrder) : Except InvalidOrderTransition Sweep :=
  let status := Py.upper found.status
  let sweep :=
    if found.orderId != "" && truthy sweep.order.brokerOrderId == none then
      { sweep with order := { sweep.order with brokerOrderId := some found.orderId } }
    else sweep
  if endedUnfilled found then
    move sweep (if status = "REJECTED" then .rejected else .cancelled)
      s!"Ended {status} at the broker (order {found.orderId}), nothing filled"
  else if status ∈ filledWords ∨ 0 < found.filledQuantity then do
    let moved ← move sweep .filled
      s!"Filled at the broker (order {found.orderId}) - no position recorded"
    .ok (flag moved s!"it filled at the broker (order {found.orderId}) but no position was recorded" true)
  else
    .ok (flag sweep s!"it is still working at the broker (order {found.orderId}, {found.status})" true)

/-- `_settle_live` (`order_sweeper.py:160-198`). -/
def settleLive (clientOrderId : Nat → String) (sessions : List (Option (List BrokerOrder)))
    (age : Int) (sweep : Sweep) : Except InvalidOrderTransition Sweep :=
  let cid := tagClientId clientOrderId sweep.order
  if cid = none ∧ truthy sweep.order.brokerOrderId = none then do
    let moved ← move sweep .failed
      "Could not be confirmed at the broker (no order id to look it up by)"
    .ok (flag moved "it could not be looked up at the broker, so it is marked failed" false)
  else
    match lookUp sweep.order cid sessions (!sessions.isEmpty) with
    | (some found, _) => settleFound sweep found
    | (none, false) => .ok { sweep with unchecked := sweep.unchecked ++ [sweep.order.id] }
    | (none, true) =>
        if cid ≠ none ∧ age ≤ sweepBookAge then
          move sweep .cancelled "Not at the broker: it was never placed"
        else do
          let moved ← move sweep .failed
            "Could not be confirmed at the broker (no longer in its order book)"
          .ok (flag moved "it is no longer in the broker's order book, so it is marked failed" false)

/-! ## What a move leaves alone -/

/-- Following a legal chain raises nothing, ends in its goal and changes only
the status and the event trail. -/
theorem follow_legal {goal : OrderStatus} {detail : String} {steps : List OrderStatus}
    {sweep : Sweep} (legal : LegalChain goal sweep.order.status steps) :
    ∃ moved, follow goal detail sweep steps = .ok moved ∧ moved.order.status = goal ∧
      moved.flags = sweep.flags ∧ moved.brokerUncertain = sweep.brokerUncertain := by
  induction steps generalizing sweep with
  | nil => exact ⟨sweep, rfl, legal, rfl, rfl⟩
  | cons status rest ih =>
    obtain ⟨allowed, chain⟩ := legal
    simp only [follow, transitionOrder, if_pos allowed]
    exact @ih { sweep with
      order := { sweep.order with status }
      events := sweep.events ++ [⟨sweep.order.status, status, _⟩] } chain

/-- A move raises nothing. It reaches its goal and flags nothing, or there is
no chain to it and the row stays and is flagged without a pause. -/
theorem move_spec (sweep : Sweep) (goal : OrderStatus) (detail : String) :
    ∃ moved, move sweep goal detail = .ok moved ∧ moved.brokerUncertain = sweep.brokerUncertain ∧
      moved.flags.filter (·.pause) = sweep.flags.filter (·.pause) ∧
      (moved.order.status = goal ∨
        path sweep.order.status goal = [] ∧ moved.order.status = sweep.order.status) := by
  unfold move
  by_cases already : sweep.order.status = goal
  · rw [if_pos already]
    exact ⟨sweep, rfl, rfl, rfl, .inl already⟩
  rw [if_neg already]
  by_cases unreachable : path sweep.order.status goal = []
  · rw [if_pos unreachable]
    exact ⟨_, rfl, rfl, by simp [flag], .inr ⟨unreachable, rfl⟩⟩
  · obtain ⟨moved, followed, reached, flags, mark⟩ :=
      @follow_legal goal detail _ sweep (path_legal unreachable)
    rw [if_neg unreachable, followed]
    refine ⟨_, rfl, ?_⟩
    split_ifs <;> exact ⟨mark, by rw [flags], .inl reached⟩

/-! ## A fill is kept -/

/-- The row is not settled as unfilled, and the order is flagged with the
organisation's LIVE entries paused. -/
def KeepsFill (result : Except InvalidOrderTransition Sweep) : Prop :=
  ∃ sweep, result = .ok sweep ∧ sweep.order.status ∉ [.cancelled, .rejected, .failed] ∧
    (∃ flag ∈ sweep.flags, flag.orderId = sweep.order.id ∧ flag.pause = true) ∧
    sweep.brokerUncertain ≠ none

variable {sweep : Sweep}

theorem keepsFill_flag {why : String} (kept : sweep.order.status ∉ [.cancelled, .rejected, .failed]) :
    KeepsFill (.ok (flag sweep why true)) := by
  refine ⟨_, rfl, kept, ⟨_, List.mem_append_right _ List.mem_cons_self, rfl, rfl⟩, ?_⟩
  cases mark : sweep.brokerUncertain <;> simp [flag, markBrokerUncertain, mark]

section

variable (noPause : sweep.flags.filter (·.pause) = [])
include noPause

theorem not_keepsFill_of_noPause : ¬ KeepsFill (.ok sweep) := by
  rintro ⟨_, ⟨rfl⟩, _, ⟨flag, member, _, pauses⟩, _⟩
  have paused : flag ∈ sweep.flags.filter (·.pause) := List.mem_filter.mpr ⟨member, pauses⟩
  rw [noPause] at paused
  cases paused

theorem flag_noPause {why : String} : (flag sweep why false).flags.filter (·.pause) = [] := by
  simp [flag, noPause]

/-- A move by itself pauses nothing. -/
theorem move_not_keepsFill {goal : OrderStatus} {detail : String} : ¬ KeepsFill (move sweep goal detail) := by
  obtain ⟨moved, ran, _, flags, _⟩ := move_spec sweep goal detail
  rw [ran]
  exact not_keepsFill_of_noPause (flags.trans noPause)

theorem move_flag_not_keepsFill {goal : OrderStatus} {detail why : String} :
    ¬ KeepsFill (do let moved ← move sweep goal detail; .ok (flag moved why false)) := by
  obtain ⟨moved, ran, _, flags, _⟩ := move_spec sweep goal detail
  rw [ran]
  exact not_keepsFill_of_noPause (flag_noPause (flags.trans noPause))

end

/-- The entry found decides: only one that ended unfilled loses a fill. -/
theorem settleFound_keepsFill {found : BrokerOrder}
    (working : sweep.order.status ∉ terminalStatuses) (noPause : sweep.flags.filter (·.pause) = []) :
    KeepsFill (settleFound sweep found) ↔ endedUnfilled found = false := by
  have unsettled : sweep.order.status ∉ [.cancelled, .rejected, .failed] := by
    intro member
    refine working (List.mem_cons_of_mem _ ?_)
    simpa [or_comm, or_left_comm] using member
  unfold settleFound
  -- the row as it is after the broker's own id is written on it
  generalize noted : (if found.orderId != "" && truthy sweep.order.brokerOrderId == none then
      { sweep with order := { sweep.order with brokerOrderId := some found.orderId } } else sweep) = sweep'
  have status : sweep'.order.status = sweep.order.status := by
    rw [← noted]
    split_ifs <;> rfl
  have flags : sweep'.flags = sweep.flags := by
    rw [← noted]
    split_ifs <;> rfl
  rw [← status] at working unsettled
  rw [← flags] at noPause
  cases ended : endedUnfilled found with
  | true => simp only [if_true, move_not_keepsFill noPause, Bool.true_eq_false]
  | false =>
    simp only [Bool.false_eq_true, if_false, iff_true]
    split_ifs with filled
    · obtain ⟨moved, ran, _, _, reached⟩ := move_spec sweep' .filled
        s!"Filled at the broker (order {found.orderId}) - no position recorded"
      rw [ran]
      refine keepsFill_flag ?_
      rcases reached with reached | ⟨_, stayed⟩
      · rw [reached]
        decide
      · rw [stayed]
        exact unsettled
    · exact keepsFill_flag unsettled

/-- The entry `_settle_live` acts on, if its look-up finds one. -/
def found (clientOrderId : Nat → String) (order : Order) (sessions : List (Option (List BrokerOrder))) :
    Option BrokerOrder :=
  (lookUp order (tagClientId clientOrderId order) sessions (!sessions.isEmpty)).1

/-- The entry carries the row's own tag, or the row's broker order id. -/
def IsOwn (order : Order) (entry : BrokerOrder) : Prop :=
  (∃ tag, truthy order.algoTag = some tag ∧ normalTag entry.tag = normalTag (some tag)) ∨
    truthy order.brokerOrderId = some entry.orderId

/-- Some readable book has an entry of the row with a fill. -/
def HasFill (order : Order) (sessions : List (Option (List BrokerOrder))) : Prop :=
  ∃ book, some book ∈ sessions ∧ ∃ entry ∈ book, IsOwn order entry ∧ 0 < entry.filledQuantity

theorem lookUp_blind {order : Order} (noId : truthy order.brokerOrderId = none)
    (sessions : List (Option (List BrokerOrder))) (allRead : Bool) :
    (lookUp order none sessions allRead).1 = none := by
  induction sessions generalizing allRead with
  | nil => rfl
  | cons book rest ih =>
    cases book with
    | none => exact ih false
    | some book =>
      simp only [lookUp, matchBook, truthy, Option.filter_none, matchBrokerId]
      simp only [truthy] at noId
      rw [noId]
      exact ih allRead

/-- `_settle_live` keeps a fill exactly when its look-up finds an entry, and
that entry has not ended unfilled. -/
theorem settleLive_keepsFill {clientOrderId : Nat → String}
    {sessions : List (Option (List BrokerOrder))} {age : Int} {sweep : Sweep}
    (working : sweep.order.status ∉ terminalStatuses) (noPause : sweep.flags.filter (·.pause) = []) :
    KeepsFill (settleLive clientOrderId sessions age sweep) ↔
      ∃ entry, found clientOrderId sweep.order sessions = some entry ∧ endedUnfilled entry = false := by
  simp only [settleLive, found]
  by_cases blind : tagClientId clientOrderId sweep.order = none ∧ truthy sweep.order.brokerOrderId = none
  · rw [if_pos blind, blind.1, lookUp_blind blind.2]
    simp only [move_flag_not_keepsFill noPause, reduceCtorEq, false_and, exists_false]
  rw [if_neg blind]
  cases looked : lookUp sweep.order (tagClientId clientOrderId sweep.order) sessions
      (!sessions.isEmpty) with
  | mk entry allRead =>
  cases entry with
  | some entry =>
    simp only [Option.some.injEq, exists_eq_left']
    exact settleFound_keepsFill working noPause
  | none =>
    simp only [reduceCtorEq, false_and, exists_false, iff_false]
    cases allRead with
    | false => exact not_keepsFill_of_noPause noPause
    | true =>
      simp only
      split_ifs with young
      · exact move_not_keepsFill noPause
      · exact move_flag_not_keepsFill noPause

/-- The row as a sweep meets it: nothing is written or reported for it yet. -/
def fresh (order : Order) (mark : Option String) : Sweep := { order, brokerUncertain := mark }

/-- An order with a fill in a readable book is kept and flagged with LIVE
entries paused, exactly where the one entry the look-up answers with is not
an unfilled rejection or cancellation (of another slice) or missing. -/
theorem settleLive_never_loses_fill_iff (clientOrderId : Nat → String)
    (sessions : List (Option (List BrokerOrder))) (age : Int) (order : Order) (mark : Option String)
    (working : order.status ∉ terminalStatuses) :
    (HasFill order sessions → KeepsFill (settleLive clientOrderId sessions age (fresh order mark))) ↔
      (HasFill order sessions →
        ∃ entry, found clientOrderId order sessions = some entry ∧ endedUnfilled entry = false) := by
  have keeps := @settleLive_keepsFill clientOrderId sessions age (fresh order mark) working rfl
  constructor
  · intro kept filled
    exact keeps.mp (kept filled)
  · intro looked filled
    exact keeps.mpr (looked filled)

/-- Order 41's tag, with the client id of its row. -/
def slicedOrder : Order :=
  { id := 41, symbol := "NIFTY", status := .pending, brokerOrderId := none,
    algoTag := some "EMA-UDT6RP-ENT" }

/-- The two slices of order 41: the first filled, the second was rejected. -/
def slicedBook : List BrokerOrder :=
  [{ orderId := "B1", status := "COMPLETE", filledQuantity := 1800, tag := some "EMA-UDT6RP-ENT" },
    { orderId := "B2", status := "REJECTED", tag := some "EMA-UDT6RP-ENT" }]

/-- The same slices in a book that lists the filled one last. -/
theorem settleLive_whole_fill :
    KeepsFill (settleLive (fun _ => "UDT6RP") [some slicedBook.reverse] 0 (fresh slicedOrder none)) := by
  refine (settleLive_never_loses_fill_iff _ _ 0 slicedOrder none (by decide)).mpr ?_ ?_
  · intro _
    exact ⟨_, rfl, by decide +kernel⟩
  · exact ⟨_, List.mem_cons_self, _, List.mem_reverse.mpr List.mem_cons_self, .inl ⟨_, rfl, rfl⟩,
      by decide +kernel⟩

/-- The last slice is the entry the look-up answers with, and the order whose
first slice filled is settled as rejected. -/
theorem settleLive_loses_first_slice :
    ¬ ∀ (clientOrderId : Nat → String) (sessions : List (Option (List BrokerOrder))) (age : Int)
      (order : Order) (mark : Option String), order.status ∉ terminalStatuses →
      HasFill order sessions →
        KeepsFill (settleLive clientOrderId sessions age (fresh order mark)) := by
  intro claimed
  have kept := claimed (fun _ => "UDT6RP") [some slicedBook] 0 slicedOrder none (by decide)
    ⟨_, List.mem_cons_self, _, List.mem_cons_self, .inl ⟨_, rfl, rfl⟩, by decide +kernel⟩
  obtain ⟨entry, looked, unended⟩ := (settleLive_keepsFill (by decide) rfl).mp kept
  have last : found (fun _ => "UDT6RP") (fresh slicedOrder none).order [some slicedBook] =
      slicedBook.getLast? := by
    decide +kernel
  rw [last] at looked
  cases looked
  exact absurd unended (by decide +kernel)

end AdvanceTrading.Execution
