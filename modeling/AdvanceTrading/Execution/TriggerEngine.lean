import AdvanceTrading.Execution.OrderStateMachine
import AdvanceTrading.Execution.PaperAdapter
import AdvanceTrading.Misc.Processes
import AdvanceTrading.Misc.Folds
import AdvanceTrading.Trading.TriggerRules

/-!
# The trigger engine over one resting entry

Model of the entry half of `app/execution/trigger_engine.py` and of the ticket's
`place` (`app/paper/fno_ticket.py:590-649`), for one PAPER ENTRY row of the
resting book: `n` passes (the tick pass, the cycle pass, those after a restart)
that read the row, claim it, send it, settle it and write it in any order of
their statements, a user's cancel, and an error or a stop at any point.

A pass holds the row as its session loaded it. `_claim` and `_take_over` are
conditional updates; every other write is the flush of what the pass changed on
the row it had loaded. Prices, candles and answers of the pipeline are given by
the action.
-/

namespace AdvanceTrading.TriggerEngine

open PaperAdapter (Side OrderKind paperFill)
open TriggerRules (Bar)
open Execution (OrderStatus transitions terminalStatuses)

/-- The statuses of the resting book. -/
inductive Status where
  | resting
  | firing
  | filled
  | rejected
  | cancelled
  | expired
  deriving DecidableEq, Repr

/-- TOUCH, or CLOSE with its timeframe in minutes. -/
inductive TriggerMode where
  | touch
  | close (timeframeMinutes : Option Int)
  deriving DecidableEq, Repr

/-- What the engine reads and writes of a `PaperRestingOrderRecord` with purpose ENTRY. -/
structure Entry where
  status : Status := .resting
  statusNote : String
  side : Side
  orderType : OrderKind
  price : Option ℚ
  triggerLevel : ℚ
  triggerSide : TriggerRules.Side
  triggerMode : TriggerMode
  expiresAt : Option Int
  createdAt : Int
  firedAt : Option Int := none
  fillPrice : Option ℚ := none
  orderId : Option Nat := none
  deriving DecidableEq

/-- The flush of a session that loaded `loaded` and holds `new`. -/
def Entry.flush (loaded new stored : Entry) : Entry where
  status := flushed loaded.status new.status stored.status
  statusNote := flushed loaded.statusNote new.statusNote stored.statusNote
  side := flushed loaded.side new.side stored.side
  orderType := flushed loaded.orderType new.orderType stored.orderType
  price := flushed loaded.price new.price stored.price
  triggerLevel := flushed loaded.triggerLevel new.triggerLevel stored.triggerLevel
  triggerSide := flushed loaded.triggerSide new.triggerSide stored.triggerSide
  triggerMode := flushed loaded.triggerMode new.triggerMode stored.triggerMode
  expiresAt := flushed loaded.expiresAt new.expiresAt stored.expiresAt
  createdAt := flushed loaded.createdAt new.createdAt stored.createdAt
  firedAt := flushed loaded.firedAt new.firedAt stored.firedAt
  fillPrice := flushed loaded.fillPrice new.fillPrice stored.fillPrice
  orderId := flushed loaded.orderId new.orderId stored.orderId

/-! ## Changes of a loaded row -/

/-- `fire_order_type`: a stop-market is sent as a market order, everything else as its limit. -/
def fireOrderType : OrderKind → OrderKind
  | .stopMarket | .market => .market
  | _ => .limit

/-- `_finish`. -/
def finish (row : Entry) (status : Status) (note : String) : Entry :=
  { row with status := status, statusNote := note }

/-- `_back_to_waiting`. -/
def backToWaiting (row : Entry) (note : String) : Entry :=
  { row with status := .resting, statusNote := note, firedAt := none }

/-- `order_trigger_side` of a limit. -/
def limitTriggerSide : Side → TriggerRules.Side
  | .buy => .below
  | .sell => .above

/-- `_keep_as_limit`: a reached order whose limit the price is past waits at its limit. -/
def keepAsLimit (money : ℚ → String) (row : Entry) (price : ℚ) : Entry :=
  backToWaiting
    { row with
      orderType := .limit, triggerLevel := price, triggerSide := limitTriggerSide row.side,
      triggerMode := .touch }
    ("Triggered: waiting at your limit " ++ money price)

/-- `_send_later`. -/
def sendLater (row : Entry) (note : String) : Entry :=
  { row with firedAt := none, statusNote := note }

/-- The limit a reached order would have to wait at: `paper_fill` of it fills nothing. An order
sent as a limit has its price (`ask_errors`). -/
def pastLimit (money : ℚ → String) (row : Entry) (ltp : ℚ) : Option ℚ :=
  match fireOrderType row.orderType, row.price with
  | .limit, some price =>
      if (paperFill money .limit row.side ltp price 0).1 = none then some price else none
  | _, _ => none

/-! ## Readings -/

/-- The price of the row's symbol and the candles of this pass, where there are any. -/
structure Reading where
  price : Option ℚ
  bars : Option (List (Bar ℚ))

/-- `touched` at one price. -/
def touched (level : ℚ) (side : TriggerRules.Side) (price : ℚ) : Bool :=
  match side with
  | .above => decide (level ≤ price)
  | .below => decide (price ≤ level)

/-- `_reached`; an error is a timeframe below a minute. -/
def reached (row : Entry) (reading : Reading) (now : Int) : Except String (Option Bool) :=
  match row.triggerMode with
  | .close timeframe =>
      match reading.bars, timeframe with
      | some bars, some minutes =>
          (TriggerRules.closeTrigger row.triggerLevel row.triggerSide bars minutes now
            (some row.createdAt)).map fun candle => some candle.isSome
      | _, _ => .ok none
  | .touch => .ok (reading.price.map fun price => touched row.triggerLevel row.triggerSide price)

/-! ## The ticket's order -/

/-- The order of the ticket's client id; `trade` is the entry price of its recorded position. -/
structure Order where
  id : Nat
  status : OrderStatus
  trade : Option ℚ := none
  deriving DecidableEq

/-- `executed`: the order is FILLED or POSITION_OPEN. -/
def Order.filled (order : Order) : Bool := order.status == .filled || order.status == .positionOpen

/-- What `place` answers. -/
structure PlaceResult where
  placed : Bool
  orderId : Option Nat
  fillPrice : Option ℚ := none
  reasons : String := ""
  deriving DecidableEq

/-! ## A pass -/

/-- How a pass came to hold the row: `_claim`, or `_take_over` of a FIRING one. -/
inductive Route where
  | claimed
  | takenOver
  deriving DecidableEq, Repr

/-- Where a pass that holds the row stands. -/
inductive Stage where
  /-- `_reconcile`: the look-up by client id is next. -/
  | look (loaded : Entry)
  /-- `_send_entry` at this price. -/
  | send (loaded : Entry) (price : ℚ)
  /-- `place`: the checks passed, the order is next. -/
  | placing (price : ℚ)
  /-- The pipeline of the order this pass created. -/
  | pipeline (price : ℚ)
  /-- `place` has answered. -/
  | returned (price : ℚ) (result : PlaceResult)
  /-- The row is changed and the commit is next. -/
  | write (loaded new : Entry)

/-- Where a pass stands with the row. -/
inductive Point where
  | idle
  /-- `_resolve_firing` read the row FIRING and overdue, with this `fired_at`. -/
  | sawFiring (now : Int) (firedAt : Option Int)
  /-- `_resting` read the row. -/
  | sawResting (now : Int) (loaded : Entry)
  /-- `_expire`: the commit of EXPIRED is next. -/
  | expiring (loaded : Entry)
  /-- `_keep_as_limit` of a row that waits: its commit is next. -/
  | keeping (loaded new : Entry)
  /-- Reached: `_claim` is next. -/
  | reachedAt (now : Int) (price : ℚ)
  | held (now : Int) (route : Route) (stage : Stage)
  /-- After an error: `_restore` reads the row again. -/
  | restoring
  /-- `_restore` found it FIRING: the commit of RESTING is next. -/
  | restored (loaded new : Entry)

/-- The row, the order of its client id, and how many orders were ever placed for it. -/
structure Shared where
  row : Entry
  order : Option Order := none
  placed : Nat := 0

/-- The next statement of a pass. -/
inductive Action where
  | readFiring (now timeout : Int)
  | takeOver
  | look (price : Option ℚ)
  | readResting (now : Int)
  | judge (reading : Reading)
  | claim
  | send (userActive : Bool)
  | refuse (reasons : String)
  | create (orderId : Nat)
  | advance (next : OrderStatus) (trade : Option ℚ)
  | finished (reasons : String)
  | refresh
  | flush
  | raised (type : String)
  | stop

/-- `_overdue`. -/
def overdue (row : Entry) (now timeout : Int) : Bool :=
  match row.firedAt with
  | none => true
  | some fired => decide (timeout ≤ now - fired)

/-- `_expire` and `_evaluate_entry` up to the claim. -/
def judge (money : ℚ → String) (loaded : Entry) (reading : Reading) (now : Int) : Point :=
  if loaded.expiresAt.any (· ≤ now) then .expiring loaded
  else
    match reached loaded reading now with
    | .error _ => .restoring
    | .ok (some true) =>
        match reading.price with
        | none => .idle
        | some ltp =>
            match pastLimit money loaded ltp with
            | some limit => .keeping loaded (keepAsLimit money loaded limit)
            | none => .reachedAt now ltp
    | .ok _ => .idle

/-- `_reconcile` for a PAPER entry: the look-up by client id, then the price. -/
def reconcile (money : ℚ → String) (row : Entry) (order : Option Order) (price : Option ℚ) : Stage :=
  match order, price with
  | some order, _ =>
      match order.trade with
      | some entry =>
          .write row { finish row .filled ("Placed at " ++ money entry ++ " (found after a restart)")
            with orderId := some order.id, fillPrice := some entry }
      | none =>
          .write row { finish row .rejected "Not placed (its order was refused before the restart)"
            with orderId := some order.id }
  | none, none =>
      .write row (sendLater row "Not at the broker: sent once with the same id at the next price")
  | none, some price => .send row price

/-- `_send_entry` after `place` has answered, on the row read again. -/
def settle (money : ℚ → String) (row : Entry) (price : ℚ) (result : PlaceResult) : Entry :=
  if result.placed then
    { finish row .filled ("Placed at " ++ money (result.fillPrice.getD price)) with
      orderId := result.orderId, fillPrice := result.fillPrice }
  else
    { finish row .rejected (if result.reasons = "" then "Not placed" else result.reasons) with
      orderId := result.orderId }

/-- Where an error leaves the pass: an entry of `run_entries` is restored, one that
`_resolve_firing` settles stays FIRING. -/
def afterError : Point → Point
  | .held _ .claimed _ | .sawResting _ _ | .keeping _ _ | .reachedAt _ _ => .restoring
  | _ => .idle

/-- One statement of a pass: what it leaves stored, and where it leaves the pass. -/
def statement (money : ℚ → String) (s : Shared) (point : Point) (action : Action) :
    Option (Shared × Point) :=
  match point, action with
  | .idle, .stop => none
  | _, .stop => some (s, .idle)
  | .idle, .readFiring now timeout =>
      if s.row.status = .firing ∧ overdue s.row now timeout then
        some (s, .sawFiring now s.row.firedAt)
      else none
  | .sawFiring now firedAt, .takeOver =>
      if s.row.status = .firing ∧ s.row.firedAt = firedAt then
        let row := { s.row with firedAt := some now }
        some ({ s with row := row }, .held now .takenOver (.look row))
      else some (s, .idle)
  | .held now route (.look loaded), .look price =>
      some (s, .held now route (reconcile money loaded s.order price))
  | .idle, .readResting now =>
      if s.row.status = .resting then some (s, .sawResting now s.row) else none
  | .sawResting now loaded, .judge reading => some (s, judge money loaded reading now)
  | .reachedAt now price, .claim =>
      if s.row.status = .resting then
        let row := { s.row with status := .firing, firedAt := some now }
        some ({ s with row := row }, .held now .claimed (.send row price))
      else some (s, .idle)
  | .held now route (.send loaded price), .send userActive =>
      some (s, .held now route (
        match pastLimit money loaded price with
        | some limit => .write loaded (keepAsLimit money loaded limit)
        | none =>
            if userActive then .placing price
            else .write loaded
              (finish loaded .cancelled "The account is no longer active: nothing was placed")))
  | .held now route (.placing price), .refuse reasons =>
      some (s, .held now route (.returned price { placed := false, orderId := none, reasons := reasons }))
  | .held now route (.placing price), .create orderId =>
      match s.order with
      | none =>
          some ({ s with order := some { id := orderId, status := .created }, placed := s.placed + 1 },
            .held now route (.pipeline price))
      | some order =>
          -- the client id is taken: the order's outcome as it is now is replayed
          some (s, .held now route (.returned price { placed := order.filled, orderId := some order.id }))
  | .held now route (.pipeline price), .advance next trade =>
      match s.order with
      | some order =>
          if next ∈ transitions order.status ∧ (next = .positionOpen ↔ trade.isSome) then
            some ({ s with order := some { order with status := next, trade := trade } },
              .held now route (.pipeline price))
          else none
      | none => none
  | .held now route (.pipeline price), .finished reasons =>
      match s.order with
      | some order =>
          if order.filled ∨ order.status ∈ terminalStatuses then
            some (s, .held now route (.returned price {
              placed := order.filled, orderId := some order.id, fillPrice := order.trade,
              reasons := reasons }))
          else none
      | none => none
  | .held now route (.pipeline price), .raised type =>
      -- `place` answers with the error's type
      some (s, .held now route (.returned price {
        placed := false, orderId := none, reasons := "Not placed: " ++ type }))
  | .held now route (.returned price result), .refresh =>
      some (s, .held now route (.write s.row (settle money s.row price result)))
  | .held _ _ (.write loaded new), .flush => some ({ s with row := loaded.flush new s.row }, .idle)
  | .expiring loaded, .flush =>
      some ({ s with
        row := loaded.flush
          (finish loaded .expired "Expired at the end of the day: nothing was placed") s.row }, .idle)
  | .keeping loaded new, .flush => some ({ s with row := loaded.flush new s.row }, .idle)
  | .restoring, .refresh =>
      some (s, if s.row.status = .firing then
        .restored s.row (backToWaiting s.row
          "Not sent this time (a temporary problem): tried again on the next price")
      else .idle)
  | .restored loaded new, .flush => some ({ s with row := loaded.flush new s.row }, .idle)
  | .idle, .raised _ => none
  | point, .raised _ => some (s, afterError point)
  | _, _ => none

/-- The user's cancel: conditional on the order still waiting. -/
def cancel (s : Shared) (_ : Unit) : Option Shared :=
  if s.row.status = .resting then
    some { s with row := { s.row with status := .cancelled, statusNote := "Cancelled by you" } }
  else some s

/-- The passes over one row, and the user's cancels. -/
def engine (money : ℚ → String) (n : Nat) :
    Machine (Procs Shared Point n) (ProcEvent n Action Unit) :=
  Procs.interleave (statement money) cancel n

end AdvanceTrading.TriggerEngine
