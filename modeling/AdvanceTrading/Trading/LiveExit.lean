import AdvanceTrading.Execution.OrderTags
import Mathlib.Algebra.Order.Ring.Rat

/-!
# LIVE exits: what they read, and what an earlier exit decides

Model of the first half of a LIVE close (`app/trading/position_monitor.py:236-747`):
the reads of the order book, which order of the book is an exit of a position
(`_exit_lookalike`), the claim of an exit (`_ExitLedger`) and the verdict on an
exit sent earlier (`_judge_earlier_exit`). The broker and the other sessions are a
`World`, which may answer a call by everything said before it in this close.

Statuses, tags and products are upper case, as each reader makes them. Times are
seconds. A warning is a `Notice`, one constructor for each text.
-/

namespace AdvanceTrading.LiveExit

/-! ## Data -/

inductive Direction where
  | long
  | short
  deriving DecidableEq, Repr

inductive Side where
  | buy
  | sell
  deriving DecidableEq, Repr

/-- The side that takes a position back. -/
def Direction.exitSide : Direction → Side
  | .long => .sell
  | .short => .buy

/-- `BrokerOrderStatus`. -/
structure Order where
  id : String
  symbol : String
  side : Side
  quantity : ℚ
  filled : ℚ := 0
  orderType : String := "MARKET"
  status : String
  averagePrice : Option ℚ := none
  placedAt : Option ℚ := none
  tag : Option String := none
  product : Option String := none
  exchange : Option String := none
  deriving DecidableEq

/-- The columns of a LIVE `TradeRecord` that its exit reads and writes. -/
structure Trade where
  id : Nat
  symbol : String
  direction : Direction
  quantity : ℚ
  stopLoss : ℚ
  brokerOrderId : Option String := none
  slOrderId : Option String := none
  exitOrderId : Option String := none
  exitSentAt : Option ℚ := none
  reconciledOpenAt : Option ℚ := none
  exitFilledQuantity : Option ℚ := none
  exitFilledPrice : Option ℚ := none
  exitTime : Option ℚ := none
  exitPrice : Option ℚ := none
  deriving DecidableEq

structure Settings where
  /-- `LIVE_UPSTOX_OPTION_STOP_LIMIT`. -/
  stopLimit : Bool
  /-- `LIVE_EXIT_IF_NO_STOP`. -/
  exitIfNoStop : Bool
  exitRejectRetries : Int
  claimInflightSeconds : ℚ
  adoptClockSkewSeconds : ℚ

/-- `_partial_aware`. -/
def Settings.partialAware (settings : Settings) : Bool := settings.stopLimit || settings.exitIfNoStop

/-- The arguments of a close, with what it takes from the rest of the platform. -/
structure Request where
  exitPrice : ℚ
  reason : String
  now : ℚ
  stopDead : Bool := false
  resumeOnly : Bool := false
  exchange : String
  product : String
  /-- `expected_exit_tag`, by the time of the claim. -/
  exitTag : Option ℚ → String
  /-- `exit_client_id`, by the time of the claim. -/
  clientId : Option ℚ → Option String
  legacyTag : String
  /-- `exit_ids_elsewhere`. -/
  elsewhere : List String

/-- `EXIT_PENDING`. -/
def exitPending : String := "pending-exit"

/-- `_FILLED_STATUSES`. -/
def filledStatuses : List String := ["COMPLETE", "COMPLETED", "FILLED", "TRADED", "EXECUTED"]

/-- `_DEAD_STOP_STATUSES`. -/
def deadStatuses : List String :=
  ["REJECTED", "CANCELLED", "CANCELED", "CANCELLED AMO", "EXPIRED", "LAPSED"]

/-- The status is a filled one. -/
def Order.isFilled (order : Order) : Bool := order.status ∈ filledStatuses

/-- `_stop_is_dead` of the order's status. -/
def Order.isDead (order : Order) : Bool := order.status ∈ deadStatuses

/-- `_fully_filled`. -/
def Order.fullyFilled (order : Order) (quantity : ℚ) : Bool :=
  order.isFilled || quantity - 1 / 1000000000 ≤ order.filled

/-- The average price where there is one, else the fallback; 0 is none. -/
def Order.priceOr (order : Order) (fallback : ℚ) : ℚ :=
  match order.averagePrice with
  | none => fallback
  | some price => if price = 0 then fallback else price

/-- A recorded price that is there and not 0, else the fallback. -/
def priceOr (price : Option ℚ) (fallback : ℚ) : ℚ := if price.getD 0 = 0 then fallback else price.getD 0

/-- What an exit tells its caller, one constructor for each text. -/
inductive Notice where
  | alreadyClosed
  | beingPlaced
  | bookUnreadable (earlierId : String)
  | adopted (id status : String)
  | mayBeExit (ids : List String)
  | notShownOpen (pending : Bool) (earlierId : String)
  | resumeAfterGone
  | notHeld (held : Option ℚ) (platform : ℚ)
  | gone (earlierId : String)
  | earlierFilled (earlierId : String)
  | bothFilled (earlierId stopId : String)
  | stillWorking (earlierId status : String)
  | endedFilled (earlierId status : String) (filled : ℚ)
  | endedUnfilled (earlierId status : String)
  | endedPart (earlierId status : String) (filled ordered remainder : ℚ)
  | endedReplaced (earlierId status : String)
  | claimedFirst
  | stopFilledAfterPart (stopId : String)
  | stopHadFilled (stopId : String)
  | cancelFailed (stopId : String)
  | exitFailed
  | exitUnclear
  | foundByClientId (id : String)
  | exitRejected (status : String)
  | exitWorking (id status : String) (filled quantity : ℚ)
  | exitEnded (id status : String) (filled quantity : ℚ)
  | settleUnread (stopId : String) (quantity : ℚ)
  | stopFilledMore (stopId : String) (more quantity : ℚ)
  | exitOpposite (id stopId : String) (quantity : ℚ)
  | stopFilledPart (stopId : String) (stopFilled quantity exitQuantity : ℚ)
  | closedElsewhere
  deriving DecidableEq

/-- `CloseOutcome`. -/
structure Outcome where
  closed : Bool := false
  exitReason : Option String := none
  exitPrice : Option ℚ := none
  brokerExitOrderId : Option String := none
  exitTag : Option String := none
  warnings : List Notice := []
  brokerUncertain : Option Notice := none
  previousExitOrderId : Option String := none
  previousExitStatus : Option String := none
  exitWaiting : Bool := false
  exitRejected : Option String := none
  deriving DecidableEq

/-- `BrokerOrderResponse`. -/
structure Response where
  orderId : String
  status : String
  deriving DecidableEq

/-- An order call that errors: refused (`is_clear_rejection`), or without a clear answer. -/
inductive Refusal where
  | clear
  | unclear
  deriving DecidableEq, Repr

/-! ## The world -/

/-- A call to the broker or a conditional write, with its answer. -/
inductive Event where
  /-- `get_order_book`; `none` where it raises. -/
  | book (answer : Option (List Order))
  | cancel (id : String) (accepted : Bool)
  | place (quantity : ℚ) (tag : String) (answer : Except Refusal Response)
  /-- `_placed_by_client_id`. -/
  | byClientId (answer : Option Order)
  /-- The broker's positions on the symbol; `none` where the read raises. -/
  | held (answer : Option ℚ)
  /-- What `exit_peers` have open on the symbol. -/
  | platform (answer : ℚ)
  /-- The UPDATE of `claim`: the claim's time where it lands. -/
  | claim (answer : Option ℚ)
  /-- The UPDATE that closes the row. -/
  | booking (landed : Bool)
  deriving DecidableEq

abbrev History := List Event

structure World where
  book : History → Option (List Order)
  cancel : History → String → Bool
  place : History → ℚ → String → Except Refusal Response
  byClientId : History → String → Option Order
  held : History → Option ℚ
  platform : History → ℚ
  claim : History → Option ℚ
  booking : History → Bool
  clock : History → ℚ

/-- A close on its way: what was said, the row as it is held, the outcome, and the ledger's fields. -/
structure Desk where
  history : History := []
  trade : Trade
  outcome : Outcome := {}
  previousId : Option String
  previousSent : Option ℚ
  claimed : Bool := false
  keepClaim : Bool := false

abbrev Exit := StateM Desk

/-- Ask the world, and keep what it answers. -/
def ask {α : Type} (answer : History → α) (event : α → Event) : Exit α := fun d =>
  (answer d.history, { d with history := d.history ++ [event (answer d.history)] })

def setTrade (write : Trade → Trade) : Exit Unit := modify fun d => { d with trade := write d.trade }

def setOutcome (write : Outcome → Outcome) : Exit Unit :=
  modify fun d => { d with outcome := write d.outcome }

def warn (notice : Notice) : Exit Unit := setOutcome fun o => { o with warnings := o.warnings ++ [notice] }

/-- Nothing is sent while this may still be settled. -/
def wait (notice : Notice) : Exit Unit := do
  setOutcome fun o => { o with exitWaiting := true }
  warn notice

/-- What the broker holds is not known: reconciliation decides. -/
def flag (notice : Notice) : Exit Unit := do
  setOutcome fun o => { o with brokerUncertain := some notice }
  warn notice

section Calls

variable (world : World)

/-- `_read_book`. -/
def readBook : Exit (Option (List Order)) := ask world.book .book

/-- `_read_order`: the order, where the book could be read. -/
def readOrder (id : String) : Exit (Option (Option Order)) := do
  return (← readBook world).map fun book => book.find? fun o => o.id = id

/-- `_find_order`: `none` also where the book could not be read. -/
def findOrder (id : String) : Exit (Option Order) := do return (← readOrder world id).join

end Calls

/-! ## Which order is the exit -/

/-- `claim_in_flight`. -/
def claimInFlight (settings : Settings) (trade : Trade) (now : ℚ) : Bool :=
  trade.exitOrderId = some exitPending &&
    trade.exitSentAt.any fun sent => now - sent < settings.claimInflightSeconds

/-- `absent_exit_dead_reason`: since when the position was seen open, if after the exit was sent. -/
def absentExitDead (trade : Trade) : Option ℚ :=
  match trade.exitSentAt, trade.reconciledOpenAt with
  | some sent, some seen => if seen ≤ sent then none else some seen
  | _, _ => none

/-- The verdicts of `_exit_lookalike`. -/
inductive Verdict where
  | adopt
  | foreign
  | unverified
  deriving DecidableEq, Repr

section Lookalike

variable (settings : Settings) (request : Request) (trade : Trade)

/-- The order is shaped like an exit of the position. -/
def shaped (order : Order) : Bool :=
  order.id ∉ request.elsewhere && some order.id ≠ trade.brokerOrderId && some order.id ≠ trade.slOrderId &&
    some order.id ≠ trade.exitOrderId && order.symbol = trade.symbol &&
    order.side = trade.direction.exitSide && order.orderType = "MARKET" &&
    !(order.isDead && order.filled ≤ 0) && order.quantity ≤ trade.quantity + 1 / 1000000000

/-- The exit's tag carries the id of this attempt. -/
def ownTag : Bool :=
  (request.clientId trade.exitSentAt).any
    (Execution.hasClientId (some (request.exitTag trade.exitSentAt)))

/-- What the tag says, or the product and the exchange where there is no tag; `none` where they do
not decide. -/
def byTag (order : Order) : Option Verdict :=
  match order.tag with
  | some tag =>
      if tag = request.exitTag trade.exitSentAt ∧ ownTag request trade then some .adopt
      else if tag = request.exitTag trade.exitSentAt ∨ tag = request.legacyTag then none
      else some .foreign
  | none =>
      match order.product, order.exchange with
      | some product, some exchange =>
          if product = request.product ∧ exchange = request.exchange then none else some .foreign
      | _, _ => some .unverified

/-- The order was placed inside the claim's window. -/
def byTime (order : Order) : Verdict :=
  match trade.exitSentAt, order.placedAt with
  | some sent, some placed =>
      if placed < sent - settings.adoptClockSkewSeconds ∨ sent + settings.claimInflightSeconds < placed then
        .foreign
      else .adopt
  | _, _ => .unverified

/-- `_exit_lookalike`. -/
def exitLookalike (order : Order) : Option Verdict :=
  if shaped request trade order then some ((byTag request trade order).getD (byTime settings trade order))
  else none

/-- `adoptable_exit`. -/
def adoptableExit (book : List Order) : Option Order :=
  book.find? fun order => exitLookalike settings request trade order = some .adopt

/-- `unverified_working_exits`. -/
def unverifiedWorkingExits (book : List Order) : List Order :=
  book.filter fun order => exitLookalike settings request trade order = some .unverified ∧
    order.isDead = false ∧ order.isFilled = false

end Lookalike

/-! ## The ledger -/

/-- `_ExitLedger.adopt`. -/
def adopt (id : String) : Exit Unit := do
  setTrade fun trade => { trade with exitOrderId := some id }
  modify fun d => { d with previousId := some id }

/-- `_ExitLedger.cleared`. -/
def cleared : Exit Unit := modify fun d => { d with previousId := none, previousSent := none }

/-- `_ExitLedger.claim`. -/
def claim (world : World) : Exit Bool := do
  match ← ask world.claim .claim with
  | none => return false
  | some sentAt =>
      setTrade fun trade => { trade with exitOrderId := some exitPending, exitSentAt := some sentAt }
      modify fun d => { d with claimed := true }
      return true

/-- The quantity of some fills. -/
def total (fills : List (ℚ × ℚ)) : ℚ := (fills.map Prod.fst).sum

/-- Their worth. -/
def worth (fills : List (ℚ × ℚ)) : ℚ := (fills.map fun fill => fill.1 * fill.2).sum

/-- `_ExitLedger.sent`. -/
def sent (id : String) (priorFills : List (ℚ × ℚ)) : Exit Unit := do
  setTrade fun trade =>
    { trade with
      exitOrderId := some id
      exitFilledQuantity := if total priorFills = 0 then none else some (total priorFills)
      exitFilledPrice := if total priorFills = 0 then none else some (worth priorFills / total priorFills) }
  modify fun d => { d with keepClaim := true, claimed := false }

/-- `_ExitLedger.release`. -/
def release : Exit Unit := do
  let d ← get
  if d.claimed ∧ ¬ d.keepClaim then
    set { d with
      claimed := false
      trade := { d.trade with exitOrderId := d.previousId, exitSentAt := d.previousSent } }

/-! ## The earlier exit -/

/-- `_Earlier`. -/
structure Earlier where
  proceed : Bool
  price : Option ℚ := none
  remainder : Option ℚ := none
  priorFills : List (ℚ × ℚ) := []
  deriving DecidableEq

/-- What the recorded exit was sized for, at most the position. -/
def Trade.ordered (trade : Trade) (order : Order) : ℚ :=
  min (if order.quantity = 0 then trade.quantity else order.quantity) trade.quantity

/-- The recorded stop in a book. -/
def Trade.stopIn (trade : Trade) (book : List Order) : Option Order :=
  trade.slOrderId.bind fun id => book.find? fun o => o.id = id

/-- `_filled_before`. -/
def filledBefore (trade : Trade) (order : Order) (book : List Order) : List (ℚ × ℚ) :=
  let gap := trade.quantity - trade.ordered order
  if gap ≤ 0 then []
  else
    let known := min (trade.exitFilledQuantity.getD 0) gap
    (if 0 < known then [(known, priceOr trade.exitFilledPrice trade.stopLoss)] else []) ++
      if 0 < gap - known then
        [(gap - known, (trade.stopIn book).elim trade.stopLoss fun stop => stop.priceOr trade.stopLoss)]
      else []

section Judge

variable (world : World) (settings : Settings) (request : Request)

/-- `_still_open_now`. -/
def stillOpenNow : Exit Bool := do
  let held ← ask world.held .held
  match held with
  | some held =>
      let platform ← ask world.platform .platform
      if |platform - held| ≤ 1 / 1000000000 then return true
      else
        notOpen (some held) platform
        return false
  | none =>
      notOpen none 0
      return false
where
  notOpen (held : Option ℚ) (platform : ℚ) : Exit Unit := do
    wait (.notHeld held platform)
    setOutcome fun o => { o with brokerUncertain := some (.notHeld held platform) }
    setTrade fun trade => { trade with reconciledOpenAt := none }

/-- The earlier exit is not in the book, and no order of it is adopted. -/
def judgeAbsent (earlierId : String) (book : List Order) : Exit Earlier := do
  let trade := (← get).trade
  let unverified := unverifiedWorkingExits settings request trade book
  if unverified ≠ [] then
    wait (.mayBeExit (unverified.map Order.id))
    setOutcome fun o => { o with brokerUncertain := some (.mayBeExit (unverified.map Order.id)) }
    return { proceed := false }
  else if absentExitDead trade = none then
    wait (.notShownOpen (earlierId = exitPending) earlierId)
    setOutcome fun o => { o with brokerUncertain := some (.notShownOpen (earlierId = exitPending) earlierId) }
    return { proceed := false }
  else if request.resumeOnly then
    warn .resumeAfterGone
    return { proceed := false }
  else if ← stillOpenNow world then
    cleared
    setOutcome fun o => { o with previousExitOrderId := some earlierId, previousExitStatus := some "gone" }
    warn (.gone earlierId)
    return { proceed := true }
  else return { proceed := false }

/-- The earlier exit filled: booked at its fill. -/
def judgeFilled (earlierId : String) (earlier : Order) (book : List Order) : Exit Earlier := do
  let trade := (← get).trade
  let prior := filledBefore trade earlier book
  setOutcome fun o => { o with brokerExitOrderId := some earlierId }
  warn (.earlierFilled earlierId)
  match trade.slOrderId, trade.stopIn book with
  | some stopId, some stop =>
      if stop.isFilled ∧ 0 < stop.filled then flag (.bothFilled earlierId stopId)
  | _, _ => pure ()
  return {
    proceed := false
    price := some ((worth prior + (trade.quantity - total prior) * earlier.priceOr request.exitPrice)
      / trade.quantity) }

/-- The earlier exit ended: what it did not fill is left to exit. -/
def judgeEnded (earlierId : String) (earlier : Order) (book : List Order) : Exit Earlier := do
  let trade := (← get).trade
  let before := filledBefore trade earlier book
  let ordered := trade.quantity - total before
  let filled := min earlier.filled ordered
  let prior := before ++ if 0 < filled then [(filled, earlier.priceOr request.exitPrice)] else []
  let remainder := ordered - filled
  if remainder ≤ 0 then
    setOutcome fun o => { o with brokerExitOrderId := some earlierId }
    warn (.endedFilled earlierId earlier.status filled)
    return { proceed := false, price := some (worth prior / trade.quantity) }
  else if filled = 0 ∧ request.resumeOnly then
    warn (.endedUnfilled earlierId earlier.status)
    return { proceed := false }
  else
    setOutcome fun o =>
      { o with previousExitOrderId := some earlierId, previousExitStatus := some earlier.status }
    warn (if 0 < filled then .endedPart earlierId earlier.status filled ordered remainder
      else .endedReplaced earlierId earlier.status)
    return {
      proceed := true
      remainder := if prior = [] then none else some remainder
      priorFills := prior }

/-- The earlier exit is in the book. -/
def judgeListed (earlierId : String) (earlier : Order) (book : List Order) : Exit Earlier := do
  if earlier.isFilled then judgeFilled request earlierId earlier book
  else if earlier.isDead then judgeEnded request earlierId earlier book
  else
    wait (.stillWorking earlierId earlier.status)
    return { proceed := false }

/-- `_judge_earlier_exit`. -/
def judgeEarlier (earlierId : String) : Exit Earlier := do
  let trade := (← get).trade
  if earlierId = exitPending ∧ claimInFlight settings trade request.now then
    wait .beingPlaced
    return { proceed := false }
  else
    match ← readBook world with
    | none =>
        wait (.bookUnreadable earlierId)
        return { proceed := false }
    | some book =>
        let earlier := if earlierId = exitPending then none else book.find? fun o => o.id = earlierId
        match earlier with
        | some earlier => judgeListed request earlierId earlier book
        | none =>
            match adoptableExit settings request trade book with
            | some adopted =>
                warn (.adopted adopted.id adopted.status)
                adopt adopted.id
                judgeListed request adopted.id adopted book
            | none => judgeAbsent world settings request earlierId book

end Judge

end AdvanceTrading.LiveExit

/-!
# LIVE exits: squaring off at the broker

Model of `_square_off_live` and of the LIVE half of `close_position`
(`app/trading/position_monitor.py:271-333`, `750-952` and `993-1062`): the
protective stop is cancelled or taken for gone, what it did not fill is sent as a
market exit, and the close is booked at the fills. A close takes its stages in
turn, each its own function here. The P&L and the charges are left out.
-/

namespace AdvanceTrading.LiveExit

section SquareOff

variable (world : World) (settings : Settings) (request : Request)

/-- `FILL_POLL_ATTEMPTS`. -/
def fillPollAttempts : Nat := 3

/-- One read of `_exit_fill`: what comes of an exit that neither filled in full nor ended is left to
`again`. -/
def readExit (id : String) (quantity fallback : ℚ) (again : Option Order → Exit (ℚ × Option Order)) :
    Exit (ℚ × Option Order) := do
  let order ← findOrder world id
  match order with
  | some order =>
      if order.fullyFilled quantity then return (order.priceOr fallback, some order)
      else if order.isDead then return (fallback, some order)
      else again (some order)
  | none => again none

/-- `_exit_fill`, with so many reads left after the first. -/
def exitFill (id : String) (quantity fallback : ℚ) : Nat → Exit (ℚ × Option Order)
  | 0 => readExit world id quantity fallback fun order => return (fallback, order)
  | left + 1 => readExit world id quantity fallback fun _ => exitFill id quantity fallback left

/-- One read of `_settled_stop`. -/
def readStop (id : String) (again : Exit (Option Order)) : Exit (Option Order) := do
  match ← findOrder world id with
  | some order => if order.isDead ∨ order.isFilled then return some order else again
  | none => again

/-- `_settled_stop`, with so many reads left after the first. -/
def settledStop (id : String) : Nat → Exit (Option Order)
  | 0 => readStop world id (return none)
  | left + 1 => readStop world id (settledStop id left)

/-- `_stop_already_filled`. -/
def stopAlreadyFilled (stop : Order) : Exit ℚ := do
  let trade := (← get).trade
  setOutcome fun o =>
    { o with brokerExitOrderId := trade.slOrderId, exitReason := some "Stop Loss" }
  if request.reason ≠ "Stop Loss" then warn (.stopHadFilled stop.id)
  return stop.priceOr trade.stopLoss

/-- How the stop stands before an exit goes out. -/
inductive StopStep where
  /-- It had filled: the price. -/
  | filled (price : ℚ)
  /-- It may still work. -/
  | blocked
  /-- It is gone or cancelled, and what was read of it last. -/
  | gone (after : Option Order) (cancelled : Bool)

/-- The stop is asked to be cancelled. -/
def cancelStop (stopId : String) (stop : Option Order) : Exit StopStep := do
  if ← ask (fun history => world.cancel history stopId) (.cancel stopId) then
    if settings.partialAware then
      match ← findOrder world stopId with
      | some fresh =>
          return .gone (if (stop.elim 0 Order.filled) ≤ fresh.filled then some fresh else stop) true
      | none => return .gone stop true
    else return .gone stop true
  else
    match ← findOrder world stopId with
    | some recheck =>
        if recheck.isFilled then return .filled (← stopAlreadyFilled request recheck)
        else
          warn (.cancelFailed stopId)
          return .blocked
    | none =>
        warn (.cancelFailed stopId)
        return .blocked

/-- The stop is taken for gone without a cancel: `stopDead` is trusted where the read shows it dead,
or does not show it at all. -/
def takenForGone (stopDead : Bool) (stop : Option Order) : Bool :=
  match stop with
  | none => stopDead
  | some stop => stop.isDead && (stopDead || settings.exitIfNoStop || stop.status = "REJECTED")

/-- The recorded stop is dealt with (`position_monitor.py:783-822`). -/
def clearStop (stopDead : Bool) (earlier : Earlier) (stopId : String) : Exit StopStep := do
  let stop ← findOrder world stopId
  match stop.filter Order.isFilled with
  | some stop =>
      if earlier.priorFills ≠ [] then flag (.stopFilledAfterPart stopId)
      return .filled (← stopAlreadyFilled request stop)
  | none =>
      if takenForGone settings stopDead stop then return .gone stop false
      else cancelStop world settings request stopId stop

/-- `_nothing_filled`. -/
def nothingFilled (response : Response) : Exit Bool := do
  if response.status = "REJECTED" then return true
  else if response.orderId = "" then return true
  else
    return (← readOrder world response.orderId).any fun order => order.all fun o => o.filled ≤ 0

/-- `_placed_by_client_id`, asked where the answer was not a clear refusal. -/
def findPlaced (tag : String) (sentAt : Option ℚ) (refusal : Refusal) : Exit (Option Order) :=
  if refusal = .unclear ∧ (request.clientId sentAt).any (Execution.hasClientId (some tag)) then
    ask (fun history => world.byClientId history tag) .byClientId
  else return none

/-- What the broker answered: the id of an order it took, or `again`. -/
def answered (response : Response) (again : Response → Exit (Option String)) : Exit (Option String) := do
  if response.status = "REJECTED" ∨ response.status = "CANCELLED" then
    setOutcome fun o => { o with exitRejected := some response.status }
    again response
  else
    setOutcome fun o => { o with exitRejected := none }
    return some response.orderId

/-- What comes of a send: an order that errored without a clear answer is looked up first. -/
def onAnswer (tag : String) (sentAt : Option ℚ) (again : Response → Exit (Option String)) :
    Except Refusal Response → Exit (Option String)
  | .error refusal => do
      match ← findPlaced world request tag sentAt refusal with
      | some order =>
          warn (.foundByClientId order.id)
          answered ⟨order.id, if order.status = "" then "OPEN" else order.status⟩ again
      | none =>
          warn .exitFailed
          if refusal = .unclear then
            setOutcome fun o => { o with brokerUncertain := some .exitUnclear }
            modify fun d => { d with keepClaim := true }
          return none
  | .ok response => answered response again

/-- One send of the market exit. -/
def sendOnce (quantity : ℚ) (tag : String) (sentAt : Option ℚ) (again : Response → Exit (Option String)) :
    Exit (Option String) := do
  let answer ← ask (fun history => world.place history quantity tag) (.place quantity tag)
  onAnswer world request tag sentAt again answer

/-- The exit was refused for good. -/
def refused (response : Response) : Exit (Option String) := do
  warn (.exitRejected response.status)
  return none

/-- The market exit is sent, again so many times where it is refused with nothing filled: the id of
the order the broker took (`position_monitor.py:843-887`). -/
def sendExit (quantity : ℚ) (tag : String) (sentAt : Option ℚ) : Nat → Exit (Option String)
  | 0 => sendOnce world request quantity tag sentAt refused
  | left + 1 =>
      sendOnce world request quantity tag sentAt fun response => do
        if ← nothingFilled world response then sendExit quantity tag sentAt left
        else refused response

/-- The part of a cancelled stop's fill that the exit did not know of, and the stop as last read;
a price where the stop closed all of it (`position_monitor.py:905-932`). -/
def settleStop (stopId exitId : String) (exitQuantity stopFilled : ℚ) (after : Option Order) :
    Exit (ℚ × Option Order × Option ℚ) := do
  let trade := (← get).trade
  match ← settledStop world stopId (fillPollAttempts - 1) with
  | none =>
      flag (.settleUnread stopId exitQuantity)
      return (stopFilled, after, none)
  | some settled =>
      let settledFilled := min settled.filled trade.quantity
      if stopFilled < settledFilled then
        flag (.stopFilledMore stopId (settledFilled - stopFilled) exitQuantity)
        if trade.quantity ≤ settledFilled then
          let price ← stopAlreadyFilled request settled
          setOutcome fun o => { o with brokerExitOrderId := some exitId }
          warn (.exitOpposite exitId stopId exitQuantity)
          return (settledFilled, some settled, some price)
        else return (settledFilled, some settled, none)
      else return (stopFilled, after, none)

/-- The fills of a flat position, blended. -/
def blend (earlier : Earlier) (stopId : Option String) (stopFilled : ℚ) (after : Option Order)
    (exitQuantity price : ℚ) : Exit ℚ := do
  let trade := (← get).trade
  match earlier.remainder, after with
  | some _, _ =>
      return (worth earlier.priorFills + exitQuantity * price) / (total earlier.priorFills + exitQuantity)
  | none, some stop =>
      if 0 < stopFilled then
        warn (.stopFilledPart (stopId.getD "") stopFilled trade.quantity exitQuantity)
        return (stopFilled * stop.priceOr trade.stopLoss + (trade.quantity - stopFilled) * price)
          / trade.quantity
      else return price
  | none, none => return price

/-- The exit as it was last read: booked, or left open (`position_monitor.py:888-952`). -/
def bookExit (earlier : Earlier) (cancelled : Bool) (stopFilled : ℚ) (after : Option Order)
    (exitId : String) (exitQuantity price : ℚ) (final : Option Order) : Exit (Option ℚ) := do
  let trade := (← get).trade
  let working := final.any fun o => !o.fullyFilled exitQuantity && !o.isDead
  let short := final.any fun o => o.isDead && o.filled < exitQuantity - 1 / 1000000000
  if working then
    wait (.exitWorking exitId (final.elim "" Order.status) (final.elim 0 Order.filled) exitQuantity)
    return none
  else if short then
    warn (.exitEnded exitId (final.elim "" Order.status) (final.elim 0 Order.filled) exitQuantity)
    return none
  else
    match trade.slOrderId, cancelled && settings.partialAware with
    | some stopId, true =>
        match ← settleStop world request stopId exitId exitQuantity stopFilled after with
        | (_, _, some price) => return some price
        | (stopFilled, after, none) =>
            return some (← blend earlier trade.slOrderId stopFilled after exitQuantity price)
    | _, _ => return some (← blend earlier trade.slOrderId stopFilled after exitQuantity price)

/-- The broker took the exit, or did not: its fill is read and booked. -/
def awaitExit (earlier : Earlier) (cancelled : Bool) (stopFilled : ℚ) (after : Option Order)
    (exitQuantity : ℚ) : Option String → Exit (Option ℚ)
  | none => return none
  | some exitId => do
      setOutcome fun o => { o with brokerExitOrderId := some exitId }
      sent exitId earlier.priorFills
      let (price, final) ← exitFill world exitId exitQuantity request.exitPrice (fillPollAttempts - 1)
      bookExit world settings request earlier cancelled stopFilled after exitId exitQuantity price final

/-- What the stop had filled of a position that no earlier exit part-filled. -/
def stopFill (trade : Trade) (earlier : Earlier) (after : Option Order) : ℚ :=
  match earlier.remainder, after with
  | none, some stop => if settings.partialAware then min stop.filled trade.quantity else 0
  | _, _ => 0

/-- What is left to exit is sent and booked (`position_monitor.py:824-952`). -/
def exitRest (earlier : Earlier) (after : Option Order) (cancelled : Bool) : Exit (Option ℚ) := do
  let trade := (← get).trade
  let stopFilled := stopFill settings trade earlier after
  match after.filter fun _ => earlier.remainder = none ∧ settings.partialAware ∧ trade.quantity ≤ stopFilled with
  | some stop => return some (← stopAlreadyFilled request stop)
  | none =>
      let exitQuantity := earlier.remainder.getD (trade.quantity - stopFilled)
      let tag := request.exitTag trade.exitSentAt
      setOutcome fun o => { o with exitTag := some tag }
      let exitId ← sendExit world request exitQuantity tag trade.exitSentAt settings.exitRejectRetries.toNat
      awaitExit world settings request earlier cancelled stopFilled after exitQuantity exitId

/-- A claimed exit, up to the release of its claim. -/
def exitClaimed (earlier : Earlier) (stopDead : Bool) : Exit (Option ℚ) := do
  let trade := (← get).trade
  match trade.slOrderId with
  | none => exitRest world settings request earlier none false
  | some stopId =>
      match ← clearStop world settings request stopDead earlier stopId with
      | .filled price => return some price
      | .blocked => return none
      | .gone after cancelled => exitRest world settings request earlier after cancelled

/-- The exit is claimed, sent and booked; a claim nothing came of is released. -/
def claimAndExit (earlier : Earlier) (stopDead : Bool) : Exit (Option ℚ) := do
  if ← claim world then
    let price ← exitClaimed world settings request earlier stopDead
    release
    return price
  else
    wait .claimedFirst
    return none

/-- `_square_off_live`. -/
def squareOffLive : Exit (Option ℚ) := do
  match (← get).trade.exitOrderId with
  | some earlierId =>
      let earlier ← judgeEarlier world settings request earlierId
      if earlier.proceed then claimAndExit world settings request earlier true
      else return earlier.price
  | none =>
      if request.resumeOnly then return none
      else claimAndExit world settings request { proceed := true } request.stopDead

end SquareOff

/-- A close before its first call, with the row as it was loaded. -/
def Trade.desk (trade : Trade) : Desk where
  trade := trade
  previousId := trade.exitOrderId
  previousSent := trade.exitSentAt

end AdvanceTrading.LiveExit
