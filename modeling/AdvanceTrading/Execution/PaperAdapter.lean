import AdvanceTrading.Misc.Machine
import AdvanceTrading.Misc.PyText
import Mathlib.Algebra.BigOperators.Group.List.Basic
import Mathlib.Logic.Function.Basic

/-!
# The paper exchange

Model of `app/execution/paper_adapter.py` (orders, fills and the resting list)
with `paper_fill` (`app/paper/fno_ticket.py:183-204`) and `to_venue_order`
(`app/execution/marketable_limit.py:66-94`). Charges, tags and clock readings
decide nothing here and are left out.

What the venue does not decide itself comes with each operation: the price the
lookup answers, the quantity the liquidity hook answers for an order, and the
order the durable `book` answers for a reference (none, also without a book).
-/

variable {ref note symbol : String} {ltp price fill : ℚ}

namespace AdvanceTrading.PaperAdapter

/-- `OrderSide`. -/
inductive Side where
  | buy
  | sell
  deriving DecidableEq, Repr

/-- What `(order_type or "MARKET").upper()` is compared with. -/
inductive OrderKind where
  | market
  | limit
  | stopLimit
  | stopMarket
  | other
  deriving DecidableEq, Repr

/-- The kind of an order type text; `SL` is the stop-limit, `SL-M` the stop-market. -/
def orderKind (orderType : String) : OrderKind :=
  let text := Py.upper (if orderType = "" then "MARKET" else orderType)
  if text = "MARKET" then .market
  else if text = "LIMIT" then .limit
  else if text = "SL" then .stopLimit
  else if text = "SL-M" then .stopMarket
  else .other

/-- The fields of `BrokerOrderRequest` the venue reads (`app/brokers/models.py:130-152`). -/
structure OrderRequest where
  symbol : String
  exchange : String
  side : Side
  quantity : ℚ
  orderType : String
  price : Option ℚ
  triggerPrice : Option ℚ
  clientRef : Option String
  protectionPct : Option ℚ
  deriving DecidableEq, Repr

/-- OPEN, COMPLETE, REJECTED, CANCELLED. -/
inductive OrderState where
  | open
  | complete
  | rejected
  | cancelled
  deriving DecidableEq, Repr

/-- `TERMINAL`. -/
def OrderState.isTerminal : OrderState → Bool
  | .open => false
  | .complete | .rejected | .cancelled => true

/-- `status.lower()`. -/
def OrderState.lower : OrderState → String
  | .open => "open"
  | .complete => "complete"
  | .rejected => "rejected"
  | .cancelled => "cancelled"

/-- An order id: `PAPER-n`, or another text, as the durable book's orders have. -/
inductive OrderId where
  | paper (n : Nat)
  | booked (text : String)
  deriving DecidableEq, Repr

/-- A row of the order book (`BrokerOrderStatus`). -/
structure OrderStatus where
  symbol : String
  side : Side
  quantity : ℚ
  filledQuantity : ℚ
  orderType : String
  status : OrderState
  price : Option ℚ
  averagePrice : Option ℚ
  deriving DecidableEq, Repr

/-- A row of the trade book (`BrokerTradeEntry`), with the request as it stood
when it filled: the entry itself keeps no limit price. -/
structure TradeEntry where
  tradeId : Nat
  orderId : OrderId
  symbol : String
  side : Side
  quantity : ℚ
  price : ℚ
  request : OrderRequest
  deriving DecidableEq, Repr

/-- `BrokerOrderResponse.raw`. -/
inductive Raw where
  | none
  | duplicate
  | resting
  | fill (averagePrice filledQuantity : ℚ)
  deriving DecidableEq, Repr

/-- `BrokerOrderResponse`. -/
structure OrderResponse where
  orderId : OrderId
  status : OrderState
  message : String
  raw : Raw := .none
  deriving DecidableEq, Repr

/-- How an adapter is built: does it keep waiting orders, does the venue it
practises for take market orders (`none`: no venue), the slippage of its
`PaperBroker`, and how prices are written in messages. -/
structure Config where
  keepResting : Bool
  marketOrdersAllowed : Option Bool
  slip : Side → ℚ → ℚ
  money : ℚ → String

/-- `self.liquidity(order)` for the order with that id; `none` without the hook. -/
abbrev Liquidity := Option (OrderId → ℚ)

/-- The adapter's dictionaries and lists. `waited` are the orders answered as
resting; nothing reads it. -/
structure Exchange where
  marks : String × String → Option ℚ
  orders : OrderId → Option OrderStatus
  requests : OrderId → Option OrderRequest
  byRef : String → Option OrderId
  trades : List TradeEntry
  resting : List OrderId
  nextOrder : Nat
  nextTrade : Nat
  waited : List OrderId

/-- A new adapter. -/
def Exchange.start : Exchange where
  marks _ := none
  orders _ := none
  requests _ := none
  byRef _ := none
  trades := []
  resting := []
  nextOrder := 1
  nextTrade := 1
  waited := []

/-! ## Prices -/

/-- `mark`. -/
def mark (s : Exchange) (symbol : String) (price : ℚ) (exchange : String) : Exchange :=
  let named := Function.update s.marks (Py.upper exchange, Py.upper symbol) (some price)
  { s with marks := Function.update named ("", Py.upper symbol) (some price) }

/-- `_price`: the mark, else a positive answer of the lookup. -/
def priceOf (s : Exchange) (symbol exchange : String) (quote : Option ℚ) : Option ℚ :=
  match s.marks (Py.upper exchange, Py.upper symbol) with
  | some price => some price
  | none =>
      match s.marks ("", Py.upper symbol) with
      | some price => some price
      | none => quote.filter fun value => 0 < value

/-- `DEFAULT_TICK` and `DEFAULT_PROTECTION_PCT`. -/
def defaultTick : ℚ := 5 / 100

/-- `DEFAULT_PROTECTION_PCT`. -/
def defaultProtectionPct : ℚ := 5 / 10

/-- `band_pct`. -/
def bandPct (order : OrderRequest) : ℚ :=
  match order.protectionPct with
  | some pct => if 0 < pct then pct else defaultProtectionPct
  | none => defaultProtectionPct

/-- `marketable_limit_price` at the default tick; `none` where it raises. -/
def marketableLimitPrice (reference : ℚ) (side : Side) (protectionPct : ℚ) : Option ℚ :=
  if reference ≤ 0 then none
  else
    let band := max 0 protectionPct / 100
    let steps : ℤ :=
      match side with
      | .buy => ⌈Py.roundTo 6 (reference * (1 + band) / defaultTick)⌉
      | .sell => ⌊Py.roundTo 6 (reference * (1 - band) / defaultTick)⌋
    some (Py.round2 (max defaultTick (steps * defaultTick)))

/-- `to_venue_order`; `none` where it raises `ValueError`. -/
def toVenueOrder (marketOrdersAllowed : Bool) (order : OrderRequest) (reference : ℚ) :
    Option OrderRequest :=
  if orderKind order.orderType = .market ∧ marketOrdersAllowed = false then
    (marketableLimitPrice reference order.side (bandPct order)).map fun limit =>
      { order with orderType := "LIMIT", price := some limit }
  else some order

/-! ## Fills -/

/-- The price is at or inside a limit: `ltp <= price` for a buy. -/
def inside (side : Side) (ltp limit : ℚ) : Bool :=
  match side with
  | .buy => ltp ≤ limit
  | .sell => limit ≤ ltp

/-- The price is at or past a trigger. -/
def triggered (side : Side) (ltp trigger : ℚ) : Bool :=
  match side with
  | .buy => trigger ≤ ltp
  | .sell => ltp ≤ trigger

/-- `paper_fill` (`fno_ticket.py:183-204`); its caller has checked that a limit
has its price and a stop its trigger. -/
def paperFill (money : ℚ → String) (kind : OrderKind) (side : Side) (ltp price trigger : ℚ) :
    Option ℚ × String :=
  match kind with
  | .market | .other => (some ltp, s!"Fills at the live price {money ltp}")
  | .limit =>
      if inside side ltp price then
        (some ltp, s!"Your limit {money price} is reached now: fills at {money ltp}")
      else
        (none,
          s!"The price ({money ltp}) has not reached your limit {money price}. " ++
            "Practice mode fills an order only when the price reaches it now; it does not keep a waiting order yet.")
  | .stopLimit =>
      if !triggered side ltp trigger then
        (none,
          s!"The price ({money ltp}) has not reached your trigger {money trigger}. " ++
            "Practice mode does not keep a waiting stop order yet.")
      else if !inside side ltp price then
        (none, s!"Triggered, but the price ({money ltp}) is past your limit {money price}: it would not fill now.")
      else (some ltp, s!"Triggered at {money trigger}: fills at {money ltp}")
  | .stopMarket =>
      if !triggered side ltp trigger then
        (none,
          s!"The price ({money ltp}) has not reached your trigger {money trigger}. " ++
            "Practice mode does not keep a waiting stop order yet.")
      else (some ltp, s!"Triggered at {money trigger}: fills at {money ltp}")

/-- `order_type in ("LIMIT", "SL")`. -/
def OrderKind.hasLimit : OrderKind → Bool
  | .limit | .stopLimit => true
  | _ => false

/-- `order_type in ("SL", "SL-M")`. -/
def OrderKind.hasTrigger : OrderKind → Bool
  | .stopLimit | .stopMarket => true
  | _ => false

/-- A limit is a limit: the slippage never fills past it. -/
def capAtLimit (side : Side) (fill limit : ℚ) : ℚ :=
  match side with
  | .buy => min fill limit
  | .sell => max fill limit

/-- `_fill_price` (`paper_adapter.py:148-166`). -/
def fillPrice (cfg : Config) (order : OrderRequest) (ltp : ℚ) : Option ℚ × String :=
  let kind := orderKind order.orderType
  if kind.hasLimit && order.price == none then (none, "A limit order needs a limit price")
  else if kind.hasTrigger && order.triggerPrice == none then (none, "A stop order needs a trigger price")
  else
    match paperFill cfg.money kind order.side ltp (Py.orZero order.price) (Py.orZero order.triggerPrice) with
    | (none, note) => (none, note)
    | (some filledAt, note) =>
        let fill := cfg.slip order.side filledAt
        match order.price with
        | some limit => (some (if kind.hasLimit then capAtLimit order.side fill limit else fill), note)
        | none => (some fill, note)

/-- `_status`. -/
def statusRow (order : OrderRequest) (status : OrderState) (filled : ℚ) (average : Option ℚ) :
    OrderStatus where
  symbol := order.symbol
  side := order.side
  quantity := order.quantity
  filledQuantity := filled
  orderType := order.orderType
  status := status
  price := order.price
  averagePrice := average

/-- The quantity that fills now. -/
def fillable (liquidity : Liquidity) (id : OrderId) (order : OrderRequest) : ℚ :=
  match liquidity with
  | none => order.quantity
  | some answer => max 0 (min order.quantity (answer id))

/-- `_record_fill`, without the charges. -/
def recordFill (s : Exchange) (id : OrderId) (order : OrderRequest) (price quantity : ℚ) : Exchange :=
  { s with
    trades := s.trades ++ [⟨s.nextTrade, id, order.symbol, order.side, quantity, price, order⟩]
    nextTrade := s.nextTrade + 1 }

/-- Write a row of the order book. -/
def setOrder (s : Exchange) (id : OrderId) (row : OrderStatus) : Exchange :=
  { s with orders := Function.update s.orders id (some row) }

/-- Write a request. -/
def setRequest (s : Exchange) (id : OrderId) (order : OrderRequest) : Exchange :=
  { s with requests := Function.update s.requests id (some order) }

/-- `_fill_now` (`paper_adapter.py:226-235`). -/
def fillNow (s : Exchange) (id : OrderId) (order : OrderRequest) (fill : ℚ) (note : String)
    (liquidity : Liquidity) : OrderResponse × Exchange :=
  let quantity := fillable liquidity id order
  if quantity ≤ 0 then
    (⟨id, .open, "Waiting for a fill", .none⟩, setOrder s id (statusRow order .open 0 none))
  else
    let status := if order.quantity ≤ quantity then OrderState.complete else .open
    (⟨id, status, note, .fill fill quantity⟩,
      setOrder (recordFill s id order fill quantity) id (statusRow order status quantity (some fill)))

/-- `_can_rest`. -/
def canRest (order : OrderRequest) : Bool :=
  match orderKind order.orderType with
  | .limit => order.price != none
  | .stopLimit => order.price != none && order.triggerPrice != none
  | .stopMarket => order.triggerPrice != none
  | .market | .other => false

/-! ## The operations -/

/-- The client reference, where it is one. -/
def refOf (order : OrderRequest) : Option String := order.clientRef.filter (· != "")

/-- The answer for an order that is placed with a used reference; `none` where
its first order never reached the order book (`KeyError`). -/
def duplicateOf (s : Exchange) (ref : String) : Option (Option OrderResponse) :=
  (s.byRef ref).map fun id => (s.orders id).map fun first =>
    ⟨id, first.status, "Already placed (same reference)", .duplicate⟩

/-- A new order id with its request and its reference. -/
def register (s : Exchange) (order : OrderRequest) : Exchange :=
  let s := setRequest s (.paper s.nextOrder) order
  { s with
    nextOrder := s.nextOrder + 1
    byRef :=
      match refOf order with
      | some ref => Function.update s.byRef ref (some (.paper s.nextOrder))
      | none => s.byRef }

/-- Refuse an order. -/
def refuse (s : Exchange) (id : OrderId) (order : OrderRequest) (message : String) :
    Option OrderResponse × Exchange :=
  (some ⟨id, .rejected, message, .none⟩, setOrder s id (statusRow order .rejected 0 none))

/-- The part of `place_order` after the price is read and the venue's order is built. -/
def placeAt (cfg : Config) (s : Exchange) (id : OrderId) (order : OrderRequest) (ltp : ℚ)
    (liquidity : Liquidity) : Option OrderResponse × Exchange :=
  match fillPrice cfg order ltp with
  | (some fill, note) =>
      let (response, s) := fillNow s id order fill note liquidity
      (some response, s)
  | (none, note) =>
      if cfg.keepResting && canRest order then
        (some ⟨id, .open, "Waiting for your price: it fills when the price reaches it", .resting⟩,
          { setOrder s id (statusRow order .open 0 none) with
            resting := s.resting ++ [id]
            waited := s.waited ++ [id] })
      else refuse s id order note

/-- `place_order` (`paper_adapter.py:189-224`) with a reference that no book has. -/
def placeNew (cfg : Config) (s : Exchange) (order : OrderRequest) (quote : Option ℚ)
    (liquidity : Liquidity) : Option OrderResponse × Exchange :=
  let id := OrderId.paper s.nextOrder
  let s := register s order
  if order.quantity ≤ 0 then refuse s id order "The quantity must be above zero"
  else
    match priceOf s order.symbol order.exchange quote with
    | none =>
        refuse s id order
          s!"No live price for {order.symbol}: practice mode fills only at a price it can read - nothing was placed"
    | some ltp =>
        match cfg.marketOrdersAllowed with
        | none => placeAt cfg s id order ltp liquidity
        | some allowed =>
            match toVenueOrder allowed order ltp with
            -- `ValueError`: the request and the reference stay, no order row is written
            | none => (none, s)
            | some venueOrder => placeAt cfg (setRequest s id venueOrder) id venueOrder ltp liquidity

/-- An order of the durable book, with its id. -/
abbrev BookedOrder := OrderId × OrderStatus

/-- `find_order_by_client_id` (`paper_adapter.py:175-187`): its own order, else what the durable
book answers, which it keeps. -/
def findOrderByClientId (s : Exchange) (ref : String) (book : Option BookedOrder) :
    Option OrderStatus × Exchange :=
  match s.byRef ref, book with
  | some id, _ => (s.orders id, s)
  | none, none => (none, s)
  | none, some (id, row) =>
      (some row, { setOrder s id row with byRef := Function.update s.byRef ref (some id) })

/-- The lookup `place_order` makes first (`paper_adapter.py:190-191`). -/
def lookUp (s : Exchange) (order : OrderRequest) (book : Option BookedOrder) : Exchange :=
  match refOf order with
  | some ref => (findOrderByClientId s ref book).2
  | none => s

/-- `place_order` (`paper_adapter.py:189-224`); `none` where it raises. -/
def placeOrder (cfg : Config) (s : Exchange) (order : OrderRequest) (quote : Option ℚ)
    (liquidity : Liquidity) (book : Option BookedOrder) : Option OrderResponse × Exchange :=
  let s := lookUp s order book
  match (refOf order).bind (duplicateOf s) with
  | some answer => (answer, s)
  | none => placeNew cfg s order quote liquidity

/-- The request of a resting order that the price of its symbol reaches. -/
def reached (cfg : Config) (s : Exchange) (symbol : String) (price : ℚ) (id : OrderId) :
    Option (OrderRequest × ℚ × String) :=
  match s.requests id with
  | none => none
  | some order =>
      if Py.upper order.symbol = Py.upper symbol then
        match fillPrice cfg order price with
        | (some fill, note) => some (order, fill, note)
        | (none, _) => none
      else none

/-- The loop of `on_price` over the resting orders it started with. -/
def onPriceLoop (cfg : Config) (symbol : String) (price : ℚ) (liquidity : Liquidity) :
    List OrderId → Exchange → List OrderResponse × Exchange
  | [], s => ([], s)
  | id :: ids, s =>
      match reached cfg s symbol price id with
      | none => onPriceLoop cfg symbol price liquidity ids s
      | some (order, fill, note) =>
          let (response, s) := fillNow { s with resting := s.resting.erase id } id order fill note liquidity
          let (responses, s) := onPriceLoop cfg symbol price liquidity ids s
          (response :: responses, s)

/-- `on_price` (`paper_adapter.py:247-261`). -/
def onPrice (cfg : Config) (s : Exchange) (symbol : String) (price : ℚ) (exchange : String)
    (liquidity : Liquidity) : List OrderResponse × Exchange :=
  let s := mark s symbol price exchange
  onPriceLoop cfg symbol price liquidity s.resting s

/-- The arguments of `modify_order` that are given. -/
structure Change where
  quantity : Option ℚ := none
  price : Option ℚ := none
  triggerPrice : Option ℚ := none
  orderType : Option String := none
  deriving DecidableEq, Repr

/-- `model_copy(update=...)` with the arguments that are given. -/
def Change.apply (change : Change) (order : OrderRequest) : OrderRequest :=
  { order with
    quantity := change.quantity.getD order.quantity
    price := change.price.orElse fun _ => order.price
    triggerPrice := change.triggerPrice.orElse fun _ => order.triggerPrice
    orderType := change.orderType.getD order.orderType }

/-- `modify_order` (`paper_adapter.py:282-294`); `none` where it raises. -/
def modifyOrder (s : Exchange) (id : OrderId) (change : Change) : Option OrderResponse × Exchange :=
  match s.orders id with
  | none => (some ⟨id, .rejected, "No such practice order", .none⟩, s)
  | some current =>
      if current.status.isTerminal then
        (some ⟨id, current.status, s!"The order is already {current.status.lower}", .none⟩, s)
      else
        match s.requests id with
        | none => (none, s)
        | some request =>
            let order := change.apply request
            (some ⟨id, current.status, "Modified", .none⟩,
              setOrder (setRequest s id order) id
                { current with quantity := order.quantity, price := order.price,
                               orderType := order.orderType })

/-- `cancel_order` (`paper_adapter.py:296-304`). -/
def cancelOrder (s : Exchange) (id : OrderId) : OrderResponse × Exchange :=
  match s.orders id with
  | none => (⟨id, .rejected, "No such practice order", .none⟩, s)
  | some current =>
      if current.status.isTerminal then
        (⟨id, current.status, s!"The order is already {current.status.lower}", .none⟩, s)
      else
        (⟨id, .cancelled, "Cancelled", .none⟩,
          { setOrder s id { current with status := .cancelled } with resting := s.resting.erase id })

/-- A call on the adapter with what the venue is answered during it. -/
inductive Call where
  | place (order : OrderRequest) (quote : Option ℚ) (liquidity : Liquidity)
      (book : Option BookedOrder)
  | onPrice (symbol : String) (price : ℚ) (exchange : String) (liquidity : Liquidity)
  | modify (id : OrderId) (change : Change)
  | cancel (id : OrderId)
  | mark (symbol : String) (price : ℚ) (exchange : String)

/-- The state after a call. -/
def afterCall (cfg : Config) (s : Exchange) : Call → Exchange
  | .place order quote liquidity book => (placeOrder cfg s order quote liquidity book).2
  | .onPrice symbol price exchange liquidity => (onPrice cfg s symbol price exchange liquidity).2
  | .modify id change => (modifyOrder s id change).2
  | .cancel id => (cancelOrder s id).2
  | .mark symbol price exchange => mark s symbol price exchange

/-- Any sequence of calls on one adapter. -/
def exchange (cfg : Config) : Machine Exchange Call where
  step s call := some (afterCall cfg s call)

/-! ## What holds of the book -/

/-- The quantity the trade book has for an order. -/
def traded (s : Exchange) (id : OrderId) : ℚ :=
  ((s.trades.filter fun t => t.orderId = id).map (·.quantity)).sum

/-- A fill of a LIMIT or SL order is at its limit price or better. -/
def RespectsLimit (t : TradeEntry) : Prop :=
  ∀ limit, (orderKind t.request.orderType).hasLimit = true → t.request.price = some limit →
    inside t.request.side t.price limit = true

/-- An adapter that counts on from `next` has not given the id yet to come. -/
def OrderId.Before (next : Nat) : OrderId → Prop
  | .paper n => n < next
  | .booked _ => True

variable {id : OrderId}

theorem OrderId.Before.succ {next : Nat} (before : id.Before next) : id.Before (next + 1) := by
  cases id with
  | paper n => exact Nat.lt_succ_of_lt before
  | booked text => trivial

instance (next : Nat) : ∀ id : OrderId, Decidable (id.Before next)
  | .paper n => inferInstanceAs (Decidable (n < next))
  | .booked _ => inferInstanceAs (Decidable True)

/-- The invariant of the dictionaries. An order in `pending` is being filled or
rewritten: its row and its place in the resting list are not settled yet. -/
structure Coherent (pending : List OrderId) (s : Exchange) : Prop where
  known : ∀ id row, s.orders id = some row → id.Before s.nextOrder ∧
    (id ∉ pending → ∀ order, s.requests id = some order → order.quantity = row.quantity)
  filled : ∀ id row, s.orders id = some row → 0 ≤ row.filledQuantity ∧
    row.filledQuantity ≤ row.quantity ∧ (id ∉ pending → row.filledQuantity = traded s id)
  tradesKnown : ∀ t ∈ s.trades, t.orderId.Before s.nextOrder
  limits : ∀ t ∈ s.trades, RespectsLimit t
  restingOpen : ∀ id ∈ s.resting, ∃ row, s.orders id = some row ∧ row.status = .open ∧
    row.filledQuantity = 0
  restingOnce : s.resting.Nodup
  waitedKnown : ∀ id ∈ s.waited, id.Before s.nextOrder
  waiting : ∀ id ∈ s.waited, id ∉ pending → ∀ row, s.orders id = some row → row.status = .open →
    row.filledQuantity = 0 → id ∈ s.resting

theorem coherent_start : Coherent [] Exchange.start where
  known id row present := by cases present
  filled id row present := by cases present
  tradesKnown t member := by cases member
  limits t member := by cases member
  restingOpen id member := by cases member
  restingOnce := List.nodup_nil
  waitedKnown id member := by cases member
  waiting id member := by cases member

variable {s : Exchange}

theorem Coherent.pend (coherent : Coherent [] s) (id : OrderId) : Coherent [id] s :=
  { coherent with
    known := by
      intro j row present
      obtain ⟨below, request⟩ := coherent.known j row present
      exact ⟨below, fun _ => request List.not_mem_nil⟩
    filled := by
      intro j row present
      obtain ⟨positive, bounded, booked⟩ := coherent.filled j row present
      exact ⟨positive, bounded, fun _ => booked List.not_mem_nil⟩
    waiting := by
      intro j member _
      exact coherent.waiting j member List.not_mem_nil }

theorem traded_recordFill (s : Exchange) (id j : OrderId) (order : OrderRequest) (price quantity : ℚ) :
    traded (recordFill s id order price quantity) j = traded s j + if j = id then quantity else 0 := by
  unfold traded recordFill
  rw [List.filter_append, List.map_append, List.sum_append]
  by_cases same : j = id
  · simp [same]
  · simp [same, Ne.symm same]

/-- An order id that is not given out yet has no row and no trade. -/
theorem Coherent.unused {pending : List OrderId} (coherent : Coherent pending s) :
    s.orders (.paper s.nextOrder) = none ∧ traded s (.paper s.nextOrder) = 0 := by
  constructor
  · cases row : s.orders (.paper s.nextOrder) with
    | none => rfl
    | some row' => exact absurd (coherent.known _ _ row).1 (Nat.lt_irrefl _)
  · have none_ : s.trades.filter (fun t => t.orderId = .paper s.nextOrder) = [] := by
      rw [List.filter_eq_nil_iff]
      intro t member same
      have before := coherent.tradesKnown t member
      rw [of_decide_eq_true same] at before
      exact Nat.lt_irrefl _ before
    unfold traded
    rw [none_]
    rfl

theorem Coherent.setRequest (coherent : Coherent [id] s) (order : OrderRequest) :
    Coherent [id] (setRequest s id order) :=
  { coherent with
    known := by
      intro j row present
      obtain ⟨below, request⟩ := coherent.known j row present
      refine ⟨below, fun settled => ?_⟩
      have other : j ≠ id := fun same => settled (List.mem_singleton.mpr same)
      simpa only [PaperAdapter.setRequest, Function.update_of_ne other] using request settled }

/-- A row that an order may have in these dictionaries. -/
structure Fits (s : Exchange) (id : OrderId) (row : OrderStatus) : Prop where
  below : id.Before s.nextOrder
  requested : ∀ order ∈ s.requests id, order.quantity = row.quantity
  positive : 0 ≤ row.filledQuantity
  bounded : row.filledQuantity ≤ row.quantity
  booked : row.filledQuantity = traded s id
  rests : id ∈ s.resting → row.status = .open ∧ row.filledQuantity = 0
  waits : id ∈ s.waited → row.status = .open → row.filledQuantity = 0 → id ∈ s.resting

/-- Writing a row that fits settles the pending order. -/
theorem Coherent.setOrder (coherent : Coherent [id] s) {row : OrderStatus} (fits : Fits s id row) :
    Coherent [] (setOrder s id row) where
  known := by
    intro j found present
    by_cases same : j = id
    · subst same
      simp only [PaperAdapter.setOrder, Function.update_self, Option.some.injEq] at present
      subst present
      exact ⟨fits.below, fun _ => fits.requested⟩
    · simp only [PaperAdapter.setOrder, Function.update_of_ne same] at present
      obtain ⟨below', request⟩ := coherent.known j found present
      exact ⟨below', fun _ => request (by simpa using same)⟩
  filled := by
    intro j found present
    by_cases same : j = id
    · subst same
      simp only [PaperAdapter.setOrder, Function.update_self, Option.some.injEq] at present
      subst present
      exact ⟨fits.positive, fits.bounded, fun _ => fits.booked⟩
    · simp only [PaperAdapter.setOrder, Function.update_of_ne same] at present
      obtain ⟨positive', bounded', booked'⟩ := coherent.filled j found present
      exact ⟨positive', bounded', fun _ => booked' (by simpa using same)⟩
  tradesKnown := coherent.tradesKnown
  limits := coherent.limits
  restingOpen := by
    intro j member
    by_cases same : j = id
    · subst same
      exact ⟨row, by simp [PaperAdapter.setOrder], fits.rests member⟩
    · obtain ⟨found, present, settled⟩ := coherent.restingOpen j member
      exact ⟨found, by simpa [PaperAdapter.setOrder, Function.update_of_ne same] using present, settled⟩
  restingOnce := coherent.restingOnce
  waitedKnown := coherent.waitedKnown
  waiting := by
    intro j member _ found present
    by_cases same : j = id
    · subst same
      simp only [PaperAdapter.setOrder, Function.update_self, Option.some.injEq] at present
      subst present
      exact fits.waits member
    · simp only [PaperAdapter.setOrder, Function.update_of_ne same] at present
      exact coherent.waiting j member (by simpa using same) found present

/-- A trade of the pending order, at a price its limit allows. -/
theorem Coherent.recordFill {s : Exchange} {id : OrderId} (coherent : Coherent [id] s)
    {order : OrderRequest} {price quantity : ℚ} (below : id.Before s.nextOrder)
    (respects : ∀ limit, (orderKind order.orderType).hasLimit = true → order.price = some limit →
      inside order.side price limit = true) :
    Coherent [id] (recordFill s id order price quantity) :=
  { coherent with
    filled := by
      intro j row present
      obtain ⟨positive, bounded, booked⟩ := coherent.filled j row present
      refine ⟨positive, bounded, fun settled => ?_⟩
      have other : j ≠ id := fun same => settled (List.mem_singleton.mpr same)
      rw [traded_recordFill, if_neg other, add_zero]
      exact booked settled
    tradesKnown := by
      intro t member
      rcases List.mem_append.mp member with old | new
      · exact coherent.tradesKnown t old
      · rw [List.mem_singleton.mp new]
        exact below
    limits := by
      intro t member
      rcases List.mem_append.mp member with old | new
      · exact coherent.limits t old
      · rw [List.mem_singleton.mp new]
        exact respects }

variable {order : OrderRequest} {cfg : Config}

/-- A fill price is never past the limit, whatever the slippage. -/
theorem fillPrice_inside (fills : fillPrice cfg order ltp = (some fill, note)) :
    ∀ limit, (orderKind order.orderType).hasLimit = true → order.price = some limit →
      inside order.side fill limit = true := by
  intro limit limited priced
  unfold fillPrice at fills
  simp only [priced, limited] at fills
  split_ifs at fills with noPrice noTrigger
  · cases noPrice
  · cases fills
  · split at fills
    · cases fills
    · simp only [Prod.mk.injEq, Option.some.injEq] at fills
      rw [← fills.1]
      cases order.side <;> simp [capAtLimit, inside]

variable {liquidity : Liquidity}

theorem fillable_le (positive : 0 < fillable liquidity id order) :
    fillable liquidity id order ≤ order.quantity := by
  cases liquidity with
  | none => exact le_refl _
  | some answer =>
    simp only [fillable] at positive ⊢
    rcases max_cases 0 (min order.quantity (answer id)) with ⟨zero, _⟩ | ⟨bounded, _⟩
    · rw [zero] at positive
      exact absurd positive (lt_irrefl _)
    · rw [bounded]
      exact min_le_left _ _

/-- Filling the pending order settles it, unless it waited and nothing fills. -/
theorem fillNow_coherent (coherent : Coherent [id] s) (below : id.Before s.nextOrder)
    (requested : s.requests id = some order) (fills : fillPrice cfg order ltp = (some fill, note))
    (unfilled : traded s id = 0) (taken : id ∉ s.resting) (worth : 0 ≤ order.quantity)
    (liquid : id ∈ s.waited → 0 < fillable liquidity id order) :
    Coherent [] (fillNow s id order fill note liquidity).2 := by
  have own : ∀ asked ∈ s.requests id, asked.quantity = order.quantity := by
    intro asked read
    rw [requested] at read
    cases read
    rfl
  by_cases nothing : fillable liquidity id order ≤ 0
  · simp only [fillNow, nothing, if_true]
    exact coherent.setOrder
      { below, requested := own, positive := le_refl _, bounded := worth, booked := unfilled.symm
        rests := fun rests => absurd rests taken
        waits := fun waited => absurd (liquid waited) (not_lt.mpr nothing) }
  · have positive : 0 < fillable liquidity id order := not_le.mp nothing
    have filling := @Coherent.recordFill s id coherent order fill (fillable liquidity id order) below
      (fillPrice_inside fills)
    have booked : fillable liquidity id order =
        traded (recordFill s id order fill (fillable liquidity id order)) id := by
      rw [traded_recordFill, if_pos rfl, unfilled, zero_add]
    simp only [fillNow, nothing, if_false]
    exact filling.setOrder
      { below, requested := own, positive := positive.le, bounded := fillable_le positive, booked
        rests := fun rests => absurd rests taken
        waits := fun _ _ zero => absurd zero positive.ne' }

/-! ## What each operation keeps -/

theorem mark_coherent {pending : List OrderId} (coherent : Coherent pending s) (symbol : String)
    (price : ℚ) (exchange : String) : Coherent pending (mark s symbol price exchange) :=
  { coherent with }

/-- A new order id is pending until its row is written. -/
theorem register_coherent (coherent : Coherent [] s) (order : OrderRequest) :
    Coherent [.paper s.nextOrder] (register s order) :=
  { (coherent.pend (.paper s.nextOrder)).setRequest order with
    known := by
      intro j row present
      have known := ((coherent.pend (.paper s.nextOrder)).setRequest order).known j row present
      exact ⟨known.1.succ, known.2⟩
    tradesKnown := by
      intro t member
      exact (coherent.tradesKnown t member).succ
    waitedKnown := by
      intro j member
      exact (coherent.waitedKnown j member).succ }

/-- A pending order that nothing is known of but its request: what `place_order`
has when it decides. -/
structure Placing (s : Exchange) (id : OrderId) (order : OrderRequest) : Prop where
  coherent : Coherent [id] s
  below : id.Before s.nextOrder
  requested : s.requests id = some order
  absent : s.orders id = none
  unfilled : traded s id = 0
  unwaited : id ∉ s.waited

section

variable (placing : Placing s id order)
include placing

theorem Placing.unrested : id ∉ s.resting := by
  intro rests
  obtain ⟨row, present, _⟩ := placing.coherent.restingOpen id rests
  rw [placing.absent] at present
  cases present

omit placing in
theorem register_placing (coherent : Coherent [] s) (order : OrderRequest) :
    Placing (register s order) (.paper s.nextOrder) order where
  coherent := register_coherent coherent order
  below := Nat.lt_succ_self s.nextOrder
  requested := by simp [register, setRequest]
  absent := coherent.unused.1
  unfilled := coherent.unused.2
  unwaited member := Nat.lt_irrefl _ (coherent.waitedKnown _ member)

theorem Placing.setRequest (venueOrder : OrderRequest) :
    Placing (setRequest s id venueOrder) id venueOrder :=
  { placing with
    coherent := placing.coherent.setRequest venueOrder
    requested := by simp [PaperAdapter.setRequest] }

section

variable (worth : 0 ≤ order.quantity)
include worth

/-- Nothing has filled of an order that is placed. -/
theorem Placing.fits (status : OrderState) : Fits s id (statusRow order status 0 none) where
  below := placing.below
  requested := by
    intro asked read
    rw [placing.requested] at read
    cases read
    rfl
  positive := le_refl _
  bounded := worth
  booked := placing.unfilled.symm
  rests rests := absurd rests placing.unrested
  waits waited := absurd waited placing.unwaited

theorem refuse_coherent (message : String) : Coherent [] (refuse s id order message).2 := by
  exact placing.coherent.setOrder (placing.fits worth .rejected)

/-- An order that starts to wait joins both lists. -/
theorem rest_coherent :
    Coherent [] { setOrder s id (statusRow order .open 0 none) with
      resting := s.resting ++ [id]
      waited := s.waited ++ [id] } := by
  have written := placing.coherent.setOrder (placing.fits worth .open)
  exact { written with
    restingOpen := by
      intro j member
      rcases List.mem_append.mp member with old | new
      · exact written.restingOpen j old
      · rw [List.mem_singleton.mp new]
        exact ⟨statusRow order .open 0 none, by simp [setOrder], rfl, rfl⟩
    restingOnce := by
      refine List.nodup_append.mpr ⟨placing.coherent.restingOnce, by simp, ?_⟩
      intro j old k new same
      rw [same, List.mem_singleton.mp new] at old
      exact placing.unrested old
    waitedKnown := by
      intro j member
      rcases List.mem_append.mp member with old | new
      · exact written.waitedKnown j old
      · rw [List.mem_singleton.mp new]
        exact placing.below
    waiting := by
      intro j member settled row present opened unfilled
      rcases List.mem_append.mp member with old | new
      · exact List.mem_append_left _ (written.waiting j old settled row present opened unfilled)
      · exact List.mem_append_right _ new }

theorem placeAt_coherent (ltp : ℚ) (liquidity : Liquidity) :
    Coherent [] (placeAt cfg s id order ltp liquidity).2 := by
  unfold placeAt
  split
  · rename_i fill note fills
    refine fillNow_coherent placing.coherent placing.below placing.requested fills placing.unfilled
      placing.unrested worth ?_
    intro waited
    exact absurd waited placing.unwaited
  · split_ifs
    · exact rest_coherent placing worth
    · exact refuse_coherent placing worth _

end

end

theorem toVenueOrder_quantity {allowed : Bool} {venueOrder : OrderRequest}
    (built : toVenueOrder allowed order ltp = some venueOrder) :
    venueOrder.quantity = order.quantity := by
  unfold toVenueOrder at built
  split_ifs at built
  · obtain ⟨limit, _, rfl⟩ := Option.map_eq_some_iff.mp built
    rfl
  · cases built
    rfl

/-- An order that was registered and then raised: its reference is taken and no row is written. -/
theorem Placing.settle {s : Exchange} {id : OrderId} {order : OrderRequest}
    (placing : Placing s id order) : Coherent [] s :=
  { placing.coherent with
    known := by
      intro j row present
      obtain ⟨below, request⟩ := placing.coherent.known j row present
      refine ⟨below, fun _ => request ?_⟩
      rintro member
      rw [List.mem_singleton.mp member, placing.absent] at present
      cases present
    filled := by
      intro j row present
      obtain ⟨positive, bounded, booked⟩ := placing.coherent.filled j row present
      refine ⟨positive, bounded, fun _ => booked ?_⟩
      rintro member
      rw [List.mem_singleton.mp member, placing.absent] at present
      cases present
    waiting := by
      intro j waited _ row present
      refine placing.coherent.waiting j waited ?_ row present
      rintro member
      rw [List.mem_singleton.mp member] at waited
      exact placing.unwaited waited }

theorem placeNew_coherent (coherent : Coherent [] s) (worth : 0 ≤ order.quantity) (quote : Option ℚ)
    (liquidity : Liquidity) : Coherent [] (placeNew cfg s order quote liquidity).2 := by
  have placing := register_placing coherent order
  simp only [placeNew]
  split_ifs with nothing
  · exact refuse_coherent placing worth _
  · split
    · exact refuse_coherent placing worth _
    · split
      · exact placeAt_coherent placing worth _ liquidity
      · split
        · exact placing.settle
        · rename_i venueOrder built
          refine placeAt_coherent (placing.setRequest venueOrder) ?_ _ liquidity
          rw [toVenueOrder_quantity built]
          exact worth

/-- An order off the resting list is pending. -/
theorem Coherent.erase (coherent : Coherent [] s) (id : OrderId) :
    Coherent [id] { s with resting := s.resting.erase id } :=
  { coherent.pend id with
    restingOpen := by
      intro j member
      exact coherent.restingOpen j (List.mem_of_mem_erase member)
    restingOnce := coherent.restingOnce.erase id
    waiting := by
      intro j waited settled row present opened unfilled
      have other : j ≠ id := fun same => settled (List.mem_singleton.mpr same)
      exact (List.mem_erase_of_ne other).mpr
        (coherent.waiting j waited List.not_mem_nil row present opened unfilled) }

/-- Taking a reached order off the resting list and filling it. -/
theorem takeUp_coherent (coherent : Coherent [] s) (rests : id ∈ s.resting)
    (reaches : reached cfg s symbol price id = some (order, fill, note))
    (liquid : 0 < fillable liquidity id order) :
    Coherent [] (fillNow { s with resting := s.resting.erase id } id order fill note liquidity).2 := by
  obtain ⟨row, present, _, unfilled⟩ := coherent.restingOpen id rests
  obtain ⟨below, request⟩ := coherent.known id row present
  obtain ⟨positive, bounded, booked⟩ := coherent.filled id row present
  -- `reached` answers with the order's own request and its fill price
  have answer : s.requests id = some order ∧ fillPrice cfg order price = (some fill, note) := by
    unfold reached at reaches
    split at reaches
    · cases reaches
    · rename_i found requested
      split_ifs at reaches
      split at reaches
      · rename_i fill' note' fills
        cases reaches
        exact ⟨requested, fills⟩
      · cases reaches
  obtain ⟨requested, fills⟩ := answer
  refine fillNow_coherent (coherent.erase id) below requested fills ?_
    coherent.restingOnce.not_mem_erase ?_ (fun _ => liquid)
  · exact (booked List.not_mem_nil).symm.trans unfilled
  · rw [request List.not_mem_nil order requested]
    exact positive.trans bounded

theorem reached_congr {t : Exchange} (same : t.requests = s.requests) (symbol : String) (price : ℚ)
    (id : OrderId) : reached cfg t symbol price id = reached cfg s symbol price id := by
  unfold reached
  rw [same]

theorem fillNow_requests (s : Exchange) (id : OrderId) (order : OrderRequest) (fill : ℚ) (note : String)
    (liquidity : Liquidity) : (fillNow s id order fill note liquidity).2.requests = s.requests := by
  simp only [fillNow]
  split_ifs <;> rfl

theorem fillNow_resting (s : Exchange) (id : OrderId) (order : OrderRequest) (fill : ℚ) (note : String)
    (liquidity : Liquidity) : (fillNow s id order fill note liquidity).2.resting = s.resting := by
  simp only [fillNow]
  split_ifs <;> rfl

/-- Every resting order that the price reaches has a quantity that fills. -/
def LiquidOn (cfg : Config) (s : Exchange) (symbol : String) (price : ℚ) (liquidity : Liquidity)
    (ids : List OrderId) : Prop :=
  ∀ id ∈ ids, ∀ found ∈ reached cfg s symbol price id, 0 < fillable liquidity id found.1

section

variable (coherent : Coherent [] s)
include coherent

theorem onPriceLoop_coherent {ids : List OrderId} (once : ids.Nodup)
    (rest : ids ⊆ s.resting) (liquid : LiquidOn cfg s symbol price liquidity ids) :
    Coherent [] (onPriceLoop cfg symbol price liquidity ids s).2 := by
  induction ids generalizing s with
  | nil => exact coherent
  | cons id ids ih =>
    obtain ⟨fresh, onceRest⟩ := List.nodup_cons.mp once
    have idRests : id ∈ s.resting := rest List.mem_cons_self
    cases reaches : reached cfg s symbol price id with
    | none =>
      simp only [onPriceLoop, reaches]
      refine ih coherent onceRest (fun j member => rest (List.mem_cons_of_mem _ member)) ?_
      intro j member
      exact liquid j (List.mem_cons_of_mem _ member)
    | some found =>
      obtain ⟨order, fill, note⟩ := found
      simp only [onPriceLoop, reaches]
      refine ih (takeUp_coherent coherent idRests reaches
        (liquid id List.mem_cons_self _ reaches)) onceRest ?_ ?_
      · intro j member
        rw [fillNow_resting]
        refine (List.mem_erase_of_ne ?_).mpr (rest (List.mem_cons_of_mem _ member))
        rintro rfl
        exact fresh member
      · intro j member found read
        rw [reached_congr (fillNow_requests _ _ _ _ _ _)] at read
        exact liquid j (List.mem_cons_of_mem _ member) found read

theorem cancelOrder_coherent (id : OrderId) : Coherent [] (cancelOrder s id).2 := by
  unfold cancelOrder
  split
  · exact coherent
  · rename_i row present
    split_ifs with ended
    · exact coherent
    obtain ⟨below, request⟩ := coherent.known id row present
    obtain ⟨positive, bounded, booked⟩ := coherent.filled id row present
    have fits : Fits { s with resting := s.resting.erase id } id { row with status := .cancelled } :=
      { below, positive, bounded
        requested := request List.not_mem_nil
        booked := booked List.not_mem_nil
        rests := fun rests => absurd rests coherent.restingOnce.not_mem_erase
        waits := fun _ opened => nomatch opened }
    exact (coherent.erase id).setOrder fits

theorem modifyOrder_coherent (id : OrderId) (change : Change)
    (covers : ∀ row ∈ s.orders id, row.status.isTerminal = false → ∀ quantity ∈ change.quantity,
      row.filledQuantity ≤ quantity) :
    Coherent [] (modifyOrder s id change).2 := by
  unfold modifyOrder
  split
  · exact coherent
  · rename_i row present
    split_ifs with ended
    · exact coherent
    split
    · exact coherent
    · rename_i request read
      obtain ⟨below, requested⟩ := coherent.known id row present
      have quantity := requested List.not_mem_nil request read
      obtain ⟨positive, bounded, booked⟩ := coherent.filled id row present
      have enough : row.filledQuantity ≤ (change.apply request).quantity := by
        simp only [Change.apply]
        cases changed : change.quantity with
        | none =>
          rw [Option.getD_none, quantity]
          exact bounded
        | some q => exact covers row present (by simpa using ended) q changed
      refine ((coherent.pend id).setRequest (change.apply request)).setOrder
        { below, positive
          requested := by simp [setRequest]
          bounded := enough
          booked := booked List.not_mem_nil
          rests := ?_
          waits := fun waited opened unfilled =>
            coherent.waiting id waited List.not_mem_nil row present opened unfilled }
      intro rests
      obtain ⟨row', present', opened, unfilled⟩ := coherent.restingOpen id rests
      rw [present] at present'
      cases present'
      exact ⟨opened, unfilled⟩

/-- Keeping an order of the durable book that fits. -/
theorem lookUp_coherent (order : OrderRequest) {book : Option BookedOrder}
    (fits : ∀ ref ∈ refOf order, s.byRef ref = none → ∀ found ∈ book, Fits s found.1 found.2) :
    Coherent [] (lookUp s order book) := by
  unfold lookUp
  split
  · rename_i ref named
    unfold findOrderByClientId
    split
    · exact coherent
    · exact coherent
    · rename_i id row unused
      exact { (coherent.pend id).setOrder (fits ref named unused _ rfl) with }
  · exact coherent

end

/-! ## Every run -/

/-- The calls that keep the book: an order that the durable book answers for a
reference not used here fits, a new order has no negative quantity, a
quantity is not changed below what has filled, and a resting order that the
price reaches meets liquidity. -/
def Careful (cfg : Config) (s : Exchange) : Call → Prop
  | .place order _ _ book =>
      (∀ ref ∈ refOf order, s.byRef ref = none → ∀ found ∈ book, Fits s found.1 found.2) ∧
        ((refOf order).bind (duplicateOf (lookUp s order book)) = none → 0 ≤ order.quantity)
  | .onPrice symbol price _ liquidity => LiquidOn cfg s symbol price liquidity s.resting
  | .modify id change => ∀ row ∈ s.orders id, row.status.isTerminal = false →
      ∀ quantity ∈ change.quantity, row.filledQuantity ≤ quantity
  | .cancel _ => True
  | .mark _ _ _ => True

theorem afterCall_coherent {call : Call} (coherent : Coherent [] s) (careful : Careful cfg s call) :
    Coherent [] (afterCall cfg s call) := by
  cases call with
  | place order quote liquidity book =>
    have looked := lookUp_coherent coherent order careful.1
    simp only [afterCall, placeOrder]
    cases duplicate : (refOf order).bind (duplicateOf (lookUp s order book)) with
    | some answer => exact looked
    | none => exact placeNew_coherent looked (careful.2 duplicate) quote liquidity
  | onPrice symbol price exchange liquidity =>
    refine onPriceLoop_coherent (mark_coherent coherent symbol price exchange)
      coherent.restingOnce (fun _ member => member) ?_
    intro id member found read
    rw [reached_congr rfl] at read
    exact careful id member found read
  | modify id change => exact modifyOrder_coherent coherent id change careful
  | cancel id => exact cancelOrder_coherent coherent id
  | mark symbol price exchange => exact mark_coherent coherent symbol price exchange

instance (s : Exchange) (id : OrderId) (row : OrderStatus) : Decidable (Fits s id row) :=
  decidable_of_iff (id.Before s.nextOrder ∧ (∀ order ∈ s.requests id, order.quantity = row.quantity) ∧
      0 ≤ row.filledQuantity ∧ row.filledQuantity ≤ row.quantity ∧ row.filledQuantity = traded s id ∧
      (id ∈ s.resting → row.status = .open ∧ row.filledQuantity = 0) ∧
      (id ∈ s.waited → row.status = .open → row.filledQuantity = 0 → id ∈ s.resting))
    ⟨fun ⟨a, b, c, d, e, f, g⟩ => ⟨a, b, c, d, e, f, g⟩,
      fun ⟨a, b, c, d, e, f, g⟩ => ⟨a, b, c, d, e, f, g⟩⟩

instance (cfg : Config) (s : Exchange) : ∀ call, Decidable (Careful cfg s call)
  | .place order _ _ book =>
      inferInstanceAs (Decidable ((∀ ref ∈ refOf order, s.byRef ref = none →
        ∀ found ∈ book, Fits s found.1 found.2) ∧ (_ → 0 ≤ order.quantity)))
  | .onPrice symbol price _ liquidity =>
      inferInstanceAs (Decidable (∀ id ∈ s.resting, ∀ found ∈ reached cfg s symbol price id,
        0 < fillable liquidity id found.1))
  | .modify id change =>
      inferInstanceAs (Decidable (∀ row ∈ s.orders id, row.status.isTerminal = false →
        ∀ quantity ∈ change.quantity, row.filledQuantity ≤ quantity))
  | .cancel _ => inferInstanceAs (Decidable True)
  | .mark _ _ _ => inferInstanceAs (Decidable True)

/-- The references given to `place_order` in a run. -/
def placedRefs (calls : List Call) : List String :=
  calls.filterMap fun
    | .place order _ _ _ => refOf order
    | _ => none

theorem fillNow_byRef (s : Exchange) (id : OrderId) (order : OrderRequest) (fill : ℚ) (note : String)
    (liquidity : Liquidity) : (fillNow s id order fill note liquidity).2.byRef = s.byRef := by
  simp only [fillNow]
  split_ifs <;> rfl

theorem placeAt_byRef (cfg : Config) (s : Exchange) (id : OrderId) (order : OrderRequest) (ltp : ℚ)
    (liquidity : Liquidity) : (placeAt cfg s id order ltp liquidity).2.byRef = s.byRef := by
  unfold placeAt
  split
  · exact fillNow_byRef _ _ _ _ _ _
  · split_ifs <;> rfl

theorem placeNew_byRef (cfg : Config) (s : Exchange) (order : OrderRequest) (quote : Option ℚ)
    (liquidity : Liquidity) :
    (placeNew cfg s order quote liquidity).2.byRef = (register s order).byRef := by
  simp only [placeNew]
  split_ifs
  · rfl
  · split
    · rfl
    · split
      · exact placeAt_byRef _ _ _ _ _ _
      · split
        · rfl
        · exact placeAt_byRef _ _ _ _ _ _

theorem onPriceLoop_byRef (cfg : Config) (symbol : String) (price : ℚ) (liquidity : Liquidity)
    (ids : List OrderId) (s : Exchange) :
    (onPriceLoop cfg symbol price liquidity ids s).2.byRef = s.byRef := by
  induction ids generalizing s with
  | nil => rfl
  | cons id ids ih =>
    cases reaches : reached cfg s symbol price id with
    | none =>
      simp only [onPriceLoop, reaches]
      exact ih s
    | some found =>
      simp only [onPriceLoop, reaches]
      rw [ih, fillNow_byRef]

/-- The lookup drops no reference, and takes the order's where it finds one. -/
theorem lookUp_byRef (s : Exchange) (order : OrderRequest) (book : Option BookedOrder)
    (taken : s.byRef ref ≠ none) : (lookUp s order book).byRef ref ≠ none := by
  unfold lookUp
  split
  · rename_i first _
    unfold findOrderByClientId
    split
    · exact taken
    · exact taken
    · rename_i unused
      have other : ref ≠ first := fun same => taken (same ▸ unused)
      simpa [setOrder, Function.update_of_ne other] using taken
  · exact taken

/-- A reference stays taken. -/
theorem afterCall_keeps_ref (taken : s.byRef ref ≠ none) (call : Call) :
    (afterCall cfg s call).byRef ref ≠ none := by
  cases call with
  | place order quote liquidity book =>
    have taken := lookUp_byRef s order book taken
    simp only [afterCall, placeOrder]
    split
    · exact taken
    · rw [placeNew_byRef]
      cases named : refOf order with
      | none => simpa [register, setRequest, named] using taken
      | some first =>
        simp only [register, setRequest, named, Function.update_apply]
        split_ifs
        · simp
        · exact taken
  | onPrice symbol price exchange liquidity =>
    simp only [afterCall, onPrice]
    rw [onPriceLoop_byRef]
    exact taken
  | modify id change =>
    simp only [afterCall, modifyOrder]
    split
    · exact taken
    · split_ifs
      · exact taken
      · split <;> exact taken
  | cancel id =>
    simp only [afterCall, cancelOrder]
    split
    · exact taken
    · split_ifs <;> exact taken
  | mark symbol price exchange => exact taken

/-- Placing an order takes its reference. -/
theorem placeOrder_takes_ref (named : refOf order = some ref) (quote : Option ℚ)
    (liquidity : Liquidity) (book : Option BookedOrder) :
    (placeOrder cfg s order quote liquidity book).2.byRef ref ≠ none := by
  unfold placeOrder
  dsimp only
  split
  · rename_i answer duplicate
    rw [named, Option.bind_some, duplicateOf] at duplicate
    obtain ⟨id, taken, _⟩ := Option.map_eq_some_iff.mp duplicate
    simp [taken]
  · rw [placeNew_byRef]
    simp [register, named]

theorem run_keeps_ref {calls : List Call} {t : Exchange} (taken : s.byRef ref ≠ none)
    (ran : (exchange cfg).run s calls = some t) : t.byRef ref ≠ none := by
  have keeps : ∀ a call b, a.byRef ref ≠ none → (exchange cfg).step a call = some b →
      b.byRef ref ≠ none := by
    intro a call b still stepped
    cases stepped
    exact afterCall_keeps_ref still call
  exact (exchange cfg).run_invariant_all keeps taken ran

theorem run_takes_refs {calls : List Call} {t : Exchange}
    (ran : (exchange cfg).run s calls = some t) : ∀ ref ∈ placedRefs calls, t.byRef ref ≠ none := by
  induction calls generalizing s with
  | nil =>
    intro ref member
    cases member
  | cons call calls ih =>
    intro ref member
    have rest : (exchange cfg).run (afterCall cfg s call) calls = some t := ran
    cases call with
    | place order quote liquidity book =>
      cases named : refOf order with
      | none =>
        refine ih rest ref ?_
        simpa [placedRefs, named] using member
      | some first =>
        have split : ref = first ∨ ref ∈ placedRefs calls := by
          simpa [placedRefs, named] using member
        rcases split with rfl | later
        · exact run_keeps_ref (placeOrder_takes_ref named quote liquidity book) rest
        · exact ih rest ref later
    | onPrice symbol price exchange liquidity => exact ih rest ref (by simpa [placedRefs] using member)
    | modify id change => exact ih rest ref (by simpa [placedRefs] using member)
    | cancel id => exact ih rest ref (by simpa [placedRefs] using member)
    | mark symbol price exchange => exact ih rest ref (by simpa [placedRefs] using member)

/-- What the book promises after a run of calls. -/
structure BookHolds (cfg : Config) (calls : List Call) (s : Exchange) : Prop where
  filled : ∀ id row, s.orders id = some row →
    0 ≤ row.filledQuantity ∧ row.filledQuantity ≤ row.quantity ∧ row.filledQuantity = traded s id
  waiting : ∀ id ∈ s.waited, ∀ row, s.orders id = some row → row.status = .open →
    row.filledQuantity = 0 → id ∈ s.resting
  resting : ∀ id ∈ s.resting, ∀ row, s.orders id = some row → row.status.isTerminal = false
  once : ∀ order ref, refOf order = some ref → ref ∈ placedRefs calls → ∀ quote liquidity book,
    (placeOrder cfg s order quote liquidity book).2 = s
  limits : ∀ t ∈ s.trades, RespectsLimit t

/-- In every run of careful calls the book keeps its promises. -/
theorem run_bookHolds (cfg : Config) (calls : List Call) (s : Exchange)
    (careful : (exchange cfg).Meets (Careful cfg) Exchange.start calls)
    (ran : (exchange cfg).run Exchange.start calls = some s) : BookHolds cfg calls s := by
  have coherent : Coherent [] s := by
    refine (exchange cfg).run_invariant ?_ coherent_start careful ran
    intro a call b kept cond stepped
    cases stepped
    exact afterCall_coherent kept cond
  refine ⟨?_, ?_, ?_, ?_, coherent.limits⟩
  · intro id row present
    obtain ⟨positive, bounded, booked⟩ := coherent.filled id row present
    exact ⟨positive, bounded, booked List.not_mem_nil⟩
  · intro id waited
    exact coherent.waiting id waited List.not_mem_nil
  · intro id rests row present
    obtain ⟨row', present', opened, _⟩ := coherent.restingOpen id rests
    rw [present] at present'
    cases present'
    rw [opened]
    rfl
  · intro order ref named placed quote liquidity book
    obtain ⟨id, taken⟩ := Option.ne_none_iff_exists'.mp (run_takes_refs ran ref placed)
    have found : lookUp s order book = s := by
      simp only [lookUp, named, findOrderByClientId, taken]
    simp only [placeOrder, found, duplicateOf, named, Option.bind_some, taken, Option.map_some]

/-- A buy of ten at a limit of 100. -/
def buyTen : OrderRequest where
  symbol := "NIFTY"
  exchange := "NSE"
  side := .buy
  quantity := 10
  orderType := "LIMIT"
  price := some 100
  triggerPrice := none
  clientRef := some "tap-1"
  protectionPct := none

/-- An adapter that keeps waiting orders, with no venue and no slippage. -/
def plainConfig : Config where
  keepResting := true
  marketOrdersAllowed := none
  slip _ price := price
  money _ := ""

/-- An order that the durable book has as refused. -/
def refusedBefore : BookedOrder := (.booked "41", statusRow { buyTen with price := none } .rejected 0 none)

/-- The order waits at 105, is changed to a limit of 101 and fills in part at 99;
another was refused before a restart. -/
def carefulCalls : List Call :=
  [.place buyTen (some 105) none none, .modify (.paper 1) { price := some 101 },
    .onPrice "NIFTY" 99 "NSE" (some fun _ => 4), .place buyTen none none none,
    .place { buyTen with clientRef := some "tap-0" } none none (some refusedBefore)]

theorem carefulCalls_bookHolds :
    BookHolds plainConfig carefulCalls
      (carefulCalls.foldl (afterCall plainConfig) Exchange.start) :=
  run_bookHolds plainConfig carefulCalls _ (by decide +kernel) rfl

/-- The order waits at 105 and is reached at 99 while nothing is offered: it is
taken off the resting list, open and unfilled. -/
def dryCalls : List Call :=
  [.place buyTen (some 105) none none, .onPrice "NIFTY" 99 "NSE" (some fun _ => 0)]

theorem dryCalls_lose_the_order :
    ¬ ∀ (cfg : Config) (calls : List Call) (s : Exchange), cfg.keepResting = true →
      (exchange cfg).run Exchange.start calls = some s → BookHolds cfg calls s := by
  intro claimed
  have book := claimed plainConfig dryCalls _ rfl rfl
  have lost := book.waiting (.paper 1) (by decide +kernel) (statusRow buyTen .open 0 none)
    (by decide +kernel) rfl rfl
  exact absurd lost (by decide +kernel)

end AdvanceTrading.PaperAdapter
