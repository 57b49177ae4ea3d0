import AdvanceTrading.Execution.ProtectedLimit

/-!
# The router's entry

Model of `OrderRouter._route` up to its trade (`app/execution/router.py:221-343`),
of `_place_one`, `_resolve_fill_with_status` and `_cancel_unfilled`
(`router.py:398-527`), of `slice_units` and `max_slice_units`, and of the entry
policy of a venue (`app/compliance/order_policy.py`). What the venue answers while
an order is placed is its `Answers`; the stop that goes out after the trade, the
tag and the product are left out. A text is a constructor with the text's own
values.
-/

namespace AdvanceTrading.Router

open PaperAdapter (Side OrderRequest protectedLimitPrice marketableLimitPrice)

/-! ## Texts -/

/-- A line of the answer's reasons. -/
inductive Reason where
  | note (text : String)
  | needsSetting (name : String)
  | protectedLimit (limit band entry : ℚ)
  | mappedToLimit (price : ℚ)
  | policyRefuses (why : String)
  | brokerCallFailed
  | declined (paper : Bool) (why : String)
  | livePlaced (orderId : String)
  | endedUnfilled (orderId status : String)
  | bookUnavailable
  | filledDuringCancel (quantity price : ℚ)
  | cancelledUnfilled (orderId : String)
  | notCancelled
  | partialFill (filled requested : ℚ)
  | remainderCancelled (rest : ℚ)
  | remainderNotCancelled
  | order (n : Nat) (reason : Reason)
  | paperFilled
  | sentAs (orders : Nat) (freeze : ℤ) (rest : Bool)
  deriving DecidableEq

/-! ## What the venue answers -/

/-- What is read of an entry of the order book. -/
structure BookEntry where
  orderId : String
  filledQuantity : ℚ := 0
  averagePrice : Option ℚ := none
  status : String := ""
  deriving DecidableEq

/-- A look at the book: its entries, or `none` where the call raised. -/
abbrev BookRead := Option (List BookEntry)

/-- The answer to `place_order`. -/
inductive Placement where
  | raised
  | answered (status orderId : String) (message : Option String)
  deriving DecidableEq

/-- The venue's answers while one order is placed: the looks of the first poll, the looks after the cancel of an
unfilled order, and whether the cancel of a remainder is taken. What the cancel of an unfilled order answers is
not read. -/
structure Answers where
  placement : Placement
  poll : Nat → BookRead := fun _ => some []
  after : Nat → BookRead := fun _ => some []
  remainderCancelled : Bool := true

/-- `_REJECTED_STATUSES`. -/
def rejectedStatuses : List String := ["REJECTED", "CANCELLED", "CANCELED", "EXPIRED", "LAPSED"]

/-- `_FILLED_STATUSES`. -/
def filledStatuses : List String := ["COMPLETE", "FILLED", "TRADED", "EXECUTED"]

/-- The order ended without filling. -/
def BookEntry.ended (e : BookEntry) : Bool := Py.upper e.status ∈ rejectedStatuses

/-- The average price, where it is one: `None` and 0 are not. -/
def BookEntry.price (e : BookEntry) : Option ℚ := e.averagePrice.filter (· ≠ 0)

/-- The price of a fill the entry shows. -/
def BookEntry.fillPrice (e : BookEntry) : Option ℚ := if 0 < e.filledQuantity then e.price else none

/-- The first entry of an order. -/
def entryOf (orderId : String) (book : List BookEntry) : Option BookEntry := book.find? fun e => e.orderId = orderId

/-! ## One order -/

/-- What `_resolve_fill_with_status` returns, and `_book_readable` after it. -/
structure Polled where
  price : ℚ
  filled : ℚ
  entry : Option BookEntry
  readable : Bool

/-- `_resolve_fill_with_status` on the looks it may take, after `last`. -/
def resolveFill (orderId : String) (fallback : ℚ) : Option BookEntry → List BookRead → Polled
  | last, [] => ⟨fallback, 0, last, true⟩
  | _, none :: _ => ⟨fallback, 0, none, false⟩
  | _, some book :: rest =>
      match entryOf orderId book with
      | none => resolveFill orderId fallback none rest
      | some e =>
          match e.fillPrice with
          | some price => ⟨price, e.filledQuantity, some e, true⟩
          | none => if e.ended then ⟨fallback, 0, some e, true⟩ else resolveFill orderId fallback (some e) rest

/-- `_cancel_unfilled` on the looks it may take: the cancel is confirmed, the late price and the late quantity. -/
def cancelUnfilled (orderId : String) (fallback : ℚ) : List BookRead → Bool × ℚ × ℚ
  | [] => (false, fallback, 0)
  | none :: _ => (false, fallback, 0)
  | some book :: rest =>
      match entryOf orderId book with
      | none => cancelUnfilled orderId fallback rest
      | some e =>
          match e.fillPrice with
          | some price => (false, price, e.filledQuantity)
          | none => if e.ended then (true, fallback, 0) else cancelUnfilled orderId fallback rest

inductive LegKind where
  | filled
  | none
  | rejected
  | failed
  deriving DecidableEq

/-- `_Leg`. -/
structure Leg where
  kind : LegKind
  orderId : Option String := none
  reasons : List Reason := []
  filled : ℚ := 0
  price : ℚ := 0
  uncertain : Bool := false

/-- The first looks at the book. -/
def firstLooks (attempts : Nat) (looks : Nat → BookRead) : List BookRead := (List.range attempts).map looks

/-- A remainder that may still work. -/
def remainderWorks (entry : Option BookEntry) : Bool :=
  Py.upper (entry.elim "" BookEntry.status) ∉ filledStatuses ++ rejectedStatuses

/-- The end of `_place_one`, once the quantity that counts as filled is known (`router.py:449-464`). -/
def settle (quantity : ℚ) (answers : Answers) (entry : Option BookEntry) (leg : Leg) : Leg :=
  if 0 < leg.filled ∧ leg.filled < quantity then
    let leg := { leg with reasons := leg.reasons ++ [.partialFill leg.filled quantity] }
    if remainderWorks entry then
      if answers.remainderCancelled then
        { leg with reasons := leg.reasons ++ [.remainderCancelled (quantity - leg.filled)] }
      else { leg with uncertain := true, reasons := leg.reasons ++ [.remainderNotCancelled] }
    else leg
  else leg

/-- `_place_one` of an order the venue took. -/
def followOrder (attempts : Nat) (practice : Bool) (quantity fallback : ℚ) (orderId : String)
    (answers : Answers) : Leg :=
  let placed : Leg :=
    { kind := .filled, orderId := some orderId, reasons := if practice then [] else [.livePlaced orderId] }
  let first := resolveFill orderId fallback none (firstLooks attempts answers.poll)
  let requested (why : Reason) : Leg :=
    { placed with uncertain := true, filled := quantity, price := first.price, reasons := placed.reasons ++ [why] }
  if first.filled ≤ 0 then
    if first.entry.any BookEntry.ended then
      { placed with
        kind := .none
        reasons := placed.reasons ++ [.endedUnfilled orderId (Py.upper (first.entry.elim "" BookEntry.status))] }
    else if first.entry.isNone ∧ first.readable = false then
      settle quantity answers first.entry (requested .bookUnavailable)
    else
      match cancelUnfilled orderId fallback (firstLooks attempts answers.after) with
      | (cancelled, latePrice, lateQuantity) =>
          if 0 < lateQuantity then
            settle quantity answers first.entry
              { placed with
                filled := lateQuantity
                price := latePrice
                reasons := placed.reasons ++ [.filledDuringCancel lateQuantity latePrice] }
          else if cancelled then
            { placed with kind := .none, reasons := placed.reasons ++ [.cancelledUnfilled orderId] }
          else settle quantity answers first.entry (requested .notCancelled)
  else settle quantity answers first.entry { placed with filled := first.filled, price := first.price }

/-- `_place_one`. -/
def placeOne (attempts : Nat) (practice : Bool) (quantity fallback : ℚ) (answers : Answers) : Leg :=
  match answers.placement with
  | .raised => { kind := .failed, reasons := [.brokerCallFailed] }
  | .answered status orderId message =>
      if status = "REJECTED" ∨ status = "CANCELLED" then
        { kind := .rejected, orderId := some orderId, reasons := [.declined practice (message.getD status)] }
      else followOrder attempts practice quantity fallback orderId answers

/-! ## Slices -/

/-- `max_slice_units`. -/
def maxSliceUnits (freezeQty : Option ℤ) (lotSize : ℤ) : Option ℤ :=
  match freezeQty with
  | none => none
  | some freeze => if freeze = 0 ∨ lotSize ≤ 0 then none else some (max lotSize ((freeze - 1) / lotSize * lotSize))

/-- `slice_units`. -/
def sliceUnits (units lotSize : ℤ) (freezeQty : Option ℤ) : List ℤ :=
  if units ≤ 0 then []
  else
    match maxSliceUnits freezeQty (max 1 lotSize) with
    | none => [units]
    | some biggest =>
        if units ≤ biggest then [units]
        else List.replicate (units / biggest).toNat biggest ++ if units % biggest = 0 then [] else [units % biggest]

/-! ## The entry -/

/-- `market_for_algo`. -/
inductive MarketForAlgo where
  | allow
  | mapToLimit
  | refuse
  deriving DecidableEq

/-- `policy_for` a venue. -/
structure EntryPolicy where
  marketForAlgo : MarketForAlgo := .allow
  allowedValidity : List String := []

/-- What the entry reads of its venue. -/
structure Venue where
  paper : Bool := false
  /-- `capabilities.market_orders_allowed`, where the venue states its capabilities. -/
  marketOrdersAllowed : Option Bool := none
  policy : EntryPolicy := {}
  /-- The refusal of its circuit breaker, where it is open. -/
  breakerRefusal : Option String := none

/-- What the entry reads of its router. -/
structure OrderRouter where
  exchange : String := "NSE"
  product : Option String := none
  orderStyle : Option String := none
  marketProtectionPct : Option ℚ := none
  freezeQuantity : Option ℤ := none
  fillPollAttempts : Nat := 3

/-- What the entry reads of its signal. -/
structure Signal where
  symbol : String
  long : Bool
  entry : ℚ

structure Trade where
  quantity : ℚ
  entryPrice : ℚ
  deriving DecidableEq

/-- `ExecutionResult`, up to the protective stop. -/
structure ExecutionResult where
  executed : Bool
  reasons : List Reason := []
  trade : Option Trade := none
  brokerOrderId : Option String := none
  systemFailure : Bool := false
  partialFill : Bool := false
  requestedQuantity : Option ℚ := none
  brokerUncertain : Bool := false

/-- An order that was sent: its quantity, what the venue answered and what it came to. -/
structure Sent where
  quantity : ℚ
  answers : Answers
  leg : Leg

/-- The answer, and the orders that were sent. -/
structure Routed where
  result : ExecutionResult
  sent : List Sent := []

/-- `apply_entry_policy`: the order to send with its note, a refusal, or `none` where the mapped order has no band. -/
def applyEntryPolicy (policy : EntryPolicy) (order : OrderRequest) (limit : Option ℚ) :
    Option (Except Reason (OrderRequest × List Reason)) :=
  if policy.allowedValidity ≠ [] ∧ "DAY" ∉ policy.allowedValidity.map Py.upper then
    some (.error (.policyRefuses "validity"))
  else if Py.upper order.orderType = "MARKET" then
    match policy.marketForAlgo with
    | .refuse => some (.error (.policyRefuses "market"))
    | .mapToLimit => limit.map fun price =>
        .ok ({ order with orderType := "LIMIT", price := some price }, [.mappedToLimit price])
    | .allow => some (.ok (order, []))
  else some (.ok (order, []))

/-- The order of an entry, once every check before the first one passes; `.error none` where a price is refused by
raising. -/
def entryRequest (router : OrderRouter) (venue : Venue) (signal : Signal) (quantity : ℚ) (notes : List Reason) :
    Except (Option (List Reason)) (OrderRequest × List Reason) :=
  let side : Side := if signal.long then .buy else .sell
  let band := router.marketProtectionPct
  let needsBand := some (notes ++ [.needsSetting "price_protection_pct"])
  if router.product.isNone then .error (some (notes ++ [.needsSetting "holding"]))
  else if router.orderStyle.isNone then .error (some (notes ++ [.needsSetting "order_type"]))
  else if band.isNone ∧ (router.orderStyle = some "PROTECTED_LIMIT" ∨ venue.marketOrdersAllowed = some false) then
    .error needsBand
  else
    match venue.breakerRefusal with
    | some why => .error (some (notes ++ [.note why]))
    | none =>
        let plain : OrderRequest :=
          { symbol := signal.symbol, exchange := router.exchange, side, quantity, orderType := "MARKET", price := none,
            triggerPrice := none, clientRef := none, protectionPct := none }
        let limit := band.map (protectedLimitPrice signal.entry side)
        let (order, notes) :=
          match limit, band with
          | some limit, some band =>
              if router.orderStyle = some "PROTECTED_LIMIT" then
                ({ plain with orderType := "LIMIT", price := some limit },
                  notes ++ [.protectedLimit limit band signal.entry])
              else (plain, notes)
          | _, _ => (plain, notes)
        match applyEntryPolicy venue.policy order limit with
        | none => .error needsBand
        | some (.error why) => .error (some (notes ++ [why]))
        | some (.ok (policed, note)) =>
            let notes := notes ++ note
            if Py.upper policed.orderType = "MARKET" ∧ venue.marketOrdersAllowed = some false then
              match band with
              | none => .error needsBand
              | some band =>
                  match marketableLimitPrice signal.entry side band with
                  | none => .error none
                  | some price => .ok ({ policed with orderType := "LIMIT", price := some price }, notes)
            else .ok (policed, notes)

/-- The quantities of the orders (`router.py:282-288`). -/
def parts (router : OrderRouter) (quantity : ℚ) (lotSize : ℤ) : List ℚ :=
  match router.freezeQuantity with
  | none => [quantity]
  | some freeze =>
      if freeze = 0 then [quantity]
      else
        match sliceUnits (Py.roundHalfEven quantity) lotSize (some freeze) with
        | [] => [quantity]
        | units => units.map fun u : ℤ => (u : ℚ)

/-- The slack of the comparisons of quantities. -/
def eps : ℚ := 1 / 10 ^ 9

/-- What the loop over the orders keeps. -/
structure Booked where
  reasons : List Reason
  filled : ℚ := 0
  value : ℚ := 0
  prices : List ℚ := []
  brokerUncertain : Bool := false
  stopped : Bool := false
  firstOrderId : Option String := none

/-- The answer where nothing is open and an order did not fill (`router.py:299-307`). -/
def notOpened (practice : Bool) (reasons : List Reason) (leg : Leg) : ExecutionResult :=
  match leg.kind with
  | .failed => { executed := false, reasons := leg.reasons, systemFailure := true }
  | .rejected => { executed := false, reasons := leg.reasons }
  | _ =>
    { executed := false, brokerOrderId := if practice then none else leg.orderId,
      reasons := reasons ++ leg.reasons }

/-- A filled order is booked (`router.py:314-319`). -/
def Booked.add (b : Booked) (leg : Leg) : Booked where
  reasons := b.reasons ++ leg.reasons
  filled := b.filled + leg.filled
  value := b.value + leg.filled * leg.price
  prices := b.prices ++ [leg.price]
  brokerUncertain := b.brokerUncertain || leg.uncertain
  stopped := b.stopped
  firstOrderId := b.firstOrderId.or leg.orderId

section

variable (router : OrderRouter) (venue : Venue) (signal : Signal) (answers : Nat → Answers)

/-- The loop over the orders, from the `n`th of `total`. -/
def placeParts (total : Nat) : Nat → List ℚ → Booked → Except ExecutionResult Booked × List Sent
  | _, [], b => (.ok b, [])
  | n, part :: rest, b =>
      let leg := placeOne router.fillPollAttempts venue.paper part signal.entry (answers n)
      let sent : Sent := ⟨part, answers n, leg⟩
      if leg.kind ≠ .filled then
        if b.filled ≤ 0 then (.error (notOpened venue.paper b.reasons leg), [sent])
        else
          (.ok { b with
              reasons := b.reasons ++ leg.reasons.map (.order n)
              brokerUncertain := b.brokerUncertain || leg.kind = .failed
              stopped := true }, [sent])
      else
        let b := b.add leg
        if leg.uncertain ∨ leg.filled + eps < part then (.ok { b with stopped := n < total }, [sent])
        else
          match placeParts total (n + 1) rest b with
          | (result, later) => (result, sent :: later)

/-- The answer where something is open (`router.py:325-343`). -/
def opened (quantity : ℚ) (notes : List Reason) (orders : Nat) (b : Booked) : ExecutionResult :=
  let isPartial := b.filled + eps < quantity
  let reasons := if venue.paper then b.reasons.insertIdx notes.length .paperFilled else b.reasons
  let reasons :=
    if 1 < orders then
      reasons ++ [.sentAs orders (router.freezeQuantity.getD 0) b.stopped] ++
        if isPartial then [.partialFill b.filled quantity] else []
    else reasons
  let fillPrice := match b.prices with
    | [price] => price
    | _ => b.value / b.filled
  { executed := true
    reasons
    trade := some ⟨b.filled, Py.round2 fillPrice⟩
    brokerOrderId := if venue.paper then none else b.firstOrderId
    partialFill := isPartial
    requestedQuantity := some quantity
    brokerUncertain := b.brokerUncertain }

/-- `_route`; `none` where it raises before the first order. -/
def route (quantity : ℚ) (notes : List Reason) (lotSize : ℤ) : Option Routed :=
  match entryRequest router venue signal quantity notes with
  | .error none => none
  | .error (some reasons) => some { result := { executed := false, reasons } }
  | .ok (_, notes) =>
      let slices := parts router quantity lotSize
      match placeParts router venue signal answers slices.length 1 slices { reasons := notes } with
      | (.error result, sent) => some { result, sent }
      | (.ok b, sent) => some { result := opened router venue quantity notes slices.length b, sent }

end

end AdvanceTrading.Router
