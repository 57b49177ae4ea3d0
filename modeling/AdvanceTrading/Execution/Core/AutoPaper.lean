import AdvanceTrading.Execution.Core.Dispatcher
import AdvanceTrading.MarketData.Calendar
import AdvanceTrading.Misc.Numerals
import Mathlib.Data.Finset.Card

/-!
# Auto PAPER and its limits

Model of `app/screener/then/auto_paper.py:95-255`, and of the dispatcher over
the whole queue: `m` intents, and any number of attempts that each take one
intent at a time through the statements of `Dispatcher`. A worker that claims a
batch is as many attempts.

A position is open from the commit in `persist_trade`
(`app/trading/persistence.py:96`); the order has its `trade_id` from the next
commit on (`app/execution/signal_execution.py:564-578`). `limit_reason` is one
read here. Instants are microseconds.
-/

namespace AdvanceTrading.Execution.Core

open MarketData (dayStart)
open TriggerRules (istDay minuteUs)

/-! ## What the switches and the limits read -/

/-- The text after `literal`. -/
def after : List Char → List Char → Option (List Char)
  | [], text => some text
  | _ :: _, [] => none
  | l :: literal, c :: text => if l = c then after literal text else none

/-- `rule_and_symbol`: the groups of `^rule:(\d+):symbol:(.+)$`; `.` is no line end, and `$` is also
before a last one. -/
def ruleAndSymbol (sourceRef : String) : Option (Nat × String) := do
  let text ← after "rule:".toList sourceRef.toList
  let rest ← after ":symbol:".toList (text.dropWhile Py.isDecimal)
  let symbol := rest.takeWhile (· ≠ '\n')
  if text.takeWhile Py.isDecimal ≠ [] ∧ symbol ≠ [] ∧ rest.dropWhile (· ≠ '\n') ∈ [[], ['\n']] then
    some (Py.natOf (text.takeWhile Py.isDecimal), String.ofList symbol)
  else none

/-- `source_ref.like(f"rule:{rule_id}:symbol:%")`. -/
def ofRule (ruleId : Nat) (sourceRef : String) : Bool :=
  Py.likeStart ("rule:".toList ++ (Nat.toDigits 10 ruleId ++ ":symbol:".toList)) sourceRef.toList

/-- The scanner fields of `Automation` (`app/execution/automation.py`); `none` is Not set. -/
structure Automation where
  scanAutoMax : Option Nat
  scanAutoCooldownMinutes : Option Nat
  scanAutoArmingDays : Option Nat

/-- `scan_missing`, as the labels of the fields. -/
def Automation.scanMissing (own : Automation) : List String :=
  (if own.scanAutoMax.isNone then ["Scanner entries at most"] else []) ++
    (if own.scanAutoCooldownMinutes.isNone then ["Scanner wait per symbol"] else []) ++
      (if own.scanAutoArmingDays.isNone then ["Scanner stays armed for"] else [])

/-- `needs_setting`. -/
def needsSetting (label : String) : String :=
  "Needs your setting: " ++ label ++ " (Settings › Trade settings › Automation)"

/-- What `intent_places` reads of a `ScanThenTemplateRecord`. -/
structure Template where
  userId : Nat
  enabled : Bool

/-- The settings, which stay as they are: each person's own limits and organisation, the template of
each organisation and rule, and the organisation of each rule. -/
structure Platform where
  core : Settings
  automation : Nat → Automation
  userTenant : Nat → Option Nat
  template : Nat → Nat → Option Template
  ruleTenant : Nat → Option Nat

/-- What the switches and the limits read of an intent's row; no update writes these. -/
structure Subject where
  tenantId : Nat
  userId : Nat
  source : String
  sourceRef : String
  symbol : String
  deriving DecidableEq

def Intent.subject (row : Intent) : Subject :=
  ⟨row.tenantId, row.userId, row.source, row.sourceRef, row.symbol⟩

/-- `intent_places`, without the switches and the arming (`availability`). -/
def intentPlaces (st : Platform) (intent : Subject) : Bool :=
  decide (intent.source = "scan") &&
    match ruleAndSymbol intent.sourceRef with
    | none => false
    | some (ruleId, _) =>
        match st.template intent.tenantId ruleId with
        | none => false
        | some row =>
            row.enabled && decide (row.userId = intent.userId) &&
              decide (st.ruleTenant ruleId = some intent.tenantId)

/-- An intent, and the time of its own order when that order counts. -/
structure Entry extends Subject where
  placedAt : Option Int
  deriving DecidableEq

variable {m n : Nat}

/-- `_placed_orders`, of the orders that count. -/
def placedOrders (entries : Fin m → Entry) (tenantId : Nat) : Finset (Fin m) :=
  Finset.univ.filter fun i =>
    (entries i).tenantId = tenantId ∧ (entries i).placedAt.isSome ∧ (entries i).source = "scan"

/-- `entries_today`. -/
def entriesToday (entries : Fin m → Entry) (tenantId ruleId : Nat) (now : Int) : Nat :=
  ((placedOrders entries tenantId).filter fun i =>
    ofRule ruleId (entries i).sourceRef = true ∧
      (entries i).placedAt.any fun at_ => decide (dayStart (istDay now) ≤ at_)).card

/-- The entries of the cool-down's query. -/
def recentEntries (entries : Fin m → Entry) (i : Fin m) (since : Int) : Finset (Fin m) :=
  (placedOrders entries (entries i).tenantId).filter fun j =>
    (entries j).userId = (entries i).userId ∧ (entries j).symbol = (entries i).symbol ∧ j ≠ i ∧
      (entries j).placedAt.any fun at_ => decide (since ≤ at_)

/-- `limit_reason`. -/
def limitReason (st : Platform) (entries : Fin m → Entry) (i : Fin m) (now : Int) : Option String :=
  match ruleAndSymbol (entries i).sourceRef with
  | none => some "Not a scan template's intent"
  | some (ruleId, _) =>
      let own := st.automation (entries i).userId
      if own.scanMissing ≠ [] then
        some ("; ".intercalate (own.scanMissing.map needsSetting) ++ " - a proposal instead")
      else
        let cap := own.scanAutoMax.getD 0
        if cap ≤ entriesToday entries (entries i).tenantId ruleId now then
          some ("Auto PAPER limit reached: " ++ toString cap ++
            " entries from this template today - a proposal instead")
        else
          let minutes := own.scanAutoCooldownMinutes.getD 0
          if 0 < minutes ∧ (recentEntries entries i (now - minutes * minuteUs)).card ≠ 0 then
            some ("Auto PAPER cool-down: " ++ (entries i).symbol ++
              " had an Auto PAPER entry in the last " ++ toString minutes ++
              " minutes - a proposal instead")
          else none

/-! ## The queue and its attempts -/

/-- An intent with its order and proposal, when its order was created (`orders.created_at`), and the
position that order opened. -/
structure Ticket where
  shared : Shared
  orderedAt : Int := 0
  trade : Option Nat := none

/-- The queue and the clock. -/
structure Desk (m : Nat) where
  ticket : Fin m → Ticket
  clock : Int

/-- The orders `_placed_orders` counts: the person's own PAPER orders with a `trade_id`. -/
def Desk.linked (desk : Desk m) (i : Fin m) : Entry where
  toSubject := (desk.ticket i).shared.row.subject
  placedAt := (existingOrder (desk.ticket i).shared.holder).bind fun order =>
    order.tradeId.map fun _ => (desk.ticket i).orderedAt

/-- The orders that opened a position. -/
def Desk.opened (desk : Desk m) (i : Fin m) : Entry where
  toSubject := (desk.ticket i).shared.row.subject
  placedAt := (desk.ticket i).trade.map fun _ => (desk.ticket i).orderedAt

/-- A statement of the dispatcher, or the commit of the trade in `persist_trade`. -/
inductive Act where
  | core (action : Action)
  | persist (tradeId : Nat)

/-- Whether a statement can get its answer. Those of `availability` and of the other checks are free. -/
def possible (st : Platform) (desk : Desk m) (i : Fin m) : Point → Action → Bool
  | .dispatch _ .facts, .facts facts =>
      let row := (desk.ticket i).shared.row
      (!facts.ownerActive || decide (st.userTenant row.userId = some row.tenantId)) &&
        (!facts.autoPaperEnabled || intentPlaces st row.subject)
  | .dispatch now .checks, .check (.place _) =>
      decide (now ≤ desk.clock) && (limitReason st desk.linked i now).isNone
  | .dispatch _ (.pipeline _), .advance next tradeId _ =>
      -- the trade is linked with POSITION_OPEN
      if next = .positionOpen then tradeId.isSome && decide (tradeId = (desk.ticket i).trade)
      else tradeId.isNone && (desk.ticket i).trade.isNone
  | _, _ => true

/-- The intent an attempt has taken, and where it stands. -/
structure Stand (m : Nat) where
  intent : Fin m
  point : Point

def Point.isIdle : Point → Bool
  | .idle => true
  | _ => false

/-- The order a statement leaves is dated by the clock when the statement created it. -/
def Ticket.orderedBy (ticket : Ticket) (clock : Int) : Action → Int
  | .create _ => if ticket.shared.holder.isNone then clock else ticket.orderedAt
  | _ => ticket.orderedAt

def Desk.write (desk : Desk m) (i : Fin m) (ticket : Ticket) : Desk m :=
  { desk with ticket := Function.update desk.ticket i ticket }

/-- One statement of an attempt; an idle one may take any intent. -/
def attempt (st : Platform) (desk : Desk m) (stand : Stand m) :
    Fin m × Act → Option (Desk m × Stand m)
  | (i, .core action) =>
      let ticket := desk.ticket i
      if (stand.point.isIdle = true ∨ i = stand.intent) ∧ possible st desk i stand.point action = true then
        (statement st.core ticket.shared stand.point action).map fun (shared, point) =>
          (desk.write i { ticket with
              shared := shared, orderedAt := ticket.orderedBy desk.clock action }, ⟨i, point⟩)
      else none
  | (i, .persist tradeId) =>
      match stand.point with
      | .dispatch _ (.pipeline _) =>
          let ticket := desk.ticket i
          if i = stand.intent ∧ ticket.trade = none ∧
              (existingOrder ticket.shared.holder).map Order.status = some .filled then
            some (desk.write i { ticket with trade := some tradeId }, stand)
          else none
      | _ => none

/-- The clock goes on, or someone else's order takes an intent's key. -/
inductive Outside (m : Nat) where
  | tick (by_ : Nat)
  | order (i : Fin m) (order : Order)

def outside (desk : Desk m) : Outside m → Option (Desk m)
  | .tick by_ => some { desk with clock := desk.clock + by_ }
  | .order i order =>
      (foreignOrder (desk.ticket i).shared order).map fun shared =>
        desk.write i { desk.ticket i with shared := shared }

/-- The queue and where each of `n` attempts stands. -/
abbrev Floor (m n : Nat) := Procs (Desk m) (Stand m) n

abbrev FloorEvent (m n : Nat) := ProcEvent n (Fin m × Act) (Outside m)

/-- The attempts as one machine. -/
def attempts (st : Platform) (m n : Nat) : Machine (Floor m n) (FloorEvent m n) :=
  Procs.interleave (attempt st) outside n

/-- Nothing raised or placed, all attempts idle. -/
def Floor.start (rows : Fin m → Intent) (clock : Int) (first : Fin m) : Floor m n where
  shared := { ticket := fun i => { shared := { row := rows i } }, clock := clock }
  point := fun _ => ⟨first, .idle⟩

/-! ## What the owner's limits promise -/

/-- "Scanner entries at most" of a template's owner. -/
def capOf (st : Platform) (tenantId ruleId : Nat) : Nat :=
  match st.template tenantId ruleId with
  | none => 0
  | some row => (st.automation row.userId).scanAutoMax.getD 0

/-- The intents of a template whose order of an IST day opened a position. -/
def openedOn (entries : Fin m → Entry) (tenantId ruleId : Nat) (day : Int) : Finset (Fin m) :=
  Finset.univ.filter fun i =>
    (entries i).tenantId = tenantId ∧ ofRule ruleId (entries i).sourceRef = true ∧
      (entries i).placedAt.any fun at_ => decide (istDay at_ = day)

/-- On no IST day has a template more entries than its owner's limit. -/
def WithinCap (st : Platform) (entries : Fin m → Entry) : Prop :=
  ∀ tenantId ruleId day,
    (openedOn entries tenantId ruleId day).card ≤ capOf st tenantId ruleId

/-- Two entries of one person and symbol are at least the person's cool-down apart. -/
def Spaced (st : Platform) (entries : Fin m → Entry) : Prop :=
  ∀ i j s t, i ≠ j → (entries i).userId = (entries j).userId →
    (entries i).symbol = (entries j).symbol → (entries i).placedAt = some s →
      (entries j).placedAt = some t →
        ((st.automation (entries i).userId).scanAutoCooldownMinutes.getD 0 : Int) * minuteUs ≤ |s - t|

end AdvanceTrading.Execution.Core
