import AdvanceTrading.Misc.LeastByKey
import AdvanceTrading.Misc.PyText
import Mathlib.Order.WithBot

/-!
# The risk hierarchy

Model of `app/risk_engine/hierarchy.py` with the measures it reads from
`app/trading/persistence.py:208-223`, `app/portfolio/engine.py:145-151` and
`app/trading/trade_split.py:31-34`. Database tables are lists of rows, instants
are microseconds, amounts are rationals, and the digits of `_fmt` are a
parameter; the sentences around them are the source's.

`strictest` keeps one row per limit type by its number alone. Two measures,
MAX_OPEN_POSITIONS and MAX_TRADES_PER_DAY, count the rows of the limit's own
scope, so the rows it drops are not implied by the ones it keeps.
-/

namespace AdvanceTrading.RiskEngine

/-- `RiskScope` (`app/core/enums.py:83-92`). -/
inductive RiskScope where
  | global
  | tenant
  | user
  | account
  | portfolio
  | strategy
  | deployment
  | instrument
  deriving DecidableEq, Repr

/-- `RiskScope.value`. -/
def RiskScope.value : RiskScope → String
  | .global => "GLOBAL"
  | .tenant => "TENANT"
  | .user => "USER"
  | .account => "ACCOUNT"
  | .portfolio => "PORTFOLIO"
  | .strategy => "STRATEGY"
  | .deployment => "DEPLOYMENT"
  | .instrument => "INSTRUMENT"

/-- `RiskLimitType` (`app/core/enums.py:95-105`). -/
inductive RiskLimitType where
  | maxDailyLoss
  | maxStrategyLoss
  | maxLossPerTrade
  | maxOrderValue
  | maxPositionQuantity
  | maxOpenPositions
  | maxTradesPerDay
  | maxCapitalAllocationPct
  | maxGrossExposure
  | maxSymbolConcentrationPct
  deriving DecidableEq, Repr

/-- `RiskLimitType.value`. -/
def RiskLimitType.value : RiskLimitType → String
  | .maxDailyLoss => "MAX_DAILY_LOSS"
  | .maxStrategyLoss => "MAX_STRATEGY_LOSS"
  | .maxLossPerTrade => "MAX_LOSS_PER_TRADE"
  | .maxOrderValue => "MAX_ORDER_VALUE"
  | .maxPositionQuantity => "MAX_POSITION_QUANTITY"
  | .maxOpenPositions => "MAX_OPEN_POSITIONS"
  | .maxTradesPerDay => "MAX_TRADES_PER_DAY"
  | .maxCapitalAllocationPct => "MAX_CAPITAL_ALLOCATION_PCT"
  | .maxGrossExposure => "MAX_GROSS_EXPOSURE"
  | .maxSymbolConcentrationPct => "MAX_SYMBOL_CONCENTRATION_PCT"

/-- `LIMIT_WORDS` (`hierarchy.py:178-184`). -/
def limitWords : RiskLimitType → String
  | .maxDailyLoss => "today's loss"
  | .maxStrategyLoss => "one strategy's loss today"
  | .maxLossPerTrade => "the loss of one trade"
  | .maxOrderValue => "the value of one order"
  | .maxPositionQuantity => "the size of one order"
  | .maxOpenPositions => "open positions"
  | .maxTradesPerDay => "trades a day"
  | .maxCapitalAllocationPct => "the share of capital in one order"
  | .maxGrossExposure => "total exposure"
  | .maxSymbolConcentrationPct => "the share of capital in one symbol"

/-- `RiskAction` as far as the hierarchy uses it. -/
inductive RiskAction where
  | allow
  | warn
  | blockOrder
  | stopStrategy
  | globalKill
  deriving DecidableEq, Repr

/-- `RiskCheck.status`. -/
inductive CheckStatus where
  | pass
  | warn
  | block
  deriving DecidableEq, Repr

/-- `NotificationSeverity` as far as the hierarchy uses it. -/
inductive Severity where
  | info
  | warning
  | critical
  deriving DecidableEq, Repr

/-- `RiskLimitRecord` (`app/db/models.py:1100-1114`); GLOBAL rows have no tenant. -/
structure RiskLimit where
  id : Nat
  tenantId : Option Nat
  scope : RiskScope
  scopeId : String
  limitType : RiskLimitType
  limitValue : ℚ
  enabled : Bool
  deriving DecidableEq, Repr

/-- The columns of `TradeRecord` the measures read (`app/db/models.py:293-360`). -/
structure Trade where
  tenantId : Nat
  userId : Nat
  strategyId : String
  symbol : String
  direction : String
  entryTime : Int
  entryPrice : ℚ
  quantity : ℚ
  exitTime : Option Int
  pnl : Option ℚ
  markPrice : Option ℚ
  markTime : Option Int
  deploymentId : Option Nat
  groupMeta : Option String
  deriving DecidableEq, Repr

/-- `RiskContext` (`hierarchy.py:46-63`). -/
structure RiskContext where
  tenantId : Nat
  userId : Nat
  strategyId : String
  symbol : String
  quantity : ℚ
  entry : Option ℚ
  stopLoss : Option ℚ
  capital : Option ℚ
  accountId : Option Nat := none
  mode : String := "PAPER"
  orderId : Option Nat := none
  riskPerUnit : Option ℚ := none
  deploymentId : Option Nat := none
  deriving DecidableEq, Repr

/-- `RiskCheck` (`hierarchy.py:66-73`). -/
structure RiskCheck where
  rule : RiskLimit
  current : ℚ
  limit : ℚ
  status : CheckStatus
  action : RiskAction
  reason : String
  deriving DecidableEq, Repr

/-- `RiskVerdict` (`hierarchy.py:76-81`). -/
structure RiskVerdict where
  allowed : Bool
  reasons : List String := []
  checks : List RiskCheck := []
  notes : List String := []
  deriving DecidableEq, Repr

/-- The `risk_events` row of one check (`hierarchy.py:233-238`). -/
structure RiskEvent where
  tenantId : Nat
  accountId : Option Nat
  strategyId : String
  symbol : String
  ruleId : Nat
  ruleType : RiskLimitType
  scope : RiskScope
  currentValue : ℚ
  limitValue : ℚ
  severity : Severity
  action : RiskAction
  status : CheckStatus
  reason : String
  orderId : Option Nat
  mode : String
  quantity : ℚ
  entry : Option ℚ
  deriving DecidableEq, Repr

/-- A kill switch a breach engages, with the text it is engaged with. -/
inductive Consequence where
  | stopStrategy (strategyId why : String)
  | stopTenant (why : String)
  deriving DecidableEq, Repr

/-- What `evaluate` reads: the limit rows (or the exception reading them
raised), the trade table, the start of the trading day, the exception a
row's measurement raises, and the admin's "warn at" share. -/
structure RiskState where
  rows : Except String (List RiskLimit)
  trades : List Trade
  todayStart : Int
  raises : RiskLimit → Option String
  warnAtPct : Option ℚ

/-! ## Which limits apply -/

/-- `_scope_ids` (`hierarchy.py:84-91`); `none` where the order has no such id. -/
def scopeId (ctx : RiskContext) : RiskScope → Option String
  | .global => some ""
  | .tenant => some ""
  | .user => some (toString ctx.userId)
  | .account => ctx.accountId.map toString
  | .portfolio => some ""
  | .strategy => some ctx.strategyId
  | .deployment => ctx.deploymentId.map toString
  | .instrument => some (Py.upper ctx.symbol)

/-- The scopes whose rows apply whatever their `scope_id`. -/
def RiskScope.isWide : RiskScope → Bool
  | .global | .tenant | .portfolio => true
  | _ => false

/-- A row that the query returns and the loop of `applicable_limits` keeps. -/
def applies (ctx : RiskContext) (row : RiskLimit) : Bool :=
  row.enabled && (row.tenantId == some ctx.tenantId || row.scope == .global) &&
    match scopeId ctx row.scope with
    | none => false
    | some wanted => row.scope.isWide || row.scopeId == wanted

/-- `applicable_limits` (`hierarchy.py:94-107`). -/
def applicableLimits (state : RiskState) (ctx : RiskContext) : Except String (List RiskLimit) :=
  state.rows.map fun rows => rows.filter (applies ctx)

/-- `strictest` (`hierarchy.py:110-117`): the dict's values in insertion order. -/
def strictest (limits : List RiskLimit) : List RiskLimit :=
  leastByKey RiskLimit.limitType RiskLimit.limitValue limits

/-! ## What a limit bounds -/

/-- `open_unrealised_pnl`: positions opened and marked today, priced at the mark. -/
def openUnrealisedPnl (trades : List Trade) (todayStart : Int) (tenantId : Nat)
    (strategyId : Option String) : ℚ :=
  let marked := trades.filterMap fun t =>
    match t.markPrice, t.markTime with
    | some mark, some time =>
        if t.tenantId = tenantId ∧ t.exitTime = none ∧ todayStart ≤ t.entryTime ∧ todayStart ≤ time ∧
            (strategyId = none ∨ strategyId = some t.strategyId) then
          some ((if t.direction = "LONG" then 1 else -1) * (mark - t.entryPrice) * t.quantity)
        else none
    | _, _ => none
  Py.round2 marked.sum

/-- `coalesce(sum(pnl), 0)` over the trades closed today. -/
def realisedPnl (trades : List Trade) (todayStart : Int) (tenantId : Nat)
    (strategyId : Option String) : ℚ :=
  let closed := trades.filter fun t =>
    t.tenantId == tenantId && t.exitTime.any (todayStart ≤ ·) &&
      (strategyId == none || strategyId == some t.strategyId)
  (closed.filterMap (·.pnl)).sum

/-- `gross_exposure`: an empty symbol filters nothing. -/
def grossExposure (trades : List Trade) (tenantId : Nat) (symbol : Option String) : ℚ :=
  let open_ := trades.filter fun t =>
    t.tenantId == tenantId && t.exitTime.isNone &&
      (symbol == none || symbol == some "" || symbol == some t.symbol)
  (open_.map fun t => t.entryPrice * t.quantity).sum

/-- `not_a_split`: not the closed part of a partial exit. -/
def notASplit (t : Trade) : Bool :=
  match t.groupMeta with
  | none => true
  | some text => !Py.likeContains "\"split_from\"".toList text.toList

/-- The trades the MAX_OPEN_POSITIONS count of a scope is taken over. -/
def inOpenPositionScope (ctx : RiskContext) : RiskScope → Trade → Bool
  | .strategy, t => t.strategyId == ctx.strategyId
  | .instrument, t => t.symbol == ctx.symbol
  | .user, t => t.userId == ctx.userId
  | .deployment, t => ctx.deploymentId.all fun d => t.deploymentId == some d
  | _, _ => true

/-- The trades the MAX_TRADES_PER_DAY count of a scope is taken over. -/
def inTradesPerDayScope (ctx : RiskContext) : RiskScope → Trade → Bool
  | .strategy, t => t.strategyId == ctx.strategyId
  | .user, t => t.userId == ctx.userId
  | .deployment, t => ctx.deploymentId.all fun d => t.deploymentId == some d
  | _, _ => true

/-- The open positions a scope counts. -/
def openPositions (state : RiskState) (ctx : RiskContext) (scope : RiskScope) : Nat :=
  (state.trades.filter fun t =>
    t.tenantId == ctx.tenantId && t.exitTime.isNone && inOpenPositionScope ctx scope t).length

/-- The trades entered today that a scope counts. -/
def tradesToday (state : RiskState) (ctx : RiskContext) (scope : RiskScope) : Nat :=
  (state.trades.filter fun t =>
    t.tenantId == ctx.tenantId && state.todayStart ≤ t.entryTime && notASplit t &&
      inTradesPerDayScope ctx scope t).length

/-- `value / capital * 100`, and 100 when no capital is known. -/
def shareOfCapital (ctx : RiskContext) (value : ℚ) : ℚ :=
  match ctx.capital with
  | some capital => if 0 < capital then value / capital * 100 else 100
  | none => 100

/-- The value of the order itself. -/
def orderValue (ctx : RiskContext) : ℚ := Py.orZero ctx.entry * ctx.quantity

/-- The loss per unit at the stop; a structure's own maximum replaces it. -/
def lossPerUnit (ctx : RiskContext) : ℚ :=
  match ctx.riskPerUnit, ctx.entry, ctx.stopLoss with
  | some perUnit, _, _ => perUnit
  | none, some entry, some stop => |entry - stop|
  | none, _, _ => 0

/-- `_measure` (`hierarchy.py:120-174`): the bounded quantity and its label. -/
def measure (state : RiskState) (ctx : RiskContext) (rule : RiskLimit) : ℚ × String :=
  let loss (strategyId : Option String) : ℚ :=
    -min 0 (realisedPnl state.trades state.todayStart ctx.tenantId strategyId +
      openUnrealisedPnl state.trades state.todayStart ctx.tenantId strategyId)
  match rule.limitType with
  | .maxDailyLoss => (loss none, "realised + marked-to-market loss today")
  | .maxStrategyLoss =>
      (loss (some ctx.strategyId), s!"{ctx.strategyId} realised + marked-to-market loss today")
  | .maxLossPerTrade => (lossPerUnit ctx * ctx.quantity, "loss at the stop")
  | .maxOrderValue => (orderValue ctx, "order value")
  | .maxPositionQuantity => (ctx.quantity, "quantity")
  | .maxOpenPositions => (openPositions state ctx rule.scope + 1, "open positions after this order")
  | .maxTradesPerDay => (tradesToday state ctx rule.scope + 1, "trades today including this one")
  | .maxCapitalAllocationPct => (shareOfCapital ctx (orderValue ctx), "share of capital")
  | .maxGrossExposure =>
      (grossExposure state.trades ctx.tenantId none + orderValue ctx,
        "gross exposure after this order")
  | .maxSymbolConcentrationPct =>
      (shareOfCapital ctx (grossExposure state.trades ctx.tenantId (some ctx.symbol) + orderValue ctx),
        s!"{ctx.symbol} share of capital after this order")

/-! ## The verdict -/

/-- The digits of `_fmt` and of `:g`; `⊤` is an unmeasurable value. -/
structure Digits where
  value : RiskLimitType → WithTop ℚ → String
  general : ℚ → String

/-- The value and label `evaluate` compares: a measurement that raises is infinite. -/
def measured (state : RiskState) (ctx : RiskContext) (rule : RiskLimit) : WithTop ℚ × String :=
  match state.raises rule with
  | some exception => (⊤, s!"{rule.limitType.value} unmeasurable ({exception})")
  | none => ((measure state ctx rule).1, (measure state ctx rule).2)

/-- The status of a check (`hierarchy.py:217-230`). -/
def statusOf (state : RiskState) (ctx : RiskContext) (rule : RiskLimit) : CheckStatus :=
  let current := (measured state ctx rule).1
  if (rule.limitValue : WithTop ℚ) < current then .block
  else
    match state.warnAtPct with
    | some pct => if ((rule.limitValue * (pct / 100) : ℚ) : WithTop ℚ) ≤ current then .warn else .pass
    | none => .pass

/-- The text of a check. -/
def reasonOf (digits : Digits) (state : RiskState) (ctx : RiskContext) (rule : RiskLimit) : String :=
  let (current, label) := measured state ctx rule
  let now := digits.value rule.limitType current
  let limit := digits.value rule.limitType rule.limitValue
  let named := s!"{rule.limitType.value} ({Py.lower rule.scope.value}): {label} {now}"
  match statusOf state ctx rule with
  | .block =>
      s!"Your organisation's limit on {limitWords rule.limitType}: {label} {now} exceeds limit {limit}. Ask your admin."
  | .warn => s!"{named} has reached {digits.general (Py.orZero state.warnAtPct)}% of limit {limit}"
  | .pass => s!"{named} within limit {limit}"

/-- The action of a check: a blocked loss limit stops more than the order. -/
def actionOf (state : RiskState) (ctx : RiskContext) (rule : RiskLimit) : RiskAction :=
  match statusOf state ctx rule, rule.limitType, rule.scope with
  | .pass, _, _ => .allow
  | .warn, _, _ => .warn
  | .block, .maxStrategyLoss, _ => .stopStrategy
  | .block, .maxDailyLoss, .global => .globalKill
  | .block, .maxDailyLoss, .tenant => .stopStrategy
  | .block, _, _ => .blockOrder

/-- One pass of the loop of `evaluate`; an infinite value is recorded as -1. -/
def checkOf (digits : Digits) (state : RiskState) (ctx : RiskContext) (rule : RiskLimit) : RiskCheck where
  rule
  current := (measured state ctx rule).1.untopD (-1)
  limit := rule.limitValue
  status := statusOf state ctx rule
  action := actionOf state ctx rule
  reason := reasonOf digits state ctx rule

/-- The severity recorded with a status. -/
def severityOf : CheckStatus → Severity
  | .block => .critical
  | .warn => .warning
  | .pass => .info

/-- The `risk_events` row written for a check; the text is cut at 300. -/
def eventOf (ctx : RiskContext) (check : RiskCheck) : RiskEvent where
  tenantId := ctx.tenantId
  accountId := ctx.accountId
  strategyId := ctx.strategyId
  symbol := ctx.symbol
  ruleId := check.rule.id
  ruleType := check.rule.limitType
  scope := check.rule.scope
  currentValue := check.current
  limitValue := check.limit
  severity := severityOf check.status
  action := check.action
  status := check.status
  reason := String.ofList (check.reason.toList.take 300)
  orderId := ctx.orderId
  mode := ctx.mode
  quantity := ctx.quantity
  entry := ctx.entry

/-- `paper_nr.engages_kill_switch`: a PAPER block engages no switch. -/
def engagesKillSwitch (mode : String) : Bool := Py.upper mode != "PAPER"

/-- The kill switch of a blocked check (`hierarchy.py:248-266`). -/
def consequenceOf (ctx : RiskContext) (check : RiskCheck) : Option Consequence :=
  match check.status, check.rule.limitType, check.rule.scope with
  | .block, .maxStrategyLoss, _ => some (.stopStrategy ctx.strategyId s!"Risk limit: {check.reason}")
  | .block, .maxDailyLoss, .tenant => some (.stopTenant s!"Risk limit: {check.reason}")
  | .block, .maxDailyLoss, .global => some (.stopTenant s!"Risk limit: {check.reason}")
  | _, _, _ => none

/-- What `evaluate` returns and does. -/
structure Evaluation where
  verdict : RiskVerdict
  events : List RiskEvent := []
  consequences : List Consequence := []
  deriving DecidableEq, Repr

/-- `evaluate` (`hierarchy.py:195-267`); `user` says whether a user is given. -/
def evaluate (digits : Digits) (state : RiskState) (ctx : RiskContext) (user : Bool) : Evaluation :=
  match applicableLimits state ctx with
  | .error exception =>
      { verdict := { allowed := false,
                     reasons := [s!"Risk limits unavailable ({exception}) - order refused"] } }
  | .ok limits =>
      let checks := (strictest limits).map (checkOf digits state ctx)
      { verdict :=
          { allowed := checks.all (·.status != .block)
            reasons := (checks.filter (·.status == .block)).map (·.reason)
            checks
            notes := (checks.filter (·.status == .warn)).map (·.reason) }
        events := checks.map (eventOf ctx)
        consequences :=
          if user && engagesKillSwitch ctx.mode then checks.filterMap (consequenceOf ctx) else [] }

/-! ## What an allowed order respects -/

/-- The limit types whose measure depends on the scope of the row. -/
def countsByScope : RiskLimitType → Bool
  | .maxOpenPositions | .maxTradesPerDay => true
  | _ => false

/-- The trades a count limit counts for its own scope. -/
def scopeCount (state : RiskState) (ctx : RiskContext) (rule : RiskLimit) : Nat :=
  if rule.limitType = .maxOpenPositions then openPositions state ctx rule.scope
  else tradesToday state ctx rule.scope

variable {state : RiskState} {ctx : RiskContext} {rule : RiskLimit}

theorem measure_of_countsByScope (counts : countsByScope rule.limitType = true) :
    (measure state ctx rule).1 = scopeCount state ctx rule + 1 := by
  cases type : rule.limitType <;> simp_all [countsByScope, measure, scopeCount]

/-- Every other measure is the same for all rows of its type. -/
theorem measure_eq_of_limitType {other : RiskLimit} (same : other.limitType = rule.limitType)
    (fixed : ¬ countsByScope rule.limitType = true) :
    measure state ctx other = measure state ctx rule := by
  cases type : rule.limitType <;> simp_all [countsByScope, measure]

/-- The row's own quantity is within its own number. -/
def Respected (state : RiskState) (ctx : RiskContext) (rule : RiskLimit) : Prop :=
  (measure state ctx rule).1 ≤ rule.limitValue

/-- A kept row refuses the order: it cannot be measured, or it is exceeded. -/
def Refuses (state : RiskState) (ctx : RiskContext) (rule : RiskLimit) : Prop :=
  state.raises rule ≠ none ∨ rule.limitValue < (measure state ctx rule).1

theorem statusOf_eq_block : statusOf state ctx rule = .block ↔ Refuses state ctx rule := by
  have blocked : statusOf state ctx rule = .block ↔
      (rule.limitValue : WithTop ℚ) < (measured state ctx rule).1 := by
    simp only [statusOf]
    split_ifs with exceeds
    · exact ⟨fun _ => exceeds, fun _ => rfl⟩
    · refine ⟨fun warned => ?_, fun exceeded => absurd exceeded exceeds⟩
      cases near : state.warnAtPct with
      | none =>
        rw [near] at warned
        cases warned
      | some pct =>
        rw [near] at warned
        simp only at warned
        split_ifs at warned
  rw [blocked, Refuses, measured]
  cases state.raises rule with
  | none => simp
  | some exception => simp

/-- The order is allowed when no kept row refuses it. -/
theorem evaluate_allowed {digits : Digits} {user : Bool} {limits : List RiskLimit}
    (read : applicableLimits state ctx = .ok limits) :
    (evaluate digits state ctx user).verdict.allowed = true ↔
      ∀ rule ∈ strictest limits, ¬ Refuses state ctx rule := by
  simp only [evaluate, read, List.all_eq_true, List.mem_map, forall_exists_index, and_imp,
    forall_apply_eq_imp_iff₂, checkOf, bne_iff_ne, ne_eq, statusOf_eq_block]

theorem evaluate_unreadable {digits : Digits} {user : Bool} {exception : String}
    (failed : applicableLimits state ctx = .error exception) :
    (evaluate digits state ctx user).verdict.allowed = false := by
  simp [evaluate, failed]

/-- The inputs on which an allowed order respects every row: a kept row
refuses the order, or every count row that `strictest` drops has room in
the count of its own scope. -/
def DroppedCountsHold (state : RiskState) (ctx : RiskContext) (limits : List RiskLimit) : Prop :=
  (∃ rule ∈ strictest limits, Refuses state ctx rule) ∨
    ∀ rule ∈ limits, rule ∉ strictest limits → countsByScope rule.limitType = true →
      (scopeCount state ctx rule : ℚ) + 1 ≤ rule.limitValue

/-- `evaluate` allows an order only when every applicable row is respected,
exactly where no dropped count row is overlooked. -/
theorem evaluate_respects_all_iff (digits : Digits) (state : RiskState) (ctx : RiskContext)
    (user : Bool) :
    ((evaluate digits state ctx user).verdict.allowed = true →
        ∀ limits, applicableLimits state ctx = .ok limits → ∀ rule ∈ limits, Respected state ctx rule) ↔
      ∀ limits, applicableLimits state ctx = .ok limits → DroppedCountsHold state ctx limits := by
  cases read : applicableLimits state ctx with
  | error exception => simp [evaluate_unreadable read]
  | ok limits =>
    simp only [evaluate_allowed read, Except.ok.injEq, forall_eq']
    by_cases refused : ∃ rule ∈ strictest limits, Refuses state ctx rule
    · constructor
      · intro _
        exact .inl refused
      · intro _ passed
        obtain ⟨rule, kept, refuses⟩ := refused
        exact absurd refuses (passed rule kept)
    · have passed : ∀ rule ∈ strictest limits, ¬ Refuses state ctx rule := by
        intro rule kept refuses
        exact refused ⟨rule, kept, refuses⟩
      have keptHold : ∀ rule ∈ strictest limits, (measure state ctx rule).1 ≤ rule.limitValue := by
        intro rule kept
        exact not_lt.mp fun exceeds => passed rule kept (.inr exceeds)
      have byType : ∀ rule ∈ limits, ¬ countsByScope rule.limitType = true → ∀ other ∈ limits,
          other.limitType = rule.limitType → (measure state ctx other).1 = (measure state ctx rule).1 := by
        intro rule _ fixed other _ same
        rw [measure_eq_of_limitType same fixed]
      have all := holds_iff_dropped byType keptHold
      simp only [DroppedCountsHold, refused, false_or]
      constructor
      · intro respects rule member dropped counts
        rw [← measure_of_countsByScope counts]
        exact respects passed rule member
      · intro counted _
        refine all.mpr ?_
        intro rule member dropped counts
        rw [measure_of_countsByScope counts]
        exact counted rule member dropped counts

/-- Ten positions of another strategy are open; the tenant's limit of five is
dropped for the strategy's limit of three, and the order is allowed. -/
theorem evaluate_overlooks_tenant_limit :
    ¬ ∀ (digits : Digits) (state : RiskState) (ctx : RiskContext) (user : Bool),
      (evaluate digits state ctx user).verdict.allowed = true →
        ∀ limits, applicableLimits state ctx = .ok limits → ∀ rule ∈ limits, Respected state ctx rule := by
  intro claimed
  let other : Trade :=
    { tenantId := 1, userId := 7, strategyId := "orb", symbol := "INFY", direction := "LONG",
      entryTime := 0, entryPrice := 100, quantity := 1, exitTime := none, pnl := none,
      markPrice := none, markTime := none, deploymentId := none, groupMeta := none }
  let tenantRow : RiskLimit := ⟨1, some 1, .tenant, "", .maxOpenPositions, 5, true⟩
  let strategyRow : RiskLimit := ⟨2, some 1, .strategy, "ema", .maxOpenPositions, 3, true⟩
  let state : RiskState :=
    { rows := .ok [tenantRow, strategyRow], trades := List.replicate 10 other, todayStart := 0,
      raises := fun _ => none, warnAtPct := none }
  let ctx : RiskContext :=
    { tenantId := 1, userId := 7, strategyId := "ema", symbol := "TCS", quantity := 1,
      entry := some 100, stopLoss := some 98, capital := none }
  have allowed : (evaluate ⟨fun _ _ => "", fun _ => ""⟩ state ctx false).verdict.allowed = true := by
    decide +kernel
  have exceeded : ¬ Respected state ctx tenantRow := by
    unfold Respected
    decide +kernel
  exact exceeded (claimed _ state ctx false allowed [tenantRow, strategyRow] (by decide +kernel)
    tenantRow List.mem_cons_self)

end AdvanceTrading.RiskEngine
