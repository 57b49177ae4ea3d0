import AdvanceTrading.Misc.PyText
import AdvanceTrading.Misc.Folds
import Mathlib.Algebra.Order.Group.MinMax
import Mathlib.Data.Int.Order.Basic

/-!
# Subscriptions

Model of `subscribe`, `record_payment`, `cancel` and `sweep` (`app/billing/service.py:109-256`) and
of what the gateway's events do to a subscription (`app/billing/webhooks.py:63-109`): what each of
them makes of the rows it loaded, and what a flush of these rows stores. Instants are whole
microseconds. Invoices, notices and `tenants.status` are left out; the entitlement is `tenants.plan`.
-/

namespace AdvanceTrading.Billing

/-- The ids of `PLANS`. -/
inductive PlanId where
  | free
  | pro
  | business
  deriving DecidableEq

/-- `DEFAULT_PLAN_ID`. -/
def defaultPlanId : PlanId := .free

/-- `get_plan`: an unknown id is the free plan. -/
def getPlan (planId : String) : PlanId :=
  if Py.lower planId = "pro" then .pro else if Py.lower planId = "business" then .business else .free

/-- `trial_days` of a plan. -/
def PlanId.trialDays : PlanId → ℕ
  | .free => 0
  | .pro => 14
  | .business => 14

def dayUs : ℤ := 86400 * 1000000

/-- `GRACE_DAYS`. -/
def graceDays : ℤ := 7

inductive Cycle where
  | monthly
  | yearly
  deriving DecidableEq

/-- `CYCLE_DAYS`. -/
def Cycle.days : Cycle → ℤ
  | .monthly => 30
  | .yearly => 365

/-- The time a payment buys. -/
def Cycle.us (cycle : Cycle) : ℤ := cycle.days * dayUs

inductive Status where
  | trialing
  | active
  | pastDue
  | cancelled
  deriving DecidableEq

/-- `status in (STATUS_ACTIVE, STATUS_TRIALING)`. -/
def Status.runs : Status → Bool
  | .active | .trialing => true
  | .pastDue | .cancelled => false

/-- A `SubscriptionRecord`. -/
structure Subscription where
  planId : PlanId
  billingCycle : Cycle
  status : Status
  currentPeriodStart : Option ℤ
  currentPeriodEnd : Option ℤ
  trialEnd : Option ℤ := none
  graceUntil : Option ℤ := none
  cancelAtPeriodEnd : Bool := false
  cancelledAt : Option ℤ := none
  deriving DecidableEq

/-- The rows of one tenant: its subscription, if it has one, and `tenants.plan`. -/
structure Rows where
  subscription : Option Subscription := none
  plan : PlanId := .free
  deriving DecidableEq

/-! ## What the operations make of the rows they loaded -/

/-- The row of a first subscription. -/
def newSubscription (plan : PlanId) (cycle : Cycle) (now : ℤ) : Subscription where
  planId := plan
  billingCycle := cycle
  status := if plan.trialDays = 0 then .pastDue else .trialing
  currentPeriodStart := some now
  currentPeriodEnd := some (now + if plan.trialDays = 0 then cycle.us else plan.trialDays * dayUs)
  trialEnd := if plan.trialDays = 0 then none else some (now + plan.trialDays * dayUs)

/-- `subscribe`. The free plan is refused. -/
def subscribe (planId : String) (cycle : Cycle) (now : ℤ) (rows : Rows) : Option Rows :=
  let plan := getPlan planId
  if plan = defaultPlanId then none
  else
    match rows.subscription with
    | none =>
        some ⟨some (newSubscription plan cycle now), if plan.trialDays = 0 then rows.plan else plan⟩
    | some existing =>
        some ⟨some { existing with planId := plan, billingCycle := cycle, cancelAtPeriodEnd := false },
          if existing.status.runs then plan else rows.plan⟩

/-- The base the new period is counted from. -/
def paymentBase (sub : Subscription) (now : ℤ) : ℤ :=
  if sub.status.runs then max now (sub.currentPeriodEnd.getD now) else now

/-- The subscription a payment leaves. -/
def Subscription.paid (now : ℤ) (sub : Subscription) : Subscription :=
  { sub with
    currentPeriodStart := some now
    currentPeriodEnd := some (paymentBase sub now + sub.billingCycle.us)
    graceUntil := none
    status := .active }

/-- `record_payment` of a reference that is not booked. -/
def recordPayment (now : ℤ) (rows : Rows) : Option Rows :=
  rows.subscription.map fun sub => ⟨some (sub.paid now), sub.planId⟩

def Subscription.cancelled (now : ℤ) (sub : Subscription) : Subscription :=
  { sub with status := .cancelled, cancelledAt := some now }

/-- `cancel`. -/
def cancel (immediately : Bool) (now : ℤ) (rows : Rows) : Option Rows :=
  rows.subscription.map fun sub =>
    if immediately || sub.status == .pastDue || sub.status == .trialing then ⟨some (sub.cancelled now), defaultPlanId⟩
    else ⟨some { sub with cancelAtPeriodEnd := true }, rows.plan⟩

def Subscription.pastDue (now : ℤ) (sub : Subscription) : Subscription :=
  { sub with status := .pastDue, graceUntil := some (now + graceDays * dayUs) }

/-- What `sweep` makes of one subscription and its tenant. -/
def sweepOne (now : ℤ) (sub : Subscription) (plan : PlanId) : Subscription × PlanId :=
  match sub.currentPeriodEnd with
  | none => (sub, plan)
  | some periodEnd =>
    if now < periodEnd then (sub, plan)
    else if sub.cancelAtPeriodEnd then (sub.cancelled now, defaultPlanId)
    else if sub.status.runs then (sub.pastDue now, plan)
    else if sub.status = .pastDue ∧ sub.graceUntil.any (· ≤ now) then (sub.cancelled now, defaultPlanId)
    else (sub, plan)

/-- `sweep` on the tenant's rows: cancelled subscriptions are not read. -/
def sweep (now : ℤ) (rows : Rows) : Rows :=
  match rows.subscription with
  | none => rows
  | some sub =>
    if sub.status = .cancelled then rows
    else ⟨some (sweepOne now sub rows.plan).1, (sweepOne now sub rows.plan).2⟩

/-- `subscription.halted` and `subscription.pending`. -/
def halted (now : ℤ) (rows : Rows) : Rows :=
  match rows.subscription with
  | some sub => if sub.status.runs then { rows with subscription := some (sub.pastDue now) } else rows
  | none => rows

/-- `subscription.cancelled` and `subscription.completed`. -/
def gatewayCancelled (now : ℤ) (rows : Rows) : Rows :=
  match rows.subscription with
  | some sub => if sub.status = .cancelled then rows else ⟨some (sub.cancelled now), defaultPlanId⟩
  | none => rows

/-! ## Flushes -/

/-- The stored subscription after a flush: the columns that were changed are written. -/
def Subscription.write (loaded new stored : Subscription) : Subscription where
  planId := flushed loaded.planId new.planId stored.planId
  billingCycle := flushed loaded.billingCycle new.billingCycle stored.billingCycle
  status := flushed loaded.status new.status stored.status
  currentPeriodStart := flushed loaded.currentPeriodStart new.currentPeriodStart stored.currentPeriodStart
  currentPeriodEnd := flushed loaded.currentPeriodEnd new.currentPeriodEnd stored.currentPeriodEnd
  trialEnd := flushed loaded.trialEnd new.trialEnd stored.trialEnd
  graceUntil := flushed loaded.graceUntil new.graceUntil stored.graceUntil
  cancelAtPeriodEnd := flushed loaded.cancelAtPeriodEnd new.cancelAtPeriodEnd stored.cancelAtPeriodEnd
  cancelledAt := flushed loaded.cancelledAt new.cancelledAt stored.cancelledAt

/-- A row nobody else changed is stored as the session holds it. -/
@[simp] theorem Subscription.write_fresh (loaded new : Subscription) : Subscription.write loaded new loaded = new := by
  simp [Subscription.write, flushed_fresh]

/-- A payment writes the new end of the period when it lies after the one that was loaded. -/
theorem paid_end_written {loaded stored : Subscription} {now : ℤ}
    (later : ∀ periodEnd, loaded.currentPeriodEnd = some periodEnd →
      periodEnd < paymentBase loaded now + loaded.billingCycle.us) :
    (Subscription.write loaded (loaded.paid now) stored).currentPeriodEnd =
      some (paymentBase loaded now + loaded.billingCycle.us) := by
  apply flushed_changed
  intro same
  have less := later _ same.symm
  exact absurd less (lt_irrefl _)

theorem Cycle.us_pos (cycle : Cycle) : 0 < cycle.us := by
  cases cycle
  · decide
  · decide

end AdvanceTrading.Billing
