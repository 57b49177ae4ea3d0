import AdvanceTrading.Billing.Service
import AdvanceTrading.Misc.Processes

/-!
# Entitlement

Runs of `subscribe`, `record_payment`, `cancel`, `sweep` and the gateway's events for one tenant.
An operation loads the rows, decides what to make of them and commits the columns it changed. Where
no operation commits over rows another one changed after it loaded them, `tenants.plan` follows the
subscription after each sweep, and what is paid for is kept until its end, unless the gateway halts
the subscription before.
-/

namespace AdvanceTrading.Billing

/-- The operations; a payment may have a reference. -/
inductive Operation (κ : Type) where
  | subscribe (planId : String) (cycle : Cycle)
  | recordPayment (reference : Option κ)
  | cancel (immediately : Bool)
  | sweep
  | halted
  | gatewayCancelled
  deriving DecidableEq

variable {κ : Type}

/-- What an operation makes of the rows it loaded. `subscribe` and `sweep` read the clock before they load, the others
after; `none` is a refusal. -/
def Operation.made (started now : ℤ) (duplicate : Bool) (rows : Rows) : Operation κ → Option Rows
  | .subscribe planId cycle => Billing.subscribe planId cycle started rows
  | .recordPayment _ => if duplicate then rows.subscription.map fun _ => rows else Billing.recordPayment now rows
  | .cancel immediately => Billing.cancel immediately now rows
  | .sweep => some (Billing.sweep started rows)
  | .halted => some (Billing.halted now rows)
  | .gatewayCancelled => some (Billing.gatewayCancelled now rows)

/-- The stored rows after a commit; a second first subscription breaks the unique key. -/
def Rows.write (loaded made stored : Rows) : Option Rows :=
  match loaded.subscription, made.subscription with
  | none, some new =>
      match stored.subscription with
      | none => some ⟨some new, flushed loaded.plan made.plan stored.plan⟩
      | some _ => none
  | some old, some new => some ⟨stored.subscription.map (Subscription.write old new),
      flushed loaded.plan made.plan stored.plan⟩
  | _, none => some ⟨stored.subscription, flushed loaded.plan made.plan stored.plan⟩

/-- The tenant's rows, the references that are booked and the clock. Beside them, for the statements only: the time of
the sweep nothing was changed after, and the end of the period of the latest payment that no cancellation followed. -/
structure Account (κ : Type) where
  rows : Rows := {}
  references : List κ := []
  clock : ℤ := 0
  swept : Option ℤ := none
  paidUntil : Option ℤ := none

/-- An operation that has decided. -/
structure Decision (κ : Type) where
  operation : Operation κ
  started : ℤ
  now : ℤ
  duplicate : Bool
  loaded : Rows
  made : Rows
  decided : operation.made started now duplicate loaded = some made

inductive Stage (κ : Type) where
  | idle
  | loaded (operation : Operation κ) (started : ℤ) (rows : Rows)
  | decided (decision : Decision κ)

inductive Step (κ : Type) where
  | load (operation : Operation κ) (started : ℤ)
  | decide (now : ℤ)
  | commit
  | fail

/-- The payment is booked already. -/
def Operation.duplicate [DecidableEq κ] (references : List κ) : Operation κ → Bool
  | .recordPayment (some reference) => decide (reference ∈ references)
  | _ => false

/-- The operation is a payment that is not booked yet. -/
def Decision.books (d : Decision κ) : Bool :=
  match d.operation with
  | .recordPayment _ => !d.duplicate
  | _ => false

def Rows.isCancelled (rows : Rows) : Bool := rows.subscription.any (·.status == .cancelled)

/-- The end of the period that is paid for, after a commit. -/
def Decision.paidUntil (d : Decision κ) (before : Option ℤ) : Option ℤ :=
  if d.books then d.made.subscription.bind (·.currentPeriodEnd)
  else if d.made.isCancelled && !d.loaded.isCancelled then none
  else before

def Decision.references (d : Decision κ) (before : List κ) : List κ :=
  match d.operation with
  | .recordPayment (some reference) => if d.duplicate then before else reference :: before
  | _ => before

def Operation.isSweep : Operation κ → Bool
  | .sweep => true
  | _ => false

def Decision.swept (d : Decision κ) (before : Option ℤ) : Option ℤ :=
  if d.operation.isSweep then some d.started else if d.made = d.loaded then before else none

def Account.commit (s : Account κ) (d : Decision κ) : Option (Account κ) :=
  (Rows.write d.loaded d.made s.rows).map fun rows =>
    { s with
      rows := rows
      references := d.references s.references
      swept := d.swept s.swept
      paidUntil := d.paidUntil s.paidUntil }

variable [DecidableEq κ]

def accountStatement (s : Account κ) (p : Stage κ) : Step κ → Option (Account κ × Stage κ)
  | .load operation started =>
      match p with
      | .idle => if started ≤ s.clock then some (s, .loaded operation started s.rows) else none
      | _ => none
  | .decide now =>
      match p with
      | .loaded operation started rows =>
          if now ≤ s.clock then
            match decided : operation.made started now (operation.duplicate s.references) rows with
            | some made => some (s, .decided ⟨operation, started, now, _, rows, made, decided⟩)
            | none => some (s, .idle)
          else none
      | _ => none
  | .commit =>
      match p with
      -- A commit that breaks the unique key is rolled back.
      | .decided d => some ((s.commit d).getD s, .idle)
      | _ => none
  | .fail => some (s, .idle)

/-- The clock goes on. -/
def tick (s : Account κ) (now : ℤ) : Option (Account κ) :=
  if s.clock ≤ now then some { s with clock := now } else none

/-- Any number of sessions, each with one operation after the other. -/
def account (n : ℕ) : Machine (Procs (Account κ) (Stage κ) n) (ProcEvent n (Step κ) ℤ) :=
  Procs.interleave accountStatement tick n

/-- A tenant on the free plan. -/
def newTenant (κ : Type) (n : ℕ) : Procs (Account κ) (Stage κ) n := ⟨{}, fun _ => .idle⟩

/-! ## What is to hold -/

/-- A paid plan rests on a subscription that runs, or on one past due within its period or its grace. -/
def Entitled (t : ℤ) (rows : Rows) : Prop :=
  rows.plan ≠ .free → ∃ sub ∈ rows.subscription,
    (sub.status.runs = true ∧ ∃ periodEnd ∈ sub.currentPeriodEnd, t < periodEnd) ∨
      (sub.status = .pastDue ∧
        ((∃ periodEnd ∈ sub.currentPeriodEnd, t < periodEnd) ∨ ∃ grace ∈ sub.graceUntil, t < grace))

/-- After a sweep the tenant is entitled to its plan; a cancelled subscription means the free plan. -/
structure Follows (s : Account κ) : Prop where
  swept : ∀ t ∈ s.swept, Entitled t s.rows
  cancelled : ∀ sub ∈ s.rows.subscription, sub.status = .cancelled → s.rows.plan = .free

/-- Until the end of what is paid for the subscription is active and the tenant on its plan. -/
def KeepsPaid (s : Account κ) : Prop :=
  ∀ periodEnd ∈ s.paidUntil, s.clock < periodEnd →
    ∃ sub ∈ s.rows.subscription, sub.status = .active ∧ s.rows.plan = sub.planId

/-- The rows that are committed over are those the operation loaded; or it is no sweep and changes nothing. -/
def FreshAt (s : Account κ) (p : Stage κ) : Step κ → Prop
  | .commit =>
      match p with
      | .decided d => s.rows = d.loaded ∨ d.operation.isSweep = false ∧ d.made = d.loaded
      | _ => True
  | _ => True

instance decidableFreshAt (s : Account κ) (p : Stage κ) (step : Step κ) : Decidable (FreshAt s p step) :=
  match step, p with
  | .commit, .decided _ => inferInstanceAs (Decidable (_ ∨ _ ∧ _))
  | .commit, .idle | .commit, .loaded .. | .load .., _ | .decide _, _ | .fail, _ => isTrue trivial

def Fresh {n : ℕ} (w : Procs (Account κ) (Stage κ) n) : ProcEvent n (Step κ) ℤ → Prop
  | .act who step => FreshAt w.shared (w.point who) step
  | .outside _ => True

instance decidableFresh {n : ℕ} (w : Procs (Account κ) (Stage κ) n)
    (e : ProcEvent n (Step κ) ℤ) : Decidable (Fresh w e) :=
  match e with
  | .act who step => decidableFreshAt w.shared (w.point who) step
  | .outside _ => isTrue trivial

/-- The gateway halts no subscription that is paid for. -/
def UnhaltedAt (s : Account κ) (p : Stage κ) : Step κ → Prop
  | .commit =>
      match p with
      | .decided d => d.operation = .halted → ∀ periodEnd ∈ s.paidUntil, periodEnd ≤ s.clock
      | _ => True
  | _ => True

instance decidableUnhaltedAt (s : Account κ) (p : Stage κ) (step : Step κ) : Decidable (UnhaltedAt s p step) :=
  match step, p with
  | .commit, .decided _ => inferInstanceAs (Decidable (_ → ∀ _ ∈ _, _))
  | .commit, .idle | .commit, .loaded .. | .load .., _ | .decide _, _ | .fail, _ => isTrue trivial

def Unhalted {n : ℕ} (w : Procs (Account κ) (Stage κ) n) : ProcEvent n (Step κ) ℤ → Prop
  | .act who step => UnhaltedAt w.shared (w.point who) step
  | .outside _ => True

instance decidableUnhalted {n : ℕ} (w : Procs (Account κ) (Stage κ) n) (e : ProcEvent n (Step κ) ℤ) :
    Decidable (Unhalted w e) :=
  match e with
  | .act who step => decidableUnhaltedAt w.shared (w.point who) step
  | .outside _ => isTrue trivial

/-! ## The rows -/

/-- What every operation keeps of the rows. -/
structure Valid (rows : Rows) : Prop where
  unsubscribed : rows.subscription = none → rows.plan = .free
  cancelled : ∀ sub ∈ rows.subscription, sub.status = .cancelled → rows.plan = .free
  /-- Past due without grace: it was never paid. -/
  unpaid : ∀ sub ∈ rows.subscription, sub.status = .pastDue → sub.graceUntil = none → rows.plan = .free
  ends : ∀ sub ∈ rows.subscription, ∃ periodEnd, sub.currentPeriodEnd = some periodEnd

variable {rows made : Rows} {sub : Subscription} {plan : PlanId}

/-- Rows with a subscription are judged by it. -/
theorem valid_some (cancelled : sub.status = .cancelled → plan = .free)
    (unpaid : sub.status = .pastDue → sub.graceUntil = none → plan = .free)
    (ends : ∃ periodEnd, sub.currentPeriodEnd = some periodEnd) : Valid ⟨some sub, plan⟩ where
  unsubscribed := nofun
  cancelled := by
    rintro _ ⟨⟩
    exact cancelled
  unpaid := by
    rintro _ ⟨⟩
    exact unpaid
  ends := by
    rintro _ ⟨⟩
    exact ends

variable {now : ℤ} {cycle : Cycle}

theorem valid_newSubscription (unsubscribed : rows.plan = .free) :
    Valid ⟨some (newSubscription plan cycle now), if plan.trialDays = 0 then rows.plan else plan⟩ := by
  by_cases noTrial : plan.trialDays = 0
  · rw [if_pos noTrial]
    exact valid_some (fun _ => unsubscribed) (fun _ _ => unsubscribed) ⟨_, rfl⟩
  · have status : (newSubscription plan cycle now).status = .trialing := if_neg noTrial
    refine valid_some (fun cancelled => ?_) (fun pastDue _ => ?_) ⟨_, rfl⟩
    · rw [status] at cancelled
      cases cancelled
    · rw [status] at pastDue
      cases pastDue

theorem valid_subscribe {planId : String} (valid : Valid rows)
    (changed : subscribe planId cycle now rows = some made) : Valid made := by
  unfold subscribe at changed
  by_cases free : getPlan planId = defaultPlanId
  · rw [if_pos free] at changed
    cases changed
  · rw [if_neg free] at changed
    split at changed
    next first =>
      cases changed
      exact valid_newSubscription (valid.unsubscribed first)
    next existing isExisting =>
      cases changed
      refine valid_some (fun cancelled => ?_) (fun pastDue noGrace => ?_) (valid.ends existing isExisting)
      · rw [show existing.status = .cancelled from cancelled]
        exact valid.cancelled existing isExisting cancelled
      · rw [show existing.status = .pastDue from pastDue]
        exact valid.unpaid existing isExisting pastDue noGrace

theorem valid_recordPayment (changed : recordPayment now rows = some made) : Valid made := by
  obtain ⟨sub, -, rfl⟩ := Option.map_eq_some_iff.mp changed
  exact valid_some nofun nofun ⟨_, rfl⟩

theorem valid_cancelled (valid : Valid rows) (isSub : sub ∈ rows.subscription) :
    Valid ⟨some (sub.cancelled now), defaultPlanId⟩ :=
  valid_some (fun _ => rfl) (fun _ _ => rfl) (valid.ends sub isSub)

theorem valid_pastDue (valid : Valid rows) (isSub : sub ∈ rows.subscription) :
    Valid ⟨some (sub.pastDue now), plan⟩ :=
  valid_some nofun nofun (valid.ends sub isSub)

theorem valid_cancel {immediately : Bool} (valid : Valid rows)
    (changed : cancel immediately now rows = some made) : Valid made := by
  obtain ⟨sub, isSub, rfl⟩ := Option.map_eq_some_iff.mp changed
  split_ifs
  · exact valid_cancelled valid isSub
  · exact valid_some (valid.cancelled sub isSub) (valid.unpaid sub isSub) (valid.ends sub isSub)

theorem valid_sweep (valid : Valid rows) : Valid (sweep now rows) := by
  unfold sweep
  split
  next => exact valid
  next sub isSub =>
    have kept : Valid ⟨some sub, rows.plan⟩ := by
      rw [← isSub]
      exact valid
    split_ifs
    · exact valid
    · unfold sweepOne
      split
      next => exact kept
      next periodEnd ends =>
        split_ifs
        · exact kept
        · exact valid_cancelled valid isSub
        · exact valid_pastDue valid isSub
        · exact valid_cancelled valid isSub
        · exact kept

theorem valid_halted (valid : Valid rows) : Valid (halted now rows) := by
  unfold halted
  split
  next sub isSub =>
    split_ifs
    · exact valid_pastDue valid isSub
    · exact valid
  next => exact valid

theorem valid_gatewayCancelled (valid : Valid rows) : Valid (gatewayCancelled now rows) := by
  unfold gatewayCancelled
  split
  next sub isSub =>
    split_ifs
    · exact valid
    · exact valid_cancelled valid isSub
  next => exact valid

omit [DecidableEq κ] in
theorem valid_made {operation : Operation κ} {started : ℤ} {duplicate : Bool} (valid : Valid rows)
    (decided : operation.made started now duplicate rows = some made) : Valid made := by
  cases operation with
  | subscribe planId cycle => exact valid_subscribe valid decided
  | recordPayment reference =>
    rw [Operation.made] at decided
    split_ifs at decided
    · obtain ⟨sub, -, rfl⟩ := Option.map_eq_some_iff.mp decided
      exact valid
    · exact valid_recordPayment decided
  | cancel immediately => exact valid_cancel valid decided
  | sweep =>
    cases decided
    exact valid_sweep valid
  | halted =>
    cases decided
    exact valid_halted valid
  | gatewayCancelled =>
    cases decided
    exact valid_gatewayCancelled valid

/-- What a sweep leaves is entitled at its time. -/
theorem entitled_sweep {t : ℤ} (valid : Valid rows) : Entitled t (sweep t rows) := by
  intro paid
  unfold sweep at paid ⊢
  split
  next none =>
    rw [none] at paid
    exact absurd (valid.unsubscribed none) paid
  next sub isSub =>
    simp only [isSub] at paid
    obtain ⟨periodEnd, ends⟩ := valid.ends sub isSub
    split_ifs at paid ⊢ with cancelled
    · exact absurd (valid.cancelled sub isSub cancelled) paid
    · unfold sweepOne at paid ⊢
      rw [ends] at paid ⊢
      dsimp only at paid ⊢
      refine ⟨_, rfl, ?_⟩
      split_ifs at paid ⊢ with within periodEnds runs lapsed
      · cases status : sub.status with
        | trialing => exact Or.inl ⟨rfl, periodEnd, ends, within⟩
        | active => exact Or.inl ⟨rfl, periodEnd, ends, within⟩
        | pastDue => exact Or.inr ⟨rfl, Or.inl ⟨periodEnd, ends, within⟩⟩
        | cancelled => exact absurd status cancelled
      · exact absurd rfl paid
      · refine Or.inr ⟨rfl, Or.inr ⟨_, rfl, ?_⟩⟩
        have week : 0 < graceDays * dayUs := by decide
        omega
      · exact absurd rfl paid
      · cases status : sub.status with
        | trialing => exact absurd (by rw [status]; rfl) runs
        | active => exact absurd (by rw [status]; rfl) runs
        | cancelled => exact absurd status cancelled
        | pastDue =>
          refine Or.inr ⟨rfl, Or.inr ?_⟩
          cases grace : sub.graceUntil with
          | none => exact absurd (valid.unpaid sub isSub status grace) paid
          | some graceUntil =>
            refine ⟨graceUntil, rfl, not_le.mp fun late => lapsed ⟨status, ?_⟩⟩
            rw [grace]
            simpa using late

/-! ## What is paid for -/

/-- The subscription is active on the tenant's plan, until then. -/
def PaidUp (periodEnd : ℤ) (rows : Rows) : Prop :=
  ∃ sub, rows.subscription = some sub ∧ sub.status = .active ∧ rows.plan = sub.planId ∧
    sub.currentPeriodEnd = some periodEnd

variable {d : Decision κ} {periodEnd : ℤ}

omit [DecidableEq κ] in
/-- A payment that is booked makes the tenant paid up to its end. -/
theorem paidUp_books (books : d.books = true)
    (ends : d.made.subscription.bind (·.currentPeriodEnd) = some periodEnd) :
    PaidUp periodEnd d.made := by
  obtain ⟨operation, started, now, duplicate, loaded, made, decided⟩ := d
  cases operation with
  | recordPayment reference =>
    cases duplicate with
    | true => cases books
    | false =>
      obtain ⟨sub, -, rfl⟩ := Option.map_eq_some_iff.mp decided
      exact ⟨sub.paid now, rfl, rfl, rfl, ends⟩
  | _ => cases books

omit [DecidableEq κ] in
/-- Before its end nothing but a cancellation or a halt takes away what is paid for. -/
theorem paidUp_kept (paidUp : PaidUp periodEnd d.loaded) (early : d.started < periodEnd)
    (books : d.books = false) (cancels : (d.made.isCancelled && !d.loaded.isCancelled) = false)
    (halts : d.operation ≠ .halted) : PaidUp periodEnd d.made := by
  obtain ⟨operation, started, now, duplicate, ⟨subscription, plan⟩, made, decided⟩ := d
  obtain ⟨sub, isSub, active, same, ends⟩ := paidUp
  dsimp only at isSub same early decided cancels halts
  subst isSub
  -- The subscription was not cancelled, so it still is not.
  have kept : made.isCancelled = false := by
    rw [show Rows.isCancelled ⟨some sub, plan⟩ = false by simp [Rows.isCancelled, active]] at cancels
    simpa using cancels
  cases operation with
  | subscribe planId cycle =>
    rw [Operation.made, subscribe] at decided
    by_cases free : getPlan planId = defaultPlanId
    · rw [if_pos free] at decided
      cases decided
    · rw [if_neg free] at decided
      cases decided
      refine ⟨_, rfl, active, ?_, ends⟩
      show (if sub.status.runs = true then getPlan planId else plan) = getPlan planId
      rw [active]
      rfl
  | recordPayment reference =>
    cases duplicate with
    | true =>
      cases decided
      exact ⟨sub, rfl, active, same, ends⟩
    | false => cases books
  | cancel immediately =>
    rw [Operation.made, cancel, Option.map_some, active] at decided
    cases immediately with
    | true =>
      cases decided
      cases kept
    | false =>
      cases decided
      exact ⟨_, rfl, rfl, same, ends⟩
  | sweep =>
    cases decided
    refine ⟨sub, ?_, active, ?_, ends⟩
    · simp [sweep, active, sweepOne, ends, early]
    · simp [sweep, active, sweepOne, ends, early, same]
  | halted => exact absurd rfl halts
  | gatewayCancelled =>
    cases decided
    rw [gatewayCancelled] at kept
    simp [active, Rows.isCancelled, Subscription.cancelled] at kept

omit [DecidableEq κ] in
/-- A payment that is booked changes the subscription. -/
theorem books_changes (books : d.books = true) : d.made ≠ d.loaded := by
  obtain ⟨operation, started, now, duplicate, loaded, made, decided⟩ := d
  cases operation with
  | recordPayment reference =>
    cases duplicate with
    | true => cases books
    | false =>
      obtain ⟨sub, isSub, rfl⟩ := Option.map_eq_some_iff.mp decided
      intro same
      have subs : some (sub.paid now) = some sub := by
        rw [← isSub]
        exact congrArg Rows.subscription same
      -- It was active before, so its period ended earlier.
      have fields := Option.some.inj subs
      have active : sub.status = .active := (congrArg Subscription.status fields).symm
      have ends : sub.currentPeriodEnd = some (paymentBase sub now + sub.billingCycle.us) :=
        (congrArg Subscription.currentPeriodEnd fields).symm
      have base : paymentBase sub now = max now (paymentBase sub now + sub.billingCycle.us) := by
        conv_lhs => rw [paymentBase, active, ends]
        rfl
      have cycle := sub.billingCycle.us_pos
      have least : paymentBase sub now + sub.billingCycle.us ≤ paymentBase sub now := by
        conv_rhs => rw [base]
        exact le_max_right _ _
      omega
  | _ => cases books

/-! ## Commits -/

omit [DecidableEq κ] in
/-- An operation keeps a subscription. -/
theorem made_subscription (nothing : d.made.subscription = none) :
    d.loaded.subscription = none := by
  obtain ⟨operation, started, now, duplicate, ⟨subscription, plan⟩, made, decided⟩ := d
  cases subscription with
  | none => rfl
  | some sub =>
    dsimp only at nothing decided
    cases operation with
    | subscribe planId cycle =>
      rw [Operation.made, subscribe] at decided
      by_cases free : getPlan planId = defaultPlanId
      · rw [if_pos free] at decided
        cases decided
      · rw [if_neg free] at decided
        cases decided
        cases nothing
    | recordPayment reference =>
      cases duplicate with
      | true =>
        cases decided
        cases nothing
      | false =>
        cases decided
        cases nothing
    | cancel immediately =>
      rw [Operation.made, cancel, Option.map_some] at decided
      cases decided
      split_ifs at nothing
    | sweep =>
      cases decided
      rw [sweep] at nothing
      dsimp only at nothing
      split_ifs at nothing
    | halted =>
      cases decided
      rw [halted] at nothing
      dsimp only at nothing
      split_ifs at nothing
    | gatewayCancelled =>
      cases decided
      rw [gatewayCancelled] at nothing
      dsimp only at nothing
      split_ifs at nothing

theorem write_fresh {loaded made : Rows} (kept : made.subscription = none → loaded.subscription = none) :
    Rows.write loaded made loaded = some made := by
  obtain ⟨old, oldPlan⟩ := loaded
  obtain ⟨new, newPlan⟩ := made
  cases new with
  | none =>
    obtain rfl : old = none := kept rfl
    rw [Rows.write, flushed_fresh]
  | some new =>
    cases old with
    | none => rw [Rows.write, flushed_fresh]
    | some old =>
      rw [Rows.write, flushed_fresh]
      show some (Rows.mk (some (Subscription.write old new old)) newPlan) = _
      rw [Subscription.write_fresh]

/-- Rows that were not changed are not written. -/
theorem write_same (loaded stored : Rows) : Rows.write loaded loaded stored = some stored := by
  obtain ⟨old, oldPlan⟩ := loaded
  obtain ⟨subscription, plan⟩ := stored
  cases old with
  | none => rw [Rows.write, flushed_same]
  | some old =>
    rw [Rows.write, flushed_same]
    have same (sub : Subscription) : Subscription.write old old sub = sub := by simp [Subscription.write]
    simp only [show Subscription.write old old = id from funext same, Option.map_id_fun, id]

/-! ## Runs -/

variable {n : ℕ} {w t : Procs (Account κ) (Stage κ) n} {s s' : Account κ} {p p' : Stage κ}

/-- An operation started in the past. -/
def Began (s : Account κ) : Stage κ → Prop
  | .idle => True
  | .loaded _ started _ => started ≤ s.clock
  | .decided d => d.started ≤ s.clock

/-- What the statements keep of the account. -/
structure Ordered (s : Account κ) : Prop where
  valid : Valid s.rows
  swept : ∀ t ∈ s.swept, Entitled t s.rows

/-- What is paid for is kept. -/
def Promised (s : Account κ) : Prop := ∀ periodEnd ∈ s.paidUntil, s.clock < periodEnd → PaidUp periodEnd s.rows

omit [DecidableEq κ] in
/-- A commit over the rows that were loaded stores what was made of them. -/
theorem commit_fresh (fresh : s.rows = d.loaded) :
    s.commit d = some { s with
      rows := d.made
      references := d.references s.references
      swept := d.swept s.swept
      paidUntil := d.paidUntil s.paidUntil } := by
  rw [Account.commit, fresh, write_fresh made_subscription]
  rfl

omit [DecidableEq κ] in
/-- A commit of an operation that changes nothing leaves the rows. -/
theorem commit_same (same : d.made = d.loaded) :
    s.commit d = some { s with
      references := d.references s.references
      swept := d.swept s.swept
      paidUntil := d.paidUntil s.paidUntil } := by
  rw [Account.commit, same, write_same]
  rfl

omit [DecidableEq κ] in
theorem ordered_commit (ordered : Ordered s)
    (fresh : s.rows = d.loaded ∨ d.operation.isSweep = false ∧ d.made = d.loaded) :
    Ordered ((s.commit d).getD s) := by
  rcases fresh with fresh | ⟨other, same⟩
  · rw [commit_fresh fresh]
    have loadedValid : Valid d.loaded := fresh ▸ ordered.valid
    have valid : Valid d.made := valid_made loadedValid d.decided
    refine ⟨valid, fun t isSwept => ?_⟩
    replace isSwept : d.swept s.swept = some t := isSwept
    rw [Decision.swept] at isSwept
    split_ifs at isSwept with isSweep unchanged
    · cases isSwept
      obtain ⟨operation, started, now, duplicate, loaded, made, decided⟩ := d
      cases operation with
      | sweep =>
        cases decided
        exact entitled_sweep loadedValid
      | _ => cases isSweep
    · show Entitled t d.made
      rw [unchanged, ← fresh]
      exact ordered.swept t isSwept
  · rw [commit_same same]
    refine ⟨ordered.valid, fun t isSwept => ordered.swept t ?_⟩
    replace isSwept : d.swept s.swept = some t := isSwept
    rwa [Decision.swept, other, if_neg Bool.false_ne_true, if_pos same] at isSwept

omit [DecidableEq κ] in
theorem promised_commit (promised : Promised s) (began : d.started ≤ s.clock)
    (fresh : s.rows = d.loaded ∨ d.operation.isSweep = false ∧ d.made = d.loaded)
    (unhalted : d.operation = .halted → ∀ periodEnd ∈ s.paidUntil, periodEnd ≤ s.clock) :
    Promised ((s.commit d).getD s) := by
  rcases fresh with fresh | ⟨-, same⟩
  · rw [commit_fresh fresh]
    intro periodEnd isPaid early
    replace isPaid : d.paidUntil s.paidUntil = some periodEnd := isPaid
    replace early : s.clock < periodEnd := early
    rw [Decision.paidUntil] at isPaid
    split_ifs at isPaid with books cancels
    · exact paidUp_books books isPaid
    · have halts : d.operation ≠ .halted := fun halts => absurd (unhalted halts periodEnd isPaid) (not_le.mpr early)
      exact paidUp_kept (fresh ▸ promised periodEnd isPaid early) (by omega) (Bool.eq_false_iff.mpr books)
        (Bool.eq_false_iff.mpr cancels) halts
  · rw [commit_same same]
    intro periodEnd isPaid early
    replace isPaid : d.paidUntil s.paidUntil = some periodEnd := isPaid
    have unbooked : d.books = false := by
      by_contra books
      exact books_changes (Bool.not_eq_false _ ▸ books) same
    refine promised periodEnd ?_ early
    rwa [Decision.paidUntil, unbooked, same, Bool.and_not_self, if_neg Bool.false_ne_true,
      if_neg Bool.false_ne_true] at isPaid

omit [DecidableEq κ] in
@[simp] theorem commit_clock (d : Decision κ) : ((s.commit d).getD s).clock = s.clock := by
  rw [Account.commit]
  cases Rows.write d.loaded d.made s.rows with
  | none => rfl
  | some rows => rfl

/-- What a statement leaves the same, or what it commits. -/
theorem statement_cases {step : Step κ} (began : Began s p) (ran : accountStatement s p step = some (s', p')) :
    Began s' p' ∧ s'.clock = s.clock ∧
      (s' = s ∨ ∃ d, step = .commit ∧ p = .decided d ∧ s' = (s.commit d).getD s) := by
  cases step with
  | load operation started =>
    cases p with
    | idle =>
      rw [accountStatement] at ran
      split_ifs at ran with past
      cases ran
      exact ⟨past, rfl, Or.inl rfl⟩
    | _ => cases ran
  | decide now =>
    cases p with
    | loaded operation started rows =>
      rw [accountStatement] at ran
      split_ifs at ran
      split at ran
      next made decided =>
        cases ran
        exact ⟨began, rfl, Or.inl rfl⟩
      next =>
        cases ran
        exact ⟨trivial, rfl, Or.inl rfl⟩
    | _ => cases ran
  | commit =>
    cases p with
    | decided d =>
      cases ran
      exact ⟨trivial, commit_clock d, Or.inr ⟨d, rfl, rfl, rfl⟩⟩
    | _ => cases ran
  | fail =>
    cases ran
    exact ⟨trivial, rfl, Or.inl rfl⟩

/-- The account is in order and every operation started in the past. -/
def InOrder (w : Procs (Account κ) (Stage κ) n) : Prop := Ordered w.shared ∧ ∀ q, Began w.shared (w.point q)

omit [DecidableEq κ] in
theorem Began.later (began : Began s p) (later : s.clock ≤ s'.clock) : Began s' p := by
  cases p with
  | idle => trivial
  | loaded operation started rows => exact le_trans began later
  | decided d => exact le_trans began later

theorem inOrder_step {e : ProcEvent n (Step κ) ℤ} (kept : InOrder w) (fresh : Fresh w e)
    (stepped : (account n).step w e = some t) : InOrder t := by
  obtain ⟨ordered, began⟩ := kept
  cases e with
  | act who step =>
    obtain ⟨s', p', ran, rfl⟩ := Procs.act_eq stepped
    obtain ⟨start, clock, leaves⟩ := statement_cases (began who) ran
    refine ⟨?_, Procs.forall_move (fun q _ => (began q).later clock.ge) start⟩
    rcases leaves with same | ⟨d, isCommit, decided, committed⟩
    · rw [Procs.move_shared, same]
      exact ordered
    · rw [Procs.move_shared, committed]
      subst isCommit
      rw [Fresh, decided] at fresh
      exact ordered_commit ordered fresh
  | outside now =>
    obtain ⟨s', ran, rfl⟩ := Procs.outside_eq stepped
    rw [tick] at ran
    split_ifs at ran with later
    cases ran
    exact ⟨⟨ordered.valid, ordered.swept⟩, fun q => (began q).later later⟩

theorem promised_step {e : ProcEvent n (Step κ) ℤ} (kept : InOrder w) (promised : Promised w.shared) (fresh : Fresh w e)
    (unhalted : Unhalted w e) (stepped : (account n).step w e = some t) : Promised t.shared := by
  cases e with
  | act who step =>
    obtain ⟨s', p', ran, rfl⟩ := Procs.act_eq stepped
    obtain ⟨-, -, leaves⟩ := statement_cases (kept.2 who) ran
    rcases leaves with same | ⟨d, isCommit, decided, committed⟩
    · rw [Procs.move_shared, same]
      exact promised
    · rw [Procs.move_shared, committed]
      subst isCommit
      have began := kept.2 who
      rw [Fresh, decided] at fresh
      rw [Unhalted, decided] at unhalted
      rw [decided] at began
      exact promised_commit promised began fresh unhalted
  | outside now =>
    obtain ⟨s', ran, rfl⟩ := Procs.outside_eq stepped
    rw [tick] at ran
    split_ifs at ran with later
    cases ran
    exact fun periodEnd isPaid early => promised periodEnd isPaid (lt_of_le_of_lt later early)

omit [DecidableEq κ] in
theorem ordered_nothing : Ordered ({} : Account κ) where
  valid := by
    refine ⟨fun _ => rfl, ?_, ?_, ?_⟩
    · rintro _ ⟨⟩
    · rintro _ ⟨⟩
    · rintro _ ⟨⟩
  swept := by rintro _ ⟨⟩

omit [DecidableEq κ] in
theorem promised_nothing : Promised ({} : Account κ) := by rintro _ ⟨⟩

omit [DecidableEq κ] in
theorem inOrder_start : InOrder (newTenant κ n) := ⟨ordered_nothing, fun _ => trivial⟩

/-- Where every commit is over the rows that were loaded, a tenant is entitled to its plan after each sweep and a
cancelled subscription means the free plan; and where the gateway halts nothing that is paid for, what is paid for
is kept until its end. -/
theorem entitlement_follows {events : List (ProcEvent n (Step κ) ℤ)}
    (ran : (account n).run (newTenant κ n) events = some w) (fresh : (account n).Meets Fresh (newTenant κ n) events) :
    Follows w.shared ∧ ((account n).Meets Unhalted (newTenant κ n) events → KeepsPaid w.shared) := by
  have kept := (account n).run_invariant
    (fun _ _ _ kept fresh stepped => inOrder_step kept fresh stepped) inOrder_start fresh ran
  refine ⟨⟨kept.1.swept, kept.1.valid.cancelled⟩, fun unhalted => ?_⟩
  have both := (account n).run_invariant (P := fun w => InOrder w ∧ Promised w.shared)
    (fun _ _ _ kept conds stepped =>
      ⟨inOrder_step kept.1 conds.1 stepped, promised_step kept.1 kept.2 conds.1 conds.2 stepped⟩)
    ⟨inOrder_start, promised_nothing⟩ ((account n).meets_and fresh unhalted) ran
  intro periodEnd isPaid early
  obtain ⟨sub, isSub, active, same, -⟩ := both.2 periodEnd isPaid early
  exact ⟨sub, isSub, active, same⟩

/-- An operation at one time, with nothing between its statements. -/
def whole {n : ℕ} (who : Fin n) (operation : Operation String) (now : ℤ) : List (ProcEvent n (Step String) ℤ) :=
  [.act who (.load operation now), .act who (.decide now), .act who .commit]

/-- A trial, a payment, a period that ends unpaid, a halt, a payment in the grace time, and a sweep
before a cancellation falls due. -/
def lifecycle : List (ProcEvent 1 (Step String) ℤ) :=
  whole 0 (.subscribe "pro" .monthly) 0 ++ [.outside (14 * dayUs)] ++
    whole 0 (.recordPayment (some "pay_001")) (14 * dayUs) ++
    [.outside (45 * dayUs)] ++ whole 0 .sweep (45 * dayUs) ++ whole 0 .halted (45 * dayUs) ++
    whole 0 (.recordPayment (some "pay_002")) (45 * dayUs) ++ whole 0 (.cancel false) (45 * dayUs) ++
    [.outside (60 * dayUs)] ++ whole 0 .sweep (60 * dayUs)

theorem entitlement_follows_lifecycle :
    ∃ w, (account 1).run (newTenant String 1) lifecycle = some w ∧ Follows w.shared ∧ KeepsPaid w.shared ∧
      w.shared.paidUntil = some (75 * dayUs) ∧ w.shared.clock = 60 * dayUs := by
  have facts : ((account 1).run (newTenant String 1) lifecycle).map (fun w => (w.shared.paidUntil, w.shared.clock)) =
      some (some (75 * dayUs), 60 * dayUs) := by decide +kernel
  obtain ⟨w, ran, fields⟩ := Option.map_eq_some_iff.mp facts
  obtain ⟨paidUntil, clock⟩ := Prod.mk.inj fields
  have follows := entitlement_follows ran (by decide +kernel)
  exact ⟨w, ran, follows.1, follows.2 (by decide +kernel), paidUntil, clock⟩

/-- The gateway halts a subscription that was paid for a day before. -/
def haltedEarly : List (ProcEvent 2 (Step String) ℤ) :=
  whole 0 (.subscribe "pro" .monthly) 0 ++ whole 0 (.recordPayment (some "pay_001")) 0 ++ [.outside dayUs] ++
    whole 0 .halted dayUs

/-- A change of the plan is committed over a cancellation. -/
def changedOverCancel : List (ProcEvent 2 (Step String) ℤ) :=
  whole 0 (.subscribe "pro" .monthly) 0 ++ whole 0 (.recordPayment (some "pay_001")) 0 ++
    [.act 1 (.load (.subscribe "business" .monthly) 0), .act 1 (.decide 0)] ++
      whole 0 (.cancel true) 0 ++ [.act 1 .commit]

/-- A sweep is committed over a payment. -/
def sweptOverPayment : List (ProcEvent 2 (Step String) ℤ) :=
  whole 0 (.subscribe "pro" .monthly) 0 ++ whole 0 (.recordPayment (some "pay_001")) 0 ++
    [.outside (44 * dayUs), .act 1 (.load .sweep (44 * dayUs)), .act 1 (.decide (44 * dayUs))] ++
    whole 0 (.recordPayment (some "pay_002")) (44 * dayUs) ++ [.act 1 .commit]

/-- A run that ends past due within what is paid for. -/
theorem lost_of_pastDue {es : List (ProcEvent 2 (Step String) ℤ)} {paid clock : ℤ}
    (ended : ((account 2).run (newTenant String 2) es).map (fun w =>
      (w.shared.paidUntil, w.shared.clock, w.shared.rows.subscription.map (·.status))) =
        some (some paid, clock, some .pastDue)) (early : clock < paid) :
    ∃ w, (account 2).run (newTenant String 2) es = some w ∧ ¬ KeepsPaid w.shared := by
  obtain ⟨w, ran, fields⟩ := Option.map_eq_some_iff.mp ended
  refine ⟨w, ran, fun keeps => ?_⟩
  simp only [Prod.mk.injEq] at fields
  obtain ⟨isPaid, now, status⟩ := fields
  obtain ⟨sub, isSub, active, -⟩ := keeps _ isPaid (by rwa [now])
  rw [show w.shared.rows.subscription = some sub from isSub, Option.map_some, active] at status
  cases status

/-- A tenant who has paid is past due, a cancelled one on a paid plan, and again one who has paid past due. -/
theorem entitlement_lost_and_left :
    (∃ w, (account 2).run (newTenant String 2) haltedEarly = some w ∧ ¬ KeepsPaid w.shared) ∧
      (∃ w, (account 2).run (newTenant String 2) changedOverCancel = some w ∧ ¬ Follows w.shared) ∧
      ∃ w, (account 2).run (newTenant String 2) sweptOverPayment = some w ∧ ¬ KeepsPaid w.shared := by
  have halted : ((account 2).run (newTenant String 2) haltedEarly).map
      (fun w => (w.shared.paidUntil, w.shared.clock, w.shared.rows.subscription.map (·.status))) =
        some (some (44 * dayUs), dayUs, some .pastDue) := by decide +kernel
  have changed : ((account 2).run (newTenant String 2) changedOverCancel).map
      (fun w => (w.shared.rows.subscription.map (·.status), w.shared.rows.plan)) =
        some (some .cancelled, .business) := by
    decide +kernel
  have swept : ((account 2).run (newTenant String 2) sweptOverPayment).map
      (fun w => (w.shared.paidUntil, w.shared.clock, w.shared.rows.subscription.map (·.status))) =
        some (some (74 * dayUs), 44 * dayUs, some .pastDue) := by decide +kernel
  refine ⟨lost_of_pastDue halted (by decide), ?_, lost_of_pastDue swept (by decide)⟩
  · obtain ⟨w, ran, fields⟩ := Option.map_eq_some_iff.mp changed
    refine ⟨w, ran, fun follows => ?_⟩
    obtain ⟨status, plan⟩ := Prod.mk.inj fields
    obtain ⟨sub, isSub, cancelled⟩ := Option.map_eq_some_iff.mp status
    rw [follows.cancelled sub isSub cancelled] at plan
    cases plan

end AdvanceTrading.Billing
