import AdvanceTrading.Billing.Service
import AdvanceTrading.Misc.Processes
import Mathlib.Algebra.Order.Group.Unbundled.Int
import Mathlib.Algebra.Order.Ring.Rat
import Mathlib.Data.List.Nodup

/-!
# Charges told by the gateway

Deliveries of `subscription.charged` events (`app/billing/webhooks.py:38-74`) and operators that
record the same payments (`record_payment`, `app/billing/service.py:159-190`), in any order of
their statements. An event has a payload, so the event id tells the charge. A handler inserts the
event's row, reads the subscription, looks for a payment with the reference and commits; what
raises inside `_apply` is caught, and what was written until then is committed with the row.

A payment comes once, and buys its full time, in runs where no two bookings of a payment overlap,
no booking overlaps another that moved the period, a subscription that was halted early is not
paid before its period ends, and nothing raises. The other cases each have a run below.
-/

namespace AdvanceTrading.Billing

/-- A charge the gateway captured. -/
structure Charge (κ : Type) where
  paymentId : κ
  amount : ℚ
  positive : 0 < amount

/-- A PAYMENT transaction; beside it, when it was booked, the cycle it was booked for, and the end of the period before
and after. Only the reference is ever read. -/
structure Payment (κ : Type) where
  reference : κ
  amount : ℚ
  at_ : ℤ
  cycle : Cycle
  endBefore : Option ℤ
  endAfter : Option ℤ
  deriving DecidableEq

/-- The tenant's committed rows, and the event rows that are inserted and not committed. -/
structure Ledger (ε κ : Type) where
  sub : Subscription
  payments : List (Payment κ) := []
  events : List ε := []
  inFlight : List ε := []
  deriving DecidableEq

variable {ε κ : Type}

/-- The references that are booked. -/
def Ledger.booked (s : Ledger ε κ) : List κ := s.payments.map (·.reference)

/-- Where a session is: in the handler of an event, or with an operator's payment (no event). -/
inductive Point (ε κ : Type) where
  | idle
  /-- The handler has found no row of the event. -/
  | delivered (event : ε)
  | inserted (event : ε)
  /-- `record_payment` has loaded the subscription. -/
  | loaded (event : Option ε) (charge : Charge κ) (sub : Subscription)
  /-- It has found no payment with the reference, and writes. -/
  | booking (event : Option ε) (charge : Charge κ) (sub : Subscription) (now : ℤ)
  /-- There is only the event's row to commit. -/
  | closing (event : ε)

/-- How far `record_payment` had come when something raised. -/
inductive Progress where
  | nothing
  /-- The PAYMENT row is inserted. -/
  | payment
  /-- The subscription is changed too. -/
  | period

inductive Action (ε κ : Type) where
  | deliver (event : ε)
  | insert
  | load
  /-- An operator records a payment. -/
  | operator (charge : Charge κ)
  | find (now : ℤ)
  | commit
  /-- Something other than the database raises inside `_apply`. -/
  | raised (progress : Progress)
  /-- A database error or a crash: the transaction is rolled back. -/
  | fail

variable [DecidableEq ε]

/-- The event's row is committed. -/
def Ledger.close (s : Ledger ε κ) (event : Option ε) : Ledger ε κ :=
  match event with
  | some event => { s with events := event :: s.events, inFlight := s.inFlight.erase event }
  | none => s

/-- The event's row is rolled back. -/
def Ledger.drop (s : Ledger ε κ) (event : Option ε) : Ledger ε κ :=
  match event with
  | some event => { s with inFlight := s.inFlight.erase event }
  | none => s

/-- The PAYMENT row is committed, and the subscription as the session made it. -/
def Ledger.book (s : Ledger ε κ) (charge : Charge κ) (loaded made : Subscription) (now : ℤ) : Ledger ε κ :=
  let after := Subscription.write loaded made s.sub
  { s with
    sub := after
    payments := ⟨charge.paymentId, charge.amount, now, loaded.billingCycle, s.sub.currentPeriodEnd,
      after.currentPeriodEnd⟩
      :: s.payments }

/-- The event a session has a row of in its transaction. -/
def Point.event : Point ε κ → Option ε
  | .inserted event | .closing event => some event
  | .loaded event _ _ | .booking event _ _ _ => event
  | .idle | .delivered _ => none

variable [DecidableEq κ] (gateway : ε → Charge κ)

def chargeStatement (s : Ledger ε κ) (p : Point ε κ) : Action ε κ → Option (Ledger ε κ × Point ε κ)
  | .deliver event =>
      match p with
      | .idle => some (s, if event ∈ s.events then .idle else .delivered event)
      | _ => none
  | .insert =>
      match p with
      | .delivered event =>
          if event ∈ s.events then some (s, .idle)   -- the unique event id: nothing is stored, it is delivered again
          else if event ∈ s.inFlight then none   -- it waits for the transaction that inserted the row
          else some ({ s with inFlight := event :: s.inFlight }, .inserted event)
      | _ => none
  | .load =>
      match p with
      | .inserted event =>
          some (s, if (gateway event).amount ≤ 0 then .closing event else .loaded (some event) (gateway event) s.sub)
      | _ => none
  | .operator charge =>
      match p with
      | .idle => some (s, .loaded none charge s.sub)
      | _ => none
  | .find now =>
      match p with
      | .loaded event charge sub =>
          if charge.paymentId ∈ s.booked then some (s, event.elim .idle .closing)
          else some (s, .booking event charge sub now)
      | _ => none
  | .commit =>
      match p with
      | .booking event charge sub now => some ((s.book charge sub (sub.paid now) now).close event, .idle)
      | .closing event => some (s.close (some event), .idle)
      | _ => none
  | .raised progress =>
      match p with
      | .loaded (some event) _ _ => some (s.close (some event), .idle)
      | .booking (some event) charge sub now =>
          match progress with
          | .nothing => some (s.close (some event), .idle)
          | .payment => some ((s.book charge sub sub now).close (some event), .idle)
          | .period => some ((s.book charge sub (sub.paid now) now).close (some event), .idle)
      | _ => none
  | .fail => some (s.drop p.event, .idle)

/-- Another operation changes the subscription, but for its period. -/
def otherChange (s : Ledger ε κ) (edit : Subscription) : Option (Ledger ε κ) :=
  some { s with sub := { edit with
    currentPeriodStart := s.sub.currentPeriodStart
    currentPeriodEnd := s.sub.currentPeriodEnd } }

/-- Any number of deliveries and operators. -/
def deliveries (n : ℕ) : Machine (Procs (Ledger ε κ) (Point ε κ) n) (ProcEvent n (Action ε κ) Subscription) :=
  Procs.interleave (chargeStatement gateway) otherChange n

/-- Nothing is booked and nothing was delivered. -/
def opening (sub : Subscription) (n : ℕ) : Procs (Ledger ε κ) (Point ε κ) n := ⟨{ sub := sub }, fun _ => .idle⟩

/-- The booking moved the end of the period to a full cycle after what was paid for, or after the booking. -/
def Payment.FullTime (p : Payment κ) : Prop :=
  ∃ newEnd, p.endAfter = some newEnd ∧ max (p.endBefore.getD p.at_) p.at_ + p.cycle.us ≤ newEnd

/-- No reference is booked twice, the charge of every event that was answered is booked, and every booking bought its
full time. -/
structure BookedOnce (s : Ledger ε κ) : Prop where
  once : s.booked.Nodup
  answered : ∀ event ∈ s.events, s.booked.count (gateway event).paymentId = 1
  fullTime : ∀ p ∈ s.payments, p.FullTime

/-- A statement that keeps clear of the cases that go wrong. A booking is committed while its reference is not booked
yet, the period ends where it ended when the row was read, and the row that was read is running or over; what
raises has written nothing, and its payment is booked already. -/
def ClearAt (s : Ledger ε κ) (p : Point ε κ) : Action ε κ → Prop
  | .commit =>
      match p with
      | .booking _ charge sub now =>
          charge.paymentId ∉ s.booked ∧ sub.currentPeriodEnd = s.sub.currentPeriodEnd ∧
            (sub.status.runs = true ∨ ∀ periodEnd ∈ sub.currentPeriodEnd, periodEnd ≤ now)
      | _ => True
  | .raised progress =>
      match p, progress with
      | .loaded _ charge _, _ | .booking _ charge _ _, .nothing => charge.paymentId ∈ s.booked
      | .booking .., _ => False
      | _, _ => True
  | _ => True

instance decidableClearAt (s : Ledger ε κ) (p : Point ε κ) (action : Action ε κ) : Decidable (ClearAt s p action) :=
  match action, p with
  | .commit, .booking .. => inferInstanceAs (Decidable (_ ∧ _ ∧ (_ ∨ _)))
  | .raised _, .loaded .. => inferInstanceAs (Decidable (_ ∈ _))
  | .raised .nothing, .booking .. => inferInstanceAs (Decidable (_ ∈ _))
  | .raised .payment, .booking .. | .raised .period, .booking .. => isFalse id
  | .raised _, .idle | .raised _, .delivered _ | .raised _, .inserted _ | .raised _, .closing _ => isTrue trivial
  | .commit, .idle | .commit, .delivered _ | .commit, .inserted _ | .commit, .loaded .. | .commit, .closing _ =>
      isTrue trivial
  | .deliver _, _ | .insert, _ | .load, _ | .operator _, _ | .find _, _ | .fail, _ => isTrue trivial

def Clear {n : ℕ} (w : Procs (Ledger ε κ) (Point ε κ) n) : ProcEvent n (Action ε κ) Subscription → Prop
  | .act who action => ClearAt w.shared (w.point who) action
  | .outside _ => True

instance decidableClear {n : ℕ} (w : Procs (Ledger ε κ) (Point ε κ) n) (e : ProcEvent n (Action ε κ) Subscription) :
    Decidable (Clear w e) :=
  match e with
  | .act who action => decidableClearAt w.shared (w.point who) action
  | .outside _ => isTrue trivial

/-! ## What a booking does -/

variable {gateway} {s s' : Ledger ε κ} {p p' : Point ε κ} {event : Option ε} {charge : Charge κ}
  {sub : Subscription} {now : ℤ}

omit [DecidableEq κ] in
@[simp] theorem close_booked : (s.close event).booked = s.booked := by
  cases event with
  | none => rfl
  | some event => rfl

omit [DecidableEq κ] in
@[simp] theorem close_payments : (s.close event).payments = s.payments := by
  cases event with
  | none => rfl
  | some event => rfl

omit [DecidableEq κ] in
theorem mem_close_events {e : ε} (mem : e ∈ (s.close event).events) : e ∈ s.events ∨ event = some e := by
  cases event with
  | none => exact Or.inl mem
  | some event =>
    rcases List.mem_cons.mp mem with rfl | before
    · exact Or.inr rfl
    · exact Or.inl before

omit [DecidableEq ε] [DecidableEq κ] in
/-- What holds of the ledger: see `BookedOnce`. -/
structure Sound (gateway : ε → Charge κ) (s : Ledger ε κ) : Prop where
  once : s.booked.Nodup
  answered : ∀ event ∈ s.events, (gateway event).paymentId ∈ s.booked
  fullTime : ∀ p ∈ s.payments, p.FullTime

omit [DecidableEq ε] in
theorem Sound.bookedOnce (sound : Sound gateway s) : BookedOnce gateway s where
  once := sound.once
  answered := fun event mem => List.count_eq_one_of_mem sound.once (sound.answered event mem)
  fullTime := sound.fullTime

omit [DecidableEq κ] in
/-- An event may be answered when its charge is booked. -/
theorem Sound.close (sound : Sound gateway s)
    (booked : ∀ e ∈ event, (gateway e).paymentId ∈ s.booked) : Sound gateway (s.close event) := by
  refine ⟨by rw [close_booked]; exact sound.once, fun e mem => ?_, by rw [close_payments]; exact sound.fullTime⟩
  rw [close_booked]
  rcases mem_close_events mem with before | here
  · exact sound.answered e before
  · exact booked e here

omit [DecidableEq ε] [DecidableEq κ] in
/-- A row that runs, or whose period is over, is paid for from where its period ends. -/
theorem paymentBase_eq (paidFor : sub.status.runs = true ∨ ∀ periodEnd ∈ sub.currentPeriodEnd, periodEnd ≤ now) :
    paymentBase sub now = max (sub.currentPeriodEnd.getD now) now := by
  unfold paymentBase
  rcases paidFor with runs | ended
  · rw [if_pos runs, max_comm]
  · have least : sub.currentPeriodEnd.getD now ≤ now := by
      cases ends : sub.currentPeriodEnd with
      | none => exact le_rfl
      | some periodEnd => exact ended periodEnd ends
    rw [max_eq_right least]
    split_ifs
    · exact max_eq_left least
    · rfl

omit [DecidableEq ε] [DecidableEq κ] in
theorem Sound.book (sound : Sound gateway s) (fresh : charge.paymentId ∉ s.booked)
    (current : sub.currentPeriodEnd = s.sub.currentPeriodEnd)
    (paidFor : sub.status.runs = true ∨ ∀ periodEnd ∈ sub.currentPeriodEnd, periodEnd ≤ now) :
    Sound gateway (s.book charge sub (sub.paid now) now) := by
  refine ⟨List.nodup_cons.mpr ⟨fresh, sound.once⟩, fun e mem => List.mem_cons_of_mem _ (sound.answered e mem), ?_⟩
  intro q mem
  rcases List.mem_cons.mp mem with rfl | before
  · have base := paymentBase_eq paidFor
    refine ⟨paymentBase sub now + sub.billingCycle.us, paid_end_written fun periodEnd ends => ?_, ?_⟩
    · have cycle := sub.billingCycle.us_pos
      have after : periodEnd ≤ paymentBase sub now := by
        rw [base, ends]
        exact le_max_left _ _
      omega
    · rw [base, current]
  · exact sound.fullTime q before

/-! ## Invariant -/

/-- What a session's point says: it holds the charge of its event, and where there is nothing to book it is booked. -/
def Knows (gateway : ε → Charge κ) (s : Ledger ε κ) : Point ε κ → Prop
  | .closing event => (gateway event).paymentId ∈ s.booked
  | .loaded (some event) charge _ | .booking (some event) charge _ _ => charge = gateway event
  | _ => True

omit [DecidableEq ε] [DecidableEq κ] in
theorem Knows.later (knows : Knows gateway s p) (more : ∀ r ∈ s.booked, r ∈ s'.booked) : Knows gateway s' p := by
  cases p with
  | closing event => exact more _ knows
  | loaded event charge sub => cases event with
    | none => trivial
    | some event => exact knows
  | booking event charge sub now => cases event with
    | none => trivial
    | some event => exact knows
  | idle => trivial
  | delivered event => trivial
  | inserted event => trivial

/-- What a statement leaves. -/
structure Leaves (gateway : ε → Charge κ) (s s' : Ledger ε κ) (p' : Point ε κ) : Prop where
  sound : Sound gateway s'
  knows : Knows gateway s' p'
  more : ∀ r ∈ s.booked, r ∈ s'.booked

omit [DecidableEq ε] [DecidableEq κ] in
theorem Leaves.same (sound : Sound gateway s) (knows : Knows gateway s p') : Leaves gateway s s p' :=
  ⟨sound, knows, fun _ mem => mem⟩

theorem statement_leaves {action : Action ε κ} (sound : Sound gateway s) (knows : Knows gateway s p)
    (clear : ClearAt s p action) (ran : chargeStatement gateway s p action = some (s', p')) :
    Leaves gateway s s' p' := by
  cases action with
  | deliver event =>
    cases p with
    | idle =>
      cases ran
      refine Leaves.same sound ?_
      split_ifs
      · trivial
      · trivial
    | _ => cases ran
  | insert =>
    cases p with
    | delivered event =>
      rw [chargeStatement] at ran
      split_ifs at ran
      · cases ran
        exact Leaves.same sound trivial
      · cases ran
        exact ⟨⟨sound.once, sound.answered, sound.fullTime⟩, trivial, fun _ mem => mem⟩
    | _ => cases ran
  | load =>
    cases p with
    | inserted event =>
      cases ran
      rw [if_neg (not_le.mpr (gateway event).positive)]
      exact Leaves.same sound rfl
    | _ => cases ran
  | operator charge =>
    cases p with
    | idle =>
      cases ran
      exact Leaves.same sound trivial
    | _ => cases ran
  | find now =>
    cases p with
    | loaded event charge sub =>
      rw [chargeStatement] at ran
      split_ifs at ran with found
      · cases ran
        cases event with
        | none => exact Leaves.same sound trivial
        | some event =>
          obtain rfl : charge = gateway event := knows
          exact Leaves.same sound found
      · cases ran
        refine Leaves.same sound ?_
        cases event with
        | none => trivial
        | some event => exact knows
    | _ => cases ran
  | commit =>
    cases p with
    | booking event charge sub now =>
      cases ran
      obtain ⟨fresh, current, paidFor⟩ := clear
      refine ⟨(sound.book fresh current paidFor).close fun e isEvent => ?_, trivial, fun r mem => ?_⟩
      · obtain rfl : event = some e := isEvent
        obtain rfl : charge = gateway e := knows
        exact List.mem_cons_self
      · rw [close_booked]
        exact List.mem_cons_of_mem _ mem
    | closing event =>
      cases ran
      refine ⟨sound.close fun e isEvent => ?_, trivial, fun r mem => mem⟩
      obtain rfl : event = e := Option.some.inj isEvent
      exact knows
    | _ => cases ran
  | raised progress =>
    -- Nothing was written, so only the event's row is committed.
    have closed {e : ε} (booked : (gateway e).paymentId ∈ s.booked) : Leaves gateway s (s.close (some e)) .idle := by
      refine ⟨sound.close fun e' isEvent => ?_, trivial, fun r mem => mem⟩
      obtain rfl : e = e' := Option.some.inj isEvent
      exact booked
    cases p with
    | loaded event charge sub =>
      cases event with
      | none => cases ran
      | some event =>
        cases ran
        obtain rfl : charge = gateway event := knows
        exact closed clear
    | booking event charge sub now =>
      cases event with
      | none => cases ran
      | some event =>
        obtain rfl : charge = gateway event := knows
        cases progress with
        | nothing =>
          cases ran
          exact closed clear
        | payment => exact clear.elim
        | period => exact clear.elim
    | _ => cases ran
  | fail =>
    cases ran
    cases event : p.event with
    | none => exact Leaves.same sound trivial
    | some event => exact ⟨⟨sound.once, sound.answered, sound.fullTime⟩, trivial, fun _ mem => mem⟩

variable {n : ℕ} {w t : Procs (Ledger ε κ) (Point ε κ) n}

/-- The ledger is sound and every session's point says what is so. -/
def Kept (gateway : ε → Charge κ) (w : Procs (Ledger ε κ) (Point ε κ) n) : Prop :=
  Sound gateway w.shared ∧ ∀ q, Knows gateway w.shared (w.point q)

theorem kept_step {e : ProcEvent n (Action ε κ) Subscription} (kept : Kept gateway w)
    (clear : Clear w e) (stepped : (deliveries gateway n).step w e = some t) : Kept gateway t := by
  obtain ⟨sound, knows⟩ := kept
  cases e with
  | act who action =>
    obtain ⟨s', p', ran, rfl⟩ := Procs.act_eq stepped
    have leaves := statement_leaves sound (knows who) clear ran
    exact ⟨leaves.sound, Procs.forall_move (fun q _ => (knows q).later leaves.more) leaves.knows⟩
  | outside edit =>
    obtain ⟨s', ran, rfl⟩ := Procs.outside_eq stepped
    cases ran
    exact ⟨⟨sound.once, sound.answered, sound.fullTime⟩, fun q => (knows q).later fun _ mem => mem⟩

/-- In a run that keeps clear of overlapping bookings of one payment, of bookings that overlap another one's change of
the period, of payments for a halted subscription before its period ends, and of what raises before its payment is
booked, every answered charge is booked once, no reference twice, and every booking bought its full time. -/
theorem charges_booked_once {sub : Subscription} {events : List (ProcEvent n (Action ε κ) Subscription)}
    (ran : (deliveries gateway n).run (opening sub n) events = some w)
    (clear : (deliveries gateway n).Meets Clear (opening sub n) events) : BookedOnce gateway w.shared := by
  have start : Kept gateway (opening sub n) :=
    ⟨⟨List.nodup_nil, by simp [opening], by simp [opening]⟩, fun _ => trivial⟩
  have kept := (deliveries gateway n).run_invariant (fun _ _ _ kept clear stepped => kept_step kept clear stepped) start
    clear ran
  exact kept.1.bookedOnce

/-- Two captured charges, told by the events 1 and 2. -/
def twoCharges (event : ℕ) : Charge String := ⟨if event = 1 then "pay_001" else "pay_002", 2999, by decide +kernel⟩

/-- A subscription of the pro plan whose period ends on day 30. -/
def paidUp : Subscription where
  planId := .pro
  billingCycle := .monthly
  status := .active
  currentPeriodStart := some 0
  currentPeriodEnd := some (30 * dayUs)

/-- The handler of an event, alone. -/
def handled {n : ℕ} [NeZero n] (event : ℕ) (now : ℤ) : List (ProcEvent n (Action ℕ String) Subscription) :=
  [.act 0 (.deliver event), .act 0 .insert, .act 0 .load, .act 0 (.find now), .act 0 .commit]

/-- A delivery the database refused comes again while an operator records the payment; the next charge comes when the
period is over. -/
def clearRun : List (ProcEvent 2 (Action ℕ String) Subscription) :=
  [.act 0 (.deliver 1), .act 0 .insert, .act 0 .load, .act 0 (.find (29 * dayUs)), .act 0 .fail,
    .act 1 (.operator (twoCharges 1)), .act 1 (.find (29 * dayUs)), .act 1 .commit] ++
    handled 1 (29 * dayUs) ++ [.outside { paidUp with status := .pastDue }] ++ handled 2 (61 * dayUs)

theorem charges_booked_once_twice :
    ∃ w, (deliveries twoCharges 2).run (opening paidUp 2) clearRun = some w ∧ BookedOnce twoCharges w.shared ∧
      w.shared.booked = ["pay_002", "pay_001"] := by
  have booked : ((deliveries twoCharges 2).run (opening paidUp 2) clearRun).map (fun w => w.shared.booked) =
      some ["pay_002", "pay_001"] := by decide +kernel
  obtain ⟨w, ran, refs⟩ := Option.map_eq_some_iff.mp booked
  exact ⟨w, ran, charges_booked_once ran (by decide +kernel), refs⟩

/-- The handler raises before it has written anything, and the event is delivered again. -/
def raisedRun : List (ProcEvent 1 (Action ℕ String) Subscription) :=
  [.act 0 (.deliver 1), .act 0 .insert, .act 0 .load, .act 0 (.raised .nothing), .act 0 (.deliver 1)]

/-- An operator records the payment while the event is handled. -/
def doubledRun : List (ProcEvent 2 (Action ℕ String) Subscription) :=
  [.act 0 (.deliver 1), .act 0 .insert, .act 0 .load, .act 0 (.find dayUs), .act 1 (.operator (twoCharges 1)),
    .act 1 (.find dayUs), .act 0 .commit, .act 1 .commit]

/-- Two charges are handled at the same time. -/
def overlapRun : List (ProcEvent 2 (Action ℕ String) Subscription) :=
  [.act 0 (.deliver 1), .act 0 .insert, .act 0 .load, .act 1 (.deliver 2), .act 1 .insert, .act 1 .load,
    .act 0 (.find dayUs), .act 1 (.find dayUs), .act 0 .commit, .act 1 .commit]

/-- The gateway halts the subscription on the first day, and the charge is captured after all. -/
def haltedRun : List (ProcEvent 1 (Action ℕ String) Subscription) :=
  .outside (paidUp.pastDue dayUs) :: handled 1 (2 * dayUs)

/-- A charge that is never booked, one that is booked twice, and two that buy less than their full time. -/
theorem charges_lost_doubled_and_short :
    (∃ w, (deliveries twoCharges 1).run (opening paidUp 1) raisedRun = some w ∧ ¬ BookedOnce twoCharges w.shared) ∧
      (∃ w, (deliveries twoCharges 2).run (opening paidUp 2) doubledRun = some w ∧ ¬ BookedOnce twoCharges w.shared) ∧
      (∃ w, (deliveries twoCharges 2).run (opening paidUp 2) overlapRun = some w ∧ ¬ BookedOnce twoCharges w.shared) ∧
      ∃ w, (deliveries twoCharges 1).run (opening paidUp 1) haltedRun = some w ∧ ¬ BookedOnce twoCharges w.shared := by
  have raised : ((deliveries twoCharges 1).run (opening paidUp 1) raisedRun).map
      (fun w => (w.shared.events, w.shared.booked)) =
      some ([1], []) := by decide +kernel
  have doubled : ((deliveries twoCharges 2).run (opening paidUp 2) doubledRun).map (fun w => w.shared.booked) =
      some ["pay_001", "pay_001"] := by decide +kernel
  have overlap : ((deliveries twoCharges 2).run (opening paidUp 2) overlapRun).map (fun w => w.shared.payments.head?) =
      some (some ⟨"pay_002", 2999, dayUs, .monthly, some (60 * dayUs), some (60 * dayUs)⟩) := by decide +kernel
  have halted : ((deliveries twoCharges 1).run (opening paidUp 1) haltedRun).map (fun w => w.shared.payments.head?) =
      some (some ⟨"pay_001", 2999, 2 * dayUs, .monthly, some (30 * dayUs), some (32 * dayUs)⟩) := by decide +kernel
  refine ⟨?_, ?_, ?_, ?_⟩
  · obtain ⟨w, ran, rows⟩ := Option.map_eq_some_iff.mp raised
    obtain ⟨events, booked⟩ := Prod.mk.inj rows
    refine ⟨w, ran, fun once => ?_⟩
    have one := once.answered 1 (by simp [events])
    simp [booked] at one
  · obtain ⟨w, ran, booked⟩ := Option.map_eq_some_iff.mp doubled
    refine ⟨w, ran, fun once => ?_⟩
    have distinct := once.once
    simp [booked] at distinct
  · obtain ⟨w, ran, last⟩ := Option.map_eq_some_iff.mp overlap
    refine ⟨w, ran, fun once => ?_⟩
    obtain ⟨newEnd, ends, enough⟩ := once.fullTime _ (List.mem_of_head? last)
    cases ends
    exact absurd enough (by decide +kernel)
  · obtain ⟨w, ran, last⟩ := Option.map_eq_some_iff.mp halted
    refine ⟨w, ran, fun once => ?_⟩
    obtain ⟨newEnd, ends, enough⟩ := once.fullTime _ (List.mem_of_head? last)
    cases ends
    exact absurd enough (by decide +kernel)

end AdvanceTrading.Billing
