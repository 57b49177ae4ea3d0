import AdvanceTrading.Misc.Tallies

/-!
# The drain of the alert outbox

Model of `dispatch_pending` with `_claim`, `_send_budget` and `_finish`
(`app/alerts/dispatcher.py:698-905`), hardened, on one row of the outbox, with
any number of workers. A statement is one step with its commit; the clock is
read where the source reads it. Times are microseconds. The log is kept for the
proofs: no statement reads it.
-/

namespace AdvanceTrading.Outbox

inductive Status where
  | pending
  | sent
  | failed
  | dead
  | suppressed
  deriving DecidableEq, Repr

def second : Nat := 1000000
def MAX_ATTEMPTS : Nat := 5
def BASE_BACKOFF_SECONDS : Nat := 30
def LEASE_SECONDS : Nat := 120
def LEASE_MARGIN_SECONDS : Nat := 20

/-- The row. A token is the number of its claim (the source draws it at random); `keyed` says that
the row has its idempotency key. -/
structure Delivery where
  status : Status
  attempts : Nat
  nextAttemptAt : Nat
  leaseUntil : Option Nat
  claimedBy : Option Nat
  keyed : Bool
  deriving DecidableEq

/-- What has happened to the row: a send of a claim, a retry scheduled, or a terminal outcome. -/
inductive Entry where
  | send (token started ended : Nat)
  | failed (nextAttemptAt : Nat)
  | outcome (status : Status)
  deriving DecidableEq

/-- What the workers share. `keyTaken` says that another row holds this delivery's idempotency key. -/
structure Store where
  clock : Nat
  row : Delivery
  keyTaken : Bool := false
  issued : Nat
  /-- Oldest first. -/
  log : List Entry := []
  deriving DecidableEq

/-- What an attempt comes to: sent, failed (any exception), not sent on purpose, or no channel. -/
inductive Result where
  | delivered
  | failed
  | suppressed
  | disabled
  deriving DecidableEq, Repr

/-- Where a worker is. `now` is its drain's start. -/
inductive Worker where
  | idle
  | started (now : Nat)
  /-- The row is in its due list. -/
  | listed (now : Nat)
  | claiming (now clock : Nat)
  /-- The claim's UPDATE matched no row. -/
  | taken (clock : Nat)
  /-- The claim's UPDATE broke the key's uniqueness. -/
  | duplicate
  | claimed (now token leaseUntil : Nat)
  /-- The row's attempts are read again. -/
  | ready (now token leaseUntil attempts : Nat)
  /-- The attempt is over, at `ended`. -/
  | done (now token attempts ended : Nat) (result : Result)
  deriving DecidableEq

/-- What a worker does next. -/
inductive Action where
  | start
  | list
  | look
  | claim
  | lose
  | suppress
  | refresh
  /-- No send: the channel is gone, or the alert is stale. -/
  | refuse (result : Result)
  | send (ended : Nat) (result : Result)
  /-- No send: the lease is nearly over. -/
  | late
  | finish
  | crash
  deriving DecidableEq

/-- No live lease at a time. -/
def free (row : Delivery) (clock : Nat) : Prop := ∀ lease ∈ row.leaseUntil, lease ≤ clock

instance (row : Delivery) (clock : Nat) : Decidable (free row clock) := by
  unfold free
  infer_instance

/-- The filter of the due list. -/
def due (row : Delivery) (now clock : Nat) : Prop :=
  row.status = .pending ∧ row.nextAttemptAt ≤ now ∧ free row clock

/-- The filter of the claim. -/
def claimable (row : Delivery) (clock : Nat) : Prop :=
  row.status = .pending ∧ free row clock ∧ row.attempts < MAX_ATTEMPTS

/-- The filter of a lease that ran out on the last attempt. -/
def lost (row : Delivery) (clock : Nat) : Prop :=
  row.status = .pending ∧ free row clock ∧ MAX_ATTEMPTS ≤ row.attempts

instance (row : Delivery) (now clock : Nat) : Decidable (due row now clock) := by
  unfold due
  infer_instance

instance (row : Delivery) (clock : Nat) : Decidable (claimable row clock) := by
  unfold claimable
  infer_instance

instance (row : Delivery) (clock : Nat) : Decidable (lost row clock) := by
  unfold lost
  infer_instance

/-- The end of a lease that runs from a clock reading. -/
def leaseEnd (clock : Nat) : Nat := clock + LEASE_SECONDS * second

/-- The claim's UPDATE, which also sets the idempotency key. -/
def claim (s : Store) (clock : Nat) : Store :=
  { s with
    row := { s.row with
      leaseUntil := some (leaseEnd clock)
      claimedBy := some s.issued
      attempts := s.row.attempts + 1
      keyed := true }
    issued := s.issued + 1 }

/-- A terminal status, without a lease. -/
def close (s : Store) (status : Status) : Store :=
  { s with row := { s.row with status := status, leaseUntil := none }, log := s.log ++ [.outcome status] }

/-- The last moment of a send: the lease's end less the margin. -/
def sendUntil (leaseUntil : Nat) : Nat := leaseUntil - LEASE_MARGIN_SECONDS * second

theorem sendUntil_le (leaseUntil : Nat) : sendUntil leaseUntil ≤ leaseUntil := by
  unfold sendUntil
  omega

/-- `now + timedelta(seconds=BASE_BACKOFF_SECONDS * (2 ** (attempts - 1)))`. -/
def retryAt (now attempts : Nat) : Nat := now + BASE_BACKOFF_SECONDS * 2 ^ (attempts - 1) * second

/-- What the outcome writes on the row. -/
def write (s : Store) (now attempts : Nat) : Result → Store
  | .delivered => close { s with row := { s.row with attempts := attempts } } .sent
  | .suppressed => close s .suppressed
  | .disabled => close s .failed
  | .failed =>
      if MAX_ATTEMPTS ≤ attempts then close { s with row := { s.row with attempts := attempts } } .dead
      else
        { s with
          row := { s.row with attempts := attempts, nextAttemptAt := retryAt now attempts, leaseUntil := none }
          log := s.log ++ [.failed (retryAt now attempts)] }

/-- `_finish`: only the claim that holds the row, still PENDING, writes its outcome. -/
def finish (s : Store) (now token attempts : Nat) (result : Result) : Store :=
  if s.row.claimedBy = some token ∧ s.row.status = .pending then write s now attempts result else s

/-- A statement of a worker. -/
def statement (s : Store) : Worker → Action → Option (Store × Worker)
  | _, .crash => some (s, .idle)
  | .idle, .start => some (s, .started s.clock)
  | .started now, .list => some (s, if due s.row now s.clock then .listed now else .idle)
  | .listed now, .look => some (s, .claiming now s.clock)
  | .claiming now clock, .claim =>
      if claimable s.row clock then
        if s.row.keyed = false ∧ s.keyTaken = true then some (s, .duplicate)
        else some (claim s clock, .claimed now s.issued (leaseEnd clock))
      else some (s, .taken clock)
  | .taken clock, .lose => some (if lost s.row clock then close s .dead else s, .idle)
  | .duplicate, .suppress => some (if s.row.status = .pending then close s .suppressed else s, .idle)
  | .claimed now token leaseUntil, .refresh => some (s, .ready now token leaseUntil s.row.attempts)
  | .ready now token _ attempts, .refuse result =>
      if result = .suppressed ∨ result = .disabled then some (s, .done now token attempts s.clock result) else none
  | .ready now token leaseUntil attempts, .send ended result =>
      -- `wait_for` ends the send within its budget
      if s.clock < sendUntil leaseUntil ∧ s.clock ≤ ended ∧ ended ≤ sendUntil leaseUntil ∧ result ≠ .disabled then
        some ({ s with log := s.log ++ [.send token s.clock ended] }, .done now token attempts ended result)
      else none
  | .ready now token leaseUntil attempts, .late =>
      if sendUntil leaseUntil ≤ s.clock then some (s, .done now token attempts s.clock .failed) else none
  | .done now token attempts ended result, .finish =>
      if ended ≤ s.clock then some (finish s now token attempts result, .idle) else none
  | _, _ => none

/-- What happens besides: time passes, or another row takes the key that this row does not have yet. -/
inductive Outside where
  | tick (clock : Nat)
  | takeKey
  deriving DecidableEq

def outside (s : Store) : Outside → Option Store
  | .tick clock => if s.clock ≤ clock then some { s with clock := clock } else none
  | .takeKey => if s.row.keyed = false then some { s with keyTaken := true } else none

/-- Every interleaving of `n` workers' drains. -/
def drains (n : Nat) : Machine (Procs Store Worker n) (ProcEvent n Action Outside) :=
  Procs.interleave statement outside n

/-- A row that no claim holds, and no worker in a drain. -/
def begin_ (n clock : Nat) (row : Delivery) : Procs Store Worker n :=
  ⟨{ clock := clock, row := { row with leaseUntil := none }, issued := row.claimedBy.elim 0 (· + 1) }, fun _ => .idle⟩

/-- The token of the claim a worker made. -/
def Worker.token : Worker → Option Nat
  | .claimed _ token _ | .ready _ token _ _ | .done _ token _ _ _ => some token
  | _ => none

/-- A worker that has claimed the row and not sent yet: its token and lease. -/
def Worker.holds : Worker → Option (Nat × Nat)
  | .claimed _ token leaseUntil | .ready _ token leaseUntil _ => some (token, leaseUntil)
  | _ => none

def Entry.isSend : Entry → Bool
  | .send .. => true
  | _ => false

/-- Of an entry and a later one: sends do not overlap, and nothing follows a terminal outcome. -/
def Ordered : Entry → Entry → Prop
  | .send _ _ ended, .send _ started _ => ended ≤ started
  | .outcome _, _ => False
  | _, _ => True

/-- No send starts before the retry that an earlier failure scheduled. -/
def Waited : Entry → Entry → Prop
  | .failed nextAttemptAt, .send _ started _ => nextAttemptAt ≤ started
  | _, _ => True

end AdvanceTrading.Outbox

/-!
# Claims of the outbox

What a claim of the row means at every point of every interleaving: while its
lease lives the row is its own, no other worker writes the row, and each claim
sends once at most. One lemma for each thing a statement does to the store, for
the store and for the workers that do not move.
-/

namespace AdvanceTrading.Outbox

/-- What a statement does: the store and the worker after it. -/
inductive Effect (s : Store) : Worker → Action → Store → Worker → Prop
  | crash (p : Worker) : Effect s p .crash s .idle
  | start : Effect s .idle .start s (.started s.clock)
  | listed {now : Nat} (is_due : due s.row now s.clock) : Effect s (.started now) .list s (.listed now)
  | notDue {now : Nat} : Effect s (.started now) .list s .idle
  | look {now : Nat} : Effect s (.listed now) .look s (.claiming now s.clock)
  | taken {now clock : Nat} : Effect s (.claiming now clock) .claim s (.taken clock)
  | duplicate {now clock : Nat} (unkeyed : s.row.keyed = false) (other : s.keyTaken = true) :
      Effect s (.claiming now clock) .claim s .duplicate
  | claimed {now clock : Nat} (can : claimable s.row clock) (key : s.row.keyed = false → s.keyTaken = false) :
      Effect s (.claiming now clock) .claim (claim s clock) (.claimed now s.issued (leaseEnd clock))
  | lost {clock : Nat} (gone : lost s.row clock) : Effect s (.taken clock) .lose (close s .dead) .idle
  | notLost {clock : Nat} : Effect s (.taken clock) .lose s .idle
  | suppressed (pending : s.row.status = .pending) : Effect s .duplicate .suppress (close s .suppressed) .idle
  | notPending : Effect s .duplicate .suppress s .idle
  | refresh {now token leaseUntil : Nat} :
      Effect s (.claimed now token leaseUntil) .refresh s (.ready now token leaseUntil s.row.attempts)
  | refuse {now token leaseUntil attempts : Nat} {result : Result} :
      Effect s (.ready now token leaseUntil attempts) (.refuse result) s (.done now token attempts s.clock result)
  | send {now token leaseUntil attempts ended : Nat} {result : Result} (intime : s.clock < sendUntil leaseUntil)
      (after_ : s.clock ≤ ended) (within : ended ≤ sendUntil leaseUntil) :
      Effect s (.ready now token leaseUntil attempts) (.send ended result)
        { s with log := s.log ++ [Entry.send token s.clock ended] } (.done now token attempts ended result)
  | late {now token leaseUntil attempts : Nat} :
      Effect s (.ready now token leaseUntil attempts) .late s (.done now token attempts s.clock .failed)
  | finish {now token attempts ended : Nat} {result : Result} (over_ : ended ≤ s.clock)
      (held : s.row.claimedBy = some token) (pending : s.row.status = .pending) :
      Effect s (.done now token attempts ended result) .finish (write s now attempts result) .idle
  | takenOver {now token attempts ended : Nat} {result : Result} :
      Effect s (.done now token attempts ended result) .finish s .idle

theorem statement_effect {s s' : Store} {p p' : Worker} {a : Action}
    (ran : statement s p a = some (s', p')) : Effect s p a s' p' := by
  cases a with
  | crash =>
    cases p <;> cases ran <;> exact .crash _
  | start =>
    cases p <;> cases ran
    exact .start
  | list =>
    cases p <;> cases ran
    split
    · exact .listed ‹_›
    · exact .notDue
  | look =>
    cases p <;> cases ran
    exact .look
  | claim =>
    cases p with
    | claiming now clock =>
      simp only [statement] at ran
      split at ran
      · rename_i can
        split at ran
        · rename_i both
          cases ran
          exact .duplicate both.1 both.2
        · rename_i key
          cases ran
          refine .claimed can fun unkeyed => ?_
          by_contra other
          exact key ⟨unkeyed, by simpa using other⟩
      · cases ran
        exact .taken
    | _ => cases ran
  | lose =>
    cases p <;> cases ran
    split
    · exact .lost ‹_›
    · exact .notLost
  | suppress =>
    cases p <;> cases ran
    split
    · exact .suppressed ‹_›
    · exact .notPending
  | refresh =>
    cases p <;> cases ran
    exact .refresh
  | refuse result =>
    cases p with
    | ready now token leaseUntil attempts =>
      simp only [statement, Option.ite_none_right_eq_some] at ran
      obtain ⟨_, same⟩ := ran
      cases same
      exact .refuse
    | _ => cases ran
  | send ended result =>
    cases p with
    | ready now token leaseUntil attempts =>
      simp only [statement, Option.ite_none_right_eq_some] at ran
      obtain ⟨⟨intime, after_, within, _⟩, same⟩ := ran
      cases same
      exact .send intime after_ within
    | _ => cases ran
  | late =>
    cases p with
    | ready now token leaseUntil attempts =>
      simp only [statement, Option.ite_none_right_eq_some] at ran
      obtain ⟨_, same⟩ := ran
      cases same
      exact .late
    | _ => cases ran
  | finish =>
    cases p with
    | done now token attempts ended result =>
      simp only [statement, Option.ite_none_right_eq_some] at ran
      obtain ⟨over_, same⟩ := ran
      cases same
      unfold finish
      split
      · rename_i mine
        exact .finish over_ mine.1 mine.2
      · exact .takenOver
    | _ => cases ran

/-! ## One worker -/

/-- What the store holds for a worker at a point. -/
structure Fits (s : Store) (p : Worker) : Prop where
  /-- While its lease lives, the row is its own. -/
  own : ∀ k l, p.holds = some (k, l) → s.clock < l →
    s.row.status = .pending ∧ s.row.leaseUntil = some l ∧ s.row.claimedBy = some k
  /-- A claim that has not sent has no send in the log. -/
  unsent : ∀ k l started ended, p.holds = some (k, l) → Entry.send k started ended ∉ s.log
  fresh : ∀ k, p.token = some k → k < s.issued
  keyed : ∀ k, p.token = some k → s.row.keyed = true
  /-- The claim that holds a pending row has its lease on it. -/
  leased : ∀ k, p.token = some k → s.row.claimedBy = some k → s.row.status = .pending → s.row.leaseUntil ≠ none
  /-- The attempts it read are still the row's, while it holds it. -/
  ready : ∀ now k l a, p = .ready now k l a → s.row.claimedBy = some k → a = s.row.attempts
  done : ∀ now k a e r, p = .done now k a e r → s.row.claimedBy = some k → a = s.row.attempts
  /-- Its send is over when it says so. -/
  ended : ∀ now k a e r started ended, p = .done now k a e r → Entry.send k started ended ∈ s.log → ended ≤ e
  duplicate : p = .duplicate → s.keyTaken = true ∧ s.row.keyed = false
  claiming : ∀ now clock, p = .claiming now clock → clock ≤ s.clock
  taken : ∀ clock, p = .taken clock → clock ≤ s.clock

/-- A worker without a claim fits any store that its readings fit. -/
theorem Fits.plain {s : Store} {p : Worker} (token : p.token = none)
    (duplicate : p = .duplicate → s.keyTaken = true ∧ s.row.keyed = false)
    (claiming : ∀ now clock, p = .claiming now clock → clock ≤ s.clock)
    (taken : ∀ clock, p = .taken clock → clock ≤ s.clock) : Fits s p := by
  have holds : p.holds = none := by
    cases p <;> first | rfl | cases token
  refine ⟨?_, ?_, ?_, ?_, ?_, ?_, ?_, ?_, duplicate, claiming, taken⟩
  · simp [holds]
  · simp [holds]
  · simp [token]
  · simp [token]
  · simp [token]
  · rintro now k l a rfl
    cases token
  · rintro now k a e r rfl
    cases token
  · rintro now k a e r started ended rfl
    cases token

theorem holds_token {p : Worker} {k l : Nat} (holds : p.holds = some (k, l)) : p.token = some k := by
  cases p <;> cases holds <;> rfl

/-! ## The store -/

/-- What the store holds of itself; `most` bounds the row's attempts. -/
structure Kept (most : Nat) (s : Store) : Prop where
  /-- A send in the log is over, or its claim still holds the row under a lease that outlasts it. -/
  over_ : ∀ k started ended, Entry.send k started ended ∈ s.log → ended ≤ s.clock ∨
    s.row.status = .pending ∧ s.row.claimedBy = some k ∧ ∃ l, s.row.leaseUntil = some l ∧ ended ≤ l
  settled : ∀ status, Entry.outcome status ∈ s.log → s.row.status ≠ .pending
  ordered : s.log.Pairwise Ordered
  key : s.row.keyed = true → s.keyTaken = false
  holder : ∀ k, s.row.claimedBy = some k → k < s.issued
  sends : ∀ k started ended, Entry.send k started ended ∈ s.log → k < s.issued ∧ s.row.keyed = true
  leaseKeyed : s.row.leaseUntil ≠ none → s.row.keyed = true
  attempts : s.row.attempts ≤ max MAX_ATTEMPTS most

variable {most : Nat} {s : Store} {p : Worker}

/-- A send whose claim has lost its lease is over. -/
theorem Kept.over_free (kept : Kept most s) {clock k started ended : Nat} (none_ : free s.row clock)
    (now : clock ≤ s.clock) (sent : Entry.send k started ended ∈ s.log) : ended ≤ s.clock := by
  rcases kept.over_ k started ended sent with over_ | ⟨_, _, l, lease, upto⟩
  · exact over_
  · have := none_ l lease
    omega

/-- An entry that may follow all of a log may follow the log. -/
theorem pairwise_snoc {R : Entry → Entry → Prop} {log : List Entry} {entry : Entry}
    (all : log.Pairwise R) (before : ∀ x ∈ log, R x entry) : (log ++ [entry]).Pairwise R := by
  rw [List.pairwise_append]
  refine ⟨all, List.pairwise_singleton .., ?_⟩
  intro x in_ y last
  rw [List.mem_singleton.mp last]
  exact before x in_

/-- An entry that is no send follows whatever a pending row has. -/
theorem Kept.ordered_after (kept : Kept most s) (pending : s.row.status = .pending) {entry : Entry}
    (other : entry.isSend = false) : ∀ x ∈ s.log, Ordered x entry := by
  intro x in_
  cases x with
  | send k started ended =>
    cases entry with
    | send => cases other
    | failed => trivial
    | outcome => trivial
  | failed at_ => cases entry <;> trivial
  | outcome status => exact absurd pending (kept.settled status in_)

/-! ### The claim -/

section Claim

variable {clock : Nat}

theorem Kept.claim (kept : Kept most s) (can : claimable s.row clock) (now : clock ≤ s.clock)
    (key : s.row.keyed = false → s.keyTaken = false) : Kept most (claim s clock) where
  over_ k started ended sent := .inl (kept.over_free can.2.1 now sent)
  settled status in_ := absurd can.1 (kept.settled status in_)
  ordered := kept.ordered
  key _ := by
    cases here : s.row.keyed with
    | false => exact key here
    | true => exact kept.key here
  holder k held := by
    cases held
    exact Nat.lt_succ_self _
  sends k started ended sent := ⟨(kept.sends k started ended sent).1.trans (Nat.lt_succ_self _), rfl⟩
  leaseKeyed _ := rfl
  attempts := by
    have := can.2.2
    show s.row.attempts + 1 ≤ _
    omega

/-- The claim leaves the others what they hold: who holds a row with a live lease keeps it. -/
theorem Fits.claim (fits : Fits s p) (can : claimable s.row clock) (now : clock ≤ s.clock)
    (key : s.row.keyed = false → s.keyTaken = false) : Fits (claim s clock) p where
  own k l holds live := by
    have mine := fits.own k l holds live
    have := can.2.1 l mine.2.1
    have live : s.clock < l := live
    omega
  unsent := fits.unsent
  fresh k token := (fits.fresh k token).trans (Nat.lt_succ_self _)
  keyed _ _ := rfl
  leased k token held := by
    have held : some s.issued = some k := held
    have := fits.fresh k token
    cases held
    omega
  ready now k l a here held := by
    have held : some s.issued = some k := held
    have := fits.fresh k (by rw [here]; rfl)
    cases held
    omega
  done now k a e r here held := by
    have held : some s.issued = some k := held
    have := fits.fresh k (by rw [here]; rfl)
    cases held
    omega
  ended := fits.ended
  duplicate here := by
    have both := fits.duplicate here
    rw [key both.2] at both
    cases both.1
  claiming := fits.claiming
  taken := fits.taken

/-- The worker that claims. -/
theorem Fits.claimed (kept : Kept most s) (can : claimable s.row clock) (now : Nat) :
    Fits (Outbox.claim s clock) (.claimed now s.issued (leaseEnd clock)) where
  own k l holds _ := by
    cases holds
    exact ⟨can.1, rfl, rfl⟩
  unsent k l started ended holds sent := by
    cases holds
    exact absurd (kept.sends _ started ended sent).1 (lt_irrefl _)
  fresh k token := by
    cases token
    exact Nat.lt_succ_self _
  keyed _ _ := rfl
  leased _ _ _ _ := Option.some_ne_none _
  ready := by simp
  done := by simp
  ended := by simp
  duplicate := by simp
  claiming := by simp
  taken := by simp

end Claim

/-! ### A terminal status -/

variable {attempts : Nat} {status : Status}

/-- A close keeps the store when every send is over. -/
theorem Kept.close (kept : Kept most s) (pending : s.row.status = .pending)
    (all : ∀ k started ended, Entry.send k started ended ∈ s.log → ended ≤ s.clock)
    (terminal : status ≠ .pending) (read : attempts = s.row.attempts) :
    Kept most (close { s with row := { s.row with attempts := attempts } } status) where
  over_ k started ended sent := by
    have sent : Entry.send k started ended ∈ s.log ++ [Entry.outcome status] := sent
    exact .inl (all k started ended (by simpa using sent))
  settled _ _ := terminal
  ordered := pairwise_snoc kept.ordered (kept.ordered_after pending rfl)
  key := kept.key
  holder := kept.holder
  sends k started ended sent := by
    have sent : Entry.send k started ended ∈ s.log ++ [Entry.outcome status] := sent
    exact kept.sends k started ended (by simpa using sent)
  leaseKeyed lease := absurd rfl lease
  attempts := by
    subst read
    exact kept.attempts

/-- It leaves a worker what it holds, when that worker has no live lease and reads no attempts of a
row it holds. -/
theorem Fits.close (fits : Fits s p) (terminal : status ≠ .pending)
    (read : attempts = s.row.attempts) (over_ : ∀ k l, p.holds = some (k, l) → l ≤ s.clock) :
    Fits (close { s with row := { s.row with attempts := attempts } } status) p where
  own k l holds live := by
    have live : s.clock < l := live
    have := over_ k l holds
    omega
  unsent k l started ended holds sent := by
    have sent : Entry.send k started ended ∈ s.log ++ [Entry.outcome status] := sent
    exact fits.unsent k l started ended holds (by simpa using sent)
  fresh := fits.fresh
  keyed := fits.keyed
  leased _ _ _ pending := absurd pending terminal
  ready now k l a here held := by
    subst read
    exact fits.ready now k l a here held
  done now k a e r here held := by
    subst read
    exact fits.done now k a e r here held
  ended now k a e r started ended here sent := by
    have sent : Entry.send k started ended ∈ s.log ++ [Entry.outcome status] := sent
    exact fits.ended now k a e r started ended here (by simpa using sent)
  duplicate := fits.duplicate
  claiming := fits.claiming
  taken := fits.taken

/-! ### A retry -/

/-- The store after a failure that schedules a retry. -/
def retry (s : Store) (at_ attempts : Nat) : Store :=
  { s with
    row := { s.row with attempts := attempts, nextAttemptAt := at_, leaseUntil := none }
    log := s.log ++ [Entry.failed at_] }

theorem Kept.retry (kept : Kept most s) (pending : s.row.status = .pending)
    (all : ∀ k started ended, Entry.send k started ended ∈ s.log → ended ≤ s.clock) (at_ : Nat)
    (read : attempts = s.row.attempts) : Kept most (retry s at_ attempts) where
  over_ k started ended sent := by
    have sent : Entry.send k started ended ∈ s.log ++ [Entry.failed at_] := sent
    exact .inl (all k started ended (by simpa using sent))
  settled status in_ := by
    have in_ : Entry.outcome status ∈ s.log ++ [Entry.failed at_] := in_
    exact kept.settled status (by simpa using in_)
  ordered := pairwise_snoc kept.ordered (kept.ordered_after pending rfl)
  key := kept.key
  holder := kept.holder
  sends k started ended sent := by
    have sent : Entry.send k started ended ∈ s.log ++ [Entry.failed at_] := sent
    exact kept.sends k started ended (by simpa using sent)
  leaseKeyed lease := absurd rfl lease
  attempts := by
    subst read
    exact kept.attempts

/-- A retry of another claim leaves a worker what it holds. -/
theorem Fits.retry (fits : Fits s p) (at_ : Nat) (read : attempts = s.row.attempts)
    (other : ∀ k, p.token = some k → s.row.claimedBy ≠ some k) : Fits (retry s at_ attempts) p where
  own k l holds live := absurd (fits.own k l holds live).2.2 (other k (holds_token holds))
  unsent k l started ended holds sent := by
    have sent : Entry.send k started ended ∈ s.log ++ [Entry.failed at_] := sent
    exact fits.unsent k l started ended holds (by simpa using sent)
  fresh := fits.fresh
  keyed := fits.keyed
  leased k token held := absurd held (other k token)
  ready now k l a here held := by
    subst read
    exact fits.ready now k l a here held
  done now k a e r here held := by
    subst read
    exact fits.done now k a e r here held
  ended now' k a e r started ended here sent := by
    have sent : Entry.send k started ended ∈ s.log ++ [Entry.failed at_] := sent
    exact fits.ended now' k a e r started ended here (by simpa using sent)
  duplicate := fits.duplicate
  claiming := fits.claiming
  taken := fits.taken

/-! ### A send -/

section Send

variable {now k l attempts ended : Nat} {result : Result}

/-- A send of a claim whose lease lives follows every send before it. -/
theorem Kept.send (kept : Kept most s) (fits : Fits s (.ready now k l attempts)) (intime : s.clock < sendUntil l)
    (within : ended ≤ sendUntil l) : Kept most { s with log := s.log ++ [Entry.send k s.clock ended] } := by
  have shorter := sendUntil_le l
  obtain ⟨pending, lease, held⟩ := fits.own k l rfl (by omega)
  constructor
  · intro k' started' ended' sent
    have sent : Entry.send k' started' ended' ∈ s.log ++ [Entry.send k s.clock ended] := sent
    rcases List.mem_append.mp sent with older | last
    · exact kept.over_ k' started' ended' older
    · cases List.mem_singleton.mp last
      exact .inr ⟨pending, held, l, lease, by omega⟩
  · intro status in_
    have in_ : Entry.outcome status ∈ s.log ++ [Entry.send k s.clock ended] := in_
    exact kept.settled status (by simpa using in_)
  · apply pairwise_snoc kept.ordered
    intro x in_
    cases x with
    | outcome status => exact absurd pending (kept.settled status in_)
    | failed at_ => trivial
    | send k' started' ended' =>
      rcases kept.over_ k' started' ended' in_ with over_ | ⟨_, same, _⟩
      · exact over_
      · -- the claim that holds the row is this one, and it has not sent
        rw [held] at same
        cases same
        exact absurd in_ (fits.unsent k l started' ended' rfl)
  · exact kept.key
  · exact kept.holder
  · intro k' started' ended' sent
    have sent : Entry.send k' started' ended' ∈ s.log ++ [Entry.send k s.clock ended] := sent
    rcases List.mem_append.mp sent with older | last
    · exact kept.sends k' started' ended' older
    · cases List.mem_singleton.mp last
      exact ⟨fits.fresh k rfl, fits.keyed k rfl⟩
  · exact kept.leaseKeyed
  · exact kept.attempts

/-- A send of another claim leaves a worker what it holds. -/
theorem Fits.send (fits : Fits s p) (started ended : Nat) (other : p.token ≠ some k) :
    Fits { s with log := s.log ++ [Entry.send k started ended] } p where
  own := fits.own
  unsent k' l' started' ended' holds sent := by
    rcases List.mem_append.mp sent with older | last
    · exact fits.unsent k' l' started' ended' holds older
    · cases List.mem_singleton.mp last
      exact other (holds_token holds)
  fresh := fits.fresh
  keyed := fits.keyed
  leased := fits.leased
  ready := fits.ready
  done := fits.done
  ended now' k' a e r started' ended' here sent := by
    rcases List.mem_append.mp sent with older | last
    · exact fits.ended now' k' a e r started' ended' here older
    · cases List.mem_singleton.mp last
      exact absurd (by rw [here]; rfl) other
  duplicate := fits.duplicate
  claiming := fits.claiming
  taken := fits.taken

/-- The worker that sends. -/
theorem Fits.sent (fits : Fits s (.ready now k l attempts)) (ended : Nat) (result : Result) :
    Fits { s with log := s.log ++ [Entry.send k s.clock ended] } (.done now k attempts ended result) where
  own := by simp [Worker.holds]
  unsent := by simp [Worker.holds]
  fresh k' token := fits.fresh k' token
  keyed k' token := fits.keyed k' token
  leased k' token := fits.leased k' token
  ready := by simp
  done now' k' a e r here held := by
    cases here
    exact fits.ready now k l attempts rfl held
  ended now' k' a e r started' ended' here sent := by
    cases here
    rcases List.mem_append.mp sent with older | last
    · exact absurd older (fits.unsent k l started' ended' rfl)
    · cases List.mem_singleton.mp last
      exact le_refl _
  duplicate := by simp
  claiming := by simp
  taken := by simp

/-- A worker that gives up its send. -/
theorem Fits.unsentDone (fits : Fits s (.ready now k l attempts)) (result : Result) :
    Fits s (.done now k attempts s.clock result) where
  own := by simp [Worker.holds]
  unsent := by simp [Worker.holds]
  fresh k' token := fits.fresh k' token
  keyed k' token := fits.keyed k' token
  leased k' token := fits.leased k' token
  ready := by simp
  done now' k' a e r here held := by
    cases here
    exact fits.ready now k l attempts rfl held
  ended now' k' a e r started' ended' here sent := by
    cases here
    exact absurd sent (fits.unsent k l started' ended' rfl)
  duplicate := by simp
  claiming := by simp
  taken := by simp

/-- A worker that reads the attempts again. -/
theorem Fits.refresh (fits : Fits s (.claimed now k l)) : Fits s (.ready now k l s.row.attempts) where
  own k' l' holds := fits.own k' l' holds
  unsent k' l' started' ended' holds := fits.unsent k' l' started' ended' holds
  fresh k' token := fits.fresh k' token
  keyed k' token := fits.keyed k' token
  leased k' token := fits.leased k' token
  ready now' k' l' a here _ := by
    cases here
    rfl
  done := by simp
  ended := by simp
  duplicate := by simp
  claiming := by simp
  taken := by simp

end Send

/-! ### From outside -/

theorem Kept.tick (kept : Kept most s) {clock : Nat} (later : s.clock ≤ clock) :
    Kept most { s with clock := clock } where
  over_ k started ended sent := (kept.over_ k started ended sent).imp_left fun over_ => over_.trans later
  settled := kept.settled
  ordered := kept.ordered
  key := kept.key
  holder := kept.holder
  sends := kept.sends
  leaseKeyed := kept.leaseKeyed
  attempts := kept.attempts

theorem Fits.tick (fits : Fits s p) {clock : Nat} (later : s.clock ≤ clock) : Fits { s with clock := clock } p where
  own k l holds live := fits.own k l holds (lt_of_le_of_lt later live)
  unsent := fits.unsent
  fresh := fits.fresh
  keyed := fits.keyed
  leased := fits.leased
  ready := fits.ready
  done := fits.done
  ended := fits.ended
  duplicate := fits.duplicate
  claiming now c here := (fits.claiming now c here).trans later
  taken c here := (fits.taken c here).trans later

theorem Kept.takeKey (kept : Kept most s) (unkeyed : s.row.keyed = false) : Kept most { s with keyTaken := true } where
  over_ := kept.over_
  settled := kept.settled
  ordered := kept.ordered
  key keyed := by
    have keyed : s.row.keyed = true := keyed
    rw [unkeyed] at keyed
    cases keyed
  holder := kept.holder
  sends := kept.sends
  leaseKeyed := kept.leaseKeyed
  attempts := kept.attempts

theorem Fits.takeKey (fits : Fits s p) : Fits { s with keyTaken := true } p where
  own := fits.own
  unsent := fits.unsent
  fresh := fits.fresh
  keyed := fits.keyed
  leased := fits.leased
  ready := fits.ready
  done := fits.done
  ended := fits.ended
  duplicate here := ⟨rfl, (fits.duplicate here).2⟩
  claiming := fits.claiming
  taken := fits.taken

end AdvanceTrading.Outbox
