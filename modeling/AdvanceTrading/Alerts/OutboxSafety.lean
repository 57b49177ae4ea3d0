import AdvanceTrading.Alerts.OutboxClaims

/-!
# Delivery from the outbox

The invariant of all interleavings, the run lemma, and what follows from it:
sends do not overlap and stop at a terminal outcome, attempts are bounded, only
the holder writes, and a crashed holder's row is claimed again. A retry is
waited for in the runs whose claims all look at it.
-/

namespace AdvanceTrading.Outbox

variable {n : Nat} {w w' : Procs Store Worker n} {who : Fin n} {s' : Store} {p' : Worker}

/-- How many sends a log has. -/
def sends (log : List Entry) : Nat := log.countP Entry.isSend

/-- How many workers have a claim that they have not sent for. -/
def unsent (w : Procs Store Worker n) : Nat := w.tally fun p => p.holds.isSome

/-- The invariant of a row that came with `before` attempts. -/
structure Inv (before : Nat) (w : Procs Store Worker n) : Prop where
  kept : Kept before w.shared
  fits : ∀ q, Fits w.shared (w.point q)
  apart : ∀ q q' k, (w.point q).token = some k → (w.point q').token = some k → q = q'
  counted : sends w.shared.log + unsent w + before ≤ w.shared.row.attempts

variable {before : Nat}

/-- A move that keeps the store and every worker, gives no token twice and pays each send with an attempt. -/
theorem Inv.move (inv : Inv before w) (kept : Kept before s') (mine : Fits s' p')
    (others : ∀ q, q ≠ who → Fits s' (w.point q))
    (token : ∀ k, p'.token = some k → (w.point who).token = some k ∨ k = w.shared.issued)
    (paid : sends s'.log + (if p'.holds.isSome then 1 else 0) + w.shared.row.attempts ≤
      sends w.shared.log + (if (w.point who).holds.isSome then 1 else 0) + s'.row.attempts) :
    Inv before (w.move who s' p') := by
  -- the worker that moves has a token of its own
  have single : ∀ q k, q ≠ who → p'.token = some k → (w.point q).token ≠ some k := by
    intro q k other own same
    rcases token k own with before_ | new
    · exact other (inv.apart q who k same before_)
    · have := (inv.fits q).fresh k same
      omega
  refine ⟨kept, fun q => Procs.forall_move (others) mine q, ?_, ?_⟩
  · intro q q' k first second
    by_cases here : q = who
    · subst here
      rw [Procs.move_self] at first
      by_contra other
      rw [Procs.move_other (Ne.symm other)] at second
      exact single q' k (Ne.symm other) first second
    · rw [Procs.move_other here] at first
      by_cases there : q' = who
      · subst there
        rw [Procs.move_self] at second
        exact absurd first (single q k here second)
      · rw [Procs.move_other there] at second
        exact inv.apart q q' k first second
  · have moved := Procs.tally_move (w := w) (fun p => p.holds.isSome) who s' p'
    have counted := inv.counted
    unfold unsent at counted ⊢
    rw [Procs.move_shared]
    omega

/-- A move that leaves the store alone and takes no token. -/
theorem Inv.idle (inv : Inv before w) (mine : Fits w.shared p') (token : p'.token = none) :
    Inv before (w.move who w.shared p') := by
  have holds : p'.holds = none := by
    cases p' <;> first | rfl | cases token
  refine inv.move inv.kept mine (fun q _ => inv.fits q) (by simp [token]) ?_
  simp [holds]

/-- A worker that has no claim and has read no clock fits any store. -/
theorem Fits.nothing {s : Store} {p : Worker} (token : p.token = none) (duplicate : p ≠ .duplicate)
    (claiming : ∀ now clock, p ≠ .claiming now clock) (taken : ∀ clock, p ≠ .taken clock) : Fits s p :=
  .plain token (fun here => absurd here duplicate) (fun now clock here => absurd here (claiming now clock))
    fun clock here => absurd here (taken clock)

theorem Fits.idle (s : Store) : Fits s .idle := .nothing rfl (by simp) (by simp) (by simp)

/-- What an outcome writes: a terminal status, or a retry. -/
theorem write_cases {s : Store} (now : Nat) {attempts : Nat} (read : attempts = s.row.attempts) (result : Result) :
    (∃ status, status ≠ .pending ∧
      write s now attempts result = close { s with row := { s.row with attempts := attempts } } status) ∨
    write s now attempts result = retry s (retryAt now attempts) attempts := by
  subst read
  cases result with
  | delivered => exact .inl ⟨.sent, by simp, rfl⟩
  | suppressed => exact .inl ⟨.suppressed, by simp, rfl⟩
  | disabled => exact .inl ⟨.failed, by simp, rfl⟩
  | failed =>
    by_cases used : MAX_ATTEMPTS ≤ s.row.attempts
    · exact .inl ⟨.dead, by simp, if_pos used⟩
    · exact .inr (if_neg used)

/-- The sends of a holder that is done are all over. -/
theorem Inv.all_over (inv : Inv before w) {now k a e : Nat} {r : Result} (here : w.point who = .done now k a e r)
    (over_ : e ≤ w.shared.clock) (held : w.shared.row.claimedBy = some k) :
    ∀ k' started ended, Entry.send k' started ended ∈ w.shared.log → ended ≤ w.shared.clock := by
  intro k' started ended sent
  rcases inv.kept.over_ k' started ended sent with past | ⟨_, same, _⟩
  · exact past
  · rw [held] at same
    cases same
    exact ((inv.fits who).ended now k a e r started ended here sent).trans over_

/-- No other worker than the holder has a live lease. -/
theorem Inv.others_over (inv : Inv before w) {k : Nat} (mine : (w.point who).token = some k)
    (held : w.shared.row.claimedBy = some k) {q : Fin n} (other : q ≠ who) :
    ∀ k' l, (w.point q).holds = some (k', l) → l ≤ w.shared.clock := by
  intro k' l holds
  by_contra live
  have own := (inv.fits q).own k' l holds (not_le.mp live)
  rw [held] at own
  cases own.2.2
  exact other (inv.apart q who k (holds_token holds) mine)

/-- No worker has a live lease on a row that is free. -/
theorem Inv.free_over (inv : Inv before w) {clock : Nat} (none_ : free w.shared.row clock)
    (now : clock ≤ w.shared.clock) (q : Fin n) : ∀ k l, (w.point q).holds = some (k, l) → l ≤ w.shared.clock := by
  intro k l holds
  by_contra live
  have own := (inv.fits q).own k l holds (not_le.mp live)
  have := none_ l own.2.1
  omega

@[simp] theorem sends_outcome (log : List Entry) (status : Status) :
    sends (log ++ [Entry.outcome status]) = sends log := by
  simp [sends, Entry.isSend]

@[simp] theorem sends_failed (log : List Entry) (at_ : Nat) : sends (log ++ [Entry.failed at_]) = sends log := by
  simp [sends, Entry.isSend]

@[simp] theorem sends_send (log : List Entry) (k started ended : Nat) :
    sends (log ++ [Entry.send k started ended]) = sends log + 1 := by
  simp [sends, Entry.isSend]

/-- One statement of one worker. -/
theorem Inv.act (inv : Inv before w) {a : Action} (effect : Effect w.shared (w.point who) a s' p') :
    Inv before (w.move who s' p') := by
  have mine := inv.fits who
  generalize here : w.point who = p at effect mine
  cases effect with
  | crash => exact inv.idle (.idle _) rfl
  | start => exact inv.idle (.nothing rfl (by simp) (by simp) (by simp)) rfl
  | listed => exact inv.idle (.nothing rfl (by simp) (by simp) (by simp)) rfl
  | notDue => exact inv.idle (.idle _) rfl
  | look =>
    refine inv.idle (.plain rfl (by simp) ?_ (by simp)) rfl
    intro now clock here
    cases here
    exact le_refl _
  | taken =>
    refine inv.idle (.plain rfl (by simp) (by simp) ?_) rfl
    intro clock same
    cases same
    exact mine.claiming _ _ rfl
  | duplicate unkeyed other =>
    exact inv.idle (.plain rfl (fun _ => ⟨other, unkeyed⟩) (by simp) (by simp)) rfl
  | @claimed now clock can key =>
    have read := mine.claiming now clock rfl
    refine inv.move (inv.kept.claim can read key) (.claimed inv.kept can now)
      (fun q _ => (inv.fits q).claim can read key) ?_ ?_
    · intro k token
      cases token
      exact .inr rfl
    · rw [here]
      simp only [claim, Worker.holds, Option.isSome_some, Option.isSome_none, if_true]
      have : (if false = true then 1 else 0) = 0 := rfl
      omega
  | @lost clock gone =>
    have read := mine.taken clock rfl
    refine inv.move (inv.kept.close gone.1 ?_ (by simp) rfl) (.idle _)
      (fun q _ => (inv.fits q).close (by simp) rfl (inv.free_over gone.2.1 read q)) (by simp [Worker.token]) ?_
    · intro k started ended sent
      exact inv.kept.over_free gone.2.1 read sent
    · simp [close, Worker.holds]
  | notLost => exact inv.idle (.idle _) rfl
  | suppressed pending =>
    have unkeyed := (mine.duplicate rfl).2
    refine inv.move (inv.kept.close pending ?_ (by simp) rfl) (.idle _) (fun q _ => (inv.fits q).close (by simp) rfl ?_)
      (by simp [Worker.token]) ?_
    · intro k started ended sent
      rw [(inv.kept.sends k started ended sent).2] at unkeyed
      cases unkeyed
    · intro k l holds
      rw [(inv.fits q).keyed k (holds_token holds)] at unkeyed
      cases unkeyed
    · simp [close, Worker.holds]
  | notPending => exact inv.idle (.idle _) rfl
  | @refresh now k l =>
    refine inv.move inv.kept mine.refresh (fun q _ => inv.fits q) ?_ ?_
    · intro k' token
      rw [here]
      exact .inl token
    · simp [here, Worker.holds]
  | @refuse now k l attempts result =>
    refine inv.move inv.kept (mine.unsentDone result) (fun q _ => inv.fits q) ?_ ?_
    · intro k' token
      rw [here]
      exact .inl token
    · simp [here, Worker.holds]
  | @late now k l attempts =>
    refine inv.move inv.kept (mine.unsentDone .failed) (fun q _ => inv.fits q) ?_ ?_
    · intro k' token
      rw [here]
      exact .inl token
    · simp [here, Worker.holds]
  | @send now k l attempts ended result intime after_ within =>
    refine inv.move (inv.kept.send mine intime within) (mine.sent ended result) ?_ ?_ ?_
    · intro q other
      refine (inv.fits q).send _ ended fun same => other (inv.apart q who k same ?_)
      rw [here]
      rfl
    · intro k' token
      rw [here]
      exact .inl token
    · simp [here, Worker.holds]
  | @finish now k attempts ended result over_ held pending =>
    have read := mine.done now k attempts ended result rfl held
    have own : (w.point who).token = some k := by
      rw [here]
      rfl
    have past := inv.all_over here over_ held
    rcases write_cases now read result with ⟨status, terminal, same⟩ | same
    · rw [same]
      refine inv.move (inv.kept.close pending past terminal read) (.idle _)
        (fun q other => (inv.fits q).close terminal read (inv.others_over own held other)) (by simp [Worker.token]) ?_
      simp [close, Worker.holds, read]
    · rw [same]
      refine inv.move (inv.kept.retry pending past (retryAt now attempts) read) (.idle _) ?_ (by simp [Worker.token]) ?_
      · intro q other
        refine (inv.fits q).retry (retryAt now attempts) read fun k' token same => ?_
        rw [held] at same
        cases same
        exact other (inv.apart q who k token own)
      · simp [retry, Worker.holds, read]
  | takenOver => exact inv.idle (.idle _) rfl

variable {e : ProcEvent n Action Outside}

/-- One step of an interleaving. -/
theorem Inv.step (inv : Inv before w) (stepped : (drains n).step w e = some w') :
    Inv before w' := by
  cases e with
  | act who a =>
    obtain ⟨s', p', ran, rfl⟩ := Procs.act_eq stepped
    exact inv.act (statement_effect ran)
  | outside event =>
    obtain ⟨s', ran, rfl⟩ := Procs.outside_eq stepped
    cases event with
    | tick clock =>
      obtain ⟨later, same⟩ := Option.ite_none_right_eq_some.mp ran
      cases same
      exact ⟨inv.kept.tick later, fun q => (inv.fits q).tick later, inv.apart, inv.counted⟩
    | takeKey =>
      obtain ⟨unkeyed, same⟩ := Option.ite_none_right_eq_some.mp ran
      cases same
      exact ⟨inv.kept.takeKey unkeyed, fun q => (inv.fits q).takeKey, inv.apart, inv.counted⟩

theorem inv_begin (n clock : Nat) (row : Delivery) : Inv row.attempts (begin_ n clock row) where
  kept := by
    refine ⟨by simp [begin_], by simp [begin_], .nil, fun _ => rfl, ?_, by simp [begin_],
      by simp [begin_], le_max_right ..⟩
    intro k held
    have held : row.claimedBy = some k := held
    simp [begin_, held]
  fits _ := .idle _
  apart q q' k first := by cases first
  counted := by
    have none_ : unsent (begin_ n clock row) = 0 := Procs.tally_eq_zero fun _ => rfl
    rw [none_, Nat.add_zero]
    exact (Nat.zero_add _).le

/-! ## Who writes -/

/-- A step that writes an outcome or a retry: by the claim that holds the row, or, where no claim
has a live lease, for the attempts that are used up or the key that another row has. -/
inductive Writer (w w' : Procs Store Worker n) : ProcEvent n Action Outside → Prop
  | holder {who : Fin n} {now token attempts ended : Nat} {result : Result}
      (at_ : w.point who = .done now token attempts ended result)
      (held : w.shared.row.claimedBy = some token) : Writer w w' (.act who .finish)
  | workerLost {who : Fin n} (over_ : free w.shared.row w.shared.clock)
      (used : MAX_ATTEMPTS ≤ w.shared.row.attempts) (dead : w'.shared.row.status = .dead) :
      Writer w w' (.act who .lose)
  | sameKey {who : Fin n} (unclaimed : ∀ q, (w.point q).token = none)
      (suppressed : w'.shared.row.status = .suppressed) : Writer w w' (.act who .suppress)

/-- A terminal row stays as it is, and an outcome or a retry has its writer. -/
structure Written (w w' : Procs Store Worker n) (e : ProcEvent n Action Outside) : Prop where
  terminal : w.shared.row.status ≠ .pending → w'.shared.row = w.shared.row
  writer : w'.shared.row.status ≠ w.shared.row.status ∨
    w'.shared.row.nextAttemptAt ≠ w.shared.row.nextAttemptAt → Writer w w' e

theorem Written.of_same (same : w'.shared.row = w.shared.row) : Written w w' e := by
  refine ⟨fun _ => same, fun wrote => ?_⟩
  rw [same] at wrote
  simp at wrote

theorem Inv.written (inv : Inv before w) (stepped : (drains n).step w e = some w') :
    Written w w' e := by
  cases e with
  | outside event =>
    obtain ⟨s', ran, rfl⟩ := Procs.outside_eq stepped
    cases event with
    | tick clock =>
      obtain ⟨_, same⟩ := Option.ite_none_right_eq_some.mp ran
      cases same
      exact .of_same rfl
    | takeKey =>
      obtain ⟨_, same⟩ := Option.ite_none_right_eq_some.mp ran
      cases same
      exact .of_same rfl
  | act who a =>
    obtain ⟨s', p', ran, rfl⟩ := Procs.act_eq stepped
    have effect := statement_effect ran
    have mine := inv.fits who
    generalize here : w.point who = p at effect mine
    cases effect with
    | claimed can key =>
      refine ⟨fun terminal => absurd can.1 terminal, fun wrote => ?_⟩
      simp [claim] at wrote
    | @lost clock gone =>
      refine ⟨fun terminal => absurd gone.1 terminal, fun _ => .workerLost ?_ gone.2.2 rfl⟩
      intro l lease
      exact (gone.2.1 l lease).trans (mine.taken clock rfl)
    | suppressed pending =>
      refine ⟨fun terminal => absurd pending terminal, fun _ => .sameKey ?_ rfl⟩
      intro q
      cases token : (w.point q).token with
      | none => rfl
      | some k =>
        have keyed := (inv.fits q).keyed k token
        rw [(mine.duplicate rfl).2] at keyed
        cases keyed
    | finish over_ held pending =>
      exact ⟨fun terminal => absurd pending terminal, fun _ => .holder here held⟩
    | _ => exact .of_same rfl

/-! ## A row left by its holder -/

/-- Once the lease is over the row is claimable, or its attempts are used up; a worker that drains
then, the row being due, claims it, and where its attempts are used up the row is DEAD. -/
def Recovers (w : Procs Store Worker n) : Prop :=
  ∀ q l t, w.point q = .idle → w.shared.row.status = .pending → w.shared.row.leaseUntil = some l →
    w.shared.clock ≤ t → l ≤ t → (claimable w.shared.row t ∨ lost w.shared.row t) ∧
    (w.shared.row.nextAttemptAt ≤ t →
      ∃ w', (drains n).run w (.outside (.tick t) :: [.start, .list, .look, .claim].map (.act q)) = some w' ∧
        (w.shared.row.attempts < MAX_ATTEMPTS → w'.point q = .claimed t w.shared.issued (leaseEnd t) ∧
          w'.shared.row.claimedBy = some w.shared.issued ∧ w'.shared.row.attempts = w.shared.row.attempts + 1) ∧
        (MAX_ATTEMPTS ≤ w.shared.row.attempts →
          ∃ w'', (drains n).run w' [.act q .lose] = some w'' ∧ w''.shared.row.status = .dead))

theorem Inv.recovers (inv : Inv before w) : Recovers w := by
  intro q l t idle pending lease later over_
  have free_ : free w.shared.row t := by
    intro l' lease'
    rw [lease] at lease'
    cases lease'
    exact over_
  have keyed := inv.kept.leaseKeyed (by simp [lease])
  have ticked : (drains n).step w (.outside (.tick t)) = some { w with shared := { w.shared with clock := t } } := by
    show (if w.shared.clock ≤ t then _ else none : Option Store).map _ = _
    rw [if_pos later]
    rfl
  refine ⟨?_, fun waited => ?_⟩
  · rcases lt_or_ge w.shared.row.attempts MAX_ATTEMPTS with left | used
    · exact .inl ⟨pending, free_, left⟩
    · exact .inr ⟨pending, free_, used⟩
  have listed : due w.shared.row t t := ⟨pending, waited, free_⟩
  rw [Machine.run_cons, ticked, Option.bind_some]
  show ∃ w', (Procs.interleave statement outside n).run _ _ = _ ∧ _
  rw [Procs.run_solo]
  by_cases used : MAX_ATTEMPTS ≤ w.shared.row.attempts
  · have cannot : ¬ claimable w.shared.row t := fun can => absurd can.2.2 (not_lt.mpr used)
    have gone : lost w.shared.row t := ⟨pending, free_, used⟩
    refine ⟨Procs.move { w with shared := { w.shared with clock := t } } q { w.shared with clock := t } (.taken t),
      ?_, fun less => absurd used (not_le.mpr less), fun _ => ?_⟩
    · simp [Procs.solo, statement, idle, listed, cannot]
    · refine ⟨Procs.move { w with shared := { w.shared with clock := t } } q
        (close { w.shared with clock := t } .dead) .idle, ?_, rfl⟩
      simp [Machine.run, drains, Procs.interleave, statement, gone]
  · have can : claimable w.shared.row t := ⟨pending, free_, not_le.mp used⟩
    refine ⟨Procs.move { w with shared := { w.shared with clock := t } } q
      (claim { w.shared with clock := t } t) (.claimed t w.shared.issued (leaseEnd t)),
      ?_, fun _ => ?_, fun all => absurd all used⟩
    · simp [Procs.solo, statement, idle, listed, can, keyed, claim]
    · simp [claim]

/-! ## Retries that are waited for -/

/-- No claim takes the row at a clock before the row's next attempt. -/
def OnTime (w : Procs Store Worker n) : ProcEvent n Action Outside → Prop
  | .act who .claim =>
      match w.point who with
      | .claiming _ clock => claimable w.shared.row clock → w.shared.row.nextAttemptAt ≤ clock
      | _ => True
  | _ => True

instance (w : Procs Store Worker n) (e : ProcEvent n Action Outside) : Decidable (OnTime w e) := by
  unfold OnTime
  split
  · split <;> infer_instance
  · infer_instance

/-- Every retry scheduled so far is the row's next attempt or past, and a claimed row was due. -/
structure Punctual (s : Store) : Prop where
  failures : ∀ at_, Entry.failed at_ ∈ s.log → at_ ≤ max s.clock s.row.nextAttemptAt
  leased : s.row.leaseUntil ≠ none → s.row.nextAttemptAt ≤ s.clock
  waited : s.log.Pairwise Waited

theorem Punctual.closed {s : Store} (punctual : Punctual s) (attempts : Nat) (status : Status) :
    Punctual (close { s with row := { s.row with attempts := attempts } } status) where
  failures at_ in_ := by
    have in_ : Entry.failed at_ ∈ s.log ++ [Entry.outcome status] := in_
    exact punctual.failures at_ (by simpa using in_)
  leased lease := absurd rfl lease
  waited := by
    apply pairwise_snoc punctual.waited
    intro x _
    cases x <;> trivial

/-- A retry of a claim that was due. -/
theorem Punctual.retry {s : Store} (punctual : Punctual s) (lease : s.row.leaseUntil ≠ none) (at_ attempts : Nat) :
    Punctual (retry s at_ attempts) where
  failures x in_ := by
    have in_ : Entry.failed x ∈ s.log ++ [Entry.failed at_] := in_
    show x ≤ max s.clock at_
    rcases List.mem_append.mp in_ with older | last
    · have := punctual.failures x older
      have := punctual.leased lease
      omega
    · cases List.mem_singleton.mp last
      exact le_max_right ..
  leased lease := absurd rfl lease
  waited := by
    apply pairwise_snoc punctual.waited
    intro x _
    cases x <;> trivial

theorem Punctual.send {s : Store} (punctual : Punctual s) (lease : s.row.leaseUntil ≠ none) (k ended : Nat) :
    Punctual { s with log := s.log ++ [Entry.send k s.clock ended] } where
  failures at_ in_ := punctual.failures at_ (by simpa using in_)
  leased := punctual.leased
  waited := by
    apply pairwise_snoc punctual.waited
    intro x in_
    cases x with
    | failed at_ =>
      have := punctual.failures at_ in_
      have := punctual.leased lease
      show at_ ≤ s.clock
      omega
    | send => trivial
    | outcome => trivial

theorem Punctual.step (inv : Inv before w) (punctual : Punctual w.shared) (ontime : OnTime w e)
    (stepped : (drains n).step w e = some w') : Punctual w'.shared := by
  cases e with
  | outside event =>
    obtain ⟨s', ran, rfl⟩ := Procs.outside_eq stepped
    cases event with
    | tick clock =>
      obtain ⟨later, same⟩ := Option.ite_none_right_eq_some.mp ran
      cases same
      refine ⟨fun at_ in_ => ?_, fun lease => (punctual.leased lease).trans later, punctual.waited⟩
      exact (punctual.failures at_ in_).trans (max_le_max later (le_refl _))
    | takeKey =>
      obtain ⟨_, same⟩ := Option.ite_none_right_eq_some.mp ran
      cases same
      exact ⟨punctual.failures, punctual.leased, punctual.waited⟩
  | act who a =>
    obtain ⟨s', p', ran, rfl⟩ := Procs.act_eq stepped
    have effect := statement_effect ran
    have mine := inv.fits who
    rw [Procs.move_shared]
    generalize here : w.point who = p at effect mine
    cases effect with
    | @claimed now clock can key =>
      have ontime : claimable w.shared.row clock → w.shared.row.nextAttemptAt ≤ clock := by
        simpa [OnTime, here] using ontime
      have due := (ontime can).trans (mine.claiming now clock rfl)
      exact ⟨punctual.failures, fun _ => due, punctual.waited⟩
    | lost gone => exact punctual.closed w.shared.row.attempts .dead
    | suppressed pending => exact punctual.closed w.shared.row.attempts .suppressed
    | @send now k l attempts ended result intime after_ within =>
      have shorter := sendUntil_le l
      have own := mine.own k l rfl (by omega)
      exact punctual.send (by simp [own.2.1]) k ended
    | @finish now k attempts ended result over_ held pending =>
      have lease := mine.leased k rfl held pending
      rcases write_cases now (mine.done now k attempts ended result rfl held) result with ⟨status, _, same⟩ | same
      · rw [same]
        exact punctual.closed attempts status
      · rw [same]
        exact punctual.retry lease (retryAt now attempts) attempts
    | _ => exact punctual

/-! ## The outbox -/

/-- In every interleaving of the drains, with crashes anywhere: the log's sends do not overlap and
nothing follows a terminal outcome; at most `MAX_ATTEMPTS` sends start; an outcome is written by
the holder, and a terminal row stays; a row left by its holder is claimed again or DEAD. Where
no claim takes the row before its next attempt, every send waits for the retries scheduled
before it, and a row that is claimed was due. -/
theorem outbox_delivers {clock : Nat} {row : Delivery} {es : List (ProcEvent n Action Outside)}
    (ran : (drains n).run (begin_ n clock row) es = some w) :
    w.shared.log.Pairwise Ordered ∧ sends w.shared.log ≤ MAX_ATTEMPTS ∧
    (∀ e w', (drains n).step w e = some w' → Written w w' e) ∧ Recovers w ∧
    ((drains n).Meets OnTime (begin_ n clock row) es →
      w.shared.log.Pairwise Waited ∧
        (w.shared.row.leaseUntil ≠ none → w.shared.row.nextAttemptAt ≤ w.shared.clock)) := by
  have inv : Inv row.attempts w :=
    (drains n).run_invariant_all (fun _ _ _ inv stepped => inv.step stepped) (inv_begin n clock row) ran
  refine ⟨inv.kept.ordered, ?_, fun e w' stepped => inv.written stepped, inv.recovers, ?_⟩
  · have counted := inv.counted
    have most := inv.kept.attempts
    omega
  · intro meets
    have start : Punctual (begin_ n clock row).shared := ⟨by simp [begin_], by simp [begin_], .nil⟩
    have both : Inv row.attempts w ∧ Punctual w.shared :=
      (drains n).run_invariant (fun v _ _ (both : Inv row.attempts v ∧ Punctual v.shared) ontime stepped =>
        ⟨both.1.step stepped, both.2.step both.1 ontime stepped⟩) ⟨inv_begin n clock row, start⟩ meets ran
    exact ⟨both.2.waited, both.2.leased⟩

/-- A row that is queued at 0. -/
def queuedRow : Delivery := ⟨.pending, 0, 0, none, none, true⟩

/-- A worker drains the row, fails and schedules a retry in 30 seconds; the other sends the row then. -/
def sentOnce : List (ProcEvent 2 Action Outside) :=
  [.act 0 .start, .act 0 .list, .act 0 .look, .act 0 .claim, .act 0 .refresh, .act 0 (.send second .failed),
    .outside (.tick second), .act 0 .finish, .outside (.tick (30 * second)),
    .act 1 .start, .act 1 .list, .act 1 .look, .act 1 .claim, .act 1 .refresh,
    .act 1 (.send (31 * second) .delivered), .outside (.tick (31 * second)), .act 1 .finish]

theorem outbox_delivers_sentOnce : ∃ w, (drains 2).run (begin_ 2 0 queuedRow) sentOnce = some w ∧
    w.shared.row.status = .sent ∧ sends w.shared.log = 2 ∧ w.shared.log.Pairwise Waited := by
  have ended : ((drains 2).run (begin_ 2 0 queuedRow) sentOnce).any (fun w =>
      w.shared.row.status = .sent ∧ sends w.shared.log = 2) = true := by
    decide +kernel
  obtain ⟨w, ran, sent⟩ := (Option.any_eq_true _ _).mp ended
  obtain ⟨sent, twice⟩ := of_decide_eq_true sent
  exact ⟨w, ran, sent, twice, ((outbox_delivers ran).2.2.2.2 (by decide +kernel)).1⟩

/-- Both workers list the row; the one that claims it first fails and schedules a retry in 30
seconds, and the other, whose list is older than the failure, claims and sends at once. -/
def staleList : List (ProcEvent 2 Action Outside) :=
  [.act 1 .start, .act 1 .list,
    .act 0 .start, .act 0 .list, .act 0 .look, .act 0 .claim, .act 0 .refresh, .act 0 (.send second .failed),
    .outside (.tick second), .act 0 .finish,
    .act 1 .look, .act 1 .claim, .act 1 .refresh, .act 1 (.send (2 * second) .delivered)]

/-- A send starts before the next attempt that an earlier failure stored. -/
theorem staleList_not_waited : ∃ w, (drains 2).run (begin_ 2 0 queuedRow) staleList = some w ∧
    ¬ w.shared.log.Pairwise Waited := by
  have ended : ((drains 2).run (begin_ 2 0 queuedRow) staleList).any (fun w => w.shared.log =
      [.send 0 0 second, .failed (30 * second), .send 1 second (2 * second)]) = true := by
    decide +kernel
  obtain ⟨w, ran, log⟩ := (Option.any_eq_true _ _).mp ended
  refine ⟨w, ran, ?_⟩
  rw [of_decide_eq_true log]
  simp [Waited, second]

end AdvanceTrading.Outbox
