import AdvanceTrading.Misc.Allowance
import AdvanceTrading.Misc.Binary64
import AdvanceTrading.Misc.Machine
import Mathlib.Algebra.Order.Ring.Rat

/-!
# Orders per second, exits first

Model of `_Bucket` and of the two lanes of `OpsThrottle`
(`app/execution/ops_throttle.py:37-133`) for the bucket of one exchange. Times are
rational seconds. An exit that finds no token sleeps and tries again at any later
moment, or is cancelled; everything up to its next sleep is one step. The metrics
and the log lines are left out. `taken` records the tokens taken, each with its
moment and lane. `rnd` is the rounding of the arithmetic: `id` is exact, `Py.snap`
that of a double.
-/

namespace AdvanceTrading.OpsThrottle

open Allowance

/-- `OpsThrottle`: the rate of every bucket and the back-off steps of a 429. -/
structure Throttle where
  rate : ℚ
  backoff : List ℚ
  rate_pos : 0 < rate
  backoff_ne : backoff ≠ []

/-- `capacity`. -/
def Throttle.capacity (throttle : Throttle) : ℚ := max 1 throttle.rate

inductive Lane where
  | entry
  | exit
  deriving DecidableEq, Repr

/-- `_Bucket`. -/
structure Bucket where
  tokens : ℚ
  updated : ℚ
  pausedUntil : ℚ := 0
  exitsWaiting : Nat := 0
  backoffStep : Nat := 0
  deriving DecidableEq

/-- What happens at a moment: a call, or the next turn of an exit that sleeps. -/
inductive Call where
  | tryEntry
  | exit
  | exitWakes
  | exitCancelled
  | rateLimited
  | accepted
  deriving DecidableEq, Repr

structure Event where
  now : ℚ
  call : Call
  deriving DecidableEq

/-- The bucket, the last reading of the clock, and the tokens taken so far. -/
structure State where
  bucket : Bucket
  clock : ℚ
  taken : List (ℚ × Lane) := []
  deriving DecidableEq

section Steps

variable (rnd : ℚ → ℚ) (throttle : Throttle)

/-- A new bucket is full. -/
def start (clock : ℚ) : State where
  bucket := { tokens := throttle.capacity, updated := clock }
  clock := clock

/-- The tokens at a later moment. -/
def tokensAt (tokens updated now : ℚ) : ℚ :=
  min throttle.capacity (rnd (tokens + rnd (rnd (now - updated) * throttle.rate)))

/-- `_refill`. -/
def refill (now : ℚ) (bucket : Bucket) : Bucket :=
  { bucket with tokens := tokensAt rnd throttle bucket.tokens bucket.updated now, updated := now }

/-- `wait_for_token`, once the bucket is refilled. -/
def waitForToken (now : ℚ) (bucket : Bucket) : ℚ :=
  if now < bucket.pausedUntil then rnd (bucket.pausedUntil - now)
  else if 1 ≤ bucket.tokens then 0 else rnd (rnd (1 - bucket.tokens) / throttle.rate)

/-- An exit begins to wait. -/
def Bucket.joined (bucket : Bucket) : Bucket := { bucket with exitsWaiting := bucket.exitsWaiting + 1 }

/-- `take`. -/
def Bucket.take (bucket : Bucket) : Bucket := { bucket with tokens := rnd (bucket.tokens - 1) }

/-- `try_entry`: no refill while an exit waits. -/
def tryEntry (now : ℚ) (bucket : Bucket) : Bool × Bucket :=
  if bucket.exitsWaiting ≠ 0 then (false, bucket)
  else
    let bucket := refill rnd throttle now bucket
    if 0 < waitForToken rnd throttle now bucket then (false, bucket) else (true, bucket.take rnd)

/-- One turn of the loop of `exit`, by an exit that is counted as waiting. -/
def exitTurn (now : ℚ) (bucket : Bucket) : Bool × Bucket :=
  let bucket := refill rnd throttle now bucket
  if waitForToken rnd throttle now bucket ≤ 0 then
    (true, { bucket.take rnd with exitsWaiting := bucket.exitsWaiting - 1 })
  else (false, bucket)

/-- `rate_limited`. -/
def rateLimited (now : ℚ) (bucket : Bucket) : Bucket :=
  let pause := throttle.backoff.getD (min bucket.backoffStep (throttle.backoff.length - 1)) 0
  { bucket with backoffStep := bucket.backoffStep + 1, pausedUntil := max bucket.pausedUntil (rnd (now + pause)) }

/-- The state after a call that may have taken a token. -/
def State.after (s : State) (now : ℚ) (lane : Lane) (outcome : Bool × Bucket) : State where
  bucket := outcome.2
  clock := now
  taken := if outcome.1 then s.taken ++ [(now, lane)] else s.taken

/-- One event. The clock never goes back, and only an exit that sleeps wakes or is cancelled. -/
def step (s : State) (e : Event) : Option State :=
  if e.now < s.clock then none
  else
    match e.call with
    | .tryEntry => some (s.after e.now .entry (tryEntry rnd throttle e.now s.bucket))
    | .exit => some (s.after e.now .exit (exitTurn rnd throttle e.now s.bucket.joined))
    | .exitWakes =>
        if s.bucket.exitsWaiting = 0 then none
        else some (s.after e.now .exit (exitTurn rnd throttle e.now s.bucket))
    | .exitCancelled =>
        if s.bucket.exitsWaiting = 0 then none
        else some (s.after e.now .exit (false, { s.bucket with exitsWaiting := s.bucket.exitsWaiting - 1 }))
    | .rateLimited => some (s.after e.now .exit (false, rateLimited rnd throttle e.now s.bucket))
    | .accepted => some (s.after e.now .exit (false, { s.bucket with backoffStep := 0 }))

/-- Every interleaving of the calls. -/
def machine : Machine State Event := ⟨step rnd throttle⟩

end Steps

/-! ## What one step does -/

variable {throttle : Throttle} {s s' : State} {e : Event} {now : ℚ} {bucket bucket' : Bucket}
  {lane : Lane} {took : Bool}

theorem wait_nonpos_iff : waitForToken id throttle now bucket ≤ 0 ↔ bucket.pausedUntil ≤ now ∧ 1 ≤ bucket.tokens := by
  unfold waitForToken
  by_cases paused : now < bucket.pausedUntil
  · simp [paused, not_le.mpr paused]
  · by_cases full : 1 ≤ bucket.tokens
    · simp [paused, full, not_lt.mp paused]
    · have short : 0 < (1 - bucket.tokens) / throttle.rate :=
        div_pos (sub_pos.mpr (not_le.mp full)) throttle.rate_pos
      simp [paused, full, not_le.mpr short]

/-- What may become of the tokens: nothing, a refill, or a refill to at least one token and its taking. -/
inductive Drawn (throttle : Throttle) (now pausedUntil tokens updated : ℚ) : Bool → ℚ → ℚ → Prop
  | untouched : Drawn throttle now pausedUntil tokens updated false tokens updated
  | refilled : Drawn throttle now pausedUntil tokens updated false (tokensAt id throttle tokens updated now) now
  | taken (unpaused : pausedUntil ≤ now) (enough : 1 ≤ tokensAt id throttle tokens updated now) :
      Drawn throttle now pausedUntil tokens updated true (tokensAt id throttle tokens updated now - 1) now

/-- What a call that returns `outcome` does to the tokens of a bucket. -/
def Draws (throttle : Throttle) (now : ℚ) (bucket : Bucket) (outcome : Bool × Bucket) : Prop :=
  Drawn throttle now bucket.pausedUntil bucket.tokens bucket.updated outcome.1 outcome.2.tokens outcome.2.updated

theorem tryEntry_drawn : Draws throttle now bucket (tryEntry id throttle now bucket) := by
  unfold tryEntry
  split
  · exact .untouched
  · dsimp only
    split
    · exact .refilled
    · next free =>
      obtain ⟨unpaused, enough⟩ := wait_nonpos_iff.mp (not_lt.mp free)
      exact .taken unpaused enough

theorem exitTurn_drawn : Draws throttle now bucket (exitTurn id throttle now bucket) := by
  unfold exitTurn
  dsimp only
  split
  · next free =>
    obtain ⟨unpaused, enough⟩ := wait_nonpos_iff.mp free
    exact .taken unpaused enough
  · exact .refilled

theorem exit_drawn : Draws throttle now bucket (exitTurn id throttle now bucket.joined) :=
  show Draws throttle now bucket.joined _ from exitTurn_drawn

/-- An entry that takes a token finds no exit waiting. -/
theorem tryEntry_takes (took : (tryEntry id throttle now bucket).1 = true) : bucket.exitsWaiting = 0 := by
  unfold tryEntry at took
  split at took
  · cases took
  · next none_ => exact not_not.mp none_

/-- Every step is a call at a moment no earlier than the clock, with what it does to the tokens. -/
theorem step_cases (stepped : step id throttle s e = some s') :
    s.clock ≤ e.now ∧ ∃ lane took bucket', s' = s.after e.now lane (took, bucket') ∧
      Draws throttle e.now s.bucket (took, bucket') ∧
      (took = true → lane = .entry → s.bucket.exitsWaiting = 0) := by
  unfold step at stepped
  split at stepped
  · cases stepped
  · next ordered =>
    refine ⟨not_lt.mp ordered, ?_⟩
    split at stepped
    · cases stepped
      exact ⟨.entry, _, _, rfl, tryEntry_drawn, fun took _ => tryEntry_takes took⟩
    · cases stepped
      exact ⟨.exit, _, _, rfl, exit_drawn, nofun⟩
    · split at stepped
      · cases stepped
      · cases stepped
        exact ⟨.exit, _, _, rfl, exitTurn_drawn, nofun⟩
    · split at stepped
      · cases stepped
      · cases stepped
        exact ⟨.exit, _, _, rfl, .untouched, nofun⟩
    · cases stepped
      exact ⟨.exit, _, _, rfl, .untouched, nofun⟩
    · cases stepped
      exact ⟨.exit, _, _, rfl, .untouched, nofun⟩

/-! ## The tokens over any run -/

/-- A refill on the way changes no later level. -/
theorem tokensAt_tokensAt {tokens updated mid late : ℚ} (later : mid ≤ late) :
    tokensAt id throttle (tokensAt id throttle tokens updated mid) mid late =
      tokensAt id throttle tokens updated late := by
  have back : 0 ≤ (late - mid) * throttle.rate := mul_nonneg (sub_nonneg.mpr later) throttle.rate_pos.le
  simp only [tokensAt, id]
  rw [← min_add_add_right throttle.capacity, ← min_assoc, min_eq_left (le_add_of_nonneg_right back)]
  congr 1
  ring

/-- The bucket holds what the log of takes leaves: between none and its capacity, and one at least at
every take. -/
structure Kept (throttle : Throttle) (s : State) : Prop where
  tokens_nonneg : 0 ≤ s.bucket.tokens
  tokens_le : s.bucket.tokens ≤ throttle.capacity
  updated_le : s.bucket.updated ≤ s.clock
  taken_le : ∀ c ∈ s.taken, c.1 ≤ s.clock
  paced : Paced (BucketRoom throttle.capacity throttle.rate fun _ : Lane => 0) s.taken
  shows_ : ∀ t, s.clock ≤ t →
    tokensAt id throttle s.bucket.tokens s.bucket.updated t =
      level throttle.capacity throttle.rate (spend throttle.capacity throttle.rate s.taken) t

theorem start_kept (throttle : Throttle) (clock : ℚ) : Kept throttle (start throttle clock) where
  tokens_nonneg := zero_le_one.trans (le_max_left _ _)
  tokens_le := le_refl throttle.capacity
  updated_le := le_refl clock
  taken_le := by simp [start]
  paced := .nil
  shows_ := by
    intro t later
    have back : 0 ≤ (t - clock) * throttle.rate := mul_nonneg (sub_nonneg.mpr later) throttle.rate_pos.le
    exact min_eq_left (le_add_of_nonneg_right back)

theorem tokensAt_nonneg (kept : Kept throttle s) (later : s.clock ≤ now) :
    0 ≤ tokensAt id throttle s.bucket.tokens s.bucket.updated now := by
  have back : 0 ≤ (now - s.bucket.updated) * throttle.rate :=
    mul_nonneg (sub_nonneg.mpr (kept.updated_le.trans later)) throttle.rate_pos.le
  exact le_min (zero_le_one.trans (le_max_left _ _)) (add_nonneg kept.tokens_nonneg back)

theorem step_kept (kept : Kept throttle s) (stepped : step id throttle s e = some s') : Kept throttle s' := by
  obtain ⟨later, lane, took, bucket', rfl, drawn, -⟩ := step_cases stepped
  have taken_le : ∀ c ∈ s.taken, c.1 ≤ e.now := fun c mem => (kept.taken_le c mem).trans later
  have shows_ : ∀ t, e.now ≤ t → tokensAt id throttle s.bucket.tokens s.bucket.updated t
      = level throttle.capacity throttle.rate (spend throttle.capacity throttle.rate s.taken) t :=
    fun t after => kept.shows_ t (later.trans after)
  change Drawn _ _ _ _ _ took bucket'.tokens bucket'.updated at drawn
  generalize tokens_eq : bucket'.tokens = tokens at drawn
  generalize updated_eq : bucket'.updated = updated at drawn
  cases drawn with
  | untouched =>
    exact
      { tokens_nonneg := tokens_eq ▸ kept.tokens_nonneg
        tokens_le := tokens_eq ▸ kept.tokens_le
        updated_le := updated_eq ▸ kept.updated_le.trans later
        taken_le := taken_le
        paced := kept.paced
        shows_ := by
          intro t after
          change tokensAt id throttle bucket'.tokens bucket'.updated t = _
          rw [tokens_eq, updated_eq]
          exact shows_ t after }
  | refilled =>
    exact
      { tokens_nonneg := tokens_eq ▸ tokensAt_nonneg kept later
        tokens_le := tokens_eq ▸ min_le_left _ _
        updated_le := updated_eq ▸ le_refl e.now
        taken_le := taken_le
        paced := kept.paced
        shows_ := by
          intro t after
          change tokensAt id throttle bucket'.tokens bucket'.updated t = _
          rw [tokens_eq, updated_eq]
          exact (tokensAt_tokensAt after).trans (shows_ t after) }
  | taken unpaused enough =>
    have here : tokensAt id throttle s.bucket.tokens s.bucket.updated e.now
        = level throttle.capacity throttle.rate
          (spend throttle.capacity throttle.rate s.taken) e.now := shows_ e.now (le_refl _)
    have atMost : tokensAt id throttle s.bucket.tokens s.bucket.updated e.now ≤ throttle.capacity := min_le_left _ _
    have room : BucketRoom throttle.capacity throttle.rate (fun _ : Lane => 0) s.taken (e.now, lane) := by
      rw [BucketRoom, add_zero, ← here]
      exact enough
    exact
      { tokens_nonneg := tokens_eq ▸ sub_nonneg.mpr enough
        tokens_le := tokens_eq ▸ (sub_le_self _ zero_le_one).trans atMost
        updated_le := updated_eq ▸ le_refl e.now
        taken_le := by
          intro c mem
          rcases List.mem_append.mp mem with before | last
          · exact taken_le c before
          · rw [List.mem_singleton.mp last]
            exact le_refl e.now
        paced := .count kept.paced taken_le room
        shows_ := by
          intro t after
          change tokensAt id throttle bucket'.tokens bucket'.updated t
            = level throttle.capacity throttle.rate
              (spend throttle.capacity throttle.rate (s.taken ++ [(e.now, lane)])) t
          have ahead : max 0 (t - e.now) = t - e.now := max_eq_right (sub_nonneg.mpr after)
          rw [tokens_eq, updated_eq, spend_snoc, ← here]
          change _ = min throttle.capacity (_ - 1 + max 0 (t - e.now) * throttle.rate)
          rw [ahead]
          rfl }

theorem run_kept {clock : ℚ} {events : List Event}
    (ran : (machine id throttle).run (start throttle clock) events = some s) : Kept throttle s :=
  (machine id throttle).run_invariant_all (fun _ _ _ kept stepped => step_kept kept stepped)
    (start_kept throttle clock) ran

/-- Over any interleaving, the tokens taken in any interval are at most the capacity and what refills in it;
the count stays between 0 and the capacity; and a step that takes a token finds the bucket not paused, and
no exit waiting if it is an entry. -/
theorem tokens_bounded (throttle : Throttle) (clock : ℚ) (events : List Event) (s : State)
    (ran : (machine id throttle).run (start throttle clock) events = some s) :
    (∀ a T, 0 ≤ T →
      (s.taken.countP (fun c => decide (a ≤ c.1 ∧ c.1 ≤ a + T)) : ℚ) ≤ max 1 throttle.rate + throttle.rate * T) ∧
    (0 ≤ s.bucket.tokens ∧ s.bucket.tokens ≤ throttle.capacity) ∧
    ∀ e s', step id throttle s e = some s' →
      s'.taken = s.taken ∨
      ∃ lane, s'.taken = s.taken ++ [(e.now, lane)] ∧ s.bucket.pausedUntil ≤ e.now ∧
        (lane = .entry → s.bucket.exitsWaiting = 0) := by
  have kept := run_kept ran
  refine ⟨?_, ⟨kept.tokens_nonneg, kept.tokens_le⟩, ?_⟩
  · intro a T length
    have bound := kept.paced.bucket (a := a) (r := 0) throttle.rate_pos.le
      (zero_le_one.trans (le_max_left _ _)) length
    simpa [Throttle.capacity] using bound
  · intro e s' stepped
    obtain ⟨-, lane, took, bucket', rfl, drawn, free⟩ := step_cases stepped
    change Drawn _ _ _ _ _ took bucket'.tokens bucket'.updated at drawn
    generalize bucket'.tokens = tokens at drawn
    generalize bucket'.updated = updated at drawn
    cases drawn with
    | untouched => exact .inl rfl
    | refilled => exact .inl rfl
    | taken unpaused enough => exact .inr ⟨lane, rfl, unpaused, free rfl⟩

/-- Ten orders a second, and a 429 that pauses for two seconds. -/
def tenPerSecond : Throttle where
  rate := 10
  backoff := [2, 5]
  rate_pos := by decide +kernel
  backoff_ne := List.cons_ne_nil _ _

/-- An entry, a 429, an exit that has to wait, an entry beside it, and the exit once the pause is over. -/
def pausedRun : List Event := [⟨0, .tryEntry⟩, ⟨1, .rateLimited⟩, ⟨1, .exit⟩, ⟨2, .tryEntry⟩, ⟨3, .exitWakes⟩]

def afterPause : State where
  bucket := { tokens := 9, updated := 3, pausedUntil := 3, backoffStep := 1 }
  clock := 3
  taken := [(0, .entry), (3, .exit)]

theorem tokens_bounded_pause :
    (machine id tenPerSecond).run (start tenPerSecond 0) pausedRun = some afterPause ∧
      afterPause.bucket.tokens ≤ tenPerSecond.capacity := by
  have ran : (machine id tenPerSecond).run (start tenPerSecond 0) pausedRun = some afterPause := by decide +kernel
  exact ⟨ran, (tokens_bounded tenPerSecond 0 pausedRun afterPause ran).2.1.2⟩

/-- Ten entries at 0, and three at the double of 0.3. -/
def tenThenThree : List Event :=
  List.replicate 10 ⟨0, .tryEntry⟩ ++ List.replicate 3 ⟨Py.snap (3 / 10), .tryEntry⟩

theorem tenThenThree_runs :
    ((machine Py.snap tenPerSecond).run (start tenPerSecond 0) tenThenThree).isSome = true := by decide +kernel

/-- In doubles the refill of that time is rounded up to three tokens: thirteen are taken in an interval in which
the capacity and the rate leave room for less. -/
theorem doubles_take_more :
    ¬ ∀ (throttle : Throttle) (clock : ℚ) (events : List Event) (s : State),
      (machine Py.snap throttle).run (start throttle clock) events = some s → ∀ a T, 0 ≤ T →
        (s.taken.countP (fun c => decide (a ≤ c.1 ∧ c.1 ≤ a + T)) : ℚ) ≤ max 1 throttle.rate + throttle.rate * T := by
  intro bounded
  have bound := bounded tenPerSecond 0 tenThenThree _ (Option.some_get tenThenThree_runs).symm 0 (Py.snap (3 / 10))
    (by decide +kernel)
  exact absurd bound (by decide +kernel)

end AdvanceTrading.OpsThrottle
