import AdvanceTrading.Execution.Core.Intents
import Mathlib.Data.List.Nodup

/-!
# The life of an intent

Every status a row is written with follows from the one before by a listed
move, its `attempts` count the claims, and no claim is late. The bound on the
attempts rests on one step: `requeue_stale` tells the claim it read from a
later one by `claimed_at` alone, so a claim that was read long before it is
written, with the clock of the claim in between, is requeued on the older
claim's count.
-/

namespace AdvanceTrading.Execution.Core

/-- What holds of a stored row and its notes. -/
structure Recorded (cfg : Settings) (row : Row) : Prop where
  started : (trail row).head? = some .queued
  current : (trail row).getLast? = some row.row.status
  chain : (trail row).IsChain fun before after => after ∈ before.moves
  counted : row.row.attempts = (trail row).count .claimed
  bounded : row.row.attempts ≤ cfg.maxAttempts
  room : row.row.status = .queued → row.row.attempts < cfg.maxAttempts
  timely : ∀ at_, (Status.claimed, at_) ∈ row.notes → at_ < row.row.expiresAt

/-- The id a half in flight is about. -/
def Half.id : Half → Nat
  | .claim id _ => id
  | .link id _ => id
  | .requeue snapshot => snapshot.id

/-- What holds of the queue in every state reached. -/
structure Sound (cfg : Settings) (q : Queue) : Prop where
  recorded : ∀ row ∈ q.rows, Recorded cfg row
  unique : (q.rows.map fun row => row.row.id).Nodup
  known : ∀ row ∈ q.rows, row.row.id < q.nextId
  halves : ∀ half ∈ q.inFlight, half.id < q.nextId
  timely : ∀ id now, .claim id now ∈ q.inFlight →
    ∀ row ∈ q.rows, row.row.id = id → now < row.row.expiresAt

variable {cfg : Settings}

theorem sound_start : Sound cfg {} where
  recorded := by simp
  unique := List.nodup_nil
  known := by simp
  halves := by simp
  timely := by simp

/-! ## One write -/

@[simp] theorem trail_write (write : Intent → Intent) (now : Int) (row : Row) :
    trail (Tracked.write write (fun intent => (intent.status, now)) row) =
      trail row ++ [(write row.row).status] := by
  simp [trail, Tracked.write]

/-- A write that takes a listed move, counts a claim and nothing else, claims in time and
requeues only below the bound keeps what is recorded. -/
theorem Recorded.write {row : Row} (recorded : Recorded cfg row) {write : Intent → Intent} {now : Int}
    (move : (write row.row).status ∈ row.row.status.moves)
    (expiry : (write row.row).expiresAt = row.row.expiresAt)
    (attempts : (write row.row).attempts =
      row.row.attempts + if (write row.row).status = .claimed then 1 else 0)
    (timely : (write row.row).status = .claimed → now < row.row.expiresAt)
    (room : (write row.row).status = .queued → row.row.attempts < cfg.maxAttempts) :
    Recorded cfg (Tracked.write write (fun intent => (intent.status, now)) row) := by
  have wasQueued : (write row.row).status = .claimed → row.row.status = .queued := by
    intro claimed
    rw [claimed] at move
    revert move
    cases row.row.status <;> decide
  constructor
  · rw [trail_write, List.head?_append, recorded.started]
    rfl
  · rw [trail_write, List.getLast?_concat]
    rfl
  · rw [trail_write]
    exact Trail.snoc recorded.chain recorded.current move
  · rw [trail_write, List.count_append, ← recorded.counted]
    show (write row.row).attempts = _
    rw [attempts, List.count_singleton]
    simp only [beq_iff_eq]
  · show (write row.row).attempts ≤ _
    rw [attempts]
    split
    · have below := recorded.room (wasQueued ‹_›)
      omega
    · exact recorded.bounded
  · intro queued
    have below := room queued
    show (write row.row).attempts < _
    have status : (write row.row).status = .queued := queued
    rw [attempts, status]
    simpa using below
  · intro at_ mem
    show at_ < (write row.row).expiresAt
    rw [expiry]
    rcases List.mem_append.mp mem with old | new
    · exact recorded.timely at_ old
    · obtain ⟨status, rfl⟩ := Prod.mk.inj (List.mem_singleton.mp new)
      exact timely status.symm

variable {write : Intent → Intent} {guard : Intent → Bool} {now : Int}

theorem update_ids (id : ∀ intent, (write intent).id = intent.id) (rows : List Row) :
    ((update now guard write rows).map fun row => row.row.id) = rows.map fun row => row.row.id := by
  rw [update, Rows.updateWhere, List.map_map]
  apply List.map_congr_left
  intro row _
  show (if guard row.row then Tracked.write write _ row else row).row.id = row.row.id
  split
  · exact id row.row
  · rfl

/-- An UPDATE that keeps ids and expiry, and keeps what is recorded of each row it matches. -/
theorem Sound.update {q : Queue} (sound : Sound cfg q) {now : Int} {guard : Intent → Bool}
    {write : Intent → Intent} (id : ∀ intent, (write intent).id = intent.id)
    (expiry : ∀ intent, (write intent).expiresAt = intent.expiresAt)
    (written : ∀ row ∈ q.rows, guard row.row = true → Recorded cfg row →
      Recorded cfg (Tracked.write write (fun intent => (intent.status, now)) row)) :
    Sound cfg { q with rows := update now guard write q.rows } where
  recorded := Rows.forall_updateWhere sound.recorded written
  unique := by
    show ((Core.update now guard write q.rows).map fun row => row.row.id).Nodup
    rw [update_ids id]
    exact sound.unique
  known := by
    refine Rows.forall_updateWhere sound.known ?_
    intro row _ _ below
    show (write row.row).id < q.nextId
    rw [id]
    exact below
  halves := sound.halves
  timely := by
    intro half now flying
    refine Rows.forall_updateWhere (sound.timely half now flying) ?_
    intro row _ _ before same
    show now < (write row.row).expiresAt
    rw [expiry]
    apply before
    rw [← id]
    exact same

variable {q : Queue}

/-- Halves read from stored rows, each claim before its row expires, may be put in flight. -/
theorem Sound.read (sound : Sound cfg q) {halves : List Half}
    (known : ∀ half ∈ halves, half.id < q.nextId)
    (timely : ∀ id now, .claim id now ∈ halves → ∀ row ∈ q.rows, row.row.id = id → now < row.row.expiresAt) :
    Sound cfg { q with inFlight := q.inFlight ++ halves } where
  recorded := sound.recorded
  unique := sound.unique
  known := sound.known
  halves := by
    intro half flying
    rcases List.mem_append.mp flying with old | new
    · exact sound.halves half old
    · exact known half new
  timely := by
    intro id now flying
    rcases List.mem_append.mp flying with old | new
    · exact sound.timely id now old
    · exact timely id now new

/-- A half may be dropped. -/
theorem Sound.drop (sound : Sound cfg q) (half : Half) :
    Sound cfg { q with inFlight := q.inFlight.erase half } where
  recorded := sound.recorded
  unique := sound.unique
  known := sound.known
  halves := by
    intro other flying
    exact sound.halves other (List.mem_of_mem_erase flying)
  timely := by
    intro id now flying
    exact sound.timely id now (List.mem_of_mem_erase flying)

/-! ## One lemma for each operation -/

variable {intent : Intent}

/-- The row a QUEUED intent starts with. -/
theorem recorded_new (positive : 1 ≤ cfg.maxAttempts) (queued : intent.status = .queued)
    (untried : intent.attempts = 0) :
    Recorded cfg ⟨intent, [(.queued, intent.createdAt)]⟩ where
  started := rfl
  current := by
    show some Status.queued = some intent.status
    rw [queued]
  chain := .singleton _
  counted := untried
  bounded := by
    show intent.attempts ≤ _
    omega
  room := by
    intro _
    show intent.attempts < _
    omega
  timely := by
    intro at_ mem
    cases List.mem_singleton.mp mem

theorem Sound.submit (sound : Sound cfg q) (positive : 1 ≤ cfg.maxAttempts)
    (queued : intent.status = .queued) (untried : intent.attempts = 0) (id : intent.id = q.nextId) :
    Sound cfg { q with
      rows := q.rows ++ [⟨intent, [(.queued, intent.createdAt)]⟩], nextId := q.nextId + 1 } where
  recorded := by
    intro row mem
    rcases List.mem_append.mp mem with old | new
    · exact sound.recorded row old
    · rw [List.mem_singleton.mp new]
      exact recorded_new positive queued untried
  unique := by
    rw [List.map_append]
    refine List.nodup_append.mpr ⟨sound.unique, by simp, ?_⟩
    intro taken old fresh new
    obtain ⟨row, mem, rfl⟩ := List.mem_map.mp old
    have below := sound.known row mem
    have same : fresh = intent.id := List.mem_singleton.mp new
    omega
  known := by
    intro row mem
    show row.row.id < q.nextId + 1
    rcases List.mem_append.mp mem with old | new
    · have below := sound.known row old
      omega
    · rw [List.mem_singleton.mp new]
      show intent.id < _
      omega
  halves := by
    intro half flying
    show half.id < q.nextId + 1
    have below := sound.halves half flying
    omega
  timely := by
    intro half now flying row mem same
    rcases List.mem_append.mp mem with old | new
    · exact sound.timely half now flying row old same
    · rw [List.mem_singleton.mp new] at same
      have below : half < q.nextId := sound.halves _ flying
      have same : intent.id = half := same
      omega

/-- A created intent is new, QUEUED, and carries the next id. -/
theorem submit_created {rows : List Row} {nextId : Nat} {r : Request}
    (created : submit cfg rows nextId r = .ok (intent, true)) :
    intent.status = .queued ∧ intent.attempts = 0 ∧ intent.id = nextId := by
  unfold submit at created
  split at created
  · cases created
  split at created
  · cases created
  split at created
  · cases created
  split at created
  · cases created
  split at created
  · cases created
  cases created
  exact ⟨rfl, rfl, rfl⟩

/-- A selected intent is a stored row that meets the condition. -/
theorem of_mem_select {limit : Int} {rows : List Row} (mem : intent ∈ select guard limit rows) :
    ∃ row ∈ rows, row.row = intent ∧ guard intent = true := by
  have chosen := List.mem_filter.mp (List.mem_of_mem_take mem)
  obtain ⟨row, held, same⟩ := List.mem_map.mp chosen.1
  exact ⟨row, held, same, chosen.2⟩

theorem Sound.readQueued (sound : Sound cfg q) (scope : Scope) (now limit : Int) :
    Sound cfg { q with inFlight := q.inFlight ++
      ((select (claimable scope now) limit q.rows).map Intent.id).map fun id => .claim id now } := by
  apply sound.read
  · intro half flying
    obtain ⟨id, mem, rfl⟩ := List.mem_map.mp flying
    obtain ⟨intent, chosen, rfl⟩ := List.mem_map.mp mem
    obtain ⟨row, held, rfl, -⟩ := of_mem_select chosen
    exact sound.known row held
  · intro id clock flying row held same
    obtain ⟨_, mem, ⟨rfl, rfl⟩⟩ : ∃ read, read ∈ _ ∧ Half.claim read now = .claim id clock :=
      List.mem_map.mp flying
    obtain ⟨intent, chosen, rfl⟩ := List.mem_map.mp mem
    obtain ⟨read, there, rfl, open_⟩ := of_mem_select chosen
    have one : row = read := List.inj_on_of_nodup_map sound.unique held there same
    subst one
    have queued := (Bool.and_eq_true_iff.mp open_).1
    exact (of_decide_eq_true queued).2

theorem Sound.claim (sound : Sound cfg q) {id : Nat} (flying : .claim id now ∈ q.inFlight) :
    Sound cfg { q with rows := claim id now q.rows } := by
  refine sound.update (fun _ => rfl) (fun _ => rfl) ?_
  intro row held found recorded
  obtain ⟨same, queued⟩ := of_decide_eq_true found
  refine recorded.write ?_ rfl rfl ?_ ?_
  · show Status.claimed ∈ row.row.status.moves
    rw [queued]
    decide
  · intro _
    exact sound.timely id now flying row held same
  · intro impossible
    cases impossible

theorem Sound.finish {q : Queue} (sound : Sound cfg q) {id : Nat} {f : Finish} {rows : List Row}
    (notExpired : f.status ≠ .expired) (finished : finish id f q.rows = .ok rows) :
    Sound cfg { q with rows := rows } := by
  unfold Core.finish at finished
  split at finished
  · cases finished
  rename_i final
  cases finished
  rw [not_not] at final
  refine sound.update (fun _ => rfl) (fun _ => rfl) ?_
  intro row _ found recorded
  obtain ⟨-, claimed⟩ := of_decide_eq_true found
  have status : f.status = .done ∨ f.status = .refused ∨ f.status = .failed := by
    revert final notExpired
    cases f.status <;> decide
  refine recorded.write ?_ rfl ?_ ?_ ?_
  · show f.status ∈ row.row.status.moves
    rw [claimed]
    rcases status with done | refused | failed
    · simp [done, Status.moves]
    · simp [refused, Status.moves]
    · simp [failed, Status.moves]
  · show row.row.attempts = row.row.attempts + if f.status = .claimed then 1 else 0
    rcases status with done | refused | failed
    · simp [done]
    · simp [refused]
    · simp [failed]
  · intro again
    have again : f.status = .claimed := again
    simp [again] at status
  · intro again
    have again : f.status = .queued := again
    simp [again] at status

/-- An earlier attempt's outcome may be written to a QUEUED or a CLAIMED row. -/
theorem Recorded.outcome {row : Row} (recorded : Recorded cfg row) {order : Option Order}
    {action : Option Nat} {clock : Int} {out : Outcome}
    (found : earlierOutcome order action now = some out)
    (written : write row.row = out.write row.row)
    (working : row.row.status = .queued ∨ row.row.status = .claimed) :
    Recorded cfg (Tracked.write write (fun intent => (intent.status, clock)) row) := by
  have status : (write row.row).status = .done ∨ (write row.row).status = .refused := by
    rw [written]
    exact earlierOutcome_status found
  refine recorded.write ?_ ?_ ?_ ?_ ?_
  · rcases working with queued | claimed <;> rcases status with done | refused <;>
      simp_all [Status.moves]
  · rw [written]
    rfl
  · have same : (write row.row).attempts = row.row.attempts := by
      rw [written]
      rfl
    rcases status with done | refused
    · simp [same, done]
    · simp [same, refused]
  · intro again
    rw [again] at status
    simp at status
  · intro again
    rw [again] at status
    simp at status

theorem Sound.readOverdue (sound : Sound cfg q) (scope : Scope) (now : Int) :
    Sound cfg { q with
      inFlight := q.inFlight ++
        (((q.rows.map Tracked.row).filter (overdueRetried scope now)).map Intent.id).map
          fun id => .link id now } := by
  apply sound.read
  · intro half flying
    obtain ⟨id, mem, rfl⟩ := List.mem_map.mp flying
    obtain ⟨intent, chosen, rfl⟩ := List.mem_map.mp mem
    obtain ⟨row, held, rfl⟩ := List.mem_map.mp (List.mem_filter.mp chosen).1
    exact sound.known row held
  · intro id clock flying
    obtain ⟨_, _, impossible⟩ := List.mem_map.mp flying
    cases impossible

theorem Sound.link (sound : Sound cfg q) (id : Nat) (now : Int) (order : Option Order)
    (action : Option Nat) :
    Sound cfg { q with rows := linkOverdue id now order action q.rows } := by
  unfold linkOverdue
  split
  · exact sound
  · rename_i out found
    refine sound.update (fun _ => rfl) (fun _ => rfl) ?_
    intro row _ matched recorded
    obtain ⟨-, queued⟩ := of_decide_eq_true matched
    exact recorded.outcome found rfl (.inl queued)

theorem Sound.expire (sound : Sound cfg q) (scope : Scope) (now : Int) :
    Sound cfg { q with rows := expireOverdue scope now q.rows } := by
  refine sound.update (fun _ => rfl) (fun _ => rfl) ?_
  intro row _ matched recorded
  obtain ⟨queued, -⟩ := of_decide_eq_true (Bool.and_eq_true_iff.mp matched).1
  refine recorded.write ?_ rfl rfl ?_ ?_
  · show Status.expired ∈ row.row.status.moves
    rw [queued]
    decide
  · intro impossible
    cases impossible
  · intro impossible
    cases impossible

theorem Sound.readStale (sound : Sound cfg q) (scope : Scope) (now limit : Int) :
    Sound cfg { q with inFlight := q.inFlight ++
      (select (stale cfg scope now) limit q.rows).filterMap (snapshotOf now) } := by
  apply sound.read
  · intro half flying
    obtain ⟨intent, chosen, read⟩ := List.mem_filterMap.mp flying
    obtain ⟨row, held, rfl, -⟩ := of_mem_select chosen
    obtain ⟨at_, -, rfl⟩ := Option.map_eq_some_iff.mp read
    exact sound.known row held
  · intro id clock flying
    obtain ⟨intent, -, read⟩ := List.mem_filterMap.mp flying
    obtain ⟨_, -, impossible⟩ := Option.map_eq_some_iff.mp read
    cases impossible

theorem Snapshot.write_id (cfg : Settings) (s : Snapshot) (earlier : Option Outcome)
    (intent : Intent) : (s.write cfg earlier intent).id = intent.id := by
  unfold Snapshot.write
  split
  · cases earlier with
    | none => rfl
    | some out => rfl
  · rfl

theorem Snapshot.write_expiresAt (cfg : Settings) (s : Snapshot) (earlier : Option Outcome)
    (intent : Intent) : (s.write cfg earlier intent).expiresAt = intent.expiresAt := by
  unfold Snapshot.write
  split
  · cases earlier with
    | none => rfl
    | some out => rfl
  · rfl

/-- Every row the snapshot's UPDATE matches has room for another claim if the snapshot says so. -/
def NotClaimedOut (cfg : Settings) (q : Queue) (s : Snapshot) : Prop :=
  ∀ row ∈ q.rows, s.finds row.row = true → s.attempts < cfg.maxAttempts →
    row.row.attempts < cfg.maxAttempts

theorem Sound.requeue (sound : Sound cfg q) {s : Snapshot} (room : NotClaimedOut cfg q s)
    (order : Option Order) (action : Option Nat) :
    Sound cfg { q with rows := requeueStale cfg s order action q.rows } := by
  refine sound.update (s.write_id cfg _) (s.write_expiresAt cfg _) ?_
  intro row held matched recorded
  have claimed : row.row.status = .claimed := (of_decide_eq_true matched).2.1
  by_cases tired : cfg.maxAttempts ≤ s.attempts
  · cases found : earlierOutcome order action s.now with
    | some out =>
      refine recorded.outcome found ?_ (.inr claimed)
      simp [Snapshot.write, tired]
    | none =>
      refine recorded.write ?_ (s.write_expiresAt cfg _ _) ?_ ?_ ?_
      · simp [Snapshot.write, tired, claimed, Status.moves]
      · simp [Snapshot.write, tired]
      · simp [Snapshot.write, tired]
      · simp [Snapshot.write, tired]
  · refine recorded.write ?_ (s.write_expiresAt cfg _ _) ?_ ?_ ?_
    · simp [Snapshot.write, tired, claimed, Status.moves]
    · simp [Snapshot.write, tired]
    · simp [Snapshot.write, tired]
    · intro _
      exact room row held matched (by omega)

theorem Sound.relink (sound : Sound cfg q) (id : Nat) (route : Route) (reason : String) (now : Int) :
    Sound cfg { q with rows := relinkPlaced id route reason now q.rows } := by
  refine sound.update (fun _ => rfl) (fun _ => rfl) ?_
  intro row _ matched recorded
  obtain ⟨-, over_⟩ := of_decide_eq_true matched
  refine recorded.write ?_ rfl rfl ?_ ?_
  · show Status.done ∈ row.row.status.moves
    rcases over_ with expired | failed
    · rw [expired]
      decide
    · rw [failed]
      decide
  · intro impossible
    cases impossible
  · intro impossible
    cases impossible

/-! ## Whole runs -/

/-- The steps that keep the lifecycle: `finish` is not called with EXPIRED, and `requeue_stale`
does not put a row back on a snapshot older than the row's last claim. -/
def Careful (cfg : Settings) (q : Queue) : Step → Prop
  | .finish _ f => f.status ≠ .expired
  | .requeue s _ _ => NotClaimedOut cfg q s
  | _ => True

instance (cfg : Settings) (q : Queue) (s : Snapshot) : Decidable (NotClaimedOut cfg q s) :=
  inferInstanceAs (Decidable (∀ row ∈ q.rows, _ → _ → _))

instance (cfg : Settings) (q : Queue) (step : Step) : Decidable (Careful cfg q step) :=
  match step with
  | .finish _ f => inferInstanceAs (Decidable (f.status ≠ .expired))
  | .requeue s _ _ => inferInstanceAs (Decidable (NotClaimedOut cfg q s))
  | .submit _ | .readQueued _ _ _ | .claim _ _ | .readOverdue _ _ | .link _ _ _ _ | .expire _ _
  | .readStale _ _ _ | .relink _ _ _ _ | .stop _ => isTrue trivial

/-- Taking up a half in flight is doing its write and dropping it. -/
theorem take_eq {next : Queue} {half : Half} {act : List Row → List Row}
    (taken : q.take half act = some next) :
    half ∈ q.inFlight ∧
      next = { q with rows := act q.rows, inFlight := q.inFlight.erase half } := by
  unfold Queue.take at taken
  split at taken
  · cases taken
    exact ⟨‹_›, rfl⟩
  · cases taken

/-- One step under `Careful`. -/
theorem sound_step (positive : 1 ≤ cfg.maxAttempts) {next : Queue} {step : Step}
    (sound : Sound cfg q) (careful : Careful cfg q step)
    (stepped : (queue cfg).step q step = some next) : Sound cfg next := by
  cases step with
  | submit r =>
    simp only [queue] at stepped
    split at stepped
    · rename_i intent created
      obtain ⟨queued, untried, id⟩ := submit_created created
      cases stepped
      exact sound.submit positive queued untried id
    · cases stepped
      exact sound
  | readQueued scope now limit =>
    cases stepped
    exact sound.readQueued scope now limit
  | claim id now =>
    obtain ⟨flying, rfl⟩ := take_eq stepped
    exact (sound.claim flying).drop _
  | finish id f =>
    simp only [queue] at stepped
    split at stepped
    · rename_i rows finished
      cases stepped
      exact sound.finish careful finished
    · cases stepped
      exact sound
  | readOverdue scope now =>
    cases stepped
    exact sound.readOverdue scope now
  | link id now order action =>
    obtain ⟨-, rfl⟩ := take_eq stepped
    exact (sound.link id now order action).drop _
  | expire scope now =>
    cases stepped
    exact sound.expire scope now
  | readStale scope now limit =>
    cases stepped
    exact sound.readStale scope now limit
  | requeue s order action =>
    obtain ⟨-, rfl⟩ := take_eq stepped
    exact (sound.requeue careful order action).drop _
  | relink id route reason now =>
    cases stepped
    exact sound.relink id route reason now
  | stop half =>
    obtain ⟨-, rfl⟩ := take_eq stepped
    exact sound.drop half

/-- The lifecycle of one row, read off the statuses it was written with. -/
structure Lifecycle (cfg : Settings) (row : Row) : Prop where
  /-- Every change of status is a listed move, from QUEUED to the present status. -/
  starts : (trail row).head? = some .queued
  ends : (trail row).getLast? = some row.row.status
  moves : (trail row).IsChain fun before after => after ∈ before.moves
  /-- DONE and REFUSED are never left. -/
  kept : ∀ (i : Nat) (status : Status), (trail row)[i]? = some status → status = .done ∨ status = .refused →
    i + 1 = (trail row).length
  counted : row.row.attempts = (trail row).count .claimed
  bounded : row.row.attempts ≤ cfg.maxAttempts
  inTime : ∀ at_, (Status.claimed, at_) ∈ row.notes → at_ < row.row.expiresAt
  /-- Two claims are separated by a requeue. -/
  separated : ∀ i j : Nat, i < j → (trail row)[i]? = some Status.claimed →
    (trail row)[j]? = some Status.claimed →
      ∃ k : Nat, i < k ∧ k < j ∧ (trail row)[k]? = some Status.queued

theorem Recorded.lifecycle {row : Row} (recorded : Recorded cfg row) : Lifecycle cfg row where
  starts := recorded.started
  ends := recorded.current
  moves := recorded.chain
  kept := by
    intro i status here settled
    refine Trail.terminal_last recorded.chain ?_ here
    intro next
    rcases settled with rfl | rfl
    · simp [Status.moves]
    · simp [Status.moves]
  counted := recorded.counted
  bounded := recorded.bounded
  inTime := recorded.timely
  separated := by
    intro i j before first second
    refine Trail.revisit recorded.chain ?_ (by decide) before first second
    intro status move
    revert move
    cases status <;> decide

/-- In every run of careful steps, every row of every state reached has lived by the rules. -/
theorem run_lifecycle (positive : 1 ≤ cfg.maxAttempts) {steps : List Step} {q : Queue}
    (careful : (queue cfg).Meets (Careful cfg) {} steps) (ran : (queue cfg).run {} steps = some q) :
    ∀ row ∈ q.rows, Lifecycle cfg row := by
  have sound : Sound cfg q :=
    (queue cfg).run_invariant (fun _ _ _ => sound_step positive) sound_start careful ran
  intro row held
  exact (sound.recorded row held).lifecycle

/-- A claim, a requeue after its worker stopped, a second claim that finishes. -/
def retriedSteps : List Step :=
  [.submit setup, .readQueued none 0 10, .claim 1 0, .readStale none 120 50,
    .requeue ⟨1, 1, 0, 120⟩ none none, .readQueued none 121 10, .claim 1 121,
    .finish 1 { status := .done, route := some .propose, reason := "One-click", now := 122 }]

theorem retriedSteps_lifecycle :
    ∃ q, (queue defaults).run {} retriedSteps = some q ∧ ∀ row ∈ q.rows, Lifecycle defaults row := by
  have runs : ((queue defaults).run {} retriedSteps).isSome = true := by decide +kernel
  obtain ⟨q, ran⟩ := Option.isSome_iff_exists.mp runs
  exact ⟨q, ran, run_lifecycle (by decide) (by decide +kernel) ran⟩

/-- The second claim of the row is read by two workers at 120. One takes it and stops; at 240
two sweeps read it stale. The first puts it back, the other worker's claim of 120 lands, and
the second sweep takes that claim for the one it read. -/
def overlappingSweeps : List Step :=
  [.submit setup, .readQueued none 0 10, .claim 1 0, .readStale none 120 50,
    .requeue ⟨1, 1, 0, 120⟩ none none,
    .readQueued none 120 10, .readQueued none 120 10, .claim 1 120,
    .readStale none 240 50, .readStale none 240 50, .requeue ⟨1, 2, 120, 240⟩ none none,
    .claim 1 120, .requeue ⟨1, 2, 120, 240⟩ none none,
    .readQueued none 241 10, .claim 1 241]

/-- The row has been claimed four times; the bound is three. -/
theorem overlappingSweeps_exceed :
    ∃ q, (queue defaults).run {} overlappingSweeps = some q ∧
      ∃ row ∈ q.rows, defaults.maxAttempts < row.row.attempts ∧ (trail row).count .claimed = 4 := by
  have runs : ((queue defaults).run {} overlappingSweeps).any (fun q => q.rows.any fun row =>
      decide (defaults.maxAttempts < row.row.attempts ∧ (trail row).count .claimed = 4)) = true := by
    decide +kernel
  obtain ⟨q, ran, found⟩ := (Option.any_eq_true _ _).mp runs
  obtain ⟨row, held, exceeded⟩ := List.any_eq_true.mp found
  exact ⟨q, ran, row, held, of_decide_eq_true exceeded⟩

end AdvanceTrading.Execution.Core
