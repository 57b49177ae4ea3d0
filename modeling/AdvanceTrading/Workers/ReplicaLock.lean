import AdvanceTrading.Misc.Processes
import Mathlib.Tactic.SplitIfs

/-!
# The replica lock

Model of the lock that keeps two replicas of the worker from trading at once: the
calls on its key (`app/cache/client.py:80-137`), and of a cycle
(`app/workers/trading_worker.py:534-582`, `1284-1310`, `1412-1438`) the steps that
take, keep and give back the lock between the tenants. Replicas run side by side.
Redis may drop the key at any moment, whether it expires or is evicted, and any call
may not reach it or lose its answer. What is done for a tenant is left out, but for
whether entries are allowed in it.
-/

namespace AdvanceTrading.ReplicaLock

/-! ## The key -/

/-- How a call to Redis ends. -/
inductive Reach where
  | answered
  /-- It ran, and its answer was lost. -/
  | unanswered
  | away
  deriving DecidableEq, Repr

/-- The key of the lock, and how often it was dropped. -/
structure Redis where
  key : Option Nat := none
  drops : Nat := 0
  deriving DecidableEq, Repr

/-- `cache_try_lock`: acquired, and reachable. -/
def tryLock (holder : Nat) (redis : Redis) : Reach → (Bool × Bool) × Redis
  | .answered => ((redis.key.isNone, true), { redis with key := redis.key.or (some holder) })
  | .unanswered => ((true, false), { redis with key := redis.key.or (some holder) })
  | .away => ((true, false), redis)

/-- `cache_renew_lock`. What it does to the expiry is not seen: the key may be dropped at any moment. -/
def renewLock (holder : Nat) (redis : Redis) (reach : Reach) : Bool := reach = .answered && redis.key = some holder

/-- `cache_lock_holder`: the holder, and whether Redis was reached. -/
def lockHolder (redis : Redis) (reach : Reach) : Option Nat × Bool :=
  if reach = .answered then (redis.key, true) else (none, false)

/-- `cache_release_lock`. -/
def releaseLock (holder : Nat) (redis : Redis) (reach : Reach) : Redis :=
  if reach ≠ .away ∧ redis.key = some holder then { redis with key := none } else redis

/-! ## A cycle -/

/-- Where a replica is in its cycle. -/
inductive Stage where
  | idle
  /-- Before the next tenant, or after the last: the lock is to be kept. -/
  | between
  /-- In `_keep_lock`, after a renewal that was not granted. -/
  | asking
  /-- In `_keep_lock`, after the key was found gone. -/
  | retaking
  | tenant
  /-- The tenants are done with. -/
  | after
  deriving DecidableEq, Repr

structure Replica where
  holder : Nat
  stage : Stage := .idle
  /-- `_lock_degraded`. -/
  degraded : Bool := false
  /-- `_lock_lost`. -/
  lost : Bool := false
  /-- `lock_aborted` of the report, and `exits_only`. -/
  exitsOnly : Bool := false
  /-- The tenants of the cycle, those still to come and those that had their turn. -/
  tenants : List Nat := []
  todo : List Nat := []
  ran : List Nat := []
  /-- The drops when the replica last found the lock its own. -/
  seen : Nat := 0
  deriving DecidableEq, Repr

/-- On to the next tenant, or to the end of the loop. -/
def Replica.proceed (r : Replica) : Replica := { r with stage := if r.todo = [] then .after else .tenant }

/-- The replica finds the lock its own. -/
def Replica.confirm (r : Replica) (redis : Redis) : Replica := { r with seen := redis.drops }

inductive Action where
  | start (tenants : List Nat) (reach : Reach)
  | keep (reach : Reach)
  | ask (reach : Reach)
  | retake (reach : Reach)
  | work
  /-- The cycle ends, at its end or by an exception, and gives the lock back. -/
  | finish (reach : Reach)
  /-- The process stops. -/
  | die
  deriving DecidableEq, Repr

/-- `_keep_lock` up to its first answer. -/
def Replica.keepLock (redis : Redis) (r : Replica) (reach : Reach) : Replica :=
  if r.exitsOnly ∨ r.degraded then r.proceed
  else if renewLock r.holder redis reach then (r.confirm redis).proceed
  else { r with stage := .asking }

/-- `_keep_lock` once the renewal was not granted. -/
def Replica.askHolder (redis : Redis) (r : Replica) (reach : Reach) : Replica :=
  match lockHolder redis reach with
  | (_, false) => { r with degraded := true }.proceed
  | (none, true) => { r with stage := .retaking }
  | (some holder, true) =>
      if holder = r.holder then (r.confirm redis).proceed else { r with lost := true, exitsOnly := true }.proceed

/-- A step of a replica. -/
def statement (redis : Redis) (r : Replica) : Action → Option (Redis × Replica)
  | .start tenants reach =>
      if r.stage ≠ .idle then none
      else
        let ((acquired, reachable), redis) := tryLock r.holder redis reach
        if acquired then
          some (redis,
            { holder := r.holder, stage := .between, degraded := !reachable, tenants, todo := tenants,
              seen := redis.drops })
        else some (redis, r)
  | .keep reach => if r.stage = .between then some (redis, r.keepLock redis reach) else none
  | .ask reach => if r.stage = .asking then some (redis, r.askHolder redis reach) else none
  | .retake reach =>
      if r.stage ≠ .retaking then none
      else
        let ((taken, _), redis) := tryLock r.holder redis reach
        some (redis, { r with lost := true, exitsOnly := !taken }.proceed)
  | .work =>
      match r.stage, r.todo with
      | .tenant, tenant :: rest => some (redis, { r with stage := .between, todo := rest, ran := r.ran ++ [tenant] })
      | _, _ => none
  | .finish reach =>
      if r.stage = .idle then none else some (releaseLock r.holder redis reach, { r with stage := .idle })
  | .die => some (redis, { r with stage := .idle })

/-- The key expires, or is evicted. -/
inductive Outside where
  | drop
  deriving DecidableEq, Repr

def outside (redis : Redis) : Outside → Option Redis
  | .drop => if redis.key = none then none else some { key := none, drops := redis.drops + 1 }

/-- Any number of replicas. -/
def replicas (n : Nat) : Machine (Procs Redis Replica n) (ProcEvent n Action Outside) :=
  Procs.interleave statement outside n

/-- No replica is in a cycle; the key may have been left behind. -/
def start (n : Nat) (key : Option Nat) : Procs Redis Replica n := ⟨{ key }, fun q => { holder := q }⟩

/-- The lock pauses the entries of deployments and of incomplete orders (the trigger engine's look at `lost` and
`exitsOnly` alone). -/
def Replica.Paused (r : Replica) : Prop := r.degraded = true ∨ r.lost = true ∨ r.exitsOnly = true

instance (r : Replica) : Decidable r.Paused := inferInstanceAs (Decidable (_ ∨ _ ∨ _))

/-- The replica is in a tenant's part, and the lock does not keep it from placing entries. -/
def Replica.MayEnter (r : Replica) : Prop := r.stage = .tenant ∧ ¬r.Paused

/-! ## What a step does -/

variable {redis redis' : Redis} {r r' : Replica} {action : Action} {n : Nat}

/-- What a call of a holder leaves of the key for the others. -/
structure Beside (holder : Nat) (redis redis' : Redis) : Prop where
  drops : redis'.drops = redis.drops
  others : ∀ other, other ≠ holder → (redis'.key = some other ↔ redis.key = some other)

theorem Beside.rfl' {holder : Nat} : Beside holder redis redis := ⟨rfl, fun _ _ => Iff.rfl⟩

/-- `cache_try_lock` leaves another's key alone, and an answered call that acquires takes it. -/
theorem tryLock_spec {holder : Nat} {reach : Reach} {acquired reachable : Bool}
    (tried : tryLock holder redis reach = ((acquired, reachable), redis')) :
    Beside holder redis redis' ∧ (acquired = true → reachable = true → redis'.key = some holder) := by
  have beside : Beside holder redis { redis with key := redis.key.or (some holder) } := by
    refine ⟨rfl, fun other apart => ?_⟩
    cases redis.key <;> simp [apart.symm]
  cases reach with
  | answered =>
    cases tried
    refine ⟨beside, fun free _ => ?_⟩
    simp [Option.isNone_iff_eq_none.mp free]
  | unanswered =>
    cases tried
    exact ⟨beside, fun _ reached => by cases reached⟩
  | away =>
    cases tried
    exact ⟨.rfl', fun _ reached => by cases reached⟩

theorem releaseLock_beside (holder : Nat) (redis : Redis) (reach : Reach) :
    Beside holder redis (releaseLock holder redis reach) := by
  unfold releaseLock
  split_ifs with own
  · refine ⟨rfl, fun other apart => iff_of_false (by simp) ?_⟩
    rw [own.2]
    simpa using apart.symm
  · exact .rfl'

/-- Where a step takes a replica: all that it can do. -/
inductive Turn (redis : Redis) (r : Replica) : Action → Redis → Replica → Prop where
  | refused {redis' : Redis} {tenants : List Nat} {reach : Reach} (idle : r.stage = .idle) :
      Turn redis r (.start tenants reach) redis' r
  | begun {redis' : Redis} {tenants : List Nat} {reach : Reach} {degraded : Bool}
      (own : degraded = false → redis'.key = some r.holder) :
      Turn redis r (.start tenants reach) redis'
        { holder := r.holder, stage := .between, degraded, tenants, todo := tenants, seen := redis'.drops }
  | confirmed {action : Action} (cycle : r.stage ≠ .idle) (own : redis.key = some r.holder) :
      Turn redis r action redis (r.confirm redis).proceed
  | waits {action : Action} {stage : Stage} (cycle : r.stage ≠ .idle) (waiting : stage = .asking ∨ stage = .retaking) :
      Turn redis r action redis { r with stage }
  | paused {action : Action} {redis' : Redis} {degraded lost exitsOnly : Bool}
      (pauses : degraded = true ∨ lost = true ∨ exitsOnly = true) :
      Turn redis r action redis' { r with degraded, lost, exitsOnly }.proceed
  | worked {action : Action} {tenant : Nat} {rest : List Nat} (inTenant : r.stage = .tenant)
      (due : r.todo = tenant :: rest) :
      Turn redis r action redis { r with stage := .between, todo := rest, ran := r.ran ++ [tenant] }
  | ended {action : Action} {redis' : Redis} : Turn redis r action redis' { r with stage := .idle }

theorem keepLock_turn {reach : Reach} (cycle : r.stage ≠ .idle) :
    Turn redis r action redis (r.keepLock redis reach) := by
  unfold Replica.keepLock
  split_ifs with off own
  · exact .paused (off.elim (fun h => .inr (.inr h)) .inl)
  · rw [renewLock, Bool.and_eq_true] at own
    exact .confirmed cycle (of_decide_eq_true own.2)
  · exact .waits cycle (.inl rfl)

theorem askHolder_turn {reach : Reach} (cycle : r.stage ≠ .idle) :
    Turn redis r action redis (r.askHolder redis reach) := by
  unfold Replica.askHolder lockHolder
  by_cases answered : reach = .answered
  · rw [if_pos answered]
    cases held : redis.key with
    | none => exact .waits cycle (.inr rfl)
    | some holder =>
      dsimp only
      split_ifs with own
      · exact .confirmed cycle (by rw [held, own])
      · exact .paused (.inr (.inl rfl))
  · rw [if_neg answered]
    exact .paused (.inl rfl)

/-- Every step is one of these turns, and leaves the key of the other replicas alone. -/
theorem statement_turn (ran : statement redis r action = some (redis', r')) :
    Turn redis r action redis' r' ∧ Beside r.holder redis redis' := by
  cases action with
  | start tenants reach =>
    simp only [statement] at ran
    split at ran
    · cases ran
    · next idle =>
      generalize tried : tryLock r.holder redis reach = answer at ran
      obtain ⟨⟨acquired, reachable⟩, after⟩ := answer
      obtain ⟨beside, own⟩ := tryLock_spec tried
      cases acquired with
      | false =>
        cases ran
        exact ⟨.refused (not_not.mp idle), beside⟩
      | true =>
        cases ran
        refine ⟨.begun fun reached => own rfl ?_, beside⟩
        cases reachable with
        | true => rfl
        | false => cases reached
  | keep reach =>
    simp only [statement] at ran
    split at ran
    · next between =>
      cases ran
      exact ⟨keepLock_turn (by rw [between]; decide), .rfl'⟩
    · cases ran
  | ask reach =>
    simp only [statement] at ran
    split at ran
    · next asking =>
      cases ran
      exact ⟨askHolder_turn (by rw [asking]; decide), .rfl'⟩
    · cases ran
  | retake reach =>
    simp only [statement] at ran
    split at ran
    · cases ran
    · generalize tried : tryLock r.holder redis reach = answer at ran
      obtain ⟨⟨taken, reachable⟩, after⟩ := answer
      cases ran
      exact ⟨.paused (.inr (.inl rfl)), (tryLock_spec tried).1⟩
  | work =>
    simp only [statement] at ran
    split at ran
    · next inTenant due =>
      cases ran
      exact ⟨.worked inTenant due, .rfl'⟩
    · cases ran
  | finish reach =>
    simp only [statement] at ran
    split at ran
    · cases ran
    · cases ran
      exact ⟨.ended, releaseLock_beside _ _ _⟩
  | die =>
    cases ran
    exact ⟨.ended, .rfl'⟩

/-! ## What a step keeps -/

/-- A replica in its cycle whose entries are not paused holds the key exactly until it is dropped. -/
structure Kept (redis : Redis) (r : Replica) : Prop where
  past : r.seen ≤ redis.drops
  holds : r.stage ≠ .idle → ¬r.Paused → (redis.key = some r.holder ↔ r.seen = redis.drops)

/-- The tenants are those that had their turn and those to come. -/
structure Listed (r : Replica) : Prop where
  split : r.ran ++ r.todo = r.tenants
  after : r.stage = .after → r.todo = []

theorem proceed_listed (listed : r.ran ++ r.todo = r.tenants) : Listed r.proceed := by
  refine ⟨listed, ?_⟩
  unfold Replica.proceed
  split
  · next none_ => exact fun _ => none_
  · intro after
    cases after

section

variable (turn : Turn redis r action redis' r')
include turn

theorem Turn.holder : r'.holder = r.holder := by
  cases turn <;> rfl

theorem Turn.kept (beside : Beside r.holder redis redis') (kept : Kept redis r) :
    Kept redis' r' := by
  have past : r.seen ≤ redis'.drops := beside.drops ▸ kept.past
  cases turn with
  | refused idle => exact ⟨past, fun cycle => absurd idle cycle⟩
  | begun own => exact ⟨Nat.le_refl _, fun _ free =>
      iff_of_true (own (Bool.not_eq_true _ ▸ fun is => free (.inl is))) rfl⟩
  | confirmed cycle own => exact ⟨Nat.le_refl _, fun _ _ => iff_of_true own rfl⟩
  | waits cycle waiting => exact ⟨past, fun _ free => kept.holds cycle free⟩
  | paused pauses => exact ⟨past, fun _ free => absurd pauses free⟩
  | worked inTenant due => exact ⟨past, fun _ free => kept.holds (by rw [inTenant]; decide) free⟩
  | ended => exact ⟨past, fun cycle => absurd rfl cycle⟩

theorem Turn.listed (listed : Listed r) : Listed r' := by
  cases turn with
  | refused idle => exact listed
  | begun own => exact ⟨rfl, fun is => by cases is⟩
  | confirmed cycle own => exact proceed_listed listed.split
  | waits cycle waiting => exact ⟨listed.split, fun is => by rcases waiting with rfl | rfl <;> cases is⟩
  | paused pauses => exact proceed_listed listed.split
  | worked inTenant due =>
    refine ⟨?_, fun is => by cases is⟩
    rw [← listed.split, due]
    simp
  | ended => exact ⟨listed.split, fun is => by cases is⟩

/-- Only a look at the lock that finds it the replica's own leads to a part with entries. -/
theorem Turn.enters (enters : r'.MayEnter) : r'.seen = redis'.drops := by
  obtain ⟨inTenant, free⟩ := enters
  cases turn with
  | refused idle => exact absurd (idle.symm.trans inTenant) (by decide)
  | begun own => cases inTenant
  | confirmed cycle own => rfl
  | waits cycle waiting => rcases waiting with rfl | rfl <;> cases inTenant
  | paused pauses => exact absurd pauses free
  | worked inTenant due => cases inTenant
  | ended => cases inTenant

end

theorem Replica.MayEnter.cycle (enters : r.MayEnter) : r.stage ≠ .idle := by
  rw [enters.1]
  decide

/-! ## Runs -/

section Runs

variable {w w' : Procs Redis Replica n} {key : Option Nat} {events : List (ProcEvent n Action Outside)} {p q : Fin n}

/-- Every replica has its own name, keeps what it holds and its list. -/
def Sound (w : Procs Redis Replica n) : Prop :=
  ∀ q, (w.point q).holder = q ∧ Kept w.shared (w.point q) ∧ Listed (w.point q)

theorem sound_step (w : Procs Redis Replica n) (event : ProcEvent n Action Outside) (w' : Procs Redis Replica n)
    (sound : Sound w) (stepped : (replicas n).step w event = some w') : Sound w' := by
  cases event with
  | act who action =>
    obtain ⟨redis, next, ran, rfl⟩ := Procs.act_eq stepped
    obtain ⟨isWho, kept, listed⟩ := sound who
    obtain ⟨turn, beside⟩ := statement_turn ran
    intro q
    by_cases same : q = who
    · subst same
      rw [Procs.move_self]
      exact ⟨turn.holder.trans isWho, turn.kept beside kept, turn.listed listed⟩
    · obtain ⟨isQ, keptQ, listedQ⟩ := sound q
      rw [Procs.move_other same, Procs.move_shared]
      refine ⟨isQ, ⟨beside.drops ▸ keptQ.past, fun cycle free => ?_⟩, listedQ⟩
      have apart : (w.point q).holder ≠ (w.point who).holder := by
        rw [isQ, isWho]
        exact fun is => same (Fin.ext is)
      rw [beside.others _ apart, beside.drops]
      exact keptQ.holds cycle free
  | outside event =>
    obtain ⟨redis, dropped, rfl⟩ := Procs.outside_eq stepped
    simp only [outside] at dropped
    split at dropped
    · cases dropped
    · cases dropped
      intro q
      obtain ⟨isQ, kept, listed⟩ := sound q
      have past := kept.past
      exact ⟨isQ, ⟨Nat.le_succ_of_le past, fun _ _ =>
        iff_of_false (by simp) (Nat.ne_of_lt (Nat.lt_succ_of_le past))⟩, listed⟩

theorem sound_run (ran : (replicas n).run (start n key) events = some w) : Sound w := by
  refine (replicas n).run_invariant_all sound_step ?_ ran
  intro q
  exact ⟨rfl, ⟨Nat.le_refl _, fun cycle => absurd rfl cycle⟩, ⟨rfl, fun is => by cases is⟩⟩

/-- Two replicas may place entries at once only where the key was dropped since one of them last found it its own. -/
theorem entries_exclusive (ran : (replicas n).run (start n key) events = some w) (apart : p ≠ q)
    (enters : (w.point p).MayEnter) (enters' : (w.point q).MayEnter) :
    (w.point p).seen < w.shared.drops ∨ (w.point q).seen < w.shared.drops := by
  obtain ⟨isP, keptP, -⟩ := sound_run ran p
  obtain ⟨isQ, keptQ, -⟩ := sound_run ran q
  rcases Nat.lt_or_ge (w.point p).seen w.shared.drops with behind | own
  · exact .inl behind
  rcases Nat.lt_or_ge (w.point q).seen w.shared.drops with behind | own'
  · exact .inr behind
  have first := (keptP.holds enters.cycle enters.2).mpr (Nat.le_antisymm keptP.past own)
  have second := (keptQ.holds enters'.cycle enters'.2).mpr (Nat.le_antisymm keptQ.past own')
  rw [first, isP, isQ] at second
  exact absurd (Fin.ext (Option.some.inj second)) apart

/-- The key expires in the first replica's tenant part, and the second takes it. -/
def expired : List (ProcEvent 2 Action Outside) :=
  [.act 0 (.start [7] .answered), .act 0 (.keep .answered), .outside .drop,
    .act 1 (.start [7] .answered), .act 1 (.keep .answered)]

theorem entries_exclusive_expired : ∃ w, (replicas 2).run (start 2 none) expired = some w ∧
    ((w.point 0).seen < w.shared.drops ∨ (w.point 1).seen < w.shared.drops) := by
  have ran : (replicas 2).run (start 2 none) expired = some _ := rfl
  exact ⟨_, ran, entries_exclusive ran (by decide) ⟨rfl, by decide⟩ ⟨rfl, by decide⟩⟩

/-- Entries come to be allowed only in a step that finds the key the replica's own. -/
theorem enters_holding (ran : (replicas n).run (start n key) events = some w) {e : ProcEvent n Action Outside}
    (stepped : (replicas n).step w e = some w') (before : ¬(w.point q).MayEnter) (enters : (w'.point q).MayEnter) :
    w'.shared.key = some (q : Nat) ∧ (w'.point q).seen = w'.shared.drops := by
  have sound := sound_step w e w' (sound_run ran) stepped q
  have confirmed : (w'.point q).seen = w'.shared.drops := by
    cases e with
    | act who action =>
      obtain ⟨redis, next, moved, rfl⟩ := Procs.act_eq stepped
      by_cases same : q = who
      · subst same
        rw [Procs.move_self] at enters ⊢
        exact (statement_turn moved).1.enters enters
      · rw [Procs.move_other same] at enters
        exact absurd enters before
    | outside event =>
      obtain ⟨redis, -, rfl⟩ := Procs.outside_eq stepped
      exact absurd enters before
  refine ⟨?_, confirmed⟩
  rw [(sound.2.1.holds enters.cycle enters.2).mpr confirmed, sound.1]

theorem enters_holding_first : ∃ w w', (replicas 1).run (start 1 none) [.act 0 (.start [7] .answered)] = some w ∧
    (replicas 1).step w (.act 0 (.keep .answered)) = some w' ∧ w'.shared.key = some 0 ∧
      (w'.point 0).seen = w'.shared.drops := by
  have ran : (replicas 1).run (start 1 none) [.act 0 (.start [7] .answered)] = some _ := rfl
  exact ⟨_, _, ran, rfl, enters_holding (q := 0) (e := .act 0 (.keep .answered)) ran rfl
    (fun enters => by cases enters.1) ⟨rfl, by decide⟩⟩

/-- The lock keeps the replica from entries until its next cycle: they are paused, or it is about to
see that the key was dropped. -/
def Barred (redis : Redis) (r : Replica) : Prop :=
  r.Paused ∨ r.stage = .idle ∨ (r.seen < redis.drops ∧ (r.stage = .between ∨ r.stage = .asking ∨ r.stage = .retaking))

theorem Barred.not_enters (barred : Barred redis r) : ¬r.MayEnter := by
  rintro ⟨inTenant, free⟩
  rcases barred with paused | idle | ⟨-, stage⟩
  · exact free paused
  · rw [inTenant] at idle
    cases idle
  · rw [inTenant] at stage
    rcases stage with is | is | is <;> cases is

/-- Only the next cycle lifts the bar: where the key was dropped it is not found the replica's own. -/
theorem Turn.barred (turn : Turn redis r action redis' r') (kept : Kept redis r) (barred : Barred redis r)
    (goesOn : ∀ tenants reach, action ≠ .start tenants reach) : Barred redis' r' := by
  by_cases paused : r.Paused
  · cases turn with
    | begun own => exact absurd rfl (goesOn _ _)
    | paused pauses => exact .inl pauses
    | _ => exact .inl paused
  cases turn with
  | refused idle => exact absurd rfl (goesOn _ _)
  | begun own => exact absurd rfl (goesOn _ _)
  | confirmed cycle own =>
    rcases barred with paused' | idle | ⟨dropped, -⟩
    · exact absurd paused' paused
    · exact absurd idle cycle
    · exact absurd ((kept.holds cycle paused).mp own) (Nat.ne_of_lt dropped)
  | waits cycle waiting =>
    rcases barred with paused' | idle | ⟨dropped, -⟩
    · exact absurd paused' paused
    · exact absurd idle cycle
    · exact .inr (.inr ⟨dropped, .inr waiting⟩)
  | paused pauses => exact .inl pauses
  | worked inTenant due => exact absurd ⟨inTenant, paused⟩ barred.not_enters
  | ended => exact .inr (.inl rfl)

/-- A replica that comes to the next tenant after the key was dropped places no entry in the rest of its cycle, whoever
holds the key by then. -/
theorem dropped_never_enters (ran : (replicas n).run (start n key) events = some w)
    (between : (w.point q).stage = .between) (dropped : (w.point q).seen < w.shared.drops)
    (later : List (ProcEvent n Action Outside)) (goesOn : ∀ tenants reach, .act q (.start tenants reach) ∉ later)
    (ranLater : (replicas n).run w later = some w') : ¬(w'.point q).MayEnter := by
  have keeps : ∀ v event v', Sound v ∧ Barred v.shared (v.point q) →
      (∀ tenants reach, event ≠ .act q (.start tenants reach)) →
      (replicas n).step v event = some v' → Sound v' ∧ Barred v'.shared (v'.point q) := by
    rintro v event v' ⟨sound, barred⟩ other stepped
    refine ⟨sound_step v event v' sound stepped, ?_⟩
    cases event with
    | act who action =>
      obtain ⟨redis, next, moved, rfl⟩ := Procs.act_eq stepped
      obtain ⟨turn, beside⟩ := statement_turn moved
      by_cases same : q = who
      · subst same
        rw [Procs.move_self, Procs.move_shared]
        exact turn.barred (sound q).2.1 barred fun tenants reach is => other tenants reach (is ▸ rfl)
      · rw [Procs.move_other same, Procs.move_shared]
        unfold Barred at barred ⊢
        rwa [beside.drops]
    | outside event =>
      obtain ⟨redis, gone, rfl⟩ := Procs.outside_eq stepped
      simp only [outside] at gone
      split at gone
      · cases gone
      · cases gone
        exact barred.imp_right (.imp_right fun ⟨less, stage⟩ => ⟨Nat.lt_succ_of_lt less, stage⟩)
  have noStart : (replicas n).Meets
      (fun _ event => ∀ tenants reach, event ≠ .act q (.start tenants reach)) w later := by
    apply (replicas n).meets_of_splits
    rintro earlier event rest t rfl - tenants reach rfl
    exact goesOn tenants reach (List.mem_append_right _ List.mem_cons_self)
  exact ((replicas n).run_invariant keeps ⟨sound_run ran, .inr (.inr ⟨dropped, .inl between⟩)⟩
    noStart ranLater).2.not_enters

theorem dropped_never_enters_retaken : ∃ w w',
    (replicas 1).run (start 1 none) [.act 0 (.start [7] .answered), .outside .drop] = some w ∧
    (replicas 1).run w [.act 0 (.keep .answered), .act 0 (.ask .answered), .act 0 (.retake .answered)] = some w' ∧
      (w'.point 0).stage = .tenant ∧ w'.shared.key = some 0 ∧ ¬(w'.point 0).MayEnter := by
  have ran : (replicas 1).run (start 1 none) [.act 0 (.start [7] .answered), .outside .drop] = some _ := rfl
  refine ⟨_, _, ran, rfl, rfl, rfl, dropped_never_enters (q := 0) ran rfl (by decide)
    [.act 0 (.keep .answered), .act 0 (.ask .answered), .act 0 (.retake .answered)] ?_ rfl⟩
  simp

/-- When the loop over the tenants is through, each of them had its turn once, in order, however the lock fared. -/
theorem tenants_had_turn (ran : (replicas n).run (start n key) events = some w)
    (after : (w.point q).stage = .after) : (w.point q).ran = (w.point q).tenants := by
  obtain ⟨-, -, listed⟩ := sound_run ran q
  rw [← listed.split, listed.after after, List.append_nil]

theorem tenants_had_turn_unreached : ∃ w, (replicas 1).run (start 1 none)
      [.act 0 (.start [7, 9] .answered), .act 0 (.keep .away), .act 0 (.ask .away), .act 0 .work,
        .act 0 (.keep .answered),
        .act 0 .work, .act 0 (.keep .answered)] = some w ∧ (w.point 0).ran = [7, 9] := by
  have ran : (replicas 1).run (start 1 none)
      [.act 0 (.start [7, 9] .answered), .act 0 (.keep .away), .act 0 (.ask .away), .act 0 .work,
        .act 0 (.keep .answered),
        .act 0 .work, .act 0 (.keep .answered)] = some _ := rfl
  exact ⟨_, ran, tenants_had_turn (q := 0) ran rfl⟩

end Runs

end AdvanceTrading.ReplicaLock
