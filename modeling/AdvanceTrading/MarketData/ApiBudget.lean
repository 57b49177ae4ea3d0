import AdvanceTrading.Misc.Allowance
import Mathlib.Algebra.Order.BigOperators.Group.Finset
import Mathlib.Algebra.Order.Floor.Ring
import Mathlib.Data.Rat.Floor

/-!
# The data budget of a credential

Broker calls for charts and quotes draw from one budget for each credential: a
token bucket, of whose burst a quote leaves its reserve, and sliding windows,
checked longest first. The budget is kept in Redis, where one script checks and
counts a call; without Redis each API process keeps its part in its own memory.
Times and tokens are rational numbers.
-/

namespace AdvanceTrading

namespace ApiBudget

open Allowance

/-- The kinds of call: candles ("history"), and anything else ("quote"). -/
inductive Kind where
  | history
  | quote
deriving DecidableEq

/-! ## The limits -/

/-- The worker's conservative limits for a broker. -/
structure RateLimits where
  perSecond : ℚ
  burst : Int
  perMinute : Nat

/-- A broker's share; `apiLimits` builds no limit below 1. -/
structure ApiLimits where
  perSecond : Nat
  perMinute : Nat
  per30min : Option Nat
  burst : Option Nat
  second_pos : 0 < perSecond
  minute_pos : 0 < perMinute
  half_pos : ∀ l ∈ per30min, 0 < l

namespace ApiLimits

/-- The tokens that the bucket holds at most. -/
def capacity (limits : ApiLimits) : Nat := max (max limits.perSecond (limits.burst.getD 0)) 1

/-- Tokens a call of this kind must leave: none for history, the whole burst for anything else. -/
def reserve (limits : ApiLimits) : Kind → Nat
  | .history => 0
  | .quote => limits.capacity - limits.perSecond

/-- The window seconds and the limit of every sliding window. -/
def windows (limits : ApiLimits) : List (Nat × Nat) :=
  (60, limits.perMinute) :: match limits.per30min with
    | some l => [(1800, l)]
    | none => []

theorem perSecond_le (limits : ApiLimits) : limits.perSecond ≤ limits.capacity := by
  unfold capacity
  omega

theorem windows_pos (limits : ApiLimits) {p : Nat × Nat} (in_ : p ∈ limits.windows) : 0 < p.2 := by
  unfold windows at in_
  rcases List.mem_cons.mp in_ with rfl | in_
  · exact limits.minute_pos
  · cases half : limits.per30min with
    | none => simp [half] at in_
    | some l =>
      rw [half] at in_
      cases List.mem_singleton.mp in_
      exact limits.half_pos l half

end ApiLimits

def API_SHARE : ℚ := 1 / 2
def API_BURST : Nat := 2
def UPSTOX_API_PER_30MIN : Nat := 500

/-- The API's share for a broker with these limits, whose published limit on history calls a
second may be known. -/
def apiLimits (base : RateLimits) (published : Option Int) (upstox : Bool) : ApiLimits :=
  let perSecond := max 1 ⌊base.perSecond * API_SHARE⌋.toNat
  let burst : Int := match published with
    | none => perSecond
    | some published => max perSecond (min (max perSecond API_BURST) (published - base.burst))
  { perSecond := perSecond
    perMinute := max 1 ⌊base.perMinute * API_SHARE⌋.toNat
    per30min := if upstox then some UPSTOX_API_PER_30MIN else none
    burst := some burst.toNat
    second_pos := by simp [perSecond]
    minute_pos := by simp
    half_pos := by
      intro l in_
      cases upstox with
      | false => cases in_
      | true =>
        cases in_
        decide }

/-! ## The windows -/

/-- The key of a window with what is counted under it. -/
structure Slot (σ : Type) where
  seconds : Nat
  limit : Nat
  calls : σ

namespace Slot

variable {σ : Type}

def window (slot : Slot σ) : Nat × Nat := (slot.seconds, slot.limit)

/-- Forget the calls that have left the window. -/
def prune (R : Register ℚ σ) (now : ℚ) (slot : Slot σ) : Slot σ :=
  { slot with calls := R.prune slot.seconds now slot.calls }

/-- Record a call. -/
def add (R : Register ℚ σ) (now : ℚ) (slot : Slot σ) : Slot σ :=
  { slot with calls := R.add slot.seconds now slot.calls }

@[simp] theorem window_prune (R : Register ℚ σ) (now : ℚ) (slot : Slot σ) : (slot.prune R now).window = slot.window :=
  rfl

@[simp] theorem window_add (R : Register ℚ σ) (now : ℚ) (slot : Slot σ) : (slot.add R now).window = slot.window :=
  rfl

theorem prune_prune {R : Register ℚ σ} {t t' : ℚ} (slot : Slot σ) (later : t ≤ t') :
    (slot.prune R t).prune R t' = slot.prune R t' := by
  simp [prune, R.prune_prune slot.calls later]

end Slot

/-- What the loop over the windows ends with. -/
inductive Swept where
  | room
  | soon
  | full (i : Nat)

variable {σ : Type}

/-- The loop over the windows, the longest (the last) first: each is pruned, then counted. A full
one ends the loop with its index, a full one that may be waited for does not. -/
def sweep (R : Register ℚ σ) (waitable : Nat → Bool) (now : ℚ) : Nat → List (Slot σ) → Swept × List (Slot σ)
  | _, [] => (.room, [])
  | i, slot :: longer =>
      match sweep R waitable now (i + 1) longer with
      | (.full j, longer) => (.full j, slot :: longer)
      | (found, longer) =>
          let slot := slot.prune R now
          if (R.times slot.calls).length + 1 > slot.limit then
            if waitable slot.seconds then (.soon, slot :: longer) else (.full i, slot :: longer)
          else (found, slot :: longer)

/-- What a take at a moment sees of the windows. -/
def glance (R : Register ℚ σ) (now : ℚ) (slots : List (Slot σ)) : List (Slot σ) := slots.map (·.prune R now)

variable (R : Register ℚ σ) (waitable : Nat → Bool) {now t : ℚ}

/-- The loop changes nothing that it or a later take sees. -/
theorem glance_sweep (later : now ≤ t) (i : Nat) (slots : List (Slot σ)) :
    glance R t (sweep R waitable now i slots).2 = glance R t slots := by
  induction slots generalizing i with
  | nil => rfl
  | cons slot longer ih =>
    have rest := ih (i + 1)
    unfold sweep
    split
    next j longer' swept =>
      rw [swept] at rest
      simpa [glance] using rest
    next found longer' _ swept =>
      rw [swept] at rest
      have here : glance R t (slot.prune R now :: longer') = glance R t (slot :: longer) := by
        simp only [glance, List.map_cons, slot.prune_prune later] at rest ⊢
        rw [rest]
      dsimp only
      split
      · split <;> exact here
      · exact here

/-- A loop that finds room has pruned every window and found each with room. -/
theorem sweep_room (now : ℚ) (i : Nat) (slots : List (Slot σ)) (found : (sweep R waitable now i slots).1 = .room) :
    (sweep R waitable now i slots).2 = glance R now slots ∧
      ∀ slot ∈ slots, (R.times (R.prune slot.seconds now slot.calls)).length + 1 ≤ slot.limit := by
  induction slots generalizing i with
  | nil => exact ⟨rfl, by simp⟩
  | cons slot longer ih =>
    unfold sweep at found ⊢
    split at found
    next => cases found
    next found' longer' _ swept =>
      dsimp only at found ⊢
      split at found
      · split at found <;> cases found
      · rename_i fits
        rw [if_neg fits]
        have both := ih (i + 1) (by rw [swept]; exact found)
        rw [swept] at both
        refine ⟨congrArg (slot.prune R now :: ·) both.1, ?_⟩
        intro s in_
        rcases List.mem_cons.mp in_ with rfl | in_
        · exact not_lt.mp fits
        · exact both.2 s in_

theorem windows_of_glance {R : Register ℚ σ} {slots slots' : List (Slot σ)}
    (same : glance R t slots' = glance R t slots) :
    slots'.map Slot.window = slots.map Slot.window := by
  have := congrArg (List.map Slot.window) same
  simpa [glance, Function.comp_def] using this

/-! ## The shared budget: one Redis script -/

/-- A sorted set of call times under a key that expires. Every call has a member of its own. -/
structure Calls where
  times : List ℚ
  expires : ℚ

namespace Calls

/-- An expired key reads as an empty set. -/
def read (now : ℚ) (k : Calls) : List ℚ := if now < k.expires then k.times else []

/-- `zremrangebyscore key -inf now-w`. -/
def prune (w : Nat) (now : ℚ) (k : Calls) : Calls :=
  { k with times := (k.read now).filter fun x => decide (now - w < x) }

/-- `zadd key now member`, then `expire key w+1`. -/
def add (w : Nat) (now : ℚ) (k : Calls) : Calls := ⟨k.times ++ [now], now + (w + 1)⟩

theorem prune_prune {w : Nat} {t t' : ℚ} (k : Calls) (later : t ≤ t') : (k.prune w t).prune w t' = k.prune w t' := by
  unfold prune read
  by_cases live : t' < k.expires
  · simp only [live, later.trans_lt live, if_true, List.filter_filter, mk.injEq, and_true]
    apply List.filter_congr
    intro x _
    rw [← Bool.decide_and, decide_eq_decide]
    constructor
    · exact fun both => both.1
    · exact fun here => ⟨here, by linarith⟩
  · simp [live]

theorem times_add {w : Nat} {t t' : ℚ} (k : Calls) (upto : ∀ x ∈ (k.prune w t).times, x ≤ t) :
    (((k.prune w t).add w t).prune w t').times =
      ((k.prune w t).times ++ [t]).filter fun x => decide (t' - w < x) := by
  by_cases live : t' < t + (w + 1)
  · rw [add, prune, read, if_pos live]
  · have gone : ∀ x ∈ (k.prune w t).times ++ [t], ¬ decide (t' - w < x) = true := by
      intro x in_
      have : x ≤ t := by
        rcases List.mem_append.mp in_ with older | last
        · exact upto x older
        · exact (List.mem_singleton.mp last).le
      rw [decide_eq_true_iff]
      linarith
    rw [List.filter_eq_nil_iff.mpr gone, add, prune, read, if_neg live, List.filter_nil]

end Calls

def sortedSet : Register ℚ Calls where
  times := Calls.times
  prune := Calls.prune
  add := Calls.add
  prune_prune := Calls.prune_prune
  times_add k _ _ upto := Calls.times_add k upto

/-- The bucket's hash under a key that expires. -/
structure Tokens where
  tokens : ℚ
  ts : ℚ
  expires : ℚ

/-- `hmget key tokens ts`. -/
def readBucket (now : ℚ) (bucket : Option Tokens) : Option (ℚ × ℚ) :=
  match bucket with
  | some b => if now < b.expires then some (b.tokens, b.ts) else none
  | none => none

/-- The tokens after the refill: a bucket without a hash starts full. -/
def refill (cap rate now : ℚ) (bucket : Option (ℚ × ℚ)) : ℚ :=
  let (tokens, ts) := bucket.getD (cap, now)
  min cap (tokens + max 0 (now - ts) * rate)

theorem refill_eq (cap rate now : ℚ) (bucket : Option (ℚ × ℚ)) :
    refill cap rate now bucket = level cap rate bucket now := by
  cases bucket with
  | none => simp [refill, level]
  | some b => rfl

/-- `_TAKE_LUA`: 1 is a grant, -1 a bucket (or a window of a second) without room, -i a full window. -/
def takeLua (rate cap reserve now : ℚ) (bucket : Option Tokens) (slots : List (Slot Calls)) :
    Int × Option Tokens × List (Slot Calls) :=
  match sweep sortedSet (fun w => decide (w ≤ 1)) now 2 slots with
  | (.full i, slots) => (-i, bucket, slots)
  | (.soon, slots) => (-1, bucket, slots)
  | (.room, slots) =>
      let tokens := refill cap rate now (readBucket now bucket)
      if tokens < 1 + reserve then (-1, bucket, slots)
      else (1, some ⟨tokens - 1, now, now + (⌈cap / rate⌉ + 1)⟩, slots.map (·.add sortedSet now))

/-- The keys of the credential's own share. -/
structure RedisStore where
  bucket : Option Tokens
  slots : List (Slot Calls)

/-- A take: its moment by the Redis server's clock, its kind, and the published windows it joins with
what this and other processes have counted in them. -/
structure Ask where
  now : ℚ
  kind : Kind
  published : List (Slot Calls)

def Ask.call (e : Ask) : ℚ × Kind := (e.now, e.kind)

/-- `_redis_take`: the share's windows first, then the published ones, in one script. -/
def redisTake (limits : ApiLimits) (s : RedisStore) (e : Ask) : Int × RedisStore :=
  let (verdict, bucket, slots) :=
    takeLua limits.perSecond limits.capacity (limits.reserve e.kind) e.now s.bucket (s.slots ++ e.published)
  (verdict, ⟨bucket, slots.take s.slots.length⟩)

/-- No key yet. -/
def RedisStore.fresh (limits : ApiLimits) : RedisStore :=
  ⟨none, limits.windows.map fun (seconds, limit) => ⟨seconds, limit, ⟨[], 0⟩⟩⟩

/-! ## The budget of one process, without Redis -/

/-- The calls of a window in a deque: old ones leave at its head. -/
def popOld (w : Nat) (now : ℚ) (window : List ℚ) : List ℚ := window.dropWhile fun x => decide (now - x ≥ w)

/-- In an ordered deque the head is popped exactly while it has left the window. -/
theorem popOld_eq {w : Nat} {now : ℚ} {window : List ℚ} (sorted : window.Pairwise (· ≤ ·)) :
    popOld w now window = window.filter fun x => decide (now - w < x) := by
  induction window with
  | nil => rfl
  | cons x rest ih =>
    obtain ⟨first, rest_⟩ := List.pairwise_cons.mp sorted
    by_cases old : now - x ≥ w
    · have gone : ¬ now - w < x := by linarith
      rw [List.filter_cons_of_neg (by simpa using gone), ← ih rest_]
      exact List.dropWhile_cons_of_pos (decide_eq_true old)
    · have stays : ∀ y ∈ x :: rest, decide (now - w < y) = true := by
        intro y in_
        have : x ≤ y := by
          rcases List.mem_cons.mp in_ with rfl | later
          · exact le_refl _
          · exact first y later
        exact decide_eq_true (by linarith)
      rw [List.filter_eq_self.mpr stays]
      exact List.dropWhile_cons_of_neg (by simpa using old)

theorem popOld_popOld {w : Nat} {t t' : ℚ} (window : List ℚ) (later : t ≤ t') :
    popOld w t' (popOld w t window) = popOld w t' window := by
  induction window with
  | nil => rfl
  | cons x rest ih =>
    by_cases old : t - x ≥ w
    · have older : t' - x ≥ w := by linarith
      have here : popOld w t (x :: rest) = popOld w t rest := List.dropWhile_cons_of_pos (decide_eq_true old)
      have there : popOld w t' (x :: rest) = popOld w t' rest := List.dropWhile_cons_of_pos (decide_eq_true older)
      rw [here, there]
      exact ih
    · have here : popOld w t (x :: rest) = x :: rest := List.dropWhile_cons_of_neg (by simpa using old)
      rw [here]

def deque : Register ℚ (List ℚ) where
  times window := window
  prune := popOld
  add _ now window := window ++ [now]
  prune_prune := popOld_popOld
  times_add k _ sorted upto := by
    apply popOld_eq
    rw [List.pairwise_append]
    refine ⟨sorted, List.pairwise_singleton .., ?_⟩
    intro x in_ y last
    exact List.mem_singleton.mp last ▸ upto x in_

/-- The number of API processes: at least 1, and 1 for a setting that is no number. -/
def apiProcesses (workers : Option Int) : Nat := (max 1 (workers.getD 1)).toNat

/-- The part of a window that one of `n` processes counts: the limit divided by the processes or,
where that is under one call, one call in as many times more seconds. -/
def localWindow (n : Nat) (window : Nat × Nat) : Nat × Nat :=
  if n ≤ window.2 then (window.1, window.2 / n) else (window.1 * (-(-(n : Int) / (window.2 : Int))).toNat, 1)

/-- The rate and the capacity of a process's part of the bucket. -/
def localBucket (n : Nat) (limits : ApiLimits) : ℚ × ℚ :=
  (limits.perSecond / n, max 1 ((limits.capacity / n : Nat) : ℚ))

structure LocalStore where
  bucket : Option (ℚ × ℚ)
  slots : List (Slot (List ℚ))

/-- The tokens that a call leaves in the process's bucket. -/
def localReserve (n : Nat) (limits : ApiLimits) (kind : Kind) : ℚ :=
  min (limits.reserve kind : ℚ) ((localBucket n limits).2 - 1)

/-- `_local_take`, in one of `n` processes. -/
def localTake (n : Nat) (limits : ApiLimits) (s : LocalStore) (call : ℚ × Kind) : Int × LocalStore :=
  match sweep deque (fun _ => false) call.1 2 s.slots with
  | (.full i, slots) => (-i, { s with slots := slots })
  | (_, slots) =>
      let (rate, capacity) := localBucket n limits
      let tokens := refill capacity rate call.1 s.bucket
      if tokens < 1 + localReserve n limits call.2 then (-1, { s with slots := slots })
      else (1, ⟨some (tokens - 1, call.1), slots.map (·.add deque call.1)⟩)

/-- A process that has counted nothing. -/
def LocalStore.fresh (n : Nat) (limits : ApiLimits) : LocalStore :=
  ⟨none, (limits.windows.map (localWindow n)).map fun (seconds, limit) => ⟨seconds, limit, []⟩⟩

end ApiBudget

end AdvanceTrading

/-!
# What the data budget grants

The script and the take of one process show, in what they keep, the log of the
calls they granted and grant only where the log leaves room, so the bounds of
the abstract allowance hold of them. Processes that count apart add up.
-/

namespace AdvanceTrading

namespace ApiBudget

open Allowance

/-- The room of a share: every sliding window, and the bucket. -/
def Room (windows : List (Nat × Nat)) (cap rate : ℚ) (reserve : Kind → ℚ) (log : List (ℚ × Kind))
    (call : ℚ × Kind) : Prop :=
  (∀ p ∈ windows, WindowRoom (p.1 : ℚ) p.2 log call) ∧ BucketRoom cap rate reserve log call

/-- The calls in an interval. -/
def callsIn (I : ℚ → Bool) (calls : List (ℚ × Kind)) : Nat := calls.countP fun c => I c.1

/-- The quotes in an interval. -/
def quotesIn (I : ℚ → Bool) (calls : List (ℚ × Kind)) : Nat :=
  calls.countP fun c => I c.1 && decide (c.2 = .quote)

/-- No half-open interval of `w` seconds holds more than `limit` calls. -/
def WindowKept (w limit : Nat) (calls : List (ℚ × Kind)) : Prop :=
  ∀ a : ℚ, callsIn (fun x => decide (a ≤ x ∧ x < a + w)) calls ≤ limit ∧
    callsIn (fun x => decide (a < x ∧ x ≤ a + w)) calls ≤ limit

/-- A share is kept: its windows, `cap + rate * T` calls in any `T` seconds, and `slow + rate * T`
quotes. -/
structure ShareKept (windows : List (Nat × Nat)) (cap rate slow : ℚ) (calls : List (ℚ × Kind)) : Prop where
  inWindow : ∀ p ∈ windows, WindowKept p.1 p.2 calls
  all : ∀ a T : ℚ, 0 ≤ T → (callsIn (fun x => decide (a ≤ x ∧ x ≤ a + T)) calls : ℚ) ≤ cap + rate * T
  quotes : ∀ a T : ℚ, 0 ≤ T → (quotesIn (fun x => decide (a ≤ x ∧ x ≤ a + T)) calls : ℚ) ≤ slow + rate * T

variable {windows : List (Nat × Nat)} {cap rate slow : ℚ} {reserve : Kind → ℚ} {log : List (ℚ × Kind)}

/-- What is paced by the room of a share keeps the share. -/
theorem ShareKept.of_paced (steady : 0 ≤ rate) (some_ : 0 ≤ cap) (none_ : ∀ kind, 0 ≤ reserve kind)
    (left_ : cap - reserve .quote = slow) (slow_ : 0 ≤ slow)
    (paced : Paced (Room windows cap rate reserve) log) : ShareKept windows cap rate slow log := by
  have bucket := paced.imp (BucketRoom cap rate reserve) fun _ _ fits => fits.2
  constructor
  · intro p in_ a
    have window := paced.imp (WindowRoom (p.1 : ℚ) p.2) fun _ _ fits => fits.1 p in_
    constructor
    · refine window.window (fun x => decide (a ≤ x ∧ x < a + p.1)) ?_
      intro x y hx hy
      have hx := of_decide_eq_true hx
      have hy := of_decide_eq_true hy
      linarith
    · refine window.window (fun x => decide (a < x ∧ x ≤ a + p.1)) ?_
      intro x y hx hy
      have hx := of_decide_eq_true hx
      have hy := of_decide_eq_true hy
      linarith
  · intro a T length
    have all := bucket.bucket (r := 0) (a := a) steady some_ length
    have every : (fun c : ℚ × Kind => decide (a ≤ c.1 ∧ c.1 ≤ a + T) && decide (0 ≤ reserve c.2)) =
        fun c => decide (a ≤ c.1 ∧ c.1 ≤ a + T) := by
      funext c
      simp [none_ c.2]
    rw [every, sub_zero] at all
    exact all
  · intro a T length
    have most := bucket.bucket (r := reserve .quote) (a := a) steady (by linarith) length
    have fewer : (quotesIn (fun x => decide (a ≤ x ∧ x ≤ a + T)) log : ℚ) ≤
        (log.countP fun c => decide (a ≤ c.1 ∧ c.1 ≤ a + T) && decide (reserve .quote ≤ reserve c.2) : ℚ) := by
      apply Nat.cast_le.mpr
      apply List.countP_mono_left
      intro c _ both
      obtain ⟨here, quote⟩ := (Bool.and_eq_true _ _).mp both
      rw [Bool.and_eq_true, of_decide_eq_true quote]
      exact ⟨here, decide_eq_true (le_refl _)⟩
    rw [left_] at most
    exact fewer.trans most

/-! ## The windows of a store -/

section Windows

variable {σ : Type} {R : Register ℚ σ} {slots slots' : List (Slot σ)} {t now : ℚ}

/-- Every window of the store shows the log. -/
def WindowsShow (R : Register ℚ σ) (slots : List (Slot σ)) (log : List (ℚ × Kind)) (t : ℚ) : Prop :=
  ∀ slot ∈ slots, R.Shows slot.seconds slot.calls log t

/-- It shows through what later takes see of it. -/
theorem WindowsShow.of_glance (shows_ : WindowsShow R slots log t)
    (same : ∀ t', t ≤ t' → glance R t' slots' = glance R t' slots) : WindowsShow R slots' log t := by
  intro slot' in_ t' later
  have seen : slot'.prune R t' ∈ glance R t' slots := same t' later ▸ List.mem_map_of_mem in_
  obtain ⟨slot, in_, pruned⟩ := List.mem_map.mp seen
  have shown := shows_ slot in_ t' later
  have calls : (slot.prune R t').calls = (slot'.prune R t').calls := congrArg Slot.calls pruned
  have seconds : (slot.prune R t').seconds = (slot'.prune R t').seconds := congrArg Slot.seconds pruned
  rw [show R.prune slot.seconds t' slot.calls = R.prune slot'.seconds t' slot'.calls from calls,
    show slot.seconds = slot'.seconds from seconds] at shown
  exact shown

/-- Pruned and counted, the windows show the log with the call. -/
theorem WindowsShow.count (call : ℚ × Kind) (shows_ : WindowsShow R slots log call.1)
    (sorted : (log.map Prod.fst).Pairwise (· ≤ ·)) (upto : ∀ c ∈ log, c.1 ≤ call.1) :
    WindowsShow R ((glance R call.1 slots).map (·.add R call.1)) (log ++ [call]) call.1 := by
  intro slot' in_
  obtain ⟨pruned, seen, rfl⟩ := List.mem_map.mp in_
  obtain ⟨slot, held, rfl⟩ := List.mem_map.mp seen
  exact (shows_ slot held).add sorted upto

/-- A sweep that finds room finds it in every window of the log. -/
theorem WindowsShow.room (call : ℚ × Kind) (shows_ : WindowsShow R slots log call.1)
    (fits : ∀ slot ∈ slots, (R.times (R.prune slot.seconds call.1 slot.calls)).length + 1 ≤ slot.limit) :
    ∀ p ∈ slots.map Slot.window, WindowRoom (p.1 : ℚ) p.2 log call := by
  intro p in_
  obtain ⟨slot, held, rfl⟩ := List.mem_map.mp in_
  exact (shows_ slot held).fits (fits slot held)

end Windows

/-! ## The script -/

section Script

variable {limits : ApiLimits} {now : ℚ} {bucket : Option Tokens} {slots : List (Slot Calls)}

/-- A refused script leaves what every later take sees. -/
theorem takeLua_refused {rate cap reserve t : ℚ} (later : now ≤ t)
    (refused : (takeLua rate cap reserve now bucket slots).1 ≠ 1) :
    (takeLua rate cap reserve now bucket slots).2.1 = bucket ∧
      glance sortedSet t (takeLua rate cap reserve now bucket slots).2.2 = glance sortedSet t slots := by
  have seen := glance_sweep sortedSet (fun w => decide (w ≤ 1)) later 2 slots
  unfold takeLua at refused ⊢
  split
  next swept =>
    rw [swept] at seen
    exact ⟨rfl, seen⟩
  next swept =>
    rw [swept] at seen
    exact ⟨rfl, seen⟩
  next swept =>
    rw [swept] at seen refused
    dsimp only at refused ⊢
    split
    · exact ⟨rfl, seen⟩
    · rename_i enough
      exact absurd (by rw [if_neg enough]) refused

/-- A granted script had room in every window and in the bucket, and counted the call. -/
theorem takeLua_granted {rate cap reserve : ℚ} (grant : (takeLua rate cap reserve now bucket slots).1 = 1) :
    1 + reserve ≤ refill cap rate now (readBucket now bucket) ∧
    (∀ slot ∈ slots, (sortedSet.times (sortedSet.prune slot.seconds now slot.calls)).length + 1 ≤ slot.limit) ∧
    (takeLua rate cap reserve now bucket slots).2 =
      (some ⟨refill cap rate now (readBucket now bucket) - 1, now, now + (⌈cap / rate⌉ + 1)⟩,
        (glance sortedSet now slots).map (·.add sortedSet now)) := by
  have found := sweep_room sortedSet (fun w => decide (w ≤ 1)) now 2 slots
  unfold takeLua at grant ⊢
  split at grant
  next i _ _ => exact absurd grant (by omega)
  next => cases grant
  next slots' swept =>
    rw [swept] at found
    obtain ⟨seen, fits⟩ := found rfl
    dsimp only at grant seen ⊢
    split at grant
    · cases grant
    · rename_i enough
      rw [if_neg enough, ← seen]
      exact ⟨not_lt.mp enough, fits, rfl⟩

/-- The hash reads, until it expires and after, as the bucket after its last call. -/
theorem readBucket_level {cap rate tokens t : ℚ} (steady : 0 < rate) (some_ : 0 ≤ tokens) (later : now ≤ t) :
    level cap rate (readBucket t (some ⟨tokens, now, now + (⌈cap / rate⌉ + 1)⟩)) t =
      level cap rate (some (tokens, now)) t := by
  unfold readBucket
  dsimp only
  split
  · rfl
  · rename_i gone
    -- the key outlives the refill of an empty bucket
    have long : cap / rate ≤ t - now := by
      have := Int.le_ceil (cap / rate)
      linarith [not_lt.mp gone]
    have full : cap ≤ (t - now) * rate := (div_le_iff₀ steady).mp long
    unfold level
    dsimp only
    rw [max_eq_right (sub_nonneg.mpr later), min_eq_left (by linarith)]

/-- The store of the share shows the log of the calls granted. -/
structure RedisShows (limits : ApiLimits) (s : RedisStore) (log : List (ℚ × Kind)) (t : ℚ) : Prop where
  windows : s.slots.map Slot.window = limits.windows
  calls : WindowsShow sortedSet s.slots log t
  tokens : ∀ t', t ≤ t' → level (limits.capacity : ℚ) limits.perSecond (readBucket t' s.bucket) t' =
    level (limits.capacity : ℚ) limits.perSecond (spend (limits.capacity : ℚ) limits.perSecond log) t'

variable {s : RedisStore} {e : Ask} {log : List (ℚ × Kind)}

theorem glance_take {σ : Type} {R : Register ℚ σ} (t : ℚ) (slots : List (Slot σ)) (n : Nat) :
    glance R t (slots.take n) = (glance R t slots).take n := List.map_take

/-- The script that a take runs. -/
abbrev scriptOf (limits : ApiLimits) (s : RedisStore) (e : Ask) : Int × Option Tokens × List (Slot Calls) :=
  takeLua limits.perSecond limits.capacity (limits.reserve e.kind) e.now s.bucket (s.slots ++ e.published)

theorem redisTake_eq : redisTake limits s e =
    ((scriptOf limits s e).1, ⟨(scriptOf limits s e).2.1, (scriptOf limits s e).2.2.take s.slots.length⟩) := rfl

theorem RedisShows.refused (shows_ : RedisShows limits s log e.now) (refused : (redisTake limits s e).1 ≠ 1) :
    RedisShows limits (redisTake limits s e).2 log e.now := by
  have left_ := fun t (later : e.now ≤ t) => takeLua_refused later refused
  have own : ∀ t, e.now ≤ t → glance sortedSet t (redisTake limits s e).2.slots = glance sortedSet t s.slots := by
    intro t later
    rw [redisTake_eq, glance_take, (left_ t later).2, ← glance_take, List.take_left]
  refine ⟨?_, shows_.calls.of_glance own, ?_⟩
  · rw [← shows_.windows]
    exact windows_of_glance (own e.now (le_refl _))
  · intro t later
    rw [redisTake_eq, (left_ t later).1]
    exact shows_.tokens t later

theorem RedisShows.granted (shows_ : RedisShows limits s log e.now)
    (sorted : (log.map Prod.fst).Pairwise (· ≤ ·)) (upto : ∀ c ∈ log, c.1 ≤ e.now)
    (grant : (redisTake limits s e).1 = 1) :
    Room limits.windows limits.capacity limits.perSecond (fun kind => limits.reserve kind) log e.call ∧
      RedisShows limits (redisTake limits s e).2 (log ++ [e.call]) e.now := by
  obtain ⟨enough, fits, after_⟩ := takeLua_granted grant
  have own : (redisTake limits s e).2.slots = (glance sortedSet e.now s.slots).map (·.add sortedSet e.now) := by
    rw [redisTake_eq, after_]
    simp [glance]
  have here := shows_.tokens e.now (le_refl _)
  rw [refill_eq, here] at enough
  refine ⟨⟨?_, enough⟩, ?_, ?_, ?_⟩
  · rw [← shows_.windows]
    exact shows_.calls.room e.call fun slot in_ => fits slot (List.mem_append_left _ in_)
  · rw [own, ← shows_.windows]
    simp [glance]
  · rw [own]
    exact shows_.calls.count e.call sorted upto
  · intro t later
    have none_ : (0 : ℚ) ≤ limits.reserve e.kind := Nat.cast_nonneg _
    rw [redisTake_eq, after_, refill_eq, here, spend_snoc]
    exact readBucket_level (Nat.cast_pos.mpr limits.second_pos) (by linarith) later

theorem RedisShows.fresh (limits : ApiLimits) (t : ℚ) : RedisShows limits (.fresh limits) [] t := by
  refine ⟨?_, ?_, fun _ _ => rfl⟩
  · simp [RedisStore.fresh, Slot.window, Function.comp_def]
  · intro slot in_ t' _
    obtain ⟨p, _, rfl⟩ := List.mem_map.mp in_
    simp [sortedSet, Calls.prune, Calls.read]

/-- The script grants a paced log. -/
theorem paced_redis (limits : ApiLimits) {es : List Ask} (ordered : es.Pairwise fun e e' => e.now ≤ e'.now) :
    Paced (Room limits.windows limits.capacity limits.perSecond fun kind => (limits.reserve kind : ℚ))
      (granted (redisTake limits) Ask.call (.fresh limits) es) := by
  refine paced_from_start (RedisShows limits) ?_ ?_ ?_ ordered (.fresh limits)
  · intro s log t t' shows_ later
    exact ⟨shows_.windows, fun slot in_ => (shows_.calls slot in_).later later,
      fun u from_ => shows_.tokens u (later.trans from_)⟩
  · intro s log e shows_ refused
    exact shows_.refused refused
  · intro s log e shows_ sorted upto grant
    exact shows_.granted sorted upto grant

end Script

/-! ## One process -/

section Local

variable {n : Nat} {limits : ApiLimits} {s : LocalStore} {call : ℚ × Kind} {log : List (ℚ × Kind)} {t : ℚ}

/-- A refused take leaves the process's bucket, and what every later take sees of its windows. -/
theorem localTake_refused (later : call.1 ≤ t) (refused : (localTake n limits s call).1 ≠ 1) :
    (localTake n limits s call).2.bucket = s.bucket ∧
      glance deque t (localTake n limits s call).2.slots = glance deque t s.slots := by
  have seen := glance_sweep deque (fun _ => false) later 2 s.slots
  unfold localTake at refused ⊢
  split at refused
  next swept =>
    rw [swept] at seen
    exact ⟨rfl, seen⟩
  next swept =>
    rw [swept] at seen
    dsimp only at refused ⊢
    split at refused
    · rename_i short
      rw [if_pos short]
      exact ⟨rfl, seen⟩
    · exact absurd rfl refused

/-- A loop that waits for no window ends with room or with a full window. -/
theorem sweep_not_soon {σ : Type} (R : Register ℚ σ) (now : ℚ) (i : Nat) (slots : List (Slot σ)) :
    (sweep R (fun _ => false) now i slots).1 ≠ .soon := by
  induction slots generalizing i with
  | nil => exact Swept.noConfusion
  | cons slot longer ih =>
    have rest := ih (i + 1)
    unfold sweep
    split
    next => exact Swept.noConfusion
    next swept =>
      rw [swept] at rest
      dsimp only
      split
      · exact Swept.noConfusion
      · exact rest

theorem localTake_granted (grant : (localTake n limits s call).1 = 1) :
    1 + localReserve n limits call.2 ≤ refill (localBucket n limits).2 (localBucket n limits).1 call.1 s.bucket ∧
    (∀ slot ∈ s.slots, (deque.times (deque.prune slot.seconds call.1 slot.calls)).length + 1 ≤ slot.limit) ∧
    (localTake n limits s call).2 =
      ⟨some (refill (localBucket n limits).2 (localBucket n limits).1 call.1 s.bucket - 1, call.1),
        (glance deque call.1 s.slots).map (·.add deque call.1)⟩ := by
  have found := sweep_room deque (fun _ => false) call.1 2 s.slots
  have waits := sweep_not_soon deque call.1 2 s.slots
  unfold localTake at grant ⊢
  split at grant
  next i _ _ => exact absurd grant (by omega)
  next ended slots' other swept =>
    rw [swept] at found waits
    have room : ended = .room := by
      cases ended with
      | room => rfl
      | soon => exact absurd rfl waits
      | full i => exact absurd rfl (other i)
    obtain ⟨seen, fits⟩ := found room
    dsimp only at grant seen ⊢
    split at grant
    · cases grant
    · rename_i enough
      rw [if_neg enough, ← seen]
      exact ⟨not_lt.mp enough, fits, rfl⟩

/-- The store of a process shows the log of the calls it granted. -/
structure LocalShows (n : Nat) (limits : ApiLimits) (s : LocalStore) (log : List (ℚ × Kind)) (t : ℚ) : Prop where
  windows : s.slots.map Slot.window = limits.windows.map (localWindow n)
  calls : WindowsShow deque s.slots log t
  tokens : s.bucket = spend (localBucket n limits).2 (localBucket n limits).1 log

theorem LocalShows.refused (shows_ : LocalShows n limits s log call.1) (refused : (localTake n limits s call).1 ≠ 1) :
    LocalShows n limits (localTake n limits s call).2 log call.1 := by
  have left_ := fun t (later : call.1 ≤ t) => localTake_refused later refused
  have own := fun t later => (left_ t later).2
  refine ⟨?_, shows_.calls.of_glance own, ?_⟩
  · rw [← shows_.windows]
    exact windows_of_glance (own call.1 (le_refl _))
  · rw [(left_ call.1 (le_refl _)).1]
    exact shows_.tokens

theorem LocalShows.granted (shows_ : LocalShows n limits s log call.1)
    (sorted : (log.map Prod.fst).Pairwise (· ≤ ·)) (upto : ∀ c ∈ log, c.1 ≤ call.1)
    (grant : (localTake n limits s call).1 = 1) :
    Room (limits.windows.map (localWindow n)) (localBucket n limits).2 (localBucket n limits).1
        (localReserve n limits) log call ∧
      LocalShows n limits (localTake n limits s call).2 (log ++ [call]) call.1 := by
  obtain ⟨enough, fits, after_⟩ := localTake_granted grant
  rw [refill_eq, shows_.tokens] at enough
  refine ⟨⟨?_, enough⟩, ?_, ?_, ?_⟩
  · rw [← shows_.windows]
    exact shows_.calls.room call fits
  · rw [after_, ← shows_.windows]
    simp [glance]
  · rw [after_]
    exact shows_.calls.count call sorted upto
  · rw [after_, refill_eq, shows_.tokens, spend_snoc]

theorem LocalShows.fresh (n : Nat) (limits : ApiLimits) (t : ℚ) : LocalShows n limits (.fresh n limits) [] t := by
  refine ⟨?_, ?_, rfl⟩
  · simp [LocalStore.fresh, Slot.window, Function.comp_def]
  · intro slot in_ t' _
    obtain ⟨p, _, rfl⟩ := List.mem_map.mp in_
    rfl

/-- A process grants a paced log. -/
theorem paced_local (n : Nat) (limits : ApiLimits) {es : List (ℚ × Kind)}
    (ordered : es.Pairwise fun e e' => e.1 ≤ e'.1) :
    Paced (Room (limits.windows.map (localWindow n)) (localBucket n limits).2 (localBucket n limits).1
      (localReserve n limits)) (granted (localTake n limits) id (.fresh n limits) es) := by
  refine paced_from_start (LocalShows n limits) ?_ ?_ ?_ ordered (.fresh n limits)
  · intro s log t t' shows_ later
    exact ⟨shows_.windows, fun slot in_ => (shows_.calls slot in_).later later, shows_.tokens⟩
  · intro s log call shows_ refused
    exact shows_.refused refused
  · intro s log call shows_ sorted upto grant
    exact shows_.granted sorted upto grant

end Local

/-! ## The processes together -/

section Together

variable {limits : ApiLimits}

/-- What `n` processes together may count in the window that one of them uses. -/
def jointLimit (n : Nat) (window : Nat × Nat) : Nat := if n ≤ window.2 then window.2 else n

theorem parts_le {n : Nat} (window : Nat × Nat) : n * (localWindow n window).2 ≤ jointLimit n window := by
  unfold localWindow jointLimit
  split
  · exact Nat.mul_div_le ..
  · simp

/-- That is no more than the shared limit allows in the longer window. -/
theorem jointLimit_rate {n : Nat} (window : Nat × Nat) (pos : 0 < window.2) :
    jointLimit n window * window.1 ≤ window.2 * (localWindow n window).1 := by
  unfold localWindow jointLimit
  split
  · exact le_refl _
  · -- the window is longer by a factor that the limit times covers the processes
    have enough : n ≤ window.2 * (-(-(n : Int) / (window.2 : Int))).toNat := by
      have floor : (window.2 : Int) * (-(n : Int) / window.2) ≤ -n := Int.mul_ediv_self_le (by omega)
      have factor := mul_le_mul_of_nonneg_left (Int.self_le_toNat (-(-(n : Int) / window.2)))
        (Int.natCast_nonneg window.2)
      zify
      linarith
    calc n * window.1 ≤ window.2 * (-(-(n : Int) / (window.2 : Int))).toNat * window.1 := Nat.mul_le_mul_right _ enough
      _ = window.2 * (window.1 * (-(-(n : Int) / (window.2 : Int))).toNat) := by ring

/-- Processes that count apart keep, in the window they use, to what they may count together. -/
theorem together_kept (n : Nat) {es : List (Fin n × (ℚ × Kind))} (ordered : es.Pairwise fun e e' => e.2.1 ≤ e'.2.1)
    {window : Nat × Nat} (in_ : window ∈ limits.windows) :
    WindowKept (localWindow n window).1 (jointLimit n window)
      ((together (localTake n limits) id (fun _ => .fresh n limits) es).map Prod.snd) := by
  -- every process keeps its own part, in any set of times that the window covers
  have each : ∀ (I : ℚ → Bool), (∀ x y, I x = true → I y = true → y - x < (localWindow n window).1) →
      callsIn I ((together (localTake n limits) id (fun _ => .fresh n limits) es).map Prod.snd) ≤
        jointLimit n window := by
    intro I narrow
    have own : ∀ p ∈ Finset.univ, (part p (together (localTake n limits) id (fun _ => .fresh n limits) es)).countP
        (fun c => I c.1) ≤ (localWindow n window).2 := by
      intro p _
      have alone : (part p es).Pairwise fun e e' => e.1 ≤ e'.1 :=
        List.pairwise_map.mpr (ordered.sublist List.filter_sublist)
      rw [part_together]
      refine ((paced_local n limits alone).imp (WindowRoom ((localWindow n window).1 : ℚ)
        (localWindow n window).2) ?_).window I narrow
      exact fun _ _ fits => fits.1 _ (List.mem_map_of_mem in_)
    have sum := Finset.sum_le_card_nsmul _ _ _ own
    rw [Finset.card_univ, Fintype.card_fin, smul_eq_mul] at sum
    unfold callsIn
    rw [List.countP_map]
    exact (countP_parts (fun c : ℚ × Kind => I c.1) _).trans_le (sum.trans (parts_le window))
  intro a
  constructor
  · apply each
    intro x y hx hy
    have hx := of_decide_eq_true hx
    have hy := of_decide_eq_true hy
    linarith
  · apply each
    intro x y hx hy
    have hx := of_decide_eq_true hx
    have hy := of_decide_eq_true hy
    linarith

end Together

/-! ## The share -/

section Share

variable (limits : ApiLimits)

theorem reserve_left : (limits.capacity : ℚ) - limits.reserve .quote = limits.perSecond := by
  have := limits.perSecond_le
  unfold ApiLimits.reserve
  push_cast [this]
  ring

theorem localWindow_one {window : Nat × Nat} (pos : 0 < window.2) : localWindow 1 window = window := by
  rw [localWindow, if_pos (Nat.succ_le_of_lt pos), Nat.div_one]

theorem localBucket_one : localBucket 1 limits = ((limits.perSecond : ℚ), (limits.capacity : ℚ)) := by
  have : (1 : ℚ) ≤ limits.capacity := by
    exact_mod_cast Nat.le_max_right ..
  simp [localBucket, this]

/-- A single process keeps the whole share. -/
theorem local_shareKept {es : List (ℚ × Kind)} (ordered : es.Pairwise fun e e' => e.1 ≤ e'.1) :
    ShareKept limits.windows limits.capacity limits.perSecond limits.perSecond
      (granted (localTake 1 limits) id (.fresh 1 limits) es) := by
  have one : (1 : ℚ) ≤ limits.capacity := by
    exact_mod_cast Nat.le_max_right ..
  have second : (1 : ℚ) ≤ limits.perSecond := by
    exact_mod_cast limits.second_pos
  have paced := paced_local 1 limits ordered
  have whole : limits.windows.map (localWindow 1) = limits.windows := by
    rw [List.map_congr_left fun p in_ => localWindow_one (limits.windows_pos in_), List.map_id']
  have quote : localReserve 1 limits .quote = limits.reserve .quote := by
    have := reserve_left limits
    rw [localReserve, localBucket_one]
    exact min_eq_left (by linarith)
  rw [whole, localBucket_one] at paced
  refine .of_paced (by linarith) (by linarith) ?_ ?_ (by linarith) paced
  · intro kind
    rw [localReserve, localBucket_one]
    exact le_min (Nat.cast_nonneg _) (by linarith)
  · rw [quote, reserve_left]

/-- In exact arithmetic, at clock times that do not decrease: the script, and a process alone, keep
every sliding window, `capacity + per_second * T` calls and `per_second + per_second * T` quotes
in any `T` seconds; a refused take leaves the bucket and what any later take sees of the
windows; and processes that count apart together keep, in the window each uses, to the shared
limit or, where there are more processes than that, to one call each, which is no more than
the shared limit for so long a window. -/
theorem dataBudget_share (workers : Option Int) :
    (∀ es : List Ask, (es.Pairwise fun e e' => e.now ≤ e'.now) →
      ShareKept limits.windows limits.capacity limits.perSecond limits.perSecond
        (granted (redisTake limits) Ask.call (.fresh limits) es)) ∧
    (∀ es : List (ℚ × Kind), (es.Pairwise fun e e' => e.1 ≤ e'.1) →
      ShareKept limits.windows limits.capacity limits.perSecond limits.perSecond
        (granted (localTake 1 limits) id (.fresh 1 limits) es)) ∧
    (∀ s e, (redisTake limits s e).1 ≠ 1 → (redisTake limits s e).2.bucket = s.bucket ∧
      ∀ t, e.now ≤ t →
        glance sortedSet t (scriptOf limits s e).2.2 = glance sortedSet t (s.slots ++ e.published)) ∧
    (∀ n s call, (localTake n limits s call).1 ≠ 1 → (localTake n limits s call).2.bucket = s.bucket ∧
      ∀ t, call.1 ≤ t → glance deque t (localTake n limits s call).2.slots = glance deque t s.slots) ∧
    (∀ es : List (Fin (apiProcesses workers) × (ℚ × Kind)), (es.Pairwise fun e e' => e.2.1 ≤ e'.2.1) →
      ∀ window ∈ limits.windows,
        WindowKept (localWindow (apiProcesses workers) window).1 (jointLimit (apiProcesses workers) window)
          ((together (localTake (apiProcesses workers) limits) id (fun _ => .fresh (apiProcesses workers) limits)
            es).map Prod.snd) ∧
        jointLimit (apiProcesses workers) window * window.1 ≤
          window.2 * (localWindow (apiProcesses workers) window).1) := by
  refine ⟨?_, ?_, ?_, ?_, ?_⟩
  · intro es ordered
    refine .of_paced (Nat.cast_nonneg _) (Nat.cast_nonneg _) (fun _ => Nat.cast_nonneg _) (reserve_left limits)
      (Nat.cast_nonneg _) (paced_redis limits ordered)
  · intro es ordered
    exact local_shareKept limits ordered
  · intro s e refused
    exact ⟨(takeLua_refused (le_refl _) refused).1, fun t later => (takeLua_refused later refused).2⟩
  · intro n s call refused
    exact ⟨(localTake_refused (le_refl _) refused).1, fun t later => (localTake_refused later refused).2⟩
  · intro es ordered window in_
    exact ⟨together_kept _ ordered in_, jointLimit_rate window (limits.windows_pos in_)⟩

end Share

/-- Two calls a minute, for three processes. -/
def twoAMinute : ApiLimits where
  perSecond := 1
  perMinute := 2
  per30min := none
  burst := none
  second_pos := by decide
  minute_pos := by decide
  half_pos := by simp

/-- Three processes count one call each in 120 seconds, where the limit they share is 2. -/
theorem threeProcesses_over_limit :
    ¬ ∀ (limits : ApiLimits) (n : Nat) (es : List (Fin n × (ℚ × Kind))), (es.Pairwise fun e e' => e.2.1 ≤ e'.2.1) →
      ∀ window ∈ limits.windows, WindowKept (localWindow n window).1 window.2
        ((together (localTake n limits) id (fun _ => .fresh n limits) es).map Prod.snd) := by
  intro kept
  have three := (kept twoAMinute 3 [(0, 0, .quote), (1, 0, .quote), (2, 0, .quote)] (by decide +kernel) (60, 2)
    (by decide) 0).1
  exact absurd three (by decide +kernel)

end ApiBudget

end AdvanceTrading
