import Mathlib.Algebra.Order.Field.Basic
import Mathlib.Algebra.BigOperators.Fin
import Mathlib.Data.List.Sort
import Mathlib.Tactic.Linarith
import Mathlib.Tactic.Ring

/-!
# Allowances

A log of calls, each counted only when the calls before it leave room. Two
kinds of room: a sliding window (`limit` calls in any `w` seconds) and a token
bucket that refills at a rate, of which a kind of call must leave a reserve.
The abstract allowance keeps nothing but the log, so a refused call is not in
it at all. A register is what an implementation keeps of a window instead.
-/

namespace AdvanceTrading

namespace Allowance

variable {K κ : Type*} [LinearOrder K]

/-- A log in the order of its times, in which every call had room after those before it. -/
inductive Paced (room : List (K × κ) → K × κ → Prop) : List (K × κ) → Prop
  | nil : Paced room []
  | count {log : List (K × κ)} {call : K × κ} (paced : Paced room log)
      (latest : ∀ c ∈ log, c.1 ≤ call.1) (fits : room log call) : Paced room (log ++ [call])

variable {room : List (K × κ) → K × κ → Prop} {log : List (K × κ)} {call : K × κ}

theorem Paced.imp (paced : Paced room log) (rule : List (K × κ) → K × κ → Prop)
    (weaker : ∀ log call, room log call → rule log call) : Paced rule log := by
  induction paced with
  | nil => exact .nil
  | count _ latest fits ih => exact .count ih latest (weaker _ _ fits)

theorem Paced.sorted (paced : Paced room log) : (log.map Prod.fst).Pairwise (· ≤ ·) := by
  induction paced with
  | nil => exact .nil
  | count _ latest _ ih =>
    rw [List.map_append, List.pairwise_append]
    refine ⟨ih, List.pairwise_singleton .., ?_⟩
    intro t before t' last
    obtain ⟨c, in_, rfl⟩ := List.mem_map.mp before
    rw [List.map_singleton, List.mem_singleton] at last
    exact last ▸ latest c in_

/-! ## Runs of takes -/

section Runs

variable {σ ε : Type*} (take : σ → ε → Int × σ) (asked : ε → K × κ)

/-- The calls that takes grant, in order; a verdict of 1 is a grant. -/
def granted : σ → List ε → List (K × κ)
  | _, [] => []
  | s, e :: es =>
      if (take s e).1 = 1 then asked e :: granted (take s e).2 es else granted (take s e).2 es

variable {take asked}

section Paced

variable (Shows : σ → List (K × κ) → K → Prop) (later : ∀ s log t t', Shows s log t → t ≤ t' → Shows s log t')
  (refused : ∀ s log e, Shows s log (asked e).1 → (take s e).1 ≠ 1 → Shows (take s e).2 log (asked e).1)
  (counted : ∀ s log e, Shows s log (asked e).1 → (log.map Prod.fst).Pairwise (· ≤ ·) →
    (∀ c ∈ log, c.1 ≤ (asked e).1) → (take s e).1 = 1 →
    room log (asked e) ∧ Shows (take s e).2 (log ++ [asked e]) (asked e).1)
include later refused counted

/-- Takes whose state shows the log of the calls granted, and that grant only where it leaves room,
grant a paced log. -/
theorem paced_granted {s : σ} {es : List ε}
    (ordered : es.Pairwise fun e e' => (asked e).1 ≤ (asked e').1)
    {t : K} (shows_ : Shows s log t) (paced : Paced room log) (upto : ∀ c ∈ log, c.1 ≤ t)
    (from_ : ∀ e ∈ es, t ≤ (asked e).1) : Paced room (log ++ granted take asked s es) := by
  induction es generalizing s log t with
  | nil => simpa [granted] using paced
  | cons e es ih =>
    obtain ⟨first, rest⟩ := List.pairwise_cons.mp ordered
    have now := from_ e (by simp)
    have here := later s log t (asked e).1 shows_ now
    have before : ∀ c ∈ log, c.1 ≤ (asked e).1 := fun c in_ => (upto c in_).trans now
    unfold granted
    by_cases grant : (take s e).1 = 1
    · obtain ⟨fits, shows'⟩ := counted s log e here paced.sorted before grant
      have upto' : ∀ c ∈ log ++ [asked e], c.1 ≤ (asked e).1 := by
        intro c in_
        rcases List.mem_append.mp in_ with older | last
        · exact before c older
        · rw [List.mem_singleton.mp last]
      rw [if_pos grant]
      have := ih rest shows' (.count paced before fits) upto' first
      rwa [List.append_assoc, List.singleton_append] at this
    · rw [if_neg grant]
      exact ih rest (refused s log e here grant) paced before first

/-- From a state that shows an empty log, ordered takes grant a paced log. -/
theorem paced_from_start {s : σ} {es : List ε}
    (ordered : es.Pairwise fun e e' => (asked e).1 ≤ (asked e').1)
    (fresh : ∀ t, Shows s [] t) : Paced room (granted take asked s es) := by
  cases es with
  | nil => exact .nil
  | cons e es =>
    have first : ∀ x ∈ e :: es, (asked e).1 ≤ (asked x).1 := by
      intro x in_
      rcases List.mem_cons.mp in_ with rfl | in_
      · exact le_refl _
      · exact (List.pairwise_cons.mp ordered).1 x in_
    show Paced room ([] ++ granted take asked s (e :: es))
    exact paced_granted Shows later refused counted ordered (fresh (asked e).1) .nil (by simp) first

end Paced

omit [LinearOrder K] in
/-- The calls that processes with states of their own grant, each with the process that took it. -/
def together {n : Nat} (take : σ → ε → Int × σ) (asked : ε → K × κ) : (Fin n → σ) →
    List (Fin n × ε) → List (Fin n × (K × κ))
  | _, [] => []
  | s, (p, e) :: es =>
      let rest := together take asked (Function.update s p (take (s p) e).2) es
      if (take (s p) e).1 = 1 then (p, asked e) :: rest else rest

/-- What belongs to one process. -/
def part {n : Nat} {α : Type*} (p : Fin n) (l : List (Fin n × α)) : List α :=
  (l.filter fun x => decide (x.1 = p)).map Prod.snd

omit [LinearOrder K] in
/-- Each process grants what it would grant alone. -/
theorem part_together {n : Nat} (p : Fin n) (s : Fin n → σ) (es : List (Fin n × ε)) :
    part p (together take asked s es) = granted take asked (s p) (part p es) := by
  induction es generalizing s with
  | nil => rfl
  | cons x es ih =>
    obtain ⟨q, e⟩ := x
    have rest := ih (Function.update s q (take (s q) e).2)
    by_cases here : q = p
    · subst here
      rw [Function.update_self] at rest
      have asks : part q ((q, e) :: es) = e :: part q es := by simp [part]
      rw [asks, granted, together]
      split
      · rw [← rest]
        simp [part]
      · exact rest
    · rw [Function.update_of_ne (Ne.symm here)] at rest
      have asks : part p ((q, e) :: es) = part p es := by simp [part, here]
      rw [asks, ← rest, together]
      split
      · simp [part, here]
      · rfl

/-- The calls of all processes are those of each, added up. -/
theorem countP_parts {n : Nat} {α : Type*} (f : α → Bool) (l : List (Fin n × α)) :
    l.countP (fun x => f x.2) = ∑ p, (part p l).countP f := by
  induction l with
  | nil => simp [part]
  | cons x l ih =>
    have each : ∀ p, (part p (x :: l)).countP f =
        (part p l).countP f + if p = x.1 then (if f x.2 = true then 1 else 0) else 0 := by
      intro p
      by_cases here : x.1 = p
      · have own : part p (x :: l) = x.2 :: part p l := by simp [part, here]
        rw [own, List.countP_cons, if_pos here.symm]
      · have other : part p (x :: l) = part p l := by simp [part, here]
        rw [other, if_neg (Ne.symm here), Nat.add_zero]
    rw [List.countP_cons, ih, Finset.sum_congr rfl fun p _ => each p, Finset.sum_add_distrib]
    simp

end Runs

/-! ## Sliding windows -/

variable [Field K]

/-- Less than `limit` calls in the `w` seconds up to the call. -/
def WindowRoom (w : K) (limit : Nat) (log : List (K × κ)) (call : K × κ) : Prop :=
  log.countP (fun c => decide (call.1 - w < c.1)) < limit

/-- Times that lie less than `w` apart hold `limit` calls at most. -/
theorem Paced.window [IsStrictOrderedRing K] {w : K} {limit : Nat}
    (paced : Paced (WindowRoom w limit) log) (I : K → Bool)
    (narrow : ∀ x y, I x = true → I y = true → y - x < w) :
    log.countP (fun c => I c.1) ≤ limit := by
  induction paced with
  | nil => exact Nat.zero_le _
  | @count log call _ latest fits ih =>
    rw [List.countP_append, List.countP_singleton]
    by_cases here : I call.1 = true
    · -- the calls of `I` before this one lie within its own window
      have inside : log.countP (fun c => I c.1) ≤ log.countP (fun c => decide (call.1 - w < c.1)) := by
        apply List.countP_mono_left
        intro c _ there
        have := narrow c.1 call.1 there here
        exact decide_eq_true (by linarith)
      rw [if_pos here]
      have := lt_of_le_of_lt inside fits
      omega
    · rw [if_neg here]
      exact ih

/-! ## Token buckets -/

section Bucket

variable (cap rate : K)

/-- The tokens at a moment: a bucket never used is full, any other refills from its last call. -/
def level (bucket : Option (K × K)) (now : K) : K :=
  match bucket with
  | none => cap
  | some (tokens, ts) => min cap (tokens + max 0 (now - ts) * rate)

/-- The bucket after the calls of a log: each takes one token. -/
def spend : List (K × κ) → Option (K × K) :=
  List.foldl (fun bucket c => some (level cap rate bucket c.1 - 1, c.1)) none

@[simp] theorem spend_nil : spend cap rate ([] : List (K × κ)) = none := rfl

@[simp] theorem spend_snoc (log : List (K × κ)) (call : K × κ) :
    spend cap rate (log ++ [call]) = some (level cap rate (spend cap rate log) call.1 - 1, call.1) := by
  simp [spend]

theorem level_le (bucket : Option (K × K)) (now : K) : level cap rate bucket now ≤ cap := by
  cases bucket with
  | none => exact le_refl cap
  | some b => exact min_le_left ..

/-- A token, and those that the call's kind must leave. -/
def BucketRoom (reserve : κ → K) (log : List (K × κ)) (call : K × κ) : Prop :=
  1 + reserve call.2 ≤ level cap rate (spend cap rate log) call.1

variable {cap rate} {reserve : κ → K} {r a : K} [IsStrictOrderedRing K]

/-- The calls from `a` on whose kind leaves at least `r` tokens. -/
def spent (reserve : κ → K) (r a : K) (log : List (K × κ)) : Nat :=
  log.countP fun c => decide (a ≤ c.1) && decide (r ≤ reserve c.2)

/-- What has been spent since `a`, and what is left above `r`, came with the bucket or refilled. -/
theorem Paced.potential (steady : 0 ≤ rate) (below : r ≤ cap)
    (paced : Paced (BucketRoom cap rate reserve) log) :
    ∀ t, a ≤ t → (∀ c ∈ log, c.1 ≤ t) →
      spent reserve r a log + max (level cap rate (spend cap rate log) t - r) 0 ≤
        (cap - r) + rate * (t - a) := by
  induction paced with
  | nil =>
    intro t from_ _
    have refilled := mul_nonneg steady (sub_nonneg.mpr from_)
    simp only [spent, List.countP_nil, Nat.cast_zero, zero_add, spend_nil, level]
    rw [max_eq_left (by linarith)]
    linarith
  | @count log call _ latest fits ih =>
    intro t from_ upto
    have now : call.1 ≤ t := upto call (by simp)
    have full := level_le cap rate (some (level cap rate (spend cap rate log) call.1 - 1, call.1)) t
    have refilled := mul_nonneg steady (sub_nonneg.mpr from_)
    rw [spend_snoc]
    by_cases early : call.1 < a
    · -- everything counted so far lies before `a`
      have nothing : spent reserve r a (log ++ [call]) = 0 := by
        apply List.countP_eq_zero.mpr
        intro c in_
        have before : c.1 ≤ call.1 := by
          rcases List.mem_append.mp in_ with older | last
          · exact latest c older
          · rw [List.mem_singleton.mp last]
        have : ¬ a ≤ c.1 := by linarith
        simp [this]
      rw [nothing, Nat.cast_zero, zero_add, max_le_iff]
      constructor <;> linarith
    · have soFar := ih call.1 (not_lt.mp early) latest
      have back := mul_nonneg steady (sub_nonneg.mpr now)
      have left_ : level cap rate (some (level cap rate (spend cap rate log) call.1 - 1, call.1)) t ≤
          level cap rate (spend cap rate log) call.1 - 1 + rate * (t - call.1) := by
        refine (min_le_right ..).trans (le_of_eq ?_)
        rw [max_eq_right (sub_nonneg.mpr now), mul_comm]
      have ahead : rate * (t - a) = rate * (t - call.1) + rate * (call.1 - a) := by ring
      unfold BucketRoom at fits
      by_cases kind : r ≤ reserve call.2
      · have one : spent reserve r a (log ++ [call]) = spent reserve r a log + 1 := by
          simp [spent, List.countP_append, kind, not_lt.mp early]
        rw [max_eq_left (by linarith)] at soFar
        rw [one, Nat.cast_add, Nat.cast_one, ← max_add_add_left, max_le_iff]
        constructor <;> linarith
      · have same : spent reserve r a (log ++ [call]) = spent reserve r a log := by
          simp [spent, List.countP_append, kind]
        have over_ := le_max_left (level cap rate (spend cap rate log) call.1 - r) 0
        have none_ := le_max_right (level cap rate (spend cap rate log) call.1 - r) 0
        rw [same, ← max_add_add_left, max_le_iff]
        constructor <;> linarith

/-- In any `T` seconds, the calls whose kind leaves at least `r` tokens are at most the rest of the
bucket and what refills. -/
theorem Paced.bucket (steady : 0 ≤ rate) (below : r ≤ cap)
    (paced : Paced (BucketRoom cap rate reserve) log) {T : K} (length : 0 ≤ T) :
    (log.countP (fun c => decide (a ≤ c.1 ∧ c.1 ≤ a + T) && decide (r ≤ reserve c.2)) : K) ≤
      (cap - r) + rate * T := by
  induction paced with
  | nil =>
    have := mul_nonneg steady length
    simp only [List.countP_nil, Nat.cast_zero]
    linarith
  | @count log call before latest fits ih =>
    by_cases late : a + T < call.1
    · rw [List.countP_append, List.countP_singleton, if_neg (by simp [late])]
      exact ih
    · -- the whole log lies up to the end of the interval
      have upto : ∀ c ∈ log ++ [call], c.1 ≤ a + T := by
        intro c in_
        rcases List.mem_append.mp in_ with older | last
        · exact (latest c older).trans (not_lt.mp late)
        · exact List.mem_singleton.mp last ▸ not_lt.mp late
      have bound := Paced.potential (a := a) steady below (.count before latest fits) (a + T) (by linarith) upto
      have whole : (log ++ [call]).countP
          (fun c => decide (a ≤ c.1 ∧ c.1 ≤ a + T) && decide (r ≤ reserve c.2)) =
          spent reserve r a (log ++ [call]) := by
        apply List.countP_congr
        intro c in_
        simp [upto c in_]
      have left_ := le_max_right (level cap rate (spend cap rate (log ++ [call])) (a + T) - r) 0
      rw [whole]
      rw [add_sub_cancel_left] at bound
      linarith

end Bucket

/-! ## Registers -/

/-- What an implementation keeps of the calls in a window: `prune w now` forgets those of `w`
seconds ago and before, `add w now` records one. -/
structure Register (K σ : Type*) [Field K] [LinearOrder K] where
  times : σ → List K
  prune : Nat → K → σ → σ
  add : Nat → K → σ → σ
  prune_prune {w : Nat} {t t' : K} (k : σ) (later : t ≤ t') : prune w t' (prune w t k) = prune w t' k
  times_add {w : Nat} {t t' : K} (k : σ) (later : t ≤ t')
      (sorted : (times (prune w t k)).Pairwise (· ≤ ·)) (upto : ∀ x ∈ times (prune w t k), x ≤ t) :
    times (prune w t' (add w t (prune w t k))) =
      (times (prune w t k) ++ [t]).filter fun x => decide (t' - w < x)

/-- From a moment on, the register shows the calls of the log that are in the window. -/
def Register.Shows {σ : Type*} (R : Register K σ) (w : Nat) (k : σ) (log : List (K × κ)) (t : K) : Prop :=
  ∀ t', t ≤ t' → R.times (R.prune w t' k) = (log.map Prod.fst).filter fun x => decide (t' - w < x)

namespace Register

variable {σ : Type*} {R : Register K σ} {w : Nat} {k : σ} {t t' : K}

theorem Shows.later (shows_ : R.Shows w k log t) (later : t ≤ t') : R.Shows w k log t' :=
  fun u from_ => shows_ u (later.trans from_)

theorem Shows.add [IsStrictOrderedRing K] (shows_ : R.Shows w k log call.1)
    (sorted : (log.map Prod.fst).Pairwise (· ≤ ·)) (upto : ∀ c ∈ log, c.1 ≤ call.1) :
    R.Shows w (R.add w call.1 (R.prune w call.1 k)) (log ++ [call]) call.1 := by
  intro u from_
  have here := shows_ call.1 (le_refl _)
  rw [R.times_add k from_]
  · rw [here, List.map_append, List.map_singleton, List.filter_append, List.filter_append, List.filter_filter]
    congr 1
    apply List.filter_congr
    intro x _
    rw [← Bool.decide_and, decide_eq_decide]
    constructor
    · exact fun both => both.1
    · exact fun live => ⟨live, by linarith⟩
  · rw [here]
    exact sorted.sublist List.filter_sublist
  · rw [here]
    intro x in_
    obtain ⟨c, old, rfl⟩ := List.mem_map.mp (List.mem_of_mem_filter in_)
    exact upto c old

/-- A register with room in it is a window with room. -/
theorem Shows.fits {limit : Nat} (shows_ : R.Shows w k log call.1)
    (room_ : (R.times (R.prune w call.1 k)).length + 1 ≤ limit) : WindowRoom (w : K) limit log call := by
  rw [shows_ call.1 (le_refl _), ← List.countP_eq_length_filter, List.countP_map] at room_
  exact room_

end Register

end Allowance

end AdvanceTrading
