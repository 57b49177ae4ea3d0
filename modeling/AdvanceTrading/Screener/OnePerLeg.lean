import AdvanceTrading.Screener.BreakoutBars

/-!
# One signal per leg

Model of `one_per_leg` (`app/screener/breakouts/screens.py:531-562`) over one
side's prices. A price is `none` where the source has a NaN, and a fail level
also where it is not finite; a comparison with either is false.

The loop tests the third re-arm rule before it takes the bar's own high into the
peak, so a bar that makes a new extreme itself can still end a wait. The signals
are one per leg exactly when no leg holds such a bar ahead of its re-arm.
-/

namespace AdvanceTrading.Breakouts

open PriceAction

/-- What `one_per_leg` reads: the swings of the leg degree, the side's prices, the raw signals with their fail
levels, the parameter `leg_rearm_bars` and the optional resets. -/
structure LegInput where
  n : Nat
  pivots : List Swing
  long : Bool
  high : Nat → Option ℚ
  close : Nat → Option ℚ
  raw : Nat → Bool
  failLevel : Nat → Option ℚ
  rearmBars : Nat
  reset : Option (Nat → Bool)
  rearmBars_pos : 1 ≤ rearmBars

/-- `a > b`, false where either is missing. -/
def Above (a b : Option ℚ) : Prop := ∃ x ∈ a, ∃ y ∈ b, y < x

instance : DecidableRel Above
  | none, _ => isFalse fun ⟨_, missing, _⟩ => nomatch missing
  | some _, none => isFalse fun ⟨_, _, _, missing, _⟩ => nomatch missing
  | some x, some y => decidable_of_iff (y < x) (by simp [Above])

/-- A swing event: `(confirmed_idx, bar_idx)`. -/
abbrev SwingEvent := Nat × Nat

/-- The order of `sorted` on the events. -/
def EventBefore (a b : SwingEvent) : Prop := a.1 < b.1 ∨ (a.1 = b.1 ∧ a.2 ≤ b.2)

instance : DecidableRel EventBefore := fun _ _ => inferInstanceAs (Decidable (_ ∨ _))

namespace LegInput

/-- The kind of a swing against the side. -/
def against (x : LegInput) : SwingKind := if x.long then .low else .high

/-- `events`. -/
def events (x : LegInput) : List SwingEvent :=
  ((x.pivots.filter fun pv => pv.kind = x.against).map fun pv => (pv.confirmedIdx, pv.barIdx)).insertionSort EventBefore

/-- `rs is not None and rs[t]`. -/
def resetAt (x : LegInput) (t : Nat) : Bool := x.reset.any fun rs => rs t

end LegInput

/-- What the loop carries; `rest` is `events[k:]`. Before the first signal nothing reads the peak, -∞ in the source. -/
structure LegState where
  armed : Bool := true
  sig : Int := -1
  fail : Option ℚ := none
  peak : Option ℚ := none
  peakBar : Int := -1
  rest : List SwingEvent
  out : List Bool := []
  deriving DecidableEq, Repr

/-- The events known at bar `t` (`screens.py:547-550`): whether the side is armed after them, and `events[k:]`. -/
def takeEvents (sig : Int) (t : Nat) (armed : Bool) : List SwingEvent → Bool × List SwingEvent
  | [] => (armed, [])
  | e :: rest => if e.1 ≤ t then takeEvents sig t (armed || sig < e.2) rest else (armed, e :: rest)

/-- A bar of a side that is not armed (`screens.py:551-557`). -/
def LegState.wait (x : LegInput) (t : Nat) (s : LegState) : LegState :=
  let armed := (Above s.fail (x.close t) : Bool) || (x.rearmBars : Int) ≤ t - s.peakBar
  if Above (x.high t) s.peak then
    { s with armed := armed, peak := x.high t, peakBar := t }
  else
    { s with armed := armed }

/-- A bar's signal (`screens.py:558-560`). -/
def LegState.signal (x : LegInput) (t : Nat) (s : LegState) : LegState :=
  if s.armed && x.raw t then
    { s with
      armed := false
      sig := t
      fail := x.failLevel t
      peak := x.high t
      peakBar := t
      out := s.out ++ [true] }
  else
    { s with out := s.out ++ [false] }

/-- The reset and the swing events of bar `t`. -/
def LegState.rearm (x : LegInput) (t : Nat) (s : LegState) : LegState :=
  let taken := takeEvents s.sig t (s.armed || x.resetAt t) s.rest
  { s with armed := taken.1, rest := taken.2 }

/-- A bar's re-arm tests. -/
def LegState.tested (x : LegInput) (t : Nat) (s : LegState) : LegState :=
  let s := s.rearm x t
  if s.armed then s else s.wait x t

/-- One bar of the loop. -/
def LegState.bar (x : LegInput) (s : LegState) (t : Nat) : LegState := (s.tested x t).signal x t

/-- The loop over the bars before `t`. -/
def legLoop (x : LegInput) : Nat → LegState
  | 0 => { rest := x.events }
  | t + 1 => (legLoop x t).bar x t

/-- `one_per_leg`. -/
def onePerLeg (x : LegInput) : List Bool := (legLoop x x.n).out

/-! ## The swing events -/

instance : Std.Total EventBefore where
  total a b := by unfold EventBefore; omega

instance : IsTrans SwingEvent EventBefore where
  trans a b c := by unfold EventBefore; omega

theorem mem_events {x : LegInput} {e : SwingEvent} :
    e ∈ x.events ↔ ∃ pv ∈ x.pivots, pv.kind = x.against ∧ (pv.confirmedIdx, pv.barIdx) = e := by
  unfold LegInput.events
  rw [(List.perm_insertionSort _ _).mem_iff, List.mem_map]
  simp only [List.mem_filter, decide_eq_true_eq, and_assoc]

theorem events_sorted (x : LegInput) : x.events.Pairwise fun a b => a.1 ≤ b.1 := by
  refine (List.pairwise_insertionSort EventBefore _).imp ?_
  intro a b before
  unfold EventBefore at before
  omega

/-- Of events in order, those known at `t` are taken, and any of them after the signal arms the side. -/
theorem takeEvents_eq (sig : Int) (t : Nat) (armed : Bool) {rest : List SwingEvent}
    (sorted : rest.Pairwise fun a b => a.1 ≤ b.1) :
    takeEvents sig t armed rest =
      (armed || rest.any fun e => e.1 ≤ t && sig < e.2, rest.filter fun e => t + 1 ≤ e.1) := by
  induction rest generalizing armed with
  | nil => simp [takeEvents]
  | cons e rest ih =>
    rw [List.pairwise_cons] at sorted
    unfold takeEvents
    split
    case isTrue known =>
      rw [ih _ sorted.2, List.filter_cons_of_neg (by grind)]
      simp [known, Bool.or_assoc]
    case isFalse unknown =>
      have all_later : ∀ d ∈ e :: rest, t < d.1 := by
        intro d listed
        rcases List.mem_cons.mp listed with rfl | listed
        · omega
        · have := sorted.1 d listed
          omega
      have none_known : (e :: rest).any (fun d => d.1 ≤ t && sig < d.2) = false := by
        rw [List.any_eq_false]
        intro d listed
        have := all_later d listed
        simp only [Bool.and_eq_true, decide_eq_true_eq, not_and]
        omega
      rw [none_known, Bool.or_false, List.filter_eq_self.mpr]
      intro d listed
      exact decide_eq_true (all_later d listed)

/-! ## What one signal per leg means -/

/-- Beyond the highest point of the bars from `i` up to, not including, bar `t`. -/
def Tops (x : LegInput) (i t : Nat) (a : Option ℚ) : Prop :=
  Above a (x.high i) ∧ ∀ w, i < w → w < t → x.high w = none ∨ Above a (x.high w)

/-- Bar `v` makes a new extreme beyond the highest point since bar `i`. -/
def NewExtreme (x : LegInput) (i v : Nat) : Prop := i < v ∧ Tops x i v (x.high v)

/-- A swing against the side with its extreme after bar `i` is confirmed at bar `t`. -/
def SwingConfirmed (x : LegInput) (i t : Nat) : Prop :=
  ∃ pv ∈ x.pivots, pv.kind = x.against ∧ pv.confirmedIdx = t ∧ i < pv.barIdx

/-- Bar `t` ends the leg of a signal at bar `i`. -/
inductive Rearms (x : LegInput) (i t : Nat) : Prop
  | swing (confirmed : SwingConfirmed x i t)
  | failed (inside : Above (x.failLevel i) (x.close t))
  | reset (set : x.resetAt t = true)
  | quiet (long : i + x.rearmBars ≤ t) (none_new : ∀ v ≤ t, t < v + x.rearmBars → ¬ NewExtreme x i v)

/-- The leg of a signal at bar `i` has ended by bar `j`. -/
def Rearmed (x : LegInput) (i j : Nat) : Prop := ∃ t, i < t ∧ t ≤ j ∧ Rearms x i t

/-- Bar `t` is marked. -/
def Marked (marks : List Bool) (t : Nat) : Prop := marks[t]? = some true

instance (marks : List Bool) (t : Nat) : Decidable (Marked marks t) := inferInstanceAs (Decidable (_ = _))

/-- No bar between `i` and `j` is marked. -/
def Unmarked (marks : List Bool) (i j : Nat) : Prop := ∀ k, i < k → k < j → ¬ Marked marks k

/-- The marks are the raw bars that open a leg. -/
structure OnePerLeg (x : LegInput) (marks : List Bool) : Prop where
  length : marks.length = x.n
  raw : ∀ t, Marked marks t → x.raw t = true
  first : ∀ t < x.n, x.raw t = true → (∀ u < t, x.raw u = false) → Marked marks t
  apart : ∀ i j, i < j → Marked marks i → Marked marks j → Unmarked marks i j → Rearmed x i j
  again : ∀ i j, i < j → j < x.n → Marked marks i → x.raw j = true → Unmarked marks i j → Rearmed x i j →
    Marked marks j

/-! ## The condition -/

/-- Bar `t` makes a new extreme after a wait of `leg_rearm_bars` bars that counts bar `t` itself. -/
structure EarlyRearm (x : LegInput) (i t : Nat) : Prop where
  long : i + x.rearmBars ≤ t
  none_before : ∀ v < t, t < v + x.rearmBars → ¬ NewExtreme x i v
  new : NewExtreme x i t

/-- The bars that open the legs: the first raw bar, and after a leg the first raw bar that finds it ended. -/
inductive LegStart (x : LegInput) : Nat → Prop
  | first {i : Nat} (raw : x.raw i = true) (none_before : ∀ u < i, x.raw u = false) : LegStart x i
  | next {i j : Nat} (start : LegStart x i) (after : i < j) (raw : x.raw j = true) (ended : Rearmed x i j)
      (none_between : ∀ k, i < k → k < j → x.raw k = true → ¬ Rearmed x i k) : LegStart x j

/-- Up to a raw bar that finds its leg still running, no bar of the leg is an early re-arm. -/
def NoEarlyRearm (x : LegInput) : Prop :=
  ∀ i j, LegStart x i → i < j → j < x.n → x.raw j = true → ¬ Rearmed x i j →
    ∀ t, i < t → t ≤ j → ¬ EarlyRearm x i t

/-! ## What the loop keeps -/

/-- Bar `t` arms the side in the code: it ends the leg, or is an early re-arm. -/
def Loosens (x : LegInput) (i t : Nat) : Prop := Rearms x i t ∨ EarlyRearm x i t

/-- The side was armed after the signal at bar `i`, by a bar before `t`. -/
def Released (x : LegInput) (i t : Nat) : Prop := ∃ u, i < u ∧ u < t ∧ Loosens x i u

/-- The greatest high of the bars `i, …, t - 1` and the last bar that was a new extreme. -/
structure Peak (x : LegInput) (i t : Nat) (s : LegState) : Prop where
  top : ∀ a, Above a s.peak ↔ Tops x i t a
  bar : ∃ p : Nat, s.peakBar = p ∧ i ≤ p ∧ p < t ∧ (p = i ∨ NewExtreme x i p) ∧
    ∀ v, p < v → v < t → ¬ NewExtreme x i v

/-- The last signal was at bar `i`, and the re-arm tests of the bars before `t` were made. -/
structure Running (x : LegInput) (i t : Nat) (s : LegState) : Prop where
  before : i < t
  sig : s.sig = i
  fail : s.fail = x.failLevel i
  marked : Marked s.out i
  last : ∀ k, i < k → ¬ Marked s.out k
  armed : s.armed = true ↔ Released x i t
  peak : s.armed = false → Peak x i t s

/-- No bar before `t` was raw. -/
structure Fresh (x : LegInput) (t : Nat) (s : LegState) : Prop where
  armed : s.armed = true
  none_marked : ∀ k, ¬ Marked s.out k
  none_raw : ∀ u < t, x.raw u = false

/-- The invariant of the loop over the bars before `t`. -/
structure Tracks (x : LegInput) (t : Nat) (s : LegState) : Prop where
  rest : s.rest = x.events.filter fun e => t ≤ e.1
  length : s.out.length = t
  leg : Fresh x t s ∨ ∃ i, Running x i t s

variable {x : LegInput} {i j t : Nat} {s : LegState}

/-- The third rule as the code tests it. -/
theorem loosens_iff :
    Loosens x i t ↔ (x.resetAt t = true ∨ SwingConfirmed x i t) ∨ Above (x.failLevel i) (x.close t) ∨
      (i + x.rearmBars ≤ t ∧ ∀ v < t, t < v + x.rearmBars → ¬ NewExtreme x i v) := by
  have pos := x.rearmBars_pos
  constructor
  · rintro ((confirmed | inside | set | ⟨long, none_new⟩) | ⟨long, none_before, -⟩)
    · exact .inl (.inr confirmed)
    · exact .inr (.inl inside)
    · exact .inl (.inl set)
    · exact .inr (.inr ⟨long, fun v before near => none_new v before.le near⟩)
    · exact .inr (.inr ⟨long, none_before⟩)
  · rintro ((set | confirmed) | inside | ⟨long, none_before⟩)
    · exact .inl (.reset set)
    · exact .inl (.swing confirmed)
    · exact .inl (.failed inside)
    · by_cases new : NewExtreme x i t
      · exact .inr ⟨long, none_before, new⟩
      · refine .inl (.quiet long ?_)
        intro v le near
        rcases Nat.lt_or_eq_of_le le with before | rfl
        · exact none_before v before near
        · exact new

theorem released_succ (before : i < t) : Released x i (t + 1) ↔ Released x i t ∨ Loosens x i t := by
  constructor
  · rintro ⟨u, after, le, loosens⟩
    rcases Nat.lt_or_eq_of_le (Nat.le_of_lt_succ le) with earlier | rfl
    · exact .inl ⟨u, after, earlier, loosens⟩
    · exact .inr loosens
  · rintro (⟨u, after, earlier, loosens⟩ | loosens)
    · exact ⟨u, after, by omega, loosens⟩
    · exact ⟨t, before, by omega, loosens⟩

/-- With the peak at hand, the wait is over when it has lasted since the last new extreme. -/
theorem Peak.waited (peak : Peak x i t s) :
    (x.rearmBars : Int) ≤ t - s.peakBar ↔
      i + x.rearmBars ≤ t ∧ ∀ v < t, t < v + x.rearmBars → ¬ NewExtreme x i v := by
  obtain ⟨p, bar, first, before, made, none_later⟩ := peak.bar
  rw [bar]
  constructor
  · intro long
    refine ⟨by omega, ?_⟩
    intro v earlier near
    exact none_later v (by omega) earlier
  · rintro ⟨long, none_before⟩
    rcases made with rfl | made
    · omega
    · by_contra short
      exact none_before p before (by omega) made

theorem Above.trans {a b c : Option ℚ} (ab : Above a b) (bc : Above b c) : Above a c := by
  obtain ⟨x, rfl, y, rfl, less⟩ := ab
  obtain ⟨y', eq, z, rfl, less'⟩ := bc
  obtain rfl := Option.some.inj eq
  exact ⟨x, rfl, z, rfl, less'.trans less⟩

/-- What is above one price and not below another is above it as well, if there is one. -/
theorem Above.of_not {a b c : Option ℚ} (ab : Above a b) (not_above : ¬ Above c b) : c = none ∨ Above a c := by
  obtain ⟨x, rfl, y, rfl, less⟩ := ab
  cases c with
  | none => exact .inl rfl
  | some z =>
    right
    refine ⟨x, rfl, z, rfl, ?_⟩
    have : ¬ y < z := fun above => not_above ⟨z, rfl, y, rfl, above⟩
    exact (not_lt.mp this).trans_lt less

theorem tops_succ (before : i < t) {a : Option ℚ} :
    Tops x i (t + 1) a ↔ Tops x i t a ∧ (x.high t = none ∨ Above a (x.high t)) := by
  constructor
  · rintro ⟨first, others⟩
    exact ⟨⟨first, fun w after earlier => others w after (by omega)⟩, others t before (by omega)⟩
  · rintro ⟨⟨first, others⟩, here⟩
    refine ⟨first, ?_⟩
    intro w after le
    rcases Nat.lt_or_eq_of_le (Nat.le_of_lt_succ le) with earlier | rfl
    · exact others w after earlier
    · exact here

theorem Tops.trans {a b : Option ℚ} (above : Above a b) (tops : Tops x i t b) : Tops x i t a := by
  refine ⟨above.trans tops.1, ?_⟩
  intro w after earlier
  exact (tops.2 w after earlier).imp_right above.trans

theorem Peak.newExtreme (peak : Peak x i t s) (before : i < t) :
    Above (x.high t) s.peak ↔ NewExtreme x i t := by
  rw [peak.top]
  exact ⟨fun tops => ⟨before, tops⟩, fun new => new.2⟩

/-- The bar is taken into the peak. -/
theorem Peak.wait (peak : Peak x i t s) (before : i < t) : Peak x i (t + 1) (s.wait x t) := by
  unfold LegState.wait
  dsimp only
  split
  case isTrue above =>
    have new := (peak.newExtreme before).mp above
    refine ⟨?_, t, rfl, before.le, by omega, .inr new, by omega⟩
    intro a
    rw [tops_succ before]
    constructor
    · intro higher
      exact ⟨.trans higher new.2, .inr higher⟩
    · rintro ⟨-, missing | higher⟩
      · obtain ⟨h, listed, -⟩ := above
        rw [missing] at listed
        exact nomatch listed
      · exact higher
  case isFalse not_above =>
    obtain ⟨p, bar, first, earlier, made, none_later⟩ := peak.bar
    refine ⟨?_, p, bar, first, by omega, made, ?_⟩
    · intro a
      rw [tops_succ before, ← peak.top]
      exact ⟨fun above => ⟨above, above.of_not not_above⟩, fun tops => tops.1⟩
    · intro v after le
      rcases Nat.lt_or_eq_of_le (Nat.le_of_lt_succ le) with sooner | rfl
      · exact none_later v after sooner
      · exact fun new => not_above ((peak.newExtreme before).mpr new)

@[simp] theorem wait_armed :
    (s.wait x t).armed = ((Above s.fail (x.close t) : Bool) || decide ((x.rearmBars : Int) ≤ t - s.peakBar)) := by
  unfold LegState.wait
  dsimp only
  split <;> rfl

@[simp] theorem wait_sig : (s.wait x t).sig = s.sig := by
  unfold LegState.wait
  dsimp only
  split <;> rfl

@[simp] theorem wait_fail : (s.wait x t).fail = s.fail := by
  unfold LegState.wait
  dsimp only
  split <;> rfl

@[simp] theorem wait_out : (s.wait x t).out = s.out := by
  unfold LegState.wait
  dsimp only
  split <;> rfl

@[simp] theorem wait_rest : (s.wait x t).rest = s.rest := by
  unfold LegState.wait
  dsimp only
  split <;> rfl

/-- The events of the loop are taken as they are confirmed. -/
theorem rearm_eq (rest : s.rest = x.events.filter fun e => t ≤ e.1) :
    s.rearm x t =
      { s with
        armed := s.armed || x.resetAt t || x.events.any fun e => e.1 == t && s.sig < e.2
        rest := x.events.filter fun e => t + 1 ≤ e.1 } := by
  have sorted : s.rest.Pairwise fun a b => a.1 ≤ b.1 := by
    rw [rest]
    exact (events_sorted x).sublist List.filter_sublist
  have left : s.rest.filter (fun e => decide (t + 1 ≤ e.1)) = x.events.filter fun e => t + 1 ≤ e.1 := by
    rw [rest, List.filter_filter]
    refine List.filter_congr fun e _ => ?_
    by_cases later : t + 1 ≤ e.1
    · simp [later, Nat.le_of_succ_le later]
    · simp [later]
  have taken : s.rest.any (fun e => e.1 ≤ t && s.sig < e.2) = x.events.any fun e => e.1 == t && s.sig < e.2 := by
    rw [rest, List.any_filter]
    congr 1
    funext e
    rcases Nat.lt_trichotomy e.1 t with earlier | now | later
    · simp [Nat.not_le.mpr earlier, earlier.ne]
    · simp [now]
    · simp [Nat.not_le.mpr later, later.ne']
  unfold LegState.rearm
  rw [takeEvents_eq _ _ _ sorted, left, taken]

/-- A bar's own events arm a side whose signal was at bar `i`. -/
theorem event_iff :
    (x.events.any fun e => e.1 == t && decide ((i : Int) < e.2)) = true ↔ SwingConfirmed x i t := by
  rw [List.any_eq_true]
  constructor
  · rintro ⟨e, listed, known⟩
    obtain ⟨pv, pv_listed, kind, rfl⟩ := mem_events.mp listed
    rw [Bool.and_eq_true, beq_iff_eq, decide_eq_true_eq, Int.ofNat_lt] at known
    exact ⟨pv, pv_listed, kind, known⟩
  · rintro ⟨pv, listed, kind, confirmed, later⟩
    refine ⟨_, mem_events.mpr ⟨pv, listed, kind, rfl⟩, ?_⟩
    simp [confirmed, later]

/-- The reset and the events of a bar, on a leg that runs. -/
theorem rearm_armed (rest : s.rest = x.events.filter fun e => t ≤ e.1) (sig : s.sig = i) :
    (s.rearm x t).armed = true ↔ s.armed = true ∨ x.resetAt t = true ∨ SwingConfirmed x i t := by
  rw [rearm_eq rest, sig]
  simp only [Bool.or_eq_true, or_assoc]
  rw [event_iff]

/-- The tests of a bar that finds the side armed. -/
theorem tested_of_armed (armed : (s.rearm x t).armed = true) : s.tested x t = s.rearm x t := if_pos armed

/-- The tests of a bar that does not. -/
theorem tested_of_not_armed (held : (s.rearm x t).armed = false) :
    s.tested x t = (s.rearm x t).wait x t := by
  unfold LegState.tested
  simp [held]

theorem tested_rest (rest : s.rest = x.events.filter fun e => t ≤ e.1) :
    (s.tested x t).rest = x.events.filter fun e => t + 1 ≤ e.1 := by
  have taken : (s.rearm x t).rest = x.events.filter fun e => t + 1 ≤ e.1 := by rw [rearm_eq rest]
  cases armed : (s.rearm x t).armed with
  | true => rw [tested_of_armed armed, taken]
  | false => rw [tested_of_not_armed armed, wait_rest, taken]

@[simp] theorem tested_sig : (s.tested x t).sig = s.sig := by
  cases armed : (s.rearm x t).armed with
  | true => rw [tested_of_armed armed, LegState.rearm]
  | false => rw [tested_of_not_armed armed, wait_sig, LegState.rearm]

@[simp] theorem tested_fail : (s.tested x t).fail = s.fail := by
  cases armed : (s.rearm x t).armed with
  | true => rw [tested_of_armed armed, LegState.rearm]
  | false => rw [tested_of_not_armed armed, wait_fail, LegState.rearm]

@[simp] theorem tested_out : (s.tested x t).out = s.out := by
  cases armed : (s.rearm x t).armed with
  | true => rw [tested_of_armed armed, LegState.rearm]
  | false => rw [tested_of_not_armed armed, wait_out, LegState.rearm]

/-- A side that the reset and the events leave unarmed was not armed before, so its peak is known. -/
theorem Running.peak_of_held (running : Running x i t s) (rest : s.rest = x.events.filter fun e => t ≤ e.1)
    (held : (s.rearm x t).armed = false) : Peak x i t (s.rearm x t) := by
  have not_armed : s.armed = false := by
    rw [Bool.eq_false_iff] at held ⊢
    exact fun was => held ((rearm_armed rest running.sig).mpr (.inl was))
  have peak := running.peak not_armed
  exact ⟨peak.top, peak.bar⟩

/-- The tests of a bar, on a leg that runs. -/
theorem Running.tested (running : Running x i t s)
    (rest : s.rest = x.events.filter fun e => t ≤ e.1) : Running x i (t + 1) (s.tested x t) := by
  have before := running.before
  have armed_iff := rearm_armed rest running.sig
  refine ⟨by omega, tested_sig.trans running.sig, tested_fail.trans running.fail, ?_, ?_, ?_, ?_⟩
  · rw [tested_out]
    exact running.marked
  · rw [tested_out]
    exact running.last
  · rw [released_succ before, ← running.armed, loosens_iff]
    cases armed : (s.rearm x t).armed with
    | true =>
      rw [tested_of_armed armed, armed]
      rw [armed] at armed_iff
      tauto
    | false =>
      have peak := running.peak_of_held rest armed
      rw [tested_of_not_armed armed, wait_armed, Bool.or_eq_true, decide_eq_true_eq, decide_eq_true_eq, peak.waited]
      rw [armed] at armed_iff
      have same : (s.rearm x t).fail = x.failLevel i := running.fail
      rw [same]
      tauto
  · intro held
    cases armed : (s.rearm x t).armed with
    | true => simp [tested_of_armed armed, armed] at held
    | false =>
      rw [tested_of_not_armed armed]
      exact (running.peak_of_held rest armed).wait before

/-! ## The marks -/

variable {marks : List Bool} {k : Nat}

theorem marked_concat {b : Bool} :
    Marked (marks ++ [b]) k ↔ Marked marks k ∨ (k = marks.length ∧ b = true) := by
  unfold Marked
  rcases Nat.lt_trichotomy k marks.length with inside | rfl | outside
  · simp [List.getElem?_append_left inside, inside.ne]
  · simp
  · have none_ : (marks ++ [b])[k]? = none := by
      rw [List.getElem?_eq_none_iff, List.length_append, List.length_singleton]
      omega
    rw [none_, List.getElem?_eq_none outside.le]
    simp [outside.ne']

/-- What a bar's signal is, after its tests. -/
theorem signal_of_marks (armed : s.armed = true) (raw : x.raw t = true) :
    s.signal x t =
      { s with
        armed := false
        sig := t
        fail := x.failLevel t
        peak := x.high t
        peakBar := t
        out := s.out ++ [true] } := by
  unfold LegState.signal
  rw [armed, raw]
  rfl

theorem signal_of_passes (passes : ¬ (s.armed = true ∧ x.raw t = true)) :
    s.signal x t = { s with out := s.out ++ [false] } := by
  unfold LegState.signal
  rw [← Bool.and_eq_true] at passes
  rw [if_neg passes]

/-- A signal at bar `t` opens a leg there. -/
theorem running_signal (armed : s.armed = true) (raw : x.raw t = true) (length : s.out.length = t)
    (last : ∀ k, Marked s.out k → k < t) : Running x t (t + 1) (s.signal x t) := by
  rw [signal_of_marks armed raw]
  refine ⟨Nat.lt_succ_self t, rfl, rfl, marked_concat.mpr (.inr ⟨length.symm, rfl⟩), ?_, ?_, ?_⟩
  · intro k after marked
    rcases marked_concat.mp marked with marked | ⟨rfl, -⟩
    · have := last k marked
      omega
    · omega
  · simp only [Bool.false_eq_true, false_iff]
    rintro ⟨u, after, before, -⟩
    omega
  · intro _
    refine ⟨?_, t, rfl, le_rfl, Nat.lt_succ_self t, .inl rfl, by omega⟩
    intro a
    exact ⟨fun above => ⟨above, fun w after before => by omega⟩, fun tops => tops.1⟩

theorem bar_out (x : LegInput) (t : Nat) (s : LegState) :
    (s.bar x t).out = s.out ++ [decide ((s.tested x t).armed = true ∧ x.raw t = true)] := by
  unfold LegState.bar
  by_cases marks : (s.tested x t).armed = true ∧ x.raw t = true
  · rw [signal_of_marks marks.1 marks.2, tested_out]
    simp [marks]
  · rw [signal_of_passes marks, tested_out]
    simp [marks]

theorem bar_rest (rest : s.rest = x.events.filter fun e => t ≤ e.1) :
    (s.bar x t).rest = x.events.filter fun e => t + 1 ≤ e.1 := by
  rw [← tested_rest rest]
  unfold LegState.bar LegState.signal
  split <;> rfl

/-- A bar before the first raw one leaves the side armed. -/
theorem Fresh.tested_armed (fresh : Fresh x t s) (rest : s.rest = x.events.filter fun e => t ≤ e.1) :
    (s.tested x t).armed = true := by
  have armed : (s.rearm x t).armed = true := by
    rw [rearm_eq rest, fresh.armed]
    rfl
  rw [tested_of_armed armed, armed]

theorem Tracks.marked_lt (tracks : Tracks x t s) (marked : Marked s.out k) : k < t := by
  rw [← tracks.length]
  exact (List.getElem?_eq_some_iff.mp marked).1

/-- One bar keeps the invariant. -/
theorem Tracks.bar (tracks : Tracks x t s) : Tracks x (t + 1) (s.bar x t) := by
  have length : (s.tested x t).out.length = t := by rw [tested_out, tracks.length]
  refine ⟨bar_rest tracks.rest, by rw [bar_out, List.length_append, tracks.length]; rfl, ?_⟩
  by_cases marks : (s.tested x t).armed = true ∧ x.raw t = true
  · refine .inr ⟨t, running_signal marks.1 marks.2 length ?_⟩
    rw [tested_out]
    exact fun k => tracks.marked_lt
  · have passes : s.bar x t = { s.tested x t with out := (s.tested x t).out ++ [false] } := signal_of_passes marks
    rw [passes]
    rcases tracks.leg with fresh | ⟨i, running⟩
    · have armed := fresh.tested_armed tracks.rest
      left
      refine ⟨armed, ?_, ?_⟩
      · intro k
        simpa [marked_concat] using fresh.none_marked k
      · intro u before
        rcases Nat.lt_or_eq_of_le (Nat.le_of_lt_succ before) with earlier | rfl
        · exact fresh.none_raw u earlier
        · simpa [armed] using marks
    · have tested := running.tested tracks.rest
      refine .inr ⟨i, tested.before, tested.sig, tested.fail, marked_concat.mpr (.inl tested.marked), ?_,
        tested.armed, ?_⟩
      · intro k after
        simpa [marked_concat] using tested.last k after
      · intro held
        have peak := tested.peak held
        exact ⟨peak.top, peak.bar⟩

theorem legLoop_tracks (x : LegInput) (t : Nat) : Tracks x t (legLoop x t) := by
  induction t with
  | zero =>
    refine ⟨?_, rfl, .inl ⟨rfl, ?_, ?_⟩⟩
    · simp [legLoop]
    · simp [legLoop, Marked]
    · exact fun u before => absurd before (Nat.not_lt_zero u)
  | succ t ih => exact ih.bar

/-- A bar's mark, as the side's tests and the raw signal make it. -/
theorem marked_loop_iff :
    Marked (legLoop x (t + 1)).out t ↔ ((legLoop x t).tested x t).armed = true ∧ x.raw t = true := by
  have length := (legLoop_tracks x t).length
  show Marked ((legLoop x t).bar x t).out t ↔ _
  rw [bar_out, marked_concat, decide_eq_true_eq, length]
  constructor
  · rintro (marked | ⟨-, marks⟩)
    · exact absurd ((legLoop_tracks x t).marked_lt marked) (Nat.lt_irrefl t)
    · exact marks
  · exact fun marks => .inr ⟨rfl, marks⟩

/-- Later bars leave the marks as they are. -/
theorem marked_loop_stable {m : Nat} (known : k < t) (le : t ≤ m) :
    Marked (legLoop x m).out k ↔ Marked (legLoop x t).out k := by
  induction m, le using Nat.le_induction with
  | base => rfl
  | succ m le ih =>
    rw [← ih]
    show Marked ((legLoop x m).bar x m).out k ↔ _
    rw [bar_out, marked_concat, (legLoop_tracks x m).length]
    constructor
    · rintro (marked | ⟨rfl, -⟩)
      · exact marked
      · omega
    · exact .inl

theorem marked_at (inside : t < x.n) :
    Marked (onePerLeg x) t ↔ ((legLoop x t).tested x t).armed = true ∧ x.raw t = true :=
  (marked_loop_stable (Nat.lt_succ_self t) inside).trans marked_loop_iff

theorem marked_inside (marked : Marked (onePerLeg x) t) : t < x.n := (legLoop_tracks x x.n).marked_lt marked

theorem marked_raw (marked : Marked (onePerLeg x) t) : x.raw t = true :=
  ((marked_at (marked_inside marked)).mp marked).2

/-- The first raw bar is marked. -/
theorem marked_first (inside : t < x.n) (raw : x.raw t = true)
    (none_before : ∀ u < t, x.raw u = false) : Marked (onePerLeg x) t := by
  have tracks := legLoop_tracks x t
  rcases tracks.leg with fresh | ⟨i, running⟩
  · exact (marked_at inside).mpr ⟨fresh.tested_armed tracks.rest, raw⟩
  · have marked : Marked (onePerLeg x) i := (marked_loop_stable running.before inside.le).mpr running.marked
    have raw_i := marked_raw marked
    rw [none_before i running.before] at raw_i
    exact nomatch raw_i

/-- After a mark and no other, a raw bar is marked if a bar up to it has armed the side. -/
theorem marked_after (after : i < j) (inside : j < x.n) (marked : Marked (onePerLeg x) i)
    (unmarked : Unmarked (onePerLeg x) i j) :
    Marked (onePerLeg x) j ↔ Released x i (j + 1) ∧ x.raw j = true := by
  have tracks := legLoop_tracks x j
  have marked_j : Marked (legLoop x j).out i := (marked_loop_stable after inside.le).mp marked
  rcases tracks.leg with fresh | ⟨i', running⟩
  · exact absurd marked_j (fresh.none_marked i)
  · have same : i' = i := by
      rcases Nat.lt_trichotomy i i' with later | rfl | earlier
      · have marked' : Marked (onePerLeg x) i' := (marked_loop_stable running.before inside.le).mpr running.marked
        exact absurd marked' (unmarked i' later running.before)
      · rfl
      · exact absurd marked_j (running.last i earlier)
    subst same
    rw [marked_at inside, (running.tested tracks.rest).armed]

/-! ## Exactly when -/

theorem Rearmed.released (ended : Rearmed x i j) : Released x i (j + 1) := by
  obtain ⟨u, after, le, rearms⟩ := ended
  exact ⟨u, after, Nat.lt_succ_of_le le, .inl rearms⟩

theorem Rearmed.mono (ended : Rearmed x i j) (le : j ≤ k) : Rearmed x i k := by
  obtain ⟨u, after, before, rearms⟩ := ended
  exact ⟨u, after, before.trans le, rearms⟩

/-- With no early re-arm on a leg, the code re-arms as the rules say. -/
theorem NoEarlyRearm.released (legs : NoEarlyRearm x) (start : LegStart x i) (after : i < j) (inside : j < x.n)
    (raw : x.raw j = true) (released : Released x i (j + 1)) : Rearmed x i j := by
  by_contra running
  obtain ⟨u, later, before, rearms | early⟩ := released
  · exact running ⟨u, later, Nat.le_of_lt_succ before, rearms⟩
  · exact legs i j start after inside raw running u later (Nat.le_of_lt_succ before) early

/-- Before bar `j` no bar was raw, or one was the last to be marked. -/
theorem mark_before (inside : j < x.n) :
    (∀ u < j, x.raw u = false) ∨ ∃ i < j, Marked (onePerLeg x) i ∧ Unmarked (onePerLeg x) i j := by
  rcases (legLoop_tracks x j).leg with fresh | ⟨i, running⟩
  · exact .inl fresh.none_raw
  · refine .inr ⟨i, running.before, (marked_loop_stable running.before inside.le).mpr running.marked, ?_⟩
    intro k after before marked
    exact running.last k after ((marked_loop_stable before inside.le).mp marked)

/-- With no early re-arm, a marked bar opens a leg. -/
theorem NoEarlyRearm.legStart (legs : NoEarlyRearm x) (marked : Marked (onePerLeg x) j) : LegStart x j := by
  induction j using Nat.strong_induction_on with
  | _ j ih =>
    have inside := marked_inside marked
    have raw := marked_raw marked
    rcases mark_before inside with none_raw | ⟨i, after, marked_i, unmarked⟩
    · exact .first raw none_raw
    · have start := ih i after marked_i
      have released := ((marked_after after inside marked_i unmarked).mp marked).1
      refine .next start after raw (legs.released start after inside raw released) ?_
      intro k later before raw_k ended_k
      have unmarked_k : Unmarked (onePerLeg x) i k := fun m after' before' => unmarked m after' (before'.trans before)
      exact unmarked k later before
        ((marked_after later (before.trans inside) marked_i unmarked_k).mpr ⟨ended_k.released, raw_k⟩)

/-- While a leg runs, no bar is marked. -/
theorem OnePerLeg.unmarked (legs : OnePerLeg x marks) (marked : Marked marks i)
    (running : ¬ Rearmed x i j) (after : i < k) (le : k ≤ j) : ¬ Marked marks k := by
  induction k using Nat.strong_induction_on with
  | _ k ih =>
    intro marked_k
    have between : Unmarked marks i k := fun m later before => ih m before later (before.le.trans le)
    exact running ((legs.apart i k after marked marked_k between).mono le)

/-- With one mark per leg, a bar that opens a leg is marked. -/
theorem OnePerLeg.marked_legStart (legs : OnePerLeg x marks) (start : LegStart x j)
    (inside : j < x.n) : Marked marks j := by
  induction start with
  | first raw none_before => exact legs.first _ inside raw none_before
  | @next i j start after raw ended none_between ih =>
    have marked := ih (after.trans inside)
    refine legs.again i j after inside marked raw ?_ ended
    intro k later before marked_k
    exact legs.unmarked marked (none_between k later before (legs.raw k marked_k)) later le_rfl marked_k

/-- The signals are one per leg exactly when no leg holds an early re-arm ahead of its own. -/
theorem onePerLeg_iff (x : LegInput) : OnePerLeg x (onePerLeg x) ↔ NoEarlyRearm x := by
  constructor
  · intro legs i j start after inside raw running t later le early
    have marked := legs.marked_legStart start (after.trans inside)
    have unmarked : Unmarked (onePerLeg x) i j := fun k later before => legs.unmarked marked running later before.le
    have released : Released x i (j + 1) := ⟨t, later, Nat.lt_succ_of_le le, .inr early⟩
    exact legs.unmarked marked running after le_rfl ((marked_after after inside marked unmarked).mpr ⟨released, raw⟩)
  · intro legs
    refine ⟨(legLoop_tracks x x.n).length, fun t => marked_raw, fun t => marked_first, ?_, ?_⟩
    · intro i j after marked_i marked_j unmarked
      have inside := marked_inside marked_j
      have released := ((marked_after after inside marked_i unmarked).mp marked_j).1
      exact legs.released (legs.legStart marked_i) after inside (marked_raw marked_j) released
    · intro i j after inside marked raw unmarked ended
      exact (marked_after after inside marked unmarked).mpr ⟨ended.released, raw⟩

theorem one_le_two_bars : 1 ≤ 2 := Nat.le_succ 1

/-- A raw bar, one lower bar and a raw bar beyond both: with a wait of two bars the last is marked again. -/
def oneQuietBar : LegInput where
  n := 3
  pivots := []
  long := true
  high := fun t => [some 10, some 9, some 11][t]?.join
  close := fun _ => some 9
  raw := fun t => t != 1
  failLevel := fun _ => some 8
  rearmBars := 2
  reset := none
  rearmBars_pos := one_le_two_bars

theorem oneQuietBar_marked_twice : ¬ OnePerLeg oneQuietBar (onePerLeg oneQuietBar) := by
  intro legs
  have first : Marked (onePerLeg oneQuietBar) 0 := by decide
  have third : Marked (onePerLeg oneQuietBar) 2 := by decide
  have between : Unmarked (onePerLeg oneQuietBar) 0 2 := by
    intro k after before
    obtain rfl : k = 1 := by omega
    decide
  obtain ⟨t, after, le, rearms⟩ := legs.apart 0 2 (by decide) first third between
  rcases rearms with ⟨pv, listed, -⟩ | ⟨x, x_eq, y, y_eq, less⟩ | set | ⟨long, none_new⟩
  · exact nomatch listed
  · obtain rfl := Option.some.inj x_eq
    obtain rfl := Option.some.inj y_eq
    exact absurd less (by decide)
  · exact nomatch set
  · obtain rfl : t = 2 := by
      have : 0 + 2 ≤ t := long
      omega
    refine none_new 2 le_rfl (by decide) ⟨by decide, by decide, ?_⟩
    intro w after before
    obtain rfl : w = 1 := by omega
    exact .inr (by decide)

end AdvanceTrading.Breakouts
