import AdvanceTrading.Trading.TriggerRules
import Mathlib.Data.List.Sort
import Mathlib.Data.Prod.Lex

/-!
# Losses in a row

Model of `app/risk_engine/loss_streak.py:33-119` (the counter both backtest
engines call) and of `app/trading/persistence.py:152-184` (the live count, read
from the stored trades). Instants are microseconds; a P&L is `none` until the
trade has one.

The two counts are compared on one run of closes and IST session rolls: the
backtest counter keeps no history, so its state is coupled with the closes so
far, newest first. `new_session` starts the count again but keeps the instant of
a loss of an earlier session, which the live query no longer sees. The query orders
by the exit time alone, so the order of closes with one exit time is a parameter of
the live count.
-/

namespace AdvanceTrading.RiskEngine

open TriggerRules (istDay istOffset dayUs minuteUs)

/-- `PAUSE_MODES`. -/
inductive PauseMode where
  | nextSession
  | untilResume
  deriving DecidableEq, Repr

/-- The stored word, `NEXT_SESSION` for anything else (`loss_streak.py:78`, `persistence.py:160`). -/
def PauseMode.ofText : Option String → PauseMode
  | some "until_resume" => .untilResume
  | _ => .nextSession

/-- A trade's P&L with the instant it closed. -/
abbrev Close := Option ℚ × Int

/-- `is_loss` (`loss_streak.py:43-45`). -/
def isLoss : Option ℚ → Bool
  | none => false
  | some pnl => pnl ≤ 0

/-- `streak_of` (`loss_streak.py:48-55`). -/
def streakOf : List (Option ℚ) → Nat
  | [] => 0
  | pnl :: older => if isLoss pnl then streakOf older + 1 else 0

/-- `counted_since` (`loss_streak.py:58-63`). -/
def countedSince (mode : PauseMode) (sessionStart : Int) (resumedAt : Option Int) : Option Int :=
  match mode with
  | .untilResume => resumedAt
  | .nextSession => some sessionStart

/-- `is_paused` (`loss_streak.py:66-68`). -/
def isPaused (lossesInARow : Nat) : Option Int → Bool
  | none => false
  | some limit => limit ≤ lossesInARow

/-- `trading_day_start` (`app/market_data/calendar.py:92-97`). -/
def tradingDayStart (now : Int) : Int := istDay now * dayUs - istOffset

/-- `BacktestLossStreak`. -/
structure BacktestLossStreak where
  mode : PauseMode
  limit : Option Int
  count : Nat := 0
  pauses : Nat := 0
  firstPausedAt : Option Int := none
  lastLossAt : Option Int := none
  deriving DecidableEq, Repr

namespace BacktestLossStreak

/-- `new_session` (`loss_streak.py:82-86`); the count to use is the new `count`. -/
def newSession (s : BacktestLossStreak) : BacktestLossStreak :=
  match s.mode with
  | .nextSession => { s with count := 0 }
  | .untilResume => s

/-- `closed` (`loss_streak.py:88-96`). -/
def closed (s : BacktestLossStreak) (pnl : Option ℚ) (at_ : Int) : BacktestLossStreak :=
  let count := if isLoss pnl then s.count + 1 else 0
  let reached := s.limit = some (count : Int)
  { s with
    count := count
    lastLossAt := if count = 0 then none else some at_
    pauses := if reached then s.pauses + 1 else s.pauses
    firstPausedAt := if reached then s.firstPausedAt.or (some at_) else s.firstPausedAt }

end BacktestLossStreak

/-- The columns of `TradeRecord` the live count reads. -/
structure TradeExit where
  tenantId : Nat
  pnl : Option ℚ
  exitTime : Option Int
  deriving DecidableEq, Repr

/-- The columns of `RiskSettingsRecord` the live count reads. -/
structure PauseSettings where
  lossStreakPause : Option String
  lossStreakResumedAt : Option Int
  maxConsecutiveLosses : Option Int
  deriving DecidableEq, Repr

/-- `_pause_settings` (`persistence.py:152-161`). -/
def pauseSettings : Option PauseSettings → PauseMode × Option Int × Option Int
  | none => (.nextSession, none, none)
  | some row => (PauseMode.ofText row.lossStreakPause, row.lossStreakResumedAt, row.maxConsecutiveLosses)

/-- The answer of `loss_streak_count`. -/
structure LossStreakCount where
  mode : PauseMode
  lossesInARow : Nat
  countedSince : Option Int
  resumedAt : Option Int
  sessionStart : Int
  savedLimit : Option Int
  lastLossAt : Option Int
  deriving DecidableEq, Repr

/-- `exit_time >= since` in the session's window, `exit_time > since` after a resume. -/
def inWindow (mode : PauseMode) (since : Option Int) (close : Close) : Bool :=
  match since with
  | none => true
  | some start => if mode = .nextSession then start ≤ close.2 else start < close.2

/-- `max(20, (limit or 0) + 1)`. -/
def rowBound (limit : Option Int) : Nat := (max 20 (limit.getD 0 + 1)).toNat

/-- The closed trades of a tenant. -/
def closesOf (tenantId : Nat) (trades : List TradeExit) : List Close :=
  (trades.filter fun t => t.tenantId = tenantId).filterMap fun t => t.exitTime.map fun at_ => (t.pnl, at_)

/-- The later exit time first. -/
def Newest (a b : Close) : Prop := b.2 ≤ a.2

/-- What `ORDER BY exit_time DESC` may answer: two closes with one exit time in either order. -/
def ByExitTime (order : List Close → List Close) : Prop :=
  ∀ closes, (order closes).Perm closes ∧ (order closes).Pairwise Newest

/-- `loss_streak_count` (`persistence.py:168-184`), of rows that come in this order. -/
def lossStreakCount (order : List Close → List Close) (settings : Option PauseSettings)
    (tenantId : Nat) (now : Int) (trades : List TradeExit) : LossStreakCount :=
  let (mode, resumedAt, limit) := pauseSettings settings
  let since := countedSince mode (tradingDayStart now) resumedAt
  let window := (closesOf tenantId trades).filter (inWindow mode since)
  let rows := (order window).take (rowBound limit)
  let count := streakOf (rows.map Prod.fst)
  { mode := mode
    lossesInARow := count
    countedSince := since
    resumedAt := resumedAt
    sessionStart := tradingDayStart now
    savedLimit := limit
    lastLossAt := if 0 < count then rows.head?.map Prod.snd else none }

/-! ## One run of a backtest -/

/-- What a run tells the counter. -/
inductive SessionEvent where
  | rolled (now : Int)
  | closed (pnl : Option ℚ) (at_ : Int)
  deriving DecidableEq, Repr

/-- The instant of an event. -/
def SessionEvent.instant : SessionEvent → Int
  | .rolled now => now
  | .closed _ at_ => at_

/-- The counter after one event (`app/backtest/engine.py:126-134`, `:196`). -/
def BacktestLossStreak.feed (s : BacktestLossStreak) : SessionEvent → BacktestLossStreak
  | .rolled _ => s.newSession
  | .closed pnl at_ => s.closed pnl at_

/-- The trade an event stores. -/
def SessionEvent.stored (tenantId : Nat) : SessionEvent → Option TradeExit
  | .rolled _ => none
  | .closed pnl at_ => some ⟨tenantId, pnl, some at_⟩

/-- Instants do not run backwards, and the session rolls exactly where the IST day does. -/
def Chronological (clock : Int) : List SessionEvent → Prop
  | [] => True
  | e :: es =>
      clock ≤ e.instant ∧
      (match e with
        | .rolled now => istDay clock < istDay now
        | .closed _ at_ => istDay at_ = istDay clock) ∧
      Chronological e.instant es

/-- The instant a run has reached. -/
def clockAfter (clock : Int) (events : List SessionEvent) : Int :=
  (events.getLast?.map SessionEvent.instant).getD clock

/-! ## The coupling -/

/-- The closes a counter in this mode counts in the session of `day`. -/
def counted (mode : PauseMode) (day : Int) (history : List Close) : List Close :=
  match mode with
  | .untilResume => history
  | .nextSession => history.filter fun c => istDay c.2 = day

/-- The instant of the newest close, if that close is a loss. -/
def newestLoss (history : List Close) : Option Int :=
  (history.head?.filter fun c => isLoss c.1).map Prod.snd

/-- The counter after a run that closed `history`, newest first, up to `clock`. -/
structure Coupled (clock : Int) (history : List Close) (s : BacktestLossStreak) : Prop where
  ordered : history.Pairwise Newest
  past : ∀ c ∈ history, c.2 ≤ clock
  count : s.count = streakOf ((counted s.mode (istDay clock) history).map Prod.fst)
  lastLoss : s.lastLossAt = newestLoss history

theorem istDay_mono {a b : Int} (le : a ≤ b) : istDay a ≤ istDay b := by
  unfold istDay dayUs minuteUs
  omega

/-- The session of an instant starts with its IST day. -/
theorem tradingDayStart_le {now t : Int} : tradingDayStart now ≤ t ↔ istDay now ≤ istDay t := by
  unfold tradingDayStart istDay dayUs minuteUs
  omega

@[simp] theorem newSession_mode (s : BacktestLossStreak) : s.newSession.mode = s.mode := by
  cases mode : s.mode <;> simp [BacktestLossStreak.newSession, mode]

@[simp] theorem newSession_lastLossAt (s : BacktestLossStreak) :
    s.newSession.lastLossAt = s.lastLossAt := by
  cases mode : s.mode <;> simp [BacktestLossStreak.newSession, mode]

/-- The history after an event. -/
def SessionEvent.extend (history : List Close) : SessionEvent → List Close
  | .rolled _ => history
  | .closed pnl at_ => (pnl, at_) :: history

variable {s : BacktestLossStreak} {history : List Close} {clock : Int}

section

variable (c : Coupled clock history s)
include c

theorem Coupled.roll {now : Int} (forward : clock ≤ now) (rolls : istDay clock < istDay now) :
    Coupled now history s.newSession where
  ordered := c.ordered
  past := fun close mem => le_trans (c.past close mem) forward
  count := by
    have start := c.count
    cases mode : s.mode with
    | untilResume => simpa [BacktestLossStreak.newSession, mode, counted] using start
    | nextSession =>
      have gone : history.filter (fun c => istDay c.2 = istDay now) = [] := by
        apply List.filter_eq_nil_iff.mpr
        intro close mem
        have earlier := istDay_mono (c.past close mem)
        simp only [decide_eq_true_eq]
        omega
      simp [BacktestLossStreak.newSession, mode, counted, gone, streakOf]
  lastLoss := by rw [newSession_lastLossAt, c.lastLoss]

theorem Coupled.close {at_ : Int} {pnl : Option ℚ}
    (forward : clock ≤ at_) (stays : istDay at_ = istDay clock) :
    Coupled at_ ((pnl, at_) :: history) (s.closed pnl at_) where
  ordered := by
    refine List.pairwise_cons.mpr ⟨?_, c.ordered⟩
    intro close mem
    exact le_trans (c.past close mem) forward
  past := by
    intro close mem
    obtain rfl | older := List.mem_cons.mp mem
    · exact le_refl _
    · exact le_trans (c.past close older) forward
  count := by
    have start := c.count
    have same : (s.closed pnl at_).mode = s.mode := rfl
    have added : counted s.mode (istDay at_) ((pnl, at_) :: history) =
        (pnl, at_) :: counted s.mode (istDay clock) history := by
      cases s.mode with
      | untilResume => rfl
      | nextSession => simp [counted, stays]
    rw [same, added, List.map_cons, streakOf, ← start]
    rfl
  lastLoss := by
    cases loss : isLoss pnl <;> simp [BacktestLossStreak.closed, newestLoss, loss]

/-- One event keeps the coupling. -/
theorem Coupled.feed {e : SessionEvent} {es : List SessionEvent}
    (chronological : Chronological clock (e :: es)) :
    Coupled e.instant (e.extend history) (s.feed e) := by
  obtain ⟨forward, day, -⟩ := chronological
  cases e with
  | rolled now => exact c.roll forward day
  | closed pnl at_ => exact c.close forward day

/-- A chronological run keeps the coupling. -/
theorem Coupled.run {events : List SessionEvent} (chronological : Chronological clock events) :
    Coupled (clockAfter clock events) (events.foldl SessionEvent.extend history)
      (events.foldl BacktestLossStreak.feed s) := by
  induction events generalizing clock history s with
  | nil => exact c
  | cons e es ih =>
    have rest := ih (c.feed chronological) chronological.2.2
    have clocks : clockAfter clock (e :: es) = clockAfter e.instant es := by
      unfold clockAfter
      rw [List.getLast?_cons]
      cases es.getLast? <;> rfl
    rw [clocks]
    exact rest

end

theorem Coupled.start (clock : Int) (mode : PauseMode) (limit : Option Int) :
    Coupled clock [] { mode := mode, limit := limit } where
  ordered := .nil
  past := by simp
  count := by cases mode <;> rfl
  lastLoss := rfl

/-- No event changes the choice. -/
theorem feed_mode (events : List SessionEvent) (s : BacktestLossStreak) :
    (events.foldl BacktestLossStreak.feed s).mode = s.mode := by
  induction events generalizing s with
  | nil => rfl
  | cons e es ih =>
    rw [List.foldl_cons, ih]
    cases e with
    | rolled now => exact newSession_mode s
    | closed pnl at_ => rfl

/-! ## The live count of the same run -/

/-- The close an event is. -/
def SessionEvent.close? : SessionEvent → Option Close
  | .rolled _ => none
  | .closed pnl at_ => some (pnl, at_)

/-- The trades a run stores. -/
def storedTrades (tenantId : Nat) (events : List SessionEvent) : List TradeExit :=
  events.filterMap (SessionEvent.stored tenantId)

theorem closesOf_storedTrades (tenantId : Nat) (events : List SessionEvent) :
    closesOf tenantId (storedTrades tenantId events) = events.filterMap SessionEvent.close? := by
  unfold closesOf storedTrades
  induction events with
  | nil => rfl
  | cons e es ih =>
    cases e with
    | rolled now => simpa [List.filterMap_cons, SessionEvent.stored, SessionEvent.close?] using ih
    | closed pnl at_ => simpa [List.filterMap_cons, SessionEvent.stored, SessionEvent.close?] using ih

/-- The history is the closes of the run, newest first. -/
theorem foldl_extend (events : List SessionEvent) (history : List Close) :
    events.foldl SessionEvent.extend history =
      (events.filterMap SessionEvent.close?).reverse ++ history := by
  induction events generalizing history with
  | nil => rfl
  | cons e es ih =>
    rw [List.foldl_cons, ih]
    cases e with
    | rolled now => rfl
    | closed pnl at_ => simp [SessionEvent.extend, SessionEvent.close?]

/-- What the query keeps of a history is what the counter counts. -/
theorem window_counted {now : Int} (c : Coupled clock history s)
    (session : istDay now = istDay clock) (mode : PauseMode) :
    history.filter (inWindow mode (countedSince mode (tradingDayStart now) none)) =
      counted mode (istDay clock) history := by
  cases mode with
  | untilResume => exact List.filter_eq_self.mpr fun _ _ => rfl
  | nextSession =>
    apply List.filter_congr
    intro close mem
    have past := istDay_mono (c.past close mem)
    simp only [inWindow, countedSince, if_true, tradingDayStart_le, session]
    exact decide_eq_decide.mpr ⟨fun late => le_antisymm past late, ge_of_eq⟩

/-- A bounded query counts no more losses than it has rows. -/
theorem streakOf_take (pnls : List (Option ℚ)) (n : Nat) :
    streakOf (pnls.take n) = min (streakOf pnls) n := by
  induction pnls generalizing n with
  | nil => simp [streakOf]
  | cons pnl older ih =>
    cases n with
    | zero => simp [streakOf]
    | succ n =>
      cases loss : isLoss pnl with
      | false => simp [streakOf, loss]
      | true => simp [streakOf, loss, ih]

/-- The bound reaches every limit. -/
theorem isPaused_min_rowBound (count : Nat) (limit : Option Int) :
    isPaused (min count (rowBound limit)) limit = isPaused count limit := by
  cases limit with
  | none => rfl
  | some limit =>
    apply decide_eq_decide.mpr
    simp only [rowBound, Option.getD_some]
    omega

/-- The newest loss is where the streak begins. -/
theorem head_of_streak (window : List Close) (bound : Nat) (room : 0 < bound) :
    (if 0 < streakOf ((window.take bound).map Prod.fst) then (window.take bound).head?.map Prod.snd
      else none) = newestLoss window := by
  obtain ⟨n, rfl⟩ : ∃ n, bound = n + 1 := ⟨bound - 1, by omega⟩
  cases window with
  | nil => rfl
  | cons c older =>
    obtain ⟨pnl, at_⟩ := c
    cases loss : isLoss pnl <;> simp [newestLoss, streakOf, loss]

theorem rowBound_pos (limit : Option Int) : 0 < rowBound limit := by
  unfold rowBound
  omega

/-! ## Closes of one exit time -/

/-- The losses that closed after every close that is no loss, as `after` has it. -/
def lossesPast (after : Int → Int → Bool) (window : List Close) : Nat :=
  window.countP fun c => isLoss c.1 && window.all fun d => isLoss d.1 || after c.2 d.2

/-- The fewest losses in a row a query can answer: those that closed later than every other close. -/
def fewest (window : List Close) : Nat := lossesPast (fun c d => d < c) window

/-- The most losses in a row a query can answer: those that closed no earlier than any other close. -/
def most (window : List Close) : Nat := lossesPast (fun c d => d ≤ c) window

/-- The closes of one exit time decide nothing, in whatever order they come. -/
def TiesAlike (limit : Option Int) (window : List Close) : Prop :=
  isPaused (fewest window) limit = isPaused (most window) limit ∧ (0 < fewest window ↔ 0 < most window)

theorem lossesPast_perm (after : Int → Int → Bool) {rows window : List Close}
    (perm : rows.Perm window) : lossesPast after rows = lossesPast after window := by
  unfold lossesPast
  rw [perm.countP_eq]
  simp only [perm.all_eq]

/-- The losses a streak counts come first, then nothing or a close that ends it. -/
theorem streakOf_split (rows : List Close) : ∃ lead rest, rows = lead ++ rest ∧
    streakOf (rows.map Prod.fst) = lead.length ∧ (∀ c ∈ lead, isLoss c.1 = true) ∧
    ∀ d ∈ rest.head?, isLoss d.1 = false := by
  induction rows with
  | nil => exact ⟨[], [], rfl, rfl, by simp, by simp⟩
  | cons c rows ih =>
    obtain ⟨lead, rest, rfl, streak, losses, ends⟩ := ih
    cases loss : isLoss c.1 with
    | false => exact ⟨[], c :: (lead ++ rest), rfl, by simp [streakOf, loss], by simp, by simpa⟩
    | true =>
      refine ⟨c :: lead, rest, rfl, ?_, by simpa [loss] using losses, ends⟩
      rw [List.map_cons, streakOf, if_pos loss, streak, List.length_cons]

section Sorted

variable {r : Close → Close → Prop} {after : Int → Int → Bool} {rows window : List Close}

/-- Rows in an order that puts a loss before another close only where it is after it. -/
theorem streakOf_le_lossesPast (sorted : rows.Pairwise r)
    (apart : ∀ c d, isLoss c.1 = true → isLoss d.1 = false → r c d → after c.2 d.2 = true) :
    streakOf (rows.map Prod.fst) ≤ lossesPast after rows := by
  obtain ⟨lead, rest, split, streak, losses, -⟩ := streakOf_split rows
  have counts : ∀ c ∈ lead, (isLoss c.1 && rows.all fun d => isLoss d.1 || after c.2 d.2) = true := by
    intro c leads
    rw [losses c leads, Bool.true_and, List.all_eq_true]
    intro d mem
    cases other : isLoss d.1 with
    | true => rfl
    | false =>
      rw [split] at mem sorted
      rcases List.mem_append.mp mem with early | late
      · exact absurd (losses d early) (by simp [other])
      · exact apart c d (losses c leads) other ((List.pairwise_append.mp sorted).2.2 c leads d late)
  rw [streak, ← List.countP_eq_length.mpr counts]
  exact (split ▸ List.sublist_append_left lead rest : lead.Sublist rows).countP_le

/-- Rows in an order that puts another close before a loss only where that is not after it. -/
theorem lossesPast_le_streakOf (sorted : rows.Pairwise r)
    (apart : ∀ c d, isLoss c.1 = true → isLoss d.1 = false → r d c → after c.2 d.2 = false) :
    lossesPast after rows ≤ streakOf (rows.map Prod.fst) := by
  obtain ⟨lead, rest, split, streak, -, ends⟩ := streakOf_split rows
  have none_ : rest.countP (fun c => isLoss c.1 && rows.all fun d => isLoss d.1 || after c.2 d.2) = 0 := by
    apply List.countP_eq_zero.mpr
    intro c mem counts
    obtain ⟨loss, all⟩ := Bool.and_eq_true_iff.mp counts
    cases rest with
    | nil => cases mem
    | cons d later =>
      have other : isLoss d.1 = false := ends d rfl
      rcases List.mem_cons.mp mem with rfl | behind
      · simp [loss] at other
      · have passes := List.all_eq_true.mp all d (by simp [split])
        rw [split] at sorted
        have before := List.rel_of_pairwise_cons (List.pairwise_append.mp sorted).2.1 behind
        simp [other, apart c d loss other before] at passes
  rw [lossesPast, streak]
  calc rows.countP _ = lead.countP _ + rest.countP _ := by rw [← List.countP_append, ← split]
    _ ≤ lead.length := by rw [none_]; exact List.countP_le_length

/-- Whatever order the closes of one exit time come in, the streak is between the two counts. -/
theorem streakOf_between (perm : rows.Perm window) (sorted : rows.Pairwise Newest) :
    fewest window ≤ streakOf (rows.map Prod.fst) ∧ streakOf (rows.map Prod.fst) ≤ most window := by
  unfold fewest most
  rw [← lossesPast_perm _ perm, ← lossesPast_perm _ perm]
  constructor
  · refine lossesPast_le_streakOf sorted ?_
    intro c d _ _ (newer : c.2 ≤ d.2)
    simpa using newer
  · refine streakOf_le_lossesPast sorted ?_
    intro c d _ _ (newer : d.2 ≤ c.2)
    simpa using newer

/-- The rows of a query that answers of one exit time those first that `first` names. -/
def tieSort (first : Close → Bool) (closes : List Close) : List Close :=
  closes.insertionSort (Order.Preimage (fun c => toLex (c.2, first c)) (· ≥ ·))

theorem tieSort_sorted (first : Close → Bool) (closes : List Close) :
    (tieSort first closes).Pairwise fun a b => b.2 < a.2 ∨ b.2 = a.2 ∧ first b ≤ first a := by
  refine (List.pairwise_insertionSort
    (Order.Preimage (fun c => toLex (c.2, first c)) (· ≥ ·)) closes).imp ?_
  intro a b order
  exact Prod.Lex.toLex_le_toLex.mp order

theorem tieSort_byExitTime (first : Close → Bool) : ByExitTime (tieSort first) := by
  intro closes
  refine ⟨List.perm_insertionSort _ _, (tieSort_sorted first closes).imp ?_⟩
  rintro a b (later | ⟨same, -⟩)
  · exact later.le
  · exact same.le

/-- Both counts are answered: by the losses last and by the losses first. -/
theorem streakOf_tieSort (window : List Close) :
    streakOf ((tieSort (fun c => !isLoss c.1) window).map Prod.fst) = fewest window ∧
      streakOf ((tieSort (fun c => isLoss c.1) window).map Prod.fst) = most window := by
  obtain ⟨perm, newest⟩ := tieSort_byExitTime (fun c => !isLoss c.1) window
  obtain ⟨perm', newest'⟩ := tieSort_byExitTime (fun c => isLoss c.1) window
  constructor
  · refine le_antisymm ?_ (streakOf_between perm newest).1
    rw [fewest, ← lossesPast_perm _ perm]
    refine streakOf_le_lossesPast (tieSort_sorted _ _) ?_
    rintro c d loss other (later | ⟨-, named⟩)
    · simpa using later
    · rw [loss, other] at named
      exact absurd named (by decide)
  · refine le_antisymm (streakOf_between perm' newest').2 ?_
    rw [most, ← lossesPast_perm _ perm']
    refine lossesPast_le_streakOf (tieSort_sorted _ _) ?_
    rintro c d loss other (later | ⟨-, named⟩)
    · simpa using later
    · rw [loss, other] at named
      exact absurd named (by decide)

end Sorted

theorem newestLoss_eq (rows : List Close) :
    newestLoss rows = if 0 < streakOf (rows.map Prod.fst) then rows.head?.map Prod.snd else none := by
  cases rows with
  | nil => rfl
  | cons c older => cases loss : isLoss c.1 <;> simp [newestLoss, streakOf, Option.filter, loss]

variable {limit : Option Int}

theorem isPaused_mono {a b : Nat} (le : a ≤ b) (paused : isPaused a limit = true) :
    isPaused b limit = true := by
  cases limit with
  | none => cases paused
  | some limit =>
    simp only [isPaused, decide_eq_true_eq] at paused ⊢
    omega

/-- Where ties decide nothing, any two queries of one window answer alike. -/
theorem TiesAlike.answers {rows others window : List Close} (ties : TiesAlike limit window)
    (perm : rows.Perm window) (perm' : others.Perm window) (sorted : rows.Pairwise Newest)
    (sorted' : others.Pairwise Newest) :
    isPaused (streakOf (rows.map Prod.fst)) limit = isPaused (streakOf (others.map Prod.fst)) limit ∧
      newestLoss rows = newestLoss others := by
  obtain ⟨pause, streak⟩ := ties
  obtain ⟨low, high⟩ := streakOf_between perm sorted
  obtain ⟨low', high'⟩ := streakOf_between perm' sorted'
  have alike : ∀ a, fewest window ≤ a → a ≤ most window →
      isPaused a limit = isPaused (most window) limit := by
    intro a low high
    apply Bool.eq_iff_iff.mpr
    exact ⟨isPaused_mono high, fun paused => isPaused_mono low (pause.trans paused)⟩
  have counted : 0 < streakOf (rows.map Prod.fst) ↔ 0 < streakOf (others.map Prod.fst) := by omega
  -- the exit times come in one order
  have times : rows.map Prod.snd = others.map Prod.snd := by
    refine ((perm.trans perm'.symm).map Prod.snd).eq_of_pairwise' (r := (· ≥ ·)) ?_ ?_
    · exact List.pairwise_map.mpr sorted
    · exact List.pairwise_map.mpr sorted'
  refine ⟨(alike _ low high).trans (alike _ low' high').symm, ?_⟩
  rw [newestLoss_eq, newestLoss_eq, ← List.head?_map, times, List.head?_map]
  simp only [counted]

/-- Ties decide nothing where the rows with the losses last and with the losses first answer alike. -/
theorem tiesAlike_of_sorts {window : List Close}
    (pause : isPaused (fewest window) limit = isPaused (most window) limit)
    (loss : newestLoss (tieSort (fun c => !isLoss c.1) window) = newestLoss (tieSort (fun c => isLoss c.1) window)) :
    TiesAlike limit window := by
  obtain ⟨few, many⟩ := streakOf_tieSort window
  obtain ⟨perm, newest⟩ := tieSort_byExitTime (fun c => !isLoss c.1) window
  have le := few ▸ (streakOf_between perm newest).2
  refine ⟨pause, fun some_ => some_.trans_le le, fun some_ => ?_⟩
  by_contra none_
  rw [newestLoss_eq, newestLoss_eq, few, many, if_neg none_, if_pos some_] at loss
  -- a window with a streak has a first row
  cases rows : tieSort (fun c => isLoss c.1) window with
  | nil =>
    rw [rows] at many
    exact absurd some_ (by simp [← many, streakOf])
  | cons c older => simp [rows] at loss

/-- The settings of a trader who never resumed. -/
def neverResumed (pause : Option String) (limit : Option Int) : Option PauseSettings :=
  some ⟨pause, none, limit⟩

/-- The counter of a backtest with these settings, after its events. -/
def backtestStreak (pause : Option String) (limit : Option Int) (events : List SessionEvent) :
    BacktestLossStreak :=
  events.foldl BacktestLossStreak.feed { mode := PauseMode.ofText pause, limit := limit }

section Run

variable (pause : Option String) (limit : Option Int) (tenantId : Nat) {opening now : Int}
  {events : List SessionEvent}

/-- The closes of a run, newest first. -/
def historyOf (events : List SessionEvent) : List Close :=
  (events.filterMap SessionEvent.close?).reverse

theorem coupled_backtest (chronological : Chronological opening events) :
    Coupled (clockAfter opening events) (historyOf events) (backtestStreak pause limit events) := by
  have coupled := (Coupled.start opening (PauseMode.ofText pause) limit).run chronological
  rw [foldl_extend, List.append_nil] at coupled
  exact coupled

/-- The closes of a run that the live count sees. -/
def seenCloses (pause : Option String) (now : Int) (events : List SessionEvent) : List Close :=
  let mode := PauseMode.ofText pause
  (events.filterMap SessionEvent.close?).filter
    (inWindow mode (countedSince mode (tradingDayStart now) none))

/-- The closes seen are those the backtest counts. -/
theorem seenCloses_perm (chronological : Chronological opening events)
    (session : istDay now = istDay (clockAfter opening events)) :
    (counted (PauseMode.ofText pause) (istDay (clockAfter opening events)) (historyOf events)).Perm
      (seenCloses pause now events) := by
  rw [← window_counted (coupled_backtest pause none chronological) session (PauseMode.ofText pause),
    historyOf, List.filter_reverse]
  exact List.reverse_perm _

theorem counted_sorted (chronological : Chronological opening events) :
    (counted (PauseMode.ofText pause) (istDay (clockAfter opening events))
      (historyOf events)).Pairwise Newest := by
  have ordered := (coupled_backtest pause none chronological).ordered
  cases PauseMode.ofText pause with
  | untilResume => exact ordered
  | nextSession => exact ordered.filter _

/-- The live count of a run by the rows its query answers, up to its bound. -/
theorem lossStreakCount_run (order : List Close → List Close) (now : Int)
    (events : List SessionEvent) : let rows := order (seenCloses pause now events)
    let live := lossStreakCount order (neverResumed pause limit) tenantId now
      (storedTrades tenantId events)
    live.lossesInARow = min (streakOf (rows.map Prod.fst)) (rowBound limit) ∧
      live.lastLossAt = newestLoss rows := by
  intro rows live
  have read : rows = order ((closesOf tenantId (storedTrades tenantId events)).filter
      (inWindow (PauseMode.ofText pause)
        (countedSince (PauseMode.ofText pause) (tradingDayStart now) none))) := by
    rw [closesOf_storedTrades]
    rfl
  constructor
  · show streakOf (((order _).take (rowBound limit)).map Prod.fst) = _
    rw [← read, List.map_take, streakOf_take]
  · rw [← head_of_streak rows _ (rowBound_pos limit), read]
    rfl

/-- The newest close is a loss of an earlier session, and a session ends the streak. -/
def CarriedLoss (pause : Option String) (now : Int) (events : List SessionEvent) : Prop :=
  PauseMode.ofText pause = .nextSession ∧
    ∃ pnl at_, (events.filterMap SessionEvent.close?).getLast? = some (pnl, at_) ∧
      isLoss pnl = true ∧ at_ < tradingDayStart now

/-- The counted closes have the history's newest loss, unless that loss is carried over. -/
theorem newestLoss_counted (c : Coupled clock history s) (session : istDay now = istDay clock) :
    newestLoss (counted .nextSession (istDay clock) history) = newestLoss history ↔
      ¬ ∃ pnl at_, history.head? = some (pnl, at_) ∧ isLoss pnl = true ∧
        at_ < tradingDayStart now := by
  cases history with
  | nil => simp [counted]
  | cons newest older =>
    obtain ⟨pnl, at_⟩ := newest
    have past := istDay_mono (c.past _ List.mem_cons_self)
    by_cases today : istDay at_ = istDay clock
    · have started : tradingDayStart now ≤ at_ := tradingDayStart_le.mpr (by omega)
      simp [counted, newestLoss, today, not_lt.mpr started]
    · have ended : at_ < tradingDayStart now :=
        not_le.mp fun started => today (le_antisymm past (session ▸ tradingDayStart_le.mp started))
      have none_today : counted .nextSession (istDay clock) ((pnl, at_) :: older) = [] := by
        apply List.filter_eq_nil_iff.mpr
        intro close mem
        have before : close.2 ≤ at_ := by
          obtain rfl | later := List.mem_cons.mp mem
          · exact le_refl _
          · exact List.rel_of_pairwise_cons c.ordered later
        have day := istDay_mono before
        simp only [decide_eq_true_eq]
        simp only at past
        omega
      rw [none_today]
      cases loss : isLoss pnl <;> simp [newestLoss, loss, ended]

/-- The two sides answer alike: they pause alike, and name one newest loss. -/
def CountAlike (order : List Close → List Close) (pause : Option String) (limit : Option Int)
    (tenantId : Nat) (now : Int) (events : List SessionEvent) : Prop :=
  let live := lossStreakCount order (neverResumed pause limit) tenantId now
    (storedTrades tenantId events)
  let backtest := backtestStreak pause limit events
  isPaused backtest.count limit = isPaused live.lossesInARow limit ∧
    backtest.lastLossAt = live.lastLossAt

end Run

/-- Backtest and live count alike, in whatever order the query answers closes of one exit time,
exactly until a session rolls over a run's newest loss or such closes decide the answer. -/
theorem countAlike_iff (pause : Option String) (limit : Option Int) (tenantId : Nat)
    (opening now : Int) (events : List SessionEvent) (chronological : Chronological opening events)
    (session : istDay now = istDay (clockAfter opening events)) :
    (∀ order, ByExitTime order → CountAlike order pause limit tenantId now events) ↔
      ¬ CarriedLoss pause now events ∧ TiesAlike limit (seenCloses pause now events) := by
  have coupled := coupled_backtest pause limit chronological
  have mode : (backtestStreak pause limit events).mode = PauseMode.ofText pause := feed_mode events _
  have perm := seenCloses_perm pause chronological session
  have sorted := counted_sorted pause chronological
  set window := seenCloses pause now events
  set kept := counted (PauseMode.ofText pause) (istDay (clockAfter opening events)) (historyOf events)
    with kept_eq
  have alike (order : List Close → List Close) :
      CountAlike order pause limit tenantId now events ↔
        isPaused (streakOf (kept.map Prod.fst)) limit =
            isPaused (streakOf ((order window).map Prod.fst)) limit ∧
          newestLoss (historyOf events) = newestLoss (order window) := by
    obtain ⟨streak, loss⟩ := lossStreakCount_run pause limit tenantId order now events
    unfold CountAlike
    dsimp only
    rw [streak, loss, isPaused_min_rowBound, coupled.count, mode, coupled.lastLoss]
  -- the loss a session has carried over is in no row
  have carried : ¬ CarriedLoss pause now events ↔ newestLoss kept = newestLoss (historyOf events) := by
    unfold CarriedLoss
    rw [kept_eq]
    cases choice : PauseMode.ofText pause with
    | untilResume => simp [counted]
    | nextSession =>
      rw [newestLoss_counted coupled session, historyOf, List.head?_reverse]
      simp
  rw [carried]
  constructor
  · intro always
    obtain ⟨few, many⟩ := streakOf_tieSort window
    have last := tieSort_byExitTime fun c => !isLoss c.1
    obtain ⟨pauses, losses⟩ := (alike _).mp (always _ last)
    obtain ⟨pauses', losses'⟩ := (alike _).mp (always _ (tieSort_byExitTime fun c => isLoss c.1))
    rw [few] at pauses
    rw [many] at pauses'
    have ties : TiesAlike limit window :=
      tiesAlike_of_sorts (pauses.symm.trans pauses') (losses.symm.trans losses')
    exact ⟨(ties.answers perm (last window).1 sorted (last window).2).2.trans losses.symm, ties⟩
  · rintro ⟨same, ties⟩ order byTime
    obtain ⟨pauses, losses⟩ := ties.answers perm (byTime window).1 sorted (byTime window).2
    exact (alike order).mpr ⟨pauses, same.symm.trans losses⟩

/-- Ten in the morning of the first IST day of the epoch, in microseconds. -/
def lossAt : Int := 270 * minuteUs

/-- A loss, and the roll to the next day. -/
def lossThenRoll : List SessionEvent := [.closed (some (-100)) lossAt, .rolled (lossAt + dayUs)]

/-- A win and a loss that one pass closes, and a loss after them. -/
def winThenLosses : List SessionEvent :=
  [.closed (some 50) lossAt, .closed (some (-100)) lossAt, .closed (some (-20)) (lossAt + minuteUs)]

/-- The last loss pauses in both counts, whichever close of the pass before it the query answers first. -/
theorem countAlike_same_day :
    CountAlike (tieSort fun c => isLoss c.1) (some "next_session") (some 1) 1 (lossAt + minuteUs)
        winThenLosses ∧
      CountAlike (tieSort fun c => !isLoss c.1) (some "next_session") (some 1) 1 (lossAt + minuteUs)
        winThenLosses := by
  have alike := (countAlike_iff (some "next_session") (some 1) 1 lossAt (lossAt + minuteUs) winThenLosses
    ⟨by decide, rfl, by decide, rfl, by decide, rfl, trivial⟩ (by decide)).mpr (by
      refine ⟨?_, by decide +kernel, by decide +kernel⟩
      rintro ⟨-, pnl, at_, newest, -, before⟩
      simp only [winThenLosses, List.filterMap_cons, SessionEvent.close?, List.filterMap_nil,
        List.getLast?_cons_cons, List.getLast?_singleton, Option.some.injEq, Prod.mk.injEq] at newest
      obtain ⟨-, rfl⟩ := newest
      exact absurd before (by decide))
  exact ⟨alike _ (tieSort_byExitTime _), alike _ (tieSort_byExitTime _)⟩

/-- After the roll the backtest still names the loss, the live count names none. -/
theorem carried_loss_differs :
    Chronological lossAt lossThenRoll ∧
    istDay (lossAt + dayUs) = istDay (clockAfter lossAt lossThenRoll) ∧
    ∀ order, ByExitTime order →
      ¬ CountAlike order (some "next_session") (some 3) 1 (lossAt + dayUs) lossThenRoll := by
  refine ⟨⟨by decide, by decide, by decide, by decide, trivial⟩, by decide, ?_⟩
  rintro order byTime ⟨-, same⟩
  have none_ : order [] = [] := List.perm_nil.mp (byTime []).1
  have live := (lossStreakCount_run (some "next_session") (some 3) 1 order (lossAt + dayUs)
    lossThenRoll).2
  have seen : seenCloses (some "next_session") (lossAt + dayUs) lossThenRoll = [] := by decide +kernel
  rw [seen, none_] at live
  rw [live] at same
  exact absurd same (by decide +kernel)

end AdvanceTrading.RiskEngine
