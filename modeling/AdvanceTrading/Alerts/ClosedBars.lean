import AdvanceTrading.MarketData.Calendar
import AdvanceTrading.Misc.Months
import AdvanceTrading.Screener.Nodes
import Mathlib.Data.List.TakeWhile

/-!
# Closed bars on the exchange clock

Model of `expected_bar` and `forming_bar` (`app/alerts/barclose.py:79-143`), of
`app/alerts/periods.py` and of the age of an alert's data (`app/alerts/staleness.py:53-108`).
Instants are microseconds from the epoch in UTC, a day is counted from the epoch in exchange time.
-/

namespace AdvanceTrading.BarClose

open MarketData (dayStart exchangeSessions)
open TriggerRules (minuteUs dayUs istOffset istDay)
open Screener (Timeframe)

/-! ## Sessions -/

/-- `is_trading_day`: Monday to Friday, and no holiday. -/
def isTradingDay (holidays : List ℤ) (day : ℤ) : Bool := decide ((day + 3) % 7 < 5 ∧ day ∉ holidays)

/-- `_session_bounds`, the open. -/
def opensAt (day : ℤ) : ℤ := dayStart day + (exchangeSessions .nse).opens

/-- `_session_bounds`, the close. -/
def closesAt (day : ℤ) : ℤ := dayStart day + (exchangeSessions .nse).close

/-- `INTRADAY`. -/
def intradayMinutes : Timeframe → Option ℕ
  | .m1 => some 1
  | .m3 => some 3
  | .m5 => some 5
  | .m15 => some 15
  | .m30 => some 30
  | .h1 => some 60
  | .d1 | .w1 | .mo1 => none

/-- `PERIODS`. -/
def isPeriod (tf : Timeframe) : Bool := decide (tf = .w1 ∨ tf = .mo1)

/-- The starts of a session's bars, from the open. -/
def sessionBars (minutes : ℕ) (day : ℤ) : List ℤ :=
  ((List.range 375).map fun k : ℕ => opensAt day + k * (minutes * minuteUs)).takeWhile fun start => start < closesAt day

/-- The close of a session's bar; the last may be short. -/
def sessionBarClose (minutes : ℕ) (day start : ℤ) : ℤ := min (start + minutes * minuteUs) (closesAt day)

/-- `_last_intraday_bar`. -/
def lastIntradayBar (minutes : ℕ) (day now : ℤ) : Option ℤ :=
  ((sessionBars minutes day).takeWhile fun start => sessionBarClose minutes day start ≤ now).getLast?

/-- The latest bar of a trading day that has closed. -/
def closedOn (tf : Timeframe) (day now : ℤ) : Option ℤ :=
  match intradayMinutes tf with
  | some minutes => lastIntradayBar minutes day now
  | none => if closesAt day ≤ now then some (opensAt day) else none

/-- The walk of `expected_bar` back over weekends and holidays; all of an earlier day had closed. -/
def walkBack (holidays : List ℤ) (tf : Timeframe) : ℕ → ℤ → ℤ → Option ℤ
  | 0, _, _ => none
  | n + 1, day, now =>
      match if isTradingDay holidays day then closedOn tf day now else none with
      | some bar => some bar
      | none => walkBack holidays tf n (day - 1) (closesAt (day - 1))

/-! ## Weeks and months -/

/-- `period_start`. -/
def periodStart (tf : Timeframe) (day : ℤ) : ℤ :=
  if tf = .w1 then day - (day + 3) % 7 else Months.monthStart (Months.monthOf day)

/-- `period_end`. -/
def periodEnd (tf : Timeframe) (day : ℤ) : ℤ :=
  if tf = .w1 then periodStart tf day + 6 else Months.monthStart (Months.monthOf day + 1) - 1

/-- `last_session`. -/
def lastSession (holidays : List ℤ) (tf : Timeframe) (day : ℤ) : Option ℤ :=
  ((List.range (periodEnd tf day - periodStart tf day + 1).toNat).map fun k : ℕ =>
    periodEnd tf day - k).find? (isTradingDay holidays)

/-- `label`. -/
def label (tf : Timeframe) (day : ℤ) : ℤ := dayStart (periodStart tf day)

/-- The periods of `latest_closed`, from that of a day. -/
def latestClosedFrom (holidays : List ℤ) (tf : Timeframe) (now : ℤ) : ℕ → ℤ → Option (ℤ × ℤ)
  | 0, _ => none
  | n + 1, day =>
      match (lastSession holidays tf day).filter fun last => closesAt last ≤ now with
      | some last => some (label tf day, last)
      | none => latestClosedFrom holidays tf now n (periodStart tf day - 1)

/-- `latest_closed`, with `MAX_PERIODS_BACK`. -/
def latestClosed (holidays : List ℤ) (tf : Timeframe) (now : ℤ) : Option (ℤ × ℤ) :=
  latestClosedFrom holidays tf now 12 (istDay now)

/-- The loop of `closed_after`; the days it has left bound its turns. -/
def closedAfter (holidays : List ℤ) (tf : Timeframe) (now : ℤ) (cap : ℕ) : ℕ → ℤ → ℕ → ℕ
  | 0, _, count => count
  | n + 1, day, count =>
      if count < cap ∧ day ≤ istDay now then
        closedAfter holidays tf now cap n (periodEnd tf day + 1)
          (count + if (lastSession holidays tf day).any fun last => closesAt last ≤ now then 1 else 0)
      else count

/-! ## The bar of an instant -/

/-- `expected_bar`. -/
def expectedBar (holidays : List ℤ) (now : ℤ) (tf : Timeframe) : Option ℤ :=
  if isPeriod tf then (latestClosed holidays tf now).map Prod.fst else walkBack holidays tf 15 (istDay now) now

/-- `forming_bar`. -/
def formingBar (holidays : List ℤ) (now : ℤ) (tf : Timeframe) : Option ℤ :=
  let day := istDay now
  if isPeriod tf ∨ isTradingDay holidays day = false ∨ now < opensAt day ∨ closesAt day ≤ now then none
  else
    match intradayMinutes tf with
    | none => some (opensAt day)
    | some minutes => some (opensAt day + (now - opensAt day) / (minutes * minuteUs) * (minutes * minuteUs))

/-! ## The age of data -/

/-- The bars of a session that started after `start` and have closed, counted up to a cap. -/
def countBars (minutes : ℕ) (day now start : ℤ) (cap : ℕ) : List ℤ → ℕ → ℕ
  | [], count => count
  | bar :: bars, count =>
      if sessionBarClose minutes day bar ≤ now ∧ count < cap then
        countBars minutes day now start cap bars (count + if start < bar then 1 else 0)
      else count

/-- The days of `closed_bars_after`; one further back than the walk is as stale as it gets. -/
def countDays (holidays : List ℤ) (tf : Timeframe) (now start : ℤ) (cap : ℕ) : ℕ → ℤ → ℕ → ℕ
  | 0, _, count => max count cap
  | n + 1, day, count =>
      if istDay now < day ∨ cap ≤ count then count
      else
        countDays holidays tf now start cap n (day + 1) <|
          if isTradingDay holidays day then
            match intradayMinutes tf with
            | none => count + if istDay start < day ∧ closesAt day ≤ now then 1 else 0
            | some minutes => countBars minutes day now start cap (sessionBars minutes day) count
          else count

/-- `closed_bars_after`. -/
def closedBarsAfter (holidays : List ℤ) (start : ℤ) (tf : Timeframe) (now : ℤ) (cap : ℕ) : ℕ :=
  if isPeriod tf then
    let day := periodEnd tf (istDay start) + 1
    closedAfter holidays tf now cap (istDay now - day + 1).toNat day 0
  else countDays holidays tf now start cap 40 (istDay start) 0

/-- `alert_badge`: whether alerts on a bar are suppressed. A bar without a time fails. -/
def alertsSuppressed (holidays : List ℤ) (limit : ℤ) (start : Option ℤ) (tf : Timeframe) (now : ℤ) : Bool :=
  if limit ≤ 0 then false
  else
    match start with
    | none => true
    | some start => decide (limit < closedBarsAfter holidays start tf now (limit + 1).toNat)

/-! ## Bars of the exchange -/

/-- A bar of the exchange clock, by its label and its close. -/
inductive IsBar (holidays : List ℤ) : Timeframe → ℤ → ℤ → Prop where
  | session {tf : Timeframe} {minutes : ℕ} {day start : ℤ} (within : intradayMinutes tf = some minutes)
      (trading : isTradingDay holidays day = true) (listed : start ∈ sessionBars minutes day) :
      IsBar holidays tf start (sessionBarClose minutes day start)
  | day {day : ℤ} (trading : isTradingDay holidays day = true) : IsBar holidays .d1 (opensAt day) (closesAt day)
  | period {tf : Timeframe} {day last : ℤ} (coarse : isPeriod tf = true)
      (isLast : lastSession holidays tf day = some last) :
      IsBar holidays tf (label tf day) (closesAt last)

variable {holidays : List ℤ} {tf : Timeframe} {minutes : ℕ} {day day' now now' bar close : ℤ}

/-! ### Days -/

theorem opensAt_eq (day : ℤ) : opensAt day = day * dayUs - istOffset + 555 * minuteUs := rfl

theorem closesAt_eq (day : ℤ) : closesAt day = day * dayUs - istOffset + 930 * minuteUs := rfl

theorem opensAt_lt (day : ℤ) : opensAt day < closesAt day := by
  simp only [opensAt_eq, closesAt_eq, minuteUs]
  omega

theorem istDay_opensAt (day : ℤ) : istDay (opensAt day) = day := by
  simp only [opensAt_eq, istDay, istOffset, dayUs, minuteUs]
  omega

theorem istDay_dayStart (day : ℤ) : istDay (dayStart day) = day := by
  simp only [dayStart, istDay, istOffset, dayUs, minuteUs]
  omega

/-- A day's session closes by an instant of a later day. -/
theorem closesAt_le_of_lt (before : day < istDay now) : closesAt day ≤ now := by
  simp only [closesAt_eq, istDay, istOffset, dayUs, minuteUs] at *
  omega

/-- The session of a later day has not opened. -/
theorem lt_opensAt (after : istDay now < day) : now < opensAt day := by
  simp only [opensAt_eq, istDay, istOffset, dayUs, minuteUs] at *
  omega

/-- What is within a day's session is on that day. -/
theorem istDay_of_inside (later : opensAt day ≤ bar) (earlier : bar < closesAt day) : istDay bar = day := by
  simp only [opensAt_eq, closesAt_eq, istDay, istOffset, dayUs, minuteUs] at *
  omega

/-! ### The bars of a session -/

theorem steps_ascending (positive : 0 < minutes) (day : ℤ) :
    ((List.range 375).map fun k : ℕ => opensAt day + k * (minutes * minuteUs)).Pairwise (· < ·) := by
  refine List.pairwise_map.mpr (List.pairwise_lt_range.imp fun {a b} less => ?_)
  have wide : (0 : ℤ) < minutes * minuteUs := by
    unfold minuteUs
    omega
  have more : (a : ℤ) * (minutes * minuteUs) < b * (minutes * minuteUs) :=
    mul_lt_mul_of_pos_right (by exact_mod_cast less) wide
  linarith

theorem sessionBars_ascending (positive : 0 < minutes) (day : ℤ) : (sessionBars minutes day).Pairwise (· < ·) :=
  (steps_ascending positive day).sublist (List.takeWhile_sublist _)

theorem mem_sessionBars (listed : bar ∈ sessionBars minutes day) : opensAt day ≤ bar ∧ bar < closesAt day := by
  have early := List.mem_takeWhile_imp listed
  obtain ⟨k, -, rfl⟩ := List.mem_map.mp ((List.takeWhile_sublist _).subset listed)
  refine ⟨?_, of_decide_eq_true early⟩
  have later : (0 : ℤ) ≤ k * (minutes * minuteUs) := by
    unfold minuteUs
    positivity
  linarith

theorem lt_sessionBarClose (positive : 0 < minutes) (listed : bar ∈ sessionBars minutes day) :
    bar < sessionBarClose minutes day bar := by
  refine lt_min ?_ (mem_sessionBars listed).2
  unfold minuteUs
  omega

/-- In an ascending list, what holds comes before the first item that fails. -/
theorem mem_takeWhile_of_ascending {xs : List ℤ} {p : ℤ → Bool} (ascending : xs.Pairwise (· < ·))
    (down : ∀ x y, x < y → p y = true → p x = true) : ∀ x ∈ xs, p x = true → x ∈ xs.takeWhile p := by
  induction xs with
  | nil => simp
  | cons first rest ih =>
    obtain ⟨before, later⟩ := List.pairwise_cons.mp ascending
    intro x mem holds
    have firstHolds : p first = true := by
      rcases List.mem_cons.mp mem with rfl | inRest
      · exact holds
      · exact down first x (before x inRest) holds
    rw [List.takeWhile_cons_of_pos firstHolds]
    rcases List.mem_cons.mp mem with rfl | inRest
    · exact List.mem_cons_self
    · exact List.mem_cons_of_mem _ (ih later x inRest holds)

/-- In an ascending list, the last of the items before one that fails is the greatest that holds. -/
theorem greatest_of_takeWhile {xs : List ℤ} {p : ℤ → Bool} (ascending : xs.Pairwise (· < ·))
    (down : ∀ x y, x < y → p y = true → p x = true) :
    (∀ b, (xs.takeWhile p).getLast? = some b → b ∈ xs ∧ p b = true ∧ ∀ x ∈ xs, p x = true → x ≤ b) ∧
      ((xs.takeWhile p).getLast? = none → ∀ x ∈ xs, p x = false) := by
  have kept := mem_takeWhile_of_ascending ascending down
  constructor
  · intro b isLast
    obtain ⟨front, shape⟩ := List.getLast?_eq_some_iff.mp isLast
    have inside : b ∈ xs.takeWhile p := by
      rw [shape]
      exact List.mem_append_right _ List.mem_cons_self
    refine ⟨(List.takeWhile_sublist p).subset inside, List.mem_takeWhile_imp inside, fun x mem holds => ?_⟩
    have ordered := ascending.sublist (List.takeWhile_sublist p)
    have isKept := kept x mem holds
    rw [shape] at ordered isKept
    rcases List.mem_append.mp isKept with before | same
    · exact ((List.pairwise_append.mp ordered).2.2 x before b List.mem_cons_self).le
    · rw [List.mem_singleton.mp same]
  · intro empty x mem
    by_contra holds
    have isKept := kept x mem (by simpa using holds)
    rw [List.getLast?_eq_none_iff.mp empty] at isKept
    cases isKept

theorem closed_down {x y : ℤ} (less : x < y) (closed : decide (sessionBarClose minutes day y ≤ now) = true) :
    decide (sessionBarClose minutes day x ≤ now) = true := by
  refine decide_eq_true ((min_le_min_right _ ?_).trans (of_decide_eq_true closed))
  linarith

theorem intradayMinutes_pos (within : intradayMinutes tf = some minutes) : 0 < minutes := by
  cases tf <;> simp [intradayMinutes] at within <;> omega

/-- The bars of a day, of the timeframes that have some within it. -/
theorem closedOn_some (fine : isPeriod tf = false) (trading : isTradingDay holidays day = true)
    (found : closedOn tf day now = some bar) :
    (opensAt day ≤ bar ∧ bar < closesAt day) ∧ (∃ close, IsBar holidays tf bar close ∧ close ≤ now) ∧
      ∀ minutes, intradayMinutes tf = some minutes → ∀ x ∈ sessionBars minutes day,
        sessionBarClose minutes day x ≤ now → x ≤ bar := by
  unfold closedOn at found
  split at found
  · next minutes within =>
    have positive := intradayMinutes_pos within
    obtain ⟨listed, closed, greatest⟩ :=
      (greatest_of_takeWhile (sessionBars_ascending positive day) fun _ _ => closed_down).1 bar found
    refine ⟨mem_sessionBars listed, ⟨_, .session within trading listed, of_decide_eq_true closed⟩,
      fun minutes' within' x mem isClosed => ?_⟩
    cases within.symm.trans within'
    exact greatest x mem (decide_eq_true isClosed)
  · next none_ =>
    split at found
    · next closed =>
      cases found
      have isDay : tf = .d1 := by
        revert fine none_
        cases tf <;> decide
      subst isDay
      exact ⟨⟨le_refl _, opensAt_lt day⟩, ⟨_, .day trading, closed⟩, fun _ within => by cases within⟩
    · cases found

theorem closedOn_none (found : closedOn tf day now = none) :
    (intradayMinutes tf = none → now < closesAt day) ∧
      ∀ minutes, intradayMinutes tf = some minutes → ∀ x ∈ sessionBars minutes day,
        now < sessionBarClose minutes day x := by
  unfold closedOn at found
  split at found
  · next minutes within =>
    have open_ := (greatest_of_takeWhile (sessionBars_ascending (intradayMinutes_pos within) day)
      fun _ _ => closed_down).2 found
    refine ⟨fun none_ => ?_, fun minutes' within' x mem => ?_⟩
    · cases within.symm.trans none_
    · cases within.symm.trans within'
      exact not_le.mp (of_decide_eq_false (open_ x mem))
  · next none_ =>
    split at found
    · cases found
    · next open_ =>
      refine ⟨fun _ => not_le.mp open_, fun minutes within => ?_⟩
      cases none_.symm.trans within

/-! ### The walk back -/

/-- What of a day the walk from a later day, or from that day itself, sees closed. -/
def seenOf (holidays : List ℤ) (tf : Timeframe) (today now day : ℤ) : Option ℤ :=
  if isTradingDay holidays day then closedOn tf day (if day = today then now else closesAt day) else none

/-- The walk finds the latest bar of a day, where no day after it has one. -/
theorem walkBack_some {n : ℕ} (found : walkBack holidays tf n day now = some bar) :
    ∃ d ≤ day, day - n < d ∧ seenOf holidays tf day now d = some bar ∧
      ∀ d' ≤ day, d < d' → seenOf holidays tf day now d' = none := by
  induction n generalizing day now with
  | zero => cases found
  | succ n ih =>
    have today : seenOf holidays tf day now day = if isTradingDay holidays day then closedOn tf day now else none := by
      rw [seenOf, if_pos rfl]
    have earlier : ∀ d < day, seenOf holidays tf (day - 1) (closesAt (day - 1)) d = seenOf holidays tf day now d := by
      intro d before
      unfold seenOf
      rw [if_neg before.ne]
      by_cases yesterday : d = day - 1
      · rw [if_pos yesterday, yesterday]
      · rw [if_neg yesterday]
    unfold walkBack at found
    rw [← today] at found
    cases here : seenOf holidays tf day now day with
    | some b =>
      rw [here] at found
      cases found
      exact ⟨day, le_refl _, by omega, here, fun d' le lt => absurd lt (not_lt.mpr le)⟩
    | none =>
      rw [here] at found
      obtain ⟨d, le, near, seen, later⟩ := ih found
      refine ⟨d, by omega, by omega, ?_, fun d' le' lt => ?_⟩
      · rw [← earlier d (by omega)]
        exact seen
      · rcases le'.lt_or_eq with before | rfl
        · rw [← earlier d' before]
          exact later d' (by omega) lt
        · exact here

/-- The bar is on a day of the last fifteen; it has closed, and every closed bar is at most it. -/
theorem walkBack_latest (fine : isPeriod tf = false) (found : walkBack holidays tf 15 (istDay now) now = some bar) :
    (istDay now - 15 < istDay bar ∧ istDay bar ≤ istDay now) ∧ (∃ close, IsBar holidays tf bar close ∧ close ≤ now) ∧
      ∀ bar' close', IsBar holidays tf bar' close' → close' ≤ now → bar' ≤ bar := by
  obtain ⟨d, le, near, seen, later⟩ := walkBack_some found
  unfold seenOf at seen
  split at seen
  · next trading =>
    obtain ⟨inside, ⟨close, isBar, closed⟩, greatest⟩ := closedOn_some fine trading seen
    have onDay : istDay bar = d := istDay_of_inside inside.1 inside.2
    have visible : (if d = istDay now then now else closesAt d) ≤ now := by
      split
      · exact le_refl _
      · next other => exact closesAt_le_of_lt (lt_of_le_of_ne le other)
    refine ⟨onDay.symm ▸ ⟨near, le⟩, ⟨close, isBar, closed.trans visible⟩, fun bar' close' isBar' closed' => ?_⟩
    -- a bar of an earlier day starts earlier; one of a later day would have been found
    have before : ∀ day', opensAt day' ≤ bar' → bar' < closesAt day' → day' < d → bar' ≤ bar := by
      intro day' start stop less
      by_contra more
      have days := MarketData.istDay_mono (not_le.mp more).le
      rw [onDay, istDay_of_inside start stop] at days
      omega
    have after : ∀ day', opensAt day' ≤ now → isTradingDay holidays day' = true → d < day' →
        closedOn tf day' (if day' = istDay now then now else closesAt day') = none := by
      intro day' opened trading' less
      have soFar : day' ≤ istDay now := by
        by_contra future
        exact absurd (lt_opensAt (not_le.mp future)) (not_lt.mpr opened)
      have nothing := later day' soFar less
      rwa [seenOf, if_pos trading'] at nothing
    cases isBar' with
    | @session _ minutes day' _ within trading' listed =>
      obtain ⟨start, stop⟩ := mem_sessionBars listed
      have byClose : sessionBarClose minutes day' bar' ≤ if day' = istDay now then now else closesAt day' := by
        split
        · exact closed'
        · exact min_le_right _ _
      rcases lt_trichotomy day' d with less | rfl | more
      · exact before day' start stop less
      · exact greatest minutes within bar' listed byClose
      · have opened : opensAt day' ≤ now :=
          start.trans ((lt_sessionBarClose (intradayMinutes_pos within) listed).le.trans closed')
        exact absurd byClose (not_le.mpr
          ((closedOn_none (after day' opened trading' more)).2 minutes within bar' listed))
    | @day day' trading' =>
      rcases lt_trichotomy day' d with less | rfl | more
      · exact before day' (le_refl _) (opensAt_lt day') less
      · exact inside.1
      · have opened : opensAt day' ≤ now := (opensAt_lt day').le.trans closed'
        have unseen := (closedOn_none (after day' opened trading' more)).1 rfl
        split at unseen
        · exact absurd closed' (not_le.mpr unseen)
        · exact absurd unseen (lt_irrefl _)
    | period coarse => cases coarse.symm.trans fine
  · cases seen

/-! ### Weeks and months -/

theorem periodStart_le (tf : Timeframe) (day : ℤ) : periodStart tf day ≤ day := by
  have month := (Months.monthOf_spec day).1
  unfold periodStart
  split
  · omega
  · exact month

theorem le_periodEnd (tf : Timeframe) (day : ℤ) : day ≤ periodEnd tf day := by
  have month := (Months.monthOf_spec day).2
  unfold periodEnd periodStart
  split
  · omega
  · omega

theorem periodStart_mono (le : day ≤ day') : periodStart tf day ≤ periodStart tf day' := by
  have month := Months.monthStart_strictMono.monotone (Months.monthOf_mono le)
  unfold periodStart
  split
  · omega
  · exact month

/-- A period is over when a later one starts. -/
theorem periodEnd_lt (later : periodStart tf day < periodStart tf day') : periodEnd tf day < periodStart tf day' := by
  unfold periodEnd
  split
  · next week =>
    unfold periodStart at later ⊢
    rw [if_pos week, if_pos week] at *
    omega
  · next month =>
    unfold periodStart at later ⊢
    rw [if_neg month, if_neg month] at *
    have next := Months.monthStart_strictMono.monotone
      (Int.add_one_le_iff.mpr (Months.monthStart_strictMono.lt_iff_lt.mp later))
    omega

/-- The day after a period starts the next one. -/
theorem periodStart_next (tf : Timeframe) (day : ℤ) : periodStart tf (periodEnd tf day + 1) = periodEnd tf day + 1 := by
  unfold periodEnd
  split
  · next week =>
    unfold periodStart
    rw [if_pos week, if_pos week]
    omega
  · next month => rw [sub_add_cancel, periodStart, if_neg month, Months.monthOf_monthStart]

/-- Days of one period have one last session. -/
theorem lastSession_congr (same : periodStart tf day = periodStart tf day') :
    lastSession holidays tf day = lastSession holidays tf day' := by
  have ends : periodEnd tf day = periodEnd tf day' := by
    unfold periodEnd
    rw [same]
    split
    · rfl
    · next month =>
      unfold periodStart at same
      rw [if_neg month, if_neg month] at same
      rw [Months.monthStart_strictMono.injective same]
  rw [lastSession, lastSession, same, ends]

theorem lastSession_inside {last : ℤ} (isLast : lastSession holidays tf day = some last) :
    periodStart tf day ≤ last ∧ last ≤ periodEnd tf day := by
  obtain ⟨k, inside, rfl⟩ := List.mem_map.mp (List.mem_of_find?_eq_some isLast)
  rw [List.mem_range] at inside
  omega

/-- The period found has closed, and no later one has. -/
theorem latestClosedFrom_some {n : ℕ} {last : ℤ} (found : latestClosedFrom holidays tf now n day = some (bar, last)) :
    ∃ d ≤ day, lastSession holidays tf d = some last ∧ closesAt last ≤ now ∧ bar = label tf d ∧
      ∀ d' last', periodStart tf d < periodStart tf d' → periodStart tf d' ≤ day →
        lastSession holidays tf d' = some last' → now < closesAt last' := by
  induction n generalizing day with
  | zero => cases found
  | succ n ih =>
    unfold latestClosedFrom at found
    cases here : (lastSession holidays tf day).filter fun last => closesAt last ≤ now with
    | some own =>
      rw [here] at found
      cases found
      obtain ⟨isLast, closed⟩ := Option.filter_eq_some_iff.mp here
      refine ⟨day, le_refl _, isLast, of_decide_eq_true closed, rfl, fun d' last' later soFar => ?_⟩
      have past := periodEnd_lt later
      have own := le_periodEnd tf day
      omega
    | none =>
      rw [here] at found
      obtain ⟨d, le, isLast, closed, isLabel, none_⟩ := ih found
      have starts := periodStart_le tf day
      refine ⟨d, by omega, isLast, closed, isLabel, fun d' last' later soFar isLast' => ?_⟩
      by_cases before : periodStart tf d' ≤ periodStart tf day - 1
      · exact none_ d' last' later before isLast'
      · have same : periodStart tf d' = periodStart tf day := by
          by_contra differ
          have next : periodStart tf day < periodStart tf d' := by omega
          have past := periodEnd_lt next
          have own := le_periodEnd tf day
          omega
        rw [lastSession_congr same] at isLast'
        rw [isLast', Option.filter_some] at here
        split at here
        · cases here
        · next open_ => exact not_le.mp (by simpa using open_)

/-! ### The expected bar -/

/-- The expected bar of a week or month: the label of a period that has closed, where no later one has. -/
theorem expectedBar_period (coarse : isPeriod tf = true) (expected : expectedBar holidays now tf = some bar) :
    ∃ d last, lastSession holidays tf d = some last ∧ closesAt last ≤ now ∧ bar = label tf d ∧
      ∀ d' last', periodStart tf d < periodStart tf d' → lastSession holidays tf d' = some last' →
        now < closesAt last' := by
  rw [expectedBar, if_pos coarse] at expected
  obtain ⟨⟨_, last⟩, found, rfl⟩ := Option.map_eq_some_iff.mp expected
  obtain ⟨d, -, isLast, closed, isLabel, later⟩ := latestClosedFrom_some found
  refine ⟨d, last, isLast, closed, isLabel, fun d' last' after isLast' => ?_⟩
  by_cases soFar : periodStart tf d' ≤ istDay now
  · exact later d' last' after soFar isLast'
  · have inside := (lastSession_inside isLast').1
    exact (lt_opensAt (by omega)).trans (opensAt_lt last')

/-- The expected bar has closed, and every bar of the exchange that has closed is at most it. -/
theorem expectedBar_latest (expected : expectedBar holidays now tf = some bar) :
    (∃ close, IsBar holidays tf bar close ∧ close ≤ now) ∧
      ∀ bar' close', IsBar holidays tf bar' close' → close' ≤ now → bar' ≤ bar := by
  cases coarse : isPeriod tf with
  | false =>
    rw [expectedBar, if_neg (by simp [coarse])] at expected
    exact (walkBack_latest coarse expected).2
  | true =>
    obtain ⟨d, last, isLast, closed, rfl, later⟩ := expectedBar_period coarse expected
    refine ⟨⟨_, .period coarse isLast, closed⟩, fun bar' close' isBar' closed' => ?_⟩
    cases isBar' with
    | session within =>
      revert within coarse
      cases tf <;> simp [isPeriod, intradayMinutes]
    | day => cases coarse
    | @period _ d' last' _ isLast' =>
      by_contra after
      have starts : periodStart tf d < periodStart tf d' := by
        by_contra before
        refine after ?_
        unfold label dayStart
        have wide : (0 : ℤ) ≤ dayUs := by decide
        have scaled := mul_le_mul_of_nonneg_right (not_lt.mp before) wide
        linarith
      exact absurd closed' (not_le.mpr (later d' last' starts isLast'))

/-- Later instants expect later bars. -/
theorem expectedBar_mono {bar' : ℤ} (le : now ≤ now') (expected : expectedBar holidays now tf = some bar)
    (expected' : expectedBar holidays now' tf = some bar') : bar ≤ bar' := by
  obtain ⟨⟨close, isBar, closed⟩, -⟩ := expectedBar_latest expected
  exact (expectedBar_latest expected').2 bar close isBar (closed.trans le)

/-! ### The age of the expected bar -/

/-- Whether a bar of a frame, by its start, is the bar of a label: coarse bars by their day. -/
def isAt (tf : Timeframe) (bar start : ℤ) : Bool :=
  if (intradayMinutes tf).isSome then decide (start = bar) else decide (istDay start = istDay bar)

theorem isAt_day {start : ℤ} (found : isAt tf bar start = true) : istDay start = istDay bar := by
  unfold isAt at found
  split at found
  · rw [of_decide_eq_true found]
  · exact of_decide_eq_true found

theorem closedAfter_zero {n cap : ℕ} {d : ℤ}
    (later : ∀ d' last', periodStart tf d < periodStart tf d' →
      lastSession holidays tf d' = some last' → now < closesAt last')
    (after : periodStart tf d < periodStart tf day) : closedAfter holidays tf now cap n day 0 = 0 := by
  induction n generalizing day with
  | zero => rfl
  | succ n ih =>
    unfold closedAfter
    split
    · have open_ : ((lastSession holidays tf day).any fun last => closesAt last ≤ now) = false := by
        cases isLast : lastSession holidays tf day with
        | none => rfl
        | some last => exact decide_eq_false (not_le.mpr (later day last after isLast))
      rw [open_]
      refine ih (after.trans_le (periodStart_mono ?_))
      have own := le_periodEnd tf day
      omega
    · rfl

theorem countBars_zero {bars : List ℤ} {cap : ℕ} {start : ℤ}
    (old : ∀ b ∈ bars, sessionBarClose minutes day b ≤ now → b ≤ start) :
    countBars minutes day now start cap bars 0 = 0 := by
  induction bars with
  | nil => rfl
  | cons b bars ih =>
    unfold countBars
    split
    · next closed =>
      rw [if_neg (not_lt.mpr (old b List.mem_cons_self closed.1))]
      exact ih fun b' mem => old b' (List.mem_cons_of_mem _ mem)
    · rfl

theorem countDays_zero {n cap : ℕ} {start : ℤ} (fine : isPeriod tf = false)
    (found : isAt tf bar start = true)
    (latest : ∀ bar' close', IsBar holidays tf bar' close' → close' ≤ now → bar' ≤ bar)
    (soFar : day ≤ istDay now + 1) (near : istDay now + 1 < day + n) :
    countDays holidays tf now start cap n day 0 = 0 := by
  induction n generalizing day with
  | zero => omega
  | succ n ih =>
    unfold countDays
    split
    · rfl
    · next going =>
      have nothing : (if isTradingDay holidays day then
          match intradayMinutes tf with
          | none => 0 + if istDay start < day ∧ closesAt day ≤ now then 1 else 0
          | some minutes => countBars minutes day now start cap (sessionBars minutes day) 0
          else 0) = 0 := by
        split
        · next trading =>
          split
          · next coarse =>
            have isDay : tf = .d1 := by
              revert fine coarse
              cases tf <;> decide
            subst isDay
            rw [isAt, if_neg (by simp [coarse]), decide_eq_true_eq] at found
            rw [if_neg]
            rintro ⟨after, closed⟩
            have old := MarketData.istDay_mono (latest _ _ (.day trading) closed)
            rw [istDay_opensAt] at old
            omega
          · next minutes within =>
            rw [isAt, if_pos (by simp [within]), decide_eq_true_eq] at found
            subst found
            exact countBars_zero fun b mem closed => latest b _ (.session within trading mem) closed
        · rfl
      rw [nothing]
      exact ih (by omega) (by omega)

/-- Data that reaches the expected bar is never stale: no bar after it has closed. -/
theorem expected_not_stale {limit start : ℤ} (expected : expectedBar holidays now tf = some bar)
    (found : isAt tf bar start = true) :
    (∀ cap, closedBarsAfter holidays start tf now cap = 0) ∧
      alertsSuppressed holidays limit (some start) tf now = false := by
  have none_ : ∀ cap, closedBarsAfter holidays start tf now cap = 0 := by
    intro cap
    unfold closedBarsAfter
    cases coarse : isPeriod tf with
    | true =>
      obtain ⟨d, last, -, -, rfl, later⟩ := expectedBar_period coarse expected
      refine closedAfter_zero later ?_
      rw [periodStart_next, isAt_day found, label, istDay_dayStart]
      exact Int.lt_add_one_of_le (le_periodEnd tf _)
    | false =>
      have walked := expected
      rw [expectedBar, if_neg (by simp [coarse])] at walked
      obtain ⟨near, -, latest⟩ := walkBack_latest coarse walked
      have onDay := isAt_day found
      exact countDays_zero coarse found latest (by omega) (by omega)
  refine ⟨none_, ?_⟩
  unfold alertsSuppressed
  split
  · rfl
  · next positive =>
    dsimp only
    rw [none_]
    exact decide_eq_false (by simpa using by omega)

/-- On a Monday's close the expected week is the one before. -/
theorem expected_not_stale_week :
    (∀ cap, closedBarsAfter [] (MarketData.dayStart 19996) .w1 (closesAt 20003) cap = 0) ∧
      alertsSuppressed [] 1 (some (MarketData.dayStart 19996)) .w1 (closesAt 20003) = false := by
  have expected : expectedBar [] (closesAt 20003) .w1 = some (MarketData.dayStart 19996) := by decide +kernel
  exact expected_not_stale expected (by decide +kernel)

end AdvanceTrading.BarClose
