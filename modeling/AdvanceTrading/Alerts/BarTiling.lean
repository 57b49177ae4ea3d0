import AdvanceTrading.Alerts.ClosedBars

/-!
# Closed and forming bars tile the exchange clock

`expected_bar` and `forming_bar` of `app/alerts/barclose.py:88-143` for the intraday
and daily timeframes. The bars of a timeframe do not overlap; the one that an instant
is in is the forming bar, and it becomes the expected bar the instant it closes. The
expected bar is the latest that has closed as long as one has on the last fifteen
days, the instant's own included.
-/

namespace AdvanceTrading.BarClose

open TriggerRules (minuteUs dayUs istOffset istDay)
open Screener (Timeframe)

variable {holidays : List ℤ} {tf : Timeframe} {minutes : ℕ} {day now bar bar' close close' : ℤ}

/-! ## Buckets -/

/-- The bars of a session are the steps from its open that start before its close. -/
theorem mem_sessionBars_iff (positive : 0 < minutes) : bar ∈ sessionBars minutes day ↔
    ∃ k : ℕ, bar = opensAt day + k * (minutes * minuteUs) ∧ bar < closesAt day := by
  constructor
  · intro listed
    obtain ⟨k, -, isBar⟩ := List.mem_map.mp ((List.takeWhile_sublist _).subset listed)
    exact ⟨k, isBar.symm, (mem_sessionBars listed).2⟩
  · rintro ⟨k, isBar, early⟩
    refine mem_takeWhile_of_ascending (steps_ascending positive day) ?_ bar ?_ (decide_eq_true early)
    · intro x y less early
      exact decide_eq_true (less.trans (of_decide_eq_true early))
    · -- a session is 375 minutes, and a step at least one
      refine List.mem_map.mpr ⟨k, List.mem_range.mpr ?_, isBar.symm⟩
      have step : (k : ℤ) * minuteUs ≤ k * (minutes * minuteUs) := by
        refine mul_le_mul_of_nonneg_left ?_ (by positivity)
        unfold minuteUs
        omega
      rw [isBar, opensAt_eq, closesAt_eq] at early
      unfold minuteUs at step early
      omega

/-- A bar of a timeframe within the day, by its day. -/
theorem IsBar.onDay (fine : isPeriod tf = false) (isBar : IsBar holidays tf bar close) :
    ∃ day, isTradingDay holidays day = true ∧ opensAt day ≤ bar ∧ bar < close ∧ close ≤ closesAt day ∧
      ((intradayMinutes tf = none ∧ bar = opensAt day ∧ close = closesAt day) ∨
        ∃ minutes, intradayMinutes tf = some minutes ∧ bar ∈ sessionBars minutes day ∧
          close = sessionBarClose minutes day bar) := by
  cases isBar with
  | @session _ minutes day _ within trading listed =>
    exact ⟨day, trading, (mem_sessionBars listed).1, lt_sessionBarClose (intradayMinutes_pos within) listed,
      min_le_right _ _, .inr ⟨minutes, within, listed, rfl⟩⟩
  | @day day trading => exact ⟨day, trading, le_refl _, opensAt_lt day, le_refl _, .inl ⟨rfl, rfl, rfl⟩⟩
  | period coarse => cases coarse.symm.trans fine

/-- The bar that an instant is in. -/
structure Inside (holidays : List ℤ) (tf : Timeframe) (now bar close : ℤ) : Prop where
  isBar : IsBar holidays tf bar close
  started : bar ≤ now
  open_ : now < close

/-- The step an instant falls in. -/
theorem step_eq {width x : ℤ} {k : ℕ} (positive : 0 < width) (lower : k * width ≤ x)
    (upper : x < k * width + width) : x / width = k := by
  refine le_antisymm ?_ ((Int.le_ediv_iff_mul_le positive).mpr lower)
  refine Int.lt_add_one_iff.mp ((Int.ediv_lt_iff_lt_mul positive).mpr ?_)
  rw [add_mul, one_mul]
  exact upper

/-- The bar an instant is in is the forming one. -/
theorem Inside.forming (fine : isPeriod tf = false) (inside : Inside holidays tf now bar close) :
    formingBar holidays now tf = some bar := by
  obtain ⟨day, trading, opened, -, closed, how⟩ := inside.isBar.onDay fine
  have started := inside.started
  have before := inside.open_
  have today : istDay now = day := istDay_of_inside (opened.trans started) (before.trans_le closed)
  unfold formingBar
  dsimp only
  rw [today, if_neg (by
    rintro (coarse | other | early | late)
    · cases coarse.symm.trans fine
    · cases other.symm.trans trading
    · omega
    · omega)]
  rcases how with ⟨none_, isOpen, -⟩ | ⟨minutes, within, listed, isClose⟩
  · rw [none_, isOpen]
  · have positive := intradayMinutes_pos within
    obtain ⟨k, isBar, -⟩ := (mem_sessionBars_iff positive).mp listed
    have wide : (0 : ℤ) < minutes * minuteUs := by
      unfold minuteUs
      omega
    have short : now < bar + minutes * minuteUs := before.trans_le (isClose ▸ min_le_left _ _)
    have step : (now - opensAt day) / (minutes * minuteUs) = k := step_eq wide (by omega) (by omega)
    rw [within]
    dsimp only
    rw [step, isBar]

/-- The forming bar is the one its instant is in. -/
theorem inside_of_forming (forming : formingBar holidays now tf = some bar) :
    isPeriod tf = false ∧ ∃ close, Inside holidays tf now bar close := by
  unfold formingBar at forming
  dsimp only at forming
  split at forming
  · cases forming
  · rename_i going
    simp only [not_or, Bool.not_eq_true, Bool.not_eq_false, not_lt, not_le] at going
    obtain ⟨fine, trading, opened, before⟩ := going
    refine ⟨fine, ?_⟩
    split at forming
    · rename_i none_
      cases forming
      have isDay : tf = .d1 := by
        revert fine none_
        cases tf <;> decide
      subst isDay
      exact ⟨_, .day trading, opened, before⟩
    · rename_i minutes within
      cases forming
      have positive := intradayMinutes_pos within
      have wide : (0 : ℤ) < minutes * minuteUs := by
        unfold minuteUs
        omega
      generalize hwidth : (minutes * minuteUs : ℤ) = width at *
      have lower := Int.ediv_mul_le (now - opensAt (istDay now)) wide.ne'
      have upper := Int.lt_ediv_add_one_mul_self (now - opensAt (istDay now)) wide
      rw [add_mul, one_mul] at upper
      have whole : 0 ≤ (now - opensAt (istDay now)) / width := Int.ediv_nonneg (by omega) wide.le
      obtain ⟨k, isK⟩ := Int.eq_ofNat_of_zero_le whole
      rw [isK] at lower upper ⊢
      have listed : opensAt (istDay now) + k * width ∈ sessionBars minutes (istDay now) := by
        rw [mem_sessionBars_iff positive, hwidth]
        exact ⟨k, rfl, by omega⟩
      refine ⟨_, .session within trading listed, by omega, lt_min ?_ before⟩
      rw [hwidth]
      omega

theorem Inside.unique (fine : isPeriod tf = false) (inside : Inside holidays tf now bar close)
    (inside' : Inside holidays tf now bar' close') : bar = bar' ∧ close = close' := by
  have same : bar = bar' := Option.some.inj ((inside.forming fine).symm.trans (inside'.forming fine))
  obtain ⟨day, -, opened, early, closed, how⟩ := inside.isBar.onDay fine
  obtain ⟨day', -, opened', early', closed', how'⟩ := inside'.isBar.onDay fine
  have days : day = day' := by
    have here := istDay_of_inside opened (early.trans_le closed)
    have here' := istDay_of_inside opened' (early'.trans_le closed')
    rw [← here, ← here', same]
  refine ⟨same, ?_⟩
  rcases how with ⟨none_, -, isClose⟩ | ⟨minutes, within, -, isClose⟩
  · rcases how' with ⟨-, -, isClose'⟩ | ⟨minutes', within', -⟩
    · rw [isClose, isClose', days]
    · cases none_.symm.trans within'
  · rcases how' with ⟨none_, -⟩ | ⟨minutes', within', -, isClose'⟩
    · cases none_.symm.trans within
    · cases within.symm.trans within'
      rw [isClose, isClose', days, same]

/-- Bars do not overlap. -/
theorem IsBar.apart (fine : isPeriod tf = false) (isBar : IsBar holidays tf bar close)
    (isBar' : IsBar holidays tf bar' close') (before : bar < bar') : close ≤ bar' := by
  by_contra overlap
  obtain ⟨-, -, -, early, -⟩ := isBar'.onDay fine
  have former : Inside holidays tf bar' bar close := ⟨isBar, before.le, not_le.mp overlap⟩
  have same := Inside.unique fine former ⟨isBar', le_refl _, early⟩
  exact absurd same.1 before.ne

/-! ## The expected bar -/

/-- A walk that finds nothing has seen nothing on any of its days. -/
theorem walkBack_none {n : ℕ} (found : walkBack holidays tf n day now = none) :
    ∀ d ≤ day, day - n < d → seenOf holidays tf day now d = none := by
  induction n generalizing day now with
  | zero =>
    intro d le lt
    omega
  | succ n ih =>
    unfold walkBack at found
    intro d le lt
    by_cases today : d = day
    · subst today
      unfold seenOf
      rw [if_pos rfl]
      split at found
      · cases found
      · assumption
    · have earlier : seenOf holidays tf (day - 1) (closesAt (day - 1)) d = seenOf holidays tf day now d := by
        unfold seenOf
        rw [if_neg today]
        by_cases yesterday : d = day - 1
        · rw [if_pos yesterday, yesterday]
        · rw [if_neg yesterday]
      rw [← earlier]
      split at found
      · cases found
      · exact ih found d (by omega) (by omega)

/-- The latest bar that has closed. -/
structure Latest (holidays : List ℤ) (tf : Timeframe) (now bar : ℤ) : Prop where
  closed : ∃ close, IsBar holidays tf bar close ∧ close ≤ now
  last : ∀ bar' close', IsBar holidays tf bar' close' → close' ≤ now → bar' ≤ bar

theorem Latest.unique (latest : Latest holidays tf now bar) (latest' : Latest holidays tf now bar') : bar = bar' := by
  obtain ⟨close, isBar, closed⟩ := latest.closed
  obtain ⟨close', isBar', closed'⟩ := latest'.closed
  exact le_antisymm (latest'.last bar close isBar closed) (latest.last bar' close' isBar' closed')

/-- With a bar that has closed on the last fifteen days there is an expected one. -/
theorem expectedBar_of_closed (fine : isPeriod tf = false) (isBar : IsBar holidays tf bar close) (closed : close ≤ now)
    (near : istDay now - 15 < istDay bar) : ∃ latest, expectedBar holidays now tf = some latest := by
  cases found : expectedBar holidays now tf with
  | some latest => exact ⟨latest, rfl⟩
  | none =>
    rw [expectedBar, if_neg (by simp [fine])] at found
    obtain ⟨day, trading, opened, early, within, how⟩ := isBar.onDay fine
    have onDay : istDay bar = day := istDay_of_inside opened (early.trans_le within)
    have soFar : day ≤ istDay now := onDay ▸ MarketData.istDay_mono (early.le.trans closed)
    have unseen := walkBack_none found day soFar (by push_cast; omega)
    rw [seenOf, if_pos trading] at unseen
    have visible : close ≤ if day = istDay now then now else closesAt day := by
      split
      · exact closed
      · exact within
    obtain ⟨noDay, noBar⟩ := closedOn_none unseen
    rcases how with ⟨none_, -, isClose⟩ | ⟨minutes, isMinutes, listed, isClose⟩
    · exact absurd (noDay none_) (not_lt.mpr (isClose ▸ visible))
    · exact absurd (noBar minutes isMinutes bar listed) (not_lt.mpr (isClose ▸ visible))

/-- The expected bar is the latest closed one, where that is on the last fifteen days. -/
theorem expectedBar_iff (fine : isPeriod tf = false) : expectedBar holidays now tf = some bar ↔
    istDay now - 15 < istDay bar ∧ Latest holidays tf now bar := by
  have isLatest {bar : ℤ} (expected : expectedBar holidays now tf = some bar) :
      istDay now - 15 < istDay bar ∧ Latest holidays tf now bar := by
    have walked := expected
    rw [expectedBar, if_neg (by simp [fine])] at walked
    obtain ⟨near, closed, last⟩ := walkBack_latest fine walked
    exact ⟨near.1, closed, last⟩
  refine ⟨isLatest, ?_⟩
  rintro ⟨near, latest⟩
  obtain ⟨close, isBar, closed⟩ := latest.closed
  obtain ⟨found, expected⟩ := expectedBar_of_closed fine isBar closed near
  rw [expected, (isLatest expected).2.unique latest]

/-- A bar becomes the expected one the instant it closes. -/
theorem expectedBar_at_close (fine : isPeriod tf = false) (isBar : IsBar holidays tf bar close) :
    expectedBar holidays close tf = some bar := by
  obtain ⟨day, -, opened, early, within, -⟩ := isBar.onDay fine
  have onDay : istDay bar = day := istDay_of_inside opened (early.trans_le within)
  have closeDay : istDay close = day := by
    simp only [opensAt_eq, closesAt_eq, istDay, istOffset, dayUs, minuteUs] at *
    omega
  refine (expectedBar_iff fine).mpr ⟨by omega, ⟨close, isBar, le_refl _⟩, fun bar' close' isBar' closed' => ?_⟩
  by_contra after
  have apart := isBar.apart fine isBar' (not_le.mp after)
  obtain ⟨-, -, -, early', -⟩ := isBar'.onDay fine
  omega

/-! ## Tiling -/

/-- What the two functions say of a timeframe. -/
structure Tiling (holidays : List ℤ) (tf : Timeframe) : Prop where
  latest : ∀ now, (∃ bar close, IsBar holidays tf bar close ∧ close ≤ now ∧ istDay now - 15 < istDay bar) →
    ∃ bar, expectedBar holidays now tf = some bar ∧ Latest holidays tf now bar
  mono : ∀ now now' bar bar', now ≤ now' → expectedBar holidays now tf = some bar →
    expectedBar holidays now' tf = some bar' → bar ≤ bar'
  forming : ∀ now bar, formingBar holidays now tf = some bar ↔ ∃ close, Inside holidays tf now bar close
  unique : ∀ now bar close bar' close', Inside holidays tf now bar close → Inside holidays tf now bar' close' →
    bar = bar' ∧ close = close'
  closes : ∀ now bar close, formingBar holidays now tf = some bar → IsBar holidays tf bar close →
    expectedBar holidays close tf = some bar

/-- The bars of every intraday timeframe and of the day tile the exchange clock. -/
theorem bars_tile (holidays : List ℤ) (tf : Timeframe) (fine : isPeriod tf = false) : Tiling holidays tf where
  latest := by
    rintro now ⟨bar, close, isBar, closed, near⟩
    obtain ⟨found, expected⟩ := expectedBar_of_closed fine isBar closed near
    exact ⟨found, expected, ((expectedBar_iff fine).mp expected).2⟩
  mono := fun _ _ _ _ le expected expected' => expectedBar_mono le expected expected'
  forming := fun _ _ => ⟨fun forming => (inside_of_forming forming).2, fun ⟨_, inside⟩ => inside.forming fine⟩
  unique := fun _ _ _ _ _ inside inside' => inside.unique fine inside'
  closes := fun _ _ _ _ isBar => expectedBar_at_close fine isBar

/-- Bars of five minutes. -/
theorem bars_tile_minutes : Tiling [] .m5 := bars_tile [] .m5 rfl

/-- On a trading day after fourteen without one nothing is expected before its first bar has closed, though bars have
closed before. -/
theorem expectedBar_first_minutes : ¬ ∀ (holidays : List ℤ) (now : ℤ) (tf : Timeframe), isPeriod tf = false →
    (∃ day, istDay now - 15 < day ∧ day ≤ istDay now ∧ isTradingDay holidays day = true) →
    (∃ bar close, IsBar holidays tf bar close ∧ close ≤ now) →
      ∃ bar, expectedBar holidays now tf = some bar ∧ Latest holidays tf now bar := by
  intro claimed
  have closed : IsBar ((List.range 14).map fun k : ℕ => 19990 + (k : ℤ)) .d1 (opensAt 19989) (closesAt 19989) :=
    .day (by decide)
  obtain ⟨bar, expected, -⟩ := claimed ((List.range 14).map fun k : ℕ => 19990 + (k : ℤ)) (opensAt 20004) .d1 rfl
    ⟨20004, by decide, by decide, by decide⟩ ⟨_, _, closed, by decide⟩
  have none_ : expectedBar ((List.range 14).map fun k : ℕ => 19990 + (k : ℤ)) (opensAt 20004) .d1 = none := by
    decide +kernel
  rw [none_] at expected
  cases expected

end AdvanceTrading.BarClose
