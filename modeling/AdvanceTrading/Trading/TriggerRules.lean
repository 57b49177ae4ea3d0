import Mathlib.Algebra.Order.Group.Int
import Mathlib.Data.List.Pairwise
import Mathlib.Order.Lattice
import Mathlib.Tactic.Linarith
import Mathlib.Tactic.Ring

/-!
# Trigger rules: closed candles

Model of `app/trading/trigger_rules.py:72-114`. Instants are microseconds since
the epoch, aware and in UTC; prices are any linear order. A candle of N minutes
is counted from an anchor minute of its bar's own IST day, so the grid starts
again at every IST midnight.
-/

namespace AdvanceTrading.TriggerRules

/-- One minute, in microseconds. -/
def minuteUs : Int := 60 * 1000000

/-- One day, in microseconds. -/
def dayUs : Int := 1440 * minuteUs

/-- `IST`: five and a half hours ahead of UTC. -/
def istOffset : Int := 330 * minuteUs

/-- `NSE_OPEN_MINUTE`. -/
def nseOpenMinute : Int := 9 * 60 + 15

/-- ABOVE or BELOW. -/
inductive Side where
  | above
  | below
  deriving DecidableEq, Repr

section Prices

variable {P : Type}

/-- A one-minute bar; `timestamp` is its start. -/
structure Bar (P : Type) where
  timestamp : Int
  low : P
  high : P
  close : P
  deriving DecidableEq, Repr

/-- `Candle` (`trigger_rules.py:63-69`); `stop` is the source's `end`. -/
structure Candle (P : Type) where
  start : Int
  stop : Int
  close : P
  low : P
  high : P
  deriving DecidableEq, Repr

/-- The IST day of an instant, counted from the epoch. -/
def istDay (t : Int) : Int := (t + istOffset) / dayUs

/-- `ist.hour * 60 + ist.minute`. -/
def istMinute (t : Int) : Int := (t + istOffset) % dayUs / minuteUs

/-- `minute // timeframe_minutes`: the floor, also for a bar before the anchor. -/
def bucket (anchor timeframe t : Int) : Int := (istMinute t - anchor) / timeframe

/-- The start of the candle a bar belongs to (`trigger_rules.py:86-90`). -/
def candleStart (anchor timeframe t : Int) : Int :=
  istDay t * dayUs - istOffset + (anchor + bucket anchor timeframe t * timeframe) * minuteUs

/-- The candle a bar opens. -/
def openCandle (anchor timeframe : Int) (bar : Bar P) : Candle P where
  start := candleStart anchor timeframe bar.timestamp
  stop := candleStart anchor timeframe bar.timestamp + timeframe * minuteUs
  close := bar.close
  low := bar.low
  high := bar.high

variable [LinearOrder P]

/-- The candle with one more of its bars. -/
def Candle.absorb (candle : Candle P) (bar : Bar P) : Candle P :=
  { candle with close := bar.close, low := min candle.low bar.low, high := max candle.high bar.high }

/-- The loop of `closed_candles` (`trigger_rules.py:82-101`) from `current` on:
the candles it appends, in order. -/
def candleLoop (anchor timeframe now : Int) : Option (Candle P) → List (Bar P) → List (Candle P)
  | current, [] => current.toList
  | current, bar :: bars =>
      -- a forming or future bar ends the loop
      if now < bar.timestamp + minuteUs then current.toList
      else
        match current with
        | none => candleLoop anchor timeframe now (some (openCandle anchor timeframe bar)) bars
        | some candle =>
            if candle.start = candleStart anchor timeframe bar.timestamp then
              candleLoop anchor timeframe now (some (candle.absorb bar)) bars
            else
              candle :: candleLoop anchor timeframe now (some (openCandle anchor timeframe bar)) bars

/-- The candles `closed_candles` returns for a timeframe of at least a minute. -/
def closedOf (anchor timeframe now : Int) (bars : List (Bar P)) : List (Candle P) :=
  (candleLoop anchor timeframe now none bars).filter fun candle => candle.stop ≤ now

/-- `closed_candles` (`trigger_rules.py:76-102`), counted from the NSE open. -/
def closedCandles (bars : List (Bar P)) (timeframe now : Int) : Except String (List (Candle P)) :=
  if timeframe < 1 then .error "timeframe_minutes must be at least 1"
  else .ok (closedOf nseOpenMinute timeframe now bars)

/-- `closed_beyond`. -/
def closedBeyond (level : P) (side : Side) (close : P) : Bool :=
  match side with
  | .above => level ≤ close
  | .below => close ≤ level

/-- `close_trigger` (`trigger_rules.py:105-114`). -/
def closeTrigger (level : P) (side : Side) (bars : List (Bar P)) (timeframe now : Int)
    (armedAt : Option Int) : Except String (Option (Candle P)) :=
  (closedCandles bars timeframe now).map fun candles =>
    candles.find? fun candle => armedAt.all (· < candle.stop) && closedBeyond level side candle.close

/-! ## The candle grid -/

/-- The minute of the IST day an instant falls in. -/
theorem istMinute_bounds (t : Int) :
    istDay t * dayUs - istOffset + istMinute t * minuteUs ≤ t ∧
      t < istDay t * dayUs - istOffset + (istMinute t + 1) * minuteUs := by
  unfold istDay istMinute dayUs minuteUs
  omega

variable {timeframe : Int}

theorem bucket_bounds (positive : 1 ≤ timeframe) (anchor t : Int) :
    bucket anchor timeframe t * timeframe ≤ istMinute t - anchor ∧
      istMinute t - anchor < bucket anchor timeframe t * timeframe + timeframe := by
  have low := Int.ediv_mul_le (istMinute t - anchor) (by omega : timeframe ≠ 0)
  have high := Int.lt_ediv_add_one_mul_self (istMinute t - anchor) (by omega : 0 < timeframe)
  rw [add_mul, one_mul] at high
  exact ⟨low, high⟩

/-- A bar lies inside its own candle. -/
theorem candleStart_bounds (positive : 1 ≤ timeframe) (anchor t : Int) :
    candleStart anchor timeframe t ≤ t ∧
      t < candleStart anchor timeframe t + timeframe * minuteUs := by
  obtain ⟨minuteLow, minuteHigh⟩ := istMinute_bounds t
  obtain ⟨bucketLow, bucketHigh⟩ := bucket_bounds positive anchor t
  unfold candleStart minuteUs at *
  generalize bucket anchor timeframe t * timeframe = grid at *
  omega

/-- Candle starts are whole minutes. -/
theorem minuteUs_dvd_candleStart (anchor timeframe t : Int) :
    minuteUs ∣ candleStart anchor timeframe t := by
  refine ⟨istDay t * 1440 - 330 + (anchor + bucket anchor timeframe t * timeframe), ?_⟩
  unfold candleStart dayUs istOffset minuteUs
  ring

/-- Candles are apart: bars in order share a candle, or the later one's starts
at or after the end of the earlier one's. -/
def Apart (anchor timeframe : Int) (a b : Int) : Prop :=
  candleStart anchor timeframe a = candleStart anchor timeframe b ∨
    candleStart anchor timeframe a + timeframe * minuteUs ≤ candleStart anchor timeframe b

/-- Two candles whose distance is a whole number of timeframes are apart in the order of their bars. -/
theorem apart_of_grid {anchor a b steps : Int} (positive : 1 ≤ timeframe) (ordered : a ≤ b)
    (grid : candleStart anchor timeframe b - candleStart anchor timeframe a = steps * (timeframe * minuteUs)) :
    Apart anchor timeframe a b := by
  obtain ⟨lowA, highA⟩ := candleStart_bounds positive anchor a
  obtain ⟨lowB, highB⟩ := candleStart_bounds positive anchor b
  have width : 0 < timeframe * minuteUs := mul_pos (by omega) (by decide)
  -- the later bar is not before the earlier candle, so no step goes back
  have forward : 0 ≤ steps := by
    by_contra back
    have : steps * (timeframe * minuteUs) ≤ -1 * (timeframe * minuteUs) :=
      mul_le_mul_of_nonneg_right (by omega) width.le
    omega
  rcases eq_or_lt_of_le forward with none | some
  · left
    rw [← none] at grid
    omega
  · right
    have : 1 * (timeframe * minuteUs) ≤ steps * (timeframe * minuteUs) :=
      mul_le_mul_of_nonneg_right some width.le
    omega

/-- Bars of one IST day share one grid. -/
theorem apart_of_same_day {anchor a b : Int} (positive : 1 ≤ timeframe) (ordered : a ≤ b)
    (sameDay : istDay a = istDay b) : Apart anchor timeframe a b := by
  have grid : candleStart anchor timeframe b - candleStart anchor timeframe a =
      (bucket anchor timeframe b - bucket anchor timeframe a) * (timeframe * minuteUs) := by
    unfold candleStart
    rw [sameDay]
    ring
  exact apart_of_grid positive ordered grid

/-- A timeframe that divides the day puts all days on one grid. -/
theorem apart_of_dvd_day {anchor a b : Int} (positive : 1 ≤ timeframe) (ordered : a ≤ b)
    (divides : timeframe ∣ 1440) : Apart anchor timeframe a b := by
  obtain ⟨perDay, whole⟩ := divides
  have grid : candleStart anchor timeframe b - candleStart anchor timeframe a =
      ((istDay b - istDay a) * perDay + (bucket anchor timeframe b - bucket anchor timeframe a)) *
        (timeframe * minuteUs) := by
    unfold candleStart dayUs
    rw [whole]
    ring
  exact apart_of_grid positive ordered grid

/-! ## The loop -/

variable {anchor timeframe : Int}

theorem candleLoop_some_cons (now : Int) (candle : Candle P) (bar : Bar P) (bars : List (Bar P)) :
    candleLoop anchor timeframe now (some candle) (bar :: bars) =
      if now < bar.timestamp + minuteUs then [candle]
      else if candle.start = candleStart anchor timeframe bar.timestamp then
        candleLoop anchor timeframe now (some (candle.absorb bar)) bars
      else candle :: candleLoop anchor timeframe now (some (openCandle anchor timeframe bar)) bars :=
  rfl

/-- The candle being built and the bars still to come: the candle has its full
width, and the bars lie in it or in candles after it. -/
structure Ready (anchor timeframe : Int) (candle : Candle P) (bars : List (Bar P)) : Prop where
  width : candle.stop = candle.start + timeframe * minuteUs
  ahead : ∀ bar ∈ bars, candle.start = candleStart anchor timeframe bar.timestamp ∨
    candle.stop ≤ candleStart anchor timeframe bar.timestamp
  apart : bars.Pairwise fun a b => Apart anchor timeframe a.timestamp b.timestamp

variable {bars : List (Bar P)} {bar : Bar P}

omit [LinearOrder P] in
theorem ready_open
    (apart : (bar :: bars).Pairwise fun a b => Apart anchor timeframe a.timestamp b.timestamp) :
    Ready anchor timeframe (openCandle anchor timeframe bar) bars := by
  obtain ⟨first, rest⟩ := List.pairwise_cons.mp apart
  exact ⟨rfl, first, rest⟩

variable {candle : Candle P}

theorem ready_absorb (ready : Ready anchor timeframe candle (bar :: bars)) :
    Ready anchor timeframe (candle.absorb bar) bars :=
  ⟨ready.width, fun b member => ready.ahead b (List.mem_cons_of_mem _ member),
    (List.pairwise_cons.mp ready.apart).2⟩

omit [LinearOrder P] in
/-- A bar outside the candle being built opens one that starts after it. -/
theorem stop_le_open (ready : Ready anchor timeframe candle (bar :: bars))
    (outside : ¬ candle.start = candleStart anchor timeframe bar.timestamp) :
    candle.stop ≤ (openCandle anchor timeframe bar).start :=
  (ready.ahead bar List.mem_cons_self).resolve_left outside

variable {now : Int}

/-- Every candle of the loop has its full width, and is the one being built or
starts after it. -/
theorem candleLoop_later (positive : 1 ≤ timeframe) (ready : Ready anchor timeframe candle bars) :
    ∀ d ∈ candleLoop anchor timeframe now (some candle) bars,
      d.stop = d.start + timeframe * minuteUs ∧ (d.start = candle.start ∨ candle.stop ≤ d.start) := by
  induction bars generalizing candle with
  | nil =>
    intro d member
    obtain rfl : d = candle := by simpa [candleLoop] using member
    exact ⟨ready.width, .inl rfl⟩
  | cons bar bars ih =>
    intro d member
    rw [candleLoop_some_cons] at member
    split_ifs at member with forming inside
    · obtain rfl : d = candle := by simpa using member
      exact ⟨ready.width, .inl rfl⟩
    · exact ih (ready_absorb ready) d member
    · rcases List.mem_cons.mp member with rfl | member
      · exact ⟨ready.width, .inl rfl⟩
      · obtain ⟨width, position⟩ := ih (ready_open ready.apart) d member
        have after := stop_le_open ready inside
        have wide : 0 ≤ timeframe * minuteUs := mul_nonneg (by omega) (by decide)
        have opened : (openCandle anchor timeframe bar).stop =
            (openCandle anchor timeframe bar).start + timeframe * minuteUs := rfl
        exact ⟨width, .inr (by omega)⟩

/-- The candles of the loop do not overlap. -/
theorem candleLoop_pairwise (positive : 1 ≤ timeframe) (ready : Ready anchor timeframe candle bars) :
    (candleLoop anchor timeframe now (some candle) bars).Pairwise fun c d => c.stop ≤ d.start := by
  induction bars generalizing candle with
  | nil => exact List.pairwise_singleton _ _
  | cons bar bars ih =>
    rw [candleLoop_some_cons]
    split_ifs with forming inside
    · exact List.pairwise_singleton _ _
    · exact ih (ready_absorb ready)
    · refine List.pairwise_cons.mpr ⟨fun d member => ?_, ih (ready_open ready.apart)⟩
      obtain ⟨_, position⟩ := candleLoop_later positive (ready_open ready.apart) d member
      have after := stop_le_open ready inside
      have wide : 0 ≤ timeframe * minuteUs := mul_nonneg (by omega) (by decide)
      have opened : (openCandle anchor timeframe bar).stop =
          (openCandle anchor timeframe bar).start + timeframe * minuteUs := rfl
      omega

/-- A bar of a candle that is whole minutes wide is over by the candle's end. -/
theorem bar_over_by_stop {t stop : Int} (aligned : minuteUs ∣ t) (whole : minuteUs ∣ stop)
    (before : t < stop) : t + minuteUs ≤ stop := by
  obtain ⟨m, rfl⟩ := aligned
  obtain ⟨n, rfl⟩ := whole
  unfold minuteUs at *
  omega

omit [LinearOrder P] in
/-- At an instant at which the candle being built has closed, its bars have all been read. -/
theorem not_closed_of_forming (positive : 1 ≤ timeframe)
    (width : candle.stop = candle.start + timeframe * minuteUs) (aligned : minuteUs ∣ bar.timestamp)
    (inside : candle.start = candleStart anchor timeframe bar.timestamp)
    (forming : now < bar.timestamp + minuteUs) : ¬ candle.stop ≤ now := by
  have whole : minuteUs ∣ candle.stop := by
    rw [width, inside]
    exact Int.dvd_add (minuteUs_dvd_candleStart anchor timeframe bar.timestamp) (Int.dvd_mul_left _ _)
  obtain ⟨_, before⟩ := candleStart_bounds positive anchor bar.timestamp
  have ended := bar_over_by_stop aligned whole (by omega)
  omega

/-- What has closed by an instant stays, and comes first, at every later one. -/
theorem candleLoop_grows (positive : 1 ≤ timeframe) {later : Int} (after : now ≤ later)
    (ready : Ready anchor timeframe candle bars) (aligned : ∀ bar ∈ bars, minuteUs ∣ bar.timestamp) :
    (candleLoop anchor timeframe now (some candle) bars).filter (fun c => decide (c.stop ≤ now)) <+:
      (candleLoop anchor timeframe later (some candle) bars).filter
        (fun c => decide (c.stop ≤ later)) := by
  induction bars generalizing candle with
  | nil =>
    simp only [candleLoop, Option.toList_some]
    by_cases closed : candle.stop ≤ now
    · have closedLater : candle.stop ≤ later := by omega
      simp [closed, closedLater]
    · simp [closed]
  | cons bar bars ih =>
    have alignedRest : ∀ b ∈ bars, minuteUs ∣ b.timestamp := fun b member =>
      aligned b (List.mem_cons_of_mem _ member)
    rw [candleLoop_some_cons, candleLoop_some_cons]
    by_cases forming : now < bar.timestamp + minuteUs
    · -- the earlier pass stops here with the candle it is building
      simp only [forming, if_true]
      by_cases closed : candle.stop ≤ now
      · have closedLater : candle.stop ≤ later := by omega
        have outside : ¬ candle.start = candleStart anchor timeframe bar.timestamp := by
          intro inside
          exact not_closed_of_forming positive ready.width (aligned bar List.mem_cons_self) inside
            forming closed
        split_ifs <;> simp [closed, closedLater]
      · simp [closed]
    · have formingLater : ¬ later < bar.timestamp + minuteUs := by omega
      simp only [forming, formingLater, if_false]
      split_ifs with inside
      · exact ih (ready_absorb ready) alignedRest
      · have rest := ih (ready_open ready.apart) alignedRest
        by_cases closed : candle.stop ≤ now
        · have closedLater : candle.stop ≤ later := by omega
          simpa [closed, closedLater] using rest
        · -- no candle after one that has not closed has closed
          have open_ : (candleLoop anchor timeframe now (some (openCandle anchor timeframe bar))
              bars).filter (fun c => decide (c.stop ≤ now)) = [] := by
            rw [List.filter_eq_nil_iff]
            intro d member
            obtain ⟨width, position⟩ := candleLoop_later positive (ready_open ready.apart) d member
            have next := stop_le_open ready inside
            have wide : 0 ≤ timeframe * minuteUs := mul_nonneg (by omega) (by decide)
            have opened : (openCandle anchor timeframe bar).stop =
                (openCandle anchor timeframe bar).start + timeframe * minuteUs := rfl
            simp only [decide_eq_true_eq]
            omega
          simp [closed, open_]

/-! ## What a candle holds -/

/-- The candle's low, high and close are those of the bars. -/
structure Summarises (candle : Candle P) (bars : List (Bar P)) : Prop where
  low : (bars.map (·.low)).min? = some candle.low
  high : (bars.map (·.high)).max? = some candle.high
  close : bars.getLast?.map (·.close) = some candle.close

theorem summarises_open (bar : Bar P) : Summarises (openCandle anchor timeframe bar) [bar] :=
  ⟨rfl, rfl, rfl⟩

theorem min?_concat {values : List P} {least : P} (bounded : values.min? = some least) (value : P) :
    (values ++ [value]).min? = some (min least value) := by
  cases values with
  | nil => cases bounded
  | cons first values =>
    rw [List.min?_cons', Option.some.injEq] at bounded
    rw [List.cons_append, List.min?_cons', List.foldl_append, bounded]
    rfl

theorem max?_concat {values : List P} {greatest : P} (bounded : values.max? = some greatest)
    (value : P) : (values ++ [value]).max? = some (max greatest value) := by
  cases values with
  | nil => cases bounded
  | cons first values =>
    rw [List.max?_cons', Option.some.injEq] at bounded
    rw [List.cons_append, List.max?_cons', List.foldl_append, bounded]
    rfl

theorem summarises_absorb {seen : List (Bar P)} (summary : Summarises candle seen) (bar : Bar P) :
    Summarises (candle.absorb bar) (seen ++ [bar]) := by
  refine ⟨?_, ?_, ?_⟩
  · rw [List.map_append]
    exact min?_concat summary.low bar.low
  · rw [List.map_append]
    exact max?_concat summary.high bar.high
  · rw [List.getLast?_concat]
    rfl

/-- The bars of a list that belong to the candle starting at `start`. -/
def barsOf (anchor timeframe start : Int) (bars : List (Bar P)) : List (Bar P) :=
  bars.filter fun bar => candleStart anchor timeframe bar.timestamp = start

/-- A closed candle of the loop summarises all its bars: those seen before and
those still to come. -/
theorem candleLoop_summarises (positive : 1 ≤ timeframe) {seen : List (Bar P)}
    (ready : Ready anchor timeframe candle bars) (aligned : ∀ bar ∈ bars, minuteUs ∣ bar.timestamp)
    (ascending : bars.Pairwise fun a b => a.timestamp ≤ b.timestamp)
    (summary : Summarises candle seen) :
    ∀ d ∈ candleLoop anchor timeframe now (some candle) bars, d.stop ≤ now →
      Summarises d ((if d.start = candle.start then seen else []) ++
        barsOf anchor timeframe d.start bars) := by
  induction bars generalizing candle seen with
  | nil =>
    intro d member _
    obtain rfl : d = candle := by simpa [candleLoop] using member
    simpa [barsOf] using summary
  | cons bar bars ih =>
    obtain ⟨first, ascendingRest⟩ := List.pairwise_cons.mp ascending
    have alignedRest : ∀ b ∈ bars, minuteUs ∣ b.timestamp := fun b member =>
      aligned b (List.mem_cons_of_mem _ member)
    intro d member closed
    rw [candleLoop_some_cons] at member
    split_ifs at member with forming inside
    · obtain rfl : d = candle := by simpa using member
      -- none of the bars not read can be in a candle that has closed
      have unread : barsOf anchor timeframe d.start (bar :: bars) = [] := by
        rw [barsOf, List.filter_eq_nil_iff]
        intro b listed belongs
        have belongs : candleStart anchor timeframe b.timestamp = d.start := by simpa using belongs
        have notYet : now < b.timestamp + minuteUs := by
          rcases List.mem_cons.mp listed with rfl | later
          · exact forming
          · have := first b later
            omega
        exact not_closed_of_forming positive ready.width (aligned b listed) belongs.symm notYet closed
      simpa [unread] using summary
    · have step := ih (ready_absorb ready) alignedRest ascendingRest (summarises_absorb summary bar) d
        member closed
      have sameStart : (candle.absorb bar).start = candle.start := rfl
      rw [sameStart] at step
      by_cases same : d.start = candle.start
      · have here : candleStart anchor timeframe bar.timestamp = d.start := by rw [same, inside]
        simpa [barsOf, same, inside] using step
      · have elsewhere : ¬ candleStart anchor timeframe bar.timestamp = d.start := by
          intro here
          exact same (here.symm.trans inside.symm)
        simpa [barsOf, same, elsewhere] using step
    · rcases List.mem_cons.mp member with rfl | member
      · -- the candle is put out: the bars to come are in later ones
        have none_ : barsOf anchor timeframe d.start (bar :: bars) = [] := by
          rw [barsOf, List.filter_eq_nil_iff]
          intro b listed belongs
          have belongs : candleStart anchor timeframe b.timestamp = d.start := by simpa using belongs
          have wide : 0 < timeframe * minuteUs := mul_pos (by omega) (by decide)
          have width := ready.width
          have next := (ready.ahead bar List.mem_cons_self).resolve_left inside
          rcases List.mem_cons.mp listed with rfl | later
          · omega
          · rcases (List.pairwise_cons.mp ready.apart).1 b later with same | after
            · exact inside (belongs.symm.trans same.symm)
            · omega
        simpa [none_] using summary
      · have step := ih (ready_open ready.apart) alignedRest ascendingRest (summarises_open bar) d
          member closed
        obtain ⟨_, position⟩ := candleLoop_later positive (ready_open ready.apart) d member
        have next := stop_le_open ready inside
        have wide : 0 < timeframe * minuteUs := mul_pos (by omega) (by decide)
        have width := ready.width
        have opened : (openCandle anchor timeframe bar).stop =
            (openCandle anchor timeframe bar).start + timeframe * minuteUs := rfl
        have notOld : ¬ d.start = candle.start := by omega
        have start : (openCandle anchor timeframe bar).start =
            candleStart anchor timeframe bar.timestamp := rfl
        by_cases same : d.start = candleStart anchor timeframe bar.timestamp
        · have outside : ¬ candleStart anchor timeframe bar.timestamp = candle.start := by
            rw [← same]
            exact notOld
          simpa [barsOf, same, outside, start] using step
        · have elsewhere : ¬ candleStart anchor timeframe bar.timestamp = d.start := fun here =>
            same here.symm
          simpa [barsOf, notOld, same, elsewhere, start] using step

/-! ## Closed candles -/

/-- Bars in time order whose candles are apart. -/
structure Gridded (anchor timeframe : Int) (bars : List (Bar P)) : Prop where
  aligned : ∀ bar ∈ bars, minuteUs ∣ bar.timestamp
  ascending : bars.Pairwise fun a b => a.timestamp ≤ b.timestamp
  apart : bars.Pairwise fun a b => Apart anchor timeframe a.timestamp b.timestamp

/-- The candle of an earlier IST day ends before the candle of a later day's bar starts. -/
def DaysApart (anchor timeframe : Int) (bars : List (Bar P)) : Prop :=
  bars.Pairwise fun a b => istDay a.timestamp < istDay b.timestamp →
    candleStart anchor timeframe a.timestamp + timeframe * minuteUs ≤
      candleStart anchor timeframe b.timestamp

omit [LinearOrder P] in
/-- Within a day candles are always apart, so only the change of day can bring
two of them across each other, and not when the timeframe divides the day. -/
theorem gridded_of_days (positive : 1 ≤ timeframe)
    (aligned : ∀ bar ∈ bars, minuteUs ∣ bar.timestamp)
    (ascending : bars.Pairwise fun a b => a.timestamp ≤ b.timestamp)
    (days : timeframe ∣ 1440 ∨ DaysApart anchor timeframe bars) :
    Gridded anchor timeframe bars := by
  refine ⟨aligned, ascending, ?_⟩
  rcases days with divides | days
  · exact ascending.imp fun ordered => apart_of_dvd_day positive ordered divides
  · refine (ascending.and days).imp ?_
    rintro a b ⟨ordered, apart⟩
    have dayOrder : istDay a.timestamp ≤ istDay b.timestamp :=
      Int.ediv_le_ediv (by decide) (by omega)
    rcases eq_or_lt_of_le dayOrder with same | earlier
    · exact apart_of_same_day positive ordered same
    · exact .inr (apart earlier)

/-- The loop from no candle: it stops before the first bar, or opens its candle. -/
theorem candleLoop_none_cons (now : Int) (bar : Bar P) (bars : List (Bar P)) :
    candleLoop anchor timeframe now none (bar :: bars) =
      if now < bar.timestamp + minuteUs then []
      else candleLoop anchor timeframe now (some (openCandle anchor timeframe bar)) bars :=
  rfl

theorem closedOf_grows (positive : 1 ≤ timeframe) {later : Int} (after : now ≤ later)
    (gridded : Gridded anchor timeframe bars) :
    closedOf anchor timeframe now bars <+: closedOf anchor timeframe later bars := by
  unfold closedOf
  cases bars with
  | nil => exact List.prefix_rfl
  | cons bar bars =>
    rw [candleLoop_none_cons, candleLoop_none_cons]
    by_cases forming : now < bar.timestamp + minuteUs
    · rw [if_pos forming]
      exact List.nil_prefix
    · have read : ¬ later < bar.timestamp + minuteUs := by omega
      rw [if_neg forming, if_neg read]
      exact candleLoop_grows positive after (ready_open gridded.apart)
        fun b member => gridded.aligned b (List.mem_cons_of_mem _ member)

theorem closedOf_pairwise (positive : 1 ≤ timeframe) (gridded : Gridded anchor timeframe bars) :
    (closedOf anchor timeframe now bars).Pairwise fun c d => c.stop ≤ d.start := by
  unfold closedOf
  refine List.Pairwise.filter _ ?_
  cases bars with
  | nil => exact List.Pairwise.nil
  | cons bar bars =>
    rw [candleLoop_none_cons]
    split_ifs with forming
    · exact List.Pairwise.nil
    · exact candleLoop_pairwise positive (ready_open gridded.apart)

/-- The bars of a list that start inside the candle. -/
def barsInside (candle : Candle P) (bars : List (Bar P)) : List (Bar P) :=
  bars.filter fun bar => candle.start ≤ bar.timestamp ∧ bar.timestamp < candle.stop

omit [LinearOrder P] in
theorem apart_either (gridded : Gridded anchor timeframe bars) {a b : Bar P} (aListed : a ∈ bars)
    (bListed : b ∈ bars) :
    Apart anchor timeframe a.timestamp b.timestamp ∨
      Apart anchor timeframe b.timestamp a.timestamp := by
  have forwards : bars.Pairwise fun a b => Apart anchor timeframe a.timestamp b.timestamp ∨
      Apart anchor timeframe b.timestamp a.timestamp := gridded.apart.imp fun apart => .inl apart
  have backwards : bars.Pairwise fun a b => Apart anchor timeframe b.timestamp a.timestamp ∨
      Apart anchor timeframe a.timestamp b.timestamp := gridded.apart.imp fun apart => .inr apart
  exact List.Pairwise.forall_of_forall_of_flip (fun _ _ => .inl (.inl rfl)) forwards backwards
    aListed bListed

section

variable (positive : 1 ≤ timeframe)
include positive

omit [LinearOrder P] in
/-- On bars whose candles are apart, belonging to a candle is starting inside it. -/
theorem barsOf_eq_barsInside (gridded : Gridded anchor timeframe bars)
    (width : candle.stop = candle.start + timeframe * minuteUs)
    (own : ∃ bar ∈ bars, candleStart anchor timeframe bar.timestamp = candle.start) :
    barsOf anchor timeframe candle.start bars = barsInside candle bars := by
  obtain ⟨mine, mineListed, mineStart⟩ := own
  refine List.filter_congr fun bar listed => ?_
  rw [decide_eq_decide]
  obtain ⟨low, high⟩ := candleStart_bounds positive anchor bar.timestamp
  constructor
  · intro belongs
    omega
  · rintro ⟨from_, before⟩
    by_contra elsewhere
    -- the two bars are in the list in one order or the other
    rcases apart_either gridded listed mineListed with (same | apart) | (same | apart) <;> omega

/-- A closed candle has its full width and summarises exactly the bars that start inside it. -/
theorem closedOf_summarises (gridded : Gridded anchor timeframe bars) :
    ∀ c ∈ closedOf anchor timeframe now bars, c.stop ≤ now ∧
      c.stop = c.start + timeframe * minuteUs ∧ Summarises c (barsInside c bars) := by
  intro c member
  obtain ⟨listed, closed⟩ := List.mem_filter.mp member
  have closed : c.stop ≤ now := by simpa using closed
  cases bars with
  | nil => cases listed
  | cons bar bars =>
    rw [candleLoop_none_cons] at listed
    split_ifs at listed with forming
    · cases listed
    have aligned : ∀ b ∈ bars, minuteUs ∣ b.timestamp := fun b member =>
      gridded.aligned b (List.mem_cons_of_mem _ member)
    have ready := ready_open gridded.apart
    obtain ⟨width, _⟩ := candleLoop_later positive ready c listed
    have summary := candleLoop_summarises positive ready aligned
      (List.pairwise_cons.mp gridded.ascending).2 (summarises_open bar) c listed closed
    -- the opening bar counts when it is of this candle
    have all : (if c.start = (openCandle anchor timeframe bar).start then [bar] else []) ++
        barsOf anchor timeframe c.start bars = barsOf anchor timeframe c.start (bar :: bars) := by
      unfold barsOf
      rw [List.filter_cons]
      by_cases here : c.start = candleStart anchor timeframe bar.timestamp
      · simp [openCandle, here]
      · have elsewhere : ¬ candleStart anchor timeframe bar.timestamp = c.start := fun h => here h.symm
        simp [openCandle, here, elsewhere]
    rw [all] at summary
    have own : ∃ b ∈ bar :: bars, candleStart anchor timeframe b.timestamp = c.start := by
      by_contra noBar
      have empty : barsOf anchor timeframe c.start (bar :: bars) = [] := by
        rw [barsOf, List.filter_eq_nil_iff]
        intro b listed belongs
        exact noBar ⟨b, listed, by simpa using belongs⟩
      have close := summary.close
      rw [empty] at close
      cases close
    rw [barsOf_eq_barsInside positive gridded width own] at summary
    exact ⟨closed, width, summary⟩

theorem closedCandles_eq (bars : List (Bar P)) (now : Int) :
    closedCandles bars timeframe now = .ok (closedOf nseOpenMinute timeframe now bars) :=
  if_neg (by omega)

/-- A candle that triggered stays the one that triggers. -/
theorem closeTrigger_stable {later : Int} (after : now ≤ later)
    (gridded : Gridded nseOpenMinute timeframe bars) {level : P} {side : Side}
    {armedAt : Option Int}
    (triggered : closeTrigger level side bars timeframe now armedAt = .ok (some candle)) :
    closeTrigger level side bars timeframe later armedAt = .ok (some candle) := by
  unfold closeTrigger at *
  rw [closedCandles_eq positive] at *
  have found := Except.ok.inj triggered
  exact congrArg Except.ok ((closedOf_grows positive after gridded).find?_eq_some found)

end

/-- Closed candles never repaint, for a timeframe that divides the day and for
any timeframe on bars whose candles do not run across a change of IST day:
what has closed stays first, has closed, does not overlap, and summarises
exactly the bars that start inside it; and a trigger stays. -/
theorem closedCandles_never_repaint (bars : List (Bar P)) (timeframe : Int)
    (positive : 1 ≤ timeframe) (aligned : ∀ bar ∈ bars, minuteUs ∣ bar.timestamp)
    (ascending : bars.Pairwise fun a b => a.timestamp ≤ b.timestamp)
    (days : timeframe ∣ 1440 ∨ DaysApart nseOpenMinute timeframe bars) (now later : Int)
    (after : now ≤ later) :
    ∃ closed closedLater, closedCandles bars timeframe now = .ok closed ∧
      closedCandles bars timeframe later = .ok closedLater ∧ closed <+: closedLater ∧
      (∀ c ∈ closed, c.stop ≤ now ∧ c.stop = c.start + timeframe * minuteUs ∧
        Summarises c (barsInside c bars)) ∧
      (closed.Pairwise fun c d => c.stop ≤ d.start) ∧
      ∀ level side armedAt candle,
        closeTrigger level side bars timeframe now armedAt = .ok (some candle) →
          closeTrigger level side bars timeframe later armedAt = .ok (some candle) := by
  have gridded := gridded_of_days positive aligned ascending days
  refine ⟨_, _, closedCandles_eq positive bars now, closedCandles_eq positive bars later,
    closedOf_grows positive after gridded, closedOf_summarises positive gridded,
    closedOf_pairwise positive gridded, ?_⟩
  intro level side armedAt candle triggered
  exact closeTrigger_stable positive after gridded triggered

end Prices

/-- Two one-minute bars around an IST midnight: 23:00, and 00:00 of the next day. -/
def midnightBars : List (Bar Int) :=
  [⟨17 * 60 * minuteUs + 30 * minuteUs, 90, 110, 100⟩, ⟨18 * 60 * minuteUs + 30 * minuteUs, 95, 120, 105⟩]

theorem closedCandles_five_minutes :
    ∃ closed closedLater, closedCandles midnightBars 5 (20 * 60 * minuteUs) = .ok closed ∧
      closedCandles midnightBars 5 (24 * 60 * minuteUs) = .ok closedLater ∧ closed <+: closedLater ∧
      (∀ c ∈ closed, c.stop ≤ 20 * 60 * minuteUs ∧ c.stop = c.start + 5 * minuteUs ∧
        Summarises c (barsInside c midnightBars)) ∧
      (closed.Pairwise fun c d => c.stop ≤ d.start) ∧
      ∀ level side armedAt candle,
        closeTrigger level side midnightBars 5 (20 * 60 * minuteUs) armedAt = .ok (some candle) →
          closeTrigger level side midnightBars 5 (24 * 60 * minuteUs) armedAt = .ok (some candle) :=
  closedCandles_never_repaint midnightBars 5 (by decide) (by decide) (by decide)
    (.inl (by decide)) _ _ (by decide)

/-- In 400-minute candles the bar of 00:00 belongs to a candle that starts
before, and closes before, the candle of the 23:00 bar: what has closed at
03:00 is no longer first at 06:00. -/
theorem closedCandles_repaint_across_midnight :
    ¬ ∀ (bars : List (Bar Int)) (timeframe now later : Int), 1 ≤ timeframe → timeframe ≤ 1440 →
      (∀ bar ∈ bars, minuteUs ∣ bar.timestamp) →
      (bars.Pairwise fun a b => a.timestamp ≤ b.timestamp) → now ≤ later →
      ∀ closed closedLater, closedCandles bars timeframe now = .ok closed →
        closedCandles bars timeframe later = .ok closedLater → closed <+: closedLater := by
  intro claimed
  have kept := claimed midnightBars 400 (21 * 60 * minuteUs + 30 * minuteUs)
    (24 * 60 * minuteUs + 30 * minuteUs) (by decide) (by decide) (by decide) (by decide) (by decide)
    _ _ rfl rfl
  exact absurd kept (by decide)

end AdvanceTrading.TriggerRules
