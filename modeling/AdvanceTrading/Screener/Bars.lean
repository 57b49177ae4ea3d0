import AdvanceTrading.MarketData.Calendar
import AdvanceTrading.Misc.GroupedSeries
import AdvanceTrading.Misc.Months
import AdvanceTrading.Screener.Nodes
import Mathlib.Algebra.Order.Ring.Rat

/-!
# Bars of a screen

Model of `app/screener/runtime.py:50-185`: when a bar has closed, the buckets of
coarser bars, and resampling. Instants are microseconds from the epoch in UTC;
what a stamp's own zone decides is whether calendar buckets are counted in
exchange time (`Clock.aware`). `keep_forming` is for alerts within a bar and is
left out.
-/

namespace AdvanceTrading.Screener

open TriggerRules (minuteUs dayUs istOffset)

/-- What the stamps of one symbol's bars say: whether they carry a zone, and its exchange. -/
structure Clock where
  aware : Bool
  exchange : Option String
  deriving DecidableEq, Repr

/-- Daily bars without a zone. -/
def daysOnly : Clock := { aware := false, exchange := none }

/-- The exchange's offset where the stamps carry a zone, else UTC. -/
def Clock.offset (clock : Clock) : Int := if clock.aware then istOffset else 0

/-- The calendar day of an instant. -/
def Clock.day (clock : Clock) (t : Int) : Int := (t + clock.offset) / dayUs

/-- The instant a calendar day begins. -/
def Clock.begins (clock : Clock) (day : Int) : Int := day * dayUs - clock.offset

/-! ## When a bar has closed -/

/-- `TF_MINUTES`: session minutes, for a day and more. -/
def Timeframe.minutes : Timeframe → Nat
  | .m1 => 1
  | .m3 => 3
  | .m5 => 5
  | .m15 => 15
  | .m30 => 30
  | .h1 => 60
  | .d1 => 375
  | .w1 => 375 * 5
  | .mo1 => 375 * 21

/-- A value of `_DURATION`. -/
inductive Duration where
  | fixed (length : Int)
  | month
  deriving DecidableEq, Repr

/-- `_DURATION`. -/
def Timeframe.duration : Timeframe → Duration
  | .m1 => .fixed minuteUs
  | .m3 => .fixed (3 * minuteUs)
  | .m5 => .fixed (5 * minuteUs)
  | .m15 => .fixed (15 * minuteUs)
  | .m30 => .fixed (30 * minuteUs)
  | .h1 => .fixed (60 * minuteUs)
  | .d1 => .fixed dayUs
  | .w1 => .fixed (7 * dayUs)
  | .mo1 => .month

/-- `_session_capped`: the buckets do not tile the session, and the session is that of NSE. -/
def sessionCapped (tf : Timeframe) (exchange : Option String) : Bool :=
  if tf.minutes ≥ Timeframe.d1.minutes ∨ Timeframe.d1.minutes % tf.minutes = 0 then false
  else exchange.elim true fun exchange => MarketData.sessionFamily exchange = .nse

/-- 15:30 IST on the day of an instant. -/
def sessionClose (t : Int) : Int :=
  MarketData.dayStart (TriggerRules.istDay t) + (15 * 60 + 30) * minuteUs

/-- `index + DateOffset(months=1)` on the clock's calendar. -/
def monthLater (clock : Clock) (t : Int) : Int :=
  clock.begins (Months.nextMonth (clock.day t)) + (t + clock.offset) % dayUs

/-- `bar_close` of a bar that starts at `t`. -/
def barClose (clock : Clock) (tf : Timeframe) (t : Int) : Int :=
  match tf.duration with
  | .month => monthLater clock t
  | .fixed length =>
      if sessionCapped tf clock.exchange ∧ t < sessionClose t ∧ sessionClose t < t + length then
        sessionClose t
      else t + length

/-! ## Buckets -/

/-- `_IST_OPEN_UTC`: 09:15 IST as a time of the UTC day. -/
def istOpenUtc : Int := (3 * 60 + 45) * minuteUs

/-- `session_origin` of an index whose first stamp is `first`. -/
def sessionOrigin (first : Int) : Int := first / dayUs * dayUs + istOpenUtc

/-- The kinds of `_RESAMPLE`. -/
inductive Rule where
  | minutes (n : Int)
  | day
  | week
  | month
  deriving DecidableEq, Repr

/-- `_RESAMPLE`. -/
def Timeframe.rule : Timeframe → Rule
  | .m1 => .minutes 1
  | .m3 => .minutes 3
  | .m5 => .minutes 5
  | .m15 => .minutes 15
  | .m30 => .minutes 30
  | .h1 => .minutes 60
  | .d1 => .day
  | .w1 => .week
  | .mo1 => .month

/-- The left edge of the bucket holding `t`, in an index whose first stamp is `first`. Minutes are
counted from the session origin, weeks begin on Monday. -/
def bucketStart (clock : Clock) (tf : Timeframe) (first t : Int) : Int :=
  match tf.rule with
  | .minutes n =>
      sessionOrigin first + (t - sessionOrigin first) / (n * minuteUs) * (n * minuteUs)
  | .day => clock.begins (clock.day t)
  | .week => clock.begins ((clock.day t + 3) / 7 * 7 - 3)
  | .month => clock.begins (Months.monthStart (Months.monthOf (clock.day t)))

/-! ## Frames -/

/-- The columns of a frame. -/
inductive Column where
  | open_ | high | low | close | volume | oi
  deriving DecidableEq, Repr

/-- One bar; a missing value is `none`. -/
structure Row where
  start : Int
  open_ : Option ℚ
  high : Option ℚ
  low : Option ℚ
  close : Option ℚ
  volume : Option ℚ
  oi : Option ℚ
  deriving DecidableEq

def Row.get (row : Row) : Column → Option ℚ
  | .open_ => row.open_
  | .high => row.high
  | .low => row.low
  | .close => row.close
  | .volume => row.volume
  | .oi => row.oi

/-- Bars of one timeframe: each starts when the one before it has closed, or later. -/
structure Frame (clock : Clock) (tf : Timeframe) where
  columns : Column → Bool
  rows : List Row
  spaced : rows.Pairwise fun r r' => barClose clock tf r.start ≤ r'.start

/-- `SymbolData.frames`, and the frames an evaluation has built. -/
abbrev Frames (clock : Clock) := (tf : Timeframe) → Option (Frame clock tf)

/-- `frame.get(name)` as a series, of missing values where there is no such column. -/
def Frame.column {clock : Clock} {tf : Timeframe} (frame : Frame clock tf) (c : Column) :
    List (Option ℚ) :=
  if frame.columns c then frame.rows.map fun row => row.get c else frame.rows.map fun _ => none

/-! ### The clock's lemmas -/

section Clocks

variable (clock : Clock) (tf : Timeframe)

@[simp] theorem Clock.day_begins (day : Int) : clock.day (clock.begins day) = day := by
  unfold Clock.day Clock.begins dayUs minuteUs
  omega

/-- A bar closes after it starts. -/
theorem lt_barClose (t : Int) : t < barClose clock tf t := by
  have later : t < monthLater clock t := by
    have next := Months.lt_nextMonth (clock.day t)
    unfold monthLater Clock.begins Clock.day dayUs minuteUs at *
    omega
  unfold barClose
  cases tf <;> simp only [Timeframe.duration]
  case mo1 => exact later
  all_goals
    split
    · rename_i capped
      exact capped.2.1
    · simp only [dayUs, minuteUs]
      omega

variable (first : Int)

theorem bucketStart_le (t : Int) : bucketStart clock tf first t ≤ t := by
  have month := (Months.monthOf_spec (clock.day t)).1
  unfold Clock.day at month
  cases tf <;>
    simp only [bucketStart, Timeframe.rule, Clock.begins, Clock.day, dayUs, minuteUs] at * <;> omega

theorem bucketStart_mono {t u : Int} (le : t ≤ u) :
    bucketStart clock tf first t ≤ bucketStart clock tf first u := by
  have days : clock.day t ≤ clock.day u := by
    unfold Clock.day dayUs minuteUs
    omega
  have month := Months.monthStart_strictMono.monotone (Months.monthOf_mono days)
  cases tf <;> simp only [bucketStart, Timeframe.rule, Clock.begins, dayUs, minuteUs] <;> omega

/-- Minutes are counted from 09:15 on every day, so the first stamp decides nothing. -/
theorem bucketStart_first (first' t : Int) :
    bucketStart clock tf first t = bucketStart clock tf first' t := by
  cases tf <;> simp only [bucketStart, Timeframe.rule, sessionOrigin, istOpenUtc, dayUs, minuteUs] <;>
    omega

/-- A capped bar closes no later than an uncapped one. -/
theorem barClose_le {t length : Int} (fixed : tf.duration = .fixed length) :
    barClose clock tf t ≤ t + length := by
  simp only [barClose, fixed]
  split
  · rename_i capped
    exact capped.2.2.le
  · exact le_refl _

/-- A bucket has closed when a later one begins. -/
theorem barClose_bucketStart_le {t u : Int}
    (lt : bucketStart clock tf first t < bucketStart clock tf first u) :
    barClose clock tf (bucketStart clock tf first t) ≤ bucketStart clock tf first u := by
  cases tf
  case mo1 =>
    have month : Months.monthOf (clock.day t) < Months.monthOf (clock.day u) := by
      apply Months.monthStart_strictMono.lt_iff_lt.mp
      simp only [bucketStart, Timeframe.rule, Clock.begins, dayUs, minuteUs] at lt
      omega
    have next := Months.monthStart_strictMono.monotone (Int.add_one_le_iff.mpr month)
    simp only [bucketStart, Timeframe.rule, barClose, Timeframe.duration, monthLater]
    rw [Clock.day_begins, Months.nextMonth_monthStart]
    unfold Clock.begins dayUs minuteUs
    omega
  all_goals
    refine le_trans (barClose_le clock _ rfl) ?_
    simp only [bucketStart, Timeframe.rule, Clock.begins, dayUs, minuteUs] at lt ⊢
    omega

/-- Buckets that are not capped close when the next one may begin. -/
theorem lt_barClose_bucketStart (uncapped : sessionCapped tf clock.exchange = false) (t : Int) :
    t < barClose clock tf (bucketStart clock tf first t) := by
  cases tf
  case mo1 =>
    have month := (Months.monthOf_spec (clock.day t)).2
    simp only [bucketStart, Timeframe.rule, barClose, Timeframe.duration, monthLater,
      Clock.day_begins, Months.nextMonth_monthStart]
    simp only [Clock.begins, Clock.day, dayUs, minuteUs] at *
    omega
  all_goals
    simp only [barClose, Timeframe.duration, uncapped, bucketStart, Timeframe.rule, Clock.begins,
      Clock.day, dayUs, minuteUs, Bool.false_eq_true, false_and, if_false]
    omega

theorem barClose_bucketStart_mono {t u : Int} (le : t ≤ u) :
    barClose clock tf (bucketStart clock tf first t)
      ≤ barClose clock tf (bucketStart clock tf first u) := by
  rcases (bucketStart_mono clock tf first le).lt_or_eq with lt | same
  · exact (barClose_bucketStart_le clock tf first lt).trans (lt_barClose clock tf _).le
  · rw [same]

end Clocks

/-! ## Resampling -/

/-- The coarser bar of a bucket's bars. -/
def aggregate (label : Int) (rows : List Row) : Row where
  start := label
  open_ := firstValid (rows.map Row.open_)
  high := maxValid (rows.map Row.high)
  low := minValid (rows.map Row.low)
  close := lastValid (rows.map Row.close)
  volume := some (rows.filterMap Row.volume).sum
  oi := lastValid (rows.map Row.oi)

/-- The buckets of some bars that have a close, by increasing label. -/
def buckets (clock : Clock) (tf : Timeframe) (first : Int) (rows : List Row) : List Row :=
  ((Dict.groupBy (fun row => bucketStart clock tf first row.start) rows).map fun e =>
    aggregate e.1 e.2).filter fun row => row.close.isSome

/-- The rows that stay: a trailing bucket that closes after `lastClose` goes. -/
def withoutForming (clock : Clock) (tf : Timeframe) (lastClose : Int) (rows : List Row) : List Row :=
  match rows.getLast? with
  | some row => if lastClose < barClose clock tf row.start then rows.dropLast else rows
  | none => rows

/-- The rows of `resample`, from bars of `baseTf`. -/
def resampledRows (clock : Clock) (baseTf tf : Timeframe) (rows : List Row) : List Row :=
  match rows.head?, rows.getLast? with
  | some first, some last =>
      withoutForming clock tf (barClose clock baseTf last.start) (buckets clock tf first.start rows)
  | _, _ => []

section Buckets

variable {clock : Clock} {tf : Timeframe} {first : Int} {rows : List Row}

theorem exists_of_mem_buckets {row : Row} (mem : row ∈ buckets clock tf first rows) :
    ∃ r ∈ rows, bucketStart clock tf first r.start = row.start := by
  obtain ⟨e, listed, rfl⟩ := List.mem_map.mp (List.mem_filter.mp mem).1
  have key : e.1 ∈ Dict.keys (Dict.groupBy (fun r : Row => bucketStart clock tf first r.start) rows) :=
    List.mem_map.mpr ⟨e, listed, rfl⟩
  rw [Dict.mem_keys_groupBy] at key
  exact key

/-- The buckets of some labels are the buckets of the bars they hold. -/
theorem filter_buckets (clock : Clock) (tf : Timeframe) (first : Int) (rows : List Row)
    (p : Int → Bool) :
    (buckets clock tf first rows).filter (fun row => p row.start)
      = buckets clock tf first
          (rows.filter fun row => p (bucketStart clock tf first row.start)) := by
  unfold buckets
  rw [← Dict.filter_groupBy_keys p, List.filter_map, List.filter_map, List.filter_map,
    List.filter_filter, List.filter_filter]
  congr 1
  apply List.filter_congr
  intro e _
  exact Bool.and_comm _ _

/-- Buckets of bars in order come by label, each closed when the next one begins. -/
theorem buckets_spaced (sorted : rows.Pairwise fun r r' => r.start ≤ r'.start) :
    (buckets clock tf first rows).Pairwise fun r r' => barClose clock tf r.start ≤ r'.start := by
  have keysSorted := keys_groupBy_sorted
    (sorted.imp fun le => bucketStart_mono clock tf first le)
  refine List.Pairwise.filter _ (List.pairwise_map.mpr ?_)
  refine (List.pairwise_map.mp keysSorted.1).imp_of_mem ?_
  intro e e' mem mem' lt
  obtain ⟨r, -, isKey⟩ := keysSorted.2 e.1 (List.mem_map.mpr ⟨e, mem, rfl⟩)
  obtain ⟨r', -, isKey'⟩ := keysSorted.2 e'.1 (List.mem_map.mpr ⟨e', mem', rfl⟩)
  show barClose clock tf e.1 ≤ e'.1
  rw [← isKey, ← isKey'] at lt ⊢
  exact barClose_bucketStart_le clock tf first lt

/-- Where every bucket has begun by `lastClose`, what goes is what has not closed by then. -/
theorem withoutForming_eq {lastClose : Int}
    (spaced : rows.Pairwise fun r r' => barClose clock tf r.start ≤ r'.start)
    (begun : ∀ row ∈ rows, row.start ≤ lastClose) :
    withoutForming clock tf lastClose rows
      = rows.filter fun row => barClose clock tf row.start ≤ lastClose := by
  induction rows using List.reverseRecOn with
  | nil => rfl
  | append_singleton rows row _ =>
    have closed : ∀ r ∈ rows, barClose clock tf r.start ≤ lastClose := by
      intro r mem
      have before := (List.pairwise_append.mp spaced).2.2 r mem row (List.mem_singleton_self row)
      exact before.trans (begun row (List.mem_append_right _ (List.mem_singleton_self row)))
    have kept : (rows.filter fun r => barClose clock tf r.start ≤ lastClose) = rows :=
      List.filter_eq_self.mpr fun r mem => decide_eq_true (closed r mem)
    simp only [withoutForming, List.getLast?_append, List.getLast?_singleton, Option.some_or,
      List.dropLast_concat, List.filter_append, kept]
    by_cases forming : lastClose < barClose clock tf row.start
    · simp [forming]
    · simp [forming, not_lt.mp forming]

variable {baseTf : Timeframe}
variable (spaced : rows.Pairwise fun r r' => barClose clock baseTf r.start ≤ r'.start)
include spaced

/-- What is left after a resampling is what has closed by the last bar's close. -/
theorem resampledRows_eq {last : Row} (isLast : rows.getLast? = some last) {head : Row}
    (isHead : rows.head? = some head) :
    resampledRows clock baseTf tf rows
      = (buckets clock tf head.start rows).filter fun row =>
          barClose clock tf row.start ≤ barClose clock baseTf last.start := by
  have sorted : rows.Pairwise fun r r' => r.start ≤ r'.start :=
    spaced.imp fun le => (lt_barClose clock baseTf _).le.trans le
  simp only [resampledRows, isHead, isLast]
  apply withoutForming_eq (buckets_spaced sorted)
  intro row mem
  obtain ⟨r, inRows, label⟩ := exists_of_mem_buckets mem
  have upToLast : r.start ≤ last.start := by
    obtain ⟨initial, rfl⟩ := List.getLast?_eq_some_iff.mp isLast
    rcases List.mem_append.mp inRows with before | isIt
    · exact (List.pairwise_append.mp sorted).2.2 r before last (List.mem_singleton_self last)
    · rw [List.mem_singleton.mp isIt]
  calc row.start = bucketStart clock tf head.start r.start := label.symm
    _ ≤ r.start := bucketStart_le clock tf head.start r.start
    _ ≤ last.start := upToLast
    _ ≤ barClose clock baseTf last.start := (lt_barClose clock baseTf last.start).le

theorem resampledRows_spaced :
    (resampledRows clock baseTf tf rows).Pairwise fun r r' => barClose clock tf r.start ≤ r'.start := by
  cases isHead : rows.head? with
  | none => simp [resampledRows, isHead]
  | some head =>
    cases isLast : rows.getLast? with
    | none => simp [resampledRows, isHead, isLast]
    | some last =>
      rw [resampledRows_eq spaced isLast isHead]
      refine (buckets_spaced ?_).filter _
      exact spaced.imp fun le => (lt_barClose clock baseTf _).le.trans le

end Buckets

/-- What an evaluation raises. -/
inductive Failure where
  | noBars (tf : Timeframe)
  | missingColumn (c : Column)
  | missingParam (name : Text)
  | emptyGroup
  | listedSeries
  | library (message : String)
  deriving DecidableEq, Repr

/-- The columns a resampling has to find. -/
def resampledColumns : List Column := [.open_, .high, .low, .close, .volume]

/-- `resample`. -/
def Frame.resample {clock : Clock} {baseTf : Timeframe} (base : Frame clock baseTf) (tf : Timeframe) :
    Except Failure (Frame clock tf) :=
  match resampledColumns.find? fun c => !base.columns c with
  | some c => .error (.missingColumn c)
  | none =>
      .ok {
        columns := base.columns
        rows := resampledRows clock baseTf tf base.rows
        spaced := resampledRows_spaced base.spaced
      }

/-! ## What a frame shows by an instant -/

variable {tf : Timeframe} {clock : Clock}

/-- The closes of a frame increase. -/
theorem Frame.closes_increase (frame : Frame clock tf) :
    frame.rows.Pairwise fun r r' => barClose clock tf r.start < barClose clock tf r'.start :=
  frame.spaced.imp fun le => le.trans_lt (lt_barClose clock tf _)

theorem Frame.starts_increase (frame : Frame clock tf) :
    frame.rows.Pairwise fun r r' => r.start < r'.start :=
  frame.spaced.imp fun le => (lt_barClose clock tf _).trans_le le

/-- The bars of a frame that have closed by `t`. -/
def Frame.closedBy {clock : Clock} {tf : Timeframe} (t : Int) (frame : Frame clock tf) : List Row :=
  frame.rows.filter fun row => barClose clock tf row.start ≤ t

/-- They come first, and the others close later. -/
theorem Frame.split_closedBy (frame : Frame clock tf) (t : Int) :
    ∃ rest, frame.rows = frame.closedBy t ++ rest ∧ ∀ row ∈ rest, t < barClose clock tf row.start := by
  have increase := frame.closes_increase
  unfold Frame.closedBy
  generalize frame.rows = rows at increase ⊢
  induction rows with
  | nil => exact ⟨[], rfl, by simp⟩
  | cons row rows ih =>
    obtain ⟨first, others⟩ := List.pairwise_cons.mp increase
    by_cases closed : barClose clock tf row.start ≤ t
    · obtain ⟨rest, split, later⟩ := ih others
      refine ⟨rest, ?_, later⟩
      rw [List.filter_cons_of_pos (by simpa using closed), List.cons_append, ← split]
    · have none_ : rows.filter (fun row => barClose clock tf row.start ≤ t) = [] := by
        apply List.filter_eq_nil_iff.mpr
        intro r mem early
        exact closed ((first r mem).le.trans (of_decide_eq_true early))
      refine ⟨row :: rows, ?_, ?_⟩
      · rw [List.filter_cons_of_neg (by simpa using closed), none_]
        rfl
      · intro r mem
        rcases List.mem_cons.mp mem with rfl | later
        · exact not_le.mp closed
        · exact (not_le.mp closed).trans (first r later)

theorem Frame.take_closedBy (frame : Frame clock tf) (t : Int) :
    frame.rows.take (frame.closedBy t).length = frame.closedBy t := by
  obtain ⟨rest, split, -⟩ := frame.split_closedBy t
  conv_lhs => rw [split]
  exact List.take_left

end AdvanceTrading.Screener
