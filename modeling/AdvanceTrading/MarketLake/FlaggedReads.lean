import AdvanceTrading.MarketLake.AuctionFlags
import Mathlib.Data.Finset.Order

/-!
# Reads of flagged bars

What `fetch_rows` returns where the stored flags are those of the current bars:
the minutes of continuous trading as they are stored, and the Daily bars inside
the range of their continuous minutes. A Daily bar whose range does not meet
that of its minutes is read as it is stored, by the branch of `apply_flags` for
broken flags.
-/

namespace AdvanceTrading.ClosingAuction

open MarketData (dayStart)

/-! ## What a read is to return -/

/-- The Daily bar goes beyond the extremes of the continuous minutes of its session. -/
def Beyond (cont : List Row) (b : Row) : Prop := cont ≠ [] ∧ (highest cont < b.high ∨ b.low < lowest cont)

instance (cont : List Row) (b : Row) : Decidable (Beyond cont b) := inferInstanceAs (Decidable (_ ∧ _))

/-- A Daily bar with the continuous extremes for those that it goes beyond, its open and close held inside them. -/
def capped (cont : List Row) (b : Row) : RowTuple :=
  if Beyond cont b then
    let high := min b.high (highest cont)
    let low := max b.low (lowest cont)
    { b.tuple with open_ := within low high b.open_, high := high, low := low, close := within low high b.close }
  else b.tuple

/-- The continuous minutes of the session of a Daily bar. -/
def sessionMinutes (rows : List Row) (b : Row) : List Row := continuous (current rows .minute) (dayOf b.ts)

/-- The bars that a read is to return. -/
def shown (rows : List Row) (tf : Timeframe) (start stop : Int) : List RowTuple :=
  match tf with
  | .minute => ((read rows .minute start stop).filter fun m => !afterClose m).map Row.tuple
  | .day => (read rows .day start stop).map fun b => capped (sessionMinutes rows b) b

/-- Every Daily bar that goes beyond its continuous minutes has a range that meets theirs. -/
def Meeting (rows : List Row) : Prop :=
  ∀ b ∈ current rows .day, Beyond (sessionMinutes rows b) b →
    max b.low (lowest (sessionMinutes rows b)) ≤ min b.high (highest (sessionMinutes rows b))

/-- The open and the close are inside the range of the bar. -/
structure Ordered (r : RowTuple) : Prop where
  low_open : r.low ≤ r.open_
  open_high : r.open_ ≤ r.high
  low_close : r.low ≤ r.close
  close_high : r.close ≤ r.high

/-- Every row of the range of a read is known to it. -/
def Knows (s : State) (tf : Timeframe) (start stop : Int) (pointInTime : PointInTime) : Prop :=
  ∀ r ∈ s.rows, r.timeframe = tf → start < r.ts → r.ts ≤ stop → known stop pointInTime r = true

instance (s : State) (tf : Timeframe) (start stop : Int) (pointInTime : PointInTime) :
    Decidable (Knows s tf start stop pointInTime) :=
  inferInstanceAs (Decidable (∀ r ∈ s.rows, _))

/-- The flags are those of the current bars, and the reads are right. -/
structure Described (s : State) : Prop where
  flags : Exact s
  reads : ∀ tf start stop limit pointInTime rows, Knows s tf start stop pointInTime →
    fetchRows s tf start stop limit pointInTime true = .ok rows → rows = shown s.rows tf start stop
  ordered : ∀ tf start stop limit pointInTime rows, (∀ r ∈ s.rows, Ordered r.tuple) →
    fetchRows s tf start stop limit pointInTime true = .ok rows → ∀ r ∈ rows, Ordered r

/-! ## The marks of a bar -/

section Marks

variable {s : State} {m b : Row} {kind : Kind} {v : Option ℚ}

theorem mark_iff (exact_flags : Exact s) {tf : Timeframe} {ts : Int} :
    mark s.flags tf ts kind = some v ↔ ∃ r ∈ currentFlags s.rows, r.key = (tf, ts, kind) ∧ r.value = v := by
  unfold mark
  constructor
  · intro found
    obtain ⟨p, stored, rfl⟩ := Option.map_eq_some_iff.mp found
    obtain ⟨r, member, key, rfl⟩ := (exact_flags _ p).mp stored
    exact ⟨r, member, key, rfl⟩
  · rintro ⟨r, member, key, rfl⟩
    rw [(exact_flags _ r.stored).mpr ⟨r, member, key, rfl⟩]
    rfl

/-- The flags of a minute say that it ends after the close. -/
theorem mark_minute (exact_flags : Exact s) (member : m ∈ current s.rows .minute) :
    mark s.flags .minute m.ts kind = some v ↔ afterClose m = true ∧ kind = .postClose ∧ v = none := by
  rw [mark_iff exact_flags]
  constructor
  · rintro ⟨r, flagged, key, rfl⟩
    rcases mem_auctionFlags.mp flagged with ⟨m', member', late, rfl⟩ | ⟨d, bar, _, _, on_bar⟩
    · have same_ts : m'.ts = m.ts := congrArg (fun k => k.2.1) key
      have same_kind : Kind.postClose = kind := congrArg (fun k => k.2.2) key
      have same : m' = m := by
        have here := best_of_mem_current member'
        rw [same_ts, best_of_mem_current member] at here
        exact (Option.some.inj here).symm
      exact ⟨same ▸ late, same_kind.symm, rfl⟩
    · have is_minute : r.timeframe = .minute := congrArg Prod.fst key
      exact nomatch is_minute.symm.trans (mem_barFlags.mp on_bar).1
  · rintro ⟨late, rfl, rfl⟩
    exact ⟨postFlag m, mem_auctionFlags.mpr (.inl ⟨m, member, late, rfl⟩), rfl, rfl⟩

/-- The Daily bar of a day is the one that ends at its close. -/
theorem get_daily {rows : List Row} {d : Int} :
    Dict.get d (dailyMap (current rows .day)) = some b ↔ b ∈ current rows .day ∧ dayOf b.ts = d := by
  rw [get_dailyMap]
  constructor
  · intro found
    simpa using List.mem_filter.mp (List.mem_of_getLast? found)
  · rintro ⟨member, rfl⟩
    have there : b ∈ (current rows .day).filter fun b' => dayOf b'.ts = dayOf b.ts :=
      List.mem_filter.mpr ⟨member, by simp⟩
    obtain ⟨last, found⟩ := Option.isSome_iff_exists.mp (List.getLast?_isSome.mpr (List.ne_nil_of_mem there))
    rw [found]
    obtain ⟨member', same_day⟩ := List.mem_filter.mp (List.mem_of_getLast? found)
    have same_ts : last.ts = b.ts := by
      rw [last.atClose (mem_of_mem_current member').2, b.atClose (mem_of_mem_current member).2,
        of_decide_eq_true same_day]
    have here := best_of_mem_current member'
    rwa [same_ts, best_of_mem_current member, eq_comm] at here

/-- Prices of four places that differ, differ by more than the tolerance. -/
theorem eps_iff {x y : ℚ} (hx : FourPlaces x) (hy : FourPlaces y) : x + eps < y ↔ x < y := by
  obtain ⟨i, rfl⟩ := hx
  obtain ⟨j, rfl⟩ := hy
  unfold eps
  constructor
  · intro more
    linarith
  · intro less
    have whole : i < j := by
      exact_mod_cast (div_lt_div_iff_of_pos_right (by norm_num : (0 : ℚ) < 10000)).mp less
    have step : (i : ℚ) + 1 ≤ j := by exact_mod_cast whole
    linarith

/-- The values of a Daily bar's flags, by their kinds. -/
theorem barFlags_value {cont : List Row} :
    (∃ r ∈ barFlags b cont, r.kind = kind ∧ r.value = v) ↔
      (highest cont < b.high ∧ kind = .auctionHigh ∧ v = some (highest cont)) ∨
        (b.low < lowest cont ∧ kind = .auctionLow ∧ v = some (lowest cont)) ∨
        (eps < |b.close - lastPrice cont| ∧ kind = .officialClose ∧ v = some b.close) := by
  have low_iff : b.low < lowest cont - eps ↔ b.low < lowest cont := by
    rw [lt_sub_iff_add_lt, eps_iff b.places.2.2.1 (lowest_places cont)]
  simp only [mem_barFlags, eps_iff (highest_places cont) b.places.2.1, low_iff]
  constructor
  · rintro ⟨r, ⟨-, -, ⟨beyond, is_kind, value, -⟩ | ⟨beyond, is_kind, value, -⟩ | ⟨beyond, is_kind,
      value, -⟩⟩, rfl, rfl⟩
    · exact .inl ⟨beyond, is_kind, value⟩
    · exact .inr (.inl ⟨beyond, is_kind, value⟩)
    · exact .inr (.inr ⟨beyond, is_kind, value⟩)
  · rintro (⟨beyond, rfl, rfl⟩ | ⟨beyond, rfl, rfl⟩ | ⟨beyond, rfl, rfl⟩)
    · exact ⟨⟨_, _, _, _, _⟩, ⟨rfl, rfl, .inl ⟨beyond, rfl, rfl, rfl⟩⟩, rfl, rfl⟩
    · exact ⟨⟨_, _, _, _, _⟩, ⟨rfl, rfl, .inr (.inl ⟨beyond, rfl, rfl, rfl⟩)⟩, rfl, rfl⟩
    · exact ⟨⟨_, _, _, _, _⟩, ⟨rfl, rfl, .inr (.inr ⟨beyond, rfl, rfl, rfl⟩)⟩, rfl, rfl⟩

theorem eq_ite_of_iff {α : Type} {P : Prop} [Decidable P] {found : Option α} {x : α}
    (here : ∀ v, found = some v ↔ P ∧ v = x) : found = if P then some x else none := by
  split
  · next holds => exact (here x).mpr ⟨holds, rfl⟩
  · next fails => exact Option.eq_none_iff_forall_ne_some.mpr fun v isSome => fails ((here v).mp isSome).1

section

variable (exact_flags : Exact s) (member : b ∈ current s.rows .day)
include exact_flags member

/-- The flags of a Daily bar are those against the continuous minutes of its session. -/
theorem mark_day :
    mark s.flags .day b.ts kind = some v ↔
      sessionMinutes s.rows b ≠ [] ∧
        ∃ r ∈ barFlags b (sessionMinutes s.rows b), r.kind = kind ∧ r.value = v := by
  rw [mark_iff exact_flags]
  constructor
  · rintro ⟨r, flagged, key, rfl⟩
    rcases mem_auctionFlags.mp flagged with ⟨m, _, _, rfl⟩ | ⟨d, bar, found, some_left, on_bar⟩
    · exact nomatch congrArg Prod.fst key
    · obtain ⟨inside, rfl⟩ := get_daily.mp found
      have same_ts : bar.ts = b.ts := (mem_barFlags.mp on_bar).2.1.symm.trans (congrArg (fun k => k.2.1) key)
      have same : bar = b := by
        have here := best_of_mem_current inside
        rw [same_ts, best_of_mem_current member] at here
        exact (Option.some.inj here).symm
      subst same
      exact ⟨some_left, r, on_bar, congrArg (fun k => k.2.2) key, rfl⟩
  · rintro ⟨some_left, r, on_bar, rfl, rfl⟩
    obtain ⟨is_day, at_ts, -⟩ := mem_barFlags.mp on_bar
    refine ⟨r, mem_auctionFlags.mpr (.inr ⟨dayOf b.ts, b, get_daily.mpr ⟨member, rfl⟩, some_left, on_bar⟩), ?_, rfl⟩
    rw [FlagRow.key, is_day, at_ts]

theorem mark_day_postClose : mark s.flags .day b.ts .postClose = none := by
  apply Option.eq_none_iff_forall_ne_some.mpr
  intro v found
  obtain ⟨-, on_bar⟩ := (mark_day exact_flags member).mp found
  rcases barFlags_value.mp on_bar with ⟨-, other, -⟩ | ⟨-, other, -⟩ | ⟨-, other, -⟩ <;> exact nomatch other

theorem mark_day_high :
    mark s.flags .day b.ts .auctionHigh =
      if sessionMinutes s.rows b ≠ [] ∧ highest (sessionMinutes s.rows b) < b.high then
        some (some (highest (sessionMinutes s.rows b)))
      else none := by
  refine eq_ite_of_iff fun v => ?_
  rw [mark_day exact_flags member, barFlags_value]
  simp [and_assoc]

theorem mark_day_low :
    mark s.flags .day b.ts .auctionLow =
      if sessionMinutes s.rows b ≠ [] ∧ b.low < lowest (sessionMinutes s.rows b) then
        some (some (lowest (sessionMinutes s.rows b)))
      else none := by
  refine eq_ite_of_iff fun v => ?_
  rw [mark_day exact_flags member, barFlags_value]
  simp [and_assoc]

end

end Marks

/-! ## One bar -/

section Bars

variable {s : State} {m b : Row}

theorem applyFlags_minute (exact_flags : Exact s) (member : m ∈ current s.rows .minute) :
    applyFlags s.flags .minute m.tuple = if afterClose m = true then none else some m.tuple := by
  have no_mark : ∀ {kind}, ¬ (afterClose m = true ∧ kind = .postClose) → mark s.flags .minute m.ts kind = none := by
    intro kind other
    apply Option.eq_none_iff_forall_ne_some.mpr
    intro v found
    obtain ⟨late, is_kind, -⟩ := (mark_minute exact_flags member).mp found
    exact other ⟨late, is_kind⟩
  unfold applyFlags
  by_cases late : afterClose m = true
  · have dropped : mark s.flags .minute m.tuple.ts .postClose = some none :=
      (mark_minute exact_flags member).mpr ⟨late, rfl, rfl⟩
    rw [dropped, if_pos late]
    rfl
  · have unmarked : ∀ kind, mark s.flags .minute m.tuple.ts kind = none := fun kind => no_mark fun both => late both.1
    rw [unmarked, unmarked, unmarked, if_neg late]
    rfl

/-- A Daily bar is read inside the range of its continuous minutes where the two ranges meet, else as it is stored. -/
theorem applyFlags_day (exact_flags : Exact s) (member : b ∈ current s.rows .day) :
    applyFlags s.flags .day b.tuple =
      if Beyond (sessionMinutes s.rows b) b ∧
          min b.high (highest (sessionMinutes s.rows b)) < max b.low (lowest (sessionMinutes s.rows b)) then
        some b.tuple
      else some (capped (sessionMinutes s.rows b) b) := by
  unfold applyFlags capped
  rw [show b.tuple.ts = b.ts from rfl, mark_day_postClose exact_flags member, mark_day_high exact_flags member,
    mark_day_low exact_flags member]
  set cont := sessionMinutes s.rows b
  by_cases none_left : cont = []
  · simp [Beyond, none_left]
  · have beyond_iff : Beyond cont b ↔ highest cont < b.high ∨ b.low < lowest cont := and_iff_right none_left
    simp only [beyond_iff, ne_eq, none_left, not_false_eq_true, true_and]
    by_cases over_high : highest cont < b.high <;> by_cases under_low : b.low < lowest cont
    · simp [over_high, under_low, over_high.le, under_low.le, Row.tuple]
    · simp [over_high, under_low, over_high.le, not_lt.mp under_low, Row.tuple]
    · simp [over_high, under_low, not_lt.mp over_high, under_low.le, Row.tuple]
    · simp [over_high, under_low]

/-- A bar that goes beyond its continuous minutes is not capped as it is stored. -/
theorem capped_ne {cont : List Row} (beyond : Beyond cont b) : capped cont b ≠ b.tuple := by
  intro same
  unfold capped at same
  rw [if_pos beyond] at same
  have same_high : min b.high (highest cont) = b.high := congrArg RowTuple.high same
  have same_low : max b.low (lowest cont) = b.low := congrArg RowTuple.low same
  rcases beyond.2 with over_high | under_low
  · exact absurd (min_eq_left_iff.mp same_high) (not_le.mpr over_high)
  · exact absurd (max_eq_left_iff.mp same_low) (not_le.mpr under_low)

/-- An open or a close that is held inside a range is inside it. -/
theorem within_mem {low high : ℚ} (range : low ≤ high) (x : ℚ) : low ≤ within low high x ∧ within low high x ≤ high :=
  ⟨le_min (le_max_right x low) range, min_le_right _ _⟩

/-- No flag moves the open or the close of a bar out of its range. -/
theorem applyFlags_ordered {flags : Dict FlagKey Stored} {tf : Timeframe} {row out : RowTuple}
    (ordered : Ordered row) (applied : applyFlags flags tf row = some out) : Ordered out := by
  unfold applyFlags at applied
  split at applied
  · exact nomatch applied
  · split at applied
    · rwa [← Option.some.inj applied]
    · dsimp only at applied
      split at applied
      · rwa [← Option.some.inj applied]
      · rename_i range
        rw [← Option.some.inj applied]
        have inside := within_mem (not_lt.mp range)
        exact ⟨(inside row.open_).1, (inside row.open_).2, (inside row.close).1, (inside row.close).2⟩

end Bars

/-! ## Whole reads -/

section Reads

variable {s t : State} {tf : Timeframe} {start stop : Int} {limit : Option Nat} {pointInTime : PointInTime}
  {rows : List RowTuple}

/-- What `fetch_rows` returns, if it does not refuse. -/
theorem fetchRows_spec (fetched : fetchRows s tf start stop limit pointInTime true = .ok rows) :
    rows =
      ((read (s.rows.filter (known stop pointInTime)) tf start stop).map Row.tuple).filterMap
        (applyFlags s.flags tf) := by
  unfold fetchRows at fetched
  dsimp only at fetched
  split at fetched
  · exact nomatch fetched
  · rw [if_pos rfl] at fetched
    exact (Except.ok.inj fetched).symm

theorem fetchRows_ordered (stored : ∀ r ∈ s.rows, Ordered r.tuple)
    (fetched : fetchRows s tf start stop limit pointInTime true = .ok rows) : ∀ r ∈ rows, Ordered r := by
  intro out member
  rw [fetchRows_spec fetched] at member
  obtain ⟨row, inside, applied⟩ := List.mem_filterMap.mp member
  obtain ⟨r, selected, rfl⟩ := List.mem_map.mp inside
  obtain ⟨ts, -, found⟩ := List.mem_filterMap.mp selected
  exact applyFlags_ordered (stored r (List.mem_filter.mp (best_spec found).1).1) applied

theorem read_known (knows : Knows s tf start stop pointInTime) :
    read (s.rows.filter (known stop pointInTime)) tf start stop = read s.rows tf start stop := by
  apply readWhere_filter_rows
  intro r member same_tf selected
  obtain ⟨after_start, by_stop⟩ := of_decide_eq_true selected
  exact knows r member same_tf after_start by_stop

theorem mem_read {r : Row} : r ∈ read s.rows tf start stop ↔ r ∈ current s.rows tf ∧ start < r.ts ∧ r.ts ≤ stop := by
  unfold read
  rw [readWhere_eq, List.mem_filter, decide_eq_true_eq]

/-- A read of the minutes returns those of continuous trading. -/
theorem fetchRows_minute (exact_flags : Exact s) (knows : Knows s .minute start stop pointInTime)
    (fetched : fetchRows s .minute start stop limit pointInTime true = .ok rows) :
    rows = shown s.rows .minute start stop := by
  rw [fetchRows_spec fetched, read_known knows, shown, List.filterMap_map, ← List.filterMap_eq_map,
    List.filterMap_filter]
  apply List.filterMap_congr
  intro m member
  rw [Function.comp_apply, applyFlags_minute exact_flags (mem_read.mp member).1]
  cases afterClose m <;> rfl

/-- A read of Daily bars returns them inside the ranges of their continuous minutes, where those meet. -/
theorem fetchRows_day (exact_flags : Exact s) (knows : Knows s .day start stop pointInTime)
    (fetched : fetchRows s .day start stop limit pointInTime true = .ok rows) :
    rows = shown s.rows .day start stop ↔
      ∀ b ∈ current s.rows .day, start < b.ts → b.ts ≤ stop → Beyond (sessionMinutes s.rows b) b →
        max b.low (lowest (sessionMinutes s.rows b)) ≤ min b.high (highest (sessionMinutes s.rows b)) := by
  rw [fetchRows_spec fetched, read_known knows, shown, List.filterMap_map, List.filterMap_eq_map_iff_forall_eq_some]
  have each : ∀ b ∈ read s.rows .day start stop,
      ((applyFlags s.flags .day ∘ Row.tuple) b = some (capped (sessionMinutes s.rows b) b) ↔
        (Beyond (sessionMinutes s.rows b) b →
          max b.low (lowest (sessionMinutes s.rows b)) ≤ min b.high (highest (sessionMinutes s.rows b)))) := by
    intro b member
    rw [Function.comp_apply, applyFlags_day exact_flags (mem_read.mp member).1]
    split
    · rename_i apart
      constructor
      · intro same
        exact absurd (Option.some.inj same).symm (capped_ne apart.1)
      · intro meets
        exact absurd (meets apart.1) (not_le.mpr apart.2)
    · rename_i together
      refine ⟨fun _ beyond => ?_, fun _ => rfl⟩
      exact not_lt.mp fun apart => together ⟨beyond, apart⟩
  constructor
  · intro all b member after_start by_stop
    have inside := mem_read.mpr ⟨member, after_start, by_stop⟩
    exact (each b inside).mp (all b inside)
  · intro all b inside
    obtain ⟨member, after_start, by_stop⟩ := mem_read.mp inside
    exact (each b inside).mpr (all b member after_start by_stop)

/-- Where the flags are those of the current bars, the reads are right exactly when the ranges meet. -/
theorem described_iff (exact_flags : Exact s) : Described s ↔ Meeting s.rows := by
  constructor
  · intro described b member
    -- a read of the bar alone, by a time at which every row is there
    obtain ⟨late, by_late⟩ : ∃ late, ∀ r ∈ s.rows, r.ingestedAt ≤ late := by
      obtain ⟨late, each⟩ := (s.rows.map (·.ingestedAt)).toFinset.exists_le
      exact ⟨late, fun r inside => each _ (List.mem_toFinset.mpr (List.mem_map_of_mem inside))⟩
    have knows : Knows s .day (b.ts - 1) (max late b.ts) .ingested := by
      intro r inside _ _ _
      exact decide_eq_true ((by_late r inside).trans (le_max_left _ _))
    have fetched : fetchRows s .day (b.ts - 1) (max late b.ts) none .ingested true = .ok _ := rfl
    exact (fetchRows_day exact_flags knows fetched).mp (described.reads _ _ _ _ _ _ knows fetched) b member (by omega)
      (le_max_right _ _)
  · intro meeting
    refine ⟨exact_flags, ?_, fun _ _ _ _ _ _ => fetchRows_ordered⟩
    intro tf start stop limit pointInTime rows knows fetched
    cases tf with
    | minute => exact fetchRows_minute exact_flags knows fetched
    | day => exact (fetchRows_day exact_flags knows fetched).mpr fun b member _ _ => meeting b member

end Reads

/-! ## Whole histories -/

theorem exact_empty : Exact {} := by
  intro k p
  constructor
  · intro found
    exact nomatch found
  · rintro ⟨r, member, -⟩
    exact nomatch member

/-- The flags and the reads stay right through a history exactly when each of its writes takes no stored flag away
and leaves Daily bars whose ranges meet those of their continuous minutes. -/
theorem flags_describe {s : State} {writes : List Write} (ran : machine.run {} writes = some s) :
    machine.Meets (fun s w => ∀ t, machine.step s w = some t → Described t) {} writes ↔
      machine.Meets (fun s w => Kept s w ∧ Meeting (s.rows ++ w.rows)) {} writes := by
  apply machine.meets_iff (P := Exact) _ _ exact_empty ran
  · intro s w t before stepped
    obtain ⟨-, all_rows, -⟩ := step_spec stepped
    rw [← all_rows]
    constructor
    · intro each
      have described := each t stepped
      exact ⟨kept_of_exact before stepped described.flags, (described_iff described.flags).mp described⟩
    · rintro ⟨kept, meeting⟩ t' stepped'
      obtain rfl := Option.some.inj (stepped.symm.trans stepped')
      exact (described_iff (exact_of_kept before stepped kept)).mpr meeting
  · intro s w t before cond stepped
    exact exact_of_kept before stepped cond.1

/-- A bar at the close of day 0: the Daily bar, or its last minute. -/
def closingBar (tf : Timeframe) (version : Nat) (high : ℤ) : Row where
  timeframe := tf
  ts := sessionClose 0
  version := version
  open_ := 100
  high := high
  low := 90
  close := 100
  volume := none
  ingestedAt := sessionClose 0
  whole := by decide
  atClose := fun _ => by decide
  places := ⟨⟨1000000, by norm_num⟩, ⟨high * 10000, by push_cast; ring⟩, ⟨900000, by norm_num⟩, ⟨1000000, by norm_num⟩⟩

/-- A Daily bar and its minute with a lower high, which put a flag on it, and the minute corrected. -/
def correction : List Write :=
  [⟨[closingBar .day 1 110, closingBar .minute 1 105], 0, 0⟩, ⟨[closingBar .minute 2 107], 0, 0⟩]

/-- The correction changes the value of the stored flag. -/
theorem flags_describe_first :
    (machine.run {} correction).map (fun s => s.flags.map fun e => e.2.1) = some [some 107] ∧
      machine.Meets (fun s w => ∀ t, machine.step s w = some t → Described t) {} correction := by
  refine ⟨by decide +kernel, (flags_describe (s := ⟨_, _⟩) rfl).mpr ⟨⟨?_, ?_⟩, ?_⟩⟩
  · intro k p found
    exact nomatch found
  · show ∀ b ∈ _, _
    decide +kernel
  · rintro s stepped
    obtain ⟨-, rows, flags⟩ := step_spec stepped
    refine ⟨⟨?_, ?_⟩, fun _ _ => trivial⟩
    · intro k p found _
      rw [flags] at found
      have each : ∀ e ∈ (flagDays [closingBar .day 1 110, closingBar .minute 1 105] [] 0 0).1,
          ∃ r ∈ currentFlags (correction.flatMap (·.rows)), r.key = e.1 ∧ (e.2.1 = r.value → e.2 = r.stored) := by
        decide +kernel
      rw [rows]
      exact each (k, p) (Dict.mem_of_get found)
    · rw [rows]
      show ∀ b ∈ _, _
      decide +kernel

/-- The minute is corrected to the high of the Daily bar: its flag stays, and the read cuts the bar at the old high. -/
theorem flags_left_behind :
    ¬ machine.Meets (fun s w => ∀ t, machine.step s w = some t → Described t) {}
      [⟨[closingBar .day 1 110, closingBar .minute 1 105], 0, 0⟩, ⟨[closingBar .minute 2 110], 0, 0⟩] := by
  rintro ⟨-, later⟩
  obtain ⟨described, -⟩ := later _ rfl
  have reads := (described _ rfl).reads .day (sessionClose 0 - 1) (sessionClose 0) none .ingested _
    (by decide +kernel) rfl
  exact absurd reads (by decide +kernel)

end AdvanceTrading.ClosingAuction
