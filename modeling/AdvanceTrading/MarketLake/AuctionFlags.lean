import AdvanceTrading.MarketData.Calendar
import AdvanceTrading.Misc.Dict
import AdvanceTrading.Misc.PyFormat
import AdvanceTrading.Misc.Machine
import Mathlib.Data.List.Dedup

/-!
# Closing-auction flags

Model of `app/market_lake/index_history.py:243-329` (the rule, `write_flags`,
`flag_days`) and of the reads that apply the flags
(`app/market_lake/own_bars.py:137-195`), for the bars of one member and one key.
Instants are microseconds in UTC and a bar is labelled by its end.

`to_lake_bars` writes what a `Row` carries as fields: ends on whole minutes, a
Daily bar at the close of its session; the columns are `Numeric(18, 4)`.
-/

namespace AdvanceTrading.ClosingAuction

open TriggerRules (minuteUs istDay)
open MarketData (dayStart exchangeSessions)

/-- DAILY or MINUTE. -/
inductive Timeframe where
  | day
  | minute
  deriving DecidableEq, Repr

/-- The kinds of `MdBarFlagRecord`. -/
inductive Kind where
  | postClose
  | auctionHigh
  | auctionLow
  | officialClose
  deriving DecidableEq, Repr

/-- `session_close`. -/
def sessionClose (day : Int) : Int := dayStart day + (exchangeSessions .nse).close

/-- The IST date of the minute that a bar ends with. -/
def dayOf (ts : Int) : Int := istDay (ts - minuteUs)

/-- A price as `Numeric(18, 4)` stores it. -/
def FourPlaces (price : ℚ) : Prop := ∃ k : ℤ, price = k / 10000

/-- The member's `MdTenantCandleRecord` of the key. -/
structure Row where
  timeframe : Timeframe
  ts : Int
  version : Nat
  open_ : ℚ
  high : ℚ
  low : ℚ
  close : ℚ
  volume : Option Int
  ingestedAt : Int
  whole : minuteUs ∣ ts
  atClose : timeframe = .day → ts = sessionClose (dayOf ts)
  places : FourPlaces open_ ∧ FourPlaces high ∧ FourPlaces low ∧ FourPlaces close

/-- `FlagRow`. -/
structure FlagRow where
  timeframe : Timeframe
  ts : Int
  kind : Kind
  value : Option ℚ
  detail : List Char
  deriving DecidableEq

/-- What a stored flag is found by. -/
abbrev FlagKey := Timeframe × Int × Kind

def FlagRow.key (r : FlagRow) : FlagKey := (r.timeframe, r.ts, r.kind)

/-- What is stored of a flag: its value and its text, cut at 500 characters. -/
abbrev Stored := Option ℚ × List Char

def FlagRow.stored (r : FlagRow) : Stored := (r.value, r.detail.take 500)

/-! ## The rule -/

/-- `eps`. -/
def eps : ℚ := 1 / 10 ^ 6

/-- The bar ends after the close of its session. -/
def afterClose (m : Row) : Bool := sessionClose (dayOf m.ts) < m.ts

/-- The flag of a minute after continuous trading. -/
def postFlag (m : Row) : FlagRow where
  timeframe := .minute
  ts := m.ts
  kind := .postClose
  value := none
  detail :=
    if m.open_ = m.high ∧ m.high = m.low ∧ m.low = m.close then "flat bar after continuous trading".toList
    else "bar after continuous trading".toList

/-- The highest high of the continuous minutes. -/
def highest (cont : List Row) : ℚ := ((cont.map (·.high)).max?).getD 0

/-- The lowest low of the continuous minutes. -/
def lowest (cont : List Row) : ℚ := ((cont.map (·.low)).min?).getD 0

/-- The last continuous price. -/
def lastPrice (cont : List Row) : ℚ := (((sortBy (·.ts) cont).getLast?).map (·.close)).getD 0

/-- The flags of a Daily bar and the continuous minutes of its session. -/
def barFlags (bar : Row) (cont : List Row) : List FlagRow :=
  let hi := highest cont
  let lo := lowest cont
  (if hi + eps < bar.high then
    [⟨.day, bar.ts, .auctionHigh, some hi,
      "Daily high ".toList ++ Py.showGeneral bar.high ++ " set after continuous trading (continuous high ".toList ++
        Py.showGeneral hi ++ [')']⟩]
  else []) ++
  (if bar.low < lo - eps then
    [⟨.day, bar.ts, .auctionLow, some lo,
      "Daily low ".toList ++ Py.showGeneral bar.low ++ " set after continuous trading (continuous low ".toList ++
        Py.showGeneral lo ++ [')']⟩]
  else []) ++
  (if eps < |bar.close - lastPrice cont| then
    [⟨.day, bar.ts, .officialClose, some bar.close, "last continuous price ".toList ++ Py.showGeneral (lastPrice cont)⟩]
  else [])

/-- `by_day`: the continuous minutes under their days, in the order of the days. -/
def byDay (minutes : List Row) : List (Int × List Row) :=
  sortBy Prod.fst (Dict.groupBy (fun m : Row => dayOf m.ts) (minutes.filter fun m => !afterClose m))

/-- `auction_flags`. -/
def auctionFlags (daily : Dict Int Row) (minutes : List Row) : List FlagRow :=
  (minutes.filter fun m => afterClose m).map postFlag ++
    (byDay minutes).flatMap fun entry =>
      match Dict.get entry.1 daily with
      | none => []
      | some bar => if entry.2.isEmpty then [] else barFlags bar entry.2

/-! ## The stored bars -/

/-- The ends of the bars of a timeframe that a read selects, in order. -/
def times (rows : List Row) (tf : Timeframe) (p : Int → Bool) : List Int :=
  sortBy (fun t : Int => t) ((rows.filter fun r => r.timeframe = tf ∧ p r.ts).map (·.ts)).dedup

/-- `best[ts]`: the rows of an end come in the order of their versions, and the last one is kept. -/
def best (rows : List Row) (tf : Timeframe) (ts : Int) : Option Row :=
  (sortBy (·.version) (rows.filter fun r => r.timeframe = tf ∧ r.ts = ts)).getLast?

/-- The best row of each end that a read selects. -/
def readWhere (rows : List Row) (tf : Timeframe) (p : Int → Bool) : List Row :=
  (times rows tf p).filterMap (best rows tf)

/-- `read` of `flag_days`. -/
def read (rows : List Row) (tf : Timeframe) (lo hi : Int) : List Row := readWhere rows tf fun ts => lo < ts ∧ ts ≤ hi

/-- `daily`: the Daily bars by their days. -/
def dailyMap (bars : List Row) : Dict Int Row := bars.foldl (fun d b => Dict.set (dayOf b.ts) b d) []

/-! ## The stored flags -/

/-- A flag that is not stored, or whose value changed. -/
def changed (existing : Dict FlagKey Stored) (r : FlagRow) : Bool :=
  match Dict.get r.key existing with
  | none => true
  | some old => old.1.map (Py.roundTo 4) ≠ r.value.map (Py.roundTo 4)

/-- `write_flags`: the stored flags after it, and how many it wrote or changed. -/
def writeFlags (existing : Dict FlagKey Stored) (rows : List FlagRow) : Dict FlagKey Stored × Nat :=
  ((rows.filter (changed existing)).foldl (fun d r => Dict.set r.key r.stored d) existing,
    (rows.filter (changed existing)).length)

/-- `flag_days` over the IST days `first, …, last`. -/
def flagDays (rows : List Row) (existing : Dict FlagKey Stored) (first last : Int) : Dict FlagKey Stored × Nat :=
  let lo := dayStart first
  let hi := dayStart (last + 1)
  writeFlags existing (auctionFlags (dailyMap (read rows .day lo hi)) (read rows .minute lo hi))

/-! ## Histories -/

/-- The member's rows and the flags of the key. -/
structure State where
  rows : List Row := []
  flags : Dict FlagKey Stored := []

/-- Rows written, and the days flagged after them. -/
structure Write where
  rows : List Row
  first : Int
  last : Int

/-- The day is one of those flagged. -/
def Write.covers (w : Write) (day : Int) : Bool := w.first ≤ day ∧ day ≤ w.last

/-- A write with `flag_days` over days that contain every bar it wrote. -/
def machine : Machine State Write where
  step s w :=
    if w.rows.all fun r => w.covers (dayOf r.ts) then
      some { rows := s.rows ++ w.rows, flags := (flagDays (s.rows ++ w.rows) s.flags w.first w.last).1 }
    else none

/-! ## Reads -/

/-- `RowTuple`. -/
structure RowTuple where
  ts : Int
  version : Nat
  open_ : ℚ
  high : ℚ
  low : ℚ
  close : ℚ
  volume : Option Int
  deriving DecidableEq

def Row.tuple (r : Row) : RowTuple := ⟨r.ts, r.version, r.open_, r.high, r.low, r.close, r.volume⟩

/-- `point_in_time`. -/
inductive PointInTime where
  | firstVersionByEnd
  | ingested
  deriving DecidableEq, Repr

/-- The rows that a read up to `stop` knows. -/
def known (stop : Int) : PointInTime → Row → Bool
  | .firstVersionByEnd, r => r.version = 1 ∨ r.ingestedAt ≤ stop
  | .ingested, r => r.ingestedAt ≤ stop

/-- The kinds of a bar's flags with their values: one entry of `flags`. -/
def mark (flags : Dict FlagKey Stored) (tf : Timeframe) (ts : Int) (kind : Kind) : Option (Option ℚ) :=
  (Dict.get (tf, ts, kind) flags).map Prod.fst

/-- A value between two bounds, `min(max(x, low), high)`. -/
def within (low high x : ℚ) : ℚ := min (max x low) high

/-- `apply_flags` on one row: dropped, as stored, or with the extremes of the flags. -/
def applyFlags (flags : Dict FlagKey Stored) (tf : Timeframe) (row : RowTuple) : Option RowTuple :=
  if (mark flags tf row.ts .postClose).isSome then none
  else if (mark flags tf row.ts .auctionHigh).isNone ∧ (mark flags tf row.ts .auctionLow).isNone then some row
  else
    let high := (mark flags tf row.ts .auctionHigh).join.getD row.high
    let low := (mark flags tf row.ts .auctionLow).join.getD row.low
    if high < low then some row
    else some { row with
      open_ := within low high row.open_, high := high, low := low, close := within low high row.close }

/-- The refusal of a read of more bars than its limit. -/
structure TooMany where
  limit : Nat
  tf : Timeframe
  deriving DecidableEq

/-- `fetch_rows`. -/
def fetchRows (s : State) (tf : Timeframe) (start stop : Int) (limit : Option Nat)
    (pointInTime : PointInTime) (dh3 : Bool) :
    Except TooMany (List RowTuple) :=
  let rows := (read (s.rows.filter (known stop pointInTime)) tf start stop).map Row.tuple
  match limit.filter (· < rows.length) with
  | some limit => .error ⟨limit, tf⟩
  | none => .ok (if dh3 then rows.filterMap (applyFlags s.flags tf) else rows)

end AdvanceTrading.ClosingAuction

/-!
# Closing-auction flags and corrected bars

Which histories of corrections keep the stored flags those of the current bars.
`write_flags` adds flags and updates those whose value changed, but takes none
away: a correction that takes a bar's flag away leaves it stored, and the reads
still apply it.

The rule reads the bars of one session for each flag, so the days that a write
touches are the only ones whose flags it can change (`mem_auctionFlags_filter`).
-/

namespace AdvanceTrading.ClosingAuction

open TriggerRules (minuteUs dayUs istOffset istDay)
open MarketData (dayStart exchangeSessions)

/-! ## The current bars -/

theorem filter_dedup {α : Type*} [DecidableEq α] (p : α → Bool) (xs : List α) :
    xs.dedup.filter p = (xs.filter p).dedup := by
  induction xs with
  | nil => rfl
  | cons x xs ih =>
    by_cases again : x ∈ xs
    · rw [List.dedup_cons_of_mem again, ih, List.filter_cons]
      split
      · rename_i kept
        rw [List.dedup_cons_of_mem (List.mem_filter.mpr ⟨again, kept⟩)]
      · rfl
    · rw [List.dedup_cons_of_notMem again, List.filter_cons, List.filter_cons]
      split
      · rw [List.dedup_cons_of_notMem fun member => again (List.mem_filter.mp member).1, ih]
      · exact ih

section Rows

variable {rows new : List Row} {tf : Timeframe} {p q : Int → Bool} {ts : Int} {r : Row}

theorem times_filter : (times rows tf p).filter q = times rows tf fun ts => p ts && q ts := by
  unfold times
  rw [filter_sortBy, filter_dedup, List.filter_map, List.filter_filter]
  congr 3
  apply List.filter_congr
  intro r _
  simp only [Function.comp_apply, Bool.decide_and, Bool.decide_eq_true]
  cases q r.ts <;> cases p r.ts <;> simp

/-- A read only asks its selection about the ends of stored rows. -/
theorem times_congr (same : ∀ r ∈ rows, p r.ts = q r.ts) : times rows tf p = times rows tf q := by
  unfold times
  congr 3
  apply List.filter_congr
  intro r member
  rw [same r member]

theorem best_spec (found : best rows tf ts = some r) : r ∈ rows ∧ r.timeframe = tf ∧ r.ts = ts := by
  have member := mem_sortBy.mp (List.mem_of_getLast? found)
  simpa using List.mem_filter.mp member

theorem readWhere_filter : (readWhere rows tf p).filter (fun r => q r.ts) =
    readWhere rows tf fun ts => p ts && q ts := by
  unfold readWhere
  rw [← times_filter, List.filter_filterMap, List.filterMap_filter]
  apply List.filterMap_congr
  intro ts _
  cases found : best rows tf ts with
  | none => simp
  | some r => simp [Option.filter, (best_spec found).2.2]

theorem readWhere_congr (same : ∀ r ∈ rows, p r.ts = q r.ts) : readWhere rows tf p = readWhere rows tf q := by
  unfold readWhere
  rw [times_congr same]

/-- The current bars of a timeframe. -/
def current (rows : List Row) (tf : Timeframe) : List Row := readWhere rows tf fun _ => true

theorem readWhere_eq : readWhere rows tf p = (current rows tf).filter fun r => p r.ts := by
  rw [current, readWhere_filter]
  simp

theorem best_of_mem_current (member : r ∈ current rows tf) : best rows tf r.ts = some r := by
  obtain ⟨ts, _, found⟩ := List.mem_filterMap.mp member
  rw [(best_spec found).2.2]
  exact found

theorem mem_of_mem_current (member : r ∈ current rows tf) : r ∈ rows ∧ r.timeframe = tf :=
  ⟨(best_spec (best_of_mem_current member)).1, (best_spec (best_of_mem_current member)).2.1⟩

/-- A read depends on the rows that it selects. -/
theorem readWhere_of_selected {others : List Row}
    (same : (rows.filter fun r => r.timeframe = tf ∧ p r.ts) = others.filter fun r => r.timeframe = tf ∧ p r.ts) :
    readWhere rows tf p = readWhere others tf p := by
  have at_end : ∀ (all : List Row) {ts}, p ts = true →
      (all.filter fun r => r.timeframe = tf ∧ r.ts = ts) =
        (all.filter fun r => r.timeframe = tf ∧ p r.ts).filter fun r => r.ts = ts := by
    intro all ts selected
    rw [List.filter_filter]
    apply List.filter_congr
    intro r _
    by_cases here : r.ts = ts
    · simp [here, selected]
    · simp [here]
  have same_times : times rows tf p = times others tf p := by
    unfold times
    rw [same]
  unfold readWhere
  rw [same_times]
  apply List.filterMap_congr
  intro ts member
  have selected : p ts = true := by
    obtain ⟨r, kept, rfl⟩ := List.mem_map.mp (List.mem_dedup.mp (mem_sortBy.mp member))
    exact (of_decide_eq_true (List.mem_filter.mp kept).2).2
  unfold best
  rw [at_end rows selected, at_end others selected, same]

/-- Rows at other ends leave the bars of an end as they are. -/
theorem readWhere_append (apart : ∀ r ∈ new, p r.ts = false) : readWhere (rows ++ new) tf p = readWhere rows tf p := by
  have none_new : ∀ r ∈ new, ¬ (decide (r.timeframe = tf ∧ p r.ts = true)) = true := by
    intro r member
    rw [decide_eq_true_eq, apart r member]
    exact fun both => Bool.false_ne_true both.2
  apply readWhere_of_selected
  rw [List.filter_append, List.filter_eq_nil_iff.mpr none_new, List.append_nil]

/-- Rows that a read does not select may be left out before it. -/
theorem readWhere_filter_rows {keep : Row → Bool}
    (kept : ∀ r ∈ rows, r.timeframe = tf → p r.ts = true → keep r = true) :
    readWhere (rows.filter keep) tf p = readWhere rows tf p := by
  apply readWhere_of_selected
  rw [List.filter_filter]
  apply List.filter_congr
  intro r member
  by_cases selected : r.timeframe = tf ∧ p r.ts = true
  · simp [selected, kept r member selected.1 selected.2]
  · simp [selected]

/-- The ends that `flag_days` reads are those of the days asked for. -/
theorem inRange_iff {first last : Int} (whole : minuteUs ∣ ts) :
    dayStart first < ts ∧ ts ≤ dayStart (last + 1) ↔ first ≤ dayOf ts ∧ dayOf ts ≤ last := by
  obtain ⟨k, rfl⟩ := whole
  unfold dayOf istDay dayStart dayUs istOffset minuteUs
  omega

theorem read_days (first last : Int) :
    read rows tf (dayStart first) (dayStart (last + 1)) =
      (current rows tf).filter fun r => decide (first ≤ dayOf r.ts ∧ dayOf r.ts ≤ last) := by
  rw [← readWhere_eq (p := fun ts => decide (first ≤ dayOf ts ∧ dayOf ts ≤ last))]
  apply readWhere_congr
  intro r _
  exact decide_eq_decide.mpr (inRange_iff r.whole)

theorem get_dailyMap (bars : List Row) (d : Int) :
    Dict.get d (dailyMap bars) = (bars.filter fun b => dayOf b.ts = d).getLast? := by
  induction bars using List.reverseRecOn with
  | nil => rfl
  | append_singleton bars b ih =>
    unfold dailyMap at ih ⊢
    rw [List.foldl_append, List.foldl_cons, List.foldl_nil, List.filter_append]
    by_cases same : dayOf b.ts = d
    · subst same
      rw [Dict.get_set_self]
      simp
    · rw [Dict.get_set_of_ne _ _ (Ne.symm same), ih]
      simp [same]

end Rows

/-! ## The flags of the current bars -/

/-- The continuous minutes of a day. -/
def continuous (minutes : List Row) (d : Int) : List Row :=
  (minutes.filter fun m => !afterClose m).filter fun m => dayOf m.ts = d

section Flags

variable {daily : Dict Int Row} {bars minutes : List Row} {r r' : FlagRow}

theorem mem_byDay {d : Int} {cont : List Row} :
    (d, cont) ∈ byDay minutes ↔ cont = continuous minutes d ∧ cont ≠ [] := by
  unfold byDay continuous
  rw [mem_sortBy]
  constructor
  · intro member
    have own := Dict.snd_of_mem_groupBy member
    have found := Dict.get_of_mem (Dict.nodup_keys_groupBy _ _) member
    rw [Dict.get_groupBy_eq] at found
    refine ⟨own, ?_⟩
    rintro rfl
    split at found
    · exact nomatch found
    · rename_i some_left
      exact some_left (Option.some.inj found)
  · rintro ⟨rfl, some_left⟩
    apply Dict.mem_of_get
    rw [Dict.get_groupBy_eq, if_neg some_left]

/-- A flag is of a minute after the close, or of a Daily bar against the continuous minutes of its day. -/
theorem mem_auctionFlags :
    r ∈ auctionFlags daily minutes ↔
      (∃ m ∈ minutes, afterClose m = true ∧ r = postFlag m) ∨
        ∃ d bar, Dict.get d daily = some bar ∧ continuous minutes d ≠ [] ∧ r ∈ barFlags bar (continuous minutes d) := by
  unfold auctionFlags
  rw [List.mem_append]
  refine or_congr ?_ ?_
  · rw [List.mem_map]
    constructor
    · rintro ⟨m, member, rfl⟩
      obtain ⟨inside, late⟩ := List.mem_filter.mp member
      exact ⟨m, inside, late, rfl⟩
    · rintro ⟨m, inside, late, rfl⟩
      exact ⟨m, List.mem_filter.mpr ⟨inside, late⟩, rfl⟩
  · rw [List.mem_flatMap]
    constructor
    · rintro ⟨⟨d, cont⟩, member, flagged⟩
      obtain ⟨rfl, some_left⟩ := mem_byDay.mp member
      dsimp only at flagged
      cases found : Dict.get d daily with
      | none =>
        rw [found] at flagged
        exact nomatch flagged
      | some bar =>
        rw [found] at flagged
        dsimp only at flagged
        rw [if_neg fun none_left => some_left (List.isEmpty_iff.mp none_left)] at flagged
        exact ⟨d, bar, found, some_left, flagged⟩
    · rintro ⟨d, bar, found, some_left, flagged⟩
      refine ⟨(d, continuous minutes d), mem_byDay.mpr ⟨rfl, some_left⟩, ?_⟩
      dsimp only
      rw [found]
      dsimp only
      rwa [if_neg fun none_left => some_left (List.isEmpty_iff.mp none_left)]

/-- What the flags of a Daily bar are: one for each extreme that it goes beyond, and its official close. -/
theorem mem_barFlags {bar : Row} {cont : List Row} :
    r ∈ barFlags bar cont ↔
      r.timeframe = .day ∧ r.ts = bar.ts ∧
        (highest cont + eps < bar.high ∧ r.kind = .auctionHigh ∧ r.value = some (highest cont) ∧
            r.detail = "Daily high ".toList ++ Py.showGeneral bar.high ++
              " set after continuous trading (continuous high ".toList ++ Py.showGeneral (highest cont) ++ [')'] ∨
          bar.low < lowest cont - eps ∧ r.kind = .auctionLow ∧ r.value = some (lowest cont) ∧
            r.detail = "Daily low ".toList ++ Py.showGeneral bar.low ++
              " set after continuous trading (continuous low ".toList ++ Py.showGeneral (lowest cont) ++ [')'] ∨
          eps < |bar.close - lastPrice cont| ∧ r.kind = .officialClose ∧ r.value = some bar.close ∧
            r.detail = "last continuous price ".toList ++ Py.showGeneral (lastPrice cont)) := by
  obtain ⟨tf, ts, kind, value, detail⟩ := r
  unfold barFlags
  simp only [List.mem_append]
  constructor
  · rintro ((member | member) | member)
    all_goals
      split at member
      · rename_i beyond
        obtain ⟨rfl, rfl, rfl, rfl, rfl⟩ := FlagRow.mk.inj (List.mem_singleton.mp member)
        simp [beyond]
      · exact nomatch member
  · rintro ⟨rfl, rfl, ⟨beyond, rfl, rfl, rfl⟩ | ⟨beyond, rfl, rfl, rfl⟩ | ⟨beyond, rfl, rfl, rfl⟩⟩
    · exact .inl (.inl (by rw [if_pos beyond]; exact List.mem_singleton_self _))
    · exact .inl (.inr (by rw [if_pos beyond]; exact List.mem_singleton_self _))
    · exact .inr (by rw [if_pos beyond]; exact List.mem_singleton_self _)

/-- The flags of the bars of some days are the flags of those days. -/
theorem mem_auctionFlags_filter (p : Int → Bool) :
    r ∈ auctionFlags (dailyMap (bars.filter fun b => p (dayOf b.ts))) (minutes.filter fun m => p (dayOf m.ts)) ↔
      r ∈ auctionFlags (dailyMap bars) minutes ∧ p (dayOf r.ts) = true := by
  have bar_day : ∀ {d bar}, Dict.get d (dailyMap bars) = some bar → dayOf bar.ts = d := by
    intro d bar found
    rw [get_dailyMap] at found
    exact of_decide_eq_true (List.mem_filter.mp (List.mem_of_getLast? found)).2
  have same_bar : ∀ {d}, p d = true →
      Dict.get d (dailyMap (bars.filter fun b => p (dayOf b.ts))) = Dict.get d (dailyMap bars) := by
    intro d selected
    rw [get_dailyMap, get_dailyMap, List.filter_filter]
    congr 1
    apply List.filter_congr
    intro b _
    by_cases same : dayOf b.ts = d
    · simp [same, selected]
    · simp [same]
  have no_bar : ∀ {d}, p d = false → Dict.get d (dailyMap (bars.filter fun b => p (dayOf b.ts))) = none := by
    intro d left
    rw [get_dailyMap, List.filter_filter, List.filter_eq_nil_iff.mpr, List.getLast?_nil]
    intro b _
    rw [Bool.and_eq_true, decide_eq_true_eq]
    rintro ⟨rfl, selected⟩
    exact Bool.false_ne_true (left.symm.trans selected)
  have same_cont : ∀ {d}, p d = true → continuous (minutes.filter fun m => p (dayOf m.ts)) d =
      continuous minutes d := by
    intro d selected
    unfold continuous
    rw [List.filter_filter, List.filter_filter, List.filter_filter]
    apply List.filter_congr
    intro m _
    by_cases same : dayOf m.ts = d
    · simp [same, selected]
    · simp [same]
  rw [mem_auctionFlags, mem_auctionFlags]
  constructor
  · rintro (⟨m, member, late, rfl⟩ | ⟨d, bar, found, some_left, flagged⟩)
    · obtain ⟨inside, selected⟩ := List.mem_filter.mp member
      exact ⟨.inl ⟨m, inside, late, rfl⟩, selected⟩
    · cases selected : p d with
      | false =>
        rw [no_bar selected] at found
        exact nomatch found
      | true =>
        rw [same_bar selected] at found
        rw [same_cont selected] at some_left flagged
        refine ⟨.inr ⟨d, bar, found, some_left, flagged⟩, ?_⟩
        rw [(mem_barFlags.mp flagged).2.1, bar_day found]
        exact selected
  · rintro ⟨⟨m, member, late, rfl⟩ | ⟨d, bar, found, some_left, flagged⟩, selected⟩
    · exact .inl ⟨m, List.mem_filter.mpr ⟨member, selected⟩, late, rfl⟩
    · rw [(mem_barFlags.mp flagged).2.1, bar_day found] at selected
      refine .inr ⟨d, bar, ?_, ?_, ?_⟩
      · rwa [same_bar selected]
      · rwa [same_cont selected]
      · rwa [same_cont selected]

end Flags

/-- `auction_flags` of the current bars. -/
def currentFlags (rows : List Row) : List FlagRow := auctionFlags (dailyMap (current rows .day)) (current rows .minute)

section CurrentFlags

variable {rows new : List Row} {r r' : FlagRow}

/-- What `flag_days` computes is the part of the current flags on its days. -/
theorem mem_flagDays (first last : Int) :
    r ∈ auctionFlags (dailyMap (read rows .day (dayStart first) (dayStart (last + 1))))
        (read rows .minute (dayStart first) (dayStart (last + 1))) ↔
      r ∈ currentFlags rows ∧ first ≤ dayOf r.ts ∧ dayOf r.ts ≤ last := by
  rw [read_days, read_days, mem_auctionFlags_filter fun d => decide (first ≤ d ∧ d ≤ last), decide_eq_true_eq]
  rfl

/-- A write leaves the flags of the days it does not touch. -/
theorem mem_currentFlags_append {w : Write} (covered : ∀ b ∈ new, w.covers (dayOf b.ts) = true)
    (outside : w.covers (dayOf r.ts) = false) : r ∈ currentFlags (rows ++ new) ↔ r ∈ currentFlags rows := by
  have same : ∀ tf, (current (rows ++ new) tf).filter (fun b => !w.covers (dayOf b.ts)) =
      (current rows tf).filter fun b => !w.covers (dayOf b.ts) := by
    intro tf
    rw [← readWhere_eq (p := fun ts => !w.covers (dayOf ts)), ← readWhere_eq (p := fun ts => !w.covers (dayOf ts))]
    apply readWhere_append
    intro b member
    rw [covered b member]
    rfl
  have part : ∀ all, r ∈ auctionFlags (dailyMap ((current all .day).filter fun b => !w.covers (dayOf b.ts)))
      ((current all .minute).filter fun m => !w.covers (dayOf m.ts)) ↔ r ∈ currentFlags all := by
    intro all
    rw [mem_auctionFlags_filter fun d => !w.covers d, outside]
    exact and_iff_left rfl
  rw [← part, ← part, same, same]

/-- A bar has one flag of a kind. -/
theorem currentFlags_unique (first : r ∈ currentFlags rows) (second : r' ∈ currentFlags rows)
    (same : r.key = r'.key) : r = r' := by
  obtain ⟨same_tf, same_ts, same_kind⟩ : r.timeframe = r'.timeframe ∧ r.ts = r'.ts ∧ r.kind = r'.kind := by
    simpa [FlagRow.key] using same
  have bar_day : ∀ {d bar}, Dict.get d (dailyMap (current rows .day)) = some bar → dayOf bar.ts = d := by
    intro d bar found
    rw [get_dailyMap] at found
    exact of_decide_eq_true (List.mem_filter.mp (List.mem_of_getLast? found)).2
  rcases mem_auctionFlags.mp first with ⟨m, member, late, rfl⟩ | ⟨d, bar, found, some_left, flagged⟩
  · rcases mem_auctionFlags.mp second with ⟨m', member', late', rfl⟩ | ⟨d', bar', found', some_left', flagged'⟩
    · have here := best_of_mem_current member
      have there := best_of_mem_current member'
      rw [show m.ts = m'.ts from same_ts] at here
      rw [Option.some.inj (here.symm.trans there)]
    · exact nomatch same_tf.trans (mem_barFlags.mp flagged').1
  · obtain ⟨is_day, at_ts, kinds⟩ := mem_barFlags.mp flagged
    rcases mem_auctionFlags.mp second with ⟨m', member', late', rfl⟩ | ⟨d', bar', found', some_left', flagged'⟩
    · exact nomatch is_day.symm.trans same_tf
    · obtain ⟨is_day', at_ts', kinds'⟩ := mem_barFlags.mp flagged'
      have same_day : d = d' := by
        rw [← bar_day found, ← bar_day found', ← at_ts, ← at_ts', same_ts]
      subst same_day
      obtain rfl := Option.some.inj (found.symm.trans found')
      obtain ⟨tf, ts, kind, value, detail⟩ := r
      obtain ⟨tf', ts', kind', value', detail'⟩ := r'
      simp only at same_tf same_ts same_kind kinds kinds'
      subst same_tf same_ts same_kind
      rcases kinds with ⟨-, rfl, rfl, rfl⟩ | ⟨-, rfl, rfl, rfl⟩ | ⟨-, rfl, rfl, rfl⟩ <;>
        rcases kinds' with ⟨-, other, rfl, rfl⟩ | ⟨-, other, rfl, rfl⟩ | ⟨-, other, rfl, rfl⟩ <;>
          first | rfl | exact nomatch other

end CurrentFlags

/-! ## Writing flags -/

section Writing

variable {existing : Dict FlagKey Stored} {flags : List FlagRow} {k : FlagKey}

/-- Flags set one after another leave what is under other keys. -/
theorem get_setFlags_of_ne (flags : List FlagRow) (absent : ∀ r ∈ flags, r.key ≠ k) :
    Dict.get k (flags.foldl (fun d r => Dict.set r.key r.stored d) existing) = Dict.get k existing := by
  induction flags generalizing existing with
  | nil => rfl
  | cons r flags ih =>
    rw [List.foldl_cons, ih fun r' member => absent r' (List.mem_cons_of_mem _ member),
      Dict.get_set_of_ne _ _ (Ne.symm (absent r List.mem_cons_self))]

/-- Of flags set one after another, no two of one key different, each is found under its key. -/
theorem get_setFlags_of_mem (flags : List FlagRow)
    (unique : ∀ r ∈ flags, ∀ r' ∈ flags, r.key = r'.key → r = r') {r : FlagRow} (member : r ∈ flags) :
    Dict.get r.key (flags.foldl (fun d r => Dict.set r.key r.stored d) existing) = some r.stored := by
  induction flags using List.reverseRecOn with
  | nil => exact nomatch member
  | append_singleton flags last ih =>
    have in_last : last ∈ flags ++ [last] := List.mem_append_right _ (List.mem_singleton_self _)
    rw [List.foldl_append, List.foldl_cons, List.foldl_nil]
    by_cases same : last.key = r.key
    · rw [unique r member last in_last same.symm, Dict.get_set_self]
    · rw [Dict.get_set_of_ne _ _ (Ne.symm same)]
      rcases List.mem_append.mp member with earlier | is_last
      · exact ih (fun r inside r' inside' => unique r (List.mem_append_left _ inside) r'
          (List.mem_append_left _ inside'))
          earlier
      · rw [List.mem_singleton.mp is_last] at same
        exact absurd rfl same

/-- A flag that is written has its new value and text if its value changed, else what was stored. -/
theorem get_writeFlags_of_mem (unique : ∀ r ∈ flags, ∀ r' ∈ flags, r.key = r'.key → r = r')
    {r : FlagRow} (member : r ∈ flags) :
    Dict.get r.key (writeFlags existing flags).1 =
      if changed existing r = true then some r.stored else Dict.get r.key existing := by
  unfold writeFlags
  by_cases new : changed existing r = true
  · rw [if_pos new]
    exact get_setFlags_of_mem _
      (fun r inside r' inside' => unique r (List.mem_filter.mp inside).1 r' (List.mem_filter.mp inside').1)
      (List.mem_filter.mpr ⟨member, new⟩)
  · rw [if_neg new]
    apply get_setFlags_of_ne
    intro r' inside key
    obtain ⟨member', new'⟩ := List.mem_filter.mp inside
    rw [unique r' member' r member key] at new'
    exact new new'

/-- A flag that is not written stays as it is stored. -/
theorem get_writeFlags_of_notMem (absent : ∀ r ∈ flags, r.key ≠ k) :
    Dict.get k (writeFlags existing flags).1 = Dict.get k existing := by
  unfold writeFlags
  exact get_setFlags_of_ne _ fun r member => absent r (List.mem_filter.mp member).1

end Writing

/-! ## One write -/

theorem roundTo_four {x : ℚ} (places : FourPlaces x) : Py.roundTo 4 x = x := by
  obtain ⟨k, rfl⟩ := places
  unfold Py.roundTo
  have whole : ((k : ℚ) / 10000) * 10 ^ 4 = (k : ℤ) := by
    ring
  rw [whole, Py.roundHalfEven_intCast]
  norm_num

theorem fourPlaces_zero : FourPlaces 0 := ⟨0, by norm_num⟩

section Values

variable {rows : List Row} {cont : List Row} {r : FlagRow}

theorem highest_places (cont : List Row) : FourPlaces (highest cont) := by
  unfold highest
  cases found : (cont.map (·.high)).max? with
  | none => exact fourPlaces_zero
  | some high =>
    obtain ⟨m, _, rfl⟩ := List.mem_map.mp (List.max?_mem found)
    exact m.places.2.1

theorem lowest_places (cont : List Row) : FourPlaces (lowest cont) := by
  unfold lowest
  cases found : (cont.map (·.low)).min? with
  | none => exact fourPlaces_zero
  | some low =>
    obtain ⟨m, _, rfl⟩ := List.mem_map.mp (List.min?_mem found)
    exact m.places.2.2.1

/-- A flag's value is a price of a stored bar. -/
theorem value_places (member : r ∈ currentFlags rows) : ∀ v ∈ r.value, FourPlaces v := by
  intro v holds
  rcases mem_auctionFlags.mp member with ⟨m, _, _, rfl⟩ | ⟨d, bar, _, _, flagged⟩
  · exact nomatch holds
  · obtain ⟨-, -, ⟨-, -, value, -⟩ | ⟨-, -, value, -⟩ | ⟨-, -, value, -⟩⟩ := mem_barFlags.mp flagged
    · obtain rfl := Option.some.inj (value.symm.trans holds)
      exact highest_places _
    · obtain rfl := Option.some.inj (value.symm.trans holds)
      exact lowest_places _
    · obtain rfl := Option.some.inj (value.symm.trans holds)
      exact bar.places.2.2.2

theorem map_roundTo {value : Option ℚ} (places : ∀ v ∈ value, FourPlaces v) : value.map (Py.roundTo 4) = value := by
  cases value with
  | none => rfl
  | some v => exact congrArg some (roundTo_four (places v rfl))

end Values

/-- The stored flags are those of the current bars. -/
def Exact (s : State) : Prop :=
  ∀ k p, Dict.get k s.flags = some p ↔ ∃ r ∈ currentFlags s.rows, r.key = k ∧ r.stored = p

/-- No flag stored of the days flagged is taken away by the write, and none keeps its value under another text. -/
def Kept (s : State) (w : Write) : Prop :=
  ∀ k p, Dict.get k s.flags = some p → w.covers (dayOf k.2.1) = true →
    ∃ r ∈ currentFlags (s.rows ++ w.rows), r.key = k ∧ (p.1 = r.value → p = r.stored)

section Step

variable {s t : State} {w : Write} {r : FlagRow} {k : FlagKey} {p : Stored}

/-- What a write does: its rows are added, and the flags of its days written. -/
theorem step_spec (stepped : machine.step s w = some t) :
    (∀ b ∈ w.rows, w.covers (dayOf b.ts) = true) ∧ t.rows = s.rows ++ w.rows ∧
      t.flags = (flagDays (s.rows ++ w.rows) s.flags w.first w.last).1 := by
  simp only [machine] at stepped
  split at stepped
  · rename_i covered
    obtain rfl := Option.some.inj stepped
    exact ⟨fun b member => List.all_eq_true.mp covered b member, rfl, rfl⟩
  · exact nomatch stepped

theorem covers_iff {d : Int} : w.covers d = true ↔ w.first ≤ d ∧ d ≤ w.last := by
  unfold Write.covers
  rw [decide_eq_true_eq]

/-- Where the stored flags are those of the bars before, a flag is written unless it is stored with its value. -/
theorem changed_iff (before : Exact s) (member : r ∈ currentFlags t.rows) :
    changed s.flags r = true ↔ ∀ p, Dict.get r.key s.flags = some p → p.1 ≠ r.value := by
  unfold changed
  cases found : Dict.get r.key s.flags with
  | none => simp
  | some old =>
    obtain ⟨earlier, was, -, rfl⟩ := (before r.key old).mp found
    have places : ∀ v ∈ earlier.stored.1, FourPlaces v := value_places was
    dsimp only
    rw [map_roundTo places, map_roundTo (value_places member), decide_eq_true_eq]
    constructor
    · intro other p same
      rwa [← Option.some.inj same]
    · exact fun each => each _ rfl

/-- A current flag of a day flagged is stored after the write, new where its value changed. -/
theorem get_step_of_mem (stepped : machine.step s w = some t) (member : r ∈ currentFlags t.rows)
    (inside : w.covers (dayOf r.ts) = true) :
    Dict.get r.key t.flags = if changed s.flags r = true then some r.stored else Dict.get r.key s.flags := by
  obtain ⟨-, all_rows, written⟩ := step_spec stepped
  rw [all_rows] at member
  rw [written]
  apply get_writeFlags_of_mem
  · intro r first r' second
    exact currentFlags_unique ((mem_flagDays _ _).mp first).1 ((mem_flagDays _ _).mp second).1
  · exact (mem_flagDays _ _).mpr ⟨member, covers_iff.mp inside⟩

/-- Under a key of no current flag of the days flagged, what was stored stays. -/
theorem get_step_of_notMem (stepped : machine.step s w = some t)
    (absent : ∀ r ∈ currentFlags t.rows, w.covers (dayOf r.ts) = true → r.key ≠ k) :
    Dict.get k t.flags = Dict.get k s.flags := by
  obtain ⟨-, all_rows, written⟩ := step_spec stepped
  rw [all_rows] at absent
  rw [written]
  apply get_writeFlags_of_notMem
  intro r member
  obtain ⟨current, inside⟩ := (mem_flagDays _ _).mp member
  exact absent r current (covers_iff.mpr inside)

theorem key_ts (same : r.key = k) : r.ts = k.2.1 := by
  rw [← same]
  rfl

/-- The days that are not flagged have the flags of their bars after the write as before it. -/
theorem exact_outside (before : Exact s) (stepped : machine.step s w = some t)
    (outside : w.covers (dayOf k.2.1) = false) :
    Dict.get k t.flags = some p ↔ ∃ r ∈ currentFlags t.rows, r.key = k ∧ r.stored = p := by
  obtain ⟨covered, all_rows, -⟩ := step_spec stepped
  have same : Dict.get k t.flags = Dict.get k s.flags := by
    apply get_step_of_notMem stepped
    intro r _ inside key
    rw [key_ts key, outside] at inside
    exact Bool.false_ne_true inside
  have as_before : ∀ r, r.key = k → (r ∈ currentFlags t.rows ↔ r ∈ currentFlags s.rows) := by
    intro r key
    rw [all_rows]
    exact mem_currentFlags_append covered (by rwa [key_ts key])
  rw [same, before k p]
  constructor
  · rintro ⟨r, member, key, stored⟩
    exact ⟨r, (as_before r key).mpr member, key, stored⟩
  · rintro ⟨r, member, key, stored⟩
    exact ⟨r, (as_before r key).mp member, key, stored⟩

/-- A write that takes no stored flag away leaves the flags of the current bars. -/
theorem exact_of_kept (before : Exact s) (stepped : machine.step s w = some t) (kept : Kept s w) : Exact t := by
  intro k p
  cases inside : w.covers (dayOf k.2.1) with
  | false => exact exact_outside before stepped inside
  | true =>
    obtain ⟨-, all_rows, -⟩ := step_spec stepped
    have written : ∀ r ∈ currentFlags t.rows, r.key = k → Dict.get k t.flags = some r.stored := by
      rintro r member rfl
      rw [get_step_of_mem stepped member inside]
      split
      · rfl
      · rename_i unchanged
        rw [changed_iff before member] at unchanged
        push Not at unchanged
        obtain ⟨old, found, same_value⟩ := unchanged
        obtain ⟨r', member', key, same_text⟩ := kept r.key old found inside
        rw [← all_rows] at member'
        obtain rfl := currentFlags_unique member' member key
        rw [found, same_text same_value]
    constructor
    · intro found
      by_cases some_flag : ∃ r ∈ currentFlags t.rows, r.key = k
      · obtain ⟨r, member, key⟩ := some_flag
        exact ⟨r, member, key, Option.some.inj ((written r member key).symm.trans found)⟩
      · rw [get_step_of_notMem stepped fun r member _ key => some_flag ⟨r, member, key⟩] at found
        obtain ⟨r, member, key, -⟩ := kept k p found inside
        rw [← all_rows] at member
        exact absurd ⟨r, member, key⟩ some_flag
    · rintro ⟨r, member, key, rfl⟩
      exact written r member key

/-- A write after which the stored flags are those of the current bars takes none away. -/
theorem kept_of_exact (before : Exact s) (stepped : machine.step s w = some t) (after : Exact t) : Kept s w := by
  obtain ⟨-, all_rows, -⟩ := step_spec stepped
  intro k p found inside
  rw [← all_rows]
  by_cases some_flag : ∃ r ∈ currentFlags t.rows, r.key = k
  · obtain ⟨r, member, rfl⟩ := some_flag
    refine ⟨r, member, rfl, fun same_value => ?_⟩
    have left := get_step_of_mem stepped member inside
    rw [if_neg fun new => (changed_iff before member).mp new p found same_value, found] at left
    obtain ⟨r', member', key, stored⟩ := (after r.key p).mp left
    rw [← stored, currentFlags_unique member' member key]
  · have left := get_step_of_notMem stepped fun r member _ key => some_flag ⟨r, member, key⟩
    rw [found] at left
    obtain ⟨r, member, key, -⟩ := (after k p).mp left
    exact absurd ⟨r, member, key⟩ some_flag

end Step

end AdvanceTrading.ClosingAuction
