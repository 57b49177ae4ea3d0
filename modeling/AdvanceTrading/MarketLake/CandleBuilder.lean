import AdvanceTrading.MarketLake.TenantStore
import AdvanceTrading.Misc.Processes

/-!
# Bars built from ticks

Model of `CandleBuilder` (`app/market_lake/ingest.py:60-113`). The builder
remembers the bar that is forming and nothing of those it has handed out, so
what it promises holds in the runs where no tick comes for a bar that a flush
has published. Instants are microseconds in UTC.
-/

namespace AdvanceTrading.MarketLake

open TriggerRules (minuteUs)

/-- What `feed` is told of a tick. -/
structure Tick where
  ts : Int
  price : ℚ
  volume : Int
  deriving DecidableEq, Repr

/-- `_Forming`. -/
structure Forming where
  stop : Int
  open_ : ℚ
  high : ℚ
  low : ℚ
  close : ℚ
  volume : Int
  deriving DecidableEq, Repr

/-- The first tick of a bar. -/
def Forming.first (stop : Int) (tick : Tick) : Forming :=
  ⟨stop, tick.price, tick.price, tick.price, tick.price, tick.volume⟩

/-- A further tick of the bar. -/
def Forming.absorb (bar : Forming) (tick : Tick) : Forming :=
  { bar with
    high := max bar.high tick.price
    low := min bar.low tick.price
    close := tick.price
    volume := bar.volume + tick.volume }

/-- `CandleBuilder`, for a timeframe of some minutes. -/
structure CandleBuilder where
  minutes : Nat
  positive : 0 < minutes
  forming : Dict String Forming := []
  lateTicks : Nat := 0

section Builder

variable (minutes : Nat)

/-- `_period`. -/
def periodUs : Int := minutes * minuteUs

/-- `_end_of`: a tick exactly at an end opens the next bar. -/
def endOf (ts : Int) : Int := (ts / periodUs minutes + 1) * periodUs minutes

/-- The bar that `_close` hands out. -/
def closed (key : String) (bar : Forming) : LakeBar where
  instrumentKey := key
  timeframe := minutes
  ts := bar.stop
  open_ := bar.open_
  high := bar.high
  low := bar.low
  close := bar.close
  volume := some bar.volume
  oi := none

end Builder

namespace CandleBuilder

variable (b : CandleBuilder)

/-- `feed`. -/
def feed (key : String) (tick : Tick) : CandleBuilder × List LakeBar :=
  let stop := endOf b.minutes tick.ts
  match Dict.get key b.forming with
  | none => ({ b with forming := Dict.set key (.first stop tick) b.forming }, [])
  | some bar =>
      if stop < bar.stop then ({ b with lateTicks := b.lateTicks + 1 }, [])
      else if bar.stop < stop then
        ({ b with forming := Dict.set key (.first stop tick) (Dict.pop key b.forming) }, [closed b.minutes key bar])
      else ({ b with forming := Dict.set key (bar.absorb tick) b.forming }, [])

/-- `flush`. -/
def flush (now : Int) : CandleBuilder × List LakeBar :=
  let done := b.forming.filter fun e => e.2.stop ≤ now
  ({ b with forming := done.foldl (fun d e => Dict.pop e.1 d) b.forming }, done.map fun e => closed b.minutes e.1 e.2)

end CandleBuilder

/-! ## Runs -/

/-- A call of the builder. -/
inductive Call where
  | feed (key : String) (tick : Tick)
  | flush (now : Int)
  deriving DecidableEq, Repr

/-- A builder with what it has handed out, the ticks that went into bars and those it dropped. -/
structure Feed where
  builder : CandleBuilder
  emitted : List LakeBar := []
  taken : List (String × Tick) := []
  late : List (String × Tick) := []

namespace Feed

variable (w : Feed)

/-- A call. A tick was dropped when the count of late ticks has moved. -/
def call : Call → Feed
  | .feed key tick =>
      let (builder, bars) := w.builder.feed key tick
      if builder.lateTicks = w.builder.lateTicks then
        { w with builder, emitted := w.emitted ++ bars, taken := w.taken ++ [(key, tick)] }
      else { w with builder, emitted := w.emitted ++ bars, late := w.late ++ [(key, tick)] }
  | .flush now =>
      let (builder, bars) := w.builder.flush now
      { w with builder, emitted := w.emitted ++ bars }

/-- The bars of an instrument that were handed out, and the one that is forming. -/
def bars (key : String) : List LakeBar :=
  w.emitted.filter (fun bar => bar.instrumentKey = key) ++
    ((Dict.get key w.builder.forming).map (closed w.builder.minutes key)).toList

/-- The ticks of an instrument that went into bars. -/
def ticks (key : String) : List Tick := (w.taken.filter fun e => e.1 = key).map Prod.snd

end Feed

/-- The calls of one builder. -/
def feeds : Machine Feed Call where
  step w c := some (w.call c)

/-- The bar of the ticks of one period, in their order. -/
def formed (stop : Int) : List Tick → Option Forming
  | [] => none
  | tick :: rest => some (rest.foldl Forming.absorb (.first stop tick))

/-- The bars of an instrument hold its ticks: each END once and in order, each bar the ticks of its period. -/
structure Filed (minutes : Nat) (key : String) (bars : List LakeBar) (ticks : List Tick) : Prop where
  ordered : bars.Pairwise fun x y => x.ts < y.ts
  filled : ∀ bar ∈ bars, ∃ f,
    formed bar.ts (ticks.filter fun t => endOf minutes t.ts = bar.ts) = some f ∧ bar = closed minutes key f
  covered : ∀ t ∈ ticks, ∃ bar ∈ bars, bar.ts = endOf minutes t.ts

section Periods

variable {minutes : Nat} {ts ts' : Int}

theorem period_pos (positive : 0 < minutes) : 0 < periodUs minutes := by
  unfold periodUs minuteUs
  omega

/-- A tick lies in the period that ends at its bar's END. -/
theorem endOf_contains (positive : 0 < minutes) (ts : Int) :
    endOf minutes ts - periodUs minutes ≤ ts ∧ ts < endOf minutes ts := by
  have period := period_pos positive
  have lower := Int.ediv_mul_le ts period.ne'
  have upper := Int.lt_ediv_add_one_mul_self ts period
  have whole : endOf minutes ts = ts / periodUs minutes * periodUs minutes + periodUs minutes := by
    unfold endOf
    rw [add_mul, one_mul]
  unfold endOf at upper whole ⊢
  constructor <;> omega

/-- And in no other. -/
theorem endOf_eq (positive : 0 < minutes)
    (inside : endOf minutes ts' - periodUs minutes ≤ ts ∧ ts < endOf minutes ts') :
    endOf minutes ts = endOf minutes ts' := by
  have period := period_pos positive
  have quotient : ts / periodUs minutes = ts' / periodUs minutes := by
    apply le_antisymm
    · have upper : ts < (ts' / periodUs minutes + 1) * periodUs minutes := inside.2
      exact Int.lt_add_one_iff.mp (Int.ediv_lt_of_lt_mul period upper)
    · apply (Int.le_ediv_iff_mul_le period).mpr
      have lower := inside.1
      unfold endOf at lower
      rw [add_mul, one_mul] at lower
      omega
  unfold endOf
  rw [quotient]

end Periods

/-! ## One instrument's bars -/

section Bars

variable {minutes : Nat} {key : String} {bars : List LakeBar} {ticks : List Tick} {tick : Tick}

theorem formed_snoc (stop : Int) (ticks : List Tick) (tick : Tick) :
    formed stop (ticks ++ [tick]) = some ((formed stop ticks).elim (.first stop tick) (·.absorb tick)) := by
  cases ticks with
  | nil => rfl
  | cons t ticks => simp [formed]

@[simp] theorem closed_ts (bar : Forming) : (closed minutes key bar).ts = bar.stop := rfl

@[simp] theorem closed_instrumentKey (bar : Forming) : (closed minutes key bar).instrumentKey = key := rfl

theorem closed_injective {f g : Forming} (same : closed minutes key f = closed minutes key g) : f = g := by
  cases f
  cases g
  simp only [closed, LakeBar.mk.injEq, Option.some.injEq] at same
  simp [same]

/-- What a bar of another period holds does not see the tick. -/
theorem filter_snoc_of_ne {stop : Int} (other : endOf minutes tick.ts ≠ stop) :
    (ticks ++ [tick]).filter (fun t => endOf minutes t.ts = stop) = ticks.filter fun t =>
      endOf minutes t.ts = stop := by
  simp [other]

theorem filter_snoc_self :
    (ticks ++ [tick]).filter (fun t => endOf minutes t.ts = endOf minutes tick.ts) =
      (ticks.filter fun t => endOf minutes t.ts = endOf minutes tick.ts) ++ [tick] := by
  simp

/-- A tick of a later period begins a bar. -/
theorem Filed.first (filed : Filed minutes key bars ticks) (later : ∀ bar ∈ bars, bar.ts < endOf minutes tick.ts) :
    Filed minutes key (bars ++ [closed minutes key (.first (endOf minutes tick.ts) tick)]) (ticks ++ [tick]) where
  ordered := by
    rw [List.pairwise_append]
    refine ⟨filed.ordered, List.pairwise_singleton .., ?_⟩
    intro x mem y last
    rw [List.mem_singleton.mp last]
    exact later x mem
  filled := by
    intro bar mem
    rcases List.mem_append.mp mem with older | last
    · obtain ⟨f, made, is⟩ := filed.filled bar older
      refine ⟨f, ?_, is⟩
      rw [filter_snoc_of_ne (later bar older).ne']
      exact made
    · rw [List.mem_singleton.mp last]
      refine ⟨_, ?_, rfl⟩
      have none_ : ticks.filter (fun t => endOf minutes t.ts = endOf minutes tick.ts) = [] := by
        rw [List.filter_eq_nil_iff]
        intro t mem same
        obtain ⟨bar, inBars, at_⟩ := filed.covered t mem
        have before := later bar inBars
        rw [at_, of_decide_eq_true same] at before
        exact lt_irrefl _ before
      rw [closed_ts]
      show formed (endOf minutes tick.ts)
        ((ticks ++ [tick]).filter fun t => endOf minutes t.ts = endOf minutes tick.ts) = _
      rw [filter_snoc_self, none_]
      rfl
  covered := by
    intro t mem
    rcases List.mem_append.mp mem with older | last
    · obtain ⟨bar, inBars, at_⟩ := filed.covered t older
      exact ⟨bar, List.mem_append_left _ inBars, at_⟩
    · rw [List.mem_singleton.mp last]
      exact ⟨_, List.mem_append_right _ List.mem_cons_self, rfl⟩

/-- A tick of the last bar's period goes into it. -/
theorem Filed.absorb {bar : Forming} (filed : Filed minutes key (bars ++ [closed minutes key bar]) ticks)
    (within : endOf minutes tick.ts = bar.stop) :
    Filed minutes key (bars ++ [closed minutes key (bar.absorb tick)]) (ticks ++ [tick]) where
  ordered := by
    have ordered := filed.ordered
    rw [List.pairwise_append] at ordered ⊢
    refine ⟨ordered.1, List.pairwise_singleton .., ?_⟩
    intro x mem y last
    rw [List.mem_singleton.mp last]
    have before : x.ts < bar.stop := ordered.2.2 x mem _ List.mem_cons_self
    exact before
  filled := by
    intro bar' mem
    rcases List.mem_append.mp mem with older | last
    · obtain ⟨f, made, is⟩ := filed.filled bar' (List.mem_append_left _ older)
      have before : bar'.ts < bar.stop := (List.pairwise_append.mp filed.ordered).2.2 bar' older _ List.mem_cons_self
      refine ⟨f, ?_, is⟩
      rw [filter_snoc_of_ne fun same => before.ne (same.symm.trans within)]
      exact made
    · rw [List.mem_singleton.mp last]
      obtain ⟨f, made, is⟩ := filed.filled _ (List.mem_append_right _ List.mem_cons_self)
      cases closed_injective is
      refine ⟨_, ?_, rfl⟩
      have made : formed bar.stop (ticks.filter fun t => endOf minutes t.ts = bar.stop) = some bar := made
      show formed bar.stop ((ticks ++ [tick]).filter fun t => endOf minutes t.ts = bar.stop) = _
      rw [← within] at made ⊢
      rw [filter_snoc_self, formed_snoc, made]
      rfl
  covered := by
    intro t mem
    have last : (closed minutes key (bar.absorb tick)).ts = (closed minutes key bar).ts := rfl
    rcases List.mem_append.mp mem with older | new
    · obtain ⟨bar', inBars, at_⟩ := filed.covered t older
      rcases List.mem_append.mp inBars with before | same
      · exact ⟨bar', List.mem_append_left _ before, at_⟩
      · rw [List.mem_singleton.mp same, ← last] at at_
        exact ⟨_, List.mem_append_right _ List.mem_cons_self, at_⟩
    · rw [List.mem_singleton.mp new]
      exact ⟨_, List.mem_append_right _ List.mem_cons_self, within.symm⟩

/-- Every tick is in exactly one bar, the one whose period holds its time. -/
theorem Filed.once (positive : 0 < minutes) (filed : Filed minutes key bars ticks) {t : Tick} (mem : t ∈ ticks) :
    ∃ bar ∈ bars, (bar.ts - periodUs minutes ≤ t.ts ∧ t.ts < bar.ts) ∧
      ∀ other ∈ bars, other.ts - periodUs minutes ≤ t.ts ∧ t.ts < other.ts → other = bar := by
  obtain ⟨bar, inBars, at_⟩ := filed.covered t mem
  refine ⟨bar, inBars, at_ ▸ endOf_contains positive t.ts, fun other inOther inside => ?_⟩
  -- a bar has ticks, so its END is that of a period
  obtain ⟨f, made, is⟩ := filed.filled other inOther
  have same : other.ts = bar.ts := by
    cases held : ticks.filter (fun t => endOf minutes t.ts = other.ts) with
    | nil =>
      rw [held] at made
      cases made
    | cons t' rest =>
      have isEnd := of_decide_eq_true (List.mem_filter.mp (held ▸ List.mem_cons_self : t' ∈ ticks.filter _)).2
      rw [← isEnd] at inside
      rw [at_, ← isEnd]
      exact (endOf_eq positive inside).symm
  have distinct : (bars.map (·.ts)).Nodup := List.pairwise_map.mpr (filed.ordered.imp fun before => before.ne)
  exact List.inj_on_of_nodup_map distinct inOther inBars same

end Bars

/-! ## A call -/

/-- What a builder promises at every moment. -/
structure HandedOnce (w : Feed) : Prop where
  /-- The ENDs handed out for an instrument strictly increase. -/
  emitted : ∀ key, (w.emitted.filter fun bar => bar.instrumentKey = key).Pairwise fun x y => x.ts < y.ts
  /-- So they do with the bar that is forming, and each bar is made of its own ticks. -/
  filed : ∀ key, Filed w.builder.minutes key (w.bars key) (w.ticks key)
  /-- A tick is in exactly one bar, the one whose period holds its time. -/
  once : ∀ key, ∀ t ∈ w.ticks key, ∃ bar ∈ w.bars key, (bar.ts - periodUs w.builder.minutes ≤ t.ts ∧ t.ts < bar.ts) ∧
    ∀ other ∈ w.bars key, other.ts - periodUs w.builder.minutes ≤ t.ts ∧ t.ts < other.ts → other = bar

/-- No tick comes for a bar that was handed out, or for one before it, while no bar of its instrument is forming. -/
def OnTime (w : Feed) : Call → Prop
  | .feed key tick => Dict.get key w.builder.forming = none →
      ∀ bar ∈ w.emitted, bar.instrumentKey = key → bar.ts < endOf w.builder.minutes tick.ts
  | .flush _ => True

instance (w : Feed) : ∀ c, Decidable (OnTime w c)
  | .feed _ _ => inferInstanceAs (Decidable (_ = none → ∀ bar ∈ w.emitted, _ → _))
  | .flush _ => isTrue trivial

section Calls

variable {w : Feed} {key : String} {tick : Tick}

theorem handedOnce_of_filed (filed : ∀ key, Filed w.builder.minutes key (w.bars key) (w.ticks key)) : HandedOnce w where
  emitted key := (List.pairwise_append.mp (filed key).ordered).1
  filed := filed
  once key _ mem := Filed.once w.builder.positive (filed key) mem

/-- What a tick does: it begins a bar, is dropped, begins a bar after the one that was forming, or goes into it. -/
inductive Fed (w : Feed) (key : String) (tick : Tick) : Feed → Prop
  | first (quiet : Dict.get key w.builder.forming = none) :
      Fed w key tick { w with
        builder := { w.builder with
          forming := Dict.set key (.first (endOf w.builder.minutes tick.ts) tick) w.builder.forming }
        taken := w.taken ++ [(key, tick)] }
  | late {bar : Forming} (found : Dict.get key w.builder.forming = some bar)
      (before : endOf w.builder.minutes tick.ts < bar.stop) :
      Fed w key tick { w with
        builder := { w.builder with lateTicks := w.builder.lateTicks + 1 }
        late := w.late ++ [(key, tick)] }
  | next {bar : Forming} (found : Dict.get key w.builder.forming = some bar)
      (after : bar.stop < endOf w.builder.minutes tick.ts) :
      Fed w key tick { w with
        builder := { w.builder with
          forming := Dict.set key (.first (endOf w.builder.minutes tick.ts) tick) (Dict.pop key w.builder.forming) }
        emitted := w.emitted ++ [closed w.builder.minutes key bar]
        taken := w.taken ++ [(key, tick)] }
  | within {bar : Forming} (found : Dict.get key w.builder.forming = some bar)
      (same : endOf w.builder.minutes tick.ts = bar.stop) :
      Fed w key tick { w with
        builder := { w.builder with forming := Dict.set key (bar.absorb tick) w.builder.forming }
        taken := w.taken ++ [(key, tick)] }

theorem call_feed (w : Feed) (key : String) (tick : Tick) : Fed w key tick (w.call (.feed key tick)) := by
  cases found : Dict.get key w.builder.forming with
  | none =>
    simp only [Feed.call, CandleBuilder.feed, found, if_true, List.append_nil]
    exact .first found
  | some bar =>
    simp only [Feed.call, CandleBuilder.feed, found]
    rcases lt_trichotomy (endOf w.builder.minutes tick.ts) bar.stop with before | same | after
    · simp only [before, if_true, List.append_nil, Nat.succ_ne_self, if_false]
      exact .late found before
    · simp only [same, lt_irrefl, if_false, if_true, List.append_nil]
      exact .within found same
    · simp only [after, after.not_gt, if_false, if_true]
      exact .next found after

section

variable {w' : Feed} (fed : Fed w key tick w')
include fed

/-- A tick of one instrument leaves the bars and the ticks of the others. -/
theorem fed_other {key' : String} (other : key' ≠ key) :
    w'.bars key' = w.bars key' ∧ w'.ticks key' = w.ticks key' := by
  cases fed with
  | first quiet => simp [Feed.bars, Feed.ticks, Dict.get_set_of_ne _ _ other, other.symm]
  | late found before => exact ⟨rfl, rfl⟩
  | next found after =>
    simp [Feed.bars, Feed.ticks, Dict.get_set_of_ne _ _ other, Dict.get_pop_of_ne _ other, other.symm]
  | within found same =>
    simp [Feed.bars, Feed.ticks, Dict.get_set_of_ne _ _ other, other.symm]

/-- The bars of the tick's own instrument. -/
theorem fed_filed (filed : Filed w.builder.minutes key (w.bars key) (w.ticks key))
    (onTime : OnTime w (.feed key tick)) : Filed w'.builder.minutes key (w'.bars key) (w'.ticks key) := by
  cases fed with
  | first quiet =>
    have later : ∀ bar ∈ w.bars key, bar.ts < endOf w.builder.minutes tick.ts := by
      intro bar mem
      simp only [Feed.bars, quiet, Option.map_none, Option.toList_none, List.append_nil, List.mem_filter,
        decide_eq_true_eq] at mem
      exact onTime quiet bar mem.1 mem.2
    have begun := filed.first later
    simpa [Feed.bars, Feed.ticks, quiet] using begun
  | late found before => exact filed
  | next found after =>
    rename_i bar
    have bars : w.bars key =
        (w.emitted.filter fun bar => bar.instrumentKey = key) ++ [closed w.builder.minutes key bar] := by
      simp [Feed.bars, found]
    have later : ∀ bar ∈ w.bars key, bar.ts < endOf w.builder.minutes tick.ts := by
      rw [bars] at filed ⊢
      intro bar' mem
      rcases List.mem_append.mp mem with older | last
      · exact ((List.pairwise_append.mp filed.ordered).2.2 bar' older _ List.mem_cons_self).trans after
      · rw [List.mem_singleton.mp last]
        exact after
    have begun := filed.first later
    rw [bars] at begun
    simpa [Feed.bars, Feed.ticks] using begun
  | within found same =>
    rename_i bar
    have bars : w.bars key =
        (w.emitted.filter fun bar => bar.instrumentKey = key) ++ [closed w.builder.minutes key bar] := by
      simp [Feed.bars, found]
    rw [bars] at filed
    have grown := filed.absorb same
    simpa [Feed.bars, Feed.ticks] using grown

omit fed in
/-- A flush hands out bars that were forming; an instrument's bars stay what they are. -/
theorem bars_flush (distinct : (Dict.keys w.builder.forming).Nodup) (now : Int) (key : String) :
    (w.call (.flush now)).bars key = w.bars key := by
  have mine : (w.builder.forming.filter fun e => e.2.stop ≤ now).filter (fun e => e.1 = key) =
      ((Dict.get key w.builder.forming).toList.map fun bar => (key, bar)).filter fun e => e.2.stop ≤ now := by
    rw [← Dict.filter_keys distinct, List.filter_filter, List.filter_filter]
    simp only [Bool.and_comm]
  have out : (((w.builder.forming.filter fun e => e.2.stop ≤ now).map fun e => closed w.builder.minutes e.1 e.2).filter
      fun bar => bar.instrumentKey = key) =
      ((w.builder.forming.filter fun e => e.2.stop ≤ now).filter fun e => e.1 = key).map fun e =>
        closed w.builder.minutes e.1 e.2 := by
    rw [List.filter_map]
    rfl
  have known : key ∈ (w.builder.forming.filter fun e => e.2.stop ≤ now).map Prod.fst ↔
      (w.builder.forming.filter fun e => e.2.stop ≤ now).filter (fun e => e.1 = key) ≠ [] := by
    simp [List.filter_eq_nil_iff]
  simp only [Feed.call, CandleBuilder.flush, Feed.bars, List.filter_append, Dict.get_popAll, out, known, mine,
    List.append_assoc]
  congr 1
  cases found : Dict.get key w.builder.forming with
  | none => simp
  | some bar =>
    by_cases over_ : bar.stop ≤ now
    · simp [over_]
    · simp [over_]

theorem fed_minutes : w'.builder.minutes = w.builder.minutes := by
  cases fed <;> rfl

theorem fed_distinct (distinct : (Dict.keys w.builder.forming).Nodup) :
    (Dict.keys w'.builder.forming).Nodup := by
  cases fed with
  | first quiet => exact Dict.nodup_keys_set distinct
  | late found before => exact distinct
  | next found after => exact Dict.nodup_keys_set (Dict.nodup_keys_pop distinct)
  | within found same => exact Dict.nodup_keys_set distinct

/-- A tick goes into a bar or is counted as late. -/
theorem fed_counted (counted : w.builder.lateTicks = w.late.length) :
    w'.builder.lateTicks = w'.late.length ∧ (w'.taken ++ w'.late).Perm (w.taken ++ w.late ++ [(key, tick)]) := by
  have moved : (w.taken ++ [(key, tick)] ++ w.late).Perm (w.taken ++ w.late ++ [(key, tick)]) := by
    rw [List.append_assoc, List.append_assoc]
    exact List.perm_append_comm.append_left w.taken
  cases fed with
  | first quiet => exact ⟨counted, moved⟩
  | late found before => exact ⟨by simp [counted], by simp⟩
  | next found after => exact ⟨counted, moved⟩
  | within found same => exact ⟨counted, moved⟩

end

theorem distinct_call (distinct : (Dict.keys w.builder.forming).Nodup) (c : Call) :
    (Dict.keys (w.call c).builder.forming).Nodup := by
  cases c with
  | flush now => exact Dict.nodup_keys_popAll _ _ distinct
  | feed key tick => exact fed_distinct (call_feed w key tick) distinct

/-- A builder that keeps its promise keeps it over a call that is on time. -/
theorem HandedOnce.call (handed : HandedOnce w) (distinct : (Dict.keys w.builder.forming).Nodup)
    {c : Call} (onTime : OnTime w c) : HandedOnce (w.call c) := by
  apply handedOnce_of_filed
  intro key
  cases c with
  | flush now =>
    rw [bars_flush distinct now key]
    exact handed.filed key
  | feed key' tick =>
    have fed := call_feed w key' tick
    by_cases same : key = key'
    · subst same
      exact fed_filed fed (handed.filed key) onTime
    · obtain ⟨bars, ticks⟩ := fed_other fed same
      rw [bars, ticks, fed_minutes fed]
      exact handed.filed key

/-- A tick for a bar that was handed out opens it again, and the promise is broken. -/
theorem onTime_of_handedOnce {c : Call} (after : HandedOnce (w.call c)) : OnTime w c := by
  cases c with
  | flush now => trivial
  | feed key tick =>
    intro quiet bar mem isKey
    have ordered := (after.filed key).ordered
    have fed := call_feed w key tick
    generalize w.call (.feed key tick) = w' at fed ordered
    cases fed with
    | late found before => cases quiet.symm.trans found
    | next found after => cases quiet.symm.trans found
    | within found same => cases quiet.symm.trans found
    | first _ =>
      have inBars : bar ∈ w.emitted.filter fun bar => bar.instrumentKey = key :=
        List.mem_filter.mpr ⟨mem, decide_eq_true isKey⟩
      simp only [Feed.bars, Dict.get_set_self, Option.map_some, Option.toList_some] at ordered
      exact (List.pairwise_append.mp ordered).2.2 bar inBars _ List.mem_cons_self

end Calls

/-! ## All calls -/

/-- The ticks that were fed. -/
def fedTicks (calls : List Call) : List (String × Tick) :=
  calls.filterMap fun
    | .feed key tick => some (key, tick)
    | .flush _ => none

/-- A new builder. -/
def Feed.start (minutes : Nat) (positive : 0 < minutes) : Feed := { builder := { minutes, positive } }

section Runs

variable {w : Feed}

theorem run_feeds (w : Feed) (calls : List Call) : feeds.run w calls = some (calls.foldl Feed.call w) := by
  induction calls generalizing w with
  | nil => rfl
  | cons c calls ih =>
    rw [Machine.run_cons]
    exact ih (w.call c)

/-- A tick is taken or dropped, and the dropped ones are counted. -/
theorem ticks_accounted (calls : List Call) (counted : w.builder.lateTicks = w.late.length) :
    ((calls.foldl Feed.call w).taken ++ (calls.foldl Feed.call w).late).Perm
        (w.taken ++ w.late ++ fedTicks calls) ∧
      (calls.foldl Feed.call w).builder.lateTicks = (calls.foldl Feed.call w).late.length := by
  induction calls generalizing w with
  | nil => simp [fedTicks, counted]
  | cons c calls ih =>
    cases c with
    | flush now => exact ih (w := w.call (.flush now)) counted
    | feed key tick =>
      have step := fed_counted (call_feed w key tick) counted
      obtain ⟨perm, count⟩ := ih step.1
      refine ⟨perm.trans ?_, count⟩
      have fed : fedTicks (.feed key tick :: calls) = [(key, tick)] ++ fedTicks calls := rfl
      rw [fed, ← List.append_assoc]
      exact step.2.append_right _

end Runs

/-- Every tick of every run is in a bar or counted as late; and after each call of a run the bars are handed out once,
with every tick in the one bar of its time, exactly when no call of the run is a tick for a bar that a flush has
published, or for an earlier one, while its instrument is quiet. -/
theorem candles_handedOnce (minutes : Nat) (positive : 0 < minutes) (calls : List Call) :
    (feeds.Meets (fun w c => HandedOnce (w.call c)) (.start minutes positive) calls ↔
      feeds.Meets OnTime (.start minutes positive) calls) ∧
    ((calls.foldl Feed.call (.start minutes positive)).taken ++
        (calls.foldl Feed.call (.start minutes positive)).late).Perm (fedTicks calls) ∧
    (calls.foldl Feed.call (.start minutes positive)).builder.lateTicks =
      (calls.foldl Feed.call (.start minutes positive)).late.length := by
  have start : HandedOnce (Feed.start minutes positive) ∧
      (Dict.keys (Feed.start minutes positive).builder.forming).Nodup := by
    refine ⟨handedOnce_of_filed fun key => ⟨List.Pairwise.nil, ?_, ?_⟩, List.nodup_nil⟩
    · intro bar mem
      cases mem
    · intro t mem
      cases mem
  refine ⟨feeds.meets_iff (P := fun w => HandedOnce w ∧ (Dict.keys w.builder.forming).Nodup) ?_ ?_ start
    (run_feeds _ calls), ticks_accounted calls rfl⟩
  · rintro w c _ ⟨handed, distinct⟩ -
    exact ⟨onTime_of_handedOnce, handed.call distinct⟩
  · rintro w c t ⟨handed, distinct⟩ onTime stepped
    cases stepped
    exact ⟨handed.call distinct onTime, distinct_call distinct c⟩

/-- A one-minute bar is published by a flush at its end, and a tick of that minute comes after. -/
def lateAfterFlush : List Call :=
  [.feed "NIFTY" ⟨10000000, 100, 5⟩, .flush 60000000, .feed "NIFTY" ⟨50000000, 101, 7⟩, .flush 120000000]

/-- The END at one minute is handed out twice, and no tick is counted as late. -/
theorem lateAfterFlush_twice :
    ¬ ((lateAfterFlush.foldl Feed.call (.start 1 one_pos)).emitted.Pairwise fun x y => x.ts < y.ts) ∧
      (lateAfterFlush.foldl Feed.call (.start 1 one_pos)).emitted.map (·.ts) = [60000000, 60000000] ∧
      (lateAfterFlush.foldl Feed.call (.start 1 one_pos)).builder.lateTicks = 0 := by
  decide +kernel

/-- A tick that is late while a later bar forms is dropped. -/
theorem candles_handedOnce_oneMinute :
    feeds.Meets (fun w c => HandedOnce (w.call c)) (.start 1 one_pos)
      [.feed "NIFTY" ⟨10000000, 100, 5⟩, .feed "NIFTY" ⟨70000000, 101, 7⟩, .feed "NIFTY" ⟨50000000, 99, 1⟩,
        .flush 120000000] :=
  (candles_handedOnce 1 one_pos _).1.mpr (by decide +kernel)

end AdvanceTrading.MarketLake
