import AdvanceTrading.MarketLake.Adjust
import AdvanceTrading.MarketLake.AsOf

/-!
# Reading the private candles

Model of `app/market_lake/tenant_store.py:29-86` and `:123-146`. A read takes the
one-minute rows of a window that begins one bar early, builds the bars and keeps
those that end in the window asked for. The rows come in the order the database
returns them.
-/

namespace AdvanceTrading.MarketLake

open TriggerRules (minuteUs)
open MarketData
open AdvanceTrading.Lake (choice)

/-- `MdTenantCandleRecord`. -/
structure TenantRow where
  tenantId : Int
  instrumentKey : String
  timeframe : String
  ts : Int
  source : String
  version : Nat
  open_ : ℚ
  high : ℚ
  low : ℚ
  close : ℚ
  volume : Option Int
  oi : Option Int
  ingestedAt : Int
  deriving DecidableEq

/-- The arguments of `candles`; no source preference is an empty list. The symbol only finds the corporate actions. -/
structure TenantQuery where
  tenantId : Option Int
  instrumentKey : String
  timeframe : String
  start : Int
  stop : Int
  exchange : String := "NSE"
  kind : String := "EQ"
  adjusted : Bool := true
  asOf : Option Int := none
  sources : List String := []
  readerUserId : Option Int := none

/-- How a read ends without bars. -/
inductive ReadError where
  /-- "The private candle store is read per tenant; a tenant id is required" -/
  | tenantRequired
  /-- "Unsupported intraday timeframe …" -/
  | unsupported (timeframe : String)
  /-- "Timeframe … is not built from the 1-minute store" -/
  | notBuilt (timeframe : String)
  /-- "… one-minute rows in the window; at most … are read per request - narrow the window" -/
  | tooMany (stored most : Nat)
  /-- The `ZeroDivisionError` of `rights_factors`. -/
  | zeroDivision
  deriving DecidableEq, Repr

/-- `BASE_TIMEFRAME`. -/
def baseTimeframe : String := "1m"

/-- `RESAMPLE_MINUTES`. -/
def allowedMinutes : List Nat := [1, 3, 5, 15, 30, 60]

/-- `_require_tenant`. -/
def requireTenant : Option Int → Except ReadError Int
  | none => .error ReadError.tenantRequired
  | some tenant => if tenant ≤ 0 then .error ReadError.tenantRequired else .ok tenant

/-- `timeframe_minutes` (`ingest.py:37-42`): digits, blanks, then `m` or `min`. -/
def timeframeMinutes (timeframe : String) : Except ReadError Nat :=
  let text := (Py.lower (Py.strip timeframe)).toList
  let digits := text.takeWhile Char.isDigit
  let unit := (text.dropWhile Char.isDigit).dropWhile Py.isSpace
  let minutes := digits.foldl (fun n c => 10 * n + (c.toNat - '0'.toNat)) 0
  if (unit = ['m'] ∨ unit = ['m', 'i', 'n']) ∧
    0 < minutes then .ok minutes else .error (ReadError.unsupported timeframe)

/-- `resample_minutes`. -/
def resampleMinutes (timeframe : String) : Except ReadError Nat :=
  match timeframeMinutes timeframe with
  | .ok minutes => if minutes ∈ allowedMinutes then .ok minutes else .error (ReadError.notBuilt timeframe)
  | .error e => .error e

/-- `HOLDER_PREFIX`. -/
def holderPrefix : String := "broker:"

/-- SQL `LIKE 'broker:%:u<id>'`. -/
def likeHolder (source : String) (id : Int) : Bool :=
  Py.likeStart holderPrefix.toList source.toList &&
    (":u" ++ toString id).toList.isSuffixOf (source.toList.drop holderPrefix.length)

/-- `holder_visible`. -/
def holderVisible (source : String) (readerUserId : Option Int) : Bool :=
  !Py.likeStart holderPrefix.toList source.toList || readerUserId.any (likeHolder source)

/-- The conditions of `rows_as_of` other than its window. -/
def readable (q : TenantQuery) (tenant : Int) (timeframe : String) (r : TenantRow) : Bool :=
  decide (r.tenantId = tenant) && decide (r.instrumentKey = q.instrumentKey) && decide (r.timeframe = timeframe) &&
    holderVisible r.source q.readerUserId && (q.asOf.all fun asOf => decide (r.ingestedAt ≤ asOf)) &&
    (decide (q.sources = []) || decide (r.source ∈ q.sources))

/-- The row of each bar end that `rows_as_of` keeps of those it reads, in time order. -/
def best (q : TenantQuery) (rows : List TenantRow) : List TenantRow :=
  sortBy (·.ts) (leastByKey (·.ts) (fun r => choice q.sources r.source r.version) rows)

/-- `rows_as_of`. -/
def rowsAsOf (q : TenantQuery) (tenant : Int) (timeframe : String) (start stop : Int) (rows : List TenantRow) :
    List TenantRow :=
  best q (rows.filter fun r => decide (start < r.ts ∧ r.ts ≤ stop) && readable q tenant timeframe r)

/-- The rows that `candles` counts before it reads any. -/
def countedRows (q : TenantQuery) (tenant rawStart : Int) (rows : List TenantRow) : List TenantRow :=
  rows.filter fun r =>
    decide (r.tenantId = tenant) && decide (r.instrumentKey = q.instrumentKey) &&
      decide (r.timeframe = baseTimeframe) && decide (rawStart < r.ts ∧ r.ts ≤ q.stop) &&
      holderVisible r.source q.readerUserId

/-- The bar of a stored row. -/
def TenantRow.bar (r : TenantRow) : LakeBar :=
  { instrumentKey := r.instrumentKey, timeframe := 1, ts := r.ts, open_ := r.open_, high := r.high, low := r.low
    close := r.close, volume := r.volume, oi := r.oi }

/-- Where the window of the rows begins. -/
def rawStart (q : TenantQuery) (minutes : Nat) : Int := q.start - minutes * minuteUs

/-- The window of a query. -/
def TenantQuery.window (q : TenantQuery) : Window := ⟨q.start, q.stop⟩

/-- `candles`, with `LAKE_TENANT_MAX_BASE_ROWS` rows at most, `LAKE_ADJUST_DIVIDENDS` and the actions of the symbol. -/
def candles (most : Nat) (dividends : Bool) (actions : List CorporateAction) (q : TenantQuery) (rows : List TenantRow) :
    Except ReadError (List LakeBar) := do
  let tenant ← requireTenant q.tenantId
  let minutes ← resampleMinutes q.timeframe
  let stored := (countedRows q tenant (rawStart q minutes) rows).length
  if most < stored then throw (ReadError.tooMany stored most)
  let base := (rowsAsOf q tenant baseTimeframe (rawStart q minutes) q.stop rows).map TenantRow.bar
  let bars := q.window.cut (resample base minutes q.exchange)
  match adjustedView q.adjusted q.kind dividends bars actions with
  | some view => pure view
  | none => throw ReadError.zeroDivision

/-- All the stored bars up to the end of the window that the reader sees. -/
def historyUpTo (q : TenantQuery) (tenant : Int) (rows : List TenantRow) : List LakeBar :=
  (best q (rows.filter fun r => decide (r.ts ≤ q.stop) && readable q tenant baseTimeframe r)).map TenantRow.bar

section Cuts

variable {session : ExchangeSession} {minutes : Nat} {exchange : String}

/-- A bucket ends at most one bar after each of its minutes begins, before the open and after the close too. -/
theorem bucketOf_sub_le (session : ExchangeSession) (positive : 0 < minutes) (t : Int) :
    bucketOf session minutes t - minutes * minuteUs ≤ t := by
  have period : 0 < (minutes : Int) * minuteUs := by unfold minuteUs; omega
  have reached := Int.ediv_mul_le (t - (dayStart (TriggerRules.istDay t) + session.opens)) period.ne'
  unfold bucketOf
  simp only [add_mul, one_mul]
  split <;> omega

theorem filter_filterMap_groupBar (p : Int → Bool) (buckets : Dict Int (List LakeBar)) :
    (buckets.filterMap fun e => groupBar minutes e.1 e.2).filter (fun b => p b.ts)
      = (buckets.filter fun e => p e.1).filterMap fun e => groupBar minutes e.1 e.2 := by
  induction buckets with
  | nil => rfl
  | cons e buckets ih =>
    cases made : groupBar minutes e.1 e.2 with
    | none => by_cases kept : p e.1 = true <;> simp [made, kept, ih]
    | some bar =>
      have labelled := groupBar_ts made
      by_cases kept : p e.1 = true <;> simp [made, kept, labelled, ih]

/-- Choosing among the bars by their ends is choosing among the minutes by their buckets. -/
theorem filter_resample_stops (p : Int → Bool) (bars : List LakeBar) (notBase : minutes ≠ 1) :
    (resample bars minutes exchange).filter (fun b => p b.ts)
      = resample (bars.filter fun b =>
          p (bucketOf (exchangeSessions (sessionFamily exchange)) minutes (b.ts - minuteUs))) minutes exchange := by
  have sorted := filter_sortBy (·.ts) (fun b : LakeBar =>
    p (bucketOf (exchangeSessions (sessionFamily exchange)) minutes (b.ts - minuteUs))) bars
  unfold resample sortBars
  rw [if_neg notBase, if_neg notBase]
  simp only
  rw [filter_filterMap_groupBar, filter_sortBy Prod.fst (fun e : Int × List LakeBar => p e.1), ← sorted,
    Dict.filter_groupBy_keys]

/-- Minutes more than one bar before a window add nothing to the bars that end in it. -/
theorem cut_resample (positive : 0 < minutes) (w : Window) (bars : List LakeBar) :
    w.cut (resample (bars.filter fun b => w.start - minutes * minuteUs < b.ts) minutes exchange)
      = w.cut (resample bars minutes exchange) := by
  by_cases base : minutes = 1
  · subst base
    unfold Window.cut resample sortBars
    rw [if_pos rfl, if_pos rfl, filter_sortBy, filter_sortBy, List.filter_filter]
    congr 1
    apply List.filter_congr
    intro b _
    by_cases inside : w.Holds b.ts
    · have early : w.start - minuteUs < b.ts := by
        have := inside.1
        unfold minuteUs
        omega
      simp [inside, early]
    · simp [inside]
  · unfold Window.cut
    rw [filter_resample_stops (fun t => decide (w.Holds t)) _ base,
      filter_resample_stops (fun t => decide (w.Holds t)) _ base, List.filter_filter]
    congr 1
    apply List.filter_congr
    intro b _
    have reach := bucketOf_sub_le (exchangeSessions (sessionFamily exchange)) positive (b.ts - minuteUs)
    by_cases inside : w.Holds (bucketOf (exchangeSessions (sessionFamily exchange)) minutes (b.ts - minuteUs))
    · have early : w.start - minutes * minuteUs < b.ts := by
        have := inside.1
        unfold minuteUs at *
        omega
      simp [inside, early]
    · simp [inside]

end Cuts

section Reads

variable {q : TenantQuery} {rows : List TenantRow} {tenant : Int} {minutes : Nat}

/-- The rows of a window are the rows of all time, cut. -/
theorem filter_best (q : TenantQuery) (p : Int → Bool) (rows : List TenantRow) :
    (best q rows).filter (fun r => p r.ts) = best q (rows.filter fun r => p r.ts) := by
  unfold best
  rw [filter_sortBy, filter_leastByKey]

/-- The early rows of a read are those of the history that a bar before the window leaves. -/
theorem base_eq (q : TenantQuery) (tenant start : Int) (rows : List TenantRow) :
    (rowsAsOf q tenant baseTimeframe start q.stop rows).map TenantRow.bar
      = (historyUpTo q tenant rows).filter fun b => start < b.ts := by
  unfold rowsAsOf historyUpTo
  have cut := filter_best q (fun t => decide (start < t))
    (rows.filter fun r => decide (r.ts ≤ q.stop) && readable q tenant baseTimeframe r)
  rw [List.filter_map]
  have same : ((fun b : LakeBar => decide (start < b.ts)) ∘ TenantRow.bar) = fun r => decide (start < r.ts) := rfl
  rw [same, cut, List.filter_filter]
  congr 2
  apply List.filter_congr
  intro r _
  simp [Bool.and_assoc]

theorem resampleMinutes_pos {timeframe : String} (built : resampleMinutes timeframe = .ok minutes) : 0 < minutes := by
  unfold resampleMinutes at built
  split at built
  · split at built
    · rename_i allowed
      cases built
      unfold allowedMinutes at allowed
      simp at allowed
      omega
    · cases built
  · cases built

theorem adjustedView_unadjusted {adjusted : Bool} {kind : String} {dividends : Bool} {bars : List LakeBar}
    {actions : List CorporateAction} (unadjusted : adjusted = false ∨ Py.upper kind ∉ equityKinds) :
    adjustedView adjusted kind dividends bars actions = some bars := by
  unfold adjustedView
  rw [if_pos]
  rcases unadjusted with off | other
  · exact .inl (by simp [off])
  · exact .inr other

/-- An unadjusted read answers exactly when its tenant is known, its timeframe is built and its rows are not too many,
and then with the bars of the whole history that end in its window. -/
theorem candles_eq_cut (most : Nat) (dividends : Bool) (actions : List CorporateAction) (q : TenantQuery)
    (rows : List TenantRow) (bars : List LakeBar)
    (unadjusted : q.adjusted = false ∨ Py.upper q.kind ∉ equityKinds) :
    candles most dividends actions q rows = .ok bars ↔
      ∃ tenant minutes, requireTenant q.tenantId = .ok tenant ∧ resampleMinutes q.timeframe = .ok minutes ∧
        (countedRows q tenant (rawStart q minutes) rows).length ≤ most ∧
        bars = q.window.cut (resample (historyUpTo q tenant rows) minutes q.exchange) := by
  unfold candles
  cases known : requireTenant q.tenantId with
  | error e => simp [bind, Except.bind]
  | ok tenant =>
    cases built : resampleMinutes q.timeframe with
    | error e => simp [bind, Except.bind]
    | ok minutes =>
      have positive := resampleMinutes_pos built
      have cut := @cut_resample minutes q.exchange positive q.window (historyUpTo q tenant rows)
      have base := base_eq q tenant (rawStart q minutes) rows
      have early : (rowsAsOf q tenant baseTimeframe (rawStart q minutes) q.stop rows).map TenantRow.bar
          = (historyUpTo q tenant rows).filter fun b => q.window.start - minutes * minuteUs < b.ts := base
      simp only [bind, Except.bind, early, cut, adjustedView_unadjusted unadjusted]
      by_cases many : most < (countedRows q tenant (rawStart q minutes) rows).length
      · simp [many, throw, throwThe, MonadExceptOf.throw]
      · simp [many, pure, Except.pure, not_lt.mp many, eq_comm]

end Reads

/-- A stored minute that ends at a time of day, counted in minutes. -/
def minuteRow (minute : Int) (price : ℚ) : TenantRow :=
  { tenantId := 7, instrumentKey := "NSE_EQ|ABC", timeframe := "1m", ts := dayStart 100 + minute * minuteUs
    source := "file", version := 1, open_ := price, high := price, low := price, close := price
    volume := some 10, oi := none, ingestedAt := 0 }

/-- The minutes that end at 09:16, 09:18 and 09:22, with one from before the open. -/
def openingRows : List TenantRow := [minuteRow 550 99, minuteRow 556 100, minuteRow 558 102, minuteRow 562 101]

/-- Five-minute bars that end in the first five minutes of the session. -/
def openingQuery : TenantQuery :=
  { tenantId := some 7, instrumentKey := "NSE_EQ|ABC", timeframe := "5m", adjusted := false
    start := dayStart 100 + 555 * minuteUs, stop := dayStart 100 + 560 * minuteUs }

/-- The one bar of the window is the one the history up to its end holds. -/
theorem candles_eq_cut_opening :
    candles 1000 false [] openingQuery openingRows
      = .ok (openingQuery.window.cut (resample (historyUpTo openingQuery 7 openingRows) 5 "NSE")) ∧
    openingQuery.window.cut (resample (historyUpTo openingQuery 7 openingRows) 5 "NSE")
      = [{ instrumentKey := "NSE_EQ|ABC", timeframe := 5, ts := dayStart 100 + 560 * minuteUs
           open_ := 100, high := 102, low := 100, close := 102, volume := some 20, oi := none }] := by
  refine ⟨(candles_eq_cut 1000 false [] openingQuery openingRows _ (.inl rfl)).mpr ⟨7, 5, rfl, ?_, ?_, rfl⟩, ?_⟩
  · decide +kernel
  · decide +kernel
  · decide +kernel

end AdvanceTrading.MarketLake
