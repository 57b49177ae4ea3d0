import AdvanceTrading.MarketLake.TenantStore

/-!
# Bars from the feed

Model of `app/market_data/bar_builder.py:43-202`: ticks become closed one-minute
bars. Instants are microseconds in UTC, prices exact rationals. The open bars of a key are a dictionary by their
start in the source; here they are the list of its values, each of which
carries its start. `forget` belongs to the universe refresh: `FeedVolumes` has
the builder's.
-/

namespace AdvanceTrading.MarketData

open TriggerRules (minuteUs istDay)
open MarketLake

/-- `minute_start`. -/
def minuteStart (ts : Int) : Int := ts - ts % minuteUs

/-- `FeedBar`: a lake bar built from the feed. -/
structure FeedBar extends LakeBar where
  volumeKnown : Bool
  deriving DecidableEq, Repr

/-- The start of a closed minute. -/
def FeedBar.start (bar : FeedBar) : Int := bar.ts - minuteUs

/-- `_Open`: a minute that is still being built. -/
structure OpenBar where
  start : Int
  open_ : ℚ
  high : ℚ
  low : ℚ
  close : ℚ
  vttFirst : Option Int
  vttLast : Option Int
  deriving DecidableEq, Repr

/-- `BuilderStats`. -/
structure BuilderStats where
  ticks : Nat := 0
  late : Nat := 0
  outsideSession : Nat := 0
  suppressed : Nat := 0
  bars : Nat := 0
  deriving DecidableEq, Repr

/-- `MinuteBarBuilder`; `grace` is `grace_seconds` as a duration. -/
structure MinuteBarBuilder where
  grace : Int
  stats : BuilderStats := {}
  opens : Dict String (List OpenBar) := []
  emittedUntil : Dict String Int := []
  emittedVtt : Dict String Int := []
  suppress : Dict String (List (Int × Int)) := []

/-- The open bar after one more tick of its minute (`bar_builder.py:152-156`). -/
def OpenBar.absorb (bar : OpenBar) (price : ℚ) (volumeTotal : Option Int) : OpenBar :=
  let priced := { bar with high := max bar.high price, low := min bar.low price, close := price }
  match volumeTotal with
  | none => priced
  | some v =>
      { priced with
        vttFirst := some (bar.vttFirst.elim v (min · v))
        vttLast := some (bar.vttLast.elim v (max · v)) }

/-- What `feed` decides about a tick once the due bars are closed. -/
inductive Verdict where
  | unpriced
  | late
  | outsideSession
  | suppressed
  | accepted (price : ℚ)
  deriving DecidableEq, Repr

namespace MinuteBarBuilder

/-- `self._open.get(key, {})`. -/
def opened (b : MinuteBarBuilder) (key : String) : List OpenBar := (Dict.get key b.opens).getD []

/-- `self._open[key] = bars`. -/
def setBars (b : MinuteBarBuilder) (key : String) (bars : List OpenBar) : MinuteBarBuilder :=
  { b with opens := Dict.set key bars b.opens }

/-- `_suppressed`. -/
def isSuppressed (b : MinuteBarBuilder) (key : String) (start : Int) : Bool :=
  ((Dict.get key b.suppress).getD []).any fun w => w.1 ≤ start && start < w.2

/-- `_volume`: the volume of a bar that is handed out, and the figure kept for the next one. -/
def volume (b : MinuteBarBuilder) (key : String) (bar : OpenBar) : Option Int × MinuteBarBuilder :=
  match bar.vttLast with
  | none => (none, b)
  | some last =>
      let base :=
        match Dict.get key b.emittedVtt with
        | none => bar.vttFirst.getD last
        -- the cumulative figure went back: a new day
        | some base => if last < base then 0 else base
      (some (max 0 (last - base)), { b with emittedVtt := Dict.set key last b.emittedVtt })

/-- One pass of the inner loop of `close_due`: the bar is popped and handed out. -/
def handOut (b : MinuteBarBuilder) (key : String) (bar : OpenBar) : FeedBar × MinuteBarBuilder :=
  let stop := bar.start + minuteUs
  let (volume, b) :=
    (b.setBars key ((b.opened key).filter fun o => o.start ≠ bar.start)).volume key bar
  ({ instrumentKey := key, timeframe := 1, ts := stop, open_ := bar.open_, high := bar.high,
     low := bar.low, close := bar.close, volume := some (volume.getD 0), oi := none,
     volumeKnown := volume.isSome },
   { b with
     emittedUntil := Dict.set key (max stop ((Dict.get key b.emittedUntil).getD stop)) b.emittedUntil
     stats := { b.stats with bars := b.stats.bars + 1 } })

/-- The inner loop of `close_due` over the sorted starts of a key. -/
def closeBars (now : Int) (key : String) :
    MinuteBarBuilder → List OpenBar → List FeedBar × MinuteBarBuilder
  | b, [] => ([], b)
  | b, bar :: bars =>
      if now < bar.start + minuteUs + b.grace then ([], b)
      else
        let (out, b) := b.handOut key bar
        let (rest, b) := closeBars now key b bars
        (out :: rest, b)

/-- The outer loop of `close_due` for one key. -/
def closeKey (b : MinuteBarBuilder) (now : Int) (key : String) : List FeedBar × MinuteBarBuilder :=
  if b.opened key = [] then ([], b)
  else
    let (out, b) := closeBars now key b (sortBy (·.start) (b.opened key))
    (out, if b.opened key = [] then { b with opens := Dict.pop key b.opens } else b)

/-- The outer loop of `close_due`. -/
def closeKeys (now : Int) : MinuteBarBuilder → List String → List FeedBar × MinuteBarBuilder
  | b, [] => ([], b)
  | b, key :: keys =>
      let (out, b) := b.closeKey now key
      let (rest, b) := closeKeys now b keys
      (out ++ rest, b)

/-- `close_due`; without keys it is about every key with an open bar. -/
def closeDue (b : MinuteBarBuilder) (now : Int) (keys : Option (List String)) :
    List FeedBar × MinuteBarBuilder :=
  b.closeKeys now (keys.getD (Dict.keys b.opens))

/-- The checks of `feed` (`bar_builder.py:138-150`), in their order. -/
def verdict (b : MinuteBarBuilder) (key : String) (start : Int) (price : Option ℚ) (now : Int) :
    Verdict :=
  match price with
  | none => .unpriced
  | some price =>
      if ¬ 0 < price then .unpriced
      else if ((Dict.get key b.emittedUntil).any fun u => start + minuteUs ≤ u) then .late
      -- its minute ended beyond the grace window: never built late
      else if start + minuteUs + b.grace ≤ now then .late
      else if start < (sessionBounds key start).1 then .outsideSession
      else if b.isSuppressed key start then .suppressed
      else .accepted price

/-- An accepted tick goes into the open bar of its minute, or opens it. -/
def build (b : MinuteBarBuilder) (key : String) (start : Int) (price : ℚ)
    (volumeTotal : Option Int) : MinuteBarBuilder :=
  let bars := b.opened key
  b.setBars key
    (if bars.any (·.start = start) then
      bars.map fun o => if o.start = start then o.absorb price volumeTotal else o
    else
      bars ++ [{ start, open_ := price, high := price, low := price, close := price,
                 vttFirst := volumeTotal, vttLast := volumeTotal }])

/-- The builder after a tick with this verdict. -/
def settle (b : MinuteBarBuilder) (key : String) (start : Int) (volumeTotal : Option Int) :
    Verdict → MinuteBarBuilder
  | .unpriced => b
  | .late => { b with stats := { b.stats with late := b.stats.late + 1 } }
  | .outsideSession =>
      { b with stats := { b.stats with outsideSession := b.stats.outsideSession + 1 } }
  | .suppressed => { b with stats := { b.stats with suppressed := b.stats.suppressed + 1 } }
  | .accepted price => b.build key start price volumeTotal

/-- The due bars of the key, closed before the tick is looked at (`bar_builder.py:135-137`). -/
def beforeTick (b : MinuteBarBuilder) (key : String) (now : Int) : List FeedBar × MinuteBarBuilder :=
  { b with stats := { b.stats with ticks := b.stats.ticks + 1 } }.closeDue now (some [key])

/-- `feed`. -/
def feed (b : MinuteBarBuilder) (key : String) (ts : Int) (price : Option ℚ) (now : Int)
    (volumeTotal : Option Int) : List FeedBar × MinuteBarBuilder :=
  let (closed, b) := b.beforeTick key now
  (closed, b.settle key (minuteStart ts) volumeTotal (b.verdict key (minuteStart ts) price now))

/-- The windows of a key once `[start, stop)` is suppressed too (`bar_builder.py:199-201`, and
`taint`): the same start replaces, and a window two hours older goes. -/
def addWindow (windows : List (Int × Int)) (start stop : Int) : List (Int × Int) :=
  (windows.filter fun w => w.1 ≠ start && start - 120 * minuteUs < w.2) ++ [(start, stop)]

/-- The loop body of `suppress`, and how many open bars it dropped. -/
def suppressKey (b : MinuteBarBuilder) (start stop : Int) (key : String) : Nat × MinuteBarBuilder :=
  let bars := b.opened key
  let kept := bars.filter fun o => ¬ (start ≤ o.start ∧ o.start < stop)
  (bars.length - kept.length,
   { b with
     suppress := Dict.set key (addWindow ((Dict.get key b.suppress).getD []) start stop) b.suppress
     opens := if (Dict.get key b.opens).isSome then Dict.set key kept b.opens else b.opens })

/-- The loop of `suppress`. -/
def suppressKeys (start stop : Int) :
    MinuteBarBuilder → List String → Nat × MinuteBarBuilder
  | b, [] => (0, b)
  | b, key :: keys =>
      let (dropped, b) := b.suppressKey start stop key
      let (rest, b) := suppressKeys start stop b keys
      (dropped + rest, b)

/-- `suppress`. -/
def suppressed (b : MinuteBarBuilder) (keys : List String) (start stop : Int) :
    Nat × MinuteBarBuilder :=
  b.suppressKeys (minuteStart start) stop keys

end MinuteBarBuilder

end AdvanceTrading.MarketData
