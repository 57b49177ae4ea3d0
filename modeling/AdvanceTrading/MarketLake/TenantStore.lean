import AdvanceTrading.Misc.Dict
import AdvanceTrading.MarketData.Calendar
import Mathlib.Data.Rat.Defs
import Mathlib.Algebra.Order.Ring.Rat

/-!
# Resampling one-minute bars

Model of `app/market_lake/tenant_store.py:84-126` (`_volume_sum`, `resample`).
Bars carry their end. A bucket is counted from the session open of its bar's
own IST day, and the last bucket of a session is capped at the close.
-/

namespace AdvanceTrading.MarketLake

open TriggerRules (minuteUs dayUs istDay)
open MarketData

/-- `LakeBar` (`ingest.py:46-55`). The timeframe is the number in the text `1m`, `5m` and so on. -/
structure LakeBar where
  instrumentKey : String
  timeframe : Nat
  ts : Int
  open_ : ℚ
  high : ℚ
  low : ℚ
  close : ℚ
  volume : Option Int
  oi : Option Int
  deriving DecidableEq, Repr

/-- `_volume_sum`: no partial sum. -/
def volumeSum (group : List LakeBar) : Option Int :=
  if group.any (·.volume.isNone) then none else some ((group.map fun b => b.volume.getD 0).sum)

/-- The bucket end of a minute that starts at `start` (`resample`, the body of the first loop). -/
def bucketOf (session : ExchangeSession) (minutes : Nat) (start : Int) : Int :=
  let period := (minutes : Int) * minuteUs
  let opens := dayStart (istDay start) + session.opens
  let close := dayStart (istDay start) + session.close
  let stop := opens + ((start - opens) / period + 1) * period
  if opens ≤ start ∧ start < close then min stop close else stop

/-- The bar of one bucket (`resample`, the body of the second loop). -/
def groupBar (minutes : Nat) (stop : Int) : List LakeBar → Option LakeBar
  | [] => none
  | first :: rest =>
      some
        { instrumentKey := first.instrumentKey
          timeframe := minutes
          ts := stop
          open_ := first.open_
          high := (rest.map (·.high)).foldl max first.high
          low := (rest.map (·.low)).foldl min first.low
          close := ((first :: rest).getLast (by simp)).close
          volume := volumeSum (first :: rest)
          oi := (first :: rest).reverse.findSome? (·.oi) }

/-- `sorted(bars, key=lambda b: b.ts)`. -/
def sortBars (bars : List LakeBar) : List LakeBar := sortBy (·.ts) bars

/-- `resample`. -/
def resample (bars : List LakeBar) (minutes : Nat) (exchange : String) : List LakeBar :=
  if minutes = 1 then sortBars bars
  else
    let session := exchangeSessions (sessionFamily exchange)
    let buckets := Dict.groupBy (fun b => bucketOf session minutes (b.ts - minuteUs)) (sortBars bars)
    (sortBy Prod.fst buckets).filterMap fun e => groupBar minutes e.1 e.2

section Batches

variable {minutes : Nat} {exchange : String} {bars : List LakeBar}

theorem groupBar_ts {stop : Int} {group : List LakeBar} {bar : LakeBar}
    (made : groupBar minutes stop group = some bar) : bar.ts = stop := by
  cases group with
  | nil => cases made
  | cons first rest =>
    cases made
    rfl

end Batches

end AdvanceTrading.MarketLake
