import AdvanceTrading.Misc.PyText
import AdvanceTrading.Trading.TriggerRules

/-!
# Exchange sessions

Model of `app/market_data/calendar.py:29-71` and of the session clock of
`app/market_data/bar_builder.py:43-71`. Times of day and instants are
microseconds, instants counted from the epoch in UTC. Only the opening hours of
a session are kept: the holiday calendars and cut-offs decide nothing here.
-/

namespace AdvanceTrading.MarketData

open TriggerRules (minuteUs dayUs istOffset istDay)

/-- `ExchangeSession`: the regular hours of one exchange family, as IST times of day. -/
structure ExchangeSession where
  opens : Int
  close : Int
  deriving DecidableEq, Repr

/-- The keys of `EXCHANGE_SESSIONS`. -/
inductive Family where
  | nse
  | mcx
  | cds
  | crypto
  deriving DecidableEq, Repr

/-- `EXCHANGE_SESSIONS`. The session of crypto closes a second before midnight. -/
def exchangeSessions : Family → ExchangeSession
  | .nse => { opens := (9 * 60 + 15) * minuteUs, close := (15 * 60 + 30) * minuteUs }
  | .mcx => { opens := 9 * 60 * minuteUs, close := (23 * 60 + 30) * minuteUs }
  | .cds => { opens := 9 * 60 * minuteUs, close := 17 * 60 * minuteUs }
  | .crypto => { opens := 0, close := (23 * 60 + 59) * minuteUs + 59 * 1000000 }

/-- `session_family`, with the aliases that do not lead to NSE. -/
def sessionFamily (exchange : String) : Family :=
  match Py.upper exchange with
  | "MCX" | "MCX_FO" => .mcx
  | "CDS" | "NSE_CD" | "BCD" | "BSE_CD" => .cds
  | "CRYPTO" | "BINANCE" | "COINDCX" | "WAZIRX" => .crypto
  | _ => .nse

/-- `exchange_of` (`bar_builder.py:58-61`). -/
def exchangeOf (key : String) : String :=
  let head :=
    if ':' ∈ key.toList then Py.upper (String.ofList (key.toList.takeWhile (· ≠ ':'))) else "NSE"
  if "_INDEX".toList.isSuffixOf head.toList then String.ofList (head.toList.takeWhile (· ≠ '_'))
  else head

/-- The session of a key's exchange family. -/
def sessionOf (key : String) : ExchangeSession := exchangeSessions (sessionFamily (exchangeOf key))

/-- The instant an IST day begins. -/
def dayStart (day : Int) : Int := day * dayUs - istOffset

/-- The IST time of day of an instant. -/
def timeOfDay (t : Int) : Int := t - dayStart (istDay t)

/-- `session_bounds` (`bar_builder.py:64-69`): open and close of the session of the IST day holding
`t`, for the exchange family of `key`. -/
def sessionBounds (key : String) (t : Int) : Int × Int :=
  (dayStart (istDay t) + (sessionOf key).opens, dayStart (istDay t) + (sessionOf key).close)

theorem timeOfDay_nonneg (t : Int) : 0 ≤ timeOfDay t := by
  unfold timeOfDay dayStart istDay dayUs minuteUs
  omega

theorem dayStart_add_timeOfDay (t : Int) : dayStart (istDay t) + timeOfDay t = t := by
  unfold timeOfDay
  omega

theorem istDay_mono {s t : Int} (le : s ≤ t) : istDay s ≤ istDay t := by
  unfold istDay dayUs minuteUs
  omega

end AdvanceTrading.MarketData
