import AdvanceTrading.Misc.Processes
import AdvanceTrading.Misc.PyText
import AdvanceTrading.Misc.Folds
import AdvanceTrading.Trading.TriggerRules
import Mathlib.Data.List.Dedup

/-!
# Combined exits

Model of `app/execution/group_exits.py`: one stop-loss and / or target over a
group of positions, its trailing stop, and the user's edit and cancel. The frozen
legs stand with their trade ids only (the value of the group's measure is given
to the functions below); the log and the stale-price record, which no decision
reads, are left out. Amounts are rationals, instants microseconds in UTC.
-/

namespace AdvanceTrading.GroupExits

open TriggerRules (Side)

/-- ARMED, then FIRING exactly once, then DONE; or CANCELLED. -/
inductive Status where
  | armed
  | firing
  | done
  | cancelled
  deriving DecidableEq, Repr

inductive Measure where
  | mtmInr
  | netPremium
  | spot
  deriving DecidableEq, Repr

inductive CheckMode where
  | touch
  | close
  deriving DecidableEq, Repr

inductive TrailKind where
  | none
  | trail
  | lock
  | lockTrail
  | breakEven
  deriving DecidableEq, Repr

/-- Which level a reading reached. -/
inductive Fired where
  | sl
  | target
  deriving DecidableEq, Repr

/-- `LOCKING`: a stop that appears once a gain is reached. -/
def TrailKind.locking : TrailKind → Bool
  | .lock | .lockTrail | .breakEven => true
  | .none | .trail => false

/-- The object of `trail_json`: the user's numbers (`shift` is the source's `by`) and the
candle-close bookmark. -/
structure TrailSpec where
  after : Option ℚ := none
  lock : Option ℚ := none
  step : Option ℚ := none
  shift : Option ℚ := none
  seen : Option Int := none
  deriving DecidableEq

/-- The user's numbers alone. -/
def TrailSpec.numbers (spec : TrailSpec) : TrailSpec := { spec with seen := none }

/-- What the functions below read and write of a `GroupExitRecord`. -/
structure GroupExit where
  status : Status := .armed
  version : Int := 1
  measure : Measure
  tradeIds : List Nat
  spotSymbol : Option String := none
  spotExchange : Option String := none
  slValue : Option ℚ := none
  slSide : Option Side := none
  targetValue : Option ℚ := none
  targetSide : Option Side := none
  basisValue : Option ℚ := none
  checkMode : CheckMode
  timeframeMinutes : Option Int := none
  trailKind : TrailKind := .none
  trailJson : Option TrailSpec := none
  bestValue : Option ℚ := none
  currentSl : Option ℚ := none
  lockedAt : Option Int := none
  lastValue : Option ℚ := none
  lastCheckedAt : Option Int := none
  firedKind : Option Fired := none
  firedAt : Option Int := none
  firedValue : Option ℚ := none
  passesFiring : Nat := 0
  createdAt : Int
  deriving DecidableEq

/-! ## Levels -/

/-- `side_for`. -/
def sideFor (level now : ℚ) : Side := if now < level then .above else .below

/-- `trail_spec`. -/
def trailSpec (row : GroupExit) : TrailSpec := row.trailJson.getD {}

/-- `trailing_on`. -/
def trailingOn (row : GroupExit) : Bool := row.trailKind != .none

/-- `favour`: the direction of a gain, away from the stop, else towards the target. -/
def favour (row : GroupExit) : ℚ :=
  match row.measure, row.slSide with
  | .mtmInr, _ => 1
  | _, some .below => 1
  | _, some .above => -1
  | _, none => if row.targetSide = some .above then 1 else -1

/-- `stop_side`. -/
def stopSide (row : GroupExit) : Option Side :=
  if row.measure = .mtmInr then none
  else some (row.slSide.getD (if 0 < favour row then .below else .above))

/-- `first_stop`: the stop as the user set it. -/
def firstStop (row : GroupExit) : Option ℚ :=
  row.slValue.map fun value => if row.measure = .mtmInr then -|value| else value

/-- `stop_now`: the trailed stop once it moved, else the user's own. -/
def stopNow (row : GroupExit) : Option ℚ := row.currentSl.or (firstStop row)

/-- `reference`: where the gain is counted from. -/
def reference (row : GroupExit) : Option ℚ :=
  if row.measure = .mtmInr then some 0 else row.basisValue

/-- `reached`. -/
def reached (level : Option ℚ) (side : Option Side) (value : ℚ) : Bool :=
  match level, side with
  | some level, some .above => decide (level ≤ value)
  | some level, some .below => decide (value ≤ level)
  | _, _ => false

/-- `decide`: the stop is judged before the target. -/
def judge (row : GroupExit) (value : ℚ) : Option Fired :=
  if row.measure = .mtmInr then
    if (stopNow row).any (value ≤ ·) then some .sl
    else if row.targetValue.any (|·| ≤ value) then some .target
    else none
  else if reached (stopNow row) (stopSide row) value then some .sl
  else if reached row.targetValue row.targetSide value then some .target
  else none

/-! ## Trailing -/

/-- `better`: the more favourable of two stops. -/
def better (a b : Option ℚ) (fav : ℚ) : Option ℚ :=
  match a, b with
  | none, b => b
  | a, none => a
  | some a, some b => some (if 0 < fav then max a b else min a b)

/-- `trailed_stop`: the stop the trailing asks for after the best reading. -/
def trailedStop (row : GroupExit) (best : ℚ) : Option ℚ :=
  let spec := trailSpec row
  let fav := favour row
  match reference row with
  | none => none
  | some ref =>
      let gain := (best - ref) * fav
      match row.trailKind with
      | .none => none
      | .breakEven =>
          match spec.after with
          | some after => if gain < after then none else some (Py.roundTo 4 ref)
          | none => none
      | .lock =>
          match spec.after, spec.lock with
          | some after, some keep =>
              if gain < after then none else some (Py.roundTo 4 (ref + fav * keep))
          | _, _ => none
      | .lockTrail =>
          match spec.after, spec.lock with
          | some after, some keep =>
              if gain < after then none
              else
                let moved := match spec.step, spec.shift with
                  | some step, some shift => if 0 < step then ⌊(gain - after) / step⌋ * shift else 0
                  | _, _ => 0
                some (Py.roundTo 4 (ref + fav * (keep + moved)))
          | _, _ => none
      | .trail =>
          match spec.step, spec.shift, firstStop row with
          | some step, some shift, some first =>
              if step ≤ 0 ∨ gain < step then none
              else some (Py.roundTo 4 (first + fav * ⌊gain / step⌋ * shift))
          | _, _, _ => none

/-- `apply_trail`: keeps the best reading, and moves the stop when the trailing asks for a more
favourable one. -/
def applyTrail (row : GroupExit) (value : ℚ) (now : Int) : GroupExit :=
  if trailingOn row then
    let fav := favour row
    let kept := { row with bestValue := better row.bestValue (some value) fav }
    match kept.bestValue.bind (trailedStop kept), stopNow row with
    | none, _ => kept
    | some wanted, held =>
        if held.isSome ∧ better held (some wanted) fav = held then kept
        else
          { kept with
            currentSl := some wanted
            lockedAt := if row.trailKind.locking && row.lockedAt.isNone then some now else row.lockedAt }
  else row

/-- `trail_seen`. -/
def trailSeen (row : GroupExit) : Option Int := (trailSpec row).seen

/-- `mark_seen`. -/
def markSeen (row : GroupExit) (stop : Int) : GroupExit :=
  { row with trailJson := some { trailSpec row with seen := some stop } }

/-- `trail_json_of`: only the keys of its kind. -/
def trailJsonOf (kind : TrailKind) (spec : TrailSpec) : Option TrailSpec :=
  match kind with
  | .lock => some { after := spec.after, lock := spec.lock }
  | .trail => some { step := spec.step, shift := spec.shift }
  | .lockTrail =>
      some { after := spec.after, lock := spec.lock, step := spec.step, shift := spec.shift }
  | .breakEven => some { after := spec.after }
  | .none => none

/-! ## What the user asked for -/

/-- The text where the condition holds. -/
def sayWhen (condition : Prop) [Decidable condition] (text : String) : List String :=
  if condition then [text] else []

/-- The checks a step and a shift share. -/
def shiftErrors (spec : TrailSpec) (needsStep : String) : List String :=
  sayWhen (spec.step.all (· ≤ 0)) needsStep ++
    sayWhen (spec.shift.all (· ≤ 0)) "Enter how far the stop shifts each time (more than zero)" ++
    sayWhen (∃ step ∈ spec.step, ∃ shift ∈ spec.shift, 0 < step ∧ step < shift)
      "The stop cannot shift further than the move itself"

/-- `trail_errors` of a LOCK. -/
def lockErrors (spec : TrailSpec) : List String :=
  sayWhen (spec.after.all (· ≤ 0)) "Enter the gain after which the stop moves (more than zero)" ++
    sayWhen (spec.lock.all (· < 0)) "Enter how much of the gain to keep (zero or more)" ++
    sayWhen (∃ after ∈ spec.after, ∃ keep ∈ spec.lock, 0 < after ∧ after ≤ keep)
      "The gain kept must be less than the gain that moves the stop"

/-- `trail_errors`. -/
def trailErrors (kind : TrailKind) (spec : TrailSpec) (slValue : Option ℚ) : List String :=
  match kind with
  | .none => []
  | .breakEven =>
      sayWhen (spec.after.all (· ≤ 0))
        "Enter the gain after which the stop moves to break-even (more than zero)"
  | .lockTrail =>
      lockErrors spec ++ shiftErrors spec "Enter the further move that shifts the stop (more than zero)"
  | .lock => lockErrors spec
  | .trail =>
      sayWhen (slValue = none) "A trailing stop needs a stop-loss to start from" ++
        shiftErrors spec "Enter the move that shifts the stop (more than zero)"

/-- PAPER or LIVE. -/
inductive Mode where
  | paper
  | live
  deriving DecidableEq, Repr

/-- What the checks read of a ticked position. -/
structure Ticked where
  mode : Mode
  underlying : String := ""
  closed : Bool := false

/-- `GroupExitAsk`, as `edit` builds it. -/
structure Ask where
  tradeIds : List Nat
  measure : Measure
  slValue : Option ℚ
  targetValue : Option ℚ
  spotSymbol : Option String
  spotExchange : Option String
  checkMode : Option CheckMode
  timeframeMinutes : Option Int
  trailKind : TrailKind
  trail : TrailSpec

/-- `CHECK_NEEDED`. -/
def checkNeeded : String :=
  "Needs your setting: Combined exit checked - choose when the spot level counts as reached (every " ++
    "price, or a closed candle), here or in Settings › Trade settings › Exits"

/-- `ask_errors`. The measure, the check and the scope are of their kinds by type. -/
def askErrors (ask : Ask) (trades : List Ticked) : List String :=
  let bare := ask.slValue = none ∧ ask.targetValue = none
  sayWhen (bare ∧ ¬ ask.trailKind.locking) "Enter a stop-loss, a target, or both" ++
    sayWhen (ask.measure ≠ .mtmInr ∧ bare ∧ ask.trailKind.locking)
      ("A spot or premium lock needs a stop-loss or a target too, so the exit knows which way is " ++
        "yours") ++
    trailErrors ask.trailKind ask.trail ask.slValue ++
    sayWhen (∃ value ∈ ask.slValue, value ≤ 0) "The stop-loss must be more than zero" ++
    sayWhen (∃ value ∈ ask.targetValue, value ≤ 0) "The target must be more than zero" ++
    sayWhen (ask.tradeIds = []) "Tick at least one open position" ++
    sayWhen (trades.length ≠ ask.tradeIds.dedup.length)
      "Some of the ticked positions are not your open positions any more" ++
    sayWhen (trades.any (·.closed)) "A ticked position is already closed" ++
    sayWhen (1 < (trades.map (·.mode)).dedup.length)
      "PAPER and LIVE positions cannot share one combined exit" ++
    sayWhen (ask.measure = .spot ∧
        ¬ (ask.spotSymbol.any (· ≠ "") ∧ ask.spotExchange.any (· ≠ "")))
      "Choose the underlying whose spot level the exit watches" ++
    sayWhen (ask.measure ≠ .mtmInr ∧ 1 < (trades.map (·.underlying)).dedup.length)
      ("A spot or net-premium exit needs positions on one underlying; use the ₹ profit / loss for " ++
        "a mix") ++
    sayWhen (ask.checkMode = none ∧ ask.measure = .spot) checkNeeded ++
    sayWhen (ask.checkMode = none ∧ ask.measure ≠ .spot)
      "Check on every price or on a closed candle" ++
    sayWhen (ask.checkMode = some .close ∧ ask.measure ≠ .spot)
      ("A closed-candle check works on the spot level today; use every price for ₹ or premium") ++
    sayWhen (ask.checkMode = some .close ∧ ask.timeframeMinutes.all (· ≤ 0))
      "Choose the candle timeframe for the closed-candle check"

/-! ## Setting an exit -/

/-- `resolve_check_mode`: the ask's own check, else the user's setting. -/
def resolveCheckMode (ask : Ask) (saved : Option CheckMode) : Ask :=
  if ask.checkMode = none then { ask with checkMode := if ask.measure ≠ .spot then some .touch else saved } else ask

/-- The checks of a level against the value it is set at. -/
def atValueErrors (slValue targetValue : Option ℚ) (value : ℚ) : List String :=
  sayWhen (slValue = some value) "The stop-loss equals the value now - it would fire at once" ++
    sayWhen (targetValue = some value) "The target equals the value now - it would fire at once"

/-- The checks of `create`. -/
def createErrors (ask : Ask) (trades : List Ticked) (nowValue : Option ℚ) : List String :=
  askErrors ask trades ++
    if ask.measure = .mtmInr then []
    else
      match nowValue with
      | none => sayWhen (askErrors ask trades = []) "No live price for the group right now - try again in a moment"
      | some value => atValueErrors ask.slValue ask.targetValue value

/-- `create`, on a reference that is new: the exit as it is stored. -/
def create (ask : Ask) (trades : List Ticked) (saved : Option CheckMode) (nowValue : Option ℚ) (now : Int) :
    Except String GroupExit :=
  let ask := resolveCheckMode ask saved
  let errors := createErrors ask trades nowValue
  if errors ≠ [] then .error ("; ".intercalate errors)
  else
    match ask.checkMode with
    | none => .error checkNeeded
    | some mode =>
        let reading := if ask.measure = .mtmInr then none else nowValue
        .ok {
          measure := ask.measure
          tradeIds := ask.tradeIds
          spotSymbol := ask.spotSymbol.filter (· ≠ "")
          spotExchange := ask.spotExchange.filter (· ≠ "")
          slValue := ask.slValue
          slSide := reading.bind fun value => ask.slValue.map (sideFor · value)
          targetValue := ask.targetValue
          targetSide := reading.bind fun value => ask.targetValue.map (sideFor · value)
          basisValue := nowValue
          checkMode := mode
          timeframeMinutes := if mode = .close then ask.timeframeMinutes else none
          trailKind := ask.trailKind
          trailJson := trailJsonOf ask.trailKind ask.trail
          createdAt := now }

/-! ## The user's edit -/

/-- An edit; `trailing` is `none` where the user keeps the trailing as it is. -/
structure EditRequest where
  version : Int
  slValue : Option ℚ
  targetValue : Option ℚ
  checkMode : Option CheckMode := none
  timeframeMinutes : Option Int := none
  nowValue : Option ℚ := none
  trailing : Option (TrailKind × TrailSpec) := none

/-- The values of the edit's conditional update; `reading` is the value the sides are read from. -/
structure EditValues where
  slValue : Option ℚ
  targetValue : Option ℚ
  checkMode : CheckMode
  timeframeMinutes : Option Int
  trailKind : TrailKind
  trailJson : Option TrailSpec
  version : Int
  reading : Option ℚ

/-- The kind and numbers an edit asks for. -/
def EditRequest.asked (request : EditRequest) (row : GroupExit) : TrailKind × TrailSpec :=
  request.trailing.getD (row.trailKind, trailSpec row)

/-- The checks an edit makes beside its ask: the value now, and the levels against it. -/
def readingErrors (row : GroupExit) (request : EditRequest) : List String :=
  if row.measure = .mtmInr then []
  else
    match request.nowValue with
    | none => ["No live price for the group right now - try again in a moment"]
    | some value =>
        sayWhen (request.slValue = some value)
            "The stop-loss equals the value now - it would fire at once" ++
          sayWhen (request.targetValue = some value)
            "The target equals the value now - it would fire at once"

/-- The checks of an ask that an edit leaves out: the legs stay as set. -/
def aboutTicked (text : String) : Bool :=
  "Some of the ticked".toList.isPrefixOf text.toList ||
    "A ticked position is already closed".toList.isPrefixOf text.toList

/-- `edit` up to its update, on the row it read. -/
def edit (row : GroupExit) (trades : List Ticked) (request : EditRequest) : Except String EditValues :=
  if row.status = .firing then .error "Already exiting - the legs are being closed"
  else if row.status ≠ .armed then .error "This combined exit has ended - set a new one"
  else if row.version ≠ request.version then .error "Changed on another screen - reload and try again"
  else
    let mode := request.checkMode.getD row.checkMode
    let timeframe := request.timeframeMinutes.or row.timeframeMinutes
    let (kind, spec) := request.asked row
    let ask : Ask := {
      tradeIds := row.tradeIds, measure := row.measure, slValue := request.slValue,
      targetValue := request.targetValue, spotSymbol := row.spotSymbol,
      spotExchange := row.spotExchange, checkMode := some mode, timeframeMinutes := timeframe,
      trailKind := kind, trail := spec }
    let errors := (askErrors ask trades).filter (!aboutTicked ·) ++ readingErrors row request
    if errors ≠ [] then .error ("; ".intercalate errors)
    else
      .ok {
        slValue := request.slValue
        targetValue := request.targetValue
        checkMode := mode
        timeframeMinutes := if mode = .close then timeframe else none
        trailKind := kind
        trailJson := trailJsonOf kind spec
        version := row.version + 1
        reading := if row.measure = .mtmInr then none else request.nowValue }

/-- The columns the edit's update writes; the trailing starts again. -/
def EditValues.write (values : EditValues) (row : GroupExit) : GroupExit :=
  { row with
    slValue := values.slValue
    targetValue := values.targetValue
    checkMode := values.checkMode
    timeframeMinutes := values.timeframeMinutes
    currentSl := none
    bestValue := none
    lockedAt := none
    trailKind := values.trailKind
    trailJson := values.trailJson
    version := values.version
    basisValue := values.reading.or row.basisValue
    slSide := if let some value := values.reading then values.slValue.map (sideFor · value)
      else row.slSide
    targetSide := if let some value := values.reading then values.targetValue.map (sideFor · value)
      else row.targetSide }

end AdvanceTrading.GroupExits

/-!
# Passes over a combined exit

Model of `_group_reading`, `_trailed_close_reading`, `_save_trail`, `_claim_group`
and `run_group_exits` of `app/execution/trigger_engine.py`, together with the
user's `edit` and `cancel`, over one stored row: `n` processes, each an engine
pass or a user's request, in any order of their statements on the row. A pass
works on the row as it loaded it. Its writes are separate steps here, in any
order (the session flushes before the first update or at the commit); other
sessions see them together.
-/

namespace AdvanceTrading.GroupExits

open TriggerRules (Bar Candle Side)

/-! ## A pass's reading -/

/-- The loop of `_trailed_close_reading`: each candle closed since `start` is judged on the stop
before it, then may move the stop. -/
def readCandles (start : Int) (now : Int) : GroupExit → List (Candle ℚ) → GroupExit × Option Fired
  | row, [] => (row, none)
  | row, candle :: rest =>
      if candle.stop ≤ start then readCandles start now row rest
      else
        let row := markSeen row candle.stop
        if reached (stopNow row) (stopSide row) candle.close then (row, some .sl)
        else if reached row.targetValue row.targetSide candle.close then (row, some .target)
        else readCandles start now (applyTrail row candle.close now) rest

/-- `_trailed_close_reading`. -/
def trailedCloseReading (row : GroupExit) (closed : List (Candle ℚ)) (now : Int) :
    GroupExit × Option Fired :=
  readCandles ((trailSeen row).elim row.createdAt (max row.createdAt)) now row closed

/-- What a pass reads of the market: the bars of the spot symbol, and the value of the measure. -/
structure Reading where
  bars : Option (List (Bar ℚ)) := none
  value : Option ℚ := none

/-- The closed-candle check without trailing. -/
def closeReading (row : GroupExit) (bars : List (Bar ℚ)) (timeframe now : Int) :
    Except String (Option Fired) := do
  let crossed (level : Option ℚ) (side : Option Side) : Except String Bool :=
    match level, side with
    | some level, some side =>
        (TriggerRules.closeTrigger level side bars timeframe now (some row.createdAt)).map (·.isSome)
    | _, _ => .ok false
  if ← crossed (row.currentSl.or row.slValue) row.slSide then return some .sl
  if ← crossed row.targetValue row.targetSide then return some .target
  return none

/-- The last candle's close, kept as the last reading. -/
def keepLast (row : GroupExit) (closed : List (Candle ℚ)) (now : Int) : GroupExit :=
  match closed.getLast? with
  | some candle => { row with lastValue := some candle.close, lastCheckedAt := some now }
  | none => row

/-- `_group_reading`: the row the pass holds afterwards, and the level that was reached. -/
def groupReading (row : GroupExit) (reading : Reading) (now : Int) :
    Except String (GroupExit × Option Fired) :=
  match row.checkMode with
  | .close =>
      match reading.bars, row.timeframeMinutes with
      | some bars, some timeframe =>
          if timeframe = 0 ∨ ¬ (row.spotSymbol.any (· ≠ "") ∧ row.spotExchange.any (· ≠ "")) then
            .ok (row, none)
          else do
            let closed ← TriggerRules.closedCandles bars timeframe now
            let row := keepLast row closed now
            if trailingOn row then .ok (trailedCloseReading row closed now)
            else .ok (row, ← closeReading row bars timeframe now)
      | _, _ => .ok (row, none)
  | .touch =>
      match reading.value with
      | none => .ok (row, none)
      | some value =>
          let row := applyTrail { row with lastValue := some value, lastCheckedAt := some now } value now
          .ok (row, judge row value)

/-! ## A pass's writes -/

/-- The writes of a pass: `_save_trail`'s conditional updates, and the session's own flush. -/
inductive Write where
  | best
  | stop
  | locked
  | columns
  deriving DecidableEq, Repr

/-- The writes a pass has to make: what the trailing changed, and the flush. -/
def pending (loaded new : GroupExit) : List Write :=
  (if trailingOn new then
    (if new.bestValue.isSome ∧ new.bestValue ≠ loaded.bestValue then [.best] else []) ++
      (if new.currentSl.isSome ∧ new.currentSl ≠ loaded.currentSl then [.stop] else []) ++
      (if new.lockedAt.isSome ∧ loaded.lockedAt = none then [.locked] else [])
  else []) ++ [.columns]

/-- The stored value is not set, or `new` is ahead of it. -/
def ahead (fav : ℚ) (stored new : Option ℚ) : Bool :=
  match stored, new with
  | none, _ => true
  | some stored, some new => if 0 < fav then decide (stored < new) else decide (new < stored)
  | some _, none => false

/-- One write of a pass that loaded `loaded` and holds `new`. The flush writes the columns the pass
changed itself, whatever the row has become. -/
def Write.run (loaded new stored : GroupExit) : Write → GroupExit
  | .best =>
      if stored.status = .armed ∧ stored.version = loaded.version ∧
          ahead (favour new) stored.bestValue new.bestValue then
        { stored with bestValue := new.bestValue }
      else stored
  | .stop =>
      if stored.status = .armed ∧ stored.version = loaded.version ∧
          ahead (favour new) stored.currentSl new.currentSl then
        { stored with currentSl := new.currentSl }
      else stored
  | .locked =>
      if stored.version = loaded.version ∧ stored.lockedAt = none then
        { stored with lockedAt := new.lockedAt }
      else stored
  | .columns =>
      { stored with
        trailJson := flushed loaded.trailJson new.trailJson stored.trailJson
        lastValue := flushed loaded.lastValue new.lastValue stored.lastValue
        lastCheckedAt := flushed loaded.lastCheckedAt new.lastCheckedAt stored.lastCheckedAt }

/-! ## Processes -/

/-- Where a process stands with the row. -/
inductive Point where
  | idle
  /-- `run_group_exits` loaded the row ARMED. -/
  | loaded (row : GroupExit)
  /-- The row is judged, and these writes are to make before the commit. -/
  | saving (loaded new : GroupExit) (reached : Option Fired) (todo : List Write)
  /-- `_claim_group` is next. -/
  | claiming (row : GroupExit) (kind : Fired)
  /-- FIRING: the legs are being closed. -/
  | closing (row : GroupExit)
  /-- `edit`: its update is next. -/
  | editing (values : EditValues)
  /-- `cancel`: its update is next. -/
  | cancelling

/-- The next statement of a process. -/
inductive Action where
  | load
  | read (reading : Reading) (now : Int)
  | legsGone
  | write (column : Write)
  | commit
  | claim (now : Int)
  | legs (closed : Bool)
  | edit (trades : List Ticked) (request : EditRequest)
  | cancel
  | update
  | stop

/-- One statement of a process on the stored row. -/
def statement (stored : GroupExit) (point : Point) (action : Action) : Option (GroupExit × Point) :=
  match point, action with
  | .idle, .stop => none
  | _, .stop => some (stored, .idle)
  | .idle, .load =>
      match stored.status with
      | .armed => some (stored, .loaded stored)
      | .firing => some (stored, .closing stored)
      | _ => none
  | .loaded row, .read reading now =>
      match groupReading row reading now with
      | .ok (new, kind) => some (stored, .saving row new kind (pending row new))
      | .error _ => some (stored, .idle)
  | .loaded _, .legsGone => some ({ stored with status := .done }, .idle)
  | .saving loaded new kind todo, .write column =>
      if column ∈ todo then
        some (column.run loaded new stored, .saving loaded new kind (todo.erase column))
      else none
  | .saving _ new kind [], .commit =>
      match kind with
      | none => some (stored, .idle)
      | some kind => some (stored, .claiming new kind)
  | .claiming row kind, .claim now =>
      if stored.status = .armed ∧ stored.version = row.version then
        let fired := { stored with
          status := .firing, firedKind := some kind, firedAt := some now,
          firedValue := row.lastValue, passesFiring := 0 }
        some (fired, .closing fired)
      else some (stored, .idle)
  | .closing row, .legs closed =>
      if closed then
        some ({ stored with status := flushed row.status .done stored.status }, .idle)
      else
        some ({ stored with
          passesFiring := flushed row.passesFiring (row.passesFiring + 1) stored.passesFiring }, .idle)
  | .idle, .edit trades request =>
      match edit stored trades request with
      | .ok values => some (stored, .editing values)
      | .error _ => some (stored, .idle)
  | .editing values, .update =>
      -- the version the edit read, and one more is what it writes
      if stored.status = .armed ∧ stored.version + 1 = values.version then
        some (values.write stored, .idle)
      else some (stored, .idle)
  | .idle, .cancel => if stored.status = .armed then some (stored, .cancelling) else none
  | .cancelling, .update =>
      if stored.status = .armed then some ({ stored with status := .cancelled }, .idle)
      else some (stored, .idle)
  | _, _ => none

/-- The passes and requests on one row; nothing else writes it. -/
def passes (n : Nat) : Machine (Procs GroupExit Point n) (ProcEvent n Action Empty) :=
  Procs.interleave statement (fun _ event => event.elim) n

end AdvanceTrading.GroupExits
