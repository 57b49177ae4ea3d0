import AdvanceTrading.Misc.PyText

/-!
# A user's own risk limits

Model of `app/risk_engine/by_default.py:49-297`: the bounds of a limit, the
stored settings with the change that waits, what is in force on a day, and what
a save changes at once or from the next day. The stored text is the JSON object
that is read from it; an entry of a dictionary is an optional value of its key.
Days are counted, as their ISO texts are in order.
-/

namespace AdvanceTrading.OwnLimits

/-- The keys of `BOUNDS`. -/
inductive Key where
  | dailyLossPct
  | maxCorrelatedRiskPct
  | maxOpenPositions
  | maxSectorPct
  | maxTradesPerDay
  | minRr
  | riskPerTradeAmount
  | riskPerTradePct
  deriving DecidableEq, Repr

/-- The keys as `sorted` lists them. -/
def Key.sorted : List Key :=
  [.dailyLossPct, .maxCorrelatedRiskPct, .maxOpenPositions, .maxSectorPct, .maxTradesPerDay, .minRr,
    .riskPerTradeAmount,
    .riskPerTradePct]

theorem Key.mem_sorted (key : Key) : key ∈ Key.sorted := by cases key <;> decide

def big : ℚ := 1000000000

/-- `BOUNDS`: every limit is at least 0. -/
def Key.high : Key → ℚ
  | .riskPerTradePct => 100
  | .riskPerTradeAmount => big
  | .dailyLossPct => 100
  | .maxTradesPerDay => big
  | .minRr => big
  | .maxSectorPct => 500
  | .maxCorrelatedRiskPct => 50
  | .maxOpenPositions => big

/-- `POSITIVE`. -/
def Key.positive : Key → Bool
  | .riskPerTradePct | .dailyLossPct => true
  | _ => false

/-- `INT_KEYS`. -/
def Key.whole : Key → Bool
  | .maxTradesPerDay | .maxOpenPositions => true
  | _ => false

/-- `NO_LIMIT_ZERO`. -/
def Key.noLimitZero : Key → Bool
  | .riskPerTradeAmount | .maxTradesPerDay | .maxSectorPct | .maxCorrelatedRiskPct | .maxOpenPositions => true
  | _ => false

/-- `LEGACY_DEFAULTS`. -/
def Key.legacyDefault : Key → ℚ
  | .riskPerTradePct => 1
  | .riskPerTradeAmount => 0
  | .dailyLossPct => 2
  | .maxTradesPerDay => 10
  | .minRr => 3 / 2
  | .maxSectorPct => 0
  | .maxCorrelatedRiskPct => 0
  | .maxOpenPositions => 0

/-- A value of the stored object: a number, or anything that is none (a text, a flag, NaN). -/
inductive Value where
  | number (x : ℚ)
  | other
  deriving DecidableEq, Repr

/-- `_valid`. -/
def valid (value : Option Value) (low high : ℚ) : Bool :=
  match value with
  | some (.number x) => low ≤ x ∧ x ≤ high
  | _ => false

/-- `in_bounds`. -/
def inBounds (key : Key) (value : Option Value) : Bool :=
  valid value 0 key.high &&
    match value with
    | some (.number x) => !key.positive || 0 < x
    | _ => false

/-- `int(raw)`. -/
def truncate (x : ℚ) : ℤ := if 0 ≤ x then ⌊x⌋ else ⌈x⌉

/-- `int(raw) if key in INT_KEYS else float(raw)`. -/
def Key.read (key : Key) (raw : ℚ) : ℚ := if key.whole then truncate raw else raw

/-- A change that waits: the values (`none` clears the key) and their day. -/
structure Pending where
  values : Key → Option (Option Value)
  start : Nat

/-- The stored settings: the values, the list `_set` where there is one, and what waits. -/
structure Stored where
  values : Key → Option Value := fun _ => none
  set_ : Option (List Key) := none
  pending : Option Pending := none

/-- `explicit_keys`. -/
def explicitKeys (t : Stored) (key : Key) : Bool :=
  match t.set_ with
  | some marker => key ∈ marker
  | none => valid (t.values key) 0 key.high && decide (t.values key ≠ some (.number key.legacyDefault))

/-- `RiskSettings`, a limit a key. -/
abbrev RiskSettings := Key → ℚ

/-- The turn of `from_values` for a key: a value the user set within its bounds, over "off". -/
def readValue (key : Key) (value : Option Value) (explicit : Bool) : ℚ :=
  match value with
  | some (.number x) => if explicit && valid (some (.number x)) 0 key.high then key.read x else 0
  | _ => 0

/-- `RiskSettings.from_values`. -/
def fromValues (values : Key → Option Value) (explicit : Key → Bool) : RiskSettings := fun key =>
  readValue key (values key) (explicit key)

/-- `_on`: the values, and whether the user set them, with the waiting change folded in once its day has come. -/
def on_ (t : Stored) (day : Nat) (key : Key) : Option Value × Bool :=
  match (t.pending.filter fun p => p.start ≤ day).bind fun p => p.values key with
  | none => (t.values key, explicitKeys t key)
  | some none => (none, false)
  | some (some value) => (some value, true)

/-- `settings_on`. -/
def settingsOn (t : Stored) (day : Nat) : RiskSettings :=
  fromValues (fun key => (on_ t day key).1) fun key => (on_ t day key).2

theorem settingsOn_eq (t : Stored) (day : Nat) (key : Key) :
    settingsOn t day key = readValue key (on_ t day key).1 (on_ t day key).2 := rfl

/-- `is_on`. -/
def isOn (value : ℚ) : Bool := 0 < value

/-- `loosens`. -/
def loosens (key : Key) (old new : ℚ) : Bool :=
  if key.noLimitZero then
    if new = old then false
    else if new = 0 then true
    else old ≠ 0 ∧ old < new
  else if key = .minRr then new < old
  else old < new

/-- What the loop of `plan_change` carries for a key. -/
structure Draft where
  current : ℚ
  explicit : Bool
  applied : Option (Option ℚ) := none
  deferred : Option (Option Value)
  deriving DecidableEq

/-- The values of a save: a key that is not named, a number, or `none` to clear it. -/
abbrev Change := Key → Option (Option ℚ)

/-- The waiting value of a key, after `today`. -/
def waiting (t : Stored) (today : Nat) (key : Key) : Option (Option Value) :=
  (t.pending.filter fun p => today < p.start).bind fun p => p.values key

/-- The draft before the loop. -/
def draft (t : Stored) (today : Nat) (key : Key) : Draft where
  current := settingsOn t today key
  explicit := (on_ t today key).2 && inBounds key (on_ t today key).1
  deferred := waiting t today key

/-- A turn of the loop. -/
def planKey (key : Key) (raw : Option ℚ) (d : Draft) : Draft :=
  match raw with
  | none =>
      if d.explicit && isOn d.current then { d with deferred := some none }
      else { current := 0, explicit := false, applied := some none, deferred := none }
  | some raw =>
      let new := key.read raw
      if d.explicit && loosens key d.current new then { d with deferred := some (some (.number new)) }
      else { current := new, explicit := true, applied := some (some new), deferred := none }

/-- The draft after the loop. -/
def planned (t : Stored) (change : Change) (today : Nat) (key : Key) : Draft :=
  match change key with
  | none => draft t today key
  | some raw => planKey key raw (draft t today key)

/-- What `plan_change` returns. -/
structure Plan where
  stored : Stored
  applied : Change
  deferred : Key → Option (Option Value)
  start : Nat

/-- `plan_change`. -/
def planChange (t : Stored) (change : Change) (today : Nat) : Plan :=
  let d := planned t change today
  let deferred := fun key => (d key).deferred
  { stored := {
      values := fun key => if (d key).explicit then some (.number (d key).current) else none
      set_ := some (Key.sorted.filter fun key => (d key).explicit)
      pending := if Key.sorted.any fun key =>
        (deferred key).isSome then some { values := deferred, start := today + 1 } else none }
    applied := fun key => (d key).applied
    deferred
    start := today + 1 }

/-- The ceilings an admin set. -/
structure Ceilings where
  riskPerTradePct : Option ℚ := none
  maxDailyLossPct : Option ℚ := none

/-- What is wrong with a value, by the key its text names. -/
inductive SettingError where
  | outOfBounds (key : Key)
  | aboveCeiling (key : Key) (ceiling : ℚ)
  deriving DecidableEq, Repr

/-- A number above the ceiling of its key. -/
def aboveCeiling (key : Key) (change : Change) (ceiling : Option ℚ) : List SettingError :=
  match change key, ceiling with
  | some (some raw), some ceiling => if ceiling < raw then [.aboveCeiling key ceiling] else []
  | _, _ => []

/-- `validate_settings`. -/
def validateSettings (change : Change) (ceilings : Ceilings) : List SettingError :=
  (Key.sorted.filterMap fun key =>
      match change key with
      | some (some raw) => if inBounds key (some (.number raw)) then none else some (.outOfBounds key)
      | _ => none) ++
    aboveCeiling .riskPerTradePct change ceilings.riskPerTradePct ++
    aboveCeiling .dailyLossPct change ceilings.maxDailyLossPct

/-- A save: its day, its values and the ceilings of the day. -/
structure Save where
  day : Nat
  change : Change
  ceilings : Ceilings := {}

/-- `validate_settings` finds nothing wrong. -/
def Save.Accepted (s : Save) : Prop := validateSettings s.change s.ceilings = []

/-- The stored settings after saves. -/
def saveAll (t : Stored) (saves : List Save) : Stored :=
  saves.foldl (fun t s => (planChange t s.change s.day).stored) t

end AdvanceTrading.OwnLimits
