import AdvanceTrading.Instruments.StructurePlan
import AdvanceTrading.Misc.Rounding
import AdvanceTrading.RiskEngine.LossStreak
import AdvanceTrading.RiskEngine.OwnLimits

/-!
# The check and the size of an entry

Model of `RiskManager` (`app/risk_engine/risk_manager.py:15-184`) with the limits
it reads off `RiskConfig` (`app/core/models.py:110-178`) and the texts of its
refusals (`app/risk_engine/risk_limits.py:224-268`). Instants are microseconds,
in UTC where the source finds no zone; how `format` writes a number is a
parameter.
-/

namespace AdvanceTrading.RiskManager

open AdvanceTrading.RiskEngine (PauseMode)
open Structures (SignalDirection)
open TriggerRules (istOffset dayUs minuteUs)

/-! ## What is checked -/

/-- A price level as it arrives: a number, or one of the floats that are none. -/
inductive Level where
  | finite (price : ℚ)
  | nan
  | inf (negative : Bool)
  deriving DecidableEq, Repr

/-- `repr` of a level that is not finite. -/
def Level.nonfinite : Level → Option String
  | .finite _ => none
  | .nan => some "nan"
  | .inf negative => some (if negative then "-inf" else "inf")

/-- What the check reads of a `Signal`. -/
structure Signal where
  direction : SignalDirection
  entry : Option Level := none
  stopLoss : Option Level := none
  target1 : Option Level := none
  target2 : Option Level := none
  riskReward : Option ℚ := none

/-- `ContractSpec`: its lot is above 0. -/
structure ContractSpec where
  lotSize : ℚ
  fractional : Bool := false
  lotSize_pos : 0 < lotSize

/-- What the check reads of a `RiskConfig`. -/
structure RiskConfig where
  capital : Option ℚ := none
  riskPerTradePct : Option ℚ := none
  maxDailyLossPct : Option ℚ := none
  maxTradesPerDay : Option ℤ := none
  maxOpenPositions : Option ℤ := none
  maxConsecutiveLosses : Option ℤ := none
  minRiskReward : ℚ := 0
  lotSize : Option ℤ := none
  lossStreakPause : Option PauseMode := none
  maxLotsPerOrder : Option ℤ := none
  dailyLossRupees : Option ℚ := none
  riskPerTradeRupees : Option ℚ := none
  lossCooldownMinutes : Option ℤ := none

/-- `TradingDayState`. -/
structure TradingDayState where
  tradesToday : ℤ := 0
  dailyPnl : ℚ := 0
  consecutiveLosses : ℤ := 0
  openPositions : ℤ := 0
  lastLossAt : Option ℤ := none
  asOf : Option ℤ := none

namespace RiskConfig

/-- A percentage of the capital, where both are set. -/
def ofCapital (cfg : RiskConfig) (pct : Option ℚ) : Option ℚ :=
  match pct, cfg.capital with
  | some pct, some capital => some (capital * pct / 100)
  | _, _ => none

/-- An amount of rupees, where it is above 0. -/
def rupees (amount : Option ℚ) : Option ℚ := amount.filter fun amount => 0 < amount

/-- `risk_amount`: the smaller of what is set. -/
def riskAmount (cfg : RiskConfig) : Option ℚ :=
  Option.merge min (cfg.ofCapital cfg.riskPerTradePct) (rupees cfg.riskPerTradeRupees)

/-- `daily_loss_amount`. -/
def dailyLossAmount (cfg : RiskConfig) : Option ℚ :=
  Option.merge min ((cfg.ofCapital cfg.maxDailyLossPct).map abs) ((rupees cfg.dailyLossRupees).map abs)

end RiskConfig

/-! ## What is answered -/

/-- How `format` writes a number: `:,.0f`, `:.2f` and `:g`. -/
structure Formats where
  grouped : ℚ → String
  fixed2 : ℚ → String
  general : ℚ → String

/-- A refusal as data. -/
structure Block where
  check : String
  text : String
  numbers : List (String × ℚ) := []
  admin : Bool := false
  smallerLots : Option ℤ := none

/-- `RiskDecision`. -/
structure RiskDecision where
  approved : Bool
  quantity : ℚ := 0
  reasons : List String := []
  blocks : List Block := []
  warnings : List String := []

/-- `_refused`. -/
def refused (blocks : List Block) (warnings : List String := []) : RiskDecision :=
  { approved := false, reasons := blocks.map Block.text, blocks, warnings }

def noTrade : String := "This signal says no trade."

def noLevels : String := "This signal has no entry or stop-loss level."

/-- `NEEDS_LOTS`. -/
def needsLots : String := "Needs your setting: Lots (Settings › Trade settings › Position size) - nothing was placed"

/-- `nonfinite_levels`, before they are joined. -/
def nonfiniteLevels (signal : Signal) : List String :=
  [("entry", signal.entry), ("stop loss", signal.stopLoss), ("target1", signal.target1),
    ("target2", signal.target2)].filterMap
    fun (name, level) => (level.bind Level.nonfinite).map fun shown => s!"{name} {shown}"

section

variable (fmt : Formats)

/-- `_fmt_money`. -/
def fmtMoney (value : ℚ) : String := s!"₹{fmt.grouped value}"

/-- `lots_text`. -/
def lotsText (n : ℚ) : String := if n = 1 then s!"{fmt.general n} lot" else s!"{fmt.general n} lots"

/-- `s` where a count is not one. -/
def plural (count : ℤ) (one many : String) : String := if count ≠ 1 then many else one

/-- `max_lots_block`. -/
def maxLotsBlock (limit : ℤ) (askedLots : ℚ) : Block where
  check := "max_lots_per_order"
  text := s!"Max lots per order is {limit} - this order is {lotsText fmt askedLots}. Place {lotsText fmt limit}?"
  numbers := [("limit", limit), ("asked", askedLots)]
  smallerLots := some limit

/-- `open_positions_block`. -/
def openPositionsBlock (held limit : ℤ) : Block where
  check := "max_open_positions"
  text :=
    let ending := plural held "" "s"
    s!"You hold {held} open position{ending}; your limit is {limit}. Exit one before a new entry."
  numbers := [("held", held), ("limit", limit)]

/-- `daily_loss_block`. -/
def dailyLossBlock (loss limit : ℚ) : Block where
  check := "daily_loss"
  text :=
    s!"Today's loss {fmtMoney fmt loss} has reached your daily loss limit of {fmtMoney fmt limit}. " ++
      "No new entries today; exits still work."
  numbers := [("loss", Py.round2 loss), ("limit", Py.round2 limit)]

/-- `entries_block`. -/
def entriesBlock (made limit : ℤ) : Block where
  check := "max_entries_per_day"
  text :=
    let ending := plural made "y" "ies"
    s!"You made {made} new entr{ending} today; your limit is {limit}. No new entries today; exits still work."
  numbers := [("made", made), ("limit", limit)]

/-- `cooldown_block`. -/
def cooldownBlock (losses limit : ℤ) (until_ : String) : Block where
  check := "loss_cooldown"
  text := s!"{losses} losses in a row (your limit is {limit}): new entries pause {until_}. Exits still work."
  numbers := [("losses", losses), ("limit", limit)]

/-- `reward_risk_block`. -/
def rewardRiskBlock (rr minimum : ℚ) : Block where
  check := "min_reward_risk"
  text := s!"This trade's reward:risk is {fmt.fixed2 rr}; your minimum is {fmt.fixed2 minimum}."
  numbers := [("reward_risk", Py.round2 rr), ("minimum", minimum)]

/-- `below_one_lot_block`. -/
def belowOneLotBlock (cap perLot : ℚ) : Block where
  check := "risk_sizing"
  text :=
    s!"Your risk per trade of {fmtMoney fmt cap} is less than one lot's risk of {fmtMoney fmt perLot} " ++
      "at this stop-loss. Set a closer stop-loss, or change the limit."
  numbers := [("risk_per_trade", Py.round2 cap), ("per_lot", Py.round2 perLot)]

/-- `no_distance_block`. -/
def noDistanceBlock : Block where
  check := "risk_sizing"
  text := "The stop-loss is at the entry price, so risk-based sizing cannot work out a size. Move the stop-loss."

/-- `NO_STOP_WARNING`. -/
def noStopWarning (lots : String) : String :=
  s!"No stop-loss is set, so risk-based sizing cannot size this position: " ++
    s!"your own lots ({lots}) are used. The loss is not limited."

/-! ## The limits -/

/-- Two digits. -/
def twoDigits (n : ℤ) : String := if n < 10 then s!"0{n}" else toString n

/-- `strftime('%H:%M')` in IST. -/
def istClock (instant : ℤ) : String :=
  let minutes := (instant + istOffset) % dayUs / minuteUs
  s!"{twoDigits (minutes / 60)}:{twoDigits (minutes % 60)}"

/-- `cooldown_until`. -/
def cooldownUntil (cfg : RiskConfig) (state : TradingDayState) : Option String :=
  let endless := if cfg.lossStreakPause = some .untilResume then "until you resume" else "until the next session"
  match cfg.maxConsecutiveLosses with
  | none => none
  | some limit =>
      if state.consecutiveLosses < limit then none
      else
        match cfg.lossCooldownMinutes with
        | none => some endless
        | some minutes =>
            if 0 < minutes then
              match state.lastLossAt, state.asOf with
              | some last, some now =>
                  let ends := last + minutes * minuteUs
                  if ends ≤ now then none else some s!"for {minutes} minutes, until {istClock ends} IST"
              | _, _ => some s!"for {minutes} minutes after the last loss"
            else some endless

/-- A check that is set and refuses appends its block. -/
def blockWhere {α : Type} (limit : Option α) (refuses : α → Bool) (block : α → Block) : List Block :=
  match limit with
  | some limit => if refuses limit then [block limit] else []
  | none => []

/-- The block of the losses-in-a-row pause, where it holds. -/
def streakBlocks (cfg : RiskConfig) (state : TradingDayState) : List Block :=
  match cooldownUntil cfg state, cfg.maxConsecutiveLosses with
  | some until_, some limit => [cooldownBlock state.consecutiveLosses limit until_]
  | _, _ => []

/-- The blocks of the checks that refuse the entry. -/
def limitBlocks (cfg : RiskConfig) (signal : Signal) (state : TradingDayState) : List Block :=
  blockWhere signal.riskReward (fun rr => 0 < cfg.minRiskReward ∧ rr < cfg.minRiskReward)
      (fun rr => rewardRiskBlock fmt rr cfg.minRiskReward) ++
    blockWhere cfg.maxTradesPerDay (fun limit => limit ≤ state.tradesToday) (entriesBlock state.tradesToday) ++
    blockWhere cfg.maxOpenPositions (fun limit => limit ≤ state.openPositions)
      (openPositionsBlock state.openPositions) ++
    streakBlocks cfg state ++
    blockWhere cfg.dailyLossAmount (fun limit => state.dailyPnl ≤ -limit) (dailyLossBlock fmt (-state.dailyPnl))

/-! ## The size -/

/-- What a size may be past the lots of the cap. -/
def tolerance : ℚ := 1 / 10 ^ 9

/-- The unit of a size: the contract's lot, else the organisation's own unit, else a share. -/
def unitOf (cfg : RiskConfig) (contract : Option ContractSpec) : ℚ :=
  match contract with
  | some spec => spec.lotSize
  | none =>
      match cfg.lotSize with
      | some unit => if unit = 0 then 1 else unit
      | none => 1

/-- `_size_checked`. -/
def sizeChecked (cfg : RiskConfig) (quantity unit : ℚ) (warnings : List String) (typed : Bool) : RiskDecision :=
  let lot := if 0 < unit then unit else 1
  let passed (quantity : ℚ) (warnings : List String) : RiskDecision :=
    { approved := true, quantity, reasons := ["Risk checks passed"], warnings }
  match cfg.maxLotsPerOrder with
  | some limit =>
      if 0 < limit ∧ limit * lot + tolerance < quantity then
        if typed then refused [maxLotsBlock fmt limit (quantity / lot)] warnings
        else
          passed (limit * lot)
            (warnings ++
              [let verb := plural limit "is" "are"
               s!"Risk-based sizing gave {lotsText fmt (quantity / lot)}; your max lots per order is {limit}, " ++
                 s!"so {lotsText fmt limit} {verb} placed."])
      else passed quantity warnings
  | none => passed quantity warnings

/-- The trader's own size: the one he typed, or one unit where a backtest asks for that. -/
def ownSize (oneLotIfUnsized : Bool) (requestedQuantity : Option ℚ) (unit : ℚ) : Option ℚ :=
  match requestedQuantity.filter fun quantity => 0 < quantity with
  | some typed => some typed
  | none => if oneLotIfUnsized then some unit else none

/-- What the risk amount buys, in whole units. -/
def riskQuantity (contract : Option ContractSpec) (rawQty unit : ℚ) : ℚ :=
  match contract with
  | some spec =>
      if spec.fractional then Py.roundTo 8 (OwnLimits.truncate (rawQty / spec.lotSize) * spec.lotSize)
      else ⌊rawQty / unit⌋ * unit
  | none => ⌊rawQty / unit⌋ * unit

/-- The size, once no limit refuses. -/
def size (cfg : RiskConfig) (oneLotIfUnsized : Bool) (direction : SignalDirection) (entry stop : ℚ)
    (contract : Option ContractSpec) (requestedQuantity : Option ℚ) : RiskDecision :=
  let unit := unitOf cfg contract
  let own := ownSize oneLotIfUnsized requestedQuantity unit
  match cfg.riskAmount with
  | none =>
      match own with
      | none => { approved := false, reasons := [needsLots] }
      | some quantity => sizeChecked fmt cfg quantity unit [] true
  | some amount =>
      if direction = .short ∧ stop ≤ 0 then
        match own with
        | none => { approved := false, reasons := [needsLots] }
        | some quantity =>
            sizeChecked fmt cfg quantity unit
              [noStopWarning (lotsText fmt (if unit = 0 then quantity else quantity / unit))] true
      else
        let riskPerUnit := |entry - stop|
        if riskPerUnit ≤ 0 then refused [noDistanceBlock]
        else
          let quantity := riskQuantity contract (amount / riskPerUnit) unit
          if quantity ≤ 0 then refused [belowOneLotBlock fmt amount (riskPerUnit * unit)]
          else sizeChecked fmt cfg quantity unit [] false

/-- `validate_and_size`. -/
def validateAndSize (cfg : RiskConfig) (oneLotIfUnsized : Bool) (signal : Signal) (state : TradingDayState)
    (contract : Option ContractSpec) (requestedQuantity : Option ℚ) : RiskDecision :=
  let levels := String.intercalate ", " (nonfiniteLevels signal)
  let unusable : RiskDecision := { approved := false, reasons := [s!"Signal {levels} is not a finite number"] }
  if signal.direction = .noTrade then { approved := false, reasons := [noTrade] }
  else
    match signal.entry, signal.stopLoss with
    | some (.finite entry), some (.finite stop) =>
        if nonfiniteLevels signal ≠ [] then unusable
        else if (limitBlocks fmt cfg signal state).isEmpty then
          size fmt cfg oneLotIfUnsized signal.direction entry stop contract requestedQuantity
        else refused (limitBlocks fmt cfg signal state)
    | some _, some _ => unusable
    | _, _ => { approved := false, reasons := [noLevels] }

end

end AdvanceTrading.RiskManager

/-!
# An approved size is within the trader's limits

An approval says that no limit refused (`limitBlocks_eq_nil_iff`) and which of
two ways its size came from: the trader's own size, refused above the cap, or
the whole units the risk amount buys, lowered to the cap. The unit is the lot
of the contract, or above 0 where the organisation saved its own.
-/

namespace AdvanceTrading.RiskManager

open Structures (SignalDirection)
open TriggerRules (minuteUs)

/-! ## No limit refuses -/

/-- The losses-in-a-row pause does not hold: the streak is short of it, or its minutes have passed. -/
def StreakClear (cfg : RiskConfig) (state : TradingDayState) : Prop :=
  ∀ limit ∈ cfg.maxConsecutiveLosses, state.consecutiveLosses < limit ∨
    ∃ minutes ∈ cfg.lossCooldownMinutes, ∃ last ∈ state.lastLossAt, ∃ now ∈ state.asOf,
      0 < minutes ∧ last + minutes * minuteUs ≤ now

/-- Every limit the trader set holds. -/
structure LimitsHold (cfg : RiskConfig) (signal : Signal) (state : TradingDayState) : Prop where
  rewardRisk : ∀ rr ∈ signal.riskReward, 0 < cfg.minRiskReward → cfg.minRiskReward ≤ rr
  entries : ∀ limit ∈ cfg.maxTradesPerDay, state.tradesToday < limit
  positions : ∀ limit ∈ cfg.maxOpenPositions, state.openPositions < limit
  streak : StreakClear cfg state
  dailyLoss : ∀ limit ∈ cfg.dailyLossAmount, -limit < state.dailyPnl

variable {cfg : RiskConfig} {state : TradingDayState}

theorem cooldownUntil_eq_none_iff : cooldownUntil cfg state = none ↔ StreakClear cfg state := by
  unfold cooldownUntil StreakClear
  cases streak : cfg.maxConsecutiveLosses with
  | none => simp
  | some limit =>
    by_cases short : state.consecutiveLosses < limit
    · simp [short]
    · cases cooldown : cfg.lossCooldownMinutes with
      | none => simp [short]
      | some minutes =>
        by_cases timed : 0 < minutes
        · cases lastLoss : state.lastLossAt with
          | none => simp [short, timed]
          | some last =>
            cases asOf : state.asOf with
            | none => simp [short, timed]
            | some now => simp [short, timed]
        · simp [short, timed]

theorem streakBlocks_eq_nil_iff : streakBlocks cfg state = [] ↔ StreakClear cfg state := by
  rw [← cooldownUntil_eq_none_iff]
  unfold streakBlocks
  cases streak : cfg.maxConsecutiveLosses with
  | none => simp [cooldownUntil, streak]
  | some limit => cases cooldownUntil cfg state <;> simp

/-- A check that is not set, or does not refuse, adds no block. -/
theorem blockWhere_eq_nil_iff {α : Type} {limit : Option α} {refuses : α → Bool} {block : α → Block} :
    blockWhere limit refuses block = [] ↔ ∀ x ∈ limit, refuses x = false := by
  unfold blockWhere
  cases limit with
  | none => simp
  | some x => cases refused : refuses x <;> simp [refused]

theorem limitBlocks_eq_nil_iff {fmt : Formats} {signal : Signal} :
    limitBlocks fmt cfg signal state = [] ↔ LimitsHold cfg signal state := by
  unfold limitBlocks
  simp only [List.append_eq_nil_iff, blockWhere_eq_nil_iff, streakBlocks_eq_nil_iff,
    decide_eq_false_iff_not, not_and, not_le,
    not_lt]
  constructor
  · rintro ⟨⟨⟨⟨rewardRisk, entries⟩, positions⟩, streak⟩, dailyLoss⟩
    exact { rewardRisk, entries, positions, streak, dailyLoss }
  · rintro ⟨rewardRisk, entries, positions, streak, dailyLoss⟩
    exact ⟨⟨⟨⟨rewardRisk, entries⟩, positions⟩, streak⟩, dailyLoss⟩

/-! ## The cap -/

section

variable {fmt : Formats} {cfg : RiskConfig} {quantity unit : ℚ} {warnings : List String}

/-- The size is at most the lots of the cap, but for the tolerance. -/
def WithinCap (cfg : RiskConfig) (unit quantity : ℚ) : Prop :=
  ∀ limit ∈ cfg.maxLotsPerOrder, 0 < limit → quantity ≤ limit * unit + tolerance

/-- A size that was lowered to the cap. -/
def Lowered (cfg : RiskConfig) (unit sized placed : ℚ) : Prop :=
  ∃ limit ∈ cfg.maxLotsPerOrder, 0 < limit ∧ limit * unit + tolerance < sized ∧ placed = limit * unit

theorem tolerance_pos : 0 < tolerance := by
  norm_num [tolerance]

theorem Lowered.withinCap {sized placed : ℚ} (lowered : Lowered cfg unit sized placed) :
    WithinCap cfg unit placed := by
  obtain ⟨limit, isSet, -, -, rfl⟩ := lowered
  intro other same _
  have eq : limit = other := Option.some.inj (isSet.symm.trans same)
  rw [eq]
  exact le_add_of_nonneg_right tolerance_pos.le

/-- What `_size_checked` approves: the size it is given within the cap, or one it lowers. -/
theorem sizeChecked_cases {typed : Bool} (positive : 0 < unit)
    (approved : (sizeChecked fmt cfg quantity unit warnings typed).approved = true) :
    ((sizeChecked fmt cfg quantity unit warnings typed).quantity = quantity ∧ WithinCap cfg unit quantity) ∨
      typed = false ∧ Lowered cfg unit quantity (sizeChecked fmt cfg quantity unit warnings typed).quantity := by
  revert approved
  unfold sizeChecked WithinCap Lowered
  rw [if_pos positive]
  cases cap : cfg.maxLotsPerOrder with
  | none => simp
  | some limit =>
    by_cases above : 0 < limit ∧ limit * unit + tolerance < quantity
    · cases typed with
      | true => simp [above, refused]
      | false => simp [above]
    · simp only [above, if_false, Option.mem_some_iff]
      intro _
      left
      refine ⟨trivial, ?_⟩
      rintro _ rfl isSet
      exact not_lt.mp fun past => above ⟨isSet, past⟩

end

/-! ## Whole units of the risk amount -/

/-- The unit is above 0, and an increment has at most the eight decimals a size is rounded to. -/
def UnitUsable (cfg : RiskConfig) (contract : Option ContractSpec) : Prop :=
  0 < unitOf cfg contract ∧ ∀ spec ∈ contract, spec.fractional = true → ∃ n : ℤ, spec.lotSize = n / 10 ^ 8

theorem roundTo_decimals (places : ℕ) (n : ℤ) : Py.roundTo places (n / 10 ^ places) = n / 10 ^ places := by
  unfold Py.roundTo
  rw [div_mul_cancel₀ _ (by positivity), Py.roundHalfEven_intCast]

/-- A size above 0 is the most whole units within the raw one. -/
theorem riskQuantity_eq {contract : Option ContractSpec} {rawQty : ℚ}
    (usable : UnitUsable cfg contract)
    (positive : 0 < riskQuantity contract rawQty (unitOf cfg contract)) :
    riskQuantity contract rawQty (unitOf cfg contract) = ⌊rawQty / unitOf cfg contract⌋ * unitOf cfg contract := by
  cases contract with
  | none => rfl
  | some spec =>
    obtain ⟨unitPos, decimals⟩ := usable
    cases fractional : spec.fractional with
    | false => simp [riskQuantity, fractional]
    | true =>
      obtain ⟨n, eight⟩ := decimals spec rfl fractional
      have whole : riskQuantity (some spec) rawQty (unitOf cfg (some spec)) =
          OwnLimits.truncate (rawQty / spec.lotSize) * spec.lotSize := by
        have scaled : (OwnLimits.truncate (rawQty / spec.lotSize) * spec.lotSize : ℚ) =
            ((OwnLimits.truncate (rawQty / spec.lotSize) * n : ℤ) : ℚ) / 10 ^ 8 := by
          rw [eight]
          push_cast
          ring
        simp only [riskQuantity, fractional, if_true]
        rw [scaled, roundTo_decimals]
      rw [whole] at positive ⊢
      have some_ : (0 : ℚ) < OwnLimits.truncate (rawQty / spec.lotSize) :=
        (mul_pos_iff_of_pos_right spec.lotSize_pos).mp positive
      have counted : 0 < OwnLimits.truncate (rawQty / spec.lotSize) := by exact_mod_cast some_
      have nonneg : 0 ≤ rawQty / spec.lotSize := by
        by_contra negative
        have none_ : OwnLimits.truncate (rawQty / spec.lotSize) ≤ 0 := by
          unfold OwnLimits.truncate
          rw [if_neg negative]
          exact Int.ceil_le.mpr (by push_cast; linarith)
        omega
      unfold OwnLimits.truncate
      rw [if_pos nonneg]
      rfl

/-- A size of the risk amount: whole units, within the amount, and one more is past it or past the cap. -/
structure RiskSized (cfg : RiskConfig) (contract : Option ContractSpec) (amount entry stop quantity : ℚ) : Prop where
  units : ∃ count : ℕ, quantity = count * unitOf cfg contract
  affordable : quantity * |entry - stop| ≤ amount
  greatest : amount < (quantity + unitOf cfg contract) * |entry - stop| ∨
    ∃ limit ∈ cfg.maxLotsPerOrder, 0 < limit ∧ limit * unitOf cfg contract < quantity + unitOf cfg contract
  decimals : ∀ spec ∈ contract, spec.fractional = true → ∃ n : ℤ, quantity = n / 10 ^ 8

/-- Whole units of an increment have its decimals. -/
theorem decimals_of_units {contract : Option ContractSpec} {quantity : ℚ}
    (usable : UnitUsable cfg contract) (units : ∃ count : ℕ, quantity = count * unitOf cfg contract) :
    ∀ spec ∈ contract, spec.fractional = true → ∃ n : ℤ, quantity = n / 10 ^ 8 := by
  rintro spec rfl fractional
  obtain ⟨count, rfl⟩ := units
  obtain ⟨n, eight⟩ := usable.2 spec rfl fractional
  refine ⟨count * n, ?_⟩
  unfold unitOf
  simp only
  rw [eight]
  push_cast
  ring

section

variable {cfg : RiskConfig} {contract : Option ContractSpec} {amount entry stop quantity : ℚ}
  (usable : UnitUsable cfg contract) (apart : 0 < |entry - stop|)
  (sized : quantity = riskQuantity contract (amount / |entry - stop|) (unitOf cfg contract)) (positive : 0 < quantity)
include usable apart sized positive

theorem riskSized_of_quantity : RiskSized cfg contract amount entry stop quantity := by
  have unitPos := usable.1
  have whole : quantity = ⌊amount / |entry - stop| / unitOf cfg contract⌋ * unitOf cfg contract := by
    rw [sized] at positive ⊢
    exact riskQuantity_eq usable positive
  have low := Int.floor_le (amount / |entry - stop| / unitOf cfg contract)
  have high := Int.lt_floor_add_one (amount / |entry - stop| / unitOf cfg contract)
  have countPosQ : (0 : ℚ) < ⌊amount / |entry - stop| / unitOf cfg contract⌋ := by
    rw [whole] at positive
    exact (mul_pos_iff_of_pos_right unitPos).mp positive
  have countPos : 0 < ⌊amount / |entry - stop| / unitOf cfg contract⌋ := by exact_mod_cast countPosQ
  rw [le_div_iff₀ unitPos, ← whole, le_div_iff₀ apart] at low
  rw [div_lt_iff₀ unitPos, add_mul, ← whole, one_mul, div_lt_iff₀ apart] at high
  have units : ∃ count : ℕ, quantity = count * unitOf cfg contract := by
    refine ⟨⌊amount / |entry - stop| / unitOf cfg contract⌋.toNat, ?_⟩
    rw [whole]
    congr 1
    exact_mod_cast (Int.toNat_of_nonneg countPos.le).symm
  exact { units, affordable := low, greatest := .inl high, decimals := decimals_of_units usable units }

/-- Lowered to the cap it stays affordable, and one unit more is past the cap. -/
theorem riskSized_of_lowered {placed : ℚ} (lowered : Lowered cfg (unitOf cfg contract) quantity placed) :
    RiskSized cfg contract amount entry stop placed := by
  have full := riskSized_of_quantity usable apart sized positive
  obtain ⟨limit, isSet, above, past, rfl⟩ := lowered
  have less : limit * unitOf cfg contract ≤ quantity := by
    have slack := tolerance_pos
    linarith
  have units : ∃ count : ℕ, limit * unitOf cfg contract = count * unitOf cfg contract := by
    refine ⟨limit.toNat, ?_⟩
    congr 1
    exact_mod_cast (Int.toNat_of_nonneg above.le).symm
  exact
    { units
      affordable := (mul_le_mul_of_nonneg_right less apart.le).trans full.affordable
      greatest := .inr ⟨limit, isSet, above, lt_add_of_pos_right _ usable.1⟩
      decimals := decimals_of_units usable units }

end

/-! ## An approval -/

/-- What an approved size keeps: the limits that are set, the cap, and the risk amount where the signal's stop is
usable for it. -/
structure SizedWithinLimits (cfg : RiskConfig) (signal : Signal) (state : TradingDayState)
    (contract : Option ContractSpec)
    (quantity : ℚ) : Prop where
  positive : 0 < quantity
  limits : LimitsHold cfg signal state
  cap : WithinCap cfg (unitOf cfg contract) quantity
  riskSized : ∀ amount ∈ cfg.riskAmount, ∀ entry stop, signal.entry = some (.finite entry) →
    signal.stopLoss = some (.finite stop) → ¬(signal.direction = .short ∧ stop ≤ 0) →
      RiskSized cfg contract amount entry stop quantity

section

variable {fmt : Formats} {cfg : RiskConfig} {oneLotIfUnsized : Bool} {contract : Option ContractSpec}
  {requestedQuantity : Option ℚ}

theorem ownSize_pos {unit quantity : ℚ} (positive : 0 < unit)
    (own : ownSize oneLotIfUnsized requestedQuantity unit = some quantity) : 0 < quantity := by
  unfold ownSize at own
  split at own
  · next typed =>
    obtain rfl := Option.some.inj own
    simpa using (Option.filter_eq_some_iff.mp typed).2
  · split at own
    · obtain rfl := Option.some.inj own
      exact positive
    · cases own

/-- The trader's own size, once it is approved. -/
theorem own_within {own : Option ℚ} {unit : ℚ} {warnings : ℚ → List String} {decision : RiskDecision}
    (is : (match own with
      | none => { approved := false, reasons := [needsLots] }
      | some quantity => sizeChecked fmt cfg quantity unit (warnings quantity) true) = decision)
    (positive : ∀ quantity ∈ own, 0 < quantity) (unitPos : 0 < unit)
    (approved : decision.approved = true) : 0 < decision.quantity ∧ WithinCap cfg unit decision.quantity := by
  cases own with
  | none =>
    subst is
    cases approved
  | some quantity =>
    subst is
    rcases sizeChecked_cases unitPos approved with ⟨placed, cap⟩ | ⟨typed, -⟩
    · rw [placed]
      exact ⟨positive quantity rfl, cap⟩
    · cases typed

/-- An approved size is within the cap, and is the trader's own or is sized by its risk. -/
theorem size_within {direction : SignalDirection} {entry stop : ℚ} {decision : RiskDecision}
    (usable : UnitUsable cfg contract)
    (is : size fmt cfg oneLotIfUnsized direction entry stop contract requestedQuantity = decision)
    (approved : decision.approved = true) :
    0 < decision.quantity ∧ WithinCap cfg (unitOf cfg contract) decision.quantity ∧
      ∀ amount ∈ cfg.riskAmount, ¬(direction = .short ∧ stop ≤ 0) →
        RiskSized cfg contract amount entry stop decision.quantity := by
  have unitPos := usable.1
  have ownPos : ∀ quantity ∈ ownSize oneLotIfUnsized requestedQuantity (unitOf cfg contract), 0 < quantity :=
    fun quantity own => ownSize_pos unitPos own
  unfold size at is
  dsimp only at is
  split at is
  · next unset =>
    obtain ⟨positive, cap⟩ := own_within is ownPos unitPos approved
    refine ⟨positive, cap, ?_⟩
    intro amount isSet
    rw [unset] at isSet
    cases isSet
  · next amount isSet =>
    split at is
    · next naked =>
      obtain ⟨positive, cap⟩ := own_within is ownPos unitPos approved
      exact ⟨positive, cap, fun _ _ hasStop => absurd naked hasStop⟩
    split at is
    · subst is
      cases approved
    · next together =>
      have apart := not_le.mp together
      split at is
      · subst is
        cases approved
      · next none_ =>
        have bought := not_le.mp none_
        subst is
        rcases sizeChecked_cases unitPos approved with ⟨placed, cap⟩ | ⟨-, lowered⟩
        · rw [placed]
          refine ⟨bought, cap, ?_⟩
          intro amount' isSet' _
          obtain rfl := Option.some.inj (isSet.symm.trans isSet')
          exact riskSized_of_quantity usable apart rfl bought
        · refine ⟨?_, lowered.withinCap, ?_⟩
          · obtain ⟨limit, -, above, -, placed⟩ := lowered
            rw [placed]
            exact mul_pos (by exact_mod_cast above) unitPos
          · intro amount' isSet' _
            obtain rfl := Option.some.inj (isSet.symm.trans isSet')
            exact riskSized_of_lowered usable apart rfl bought lowered

/-- An approved entry is within every limit the trader set; sized by its risk it takes the most whole units the
risk amount and the cap leave. -/
theorem approved_within_limits {signal : Signal} {state : TradingDayState} (usable : UnitUsable cfg contract)
    (approved : (validateAndSize fmt cfg oneLotIfUnsized signal state contract requestedQuantity).approved = true) :
    SizedWithinLimits cfg signal state contract
      (validateAndSize fmt cfg oneLotIfUnsized signal state contract requestedQuantity).quantity := by
  revert approved
  unfold validateAndSize
  simp only
  split
  · intro approved
    cases approved
  split
  · next entry stop entryIs stopIs =>
    split
    · intro approved
      cases approved
    split
    · next clear =>
      intro approved
      obtain ⟨positive, cap, riskSized⟩ := size_within usable rfl approved
      refine
        { positive
          limits := limitBlocks_eq_nil_iff.mp (List.isEmpty_iff.mp clear)
          cap
          riskSized := ?_ }
      intro amount isSet entry' stop' entryIs' stopIs' hasStop
      rw [entryIs] at entryIs'
      rw [stopIs] at stopIs'
      cases entryIs'
      cases stopIs'
      exact riskSized amount isSet hasStop
    · intro approved
      cases approved
  · intro approved
    cases approved
  · intro approved
    cases approved

end

/-- Formats that write nothing. -/
def noFormats : Formats := ⟨fun _ => "", fun _ => "", fun _ => ""⟩

/-- A long entry at 110 with its stop at 100. -/
def longTen : Signal := { direction := .long, entry := some (.finite 110), stopLoss := some (.finite 100) }

theorem seventyFive_pos : (0 : ℚ) < 75 := by norm_num

def lot75 : ContractSpec := { lotSize := 75, lotSize_pos := seventyFive_pos }

/-- 1,00,000 at risk and at most three lots an order. -/
def threeLots : RiskConfig := { riskPerTradeRupees := some 100000, maxLotsPerOrder := some 3 }

/-- The risk amount buys 133 lots and the cap lowers them to three. -/
theorem lowered_within_limits :
    let decision := validateAndSize noFormats threeLots false longTen {} (some lot75) none
    decision.quantity = 225 ∧ SizedWithinLimits threeLots longTen {} (some lot75) decision.quantity := by
  refine ⟨by decide +kernel, approved_within_limits ⟨?_, ?_⟩ (by decide +kernel)⟩
  · norm_num [unitOf, lot75]
  · rintro spec ⟨⟩ fractional
    cases fractional

/-- A typed size a little past a cap of five shares is approved as it is: the check leaves a tolerance. -/
theorem typed_past_the_cap :
    let decision := validateAndSize noFormats { maxLotsPerOrder := some 5 } false longTen {} none
      (some (5 + 1 / (2 * 10 ^ 9)))
    decision.approved = true ∧ 5 * unitOf { maxLotsPerOrder := some 5 } none < decision.quantity := by
  decide +kernel

end AdvanceTrading.RiskManager
