import AdvanceTrading.Execution.SmartExecution
import AdvanceTrading.Misc.Binary64
import AdvanceTrading.Misc.Dict
import Mathlib.Algebra.BigOperators.Group.List.Basic

/-!
# The legs of a structure, placed by the smart-execution engine

Model of `place_legs` (`app/execution/multileg_smart.py:84-157`). What the broker
does with each leg's order is a `LegAnswer`; what the venue takes and the last
prices are a `Venue`. A text of `failure` is a constructor, and the notes and tags
are left out.
-/

namespace AdvanceTrading.PlaceLegs

/-! ## The run -/

/-- `LegSpec` (`multileg_smart.py:50-72`). -/
structure LegSpec where
  key : String
  exchange : String := "NFO"
  side : String
  role : String
  quantity : ℚ
  index : Nat := 0
  instrumentKey : Option String := none
  ratio : Nat := 1
  deriving DecidableEq

/-- `LegFill`. -/
structure LegFill where
  price : ℚ
  quantity : ℚ
  orderId : String
  deriving DecidableEq

/-- What stopped a leg, with the text's own values. -/
inductive LegFailure where
  | needsSetting (side key : String)
  | unpriced (side key : String)
  | failed (side key : String)
  | rejected (side key status : String)
  | partFilled (side key : String) (got quantity : ℚ)
  | notFilled (side key : String)
  deriving DecidableEq

/-- The broker's answer to `place_order`, and what its book showed of the order then. -/
inductive LegAnswer where
  /-- `place_order` raised. -/
  | unanswered
  | answered (status orderId : String) (price filled : ℚ) (confirmed : Bool) (latePrice lateQuantity : ℚ)
  deriving DecidableEq

structure Venue where
  /-- `market_orders_allowed`. -/
  marketOk : Bool := true
  bandPct : Option ℚ := none
  prices : String → Option ℚ := fun _ => none

/-- `EPS`. -/
def eps : ℚ := 1 / 1000000000

/-- What `place` keeps: the fills by leg, the first failure, and the legs whose order is not known. -/
structure Placed where
  fills : Dict String LegFill := []
  failure : Option LegFailure := none
  uncertain : List String := []

/-- `_stop`. -/
def Placed.stop (placed : Placed) (why : LegFailure) (result : Option LegFill) :
    Except Empty (Bool × List String × Option LegFill) × Placed :=
  (.ok (false, [], result), { placed with failure := placed.failure.or (some why) })

/-- The order of one leg went out and was answered (`multileg_smart.py:120-144`). -/
def placeAnswered (spec : LegSpec) (status orderId : String) (price filled : ℚ) (confirmed : Bool)
    (latePrice lateQuantity : ℚ) (placed : Placed) :
    Except Empty (Bool × List String × Option LegFill) × Placed :=
  if status = "REJECTED" ∨ status = "CANCELLED" ∨ orderId = "" then
    placed.stop (.rejected spec.side spec.key status) none
  else if spec.quantity ≤ filled + eps ∧ 0 < price then
    let fill : LegFill := ⟨Py.round2 price, spec.quantity, orderId⟩
    (.ok (true, [], some fill), { placed with fills := placed.fills.set spec.key fill })
  else
    let got := max lateQuantity filled
    let at_ := if 0 < lateQuantity then latePrice else price
    let placed := if confirmed then placed else { placed with uncertain := placed.uncertain ++ [spec.key] }
    if eps < got ∧ 0 < at_ then
      let fill : LegFill := ⟨Py.round2 at_, min got spec.quantity, orderId⟩
      { placed with fills := placed.fills.set spec.key fill }.stop
        (.partFilled spec.side spec.key got spec.quantity) (some fill)
    else placed.stop (.notFilled spec.side spec.key) none

section Run

variable (venue : Venue) (specs : List LegSpec) (answer : Nat → LegAnswer)

/-- `place` of one leg. -/
def placeLeg (spec : LegSpec) (answer : LegAnswer) (placed : Placed) :
    Except Empty (Bool × List String × Option LegFill) × Placed :=
  if !venue.marketOk ∧ venue.bandPct = none then placed.stop (.needsSetting spec.side spec.key) none
  else if !venue.marketOk ∧ (venue.prices spec.key).getD 0 = 0 then
    placed.stop (.unpriced spec.side spec.key) none
  else
    match answer with
    | .unanswered =>
        { placed with uncertain := placed.uncertain ++ [spec.key] }.stop (.failed spec.side spec.key) none
    | .answered status orderId price filled confirmed latePrice lateQuantity =>
        placeAnswered spec status orderId price filled confirmed latePrice lateQuantity placed

/-- `place`, by the index the engine gives it. -/
def place : SmartExecution.Place Placed Empty LegFill := fun index _ placed =>
  match specs[index]? with
  | some spec => placeLeg venue spec (answer index) placed
  | none => (.ok (false, [], none), placed)

/-- What the fills leave of a leg to place. -/
def remainder (fills : Dict String LegFill) (spec : LegSpec) : Option LegSpec :=
  let got := (fills.get spec.key).elim 0 LegFill.quantity
  if got + eps < spec.quantity then some { spec with quantity := Py.roundTo 6 (spec.quantity - got) } else none

/-- `LegsRun`. -/
structure LegsRun where
  state : SmartExecution.RunState
  fills : Dict String LegFill
  pending : List LegSpec
  failure : Option LegFailure
  uncertain : List String

/-- `place_legs`. -/
def placeLegs : LegsRun :=
  match SmartExecution.run (specs.map LegSpec.side) (place venue specs answer) false {} with
  | (.ok outcome, placed) =>
      let pending := outcome.legs.filterMap fun leg => (specs[leg.index]?).bind (remainder placed.fills)
      { state :=
          if outcome.state = .nothingPlaced ∧ placed.fills ≠ [] then .incomplete
          else if outcome.state = .complete ∧ pending ≠ [] then .incomplete
          else outcome.state
        fills := placed.fills
        pending := pending
        failure := placed.failure
        uncertain := placed.uncertain }
  | (.error never, _) => never.elim

end Run

end AdvanceTrading.PlaceLegs
