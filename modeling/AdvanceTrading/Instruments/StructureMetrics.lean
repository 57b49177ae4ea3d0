import AdvanceTrading.Instruments.ExpiryPayoff

/-!
# The economics of a structure

What `_priced_metrics` and `_payoff_metrics` (`app/instruments/spreads.py:596-718`) return of a planned
structure. Every figure is for one unit.
-/

namespace AdvanceTrading.Structures

structure UnderlyingExits where
  below : Option ℚ := none
  above : Option ℚ := none
  deriving DecidableEq

structure StructureMetrics where
  netCredit : ℚ
  maxProfit : Option ℚ
  maxLoss : Option ℚ
  breakevens : List ℚ
  targetValue : Option ℚ
  stopValue : Option ℚ
  shortStrikes : List (Right × ℚ) := []
  debit : Bool := false
  riskPerUnit : ℚ := 0
  definedRisk : Bool := true
  underlyingExits : UnderlyingExits := {}
  pnlTarget : Option ℚ := none
  pnlStop : Option ℚ := none
  payoff : Bool := false
  deriving DecidableEq

end AdvanceTrading.Structures
