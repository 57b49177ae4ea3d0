import AdvanceTrading.Misc.Dict
import Mathlib.Algebra.BigOperators.Group.List.Basic
import Mathlib.Algebra.Order.Ring.Rat
import Mathlib.Data.List.Dedup
import Mathlib.Data.Prod.Lex
import Mathlib.Data.String.Basic

/-!
# Comparing positions

Model of `reconcile_positions` (`app/reconciliation/engine.py`). Quantities are
exact. The prose of an item is left out: nothing reads it but the audit log.
-/

namespace AdvanceTrading.Reconciliation

inductive Direction where
  | long
  | short
  deriving DecidableEq, Repr

inductive Status where
  | matched
  | quantityMismatch
  | missingAtBroker
  | untrackedAtBroker
  deriving DecidableEq, Repr

/-- A row of a report. -/
structure Item where
  symbol : String
  internalNetQuantity : Option ℚ
  brokerNetQuantity : Option ℚ
  status : Status
  internalTradeIds : List Nat
  deriving DecidableEq

/-- The item of a symbol. -/
def compare (symbol : String) : Option (ℚ × List Nat) → Option ℚ → Item
  | some (qty, ids), none => ⟨symbol, some qty, none, .missingAtBroker, ids⟩
  | none, some qty => ⟨symbol, none, some qty, .untrackedAtBroker, []⟩
  | some (qty, ids), some brokerQty =>
      ⟨symbol, some qty, some brokerQty, if qty ≠ brokerQty then .quantityMismatch else .matched, ids⟩
  | none, none => ⟨symbol, none, none, .matched, []⟩

/-- The net quantity of a symbol's items, where it has any. -/
def net {α : Type} (symbol : α → String) (quantity : α → ℚ) (xs : List α) (s : String) : Option ℚ :=
  let own := xs.filter fun x => symbol x = s
  if own = [] then none else some (own.map quantity).sum

end AdvanceTrading.Reconciliation
