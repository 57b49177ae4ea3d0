import Mathlib.Data.List.Basic

/-!
# The order state machine

Model of `app/execution/order_state_machine.py` and of the shortest chain of
legal transitions the start-up sweeper looks for
(`app/execution/order_sweeper.py:63-74`).
-/

namespace AdvanceTrading.Execution

/-- `OrderStatus` (`app/core/enums.py:207-224`). -/
inductive OrderStatus where
  | created
  | validating
  | riskCheck
  | submitted
  | pending
  | partialFill
  | filled
  | positionOpen
  | rejected
  | failed
  | cancelled
  deriving DecidableEq, Repr

/-- `OrderStatus.value`. -/
def OrderStatus.value : OrderStatus → String
  | .created => "CREATED"
  | .validating => "VALIDATING"
  | .riskCheck => "RISK_CHECK"
  | .submitted => "SUBMITTED"
  | .pending => "PENDING"
  | .partialFill => "PARTIAL_FILL"
  | .filled => "FILLED"
  | .positionOpen => "POSITION_OPEN"
  | .rejected => "REJECTED"
  | .failed => "FAILED"
  | .cancelled => "CANCELLED"

/-- `_TRANSITIONS` (`order_state_machine.py:6-41`). -/
def transitions : OrderStatus → List OrderStatus
  | .created => [.validating, .cancelled]
  | .validating => [.riskCheck, .rejected, .cancelled]
  | .riskCheck => [.submitted, .rejected, .failed, .cancelled]
  | .submitted => [.pending, .rejected, .failed, .cancelled]
  | .pending => [.filled, .partialFill, .cancelled, .rejected, .failed]
  | .partialFill => [.filled, .cancelled]
  | .filled => [.positionOpen]
  | .positionOpen | .rejected | .failed | .cancelled => []

/-- `TERMINAL_STATUSES`. -/
def terminalStatuses : List OrderStatus := [.positionOpen, .rejected, .failed, .cancelled]

/-- The search of `_path`: `queue` holds the statuses reached with their chains. -/
def pathFrom (goal : OrderStatus) :
    Nat → List (OrderStatus × List OrderStatus) → List OrderStatus → List OrderStatus
  | 0, _, _ => []
  | _, [], _ => []
  | fuel + 1, (status, path) :: queue, seen =>
      if status = goal then path
      else
        let fresh := (transitions status).filter fun next => next ∉ seen
        pathFrom goal fuel (queue ++ fresh.map fun next => (next, path ++ [next])) (seen ++ fresh)

/-- `_path` (`order_sweeper.py:63-74`). A status is queued once, so the search
takes at most one round for each of the eleven and one for the empty queue. -/
def path (start goal : OrderStatus) : List OrderStatus := pathFrom goal 12 [(start, [])] [start]

/-- `start` followed by `steps` is a chain of legal transitions that ends in `goal`. -/
def LegalChain (goal : OrderStatus) : OrderStatus → List OrderStatus → Prop
  | status, [] => status = goal
  | status, next :: rest => next ∈ transitions status ∧ LegalChain goal next rest

instance (goal : OrderStatus) : ∀ start steps, Decidable (LegalChain goal start steps)
  | start, [] => inferInstanceAs (Decidable (start = goal))
  | start, next :: rest =>
      have := instDecidableLegalChain goal next rest
      inferInstanceAs (Decidable (next ∈ transitions start ∧ LegalChain goal next rest))

/-- All eleven statuses. -/
def orderStatuses : List OrderStatus :=
  [.created, .validating, .riskCheck, .submitted, .pending, .partialFill, .filled, .positionOpen,
    .rejected, .failed, .cancelled]

theorem mem_orderStatuses (status : OrderStatus) : status ∈ orderStatuses := by
  cases status <;> decide

/-- A chain the search returns is legal and reaches the goal. -/
theorem path_legal {start goal : OrderStatus} (found : path start goal ≠ []) :
    LegalChain goal start (path start goal) := by
  have all : ∀ s ∈ orderStatuses, ∀ g ∈ orderStatuses, path s g ≠ [] → LegalChain g s (path s g) := by
    decide
  exact all start (mem_orderStatuses start) goal (mem_orderStatuses goal) found

end AdvanceTrading.Execution
