import AdvanceTrading.Misc.Dict
import AdvanceTrading.Trading.LiveExit

/-!
# The stop guard

Model of `_exit_died_unfilled` and of `_guard_one` (`app/trading/stop_guard.py:215-292`)
up to the stop it places: which recorded stop stands, when an exit holds the guard
back, and the streak of refused stops. The book is the one the pass has read. What
follows an order that was sent, the notices and the counts are left out; of the
counts the verdict says which one moves.
-/

namespace AdvanceTrading.LiveExit

/-- `_STANDING`. -/
def standingStatuses : List String :=
  ["OPEN", "PENDING", "TRIGGER PENDING", "TRIGGER_PENDING", "PUT ORDER REQ RECEIVED",
    "VALIDATION PENDING", "OPEN PENDING",
    "MODIFY PENDING", "AFTER MARKET ORDER REQ RECEIVED"]

/-- `stop_state`: the stops refused in a row, and the guard's own latest stop, by trade. -/
structure StopState where
  rearmRejects : Dict Nat Nat := []
  rearmedOrder : Dict Nat String := []
  deriving DecidableEq

/-- `_note_rearm_rejected`. -/
def noteRearmRejected (state : StopState) (tradeId : Nat) (orderId : Option String) : Nat × StopState :=
  let refused := (Dict.get tradeId state.rearmRejects).getD 0
  if orderId = none ∨ Dict.get tradeId state.rearmedOrder ≠ orderId then (refused, state)
  else (refused + 1,
    { rearmRejects := Dict.set tradeId (refused + 1) state.rearmRejects
      rearmedOrder := Dict.pop tradeId state.rearmedOrder })

/-- The streak is over. -/
def StopState.forget (state : StopState) (tradeId : Nat) : StopState where
  rearmRejects := Dict.pop tradeId state.rearmRejects
  rearmedOrder := Dict.pop tradeId state.rearmedOrder

/-- What a call comes to. -/
inductive GuardVerdict where
  | standing
  | exitPending
  | filledPending
  | gaveUp
  /-- A stop of this quantity is sent. -/
  | rearmed (quantity : ℚ)
  deriving DecidableEq

section Guard

variable (settings : Settings) (request : Request) (maxRejects : Nat) (book : Dict String Order) (trade : Trade)

/-- `_exit_died_unfilled`. -/
def exitDiedUnfilled : Bool :=
  match (trade.exitOrderId.filter fun id => id ≠ exitPending).bind fun id => Dict.get id book with
  | some exit => exit.isDead && exit.filled ≤ 0
  | none =>
      let orders := book.map Prod.snd
      !claimInFlight settings trade request.now && (adoptableExit settings request trade orders).isNone &&
        (unverifiedWorkingExits settings request trade orders).isEmpty && (absentExitDead trade).isSome

/-- The recorded stop, where the book lists it. -/
def recordedStop : Option Order := (trade.slOrderId.filter fun id => id ≠ "").bind fun id => Dict.get id book

/-- An exit of the position went out and may still close it. -/
def exitHolds : Bool := (trade.exitOrderId.any fun id => id ≠ "") && !exitDiedUnfilled settings request book trade

/-- `_guard_one`. -/
def guardOne (state : StopState) : GuardVerdict × StopState :=
  let order := recordedStop book trade
  if order.any fun o => o.status ∈ standingStatuses then
    (.standing, if Dict.get trade.id state.rearmedOrder = trade.slOrderId then state.forget trade.id else state)
  else if exitHolds settings request book trade then (.exitPending, state)
  else if order.any Order.isFilled then (.filledPending, state)
  else
    let (streak, state) :=
      if order.any fun o => o.status = "REJECTED" then noteRearmRejected state trade.id trade.slOrderId
      else (0, state.forget trade.id)
    if maxRejects ≤ streak then (.gaveUp, state) else (.rearmed trade.quantity, state)

/-! ## Beside which stops one is sent -/

/-- A stop of this quantity may be sent: the recorded one is not listed, or it is dead, and the quantity is no more than
it has left open. -/
def MayRearm (quantity : ℚ) : Prop :=
  ∀ order, recordedStop book trade = some order → order.isDead = true ∧ quantity ≤ trade.quantity - order.filled

/-- The streak that counts against another stop. -/
def streak (state : StopState) : Nat :=
  if (recordedStop book trade).any fun o => o.status = "REJECTED" then
    (noteRearmRejected state trade.id trade.slOrderId).1
  else 0

/-- What the guard is told of a listed stop settles it: it stands or filled, or it died with nothing filled. -/
def Settled (order : Order) : Prop :=
  order.status ∈ standingStatuses ∨ order.isFilled = true ∨ (order.isDead = true ∧ order.filled ≤ 0)

variable {settings request maxRejects book trade} {state : StopState} {quantity : ℚ}

/-- A stop is sent when nothing keeps the guard from it, and for the whole position. -/
theorem guardOne_rearms : (guardOne settings request maxRejects book trade state).1 = .rearmed quantity ↔
    quantity = trade.quantity ∧ exitHolds settings request book trade = false ∧ streak book trade state < maxRejects ∧
      ∀ order, recordedStop book trade = some order → order.status ∉ standingStatuses ∧ order.isFilled = false := by
  unfold guardOne streak
  generalize exitHolds settings request book trade = holds
  cases recordedStop book trade with
  | none =>
    cases holds with
    | true => simp
    | false => by_cases few : maxRejects = 0 <;> simp [few, Nat.pos_iff_ne_zero, eq_comm (a := quantity)]
  | some order =>
    by_cases stands : order.status ∈ standingStatuses
    · simp [stands]
    · cases holds with
      | true => simp [stands]
      | false =>
        cases filled : order.isFilled with
        | true => simp [stands, filled]
        | false =>
          by_cases refused : order.status = "REJECTED"
          · have refused := eq_true refused
            by_cases few : maxRejects ≤ (noteRearmRejected state trade.id trade.slOrderId).1
            · simp [stands, filled, refused, few, not_lt.mpr few]
            · simp [stands, filled, refused, few, not_le.mp few, eq_comm (a := quantity)]
          · by_cases few : maxRejects = 0 <;>
              simp [stands, filled, refused, few, Nat.pos_iff_ne_zero, eq_comm (a := quantity)]

/-- Another stop is sent beside none that may still fill, and for no more than is left open, exactly where the guard is
kept from it or what it is told of the recorded stop settles it. -/
theorem rearms_beside_dead_iff (settings : Settings) (request : Request) (maxRejects : Nat)
    (book : Dict String Order) (trade : Trade) (state : StopState) :
    (∀ quantity, (guardOne settings request maxRejects book trade state).1 = .rearmed quantity →
      MayRearm book trade quantity) ↔
      exitHolds settings request book trade = true ∨ maxRejects ≤ streak book trade state ∨
        ∀ order, recordedStop book trade = some order → Settled order := by
  constructor
  · intro safe
    by_contra free
    push Not at free
    obtain ⟨holds, few, order, listed, unsettled⟩ := free
    have open_ : ∀ o, recordedStop book trade = some o → o.status ∉ standingStatuses ∧ o.isFilled = false := by
      intro o isListed
      obtain rfl := Option.some.inj (listed.symm.trans isListed)
      exact ⟨fun stands => unsettled (.inl stands), Bool.eq_false_iff.mpr fun filled => unsettled (.inr (.inl filled))⟩
    obtain ⟨dead, most⟩ := safe trade.quantity
        (guardOne_rearms.mpr ⟨rfl, Bool.eq_false_iff.mpr holds, few, open_⟩) order listed
    exact unsettled (.inr (.inr ⟨dead, by linarith⟩))
  · intro kept quantity rearms order listed
    obtain ⟨rfl, holds, few, open_⟩ := guardOne_rearms.mp rearms
    rcases kept with kept | kept | settled
    · rw [holds] at kept
      cases kept
    · omega
    · rcases settled order listed with stands | filled | ⟨dead, nothing⟩
      · exact absurd stands (open_ order listed).1
      · rw [(open_ order listed).2] at filled
        cases filled
      · exact ⟨dead, by linarith⟩

end Guard

/-! ## A stop on its way out -/

def cancelPending : Order where
  id := "S1"
  symbol := "SBIN"
  side := .sell
  quantity := 75
  orderType := "SL-M"
  status := "CANCEL PENDING"

def longSbin : Trade where
  id := 1
  symbol := "SBIN"
  direction := .long
  quantity := 75
  stopLoss := 95
  slOrderId := some "S1"

def guardSettings : Settings where
  stopLimit := false
  exitIfNoStop := false
  exitRejectRetries := 0
  claimInflightSeconds := 120
  adoptClockSkewSeconds := 5

def guardRequest : Request where
  exitPrice := 0
  reason := ""
  now := 0
  exchange := "NSE"
  product := "MIS"
  exitTag := fun _ => ""
  clientId := fun _ => none
  legacyTag := ""
  elsewhere := []

/-- A stop that waits for its cancel can still fill; the guard sends another of the whole quantity beside it. -/
theorem guardOne_beside_cancelPending :
    (guardOne guardSettings guardRequest 3 [("S1", cancelPending)] longSbin {}).1 = .rearmed 75 ∧
      ¬MayRearm [("S1", cancelPending)] longSbin 75 := by
  refine ⟨by decide +kernel, fun may => ?_⟩
  have dead := (may cancelPending (by decide +kernel)).1
  exact absurd dead (by decide +kernel)

end AdvanceTrading.LiveExit
