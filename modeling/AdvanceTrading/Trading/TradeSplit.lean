import AdvanceTrading.Execution.TriggerEngine
import AdvanceTrading.Misc.Rows
import Mathlib.Data.List.Nodup

/-!
# Partial closes of one position

Model of `app/trading/trade_split.py:45-76` with what acts on the same rows: the
close of a position (`app/trading/position_monitor.py:1043-1054`), the arming of
an exit (`app/execution/resting_book.py:180-236`) and the statuses the trigger
engine and the user give a waiting exit (`app/execution/trigger_engine.py:173-196`).

The table holds one position: its row and every row split off it. A request
loads a row first; what it does next, it does with the row as loaded. A split's
claim holds the row until its commit, so the claim and what follows it in the
transaction are one statement. `opened` is no column: it is the quantity the row
was stored with.
-/

namespace AdvanceTrading.TradeSplit

open Rows
open TriggerEngine (Status)

/-- What a split reads and writes of a `TradeRecord`: `splitFrom` and `marks` are keys of
`group_meta`. -/
structure Trade where
  id : Nat
  quantity : ℚ
  exitTime : Option Int := none
  splitFrom : Option Nat := none
  marks : List (String × String) := []
  opened : ℚ
  deriving DecidableEq, Repr

/-- A `PaperRestingOrderRecord` with purpose EXIT, as far as a split reads and writes it. -/
structure ExitOrder where
  id : Nat
  tradeId : Nat
  quantity : ℚ
  status : Status
  deriving DecidableEq, Repr

/-- The stored rows. -/
structure Shared where
  trades : List Trade
  orders : List ExitOrder
  deriving DecidableEq, Repr

/-- `meta.update(marks)`. -/
def updateMarks (marks new : List (String × String)) : List (String × String) :=
  (marks.filter fun m => new.all fun n => n.1 ≠ m.1) ++ new

/-- The row is still as the split loaded it: open, with the quantity held then. -/
def stillHeld (loaded row : Trade) : Bool :=
  row.id = loaded.id ∧ row.exitTime = none ∧ row.quantity = loaded.quantity

/-- The row the split stores. -/
def partOf (loaded : Trade) (quantity : ℚ) (partId : Nat) (marks : List (String × String)) : Trade where
  id := partId
  quantity := quantity
  splitFrom := some loaded.id
  marks := updateMarks loaded.marks marks
  opened := quantity

/-- What a claimed split leaves stored. -/
def splitRows (s : Shared) (loaded : Trade) (rest : ℚ) (part : Trade) : Shared where
  trades := setWhere (stillHeld loaded) (fun row => { row with quantity := rest }) s.trades ++ [part]
  orders := setWhere (fun o => o.tradeId = loaded.id ∧ o.status = .resting)
    (fun o => { o with quantity := rest }) s.orders

/-- `split_off` (`trade_split.py:45-76`). -/
def splitOff (s : Shared) (loaded : Trade) (quantity : ℚ) (partId : Nat)
    (marks : List (String × String)) : Except String (Shared × Trade) :=
  if loaded.exitTime.isSome then .error "This position is already closed."
  else if ¬ (0 < quantity ∧ quantity < loaded.quantity) then
    .error "Only part of the open quantity can be split off."
  else if s.trades.countP (stillHeld loaded) ≠ 1 then
    .error ("The position changed at the same moment (another exit or fill). " ++
      "Nothing was closed - refresh and try again.")
  else
    let part := partOf loaded quantity partId marks
    .ok (splitRows s loaded (loaded.quantity - quantity) part, part)

/-- Where a request stands. -/
inductive Point where
  | idle
  /-- `session.get` loaded the row. -/
  | loaded (row : Trade)
  /-- The split was committed: its part is to be closed. -/
  | split (part : Trade)
  | refused (why : String)
  | closed
  | armed
  deriving DecidableEq

/-- The next statement of a request; ids are the table's next ones. -/
inductive Action where
  | load (tradeId : Nat)
  | split (quantity : ℚ) (partId : Nat) (marks : List (String × String))
  | close (now : Int)
  | arm (orderId : Nat)
  | stop

/-- A status the engine or the user gives a waiting exit. -/
inductive OrderEvent where
  /-- `_claim`: RESTING to FIRING. -/
  | fire (orderId : Nat)
  /-- `_back_to_waiting`. -/
  | wait (orderId : Nat)
  /-- `_finish`, `cancel`, `cancel_for_trade`. -/
  | finish (orderId : Nat) (status : Status)

/-- An id no row has or names. -/
def Fresh (s : Shared) (id : Nat) : Prop :=
  (∀ r ∈ s.trades, r.id ≠ id ∧ r.splitFrom ≠ some id) ∧ ∀ o ∈ s.orders, o.tradeId ≠ id

instance (s : Shared) (id : Nat) : Decidable (Fresh s id) := inferInstanceAs (Decidable (_ ∧ _))

/-- `close_position`'s claim of a row as loaded (`position_monitor.py:1049-1054`). -/
def close (s : Shared) (row : Trade) (now : Int) : Shared × Point :=
  let isOpen := fun r : Trade => decide (r.id = row.id ∧ r.exitTime = none)
  if row.exitTime.isSome then (s, .refused "Position is already closed")
  else if s.trades.countP isOpen ≠ 1 then
    (s, .refused "Position was closed at the same moment by another exit - this close was not booked")
  else ({ s with trades := setWhere isOpen (fun r => { r with exitTime := some now }) s.trades }, .closed)

/-- `arm_exit` of a row as loaded, its other checks passed. -/
def arm (s : Shared) (row : Trade) (orderId : Nat) : Shared × Point :=
  if row.exitTime.isSome then (s, .refused "This position is already closed.")
  else ({ s with orders := s.orders ++ [⟨orderId, row.id, row.quantity, .resting⟩] }, .armed)

/-- One statement of a request: what it leaves stored, and where it leaves the request. -/
def statement (s : Shared) (point : Point) (action : Action) : Option (Shared × Point) :=
  match point, action with
  | _, .stop => some (s, .idle)
  | .idle, .load tradeId => (s.trades.find? fun r => r.id = tradeId).map fun r => (s, .loaded r)
  | .loaded row, .split quantity partId marks =>
      if Fresh s partId then
        match splitOff s row quantity partId marks with
        | .ok (after, part) => some (after, .split part)
        | .error why => some (s, .refused why)
      else none
  | .loaded row, .close now => some (close s row now)
  | .split part, .close now => some (close s part now)
  | .loaded row, .arm orderId =>
      if ∀ o ∈ s.orders, o.id ≠ orderId then some (arm s row orderId) else none
  | _, _ => none

/-- A status written to a waiting exit; no status write touches its quantity. -/
def orderEvent (s : Shared) : OrderEvent → Option Shared
  | .fire id =>
      some { s with
        orders := setWhere (fun o => o.id = id ∧ o.status = .resting)
          (fun o => { o with status := .firing }) s.orders }
  | .wait id =>
      some { s with orders := setWhere (fun o => o.id = id) (fun o => { o with status := .resting }) s.orders }
  | .finish id status =>
      if status = .resting ∨ status = .firing then none
      else some { s with orders := setWhere (fun o => o.id = id) (fun o => { o with status := status }) s.orders }

/-- Any number of requests on one position, and the engine's statuses. -/
def desk (n : Nat) : Machine (Procs Shared Point n) (ProcEvent n Action OrderEvent) :=
  Procs.interleave statement orderEvent n

/-! ## What holds -/

/-- What the rows split off a row were stored with. -/
def partsOpened (s : Shared) (id : Nat) : ℚ :=
  (s.trades.map fun r => if r.splitFrom = some id then r.opened else 0).sum

/-- Quantities are positive and add up to the position's, and each row holds what it was stored
with less what its parts took. -/
structure Conserved (whole : ℚ) (s : Shared) : Prop where
  positive : ∀ r ∈ s.trades, 0 < r.quantity
  total : (s.trades.map Trade.quantity).sum = whole
  parts : ∀ r ∈ s.trades, r.opened = r.quantity + partsOpened s r.id

/-- Every exit order that waits has its row's quantity. -/
def OrdersFollow (s : Shared) : Prop :=
  ∀ o ∈ s.orders, o.status = .resting → ∀ r ∈ s.trades, r.id = o.tradeId → o.quantity = r.quantity

/-- The quantity is the stored one of the row. -/
def Current (s : Shared) (tradeId : Nat) (quantity : ℚ) : Prop :=
  ∀ r ∈ s.trades, r.id = tradeId → quantity = r.quantity

/-- An arming of an open position finds the quantity it loaded. -/
def ArmsCurrent (s : Shared) : Point → Action → Prop
  | .loaded row, .arm _ => row.exitTime = none → Current s row.id row.quantity
  | _, _ => True

/-- No split has passed an exit order by when it is entered as waiting: since an arming loaded
the position, or since an order put back to waiting left it. -/
def NotPassedBy {n : Nat} (w : Procs Shared Point n) : ProcEvent n Action OrderEvent → Prop
  | .act who action => ArmsCurrent w.shared (w.point who) action
  | .outside (.wait id) => ∀ o ∈ w.shared.orders, o.id = id → Current w.shared o.tradeId o.quantity
  | _ => True

instance (s : Shared) (tradeId : Nat) (quantity : ℚ) : Decidable (Current s tradeId quantity) :=
  inferInstanceAs (Decidable (∀ r ∈ s.trades, _))

instance (s : Shared) : Decidable (OrdersFollow s) :=
  inferInstanceAs (Decidable (∀ o ∈ s.orders, o.status = .resting → ∀ r ∈ s.trades, _))

instance (s : Shared) : ∀ point action, Decidable (ArmsCurrent s point action)
  | .loaded row, .arm _ => inferInstanceAs (Decidable (row.exitTime = none → _))
  | .idle, _ | .split _, _ | .refused _, _ | .closed, _ | .armed, _ => isTrue trivial
  | .loaded _, .load _ | .loaded _, .split .. | .loaded _, .close _ | .loaded _, .stop => isTrue trivial

instance {n : Nat} (w : Procs Shared Point n) : ∀ event, Decidable (NotPassedBy w event)
  | .act who action => inferInstanceAs (Decidable (ArmsCurrent w.shared (w.point who) action))
  | .outside (.wait id) => inferInstanceAs (Decidable (∀ o ∈ w.shared.orders, o.id = id → _))
  | .outside (.fire _) | .outside (.finish ..) => isTrue trivial

/-! ## What a statement can do -/

variable {s t : Shared} {row : Trade} {whole : ℚ}

variable {marks : List (String × String)} {quantity : ℚ} {partId : Nat} {part : Trade}

/-- A claimed split found its one row as loaded. -/
theorem splitOff_ok (done : splitOff s row quantity partId marks = .ok (t, part)) :
    ∃ held, s.trades.filter (stillHeld row) = [held] ∧ 0 < quantity ∧ quantity < row.quantity ∧
      part = partOf row quantity partId marks ∧ t = splitRows s row (row.quantity - quantity) part := by
  unfold splitOff at done
  split at done
  · cases done
  split at done
  · cases done
  rename_i inside
  split at done
  · cases done
  rename_i one
  obtain ⟨rfl, rfl⟩ := Prod.mk.inj (Except.ok.inj done)
  rw [not_ne_iff, List.countP_eq_length_filter] at one
  obtain ⟨held, found⟩ := List.length_eq_one_iff.mp one
  obtain ⟨positive, below⟩ := not_not.mp inside
  exact ⟨held, found, positive, below, rfl, rfl⟩

/-- A close writes an exit time, or nothing. -/
theorem close_effect (s : Shared) (row : Trade) (now : Int) :
    (close s row now).1 = s ∨
      ∃ guard, (close s row now).1 =
        { s with trades := setWhere guard (fun r => { r with exitTime := some now }) s.trades } := by
  unfold close
  dsimp only
  split
  · exact .inl rfl
  · split
    · exact .inl rfl
    · exact .inr ⟨_, rfl⟩

variable {action : Action} {point : Point}

/-- A statement of a request leaves the rows, splits one, closes some or arms an exit. -/
theorem statement_effect {next : Point} (stepped : statement s point action = some (t, next)) :
    t = s ∨
    (∃ row quantity partId marks part, Fresh s partId ∧
      splitOff s row quantity partId marks = .ok (t, part)) ∨
    (∃ guard now, t = { s with trades := setWhere guard (fun r => { r with exitTime := some now }) s.trades }) ∨
    ∃ row orderId, point = .loaded row ∧ action = .arm orderId ∧ row.exitTime = none ∧
      t = { s with orders := s.orders ++ [⟨orderId, row.id, row.quantity, .resting⟩] } := by
  unfold statement at stepped
  split at stepped
  · cases stepped
    exact .inl rfl
  · obtain ⟨r, -, same⟩ := Option.map_eq_some_iff.mp stepped
    cases same
    exact .inl rfl
  · split at stepped
    · rename_i fresh
      split at stepped
      · rename_i done
        cases stepped
        exact .inr (.inl ⟨_, _, _, _, _, fresh, done⟩)
      · cases stepped
        exact .inl rfl
    · cases stepped
  · rename_i row now
    obtain same | ⟨guard, closed⟩ := close_effect s row now
    · rw [Option.some.inj stepped] at same
      exact .inl same
    · rw [Option.some.inj stepped] at closed
      exact .inr (.inr (.inl ⟨guard, now, closed⟩))
  · rename_i part now
    obtain same | ⟨guard, closed⟩ := close_effect s part now
    · rw [Option.some.inj stepped] at same
      exact .inl same
    · rw [Option.some.inj stepped] at closed
      exact .inr (.inr (.inl ⟨guard, now, closed⟩))
  · split at stepped
    · unfold arm at stepped
      split at stepped
      · cases stepped
        exact .inl rfl
      · rename_i open_
        cases stepped
        exact .inr (.inr (.inr ⟨_, _, rfl, rfl, Option.not_isSome_iff_eq_none.mp open_, rfl⟩))
    · cases stepped
  · cases stepped

/-- A refused split leaves the rows. -/
theorem split_refused {why : String}
    (stepped : statement s point (.split quantity partId marks) = some (t, .refused why)) :
    t = s := by
  unfold statement at stepped
  split at stepped <;> try contradiction
  split at stepped
  · split at stepped
    · cases stepped
    · cases stepped
      rfl
  · cases stepped

/-! ## The rows conserve -/

/-- What conservation reads of a row. -/
def Trade.held (r : Trade) : Nat × ℚ × Option Nat × ℚ := (r.id, r.quantity, r.splitFrom, r.opened)

/-- The rows add up, and no two have one id. -/
structure Sound (whole : ℚ) (s : Shared) : Prop where
  conserved : Conserved whole s
  ids : (s.trades.map Trade.id).Nodup

theorem partsOpened_eq (s : Shared) (id : Nat) :
    partsOpened s id =
      ((s.trades.map Trade.held).map fun h => if h.2.2.1 = some id then h.2.2.2 else 0).sum := by
  unfold partsOpened
  rw [List.map_map]
  rfl

/-- Rows that hold the same are sound alike. -/
theorem Sound.congr (sound : Sound whole s)
    (same : t.trades.map Trade.held = s.trades.map Trade.held) : Sound whole t := by
  have held : ∀ r ∈ t.trades, ∃ q ∈ s.trades, q.held = r.held := by
    intro r mem
    have image := List.mem_map_of_mem (f := Trade.held) mem
    rw [same] at image
    exact List.mem_map.mp image
  have parts : ∀ id, partsOpened t id = partsOpened s id := by
    intro id
    rw [partsOpened_eq, partsOpened_eq, same]
  have columns : ∀ {r q : Trade}, q.held = r.held →
      q.id = r.id ∧ q.quantity = r.quantity ∧ q.opened = r.opened := by
    intro r q eq
    simp only [Trade.held, Prod.mk.injEq] at eq
    exact ⟨eq.1, eq.2.1, eq.2.2.2⟩
  refine ⟨⟨?_, ?_, ?_⟩, ?_⟩
  · intro r mem
    obtain ⟨q, q_mem, eq⟩ := held r mem
    obtain ⟨-, quantity, -⟩ := columns eq
    exact quantity ▸ sound.conserved.positive q q_mem
  · have column := congrArg (List.map fun h => h.2.1) same
    rw [List.map_map, List.map_map] at column
    exact (congrArg List.sum column).trans sound.conserved.total
  · intro r mem
    obtain ⟨q, q_mem, eq⟩ := held r mem
    obtain ⟨id, quantity, opened⟩ := columns eq
    rw [parts, ← id, ← quantity, ← opened]
    exact sound.conserved.parts q q_mem
  · have column := congrArg (List.map fun h => h.1) same
    rw [List.map_map, List.map_map] at column
    exact column ▸ sound.ids

/-- The row a split claims is the only one with its id. -/
theorem Sound.claimed (sound : Sound whole s) {held r : Trade}
    (one : s.trades.filter (stillHeld row) = [held]) (mem : r ∈ s.trades) (same : r.id = row.id) :
    r = held ∧ stillHeld row r = true := by
  have found : held ∈ s.trades.filter (stillHeld row) := by
    rw [one]
    exact List.mem_singleton_self held
  obtain ⟨held_mem, still⟩ := List.mem_filter.mp found
  have held_id : held.id = row.id := (of_decide_eq_true still).1
  have eq : r = held := List.inj_on_of_nodup_map sound.ids mem held_mem (same.trans held_id.symm)
  exact ⟨eq, eq ▸ still⟩

theorem partsOpened_split {rest : ℚ} (id : Nat) :
    partsOpened (splitRows s row rest (partOf row quantity partId marks)) id =
      partsOpened s id + if row.id = id then quantity else 0 := by
  unfold partsOpened splitRows
  dsimp only
  rw [List.map_append, List.sum_append, map_setWhere]
  · simp [partOf]
  · exact fun _ => rfl

/-- A claimed split keeps the rows sound. -/
theorem Sound.split (sound : Sound whole s) (fresh : Fresh s partId)
    (done : splitOff s row quantity partId marks = .ok (t, part)) : Sound whole t := by
  obtain ⟨held, one, positive, below, rfl, rfl⟩ := splitOff_ok done
  have found : held ∈ s.trades.filter (stillHeld row) := by
    rw [one]
    exact List.mem_singleton_self held
  obtain ⟨held_mem, still⟩ := List.mem_filter.mp found
  obtain ⟨held_id, -, held_quantity⟩ := of_decide_eq_true still
  have other_id : row.id ≠ partId := held_id ▸ (fresh.1 held held_mem).1
  refine ⟨⟨?_, ?_, ?_⟩, ?_⟩
  · intro r mem
    obtain old | new := List.mem_append.mp mem
    · obtain ⟨q, q_mem, ⟨-, rfl⟩ | ⟨-, rfl⟩⟩ := mem_setWhere old
      · exact sub_pos.mpr below
      · exact sound.conserved.positive r q_mem
    · rw [List.mem_singleton.mp new]
      exact positive
  · have sum := sum_setWhere (c := Trade.quantity)
      (w := fun r : Trade => { r with quantity := row.quantity - quantity }) one
    show ((setWhere _ _ s.trades ++ [_]).map Trade.quantity).sum = whole
    rw [List.map_append, List.sum_append, sum, sound.conserved.total, held_quantity]
    simp [partOf]
  · intro r mem
    rw [partsOpened_split]
    obtain old | new := List.mem_append.mp mem
    · obtain ⟨q, q_mem, ⟨met, rfl⟩ | ⟨unmet, rfl⟩⟩ := mem_setWhere old
      · obtain ⟨id, -, same⟩ := of_decide_eq_true met
        have equation := sound.conserved.parts q q_mem
        show q.opened = row.quantity - quantity + (partsOpened s q.id + _)
        rw [if_pos id.symm, equation, same]
        ring
      · have apart : row.id ≠ r.id := by
          intro same
          have claimed := (sound.claimed one q_mem same.symm).2
          rw [claimed] at unmet
          cases unmet
        rw [if_neg apart, add_zero]
        exact sound.conserved.parts r q_mem
    · rw [List.mem_singleton.mp new]
      have unnamed : partsOpened s partId = 0 := by
        apply List.sum_eq_zero
        intro x x_mem
        obtain ⟨r, r_mem, rfl⟩ := List.mem_map.mp x_mem
        exact if_neg (fresh.1 r r_mem).2
      show quantity = quantity + (partsOpened s partId + if row.id = partId then quantity else 0)
      rw [unnamed, if_neg other_id]
      ring
  · show ((setWhere _ _ s.trades ++ [_]).map Trade.id).Nodup
    rw [List.map_append, map_setWhere]
    · refine List.Nodup.append sound.ids (List.nodup_singleton _) ?_
      intro id old new
      obtain ⟨r, r_mem, rfl⟩ := List.mem_map.mp old
      exact (fresh.1 r r_mem).1 (List.mem_singleton.mp new)
    · exact fun _ => rfl

/-- A close keeps the rows sound. -/
theorem Sound.closed (sound : Sound whole s) (guard : Trade → Bool) (now : Int) :
    Sound whole { s with trades := setWhere guard (fun r => { r with exitTime := some now }) s.trades } :=
  sound.congr (map_setWhere fun _ => rfl)

theorem Sound.statement (sound : Sound whole s) {next : Point}
    (stepped : TradeSplit.statement s point action = some (t, next)) : Sound whole t := by
  obtain rfl | ⟨row, quantity, partId, marks, part, fresh, done⟩ | ⟨guard, now, rfl⟩ |
    ⟨row, orderId, -, -, -, rfl⟩ := statement_effect stepped
  · exact sound
  · exact sound.split fresh done
  · exact sound.closed guard now
  · exact sound.congr rfl

/-- No status of an order touches the rows. -/
theorem orderEvent_trades {event : OrderEvent} (stepped : orderEvent s event = some t) :
    t.trades = s.trades := by
  cases event with
  | fire id =>
    cases stepped
    rfl
  | wait id =>
    cases stepped
    rfl
  | finish id status =>
    unfold orderEvent at stepped
    dsimp only at stepped
    split at stepped
    · cases stepped
    · cases stepped
      rfl

/-! ## The waiting exits follow -/

section

variable (follow : OrdersFollow s)
include follow

/-- A claimed split takes the exits that wait along. -/
theorem OrdersFollow.split (sound : Sound whole s) (fresh : Fresh s partId)
    (done : splitOff s row quantity partId marks = .ok (t, part)) : OrdersFollow t := by
  obtain ⟨held, one, -, -, rfl, rfl⟩ := splitOff_ok done
  intro o o_mem waits r r_mem same
  obtain ⟨q, q_mem, ⟨met, rfl⟩ | ⟨unmet, rfl⟩⟩ := mem_setWhere o_mem
  · obtain ⟨of_row, -⟩ := of_decide_eq_true met
    obtain old | new := List.mem_append.mp r_mem
    · obtain ⟨x, x_mem, ⟨-, rfl⟩ | ⟨unclaimed, rfl⟩⟩ := mem_setWhere old
      · rfl
      · have claimed := (sound.claimed one x_mem (same.trans of_row)).2
        rw [claimed] at unclaimed
        cases unclaimed
    · rw [List.mem_singleton.mp new] at same
      exact absurd same.symm (fresh.2 q q_mem)
  · have apart : o.tradeId ≠ row.id := fun of_row => of_decide_eq_false unmet ⟨of_row, waits⟩
    obtain old | new := List.mem_append.mp r_mem
    · obtain ⟨x, x_mem, ⟨claimed, rfl⟩ | ⟨-, rfl⟩⟩ := mem_setWhere old
      · exact absurd (same.symm.trans (of_decide_eq_true claimed).1) apart
      · exact follow o q_mem waits r x_mem same
    · rw [List.mem_singleton.mp new] at same
      exact absurd same.symm (fresh.2 o q_mem)

theorem OrdersFollow.closed (guard : Trade → Bool) (now : Int) :
    OrdersFollow { s with trades := setWhere guard (fun r => { r with exitTime := some now }) s.trades } := by
  intro o o_mem waits r r_mem same
  obtain ⟨q, q_mem, ⟨-, rfl⟩ | ⟨-, rfl⟩⟩ := mem_setWhere r_mem
  · exact follow o o_mem waits q q_mem same
  · exact follow o o_mem waits r q_mem same

/-- One more waiting exit follows when its quantity is the row's. -/
theorem ordersFollow_arm (orderId tradeId : Nat) (quantity : ℚ) :
    OrdersFollow { s with orders := s.orders ++ [⟨orderId, tradeId, quantity, .resting⟩] } ↔
      Current s tradeId quantity := by
  constructor
  · intro after r r_mem same
    exact after ⟨orderId, tradeId, quantity, .resting⟩ (by simp) rfl r r_mem same
  · intro current o o_mem waits r r_mem same
    obtain old | new := List.mem_append.mp o_mem
    · exact follow o old waits r r_mem same
    · cases List.mem_singleton.mp new
      exact current r r_mem same

omit follow in
/-- Orders put to another status than waiting leave the waiting ones as they follow. -/
theorem OrdersFollow.left (follow : OrdersFollow s) (guard : ExitOrder → Bool) {status : Status}
    (leaves : status ≠ .resting) :
    OrdersFollow { s with orders := setWhere guard (fun o => { o with status := status }) s.orders } := by
  intro o o_mem waits r r_mem same
  obtain ⟨q, q_mem, ⟨-, rfl⟩ | ⟨-, rfl⟩⟩ := mem_setWhere o_mem
  · exact absurd waits leaves
  · exact follow o q_mem waits r r_mem same

/-- An order put back to waiting follows when it still has its row's quantity. -/
theorem ordersFollow_wait (id : Nat) :
    OrdersFollow { s with
        orders := setWhere (fun o => o.id = id) (fun o => { o with status := .resting }) s.orders } ↔
      ∀ o ∈ s.orders, o.id = id → Current s o.tradeId o.quantity := by
  constructor
  · intro after o o_mem named r r_mem same
    have written : ({ o with status := .resting } : ExitOrder) ∈
        setWhere (fun o : ExitOrder => decide (o.id = id)) (fun o => { o with status := .resting })
          s.orders :=
      List.mem_map.mpr ⟨o, o_mem, if_pos (decide_eq_true named)⟩
    exact after _ written rfl r r_mem same
  · intro current o o_mem waits r r_mem same
    obtain ⟨q, q_mem, ⟨named, rfl⟩ | ⟨-, rfl⟩⟩ := mem_setWhere o_mem
    · exact current q q_mem (of_decide_eq_true named) r r_mem same
    · exact follow o q_mem waits r r_mem same

/-- A request's statement keeps the waiting exits with their rows, but for an arming that a
split passed by. -/
theorem statement_follows (sound : Sound whole s) {next : Point}
    (stepped : statement s point action = some (t, next)) :
    OrdersFollow t ↔ ArmsCurrent s point action := by
  by_cases arming : ∃ orderId row, action = .arm orderId ∧ point = .loaded row
  · obtain ⟨orderId, row, rfl, rfl⟩ := arming
    unfold statement at stepped
    unfold ArmsCurrent
    dsimp only at stepped
    split at stepped
    · unfold arm at stepped
      split at stepped
      · rename_i ended
        cases stepped
        have closed : row.exitTime ≠ none := Option.isSome_iff_ne_none.mp ended
        exact iff_of_true follow fun open_ => absurd open_ closed
      · rename_i open_
        cases stepped
        rw [ordersFollow_arm follow]
        exact ⟨fun current _ => current, fun current => current (Option.not_isSome_iff_eq_none.mp open_)⟩
    · cases stepped
  · have trivially : ArmsCurrent s point action := by
      unfold ArmsCurrent
      split
      · exact absurd ⟨_, _, rfl, rfl⟩ arming
      · trivial
    refine iff_of_true ?_ trivially
    obtain rfl | ⟨row, quantity, partId, marks, part, fresh, done⟩ | ⟨guard, now, rfl⟩ |
      ⟨row, orderId, loaded, armed, -, -⟩ := statement_effect stepped
    · exact follow
    · exact follow.split sound fresh done
    · exact follow.closed guard now
    · exact absurd ⟨orderId, row, armed, loaded⟩ arming

end

/-! ## Runs -/

section Run

variable {n : Nat} {w u : Procs Shared Point n} {event : ProcEvent n Action OrderEvent}

theorem desk_sound (sound : Sound whole w.shared) (stepped : (desk n).step w event = some u) :
    Sound whole u.shared := by
  cases event with
  | act who action =>
    obtain ⟨shared, next, ran, rfl⟩ := Procs.act_eq stepped
    exact sound.statement ran
  | outside event =>
    obtain ⟨shared, ran, rfl⟩ := Procs.outside_eq stepped
    exact sound.congr (congrArg (List.map Trade.held) (orderEvent_trades ran))

/-- A step keeps the waiting exits with their rows exactly when no split passed an exit by. -/
theorem desk_follows (follow : OrdersFollow w.shared) (sound : Sound whole w.shared)
    (stepped : (desk n).step w event = some u) : OrdersFollow u.shared ↔ NotPassedBy w event := by
  cases event with
  | act who action =>
    obtain ⟨shared, next, ran, rfl⟩ := Procs.act_eq stepped
    exact statement_follows follow sound ran
  | outside event =>
    obtain ⟨shared, ran, rfl⟩ := Procs.outside_eq stepped
    cases event with
    | fire id =>
      cases ran
      exact iff_of_true (follow.left _ (by decide)) trivial
    | wait id =>
      cases ran
      exact ordersFollow_wait follow id
    | finish id status =>
      unfold orderEvent at ran
      dsimp only at ran
      split at ran
      · cases ran
      · rename_i other
        cases ran
        exact iff_of_true (follow.left _ fun waits => other (.inl waits)) trivial

end Run

/-- An open position no part of which was split off yet, with its waiting exits. -/
structure Opened (row : Trade) (orders : List ExitOrder) : Prop where
  positive : 0 < row.quantity
  stored : row.opened = row.quantity
  own : row.splitFrom ≠ some row.id
  follow : OrdersFollow ⟨[row], orders⟩

/-- The desk before any request. -/
def opening (n : Nat) (row : Trade) (orders : List ExitOrder) : Procs Shared Point n :=
  ⟨⟨[row], orders⟩, fun _ => .idle⟩

theorem Opened.sound {orders : List ExitOrder} (start : Opened row orders) :
    Sound row.quantity ⟨[row], orders⟩ := by
  refine ⟨⟨?_, ?_, ?_⟩, List.nodup_singleton _⟩
  · intro r mem
    rw [List.mem_singleton.mp mem]
    exact start.positive
  · simp
  · intro r mem
    rw [List.mem_singleton.mp mem, start.stored]
    simp [partsOpened, start.own]

/-- Splits conserve the position's quantity in every run, and its waiting exits follow it as long
as no split passes one by; a refused split leaves the rows. -/
theorem splits_conserve {n : Nat} {row : Trade} {orders : List ExitOrder}
    {events : List (ProcEvent n Action OrderEvent)} {w : Procs Shared Point n}
    (start : Opened row orders) (meets : (desk n).Meets NotPassedBy (opening n row orders) events)
    (ran : (desk n).run (opening n row orders) events = some w) :
    Conserved row.quantity w.shared ∧ OrdersFollow w.shared ∧
      ∀ event u, (desk n).step w event = some u →
        Conserved row.quantity u.shared ∧ (OrdersFollow u.shared ↔ NotPassedBy w event) ∧
          ∀ who quantity partId marks why, event = .act who (.split quantity partId marks) →
            u.point who = .refused why → u.shared = w.shared := by
  have preserves : ∀ s event t, Sound row.quantity s.shared ∧ OrdersFollow s.shared →
      NotPassedBy s event → (desk n).step s event = some t →
      Sound row.quantity t.shared ∧ OrdersFollow t.shared := by
    rintro s event t ⟨sound, follow⟩ passed stepped
    exact ⟨desk_sound sound stepped, (desk_follows follow sound stepped).mpr passed⟩
  obtain ⟨sound, follow⟩ := (desk n).run_invariant preserves ⟨start.sound, start.follow⟩ meets ran
  refine ⟨sound.conserved, follow, ?_⟩
  intro event u stepped
  refine ⟨(desk_sound sound stepped).conserved, desk_follows follow sound stepped, ?_⟩
  rintro who quantity partId marks why rfl refused
  obtain ⟨shared, next, split, rfl⟩ := Procs.act_eq stepped
  rw [Procs.move_self] at refused
  subst refused
  exact split_refused split

/-- Two lots of 75 with a stop armed on all of them. -/
def twoLots : Trade := { id := 1, quantity := 150, opened := 150 }

/-- The armed stop. -/
def armedStop : ExitOrder := ⟨7, 1, 150, .resting⟩

theorem twoLots_opened : Opened twoLots [armedStop] := ⟨by decide, rfl, by decide, by decide⟩

/-- Two requests load the position, one splits a lot off, the other is refused. -/
def racingSplits : List (ProcEvent 2 Action OrderEvent) :=
  [.act 0 (.load 1), .act 1 (.load 1), .act 0 (.split 75 2 []), .act 1 (.split 75 3 [])]

/-- Of two racing splits one takes its lot, and the stop is left with the other. -/
theorem racingSplits_conserve :
    ∃ w, (desk 2).run (opening 2 twoLots [armedStop]) racingSplits = some w ∧
      Conserved 150 w.shared ∧ OrdersFollow w.shared ∧ w.shared.orders = [⟨7, 1, 75, .resting⟩] := by
  have runs : ((desk 2).run (opening 2 twoLots [armedStop]) racingSplits).any
      (fun w => decide (w.shared.orders = [⟨7, 1, 75, .resting⟩])) = true := by decide +kernel
  obtain ⟨w, ran, orders⟩ := (Option.any_eq_true _ _).mp runs
  have meets : (desk 2).Meets NotPassedBy (opening 2 twoLots [armedStop]) racingSplits := by
    decide +kernel
  obtain ⟨conserved, follow, -⟩ := splits_conserve twoLots_opened meets ran
  exact ⟨w, ran, conserved, follow, of_decide_eq_true orders⟩

/-- The stop fires, a lot is split off before it is settled, and its exit does not go out. -/
def splitWhileFiring : List (ProcEvent 1 Action OrderEvent) :=
  [.outside (.fire 7), .act 0 (.load 1), .act 0 (.split 75 2 []), .outside (.wait 7)]

/-- The stop waits again with the quantity from before the split. -/
theorem splitWhileFiring_passes :
    Opened twoLots [armedStop] ∧ ∃ w, (desk 1).run (opening 1 twoLots [armedStop]) splitWhileFiring = some w ∧
      ¬ OrdersFollow w.shared := by
  have runs : ((desk 1).run (opening 1 twoLots [armedStop]) splitWhileFiring).any
      (fun w => decide (¬ OrdersFollow w.shared)) = true := by decide +kernel
  obtain ⟨w, ran, passed⟩ := (Option.any_eq_true _ _).mp runs
  exact ⟨twoLots_opened, w, ran, of_decide_eq_true passed⟩

end AdvanceTrading.TradeSplit
