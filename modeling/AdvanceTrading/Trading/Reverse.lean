import AdvanceTrading.Misc.Processes
import AdvanceTrading.Misc.PyText
import Mathlib.Data.List.Infix

/-!
# Reverse

Model of `reverse` (`app/paper/fno_position_actions.py:182-274`): close a whole position and
open the opposite side with the same lots, under the client's reference. A call loads the
position's row and sizes the opposite order from it, looks for the order under the
reference, closes the position, and places the order. The close writes the reference's
marker into the exit reason in the transaction of its claim
(`app/trading/position_monitor.py:1049-1083`); a call that finds the marker places the
missing order. The ticket makes one order under its client reference. Meanwhile others
split the open row (`app/trading/trade_split.py:45-76`) or close it.
-/

namespace AdvanceTrading.Reverse

/-- What `reverse` reads and writes of the position's row. -/
structure Row where
  quantity : ℚ
  exitTime : Option Int := none
  exitReason : String := ""
  deriving DecidableEq

/-- The order of the opposite side. -/
structure Order where
  lots : ℤ
  deriving DecidableEq

/-- The position's row, the orders under the reference, and the rows the calls' own closes closed, as they
were stored. -/
structure Books where
  row : Row
  orders : List Order
  closed : List Row
  deriving DecidableEq

/-- The reversal of an open position, under the tag of a client reference. -/
structure Reversal where
  row : Row
  isOpen : row.exitTime = none
  /-- The units of a lot. -/
  unit : ℚ
  tag : String

/-- The open lots of a row (`lots_of`). -/
def Reversal.lotsOf (x : Reversal) (row : Row) : ℤ := Py.roundHalfEven (row.quantity / x.unit)

def Reversal.marker (x : Reversal) : String := "ref " ++ x.tag

def Reversal.reason (x : Reversal) (source : String) : String := "Reverse (" ++ source ++ ") " ++ x.marker

/-- `str.endswith`. -/
def endsWith (text suffix : String) : Bool := suffix.toList.isSuffixOf text.toList

/-- The row was closed under the reference. -/
def Reversal.resumed (x : Reversal) (row : Row) : Bool := row.exitTime.isSome && endsWith row.exitReason x.marker

/-- What the ticket makes of an order it does not know. -/
inductive Choice where
  | refused (reasons : List String)
  | placed

inductive Answer where
  | entered (order : Order)
  /-- The position is closed, the entry was refused. -/
  | exited (reasons : List String)
  | refused (why : String)
  | stopped

/-- Where a call stands; the row is as the call loaded it. -/
inductive Point where
  | idle
  | loaded (row : Row)
  /-- The position is to be closed. -/
  | exiting (row : Row)
  /-- The position was closed under the reference before the call loaded it. -/
  | resumed (row : Row)
  /-- The position was closed under the reference since. -/
  | placing (row : Row)
  | ended (answer : Answer)

/-- The next statement of a call. -/
inductive Action where
  | load
  /-- A check refuses: the holder, the contract, the ticket's own fields, the hedge warning, no price. -/
  | refuse (why : String)
  | lookup
  | close (now : Int) (source : String)
  | place (choice : Choice)
  | stop

/-- What others do to the position's row. -/
inductive Other where
  | split (quantity : ℚ)
  | close (now : Int) (reason : String)

/-- `close_position` under the reference; where another close was first, the marker in its reason decides. -/
def closeRow (x : Reversal) (s : Books) (row : Row) (now : Int) (source : String) : Books × Point :=
  if s.row.exitTime = none then
    ({ s with
        row := { s.row with exitTime := some now, exitReason := x.reason source }
        closed := s.closed ++ [s.row] },
      .placing row)
  else if endsWith s.row.exitReason x.marker then (s, .placing row)
  else (s, .ended (.refused "Position was closed at the same moment by another exit - this close was not booked"))

/-- `fno_ticket.place` of the order sized from the row as loaded. -/
def place (x : Reversal) (s : Books) (row : Row) (choice : Choice) : Books × Point :=
  match s.orders, choice with
  | order :: _, _ => (s, .ended (.entered order))
  | [], .refused reasons => (s, .ended (.exited reasons))
  | [], .placed => ({ s with orders := [⟨x.lotsOf row⟩] }, .ended (.entered ⟨x.lotsOf row⟩))

/-- The look-up of an earlier order, and the checks of the row. -/
def lookup (x : Reversal) (s : Books) (row : Row) : Point :=
  match s.orders with
  | order :: _ => .ended (.entered order)
  | [] =>
    if x.resumed row then .resumed row
    else if row.exitTime.isSome then .ended (.refused "Position is already closed")
    else .exiting row

/-- One statement of a call. -/
def statement (x : Reversal) (s : Books) (point : Point) (action : Action) : Option (Books × Point) :=
  match point, action with
  | .idle, .load => some (s, .loaded s.row)
  | .loaded row, .lookup => some (s, lookup x s row)
  | .exiting row, .close now source => some (closeRow x s row now source)
  | .resumed row, .place choice => some (place x s row choice)
  | .placing row, .place choice => some (place x s row choice)
  | .loaded _, .refuse why => some (s, .ended (.refused why))
  | .exiting _, .refuse why => some (s, .ended (.refused why))
  | .resumed _, .refuse why => some (s, .ended (.refused why))
  | _, .stop => some (s, .ended .stopped)
  | _, _ => none

/-- A split takes part of the stored quantity off the open row; a close of another exit gives its own reason. -/
def other (x : Reversal) (s : Books) : Other → Option Books
  | .split quantity =>
      if s.row.exitTime = none ∧ 0 < quantity ∧ quantity < s.row.quantity then
        some { s with row := { s.row with quantity := s.row.quantity - quantity } }
      else none
  | .close now reason =>
      if s.row.exitTime = none ∧ endsWith reason x.marker = false then
        some { s with row := { s.row with exitTime := some now, exitReason := reason } }
      else none

/-- Any number of calls with the reference, and what others do. -/
def calls (x : Reversal) (n : ℕ) : Machine (Procs Books Point n) (ProcEvent n Action Other) :=
  Procs.interleave (statement x) (other x) n

def opening (x : Reversal) (n : ℕ) : Procs Books Point n := ⟨⟨x.row, [], []⟩, fun _ => .idle⟩

/-! ## What is to hold -/

/-- There is at most one order, and it goes with one close of the position under the reference. -/
def Reversal.Once (s : Books) : Prop :=
  s.orders.length ≤ 1 ∧ (s.orders ≠ [] → ∃ row, s.closed = [row] ∧ s.row.exitTime ≠ none)

/-- The order has the lots that were closed. -/
def Reversal.SizeKept (x : Reversal) (s : Books) : Prop :=
  ∀ order ∈ s.orders, ∀ row ∈ s.closed, order.lots = x.lotsOf row

/-- The row a call that is to place the order loaded. -/
def Point.toPlace : Point → Option Row
  | .resumed row | .placing row => some row
  | _ => none

/-- A call that makes the order loaded the row with the lots it is stored with. -/
def Reversal.PlacesAsStored {n : ℕ} (x : Reversal) (w : Procs Books Point n) : ProcEvent n Action Other → Prop
  | .act who (.place .placed) => w.shared.orders = [] →
      ∀ row ∈ (w.point who).toPlace, x.lotsOf row = x.lotsOf w.shared.row
  | _ => True

instance {n : ℕ} (x : Reversal) (w : Procs Books Point n) : ∀ event, Decidable (x.PlacesAsStored w event)
  | .act who (.place .placed) => inferInstanceAs (Decidable (w.shared.orders = [] → ∀ row ∈ (w.point who).toPlace, _))
  | .act _ .load | .act _ (.refuse _) | .act _ .lookup | .act _ (.close ..)
  | .act _ (.place (.refused _)) | .act _ .stop
  | .outside _ => isTrue trivial

/-- A later call finds the order, or closes nothing and places it with the lots that were closed. -/
def Reversal.Completes {n : ℕ} (x : Reversal) (w : Procs Books Point n) (who : Fin n) : Prop :=
  match w.shared.orders with
  | order :: _ => ∃ u, (calls x n).run w [.act who .load, .act who .lookup] = some u ∧
      u.point who = .ended (.entered order) ∧
      u.shared = w.shared
  | [] => ∃ u order, (calls x n).run w [.act who .load, .act who .lookup, .act who (.place .placed)] = some u ∧
      u.point who = .ended (.entered order) ∧ u.shared = { w.shared with orders := [order] } ∧
        ∀ row ∈ w.shared.closed, order.lots = x.lotsOf row

/-! ## Which close the row has -/

variable {x : Reversal} {n : ℕ}

theorem endsWith_append (text suffix : String) : endsWith (text ++ suffix) suffix = true := by
  rw [endsWith, String.toList_append, List.isSuffixOf_iff_suffix]
  exact List.suffix_append _ _

/-- The row is open, or closed under the reference with the quantity it still has, or closed by another exit; and
there is an order only where it was closed under the reference. -/
inductive Stage (x : Reversal) (s : Books) : Prop where
  | held (isOpen : s.row.exitTime = none) (closed : s.closed = []) (orders : s.orders = [])
  | own (resumed : x.resumed s.row = true) (row : Row) (closed : s.closed = [row])
      (same : row.quantity = s.row.quantity)
      (one : s.orders.length ≤ 1)
  | others (hasEnded : s.row.exitTime ≠ none)
      (unmarked : endsWith s.row.exitReason x.marker = false) (closed : s.closed = [])
      (orders : s.orders = [])

/-- What a call that goes on knows of the row: one it closes was open, one it found closed is the stored one, and the
one it places for was closed under the reference. -/
def Point.Knows (x : Reversal) (s : Books) : Point → Prop
  | .idle | .ended _ => True
  | .loaded row => row.exitTime ≠ none → row = s.row
  | .exiting row => row.exitTime = none
  | .resumed row => row = s.row ∧ x.resumed s.row = true
  | .placing _ => x.resumed s.row = true

/-- The row's stage, and what each call knows. -/
structure Sound (x : Reversal) (w : Procs Books Point n) : Prop where
  stage : Stage x w.shared
  points : ∀ who, (w.point who).Knows x w.shared

theorem exitTime_of_resumed {row : Row} (resumed : x.resumed row = true) : row.exitTime ≠ none := by
  intro isOpen
  rw [Reversal.resumed, isOpen] at resumed
  cases resumed

theorem Stage.of_resumed {s : Books} (stage : Stage x s) (resumed : x.resumed s.row = true) :
    ∃ row, s.closed = [row] ∧ row.quantity = s.row.quantity ∧ s.orders.length ≤ 1 := by
  cases stage with
  | held isOpen _ _ => exact absurd isOpen (exitTime_of_resumed resumed)
  | own _ row closed same one => exact ⟨row, closed, same, one⟩
  | others _ unmarked _ _ =>
    rw [Reversal.resumed, unmarked, Bool.and_false] at resumed
    cases resumed

theorem Stage.once {s : Books} (stage : Stage x s) : Reversal.Once s := by
  cases stage with
  | held _ _ orders => exact ⟨by simp [orders], fun some => absurd orders some⟩
  | own resumed row closed _ one => exact ⟨one, fun _ => ⟨row, closed, exitTime_of_resumed resumed⟩⟩
  | others _ _ _ orders => exact ⟨by simp [orders], fun some => absurd orders some⟩

/-- What a call knows holds on while the closed row stays as it is. -/
theorem Point.Knows.write {s t : Books} {point : Point} (knows : point.Knows x s)
    (kept : s.row.exitTime ≠ none → t.row = s.row) : point.Knows x t := by
  cases point with
  | idle | ended _ => trivial
  | loaded row =>
    intro hasEnded
    rw [kept (knows hasEnded ▸ hasEnded)]
    exact knows hasEnded
  | exiting row => exact knows
  | resumed row =>
    obtain ⟨same, resumed⟩ := knows
    have still := kept (exitTime_of_resumed resumed)
    exact ⟨same.trans still.symm, by rw [still]; exact resumed⟩
  | placing row =>
    have still := kept (exitTime_of_resumed knows)
    show x.resumed t.row = true
    rw [still]
    exact knows

variable {w : Procs Books Point n} {who : Fin n}

/-- A move of one call that leaves a closed row as it is. -/
theorem Sound.move (sound : Sound x w) {t : Books} (stage : Stage x t)
    (kept : w.shared.row.exitTime ≠ none → t.row = w.shared.row) {next : Point}
    (knows : next.Knows x t) : Sound x (w.move who t next) :=
  ⟨stage, Procs.forall_move (fun q _ => (sound.points q).write kept) knows⟩

theorem Sound.lookup (sound : Sound x w) {row : Row} (at_ : w.point who = .loaded row) :
    (lookup x w.shared row).Knows x w.shared := by
  have knows := sound.points who
  rw [at_] at knows
  unfold Reverse.lookup
  split
  · trivial
  · split
    · next resumed =>
      have same := knows (exitTime_of_resumed resumed)
      exact ⟨same, same ▸ resumed⟩
    · split
      · trivial
      · next isOpen => exact Option.not_isSome_iff_eq_none.mp isOpen

theorem Sound.close (sound : Sound x w) (who : Fin n) (row : Row) (now : Int) (source : String) :
    Sound x (w.move who (closeRow x w.shared row now source).1 (closeRow x w.shared row now source).2) := by
  unfold closeRow
  split
  · next isOpen =>
    have resumed : x.resumed { w.shared.row with exitTime := some now, exitReason := x.reason source } = true := by
      simp [Reversal.resumed, Reversal.reason, endsWith_append]
    refine sound.move ?_ (fun hasEnded => absurd isOpen hasEnded) resumed
    cases sound.stage with
    | held _ closed orders => exact .own resumed w.shared.row (by simp [closed]) rfl (by simp [orders])
    | own resumed _ _ _ _ => exact absurd isOpen (exitTime_of_resumed resumed)
    | others hasEnded _ _ _ => exact absurd isOpen hasEnded
  · next hasEnded =>
    split
    · next marked =>
      refine sound.move sound.stage (fun _ => rfl) ?_
      show x.resumed w.shared.row = true
      rw [Reversal.resumed, marked, Bool.and_true]
      exact Option.isSome_iff_ne_none.mpr hasEnded
    · exact sound.move sound.stage (fun _ => rfl) trivial

theorem Sound.place (sound : Sound x w) (who : Fin n) (resumed : x.resumed w.shared.row = true)
    (row : Row) (choice : Choice) :
    Sound x (w.move who (place x w.shared row choice).1 (place x w.shared row choice).2) := by
  unfold Reverse.place
  split
  · exact sound.move sound.stage (fun _ => rfl) trivial
  · exact sound.move sound.stage (fun _ => rfl) trivial
  · obtain ⟨own, closed, same, -⟩ := sound.stage.of_resumed resumed
    have stage : Stage x { w.shared with orders := [⟨x.lotsOf row⟩] } := .own resumed own closed same le_rfl
    exact sound.move stage (fun _ => rfl) trivial

/-- Others write the open row only. -/
theorem other_cases {s t : Books} {event : Other} (written : other x s event = some t) :
    s.row.exitTime = none ∧ t.orders = s.orders ∧ t.closed = s.closed ∧
      (t.row.exitTime = none ∨ t.row.exitTime ≠ none ∧ endsWith t.row.exitReason x.marker = false) := by
  unfold other at written
  split at written
  · split at written
    · next given => cases written; exact ⟨given.1, rfl, rfl, .inl given.1⟩
    · cases written
  · split at written
    · next given => cases written; exact ⟨given.1, rfl, rfl, .inr ⟨by simp, given.2⟩⟩
    · cases written

theorem Sound.step (sound : Sound x w) {event : ProcEvent n Action Other} {u : Procs Books Point n}
    (stepped : (calls x n).step w event = some u) : Sound x u := by
  cases event with
  | act who action =>
    obtain ⟨s, next, ran, rfl⟩ := Procs.act_eq stepped
    have knows := sound.points who
    unfold statement at ran
    split at ran
    · cases ran
      exact sound.move sound.stage (fun _ => rfl) fun _ => rfl
    · next at_ =>
      cases ran
      exact sound.move sound.stage (fun _ => rfl) (sound.lookup at_)
    · next row now source _ =>
      have result := sound.close who row now source
      rwa [Option.some.inj ran] at result
    · next row choice at_ =>
      rw [at_] at knows
      have result := sound.place who knows.2 row choice
      rwa [Option.some.inj ran] at result
    · next row choice at_ =>
      rw [at_] at knows
      have result := sound.place who knows row choice
      rwa [Option.some.inj ran] at result
    all_goals cases ran
    all_goals exact sound.move sound.stage (fun _ => rfl) trivial
  | outside event =>
    obtain ⟨t, written, rfl⟩ := Procs.outside_eq stepped
    obtain ⟨isOpen, orders, closed, row⟩ := other_cases written
    refine ⟨?_, fun q => (sound.points q).write fun hasEnded => absurd isOpen hasEnded⟩
    cases sound.stage with
    | own resumed _ _ _ _ => exact absurd isOpen (exitTime_of_resumed resumed)
    | others hasEnded _ _ _ => exact absurd isOpen hasEnded
    | held _ none noOrders =>
      rcases row with still | ⟨hasEnded, unmarked⟩
      · exact .held still (closed.trans none) (orders.trans noOrders)
      · exact .others hasEnded unmarked (closed.trans none) (orders.trans noOrders)

theorem sound_opening (x : Reversal) (n : ℕ) : Sound x (opening x n) := ⟨.held x.isOpen rfl rfl, fun _ => trivial⟩

theorem calls_sound {events : List (ProcEvent n Action Other)}
    (ran : (calls x n).run (opening x n) events = some w) : Sound x w :=
  (calls x n).run_invariant_all (fun _ _ _ sound stepped => sound.step stepped) (sound_opening x n) ran

/-! ## The order's lots -/

/-- A statement makes the order from the row as loaded, or leaves the orders; it closes rows only while the
position is open. -/
theorem statement_orders {s t : Books} {point next : Point} {action : Action}
    (stepped : statement x s point action = some (t, next)) :
    (∃ row, action = .place .placed ∧ point.toPlace = some row ∧ s.orders = [] ∧
      t = { s with orders := [⟨x.lotsOf row⟩] }) ∨
    (t.orders = s.orders ∧ (t.closed = s.closed ∨ s.row.exitTime = none) ∧
      (action = .place .placed → point.toPlace ≠ none → s.orders ≠ [])) := by
  have placing : ∀ row choice, point.toPlace = some row → action = .place choice →
      place x s row choice = (t, next) → (∃ row, action = .place .placed ∧ point.toPlace = some row ∧
        s.orders = [] ∧ t = { s with orders := [⟨x.lotsOf row⟩] }) ∨
      (t.orders = s.orders ∧ (t.closed = s.closed ∨ s.row.exitTime = none) ∧
        (action = .place .placed → point.toPlace ≠ none → s.orders ≠ [])) := by
    rintro row choice at_ rfl placed
    unfold place at placed
    split at placed <;> cases placed
    · next some => exact .inr ⟨rfl, .inl rfl, fun _ _ => by simp [some]⟩
    · exact .inr ⟨rfl, .inl rfl, fun other => by cases other⟩
    · next none => exact .inl ⟨row, rfl, at_, none, rfl⟩
  unfold statement at stepped
  split at stepped
  case h_4 row choice => exact placing row choice rfl rfl (Option.some.inj stepped)
  case h_5 row choice => exact placing row choice rfl rfl (Option.some.inj stepped)
  case h_3 row now source =>
    refine .inr ⟨?_, ?_, by simp⟩
    all_goals
      unfold closeRow at stepped
      split at stepped
      · next isOpen => cases stepped; first | rfl | exact .inr isOpen
      · split at stepped <;> cases stepped <;> first | rfl | exact .inl rfl
  all_goals cases stepped
  all_goals exact .inr ⟨rfl, .inl rfl, by simp⟩

/-- A step leaves the order with the lots closed exactly when it does not make it from other lots. -/
theorem sizeKept_step (sound : Sound x w) (kept : x.SizeKept w.shared)
    {event : ProcEvent n Action Other} {u : Procs Books Point n}
    (stepped : (calls x n).step w event = some u) :
    x.SizeKept u.shared ↔ x.PlacesAsStored w event := by
  cases event with
  | outside event =>
    obtain ⟨t, written, rfl⟩ := Procs.outside_eq stepped
    obtain ⟨-, orders, closed, -⟩ := other_cases written
    refine ⟨fun _ => trivial, fun _ => ?_⟩
    intro order isOrder row isClosed
    exact kept order (orders ▸ isOrder) row (closed ▸ isClosed)
  | act who action =>
    obtain ⟨t, next, ran, rfl⟩ := Procs.act_eq stepped
    rcases statement_orders ran with ⟨row, rfl, at_, none, rfl⟩ | ⟨orders, closed, known⟩
    · have knows := sound.points who
      have resumed : x.resumed w.shared.row = true := by
        cases here : w.point who with
        | resumed row => rw [here] at knows; exact knows.2
        | placing row => rw [here] at knows; exact knows
        | _ => rw [here] at at_; cases at_
      obtain ⟨own, isClosed, same, -⟩ := sound.stage.of_resumed resumed
      have lots : x.lotsOf own = x.lotsOf w.shared.row := by rw [Reversal.lotsOf, same, Reversal.lotsOf]
      constructor
      · intro size _ other other_at
        cases Option.some.inj (at_.symm.trans other_at)
        rw [← lots]
        exact size ⟨x.lotsOf row⟩ (List.mem_singleton_self _) own (isClosed ▸ List.mem_singleton_self _)
      · intro asStored order isOrder closed closedMem
        have isOwn : closed = own := List.mem_singleton.mp (isClosed ▸ closedMem)
        rw [List.mem_singleton.mp isOrder, isOwn, lots]
        exact asStored none row at_
    · have still : x.SizeKept t := by
        intro order isOrder row isClosed
        rw [orders] at isOrder
        rcases closed with same | isOpen
        · exact kept order isOrder row (same ▸ isClosed)
        · cases sound.stage with
          | held _ _ none => rw [none] at isOrder; cases isOrder
          | own resumed _ _ _ _ => exact absurd isOpen (exitTime_of_resumed resumed)
          | others hasEnded _ _ _ => exact absurd isOpen hasEnded
      refine ⟨fun _ => ?_, fun _ => still⟩
      unfold Reversal.PlacesAsStored
      split
      · next acts =>
        cases acts
        intro noOrder row at_
        have asked : (w.point who).toPlace ≠ none := Option.ne_none_iff_exists'.mpr ⟨row, at_⟩
        exact absurd noOrder (known rfl asked)
      · trivial

/-! ## A later call -/

/-- After a close under the reference the next call finds the order, or places it. -/
theorem Sound.completes (sound : Sound x w) (closed : w.shared.closed ≠ [])
    (idle : w.point who = .idle) : x.Completes w who := by
  have resumed : x.resumed w.shared.row = true := by
    cases sound.stage with
    | held _ none _ => exact absurd none closed
    | own resumed _ _ _ _ => exact resumed
    | others _ _ none _ => exact absurd none closed
  obtain ⟨own, isClosed, same, -⟩ := sound.stage.of_resumed resumed
  unfold Reversal.Completes
  split
  · next order rest found =>
    have looksUp : Reverse.lookup x w.shared w.shared.row = .ended (.entered order) := by rw [Reverse.lookup, found]
    have ran := Procs.run_solo (statement x) (other x) who [.load, .lookup] w
    rw [idle] at ran
    simp only [Procs.solo, statement, looksUp, Option.bind_some] at ran
    exact ⟨_, ran, Procs.move_self, rfl⟩
  · next noOrder =>
    have looksUp : Reverse.lookup x w.shared w.shared.row = .resumed w.shared.row := by
      rw [Reverse.lookup, noOrder]
      exact if_pos resumed
    have places : Reverse.place x w.shared w.shared.row .placed =
        ({ w.shared with orders := [⟨x.lotsOf w.shared.row⟩] }, .ended (.entered ⟨x.lotsOf w.shared.row⟩)) := by
      unfold Reverse.place
      rw [noOrder]
    have ran := Procs.run_solo (statement x) (other x) who [.load, .lookup, .place .placed] w
    rw [idle] at ran
    simp only [Procs.solo, statement, looksUp, places, Option.bind_some] at ran
    refine ⟨_, ⟨x.lotsOf w.shared.row⟩, ran, Procs.move_self, rfl, fun row mem => ?_⟩
    rw [isClosed] at mem
    rw [List.mem_singleton.mp mem, Reversal.lotsOf, Reversal.lotsOf, same]

/-- In every run of calls with one reference, whatever others do to the position: there is at most one order, and only
with the one close under the reference; after that close a later call finds the order or places it; and the order has
the lots closed in every state reached exactly when each call that makes it loaded the row with the lots it has. -/
theorem reverse_keeps {n : ℕ} {x : Reversal} {events : List (ProcEvent n Action Other)}
    {w : Procs Books Point n} (ran : (calls x n).run (opening x n) events = some w) :
    Reversal.Once w.shared ∧
    (w.shared.closed ≠ [] → ∀ who, w.point who = .idle → x.Completes w who) ∧
    ((calls x n).Meets (fun v event => ∀ u, (calls x n).step v event = some u → x.SizeKept u.shared)
      (opening x n) events ↔
      (calls x n).Meets x.PlacesAsStored (opening x n) events) := by
  have sound := calls_sound ran
  refine ⟨sound.stage.once, fun closed who idle => sound.completes closed idle, ?_⟩
  refine (calls x n).meets_iff (P := fun v => Sound x v ∧ x.SizeKept v.shared) ?_ ?_
    ⟨sound_opening x n, fun order isOrder => by cases isOrder⟩ ran
  · rintro v event u ⟨sound, kept⟩ stepped
    rw [← sizeKept_step sound kept stepped]
    exact ⟨fun all => all u stepped, fun size u' stepped' => by cases stepped.symm.trans stepped'; exact size⟩
  · rintro v event u ⟨sound, kept⟩ asStored stepped
    exact ⟨sound.step stepped, (sizeKept_step sound kept stepped).mpr asStored⟩

/-! ## Three lots, one of them closed on the way -/

/-- A position of three lots. -/
def threeLots : Reversal where
  row := { quantity := 225 }
  isOpen := rfl
  unit := 75
  tag := "0f3a"

/-- A call closes the position and stops before its order; the next call places it. -/
def resumedReverse : List (ProcEvent 2 Action Other) :=
  [.act 0 .load, .act 0 .lookup, .act 0 (.close 5 "live price"), .act 0 .stop, .act 1 .load,
    .act 1 .lookup, .act 1 (.place .placed)]

theorem reverse_keeps_resumed :
    ∃ w, (calls threeLots 2).run (opening threeLots 2) resumedReverse = some w ∧
      w.shared.orders = [⟨3⟩] ∧ Reversal.Once w.shared ∧
      (calls threeLots 2).Meets (fun v event => ∀ u, (calls threeLots 2).step v event = some u →
        threeLots.SizeKept u.shared)
        (opening threeLots 2) resumedReverse := by
  have runs : ((calls threeLots 2).run (opening threeLots 2) resumedReverse).any
      (fun w => decide (w.shared.orders = [⟨3⟩])) = true := by decide +kernel
  obtain ⟨w, ran, orders⟩ := (Option.any_eq_true _ _).mp runs
  have kept := reverse_keeps ran
  exact ⟨w, ran, of_decide_eq_true orders, kept.1, kept.2.2.mpr (by decide +kernel)⟩

/-- A call loads the position, a partial exit takes a lot off it, and the call closes what is left: the opposite
order has the three lots loaded, and two were closed. -/
theorem reverse_oversized :
    ∃ w, (calls threeLots 1).run (opening threeLots 1)
        [.act 0 .load, .outside (.split 75), .act 0 .lookup, .act 0 (.close 5 "live price"),
          .act 0 (.place .placed)] = some w ∧
      w.shared.orders = [⟨3⟩] ∧ w.shared.closed = [{ quantity := 150 }] ∧ ¬ threeLots.SizeKept w.shared := by
  have runs : ((calls threeLots 1).run (opening threeLots 1)
        [.act 0 .load, .outside (.split 75), .act 0 .lookup, .act 0 (.close 5 "live price"),
          .act 0 (.place .placed)]).any
      (fun w => decide (w.shared.orders = [⟨3⟩] ∧ w.shared.closed = [{ quantity := 150 }] ∧
        threeLots.lotsOf { quantity := 150 } = 2)) = true := by decide +kernel
  obtain ⟨w, ran, after⟩ := (Option.any_eq_true _ _).mp runs
  obtain ⟨orders, closed, lots⟩ := of_decide_eq_true after
  refine ⟨w, ran, orders, closed, fun kept => ?_⟩
  have same := kept ⟨3⟩ (orders ▸ List.mem_singleton_self _) _ (closed ▸ List.mem_singleton_self _)
  rw [lots] at same
  exact absurd same (by decide)

end AdvanceTrading.Reverse
