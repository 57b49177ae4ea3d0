import AdvanceTrading.Misc.Rounding
import AdvanceTrading.Trading.CloseBooking

/-!
# Exit part

Model of `exit_part` (`app/paper/fno_position_actions.py:125-177`): close some lots of an
open position under the client's reference. A call loads the position's row, looks for a
row an earlier call with the reference marked, splits a marked row off (or marks the
position's own row where all lots close) and commits, and only then closes the marked row.
The checks between the look-up and the split that read other tables are one refusal. Any
number of calls with one reference and the same lots run in any order, and a call can stop
at every statement.
-/

namespace AdvanceTrading.ExitPart

open Rows
open TradeSplit (Trade Shared Fresh splitOff splitRows partOf stillHeld updateMarks)

/-- The exit of some lots of an open position, under the tag of a client reference. -/
structure Exit where
  start : Shared
  row : Trade
  stored : row ∈ start.trades
  isOpen : row.exitTime = none
  ids_nodup : (start.trades.map Trade.id).Nodup
  /-- The units of a lot. -/
  unit : ℚ
  unit_pos : 0 < unit
  lots : ℤ
  tag : String

/-- The open lots of a row (`lots_of`). -/
def Exit.lotsOf (x : Exit) (row : Trade) : ℤ := Py.roundHalfEven (row.quantity / x.unit)

def Exit.marks (x : Exit) : List (String × String) := [("exit_part_ref", x.tag)]

/-- The row has the reference's mark in its `group_meta`. -/
def Exit.Marked (x : Exit) (row : Trade) : Prop := ("exit_part_ref", x.tag) ∈ row.marks

instance (x : Exit) (row : Trade) : Decidable (x.Marked row) := inferInstanceAs (Decidable (_ ∈ _))

/-- The stored rows, and the rows the calls closed, as they were stored. -/
structure Books where
  rows : Shared
  closed : List Trade

inductive Answer where
  | closed
  | repeated (earlier : Trade)
  | refused (why : String)
  | stopped

/-- Where a call stands. -/
inductive Point where
  | idle
  /-- `_own` loaded the position's row. -/
  | loaded (row : Trade)
  /-- `_part_done` found nothing. -/
  | unmarked (row : Trade)
  /-- The mark is committed: the row is to be closed. -/
  | marked (target : Trade)
  | ended (answer : Answer)

/-- The next statement of a call. -/
inductive Action where
  | load
  /-- The row `_part_done` returns. -/
  | lookup (found : Option ℕ)
  /-- A check refuses: the position's owner, its structure, the broker's session, the hedge warning. -/
  | refuse (why : String)
  | commit (partId : ℕ)
  | close (now : Int)
  /-- `close_position` refuses or fails. -/
  | fail (why : String)
  | stop

/-- The position's row as loaded, with the mark added to its `group_meta`. -/
def Exit.mark (x : Exit) (row : Trade) : Trade := { row with marks := updateMarks row.marks x.marks }

/-- What the flush of the marked row leaves stored. -/
def Exit.markRow (x : Exit) (row : Trade) (s : Shared) : Shared :=
  { s with trades := setWhere (fun r => r.id = row.id) (fun r => { r with marks := (x.mark row).marks }) s.trades }

/-- The split or the mark, with the commit after it. -/
def commitMark (x : Exit) (s : Books) (row : Trade) (partId : ℕ) : Books × Point :=
  let held := x.lotsOf row
  if row.exitTime.isSome then (s, .ended (.refused "Position is already closed"))
  else if x.lots < 1 ∨ held < x.lots then
    (s, .ended (.refused ("Choose between 1 and " ++ toString held ++ " lots to exit - nothing was closed.")))
  else if x.lots = held then ({ s with rows := x.markRow row s.rows }, .marked (x.mark row))
  else
    match splitOff s.rows row (x.lots * x.unit) partId x.marks with
    | .ok (rows, part) => ({ s with rows := rows }, .marked part)
    | .error why => (s, .ended (.refused why))

/-- `close_position` of the marked row. -/
def closeMarked (s : Books) (target : Trade) (now : Int) : Books × Point :=
  match TradeSplit.close s.rows target now with
  | (rows, .closed) =>
      (⟨rows, s.closed ++ s.rows.trades.filter fun r => r.id = target.id ∧ r.exitTime = none⟩, .ended .closed)
  | (_, .refused why) => (s, .ended (.refused why))
  | _ => (s, .ended .stopped)

/-- One statement of a call. -/
def statement (x : Exit) (s : Books) (point : Point) (action : Action) : Option (Books × Point) :=
  match point, action with
  | .idle, .load => (s.rows.trades.find? fun r => r.id = x.row.id).map fun row => (s, .loaded row)
  | .loaded row, .lookup none =>
      if ∀ r ∈ s.rows.trades, ¬ x.Marked r then some (s, .unmarked row) else none
  | .loaded _, .lookup (some id) =>
      (s.rows.trades.find? fun r => r.id = id ∧ x.Marked r).map fun earlier =>
        if earlier.exitTime = none then
          (s, .ended (.refused "This exit is already on its way - refresh in a moment"))
        else (s, .ended (.repeated earlier))
  | .unmarked _, .refuse why => some (s, .ended (.refused why))
  | .unmarked row, .commit partId => if Fresh s.rows partId then some (commitMark x s row partId) else none
  | .marked target, .close now => some (closeMarked s target now)
  | .marked _, .fail why => some (s, .ended (.refused why))
  | _, .stop => some (s, .ended .stopped)
  | _, _ => none

/-- Any number of calls with the reference. -/
def calls (x : Exit) (n : ℕ) : Machine (Procs Books Point n) (ProcEvent n Action Empty) :=
  Procs.interleave (statement x) (fun _ event => event.elim) n

def opening (x : Exit) (n : ℕ) : Procs Books Point n := ⟨⟨x.start, []⟩, fun _ => .idle⟩

/-! ## What is to hold -/

/-- A row of the table has the reference's mark. -/
def Exit.Tagged (x : Exit) (s : Shared) : Prop := ∃ r ∈ s.trades, x.Marked r

/-- What was closed for the reference is nothing, or one row of the lots asked. -/
def Exit.ClosedOnce (x : Exit) (closed : List Trade) : Prop :=
  closed = [] ∨ ∃ row, closed = [row] ∧ x.lotsOf row = x.lots

instance (x : Exit) (s : Shared) : Decidable (x.Tagged s) := inferInstanceAs (Decidable (∃ r ∈ s.trades, _))

/-- The call is not running. -/
def Point.Over : Point → Bool
  | .idle | .ended _ => true
  | _ => false

/-- No call is running. -/
def Quiet {n : ℕ} (w : Procs Books Point n) : Prop := ∀ who, (w.point who).Over = true

instance {n : ℕ} (w : Procs Books Point n) : Decidable (Quiet w) := inferInstanceAs (Decidable (∀ _, _))

/-- The statements of a call that closes. -/
def closing (partId : ℕ) (now : Int) : List Action := [.load, .lookup none, .commit partId, .close now]

/-- The call closes the lots when nothing stops or refuses it. -/
def Exit.NextCloses {n : ℕ} (x : Exit) (w : Procs Books Point n) (who : Fin n) : Prop :=
  ∀ partId now, Fresh w.shared.rows partId →
    ∃ u, (calls x n).run w ((closing partId now).map (.act who)) = some u ∧ ∃ row,
      u.shared.closed = [row] ∧ x.lotsOf row = x.lots

/-- The call does not end between its commit and its close. -/
def Unbroken {n : ℕ} (w : Procs Books Point n) : ProcEvent n Action Empty → Prop
  | .act who .stop => ∀ target, w.point who ≠ .marked target
  | .act _ (.fail _) => False
  | _ => True

/-! ## Rows and lots -/

variable {x : Exit} {n : ℕ}

/-- A row of so many lots' units has so many lots. -/
theorem lotsOf_part {row : Trade} (units : row.quantity = x.lots * x.unit) : x.lotsOf row = x.lots := by
  rw [Exit.lotsOf, units, mul_div_cancel_right₀ _ x.unit_pos.ne']
  exact Py.roundHalfEven_intCast x.lots

/-- Fewer lots than a row has are fewer units. -/
theorem units_lt {row : Trade} (fewer : x.lots < x.lotsOf row) : x.lots * x.unit < row.quantity := by
  have within := (abs_le.mp (Py.abs_sub_roundHalfEven_le (row.quantity / x.unit))).1
  have below : (x.lots : ℚ) + 1 ≤ x.lotsOf row := by exact_mod_cast fewer
  rw [Exit.lotsOf] at below
  rw [← lt_div_iff₀ x.unit_pos]
  linarith

theorem marked_update (marks : List (String × String)) : ("exit_part_ref", x.tag) ∈ updateMarks marks x.marks :=
  List.mem_append_right _ (List.mem_singleton_self _)

section

variable {s : Shared} (ids : (s.trades.map Trade.id).Nodup)
include ids

theorem eq_of_id {a b : Trade} (isA : a ∈ s.trades) (isB : b ∈ s.trades) (same : a.id = b.id) :
    a = b := List.inj_on_of_nodup_map ids isA isB same

theorem find_of_id {row : Trade} (stored : row ∈ s.trades) :
    (s.trades.find? fun r => r.id = row.id) = some row := by
  obtain ⟨found, isFound⟩ := Option.isSome_iff_exists.mp
    (List.find?_isSome.mpr ⟨row, stored, decide_eq_true rfl⟩ : (s.trades.find? fun r => r.id = row.id).isSome = true)
  have same : found.id = row.id := by simpa using List.find?_some isFound
  rw [isFound, eq_of_id ids (List.mem_of_find?_eq_some isFound) stored same]

/-- A condition that holds of a row and names its id finds that row. -/
theorem filter_one {p : Trade → Bool} {r : Trade} (stored : r ∈ s.trades) (holds : p r = true)
    (names : ∀ q, p q = true → q.id = r.id) : s.trades.filter p = [r] := by
  have distinct : (s.trades.filter p).Nodup := ids.of_map.filter _
  refine List.perm_singleton.mp ((List.perm_ext_iff_of_nodup distinct (List.nodup_singleton r)).mpr fun q => ?_)
  rw [List.mem_filter, List.mem_singleton]
  constructor
  · rintro ⟨isRow, found⟩
    exact eq_of_id ids isRow stored (names q found)
  · rintro rfl
    exact ⟨stored, holds⟩

end

theorem exists_above (ids : List ℕ) : ∃ bound, ∀ id ∈ ids, id < bound := by
  induction ids with
  | nil => exact ⟨0, by simp⟩
  | cons id ids ih =>
    obtain ⟨bound, above⟩ := ih
    refine ⟨bound + id + 1, fun other mem => ?_⟩
    rcases List.mem_cons.mp mem with rfl | mem
    · omega
    · have := above other mem
      omega

/-- An id later than every id a table has or names. -/
theorem exists_fresh (s : Shared) : ∃ id, Fresh s id := by
  obtain ⟨bound, above⟩ := exists_above
    (s.trades.map Trade.id ++ s.trades.filterMap Trade.splitFrom ++ s.orders.map TradeSplit.ExitOrder.tradeId)
  simp only [List.mem_append, List.mem_map, List.mem_filterMap] at above
  refine ⟨bound, fun r mem => ⟨?_, fun named => ?_⟩, fun o mem => ?_⟩
  · exact (above r.id (.inl (.inl ⟨r, mem, rfl⟩))).ne
  · exact (above bound (.inl (.inr ⟨r, mem, named⟩))).ne rfl
  · exact (above o.tradeId (.inr ⟨o, mem, rfl⟩)).ne

/-! ## Before and after the first mark -/

/-- Where a call can stand while no call has marked a row. -/
def Point.Early (x : Exit) : Point → Prop
  | .idle | .ended _ => True
  | .loaded row => row = x.row
  | .unmarked row => row = x.row ∧ ¬ x.Tagged x.start
  | .marked _ => False

/-- Where a call can stand once the row with the id is marked. -/
def Point.Late (x : Exit) (id : ℕ) : Point → Prop
  | .idle | .ended _ | .loaded _ => True
  | .unmarked row => row = x.row
  | .marked target => target.id = id ∧ target.exitTime = none

/-- No call has marked a row: nothing is written. -/
structure Untouched (x : Exit) (w : Procs Books Point n) : Prop where
  rows : w.shared.rows.trades = x.start.trades
  closed : w.shared.closed = []
  points : ∀ who, (w.point who).Early x

/-- A row with the lots asked is marked; every call that closes closes that row, and no other can be marked:
either it is the position's own row, or the position's row has not its lots any more. -/
structure Claimed (x : Exit) (id : ℕ) (w : Procs Books Point n) : Prop where
  ids : (w.shared.rows.trades.map Trade.id).Nodup
  target : ∃ r ∈ w.shared.rows.trades, r.id = id ∧ x.Marked r ∧ x.lotsOf r = x.lots ∧
    (w.shared.closed = [] ∧ r.exitTime = none ∨
      (∃ row, w.shared.closed = [row] ∧ x.lotsOf row = x.lots) ∧ r.exitTime ≠ none)
  points : ∀ who, (w.point who).Late x id
  only : (x.lotsOf x.row = x.lots ∧ id = x.row.id) ∨
    (x.lotsOf x.row ≠ x.lots ∧ ∀ r ∈ w.shared.rows.trades, r.id = x.row.id → r.quantity ≠ x.row.quantity)

variable {w : Procs Books Point n} {id : ℕ}

theorem Claimed.tagged (claimed : Claimed x id w) : x.Tagged w.shared.rows := by
  obtain ⟨r, mem, -, marked, -⟩ := claimed.target
  exact ⟨r, mem, marked⟩

theorem Claimed.closedOnce (claimed : Claimed x id w) : x.ClosedOnce w.shared.closed := by
  obtain ⟨r, -, -, -, -, ⟨none, -⟩ | ⟨once, -⟩⟩ := claimed.target
  · exact .inl none
  · exact .inr once

/-- A step that writes nothing keeps the claim. -/
theorem Claimed.move (claimed : Claimed x id w) (who : Fin n) {next : Point} (late : next.Late x id) :
    Claimed x id (w.move who w.shared next) :=
  ⟨claimed.ids, claimed.target, Procs.forall_move (fun q _ => claimed.points q) late, claimed.only⟩

theorem Untouched.move (untouched : Untouched x w) (who : Fin n) {next : Point}
    (early : next.Early x) : Untouched x (w.move who w.shared next) :=
  ⟨untouched.rows, untouched.closed, Procs.forall_move (fun q _ => untouched.points q) early⟩

/-- The close of the marked row: it is closed with its lots, or was already. -/
theorem Claimed.close (claimed : Claimed x id w) {who : Fin n} {target : Trade}
    (at_ : w.point who = .marked target) (now : Int) :
    (∃ row, (closeMarked w.shared target now).1.closed = [row]) ∧
      Claimed x id (w.move who (closeMarked w.shared target now).1 (closeMarked w.shared target now).2) := by
  obtain ⟨r, mem, isId, marked, lots, state⟩ := claimed.target
  have point := claimed.points who
  rw [at_] at point
  obtain ⟨rfl, isOpen⟩ := point
  rcases CloseBooking.close_cases w.shared.rows target now with ⟨why, refused⟩ | ⟨-, held, found, done⟩
  · -- The row was closed before.
    have hasEnded : r.exitTime ≠ none := by
      intro open_
      have one : w.shared.rows.trades.countP (fun r => decide (r.id = target.id ∧ r.exitTime = none)) = 1 := by
        rw [List.countP_eq_length_filter, filter_one claimed.ids mem (decide_eq_true ⟨isId, open_⟩)
          fun q found => (of_decide_eq_true found).1.trans isId.symm]
        rfl
      unfold TradeSplit.close at refused
      rw [isOpen, Option.isSome_none] at refused
      dsimp only at refused
      rw [if_neg Bool.false_ne_true, if_neg (not_not.mpr one)] at refused
      exact absurd (congrArg Prod.snd refused) (by simp)
    have same : closeMarked w.shared target now = (w.shared, .ended (.refused why)) := by
      rw [closeMarked, refused]
    rw [same]
    refine ⟨?_, claimed.move who trivial⟩
    rcases state with ⟨-, open_⟩ | ⟨⟨row, once, -⟩, -⟩
    · exact absurd open_ hasEnded
    · exact ⟨row, once⟩
  · have isHeld : held ∈ w.shared.rows.trades.filter fun r => decide (r.id = target.id ∧ r.exitTime = none) := by
      rw [found]
      exact List.mem_singleton_self _
    obtain ⟨isRow, heldId, heldOpen⟩ : held ∈ w.shared.rows.trades ∧ held.id = target.id ∧ held.exitTime = none := by
      simpa using isHeld
    have same : r = held := eq_of_id claimed.ids mem isRow (isId.trans heldId.symm)
    subst same
    have none : w.shared.closed = [] := by
      rcases state with ⟨none, -⟩ | ⟨-, hasEnded⟩
      · exact none
      · exact absurd heldOpen hasEnded
    have closes : closeMarked w.shared target now = (⟨{ w.shared.rows with
        trades := setWhere (fun r => r.id = target.id ∧ r.exitTime = .none) (fun r => { r with exitTime := some now })
          w.shared.rows.trades }, [r]⟩, .ended .closed) := by
      rw [closeMarked, done, none, found]
      rfl
    rw [closes]
    refine ⟨⟨r, rfl⟩, ?_, ?_, Procs.forall_move (fun q _ => claimed.points q) trivial, ?_⟩
    · show ((setWhere _ _ _).map Trade.id).Nodup
      rw [map_setWhere (c := Trade.id)]
      · exact claimed.ids
      · exact fun _ => rfl
    · refine ⟨{ r with exitTime := some now }, ?_, isId, marked, lots, .inr ⟨⟨r, rfl, lots⟩, by simp⟩⟩
      exact List.mem_map.mpr ⟨r, mem, if_pos (by simp [isId, heldOpen])⟩
    · refine claimed.only.imp_right fun ⟨part, quantity⟩ => ⟨part, ?_⟩
      intro q isRow
      obtain ⟨old, isOld, ⟨-, rfl⟩ | ⟨-, rfl⟩⟩ := mem_setWhere isRow
      · exact quantity old isOld
      · exact quantity q isOld

/-! ## The commit -/

/-- What a commit of the position's row as it was at the start does: it refuses, it marks the position's own
row, or it splits a marked row off. -/
theorem commitMark_cases (s : Books) (partId : ℕ) :
    (∃ why, commitMark x s x.row partId = (s, .ended (.refused why))) ∨
    (x.lotsOf x.row = x.lots ∧ 1 ≤ x.lots ∧
      commitMark x s x.row partId = ({ s with rows := x.markRow x.row s.rows }, .marked (x.mark x.row))) ∨
    (x.lotsOf x.row ≠ x.lots ∧ 1 ≤ x.lots ∧ ∃ rows part,
      splitOff s.rows x.row (x.lots * x.unit) partId x.marks = .ok (rows, part) ∧
      commitMark x s x.row partId = ({ s with rows := rows }, .marked part)) := by
  unfold commitMark
  dsimp only
  rw [x.isOpen, Option.isSome_none, if_neg Bool.false_ne_true]
  split
  · exact .inl ⟨_, rfl⟩
  rename_i within
  have positive : 1 ≤ x.lots := by
    by_contra below
    exact within (.inl (by omega))
  split
  · next all => exact .inr (.inl ⟨all.symm, positive, rfl⟩)
  · next part =>
    split
    · next rows part' done => exact .inr (.inr ⟨fun same => part same.symm, positive, _, _, done, rfl⟩)
    · exact .inl ⟨_, rfl⟩

/-- The units asked take the position's row below its quantity. -/
theorem rest_ne (positive : 1 ≤ x.lots) : x.row.quantity - x.lots * x.unit ≠ x.row.quantity := by
  have some : (0 : ℚ) < x.lots * x.unit := mul_pos (by exact_mod_cast positive) x.unit_pos
  linarith

variable {w : Procs Books Point n} {who : Fin n}

/-- The first commit marks a row, or nothing is written. -/
theorem Untouched.commit (untouched : Untouched x w) (who : Fin n) {partId : ℕ}
    (fresh : Fresh w.shared.rows partId) :
    Untouched x (w.move who (commitMark x w.shared x.row partId).1 (commitMark x w.shared x.row partId).2) ∨
    ∃ id, Claimed x id (w.move who (commitMark x w.shared x.row partId).1 (commitMark x w.shared x.row partId).2) ∧
      ∃ target, (commitMark x w.shared x.row partId).2 = .marked target := by
  have ids : (w.shared.rows.trades.map Trade.id).Nodup := untouched.rows ▸ x.ids_nodup
  have stored : x.row ∈ w.shared.rows.trades := untouched.rows ▸ x.stored
  have late : ∀ {id : ℕ} (q : Fin n), (w.point q).Late x id := by
    intro id q
    have early := untouched.points q
    cases at_ : w.point q with
    | unmarked row => rw [at_] at early; exact early.1
    | marked target => rw [at_] at early; exact early.elim
    | _ => trivial
  rcases commitMark_cases w.shared partId with ⟨why, refused⟩ | ⟨all, positive, done⟩
    | ⟨part, positive, rows, target, split, done⟩
  · rw [refused]
    exact .inl (untouched.move who trivial)
  · rw [done]
    refine .inr ⟨x.row.id, ⟨?_, ?_, Procs.forall_move (fun q _ => late q) ⟨rfl, x.isOpen⟩, .inl ⟨all, rfl⟩⟩, _, rfl⟩
    · show ((setWhere _ _ _).map Trade.id).Nodup
      rw [map_setWhere (c := Trade.id)]
      · exact ids
      · exact fun _ => rfl
    · exact ⟨x.mark x.row, List.mem_map.mpr ⟨x.row, stored, if_pos (decide_eq_true rfl)⟩, rfl, marked_update _, all,
        .inl ⟨untouched.closed, x.isOpen⟩⟩
  · rw [done]
    obtain ⟨held, found, -, -, rfl, rfl⟩ := TradeSplit.splitOff_ok split
    have isNew : partOf x.row (x.lots * x.unit) partId x.marks ∈ (splitRows w.shared.rows x.row
        (x.row.quantity - x.lots * x.unit) (partOf x.row (x.lots * x.unit) partId x.marks)).trades :=
      List.mem_append_right _ (List.mem_singleton_self _)
    refine .inr ⟨partId, ⟨?_, ?_, Procs.forall_move (fun q _ => late q) ⟨rfl, rfl⟩, .inr ⟨part, ?_⟩⟩, _, rfl⟩
    · show ((setWhere _ _ _ ++ [_]).map Trade.id).Nodup
      rw [List.map_append, map_setWhere (c := Trade.id)]
      · refine List.nodup_append.mpr ⟨ids, List.nodup_singleton _, ?_⟩
        rintro a isOld b isNew rfl
        obtain ⟨r, mem, rfl⟩ := List.mem_map.mp isOld
        exact (fresh.1 r mem).1 (by simpa [partOf] using isNew)
      · exact fun _ => rfl
    · exact ⟨_, isNew, rfl, marked_update _, lotsOf_part rfl, .inl ⟨untouched.closed, rfl⟩⟩
    · intro r mem same
      rcases List.mem_append.mp mem with old | new
      · obtain ⟨q, isOld, ⟨-, rfl⟩ | ⟨unclaimed, rfl⟩⟩ := mem_setWhere old
        · exact rest_ne positive
        · rw [eq_of_id ids isOld stored same, stillHeld] at unclaimed
          simp [x.isOpen] at unclaimed
      · rw [List.mem_singleton.mp new] at same
        exact absurd same.symm (fresh.1 x.row stored).1

/-- A later commit marks the same row again, or is refused. -/
theorem Claimed.commit (claimed : Claimed x id w) (who : Fin n) (partId : ℕ) :
    Claimed x id (w.move who (commitMark x w.shared x.row partId).1 (commitMark x w.shared x.row partId).2) ∧
      (commitMark x w.shared x.row partId).1.closed = w.shared.closed := by
  rcases commitMark_cases w.shared partId with ⟨why, refused⟩ | ⟨all, positive, done⟩
    | ⟨part, positive, rows, target, split, done⟩
  · rw [refused]
    exact ⟨claimed.move who trivial, rfl⟩
  · rw [done]
    obtain ⟨-, rfl⟩ := claimed.only.resolve_right fun ⟨part, _⟩ => part all
    obtain ⟨r, mem, same, -, lots, state⟩ := claimed.target
    refine ⟨⟨?_, ?_, Procs.forall_move (fun q _ => claimed.points q) ⟨rfl, x.isOpen⟩, .inl ⟨all, rfl⟩⟩, rfl⟩
    · show ((setWhere _ _ _).map Trade.id).Nodup
      rw [map_setWhere (c := Trade.id)]
      · exact claimed.ids
      · exact fun _ => rfl
    · exact ⟨{ r with marks := (x.mark x.row).marks }, List.mem_map.mpr ⟨r, mem, if_pos (decide_eq_true same)⟩, same,
        marked_update _, lots, state⟩
  · -- The position's row has not the quantity any more that the call loaded.
    obtain ⟨-, moved⟩ := claimed.only.resolve_left fun ⟨all, _⟩ => part all
    obtain ⟨held, found, -⟩ := TradeSplit.splitOff_ok split
    have isHeld : held ∈ w.shared.rows.trades.filter (stillHeld x.row) := by rw [found]; exact List.mem_singleton_self _
    obtain ⟨isRow, still⟩ := List.mem_filter.mp isHeld
    obtain ⟨same, -, quantity⟩ := of_decide_eq_true still
    exact absurd quantity (moved held isRow same)

/-! ## Runs -/

section Steps

variable {s t : Books} {point next : Point} {action : Action}

/-- What a statement can do: load the row, find no mark, end without writing, commit or close. -/
theorem statement_cases (stepped : statement x s point action = some (t, next)) :
    (point = .idle ∧ t = s ∧ ∃ row, (s.rows.trades.find? fun r => r.id = x.row.id) = some row ∧ next = .loaded row) ∨
    (∃ row, point = .loaded row ∧ t = s ∧ (∀ r ∈ s.rows.trades, ¬ x.Marked r) ∧ next = .unmarked row) ∨
    (t = s ∧ (∃ answer, next = .ended answer) ∧
      ((∀ target, point ≠ .marked target) ∨ action = .stop ∨ ∃ why, action = .fail why)) ∨
    (∃ row partId, point = .unmarked row ∧ Fresh s.rows partId ∧ commitMark x s row partId = (t, next)) ∨
    ∃ target now, point = .marked target ∧ closeMarked s target now = (t, next) := by
  unfold statement at stepped
  split at stepped
  · obtain ⟨row, found, same⟩ := Option.map_eq_some_iff.mp stepped
    cases same
    exact .inl ⟨rfl, rfl, row, found, rfl⟩
  · split at stepped
    · next none =>
      cases stepped
      exact .inr (.inl ⟨_, rfl, rfl, none, rfl⟩)
    · cases stepped
  · obtain ⟨earlier, -, same⟩ := Option.map_eq_some_iff.mp stepped
    split at same <;> cases same <;> exact .inr (.inr (.inl ⟨rfl, ⟨_, rfl⟩, .inl (by simp)⟩))
  · cases stepped
    exact .inr (.inr (.inl ⟨rfl, ⟨_, rfl⟩, .inl (by simp)⟩))
  · split at stepped
    · next fresh => exact .inr (.inr (.inr (.inl ⟨_, _, rfl, fresh, Option.some.inj stepped⟩)))
    · cases stepped
  · exact .inr (.inr (.inr (.inr ⟨_, _, rfl, Option.some.inj stepped⟩)))
  · cases stepped
    exact .inr (.inr (.inl ⟨rfl, ⟨_, rfl⟩, .inr (.inr ⟨_, rfl⟩)⟩))
  · cases stepped
    exact .inr (.inr (.inl ⟨rfl, ⟨_, rfl⟩, .inr (.inl rfl)⟩))
  · cases stepped

theorem Untouched.step (untouched : Untouched x w)
    (stepped : statement x w.shared (w.point who) action = some (s, next)) :
    Untouched x (w.move who s next) ∨ ∃ id, Claimed x id (w.move who s next) ∧ ∃ target, next = .marked target := by
  have early := untouched.points who
  rcases statement_cases stepped with ⟨-, rfl, row, found, rfl⟩ | ⟨row, at_, rfl, none, rfl⟩ | ⟨rfl, ⟨answer, rfl⟩, -⟩ |
    ⟨row, partId, at_, fresh, committed⟩ | ⟨target, now, at_, -⟩
  · rw [untouched.rows, find_of_id x.ids_nodup x.stored] at found
    exact .inl (untouched.move who (Option.some.inj found).symm)
  · rw [at_] at early
    refine .inl (untouched.move who ⟨early, ?_⟩)
    rintro ⟨r, mem, marked⟩
    exact none r (untouched.rows ▸ mem) marked
  · exact .inl (untouched.move who trivial)
  · rw [at_] at early
    obtain ⟨rfl, -⟩ := early
    have result := untouched.commit who fresh
    rwa [committed] at result
  · rw [at_] at early
    exact early.elim

theorem Claimed.step (claimed : Claimed x id w)
    (stepped : statement x w.shared (w.point who) action = some (s, next)) :
    Claimed x id (w.move who s next) := by
  have late := claimed.points who
  rcases statement_cases stepped with ⟨-, rfl, row, -, rfl⟩ | ⟨row, -, rfl, none, rfl⟩ | ⟨rfl, ⟨answer, rfl⟩, -⟩ |
    ⟨row, partId, at_, -, committed⟩ | ⟨target, now, at_, closed⟩
  · exact claimed.move who trivial
  · obtain ⟨r, mem, marked⟩ := claimed.tagged
    exact absurd marked (none r mem)
  · exact claimed.move who trivial
  · rw [at_] at late
    cases late
    have result := (claimed.commit who partId).1
    rwa [committed] at result
  · have result := (claimed.close at_ now).2
    rwa [closed] at result

/-- While the row that is marked is not closed, some call is to close it. -/
def Closing (w : Procs Books Point n) : Prop := w.shared.closed = [] → ∃ who target, w.point who = .marked target

/-- Unbroken, a call that leaves its mark closes the row. -/
theorem Claimed.closing (claimed : Claimed x id w) (closing : Closing w)
    (unbroken : Unbroken w (.act who action))
    (stepped : statement x w.shared (w.point who) action = some (s, next)) :
    Closing (w.move who s next) := by
  -- Where nothing is closed and this call is not the one to close the row, that one still is.
  have others : s.closed = w.shared.closed → (∀ target, w.point who ≠ .marked target) →
      Closing (w.move who s next) := by
    intro same unmarked none
    obtain ⟨q, target, at_⟩ := closing (same.symm.trans none)
    refine ⟨q, target, ?_⟩
    rw [Procs.move_other (by rintro rfl; exact unmarked target at_)]
    exact at_
  rcases statement_cases stepped with ⟨at_, rfl, -⟩ | ⟨row, at_, rfl, -⟩ | ⟨rfl, -, unmarked | rfl | ⟨why, rfl⟩⟩ |
    ⟨row, partId, at_, -, committed⟩ | ⟨target, now, at_, closed⟩
  · exact others rfl (by simp [at_])
  · exact others rfl (by simp [at_])
  · exact others rfl unmarked
  · exact others rfl unbroken
  · exact unbroken.elim
  · have late := claimed.points who
    rw [at_] at late
    cases late
    have same := (claimed.commit who partId).2
    rw [committed] at same
    exact others same (by simp [at_])
  · obtain ⟨row, once⟩ := (claimed.close at_ now).1
    rw [closed] at once
    intro none
    rw [Procs.move_shared, once] at none
    cases none

end Steps

theorem untouched_opening (x : Exit) (n : ℕ) : Untouched x (opening x n) := ⟨rfl, rfl, fun _ => trivial⟩

variable {events : List (ProcEvent n Action Empty)}

/-- In every run either nothing is written, or one row is marked for all calls. -/
theorem calls_claimed (ran : (calls x n).run (opening x n) events = some w) :
    Untouched x w ∨ ∃ id, Claimed x id w := by
  refine (calls x n).run_invariant_all (P := fun w => Untouched x w ∨ ∃ id, Claimed x id w) ?_
    (.inl (untouched_opening x n)) ran
  intro w event t inv stepped
  cases event with
  | outside event => exact event.elim
  | act who action =>
    obtain ⟨s, next, ran, rfl⟩ := Procs.act_eq stepped
    rcases inv with untouched | ⟨id, claimed⟩
    · exact (untouched.step ran).imp_right fun ⟨id, claimed, _⟩ => ⟨id, claimed⟩
    · exact .inr ⟨id, claimed.step ran⟩

/-- In an unbroken run a row that is marked is closed, or about to be. -/
theorem calls_closing (unbroken : (calls x n).Meets Unbroken (opening x n) events)
    (ran : (calls x n).run (opening x n) events = some w) :
    Untouched x w ∨ (∃ id, Claimed x id w) ∧ Closing w := by
  refine (calls x n).run_invariant (P := fun w => Untouched x w ∨ (∃ id, Claimed x id w) ∧ Closing w) ?_
    (.inl (untouched_opening x n)) unbroken ran
  intro w event t inv unbroken stepped
  cases event with
  | outside event => exact event.elim
  | act who action =>
    obtain ⟨s, next, ran, rfl⟩ := Procs.act_eq stepped
    rcases inv with untouched | ⟨⟨id, claimed⟩, closing⟩
    · refine (untouched.step ran).imp_right fun ⟨id, claimed, target, marked⟩ => ⟨⟨id, claimed⟩, fun _ => ?_⟩
      exact ⟨who, target, by rw [Procs.move_self, marked]⟩
    · exact .inr ⟨⟨id, claimed.step ran⟩, claimed.closing closing unbroken ran⟩

/-! ## The next call -/

/-- The commit of an open row with so many lots marks a row. -/
theorem commitMark_marks {s : Books} (positive : 1 ≤ x.lots) (within : x.lots ≤ x.lotsOf x.row)
    (ids : (s.rows.trades.map Trade.id).Nodup) (stored : x.row ∈ s.rows.trades) (partId : ℕ) :
    ∃ target, (commitMark x s x.row partId).2 = .marked target := by
  unfold commitMark
  dsimp only
  rw [x.isOpen, Option.isSome_none, if_neg Bool.false_ne_true, if_neg (by omega)]
  split
  · exact ⟨_, rfl⟩
  · next part =>
    have units : 0 < x.lots * x.unit ∧ x.lots * x.unit < x.row.quantity :=
      ⟨mul_pos (by exact_mod_cast positive) x.unit_pos, units_lt (lt_of_le_of_ne within part)⟩
    have one : s.rows.trades.countP (stillHeld x.row) = 1 := by
      rw [List.countP_eq_length_filter, filter_one ids stored (decide_eq_true ⟨rfl, x.isOpen, rfl⟩)
        fun q found => (of_decide_eq_true found).1]
      rfl
    rw [splitOff, x.isOpen, Option.isSome_none, if_neg Bool.false_ne_true,
      if_neg (not_not.mpr units), if_neg (not_not.mpr one)]
    exact ⟨_, rfl⟩

/-- With nothing written yet, a call comes to its commit. -/
theorem Untouched.statements (untouched : Untouched x w) (unmarked : ¬ x.Tagged w.shared.rows) {partId : ℕ}
    (fresh : Fresh w.shared.rows partId) :
    statement x w.shared .idle .load = some (w.shared, .loaded x.row) ∧
      statement x w.shared (.loaded x.row) (.lookup none) = some (w.shared, .unmarked x.row) ∧
      statement x w.shared (.unmarked x.row) (.commit partId) = some (commitMark x w.shared x.row partId) := by
  refine ⟨?_, ?_, by rw [statement, if_pos fresh]⟩
  · rw [statement, find_of_id (untouched.rows ▸ x.ids_nodup) (untouched.rows ▸ x.stored)]
    rfl
  · rw [statement, if_pos fun r mem marked => unmarked ⟨r, mem, marked⟩]

/-- With nothing written yet, the next call closes the lots when there are so many. -/
theorem Untouched.closes (untouched : Untouched x w) (unmarked : ¬ x.Tagged w.shared.rows) (positive : 1 ≤ x.lots)
    (within : x.lots ≤ x.lotsOf x.row) (idle : w.point who = .idle) : x.NextCloses w who := by
  intro partId now fresh
  obtain ⟨loads, looksUp, commits⟩ := untouched.statements unmarked fresh
  obtain ⟨target, marked⟩ := commitMark_marks positive within (untouched.rows ▸ x.ids_nodup)
    (untouched.rows ▸ x.stored) partId
  obtain ⟨id, claimed, -⟩ := (untouched.commit who fresh).resolve_left
    fun still => by simpa [marked, Point.Early] using still.points who
  have closes : ∀ s : Books, statement x s (.marked target) (.close now) =
      some (closeMarked s target now) := fun _ => rfl
  have closed := claimed.close (by rw [Procs.move_self, marked]) now
  rw [calls, Procs.run_solo, idle]
  simp only [closing, Procs.solo, loads, looksUp, commits, closes, Option.bind_some, marked]
  refine ⟨_, rfl, ?_⟩
  obtain ⟨row, once⟩ := closed.1
  rcases closed.2.closedOnce with none | found
  · rw [Procs.move_shared] at none
    rw [once] at none
    cases none
  · exact found

/-- A commit asked for lots the row has not is refused. -/
theorem commitMark_refused {s : Books} (outside : ¬ (1 ≤ x.lots ∧ x.lots ≤ x.lotsOf x.row))
    (partId : ℕ) : ∃ why, commitMark x s x.row partId = (s, .ended (.refused why)) := by
  unfold commitMark
  dsimp only
  rw [x.isOpen, Option.isSome_none, if_neg Bool.false_ne_true, if_pos (by omega)]
  exact ⟨_, rfl⟩

/-- The next call closes only where no row is marked and the position has the lots. -/
theorem closes_only (held : Untouched x w ∨ ∃ id, Claimed x id w) (idle : w.point who = .idle)
    (closes : x.NextCloses w who) :
    1 ≤ x.lots ∧ x.lots ≤ x.lotsOf x.row ∧ ¬ x.Tagged w.shared.rows := by
  obtain ⟨partId, fresh⟩ := exists_fresh w.shared.rows
  obtain ⟨u, ran, -⟩ := closes partId 0 fresh
  rw [calls, Procs.run_solo, idle] at ran
  obtain ⟨_, ran, -⟩ := Option.map_eq_some_iff.mp ran
  have unmarked : ¬ x.Tagged w.shared.rows := by
    rintro ⟨r, mem, marked⟩
    have looksUp : ∀ row, statement x w.shared (.loaded row) (.lookup none) = none := by
      intro row
      rw [statement, if_neg fun none => none r mem marked]
    have loads : ∀ c, statement x w.shared .idle .load = some c → c.1 = w.shared ∧ ∃ row, c.2 = .loaded row := by
      rintro c loaded
      obtain ⟨row, -, rfl⟩ := Option.map_eq_some_iff.mp loaded
      exact ⟨rfl, row, rfl⟩
    simp only [closing, Procs.solo] at ran
    obtain ⟨⟨s, point⟩, loaded, ran⟩ := Option.bind_eq_some_iff.mp ran
    obtain ⟨rfl, row, rfl⟩ := loads _ loaded
    simp [looksUp] at ran
  have untouched : Untouched x w := by
    rcases held with untouched | ⟨id, claimed⟩
    · exact untouched
    · exact absurd claimed.tagged unmarked
  by_contra outside
  obtain ⟨why, refused⟩ := commitMark_refused (x := x) (s := w.shared)
      (fun inside => outside ⟨inside.1, inside.2, unmarked⟩) partId
  obtain ⟨loads, looksUp, commits⟩ := untouched.statements unmarked fresh
  have hasEnded : statement x w.shared (.ended (.refused why)) (.close 0) = none := rfl
  simp [closing, Procs.solo, loads, looksUp, commits, refused, hasEnded] at ran

/-- The call has not got past the look-up. -/
def Point.Looking : Point → Prop
  | .idle | .loaded _ | .ended _ => True
  | .unmarked _ | .marked _ => False

theorem looking_of_over {point : Point} (hasEnded : point.Over = true) : point.Looking := by
  cases point with
  | unmarked row | marked target => cases hasEnded
  | _ => trivial

/-- With a row marked and no call running, no later call ever closes anything. -/
theorem stuck (tagged : x.Tagged w.shared.rows) (quiet : Quiet w) {more : List (ProcEvent n Action Empty)}
    {u : Procs Books Point n} (ran : (calls x n).run w more = some u) : u.shared = w.shared := by
  have still := (calls x n).run_invariant_all
    (P := fun u => u.shared = w.shared ∧ ∀ who, (u.point who).Looking) ?_
      ⟨rfl, fun who => looking_of_over (quiet who)⟩ ran
  · exact still.1
  rintro v event t ⟨same, points⟩ stepped
  cases event with
  | outside event => exact event.elim
  | act who action =>
    obtain ⟨s, next, ran, rfl⟩ := Procs.act_eq stepped
    have here := points who
    have moves : ∀ {next : Point}, next.Looking → ∀ q, ((v.move who v.shared next).point q).Looking :=
      fun there => Procs.forall_move (fun q _ => points q) there
    rcases statement_cases ran with ⟨-, rfl, row, -, rfl⟩ | ⟨row, -, rfl, none, -⟩ | ⟨rfl, ⟨answer, rfl⟩, -⟩ |
      ⟨row, partId, at_, -⟩ | ⟨target, now, at_, -⟩
    · exact ⟨same, moves trivial⟩
    · obtain ⟨r, mem, marked⟩ := tagged
      exact absurd marked (none r (same ▸ mem))
    · exact ⟨same, moves trivial⟩
    · rw [at_] at here
      exact here.elim
    · rw [at_] at here
      exact here.elim

/-- In every run of calls with one reference what is closed is nothing or the lots asked, once. With nothing closed
and no call running, the next call closes them exactly when the position has the lots and no row has the
reference's mark, and where one has it no call ever will; and in a run in which no call ends between its commit
and its close, none has it that had not before. -/
theorem exitPart_once {n : ℕ} {x : Exit} {events : List (ProcEvent n Action Empty)} {w : Procs Books Point n}
    (ran : (calls x n).run (opening x n) events = some w) :
    x.ClosedOnce w.shared.closed ∧ (Quiet w → w.shared.closed = [] →
      (∀ who, w.point who = .idle →
        (x.NextCloses w who ↔ 1 ≤ x.lots ∧ x.lots ≤ x.lotsOf x.row ∧ ¬ x.Tagged w.shared.rows)) ∧
      (x.Tagged w.shared.rows → ∀ more u, (calls x n).run w more = some u → u.shared.closed = []) ∧
      ((calls x n).Meets Unbroken (opening x n) events → ¬ x.Tagged x.start → ¬ x.Tagged w.shared.rows)) := by
  have held := calls_claimed ran
  refine ⟨?_, fun quiet none => ⟨fun who idle => ⟨closes_only held idle, ?_⟩, ?_, ?_⟩⟩
  · rcases held with untouched | ⟨id, claimed⟩
    · exact .inl untouched.closed
    · exact claimed.closedOnce
  · rintro ⟨positive, within, unmarked⟩
    have untouched : Untouched x w := by
      rcases held with untouched | ⟨id, claimed⟩
      · exact untouched
      · exact absurd claimed.tagged unmarked
    exact untouched.closes unmarked positive within idle
  · intro tagged more u later
    rw [stuck tagged quiet later, none]
  · intro unbroken fresh
    rcases calls_closing unbroken ran with untouched | ⟨-, closing⟩
    · rintro ⟨r, mem, marked⟩
      exact fresh ⟨r, untouched.rows ▸ mem, marked⟩
    · obtain ⟨who, target, at_⟩ := closing none
      have hasEnded := quiet who
      rw [at_] at hasEnded
      cases hasEnded

/-! ## Two lots of three -/

/-- The call has not begun. -/
def Point.isIdle : Point → Bool
  | .idle => true
  | _ => false

theorem eq_idle {point : Point} (idle : point.isIdle = true) : point = .idle := by
  cases point <;> first | rfl | exact absurd idle (by simp [Point.isIdle])

/-- Two lots of a position of three, under one reference. -/
def twoOfThree : Exit where
  start := ⟨[{ id := 1, quantity := 225, opened := 225 }], []⟩
  row := { id := 1, quantity := 225, opened := 225 }
  stored := List.mem_singleton_self _
  isOpen := rfl
  ids_nodup := List.nodup_singleton _
  unit := 75
  unit_pos := by norm_num
  lots := 2
  tag := "0f3a"

/-- A call that stops before its commit leaves the exit to the next one. -/
theorem exitPart_once_stoppedEarly :
    ∃ w, (calls twoOfThree 2).run (opening twoOfThree 2) [.act 0 .load, .act 0 (.lookup none), .act 0 .stop] = some w ∧
      w.shared.closed = [] ∧ twoOfThree.NextCloses w 1 := by
  have runs : ((calls twoOfThree 2).run (opening twoOfThree 2) [.act 0 .load, .act 0 (.lookup none), .act 0 .stop]).any
      (fun w => decide ((w.point 1).isIdle = true ∧ Quiet w ∧ w.shared.closed.length = 0 ∧
        ¬ twoOfThree.Tagged w.shared.rows)) = true := by decide +kernel
  obtain ⟨w, ran, after⟩ := (Option.any_eq_true _ _).mp runs
  obtain ⟨idle, quiet, none, unmarked⟩ := of_decide_eq_true after
  have none := List.length_eq_zero_iff.mp none
  have idle := eq_idle idle
  exact ⟨w, ran, none, (((exitPart_once ran).2 quiet none).1 1 idle).mpr ⟨by decide, by decide +kernel, unmarked⟩⟩

/-- A call that stops between its commit and its close leaves the part open and marked: the next call does not close
it, and none ever does. -/
theorem exitPart_stoppedLate :
    ∃ w, (calls twoOfThree 2).run (opening twoOfThree 2)
        [.act 0 .load, .act 0 (.lookup none), .act 0 (.commit 2), .act 0 .stop] = some w ∧
      Quiet w ∧ w.shared.closed = [] ∧ w.point 1 = .idle ∧ ¬ twoOfThree.NextCloses w 1 ∧
        ∀ more u, (calls twoOfThree 2).run w more = some u → u.shared.closed = [] := by
  have runs : ((calls twoOfThree 2).run (opening twoOfThree 2)
        [.act 0 .load, .act 0 (.lookup none), .act 0 (.commit 2), .act 0 .stop]).any
      (fun w => decide ((w.point 1).isIdle = true ∧ Quiet w ∧ w.shared.closed.length = 0 ∧
        twoOfThree.Tagged w.shared.rows)) = true := by decide +kernel
  obtain ⟨w, ran, after⟩ := (Option.any_eq_true _ _).mp runs
  obtain ⟨idle, quiet, none, tagged⟩ := of_decide_eq_true after
  have none := List.length_eq_zero_iff.mp none
  have idle := eq_idle idle
  refine ⟨w, ran, quiet, none, idle, ?_, fun more u later => ?_⟩
  · exact fun closes => (closes_only (calls_claimed ran) idle closes).2.2 tagged
  · rw [stuck tagged quiet later, none]

end AdvanceTrading.ExitPart
