import AdvanceTrading.Trading.TradeSplit

/-!
# What the closes of a split position book

Model of the PAPER booking of `close_position` (`app/trading/position_monitor.py:1043-1078`)
over the rows of a position and their splits. A close claims its row by its exit
time alone and computes the gross P&L with the row as its session loaded it. A
booking is what a claimed row's exit columns hold then, the exit price and the
P&L before they are rounded and without the charges.
-/

namespace AdvanceTrading.CloseBooking

open Rows
open TradeSplit (Trade ExitOrder Shared Point Action OrderEvent Opened Sound)

inductive Direction where
  | long
  | short
  deriving DecidableEq, Repr

/-- The columns that every row of one position has alike. -/
structure Position where
  direction : Direction
  entryPrice : ℚ

/-- `direction_sign`. -/
def Position.directionSign (p : Position) : ℚ :=
  match p.direction with
  | .long => 1
  | .short => -1

/-- `gross_pnl` of a quantity. -/
def Position.grossPnl (p : Position) (exitPrice quantity : ℚ) : ℚ :=
  p.directionSign * (exitPrice - p.entryPrice) * quantity

/-- What a close books on its row. -/
structure Booking where
  tradeId : Nat
  exitPrice : ℚ
  grossPnl : ℚ
  deriving DecidableEq, Repr

/-- The stored rows, and the bookings in their order. -/
structure Books where
  rows : Shared
  booked : List Booking
  deriving DecidableEq

/-- The next statement of a request, with the exit price a close is given. -/
structure Request where
  action : Action
  exitPrice : ℚ := 0

/-- The row a request would close, as it is in memory. -/
def closes : Point → Action → Option Trade
  | .loaded row, .close _ => some row
  | .split part, .close _ => some part
  | _, _ => none

/-- A statement of a request; a close that claims its row books it. -/
def statement (p : Position) (books : Books) (point : Point) (request : Request) :
    Option (Books × Point) :=
  (TradeSplit.statement books.rows point request.action).map fun (rows, next) =>
    match closes point request.action, next with
    | some row, .closed =>
        (⟨rows, books.booked ++ [⟨row.id, request.exitPrice,
          p.grossPnl request.exitPrice row.quantity⟩]⟩, next)
    | _, _ => (⟨rows, books.booked⟩, next)

def orderEvent (books : Books) (event : OrderEvent) : Option Books :=
  (TradeSplit.orderEvent books.rows event).map fun rows => ⟨rows, books.booked⟩

/-- Any number of sessions that split and close one position. -/
def sessions (p : Position) (n : Nat) : Machine (Procs Books Point n) (ProcEvent n Request OrderEvent) :=
  Procs.interleave (statement p) orderEvent n

def opening (n : Nat) (row : Trade) (orders : List ExitOrder) : Procs Books Point n :=
  ⟨⟨⟨[row], orders⟩, []⟩, fun _ => .idle⟩

/-! ## What is to hold -/

/-- The rows add up to the position, each closed one has one booking, and that is of the row's own
quantity. -/
structure Settles (p : Position) (whole : ℚ) (books : Books) : Prop where
  total : (books.rows.trades.map Trade.quantity).sum = whole
  once : (books.booked.map Booking.tradeId).Nodup
  closed : ∀ r ∈ books.rows.trades, r.exitTime ≠ none ↔ r.id ∈ books.booked.map Booking.tradeId
  stored : ∀ b ∈ books.booked, ∃ r ∈ books.rows.trades, r.id = b.tradeId
  own : ∀ b ∈ books.booked, ∀ r ∈ books.rows.trades, r.id = b.tradeId →
    b.grossPnl = p.grossPnl b.exitPrice r.quantity

/-- A close of an open row has the stored quantity in memory. -/
def ClosesAsStored {n : Nat} (w : Procs Books Point n) : ProcEvent n Request OrderEvent → Prop
  | .act who request => ∀ row ∈ closes (w.point who) request.action, row.exitTime = none →
      ∀ r ∈ w.shared.rows.trades, r.id = row.id → r.exitTime = none → row.quantity = r.quantity
  | .outside _ => True

instance {n : Nat} (w : Procs Books Point n) : ∀ event, Decidable (ClosesAsStored w event)
  | .act who request => inferInstanceAs (Decidable (∀ row ∈ closes (w.point who) request.action, _))
  | .outside _ => isTrue trivial

/-! ## Statements -/

variable {s t : Shared} {row : Trade}

/-- A close is refused, or closes the one open row it names. -/
theorem close_cases (s : Shared) (row : Trade) (now : Int) :
    (∃ why, TradeSplit.close s row now = (s, .refused why)) ∨
      row.exitTime = none ∧ ∃ r, s.trades.filter (fun r => r.id = row.id ∧ r.exitTime = none) = [r] ∧
        TradeSplit.close s row now = ({ s with
          trades := setWhere (fun r => r.id = row.id ∧ r.exitTime = none)
            (fun r => { r with exitTime := some now }) s.trades }, .closed) := by
  unfold TradeSplit.close
  dsimp only
  split
  · exact .inl ⟨_, rfl⟩
  rename_i held
  split
  · exact .inl ⟨_, rfl⟩
  · rename_i one
    rw [not_ne_iff, List.countP_eq_length_filter] at one
    obtain ⟨r, found⟩ := List.length_eq_one_iff.mp one
    exact .inr ⟨Option.not_isSome_iff_eq_none.mp held, r, found, rfl⟩

/-- The rows that are closed are the same. -/
def SameClosed (s t : Shared) : Prop :=
  ∀ r : Trade, r.exitTime ≠ none → (r ∈ t.trades ↔ r ∈ s.trades)

/-- A split writes open rows only. -/
theorem splitOff_sameClosed {quantity : ℚ} {partId : Nat} {marks : List (String × String)} {part : Trade}
    (done : TradeSplit.splitOff s row quantity partId marks = .ok (t, part)) : SameClosed s t := by
  obtain ⟨held, -, -, -, rfl, rfl⟩ := TradeSplit.splitOff_ok done
  intro r closed
  constructor
  · intro mem
    rcases List.mem_append.mp mem with old | new
    · obtain ⟨q, q_mem, ⟨met, rfl⟩ | ⟨-, rfl⟩⟩ := mem_setWhere old
      · exact absurd (of_decide_eq_true met).2.1 closed
      · exact q_mem
    · rw [List.mem_singleton.mp new] at closed
      exact absurd rfl closed
  · intro mem
    refine List.mem_append_left _ (List.mem_map.mpr ⟨r, mem, if_neg ?_⟩)
    intro met
    exact closed (of_decide_eq_true met).2.1

/-- A statement closes the row it was to close, and that as it was stored; or the closed rows are
as they were. -/
theorem statement_cases {point next : Point} {action : Action}
    (stepped : TradeSplit.statement s point action = some (t, next)) :
    (∃ row now r, closes point action = some row ∧ next = .closed ∧ row.exitTime = none ∧
      s.trades.filter (fun r => r.id = row.id ∧ r.exitTime = none) = [r] ∧
      t = { s with
        trades := setWhere (fun r => r.id = row.id ∧ r.exitTime = none)
          (fun r => { r with exitTime := some now }) s.trades }) ∨
      (closes point action = none ∨ next ≠ .closed) ∧ SameClosed s t := by
  unfold TradeSplit.statement at stepped
  split at stepped
  · cases stepped
    exact .inr ⟨.inl (by cases point <;> rfl), fun _ _ => Iff.rfl⟩
  · obtain ⟨r, -, same⟩ := Option.map_eq_some_iff.mp stepped
    cases same
    exact .inr ⟨.inl rfl, fun _ _ => Iff.rfl⟩
  · split at stepped
    · split at stepped
      · rename_i done
        cases stepped
        exact .inr ⟨.inl rfl, splitOff_sameClosed done⟩
      · cases stepped
        exact .inr ⟨.inl rfl, fun _ _ => Iff.rfl⟩
    · cases stepped
  · rename_i row now
    rcases close_cases s row now with ⟨why, refused⟩ | ⟨open_, r, found, closed⟩
    · rw [refused] at stepped
      cases stepped
      exact .inr ⟨.inr (by simp), fun _ _ => Iff.rfl⟩
    · rw [closed] at stepped
      cases stepped
      exact .inl ⟨row, now, r, rfl, rfl, open_, found, rfl⟩
  · rename_i part now
    rcases close_cases s part now with ⟨why, refused⟩ | ⟨open_, r, found, closed⟩
    · rw [refused] at stepped
      cases stepped
      exact .inr ⟨.inr (by simp), fun _ _ => Iff.rfl⟩
    · rw [closed] at stepped
      cases stepped
      exact .inl ⟨part, now, r, rfl, rfl, open_, found, rfl⟩
  · split at stepped
    · unfold TradeSplit.arm at stepped
      split at stepped <;> cases stepped <;> exact .inr ⟨.inl rfl, fun _ _ => Iff.rfl⟩
    · cases stepped
  · cases stepped

/-! ## Books -/

variable {p : Position} {whole : ℚ} {books : Books}

/-- Bookings stand while the closed rows do. -/
theorem Settles.sameClosed (settles : Settles p whole books) (sound : Sound whole t)
    (same : SameClosed books.rows t) : Settles p whole ⟨t, books.booked⟩ := by
  have booked (b : Booking) (mem : b ∈ books.booked) : ∃ r ∈ t.trades, r ∈ books.rows.trades ∧
      r.id = b.tradeId ∧ r.exitTime ≠ none := by
    obtain ⟨r, stored, isId⟩ := settles.stored b mem
    have closed := (settles.closed r stored).mpr (isId ▸ List.mem_map_of_mem mem)
    exact ⟨r, (same r closed).mpr stored, stored, isId, closed⟩
  have unique {r r' : Trade} (mem : r ∈ t.trades) (mem' : r' ∈ t.trades) (isId : r.id = r'.id) : r = r' :=
    List.inj_on_of_nodup_map sound.ids mem mem' isId
  refine ⟨sound.conserved.total, settles.once, ?_, ?_, ?_⟩
  · intro r mem
    constructor
    · intro closed
      exact (settles.closed r ((same r closed).mp mem)).mp closed
    · intro isBooked
      obtain ⟨b, inBooked, isId⟩ := List.mem_map.mp isBooked
      obtain ⟨r', mem', -, isId', closed⟩ := booked b inBooked
      rw [unique mem mem' (isId.symm.trans isId'.symm)]
      exact closed
  · intro b inBooked
    obtain ⟨r, mem, -, isId, -⟩ := booked b inBooked
    exact ⟨r, mem, isId⟩
  · intro b inBooked r mem isId
    obtain ⟨r', mem', stored, isId', -⟩ := booked b inBooked
    rw [unique mem mem' (isId.trans isId'.symm)]
    exact settles.own b inBooked r' stored isId'

/-- A close that has the stored quantity in memory books its row's own. -/
theorem Settles.close (settles : Settles p whole books) (sound : Sound whole books.rows) {r : Trade}
    (found : books.rows.trades.filter (fun r => r.id = row.id ∧ r.exitTime = none) = [r])
    (current : row.quantity = r.quantity) (now : Int) (exitPrice : ℚ) :
    Settles p whole ⟨{ books.rows with
      trades := setWhere (fun r => r.id = row.id ∧ r.exitTime = none)
        (fun r => { r with exitTime := some now }) books.rows.trades },
      books.booked ++ [⟨row.id, exitPrice, p.grossPnl exitPrice row.quantity⟩]⟩ := by
  have isClaimed : r ∈ books.rows.trades.filter (fun r => r.id = row.id ∧ r.exitTime = none) := by
    rw [found]
    exact List.mem_singleton_self r
  obtain ⟨stored, met⟩ := List.mem_filter.mp isClaimed
  obtain ⟨isRow, open_⟩ := of_decide_eq_true met
  have unbooked : row.id ∉ books.booked.map Booking.tradeId := fun isBooked =>
    (settles.closed r stored).mpr (isRow ▸ isBooked) open_
  have unique (q : Trade) (mem : q ∈ books.rows.trades) (isId : q.id = row.id) : q = r :=
    List.inj_on_of_nodup_map sound.ids mem stored (isId.trans isRow.symm)
  have written (q : Trade) (mem : q ∈ setWhere (fun r => r.id = row.id ∧ r.exitTime = none)
      (fun r => { r with exitTime := some now }) books.rows.trades) :
      ∃ old ∈ books.rows.trades, q.id = old.id ∧ q.quantity = old.quantity ∧
        (q.exitTime ≠ none ↔ old.exitTime ≠ none ∨ old.id = row.id) := by
    obtain ⟨old, inRows, ⟨met, rfl⟩ | ⟨unmet, rfl⟩⟩ := mem_setWhere mem
    · exact ⟨old, inRows, rfl, rfl, iff_of_true (by simp) (.inr (of_decide_eq_true met).1)⟩
    · refine ⟨q, inRows, rfl, rfl, Iff.intro .inl ?_⟩
      rintro (closed | isId)
      · exact closed
      · exact fun isOpen => of_decide_eq_false unmet ⟨isId, isOpen⟩
  refine ⟨(sound.closed _ now).conserved.total, ?_, ?_, ?_, ?_⟩
  · simp only [List.map_append, List.map_cons, List.map_nil]
    exact settles.once.append (List.nodup_singleton _) (by simpa using unbooked)
  · intro q mem
    obtain ⟨old, inRows, isId, -, isClosed⟩ := written q mem
    rw [isClosed, settles.closed old inRows, isId]
    simp
  · intro b inBooked
    have kept (q : Trade) (mem : q ∈ books.rows.trades) : ∃ q' ∈ setWhere
        (fun r => r.id = row.id ∧ r.exitTime = none) (fun r => { r with exitTime := some now })
        books.rows.trades, q'.id = q.id := by
      refine ⟨_, List.mem_map_of_mem mem, ?_⟩
      split <;> rfl
    rcases List.mem_append.mp inBooked with old | new
    · obtain ⟨q, mem, isId⟩ := settles.stored b old
      obtain ⟨q', mem', isId'⟩ := kept q mem
      exact ⟨q', mem', isId'.trans isId⟩
    · obtain ⟨q', mem', isId'⟩ := kept r stored
      rw [List.mem_singleton.mp new]
      exact ⟨q', mem', isId'.trans isRow⟩
  · intro b inBooked q mem isBooking
    obtain ⟨old, inRows, isId, sameQuantity, -⟩ := written q mem
    rw [sameQuantity]
    rcases List.mem_append.mp inBooked with earlier | new
    · exact settles.own b earlier old inRows (isId.symm.trans isBooking)
    · rw [List.mem_singleton.mp new] at isBooking ⊢
      rw [unique old inRows (isId.symm.trans isBooking), current]

/-! ## Runs -/

section Run

variable {n : Nat} {w u : Procs Books Point n} {event : ProcEvent n Request OrderEvent}

theorem sessions_settle (sound : Sound whole w.shared.rows) (settles : Settles p whole w.shared)
    (asStored : ClosesAsStored w event) (stepped : (sessions p n).step w event = some u) :
    Sound whole u.shared.rows ∧ Settles p whole u.shared := by
  cases event with
  | act who request =>
    obtain ⟨books, next, ran, rfl⟩ := Procs.act_eq stepped
    obtain ⟨⟨rows, next'⟩, acted, isNext⟩ := Option.map_eq_some_iff.mp ran
    have sound' := sound.statement acted
    rcases statement_cases acted with ⟨row, now, r, closing, rfl, isOpen, found, rfl⟩ | ⟨other, same⟩
    · have isClaimed : r ∈ w.shared.rows.trades.filter (fun r => r.id = row.id ∧ r.exitTime = none) := by
        rw [found]
        exact List.mem_singleton_self r
      obtain ⟨stored, met⟩ := List.mem_filter.mp isClaimed
      obtain ⟨isRow, open_⟩ := of_decide_eq_true met
      simp only [closing] at isNext
      cases isNext
      have current := asStored row closing isOpen r stored isRow open_
      exact ⟨sound', settles.close sound found current now request.exitPrice⟩
    · have unbooked : books = ⟨rows, w.shared.booked⟩ := by
        rcases other with none_ | open_
        · simp only [none_] at isNext
          exact (congrArg Prod.fst isNext).symm
        · dsimp only at isNext
          split at isNext
          · contradiction
          · exact (congrArg Prod.fst isNext).symm
      subst unbooked
      exact ⟨sound', settles.sameClosed sound' same⟩
  | outside event =>
    obtain ⟨books, ran, rfl⟩ := Procs.outside_eq stepped
    obtain ⟨rows, wrote, rfl⟩ := Option.map_eq_some_iff.mp ran
    have trades := TradeSplit.orderEvent_trades wrote
    have sound' : Sound whole rows := sound.congr (congrArg (List.map Trade.held) trades)
    exact ⟨sound', settles.sameClosed sound' fun r _ => by rw [trades]⟩

end Run

/-- In every run in which a close has the stored quantity in memory, the rows add up to the
position, each is closed at most once, and its P&L is that of its own quantity. -/
theorem closes_settle {n : Nat} {p : Position} {row : Trade} {orders : List ExitOrder}
    {events : List (ProcEvent n Request OrderEvent)} {w : Procs Books Point n}
    (start : Opened row orders) (open_ : row.exitTime = none)
    (meets : (sessions p n).Meets ClosesAsStored (opening n row orders) events)
    (ran : (sessions p n).run (opening n row orders) events = some w) :
    Settles p row.quantity w.shared := by
  have preserves : ∀ s event t, Sound row.quantity s.shared.rows ∧ Settles p row.quantity s.shared →
      ClosesAsStored s event → (sessions p n).step s event = some t →
      Sound row.quantity t.shared.rows ∧ Settles p row.quantity t.shared :=
    fun s event t ⟨sound, settles⟩ asStored stepped => sessions_settle sound settles asStored stepped
  have settled : Settles p row.quantity ⟨⟨[row], orders⟩, []⟩ := by
    refine ⟨start.sound.conserved.total, List.nodup_nil, ?_, by simp, by simp⟩
    intro r mem
    rw [List.mem_singleton.mp mem]
    simp [open_]
  exact ((sessions p n).run_invariant preserves ⟨start.sound, settled⟩ meets ran).2

/-- A long position of two lots, entered at 100. -/
def longAt100 : Position := ⟨.long, 100⟩

/-- One session splits a lot off and closes it, then another loads the rest and closes that. -/
def closesInTurn : List (ProcEvent 2 Request OrderEvent) :=
  [.act 0 ⟨.load 1, 0⟩, .act 0 ⟨.split 75 2 [], 0⟩, .act 0 ⟨.close 5, 110⟩,
    .act 1 ⟨.load 1, 0⟩, .act 1 ⟨.close 6, 110⟩]

theorem closesInTurn_settle : ∃ w, (sessions longAt100 2).run
    (opening 2 TradeSplit.twoLots [TradeSplit.armedStop]) closesInTurn = some w ∧
      Settles longAt100 150 w.shared ∧ w.shared.booked = [⟨2, 110, 750⟩, ⟨1, 110, 750⟩] := by
  have runs : ((sessions longAt100 2).run (opening 2 TradeSplit.twoLots [TradeSplit.armedStop])
      closesInTurn).any (fun w => decide (w.shared.booked = [⟨2, 110, 750⟩, ⟨1, 110, 750⟩])) = true := by
    decide +kernel
  obtain ⟨w, ran, booked⟩ := (Option.any_eq_true _ _).mp runs
  have meets : (sessions longAt100 2).Meets ClosesAsStored
      (opening 2 TradeSplit.twoLots [TradeSplit.armedStop]) closesInTurn := by decide +kernel
  exact ⟨w, ran, closes_settle TradeSplit.twoLots_opened rfl meets ran, of_decide_eq_true booked⟩

/-- The other session has loaded the position before the split. -/
def closesStale : List (ProcEvent 2 Request OrderEvent) :=
  [.act 1 ⟨.load 1, 0⟩, .act 0 ⟨.load 1, 0⟩, .act 0 ⟨.split 75 2 [], 0⟩, .act 0 ⟨.close 5, 110⟩,
    .act 1 ⟨.close 6, 110⟩]

/-- The rest is closed with the P&L of the whole position: the lot's profit is booked twice. -/
theorem closesStale_twice : ∃ w, (sessions longAt100 2).run
    (opening 2 TradeSplit.twoLots [TradeSplit.armedStop]) closesStale = some w ∧
      w.shared.booked = [⟨2, 110, 750⟩, ⟨1, 110, 1500⟩] ∧ ¬ Settles longAt100 150 w.shared := by
  have runs : ((sessions longAt100 2).run (opening 2 TradeSplit.twoLots [TradeSplit.armedStop])
      closesStale).any (fun w => decide (w.shared.booked = [⟨2, 110, 750⟩, ⟨1, 110, 1500⟩] ∧
        ∃ r ∈ w.shared.rows.trades, r.id = 1 ∧ r.quantity = 75)) = true := by
    decide +kernel
  obtain ⟨w, ran, found⟩ := (Option.any_eq_true _ _).mp runs
  obtain ⟨booked, r, mem, isId, isQuantity⟩ := of_decide_eq_true found
  refine ⟨w, ran, booked, fun settles => ?_⟩
  have own := settles.own ⟨1, 110, 1500⟩ (by rw [booked]; simp) r mem isId
  rw [isQuantity] at own
  revert own
  decide +kernel

end AdvanceTrading.CloseBooking
