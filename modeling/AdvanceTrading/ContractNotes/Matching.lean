import AdvanceTrading.Misc.Dict
import AdvanceTrading.Misc.Rounding

/-!
# Contract notes

Model of `match_legs` and `ingest_contract_note` (`app/contract_notes/service.py:70-210`) for the
trades of one organisation. A leg is known by its row in its note, a note by its file. The stored
lines, the counts and the audit row are left out.
-/

namespace AdvanceTrading.ContractNotes

/-- Times are microseconds since the epoch, dates are days since it. -/
def dayUs : ℤ := 86400000000

/-- India's clock is ahead by this. -/
def istUs : ℤ := 19800000000

/-- What the parser makes of a charge: `round(abs(..), 2)`. -/
abbrev Charge := { x : ℚ // Py.round2 x = x ∧ 0 ≤ x }

inductive Side where
  | buy
  | sell
  deriving DecidableEq

inductive Direction where
  | long
  | short
  deriving DecidableEq

/-- A `ContractNoteLeg`. -/
structure Leg where
  row : ℕ
  symbol : String
  side : Side
  quantity : ℚ
  tradeDate : Option ℤ
  orderId : Option String
  charges : Charge
  deriving DecidableEq

/-- A parsed note: its rows are numbered. -/
structure Note where
  id : ℕ
  legs : List Leg
  rows : (legs.map (·.row)).Nodup

/-- What a note does not write of a `TradeRecord`. -/
structure Position where
  id : ℕ
  symbol : String
  direction : Direction
  quantity : ℚ
  entryTime : ℤ
  entryPrice : ℚ
  exitTime : Option ℤ
  exitPrice : Option ℚ
  brokerOrderId : Option String := none
  slOrderId : Option String := none
  exitOrderId : Option String := none
  deriving DecidableEq

inductive Source where
  | estimate
  | contractNote
  deriving DecidableEq

/-- A `TradeRecord`. -/
structure Trade extends Position where
  pnl : Option ℚ
  charges : ℚ := 0
  chargesSource : Source := .estimate
  contractNoteId : Option ℕ := none
  deriving DecidableEq

/-! ## `match_legs` -/

/-- The entry's, the stop's and the exit's order. -/
def Position.orders (p : Position) : List String :=
  [p.brokerOrderId, p.slOrderId, p.exitOrderId].filterMap fun order => order

def tradeSide (p : Position) (isEntry : Bool) : Side :=
  match p.direction, isEntry with
  | .long, true | .short, false => .buy
  | .long, false | .short, true => .sell

/-- India's dates of the entry and the exit. -/
def tradeDates (p : Position) : List ℤ :=
  ([some p.entryTime, p.exitTime].filterMap fun ts => ts).map fun ts => (ts + istUs) / dayUs

inductive Method where
  | orderId
  | fill
  deriving DecidableEq

/-- A leg that is matched to a trade. -/
structure Match where
  tradeId : ℕ
  leg : Leg
  method : Method

/-- The trade of each order: a later one takes an order that an earlier one has. -/
def byOrder (trades : List Position) : Dict String ℕ :=
  trades.foldl (fun d p => p.orders.foldl (fun d order => Dict.set order p.id d) d) []

def matchByOrder (trades : List Position) (legs : List Leg) : List Match :=
  legs.filterMap fun leg => (leg.orderId.bind fun order => Dict.get order (byOrder trades)).map
    fun id => ⟨id, leg, .orderId⟩

/-- An unused leg of the symbol, the side, the quantity and a date. -/
def suits (upper : String → String) (p : Position) (isEntry : Bool) (used : List ℕ) (leg : Leg) : Bool :=
  leg.row ∉ used && leg.symbol = upper p.symbol && leg.side = tradeSide p isEntry
    && |leg.quantity - p.quantity| ≤ 1 / 1000000 && leg.tradeDate.all (· ∈ tradeDates p)

/-- The entry or the exit of a trade without a leg by order id takes the first leg that suits. -/
def fallback (upper : String → String) (legs : List Leg) (matched : List Match) (side : Position × Bool) : List Match :=
  let (p, isEntry) := side
  if !isEntry && p.exitTime.isNone then matched
  else if matched.any fun m => m.tradeId = p.id && m.method = .orderId && m.leg.side = tradeSide p isEntry then matched
  else
    match legs.find? (suits upper p isEntry (matched.map (·.leg.row))) with
    | none => matched
    | some leg => matched ++ [⟨p.id, leg, .fill⟩]

/-- All matches, in the order they are made. -/
def matches_ (upper : String → String) (legs : List Leg) (trades : List Position) : List Match :=
  (trades.flatMap fun p => [(p, true), (p, false)]).foldl (fallback upper legs) (matchByOrder trades legs)

def matchLegs (upper : String → String) (legs : List Leg) (trades : List Position) : Dict ℕ (List Match) :=
  Dict.groupBy (·.tradeId) (matches_ upper legs trades)

/-! ## `ingest_contract_note` -/

/-- The entry times of the trades a note is for: its dates and two days around them. -/
def Note.window (n : Note) : Option (ℤ × ℤ) :=
  let dates := n.legs.filterMap (·.tradeDate)
  match dates.min?, dates.max? with
  | some first, some last => some ((first - 2) * dayUs, (last + 3) * dayUs - 1)
  | _, _ => none

def Note.candidate (n : Note) (p : Position) : Bool :=
  n.window.all fun (lo, hi) => lo ≤ p.entryTime && p.entryTime ≤ hi

/-- The profit of a closed position before charges. -/
def Position.gross (p : Position) : Option ℚ :=
  p.exitPrice.map fun exitPrice =>
    (match p.direction with
      | .long => 1
      | .short => -1) * (exitPrice - p.entryPrice) * p.quantity

/-- A trade with the charges of its legs. -/
def Trade.settle (t : Trade) (note : ℕ) (legs : List Match) : Trade :=
  let charges := Py.round2 (legs.map fun m => (m.leg.charges : ℚ)).sum
  { t with
    charges := charges
    pnl :=
      match t.gross with
      | some gross => some (Py.round2 (gross - charges))
      | none => t.pnl
    chargesSource := .contractNote
    contractNoteId := some note }

/-- A trade with a result has it less the charges. -/
theorem Trade.settle_pnl {t : Trade} {gross : ℚ} (isGross : t.gross = some gross) (note : ℕ) (legs : List Match) :
    (t.settle note legs).pnl = some (Py.round2 (gross - (t.settle note legs).charges)) := by
  unfold settle
  dsimp only
  rw [isGross]

def ingest (upper : String → String) (trades : List Trade) (n : Note) : List Trade :=
  let matched := matchLegs upper n.legs ((trades.map (·.toPosition)).filter n.candidate)
  trades.map fun t =>
    match Dict.get t.id matched with
    | some legs => t.settle n.id legs
    | none => t

/-- Notes, one after the other. -/
def ingestAll (upper : String → String) (trades : List Trade) (notes : List Note) : List Trade :=
  notes.foldl (ingest upper) trades

/-! ## What is to hold -/

/-- The leg is of one of the position's orders. -/
def Position.owns (p : Position) (leg : Leg) : Bool := leg.orderId.any (· ∈ p.orders)

/-- All legs of some notes. -/
def allLegs (notes : List Note) : List Leg := notes.flatMap (·.legs)

/-- The charges of all legs of a position's orders. -/
def ownCharges (p : Position) (notes : List Note) : ℚ :=
  (((allLegs notes).filter p.owns).map fun leg => (leg.charges : ℚ)).sum

/-- Each trade has the charges of its own legs, its profit is less exactly these, and they add up. -/
structure Actual (trades : List Trade) (notes : List Note) : Prop where
  charges : ∀ t ∈ trades, t.charges = Py.round2 (ownCharges t.toPosition notes)
  pnl : ∀ t ∈ trades, t.pnl = t.gross.map fun gross => gross - t.charges
  total : (trades.map (·.charges)).sum = ((allLegs notes).map fun leg => (leg.charges : ℚ)).sum

/-- Whatever the order the notes are ingested in. -/
def ActualInAnyOrder (upper : String → String) (trades : List Trade) (notes : List Note) : Prop :=
  ∀ order : List Note, order.Perm notes →
    Actual (ingestAll upper trades order) notes ∧ ingestAll upper trades order = ingestAll upper trades notes

/-- The note with other charges, by note and row. -/
def Note.charged (charges : ℕ → ℕ → Charge) (n : Note) : Note where
  id := n.id
  legs := n.legs.map fun leg => { leg with charges := charges n.id leg.row }
  rows := by
    rw [List.map_map]
    exact n.rows

end AdvanceTrading.ContractNotes

/-!
# Matching, note by note

A leg is matched once, and to a trade that is a candidate for its note; where every leg is of a
candidate, all are matched by their orders. What the notes make of a trade they make of it one after
the other, each with the legs it gives the trade.
-/

namespace AdvanceTrading.ContractNotes

variable {upper : String → String} {legs : List Leg} {ps : List Position}

/-! ## Matches -/

theorem byOrder_snoc (ps : List Position) (p : Position) (order : String) :
    Dict.get order (byOrder (ps ++ [p])) = if order ∈ p.orders then some p.id else Dict.get order (byOrder ps) := by
  rw [byOrder, List.foldl_append]
  exact Dict.get_setAll Function.injective_id (fun _ => p.id) p.orders _ order

/-- An order is of a trade that has it. -/
theorem owner_of_byOrder {order : String} {id : ℕ} (found : Dict.get order (byOrder ps) = some id) :
    ∃ p ∈ ps, p.id = id ∧ order ∈ p.orders := by
  induction ps using List.reverseRecOn with
  | nil => cases found
  | append_singleton ps p ih =>
    rw [byOrder_snoc] at found
    split_ifs at found with own
    · exact ⟨p, List.mem_append_right _ List.mem_cons_self, Option.some.inj found, own⟩
    · obtain ⟨q, mem, rest⟩ := ih found
      exact ⟨q, List.mem_append_left _ mem, rest⟩

theorem byOrder_of_owner {order : String} {p : Position} (mem : p ∈ ps) (own : order ∈ p.orders) :
    ∃ id, Dict.get order (byOrder ps) = some id := by
  induction ps using List.reverseRecOn with
  | nil => cases mem
  | append_singleton ps q ih =>
    rw [byOrder_snoc]
    split_ifs with own'
    · exact ⟨q.id, rfl⟩
    · rcases List.mem_append.mp mem with before | last
      · exact ih before
      · rw [List.mem_singleton.mp last] at own
        exact absurd own own'

/-- The match of a leg by its order. -/
def orderMatch (ps : List Position) (leg : Leg) : Option Match :=
  (leg.orderId.bind fun order => Dict.get order (byOrder ps)).map fun id => ⟨id, leg, .orderId⟩

theorem orderMatch_some {leg : Leg} {m : Match} (matched : orderMatch ps leg = some m) :
    m.leg = leg ∧ ∃ p ∈ ps, p.id = m.tradeId ∧ p.owns leg = true := by
  obtain ⟨id, found, rfl⟩ := Option.map_eq_some_iff.mp matched
  obtain ⟨order, isOrder, found⟩ := Option.bind_eq_some_iff.mp found
  obtain ⟨p, mem, same, own⟩ := owner_of_byOrder found
  refine ⟨rfl, p, mem, same, ?_⟩
  rw [Position.owns, isOrder]
  simpa using own

theorem orderMatch_isSome {leg : Leg} {p : Position} (mem : p ∈ ps) (owns : p.owns leg = true) :
    (orderMatch ps leg).isSome = true := by
  rw [Position.owns] at owns
  cases order : leg.orderId with
  | none => simp [order] at owns
  | some o =>
    rw [order, Option.any_some, decide_eq_true_iff] at owns
    obtain ⟨id, found⟩ := byOrder_of_owner mem owns
    simp [orderMatch, order, found]

theorem matchByOrder_legs (ps : List Position) (legs : List Leg) :
    (matchByOrder ps legs).map (·.leg) = legs.filter fun leg => (orderMatch ps leg).isSome := by
  induction legs with
  | nil => rfl
  | cons leg legs ih =>
    change (legs.filterMap (orderMatch ps)).map _ = _ at ih
    show ((leg :: legs).filterMap (orderMatch ps)).map _ = _
    rw [List.filterMap_cons, List.filter_cons]
    cases found : orderMatch ps leg with
    | none => simpa using ih
    | some m =>
      rw [List.map_cons, (orderMatch_some found).1]
      simpa using ih

/-- A leg is matched once, and to one of the trades. -/
structure Once (ps : List Position) (legs : List Leg) (matched : List Match) : Prop where
  rows : (matched.map (·.leg.row)).Nodup
  legs : ∀ m ∈ matched, m.leg ∈ legs
  trades : ∀ m ∈ matched, ∃ p ∈ ps, p.id = m.tradeId

theorem once_byOrder (rows : (legs.map (·.row)).Nodup) : Once ps legs (matchByOrder ps legs) := by
  have same := matchByOrder_legs ps legs
  refine ⟨?_, ?_, ?_⟩
  · have sub : ((legs.filter fun leg => (orderMatch ps leg).isSome).map (·.row)).Nodup :=
      rows.sublist (List.filter_sublist.map _)
    rw [← same, List.map_map] at sub
    exact sub
  · intro m mem
    have listed : m.leg ∈ (matchByOrder ps legs).map (·.leg) := List.mem_map.mpr ⟨m, mem, rfl⟩
    rw [same] at listed
    exact (List.mem_filter.mp listed).1
  · intro m mem
    obtain ⟨leg, -, matched⟩ := List.mem_filterMap.mp mem
    obtain ⟨-, p, isTrade, same, -⟩ := orderMatch_some matched
    exact ⟨p, isTrade, same⟩

theorem once_fallback {matched : List Match} {side : Position × Bool} (once : Once ps legs matched)
    (mem : side.1 ∈ ps) : Once ps legs (fallback upper legs matched side) := by
  obtain ⟨p, isEntry⟩ := side
  unfold fallback
  dsimp only
  split_ifs
  · exact once
  · exact once
  cases found : legs.find? (suits upper p isEntry (matched.map (·.leg.row))) with
  | none => exact once
  | some leg =>
    have suited := List.find?_some found
    simp only [suits, Bool.and_eq_true, decide_eq_true_iff] at suited
    have old (m) (inNew : m ∈ matched ++ [⟨p.id, leg, .fill⟩]) :=
      (List.mem_append.mp inNew).imp id List.mem_singleton.mp
    refine ⟨?_, ?_, ?_⟩
    · rw [List.map_append, List.map_singleton]
      refine List.nodup_append.mpr ⟨once.rows, List.nodup_singleton _, ?_⟩
      rintro row isUsed other isNew rfl
      rw [List.mem_singleton.mp isNew] at isUsed
      exact suited.1.1.1.1 isUsed
    · intro m inNew
      rcases old m inNew with before | rfl
      · exact once.legs m before
      · exact List.mem_of_find?_eq_some found
    · intro m inNew
      rcases old m inNew with before | rfl
      · exact once.trades m before
      · exact ⟨p, mem, rfl⟩

theorem once_matches (rows : (legs.map (·.row)).Nodup) : Once ps legs (matches_ upper legs ps) := by
  have sides : ∀ side ∈ ps.flatMap (fun p => [(p, true), (p, false)]), side.1 ∈ ps := by
    intro side mem
    obtain ⟨p, isTrade, one⟩ := List.mem_flatMap.mp mem
    rcases List.mem_cons.mp one with rfl | two
    · exact isTrade
    · rw [List.mem_singleton.mp two]
      exact isTrade
  unfold matches_
  generalize ps.flatMap (fun p => [(p, true), (p, false)]) = all at sides
  have start : Once ps legs (matchByOrder ps legs) := once_byOrder rows
  generalize matchByOrder ps legs = matched at start
  induction all generalizing matched with
  | nil => exact start
  | cons side all ih =>
    exact ih (fun other mem => sides other (List.mem_cons_of_mem _ mem)) _
      (once_fallback start (sides side List.mem_cons_self))

/-- Where every leg is of a candidate, all legs are matched by their orders. -/
theorem matches_of_owned (owned : ∀ leg ∈ legs, ∃ p ∈ ps, p.owns leg = true) :
    matches_ upper legs ps = matchByOrder ps legs := by
  have all : (matchByOrder ps legs).map (·.leg) = legs := by
    rw [matchByOrder_legs, List.filter_eq_self]
    intro leg mem
    obtain ⟨p, isTrade, owns⟩ := owned leg mem
    exact orderMatch_isSome isTrade owns
  -- No leg is unused.
  have nothing (side : Position × Bool) : fallback upper legs (matchByOrder ps legs) side = matchByOrder ps legs := by
    obtain ⟨p, isEntry⟩ := side
    unfold fallback
    dsimp only
    split_ifs
    · rfl
    · rfl
    have unsuited : legs.find? (suits upper p isEntry ((matchByOrder ps legs).map (·.leg.row))) = none := by
      rw [List.find?_eq_none]
      intro leg mem suited
      simp only [suits, Bool.and_eq_true, decide_eq_true_iff] at suited
      refine suited.1.1.1.1 ?_
      rw [← all] at mem
      obtain ⟨m, inMatched, rfl⟩ := List.mem_map.mp mem
      exact List.mem_map.mpr ⟨m, inMatched, rfl⟩
    rw [unsuited]
  unfold matches_
  generalize ps.flatMap (fun p => [(p, true), (p, false)]) = sides
  induction sides with
  | nil => rfl
  | cons side sides ih => rw [List.foldl_cons, nothing, ih]

/-- The matches do not look at the charges. -/
theorem matches_map {g : Leg → Leg} (row : ∀ leg, (g leg).row = leg.row) (symbol : ∀ leg, (g leg).symbol = leg.symbol)
    (side : ∀ leg, (g leg).side = leg.side) (quantity : ∀ leg, (g leg).quantity = leg.quantity)
    (tradeDate : ∀ leg, (g leg).tradeDate = leg.tradeDate) (orderId : ∀ leg, (g leg).orderId = leg.orderId) :
    matches_ upper (legs.map g) ps = (matches_ upper legs ps).map fun m => { m with leg := g m.leg } := by
  have start : matchByOrder ps (legs.map g) = (matchByOrder ps legs).map fun m => { m with leg := g m.leg } := by
    rw [matchByOrder, matchByOrder, List.filterMap_map, List.map_filterMap]
    congr 1
    funext leg
    simp only [Function.comp_apply, orderId, Option.map_map]
    rfl
  have suited (p : Position) (isEntry : Bool) (matched : List Match) :
      (legs.map g).find? (suits upper p isEntry ((matched.map fun m => { m with leg := g m.leg }).map (·.leg.row))) =
        (legs.find? (suits upper p isEntry (matched.map (·.leg.row)))).map g := by
    rw [List.find?_map]
    congr 2
    funext leg
    simp only [suits, Function.comp_apply, row, symbol, side, quantity, tradeDate, List.map_map]
    congr 6
    simp [Function.comp_def, row]
  have next (matched : List Match) (one : Position × Bool) :
      fallback upper (legs.map g) (matched.map fun m => { m with leg := g m.leg }) one =
        (fallback upper legs matched one).map fun m => { m with leg := g m.leg } := by
    obtain ⟨p, isEntry⟩ := one
    simp only [fallback, suited, List.any_map, Function.comp_def, side]
    split_ifs
    · rfl
    · rfl
    · cases legs.find? (suits upper p isEntry (matched.map (·.leg.row))) with
      | none => rfl
      | some leg => simp
  unfold matches_
  rw [start]
  generalize ps.flatMap (fun p => [(p, true), (p, false)]) = sides
  generalize matchByOrder ps legs = matched
  induction sides generalizing matched with
  | nil => rfl
  | cons one sides ih => rw [List.foldl_cons, List.foldl_cons, next, ih]

/-! ## Trades, one by one -/

/-- The legs a note gives a trade. -/
def given (upper : String → String) (ps : List Position) (n : Note) (id : ℕ) : List Match :=
  (matches_ upper n.legs (ps.filter n.candidate)).filter fun m => m.tradeId = id

/-- What a note makes of a trade. -/
def Trade.noted (upper : String → String) (ps : List Position) (t : Trade) (n : Note) : Trade :=
  if given upper ps n t.id = [] then t else t.settle n.id (given upper ps n t.id)

variable {trades : List Trade} {notes : List Note} {t : Trade} {n : Note}

@[simp] theorem noted_toPosition (t : Trade) (n : Note) : (t.noted upper ps n).toPosition = t.toPosition := by
  unfold Trade.noted
  split_ifs <;> rfl

theorem ingest_eq (trades : List Trade) (n : Note) :
    ingest upper trades n = trades.map fun t => t.noted upper (trades.map (·.toPosition)) n := by
  unfold ingest
  apply List.map_congr_left
  intro t _
  rw [matchLegs, Dict.get_groupBy_eq, Trade.noted]
  show _ = if given upper (trades.map (·.toPosition)) n t.id = [] then _ else _
  by_cases nothing : given upper (trades.map (·.toPosition)) n t.id = []
  · rw [if_pos nothing]
    unfold given at nothing
    rw [if_pos nothing]
  · rw [if_neg nothing]
    unfold given at nothing ⊢
    rw [if_neg nothing]

/-- Notes make of each trade what they make of it one after the other. -/
theorem ingestAll_eq (trades : List Trade) (notes : List Note) :
    ingestAll upper trades notes =
      trades.map fun t => notes.foldl (fun t n => t.noted upper (trades.map (·.toPosition)) n) t := by
  induction notes generalizing trades with
  | nil => simp [ingestAll]
  | cons n notes ih =>
    have same : (ingest upper trades n).map (·.toPosition) = trades.map (·.toPosition) := by
      rw [ingest_eq, List.map_map]
      exact List.map_congr_left fun t _ => noted_toPosition t n
    show ingestAll upper (ingest upper trades n) notes = _
    rw [ih, same, ingest_eq, List.map_map]
    rfl

theorem foldl_toPosition (order : List Note) (t : Trade) :
    (order.foldl (fun t n => t.noted upper ps n) t).toPosition = t.toPosition := by
  induction order generalizing t with
  | nil => rfl
  | cons n order ih => rw [List.foldl_cons, ih, noted_toPosition]

/-- Notes that give a trade nothing leave it. -/
theorem foldl_nothing {order : List Note} (nothing : ∀ n ∈ order, given upper ps n t.id = []) :
    order.foldl (fun t n => t.noted upper ps n) t = t := by
  induction order with
  | nil => rfl
  | cons n order ih =>
    rw [List.foldl_cons, Trade.noted, if_pos (nothing n List.mem_cons_self)]
    exact ih fun m mem => nothing m (List.mem_cons_of_mem _ mem)

/-- A trade that one note gives something has that. -/
theorem foldl_one {order : List Note} (mem : n ∈ order) (distinct : (order.map (·.id)).Nodup)
    (nothing : ∀ m ∈ order, m.id ≠ n.id → given upper ps m t.id = []) :
    order.foldl (fun t n => t.noted upper ps n) t = t.noted upper ps n := by
  obtain ⟨before, after, rfl⟩ := List.append_of_mem mem
  rw [List.map_append, List.map_cons] at distinct
  obtain ⟨-, rest, apart⟩ := List.nodup_append.mp distinct
  rw [List.foldl_append, List.foldl_cons, foldl_nothing (t := t), foldl_nothing]
  · intro m inAfter
    rw [show (t.noted upper ps n).id = t.id from congrArg Position.id (noted_toPosition t n)]
    apply nothing m (List.mem_append_right _ (List.mem_cons_of_mem _ inAfter))
    intro same
    exact (List.nodup_cons.mp rest).1 (List.mem_map.mpr ⟨m, inAfter, same⟩)
  · intro m inBefore
    apply nothing m (List.mem_append_left _ inBefore)
    exact apart m.id (List.mem_map.mpr ⟨m, inBefore, rfl⟩) n.id List.mem_cons_self

end AdvanceTrading.ContractNotes
