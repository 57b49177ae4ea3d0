import AdvanceTrading.Execution.OrderStateMachine
import AdvanceTrading.Execution.PlaceLegs
import AdvanceTrading.Misc.Processes

/-!
# An approved entry proposal, from the decision to its outcome

Model of `execute_entry` and `_settle` (`app/execution/approval.py`), of the order
path below them as far as it opens positions (`execute_signal_for_user`,
`execute_structure`), and of the sweeps that settle a row that was left behind
(`expire_stale` and `_orphan_outcome` in `app/ai/monitor.py`,
`_free_deployment_slot`). One process carries the proposal out, the others sweep;
each takes one committed statement at a time, and may die at any of them.

The proposals are those for an underlying, for one contract and for a structure;
that for a trigger plan is not here. Left out are the texts, the notices, and the
steps of an order that open no position.
-/

namespace AdvanceTrading.EntryApproval

open PlaceLegs Execution

/-! ## Data -/

/-- The statuses of a proposal. -/
inductive Status where
  | proposed
  | approved
  | rejected
  | expired
  | executed
  | failed
  deriving DecidableEq, Repr

/-- What is to be placed. -/
inductive Kind where
  | underlying
  | contract
  | multiLeg (legs : List LegSpec)
  deriving DecidableEq

/-- A proposal; `gated` is whether its entries need an approved one. -/
structure Proposal where
  id : Nat
  kind : Kind
  gated : Bool

/-- The `AiActionRecord`. -/
structure Row where
  status : Status := .approved
  decidedAt : Option ℚ
  expiresAt : ℚ
  tradeId : Option Nat := none
  deriving DecidableEq

/-- An order of the proposal. -/
structure Order where
  key : String
  status : OrderStatus := .created
  tradeId : Option Nat := none
  deriving DecidableEq

/-- The proposal's row, its orders and the positions that they opened, by id, each with its order; and how
often the row was settled. -/
structure Desk where
  row : Row
  orders : List Order := []
  trades : List Nat := []
  settles : Nat := 0
  deriving DecidableEq

/-- `values`. -/
structure Values where
  status : Status
  tradeId : Option Nat := none
  deriving DecidableEq

/-! ## The statements -/

/-- `ORPHAN_MINUTES`, in seconds. -/
def orphanSeconds : ℚ := 10 * 60

def Proposal.ownKey (p : Proposal) : String := "approval:" ++ toString p.id

def Proposal.legKey (p : Proposal) (i : Nat) : String := p.ownKey ++ ":L" ++ toString i

/-- The idempotency keys of its orders. -/
def Proposal.keys (p : Proposal) : List String :=
  match p.kind with
  | .multiLeg legs => (List.range legs.length).map p.legKey
  | .underlying | .contract => [p.ownKey]

/-- `get_order_by_idempotency_key`. -/
def orderOf (key : String) (g : Desk) : Option Order := g.orders.find? fun order => order.key = key

/-- `_orphan_outcome`. -/
def orphanOutcome (p : Proposal) (g : Desk) : Values :=
  match (orderOf p.ownKey g).bind Order.tradeId with
  | some trade => { status := .executed, tradeId := some trade }
  | none => { status := .failed }

/-- The conditional update of a row. -/
def settleFrom (expect : Status) (values : Values) (g : Desk) : Desk :=
  if g.row.status = expect then
    { g with
      row := { g.row with status := values.status, tradeId := values.tradeId.or g.row.tradeId }
      settles := g.settles + 1 }
  else g

/-- `_reject_all`. -/
def rejectAll (made : List Nat) (g : Desk) : Desk :=
  { g with orders := g.orders.mapIdx fun i order => if i ∈ made then { order with status := .rejected } else order }

/-- What is returned for an order that is already there. -/
def Proposal.replayed (p : Proposal) (order : Order) : Values :=
  match p.kind with
  | .multiLeg _ => if order.status = .positionOpen then { status := .executed } else { status := .failed }
  | .underlying | .contract =>
      if order.status = .filled ∨ order.status = .positionOpen then { status := .executed, tradeId := order.tradeId }
      else { status := .failed }

/-- The orders of the legs that filled, when all legs are booked. -/
def filledOrders (legs : List LegSpec) (made : List Nat) (run : LegsRun) : List Nat :=
  (legs.zip made).filterMap fun (leg, i) => if leg.key ∈ Dict.keys run.fills then some i else none

/-- The orders of the legs that filled, when the engine stopped at a leg. -/
def partOrders (legs : List LegSpec) (made : List Nat) (run : LegsRun) : List Nat :=
  (Dict.keys run.fills).filterMap fun key =>
    ((legs.zip made).reverse.find? fun (leg, _) => leg.key = key).map Prod.snd

/-! ## The processes -/

/-- Where a process stands. -/
inductive Point where
  /-- It sweeps next, or is dead. -/
  | idle
  /-- `execute_entry`, before the order path. -/
  | checking
  | ordering (todo : List String) (made : List Nat)
  | placing (made : List Nat)
  /-- A position is opened for each order to do. -/
  | booking (todo : List Nat) (complete : Bool) (booked : List Nat)
  | linking (order trade : Nat) (todo : List Nat) (complete : Bool) (booked : List Nat)
  /-- `_settle`; `within` is inside the `try`. -/
  | settling (values : Values) (within : Bool)
  | returning
  /-- A sweep took the row as an orphan. -/
  | judging
  | writing (read : Status) (values : Values)

/-- What a process does next. -/
inductive Act where
  /-- The price moved. -/
  | drift
  | order
  | create
  | gate
  /-- A refusal of the order path. -/
  | reject
  /-- Everything fills at its price. -/
  | fill
  /-- The legs go through the smart-execution engine. -/
  | place (venue : Venue) (answer : Nat → LegAnswer)
  | persist
  | link
  | report
  | settle
  | finish
  /-- What it awaits raises, or it raises. -/
  | raise
  | sweep (now : ℚ)
  | judge
  | write
  /-- The process dies. -/
  | crash

/-- Inside the `try` of `execute_entry`. -/
def Point.within : Point → Bool
  | .checking | .ordering .. | .placing _ | .booking .. | .linking .. | .returning => true
  | .settling _ within => within
  | .idle | .judging | .writing .. => false

/-- One step of a process. -/
def statement (p : Proposal) (g : Desk) : Point → Act → Option (Desk × Point)
  | .checking, .drift => some (g, .settling { status := .expired } true)
  | .checking, .order => some (g, .ordering p.keys [])
  | .ordering (key :: todo) made, .create =>
      match orderOf key g with
      | some order => some (g, .settling (p.replayed order) (p.kind ≠ .underlying))
      | none => some ({ g with orders := g.orders ++ [{ key }] }, .ordering todo (made ++ [g.orders.length]))
  | .ordering [] made, .gate =>
      if p.gated ∧ g.row.status ≠ .approved then some (rejectAll made g, .settling { status := .failed } false)
      else some (g, .placing made)
  | .placing made, .reject => some (rejectAll made g, .settling { status := .failed } false)
  | .placing made, .fill => some (g, .booking made true [])
  | .placing made, .place venue answer =>
      match p.kind with
      | .multiLeg legs =>
          let run := placeLegs venue legs answer
          if run.state = .complete then some (g, .booking (filledOrders legs made run) true [])
          else if run.fills = [] then some (rejectAll made g, .settling { status := .failed } false)
          else some (g, .booking (partOrders legs made run) false [])
      | .underlying | .contract => none
  | .booking (order :: todo) complete booked, .persist =>
      some ({ g with
          orders := g.orders.modify order fun o => { o with status := .filled }
          trades := g.trades ++ [order] },
        .linking order g.trades.length todo complete booked)
  | .linking order trade todo complete booked, .link =>
      some ({ g with
          orders := g.orders.modify order fun o => { o with status := .positionOpen, tradeId := some trade } },
        .booking todo complete (booked ++ [trade]))
  | .booking [] complete booked, .report =>
      some (g, if complete then .settling { status := .executed, tradeId := booked.head? } (p.kind ≠ .underlying)
        else .settling { status := .failed } false)
  | .settling values within, .settle =>
      some (settleFrom .approved values g, if within then .returning else .idle)
  | .returning, .finish => some (g, .idle)
  | .idle, .sweep now =>
      match g.row.status, g.row.decidedAt with
      | .proposed, _ => if g.row.expiresAt ≤ now then some (g, .writing .proposed { status := .expired }) else none
      | .approved, some decided => if now - decided < orphanSeconds then none else some (g, .judging)
      | _, _ => none
  | .judging, .judge => some (g, .writing .approved (orphanOutcome p g))
  | .writing read values, .write => some (settleFrom read values g, .idle)
  | .idle, .crash => none
  | _, .crash => some (g, .idle)
  | point, .raise => if point.within then some (g, .settling { status := .failed } false) else none
  | _, _ => none

/-- The process that carries the proposal out, and any number of others. -/
abbrev World (n : Nat) := Procs Desk Point (n + 1)

/-- All interleavings of the processes. -/
def approvals (p : Proposal) (n : Nat) : Machine (World n) (ProcEvent (n + 1) Act Empty) :=
  Procs.interleave (statement p) (fun _ never => never.elim) (n + 1)

/-- The row was just approved, and one process carries it out. -/
def start (n : Nat) (row : Row) : World n :=
  ⟨{ row := { row with status := .approved } }, fun q => if q = 0 then .checking else .idle⟩

end AdvanceTrading.EntryApproval

/-!
# What the row of an approved entry says in the end

Every writer settles the row by an update of its own that asks for APPROVED, so the
row is settled once. What the outcome says is as true as what its writer knew: a
sweep knows the one order with the proposal's own key, and the process that carries
the proposal out says FAILED of whatever raises.
-/

namespace AdvanceTrading.EntryApproval

open PlaceLegs Execution

/-- A sweep that will say that nothing was opened. -/
def Point.denies : Point → Bool
  | .writing .approved values => values.status ≠ .executed
  | _ => false

/-- A structure that was filled in part. -/
def Point.partly : Point → Bool
  | .booking _ false _ => true
  | _ => false

/-- What the steps meet: a position is opened while the row still waits and no sweep is about to deny it; a
sweep judges the row when the order with its own key shows a position, or there is none; and nothing
raises, and no structure is reported in part, after a position was opened for a row that waits. -/
def Told (p : Proposal) {n : Nat} (w : World n) : ProcEvent (n + 1) Act Empty → Prop
  | .act _ .persist => w.shared.row.status = .approved ∧ ∀ q, (w.point q).denies = false
  | .act _ .judge => w.shared.trades ≠ [] → (orderOf p.ownKey w.shared).bind Order.tradeId ≠ none
  | .act _ .raise => w.shared.row.status = .approved → w.shared.trades = []
  | .act q .report => (w.point q).partly = true → w.shared.trades = []
  | _ => True

instance (p : Proposal) {n : Nat} (w : World n) : ∀ event, Decidable (Told p w event)
  | .act _ .persist => inferInstanceAs (Decidable (_ ∧ _))
  | .act _ .judge => inferInstanceAs (Decidable (_ → _))
  | .act _ .raise => inferInstanceAs (Decidable (_ → _))
  | .act _ .report => inferInstanceAs (Decidable (_ → _))
  | .act _ .drift | .act _ .order | .act _ .create | .act _ .gate | .act _ .reject | .act _ .fill
  | .act _ (.place ..) | .act _ .link | .act _ .settle | .act _ .finish | .act _ (.sweep _) | .act _ .write
  | .act _ .crash => isTrue trivial
  | .outside never => never.elim

/-! ## The invariant -/

/-- An outcome that is true of the positions, should the row still wait for it. -/
structure Fits (g : Desk) (values : Values) : Prop where
  final : values.status ≠ .approved ∧ values.status ≠ .proposed
  truthful : values.status = .executed ∨ (g.row.status = .approved → g.trades = [])

/-- What is so of the proposal while a process stands at a point. -/
def Stands (g : Desk) : Point → Prop
  | .checking | .ordering .. | .placing _ => g.trades = []
  | .settling values _ => Fits g values
  | .writing read values => read = .proposed ∨ (read = .approved ∧ Fits g values)
  | _ => True

/-- A process that only sweeps. -/
def Sweeps : Point → Prop
  | .idle | .judging | .writing .. => True
  | _ => False

/-- The row, and what each process knows of it. -/
structure Sound {n : Nat} (w : World n) : Prop where
  decided : w.shared.row.status ≠ .proposed
  once : w.shared.settles = if w.shared.row.status = .approved then 0 else 1
  truthful : w.shared.row.status = .approved ∨ w.shared.row.status = .executed ∨ w.shared.trades = []
  stands : ∀ q, Stands w.shared (w.point q)
  sweeps : ∀ q, q ≠ 0 → Sweeps (w.point q)

section Steps

variable {p : Proposal} {n : Nat} {w : World n} {q : Fin (n + 1)} {g : Desk} {next : Point}

variable {point : Point}

/-- The orders are nothing to what the row says. -/
theorem Stands.of_same {g' : Desk} (stands : Stands g point) (row : g'.row = g.row)
    (trades : g'.trades = g.trades) : Stands g' point := by
  have fits : ∀ {values}, Fits g values → Fits g' values := fun fits =>
    ⟨fits.final, by rw [row, trades]; exact fits.truthful⟩
  cases point with
  | checking | ordering | placing => exact trades.trans stands
  | settling values within => exact fits stands
  | writing read values => exact stands.imp_right fun ⟨waits, known⟩ => ⟨waits, fits known⟩
  | _ => trivial

/-- A step that leaves the row and the positions. -/
theorem Sound.same (sound : Sound w) (row : g.row = w.shared.row) (trades : g.trades = w.shared.trades)
    (settles : g.settles = w.shared.settles) (stands : Stands g next) (sweeps : q ≠ 0 → Sweeps next) :
    Sound (w.move q g next) where
  decided := by
    show g.row.status ≠ _
    rw [row]
    exact sound.decided
  once := by
    show g.settles = if g.row.status = .approved then 0 else 1
    rw [row, settles]
    exact sound.once
  truthful := by
    show g.row.status = _ ∨ g.row.status = _ ∨ g.trades = []
    rw [row, trades]
    exact sound.truthful
  stands := Procs.forall_move (P := Stands g) (fun q _ => (sound.stands q).of_same row trades) stands
  sweeps := fun r aside => by
    by_cases same : r = q
    · subst same
      rw [Procs.move_self]
      exact sweeps aside
    · rw [Procs.move_other same]
      exact sound.sweeps r aside

/-- Once the row is settled nothing waits for an outcome. -/
theorem Stands.settled {g' : Desk} (stands : Stands g point) (trades : g'.trades = g.trades)
    (settled : g'.row.status ≠ .approved) : Stands g' point := by
  have fits : ∀ {values}, Fits g values → Fits g' values := fun fits =>
    ⟨fits.final, .inr fun waits => absurd waits settled⟩
  cases point with
  | checking | ordering | placing => exact trades.trans stands
  | settling values within => exact fits stands
  | writing read values => exact stands.imp_right fun ⟨waits, known⟩ => ⟨waits, fits known⟩
  | _ => trivial

/-- The update of a row that waits writes an outcome that is true. -/
theorem Sound.settle (sound : Sound w) {values : Values} (fits : Fits w.shared values)
    (stands : ∀ g, Stands g next) (sweeps : q ≠ 0 → Sweeps next) :
    Sound (w.move q (settleFrom .approved values w.shared) next) := by
  unfold settleFrom
  split
  · rename_i waits
    have truthful : values.status = .executed ∨ w.shared.trades = [] := fits.truthful.imp_right fun none => none waits
    refine ⟨fits.final.2, ?_, .inr truthful, ?_, fun r aside => ?_⟩
    · show w.shared.settles + 1 = if values.status = .approved then 0 else 1
      rw [if_neg fits.final.1, sound.once, if_pos waits]
    · exact Procs.forall_move (P := Stands _) (fun q _ => (sound.stands q).settled rfl fits.final.1) (stands _)
    · by_cases same : r = q
      · subst same
        rw [Procs.move_self]
        exact sweeps aside
      · rw [Procs.move_other same]
        exact sound.sweeps r aside
  · exact sound.same rfl rfl rfl (stands _) sweeps

/-- A row that waits for FAILED has no position. -/
theorem fits_failed (none_open : g.row.status = .approved → g.trades = []) :
    Fits g { status := .failed } :=
  ⟨⟨by simp, by simp⟩, .inr none_open⟩

theorem fits_expired (none_open : g.trades = []) : Fits g { status := .expired } :=
  ⟨⟨by simp, by simp⟩, .inr fun _ => none_open⟩

theorem fits_executed (g : Desk) (trade : Option Nat) : Fits g { status := .executed, tradeId := trade } :=
  ⟨⟨by simp, by simp⟩, .inl rfl⟩

/-- An order that is already there is told as it is, and before the order path nothing is open. -/
theorem fits_replayed (none_open : g.trades = []) (order : Order) : Fits g (p.replayed order) := by
  unfold Proposal.replayed
  split <;> split
  · exact fits_executed g none
  · exact fits_failed fun _ => none_open
  all_goals first | exact fits_executed g order.tradeId | exact fits_failed fun _ => none_open

/-- A sweep's outcome is true where the order with the own key shows what is open. -/
theorem fits_orphan (shown : g.trades ≠ [] → (orderOf p.ownKey g).bind Order.tradeId ≠ none) :
    Fits g (orphanOutcome p g) := by
  unfold orphanOutcome
  split
  · exact fits_executed g _
  · rename_i unseen
    refine fits_failed fun _ => ?_
    by_contra some_open
    exact shown some_open unseen

/-- A step of a process that only sweeps next. -/
theorem Sound.sweeping (sound : Sound w) {action : Act}
    (ran : statement p w.shared .idle action = some (g, next)) : Sound (w.move q g next) := by
  cases action with
  | sweep now =>
    dsimp only [statement] at ran
    split at ran
    · split at ran
      · cases ran
        exact sound.same rfl rfl rfl (.inl rfl) fun _ => trivial
      · cases ran
    · split at ran
      · cases ran
      · cases ran
        exact sound.same rfl rfl rfl trivial fun _ => trivial
    · cases ran
  | raise =>
    dsimp only [statement] at ran
    cases ran
  | _ => cases ran

theorem Sound.writing (sound : Sound w) {read : Status} {values : Values} (point : w.point q = .writing read values)
    (ran : statement p w.shared (.writing read values) .write = some (g, next)) : Sound (w.move q g next) := by
  have stands := sound.stands q
  rw [point] at stands
  cases ran
  rcases stands with rfl | ⟨rfl, fits⟩
  · rw [settleFrom, if_neg sound.decided]
    exact sound.same rfl rfl rfl trivial fun _ => trivial
  · exact sound.settle fits (fun _ => trivial) fun _ => trivial

/-- Only the process that carries the proposal out does anything but sweep. -/
theorem Sound.alone (sound : Sound w) {here : Point} (point : w.point q = here)
    (works : ¬ Sweeps here) {P : Prop} (other : q ≠ 0) : P := by
  have sweeps := sound.sweeps q other
  rw [point] at sweeps
  exact absurd sweeps works

/-- An exception inside the `try` is FAILED. -/
theorem raise_eq {before : Desk} (ran : statement p before point .raise = some (g, next)) :
    g = before ∧ next = .settling { status := .failed } false ∧ ¬ Sweeps point := by
  have raised : ∀ {here : Point}, (if here.within then some (before, Point.settling { status := .failed } false)
      else none) = some (g, next) → g = before ∧ next = .settling { status := .failed } false ∧ ¬ Sweeps here := by
    intro here ran
    split at ran
    · rename_i within
      cases ran
      refine ⟨rfl, rfl, fun sweeps => ?_⟩
      cases here <;> first | exact sweeps | cases within
    · cases ran
  cases point with
  | ordering todo made => cases todo <;> exact raised ran
  | booking todo complete booked => cases todo <;> exact raised ran
  | _ => exact raised ran

theorem Sound.raising (sound : Sound w) (told : w.shared.row.status = .approved → w.shared.trades = [])
    (ran : statement p w.shared (w.point q) .raise = some (g, next)) : Sound (w.move q g next) := by
  obtain ⟨rfl, rfl, works⟩ := raise_eq ran
  exact sound.same rfl rfl rfl (fits_failed told) (sound.alone rfl works)

/-- A process that dies leaves the proposal as it is. -/
theorem crash_eq {before : Desk} (ran : statement p before point .crash = some (g, next)) :
    g = before ∧ next = .idle := by
  cases point with
  | idle => cases ran
  | ordering todo made => cases todo <;> cases ran <;> exact ⟨rfl, rfl⟩
  | booking todo complete booked => cases todo <;> cases ran <;> exact ⟨rfl, rfl⟩
  | _ => cases ran; exact ⟨rfl, rfl⟩

theorem Sound.crash (sound : Sound w)
    (ran : statement p w.shared (w.point q) .crash = some (g, next)) : Sound (w.move q g next) := by
  obtain ⟨rfl, rfl⟩ := crash_eq ran
  exact sound.same rfl rfl rfl trivial fun _ => trivial

theorem Sound.creating (sound : Sound w) {key : String} {todo : List String} {made : List Nat}
    (point : w.point q = .ordering (key :: todo) made)
    (ran : statement p w.shared (.ordering (key :: todo) made) .create = some (g, next)) :
    Sound (w.move q g next) := by
  have none_open := sound.stands q
  rw [point] at none_open
  dsimp only [statement] at ran
  split at ran
  · cases ran
    exact sound.same rfl rfl rfl (fits_replayed none_open _) (sound.alone point id)
  · cases ran
    exact sound.same rfl rfl rfl none_open (sound.alone point id)

theorem Sound.gating (sound : Sound w) {made : List Nat} (point : w.point q = .ordering [] made)
    (ran : statement p w.shared (.ordering [] made) .gate = some (g, next)) : Sound (w.move q g next) := by
  have none_open := sound.stands q
  rw [point] at none_open
  dsimp only [statement] at ran
  split at ran
  · cases ran
    exact sound.same rfl rfl rfl (fits_failed fun _ => none_open) (sound.alone point id)
  · cases ran
    exact sound.same rfl rfl rfl none_open (sound.alone point id)

theorem Sound.placing (sound : Sound w) {made : List Nat} (point : w.point q = .placing made) {action : Act}
    (lives : action ≠ .crash ∧ action ≠ .raise)
    (ran : statement p w.shared (.placing made) action = some (g, next)) : Sound (w.move q g next) := by
  have none_open := sound.stands q
  rw [point] at none_open
  cases action with
  | reject =>
    cases ran
    exact sound.same rfl rfl rfl (fits_failed fun _ => none_open) (sound.alone point id)
  | fill =>
    cases ran
    exact sound.same rfl rfl rfl trivial (sound.alone point id)
  | place venue answer =>
    dsimp only [statement] at ran
    split at ran
    · split at ran
      · cases ran
        exact sound.same rfl rfl rfl trivial (sound.alone point id)
      split at ran
      · cases ran
        exact sound.same rfl rfl rfl (fits_failed fun _ => none_open) (sound.alone point id)
      · cases ran
        exact sound.same rfl rfl rfl trivial (sound.alone point id)
    · cases ran
    · cases ran
  | crash => exact absurd rfl lives.1
  | raise => exact absurd rfl lives.2
  | _ => cases ran

/-- A position is opened for a row that waits and that no sweep is about to deny. -/
theorem Sound.opening (sound : Sound w) {order : Nat} {todo : List Nat} {complete : Bool}
    {booked : List Nat} (point : w.point q = .booking (order :: todo) complete booked)
    (told : w.shared.row.status = .approved ∧ ∀ r, (w.point r).denies = false)
    (ran : statement p w.shared (.booking (order :: todo) complete booked) .persist = some (g, next)) :
    Sound (w.move q g next) := by
  obtain ⟨waits, undenied⟩ := told
  cases ran
  refine ⟨sound.decided, sound.once, .inl waits, Procs.forall_move (P := Stands _) (fun r other => ?_) trivial,
    fun r aside => ?_⟩
  · have first : q = 0 := by
      by_contra aside
      exact sound.alone point id aside
    have sweeps := sound.sweeps r (first ▸ other)
    have stands := sound.stands r
    have undenied := undenied r
    cases there : w.point r with
    | idle | judging => trivial
    | writing read values =>
      rw [there] at stands undenied
      refine stands.imp_right fun ⟨isApproved, fits⟩ => ⟨isApproved, fits.final, .inl ?_⟩
      subst isApproved
      simpa [Point.denies] using undenied
    | _ => rw [there] at sweeps; exact sweeps.elim
  · by_cases same : r = q
    · subst same
      exact sound.alone point id aside
    · rw [Procs.move_other same]
      exact sound.sweeps r aside

/-- A structure that was filled in part is reported as FAILED. -/
theorem Sound.reporting (sound : Sound w) {complete : Bool} {booked : List Nat}
    (point : w.point q = .booking [] complete booked)
    (told : (w.point q).partly = true → w.shared.trades = [])
    (ran : statement p w.shared (.booking [] complete booked) .report = some (g, next)) :
    Sound (w.move q g next) := by
  rw [point] at told
  cases ran
  cases complete with
  | true => exact sound.same rfl rfl rfl (fits_executed _ _) (sound.alone point id)
  | false => exact sound.same rfl rfl rfl (fits_failed fun _ => told rfl) (sound.alone point id)

theorem Sound.settling (sound : Sound w) {values : Values} {within : Bool} (point : w.point q = .settling values within)
    (ran : statement p w.shared (.settling values within) .settle = some (g, next)) : Sound (w.move q g next) := by
  have fits := sound.stands q
  rw [point] at fits
  cases ran
  refine sound.settle fits (fun g => ?_) (sound.alone point id)
  split <;> trivial

/-- Every step under the condition keeps the row true. -/
theorem Sound.step (sound : Sound w) {event : ProcEvent (n + 1) Act Empty} {t : World n}
    (told : Told p w event) (stepped : (approvals p n).step w event = some t) : Sound t := by
  cases event with
  | outside never => exact never.elim
  | act q action =>
    obtain ⟨g, next, ran, rfl⟩ := Procs.act_eq stepped
    by_cases dies : action = .crash
    · subst dies
      exact sound.crash ran
    by_cases raises : action = .raise
    · subst raises
      exact sound.raising told ran
    cases point : w.point q with
    | idle =>
      rw [point] at ran
      exact sound.sweeping ran
    | checking =>
      have none_open := sound.stands q
      rw [point] at ran none_open
      cases action with
      | drift =>
        cases ran
        exact sound.same rfl rfl rfl (fits_expired none_open) (sound.alone point id)
      | order =>
        cases ran
        exact sound.same rfl rfl rfl none_open (sound.alone point id)
      | crash => exact absurd rfl dies
      | raise => exact absurd rfl raises
      | _ => cases ran
    | ordering todo made =>
      rw [point] at ran
      cases todo with
      | nil =>
        cases action with
        | gate => exact sound.gating point ran
        | crash => exact absurd rfl dies
        | raise => exact absurd rfl raises
        | _ => cases ran
      | cons key todo =>
        cases action with
        | create => exact sound.creating point ran
        | crash => exact absurd rfl dies
        | raise => exact absurd rfl raises
        | _ => cases ran
    | placing made =>
      rw [point] at ran
      exact sound.placing point ⟨dies, raises⟩ ran
    | booking todo complete booked =>
      rw [point] at ran
      cases todo with
      | nil =>
        cases action with
        | report => exact sound.reporting point told ran
        | crash => exact absurd rfl dies
        | raise => exact absurd rfl raises
        | _ => cases ran
      | cons order todo =>
        cases action with
        | persist => exact sound.opening point told ran
        | crash => exact absurd rfl dies
        | raise => exact absurd rfl raises
        | _ => cases ran
    | linking order trade todo complete booked =>
      rw [point] at ran
      cases action with
      | link =>
        cases ran
        exact sound.same rfl rfl rfl trivial (sound.alone point id)
      | crash => exact absurd rfl dies
      | raise => exact absurd rfl raises
      | _ => cases ran
    | settling values within =>
      rw [point] at ran
      cases action with
      | settle => exact sound.settling point ran
      | crash => exact absurd rfl dies
      | raise => exact absurd rfl raises
      | _ => cases ran
    | returning =>
      rw [point] at ran
      cases action with
      | finish =>
        cases ran
        exact sound.same rfl rfl rfl trivial fun _ => trivial
      | crash => exact absurd rfl dies
      | raise => exact absurd rfl raises
      | _ => cases ran
    | judging =>
      rw [point] at ran
      cases action with
      | judge =>
        cases ran
        exact sound.same rfl rfl rfl (.inr ⟨rfl, fits_orphan told⟩) fun _ => trivial
      | crash => exact absurd rfl dies
      | raise => exact absurd rfl raises
      | _ => cases ran
    | writing read values =>
      rw [point] at ran
      cases action with
      | write => exact sound.writing point ran
      | crash => exact absurd rfl dies
      | raise => exact absurd rfl raises
      | _ => cases ran

end Steps

/-! ## Whole runs -/

theorem start_sound (n : Nat) (row : Row) : Sound (start n row) where
  decided := by simp [start]
  once := rfl
  truthful := .inl rfl
  stands := fun q => by
    show Stands _ (if q = 0 then _ else _)
    split
    · rfl
    · trivial
  sweeps := fun q aside => by
    show Sweeps (if q = 0 then _ else _)
    rw [if_neg aside]
    trivial

/-- A row that placed a position waits or says EXECUTED, and no row is settled twice. -/
theorem told_settled (p : Proposal) (row : Row) {n : Nat} {events : List (ProcEvent (n + 1) Act Empty)} {w : World n}
    (told : (approvals p n).Meets (Told p) (start n row) events)
    (ran : (approvals p n).run (start n row) events = some w) :
    (w.shared.trades ≠ [] → w.shared.row.status = .approved ∨ w.shared.row.status = .executed) ∧
      w.shared.settles = if w.shared.row.status = .approved then 0 else 1 := by
  have sound := (approvals p n).run_invariant (fun _ _ _ sound told => sound.step told) (start_sound n row) told ran
  refine ⟨fun some_open => ?_, sound.once⟩
  rcases sound.truthful with waits | executed | none_open
  · exact .inl waits
  · exact .inr executed
  · exact absurd none_open some_open

/-- An entry whose process died when its position was on its order; a sweep comes eleven minutes after. -/
def diedOpen : List (ProcEvent 2 Act Empty) :=
  [.act 0 .order, .act 0 .create, .act 0 .gate, .act 0 .fill, .act 0 .persist, .act 0 .link, .act 0 .crash,
    .act 1 (.sweep 660), .act 1 .judge, .act 1 .write]

theorem told_settled_diedOpen : ∃ w, (approvals ⟨7, .underlying, true⟩ 1).run
      (start 1 { decidedAt := some 0, expiresAt := 300 }) diedOpen = some w ∧
    (w.shared.trades ≠ [] → w.shared.row.status = .approved ∨ w.shared.row.status = .executed) ∧
      w.shared.settles = if w.shared.row.status = .approved then 0 else 1 := by
  have ended : ((approvals ⟨7, .underlying, true⟩ 1).run
      (start 1 { decidedAt := some 0, expiresAt := 300 }) diedOpen).isSome = true := by decide +kernel
  obtain ⟨w, ran⟩ := Option.isSome_iff_exists.mp ended
  exact ⟨w, ran, told_settled _ _ (by decide +kernel) ran⟩

/-- A structure of two legs, the first booked when its process died; a sweep comes eleven minutes after. -/
def diedBetween : List (ProcEvent 2 Act Empty) :=
  [.act 0 .order, .act 0 .create, .act 0 .create, .act 0 .gate, .act 0 .fill, .act 0 .persist, .act 0 .link,
    .act 0 .crash, .act 1 (.sweep 660), .act 1 .judge, .act 1 .write]

def bullPut : Proposal where
  id := 7
  kind := .multiLeg [{ key := "PE 24000", side := "BUY", role := "hedge", quantity := 75, index := 0 },
    { key := "PE 24500", side := "SELL", role := "sold", quantity := 75, index := 1 }]
  gated := true

/-- The leg's order shows its position under its own key, and the row says that nothing was placed. -/
theorem diedBetween_failed : ∃ w,
    (approvals bullPut 1).run (start 1 { decidedAt := some 0, expiresAt := 300 }) diedBetween = some w ∧
      w.shared.row.status = .failed ∧ ∃ order ∈ w.shared.orders, order.key = bullPut.legKey 0 ∧
        order.tradeId = some 0 := by
  have ended : ((approvals bullPut 1).run (start 1 { decidedAt := some 0, expiresAt := 300 }) diedBetween).any
      (fun w => w.shared.row.status = .failed ∧
        ∃ order ∈ w.shared.orders, order.key = bullPut.legKey 0 ∧ order.tradeId = some 0) = true := by decide +kernel
  obtain ⟨w, ran, stuck⟩ := (Option.any_eq_true _ _).mp ended
  exact ⟨w, ran, of_decide_eq_true stuck⟩

end AdvanceTrading.EntryApproval
