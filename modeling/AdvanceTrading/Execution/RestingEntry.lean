import AdvanceTrading.Execution.TriggerEngine

/-!
# Resting entries are exact

One order at most is placed for a resting entry, and once it filled the row is
FILLED, or still FIRING until a pass settles it. `_finish`, `_expire` and
`_restore` write the status without asking what it has become, so this rests on
who holds the row: the conditions below are the places where a pass writes over
a row it does not hold, or settles a send that is not over.
-/

namespace AdvanceTrading.TriggerEngine

open Execution (OrderStatus)

variable {n : Nat} {money : ℚ → String}

/-- The order of the ticket's client id is filled. -/
def Shared.Filled (s : Shared) : Prop := ∃ order, s.order = some order ∧ order.filled = true

/-- The pass has claimed the row or taken it over, and not let go of it. -/
def Point.holds : Point → Bool
  | .held _ _ _ => true
  | _ => false

instance (s : Shared) : Decidable s.Filled :=
  match found : s.order with
  | none => isFalse (by simp [Shared.Filled, found])
  | some order => decidable_of_iff (order.filled = true) (by simp [Shared.Filled, found])

/-- What a stage knows of the order. -/
def Stage.Ok (s : Shared) : Stage → Prop
  | .look _ | .pipeline _ => True
  | .send _ _ | .placing _ => ¬ s.Filled
  | .returned _ result => s.Filled → result.placed = true
  | .write _ new => s.Filled → new.status = .filled ∨ new.status = .firing

/-- What a point knows: a pass that only read the row read it RESTING. -/
def Point.Ok (s : Shared) : Point → Prop
  | .held _ _ stage => stage.Ok s
  | .sawResting _ loaded => loaded.status = .resting
  | .keeping loaded new => loaded.status = .resting ∧ new.status = .resting
  | _ => True

/-- The conditions on one pass alone: a settled send has its position recorded if its order is
FILLED, and the pipeline raises nothing after the fill. -/
def CareAlone (s : Shared) : Point → Action → Prop
  | .held _ _ (.look _), .look _ => ∀ order ∈ s.order, order.filled = true → order.trade.isSome = true
  | .held _ _ (.pipeline _), .raised _ => ¬ s.Filled
  | _, _ => True

/-- Nothing is filled, and no pass holds the row. -/
def Free (w : Procs Shared Point n) : Prop :=
  ¬ w.shared.Filled ∧ ∀ q, (w.point q).holds = false

/-- The conditions between passes: the expiry and the restore write over a free row only, and a
FIRING row is taken over only when no pass holds it. -/
def CareBetween (w : Procs Shared Point n) : Point → Action → Prop
  | .expiring _, .flush | .restored _ _, .flush => Free w
  | .sawFiring _ firedAt, .takeOver =>
      w.shared.row.status = .firing → w.shared.row.firedAt = firedAt →
        ∀ q, (w.point q).holds = false
  | _, _ => True

/-- The condition on an event; a user's cancel needs none. -/
def Care (w : Procs Shared Point n) : ProcEvent n Action Unit → Prop
  | .act who action =>
      CareAlone w.shared (w.point who) action ∧ CareBetween w (w.point who) action
  | .outside _ => True

instance (s : Shared) (point : Point) (action : Action) : Decidable (CareAlone s point action) := by
  unfold CareAlone
  split <;> infer_instance

instance (w : Procs Shared Point n) (point : Point) (action : Action) :
    Decidable (CareBetween w point action) := by
  unfold CareBetween Free
  split <;> infer_instance

instance (w : Procs Shared Point n) (event : ProcEvent n Action Unit) : Decidable (Care w event) :=
  match event with
  | .act _ _ => inferInstanceAs (Decidable (_ ∧ _))
  | .outside _ => isTrue trivial

/-- The invariant of careful runs. -/
structure Exact (w : Procs Shared Point n) : Prop where
  single : ∀ p q, (w.point p).holds = true → (w.point q).holds = true → p = q
  firing : ∀ p, (w.point p).holds = true → w.shared.row.status = .firing
  filled : w.shared.Filled → w.shared.row.status = .filled ∨ w.shared.row.status = .firing
  ok : ∀ p, (w.point p).Ok w.shared
  once : w.shared.placed = if w.shared.order.isSome then 1 else 0

/-! ## What one statement can do -/

/-- The kinds of effect a statement has. -/
inductive Effect (s : Shared) : Point → Action → Shared → Point → Prop where
  | claim {now price loaded} (waiting : s.row.status = .resting) :
      Effect s (.reachedAt now price) .claim
        { s with row := { s.row with status := .firing, firedAt := some now } }
        (.held now .claimed (.send loaded price))
  | takeOver {now firedAt loaded} (sending : s.row.status = .firing) (same : s.row.firedAt = firedAt) :
      Effect s (.sawFiring now firedAt) .takeOver
        { s with row := { s.row with firedAt := some now } } (.held now .takenOver (.look loaded))
  | create {now route price id} (free : s.order = none) :
      Effect s (.held now route (.placing price)) (.create id)
        { s with order := some { id := id, status := .created }, placed := s.placed + 1 }
        (.held now route (.pipeline price))
  | advance {now route price order next trade} (own : s.order = some order) :
      Effect s (.held now route (.pipeline price)) (.advance next trade)
        { s with order := some { order with status := next, trade := trade } }
        (.held now route (.pipeline price))
  | write {now route loaded new} :
      Effect s (.held now route (.write loaded new)) .flush
        { s with row := loaded.flush new s.row } .idle
  | keep {loaded new} :
      Effect s (.keeping loaded new) .flush { s with row := loaded.flush new s.row } .idle
  | overwrite {point} {loaded new : Entry} (how : (∃ loaded, point = .expiring loaded) ∨
        ∃ loaded new, point = .restored loaded new) :
      Effect s point .flush { s with row := loaded.flush new s.row } .idle
  | stay {point action next} (holds : next.holds = true → point.holds = true)
      (ok : CareAlone s point action → point.Ok s → next.Ok s) : Effect s point action s next

theorem unfilled_of_none {s : Shared} (none_ : s.order = none) : ¬ s.Filled := by
  rintro ⟨order, found, -⟩
  rw [none_] at found
  cases found

theorem reconcile_ok {s : Shared} {loaded : Entry} {price : Option ℚ}
    (care : ∀ order ∈ s.order, order.filled = true → order.trade.isSome = true) :
    (reconcile money loaded s.order price).Ok s := by
  unfold reconcile
  cases found : s.order with
  | none =>
    cases price with
    | none =>
      intro filled
      exact absurd filled (unfilled_of_none found)
    | some price => exact unfilled_of_none found
  | some order =>
    cases recorded : order.trade with
    | some entry =>
      simp only [recorded]
      intro _
      exact .inl rfl
    | none =>
      simp only [recorded]
      rintro ⟨own, same, filled⟩
      have known := care own same filled
      rw [found] at same
      cases same
      rw [recorded] at known
      cases known

theorem judge_ok {s : Shared} {loaded : Entry} {reading : Reading} {now : Int}
    (waiting : loaded.status = .resting) : (judge money loaded reading now).Ok s := by
  unfold judge
  split
  · trivial
  · split
    · trivial
    · split
      · trivial
      · split
        · exact ⟨waiting, rfl⟩
        · trivial
    · trivial

theorem judge_holds (loaded : Entry) (reading : Reading) (now : Int) :
    (judge money loaded reading now).holds = false := by
  unfold judge
  repeat' split
  all_goals rfl

theorem settle_status {row : Entry} {price : ℚ} {result : PlaceResult}
    (placed : result.placed = true) : (settle money row price result).status = .filled := by
  simp [settle, placed, finish]

theorem afterError_ok (s : Shared) (point : Point) :
    (afterError point).Ok s ∧ (afterError point).holds = false := by
  unfold afterError
  split <;> exact ⟨trivial, rfl⟩

theorem statement_effect {s t : Shared} {point next : Point} {action : Action}
    (ran : statement money s point action = some (t, next)) : Effect s point action t next := by
  unfold statement at ran
  split at ran
  · cases ran
  · -- stop
    cases ran
    exact .stay (fun holds => by cases holds) (fun _ _ => trivial)
  · -- readFiring
    split at ran
    · cases ran
      exact .stay (fun holds => by cases holds) (fun _ _ => trivial)
    · cases ran
  · -- takeOver
    split at ran
    · rename_i matched
      cases ran
      exact .takeOver matched.1 matched.2
    · cases ran
      exact .stay (fun holds => by cases holds) (fun _ _ => trivial)
  · -- look
    cases ran
    exact .stay (fun _ => rfl) (fun care _ => reconcile_ok care)
  · -- readResting
    split at ran
    · rename_i waiting
      cases ran
      exact .stay (fun holds => by cases holds) (fun _ _ => waiting)
    · cases ran
  · -- judge
    cases ran
    refine .stay ?_ (fun _ waiting => judge_ok waiting)
    intro holds
    rw [judge_holds] at holds
    cases holds
  · -- claim
    split at ran
    · rename_i waiting
      cases ran
      exact .claim waiting
    · cases ran
      exact .stay (fun holds => by cases holds) (fun _ _ => trivial)
  · -- send
    cases ran
    refine .stay (fun _ => rfl) ?_
    intro _ unfilled
    split
    · intro filled
      exact absurd filled unfilled
    · split
      · exact unfilled
      · intro filled
        exact absurd filled unfilled
  · -- refuse
    cases ran
    refine .stay (fun _ => rfl) ?_
    intro _ unfilled filled
    exact absurd filled unfilled
  · -- create
    split at ran
    · rename_i free
      cases ran
      exact .create free
    · rename_i order found
      cases ran
      refine .stay (fun _ => rfl) ?_
      rintro _ _ ⟨own, same, filled⟩
      rw [found] at same
      cases same
      exact filled
  · -- advance
    split at ran
    · rename_i order own
      split at ran
      · cases ran
        exact .advance own
      · cases ran
    · cases ran
  · -- finished
    split at ran
    · rename_i order found
      split at ran
      · cases ran
        refine .stay (fun _ => rfl) ?_
        rintro _ _ ⟨own, same, filled⟩
        rw [found] at same
        cases same
        exact filled
      · cases ran
    · cases ran
  · -- raised in the pipeline
    cases ran
    refine .stay (fun _ => rfl) ?_
    intro care _ filled
    exact absurd filled care
  · -- refresh after `place`
    cases ran
    refine .stay (fun _ => rfl) ?_
    intro _ answered filled
    exact .inl (settle_status (answered filled))
  · cases ran
    exact .write
  · cases ran
    exact .overwrite (.inl ⟨_, rfl⟩)
  · cases ran
    exact .keep
  · -- refresh of the restore
    cases ran
    refine .stay ?_ ?_
    · intro holds
      split at holds
      · cases holds
      · cases holds
    · intro _ _
      split
      · trivial
      · trivial
  · cases ran
    exact .overwrite (.inr ⟨_, _, rfl⟩)
  · cases ran
  · -- raised
    cases ran
    refine .stay ?_ (fun _ _ => (afterError_ok s point).1)
    intro holds
    rw [(afterError_ok s point).2] at holds
    cases holds
  · cases ran

/-! ## One step -/

variable {w : Procs Shared Point n} {who : Fin n} {t : Shared} {next : Point}

/-- What a pass that does not hold the row knows does not depend on the tables. -/
theorem Point.ok_of_free {s t : Shared} {point : Point} (free : point.holds = false)
    (ok : point.Ok s) : point.Ok t := by
  cases point with
  | held now route stage => cases free
  | _ => exact ok

/-- Another order leaves a row that no other pass holds as it was. -/
theorem Exact.others (exact : Exact w) (holds : (w.point who).holds = true) {q : Fin n}
    (other : q ≠ who) : (w.point q).holds = false := by
  cases held : (w.point q).holds with
  | false => rfl
  | true => exact absurd (exact.single q who held holds) other

/-- The passes that hold the row after a move that takes no hold. -/
theorem holds_of_move (keeps : next.holds = true → (w.point who).holds = true) {q : Fin n}
    (holds : ((w.move who t next).point q).holds = true) : (w.point q).holds = true := by
  by_cases same : q = who
  · subst same
    rw [Procs.move_self] at holds
    exact keeps holds
  · rw [Procs.move_other same] at holds
    exact holds

theorem idle_holds : Point.idle.holds = true → (w.point who).holds = true := fun holds => nomatch holds

/-- A statement that takes no hold and leaves the order alone. -/
theorem Exact.moved (exact : Exact w) (keeps : next.holds = true → (w.point who).holds = true)
    (order : t.order = w.shared.order) (placed : t.placed = w.shared.placed)
    (firing : ∀ p, ((w.move who t next).point p).holds = true → t.row.status = .firing)
    (filled : w.shared.Filled → t.row.status = .filled ∨ t.row.status = .firing)
    (ok : next.Ok w.shared) : Exact (w.move who t next) where
  single := by
    intro p q holdsP holdsQ
    exact exact.single p q (holds_of_move keeps holdsP) (holds_of_move keeps holdsQ)
  firing := firing
  filled := by
    rintro ⟨own, found, executed⟩
    rw [Procs.move_shared, order] at found
    exact filled ⟨own, found, executed⟩
  ok := by
    have same : ∀ point : Point, point.Ok w.shared → point.Ok t := by
      intro point
      cases point with
      | held now route stage => cases stage <;> simp [Point.Ok, Stage.Ok, Shared.Filled, order]
      | _ => exact id
    exact Procs.forall_move (fun q _ => same _ (exact.ok q)) (same _ ok)
  once := by
    rw [Procs.move_shared, order, placed]
    exact exact.once

/-- The pass that takes hold of a row nobody holds. -/
theorem Exact.taken (exact : Exact w) (free : ∀ q, (w.point q).holds = false)
    (order : t.order = w.shared.order) (placed : t.placed = w.shared.placed)
    (firing : t.row.status = .firing) (ok : next.Ok t) : Exact (w.move who t next) where
  single := by
    have holder : ∀ p, ((w.move who t next).point p).holds = true → p = who := by
      intro p holds
      by_contra other
      rw [Procs.move_other other, free p] at holds
      cases holds
    intro p q holdsP holdsQ
    rw [holder p holdsP, holder q holdsQ]
  firing := by
    intro _ _
    exact firing
  filled := by
    intro _
    exact .inr firing
  ok := Procs.forall_move (fun q _ => Point.ok_of_free (free q) (exact.ok q)) ok
  once := by
    rw [Procs.move_shared, order, placed]
    exact exact.once

/-- A holder's work on the order. -/
theorem Exact.ordered (exact : Exact w) (holds : (w.point who).holds = true)
    (row : t.row = w.shared.row) (ok : next.Ok t)
    (once : t.placed = if t.order.isSome then 1 else 0) : Exact (w.move who t next) where
  single := by
    intro p q holdsP holdsQ
    have keeps : next.holds = true → (w.point who).holds = true := fun _ => holds
    exact exact.single p q (holds_of_move keeps holdsP) (holds_of_move keeps holdsQ)
  firing := by
    intro _ _
    rw [Procs.move_shared, row]
    exact exact.firing who holds
  filled := by
    intro _
    rw [Procs.move_shared, row]
    exact .inr (exact.firing who holds)
  ok := Procs.forall_move (fun q other => Point.ok_of_free (exact.others holds other) (exact.ok q)) ok
  once := once

/-- One careful statement of one pass. -/
theorem Exact.statement (exact : Exact w) {action : Action}
    (alone : CareAlone w.shared (w.point who) action) (between : CareBetween w (w.point who) action)
    (ran : statement money w.shared (w.point who) action = some (t, next)) :
    Exact (w.move who t next) := by
  have how := statement_effect ran
  have knows := exact.ok who
  generalize stands : w.point who = point at how alone between knows
  cases how with
  | claim waiting =>
    have free : ∀ q, (w.point q).holds = false := by
      intro q
      cases held : (w.point q).holds with
      | false => rfl
      | true =>
        have firing := exact.firing q held
        rw [waiting] at firing
        cases firing
    refine exact.taken free rfl rfl rfl ?_
    intro filled
    rcases exact.filled filled with status | status
    · rw [waiting] at status
      cases status
    · rw [waiting] at status
      cases status
  | takeOver sending same => exact exact.taken (between sending same) rfl rfl sending trivial
  | create free =>
    have once := exact.once
    rw [free] at once
    refine exact.ordered (by rw [stands]; rfl) rfl trivial ?_
    show w.shared.placed + 1 = 1
    rw [once]
    rfl
  | advance own =>
    have once := exact.once
    rw [own] at once
    exact exact.ordered (by rw [stands]; rfl) rfl trivial once
  | @write now route loaded new =>
    have firing := exact.firing who (by rw [stands]; rfl)
    refine exact.moved idle_holds rfl rfl ?_ ?_ trivial
    · intro p holds
      have held := holds_of_move idle_holds holds
      have only := exact.single p who held (by rw [stands]; rfl)
      rw [only, Procs.move_self] at holds
      cases holds
    · intro filled
      show flushed loaded.status new.status w.shared.row.status = .filled ∨
        flushed loaded.status new.status w.shared.row.status = .firing
      rcases flushed_cases loaded.status new.status w.shared.row.status with stored | written
      · rw [stored]
        exact .inr firing
      · rw [written]
        exact knows filled
  | @keep loaded new =>
    have status : (loaded.flush new w.shared.row).status = w.shared.row.status := by
      show flushed loaded.status new.status w.shared.row.status = _
      rw [knows.1, knows.2]
      exact flushed_same _ _
    refine exact.moved idle_holds rfl rfl ?_ ?_ trivial
    · intro p holds
      rw [status]
      exact exact.firing p (holds_of_move idle_holds holds)
    · intro filled
      rw [status]
      exact exact.filled filled
  | overwrite how =>
    have free : Free w := by
      rcases how with ⟨_, rfl⟩ | ⟨_, _, rfl⟩
      · exact between
      · exact between
    refine exact.moved idle_holds rfl rfl ?_ ?_ trivial
    · intro p holds
      have held := holds_of_move idle_holds holds
      rw [free.2 p] at held
      cases held
    · intro filled
      exact absurd filled free.1
  | stay holds ok =>
    have keeps : next.holds = true → (w.point who).holds = true := by
      intro held
      rw [stands]
      exact holds held
    refine exact.moved keeps rfl rfl ?_ exact.filled (ok alone knows)
    intro p held
    exact exact.firing p (holds_of_move keeps held)

/-! ## Whole runs -/

/-- A waiting row and passes that have not read it. -/
def start (n : Nat) (row : Entry) : Procs Shared Point n := ⟨{ row := row }, fun _ => .idle⟩

theorem exact_start (row : Entry) : Exact (start n row) where
  single := by
    intro p _ holds
    cases holds
  firing := by
    intro p holds
    cases holds
  filled := by
    intro filled
    exact absurd filled (unfilled_of_none rfl)
  ok := by
    intro _
    trivial
  once := rfl

theorem exact_step {w t : Procs Shared Point n} {event : ProcEvent n Action Unit} (exact : Exact w)
    (care : Care w event) (stepped : (engine money n).step w event = some t) : Exact t := by
  cases event with
  | act who action =>
    obtain ⟨shared, next, ran, rfl⟩ := Procs.act_eq stepped
    exact exact.statement care.1 care.2 ran
  | outside _ =>
    obtain ⟨shared, ran, rfl⟩ := Procs.outside_eq stepped
    unfold cancel at ran
    split at ran
    · rename_i waiting
      cases ran
      refine ⟨exact.single, ?_, ?_, exact.ok, exact.once⟩
      · intro p holds
        have firing := exact.firing p holds
        rw [waiting] at firing
        cases firing
      · intro filled
        rcases exact.filled filled with status | status
        · rw [waiting] at status
          cases status
        · rw [waiting] at status
          cases status
    · cases ran
      exact exact

/-- A FIRING row whose order's position is recorded is settled FILLED by the next pass that finds
it overdue (at start-up, with a timeout of nothing, the first one). -/
theorem reconcile_settles {w : Procs Shared Point n} {who : Fin n} {now timeout : Int}
    {price : Option ℚ} {order : Order} {entry : ℚ} (idle : w.point who = .idle)
    (sending : w.shared.row.status = .firing) (late : overdue w.shared.row now timeout = true)
    (found : w.shared.order = some order) (recorded : order.trade = some entry) :
    ∃ t, (engine money n).run w
        [.act who (.readFiring now timeout), .act who .takeOver, .act who (.look price),
          .act who .flush] = some t ∧ t.shared.row.status = .filled := by
  let row := { w.shared.row with firedAt := some now }
  let new := { finish row .filled ("Placed at " ++ money entry ++ " (found after a restart)") with
    orderId := some order.id, fillPrice := some entry }
  have read : statement money w.shared (w.point who) (.readFiring now timeout) =
      some (w.shared, .sawFiring now w.shared.row.firedAt) := by
    rw [idle]
    exact if_pos ⟨sending, late⟩
  have taken : statement money w.shared (.sawFiring now w.shared.row.firedAt) .takeOver =
      some ({ w.shared with row := row }, .held now .takenOver (.look row)) :=
    if_pos ⟨sending, rfl⟩
  have looked : statement money { w.shared with row := row } (.held now .takenOver (.look row))
      (.look price) =
        some ({ w.shared with row := row }, .held now .takenOver (.write row new)) := by
    show some (_, Point.held now .takenOver (reconcile money row w.shared.order price)) = _
    rw [found]
    simp only [reconcile, recorded]
    rfl
  have written : statement money { w.shared with row := row } (.held now .takenOver (.write row new))
      .flush = some ({ w.shared with row := row.flush new row }, .idle) := rfl
  have alone : Procs.solo (statement money) w.shared (w.point who)
      [.readFiring now timeout, .takeOver, .look price, .flush] =
        some ({ w.shared with row := row.flush new row }, .idle) := by
    simp only [Procs.solo, read, taken, looked, written, Option.bind_some]
  refine ⟨w.move who { w.shared with row := row.flush new row } .idle, ?_, ?_⟩
  · have ran : (engine money n).run w _ = _ :=
      Procs.run_solo _ _ who [.readFiring now timeout, .takeOver, .look price, .flush] w
    rw [alone] at ran
    exact ran
  · show flushed row.status Status.filled row.status = .filled
    exact flushed_fresh _ _

/-- In every run of careful steps over a waiting entry: one order at most is placed for it, and
once that order is filled the row is FILLED, or FIRING and settled FILLED by the next pass
that finds it overdue. -/
theorem run_exact {row : Entry} {events : List (ProcEvent n Action Unit)} {w : Procs Shared Point n}
    (careful : (engine money n).Meets Care (start n row) events)
    (ran : (engine money n).run (start n row) events = some w) :
    w.shared.placed ≤ 1 ∧
      (w.shared.Filled → w.shared.row.status = .filled ∨ w.shared.row.status = .firing) ∧
      ∀ who now timeout price, w.point who = .idle → w.shared.row.status = .firing →
        overdue w.shared.row now timeout = true →
        (∃ order, w.shared.order = some order ∧ order.trade.isSome = true) →
          ∃ t, (engine money n).run w
            [.act who (.readFiring now timeout), .act who .takeOver, .act who (.look price),
              .act who .flush] = some t ∧ t.shared.row.status = .filled := by
  have exact : Exact w :=
    (engine money n).run_invariant (fun _ _ _ => exact_step) (exact_start row) careful ran
  refine ⟨?_, exact.filled, ?_⟩
  · rw [exact.once]
    split
    · exact Nat.le_refl 1
    · exact Nat.zero_le 1
  · intro who now timeout price idle sending late settled
    obtain ⟨order, found, recorded⟩ := settled
    obtain ⟨entry, recorded⟩ := Option.isSome_iff_exists.mp recorded
    exact reconcile_settles idle sending late found recorded

/-- A BUY limit at 100 that waits for the day. -/
def limitEntry : Entry where
  statusNote := "Waiting for your price 100.00"
  side := .buy
  orderType := .limit
  price := some 100
  triggerLevel := 100
  triggerSide := .below
  triggerMode := .touch
  expiresAt := some 1000
  createdAt := 0

/-- Notes with the whole rupees of a price. -/
def plainMoney (price : ℚ) : String := toString price.num

/-- The price 99 reaches it, and its order opens a position. -/
def placedAt99 : List (ProcEvent 1 Action Unit) :=
  [.act 0 (.readResting 10), .act 0 (.judge ⟨some 99, none⟩), .act 0 .claim, .act 0 (.send true),
    .act 0 (.create 41), .act 0 (.advance .validating none), .act 0 (.advance .riskCheck none),
    .act 0 (.advance .submitted none), .act 0 (.advance .pending none),
    .act 0 (.advance .filled none), .act 0 (.advance .positionOpen (some 99)),
    .act 0 (.finished "")]

/-- The worker stops after the fill; `reconcile_on_start` finds the order. -/
def stopAfterFill : List (ProcEvent 1 Action Unit) :=
  placedAt99 ++ [.act 0 .stop, .act 0 (.readFiring 20 0), .act 0 .takeOver, .act 0 (.look none),
    .act 0 .flush]

theorem stopAfterFill_settled :
    ∃ w, (engine plainMoney 1).run (start 1 limitEntry) stopAfterFill = some w ∧
      w.shared.Filled ∧ w.shared.placed ≤ 1 ∧ w.shared.row.status = .filled := by
  have runs : ((engine plainMoney 1).run (start 1 limitEntry) stopAfterFill).any (fun w =>
      decide (w.shared.Filled ∧ w.shared.row.status ≠ .firing)) = true := by
    decide +kernel
  obtain ⟨w, ran, met⟩ := (Option.any_eq_true _ _).mp runs
  obtain ⟨filled, settled⟩ := of_decide_eq_true met
  have exact := run_exact (by decide +kernel) ran
  rcases exact.2.1 filled with status | status
  · exact ⟨w, ran, filled, exact.1, status⟩
  · exact absurd status settled

/-- The commit after `place` fails: `_restore` puts the row back to RESTING. The price never comes
back, and the row expires at the end of the day. -/
def errorAfterFill : List (ProcEvent 1 Action Unit) :=
  placedAt99 ++ [.act 0 .refresh, .act 0 (.raised "OperationalError"), .act 0 .refresh, .act 0 .flush,
    .act 0 (.readResting 20), .act 0 (.judge ⟨some 104, none⟩),
    .act 0 (.readResting 1000), .act 0 (.judge ⟨some 104, none⟩), .act 0 .flush]

/-- The order is filled and the row says that nothing was placed. -/
theorem errorAfterFill_expires :
    ∃ w, (engine plainMoney 1).run (start 1 limitEntry) errorAfterFill = some w ∧
      w.shared.Filled ∧ w.shared.row.status = .expired ∧
        w.shared.row.statusNote = "Expired at the end of the day: nothing was placed" := by
  have runs : ((engine plainMoney 1).run (start 1 limitEntry) errorAfterFill).any (fun w =>
      decide (w.shared.Filled ∧ w.shared.row.status = .expired ∧
        w.shared.row.statusNote = "Expired at the end of the day: nothing was placed")) = true := by
    decide +kernel
  obtain ⟨w, ran, met⟩ := (Option.any_eq_true _ _).mp runs
  exact ⟨w, ran, of_decide_eq_true met⟩

end AdvanceTrading.TriggerEngine
