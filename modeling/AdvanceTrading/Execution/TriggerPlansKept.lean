import AdvanceTrading.Execution.TriggerPlans

/-!
# A trigger plan's orders are recorded truthfully

What the plan and every pass know of an order is kept from step to step: an entry that names a
position names the one the order opened, an entry that says nothing was opened is right, and an
entry with its target armed has it. A settled entry stays settled, so that a plan that is done has
one for every order that opened a position.
-/

namespace AdvanceTrading.TriggerPlans

open Procs

variable {k : ℕ} {p : Plan} {s s' : Desk} {w : Procs Desk Point k} {n trade : ℕ} {r : Result} {results : Results}

/-! ## What is known of an order -/

/-- The entry is right about the order. -/
structure Sound (s : Desk) (n : ℕ) (r : Result) : Prop where
  names : ∀ trade ∈ r.tradeId, trade ∈ s.opened n ∧ r.settled = true ∧ r.status = some .placed
  denies : r.denies = true → s.opened n = []
  armed : r.targetArmed = true → ∃ trade, r.tradeId = some trade ∧ (trade ∈ s.closed ∨ s.exits n = some trade)

/-- A stored entry has its target armed as well. -/
structure Kept (p : Plan) (s : Desk) (n : ℕ) (r : Result) : Prop extends Sound s n r where
  target : ∀ trade ∈ r.tradeId, p.hasTarget n = true → r.targetArmed = true

/-- The ticket, the exits and the proposals name positions the order opened. -/
structure Books (s : Desk) : Prop where
  once : ∀ n, (s.opened n).length ≤ 1
  ticket : ∀ n trade, s.tickets n = some (some trade) → trade ∈ s.opened n
  plain : ∀ n trade, s.plain n = some trade → trade ∈ s.opened n
  exits : ∀ n trade, s.exits n = some trade → trade ∈ s.opened n
  executed : ∀ n action, s.actions n = some action → action.status = .executed → action.tradeId.isSome = true
  answer : ∀ n action, s.actions n = some action → ∀ trade ∈ action.tradeId, trade ∈ s.opened n

/-- The books, and what the plan and the passes know. -/
structure Known (p : Plan) (w : Procs Desk Point k) : Prop where
  books : Books w.shared
  stored : ∀ n, Kept p w.shared n (entry w.shared.results n)
  copies : ∀ q n, Kept p w.shared n (entry (w.point q).copy n)
  held : ∀ q askFirst results n r, w.point q = .storing askFirst results n r → Sound w.shared n r
  ahead : ∀ q, ∀ n < p.targets.length, (entry (w.point q).copy n).settled = true →
    (entry w.shared.results n).settled = true
  done : w.shared.status = .done → ∀ n < p.targets.length,
    (entry w.shared.results n).settled = true ∨ w.shared.opened n = []

/-! ## Entries -/

theorem entry_update_self : entry (Function.update results n (some r)) n = r := by
  rw [entry, Function.update_self, Option.getD_some]

theorem entry_update_ne {m : ℕ} (ne : m ≠ n) : entry (Function.update results n (some r)) m = entry results m := by
  rw [entry, Function.update_of_ne ne, entry]

/-- What is found after one place was written was written there, or was there before. -/
theorem of_update {α : Type} {f : ℕ → Option α} {written : Option α} {found : α} {m : ℕ}
    (at_m : Function.update f n written m = some found) : m = n ∧ written = some found ∨ f m = some found := by
  rw [Function.update_apply] at at_m
  split at at_m
  · next same => exact Or.inl ⟨same, at_m⟩
  · exact Or.inr at_m

/-- An order that has one position at most has the one that is named. -/
theorem Books.eq_of_mem (books : Books s) {other : ℕ} (mem : trade ∈ s.opened n)
    (mem' : other ∈ s.opened n) : trade = other := by
  have once := books.once n
  rcases opened : s.opened n with _ | ⟨first, _ | ⟨second, rest⟩⟩
  · rw [opened] at mem
    cases mem
  · rw [opened] at mem mem'
    rw [List.mem_singleton.mp mem, List.mem_singleton.mp mem']
  · rw [opened] at once
    simp at once

/-- Nothing is known of an order before anything happens to it. -/
theorem kept_empty : Kept p s n {} where
  names := fun _ named => by cases named
  denies := fun denied => by cases denied
  armed := fun armed => by cases armed
  target := fun _ named => by cases named

/-- An entry that is not settled names no position and has no target armed. -/
theorem Sound.unsettled (sound : Sound s n r) (unsettled : r.settled = false) :
    r.tradeId = none ∧ r.targetArmed = false := by
  have unnamed : r.tradeId = none := by
    cases named : r.tradeId with
    | none => rfl
    | some trade =>
      have settled := (sound.names trade named).2.1
      rw [unsettled] at settled
      cases settled
  refine ⟨unnamed, ?_⟩
  cases armed : r.targetArmed with
  | false => rfl
  | true =>
    obtain ⟨trade, named, -⟩ := sound.armed armed
    rw [unnamed] at named
    cases named

/-! ## What a step leaves -/

/-- From one state to the next: positions are opened only where they may be, and what is closed or armed stays so. -/
structure Grows (w : Procs Desk Point k) (s : Desk) : Prop where
  opened : ∀ n, s.opened n = w.shared.opened n ∨ MayOpen w n ∧ ∃ trade, s.opened n = [trade]
  closed : w.shared.closed ⊆ s.closed
  exits : ∀ n trade, w.shared.exits n = some trade → s.exits n = some trade

theorem Grows.of_eq (opened : s.opened = w.shared.opened) (closed : s.closed = w.shared.closed)
    (exits : s.exits = w.shared.exits) : Grows w s where
  opened := fun n => Or.inl (congrFun opened n)
  closed := closed ▸ List.Subset.refl _
  exits := fun n trade at_n => by rw [exits]; exact at_n

/-- A position that was opened stays so. -/
theorem Grows.mem (grows : Grows w s) (mem : trade ∈ w.shared.opened n) : trade ∈ s.opened n := by
  rcases grows.opened n with same | ⟨may, -⟩
  · rw [same]
    exact mem
  · rw [may.1] at mem
    cases mem

/-- An entry stays right, unless it denies what may be opened. -/
theorem Grows.sound (grows : Grows w s) (sound : Sound w.shared n r)
    (allowed : MayOpen w n → r.denies = false) : Sound s n r where
  names := fun trade named =>
    have known := sound.names trade named
    ⟨grows.mem known.1, known.2⟩
  denies := fun denied => by
    rcases grows.opened n with same | ⟨may, -⟩
    · rw [same]
      exact sound.denies denied
    · rw [allowed may] at denied
      cases denied
  armed := fun armed => by
    obtain ⟨trade, named, standing⟩ := sound.armed armed
    exact ⟨trade, named, standing.imp (fun mem => grows.closed mem) (grows.exits n trade)⟩

theorem Grows.kept (grows : Grows w s) (kept : Kept p w.shared n r)
    (allowed : MayOpen w n → r.denies = false) : Kept p s n r :=
  { grows.sound kept.toSound allowed with target := kept.target }

/-- A pass that may not have it as nothing has it as such in neither its copy nor its result. -/
theorem copy_denies {point : Point} (quiet : point.denies n = false) : (entry point.copy n).denies = false := by
  cases point with
  | storing askFirst results m r =>
    simp only [Point.denies, Bool.or_eq_false_iff] at quiet
    exact quiet.1
  | _ => exact quiet

theorem held_denies {askFirst : Bool}
    (quiet : (Point.storing askFirst results n r).denies n = false) : r.denies = false := by
  simp only [Point.denies, Bool.or_eq_false_iff, beq_self_eq_true, Bool.true_and] at quiet
  exact quiet.2

/-! ## Knowledge over a step -/

/-- A plan that is done keeps an entry for every order that opened a position. -/
theorem Known.done_grows (known : Known p w) (grows : Grows w s)
    (settled : ∀ n < p.targets.length, (entry w.shared.results n).settled = true → (entry s.results n).settled = true)
    (done : w.shared.status = .done) (m : ℕ) (lt : m < p.targets.length) :
    (entry s.results m).settled = true ∨ s.opened m = [] := by
  rcases known.done done m lt with isSettled | nothing
  · exact Or.inl (settled m lt isSettled)
  · rcases grows.opened m with same | ⟨may, -⟩
    · exact Or.inr (same.trans nothing)
    · exact absurd done may.2.1

variable {q : Fin k} {next : Point}

/-- A pass moves: what is stored then, and what the pass then knows, have to be right. -/
theorem Known.move (known : Known p w) (books : Books s) (grows : Grows w s)
    (stored : ∀ m, Kept p s m (entry s.results m))
    (settled : ∀ m < p.targets.length, (entry w.shared.results m).settled = true → (entry s.results m).settled = true)
    (copy : ∀ m, Kept p s m (entry next.copy m))
    (held : ∀ askFirst results m r, next = .storing askFirst results m r → Sound s m r)
    (ahead : ∀ m < p.targets.length, (entry next.copy m).settled = true → (entry s.results m).settled = true)
    (done : s.status = .done → w.shared.status ≠ .done → ∀ m < p.targets.length,
      (entry s.results m).settled = true ∨ s.opened m = []) :
    Known p (w.move q s next) where
  books := books
  stored := stored
  copies := forall_move (P := fun point : Point => ∀ m, Kept p s m (entry point.copy m))
    (fun q' _ m => grows.kept (known.copies q' m) fun may => copy_denies (may.2.2.2 q')) copy
  held := forall_move (P := fun point : Point => ∀ askFirst results m r,
    point = .storing askFirst results m r → Sound s m r)
    (fun q' _ askFirst results m r at_q' => grows.sound (known.held q' askFirst results m r at_q') fun may =>
      held_denies (at_q' ▸ may.2.2.2 q')) held
  ahead := forall_move
    (P := fun point : Point => ∀ m < p.targets.length, (entry point.copy m).settled = true →
      (entry s.results m).settled = true)
    (fun q' _ m lt isSettled => settled m lt (known.ahead q' m lt isSettled)) ahead
  done := fun isDone => by
    by_cases was : w.shared.status = .done
    · exact known.done_grows grows settled was
    · exact done isDone was

/-- A step that stores no results and does not end the plan. -/
theorem Known.moveOn (known : Known p w) (books : Books s) (grows : Grows w s)
    (results : s.results = w.shared.results) (status : s.status = .done → w.shared.status = .done)
    (copy : ∀ m, next.copy m = (w.point q).copy m ∨ next.copy m = none)
    (held : ∀ askFirst results m r, next = .storing askFirst results m r → Sound s m r) :
    Known p (w.move q s next) := by
  have entries : ∀ m, entry next.copy m = entry (w.point q).copy m ∨ entry next.copy m = {} := fun m =>
    (copy m).imp (fun same => by rw [entry, same, entry]) (fun gone => by rw [entry, gone, Option.getD_none])
  refine known.move books grows (fun m => ?_) (fun m _ isSettled => results ▸ isSettled) (fun m => ?_) held
    (fun m lt isSettled => ?_) (fun isDone was => absurd (status isDone) was)
  · rw [results]
    exact grows.kept (known.stored m) fun may => may.2.2.1
  · rcases entries m with same | empty
    · rw [same]
      exact grows.kept (known.copies q m) fun may => copy_denies (may.2.2.2 q)
    · rw [empty]
      exact kept_empty
  · rw [results]
    rcases entries m with same | empty
    · rw [same] at isSettled
      exact known.ahead q m lt isSettled
    · rw [empty] at isSettled
      cases isSettled

/-- Something outside the passes. -/
theorem Known.beside (known : Known p w) (books : Books s) (grows : Grows w s)
    (results : s.results = w.shared.results) (status : s.status = w.shared.status) :
    Known p { w with shared := s } where
  books := books
  stored := fun m => by
    show Kept p s m (entry s.results m)
    rw [results]
    exact grows.kept (known.stored m) fun may => may.2.2.1
  copies := fun q m => grows.kept (known.copies q m) fun may => copy_denies (may.2.2.2 q)
  held := fun q askFirst copy m r at_q => grows.sound (known.held q askFirst copy m r at_q) fun may =>
    held_denies (at_q ▸ may.2.2.2 q)
  ahead := fun q m lt isSettled => by
    show (entry s.results m).settled = true
    rw [results]
    exact known.ahead q m lt isSettled
  done := fun isDone => known.done_grows grows (fun m _ isSettled => results ▸ isSettled) (status ▸ isDone)

/-! ## The ticket, the exits and the proposals -/

/-- The books say the same where what they name is the same. -/
theorem Books.congr (books : Books s) (opened : s'.opened = s.opened)
    (tickets : s'.tickets = s.tickets) (plain : s'.plain = s.plain) (exits : s'.exits = s.exits)
    (actions : s'.actions = s.actions) : Books s' where
  once := by rw [opened]; exact books.once
  ticket := by rw [opened, tickets]; exact books.ticket
  plain := by rw [opened, plain]; exact books.plain
  exits := by rw [opened, exits]; exact books.exits
  executed := by rw [actions]; exact books.executed
  answer := by rw [opened, actions]; exact books.answer

/-- One proposal is written. -/
theorem Books.withAction (books : Books s) {action : Action}
    (executed : action.status = .executed → action.tradeId.isSome = true)
    (answer : ∀ trade ∈ action.tradeId, trade ∈ s.opened n) :
    Books { s with actions := Function.update s.actions n (some action) } where
  once := books.once
  ticket := books.ticket
  plain := books.plain
  exits := books.exits
  executed := fun m action' at_m isExecuted => by
    rcases of_update at_m with ⟨-, written⟩ | before
    · cases written
      exact executed isExecuted
    · exact books.executed m action' before isExecuted
  answer := fun m action' at_m trade named => by
    rcases of_update at_m with ⟨rfl, written⟩ | before
    · cases written
      exact answer trade named
    · exact books.answer m action' before trade named

theorem Books.propose (books : Books s) : Books (s.propose n) := by
  unfold Desk.propose
  cases s.actions n with
  | some action => exact books
  | none => exact books.withAction (fun executed => by cases executed) (fun trade named => by cases named)

theorem Books.link (books : Books s) : Books (s.link n) := by
  unfold Desk.link
  cases found : s.actions n with
  | some action => exact books.withAction (books.executed n action found) (books.answer n action found)
  | none =>
    have same : Function.update s.actions n none = s.actions := by
      rw [← found]
      exact Function.update_eq_self n s.actions
    rw [Option.map_none, same]
    exact books

/-- The first position of an order that had none. -/
theorem opened_first (nothing : s.opened n = []) (m : ℕ) :
    Function.update s.opened n (s.opened n ++ [trade]) m = if m = n then [trade] else s.opened m := by
  rw [nothing, List.nil_append, Function.update_apply]

/-- The books with a position opened for an order that had none. -/
structure Opened (s s' : Desk) (n trade : ℕ) : Prop where
  opened : ∀ m, s'.opened m = if m = n then [trade] else s.opened m
  ticket : ∀ m other, s'.tickets m = some (some other) → s.tickets m = some (some other) ∨ m = n ∧ other = trade
  plain : ∀ m other, s'.plain m = some other → s.plain m = some other ∨ m = n ∧ other = trade
  exits : s'.exits = s.exits
  actions : s'.actions = s.actions

theorem Opened.mem (opens : Opened s s' n trade) (nothing : s.opened n = []) {m other : ℕ}
    (mem : other ∈ s.opened m) : other ∈ s'.opened m := by
  rw [opens.opened m]
  split
  · next same =>
    rw [same, nothing] at mem
    cases mem
  · exact mem

theorem Opened.own (opens : Opened s s' n trade) : trade ∈ s'.opened n := by
  rw [opens.opened n, if_pos rfl]
  exact List.mem_singleton_self trade

theorem Books.open (books : Books s) (nothing : s.opened n = []) (opens : Opened s s' n trade) : Books s' where
  once := fun m => by
    rw [opens.opened m]
    split
    · exact le_refl 1
    · exact books.once m
  ticket := fun m other at_m => by
    rcases opens.ticket m other at_m with before | ⟨rfl, rfl⟩
    · exact opens.mem nothing (books.ticket m other before)
    · exact opens.own
  plain := fun m other at_m => by
    rcases opens.plain m other at_m with before | ⟨rfl, rfl⟩
    · exact opens.mem nothing (books.plain m other before)
    · exact opens.own
  exits := fun m other at_m => opens.mem nothing (books.exits m other (opens.exits ▸ at_m))
  executed := by rw [opens.actions]; exact books.executed
  answer := fun m action at_m other named => opens.mem nothing
    (books.answer m action (opens.actions ▸ at_m) other named)

theorem Grows.open (may : MayOpen w n) (opens : Opened w.shared s n trade)
    (closed : s.closed = w.shared.closed) : Grows w s where
  opened := fun m => by
    rw [opens.opened m]
    split
    · next same => exact Or.inr ⟨same ▸ may, trade, rfl⟩
    · exact Or.inl rfl
  closed := closed ▸ List.Subset.refl _
  exits := fun m other at_m => by rw [opens.exits]; exact at_m

/-- The ticket's answers: nothing and nothing opened, its own position, or a new one. -/
inductive Placed (s : Desk) (n : ℕ) (choice : Choice) : Result → Desk → Prop
  | nothing (status : ResultStatus) (tickets : ℕ → Option (Option ℕ))
      (kept : ∀ m other, tickets m = some (some other) → s.tickets m = some (some other))
      (no : s.opens n choice = false) (replay : s.replays n choice = false) :
      Placed s n choice { status := some status, settled := true } { s with tickets := tickets }
  | known (trade : ℕ) (ticket : s.tickets n = some (some trade)) (no : s.opens n choice = false) :
      Placed s n choice { status := some .placed, tradeId := some trade, settled := true } s
  | opened (trade : ℕ) (s' : Desk) (opens : s.opened n = [] → Opened s s' n trade) (yes : s.opens n choice = true)
      (results : s'.results = s.results) (status : s'.status = s.status) (closed : s'.closed = s.closed) :
      Placed s n choice { status := some .placed, tradeId := some trade, settled := true } s'

theorem placed_place (s : Desk) (n : ℕ) (choice : Choice) :
    Placed s n choice (s.place n choice).1 (s.place n choice).2 := by
  unfold Desk.place
  cases choice with
  | refused failed => exact .nothing _ s.tickets (fun _ _ same => same) rfl rfl
  | rejected =>
    cases found : s.tickets n with
    | some order =>
      cases order with
      | some trade => exact .known trade found rfl
      | none => exact .nothing _ s.tickets (fun _ _ same => same) rfl (by simp [Desk.replays, found])
    | none =>
      refine .nothing _ (Function.update s.tickets n (some none)) (fun m other at_m => ?_) rfl
        (by simp [Desk.replays, found])
      rcases of_update at_m with ⟨-, written⟩ | before
      · cases written
      · exact before
  | placed =>
    cases found : s.tickets n with
    | some order =>
      have no : s.opens n .placed = false := by simp [Desk.opens, found]
      cases order with
      | some trade => exact .known trade found no
      | none => exact .nothing _ s.tickets (fun _ _ same => same) no (by simp [Desk.replays, found])
    | none =>
      refine .opened s.next _ (fun nothing => ?_) (by simp [Desk.opens, found]) rfl rfl rfl
      refine ⟨opened_first nothing, fun m other at_m => ?_, fun m other at_m => Or.inl at_m, rfl, rfl⟩
      rcases of_update at_m with ⟨same, written⟩ | before
      · cases written
        exact Or.inr ⟨same, rfl⟩
      · exact Or.inl before

/-- What the ticket leaves: the books, and what the plan stores. -/
structure Carried (w : Procs Desk Point k) (s : Desk) : Prop where
  books : Books s
  grows : Grows w s
  results : s.results = w.shared.results
  status : s.status = w.shared.status

/-- The approvals being carried out are in no book. -/
theorem Carried.carrying (carried : Carried w s) (carrying : List (ℕ × Bool)) :
    Carried w { s with carrying := carrying } :=
  have ⟨once, ticket, plain, exits, executed, answer⟩ := carried.books
  have ⟨opened, closed, kept⟩ := carried.grows
  ⟨⟨once, ticket, plain, exits, executed, answer⟩, ⟨opened, closed, kept⟩, carried.results, carried.status⟩

theorem Placed.carried {choice : Choice} (placed : Placed w.shared n choice r s) (books : Books w.shared)
    (may : w.shared.opens n choice = true → MayOpen w n) : Carried w s := by
  cases placed with
  | nothing status tickets kept no replay =>
    exact ⟨⟨books.once, fun m other at_m => books.ticket m other (kept m other at_m), books.plain,
      books.exits, books.executed,
      books.answer⟩, .of_eq rfl rfl rfl, rfl, rfl⟩
  | known trade ticket no => exact ⟨books, .of_eq rfl rfl rfl, rfl, rfl⟩
  | opened trade s opens yes results status closed =>
    have allowed := may yes
    have opened := opens allowed.1
    exact ⟨books.open allowed.1 opened, .open allowed opened closed, results, status⟩

theorem Placed.sound {choice : Choice} (placed : Placed s n choice r s') (books : Books s)
    (may : s.opens n choice = true → s.opened n = [])
    (straight : s.opens n choice = false → s.replays n choice = false → s.opened n = []) : Sound s' n r := by
  cases placed with
  | nothing status tickets kept no replay =>
    exact ⟨fun _ named => (by cases named), fun _ => straight no replay, fun armed => (by cases armed)⟩
  | known trade ticket no =>
    refine ⟨fun other named => ?_, fun denied => (by cases denied), fun armed => (by cases armed)⟩
    cases named
    exact ⟨books.ticket n trade ticket, rfl, rfl⟩
  | opened trade s' opens yes results status closed =>
    refine ⟨fun other named => ?_, fun denied => (by cases denied), fun armed => (by cases armed)⟩
    cases named
    exact ⟨(opens (may yes)).own, rfl, rfl⟩

theorem carried_placePlain {choice : Choice} (books : Books w.shared)
    (may : w.shared.plain n = none → choice = .placed → MayOpen w n) : Carried w (w.shared.placePlain n choice) := by
  unfold Desk.placePlain
  split
  · next found =>
    have allowed := may found rfl
    have opened : Opened w.shared
        { w.shared with
          plain := Function.update w.shared.plain n (some w.shared.next)
          opened := Function.update w.shared.opened n (w.shared.opened n ++ [w.shared.next])
          next := w.shared.next + 1 } n w.shared.next := by
      refine ⟨opened_first allowed.1, fun m other at_m => Or.inl at_m, fun m other at_m => ?_, rfl, rfl⟩
      rcases of_update at_m with ⟨same, written⟩ | before
      · cases written
        exact Or.inr ⟨same, rfl⟩
      · exact Or.inl before
    exact ⟨books.open allowed.1 opened, .open allowed opened rfl, rfl, rfl⟩
  · exact ⟨books, .of_eq rfl rfl rfl, rfl, rfl⟩

theorem carried_propose (books : Books w.shared) : Carried w (w.shared.propose n) := by
  have proposed := books.propose (n := n)
  unfold Desk.propose at proposed ⊢
  cases found : w.shared.actions n with
  | some action => exact ⟨books, .of_eq rfl rfl rfl, rfl, rfl⟩
  | none =>
    rw [found] at proposed
    exact ⟨proposed, .of_eq rfl rfl rfl, rfl, rfl⟩

theorem opened_propose : (s.propose n).opened = s.opened := by
  unfold Desk.propose
  cases s.actions n <;> rfl

/-- The proposal's answer is right, where a proposal that is turned down left nothing. -/
theorem Sound.readAnswer (sound : Sound s n r) (books : Books s) (unsettled : r.settled = false)
    (straight : s.turnedDown n = true → s.opened n = []) : Sound s n (readAnswer r (s.actions n)) := by
  obtain ⟨unnamed, unarmed⟩ := sound.unsettled unsettled
  have settle (status : ResultStatus) (nothing : s.opened n = []) : Sound s n
      { r with status := some status, settled := true } := by
    refine ⟨fun trade named => ?_, fun _ => nothing, fun armed => ?_⟩
    · rw [unnamed] at named
      cases named
    · rw [unarmed] at armed
      cases armed
  unfold Desk.turnedDown at straight
  cases found : s.actions n with
  | none =>
    rw [found] at straight
    exact settle .notPlaced (straight rfl)
  | some action =>
    rw [found] at straight
    simp only [TriggerPlans.readAnswer]
    cases status : action.status with
    | executed =>
      obtain ⟨trade, traded⟩ := Option.isSome_iff_exists.mp (books.executed n action found status)
      refine ⟨fun other named => ⟨books.answer n action found other named, rfl, rfl⟩, fun denied => ?_, fun armed => ?_⟩
      · simp [Result.denies, traded] at denied
      · rw [unarmed] at armed
        cases armed
    | rejected => exact settle .rejected (straight (by simp [status]))
    | expired => exact settle .expired (straight (by simp [status]))
    | failed => exact settle .failed (straight (by simp [status]))
    | proposed => exact sound
    | approved => exact sound

theorem target_unnamed {refused : Bool} (unnamed : r.tradeId = none) : s.target p n r refused = (r, s) := by
  unfold Desk.target
  rw [unnamed]

theorem target_named {refused : Bool} (named : r.tradeId = some trade) :
    s.target p n r refused =
      if p.hasTarget n ∧ r.targetArmed = false then
        ({ r with targetArmed := true }, s.armTarget n trade refused)
      else (r, s) := by
  unfold Desk.target
  rw [named]

/-- What a target leaves: the entry with the target it has, and the books, in which only exits are new. -/
structure Targeted (p : Plan) (s : Desk) (n : ℕ) (r r' : Result) (s' : Desk) : Prop where
  kept : Kept p s' n r'
  settled : r'.settled = r.settled
  books : Books s'
  only : ∃ exits, s' = { s with exits := exits }
  exits : ∀ m trade, s.exits m = some trade → s'.exits m = some trade

theorem Sound.arm (sound : Sound s n r) (named : r.tradeId = some trade) (books : Books s)
    (standing : trade ∈ s.closed ∨ s.exits n = some trade) : Targeted p s n r { r with targetArmed := true } s where
  kept := ⟨⟨sound.names, sound.denies, fun _ => ⟨trade, named, standing⟩⟩, fun _ _ _ => rfl⟩
  settled := rfl
  books := books
  only := ⟨s.exits, rfl⟩
  exits := fun _ _ same => same

theorem Sound.asIs (sound : Sound s n r) (books : Books s)
    (target : ∀ trade ∈ r.tradeId, p.hasTarget n = true → r.targetArmed = true) : Targeted p s n r r s where
  kept := ⟨sound, target⟩
  settled := rfl
  books := books
  only := ⟨s.exits, rfl⟩
  exits := fun _ _ same => same

/-- The exit under the reference, new or there before, is of the order's position. -/
theorem Sound.armExit (sound : Sound s n r) (named : r.tradeId = some trade) (books : Books s) :
    Targeted p s n r { r with targetArmed := true }
      { s with exits := Function.update s.exits n ((s.exits n).or (some trade)) } := by
  have known := sound.names trade named
  have armed : (s.exits n).or (some trade) = some trade := by
    cases there : s.exits n with
    | none => rfl
    | some before => rw [Option.some_or, books.eq_of_mem (books.exits n before there) known.1]
  rw [armed]
  have isOpened : ∀ m other, Function.update s.exits n (some trade) m = some other → other ∈ s.opened m := by
    intro m other at_m
    rcases of_update at_m with ⟨same, written⟩ | before
    · cases written
      rw [same]
      exact known.1
    · exact books.exits m other before
  have still : ∀ m other, s.exits m = some other → Function.update s.exits n (some trade) m = some other := by
    intro m other at_m
    by_cases same : m = n
    · subst same
      rw [Function.update_self, books.eq_of_mem known.1 (books.exits m other at_m)]
    · rw [Function.update_of_ne same]
      exact at_m
  have standing : Function.update s.exits n (some trade) n = some trade := Function.update_self ..
  exact ⟨⟨⟨sound.names, sound.denies, fun _ => ⟨trade, named, Or.inr standing⟩⟩, fun _ _ _ => rfl⟩, rfl,
    ⟨books.once, books.ticket, books.plain, isOpened, books.executed, books.answer⟩, ⟨_, rfl⟩, still⟩

/-- The target of a result, where a target is refused only for a closed position. -/
theorem Sound.target (sound : Sound s n r) (books : Books s) {refused : Bool}
    (straight : refused = true → ∀ trade ∈ r.tradeId, trade ∈ s.closed) :
    Targeted p s n r (s.target p n r refused).1 (s.target p n r refused).2 := by
  rcases traded : r.tradeId with _ | trade
  · rw [target_unnamed traded]
    exact sound.asIs books fun trade named => by rw [traded] at named; cases named
  · rw [target_named traded]
    split
    · unfold Desk.armTarget
      split
      · next skips =>
        have closed : trade ∈ s.closed := skips.elim id fun isRefused => straight isRefused trade traded
        exact sound.arm traded books (Or.inl closed)
      · exact sound.armExit traded books
    · next idle =>
      refine sound.asIs books fun _ _ has => ?_
      rw [not_and, Bool.not_eq_false] at idle
      exact idle has

/-! ## One statement -/

/-- The statements of a pass, each where it can be taken. -/
inductive Stated (p : Plan) (s : Desk) : Point → Act → Desk → Point → Prop
  | load : Stated p s .idle .load s (.loaded s.status s.results)
  | trigger (results : Results) :
      Stated p s (.loaded .armed results) .trigger { s with status := .triggered } (.loaded .triggered results)
  | lost (results : Results) : Stated p s (.loaded .armed results) .trigger s .ended
  | begun (askFirst : Bool) (results : Results) :
      Stated p s (.loaded .triggered results) (.begin true askFirst) s (.at askFirst results 0)
  | ended (askFirst : Bool) (results : Results) (s' : Desk) (written : s' = s ∨ s' = { s with status := .done }) :
      Stated p s (.loaded .triggered results) (.begin false askFirst) s' .ended
  | keep (askFirst : Bool) (results : Results) (n : ℕ) :
      Stated p s (.at askFirst results n) .keep s (.storing askFirst results n (entry results n))
  | place (results : Results) (n : ℕ) (choice : Choice) :
      Stated p s (.at false results n) (.place choice) (s.place n choice).2
        (.storing false results n (s.place n choice).1)
  | propose (results : Results) (n : ℕ) : Stated p s (.at true results n) .propose (s.propose n) (.linking results n)
  | raise (results : Results) (n : ℕ) (raised : Bool) (s' : Desk) (before : s' = s ∨ s' = s.propose n) :
      Stated p s (.at true results n) (.raise raised) s'
        (.storing true results n { status := some .notProposed, settled := true })
  | link (results : Results) (n : ℕ) :
      Stated p s (.linking results n) .link (s.link n)
        (.storing true results n { status := some .proposed, proposed := true })
  | read (results : Results) (n : ℕ) (unsettled : (entry results n).settled = false) :
      Stated p s (.at true results n) .read s (.storing true results n (readAnswer (entry results n) (s.actions n)))
  | store (askFirst : Bool) (results : Results) (n : ℕ) (r : Result) (refused : Bool) :
      Stated p s (.storing askFirst results n r) (.store refused)
        { (s.target p n r refused).2 with results := Function.update results n (some (s.target p n r refused).1) }
        (.at askFirst (Function.update results n (some (s.target p n r refused).1)) (n + 1))
  | finish (askFirst : Bool) (results : Results) (s' : Desk)
      (written : s' = s ∨ s' = { s with status := .done } ∧ ∀ m < p.targets.length, (entry results m).settled = true) :
      Stated p s (.at askFirst results p.targets.length) .finish s' .ended
  | stop (point : Point) : Stated p s point .stop s .ended

theorem stated_of_statement {point : Point} {act : Act}
    (ran : statement p s point act = some (s', next)) : Stated p s point act s' next := by
  unfold statement at ran
  split at ran
  · cases ran
    exact .load
  · split at ran
    · cases ran
      exact .trigger _
    · cases ran
      exact .lost _
  · split at ran
    · next active =>
      cases ran
      rw [active]
      exact .begun ..
    · next inactive =>
      cases ran
      rw [Bool.not_eq_true] at inactive
      rw [inactive]
      refine .ended _ _ _ ?_
      split
      · exact Or.inr rfl
      · exact Or.inl rfl
  · split at ran
    · cases ran
      exact .keep ..
    · cases ran
  · split at ran
    · cases ran
      exact .place ..
    · cases ran
  · split at ran
    · cases ran
      exact .propose ..
    · cases ran
  · split at ran
    · cases ran
      refine .raise _ _ _ _ ?_
      split
      · exact Or.inr rfl
      · exact Or.inl rfl
    · cases ran
  · cases ran
    exact .link ..
  · split at ran
    · next reads =>
      cases ran
      exact .read _ _ (Bool.not_eq_true _ ▸ reads.2.1)
    · cases ran
  · cases ran
    exact .store ..
  · split at ran
    · next last =>
      subst last
      split at ran
      · next settled =>
        cases ran
        exact .finish _ _ _ (Or.inr ⟨rfl, settled.1⟩)
      · cases ran
        exact .finish _ _ _ (Or.inl rfl)
    · cases ran
  · cases ran
    exact .stop _
  · cases ran

/-! ## Steps and runs -/

theorem not_storing {point : Point} (other : ∀ askFirst results m r, point ≠ .storing askFirst results m r) (s : Desk) :
    ∀ askFirst results m r, point = .storing askFirst results m r → Sound s m r :=
  fun askFirst results m r same => absurd same (other askFirst results m r)

/-- A pass that stops, or goes on with the copy it has, and leaves the desk. -/
theorem Known.stay (known : Known p w)
    (copy : ∀ m, next.copy m = (w.point q).copy m ∨ next.copy m = none)
    (held : ∀ askFirst results m r, next = .storing askFirst results m r → Sound w.shared m r) :
    Known p (w.move q w.shared next) :=
  known.moveOn known.books (.of_eq rfl rfl rfl) rfl id copy held

/-- The plan ends with the pass. -/
theorem Known.end (known : Known p w)
    (all : ∀ m < p.targets.length, (entry w.shared.results m).settled = true ∨ w.shared.opened m = []) :
    Known p (w.move q { w.shared with status := .done } .ended) := by
  have grows : Grows w { w.shared with status := .done } := .of_eq rfl rfl rfl
  exact known.move (known.books.congr rfl rfl rfl rfl rfl) grows
    (fun m => grows.kept (known.stored m) fun may => may.2.2.1) (fun _ _ isSettled => isSettled) (fun m => kept_empty)
    (not_storing (fun _ _ _ _ same => by cases same) _) (fun m _ isSettled => by cases isSettled) (fun _ _ => all)

/-- The copy is stored with the entry of its order. -/
theorem Known.store (known : Known p w) {askFirst : Bool} {r' : Result}
    (at_q : w.point q = .storing askFirst results n r) (targeted : Targeted p w.shared n r r' s)
    (settled : ∀ m < p.targets.length, (entry w.shared.results m).settled = true →
      (entry (Function.update results n (some r)) m).settled = true) :
    Known p (w.move q { s with results := Function.update results n (some r') }
      (.at askFirst (Function.update results n (some r')) (n + 1))) := by
  obtain ⟨exits, rfl⟩ := targeted.only
  have grows : Grows w { w.shared with exits := exits, results := Function.update results n (some r') } :=
    ⟨fun m => Or.inl rfl, List.Subset.refl _, targeted.exits⟩
  have copied : ∀ m, Kept p { w.shared with exits := exits, results := Function.update results n (some r') } m
      (entry (Function.update results n (some r')) m) := by
    intro m
    by_cases same : m = n
    · subst same
      rw [entry_update_self]
      exact ⟨⟨targeted.kept.names, targeted.kept.denies, targeted.kept.armed⟩, targeted.kept.target⟩
    · rw [entry_update_ne same]
      have copy := known.copies q m
      rw [at_q] at copy
      refine grows.kept copy fun may => ?_
      have quiet := copy_denies (may.2.2.2 q)
      rw [at_q] at quiet
      exact quiet
  have settles : ∀ m < p.targets.length, (entry w.shared.results m).settled = true →
      (entry (Function.update results n (some r')) m).settled = true := by
    intro m lt isSettled
    have kept := settled m lt isSettled
    by_cases same : m = n
    · subst same
      rw [entry_update_self] at kept ⊢
      rw [targeted.settled, kept]
    · rw [entry_update_ne same] at kept ⊢
      exact kept
  have books : Books { w.shared with exits := exits, results := Function.update results n (some r') } :=
    targeted.books.congr rfl rfl rfl rfl rfl
  exact known.move books grows copied settles copied (not_storing (fun _ _ _ _ same => by cases same) _)
    (fun _ _ isSettled => isSettled) (fun isDone was => absurd isDone was)

theorem Known.act (known : Known p w) {point : Point} {act : Act}
    (straight : Straight p w (.act q act)) (at_q : w.point q = point)
    (stated : Stated p w.shared point act s next) : Known p (w.move q s next) := by
  simp only [Straight, at_q] at straight
  have forgets : ∀ m, Point.ended.copy m = (w.point q).copy m ∨ Point.ended.copy m = none := fun m => Or.inr rfl
  have isEnded : ∀ askFirst results m r, Point.ended ≠ .storing askFirst results m r :=
    fun _ _ _ _ same => by cases same
  have unheld := not_storing isEnded
  have same (results : Results) (copied : (w.point q).copy = results) :
      ∀ m, results m = (w.point q).copy m ∨ results m = none := fun m => Or.inl (by rw [copied])
  cases stated with
  | load =>
    exact known.move known.books (.of_eq rfl rfl rfl) known.stored (fun _ _ isSettled => isSettled) known.stored
      (not_storing (fun _ _ _ _ same => by cases same) _) (fun _ _ isSettled => isSettled)
        (fun isDone was => absurd isDone was)
  | trigger results =>
    exact known.moveOn (known.books.congr rfl rfl rfl rfl rfl) (.of_eq rfl rfl rfl) rfl (fun isDone => by cases isDone)
      (same results (by rw [at_q]; rfl)) (not_storing (fun _ _ _ _ same => by cases same) _)
  | lost results => exact known.stay forgets (unheld _)
  | begun askFirst results =>
    exact known.stay (same results (by rw [at_q]; rfl)) (not_storing (fun _ _ _ _ same => by cases same) _)
  | ended askFirst results s' written =>
    rcases written with rfl | rfl
    · exact known.stay forgets (unheld _)
    · exact known.end fun m lt => Or.inr (straight rfl m lt)
  | keep askFirst results n =>
    have copy := known.copies q n
    rw [at_q] at copy
    refine known.stay (same results (by rw [at_q]; rfl)) fun askFirst' results' m r at_next => ?_
    cases at_next
    exact copy.toSound
  | place results n choice =>
    have placed := placed_place w.shared n choice
    dsimp only at straight
    have may : w.shared.opens n choice = true → MayOpen w n := fun opens => by rwa [if_pos opens] at straight
    have carried := placed.carried known.books may
    refine known.moveOn carried.books carried.grows carried.results (fun isDone => carried.status ▸ isDone)
      (same results (by rw [at_q]; rfl)) fun askFirst' results' m r at_next => ?_
    cases at_next
    refine placed.sound known.books (fun opens => (may opens).1) fun no replay => ?_
    rw [if_neg (by rw [no]; exact Bool.false_ne_true)] at straight
    exact straight replay
  | propose results n =>
    have books := known.books.propose (n := n)
    have proposed : Carried w (w.shared.propose n) := carried_propose known.books
    exact known.moveOn proposed.books proposed.grows proposed.results (fun isDone => proposed.status ▸ isDone)
      (same results (by rw [at_q]; rfl)) (not_storing (fun _ _ _ _ same => by cases same) _)
  | raise results n raised s' before =>
    have carried : Carried w s := by
      rcases before with rfl | rfl
      · exact ⟨known.books, .of_eq rfl rfl rfl, rfl, rfl⟩
      · exact carried_propose known.books
    refine known.moveOn carried.books carried.grows carried.results (fun isDone => carried.status ▸ isDone)
      (same results (by rw [at_q]; rfl)) fun askFirst' results' m r at_next => ?_
    cases at_next
    have nothing : s.opened n = [] := by
      rcases before with rfl | rfl
      · exact straight
      · rw [opened_propose]
        exact straight
    exact ⟨fun _ named => (by cases named), fun _ => nothing, fun armed => (by cases armed)⟩
  | link results n =>
    refine known.moveOn known.books.link (.of_eq rfl rfl rfl) rfl id (same results (by rw [at_q]; rfl))
      fun askFirst' results' m r at_next => ?_
    cases at_next
    exact ⟨fun _ named => (by cases named), fun denied => (by cases denied), fun armed => (by cases armed)⟩
  | read results n unsettled =>
    have copy := known.copies q n
    rw [at_q] at copy
    refine known.stay (same results (by rw [at_q]; rfl)) fun askFirst' results' m r at_next => ?_
    cases at_next
    exact copy.toSound.readAnswer known.books unsettled straight
  | store askFirst results n r refused =>
    exact known.store at_q ((known.held q askFirst results n r at_q).target known.books straight.2) straight.1
  | finish askFirst results s' written =>
    rcases written with rfl | ⟨rfl, settled⟩
    · exact known.stay forgets (unheld _)
    · refine known.end fun m lt => Or.inl (known.ahead q m lt ?_)
      rw [at_q]
      exact settled m lt
  | stop point => exact known.stay forgets (unheld _)

/-! ## What happens outside the passes -/

theorem carried_settleAction {expect : ActionStatus} {write : Action → Action} (books : Books w.shared)
    (settled : w.shared.settleAction n expect write = some s)
    (executed : ∀ action, w.shared.actions n = some action → (write action).status = .executed →
      (write action).tradeId.isSome = true)
    (answer : ∀ action, w.shared.actions n = some action → ∀ trade ∈ (write action).tradeId,
      trade ∈ w.shared.opened n) :
    Carried w s := by
  unfold Desk.settleAction at settled
  split at settled
  · next action found =>
    split at settled
    · cases settled
      exact ⟨books.withAction (executed action found) (answer action found), .of_eq rfl rfl rfl, rfl, rfl⟩
    · cases settled
  · cases settled

theorem carried_outside {event : Event} (books : Books w.shared) (straight : Straight p w (.outside event))
    (happened : outside w.shared event = some s) : Carried w s := by
  cases event with
  | decide n status =>
    simp only [outside] at happened
    split at happened
    · next decided =>
      refine carried_settleAction books happened (fun action _ isExecuted => ?_) fun action found =>
        books.answer n action found
      rw [show status = .executed from isExecuted] at decided
      simp at decided
    · cases happened
  | takeUp n =>
    simp only [outside] at happened
    split at happened
    · split at happened
      · cases happened
        exact Carried.carrying ⟨books, .of_eq rfl rfl rfl, rfl, rfl⟩ _
      · cases happened
    · cases happened
  | carryOut n linked choice =>
    simp only [outside] at happened
    simp only [Straight] at straight
    split at happened
    · cases happened
      cases linked with
      | true =>
        simp only [if_true] at straight ⊢
        exact ((placed_place w.shared n choice).carried books straight).carrying _
      | false =>
        simp only [Bool.false_eq_true, if_false] at straight ⊢
        exact (carried_placePlain books straight).carrying _
    · cases happened
  | executed n trade =>
    simp only [outside] at happened
    split at happened
    · next opened =>
      refine carried_settleAction books happened (fun _ _ _ => rfl) fun action found other named => ?_
      cases named
      exact opened.elim (books.ticket n trade) (books.plain n trade)
    · cases happened
  | unplaced n expired =>
    simp only [outside] at happened
    refine carried_settleAction books happened (fun action _ isExecuted => ?_) fun action found =>
      books.answer n action found
    cases expired <;> cases isExecuted
  | close trade =>
    cases happened
    exact ⟨⟨books.once, books.ticket, books.plain, books.exits, books.executed, books.answer⟩,
      ⟨fun m => Or.inl rfl, fun other mem => List.mem_cons_of_mem trade mem, fun _ _ same => same⟩, rfl, rfl⟩

theorem Known.step {event : ProcEvent k Act Event} {t : Procs Desk Point k} (known : Known p w)
    (straight : Straight p w event) (stepped : (passes p k).step w event = some t) : Known p t := by
  cases event with
  | act q act =>
    obtain ⟨s, next, ran, rfl⟩ := act_eq stepped
    exact known.act straight rfl (stated_of_statement ran)
  | outside event =>
    obtain ⟨s, ran, rfl⟩ := outside_eq stepped
    have carried := carried_outside known.books straight ran
    exact known.beside carried.books carried.grows carried.results carried.status

theorem known_armedPlan : Known p (armedPlan k) where
  books :=
    ⟨fun _ => Nat.zero_le 1, fun _ _ at_m => (by cases at_m), fun _ _ at_m => (by cases at_m),
      fun _ _ at_m => (by cases at_m),
      fun _ _ at_m => (by cases at_m), fun _ _ at_m => (by cases at_m)⟩
  stored := fun _ => kept_empty
  copies := fun _ _ => kept_empty
  held := fun _ _ _ _ _ at_q => by cases at_q
  ahead := fun _ _ _ isSettled => by cases isSettled
  done := fun isDone => by cases isDone

theorem Known.truthful (known : Known p w) : Truthful p w.shared := by
  have recorded : w.shared.status = .done → ∀ n < p.targets.length, ∀ trade ∈ w.shared.opened n,
      ∃ r, w.shared.results n = some r ∧ r.tradeId = some trade := by
    intro isDone n lt trade opened
    have sound := (known.stored n).toSound
    have settled : (entry w.shared.results n).settled = true := (known.done isDone n lt).resolve_right fun nothing => by
      rw [nothing] at opened
      cases opened
    cases found : w.shared.results n with
    | none =>
      rw [entry, found] at settled
      cases settled
    | some r =>
      rw [entry, found, Option.getD_some] at settled sound
      refine ⟨r, rfl, ?_⟩
      cases named : r.tradeId with
      | none =>
        have nothing := sound.denies (by simp [Result.denies, settled, named])
        rw [nothing] at opened
        cases opened
      | some other => rw [known.books.eq_of_mem opened (sound.names other named).1]
  refine ⟨known.books.once, fun isDone n lt trade opened => ?_, fun isDone n lt has trade opened => ?_⟩
  · obtain ⟨r, found, named⟩ := recorded isDone n lt trade opened
    have sound := known.stored n
    rw [entry, found, Option.getD_some] at sound
    exact ⟨r, found, named, (sound.names trade named).2.2⟩
  · obtain ⟨r, found, named⟩ := recorded isDone n lt trade opened
    have kept := known.stored n
    rw [entry, found, Option.getD_some] at kept
    obtain ⟨other, named', standing⟩ := kept.armed (kept.target trade named has)
    rw [named] at named'
    cases named'
    exact standing

/-- In every run of passes whose steps are all straight, each order opens at most one position, and a plan that is done
names it, with its target armed while it is open. -/
theorem plan_truthful {events : List (ProcEvent k Act Event)}
    (straight : (passes p k).Meets (Straight p) (armedPlan k) events)
    (ran : (passes p k).run (armedPlan k) events = some w) : Truthful p w.shared :=
  have known : Known p w :=
    (passes p k).run_invariant (fun _ _ _ known straight stepped => known.step straight stepped)
      known_armedPlan straight ran
  known.truthful

/-! ## One order, placed at once and asked for -/

instance (n : ℕ) : Decidable (MayOpen w n) :=
  inferInstanceAs (Decidable (_ ∧ _ ∧ _ ∧ ∀ q, (w.point q).denies n = false))

instance (event : ProcEvent k Act Event) : Decidable (Straight p w event) := by
  unfold Straight
  repeat' split
  all_goals infer_instance

/-- The first pass places the order and stops before the store; the second places it again, and arms its target. -/
def placedTwice : List (ProcEvent 2 Act Event) :=
  [.act 0 .load, .act 0 .trigger, .act 0 (.begin true false), .act 0 (.place .placed), .act 0 .stop,
    .act 1 .load, .act 1 (.begin true false), .act 1 (.place .placed), .act 1 (.store false), .act 1 .finish]

theorem plan_truthful_again :
    ∃ w, (passes ⟨[true]⟩ 2).run (armedPlan 2) placedTwice = some w ∧ w.shared.status = .done ∧
      w.shared.opened 0 = [0] ∧
      w.shared.exits 0 = some 0 ∧ Truthful ⟨[true]⟩ w.shared := by
  have runs : ((passes ⟨[true]⟩ 2).run (armedPlan 2) placedTwice).any
      (fun w => decide (w.shared.status = .done ∧ w.shared.opened 0 = [0] ∧ w.shared.exits 0 = some 0)) = true := by
    decide +kernel
  obtain ⟨w, ran, after⟩ := (Option.any_eq_true _ _).mp runs
  obtain ⟨done, opened, exits⟩ := of_decide_eq_true after
  exact ⟨w, ran, done, opened, exits, plan_truthful (by decide +kernel) ran⟩

/-- The first pass places the order and stops before the store. He now wants to be asked: the next pass asks for the
same order, he says no, and the plan is done with the order rejected, beside its open position. -/
theorem asked_after_placed :
    ∃ w, (passes ⟨[true]⟩ 3).run (armedPlan 3)
        [.act 0 .load, .act 0 .trigger, .act 0 (.begin true false), .act 0 (.place .placed), .act 0 .stop,
          .act 1 .load, .act 1 (.begin true true), .act 1 .propose, .act 1 .link, .act 1 (.store false), .act 1 .finish,
          .outside (.decide 0 .rejected),
          .act 2 .load, .act 2 (.begin true true), .act 2 .read, .act 2 (.store false), .act 2 .finish] = some w ∧
      w.shared.status = .done ∧ w.shared.opened 0 = [0] ∧
      w.shared.results 0 = some { status := some .rejected, proposed := true, settled := true } ∧
        w.shared.exits 0 = none ∧
      ¬ Truthful ⟨[true]⟩ w.shared := by
  have runs : ((passes ⟨[true]⟩ 3).run (armedPlan 3)
        [.act 0 .load, .act 0 .trigger, .act 0 (.begin true false), .act 0 (.place .placed), .act 0 .stop,
          .act 1 .load, .act 1 (.begin true true), .act 1 .propose, .act 1 .link, .act 1 (.store false), .act 1 .finish,
          .outside (.decide 0 .rejected),
          .act 2 .load, .act 2 (.begin true true), .act 2 .read, .act 2 (.store false), .act 2 .finish]).any
      (fun w => decide (w.shared.status = .done ∧ w.shared.opened 0 = [0] ∧
        w.shared.results 0 = some { status := some .rejected, proposed := true, settled := true } ∧
          w.shared.exits 0 = none)) = true := by
    decide +kernel
  obtain ⟨w, ran, after⟩ := (Option.any_eq_true _ _).mp runs
  obtain ⟨done, opened, result, exits⟩ := of_decide_eq_true after
  refine ⟨w, ran, done, opened, result, exits, fun truthful => ?_⟩
  obtain ⟨r, found, named, -⟩ := truthful.named done 0 Nat.one_pos 0 (opened ▸ List.mem_singleton_self 0)
  rw [result] at found
  cases found
  cases named

end AdvanceTrading.TriggerPlans
