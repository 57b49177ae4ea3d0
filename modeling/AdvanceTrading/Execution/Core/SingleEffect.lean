import AdvanceTrading.Execution.Core.Dispatcher

/-!
# One effect for each intent

Whether an intent's filled PAPER order is what its row says, over every
interleaving of the workers. `finish` asks for CLAIMED, not for the claim of
its own attempt, and `relink_placed` mends EXPIRED and FAILED only; between an
attempt's checks and its effect another attempt may take a different route.
The conditions below are the checks the code does not make at those places.
-/

namespace AdvanceTrading.Execution.Core

/-- The row is settled by something other than its PAPER order, for good. -/
def Intent.Against (row : Intent) : Prop :=
  row.status = .refused ∨ (row.status = .done ∧ row.route ≠ some .paper)

/-- The row was closed in a way `relink_placed` mends. -/
def Intent.Swept (row : Intent) : Prop := row.status = .expired ∨ row.status = .failed

/-- The intent's own PAPER order reached FILLED or POSITION_OPEN. -/
def Shared.Placed (s : Shared) : Prop :=
  ∃ order, existingOrder s.holder = some order ∧ order.status ∈ placedOrder

/-- The worker runs the pipeline of the order it created. -/
def Point.inPipeline : Point → Bool
  | .dispatch _ (.pipeline _) => true
  | _ => false

/-- The worker comes to `relink_placed` if its `finish` finds the row no longer CLAIMED. -/
def Point.relinks : Point → Bool
  | .dispatch _ (.pipeline _) | .dispatch _ (.placed _ _) | .dispatch _ (.relinking _ _) => true
  | _ => false

/-- An attempt of the intent is running. -/
def Point.running : Point → Bool
  | .taken | .dispatch _ _ | .lookingOrder (.dispatch _) | .lookingProposal (.dispatch _) => true
  | _ => false

instance (row : Intent) : Decidable row.Against := inferInstanceAs (Decidable (_ ∨ _))
instance (row : Intent) : Decidable row.Swept := inferInstanceAs (Decidable (_ ∨ _))

instance (s : Shared) : Decidable s.Placed :=
  match found : existingOrder s.holder with
  | none => isFalse (by simp [Shared.Placed, found])
  | some order => decidable_of_iff (order.status ∈ placedOrder) (by simp [Shared.Placed, found])

variable {n : Nat} {cfg : Settings}

/-- A row that may be written beside the order as it is: nothing is settled against an order that
is filled or under way, and a filled order is swept only before its attempt relinks. -/
def World.Suits (w : World n) (row : Intent) : Prop :=
  (row.Against → ¬ w.shared.Placed ∧ ∀ q, (w.point q).inPipeline = false) ∧
    (row.Swept → w.shared.Placed → ∃ q, (w.point q).relinks = true)

/-- The steps that keep one effect. -/
def CareWorker (cfg : Settings) (w : World n) (who : Fin n) : Action → Prop
  | .update =>
      ∀ update ∈ updateAt cfg w.shared (w.point who),
        update.1 w.shared.row = true → w.Suits (update.2 w.shared.row)
  | .create _ => w.shared.holder = none → w.shared.proposal = none ∧ ¬ w.shared.row.Against
  | .propose (.ok _) => w.shared.proposal = none → existingOrder w.shared.holder = none
  | .stop | .raised _ _ =>
      (w.point who).relinks = true → w.shared.row.Swept → w.shared.Placed →
        ∃ q, q ≠ who ∧ (w.point q).relinks = true
  | _ => True

instance (w : World n) (row : Intent) : Decidable (w.Suits row) := inferInstanceAs (Decidable (_ ∧ _))

instance (cfg : Settings) (w : World n) (who : Fin n) (action : Action) :
    Decidable (CareWorker cfg w who action) :=
  match action with
  | .update => inferInstanceAs (Decidable (∀ _ ∈ _, _ → _))
  | .create _ => inferInstanceAs (Decidable (_ → _))
  | .propose (.ok _) => inferInstanceAs (Decidable (_ → _))
  | .stop => inferInstanceAs (Decidable (_ → _))
  | .raised _ _ => inferInstanceAs (Decidable (_ → _))
  | .propose (.error _) | .readQueued _ _ | .readOverdue _ _ | .readStale _ _ | .look | .load _
  | .recheck | .facts _ | .notify _ | .paper _ | .check _ | .advance _ _ _ | .returned => isTrue trivial

/-- The invariant of careful runs. -/
structure SingleEffect (w : World n) : Prop where
  apart : existingOrder w.shared.holder = none ∨ w.shared.proposal = none
  suits : w.Suits w.shared.row

/-! ## What one statement can do -/

/-- The kinds of effect a statement has. -/
inductive Effect (cfg : Settings) (s : Shared) : Point → Action → Shared → Point → Prop where
  | update {point guard write} (here : updateAt cfg s point = some (guard, write)) :
      Effect cfg s point .update
        { s with row := if guard s.row then write s.row else s.row } (afterUpdate point (guard s.row))
  | create {point now price id} (free : s.holder = none) :
      Effect cfg s point (.create id) { s with holder := some (newOrder id) }
        (.dispatch now (.pipeline price))
  | advance {now price order next tradeId reasons} (own : existingOrder s.holder = some order) :
      Effect cfg s (.dispatch now (.pipeline price)) (.advance next tradeId reasons)
        { s with holder := some { order with status := next, tradeId := tradeId, reasons := reasons } }
        (.dispatch now (.pipeline price))
  | propose {point id now f} (quiet : point.relinks = false) :
      Effect cfg s point (.propose (.ok id)) { s with proposal := some (s.proposal.getD id) }
        (.dispatch now (.finishing f))
  | read {point action next} (outside : next.inPipeline = false)
      (relinks : point.relinks = true → next.relinks = true ∨ ¬ s.Placed) : Effect cfg s point action s next
  | leave {point action next} (outside : next.inPipeline = false)
      (how : action = .stop ∨ ∃ type now, action = .raised type now) : Effect cfg s point action s next

theorem answered_outside (reader : Reader) (earlier : Option Outcome) :
    (reader.answered earlier).inPipeline = false := by
  cases reader <;> cases earlier <;> simp [Reader.answered, Point.inPipeline]

theorem readOverdue_outside (row : Intent) (scope : Scope) (now : Int) :
    (readOverdue row scope now).inPipeline = false := by
  unfold readOverdue
  split <;> simp [Point.inPipeline]

variable {point : Point} {row : Intent}

theorem readStale_outside {scope : Scope} {now : Int}
    (read : readStale cfg row scope now = some point) : point.inPipeline = false := by
  unfold readStale at read
  split at read
  · obtain ⟨at_, -, rfl⟩ := Option.map_eq_some_iff.mp read
    simp only
    split <;> simp [Point.inPipeline]
  · cases read

theorem routeOf_outside (row : Intent) (facts : Facts) (now clock : Int) :
    (Point.dispatch clock (routeOf cfg row facts now)).inPipeline = false := by
  unfold routeOf
  simp only
  repeat' split
  all_goals simp [Point.inPipeline]

variable {action : Action} {t s : Shared}

/-- A statement that only reads, of a worker that will not relink. -/
theorem Effect.ofRead {there next : Point} (ran : some (s, there) = some (t, next))
    (outside : there.inPipeline = false) (quiet : point.relinks = false) :
    Effect cfg s point action t next := by
  obtain ⟨rfl, rfl⟩ := Prod.mk.inj (Option.some.inj ran)
  refine .read outside ?_
  intro relinks
  rw [quiet] at relinks
  cases relinks

theorem statement_effect {next : Point} (ran : statement cfg s point action = some (t, next)) :
    Effect cfg s point action t next := by
  unfold statement at ran
  split at ran
  · cases ran
  · -- stop
    cases ran
    exact .leave rfl (.inl rfl)
  · -- readQueued
    split at ran
    · exact .ofRead ran rfl rfl
    · cases ran
  · exact .ofRead ran (readOverdue_outside _ _ _) rfl
  · -- readStale
    obtain ⟨point, read, same⟩ := Option.map_eq_some_iff.mp ran
    exact .ofRead (congrArg some same) (readStale_outside read) rfl
  · -- look for the order
    split at ran
    · exact .ofRead ran (answered_outside _ _) rfl
    · exact .ofRead ran rfl rfl
  · exact .ofRead ran (answered_outside _ _) rfl
  · -- update
    obtain ⟨⟨guard, write⟩, here, same⟩ := Option.map_eq_some_iff.mp ran
    cases same
    exact .update here
  · -- load
    split at ran
    · exact .ofRead ran rfl rfl
    · split at ran
      · exact .ofRead ran rfl rfl
      · exact .ofRead ran rfl rfl
  · -- recheck
    refine .ofRead ran ?_ rfl
    split <;> rfl
  · exact .ofRead ran (routeOf_outside _ _ _ _) rfl
  · exact .ofRead ran rfl rfl
  · -- propose
    split at ran
    · exact .ofRead ran rfl rfl
    · cases ran
      exact .propose rfl
  · -- paper
    split at ran
    · split at ran
      · exact .ofRead ran rfl rfl
      · split at ran
        · exact .ofRead ran rfl rfl
        · exact .ofRead ran rfl rfl
    · refine .ofRead ran ?_ rfl
      split <;> rfl
  · -- check
    refine .ofRead ran ?_ rfl
    split <;> rfl
  · -- create
    split at ran
    · rename_i free
      cases ran
      exact .create free
    · split at ran
      · exact .ofRead ran rfl rfl
      · split at ran
        · exact .ofRead ran rfl rfl
        · exact .ofRead ran rfl rfl
  · -- advance
    split at ran
    · rename_i order own
      split at ran
      · cases ran
        exact .advance own
      · cases ran
    · cases ran
  · -- returned
    split at ran
    · rename_i order own
      split at ran
      · cases ran
        exact .read rfl fun _ => .inl rfl
      · rename_i unplaced
        split at ran
        · cases ran
        · cases ran
          refine .read rfl fun _ => .inr ?_
          rintro ⟨placed, same, status⟩
          rw [own] at same
          cases same
          exact unplaced status
    · cases ran
  · cases ran
    exact .leave rfl (.inr ⟨_, _, rfl⟩)
  · cases ran
    exact .leave rfl (.inr ⟨_, _, rfl⟩)
  · cases ran
    exact .leave rfl (.inr ⟨_, _, rfl⟩)
  · cases ran
    exact .leave rfl (.inr ⟨_, _, rfl⟩)
  · cases ran
    exact .leave rfl (.inr ⟨_, _, rfl⟩)
  · cases ran

/-! ## One step -/

theorem afterUpdate_outside (point : Point) (matched : Bool) :
    (afterUpdate point matched).inPipeline = false := by
  unfold afterUpdate
  repeat' split
  all_goals rfl

/-- A worker gives up relinking only when nothing is left to relink. -/
theorem update_relinks {guard : Intent → Bool} {write : Intent → Intent}
    (here : updateAt cfg s point = some (guard, write)) (relinks : point.relinks = true)
    (swept : Intent.Swept (if guard s.row then write s.row else s.row)) (placed : s.Placed) :
    (afterUpdate point (guard s.row)).relinks = true := by
  unfold updateAt at here
  split at here
  all_goals try cases relinks
  · -- `_placed`: its own finish leaves the row DONE
    obtain ⟨rfl, rfl⟩ := Prod.mk.inj (Option.some.inj here)
    by_cases claimed : s.row.status = .claimed
    · simp only [claimed, decide_true, if_true] at swept
      rcases swept with status | status <;> cases status
    · simp [afterUpdate, claimed, Point.relinks]
  · -- `relink_placed` matches every swept row of a filled order
    obtain ⟨rfl, rfl⟩ := Prod.mk.inj (Option.some.inj here)
    obtain ⟨order, own, status⟩ := placed
    by_cases closed : s.row.status = .expired ∨ s.row.status = .failed
    · simp only [own, Option.any_some, status, closed, decide_true, Bool.and_self, if_true] at swept
      rcases swept with status | status <;> cases status
    · simp only [closed, decide_false, Bool.and_false] at swept
      exact absurd swept closed
  · cases here

variable {w : World n} {who : Fin n} {next : Point}

theorem outside_move (outside : ∀ q, (w.point q).inPipeline = false)
    (there : next.inPipeline = false) (q : Fin n) :
    ((w.move who t next).point q).inPipeline = false :=
  Procs.forall_move (P := fun point : Point => point.inPipeline = false) (fun q _ => outside q) there q

theorem relinks_move
    (still : (w.point who).relinks = true → next.relinks = true ∨ ∃ q, q ≠ who ∧ (w.point q).relinks = true)
    (before : ∃ q, (w.point q).relinks = true) :
    ∃ q, ((w.move who t next).point q).relinks = true :=
  Procs.exists_move (P := fun point : Point => point.relinks = true) still before

/-- One careful statement of one worker. -/
theorem SingleEffect.statement (effect : SingleEffect w) (care : CareWorker cfg w who action)
    (ran : statement cfg w.shared (w.point who) action = some (t, next)) :
    SingleEffect (w.move who t next) := by
  have how := statement_effect ran
  generalize stands : w.point who = point at how
  cases how with
  | @update _ guard write here =>
    have suits : w.Suits (if guard w.shared.row then write w.shared.row else w.shared.row) := by
      split
      · exact care (guard, write) (by rw [stands]; exact here) ‹_›
      · exact effect.suits
    refine ⟨effect.apart, ?_, ?_⟩
    · intro against
      obtain ⟨unplaced, outside⟩ := suits.1 against
      exact ⟨unplaced, outside_move outside (afterUpdate_outside _ _)⟩
    · intro swept placed
      apply relinks_move _ (suits.2 swept placed)
      intro relinks
      exact .inl (update_relinks here (stands ▸ relinks) swept placed)
  | create free =>
    obtain ⟨unproposed, open_⟩ := care free
    refine ⟨.inr unproposed, ?_, ?_⟩
    · intro against
      exact absurd against open_
    · rintro _ ⟨order, own, status⟩
      cases own
      simp [newOrder, placedOrder] at status
  | advance own =>
    have unproposed : w.shared.proposal = none := by
      rcases effect.apart with none_ | unproposed
      · rw [own] at none_
        cases none_
      · exact unproposed
    refine ⟨.inr unproposed, ?_, ?_⟩
    · intro against
      have outside := (effect.suits.1 against).2 who
      rw [stands] at outside
      cases outside
    · intro _ _
      refine ⟨who, ?_⟩
      rw [Procs.move_self]
      rfl
  | propose quiet =>
    refine ⟨.inl ?_, ?_, ?_⟩
    · rcases effect.apart with unplaced | unproposed
      · exact unplaced
      · exact care unproposed
    · intro against
      obtain ⟨unplaced, outside⟩ := effect.suits.1 against
      exact ⟨unplaced, outside_move outside rfl⟩
    · intro swept placed
      apply relinks_move _ (effect.suits.2 swept placed)
      intro relinks
      rw [stands, quiet] at relinks
      cases relinks
  | read outside still =>
    refine ⟨effect.apart, ?_, ?_⟩
    · intro against
      obtain ⟨unplaced, before⟩ := effect.suits.1 against
      exact ⟨unplaced, outside_move before outside⟩
    · intro swept placed
      apply relinks_move _ (effect.suits.2 swept placed)
      intro relinks
      rcases still (stands ▸ relinks) with own | unplaced
      · exact .inl own
      · exact absurd placed unplaced
  | leave outside how =>
    refine ⟨effect.apart, ?_, ?_⟩
    · intro against
      obtain ⟨unplaced, before⟩ := effect.suits.1 against
      exact ⟨unplaced, outside_move before outside⟩
    · intro swept placed
      apply relinks_move _ (effect.suits.2 swept placed)
      intro relinks
      rcases how with rfl | ⟨type, now, rfl⟩
      · exact .inr (care relinks swept placed)
      · exact .inr (care relinks swept placed)

/-! ## Whole runs -/

/-- The condition on an event: orders of others need none. -/
def Care (cfg : Settings) (w : World n) : Event n → Prop
  | .act who action => CareWorker cfg w who action
  | .outside _ => True

instance (cfg : Settings) (w : World n) (event : Event n) : Decidable (Care cfg w event) :=
  match event with
  | .act who action => inferInstanceAs (Decidable (CareWorker cfg w who action))
  | .outside _ => isTrue trivial

theorem singleEffect_start (queued : row.status = .queued) :
    SingleEffect (World.start n row) where
  apart := .inl rfl
  suits := by
    constructor
    · intro against
      have against : row.Against := against
      simp [Intent.Against, queued] at against
    · intro swept
      have swept : row.Swept := swept
      simp [Intent.Swept, queued] at swept

theorem singleEffect_step {w t : World n} {event : Event n} (effect : SingleEffect w)
    (care : Care cfg w event) (stepped : (workers cfg n).step w event = some t) : SingleEffect t := by
  cases event with
  | act who action =>
    obtain ⟨shared, point, ran, rfl⟩ := Procs.act_eq stepped
    exact effect.statement care ran
  | outside order =>
    obtain ⟨shared, ran, rfl⟩ := Procs.outside_eq stepped
    unfold foreignOrder at ran
    split at ran
    · rename_i foreign
      cases ran
      have none_ : existingOrder (some order) = none := by
        simp [existingOrder, Option.filter, foreign.1]
      refine ⟨.inl none_, ?_, ?_⟩
      · intro against
        refine ⟨?_, (effect.suits.1 against).2⟩
        rintro ⟨own, found, -⟩
        rw [none_] at found
        cases found
      · rintro _ ⟨own, found, -⟩
        rw [none_] at found
        cases found
    · cases ran

/-- In every run of careful steps: once no attempt is running and the row is neither QUEUED nor
CLAIMED, an intent whose order filled is DONE by the route PAPER; and at no time has an intent
both a proposal and a filled order. -/
theorem run_single_effect {row : Intent} (queued : row.status = .queued) {events : List (Event n)}
    {w : World n} (careful : (workers cfg n).Meets (Care cfg) (World.start n row) events)
    (ran : (workers cfg n).run (World.start n row) events = some w) :
    (w.shared.Placed → (∀ q, (w.point q).running = false) → w.shared.row.status ≠ .queued →
      w.shared.row.status ≠ .claimed →
        w.shared.row.status = .done ∧ w.shared.row.route = some .paper) ∧
      ¬ (w.shared.proposal.isSome ∧ w.shared.Placed) := by
  have effect : SingleEffect w :=
    (workers cfg n).run_invariant (fun _ _ _ => singleEffect_step) (singleEffect_start queued)
      careful ran
  constructor
  · intro placed still unqueued unclaimed
    have unagainst : ¬ w.shared.row.Against := fun against => (effect.suits.1 against).1 placed
    have unswept : ¬ w.shared.row.Swept := by
      intro swept
      obtain ⟨q, relinks⟩ := effect.suits.2 swept placed
      have idle := still q
      revert relinks idle
      cases w.point q with
      | dispatch now stage =>
        intro _ idle
        cases idle
      | _ =>
        intro relinks
        cases relinks
    unfold Intent.Against at unagainst
    unfold Intent.Swept at unswept
    cases status : w.shared.row.status <;> simp_all
  · rintro ⟨proposed, order, own, -⟩
    rcases effect.apart with none_ | none_
    · rw [none_] at own
      cases own
    · rw [none_] at proposed
      cases proposed

/-- The setup as a QUEUED Auto PAPER intent. -/
def autoPaperIntent : Intent := newIntent defaults 1 setup .autoPaper

/-- Everything allows the PAPER entry, except as `armed` says. -/
def switches (armed : Bool) : Facts where
  tenant := some ("ACTIVE", true)
  ownerActive := true
  autoPaperEnabled := armed
  approvalRequired := false
  phase0Locked := false

/-- The first attempt up to its order: claimed, checked, about to be placed. -/
def firstAttempt : List (Event 2) :=
  [.act 0 (.readQueued none 0), .act 0 .update, .act 0 (.load 1),
    .act 0 (.facts (switches true)), .act 0 (.paper false), .act 0 (.check (.place 100))]

/-- The other worker requeues the claim as stale and claims the row again. -/
def claimAgain : List (Event 2) :=
  [.act 1 (.readStale none 120), .act 1 .update, .act 1 (.readQueued none 121),
    .act 1 .update, .act 1 (.load 122)]

/-- The order is created and fills; the attempt finishes and, if that fails, relinks. -/
def orderFills : List (Event 2) :=
  [.act 0 (.advance .validating none ""), .act 0 (.advance .riskCheck none ""),
    .act 0 (.advance .submitted none ""), .act 0 (.advance .pending none ""),
    .act 0 (.advance .filled none ""), .act 0 (.advance .positionOpen (some 5) ""),
    .act 0 .returned, .act 0 .update]

/-- The row is claimed again while the order is in flight: the second attempt leaves it to the
first, which finishes it. -/
theorem overlap_in_flight :
    ∃ w, (workers defaults 2).run (World.start 2 autoPaperIntent)
        (firstAttempt ++ [.act 0 (.create 9)] ++ claimAgain ++
          [.act 1 .look, .act 1 .recheck] ++ orderFills) = some w ∧
      w.shared.row.status = .done ∧ w.shared.row.route = some .paper ∧
        ¬ (w.shared.proposal.isSome ∧ w.shared.Placed) := by
  have runs : ((workers defaults 2).run (World.start 2 autoPaperIntent)
      (firstAttempt ++ [.act 0 (.create 9)] ++ claimAgain ++
        [.act 1 .look, .act 1 .recheck] ++ orderFills)).any (fun w =>
          decide (w.shared.Placed ∧ (∀ q, (w.point q).running = false) ∧
            w.shared.row.status ≠ .queued ∧ w.shared.row.status ≠ .claimed)) = true := by
    decide +kernel
  obtain ⟨w, ran, met⟩ := (Option.any_eq_true _ _).mp runs
  obtain ⟨placed, still, unqueued, unclaimed⟩ := of_decide_eq_true met
  have single := run_single_effect (by decide) (by decide +kernel) ran
  obtain ⟨done, paper⟩ := single.1 placed still unqueued unclaimed
  exact ⟨w, ran, done, paper, single.2⟩

/-- The row is claimed again before the order is created, and Auto PAPER was switched off in
between: the second attempt raises a proposal, then the first places and fills its order. -/
theorem overlap_before_order :
    ∃ w, (workers defaults 2).run (World.start 2 autoPaperIntent)
        (firstAttempt ++ claimAgain ++
          [.act 1 .look, .act 1 .look, .act 1 .recheck,
            .act 1 (.facts (switches false)), .act 1 (.propose (.ok 4)), .act 1 .update,
            .act 0 (.create 9)] ++ orderFills ++ [.act 0 .update]) = some w ∧
      w.shared.Placed ∧ (∀ q, (w.point q).running = false) ∧ w.shared.row.status = .done ∧
        w.shared.row.route = some .propose ∧ w.shared.proposal = some 4 := by
  have runs : ((workers defaults 2).run (World.start 2 autoPaperIntent)
      (firstAttempt ++ claimAgain ++
        [.act 1 .look, .act 1 .look, .act 1 .recheck,
          .act 1 (.facts (switches false)), .act 1 (.propose (.ok 4)), .act 1 .update,
          .act 0 (.create 9)] ++ orderFills ++ [.act 0 .update])).any (fun w =>
            decide (w.shared.Placed ∧ (∀ q, (w.point q).running = false) ∧
              w.shared.row.status = .done ∧ w.shared.row.route = some .propose ∧
                w.shared.proposal = some 4)) = true := by
    decide +kernel
  obtain ⟨w, ran, met⟩ := (Option.any_eq_true _ _).mp runs
  exact ⟨w, ran, of_decide_eq_true met⟩

end AdvanceTrading.Execution.Core
