import AdvanceTrading.Misc.Folds
import AdvanceTrading.Trading.LiveExit

/-!
# What a LIVE close leaves as it is

Every stage of a close adds to what was said, and leaves the row's own columns;
nothing but the sending of the exit is an order. One lemma for each stage.
-/

namespace AdvanceTrading.LiveExit

/-- An exit is sent, or looked for after an error. -/
def Event.isSend : Event → Bool
  | .place .. | .byClientId _ => true
  | _ => false

/-- The columns of a row that no close writes before it books. -/
def Trade.core (trade : Trade) : ℚ × ℚ × Option String := (trade.quantity, trade.stopLoss, trade.slOrderId)

/-- The row's own columns stay, nothing is booked, and what is said is of a kind. -/
structure Frame (P : Event → Prop) (d d' : Desk) : Prop where
  core : d'.trade.core = d.trade.core
  closed : d'.outcome.closed = d.outcome.closed
  said : ∃ new, d'.history = d.history ++ new ∧ ∀ e ∈ new, P e

/-- No exit was sent. -/
abbrev Quiet : Desk → Desk → Prop := Frame fun e => e.isSend = false

abbrev Grows : Desk → Desk → Prop := Frame fun _ => True

instance (P : Event → Prop) : IsPreorder Desk (Frame P) where
  refl d := ⟨rfl, rfl, [], (List.append_nil _).symm, by simp⟩
  trans d d' d'' first second := by
    obtain ⟨new, said, all⟩ := first.said
    obtain ⟨new', said', all'⟩ := second.said
    refine ⟨second.core.trans first.core, second.closed.trans first.closed, new ++ new', ?_, ?_⟩
    · rw [said', said, List.append_assoc]
    · intro e mem
      exact (List.mem_append.mp mem).elim (all e) (all' e)

section Frames

variable {P : Event → Prop} {α : Type}

theorem modify_frame {write : Desk → Desk} (core : ∀ d, (write d).trade.core = d.trade.core)
    (closed : ∀ d, (write d).outcome.closed = d.outcome.closed)
    (history : ∀ d, (write d).history = d.history) : Along (Frame P) (modify write : Exit PUnit) :=
  .modify fun d => ⟨core d, closed d, [], by rw [history d, List.append_nil], by simp⟩

theorem setOutcome_frame {write : Outcome → Outcome} (closed : ∀ o, (write o).closed = o.closed) :
    Along (Frame P) (setOutcome write) :=
  modify_frame (fun _ => rfl) (fun d => closed d.outcome) fun _ => rfl

theorem setTrade_frame {write : Trade → Trade} (core : ∀ t, (write t).core = t.core) :
    Along (Frame P) (setTrade write) :=
  modify_frame (fun d => core d.trade) (fun _ => rfl) fun _ => rfl

theorem warn_frame (notice : Notice) : Along (Frame P) (warn notice) := setOutcome_frame fun _ => rfl

theorem wait_frame (notice : Notice) : Along (Frame P) (wait notice) :=
  .bind (setOutcome_frame fun _ => rfl) fun _ => warn_frame notice

theorem flag_frame (notice : Notice) : Along (Frame P) (flag notice) :=
  .bind (setOutcome_frame fun _ => rfl) fun _ => warn_frame notice

theorem ask_frame {answer : History → α} {event : α → Event} (holds : ∀ a, P (event a)) :
    Along (Frame P) (ask answer event) :=
  fun d => ⟨rfl, rfl, [event (answer d.history)], rfl, by simp [holds]⟩

theorem readBook_frame (world : World) (books : ∀ b, P (.book b)) : Along (Frame P) (readBook world) :=
  ask_frame books

theorem readOrder_frame (world : World) (id : String) (books : ∀ b, P (.book b)) :
    Along (Frame P) (readOrder world id) :=
  .bind (readBook_frame world books) fun _ => .ret _

theorem findOrder_frame (world : World) (id : String) (books : ∀ b, P (.book b)) :
    Along (Frame P) (findOrder world id) :=
  .bind (readOrder_frame world id books) fun _ => .ret _

theorem adopt_frame (id : String) : Along (Frame P) (adopt id) :=
  .bind (setTrade_frame fun _ => rfl) fun _ => modify_frame (fun _ => rfl) (fun _ => rfl) fun _ => rfl

theorem cleared_frame : Along (Frame P) cleared := modify_frame (fun _ => rfl) (fun _ => rfl) fun _ => rfl

theorem sent_frame (id : String) (priorFills : List (ℚ × ℚ)) : Along (Frame P) (sent id priorFills) :=
  .bind (setTrade_frame fun _ => rfl) fun _ => modify_frame (fun _ => rfl) (fun _ => rfl) fun _ => rfl

theorem release_frame : Along (Frame P) release := by
  intro d
  show Frame P d (StateT.run (if d.claimed ∧ ¬ d.keepClaim then _ else _ : Exit PUnit) d).2
  split
  · exact ⟨rfl, rfl, [], (List.append_nil _).symm, by simp⟩
  · exact refl_of _ d

/-- Nothing is said by a release. -/
theorem release_history (d : Desk) : (release.run d).2.history = d.history := by
  have frame : Frame (fun _ => False) d (release.run d).2 := release_frame d
  obtain ⟨new, said, none⟩ := frame.said
  have nothing : new = [] := List.eq_nil_iff_forall_not_mem.mpr none
  rw [said, nothing, List.append_nil]

end Frames

variable {again : Response → Exit (Option String)}

section Stages

variable (world : World) (settings : Settings) (request : Request)

theorem stillOpenNow_quiet : Along Quiet (stillOpenNow world) := by
  have notOpen (held : Option ℚ) (platform : ℚ) : Along Quiet (stillOpenNow.notOpen held platform) :=
    .bind (wait_frame _) fun _ => .bind (setOutcome_frame fun _ => rfl) fun _ => setTrade_frame fun _ => rfl
  refine .bind (ask_frame fun _ => rfl) fun held => ?_
  split
  · refine .bind (ask_frame fun _ => rfl) fun platform => ?_
    split
    · exact .ret _
    · exact .bind (notOpen _ _) fun _ => .ret _
  · exact .bind (notOpen _ _) fun _ => .ret _

theorem judgeAbsent_quiet (earlierId : String) (book : List Order) :
    Along Quiet (judgeAbsent world settings request earlierId book) := by
  refine .bind .get fun d => ?_
  dsimp only
  split
  · exact .bind (wait_frame _) fun _ => .bind (setOutcome_frame fun _ => rfl) fun _ => .ret _
  split
  · exact .bind (wait_frame _) fun _ => .bind (setOutcome_frame fun _ => rfl) fun _ => .ret _
  split
  · exact .bind (warn_frame _) fun _ => .ret _
  refine .bind (stillOpenNow_quiet world) fun held => ?_
  split
  · exact .bind cleared_frame fun _ => .bind (setOutcome_frame fun _ => rfl) fun _ =>
      .bind (warn_frame _) fun _ => .ret _
  · exact .ret _

theorem judgeListed_quiet (earlierId : String) (earlier : Order) (book : List Order) :
    Along Quiet (judgeListed request earlierId earlier book) := by
  unfold judgeListed
  split
  · refine .bind .get fun d => .bind (setOutcome_frame fun _ => rfl) fun _ => .bind (warn_frame _) fun _ => ?_
    split
    · split
      · exact .bind (flag_frame _) fun _ => .ret _
      · exact .bind (.ret _) fun _ => .ret _
    · exact .bind (.ret _) fun _ => .ret _
  split
  · refine .bind .get fun d => ?_
    dsimp only
    split
    · exact .bind (setOutcome_frame fun _ => rfl) fun _ => .bind (warn_frame _) fun _ => .ret _
    split
    · exact .bind (warn_frame _) fun _ => .ret _
    · exact .bind (setOutcome_frame fun _ => rfl) fun _ => .bind (warn_frame _) fun _ => .ret _
  · exact .bind (wait_frame _) fun _ => .ret _

/-- Judging an earlier exit sends none. -/
theorem judgeEarlier_quiet (earlierId : String) :
    Along Quiet (judgeEarlier world settings request earlierId) := by
  refine .bind .get fun d => ?_
  dsimp only
  split
  · exact .bind (wait_frame _) fun _ => .ret _
  refine .bind (readBook_frame world fun _ => rfl) fun book => ?_
  split
  · exact .bind (wait_frame _) fun _ => .ret _
  split
  · exact judgeListed_quiet request _ _ _
  split
  · exact .bind (warn_frame _) fun _ => .bind (adopt_frame _) fun _ => judgeListed_quiet request _ _ _
  · exact judgeAbsent_quiet world settings request _ _

theorem stopAlreadyFilled_frame {P : Event → Prop} (stop : Order) :
    Along (Frame P) (stopAlreadyFilled request stop) := by
  refine .bind .get fun d => .bind (setOutcome_frame fun _ => rfl) fun _ => ?_
  split
  · exact .bind (warn_frame _) fun _ => .ret _
  · exact .bind (.ret _) fun _ => .ret _

theorem cancelStop_quiet (stopId : String) (stop : Option Order) :
    Along Quiet (cancelStop world settings request stopId stop) := by
  refine .bind (ask_frame fun _ => rfl) fun accepted => ?_
  split
  · split
    · refine .bind (findOrder_frame world stopId fun _ => rfl) fun fresh => ?_
      split <;> exact .ret _
    · exact .ret _
  · refine .bind (findOrder_frame world stopId fun _ => rfl) fun recheck => ?_
    split
    · split
      · exact .bind (stopAlreadyFilled_frame request _) fun _ => .ret _
      · exact .bind (warn_frame _) fun _ => .ret _
    · exact .bind (warn_frame _) fun _ => .ret _

/-- Dealing with the stop sends no exit. -/
theorem clearStop_quiet (stopDead : Bool) (earlier : Earlier) (stopId : String) :
    Along Quiet (clearStop world settings request stopDead earlier stopId) := by
  refine .bind (findOrder_frame world stopId fun _ => rfl) fun stop => ?_
  split
  · split
    · exact .bind (flag_frame _) fun _ => .bind (stopAlreadyFilled_frame request _) fun _ => .ret _
    · exact .bind (stopAlreadyFilled_frame request _) fun _ => .ret _
  · split
    · exact .ret _
    · exact cancelStop_quiet world settings request _ _

theorem readExit_frame {P : Event → Prop} (id : String) (quantity fallback : ℚ) (books : ∀ b, P (.book b))
    {again : Option Order → Exit (ℚ × Option Order)} (rest : ∀ order, Along (Frame P) (again order)) :
    Along (Frame P) (readExit world id quantity fallback again) := by
  refine .bind (findOrder_frame world id books) fun order => ?_
  split
  · split
    · exact .ret _
    split
    · exact .ret _
    · exact rest _
  · exact rest _

theorem exitFill_frame {P : Event → Prop} (id : String) (quantity fallback : ℚ) (left : Nat)
    (books : ∀ b, P (.book b)) : Along (Frame P) (exitFill world id quantity fallback left) := by
  induction left with
  | zero => exact readExit_frame world id quantity fallback books fun _ => .ret _
  | succ left ih => exact readExit_frame world id quantity fallback books fun _ => ih

theorem readStop_grows (id : String) {again : Exit (Option Order)} (rest : Along Grows again) :
    Along Grows (readStop world id again) := by
  refine .bind (findOrder_frame world id fun _ => trivial) fun order => ?_
  split
  · split
    · exact .ret _
    · exact rest
  · exact rest

theorem settledStop_grows (id : String) (left : Nat) : Along Grows (settledStop world id left) := by
  induction left with
  | zero => exact readStop_grows world id (.ret _)
  | succ left ih => exact readStop_grows world id ih

theorem nothingFilled_frame {P : Event → Prop} (response : Response) (books : ∀ b, P (.book b)) :
    Along (Frame P) (nothingFilled world response) := by
  unfold nothingFilled
  split
  · exact .ret _
  split
  · exact .ret _
  · exact .bind (readOrder_frame world _ books) fun _ => .ret _

theorem answered_grows (response : Response) (rest : ∀ response, Along Grows (again response)) :
    Along Grows (answered response again) := by
  unfold answered
  split
  · exact .bind (setOutcome_frame fun _ => rfl) fun _ => rest _
  · exact .bind (setOutcome_frame fun _ => rfl) fun _ => .ret _

theorem findPlaced_grows (tag : String) (sentAt : Option ℚ) (refusal : Refusal) :
    Along Grows (findPlaced world request tag sentAt refusal) := by
  unfold findPlaced
  split
  · exact ask_frame fun _ => trivial
  · exact .ret _

theorem onAnswer_grows (tag : String) (sentAt : Option ℚ)
    (rest : ∀ response, Along Grows (again response)) (answer : Except Refusal Response) :
    Along Grows (onAnswer world request tag sentAt again answer) := by
  cases answer with
  | error refusal =>
    refine .bind (findPlaced_grows world request tag sentAt _) fun order => ?_
    split
    · exact .bind (warn_frame _) fun _ => answered_grows _ rest
    · refine .bind (warn_frame _) fun _ => ?_
      split
      · exact .bind (setOutcome_frame fun _ => rfl) fun _ =>
          .bind (modify_frame (fun _ => rfl) (fun _ => rfl) fun _ => rfl) fun _ => .ret _
      · exact .ret _
  | ok response => exact answered_grows _ rest

theorem sendOnce_grows (quantity : ℚ) (tag : String) (sentAt : Option ℚ)
    (rest : ∀ response, Along Grows (again response)) :
    Along Grows (sendOnce world request quantity tag sentAt again) :=
  .bind (ask_frame fun _ => trivial) fun _ => onAnswer_grows world request tag sentAt rest _

theorem refused_grows (response : Response) : Along Grows (refused response) :=
  .bind (warn_frame _) fun _ => .ret _

theorem sendExit_grows (quantity : ℚ) (tag : String) (sentAt : Option ℚ) (left : Nat) :
    Along Grows (sendExit world request quantity tag sentAt left) := by
  induction left with
  | zero => exact sendOnce_grows world request quantity tag sentAt refused_grows
  | succ left ih =>
    refine sendOnce_grows world request quantity tag sentAt fun response => ?_
    refine .bind (nothingFilled_frame world response fun _ => trivial) fun _ => ?_
    split
    · exact ih
    · exact refused_grows response

theorem settleStop_grows (stopId exitId : String) (exitQuantity stopFilled : ℚ) (after : Option Order) :
    Along Grows (settleStop world request stopId exitId exitQuantity stopFilled after) := by
  refine .bind .get fun d => .bind (settledStop_grows world stopId _) fun settled => ?_
  split
  · exact .bind (flag_frame _) fun _ => .ret _
  · dsimp only
    split
    · refine .bind (flag_frame _) fun _ => ?_
      split
      · exact .bind (stopAlreadyFilled_frame request _) fun _ => .bind (setOutcome_frame fun _ => rfl) fun _ =>
          .bind (warn_frame _) fun _ => .ret _
      · exact .ret _
    · exact .ret _

theorem blend_frame {P : Event → Prop} (earlier : Earlier) (stopId : Option String) (stopFilled : ℚ)
    (after : Option Order) (exitQuantity price : ℚ) :
    Along (Frame P) (blend earlier stopId stopFilled after exitQuantity price) := by
  refine .bind .get fun d => ?_
  dsimp only
  split
  · exact .ret _
  · split
    · exact .bind (warn_frame _) fun _ => .ret _
    · exact .ret _
  · exact .ret _

theorem bookExit_grows (earlier : Earlier) (cancelled : Bool) (stopFilled : ℚ) (after : Option Order)
    (exitId : String) (exitQuantity price : ℚ) (final : Option Order) :
    Along Grows (bookExit world settings request earlier cancelled stopFilled after exitId exitQuantity
      price final) := by
  refine .bind .get fun d => ?_
  dsimp only
  split
  · exact .bind (wait_frame _) fun _ => .ret _
  split
  · exact .bind (warn_frame _) fun _ => .ret _
  split
  · refine .bind (settleStop_grows world request _ _ _ _ _) fun settled => ?_
    split
    · exact .ret _
    · exact .bind (blend_frame _ _ _ _ _ _) fun _ => .ret _
  · exact .bind (blend_frame _ _ _ _ _ _) fun _ => .ret _

theorem awaitExit_grows (earlier : Earlier) (cancelled : Bool) (stopFilled : ℚ) (after : Option Order)
    (exitQuantity : ℚ) (exitId : Option String) :
    Along Grows (awaitExit world settings request earlier cancelled stopFilled after exitQuantity exitId) := by
  cases exitId with
  | none => exact .ret _
  | some exitId =>
    exact .bind (setOutcome_frame fun _ => rfl) fun _ => .bind (sent_frame _ _) fun _ =>
      .bind (exitFill_frame world _ _ _ _ fun _ => trivial) fun _ =>
        bookExit_grows world settings request _ _ _ _ _ _ _ _

theorem exitRest_grows (earlier : Earlier) (after : Option Order) (cancelled : Bool) :
    Along Grows (exitRest world settings request earlier after cancelled) := by
  refine .bind .get fun d => ?_
  dsimp only
  split
  · exact .bind (stopAlreadyFilled_frame request _) fun _ => .ret _
  · exact .bind (setOutcome_frame fun _ => rfl) fun _ => .bind (sendExit_grows world request _ _ _ _) fun _ =>
      awaitExit_grows world settings request _ _ _ _ _ _

end Stages

end AdvanceTrading.LiveExit
