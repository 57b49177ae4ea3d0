import AdvanceTrading.Misc.PyText
import Mathlib.Data.List.Nodup
import Mathlib.Data.List.Perm.Basic
import Mathlib.Data.List.Range

/-!
# Smart execution: one run for multi-leg entries and exits

Model of `app/execution/smart_execution.py:90-204`. `place` is whatever the
caller hands in: a state-passing function that may answer anything, or raise.
`tracing` records its calls, so the order in which legs are sent is a property
of the recorded list and not of the returned value.
-/

namespace AdvanceTrading.SmartExecution

/-- `LegOutcome.status`: FILLED | FAILED | NOT_PLACED. -/
inductive LegStatus where
  | filled
  | failed
  | notPlaced
  deriving DecidableEq, Repr

/-- `LegOutcome` (`smart_execution.py:145-152`). -/
structure LegOutcome (α : Type) where
  index : Nat
  seq : Nat
  side : String
  status : LegStatus
  reasons : List String
  result : Option α
  deriving DecidableEq, Repr

/-- `RunOutcome.state`. -/
inductive RunState where
  | complete
  | incomplete
  | nothingPlaced
  deriving DecidableEq, Repr

/-- ACTION_COMPLETE_REST, ACTION_CLOSE_FILLED, ACTION_CLOSE_REST. -/
inductive Action where
  | completeRest
  | closeFilled
  | closeRest
  deriving DecidableEq, Repr

/-- `RunOutcome` (`smart_execution.py:155-169`). -/
structure RunOutcome (α : Type) where
  state : RunState
  legs : List (LegOutcome α)
  actions : List Action
  message : String
  exiting : Bool
  deriving DecidableEq, Repr

/-- `s.upper() == "BUY"`: every other text is a SELL leg. -/
def isBuy (side : String) : Bool := Py.upper side == "BUY"

/-- The indexes of the legs whose side satisfies `p`, in the user's order. -/
def indexesWhere (p : String → Bool) (sides : List String) : List Nat :=
  (sides.zipIdx.filter fun leg => p leg.1).map (·.2)

/-- `entry_sequence` (`smart_execution.py:90-92`). -/
def entrySequence (sides : List String) : List Nat :=
  indexesWhere isBuy sides ++ indexesWhere (fun s => !isBuy s) sides

/-- `exit_sequence` (`smart_execution.py:95-98`). -/
def exitSequence (sides : List String) : List Nat :=
  indexesWhere (fun s => !isBuy s) sides ++ indexesWhere isBuy sides

/-- `order = exit_sequence(sides) if exiting else entry_sequence(sides)`. -/
def sequence (sides : List String) (exiting : Bool) : List Nat :=
  if exiting then exitSequence sides else entrySequence sides

/-- `place(index, seq)`: (filled, reasons, result), or an exception, and the
caller's own state after the call. -/
abbrev Place (σ ε α : Type) := Nat → Nat → σ → Except ε (Bool × List String × Option α) × σ

section Run

variable {σ ε α : Type}

/-- The text of a leg that is not sent because `stopped` did not fill
(`smart_execution.py:180-186`). -/
def notPlacedWhy (exiting : Bool) (side : String) (stopped : LegOutcome α) : String :=
  if exiting then
    "Not closed yet: the short leg before it did not close, and closing this one would leave that short uncovered."
  else if side != "BUY" && stopped.side == "BUY" then
    "Not placed: a hedge leg did not fill, and on its own this sold leg would be uncovered."
  else
    "Not placed yet: an earlier leg did not fill. Nothing is placed by itself."

/-- The loop of `run` (`smart_execution.py:177-193`); the legs are consed in
the order in which the loop appends them. -/
@[grind =] def runLegs (sides : List String) (place : Place σ ε α) (exiting : Bool) :
    Nat → List Nat → Option (LegOutcome α) → σ → Except ε (List (LegOutcome α)) × σ
  | _, [], _, w => (.ok [], w)
  | seq, index :: rest, some stopped, w =>
      let side := Py.upper (sides.getD index "")
      let leg : LegOutcome α :=
        { index, seq, side, status := .notPlaced,
          reasons := [notPlacedWhy exiting side stopped], result := none }
      match runLegs sides place exiting (seq + 1) rest (some stopped) w with
      | (.ok legs, w') => (.ok (leg :: legs), w')
      | (.error e, w') => (.error e, w')
  | seq, index :: rest, none, w =>
      match place index seq w with
      | (.error e, w') => (.error e, w')
      | (.ok (filled, reasons, result), w') =>
          let leg : LegOutcome α :=
            { index, seq, side := Py.upper (sides.getD index ""),
              status := if filled then .filled else .failed, reasons, result }
          match runLegs sides place exiting (seq + 1) rest (if filled then none else some leg) w' with
          | (.ok legs, w'') => (.ok (leg :: legs), w'')
          | (.error e, w'') => (.error e, w'')

/-- `RunOutcome.filled`. -/
def filledLegs (legs : List (LegOutcome α)) : List (LegOutcome α) :=
  legs.filter fun leg => leg.status == .filled

/-- The outcome `run` reports for its legs (`smart_execution.py:194-204`). -/
def outcomeOf (legs : List (LegOutcome α)) (exiting : Bool) : RunOutcome α :=
  let done := filledLegs legs
  if done.length = legs.length then
    ⟨.complete, legs, [], if exiting then "Every leg closed." else "Every leg filled.", exiting⟩
  else if done = [] then
    let what := if exiting then "Nothing was closed" else "Nothing was placed"
    ⟨.nothingPlaced, legs, [],
      s!"{what}: the first leg did not go through. Fix what it says and try again.", exiting⟩
  else if exiting then
    ⟨.incomplete, legs, [.closeRest],
      s!"{done.length} of {legs.length} legs closed. The rest are still open: close the rest, or each with Exit now.",
      true⟩
  else
    ⟨.incomplete, legs, [.completeRest, .closeFilled],
      s!"Incomplete: {done.length} of {legs.length} legs filled. Complete the rest, or close the filled legs. " ++
          "Nothing happens until you choose.",
      false⟩

/-- `run` (`smart_execution.py:170-204`). -/
def run (sides : List String) (place : Place σ ε α) (exiting : Bool) (w : σ) :
    Except ε (RunOutcome α) × σ :=
  match runLegs sides place exiting 1 (sequence sides exiting) none w with
  | (.ok legs, w') => (.ok (outcomeOf legs exiting), w')
  | (.error e, w') => (.error e, w')

/-! ## The calls of a run -/

/-- One call of `place`; a call that raised filled nothing. -/
structure Call where
  index : Nat
  seq : Nat
  filled : Bool
  deriving DecidableEq, Repr

/-- The leg a `place` answer reports as filled. -/
def answeredFilled : Except ε (Bool × List String × Option α) → Bool
  | .ok (filled, _, _) => filled
  | .error _ => false

/-- `place` with its calls recorded in order. -/
def tracing (place : Place σ ε α) : Place (List Call × σ) ε α := fun index seq w =>
  let (answer, w') := place index seq w.2
  (answer, w.1 ++ [{ index, seq, filled := answeredFilled answer }], w')

/-- The calls a run makes. -/
def calls (sides : List String) (place : Place σ ε α) (exiting : Bool) (w : σ) : List Call :=
  (run sides (tracing place) exiting ([], w)).2.1

/-- What a run reports: the outcome, or the exception `place` raised. -/
def report (sides : List String) (place : Place σ ε α) (exiting : Bool) (w : σ) :
    Except ε (RunOutcome α) :=
  (run sides (tracing place) exiting ([], w)).1

/-! ## The order in which legs are sent -/

variable {sides : List String} {i : Nat}

theorem mem_indexesWhere {p : String → Bool} :
    i ∈ indexesWhere p sides ↔ ∃ side, sides[i]? = some side ∧ p side = true := by
  simp [indexesWhere, List.mem_zipIdx_iff_getElem?]

/-- Legs of the two kinds, in either order, are all the legs once. -/
theorem indexesWhere_append_perm (p : String → Bool) (sides : List String) :
    (indexesWhere p sides ++ indexesWhere (fun s => !p s) sides).Perm (List.range sides.length) := by
  have split := List.filter_append_perm (fun leg : String × Nat => p leg.1) sides.zipIdx
  have mapped := split.map (·.2)
  rwa [List.map_append, List.zipIdx_map_snd, ← List.range_eq_range'] at mapped

theorem sequence_perm (sides : List String) (exiting : Bool) :
    (sequence sides exiting).Perm (List.range sides.length) := by
  cases exiting with
  | false => exact indexesWhere_append_perm isBuy sides
  | true => exact List.perm_append_comm.trans (indexesWhere_append_perm isBuy sides)

theorem sequence_nodup (sides : List String) (exiting : Bool) : (sequence sides exiting).Nodup :=
  (sequence_perm sides exiting).nodup_iff.mpr List.nodup_range

/-- After a leg that did not fill nothing is sent. -/
theorem runLegs_stopped_calls (sides : List String) (place : Place σ ε α) (exiting : Bool)
    (order : List Nat) (seq : Nat) (stopped : LegOutcome α) (w : List Call × σ) :
    (runLegs sides (tracing place) exiting seq order (some stopped) w).2 = w := by
  induction order generalizing seq with
  | nil => rfl
  | cons index rest ih =>
    have tail := ih (seq + 1)
    simp only [runLegs]
    cases ran : runLegs sides (tracing place) exiting (seq + 1) rest (some stopped) w with
    | mk answer w' =>
      rw [ran] at tail
      cases answer <;> exact tail

/-- The calls of the loop: the sequence from its start, each leg once, and
only the last of them may be unfilled. -/
theorem runLegs_calls (sides : List String) (place : Place σ ε α) (exiting : Bool)
    (order : List Nat) (seq : Nat) (before : List Call) (w : σ) :
    ∃ sent, (runLegs sides (tracing place) exiting seq order none (before, w)).2.1 = before ++ sent ∧
      sent.map (·.index) <+: order ∧ ∀ c ∈ sent.dropLast, c.filled = true := by
  induction order generalizing seq before w with
  | nil => exact ⟨[], by simp [runLegs], by simp, by simp⟩
  | cons index rest ih =>
    cases answered : place index seq w with
    | mk answer w' =>
    have first : [index] <+: index :: rest := ⟨rest, rfl⟩
    cases answer with
    | error e =>
      exact ⟨[⟨index, seq, false⟩], by simp [runLegs, tracing, answered, answeredFilled],
        first, by simp⟩
    | ok result =>
      obtain ⟨filled, reasons, value⟩ := result
      cases filled with
      | false =>
        -- the leg becomes `stopped`: the rest of the loop sends nothing
        refine ⟨[⟨index, seq, false⟩], ?_, first, by simp⟩
        have tail := runLegs_stopped_calls sides place exiting rest (seq + 1)
          ⟨index, seq, Py.upper (sides.getD index ""), .failed, reasons, value⟩
          (before ++ [⟨index, seq, false⟩], w')
        simp only [runLegs, tracing, answered, answeredFilled, Bool.false_eq_true, if_false]
        split <;> rename_i _ _ ran <;> rw [ran] at tail <;> exact congrArg Prod.fst tail
      | true =>
        obtain ⟨sent, recorded, inOrder, allFilled⟩ :=
          ih (seq + 1) (before ++ [⟨index, seq, true⟩]) w'
        refine ⟨⟨index, seq, true⟩ :: sent, ?_, ?_, ?_⟩
        · simp only [runLegs, tracing, answered, answeredFilled, if_true]
          split <;> rename_i _ _ ran <;> rw [ran] at recorded <;>
            simpa using recorded
        · exact List.cons_prefix_cons.mpr ⟨rfl, inOrder⟩
        · cases sent with
          | nil => simp
          | cons c cs =>
            intro d member
            rcases List.mem_cons.mp member with rfl | member
            · rfl
            · exact allFilled d member

/-! ## The legs a run reports -/

variable {place : Place σ ε α} {exiting : Bool} {legs : List (LegOutcome α)} {order : List Nat}
  {w : σ} {seq : Nat}

/-- Once stopped, the loop still reports every remaining leg, none as filled. -/
theorem runLegs_stopped_legs {stopped : LegOutcome α} {w' : σ}
    (ran : runLegs sides place exiting seq order (some stopped) w = (.ok legs, w')) :
    legs.map (·.index) = order ∧ filledLegs legs = [] := by
  induction order generalizing seq legs with
  | nil =>
    cases ran
    exact ⟨rfl, rfl⟩
  | cons index rest ih =>
    simp only [runLegs] at ran
    split at ran
    · rename_i tail w'' tailRan
      cases ran
      obtain ⟨indexes, unfilled⟩ := ih tailRan
      exact ⟨by simp [indexes], by simpa [filledLegs] using unfilled⟩
    · cases ran

/-- A finished loop reports its legs in the order of the sequence, and the
legs it reports as filled are those whose call was answered with filled. -/
theorem runLegs_legs {before after : List Call} {w' : σ}
    (ran : runLegs sides (tracing place) exiting seq order none (before, w) = (.ok legs, (after, w'))) :
    legs.map (·.index) = order ∧
      ∃ sent, after = before ++ sent ∧
        (filledLegs legs).map (·.index) = (sent.filter (·.filled)).map (·.index) := by
  induction order generalizing seq before w legs with
  | nil =>
    cases ran
    exact ⟨rfl, [], by simp, rfl⟩
  | cons index rest ih =>
    cases answered : place index seq w with
    | mk answer w1 =>
    cases answer with
    | error e => simp [runLegs, tracing, answered] at ran
    | ok result =>
      obtain ⟨filled, reasons, value⟩ := result
      simp only [runLegs, tracing, answered, answeredFilled] at ran
      split at ran
      · rename_i tail w2 tailRan
        cases ran
        cases filled with
        | false =>
          obtain ⟨indexes, unfilled⟩ := runLegs_stopped_legs tailRan
          have recorded := runLegs_stopped_calls sides place exiting rest (seq + 1)
            ⟨index, seq, Py.upper (sides.getD index ""), .failed, reasons, value⟩
            (before ++ [⟨index, seq, false⟩], w1)
          have same : (after, w') = (before ++ [⟨index, seq, false⟩], w1) := by
            rw [← recorded]
            exact (congrArg Prod.snd tailRan).symm
          cases same
          refine ⟨by simp [indexes], [⟨index, seq, false⟩], rfl, ?_⟩
          simpa [filledLegs] using unfilled
        | true =>
          obtain ⟨indexes, sent, recorded, filledCalls⟩ := ih tailRan
          refine ⟨by simp [indexes], ⟨index, seq, true⟩ :: sent, by simp [recorded], ?_⟩
          simpa [filledLegs] using filledCalls
      · cases ran

/-! ## No naked leg -/

/-- The legs that go first: the BUY legs entering, the SELL legs exiting. -/
def goesFirst (exiting : Bool) (side : String) : Bool := isBuy side != exiting

theorem sequence_eq (sides : List String) (exiting : Bool) :
    sequence sides exiting =
      indexesWhere (goesFirst exiting) sides ++ indexesWhere (fun s => !goesFirst exiting s) sides := by
  have buysFirst : goesFirst false = isBuy := by
    funext side
    simp [goesFirst]
  have sellsFirst : goesFirst true = fun side => !isBuy side := by
    funext side
    simp [goesFirst]
  cases exiting with
  | false => simp [sequence, entrySequence, buysFirst]
  | true => simp [sequence, exitSequence, sellsFirst]

/-- The part of a prefix of `xs ++ ys` before a member of `ys` holds all of `xs`. -/
theorem subset_before_of_prefix {xs ys before after : List Nat}
    (inOrder : before ++ i :: after <+: xs ++ ys) (later : i ∉ xs) : xs ⊆ before := by
  rcases List.prefix_or_prefix_of_prefix (List.prefix_append xs ys)
      ((List.prefix_append before (i :: after)).trans inOrder) with covered | short
  · exact covered.subset
  · obtain ⟨rest, rfl⟩ := short
    cases rest with
    | nil => simp
    | cons j rest =>
      -- `i` would be the next element of `xs`
      rw [List.append_assoc, List.prefix_append_right_inj, List.cons_append,
        List.cons_prefix_cons] at inOrder
      exact absurd (by simp [inOrder.1]) later

theorem calls_spec (sides : List String) (place : Place σ ε α) (exiting : Bool) (w : σ) :
    (calls sides place exiting w).map (·.index) <+: sequence sides exiting ∧
      ∀ c ∈ (calls sides place exiting w).dropLast, c.filled = true := by
  obtain ⟨sent, recorded, inOrder, allFilled⟩ :=
    runLegs_calls sides place exiting (sequence sides exiting) 1 [] w
  have all : calls sides place exiting w = sent := by
    simp only [calls, run]
    split <;> rename_i _ _ ran <;> rw [ran] at recorded <;> simpa using recorded
  rw [all]
  exact ⟨inOrder, allFilled⟩

theorem filled_before_call {before after : List Call} {call c : Call}
    (sent : calls sides place exiting w = before ++ call :: after) (earlier : c ∈ before) :
    c.filled = true := by
  refine (calls_spec sides place exiting w).2 c ?_
  rw [sent, List.dropLast_append_of_ne_nil (List.cons_ne_nil call after)]
  exact List.mem_append_left _ earlier

/-- What a caller may rely on in the calls a run makes: no leg of the second
kind before every leg of the first has filled, no leg twice, nothing after
a leg that did not fill. -/
structure SafelySent (sides : List String) (exiting : Bool) (sent : List Call) : Prop where
  covered : ∀ before call after, sent = before ++ call :: after →
    (∃ side, sides[call.index]? = some side ∧ goesFirst exiting side = false) →
    ∀ i side, sides[i]? = some side → goesFirst exiting side = true →
      ∃ c ∈ before, c.index = i ∧ c.filled = true
  once : (sent.map (·.index)).Nodup
  legsOnly : ∀ call ∈ sent, call.index < sides.length
  stops : ∀ before call after, sent = before ++ call :: after → call.filled = false → after = []

theorem calls_safelySent (sides : List String) (place : Place σ ε α) (exiting : Bool) (w : σ) :
    SafelySent sides exiting (calls sides place exiting w) := by
  obtain ⟨inOrder, allFilled⟩ := calls_spec sides place exiting w
  refine ⟨?_, ?_, ?_, ?_⟩
  · intro before call after sent second i side present first
    rw [sent, List.map_append, List.map_cons, sequence_eq] at inOrder
    have later : call.index ∉ indexesWhere (goesFirst exiting) sides := by
      rw [mem_indexesWhere]
      rintro ⟨s, at_s, first'⟩
      obtain ⟨s', at_s', second'⟩ := second
      rw [at_s] at at_s'
      cases at_s'
      rw [first'] at second'
      cases second'
    have already := subset_before_of_prefix inOrder later
      (mem_indexesWhere.mpr ⟨side, present, first⟩)
    obtain ⟨c, earlier, index⟩ := List.mem_map.mp already
    exact ⟨c, earlier, index, filled_before_call sent earlier⟩
  · exact (sequence_nodup sides exiting).sublist inOrder.sublist
  · intro call member
    have listed := inOrder.subset (List.mem_map_of_mem member)
    exact List.mem_range.mp ((sequence_perm sides exiting).mem_iff.mp listed)
  · intro before call after sent unfilled
    by_contra more
    obtain ⟨next, rest, rfl⟩ := List.exists_cons_of_ne_nil more
    have again : calls sides place exiting w = (before ++ [call]) ++ next :: rest := by
      simpa using sent
    have filled := filled_before_call again (List.mem_append_right before List.mem_cons_self)
    rw [unfilled] at filled
    cases filled

theorem outcomeOf_legs (legs : List (LegOutcome α)) (exiting : Bool) :
    (outcomeOf legs exiting).legs = legs := by
  cases exiting <;> simp only [outcomeOf, Bool.false_eq_true, if_true, if_false] <;> split_ifs <;> rfl

theorem report_legs {out : RunOutcome α} (ran : report sides place exiting w = .ok out) :
    out.legs.map (·.index) = sequence sides exiting ∧
      (filledLegs out.legs).map (·.index) =
        ((calls sides place exiting w).filter (·.filled)).map (·.index) ∧
      out = outcomeOf out.legs exiting := by
  cases looped : runLegs sides (tracing place) exiting 1 (sequence sides exiting) none ([], w) with
  | mk answer traced =>
  simp only [report, calls, run, looped] at ran ⊢
  cases answer with
  | error e => cases ran
  | ok legs =>
    have reported : outcomeOf legs exiting = out := by simpa using ran
    have same : out.legs = legs := by rw [← reported, outcomeOf_legs]
    obtain ⟨indexes, sent, recorded, filledCalls⟩ := runLegs_legs looped
    rw [same]
    exact ⟨indexes, by simpa [recorded] using filledCalls, reported.symm⟩

theorem filledLegs_length_eq (legs : List (LegOutcome α)) :
    (filledLegs legs).length = legs.length ↔ ∀ leg ∈ legs, leg.status = .filled := by
  rw [filledLegs, List.length_filter_eq_length_iff]
  simp

theorem filledLegs_eq_nil (legs : List (LegOutcome α)) :
    filledLegs legs = [] ↔ ∀ leg ∈ legs, leg.status ≠ .filled := by
  simp [filledLegs, List.filter_eq_nil_iff]

theorem outcomeOf_state_eq (legs : List (LegOutcome α)) (exiting : Bool) :
    (outcomeOf legs exiting).state =
      if (filledLegs legs).length = legs.length then .complete
      else if filledLegs legs = [] then .nothingPlaced else .incomplete := by
  cases exiting <;> simp only [outcomeOf, Bool.false_eq_true, if_true, if_false] <;> split_ifs <;> rfl

/-- The state `run` reports for its legs; an empty list of legs counts as complete. -/
theorem outcomeOf_state (legs : List (LegOutcome α)) (exiting : Bool) :
    ((outcomeOf legs exiting).state = .complete ↔ ∀ leg ∈ legs, leg.status = .filled) ∧
      ((outcomeOf legs exiting).state = .nothingPlaced ↔
        legs ≠ [] ∧ ∀ leg ∈ legs, leg.status ≠ .filled) := by
  rw [← filledLegs_length_eq, ← filledLegs_eq_nil, outcomeOf_state_eq]
  split_ifs with all unfilled
  · refine ⟨by simp [all], ⟨by simp, ?_⟩⟩
    rintro ⟨some, unfilled⟩
    rw [unfilled] at all
    exact absurd (List.length_eq_zero_iff.mp all.symm) some
  · refine ⟨by simp [all], ⟨fun _ => ⟨?_, unfilled⟩, fun _ => rfl⟩⟩
    rintro rfl
    exact all rfl
  · simp [all, unfilled]

/-- A run sends its legs safely; when it returns, it reports every leg once,
the filled ones are those a call filled, and its state says whether all of
them filled or, of at least one leg, none did. -/
theorem run_no_naked_leg (sides : List String) (place : Place σ ε α) (exiting : Bool) (w : σ) :
    SafelySent sides exiting (calls sides place exiting w) ∧
      ∀ out, report sides place exiting w = .ok out →
        (out.legs.map (·.index)).Perm (List.range sides.length) ∧
        (filledLegs out.legs).map (·.index) =
          ((calls sides place exiting w).filter (·.filled)).map (·.index) ∧
        (out.state = .complete ↔ ∀ leg ∈ out.legs, leg.status = .filled) ∧
        (out.state = .nothingPlaced ↔
          out.legs ≠ [] ∧ ∀ leg ∈ out.legs, leg.status ≠ .filled) := by
  refine ⟨calls_safelySent sides place exiting w, fun out ran => ?_⟩
  obtain ⟨indexes, filledCalls, reported⟩ := report_legs ran
  refine ⟨indexes ▸ sequence_perm sides exiting, filledCalls, ?_⟩
  have state := outcomeOf_state out.legs exiting
  rwa [← reported] at state

/-- A run over no legs reports COMPLETE although no leg is filled. -/
theorem run_of_no_legs :
    ¬ ∀ (sides : List String) (place : Place Unit Unit Unit) (exiting : Bool) (out : RunOutcome Unit),
      report sides place exiting () = .ok out →
        (out.state = .nothingPlaced ↔ ∀ leg ∈ out.legs, leg.status ≠ .filled) := by
  intro claimed
  have state := claimed [] (fun _ _ _ => (.error (), ())) false
    ⟨.complete, [], [], "Every leg filled.", false⟩ rfl
  exact absurd (state.mpr (by simp)) (by decide)

end Run

end AdvanceTrading.SmartExecution
