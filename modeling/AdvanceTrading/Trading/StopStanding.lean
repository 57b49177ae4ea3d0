import AdvanceTrading.Trading.ExitFrames
import Mathlib.Tactic.Linarith

/-!
# The stop beside a market exit

A market exit goes out once the recorded stop was cancelled or shown gone, but for
one case: the stop is taken for gone on the word of `stop_dead`, and the book that
was to show it could not be read.
-/

namespace AdvanceTrading.LiveExit

/-- The stop was cancelled without an error, or a book was read that shows it dead or does not list
it. -/
def Gone (stopId : String) (history : History) : Prop :=
  .cancel stopId true ∈ history ∨ ∃ book, .book (some book) ∈ history ∧
    ∀ stop, book.find? (fun o => o.id = stopId) = some stop → stop.isDead = true

/-- Every exit was sent with the stop gone before. -/
def ExitsAlone (stopId : String) (history : History) : Prop :=
  ∀ before quantity tag answer after, history = before ++ .place quantity tag answer :: after →
    Gone stopId before

variable {stopId : String} {history : History}

theorem Gone.mono {history' : History} (gone : Gone stopId history)
    (more : ∀ e ∈ history, e ∈ history') : Gone stopId history' := by
  rcases gone with cancelled | ⟨book, read, dead⟩
  · exact .inl (more _ cancelled)
  · exact .inr ⟨book, more _ read, dead⟩

/-- An exit sent after events that sent none has them before it. -/
theorem exists_before {base new before after : History} {quantity : ℚ} {tag : String}
    {answer : Except Refusal Response} (quiet : ∀ e ∈ base, e.isSend = false)
    (same : base ++ new = before ++ .place quantity tag answer :: after) :
    ∃ more, before = base ++ more := by
  rcases List.append_eq_append_iff.mp same with ⟨more, isBefore, -⟩ | ⟨more, isBase, rest⟩
  · exact ⟨more, isBefore⟩
  · cases more with
    | nil => exact ⟨[], by rw [isBase, List.append_nil, List.append_nil]⟩
    | cons e more =>
      obtain ⟨rfl, -⟩ := List.cons.inj rest
      have placed := quiet (.place quantity tag answer) (by rw [isBase]; simp)
      simp [Event.isSend] at placed

theorem exitsAlone_quiet (quiet : ∀ e ∈ history, e.isSend = false) : ExitsAlone stopId history := by
  intro before quantity tag answer after same
  have placed := quiet (.place quantity tag answer) (by rw [same]; simp)
  simp [Event.isSend] at placed

theorem exitsAlone_gone {base new : History} (quiet : ∀ e ∈ base, e.isSend = false)
    (gone : Gone stopId base) : ExitsAlone stopId (base ++ new) := by
  intro before quantity tag answer after same
  obtain ⟨more, rfl⟩ := exists_before quiet same
  exact gone.mono fun e mem => List.mem_append_left _ mem

/-- What was said stays without an exit. -/
theorem Quiet.none_placed {d d' : Desk} (quiet : Quiet d d')
    (before : ∀ e ∈ d.history, e.isSend = false) : ∀ e ∈ d'.history, e.isSend = false := by
  obtain ⟨new, said, all⟩ := quiet.said
  rw [said]
  intro e mem
  exact (List.mem_append.mp mem).elim (before e) (all e)

section Stop

variable (world : World) (settings : Settings) (request : Request)

variable {α β : Type}

theorem ask_bind (answer : History → α) (event : α → Event) (f : α → Exit β) (d : Desk) :
    (ask answer event >>= f).run d =
      (f (answer d.history)).run { d with history := d.history ++ [event (answer d.history)] } := rfl

theorem get_bind (f : Desk → Exit β) (d : Desk) : (get >>= f).run d = (f d).run d := rfl

/-- The order in what the book shows. -/
def seen (id : String) (book : Option (List Order)) : Option Order :=
  book.bind fun book => book.find? fun o => o.id = id

theorem findOrder_bind (id : String) (f : Option Order → Exit β) (d : Desk) :
    (findOrder world id >>= f).run d =
      (f (seen id (world.book d.history))).run
        { d with history := d.history ++ [.book (world.book d.history)] } := by
  have joined : ((world.book d.history).map fun book => book.find? fun o => decide (o.id = id)).join
      = seen id (world.book d.history) := by
    cases world.book d.history <;> rfl
  rw [← joined]
  rfl

/-- A cancelled stop is gone. -/
theorem cancelStop_gone (stopId : String) (stop : Option Order) (d : Desk) {after : Option Order}
    {cancelled : Bool}
    (isGone : ((cancelStop world settings request stopId stop).run d).1 = .gone after cancelled) :
    Gone stopId ((cancelStop world settings request stopId stop).run d).2.history := by
  left
  unfold cancelStop at isGone ⊢
  rw [ask_bind] at isGone ⊢
  cases accepted : world.cancel d.history stopId with
  | true =>
    have said : Event.cancel stopId true ∈ d.history ++ [Event.cancel stopId true] := by simp
    simp only [if_true]
    split
    · rw [findOrder_bind]
      split
      · exact List.mem_append_left _ said
      · exact List.mem_append_left _ said
    · exact said
  | false =>
    simp only [accepted, Bool.false_eq_true, if_false, findOrder_bind] at isGone
    split at isGone
    · split at isGone
      · cases isGone
      · cases isGone
    · cases isGone

/-- A stop is gone that nothing was sent beside; but for one taken for gone that no book shows. -/
theorem clearStop_gone (stopDead : Bool) (earlier : Earlier) (stopId : String) (d : Desk)
    {after : Option Order} {cancelled : Bool}
    (isGone : ((clearStop world settings request stopDead earlier stopId).run d).1 = .gone after cancelled) :
    Gone stopId ((clearStop world settings request stopDead earlier stopId).run d).2.history ∨
      stopDead = true ∧ world.book d.history = none := by
  unfold clearStop at isGone ⊢
  rw [findOrder_bind] at isGone ⊢
  cases filled : (seen stopId (world.book d.history)).filter Order.isFilled with
  | some stop =>
    rw [filled] at isGone
    dsimp only at isGone
    split at isGone
    · cases isGone
    · cases isGone
  | none =>
    rw [filled] at isGone
    dsimp only at isGone ⊢
    by_cases taken : takenForGone settings stopDead (seen stopId (world.book d.history)) = true
    · rw [if_pos taken]
      cases read : world.book d.history with
      | none =>
        rw [read] at taken
        exact .inr ⟨taken, rfl⟩
      | some book =>
        refine .inl (.inr ⟨book, List.mem_append_right _ (List.mem_singleton.mpr rfl), ?_⟩)
        intro stop found
        rw [read] at taken
        unfold takenForGone seen at taken
        simp only [Option.bind_some, found, Bool.and_eq_true] at taken
        exact taken.1
    · rw [if_neg taken] at isGone ⊢
      exact .inl (cancelStop_gone world settings request stopId _ _ isGone)

/-- With the stop taken for gone unseen, the exit goes out at once. -/
theorem clearStop_unread (earlier : Earlier) (stopId : String) (d : Desk)
    (unread : world.book d.history = none) :
    (clearStop world settings request true earlier stopId).run d =
      (.gone none false, { d with history := d.history ++ [.book none] }) := by
  unfold clearStop
  rw [findOrder_bind, unread]
  rfl

theorem sendExit_places (quantity : ℚ) (tag : String) (sentAt : Option ℚ) (left : Nat) (d : Desk) :
    ∃ answer new, ((sendExit world request quantity tag sentAt left).run d).2.history
      = d.history ++ .place quantity tag answer :: new := by
  have once (again : Response → Exit (Option String)) (rest : ∀ response, Along Grows (again response)) :
      ∃ answer new, ((sendOnce world request quantity tag sentAt again).run d).2.history
        = d.history ++ .place quantity tag answer :: new := by
    unfold sendOnce
    rw [ask_bind]
    obtain ⟨-, -, new, said, -⟩ := onAnswer_grows world request tag sentAt rest
      (world.place d.history quantity tag)
      { d with history := d.history ++ [.place quantity tag (world.place d.history quantity tag)] }
    exact ⟨_, new, by rw [said, List.append_assoc]; rfl⟩
  cases left with
  | zero => exact once _ refused_grows
  | succ left =>
    refine once _ fun response => .bind (nothingFilled_frame world response fun _ => trivial) fun _ => ?_
    split
    · exact sendExit_grows world request quantity tag sentAt left
    · exact refused_grows response

theorem exitRest_places (earlier : Earlier) (cancelled : Bool) (d : Desk) :
    ∃ quantity tag answer new, ((exitRest world settings request earlier none cancelled).run d).2.history
      = d.history ++ .place quantity tag answer :: new := by
  have unfilled : stopFill settings d.trade earlier none = 0 := by
    unfold stopFill
    cases earlier.remainder <;> rfl
  obtain ⟨answer, new, sent⟩ := sendExit_places world request
    (earlier.remainder.getD (d.trade.quantity - 0)) (request.exitTag d.trade.exitSentAt)
    d.trade.exitSentAt settings.exitRejectRetries.toNat
    { d with outcome := { d.outcome with exitTag := some (request.exitTag d.trade.exitSentAt) } }
  obtain ⟨-, -, more, said, -⟩ := awaitExit_grows world settings request earlier cancelled 0 none
    (earlier.remainder.getD (d.trade.quantity - 0)) _
    ((sendExit world request (earlier.remainder.getD (d.trade.quantity - 0))
      (request.exitTag d.trade.exitSentAt) d.trade.exitSentAt settings.exitRejectRetries.toNat).run
        { d with outcome := { d.outcome with exitTag := some (request.exitTag d.trade.exitSentAt) } }).2
  refine ⟨earlier.remainder.getD (d.trade.quantity - 0), request.exitTag d.trade.exitSentAt, answer,
    new ++ more, ?_⟩
  rw [← List.cons_append, ← List.append_assoc, ← sent]
  rw [← unfilled] at said ⊢
  exact said

theorem Gone.of_unread (gone : Gone stopId (history ++ [.book none])) : Gone stopId history := by
  rcases gone with cancelled | ⟨book, read, dead⟩
  · exact .inl (by simpa using cancelled)
  · exact .inr ⟨book, by simpa using read, dead⟩

/-- From the claim on, an exit goes out beside the stop only where the stop is taken for gone and
the book cannot be read. -/
theorem exitClaimed_alone (earlier : Earlier) (stopDead : Bool) (stopId : String) (d : Desk)
    (isStop : d.trade.slOrderId = some stopId) (quiet : ∀ e ∈ d.history, e.isSend = false) :
    ExitsAlone stopId ((exitClaimed world settings request earlier stopDead).run d).2.history ↔
      ¬ (stopDead = true ∧ world.book d.history = none ∧ ¬ Gone stopId d.history) := by
  unfold exitClaimed
  rw [get_bind]
  dsimp only
  rw [isStop]
  have stepped : Quiet d ((clearStop world settings request stopDead earlier stopId).run d).2 :=
    clearStop_quiet world settings request stopDead earlier stopId d
  have unread := clearStop_unread world settings request earlier stopId d
  have shown := @clearStop_gone world settings request stopDead earlier stopId d
  dsimp only
  rw [StateT.run_bind]
  rcases ran : (clearStop world settings request stopDead earlier stopId).run d with ⟨step, d'⟩
  rw [ran] at stepped shown
  -- a stop that has filled or may still work has nothing sent beside it
  have held (price : Option ℚ) (notGone : ∀ after cancelled, step ≠ .gone after cancelled) :
      ExitsAlone stopId (StateT.run (pure price : Exit (Option ℚ)) d').2.history ↔
        ¬ (stopDead = true ∧ world.book d.history = none ∧ ¬ Gone stopId d.history) := by
    refine iff_of_true (exitsAlone_quiet (stepped.none_placed quiet)) ?_
    rintro ⟨rfl, noBook, -⟩
    rw [unread noBook] at ran
    exact notGone _ _ (congrArg Prod.fst ran).symm
  cases step with
  | filled price => exact held (some price) (by simp)
  | blocked => exact held none (by simp)
  | gone after cancelled =>
    constructor
    · rintro alone ⟨rfl, noBook, notGone⟩
      rw [unread noBook] at ran
      cases ran
      obtain ⟨quantity, tag, answer, new, placed⟩ := exitRest_places world settings request earlier
        false { d with history := d.history ++ [.book none] }
      exact notGone (alone _ quantity tag answer new placed).of_unread
    · intro fine
      obtain ⟨-, -, new, said, -⟩ := exitRest_grows world settings request earlier after cancelled d'
      have gone : Gone stopId d'.history := by
        rcases shown rfl with gone | ⟨dead, noBook⟩
        · exact gone
        · obtain ⟨more, grown, -⟩ := stepped.said
          have before : Gone stopId d.history := by_contra fun no => fine ⟨dead, noBook, no⟩
          exact before.mono fun e mem => by rw [grown]; exact List.mem_append_left _ mem
      show ExitsAlone stopId ((exitRest world settings request earlier after cancelled).run d').2.history
      rw [said]
      exact exitsAlone_gone (stepped.none_placed quiet) gone

/-- What is said up to the claim, and whether the stop is taken for dead, where the claim lands. -/
def claimedAt (history : History) (stopDead : Bool) : Option (History × Bool) :=
  (world.claim history).map fun sentAt => (history ++ [.claim (some sentAt)], stopDead)

/-- What is said before the stop is looked up, and whether it is taken for dead: the caller says so, or
an earlier exit was judged. -/
def beforeStop (trade : Trade) : Option (History × Bool) :=
  match trade.exitOrderId with
  | some earlierId =>
      let judged := (judgeEarlier world settings request earlierId).run trade.desk
      if judged.1.proceed then claimedAt world judged.2.history true else none
  | none => if request.resumeOnly then none else claimedAt world [] request.stopDead

theorem claim_bind (f : Bool → Exit β) (d : Desk) : (claim world >>= f).run d =
    match world.claim d.history with
    | none => (f false).run { d with history := d.history ++ [.claim none] }
    | some sentAt => (f true).run { d with
        history := d.history ++ [.claim (some sentAt)]
        trade := { d.trade with exitOrderId := some exitPending, exitSentAt := some sentAt }
        claimed := true } := by
  unfold claim
  rw [bind_assoc, ask_bind]
  cases world.claim d.history <;> rfl

theorem claimAndExit_alone (earlier : Earlier) (stopDead : Bool) (stopId : String) (d : Desk)
    (isStop : d.trade.slOrderId = some stopId) (quiet : ∀ e ∈ d.history, e.isSend = false) :
    ExitsAlone stopId ((claimAndExit world settings request earlier stopDead).run d).2.history ↔
      ∀ history, claimedAt world d.history stopDead = some (history, true) →
        world.book history = none → Gone stopId history := by
  have quiet' (sentAt : Option ℚ) : ∀ e ∈ d.history ++ [.claim sentAt], e.isSend = false := by
    intro e mem
    rcases List.mem_append.mp mem with mem | mem
    · exact quiet e mem
    · rw [List.mem_singleton.mp mem]
      rfl
  unfold claimAndExit claimedAt
  rw [claim_bind]
  cases world.claim d.history with
  | none =>
    refine iff_of_true (exitsAlone_quiet ?_) (by simp)
    exact quiet' none
  | some sentAt =>
    have claimed := exitClaimed_alone world settings request earlier stopDead stopId
      { d with
        history := d.history ++ [.claim (some sentAt)]
        trade := { d.trade with exitOrderId := some exitPending, exitSentAt := some sentAt }
        claimed := true } isStop (quiet' _)
    show ExitsAlone stopId (release.run ((exitClaimed world settings request earlier stopDead).run _).2).2.history
      ↔ _
    rw [release_history, claimed]
    simp only [Option.map_some, Option.some.injEq, Prod.mk.injEq]
    constructor
    · rintro fine history ⟨rfl, dead⟩ noBook
      exact by_contra fun notGone => fine ⟨dead, noBook, notGone⟩
    · rintro fine ⟨dead, noBook, notGone⟩
      exact notGone (fine _ ⟨rfl, dead⟩ noBook)

/-- Every exit is sent with the stop cancelled or shown gone if and only if, where the stop is taken for
dead, the book can be read before the exit, or was read and shows the stop gone. -/
theorem squareOffLive_alone (trade : Trade) (stopId : String) (isStop : trade.slOrderId = some stopId) :
    ExitsAlone stopId ((squareOffLive world settings request).run trade.desk).2.history ↔
      ∀ history, beforeStop world settings request trade = some (history, true) →
        world.book history = none → Gone stopId history := by
  have nothing : ∀ e ∈ trade.desk.history, e.isSend = false := by simp [Trade.desk]
  have staged : (squareOffLive world settings request).run trade.desk =
      StateT.run (match trade.exitOrderId with
        | some earlierId => do
            let earlier ← judgeEarlier world settings request earlierId
            if earlier.proceed then claimAndExit world settings request earlier true
            else return earlier.price
        | none =>
            if request.resumeOnly then return none
            else claimAndExit world settings request { proceed := true } request.stopDead) trade.desk := rfl
  rw [staged]
  unfold beforeStop
  cases trade.exitOrderId with
  | none =>
    dsimp only
    split
    · exact iff_of_true (exitsAlone_quiet nothing) (by simp)
    · exact claimAndExit_alone world settings request _ _ stopId trade.desk isStop nothing
  | some earlierId =>
    have judged : Quiet trade.desk ((judgeEarlier world settings request earlierId).run trade.desk).2 :=
      judgeEarlier_quiet world settings request earlierId trade.desk
    dsimp only
    rw [StateT.run_bind]
    rcases ran : (judgeEarlier world settings request earlierId).run trade.desk with ⟨earlier, d⟩
    rw [ran] at judged
    show ExitsAlone stopId (StateT.run (if earlier.proceed then claimAndExit world settings request earlier
      true else pure earlier.price) d).2.history ↔ _
    cases earlier.proceed with
    | true =>
      refine claimAndExit_alone world settings request _ _ stopId d ?_ (judged.none_placed nothing)
      exact (congrArg (fun core => core.2.2) judged.core).trans isStop
    | false => exact iff_of_true (exitsAlone_quiet (judged.none_placed nothing)) (by simp)

end Stop

section Rearmed

/-- A long position whose exit was rejected unfilled and whose stop was armed again. -/
def rearmed : Trade where
  id := 7
  symbol := "TCS"
  direction := .long
  quantity := 10
  stopLoss := 95
  brokerOrderId := some "B1"
  slOrderId := some "S2"
  exitOrderId := some "E1"
  exitSentAt := some 0

def rearmedSettings : Settings where
  stopLimit := false
  exitIfNoStop := false
  exitRejectRetries := 0
  claimInflightSeconds := 60
  adoptClockSkewSeconds := 5

def rearmedRequest : Request where
  exitPrice := 101
  reason := "Target"
  now := 300
  exchange := "NSE"
  product := "MIS"
  exitTag := fun _ => "EXIT-7"
  clientId := fun _ => none
  legacyTag := "EXIT-7"
  elsewhere := []

/-- The book while the stop works. -/
def rearmedBook : List Order :=
  [{ id := "E1", symbol := "TCS", side := .sell, quantity := 10, status := "REJECTED" },
   { id := "S2", symbol := "TCS", side := .sell, quantity := 10, orderType := "SL-M",
     status := "TRIGGER PENDING" }]

/-- A broker that takes every call, with its book as it is read. -/
def takingBroker (book : History → Option (List Order)) : World where
  book := book
  cancel := fun _ _ => true
  place := fun _ _ _ => .ok ⟨"E2", "OPEN"⟩
  byClientId := fun _ _ => none
  held := fun _ => some 10
  platform := fun _ => 10
  claim := fun _ => some 290
  booking := fun _ => true
  clock := fun _ => 300

/-- With a book that can always be read the stop is cancelled before the exit. -/
theorem squareOffLive_rearmed_alone : ExitsAlone "S2"
    ((squareOffLive (takingBroker fun _ => some rearmedBook) rearmedSettings rearmedRequest).run
      rearmed.desk).2.history :=
  (squareOffLive_alone _ _ _ rearmed "S2" rfl).mpr fun _ _ unread => by cases unread

/-- The book is read once and not again: the exit goes out beside the stop it showed working. -/
theorem squareOffLive_rearmed_beside : rearmed.slOrderId = some "S2" ∧ ¬ ExitsAlone "S2"
    ((squareOffLive (takingBroker fun history => if history = [] then some rearmedBook else none)
      rearmedSettings rearmedRequest).run rearmed.desk).2.history := by
  refine ⟨rfl, fun alone => ?_⟩
  have gone := alone [.book (some rearmedBook), .claim (some 290), .book none] 10 "EXIT-7"
    (.ok ⟨"E2", "OPEN"⟩) [.book none, .book none, .book none] (by decide +kernel)
  rcases gone with cancelled | ⟨book, read, dead⟩
  · simp at cancelled
  · obtain rfl : book = rearmedBook := by simpa using read
    have working := dead _ rfl
    exact absurd working (by decide +kernel)

end Rearmed

end AdvanceTrading.LiveExit
