import AdvanceTrading.Execution.Core.AutoPaper
import Mathlib.Algebra.Order.Group.Unbundled.Abs

/-!
# Auto PAPER inside its owner's limits

The limits are read before the order is created, and count an order from the
commit after the one that opens its position. Between the read and the opening
another attempt may open the place the read saw, and an attempt that stops
between the two commits leaves a position no later read counts. The condition
below is that no check is passed on, or left with, an answer the open positions
do not give.
-/

namespace AdvanceTrading.Execution.Core

open MarketData (dayStart)
open TriggerRules (istDay minuteUs)

/-- The attempt is on the PAPER route and has not left it. -/
def Point.onPaper : Point → Bool
  | .dispatch _ .paper | .dispatch _ .checks | .dispatch _ (.placing _) | .dispatch _ (.pipeline _) => true
  | _ => false

/-- The clock of the limit check the attempt has passed and still acts on. -/
def Point.passed : Point → Option Int
  | .dispatch now (.placing _) | .dispatch now (.pipeline _) => some now
  | _ => none

/-- The other attempts keep the answers their checks passed on, with these positions open. -/
def KeepsAnswers (st : Platform) (w : Floor m n) (who : Fin n) (entries : Fin m → Entry) : Prop :=
  ∀ q, (w.point q).intent ≠ (w.point who).intent →
    (w.shared.ticket (w.point q).intent).trade = none →
      ∀ now ∈ (w.point q).point.passed, limitReason st entries (w.point q).intent now = none

/-- The condition on a step: a check that passes would pass with every open position counted, and a
position opens only where that keeps the answers others have passed on. -/
def Answered (st : Platform) (w : Floor m n) : FloorEvent m n → Prop
  | .act who (i, .core (.check (.place _))) =>
      match (w.point who).point with
      | .dispatch now .checks =>
          limitReason st w.shared.opened i now = limitReason st w.shared.linked i now
      | _ => True
  | .act who (i, .persist tradeId) =>
      KeepsAnswers st w who
        (w.shared.write i { w.shared.ticket i with trade := some tradeId }).opened
  | _ => True

instance (st : Platform) (w : Floor m n) (who : Fin n) (entries : Fin m → Entry) :
    Decidable (KeepsAnswers st w who entries) :=
  inferInstanceAs (Decidable (∀ _, _ → _ → ∀ _ ∈ _, _))

instance (st : Platform) (w : Floor m n) (event : FloorEvent m n) : Decidable (Answered st w event) := by
  unfold Answered
  split <;> first | infer_instance | (split <;> infer_instance)

/-! ## The texts -/

theorem after_append (literal text : List Char) : after literal (literal ++ text) = some text := by
  induction literal with
  | nil => rfl
  | cons l literal ih => simp [after, ih]

theorem eq_append_of_likeStart {pattern text : List Char} (plain : '_' ∉ pattern)
    (like : Py.likeStart pattern text = true) : ∃ rest, text = pattern ++ rest := by
  induction pattern generalizing text with
  | nil => exact ⟨text, rfl⟩
  | cons p pattern ih =>
    cases text with
    | nil => cases like
    | cons c text =>
      simp only [List.mem_cons, not_or] at plain
      simp only [Py.likeStart, Bool.and_eq_true, Bool.or_eq_true, beq_iff_eq] at like
      obtain ⟨wild | rfl, like⟩ := like
      · exact absurd wild.symm plain.1
      · obtain ⟨rest, rfl⟩ := ih plain.2 like
        exact ⟨rest, rfl⟩

/-- A reference that the template's query selects names that template. -/
theorem rule_of_ofRule {ruleId : Nat} {sourceRef : String} (like : ofRule ruleId sourceRef = true)
    {found : Nat × String} (names : ruleAndSymbol sourceRef = some found) : found.1 = ruleId := by
  have digits := Py.digits_toDigits ruleId
  have plain : '_' ∉ "rule:".toList ++ (Nat.toDigits 10 ruleId ++ ":symbol:".toList) := by
    intro member
    simp only [List.mem_append] at member
    rcases member with head | middle | tail
    · revert head
      decide
    · have digit := digits '_' middle
      revert digit
      decide
    · revert tail
      decide
  obtain ⟨rest, shape⟩ := eq_append_of_likeStart plain like
  rw [List.append_assoc, List.append_assoc] at shape
  have decimal : ∀ c ∈ Nat.toDigits 10 ruleId, Py.isDecimal c = true :=
    fun c member => Py.isDecimal_of_isDigit (digits c member)
  have taken : (Nat.toDigits 10 ruleId ++ (":symbol:".toList ++ rest)).takeWhile Py.isDecimal =
      Nat.toDigits 10 ruleId := by
    rw [List.takeWhile_append_of_pos decimal]
    have stops : (":symbol:".toList ++ rest).takeWhile Py.isDecimal = [] := by
      have colon : Py.isDecimal ':' = false := by decide
      simp [colon]
    rw [stops, List.append_nil]
  unfold ruleAndSymbol at names
  rw [shape, after_append] at names
  simp only [Option.bind_eq_bind, Option.bind_some, taken] at names
  obtain ⟨text, -, names⟩ := Option.bind_eq_some_iff.mp names
  split at names
  · cases names
    exact Py.natOf_toDigits ruleId
  · cases names

/-! ## One statement -/

variable {cfg : Settings} {s : Shared}

theorem updateAt_subject {point : Point} {guard : Intent → Bool} {write : Intent → Intent}
    (here : updateAt cfg s point = some (guard, write)) (row : Intent) :
    (write row).subject = row.subject := by
  unfold updateAt at here
  split at here
  all_goals try cases here
  all_goals try rfl
  unfold Snapshot.write
  split
  · split <;> rfl
  · rfl

theorem decide_paper {mode : Mode} {approval locked enabled : Bool} {reason : String}
    (paper : Policy.decide mode approval locked enabled = (.paper, reason)) : enabled = true := by
  cases mode <;> cases approval <;> cases enabled <;> first | rfl | cases paper

/-- `dispatch_one` comes to `_paper` for an active owner whose template places, and to nothing else
on the PAPER route. -/
theorem routeOf_paper (cfg : Settings) (row : Intent) (facts : Facts) (now clock : Int) :
    (facts.ownerActive = true ∧ facts.autoPaperEnabled = true ∧ routeOf cfg row facts now = .paper) ∨
      (Point.dispatch clock (routeOf cfg row facts now)).onPaper = false := by
  unfold routeOf
  simp only
  split
  · exact .inr rfl
  · split
    · exact .inr rfl
    · rename_i active
      simp only [Bool.not_eq_true, Bool.not_eq_false] at active
      generalize chosen : Policy.decide row.requestedMode facts.approvalRequired facts.phase0Locked
        (decide (row.requestedMode = .autoPaper) && facts.autoPaperEnabled) = decision
      obtain ⟨route, reason⟩ := decision
      simp only
      split
      · exact .inr rfl
      · split
        · exact .inr rfl
        · cases route with
          | notify => exact .inr rfl
          | propose => exact .inr rfl
          | refuse => exact .inr rfl
          | paper =>
            have enabled := decide_paper chosen
            simp only [Bool.and_eq_true] at enabled
            exact .inl ⟨active, enabled.2, rfl⟩

/-- What a statement does on the PAPER route; the rest stays off it and leaves the order alone. -/
inductive Moves (s : Shared) : Point → Action → Shared → Point → Prop where
  | enter {now facts} (active : facts.ownerActive = true) (places : facts.autoPaperEnabled = true) :
      Moves s (.dispatch now .facts) (.facts facts) s (.dispatch now .paper)
  | ask {now required} : Moves s (.dispatch now .paper) (.paper required) s (.dispatch now .checks)
  | pass {now price} :
      Moves s (.dispatch now .checks) (.check (.place price)) s (.dispatch now (.placing price))
  | create {now price id} (free : s.holder = none) :
      Moves s (.dispatch now (.placing price)) (.create id) { s with holder := some (newOrder id) }
        (.dispatch now (.pipeline price))
  | advance {now price next tradeId reasons order} (ordered : s.holder.isSome = true) :
      Moves s (.dispatch now (.pipeline price)) (.advance next tradeId reasons)
        { s with holder := some order } (.dispatch now (.pipeline price))
  | other {point action t next} (subject : t.row.subject = s.row.subject) (holder : t.holder = s.holder)
      (kept : ∀ id, action = .create id → s.holder.isSome = true) (off : next.onPaper = false) :
      Moves s point action t next

variable {action : Action} {next : Point}

/-- A statement that only reads and is off the PAPER route afterwards. -/
theorem Moves.ofRead {t : Shared} {point there : Point} (ran : some (s, there) = some (t, next))
    (off : there.onPaper = false) (kept : ∀ id, action = .create id → s.holder.isSome = true) :
    Moves s point action t next := by
  cases ran
  exact .other rfl rfl kept off

theorem answered_off (reader : Reader) (earlier : Option Outcome) :
    (reader.answered earlier).onPaper = false := by
  cases reader <;> cases earlier <;> rfl

theorem readOverdue_off (row : Intent) (scope : Scope) (now : Int) :
    (readOverdue row scope now).onPaper = false := by
  unfold readOverdue
  split <;> rfl

theorem readStale_off {row : Intent} {scope : Scope} {now : Int} {point : Point}
    (read : readStale cfg row scope now = some point) : point.onPaper = false := by
  unfold readStale at read
  split at read
  · obtain ⟨at_, -, rfl⟩ := Option.map_eq_some_iff.mp read
    simp only
    split <;> rfl
  · cases read

theorem afterUpdate_off (point : Point) (matched : Bool) :
    (afterUpdate point matched).onPaper = false := by
  unfold afterUpdate
  repeat' split
  all_goals rfl

theorem statement_moves {t : Shared} {point : Point}
    (ran : statement cfg s point action = some (t, next)) : Moves s point action t next := by
  have none_ : ∀ {action : Action}, (∀ id, action ≠ .create id) →
      ∀ id, action = .create id → s.holder.isSome = true :=
    fun other id same => absurd same (other id)
  unfold statement at ran
  split at ran
  · cases ran
  · exact .ofRead ran rfl (none_ (by simp))
  · -- readQueued
    split at ran
    · exact .ofRead ran rfl (none_ (by simp))
    · cases ran
  · exact .ofRead ran (readOverdue_off _ _ _) (none_ (by simp))
  · -- readStale
    obtain ⟨point, read, same⟩ := Option.map_eq_some_iff.mp ran
    exact .ofRead (congrArg some same) (readStale_off read) (none_ (by simp))
  · -- look for the order
    split at ran
    · exact .ofRead ran (answered_off _ _) (none_ (by simp))
    · exact .ofRead ran rfl (none_ (by simp))
  · exact .ofRead ran (answered_off _ _) (none_ (by simp))
  · -- update
    obtain ⟨⟨guard, write⟩, here, same⟩ := Option.map_eq_some_iff.mp ran
    cases same
    refine .other ?_ rfl (none_ (by simp)) (afterUpdate_off _ _)
    show Intent.subject (if guard s.row then write s.row else s.row) = _
    split
    · exact updateAt_subject here _
    · rfl
  · -- load
    split at ran
    · exact .ofRead ran rfl (none_ (by simp))
    · split at ran
      · exact .ofRead ran rfl (none_ (by simp))
      · exact .ofRead ran rfl (none_ (by simp))
  · -- recheck
    refine .ofRead ran ?_ (none_ (by simp))
    split <;> rfl
  · -- facts
    rename_i now facts
    rcases routeOf_paper cfg s.row facts now now with ⟨active, places, paper⟩ | off
    · rw [paper] at ran
      cases ran
      exact .enter active places
    · exact .ofRead ran off (none_ (by simp))
  · exact .ofRead ran rfl (none_ (by simp))
  · -- propose
    split at ran
    · exact .ofRead ran rfl (none_ (by simp))
    · cases ran
      exact .other rfl rfl (none_ (by simp)) rfl
  · -- paper
    split at ran
    · split at ran
      · exact .ofRead ran rfl (none_ (by simp))
      · split at ran
        · exact .ofRead ran rfl (none_ (by simp))
        · exact .ofRead ran rfl (none_ (by simp))
    · split at ran
      · exact .ofRead ran rfl (none_ (by simp))
      · cases ran
        exact .ask
  · -- check
    split at ran
    · exact .ofRead ran rfl (none_ (by simp))
    · exact .ofRead ran rfl (none_ (by simp))
    · cases ran
      exact .pass
    · exact .ofRead ran rfl (none_ (by simp))
  · -- create
    split at ran
    · rename_i free
      cases ran
      exact .create free
    · rename_i order held
      have kept : ∀ id, Action.create id = .create id → s.holder.isSome = true :=
        fun _ _ => by rw [held]; rfl
      split at ran
      · exact .ofRead ran rfl (fun id _ => kept id rfl)
      · split at ran
        · exact .ofRead ran rfl (fun id _ => kept id rfl)
        · exact .ofRead ran rfl (fun id _ => kept id rfl)
  · -- advance
    split at ran
    · rename_i order own
      split at ran
      · cases ran
        refine .advance ?_
        cases held : s.holder with
        | none =>
          rw [held] at own
          cases own
        | some _ => rfl
      · cases ran
    · cases ran
  · -- returned
    split at ran
    · split at ran
      · exact .ofRead ran rfl (none_ (by simp))
      · split at ran
        · cases ran
        · exact .ofRead ran rfl (none_ (by simp))
    · cases ran
  · exact .ofRead ran rfl (none_ (by simp))
  · exact .ofRead ran rfl (none_ (by simp))
  · exact .ofRead ran rfl (none_ (by simp))
  · exact .ofRead ran rfl (none_ (by simp))
  · exact .ofRead ran rfl (none_ (by simp))
  · cases ran

/-! ## The invariant -/

/-- The person is of the intent's organisation and owns its enabled template. -/
def Authorised (st : Platform) (intent : Subject) : Prop :=
  st.userTenant intent.userId = some intent.tenantId ∧ intentPlaces st intent = true

/-- What holds of the queue. -/
structure DeskOk (st : Platform) (desk : Desk m) : Prop where
  cap : WithinCap st desk.opened
  spaced : Spaced st desk.opened
  ordered : ∀ i, (desk.ticket i).trade.isSome = true → (desk.ticket i).shared.holder.isSome = true
  authorised : ∀ i, (desk.ticket i).trade.isSome = true →
    Authorised st (desk.ticket i).shared.row.subject

/-- What holds of an attempt: the answer of its check still holds while its order opened nothing. -/
structure StandOk (st : Platform) (desk : Desk m) (stand : Stand m) : Prop where
  authorised : stand.point.onPaper = true →
    Authorised st (desk.ticket stand.intent).shared.row.subject
  read : ∀ now ∈ stand.point.passed, now ≤ desk.clock
  answer : ∀ now ∈ stand.point.passed, (desk.ticket stand.intent).trade = none →
    limitReason st desk.opened stand.intent now = none
  dated : ∀ now price, stand.point = .dispatch now (.pipeline price) →
    (desk.ticket stand.intent).shared.holder.isSome = true ∧
      now ≤ (desk.ticket stand.intent).orderedAt

/-- A step that opens no position. -/
structure Quiet (desk desk' : Desk m) : Prop where
  subject : ∀ i, (desk'.ticket i).shared.row.subject = (desk.ticket i).shared.row.subject
  trade : ∀ i, (desk'.ticket i).trade = (desk.ticket i).trade
  held : ∀ i, (desk.ticket i).shared.holder.isSome = true →
    (desk'.ticket i).shared.holder.isSome = true ∧
      (desk'.ticket i).orderedAt = (desk.ticket i).orderedAt
  clock : desk.clock ≤ desk'.clock

variable {st : Platform} {desk desk' : Desk m} {stand : Stand m} {i : Fin m}

theorem Quiet.opened (quiet : Quiet desk desk') (ok : DeskOk st desk) : desk'.opened = desk.opened := by
  funext i
  unfold Desk.opened
  rw [quiet.subject i, quiet.trade i]
  cases trade : (desk.ticket i).trade with
  | none => rfl
  | some id =>
    have held := ok.ordered i (by rw [trade]; rfl)
    rw [(quiet.held i held).2]

theorem DeskOk.quiet (ok : DeskOk st desk) (quiet : Quiet desk desk') : DeskOk st desk' where
  cap := by
    rw [quiet.opened ok]
    exact ok.cap
  spaced := by
    rw [quiet.opened ok]
    exact ok.spaced
  ordered := by
    intro i open_
    rw [quiet.trade i] at open_
    exact (quiet.held i (ok.ordered i open_)).1
  authorised := by
    intro i open_
    rw [quiet.trade i] at open_
    rw [quiet.subject i]
    exact ok.authorised i open_

theorem StandOk.quiet (at_ : StandOk st desk stand) (ok : DeskOk st desk) (quiet : Quiet desk desk') :
    StandOk st desk' stand where
  authorised := by
    intro onPaper
    rw [quiet.subject]
    exact at_.authorised onPaper
  read := fun now passed => le_trans (at_.read now passed) quiet.clock
  answer := by
    intro now passed unopened
    rw [quiet.trade] at unopened
    rw [quiet.opened ok]
    exact at_.answer now passed unopened
  dated := by
    intro now price here
    obtain ⟨held, after_⟩ := at_.dated now price here
    obtain ⟨held', same⟩ := quiet.held _ held
    exact ⟨held', same ▸ after_⟩

/-- An attempt off the PAPER route relies on nothing. -/
theorem StandOk.off (off : stand.point.onPaper = false) : StandOk st desk stand where
  authorised := by
    intro onPaper
    rw [off] at onPaper
    cases onPaper
  read := by
    intro now passed
    revert off passed
    unfold Point.onPaper Point.passed
    split <;> simp
  answer := by
    intro now passed
    revert off passed
    unfold Point.onPaper Point.passed
    split <;> simp
  dated := by
    intro now price here
    rw [here] at off
    cases off

@[simp] theorem write_self (ticket : Ticket) : (desk.write i ticket).ticket i = ticket :=
  Function.update_self ..

theorem write_other {j : Fin m} (other : j ≠ i) (ticket : Ticket) :
    (desk.write i ticket).ticket j = desk.ticket j := Function.update_of_ne other ..

/-- Writing one intent is quiet when it opens nothing and keeps an order's time. -/
theorem Quiet.write {ticket : Ticket}
    (subject : ticket.shared.row.subject = (desk.ticket i).shared.row.subject)
    (trade : ticket.trade = (desk.ticket i).trade)
    (held : (desk.ticket i).shared.holder.isSome = true →
      ticket.shared.holder.isSome = true ∧ ticket.orderedAt = (desk.ticket i).orderedAt) :
    Quiet desk (desk.write i ticket) where
  subject := by
    intro j
    by_cases same : j = i
    · rw [same, write_self, subject]
    · rw [write_other same]
  trade := by
    intro j
    by_cases same : j = i
    · rw [same, write_self, trade]
    · rw [write_other same]
  held := by
    intro j isHeld
    by_cases same : j = i
    · subst same
      rw [write_self]
      exact held isHeld
    · rw [write_other same]
      exact ⟨isHeld, rfl⟩
  clock := le_refl _

/-! ## The statements of the dispatcher -/

/-- A statement of the dispatcher opens nothing. -/
theorem Moves.quiet {point : Point} (moves : Moves (desk.ticket i).shared point action s next) :
    Quiet desk (desk.write i { desk.ticket i with
      shared := s, orderedAt := (desk.ticket i).orderedBy desk.clock action }) := by
  cases moves with
  | enter => exact .write rfl rfl fun held => ⟨held, rfl⟩
  | ask => exact .write rfl rfl fun held => ⟨held, rfl⟩
  | pass => exact .write rfl rfl fun held => ⟨held, rfl⟩
  | create free =>
    refine .write rfl rfl fun held => ?_
    rw [free] at held
    cases held
  | advance => exact .write rfl rfl fun held => ⟨rfl, rfl⟩
  | other subject holder kept off =>
    refine .write subject rfl fun held => ⟨holder ▸ held, ?_⟩
    cases action with
    | create id =>
      show (if (desk.ticket i).shared.holder.isNone then _ else _) = _
      rw [if_neg (by simp [Option.isSome_iff_ne_none.mp held])]
    | _ => rfl

/-- What the check of the limits means for one that passes. -/
def Answers (st : Platform) (desk : Desk m) (i : Fin m) (point : Point) (action : Action) : Prop :=
  ∀ now price, point = .dispatch now .checks → action = .check (.place price) →
    limitReason st desk.opened i now = limitReason st desk.linked i now

/-- An attempt keeps its invariant over its own statements. -/
theorem StandOk.statement (at_ : StandOk st desk stand) (ok : DeskOk st desk)
    (answers : Answers st desk i stand.point action)
    (here : stand.point.isIdle = true ∨ i = stand.intent)
    (possible_ : possible st desk i stand.point action = true)
    (moves : Moves (desk.ticket i).shared stand.point action s next) :
    StandOk st (desk.write i { desk.ticket i with
      shared := s, orderedAt := (desk.ticket i).orderedBy desk.clock action }) ⟨i, next⟩ := by
  have quiet := moves.quiet
  obtain ⟨intent, point⟩ := stand
  simp only at here answers possible_ moves
  have taken : point.onPaper = true → i = intent := by
    intro onPaper
    rcases here with idle | same
    · cases point with
      | idle => cases onPaper
      | _ => cases idle
    · exact same
  cases moves with
  | @enter now facts active places =>
    have may : Authorised st (desk.ticket i).shared.row.subject := by
      simp only [possible, active, places, Bool.not_true, Bool.false_or, Bool.and_eq_true,
        decide_eq_true_eq] at possible_
      exact possible_
    refine ⟨fun _ => ?_, by simp [Point.passed], by simp [Point.passed], by simp⟩
    rw [write_self]
    exact may
  | ask =>
    cases taken rfl
    refine ⟨fun _ => ?_, by simp [Point.passed], by simp [Point.passed], by simp⟩
    rw [write_self]
    exact at_.authorised rfl
  | @pass now price =>
    cases taken rfl
    simp only [possible, Bool.and_eq_true, decide_eq_true_eq, Option.isNone_iff_eq_none] at possible_
    refine ⟨fun _ => ?_, ?_, ?_, by simp⟩
    · rw [write_self]
      exact at_.authorised rfl
    · rintro _ ⟨⟩
      exact possible_.1
    · rintro _ ⟨⟩ -
      rw [quiet.opened ok, answers now price rfl rfl]
      exact possible_.2
  | @create now price id free =>
    cases taken rfl
    refine ⟨fun _ => ?_, ?_, ?_, ?_⟩
    · rw [write_self]
      exact at_.authorised rfl
    · rintro _ ⟨⟩
      exact at_.read now rfl
    · rintro _ ⟨⟩ unopened
      rw [write_self] at unopened
      rw [quiet.opened ok]
      exact at_.answer now rfl unopened
    · rintro _ _ ⟨⟩
      rw [write_self]
      refine ⟨rfl, ?_⟩
      show now ≤ if (desk.ticket i).shared.holder.isNone then desk.clock else (desk.ticket i).orderedAt
      rw [free]
      exact at_.read now rfl
  | @advance now price next tradeId reasons order ordered =>
    cases taken rfl
    refine ⟨fun _ => ?_, ?_, ?_, ?_⟩
    · rw [write_self]
      exact at_.authorised rfl
    · rintro _ ⟨⟩
      exact at_.read now rfl
    · rintro _ ⟨⟩ unopened
      rw [write_self] at unopened
      rw [quiet.opened ok]
      exact at_.answer now rfl unopened
    · rintro _ _ ⟨⟩
      rw [write_self]
      exact ⟨rfl, (at_.dated now price rfl).2⟩
  | other subject holder kept off => exact .off off

/-! ## The opening of a position -/

/-- What a check that passes has seen. -/
structure Room (st : Platform) (entries : Fin m → Entry) (i : Fin m) (now : Int) (ruleId : Nat) : Prop where
  places : ∀ found, ruleAndSymbol (entries i).sourceRef = some found → found.1 = ruleId
  cap : entriesToday entries (entries i).tenantId ruleId now <
    (st.automation (entries i).userId).scanAutoMax.getD 0
  rest : ∀ j t, j ≠ i → (entries j).tenantId = (entries i).tenantId → (entries j).source = "scan" →
    (entries j).userId = (entries i).userId → (entries j).symbol = (entries i).symbol →
      (entries j).placedAt = some t →
        0 < (st.automation (entries i).userId).scanAutoCooldownMinutes.getD 0 →
          t < now - (st.automation (entries i).userId).scanAutoCooldownMinutes.getD 0 * minuteUs

theorem room_of_none {entries : Fin m → Entry} {now : Int}
    (passes : limitReason st entries i now = none) :
    ∃ found, ruleAndSymbol (entries i).sourceRef = some found ∧ Room st entries i now found.1 := by
  unfold limitReason at passes
  split at passes
  · cases passes
  · rename_i ruleId symbol names
    simp only at passes
    split at passes
    · cases passes
    · split at passes
      · cases passes
      · rename_i below
        split at passes
        · cases passes
        · rename_i quiet
          refine ⟨(ruleId, symbol), names, ?_, Nat.lt_of_not_le below, ?_⟩
          · rintro found same
            rw [names] at same
            cases same
            rfl
          · intro j t other tenant scan user same placed positive
            by_contra late
            apply quiet
            refine ⟨positive, Finset.card_ne_zero.mpr ⟨j, ?_⟩⟩
            unfold recentEntries placedOrders
            simp only [Finset.mem_filter, Finset.mem_univ, true_and, placed, Option.isSome_some,
              Option.any_some, decide_eq_true_eq]
            exact ⟨⟨tenant, scan⟩, user, same, other, by omega⟩

/-- The queue after the trade of an intent's order is committed. -/
theorem opened_write (tradeId : Nat) :
    (desk.write i { desk.ticket i with trade := some tradeId }).opened =
      Function.update desk.opened i
        { desk.opened i with placedAt := some (desk.ticket i).orderedAt } := by
  funext j
  by_cases same : j = i
  · subst same
    rw [Function.update_self]
    unfold Desk.opened
    rw [write_self]
    rfl
  · rw [Function.update_of_ne same]
    unfold Desk.opened
    rw [write_other same]

theorem source_of_places {intent : Subject} (places : intentPlaces st intent = true) :
    intent.source = "scan" := by
  simp only [intentPlaces, Bool.and_eq_true, decide_eq_true_eq] at places
  exact places.1

/-- The template of an intent that may be placed is its person's, so its limit is the person's. -/
theorem capOf_of_places {intent : Subject} (places : intentPlaces st intent = true)
    {found : Nat × String} (names : ruleAndSymbol intent.sourceRef = some found) :
    capOf st intent.tenantId found.1 = (st.automation intent.userId).scanAutoMax.getD 0 := by
  simp only [intentPlaces, names, Bool.and_eq_true] at places
  unfold capOf
  cases owned : st.template intent.tenantId found.1 with
  | none => simp [owned] at places
  | some row =>
    simp only [owned, Bool.and_eq_true, decide_eq_true_eq] at places
    simp only
    rw [places.2.1.2]

/-- The entries of a day are counted by a check made on that day or before. -/
theorem openedOn_subset {entries : Fin m → Entry} {tenantId ruleId : Nat} {now at_ : Int}
    (scan : ∀ j, (entries j).placedAt.isSome = true → (entries j).source = "scan") (le : now ≤ at_) :
    (openedOn entries tenantId ruleId (istDay at_)).card ≤ entriesToday entries tenantId ruleId now := by
  apply Finset.card_le_card
  intro j member
  unfold openedOn at member
  unfold placedOrders
  simp only [Finset.mem_filter, Finset.mem_univ, true_and, Option.any_eq_true,
    decide_eq_true_eq] at member ⊢
  obtain ⟨tenant, rule, time, placed, day⟩ := member
  have counts : (entries j).placedAt.isSome = true := by
    rw [placed]
    rfl
  refine ⟨⟨tenant, counts, scan j counts⟩, rule, time, placed, ?_⟩
  have earlier := MarketData.istDay_mono le
  have begun : dayStart (istDay time) ≤ time := by
    have split_ := MarketData.dayStart_add_timeOfDay time
    have positive := MarketData.timeOfDay_nonneg time
    omega
  rw [day] at begun
  unfold dayStart at begun ⊢
  have : istDay now * TriggerRules.dayUs ≤ istDay at_ * TriggerRules.dayUs :=
    Int.mul_le_mul_of_nonneg_right earlier (by decide)
  omega

section

variable {tradeId : Nat} {now : Int} (ok : DeskOk st desk)
  (may : Authorised st (desk.ticket i).shared.row.subject) (answer : limitReason st desk.opened i now = none)
  (dated : now ≤ (desk.ticket i).orderedAt)
include ok may answer dated

/-- An opening keeps every template within its owner's limit. -/
theorem cap_opened :
    WithinCap st (desk.write i { desk.ticket i with trade := some tradeId }).opened := by
  intro tenantId ruleId day
  rw [opened_write]
  have kept := ok.cap tenantId ruleId day
  -- only the intent that opens joins the day's entries
  have joins : openedOn (Function.update desk.opened i
      { desk.opened i with placedAt := some (desk.ticket i).orderedAt }) tenantId ruleId day ⊆
        insert i (openedOn desk.opened tenantId ruleId day) := by
    intro j member
    by_cases same : j = i
    · rw [same]
      exact Finset.mem_insert_self ..
    · apply Finset.mem_insert_of_mem
      unfold openedOn at member ⊢
      simpa only [Finset.mem_filter, Function.update_of_ne same] using member
  by_cases counted : i ∈ openedOn (Function.update desk.opened i
      { desk.opened i with placedAt := some (desk.ticket i).orderedAt }) tenantId ruleId day
  · unfold openedOn at counted
    simp only [Finset.mem_filter, Finset.mem_univ, true_and, Function.update_self, Option.any_some,
      decide_eq_true_eq] at counted
    obtain ⟨rfl, rule, rfl⟩ := counted
    obtain ⟨found, names, room⟩ := room_of_none answer
    obtain rfl := rule_of_ofRule rule names
    have scan : ∀ j, (desk.opened j).placedAt.isSome = true → (desk.opened j).source = "scan" := by
      intro j placed
      apply source_of_places (ok.authorised j _).2
      simpa [Desk.opened] using placed
    have before := @openedOn_subset _ _ (desk.opened i).tenantId found.1 _ _ scan dated
    have cap : capOf st (desk.opened i).tenantId found.1 =
        (st.automation (desk.opened i).userId).scanAutoMax.getD 0 := capOf_of_places may.2 names
    have size := Finset.card_le_card joins
    have one := Finset.card_insert_le i
      (openedOn desk.opened (desk.opened i).tenantId found.1 (istDay (desk.ticket i).orderedAt))
    have below := room.cap
    omega
  · have within : openedOn (Function.update desk.opened i
        { desk.opened i with placedAt := some (desk.ticket i).orderedAt }) tenantId ruleId day ⊆
          openedOn desk.opened tenantId ruleId day := by
      intro j member
      rcases Finset.mem_insert.mp (joins member) with rfl | old
      · exact absurd member counted
      · exact old
    exact le_trans (Finset.card_le_card within) kept

/-- The entry that opens is a cool-down after every entry of its person and symbol. -/
theorem apart_opened {j : Fin m} {t : Int} (other : j ≠ i)
    (user : (desk.opened j).userId = (desk.opened i).userId)
    (symbol : (desk.opened j).symbol = (desk.opened i).symbol)
    (placed : (desk.opened j).placedAt = some t) :
    ((st.automation (desk.opened i).userId).scanAutoCooldownMinutes.getD 0 : Int) * minuteUs ≤
      |(desk.ticket i).orderedAt - t| := by
  obtain ⟨found, -, room⟩ := room_of_none answer
  have counts : (desk.ticket j).trade.isSome = true := by
    have isSome : (desk.opened j).placedAt.isSome = true := by
      rw [placed]
      rfl
    simpa [Desk.opened] using isSome
  have mayOther := ok.authorised j counts
  have tenant : (desk.opened j).tenantId = (desk.opened i).tenantId := by
    have own : st.userTenant (desk.opened i).userId = some (desk.opened i).tenantId := may.1
    have others : st.userTenant (desk.opened j).userId = some (desk.opened j).tenantId := mayOther.1
    rw [user, own] at others
    exact (Option.some.inj others).symm
  rcases Nat.eq_zero_or_pos ((st.automation (desk.opened i).userId).scanAutoCooldownMinutes.getD 0)
    with zero | positive
  · rw [zero]
    simp
  · have before := room.rest j t other tenant (source_of_places mayOther.2) user symbol placed positive
    exact le_trans (by omega) (le_abs_self _)

theorem spaced_opened :
    Spaced st (desk.write i { desk.ticket i with trade := some tradeId }).opened := by
  rw [opened_write]
  intro a b s t differ user symbol first second
  by_cases isFirst : a = i
  · subst isFirst
    rw [Function.update_self] at user symbol first ⊢
    rw [Function.update_of_ne differ.symm] at user symbol second
    cases first
    exact apart_opened ok may answer dated differ.symm user.symm symbol.symm second
  · by_cases isSecond : b = i
    · subst isSecond
      rw [Function.update_self] at user symbol second
      rw [Function.update_of_ne differ] at user symbol first ⊢
      cases second
      rw [abs_sub_comm, user]
      exact apart_opened ok may answer dated differ user symbol first
    · rw [Function.update_of_ne isFirst] at user symbol first ⊢
      rw [Function.update_of_ne isSecond] at user symbol second
      exact ok.spaced a b s t differ user symbol first second

end

/-! ## Whole runs -/

/-- The invariant of runs that meet the condition. -/
structure WithinLimits (st : Platform) (w : Floor m n) : Prop where
  desk : DeskOk st w.shared
  stand : ∀ q, StandOk st w.shared (w.point q)

theorem withinLimits_start {rows : Fin m → Intent} {clock : Int} {first : Fin m} :
    WithinLimits st (Floor.start rows clock first : Floor m n) where
  desk := {
    cap := by
      intro tenantId ruleId day
      have none_ : openedOn (Floor.start rows clock first : Floor m n).shared.opened tenantId ruleId day = ∅ := by
        apply Finset.filter_eq_empty_iff.mpr
        intro i _
        simp [Floor.start, Desk.opened]
      rw [none_]
      exact Nat.zero_le _
    spaced := by
      intro i j s t _ _ _ placed
      cases placed
    ordered := by
      intro i open_
      cases open_
    authorised := by
      intro i open_
      cases open_ }
  stand := fun _ => .off rfl

variable {w t : Floor m n}

/-- The commit of a trade, which is the one step that opens a position. -/
theorem WithinLimits.persist (ok : WithinLimits st w) {who : Fin n} {now : Int} {price : Rat}
    (here : (w.point who).point = .dispatch now (.pipeline price)) (own : i = (w.point who).intent)
    (unopened : (w.shared.ticket i).trade = none)
    (keeps : KeepsAnswers st w who
      (w.shared.write i { w.shared.ticket i with trade := some tradeId }).opened) :
    WithinLimits st
      (w.move who (w.shared.write i { w.shared.ticket i with trade := some tradeId }) (w.point who)) := by
  subst own
  have at_ := ok.stand who
  have passed : now ∈ (w.point who).point.passed := by
    rw [here]
    rfl
  have may := at_.authorised (by rw [here]; rfl)
  have answer := at_.answer now passed unopened
  obtain ⟨held, dated⟩ := at_.dated now price here
  have same : ∀ j, ((w.shared.write (w.point who).intent
      { w.shared.ticket (w.point who).intent with trade := some tradeId }).ticket j).shared =
        (w.shared.ticket j).shared := by
    intro j
    by_cases same : j = (w.point who).intent
    · rw [same, write_self]
    · rw [write_other same]
  constructor
  · constructor
    · exact cap_opened ok.desk may answer dated
    · exact spaced_opened ok.desk may answer dated
    · intro j open_
      rw [Procs.move_shared, same]
      by_cases other : j = (w.point who).intent
      · rw [other]
        exact held
      · rw [Procs.move_shared, write_other other] at open_
        exact ok.desk.ordered j open_
    · intro j open_
      rw [Procs.move_shared, same]
      by_cases other : j = (w.point who).intent
      · rw [other]
        exact may
      · rw [Procs.move_shared, write_other other] at open_
        exact ok.desk.authorised j open_
  · have stays : ∀ q, ((w.move who (w.shared.write (w.point who).intent
        { w.shared.ticket (w.point who).intent with trade := some tradeId }) (w.point who)).point q) =
          w.point q := by
      intro q
      by_cases mine : q = who
      · rw [mine, Procs.move_self]
      · rw [Procs.move_other mine]
    intro q
    rw [stays, Procs.move_shared]
    have before := ok.stand q
    refine ⟨?_, before.read, ?_, ?_⟩
    · intro onPaper
      rw [same]
      exact before.authorised onPaper
    · intro clock read unopened'
      by_cases other : (w.point q).intent = (w.point who).intent
      · rw [other, write_self] at unopened'
        cases unopened'
      · rw [write_other other] at unopened'
        exact keeps q other unopened' clock read
    · intro clock price' stands
      obtain ⟨heldBefore, after_⟩ := before.dated clock price' stands
      rw [same]
      refine ⟨heldBefore, ?_⟩
      by_cases other : (w.point q).intent = (w.point who).intent
      · rw [other] at after_
        rw [other, write_self]
        exact after_
      · rw [write_other other]
        exact after_

theorem WithinLimits.quiet (ok : WithinLimits st w) (quiet : Quiet w.shared desk') (q : Fin n) :
    StandOk st desk' (w.point q) := (ok.stand q).quiet ok.desk quiet

theorem withinLimits_step {event : FloorEvent m n} (ok : WithinLimits st w)
    (answered : Answered st w event) (stepped : (attempts st m n).step w event = some t) :
    WithinLimits st t := by
  cases event with
  | act who action =>
    obtain ⟨desk', stand', ran, rfl⟩ := Procs.act_eq stepped
    obtain ⟨i, act⟩ := action
    cases act with
    | core action =>
      unfold attempt at ran
      simp only at ran
      split at ran
      · rename_i may
        obtain ⟨here, possible_⟩ := may
        obtain ⟨⟨s, next⟩, stated, same⟩ := Option.map_eq_some_iff.mp ran
        cases same
        have moves := statement_moves stated
        have answers : Answers st w.shared i (w.point who).point action := by
          intro now price stands asks
          subst asks
          unfold Answered at answered
          simpa only [stands] using answered
        refine ⟨ok.desk.quiet moves.quiet, ?_⟩
        exact Procs.forall_move (P := StandOk st _) (fun q _ => ok.quiet moves.quiet q)
          ((ok.stand who).statement ok.desk answers here possible_ moves)
      · cases ran
    | persist tradeId =>
      unfold attempt at ran
      simp only at ran
      split at ran
      · rename_i now price stands
        split at ran
        · rename_i may
          cases ran
          exact ok.persist stands may.1 may.2.1 answered
        · cases ran
      · cases ran
  | outside event =>
    obtain ⟨desk', ran, rfl⟩ := Procs.outside_eq stepped
    have quiet : Quiet w.shared desk' := by
      cases event with
      | tick by_ =>
        cases ran
        exact ⟨fun _ => rfl, fun _ => rfl, fun _ held => ⟨held, rfl⟩, by simp⟩
      | order i order =>
        obtain ⟨shared, foreign, rfl⟩ := Option.map_eq_some_iff.mp ran
        unfold foreignOrder at foreign
        split at foreign
        · cases foreign
          exact .write rfl rfl fun _ => ⟨rfl, rfl⟩
        · cases foreign
    exact ⟨ok.desk.quiet quiet, fun q => ok.quiet quiet q⟩

/-- Auto PAPER stays inside its owner's limits in every run in which checks pass on, and keep, the
answers that the open positions give: on no IST day do more orders of one template open a
position than its owner allows, and entries of one person and symbol are a cool-down apart. -/
theorem auto_paper_within_limits {rows : Fin m → Intent} {clock : Int} {first : Fin m}
    {events : List (FloorEvent m n)}
    (answered : (attempts st m n).Meets (Answered st) (Floor.start rows clock first) events)
    (ran : (attempts st m n).run (Floor.start rows clock first) events = some w) :
    WithinCap st w.shared.opened ∧ Spaced st w.shared.opened := by
  have ok : WithinLimits st w :=
    (attempts st m n).run_invariant (fun _ _ _ => withinLimits_step) withinLimits_start answered ran
  exact ⟨ok.desk.cap, ok.desk.spaced⟩

/-! ## Two setups of one template -/

/-- Person 7 of organisation 1 with one armed template, at most `cap` entries a day and half an hour
between two of one symbol. -/
def onePerson (cap : Nat) : Platform where
  core := { defaults with ttlSeconds := 3600 * 1000000, claimStaleSeconds := 120 * 1000000 }
  automation _ := ⟨some cap, some 30, some 7⟩
  userTenant user := if user = 7 then some 1 else none
  template tenant rule := if tenant = 1 ∧ rule = 12 then some ⟨7, true⟩ else none
  ruleTenant rule := if rule = 12 then some 1 else none

/-- Two setups of the template on one symbol. -/
def twoSetups (i : Fin 2) : Intent :=
  newIntent (onePerson 1).core (i + 1) { setup with idempotencyKey := "12:NIFTY:" ++ toString i.val } .autoPaper

/-- Every switch allows the entry. -/
def allOn : Facts where
  tenant := some ("ACTIVE", true)
  ownerActive := true
  autoPaperEnabled := true
  approvalRequired := false
  phase0Locked := false

/-- An attempt takes an intent and passes the checks. -/
def checked (who i : Fin 2) (now : Int) : List (FloorEvent 2 2) :=
  ([.readQueued none now, .update, .load now, .facts allOn, .paper false,
    .check (.place 100)] : List Action).map fun action => .act who (i, .core action)

/-- It creates its order, which fills, and the trade is committed. -/
def filled (who i : Fin 2) (orderId tradeId : Nat) : List (FloorEvent 2 2) :=
  (([.create orderId, .advance .validating none "", .advance .riskCheck none "",
    .advance .submitted none "", .advance .pending none "", .advance .filled none ""] :
      List Action).map fun action => .act who (i, .core action)) ++ [.act who (i, .persist tradeId)]

/-- The trade is linked to the order and the intent is finished. -/
def linked (who i : Fin 2) (tradeId : Nat) : List (FloorEvent 2 2) :=
  ([.advance .positionOpen (some tradeId) "", .returned, .update] : List Action).map
    fun action => .act who (i, .core action)

/-- Two attempts pass the check before either order opens its position. -/
def checkedTogether : List (FloorEvent 2 2) :=
  checked 0 0 0 ++ checked 1 1 0 ++ filled 0 0 5 50 ++ linked 0 0 50 ++ filled 1 1 6 60 ++ linked 1 1 60

/-- The first attempt stops between the commit of the trade and the commit that links it. -/
def stoppedUnlinked : List (FloorEvent 2 2) :=
  checked 0 0 0 ++ filled 0 0 5 50 ++ [.act 0 (0, .core .stop)] ++ checked 1 1 0 ++ filled 1 1 6 60 ++
    linked 1 1 60

/-- What the two setups opened. -/
def outcome (w : Floor 2 2) : Nat × Option Int × Option Int :=
  ((openedOn w.shared.opened 1 12 0).card, (w.shared.opened 0).placedAt, (w.shared.opened 1).placedAt)

theorem past_limits_of_outcome {w : Floor 2 2} (both : outcome w = (2, some 0, some 0))
    (same : (w.shared.opened 0).toSubject = (w.shared.opened 1).toSubject) :
    ¬ WithinCap (onePerson 1) w.shared.opened ∧ ¬ Spaced (onePerson 1) w.shared.opened := by
  simp only [outcome, Prod.mk.injEq] at both
  obtain ⟨two, first, second⟩ := both
  constructor
  · intro within
    have most := within 1 12 0
    rw [two] at most
    exact absurd most (by decide)
  · intro spaced
    have apart : ((30 : Nat) : Int) * minuteUs ≤ |0 - 0| :=
      spaced 0 1 0 0 (by decide) (congrArg Subject.userId same) (congrArg Subject.symbol same) first second
    exact absurd apart (by decide)

/-- With one entry a day allowed, two setups of one template and symbol both open a position at the
same time: when both pass the check before either order opens, and one worker after the other when
the first stops before its trade is linked. -/
theorem two_entries_past_limits :
    (∃ w, (attempts (onePerson 1) 2 2).run (Floor.start twoSetups 0 0) checkedTogether = some w ∧
        ¬ WithinCap (onePerson 1) w.shared.opened ∧ ¬ Spaced (onePerson 1) w.shared.opened) ∧
      ∃ w, (attempts (onePerson 1) 2 2).run (Floor.start twoSetups 0 0) stoppedUnlinked = some w ∧
        ¬ WithinCap (onePerson 1) w.shared.opened ∧ ¬ Spaced (onePerson 1) w.shared.opened := by
  have together : ((attempts (onePerson 1) 2 2).run (Floor.start twoSetups 0 0) checkedTogether).map
      (fun w => (outcome w, decide ((w.shared.opened 0).toSubject = (w.shared.opened 1).toSubject))) =
        some ((2, some 0, some 0), true) := by
    decide +kernel
  have stopped : ((attempts (onePerson 1) 2 2).run (Floor.start twoSetups 0 0) stoppedUnlinked).map
      (fun w => (outcome w, decide ((w.shared.opened 0).toSubject = (w.shared.opened 1).toSubject))) =
        some ((2, some 0, some 0), true) := by
    decide +kernel
  constructor
  · obtain ⟨w, ran, read⟩ := Option.map_eq_some_iff.mp together
    obtain ⟨both, same⟩ := Prod.mk.inj read
    exact ⟨w, ran, past_limits_of_outcome both (of_decide_eq_true same)⟩
  · obtain ⟨w, ran, read⟩ := Option.map_eq_some_iff.mp stopped
    obtain ⟨both, same⟩ := Prod.mk.inj read
    exact ⟨w, ran, past_limits_of_outcome both (of_decide_eq_true same)⟩

/-- The second attempt requeues the first intent as stale, finds its order and finishes the row; half
an hour later it places the second one. -/
def requeuedThenPlaced : List (FloorEvent 2 2) :=
  checked 0 0 0 ++ filled 0 0 5 50 ++ [.act 0 (0, .core (.advance .positionOpen (some 50) ""))] ++
    (([.readStale none (130 * 1000000), .update, .readQueued none (131 * 1000000), .update,
      .load (132 * 1000000), .look, .update] : List Action).map fun action => .act 1 (0, .core action)) ++
    [.outside (.tick (31 * 60 * 1000000))] ++ checked 1 1 (31 * 60 * 1000000) ++ filled 1 1 6 60 ++
    linked 1 1 60

theorem requeued_within_limits :
    ∃ w, (attempts (onePerson 2) 2 2).run (Floor.start twoSetups 0 0) requeuedThenPlaced = some w ∧
      outcome w = (2, some 0, some (31 * 60 * 1000000)) ∧
        WithinCap (onePerson 2) w.shared.opened ∧ Spaced (onePerson 2) w.shared.opened := by
  have runs : ((attempts (onePerson 2) 2 2).run (Floor.start twoSetups 0 0) requeuedThenPlaced).map
      outcome = some (2, some 0, some (31 * 60 * 1000000)) := by
    decide +kernel
  obtain ⟨w, ran, read⟩ := Option.map_eq_some_iff.mp runs
  exact ⟨w, ran, read, auto_paper_within_limits (by decide +kernel) ran⟩

end AdvanceTrading.Execution.Core
