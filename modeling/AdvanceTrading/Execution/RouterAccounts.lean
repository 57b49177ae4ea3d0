import AdvanceTrading.Execution.RouterEntry
import Mathlib.Algebra.Order.BigOperators.Group.List

/-!
# What the router's entry accounts for

What the venue showed of an order is its `fate`; an order's leg says no more and
no less (`placeOne_as`). So over the orders of an entry, sent while each was
filled in full, the trade is what their fates add up to.
-/

namespace AdvanceTrading.Router

/-! ## The fate of an order -/

/-- What looks at the book say of an order. -/
inductive Verdict where
  | filled (e : BookEntry) (price : ℚ)
  | ended (e : BookEntry)
  | unread
  | working (last : Option BookEntry)

/-- The first look that settles an order, after `last`. -/
def verdict (orderId : String) : Option BookEntry → List BookRead → Verdict
  | last, [] => .working last
  | _, none :: _ => .unread
  | _, some book :: rest =>
      match entryOf orderId book with
      | none => verdict orderId none rest
      | some e =>
          match e.fillPrice with
          | some price => .filled e price
          | none => if e.ended then .ended e else verdict orderId (some e) rest

/-- What the venue showed of an order: whether its call raised or was declined, and of one that was taken the entry
that shows its fill, in time or after the cancel, or its end; or that the book could not be read, or showed
neither. -/
inductive Fate where
  | unknown
  | declined
  | shown (e : BookEntry) (last : Option BookEntry)
  | ended (e : BookEntry)
  | unread
  | working

/-- The fate of an order by its answers. -/
def fate (attempts : Nat) (answers : Answers) : Fate :=
  match answers.placement with
  | .raised => .unknown
  | .answered status orderId _ =>
      if status = "REJECTED" ∨ status = "CANCELLED" then .declined
      else
        match verdict orderId none (firstLooks attempts answers.poll) with
        | .filled e _ => .shown e (some e)
        | .ended e => .ended e
        | .unread => .unread
        | .working last =>
            match verdict orderId none (firstLooks attempts answers.after) with
            | .filled e _ => .shown e last
            | .ended e => .ended e
            | _ => .working

/-- The quantity of an order that counts: what its book entry shows as filled, or all of it where that is not known. -/
def Fate.recorded (quantity : ℚ) : Fate → ℚ
  | .shown e _ => e.filledQuantity
  | .unread | .working => quantity
  | _ => 0

/-- The book shows the order filled, in full but for the slack. -/
def Fate.Full (quantity : ℚ) : Fate → Prop
  | .shown e _ => quantity ≤ e.filledQuantity + eps
  | _ => False

/-- The order's fill, or the cancel of its remainder, could not be confirmed. -/
def Fate.Unconfirmed (quantity : ℚ) (answers : Answers) : Fate → Prop
  | .unknown | .unread | .working => True
  | .shown e last => e.filledQuantity < quantity ∧ remainderWorks last = true ∧ answers.remainderCancelled = false
  | _ => False

/-- The order is not known to have filled: its call raised or was declined, or its entry shows it ended with nothing
filled. -/
def Fate.NotFilled : Fate → Prop
  | .unknown | .declined => True
  | .ended e => e.filledQuantity = 0
  | _ => False

/-- An entry of an order of this quantity: it fills between none and all of it, and has its price where it shows a
fill. -/
def BookEntry.Sound (quantity : ℚ) (e : BookEntry) : Prop :=
  0 ≤ e.filledQuantity ∧ e.filledQuantity ≤ quantity ∧ (0 < e.filledQuantity → e.price.isSome = true)

instance (quantity : ℚ) (e : BookEntry) : Decidable (e.Sound quantity) :=
  inferInstanceAs (Decidable (_ ∧ _ ∧ _))

/-- The id the venue gave an order. -/
def Placement.orderId : Placement → Option String
  | .raised => none
  | .answered _ orderId _ => some orderId

/-- The order's own entries in the looks taken for it are sound; the book may list any others. -/
def Coherent (attempts : Nat) (quantity : ℚ) (answers : Answers) : Prop :=
  ∀ look ∈ firstLooks attempts answers.poll ++ firstLooks attempts answers.after, ∀ book ∈ look, ∀ e ∈ book,
    answers.placement.orderId = some e.orderId → e.Sound quantity

instance (attempts : Nat) (quantity : ℚ) (answers : Answers) : Decidable (Coherent attempts quantity answers) :=
  inferInstanceAs (Decidable (∀ look ∈ firstLooks attempts answers.poll ++ firstLooks attempts answers.after,
    ∀ book ∈ look, ∀ e ∈ book, answers.placement.orderId = some e.orderId → e.Sound quantity))

/-! ## The looks -/

theorem resolveFill_eq (orderId : String) (fallback : ℚ) (last : Option BookEntry) (looks : List BookRead) :
    resolveFill orderId fallback last looks =
      match verdict orderId last looks with
      | .filled e price => ⟨price, e.filledQuantity, some e, true⟩
      | .ended e => ⟨fallback, 0, some e, true⟩
      | .unread => ⟨fallback, 0, none, false⟩
      | .working last => ⟨fallback, 0, last, true⟩ := by
  induction looks generalizing last with
  | nil => rfl
  | cons look rest ih =>
    cases look with
    | none => rfl
    | some book =>
      unfold resolveFill verdict
      cases found : entryOf orderId book with
      | none => exact ih none
      | some e =>
        dsimp only
        cases priced : e.fillPrice with
        | some price => rfl
        | none =>
          dsimp only
          by_cases done : e.ended
          · simp [done]
          · simp only [done, Bool.false_eq_true, if_false]
            exact ih (some e)

theorem cancelUnfilled_eq (orderId : String) (fallback : ℚ) (last : Option BookEntry) (looks : List BookRead) :
    cancelUnfilled orderId fallback looks =
      match verdict orderId last looks with
      | .filled e price => (false, price, e.filledQuantity)
      | .ended _ => (true, fallback, 0)
      | _ => (false, fallback, 0) := by
  induction looks generalizing last with
  | nil => rfl
  | cons look rest ih =>
    cases look with
    | none => rfl
    | some book =>
      unfold cancelUnfilled verdict
      cases found : entryOf orderId book with
      | none => exact ih none
      | some e =>
        dsimp only
        cases priced : e.fillPrice with
        | some price => rfl
        | none =>
          dsimp only
          by_cases done : e.ended
          · simp [done]
          · simp only [done, Bool.false_eq_true, if_false]
            exact ih (some e)

/-- An entry of the order in one of the looks. -/
def Looked (orderId : String) (looks : List BookRead) (e : BookEntry) : Prop :=
  e.orderId = orderId ∧ ∃ book, some book ∈ looks ∧ e ∈ book

/-- What settles an order is its entry in a look: one with a price, or an ended one without; what does not is not
ended. -/
def Verdict.Of (orderId : String) (looks : List BookRead) : Verdict → Prop
  | .filled e price => Looked orderId looks e ∧ e.fillPrice = some price
  | .ended e => Looked orderId looks e ∧ e.fillPrice = none ∧ e.ended = true
  | .unread => True
  | .working last => last.any BookEntry.ended = false

variable {quantity : ℚ}

section

variable {orderId : String} {looks : List BookRead} {v : Verdict}

theorem Looked.cons {look : BookRead} {e : BookEntry} (looked : Looked orderId looks e) :
    Looked orderId (look :: looks) e := by
  obtain ⟨own, book, mem, isEntry⟩ := looked
  exact ⟨own, book, List.mem_cons_of_mem _ mem, isEntry⟩

theorem Verdict.Of.cons {look : BookRead} (of : v.Of orderId looks) : v.Of orderId (look :: looks) := by
  cases v with
  | filled e price => exact ⟨of.1.cons, of.2⟩
  | ended e => exact ⟨of.1.cons, of.2⟩
  | unread => trivial
  | working last => exact of

theorem verdict_of {last : Option BookEntry} (works : last.any BookEntry.ended = false)
    (looks : List BookRead) : (verdict orderId last looks).Of orderId looks := by
  induction looks generalizing last with
  | nil => exact works
  | cons look rest ih =>
    cases look with
    | none => trivial
    | some book =>
      unfold verdict
      cases found : entryOf orderId book with
      | none => exact (ih rfl).cons
      | some e =>
        have own : e.orderId = orderId := by simpa using List.find?_some found
        have looked : Looked orderId (some book :: rest) e :=
          ⟨own, book, List.mem_cons_self, List.mem_of_find?_eq_some found⟩
        dsimp only
        cases priced : e.fillPrice with
        | some price => exact ⟨looked, priced⟩
        | none =>
          dsimp only
          by_cases done : e.ended
          · rw [if_pos done]
            exact ⟨looked, priced, done⟩
          · rw [if_neg done]
            exact (ih (by simpa using done)).cons

theorem fillPrice_pos {e : BookEntry} {price : ℚ} (priced : e.fillPrice = some price) : 0 < e.filledQuantity := by
  unfold BookEntry.fillPrice at priced
  split at priced
  · assumption
  · cases priced

/-- Of sound entries a fill that is shown is a part of the order or all of it, and what ended without a price did not
fill. -/
theorem Verdict.Of.sound (of : v.Of orderId looks)
    (sound : ∀ e, Looked orderId looks e → e.Sound quantity) :
    (∀ e price, v = .filled e price → 0 < e.filledQuantity ∧ e.filledQuantity ≤ quantity) ∧
      ∀ e, v = .ended e → e.filledQuantity = 0 := by
  constructor
  · rintro e price rfl
    exact ⟨fillPrice_pos of.2, (sound e of.1).2.1⟩
  · rintro e rfl
    obtain ⟨looked, unpriced, -⟩ := of
    obtain ⟨nonneg, -, priced⟩ := sound e looked
    by_contra some_
    have positive := lt_of_le_of_ne nonneg (Ne.symm some_)
    have price := priced positive
    rw [BookEntry.fillPrice, if_pos positive] at unpriced
    rw [unpriced] at price
    cases price

end

/-! ## One order comes to its fate -/

/-- What a leg says of a fate. -/
def LegOf (quantity : ℚ) (answers : Answers) (leg : Leg) : Fate → Prop
  | .unknown => leg.kind = .failed
  | .declined => leg.kind = .rejected
  | .ended _ => leg.kind = .none
  | .unread | .working => leg.kind = .filled ∧ leg.filled = quantity ∧ leg.uncertain = true
  | .shown e last => leg.kind = .filled ∧ leg.filled = e.filledQuantity ∧
      (leg.uncertain = true ↔ e.filledQuantity < quantity ∧ remainderWorks last = true ∧
        answers.remainderCancelled = false)

/-- An order that is recorded as requested stays so. -/
theorem settle_requested {answers : Answers} {entry : Option BookEntry} {leg : Leg}
    (kind : leg.kind = .filled) (whole : leg.filled = quantity) (unsure : leg.uncertain = true) :
    (settle quantity answers entry leg).kind = .filled ∧ (settle quantity answers entry leg).filled = quantity ∧
      (settle quantity answers entry leg).uncertain = true := by
  unfold settle
  rw [if_neg]
  · exact ⟨kind, whole, unsure⟩
  · rintro ⟨-, less⟩
    exact absurd whole less.ne

/-- A fill that is shown is kept; the order is uncertain where the cancel of its remainder is not taken. -/
theorem settle_shown {answers : Answers} {entry : Option BookEntry} {leg : Leg}
    (kind : leg.kind = .filled) (sure : leg.uncertain = false) (positive : 0 < leg.filled) :
    (settle quantity answers entry leg).kind = .filled ∧ (settle quantity answers entry leg).filled = leg.filled ∧
      ((settle quantity answers entry leg).uncertain = true ↔
        leg.filled < quantity ∧ remainderWorks entry = true ∧ answers.remainderCancelled = false) := by
  unfold settle
  by_cases short : leg.filled < quantity
  · rw [if_pos ⟨positive, short⟩]
    dsimp only
    by_cases works : remainderWorks entry
    · rw [if_pos works]
      cases taken : answers.remainderCancelled with
      | true => simp [kind, sure]
      | false => simp [kind, short, works]
    · rw [if_neg works]
      simp [kind, sure, works]
  · rw [if_neg fun both => short both.2]
    simp [kind, sure, short]

theorem placeOne_as (attempts : Nat) (practice : Bool) (quantity fallback : ℚ) (answers : Answers) :
    LegOf quantity answers (placeOne attempts practice quantity fallback answers) (fate attempts answers) := by
  unfold placeOne fate
  cases placement : answers.placement with
  | raised => rfl
  | answered status orderId message =>
    dsimp only
    by_cases declined : status = "REJECTED" ∨ status = "CANCELLED"
    · rw [if_pos declined, if_pos declined]
      rfl
    · rw [if_neg declined, if_neg declined]
      unfold followOrder
      rw [resolveFill_eq]
      have polled := @verdict_of orderId none rfl (firstLooks attempts answers.poll)
      cases first : verdict orderId none (firstLooks attempts answers.poll) with
      | filled e price =>
        rw [first] at polled
        have positive := fillPrice_pos polled.2
        dsimp only
        rw [if_neg (not_le.mpr positive)]
        exact settle_shown rfl rfl positive
      | ended e =>
        rw [first] at polled
        dsimp only
        rw [if_pos le_rfl, if_pos (by simpa using polled.2.2)]
        rfl
      | unread =>
        dsimp only
        rw [if_pos le_rfl, if_neg (by simp), if_pos ⟨rfl, rfl⟩]
        exact settle_requested rfl rfl rfl
      | working last =>
        rw [first] at polled
        have works : last.any BookEntry.ended = false := polled
        dsimp only
        rw [if_pos le_rfl, if_neg (by simp [works]), if_neg (by simp), cancelUnfilled_eq orderId fallback none]
        have looked := @verdict_of orderId none rfl (firstLooks attempts answers.after)
        cases second : verdict orderId none (firstLooks attempts answers.after) with
        | filled e price =>
          rw [second] at looked
          have positive := fillPrice_pos looked.2
          dsimp only
          rw [if_pos positive]
          exact settle_shown rfl rfl positive
        | ended e =>
          dsimp only
          rw [if_neg (lt_irrefl _)]
          rfl
        | unread =>
          dsimp only
          rw [if_neg (lt_irrefl _), if_neg (by simp)]
          exact settle_requested rfl rfl rfl
        | working last' =>
          dsimp only
          rw [if_neg (lt_irrefl _), if_neg (by simp)]
          exact settle_requested rfl rfl rfl

/-- Of coherent answers a fill that is shown is a part of the order or all of it, and what ended without a price did
not fill. -/
theorem fate_of_coherent {attempts : Nat} {answers : Answers}
    (coherent : Coherent attempts quantity answers) :
    (∀ e last, fate attempts answers = .shown e last → 0 < e.filledQuantity ∧ e.filledQuantity ≤ quantity) ∧
      ∀ e, fate attempts answers = .ended e → e.filledQuantity = 0 := by
  unfold fate
  cases placement : answers.placement with
  | raised => simp
  | answered status orderId message =>
    have sound : ∀ looks, looks ⊆ firstLooks attempts answers.poll ++ firstLooks attempts answers.after →
        ∀ e, Looked orderId looks e → e.Sound quantity := by
      rintro looks taken e ⟨own, book, mem, isEntry⟩
      exact coherent (some book) (taken mem) book rfl e isEntry (by rw [placement, own]; rfl)
    have early := (@verdict_of orderId none rfl (firstLooks attempts answers.poll)).sound
      (sound _ (List.subset_append_left _ _))
    have late := (@verdict_of orderId none rfl (firstLooks attempts answers.after)).sound
      (sound _ (List.subset_append_right _ _))
    dsimp only
    split_ifs with declined
    · simp
    · cases first : verdict orderId none (firstLooks attempts answers.poll) with
      | filled e price => simpa using early.1 e price first
      | ended e => simpa using early.2 e first
      | unread => simp
      | working last =>
        cases second : verdict orderId none (firstLooks attempts answers.after) with
        | filled e price => simpa using late.1 e price second
        | ended e => simpa using late.2 e second
        | unread => simp
        | working last' => simp

/-! ## The orders of an entry -/

section

variable (attempts : Nat)

/-- The fate of an order that was sent. -/
def Sent.fate (s : Sent) : Fate := Router.fate attempts s.answers

/-- What the orders add up to. -/
def recorded (sent : List Sent) : ℚ := (sent.map fun s => (s.fate attempts).recorded s.quantity).sum

/-- The answers of every order that was sent are coherent. -/
def AllCoherent (sent : List Sent) : Prop := ∀ s ∈ sent, Coherent attempts s.quantity s.answers

instance (sent : List Sent) : Decidable (AllCoherent attempts sent) :=
  inferInstanceAs (Decidable (∀ s ∈ sent, Coherent attempts s.quantity s.answers))

/-- What the loop does with the orders it may send, after what is booked already. -/
structure Looped (slices : List ℚ) (before : Booked) (result : Except ExecutionResult Booked)
    (sent : List Sent) : Prop where
  inOrder : sent.map Sent.quantity <+: slices
  full : ∀ earlier s later, sent = earlier ++ s :: later → later ≠ [] → (s.fate attempts).Full s.quantity
  booked : ∀ after, result = .ok after →
    after.filled = before.filled + recorded attempts sent ∧ (slices ≠ [] → 0 < after.filled) ∧
      (after.brokerUncertain = true ↔ before.brokerUncertain = true ∨
        ∃ s ∈ sent, (s.fate attempts).Unconfirmed s.quantity s.answers)
  refused : ∀ answer, result = .error answer →
    before.filled ≤ 0 ∧ answer.executed = false ∧ ∀ s ∈ sent, (s.fate attempts).NotFilled

end

section

variable {attempts : Nat} {practice : Bool} {quantity fallback : ℚ} {answers : Answers}

section

variable (kind : (placeOne attempts practice quantity fallback answers).kind = .filled)
include kind

/-- The fate of an order that is filled. -/
theorem fate_of_filled :
    (∃ e last, fate attempts answers = .shown e last) ∨
      fate attempts answers = .unread ∨ fate attempts answers = .working := by
  have as := placeOne_as attempts practice quantity fallback answers
  cases is : fate attempts answers with
  | unknown =>
    rw [is] at as
    exact absurd (kind.symm.trans as) (by decide)
  | declined =>
    rw [is] at as
    exact absurd (kind.symm.trans as) (by decide)
  | ended e =>
    rw [is] at as
    exact absurd (kind.symm.trans as) (by decide)
  | unread => exact .inr (.inl rfl)
  | working => exact .inr (.inr rfl)
  | shown e last => exact .inl ⟨e, last, rfl⟩

/-- An order that is filled counts for what its fate records, and is uncertain where its fate is not confirmed. -/
theorem filled_leg :
    (placeOne attempts practice quantity fallback answers).filled = (fate attempts answers).recorded quantity ∧
      ((placeOne attempts practice quantity fallback answers).uncertain = true ↔
        (fate attempts answers).Unconfirmed quantity answers) := by
  have as := placeOne_as attempts practice quantity fallback answers
  rcases fate_of_filled kind with ⟨e, last, is⟩ | is | is
  · rw [is] at as ⊢
    exact as.2
  · rw [is] at as ⊢
    exact ⟨as.2.1, by simp [as.2.2, Fate.Unconfirmed]⟩
  · rw [is] at as ⊢
    exact ⟨as.2.1, by simp [as.2.2, Fate.Unconfirmed]⟩

end

/-- An order that is not filled counts for nothing, and is unconfirmed where its call raised. -/
theorem unfilled_leg (kind : (placeOne attempts practice quantity fallback answers).kind ≠ .filled)
    (coherent : Coherent attempts quantity answers) :
    (fate attempts answers).recorded quantity = 0 ∧ (fate attempts answers).NotFilled ∧
      ((placeOne attempts practice quantity fallback answers).kind = .failed ↔
        (fate attempts answers).Unconfirmed quantity answers) := by
  have as := placeOne_as attempts practice quantity fallback answers
  have ended := (fate_of_coherent coherent).2
  cases is : fate attempts answers with
  | unknown =>
    rw [is] at as
    exact ⟨rfl, trivial, iff_of_true as trivial⟩
  | declined =>
    rw [is] at as
    exact ⟨rfl, trivial, iff_of_false (by rw [as]; decide) id⟩
  | ended e =>
    rw [is] at as
    exact ⟨rfl, ended e is, iff_of_false (by rw [as]; decide) id⟩
  | unread =>
    rw [is] at as
    exact absurd as.1 kind
  | working =>
    rw [is] at as
    exact absurd as.1 kind
  | shown e last =>
    rw [is] at as
    exact absurd as.1 kind

end

end AdvanceTrading.Router

/-!
# The entry's orders and its trade

The loop over the orders keeps the books of `Looped`, whatever each order comes
to; the quantities it is given are whole lots below the freeze quantity that add
up to the requested one. Together: what an entry sends and what it answers are
`Accounted`.
-/

namespace AdvanceTrading.Router

/-! ## What is recorded -/

section

variable {attempts : Nat} {practice : Bool} {quantity fallback : ℚ} {answers : Answers}

/-- What counts of an order is a part of it or all of it. -/
theorem recorded_bounds (positive : 0 < quantity) (coherent : Coherent attempts quantity answers) :
    0 ≤ (fate attempts answers).recorded quantity ∧ (fate attempts answers).recorded quantity ≤ quantity := by
  cases is : fate attempts answers with
  | unknown => exact ⟨le_refl 0, positive.le⟩
  | declined => exact ⟨le_refl 0, positive.le⟩
  | ended e => exact ⟨le_refl 0, positive.le⟩
  | unread => exact ⟨positive.le, le_refl quantity⟩
  | working => exact ⟨positive.le, le_refl quantity⟩
  | shown e last =>
    obtain ⟨some_, part⟩ := (fate_of_coherent coherent).1 e last is
    exact ⟨some_.le, part⟩

/-- A filled order counts for something. -/
theorem filled_pos (positive : 0 < quantity) (coherent : Coherent attempts quantity answers)
    (kind : (placeOne attempts practice quantity fallback answers).kind = .filled) :
    0 < (placeOne attempts practice quantity fallback answers).filled := by
  rw [(filled_leg kind).1]
  rcases fate_of_filled kind with ⟨e, last, is⟩ | is | is
  · rw [is]
    exact ((fate_of_coherent coherent).1 e last is).1
  · rw [is]
    exact positive
  · rw [is]
    exact positive

/-- A confirmed order that is not short is filled in full. -/
theorem full_of_sure (kind : (placeOne attempts practice quantity fallback answers).kind = .filled)
    (sure : ¬(placeOne attempts practice quantity fallback answers).uncertain = true)
    (enough : quantity ≤ (placeOne attempts practice quantity fallback answers).filled + eps) :
    (fate attempts answers).Full quantity := by
  obtain ⟨counts, unsure⟩ := filled_leg kind
  rw [counts] at enough
  rw [unsure] at sure
  rcases fate_of_filled kind with ⟨e, last, is⟩ | is | is
  · rw [is] at enough ⊢
    exact enough
  · exact absurd (by rw [is]; trivial) sure
  · exact absurd (by rw [is]; trivial) sure

end

@[simp] theorem recorded_nil (attempts : Nat) : recorded attempts [] = 0 := rfl

@[simp] theorem recorded_cons (attempts : Nat) (s : Sent) (sent : List Sent) :
    recorded attempts (s :: sent) = (s.fate attempts).recorded s.quantity + recorded attempts sent := rfl

theorem recorded_within {attempts : Nat} {sent : List Sent} (positive : ∀ s ∈ sent, 0 < s.quantity)
    (coherent : AllCoherent attempts sent) :
    0 ≤ recorded attempts sent ∧ recorded attempts sent ≤ (sent.map Sent.quantity).sum := by
  induction sent with
  | nil => exact ⟨le_refl 0, le_refl 0⟩
  | cons s sent ih =>
    obtain ⟨nonneg, within⟩ := ih (fun t mem => positive t (List.mem_cons_of_mem _ mem))
      fun t mem => coherent t (List.mem_cons_of_mem _ mem)
    have own : 0 ≤ (s.fate attempts).recorded s.quantity ∧ (s.fate attempts).recorded s.quantity ≤ s.quantity :=
      recorded_bounds (positive s List.mem_cons_self) (coherent s List.mem_cons_self)
    rw [recorded_cons, List.map_cons, List.sum_cons]
    exact ⟨add_nonneg own.1 nonneg, add_le_add own.2 within⟩

/-! ## The loop -/

section

variable (router : OrderRouter) (venue : Venue) (signal : Signal) (answers : Nat → Answers)

theorem notOpened_executed (practice : Bool) (reasons : List Reason) (leg : Leg) :
    (notOpened practice reasons leg).executed = false := by
  unfold notOpened
  split <;> rfl

variable {router venue signal answers}

/-- The one order of a loop that ends with it. -/
theorem full_single {attempts : Nat} {only : Sent} (earlier : List Sent) (s : Sent) (later : List Sent)
    (is : [only] = earlier ++ s :: later) (more : later ≠ []) : (s.fate attempts).Full s.quantity := by
  have lengths := congrArg List.length is
  have : 0 < later.length := List.length_pos_iff.mpr more
  simp only [List.length_append, List.length_cons, List.length_nil] at lengths
  omega

theorem placeParts_looped {total n : Nat} {slices : List ℚ} {b : Booked} (positive : ∀ part ∈ slices, 0 < part)
    (nonneg : 0 ≤ b.filled)
    (coherent : AllCoherent router.fillPollAttempts (placeParts router venue signal answers total n slices b).2) :
    Looped router.fillPollAttempts slices b (placeParts router venue signal answers total n slices b).1
      (placeParts router venue signal answers total n slices b).2 := by
  induction slices generalizing n b with
  | nil =>
    unfold placeParts
    refine ⟨List.nil_prefix, fun earlier s later is => absurd is (by simp), ?_, fun answer is => by cases is⟩
    rintro _ ⟨⟩
    exact ⟨by simp, fun some_ => absurd rfl some_, by simp⟩
  | cons part rest ih =>
    have part_pos := positive part List.mem_cons_self
    unfold placeParts at coherent ⊢
    dsimp only at coherent ⊢
    by_cases unfilled : (placeOne router.fillPollAttempts venue.paper part signal.entry (answers n)).kind ≠ .filled
    · rw [if_pos unfilled] at coherent ⊢
      by_cases nothing : b.filled ≤ 0
      · rw [if_pos nothing] at coherent ⊢
        obtain ⟨-, notFilled, -⟩ := unfilled_leg unfilled (coherent _ List.mem_cons_self)
        refine ⟨by simp, full_single, fun after is => (by cases is), ?_⟩
        rintro _ ⟨⟩
        exact ⟨nothing, notOpened_executed _ _ _, by simpa [Sent.fate] using notFilled⟩
      · rw [if_neg nothing] at coherent ⊢
        obtain ⟨none_, -, failed⟩ := unfilled_leg unfilled (coherent _ List.mem_cons_self)
        refine ⟨by simp, full_single, ?_, fun answer is => by cases is⟩
        rintro _ ⟨⟩
        refine ⟨by simp [Sent.fate, none_], fun _ => not_le.mp nothing, ?_⟩
        simp [Sent.fate, failed]
    · rw [if_neg unfilled] at coherent ⊢
      have kind := not_not.mp unfilled
      obtain ⟨counts, unsure⟩ := filled_leg kind
      by_cases last : (placeOne router.fillPollAttempts venue.paper part signal.entry (answers n)).uncertain = true ∨
          (placeOne router.fillPollAttempts venue.paper part signal.entry (answers n)).filled + eps < part
      · rw [if_pos last] at coherent ⊢
        have some_ := filled_pos part_pos (coherent _ List.mem_cons_self) kind
        refine ⟨by simp, full_single, ?_, fun answer is => by cases is⟩
        rintro _ ⟨⟩
        refine ⟨by simp [Booked.add, Sent.fate, counts], fun _ => add_pos_of_nonneg_of_pos nonneg some_, ?_⟩
        simp [Booked.add, Sent.fate, unsure]
      · rw [if_neg last] at coherent ⊢
        obtain ⟨sure, long⟩ := not_or.mp last
        have first := coherent _ List.mem_cons_self
        have some_ := filled_pos part_pos first kind
        have added : 0 < (b.add (placeOne router.fillPollAttempts venue.paper part signal.entry (answers n))).filled :=
          add_pos_of_nonneg_of_pos nonneg some_
        have laterCoherent : AllCoherent router.fillPollAttempts
            (placeParts router venue signal answers total (n + 1) rest
              (b.add (placeOne router.fillPollAttempts venue.paper part signal.entry (answers n)))).2 :=
          fun s mem => coherent s (List.mem_cons_of_mem _ mem)
        have rest_pos : ∀ p ∈ rest, 0 < p := fun p mem => positive p (List.mem_cons_of_mem _ mem)
        have after := ih rest_pos added.le laterCoherent
        refine ⟨List.cons_prefix_cons.mpr ⟨rfl, after.inOrder⟩, ?_, ?_, ?_⟩
        · rintro earlier s later is more
          cases earlier with
          | nil =>
            obtain ⟨rfl, -⟩ := List.cons.inj is
            exact full_of_sure kind sure (not_lt.mp long)
          | cons e earlier =>
            exact after.full earlier s later (List.cons.inj is).2 more
        · intro done is
          obtain ⟨adds, -, unsureAfter⟩ := after.booked done is
          have sums := @recorded_within router.fillPollAttempts _ (fun s mem =>
            rest_pos _ (after.inOrder.subset (List.mem_map_of_mem mem))) laterCoherent
          refine ⟨?_, ?_, ?_⟩
          · rw [adds, recorded_cons]
            simp only [Booked.add, counts, Sent.fate]
            ring
          · intro _
            rw [adds]
            exact add_pos_of_pos_of_nonneg added sums.1
          · rw [unsureAfter]
            simp [Booked.add, Sent.fate, unsure, or_assoc]
        · intro answer is
          exact absurd (after.refused answer is).1 (not_le.mpr added)

end

/-! ## The quantities of the orders -/

/-- Whole lots, each at least one, below the freeze quantity where there is one. -/
structure Cut (lotSize : ℤ) (freeze : Option ℤ) (slices : List ℤ) : Prop where
  lots : ∀ u ∈ slices, 0 < u ∧ lotSize ∣ u
  below : ∀ f ∈ freeze, ∀ u ∈ slices, u < f

theorem sliceUnits_sum {units : ℤ} (some_ : 0 < units) (lotSize : ℤ) (freeze : Option ℤ) :
    (sliceUnits units lotSize freeze).sum = units := by
  unfold sliceUnits
  rw [if_neg (not_le.mpr some_)]
  cases is : maxSliceUnits freeze (max 1 lotSize) with
  | none => simp
  | some biggest =>
    dsimp only
    by_cases fits : units ≤ biggest
    · simp [fits]
    · rw [if_neg fits, List.sum_append, List.sum_replicate]
      have biggest_pos : 0 < biggest := by
        unfold maxSliceUnits at is
        cases freeze with
        | none => cases is
        | some freeze =>
          dsimp only at is
          split at is
          · cases is
          · cases is
            exact lt_of_lt_of_le (by omega) (le_max_left _ _)
      have quotient : ((units / biggest).toNat : ℤ) = units / biggest :=
        Int.toNat_of_nonneg (Int.ediv_nonneg some_.le biggest_pos.le)
      have tail : (if units % biggest = 0 then ([] : List ℤ) else [units % biggest]).sum = units % biggest := by
        by_cases even : units % biggest = 0
        · simp [even]
        · simp [even]
      rw [tail, nsmul_eq_mul, quotient, mul_comm]
      exact Int.mul_ediv_add_emod units biggest

theorem sliceUnits_cut {units lotSize freeze : ℤ} (some_ : 0 < units) (lot : 0 < lotSize) (whole : lotSize ∣ units)
    (more : lotSize < freeze) : Cut lotSize (some freeze) (sliceUnits units lotSize (some freeze)) := by
  have lotMax : max 1 lotSize = lotSize := max_eq_right lot
  -- the biggest order is a whole number of lots, at least one and less than the freeze quantity
  have quotient : 1 ≤ (freeze - 1) / lotSize := by
    rw [Int.le_ediv_iff_mul_le lot]
    omega
  have atLeast : lotSize ≤ (freeze - 1) / lotSize * lotSize := le_mul_of_one_le_left lot.le quotient
  have below : (freeze - 1) / lotSize * lotSize < freeze := by
    have := Int.ediv_mul_le (freeze - 1) lot.ne'
    omega
  have biggestIs : maxSliceUnits (some freeze) lotSize = some ((freeze - 1) / lotSize * lotSize) := by
    unfold maxSliceUnits
    dsimp only
    rw [if_neg (by omega), max_eq_right atLeast]
  generalize (freeze - 1) / lotSize * lotSize = biggest at atLeast below biggestIs
  have biggestWhole : lotSize ∣ biggest := by
    unfold maxSliceUnits at biggestIs
    dsimp only at biggestIs
    rw [if_neg (by omega), Option.some.injEq] at biggestIs
    rcases max_choice lotSize ((freeze - 1) / lotSize * lotSize) with is | is
    · exact ⟨1, by omega⟩
    · exact ⟨(freeze - 1) / lotSize, by rw [← biggestIs, is, mul_comm]⟩
  have cases_ : ∀ u ∈ sliceUnits units lotSize (some freeze), u = units ∧ units ≤ biggest ∨ u = biggest ∨
      u = units % biggest ∧ units % biggest ≠ 0 := by
    intro u mem
    unfold sliceUnits at mem
    rw [if_neg (not_le.mpr some_), lotMax, biggestIs] at mem
    dsimp only at mem
    by_cases fits : units ≤ biggest
    · rw [if_pos fits, List.mem_singleton] at mem
      exact Or.inl ⟨mem, fits⟩
    · rw [if_neg fits] at mem
      rcases List.mem_append.mp mem with whole_ | rest
      · exact Or.inr (Or.inl (List.eq_of_mem_replicate whole_))
      · by_cases even : units % biggest = 0
        · simp [even] at rest
        · exact Or.inr (Or.inr ⟨by simpa [even] using rest, even⟩)
  have biggest_pos : 0 < biggest := lt_of_lt_of_le lot atLeast
  constructor
  · intro u mem
    rcases cases_ u mem with ⟨rfl, -⟩ | rfl | ⟨rfl, uneven⟩
    · exact ⟨some_, whole⟩
    · exact ⟨biggest_pos, biggestWhole⟩
    · exact ⟨lt_of_le_of_ne (Int.emod_nonneg _ biggest_pos.ne') (Ne.symm uneven),
        (by rw [Int.emod_def]; exact dvd_sub whole (biggestWhole.mul_right _))⟩
  · rintro f ⟨⟩ u mem
    rcases cases_ u mem with ⟨rfl, fits⟩ | rfl | ⟨rfl, -⟩
    · omega
    · exact below
    · exact (Int.emod_lt_of_pos _ biggest_pos).trans below

/-- The orders of an entry of whole lots: whole lots, below the freeze quantity, which add up to it. -/
theorem parts_of_lots {router : OrderRouter} {quantity : ℚ} {units lotSize : ℤ}
    (is : quantity = units) (some_ : 0 < units) (lot : 0 < lotSize) (whole : lotSize ∣ units)
    (more : ∀ f ∈ router.freezeQuantity, lotSize < f) :
    ∃ slices : List ℤ, parts router quantity lotSize = slices.map (fun u : ℤ => (u : ℚ)) ∧
      slices.sum = units ∧ Cut lotSize router.freezeQuantity slices := by
  unfold parts
  cases freezes : router.freezeQuantity with
  | none => exact ⟨[units], by simp [is], by simp, by simp [some_, whole], by simp⟩
  | some freeze =>
    have larger : lotSize < freeze := more freeze freezes
    refine ⟨sliceUnits units lotSize (some freeze), ?_, sliceUnits_sum some_ _ _, sliceUnits_cut some_ lot whole larger⟩
    dsimp only
    rw [if_neg (by omega), is, Py.roundHalfEven_intCast]
    cases cut : sliceUnits units lotSize (some freeze) with
    | nil =>
      have sums := sliceUnits_sum some_ lotSize (some freeze)
      rw [cut, List.sum_nil] at sums
      omega
    | cons first others => rfl

/-! ## The entry -/

/-- What an entry sends and what it answers. -/
structure Accounted (router : OrderRouter) (quantity : ℚ) (lotSize : ℤ) (routed : Routed) : Prop where
  lots : ∀ s ∈ routed.sent, ∃ lots : ℤ, 0 < lots ∧ s.quantity = lots * lotSize
  below : ∀ f ∈ router.freezeQuantity, ∀ s ∈ routed.sent, s.quantity < f
  within : (routed.sent.map Sent.quantity).sum ≤ quantity
  /-- An order with one after it was filled in full. -/
  full : ∀ earlier s later, routed.sent = earlier ++ s :: later → later ≠ [] →
    (s.fate router.fillPollAttempts).Full s.quantity
  executed : routed.result.executed = true → ∃ trade, routed.result.trade = some trade ∧
    trade.quantity = recorded router.fillPollAttempts routed.sent ∧ 0 < trade.quantity ∧ trade.quantity ≤ quantity ∧
    (routed.result.partialFill = true ↔ trade.quantity + eps < quantity) ∧
    ∀ s ∈ routed.sent, (s.fate router.fillPollAttempts).Unconfirmed s.quantity s.answers →
      routed.result.brokerUncertain = true
  notExecuted : routed.result.executed = false → ∀ s ∈ routed.sent, (s.fate router.fillPollAttempts).NotFilled

theorem prefix_sum_le {sent slices : List ℚ} (cut : sent <+: slices)
    (positive : ∀ part ∈ slices, 0 < part) : sent.sum ≤ slices.sum := by
  obtain ⟨rest, rfl⟩ := cut
  rw [List.sum_append]
  exact le_add_of_nonneg_right (List.sum_nonneg fun part mem => (positive part (List.mem_append_right _ mem)).le)

/-- An entry that sends no order and is not executed. -/
theorem accounted_unsent (router : OrderRouter) {quantity : ℚ} (some_ : 0 < quantity) (lotSize : ℤ)
    (reasons : List Reason) :
    Accounted router quantity lotSize { result := { executed := false, reasons } } where
  lots := by simp
  below := by simp
  within := by simpa using some_.le
  full := by simp
  executed := by simp
  notExecuted := by simp

/-- An entry whose orders are whole lots below the freeze quantity that add up to it, after its loop. -/
theorem accounted_sent {router : OrderRouter} {venue : Venue} {quantity : ℚ} {units lotSize : ℤ}
    (notes notes' : List Reason) (is : quantity = units) {slices : List ℤ}
    (sums : slices.sum = units) (lot : 0 < lotSize) (some_ : slices ≠ [])
    (cut : Cut lotSize router.freezeQuantity slices) {result : Except ExecutionResult Booked}
    {sent : List Sent} (coherent : AllCoherent router.fillPollAttempts sent)
    (looped : Looped router.fillPollAttempts (slices.map fun u : ℤ => (u : ℚ)) { reasons := notes } result sent) :
    Accounted router quantity lotSize
      { result := match result with
          | .error answer => answer
          | .ok b => opened router venue quantity notes' slices.length b
        sent } := by
  have isSlice : ∀ s ∈ sent, ∃ u ∈ slices, (u : ℚ) = s.quantity := fun s mem =>
    List.mem_map.mp (looped.inOrder.subset (List.mem_map_of_mem mem))
  have slice_pos : ∀ part ∈ slices.map fun u : ℤ => (u : ℚ), 0 < part := by
    intro part mem
    obtain ⟨u, uMem, rfl⟩ := List.mem_map.mp mem
    exact_mod_cast (cut.lots u uMem).1
  have within : (sent.map Sent.quantity).sum ≤ quantity := by
    have total : (slices.map fun u : ℤ => (u : ℚ)).sum = quantity := by
      rw [is, ← sums]
      exact (map_list_sum (Int.castRingHom ℚ) slices).symm
    exact (prefix_sum_le looped.inOrder slice_pos).trans_eq total
  have sent_pos : ∀ s ∈ sent, 0 < s.quantity := fun s mem =>
    slice_pos _ (looped.inOrder.subset (List.mem_map_of_mem mem))
  constructor
  · intro s mem
    obtain ⟨u, uMem, is⟩ := isSlice s mem
    obtain ⟨positive, lots, rfl⟩ := cut.lots u uMem
    refine ⟨lots, pos_of_mul_pos_right positive lot.le, ?_⟩
    rw [← is]
    push_cast
    ring
  · intro f isFreeze s mem
    obtain ⟨u, uMem, is⟩ := isSlice s mem
    rw [← is]
    exact_mod_cast cut.below f isFreeze u uMem
  · exact within
  · exact looped.full
  · intro done
    cases result with
    | error answer => exact absurd done (by simp [(looped.refused answer rfl).2.1])
    | ok b =>
      obtain ⟨adds, positive, unsure⟩ := looped.booked b rfl
      have filled : b.filled = recorded router.fillPollAttempts sent := by simpa using adds
      refine ⟨_, rfl, filled, positive ?_, ?_, by simp [opened], fun s mem lost => ?_⟩
      · rwa [Ne, List.map_eq_nil_iff]
      · exact filled.trans_le ((recorded_within sent_pos coherent).2.trans within)
      · exact unsure.mpr (Or.inr ⟨s, mem, lost⟩)
  · intro failed
    cases result with
    | error answer => exact (looped.refused answer rfl).2.2
    | ok b => cases failed

/-- Whatever the venue answers, what an entry of whole lots sends and what it answers are accounted for. -/
theorem entry_accounted (router : OrderRouter) (venue : Venue) (signal : Signal)
    (answers : Nat → Answers) (quantity : ℚ) (notes : List Reason) (lotSize lots : ℤ)
    (lot : 0 < lotSize) (some_ : 0 < lots) (whole : quantity = lots * lotSize)
    (freeze : ∀ f ∈ router.freezeQuantity, lotSize < f) (routed : Routed)
    (is : route router venue signal answers quantity notes lotSize = some routed)
    (coherent : AllCoherent router.fillPollAttempts routed.sent) :
    Accounted router quantity lotSize routed := by
  have units : quantity = ((lots * lotSize : ℤ) : ℚ) := by
    rw [whole]
    push_cast
    ring
  have units_pos : 0 < lots * lotSize := mul_pos some_ lot
  have quantity_pos : 0 < quantity := by
    rw [units]
    exact_mod_cast units_pos
  unfold route at is
  split at is
  · cases is
  · cases is
    exact accounted_unsent router quantity_pos lotSize _
  · dsimp only at is
    obtain ⟨slices, cutInto, sums, cut⟩ := parts_of_lots units units_pos lot ⟨lots, mul_comm _ _⟩ freeze
    have slice_pos : ∀ part ∈ slices.map fun u : ℤ => (u : ℚ), 0 < part := by
      intro part mem
      obtain ⟨u, uMem, rfl⟩ := List.mem_map.mp mem
      exact_mod_cast (cut.lots u uMem).1
    have notEmpty : slices ≠ [] := by
      rintro rfl
      rw [List.sum_nil] at sums
      omega
    rw [cutInto, List.length_map] at is
    split at is
    · rename_i _ notes' _ _ answer sent ran
      cases is
      have looped := @placeParts_looped router venue signal answers slices.length 1 _
        { reasons := notes' } slice_pos le_rfl
        (by rw [ran]; exact coherent)
      rw [ran] at looped
      exact @accounted_sent _ venue _ _ _ notes' notes' units _ sums lot notEmpty cut _ _ coherent looped
    · rename_i _ notes' _ _ b sent ran
      cases is
      have looped := @placeParts_looped router venue signal answers slices.length 1 _
        { reasons := notes' } slice_pos le_rfl
        (by rw [ran]; exact coherent)
      rw [ran] at looped
      exact @accounted_sent _ venue _ _ _ notes' notes' units _ sums lot notEmpty cut _ _ coherent looped

/-! Ten lots of 25 below a freeze quantity of 100, in a book that lists the day's orders: the first two orders fill, of
the third 50 units do and the rest cannot be cancelled, and no fourth order is sent. -/

/-- A router with a freeze quantity, on market orders. -/
def frozen : OrderRouter := { product := some "INTRADAY", orderStyle := some "MARKET", freezeQuantity := some 100 }

/-- An entry of an order, at 200. -/
def entryAt (orderId status : String) (filled : ℚ) : BookEntry :=
  { orderId, filledQuantity := filled, averagePrice := some 200, status }

/-- The orders of a day; one of 1,800 units came before the entry's. -/
def dayBook : List BookEntry :=
  [entryAt "o0" "COMPLETE" 1800, entryAt "o1" "COMPLETE" 75, entryAt "o2" "COMPLETE" 75, entryAt "o3" "OPEN" 50]

def restNotCancelled (n : Nat) : Answers where
  placement := .answered "PENDING" ((dayBook.map BookEntry.orderId).getD n "") none
  poll _ := some (dayBook.take (n + 1))
  remainderCancelled := false

/-- Its entry of 250 units. -/
def frozenEntry : Option Routed := route frozen {} ⟨"NIFTY", true, 200⟩ restNotCancelled 250 [] 25

theorem frozenEntry_some : frozenEntry.isSome = true := by with_unfolding_all rfl

theorem frozen_entry_accounted :
    Accounted frozen 250 25 (frozenEntry.get frozenEntry_some) ∧
      (frozenEntry.get frozenEntry_some).result.trade = some ⟨200, 200⟩ ∧
      (frozenEntry.get frozenEntry_some).result.brokerUncertain = true :=
  ⟨entry_accounted frozen {} ⟨"NIFTY", true, 200⟩ restNotCancelled 250 [] 25 10 (by decide) (by decide) (by norm_num)
    (by decide) _ (Option.some_get frozenEntry_some).symm (by decide +kernel), by decide +kernel, by decide +kernel⟩

/-- An order whose book shows 1/2000000000 of a unit less than its 25. -/
def nearlyFilled : Nat → Answers := fun _ =>
  { placement := .answered "PENDING" "o1" none, poll := fun _ => some [entryAt "o1" "COMPLETE" (25 - 5 / 10 ^ 10)] }

/-- The entry of that order. -/
def nearlyFilledEntry : Option Routed := route frozen {} ⟨"NIFTY", true, 200⟩ nearlyFilled 25 [] 25

theorem nearlyFilledEntry_some : nearlyFilledEntry.isSome = true := by with_unfolding_all rfl

/-- The trade is smaller than the requested quantity, by less than the slack: the fill is not called partial. -/
theorem smaller_not_partial :
    AllCoherent frozen.fillPollAttempts (nearlyFilledEntry.get nearlyFilledEntry_some).sent ∧
      (nearlyFilledEntry.get nearlyFilledEntry_some).result.executed = true ∧
      (nearlyFilledEntry.get nearlyFilledEntry_some).result.trade = some ⟨25 - 5 / 10 ^ 10, 200⟩ ∧
      (25 - 5 / 10 ^ 10 : ℚ) < 25 ∧
      (nearlyFilledEntry.get nearlyFilledEntry_some).result.partialFill = false :=
  ⟨by decide +kernel, by decide +kernel, by decide +kernel, by norm_num, by decide +kernel⟩

end AdvanceTrading.Router
