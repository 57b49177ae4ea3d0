import AdvanceTrading.Misc.Processes
import AdvanceTrading.Misc.Rounding
import AdvanceTrading.Misc.Rows
import Mathlib.Data.List.Nodup

/-!
# Creator payouts

Model of `settle_charge`, `earnings`, `request_payout` and `settle_payout`
(`app/marketplace/billing.py:132-276`) for the charges and payouts of one creator, each call as the
statements that read and the one that commits. Amounts are stored with two decimals. Listings,
subscriptions, the destination, audit rows and notices are left out.
-/

namespace AdvanceTrading.Marketplace

/-- A `Numeric(18, 2)`. -/
abbrev Amount := { x : ℚ // Py.round2 x = x }

/-- The creator's part that `split` leaves of an amount. -/
def splitNet (amount feePct : ℚ) : Amount :=
  ⟨Py.round2 (amount - Py.round2 (amount * feePct / 100)), Py.round2_round2 _⟩

inductive ChargeStatus where
  | opened
  | paid
  | void
  deriving DecidableEq

/-- A `MarketplaceChargeRecord`. -/
structure Charge where
  id : ℕ
  creatorNet : Amount
  status : ChargeStatus := .opened
  payoutId : Option ℕ := none
  deriving DecidableEq

inductive PayoutStatus where
  | requested
  | paid
  | rejected
  deriving DecidableEq

/-- A `MarketplacePayoutRecord`; beside it, for the statements only, the charges it was requested for and how often it
was settled. -/
structure Payout where
  id : ℕ
  amount : ℚ
  status : PayoutStatus := .requested
  items : List ℕ
  settled : ℕ := 0
  deriving DecidableEq

/-- A payout that is requested or paid. -/
def Payout.live (p : Payout) : Bool := p.status = .requested || p.status = .paid

/-- The creator's rows. `rejected` is the payout whose rejection was committed last, if nothing was since. -/
structure Books where
  charges : List Charge := []
  payouts : List Payout := []
  nextPayout : ℕ := 1
  rejected : Option ℕ := none
  deriving DecidableEq

/-- The sum of `creator_net` over some of the charges. -/
def netOf (part : Charge → Bool) (charges : List Charge) : ℚ :=
  ((charges.filter part).map fun c => (c.creatorNet : ℚ)).sum

/-- A charge that was paid and is in no payout. -/
def Charge.available (c : Charge) : Bool := c.status = .paid && c.payoutId.isNone

/-! ## Earnings -/

/-- The amounts `earnings` answers. -/
structure Earnings where
  net : ℚ
  available : ℚ
  pendingPayout : ℚ
  paidOut : ℚ

/-- The charge is paid and its payout is one of those with the status. -/
def Books.inPayout (s : Books) (status : PayoutStatus) (c : Charge) : Bool :=
  c.status = .paid && c.payoutId.any fun id => s.payouts.any fun p => p.id = id && p.status = status

def earnings (s : Books) : Earnings where
  net := Py.round2 (netOf (·.status = .paid) s.charges)
  available := Py.round2 (netOf Charge.available s.charges)
  pendingPayout := Py.round2 (netOf (s.inPayout .requested) s.charges)
  paidOut := Py.round2 (netOf (s.inPayout .paid) s.charges)

/-! ## Calls -/

/-- Where a session is in its call. -/
inductive Point where
  | idle
  /-- `settle_charge` has loaded an open charge. -/
  | confirming (charge : ℕ)
  /-- `request_payout` has found no open request, -/
  | requesting
  /-- and selected the charges. -/
  | selected (charges : List ℕ) (amount : ℚ)
  /-- `settle_payout` has loaded a requested payout, -/
  | settling (payout : ℕ)
  /-- and marked it paid, -/
  | paying (payout : ℕ)
  /-- or rejected, with the charges that carry it. -/
  | rejecting (payout : ℕ) (charges : List ℕ)

inductive Action where
  | settleCharge (charge : ℕ)
  | requestPayout
  | select (minPayout : ℚ)
  | settlePayout (payout : ℕ)
  /-- The operator marks the payout, with or without a transfer reference. -/
  | mark (paid reference : Bool)
  | commit
  | fail

/-- The charge is PAID. -/
def Books.confirm (s : Books) (charge : ℕ) : Books :=
  { s with
    charges := Rows.setWhere (fun c => c.id = charge) (fun c => { c with status := .paid }) s.charges
    rejected := none }

/-- A new payout carries the charges. -/
def Books.request (s : Books) (charges : List ℕ) (amount : ℚ) : Books where
  charges := Rows.setWhere (fun c => c.id ∈ charges) (fun c => { c with payoutId := some s.nextPayout }) s.charges
  payouts := s.payouts ++ [{ id := s.nextPayout, amount := amount, items := charges }]
  nextPayout := s.nextPayout + 1
  rejected := none

def Payout.settle (status : PayoutStatus) (p : Payout) : Payout := { p with status := status, settled := p.settled + 1 }

def Books.pay (s : Books) (payout : ℕ) : Books :=
  { s with
    payouts := Rows.setWhere (fun p => p.id = payout) (Payout.settle .paid) s.payouts
    rejected := none }

/-- The charges are available again. -/
def Books.reject (s : Books) (payout : ℕ) (charges : List ℕ) : Books :=
  { s with
    charges := Rows.setWhere (fun c => c.id ∈ charges) (fun c => { c with payoutId := none }) s.charges
    payouts := Rows.setWhere (fun p => p.id = payout) (Payout.settle .rejected) s.payouts
    rejected := some payout }

/-- A call that refuses goes back to `idle`. -/
def callStatement (s : Books) (p : Point) : Action → Option (Books × Point)
  | .settleCharge charge =>
      match p with
      | .idle =>
          match s.charges.find? fun c => c.id = charge with
          | none => none
          | some c => some (s, if c.status = .opened then .confirming charge else .idle)
      | _ => none
  | .requestPayout =>
      match p with
      | .idle => some (s, if s.payouts.any fun p => p.status = .requested then .idle else .requesting)
      | _ => none
  | .select minPayout =>
      match p with
      | .requesting =>
          let rows := s.charges.filter Charge.available
          let amount := Py.round2 (rows.map fun c => (c.creatorNet : ℚ)).sum
          some (s, if amount ≤ 0 ∨ amount < minPayout then .idle else .selected (rows.map (·.id)) amount)
      | _ => none
  | .settlePayout payout =>
      match p with
      | .idle =>
          match s.payouts.find? fun p => p.id = payout with
          | none => none
          | some p => some (s, if p.status = .requested then .settling payout else .idle)
      | _ => none
  | .mark paid reference =>
      match p with
      | .settling payout =>
          some (s,
            if paid then if reference then .paying payout else .idle
            else .rejecting payout ((s.charges.filter fun c => c.payoutId = some payout).map (·.id)))
      | _ => none
  | .commit =>
      match p with
      | .confirming charge => some (s.confirm charge, .idle)
      | .selected charges amount => some (s.request charges amount, .idle)
      | .paying payout => some (s.pay payout, .idle)
      | .rejecting payout charges => some (s.reject payout charges, .idle)
      | _ => none
  | .fail => some (s, .idle)

/-- A new purchase: its price and the platform's fee. -/
structure Purchase where
  charge : ℕ
  amount : ℚ
  feePct : ℚ

def purchase (s : Books) (event : Purchase) : Option Books :=
  if event.charge ∈ s.charges.map (·.id) then none
  else some { s with charges := s.charges ++
    [{ id := event.charge, creatorNet := splitNet event.amount event.feePct }] }

/-- Any number of sessions, each with one call after the other. -/
def calls (n : ℕ) : Machine (Procs Books Point n) (ProcEvent n Action Purchase) :=
  Procs.interleave callStatement purchase n

/-- Nothing was sold. -/
def opening (n : ℕ) : Procs Books Point n := ⟨{}, fun _ => .idle⟩

/-! ## What is to hold -/

/-- Earnings are paid out once, and nothing is lost. -/
structure PaidOutOnce (s : Books) : Prop where
  /-- A charge is in one payout that is requested or paid at most. -/
  once : ∀ c ∈ s.charges, ∀ p ∈ s.payouts, ∀ q ∈ s.payouts, p.live = true → q.live = true → c.id ∈ p.items →
    c.id ∈ q.items → p = q
  /-- Such a payout's amount is the sum over the charges that carry its id. -/
  amount : ∀ p ∈ s.payouts, p.live = true → p.amount = netOf (fun c => c.payoutId = some p.id) s.charges
  /-- No charge carries a rejected payout, -/
  unclaimed : ∀ p ∈ s.payouts, p.status = .rejected → ∀ c ∈ s.charges, c.payoutId ≠ some p.id
  /-- and when it is rejected its charges are available again. -/
  released : ∀ id ∈ s.rejected, ∀ p ∈ s.payouts, p.id = id → ∀ charge ∈ p.items, ∃ c ∈ s.charges, c.id = charge ∧
    c.available = true
  settled : ∀ p ∈ s.payouts, p.settled ≤ 1
  conserved : (earnings s).available + (earnings s).pendingPayout + (earnings s).paidOut = (earnings s).net

/-- What is committed rests on rows nobody changed: the selected charges are in no payout, the payout is requested. -/
def CurrentAt (s : Books) (p : Point) : Action → Prop
  | .commit =>
      match p with
      | .selected charges _ => ∀ c ∈ s.charges, c.id ∈ charges → c.payoutId = none
      | .paying payout | .rejecting payout _ => ∀ p ∈ s.payouts, p.id = payout → p.status = .requested
      | _ => True
  | _ => True

instance decidableCurrentAt (s : Books) (p : Point) (action : Action) : Decidable (CurrentAt s p action) :=
  match action, p with
  | .commit, .selected .. => inferInstanceAs (Decidable (∀ _ ∈ _, _ → _))
  | .commit, .paying _ | .commit, .rejecting .. => inferInstanceAs (Decidable (∀ _ ∈ _, _ → _))
  | .commit, .idle | .commit, .confirming _ | .commit, .requesting | .commit, .settling _ => isTrue trivial
  | .settleCharge _, _ | .requestPayout, _ | .select _, _ | .settlePayout _, _ | .mark .., _
  | .fail, _ => isTrue trivial

def Current {n : ℕ} (w : Procs Books Point n) : ProcEvent n Action Purchase → Prop
  | .act who action => CurrentAt w.shared (w.point who) action
  | .outside _ => True

instance decidableCurrent {n : ℕ} (w : Procs Books Point n)
    (e : ProcEvent n Action Purchase) : Decidable (Current w e) :=
  match e with
  | .act who action => decidableCurrentAt w.shared (w.point who) action
  | .outside _ => isTrue trivial

end AdvanceTrading.Marketplace

/-!
# Earnings are paid out once

The books stay sound while every commit rests on current rows: a payout that is requested or paid
owns exactly the charges that carry its id, and a session that is about to reject one holds exactly
these. A request over charges that were put into a payout meanwhile, and a payout that is settled
twice, break this; each has a run below.
-/

namespace AdvanceTrading.Marketplace

/-! ## Sums over charges -/

section Sums

variable {part other : Charge → Bool} {charges more : List Charge} {ids : List ℕ}

theorem netOf_congr (same : ∀ c ∈ charges, part c = other c) : netOf part charges = netOf other charges := by
  rw [netOf, netOf, List.filter_congr same]

/-- Sums over parts that do not meet add up. -/
theorem netOf_add (apart : ∀ c ∈ charges, part c = true → other c = false) :
    netOf part charges + netOf other charges = netOf (fun c => part c || other c) charges := by
  induction charges with
  | nil => simp [netOf]
  | cons c charges ih =>
    have rest := ih fun d mem => apart d (List.mem_cons_of_mem _ mem)
    have here := apart c List.mem_cons_self
    simp only [netOf] at rest ⊢
    cases first : part c with
    | true => simp [first, here first, ← rest, add_assoc]
    | false =>
      cases second : other c with
      | true => simp [first, second, ← rest, add_left_comm]
      | false => simp [first, second, ← rest]

/-- A sum of stored amounts has two decimals. -/
theorem round2_netOf : Py.round2 (netOf part charges) = netOf part charges := by
  apply Py.round2_sum
  intro x mem
  obtain ⟨c, -, rfl⟩ := List.mem_map.mp mem
  exact c.creatorNet.2

/-- An update that leaves ids and amounts leaves the sum over some ids. -/
theorem netOf_setWhere {guard : Charge → Bool} {write : Charge → Charge} (sameId : ∀ c, (write c).id = c.id)
    (sameNet : ∀ c, (write c).creatorNet = c.creatorNet) :
    netOf (fun c => c.id ∈ ids) (Rows.setWhere guard write charges) = netOf (fun c => c.id ∈ ids) charges := by
  induction charges with
  | nil => rfl
  | cons c charges ih =>
    have head (d : Charge) (rest : List Charge) :
        netOf (fun c => c.id ∈ ids) (d :: rest) =
          (if d.id ∈ ids then (d.creatorNet : ℚ) else 0) + netOf (fun c => c.id ∈ ids) rest := by
      by_cases mem : d.id ∈ ids
      · simp [netOf, mem]
      · simp [netOf, mem]
    show netOf _ ((if guard c = true then write c else c) :: Rows.setWhere guard write charges) = _
    rw [head, head, ih]
    split_ifs
    · rw [sameNet]
    · rename_i mem other
      rw [sameId] at mem
      exact absurd mem other
    · rename_i mem other
      rw [sameId] at mem
      exact absurd other mem
    · rfl
    · rfl
    · rfl

theorem eq_of_id (distinct : (charges.map (·.id)).Nodup) {c d : Charge} (first : c ∈ charges)
    (second : d ∈ charges) (same : c.id = d.id) : c = d :=
  List.inj_on_of_nodup_map distinct first second same

end Sums

/-! ## Sound books -/

/-- A charge of this id is paid. -/
def PaidIn (charges : List Charge) (id : ℕ) : Prop := ∃ c ∈ charges, c.id = id ∧ c.status = .paid

/-- Ids are distinct; a payout that is requested or paid owns exactly the charges that carry its id, and these are paid;
what was rejected last is available. -/
structure Sound (s : Books) : Prop where
  ids : (s.charges.map (·.id)).Nodup
  payoutIds : (s.payouts.map (·.id)).Nodup
  below : ∀ p ∈ s.payouts, p.id < s.nextPayout
  carried : ∀ p ∈ s.payouts, p.live = true → ∀ c ∈ s.charges, c.payoutId = some p.id ↔ c.id ∈ p.items
  amount : ∀ p ∈ s.payouts, p.live = true → p.amount = netOf (fun c => c.id ∈ p.items) s.charges
  owned : ∀ c ∈ s.charges, ∀ id, c.payoutId = some id → c.status = .paid ∧ ∃ p ∈ s.payouts, p.id = id ∧ p.live = true
  items : ∀ p ∈ s.payouts, ∀ i ∈ p.items, PaidIn s.charges i
  settled : ∀ p ∈ s.payouts, p.settled = if p.status = .requested then 0 else 1
  released : ∀ id ∈ s.rejected, ∀ p ∈ s.payouts, p.id = id → ∀ i ∈ p.items, ∃ c ∈ s.charges,
    c.id = i ∧ c.available = true

/-- What a session knows of the books. -/
def Knows (s : Books) : Point → Prop
  | .selected charges amount => (∀ i ∈ charges, PaidIn s.charges i) ∧ amount = netOf (fun c => c.id ∈ charges) s.charges
  | .settling payout | .paying payout => payout ∈ s.payouts.map (·.id)
  | .rejecting payout charges =>
      payout ∈ s.payouts.map (·.id) ∧
        ∀ p ∈ s.payouts, p.id = payout → p.status = .requested → ∀ i, i ∈ charges ↔ i ∈ p.items
  | _ => True

/-- How books go on: paid charges stay paid and keep their amounts, a requested payout stays as it is until it is
settled. -/
structure Grows (s s' : Books) : Prop where
  paid : ∀ i, PaidIn s.charges i → PaidIn s'.charges i
  net : ∀ ids : List ℕ, (∀ i ∈ ids, PaidIn s.charges i) →
    netOf (fun c => c.id ∈ ids) s'.charges = netOf (fun c => c.id ∈ ids) s.charges
  ids : ∀ id ∈ s.payouts.map (·.id), id ∈ s'.payouts.map (·.id)
  requested : ∀ p ∈ s'.payouts, p.status = .requested → p.id ∈ s.payouts.map (·.id) → p ∈ s.payouts

variable {s s' : Books} {p : Point}

theorem Grows.refl (s : Books) : Grows s s := ⟨fun _ => id, fun _ _ => rfl, fun _ => id, fun _ mem _ _ => mem⟩

theorem Knows.later (knows : Knows s p) (grows : Grows s s') : Knows s' p := by
  cases p with
  | selected charges amount =>
    exact ⟨fun i mem => grows.paid i (knows.1 i mem), knows.2.trans (grows.net charges knows.1).symm⟩
  | settling payout => exact grows.ids payout knows
  | paying payout => exact grows.ids payout knows
  | rejecting payout charges =>
    refine ⟨grows.ids payout knows.1, fun p mem same requested => ?_⟩
    exact knows.2 p (grows.requested p mem requested (same ▸ knows.1)) same requested
  | idle => trivial
  | confirming charge => trivial
  | requesting => trivial

/-! ## Updates of charges -/

section Updates

variable {guard : Charge → Bool} {write : Charge → Charge}

theorem paidIn_setWhere (sameId : ∀ c, (write c).id = c.id) (kept : ∀ c, c.status = .paid → (write c).status = .paid)
    {charges : List Charge} {i : ℕ} (paid : PaidIn charges i) : PaidIn (Rows.setWhere guard write charges) i := by
  obtain ⟨c, mem, same, isPaid⟩ := paid
  refine ⟨if guard c = true then write c else c, List.mem_map.mpr ⟨c, mem, rfl⟩, ?_, ?_⟩
  · split_ifs
    · rw [sameId, same]
    · exact same
  · split_ifs
    · exact kept c isPaid
    · exact isPaid

/-- An update of charges alone, of no ids or amounts. -/
theorem grows_setWhere (charges : s'.charges = Rows.setWhere guard write s.charges) (sameId : ∀ c, (write c).id = c.id)
    (sameNet : ∀ c, (write c).creatorNet = c.creatorNet) (kept : ∀ c, c.status = .paid → (write c).status = .paid)
    (ids : ∀ id ∈ s.payouts.map (·.id), id ∈ s'.payouts.map (·.id))
    (requested : ∀ p ∈ s'.payouts, p.status = .requested → p.id ∈ s.payouts.map (·.id) → p ∈ s.payouts) :
    Grows s s' where
  paid := fun i paid => by
    rw [charges]
    exact paidIn_setWhere sameId kept paid
  net := fun ids _ => by
    rw [charges]
    exact netOf_setWhere sameId sameNet
  ids := ids
  requested := requested

end Updates

theorem confirm_keeps (sound : Sound s) (charge : ℕ) : Sound (s.confirm charge) ∧ Grows s (s.confirm charge) := by
  have grows : Grows s (s.confirm charge) :=
    grows_setWhere rfl (fun _ => rfl) (fun _ => rfl) (fun _ _ => rfl) (fun _ => id) fun _ mem _ _ => mem
  refine ⟨⟨?_, sound.payoutIds, sound.below, ?_, ?_, ?_, ?_, sound.settled, nofun⟩, grows⟩
  · rw [show (s.confirm charge).charges.map (·.id) = s.charges.map (·.id) from Rows.map_setWhere fun _ => rfl]
    exact sound.ids
  · intro p isPayout live c mem
    obtain ⟨old, inOld, ⟨-, rfl⟩ | ⟨-, rfl⟩⟩ := Rows.mem_setWhere mem
    · exact sound.carried p isPayout live old inOld
    · exact sound.carried p isPayout live c inOld
  · intro p isPayout live
    rw [sound.amount p isPayout live, grows.net _ (sound.items p isPayout)]
  · intro c mem id carries
    obtain ⟨old, inOld, ⟨-, rfl⟩ | ⟨-, rfl⟩⟩ := Rows.mem_setWhere mem
    · exact ⟨rfl, (sound.owned old inOld id carries).2⟩
    · exact sound.owned c inOld id carries
  · exact fun p isPayout i mem => grows.paid i (sound.items p isPayout i mem)

/-- A request for charges that are in no payout. -/
theorem request_keeps (sound : Sound s) {charges : List ℕ} {amount : ℚ} (knows : Knows s (.selected charges amount))
    (free : ∀ c ∈ s.charges, c.id ∈ charges → c.payoutId = none) :
    Sound (s.request charges amount) ∧ Grows s (s.request charges amount) := by
  have grows : Grows s (s.request charges amount) := by
    refine grows_setWhere rfl (fun _ => rfl) (fun _ => rfl) (fun _ paid => paid) ?_ ?_
    · intro id mem
      rw [Books.request, List.map_append]
      exact List.mem_append_left _ mem
    · intro p mem _ known
      rcases List.mem_append.mp mem with before | new
      · exact before
      · obtain ⟨q, isPayout, same⟩ := List.mem_map.mp known
        have below := sound.below q isPayout
        rw [same, List.mem_singleton.mp new] at below
        exact absurd below (lt_irrefl _)
  have old (p) (mem : p ∈ (s.request charges amount).payouts) : p ∈ s.payouts ∨
      p = { id := s.nextPayout, amount := amount, items := charges } :=
    (List.mem_append.mp mem).imp id List.mem_singleton.mp
  -- A charge the request takes is in no payout yet, so no earlier payout owns it.
  have apart (p) (isPayout : p ∈ s.payouts) (live : p.live = true) (c) (mem : c ∈ s.charges) (taken : c.id ∈ charges) :
      c.id ∉ p.items := by
    rw [← sound.carried p isPayout live c mem, free c mem taken]
    exact nofun
  refine ⟨⟨?_, ?_, ?_, ?_, ?_, ?_, ?_, ?_, nofun⟩, grows⟩
  · rw [show (s.request charges amount).charges.map (·.id) = s.charges.map (·.id) from Rows.map_setWhere fun _ => rfl]
    exact sound.ids
  · rw [Books.request, List.map_append, List.nodup_append]
    refine ⟨sound.payoutIds, List.nodup_singleton _, ?_⟩
    intro id mem new isNew same
    obtain ⟨p, isPayout, rfl⟩ := List.mem_map.mp mem
    have below := sound.below p isPayout
    rw [same, List.mem_singleton.mp isNew] at below
    exact absurd below (lt_irrefl _)
  · intro p mem
    rcases old p mem with before | rfl
    · exact Nat.lt_succ_of_lt (sound.below p before)
    · exact Nat.lt_succ_self _
  · intro p mem live c inCharges
    rcases old p mem with before | rfl
    · have below := sound.below p before
      obtain ⟨c, inOld, ⟨taken, rfl⟩ | ⟨-, rfl⟩⟩ := Rows.mem_setWhere inCharges
      · have notOwned := apart p before live c inOld (by simpa using taken)
        refine ⟨fun carries => ?_, fun owns => absurd owns notOwned⟩
        rw [← Option.some.inj carries] at below
        exact absurd below (lt_irrefl _)
      · exact sound.carried p before live _ inOld
    · obtain ⟨c, inOld, ⟨taken, rfl⟩ | ⟨other, rfl⟩⟩ := Rows.mem_setWhere inCharges
      · exact ⟨fun _ => by simpa using taken, fun _ => rfl⟩
      · refine ⟨fun carries => ?_, fun owns => ?_⟩
        · obtain ⟨-, p, isPayout, same, -⟩ := sound.owned _ inOld _ carries
          have below := sound.below p isPayout
          rw [same] at below
          exact absurd below (lt_irrefl _)
        · rw [decide_eq_false_iff_not] at other
          exact absurd owns other
  · intro p mem live
    rcases old p mem with before | rfl
    · rw [sound.amount p before live, grows.net _ (sound.items p before)]
    · rw [grows.net charges knows.1]
      exact knows.2
  · intro c inCharges id carries
    obtain ⟨c, inOld, ⟨taken, rfl⟩ | ⟨-, rfl⟩⟩ := Rows.mem_setWhere inCharges
    · cases carries
      obtain ⟨d, isCharge, same, paid⟩ := knows.1 c.id (by simpa using taken)
      rw [eq_of_id sound.ids isCharge inOld same] at paid
      exact ⟨paid, _, List.mem_append_right _ (List.mem_singleton_self _), rfl, rfl⟩
    · obtain ⟨paid, p, isPayout, same, live⟩ := sound.owned _ inOld id carries
      exact ⟨paid, p, List.mem_append_left _ isPayout, same, live⟩
  · intro p mem i isItem
    rcases old p mem with before | rfl
    · exact grows.paid i (sound.items p before i isItem)
    · exact grows.paid i (knows.1 i isItem)
  · intro p mem
    rcases old p mem with before | rfl
    · exact sound.settled p before
    · rfl

/-! ## Settlements -/

section Settlements

variable {payout : ℕ} {status : PayoutStatus}

theorem live_of_requested {p : Payout} (requested : p.status = .requested) : p.live = true := by
  rw [Payout.live, requested]
  rfl

/-- A settlement leaves the ids. -/
theorem ids_settle (payouts : List Payout) :
    (Rows.setWhere (fun p => p.id = payout) (Payout.settle status) payouts).map (·.id) = payouts.map (·.id) :=
  Rows.map_setWhere fun _ => rfl

/-- A payout that is settled leaves the requested ones. -/
theorem requested_of_settle (settled : status ≠ .requested) {p : Payout} {payouts : List Payout}
    (mem : p ∈ Rows.setWhere (fun p => p.id = payout) (Payout.settle status) payouts)
    (requested : p.status = .requested) : p ∈ payouts := by
  obtain ⟨old, inOld, ⟨-, rfl⟩ | ⟨-, rfl⟩⟩ := Rows.mem_setWhere mem
  · exact absurd requested settled
  · exact inOld

section

variable (sound : Sound s) (current : ∀ p ∈ s.payouts, p.id = payout → p.status = .requested)
include sound current

/-- A requested payout is settled once. -/
theorem settled_once (settles : status ≠ .requested) :
    ∀ p ∈ Rows.setWhere (fun p => p.id = payout) (Payout.settle status) s.payouts,
      p.settled = if p.status = .requested then 0 else 1 := by
  intro p mem
  obtain ⟨old, inOld, ⟨here, rfl⟩ | ⟨-, rfl⟩⟩ := Rows.mem_setWhere mem
  · have before := sound.settled old inOld
    rw [if_pos (current old inOld (by simpa using here))] at before
    show old.settled + 1 = if status = .requested then 0 else 1
    rw [before, if_neg settles]
  · exact sound.settled p inOld

theorem pay_keeps : Sound (s.pay payout) ∧ Grows s (s.pay payout) := by
  have grows : Grows s (s.pay payout) :=
    ⟨fun _ => id, fun _ _ => rfl, fun _ mem => (ids_settle s.payouts).symm ▸ mem,
      fun p mem requested _ => requested_of_settle (by decide) mem requested⟩
  -- A payout that is live was live before, with the same charges.
  have before (p) (mem : p ∈ (s.pay payout).payouts) (live : p.live = true) :
      ∃ old ∈ s.payouts, old.live = true ∧ old.id = p.id ∧ old.items = p.items ∧ old.amount = p.amount := by
    obtain ⟨old, inOld, ⟨here, rfl⟩ | ⟨-, rfl⟩⟩ := Rows.mem_setWhere mem
    · exact ⟨old, inOld, live_of_requested (current old inOld (by simpa using here)), rfl, rfl, rfl⟩
    · exact ⟨p, inOld, live, rfl, rfl, rfl⟩
  refine ⟨⟨sound.ids, ?_, ?_, ?_, ?_, ?_, ?_, settled_once sound current (by decide), nofun⟩, grows⟩
  · rw [Books.pay, ids_settle]
    exact sound.payoutIds
  · intro p mem
    obtain ⟨old, inOld, ⟨-, rfl⟩ | ⟨-, rfl⟩⟩ := Rows.mem_setWhere mem
    · exact sound.below old inOld
    · exact sound.below p inOld
  · intro p mem live c inCharges
    obtain ⟨old, inOld, wasLive, ids, items, -⟩ := before p mem live
    rw [← ids, ← items]
    exact sound.carried old inOld wasLive c inCharges
  · intro p mem live
    obtain ⟨old, inOld, wasLive, -, items, amount⟩ := before p mem live
    rw [← items, ← amount]
    exact sound.amount old inOld wasLive
  · intro c inCharges id carries
    obtain ⟨paid, p, isPayout, same, live⟩ := sound.owned c inCharges id carries
    refine ⟨paid, _, List.mem_map.mpr ⟨p, isPayout, rfl⟩, ?_, ?_⟩
    · split_ifs
      · exact same
      · exact same
    · split_ifs
      · rfl
      · exact live
  · intro p mem i isItem
    obtain ⟨old, inOld, ⟨-, rfl⟩ | ⟨-, rfl⟩⟩ := Rows.mem_setWhere mem
    · exact sound.items old inOld i isItem
    · exact sound.items p inOld i isItem

/-- A payout is rejected with the charges that carry it. -/
theorem reject_keeps {charges : List ℕ} (knows : Knows s (.rejecting payout charges)) :
    Sound (s.reject payout charges) ∧ Grows s (s.reject payout charges) := by
  have grows : Grows s (s.reject payout charges) :=
    grows_setWhere rfl (fun _ => rfl) (fun _ => rfl) (fun _ paid => paid)
      (fun _ mem => (ids_settle s.payouts).symm ▸ mem)
      fun p mem requested _ => requested_of_settle (by decide) mem requested
  obtain ⟨row, isRow, isPayout⟩ := List.mem_map.mp knows.1
  -- The charges that are released are those that carry the payout.
  have requested := current row isRow isPayout
  have carries (c) (mem : c ∈ s.charges) : c.id ∈ charges ↔ c.payoutId = some payout := by
    rw [knows.2 row isRow isPayout requested, ← sound.carried row isRow (live_of_requested requested) c mem, isPayout]
  -- A payout that is live is another one, which was not changed.
  have other (p) (mem : p ∈ (s.reject payout charges).payouts)
      (live : p.live = true) : p ∈ s.payouts ∧ p.id ≠ payout := by
    obtain ⟨old, inOld, ⟨-, rfl⟩ | ⟨elsewhere, rfl⟩⟩ := Rows.mem_setWhere mem
    · cases live
    · exact ⟨inOld, by simpa using elsewhere⟩
  refine ⟨⟨?_, ?_, ?_, ?_, ?_, ?_, ?_, settled_once sound current (by decide), ?_⟩, grows⟩
  · rw [show (s.reject payout charges).charges.map (·.id) = s.charges.map (·.id) from Rows.map_setWhere fun _ => rfl]
    exact sound.ids
  · rw [Books.reject, ids_settle]
    exact sound.payoutIds
  · intro p mem
    obtain ⟨old, inOld, ⟨-, rfl⟩ | ⟨-, rfl⟩⟩ := Rows.mem_setWhere mem
    · exact sound.below old inOld
    · exact sound.below p inOld
  · intro p mem live c inCharges
    obtain ⟨isPayout, elsewhere⟩ := other p mem live
    obtain ⟨c, inOld, ⟨released, rfl⟩ | ⟨-, rfl⟩⟩ := Rows.mem_setWhere inCharges
    · refine ⟨nofun, fun owns => ?_⟩
      have here := (carries c inOld).mp (by simpa using released)
      rw [(sound.carried p isPayout live c inOld).mpr owns] at here
      exact absurd (Option.some.inj here) elsewhere
    · exact sound.carried p isPayout live _ inOld
  · intro p mem live
    rw [sound.amount p (other p mem live).1 live, grows.net _ (sound.items p (other p mem live).1)]
  · intro c inCharges id carried
    obtain ⟨c, inOld, ⟨-, rfl⟩ | ⟨kept, rfl⟩⟩ := Rows.mem_setWhere inCharges
    · cases carried
    · obtain ⟨paid, p, isPayout, same, live⟩ := sound.owned _ inOld id carried
      have elsewhere : p.id ≠ payout := by
        intro here
        rw [← same, here] at carried
        exact absurd ((carries _ inOld).mpr carried) (by simpa using kept)
      exact ⟨paid, p, List.mem_map.mpr ⟨p, isPayout, if_neg (by simpa using elsewhere)⟩, same, live⟩
  · intro p mem i isItem
    apply grows.paid
    obtain ⟨old, inOld, ⟨-, rfl⟩ | ⟨-, rfl⟩⟩ := Rows.mem_setWhere mem
    · exact sound.items old inOld i isItem
    · exact sound.items p inOld i isItem
  · rintro id ⟨⟩ p mem here i isItem
    obtain ⟨old, inOld, ⟨-, rfl⟩ | ⟨elsewhere, rfl⟩⟩ := Rows.mem_setWhere mem
    · obtain ⟨c, isCharge, rfl, paid⟩ := sound.items old inOld i isItem
      have owns : c.payoutId = some payout := by
        rw [(sound.carried old inOld (live_of_requested (current old inOld here)) c isCharge).mpr isItem]
        exact congrArg some here
      refine ⟨{ c with payoutId := none }, List.mem_map.mpr ⟨c, isCharge, if_pos ?_⟩, rfl, ?_⟩
      · simpa using (carries c isCharge).mpr owns
      · simp [Charge.available, paid]
    · exact absurd here (by simpa using elsewhere)

end

end Settlements

theorem purchase_keeps {event : Purchase} (sound : Sound s) (bought : purchase s event = some s') :
    Sound s' ∧ Grows s s' := by
  unfold purchase at bought
  split at bought
  · cases bought
  rename_i fresh
  cases bought
  have grows : Grows s { s with
      charges := s.charges ++ [{ id := event.charge, creatorNet := splitNet event.amount event.feePct }] } := by
    refine ⟨?_, ?_, fun _ => id, fun _ mem _ _ => mem⟩
    · rintro i ⟨c, mem, paid⟩
      exact ⟨c, List.mem_append_left _ mem, paid⟩
    · intro ids paid
      have other : event.charge ∉ ids := by
        intro mem
        obtain ⟨c, isCharge, same, -⟩ := paid _ mem
        exact fresh (List.mem_map.mpr ⟨c, isCharge, same⟩)
      simp [netOf, other]
  have old (c) (mem : c ∈ s.charges ++ [{ id := event.charge, creatorNet := splitNet event.amount event.feePct }])
      (carries : c.payoutId ≠ none) : c ∈ s.charges := by
    rcases List.mem_append.mp mem with before | new
    · exact before
    · rw [List.mem_singleton.mp new] at carries
      exact absurd rfl carries
  refine ⟨⟨?_, sound.payoutIds, sound.below, ?_, ?_, ?_, ?_, sound.settled, ?_⟩, grows⟩
  · rw [List.map_append, List.nodup_append]
    refine ⟨sound.ids, List.nodup_singleton _, ?_⟩
    intro id mem new isNew same
    rw [same, List.mem_singleton.mp isNew] at mem
    exact fresh mem
  · intro p isPayout live c mem
    rcases List.mem_append.mp mem with before | new
    · exact sound.carried p isPayout live c before
    · rw [List.mem_singleton.mp new]
      refine ⟨nofun, fun owns => ?_⟩
      obtain ⟨c, isCharge, same, -⟩ := sound.items p isPayout _ owns
      exact absurd (List.mem_map.mpr ⟨c, isCharge, same⟩) fresh
  · intro p isPayout live
    rw [sound.amount p isPayout live, grows.net _ (sound.items p isPayout)]
  · intro c mem id carries
    exact sound.owned c (old c mem (by rw [carries]; nofun)) id carries
  · exact fun p isPayout i isItem => grows.paid i (sound.items p isPayout i isItem)
  · intro id here p isPayout same i isItem
    obtain ⟨c, isCharge, released⟩ := sound.released id here p isPayout same i isItem
    exact ⟨c, List.mem_append_left _ isCharge, released⟩

/-! ## Runs -/

/-- The amount of the charges a request selects is the sum over their ids. -/
theorem netOf_selected {charges : List Charge} (distinct : (charges.map (·.id)).Nodup) (part : Charge → Bool) :
    netOf (fun c => c.id ∈ (charges.filter part).map (·.id)) charges = netOf part charges := by
  apply netOf_congr
  intro c mem
  rw [Bool.eq_iff_iff, decide_eq_true_iff, List.mem_map]
  constructor
  · rintro ⟨d, selected, same⟩
    obtain ⟨isCharge, meets⟩ := List.mem_filter.mp selected
    rwa [← eq_of_id distinct isCharge mem same]
  · exact fun meets => ⟨c, List.mem_filter.mpr ⟨mem, meets⟩, rfl⟩

/-- A statement whose commit rests on current rows keeps the books sound. -/
theorem statement_keeps {action : Action} {next : Point} (sound : Sound s) (knows : Knows s p)
    (current : CurrentAt s p action) (ran : callStatement s p action = some (s', next)) :
    (Sound s' ∧ Grows s s') ∧ Knows s' next := by
  have same : Sound s ∧ Grows s s := ⟨sound, .refl s⟩
  cases action with
  | settleCharge charge =>
    cases p with
    | idle =>
      simp only [callStatement] at ran
      cases found : s.charges.find? fun c => c.id = charge with
      | none => simp [found] at ran
      | some c =>
        simp only [found, Option.some.injEq, Prod.mk.injEq] at ran
        obtain ⟨rfl, rfl⟩ := ran
        refine ⟨same, ?_⟩
        split_ifs <;> trivial
    | _ => cases ran
  | requestPayout =>
    cases p with
    | idle =>
      cases ran
      refine ⟨same, ?_⟩
      split_ifs <;> trivial
    | _ => cases ran
  | select minPayout =>
    cases p with
    | requesting =>
      cases ran
      refine ⟨same, ?_⟩
      split_ifs
      · trivial
      · refine ⟨?_, ?_⟩
        · intro i mem
          obtain ⟨c, selected, rfl⟩ := List.mem_map.mp mem
          obtain ⟨isCharge, available⟩ := List.mem_filter.mp selected
          exact ⟨c, isCharge, rfl, by simpa using (Bool.and_eq_true_iff.mp available).1⟩
        · show Py.round2 (netOf Charge.available s.charges) = _
          rw [round2_netOf, netOf_selected sound.ids]
    | _ => cases ran
  | settlePayout payout =>
    cases p with
    | idle =>
      simp only [callStatement] at ran
      cases found : s.payouts.find? fun p => p.id = payout with
      | none => simp [found] at ran
      | some p =>
        simp only [found, Option.some.injEq, Prod.mk.injEq] at ran
        obtain ⟨rfl, rfl⟩ := ran
        refine ⟨same, ?_⟩
        split_ifs
        · exact List.mem_map.mpr ⟨p, List.mem_of_find?_eq_some found, by simpa using List.find?_some found⟩
        · trivial
    | _ => cases ran
  | mark paid reference =>
    cases p with
    | settling payout =>
      cases ran
      refine ⟨same, ?_⟩
      split_ifs
      · exact knows
      · trivial
      · refine ⟨knows, fun p isPayout here requested i => ?_⟩
        -- The rows that carry the payout are those it was requested for.
        have live := live_of_requested requested
        rw [List.mem_map]
        constructor
        · rintro ⟨c, selected, rfl⟩
          obtain ⟨isCharge, carries⟩ := List.mem_filter.mp selected
          rw [← sound.carried p isPayout live c isCharge, here]
          simpa using carries
        · intro isItem
          obtain ⟨c, isCharge, rfl, -⟩ := sound.items p isPayout i isItem
          have carries := (sound.carried p isPayout live c isCharge).mpr isItem
          exact ⟨c, List.mem_filter.mpr ⟨isCharge, by simpa [here] using carries⟩, rfl⟩
    | _ => cases ran
  | commit =>
    cases p with
    | confirming charge =>
      cases ran
      exact ⟨confirm_keeps sound charge, trivial⟩
    | selected charges amount =>
      cases ran
      exact ⟨request_keeps sound knows current, trivial⟩
    | paying payout =>
      cases ran
      exact ⟨pay_keeps sound current, trivial⟩
    | rejecting payout charges =>
      cases ran
      exact ⟨reject_keeps sound current knows, trivial⟩
    | _ => cases ran
  | fail =>
    cases ran
    exact ⟨same, trivial⟩

/-- The books are sound, and every session knows them. -/
structure Kept {n : ℕ} (w : Procs Books Point n) : Prop where
  sound : Sound w.shared
  knows : ∀ who, Knows w.shared (w.point who)

theorem kept_opening (n : ℕ) : Kept (opening n) where
  sound := ⟨List.nodup_nil, List.nodup_nil, nofun, nofun, nofun, nofun, nofun, nofun, nofun⟩
  knows := fun _ => trivial

theorem step_keeps {n : ℕ} {w t : Procs Books Point n} {e : ProcEvent n Action Purchase}
    (kept : Kept w) (current : Current w e) (stepped : (calls n).step w e = some t) : Kept t := by
  cases e with
  | act who action =>
    obtain ⟨shared, next, ran, rfl⟩ := Procs.act_eq stepped
    obtain ⟨⟨sound, grows⟩, knows⟩ := statement_keeps kept.sound (kept.knows who) current ran
    exact ⟨sound, Procs.forall_move (fun q _ => (kept.knows q).later grows) knows⟩
  | outside event =>
    obtain ⟨shared, bought, rfl⟩ := Procs.outside_eq stepped
    obtain ⟨sound, grows⟩ := purchase_keeps kept.sound bought
    exact ⟨sound, fun who => (kept.knows who).later grows⟩

/-! ## Sound books are paid out once -/

theorem inPayout_iff {status : PayoutStatus} {c : Charge} :
    s.inPayout status c = true ↔ c.status = .paid ∧ ∃ p ∈ s.payouts, c.payoutId = some p.id ∧ p.status = status := by
  cases carries : c.payoutId with
  | none => simp [Books.inPayout, carries]
  | some id =>
    simp only [Books.inPayout, carries, Option.any_some, Bool.and_eq_true, decide_eq_true_iff, List.any_eq_true,
      Option.some.injEq]
    constructor
    · rintro ⟨paid, p, isPayout, rfl, same⟩
      exact ⟨paid, p, isPayout, rfl, same⟩
    · rintro ⟨paid, p, isPayout, rfl, same⟩
      exact ⟨paid, p, isPayout, rfl, same⟩

theorem eq_of_payoutId (sound : Sound s) {p q : Payout} (first : p ∈ s.payouts)
    (second : q ∈ s.payouts) (same : p.id = q.id) : p = q :=
  List.inj_on_of_nodup_map sound.payoutIds first second same

/-- Every paid charge is available, in a requested payout or in a paid one. -/
theorem Sound.conserved (sound : Sound s) :
    (earnings s).available + (earnings s).pendingPayout + (earnings s).paidOut = (earnings s).net := by
  have parts (c) (mem : c ∈ s.charges) :
      (Charge.available c || s.inPayout .requested c || s.inPayout .paid c) = decide (c.status = .paid) := by
    rw [Bool.eq_iff_iff, Bool.or_eq_true, Bool.or_eq_true, inPayout_iff, inPayout_iff, decide_eq_true_iff]
    constructor
    · rintro ((available | pending) | out)
      · simpa using (Bool.and_eq_true_iff.mp available).1
      · exact pending.1
      · exact out.1
    · intro paid
      cases carries : c.payoutId with
      | none => exact .inl (.inl (by simp [Charge.available, paid, carries]))
      | some id =>
        obtain ⟨-, p, isPayout, rfl, live⟩ := sound.owned c mem id carries
        rcases Bool.or_eq_true_iff.mp live with requested | settled
        · exact .inl (.inr ⟨paid, p, isPayout, rfl, by simpa using requested⟩)
        · exact .inr ⟨paid, p, isPayout, rfl, by simpa using settled⟩
  have apart (c : Charge) (pending : s.inPayout .requested c = true) : s.inPayout .paid c = false := by
    rw [← Bool.not_eq_true]
    intro out
    obtain ⟨-, p, first, carries, requested⟩ := inPayout_iff.mp pending
    obtain ⟨-, q, second, carries', settled⟩ := inPayout_iff.mp out
    rw [carries] at carries'
    rw [eq_of_payoutId sound first second (Option.some.inj carries'), settled] at requested
    cases requested
  have free (status) (c : Charge) (available : c.available = true) : s.inPayout status c = false := by
    rw [← Bool.not_eq_true]
    intro out
    obtain ⟨-, p, -, carries, -⟩ := inPayout_iff.mp out
    simp [Charge.available, carries] at available
  show Py.round2 _ + Py.round2 _ + Py.round2 _ = Py.round2 _
  rw [round2_netOf, round2_netOf, round2_netOf, round2_netOf, netOf_add, netOf_add]
  · exact netOf_congr parts
  · intro c _ either
    rcases Bool.or_eq_true_iff.mp either with available | pending
    · exact free .paid c available
    · exact apart c pending
  · exact fun c _ available => free .requested c available

theorem Sound.paidOutOnce (sound : Sound s) : PaidOutOnce s where
  once := by
    intro c mem p isPayout q isPayout' live live' owns owns'
    have first := (sound.carried p isPayout live c mem).mpr owns
    have second := (sound.carried q isPayout' live' c mem).mpr owns'
    rw [first] at second
    exact eq_of_payoutId sound isPayout isPayout' (Option.some.inj second)
  amount := by
    intro p isPayout live
    rw [sound.amount p isPayout live]
    apply netOf_congr
    intro c mem
    rw [decide_eq_decide, sound.carried p isPayout live c mem]
  unclaimed := by
    intro p isPayout rejected c mem carries
    obtain ⟨-, q, isPayout', same, live⟩ := sound.owned c mem p.id carries
    rw [eq_of_payoutId sound isPayout' isPayout same, Payout.live, rejected] at live
    cases live
  released := sound.released
  settled := by
    intro p isPayout
    rw [sound.settled p isPayout]
    split_ifs <;> omega
  conserved := sound.conserved

/-- While every request commits over charges that are in no payout and every settlement commits on a payout that is
still requested, earnings are paid out once. -/
theorem earnings_paid_once (n : ℕ) {w : Procs Books Point n} {events : List (ProcEvent n Action Purchase)}
    (current : (calls n).Meets Current (opening n) events) (ran : (calls n).run (opening n) events = some w) :
    PaidOutOnce w.shared := by
  have kept : Kept w :=
    (calls n).run_invariant (fun _ _ _ kept current stepped => step_keeps kept current stepped)
      (kept_opening n) current ran
  exact kept.sound.paidOutOnce

/-- Two charges are sold and paid. -/
def soldRun : List (ProcEvent 2 Action Purchase) :=
  [.outside ⟨1, 100, 10⟩, .outside ⟨2, 50, 10⟩, .act 0 (.settleCharge 1), .act 1 (.settleCharge 2), .act 0 .commit,
    .act 1 .commit]

/-- The first request is rejected, the second one is paid. -/
def rejectedThenPaidRun : List (ProcEvent 2 Action Purchase) :=
  soldRun ++ [.act 0 .requestPayout, .act 0 (.select 100), .act 0 .commit, .act 1 (.settlePayout 1),
    .act 1 (.mark false false), .act 1 .commit, .act 0 .requestPayout, .act 0 (.select 100), .act 0 .commit,
    .act 1 (.settlePayout 2), .act 1 (.mark true true), .act 1 .commit]

theorem earnings_paid_once_twice :
    ∃ w, (calls 2).run (opening 2) rejectedThenPaidRun = some w ∧ PaidOutOnce w.shared ∧
      w.shared.payouts = [⟨1, 135, .rejected, [1, 2], 1⟩, ⟨2, 135, .paid, [1, 2], 1⟩] := by
  have paid : ((calls 2).run (opening 2) rejectedThenPaidRun).map (fun w => w.shared.payouts) =
      some [⟨1, 135, .rejected, [1, 2], 1⟩, ⟨2, 135, .paid, [1, 2], 1⟩] := by decide +kernel
  obtain ⟨w, ran, payouts⟩ := Option.map_eq_some_iff.mp paid
  exact ⟨w, ran, earnings_paid_once 2 (by decide +kernel) ran, payouts⟩

/-- Both sessions request a payout of the same charges. -/
def requestedTwiceRun : List (ProcEvent 2 Action Purchase) :=
  soldRun ++ [.act 0 .requestPayout, .act 1 .requestPayout, .act 0 (.select 100), .act 1 (.select 100), .act 0 .commit,
    .act 1 .commit]

/-- One session pays a payout, another one that loaded it before rejects it. -/
def paidAndRejectedRun : List (ProcEvent 2 Action Purchase) :=
  soldRun ++ [.act 0 .requestPayout, .act 0 (.select 100), .act 0 .commit, .act 0 (.settlePayout 1),
    .act 1 (.settlePayout 1),
    .act 0 (.mark true true), .act 0 .commit, .act 1 (.mark false false), .act 1 .commit]

/-- Charges in two payouts, and a payout that is paid and rejected. -/
theorem charges_paid_out_twice :
    (∃ w, (calls 2).run (opening 2) requestedTwiceRun = some w ∧ ¬ PaidOutOnce w.shared) ∧
      ∃ w, (calls 2).run (opening 2) paidAndRejectedRun = some w ∧ ¬ PaidOutOnce w.shared := by
  have requested : ((calls 2).run (opening 2) requestedTwiceRun).map
      (fun w => (w.shared.payouts, netOf (fun c => c.payoutId = some 1) w.shared.charges)) =
      some ([⟨1, 135, .requested, [1, 2], 0⟩, ⟨2, 135, .requested, [1, 2], 0⟩], 0) := by decide +kernel
  have settled : ((calls 2).run (opening 2) paidAndRejectedRun).map (fun w => w.shared.payouts) =
      some [⟨1, 135, .rejected, [1, 2], 2⟩] := by decide +kernel
  constructor
  · obtain ⟨w, ran, rows⟩ := Option.map_eq_some_iff.mp requested
    obtain ⟨payouts, carried⟩ := Prod.mk.inj rows
    refine ⟨w, ran, fun once => ?_⟩
    have amount := once.amount ⟨1, 135, .requested, [1, 2], 0⟩ (by simp [payouts]) rfl
    rw [carried] at amount
    exact absurd amount (by decide +kernel)
  · obtain ⟨w, ran, payouts⟩ := Option.map_eq_some_iff.mp settled
    refine ⟨w, ran, fun once => ?_⟩
    have atMost := once.settled ⟨1, 135, .rejected, [1, 2], 2⟩ (by simp [payouts])
    exact absurd atMost (by decide)

end AdvanceTrading.Marketplace
