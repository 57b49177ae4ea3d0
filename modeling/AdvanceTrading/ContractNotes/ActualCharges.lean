import AdvanceTrading.ContractNotes.Matching
import AdvanceTrading.Misc.Shares

/-!
# Actual charges

Where every leg is of one trade that is a candidate for its note, and a trade's legs are all in one
note, the notes give each trade the charges of its own legs in any order. Nothing less does, whatever
the charges: a leg is matched to one trade at most, and the note that comes last decides what a trade
has, so what is not in that note is lost.
-/

namespace AdvanceTrading.ContractNotes

variable {upper : String → String} {trades : List Trade} {notes : List Note} {t : Trade} {n : Note}

/-- Each leg is of one trade, which is a candidate for its note; a trade's legs are in one note, its
profit before charges has two decimals, and a trade without legs has no charges. -/
structure Separate (trades : List Trade) (notes : List Note) : Prop where
  oneOwner : ∀ n ∈ notes, ∀ leg ∈ n.legs, ∀ t ∈ trades, ∀ u ∈ trades, t.owns leg = true → u.owns leg = true → t = u
  inWindow : ∀ n ∈ notes, ∀ leg ∈ n.legs, ∀ t ∈ trades, t.owns leg = true → n.candidate t.toPosition = true
  oneNote : ∀ t ∈ trades, ∀ n ∈ notes, ∀ m ∈ notes, (∃ leg ∈ n.legs, t.owns leg = true) →
    (∃ leg ∈ m.legs, t.owns leg = true) → n.id = m.id
  whole : ∀ t ∈ trades, ∀ n ∈ notes, (∃ leg ∈ n.legs, t.owns leg = true) → ∀ gross ∈ t.gross, Py.round2 gross = gross
  untouched : ∀ t ∈ trades, (∀ n ∈ notes, ∀ leg ∈ n.legs, t.owns leg = false) → t.charges = 0 ∧ t.pnl = t.gross

/-- What every set of trades and notes is: ids are distinct, the trades are closed, and each leg is of one of them. -/
structure Given (trades : List Trade) (notes : List Note) : Prop where
  ids : (trades.map (·.id)).Nodup
  noteIds : (notes.map (·.id)).Nodup
  closed : ∀ t ∈ trades, t.exitTime.isSome = true ∧ t.exitPrice.isSome = true
  known : ∀ n ∈ notes, ∀ leg ∈ n.legs, ∃ t ∈ trades, t.owns leg = true

/-- A sum of charges has two decimals. -/
theorem round2_charges (legs : List Leg) :
    Py.round2 (legs.map fun leg => (leg.charges : ℚ)).sum = (legs.map fun leg => (leg.charges : ℚ)).sum := by
  apply Py.round2_sum
  intro x mem
  obtain ⟨leg, -, rfl⟩ := List.mem_map.mp mem
  exact leg.charges.2.1

theorem Given.eq_of_id (given : Given trades notes) {u : Trade} (first : t ∈ trades)
    (second : u ∈ trades) (same : t.id = u.id) : t = u :=
  List.inj_on_of_nodup_map given.ids first second same

/-! ## The condition is enough -/

section Enough

/-- A note gives a trade the legs of its orders. -/
theorem given_legs (all : Given trades notes) (separate : Separate trades notes)
    (isNote : n ∈ notes) (isTrade : t ∈ trades) :
    (given upper (trades.map (·.toPosition)) n t.id).map (·.leg) = n.legs.filter t.owns := by
  have owned : ∀ leg ∈ n.legs, ∃ p ∈ (trades.map (·.toPosition)).filter n.candidate, p.owns leg = true := by
    intro leg mem
    obtain ⟨u, isTrade, owns⟩ := all.known n isNote leg mem
    have inWindow := separate.inWindow n isNote leg mem u isTrade owns
    exact ⟨u.toPosition, List.mem_filter.mpr ⟨List.mem_map.mpr ⟨u, isTrade, rfl⟩, inWindow⟩, owns⟩
  rw [given, matches_of_owned owned]
  -- A leg's match is to the one trade that has its order.
  have own (leg) (mem : leg ∈ n.legs) : ∃ m, orderMatch ((trades.map (·.toPosition)).filter n.candidate) leg = some m ∧
      m.leg = leg ∧ (m.tradeId = t.id ↔ t.owns leg = true) := by
    obtain ⟨p, isCandidate, owns⟩ := owned leg mem
    obtain ⟨m, matched⟩ := Option.isSome_iff_exists.mp (orderMatch_isSome isCandidate owns)
    obtain ⟨sameLeg, q, isCandidate', same, owns'⟩ := orderMatch_some matched
    obtain ⟨u, isTrade', rfl⟩ := List.mem_map.mp (List.mem_filter.mp isCandidate').1
    refine ⟨m, matched, sameLeg, ?_⟩
    rw [← same]
    constructor
    · intro sameId
      rwa [all.eq_of_id isTrade isTrade' sameId.symm]
    · intro ownsT
      rw [separate.oneOwner n isNote leg mem t isTrade u isTrade' ownsT owns']
  have listed := own
  show ((n.legs.filterMap (orderMatch _)).filter _).map _ = _
  generalize n.legs = legs at listed
  induction legs with
  | nil => rfl
  | cons leg legs ih =>
    have rest := ih fun other mem => listed other (List.mem_cons_of_mem _ mem)
    obtain ⟨m, matched, sameLeg, isOwn⟩ := listed leg List.mem_cons_self
    rw [List.filterMap_cons, matched]
    by_cases owns : t.owns leg = true
    · simp only [List.filter_cons, isOwn.mpr owns, owns, decide_true, if_true, List.map_cons, rest, sameLeg]
    · have other : m.tradeId ≠ t.id := fun same => owns (isOwn.mp same)
      simp only [List.filter_cons, other, owns, decide_false, Bool.false_eq_true, if_false, rest]

theorem given_nil_iff (all : Given trades notes) (separate : Separate trades notes)
    (isNote : n ∈ notes) (isTrade : t ∈ trades) :
    given upper (trades.map (·.toPosition)) n t.id = [] ↔ ∀ leg ∈ n.legs, t.owns leg = false := by
  rw [← List.map_eq_nil_iff (f := fun m : Match => m.leg), given_legs all separate isNote isTrade,
    List.filter_eq_nil_iff]
  simp only [Bool.not_eq_true]

/-- A trade's own legs are those of the note that has them. -/
theorem ownLegs_eq (all : Given trades notes) (separate : Separate trades notes)
    (isNote : n ∈ notes) (isTrade : t ∈ trades) (some_ : ∃ leg ∈ n.legs, t.owns leg = true) :
    (allLegs notes).filter t.owns = n.legs.filter t.owns := by
  obtain ⟨before, after, rfl⟩ := List.append_of_mem isNote
  have noteIds := all.noteIds
  rw [List.map_append, List.map_cons] at noteIds
  obtain ⟨-, rest, apart⟩ := List.nodup_append.mp noteIds
  have none_ (part : List Note) (sub : ∀ m ∈ part, m ∈ before ++ n :: after) (other : ∀ m ∈ part, m.id ≠ n.id) :
      (allLegs part).filter t.owns = [] := by
    rw [List.filter_eq_nil_iff]
    intro leg mem owns
    obtain ⟨m, isPart, inNote⟩ := List.mem_flatMap.mp mem
    exact other m isPart (separate.oneNote t isTrade m (sub m isPart) n isNote ⟨leg, inNote, owns⟩ some_)
  have first := none_ before (fun m mem => List.mem_append_left _ mem)
    fun m mem => apart m.id (List.mem_map.mpr ⟨m, mem, rfl⟩) n.id List.mem_cons_self
  have last := none_ after (fun m mem => List.mem_append_right _ (List.mem_cons_of_mem _ mem)) fun m mem same =>
    (List.nodup_cons.mp rest).1 (List.mem_map.mpr ⟨m, mem, same⟩)
  rw [allLegs] at first last
  rw [allLegs, List.flatMap_append, List.flatMap_cons, List.filter_append, List.filter_append,
    first, last, List.nil_append,
    List.append_nil]

/-- What all notes make of a trade, in any order. -/
theorem final_eq (all : Given trades notes) (separate : Separate trades notes)
    (isTrade : t ∈ trades) {order : List Note} (perm : order.Perm notes) :
    order.foldl (fun t n => t.noted upper (trades.map (·.toPosition)) n) t = t ∧
        (∀ n ∈ notes, ∀ leg ∈ n.legs, t.owns leg = false) ∨
      ∃ n ∈ notes, (∃ leg ∈ n.legs, t.owns leg = true) ∧
        order.foldl (fun t n => t.noted upper (trades.map (·.toPosition)) n) t =
          t.settle n.id (given upper (trades.map (·.toPosition)) n t.id) := by
  by_cases some_ : ∃ n ∈ notes, ∃ leg ∈ n.legs, t.owns leg = true
  · obtain ⟨n, isNote, own⟩ := some_
    refine .inr ⟨n, isNote, own, ?_⟩
    rw [foldl_one (perm.mem_iff.mpr isNote) ((perm.map _).nodup_iff.mpr all.noteIds), Trade.noted, if_neg]
    · rw [given_nil_iff all separate isNote isTrade]
      intro none_
      obtain ⟨leg, mem, owns⟩ := own
      rw [none_ leg mem] at owns
      cases owns
    · intro m mem other
      have isNote' := perm.mem_iff.mp mem
      rw [given_nil_iff all separate isNote' isTrade]
      intro leg inNote
      rw [← Bool.not_eq_true]
      exact fun owns => other (separate.oneNote t isTrade m isNote' n isNote ⟨leg, inNote, owns⟩ own)
  · have none_ : ∀ n ∈ notes, ∀ leg ∈ n.legs, t.owns leg = false := by
      intro n isNote leg mem
      rw [← Bool.not_eq_true]
      exact fun owns => some_ ⟨n, isNote, leg, mem, owns⟩
    refine .inl ⟨foldl_nothing fun n mem => ?_, none_⟩
    have isNote := perm.mem_iff.mp mem
    rw [given_nil_iff all separate isNote isTrade]
    exact none_ n isNote

theorem settle_charges (all : Given trades notes) (separate : Separate trades notes)
    (isNote : n ∈ notes) (isTrade : t ∈ trades) (own : ∃ leg ∈ n.legs, t.owns leg = true) :
    (t.settle n.id (given upper (trades.map (·.toPosition)) n t.id)).charges =
      Py.round2 (ownCharges t.toPosition notes) := by
  have legs := @given_legs upper _ _ _ _ all separate isNote isTrade
  rw [ownCharges, ownLegs_eq all separate isNote isTrade own, ← legs, List.map_map]
  rfl

/-- What the notes make of a trade is its actual charges. -/
theorem final_actual (all : Given trades notes) (separate : Separate trades notes)
    (isTrade : t ∈ trades) {order : List Note} (perm : order.Perm notes) :
    let after := order.foldl (fun t n => t.noted upper (trades.map (·.toPosition)) n) t
    after.charges = Py.round2 (ownCharges after.toPosition notes) ∧
      after.pnl = after.gross.map fun gross => gross - after.charges := by
  rcases @final_eq upper _ _ _ all separate isTrade _ perm with ⟨same, none_⟩ | ⟨n, isNote, own, same⟩
  · rw [same]
    obtain ⟨charges, pnl⟩ := separate.untouched t isTrade none_
    have empty : (allLegs notes).filter t.owns = [] := by
      rw [List.filter_eq_nil_iff]
      intro leg mem owns
      obtain ⟨n, isNote, inNote⟩ := List.mem_flatMap.mp mem
      rw [none_ n isNote leg inNote] at owns
      cases owns
    refine ⟨?_, ?_⟩
    · rw [charges, ownCharges, empty]
      simp
    · rw [charges, pnl]
      simp
  · have charges := @settle_charges upper _ _ _ _ all separate isNote isTrade own
    rw [same]
    refine ⟨charges, ?_⟩
    obtain ⟨exitPrice, closed⟩ := Option.isSome_iff_exists.mp (all.closed t isTrade).2
    obtain ⟨gross, isGross⟩ : ∃ gross, t.gross = some gross := by
      rw [Position.gross, closed]
      exact ⟨_, rfl⟩
    have whole := separate.whole t isTrade n isNote own gross isGross
    generalize legs : given upper (trades.map (·.toPosition)) n t.id = ms at charges
    have gross_ : (t.settle n.id ms).gross = some gross := isGross
    rw [t.settle_pnl isGross, gross_, charges]
    show some _ = some _
    nth_rewrite 1 [← whole]
    rw [Py.round2_sub_round2, whole]

theorem actual_of_separate (all : Given trades notes) (separate : Separate trades notes) :
    ActualInAnyOrder upper trades notes := by
  intro order perm
  constructor
  · rw [ingestAll_eq]
    refine ⟨?_, ?_, ?_⟩
    · intro after mem
      obtain ⟨t, isTrade, rfl⟩ := List.mem_map.mp mem
      exact (final_actual all separate isTrade perm).1
    · intro after mem
      obtain ⟨t, isTrade, rfl⟩ := List.mem_map.mp mem
      exact (final_actual all separate isTrade perm).2
    · have each (t) (isTrade : t ∈ trades) :
          (order.foldl (fun t n => t.noted upper (trades.map (·.toPosition)) n) t).charges =
            (((allLegs notes).filter t.owns).map fun leg => (leg.charges : ℚ)).sum := by
        rw [(final_actual all separate isTrade perm).1, foldl_toPosition, ownCharges, round2_charges]
      rw [List.map_map, List.map_congr_left (f := _ ∘ _) each]
      apply Shares.sum_owned all.ids.of_map
      intro leg mem
      obtain ⟨n, isNote, inNote⟩ := List.mem_flatMap.mp mem
      obtain ⟨t, isTrade, owns⟩ := all.known n isNote leg inNote
      exact ⟨t, isTrade, owns, fun u isTrade' owns' =>
        separate.oneOwner n isNote leg inNote u isTrade' t isTrade owns' owns⟩
  · rw [ingestAll_eq, ingestAll_eq]
    apply List.map_congr_left
    intro t isTrade
    rcases @final_eq upper _ _ _ all separate isTrade _ perm with ⟨same, none_⟩ | ⟨n, isNote, own, same⟩
    · rcases @final_eq upper _ _ _ all separate isTrade _ (.refl notes) with ⟨same', -⟩
        | ⟨m, isNote, ⟨leg, mem, owns⟩, -⟩
      · rw [same, same']
      · rw [none_ m isNote leg mem] at owns
        cases owns
    · rcases @final_eq upper _ _ _ all separate isTrade _ (.refl notes) with ⟨-, none_⟩ | ⟨m, isNote', own', same'⟩
      · obtain ⟨leg, mem, owns⟩ := own
        rw [none_ n isNote leg mem] at owns
        cases owns
      · have one : n = m := List.inj_on_of_nodup_map all.noteIds isNote isNote'
          (separate.oneNote t isTrade n isNote m isNote' own own')
        rw [same, same', one]

end Enough

/-! ## Nothing less is -/

section Needed

variable {ps : List Position} {charges : ℕ → ℕ → Charge}

theorem charged_candidate (n : Note) : (n.charged charges).candidate = n.candidate := by
  funext p
  simp only [Note.candidate, Note.window, Note.charged, List.filterMap_map]
  rfl

theorem given_charged (n : Note) (id : ℕ) :
    given upper ps (n.charged charges) id =
      (given upper ps n id).map fun m => { m with leg := { m.leg with charges := charges n.id m.leg.row } } := by
  have same := @matches_map upper n.legs (ps.filter n.candidate)
    (fun leg => { leg with charges := charges n.id leg.row }) (fun _ => rfl) (fun _ => rfl)
      (fun _ => rfl) (fun _ => rfl)
    (fun _ => rfl) (fun _ => rfl)
  rw [given, charged_candidate, Note.charged, same, List.filter_map]
  rfl

/-- The rows of a position's legs in some notes, and of those a note gives a trade. -/
def ownKeys (p : Position) (notes : List Note) : List (ℕ × ℕ) :=
  notes.flatMap fun n => (n.legs.filter p.owns).map fun leg => (n.id, leg.row)

def givenKeys (upper : String → String) (ps : List Position) (n : Note) (id : ℕ) : List (ℕ × ℕ) :=
  (given upper ps n id).map fun m => (n.id, m.leg.row)

theorem ownCharges_charged (p : Position) (notes : List Note) :
    ownCharges p (notes.map (Note.charged charges)) =
      ((ownKeys p notes).map fun key => (charges key.1 key.2 : ℚ)).sum := by
  induction notes with
  | nil => rfl
  | cons n notes ih =>
    have head : ((n.charged charges).legs.filter p.owns).map (fun leg => (leg.charges : ℚ)) =
        ((n.legs.filter p.owns).map fun leg => (n.id, leg.row)).map fun key => (charges key.1 key.2 : ℚ) := by
      rw [Note.charged, List.filter_map, List.map_map, List.map_map]
      rfl
    rw [ownCharges] at ih
    rw [ownCharges, List.map_cons, allLegs, List.flatMap_cons, List.filter_append, List.map_append,
      List.sum_append, head]
    rw [ownKeys, List.flatMap_cons, List.map_append, List.sum_append]
    exact congrArg _ ih

/-- The charges by which a note settles a trade. -/
def givenCharges (upper : String → String) (ps : List Position) (n : Note) (id : ℕ) (charges : ℕ → ℕ → Charge) : ℚ :=
  ((givenKeys upper ps n id).map fun key => (charges key.1 key.2 : ℚ)).sum

theorem round2_keys (keys : List (ℕ × ℕ)) :
    Py.round2 (keys.map fun key => (charges key.1 key.2 : ℚ)).sum =
      (keys.map fun key => (charges key.1 key.2 : ℚ)).sum := by
  apply Py.round2_sum
  intro x mem
  obtain ⟨key, -, rfl⟩ := List.mem_map.mp mem
  exact (charges key.1 key.2).2.1

/-- The note that comes last settles a trade it gives something. -/
theorem last_settles (some_ : given upper ps n t.id ≠ []) (rest : List Note) :
    let after := (rest ++ [n.charged charges]).foldl (fun t n => t.noted upper ps n) t
    after.charges = givenCharges upper ps n t.id charges ∧
      ∀ gross ∈ t.gross, after.pnl = some (Py.round2 (gross - givenCharges upper ps n t.id charges)) := by
  have sum : Py.round2 ((given upper ps (n.charged charges) t.id).map fun m => (m.leg.charges : ℚ)).sum =
      givenCharges upper ps n t.id charges := by
    have same : (given upper ps (n.charged charges) t.id).map (fun m => (m.leg.charges : ℚ)) =
        (givenKeys upper ps n t.id).map fun key => (charges key.1 key.2 : ℚ) := by
      rw [given_charged, givenKeys, List.map_map, List.map_map]
      rfl
    rw [same, round2_keys]
    rfl
  have position := @foldl_toPosition upper ps rest t
  rw [List.foldl_append]
  generalize rest.foldl (fun t n => t.noted upper ps n) t = u at position
  have id : u.id = t.id := congrArg Position.id position
  have settles : u.noted upper ps (n.charged charges) = u.settle n.id (given upper ps (n.charged charges) t.id) := by
    rw [Trade.noted, id, if_neg]
    · rfl
    · rw [given_charged]
      exact fun nothing => some_ (List.map_eq_nil_iff.mp nothing)
  show (u.noted upper ps (n.charged charges)).charges = _ ∧ ∀ gross ∈ t.gross,
    (u.noted upper ps (n.charged charges)).pnl = _
  rw [settles]
  refine ⟨sum, fun gross isGross => ?_⟩
  have itsGross : u.gross = some gross := (congrArg Position.gross position).trans isGross
  rw [u.settle_pnl itsGross, ← sum]
  rfl

/-- The charges of any note that gives a trade something are all it has. -/
theorem charges_of_any (isNote : n ∈ notes) (isTrade : t ∈ trades)
    (some_ : given upper (trades.map (·.toPosition)) n t.id ≠ [])
    (actual : ActualInAnyOrder upper trades (notes.map (Note.charged charges))) :
    givenCharges upper (trades.map (·.toPosition)) n t.id charges =
        ((ownKeys t.toPosition notes).map fun key => (charges key.1 key.2 : ℚ)).sum ∧
      ∀ gross ∈ t.gross, Py.round2 (gross - givenCharges upper (trades.map (·.toPosition)) n t.id charges) =
        gross - givenCharges upper (trades.map (·.toPosition)) n t.id charges := by
  obtain ⟨before, after, rfl⟩ := List.append_of_mem isNote
  have perm : ((before ++ after).map (Note.charged charges) ++ [n.charged charges]).Perm
      ((before ++ n :: after).map (Note.charged charges)) := by
    rw [← List.map_singleton (f := Note.charged charges), ← List.map_append]
    exact ((List.perm_append_singleton n _).trans List.perm_middle.symm).map _
  obtain ⟨holds, -⟩ := actual _ perm
  rw [ingestAll_eq] at holds
  obtain ⟨sum, profit⟩ := @last_settles _ _ _ _ charges some_ ((before ++ after).map (Note.charged charges))
  have inAll := List.mem_map_of_mem (f := fun t =>
    ((before ++ after).map (Note.charged charges) ++ [n.charged charges]).foldl
      (fun t n => t.noted upper (trades.map (·.toPosition)) n) t) isTrade
  have ownSum := holds.charges _ inAll
  have pnl := holds.pnl _ inAll
  rw [foldl_toPosition, ownCharges_charged, round2_keys] at ownSum
  refine ⟨sum.symm.trans ownSum, fun gross isGross => ?_⟩
  rw [profit gross isGross, foldl_toPosition, isGross, sum] at pnl
  exact Option.some.inj pnl

/-- One row alone is charged a rupee. -/
def rupeeFor (row : ℕ × ℕ) (note key : ℕ) : Charge :=
  ⟨Shares.only row (note, key), by
    unfold Shares.only
    split_ifs
    · exact ⟨by decide +kernel, by norm_num⟩
    · exact ⟨Py.round2_zero, le_rfl⟩⟩

theorem mem_ownKeys {p : Position} {key : ℕ × ℕ} :
    key ∈ ownKeys p notes ↔ ∃ n ∈ notes, ∃ leg ∈ n.legs, p.owns leg = true ∧ key = (n.id, leg.row) := by
  rw [ownKeys, List.mem_flatMap]
  constructor
  · rintro ⟨n, isNote, mem⟩
    obtain ⟨leg, own, rfl⟩ := List.mem_map.mp mem
    obtain ⟨inNote, owns⟩ := List.mem_filter.mp own
    exact ⟨n, isNote, leg, inNote, owns, rfl⟩
  · rintro ⟨n, isNote, leg, inNote, owns, rfl⟩
    exact ⟨n, isNote, List.mem_map.mpr ⟨leg, List.mem_filter.mpr ⟨inNote, owns⟩, rfl⟩⟩

variable (actual : ∀ charges, ActualInAnyOrder upper trades (notes.map (Note.charged charges)))
include actual

/-- A note that gives a trade something gives it all its own legs. -/
theorem given_all (isNote : n ∈ notes) (isTrade : t ∈ trades)
    (some_ : given upper (trades.map (·.toPosition)) n t.id ≠ []) :
    (givenKeys upper (trades.map (·.toPosition)) n t.id).Perm (ownKeys t.toPosition notes) := by
  apply Shares.perm_of_sums
  intro row
  exact (charges_of_any isNote isTrade some_ (actual (rupeeFor row))).1

/-- A trade that no note gives anything has no legs. -/
theorem untouched_of_actual (isTrade : t ∈ trades)
    (nothing : ∀ n ∈ notes, given upper (trades.map (·.toPosition)) n t.id = []) :
    ownKeys t.toPosition notes = [] ∧ t.charges = 0 ∧ t.pnl = t.gross := by
  have stays (charges : ℕ → ℕ → Charge) : t.charges =
      ((ownKeys t.toPosition notes).map fun key => (charges key.1 key.2 : ℚ)).sum ∧
        t.pnl = t.gross.map fun gross => gross - t.charges := by
    obtain ⟨holds, -⟩ := actual charges _ (.refl _)
    rw [ingestAll_eq] at holds
    have same : (notes.map (Note.charged charges)).foldl
        (fun t n => t.noted upper (trades.map (·.toPosition)) n) t = t := by
      apply foldl_nothing
      intro m mem
      obtain ⟨n, isNote, rfl⟩ := List.mem_map.mp mem
      rw [given_charged, nothing n isNote, List.map_nil]
    have inAll := List.mem_map_of_mem (f := fun t =>
      (notes.map (Note.charged charges)).foldl (fun t n => t.noted upper (trades.map (·.toPosition)) n) t) isTrade
    have sum := holds.charges _ inAll
    have pnl := holds.pnl _ inAll
    rw [same] at sum pnl
    rw [ownCharges_charged, round2_keys] at sum
    exact ⟨sum, pnl⟩
  have free : t.charges = 0 := by
    rw [(stays fun _ _ => ⟨0, Py.round2_zero, le_rfl⟩).1]
    simp
  refine ⟨?_, free, ?_⟩
  · have perm : (ownKeys t.toPosition notes).Perm [] := by
      apply Shares.perm_of_sums
      intro row
      exact (stays (rupeeFor row)).1.symm.trans free
    exact perm.eq_nil
  · rw [(stays fun _ _ => ⟨0, Py.round2_zero, le_rfl⟩).2, free]
    simp

/-- The note of a trade's leg gives the trade that leg. -/
theorem given_own (all : Given trades notes) (isNote : n ∈ notes) (isTrade : t ∈ trades) {leg : Leg}
    (mem : leg ∈ n.legs) (owns : t.owns leg = true) :
    ∃ m ∈ given upper (trades.map (·.toPosition)) n t.id, m.leg.row = leg.row := by
  have own : (n.id, leg.row) ∈ ownKeys t.toPosition notes := mem_ownKeys.mpr ⟨n, isNote, leg, mem, owns, rfl⟩
  by_cases nothing : ∀ m ∈ notes, given upper (trades.map (·.toPosition)) m t.id = []
  · rw [(untouched_of_actual actual isTrade nothing).1] at own
    cases own
  · push Not at nothing
    obtain ⟨m, isNote', some_⟩ := nothing
    rw [← (given_all actual isNote' isTrade some_).mem_iff] at own
    obtain ⟨matched, isGiven, same⟩ := List.mem_map.mp own
    have ids := congrArg Prod.fst same
    have one : m = n := List.inj_on_of_nodup_map all.noteIds isNote' isNote ids
    exact ⟨matched, one ▸ isGiven, congrArg Prod.snd same⟩

theorem separate_of_actual (all : Given trades notes) : Separate trades notes where
  oneOwner := by
    intro n isNote leg mem t isTrade u isTrade' owns owns'
    obtain ⟨m, isGiven, row⟩ := given_own actual all isNote isTrade mem owns
    obtain ⟨m', isGiven', row'⟩ := given_own actual all isNote isTrade' mem owns'
    obtain ⟨isMatch, own⟩ := List.mem_filter.mp isGiven
    obtain ⟨isMatch', own'⟩ := List.mem_filter.mp isGiven'
    -- One leg is matched once.
    have one : m = m' := List.inj_on_of_nodup_map (once_matches n.rows).rows isMatch isMatch' (row.trans row'.symm)
    rw [decide_eq_true_iff] at own own'
    exact all.eq_of_id isTrade isTrade' (by rw [← own, ← own', one])
  inWindow := by
    intro n isNote leg mem t isTrade owns
    obtain ⟨m, isGiven, -⟩ := given_own actual all isNote isTrade mem owns
    obtain ⟨isMatch, own⟩ := List.mem_filter.mp isGiven
    obtain ⟨p, isCandidate, same⟩ := (once_matches n.rows).trades m isMatch
    obtain ⟨inAll, candidate⟩ := List.mem_filter.mp isCandidate
    obtain ⟨u, isTrade', rfl⟩ := List.mem_map.mp inAll
    rw [decide_eq_true_iff] at own
    rwa [all.eq_of_id isTrade isTrade' (own.symm.trans same.symm)]
  oneNote := by
    rintro t isTrade n isNote m isNote' ⟨leg, mem, owns⟩ ⟨other, mem', owns'⟩
    obtain ⟨matched, isGiven, -⟩ := given_own actual all isNote isTrade mem owns
    have perm := given_all actual isNote isTrade (List.ne_nil_of_mem isGiven)
    have own : (m.id, other.row) ∈ ownKeys t.toPosition notes := mem_ownKeys.mpr ⟨m, isNote', other, mem', owns', rfl⟩
    rw [← perm.mem_iff] at own
    obtain ⟨_, _, same⟩ := List.mem_map.mp own
    exact congrArg Prod.fst same
  whole := by
    rintro t isTrade n isNote ⟨leg, mem, owns⟩ gross isGross
    obtain ⟨matched, isGiven, -⟩ := given_own actual all isNote isTrade mem owns
    have free : givenCharges upper (trades.map (·.toPosition)) n t.id (fun _ _ => ⟨0, Py.round2_zero, le_rfl⟩) = 0 := by
      simp [givenCharges]
    have rounded := (charges_of_any isNote isTrade (List.ne_nil_of_mem isGiven)
      (actual fun _ _ => ⟨0, Py.round2_zero, le_rfl⟩)).2
      gross isGross
    rwa [free, sub_zero] at rounded
  untouched := by
    intro t isTrade none_
    refine (untouched_of_actual actual isTrade ?_).2
    intro n isNote
    by_contra some_
    have perm := given_all actual isNote isTrade some_
    have empty : ownKeys t.toPosition notes = [] := by
      rw [List.eq_nil_iff_forall_not_mem]
      intro key mem
      obtain ⟨m, isNote', leg, inNote, owns, -⟩ := mem_ownKeys.mp mem
      rw [none_ m isNote' leg inNote] at owns
      cases owns
    rw [empty] at perm
    exact some_ (List.map_eq_nil_iff.mp perm.eq_nil)

end Needed

/-! ## All notes -/

theorem Given.charged (all : Given trades notes) (charges : ℕ → ℕ → Charge) :
    Given trades (notes.map (Note.charged charges)) where
  ids := all.ids
  noteIds := by
    rw [List.map_map]
    exact all.noteIds
  closed := all.closed
  known := by
    intro m inNotes leg mem
    obtain ⟨n, isNote, rfl⟩ := List.mem_map.mp inNotes
    obtain ⟨old, inNote, rfl⟩ := List.mem_map.mp mem
    exact all.known n isNote old inNote

theorem Separate.charged (separate : Separate trades notes) (charges : ℕ → ℕ → Charge) :
    Separate trades (notes.map (Note.charged charges)) where
  oneOwner := by
    intro m inNotes leg mem
    obtain ⟨n, isNote, rfl⟩ := List.mem_map.mp inNotes
    obtain ⟨old, inNote, rfl⟩ := List.mem_map.mp mem
    exact separate.oneOwner n isNote old inNote
  inWindow := by
    intro m inNotes leg mem t isTrade owns
    obtain ⟨n, isNote, rfl⟩ := List.mem_map.mp inNotes
    obtain ⟨old, inNote, rfl⟩ := List.mem_map.mp mem
    rw [charged_candidate]
    exact separate.inWindow n isNote old inNote t isTrade owns
  oneNote := by
    rintro t isTrade m inNotes m' inNotes' ⟨leg, mem, owns⟩ ⟨leg', mem', owns'⟩
    obtain ⟨n, isNote, rfl⟩ := List.mem_map.mp inNotes
    obtain ⟨n', isNote', rfl⟩ := List.mem_map.mp inNotes'
    obtain ⟨old, inNote, rfl⟩ := List.mem_map.mp mem
    obtain ⟨old', inNote', rfl⟩ := List.mem_map.mp mem'
    exact separate.oneNote t isTrade n isNote n' isNote' ⟨old, inNote, owns⟩ ⟨old', inNote', owns'⟩
  whole := by
    rintro t isTrade m inNotes ⟨leg, mem, owns⟩
    obtain ⟨n, isNote, rfl⟩ := List.mem_map.mp inNotes
    obtain ⟨old, inNote, rfl⟩ := List.mem_map.mp mem
    exact separate.whole t isTrade n isNote ⟨old, inNote, owns⟩
  untouched := by
    intro t isTrade none_
    apply separate.untouched t isTrade
    intro n isNote leg mem
    have inNotes : n.charged charges ∈ notes.map (Note.charged charges) := List.mem_map.mpr ⟨n, isNote, rfl⟩
    have inLegs : { leg with charges := charges n.id leg.row } ∈ (n.charged charges).legs :=
      List.mem_map.mpr ⟨leg, mem, rfl⟩
    have free := none_ _ inNotes _ inLegs
    exact free

/-- The notes give the trades their actual charges in any order, whatever these are, exactly when
each leg is of one trade that is a candidate for its note, a trade's legs are in one note and its
gross profit has two decimals, and trades without legs have no charges. -/
theorem actual_charges_iff (all : Given trades notes) :
    (∀ charges, ActualInAnyOrder upper trades (notes.map (Note.charged charges))) ↔ Separate trades notes :=
  ⟨fun actual => separate_of_actual actual all,
    fun separate charges => actual_of_separate (all.charged charges) (separate.charged charges)⟩

/-- Twelve o'clock of a day in India. -/
def noonOf (date : ℤ) : ℤ := date * dayUs + 12 * 3600000000 - istUs

def charge (paise : ℕ) : Charge :=
  ⟨(paise : ℤ) / 100, Py.round2_hundredths paise, by positivity⟩

/-- Ten of a share, bought for 100 and sold for 110. -/
def longTrade (id : ℕ) (entry exit_ : ℤ) (orders : String × String) : Trade where
  id := id
  symbol := "INFY"
  direction := .long
  quantity := 10
  entryTime := noonOf entry
  entryPrice := 100
  exitTime := some (noonOf exit_)
  exitPrice := some 110
  brokerOrderId := some orders.1
  exitOrderId := some orders.2
  pnl := some 95
  charges := 5

def legOf (row : ℕ) (side : Side) (date : ℤ) (order : String) (paise : ℕ) : Leg :=
  ⟨row, "INFY", side, 10, some date, some order, charge paise⟩

/-- Each day's trade is closed that day. -/
def dayTrades : List Trade := [longTrade 1 100 100 ("a", "b"), longTrade 2 103 103 ("c", "d")]

def dayNotes : List Note :=
  [⟨1, [legOf 2 .buy 100 "a" 1050, legOf 3 .sell 100 "b" 1225], by decide⟩,
    ⟨2, [legOf 2 .buy 103 "c" 990, legOf 3 .sell 103 "d" 1110], by decide⟩]

theorem actual_charges_day :
    (∀ charges, ActualInAnyOrder id dayTrades (dayNotes.map (Note.charged charges))) ∧
      (ingestAll id dayTrades dayNotes).map (·.charges) = [91 / 4, 21] := by
  have given : Given dayTrades dayNotes := ⟨by decide, by decide, by decide, by decide +kernel⟩
  have separate : Separate dayTrades dayNotes :=
    ⟨by decide +kernel, by decide +kernel, by decide +kernel, by decide +kernel, by decide +kernel⟩
  exact ⟨(actual_charges_iff given).mpr separate, by decide +kernel⟩

/-- Bought on one day and sold on the next. -/
def nightTrades : List Trade := [longTrade 1 100 101 ("a", "b")]

def nightNotes : List Note :=
  [⟨1, [legOf 2 .buy 100 "a" 1050], by decide⟩, ⟨2, [legOf 2 .sell 101 "b" 1225], by decide⟩]

/-- A position that was split keeps its entry's order in both rows. -/
def splitTrades : List Trade := [longTrade 1 100 100 ("a", "b"), longTrade 2 100 100 ("a", "c")]

def splitNotes : List Note :=
  [⟨1, [legOf 2 .buy 100 "a" 1050, legOf 3 .sell 100 "b" 600, legOf 4 .sell 100 "c" 600], by decide⟩]

/-- The second note takes the entry's charges away; the second row has all of the entry's; a sale after five days is
nobody's. -/
theorem charges_lost_and_shared :
    ¬ ActualInAnyOrder id nightTrades nightNotes ∧ ¬ ActualInAnyOrder id splitTrades splitNotes ∧
      ¬ ActualInAnyOrder id [longTrade 1 100 105 ("a", "b")] [⟨1, [legOf 2 .sell 105 "b" 1225], by decide⟩] := by
  refine ⟨?_, ?_, ?_⟩
  · intro actual
    have total := (actual _ (.refl _)).1.total
    exact absurd total (by decide +kernel)
  · intro actual
    have charges := (actual _ (.refl _)).1.charges
    exact absurd charges (by decide +kernel)
  · intro actual
    have total := (actual _ (.refl _)).1.total
    exact absurd total (by decide +kernel)

end AdvanceTrading.ContractNotes
