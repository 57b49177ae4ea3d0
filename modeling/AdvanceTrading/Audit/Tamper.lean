import AdvanceTrading.Audit.Log
import Mathlib.Data.List.Infix

/-!
# Tampering with the audit log

Tables written by `write_audit_log` and `record_anchor` verify in both modes. A table that was
changed, cut or added to out of band is found out at the first place where it differs, but for two
kinds: a bar that moves between an event and its detail leaves the payload as it was, and a table
that lost only its last rows is a chain still; the anchors, which would tell, are not read.
-/

namespace AdvanceTrading.Audit

inductive LogEvent where
  | append (id : ℕ) (call : Call)
  | anchor (id : ℕ) (now : Py.DateTime)

/-- A call or an anchor. Ids come from a sequence. -/
def logStep (sha : Sha256) (t : Tables) : LogEvent → Option Tables
  | .append id call =>
      if ∀ r ∈ t.rows, r.id < id then some { t with rows := t.rows ++ [writeAuditLog sha call id t.rows] } else none
  | .anchor id now =>
      if ∀ a ∈ t.anchors, a.id < id then some
        { t with anchors := t.anchors ++ (recordAnchor id now t).toList } else none

def log (sha : Sha256) : Machine Tables LogEvent where
  step := logStep sha

/-- The rows at the first place where two tables differ. -/
def firstDifference : List AuditLogRecord → List AuditLogRecord → Option (AuditLogRecord × AuditLogRecord)
  | x :: rows, y :: rows' => if x = y then firstDifference rows rows' else some (x, y)
  | _, _ => none

/-- What is done to the rows out of band: hashed fields of some changed with the hash columns left, some deleted, or
some inserted before the last. -/
inductive Altered (rows rows' : List AuditLogRecord) : Prop where
  | changed (each : List.Forall₂ (fun r r' => r'.id = r.id ∧ r'.hash = r.hash) rows rows') (some : rows' ≠ rows)
  | deleted (left : rows'.Sublist rows) (some : rows' ≠ rows)
  | inserted (kept : rows.Sublist rows') (ordered : Ordered rows') (last : rows'.getLast? = rows.getLast?)
      (some : rows' ≠ rows)

/-- The verifier names a row not after the first that is changed or follows what was deleted or inserted: of the rows
at the first difference, the later one. -/
def Detected (sha : Sha256) (t : Tables) (rows' : List AuditLogRecord) : Prop :=
  ∃ id, verifyAuditChain sha false { t with rows := rows' } = (false, some id) ∧
    ∀ x y, firstDifference t.rows rows' = some (x, y) → id ≤ max x.id y.id

/-- All that is changed is where the event ends and its detail begins. -/
def Rejoined (x y : AuditLogRecord) : Prop :=
  y = { x with event := y.event, detail := y.detail } ∧ y.labelled = x.labelled

variable {sha : Sha256} {rows rows' : List AuditLogRecord} {x y : AuditLogRecord}

/-! ## Written tables -/

/-- The rows are a chain and each anchor names one of them. -/
structure Written (sha : Sha256) (t : Tables) : Prop where
  intact : (chain sha).Intact genesisHash t.rows
  ordered : Ordered t.rows
  anchored : ∀ a ∈ t.anchors, ∃ r ∈ t.rows, r.id = a.lastId ∧ r.hash = a.headHash

theorem written_step {t t' : Tables} {event : LogEvent} (written : Written sha t)
    (stepped : (log sha).step t event = some t') : Written sha t' := by
  cases event with
  | append id call =>
    replace stepped : logStep sha t (.append id call) = some t' := stepped
    rw [logStep] at stepped
    split_ifs at stepped with above
    cases stepped
    refine ⟨?_, ?_, ?_⟩
    · rw [HashChain.intact_append]
      exact ⟨written.intact, HashChain.intact_cons.mpr ⟨prevHashOf_eq written.ordered, rfl, HashChain.intact_nil⟩⟩
    · rw [Ordered, List.pairwise_append]
      refine ⟨written.ordered, List.pairwise_singleton _ _, fun r mem last isLast => ?_⟩
      rw [List.mem_singleton.mp isLast]
      exact above r mem
    · intro a mem
      obtain ⟨r, inRows, same⟩ := written.anchored a mem
      exact ⟨r, List.mem_append_left _ inRows, same⟩
  | anchor id now =>
    replace stepped : logStep sha t (.anchor id now) = some t' := stepped
    rw [logStep] at stepped
    split_ifs at stepped with above
    cases stepped
    refine ⟨written.intact, written.ordered, fun a mem => ?_⟩
    rcases List.mem_append.mp mem with before | new
    · exact written.anchored a before
    · rw [Option.mem_toList, recordAnchor, Option.bind_eq_some_iff] at new
      obtain ⟨last, isLast, new⟩ := new
      split_ifs at new
      cases new
      rw [lastRow_eq written.ordered] at isLast
      exact ⟨last, List.mem_of_getLast? isLast, rfl, rfl⟩

theorem written_nothing : Written sha {} where
  intact := HashChain.intact_nil
  ordered := List.Pairwise.nil
  anchored := by simp

theorem run_written {t : Tables} {events : List LogEvent} (ran : (log sha).run {} events = some t) : Written sha t :=
  (log sha).run_invariant_all (fun _ _ _ written stepped => written_step written stepped) written_nothing ran

/-- The rows from one on are those with no lower id. -/
theorem filter_from {front back : List AuditLogRecord} (ordered : Ordered (front ++ x :: back)) :
    (front ++ x :: back).filter (fun r => x.id ≤ r.id) = x :: back := by
  obtain ⟨-, later, before⟩ := List.pairwise_append.mp ordered
  have none : front.filter (fun r => x.id ≤ r.id) = [] := by
    rw [List.filter_eq_nil_iff]
    intro r mem
    have less := before r mem x List.mem_cons_self
    simpa using less
  have all : (x :: back).filter (fun r => x.id ≤ r.id) = x :: back := by
    rw [List.filter_eq_self]
    intro r mem
    rcases List.mem_cons.mp mem with rfl | mem
    · simp
    · simpa using ((List.pairwise_cons.mp later).1 r mem).le
  rw [List.filter_append, none, all, List.nil_append]

theorem find_of_ordered {front back : List AuditLogRecord} (ordered : Ordered (front ++ x :: back)) :
    (front ++ x :: back).find? (fun r => r.id = x.id) = some x := by
  obtain ⟨-, -, before⟩ := List.pairwise_append.mp ordered
  rw [List.find?_append, List.find?_cons_of_pos (by simp)]
  have none : front.find? (fun r => r.id = x.id) = none := by
    rw [List.find?_eq_none]
    intro r mem
    have less := before r mem x List.mem_cons_self
    simpa using less.ne
  rw [none]
  rfl

/-- An untouched table verifies from the beginning and from its latest anchor. -/
theorem verify_written {t : Tables} (written : Written sha t) (sinceAnchor : Bool) :
    verifyAuditChain sha sinceAnchor t = (true, none) := by
  rw [verifyAuditChain]
  split
  next => rw [inIdOrder_eq written.ordered, checkRows_intact written.intact]
  next anchor latest =>
    have mem : anchor ∈ t.anchors := by
      split_ifs at latest
      exact mem_sortBy.mp (List.mem_of_getLast? latest)
    obtain ⟨r, inRows, lastId, headHash⟩ := written.anchored anchor mem
    obtain ⟨front, back, split⟩ := List.append_of_mem inRows
    have ordered := split ▸ written.ordered
    have intact := split ▸ written.intact
    rw [split, ← lastId, find_of_ordered ordered]
    show (if r.hash ≠ anchor.headHash then _ else _) = _
    rw [if_neg (not_ne_iff.mpr headHash), filter_from ordered, inIdOrder_eq (List.pairwise_append.mp ordered).2.1]
    apply checkRows_intact
    have rest := (HashChain.intact_append.mp intact).2
    rwa [show r.prevHash = _ from intact.at.1]

/-! ## The first difference -/

theorem firstDifference_some (differ : firstDifference rows rows' = some (x, y)) :
    ∃ front back back', rows = front ++ x :: back ∧ rows' = front ++ y :: back' ∧ x ≠ y := by
  induction rows generalizing rows' with
  | nil => cases differ
  | cons r rows ih =>
    cases rows' with
    | nil => cases differ
    | cons r' rows' =>
      rw [firstDifference] at differ
      split_ifs at differ with same
      · obtain ⟨front, back, back', split, split', other⟩ := ih differ
        exact ⟨r :: front, back, back', by rw [split]; rfl, by rw [split', same]; rfl, other⟩
      · cases differ
        exact ⟨[], rows, rows', rfl, rfl, same⟩

theorem firstDifference_none (none : firstDifference rows rows' = none) : rows <+: rows' ∨ rows' <+: rows := by
  induction rows generalizing rows' with
  | nil => exact Or.inl (List.nil_prefix)
  | cons r rows ih =>
    cases rows' with
    | nil => exact Or.inr (List.nil_prefix)
    | cons r' rows' =>
      rw [firstDifference] at none
      split_ifs at none with same
      rw [same]
      exact (ih none).imp (fun short => (List.prefix_cons_inj _).mpr short) fun short =>
        (List.prefix_cons_inj _).mpr short

/-! ## What the verifier answers -/

/-- The verifier's answer on rows in order. -/
theorem verify_ordered (ordered : Ordered rows') (t : Tables) :
    verifyAuditChain sha false { t with rows := rows' } = verdict ((chain sha).firstBroken genesisHash rows') := by
  show checkRows sha genesisHash (inIdOrder rows') = _
  rw [inIdOrder_eq ordered, checkRows_eq]

/-- Broken at a row that is not after the first difference. -/
theorem detected_of_broken {t : Tables} {r : AuditLogRecord} (ordered : Ordered rows')
    (broken : (chain sha).firstBroken genesisHash rows' = some r)
    (early : ∀ x y, firstDifference t.rows rows' = some (x, y) → r.id ≤ max x.id y.id) : Detected sha t rows' := by
  refine ⟨r.id, ?_, early⟩
  rw [verify_ordered ordered t, broken]
  rfl

theorem not_detected_of_intact {t : Tables} (ordered : Ordered rows')
    (intact : (chain sha).Intact genesisHash rows') : ¬ Detected sha t rows' := by
  rintro ⟨id, answer, -⟩
  rw [verify_ordered ordered t, show (chain sha).firstBroken genesisHash rows' = none from intact] at answer
  cases answer

theorem CollisionFree.subset (free : CollisionFree sha rows) (part : ∀ r ∈ rows', r ∈ rows) : CollisionFree sha rows' :=
  fun r mem r' mem' => free r (part r mem) r' (part r' mem')

section Differences

variable {front back back' : List AuditLogRecord} {t : Tables}

/-- The rows before the first difference are a chain still, and the row that stood there named its head. -/
theorem before_difference (written : Written sha t) (split : t.rows = front ++ x :: back) :
    (chain sha).Intact genesisHash front ∧ x.prevHash = (chain sha).head genesisHash front ∧
      sha.hexdigest x.payload = x.hash := by
  have intact := split ▸ written.intact
  exact ⟨(HashChain.intact_append.mp intact).1, intact.at.1, intact.at.2⟩

theorem detected_at (differ : firstDifference t.rows rows' = some (x, y)) (ordered : Ordered rows')
    {r : AuditLogRecord} (broken : (chain sha).firstBroken genesisHash rows' = some r)
    (early : r.id ≤ max x.id y.id) : Detected sha t rows' := by
  refine detected_of_broken ordered broken fun x' y' differ' => ?_
  rw [differ] at differ'
  cases differ'
  exact early

theorem rejoined_payload (rejoined : Rejoined x y) : y.payload = x.payload := by
  obtain ⟨fields, labels⟩ := rejoined
  rw [y.payload_eq, x.payload_eq, labels, fields]

variable (written : Written sha t) (split : t.rows = front ++ x :: back)
  (split' : rows' = front ++ y :: back') (differ : firstDifference t.rows rows' = some (x, y))
include written split split' differ

/-- Rows that were changed are found out at the first of them, unless it was only joined otherwise. -/
theorem changed_detected (free : CollisionFree sha (t.rows ++ rows'))
    (each : List.Forall₂ (fun r r' => r'.id = r.id ∧ r'.hash = r.hash) t.rows rows')
    (ordered : Ordered rows') : Detected sha t rows' ↔ ¬ Rejoined x y := by
  obtain ⟨intact, follows, holds⟩ := before_difference written split
  obtain ⟨sameId, sameHash⟩ : y.id = x.id ∧ y.hash = x.hash := by
    have rest := List.forall₂_drop front.length each
    rw [split, split', List.drop_left, List.drop_left] at rest
    exact (List.forall₂_cons.mp rest).1
  constructor
  · rintro ⟨id, answer, early⟩ rejoined
    have passes : (chain sha).Intact genesisHash (front ++ [y]) := by
      have prev : y.prevHash = x.prevHash := by rw [rejoined.1]
      have digest : sha.hexdigest y.payload = y.hash := by rw [rejoined_payload rejoined, holds, sameHash]
      exact HashChain.intact_append.mpr
        ⟨intact, HashChain.intact_cons.mpr ⟨prev.trans follows, digest, HashChain.intact_nil⟩⟩
    -- The row passes, so the verifier names a later one or none.
    have through : rows' = (front ++ [y]) ++ back' := by rw [split']; simp
    have later : ∀ r ∈ back', y.id < r.id := by
      rw [split'] at ordered
      exact (List.pairwise_cons.mp (List.pairwise_append.mp ordered).2.1).1
    rw [verify_ordered ordered t, through, HashChain.firstBroken_append passes] at answer
    cases broken : (chain sha).firstBroken ((chain sha).head genesisHash (front ++ [y])) back' with
    | none =>
      rw [broken] at answer
      cases answer
    | some r =>
      rw [broken] at answer
      cases answer
      have least := early x y differ
      rw [sameId, max_self, ← sameId] at least
      exact absurd (later r (HashChain.firstBroken_mem broken)) (not_lt.mpr least)
  · intro others
    by_cases prev : y.prevHash = (chain sha).head genesisHash front
    · have tampered : sha.hexdigest y.payload ≠ y.hash := by
        intro digest
        have inRows : x ∈ t.rows ++ rows' := by rw [split]; simp
        have inRows' : y ∈ t.rows ++ rows' := by rw [split']; simp
        have bare : '|' ∉ x.prevHash :=
          bar_notMem_prevHash (by decide) written.intact x (by rw [split]; simp)
        have bare' : '|' ∉ y.prevHash := by rwa [prev, ← follows]
        have payloads := free x inRows y inRows' (by rw [holds, digest, sameHash])
        obtain ⟨samePrev, tenant, user, labels, time⟩ := payload_inj bare bare' payloads
        refine others ⟨?_, labels.symm⟩
        cases x
        cases y
        simp only [AuditLogRecord.mk.injEq] at *
        exact ⟨sameId, tenant.symm, user.symm, trivial, trivial, time.symm, samePrev.symm, sameHash⟩
      have broken := @HashChain.firstBroken_of_digest _ _ (chain sha) _ _ back' _ _ intact tampered
      exact detected_at differ ordered (split' ▸ broken) (le_max_right _ _)
    · have broken := @HashChain.firstBroken_of_prev _ _ (chain sha) _ _ back' _ _ intact prev
      exact detected_at differ ordered (split' ▸ broken) (le_max_right _ _)

/-- A row that follows deleted ones is found out. -/
theorem deleted_detected (other : x ≠ y) (free : CollisionFree sha t.rows)
    (left : rows'.Sublist t.rows) : Detected sha t rows' := by
  have ordered : Ordered rows' := written.ordered.sublist left
  have inBack : y ∈ back := by
    have inRows : y ∈ t.rows := left.subset (by rw [split']; simp)
    rw [split'] at ordered
    rw [split] at inRows
    rcases List.mem_append.mp inRows with before | here
    · exact absurd ((List.pairwise_append.mp ordered).2.2 y before y List.mem_cons_self) (lt_irrefl _)
    · rcases List.mem_cons.mp here with same | after
      · exact absurd same.symm other
      · exact after
  obtain ⟨between, rest, rfl⟩ := List.append_of_mem inBack
  have whole : t.rows = (front ++ x :: between) ++ y :: rest := by rw [split]; simp
  have intact := whole ▸ written.intact
  have determined := determined written.intact free
  rw [whole] at determined
  have heads := (HashChain.intact_append.mp intact).1.head_ne determined.left (List.cons_ne_nil _ _)
  -- It names the hash of the last row that was deleted.
  have broken := @HashChain.firstBroken_of_prev _ _ (chain sha) _ _ back' y _
    (before_difference written split).1 (by rw [intact.at.1]; exact heads.symm)
  exact detected_at differ ordered (split' ▸ broken) (le_max_right _ _)

/-- Inserted rows are found out at the row that follows them at the latest. -/
theorem inserted_detected (other : x ≠ y) (free : CollisionFree sha rows')
    (kept : t.rows.Sublist rows') (ordered : Ordered rows') : Detected sha t rows' := by
  have inBack : x ∈ back' := by
    have inRows : x ∈ rows' := kept.subset (by rw [split]; simp)
    have before := written.ordered
    rw [split] at before
    rw [split'] at inRows
    rcases List.mem_append.mp inRows with early | here
    · exact absurd ((List.pairwise_append.mp before).2.2 x early x List.mem_cons_self) (lt_irrefl _)
    · rcases List.mem_cons.mp here with same | after
      · exact absurd same other
      · exact after
  obtain ⟨between, rest, rfl⟩ := List.append_of_mem inBack
  have whole : rows' = (front ++ y :: between) ++ x :: rest := by rw [split']; simp
  have earlier : ∀ r ∈ front ++ y :: between, r.id < x.id := by
    rw [whole] at ordered
    exact fun r mem => (List.pairwise_append.mp ordered).2.2 r mem x List.mem_cons_self
  cases broken : (chain sha).firstBroken genesisHash (front ++ y :: between) with
  | some r =>
    have early := (earlier r (HashChain.firstBroken_mem broken)).le
    refine detected_at differ ordered ?_ (early.trans (le_max_left _ _))
    rw [whole]
    exact HashChain.firstBroken_left broken
  | none =>
    have determined := determined broken (free.subset fun r mem => by rw [whole]; exact List.mem_append_left _ mem)
    have heads := HashChain.Intact.head_ne broken determined (List.cons_ne_nil _ _)
    have follows := (before_difference written split).2.1
    have atLast := @HashChain.firstBroken_of_prev _ _ (chain sha) _ _ rest x _ broken
      (by rw [show (chain sha).prev x = _ from follows]; exact heads)
    exact detected_at differ ordered (whole ▸ atLast) (le_max_left _ _)

end Differences

/-! ## Tampering -/

theorem ordered_of_ids (same : List.Forall₂ (fun r r' : AuditLogRecord => r'.id = r.id ∧ r'.hash = r.hash) rows rows')
    (ordered : Ordered rows) : Ordered rows' := by
  have ids : rows.map (·.id) = rows'.map (·.id) := by
    induction same with
    | nil => rfl
    | cons here _ ih =>
      rw [List.map_cons, List.map_cons, here.1, ih (List.pairwise_cons.mp ordered).2]
  have keys : (rows.map (·.id)).Pairwise (· < ·) := List.pairwise_map.mpr ordered
  rw [ids] at keys
  exact List.pairwise_map.mp keys

theorem eq_of_id (ordered : Ordered rows) (first : x ∈ rows) (second : y ∈ rows) (same : x.id = y.id) : x = y := by
  have distinct : (rows.map (·.id)).Nodup := List.pairwise_map.mpr (ordered.imp fun less => less.ne)
  exact List.inj_on_of_nodup_map distinct first second same

/-- An altered table that differs nowhere has lost its last rows. -/
theorem cut_of_no_difference (ordered : Ordered rows) (altered : Altered rows rows')
    (none : firstDifference rows rows' = none) : rows' <+: rows ∧ Ordered rows' := by
  have short := firstDifference_none none
  cases altered with
  | changed each other =>
    have lengths := each.length_eq
    rcases short with first | second
    · exact absurd (first.eq_of_length lengths).symm other
    · exact absurd (second.eq_of_length lengths.symm) other
  | deleted left other =>
    rcases short with first | second
    · exact absurd (left.eq_of_length_le first.length_le) other
    · exact ⟨second, ordered.sublist left⟩
  | inserted kept ordered' last other =>
    rcases short with first | second
    · obtain ⟨more, rfl⟩ := first
      rcases List.eq_nil_or_concat more with rfl | ⟨more, r, rfl⟩
      · exact absurd (List.append_nil _) other
      · rw [List.concat_eq_append, ← List.append_assoc, List.getLast?_concat] at last
        have before : r ∈ rows := List.mem_of_getLast? last.symm
        exact absurd ((List.pairwise_append.mp ordered').2.2 r before r (by simp)) (lt_irrefl _)
    · exact absurd (kept.eq_of_length_le second.length_le).symm other

/-- A table that was written verifies in both modes. Out of band alterations are found out exactly when some row left
differs from the one that stood there, and not only in where its event ends. -/
theorem tampering_seen_iff {t : Tables} {events : List LogEvent} (ran : (log sha).run {} events = some t) :
    (∀ sinceAnchor, verifyAuditChain sha sinceAnchor t = (true, none)) ∧
      ∀ rows', Altered t.rows rows' → CollisionFree sha (t.rows ++ rows') →
        (Detected sha t rows' ↔ ∃ x y, firstDifference t.rows rows' = some (x, y) ∧ ¬ Rejoined x y) := by
  have written := run_written ran
  refine ⟨verify_written written, fun rows' altered free => ?_⟩
  have free₁ : CollisionFree sha t.rows := free.subset fun r => List.mem_append_left _
  have free₂ : CollisionFree sha rows' := free.subset fun r => List.mem_append_right _
  cases differ : firstDifference t.rows rows' with
  | none =>
    have cut := cut_of_no_difference written.ordered altered differ
    have intact : (chain sha).Intact genesisHash rows' := by
      obtain ⟨rest, whole⟩ := cut.1
      exact (HashChain.intact_append.mp (whole ▸ written.intact)).1
    constructor
    · intro detected
      exact absurd detected (not_detected_of_intact cut.2 intact)
    · rintro ⟨x, y, impossible, -⟩
      cases impossible
  | some pair =>
    obtain ⟨x, y⟩ := pair
    obtain ⟨front, back, back', split, split', other⟩ := firstDifference_some differ
    have distinct (ids : x.id ≠ y.id) : ¬ Rejoined x y := by
      intro rejoined
      exact ids (by rw [rejoined.1])
    have only : (∃ x' y', some (x, y) = some (x', y') ∧ ¬ Rejoined x' y') ↔ ¬ Rejoined x y := by
      constructor
      · rintro ⟨x', y', same, others⟩
        cases same
        exact others
      · exact fun others => ⟨x, y, rfl, others⟩
    rw [only]
    have here : x ∈ t.rows := by rw [split]; simp
    have here' : y ∈ rows' := by rw [split']; simp
    cases altered with
    | changed each _ =>
      exact changed_detected written split split' differ free each (ordered_of_ids each written.ordered)
    | deleted left _ =>
      have ids : x.id ≠ y.id := fun same => other (eq_of_id written.ordered here (left.subset here') same)
      exact iff_of_true (deleted_detected written split split' differ other free₁ left) (distinct ids)
    | inserted kept ordered _ _ =>
      have ids : x.id ≠ y.id := fun same => other (eq_of_id ordered (kept.subset here) here' same)
      exact iff_of_true (inserted_detected written split split' differ other free₂ kept ordered) (distinct ids)

/-- Three calls, and an anchor before the last of them. -/
def threeCalls : List LogEvent :=
  [.append 1 ⟨some 1, some 1, "user_login".toList, [], ⟨2026, 11, 3, 9, 15, 0, 0⟩⟩,
    .append 2 ⟨some 1, some 1, "withdrawal".toList, "bank|ICICI".toList, ⟨2026, 11, 3, 9, 15, 1, 0⟩⟩,
    .anchor 1 ⟨2026, 11, 3, 9, 15, 1, 500000⟩,
    .append 3 ⟨some 1, some 1, "user_logout".toList, [], ⟨2026, 11, 3, 9, 15, 2, 0⟩⟩]

def loginRow : AuditLogRecord where
  id := 1
  tenantId := some 1
  userId := some 1
  event := "user_login".toList
  detail := []
  createdAt := ⟨2026, 11, 3, 9, 15, 0, 0⟩
  prevHash := genesisHash
  hash := "18e40ba1c99d270047835e675ef0ee69f1df3b70657687280281e847141da532".toList

def withdrawalRow : AuditLogRecord where
  id := 2
  tenantId := some 1
  userId := some 1
  event := "withdrawal".toList
  detail := "bank|ICICI".toList
  createdAt := ⟨2026, 11, 3, 9, 15, 1, 0⟩
  prevHash := "18e40ba1c99d270047835e675ef0ee69f1df3b70657687280281e847141da532".toList
  hash := "e0b685c0355d2d1a883e33ac69f6956956d68e65ddbc7967eed0e41a08b4a9ea".toList

def logoutRow : AuditLogRecord where
  id := 3
  tenantId := some 1
  userId := some 1
  event := "user_logout".toList
  detail := []
  createdAt := ⟨2026, 11, 3, 9, 15, 2, 0⟩
  prevHash := "e0b685c0355d2d1a883e33ac69f6956956d68e65ddbc7967eed0e41a08b4a9ea".toList
  hash := "7877526d19c34baf2730257aaaf4e9cfa49a26c1131d7f8321e41614ba96b613".toList

/-- The three rows and the anchor of the second. -/
def threeRows : Tables :=
  ⟨[loginRow, withdrawalRow, logoutRow], [⟨1, 2, withdrawalRow.hash, ⟨2026, 11, 3, 9, 15, 1, 500000⟩⟩]⟩

/-- The withdrawal to another bank. -/
def forgedRow : AuditLogRecord := { withdrawalRow with detail := "bank|HDFC".toList }

/-- The digests of these rows. -/
def threeRowsSha : Sha256 :=
  Sha256.ofTable
    [(loginRow.payload, loginRow.hash), (withdrawalRow.payload, withdrawalRow.hash),
      (logoutRow.payload, logoutRow.hash),
      (forgedRow.payload, "bba08b4f77aaceabb5c457deb4868803624eba3c1a4e55f70800e6a90e5f5604".toList)]
    (valid_of_all (by decide +kernel))

theorem threeCalls_rows : (log threeRowsSha).run {} threeCalls = some threeRows := by decide +kernel

theorem tampering_seen_forged :
    (∀ sinceAnchor, verifyAuditChain threeRowsSha sinceAnchor threeRows = (true, none)) ∧
      Detected threeRowsSha threeRows [loginRow, forgedRow, logoutRow] := by
  obtain ⟨untouched, seen⟩ := tampering_seen_iff threeCalls_rows
  refine ⟨untouched, (seen _ (.changed ?_ ?_) ?_).mpr ⟨withdrawalRow, forgedRow, ?_, ?_⟩⟩
  · exact .cons ⟨rfl, rfl⟩ (.cons ⟨rfl, rfl⟩ (.cons ⟨rfl, rfl⟩ .nil))
  · decide +kernel
  · unfold CollisionFree
    decide +kernel
  · decide +kernel
  · unfold Rejoined
    decide +kernel

/-- The bar before the bank's name moved into the event. -/
def rejoinedRow : AuditLogRecord := { withdrawalRow with event := "withdrawal|bank".toList, detail := "ICICI".toList }

/-- A row whose event and detail were divided elsewhere, and a table without its last row, pass. -/
theorem rejoined_and_cut_tables_verify :
    (log threeRowsSha).run {} threeCalls = some threeRows ∧
      (Altered threeRows.rows [loginRow, rejoinedRow, logoutRow] ∧
        CollisionFree threeRowsSha (threeRows.rows ++ [loginRow, rejoinedRow, logoutRow]) ∧
        verifyAuditChain threeRowsSha false
          { threeRows with rows := [loginRow, rejoinedRow, logoutRow] } = (true, none)) ∧
      (Altered threeRows.rows [loginRow] ∧ CollisionFree threeRowsSha (threeRows.rows ++ [loginRow]) ∧
        verifyAuditChain threeRowsSha false { threeRows with rows := [loginRow] } = (true, none)) := by
  refine ⟨threeCalls_rows, ⟨.changed ?_ ?_, ?_, ?_⟩, ⟨.deleted ?_ ?_, ?_, ?_⟩⟩
  · exact .cons ⟨rfl, rfl⟩ (.cons ⟨rfl, rfl⟩ (.cons ⟨rfl, rfl⟩ .nil))
  · decide +kernel
  · unfold CollisionFree
    decide +kernel
  · decide +kernel
  · exact .cons_cons _ (.cons _ (.cons _ .slnil))
  · decide +kernel
  · unfold CollisionFree
    decide +kernel
  · decide +kernel

end AdvanceTrading.Audit
