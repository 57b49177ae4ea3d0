import AdvanceTrading.Audit.Log
import AdvanceTrading.Misc.Processes

/-!
# Concurrent appends to the audit log

Transactions on Postgres at read committed that call `write_audit_log` (`app/audit/log.py:32-81`)
among other steps, over autoflushing sessions. A transaction is the stack of its savepoints: a row
and a hold of the advisory lock belong to the savepoint they came in, and are undone with it. A
call locks, reads the head and adds its record; the row gets its id and is inserted at the next
flush, which every query, savepoint and commit begins with.
-/

namespace AdvanceTrading.Audit

/-- A savepoint of a transaction, or the transaction itself: the rows inserted since, and whether the advisory lock was
taken since. -/
structure Frame where
  rows : List AuditLogRecord := []
  locked : Bool := false

/-- Where a session is in `write_audit_log`. -/
inductive Stage where
  | ready
  /-- It has the lock and is to read the last row. -/
  | serialised (call : Call)
  /-- It has read the hash of the last row. -/
  | chained (call : Call) (prevHash : Text)

/-- A session: the frames of its transaction, innermost first (none between transactions), and the record it has added
and not flushed. A call reads, and so flushes, before it adds, so there is never a second one. -/
structure Session where
  frames : List Frame := []
  pending : Option (Call × Text) := none
  stage : Stage := .ready

/-- The committed rows, the sequence their ids come from, and whether some transaction has the advisory lock. -/
structure Database where
  rows : List AuditLogRecord := []
  seq : ℕ := 1
  held : Bool := false

def Session.holds (p : Session) : Bool := p.frames.any (·.locked)

/-- The rows of the frames, oldest first. -/
def ownRows : List Frame → List AuditLogRecord
  | [] => []
  | f :: rest => ownRows rest ++ f.rows

/-- The rows a statement of the session sees. -/
def visible (s : Database) (p : Session) : List AuditLogRecord := s.rows ++ ownRows p.frames

/-- A flush inserts the record that was added. -/
def flush (sha : Sha256) (s : Database) (p : Session) : Database × Session :=
  match p.frames, p.pending with
  | f :: rest, some (call, prevHash) =>
      ({ s with seq := s.seq + 1 },
        { p with frames := { f with rows := f.rows ++ [call.record sha prevHash s.seq] } :: rest, pending := none })
  | _, _ => (s, p)

/-- A session that had the lock and no longer has gives it back. -/
def settle (s : Database) (p next : Session) : Database × Session :=
  ({ s with held := if p.holds then next.holds else s.held }, next)

inductive Action where
  | begin
  /-- `_serialise_appends`, at the start of a call. -/
  | lock (call : Call)
  | readHead
  | add
  /-- Any other query. -/
  | query
  | savepoint
  | release
  | rollbackTo
  | commit
  | abort

/-- The inner frame becomes part of the one around it. -/
def Frame.merge (inner outer : Frame) : Frame := ⟨outer.rows ++ inner.rows, outer.locked || inner.locked⟩

def statement (sha : Sha256) (s : Database) (p : Session) : Action → Option (Database × Session)
  | .begin =>
      match p.frames with
      | [] => some (s, { p with frames := [{}] })
      | _ :: _ => none
  | .lock call =>
      match p.stage, p.frames with
      | .ready, f :: rest =>
          -- It waits while another transaction has the lock.
          if p.holds || !s.held then
            some ({ s with held := true },
              { p with frames := { f with locked := true } :: rest, stage := .serialised call })
          else none
      | _, _ => none
  | .readHead =>
      match p.stage with
      | .serialised call =>
          let (s, p) := flush sha s p
          some (s, { p with stage := .chained call (prevHashOf (visible s p)) })
      | _ => none
  | .add =>
      match p.stage with
      | .chained call prevHash => some (s, { p with pending := some (call, prevHash), stage := .ready })
      | _ => none
  | .query =>
      match p.stage with
      | .ready => some (flush sha s p)
      | _ => none
  | .savepoint =>
      match p.stage, p.frames with
      | .ready, _ :: _ =>
          let (s, p) := flush sha s p
          some (s, { p with frames := {} :: p.frames })
      | _, _ => none
  | .release =>
      match p.stage with
      | .ready =>
          let (s, p) := flush sha s p
          match p.frames with
          | inner :: outer :: rest => some (s, { p with frames := inner.merge outer :: rest })
          | _ => none
      | _ => none
  | .rollbackTo =>
      match p.frames with
      | _ :: outer :: rest => some (settle s p ⟨outer :: rest, none, .ready⟩)
      | _ => none
  | .commit =>
      match p.stage, p.frames with
      | .ready, _ :: _ =>
          let (s, p) := flush sha s p
          some (settle { s with rows := visible s p } p {})
      | _, _ => none
  | .abort =>
      match p.frames with
      | _ :: _ => some (settle s p {})
      | [] => none

/-- `n` sessions, each with one transaction after the other. -/
def transactions (sha : Sha256) (n : ℕ) : Machine (Procs Database Session n) (ProcEvent n Action Empty) :=
  Procs.interleave (statement sha) (fun _ event => nomatch event) n

/-- No row, and no session in a transaction. -/
def start (n : ℕ) : Procs Database Session n := ⟨{}, fun _ => {}⟩

/-- Each row names the hash of the row before it. -/
def LinkedFrom : Text → List AuditLogRecord → Prop
  | _, [] => True
  | prevHash, r :: rows => r.prevHash = prevHash ∧ LinkedFrom r.hash rows

end AdvanceTrading.Audit

/-!
# The audit chain never forks

What a session sees is one intact chain that its next record goes on from, because only the
transaction with the advisory lock has rows, a record to flush or a hash it has read. A savepoint
that is rolled back takes the lock with it only when no row is left that was written under it.
-/

namespace AdvanceTrading.Audit

variable {sha : Sha256}

/-- A frame with rows has the lock in it or around it. -/
def Covered : List Frame → Prop
  | [] => True
  | f :: rest => (f.rows ≠ [] → (f :: rest).any (·.locked) = true) ∧ Covered rest

/-- The session has written nothing and is not about to. -/
structure Quiet (p : Session) : Prop where
  rows : ownRows p.frames = []
  pending : p.pending = none
  stage : p.stage = .ready

/-- What a session sees and is about to write is one chain. -/
structure Fits (sha : Sha256) (s : Database) (p : Session) : Prop where
  covered : Covered p.frames
  quiet : p.holds = false → Quiet p
  intact : (chain sha).Intact genesisHash (visible s p)
  ordered : Ordered (visible s p)
  below : ∀ r ∈ visible s p, r.id < s.seq
  pending : ∀ call prevHash, p.pending = some (call, prevHash) → prevHash = (chain sha).head genesisHash (visible s p)
  chained : ∀ call prevHash, p.stage = .chained call prevHash →
    prevHash = (chain sha).head genesisHash (visible s p) ∧ p.pending = none

/-! ## Frames -/

theorem ownRows_of_unlocked {frames : List Frame} (covered : Covered frames)
    (unlocked : frames.any (·.locked) = false) : ownRows frames = [] := by
  induction frames with
  | nil => rfl
  | cons f rest ih =>
    obtain ⟨own, around⟩ := covered
    have none : f.rows = [] := by
      by_contra some
      rw [own some] at unlocked
      cases unlocked
    rw [List.any_cons, Bool.or_eq_false_iff] at unlocked
    rw [ownRows, ih around unlocked.2, none]
    rfl

theorem covered_merge {inner outer : Frame} {rest : List Frame}
    (covered : Covered (inner :: outer :: rest)) : Covered (inner.merge outer :: rest) := by
  obtain ⟨ofInner, ofOuter, around⟩ := covered
  refine ⟨fun some => ?_, around⟩
  simp only [List.any_cons, Bool.or_eq_true] at *
  by_cases empty : outer.rows = []
  · have inside : inner.rows ≠ [] := by simpa [Frame.merge, empty] using some
    rcases ofInner inside with here | there | further
    · exact Or.inl (by simp [Frame.merge, here])
    · exact Or.inl (by simp [Frame.merge, there])
    · exact Or.inr further
  · rcases ofOuter empty with there | further
    · exact Or.inl (by simp [Frame.merge, there])
    · exact Or.inr further

theorem covered_lock {f : Frame} {rest : List Frame} (covered : Covered (f :: rest)) :
    Covered ({ f with locked := true } :: rest) :=
  ⟨fun _ => by simp, covered.2⟩

theorem ownRows_merge (inner outer : Frame) (rest : List Frame) :
    ownRows (inner.merge outer :: rest) = ownRows (inner :: outer :: rest) := by
  simp [ownRows, Frame.merge]

theorem any_merge (inner outer : Frame) (rest : List Frame) :
    (inner.merge outer :: rest).any (·.locked) = (inner :: outer :: rest).any (·.locked) := by
  simp only [List.any_cons, Frame.merge]
  rw [Bool.or_comm outer.locked, Bool.or_assoc]

/-! ## What fits -/

variable {s s' : Database} {p p' : Session}

/-- The committed rows alone are a chain. -/
theorem Fits.committed (fits : Fits sha s p) :
    (chain sha).Intact genesisHash s.rows ∧ Ordered s.rows ∧ ∀ r ∈ s.rows, r.id < s.seq :=
  ⟨(HashChain.intact_append.mp fits.intact).1, (List.pairwise_append.mp fits.ordered).1,
    fun r mem => fits.below r (List.mem_append_left _ mem)⟩

/-- A session that has written nothing fits whatever chain is committed. -/
theorem Fits.of_quiet (covered : Covered p.frames) (quiet : Quiet p)
    (committed : (chain sha).Intact genesisHash s.rows ∧ Ordered s.rows ∧ ∀ r ∈ s.rows, r.id < s.seq) :
    Fits sha s p := by
  have seen : visible s p = s.rows := by rw [visible, quiet.rows, List.append_nil]
  constructor
  · exact covered
  · exact fun _ => quiet
  · rw [seen]
    exact committed.1
  · rw [seen]
    exact committed.2.1
  · rw [seen]
    exact committed.2.2
  · intro call prevHash added
    rw [quiet.pending] at added
    cases added
  · intro call prevHash read
    rw [quiet.stage] at read
    cases read

/-- Other frames with the same rows and the lock as before. -/
theorem Fits.reframe (fits : Fits sha s p) {frames : List Frame} (covered : Covered frames)
    (own : ownRows frames = ownRows p.frames) (lock : frames.any (·.locked) = p.holds) :
    Fits sha s { p with frames := frames } := by
  have seen : visible s { p with frames := frames } = visible s p := by rw [visible, visible, own]
  constructor
  · exact covered
  · intro unlocked
    have quiet := fits.quiet (lock.symm.trans unlocked)
    exact ⟨own.trans quiet.rows, quiet.pending, quiet.stage⟩
  · rw [seen]
    exact fits.intact
  · rw [seen]
    exact fits.ordered
  · rw [seen]
    exact fits.below
  · rw [seen]
    exact fits.pending
  · rw [seen]
    exact fits.chained

/-- Going back to frames that are part of the transaction, with nothing read or added. -/
theorem Fits.back {inner outer : List Frame} (fits : Fits sha s p)
    (frames : p.frames = inner ++ outer) : Fits sha s ⟨outer, none, .ready⟩ := by
  have split : ownRows p.frames = ownRows outer ++ ownRows inner := by
    rw [frames]
    clear frames
    induction inner with
    | nil => simp [ownRows]
    | cons f inner ih => rw [List.cons_append, ownRows, ih, ownRows, List.append_assoc]
  have kept : Covered outer := by
    have covered := frames ▸ fits.covered
    clear frames split
    induction inner with
    | nil => exact covered
    | cons f inner ih => exact ih covered.2
  have seen : visible s p = visible s ⟨outer, none, .ready⟩ ++ ownRows inner := by
    rw [visible, split, visible, List.append_assoc]
  have intact := fits.intact
  have ordered := fits.ordered
  have below := fits.below
  rw [seen] at intact ordered below
  constructor
  · exact kept
  · exact fun unlocked => ⟨ownRows_of_unlocked kept unlocked, rfl, rfl⟩
  · exact (HashChain.intact_append.mp intact).1
  · exact (List.pairwise_append.mp ordered).1
  · exact fun r mem => below r (List.mem_append_left _ mem)
  · intro call prevHash added
    cases added
  · intro call prevHash read
    cases read

/-! ## A flush -/

theorem flush_none (nothing : p.pending = none) : flush sha s p = (s, p) := by
  rw [flush]
  cases p.frames with
  | nil => rfl
  | cons f rest => rw [nothing]

theorem flush_held : (flush sha s p).1.held = s.held := by
  rw [flush]
  split
  · rfl
  · rfl

theorem flush_stage : (flush sha s p).2.stage = p.stage := by
  rw [flush]
  split
  · rfl
  · rfl

theorem Fits.holds_of_pending (fits : Fits sha s p) (added : p.pending ≠ none) : p.holds = true := by
  by_contra unlocked
  exact added (fits.quiet (Bool.eq_false_iff.mpr unlocked)).pending

theorem Fits.holds_of_stage (fits : Fits sha s p) (writing : p.stage ≠ .ready) : p.holds = true := by
  by_contra unlocked
  exact writing (fits.quiet (Bool.eq_false_iff.mpr unlocked)).stage

theorem exists_frame (holds : p.holds = true) : ∃ f rest, p.frames = f :: rest := by
  cases frames : p.frames with
  | nil =>
    rw [Session.holds, frames] at holds
    cases holds
  | cons f rest => exact ⟨f, rest, rfl⟩

/-- A flush puts the record that was added after the rows the session sees. -/
theorem visible_flush {call : Call} {prevHash : Text} {f : Frame} {rest : List Frame}
    (frames : p.frames = f :: rest) (added : p.pending = some (call, prevHash)) :
    visible (flush sha s p).1 (flush sha s p).2 = visible s p ++ [call.record sha prevHash s.seq] := by
  rw [flush, frames, added]
  simp [visible, ownRows, frames]

/-- A flushed session fits, and has nothing more to flush. -/
theorem Fits.flush (fits : Fits sha s p) :
    Fits sha (flush sha s p).1 (flush sha s p).2 ∧ (flush sha s p).2.pending = none := by
  cases added : p.pending with
  | none =>
    rw [flush_none added]
    exact ⟨fits, added⟩
  | some record =>
    obtain ⟨call, prevHash⟩ := record
    have holds : p.holds = true := fits.holds_of_pending (by simp [added])
    obtain ⟨f, rest, frames⟩ := exists_frame holds
    have seen := @visible_flush sha s _ _ _ _ _ frames added
    have follows := fits.pending call prevHash added
    have result : Audit.flush sha s p = ({ s with seq := s.seq + 1 },
        { p with
          frames := { f with rows := f.rows ++ [call.record sha prevHash s.seq] } :: rest
          pending := none }) := by
      rw [Audit.flush, frames, added]
    rw [result] at seen ⊢
    refine ⟨⟨?_, ?_, ?_, ?_, ?_, ?_, ?_⟩, rfl⟩
    · refine ⟨fun _ => ?_, (frames ▸ fits.covered).2⟩
      rw [Session.holds, frames] at holds
      exact holds
    · intro unlocked
      rw [Session.holds, frames] at holds
      rw [Session.holds, List.any_cons] at unlocked
      rw [List.any_cons, unlocked] at holds
      cases holds
    · rw [seen, HashChain.intact_append]
      exact ⟨fits.intact, HashChain.intact_cons.mpr ⟨follows, rfl, HashChain.intact_nil⟩⟩
    · rw [seen, Ordered, List.pairwise_append]
      refine ⟨fits.ordered, List.pairwise_singleton _ _, fun r mem last isLast => ?_⟩
      rw [List.mem_singleton.mp isLast]
      exact fits.below r mem
    · rw [seen]
      intro r mem
      rcases List.mem_append.mp mem with before | last
      · exact Nat.lt_succ_of_lt (fits.below r before)
      · rw [List.mem_singleton.mp last]
        exact Nat.lt_succ_self _
    · intro call prevHash none
      cases none
    · intro call' prevHash' read
      rw [(fits.chained call' prevHash' read).2] at added
      cases added

/-! ## The statements -/

/-- A session takes the lock only when no one has it, and whoever has not got it changes nothing else. -/
structure Guarded (s : Database) (p : Session) (s' : Database) (p' : Session) : Prop where
  held : p'.holds = true → s'.held = true
  alone : p.holds = true ∨ s' = s ∧ p'.holds = false ∨ s.held = false ∧ s' = { s with held := true }

theorem Guarded.of_holds (holds : p.holds = true) (kept : p'.holds = true → s'.held = true) : Guarded s p s' p' :=
  ⟨kept, Or.inl holds⟩

theorem Guarded.refl (held : p.holds = true → s.held = true) : Guarded s p s p := by
  refine ⟨held, ?_⟩
  cases holds : p.holds with
  | true => exact Or.inl rfl
  | false => exact Or.inr (Or.inl ⟨rfl, rfl⟩)

theorem guarded_flush (fits : Fits sha s p) (held : p.holds = true → s.held = true) :
    Guarded s p (flush sha s p).1 (flush sha s p).2 := by
  cases holds : p.holds with
  | true =>
    refine Guarded.of_holds holds fun _ => ?_
    rw [flush_held]
    exact held holds
  | false =>
    rw [flush_none (fits.quiet holds).pending]
    exact Guarded.refl held

/-- Who gives up frames gives back the lock when it was in them. -/
theorem guarded_settle {next : Session} (kept : next.holds = true → p.holds = true) :
    Guarded s p (settle s p next).1 (settle s p next).2 := by
  rw [settle]
  cases holds : p.holds with
  | true => exact Guarded.of_holds holds fun still => still
  | false =>
    have gone : next.holds = false := by
      by_contra still
      rw [kept (Bool.not_eq_false _ ▸ still)] at holds
      cases holds
    refine ⟨fun still => ?_, Or.inr (Or.inl ⟨rfl, gone⟩)⟩
    rw [gone] at still
    cases still

/-- What follows a statement that leaves the database and the lock as they are. -/
theorem Guarded.then {t : Database} {q r : Session} (guarded : Guarded s p t q)
    (same : r.holds = q.holds) : Guarded s p t r :=
  ⟨fun holds => guarded.held (same ▸ holds), by rw [same]; exact guarded.alone⟩

/-- Whether some session has the lock matters to none of it. -/
theorem Fits.with_held (fits : Fits sha s p) (held : Bool) : Fits sha { s with held := held } p :=
  ⟨fits.covered, fits.quiet, fits.intact, fits.ordered, fits.below, fits.pending, fits.chained⟩

theorem statement_fits {action : Action} (fits : Fits sha s p) (held : p.holds = true → s.held = true)
    (ran : statement sha s p action = some (s', p')) : Fits sha s' p' ∧ Guarded s p s' p' := by
  cases action with
  | begin =>
    rw [statement] at ran
    split at ran
    next frames =>
      cases ran
      have idle : p.holds = false := by rw [Session.holds, frames, List.any_nil]
      have quiet := fits.quiet idle
      refine ⟨Fits.of_quiet ⟨fun some => absurd rfl some, trivial⟩ ⟨rfl, quiet.pending, quiet.stage⟩ fits.committed, ?_⟩
      exact (Guarded.refl held).then (by rw [idle]; rfl)
    next => cases ran
  | lock call =>
    rw [statement] at ran
    split at ran
    next f rest ready frames =>
      split_ifs at ran with free
      cases ran
      have seen : visible { s with held := true }
          { p with frames := { f with locked := true } :: rest, stage := .serialised call } = visible s p := by
        rw [visible, visible, frames]
        rfl
      have locked : Session.holds { p with
          frames := { f with locked := true } :: rest, stage := .serialised call } = true := by
        simp [Session.holds]
      refine ⟨⟨covered_lock (frames ▸ fits.covered), ?_, ?_, ?_, ?_, ?_, ?_⟩, fun _ => rfl, ?_⟩
      · intro unlocked
        rw [locked] at unlocked
        cases unlocked
      · rw [seen]
        exact fits.intact
      · rw [seen]
        exact fits.ordered
      · rw [seen]
        exact fits.below
      · rw [seen]
        exact fits.pending
      · intro call prevHash read
        cases read
      · rcases Bool.or_eq_true_iff.mp free with holds | unheld
        · exact Or.inl holds
        · exact Or.inr (Or.inr ⟨by simpa using unheld, rfl⟩)
    next => cases ran
  | readHead =>
    rw [statement] at ran
    split at ran
    next call serialised =>
      cases ran
      obtain ⟨flushed, nothing⟩ := fits.flush
      have busy : (flush sha s p).2.holds = true := flushed.holds_of_stage (by simp [flush_stage, serialised])
      refine ⟨⟨flushed.covered, ?_, flushed.intact, flushed.ordered, flushed.below, flushed.pending, ?_⟩, ?_⟩
      · intro unlocked
        rw [show (flush sha s p).2.holds = false from unlocked] at busy
        cases busy
      · intro call prevHash read
        cases read
        exact ⟨prevHashOf_eq flushed.ordered, nothing⟩
      · exact (guarded_flush fits held).then rfl
    next => cases ran
  | add =>
    rw [statement] at ran
    split at ran
    next call prevHash chained =>
      cases ran
      have follows := (fits.chained call prevHash chained).1
      have busy : p.holds = true := fits.holds_of_stage (by simp [chained])
      refine ⟨⟨fits.covered, ?_, fits.intact, fits.ordered, fits.below, ?_, ?_⟩, (Guarded.refl held).then rfl⟩
      · intro unlocked
        rw [show p.holds = false from unlocked] at busy
        cases busy
      · intro call prevHash added
        cases added
        exact follows
      · intro call prevHash read
        cases read
    next => cases ran
  | query =>
    rw [statement] at ran
    split at ran
    next ready =>
      obtain ⟨rfl, rfl⟩ := Prod.mk.inj (Option.some.inj ran)
      exact ⟨fits.flush.1, guarded_flush fits held⟩
    next => cases ran
  | savepoint =>
    rw [statement] at ran
    split at ran
    next f rest ready frames =>
      obtain ⟨rfl, rfl⟩ := Prod.mk.inj (Option.some.inj ran)
      obtain ⟨flushed, nothing⟩ := fits.flush
      refine ⟨flushed.reframe ⟨fun some => absurd rfl some, flushed.covered⟩ (List.append_nil _) ?_, ?_⟩
      · rw [List.any_cons, Bool.false_or]
        rfl
      · exact (guarded_flush fits held).then (Bool.false_or _)
    next => cases ran
  | release =>
    rw [statement] at ran
    split at ran
    next ready =>
      obtain ⟨flushed, -⟩ := fits.flush
      have guarded := guarded_flush fits held
      revert ran flushed guarded
      generalize flush sha s p = after
      obtain ⟨t, q⟩ := after
      intro ran flushed guarded
      dsimp only at ran
      split at ran
      next inner outer rest frames =>
        cases ran
        have same : (inner.merge outer :: rest).any (·.locked) = q.holds := by
          rw [Session.holds, any_merge, frames]
        refine ⟨flushed.reframe (covered_merge (frames ▸ flushed.covered)) ?_ same, guarded.then same⟩
        rw [ownRows_merge, frames]
      next => cases ran
    next => cases ran
  | rollbackTo =>
    rw [statement] at ran
    split at ran
    next f outer rest frames =>
      cases ran
      refine ⟨Fits.with_held (@Fits.back _ _ _ [f] _ fits frames) _, guarded_settle fun still => ?_⟩
      rw [Session.holds, frames, List.any_cons, Bool.or_eq_true]
      exact Or.inr still
    next => cases ran
  | commit =>
    rw [statement] at ran
    split at ran
    next f rest ready frames =>
      obtain ⟨flushed, -⟩ := fits.flush
      have same : p.holds = false → flush sha s p = (s, p) := fun idle => flush_none (fits.quiet idle).pending
      revert ran flushed same
      generalize flush sha s p = after
      obtain ⟨t, q⟩ := after
      intro ran flushed same
      cases ran
      have chained : Fits sha { t with rows := visible t q } {} :=
        Fits.of_quiet trivial ⟨rfl, rfl, rfl⟩ ⟨flushed.intact, flushed.ordered, flushed.below⟩
      refine ⟨chained.with_held _, ?_⟩
      cases holds : p.holds with
      | true => exact Guarded.of_holds holds fun still => by cases still
      | false =>
        obtain ⟨rfl, rfl⟩ := Prod.mk.inj (same holds)
        have own : visible t q = t.rows := by rw [visible, (fits.quiet holds).rows, List.append_nil]
        rw [own]
        exact guarded_settle fun still => by cases still
    next => cases ran
  | abort =>
    rw [statement] at ran
    split at ran
    next f rest frames =>
      cases ran
      refine ⟨Fits.with_held (@Fits.back _ _ _ p.frames _ fits (List.append_nil _).symm) _, guarded_settle ?_⟩
      intro still
      cases still
    next => cases ran

/-! ## Runs -/

variable {n : ℕ} {w t : Procs Database Session n}

/-- Every session fits, and at most one has the lock. -/
structure Serial (sha : Sha256) (w : Procs Database Session n) : Prop where
  committed : (chain sha).Intact genesisHash w.shared.rows ∧ Ordered w.shared.rows ∧
    ∀ r ∈ w.shared.rows, r.id < w.shared.seq
  fits : ∀ q, Fits sha w.shared (w.point q)
  held : ∀ q, (w.point q).holds = true → w.shared.held = true
  alone : ∀ q q', (w.point q).holds = true → (w.point q').holds = true → q = q'

theorem serial_start : Serial sha (start n) where
  committed := ⟨HashChain.intact_nil, List.Pairwise.nil, by simp [start]⟩
  fits := fun _ =>
    Fits.of_quiet trivial ⟨rfl, rfl, rfl⟩ ⟨HashChain.intact_nil, List.Pairwise.nil, by simp [start]⟩
  held := fun _ holds => by cases holds
  alone := fun _ _ holds => by cases holds

theorem serial_step {event : ProcEvent n Action Empty} (serial : Serial sha w)
    (stepped : (transactions sha n).step w event = some t) : Serial sha t := by
  cases event with
  | outside event => exact nomatch event
  | act who action =>
    obtain ⟨s', p', ran, rfl⟩ := Procs.act_eq stepped
    obtain ⟨fits, guarded⟩ := statement_fits (serial.fits who) (serial.held who) ran
    -- Another session that has the lock was not affected by the statement.
    have aside (q) (other : q ≠ who) (holds : (w.point q).holds = true) : s' = w.shared ∧ p'.holds = false := by
      rcases guarded.alone with own | same | ⟨unheld, -⟩
      · exact absurd (serial.alone q who holds own) other
      · exact same
      · rw [serial.held q holds] at unheld
        cases unheld
    constructor
    · exact fits.committed
    · apply Procs.forall_move (P := Fits sha s')
      · intro q other
        cases holds : (w.point q).holds with
        | true =>
          rw [(aside q other holds).1]
          exact serial.fits q
        | false => exact Fits.of_quiet (serial.fits q).covered ((serial.fits q).quiet holds) fits.committed
      · exact fits
    · refine Procs.forall_move (P := fun p : Session => p.holds = true → s'.held = true) ?_ ?_
      · intro q other holds
        rw [(aside q other holds).1]
        exact serial.held q holds
      · exact guarded.held
    · intro q q' holds holds'
      by_cases own : q = who
      · by_cases own' : q' = who
        · rw [own, own']
        · subst own
          rw [Procs.move_self] at holds
          rw [Procs.move_other own'] at holds'
          rw [(aside q' own' holds').2] at holds
          cases holds
      · rw [Procs.move_other own] at holds
        by_cases own' : q' = who
        · subst own'
          rw [Procs.move_self, (aside q own holds).2] at holds'
          cases holds'
        · rw [Procs.move_other own'] at holds'
          exact serial.alone q q' holds holds'

theorem run_serial {events : List (ProcEvent n Action Empty)}
    (ran : (transactions sha n).run (start n) events = some w) : Serial sha w :=
  (transactions sha n).run_invariant_all (fun _ _ _ serial stepped => serial_step serial stepped) serial_start ran

theorem linkedFrom_of_intact {prevHash : Text} {rows : List AuditLogRecord}
    (intact : (chain sha).Intact prevHash rows) : LinkedFrom prevHash rows := by
  induction rows generalizing prevHash with
  | nil => trivial
  | cons r rows ih =>
    obtain ⟨follows, -, rest⟩ := HashChain.intact_cons.mp intact
    exact ⟨follows, ih rest⟩

theorem verify_intact {rows : List AuditLogRecord} (intact : (chain sha).Intact genesisHash rows)
    (ordered : Ordered rows) (anchors : List AuditAnchorRecord) :
    verifyAuditChain sha false ⟨rows, anchors⟩ = (true, none) := by
  rw [verifyAuditChain, inIdOrder_eq ordered]
  exact checkRows_intact intact

/-- After every interleaving each committed row names the hash of the committed row before it; if SHA-256 has no
collision among them no two name one previous hash; and the chain verifies, for a session outside and for each
session with what it has written so far. -/
theorem audit_chain_never_forks {events : List (ProcEvent n Action Empty)}
    (ran : (transactions sha n).run (start n) events = some w) :
    LinkedFrom genesisHash (inIdOrder w.shared.rows) ∧
      (CollisionFree sha w.shared.rows → ((inIdOrder w.shared.rows).map (·.prevHash)).Nodup) ∧
      ∀ anchors, verifyAuditChain sha false ⟨w.shared.rows, anchors⟩ = (true, none) ∧
        ∀ q, verifyAuditChain sha false
          ⟨visible (flush sha w.shared (w.point q)).1 (flush sha w.shared (w.point q)).2, anchors⟩ = (true, none) := by
  have serial := run_serial ran
  obtain ⟨intact, ordered, -⟩ := serial.committed
  refine ⟨?_, ?_, fun anchors => ⟨verify_intact intact ordered anchors, fun q => ?_⟩⟩
  · rw [inIdOrder_eq ordered]
    exact linkedFrom_of_intact intact
  · intro free
    rw [inIdOrder_eq ordered]
    exact intact.prev_nodup (determined intact free)
  · have flushed := (serial.fits q).flush.1
    exact verify_intact flushed.intact flushed.ordered anchors

/-- A savepoint with a call in it is rolled back; a second session writes after the first has committed. -/
def savepointRun : List (ProcEvent 2 Action Empty) :=
  let login : Call := ⟨some 1, some 1, "user_login".toList, [], ⟨2026, 11, 3, 9, 15, 0, 0⟩⟩
  let placed : Call := ⟨some 1, some 1, "order_placed".toList, "NIFTY".toList, ⟨2026, 11, 3, 9, 15, 1, 0⟩⟩
  let failed : Call := ⟨some 1, some 1, "order_failed".toList, "NIFTY".toList, ⟨2026, 11, 3, 9, 15, 2, 0⟩⟩
  let other : Call := ⟨some 2, some 2, "user_login".toList, [], ⟨2026, 11, 3, 9, 15, 3, 0⟩⟩
  [.act 0 .begin, .act 1 .begin, .act 0 (.lock login), .act 0 .readHead, .act 0 .add, .act 0 .savepoint,
    .act 0 (.lock placed), .act 0 .readHead, .act 0 .add, .act 0 .query, .act 0 .rollbackTo, .act 1 .query,
    .act 0 (.lock failed), .act 0 .readHead, .act 0 .add, .act 0 .commit, .act 1 (.lock other), .act 1 .readHead,
    .act 1 .add, .act 1 .commit]

/-- The digests of the rows of that run. -/
def savepointSha : Sha256 :=
  Sha256.ofTable
    [("GENESIS|1|1|user_login||2026-11-03T09:15:00".toList,
        "18e40ba1c99d270047835e675ef0ee69f1df3b70657687280281e847141da532".toList),
      ("18e40ba1c99d270047835e675ef0ee69f1df3b70657687280281e847141da532".toList ++
          "|1|1|order_placed|NIFTY|2026-11-03T09:15:01".toList,
        "16dc32d4a6c55b41e027cb788fbf7e7fa02c082589b7a53c3688e3c49a618c8c".toList),
      ("18e40ba1c99d270047835e675ef0ee69f1df3b70657687280281e847141da532".toList ++
          "|1|1|order_failed|NIFTY|2026-11-03T09:15:02".toList,
        "edb187c6d19853f1184c4ad0ea7d408190690bceae39e6821b5259e88eacf409".toList),
      ("edb187c6d19853f1184c4ad0ea7d408190690bceae39e6821b5259e88eacf409".toList ++
          "|2|2|user_login||2026-11-03T09:15:03".toList,
        "668fb66a174ab15bbebd1f3a1347fa055ee852d7ab492e049378686c998dadcf".toList)]
    (valid_of_all (by decide +kernel))

theorem savepointRun_rows :
    ((transactions savepointSha 2).run (start 2) savepointRun).map (fun w => w.shared.rows) =
      some [⟨1, some 1, some 1, "user_login".toList, [], ⟨2026, 11, 3, 9, 15, 0, 0⟩, genesisHash,
          "18e40ba1c99d270047835e675ef0ee69f1df3b70657687280281e847141da532".toList⟩,
        ⟨3, some 1, some 1, "order_failed".toList, "NIFTY".toList, ⟨2026, 11, 3, 9, 15, 2, 0⟩,
          "18e40ba1c99d270047835e675ef0ee69f1df3b70657687280281e847141da532".toList,
          "edb187c6d19853f1184c4ad0ea7d408190690bceae39e6821b5259e88eacf409".toList⟩,
        ⟨4, some 2, some 2, "user_login".toList, [], ⟨2026, 11, 3, 9, 15, 3, 0⟩,
          "edb187c6d19853f1184c4ad0ea7d408190690bceae39e6821b5259e88eacf409".toList,
          "668fb66a174ab15bbebd1f3a1347fa055ee852d7ab492e049378686c998dadcf".toList⟩] := by
  decide +kernel

theorem audit_chain_never_forks_savepoint :
    ∃ w, (transactions savepointSha 2).run (start 2) savepointRun = some w ∧ w.shared.rows.map (·.id) = [1, 3, 4] ∧
      LinkedFrom genesisHash (inIdOrder w.shared.rows) ∧ ((inIdOrder w.shared.rows).map (·.prevHash)).Nodup ∧
      verifyAuditChain savepointSha false ⟨w.shared.rows, []⟩ = (true, none) := by
  obtain ⟨w, ran, rows⟩ := Option.map_eq_some_iff.mp savepointRun_rows
  have never := audit_chain_never_forks ran
  refine ⟨w, ran, ?_, never.1, never.2.1 ?_, (never.2.2 []).1⟩
  · rw [rows]
    decide
  · rw [rows]
    unfold CollisionFree
    decide +kernel

end AdvanceTrading.Audit
