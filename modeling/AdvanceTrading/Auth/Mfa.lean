import AdvanceTrading.Misc.Processes
import AdvanceTrading.Misc.PyText
import AdvanceTrading.Misc.Rows
import Mathlib.Data.Int.Order.Basic
import Mathlib.Data.List.Nodup

/-!
# Single-use sign-in secrets

Model of `verify_totp`, `accept_totp`, `consume_backup_code` and `verify_code`
(`app/auth/mfa.py:54-129`) and of `reset_password` (`app/auth/routes.py:685-737`) for one user, as
requests that read, check and commit. `totp.generate_otp` of a secret and the SHA-256 of a text are
parameters; times are whole seconds. What the routes commit beside the secrets (sessions, audit rows)
is left out, as is what a request that is refused commits.
-/

namespace AdvanceTrading.Mfa

/-- `totp.interval`. -/
def interval : ℤ := 30

/-- `TOTP_VALID_WINDOW`. -/
def validWindow : ℤ := 1

/-- `code.strip().replace(" ", "")`. -/
def cleaned (code : String) : String := String.ofList ((Py.strip code).toList.filter (· ≠ ' '))

/-- `verify_totp`: the step the code belongs to, when it is newer than `lastStep`. Other digits than the ASCII ones make
`compare_digest` raise, and the request ends. -/
def verifyTotp (otp : ℤ → String) (code : String) (lastStep : Option ℤ) (now : ℤ) : Option ℤ :=
  let code := cleaned code
  if code.toList.all Char.isDigit && code.length == 6 then
    let base := now / interval
    match [base - validWindow, base, base + validWindow].find? fun step => otp step = code with
    | none => none
    | some step => if lastStep.any (decide <| step ≤ ·) then none else some step
  else none

/-- The text `_hash_code` takes the hash of. -/
def normalised (code : String) : String :=
  String.ofList ((Py.lower (Py.strip code)).toList.filter (· ≠ '-'))

/-- An `MfaBackupCodeRecord`. -/
structure BackupCode (κ : Type) where
  id : ℕ
  codeHash : κ
  usedAt : Option ℤ := none

/-- A `PasswordResetRecord`. -/
structure Reset (κ : Type) where
  id : ℕ
  tokenHash : κ
  expiresAt : ℤ
  usedAt : Option ℤ := none

/-- `_reset_problem`. -/
def resetProblem {κ : Type} (record : Reset κ) (now : ℤ) : Option String :=
  if record.usedAt.isSome then some "This reset link has already been used"
  else if record.expiresAt ≤ now then some "This reset link has expired - request a new one"
  else none

/-- A check that succeeded, committed: an authenticator code's step, a backup code, or a password set by a link. -/
inductive Success where
  | totp (step : ℤ)
  | backup (id : ℕ)
  | reset (id : ℕ)
  deriving DecidableEq

/-- The user's rows, and the successes in the order of their commits. -/
structure Account (σ κ : Type) where
  secret : Option σ := none
  lastStep : Option ℤ := none
  password : String := ""
  backups : List (BackupCode κ) := []
  resets : List (Reset κ) := []
  nextId : ℕ := 0
  log : List Success := []

/-- Where a request stands: after the user's row was read, before the backup codes are, or with a check that passed. -/
inductive Point (σ : Type) where
  | idle
  | loaded (code : String) (totpOnly : Bool) (secret : Option σ) (lastStep : Option ℤ)
  | unmatched (code : String)
  | passed (success : Success)

/-- The next statement of a request. -/
inductive Action where
  | readUser (code : String) (totpOnly : Bool)
  | check (now : ℤ)
  | readBackup
  | readReset (token : String) (now : ℤ)
  | commit (now : ℤ) (password : String)
  | stop

variable {σ κ : Type} [DecidableEq κ]

/-- The UPDATEs of a success: the step, `used_at` by the row's key, the password. A backup code that is gone is stale
data, and nothing is committed. -/
def Account.commit (s : Account σ κ) (now : ℤ) (password : String) : Success → Account σ κ
  | .totp step => { s with lastStep := some step, log := s.log ++ [.totp step] }
  | .backup id =>
      if id ∈ s.backups.map (·.id) then
        { s with
          backups := Rows.setWhere (fun r => r.id = id) (fun r => { r with usedAt := some now }) s.backups
          log := s.log ++ [.backup id] }
      else s
  | .reset id =>
      { s with
        resets := Rows.setWhere (fun r => r.id = id) (fun r => { r with usedAt := some now }) s.resets
        password := password
        log := s.log ++ [.reset id] }

/-- One statement of a request. -/
def statement (otp : σ → ℤ → String) (sha : String → κ) (s : Account σ κ) :
    Point σ → Action → Option (Account σ κ × Point σ)
  | .idle, .readUser code totpOnly => some (s, .loaded code totpOnly s.secret s.lastStep)
  | .loaded code totpOnly secret lastStep, .check now =>
      -- `accept_totp`, and in `verify_code` a backup code after it
      match secret.bind fun secret => verifyTotp (otp secret) code lastStep now with
      | some step => some (s, .passed (.totp step))
      | none => some (s, if totpOnly then .idle else .unmatched code)
  | .unmatched code, .readBackup =>
      match s.backups.find? fun r => r.codeHash = sha (normalised code) ∧ r.usedAt = none with
      | none => some (s, .idle)
      | some record => some (s, .passed (.backup record.id))
  | .idle, .readReset token now =>
      match s.resets.find? fun r => r.tokenHash = sha token with
      | none => some (s, .idle)
      | some record => some (s, if (resetProblem record now).isSome then .idle else .passed (.reset record.id))
  | .passed success, .commit now password => some (s.commit now password success, .idle)
  | .idle, .stop => none
  | _, .stop => some (s, .idle)
  | _, _ => none

/-- What others commit: a secret is enrolled or removed, the backup codes are replaced, a link is sent. -/
inductive Outside (σ κ : Type) where
  | enrol (secret : Option σ)
  | issueBackupCodes (hashes : List κ)
  | issueReset (tokenHash : κ) (expiresAt : ℤ)

def outside (s : Account σ κ) : Outside σ κ → Option (Account σ κ)
  | .enrol secret => some { s with secret := secret }
  | .issueBackupCodes hashes =>
      some { s with
        backups := (hashes.zipIdx s.nextId).map fun (hash, id) => ⟨id, hash, none⟩
        nextId := s.nextId + hashes.length }
  | .issueReset tokenHash expiresAt =>
      -- the hash of a link is unique
      if tokenHash ∈ s.resets.map (·.tokenHash) then none
      else some { s with resets := s.resets ++ [⟨s.nextId, tokenHash, expiresAt, none⟩], nextId := s.nextId + 1 }

/-- The account and its requests. -/
abbrev World (σ κ : Type) (n : ℕ) := Procs (Account σ κ) (Point σ) n

abbrev Event (σ κ : Type) (n : ℕ) := ProcEvent n Action (Outside σ κ)

/-- The requests of one user as one machine. -/
def requests (otp : σ → ℤ → String) (sha : String → κ) (n : ℕ) : Machine (World σ κ n) (Event σ κ n) :=
  Procs.interleave (statement otp sha) outside n

/-- A new account. -/
def World.start (σ κ : Type) (n : ℕ) : World σ κ n := ⟨{}, fun _ => .idle⟩

/-! ## What is to hold -/

def Success.step : Success → Option ℤ
  | .totp step => some step
  | _ => none

def Success.backupId : Success → Option ℕ
  | .backup id => some id
  | _ => none

def Success.resetId : Success → Option ℕ
  | .reset id => some id
  | _ => none

/-- The steps of the authenticator codes that were accepted. -/
def steps (log : List Success) : List ℤ := log.filterMap Success.step

/-- The backup codes that were accepted. -/
def backupIds (log : List Success) : List ℕ := log.filterMap Success.backupId

/-- The links that set a password. -/
def resetIds (log : List Success) : List ℕ := log.filterMap Success.resetId

/-- Every success is of a step newer than all before, of another backup code or of another link. -/
structure SpentOnce (log : List Success) : Prop where
  steps : (steps log).Pairwise (· < ·)
  backups : (backupIds log).Nodup
  resets : (resetIds log).Nodup

instance (log : List Success) : Decidable (SpentOnce log) :=
  decidable_of_iff ((steps log).Pairwise (· < ·) ∧ (backupIds log).Nodup ∧ (resetIds log).Nodup)
    ⟨fun ⟨a, b, c⟩ => ⟨a, b, c⟩, fun ⟨a, b, c⟩ => ⟨a, b, c⟩⟩

end AdvanceTrading.Mfa

/-!
# A secret is spent once

Which runs of requests spend every sign-in secret once. A request checks the row it read and
writes without asking again, so a run is good exactly as long as no commit spends what another
one spent after the read.
-/

namespace AdvanceTrading.Mfa

variable {σ κ : Type} {n : ℕ}

/-- The row a commit spends is not spent meanwhile: the last step stored is older, the code or the link unused. -/
def UnspentAt (s : Account σ κ) : Point σ → Prop
  | .passed (.totp step) => ∀ last ∈ s.lastStep, last < step
  | .passed (.backup id) => ∀ r ∈ s.backups, r.id = id → r.usedAt = none
  | .passed (.reset id) => ∀ r ∈ s.resets, r.id = id → r.usedAt = none
  | _ => True

/-- The condition on an event: only commits need one. -/
def Unspent (w : World σ κ n) : Event σ κ n → Prop
  | .act who (.commit _ _) => UnspentAt w.shared (w.point who)
  | _ => True

/-- What the rows and the log know of each other. -/
structure Books (s : Account σ κ) : Prop where
  spent : SpentOnce s.log
  last : (steps s.log).getLast? = s.lastStep
  backups : ∀ r ∈ s.backups, r.usedAt.isSome = true ↔ r.id ∈ backupIds s.log
  resets : ∀ r ∈ s.resets, r.usedAt.isSome = true ↔ r.id ∈ resetIds s.log
  newBackup : ∀ id ∈ backupIds s.log, id < s.nextId
  newReset : ∀ id ∈ resetIds s.log, id < s.nextId
  belowBackup : ∀ r ∈ s.backups, r.id < s.nextId
  belowReset : ∀ r ∈ s.resets, r.id < s.nextId

/-- A link that passed is there. -/
def Known (s : Account σ κ) : Point σ → Prop
  | .passed (.reset id) => ∃ r ∈ s.resets, r.id = id
  | _ => True

/-- The invariant. -/
structure Sound (w : World σ κ n) : Prop where
  books : Books w.shared
  known : ∀ q, Known w.shared (w.point q)

variable {s : Account σ κ}

/-! ## The log -/

/-- A step is newer than all before exactly when it is newer than the last one. -/
theorem pairwise_concat_iff {steps : List ℤ} (sorted : steps.Pairwise (· < ·)) (step : ℤ) :
    (steps ++ [step]).Pairwise (· < ·) ↔ ∀ last ∈ steps.getLast?, last < step := by
  rw [List.pairwise_append]
  constructor
  · rintro ⟨-, -, all⟩ last isLast
    exact all last (List.mem_of_getLast? isLast) step (List.mem_singleton_self step)
  · intro newer
    refine ⟨sorted, List.pairwise_singleton _ _, ?_⟩
    intro before mem _ single
    cases List.mem_singleton.mp single
    rcases List.eq_nil_or_concat steps with rfl | ⟨front, last, rfl⟩
    · cases mem
    · rw [List.concat_eq_append] at mem sorted newer
      have lastNewer := newer last (by simp)
      rcases List.mem_append.mp mem with earlier | isLast
      · have older := (List.pairwise_append.mp sorted).2.2 before earlier last (List.mem_singleton_self last)
        omega
      · cases List.mem_singleton.mp isLast
        exact lastNewer

theorem nodup_concat_iff {ids : List ℕ} (nodup : ids.Nodup) (id : ℕ) : (ids ++ [id]).Nodup ↔ id ∉ ids := by
  rw [List.nodup_append]
  constructor
  · rintro ⟨-, -, apart⟩ mem
    exact apart id mem id (List.mem_singleton_self id) rfl
  · intro new
    refine ⟨nodup, List.nodup_singleton id, ?_⟩
    rintro a mem b single rfl
    exact new (List.mem_singleton.mp single ▸ mem)

@[simp] theorem steps_concat (log : List Success) (success : Success) :
    steps (log ++ [success]) = steps log ++ success.step.toList := by
  rw [steps, List.filterMap_append]
  cases success <;> rfl

@[simp] theorem backupIds_concat (log : List Success) (success : Success) :
    backupIds (log ++ [success]) = backupIds log ++ success.backupId.toList := by
  rw [backupIds, List.filterMap_append]
  cases success <;> rfl

@[simp] theorem resetIds_concat (log : List Success) (success : Success) :
    resetIds (log ++ [success]) = resetIds log ++ success.resetId.toList := by
  rw [resetIds, List.filterMap_append]
  cases success <;> rfl

/-- A success is the first of its secret. -/
def First (log : List Success) : Success → Prop
  | .totp step => ∀ last ∈ (steps log).getLast?, last < step
  | .backup id => id ∉ backupIds log
  | .reset id => id ∉ resetIds log

theorem spentOnce_concat {log : List Success} (spent : SpentOnce log) (success : Success) :
    SpentOnce (log ++ [success]) ↔ First log success := by
  have parts : SpentOnce (log ++ [success]) ↔ (steps log ++ success.step.toList).Pairwise (· < ·) ∧
      (backupIds log ++ success.backupId.toList).Nodup ∧ (resetIds log ++ success.resetId.toList).Nodup := by
    rw [← steps_concat, ← backupIds_concat, ← resetIds_concat]
    exact ⟨fun ⟨a, b, c⟩ => ⟨a, b, c⟩, fun ⟨a, b, c⟩ => ⟨a, b, c⟩⟩
  rw [parts]
  cases success with
  | totp step =>
    rw [First, ← pairwise_concat_iff spent.steps]
    simp [Success.step, Success.backupId, Success.resetId, spent.backups, spent.resets]
  | backup id =>
    rw [First, ← nodup_concat_iff spent.backups]
    simp [Success.step, Success.backupId, Success.resetId, spent.steps, spent.resets]
  | reset id =>
    rw [First, ← nodup_concat_iff spent.resets]
    simp [Success.step, Success.backupId, Success.resetId, spent.steps, spent.backups]

/-! ## A commit -/

/-- The rows of a table stay as they are but for the one a success uses, which the log names then. -/
theorem used_setWhere {ρ : Type} {id : ρ → ℕ} {usedAt : ρ → Option ℤ} {use : ρ → ρ} {rows : List ρ}
    {ids : List ℕ} {key : ℕ} (books : ∀ r ∈ rows, (usedAt r).isSome = true ↔ id r ∈ ids)
    (sameId : ∀ r, id (use r) = id r) (used : ∀ r, (usedAt (use r)).isSome = true) :
    ∀ r ∈ Rows.setWhere (fun r => id r = key) use rows, (usedAt r).isSome = true ↔ id r ∈ ids ++ [key] := by
  intro r mem
  obtain ⟨old, mem₀, ⟨isKey, rfl⟩ | ⟨other, rfl⟩⟩ := Rows.mem_setWhere mem
  · rw [sameId, of_decide_eq_true isKey]
    exact iff_of_true (used old) (by simp)
  · have differ : id r ≠ key := of_decide_eq_false other
    rw [books r mem₀, List.mem_append, List.mem_singleton]
    simp [differ]

/-- A commit spends its secret for the first time exactly when the row is not spent yet. -/
theorem commit_spends_iff (books : Books s) {success : Success} (known : Known s (.passed success))
    (now : ℤ) (password : String) :
    SpentOnce (s.commit now password success).log ↔ UnspentAt s (.passed success) := by
  cases success with
  | totp step =>
    show SpentOnce (s.log ++ [.totp step]) ↔ ∀ last ∈ s.lastStep, last < step
    rw [spentOnce_concat books.spent, First, books.last]
  | backup id =>
    by_cases there : id ∈ s.backups.map (·.id)
    · have logged : (s.commit now password (.backup id)).log = s.log ++ [.backup id] := by
        simp only [Account.commit, if_pos there]
      obtain ⟨r, mem, rfl⟩ := List.mem_map.mp there
      rw [logged, spentOnce_concat books.spent, First]
      constructor
      · intro new r' mem' same
        have unused := (not_congr (books.backups r' mem')).mpr (same ▸ new)
        simpa using unused
      · intro unused used
        have isUsed := (books.backups r mem).mpr used
        rw [unused r mem rfl] at isUsed
        cases isUsed
    · have unlogged : (s.commit now password (.backup id)).log = s.log := by
        simp only [Account.commit, if_neg there]
      rw [unlogged]
      exact iff_of_true books.spent fun r mem same => absurd (List.mem_map.mpr ⟨r, mem, same⟩) there
  | reset id =>
    obtain ⟨r, mem, rfl⟩ := known
    show SpentOnce (s.log ++ [.reset r.id]) ↔ _
    rw [spentOnce_concat books.spent, First]
    constructor
    · intro new r' mem' same
      have unused := (not_congr (books.resets r' mem')).mpr (same ▸ new)
      simpa using unused
    · intro unused used
      have isUsed := (books.resets r mem).mpr used
      rw [unused r mem rfl] at isUsed
      cases isUsed

/-- A commit that spends its secret for the first time keeps the books. -/
theorem Books.commit (books : Books s) {success : Success} (known : Known s (.passed success)) {now : ℤ}
    {password : String} (unspent : UnspentAt s (.passed success)) : Books (s.commit now password success) := by
  have once := (commit_spends_iff books known now password).mpr unspent
  cases success with
  | totp step =>
    refine { books with spent := once, last := ?_, backups := ?_, resets := ?_, newBackup := ?_, newReset := ?_ } <;>
      simp only [Account.commit, steps_concat, backupIds_concat, resetIds_concat, Success.step, Success.backupId,
        Success.resetId, Option.toList_some, Option.toList_none, List.append_nil]
    · simp
    · exact books.backups
    · exact books.resets
    · exact books.newBackup
    · exact books.newReset
  | backup id =>
    by_cases there : id ∈ s.backups.map (·.id)
    · have below : id < s.nextId := by
        obtain ⟨r, mem, rfl⟩ := List.mem_map.mp there
        exact books.belowBackup r mem
      simp only [Account.commit, if_pos there] at once ⊢
      refine ⟨once, ?_, ?_, ?_, ?_, ?_, ?_, books.belowReset⟩ <;>
        simp only [steps_concat, backupIds_concat, resetIds_concat, Success.step, Success.backupId, Success.resetId,
          Option.toList_some, Option.toList_none, List.append_nil]
      · exact books.last
      · exact used_setWhere books.backups (fun _ => rfl) fun _ => rfl
      · exact books.resets
      · intro other mem
        rcases List.mem_append.mp mem with old | new
        · exact books.newBackup other old
        · exact List.mem_singleton.mp new ▸ below
      · exact books.newReset
      · intro r mem
        obtain ⟨old, mem₀, ⟨-, rfl⟩ | ⟨-, rfl⟩⟩ := Rows.mem_setWhere mem
        · exact books.belowBackup old mem₀
        · exact books.belowBackup r mem₀
    · simp only [Account.commit, if_neg there]
      exact books
  | reset id =>
    have below : id < s.nextId := by
      obtain ⟨r, mem, rfl⟩ := known
      exact books.belowReset r mem
    simp only [Account.commit] at once ⊢
    refine ⟨once, ?_, ?_, ?_, ?_, ?_, books.belowBackup, ?_⟩ <;>
      simp only [steps_concat, backupIds_concat, resetIds_concat, Success.step, Success.backupId, Success.resetId,
        Option.toList_some, Option.toList_none, List.append_nil]
    · exact books.last
    · exact books.backups
    · exact used_setWhere books.resets (fun _ => rfl) fun _ => rfl
    · exact books.newBackup
    · intro other mem
      rcases List.mem_append.mp mem with old | new
      · exact books.newReset other old
      · exact List.mem_singleton.mp new ▸ below
    · intro r mem
      obtain ⟨old, mem₀, ⟨-, rfl⟩ | ⟨-, rfl⟩⟩ := Rows.mem_setWhere mem
      · exact books.belowReset old mem₀
      · exact books.belowReset r mem₀

/-! ## Steps -/

theorem books_start : Books ({} : Account σ κ) where
  spent := ⟨List.Pairwise.nil, List.nodup_nil, List.nodup_nil⟩
  last := rfl
  backups := by simp
  resets := by simp
  newBackup := by simp [backupIds]
  newReset := by simp [resetIds]
  belowBackup := by simp
  belowReset := by simp

variable [DecidableEq κ] {otp : σ → ℤ → String} {sha : String → κ} {t : Account σ κ} {point next : Point σ}

/-- A statement that commits nothing leaves the account, and a link it passed is there. -/
theorem statement_reads {action : Action} (reads : ∀ now password, action ≠ .commit now password)
    (ran : statement otp sha s point action = some (t, next)) : t = s ∧ Known s next := by
  unfold statement at ran
  split at ran
  · cases ran
    exact ⟨rfl, trivial⟩
  · split at ran <;> cases ran
    · exact ⟨rfl, trivial⟩
    · refine ⟨rfl, ?_⟩
      split <;> trivial
  · split at ran <;> cases ran <;> exact ⟨rfl, trivial⟩
  · -- readReset
    split at ran <;> cases ran
    · exact ⟨rfl, trivial⟩
    · next record found =>
      refine ⟨rfl, ?_⟩
      split
      · trivial
      · exact ⟨record, List.mem_of_find?_eq_some found, rfl⟩
  · next success now password => exact absurd rfl (reads now password)
  · cases ran
  · cases ran
    exact ⟨rfl, trivial⟩
  · cases ran

/-- What others commit spends nothing. -/
theorem Books.outside (books : Books s) {event : Outside σ κ} (ran : outside s event = some t) :
    Books t ∧ (∀ r ∈ s.resets, r ∈ t.resets) ∧ t.log = s.log := by
  cases event with
  | enrol secret =>
    cases ran
    exact ⟨{ books with }, fun _ mem => mem, rfl⟩
  | issueBackupCodes hashes =>
    cases ran
    refine ⟨{ books with backups := ?_, newBackup := ?_, newReset := ?_, belowBackup := ?_, belowReset := ?_ },
      fun _ mem => mem, rfl⟩
    · intro r mem
      obtain ⟨⟨hash, id⟩, mem', rfl⟩ := List.mem_map.mp mem
      refine iff_of_false (by simp) fun used => ?_
      have old := books.newBackup id used
      have new := (List.mem_zipIdx mem').1
      omega
    · exact fun id used => Nat.lt_add_right _ (books.newBackup id used)
    · exact fun id used => Nat.lt_add_right _ (books.newReset id used)
    · intro r mem
      obtain ⟨⟨hash, id⟩, mem', rfl⟩ := List.mem_map.mp mem
      exact (List.mem_zipIdx mem').2.1
    · exact fun r mem => Nat.lt_add_right _ (books.belowReset r mem)
  | issueReset tokenHash expiresAt =>
    simp only [Mfa.outside] at ran
    split at ran
    · cases ran
    · cases ran
      refine ⟨{ books with resets := ?_, newBackup := ?_, newReset := ?_, belowBackup := ?_, belowReset := ?_ },
        fun _ mem => List.mem_append_left _ mem, rfl⟩
      · intro r mem
        rcases List.mem_append.mp mem with old | new
        · exact books.resets r old
        · cases List.mem_singleton.mp new
          exact iff_of_false (by simp) fun used => Nat.lt_irrefl _ (books.newReset _ used)
      · exact fun id used => Nat.lt_succ_of_lt (books.newBackup id used)
      · exact fun id used => Nat.lt_succ_of_lt (books.newReset id used)
      · exact fun r mem => Nat.lt_succ_of_lt (books.belowBackup r mem)
      · intro r mem
        rcases List.mem_append.mp mem with old | new
        · exact Nat.lt_succ_of_lt (books.belowReset r old)
        · cases List.mem_singleton.mp new
          exact Nat.lt_succ_self _

omit [DecidableEq κ] in
/-- A link that is there stays. -/
theorem Known.mono {r : Point σ} (known : Known s r)
    (kept : ∀ id, (∃ r ∈ s.resets, r.id = id) → ∃ r ∈ t.resets, r.id = id) : Known t r := by
  cases r with
  | passed success =>
    cases success with
    | reset id => exact kept id known
    | totp | backup => trivial
  | idle | loaded | unmatched => trivial

omit [DecidableEq κ] in
theorem commit_resets (success : Success) (now : ℤ) (password : String) (id : ℕ) (there : ∃ r ∈ s.resets, r.id = id) :
    ∃ r ∈ (s.commit now password success).resets, r.id = id := by
  cases success with
  | totp step => exact there
  | backup code =>
    unfold Account.commit
    simp only
    split <;> exact there
  | reset other =>
    obtain ⟨r, mem, rfl⟩ := there
    refine ⟨_, List.mem_map_of_mem mem, ?_⟩
    split <;> rfl

variable {w v : World σ κ n} {event : Event σ κ n}

/-- A step spends each secret once exactly when it meets the condition, and keeps the invariant then. -/
theorem Sound.step (sound : Sound w) (stepped : (requests otp sha n).step w event = some v) :
    (SpentOnce v.shared.log ↔ Unspent w event) ∧ (Unspent w event → Sound v) := by
  cases event with
  | outside event =>
    obtain ⟨t, ran, rfl⟩ := Procs.outside_eq stepped
    obtain ⟨books, kept, same⟩ := sound.books.outside ran
    refine ⟨iff_of_true (same ▸ sound.books.spent) trivial, fun _ => ⟨books, fun q => ?_⟩⟩
    exact (sound.known q).mono fun id ⟨r, mem, own⟩ => ⟨r, kept r mem, own⟩
  | act who action =>
    obtain ⟨t, next, ran, rfl⟩ := Procs.act_eq stepped
    by_cases commits : ∃ now password, action = .commit now password
    · obtain ⟨now, password, rfl⟩ := commits
      have known := sound.known who
      cases stands : w.point who with
      | passed success =>
        rw [stands] at ran known
        cases ran
        have spends := commit_spends_iff sound.books known now password
        rw [Procs.move_shared, Unspent, stands]
        refine ⟨spends, fun unspent => ⟨sound.books.commit known unspent, fun q => ?_⟩⟩
        have idle : Known (w.shared.commit now password success) .idle := trivial
        refine Procs.forall_move (P := Known (w.shared.commit now password success)) (fun q _ => ?_) idle q
        exact (sound.known q).mono fun id there => commit_resets success now password id there
      | idle | loaded | unmatched =>
        rw [stands] at ran
        cases ran
    · have reads : ∀ now password, action ≠ .commit now password :=
        fun now password same => commits ⟨now, password, same⟩
      obtain ⟨rfl, known⟩ := statement_reads reads ran
      have free : Unspent w (.act who action) := by
        cases action with
        | commit now password => exact absurd rfl (reads now password)
        | readUser | check | readBackup | readReset | stop => trivial
      refine ⟨iff_of_true sound.books.spent free, fun _ => ⟨sound.books, fun q => ?_⟩⟩
      exact Procs.forall_move (P := Known _) (fun q _ => sound.known q) known q

/-! ## Runs -/

/-- In every run of requests: each state the run reaches has spent every secret once, and only steps newer than all
before, exactly when each commit finds the row it spends unspent. -/
theorem secrets_spent_once_iff (otp : σ → ℤ → String) (sha : String → κ) {events : List (Event σ κ n)}
    (ran : (requests otp sha n).run (World.start σ κ n) events = some w) :
    (requests otp sha n).Meets (fun u event => ∀ v, (requests otp sha n).step u event = some v → SpentOnce v.shared.log)
        (World.start σ κ n) events ↔
      (requests otp sha n).Meets Unspent (World.start σ κ n) events := by
  have start : Sound (World.start σ κ n) := ⟨books_start, fun _ => trivial⟩
  refine (requests otp sha n).meets_iff ?_ ?_ start ran
  · intro u event v sound stepped
    rw [← (sound.step stepped).1]
    constructor
    · exact fun all => all v stepped
    · intro once v' stepped'
      cases stepped.symm.trans stepped'
      exact once
  · exact fun u event v sound unspent stepped => (sound.step stepped).2 unspent

/-! ## Two requests -/

instance (s : Account σ κ) (point : Point σ) : Decidable (UnspentAt s point) :=
  match point with
  | .passed (.totp _) => inferInstanceAs (Decidable (∀ _ ∈ _, _))
  | .passed (.backup _) => inferInstanceAs (Decidable (∀ _ ∈ _, _ → _))
  | .passed (.reset _) => inferInstanceAs (Decidable (∀ _ ∈ _, _ → _))
  | .idle | .loaded .. | .unmatched _ => isTrue trivial

instance (w : World σ κ n) (event : Event σ κ n) : Decidable (Unspent w event) :=
  match event with
  | .act who (.commit _ _) => inferInstanceAs (Decidable (UnspentAt w.shared (w.point who)))
  | .act _ (.readUser ..) | .act _ (.check _) | .act _ .readBackup | .act _ (.readReset ..)
  | .act _ .stop | .outside _ =>
      isTrue trivial

/-- Codes of the steps from 100 to 999. -/
def stepCode (_ : Unit) (step : ℤ) : String := "000" ++ toString step

/-- An authenticator code, read and checked at a time. -/
def enters (who : Fin 2) (code : String) (now : ℤ) : List (Event Unit String 2) :=
  [.act who (.readUser code false), .act who (.check now)]

def commits (who : Fin 2) (now : ℤ) : Event Unit String 2 := .act who (.commit now "new")

def enrolled : List (Event Unit String 2) :=
  [.outside (.enrol (some ())), .outside (.issueBackupCodes ["abcdef0123"]), .outside (.issueReset "link" 9000)]

/-- The log after a run of two requests. -/
def logAfter (events : List (Event Unit String 2)) : Option (List Success) :=
  ((requests stepCode id 2).run (World.start Unit String 2) events).map (·.shared.log)

/-- Requests that both read before either commits: one authenticator code succeeds twice; a step older than the one
accepted succeeds, after which the newer one does again; a backup code succeeds twice; a link sets two passwords. -/
theorem spent_twice :
    logAfter (enrolled ++ enters 0 "000101" 3030 ++ enters 1 "000101" 3031 ++ [commits 0 3032, commits 1 3033]) =
        some [.totp 101, .totp 101] ∧
      logAfter (enrolled ++ enters 0 "000101" 3030 ++ enters 1 "000102" 3031 ++ [commits 1 3032, commits 0 3033] ++
          enters 1 "000102" 3034 ++ [commits 1 3035]) = some [.totp 102, .totp 101, .totp 102] ∧
      logAfter (enrolled ++ enters 0 "abcde-f0123" 3030 ++ enters 1 "ABCDEF0123" 3030 ++
          [.act 0 .readBackup, .act 1 .readBackup, commits 0 3031, commits 1 3032]) = some [.backup 0, .backup 0] ∧
      logAfter (enrolled ++ [.act 0 (.readReset "link" 3030), .act 1 (.readReset "link" 3030), commits 0 3031,
          commits 1 3032]) = some [.reset 1, .reset 1] ∧
      ¬ SpentOnce [.totp 101, .totp 101] ∧ ¬ SpentOnce [.totp 102, .totp 101, .totp 102] ∧
      ¬ SpentOnce [.backup 0, .backup 0] ∧ ¬ SpentOnce [.reset 1, .reset 1] := by
  decide +kernel

/-- One request after the other. -/
def inTurn : List (Event Unit String 2) :=
  enrolled ++ enters 0 "000101" 3030 ++ [commits 0 3031] ++ enters 1 "000101" 3032 ++ [.act 1 .readBackup] ++
    enters 1 "000102" 3033 ++ [commits 1 3034, .act 0 (.readReset "link" 3035), commits 0 3036]

theorem in_turn_spent_once :
    ∃ w, (requests stepCode id 2).run (World.start Unit String 2) inTurn = some w ∧
      w.shared.log = [.totp 101, .totp 102, .reset 1] ∧
      (requests stepCode id 2).Meets (fun u event => ∀ v,
        (requests stepCode id 2).step u event = some v → SpentOnce v.shared.log)
        (World.start Unit String 2) inTurn := by
  have runs : logAfter inTurn = some [.totp 101, .totp 102, .reset 1] := by decide +kernel
  obtain ⟨w, ran, log⟩ := Option.map_eq_some_iff.mp runs
  exact ⟨w, ran, log, (secrets_spent_once_iff stepCode id ran).mpr (by decide +kernel)⟩

end AdvanceTrading.Mfa
