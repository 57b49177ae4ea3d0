import AdvanceTrading.Auth.Sessions
import AdvanceTrading.Misc.Processes
import Mathlib.Data.List.Nodup
import Mathlib.Tactic.SplitIfs

/-!
# Reuse of a rotated token

Which presentations of a replaced refresh token end its session. Each row keeps one previous
hash, the one its latest rotation was presented with; the log says what that leaves out. A hash
in the log belongs to one session and is no row's current hash, so that a replaced token finds
its session's row or none.
-/

namespace AdvanceTrading.Sessions

variable {τ κ : Type} {cfg : Settings} {hash : τ → κ} {call : Call τ} {s t : Store κ} {rows : List (Session κ)}
  {record r r' : Session κ} {now : ℕ}

theorem judge_rotates (judged : judge cfg call r = .rotates record) : record = r := by
  unfold judge at judged
  split at judged
  · exact (Verdict.rotates.inj judged).symm
  · cases judged

/-! ## Knowledge of the log -/

/-- The hash was presented for the rotation, or retired by it. -/
def Rotation.Names (e : Rotation κ) (h : κ) : Prop := e.presented = h ∨ e.retired = h

/-- What the rows and the log know of each other. -/
structure Books (s : Store κ) : Prop where
  ids : (s.rows.map (·.id)).Nodup
  current : ∀ r ∈ s.rows, ∀ r' ∈ s.rows, r.refreshTokenHash = r'.refreshTokenHash → r.id = r'.id
  unused : ∀ r ∈ s.rows, ∀ e ∈ s.log, ¬ e.Names r.refreshTokenHash
  owner : ∀ e ∈ s.log, ∀ e' ∈ s.log, ∀ h, e.Names h → e'.Names h → e.session = e'.session
  previous : ∀ r ∈ s.rows, r.previousTokenHash = (lastRotation s.log r.id).map (·.presented)
  used : ∀ r ∈ s.rows, ∀ e ∈ lastRotation s.log r.id, e.at_ = r.lastUsedAt
  listed : ∀ e ∈ s.log, ∃ r ∈ s.rows, r.id = e.session

theorem lastRotation_mem {log : List (Rotation κ)} {session : ℕ} {e : Rotation κ}
    (last : lastRotation log session = some e) : e ∈ log ∧ e.session = session :=
  ⟨List.mem_of_find?_eq_some last, by simpa using List.find?_some last⟩

theorem Books.same (books : Books s) (mem : r ∈ s.rows) (mem' : r' ∈ s.rows) (same : r.id = r'.id) : r = r' :=
  List.inj_on_of_nodup_map books.ids mem mem' same

/-- A row's previous hash is named by a rotation of its own. -/
theorem Books.previous_named (books : Books s) (mem : r ∈ s.rows) {h : κ}
    (isPrevious : r.previousTokenHash = some h) : ∃ e ∈ s.log, e.session = r.id ∧ e.Names h := by
  rw [books.previous r mem] at isPrevious
  obtain ⟨e, last, presented⟩ := Option.map_eq_some_iff.mp isPrevious
  obtain ⟨isLogged, own⟩ := lastRotation_mem last
  exact ⟨e, isLogged, own, Or.inl presented⟩

theorem mem_issued_of_row (mem : r ∈ s.rows) : r.refreshTokenHash ∈ s.issued :=
  List.mem_append_left _ (List.mem_map_of_mem mem)

theorem mem_issued_of_log {e : Rotation κ} (mem : e ∈ s.log) {h : κ} (names : e.Names h) : h ∈ s.issued := by
  refine List.mem_append_right _ (List.mem_flatMap.mpr ⟨e, mem, ?_⟩)
  rcases names with rfl | rfl <;> simp

/-! ## Steps -/

/-- Rows whose identity, hashes and last use stay. -/
theorem Books.setWhere (books : Books s) {guard : Session κ → Bool} {write : Session κ → Session κ}
    (id : ∀ r, (write r).id = r.id) (current : ∀ r, (write r).refreshTokenHash = r.refreshTokenHash)
    (previous : ∀ r, (write r).previousTokenHash = r.previousTokenHash)
    (used : ∀ r, (write r).lastUsedAt = r.lastUsedAt) :
    Books { s with rows := Rows.setWhere guard write s.rows } := by
  have old : ∀ r ∈ Rows.setWhere guard write s.rows, ∃ r₀ ∈ s.rows, r.id = r₀.id ∧
      r.refreshTokenHash = r₀.refreshTokenHash ∧
      r.previousTokenHash = r₀.previousTokenHash ∧ r.lastUsedAt = r₀.lastUsedAt := by
    intro r mem
    obtain ⟨r₀, mem₀, ⟨-, rfl⟩ | ⟨-, rfl⟩⟩ := Rows.mem_setWhere mem
    · exact ⟨r₀, mem₀, id r₀, current r₀, previous r₀, used r₀⟩
    · exact ⟨r, mem₀, rfl, rfl, rfl, rfl⟩
  constructor
  case ids =>
    rw [Rows.map_setWhere id]
    exact books.ids
  case current =>
    intro r mem r' mem' same
    obtain ⟨r₀, mem₀, sameId, sameCurrent, -⟩ := old r mem
    obtain ⟨r₁, mem₁, sameId', sameCurrent', -⟩ := old r' mem'
    rw [sameId, sameId']
    exact books.current r₀ mem₀ r₁ mem₁ (by rw [← sameCurrent, same, sameCurrent'])
  case unused =>
    intro r mem e logged
    obtain ⟨r₀, mem₀, -, sameCurrent, -⟩ := old r mem
    rw [sameCurrent]
    exact books.unused r₀ mem₀ e logged
  case owner => exact books.owner
  case previous =>
    intro r mem
    obtain ⟨r₀, mem₀, sameId, -, samePrevious, -⟩ := old r mem
    rw [samePrevious, sameId]
    exact books.previous r₀ mem₀
  case used =>
    intro r mem e last
    obtain ⟨r₀, mem₀, sameId, -, -, sameUsed⟩ := old r mem
    rw [sameUsed]
    exact books.used r₀ mem₀ e (sameId ▸ last)
  case listed =>
    intro e logged
    obtain ⟨r, mem, own⟩ := books.listed e logged
    have mapped : e.session ∈ (Rows.setWhere guard write s.rows).map (·.id) := by
      rw [Rows.map_setWhere id, ← own]
      exact List.mem_map_of_mem mem
    obtain ⟨r', mem', own'⟩ := List.mem_map.mp mapped
    exact ⟨r', mem', own'⟩

/-- A login with a new row and a new token. -/
theorem Books.start (books : Books s) {id userId : ℕ} {tokenHash : κ} {request : Option Request}
    (newId : id ∉ s.rows.map (·.id)) (newToken : tokenHash ∉ s.issued) :
    Books { s with rows := s.rows ++ [startSession cfg id userId tokenHash now request] } := by
  have unlogged : ∀ e ∈ s.log, e.session ≠ id := by
    rintro e logged rfl
    obtain ⟨r, mem, own⟩ := books.listed e logged
    exact newId (own ▸ List.mem_map_of_mem mem)
  have noRotation : lastRotation s.log id = none := by
    refine List.find?_eq_none.mpr fun e logged => ?_
    simpa using unlogged e logged
  have rows_cases : ∀ r ∈ s.rows ++ [startSession cfg id userId tokenHash now request],
      r ∈ s.rows ∨ r = startSession cfg id userId tokenHash now request := by
    intro r mem
    simpa using mem
  constructor
  case ids =>
    rw [List.map_append, List.nodup_append]
    refine ⟨books.ids, by simp, ?_⟩
    intro id' old _ new same
    rw [List.map_singleton, List.mem_singleton] at new
    have isNew : id' = id := same.trans new
    exact newId (isNew ▸ old)
  case current =>
    intro r mem r' mem' same
    rcases rows_cases r mem with old | rfl <;> rcases rows_cases r' mem' with old' | rfl
    · exact books.current r old r' old' same
    · exact absurd (mem_issued_of_row old) (same ▸ newToken)
    · exact absurd (mem_issued_of_row old') (same ▸ newToken)
    · rfl
  case unused =>
    intro r mem e logged names
    rcases rows_cases r mem with old | rfl
    · exact books.unused r old e logged names
    · exact newToken (mem_issued_of_log (s := s) logged names)
  case owner => exact books.owner
  case previous =>
    intro r mem
    rcases rows_cases r mem with old | rfl
    · exact books.previous r old
    · show none = (lastRotation s.log id).map _
      rw [noRotation, Option.map_none]
  case used =>
    intro r mem e last
    rcases rows_cases r mem with old | rfl
    · exact books.used r old e last
    · exact absurd (noRotation ▸ last) (by simp)
  case listed =>
    intro e logged
    obtain ⟨r, mem, own⟩ := books.listed e logged
    exact ⟨r, List.mem_append_left _ mem, own⟩

theorem books_start : Books ({} : Store κ) := by
  constructor <;> simp

/-- A row of the session that is not revoked keeps the session unrevoked. -/
theorem Books.revoked_iff (books : Books s) (mem : r ∈ s.rows) : Revoked s.rows r.id ↔ r.revokedAt.isSome = true := by
  constructor
  · rintro ⟨r', mem', same, revoked⟩
    exact books.same mem' mem same ▸ revoked
  · exact fun revoked => ⟨r, mem, rfl, revoked⟩

/-- The row that is found by a replaced token's hash as its previous one is its session's. -/
theorem Books.found_session (books : Books s) {h : κ} {session at_ : ℕ} (replaced : Replaced s.log session h at_)
    (mem : r ∈ s.rows) (isPrevious : r.previousTokenHash = some h) : r.id = session := by
  obtain ⟨e, logged, rfl, names, -⟩ := replaced
  obtain ⟨e', logged', own, names'⟩ := books.previous_named mem isPrevious
  rw [← own]
  exact books.owner e' logged' e logged h names' names

variable [DecidableEq κ]

/-- A row that is rotated holds the presented hash, as its own or as its previous one. -/
theorem verdict_rotates (rotates : verdict cfg hash call rows = .rotates record) :
    record ∈ rows ∧ (record.refreshTokenHash = hash call.token ∨
      record.previousTokenHash = some (hash call.token)) := by
  unfold verdict at rotates
  split at rotates
  · next found =>
    cases judge_rotates rotates
    exact ⟨List.mem_of_find?_eq_some found, Or.inl (by simpa using List.find?_some found)⟩
  · split at rotates
    · cases rotates
    · next reused found =>
      split_ifs at rotates
      cases judge_rotates rotates
      exact ⟨List.mem_of_find?_eq_some found, Or.inr (by simpa using List.find?_some found)⟩

/-- A rotation of a row for a hash it holds. -/
theorem Books.rotate (books : Books s) (mem : record ∈ s.rows) {h new : κ}
    (holds : record.refreshTokenHash = h ∨ record.previousTokenHash = some h)
    (fresh : new ∉ s.issued) (request : Option Request) :
    Books ⟨Rows.setWhere (fun r => r.id = record.id) (Session.rotated cfg h new now request) s.rows,
      ⟨record.id, h, record.refreshTokenHash, now⟩ :: s.log⟩ := by
  have rows_cases : ∀ r ∈ Rows.setWhere (fun r => r.id = record.id) (Session.rotated cfg h new now request) s.rows,
      r = Session.rotated cfg h new now request record ∨ r ∈ s.rows ∧ r.id ≠ record.id := by
    intro r mem'
    obtain ⟨r₀, mem₀, ⟨own, rfl⟩ | ⟨other, rfl⟩⟩ := Rows.mem_setWhere mem'
    · exact Or.inl (by rw [books.same mem₀ mem (by simpa using own)])
    · exact Or.inr ⟨mem₀, by simpa using other⟩
  -- Before the rotation, what it names is named by rotations of this session only, and is no other row's hash.
  have named : ∀ e ∈ s.log, ∀ h', e.Names h' → h = h' ∨ record.refreshTokenHash = h' → e.session = record.id := by
    rintro e logged _ names (rfl | rfl)
    · rcases holds with rfl | isPrevious
      · exact absurd names (books.unused record mem e logged)
      · obtain ⟨e', logged', own, names'⟩ := books.previous_named mem isPrevious
        exact own ▸ books.owner e logged e' logged' h names names'
    · exact absurd names (books.unused record mem e logged)
  have notOther : ∀ r ∈ s.rows, r.id ≠ record.id →
      ¬ (h = r.refreshTokenHash ∨ record.refreshTokenHash = r.refreshTokenHash) := by
    rintro r old other (rfl | same)
    · rcases holds with same | isPrevious
      · exact other (books.current r old record mem same.symm)
      · obtain ⟨e, logged, -, names⟩ := books.previous_named mem isPrevious
        exact books.unused r old e logged names
    · exact other (books.current r old record mem same.symm)
  have held : h ∈ s.issued := by
    rcases holds with rfl | isPrevious
    · exact mem_issued_of_row mem
    · obtain ⟨e, logged, -, names⟩ := books.previous_named mem isPrevious
      exact mem_issued_of_log logged names
  have last_own : lastRotation (⟨record.id, h, record.refreshTokenHash, now⟩ :: s.log) record.id =
      some ⟨record.id, h, record.refreshTokenHash, now⟩ := by
    rw [lastRotation, List.find?_cons_of_pos (by simp)]
  have last_other : ∀ id, id ≠ record.id →
      lastRotation (⟨record.id, h, record.refreshTokenHash, now⟩ :: s.log) id = lastRotation s.log id := by
    intro id other
    rw [lastRotation, List.find?_cons_of_neg (by simpa using other.symm)]
    rfl
  have sameIds : (Rows.setWhere (fun r => r.id = record.id) (Session.rotated cfg h new now request) s.rows).map (·.id) =
      s.rows.map (·.id) := Rows.map_setWhere fun _ => rfl
  constructor
  case ids =>
    rw [sameIds]
    exact books.ids
  case current =>
    intro r mem₁ r' mem₂ same
    rcases rows_cases r mem₁ with rfl | ⟨old, -⟩ <;> rcases rows_cases r' mem₂ with rfl | ⟨old', -⟩
    · rfl
    · exact absurd (mem_issued_of_row old') (same ▸ fresh)
    · exact absurd (mem_issued_of_row old) (same ▸ fresh)
    · exact books.current r old r' old' same
  case unused =>
    intro r mem₁ e logged names
    rcases rows_cases r mem₁ with rfl | ⟨old, other⟩ <;> rcases List.mem_cons.mp logged with rfl | logged
    · change h = new ∨ record.refreshTokenHash = new at names
      rcases names with rfl | rfl
      · exact fresh held
      · exact fresh (mem_issued_of_row mem)
    · exact fresh (mem_issued_of_log logged names)
    · exact notOther r old other names
    · exact books.unused r old e logged names
  case owner =>
    intro e logged e' logged' h' names names'
    rcases List.mem_cons.mp logged with rfl | logged <;> rcases List.mem_cons.mp logged' with rfl | logged'
    · rfl
    · exact (named e' logged' h' names' names).symm
    · exact named e logged h' names names'
    · exact books.owner e logged e' logged' h' names names'
  case previous =>
    intro r mem₁
    rcases rows_cases r mem₁ with rfl | ⟨old, other⟩
    · show some (if record.refreshTokenHash = h then record.refreshTokenHash else h) = (lastRotation _ record.id).map _
      rw [last_own]
      split_ifs with same
      · rw [same]; rfl
      · rfl
    · rw [last_other r.id other]
      exact books.previous r old
  case used =>
    intro r mem₁ e last
    rcases rows_cases r mem₁ with rfl | ⟨old, other⟩
    · change lastRotation _ record.id = some e at last
      rw [last_own] at last
      cases last
      rfl
    · rw [last_other r.id other] at last
      exact books.used r old e last
  case listed =>
    intro e logged
    have mapped : e.session ∈ (Rows.setWhere (fun r => r.id = record.id)
        (Session.rotated cfg h new now request) s.rows).map (·.id) := by
      rw [sameIds]
      rcases List.mem_cons.mp logged with rfl | logged
      · exact List.mem_map_of_mem mem
      · obtain ⟨r, mem', own⟩ := books.listed e logged
        exact own ▸ List.mem_map_of_mem mem'
    obtain ⟨r, mem', own⟩ := List.mem_map.mp mapped
    exact ⟨r, mem', own⟩

theorem Books.step (books : Books s) {event : Event τ} (stepped : step cfg hash s event = some t) : Books t := by
  cases event with
  | start id userId token now request =>
    obtain ⟨⟨newId, newToken⟩, rfl⟩ := Option.ite_some_none_eq_some.mp stepped
    exact books.start newId newToken
  | rotate call =>
    obtain ⟨fresh, rfl⟩ := Option.ite_some_none_eq_some.mp stepped
    unfold rotateRefreshToken logged
    cases judged : verdict cfg hash call s.rows with
    | rotates record =>
      obtain ⟨mem, holds⟩ := verdict_rotates judged
      exact books.rotate mem holds fresh call.request
    | revokes record => exact books.setWhere (fun _ => rfl) (fun _ => rfl) (fun _ => rfl) fun _ => rfl
    | refuses => exact books
  | revoke id now reason =>
    cases stepped
    exact books.setWhere (fun _ => rfl) (fun _ => rfl) (fun _ => rfl) fun _ => rfl

theorem books_run {events : List (Event τ)} (ran : (sessions cfg hash).run {} events = some s) : Books s :=
  (sessions cfg hash).run_invariant_all (fun _ _ _ books stepped => books.step stepped) books_start ran

/-! ## Presenting a replaced token -/

/-- In every run of logins, rotations and revocations, whenever a token that was replaced is presented: the call
answers nothing and leaves the session revoked exactly when the session was revoked before, or the token is the
one its latest rotation was presented with and more than the grace time has passed since. -/
theorem reuse_ends_session_iff (cfg : Settings) (hash : τ → κ) (events : List (Event τ))
    {s : Store κ} (ran : (sessions cfg hash).run {} events = some s) (call : Call τ)
    {session at_ : ℕ} (replaced : Replaced s.log session (hash call.token) at_) :
    EndsSession cfg hash call s.rows session ↔
      Revoked s.rows session ∨ JustRotated cfg s.log session (hash call.token) call.checked := by
  have books := books_run ran
  obtain ⟨own, isOwn, isSession⟩ : ∃ r ∈ s.rows, r.id = session := by
    obtain ⟨e, logged, rfl, -⟩ := replaced
    exact books.listed e logged
  have noCurrent : s.rows.find? (fun r => r.refreshTokenHash = hash call.token) = none := by
    refine List.find?_eq_none.mpr fun r mem same => ?_
    obtain ⟨e, logged, -, names, -⟩ := replaced
    exact books.unused r mem e logged (of_decide_eq_true same ▸ names)
  have just_iff : JustRotated cfg s.log session (hash call.token) call.checked ↔
      own.previousTokenHash = some (hash call.token) ∧ own.lastUsedAt + cfg.graceSeconds * secondUs < call.checked := by
    rw [books.previous own isOwn, isSession]
    constructor
    · rintro ⟨e, last, presented, late⟩
      exact ⟨by rw [last, Option.map_some, presented], books.used own isOwn e (isSession ▸ last) ▸ late⟩
    · rintro ⟨isPrevious, late⟩
      obtain ⟨e, last, presented⟩ := Option.map_eq_some_iff.mp isPrevious
      exact ⟨e, last, presented, (books.used own isOwn e (isSession ▸ last)).symm ▸ late⟩
  have revoked_iff := isSession ▸ books.revoked_iff isOwn
  have keeps : (rotateRefreshToken cfg hash call s.rows).2 = s.rows →
      (EndsSession cfg hash call s.rows session → own.revokedAt.isSome = true) := by
    rintro same ⟨-, revoked⟩
    rw [same] at revoked
    exact revoked_iff.mp revoked
  rw [revoked_iff, just_iff]
  cases found : s.rows.find? fun r => r.previousTokenHash = some (hash call.token) with
  | none =>
    -- The row has moved on: nothing is known of the token any more.
    have refuses : rotateRefreshToken cfg hash call s.rows = (none, s.rows) := by
      simp only [rotateRefreshToken, verdict, noCurrent, found]
    have unknown : own.previousTokenHash ≠ some (hash call.token) := by
      simpa using List.find?_eq_none.mp found own isOwn
    refine ⟨fun ends => Or.inl (keeps (by rw [refuses]) ends), ?_⟩
    rintro (revoked | ⟨isPrevious, -⟩)
    · exact ⟨by rw [refuses]; rfl, own, by rw [refuses]; exact isOwn, isSession, revoked⟩
    · exact absurd isPrevious unknown
  | some reused =>
    have isReused := List.mem_of_find?_eq_some found
    have isPrevious : reused.previousTokenHash = some (hash call.token) := by simpa using List.find?_some found
    obtain rfl : reused = own :=
      books.same isReused isOwn ((books.found_session replaced isReused isPrevious).trans isSession.symm)
    by_cases revoked : reused.revokedAt.isSome = true
    · have refuses : rotateRefreshToken cfg hash call s.rows = (none, s.rows) := by
        simp only [rotateRefreshToken, verdict, noCurrent, found, if_pos revoked]
      exact iff_of_true
        ⟨by rw [refuses]; rfl, reused, by rw [refuses]; exact isOwn, isSession, revoked⟩ (.inl revoked)
    · by_cases soon : call.checked ≤ reused.lastUsedAt + cfg.graceSeconds * secondUs
      · -- In the grace window of the latest rotation the token may retry.
        refine iff_of_false ?_ (by simp [revoked, soon])
        have judged : verdict cfg hash call s.rows = judge cfg call reused := by
          simp only [verdict, noCurrent, found, if_neg revoked, if_pos soon]
        intro ends
        by_cases live : (sessionIsLive cfg reused call.asked && call.active) = true
        · have answer := ends.1
          rw [judge, if_pos live] at judged
          simp only [rotateRefreshToken, judged] at answer
          cases answer
        · rw [judge, if_neg live] at judged
          exact revoked (keeps (by rw [rotateRefreshToken, judged]) ends)
      · have revokes : rotateRefreshToken cfg hash call s.rows = (none, Rows.setWhere (fun r => r.id = reused.id)
            (Session.revoke call.asked "refresh token reuse detected") s.rows) := by
          simp only [rotateRefreshToken, verdict, noCurrent, found, if_neg revoked, if_neg soon]
        refine iff_of_true ⟨by rw [revokes]; rfl,
          reused.revoke call.asked "refresh token reuse detected", ?_, isSession, rfl⟩
          (Or.inr ⟨isPrevious, not_le.mp soon⟩)
        rw [revokes]
        exact List.mem_map.mpr ⟨reused, isOwn, by simp⟩

/-! ## One session -/

/-- A refresh `seconds` after the login, with one reading of the clock. -/
def refresh (token newToken seconds : ℕ) : Call ℕ where
  token := token
  newToken := newToken
  checked := seconds * secondUs
  asked := seconds * secondUs
  rotated := seconds * secondUs

def login : Event ℕ := .start 1 1 100 0 none

/-- The token of one rotation ends the session when it comes back. -/
theorem reuse_ends_session_once : ∃ s, (sessions {} id).run {} [login, .rotate (refresh 100 101 1000)] = some s ∧
    EndsSession {} id (refresh 100 102 1100) s.rows 1 :=
  ⟨_, rfl, (reuse_ends_session_iff {} id [login, .rotate (refresh 100 101 1000)] rfl (refresh 100 102 1100)
    ⟨_, List.mem_singleton_self _, rfl, Or.inl rfl, rfl⟩).mpr (Or.inr ⟨_, rfl, rfl, by decide⟩)⟩

/-- A token from before the last rotation is unknown, and so is one a rotation in the grace window retired: each is
presented 1000 seconds after it was replaced and leaves the session as it was. -/
theorem older_token_unknown :
    (∃ s, (sessions {} id).run {} [login, .rotate (refresh 100 101 1000), .rotate (refresh 101 102 2000)] = some s ∧
      Replaced s.log 1 100 (1000 * secondUs) ∧ ¬ EndsSession {} id (refresh 100 103 3000) s.rows 1) ∧
    ∃ s, (sessions {} id).run {} [login, .rotate (refresh 100 101 1000), .rotate (refresh 100 102 1010)] = some s ∧
      Replaced s.log 1 101 (1010 * secondUs) ∧ ¬ EndsSession {} id (refresh 101 103 2010) s.rows 1 := by
  unfold Replaced EndsSession
  exact ⟨⟨_, rfl, by decide, by decide⟩, ⟨_, rfl, by decide, by decide⟩⟩

end AdvanceTrading.Sessions

/-!
# Rotations and revocations side by side

The statements of `rotate_refresh_token` and of the revocations (`app/auth/sessions.py:90-154`)
for any number of transactions. A `SELECT ... FOR UPDATE` waits until no one has the row and
keeps it until its transaction ends; an `UPDATE` waits for the row too and writes only the
columns it sets. `revoke_session` is given a row that was read earlier without a lock.
The tokens handed out are logged beside the rows; nothing reads the log.
-/

namespace AdvanceTrading.Sessions

variable {τ κ : Type}

/-- A token that was handed out: its hash, the one it was exchanged for, and when. -/
structure Grant (κ : Type) where
  session : ℕ
  granted : κ
  presented : Option κ
  at_ : ℕ

/-- The table, the tokens handed out (newest first), and the rows that are locked. -/
structure Locked (κ : Type) where
  rows : List (Session κ) := []
  grants : List (Grant κ) := []
  locked : List ℕ := []

/-- Where a transaction stands. -/
inductive Stand (τ κ : Type) where
  | idle
  /-- No row has the token's hash as its current one. -/
  | unmatched (token : τ)
  /-- The row is locked; `reused` when it was found by its previous hash. -/
  | holding (token : τ) (record : Session κ) (reused : Bool)
  /-- The row `revoke_session` is given. -/
  | loaded (record : Session κ)

/-- The next statement of a transaction. -/
inductive Move (τ : Type) where
  | start (id userId : ℕ) (token : τ) (now : ℕ) (request : Option Request)
  | look (token : τ)
  | lookPrevious
  | settle (call : Call τ)
  | load (id : ℕ)
  | revoke (now : ℕ) (reason : String)
  | revokeAll (userId now : ℕ) (reason : String) (keep : Option ℕ)
  | stop

variable [DecidableEq κ]

/-- What becomes of the row a rotation has locked. -/
def settle (cfg : Settings) (call : Call τ) (record : Session κ) (reused : Bool) : Verdict κ :=
  if reused then
    if record.revokedAt.isSome then .refuses
    else if call.checked ≤ record.lastUsedAt + cfg.graceSeconds * secondUs then judge cfg call record
    else .revokes record
  else judge cfg call record

/-- Lock a row for a token, once no one else has it. -/
def Locked.lock (s : Locked κ) (token : τ) (reused : Bool) (record : Session κ) : Option (Locked κ × Stand τ κ) :=
  if record.id ∈ s.locked then none
  else some ({ s with locked := record.id :: s.locked }, .holding token record reused)

/-- The end of a transaction that had a row. -/
def Locked.release (s : Locked κ) (id : ℕ) : Locked κ := { s with locked := s.locked.erase id }

/-- The write and the commit of a rotation. -/
def Locked.settled (s : Locked κ) (cfg : Settings) (hash : τ → κ) (call : Call τ) : Verdict κ → Locked κ
  | .rotates record =>
      { s with
        rows := Rows.setWhere (fun r => r.id = record.id)
          (Session.rotated cfg (hash call.token) (hash call.newToken) call.rotated call.request) s.rows
        grants := ⟨record.id, hash call.newToken, some (hash call.token), call.rotated⟩ :: s.grants }
  | .revokes record =>
      { s with
        rows := Rows.setWhere (fun r => r.id = record.id)
          (Session.revoke call.asked "refresh token reuse detected") s.rows }
  | .refuses => s

/-- The rows `revoke_all_sessions` updates. -/
def revokedBy (userId : ℕ) (keep : Option ℕ) (r : Session κ) : Bool :=
  decide (r.userId = userId) && r.revokedAt.isNone && decide (keep ≠ some r.id)

/-- One statement of a transaction. -/
def statement (cfg : Settings) (hash : τ → κ) (s : Locked κ) : Stand τ κ → Move τ → Option (Locked κ × Stand τ κ)
  | .idle, .start id userId token now request =>
      if id ∈ s.rows.map (·.id) then none
      else some ({ s with
        rows := s.rows ++ [startSession cfg id userId (hash token) now request]
        grants := ⟨id, hash token, none, now⟩ :: s.grants }, .idle)
  | .idle, .look token =>
      match s.rows.find? fun r => r.refreshTokenHash = hash token with
      | none => some (s, .unmatched token)
      | some record => s.lock token false record
  | .unmatched token, .lookPrevious =>
      match s.rows.find? fun r => r.previousTokenHash = some (hash token) with
      | none => some (s, .idle)
      | some record => s.lock token true record
  | .holding token record reused, .settle call =>
      let call := { call with token := token }
      some ((s.settled cfg hash call (settle cfg call record reused)).release record.id, .idle)
  | .idle, .load id => (s.rows.find? fun r => r.id = id).map fun record => (s, .loaded record)
  | .loaded record, .revoke now reason =>
      if record.id ∈ s.locked then none
      else if record.revokedAt.isSome then some (s, .idle)
      else some ({ s with rows := Rows.setWhere (fun r => r.id = record.id) (Session.revoke now reason) s.rows }, .idle)
  | .idle, .revokeAll userId now reason keep =>
      if s.rows.any fun r => revokedBy userId keep r && decide (r.id ∈ s.locked) then none
      else some ({ s with rows := Rows.setWhere (revokedBy userId keep) (Session.revoke now reason) s.rows }, .idle)
  | .holding _ record _, .stop => some (s.release record.id, .idle)
  | .unmatched _, .stop => some (s, .idle)
  | .loaded _, .stop => some (s, .idle)
  | _, _ => none

/-- The table and the transactions. -/
abbrev Busy (τ κ : Type) (n : ℕ) := Procs (Locked κ) (Stand τ κ) n

/-- Nothing happens outside the transactions. -/
abbrev Transaction (τ : Type) (n : ℕ) := ProcEvent n (Move τ) Empty

/-- The transactions as one machine. -/
def transactions (cfg : Settings) (hash : τ → κ) (n : ℕ) : Machine (Busy τ κ n) (Transaction τ n) :=
  Procs.interleave (statement cfg hash) (fun _ => Empty.elim) n

/-- No session, and no transaction under way. -/
def Busy.start (τ κ : Type) (n : ℕ) : Busy τ κ n := ⟨{}, fun _ => .idle⟩

/-! ## A rotation alone -/

/-- With no other transaction in between, the statements of a rotation do what `rotate_refresh_token` does
to the table as it finds it. -/
theorem rotates_alone (cfg : Settings) (hash : τ → κ) (call : Call τ) {s : Locked κ} (free : s.locked = []) :
    ∃ moves t, Procs.solo (statement cfg hash) s .idle moves = some (t, .idle) ∧
      t.rows = (rotateRefreshToken cfg hash call s.rows).2 ∧ t.locked = [] := by
  -- The row is locked by this transaction only, and settled as the verdict on the table says.
  have ends : ∀ (record : Session κ) (reused : Bool), settle cfg call record reused = verdict cfg hash call s.rows →
      (({ s with locked := [record.id] }.settled cfg hash call
        (settle cfg call record reused)).release record.id).rows =
          (rotateRefreshToken cfg hash call s.rows).2 ∧
        (({ s with locked := [record.id] }.settled cfg hash call
          (settle cfg call record reused)).release record.id).locked
          = [] := by
    intro record reused same
    rw [same]
    unfold rotateRefreshToken
    cases verdict cfg hash call s.rows <;> simp [Locked.settled, Locked.release]
  cases current : s.rows.find? fun r => r.refreshTokenHash = hash call.token with
  | some record =>
    refine ⟨[.look call.token, .settle call], _, ?_, ends record false ?_⟩
    · simp only [Procs.solo, statement, current, Locked.lock, free, List.not_mem_nil, if_false, Option.bind_some]
    · simp only [settle, verdict, current, Bool.false_eq_true, if_false]
  | none =>
    cases previous : s.rows.find? fun r => r.previousTokenHash = some (hash call.token) with
    | none =>
      refine ⟨[.look call.token, .lookPrevious], s, ?_, ?_, free⟩
      · simp [Procs.solo, statement, current, previous]
      · simp [rotateRefreshToken, verdict, current, previous]
    | some record =>
      refine ⟨[.look call.token, .lookPrevious, .settle call], _, ?_, ends record true ?_⟩
      · simp only [Procs.solo, statement, current, previous, Locked.lock, free, List.not_mem_nil, if_false,
          Option.bind_some]
      · simp only [settle, verdict, current, previous, if_true]

end AdvanceTrading.Sessions
