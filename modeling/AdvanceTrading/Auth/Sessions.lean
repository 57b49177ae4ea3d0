import AdvanceTrading.Misc.Machine
import AdvanceTrading.Misc.Rows

/-!
# Login sessions

Model of `start_session`, `session_is_live`, `rotate_refresh_token` and `revoke_session`
(`app/auth/sessions.py:45-139`) over the rows of `user_sessions`. Instants are whole
microseconds. A call carries what it reads outside the table: its readings of the clock, what
the request says of the client, the user's row and the token it draws. The access JWT is left
out. A log of the rotations is kept beside the rows; nothing reads it.
-/

namespace AdvanceTrading.Sessions

/-- `REFRESH_REUSE_GRACE_SECONDS`, `REFRESH_TOKEN_DAYS` and `SESSION_MAX_DAYS`. -/
structure Settings where
  graceSeconds : ℕ := 30
  refreshTokenDays : ℕ := 30
  sessionMaxDays : ℕ := 90

def secondUs : ℕ := 1000000

def dayUs : ℕ := 86400 * secondUs

/-- A `UserSessionRecord`. -/
structure Session (κ : Type) where
  id : ℕ
  userId : ℕ
  refreshTokenHash : κ
  previousTokenHash : Option κ := none
  ipAddress : Option String := none
  userAgent : Option String := none
  createdAt : ℕ
  lastUsedAt : ℕ
  expiresAt : ℕ
  revokedAt : Option ℕ := none
  revokeReason : Option String := none

/-- The request: the client's host and its user-agent header. -/
structure Request where
  host : Option String
  userAgent : Option String

def clientInfo : Option Request → Option String × Option String
  | none => (none, none)
  | some request =>
      (request.host, request.userAgent.bind fun agent => if agent = "" then none else
        some (String.ofList (agent.toList.take 300)))

def sessionCap (cfg : Settings) (createdAt : ℕ) : ℕ := createdAt + cfg.sessionMaxDays * dayUs

/-- `_next_expiry`: the sliding window, never past the cap. -/
def nextExpiry (cfg : Settings) (createdAt now : ℕ) : ℕ :=
  min (now + cfg.refreshTokenDays * dayUs) (sessionCap cfg createdAt)

variable {τ κ : Type} [DecidableEq κ]

def sessionIsLive (cfg : Settings) (record : Session κ) (now : ℕ) : Bool :=
  record.revokedAt.isNone && decide (now < sessionCap cfg record.createdAt) && decide (now < record.expiresAt)

/-- A call of `rotate_refresh_token`: `checked`, `asked` and `rotated` are its readings of the clock in their order,
`active` is what `users` says of the session's user. -/
structure Call (τ : Type) where
  token : τ
  newToken : τ
  checked : ℕ
  asked : ℕ
  rotated : ℕ
  active : Bool := true
  request : Option Request := none

/-- The row as a rotation leaves it; `tokenHash` is the hash of the token presented. -/
def Session.rotated (cfg : Settings) (tokenHash newHash : κ) (now : ℕ) (request : Option Request) (record : Session κ) :
    Session κ :=
  { record with
    -- In the grace window the presented token stays the one that may retry: it is the previous one either way.
    previousTokenHash := some (if record.refreshTokenHash = tokenHash then record.refreshTokenHash else tokenHash)
    refreshTokenHash := newHash
    lastUsedAt := now
    expiresAt := nextExpiry cfg record.createdAt now
    ipAddress := match (clientInfo request).1 with
      | some ip => if ip = "" then record.ipAddress else some ip
      | none => record.ipAddress
    userAgent := match (clientInfo request).2 with
      | some agent => if agent = "" then record.userAgent else some agent
      | none => record.userAgent }

def Session.revoke (now : ℕ) (reason : String) (record : Session κ) : Session κ :=
  { record with revokedAt := some now, revokeReason := some reason }

/-- What a call does: the row it rotates, the row it revokes, or neither. -/
inductive Verdict (κ : Type) where
  | rotates (record : Session κ)
  | revokes (record : Session κ)
  | refuses

/-- A row that was found is rotated when its session is live and its user may log in. -/
def judge (cfg : Settings) (call : Call τ) (record : Session κ) : Verdict κ :=
  if sessionIsLive cfg record call.asked && call.active then .rotates record else .refuses

def verdict (cfg : Settings) (hash : τ → κ) (call : Call τ) (rows : List (Session κ)) : Verdict κ :=
  match rows.find? fun r => r.refreshTokenHash = hash call.token with
  | some record => judge cfg call record
  | none =>
    match rows.find? fun r => r.previousTokenHash = some (hash call.token) with
    | none => .refuses
    | some reused =>
      if reused.revokedAt.isSome then .refuses
      else if call.checked ≤ reused.lastUsedAt + cfg.graceSeconds * secondUs then judge cfg call reused
      else .revokes reused

/-- The tokens a rotation hands out: the refresh token and the session it belongs to. -/
structure IssuedTokens (τ : Type) where
  refreshToken : τ
  session : ℕ

/-- `rotate_refresh_token`: the answer and the table after it. -/
def rotateRefreshToken (cfg : Settings) (hash : τ → κ) (call : Call τ) (rows : List (Session κ)) :
    Option (IssuedTokens τ) × List (Session κ) :=
  match verdict cfg hash call rows with
  | .rotates record =>
      (some ⟨call.newToken, record.id⟩,
        Rows.setWhere (fun r => r.id = record.id)
          (Session.rotated cfg (hash call.token) (hash call.newToken) call.rotated call.request) rows)
  | .revokes record =>
      (none, Rows.setWhere (fun r => r.id = record.id) (Session.revoke call.asked "refresh token reuse detected") rows)
  | .refuses => (none, rows)

/-- `start_session`. -/
def startSession (cfg : Settings) (id userId : ℕ) (tokenHash : κ) (now : ℕ) (request : Option Request) : Session κ where
  id := id
  userId := userId
  refreshTokenHash := tokenHash
  ipAddress := (clientInfo request).1
  userAgent := (clientInfo request).2
  createdAt := now
  lastUsedAt := now
  expiresAt := nextExpiry cfg now now

/-! ## Runs -/

/-- A rotation that was made: the hash presented for it, the hash it retired, and when. -/
structure Rotation (κ : Type) where
  session : ℕ
  presented : κ
  retired : κ
  at_ : ℕ

/-- The table, and the rotations so far, newest first. -/
structure Store (κ : Type) where
  rows : List (Session κ) := []
  log : List (Rotation κ) := []

/-- The hashes of all tokens that were handed out. -/
def Store.issued (s : Store κ) : List κ :=
  s.rows.map (·.refreshTokenHash) ++ s.log.flatMap fun e => [e.presented, e.retired]

inductive Event (τ : Type) where
  /-- A login: the row's id, the user, the token and the time. -/
  | start (id userId : ℕ) (token : τ) (now : ℕ) (request : Option Request)
  | rotate (call : Call τ)
  /-- `revoke_session`, or the session's part of `revoke_all_sessions`. -/
  | revoke (id now : ℕ) (reason : String)

/-- The log after a call. -/
def logged (cfg : Settings) (hash : τ → κ) (call : Call τ) (s : Store κ) : List (Rotation κ) :=
  match verdict cfg hash call s.rows with
  | .rotates record => ⟨record.id, hash call.token, record.refreshTokenHash, call.rotated⟩ :: s.log
  | _ => s.log

/-- One event. A row's id is new, and a token that is drawn is none of those handed out before. -/
def step (cfg : Settings) (hash : τ → κ) (s : Store κ) : Event τ → Option (Store κ)
  | .start id userId token now request =>
      if id ∉ s.rows.map (·.id) ∧ hash token ∉ s.issued then
        some { s with rows := s.rows ++ [startSession cfg id userId (hash token) now request] }
      else none
  | .rotate call =>
      if hash call.newToken ∉ s.issued then
        some ⟨(rotateRefreshToken cfg hash call s.rows).2, logged cfg hash call s⟩
      else none
  | .revoke id now reason =>
      some { s with
        rows := Rows.setWhere (fun r => decide (r.id = id) && r.revokedAt.isNone)
          (Session.revoke now reason) s.rows }

/-- Logins, rotations and revocations in any order. -/
def sessions (cfg : Settings) (hash : τ → κ) : Machine (Store κ) (Event τ) where
  step := step cfg hash

/-! ## What is to hold -/

/-- The session's rotation of `at_` replaced the hash: it was presented for it, or retired by it. -/
def Replaced (log : List (Rotation κ)) (session : ℕ) (tokenHash : κ) (at_ : ℕ) : Prop :=
  ∃ e ∈ log, e.session = session ∧ (e.presented = tokenHash ∨ e.retired = tokenHash) ∧ e.at_ = at_

/-- The call answers nothing and leaves the session revoked. -/
def EndsSession (cfg : Settings) (hash : τ → κ) (call : Call τ) (rows : List (Session κ)) (session : ℕ) : Prop :=
  (rotateRefreshToken cfg hash call rows).1.isNone = true ∧
    ∃ r ∈ (rotateRefreshToken cfg hash call rows).2, r.id = session ∧ r.revokedAt.isSome = true

/-- The session is revoked already. -/
def Revoked (rows : List (Session κ)) (session : ℕ) : Prop :=
  ∃ r ∈ rows, r.id = session ∧ r.revokedAt.isSome = true

/-- The session's latest rotation. -/
def lastRotation (log : List (Rotation κ)) (session : ℕ) : Option (Rotation κ) :=
  log.find? fun e => e.session = session

/-- The token is the one the session's latest rotation was presented with, and more than the grace time has passed
since that rotation. -/
def JustRotated (cfg : Settings) (log : List (Rotation κ)) (session : ℕ) (tokenHash : κ) (now : ℕ) : Prop :=
  ∃ e, lastRotation log session = some e ∧ e.presented = tokenHash ∧ e.at_ + cfg.graceSeconds * secondUs < now

end AdvanceTrading.Sessions
