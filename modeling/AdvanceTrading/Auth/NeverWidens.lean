import AdvanceTrading.Auth.TokenReuse

/-!
# A session never widens

Which refresh tokens are accepted, over all interleavings of the statements of rotations and
revocations. A row is changed by no one while a transaction has it, so what a rotation writes
fits the row it judged; the row's two hashes are those of the session's last grant, and a
revocation is never written over.
-/

namespace AdvanceTrading.Sessions

variable {τ κ : Type}

/-- The last token handed out for a session. -/
def lastGrant (grants : List (Grant κ)) (session : ℕ) : Option (Grant κ) :=
  grants.find? fun g => g.session = session

/-- The row a transaction has. -/
def Stand.has : Stand τ κ → Option ℕ
  | .holding _ record _ => some record.id
  | _ => none

/-- The row a transaction has is as it was read and holds the token's hash; one it only read is still there. -/
def Fits (hash : τ → κ) (s : Locked κ) : Stand τ κ → Prop
  | .holding token record reused =>
      record ∈ s.rows ∧ record.id ∈ s.locked ∧
        (record.refreshTokenHash = hash token ∨ reused = true ∧ record.previousTokenHash = some (hash token))
  | .loaded record =>
      (∃ r ∈ s.rows, r.id = record.id) ∧ (record.revokedAt.isSome = true → Revoked s.rows record.id)
  | _ => True

/-- The rows and the tokens handed out. -/
structure Granted (cfg : Settings) (s : Locked κ) : Prop where
  ids : (s.rows.map (·.id)).Nodup
  last : ∀ r ∈ s.rows, ∃ g, lastGrant s.grants r.id = some g ∧ g.granted = r.refreshTokenHash ∧
    g.presented = r.previousTokenHash ∧ g.at_ = r.lastUsedAt
  capped : ∀ r ∈ s.rows, r.expiresAt ≤ sessionCap cfg r.createdAt

/-- The invariant. -/
structure Sound (cfg : Settings) (hash : τ → κ) {n : ℕ} (w : Busy τ κ n) : Prop where
  granted : Granted cfg w.shared
  fits : ∀ q, Fits hash w.shared (w.point q)
  alone : ∀ q q' id, (w.point q).has = some id → (w.point q').has = some id → q = q'

/-- Every session stays, and stays revoked. -/
def Stays (rows rows' : List (Session κ)) : Prop :=
  ∀ r ∈ rows, ∃ r' ∈ rows', r'.id = r.id ∧ (r.revokedAt.isSome = true → r'.revokedAt.isSome = true)

variable {cfg : Settings} {hash : τ → κ} {s t : Locked κ} {record r : Session κ}

theorem Stays.refl (rows : List (Session κ)) : Stays rows rows := fun r mem => ⟨r, mem, rfl, id⟩

theorem Stays.append (rows more : List (Session κ)) : Stays rows (rows ++ more) :=
  fun r mem => ⟨r, List.mem_append_left _ mem, rfl, id⟩

theorem Stays.setWhere {guard : Session κ → Bool} {write : Session κ → Session κ} (id_ : ∀ r, (write r).id = r.id)
    (revoked : ∀ r, r.revokedAt.isSome = true → (write r).revokedAt.isSome = true) (rows : List (Session κ)) :
    Stays rows (Rows.setWhere guard write rows) := by
  intro r mem
  refine ⟨if guard r then write r else r, List.mem_map_of_mem mem, ?_, ?_⟩
  · split
    · exact id_ r
    · rfl
  · intro isRevoked
    split
    · exact revoked r isRevoked
    · exact isRevoked

variable {rows : List (Session κ)} {session : ℕ}

theorem Stays.revoked {rows' : List (Session κ)} (stays : Stays rows rows')
    (revoked : Revoked rows session) : Revoked rows' session := by
  obtain ⟨r, mem, rfl, isRevoked⟩ := revoked
  obtain ⟨r', mem', same, kept⟩ := stays r mem
  exact ⟨r', mem', same, kept isRevoked⟩

/-- A transaction is not disturbed by a change of other rows. -/
theorem Fits.stays {stand : Stand τ κ} (fits : Fits hash s stand) (stays : Stays s.rows t.rows)
    (row : ∀ r ∈ s.rows, r.id ∈ s.locked → stand.has = some r.id → r ∈ t.rows ∧ r.id ∈ t.locked) :
    Fits hash t stand := by
  cases stand with
  | holding token record reused =>
    obtain ⟨mem, locked, holds⟩ := fits
    obtain ⟨mem', locked'⟩ := row record mem locked rfl
    exact ⟨mem', locked', holds⟩
  | loaded record =>
    obtain ⟨⟨r, mem, same⟩, revoked⟩ := fits
    obtain ⟨r', mem', same', -⟩ := stays r mem
    exact ⟨⟨r', mem', same'.trans same⟩, fun isRevoked => stays.revoked (revoked isRevoked)⟩
  | idle => trivial
  | unmatched token => trivial

theorem mem_setWhere_of_not {guard : Session κ → Bool} {write : Session κ → Session κ}
    (mem : r ∈ rows) (kept : guard r = false) : r ∈ Rows.setWhere guard write rows := by
  refine List.mem_map.mpr ⟨r, mem, ?_⟩
  rw [kept]
  rfl

/-! ## What a statement does -/

/-- A revocation changes none of the columns the grants speak of. -/
theorem Granted.revoke (granted : Granted cfg s) {guard : Session κ → Bool} {now : ℕ}
    {reason : String} {locked : List ℕ} :
    Granted cfg ⟨Rows.setWhere guard (Session.revoke now reason) s.rows, s.grants, locked⟩ := by
  have old : ∀ r ∈ Rows.setWhere guard (Session.revoke now reason) s.rows,
      ∃ r₀ ∈ s.rows, r = r₀ ∨ r = r₀.revoke now reason := by
    intro r mem
    obtain ⟨r₀, mem₀, ⟨-, rfl⟩ | ⟨-, rfl⟩⟩ := Rows.mem_setWhere mem
    · exact ⟨r₀, mem₀, Or.inr rfl⟩
    · exact ⟨r, mem₀, Or.inl rfl⟩
  have ids : (Rows.setWhere guard (Session.revoke now reason) s.rows).map (·.id) = s.rows.map (·.id) :=
    Rows.map_setWhere fun _ => rfl
  refine ⟨ids ▸ granted.ids, ?_, ?_⟩
  · intro r mem
    obtain ⟨r₀, mem₀, rfl | rfl⟩ := old r mem
    · exact granted.last r mem₀
    · exact granted.last r₀ mem₀
  · intro r mem
    obtain ⟨r₀, mem₀, rfl | rfl⟩ := old r mem
    · exact granted.capped r mem₀
    · exact granted.capped r₀ mem₀

theorem settle_cases {call : Call τ} {reused : Bool} :
    settle cfg call record reused = .rotates record ∨ settle cfg call record reused = .revokes record ∨
      settle cfg call record reused = .refuses := by
  unfold settle judge
  split_ifs <;> simp

variable [DecidableEq κ]

/-- What a statement leaves of the table, and where it leaves its transaction. -/
inductive Does (cfg : Settings) (hash : τ → κ) (s : Locked κ) : Stand τ κ → Locked κ → Stand τ κ → Prop where
  | read {stand next} (free : stand.has = none) (free' : next.has = none) (fits : Fits hash s next) :
      Does cfg hash s stand s next
  | login {id userId tokenHash now request} (new : id ∉ s.rows.map (·.id)) :
      Does cfg hash s .idle { s with
        rows := s.rows ++ [startSession cfg id userId tokenHash now request]
        grants := ⟨id, tokenHash, none, now⟩ :: s.grants } .idle
  | lock {stand token record reused} (free : stand.has = none) (unlocked : record.id ∉ s.locked) (mem : record ∈ s.rows)
      (holds : record.refreshTokenHash = hash token ∨ reused = true ∧ record.previousTokenHash = some (hash token)) :
      Does cfg hash s stand { s with locked := record.id :: s.locked } (.holding token record reused)
  | rotate {token record reused newHash now request} :
      Does cfg hash s (.holding token record reused)
        (Locked.release { s with
          rows := Rows.setWhere (fun r => r.id = record.id)
            (Session.rotated cfg (hash token) newHash now request) s.rows
          grants := ⟨record.id, newHash, some (hash token), now⟩ :: s.grants } record.id) .idle
  | reuse {token record reused now} :
      Does cfg hash s (.holding token record reused)
        (Locked.release { s with
          rows := Rows.setWhere (fun r => r.id = record.id)
            (Session.revoke now "refresh token reuse detected") s.rows } record.id) .idle
  | leave {token record reused} : Does cfg hash s (.holding token record reused) (s.release record.id) .idle
  | revoke {stand guard now reason} (free : stand.has = none)
      (unlocked : ∀ r ∈ s.rows, guard r = true → r.id ∉ s.locked) :
      Does cfg hash s stand { s with rows := Rows.setWhere guard (Session.revoke now reason) s.rows } .idle

variable {token : τ} {next : Stand τ κ}

theorem lock_does {reused : Bool} {stand : Stand τ κ} (free : stand.has = none)
    (mem : record ∈ s.rows)
    (holds : record.refreshTokenHash = hash token ∨ reused = true ∧ record.previousTokenHash = some (hash token))
    (ran : s.lock token reused record = some (t, next)) : Does cfg hash s stand t next := by
  unfold Locked.lock at ran
  split at ran
  · cases ran
  · next unlocked =>
    cases ran
    exact .lock free unlocked mem holds

theorem statement_does {stand : Stand τ κ} {move : Move τ}
    (ran : statement cfg hash s stand move = some (t, next)) : Does cfg hash s stand t next := by
  unfold statement at ran
  split at ran
  · -- start
    split at ran
    · cases ran
    · next new =>
      cases ran
      exact .login new
  · -- look
    split at ran
    · cases ran
      exact .read rfl rfl trivial
    · next record found =>
      exact lock_does rfl (List.mem_of_find?_eq_some found) (Or.inl (by simpa using List.find?_some found)) ran
  · -- lookPrevious
    split at ran
    · cases ran
      exact .read rfl rfl trivial
    · next record found =>
      exact lock_does rfl (List.mem_of_find?_eq_some found) (Or.inr ⟨rfl, by simpa using List.find?_some found⟩) ran
  · -- settle
    next token record reused call =>
    cases ran
    rcases @settle_cases _ _ cfg record { call with token := token } reused
      with verdict | verdict | verdict
    · rw [verdict]
      exact .rotate
    · rw [verdict]
      exact .reuse
    · rw [verdict]
      exact .leave
  · -- load
    next id =>
    obtain ⟨record, found, same⟩ := Option.map_eq_some_iff.mp ran
    cases same
    have mem := List.mem_of_find?_eq_some found
    exact .read rfl rfl ⟨⟨record, mem, rfl⟩, fun revoked => ⟨record, mem, rfl, revoked⟩⟩
  · -- revoke
    next record now reason =>
    split at ran
    · cases ran
    · next unlocked =>
      split at ran
      · cases ran
        exact .read rfl rfl trivial
      · cases ran
        refine .revoke rfl fun r mem same => ?_
        rw [of_decide_eq_true same]
        exact unlocked
  · -- revokeAll
    split at ran
    · cases ran
    · next free =>
      cases ran
      refine .revoke rfl fun r mem guard locked => free ?_
      exact List.any_eq_true.mpr ⟨r, mem, by simp [guard, locked]⟩
  · cases ran
    exact .leave
  · cases ran
    exact .read rfl rfl trivial
  · cases ran
    exact .read rfl rfl trivial
  · cases ran

section

variable {stand : Stand τ κ} (does : Does cfg hash s stand t next)
include does

theorem Does.stays : Stays s.rows t.rows := by
  cases does with
  | login new => exact .append _ _
  | rotate =>
    refine Stays.setWhere ?_ ?_ _
    · exact fun _ => rfl
    · exact fun _ revoked => revoked
  | reuse =>
    refine Stays.setWhere ?_ ?_ _
    · exact fun _ => rfl
    · exact fun _ _ => rfl
  | revoke free unlocked =>
    refine Stays.setWhere ?_ ?_ _
    · exact fun _ => rfl
    · exact fun _ _ => rfl
  | read | lock | leave => exact .refl _

/-- A statement keeps what is known of the rows and the tokens handed out. -/
theorem Does.granted (granted : Granted cfg s) (fits : Fits hash s stand) : Granted cfg t := by
  cases does with
  | read | lock | leave => exact ⟨granted.ids, granted.last, granted.capped⟩
  | @login id userId tokenHash now request new =>
    refine ⟨?_, ?_, ?_⟩
    · rw [List.map_append, List.nodup_append]
      refine ⟨granted.ids, by simp, ?_⟩
      intro id' old _ single same
      rw [List.map_singleton, List.mem_singleton] at single
      have isNew : id' = id := same.trans single
      exact new (isNew ▸ old)
    · intro r mem
      rcases List.mem_append.mp mem with old | single
      · obtain ⟨g, last, facts⟩ := granted.last r old
        refine ⟨g, ?_, facts⟩
        rw [lastGrant, List.find?_cons_of_neg]
        · exact last
        · intro same
          have isNew : id = r.id := of_decide_eq_true same
          exact new (isNew ▸ List.mem_map_of_mem old)
      · cases List.mem_singleton.mp single
        exact ⟨_, List.find?_cons_of_pos (by simp [startSession]), rfl, rfl, rfl⟩
    · intro r mem
      rcases List.mem_append.mp mem with old | single
      · exact granted.capped r old
      · cases List.mem_singleton.mp single
        exact Nat.min_le_right ..
  | @rotate token record reused newHash now request =>
    obtain ⟨isRow, -, -⟩ := fits
    -- The session's row is the one that was judged; the other rows and their grants stay.
    have rows_cases : ∀ r ∈ Rows.setWhere (fun r => r.id = record.id)
        (Session.rotated cfg (hash token) newHash now request) s.rows,
          r = Session.rotated cfg (hash token) newHash now request record ∨ r ∈ s.rows ∧ r.id ≠ record.id := by
      intro r mem
      obtain ⟨r₀, mem₀, ⟨own, rfl⟩ | ⟨other, rfl⟩⟩ := Rows.mem_setWhere mem
      · have same : r₀ = record := List.inj_on_of_nodup_map granted.ids mem₀ isRow (by simpa using own)
        exact Or.inl (by rw [same])
      · exact Or.inr ⟨mem₀, by simpa using other⟩
    have ids : (Rows.setWhere (fun r => r.id = record.id)
        (Session.rotated cfg (hash token) newHash now request) s.rows).map (·.id) = s.rows.map (·.id) :=
      Rows.map_setWhere fun _ => rfl
    refine ⟨ids ▸ granted.ids, ?_, ?_⟩
    · intro r mem
      rcases rows_cases r mem with rfl | ⟨old, other⟩
      · refine ⟨_, List.find?_cons_of_pos (by simp [Session.rotated]), rfl, ?_, rfl⟩
        show some (hash token) = some (if record.refreshTokenHash = hash token then _ else _)
        split
        · next same => rw [same]
        · rfl
      · obtain ⟨g, last, facts⟩ := granted.last r old
        refine ⟨g, ?_, facts⟩
        show List.find? _ (_ :: s.grants) = some g
        rw [List.find?_cons_of_neg (by simpa using other.symm)]
        exact last
    · intro r mem
      rcases rows_cases r mem with rfl | ⟨old, -⟩
      · exact Nat.min_le_right ..
      · exact granted.capped r old
  | reuse => exact granted.revoke
  | revoke => exact granted.revoke

/-- A row that some other transaction has is left as it is. -/
theorem Does.row (mem : r ∈ s.rows) (locked : r.id ∈ s.locked) (other : stand.has ≠ some r.id) :
    r ∈ t.rows ∧ r.id ∈ t.locked := by
  cases does with
  | read => exact ⟨mem, locked⟩
  | login new => exact ⟨List.mem_append_left _ mem, locked⟩
  | lock => exact ⟨mem, List.mem_cons_of_mem _ locked⟩
  | revoke free unlocked =>
    refine ⟨mem_setWhere_of_not mem ?_, locked⟩
    by_contra guarded
    exact unlocked r mem (by simpa using guarded) locked
  | @leave token record reused =>
    have differ : r.id ≠ record.id := fun same => other (by rw [same]; rfl)
    exact ⟨mem, (List.mem_erase_of_ne differ).mpr locked⟩
  | @rotate token record | @reuse token record =>
    have differ : r.id ≠ record.id := fun same => other (by rw [same]; rfl)
    exact ⟨mem_setWhere_of_not mem (by simpa using differ), (List.mem_erase_of_ne differ).mpr locked⟩

theorem Does.fits : Fits hash t next := by
  cases does with
  | read free free' fits => exact fits
  | lock free unlocked mem holds => exact ⟨mem, List.mem_cons_self, holds⟩
  | login | rotate | reuse | leave | revoke => trivial

/-- A transaction comes to have a row only when no one has it. -/
theorem Does.has {id : ℕ} (has : next.has = some id) : id ∉ s.locked := by
  cases does with
  | read free free' fits =>
    rw [free'] at has
    cases has
  | lock free unlocked mem holds =>
    cases has
    exact unlocked
  | login | rotate | reuse | leave | revoke => cases has

end

omit [DecidableEq κ] in
theorem Fits.locked {stand : Stand τ κ} (fits : Fits hash s stand) {id : ℕ}
    (has : stand.has = some id) : id ∈ s.locked := by
  cases stand with
  | holding token record reused =>
    cases has
    exact fits.2.1
  | idle | unmatched | loaded => cases has

/-! ## Runs -/

variable {n : ℕ} {w v : Busy τ κ n}

omit [DecidableEq κ] in
theorem sound_start : Sound cfg hash (Busy.start τ κ n) where
  granted := ⟨List.nodup_nil, by simp [Busy.start], by simp [Busy.start]⟩
  fits := fun _ => trivial
  alone := by
    intro q q' id has
    cases has

theorem Sound.step {event : Transaction τ n} (sound : Sound cfg hash w)
    (stepped : (transactions cfg hash n).step w event = some v) :
    Sound cfg hash v ∧ Stays w.shared.rows v.shared.rows := by
  cases event with
  | outside event => exact event.elim
  | act who move =>
    obtain ⟨t, next, ran, rfl⟩ := Procs.act_eq stepped
    have does := statement_does ran
    refine ⟨⟨does.granted sound.granted (sound.fits who), ?_, ?_⟩, does.stays⟩
    · intro q
      by_cases same : q = who
      · rw [same, Procs.move_self, Procs.move_shared]
        exact does.fits
      · rw [Procs.move_other same, Procs.move_shared]
        refine (sound.fits q).stays does.stays fun r mem locked has => does.row mem locked fun mine => ?_
        exact same (sound.alone q who r.id has mine)
    · -- Whoever comes to have a row is the only one.
      have only : ∀ q id, q ≠ who → (w.point q).has = some id → next.has ≠ some id :=
        fun q id _ has mine => does.has mine ((sound.fits q).locked has)
      intro q q' id has has'
      by_cases same : q = who <;> by_cases same' : q' = who
      · rw [same, same']
      · rw [same, Procs.move_self] at has
        rw [Procs.move_other same'] at has'
        exact absurd has (only q' id same' has')
      · rw [same', Procs.move_self] at has'
        rw [Procs.move_other same] at has
        exact absurd has' (only q id same has)
      · rw [Procs.move_other same] at has
        rw [Procs.move_other same'] at has'
        exact sound.alone q q' id has has'

theorem sound_run {events : List (Transaction τ n)}
    (ran : (transactions cfg hash n).run (Busy.start τ κ n) events = some w) : Sound cfg hash w :=
  (transactions cfg hash n).run_invariant_all (fun _ _ _ sound stepped => (sound.step stepped).1) sound_start ran

/-- What is revoked stays revoked. -/
theorem revoked_run (sound : Sound cfg hash w) (revoked : Revoked w.shared.rows session)
    {events : List (Transaction τ n)} (ran : (transactions cfg hash n).run w events = some v) :
    Revoked v.shared.rows session := by
  have preserves : ∀ u event u', (Sound cfg hash u ∧ Revoked u.shared.rows session) →
      (transactions cfg hash n).step u event = some u' → Sound cfg hash u' ∧ Revoked u'.shared.rows session := by
    rintro u event u' ⟨soundU, revokedU⟩ stepped
    obtain ⟨soundU', stays⟩ := soundU.step stepped
    exact ⟨soundU', stays.revoked revokedU⟩
  exact ((transactions cfg hash n).run_invariant_all preserves ⟨sound, revoked⟩ ran).2

/-! ## What is accepted -/

/-- A presentation of a token at `now`. -/
def presentation (token : τ) (now : ℕ) : Call τ where
  token := token
  newToken := token
  checked := now
  asked := now
  rotated := now

/-- The token is accepted for the session: `rotate_refresh_token` would rotate its row. -/
def Accepted (cfg : Settings) (hash : τ → κ) (rows : List (Session κ)) (session : ℕ) (token : τ) (now : ℕ) : Prop :=
  ∃ record, verdict cfg hash (presentation token now) rows = .rotates record ∧ record.id = session

/-- A row that is accepted is live, and holds the token's hash as its own, or as the previous one in the grace time. -/
theorem accepted_row {now : ℕ} (accepted : Accepted cfg hash rows session token now) :
    ∃ record ∈ rows, record.id = session ∧ sessionIsLive cfg record now = true ∧
      (record.refreshTokenHash = hash token ∨
        record.previousTokenHash = some (hash token) ∧ now ≤ record.lastUsedAt + cfg.graceSeconds * secondUs) := by
  have live : ∀ {record found : Session κ}, judge cfg (presentation token now) found = .rotates record →
      record = found ∧ sessionIsLive cfg found now = true := by
    intro record found judged
    refine ⟨judge_rotates judged, ?_⟩
    unfold judge at judged
    split at judged
    · next both => exact (Bool.and_eq_true_iff.mp both).1
    · cases judged
  obtain ⟨record, rotates, own⟩ := accepted
  unfold verdict at rotates
  split at rotates
  · next found there =>
    obtain ⟨rfl, isLive⟩ := live rotates
    have holds := List.find?_some there
    exact ⟨record, List.mem_of_find?_eq_some there, own, isLive, Or.inl (of_decide_eq_true holds)⟩
  · split at rotates
    · cases rotates
    · next found there =>
      split at rotates
      · cases rotates
      · split at rotates
        · next soon =>
          obtain ⟨rfl, isLive⟩ := live rotates
          have holds := List.find?_some there
          exact ⟨record, List.mem_of_find?_eq_some there, own, isLive, Or.inr ⟨of_decide_eq_true holds, soon⟩⟩
        · cases rotates

/-- An accepted token is the session's newest one, or, in the grace time, the one that was exchanged for it. -/
theorem accepted_grant (granted : Granted cfg s) {now : ℕ}
    (accepted : Accepted cfg hash s.rows session token now) :
    ∃ g, lastGrant s.grants session = some g ∧
      (g.granted = hash token ∨ g.presented = some (hash token) ∧ now ≤ g.at_ + cfg.graceSeconds * secondUs) := by
  obtain ⟨record, mem, rfl, -, holds⟩ := accepted_row accepted
  obtain ⟨g, last, isGranted, isPresented, at_⟩ := granted.last record mem
  refine ⟨g, last, ?_⟩
  rw [isGranted, isPresented, at_]
  exact holds

theorem not_accepted_of_revoked (granted : Granted cfg s) {now : ℕ}
    (revoked : Revoked s.rows session) : ¬ Accepted cfg hash s.rows session token now := by
  intro accepted
  obtain ⟨record, mem, own, isLive, -⟩ := accepted_row accepted
  obtain ⟨r, mem', own', isRevoked⟩ := revoked
  have same : r = record := List.inj_on_of_nodup_map granted.ids mem' mem (own'.trans own.symm)
  rw [same] at isRevoked
  unfold sessionIsLive at isLive
  rw [Option.isNone_eq_false_iff.mpr isRevoked] at isLive
  cases isLive

/-- The statement commits a revocation of the session: its own, or of all sessions of its user but another one. -/
def Revokes (rows : List (Session κ)) (stand : Stand τ κ) (session : ℕ) : Move τ → Prop
  | .revoke _ _ => ∃ record, stand = .loaded record ∧ record.id = session
  | .revokeAll userId _ _ keep => (∃ r ∈ rows, r.id = session ∧ r.userId = userId) ∧ keep ≠ some session
  | _ => False

omit [DecidableEq κ] in
theorem revoked_of_write {guard : Session κ → Bool} {now : ℕ} {reason : String} (mem : r ∈ rows)
    (hit : guard r = true ∨ r.revokedAt.isSome = true) :
    Revoked (Rows.setWhere guard (Session.revoke now reason) rows) r.id := by
  refine ⟨if guard r then r.revoke now reason else r, List.mem_map_of_mem mem, ?_, ?_⟩
  · split <;> rfl
  · split
    · rfl
    · next unguarded => exact hit.resolve_left unguarded

theorem revoked_of_revokes (sound : Sound cfg hash w) {who : Fin n} {move : Move τ}
    (revokes : Revokes w.shared.rows (w.point who) session move)
    (stepped : (transactions cfg hash n).step w (.act who move) = some v) :
    Revoked v.shared.rows session := by
  obtain ⟨t, next, ran, rfl⟩ := Procs.act_eq stepped
  have fits := sound.fits who
  rw [Procs.move_shared]
  cases move with
  | revoke now reason =>
    obtain ⟨record, stands, rfl⟩ := revokes
    rw [stands] at ran fits
    obtain ⟨⟨r, mem, same⟩, already⟩ := fits
    simp only [statement] at ran
    split at ran
    · cases ran
    · split at ran
      · next isRevoked =>
        cases ran
        exact already isRevoked
      · cases ran
        rw [← same]
        exact revoked_of_write mem (Or.inl (by simp [same]))
  | revokeAll userId now reason keep =>
    obtain ⟨⟨r, mem, rfl, user⟩, others⟩ := revokes
    cases stands : w.point who with
    | idle =>
      rw [stands] at ran
      simp only [statement] at ran
      split at ran
      · cases ran
      · cases ran
        refine revoked_of_write mem ?_
        cases at_ : r.revokedAt with
        | none => exact Or.inl (by simp [revokedBy, user, at_, others])
        | some _ => exact Or.inr rfl
    | unmatched | holding | loaded =>
      rw [stands] at ran
      cases ran
  | start | look | lookPrevious | settle | load | stop => exact revokes.elim

/-- In every state that rotations, revocations and logins reach, in any order of their statements: a session accepts
its newest token, and the one exchanged for it in the grace time after that, so at most two at a time; a revoked
one accepts none and stays revoked, whatever rotation was under way at the revocation; and no session is live at
its cap or expires later. -/
theorem session_never_widens (collisionFree : Function.Injective hash) {events : List (Transaction τ n)}
    (ran : (transactions cfg hash n).run (Busy.start τ κ n) events = some w) (session : ℕ) :
    (∀ token now, Accepted cfg hash w.shared.rows session token now →
      ∃ g, lastGrant w.shared.grants session = some g ∧
        (g.granted = hash token ∨ g.presented = some (hash token) ∧ now ≤ g.at_ + cfg.graceSeconds * secondUs)) ∧
    (∀ now a b c, Accepted cfg hash w.shared.rows session a now → Accepted cfg hash w.shared.rows session b now →
      Accepted cfg hash w.shared.rows session c now → a = b ∨ a = c ∨ b = c) ∧
    (Revoked w.shared.rows session → (∀ token now, ¬ Accepted cfg hash w.shared.rows session token now) ∧
      ∀ later v, (transactions cfg hash n).run w later = some v → Revoked v.shared.rows session) ∧
    (∀ who move v, Revokes w.shared.rows (w.point who) session move →
      (transactions cfg hash n).step w (.act who move) = some v →
        ∀ later u, (transactions cfg hash n).run v later = some u → Revoked u.shared.rows session) ∧
    ∀ r ∈ w.shared.rows, r.id = session →
      r.expiresAt ≤ sessionCap cfg r.createdAt ∧ ∀ now, sessionCap cfg r.createdAt ≤ now →
        sessionIsLive cfg r now = false := by
  have sound := sound_run ran
  refine ⟨fun token now => accepted_grant sound.granted, ?_, ?_, ?_, ?_⟩
  · intro now a b c first second third
    obtain ⟨g, last, ofA⟩ := accepted_grant sound.granted first
    obtain ⟨g', last', ofB⟩ := accepted_grant sound.granted second
    obtain ⟨g'', last'', ofC⟩ := accepted_grant sound.granted third
    cases last.symm.trans last'
    cases last.symm.trans last''
    -- Two of the three are the newest one, or two are the one before it.
    have same : ∀ {x y : τ}, g.granted = hash x → g.granted = hash y → x = y :=
      fun x y => collisionFree (x.symm.trans y)
    have same' : ∀ {x y : τ}, g.presented = some (hash x) → g.presented = some (hash y) → x = y :=
      fun x y => collisionFree (Option.some.inj (x.symm.trans y))
    rcases ofA with ofA | ⟨ofA, -⟩ <;> rcases ofB with ofB | ⟨ofB, -⟩ <;> rcases ofC with ofC | ⟨ofC, -⟩
    · exact Or.inl (same ofA ofB)
    · exact Or.inl (same ofA ofB)
    · exact Or.inr (Or.inl (same ofA ofC))
    · exact Or.inr (Or.inr (same' ofB ofC))
    · exact Or.inr (Or.inr (same ofB ofC))
    · exact Or.inr (Or.inl (same' ofA ofC))
    · exact Or.inl (same' ofA ofB)
    · exact Or.inl (same' ofA ofB)
  · exact fun revoked => ⟨fun token now => not_accepted_of_revoked sound.granted revoked,
      fun later v => revoked_run sound revoked⟩
  · intro who move v revokes stepped later u
    exact revoked_run (sound.step stepped).1 (revoked_of_revokes sound revokes stepped)
  · intro r mem _
    refine ⟨sound.granted.capped r mem, fun now past => ?_⟩
    unfold sessionIsLive
    rw [decide_eq_false (by omega : ¬ now < sessionCap cfg r.createdAt), Bool.and_false, Bool.false_and]

instance (rows : List (Session κ)) (session : ℕ) : Decidable (Revoked rows session) :=
  inferInstanceAs (Decidable (∃ r ∈ rows, _))

/-- Two tabs refresh with one token while a logout waits for the row: the second tab rotates again in the grace time,
and the session ends revoked. -/
def twoTabs : List (Transaction ℕ 3) :=
  [.act 0 (.start 1 1 100 0 none), .act 2 (.load 1), .act 0 (.look 100), .act 0 (.settle (refresh 100 101 10)),
    .act 1 (.look 100), .act 1 .lookPrevious, .act 1 (.settle (refresh 100 102 11)),
    .act 2 (.revoke (12 * secondUs) "logout")]

theorem two_tabs_revoked :
    ∃ w, (transactions {} id 3).run (Busy.start ℕ ℕ 3) twoTabs = some w ∧ Revoked w.shared.rows 1 ∧
      ∀ token now, ¬ Accepted {} id w.shared.rows 1 token now := by
  have runs : ((transactions {} id 3).run (Busy.start ℕ ℕ 3) twoTabs).map
      (fun w => decide (Revoked w.shared.rows 1)) = some true := by
    decide +kernel
  obtain ⟨w, ran, revoked⟩ := Option.map_eq_some_iff.mp runs
  exact ⟨w, ran, of_decide_eq_true revoked,
    ((session_never_widens Function.injective_id ran 1).2.2.1 (of_decide_eq_true revoked)).1⟩

end AdvanceTrading.Sessions
