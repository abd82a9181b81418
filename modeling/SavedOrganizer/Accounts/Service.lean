import Mathlib.Algebra.Group.Nat.Defs
import SavedOrganizer.Models
import Mathlib.Data.List.Sort

/-!
# Accounts and web sessions

The part of `AccountService` that issues, resolves and revokes sessions. A session is known
by the hash of its token; it ends at its absolute expiry, at an idle expiry that its uses push
back, or when it is revoked. The idle expiry is only written when five minutes have passed
since it was last written, and never goes beyond the absolute one.

Password checks and the token hash are parameters. The results of `hash_password` and the
`created_at` that the database writes come with the call.
-/

namespace SavedOrganizer

abbrev SessionId := Nat
abbrev Token := Nat

def LOGIN_LOCK_THRESHOLD : Nat := 5
def LOGIN_LOCK_MAX_SECONDS : Nat := 15 * 60
@[irreducible] def SESSION_TOUCH_INTERVAL : Nat := seconds (5 * 60)
@[irreducible] def SESSION_HISTORY_RETENTION : Nat := seconds (90 * 24 * 60 * 60)

/-- `User`, as far as sign-in reads it. -/
structure User where
  id : UserId
  normalizedEmail : Text
  passwordHash : String
  isActive : Bool
  failedLoginAttempts : Nat
  lockedUntil : Option Instant
  deriving DecidableEq, Repr

instance : Keyed User UserId := ⟨User.id⟩

/-- `WebSession`: revocable application session backed by an opaque token hash. -/
structure WebSession where
  id : SessionId
  userId : UserId
  tokenHash : String
  createdAt : Instant
  lastSeenAt : Instant
  idleExpiresAt : Instant
  expiresAt : Instant
  revokedAt : Option Instant
  deriving DecidableEq, Repr

instance : Keyed WebSession SessionId := ⟨WebSession.id⟩

/-- What the service depends on: the settings as `_build_settings` admits them, and the
password and token functions of `security.py`. -/
structure AccountEnv where
  sessionIdleSeconds : Nat
  sessionAbsoluteSeconds : Nat
  maxActiveSessions : Nat
  positive : 0 < sessionIdleSeconds ∧ 0 < sessionAbsoluteSeconds ∧ 0 < maxActiveSessions
  idle_le_absolute : sessionIdleSeconds ≤ sessionAbsoluteSeconds
  casefold : Text → Text
  verifyPassword : String → String → Bool
  passwordNeedsRehash : String → Bool
  hashToken : Token → String
  hashToken_injective : Function.Injective hashToken

/-- The rows, the clock, and the ids and tokens drawn so far. -/
structure Accounts where
  now : Instant
  users : Table User
  sessions : Table WebSession
  nextSession : SessionId
  nextToken : Token
  sessions_fresh : ∀ r ∈ sessions, r.id < nextSession

/-- What a call returns or raises. -/
inductive AccountOutcome
  /-- The credentials of a new session. -/
  | issued (token : Token) (session : SessionId)
  /-- The context of a request. -/
  | accepted (user : UserId) (session : SessionId)
  | done
  | authenticationFailed (message : String)
  | sessionNotFound (message : String)
  | accountNotFound (message : String)
  deriving DecidableEq, Repr

/-- `normalize_email`. -/
def normalizeEmail (env : AccountEnv) (value : Text) : Text := env.casefold (Python.strip value)

/-! ## Sessions -/

namespace WebSession

/-- `revoked_at IS NULL AND expires_at > now AND idle_expires_at > now`. -/
def active (now : Instant) (record : WebSession) : Bool :=
  record.revokedAt.isNone && now < record.expiresAt && now < record.idleExpiresAt

def activeOf (userId : UserId) (now : Instant) (record : WebSession) : Bool :=
  record.userId == userId && record.active now

def revoke (now : Instant) (record : WebSession) : WebSession :=
  { record with revokedAt := some now }

/-- The use that writes the idle expiry. -/
def touch (env : AccountEnv) (now : Instant) (record : WebSession) : WebSession :=
  { record with
    lastSeenAt := now
    idleExpiresAt := min (now + seconds env.sessionIdleSeconds) record.expiresAt }

/-- `ORDER BY last_seen_at DESC, created_at DESC`. -/
def recentFirst (a b : WebSession) : Bool :=
  b.lastSeenAt < a.lastSeenAt || (a.lastSeenAt == b.lastSeenAt && b.createdAt ≤ a.createdAt)

/-- `revoked_at < history_cutoff OR expires_at < history_cutoff`, where the cutoff lies
`SESSION_HISTORY_RETENTION` back. -/
def historic (now : Instant) (record : WebSession) : Bool :=
  record.revokedAt.any (· + SESSION_HISTORY_RETENTION < now) ||
    record.expiresAt + SESSION_HISTORY_RETENTION < now

end WebSession

/-- `_new_session`: the row it adds. -/
def newSession (env : AccountEnv) (id : SessionId) (token : Token) (userId : UserId)
    (createdAt issuedAt : Instant) : WebSession :=
  { id := id
    userId := userId
    tokenHash := env.hashToken token
    createdAt := createdAt
    lastSeenAt := issuedAt
    idleExpiresAt := issuedAt + seconds env.sessionIdleSeconds
    expiresAt := issuedAt + seconds env.sessionAbsoluteSeconds
    revokedAt := none }

/-- `active_records`, the most recently seen first. -/
def activeRecords (userId : UserId) (now : Instant) (sessions : Table WebSession) :
    List WebSession :=
  (sessions.rows.filter (·.activeOf userId now)).mergeSort WebSession.recentFirst

/-- The active records beyond the ones that leave room for a new session. -/
def evictedRecords (env : AccountEnv) (userId : UserId) (now : Instant)
    (sessions : Table WebSession) : List WebSession :=
  (activeRecords userId now sessions).drop (env.maxActiveSessions - 1)

/-- `_prepare_for_new_session`: bound active sessions and prune expired audit rows. -/
def prepareForNewSession (env : AccountEnv) (userId : UserId) (now : Instant)
    (sessions : Table WebSession) : Table WebSession :=
  (sessions.update (fun record => record ∈ evictedRecords env userId now sessions)
    (WebSession.revoke now)).delete fun record => record.userId == userId && record.historic now

/-! ## Users -/

namespace User

/-- A completed lockout is a fresh attempt window. -/
def endLockout (now : Instant) (user : User) : User :=
  if user.lockedUntil.any (· ≤ now) then
    { user with failedLoginAttempts := 0, lockedUntil := none }
  else user

def failAttempt (now : Instant) (user : User) : User :=
  let failed := user.failedLoginAttempts + 1
  { user with
    failedLoginAttempts := failed
    lockedUntil :=
      if LOGIN_LOCK_THRESHOLD ≤ failed then
        some (now + seconds (min (30 * 2 ^ min (failed - LOGIN_LOCK_THRESHOLD) 5)
          LOGIN_LOCK_MAX_SECONDS))
      else user.lockedUntil }

def signIn (env : AccountEnv) (rehashed : String) (user : User) : User :=
  { user with
    failedLoginAttempts := 0
    lockedUntil := none
    passwordHash := if env.passwordNeedsRehash user.passwordHash then rehashed
      else user.passwordHash }

@[simp] theorem endLockout_id (now : Instant) (user : User) :
    (user.endLockout now).id = user.id := by
  unfold endLockout
  split <;> rfl

@[simp] theorem endLockout_isActive (now : Instant) (user : User) :
    (user.endLockout now).isActive = user.isActive := by
  unfold endLockout
  split <;> rfl

end User

/-! ## The operations -/

namespace Accounts

variable (env : AccountEnv) (s : Accounts)

/-- `UPDATE web_sessions SET f WHERE p`. -/
def updateSessions (p : WebSession → Bool) (f : WebSession → WebSession)
    (hKey : ∀ r, (f r).id = r.id := by intro _; exact Eq.trans rfl rfl) : Accounts :=
  { s with
    sessions := s.sessions.update p f hKey
    sessions_fresh := by
      intro r hr
      obtain ⟨old, hOld, rfl⟩ := Table.mem_update.mp hr
      have hFresh := s.sessions_fresh old hOld
      split
      · rw [hKey]
        exact hFresh
      · exact hFresh }

/-- `UPDATE users SET f WHERE id = userId`. -/
def updateUser (userId : UserId) (f : User → User) (hKey : ∀ u, (f u).id = u.id) : Accounts :=
  { s with users := s.users.update (·.id = userId) f hKey }

theorem mem_updateSessions {s : Accounts} {p : WebSession → Bool} {f : WebSession → WebSession}
    {hKey : ∀ r, (f r).id = r.id} {r : WebSession} :
    r ∈ (s.updateSessions p f hKey).sessions ↔
      ∃ old ∈ s.sessions, (if p old then f old else old) = r :=
  @Table.mem_update WebSession SessionId _ s.sessions p f hKey r

/-- The new session of the user, with the next id and token, and what is left of the others. -/
def issueSession (userId : UserId) (createdAt : Instant) (kept : Table WebSession)
    (hKept : ∀ r ∈ kept, r.id < s.nextSession) : Accounts × AccountOutcome :=
  ({ s with
      sessions := kept.insert (newSession env s.nextSession s.nextToken userId createdAt s.now)
        fun r hr => Nat.ne_of_lt (hKept r hr)
      nextSession := s.nextSession + 1
      nextToken := s.nextToken + 1
      sessions_fresh := by
        intro r hr
        rcases (Table.mem_insert _).mp hr with hr | rfl
        · exact Nat.lt_succ_of_lt (hKept r hr)
        · exact Nat.lt_succ_self _ },
    .issued s.nextToken s.nextSession)

theorem mem_issueSession {userId : UserId} {createdAt : Instant} {kept : Table WebSession}
    {hKept : ∀ r ∈ kept, r.id < s.nextSession} {r : WebSession} :
    r ∈ (s.issueSession env userId createdAt kept hKept).1.sessions ↔
      r ∈ kept ∨ r = newSession env s.nextSession s.nextToken userId createdAt s.now :=
  Table.mem_insert fun r hr => Nat.ne_of_lt (hKept r hr)

theorem prepare_fresh (userId : UserId) :
    ∀ r ∈ prepareForNewSession env userId s.now s.sessions, r.id < s.nextSession := by
  intro r hr
  obtain ⟨old, hOld, rfl⟩ := Table.mem_update.mp (Table.mem_delete.mp hr).1
  have hFresh := s.sessions_fresh old hOld
  split <;> exact hFresh

/-- The account is active. -/
def isActive (userId : UserId) : Bool := (s.users.find? userId).any User.isActive

/-- `login`. The row is locked, so what it reads is what it writes. -/
def login (email : Text) (password rehashed : String) (createdAt : Instant) :
    Accounts × AccountOutcome :=
  let failure := AccountOutcome.authenticationFailed "Invalid email or password."
  match s.users.rows.find? (·.normalizedEmail = normalizeEmail env email) with
  | none => (s, failure)
  | some stored =>
      let user := stored.endLockout s.now
      let isLocked := user.lockedUntil.any (s.now < ·)
      if !user.isActive || isLocked || !env.verifyPassword user.passwordHash password then
        if user.isActive && !isLocked then
          (s.updateUser user.id (fun row => (row.endLockout s.now).failAttempt s.now)
            (fun row => row.endLockout_id s.now), failure)
        else (s, failure)
      else
        let signedIn := s.updateUser user.id
          (fun row => (row.endLockout s.now).signIn env rehashed)
          (fun row => row.endLockout_id s.now)
        signedIn.issueSession env user.id createdAt
          (prepareForNewSession env user.id s.now s.sessions) (s.prepare_fresh env user.id)

/-- `resolve_session`. -/
def resolveSession (token : Token) : Accounts × AccountOutcome :=
  let failure := AccountOutcome.sessionNotFound "Authentication required."
  match s.sessions.rows.find? (·.tokenHash = env.hashToken token) with
  | none => (s, failure)
  | some record =>
      let expired := decide (record.expiresAt ≤ s.now) || decide (record.idleExpiresAt ≤ s.now)
      if record.revokedAt.isSome || expired || !s.isActive record.userId then
        if record.revokedAt.isNone then
          (s.updateSessions (·.id = record.id) (WebSession.revoke s.now), failure)
        else (s, failure)
      else if record.lastSeenAt + SESSION_TOUCH_INTERVAL ≤ s.now then
        (s.updateSessions (·.id = record.id) (WebSession.touch env s.now),
          .accepted record.userId record.id)
      else (s, .accepted record.userId record.id)

/-- `revoke_session`. -/
def revokeSession (userId : UserId) (sessionId : SessionId) : Accounts × AccountOutcome :=
  if s.sessions.rows.any fun r => r.userId = userId && r.id = sessionId && r.revokedAt.isNone then
    (s.updateSessions (·.id = sessionId) (WebSession.revoke s.now), .done)
  else (s, .accountNotFound "Session was not found.")

/-- `logout` of a request's session. -/
def logout (sessionId : SessionId) : Accounts × AccountOutcome :=
  (s.updateSessions (fun r => r.id = sessionId && r.revokedAt.isNone) (WebSession.revoke s.now),
    .done)

/-- `change_password` of a signed-in user. -/
def changePassword (userId : UserId) (currentPassword newHash : String) (createdAt : Instant) :
    Accounts × AccountOutcome :=
  match s.users.find? userId with
  | none => (s, .authenticationFailed "Current password is not valid.")
  | some user =>
      if env.verifyPassword user.passwordHash currentPassword then
        let revoked := s.updateSessions (fun r => r.userId = userId && r.revokedAt.isNone)
          (WebSession.revoke s.now)
        let changed := revoked.updateUser userId
          (fun row => { row with passwordHash := newHash }) (fun _ => rfl)
        changed.issueSession env userId createdAt revoked.sessions revoked.sessions_fresh
      else (s, .authenticationFailed "Current password is not valid.")

end Accounts

end SavedOrganizer
