import SavedOrganizer.Library.Transition
import SavedOrganizer.Accounts.Service

/-!
# Runs of the session service

Sign-ins, uses, revocations and password changes of any users in any order, with time passing
between them. `Performed` says what one call does to the sessions: a row is kept, revoked or
touched by an accepted use of its token (`SessionAfter`), a historic one may be pruned, and a
sign-in or password change adds the row of the token it returns.
-/

namespace SavedOrganizer

open Transition

inductive AccountAction
  | tick (elapsed : Nat)
  | login (email : Text) (password rehashed : String) (createdAt : Instant)
  | resolve (token : Token)
  | revoke (userId : UserId) (sessionId : SessionId)
  | logout (sessionId : SessionId)
  | changePassword (userId : UserId) (currentPassword newHash : String) (createdAt : Instant)

namespace Accounts

variable (env : AccountEnv)

def perform (s : Accounts) : AccountAction → Accounts × AccountOutcome
  | .tick elapsed => ({ s with now := s.now + elapsed }, .done)
  | .login email password rehashed createdAt => s.login env email password rehashed createdAt
  | .resolve token => s.resolveSession env token
  | .revoke userId sessionId => s.revokeSession userId sessionId
  | .logout sessionId => s.logout sessionId
  | .changePassword userId currentPassword newHash createdAt =>
      s.changePassword env userId currentPassword newHash createdAt

def step (s : Accounts) (action : AccountAction) : Option Accounts := some (s.perform env action).1

/-- A use of the token is accepted. -/
def accepts (s : Accounts) (token : Token) : Bool :=
  match (s.resolveSession env token).2 with
  | .accepted _ _ => true
  | _ => false

/-- No session has been issued. -/
def Initial (s : Accounts) : Prop := s.sessions = .empty

end Accounts

/-! ## What a call does to the sessions -/

section Step

variable {env : AccountEnv} {s s' : Accounts} {action : AccountAction} {row row' : WebSession}

/-- A row that stays, before and after the call. -/
inductive SessionAfter (env : AccountEnv) (s : Accounts) (action : AccountAction)
    (row : WebSession) : WebSession → Prop
  | same : SessionAfter env s action row row
  | revoked (hOpen : row.revokedAt = none) : SessionAfter env s action row (row.revoke s.now)
  | touched {token : Token} (hUse : action = .resolve token)
      (hToken : row.tokenHash = env.hashToken token) (hActive : row.active s.now = true)
      (hDue : row.lastSeenAt + SESSION_TOUCH_INTERVAL ≤ s.now)
      (hAccepts : s.accepts env token = true) :
      SessionAfter env s action row (row.touch env s.now)

/-- The rows the call leaves, without a new one. -/
structure Carries (env : AccountEnv) (s : Accounts) (action : AccountAction)
    (kept : Table WebSession) : Prop where
  backward : ∀ row' ∈ kept, ∃ row ∈ s.sessions, SessionAfter env s action row row'
  forward : ∀ row ∈ s.sessions, row.historic s.now = false →
    ∃ row' ∈ kept, SessionAfter env s action row row'

theorem carries_refl : Carries env s action s.sessions :=
  ⟨fun row hRow => ⟨row, hRow, .same⟩, fun row hRow _ => ⟨row, hRow, .same⟩⟩

theorem carries_update {p : WebSession → Bool} {f : WebSession → WebSession}
    {hKey : ∀ r, (f r).id = r.id}
    (h : ∀ row ∈ s.sessions, p row = true → SessionAfter env s action row (f row)) :
    Carries env s action (s.updateSessions p f hKey).sessions := by
  have hAfter (row : WebSession) (hRow : row ∈ s.sessions) :
      SessionAfter env s action row (if p row then f row else row) := by
    by_cases hp : p row = true
    · rw [if_pos hp]
      exact h row hRow hp
    · rw [if_neg hp]
      exact .same
  constructor
  · intro row' hRow'
    obtain ⟨row, hRow, rfl⟩ := Accounts.mem_updateSessions.mp hRow'
    exact ⟨row, hRow, hAfter row hRow⟩
  · intro row hRow _
    exact ⟨_, Accounts.mem_updateSessions.mpr ⟨row, hRow, rfl⟩, hAfter row hRow⟩

theorem active_iff {now : Instant} : row.active now = true ↔
    row.revokedAt = none ∧ now < row.expiresAt ∧ now < row.idleExpiresAt := by
  simp only [WebSession.active, Bool.and_eq_true, Option.isNone_iff_eq_none, decide_eq_true_eq,
    and_assoc]

theorem activeOf_iff_active {userId : UserId} {now : Instant} :
    row.activeOf userId now = true ↔ row.userId = userId ∧ row.active now = true := by
  simp only [WebSession.activeOf, Bool.and_eq_true, beq_iff_eq]

theorem mem_activeRecords {userId : UserId} {now : Instant} {sessions : Table WebSession} :
    row ∈ activeRecords userId now sessions ↔
      row ∈ sessions ∧ row.activeOf userId now = true := by
  rw [activeRecords, List.mem_mergeSort, List.mem_filter]
  rfl

theorem active_of_evicted {userId : UserId} {now : Instant} {sessions : Table WebSession}
    (h : row ∈ evictedRecords env userId now sessions) :
    row ∈ sessions ∧ row.userId = userId ∧ row.active now = true := by
  obtain ⟨hRow, hActive⟩ := mem_activeRecords.mp (List.mem_of_mem_drop h)
  exact ⟨hRow, activeOf_iff_active.mp hActive⟩

theorem historic_iff {now : Instant} : row.historic now = true ↔
    (∃ t, row.revokedAt = some t ∧ t + SESSION_HISTORY_RETENTION < now) ∨
      row.expiresAt + SESSION_HISTORY_RETENTION < now := by
  simp only [WebSession.historic, Bool.or_eq_true, Option.any_eq_true, decide_eq_true_eq]

/-- An active session is never historic. -/
theorem not_historic_of_active {now : Instant} (h : row.active now = true) :
    row.historic now = false := by
  obtain ⟨hOpen, hExpires, -⟩ := active_iff.mp h
  refine Bool.eq_false_iff.mpr fun hHistoric => ?_
  rcases historic_iff.mp hHistoric with ⟨t, hRevoked, -⟩ | hLate
  · rw [hOpen] at hRevoked
    cases hRevoked
  · exact Nat.lt_asymm (Nat.lt_of_le_of_lt (Nat.le_add_right _ _) hLate) hExpires

theorem not_historic_of_revoke {now : Instant} (h : row.active now = true) :
    (row.revoke now).historic now = false := by
  obtain ⟨-, hExpires, -⟩ := active_iff.mp h
  refine Bool.eq_false_iff.mpr fun hHistoric => ?_
  rcases historic_iff.mp hHistoric with ⟨t, hRevoked, hLate⟩ | hLate
  · obtain rfl := Option.some.inj hRevoked
    exact absurd hLate (Nat.not_lt.mpr (Nat.le_add_right _ _))
  · exact Nat.lt_asymm (Nat.lt_of_le_of_lt (Nat.le_add_right _ _) hLate) hExpires

theorem mem_prepare {userId : UserId} {now : Instant} {sessions : Table WebSession} :
    row ∈ prepareForNewSession env userId now sessions ↔
      (∃ old ∈ sessions, (if old ∈ evictedRecords env userId now sessions then old.revoke now
        else old) = row) ∧ (row.userId = userId → row.historic now = false) := by
  rw [prepareForNewSession, Table.mem_delete, Table.mem_update]
  simp only [decide_eq_true_eq, Bool.and_eq_false_imp, beq_iff_eq]

theorem carries_prepare (userId : UserId) :
    Carries env s action (prepareForNewSession env userId s.now s.sessions) := by
  constructor
  · intro row' hRow'
    obtain ⟨⟨row, hRow, rfl⟩, -⟩ := mem_prepare.mp hRow'
    refine ⟨row, hRow, ?_⟩
    split
    · rename_i hEvicted
      exact .revoked (active_iff.mp (active_of_evicted hEvicted).2.2).1
    · exact .same
  · intro row hRow hHistoric
    by_cases hEvicted : row ∈ evictedRecords env userId s.now s.sessions
    · have hActive := (active_of_evicted hEvicted).2.2
      exact ⟨row.revoke s.now, mem_prepare.mpr ⟨⟨row, hRow, if_pos hEvicted⟩,
        fun _ => not_historic_of_revoke hActive⟩, .revoked (active_iff.mp hActive).1⟩
    · exact ⟨row, mem_prepare.mpr ⟨⟨row, hRow, if_neg hEvicted⟩, fun _ => hHistoric⟩, .same⟩

/-- What a call does. -/
inductive Performed (env : AccountEnv) (s : Accounts) (action : AccountAction) :
    Accounts → AccountOutcome → Prop
  | kept {s' : Accounts} {outcome : AccountOutcome}
      (hCarries : Carries env s action s'.sessions) (hNow : s.now ≤ s'.now)
      (hUsers : ∀ userId, s'.isActive userId = s.isActive userId)
      (hTokens : s'.nextToken = s.nextToken)
      (hNone : ∀ token session, outcome ≠ .issued token session) :
      Performed env s action s' outcome
  | issued {s' : Accounts} {kept : Table WebSession} {userId : UserId} {createdAt : Instant}
      (hCarries : Carries env s action kept) (hNow : s'.now = s.now)
      (hUsers : ∀ userId, s'.isActive userId = s.isActive userId)
      (hTokens : s'.nextToken = s.nextToken + 1)
      (hSessions : ∀ row, row ∈ s'.sessions ↔ row ∈ kept ∨
        row = newSession env s.nextSession s.nextToken userId createdAt s.now) :
      Performed env s action s' (.issued s.nextToken s.nextSession)

theorem isActive_updateUser {userId : UserId} {f : User → User} {hKey : ∀ u, (f u).id = u.id}
    (hActive : ∀ u, (f u).isActive = u.isActive) (id : UserId) :
    (s.updateUser userId f hKey).isActive id = s.isActive id := by
  unfold Accounts.isActive Accounts.updateUser
  rw [Table.find?_update]
  cases s.users.find? id with
  | none => rfl
  | some user =>
      rw [Option.map_some, Option.any_some, Option.any_some]
      split
      · exact hActive user
      · rfl

theorem performed_same {outcome : AccountOutcome}
    (hNone : ∀ token session, outcome ≠ .issued token session) :
    Performed env s action s outcome :=
  .kept carries_refl (Nat.le_refl _) (fun _ => rfl) rfl hNone

theorem performed_update {p : WebSession → Bool} {f : WebSession → WebSession}
    {hKey : ∀ r, (f r).id = r.id} {outcome : AccountOutcome}
    (h : ∀ row ∈ s.sessions, p row = true → SessionAfter env s action row (f row))
    (hNone : ∀ token session, outcome ≠ .issued token session) :
    Performed env s action (s.updateSessions p f hKey) outcome :=
  .kept (carries_update h) (Nat.le_refl _) (fun _ => rfl) rfl hNone

theorem performed_issueSession {changed : Accounts} {userId : UserId} {createdAt : Instant}
    {kept : Table WebSession} {hFresh : ∀ r ∈ kept, r.id < changed.nextSession}
    (hCarries : Carries env s action kept) (hNow : changed.now = s.now)
    (hUsers : ∀ userId, changed.isActive userId = s.isActive userId)
    (hSession : changed.nextSession = s.nextSession) (hToken : changed.nextToken = s.nextToken) :
    Performed env s action (changed.issueSession env userId createdAt kept hFresh).1
      (changed.issueSession env userId createdAt kept hFresh).2 := by
  have hOutcome : (changed.issueSession env userId createdAt kept hFresh).2 =
      .issued s.nextToken s.nextSession := by
    rw [← hSession, ← hToken]
    rfl
  rw [hOutcome]
  refine @Performed.issued env s action _ kept userId createdAt hCarries hNow hUsers
    (congrArg (· + 1) hToken) fun row => ?_
  rw [← hSession, ← hToken, ← hNow]
  exact Accounts.mem_issueSession env changed

theorem performed_login (email : Text) (password rehashed : String) (createdAt : Instant) :
    Performed env s action (s.login env email password rehashed createdAt).1
      (s.login env email password rehashed createdAt).2 := by
  unfold Accounts.login
  split
  · exact performed_same fun _ _ h => by cases h
  · dsimp only
    split
    · split
      · refine .kept carries_refl (Nat.le_refl _) ?_ rfl fun _ _ h => by cases h
        exact fun id => isActive_updateUser (by intro u; exact u.endLockout_isActive s.now) id
      · exact performed_same fun _ _ h => by cases h
    · refine performed_issueSession (carries_prepare _) rfl ?_ rfl rfl
      exact fun id => isActive_updateUser (by intro u; exact u.endLockout_isActive s.now) id

/-- The row that `resolve_session` reads. -/
theorem eq_of_find?_token {token : Token} {record : WebSession}
    (h : s.sessions.rows.find? (·.tokenHash = env.hashToken token) = some record) :
    record ∈ s.sessions ∧ record.tokenHash = env.hashToken token :=
  ⟨List.mem_of_find?_eq_some h, by simpa using List.find?_some h⟩

theorem performed_resolve (token : Token) :
    Performed env s (.resolve token) (s.resolveSession env token).1
      (s.resolveSession env token).2 := by
  have hId {record : WebSession} (hRecord : record ∈ s.sessions) (row : WebSession)
      (hRow : row ∈ s.sessions) (h : decide (row.id = record.id) = true) : row = record :=
    Table.eq_of_key hRow hRecord (of_decide_eq_true h)
  have hAccepts {userId : UserId} {session : SessionId}
      (h : (s.resolveSession env token).2 = .accepted userId session) :
      s.accepts env token = true := by
    rw [Accounts.accepts, h]
  unfold Accounts.resolveSession at hAccepts ⊢
  split
  · exact performed_same fun _ _ h => by cases h
  · rename_i record hFind
    obtain ⟨hRecord, hToken⟩ := eq_of_find?_token hFind
    rw [hFind] at hAccepts
    dsimp only at hAccepts ⊢
    split
    · split
      · rename_i hOpen
        refine performed_update (fun row hRow h => ?_) fun _ _ h => by cases h
        obtain rfl := hId hRecord row hRow h
        exact .revoked (Option.isNone_iff_eq_none.mp hOpen)
      · exact performed_same fun _ _ h => by cases h
    · rename_i hValid
      split
      · rename_i hDue
        rw [if_neg hValid, if_pos hDue] at hAccepts
        refine performed_update (fun row hRow h => ?_) fun _ _ h => by cases h
        obtain rfl := hId hRecord row hRow h
        rw [Bool.not_eq_true, Bool.or_eq_false_iff, Bool.or_eq_false_iff, Bool.or_eq_false_iff,
          decide_eq_false_iff_not, decide_eq_false_iff_not, Nat.not_le, Nat.not_le] at hValid
        refine .touched rfl hToken (active_iff.mpr ⟨?_, hValid.1.2⟩) hDue (hAccepts rfl)
        exact Option.isSome_eq_false_iff.mp hValid.1.1 |> Option.isNone_iff_eq_none.mp
      · exact performed_same fun _ _ h => by cases h

theorem performed_changePassword (userId : UserId) (currentPassword newHash : String)
    (createdAt : Instant) :
    Performed env s action (s.changePassword env userId currentPassword newHash createdAt).1
      (s.changePassword env userId currentPassword newHash createdAt).2 := by
  unfold Accounts.changePassword
  split
  · exact performed_same fun _ _ h => by cases h
  · split
    · refine performed_issueSession (carries_update fun row _ h => .revoked ?_) rfl ?_ rfl rfl
      · rw [Bool.and_eq_true] at h
        exact Option.isNone_iff_eq_none.mp h.2
      · exact fun id => isActive_updateUser (by intro u; rfl) id
    · exact performed_same fun _ _ h => by cases h

theorem performed (env : AccountEnv) (s : Accounts) (action : AccountAction) :
    Performed env s action (s.perform env action).1 (s.perform env action).2 := by
  cases action with
  | tick elapsed =>
      exact .kept carries_refl (Nat.le_add_right _ _) (fun _ => rfl) rfl fun _ _ h => by cases h
  | login email password rehashed createdAt =>
      exact performed_login email password rehashed createdAt
  | resolve token => exact performed_resolve token
  | revoke userId sessionId =>
      show Performed env s _ (s.revokeSession userId sessionId).1
        (s.revokeSession userId sessionId).2
      unfold Accounts.revokeSession
      split
      · rename_i hAny
        obtain ⟨found, hFound, hOpen⟩ := List.any_eq_true.mp hAny
        simp only [Bool.and_eq_true, decide_eq_true_eq, Option.isNone_iff_eq_none] at hOpen
        refine performed_update (fun row hRow h => ?_) fun _ _ h => by cases h
        obtain rfl := Table.eq_of_key hRow hFound ((of_decide_eq_true h).trans hOpen.1.2.symm)
        exact .revoked hOpen.2
      · exact performed_same fun _ _ h => by cases h
  | logout sessionId =>
      refine performed_update (fun row _ h => .revoked ?_) fun _ _ h => by cases h
      rw [Bool.and_eq_true] at h
      exact Option.isNone_iff_eq_none.mp h.2
  | changePassword userId currentPassword newHash createdAt =>
      exact performed_changePassword userId currentPassword newHash createdAt

theorem performed_of_step (h : s.step env action = some s') :
    Performed env s action s' (s.perform env action).2 := by
  obtain rfl := Option.some.inj h
  exact performed env s action

theorem now_le (h : s.step env action = some s') : s.now ≤ s'.now := by
  have hPerformed := performed_of_step h
  generalize (s.perform env action).2 = outcome at hPerformed
  cases hPerformed with
  | kept _ hNow => exact hNow
  | issued _ hNow => exact hNow.ge

theorem isActive_step (h : s.step env action = some s') (userId : UserId) :
    s'.isActive userId = s.isActive userId := by
  have hPerformed := performed_of_step h
  generalize (s.perform env action).2 = outcome at hPerformed
  cases hPerformed with
  | kept _ _ hUsers => exact hUsers userId
  | issued _ _ hUsers => exact hUsers userId

end Step

/-! ### One user who signs in -/

/-- Sessions of ten idle minutes and twenty in all, two at a time. -/
def demoAccountEnv : AccountEnv where
  sessionIdleSeconds := 600
  sessionAbsoluteSeconds := 1200
  maxActiveSessions := 2
  positive := by decide
  idle_le_absolute := by decide
  casefold := id
  verifyPassword := fun hash password => hash == password
  passwordNeedsRehash := fun _ => false
  hashToken := fun token => String.ofList (List.replicate token 'x')
  hashToken_injective := fun _ _ h => by
    simpa using congrArg List.length (String.ofList_injective h)

def demoUser : User := ⟨1, "ada".toList, "secret", true, 0, none⟩

def demoAccounts : Accounts :=
  ⟨0, ⟨[demoUser], by decide⟩, .empty, 0, 0, fun r hr => nomatch hr⟩

def signIn : AccountAction := .login "ada".toList "secret" "" 0

/-- The accounts after the actions. -/
def accountsAfter (actions : List AccountAction) : Accounts :=
  (run (Accounts.step demoAccountEnv) demoAccounts actions).getD demoAccounts

end SavedOrganizer
