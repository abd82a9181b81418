import SavedOrganizer.System.SiteInvariant

/-!
# Whose requests end a session

A session of a user ends when it expires, when the user signs out, revokes it, changes the password
or deletes the account, or when a sign-in of the user needs its place. Nothing that anybody else
asks for ends it: not a wrong password, not another user's request, not the use of a dead token
(`session_survives`).

The list of sessions that a user is shown is exact: it has each session whose token would be
accepted, and no other (`sessions_listed`).
-/

namespace SavedOrganizer

open Transition

/-! ## What ends sessions -/

/-- The routes that end sessions of their user. -/
def AccountCall.endsSessions : AccountCall → Bool
  | deleteSession | changePassword _ _ _ | deleteAccount _ | revokeActiveSession _ => true
  | _ => false

/-- The user asks for the end of a session. -/
def EndsOwn (env : ApiEnv) (s : Site) (action : SiteAction) (userId : UserId) : Prop :=
  ∃ account head context, action = .request (.signedIn account) head ∧
    account.endsSessions = true ∧
    (getAuthContext env head s account.isUnsafe).2 = .ok context ∧ context.user = userId

/-- The user gets a new session. -/
def SignsIn (s s' : Site) (userId : UserId) : Prop :=
  ∃ row ∈ s'.accounts.sessions, row.userId = userId ∧ ∀ old ∈ s.accounts.sessions, old.id ≠ row.id

/-- The row of a session later on: it is open, and lives at least as long. -/
structure Prolongs (row row' : WebSession) : Prop where
  id : row'.id = row.id
  userId : row'.userId = row.userId
  tokenHash : row'.tokenHash = row.tokenHash
  expiresAt : row'.expiresAt = row.expiresAt
  opened : row'.revokedAt = none
  idle : row.idleExpiresAt ≤ row'.idleExpiresAt

/-- The session goes on. -/
def GoesOn (row : WebSession) (s : Accounts) : Prop := ∃ row' ∈ s.sessions, Prolongs row row'

section Calls

variable {env : AccountEnv} {s t : Accounts} {row row' : WebSession}

theorem Prolongs.active {now : Instant} (h : Prolongs row row')
    (hLives : now < row.expiresAt ∧ now < row.idleExpiresAt) : row'.active now = true :=
  active_iff.mpr ⟨h.opened, h.expiresAt ▸ hLives.1, Nat.lt_of_lt_of_le hLives.2 h.idle⟩

theorem GoesOn.of_sessions (h : GoesOn row s) (hSame : t.sessions = s.sessions) : GoesOn row t := by
  obtain ⟨row', hRow', hCont⟩ := h
  exact ⟨row', hSame ▸ hRow', hCont⟩

/-- An update of other rows. -/
theorem mem_updateSessions_of_not {p : WebSession → Bool} {f : WebSession → WebSession}
    {hKey : ∀ r, (f r).id = r.id} (hRow : row ∈ s.sessions) (hOther : p row = false) :
    row ∈ (s.updateSessions p f hKey).sessions :=
  Accounts.mem_updateSessions.mpr ⟨row, hRow, if_neg (ne_true_of_eq_false hOther)⟩

theorem Prolongs.touch (hCont : Prolongs row row') (hIdle : row'.idleExpiresAt ≤ row'.expiresAt)
    (hBound : row'.idleExpiresAt ≤ s.now + seconds env.sessionIdleSeconds) :
    Prolongs row (row'.touch env s.now) :=
  ⟨hCont.id, hCont.userId, hCont.tokenHash, hCont.expiresAt, hCont.opened,
    Nat.le_trans hCont.idle (Nat.le_min.mpr ⟨hBound, hIdle⟩)⟩

/-- The use of any token. -/
theorem GoesOn.resolve (hInv : SessionInv env s) (hIdle : IdleBounded env s) (k : Token)
    (hLives : s.now < row.expiresAt ∧ s.now < row.idleExpiresAt)
    (hUser : s.isActive row.userId = true) (h : GoesOn row s) :
    GoesOn row (s.resolveSession env k).1 := by
  obtain ⟨row', hRow', hCont⟩ := h
  have hActive := hCont.active hLives
  by_cases hToken : row'.tokenHash = env.hashToken k
  · rw [resolveSession_valid (find?_token hInv hRow' hToken) hActive (hCont.userId ▸ hUser)]
    dsimp only
    split
    · refine ⟨row'.touch env s.now, ?_, hCont.touch (hInv.idle_le row' hRow') (hIdle row' hRow')⟩
      exact Accounts.mem_updateSessions.mpr ⟨row', hRow', if_pos (decide_eq_true rfl)⟩
    · exact ⟨row', hRow', hCont⟩
  · unfold Accounts.resolveSession
    split
    · exact ⟨row', hRow', hCont⟩
    · rename_i record hFind
      obtain ⟨hRecord, hHash⟩ := eq_of_find?_token hFind
      have hOther : decide (row'.id = record.id) = false := by
        refine decide_eq_false fun hId => hToken ?_
        rw [Table.eq_of_key hRow' hRecord hId]
        exact hHash
      dsimp only
      split
      · split
        · exact ⟨row', mem_updateSessions_of_not hRow' hOther, hCont⟩
        · exact ⟨row', hRow', hCont⟩
      · split
        · exact ⟨row', mem_updateSessions_of_not hRow' hOther, hCont⟩
        · exact ⟨row', hRow', hCont⟩

/-- A sign-in of another user. -/
theorem GoesOn.login {email : Text} {password rehashed : String} {createdAt : Instant}
    (hOther : ∀ new ∈ (s.login env email password rehashed createdAt).1.sessions,
      new.id = s.nextSession → new.userId ≠ row.userId) (h : GoesOn row s) :
    GoesOn row (s.login env email password rehashed createdAt).1 := by
  rcases login_cases env s email password rehashed createdAt with
    ⟨hSame, -, -⟩ | ⟨user, -, -, hSessions⟩
  · exact h.of_sessions hSame
  · obtain ⟨row', hRow', hCont⟩ := h
    have hUser : row'.userId ≠ user := by
      rw [hCont.userId]
      exact (hOther _ ((hSessions _).mpr (Or.inr rfl)) rfl).symm
    refine ⟨row', (hSessions row').mpr (Or.inl (mem_prepare.mpr ⟨⟨row', hRow', ?_⟩, ?_⟩)), hCont⟩
    · exact if_neg fun hEvicted =>
        hUser (activeOf_iff_active.mp (List.mem_of_mem_drop hEvicted |> mem_activeRecords.mp).2).1
    · exact fun hEq => absurd hEq hUser

/-- The revocation of a session of another user. -/
theorem GoesOn.revoke {user : UserId} {session : SessionId} (hUser : user ≠ row.userId)
    (h : GoesOn row s) : GoesOn row (s.revokeSession user session).1 := by
  obtain ⟨row', hRow', hCont⟩ := h
  unfold Accounts.revokeSession
  split
  · rename_i hAny
    obtain ⟨found, hFound, hOwned⟩ := List.any_eq_true.mp hAny
    simp only [Bool.and_eq_true, decide_eq_true_eq] at hOwned
    refine ⟨row', mem_updateSessions_of_not hRow' (decide_eq_false fun hId => hUser ?_), hCont⟩
    rw [← hCont.userId, Table.eq_of_key hRow' hFound (hId.trans hOwned.1.2.symm)]
    exact hOwned.1.1.symm
  · exact ⟨row', hRow', hCont⟩

/-- The end of a session of another user. -/
theorem GoesOn.logout {session : SessionId}
    (hOther : ∀ r ∈ s.sessions, r.id = session → r.userId ≠ row.userId) (h : GoesOn row s) :
    GoesOn row (s.logout session).1 := by
  obtain ⟨row', hRow', hCont⟩ := h
  refine ⟨row', mem_updateSessions_of_not hRow' ?_, hCont⟩
  rw [Bool.and_eq_false_iff]
  exact Or.inl (decide_eq_false fun hId => hOther row' hRow' hId hCont.userId)

/-- A password change of another user. -/
theorem GoesOn.changePassword {user : UserId} {currentPassword newHash : String}
    {createdAt : Instant} (hUser : user ≠ row.userId) (h : GoesOn row s) :
    GoesOn row (s.changePassword env user currentPassword newHash createdAt).1 := by
  rcases changePassword_cases env s user currentPassword newHash createdAt with
    ⟨hSame, -⟩ | ⟨-, -, hSessions⟩
  · rw [hSame]
    exact h
  · obtain ⟨row', hRow', hCont⟩ := h
    refine ⟨row', (hSessions row').mpr (Or.inl ⟨row', hRow', if_neg fun hBoth => hUser ?_⟩), hCont⟩
    rw [← hCont.userId]
    exact hBoth.1.symm

end Calls

/-! ## A request -/

section Request

variable {env : ApiEnv} {head : RequestHead} {s s' s₀ u : Site} {row : WebSession}

/-- What resolving the session of a request leaves of the accounts. -/
structure ResolvedAccounts (s s' : Accounts) : Prop where
  now : s'.now = s.now
  nextSession : s'.nextSession = s.nextSession
  active : ∀ user, s'.isActive user = s.isActive user
  rows : ∀ row' ∈ s'.sessions, ∃ row ∈ s.sessions, row'.id = row.id ∧ row'.userId = row.userId

theorem resolvedAccounts_update {s : Accounts} {p : WebSession → Bool} {f : WebSession → WebSession}
    {hKey : ∀ r, (f r).id = r.id} (hUser : ∀ r, (f r).userId = r.userId) :
    ResolvedAccounts s (s.updateSessions p f hKey) := by
  refine ⟨rfl, rfl, fun _ => rfl, fun row' hRow' => ?_⟩
  obtain ⟨row, hRow, rfl⟩ := Accounts.mem_updateSessions.mp hRow'
  refine ⟨row, hRow, ?_⟩
  split
  · exact ⟨hKey row, hUser row⟩
  · exact ⟨rfl, rfl⟩

theorem Resolves.accounts (h : Resolves env head s s') :
    ResolvedAccounts s.accounts s'.accounts := by
  have hSame : ResolvedAccounts s.accounts s.accounts :=
    ⟨rfl, rfl, fun _ => rfl, fun row hRow => ⟨row, hRow, rfl, rfl⟩⟩
  cases h with
  | unknown => exact hSame
  | @token text source k hToken hRead =>
      show ResolvedAccounts s.accounts (s.accounts.resolveSession env.accounts k).1
      unfold Accounts.resolveSession
      split
      · exact hSame
      · dsimp only
        split
        · split
          · exact resolvedAccounts_update fun _ => rfl
          · exact hSame
        · split
          · exact resolvedAccounts_update fun _ => rfl
          · exact hSame

theorem GoesOn.resolves (h : Resolves env head s s') (hInv : SiteInv env s)
    (hLives : s.accounts.now < row.expiresAt ∧ s.accounts.now < row.idleExpiresAt)
    (hGoes : GoesOn row s.accounts) : GoesOn row s'.accounts := by
  cases h with
  | unknown => exact hGoes
  | @token text source k hToken hRead =>
      obtain ⟨row', hRow', hCont⟩ := hGoes
      have hUser := hInv.active row.userId (hCont.userId ▸ hInv.owned row' hRow')
      exact GoesOn.resolve hInv.sessions hInv.idle k hLives hUser ⟨row', hRow', hCont⟩

/-- A route that is run for another user, or for nobody. -/
theorem GoesOn.acts {actor : Option AuthContext} {cookies : CookieChange}
    (h : Acts env s actor s' cookies)
    (hNew : ∀ new ∈ s'.accounts.sessions, new.id = s.accounts.nextSession → new.userId ≠ row.userId)
    (hActor : ∀ context, actor = some context → context.user ≠ row.userId ∧
      ∀ r ∈ s.accounts.sessions, r.id = context.webSession → r.userId = context.user)
    (hGoes : GoesOn row s.accounts) : GoesOn row s'.accounts := by
  cases h with
  | nothing => exact hGoes
  | renamed => exact hGoes
  | signInFailed email password rehashed createdAt hNone => exact hGoes.login hNew
  | signedIn email password rehashed createdAt hIssued => exact hGoes.login hNew
  | registered email displayName passwordHash createdAt hRegistered =>
      exact hGoes.of_sessions (register_eq_some hRegistered).sessions
  | signedOut context =>
      obtain ⟨hOther, hOwner⟩ := hActor context rfl
      exact hGoes.logout fun r hRow hId => hOwner r hRow hId ▸ hOther
  | sessionRevoked context session hCookies => exact hGoes.revoke (hActor context rfl).1
  | passwordChanged context currentPassword newHash createdAt hIssued =>
      exact hGoes.changePassword (hActor context rfl).1
  | connectionRevoked => exact hGoes
  | deleted context hDeleted =>
      obtain ⟨row', hRow', hCont⟩ := hGoes
      refine ⟨row', ((deleteUser_eq_some hDeleted).sessions row').mpr ⟨hRow', ?_⟩, hCont⟩
      rw [hCont.userId]
      exact (hActor context rfl).1.symm
  | served => exact hGoes

/-- The other routes behind a session leave the accounts alone. -/
theorem handle_accounts {account : AccountCall} (h : account.endsSessions = false)
    (context : AuthContext) : (account.handle env head s context).1.accounts = s.accounts := by
  cases account with
  | deleteSession | changePassword | deleteAccount | revokeActiveSession => cases h
  | _ => rfl

/-- They only resolve the session. -/
theorem handle_resolves {account : AccountCall} (h : account.endsSessions = false) :
    ((ApiCall.signedIn account).handle env head s).1.accounts =
      (optionalAuthContext env head s).1.accounts := by
  have hFst := @getAuthContext_fst env head s account.isUnsafe
  unfold ApiCall.handle
  dsimp only
  cases hGate : getAuthContext env head s account.isUnsafe with
  | mk resolved result =>
      rw [hGate] at hFst
      cases result with
      | error e => exact congrArg Site.accounts hFst
      | ok context => exact (handle_accounts h context).trans (congrArg Site.accounts hFst)

theorem goesOn_request (hInv : SiteInv env s) {call : ApiCall}
    (hOwn : ¬ EndsOwn env s (.request call head) row.userId)
    (hNew : ¬ SignsIn s (call.handle env head s).1 row.userId)
    (hLives : s.accounts.now < row.expiresAt ∧ s.accounts.now < row.idleExpiresAt)
    (hGoes : GoesOn row s.accounts) : GoesOn row (call.handle env head s).1.accounts := by
  by_cases hQuiet : ∃ account, call = .signedIn account ∧ account.endsSessions = false
  · obtain ⟨account, rfl, hQuiet⟩ := hQuiet
    rw [handle_resolves hQuiet]
    exact hGoes.resolves resolves_optional hInv hLives
  · obtain ⟨parts⟩ := handled env head s call
    have hResolved := parts.resolves.accounts
    have hGoes := hGoes.resolves parts.resolves hInv hLives
    refine GoesOn.acts parts.acts
      (fun new hMem hId hUser => hNew ⟨new, hMem, hUser, fun old hOld => ?_⟩)
      (fun context hContext => ?_) hGoes
    · rw [hId]
      exact Nat.ne_of_lt (hResolved.nextSession ▸ s.accounts.sessions_fresh old hOld)
    · obtain ⟨account, rfl, hGate⟩ := parts.acting context hContext
      have hEnds : account.endsSessions = true := by
        rw [← Bool.not_eq_false]
        exact fun hFalse => hQuiet ⟨account, rfl, hFalse⟩
      refine ⟨fun hUser => hOwn ⟨account, head, context, rfl, hEnds, hGate, hUser⟩,
        fun r hRow hId => ?_⟩
      obtain ⟨record, k, hAuth⟩ :=
        (optionalAuthContext_iff hInv.sessions).mp (optional_of_getAuthContext hGate)
      obtain ⟨old, hOld, hSameId, hSameUser⟩ := hResolved.rows r hRow
      rw [hSameUser, Table.eq_of_key hOld hAuth.row
        (hSameId.symm.trans (hId.trans hAuth.sessionId.symm)), hAuth.userId]

/-! ## Runs -/

theorem Acts.now_le {actor : Option AuthContext} {cookies : CookieChange}
    (h : Acts env s actor s' cookies) : s.accounts.now ≤ s'.accounts.now := by
  have hPerform (action : AccountAction) :
      s.accounts.now ≤ (s.accounts.perform env.accounts action).1.now :=
    @SavedOrganizer.now_le env.accounts s.accounts _ action rfl
  cases h with
  | signInFailed email password rehashed createdAt =>
      exact hPerform (.login email password rehashed createdAt)
  | signedIn email password rehashed createdAt =>
      exact hPerform (.login email password rehashed createdAt)
  | registered email displayName passwordHash createdAt hNew => exact (register_eq_some hNew).now.ge
  | signedOut context => exact hPerform (.logout context.webSession)
  | sessionRevoked context session => exact hPerform (.revoke context.user session)
  | passwordChanged context currentPassword newHash createdAt =>
      exact hPerform (.changePassword context.user currentPassword newHash createdAt)
  | deleted context hDeleted => exact (deleteUser_eq_some hDeleted).now.ge
  | _ => exact Nat.le_refl _

theorem now_mono {action : SiteAction} (h : s.step env action = some s') :
    s.accounts.now ≤ s'.accounts.now := by
  cases action with
  | tick elapsed =>
      obtain rfl := Option.some.inj h
      exact Nat.le_add_right _ _
  | background commit hCategories =>
      obtain rfl := Option.some.inj h
      exact Nat.le_refl _
  | streams slots =>
      obtain rfl := Option.some.inj h
      exact Nat.le_refl _
  | request call head =>
      obtain ⟨parts⟩ := handled env head s call
      obtain rfl := Option.some.inj h
      exact Nat.le_trans parts.resolves.accounts.now.ge parts.acts.now_le

theorem goesOn_step {action : SiteAction} (hInv : SiteInv env s) (h : s.step env action = some s')
    (hOwn : ¬ EndsOwn env s action row.userId) (hNew : ¬ SignsIn s s' row.userId)
    (hLives : s.accounts.now < row.expiresAt ∧ s.accounts.now < row.idleExpiresAt)
    (hGoes : GoesOn row s.accounts) : GoesOn row s'.accounts := by
  cases action with
  | tick elapsed =>
      obtain rfl := Option.some.inj h
      exact hGoes
  | background commit hCategories =>
      obtain rfl := Option.some.inj h
      exact hGoes
  | streams slots =>
      obtain rfl := Option.some.inj h
      exact hGoes
  | request call head =>
      obtain rfl := Option.some.inj h
      exact goesOn_request hInv hOwn hNew hLives hGoes

/-- A session that nobody of its user ends is accepted until it expires. -/
theorem session_survives (env : ApiEnv) {s₀ u s : Site} {front back : List SiteAction}
    (hStart : s₀.Initial) (hFront : run (Site.step env) s₀ front = some u)
    (hBack : run (Site.step env) u back = some s) {row : WebSession}
    (hRow : row ∈ u.accounts.sessions) (hActive : row.active u.accounts.now = true)
    (hLives : s.accounts.now < row.expiresAt ∧ s.accounts.now < row.idleExpiresAt)
    (hOthers : ∀ x a y, StepOf (Site.step env) u back x a y →
      ¬ EndsOwn env x a row.userId ∧ ¬ SignsIn x y row.userId) :
    ∃ k, row.tokenHash = env.accounts.hashToken k ∧ s.accounts.accepts env.accounts k = true := by
  have hOpen := (active_iff.mp hActive).1
  obtain ⟨hInv, hGoes⟩ : SiteInv env s ∧
      (s.accounts.now < row.expiresAt ∧ s.accounts.now < row.idleExpiresAt →
        GoesOn row s.accounts) := by
    refine run_induct (I := fun x => SiteInv env x ∧
      (x.accounts.now < row.expiresAt ∧ x.accounts.now < row.idleExpiresAt →
        GoesOn row x.accounts)) ?_ hBack fun x a y hStep ⟨hInv, hGoes⟩ => ?_
    · exact ⟨SiteInv.of_run hStart hFront,
        fun _ => ⟨row, hRow, rfl, rfl, rfl, rfl, hOpen, Nat.le_refl _⟩⟩
    · refine ⟨hInv.step hStep.step, fun hLater => ?_⟩
      have hNow := now_mono hStep.step
      have hSooner := hLater.imp (Nat.lt_of_le_of_lt hNow) (Nat.lt_of_le_of_lt hNow)
      obtain ⟨hOwn, hNew⟩ := hOthers x a y hStep
      exact goesOn_step hInv hStep.step hOwn hNew hSooner (hGoes hSooner)
  obtain ⟨row', hRow', hCont⟩ := hGoes hLives
  obtain ⟨k, -, hHash⟩ := hInv.sessions.drawn row' hRow'
  refine ⟨k, hCont.tokenHash.symm.trans hHash, accepts_iff.mpr ⟨row', ?_, hCont.active hLives, ?_⟩⟩
  · exact find?_token hInv.sessions hRow' hHash
  · exact hInv.active _ (hInv.owned row' hRow')

/-- No new session without a new row. -/
theorem not_signsIn {userId : UserId} (h : s'.accounts.sessions.rows = s.accounts.sessions.rows) :
    ¬ SignsIn s s' userId := by
  rintro ⟨row, hRow, -, hNew⟩
  refine hNew row ?_ rfl
  rw [Table.mem_def, ← h]
  exact hRow

/-- Whoever guesses at Ada's password does not sign her out. -/
theorem session_survives_guess :
    ∃ k, String.ofList (demoSessionToken 0) = demoApi.accounts.hashToken k ∧
      (siteAfter [registers "ada" "secret", logsIn "ada" "secret", logsIn "ada" "guess",
        .tick 5]).accounts.accepts demoApi.accounts k = true := by
  have hSurvives := @session_survives demoApi emptySite
    (siteAfter [registers "ada" "secret", logsIn "ada" "secret"])
    (siteAfter [registers "ada" "secret", logsIn "ada" "secret", logsIn "ada" "guess", .tick 5])
    [registers "ada" "secret", logsIn "ada" "secret"] [logsIn "ada" "guess", .tick 5]
    emptySite_initial rfl rfl (newSession demoApi.accounts 0 0 1 0 0) (List.mem_singleton.mpr rfl)
    (by decide +kernel) (by decide +kernel)
  refine hSurvives fun x a y hStep => ?_
  rcases (stepOf_cons rfl).mp hStep with ⟨rfl, rfl, rfl⟩ | hRest
  · exact ⟨fun ⟨_, _, _, hCall, _⟩ => (by cases hCall), not_signsIn (by decide +kernel)⟩
  · rcases (stepOf_cons rfl).mp hRest with ⟨rfl, rfl, rfl⟩ | hNone
    · exact ⟨fun ⟨_, _, _, hCall, _⟩ => (by cases hCall), not_signsIn rfl⟩
    · exact absurd hNone not_stepOf_nil

end Request

/-! ## The list of sessions -/

section Listed

variable {env : ApiEnv} {head : RequestHead} {s t : Site} {userId : UserId}

/-- The limit of the query is never reached. -/
theorem mem_listSessions (hInv : SiteInv env s) {row : WebSession} :
    row ∈ listSessions env s userId ↔
      row ∈ s.accounts.sessions ∧ row.activeOf userId s.accounts.now = true := by
  unfold listSessions
  rw [List.take_of_length_le, List.mem_mergeSort, List.mem_filter]
  · rfl
  · rw [List.length_mergeSort, ← List.countP_eq_length_filter]
    exact hInv.bounded userId

theorem nodup_listSessions : ((listSessions env s userId).map WebSession.id).Nodup := by
  have hFiltered : (((s.accounts.sessions.rows.filter
      (·.activeOf userId s.accounts.now)).mergeSort fun a b => b.lastSeenAt ≤ a.lastSeenAt).map
        WebSession.id).Nodup := by
    refine (((List.mergeSort_perm _ _).map _).nodup_iff).mpr ?_
    exact s.accounts.sessions.distinct.sublist (List.filter_sublist.map _)
  exact hFiltered.sublist ((List.take_sublist _ _).map _)

theorem sorted_listSessions :
    (listSessions env s userId).Pairwise fun a b => b.lastSeenAt ≤ a.lastSeenAt := by
  have hTrans (a b c : WebSession) (hab : decide (b.lastSeenAt ≤ a.lastSeenAt) = true)
      (hbc : decide (c.lastSeenAt ≤ b.lastSeenAt) = true) :
      decide (c.lastSeenAt ≤ a.lastSeenAt) = true :=
    decide_eq_true (Nat.le_trans (of_decide_eq_true hbc) (of_decide_eq_true hab))
  have hTotal (a b : WebSession) :
      (decide (b.lastSeenAt ≤ a.lastSeenAt) || decide (a.lastSeenAt ≤ b.lastSeenAt)) = true := by
    rw [Bool.or_eq_true, decide_eq_true_eq, decide_eq_true_eq]
    exact Nat.le_total _ _
  have hSorted := List.pairwise_mergeSort hTrans hTotal
    (s.accounts.sessions.rows.filter (·.activeOf userId s.accounts.now))
  exact (hSorted.imp of_decide_eq_true).sublist (List.take_sublist _ _)

/-- The session of a request is active when it is answered. -/
theorem active_after_resolve (hInv : SiteInv env s) {context : AuthContext}
    (hGate : getAuthContext env head s false = (t, .ok context)) :
    ∃ row ∈ t.accounts.sessions, row.id = context.webSession ∧
      row.activeOf context.user t.accounts.now = true := by
  obtain ⟨record, k, hAuth⟩ := (optionalAuthContext_iff hInv.sessions).mp
    (optional_of_getAuthContext (congrArg Prod.snd hGate))
  obtain rfl : (optionalAuthContext env head s).1 = t :=
    getAuthContext_fst false ▸ congrArg Prod.fst hGate
  have hResolves := @resolves_optional env head s
  obtain ⟨hOpen, hExpires, hIdle⟩ := active_iff.mp hAuth.active
  obtain ⟨row, hRow, hCont⟩ := GoesOn.resolves hResolves hInv ⟨hExpires, hIdle⟩
    ⟨record, hAuth.row, rfl, rfl, rfl, rfl, hOpen, Nat.le_refl _⟩
  rw [hResolves.accounts.now]
  exact ⟨row, hRow, hCont.id.trans hAuth.sessionId, activeOf_iff_active.mpr
    ⟨hCont.userId.trans hAuth.userId, hCont.active ⟨hExpires, hIdle⟩⟩⟩

/-- The list shows each session of the user whose token is accepted, once, the last one seen first,
and marks the one that asks. -/
theorem sessions_listed (env : ApiEnv) {s₀ s t : Site} {actions : List SiteAction}
    (hStart : s₀.Initial) (hRun : run (Site.step env) s₀ actions = some s) {head : RequestHead}
    {context : AuthContext} (hGate : getAuthContext env head s false = (t, .ok context)) :
    ∃ rows, (ApiCall.signedIn .listActiveSessions).handle env head s = (t, .ok (.sessions rows)) ∧
      rows.Pairwise (fun a b => b.lastSeenAt ≤ a.lastSeenAt) ∧
      (rows.map ActiveSessionResponse.id).Nodup ∧
      (∀ id, (∃ r ∈ rows, r.id = id) ↔ ∃ record ∈ t.accounts.sessions, ∃ k,
        record.id = id ∧ record.userId = context.user ∧
          record.tokenHash = env.accounts.hashToken k ∧
            t.accounts.accepts env.accounts k = true) ∧
      (∃ r ∈ rows, r.id = context.webSession) ∧
      ∀ r ∈ rows, r.current = true ↔ r.id = context.webSession := by
  have hInvS := SiteInv.of_run hStart hRun
  have hInv : SiteInv env t := by
    obtain rfl : (optionalAuthContext env head s).1 = t :=
      getAuthContext_fst false ▸ congrArg Prod.fst hGate
    exact hInvS.change resolves_optional.change fun user hUser => by cases hUser
  have hIds (id : SessionId) : (∃ r ∈ (listSessions env t context.user).map
      (ActiveSessionResponse.of context.webSession), r.id = id) ↔
        ∃ row ∈ t.accounts.sessions, row.id = id ∧
          row.activeOf context.user t.accounts.now = true := by
    constructor
    · rintro ⟨r, hr, rfl⟩
      obtain ⟨row, hRow, rfl⟩ := List.mem_map.mp hr
      obtain ⟨hMem, hActive⟩ := (mem_listSessions hInv).mp hRow
      exact ⟨row, hMem, rfl, hActive⟩
    · rintro ⟨row, hMem, rfl, hActive⟩
      exact ⟨_, List.mem_map_of_mem ((mem_listSessions hInv).mpr ⟨hMem, hActive⟩), rfl⟩
  refine ⟨(listSessions env t context.user).map (.of context.webSession), ?_, ?_, ?_, fun id => ?_,
    ?_, fun r hr => ?_⟩
  · exact @handle_of_gate env head s t .listActiveSessions context hGate
  · exact List.pairwise_map.mpr sorted_listSessions
  · rw [List.map_map]
    exact nodup_listSessions
  · rw [hIds]
    constructor
    · rintro ⟨row, hRow, rfl, hActive⟩
      obtain ⟨k, -, hHash⟩ := hInv.sessions.drawn row hRow
      obtain ⟨hUser, hOpen⟩ := activeOf_iff_active.mp hActive
      exact ⟨row, hRow, k, rfl, hUser, hHash, accepts_iff.mpr ⟨row,
        find?_token hInv.sessions hRow hHash, hOpen, hInv.active _ (hInv.owned row hRow)⟩⟩
    · rintro ⟨row, hRow, k, rfl, hUser, hHash, hAccepts⟩
      obtain ⟨found, hFind, hActive, -⟩ := accepts_iff.mp hAccepts
      obtain rfl := Option.some.inj ((find?_token hInv.sessions hRow hHash).symm.trans hFind)
      exact ⟨row, hRow, rfl, activeOf_iff_active.mpr ⟨hUser, hActive⟩⟩
  · exact (hIds _).mpr (active_after_resolve hInvS hGate)
  · obtain ⟨row, -, rfl⟩ := List.mem_map.mp hr
    exact beq_iff_eq

/-- Ada signs in twice and looks. -/
theorem sessions_listed_twice :
    ∃ rows, ((ApiCall.signedIn .listActiveSessions).handle demoApi
        (pageHead (some (demoSessionToken 1)) none)
        (siteAfter [registers "ada" "secret", logsIn "ada" "secret", logsIn "ada" "secret"])).2 =
          .ok (.sessions rows) ∧
      (rows.map ActiveSessionResponse.id).Nodup ∧ ∃ r ∈ rows, r.id = 1 := by
  obtain ⟨rows, hRows, -, hNodup, -, hCurrent, -⟩ := @sessions_listed demoApi emptySite
    (siteAfter [registers "ada" "secret", logsIn "ada" "secret", logsIn "ada" "secret"]) _
    [registers "ada" "secret", logsIn "ada" "secret", logsIn "ada" "secret"] emptySite_initial rfl
    (pageHead (some (demoSessionToken 1)) none) ⟨1, 1, .cookie⟩ (Prod.ext rfl (by decide +kernel))
  exact ⟨rows, congrArg Prod.snd hRows, hNodup, hCurrent⟩

end Listed

end SavedOrganizer
