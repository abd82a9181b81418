import SavedOrganizer.System.Sessions

/-!
# How long a session lives

A token is accepted while its row is active, and a row that has stopped being active never
becomes so again (`Dead`). The row's expiries are bounded by the times at which it was issued
and last used (`Dated`). In the other direction a row whose uses follow each other closely
enough stays alive (`Alive`): the idle expiry lags behind the last use by less than the five
minutes during which it is not rewritten.
-/

namespace SavedOrganizer

open Transition

section Lifetime

variable {env : AccountEnv} {s s' s₀ : Accounts} {action : AccountAction}
  {row row' : WebSession} {token : Token}

theorem SessionAfter.fixed (h : SessionAfter env s action row row') :
    row'.id = row.id ∧ row'.userId = row.userId ∧ row'.tokenHash = row.tokenHash ∧
      row'.expiresAt = row.expiresAt := by
  cases h <;> exact ⟨rfl, rfl, rfl, rfl⟩

theorem active_later {now now' : Instant} (hNow : now ≤ now') (h : row.active now' = true) :
    row.active now = true := by
  obtain ⟨hOpen, hExpires, hIdle⟩ := active_iff.mp h
  exact active_iff.mpr ⟨hOpen, Nat.lt_of_le_of_lt hNow hExpires, Nat.lt_of_le_of_lt hNow hIdle⟩

/-! ## Rows and tokens -/

structure SessionInv (env : AccountEnv) (s : Accounts) : Prop where
  idle_le : ∀ row ∈ s.sessions, row.idleExpiresAt ≤ row.expiresAt
  drawn : ∀ row ∈ s.sessions, ∃ token < s.nextToken, row.tokenHash = env.hashToken token
  unique : ∀ row ∈ s.sessions, ∀ row' ∈ s.sessions, row.tokenHash = row'.tokenHash → row = row'

theorem Accounts.Initial.inv (h : s.Initial) : SessionInv env s := by
  have hNone (row : WebSession) : row ∉ s.sessions := by
    rw [h]
    exact List.not_mem_nil
  exact ⟨fun row hRow => absurd hRow (hNone row), fun row hRow => absurd hRow (hNone row),
    fun row hRow => absurd hRow (hNone row)⟩

/-- A row after a step was there before, or is the one of the next token. -/
theorem row_origin (h : s.step env action = some s') (hRow' : row' ∈ s'.sessions) :
    (∃ row ∈ s.sessions, SessionAfter env s action row row') ∨
      (s'.nextToken = s.nextToken + 1 ∧ (s.perform env action).2 = .issued s.nextToken row'.id ∧
        ∃ userId createdAt,
          row' = newSession env s.nextSession s.nextToken userId createdAt s.now) := by
  have hPerformed := performed_of_step h
  generalize (s.perform env action).2 = outcome at hPerformed ⊢
  cases hPerformed with
  | kept hCarries => exact Or.inl (hCarries.backward row' hRow')
  | issued hCarries _ _ hTokens hSessions =>
      rcases (hSessions row').mp hRow' with hKept | rfl
      · exact Or.inl (hCarries.backward row' hKept)
      · exact Or.inr ⟨hTokens, rfl, _, _, rfl⟩

theorem nextToken_step (h : s.step env action = some s') : s.nextToken ≤ s'.nextToken := by
  have hPerformed := performed_of_step h
  generalize (s.perform env action).2 = outcome at hPerformed
  cases hPerformed with
  | kept _ _ _ hTokens => exact hTokens.ge
  | issued _ _ _ hTokens => exact hTokens ▸ Nat.le_succ _

theorem hash_ne_of_old (hInv : SessionInv env s) (hRow : row ∈ s.sessions) :
    row.tokenHash ≠ env.hashToken s.nextToken := by
  obtain ⟨old, hLt, hHash⟩ := hInv.drawn row hRow
  intro hEq
  obtain rfl := env.hashToken_injective (hHash.symm.trans hEq)
  exact absurd hLt (Nat.lt_irrefl _)

theorem sessionInv_step (h : s.step env action = some s') (hInv : SessionInv env s) :
    SessionInv env s' where
  idle_le := by
    intro row' hRow'
    rcases row_origin h hRow' with ⟨row, hRow, hAfter⟩ | ⟨-, -, _, _, rfl⟩
    · have hLe := hInv.idle_le row hRow
      cases hAfter with
      | same => exact hLe
      | revoked => exact hLe
      | touched => exact Nat.min_le_right _ _
    · exact Nat.add_le_add_left (Nat.mul_le_mul_right _ env.idle_le_absolute) _
  drawn := by
    intro row' hRow'
    rcases row_origin h hRow' with ⟨row, hRow, hAfter⟩ | ⟨hNext, -, _, _, rfl⟩
    · obtain ⟨token, hLt, hHash⟩ := hInv.drawn row hRow
      exact ⟨token, Nat.lt_of_lt_of_le hLt (nextToken_step h), hAfter.fixed.2.2.1.trans hHash⟩
    · exact ⟨s.nextToken, by rw [hNext]; exact Nat.lt_succ_self _, rfl⟩
  unique := by
    intro row₁ hRow₁ row₂ hRow₂ hHash
    rcases row_origin h hRow₁ with ⟨old₁, hOld₁, hAfter₁⟩ | ⟨-, -, _, _, hNew₁⟩
    · rcases row_origin h hRow₂ with ⟨old₂, hOld₂, hAfter₂⟩ | ⟨-, -, _, _, hNew₂⟩
      · obtain ⟨hId₁, -, hHash₁, -⟩ := hAfter₁.fixed
        obtain ⟨hId₂, -, hHash₂, -⟩ := hAfter₂.fixed
        obtain rfl := hInv.unique old₁ hOld₁ old₂ hOld₂ (by rw [← hHash₁, ← hHash₂, hHash])
        exact Table.eq_of_key hRow₁ hRow₂ (hId₁.trans hId₂.symm)
      · refine absurd ?_ (hash_ne_of_old hInv hOld₁)
        rw [← hAfter₁.fixed.2.2.1, hHash, hNew₂]
        rfl
    · rcases row_origin h hRow₂ with ⟨old₂, hOld₂, hAfter₂⟩ | ⟨-, -, _, _, hNew₂⟩
      · refine absurd ?_ (hash_ne_of_old hInv hOld₂)
        rw [← hAfter₂.fixed.2.2.1, ← hHash, hNew₁]
        rfl
      · refine Table.eq_of_key hRow₁ hRow₂ ?_
        rw [hNew₁, hNew₂]
        rfl

theorem sessionInv_of_run {actions : List AccountAction} (h : s₀.Initial)
    (hRun : run (Accounts.step env) s₀ actions = some s) : SessionInv env s :=
  invariant (fun _ _ _ hStep => sessionInv_step hStep) h.inv hRun

/-- The row that `resolve_session` finds is the token's. -/
theorem find?_token (hInv : SessionInv env s) (hRow : row ∈ s.sessions)
    (hToken : row.tokenHash = env.hashToken token) :
    s.sessions.rows.find? (·.tokenHash = env.hashToken token) = some row := by
  have hSome : (s.sessions.rows.find? (·.tokenHash = env.hashToken token)).isSome = true :=
    List.find?_isSome.mpr ⟨row, hRow, decide_eq_true hToken⟩
  obtain ⟨found, hFound⟩ := Option.isSome_iff_exists.mp hSome
  obtain ⟨hMem, hHash⟩ := eq_of_find?_token hFound
  rw [hFound, hInv.unique found hMem row hRow (hHash.trans hToken.symm)]

theorem resolveSession_valid {record : WebSession}
    (hFind : s.sessions.rows.find? (·.tokenHash = env.hashToken token) = some record)
    (hActive : record.active s.now = true) (hUser : s.isActive record.userId = true) :
    s.resolveSession env token =
      (if record.lastSeenAt + SESSION_TOUCH_INTERVAL ≤ s.now then
        s.updateSessions (·.id = record.id) (WebSession.touch env s.now)
      else s, .accepted record.userId record.id) := by
  obtain ⟨hOpen, hExpires, hIdle⟩ := active_iff.mp hActive
  have hValid : (record.revokedAt.isSome || (decide (record.expiresAt ≤ s.now) ||
      decide (record.idleExpiresAt ≤ s.now)) || !s.isActive record.userId) = false := by
    rw [hOpen, decide_eq_false (Nat.not_le.mpr hExpires), decide_eq_false (Nat.not_le.mpr hIdle),
      hUser]
    rfl
  unfold Accounts.resolveSession
  rw [hFind]
  dsimp only
  rw [hValid, if_neg Bool.false_ne_true]
  split <;> rfl

theorem accepts_iff : s.accepts env token = true ↔ ∃ record,
    s.sessions.rows.find? (·.tokenHash = env.hashToken token) = some record ∧
      record.active s.now = true ∧ s.isActive record.userId = true := by
  constructor
  · intro h
    unfold Accounts.accepts Accounts.resolveSession at h
    split at h
    · rename_i hAccepted
      split at hAccepted
      · cases hAccepted
      · rename_i record hFind
        dsimp only at hAccepted
        split at hAccepted
        · split at hAccepted <;> cases hAccepted
        · rename_i hValid
          simp only [Bool.not_eq_true, Bool.or_eq_false_iff, decide_eq_false_iff_not, Nat.not_le,
            Option.isSome_eq_false_iff, Option.isNone_iff_eq_none, Bool.not_eq_false'] at hValid
          exact ⟨record, hFind, active_iff.mpr ⟨hValid.1.1, hValid.1.2⟩, hValid.2⟩
    · cases h
  · rintro ⟨record, hFind, hActive, hUser⟩
    rw [Accounts.accepts, resolveSession_valid hFind hActive hUser]

/-! ## Never again -/

/-- The token has been issued and its session, if it is still recorded, is not active. -/
structure Dead (env : AccountEnv) (token : Token) (s : Accounts) : Prop where
  drawn : token < s.nextToken
  inactive : ∀ row ∈ s.sessions, row.tokenHash = env.hashToken token → row.active s.now = false

theorem dead_step (h : s.step env action = some s') (hDead : Dead env token s) :
    Dead env token s' where
  drawn := Nat.lt_of_lt_of_le hDead.drawn (nextToken_step h)
  inactive := by
    intro row' hRow' hToken
    refine Bool.eq_false_iff.mpr fun hActive' => ?_
    have hNow := active_later (now_le h) hActive'
    rcases row_origin h hRow' with ⟨row, hRow, hAfter⟩ | ⟨-, -, _, _, rfl⟩
    · have hInactive := hDead.inactive row hRow (hAfter.fixed.2.2.1 ▸ hToken)
      cases hAfter with
      | same =>
          rw [hInactive] at hNow
          cases hNow
      | revoked =>
          have hOpen := (active_iff.mp hNow).1
          cases hOpen
      | touched _ _ hActive =>
          rw [hInactive] at hActive
          cases hActive
    · obtain rfl := env.hashToken_injective hToken
      exact absurd hDead.drawn (Nat.lt_irrefl _)

theorem Dead.not_accepts (h : Dead env token s) : s.accepts env token = false := by
  refine Bool.eq_false_iff.mpr fun hAccepts => ?_
  obtain ⟨record, hFind, hActive, -⟩ := accepts_iff.mp hAccepts
  obtain ⟨hRecord, hToken⟩ := eq_of_find?_token hFind
  rw [h.inactive record hRecord hToken] at hActive
  cases hActive

/-! ## Issued and used -/

/-- In the run the token was issued at this time. -/
def IssuedAt (env : AccountEnv) (s₀ : Accounts) (actions : List AccountAction) (token : Token)
    (time : Instant) : Prop :=
  ∃ u a v session, StepOf (Accounts.step env) s₀ actions u a v ∧
    (u.perform env a).2 = .issued token session ∧ u.now = time

/-- In the run a use of the token was accepted at this time. -/
def UsedAt (env : AccountEnv) (s₀ : Accounts) (actions : List AccountAction) (token : Token)
    (time : Instant) : Prop :=
  ∃ u v, StepOf (Accounts.step env) s₀ actions u (.resolve token) v ∧
    u.accepts env token = true ∧ u.now = time

/-- The expiries of a row come from the times of its issue and of a use. -/
structure Dated (env : AccountEnv) (s₀ : Accounts) (actions : List AccountAction)
    (row : WebSession) : Prop where
  issued : ∃ token time, row.tokenHash = env.hashToken token ∧
    IssuedAt env s₀ actions token time ∧
      row.expiresAt = time + seconds env.sessionAbsoluteSeconds
  used : ∃ token time, row.tokenHash = env.hashToken token ∧
    (IssuedAt env s₀ actions token time ∨ UsedAt env s₀ actions token time) ∧
      row.idleExpiresAt ≤ time + seconds env.sessionIdleSeconds

theorem dated_step {actions : List AccountAction} {u v : Accounts}
    (hStep : StepOf (Accounts.step env) s₀ actions u action v)
    (h : ∀ row ∈ u.sessions, Dated env s₀ actions row) :
    ∀ row ∈ v.sessions, Dated env s₀ actions row := by
  intro row' hRow'
  rcases row_origin hStep.step hRow' with ⟨row, hRow, hAfter⟩ | ⟨-, hIssued, _, _, hNew⟩
  · have hDated := h row hRow
    obtain ⟨-, -, hHash, hExpires⟩ := hAfter.fixed
    refine ⟨?_, ?_⟩
    · rw [hHash, hExpires]
      exact hDated.issued
    · cases hAfter with
      | same => exact hDated.used
      | revoked => exact hDated.used
      | @touched token hUse hToken _ _ hAccepts =>
          subst hUse
          exact ⟨token, u.now, hToken, Or.inr ⟨u, v, hStep, hAccepts, rfl⟩, Nat.min_le_left _ _⟩
  · have hAt : IssuedAt env s₀ actions u.nextToken u.now :=
      ⟨u, action, v, row'.id, hStep, hIssued, rfl⟩
    rw [hNew]
    exact ⟨⟨u.nextToken, u.now, rfl, hAt, rfl⟩, ⟨u.nextToken, u.now, rfl, Or.inl hAt, Nat.le_refl _⟩⟩

theorem dated_of_run {actions : List AccountAction} (h : s₀.Initial)
    (hRun : run (Accounts.step env) s₀ actions = some s) :
    ∀ row ∈ s.sessions, Dated env s₀ actions row := by
  refine run_induct (I := fun u => ∀ row ∈ u.sessions, Dated env s₀ actions row) ?_ hRun
    fun u a v => dated_step
  intro row hRow
  rw [h] at hRow
  cases hRow

theorem times_of_accepts {actions : List AccountAction} (h : s₀.Initial)
    (hRun : run (Accounts.step env) s₀ actions = some s) (hAccepts : s.accepts env token = true) :
    (∃ time, IssuedAt env s₀ actions token time ∧
      s.now < time + seconds env.sessionAbsoluteSeconds) ∧
    (∃ time, (IssuedAt env s₀ actions token time ∨ UsedAt env s₀ actions token time) ∧
      s.now < time + seconds env.sessionIdleSeconds) := by
  obtain ⟨record, hFind, hActive, -⟩ := accepts_iff.mp hAccepts
  obtain ⟨hRecord, hToken⟩ := eq_of_find?_token hFind
  obtain ⟨-, hExpires, hIdle⟩ := active_iff.mp hActive
  obtain ⟨⟨t₁, time₁, hHash₁, hIssued, hExpiry⟩, ⟨t₂, time₂, hHash₂, hUsed, hBound⟩⟩ :=
    dated_of_run h hRun record hRecord
  obtain rfl := env.hashToken_injective (hHash₁.symm.trans hToken)
  obtain rfl := env.hashToken_injective (hHash₂.symm.trans hToken)
  exact ⟨⟨time₁, hIssued, hExpiry ▸ hExpires⟩, ⟨time₂, hUsed, Nat.lt_of_lt_of_le hIdle hBound⟩⟩

/-! ## Kept alive -/

/-- The times at which the token is used. -/
def useTimes (env : AccountEnv) (token : Token) : Accounts → List AccountAction → List Instant
  | _, [] => []
  | s, .resolve used :: rest =>
      (if used = token then [s.now] else []) ++ useTimes env token (s.perform env (.resolve used)).1 rest
  | s, action :: rest => useTimes env token (s.perform env action).1 rest

/-- The times follow each other less than the idle time minus five minutes apart. -/
def Spaced (env : AccountEnv) (times : List Instant) : Prop :=
  times.IsChain fun time next =>
    next + SESSION_TOUCH_INTERVAL < time + seconds env.sessionIdleSeconds

/-- The step revokes the token's session. -/
def Revokes (env : AccountEnv) (token : Token) (u v : Accounts) : Prop :=
  ∃ row ∈ u.sessions, row.tokenHash = env.hashToken token ∧ row.revokedAt = none ∧
    ∃ row' ∈ v.sessions, row'.id = row.id ∧ row'.revokedAt ≠ none

/-- The token's session is open, and its idle expiry was written less than five minutes before
its last use. -/
def Alive (env : AccountEnv) (token : Token) (expiry lastUse : Instant) (s : Accounts) : Prop :=
  lastUse ≤ s.now ∧ ∃ row ∈ s.sessions, row.tokenHash = env.hashToken token ∧
    row.revokedAt = none ∧ s.isActive row.userId = true ∧ row.expiresAt = expiry ∧
    lastUse < row.lastSeenAt + SESSION_TOUCH_INTERVAL ∧
    row.idleExpiresAt = min (row.lastSeenAt + seconds env.sessionIdleSeconds) expiry

theorem active_of_alive {expiry lastUse : Instant}
    (hNow : s.now + SESSION_TOUCH_INTERVAL < lastUse + seconds env.sessionIdleSeconds)
    (hExpiry : s.now < expiry) (hOpen : row.revokedAt = none) (hExpires : row.expiresAt = expiry)
    (hLast : lastUse < row.lastSeenAt + SESSION_TOUCH_INTERVAL)
    (hIdle : row.idleExpiresAt = min (row.lastSeenAt + seconds env.sessionIdleSeconds) expiry) :
    row.active s.now = true := by
  refine active_iff.mpr ⟨hOpen, hExpires ▸ hExpiry, hIdle ▸ Nat.lt_min.mpr ⟨?_, hExpiry⟩⟩
  have hSum := Nat.add_lt_add hNow hLast
  generalize seconds env.sessionIdleSeconds = idle at hSum ⊢
  generalize SESSION_TOUCH_INTERVAL = interval at hSum ⊢
  exact Nat.lt_of_add_lt_add_right (n := lastUse + interval) (by
    rwa [show row.lastSeenAt + idle + (lastUse + interval) =
        lastUse + idle + (row.lastSeenAt + interval) by ac_rfl,
      show s.now + (lastUse + interval) = s.now + interval + lastUse by ac_rfl])

/-- A use in time is accepted and counts as the last one. -/
theorem alive_use {expiry lastUse : Instant} (h : s.step env (.resolve token) = some s')
    (hInv : SessionInv env s) (hAlive : Alive env token expiry lastUse s)
    (hNow : s.now + SESSION_TOUCH_INTERVAL < lastUse + seconds env.sessionIdleSeconds)
    (hExpiry : s.now < expiry) :
    s.accepts env token = true ∧ Alive env token expiry s.now s' := by
  obtain ⟨hLe, row, hRow, hToken, hOpen, hUser, hExpires, hLast, hIdle⟩ := hAlive
  have hActive := active_of_alive hNow hExpiry hOpen hExpires hLast hIdle
  have hFind := find?_token hInv hRow hToken
  refine ⟨accepts_iff.mpr ⟨row, hFind, hActive, hUser⟩, ?_⟩
  have hNext : s' = (s.resolveSession env token).1 := (Option.some.inj h).symm
  rw [resolveSession_valid hFind hActive hUser] at hNext
  subst hNext
  split
  · refine ⟨Nat.le_refl _, row.touch env s.now,
      Accounts.mem_updateSessions.mpr ⟨row, hRow, if_pos (decide_eq_true rfl)⟩, hToken, hOpen,
      hUser, hExpires, ?_, ?_⟩
    · have hSpan : 0 < SESSION_TOUCH_INTERVAL := by
        unfold SESSION_TOUCH_INTERVAL seconds
        decide
      exact Nat.lt_add_of_pos_right hSpan
    · rw [← hExpires]
      rfl
  · rename_i hDue
    exact ⟨Nat.le_refl _, row, hRow, hToken, hOpen, hUser, hExpires, Nat.not_le.mp hDue, hIdle⟩

/-- Any other step that does not revoke the session leaves it alive. -/
theorem alive_step {expiry lastUse : Instant} (h : s.step env action = some s')
    (hAlive : Alive env token expiry lastUse s) (hExpiry : s.now < expiry)
    (hOther : action ≠ .resolve token) (hOpen' : ¬ Revokes env token s s') :
    Alive env token expiry lastUse s' := by
  obtain ⟨hLe, row, hRow, hToken, hOpen, hUser, hExpires, hLast, hIdle⟩ := hAlive
  have hHistoric : row.historic s.now = false := by
    refine Bool.eq_false_iff.mpr fun hHistoric => ?_
    rcases historic_iff.mp hHistoric with ⟨t, hRevoked, -⟩ | hLate
    · rw [hOpen] at hRevoked
      cases hRevoked
    · rw [hExpires] at hLate
      exact Nat.lt_asymm (Nat.lt_of_le_of_lt (Nat.le_add_right _ _) hLate) hExpiry
  have hKept : ∃ row' ∈ s'.sessions, SessionAfter env s action row row' := by
    have hPerformed := performed_of_step h
    generalize (s.perform env action).2 = outcome at hPerformed
    cases hPerformed with
    | kept hCarries => exact hCarries.forward row hRow hHistoric
    | issued hCarries _ _ _ hSessions =>
        obtain ⟨row', hRow', hAfter⟩ := hCarries.forward row hRow hHistoric
        exact ⟨row', (hSessions row').mpr (Or.inl hRow'), hAfter⟩
  obtain ⟨row', hRow', hAfter⟩ := hKept
  have hLe' := Nat.le_trans hLe (now_le h)
  cases hAfter with
  | same =>
      exact ⟨hLe', row, hRow', hToken, hOpen, by rw [isActive_step h]; exact hUser, hExpires,
        hLast, hIdle⟩
  | revoked =>
      exact absurd ⟨row, hRow, hToken, hOpen, _, hRow', rfl, Option.some_ne_none _⟩ hOpen'
  | touched hUse hHash =>
      obtain rfl := env.hashToken_injective (hHash.symm.trans hToken)
      exact absurd hUse hOther

/-- A session that is alive is accepted at the end of a run in which it is used often enough
and not revoked. -/
theorem accepts_of_alive {expiry lastUse : Instant} {actions : List AccountAction}
    (hRun : run (Accounts.step env) s actions = some s') (hInv : SessionInv env s)
    (hAlive : Alive env token expiry lastUse s) (hExpiry : s'.now < expiry)
    (hSpaced : Spaced env (lastUse :: (useTimes env token s actions ++ [s'.now])))
    (hOpen : ∀ u a v, StepOf (Accounts.step env) s actions u a v → a ≠ .resolve token →
      ¬ Revokes env token u v) : s'.accepts env token = true := by
  induction actions generalizing s lastUse with
  | nil =>
      obtain rfl := Option.some.inj hRun
      have hNow := (List.isChain_cons_cons.mp hSpaced).1
      exact (alive_use rfl hInv hAlive hNow hExpiry).1
  | cons action rest ih =>
      obtain ⟨t, hStep, hRest⟩ := run_cons.mp hRun
      have hLater : s.now ≤ s'.now := Nat.le_trans (now_le hStep)
        (invariant (I := fun u => t.now ≤ u.now) (fun u a v h hu => Nat.le_trans hu (now_le h))
          (Nat.le_refl _) hRest)
      have hSoon : s.now < expiry := Nat.lt_of_le_of_lt hLater hExpiry
      have hOpenRest : ∀ u a v, StepOf (Accounts.step env) t rest u a v → a ≠ .resolve token →
          ¬ Revokes env token u v := fun u a v hOf =>
        hOpen u a v ((stepOf_cons hStep).mpr (Or.inr hOf))
      have hNext : (s.perform env action).1 = t := Option.some.inj hStep
      by_cases hUse : action = .resolve token
      · subst hUse
        rw [useTimes, if_pos rfl, hNext] at hSpaced
        obtain ⟨hNow, hSpaced⟩ := List.isChain_cons_cons.mp hSpaced
        exact ih hRest (sessionInv_step hStep hInv) (alive_use hStep hInv hAlive hNow hSoon).2
          hSpaced hOpenRest
      · have hTimes : useTimes env token s (action :: rest) = useTimes env token t rest := by
          rw [← hNext]
          cases action with
          | resolve used =>
              have hNe : used ≠ token := fun hEq => hUse (hEq ▸ rfl)
              rw [useTimes, if_neg hNe, List.nil_append]
          | _ => rfl
        rw [hTimes] at hSpaced
        have hFirst : StepOf (Accounts.step env) s (action :: rest) s action t :=
          (stepOf_cons hStep).mpr (Or.inl ⟨rfl, rfl, rfl⟩)
        exact ih hRest (sessionInv_step hStep hInv)
          (alive_step hStep hAlive hSoon hUse (hOpen s action t hFirst hUse)) hSpaced hOpenRest

/-- A session that has just been issued is alive. -/
theorem alive_issued {session : SessionId} (h : s.step env action = some s')
    (hIssued : (s.perform env action).2 = .issued token session)
    (hUser : ∀ row ∈ s'.sessions, row.tokenHash = env.hashToken token →
      s'.isActive row.userId = true) :
    Alive env token (s.now + seconds env.sessionAbsoluteSeconds) s.now s' := by
  have hPerformed := performed_of_step h
  rw [hIssued] at hPerformed
  cases hPerformed with
  | kept _ _ _ _ hNone => exact absurd rfl (hNone token session)
  | @issued kept userId createdAt _ hNow _ _ hSessions =>
      have hNew := (hSessions _).mpr (Or.inr rfl)
      refine ⟨hNow.ge, _, hNew, rfl, rfl, hUser _ hNew rfl, rfl, ?_, ?_⟩
      · have hSpan : 0 < SESSION_TOUCH_INTERVAL := by
          unfold SESSION_TOUCH_INTERVAL seconds
          decide
        exact Nat.lt_add_of_pos_right hSpan
      · exact (Nat.min_eq_left (Nat.add_le_add_left
          (Nat.mul_le_mul_right _ env.idle_le_absolute) _)).symm

end Lifetime

/-! ## The bounds on a session's life -/

/-- The idle expiry never exceeds the absolute one; a token whose session was revoked or has
expired is never accepted again; an accepted token was issued, and issued or used, within the
two limits; and a session that is used often enough and not revoked is accepted up to its
absolute expiry. -/
theorem session_lifetime (env : AccountEnv) {s₀ x y : Accounts} {front back : List AccountAction}
    (hInitial : s₀.Initial) (hFront : run (Accounts.step env) s₀ front = some x)
    (hBack : run (Accounts.step env) x back = some y) :
    (∀ row ∈ y.sessions, row.idleExpiresAt ≤ row.expiresAt) ∧
    (∀ row ∈ x.sessions, ∀ token, row.tokenHash = env.hashToken token →
      (row.revokedAt ≠ none ∨ row.expiresAt ≤ x.now ∨ row.idleExpiresAt ≤ x.now) →
        y.accepts env token = false) ∧
    (∀ token, y.accepts env token = true →
      (∃ time, IssuedAt env s₀ (front ++ back) token time ∧
        y.now < time + seconds env.sessionAbsoluteSeconds) ∧
      (∃ time, (IssuedAt env s₀ (front ++ back) token time ∨
        UsedAt env s₀ (front ++ back) token time) ∧
          y.now < time + seconds env.sessionIdleSeconds)) ∧
    (∀ action rest token session, back = action :: rest →
      (x.perform env action).2 = .issued token session →
      (∀ row ∈ (x.perform env action).1.sessions, row.tokenHash = env.hashToken token →
        (x.perform env action).1.isActive row.userId = true) →
      (∀ u a v, StepOf (Accounts.step env) x back u a v → a ≠ .resolve token →
        ¬ Revokes env token u v) →
      Spaced env (x.now :: (useTimes env token (x.perform env action).1 rest ++ [y.now])) →
      y.now < x.now + seconds env.sessionAbsoluteSeconds → y.accepts env token = true) := by
  have hRun : run (Accounts.step env) s₀ (front ++ back) = some y :=
    run_append.mpr ⟨x, hFront, hBack⟩
  have hInv := sessionInv_of_run hInitial hFront
  refine ⟨(sessionInv_of_run hInitial hRun).idle_le, ?_, fun token => times_of_accepts hInitial hRun,
    ?_⟩
  · intro row hRow token hToken hOver
    have hDead : Dead env token x := by
      obtain ⟨old, hLt, hHash⟩ := hInv.drawn row hRow
      obtain rfl := env.hashToken_injective (hHash.symm.trans hToken)
      refine ⟨hLt, fun r hr hEq => Bool.eq_false_iff.mpr fun hActive => ?_⟩
      obtain rfl := hInv.unique r hr row hRow (hEq.trans hToken.symm)
      obtain ⟨hOpen, hExpires, hIdle⟩ := active_iff.mp hActive
      rcases hOver with hRevoked | hLate | hLate
      · exact hRevoked hOpen
      · exact absurd hExpires (Nat.not_lt.mpr hLate)
      · exact absurd hIdle (Nat.not_lt.mpr hLate)
    exact (invariant (fun u a v h hu => dead_step h hu) hDead hBack).not_accepts
  · rintro action rest token session rfl hIssued hUser hOpen hSpaced hExpiry
    obtain ⟨x', hStep, hRest⟩ := run_cons.mp hBack
    obtain rfl : (x.perform env action).1 = x' := Option.some.inj hStep
    exact accepts_of_alive hRest (sessionInv_step hStep hInv) (alive_issued hStep hIssued hUser)
      hExpiry hSpaced fun u a v hOf => hOpen u a v ((stepOf_cons hStep).mpr (Or.inr hOf))

/-- A session that has not been used for four minutes is accepted. -/
theorem session_lifetime_signIn :
    (accountsAfter [signIn, .tick (seconds 240)]).accepts demoAccountEnv 0 = true := by
  have hRun : run (Accounts.step demoAccountEnv) demoAccounts [signIn, .tick (seconds 240)] =
      some (accountsAfter [signIn, .tick (seconds 240)]) := run_getD rfl
  have hStart : run (Accounts.step demoAccountEnv) demoAccounts [] = some demoAccounts := rfl
  have hInitial : demoAccounts.Initial := rfl
  refine (session_lifetime demoAccountEnv hInitial hStart hRun).2.2.2 signIn
    [.tick (seconds 240)] 0 0 rfl (by decide +kernel) ?_ ?_ ?_ (by decide +kernel)
  · have hUsers : ∀ row ∈ (demoAccounts.perform demoAccountEnv signIn).1.sessions.rows,
        (demoAccounts.perform demoAccountEnv signIn).1.isActive row.userId = true := by
      decide +kernel
    exact fun row hRow _ => hUsers row hRow
  · intro u a v hStep _
    rw [stepOf_cons rfl, stepOf_cons rfl] at hStep
    rintro ⟨row, hRow, -, hOpen, row', hRow', hId, hRevoked⟩
    rcases hStep with ⟨rfl, -, rfl⟩ | ⟨rfl, -, rfl⟩ | hNone
    · cases hRow
    · obtain rfl := Table.eq_of_key hRow' hRow hId
      exact hRevoked hOpen
    · exact not_stepOf_nil hNone
  · have hTimes : Spaced demoAccountEnv [0, seconds 240] := by
      unfold Spaced SESSION_TOUCH_INTERVAL
      decide +kernel
    exact hTimes

end SavedOrganizer
