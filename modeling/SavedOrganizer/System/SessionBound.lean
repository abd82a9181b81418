import SavedOrganizer.System.Sessions

/-!
# How many sessions a user has

A sign-in leaves room for its own session before it adds it, so the bound is kept by the one
operation that adds to the active sessions of a user; every other one only takes away from
them, since a use extends a session that is active already. Which sessions a sign-in gives up
is read off the sorted list of the active ones (`evicted_order`, `count_evicted`).
-/

namespace SavedOrganizer

open Transition

/-- The number of active sessions of the user. -/
def Accounts.activeSessions (s : Accounts) (userId : UserId) : Nat :=
  s.sessions.count (·.activeOf userId s.now)

/-- The row is open, and it is revoked after the call. -/
def WebSession.revokedBy (s' : Accounts) (row : WebSession) : Bool :=
  row.revokedAt.isNone && (s'.sessions.find? row.id).any (·.revokedAt.isSome)

section Bound

variable {env : AccountEnv} {s s' s₀ : Accounts} {action : AccountAction} {userId : UserId}
  {row row' : WebSession}

/-- A row that is active afterwards was active before. -/
theorem SessionAfter.active {now : Instant} (h : SessionAfter env s action row row')
    (hNow : s.now ≤ now) (hActive : row'.activeOf userId now = true) :
    row.activeOf userId s.now = true ∧ row'.id = row.id := by
  obtain ⟨hUser, hActive⟩ := activeOf_iff_active.mp hActive
  obtain ⟨hOpen, hExpires, hIdle⟩ := active_iff.mp hActive
  cases h with
  | same =>
      exact ⟨activeOf_iff_active.mpr ⟨hUser, active_iff.mpr ⟨hOpen,
        Nat.lt_of_le_of_lt hNow hExpires, Nat.lt_of_le_of_lt hNow hIdle⟩⟩, rfl⟩
  | revoked => cases hOpen
  | touched _ _ hWas => exact ⟨activeOf_iff_active.mpr ⟨hUser, hWas⟩, rfl⟩

theorem active_le_of_carries {kept : Table WebSession} {now : Instant}
    (h : Carries env s action kept) (hNow : s.now ≤ now) :
    kept.count (·.activeOf userId now) ≤ s.activeSessions userId := by
  refine Table.count_le_of_origin fun row' hRow' hActive => ?_
  obtain ⟨row, hRow, hAfter⟩ := h.backward row' hRow'
  obtain ⟨hWas, hId⟩ := hAfter.active hNow hActive
  exact ⟨row, hRow, hWas, hId.symm⟩

/-! ## Sign-in -/

/-- A sign-in fails and leaves the sessions alone, or it issues the session of its user. -/
theorem login_cases (env : AccountEnv) (s : Accounts) (email : Text)
    (password rehashed : String) (createdAt : Instant) :
    let result := s.login env email password rehashed createdAt
    (result.1.sessions = s.sessions ∧ result.1.now = s.now ∧
      ∀ token session, result.2 ≠ .issued token session) ∨
    ∃ user, result.2 = .issued s.nextToken s.nextSession ∧ result.1.now = s.now ∧
      ∀ row, row ∈ result.1.sessions ↔ row ∈ prepareForNewSession env user s.now s.sessions ∨
        row = newSession env s.nextSession s.nextToken user createdAt s.now := by
  intro result
  have hResult : result = s.login env email password rehashed createdAt := rfl
  clear_value result
  subst hResult
  unfold Accounts.login
  split
  · exact Or.inl ⟨rfl, rfl, fun _ _ h => by cases h⟩
  · dsimp only
    split
    · split
      · exact Or.inl ⟨rfl, rfl, fun _ _ h => by cases h⟩
      · exact Or.inl ⟨rfl, rfl, fun _ _ h => by cases h⟩
    · exact Or.inr ⟨_, rfl, rfl, fun row => Accounts.mem_issueSession env _⟩

/-- An active row that the preparation keeps is among the most recently seen. -/
theorem mem_take_of_prepared (hRow : row ∈ prepareForNewSession env userId s.now s.sessions)
    (hActive : row.activeOf userId s.now = true) :
    row ∈ (activeRecords userId s.now s.sessions).take (env.maxActiveSessions - 1) := by
  obtain ⟨⟨old, hOld, hEq⟩, -⟩ := mem_prepare.mp hRow
  split at hEq
  · subst hEq
    have hOpen := (active_iff.mp (activeOf_iff_active.mp hActive).2).1
    cases hOpen
  · rename_i hKept
    subst hEq
    have hMem := mem_activeRecords.mpr ⟨hOld, hActive⟩
    rw [← List.take_append_drop (env.maxActiveSessions - 1) (activeRecords userId s.now s.sessions),
      List.mem_append] at hMem
    exact hMem.resolve_right hKept

theorem active_le_of_login (email : Text) (password rehashed : String) (createdAt : Instant)
    (h : ∀ userId, s.activeSessions userId ≤ env.maxActiveSessions) :
    (s.login env email password rehashed createdAt).1.activeSessions userId ≤
      env.maxActiveSessions := by
  rcases login_cases env s email password rehashed createdAt with
    ⟨hSame, hNow, -⟩ | ⟨user, -, hNow, hSessions⟩
  · rw [Accounts.activeSessions, hSame, hNow]
    exact h userId
  rw [Accounts.activeSessions, hNow]
  by_cases hUser : userId = user
  · subst hUser
    have hKeys : ∀ row ∈ (s.login env email password rehashed createdAt).1.sessions,
        row.activeOf userId s.now = true → (Keyed.key row : SessionId) ∈ s.nextSession ::
          ((activeRecords userId s.now s.sessions).take (env.maxActiveSessions - 1)).map
            WebSession.id := by
      intro row hRow hActive
      rcases (hSessions row).mp hRow with hKept | rfl
      · exact List.mem_cons_of_mem _ (List.mem_map_of_mem (mem_take_of_prepared hKept hActive))
      · exact List.mem_cons_self
    have hCount := Table.count_le_of_keys hKeys
    rw [List.length_cons, List.length_map, List.length_take] at hCount
    have hPos := env.positive.2.2
    exact hCount.trans (by omega)
  · refine (Table.count_le_of_origin fun row hRow hActive => ?_).trans (h userId)
    rcases (hSessions row).mp hRow with hKept | rfl
    · have hCarries : Carries env s (.tick 0) (prepareForNewSession env user s.now s.sessions) :=
        carries_prepare user
      obtain ⟨old, hOld, hAfter⟩ := hCarries.backward row hKept
      obtain ⟨hWas, hId⟩ := hAfter.active (Nat.le_refl _) hActive
      exact ⟨old, hOld, hWas, hId.symm⟩
    · exact absurd (activeOf_iff_active.mp hActive).1.symm hUser

theorem nodup_activeRecords {now : Instant} {sessions : Table WebSession} :
    (activeRecords userId now sessions).Nodup :=
  ((List.mergeSort_perm _ _).nodup_iff).mpr ((List.Nodup.of_map _ sessions.distinct).filter _)

theorem sorted_activeRecords {now : Instant} {sessions : Table WebSession} :
    (activeRecords userId now sessions).Pairwise fun a b => b.lastSeenAt ≤ a.lastSeenAt := by
  have hIff (a b : WebSession) : WebSession.recentFirst a b = true ↔ b.lastSeenAt < a.lastSeenAt ∨
      (a.lastSeenAt = b.lastSeenAt ∧ b.createdAt ≤ a.createdAt) := by
    simp only [WebSession.recentFirst, Bool.or_eq_true, Bool.and_eq_true, decide_eq_true_eq,
      beq_iff_eq]
  have hTrans (a b c : WebSession) (hab : WebSession.recentFirst a b = true)
      (hbc : WebSession.recentFirst b c = true) : WebSession.recentFirst a c = true := by
    rw [hIff] at hab hbc ⊢
    grind
  have hTotal (a b : WebSession) :
      (WebSession.recentFirst a b || WebSession.recentFirst b a) = true := by
    rw [Bool.or_eq_true, hIff, hIff]
    grind
  have hSorted := List.pairwise_mergeSort hTrans hTotal
    (sessions.rows.filter (·.activeOf userId now))
  refine hSorted.imp fun {a b} hab => ?_
  rcases (hIff a b).mp hab with hLt | ⟨hEq, -⟩
  · exact Nat.le_of_lt hLt
  · exact hEq.ge

/-- Every evicted session was seen no later than every active one that stays. -/
theorem evicted_order {now : Instant} {sessions : Table WebSession}
    (hEvicted : row ∈ evictedRecords env userId now sessions) (hOther : row' ∈ sessions)
    (hActive : row'.activeOf userId now = true)
    (hStays : row' ∉ evictedRecords env userId now sessions) : row.lastSeenAt ≤ row'.lastSeenAt := by
  have hSorted := @sorted_activeRecords userId now sessions
  have hMem := mem_activeRecords.mpr ⟨hOther, hActive⟩
  rw [← List.take_append_drop (env.maxActiveSessions - 1) (activeRecords userId now sessions)]
    at hSorted hMem
  exact (List.pairwise_append.mp hSorted).2.2 row' ((List.mem_append.mp hMem).resolve_right hStays)
    row hEvicted

/-- A sign-in revokes exactly the evicted sessions. -/
theorem revokedBy_iff {createdAt : Instant}
    (hSessions : ∀ row, row ∈ s'.sessions ↔ row ∈ prepareForNewSession env userId s.now s.sessions ∨
      row = newSession env s.nextSession s.nextToken userId createdAt s.now)
    (hRow : row ∈ s.sessions) :
    row.revokedBy s' = true ↔ row ∈ evictedRecords env userId s.now s.sessions := by
  rw [WebSession.revokedBy, Bool.and_eq_true, Option.isNone_iff_eq_none, Option.any_eq_true]
  constructor
  · rintro ⟨hOpen, row', hFind, hRevoked⟩
    obtain ⟨hRow', hId⟩ := Table.find?_eq_some.mp hFind
    rcases (hSessions row').mp hRow' with hKept | rfl
    · obtain ⟨⟨old, hOld, rfl⟩, -⟩ := mem_prepare.mp hKept
      split at hId
      · rename_i hEvicted
        rwa [Table.eq_of_key hRow hOld hId.symm]
      · rename_i hStays
        rw [if_neg hStays] at hRevoked
        rw [Table.eq_of_key hRow hOld hId.symm] at hOpen
        rw [hOpen] at hRevoked
        cases hRevoked
    · cases hRevoked
  · intro hEvicted
    have hActive := (active_of_evicted hEvicted).2.2
    have hKept : row.revoke s.now ∈ s'.sessions := (hSessions _).mpr (Or.inl (mem_prepare.mpr
      ⟨⟨row, hRow, if_pos hEvicted⟩, fun _ => not_historic_of_revoke hActive⟩))
    exact ⟨(active_iff.mp hActive).1, row.revoke s.now,
      Table.find?_eq_some.mpr ⟨hKept, rfl⟩, rfl⟩

/-- The number of evicted sessions is what goes beyond the room for a new one. -/
theorem count_evicted {p : WebSession → Bool}
    (h : ∀ row ∈ s.sessions, p row = true ↔ row ∈ evictedRecords env userId s.now s.sessions) :
    s.sessions.count p = s.activeSessions userId - (env.maxActiveSessions - 1) := by
  have hRows : s.sessions.rows.Nodup := List.Nodup.of_map _ s.sessions.distinct
  have hPerm : (s.sessions.rows.filter p).Perm (evictedRecords env userId s.now s.sessions) := by
    refine (List.perm_ext_iff_of_nodup (hRows.filter _)
      (nodup_activeRecords.sublist (List.drop_sublist _ _))).mpr fun row => ?_
    rw [List.mem_filter]
    constructor
    · rintro ⟨hRow, hp⟩
      exact (h row hRow).mp hp
    · intro hEvicted
      have hRow := (active_of_evicted hEvicted).1
      exact ⟨hRow, (h row hRow).mpr hEvicted⟩
  have hActive : s.activeSessions userId = (activeRecords userId s.now s.sessions).length := by
    rw [activeRecords, List.length_mergeSort, ← List.countP_eq_length_filter]
    rfl
  rw [Table.count, List.countP_eq_length_filter, hPerm.length_eq, hActive]
  exact List.length_drop

/-! ## Password changes -/

theorem changePassword_cases (env : AccountEnv) (s : Accounts) (userId : UserId)
    (currentPassword newHash : String) (createdAt : Instant) :
    let result := s.changePassword env userId currentPassword newHash createdAt
    (result.1 = s ∧ ∀ token session, result.2 ≠ .issued token session) ∨
    (result.2 = .issued s.nextToken s.nextSession ∧ result.1.now = s.now ∧
      ∀ row, row ∈ result.1.sessions ↔
        (∃ old ∈ s.sessions, (if old.userId = userId ∧ old.revokedAt = none then old.revoke s.now
          else old) = row) ∨
        row = newSession env s.nextSession s.nextToken userId createdAt s.now) := by
  intro result
  have hResult : result = s.changePassword env userId currentPassword newHash createdAt := rfl
  clear_value result
  subst hResult
  unfold Accounts.changePassword
  split
  · exact Or.inl ⟨rfl, fun _ _ h => by cases h⟩
  · split
    · refine Or.inr ⟨rfl, rfl, fun row => ?_⟩
      refine (Accounts.mem_issueSession env _).trans (or_congr_left ?_)
      rw [Accounts.mem_updateSessions]
      simp only [Bool.and_eq_true, decide_eq_true_eq, Option.isNone_iff_eq_none]
    · exact Or.inl ⟨rfl, fun _ _ h => by cases h⟩

theorem newSession_active (id : SessionId) (token : Token) (createdAt now : Instant) :
    (newSession env id token userId createdAt now).activeOf userId now = true := by
  have hPos (n : Nat) (hn : 0 < n) : now < now + seconds n :=
    Nat.lt_add_of_pos_right (Nat.mul_pos hn (by decide))
  exact activeOf_iff_active.mpr ⟨rfl, active_iff.mpr ⟨rfl, hPos _ env.positive.2.1,
    hPos _ env.positive.1⟩⟩

/-- After a password change the only active session is the one it returns. -/
theorem one_active_of_changePassword {currentPassword newHash : String} {createdAt : Instant}
    {token : Token} {session : SessionId}
    (h : (s.changePassword env userId currentPassword newHash createdAt).2 = .issued token session) :
    (s.changePassword env userId currentPassword newHash createdAt).1.activeSessions userId = 1 ∧
      ∃ row ∈ (s.changePassword env userId currentPassword newHash createdAt).1.sessions,
        row.id = session ∧ row.tokenHash = env.hashToken token ∧
          row.activeOf userId s.now = true := by
  rcases changePassword_cases env s userId currentPassword newHash createdAt with
    ⟨-, hNone⟩ | ⟨hIssued, hNow, hSessions⟩
  · exact absurd h (hNone token session)
  obtain ⟨rfl, rfl⟩ := AccountOutcome.issued.inj (h.symm.trans hIssued)
  have hNew := (hSessions _).mpr (Or.inr rfl)
  have hActive : (newSession env s.nextSession s.nextToken userId createdAt s.now).activeOf userId
      s.now = true := newSession_active _ _ _ _
  refine ⟨?_, _, hNew, rfl, rfl, hActive⟩
  rw [Accounts.activeSessions, hNow]
  refine Nat.le_antisymm ?_ (Table.count_pos hNew hActive)
  have hKeys : ∀ row ∈ (s.changePassword env userId currentPassword newHash createdAt).1.sessions,
      row.activeOf userId s.now = true → (Keyed.key row : SessionId) ∈ [s.nextSession] := by
    intro row hRow hRowActive
    rcases (hSessions row).mp hRow with ⟨old, hOld, hEq⟩ | rfl
    · obtain ⟨hUser, hOpen⟩ := activeOf_iff_active.mp hRowActive
      have hNull := (active_iff.mp hOpen).1
      split at hEq
      · subst hEq
        cases hNull
      · rename_i hKept
        subst hEq
        exact absurd ⟨hUser, hNull⟩ hKept
    · exact List.mem_singleton.mpr rfl
  exact Table.count_le_of_keys hKeys

/-! ## Every operation -/

theorem active_le_of_change {currentPassword newHash : String} {createdAt : Instant}
    {user : UserId} (h : ∀ userId, s.activeSessions userId ≤ env.maxActiveSessions) :
    (s.changePassword env user currentPassword newHash createdAt).1.activeSessions userId ≤
      env.maxActiveSessions := by
  rcases changePassword_cases env s user currentPassword newHash createdAt with
    ⟨hSame, -⟩ | ⟨hIssued, hNow, hSessions⟩
  · rw [hSame]
    exact h userId
  by_cases hUser : userId = user
  · subst hUser
    rw [(one_active_of_changePassword hIssued).1]
    exact env.positive.2.2
  · rw [Accounts.activeSessions, hNow]
    refine (Table.count_le_of_origin fun row hRow hActive => ?_).trans (h userId)
    rcases (hSessions row).mp hRow with ⟨old, hOld, hEq⟩ | rfl
    · split at hEq
      · subst hEq
        have hOpen := (active_iff.mp (activeOf_iff_active.mp hActive).2).1
        cases hOpen
      · subst hEq
        exact ⟨old, hOld, hActive, rfl⟩
    · exact absurd (activeOf_iff_active.mp hActive).1.symm hUser

theorem active_le_step (hStep : s.step env action = some s')
    (h : ∀ userId, s.activeSessions userId ≤ env.maxActiveSessions) :
    s'.activeSessions userId ≤ env.maxActiveSessions := by
  have hOther (hNone : ∀ token session, (s.perform env action).2 ≠ .issued token session) :
      s'.activeSessions userId ≤ env.maxActiveSessions := by
    have hPerformed := performed_of_step hStep
    generalize (s.perform env action).2 = outcome at hPerformed hNone
    cases hPerformed with
    | kept hCarries hNow => exact (active_le_of_carries hCarries hNow).trans (h userId)
    | issued => exact absurd rfl (hNone _ _)
  have hNext : (s.perform env action).1 = s' := Option.some.inj hStep
  cases action with
  | login email password rehashed createdAt =>
      rw [← hNext]
      exact active_le_of_login email password rehashed createdAt h
  | changePassword user currentPassword newHash createdAt =>
      rw [← hNext]
      exact active_le_of_change h
  | tick elapsed => exact hOther fun _ _ h => by cases h
  | resolve token =>
      refine hOther fun _ _ h => ?_
      unfold Accounts.perform Accounts.resolveSession at h
      dsimp only at h
      repeat' split at h
      all_goals cases h
  | revoke user session =>
      refine hOther fun _ _ h => ?_
      unfold Accounts.perform Accounts.revokeSession at h
      dsimp only at h
      repeat' split at h
      all_goals cases h
  | logout session => exact hOther fun _ _ h => by cases h

theorem active_le_of_run {actions : List AccountAction} (h : s₀.Initial)
    (hRun : run (Accounts.step env) s₀ actions = some s) (userId : UserId) :
    s.activeSessions userId ≤ env.maxActiveSessions := by
  refine invariant (I := fun u => ∀ userId, u.activeSessions userId ≤ env.maxActiveSessions)
    (fun u a v hStep hu userId => active_le_step hStep hu) (fun userId => ?_) hRun userId
  rw [Accounts.activeSessions, h]
  exact Nat.zero_le _

/-- No operation removes an active session from the table. -/
theorem active_stays (hRow : row ∈ s.sessions) (hActive : row.active s.now = true) :
    ∃ row' ∈ (s.perform env action).1.sessions, row'.id = row.id := by
  have hHistoric := not_historic_of_active hActive
  have hId {row' : WebSession} (h : SessionAfter env s action row row') : row'.id = row.id := by
    cases h <;> rfl
  have hPerformed := performed env s action
  generalize (s.perform env action).2 = outcome at hPerformed
  generalize (s.perform env action).1 = s' at hPerformed ⊢
  cases hPerformed with
  | kept hCarries =>
      obtain ⟨row', hRow', hAfter⟩ := hCarries.forward row hRow hHistoric
      exact ⟨row', hRow', hId hAfter⟩
  | issued hCarries _ _ _ hSessions =>
      obtain ⟨row', hRow', hAfter⟩ := hCarries.forward row hRow hHistoric
      exact ⟨row', (hSessions row').mpr (Or.inl hRow'), hId hAfter⟩

end Bound

/-! ## The bound -/

/-- In every state each user has at most `max_active_sessions` active sessions. A sign-in that
succeeds revokes as many as are in its way, each of them active and seen no later than every active
one it leaves (nothing is said here of one that fails); a password change leaves the session it
returns; and an active session stays in the table whatever is done. -/
theorem bounded_sessions (env : AccountEnv) {s₀ s : Accounts} {actions : List AccountAction}
    (hInitial : s₀.Initial) (hRun : run (Accounts.step env) s₀ actions = some s) :
    (∀ userId, s.activeSessions userId ≤ env.maxActiveSessions) ∧
    (∀ email password rehashed createdAt token session,
      (s.login env email password rehashed createdAt).2 = .issued token session →
      ∃ userId, (∃ row ∈ (s.login env email password rehashed createdAt).1.sessions,
          row.id = session ∧ row.activeOf userId s.now = true) ∧
        s.sessions.count (·.revokedBy (s.login env email password rehashed createdAt).1) =
          s.activeSessions userId - (env.maxActiveSessions - 1) ∧
        ∀ row ∈ s.sessions,
          row.revokedBy (s.login env email password rehashed createdAt).1 = true →
          row.activeOf userId s.now = true ∧
          ∀ other ∈ s.sessions, other.activeOf userId s.now = true →
            other.revokedBy (s.login env email password rehashed createdAt).1 = false →
              row.lastSeenAt ≤ other.lastSeenAt) ∧
    (∀ userId currentPassword newHash createdAt token session,
      (s.changePassword env userId currentPassword newHash createdAt).2 = .issued token session →
      (s.changePassword env userId currentPassword newHash createdAt).1.activeSessions userId = 1 ∧
        ∃ row ∈ (s.changePassword env userId currentPassword newHash createdAt).1.sessions,
          row.id = session ∧ row.tokenHash = env.hashToken token ∧
            row.activeOf userId s.now = true) ∧
    (∀ action, ∀ row ∈ s.sessions, row.active s.now = true →
      ∃ row' ∈ (s.perform env action).1.sessions, row'.id = row.id) := by
  refine ⟨active_le_of_run hInitial hRun, ?_, fun _ _ _ _ _ _ => one_active_of_changePassword,
    fun action row hRow hActive => active_stays hRow hActive⟩
  intro email password rehashed createdAt token session hIssued
  rcases login_cases env s email password rehashed createdAt with
    ⟨-, -, hNone⟩ | ⟨userId, hOutcome, -, hSessions⟩
  · exact absurd hIssued (hNone token session)
  obtain ⟨rfl, rfl⟩ := AccountOutcome.issued.inj (hIssued.symm.trans hOutcome)
  have hRevoked (row : WebSession) (hRow : row ∈ s.sessions) :
      row.revokedBy (s.login env email password rehashed createdAt).1 = true ↔
        row ∈ evictedRecords env userId s.now s.sessions := revokedBy_iff hSessions hRow
  refine ⟨userId, ⟨_, (hSessions _).mpr (Or.inr rfl), rfl, newSession_active _ _ _ _⟩,
    count_evicted hRevoked, ?_⟩
  intro row hRow hRowRevoked
  have hEvicted := (hRevoked row hRow).mp hRowRevoked
  refine ⟨activeOf_iff_active.mpr (active_of_evicted hEvicted).2, fun other hOther hActive hStays => ?_⟩
  refine evicted_order hEvicted hOther hActive fun hIn => ?_
  rw [(hRevoked other hOther).mpr hIn] at hStays
  cases hStays

/-- The user has signed in twice, and signs in once more. -/
theorem bounded_sessions_thirdSignIn :
    (accountsAfter [signIn, .tick 1, signIn]).activeSessions 1 ≤ 2 ∧
      ∃ userId, (accountsAfter [signIn, .tick 1, signIn]).sessions.count
          (·.revokedBy ((accountsAfter [signIn, .tick 1, signIn]).login demoAccountEnv
            "ada".toList "secret" "" 0).1) =
        (accountsAfter [signIn, .tick 1, signIn]).activeSessions userId - 1 := by
  have hInitial : demoAccounts.Initial := rfl
  have hRun : run (Accounts.step demoAccountEnv) demoAccounts [signIn, .tick 1, signIn] =
      some (accountsAfter [signIn, .tick 1, signIn]) := run_getD rfl
  obtain ⟨hBound, hLogin, -, -⟩ := bounded_sessions demoAccountEnv hInitial hRun
  obtain ⟨userId, -, hCount, -⟩ := hLogin "ada".toList "secret" "" 0 2 2 (by decide +kernel)
  exact ⟨hBound 1, userId, hCount⟩

end SavedOrganizer
