import SavedOrganizer.System.ConnectionCalls
import SavedOrganizer.System.WellFormed

/-!
# A verified connection under concurrent status reads

The status, start and verify calls of one user, with clients that do not lose an
authorization (`unrevoked`). There a connected row stays connected with its account, and
no disconnected row has an account, as long as no status call writes its erasure over a row
that has been connected, or has been asked for its password, since the call read it
(`erasesUnverified`).

The invariant is `CallsOk`. It says of each call, by its phase, whether it has the row
locked and what it has in memory. A step keeps the clause of its own call
(`settles_advance`), and the clauses of the others because they either have the lock, and
then nothing happens, or depend only on what is committed (`PhaseOk.of_stepBy`).
-/

namespace SavedOrganizer

open Transition LockedRow

/-! ## The runs -/

/-- The row is there and connected as this account, with a session. -/
def AuthorizedAs (principal : TelegramId) (found : Option TelegramConnection) : Prop :=
  ∃ c, found = some c ∧ c.state = .connected ∧ truthy c.sessionEncrypted = true ∧
    c.telegramUserId = some principal

/-- A call of the row's user. A start has passed the request schema. -/
def ownCall (userId : UserId) : ConnectionCall → Bool
  | .status => true
  | .verify _ => true
  | .start request =>
      request.userId == userId && decide (0 < request.apiId) && request.apiHash.length == 32
  | _ => false

/-- What a client may answer: one that was given no session is not authorized, and one that
was given the session of a connected row is, as the account of the row. -/
def unrevokedInput : CallPhase → CallInput → Bool
  | .authorizing _ c, .authorized answer =>
      (c.inUse || !answer) && (c.state != .connected || answer)
  | .identifying _ c, .identity identity _ =>
      identity.all fun actual =>
        decide (0 < actual) && (c.state != .connected || c.telegramUserId == some actual)
  | .verifyIdentifying _ _, .identity identity _ => identity.all fun actual => decide (0 < actual)
  | _, _ => true

def unrevoked (env : CallEnv) (w : CallWorld) : CallAction → Bool
  | .tick _ => true
  | .begin _ call => ownCall env.userId call
  | .advance t input => unrevokedInput (w.calls t) input

/-- Where a status call erases, the row is not connected, and it asks for a password only
if it did when the call read it. -/
def erasesUnverified (row : ConnectionRow) : CallPhase → CallInput → Bool
  | .writing .status loaded _ _, .proceed => row.committed.all fun c =>
      c.state != .connected && (!c.passwordRequired || loaded.passwordRequired)
  | _, _ => true

def unverifiedErasures (w : CallWorld) : CallAction → Bool
  | .advance t input => erasesUnverified w.row (w.calls t) input
  | _ => true

/-- Nothing has been called, and the row of the user, if there is one, is well formed. -/
structure Settled (env : CallEnv) (w : CallWorld) : Prop where
  idle : ∀ t, w.calls t = .idle
  unlocked : w.row.lock = none
  wellFormed : ∀ c, w.row.committed = some c → WellFormed env.vault c ∧ c.userId = env.userId

/-! ## The invariant -/

structure Owned (env : CallEnv) (c : TelegramConnection) : Prop where
  wellFormed : WellFormed env.vault c
  user : c.userId = env.userId

/-- A row that is there stays there, and a connected one stays connected as it was. -/
structure KeepsRow (before after : Option TelegramConnection) : Prop where
  present : before.isSome = true → after.isSome = true
  authorized : ∀ principal, AuthorizedAs principal before → AuthorizedAs principal after

/-- The call has the row locked and in memory. -/
structure HoldsRow (env : CallEnv) (row : ConnectionRow) (t : CallId) (c : TelegramConnection) :
    Prop where
  held : row.Held t (some c)
  owned : Owned env c
  kept : KeepsRow row.committed (some c)

/-- The call returns, and `CONNECTED` only if it leaves the row so. -/
def ReturnsFrom (c : TelegramConnection) (after : AfterCommit) : Prop :=
  ∃ outcome, after = .returns outcome ∧
    (outcome = .state .connected → ∃ principal, AuthorizedAs principal (some c))

def OwnRequest (env : CallEnv) (request : StartRequest) : Prop :=
  request.userId = env.userId ∧ request.credentials

def PhaseOk (env : CallEnv) (row : ConnectionRow) (t : CallId) : CallPhase → Prop
  | .idle => row.HasNoLock t
  | .begun call => row.HasNoLock t ∧ ownCall env.userId call = true
  | .statusRead found => row.HasNoLock t ∧ ∀ c, found = some c → Owned env c ∧
      row.committed.isSome = true ∧
      ∀ principal, AuthorizedAs principal (some c) → AuthorizedAs principal row.committed
  | .startRead request none => OwnRequest env request ∧ row.HasNoLock t
  | .startRead request (some c) => OwnRequest env request ∧ HoldsRow env row t c
  | .connecting request c => OwnRequest env request ∧ HoldsRow env row t c
  | .authorizing request c => OwnRequest env request ∧ HoldsRow env row t c
  | .identifying request c => OwnRequest env request ∧ HoldsRow env row t c ∧ c.inUse = true
  | .requestingCode request c =>
      OwnRequest env request ∧ HoldsRow env row t c ∧ c.state ≠ .connected
  | .verifyRead _ c => HoldsRow env row t c ∧ row.committed = some c
  | .signingIn _ c => HoldsRow env row t c ∧ c.state = .pending
  | .verifyAuthorizing _ c => HoldsRow env row t c ∧ c.state = .pending
  | .verifyIdentifying _ c => HoldsRow env row t c ∧ c.state = .pending
  | .persisting _ => False
  | .writing .status loaded memory after => row.HasNoLock t ∧ Owned env loaded ∧
      loaded.state = .pending ∧ row.committed.isSome = true ∧
      memory = loaded.eraseExpiredChallenge ∧ after = .returns (.state .disconnected)
  | .writing .user loaded memory after => HoldsRow env row t loaded ∧ Owned env memory ∧
      KeepsRow row.committed (some memory) ∧ ReturnsFrom memory after
  | .writing _ _ _ _ => False
  | .committing _ after => ∃ c, row.Held t (some c) ∧ Owned env c ∧
      KeepsRow row.committed (some c) ∧ ReturnsFrom c after
  | .returned outcome => row.HasNoLock t ∧
      (outcome = .state .connected → ∃ principal, AuthorizedAs principal row.committed)

def RowOk (env : CallEnv) (row : ConnectionRow) : Prop :=
  ∀ c, row.committed = some c → Owned env c

structure CallsOk (env : CallEnv) (w : CallWorld) : Prop where
  row : RowOk env w.row
  phases : ∀ t, PhaseOk env w.row t (w.calls t)

/-- What a step of the call makes of the row and of its own clause. -/
structure Settles (env : CallEnv) (t : CallId) (row row' : ConnectionRow) (phase' : CallPhase) :
    Prop where
  rowOk : RowOk env row'
  kept : KeepsRow row.committed row'.committed
  phase : PhaseOk env row' t phase'

section Rows

variable {env : CallEnv} {c : TelegramConnection} {principal : TelegramId}
  {found before after later : Option TelegramConnection}

theorem keepsRow_refl : KeepsRow found found := ⟨id, fun _ => id⟩

theorem KeepsRow.trans (h : KeepsRow before after) (h' : KeepsRow after later) : KeepsRow before later :=
  ⟨fun hIs => h'.present (h.present hIs), fun p hAs => h'.authorized p (h.authorized p hAs)⟩

theorem keepsRow_none : KeepsRow none found :=
  ⟨nofun, fun _ ⟨_, hNone, _⟩ => nomatch hNone⟩

/-- There is nothing to keep. -/
theorem keepsRow_of_not_connected {memory : TelegramConnection} (hState : c.state ≠ .connected) :
    KeepsRow (some c) (some memory) := by
  refine ⟨fun _ => rfl, ?_⟩
  rintro principal ⟨c', hc, hConnected, -⟩
  obtain rfl := Option.some.inj hc
  exact absurd hConnected hState

theorem WellFormed.authorizedAs {vault : Vault} (hVault : vault.Lawful) (h : WellFormed vault c)
    (hState : c.state = .connected) : ∃ principal, AuthorizedAs principal (some c) := by
  cases h with
  | pending hPending =>
      rw [hPending] at hState
      cases hState
  | connected _ hSecrets hPrincipal =>
      obtain ⟨actual, -, hActual⟩ := hPrincipal
      exact ⟨actual, c, rfl, hState, hSecrets.session.truthy hVault, hActual⟩
  | neither hUse => simp [TelegramConnection.inUse, hState] at hUse

/-- A connected row is kept by one connected as the same account. -/
theorem keepsRow_of_same {memory : TelegramConnection} (hVault : env.vault.Lawful)
    (hMemory : Owned env memory) (hState : memory.state = .connected)
    (hSame : c.state = .connected → memory.telegramUserId = c.telegramUserId) :
    KeepsRow (some c) (some memory) := by
  refine ⟨fun _ => rfl, ?_⟩
  rintro principal ⟨c', hc, hConnected, -, hPrincipal⟩
  obtain rfl := Option.some.inj hc
  obtain ⟨p, c', hc', -, hSession, -⟩ := hMemory.wellFormed.authorizedAs hVault hState
  obtain rfl := Option.some.inj hc'
  exact ⟨memory, rfl, hState, hSession, (hSame hConnected).trans hPrincipal⟩

end Rows

/-! ### The clauses of the other calls -/

theorem PhaseOk.of_stepBy {env : CallEnv} {t t' : CallId} {row row' : ConnectionRow}
    {phase : CallPhase} (h : PhaseOk env row t' phase) (hStep : StepBy t row row')
    (hKept : KeepsRow row.committed row'.committed) (hNe : t' ≠ t) : PhaseOk env row' t' phase := by
  by_cases hLocked : ∃ own, row.Held t' own
  · obtain ⟨own, hHeld⟩ := hLocked
    obtain rfl := hStep.of_held hHeld hNe
    exact h
  have hFree : row.HasNoLock t' → row'.HasNoLock t' := fun hNo => hStep.hasNoLock hNo hNe
  have hNot {c : TelegramConnection} : ¬ HoldsRow env row t' c := fun hLoaded =>
    hLocked ⟨_, hLoaded.held⟩
  cases phase with
  | idle => exact hFree h
  | begun call => exact ⟨hFree h.1, h.2⟩
  | statusRead found =>
      refine ⟨hFree h.1, fun c hFound => ?_⟩
      obtain ⟨hOwned, hPresent, hAs⟩ := h.2 c hFound
      exact ⟨hOwned, hKept.present hPresent, fun p hp => hKept.authorized p (hAs p hp)⟩
  | startRead request found =>
      cases found with
      | none => exact ⟨h.1, hFree h.2⟩
      | some c => exact absurd h.2 hNot
  | connecting request c => exact absurd h.2 hNot
  | authorizing request c => exact absurd h.2 hNot
  | identifying request c => exact absurd h.2.1 hNot
  | requestingCode request c => exact absurd h.2.1 hNot
  | verifyRead nonce c => exact absurd h.1 hNot
  | signingIn nonce c => exact absurd h.1 hNot
  | verifyAuthorizing nonce c => exact absurd h.1 hNot
  | verifyIdentifying nonce c => exact absurd h.1 hNot
  | persisting generation => exact h.elim
  | writing origin loaded memory after =>
      cases origin with
      | status =>
          obtain ⟨hNo, hLoaded, hState, hPresent, hMemory⟩ := h
          exact ⟨hFree hNo, hLoaded, hState, hKept.present hPresent, hMemory⟩
      | user => exact absurd h.1 hNot
      | worker generation => exact h.elim
      | erasure generation => exact h.elim
  | committing origin after =>
      obtain ⟨c, hHeld, -⟩ := h
      exact absurd ⟨_, hHeld⟩ hLocked
  | returned outcome =>
      refine ⟨hFree h.1, fun hConnected => ?_⟩
      obtain ⟨p, hp⟩ := h.2 hConnected
      exact ⟨p, hKept.authorized p hp⟩

/-! ### What the calls decide -/

section Decisions

variable {env : CallEnv} {now : Instant} {c memory : TelegramConnection} {nonce : Nat}
  {request : StartRequest} {cancels : Bool}

theorem WellFormed.opensChallenge {vault : Vault} (hVault : vault.Lawful)
    (h : WellFormed vault c) (hState : c.state = .pending) :
    vault.opensChallenge c = some true := by
  cases h with
  | pending _ hSecrets hHash =>
      have hOpens : (vault.openApiCredentials c).isSome = true := by
        have hBoth := hSecrets.opens hVault
        unfold Vault.opens at hBoth
        exact (Bool.and_eq_true_iff.mp hBoth).2
      have hNone {o : Option String} (ho : o.isSome = true) : o.isNone = false := by
        cases o with
        | none => cases ho
        | some _ => rfl
      unfold Vault.opensChallenge
      simp only [hSecrets.phone.truthy hVault, hNone (hSecrets.phone.isSome hVault),
        hHash.truthy hVault, hNone (hHash.isSome hVault), hNone (hSecrets.session.isSome hVault),
        hSecrets.apiId.truthy hVault, hNone (hSecrets.apiId.isSome hVault),
        hSecrets.apiHash.truthy hVault, hOpens, Bool.not_true, Bool.false_eq_true, if_false]
  | connected hConnected =>
      rw [hConnected] at hState
      cases hState
  | neither hUse => simp [TelegramConnection.inUse, hState] at hUse

theorem statusStep_ne_invalidates (hVault : env.vault.Lawful) (h : Owned env c) :
    statusStep env.vault now c ≠ .invalidates := by
  unfold statusStep
  by_cases hUse : c.inUse = true
  · rw [hUse, h.wellFormed.consistent hVault hUse, h.wellFormed.opensAll hVault hUse]
    simp only [Bool.not_true, Bool.false_eq_true, if_false]
    split <;> simp
  · have hBlank : c.hasMaterial = false := by
      cases h.wellFormed with
      | pending hState => exact absurd (by simp [TelegramConnection.inUse, hState]) hUse
      | connected hState => exact absurd (by simp [TelegramConnection.inUse, hState]) hUse
      | neither _ hBlank => exact hBlank
    rw [(Bool.not_eq_true _).mp hUse, hBlank]
    simp

theorem statusStep_eq_erases {vault : Vault} (h : statusStep vault now c = .erases) :
    c.state = .pending := by
  unfold statusStep at h
  split at h
  · split at h
    · cases h
    · cases h
  split at h
  · cases h
  split at h
  · rename_i hExpired
    rw [Bool.and_eq_true, beq_iff_eq] at hExpired
    exact hExpired.1
  split at h
  · cases h
  · cases h

theorem statusStep_eq_connected {vault : Vault}
    (h : statusStep vault now c = .answers .connected) : c.state = .connected := by
  unfold statusStep at h
  split at h
  · split at h
    · cases h
    · cases h
  split at h
  · cases h
  split at h
  · cases h
  split at h
  · cases h
  · unfold responseState at h
    split at h
    · assumption
    · split at h
      · cases h
      · cases h
    · cases h

/-- `verify` opens the challenge it finds. -/
theorem verifyStep_ne_corrupt (hVault : env.vault.Lawful) (h : Owned env c) :
    verifyStep env.vault now c ≠ .corrupt := by
  unfold verifyStep
  split
  · nofun
  split
  · nofun
  split
  · nofun
  rename_i hNotPending
  have hPending : c.state = .pending := by simpa using hNotPending
  rw [h.wellFormed.opensChallenge hVault hPending]
  split
  · nofun
  · nofun

theorem verifyStep_eq_connected {vault : Vault} (h : verifyStep vault now c = .connected) :
    c.state = .connected := by
  unfold verifyStep at h
  split at h
  · cases h
  split at h
  · rename_i hConnected
    exact beq_iff_eq.mp hConnected
  split at h
  · cases h
  split at h
  · cases h
  split at h <;> cases h

theorem verifyStep_pending {vault : Vault} {step : VerifyStep}
    (h : verifyStep vault now c = step) (hStep : step = .expired ∨ step = .signsIn) :
    c.state = .pending := by
  unfold verifyStep at h
  split at h
  · subst h
    simp at hStep
  split at h
  · subst h
    simp at hStep
  split at h
  · subst h
    simp at hStep
  · rename_i hNotPending
    simpa using hNotPending

/-- What a call over a pending or connected row ends with. -/
theorem owned_startOutcome {client : StartClient} (hRequest : OwnRequest env request)
    (h : Owned env c)
    (hClient : ∀ identity session, client = .authorized identity session →
      PositiveIdentity identity ∧ c.inUse = true)
    (hOutcome : startOutcome env.py env.vault now request client env.others c =
      some (memory, cancels)) : Owned env memory := by
  obtain ⟨hUser, hMemory⟩ := wellFormed_startOutcome h.wellFormed
    (h.user.trans hRequest.1.symm) hRequest.2 hClient hOutcome
  exact ⟨hMemory, hUser.trans h.user⟩

theorem startOutcome_authorized {py : Python.Runtime} {vault : Vault} {others : Database}
    {identity : Option TelegramId} {session : String}
    (h : startOutcome py vault now request (.authorized identity session) others c =
      some (memory, cancels)) : memory.state = .connected ∧ memory.telegramUserId = identity := by
  unfold startOutcome at h
  dsimp only at h
  split at h
  · cases h
  · obtain ⟨⟨bound, b⟩, hBind, hEq⟩ := Option.map_eq_some_iff.mp h
    cases hEq
    obtain ⟨actual, generation, rfl, rfl⟩ := bindAuthorizedPrincipal_eq_some hBind
    exact ⟨rfl, rfl⟩

theorem owned_verifyOutcome {client : VerifyClient} (h : Owned env c) (hState : c.state = .pending)
    (hIdentity : ∀ identity session, client = .signedIn true identity session →
      PositiveIdentity identity)
    (hOutcome : verifyOutcome env.vault nonce client env.others c = some (memory, cancels)) :
    Owned env memory ∧
      ((∃ identity session, client = .signedIn true identity session) →
        memory.state = .connected) := by
  have hSealed (session : String) : Sealed env.vault c.userId "session" AnyText
      (some (env.vault.encrypt nonce session (secretContext c.userId "session"))) :=
    ⟨nonce, session, trivial, rfl⟩
  cases h.wellFormed with
  | pending _ hSecrets hHash hExpiry hPrincipal =>
      unfold verifyOutcome at hOutcome
      split at hOutcome
      · cases hOutcome
      · cases hOutcome
        refine ⟨⟨.pending rfl (hSecrets.withSession (hSealed _) rfl rfl rfl rfl) hHash hExpiry
          hPrincipal, h.user⟩, ?_⟩
        rintro ⟨_, _, hClient⟩
        cases hClient
      · cases hOutcome
        refine ⟨⟨.pending hState (hSecrets.withSession (hSealed _) rfl rfl rfl rfl) hHash
          hExpiry hPrincipal, h.user⟩, ?_⟩
        rintro ⟨_, _, hClient⟩
        cases hClient
      · rename_i identity session
        obtain ⟨⟨bound, b⟩, hBind, hEq⟩ := Option.map_eq_some_iff.mp hOutcome
        cases hEq
        obtain ⟨actual, generation, rfl, rfl⟩ := bindAuthorizedPrincipal_eq_some hBind
        exact ⟨⟨.connected rfl (hSecrets.withSession (hSealed _) rfl rfl rfl rfl)
          ⟨actual, hIdentity _ _ rfl actual rfl, rfl⟩ rfl rfl rfl, h.user⟩, fun _ => rfl⟩
  | connected hConnected =>
      rw [hConnected] at hState
      cases hState
  | neither hUse => simp [TelegramConnection.inUse, hState] at hUse

/-- What a status erases over a row that is not connected has nothing left. -/
theorem owned_flush_erase {loaded : TelegramConnection} (hLoaded : Owned env loaded)
    (hPending : loaded.state = .pending) (h : Owned env c) (hState : c.state ≠ .connected)
    (hPassword : c.passwordRequired = true → loaded.passwordRequired = true) :
    Owned env (flushConnection loaded loaded.eraseExpiredChallenge c) := by
  refine ⟨?_, h.user⟩
  have hPrincipal : c.telegramUserId = none := by
    cases h.wellFormed with
    | pending _ _ _ _ hPrincipal => exact hPrincipal
    | connected hConnected => exact absurd hConnected hState
    | neither _ _ hPrincipal => exact hPrincipal
  cases hLoaded.wellFormed with
  | pending _ hSecrets hHash hExpiry hNone =>
      obtain ⟨_, _, _, hSession⟩ := hSecrets.session
      obtain ⟨_, _, _, hApiId⟩ := hSecrets.apiId
      obtain ⟨_, _, _, hApiHash⟩ := hSecrets.apiHash
      obtain ⟨_, _, _, hPhone⟩ := hSecrets.phone
      obtain ⟨_, _, _, hCode⟩ := hHash
      obtain ⟨expiry, hExpires⟩ := Option.isSome_iff_exists.mp hExpiry
      have hNoPassword : loaded.passwordRequired = false → c.passwordRequired = false := by
        intro hFalse
        rw [← Bool.not_eq_true]
        intro hTrue
        rw [hPassword hTrue] at hFalse
        cases hFalse
      refine .neither ?_ ?_ ?_
      · simp [TelegramConnection.inUse, flushConnection, TelegramConnection.eraseExpiredChallenge,
          hPending]
      · simp [TelegramConnection.hasMaterial, flushConnection,
          TelegramConnection.eraseExpiredChallenge, hSession, hApiId, hApiHash, hPhone, hCode,
          hExpires, hNone, hPrincipal, truthy]
        exact hNoPassword
      · simp [flushConnection, TelegramConnection.eraseExpiredChallenge, hNone, hPrincipal]
  | connected hConnected =>
      rw [hConnected] at hPending
      cases hPending
  | neither hUse => simp [TelegramConnection.inUse, hPending] at hUse

end Decisions

/-! ### A step of a call -/

section Steps

variable {env : CallEnv} {now : Instant} {t : CallId} {row row' : ConnectionRow}
  {phase phase' : CallPhase} {input : CallInput} {c loaded memory : TelegramConnection}
  {after : AfterCommit} {nonce : Nat}

theorem settles_same (hRow : RowOk env row) (hSame : row'.committed = row.committed)
    (hPhase : PhaseOk env row' t phase') : Settles env t row row' phase' :=
  ⟨fun c hc => hRow c (hSame ▸ hc), hSame ▸ keepsRow_refl, hPhase⟩

theorem settles_endCall {outcome : CallOutcome} (hRow : RowOk env row)
    (h : endCall t row outcome = some (row', phase'))
    (hOutcome : outcome = .state .connected → ∃ p, AuthorizedAs p row.committed) :
    Settles env t row row' phase' := by
  cases h
  refine settles_same hRow rollback_committed ⟨hasNoLock_rollback, ?_⟩
  rw [rollback_committed]
  exact hOutcome

/-- The call has what it is going to write in memory. -/
theorem settles_writing (hRow : RowOk env row) (hLoaded : HoldsRow env row t loaded)
    (hMemory : Owned env memory) (hKept : KeepsRow (some loaded) (some memory))
    (hAfter : ReturnsFrom memory after) :
    Settles env t row row (.writing .user loaded memory after) :=
  settles_same hRow rfl ⟨hLoaded, hMemory, hLoaded.kept.trans hKept, hAfter⟩

theorem settles_writeOutcome {result : Option (TelegramConnection × Bool)} (hRow : RowOk env row)
    (hLoaded : HoldsRow env row t loaded)
    (hResult : ∀ memory cancels, result = some (memory, cancels) →
      Owned env memory ∧ KeepsRow (some loaded) (some memory) ∧ ReturnsFrom memory after)
    (h : writeOutcome t row loaded after result = some (row', phase')) :
    Settles env t row row' phase' := by
  unfold writeOutcome at h
  split at h
  · exact settles_endCall hRow h nofun
  · rename_i memory cancels
    cases h
    obtain ⟨hMemory, hKept, hAfter⟩ := hResult memory cancels rfl
    exact settles_writing hRow hLoaded hMemory hKept hAfter

theorem returnsFrom_other {outcome : CallOutcome} (h : outcome ≠ .state .connected) :
    ReturnsFrom c (.returns outcome) :=
  ⟨outcome, rfl, fun hConnected => absurd hConnected h⟩

/-- A call that had no lock has just taken it. -/
theorem loaded_of_select (hRow : RowOk env row) (hFree : row.HasNoLock t)
    (h : row.selectForUpdate t (fun _ => true) = some (row', some c)) :
    row'.committed = row.committed ∧ row'.committed = some c ∧ HoldsRow env row' t c := by
  obtain ⟨hCommitted, -, hSame, hHeld⟩ := hFree.selectForUpdate_some h
  have hFound := hSame.trans hCommitted
  exact ⟨hSame, hFound, hHeld, hRow c hCommitted, hFound ▸ keepsRow_refl⟩

theorem settles_beginCall {call : ConnectionCall} (hRow : RowOk env row)
    (hFree : row.HasNoLock t) (hCall : ownCall env.userId call = true)
    (h : beginCall env t row call = some (row', phase')) : Settles env t row row' phase' := by
  cases call with
  | status =>
      cases h
      refine settles_same hRow rfl ⟨hFree, fun c hFound => ?_⟩
      rw [hFree.view] at hFound
      rw [hFound]
      exact ⟨hRow c hFound, rfl, fun _ => id⟩
  | start request =>
      obtain ⟨⟨locked, found⟩, hFound, hEq⟩ := Option.map_eq_some_iff.mp h
      cases hEq
      have hRequest : OwnRequest env request := by
        simp only [ownCall, Bool.and_eq_true, beq_iff_eq, decide_eq_true_eq] at hCall
        exact ⟨hCall.1.1, hCall.1.2, hCall.2⟩
      cases found with
      | none =>
          obtain rfl := selectForUpdate_none hFound
          exact settles_same hRow rfl ⟨hRequest, hFree⟩
      | some c =>
          obtain ⟨hSame, -, hLoaded⟩ := loaded_of_select hRow hFree hFound
          exact settles_same hRow hSame ⟨hRequest, hLoaded⟩
  | verify nonce =>
      obtain ⟨⟨locked, found⟩, hFound, hEq⟩ := Option.map_eq_some_iff.mp h
      cases hEq
      cases found with
      | none =>
          obtain rfl := selectForUpdate_none hFound
          exact settles_same hRow rfl ⟨hFree, nofun⟩
      | some c =>
          obtain ⟨hSame, hCommitted, hLoaded⟩ := loaded_of_select hRow hFree hFound
          exact settles_same hRow hSame ⟨hLoaded, hCommitted⟩
  | disconnect => cases hCall
  | openScan lease => cases hCall
  | persistPage lease => cases hCall
  | refreshSession lease session => cases hCall
  | downgrade lease => cases hCall

theorem settles_statusRead {found : Option TelegramConnection} (hVault : env.vault.Lawful)
    (hRow : RowOk env row) (hPhase : PhaseOk env row t (.statusRead found))
    (h : advance env now t row (.statusRead found) .proceed = some (row', phase')) :
    Settles env t row row' phase' := by
  obtain ⟨hFree, hFound⟩ := hPhase
  cases found with
  | none =>
      simp only [advance] at h
      exact settles_endCall hRow h nofun
  | some c =>
      obtain ⟨hOwned, hPresent, hAs⟩ := hFound c rfl
      simp only [advance] at h
      split at h
      · rename_i state hStep
        refine settles_endCall hRow h ?_
        rintro ⟨⟩
        obtain ⟨p, hp⟩ := hOwned.wellFormed.authorizedAs hVault (statusStep_eq_connected hStep)
        exact ⟨p, hAs p hp⟩
      · rename_i hStep
        cases h
        exact settles_same hRow rfl
          ⟨hFree, hOwned, statusStep_eq_erases hStep, hPresent, rfl, rfl⟩
      · rename_i hStep
        exact absurd hStep (statusStep_ne_invalidates hVault hOwned)

theorem settles_startRead {request : StartRequest} {found : Option TelegramConnection}
    (hVault : env.vault.Lawful) (hRow : RowOk env row)
    (hPhase : PhaseOk env row t (.startRead request found))
    (h : advance env now t row (.startRead request found) .proceed = some (row', phase')) :
    Settles env t row row' phase' := by
  cases found with
  | none =>
      obtain ⟨hRequest, hFree⟩ := hPhase
      obtain ⟨inserted, hInsert, h⟩ := Option.bind_eq_some_iff.mp h
      obtain ⟨locked, hLocked, ⟨rfl, -⟩ | ⟨hNone, rfl⟩⟩ := insert_eq_some hInsert
      · exact settles_endCall hRow h nofun
      · cases h
        obtain ⟨hCommitted, hHeld, -⟩ := acquire_eq_some hLocked
        have hMissing : row.committed = none := by
          rw [← hFree.view, ← hHeld.view]
          exact hNone
        refine settles_same hRow hCommitted ⟨hRequest, rfl, ⟨wellFormed_created, rfl⟩, ?_⟩
        rw [show (locked.write t (some (TelegramConnection.created env.userId))).committed = none
          from hCommitted.trans hMissing]
        exact keepsRow_none
  | some c =>
      obtain ⟨hRequest, hLoaded⟩ := hPhase
      simp only [advance, hLoaded.owned.wellFormed.startsFrom hVault, if_true] at h
      cases h
      exact settles_same hRow rfl ⟨hRequest, hLoaded⟩

/-- The end of `start`. -/
theorem settles_startOutcome {request : StartRequest} {client : StartClient} {answer : AuthState}
    (hVault : env.vault.Lawful) (hRow : RowOk env row) (hRequest : OwnRequest env request)
    (hLoaded : HoldsRow env row t c)
    (hClient : ∀ identity session, client = .authorized identity session →
      PositiveIdentity identity ∧ c.inUse = true)
    (hKept : ∀ memory cancels, startOutcome env.py env.vault now request client env.others c =
        some (memory, cancels) → Owned env memory →
      KeepsRow (some c) (some memory) ∧ (answer = .connected → memory.state = .connected))
    (h : writeOutcome t row c (.returns (.state answer))
      (startOutcome env.py env.vault now request client env.others c) = some (row', phase')) :
    Settles env t row row' phase' := by
  refine settles_writeOutcome hRow hLoaded (fun memory cancels hOutcome => ?_) h
  have hMemory := owned_startOutcome hRequest hLoaded.owned hClient hOutcome
  obtain ⟨hSame, hState⟩ := hKept memory cancels hOutcome hMemory
  refine ⟨hMemory, hSame, _, rfl, ?_⟩
  rintro ⟨⟩
  exact hMemory.wellFormed.authorizedAs hVault (hState rfl)

/-- The end of `verify`. -/
theorem settles_verifyOutcome {client : VerifyClient} {outcome : CallOutcome}
    (hVault : env.vault.Lawful) (hRow : RowOk env row) (hLoaded : HoldsRow env row t c)
    (hPending : c.state = .pending)
    (hIdentity : ∀ identity session, client = .signedIn true identity session →
      PositiveIdentity identity)
    (hOutcome : outcome = .state .connected →
      ∃ identity session, client = .signedIn true identity session)
    (h : writeOutcome t row c (.returns outcome)
      (verifyOutcome env.vault nonce client env.others c) = some (row', phase')) :
    Settles env t row row' phase' := by
  refine settles_writeOutcome hRow hLoaded (fun memory cancels hResult => ?_) h
  obtain ⟨hMemory, hState⟩ := owned_verifyOutcome hLoaded.owned hPending hIdentity hResult
  refine ⟨hMemory, keepsRow_of_not_connected (by rw [hPending]; decide), outcome, rfl, ?_⟩
  intro hConnected
  exact hMemory.wellFormed.authorizedAs hVault (hState (hOutcome hConnected))

theorem settles_verifyRead (hVault : env.vault.Lawful) (hRow : RowOk env row)
    (hPhase : PhaseOk env row t (.verifyRead nonce c))
    (h : advance env now t row (.verifyRead nonce c) .proceed = some (row', phase')) :
    Settles env t row row' phase' := by
  obtain ⟨hLoaded, hCommitted⟩ := hPhase
  simp only [advance] at h
  split at h
  · exact settles_endCall hRow h nofun
  · rename_i hStep
    refine settles_endCall hRow h (fun _ => ?_)
    rw [hCommitted]
    exact hLoaded.owned.wellFormed.authorizedAs hVault (verifyStep_eq_connected hStep)
  · rename_i hStep
    cases h
    have hPending := verifyStep_pending hStep (Or.inl rfl)
    exact settles_writing hRow hLoaded ⟨wellFormed_eraseExpiredChallenge, hLoaded.owned.user⟩
      (keepsRow_of_not_connected (by rw [hPending]; decide)) (returnsFrom_other nofun)
  · rename_i hStep
    exact absurd hStep (verifyStep_ne_corrupt hVault hLoaded.owned)
  · rename_i hStep
    cases h
    exact settles_same hRow rfl ⟨hLoaded, verifyStep_pending hStep (Or.inr rfl)⟩

theorem settles_writing_user (hRow : RowOk env row)
    (hPhase : PhaseOk env row t (.writing .user loaded memory after))
    (h : advance env now t row (.writing .user loaded memory after) .proceed =
      some (row', phase')) : Settles env t row row' phase' := by
  obtain ⟨hLoaded, hMemory, hKept, hAfter⟩ := hPhase
  have hUpdate : row.update t (fun _ => true) (flushConnection loaded memory) = _ :=
    hLoaded.held.update rfl
  simp only [advance, hUpdate, Option.map_some] at h
  cases h
  have hWritten : flushConnection loaded memory loaded = memory := by
    rw [flushConnection_self, hLoaded.owned.user, ← hMemory.user]
  refine settles_same hRow rfl ⟨memory, ?_, hMemory, hKept, hAfter⟩
  rw [hWritten]
  rfl

/-- The erasure of a status, over a row that has not been connected since. -/
theorem settles_writing_status (hRow : RowOk env row)
    (hPhase : PhaseOk env row t (.writing .status loaded memory after))
    (hErases : erasesUnverified row (.writing .status loaded memory after) .proceed = true)
    (h : advance env now t row (.writing .status loaded memory after) .proceed =
      some (row', phase')) : Settles env t row row' phase' := by
  obtain ⟨hFree, hLoaded, hPending, hPresent, rfl, rfl⟩ := hPhase
  obtain ⟨c, hCommitted⟩ := Option.isSome_iff_exists.mp hPresent
  simp only [erasesUnverified, hCommitted, Option.all_some, Bool.and_eq_true, bne_iff_ne,
    Bool.or_eq_true, Bool.not_eq_true'] at hErases
  obtain ⟨hState, hPassword⟩ := hErases
  obtain ⟨⟨written, matched⟩, hUpdate, hEq⟩ := Option.map_eq_some_iff.mp h
  cases hEq
  obtain ⟨hSame, hHeld⟩ := hFree.update_eq_some hCommitted rfl hUpdate
  have hErased := owned_flush_erase hLoaded hPending (hRow c hCommitted) hState fun hAsked => by
    rcases hPassword with hNot | hLoadedToo
    · rw [hNot] at hAsked
      cases hAsked
    · exact hLoadedToo
  refine settles_same hRow (hSame.trans hCommitted.symm)
    ⟨_, hHeld, hErased, ?_, returnsFrom_other nofun⟩
  rw [hSame]
  exact keepsRow_of_not_connected hState

theorem settles_commit {origin : WriteOrigin}
    (hPhase : PhaseOk env row t (.committing origin after)) :
    Settles env t row (row.commit t) after.phase := by
  obtain ⟨c, hHeld, hOwned, hKept, outcome, rfl, hOutcome⟩ := hPhase
  rw [hHeld.commit]
  refine ⟨?_, hKept, ?_, hOutcome⟩
  · intro c' hc'
    obtain rfl := Option.some.inj hc'
    exact hOwned
  · intro own hNone
    cases hNone

theorem settles_advance (hVault : env.vault.Lawful) (hRow : RowOk env row)
    (hPhase : PhaseOk env row t phase) (hInput : unrevokedInput phase input = true)
    (hErases : erasesUnverified row phase input = true)
    (h : advance env now t row phase input = some (row', phase')) :
    Settles env t row row' phase' := by
  unfold advance at h
  split at h
  -- a call that has not begun or has returned, and an input it does not wait for
  case h_1 | h_2 | h_20 => cases h
  -- an exception
  case h_3 => exact settles_endCall hRow h nofun
  case h_4 => exact settles_beginCall hRow hPhase.1 hPhase.2 h
  case h_5 => exact settles_statusRead hVault hRow hPhase h
  case h_6 request found => exact @settles_startRead env now _ _ _ _ _ _ hVault hRow hPhase h
  case h_7 =>
      cases h
      exact settles_same hRow rfl hPhase
  -- the client has said whether it is authorized
  case h_8 request c answer =>
      simp only [unrevokedInput, Bool.and_eq_true, Bool.or_eq_true, Bool.not_eq_true', bne_iff_ne]
        at hInput
      obtain ⟨hAuthorized, hUnauthorized⟩ := hInput
      split at h
      · rename_i hNo
        cases h
        have hNo : answer = false := by simpa using hNo
        refine settles_same hRow rfl ⟨hPhase.1, hPhase.2, ?_⟩
        exact hUnauthorized.resolve_right (by rw [hNo]; decide)
      · rename_i hYes
        have hYes : answer = true := by simpa using hYes
        split at h
        · exact settles_endCall hRow h nofun
        · cases h
          refine settles_same hRow rfl ⟨hPhase.1, hPhase.2, ?_⟩
          exact hAuthorized.resolve_right (by rw [hYes]; decide)
  -- `start` over a session that is still authorized
  case h_9 request c identity session =>
      obtain ⟨hRequest, hLoaded, hUse⟩ := hPhase
      have hActual : ∀ actual, identity = some actual →
          0 < actual ∧ (c.state = .connected → c.telegramUserId = some actual) := by
        rintro actual rfl
        simp only [unrevokedInput, Option.all_some, Bool.and_eq_true, decide_eq_true_eq,
          Bool.or_eq_true, bne_iff_ne, beq_iff_eq] at hInput
        exact ⟨hInput.1, fun hConnected => hInput.2.resolve_left fun hNot => hNot hConnected⟩
      refine settles_startOutcome hVault hRow hRequest hLoaded ?_ ?_ h
      · intro identity' session' hClient
        cases hClient
        exact ⟨fun actual hEq => (hActual actual hEq).1, hUse⟩
      · intro memory cancels hOutcome hMemory
        obtain ⟨hState, hPrincipal⟩ := startOutcome_authorized hOutcome
        refine ⟨keepsRow_of_same hVault hMemory hState fun hConnected => ?_, fun _ => hState⟩
        obtain ⟨p, c', hc', -, -, hp⟩ := hMemory.wellFormed.authorizedAs hVault hState
        obtain rfl := Option.some.inj hc'
        rw [hp, (hActual p (hPrincipal.symm.trans hp)).2 hConnected]
  -- `start` over a session that is not
  case h_10 request c hash session =>
      obtain ⟨hRequest, hLoaded, hState⟩ := hPhase
      refine settles_startOutcome hVault hRow hRequest hLoaded ?_ ?_ h
      · intro _ _ hClient
        cases hClient
      · intro memory cancels _ _
        exact ⟨keepsRow_of_not_connected hState, nofun⟩
  case h_11 => exact settles_verifyRead hVault hRow hPhase h
  case h_12 | h_14 =>
      cases h
      exact settles_same hRow rfl hPhase
  -- a password is needed, or the sign-in has not authorized the session
  case h_13 | h_15 =>
      refine settles_verifyOutcome hVault hRow hPhase.1 hPhase.2 ?_ ?_ h
      · intro _ _ hClient
        cases hClient
      · nofun
  case h_16 nonce c identity session =>
      refine settles_verifyOutcome hVault hRow hPhase.1 hPhase.2 ?_ (fun _ => ⟨_, _, rfl⟩) h
      intro identity' session' hClient actual hActual
      cases hClient
      subst hActual
      simpa [unrevokedInput] using hInput
  case h_17 => exact hPhase.elim
  case h_18 origin loaded memory after =>
      cases origin with
      | status => exact @settles_writing_status env now _ _ _ _ _ _ _ hRow hPhase hErases h
      | user => exact @settles_writing_user env now _ _ _ _ _ _ _ hRow hPhase h
      | worker generation => exact hPhase.elim
      | erasure generation => exact hPhase.elim
  case h_19 =>
      cases h
      exact settles_commit hPhase

end Steps

/-! ## Runs -/

section Runs

variable {env : CallEnv} {w w' : CallWorld} {a : CallAction}

theorem callsOk_start (h : Settled env w) : CallsOk env w := by
  refine ⟨fun c hc => ⟨(h.wellFormed c hc).1, (h.wellFormed c hc).2⟩, fun t => ?_⟩
  rw [h.idle t]
  intro own hHeld
  rw [LockedRow.Held, h.unlocked] at hHeld
  cases hHeld

theorem callsOk_step (hVault : env.vault.Lawful) (h : CallsOk env w)
    (hUnrevoked : unrevoked env w a = true) (hErasures : unverifiedErasures w a = true)
    (hStep : w.step env a = some w') :
    CallsOk env w' ∧ KeepsRow w.row.committed w'.row.committed := by
  rcases CallWorld.step_eq_some hStep with ⟨elapsed, rfl, rfl⟩ | ⟨t, call, rfl, hIdle, rfl⟩ |
    ⟨t, input, row', phase', rfl, hAdvance, rfl⟩
  · exact ⟨⟨h.row, h.phases⟩, keepsRow_refl⟩
  · refine ⟨⟨h.row, ?_⟩, keepsRow_refl⟩
    have hFree : PhaseOk env w.row t .idle := hIdle ▸ h.phases t
    exact (Function.forall_update_iff w.calls (PhaseOk env w.row)).mpr
      ⟨⟨hFree, hUnrevoked⟩, fun t' _ => h.phases t'⟩
  · have hSettles := settles_advance hVault h.row (h.phases t) hUnrevoked hErasures hAdvance
    refine ⟨⟨hSettles.rowOk, ?_⟩, hSettles.kept⟩
    exact (Function.forall_update_iff w.calls (PhaseOk env row')).mpr ⟨hSettles.phase,
      fun t' hNe => (h.phases t').of_stepBy (stepBy_advance hAdvance) hSettles.kept hNe⟩

def CallPhase.outcome : CallPhase → Option CallOutcome
  | .returned outcome => some outcome
  | _ => none

theorem CallPhase.outcome_eq_some {phase : CallPhase} {outcome : CallOutcome}
    (h : phase.outcome = some outcome) : phase = .returned outcome := by
  cases phase with
  | returned answer => exact congrArg _ (Option.some.inj h)
  | _ => cases h

/-- What has been verified is not lost: the row is connected when a call has returned
`CONNECTED`, stays so as the same account, and is never disconnected with an account. -/
def AuthorizationStays (env : CallEnv) (w : CallWorld) (as : List CallAction) : Prop :=
  ∀ front back u v, as = front ++ back → run (CallWorld.step env) w front = some u →
    run (CallWorld.step env) u back = some v →
      (∀ c, v.row.committed = some c → c.state = .disconnected → c.telegramUserId = none) ∧
      ((∃ t, (u.calls t).outcome = some (.state .connected)) →
        ∃ principal, AuthorizedAs principal u.row.committed ∧
          AuthorizedAs principal v.row.committed)

theorem authorization_stays {as : List CallAction} (hVault : env.vault.Lawful)
    (hStart : Settled env w)
    (hUnrevoked : ∀ u a v, StepOf (CallWorld.step env) w as u a v → unrevoked env u a = true)
    (hErasures : ∀ u a v, StepOf (CallWorld.step env) w as u a v →
      unverifiedErasures u a = true) :
    AuthorizationStays env w as := by
  rintro front back u v rfl hFront hBack
  have hFirst : CallsOk env u := run_induct (callsOk_start hStart) hFront fun x a y h hx =>
    (callsOk_step hVault hx (hUnrevoked x a y (h.append_right back))
      (hErasures x a y (h.append_right back)) h.step).1
  have hRest : CallsOk env v ∧ KeepsRow u.row.committed v.row.committed := by
    refine @run_induct _ _ _
      (fun x => CallsOk env x ∧ KeepsRow u.row.committed x.row.committed) _ _ _
      ⟨hFirst, keepsRow_refl⟩ hBack fun x a y h hx => ?_
    have hWhole := h.append_left hFront
    obtain ⟨hOk, hKept⟩ := callsOk_step hVault hx.1 (hUnrevoked x a y hWhole)
      (hErasures x a y hWhole) h.step
    exact ⟨hOk, hx.2.trans hKept⟩
  constructor
  · intro c hc hState
    cases (hRest.1.row c hc).wellFormed with
    | pending _ _ _ _ hPrincipal => exact hPrincipal
    | connected hConnected =>
        rw [hState] at hConnected
        cases hConnected
    | neither _ _ hPrincipal => exact hPrincipal
  · rintro ⟨t, hReturned⟩
    have hPhase := hFirst.phases t
    rw [CallPhase.outcome_eq_some hReturned] at hPhase
    obtain ⟨principal, hAs⟩ := hPhase.2 rfl
    exact ⟨principal, hAs, hRest.2.authorized principal hAs⟩

end Runs

/-! ### A verification that takes longer than its challenge -/

def sealingCalls : CallEnv := ⟨sealingEnv.py, sealingVault, 1, emptyStore.db⟩

def noCalls : CallWorld := ⟨0, ⟨none, none⟩, fun _ => .idle⟩

/-- A start asks for a code, and a verify with the code is at the sign-in when the challenge
expires. -/
def signingInAtExpiry : List CallAction :=
  .begin 1 (.start (startRequest 0)) :: proceeds 3 1 ++
    [.advance 1 (.authorized false), .advance 1 (.code (some "hash") "first")] ++
    proceeds 2 1 ++ .begin 2 (.verify 10) :: proceeds 2 2 ++ [.tick (seconds 600)]

/-- The sign-in succeeds. -/
def signsIn : List CallAction :=
  proceeds 2 2 ++ .advance 2 (.identity (some 300) "second") :: proceeds 2 2

/-- A status that comes afterwards. -/
def readAfterwards : List CallAction := signingInAtExpiry ++ signsIn ++ .begin 3 .status :: proceeds 2 3

/-- A status that has read the expired challenge before, and writes its erasure. -/
def readBefore : List CallAction := signingInAtExpiry ++ .begin 3 .status :: proceeds 2 3 ++ signsIn

def callsAfter (as : List CallAction) : CallWorld :=
  (run (CallWorld.step sealingCalls) noCalls as).getD noCalls

theorem noCalls_settled : Settled sealingCalls noCalls :=
  ⟨fun _ => rfl, rfl, fun _ hNone => by cases hNone⟩

theorem authorization_stays_read_afterwards :
    AuthorizationStays sealingCalls noCalls readAfterwards ∧
      ((callsAfter readAfterwards).calls 2).outcome = some (.state .connected) ∧
      ((callsAfter readAfterwards).calls 3).outcome = some (.state .connected) := by
  refine ⟨authorization_stays sealingVault_lawful noCalls_settled ?_ ?_, by decide +kernel,
    by decide +kernel⟩
  · intro u a v hStep
    exact of_everyStep (by decide +kernel) hStep
  · intro u a v hStep
    exact of_everyStep (by decide +kernel) hStep

/-- The erasure comes after `CONNECTED`, and leaves the account behind. -/
theorem authorization_is_erased :
    everyStep (CallWorld.step sealingCalls) (unrevoked sealingCalls) noCalls
        (readBefore ++ proceeds 2 3) = true ∧
      ((callsAfter readBefore).calls 2).outcome = some (.state .connected) ∧
      (callsAfter (readBefore ++ proceeds 2 3)).row.committed.map
        (fun c => (c.state, c.telegramUserId)) = some (.disconnected, some 300) ∧
      ¬ AuthorizationStays sealingCalls noCalls (readBefore ++ proceeds 2 3) := by
  have hEnd : (callsAfter (readBefore ++ proceeds 2 3)).row.committed.map
      (fun c => (c.state, c.telegramUserId)) = some (.disconnected, some 300) := by
    decide +kernel
  refine ⟨by decide +kernel, by decide +kernel, hEnd, fun hStays => ?_⟩
  have hFront : run (CallWorld.step sealingCalls) noCalls readBefore =
      some (callsAfter readBefore) := run_getD (by decide +kernel)
  have hBack : run (CallWorld.step sealingCalls) (callsAfter readBefore) (proceeds 2 3) =
      some (callsAfter (readBefore ++ proceeds 2 3)) := run_getD_append (by decide +kernel)
  obtain ⟨hAccount, -⟩ := hStays _ _ _ _ rfl hFront hBack
  obtain ⟨c, hCommitted, hColumns⟩ := Option.map_eq_some_iff.mp hEnd
  obtain ⟨hState, hPrincipal⟩ := Prod.mk.inj hColumns
  rw [hAccount c hCommitted hState] at hPrincipal
  cases hPrincipal

end SavedOrganizer
