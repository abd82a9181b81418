import SavedOrganizer.System.ConnectionChange

/-!
# Well-formed connection rows

A pending row has the four secrets, its challenge and no principal, a connected row has the
four secrets, a principal and no challenge, and any other row has nothing. Every transaction
leaves the rows so (`rows_step`), and then `status` finds nothing to invalidate.

The invariant `WellFormed` also says what the ciphertexts were made from. With it `start`
can always open the row it finds, so that it never needs its second transaction.
-/

namespace SavedOrganizer

open Transition

/-- A ciphertext opens to what was encrypted, and is not empty. -/
structure Vault.Lawful (vault : Vault) : Prop where
  encrypt_ne : ∀ nonce plaintext context, vault.encrypt nonce plaintext context ≠ ""
  decrypt_encrypt : ∀ nonce plaintext context,
    vault.decrypt (vault.encrypt nonce plaintext context) context = some plaintext
  readInt_toString : ∀ n : Int, 0 < n → vault.readInt (toString n) = some n

/-- The column holds an encryption for this user and purpose. -/
def Sealed (vault : Vault) (userId : UserId) (purpose : String) (plain : String → Prop)
    (value : Option Secret) : Prop :=
  ∃ nonce plaintext, plain plaintext ∧
    value = some (vault.encrypt nonce plaintext (secretContext userId purpose))

/-- Any text. -/
def AnyText (_ : String) : Prop := True

theorem sealed_sealSession {vault : Vault} {userId : UserId} {session : ClientSession} :
    Sealed vault userId "session" AnyText (some (vault.sealSession userId session)) :=
  ⟨session.nonce, session.text, trivial, rfl⟩

def ApiIdText (text : String) : Prop := ∃ n : Int, 0 < n ∧ text = toString n

def ApiHashText (text : String) : Prop := text.length = 32

/-- The four secrets of a row in use. -/
structure Secrets (vault : Vault) (c : TelegramConnection) : Prop where
  session : Sealed vault c.userId "session" AnyText c.sessionEncrypted
  apiId : Sealed vault c.userId "api_id" ApiIdText c.apiIdEncrypted
  apiHash : Sealed vault c.userId "api_hash" ApiHashText c.apiHashEncrypted
  phone : Sealed vault c.userId "phone" AnyText c.phoneEncrypted

inductive WellFormed (vault : Vault) (c : TelegramConnection) : Prop
  | pending (state : c.state = .pending) (secrets : Secrets vault c)
      (hash : Sealed vault c.userId "phone_code_hash" AnyText c.pendingPhoneCodeHashEncrypted)
      (expiry : c.pendingExpiresAt.isSome) (principal : c.telegramUserId = none)
  | connected (state : c.state = .connected) (secrets : Secrets vault c)
      (principal : ∃ actual : TelegramId, 0 < actual ∧ c.telegramUserId = some actual)
      (hash : c.pendingPhoneCodeHashEncrypted = none) (expiry : c.pendingExpiresAt = none)
      (password : c.passwordRequired = false)
  | neither (state : c.inUse = false) (blank : c.hasMaterial = false)
      (principal : c.telegramUserId = none)

/-- The columns of a row are those of its state. -/
def ColumnsOfState (c : TelegramConnection) : Prop :=
  match c.state with
  | .pending =>
      truthy c.sessionEncrypted ∧ truthy c.apiIdEncrypted ∧ truthy c.apiHashEncrypted ∧
        truthy c.phoneEncrypted ∧ truthy c.pendingPhoneCodeHashEncrypted ∧
        c.pendingExpiresAt.isSome ∧ c.telegramUserId = none
  | .connected =>
      truthy c.sessionEncrypted ∧ truthy c.apiIdEncrypted ∧ truthy c.apiHashEncrypted ∧
        truthy c.phoneEncrypted ∧ (∃ actual ≠ 0, c.telegramUserId = some actual) ∧
        c.pendingPhoneCodeHashEncrypted = none ∧ c.pendingExpiresAt = none ∧
        c.passwordRequired = false
  | _ =>
      ¬ truthy c.sessionEncrypted ∧ ¬ truthy c.apiIdEncrypted ∧ ¬ truthy c.apiHashEncrypted ∧
        ¬ truthy c.phoneEncrypted ∧ ¬ truthy c.pendingPhoneCodeHashEncrypted ∧
        c.pendingExpiresAt = none ∧ c.passwordRequired = false ∧ c.telegramUserId = none

/-! ## What a well-formed row says -/

section Rows

variable {vault : Vault} {c : TelegramConnection} {userId : UserId} {purpose : String}
  {plain : String → Prop} {value : Option Secret}

theorem Sealed.truthy (hVault : vault.Lawful) (h : Sealed vault userId purpose plain value) :
    truthy value = true := by
  obtain ⟨nonce, plaintext, -, rfl⟩ := h
  unfold SavedOrganizer.truthy
  rw [Option.any_some, bne_iff_ne]
  exact hVault.encrypt_ne _ _ _

theorem Sealed.opened (hVault : vault.Lawful) (h : Sealed vault userId purpose plain value) :
    ∃ plaintext, plain plaintext ∧ vault.openSecret userId purpose value = some plaintext := by
  obtain ⟨nonce, plaintext, hPlain, rfl⟩ := h
  refine ⟨plaintext, hPlain, ?_⟩
  unfold Vault.openSecret
  rw [Option.bind_some, hVault.decrypt_encrypt]

theorem Sealed.isSome (hVault : vault.Lawful) (h : Sealed vault userId purpose plain value) :
    (vault.openSecret userId purpose value).isSome = true := by
  obtain ⟨plaintext, -, hOpen⟩ := h.opened hVault
  rw [hOpen]
  rfl

theorem Secrets.opens (hVault : vault.Lawful) (h : Secrets vault c) : vault.opens c = true := by
  obtain ⟨_, ⟨n, hPositive, rfl⟩, hId⟩ := h.apiId.opened hVault
  obtain ⟨hash, hLength, hHash⟩ := h.apiHash.opened hVault
  have hNot : ¬ n ≤ 0 := Int.not_le.mpr hPositive
  unfold Vault.opens Vault.openApiCredentials
  rw [h.session.isSome hVault, hId, Option.bind_some, hHash, Option.bind_some,
    hVault.readInt_toString n hPositive, Option.bind_some]
  simp [hNot, show hash.length = 32 from hLength]

theorem hasMaterial_eq_false : c.hasMaterial = false ↔
    (∀ actual ≠ 0, c.telegramUserId ≠ some actual) ∧ truthy c.sessionEncrypted = false ∧
      truthy c.apiIdEncrypted = false ∧ truthy c.apiHashEncrypted = false ∧
      truthy c.phoneEncrypted = false ∧ truthy c.pendingPhoneCodeHashEncrypted = false ∧
      c.pendingExpiresAt = none ∧ c.passwordRequired = false := by
  have hPrincipal : c.telegramUserId.any (· != 0) = false ↔
      ∀ actual ≠ 0, c.telegramUserId ≠ some actual := by
    cases c.telegramUserId with
    | none => simp
    | some p =>
        rw [Option.any_some, bne_eq_false_iff_eq]
        constructor
        · rintro rfl actual hActual hEq
          exact hActual (Option.some.inj hEq).symm
        · intro h
          by_contra hp
          exact h p hp rfl
  unfold TelegramConnection.hasMaterial
  simp only [Bool.or_eq_false_iff, hPrincipal, and_assoc, Option.isSome_eq_false_iff,
    Option.isNone_iff_eq_none]

theorem WellFormed.columns (hVault : vault.Lawful) (h : WellFormed vault c) :
    ColumnsOfState c := by
  unfold ColumnsOfState
  cases h with
  | pending hState hSecrets hHash hExpiry hPrincipal =>
      rw [hState]
      exact ⟨hSecrets.session.truthy hVault, hSecrets.apiId.truthy hVault,
        hSecrets.apiHash.truthy hVault, hSecrets.phone.truthy hVault, hHash.truthy hVault,
        hExpiry, hPrincipal⟩
  | connected hState hSecrets hPrincipal hHash hExpiry hPassword =>
      obtain ⟨actual, hPositive, hActual⟩ := hPrincipal
      rw [hState]
      exact ⟨hSecrets.session.truthy hVault, hSecrets.apiId.truthy hVault,
        hSecrets.apiHash.truthy hVault, hSecrets.phone.truthy hVault,
        ⟨actual, Int.ne_of_gt hPositive, hActual⟩, hHash, hExpiry, hPassword⟩
  | neither hState hBlank hPrincipal =>
      obtain ⟨-, hSession, hId, hHash, hPhone, hCode, hExpiry, hPassword⟩ :=
        hasMaterial_eq_false.mp hBlank
      unfold TelegramConnection.inUse at hState
      split
      · rename_i hPending
        rw [hPending] at hState
        cases hState
      · rename_i hConnected
        rw [hConnected] at hState
        cases hState
      · simp only [hSession, hId, hHash, hPhone, hCode, Bool.false_eq_true, not_false_eq_true,
          true_and]
        exact ⟨hExpiry, hPassword, hPrincipal⟩

theorem WellFormed.consistent (hVault : vault.Lawful) (h : WellFormed vault c)
    (hUse : c.inUse = true) : c.consistent = true := by
  unfold TelegramConnection.consistent
  cases h with
  | pending hState hSecrets hHash hExpiry hPrincipal =>
      rw [hSecrets.session.truthy hVault, hSecrets.apiId.truthy hVault,
        hSecrets.apiHash.truthy hVault, hSecrets.phone.truthy hVault, hState,
        hHash.truthy hVault, hExpiry, hPrincipal]
      rfl
  | connected hState hSecrets hPrincipal hHash hExpiry hPassword =>
      obtain ⟨actual, hPositive, hActual⟩ := hPrincipal
      rw [hSecrets.session.truthy hVault, hSecrets.apiId.truthy hVault,
        hSecrets.apiHash.truthy hVault, hSecrets.phone.truthy hVault, hState, hHash, hExpiry,
        hPassword, hActual]
      simpa [SavedOrganizer.truthy] using Int.ne_of_gt hPositive
  | neither hState hBlank =>
      rw [hState] at hUse
      cases hUse

/-- A row in use has its secrets. -/
theorem WellFormed.secrets (h : WellFormed vault c) (hUse : c.inUse = true) :
    Secrets vault c := by
  cases h with
  | pending hState hSecrets => exact hSecrets
  | connected hState hSecrets => exact hSecrets
  | neither hState hBlank =>
      rw [hState] at hUse
      cases hUse

theorem WellFormed.opensAll (hVault : vault.Lawful) (h : WellFormed vault c)
    (hUse : c.inUse = true) : vault.opensAll c = true := by
  have hSecrets := h.secrets hUse
  unfold Vault.opensAll
  rw [hSecrets.opens hVault, hSecrets.phone.isSome hVault]
  cases h with
  | pending hState _ hHash => rw [hHash.isSome hVault]; simp
  | connected hState => rw [hState]; rfl
  | neither hState =>
      rw [hState] at hUse
      cases hUse

/-- `start` opens the row it finds. -/
theorem WellFormed.startsFrom (hVault : vault.Lawful) (h : WellFormed vault c) :
    startsFrom vault c = true := by
  unfold SavedOrganizer.startsFrom
  by_cases hUse : c.inUse = true
  · rw [if_pos hUse, (h.secrets hUse).session.isSome hVault, Bool.or_true]
  · rw [if_neg hUse]
    cases h with
    | pending hState => exact absurd (by simp [TelegramConnection.inUse, hState]) hUse
    | connected hState => exact absurd (by simp [TelegramConnection.inUse, hState]) hUse
    | neither hState hBlank => rw [hBlank]; rfl

/-! ## The values that are written -/

theorem wellFormed_created : WellFormed vault (.created userId) := .neither rfl rfl rfl

theorem wellFormed_invalidate {state : ConnectionState} (hState : state = .disconnected ∨ state = .error) :
    WellFormed vault (c.invalidate state) := by
  rcases hState with rfl | rfl <;> exact .neither rfl rfl rfl

theorem wellFormed_eraseExpiredChallenge : WellFormed vault c.eraseExpiredChallenge :=
  .neither rfl rfl rfl

/-- The challenge columns it leaves are empty in a connected row. -/
theorem wellFormed_rejectIdentity (h : WellFormed vault c) (hState : c.state = .connected) :
    WellFormed vault c.rejectIdentity := by
  cases h with
  | pending hPending =>
      rw [hPending] at hState
      cases hState
  | connected _ _ _ hHash hExpiry hPassword =>
      refine .neither rfl ?_ rfl
      simp [TelegramConnection.hasMaterial, TelegramConnection.rejectIdentity, hHash, hExpiry,
        hPassword, truthy]
  | neither hUse => simp [TelegramConnection.inUse, hState] at hUse

/-- The row has a new session and otherwise the same secrets. -/
theorem Secrets.withSession {c' : TelegramConnection} (h : Secrets vault c)
    (hSession : Sealed vault c.userId "session" AnyText c'.sessionEncrypted)
    (hUser : c'.userId = c.userId) (hId : c'.apiIdEncrypted = c.apiIdEncrypted)
    (hHash : c'.apiHashEncrypted = c.apiHashEncrypted)
    (hPhone : c'.phoneEncrypted = c.phoneEncrypted) : Secrets vault c' := by
  constructor
  · rw [hUser]
    exact hSession
  · rw [hUser, hId]
    exact h.apiId
  · rw [hUser, hHash]
    exact h.apiHash
  · rw [hUser, hPhone]
    exact h.phone

theorem wellFormed_session {session : Option Secret} (h : WellFormed vault c)
    (hUse : c.inUse = true) (hSession : Sealed vault c.userId "session" AnyText session) :
    WellFormed vault { c with sessionEncrypted := session } := by
  cases h with
  | pending hState hSecrets hHash hExpiry hPrincipal =>
      exact .pending hState (hSecrets.withSession hSession rfl rfl rfl rfl) hHash hExpiry
        hPrincipal
  | connected hState hSecrets hPrincipal hHash hExpiry hPassword =>
      exact .connected hState (hSecrets.withSession hSession rfl rfl rfl rfl) hPrincipal hHash
        hExpiry hPassword
  | neither hState =>
      rw [hState] at hUse
      cases hUse

end Rows

/-! ## The transactions -/

def RowsWellFormed (vault : Vault) (db : Database) : Prop :=
  ∀ c ∈ db.connections, WellFormed vault c

/-- The account of a client, if it has one, is a positive number. -/
def ClientIdentity.positive : ClientIdentity → Prop
  | .id actual => 0 < actual
  | _ => True

def PositiveIdentity (identity : Option TelegramId) : Prop :=
  ∀ actual, identity = some actual → 0 < actual

section Statements

variable {vault : Vault} {db db' : Database} {now : Instant} {lease : ScanLease}
  {userId : UserId} {c : TelegramConnection}

theorem rows_update (h : RowsWellFormed vault db) {p : TelegramConnection → Bool}
    {f : TelegramConnection → TelegramConnection} (hSame : db'.connections = db.connections)
    (hSelected : ∀ c ∈ db.connections, p c = true → WellFormed vault (f c))
    (hKey : ∀ c, (f c).userId = c.userId := by intro _; exact Eq.trans rfl rfl) :
    RowsWellFormed vault (db'.updateConnections p f hKey) := by
  intro c hc
  rw [Database.updateConnections_connections, hSame] at hc
  obtain ⟨r, hr, rfl⟩ := (@Table.mem_update _ _ _ db.connections p f hKey c).mp hc
  split
  · rename_i hp
    exact hSelected r hr hp
  · exact h r hr

/-- The ORM writes the user's row back. -/
theorem rows_updateConnection (h : RowsWellFormed vault db)
    {f : TelegramConnection → TelegramConnection} (hSame : db'.connections = db.connections)
    (hRow : ∀ c, db.connections.find? userId = some c → WellFormed vault (f c))
    (hKey : ∀ c, (f c).userId = c.userId := by intro _; exact Eq.trans rfl rfl) :
    RowsWellFormed vault (db'.updateConnection userId f hKey) := by
  refine rows_update h hSame ?_ hKey
  intro c hMem hUser
  exact hRow c (Table.find?_eq_some.mpr ⟨hMem, by simpa using hUser⟩)

theorem rows_invalidate (h : RowsWellFormed vault db) {state : ConnectionState}
    (hSame : db'.connections = db.connections) (hState : state = .disconnected ∨ state = .error) :
    RowsWellFormed vault (db'.updateConnection userId (TelegramConnection.invalidate state)) :=
  rows_updateConnection h hSame fun _ _ => wellFormed_invalidate hState

theorem RowsWellFormed.of_find? (h : RowsWellFormed vault db)
    (hRow : db.connections.find? userId = some c) : WellFormed vault c :=
  h c (Table.mem_of_find? hRow)

/-- A new session for a connected row. -/
theorem rows_session (h : RowsWellFormed vault db) {session : ClientSession}
    (hUse : ∀ c, db.connections.find? userId = some c → c.inUse = true) :
    RowsWellFormed vault (db.updateConnection userId fun row =>
      { row with sessionEncrypted := some (vault.sealSession userId session) }) := by
  refine rows_updateConnection h rfl fun c hRow => ?_
  have hUser : c.userId = userId := Table.key_of_find? hRow
  exact wellFormed_session (h.of_find? hRow) (hUse c hRow) (hUser ▸ sealed_sealSession)

theorem rows_worker {env : Env} {op : WorkerOp} (h : RowsWellFormed env.vault db) :
    RowsWellFormed env.vault (op.apply env now lease db) := by
  cases op with
  | renew => exact h
  | persist page delay =>
      simp only [WorkerOp.apply, RowsWellFormed]
      rw [persistScanPage_connections]
      exact h
  | refreshSession session delay =>
      simp only [WorkerOp.apply, persistRefreshedSession]
      split
      · exact h
      split
      · exact h
      split
      · exact h
      · refine rows_update h rfl fun c hc hSelected => ?_
        have hConnected : (c.userId = lease.userId ∧ lease.bound c = true) ∧
            c.state = .connected := by
          simpa [ScanLease.connected, and_assoc] using hSelected
        have hUse : c.inUse = true := by
          simp [TelegramConnection.inUse, hConnected.2]
        exact wellFormed_session (h c hc) hUse
          (hConnected.1.1 ▸ sealed_sealSession)
  | requeue =>
      simp only [WorkerOp.apply, RowsWellFormed]
      rw [requeueScanJob_connections]
      exact h
  | release =>
      simp only [WorkerOp.apply, RowsWellFormed]
      rw [releaseInterruptedScan_connections]
      exact h
  | finalize state error reason =>
      simp only [WorkerOp.apply, RowsWellFormed]
      rw [finalizeScanJob_connections]
      exact h
  | downgrade =>
      simp only [WorkerOp.apply, downgradeConnection]
      split
      · exact h
      · exact rows_invalidate h rfl (Or.inl rfl)
  | openConnection =>
      simp only [WorkerOp.apply, openConnection]
      split
      · exact h
      split
      · exact h
      split
      · exact h
      · exact rows_invalidate h rfl (Or.inr rfl)

theorem rows_authStatus (h : RowsWellFormed vault db) :
    RowsWellFormed vault (authStatus vault now userId db).1 := by
  have hCorrupt : RowsWellFormed vault (invalidateCorruptConnection now userId db) :=
    rows_invalidate h rfl (Or.inr rfl)
  unfold authStatus
  split
  · exact h
  split
  · dsimp only
    split
    · exact hCorrupt
    · exact h
  split
  · exact hCorrupt
  split
  · exact rows_updateConnection h rfl fun _ _ => wellFormed_eraseExpiredChallenge
  split
  · exact hCorrupt
  · exact h

/-- Binding sets a principal and at most a new generation. -/
theorem bindAuthorizedPrincipal_eq_some {identity : Option TelegramId} {row : TelegramConnection}
    {cancels : Bool} (h : bindAuthorizedPrincipal identity db c = some (row, cancels)) :
    ∃ actual generation, identity = some actual ∧
      row = { c with telegramUserId := some actual, generation := generation } := by
  unfold bindAuthorizedPrincipal at h
  split at h
  · cases h
  split at h
  · cases h
  · cases h
    exact ⟨_, _, rfl, rfl⟩

theorem rows_verifyTelegram {nonce : Nat} {client : VerifyClient}
    (h : RowsWellFormed vault db)
    (hIdentity : ∀ identity session, client = .signedIn true identity session →
      PositiveIdentity identity) :
    RowsWellFormed vault (verifyTelegram vault now userId nonce client db) := by
  unfold verifyTelegram
  split
  · exact h
  rename_i c hRow
  have hc := h.of_find? hRow
  obtain rfl : c.userId = userId := Table.key_of_find? hRow
  have hSealed (session : String) : Sealed vault c.userId "session" AnyText
      (some (vault.encrypt nonce session (secretContext c.userId "session"))) :=
    ⟨nonce, session, trivial, rfl⟩
  have hIt {c' : TelegramConnection} (hRow' : db.connections.find? c.userId = some c') :
      c' = c := Option.some.inj (hRow'.symm.trans hRow)
  split
  · exact h
  split
  · exact h
  split
  · exact h
  rename_i hNotPending
  have hPending : c.state = .pending := by simpa using hNotPending
  have hUse : c.inUse = true := by simp [TelegramConnection.inUse, hPending]
  split
  · exact rows_updateConnection h rfl fun _ _ => wellFormed_eraseExpiredChallenge
  split
  · exact h
  · exact rows_invalidate h rfl (Or.inr rfl)
  · dsimp only
    cases hc with
    | pending hState hSecrets hHash hExpiry hPrincipal =>
        split
        · exact h
        · refine rows_updateConnection h rfl fun c' hRow' => ?_
          rw [hIt hRow']
          exact .pending rfl (hSecrets.withSession (hSealed _) rfl rfl rfl rfl) hHash hExpiry
            hPrincipal
        · refine rows_updateConnection h rfl fun c' hRow' => ?_
          rw [hIt hRow']
          exact .pending hState (hSecrets.withSession (hSealed _) rfl rfl rfl rfl) hHash hExpiry
            hPrincipal
        · rename_i identity session
          split
          · exact h
          · rename_i bound cancels hBind
            obtain ⟨actual, generation, rfl, rfl⟩ := bindAuthorizedPrincipal_eq_some hBind
            refine rows_updateConnection h (by cases cancels <;> rfl) fun c' hRow' => ?_
            rw [hIt hRow']
            exact .connected rfl (hSecrets.withSession (hSealed _) rfl rfl rfl rfl)
              ⟨actual, hIdentity _ _ rfl actual rfl, rfl⟩ rfl rfl rfl
    | connected hState =>
        rw [hState] at hPending
        cases hPending
    | neither hState =>
        rw [hState] at hUse
        cases hUse

theorem rows_deleteSavedMessages {telegramUserId : TelegramId} {generation : Nat}
    {client : ClientIdentity} {session : ClientSession} (h : RowsWellFormed vault db) :
    RowsWellFormed vault
      (deleteSavedMessages vault now userId telegramUserId generation client session db) := by
  have hInvalid : RowsWellFormed vault (invalidateAuthorization now userId db) :=
    rows_invalidate h rfl (Or.inl rfl)
  unfold deleteSavedMessages
  split
  · exact h
  rename_i c hFound
  obtain ⟨hRow, -⟩ := Option.filter_eq_some_iff.mp hFound
  split
  · exact h
  rename_i hUsable
  split
  · exact hInvalid
  split
  · exact h
  · exact hInvalid
  · exact hInvalid
  · split
    · exact hInvalid
    · refine rows_session h fun c' hRow' => ?_
      obtain rfl : c' = c := Option.some.inj (hRow'.symm.trans hRow)
      rw [Bool.or_eq_true, not_or] at hUsable
      have hConnected : c'.state = .connected := by simpa using hUsable.1
      simp [TelegramConnection.inUse, hConnected]

/-- The validation at a scan's start, whether it raises or not. -/
theorem rows_validate {client : ClientIdentity} {session : ClientSession}
    (h : RowsWellFormed vault db) (hClient : client.positive)
    (hEnd : validateAuthorizedConnection vault userId client session db = .error db' ∨
      ∃ c, validateAuthorizedConnection vault userId client session db = .ok (db', c)) :
    RowsWellFormed vault db' := by
  unfold validateAuthorizedConnection at hEnd
  split at hEnd
  · rcases hEnd with hEnd | ⟨c, hEnd⟩ <;> cases hEnd
    exact h
  rename_i c hRow
  have hIt {c' : TelegramConnection} (hRow' : db.connections.find? userId = some c') : c' = c :=
    Option.some.inj (hRow'.symm.trans hRow)
  split at hEnd
  · rcases hEnd with hEnd | ⟨c, hEnd⟩ <;> cases hEnd
    exact h
  rename_i hUsable
  have hConnected : c.state = .connected := by
    rw [Bool.or_eq_true, not_or] at hUsable
    simpa using hUsable.1
  have hReject : RowsWellFormed vault
      (db.updateConnection userId TelegramConnection.rejectIdentity) := by
    refine rows_updateConnection h rfl fun c' hRow' => ?_
    rw [hIt hRow']
    exact wellFormed_rejectIdentity (h.of_find? hRow) hConnected
  split at hEnd
  · rcases hEnd with hEnd | ⟨c, hEnd⟩ <;> cases hEnd
    exact rows_invalidate h rfl (Or.inr rfl)
  split at hEnd
  · rcases hEnd with hEnd | ⟨c, hEnd⟩ <;> cases hEnd
    exact h
  · rcases hEnd with hEnd | ⟨c, hEnd⟩ <;> cases hEnd
    exact rows_invalidate h rfl (Or.inl rfl)
  · rcases hEnd with hEnd | ⟨c, hEnd⟩ <;> cases hEnd
    exact hReject
  rename_i actual
  split at hEnd
  · rcases hEnd with hEnd | ⟨c, hEnd⟩ <;> cases hEnd
    exact hReject
  · rcases hEnd with hEnd | ⟨c', hEnd⟩ <;> cases hEnd
    refine rows_updateConnection h rfl fun c' hRow' => ?_
    rw [hIt hRow']
    have hUser : c.userId = userId := Table.key_of_find? hRow
    cases h.of_find? hRow with
    | pending hState =>
        rw [hState] at hConnected
        cases hConnected
    | connected hState hSecrets _ hHash hExpiry hPassword =>
        have hSealed : Sealed vault c.userId "session" AnyText
            (some (vault.sealSession userId session)) := hUser ▸ sealed_sealSession
        exact .connected hState (hSecrets.withSession hSealed rfl rfl rfl rfl)
          ⟨actual, hClient, rfl⟩ hHash hExpiry hPassword
    | neither hState => simp [TelegramConnection.inUse, hConnected] at hState

theorem rows_createScan {settings : Settings} {pageSize : Nat} {clearExisting : Bool}
    {jobId : JobId} {client : ClientIdentity} {session : ClientSession}
    (h : RowsWellFormed vault db) (hClient : client.positive) :
    RowsWellFormed vault
      (createScan vault settings now userId pageSize clearExisting jobId client session db) := by
  unfold createScan
  split
  · rename_i rejected hRejected
    exact rows_validate h hClient (Or.inl hRejected)
  · rename_i validated c hValidated
    split
    · exact h
    · rename_i telegramUserId _
      dsimp only
      have hRows : RowsWellFormed vault validated :=
        rows_validate h hClient (Or.inr ⟨c, hValidated⟩)
      generalize hCleared : (if clearExisting = true then
        validated.clearMarkers (·.userId == userId) else validated) = cleared
      have hSame : cleared.connections = validated.connections := by
        rw [← hCleared]
        cases clearExisting <;> rfl
      cases hInsert : cleared.insertJob (.queued jobId userId clearExisting pageSize
          telegramUserId c.generation settings.scanMaxMessages settings.scanMaxRuntimeSeconds
          now) with
      | none => exact h
      | some created =>
          obtain ⟨-, jobs, -, rfl⟩ := insertJob_eq_some.mp hInsert
          rw [Option.getD_some]
          show ∀ c ∈ cleared.connections, _
          rw [hSame]
          exact hRows

/-! ### Start -/

/-- The credentials the request schema admits. -/
def StartRequest.credentials (request : StartRequest) : Prop :=
  0 < request.apiId ∧ request.apiHash.length = 32

theorem sealed_sealSecret {request : StartRequest} {plain : String → Prop} {plaintext : String}
    (i : Nat) (purpose : String) (hPlain : plain plaintext) :
    Sealed vault request.userId purpose plain (sealSecret vault request i plaintext purpose) :=
  ⟨request.nonce + i, plaintext, hPlain, rfl⟩

/-- The row a start ends with. Only a session that it found can be authorized. -/
theorem wellFormed_startOutcome {py : Python.Runtime} {request : StartRequest}
    {client : StartClient} {memory : TelegramConnection} {cancels : Bool}
    (h : WellFormed vault c) (hUser : c.userId = request.userId)
    (hRequest : request.credentials)
    (hClient : ∀ identity session, client = .authorized identity session →
      PositiveIdentity identity ∧ c.inUse = true)
    (hOutcome : startOutcome py vault now request client db c = some (memory, cancels)) :
    memory.userId = c.userId ∧ WellFormed vault memory := by
  unfold startOutcome at hOutcome
  split at hOutcome
  · cases hOutcome
  · rename_i identity session
    obtain ⟨hIdentity, hUse⟩ := hClient identity session rfl
    split at hOutcome
    · cases hOutcome
    · obtain ⟨⟨bound, b⟩, hBind, hEq⟩ := Option.map_eq_some_iff.mp hOutcome
      cases hEq
      obtain ⟨actual, generation, rfl, rfl⟩ := bindAuthorizedPrincipal_eq_some hBind
      have hPhone : Sealed vault request.userId "phone" AnyText c.phoneEncrypted :=
        hUser ▸ (h.secrets hUse).phone
      have hSecrets : Secrets vault
          { c with
            userId := request.userId
            apiIdEncrypted := sealSecret vault request 0 (toString request.apiId) "api_id"
            apiHashEncrypted := sealSecret vault request 1 request.apiHash "api_hash"
            sessionEncrypted := sealSecret vault request 2 session "session" } :=
        ⟨sealed_sealSecret 2 "session" trivial,
          sealed_sealSecret 0 "api_id" ⟨request.apiId, hRequest.1, rfl⟩,
          sealed_sealSecret 1 "api_hash" hRequest.2, hPhone⟩
      refine ⟨rfl, .connected rfl ?_ ⟨actual, hIdentity actual rfl, rfl⟩ rfl rfl rfl⟩
      exact hSecrets.withSession hSecrets.session hUser rfl rfl rfl
  · obtain ⟨hash, -, hOutcome⟩ := Option.bind_eq_some_iff.mp hOutcome
    split at hOutcome
    · cases hOutcome
    · cases hOutcome
      refine ⟨rfl, .pending rfl ⟨?_, ?_, ?_, ?_⟩ ?_ rfl rfl⟩
      · exact hUser.symm ▸ sealed_sealSecret 2 "session" trivial
      · exact hUser.symm ▸ sealed_sealSecret 0 "api_id" ⟨request.apiId, hRequest.1, rfl⟩
      · exact hUser.symm ▸ sealed_sealSecret 1 "api_hash" hRequest.2
      · exact hUser.symm ▸ sealed_sealSecret 3 "phone" trivial
      · exact hUser.symm ▸ sealed_sealSecret 4 "phone_code_hash" trivial

theorem rows_finishStart {py : Python.Runtime} {request : StartRequest} {client : StartClient}
    (h : RowsWellFormed vault db) (hRow : db.connections.find? request.userId = some c)
    (hRequest : request.credentials)
    (hClient : ∀ identity session, client = .authorized identity session →
      PositiveIdentity identity ∧ c.inUse = true) :
    RowsWellFormed vault (finishStart py vault now request client c db) := by
  unfold finishStart
  split
  · exact h
  · rename_i memory cancels hOutcome
    obtain ⟨hUser, hMemory⟩ := wellFormed_startOutcome (h.of_find? hRow)
      (Table.key_of_find? hRow) hRequest hClient hOutcome
    refine rows_updateConnection h (by cases cancels <;> rfl) fun c' hRow' => ?_
    obtain rfl : c' = c := Option.some.inj (hRow'.symm.trans hRow)
    rw [flushConnection_self, ← hUser]
    exact hMemory

/-- A start over well-formed rows ends in its first transaction. -/
theorem rows_startTelegram {py : Python.Runtime} {request : StartRequest} {client : StartClient}
    (hVault : vault.Lawful) (h : RowsWellFormed vault db) (hRequest : request.credentials)
    (hClient : ∀ identity session, client = .authorized identity session →
      PositiveIdentity identity ∧
        ∃ c, db.connections.find? request.userId = some c ∧ c.inUse = true) :
    RowsWellFormed vault (startTelegram py vault now request client db).1 ∧
      (startTelegram py vault now request client db).2 = none := by
  unfold startTelegram
  split
  · rename_i hNone
    split
    · exact ⟨h, rfl⟩
    · rename_i connections hInsert
      dsimp only
      split
      · exact ⟨h, rfl⟩
      · obtain ⟨hFree, hTable⟩ := Table.insert?_eq_some.mp hInsert
        have hAdded : RowsWellFormed vault { db with connections := connections } := by
          intro c hc
          have hc : c ∈ connections := hc
          rw [← hTable] at hc
          rcases (Table.mem_insert (Table.find?_eq_none.mp hFree)).mp hc with hc | rfl
          · exact h c hc
          · exact wellFormed_created
        have hFound : connections.find? request.userId = some (.created request.userId) := by
          rw [← hTable, Table.find?_insert]
          exact if_pos rfl
        refine ⟨rows_finishStart hAdded hFound hRequest ?_, rfl⟩
        intro identity session hAuthorized
        obtain ⟨-, c, hRow, -⟩ := hClient identity session hAuthorized
        rw [hNone] at hRow
        cases hRow
  · rename_i c hRow
    rw [if_pos ((h.of_find? hRow).startsFrom hVault)]
    refine ⟨rows_finishStart h hRow hRequest ?_, rfl⟩
    intro identity session hAuthorized
    obtain ⟨hIdentity, c', hRow', hUse⟩ := hClient identity session hAuthorized
    obtain rfl : c' = c := Option.some.inj (hRow'.symm.trans hRow)
    exact ⟨hIdentity, hUse⟩

end Statements

/-! ## Runs -/

/-- What the operations are given: accounts are positive numbers, the credentials have passed
the request schema, and a client that was given no session is not authorized. -/
def Admissible (s : Store) : StoreAction → Prop
  | .startScan _ _ client _ => client.positive
  | .finishScanStart _ _ client _ => client.positive
  | .authStart request client =>
      request.credentials ∧ ∀ identity session, client = .authorized identity session →
        PositiveIdentity identity ∧
          ∃ c, s.db.connections.find? request.userId = some c ∧ c.inUse = true
  | .verify _ _ client => ∀ identity session, client = .signedIn true identity session →
      PositiveIdentity identity
  | _ => True

section Runs

variable {env : Env} {s s' t : Store} {a : StoreAction} {as : List StoreAction}

/-- The rows are well formed and no start is between two transactions. -/
structure Orderly (env : Env) (s : Store) : Prop where
  rows : RowsWellFormed env.vault s.db
  noAuthStarts : s.authStarts = []

theorem rows_step (hVault : env.vault.Lawful) (h : Orderly env s) (hAdmissible : Admissible s a)
    (hStep : s.step env a = some s') : Orderly env s' := by
  have hRows := h.rows
  cases a with
  | tick elapsed =>
      cases hStep
      exact ⟨hRows, h.noAuthStarts⟩
  | claim jobId =>
      cases hStep
      exact ⟨hRows, h.noAuthStarts⟩
  | worker lease op =>
      simp only [Store.step] at hStep
      split at hStep
      · cases hStep
        exact ⟨rows_worker hRows, h.noAuthStarts⟩
      · cases hStep
  | terminalizeExpired =>
      cases hStep
      exact ⟨hRows, h.noAuthStarts⟩
  | startScan start jobId client session =>
      simp only [Store.step] at hStep
      split at hStep
      · cases hStep
      split at hStep
      · cases hStep
        exact h
      · cases hStep
        exact h
      · cases hStep
        exact ⟨hRows, h.noAuthStarts⟩
      · cases hStep
        exact ⟨rows_createScan hRows hAdmissible, h.noAuthStarts⟩
  | finishScanStart start jobId client session =>
      simp only [Store.step] at hStep
      split at hStep
      · cases hStep
        exact ⟨rows_createScan hRows hAdmissible, h.noAuthStarts⟩
      · cases hStep
  | stopScan userId =>
      cases hStep
      exact ⟨hRows, h.noAuthStarts⟩
  | authStatus userId =>
      cases hStep
      exact ⟨rows_authStatus hRows, h.noAuthStarts⟩
  | authStart request client =>
      cases hStep
      obtain ⟨hNew, hEnded⟩ := @rows_startTelegram env.vault s.db s.now env.py request client
        hVault hRows hAdmissible.1 hAdmissible.2
      refine ⟨hNew, ?_⟩
      dsimp only
      rw [hEnded, h.noAuthStarts]
      rfl
  | finishAuthStart i client =>
      obtain ⟨start, hStart, -⟩ := Option.map_eq_some_iff.mp hStep
      rw [h.noAuthStarts] at hStart
      cases hStart
  | verify userId nonce client =>
      cases hStep
      exact ⟨rows_verifyTelegram hRows hAdmissible, h.noAuthStarts⟩
  | disconnect userId =>
      cases hStep
      exact ⟨rows_invalidate hRows rfl (Or.inl rfl), h.noAuthStarts⟩
  | deleteRemote userId telegramUserId generation client session =>
      cases hStep
      exact ⟨rows_deleteSavedMessages hRows, h.noAuthStarts⟩
  | edit edit =>
      cases hStep
      refine ⟨?_, h.noAuthStarts⟩
      show ∀ c ∈ (edit.apply s.db).connections, _
      rw [LibraryEdit.apply_connections]
      exact hRows

/-- A status over well-formed rows erases at most an expired challenge. -/
theorem authStatus_wellFormed {vault : Vault} {db : Database} (hVault : vault.Lawful)
    (h : RowsWellFormed vault db) (now : Instant) (userId : UserId) :
    (authStatus vault now userId db).1 = db ∨
      ∃ c, db.connections.find? userId = some c ∧ c.state = .pending ∧
        c.challengeExpired now = true ∧
        (authStatus vault now userId db).1 =
          db.updateConnection userId TelegramConnection.eraseExpiredChallenge := by
  unfold authStatus
  split
  · exact Or.inl rfl
  rename_i c hRow
  have hc := h.of_find? hRow
  split
  · rename_i hUse
    have hBlank : c.hasMaterial = false := by
      cases hc with
      | pending hState => simp [TelegramConnection.inUse, hState] at hUse
      | connected hState => simp [TelegramConnection.inUse, hState] at hUse
      | neither _ hBlank => exact hBlank
    rw [hBlank]
    exact Or.inl rfl
  rename_i hNotUnused
  have hUse : c.inUse = true := by simpa using hNotUnused
  rw [hc.consistent hVault hUse, hc.opensAll hVault hUse]
  split
  · rename_i hInconsistent
    cases hInconsistent
  split
  · rename_i hExpired
    rw [Bool.and_eq_true, beq_iff_eq] at hExpired
    exact Or.inr ⟨c, hRow, hExpired.1, hExpired.2, rfl⟩
  · exact Or.inl rfl

/-- Every run leaves well-formed rows, and status invalidates none of them. -/
theorem connections_well_formed (hVault : env.vault.Lawful) (hStart : Orderly env s)
    (hRun : run (Store.step env) s as = some t)
    (hAdmissible : ∀ u a v, StepOf (Store.step env) s as u a v → Admissible u a) :
    (∀ c ∈ t.db.connections, ColumnsOfState c) ∧
      ∀ userId, (authStatus env.vault t.now userId t.db).1 = t.db ∨
        ∃ c, t.db.connections.find? userId = some c ∧ c.state = .pending ∧
          c.challengeExpired t.now = true ∧
          (authStatus env.vault t.now userId t.db).1 =
            t.db.updateConnection userId TelegramConnection.eraseExpiredChallenge := by
  have hEnd : Orderly env t := run_induct hStart hRun fun u a v hStep hu =>
    rows_step hVault hu (hAdmissible u a v hStep) hStep.step
  exact ⟨fun c hc => (hEnd.rows c hc).columns hVault,
    authStatus_wellFormed hVault hEnd.rows t.now⟩

end Runs

/-! ### A user who connects and scans -/

/-- Marks what it has encrypted; an id is its decimal digits. -/
def sealingVault : Vault :=
  { encrypt := fun _ plaintext _ => String.ofList ('v' :: plaintext.toList)
    decrypt := fun secret _ => match secret.toList with
      | 'v' :: text => some (String.ofList text)
      | _ => none
    readInt := fun text =>
      if text.toList.all Char.isDigit then some (Nat.ofDigitChars 10 text.toList 0) else none }

theorem sealingVault_lawful : sealingVault.Lawful where
  encrypt_ne nonce plaintext context hEmpty := by
    have hList := congrArg String.toList hEmpty
    simp [sealingVault] at hList
  decrypt_encrypt nonce plaintext context := by simp [sealingVault]
  readInt_toString n hPositive := by
    obtain ⟨k, rfl⟩ := Int.eq_ofNat_of_zero_le (Int.le_of_lt hPositive)
    have hDigits : (toString (k : Int)).toList = Nat.toDigits 10 k := Nat.toList_repr
    have hAll : (Nat.toDigits 10 k).all Char.isDigit = true := by
      rw [List.all_eq_true]
      exact fun c hc => Nat.isDigit_of_mem_toDigits (by decide) (by decide) hc
    simp only [sealingVault, hDigits, hAll, if_true, Nat.ofDigitChars_ten_toDigits]

def sealingEnv : Env := { demoEnv with vault := sealingVault }

def emptyStore : Store :=
  { demoStore with db := { demoDatabase with connections := .empty } }

/-- User 1 asks for a code, enters it and starts a scan. -/
def connectAndScan : List StoreAction :=
  [.authStart (startRequest 0) (.codeRequested (some "hash") "first"),
    .verify 1 10 (.signedIn true (some 300) "second"),
    .startScan ⟨1, 2, false⟩ 1 (.id 300) ⟨20, "third"⟩]

theorem connections_well_formed_connected :
    (∀ c ∈ ((run (Store.step sealingEnv) emptyStore connectAndScan).getD
        emptyStore).db.connections, ColumnsOfState c) ∧
      (((run (Store.step sealingEnv) emptyStore connectAndScan).getD
        emptyStore).db.connections.find? 1).map (·.state) = some .connected := by
  have hOrderly : Orderly sealingEnv emptyStore := ⟨fun c hc => (by cases hc), rfl⟩
  refine ⟨(connections_well_formed sealingVault_lawful hOrderly
    (run_getD (by decide +kernel)) ?_).1, by decide +kernel⟩
  intro u a v hStep
  have hMem := hStep.mem
  simp only [connectAndScan, List.mem_cons, List.not_mem_nil, or_false] at hMem
  rcases hMem with rfl | rfl | rfl
  · exact ⟨⟨by decide, by decide⟩, fun _ _ hAuthorized => by cases hAuthorized⟩
  · intro identity session hSignedIn actual hActual
    cases hSignedIn
    cases hActual
    decide
  · exact (by decide : (0 : TelegramId) < 300)

end SavedOrganizer
