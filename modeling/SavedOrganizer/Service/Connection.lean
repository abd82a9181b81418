import SavedOrganizer.Service.Persist

/-!
# Telegram connections and their invalidation

The transactions outside the authentication workflow that change a connection row: the
validation at a scan's start, the worker's downgrade and erasure, and the invalidation by a
remote deletion. All of them erase the row in the same way (`invalidate`), and most also
cancel the user's active scans (`cancelActiveScans`).

Ciphertexts are opaque: `Vault` stands for `encrypt_secret`, `decrypt_secret` and Python's
`int` on a decrypted text, and nothing is assumed about it. What a Telegram client answers
is an argument of each transaction.
-/

namespace SavedOrganizer

/-- The encryption primitives. `encrypt` takes the random nonce as an argument;
`decrypt` is `none` for `SecretDecryptionError`. -/
structure Vault where
  encrypt : Nat → String → String → Secret
  decrypt : Secret → String → Option String
  /-- `int(..)` of a text, `none` for `ValueError`. -/
  readInt : String → Option Int

/-- The context that binds a ciphertext to a user and a purpose. -/
def secretContext (userId : UserId) (purpose : String) : String :=
  "telegram:" ++ toString userId ++ ":" ++ purpose

namespace Vault

variable (vault : Vault)

/-- `decrypt_secret` of a column; `None` raises as well. -/
def openSecret (userId : UserId) (purpose : String) (value : Option Secret) : Option String :=
  value.bind fun secret => vault.decrypt secret (secretContext userId purpose)

/-- `decrypt_telegram_api_credentials`. -/
def openApiCredentials (connection : TelegramConnection) : Option (Int × String) :=
  (vault.openSecret connection.userId "api_id" connection.apiIdEncrypted).bind fun apiIdRaw =>
    (vault.openSecret connection.userId "api_hash" connection.apiHashEncrypted).bind fun apiHash =>
      (vault.readInt apiIdRaw).bind fun apiId =>
        if apiId ≤ 0 || apiHash.length != 32 then none else some (apiId, apiHash)

/-- The session and the credentials of a connection can be opened. -/
def opens (connection : TelegramConnection) : Bool :=
  (vault.openSecret connection.userId "session" connection.sessionEncrypted).isSome &&
    (vault.openApiCredentials connection).isSome

end Vault

/-- What `client.session.save()` returns, with the nonce its encryption draws. -/
structure ClientSession where
  nonce : Nat
  text : String
  deriving DecidableEq, Repr

/-- `encrypt_secret` of a session. -/
def Vault.sealSession (vault : Vault) (userId : UserId) (session : ClientSession) : Secret :=
  vault.encrypt session.nonce session.text (secretContext userId "session")

/-! ## Values of the updates -/

namespace TelegramConnection

/-- The row `start` adds for a user without one. -/
def created (userId : UserId) : TelegramConnection :=
  { userId := userId
    telegramUserId := none
    apiIdEncrypted := none
    apiHashEncrypted := none
    phoneEncrypted := none
    sessionEncrypted := none
    state := .disconnected
    pendingPhoneCodeHashEncrypted := none
    pendingExpiresAt := none
    passwordRequired := false
    generation := 0 }

/-- `_clear_challenge`. -/
def clearChallenge (c : TelegramConnection) : TelegramConnection :=
  { c with
    pendingPhoneCodeHashEncrypted := none
    pendingExpiresAt := none
    passwordRequired := false }

/-- The authorization is erased under a new generation. -/
def invalidate (state : ConnectionState) (c : TelegramConnection) : TelegramConnection :=
  { c with
    state := state
    telegramUserId := none
    generation := c.generation + 1
    apiIdEncrypted := none
    apiHashEncrypted := none
    phoneEncrypted := none
    sessionEncrypted := none
    passwordRequired := false
    pendingPhoneCodeHashEncrypted := none
    pendingExpiresAt := none }

theorem invalidate_userId (state : ConnectionState) (c : TelegramConnection) :
    (c.invalidate state).userId = c.userId := rfl

/-- As `invalidate`, but the challenge columns are not touched. -/
def rejectIdentity (c : TelegramConnection) : TelegramConnection :=
  { c with
    state := .error
    telegramUserId := none
    generation := c.generation + 1
    apiIdEncrypted := none
    apiHashEncrypted := none
    phoneEncrypted := none
    sessionEncrypted := none }

/-- `_erase_expired_challenge`: the generation stays. -/
def eraseExpiredChallenge (c : TelegramConnection) : TelegramConnection :=
  { c with
    pendingPhoneCodeHashEncrypted := none
    pendingExpiresAt := none
    passwordRequired := false
    apiIdEncrypted := none
    apiHashEncrypted := none
    phoneEncrypted := none
    sessionEncrypted := none
    telegramUserId := none
    state := .disconnected }

theorem keepSession_userId (session : Secret) (c : TelegramConnection) :
    { c with sessionEncrypted := some session }.userId = c.userId := rfl

end TelegramConnection

namespace Database

/-- The ORM writes one connection row back. -/
def updateConnection (db : Database) (userId : UserId)
    (f : TelegramConnection → TelegramConnection)
    (hKey : ∀ c, (f c).userId = c.userId := by intro _; exact Eq.trans rfl rfl) : Database :=
  db.updateConnections (·.userId == userId) f hKey

/-- `_cancel_active_scans`, and the same two statements elsewhere. -/
def cancelActiveScans (db : Database) (now : Instant) (userId : UserId) : Database :=
  let cleared := db.clearMarkers fun m => m.userId == userId &&
    db.markedBy (·.activeOf userId) m
  cleared.updateJobs (·.activeOf userId) (ScanJob.cancelDisconnected now)

end Database

/-! ## The worker -/

/-- The jobs `_downgrade_connection` cancels. -/
def ScanLease.downgrades (lease : ScanLease) (job : ScanJob) : Bool :=
  job.userId == lease.userId && job.telegramUserId == some lease.telegramUserId &&
    job.connectionGeneration == some lease.connectionGeneration && job.state.active

/-- `_downgrade_connection`. -/
def downgradeConnection (now : Instant) (lease : ScanLease) (db : Database) : Database :=
  if ((db.connections.find? lease.userId).filter lease.bound).isNone then db
  else
    let cleared := db.clearMarkers fun m => m.userId == lease.userId &&
      db.markedBy lease.downgrades m
    (cleared.updateJobs lease.downgrades (ScanJob.cancelDisconnected now)).updateConnection
      lease.userId (TelegramConnection.invalidate .disconnected)

/-- What a slice finds when it opens its connection. -/
inductive OpenedConnection
  | notConnected
  /-- `SecretDecryptionError`; the row is erased. -/
  | undecryptable
  | opened
  deriving DecidableEq, Repr

/-- The first transaction of `_execute_claimed_scan`. -/
def openConnection (vault : Vault) (lease : ScanLease) (db : Database) :
    Database × OpenedConnection :=
  match (db.connections.find? lease.userId).filter lease.bound with
  | none => (db, .notConnected)
  | some c =>
      if c.state != .connected || !truthy c.sessionEncrypted then (db, .notConnected)
      else if vault.opens c then (db, .opened)
      else (db.updateConnection lease.userId (TelegramConnection.invalidate .error),
        .undecryptable)

/-- `_persist_refreshed_session`. -/
def persistRefreshedSession (vault : Vault) (now fenceNow : Instant) (lease : ScanLease)
    (session : ClientSession) (db : Database) : Except PersistError Database :=
  if (db.boundConnection lease).isNone then .error .leaseLost
  else if (db.heldJob lease now).isNone then .error .leaseLost
  else if (db.heldJob lease fenceNow).isNone then .error .leaseLost
  else
    let sealed := vault.sealSession lease.userId session
    .ok (db.updateConnections (fun c => c.userId == lease.userId && lease.connected c)
      (fun c => { c with sessionEncrypted := some sealed })
      (TelegramConnection.keepSession_userId sealed))

/-! ## Scan start -/

/-- What the Telegram client of `_validate_authorized_connection` answers. -/
inductive ClientIdentity
  /-- Connecting or asking raises. -/
  | unreachable
  | unauthorized
  /-- `get_me()` gives no integer id. -/
  | withoutId
  | id (telegramUserId : TelegramId)
  deriving DecidableEq, Repr

/-- `_validate_authorized_connection`: the database if it raises (after a commit or a
rollback), or the uncommitted changes and the validated row. -/
def validateAuthorizedConnection (vault : Vault) (userId : UserId) (client : ClientIdentity)
    (session : ClientSession) (db : Database) : Except Database (Database × TelegramConnection) :=
  match db.connections.find? userId with
  | none => .error db
  | some c =>
      if c.state != .connected || !truthy c.sessionEncrypted then .error db
      else if !vault.opens c then
        .error (db.updateConnection userId (TelegramConnection.invalidate .error))
      else match client with
        | .unreachable => .error db
        | .unauthorized =>
            .error (db.updateConnection userId (TelegramConnection.invalidate .disconnected))
        | .withoutId => .error (db.updateConnection userId TelegramConnection.rejectIdentity)
        | .id actual =>
            if c.telegramUserId.any (· != actual) then
              .error (db.updateConnection userId TelegramConnection.rejectIdentity)
            else
              let validated (row : TelegramConnection) : TelegramConnection :=
                { row with
                  sessionEncrypted := some (vault.sealSession userId session)
                  telegramUserId := some actual
                  generation :=
                    if c.telegramUserId.isNone then row.generation + 1 else row.generation }
              .ok (db.updateConnection userId validated, validated c)

/-! ## Remote deletion -/

/-- `_invalidate_authorization`. -/
def invalidateAuthorization (now : Instant) (userId : UserId) (db : Database) : Database :=
  (db.cancelActiveScans now userId).updateConnection userId
    (TelegramConnection.invalidate .disconnected)

/-- The transaction of `delete_saved_messages`, up to what it does to the connection. A
client that raises, also while it deletes, rolls it back. The rows of the deleted messages
are the caller's. -/
def deleteSavedMessages (vault : Vault) (now : Instant) (userId : UserId)
    (telegramUserId : TelegramId) (generation : Nat) (client : ClientIdentity)
    (session : ClientSession) (db : Database) : Database :=
  match (db.connections.find? userId).filter fun c =>
      c.telegramUserId == some telegramUserId && c.generation == generation with
  | none => db
  | some c =>
      if c.state != .connected || !truthy c.sessionEncrypted then db
      else if !vault.opens c then invalidateAuthorization now userId db
      else match client with
        | .unreachable => db
        | .unauthorized => invalidateAuthorization now userId db
        | .withoutId => invalidateAuthorization now userId db
        | .id actual =>
            if actual != telegramUserId then invalidateAuthorization now userId db
            else
              let sealed := vault.sealSession userId session
              db.updateConnection userId
                (fun row => { row with sessionEncrypted := some sealed })
                (TelegramConnection.keepSession_userId sealed)

/-! ## Disconnecting -/

/-- `revoke_telegram_connection`, without the best-effort logout after its commit. -/
def revokeTelegramConnection (now : Instant) (userId : UserId) (db : Database) : Database :=
  (db.cancelActiveScans now userId).updateConnection userId
    (TelegramConnection.invalidate .disconnected)

end SavedOrganizer
