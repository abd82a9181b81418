import SavedOrganizer.Service.Connection

/-!
# The Telegram authentication workflow

`TelegramAuthService.status`, `start`, `verify` and `disconnect`. Each is one transaction
on the user's connection row with one exception. When `start` finds a row it cannot open it
commits an invalidation, which releases the row lock, and then goes on with the row it
holds in memory: its second transaction (`finishStart`) writes the columns that differ from
that memory, whatever the row holds by then.

What the Telegram client does is an argument (`StartClient`, `VerifyClient`); a client that
raises rolls the transaction back.
-/

namespace SavedOrganizer

open Python

def CHALLENGE_TTL : Nat := seconds 600

/-- `normalize_phone_number`. -/
def normalizePhoneNumber (py : Runtime) (value : Text) : Text :=
  let stripped := strip value
  let digits := stripped.filter Char.isDigit
  if startsWith ['+'] stripped then '+' :: digits
  else if startsWith ['0', '0'] digits then '+' :: digits.drop 2
  else if digits.isEmpty then py.casefold stripped else digits

namespace TelegramConnection

/-- The `any(..)` over the columns that hold authorization material. -/
def hasMaterial (c : TelegramConnection) : Bool :=
  c.telegramUserId.any (· != 0) || truthy c.sessionEncrypted || truthy c.apiIdEncrypted ||
    truthy c.apiHashEncrypted || truthy c.phoneEncrypted ||
    truthy c.pendingPhoneCodeHashEncrypted || c.pendingExpiresAt.isSome || c.passwordRequired

/-- `connection.state in {"pending", "connected"}`. -/
def inUse (c : TelegramConnection) : Bool := c.state == .pending || c.state == .connected

/-- `_challenge_expired`. -/
def challengeExpired (c : TelegramConnection) (now : Instant) : Bool :=
  c.pendingExpiresAt.all (· ≤ now)

/-- The columns a pending or connected row needs are there, and no others. -/
def consistent (c : TelegramConnection) : Bool :=
  truthy c.sessionEncrypted && truthy c.apiIdEncrypted && truthy c.apiHashEncrypted &&
    truthy c.phoneEncrypted &&
    if c.state == .pending then
      truthy c.pendingPhoneCodeHashEncrypted && c.pendingExpiresAt.isSome &&
        c.telegramUserId.isNone
    else
      c.telegramUserId.any (· != 0) && !(truthy c.pendingPhoneCodeHashEncrypted ||
        c.pendingExpiresAt.isSome || c.passwordRequired)

end TelegramConnection

/-- `TelegramConnectionState`. -/
inductive AuthState
  | disconnected | codeRequired | passwordRequired | connected
  deriving DecidableEq, Repr

/-- `_response_state`. -/
def responseState (c : TelegramConnection) : AuthState :=
  match c.state with
  | .connected => .connected
  | .pending => if c.passwordRequired then .passwordRequired else .codeRequired
  | _ => .disconnected

/-- `_invalidate_corrupt_connection`. -/
def invalidateCorruptConnection (now : Instant) (userId : UserId) (db : Database) : Database :=
  (db.cancelActiveScans now userId).updateConnection userId (TelegramConnection.invalidate .error)
    (TelegramConnection.invalidate_userId .error)

/-- The secrets `status` opens. -/
def Vault.opensAll (vault : Vault) (c : TelegramConnection) : Bool :=
  vault.opens c && (vault.openSecret c.userId "phone" c.phoneEncrypted).isSome &&
    (c.state != .pending ||
      (vault.openSecret c.userId "phone_code_hash" c.pendingPhoneCodeHashEncrypted).isSome)

/-- `status`. -/
def authStatus (vault : Vault) (now : Instant) (userId : UserId) (db : Database) :
    Database × AuthState :=
  match db.connections.find? userId with
  | none => (db, .disconnected)
  | some c =>
      if !c.inUse then
        (if c.hasMaterial then invalidateCorruptConnection now userId db else db, .disconnected)
      else if !c.consistent then (invalidateCorruptConnection now userId db, .disconnected)
      else if c.state == .pending && c.challengeExpired now then
        (db.updateConnection userId TelegramConnection.eraseExpiredChallenge, .disconnected)
      else if !vault.opensAll c then (invalidateCorruptConnection now userId db, .disconnected)
      else (db, responseState c)

/-! ## Binding the principal -/

/-- `_bind_authorized_principal`: the row in memory afterwards, and whether the active scans
are cancelled. `none` when it raises: no identity, or one that another user has. -/
def bindAuthorizedPrincipal (identity : Option TelegramId) (db : Database)
    (c : TelegramConnection) : Option (TelegramConnection × Bool) :=
  match identity with
  | none => none
  | some actual =>
      if db.connections.rows.any fun r => r.telegramUserId == some actual && r.userId != c.userId
      then none
      else
        let rebinds := c.telegramUserId != some actual &&
          (c.telegramUserId.isSome || c.state != .pending)
        some ({ c with
          telegramUserId := some actual
          generation := if rebinds then c.generation + 1 else c.generation }, rebinds)

/-! ## Start -/

/-- The arguments of `start`; `nonce` stands for the randomness of its encryptions. -/
structure StartRequest where
  userId : UserId
  apiId : Int
  apiHash : String
  phone : Text
  nonce : Nat

/-- What the client of `start` does. -/
inductive StartClient
  | raises
  /-- The session is authorized; `get_me()` may give no integer id. -/
  | authorized (identity : Option TelegramId) (session : String)
  /-- A code is requested; the answer may lack its hash. -/
  | codeRequested (phoneCodeHash : Option String) (session : String)

/-- The ORM writes the columns of `memory` that differ from what it `loaded`. -/
def flushConnection (loaded memory current : TelegramConnection) : TelegramConnection :=
  { userId := current.userId
    telegramUserId := if memory.telegramUserId = loaded.telegramUserId then
      current.telegramUserId else memory.telegramUserId
    apiIdEncrypted := if memory.apiIdEncrypted = loaded.apiIdEncrypted then
      current.apiIdEncrypted else memory.apiIdEncrypted
    apiHashEncrypted := if memory.apiHashEncrypted = loaded.apiHashEncrypted then
      current.apiHashEncrypted else memory.apiHashEncrypted
    phoneEncrypted := if memory.phoneEncrypted = loaded.phoneEncrypted then
      current.phoneEncrypted else memory.phoneEncrypted
    sessionEncrypted := if memory.sessionEncrypted = loaded.sessionEncrypted then
      current.sessionEncrypted else memory.sessionEncrypted
    state := if memory.state = loaded.state then current.state else memory.state
    pendingPhoneCodeHashEncrypted :=
      if memory.pendingPhoneCodeHashEncrypted = loaded.pendingPhoneCodeHashEncrypted then
        current.pendingPhoneCodeHashEncrypted else memory.pendingPhoneCodeHashEncrypted
    pendingExpiresAt := if memory.pendingExpiresAt = loaded.pendingExpiresAt then
      current.pendingExpiresAt else memory.pendingExpiresAt
    passwordRequired := if memory.passwordRequired = loaded.passwordRequired then
      current.passwordRequired else memory.passwordRequired
    generation := if memory.generation = loaded.generation then
      current.generation else memory.generation }

/-- `start` can open the session of the row. -/
def startsFrom (vault : Vault) (c : TelegramConnection) : Bool :=
  if c.inUse then
    !truthy c.sessionEncrypted ||
      (vault.openSecret c.userId "session" c.sessionEncrypted).isSome
  else !c.hasMaterial

section Start

variable (py : Runtime) (vault : Vault) (now : Instant) (request : StartRequest)

/-- `encrypt_secret` with the `i`-th nonce of the request. -/
def sealSecret (i : Nat) (plaintext purpose : String) : Option Secret :=
  some (vault.encrypt (request.nonce + i) plaintext (secretContext request.userId purpose))

/-- The row with the credentials of the request. -/
def withCredentials (c : TelegramConnection) : TelegramConnection :=
  { c with
    apiIdEncrypted := sealSecret vault request 0 (toString request.apiId) "api_id"
    apiHashEncrypted := sealSecret vault request 1 request.apiHash "api_hash" }

/-- The stored phone is another one than the requested. -/
def phoneMismatch (c : TelegramConnection) : Bool :=
  if truthy c.phoneEncrypted then
    (vault.openSecret c.userId "phone" c.phoneEncrypted).any fun phone =>
      normalizePhoneNumber py phone.toList != normalizePhoneNumber py request.phone
  else false

/-- The row in memory at the end of `start`, and whether the active scans are cancelled.
`none` when it raises. -/
def startOutcome (client : StartClient) (db : Database) (c : TelegramConnection) :
    Option (TelegramConnection × Bool) :=
  match client with
  | .raises => none
  | .authorized identity session =>
      if phoneMismatch py vault request c then none
      else (bindAuthorizedPrincipal identity db (withCredentials vault request c)).map
        fun (bound, cancels) =>
          ({ bound.clearChallenge with
            state := .connected
            sessionEncrypted := sealSecret vault request 2 session "session" }, cancels)
  | .codeRequested phoneCodeHash session =>
      phoneCodeHash.bind fun hash =>
        if hash.isEmpty then none
        else some ({ withCredentials vault request c with
          phoneEncrypted := sealSecret vault request 3
            (String.ofList (normalizePhoneNumber py request.phone)) "phone"
          pendingPhoneCodeHashEncrypted := sealSecret vault request 4 hash "phone_code_hash"
          pendingExpiresAt := some (now + CHALLENGE_TTL)
          passwordRequired := false
          state := .pending
          telegramUserId := none
          generation := c.generation + 1
          sessionEncrypted := sealSecret vault request 2 session "session" }, true)

/-- The part of `start` behind the client: `loaded` is the row as the session knows it. The
transaction writes over the row as it then is. -/
def finishStart (client : StartClient) (loaded : TelegramConnection) (db : Database) :
    Database :=
  match startOutcome py vault now request client db loaded with
  | none => db
  | some (memory, cancels) =>
      (if cancels then db.cancelActiveScans now request.userId else db).updateConnection
        request.userId (flushConnection loaded memory)

/-- `start`, up to the end of its first transaction. A row in memory is returned when that
transaction was the invalidation of a row `start` cannot open. -/
def startTelegram (client : StartClient) (db : Database) :
    Database × Option TelegramConnection :=
  match db.connections.find? request.userId with
  | none =>
      match db.connections.insert? (.created request.userId) with
      | none => (db, none)
      | some connections =>
          let added : Database := { db with connections := connections }
          match startOutcome py vault now request client added (.created request.userId) with
          | none => (db, none)
          | some _ =>
              (finishStart py vault now request client (.created request.userId) added, none)
  | some c =>
      if startsFrom vault c then (finishStart py vault now request client c db, none)
      else (invalidateCorruptConnection now request.userId db, some (c.invalidate .error))

end Start

/-! ## Verify and disconnect -/

/-- What the client of `verify` does. -/
inductive VerifyClient
  | raises
  /-- `SessionPasswordNeededError`. -/
  | passwordNeeded (session : String)
  | signedIn (authorized : Bool) (identity : Option TelegramId) (session : String)

/-- `verify` can open what it needs: `none` when a column is empty, which raises before
anything is written, and `some false` when one cannot be decrypted. -/
def Vault.opensChallenge (vault : Vault) (c : TelegramConnection) : Option Bool :=
  if !truthy c.phoneEncrypted then none
  else if (vault.openSecret c.userId "phone" c.phoneEncrypted).isNone then some false
  else if !truthy c.pendingPhoneCodeHashEncrypted then none
  else if (vault.openSecret c.userId "phone_code_hash" c.pendingPhoneCodeHashEncrypted).isNone
  then some false
  else if (vault.openSecret c.userId "session" c.sessionEncrypted).isNone then some false
  else if !truthy c.apiIdEncrypted then none
  else if (vault.openSecret c.userId "api_id" c.apiIdEncrypted).isNone then some false
  else if !truthy c.apiHashEncrypted then none
  else some (vault.openApiCredentials c).isSome

/-- `verify`. `nonce` stands for the randomness of its encryption. -/
def verifyTelegram (vault : Vault) (now : Instant) (userId : UserId) (nonce : Nat)
    (client : VerifyClient) (db : Database) : Database :=
  match db.connections.find? userId with
  | none => db
  | some c =>
      if !truthy c.sessionEncrypted then db
      else if c.state == .connected then db
      else if c.state != .pending then db
      else if c.challengeExpired now then
        db.updateConnection userId TelegramConnection.eraseExpiredChallenge
      else match vault.opensChallenge c with
        | none => db
        | some false => invalidateCorruptConnection now userId db
        | some true =>
            let saved (session : String) : Option Secret :=
              some (vault.encrypt nonce session (secretContext userId "session"))
            match client with
            | .raises => db
            | .passwordNeeded session => db.updateConnection userId fun row =>
                { row with
                  state := .pending
                  passwordRequired := true
                  sessionEncrypted := saved session }
            | .signedIn false _ session => db.updateConnection userId fun row =>
                { row with sessionEncrypted := saved session }
            | .signedIn true identity session =>
                match bindAuthorizedPrincipal identity db c with
                | none => db
                | some (bound, cancels) =>
                    (if cancels then db.cancelActiveScans now userId else db).updateConnection
                      userId fun row => { bound.clearChallenge with
                        userId := row.userId
                        state := .connected
                        sessionEncrypted := saved session }

/-- `disconnect`. -/
def disconnectTelegram (now : Instant) (userId : UserId) (db : Database) : Database :=
  revokeTelegramConnection now userId db

end SavedOrganizer
