import SavedOrganizer.Library.RowLock
import SavedOrganizer.Auth.Service

/-!
# The connection row, statement by statement

The calls that read or write the connection row of one user, each SQL statement and each
Telegram call a step of its own: the four requests of the authentication workflow, and the
transactions of a scan worker on the row. The values that are written are those of
`Auth.Service` and `Service.Connection`.

`status` and the opening of a scan read without `FOR UPDATE`. What they decide to write they
write by primary key, over whatever the row is by then. The other calls have the row locked
from their first statement to their commit, but a `start` that finds a row it cannot open
commits an invalidation on the way and goes on without the lock.

Statements on other tables are left out; where one of them fails, or the process dies, the
call raises and its transaction is rolled back.
-/

namespace SavedOrganizer

abbrev CallId := Nat

abbrev ConnectionRow := LockedRow CallId TelegramConnection

/-! ## What a request decides on the row it has read -/

inductive StatusStep
  | answers (state : AuthState)
  /-- The challenge has expired. -/
  | erases
  /-- The row is inconsistent or cannot be opened. -/
  | invalidates
  deriving DecidableEq, Repr

def statusStep (vault : Vault) (now : Instant) (c : TelegramConnection) : StatusStep :=
  if !c.inUse then (if c.hasMaterial then .invalidates else .answers .disconnected)
  else if !c.consistent then .invalidates
  else if c.state == .pending && c.challengeExpired now then .erases
  else if !vault.opensAll c then .invalidates
  else .answers (responseState c)

inductive VerifyStep
  /-- The request raises and nothing is written. -/
  | refused
  | connected
  | expired
  | corrupt
  | signsIn
  deriving DecidableEq, Repr

def verifyStep (vault : Vault) (now : Instant) (c : TelegramConnection) : VerifyStep :=
  if !truthy c.sessionEncrypted then .refused
  else if c.state == .connected then .connected
  else if c.state != .pending then .refused
  else if c.challengeExpired now then .expired
  else match vault.opensChallenge c with
    | none => .refused
    | some false => .corrupt
    | some true => .signsIn

/-- The row in memory at the end of `verify`, and whether the active scans are cancelled.
`others` has the rows of the other users. -/
def verifyOutcome (vault : Vault) (nonce : Nat) (client : VerifyClient) (others : Database)
    (c : TelegramConnection) : Option (TelegramConnection × Bool) :=
  let saved (session : String) : Option Secret :=
    some (vault.encrypt nonce session (secretContext c.userId "session"))
  match client with
  | .raises => none
  | .passwordNeeded session =>
      some ({ c with
        state := .pending
        passwordRequired := true
        sessionEncrypted := saved session }, false)
  | .signedIn false _ session => some ({ c with sessionEncrypted := saved session }, false)
  | .signedIn true identity session =>
      (bindAuthorizedPrincipal identity others c).map fun (bound, cancels) =>
        ({ bound.clearChallenge with
          state := .connected
          sessionEncrypted := saved session }, cancels)

/-! ## The calls -/

inductive CallOutcome
  | state (state : AuthState)
  | raised
  /-- A worker's transaction, or `disconnect`, is over. -/
  | done
  deriving DecidableEq, Repr

inductive ConnectionCall
  | status
  | start (request : StartRequest)
  | verify (nonce : Nat)
  | disconnect
  /-- The first transaction of `_execute_claimed_scan`. -/
  | openScan (lease : ScanLease)
  | persistPage (lease : ScanLease)
  | refreshSession (lease : ScanLease) (session : ClientSession)
  | downgrade (lease : ScanLease)

/-- Whose write it is. A worker's write is under the generation of its lease. -/
inductive WriteOrigin
  | status
  | user
  | worker (generation : Nat)
  /-- The erasure after an undecryptable secret. -/
  | erasure (generation : Nat)
  deriving DecidableEq, Repr

/-- How a call goes on after a commit. -/
inductive AfterCommit
  | returns (outcome : CallOutcome)
  /-- The second transaction of `start`, with the row it has in memory. -/
  | connects (request : StartRequest) (memory : TelegramConnection)

/-- Where a call is. The rows are the ones it has in memory. -/
inductive CallPhase
  | idle
  /-- Before its first statement. -/
  | begun (call : ConnectionCall)
  | statusRead (found : Option TelegramConnection)
  | startRead (request : StartRequest) (found : Option TelegramConnection)
  | connecting (request : StartRequest) (loaded : TelegramConnection)
  | authorizing (request : StartRequest) (loaded : TelegramConnection)
  | identifying (request : StartRequest) (loaded : TelegramConnection)
  | requestingCode (request : StartRequest) (loaded : TelegramConnection)
  | verifyRead (nonce : Nat) (loaded : TelegramConnection)
  | signingIn (nonce : Nat) (loaded : TelegramConnection)
  | verifyAuthorizing (nonce : Nat) (loaded : TelegramConnection)
  | verifyIdentifying (nonce : Nat) (loaded : TelegramConnection)
  /-- A page is persisted while the row is locked. -/
  | persisting (generation : Nat)
  /-- Before the `UPDATE` of the columns that differ. -/
  | writing (origin : WriteOrigin) (loaded memory : TelegramConnection) (after : AfterCommit)
  | committing (origin : WriteOrigin) (after : AfterCommit)
  | returned (outcome : CallOutcome)

/-- What a step is given: an answer of the Telegram client where one is awaited. -/
inductive CallInput
  | proceed
  /-- An exception. -/
  | raise
  | authorized (answer : Bool)
  | identity (telegramUserId : Option TelegramId) (session : String)
  | code (phoneCodeHash : Option String) (session : String)
  | passwordNeeded (session : String)
  | notAuthorized (session : String)

def AfterCommit.phase : AfterCommit → CallPhase
  | returns outcome => .returned outcome
  | connects request memory => .connecting request memory

/-- What the calls depend on besides the row: `others` has the rows of the other users. -/
structure CallEnv where
  py : Python.Runtime
  vault : Vault
  userId : UserId
  others : Database

section Steps

variable (env : CallEnv) (now : Instant) (t : CallId) (row : ConnectionRow)

/-- The session is closed without a commit. -/
def endCall (outcome : CallOutcome) : Option (ConnectionRow × CallPhase) :=
  some (row.rollback t, .returned outcome)

/-- The first statement of a call. -/
def beginCall : ConnectionCall → Option (ConnectionRow × CallPhase)
  | .status => some (row, .statusRead (row.view t))
  | .start request =>
      (row.selectForUpdate t fun _ => true).map fun (row, found) =>
        (row, .startRead request found)
  | .verify nonce =>
      (row.selectForUpdate t fun _ => true).map fun (row, found) =>
        (row, match found with
          | none => .returned .raised
          | some c => .verifyRead nonce c)
  | .disconnect =>
      (row.selectForUpdate t fun _ => true).map fun (row, found) =>
        (row, match found with
          | none => .returned .done
          | some c => .writing .user c (c.invalidate .disconnected) (.returns .done))
  | .openScan lease =>
      match (row.view t).filter lease.bound with
      | none => some (row, .returned .raised)
      | some c =>
          if c.state != .connected || !truthy c.sessionEncrypted then
            some (row, .returned .raised)
          else if env.vault.opens c then some (row, .returned .done)
          else some (row, .writing (.erasure lease.connectionGeneration) c (c.invalidate .error)
            (.returns .raised))
  | .persistPage lease =>
      (row.selectForUpdate t lease.connected).map fun (row, found) =>
        (row, if found.isNone then .returned .raised else .persisting lease.connectionGeneration)
  | .refreshSession lease session =>
      (row.selectForUpdate t lease.connected).map fun (row, found) =>
        (row, match found with
          | none => .returned .raised
          | some c => .writing (.worker lease.connectionGeneration) c
              { c with sessionEncrypted := some (env.vault.sealSession c.userId session) }
              (.returns .done))
  | .downgrade lease =>
      (row.selectForUpdate t lease.bound).map fun (row, found) =>
        (row, match found with
          | none => .returned .done
          | some c => .writing (.worker lease.connectionGeneration) c
              (c.invalidate .disconnected) (.returns .done))

/-- The columns of `memory` that differ are about to be written, or the call raises. -/
def writeOutcome (loaded : TelegramConnection) (after : AfterCommit)
    (memory : Option (TelegramConnection × Bool)) : Option (ConnectionRow × CallPhase) :=
  match memory with
  | none => endCall t row .raised
  | some (memory, _) => some (row, .writing .user loaded memory after)

def advance : CallPhase → CallInput → Option (ConnectionRow × CallPhase)
  | .idle, _ => none
  | .returned _, _ => none
  | _, .raise => endCall t row .raised
  | .begun call, .proceed => beginCall env t row call
  | .statusRead found, .proceed =>
      match found with
      | none => endCall t row (.state .disconnected)
      | some c => match statusStep env.vault now c with
        | .answers state => endCall t row (.state state)
        | .erases => some (row,
            .writing .status c c.eraseExpiredChallenge (.returns (.state .disconnected)))
        | .invalidates => some (row,
            .writing .status c (c.invalidate .error) (.returns (.state .disconnected)))
  | .startRead request found, .proceed =>
      match found with
      | none =>
          (row.insert t (.created env.userId)).bind fun inserted => match inserted with
            | none => endCall t row .raised
            | some row => some (row, .connecting request (.created env.userId))
      | some c =>
          if startsFrom env.vault c then some (row, .connecting request c)
          else some (row, .writing .user c (c.invalidate .error)
            (.connects request (c.invalidate .error)))
  | .connecting request c, .proceed => some (row, .authorizing request c)
  | .authorizing request c, .authorized answer =>
      if !answer then some (row, .requestingCode request c)
      else if phoneMismatch env.py env.vault request c then endCall t row .raised
      else some (row, .identifying request c)
  | .identifying request c, .identity identity session =>
      writeOutcome t row c (.returns (.state .connected))
        (startOutcome env.py env.vault now request (.authorized identity session) env.others c)
  | .requestingCode request c, .code hash session =>
      writeOutcome t row c (.returns (.state .codeRequired))
        (startOutcome env.py env.vault now request (.codeRequested hash session) env.others c)
  | .verifyRead nonce c, .proceed =>
      match verifyStep env.vault now c with
      | .refused => endCall t row .raised
      | .connected => endCall t row (.state .connected)
      | .expired => some (row,
          .writing .user c c.eraseExpiredChallenge (.returns .raised))
      | .corrupt => some (row, .writing .user c (c.invalidate .error) (.returns .raised))
      | .signsIn => some (row, .signingIn nonce c)
  | .signingIn nonce c, .proceed => some (row, .verifyAuthorizing nonce c)
  | .signingIn nonce c, .passwordNeeded session =>
      writeOutcome t row c (.returns (.state .passwordRequired))
        (verifyOutcome env.vault nonce (.passwordNeeded session) env.others c)
  | .verifyAuthorizing nonce c, .proceed => some (row, .verifyIdentifying nonce c)
  | .verifyAuthorizing nonce c, .notAuthorized session =>
      writeOutcome t row c (.returns .raised)
        (verifyOutcome env.vault nonce (.signedIn false none session) env.others c)
  | .verifyIdentifying nonce c, .identity identity session =>
      writeOutcome t row c (.returns (.state .connected))
        (verifyOutcome env.vault nonce (.signedIn true identity session) env.others c)
  | .persisting _, .proceed => some (row.commit t, .returned .done)
  | .writing origin loaded memory after, .proceed =>
      (row.update t (fun _ => true) (flushConnection loaded memory)).map fun (row, _) =>
        (row, .committing origin after)
  | .committing _ after, .proceed => some (row.commit t, after.phase)
  | _, _ => none

end Steps

/-! ## The same transactions in one step -/

section OneStep

variable {vault : Vault} {now : Instant} {userId : UserId} {db : Database}

theorem authStatus_eq : authStatus vault now userId db =
    match db.connections.find? userId with
    | none => (db, .disconnected)
    | some c => match statusStep vault now c with
      | .answers state => (db, state)
      | .erases =>
          (db.updateConnection userId TelegramConnection.eraseExpiredChallenge, .disconnected)
      | .invalidates => (invalidateCorruptConnection now userId db, .disconnected) := by
  unfold authStatus statusStep
  cases db.connections.find? userId with
  | none => rfl
  | some c =>
      dsimp only
      split
      · split <;> rfl
      split
      · rfl
      split
      · rfl
      split <;> rfl

/-- Two updates that agree on the user's row are the same. -/
theorem updateConnection_congr {f g : TelegramConnection → TelegramConnection}
    (hf : ∀ c, (f c).userId = c.userId) (hg : ∀ c, (g c).userId = c.userId)
    (h : ∀ c, db.connections.find? userId = some c → f c = g c) :
    db.updateConnection userId f hf = db.updateConnection userId g hg := by
  have hRows : db.connections.rows.map (fun c => if c.userId == userId then f c else c) =
      db.connections.rows.map (fun c => if c.userId == userId then g c else c) := by
    refine List.map_congr_left fun c hc => ?_
    split
    · rename_i hUser
      exact h c (Table.find?_eq_some.mpr ⟨hc, by simpa using hUser⟩)
    · rfl
  unfold Database.updateConnection Database.updateConnections Table.update
  simp only [hRows]

/-- `verify` writes over the row it has loaded. -/
theorem verifyTelegram_eq {nonce : Nat} {client : VerifyClient} :
    verifyTelegram vault now userId nonce client db =
      match db.connections.find? userId with
      | none => db
      | some c => match verifyStep vault now c with
        | .refused => db
        | .connected => db
        | .expired => db.updateConnection userId TelegramConnection.eraseExpiredChallenge
        | .corrupt => invalidateCorruptConnection now userId db
        | .signsIn => match verifyOutcome vault nonce client db c with
          | none => db
          | some (memory, cancels) =>
              (if cancels then db.cancelActiveScans now userId else db).updateConnection userId
                fun row => { memory with userId := row.userId } := by
  unfold verifyTelegram verifyStep
  cases hRow : db.connections.find? userId with
  | none => rfl
  | some c =>
      obtain rfl : c.userId = userId := Table.key_of_find? hRow
      have hIt {db' : Database} (hSame : db'.connections = db.connections) :
          ∀ c', db'.connections.find? c.userId = some c' → c' = c := by
        intro c' hRow'
        rw [hSame, hRow] at hRow'
        exact (Option.some.inj hRow').symm
      dsimp only
      split
      · rfl
      split
      · rfl
      split
      · rfl
      split
      · rfl
      cases vault.opensChallenge c with
      | none => rfl
      | some opened =>
          cases opened with
          | false => rfl
          | true =>
              cases client with
              | raises => rfl
              | passwordNeeded session =>
                  refine updateConnection_congr _ _ fun c' hRow' => ?_
                  rw [hIt rfl c' hRow']
              | signedIn authorized identity session =>
                  cases authorized with
                  | false =>
                      refine updateConnection_congr _ _ fun c' hRow' => ?_
                      rw [hIt rfl c' hRow']
                  | true =>
                      dsimp only [verifyOutcome]
                      cases bindAuthorizedPrincipal identity db c with
                      | none => rfl
                      | some result =>
                          obtain ⟨bound, cancels⟩ := result
                          refine updateConnection_congr _ _ fun c' hRow' => ?_
                          rfl

end OneStep

end SavedOrganizer
