import SavedOrganizer.Auth.Service
import SavedOrganizer.Library.Transition
import SavedOrganizer.Messages.Edits
import SavedOrganizer.Service.Finalize
import SavedOrganizer.Service.Start

/-!
# The store under concurrent transactions

One step of the `Store` is one committed transaction of an API process or of a worker, or
the passing of time. The transactions come in any order and with any arguments; a worker
transaction needs a lease that some claim has issued, so workers may be slow, dead or
replaced without the store knowing.

Owner tokens are fresh: each claim draws the next one. The two starts that take more than
one transaction keep what they hold in memory between them in `scanStarts` and
`authStarts`.
-/

namespace SavedOrganizer

open Python

/-- What the transactions depend on besides the rows. -/
structure Env where
  py : Runtime
  vault : Vault
  settings : Settings

/-- A scan start that has cancelled an abandoned stop and goes on to create its job. -/
structure ScanStart where
  userId : UserId
  pageSize : Nat
  clearExisting : Bool
  deriving DecidableEq, Repr

/-- An authentication start that has invalidated a row it could not open: its request and
the row it holds in memory. -/
structure AuthStart where
  request : StartRequest
  memory : TelegramConnection

structure Store where
  now : Instant
  db : Database
  nextOwner : LeaseOwner
  /-- The leases the claims have issued, the latest first. -/
  leases : List ScanLease
  scanStarts : List ScanStart
  authStarts : List AuthStart

/-- A worker's transaction under its lease. `delay` is the time between the two readings of
the clock in a fenced transaction. -/
inductive WorkerOp
  | renew
  | persist (page : ScanPage) (delay : Nat)
  | refreshSession (session : ClientSession) (delay : Nat)
  | requeue
  | release
  | finalize (state : TerminalState) (error : Option String)
      (completionReason : Option CompletionReason)
  | downgrade
  | openConnection
  deriving DecidableEq

inductive StoreAction
  | tick (elapsed : Nat)
  | claim (jobId : JobId)
  | worker (lease : ScanLease) (op : WorkerOp)
  | terminalizeExpired
  | startScan (start : ScanStart) (jobId : JobId) (client : ClientIdentity) (session : ClientSession)
  | finishScanStart (start : ScanStart) (jobId : JobId) (client : ClientIdentity)
      (session : ClientSession)
  | stopScan (userId : UserId)
  | authStatus (userId : UserId)
  | authStart (request : StartRequest) (client : StartClient)
  /-- The `i`-th start in progress ends. -/
  | finishAuthStart (i : Nat) (client : StartClient)
  | verify (userId : UserId) (nonce : Nat) (client : VerifyClient)
  | disconnect (userId : UserId)
  | deleteRemote (userId : UserId) (telegramUserId : TelegramId) (generation : Nat)
      (client : ClientIdentity) (session : ClientSession)
  | edit (edit : LibraryEdit)

/-- The delay of a transaction that reads the clock twice. -/
def WorkerOp.delay : WorkerOp → Nat
  | persist _ delay => delay
  | refreshSession _ delay => delay
  | _ => 0

/-- A transaction that raises has rolled back. -/
def committed (db : Database) : Except PersistError Database → Database
  | .ok db' => db'
  | .error _ => db

/-- The database after a worker's transaction. -/
def WorkerOp.apply (env : Env) (now : Instant) (lease : ScanLease) (db : Database) :
    WorkerOp → Database
  | renew => (renewScanLease now lease db).1
  | persist page delay => committed db (persistScanPage env.py now (now + delay) lease page db)
  | refreshSession session delay =>
      committed db (persistRefreshedSession env.vault now (now + delay) lease session db)
  | requeue => (requeueScanJob now lease db).1
  | release => (releaseInterruptedScan now lease db).1
  | finalize state error completionReason =>
      (finalizeScanJob now lease state error completionReason db).1
  | downgrade => downgradeConnection now lease db
  | openConnection => (SavedOrganizer.openConnection env.vault lease db).1

namespace Store

/-- The transaction of a scan start that creates the job. -/
def createScan (env : Env) (s : Store) (start : ScanStart) (jobId : JobId)
    (client : ClientIdentity) (session : ClientSession) : Database :=
  SavedOrganizer.createScan env.vault env.settings s.now start.userId start.pageSize
    start.clearExisting jobId client session s.db

/-- `_claim_scan_job` under the next owner token. -/
def claim (s : Store) (jobId : JobId) : Store :=
  let result := claimScanJob s.now s.nextOwner jobId s.db
  { s with
    db := result.1
    nextOwner := s.nextOwner + 1
    leases := result.2.toList ++ s.leases }

def step (env : Env) (s : Store) : StoreAction → Option Store
  | .tick elapsed => some { s with now := s.now + elapsed }
  | .claim jobId => some (s.claim jobId)
  | .worker lease op =>
      if lease ∈ s.leases then
        some { s with now := s.now + op.delay, db := op.apply env s.now lease s.db }
      else none
  | .terminalizeExpired =>
      some { s with db := (terminalizeExpiredStoppingJobs s.now s.db).1 }
  | .startScan start jobId client session =>
      if start.pageSize = 0 then none
      else match startDecision s.now start.userId start.clearExisting s.db with
        | .existing _ => some s
        | .refused => some s
        | .cancelStopped stopped => some { s with
            db := cancelAbandonedStop s.now start.userId stopped s.db
            scanStarts := start :: s.scanStarts }
        | .create => some { s with db := s.createScan env start jobId client session }
  | .finishScanStart start jobId client session =>
      if start ∈ s.scanStarts then
        some { s with
          db := s.createScan env start jobId client session
          scanStarts := s.scanStarts.erase start }
      else none
  | .stopScan userId => some { s with db := SavedOrganizer.stopScan s.now userId s.db }
  | .authStatus userId => some { s with db := (SavedOrganizer.authStatus env.vault s.now userId s.db).1 }
  | .authStart request client =>
      let result := startTelegram env.py env.vault s.now request client s.db
      some { s with
        db := result.1
        authStarts := (result.2.map (⟨request, ·⟩)).toList ++ s.authStarts }
  | .finishAuthStart i client =>
      s.authStarts[i]?.map fun start => { s with
        db := finishStart env.py env.vault s.now start.request client start.memory s.db
        authStarts := s.authStarts.eraseIdx i }
  | .verify userId nonce client =>
      some { s with db := verifyTelegram env.vault s.now userId nonce client s.db }
  | .disconnect userId => some { s with db := disconnectTelegram s.now userId s.db }
  | .deleteRemote userId telegramUserId generation client session =>
      some { s with
        db := deleteSavedMessages env.vault s.now userId telegramUserId generation client
          session s.db }
  | .edit edit => some { s with db := edit.apply s.db }

theorem step_worker {env : Env} {s s' : Store} {lease : ScanLease} {op : WorkerOp} :
    s.step env (.worker lease op) = some s' ↔ lease ∈ s.leases ∧
      s' = { s with now := s.now + op.delay, db := op.apply env s.now lease s.db } := by
  simp only [step, Option.ite_none_right_eq_some, Option.some.injEq, eq_comm (a := s')]

/-- The clock of a run never goes back. -/
theorem now_le {env : Env} {s s' : Store} {a : StoreAction} (h : s.step env a = some s') :
    s.now ≤ s'.now := by
  cases a with
  | tick elapsed =>
      cases h
      exact Nat.le_add_right _ _
  | worker lease op =>
      rw [(step_worker.mp h).2]
      exact Nat.le_add_right _ _
  | startScan start jobId client session =>
      simp only [step] at h
      split at h
      · cases h
      · split at h <;> cases h <;> exact Nat.le_refl _
  | finishScanStart start jobId client session =>
      simp only [step] at h
      split at h
      · cases h
        exact Nat.le_refl _
      · cases h
  | finishAuthStart i client =>
      obtain ⟨start, -, rfl⟩ := Option.map_eq_some_iff.mp h
      exact Nat.le_refl _
  | _ =>
      cases h
      exact Nat.le_refl _

end Store

/-- A store before the first transaction of a run: nothing is in progress, and the rows are
as the application leaves them. -/
structure Store.Initial (s : Store) : Prop where
  noLeases : s.leases = []
  noScanStarts : s.scanStarts = []
  noAuthStarts : s.authStarts = []
  jobsEnded : ∀ job ∈ s.db.jobs, job.state.active = false ∧ job.leaseOwner = none
  pendingUnbound : ∀ c ∈ s.db.connections, c.state = .pending → c.telegramUserId = none
  sourcesUnique : s.db.SourcesUnique

/-! ### A store with one connected user

User 1 is connected to account 200 and has the category a scan falls back to. Secrets are
stored as they are, but the one called `lost` cannot be opened any more. -/

def plainVault : Vault :=
  { encrypt := fun _ plaintext _ => plaintext
    decrypt := fun secret _ => if secret = "lost" then none else some secret
    readInt := fun text => if text = "12345" then some 12345 else none }

def demoEnv : Env :=
  { py := ⟨Char.isAlphanum, id, id, fun _ => true⟩
    vault := plainVault
    settings := ⟨4, 3600, 5, 30, 1024, by decide⟩ }

def demoConnection : TelegramConnection :=
  { TelegramConnection.created 1 with
    telegramUserId := some 200
    apiIdEncrypted := some "12345"
    apiHashEncrypted := some "0123456789abcdef0123456789abcdef"
    phoneEncrypted := some "4912345"
    sessionEncrypted := some "session"
    state := .connected
    generation := 3 }

def otherCategory : Category :=
  { id := 1, userId := 1, name := "Other", normalizedName := "other", slug := "other",
    systemKey := some "other", icon := "inbox", color := "gray", position := 0,
    isDefault := true }

def demoDatabase : Database :=
  { connections := ⟨[demoConnection], by decide⟩
    jobs := .empty
    categories := ⟨[otherCategory], by decide⟩
    messages := .empty
    messageTags := .empty
    nextMessageId := 1
    messageIds_fresh := fun _ hm => by cases hm }

def demoStore : Store := ⟨0, demoDatabase, 0, [], [], []⟩

theorem demoStore_initial : demoStore.Initial where
  noLeases := rfl
  noScanStarts := rfl
  noAuthStarts := rfl
  jobsEnded := fun _ hJob => by cases hJob
  pendingUnbound := by
    intro c hc hPending
    rw [List.mem_singleton.mp hc] at hPending
    cases hPending
  sourcesUnique := fun _ hm => by cases hm

end SavedOrganizer
