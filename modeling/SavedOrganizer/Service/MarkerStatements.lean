import SavedOrganizer.Library.LockedTable
import SavedOrganizer.Service.Finalize
import SavedOrganizer.Service.JobStatements
import SavedOrganizer.Service.Start

/-!
# Replacement markers, statement by statement

The transactions that set, clear or outlive `last_seen_replacement_job_id`, each SQL statement
a step of its own over three tables: the connections, the jobs and the messages. Nearly every
path that ends a job also clears its markers. `start`, `stop`, the claim and the finalization
end the job first. Requeue, release, the end of expired stops and the cancellations clear
first, the markers of the jobs that a subquery selects (`JobStatement.clearsFor`), and then
`UPDATE` the jobs.

A message is the columns that are written once (`MessageKey`) and its marker. A statement on a
primary key names its row; the unit of work writes the rows of a page one by one. An exception
(`raise`) may come at any point. Left out are the lock on the user's row and the unique key of
messages, which only exclude interleavings.
-/

namespace SavedOrganizer

/-- The columns of a message that no statement changes after its `INSERT`. -/
structure MessageKey where
  id : MessageId
  userId : UserId
  telegramUserId : TelegramId
  telegramId : TelegramId
  deriving DecidableEq, Repr

/-- `last_seen_replacement_job_id`. -/
abbrev Marker := Option JobId

/-- The tables, the sequence behind `messages.id`, and the leases that claims have returned. -/
structure MarkerStore where
  connections : LockedTable TransactionId UserId TelegramConnection
  jobs : LockedTable TransactionId JobId ScanJob
  messages : LockedTable TransactionId MessageKey Marker
  nextMessageId : MessageId
  leases : List ScanLease

namespace MarkerStore

variable (store : MarkerStore) (t : TransactionId)

def commit : MarkerStore :=
  { store with
    connections := store.connections.commit t
    jobs := store.jobs.commit t
    messages := store.messages.commit t }

def rollback : MarkerStore :=
  { store with
    connections := store.connections.rollback t
    jobs := store.jobs.rollback t
    messages := store.messages.rollback t }

def updateConnections (p : UserId → TelegramConnection → Bool)
    (f : TelegramConnection → TelegramConnection) : Option MarkerStore :=
  (store.connections.update t p f).map fun connections => { store with connections := connections }

def updateJobs (p : ScanJob → Bool) (f : ScanJob → ScanJob) : Option MarkerStore :=
  (store.jobs.update t (fun _ => p) f).map fun jobs => { store with jobs := jobs }

/-- `SELECT .. FROM scan_jobs WHERE p`. -/
def selectJobs (p : ScanJob → Bool) : List ScanJob :=
  (store.jobs.select t fun _ => p).map Prod.snd

/-- `UPDATE messages SET last_seen_replacement_job_id = NULL WHERE p`. -/
def clearMarkers (p : MessageKey → Marker → Bool) : Option MarkerStore :=
  (store.messages.update t p fun _ => none).map fun messages => { store with messages := messages }

/-- `last_seen_replacement_job_id IN (SELECT id FROM scan_jobs WHERE p)`. -/
def markedBy (p : ScanJob → Bool) (marker : Marker) : Bool :=
  marker.any fun id => ((store.jobs.row id).view t).any p

/-- Another transaction has a job of the user that is active, or was, so the unique index on
active jobs has to wait for it. -/
def awaitsActive (userId : UserId) : Bool :=
  store.jobs.rows.any fun (id, _) => (store.jobs.row id).lock.any fun (holder, own) =>
    holder != t && (own.any (·.activeOf userId) ||
      (store.jobs.row id).committed.any (·.activeOf userId))

end MarkerStore

/-! ## What two-statement endings clear -/

namespace JobStatement

/-- The jobs whose markers the statement before an `UPDATE` clears. -/
def clearsFor : JobStatement → ScanJob → Bool
  | requeue now lease, job => lease.holds now job && job.stopping
  | release _ lease, job => lease.owns job && job.stopping
  | terminalize now, job => job.abandonedStop now
  | downgrade _ lease, job => lease.downgrades job
  | cancelActive _ userId, job => job.activeOf userId
  | _, _ => false

/-- It looks at messages of one user only, except for the end of expired stops. -/
def clearsOf : JobStatement → MessageKey → Bool
  | requeue _ lease, key => key.userId == lease.userId
  | release _ lease, key => key.userId == lease.userId
  | downgrade _ lease, key => key.userId == lease.userId
  | cancelActive _ userId, key => key.userId == userId
  | _, _ => true

end JobStatement

/-! ## Requests -/

/-- The arguments of `start`: the id of the new job, and what the Telegram client answers. -/
structure ScanRequest where
  userId : UserId
  pageSize : Nat
  clearExisting : Bool
  jobId : JobId
  client : ClientIdentity
  session : ClientSession
  deriving DecidableEq, Repr

/-- What `_validate_authorized_connection` does to the row. -/
inductive Validation
  /-- It raises and rolls back. -/
  | refused
  /-- It commits an erased row and raises. -/
  | rejected (c : TelegramConnection)
  | validated (c : TelegramConnection)

/-- `_validate_authorized_connection` on the row it has locked. -/
def TelegramConnection.validate (vault : Vault) (client : ClientIdentity)
    (session : ClientSession) (c : TelegramConnection) : Validation :=
  if c.state != .connected || !truthy c.sessionEncrypted then .refused
  else if !vault.opens c then .rejected (c.invalidate .error)
  else match client with
    | .unreachable => .refused
    | .unauthorized => .rejected (c.invalidate .disconnected)
    | .withoutId => .rejected c.rejectIdentity
    | .id actual =>
        if c.telegramUserId.any (· != actual) then .rejected c.rejectIdentity
        else .validated
          { c with
            sessionEncrypted := some (vault.sealSession c.userId session)
            telegramUserId := some actual
            generation := if c.telegramUserId.isNone then c.generation + 1 else c.generation }

inductive MarkerCall
  | start (request : ScanRequest)
  | stop (userId : UserId)
  | claim (jobId : JobId) (owner : LeaseOwner)
  | renew (lease : ScanLease)
  | persistPage (lease : ScanLease) (page : ScanPage)
  | requeue (lease : ScanLease)
  | release (lease : ScanLease)
  | finalize (lease : ScanLease) (state : TerminalState) (error : Option String)
      (completionReason : Option CompletionReason)
  | downgrade (lease : ScanLease)
  | disconnect (userId : UserId)
  | terminalizeExpired

/-- The lease a worker's call is made with. -/
def MarkerCall.lease : MarkerCall → Option ScanLease
  | renew lease => some lease
  | persistPage lease _ => some lease
  | requeue lease => some lease
  | release lease => some lease
  | finalize lease _ _ _ => some lease
  | downgrade lease => some lease
  | _ => none

/-! ## The pages -/

/-- What the unit of work does to one message of a page. -/
inductive MessageWrite
  /-- The stored row, with the marker it had when it was read. -/
  | refresh (key : MessageKey) (loaded : Marker)
  | add (telegramId : TelegramId)

/-- The writes of a page, with `existing_by_id` and `seen_ids`. A message that the page itself
has added is not in `existing_by_id` and raises `KeyError`. -/
def pageWrites (stored : List (MessageKey × Marker)) :
    List TelegramId → List ScannedMessage → Option (List MessageWrite)
  | _, [] => some []
  | seen, scanned :: rest =>
      match stored.reverse.find? (·.1.telegramId == scanned.telegramId) with
      | some (key, loaded) =>
          (pageWrites stored (scanned.telegramId :: seen) rest).map fun writes =>
            if seen.contains scanned.telegramId then writes else .refresh key loaded :: writes
      | none =>
          if seen.contains scanned.telegramId then none
          else (pageWrites stored (scanned.telegramId :: seen) rest).map
            (.add scanned.telegramId :: ·)

/-- The marker the unit of work writes: only if the page has changed it. -/
def flushMarker (lease : ScanLease) (loaded current : Marker) : Marker :=
  if lease.replaceExisting && loaded != some lease.jobId then some lease.jobId else current

/-! ## The statements of the calls -/

inductive MarkerPhase
  | idle
  | returned
  /-- The commit; `start` goes on with a transaction of its own. -/
  | committing (next : Option ScanRequest)
  /-- The markers of one job are cleared, after the job has ended. -/
  | clearingJob (next : Option ScanRequest) (userId : UserId) (jobId : JobId)
  /-- The ORM writes a job back, for `start` (`next`) or `stop`. -/
  | writing (next : Option ScanRequest) (loaded memory : ScanJob)
  | starting (request : ScanRequest)
  | startRead (request : ScanRequest) (found : Option ScanJob)
  | validating (request : ScanRequest)
  | clearingAll (request : ScanRequest) (telegramUserId : TelegramId) (generation : Nat)
  | inserting (request : ScanRequest) (telegramUserId : TelegramId) (generation : Nat)
  | stopping (userId : UserId)
  | stopRead (loaded : ScanJob)
  | claimFailing (now : Instant) (jobId : JobId) (owner : LeaseOwner)
  | claimCancelling (now : Instant) (jobId : JobId) (owner : LeaseOwner)
  | claimClearing (now : Instant) (jobId : JobId) (owner : LeaseOwner)
  | claimUpdating (now : Instant) (jobId : JobId) (owner : LeaseOwner)
  | claimCommitting (now : Instant) (jobId : JobId) (owner : LeaseOwner) (matched : Bool)
  | claimReading (now : Instant) (jobId : JobId) (owner : LeaseOwner)
  | persisting (now : Instant) (lease : ScanLease) (page : ScanPage)
  | persistLocking (now : Instant) (lease : ScanLease) (page : ScanPage)
  | persistReading (lease : ScanLease) (page : ScanPage)
  | persistWriting (lease : ScanLease) (page : ScanPage) (writes : List MessageWrite)
  | finalizing (now : Instant) (lease : ScanLease) (state : TerminalState)
      (error : Option String) (completionReason : Option CompletionReason)
  | deleting (lease : ScanLease)
  | downgrading (lease : ScanLease)
  | disconnecting (userId : UserId)
  /-- The markers are cleared before the jobs end. -/
  | clearing (ending : JobStatement)
  /-- The jobs the clearing statement has selected, with the messages they had scanned. -/
  | updating (ending : JobStatement) (cleared : List (JobId × Nat))

/-- Requeue and release clear markers for a replacement only. -/
def clearingOf (lease : ScanLease) (ending : JobStatement) : MarkerPhase :=
  if lease.replaceExisting then .clearing ending else .updating ending []

/-- What a call begins with, with its `_utcnow()`. -/
def MarkerCall.begins (now : Instant) : MarkerCall → MarkerPhase
  | start request => .starting request
  | stop userId => .stopping userId
  | claim jobId owner => .claimFailing now jobId owner
  | renew lease => .updating (.renew now lease) []
  | persistPage lease page => .persisting now lease page
  | requeue lease => clearingOf lease (.requeue now lease)
  | release lease => clearingOf lease (.release now lease)
  | finalize lease state error completionReason =>
      .finalizing now lease state error completionReason
  | downgrade lease => .downgrading lease
  | disconnect userId => .disconnecting userId
  | terminalizeExpired => .clearing (.terminalize now)

/-- One message of the page is written. A stored row that is gone raises `StaleDataError`. -/
def MarkerStore.writeMessage (store : MarkerStore) (t : TransactionId) (lease : ScanLease) :
    MessageWrite → Option (Option MarkerStore)
  | .refresh key loaded =>
      if (store.messages.select t fun k _ => k == key).isEmpty then some none
      else (store.messages.update t (fun k _ => k == key) (flushMarker lease loaded)).map
        fun messages => some { store with messages := messages }
  | .add telegramId =>
      (store.messages.insert t
        ⟨store.nextMessageId, lease.userId, lease.telegramUserId, telegramId⟩
        (if lease.replaceExisting then some lease.jobId else none)).map fun result =>
          result.map fun messages => { store with
            messages := messages, nextMessageId := store.nextMessageId + 1 }

/-- `_validate_authorized_connection`, with the row locked from its `FOR UPDATE` on. -/
def MarkerStore.validateConnection (vault : Vault) (t : TransactionId) (request : ScanRequest)
    (store : MarkerStore) : Option (MarkerStore × MarkerPhase) :=
  let ofUser (userId : UserId) (_ : TelegramConnection) : Bool := userId == request.userId
  (store.connections.selectForUpdate t ofUser).bind fun connections =>
    let locked : MarkerStore := { store with connections := connections }
    match (connections.row request.userId).view t with
    | none => some (locked.rollback t, .returned)
    | some c => match c.validate vault request.client request.session with
        | .refused => some (locked.rollback t, .returned)
        | .rejected c => (locked.updateConnections t ofUser fun _ => c).map (·, .committing none)
        | .validated c => match c.telegramUserId with
            | none => some (locked.rollback t, .returned)
            | some telegramUserId => (locked.updateConnections t ofUser fun _ => c).map
                (·, if request.clearExisting then
                      .clearingAll request telegramUserId c.generation
                    else .inserting request telegramUserId c.generation)

/-- `INSERT INTO scan_jobs`: an active job of the user, or a taken key, rolls back. -/
def MarkerStore.insertJob (store : MarkerStore) (t : TransactionId) (job : ScanJob) :
    Option (MarkerStore × MarkerPhase) :=
  if store.awaitsActive t job.userId then none
  else if !(store.selectJobs t (·.activeOf job.userId)).isEmpty then
    some (store.rollback t, .returned)
  else (store.jobs.insert t job.id job).map fun result =>
    match result with
    | none => (store.rollback t, .returned)
    | some jobs => ({ store with jobs := jobs }, .committing none)

section Advance

variable (vault : Vault) (settings : Settings)

/-- One statement of a call, `none` while it has to wait for a lock. -/
def advanceMarkers (now : Instant) (t : TransactionId) (store : MarkerStore) :
    MarkerPhase → Option (MarkerStore × MarkerPhase)
  | .idle => none
  | .returned => none
  | .committing next => some (store.commit t,
      match next with
      | none => .returned
      | some request => .validating request)
  | .clearingJob next userId jobId =>
      (store.clearMarkers t fun key marker => key.userId == userId && marker == some jobId).map
        (·, .committing next)
  | .writing next loaded memory =>
      if (store.selectJobs t (·.id == loaded.id)).isEmpty then some (store.rollback t, .returned)
      else (store.updateJobs t (·.id == loaded.id) (flushJob loaded memory)).map
        (·, if memory.state == .cancelled && loaded.replaceExisting then
              .clearingJob next loaded.userId loaded.id
            else .committing next)
  | .starting request =>
      some (store, .startRead request (store.selectJobs t (·.activeOf request.userId)).head?)
  | .startRead request found =>
      match found with
      | none => some (store, .validating request)
      | some job =>
          if job.abandonedStop now then
            some (store, .writing (some request) job (job.cancelStopped now))
          else some (store.rollback t, .returned)
  | .validating request => store.validateConnection vault t request
  | .clearingAll request telegramUserId generation =>
      (store.clearMarkers t fun key _ => key.userId == request.userId).map
        (·, .inserting request telegramUserId generation)
  | .inserting request telegramUserId generation =>
      store.insertJob t (.queued request.jobId request.userId request.clearExisting
        request.pageSize telegramUserId generation settings.scanMaxMessages
        settings.scanMaxRuntimeSeconds now)
  | .stopping userId =>
      (store.jobs.selectForUpdate t fun _ job => job.activeOf userId).map fun jobs =>
        let locked : MarkerStore := { store with jobs := jobs }
        match (locked.selectJobs t (·.activeOf userId)).head? with
        | none => (locked.rollback t, .returned)
        | some job => (locked, .stopRead job)
  | .stopRead loaded => some (store, .writing none loaded (loaded.stop now))
  | .claimFailing begun jobId owner =>
      (store.updateJobs t ((JobStatement.failWithoutProvenance begun jobId).selects now)
        (JobStatement.failWithoutProvenance begun jobId).sets).map
          (·, .claimCancelling begun jobId owner)
  | .claimCancelling begun jobId owner =>
      (store.updateJobs t ((JobStatement.cancelStopped begun jobId).selects now)
        (JobStatement.cancelStopped begun jobId).sets).map (·, .claimClearing begun jobId owner)
  | .claimClearing begun jobId owner =>
      (store.clearMarkers t fun _ marker => marker == some jobId && store.markedBy t (fun job =>
        job.state == .failed || job.state == .cancelled) marker).map
          (·, .claimUpdating begun jobId owner)
  | .claimUpdating begun jobId owner =>
      (store.updateJobs t ((JobStatement.claim begun jobId owner).selects now)
        (JobStatement.claim begun jobId owner).sets).map
          (·, .claimCommitting begun jobId owner
            !(store.selectJobs t (claimedBy begun jobId)).isEmpty)
  | .claimCommitting begun jobId owner matched =>
      some (store.commit t, if matched then .claimReading begun jobId owner else .returned)
  | .claimReading begun jobId owner =>
      let claimed := ((store.jobs.row jobId).view t).filter (·.leaseOwner == some owner)
      some ({ store with
        leases := (claimed.bind (readLease begun owner)).toList ++ store.leases }, .returned)
  | .persisting begun lease page =>
      (store.connections.selectForUpdate t fun userId c =>
          userId == lease.userId && lease.connected c).map fun connections =>
        let locked : MarkerStore := { store with connections := connections }
        if ((connections.row lease.userId).view t).any lease.connected then
          (locked, .persistLocking begun lease page)
        else (locked.rollback t, .returned)
  | .persistLocking begun lease page =>
      (store.jobs.selectForUpdate t fun _ job => lease.holds begun job).map fun jobs =>
        let locked : MarkerStore := { store with jobs := jobs }
        if (locked.selectJobs t (lease.holds begun)).isEmpty then (locked.rollback t, .returned)
        else (locked, .persistReading lease page)
  | .persistReading lease page =>
      match pageWrites (store.messages.select t fun key _ => key.userId == lease.userId &&
          key.telegramUserId == lease.telegramUserId &&
            page.messages.any (·.telegramId == key.telegramId)) [] page.messages with
      | none => some (store.rollback t, .returned)
      | some writes => some (store, .persistWriting lease page writes)
  | .persistWriting lease page (write :: writes) =>
      (store.writeMessage t lease write).map fun result =>
        match result with
        | none => (store.rollback t, .returned)
        | some store => (store, .persistWriting lease page writes)
  | .persistWriting lease page [] =>
      if (store.selectJobs t (lease.holds now)).isEmpty then some (store.rollback t, .returned)
      else (store.updateJobs t (lease.holds now)
        (ScanJob.recordPage page.messages.length page.nextOffsetId)).map (·, .committing none)
  | .finalizing begun lease state error completionReason =>
      if (store.selectJobs t (lease.holds begun)).isEmpty then some (store.rollback t, .returned)
      else (store.updateJobs t (lease.holds begun)
        (ScanJob.finalize begun state.1 error completionReason)).map
          (·, if prunes lease state completionReason then .deleting lease
              else if lease.replaceExisting then .clearingJob none lease.userId lease.jobId
              else .committing none)
  | .deleting lease =>
      (store.messages.delete t fun key marker =>
          key.userId == lease.userId && marker != some lease.jobId).map
        fun messages => ({ store with messages := messages },
          .clearingJob none lease.userId lease.jobId)
  | .downgrading lease =>
      if ((store.connections.row lease.userId).view t).any lease.bound then
        (store.updateConnections t (fun userId c => userId == lease.userId && lease.bound c)
          (TelegramConnection.invalidate .disconnected)).map (·, .clearing (.downgrade now lease))
      else some (store.rollback t, .returned)
  | .disconnecting userId =>
      (store.updateConnections t (fun k _ => k == userId)
        (TelegramConnection.invalidate .disconnected)).map (·, .clearing (.cancelActive now userId))
  | .clearing ending =>
      (store.clearMarkers t fun key marker =>
          ending.clearsOf key && store.markedBy t ending.clearsFor marker).map
        (·, .updating ending
          ((store.selectJobs t ending.clearsFor).map fun job => (job.id, job.messagesScanned)))
  | .updating ending _ =>
      (store.updateJobs t (ending.selects now) ending.sets).map (·, .committing none)

end Advance

/-! ## Interleaved calls -/

structure MarkerWorld where
  now : Instant
  store : MarkerStore
  calls : TransactionId → MarkerPhase

inductive MarkerAction
  | tick (elapsed : Nat)
  | begin (t : TransactionId) (call : MarkerCall)
  | advance (t : TransactionId)
  /-- An exception, or the end of the process. -/
  | raise (t : TransactionId)

/-- A worker's call is made with a lease that a claim has returned. -/
def MarkerWorld.step (vault : Vault) (settings : Settings) (w : MarkerWorld) :
    MarkerAction → Option MarkerWorld
  | .tick elapsed => some { w with now := w.now + elapsed }
  | .begin t call => match w.calls t with
      | .idle =>
          if call.lease.all (w.store.leases.contains ·) then
            some { w with calls := Function.update w.calls t (call.begins w.now) }
          else none
      | _ => none
  | .advance t =>
      (advanceMarkers vault settings w.now t w.store (w.calls t)).map fun (store, phase) =>
        { w with store := store, calls := Function.update w.calls t phase }
  | .raise t => some
      { w with store := w.store.rollback t, calls := Function.update w.calls t .returned }

end SavedOrganizer
