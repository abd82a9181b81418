import SavedOrganizer.System.Markers

/-!
# What a call does in one step

`CallAdvances` says once for all statements what one step of a call does: it is committed or rolled
back, a claim returns its lease, or a statement of it is executed, in terms of what its
transaction sees (`Executes`). The invariants of the interleaved calls are case analyses over it.
-/

namespace SavedOrganizer

open MarkerView

/-! ## Statements in views -/

namespace MarkerView

/-- `UPDATE messages SET last_seen_replacement_job_id = NULL WHERE p`. -/
def clear (s : MarkerView) (p : MessageKey → Marker → Bool) : MarkerView :=
  { s with messages := s.messages.write p fun _ => some none }

/-- `UPDATE scan_jobs SET f WHERE p`. -/
def update (s : MarkerView) (p : ScanJob → Bool) (f : ScanJob → ScanJob) : MarkerView :=
  { s with jobs := s.jobs.write (fun _ => p) fun job => some (f job) }

/-- `SELECT`, `UPDATE` or `DELETE` of connections. -/
structure Connects (s s' : MarkerView) : Prop where
  committed : s'.connections.committed = s.connections.committed
  jobs : s'.jobs = s.jobs
  messages : s'.messages = s.messages

end MarkerView

/-- What a finalization goes on with. -/
def MarkerPhase.finalized (lease : ScanLease) (state : TerminalState)
    (completionReason : Option CompletionReason) : MarkerPhase :=
  if prunes lease state completionReason then .deleting lease
  else if lease.replaceExisting then .clearingJob none lease.userId lease.jobId
  else .committing none

/-- What writing a job back goes on with. -/
def MarkerPhase.written (next : Option ScanRequest) (loaded memory : ScanJob) : MarkerPhase :=
  if memory.state == .cancelled && loaded.replaceExisting then
    .clearingJob next loaded.userId loaded.id
  else .committing next

/-- The statement of a call that goes on, and what its transaction sees then. -/
inductive Executes (now : Instant) (s : MarkerView) : MarkerPhase → MarkerView → MarkerPhase → Prop
  | clearsJob {next : Option ScanRequest} {userId : UserId} {jobId : JobId} :
      Executes now s (.clearingJob next userId jobId)
        (s.clear fun key marker => key.userId == userId && marker == some jobId) (.committing next)
  | writes {next : Option ScanRequest} {loaded memory : ScanJob} {id : JobId} {job : ScanJob}
      (hView : s.jobs.view id = some job) (hId : job.id = loaded.id) :
      Executes now s (.writing next loaded memory)
        (s.update (·.id == loaded.id) (flushJob loaded memory)) (.written next loaded memory)
  | finds {request : ScanRequest} {found : Option ScanJob}
      (hFound : ∀ job, found = some job →
        ∃ id, s.jobs.view id = some job ∧ job.activeOf request.userId = true) :
      Executes now s (.starting request) s (.startRead request found)
  | startsFresh {request : ScanRequest} :
      Executes now s (.startRead request none) s (.validating request)
  | cancels {request : ScanRequest} {job : ScanJob} (hStop : job.abandonedStop now = true) :
      Executes now s (.startRead request (some job)) s
        (.writing (some request) job (job.cancelStopped now))
  | rejects {request : ScanRequest} {s' : MarkerView} (hConnects : s.Connects s') :
      Executes now s (.validating request) s' (.committing none)
  | validates {request : ScanRequest} {s' : MarkerView} {telegramUserId : TelegramId}
      {generation : Nat} (hConnects : s.Connects s')
      (hLocked : s'.connections.own request.userId ≠ none) :
      Executes now s (.validating request) s'
        (if request.clearExisting then .clearingAll request telegramUserId generation
          else .inserting request telegramUserId generation)
  | clearsAll {request : ScanRequest} {telegramUserId : TelegramId} {generation : Nat} :
      Executes now s (.clearingAll request telegramUserId generation)
        (s.clear fun key _ => key.userId == request.userId)
        (.inserting request telegramUserId generation)
  | inserts {request : ScanRequest} {telegramUserId : TelegramId} {generation : Nat}
      {job : ScanJob} (hUser : job.userId = request.userId) (hState : job.state = .pending)
      (hStop : job.stopRequested = false) (hScanned : job.messagesScanned = 0)
      (hCursor : job.lastMessageId = none) (hNew : s.jobs.view job.id = none)
      (hFree : ∀ id job', s.jobs.view id = some job' → job'.activeOf job.userId = false) :
      Executes now s (.inserting request telegramUserId generation)
        { s with jobs := s.jobs.insert job.id job } (.committing none)
  | locksStop {userId : UserId} {id : JobId} {job : ScanJob} (hView : s.jobs.view id = some job)
      (hActive : job.activeOf userId = true) :
      Executes now s (.stopping userId) (s.update (·.activeOf userId) fun job => job)
        (.stopRead job)
  | stops {loaded : ScanJob} :
      Executes now s (.stopRead loaded) s (.writing none loaded (loaded.stop now))
  | failsClaim {begun : Instant} {jobId : JobId} {owner : LeaseOwner} :
      Executes now s (.claimFailing begun jobId owner)
        (s.update ((JobStatement.failWithoutProvenance begun jobId).selects now)
          (JobStatement.failWithoutProvenance begun jobId).sets)
        (.claimCancelling begun jobId owner)
  | cancelsClaim {begun : Instant} {jobId : JobId} {owner : LeaseOwner} :
      Executes now s (.claimCancelling begun jobId owner)
        (s.update ((JobStatement.cancelStopped begun jobId).selects now)
          (JobStatement.cancelStopped begun jobId).sets)
        (.claimClearing begun jobId owner)
  | clearsClaim {begun : Instant} {jobId : JobId} {owner : LeaseOwner}
      {p : MessageKey → Marker → Bool}
      (hMarked : ∀ key marker, p key marker = true → marker = some jobId ∧
        ∃ job, s.jobs.view jobId = some job ∧ job.state.active = false) :
      Executes now s (.claimClearing begun jobId owner) (s.clear p)
        (.claimUpdating begun jobId owner)
  | claims {begun : Instant} {jobId : JobId} {owner : LeaseOwner} {matched : Bool} :
      Executes now s (.claimUpdating begun jobId owner)
        (s.update ((JobStatement.claim begun jobId owner).selects now)
          (JobStatement.claim begun jobId owner).sets)
        (.claimCommitting begun jobId owner matched)
  | locksConnection {begun : Instant} {lease : ScanLease} {page : ScanPage} {s' : MarkerView}
      (hConnects : s.Connects s') (hLocked : s'.connections.own lease.userId ≠ none) :
      Executes now s (.persisting begun lease page) s' (.persistLocking begun lease page)
  | locksJob {begun : Instant} {lease : ScanLease} {page : ScanPage} {id : JobId} {job : ScanJob}
      (hView : s.jobs.view id = some job) (hHolds : lease.holds begun job = true) :
      Executes now s (.persistLocking begun lease page)
        (s.update (lease.holds begun) fun job => job) (.persistReading lease page)
  | readsPage {lease : ScanLease} {page : ScanPage} {stored : List (MessageKey × Marker)}
      {writes : List MessageWrite}
      (hStored : ∀ key marker, (key, marker) ∈ stored ↔ s.messages.view key = some marker ∧
        key.userId = lease.userId ∧ key.telegramUserId = lease.telegramUserId ∧
          key.telegramId ∈ page.ids)
      (hWrites : pageWrites stored [] page.messages = some writes) :
      Executes now s (.persistReading lease page) s (.persistWriting lease page writes)
  | refreshes {lease : ScanLease} {page : ScanPage} {key : MessageKey} {loaded : Marker}
      {writes : List MessageWrite} :
      Executes now s (.persistWriting lease page (.refresh key loaded :: writes))
        { s with
          messages := s.messages.write (fun k _ => k == key)
            fun marker => some (flushMarker lease loaded marker) }
        (.persistWriting lease page writes)
  | adds {lease : ScanLease} {page : ScanPage} {id : MessageId} {telegramId : TelegramId}
      {writes : List MessageWrite}
      (hNew : s.messages.view ⟨id, lease.userId, lease.telegramUserId, telegramId⟩ = none) :
      Executes now s (.persistWriting lease page (.add telegramId :: writes))
        { s with
          messages := s.messages.insert ⟨id, lease.userId, lease.telegramUserId, telegramId⟩
            (if lease.replaceExisting then some lease.jobId else none) }
        (.persistWriting lease page writes)
  | records {lease : ScanLease} {page : ScanPage} {id : JobId} {job : ScanJob}
      (hView : s.jobs.view id = some job) (hHolds : lease.holds now job = true) :
      Executes now s (.persistWriting lease page [])
        (s.update (lease.holds now) (ScanJob.recordPage page.messages.length page.nextOffsetId))
        (.committing none)
  | finalizes {begun : Instant} {lease : ScanLease} {state : TerminalState}
      {error : Option String} {completionReason : Option CompletionReason} {id : JobId}
      {job : ScanJob} (hView : s.jobs.view id = some job) (hHolds : lease.holds begun job = true) :
      Executes now s (.finalizing begun lease state error completionReason)
        (s.update (lease.holds begun) (ScanJob.finalize begun state.1 error completionReason))
        (.finalized lease state completionReason)
  | deletes {lease : ScanLease} :
      Executes now s (.deleting lease)
        { s with
          messages := s.messages.write (fun key marker =>
            key.userId == lease.userId && marker != some lease.jobId) fun _ => none }
        (.clearingJob none lease.userId lease.jobId)
  | downgrades {lease : ScanLease} {s' : MarkerView} (hConnects : s.Connects s') :
      Executes now s (.downgrading lease) s' (.clearing (.downgrade now lease))
  | disconnects {userId : UserId} {s' : MarkerView} (hConnects : s.Connects s') :
      Executes now s (.disconnecting userId) s' (.clearing (.cancelActive now userId))
  | clears {ending : JobStatement} {p : MessageKey → Marker → Bool}
      {cleared : List (JobId × Nat)}
      (hMarked : ∀ key marker, p key marker = true → ∃ id job, marker = some id ∧
        s.jobs.view id = some job ∧ ending.clearsFor job = true)
      (hCleared : ∀ id job, s.jobs.view id = some job → ending.clearsFor job = true →
        (job.id, job.messagesScanned) ∈ cleared) :
      Executes now s (.clearing ending) (s.clear p) (.updating ending cleared)
  | updates {ending : JobStatement} {cleared : List (JobId × Nat)} :
      Executes now s (.updating ending cleared)
        (s.update (ending.selects now) ending.sets) (.committing none)

/-- The call commits next. -/
def MarkerPhase.commits : MarkerPhase → Bool
  | committing _ => true
  | claimCommitting _ _ _ _ => true
  | _ => false

/-- What the call of a committed transaction goes on with. -/
inductive CallGoesOn : MarkerPhase → MarkerPhase → Prop
  | returns : CallGoesOn (.committing none) .returned
  | starts (request : ScanRequest) : CallGoesOn (.committing (some request)) (.validating request)
  | claimed (begun : Instant) (jobId : JobId) (owner : LeaseOwner) :
      CallGoesOn (.claimCommitting begun jobId owner true) (.claimReading begun jobId owner)
  | unclaimed (begun : Instant) (jobId : JobId) (owner : LeaseOwner) :
      CallGoesOn (.claimCommitting begun jobId owner false) .returned

/-- One step of a call. -/
inductive CallAdvances (now : Instant) (t : TransactionId) (store : MarkerStore) (phase : MarkerPhase) :
    MarkerStore → MarkerPhase → Prop
  | executed {store' : MarkerStore} {s' : MarkerView} {phase' : MarkerPhase}
      (hStatement : Statement t store store' s')
      (hExecutes : Executes now (store.seenBy t) phase s' phase') :
      CallAdvances now t store phase store' phase'
  | committed {phase' : MarkerPhase} (hGoesOn : CallGoesOn phase phase') :
      CallAdvances now t store phase (store.commit t) phase'
  | rolledBack {locked : MarkerStore} {s : MarkerView} (hOpen : phase.commits = false)
      (hStatement : Statement t store locked s)
      (hConnections : s.connections.committed = (store.seenBy t).connections.committed)
      (hJobs : s.jobs.committed = (store.seenBy t).jobs.committed)
      (hMessages : s.messages.committed = (store.seenBy t).messages.committed) :
      CallAdvances now t store phase (locked.rollback t) .returned
  | issued {begun : Instant} {jobId : JobId} {owner : LeaseOwner} {leases : List ScanLease}
      (hPhase : phase = .claimReading begun jobId owner) :
      CallAdvances now t store phase { store with leases := leases } .returned

section Inversion

variable {vault : Vault} {settings : Settings} {now : Instant} {t : TransactionId}
  {store store' : MarkerStore} {phase phase' : MarkerPhase}

theorem CallAdvances.gaveUp (hOpen : phase.commits = false) :
    CallAdvances now t store phase (store.rollback t) .returned :=
  .rolledBack hOpen statement_refl rfl rfl rfl

end Inversion

end SavedOrganizer
