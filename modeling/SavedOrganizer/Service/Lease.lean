import SavedOrganizer.Models

/-!
# Scan jobs and their leases

A worker that claims a job holds a `ScanLease`: what it read of the job row, and a fresh
owner token. Every later statement of the worker names the job by the lease
(`ScanLease.owns`, `ScanLease.holds`), so a job that was reclaimed or ended is not found.

The definitions are the statements of `service.py` in the order the code issues them. The
functions on a `ScanJob` are the `VALUES` of its `UPDATE`s; a whole transaction maps a
`Database` to a `Database`, together with the value the function returns.
-/

namespace SavedOrganizer

def SCAN_LEASE_SECONDS : Nat := 90

/-- `ScanLease`: what a worker knows of the job it has claimed. -/
structure ScanLease where
  jobId : JobId
  userId : UserId
  pageSize : Nat
  telegramUserId : TelegramId
  connectionGeneration : Nat
  messagesScanned : Nat
  lastMessageId : Option TelegramId
  maxMessages : Nat
  maxRuntimeSeconds : Nat
  startedAt : Instant
  owner : LeaseOwner
  replaceExisting : Bool
  deriving DecidableEq, Repr

/-! ## Predicates on job rows -/

/-- `_lease_is_expired`; in SQL, `lease_expires_at IS NULL OR lease_expires_at <= now`. -/
def ScanJob.leaseExpired (job : ScanJob) (now : Instant) : Bool :=
  job.leaseExpiresAt.all (· ≤ now)

/-- The job has its Telegram account and generation. -/
def ScanJob.hasProvenance (job : ScanJob) : Bool :=
  job.telegramUserId.isSome && job.connectionGeneration.isSome

/-- `pending`, or `running` with an expired lease. -/
def ScanJob.claimable (job : ScanJob) (now : Instant) : Bool :=
  job.state == .pending || (job.state == .running && job.leaseExpired now)

/-- `stopping` with an expired lease. -/
def ScanJob.abandonedStop (job : ScanJob) (now : Instant) : Bool :=
  job.state == .stopping && job.leaseExpired now

/-- An active job of the user; a unique index admits one at a time. -/
def ScanJob.activeOf (userId : UserId) (job : ScanJob) : Bool :=
  job.userId == userId && job.state.active

/-- A stop has been requested, by the flag or by the state. -/
def ScanJob.stopping (job : ScanJob) : Bool := job.stopRequested || job.state == .stopping

namespace ScanLease

/-- The columns by which every statement of a worker names its job. -/
def names (lease : ScanLease) (job : ScanJob) : Bool :=
  job.id == lease.jobId && job.userId == lease.userId &&
    job.telegramUserId == some lease.telegramUserId &&
    job.connectionGeneration == some lease.connectionGeneration &&
    job.leaseOwner == some lease.owner

/-- The worker's job is `running` or `stopping` under its token. -/
def owns (lease : ScanLease) (job : ScanJob) : Bool :=
  lease.names job && (job.state == .running || job.state == .stopping)

/-- The worker owns the job and its lease has not expired. -/
def holds (lease : ScanLease) (now : Instant) (job : ScanJob) : Bool :=
  lease.owns job && job.leaseExpiresAt.any (now < ·)

theorem names_iff {lease : ScanLease} {job : ScanJob} : lease.names job = true ↔
    job.id = lease.jobId ∧ job.userId = lease.userId ∧
      job.telegramUserId = some lease.telegramUserId ∧
      job.connectionGeneration = some lease.connectionGeneration ∧
      job.leaseOwner = some lease.owner := by
  simp only [names, Bool.and_eq_true, beq_iff_eq, and_assoc]

theorem owns_iff {lease : ScanLease} {job : ScanJob} : lease.owns job = true ↔
    lease.names job = true ∧ (job.state = .running ∨ job.state = .stopping) := by
  simp only [owns, Bool.and_eq_true, Bool.or_eq_true, beq_iff_eq]

theorem holds_iff {lease : ScanLease} {now : Instant} {job : ScanJob} :
    lease.holds now job = true ↔
      lease.owns job = true ∧ job.leaseExpiresAt.any (now < ·) = true := by
  simp only [holds, Bool.and_eq_true]

theorem owns_of_holds {lease : ScanLease} {now : Instant} {job : ScanJob}
    (h : lease.holds now job = true) : lease.owns job = true :=
  (holds_iff.mp h).1

theorem names_of_owns {lease : ScanLease} {job : ScanJob} (h : lease.owns job = true) :
    lease.names job = true :=
  (owns_iff.mp h).1

theorem id_of_owns {lease : ScanLease} {job : ScanJob} (h : lease.owns job = true) :
    job.id = lease.jobId :=
  (names_iff.mp (names_of_owns h)).1

theorem active_of_owns {lease : ScanLease} {job : ScanJob} (h : lease.owns job = true) :
    job.state.active = true := by
  rcases (owns_iff.mp h).2 with hState | hState <;> rw [hState] <;> rfl

end ScanLease

/-! ## Values of the updates -/

namespace ScanJob

/-- The row of a new job, with the defaults of its columns. -/
def queued (id : JobId) (userId : UserId) (replaceExisting : Bool) (pageSize : Nat)
    (telegramUserId : TelegramId) (generation maxMessages maxRuntimeSeconds : Nat)
    (createdAt : Instant) : ScanJob :=
  { id := id
    userId := userId
    state := .pending
    stopRequested := false
    replaceExisting := replaceExisting
    messagesScanned := 0
    pagesScanned := 0
    pageSize := pageSize
    maxMessages := maxMessages
    maxRuntimeSeconds := maxRuntimeSeconds
    completionReason := none
    telegramUserId := some telegramUserId
    connectionGeneration := some generation
    lastMessageId := none
    startedAt := none
    finishedAt := none
    error := none
    leaseOwner := none
    leaseExpiresAt := none
    heartbeatAt := none
    createdAt := createdAt }

/-- The first statement of a claim. -/
def failWithoutProvenance (now : Instant) (job : ScanJob) : ScanJob :=
  { job with
    state := .failed
    error := some "Scan job has no Telegram provenance."
    finishedAt := some now
    completionReason := none
    leaseOwner := none
    leaseExpiresAt := none }

/-- A stopped job without a live worker is cancelled. -/
def cancelStopped (now : Instant) (job : ScanJob) : ScanJob :=
  { job with
    state := .cancelled
    completionReason := some .stoppedByUser
    finishedAt := some now
    leaseOwner := none
    leaseExpiresAt := none }

theorem cancelStopped_id (now : Instant) (job : ScanJob) :
    (job.cancelStopped now).id = job.id := rfl

/-- The last statement of a claim. -/
def claim (now : Instant) (owner : LeaseOwner) (job : ScanJob) : ScanJob :=
  { job with
    state := .running
    leaseOwner := some owner
    leaseExpiresAt := some (now + seconds SCAN_LEASE_SECONDS)
    heartbeatAt := some now
    startedAt := some (job.startedAt.getD now)
    finishedAt := none
    error := none
    completionReason := none }

def renew (now : Instant) (job : ScanJob) : ScanJob :=
  { job with
    heartbeatAt := some now
    leaseExpiresAt := some (now + seconds SCAN_LEASE_SECONDS) }

/-- A page of `messages` messages is committed. -/
def recordPage (messages : Nat) (nextOffsetId : Option TelegramId) (job : ScanJob) : ScanJob :=
  { job with
    messagesScanned := job.messagesScanned + messages
    pagesScanned := job.pagesScanned + 1
    lastMessageId := nextOffsetId }

/-- A slice yields: a stop that came meanwhile cancels the job. -/
def requeue (now : Instant) (job : ScanJob) : ScanJob :=
  { job with
    state := if job.stopping then .cancelled else .pending
    completionReason := if job.stopping then some .stoppedByUser else none
    finishedAt := if job.stopping then some now else none
    heartbeatAt := some now
    leaseOwner := none
    leaseExpiresAt := none }

/-- An interrupted worker gives the job back; it looks at the flag only. -/
def release (now : Instant) (job : ScanJob) : ScanJob :=
  { job with
    state := if job.stopRequested then .cancelled else .pending
    finishedAt := if job.stopRequested then some now else none
    completionReason := if job.stopRequested then some .stoppedByUser else none
    leaseOwner := none
    leaseExpiresAt := none }

def finalize (now : Instant) (state : ScanJobState) (error : Option String)
    (completionReason : Option CompletionReason) (job : ScanJob) : ScanJob :=
  { job with
    state := state
    error := error
    completionReason := completionReason
    finishedAt := some now
    leaseOwner := none
    leaseExpiresAt := none }

/-- An expired `stopping` job is ended by the queue. -/
def terminalize (now : Instant) (job : ScanJob) : ScanJob :=
  { job.cancelStopped now with stopRequested := true }

/-- The connection of an active job is gone. -/
def cancelDisconnected (now : Instant) (job : ScanJob) : ScanJob :=
  { job with
    state := .cancelled
    stopRequested := true
    finishedAt := some now
    leaseOwner := none
    leaseExpiresAt := none }

/-- `stop` ends the job at once: no worker has it. -/
def stopsAtOnce (now : Instant) (job : ScanJob) : Bool :=
  job.state == .pending || job.leaseExpired now

def stop (now : Instant) (job : ScanJob) : ScanJob :=
  { job with
    stopRequested := true
    state := if job.stopsAtOnce now then .cancelled else .stopping
    completionReason :=
      if job.stopsAtOnce now then some .stoppedByUser else job.completionReason
    finishedAt := if job.stopsAtOnce now then some now else job.finishedAt
    leaseOwner := if job.stopsAtOnce now then none else job.leaseOwner
    leaseExpiresAt := if job.stopsAtOnce now then none else job.leaseExpiresAt }

end ScanJob

/-! ## Replacement markers -/

/-- The message without its replacement marker. -/
def Message.unmark (m : Message) : Message := { m with lastSeenReplacementJobId := none }

namespace Database

/-- The message carries the marker of a job that `p` selects. -/
def markedBy (db : Database) (p : ScanJob → Bool) (m : Message) : Bool :=
  m.lastSeenReplacementJobId.any fun id => (db.jobs.find? id).any p

/-- `UPDATE messages SET last_seen_replacement_job_id = NULL WHERE p`. -/
def clearMarkers (db : Database) (p : Message → Bool) : Database :=
  db.updateMessages p Message.unmark

/-- The row of the worker's job, while the worker holds its lease. -/
def heldJob (db : Database) (lease : ScanLease) (now : Instant) : Option ScanJob :=
  (db.jobs.find? lease.jobId).filter (lease.holds now)

end Database

/-! ## Claiming -/

/-- The lease a worker reads from the row it has claimed. -/
def readLease (now : Instant) (owner : LeaseOwner) (job : ScanJob) : Option ScanLease :=
  match job.telegramUserId, job.connectionGeneration with
  | some telegramUserId, some generation => some
      { jobId := job.id
        userId := job.userId
        pageSize := job.pageSize
        telegramUserId := telegramUserId
        connectionGeneration := generation
        messagesScanned := job.messagesScanned
        lastMessageId := job.lastMessageId
        maxMessages := job.maxMessages
        maxRuntimeSeconds := job.maxRuntimeSeconds
        startedAt := job.startedAt.getD now
        owner := owner
        replaceExisting := job.replaceExisting }
  | _, _ => none

/-- The job ends before the claim: it has no provenance, or its stop was abandoned. -/
def endUnclaimable (now : Instant) (jobId : JobId) (db : Database) : Database :=
  let failed := db.updateJobs
    (fun job => job.id == jobId && job.state.active && !job.hasProvenance)
    (ScanJob.failWithoutProvenance now)
  let cancelled := failed.updateJobs (fun job => job.id == jobId && job.abandonedStop now)
    (ScanJob.cancelStopped now)
  cancelled.clearMarkers fun m => m.lastSeenReplacementJobId == some jobId &&
    cancelled.markedBy (fun job => job.state == .failed || job.state == .cancelled) m

/-- The jobs the last statement of `_claim_scan_job` selects. -/
def claimedBy (now : Instant) (jobId : JobId) (job : ScanJob) : Bool :=
  job.id == jobId && job.hasProvenance && job.claimable now

/-- `_claim_scan_job`. The lease is read from the claimed row; nothing but an end of the job
could change what is read between the commit and that read. -/
def claimScanJob (now : Instant) (owner : LeaseOwner) (jobId : JobId) (db : Database) :
    Database × Option ScanLease :=
  let ended := endUnclaimable now jobId db
  let claimed := ended.updateJobs (claimedBy now jobId) (ScanJob.claim now owner)
  (claimed, ((ended.jobs.find? jobId).filter (claimedBy now jobId)).bind fun job =>
    readLease now owner (job.claim now owner))

/-! ## The other statements of a worker -/

/-- `_renew_scan_lease`. -/
def renewScanLease (now : Instant) (lease : ScanLease) (db : Database) : Database × Bool :=
  (db.updateJobs (lease.holds now) (ScanJob.renew now), (db.heldJob lease now).isSome)

/-- `_scan_stop_requested`: `none` when the lease is lost. The state is not looked at. -/
def scanStopRequested (now : Instant) (lease : ScanLease) (db : Database) : Option Bool :=
  ((db.jobs.find? lease.jobId).filter fun job =>
    lease.names job && job.leaseExpiresAt.any (now < ·)).map ScanJob.stopRequested

/-- `_requeue_scan_job`. -/
def requeueScanJob (now : Instant) (lease : ScanLease) (db : Database) : Database × Bool :=
  let cleared := if lease.replaceExisting then
      db.clearMarkers fun m => m.userId == lease.userId &&
        db.markedBy (fun job => lease.holds now job && job.stopping) m
    else db
  (cleared.updateJobs (lease.holds now) (ScanJob.requeue now), (db.heldJob lease now).isSome)

/-- `_release_interrupted_scan`. -/
def releaseInterruptedScan (now : Instant) (lease : ScanLease) (db : Database) :
    Database × Bool :=
  let cleared := if lease.replaceExisting then
      db.clearMarkers fun m => m.userId == lease.userId &&
        db.markedBy (fun job => lease.owns job && job.stopping) m
    else db
  (cleared.updateJobs lease.owns (ScanJob.release now),
    ((db.jobs.find? lease.jobId).filter lease.owns).isSome)

/-- `_terminalize_expired_stopping_jobs`, its two statements as one
(`terminalizeExpired_alone`). -/
def terminalizeExpiredStoppingJobs (now : Instant) (db : Database) : Database × Nat :=
  let cleared := db.clearMarkers (db.markedBy (·.abandonedStop now))
  (cleared.updateJobs (·.abandonedStop now) (ScanJob.terminalize now),
    db.jobs.count (·.abandonedStop now))

/-! ## Stopping -/

/-- `TelegramScanService.stop`: the user's active job, if there is one. -/
def stopScan (now : Instant) (userId : UserId) (db : Database) : Database :=
  let cleared := db.clearMarkers fun m => m.userId == userId &&
    db.markedBy (fun job => job.activeOf userId && job.stopsAtOnce now && job.replaceExisting) m
  cleared.updateJobs (·.activeOf userId) (ScanJob.stop now)

end SavedOrganizer
