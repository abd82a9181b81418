import SavedOrganizer.Service.Connection

/-!
# Starting a scan

`TelegramScanService.start` looks at the user's active job first. A job that can still be
claimed is returned, a stopped job whose worker is gone is cancelled in a transaction of its
own, and any other active job refuses the start. Then one transaction validates the
connection, clears stale markers for a replacement, and adds the job; the unique index on
active jobs rolls it back when another start was faster.
-/

namespace SavedOrganizer

/-- The settings a scan depends on; each is a positive number. -/
structure Settings where
  scanMaxMessages : Nat
  scanMaxRuntimeSeconds : Nat
  scanSliceMaxPages : Nat
  scanSliceSeconds : Nat
  mediaCacheMaxBytes : Nat
  positive : 0 < scanMaxMessages ∧ 0 < scanMaxRuntimeSeconds ∧ 0 < scanSliceMaxPages ∧
    0 < scanSliceSeconds ∧ 0 < mediaCacheMaxBytes

/-- What the first look at the active job decides. -/
inductive StartDecision
  /-- The pending or reclaimable job is returned. -/
  | existing (jobId : JobId)
  /-- `ScanAlreadyRunningError`. -/
  | refused
  /-- The stopped job is cancelled and a new one is created. -/
  | cancelStopped (jobId : JobId)
  | create
  deriving DecidableEq, Repr

/-- The checks of `start` on the active job. -/
def startDecision (now : Instant) (userId : UserId) (clearExisting : Bool) (db : Database) :
    StartDecision :=
  match db.jobs.rows.find? (·.activeOf userId) with
  | none => .create
  | some job =>
      if job.state == .pending || (job.state == .running && job.leaseExpired now) then
        if job.replaceExisting != clearExisting then .refused else .existing job.id
      else if job.abandonedStop now then .cancelStopped job.id
      else .refused

/-- The transaction that cancels an abandoned stop. -/
def cancelAbandonedStop (now : Instant) (userId : UserId) (jobId : JobId) (db : Database) :
    Database :=
  let cleared := db.clearMarkers fun m => m.userId == userId &&
    m.lastSeenReplacementJobId == some jobId &&
    db.markedBy (·.replaceExisting) m
  cleared.updateJobs (fun job => job.id == jobId && job.activeOf userId)
    (ScanJob.cancelStopped now) (ScanJob.cancelStopped_id now)

/-- `INSERT INTO scan_jobs`: refused by the primary key or by the unique index on the
active jobs of a user. -/
def Database.insertJob (db : Database) (job : ScanJob) : Option Database :=
  if db.jobs.rows.any (·.activeOf job.userId) then none
  else (db.jobs.insert? job).map fun jobs => { db with jobs := jobs }

/-- The second transaction of `start`, from the validation on. `none` is a rollback. -/
def createScan (vault : Vault) (settings : Settings) (now : Instant) (userId : UserId)
    (pageSize : Nat) (clearExisting : Bool) (jobId : JobId) (client : ClientIdentity)
    (session : ClientSession) (db : Database) : Database :=
  match validateAuthorizedConnection vault userId client session db with
  | .error rejected => rejected
  | .ok (validated, connection) =>
      match connection.telegramUserId with
      | none => db
      | some telegramUserId =>
          let cleared := if clearExisting then validated.clearMarkers (·.userId == userId)
            else validated
          (cleared.insertJob (.queued jobId userId clearExisting pageSize telegramUserId
            connection.generation settings.scanMaxMessages settings.scanMaxRuntimeSeconds
            now)).getD db

end SavedOrganizer
