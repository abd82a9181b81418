import SavedOrganizer.System.Store

/-!
# What a transaction does to a job row

`JobChange` lists everything one step of the store can do to one scan job, with the
conditions under which it does it; `step_job` proves that the list is complete. The facts
about jobs that later modules use (an ended job stays as it is, only a lease that holds the
job moves its cursor, only a claim sets its owner) are read off the list, so no proof after
this one looks into a transaction's job statements again.
-/

namespace SavedOrganizer

open Transition

/-- The job is ended without completing; what the scan has done of it stays. -/
structure EndedAs (job job' : ScanJob) : Prop where
  id : job'.id = job.id
  userId : job'.userId = job.userId
  replaceExisting : job'.replaceExisting = job.replaceExisting
  telegramUserId : job'.telegramUserId = job.telegramUserId
  connectionGeneration : job'.connectionGeneration = job.connectionGeneration
  maxMessages : job'.maxMessages = job.maxMessages
  messagesScanned : job'.messagesScanned = job.messagesScanned
  pagesScanned : job'.pagesScanned = job.pagesScanned
  lastMessageId : job'.lastMessageId = job.lastMessageId
  state : job'.state = .failed ∨ job'.state = .cancelled
  leaseOwner : job'.leaseOwner = none
  stopRequested : job.stopRequested = true → job'.stopRequested = true

/-- What the action `a` in the store `s` makes of the job. -/
inductive JobChange (s : Store) (a : StoreAction) (job : ScanJob) : ScanJob → Prop
  | same : JobChange s a job job
  | claimed (h : a = .claim job.id) (hClaimable : job.claimable s.now = true)
      (hProvenance : job.hasProvenance = true) :
      JobChange s a job (job.claim s.now s.nextOwner)
  | renewed (lease : ScanLease) (h : a = .worker lease .renew)
      (hHolds : lease.holds s.now job = true) : JobChange s a job (job.renew s.now)
  | recorded (lease : ScanLease) (page : ScanPage) (delay : Nat)
      (h : a = .worker lease (.persist page delay)) (hHolds : lease.holds s.now job = true) :
      JobChange s a job (job.recordPage page.messages.length page.nextOffsetId)
  | requeued (lease : ScanLease) (h : a = .worker lease .requeue)
      (hHolds : lease.holds s.now job = true) : JobChange s a job (job.requeue s.now)
  | released (lease : ScanLease) (h : a = .worker lease .release)
      (hOwns : lease.owns job = true) : JobChange s a job (job.release s.now)
  | finalized (lease : ScanLease) (state : TerminalState) (error : Option String)
      (reason : Option CompletionReason) (h : a = .worker lease (.finalize state error reason))
      (hHolds : lease.holds s.now job = true) :
      JobChange s a job (job.finalize s.now state.1 error reason)
  | stopped (h : a = .stopScan job.userId) (hActive : job.state.active = true) :
      JobChange s a job (job.stop s.now)
  | ended (job' : ScanJob) (hActive : job.state.active = true) (hEnded : EndedAs job job') :
      JobChange s a job job'

/-- The job an action creates when it succeeds. -/
def StoreAction.creates : StoreAction → Option (ScanStart × JobId)
  | .startScan start jobId _ _ => some (start, jobId)
  | .finishScanStart start jobId _ _ => some (start, jobId)
  | _ => none

/-- What a step makes of the rows with one key. A row is never deleted; the row that is
added is the only active one of its user. -/
inductive RowChange (env : Env) (s : Store) (a : StoreAction) :
    Option ScanJob → Option ScanJob → Prop
  | absent : RowChange env s a none none
  | changed {job job' : ScanJob} (h : JobChange s a job job') :
      RowChange env s a (some job) (some job')
  | created (start : ScanStart) (jobId : JobId) (telegramUserId : TelegramId)
      (generation : Nat) (h : a.creates = some (start, jobId))
      (hFree : ∀ job ∈ s.db.jobs, job.activeOf start.userId = false) :
      RowChange env s a none (some (.queued jobId start.userId start.clearExisting
        start.pageSize telegramUserId generation env.settings.scanMaxMessages
        env.settings.scanMaxRuntimeSeconds s.now))

theorem RowChange.refl {env : Env} {s : Store} {a : StoreAction} (row : Option ScanJob) :
    RowChange env s a row row := by
  cases row with
  | none => exact .absent
  | some job => exact .changed .same

/-! ## The job statements of each transaction -/

section Rows

variable {job : ScanJob} {now : Instant}

theorem endedAs_failWithoutProvenance : EndedAs job (job.failWithoutProvenance now) :=
  ⟨rfl, rfl, rfl, rfl, rfl, rfl, rfl, rfl, rfl, Or.inl rfl, rfl, id⟩

theorem endedAs_cancelStopped : EndedAs job (job.cancelStopped now) :=
  ⟨rfl, rfl, rfl, rfl, rfl, rfl, rfl, rfl, rfl, Or.inr rfl, rfl, id⟩

theorem endedAs_terminalize : EndedAs job (job.terminalize now) :=
  ⟨rfl, rfl, rfl, rfl, rfl, rfl, rfl, rfl, rfl, Or.inr rfl, rfl, fun _ => rfl⟩

theorem endedAs_cancelDisconnected : EndedAs job (job.cancelDisconnected now) :=
  ⟨rfl, rfl, rfl, rfl, rfl, rfl, rfl, rfl, rfl, Or.inr rfl, rfl, fun _ => rfl⟩

theorem active_of_abandonedStop (h : job.abandonedStop now = true) : job.state.active = true := by
  simp only [ScanJob.abandonedStop, Bool.and_eq_true, beq_iff_eq] at h
  rw [h.1]
  rfl

theorem activeOf_iff {userId : UserId} :
    job.activeOf userId = true ↔ job.userId = userId ∧ job.state.active = true := by
  simp only [ScanJob.activeOf, Bool.and_eq_true, beq_iff_eq]

end Rows

section Statements

variable {db : Database} {now : Instant} {lease : ScanLease}

theorem requeueScanJob_jobs : (requeueScanJob now lease db).1.jobs =
    db.jobs.update (lease.holds now) (ScanJob.requeue now) := by
  unfold requeueScanJob
  dsimp only
  cases lease.replaceExisting <;> rfl

theorem releaseInterruptedScan_jobs : (releaseInterruptedScan now lease db).1.jobs =
    db.jobs.update lease.owns (ScanJob.release now) := by
  unfold releaseInterruptedScan
  dsimp only
  cases lease.replaceExisting <;> rfl

theorem stopScan_jobs {userId : UserId} : (stopScan now userId db).jobs =
    db.jobs.update (·.activeOf userId) (ScanJob.stop now) := rfl

theorem downgradeConnection_jobs : (downgradeConnection now lease db).jobs = db.jobs ∨
    (downgradeConnection now lease db).jobs =
      db.jobs.update lease.downgrades (ScanJob.cancelDisconnected now) := by
  unfold downgradeConnection
  split
  · exact Or.inl rfl
  · exact Or.inr rfl

theorem openConnection_jobs {vault : Vault} : (openConnection vault lease db).1.jobs = db.jobs := by
  unfold openConnection
  split
  · rfl
  · split
    · rfl
    · split <;> rfl

theorem persistRefreshedSession_jobs {vault : Vault} {fenceNow : Instant} {session : ClientSession} :
    (committed db (persistRefreshedSession vault now fenceNow lease session db)).jobs = db.jobs := by
  unfold persistRefreshedSession
  split
  · rfl
  · split
    · rfl
    · split <;> rfl

theorem persistScanPage_jobs {py : Python.Runtime} {fenceNow : Instant} {page : ScanPage}
    {db' : Database} (h : persistScanPage py now fenceNow lease page db = .ok db') :
    db'.jobs = db.jobs.update (lease.holds fenceNow)
      (ScanJob.recordPage page.messages.length page.nextOffsetId) := by
  obtain ⟨-, -, -, other, staged, hStaged, rfl⟩ := persistScanPage_eq_ok h
  rw [Database.updateJobs_jobs]
  congr 1
  exact (stagePage_tables hStaged).1

/-- The row a lease holds is the row of its job. -/
theorem heldJob_eq_some {job : ScanJob} : db.heldJob lease now = some job ↔
    db.jobs.find? lease.jobId = some job ∧ lease.holds now job = true := by
  rw [Database.heldJob, Option.filter_eq_some_iff]

theorem holds_of_persisted {py : Python.Runtime} {fenceNow : Instant} {page : ScanPage}
    {db' : Database} (h : persistScanPage py now fenceNow lease page db = .ok db')
    {job : ScanJob} (hJob : job ∈ db.jobs) (hFence : lease.holds fenceNow job = true) :
    lease.holds now job = true := by
  obtain ⟨-, ⟨held, hHeld⟩, -⟩ := persistScanPage_eq_ok h
  obtain ⟨hFind, hHolds⟩ := heldJob_eq_some.mp hHeld
  have hId : job.id = lease.jobId := ScanLease.id_of_owns (ScanLease.owns_of_holds hFence)
  have hSelf := Table.find?_key hJob
  rw [key_job, hId, hFind] at hSelf
  exact Option.some.inj hSelf ▸ hHolds

/-! ## Transactions on the connection -/

/-- Up to the connection table, nothing happens or the user's active scans are cancelled. -/
inductive CancelsAtMost (now : Instant) (userId : UserId) (db : Database) : Database → Prop
  | kept (connections : Table TelegramConnection) :
      CancelsAtMost now userId db { db with connections := connections }
  | cancelled (connections : Table TelegramConnection) :
      CancelsAtMost now userId db
        { db.cancelActiveScans now userId with connections := connections }

theorem CancelsAtMost.refl {userId : UserId} : CancelsAtMost now userId db db :=
  .kept db.connections

theorem CancelsAtMost.updateConnection {userId : UserId} {db' : Database}
    {f : TelegramConnection → TelegramConnection} {hKey : ∀ c, (f c).userId = c.userId}
    (h : CancelsAtMost now userId db db') :
    CancelsAtMost now userId db (db'.updateConnection userId f hKey) := by
  cases h with
  | kept connections => exact .kept _
  | cancelled connections => exact .cancelled _

theorem cancelsAtMost_cancel {userId : UserId} :
    CancelsAtMost now userId db (db.cancelActiveScans now userId) :=
  .cancelled _

theorem invalidateCorruptConnection_cancels {userId : UserId} :
    CancelsAtMost now userId db (invalidateCorruptConnection now userId db) :=
  cancelsAtMost_cancel.updateConnection

theorem authStatus_cancels {vault : Vault} {userId : UserId} :
    CancelsAtMost now userId db (authStatus vault now userId db).1 := by
  unfold authStatus
  split
  · exact .refl
  split
  · dsimp only
    split
    · exact invalidateCorruptConnection_cancels
    · exact .refl
  split
  · exact invalidateCorruptConnection_cancels
  split
  · exact CancelsAtMost.refl.updateConnection
  split
  · exact invalidateCorruptConnection_cancels
  · exact .refl

theorem finishStart_cancels {py : Python.Runtime} {vault : Vault} {request : StartRequest}
    {client : StartClient} {loaded : TelegramConnection} :
    CancelsAtMost now request.userId db (finishStart py vault now request client loaded db) := by
  unfold finishStart
  split
  · exact .refl
  · apply CancelsAtMost.updateConnection
    split
    · exact cancelsAtMost_cancel
    · exact .refl

theorem startTelegram_cancels {py : Python.Runtime} {vault : Vault} {request : StartRequest}
    {client : StartClient} :
    CancelsAtMost now request.userId db (startTelegram py vault now request client db).1 := by
  unfold startTelegram
  split
  · split
    · exact .refl
    · rename_i connections _
      dsimp only
      split
      · exact .refl
      · have hAdded := @finishStart_cancels { db with connections := connections } now py vault
          request client (.created request.userId)
        generalize finishStart py vault now request client _ _ = db' at hAdded ⊢
        cases hAdded with
        | kept connections' => exact .kept connections'
        | cancelled connections' => exact .cancelled connections'
  · split
    · exact finishStart_cancels
    · exact invalidateCorruptConnection_cancels

theorem verifyTelegram_cancels {vault : Vault} {userId : UserId} {nonce : Nat}
    {client : VerifyClient} :
    CancelsAtMost now userId db (verifyTelegram vault now userId nonce client db) := by
  unfold verifyTelegram
  split
  · exact .refl
  split
  · exact .refl
  split
  · exact .refl
  split
  · exact .refl
  split
  · exact CancelsAtMost.refl.updateConnection
  split
  · exact .refl
  · exact invalidateCorruptConnection_cancels
  · dsimp only
    split
    · exact .refl
    · exact CancelsAtMost.refl.updateConnection
    · exact CancelsAtMost.refl.updateConnection
    · split
      · exact .refl
      · apply CancelsAtMost.updateConnection
        split
        · exact cancelsAtMost_cancel
        · exact .refl

theorem disconnectTelegram_cancels {userId : UserId} :
    CancelsAtMost now userId db (disconnectTelegram now userId db) :=
  cancelsAtMost_cancel.updateConnection

theorem deleteSavedMessages_cancels {vault : Vault} {userId : UserId}
    {telegramUserId : TelegramId} {generation : Nat} {client : ClientIdentity}
    {session : ClientSession} :
    CancelsAtMost now userId db
      (deleteSavedMessages vault now userId telegramUserId generation client session db) := by
  have hInvalidated : CancelsAtMost now userId db (invalidateAuthorization now userId db) :=
    cancelsAtMost_cancel.updateConnection
  unfold deleteSavedMessages
  split
  · exact .refl
  split
  · exact .refl
  split
  · exact hInvalidated
  split
  · exact .refl
  · exact hInvalidated
  · exact hInvalidated
  · split
    · exact hInvalidated
    · exact CancelsAtMost.refl.updateConnection

/-! ## Creating a scan -/

/-- The validation changes the connection table only. -/
theorem validateAuthorizedConnection_error {vault : Vault} {userId : UserId}
    {client : ClientIdentity} {session : ClientSession} {rejected : Database}
    (h : validateAuthorizedConnection vault userId client session db = .error rejected) :
    ∃ connections, rejected = { db with connections := connections } := by
  unfold validateAuthorizedConnection at h
  split at h
  · cases h; exact ⟨_, rfl⟩
  split at h
  · cases h; exact ⟨_, rfl⟩
  split at h
  · cases h; exact ⟨_, rfl⟩
  split at h
  · cases h; exact ⟨_, rfl⟩
  · cases h; exact ⟨_, rfl⟩
  · cases h; exact ⟨_, rfl⟩
  split at h
  · cases h; exact ⟨_, rfl⟩
  · cases h

theorem validateAuthorizedConnection_ok {vault : Vault} {userId : UserId}
    {client : ClientIdentity} {session : ClientSession} {validated : Database}
    {connection : TelegramConnection}
    (h : validateAuthorizedConnection vault userId client session db =
      .ok (validated, connection)) :
    ∃ connections, validated = { db with connections := connections } := by
  unfold validateAuthorizedConnection at h
  split at h
  · cases h
  split at h
  · cases h
  split at h
  · cases h
  split at h
  · cases h
  · cases h
  · cases h
  split at h
  · cases h
  · cases h; exact ⟨_, rfl⟩

theorem insertJob_eq_some {db' : Database} {job : ScanJob} :
    db.insertJob job = some db' ↔ (∀ r ∈ db.jobs, r.activeOf job.userId = false) ∧
      ∃ jobs, db.jobs.insert? job = some jobs ∧ db' = { db with jobs := jobs } := by
  unfold Database.insertJob
  split
  · rename_i hActive
    constructor
    · intro h
      cases h
    · rintro ⟨hFree, -⟩
      obtain ⟨r, hr, hActive⟩ := List.any_eq_true.mp hActive
      rw [hFree r hr] at hActive
      cases hActive
  · rename_i hFree
    rw [Option.map_eq_some_iff]
    constructor
    · rintro ⟨jobs, hJobs, rfl⟩
      refine ⟨?_, jobs, hJobs, rfl⟩
      intro r hr
      by_contra hActive
      exact hFree (List.any_eq_true.mpr ⟨r, hr, by simpa using hActive⟩)
    · rintro ⟨-, jobs, hJobs, rfl⟩
      exact ⟨jobs, hJobs, rfl⟩

/-- What a scan start does: it fails, or it clears the user's markers if it replaces, and
adds the user's only active job. -/
theorem createScan_cases (vault : Vault) (settings : Settings) (userId : UserId)
    (pageSize : Nat) (clearExisting : Bool) (jobId : JobId) (client : ClientIdentity)
    (session : ClientSession) :
    (∃ connections, createScan vault settings now userId pageSize clearExisting jobId client
        session db = { db with connections := connections }) ∨
    ∃ connections job jobs, (∀ r ∈ db.jobs, r.activeOf userId = false) ∧
      (∃ telegramUserId generation, job = .queued jobId userId clearExisting pageSize
        telegramUserId generation settings.scanMaxMessages settings.scanMaxRuntimeSeconds now) ∧
      db.jobs.insert? job = some jobs ∧
      createScan vault settings now userId pageSize clearExisting jobId client session db =
        { (if clearExisting then db.clearMarkers (·.userId == userId) else db) with
          connections := connections, jobs := jobs } := by
  unfold createScan
  split
  · rename_i rejected hRejected
    exact Or.inl (validateAuthorizedConnection_error hRejected)
  · rename_i validated connection hValidated
    obtain ⟨connections, rfl⟩ := validateAuthorizedConnection_ok hValidated
    split
    · exact Or.inl ⟨db.connections, rfl⟩
    · rename_i telegramUserId _
      dsimp only
      generalize hCleared : (if clearExisting = true then
        Database.clearMarkers _ (·.userId == userId) else _) = cleared
      have hJobs : cleared.jobs = db.jobs := by
        rw [← hCleared]
        cases clearExisting <;> rfl
      cases hInsert : cleared.insertJob (.queued jobId userId clearExisting pageSize
          telegramUserId connection.generation settings.scanMaxMessages
          settings.scanMaxRuntimeSeconds now) with
      | none => exact Or.inl ⟨db.connections, rfl⟩
      | some created =>
          obtain ⟨hFree, jobs, hInserted, rfl⟩ := insertJob_eq_some.mp hInsert
          rw [hJobs] at hFree hInserted
          refine Or.inr ⟨connections, _, jobs, hFree, ⟨telegramUserId, connection.generation, rfl⟩,
            hInserted, ?_⟩
          rw [Option.getD_some, ← hCleared]
          cases clearExisting <;> rfl

theorem endUnclaimable_jobs {jobId : JobId} : (endUnclaimable now jobId db).jobs =
    (db.jobs.update (fun job => job.id == jobId && job.state.active && !job.hasProvenance)
      (ScanJob.failWithoutProvenance now)).update
        (fun job => job.id == jobId && job.abandonedStop now) (ScanJob.cancelStopped now) := rfl

theorem claimScanJob_jobs {owner : LeaseOwner} {jobId : JobId} :
    (claimScanJob now owner jobId db).1.jobs = (endUnclaimable now jobId db).jobs.update
      (claimedBy now jobId) (ScanJob.claim now owner) := rfl

theorem cancelAbandonedStop_jobs {userId : UserId} {jobId : JobId} :
    (cancelAbandonedStop now userId jobId db).jobs =
      db.jobs.update (fun job => job.id == jobId && job.activeOf userId)
        (ScanJob.cancelStopped now) := rfl

end Statements

/-! ## What a step does to a job -/

section Steps

variable {env : Env} {s s' : Store} {a : StoreAction} {j : JobId}

/-- A statement that makes of each selected row what `JobChange` allows. -/
theorem rowChange_update {p : ScanJob → Bool} {f : ScanJob → ScanJob}
    (hSelected : ∀ job ∈ s.db.jobs, p job = true → JobChange s a job (f job))
    (hKey : ∀ job, (Keyed.key (f job) : JobId) = Keyed.key job := by
      intro _; exact Eq.trans rfl rfl) :
    RowChange env s a (s.db.jobs.find? j) ((s.db.jobs.update p f hKey).find? j) := by
  rw [Table.find?_update]
  cases hJob : s.db.jobs.find? j with
  | none => exact .absent
  | some job =>
      refine .changed ?_
      beta_reduce
      split
      · rename_i hp
        exact hSelected job (Table.mem_of_find? hJob) hp
      · exact .same

theorem rowChange_of_cancelsAtMost {userId : UserId} {db' : Database}
    (h : CancelsAtMost s.now userId s.db db') :
    RowChange env s a (s.db.jobs.find? j) (db'.jobs.find? j) := by
  cases h with
  | kept connections => exact .refl _
  | cancelled connections =>
      refine rowChange_update fun job _ hActive => ?_
      exact .ended _ (activeOf_iff.mp hActive).2 endedAs_cancelDisconnected

theorem rowChange_of_createScan {start : ScanStart} {jobId : JobId} {client : ClientIdentity}
    {session : ClientSession} (hCreates : a.creates = some (start, jobId)) :
    RowChange env s a (s.db.jobs.find? j)
      ((s.createScan env start jobId client session).jobs.find? j) := by
  unfold Store.createScan
  rcases createScan_cases env.vault env.settings start.userId start.pageSize start.clearExisting
    jobId client session with
    ⟨connections, h⟩ | ⟨connections, new, jobs, hFree, ⟨tid, generation, rfl⟩, hInsert, h⟩
  · rw [h]
    exact .refl _
  · rw [h]
    obtain ⟨hAbsent, rfl⟩ := Table.insert?_eq_some.mp hInsert
    rw [Table.find?_insert]
    split
    · rename_i hKey
      rw [← hKey, hAbsent]
      exact .created start jobId tid generation hCreates hFree
    · exact .refl _

/-- A claim fails the job, cancels it, or takes it. -/
theorem rowChange_of_claim {jobId : JobId} :
    RowChange env s (.claim jobId) (s.db.jobs.find? j) ((s.claim jobId).db.jobs.find? j) := by
  show RowChange env s _ _ ((claimScanJob s.now s.nextOwner jobId s.db).1.jobs.find? j)
  rw [claimScanJob_jobs, endUnclaimable_jobs, Table.find?_update, Table.find?_update,
    Table.find?_update]
  cases hJob : s.db.jobs.find? j with
  | none => exact .absent
  | some job =>
      refine .changed ?_
      beta_reduce
      by_cases hFail : (job.id == jobId && job.state.active && !job.hasProvenance) = true
      · -- neither of the other two statements selects a failed job
        have hStop : ((job.failWithoutProvenance s.now).id == jobId &&
            (job.failWithoutProvenance s.now).abandonedStop s.now) = false := Bool.and_false _
        have hClaim : claimedBy s.now jobId (job.failWithoutProvenance s.now) = false :=
          Bool.and_false _
        rw [if_pos hFail, if_neg (ne_true_of_eq_false hStop),
          if_neg (ne_true_of_eq_false hClaim)]
        simp only [Bool.and_eq_true] at hFail
        exact .ended _ hFail.1.2 endedAs_failWithoutProvenance
      by_cases hStop : (job.id == jobId && job.abandonedStop s.now) = true
      · have hClaim : claimedBy s.now jobId (job.cancelStopped s.now) = false :=
          Bool.and_false _
        rw [if_neg hFail, if_pos hStop, if_neg (ne_true_of_eq_false hClaim)]
        exact .ended _ (active_of_abandonedStop (Bool.and_eq_true_iff.mp hStop).2)
          endedAs_cancelStopped
      · rw [if_neg hFail, if_neg hStop]
        split
        · rename_i hClaim
          simp only [claimedBy, Bool.and_eq_true, beq_iff_eq] at hClaim
          exact .claimed (by rw [hClaim.1.1]) hClaim.2 hClaim.1.2
        · exact .same

theorem rowChange_of_worker {lease : ScanLease} {op : WorkerOp} :
    RowChange env s (.worker lease op) (s.db.jobs.find? j)
      ((op.apply env s.now lease s.db).jobs.find? j) := by
  cases op with
  | renew => exact rowChange_update fun job _ hHolds => .renewed lease rfl hHolds
  | persist page delay =>
      simp only [WorkerOp.apply]
      cases hPersist : persistScanPage env.py s.now (s.now + delay) lease page s.db with
      | error e => exact .refl _
      | ok db' =>
          simp only [committed]
          rw [persistScanPage_jobs hPersist]
          refine rowChange_update fun job hJob hFence => ?_
          exact .recorded lease page delay rfl (holds_of_persisted hPersist hJob hFence)
  | refreshSession session delay =>
      simp only [WorkerOp.apply]
      rw [persistRefreshedSession_jobs]
      exact .refl _
  | requeue =>
      simp only [WorkerOp.apply]
      rw [requeueScanJob_jobs]
      exact rowChange_update fun job _ hHolds => .requeued lease rfl hHolds
  | release =>
      simp only [WorkerOp.apply]
      rw [releaseInterruptedScan_jobs]
      exact rowChange_update fun job _ hOwns => .released lease rfl hOwns
  | finalize state error reason =>
      simp only [WorkerOp.apply]
      by_cases hHeld : s.db.heldJob lease s.now = none
      · rw [finalizeScanJob_lost hHeld]
        exact .refl _
      · rw [finalizeScanJob_jobs hHeld]
        exact rowChange_update fun job _ hHolds => .finalized lease state error reason rfl hHolds
  | downgrade =>
      simp only [WorkerOp.apply]
      rcases @downgradeConnection_jobs s.db s.now lease with h | h
      · rw [h]
        exact .refl _
      · rw [h]
        refine rowChange_update fun job _ hDowngrades => ?_
        simp only [ScanLease.downgrades, Bool.and_eq_true] at hDowngrades
        exact .ended _ hDowngrades.2 endedAs_cancelDisconnected
  | openConnection =>
      simp only [WorkerOp.apply]
      rw [openConnection_jobs]
      exact .refl _

/-- `RowChange` lists what a step makes of the job rows. -/
theorem step_row (h : s.step env a = some s') (j : JobId) :
    RowChange env s a (s.db.jobs.find? j) (s'.db.jobs.find? j) := by
  cases a with
  | tick elapsed =>
      cases h
      exact .refl _
  | claim jobId =>
      cases h
      exact rowChange_of_claim
  | worker lease op =>
      simp only [Store.step] at h
      split at h
      · cases h
        exact rowChange_of_worker
      · cases h
  | terminalizeExpired =>
      cases h
      refine rowChange_update fun job _ hAbandoned => ?_
      exact .ended _ (active_of_abandonedStop hAbandoned) endedAs_terminalize
  | startScan start jobId client session =>
      simp only [Store.step] at h
      split at h
      · cases h
      split at h
      · cases h
        exact .refl _
      · cases h
        exact .refl _
      · cases h
        refine rowChange_update fun job _ hStopped => ?_
        have hActive := (Bool.and_eq_true_iff.mp hStopped).2
        exact .ended _ (activeOf_iff.mp hActive).2 endedAs_cancelStopped
      · cases h
        exact rowChange_of_createScan rfl
  | finishScanStart start jobId client session =>
      simp only [Store.step] at h
      split at h
      · cases h
        exact rowChange_of_createScan rfl
      · cases h
  | stopScan userId =>
      cases h
      refine rowChange_update fun job _ hActive => ?_
      obtain ⟨hUser, hActive⟩ := activeOf_iff.mp hActive
      exact .stopped (by rw [hUser]) hActive
  | authStatus userId =>
      cases h
      exact rowChange_of_cancelsAtMost authStatus_cancels
  | authStart request client =>
      cases h
      exact rowChange_of_cancelsAtMost startTelegram_cancels
  | finishAuthStart i client =>
      obtain ⟨start, -, rfl⟩ := Option.map_eq_some_iff.mp h
      exact rowChange_of_cancelsAtMost finishStart_cancels
  | verify userId nonce client =>
      cases h
      exact rowChange_of_cancelsAtMost verifyTelegram_cancels
  | disconnect userId =>
      cases h
      exact rowChange_of_cancelsAtMost disconnectTelegram_cancels
  | deleteRemote userId telegramUserId generation client session =>
      cases h
      exact rowChange_of_cancelsAtMost deleteSavedMessages_cancels
  | edit edit =>
      cases h
      have hJobs : (edit.apply s.db).jobs = s.db.jobs := edit.apply_jobs
      show RowChange env s _ _ ((edit.apply s.db).jobs.find? j)
      rw [hJobs]
      exact .refl _

theorem step_job (h : s.step env a = some s') {job : ScanJob}
    (hJob : s.db.jobs.find? j = some job) :
    ∃ job', s'.db.jobs.find? j = some job' ∧ JobChange s a job job' := by
  have hRow := step_row h j
  rw [hJob] at hRow
  generalize hRow' : s'.db.jobs.find? j = row at hRow
  cases hRow with
  | changed hChange => exact ⟨_, rfl, hChange⟩

/-- Each row after a step is one from before it, or the one the step creates. -/
theorem mem_step_jobs (h : s.step env a = some s') {job' : ScanJob} (hJob' : job' ∈ s'.db.jobs) :
    (∃ job ∈ s.db.jobs, JobChange s a job job') ∨
      ∃ start jobId telegramUserId generation, a.creates = some (start, jobId) ∧
        (∀ job ∈ s.db.jobs, job.activeOf start.userId = false) ∧
        job' = .queued jobId start.userId start.clearExisting start.pageSize telegramUserId
          generation env.settings.scanMaxMessages env.settings.scanMaxRuntimeSeconds s.now := by
  have hRow := step_row h job'.id
  rw [show s'.db.jobs.find? job'.id = some job' from Table.find?_key hJob'] at hRow
  generalize hOld : s.db.jobs.find? job'.id = row at hRow
  cases hRow with
  | changed hChange => exact Or.inl ⟨_, Table.mem_of_find? hOld, hChange⟩
  | created start jobId telegramUserId generation hCreates hFree =>
      exact Or.inr ⟨start, jobId, telegramUserId, generation, hCreates, hFree, rfl⟩

end Steps

/-! ## Reading the list -/

section Reading

variable {s : Store} {a : StoreAction} {job job' : ScanJob}

theorem active_of_claimable {now : Instant} (h : job.claimable now = true) :
    job.state.active = true := by
  simp only [ScanJob.claimable, Bool.or_eq_true, Bool.and_eq_true, beq_iff_eq] at h
  rcases h with hState | ⟨hState, -⟩ <;> rw [hState] <;> rfl

/-- An ended job stays as it is. -/
theorem JobChange.eq_of_ended (h : JobChange s a job job') (hEnded : job.state.active = false) :
    job' = job := by
  have hNotActive : ¬ job.state.active = true := by rw [hEnded]; exact Bool.false_ne_true
  cases h with
  | same => rfl
  | claimed _ hClaimable => exact absurd (active_of_claimable hClaimable) hNotActive
  | renewed lease _ hHolds =>
      exact absurd (ScanLease.active_of_owns (ScanLease.owns_of_holds hHolds)) hNotActive
  | recorded lease _ _ _ hHolds =>
      exact absurd (ScanLease.active_of_owns (ScanLease.owns_of_holds hHolds)) hNotActive
  | requeued lease _ hHolds =>
      exact absurd (ScanLease.active_of_owns (ScanLease.owns_of_holds hHolds)) hNotActive
  | released lease _ hOwns => exact absurd (ScanLease.active_of_owns hOwns) hNotActive
  | finalized lease _ _ _ _ hHolds =>
      exact absurd (ScanLease.active_of_owns (ScanLease.owns_of_holds hHolds)) hNotActive
  | stopped _ hActive => exact absurd hActive hNotActive
  | ended _ hActive => exact absurd hActive hNotActive

theorem JobChange.active_of_active (h : JobChange s a job job')
    (hActive : job'.state.active = true) : job.state.active = true := by
  by_contra hEnded
  rw [Bool.not_eq_true] at hEnded
  rw [h.eq_of_ended hEnded, hEnded] at hActive
  cases hActive

/-- The columns of a job that are written once. -/
structure SameJob (job job' : ScanJob) : Prop where
  id : job'.id = job.id
  userId : job'.userId = job.userId
  replaceExisting : job'.replaceExisting = job.replaceExisting
  telegramUserId : job'.telegramUserId = job.telegramUserId
  connectionGeneration : job'.connectionGeneration = job.connectionGeneration
  maxMessages : job'.maxMessages = job.maxMessages

theorem SameJob.refl : SameJob job job := ⟨rfl, rfl, rfl, rfl, rfl, rfl⟩

theorem SameJob.trans {job'' : ScanJob} (h : SameJob job job') (h' : SameJob job' job'') :
    SameJob job job'' :=
  ⟨h'.id.trans h.id, h'.userId.trans h.userId, h'.replaceExisting.trans h.replaceExisting,
    h'.telegramUserId.trans h.telegramUserId,
    h'.connectionGeneration.trans h.connectionGeneration, h'.maxMessages.trans h.maxMessages⟩

theorem JobChange.sameJob (h : JobChange s a job job') : SameJob job job' := by
  cases h with
  | ended _ _ hEnded =>
      exact ⟨hEnded.id, hEnded.userId, hEnded.replaceExisting, hEnded.telegramUserId,
        hEnded.connectionGeneration, hEnded.maxMessages⟩
  | _ => exact ⟨rfl, rfl, rfl, rfl, rfl, rfl⟩

/-- Only a claim gives a job an owner. -/
theorem JobChange.leaseOwner (h : JobChange s a job job') :
    job'.leaseOwner = none ∨ job'.leaseOwner = job.leaseOwner ∨
      a = .claim job.id ∧ job.claimable s.now = true ∧ job.hasProvenance = true ∧
        job' = job.claim s.now s.nextOwner := by
  cases h with
  | same => exact Or.inr (Or.inl rfl)
  | claimed h hClaimable hProvenance => exact Or.inr (Or.inr ⟨h, hClaimable, hProvenance, rfl⟩)
  | renewed => exact Or.inr (Or.inl rfl)
  | recorded => exact Or.inr (Or.inl rfl)
  | requeued => exact Or.inl rfl
  | released => exact Or.inl rfl
  | finalized => exact Or.inl rfl
  | stopped =>
      simp only [ScanJob.stop]
      split
      · exact Or.inl rfl
      · exact Or.inr (Or.inl rfl)
  | ended _ _ hEnded => exact Or.inl hEnded.leaseOwner

/-- How far a job has come. -/
structure SameCounts (job job' : ScanJob) : Prop where
  messagesScanned : job'.messagesScanned = job.messagesScanned
  pagesScanned : job'.pagesScanned = job.pagesScanned
  lastMessageId : job'.lastMessageId = job.lastMessageId

/-- Only a persisted page moves a job on. -/
theorem JobChange.counts (h : JobChange s a job job') : SameCounts job job' ∨
    ∃ lease page delay, a = .worker lease (.persist page delay) ∧
      lease.holds s.now job = true ∧
      job' = job.recordPage page.messages.length page.nextOffsetId := by
  cases h with
  | recorded lease page delay h hHolds => exact Or.inr ⟨lease, page, delay, h, hHolds, rfl⟩
  | ended _ _ hEnded => exact Or.inl ⟨hEnded.messagesScanned, hEnded.pagesScanned, hEnded.lastMessageId⟩
  | _ => exact Or.inl ⟨rfl, rfl, rfl⟩

/-- A lease that owns a job after a step owned it before, unless the step is its claim. -/
theorem JobChange.owns (h : JobChange s a job job') {lease : ScanLease}
    (hOwns : lease.owns job' = true) : lease.owns job = true ∨
      a = .claim job.id ∧ job.claimable s.now = true ∧ job.hasProvenance = true ∧
        job' = job.claim s.now s.nextOwner := by
  have hNone (hOwner : job'.leaseOwner = none) : False := by
    have hNames := (ScanLease.names_iff.mp (ScanLease.names_of_owns hOwns)).2.2.2.2
    rw [hOwner] at hNames
    cases hNames
  cases h with
  | same => exact Or.inl hOwns
  | claimed h hClaimable hProvenance => exact Or.inr ⟨h, hClaimable, hProvenance, rfl⟩
  | renewed => exact Or.inl hOwns
  | recorded => exact Or.inl hOwns
  | requeued => exact (hNone rfl).elim
  | released => exact (hNone rfl).elim
  | finalized => exact (hNone rfl).elim
  | stopped _ hActive =>
      refine Or.inl (ScanLease.owns_iff.mpr ?_)
      cases hAtOnce : job.stopsAtOnce s.now with
      | true =>
          refine (hNone ?_).elim
          simp only [ScanJob.stop, hAtOnce, if_true]
      | false =>
          obtain ⟨hId, hUser, hTelegram, hGeneration, hOwner⟩ :=
            ScanLease.names_iff.mp (ScanLease.names_of_owns hOwns)
          simp only [ScanJob.stop, hAtOnce] at hOwner
          refine ⟨ScanLease.names_iff.mpr ⟨hId, hUser, hTelegram, hGeneration, hOwner⟩, ?_⟩
          simp only [ScanJob.stopsAtOnce, Bool.or_eq_false_iff, beq_eq_false_iff_ne] at hAtOnce
          cases hState : job.state with
          | pending => exact absurd hState hAtOnce.1
          | running => exact Or.inl rfl
          | stopping => exact Or.inr rfl
          | _ =>
              rw [hState] at hActive
              cases hActive
  | ended _ _ hEnded => exact (hNone hEnded.leaseOwner).elim

end Reading

end SavedOrganizer
