import SavedOrganizer.System.StatementMarks

/-!
# Workers agree with the jobs they own, statement by statement

`JobAgrees` is `System.Sync` for the statements: a worker whose lease owns the committed job
agrees with it. A step commits nothing, or what its transaction sees (`Commits`). The worker that
waits for a page moves with the job when that commits; a lease that a claim returns agrees with the
row it was read from.
-/

namespace SavedOrganizer

open Transition MarkerView

/-! ## The committed rows -/

/-- The committed row of a job. -/
def StatementWorld.job (w : StatementWorld) (j : JobId) : Option ScanJob :=
  (w.markers.store.jobs.row j).committed

/-- The committed marker of a row of messages. -/
def StatementWorld.row (w : StatementWorld) (key : MessageKey) : Option Marker :=
  (w.markers.store.messages.row key).committed

/-- Nothing is committed. -/
structure Uncommitted (w w' : StatementWorld) : Prop where
  jobs : ∀ j, w'.job j = w.job j
  rows : ∀ key, w'.row key = w.row key

/-- What a transaction sees is committed. -/
structure Commits (w w' : StatementWorld) (s : MarkerView) : Prop where
  jobs : ∀ j, w'.job j = s.jobs.view j
  rows : ∀ key, w'.row key = s.messages.view key
  jobsBefore : ∀ j, s.jobs.committed j = w.job j
  rowsBefore : ∀ key, s.messages.committed key = w.row key
  ok : CommitOk s

section Committed

variable {settings : Settings} {w w' : StatementWorld} {a : StatementAction} {j : JobId} {key : MessageKey}
  {t : TransactionId} {store : MarkerStore} {job job' : ScanJob}

theorem uncommitted_of_store (h : w'.markers.store = w.markers.store) : Uncommitted w w' := by
  refine ⟨fun j => ?_, fun key => ?_⟩
  · unfold StatementWorld.job
    rw [h]
  · unfold StatementWorld.row
    rw [h]

theorem uncommitted_of_seen (t : TransactionId)
    (hJobs : (w'.markers.store.seenBy t).jobs.committed = (w.markers.store.seenBy t).jobs.committed)
    (hMessages : (w'.markers.store.seenBy t).messages.committed =
      (w.markers.store.seenBy t).messages.committed) : Uncommitted w w' :=
  ⟨fun j => congrFun hJobs j, fun key => congrFun hMessages key⟩

theorem uncommitted_rollback (h : w'.markers.store = w.markers.store.rollback t) :
    Uncommitted w w' := by
  refine uncommitted_of_seen t ?_ ?_ <;> rw [h, seenBy_rollback] <;> rfl

theorem uncommitted_abandon {worker : ScanWorker}
    (h : w'.markers.store = (w.abandon worker).markers.store) : Uncommitted w w' := by
  cases hAwaits : worker.awaits with
  | none =>
      refine uncommitted_of_store (h.trans ?_)
      unfold StatementWorld.abandon
      rw [hAwaits]
  | some awaited =>
      obtain ⟨t, next⟩ := awaited
      refine uncommitted_rollback (t := t) (h.trans ?_)
      unfold StatementWorld.abandon
      rw [hAwaits]

theorem uncommitted_taken {owner : LeaseOwner} {worker : ScanWorker} {turn : ScanTurn}
    (h : Taken w w' owner worker turn) : Uncommitted w w' := by
  cases h with
  | goesOn hStore => exact uncommitted_abandon hStore
  | calls _ hStore => exact uncommitted_abandon hStore
  | done hStore => exact uncommitted_abandon hStore

theorem commits_of_store (h : w'.markers.store = store.commit t)
    (hJobs : (store.seenBy t).jobs.committed = (w.markers.store.seenBy t).jobs.committed)
    (hMessages : (store.seenBy t).messages.committed = (w.markers.store.seenBy t).messages.committed)
    (hOk : CommitOk (store.seenBy t)) : Commits w w' (store.seenBy t) := by
  have hSeen : w'.markers.store.seenBy t = (store.seenBy t).commit := by rw [h, seenBy_commit]
  exact ⟨fun j => congrFun (congrArg (·.jobs.committed) hSeen) j,
    fun key => congrFun (congrArg (·.messages.committed) hSeen) key,
    fun j => congrFun hJobs j, fun key => congrFun hMessages key, hOk⟩

/-- What a step commits: nothing, what the transaction of a call sees, or a write of another
session. -/
inductive CommitKind (w : StatementWorld) (a : StatementAction) (w' : StatementWorld) : Prop
  | quiet (hSame : Uncommitted w w')
  | call {t : TransactionId} {phase' : MarkerPhase} (hGoesOn : CallGoesOn (w.markers.calls t) phase')
      (hCommits : Commits w w' (w.markers.store.seenBy t))
      (hCalls : w'.markers.calls = Function.update w.markers.calls t phase')
      (hWorkers : w'.workers = w.informed t phase') (hNext : w'.nextOwner = w.nextOwner)
  | write {t : TransactionId} {s' : MarkerView}
      (hAction : (∃ edit, a = .edit t edit) ∨ s'.messages = (w.markers.store.seenBy t).messages)
      (hFresh : Fresh (w.markers.store.seenBy t))
      (hWrite : OutsideWrite (w.markers.store.seenBy t) s') (hCommits : Commits w w' s')

theorem commitKind_of_kind (h : WorldSeen w) (hKind : StepKind settings w a w') :
    CommitKind w a w' := by
  cases hKind with
  | passes hStore => exact .quiet (uncommitted_of_store hStore)
  | begins _ hStore => exact .quiet (uncommitted_of_store hStore)
  | @advances t store' phase' _ _ hAdvances hStore hCalls hWorkers hNext =>
      cases hAdvances with
      | executed hStatement hExecutes =>
          obtain ⟨hJobs, hMessages⟩ := hExecutes.committed
          refine .quiet (uncommitted_of_seen t ?_ ?_)
          · rw [hStore, hStatement.own, hJobs]
          · rw [hStore, hStatement.own, hMessages]
      | committed hGoesOn =>
          exact .call hGoesOn (commits_of_store hStore rfl rfl (h.calls t).commitOk) hCalls hWorkers hNext
      | rolledBack _ hStatement _ hJobs hMessages =>
          refine .quiet (uncommitted_of_seen t ?_ ?_)
          · rw [hStore, seenBy_rollback, hStatement.own]
            exact hJobs
          · rw [hStore, seenBy_rollback, hStatement.own]
            exact hMessages
      | issued => exact .quiet (uncommitted_of_seen t (hStore ▸ rfl) (hStore ▸ rfl))
  | raises hStore => exact .quiet (uncommitted_rollback hStore)
  | turns _ _ hTake => exact .quiet (uncommitted_taken (taken_of_take hTake))
  | @writes t store' s' hAction hIdle hStatement hWrite hStore =>
      have hFresh : PhaseSeen (w.markers.store.seenBy t) (w.waits t) .idle :=
        hIdle ▸ (h.calls t).phaseSeen
      refine .write hAction hFresh.1 hWrite (hStatement.own ▸ commits_of_store hStore ?_ ?_ ?_)
      · rw [hStatement.own, hWrite.jobs]
      · rw [hStatement.own, hWrite.committed]
      · rw [hStatement.own]
        exact hWrite.commitOk (h.calls t) hFresh.1

theorem commits_of_kind (h : WorldSeen w) (hKind : StepKind settings w a w') :
    Uncommitted w w' ∨ ∃ s, Commits w w' s := by
  cases commitKind_of_kind h hKind with
  | quiet hSame => exact Or.inl hSame
  | call _ hCommits => exact Or.inr ⟨_, hCommits⟩
  | write _ _ _ hCommits => exact Or.inr ⟨_, hCommits⟩

/-- A job stays, and goes on from what it was. -/
theorem job_of_kind (h : WorldSeen w) (hKind : StepKind settings w a w') (hJob : w.job j = some job) :
    ∃ job', w'.job j = some job' ∧ JobMoves job job' := by
  rcases commits_of_kind h hKind with hSame | ⟨s, hCommits⟩
  · exact ⟨job, (hSame.jobs j).trans hJob, (JobGoes.refl job).moves⟩
  · have hBefore : s.jobs.committed j = some job := (hCommits.jobsBefore j).trans hJob
    obtain ⟨job', hView⟩ := Option.ne_none_iff_exists'.mp (hCommits.ok.there j (hBefore ▸ nofun))
    refine ⟨job', (hCommits.jobs j).trans hView, ?_⟩
    rcases hCommits.ok.jobs j job' hView with ⟨before, hBefore', hMoves⟩ | hAdded
    · obtain rfl := Option.some.inj (hBefore.symm.trans hBefore')
      exact hMoves
    · cases hAdded.committed.symm.trans hBefore

end Committed

/-! ## A worker's turn -/

section Turns

variable {E : SavedMessages → Prop} {settings : Settings} {src : SavedMessages} {now : Instant}
  {stop : Option Bool} {lease : ScanLease} {job : ScanJob} {phase next : WorkerPhase} {act : ScanAct}

end Turns

/-! ## Workers and their job -/

/-- The workers that own the committed job agree with it. -/
structure JobAgrees (E : SavedMessages → Prop) (j : JobId) (w : StatementWorld) : Prop where
  counted : ∀ job, w.job j = some job → job.state.active = true → Counted job
  synced : ∀ job, w.job j = some job → ∀ owner worker, w.workers owner = some worker →
    worker.lease.owns job = true → Synced E False worker.lease job worker.phase

section Agreement

variable {E : SavedMessages → Prop} {settings : Settings} {w w' : StatementWorld}
  {a : StatementAction} {j : JobId} {t : TransactionId} {job : ScanJob} {owner : LeaseOwner} {worker worker' : ScanWorker}

theorem Synced.failing {lease : ScanLease} {phase : WorkerPhase} {K : Prop}
    (h : Synced E K lease job phase) : Synced E K lease job .failing :=
  ⟨h.maxMessages, h.replaceExisting, trivial⟩

/-- What a commit makes of a job that was there. -/
inductive JobCommit (s : MarkerView) (waits : Waiter) (phase : MarkerPhase) (j : JobId)
    (job : ScanJob) : ScanJob → Prop
  | follows {job' : ScanJob} (hSame : SameJob job job') (hCounts : SameCounts job job')
      (hOwner : KeepsOwner job job') : JobCommit s waits phase j job job'
  | claimed {begun : Instant} {owner : LeaseOwner} {matched : Bool}
      (hPhase : phase = .claimCommitting begun j owner matched) :
      JobCommit s waits phase j job (job.claim begun owner)
  | recorded {lease : ScanLease} {page : ScanPage} {st st' : ScanState}
      (hPhase : phase = .committing none) (hId : lease.jobId = j)
      (hAwaits : AwaitsPage waits lease page st st') (hOwns : lease.owns job = true) :
      JobCommit s waits phase j job (job.recordPage page.messages.length page.nextOffsetId)

theorem JobCommit.same {s : MarkerView} {waits : Waiter} {phase : MarkerPhase} {job' : ScanJob}
    (h : JobCommit s waits phase j job job') : SameJob job job' := by
  cases h with
  | follows hSame => exact hSame
  | claimed => exact ⟨rfl, rfl, rfl, rfl, rfl, rfl⟩
  | recorded => exact ⟨rfl, rfl, rfl, rfl, rfl, rfl⟩

/-- The worker of a page agrees with the job before it. -/
theorem JobAgrees.scanSync (h : JobAgrees E j w) (hJob : w.job j = some job) {lease : ScanLease}
    {page : ScanPage} {st st' : ScanState} (hAwaits : AwaitsPage (w.waits t) lease page st st')
    (hOwns : lease.owns job = true) :
    ScanSync E lease job st ∧ lease.maxMessages = job.maxMessages ∧
      lease.replaceExisting = job.replaceExisting := by
  have hSynced := h.synced job hJob _ _ hAwaits.waits hOwns
  exact ⟨hSynced.phase, hSynced.maxMessages, hSynced.replaceExisting⟩

theorem JobAgrees.delivers (h : JobAgrees E j w) (hJob : w.job j = some job) {lease : ScanLease}
    {page : ScanPage} {st st' : ScanState} (hAwaits : AwaitsPage (w.waits t) lease page st st')
    (hOwns : lease.owns job = true) :
    Synced E False lease (job.recordPage page.messages.length page.nextOffsetId) (.scanning st') ∧
      Counted (job.recordPage page.messages.length page.nextOffsetId) := by
  obtain ⟨hScan, hMax, hReplace⟩ := h.scanSync hJob hAwaits hOwns
  obtain ⟨reached, hPhase⟩ := hAwaits.phase
  obtain ⟨elapsed, hResume⟩ := hAwaits.resumed
  obtain ⟨hScan', hCounted⟩ := deliver_sync hScan hMax hPhase hResume
  exact ⟨⟨hMax, hReplace, hScan'⟩, hCounted⟩

theorem CallGoesOn.commits {phase phase' : MarkerPhase} (h : CallGoesOn phase phase') :
    phase.commits = true := by
  cases h <;> rfl

theorem CallGoesOn.page {phase phase' : MarkerPhase} (h : CallGoesOn phase phase') : phase.page = none := by
  cases h <;> rfl

theorem CallGoesOn.issues {phase' : MarkerPhase} (h : CallGoesOn (w.markers.calls t) phase') :
    w.markers.issues t = none := by
  have hCommits := h.commits
  unfold MarkerWorld.issues
  split
  · rename_i hPhase
    rw [hPhase] at hCommits
    cases hCommits
  · rfl

end Agreement

end SavedOrganizer
