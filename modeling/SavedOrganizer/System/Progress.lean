import SavedOrganizer.System.Sync

/-!
# How a job gets on

`WorldChange` sorts the steps of the world by the transaction they commit. From it follow the
two facts about jobs the results on whole runs are built on: a step either persists the next
page of the job's source (`PersistsPage`) or leaves its cursor and its count alone
(`world_progress`), and a job is completed only by the worker that owns it, in the step that
settles a slice whose reason is true (`completed_by_owner`).
-/

namespace SavedOrganizer

open Transition SavedMessages

/-- What a step of the world commits. -/
inductive WorldChange (env : Env) (w : World) (a : WorldAction) (w' : World) : Prop
  | unchanged (hStore : w'.store = w.store) (hPersisted : w'.persisted = w.persisted)
  | outside (sa : StoreAction) (hStep : w.store.step env sa = some w'.store)
      (hAction : a = .store sa ∨ ∃ jobId, a = .claim jobId ∧ sa = .claim jobId)
      (hOutside : ∀ lease op, sa ≠ .worker lease op) (hPersisted : w'.persisted = w.persisted)
  | quiet (owner : LeaseOwner) (own : Worker) (act : WorkerAct) (op : WorkerOp)
      (hAction : a = .worker owner act) (hOwn : w.workers owner = some own)
      (hStep : w.store.step env (.worker own.lease op) = some w'.store)
      (hPermitted : Permitted w.store own.lease own.phase act op)
      (hPersisted : w'.persisted = w.persisted)
  | page (owner : LeaseOwner) (own : Worker) (act : WorkerAct) (st st' : ScanState)
      (page : ScanPage) (reached : Bool) (delay : Nat) (turn : Turn)
      (hAction : a = .worker owner act) (hOwn : w.workers owner = some own)
      (hPhase : own.phase = .scanning st)
      (hDelivers : Delivers env w.store own.lease st st' page reached delay turn)
      (hWorld : w' = w.afterTurn own owner turn)

section Changes

variable {env : Env} {w w' : World} {a : WorldAction}

theorem world_change (h : w.step env a = some w') : WorldChange env w a w' := by
  cases a with
  | store sa =>
      simp only [World.step] at h
      split at h
      · rename_i hExternal
        obtain ⟨s', hStep, rfl⟩ := Option.map_eq_some_iff.mp h
        refine .outside sa hStep (Or.inl rfl) ?_ rfl
        rintro lease op rfl
        cases hExternal
      · cases h
  | changeSource account messages =>
      cases h
      exact .unchanged rfl rfl
  | claim jobId =>
      cases h
      exact .outside (.claim jobId) rfl (Or.inr ⟨jobId, rfl, rfl⟩) (fun _ _ h => by cases h) rfl
  | worker owner act =>
      obtain ⟨own, hOwn, h⟩ := Option.bind_eq_some_iff.mp h
      obtain ⟨turn, hTurn, rfl⟩ := Option.map_eq_some_iff.mp h
      rcases worker_step_cases hTurn with ⟨hPage, hStore⟩ |
        ⟨st, st', page, reached, delay, hPhase, hDelivers⟩
      · have hPersisted : (w.afterTurn own owner turn).persisted = w.persisted := by
          simp only [World.afterTurn, hPage]
        rcases hStore with hSame | ⟨op, hStep, hPermitted⟩
        · exact .unchanged hSame hPersisted
        · exact .quiet owner own act op rfl hOwn hStep hPermitted hPersisted
      · exact .page owner own act st st' page reached delay turn rfl hOwn hPhase hDelivers rfl

/-- The step persists the page next below the cursor of job `j`. -/
structure PersistsPage (env : Env) (E : SavedMessages → Prop) (w w' : World) (j : JobId)
    (job : ScanJob) (page : ScanPage) : Prop where
  found : w.store.db.jobs.find? j = some job
  active : job.state.active = true
  found' : w'.store.db.jobs.find? j =
    some (job.recordPage page.messages.length page.nextOffsetId)
  pageOf : ∃ source, E source ∧ PageOf source job.lastMessageId page
  transaction : ∃ lease delay, lease.holds w.store.now job = true ∧
    lease.replaceExisting = job.replaceExisting ∧
    persistScanPage env.py w.store.now (w.store.now + delay) lease page w.store.db =
      .ok w'.store.db
  persisted : w'.persisted j = w.persisted j ++ page.ids

/-- The step leaves the cursor and the count of job `j` alone. -/
def Stays (env : Env) (w w' : World) (j : JobId) : Prop :=
  w'.persisted j = w.persisted j ∧ (w'.store = w.store ∨ ∃ sa,
    w.store.step env sa = some w'.store ∧
      ∀ lease page delay, sa = .worker lease (.persist page delay) → lease.jobId ≠ j)

theorem world_progress {E : SavedMessages → Prop} {K : Prop} {j : JobId}
    (h : w.step env a = some w') (hSync : JobSync E K w j) :
    Stays env w w' j ∨ ∃ job page, PersistsPage env E w w' j job page := by
  cases world_change h with
  | unchanged hStore hPersisted => exact Or.inl ⟨by rw [hPersisted], Or.inl hStore⟩
  | outside sa hStep _ hOutside hPersisted =>
      exact Or.inl ⟨by rw [hPersisted], Or.inr ⟨sa, hStep, fun lease page delay hAction =>
        absurd hAction (hOutside lease _)⟩⟩
  | quiet owner own act op _ _ hStep hPermitted hPersisted =>
      refine Or.inl ⟨by rw [hPersisted], Or.inr ⟨_, hStep, fun lease page delay hAction => ?_⟩⟩
      cases hAction
      exact absurd rfl (hPermitted.noPage page delay)
  | page owner own act st st' page reached delay turn _ hOwn hPhase hDelivers hWorld =>
      subst hWorld
      have hPersisted : (w.afterTurn own owner turn).persisted =
          Function.update w.persisted own.lease.jobId
            (w.persisted own.lease.jobId ++ page.ids) := by
        simp only [World.afterTurn, hDelivers.page]
      by_cases hJobId : own.lease.jobId = j
      · obtain ⟨job, hFind, hHolds, hFind'⟩ := delivers_row hDelivers
        rw [hJobId] at hFind hFind'
        have hOwns := ScanLease.owns_of_holds hHolds
        have hSynced := hSync.synced job hFind owner own hOwn hOwns
        have hScan : ScanSync E own.lease job st := by
          have h := hSynced.phase
          rw [hPhase] at h
          exact h
        obtain ⟨db, hOk⟩ := hDelivers.persisted
        have hDb := delivers_db hDelivers hOk
        refine Or.inr ⟨job, page, hFind, ScanLease.active_of_owns hOwns, hFind',
          pageOf_delivering hScan hDelivers.phase,
          ⟨own.lease, delay, hHolds, hSynced.replaceExisting, hDb ▸ hOk⟩, ?_⟩
        rw [hPersisted, hJobId, Function.update_self]
      · refine Or.inl ⟨?_, Or.inr ⟨_, hDelivers.step, fun lease page delay hAction => ?_⟩⟩
        · rw [hPersisted, Function.update_of_ne (Ne.symm hJobId)]
        · cases hAction
          exact hJobId

/-- A job row stays, and an ended job is not active again. -/
theorem world_job {j : JobId} {job : ScanJob} (h : w.step env a = some w')
    (hJob : w.store.db.jobs.find? j = some job) : ∃ job',
      w'.store.db.jobs.find? j = some job' ∧ SameJob job job' ∧
        (job'.state.active = true → job.state.active = true) := by
  rcases world_store h with hSame | ⟨sa, hStep⟩
  · exact ⟨job, by rw [hSame]; exact hJob, .refl, id⟩
  · obtain ⟨job', hJob', hChange⟩ := step_job hStep hJob
    exact ⟨job', hJob', hChange.sameJob, hChange.active_of_active⟩

theorem worldInv_of_run {as : List WorldAction} (hInv : WorldInv w)
    (hRun : run (World.step env) w as = some w') : WorldInv w' :=
  invariant (fun _ _ _ h hInv => worldInv_step h hInv) hInv hRun

/-- In every run from an initial world workers and jobs agree, whatever Telegram holds. -/
theorem jobSync_of_run {as : List WorldAction} (hStart : w.Initial)
    (hRun : run (World.step env) w as = some w') (j : JobId) :
    WorldInv w' ∧ JobSync (fun _ => True) False w' j := by
  refine invariant (I := fun u => WorldInv u ∧ JobSync (fun _ => True) False u j) ?_
    ⟨hStart.inv, jobSync_of_ended fun job hJob =>
      (hStart.store.jobsEnded job (Table.mem_of_find? hJob)).1⟩ hRun
  rintro u a v h ⟨hInv, hSync⟩
  exact ⟨worldInv_step h hInv, jobSync_step h hInv hSync (fun _ _ _ _ => trivial)
    (fun hFalse => hFalse.elim)⟩

end Changes

/-! ## Completion -/

theorem JobChange.completed {s : Store} {sa : StoreAction} {job job' : ScanJob}
    (h : JobChange s sa job job') (hActive : job.state.active = true)
    (hDone : job'.state = .completed) : ∃ lease error reason,
      sa = .worker lease (.finalize ⟨.completed, rfl⟩ error reason) ∧
        lease.holds s.now job = true ∧ job' = job.finalize s.now .completed error reason := by
  cases h with
  | same =>
      rw [hDone] at hActive
      cases hActive
  | claimed => cases hDone
  | renewed =>
      rw [show job.state = .completed from hDone] at hActive
      cases hActive
  | recorded =>
      rw [show job.state = .completed from hDone] at hActive
      cases hActive
  | requeued =>
      simp only [ScanJob.requeue] at hDone
      split at hDone <;> cases hDone
  | released =>
      simp only [ScanJob.release] at hDone
      split at hDone <;> cases hDone
  | finalized lease state error reason h hHolds =>
      obtain ⟨state, hTerminal⟩ := state
      obtain rfl : state = .completed := hDone
      exact ⟨lease, error, reason, h, hHolds, rfl⟩
  | stopped =>
      simp only [ScanJob.stop] at hDone
      split at hDone <;> cases hDone
  | ended _ _ hEnded =>
      rcases hEnded.state with hState | hState <;> rw [hDone] at hState <;> cases hState

/-- Each completion reason of a job comes from one reason of the scan. -/
theorem ScanReason.eq_of_completion {reason : ScanReason} (reason' : ScanReason)
    {completed : CompletionReason} (h : reason.completion = some completed)
    (h' : reason'.completion = some completed) : reason = reason' := by
  cases reason <;> cases h <;> cases reason' <;> first | rfl | cases h'

/-- The worker settles a slice and completes the job it holds. -/
structure Completes (w : World) (a : WorldAction) (job job' : ScanJob) (owner : LeaseOwner)
    (own : Worker) (outcome : SliceOutcome) (reason : CompletionReason) : Prop where
  action : a = .worker owner .settle
  worker : w.workers owner = some own
  phase : own.phase = .ending outcome
  holds : own.lease.holds w.store.now job = true
  notStopped : outcome.stopRequested = false
  reported : outcome.reason.completion = some reason ∨
    reason = .runtimeLimitReached ∧ own.lease.runtimeLeft w.store.now = false
  completionReason : job'.completionReason = some reason

section Completion

variable {env : Env} {w w' : World} {a : WorldAction} {j : JobId} {job job' : ScanJob}

/-- A job is completed only by the worker that holds it, after a slice that saw no stop. -/
theorem completed_by_owner (h : w.step env a = some w')
    (hJob : w.store.db.jobs.find? j = some job) (hActive : job.state.active = true)
    (hJob' : w'.store.db.jobs.find? j = some job') (hDone : job'.state = .completed) :
    ∃ owner own outcome reason, Completes w a job job' owner own outcome reason := by
  have hChanged {sa : StoreAction} (hStep : w.store.step env sa = some w'.store) :
      ∃ lease error reason, sa = .worker lease (.finalize ⟨.completed, rfl⟩ error reason) ∧
        lease.holds w.store.now job = true ∧
        job' = job.finalize w.store.now .completed error reason := by
    obtain ⟨row, hRow, hChange⟩ := step_job hStep hJob
    rw [hJob'] at hRow
    cases hRow
    exact hChange.completed hActive hDone
  cases world_change h with
  | unchanged hStore =>
      rw [hStore, hJob] at hJob'
      cases hJob'
      rw [hDone] at hActive
      cases hActive
  | outside sa hStep _ hOutside =>
      obtain ⟨lease, error, reason, hAction, -⟩ := hChanged hStep
      exact absurd hAction (hOutside lease _)
  | page _ own _ _ _ _ _ _ _ _ _ _ hDelivers hWorld =>
      subst hWorld
      obtain ⟨lease, error, reason, hAction, -⟩ := hChanged hDelivers.step
      cases hAction
  | quiet owner own act op hAction hOwn hStep hPermitted =>
      obtain ⟨lease, error, reason, hOp, hHolds, rfl⟩ := hChanged hStep
      cases hOp
      obtain ⟨outcome, hPhase, rfl, hDisposition⟩ := hPermitted.settled error reason rfl
      rcases disposition_cases hDisposition with hOp | hOp | ⟨hStop, reason, hOp, hReported⟩
      · cases hOp
      · cases hOp
      · cases hOp
        exact ⟨owner, own, outcome, reason, hAction, hOwn, hPhase, hHolds, hStop, hReported, rfl⟩

/-- The reason of a completed job is true. -/
theorem Completes.outcomeTrue {E : SavedMessages → Prop} {K : Prop} {owner : LeaseOwner}
    {own : Worker} {outcome : SliceOutcome} {reason : CompletionReason}
    (h : Completes w a job job' owner own outcome reason)
    (hSync : JobSync E K w j) (hJob : w.store.db.jobs.find? j = some job) :
    OutcomeTrue E K job outcome.reason := by
  have hSynced := (hSync.synced job hJob owner own h.worker
    (ScanLease.owns_of_holds h.holds)).phase
  rw [h.phase] at hSynced
  exact hSynced

end Completion

end SavedOrganizer
