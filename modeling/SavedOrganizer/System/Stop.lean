import SavedOrganizer.System.Replacement

/-!
# A stop that was accepted

`stop` sets the flag of the user's active job. The scan loop polls the flag before each page,
and every transaction that gives the job back looks at it, but the one that completes the
job does not: a slice whose last poll came before the stop settles as if there were none.
`MissesStop` is that step. `accepted_stop_honoured_iff` proves that it is the only way: in a
run without it, and in no other, a stopped job never completes and nothing its workers do
takes a row out of the library. `stop_missed` is a run with it.
-/

namespace SavedOrganizer

open Transition

/-- The worker that holds the job settles a slice that has seen no stop and would complete the
job, and the job's row has the stop flag. -/
def MissesStop (w : World) (a : WorldAction) (j : JobId) : Prop :=
  ∃ owner own outcome job, a = .worker owner .settle ∧ w.workers owner = some own ∧
    own.phase = .ending outcome ∧ outcome.stopRequested = false ∧
    (outcome.reason.completion ≠ none ∨ own.lease.runtimeLeft w.store.now = false) ∧
    w.store.db.jobs.find? j = some job ∧ own.lease.holds w.store.now job = true ∧
    job.stopRequested = true

/-- The job is stopping, or has ended without completing. -/
def StopHolds (job : ScanJob) : Prop :=
  job.state = .stopping ∧ job.stopRequested = true ∨ job.state = .cancelled ∨ job.state = .failed

/-- The run from `w` to `w'` honours a stop of job `j`. -/
structure Honours (env : Env) (j : JobId) (w : World) (as : List WorldAction) (w' : World) :
    Prop where
  neverCompleted : ∃ job, w'.store.db.jobs.find? j = some job ∧ StopHolds job
  nothingDeleted : ∀ u owner act own v, StepOf (World.step env) w as u (.worker owner act) v →
    u.workers owner = some own → own.lease.jobId = j →
    ∀ m ∈ u.store.db.messages, KeepsOrganization u.store.db v.store.db m

/-- Every stop of an active job is honoured from then on. -/
def StopsHonoured (env : Env) : Prop :=
  ∀ {w₀ w₁ w₂ w₃ : World} {front as : List WorldAction} {j : JobId} {job : ScanJob},
    w₀.Initial → run (World.step env) w₀ front = some w₁ →
    w₁.store.db.jobs.find? j = some job → job.state.active = true →
    w₁.step env (.store (.stopScan job.userId)) = some w₂ →
    run (World.step env) w₂ as = some w₃ → Honours env j w₂ as w₃

section Steps

variable {env : Env} {w w' : World} {a : WorldAction} {j : JobId} {job job' : ScanJob}

/-- No transaction takes a stop back. -/
theorem JobChange.stopRequested {s : Store} {sa : StoreAction} (h : JobChange s sa job job')
    (hStop : job.stopRequested = true) : job'.stopRequested = true := by
  cases h with
  | stopped => rfl
  | ended _ _ hEnded => exact hEnded.stopRequested hStop
  | _ => exact hStop

/-- A stopped job that is active is `stopping`. -/
theorem stopHolds_of_not_completed (hFlag : StopFlag job) (hStop : job.stopRequested = true)
    (hNot : job.state ≠ .completed) : StopHolds job := by
  cases hState : job.state with
  | completed => exact absurd hState hNot
  | cancelled => exact Or.inr (Or.inl hState)
  | failed => exact Or.inr (Or.inr hState)
  | _ => exact Or.inl ⟨(hFlag (by rw [hState]; rfl)).mp hStop, hStop⟩

theorem StopHolds.not_completed (h : StopHolds job) : job.state ≠ .completed := by
  rcases h with ⟨hState, -⟩ | hState | hState <;> rw [hState] <;> intro h <;> cases h

/-- A step that completes a stopped job misses the stop. -/
theorem missesStop_of_completed (h : w.step env a = some w')
    (hJob : w.store.db.jobs.find? j = some job) (hActive : job.state.active = true)
    (hStop : job.stopRequested = true) (hJob' : w'.store.db.jobs.find? j = some job')
    (hDone : job'.state = .completed) : MissesStop w a j := by
  obtain ⟨owner, own, outcome, reason, hCompletes⟩ :=
    completed_by_owner h hJob hActive hJob' hDone
  refine ⟨owner, own, outcome, job, hCompletes.action, hCompletes.worker, hCompletes.phase,
    hCompletes.notStopped, ?_, hJob, hCompletes.holds, hStop⟩
  rcases hCompletes.reported with hReason | ⟨-, hOver⟩
  · exact Or.inl (by rw [hReason]; exact Option.some_ne_none reason)
  · exact Or.inr hOver

/-- A step that misses the stop completes the job. -/
theorem completed_of_missesStop (h : w.step env a = some w') (hMisses : MissesStop w a j) :
    ∃ job', w'.store.db.jobs.find? j = some job' ∧ job'.state = .completed := by
  obtain ⟨owner, own, outcome, job, rfl, hOwn, hPhase, hStop, hEnds, hJob, hHolds, -⟩ := hMisses
  obtain ⟨own', hOwn', h⟩ := Option.bind_eq_some_iff.mp h
  rw [hOwn] at hOwn'
  obtain rfl := Option.some.inj hOwn'
  obtain ⟨turn, hTurn, rfl⟩ := Option.map_eq_some_iff.mp h
  rw [hPhase] at hTurn
  obtain ⟨op, hOp, hPerform⟩ := Option.bind_eq_some_iff.mp hTurn
  obtain ⟨reason, rfl⟩ : ∃ reason, op = .finalize ⟨.completed, rfl⟩ none (some reason) := by
    unfold SliceOutcome.disposition at hOp
    rw [hStop, if_neg Bool.false_ne_true] at hOp
    split at hOp
    · rename_i reason _
      exact ⟨reason, (Option.some.inj hOp).symm⟩
    · rename_i hReason
      rcases hEnds with hSome | hOver
      · exact absurd hReason hSome
      · rw [hOver, Bool.not_false, if_pos rfl] at hOp
        exact ⟨_, (Option.some.inj hOp).symm⟩
  have hLease : own.lease.jobId = j := by
    rw [← ScanLease.id_of_owns (ScanLease.owns_of_holds hHolds)]
    exact Table.key_of_find? hJob
  have hHeld : w.store.db.heldJob own.lease w.store.now ≠ none := by
    rw [heldJob_eq_some.mpr ⟨hLease ▸ hJob, hHolds⟩]
    exact Option.some_ne_none job
  refine ⟨job.finalize w.store.now .completed none (some reason), ?_, rfl⟩
  rw [show (w.afterTurn own owner turn).store = turn.store from rfl,
    (Store.step_worker.mp (perform_eq_some hPerform).1).2]
  show (finalizeScanJob w.store.now own.lease _ none (some reason) w.store.db).1.jobs.find? j = _
  rw [finalizeScanJob_jobs hHeld, Table.find?_update, hJob, Option.map_some, if_pos hHolds]

/-- One step keeps the stop, unless it misses it. -/
theorem stopHolds_step (h : w.step env a = some w') (hInv : WorldInv w)
    (hSeen : ¬ MissesStop w a j) (hJob : w.store.db.jobs.find? j = some job)
    (hStop : StopHolds job) : ∃ job', w'.store.db.jobs.find? j = some job' ∧ StopHolds job' := by
  rcases world_store h with hSame | ⟨sa, hStep⟩
  · exact ⟨job, by rw [hSame]; exact hJob, hStop⟩
  · obtain ⟨job', hJob', hChange⟩ := step_job hStep hJob
    refine ⟨job', hJob', ?_⟩
    rcases hStop with ⟨hStopping, hFlag⟩ | hEnded
    · refine stopHolds_of_not_completed ?_ (hChange.stopRequested hFlag) fun hDone => hSeen ?_
      · exact (worldInv_step h hInv).store.stopFlag job' (Table.mem_of_find? hJob')
      · exact missesStop_of_completed h hJob (by rw [hStopping]; rfl) hFlag hJob' hDone
    · have hOver : job.state.active = false := by
        rcases hEnded with hState | hState <;> rw [hState] <;> rfl
      rw [hChange.eq_of_ended hOver]
      exact Or.inr hEnded

/-- While a stop holds, no worker of the job takes a row out of its place. -/
theorem keeps_of_stopHolds {owner : LeaseOwner} {act : WorkerAct} {own : Worker}
    (h : w.step env (.worker owner act) = some w') (hInv : WorldInv w)
    (hJob' : w'.store.db.jobs.find? j = some job') (hStop' : StopHolds job')
    (hOwn : w.workers owner = some own) (hLease : own.lease.jobId = j) {m : Message}
    (hm : m ∈ w.store.db.messages) : KeepsOrganization w.store.db w'.store.db m := by
  -- a transaction of the worker other than a prune
  have hKeep {op : WorkerOp} (hStep : w.store.step env (.worker own.lease op) = some w'.store)
      (hPrune : ∀ state error reason, op = .finalize state error reason →
        w.store.db.heldJob own.lease w.store.now ≠ none →
        prunes own.lease state reason = true → False) :
      KeepsOrganization w.store.db w'.store.db m := by
    refine keepsOrganization_step hStep hInv.store.stopFlag hInv.unique hm ?_ ?_
    · intro edit hEdit
      cases hEdit
    · intro lease state error reason hFinalize hHeld hPrunes
      cases hFinalize
      exact (hPrune state error reason rfl hHeld hPrunes).elim
  cases world_change h with
  | unchanged hStore =>
      rw [hStore]
      exact .refl hm
  | outside sa _ hAction =>
      rcases hAction with hAction | ⟨_, hAction, -⟩ <;> cases hAction
  | page _ own' _ _ _ _ _ _ turn hAction hOwn' _ hDelivers hWorld =>
      cases hAction
      rw [hOwn] at hOwn'
      obtain rfl := Option.some.inj hOwn'
      subst hWorld
      exact hKeep hDelivers.step fun _ _ _ hOp => by cases hOp
  | quiet _ own' _ op hAction hOwn' hStep =>
      cases hAction
      rw [hOwn] at hOwn'
      obtain rfl := Option.some.inj hOwn'
      refine hKeep hStep fun state error reason hOp hHeld hPrunes => ?_
      -- a prune completes the job
      subst hOp
      simp only [prunes, Bool.and_eq_true, beq_iff_eq] at hPrunes
      obtain ⟨held, hHeldRow⟩ := Option.ne_none_iff_exists'.mp hHeld
      obtain ⟨hFind, hHolds⟩ := heldJob_eq_some.mp hHeldRow
      rw [(Store.step_worker.mp hStep).2] at hJob'
      have hRow : (finalizeScanJob w.store.now own.lease state error reason
          w.store.db).1.jobs.find? j = some job' := hJob'
      rw [finalizeScanJob_jobs hHeld, Table.find?_update, ← hLease, hFind, Option.map_some,
        if_pos hHolds] at hRow
      cases hRow
      exact hStop'.not_completed hPrunes.1.2

end Steps

/-! ## A whole run -/

section Runs

variable {env : Env} {w₀ w₁ w₂ w₃ : World} {j : JobId} {job : ScanJob}

/-- What a stop commits on an active job of the user. -/
theorem stopHolds_of_stop (hJob : w₁.store.db.jobs.find? j = some job)
    (hActive : job.state.active = true)
    (h : w₁.step env (.store (.stopScan job.userId)) = some w₂) :
    ∃ job', w₂.store.db.jobs.find? j = some job' ∧ StopHolds job' := by
  cases h
  refine ⟨job.stop w₁.store.now, ?_, ?_⟩
  · show (stopScan w₁.store.now job.userId w₁.store.db).jobs.find? j = _
    rw [stopScan_jobs, Table.find?_update, hJob, Option.map_some,
      if_pos (activeOf_iff.mpr ⟨rfl, hActive⟩)]
  · simp only [StopHolds, ScanJob.stop]
    split
    · exact Or.inr (Or.inl rfl)
    · exact Or.inl ⟨rfl, trivial⟩

/-- A completed job stays completed. -/
theorem completed_of_run {as : List WorldAction} {done : ScanJob}
    (hJob : w₁.store.db.jobs.find? j = some done) (hDone : done.state = .completed)
    (hRun : run (World.step env) w₁ as = some w₂) : w₂.store.db.jobs.find? j = some done := by
  refine run_induct (I := fun u => u.store.db.jobs.find? j = some done) hJob hRun ?_
  intro u a v hStep hFound
  rcases world_store hStep.step with hSame | ⟨sa, hStore⟩
  · rw [hSame]
    exact hFound
  · obtain ⟨job', hJob', hChange⟩ := step_job hStore hFound
    rw [hJob', hChange.eq_of_ended (by rw [hDone]; rfl)]

/-- A stop that was accepted is honoured in exactly the runs that do not miss it: the job never
completes, and no worker of it takes a message out of its place. -/
theorem accepted_stop_honoured_iff {front as : List WorldAction} (hStart : w₀.Initial)
    (hFront : run (World.step env) w₀ front = some w₁)
    (hJob : w₁.store.db.jobs.find? j = some job) (hActive : job.state.active = true)
    (hStop : w₁.step env (.store (.stopScan job.userId)) = some w₂)
    (hRun : run (World.step env) w₂ as = some w₃) :
    Honours env j w₂ as w₃ ↔
      ∀ u a v, StepOf (World.step env) w₂ as u a v → ¬ MissesStop u a j := by
  constructor
  · rintro hHonours u a v ⟨front, back, rfl, hBefore, hStep⟩ hMisses
    obtain ⟨done, hDone, hCompleted⟩ := completed_of_missesStop hStep hMisses
    obtain ⟨x, hx, hRest⟩ := run_append.mp hRun
    rw [hBefore] at hx
    obtain rfl := Option.some.inj hx
    obtain ⟨y, hy, hBack⟩ := run_cons.mp hRest
    rw [hStep] at hy
    obtain rfl := Option.some.inj hy
    obtain ⟨job', hJob', hHolds⟩ := hHonours.neverCompleted
    rw [completed_of_run hDone hCompleted hBack] at hJob'
    obtain rfl := Option.some.inj hJob'
    exact hHolds.not_completed hCompleted
  intro hSeen
  have hInv := worldInv_of_run hStart.inv hFront
  have hHolds (u : World) (hVisit : Visits (World.step env) w₂ as u) :
      WorldInv u ∧ ∃ job', u.store.db.jobs.find? j = some job' ∧ StopHolds job' := by
    refine visits_induct (I := fun u => WorldInv u ∧ ∃ job',
      u.store.db.jobs.find? j = some job' ∧ StopHolds job')
      ⟨worldInv_step hStop hInv, stopHolds_of_stop hJob hActive hStop⟩ hVisit ?_
    rintro x a y hStep ⟨hInvX, job', hJob', hStopX⟩
    exact ⟨worldInv_step hStep.step hInvX,
      stopHolds_step hStep.step hInvX (hSeen x a y hStep) hJob' hStopX⟩
  refine ⟨(hHolds w₃ (visits_end hRun)).2, ?_⟩
  intro u owner act own v hStep hOwn hLease m hm
  obtain ⟨hInvU, job', hJob', hStopU⟩ := hHolds u hStep.before
  obtain ⟨job'', hJob'', hStopV⟩ :=
    stopHolds_step hStep.step hInvU (hSeen u _ v hStep) hJob' hStopU
  exact keeps_of_stopHolds hStep.step hInvU hJob'' hStopV hOwn hLease hm

end Runs

/-! ### A stop during the last page

The stop commits while the last page waits for `on_page`. The page is persisted, the scan
returns, and the job completes and prunes message 7. Had the stop come before the poll, the
job would have been cancelled. -/

def beforeLastPage : List WorldAction :=
  startReplacement :: .claim 1 :: beginSlice 0 ++ readyPage 0 keptNotes 0 3

def lastPage : List WorldAction := .worker 0 (.deliver 0 0) :: endSlice 0

def stopUser : WorldAction := .store (.stopScan 1)

/-- The world after the actions. -/
def reached (as : List WorldAction) : World :=
  (run (World.step demoEnv) (demoWorld keptNotes) as).getD (demoWorld keptNotes)

theorem run_reached {as bs : List WorldAction}
    (h : (run (World.step demoEnv) (demoWorld keptNotes) (as ++ bs)).isSome = true) :
    run (World.step demoEnv) (reached as) bs = some (reached (as ++ bs)) := run_getD_append h

example : (reached (beforeLastPage ++ stopUser :: lastPage)).store.db.messages.rows.map
    Message.telegramId = [5, 9] := by decide +kernel

theorem stop_missed : ¬ StopsHonoured demoEnv := by
  intro h
  have hFront : run (World.step demoEnv) (demoWorld keptNotes) beforeLastPage =
      some (reached beforeLastPage) := @run_reached [] beforeLastPage (by decide +kernel)
  have hStop : run (World.step demoEnv) (reached beforeLastPage) [stopUser] =
      some (reached (beforeLastPage ++ [stopUser])) := run_reached (by decide +kernel)
  have hRun : run (World.step demoEnv) (reached (beforeLastPage ++ [stopUser])) lastPage =
      some (reached (beforeLastPage ++ [stopUser] ++ lastPage)) := run_reached (by decide +kernel)
  have hActive : ((reached beforeLastPage).store.db.jobs.find? 1).map
      (fun job => (job.userId, job.state)) = some (1, .running) := by decide +kernel
  have hDone : ((reached (beforeLastPage ++ [stopUser] ++ lastPage)).store.db.jobs.find? 1).map
      ScanJob.state = some .completed := by decide +kernel
  obtain ⟨job, hJob, hRow⟩ := Option.map_eq_some_iff.mp hActive
  obtain ⟨hUser, hState⟩ := Prod.mk.inj hRow
  obtain ⟨w, hStep, hLast⟩ := run_cons.mp hStop
  obtain rfl := Option.some.inj hLast
  have hStopped : (reached beforeLastPage).step demoEnv (.store (.stopScan job.userId)) =
      some (reached (beforeLastPage ++ [stopUser])) := by
    rw [hUser]
    exact hStep
  obtain ⟨done, hFound, hHolds⟩ := (h (demoWorld_initial keptNotes) hFront hJob
    (by rw [hState]; rfl) hStopped hRun).neverCompleted
  rw [hFound] at hDone
  exact hHolds.not_completed (Option.some.inj hDone)

/-- The scan polls the flag and returns. -/
def polled : List WorldAction :=
  [.worker 0 (.answer (.stop 0 true)), .worker 0 .finishScan, .worker 0 (.refresh ⟨0, "session"⟩ 0)]

def beforePoll : List WorldAction := startReplacement :: .claim 1 :: beginSlice 0

theorem accepted_stop_honoured_iff_polled :
    Honours demoEnv 1 (reached (beforePoll ++ [stopUser])) (polled ++ [.worker 0 .settle])
      (reached (beforePoll ++ [stopUser] ++ (polled ++ [.worker 0 .settle]))) := by
  have hFront : run (World.step demoEnv) (demoWorld keptNotes) beforePoll =
      some (reached beforePoll) := @run_reached [] beforePoll (by decide +kernel)
  have hStop : run (World.step demoEnv) (reached beforePoll) [stopUser] =
      some (reached (beforePoll ++ [stopUser])) := run_reached (by decide +kernel)
  have hRun : run (World.step demoEnv) (reached (beforePoll ++ [stopUser]))
      (polled ++ [.worker 0 .settle]) =
      some (reached (beforePoll ++ [stopUser] ++ (polled ++ [.worker 0 .settle]))) :=
    run_reached (by decide +kernel)
  have hPolled : run (World.step demoEnv) (reached (beforePoll ++ [stopUser])) polled =
      some (reached (beforePoll ++ [stopUser] ++ polled)) := run_reached (by decide +kernel)
  have hActive : ((reached beforePoll).store.db.jobs.find? 1).map
      (fun job => (job.userId, job.state)) = some (1, .running) := by decide +kernel
  have hSaw : ((reached (beforePoll ++ [stopUser] ++ polled)).workers 0).map Worker.phase =
      some (.ending ⟨true, .stoppedByUser⟩) := by decide +kernel
  obtain ⟨job, hJob, hRow⟩ := Option.map_eq_some_iff.mp hActive
  obtain ⟨hUser, hState⟩ := Prod.mk.inj hRow
  obtain ⟨w, hStep, hLast⟩ := run_cons.mp hStop
  obtain rfl := Option.some.inj hLast
  have hStopped : (reached beforePoll).step demoEnv (.store (.stopScan job.userId)) =
      some (reached (beforePoll ++ [stopUser])) := by
    rw [hUser]
    exact hStep
  refine (accepted_stop_honoured_iff (demoWorld_initial keptNotes) hFront hJob
    (by rw [hState]; rfl) hStopped hRun).mpr ?_
  rintro u a v ⟨front, back, hAs, hReached, -⟩ ⟨owner, own, outcome, _, rfl, hOwn, hPhase, hStop,
    -⟩
  -- the only `settle` is the last step
  rcases List.eq_nil_or_concat back with rfl | ⟨back, b, rfl⟩
  · obtain ⟨rfl, hLast⟩ := List.append_inj' hAs rfl
    cases hLast
    rw [hPolled] at hReached
    obtain rfl := Option.some.inj hReached
    rw [hOwn, Option.map_some, hPhase] at hSaw
    cases hSaw
    cases hStop
  · rw [List.concat_eq_append, ← List.cons_append, ← List.append_assoc] at hAs
    have hMem : WorldAction.worker owner .settle ∈ polled := by
      rw [(List.append_inj' hAs rfl).1]
      exact List.mem_append_right _ List.mem_cons_self
    simp [polled] at hMem

end SavedOrganizer
