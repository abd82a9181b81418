import SavedOrganizer.System.World

/-!
# Workers agree with the jobs they own

`JobSync E K w j` says that a worker whose lease owns job `j` agrees with the job row: what
its scan counts and where its cursor stands is what the row says, the loop satisfies its
invariant for the sources of `E`, and a slice that is over bears out its reason. A worker
that has lost the job need not agree with anything.

`E` restricts what Telegram may hold for the job's account, as in `ScanInv`. `K` stands for
the assumption of some theorems that a slice that opens with its quota used up still has
messages below the cursor.

Each kind of step has its lemma: a step of the worker itself (`turn_sync`, `deliver_sync`),
a step of anyone else (`JobChange.owns`), a claim. `jobSync_step` puts them together.
-/

namespace SavedOrganizer

open Transition SavedMessages

/-! ## What a worker's step does to the store -/

section Turns

variable {env : Env} {src : SavedMessages} {s : Store} {lease : ScanLease}
  {phase : WorkerPhase} {act : WorkerAct} {turn : Turn}

/-- A transaction of the worker that persists no page; only `settle` completes the job. -/
structure Permitted (s : Store) (lease : ScanLease) (phase : WorkerPhase) (act : WorkerAct)
    (op : WorkerOp) : Prop where
  noPage : ∀ page delay, op ≠ .persist page delay
  settled : ∀ error reason, op = .finalize ⟨.completed, rfl⟩ error reason → ∃ outcome,
    phase = .ending outcome ∧ act = .settle ∧
      outcome.disposition (lease.runtimeLeft s.now) = some op

/-- No page is persisted: the store is as before, or after another transaction. -/
def Turn.Quiet (env : Env) (s : Store) (lease : ScanLease) (phase : WorkerPhase)
    (act : WorkerAct) (turn : Turn) : Prop :=
  turn.page = none ∧ (turn.store = s ∨
    ∃ op, s.step env (.worker lease op) = some turn.store ∧ Permitted s lease phase act op)

/-- The worker persists the page in hand and the scan goes on. -/
structure Delivers (env : Env) (s : Store) (lease : ScanLease) (st st' : ScanState)
    (page : ScanPage) (reached : Bool) (delay : Nat) (turn : Turn) : Prop where
  phase : st.phase = .delivering page reached
  persisted : ∃ db, persistScanPage env.py s.now (s.now + delay) lease page s.db = .ok db
  step : s.step env (.worker lease (.persist page delay)) = some turn.store
  resumed : ∃ elapsed, resume st (.delivered elapsed) = some st'
  next : turn.next = some (.scanning st')
  page : turn.page = some page

theorem perform_eq_some {op : WorkerOp} {next : Option WorkerPhase}
    (h : perform env s lease op next = some turn) :
    s.step env (.worker lease op) = some turn.store ∧ turn.next = next ∧ turn.page = none := by
  obtain ⟨s', hs', rfl⟩ := Option.map_eq_some_iff.mp h
  exact ⟨hs', rfl, rfl⟩

theorem quiet_perform {op : WorkerOp} {next : Option WorkerPhase}
    (h : perform env s lease op next = some turn) (hOp : Permitted s lease phase act op) :
    turn.Quiet env s lease phase act := by
  obtain ⟨hStep, -, hPage⟩ := perform_eq_some h
  exact ⟨hPage, Or.inr ⟨op, hStep, hOp⟩⟩

theorem quiet_goOn {next : WorkerPhase} (h : goOn s next = some turn) :
    turn.Quiet env s lease phase act := by
  cases h
  exact ⟨rfl, Or.inl rfl⟩

/-- A slice that is over is finalized or requeued. -/
theorem disposition_cases {outcome : SliceOutcome} {runtimeLeft : Bool} {op : WorkerOp}
    (h : outcome.disposition runtimeLeft = some op) :
    op = .finalize ⟨.cancelled, rfl⟩ none (some .stoppedByUser) ∨ op = .requeue ∨
      outcome.stopRequested = false ∧ ∃ reason, op = .finalize ⟨.completed, rfl⟩ none (some reason) ∧
        (outcome.reason.completion = some reason ∨
          reason = .runtimeLimitReached ∧ runtimeLeft = false) := by
  unfold SliceOutcome.disposition at h
  split at h
  · cases h
    exact Or.inl rfl
  rename_i hStop
  rw [Bool.not_eq_true] at hStop
  split at h
  · rename_i reason hReason
    cases h
    exact Or.inr (Or.inr ⟨hStop, reason, rfl, Or.inl hReason⟩)
  split at h
  · rename_i hOver
    rw [Bool.not_eq_true'] at hOver
    cases h
    exact Or.inr (Or.inr ⟨hStop, _, rfl, Or.inr ⟨rfl, hOver⟩⟩)
  split at h
  · cases h
  · cases h
    exact Or.inr (Or.inl rfl)

theorem permitted_disposition {outcome : SliceOutcome} {op : WorkerOp}
    (h : outcome.disposition (lease.runtimeLeft s.now) = some op) :
    Permitted s lease (.ending outcome) .settle op := by
  refine ⟨?_, fun _ _ _ => ⟨outcome, rfl, rfl, h⟩⟩
  rintro page delay rfl
  rcases disposition_cases h with hOp | hOp | ⟨-, _, hOp, -⟩ <;> cases hOp

theorem worker_step_cases (h : Worker.step env src s lease phase act = some turn) :
    turn.Quiet env s lease phase act ∨ ∃ st st' page reached delay, phase = .scanning st ∧
      Delivers env s lease st st' page reached delay turn := by
  -- the transactions that neither persist nor complete
  have hOther {op : WorkerOp} {next : Option WorkerPhase} {phase : WorkerPhase} {act : WorkerAct}
      (h : perform env s lease op next = some turn) (hPage : ∀ page delay, op ≠ .persist page delay)
      (hEnd : ∀ error reason, op ≠ .finalize ⟨.completed, rfl⟩ error reason) :
      turn.Quiet env s lease phase act :=
    quiet_perform h ⟨hPage, fun error reason hOp => absurd hOp (hEnd error reason)⟩
  unfold Worker.step at h
  split at h
  -- renew
  · exact Or.inl (hOther h (fun _ _ hOp => by cases hOp) (fun _ _ hOp => by cases hOp))
  -- openConnection
  · split at h
    · exact Or.inl (quiet_goOn h)
    split at h
    · exact Or.inl (quiet_goOn h)
    · exact Or.inl (hOther h (fun _ _ hOp => by cases hOp) (fun _ _ hOp => by cases hOp))
  -- connect
  · split at h
    · exact Or.inl (quiet_goOn h)
    · exact Or.inl (hOther h (fun _ _ hOp => by cases hOp) (fun _ _ hOp => by cases hOp))
    · exact Or.inl (hOther h (fun _ _ hOp => by cases hOp) (fun _ _ hOp => by cases hOp))
    · split at h
      · exact Or.inl (hOther h (fun _ _ hOp => by cases hOp) (fun _ _ hOp => by cases hOp))
      split at h
      · exact Or.inl (quiet_goOn h)
      split at h
      · exact Or.inl (quiet_goOn h)
      split at h
      · exact Or.inl (quiet_goOn h)
      · exact Or.inl (quiet_goOn h)
  -- answer
  · split at h
    · obtain ⟨st', -, h⟩ := Option.bind_eq_some_iff.mp h
      exact Or.inl (quiet_goOn h)
    · cases h
  -- deliver
  · rename_i st elapsed delay
    split at h
    · rename_i page reached hPhase
      split at h
      · cases h
      · rename_i db hOk
        obtain ⟨s', hStep, h⟩ := Option.bind_eq_some_iff.mp h
        obtain ⟨st', hResume, rfl⟩ := Option.map_eq_some_iff.mp h
        exact Or.inr ⟨st, st', page, reached, delay, rfl,
          ⟨hPhase, ⟨db, hOk⟩, hStep, ⟨elapsed, hResume⟩, rfl, rfl⟩⟩
    · cases h
  -- finishScan
  · split at h
    · exact Or.inl (quiet_goOn h)
    · exact Or.inl (quiet_goOn h)
    · cases h
  -- refresh
  · split at h
    · cases h
    · exact Or.inl (hOther h (fun _ _ hOp => by cases hOp) (fun _ _ hOp => by cases hOp))
  -- settle
  · obtain ⟨op, hOp, h⟩ := Option.bind_eq_some_iff.mp h
    exact Or.inl (quiet_perform h (permitted_disposition hOp))
  -- fail
  · exact Or.inl (hOther h (fun _ _ hOp => by cases hOp) (fun _ _ hOp => by cases hOp))
  -- raise, interrupt, crash, timeout
  · exact Or.inl (quiet_goOn h)
  · exact Or.inl (hOther h (fun _ _ hOp => by cases hOp) (fun _ _ hOp => by cases hOp))
  · cases h
  · exact Or.inl (hOther h (fun _ _ hOp => by cases hOp) (fun _ _ hOp => by cases hOp))
  · cases h
    exact Or.inl ⟨rfl, Or.inl rfl⟩
  · split at h
    · exact Or.inl (quiet_goOn h)
    · cases h
  · split at h
    · exact Or.inl (quiet_goOn h)
    · cases h
  · cases h

end Turns

/-! ## The invariant -/

/-- What a slice's reason says about the job and the source. -/
def OutcomeTrue (E : SavedMessages → Prop) (K : Prop) (job : ScanJob) : ScanReason → Prop
  | .sourceExhausted => ∃ src, E src ∧ src.below job.lastMessageId = []
  | .messageLimitReached => job.messagesScanned = job.maxMessages ∧
      (K → ∃ src, E src ∧ src.below job.lastMessageId ≠ [])
  | _ => True

/-- The scan in progress continues the job. -/
structure ScanSync (E : SavedMessages → Prop) (lease : ScanLease) (job : ScanJob)
    (st : ScanState) : Prop where
  inv : ScanInv E st
  cursor : st.cursor = job.lastMessageId
  quota : lease.messagesScanned < lease.maxMessages
  remaining : st.options.maxMessages = some (lease.maxMessages - lease.messagesScanned)
  counted : job.messagesScanned = lease.messagesScanned + st.progress.messagesScanned

def PhaseSync (E : SavedMessages → Prop) (K : Prop) (lease : ScanLease) (job : ScanJob) :
    WorkerPhase → Prop
  | .claimed => job.lastMessageId = lease.lastMessageId ∧
      job.messagesScanned = lease.messagesScanned
  | .connecting => (job.lastMessageId = lease.lastMessageId ∧
      job.messagesScanned = lease.messagesScanned) ∧ lease.messagesScanned < lease.maxMessages
  | .scanning st => ScanSync E lease job st
  | .refreshing outcome => OutcomeTrue E K job outcome.reason
  | .ending outcome => OutcomeTrue E K job outcome.reason
  | .failing => True

structure Synced (E : SavedMessages → Prop) (K : Prop) (lease : ScanLease) (job : ScanJob)
    (phase : WorkerPhase) : Prop where
  maxMessages : lease.maxMessages = job.maxMessages
  replaceExisting : lease.replaceExisting = job.replaceExisting
  phase : PhaseSync E K lease job phase

/-- The counters of an active job row. -/
structure Counted (job : ScanJob) : Prop where
  quota : job.messagesScanned ≤ job.maxMessages
  cursor_ne : job.lastMessageId ≠ some 0

structure JobSync (E : SavedMessages → Prop) (K : Prop) (w : World) (jobId : JobId) : Prop where
  counted : ∀ job, w.store.db.jobs.find? jobId = some job → job.state.active = true → Counted job
  synced : ∀ job, w.store.db.jobs.find? jobId = some job → ∀ owner worker,
    w.workers owner = some worker → worker.lease.owns job = true →
    Synced E K worker.lease job worker.phase

/-- A worker's lease is one that was issued, and workers are told apart by their tokens. -/
structure WorldInv (w : World) : Prop where
  store : StoreInv w.store
  unique : w.store.db.SourcesUnique
  worker : ∀ owner worker, w.workers owner = some worker →
    worker.lease.owner = owner ∧ worker.lease ∈ w.store.leases

/-! ## The worker's own steps -/

section Own

variable {env : Env} {src : SavedMessages} {s : Store} {lease : ScanLease} {job : ScanJob}
  {phase next : WorkerPhase} {act : WorkerAct} {turn : Turn} {E : SavedMessages → Prop}
  {K : Prop}

theorem fits_truthful {st : ScanState} {answer : Answer} (hE : E src)
    (h : answer.fits src s lease st = true) : Truthful E st answer := by
  cases answer with
  | fetched d now rawPage =>
      intro capacity limit hPhase
      simp only [Answer.fits, hPhase] at h
      exact ⟨src, hE, of_decide_eq_true h⟩
  | _ => trivial

theorem fits_not_delivered {st : ScanState} {answer : Answer}
    (h : answer.fits src s lease st = true) : deliveredPage st answer = none := by
  cases answer with
  | delivered d => cases h
  | _ => rfl

/-- An answer that delivers no page. -/
theorem scanSync_resume {st st' : ScanState} {answer : Answer} (hSync : ScanSync E lease job st)
    (hTruthful : Truthful E st answer) (hPage : deliveredPage st answer = none)
    (hResume : resume st answer = some st') : ScanSync E lease job st' := by
  have hProgress := resume_progress hResume
  rw [hPage] at hProgress
  refine ⟨resume_inv hResume hSync.inv hTruthful, ?_, hSync.quota, ?_, ?_⟩
  · exact hProgress.cursor.trans hSync.cursor
  · rw [hProgress.options]
    exact hSync.remaining
  · rw [hProgress.messagesScanned]
    exact hSync.counted

theorem scanSync_answer {st st' : ScanState} {answer : Answer} (hSync : ScanSync E lease job st)
    (hE : E src) (hFits : answer.fits src s lease st = true)
    (hResume : resume st answer = some st') : ScanSync E lease job st' :=
  scanSync_resume hSync (fits_truthful hE hFits) (fits_not_delivered hFits) hResume

/-- A scan that has returned bears out its reason. -/
theorem outcomeTrue_of_returned {st : ScanState} {reason : ScanReason}
    (hSync : ScanSync E lease job st) (hMax : lease.maxMessages = job.maxMessages)
    (hPhase : st.phase = .returned reason) : OutcomeTrue E K job reason := by
  have hInv := hSync.inv.phase
  rw [hPhase] at hInv
  cases reason with
  | sourceExhausted =>
      obtain ⟨source, hE, hBelow⟩ := hInv
      exact ⟨source, hE, hSync.cursor ▸ hBelow⟩
  | messageLimitReached =>
      obtain ⟨hFull, source, hE, hBelow⟩ := hInv
      refine ⟨?_, fun _ => ⟨source, hE, hSync.cursor ▸ hBelow⟩⟩
      have hSame := Option.some.inj (hSync.remaining.symm.trans hFull)
      have hQuota := hSync.quota
      have hCounted := hSync.counted
      omega
  | _ => trivial

theorem outcomeTrue_cutOff (runtimeLeft : Bool) :
    OutcomeTrue E K job (cutOff runtimeLeft).reason := by
  cases runtimeLeft <;> trivial

/-- A step of the worker that persists nothing. -/
theorem turn_sync (h : Worker.step env src s lease phase act = some turn)
    (hPage : turn.page = none) (hNext : turn.next = some next)
    (hSync : PhaseSync E K lease job phase) (hMax : lease.maxMessages = job.maxMessages)
    (hCounted : Counted job) (hE : E src)
    (hK : K → phase = .claimed → act = .openConnection → lease.runtimeLeft s.now = true →
      lease.maxMessages ≤ lease.messagesScanned → src.below lease.lastMessageId ≠ []) :
    PhaseSync E K lease job next := by
  have hGoOn {p : WorkerPhase} (h : goOn s p = some turn) : next = p := by
    cases h
    exact (Option.some.inj hNext).symm
  have hPerform {op : WorkerOp} {p : Option WorkerPhase}
      (h : perform env s lease op p = some turn) : p = some next := by
    rw [← hNext]
    exact (perform_eq_some h).2.1.symm
  unfold Worker.step at h
  split at h
  -- renew
  · rw [← Option.some.inj (hPerform h)]
    exact hSync
  -- openConnection
  · split at h
    · rw [hGoOn h]
      trivial
    rename_i hLeft
    rw [Bool.not_eq_true, Bool.not_eq_false'] at hLeft
    split at h
    · rename_i hQuota
      rw [hGoOn h]
      obtain ⟨hCursor, hScanned⟩ := hSync
      have hLe := hCounted.quota
      refine ⟨by omega, fun hk => ⟨src, hE, ?_⟩⟩
      rw [hCursor]
      exact hK hk rfl rfl hLeft hQuota
    · rename_i hQuota
      have hNextEq := Option.some.inj (hPerform h)
      rw [← hNextEq]
      split
      · exact ⟨hSync, by omega⟩
      · trivial
  -- connect
  · split at h
    · rw [hGoOn h]
      trivial
    · rw [← Option.some.inj (hPerform h)]
      trivial
    · rw [← Option.some.inj (hPerform h)]
      trivial
    · split at h
      · rw [← Option.some.inj (hPerform h)]
        trivial
      split at h
      · rw [hGoOn h]
        trivial
      split at h
      · rw [hGoOn h]
        trivial
      split at h
      · rename_i hValid
        rw [hGoOn h]
        obtain ⟨⟨hCursor, hScanned⟩, hQuota⟩ := hSync
        refine ⟨beginScan_inv _ hValid ?_, hCursor.symm, hQuota, rfl, ?_⟩
        · show lease.lastMessageId ≠ some 0
          rw [← hCursor]
          exact hCounted.cursor_ne
        · exact hScanned
      · rw [hGoOn h]
        trivial
  -- answer
  · split at h
    · rename_i hFits
      obtain ⟨st', hResume, h⟩ := Option.bind_eq_some_iff.mp h
      rw [hGoOn h]
      exact scanSync_answer hSync hE hFits hResume
    · cases h
  -- deliver
  · split at h
    · split at h
      · cases h
      · obtain ⟨s', -, h⟩ := Option.bind_eq_some_iff.mp h
        obtain ⟨st', -, rfl⟩ := Option.map_eq_some_iff.mp h
        cases hPage
    · cases h
  -- finishScan
  · split at h
    · rename_i hReturned
      rw [hGoOn h]
      exact outcomeTrue_of_returned hSync hMax hReturned
    · rw [hGoOn h]
      trivial
    · cases h
  -- refresh
  · split at h
    · cases h
    · rw [← Option.some.inj (hPerform h)]
      exact hSync
  -- settle
  · obtain ⟨op, -, h⟩ := Option.bind_eq_some_iff.mp h
    cases hPerform h
  -- fail
  · cases hPerform h
  -- raise, interrupt, crash, timeout
  · rw [hGoOn h]
    trivial
  · cases hPerform h
  · cases h
  · cases hPerform h
  · cases h
    cases hNext
  · split at h
    · rw [hGoOn h]
      trivial
    · cases h
  · split at h
    · rw [hGoOn h]
      exact outcomeTrue_cutOff _
    · cases h
  · cases h

/-- The page in hand lies next below the cursor of the job. -/
theorem pageOf_delivering {st : ScanState} {page : ScanPage} {reached : Bool}
    (hSync : ScanSync E lease job st) (hPhase : st.phase = .delivering page reached) :
    ∃ source, E source ∧ PageOf source job.lastMessageId page := by
  have hInv := hSync.inv.phase
  rw [hPhase] at hInv
  obtain ⟨-, -, source, hE, hPage, -⟩ := hInv
  exact ⟨source, hE, hSync.cursor ▸ hPage⟩

/-- The step that persists a page moves the row and the scan together. -/
theorem deliver_sync {st st' : ScanState} {page : ScanPage} {reached : Bool} {elapsed : Nat}
    (hSync : ScanSync E lease job st) (hMax : lease.maxMessages = job.maxMessages)
    (hPhase : st.phase = .delivering page reached)
    (hResume : resume st (.delivered elapsed) = some st') :
    ScanSync E lease (job.recordPage page.messages.length page.nextOffsetId) st' ∧
      Counted (job.recordPage page.messages.length page.nextOffsetId) := by
  have hInv : ScanInv E st' := resume_inv hResume hSync.inv trivial
  have hProgress := resume_progress hResume
  simp only [deliveredPage, hPhase] at hProgress
  obtain ⟨hOptions, hScanned, -, hCursor⟩ := hProgress
  have hCounted := hSync.counted
  have hQuota := hSync.quota
  have hRemaining : st'.options.maxMessages =
      some (lease.maxMessages - lease.messagesScanned) := by
    rw [hOptions]
    exact hSync.remaining
  refine ⟨⟨hInv, hCursor, hQuota, hRemaining, ?_⟩, ?_, ?_⟩
  · show job.messagesScanned + page.messages.length = _
    rw [hScanned]
    omega
  · have hLe := hInv.quota _ hRemaining
    show job.messagesScanned + page.messages.length ≤ job.maxMessages
    omega
  · obtain ⟨source, -, hPage⟩ := pageOf_delivering hSync hPhase
    intro hZero
    exact absurd (hPage.next_pos hZero) (lt_irrefl 0)

end Own

/-! ## Steps of the world -/

section Congruence

variable {E : SavedMessages → Prop} {K : Prop} {lease : ScanLease} {job job' : ScanJob}

theorem Counted.congr (h : Counted job) (hSame : SameJob job job') (hCounts : SameCounts job job') :
    Counted job' := by
  refine ⟨?_, ?_⟩
  · rw [hCounts.messagesScanned, hSame.maxMessages]
    exact h.quota
  · rw [hCounts.lastMessageId]
    exact h.cursor_ne

theorem OutcomeTrue.congr {reason : ScanReason} (h : OutcomeTrue E K job reason)
    (hSame : SameJob job job') (hCounts : SameCounts job job') : OutcomeTrue E K job' reason := by
  unfold OutcomeTrue
  rw [hCounts.messagesScanned, hCounts.lastMessageId, hSame.maxMessages]
  exact h

theorem PhaseSync.congr {phase : WorkerPhase} (h : PhaseSync E K lease job phase)
    (hSame : SameJob job job') (hCounts : SameCounts job job') :
    PhaseSync E K lease job' phase := by
  cases phase with
  | claimed => exact ⟨hCounts.lastMessageId.trans h.1, hCounts.messagesScanned.trans h.2⟩
  | connecting =>
      obtain ⟨⟨hCursor, hScanned⟩, hQuota⟩ := h
      exact ⟨⟨hCounts.lastMessageId.trans hCursor, hCounts.messagesScanned.trans hScanned⟩, hQuota⟩
  | scanning st =>
      exact ⟨h.inv, h.cursor.trans hCounts.lastMessageId.symm, h.quota, h.remaining,
        hCounts.messagesScanned.trans h.counted⟩
  | refreshing outcome => exact OutcomeTrue.congr h hSame hCounts
  | ending outcome => exact OutcomeTrue.congr h hSame hCounts
  | failing => trivial

theorem Synced.congr {phase : WorkerPhase} (h : Synced E K lease job phase)
    (hSame : SameJob job job') (hCounts : SameCounts job job') : Synced E K lease job' phase :=
  ⟨h.maxMessages.trans hSame.maxMessages.symm, h.replaceExisting.trans hSame.replaceExisting.symm,
    h.phase.congr hSame hCounts⟩

end Congruence

section WorldSteps

variable {env : Env} {w w' : World} {a : WorldAction}

theorem worker_store {src : SavedMessages} {s : Store} {lease : ScanLease} {phase : WorkerPhase}
    {act : WorkerAct} {turn : Turn} (h : Worker.step env src s lease phase act = some turn) :
    turn.store = s ∨ ∃ op, s.step env (.worker lease op) = some turn.store := by
  rcases worker_step_cases h with ⟨-, hSame | ⟨op, hStep, -⟩⟩ | ⟨_, _, page, _, delay, -, hDelivers⟩
  · exact Or.inl hSame
  · exact Or.inr ⟨op, hStep⟩
  · exact Or.inr ⟨.persist page delay, hDelivers.step⟩

/-- A step of the world is at most one step of the store. -/
theorem world_store (h : w.step env a = some w') :
    w'.store = w.store ∨ ∃ sa, w.store.step env sa = some w'.store := by
  cases a with
  | store a =>
      simp only [World.step] at h
      split at h
      · obtain ⟨s', hStep, rfl⟩ := Option.map_eq_some_iff.mp h
        exact Or.inr ⟨a, hStep⟩
      · cases h
  | changeSource account messages =>
      cases h
      exact Or.inl rfl
  | claim jobId =>
      cases h
      exact Or.inr ⟨.claim jobId, rfl⟩
  | worker owner act =>
      obtain ⟨worker, -, h⟩ := Option.bind_eq_some_iff.mp h
      obtain ⟨turn, hTurn, rfl⟩ := Option.map_eq_some_iff.mp h
      rcases worker_store hTurn with hSame | ⟨op, hStep⟩
      · exact Or.inl hSame
      · exact Or.inr ⟨_, hStep⟩

/-- The workers after a claim: the one it starts, if it takes the job, and those before. -/
theorem afterClaim_workers {jobId : JobId} {owner : LeaseOwner} {worker : Worker}
    (hWorker : (w.afterClaim jobId).workers owner = some worker) :
    w.workers owner = some worker ∨ owner = w.store.nextOwner ∧ worker.phase = .claimed ∧
      (claimScanJob w.store.now w.store.nextOwner jobId w.store.db).2 = some worker.lease := by
  simp only [World.afterClaim] at hWorker
  cases hIssued : (claimScanJob w.store.now w.store.nextOwner jobId w.store.db).2 with
  | none =>
      rw [hIssued] at hWorker
      exact Or.inl hWorker
  | some lease =>
      rw [hIssued] at hWorker
      by_cases hOwner : owner = w.store.nextOwner
      · simp only [hOwner, Function.update_self, Option.some.injEq] at hWorker
        subst hWorker
        exact Or.inr ⟨hOwner, rfl, rfl⟩
      · simp only [Function.update_of_ne hOwner] at hWorker
        exact Or.inl hWorker

/-- The workers after a turn: the one that took it, if it goes on, and the others. -/
theorem afterTurn_workers {own worker : Worker} {owner owner' : LeaseOwner} {turn : Turn}
    (hWorker : (w.afterTurn own owner turn).workers owner' = some worker) :
    owner' ≠ owner ∧ w.workers owner' = some worker ∨
      owner' = owner ∧ worker.lease = own.lease ∧ turn.next = some worker.phase := by
  simp only [World.afterTurn] at hWorker
  by_cases hOwner : owner' = owner
  · rw [hOwner, Function.update_self] at hWorker
    obtain ⟨phase, hNext, rfl⟩ := Option.map_eq_some_iff.mp hWorker
    exact Or.inr ⟨hOwner, rfl, hNext⟩
  · rw [Function.update_of_ne hOwner] at hWorker
    exact Or.inl ⟨hOwner, hWorker⟩

/-- A worker after a step was there before, or a claim has started it. -/
theorem world_workers (h : w.step env a = some w') {owner : LeaseOwner} {worker : Worker}
    (hWorker : w'.workers owner = some worker) :
    (∃ before, w.workers owner = some before ∧ before.lease = worker.lease) ∨
      ∃ jobId, w' = w.afterClaim jobId ∧ owner = w.store.nextOwner ∧
        (claimScanJob w.store.now w.store.nextOwner jobId w.store.db).2 = some worker.lease := by
  cases a with
  | store a =>
      simp only [World.step] at h
      split at h
      · obtain ⟨s', -, rfl⟩ := Option.map_eq_some_iff.mp h
        exact Or.inl ⟨worker, hWorker, rfl⟩
      · cases h
  | changeSource account messages =>
      cases h
      exact Or.inl ⟨worker, hWorker, rfl⟩
  | claim jobId =>
      cases h
      rcases afterClaim_workers hWorker with hBefore | ⟨hOwner, -, hIssued⟩
      · exact Or.inl ⟨worker, hBefore, rfl⟩
      · exact Or.inr ⟨jobId, rfl, hOwner, hIssued⟩
  | worker owner' act =>
      obtain ⟨own, hOwn, h⟩ := Option.bind_eq_some_iff.mp h
      obtain ⟨turn, -, rfl⟩ := Option.map_eq_some_iff.mp h
      rcases afterTurn_workers hWorker with ⟨-, hBefore⟩ | ⟨hOwner, hLease, -⟩
      · exact Or.inl ⟨worker, hBefore, rfl⟩
      · exact Or.inl ⟨own, hOwner ▸ hOwn, hLease.symm⟩

theorem worldInv_step (h : w.step env a = some w') (hInv : WorldInv w) : WorldInv w' := by
  have hSuffix : w.store.leases <:+ w'.store.leases := by
    rcases world_store h with hSame | ⟨sa, hStep⟩
    · exact hSame ▸ List.suffix_rfl
    · exact step_leases_suffix hStep
  refine ⟨?_, ?_, ?_⟩
  · rcases world_store h with hSame | ⟨sa, hStep⟩
    · exact hSame ▸ hInv.store
    · exact storeInv_step hStep hInv.store
  · rcases world_store h with hSame | ⟨sa, hStep⟩
    · exact hSame ▸ hInv.unique
    · exact sourcesUnique_step hStep hInv.store.stopFlag hInv.unique
  · intro owner worker hWorker
    rcases world_workers h hWorker with ⟨before, hBefore, hLease⟩ | ⟨jobId, rfl, rfl, hIssued⟩
    · obtain ⟨hOwner, hMem⟩ := hInv.worker owner before hBefore
      exact ⟨hLease ▸ hOwner, hSuffix.subset (hLease ▸ hMem)⟩
    · obtain ⟨job, -, -, -, hRead⟩ := claimScanJob_lease.mp hIssued
      refine ⟨(readLease_eq_some hRead).2.2.1, ?_⟩
      show worker.lease ∈ (w.store.claim jobId).leases
      unfold Store.claim
      dsimp only
      rw [hIssued]
      exact List.mem_cons_self

theorem World.Initial.inv (h : w.Initial) : WorldInv w := by
  refine ⟨h.store.inv, h.store.sourcesUnique, ?_⟩
  intro owner worker hWorker
  rw [h.noWorkers owner] at hWorker
  cases hWorker

end WorldSteps

/-! ## One step keeps workers and their job in agreement -/

section JobSteps

variable {env : Env} {w w' : World} {a : WorldAction} {j : JobId} {E : SavedMessages → Prop}
  {K : Prop}

/-- A row after a step that persists no page of the job has come as far as before, or is new. -/
theorem row_step {s s' : Store} {sa : StoreAction} (h : s.step env sa = some s')
    (hOther : ∀ lease page delay, sa = .worker lease (.persist page delay) → lease.jobId ≠ j)
    {job' : ScanJob} (hJob' : s'.db.jobs.find? j = some job') :
    (∃ job, s.db.jobs.find? j = some job ∧ JobChange s sa job job' ∧ SameCounts job job') ∨
      s.db.jobs.find? j = none ∧ job'.state = .pending ∧ job'.messagesScanned = 0 ∧
        job'.lastMessageId = none ∧ job'.pagesScanned = 0 := by
  have hRow := step_row h j
  rw [hJob'] at hRow
  generalize hOld : s.db.jobs.find? j = row at hRow
  cases hRow with
  | @changed job _ hChange =>
      refine Or.inl ⟨job, rfl, hChange, ?_⟩
      rcases hChange.counts with hCounts | ⟨lease, page, delay, hAction, hHolds, -⟩
      · exact hCounts
      · have hId : job.id = j := Table.key_of_find? hOld
        exact absurd ((ScanLease.id_of_owns (ScanLease.owns_of_holds hHolds)).symm.trans hId)
          (hOther lease page delay hAction)
  | created => exact Or.inr ⟨rfl, rfl, rfl, rfl, rfl⟩

/-- The agreement after a step of the store that persists no page of the job, when every worker
that goes on owning the row still agrees with the row as it was. -/
theorem jobSync_of_store {sa : StoreAction} (hStep : w.store.step env sa = some w'.store)
    (hOther : ∀ lease page delay, sa = .worker lease (.persist page delay) → lease.jobId ≠ j)
    (hSync : JobSync E K w j)
    (hWorkers : ∀ job, w.store.db.jobs.find? j = some job → ∀ owner worker,
      w'.workers owner = some worker → worker.lease.owns job = true →
      Synced E K worker.lease job worker.phase)
    (hClaimed : ∀ job, w.store.db.jobs.find? j = some job → sa = .claim j →
      job.claimable w.store.now = true → job.hasProvenance = true → ∀ owner worker,
      w'.workers owner = some worker →
      worker.lease.owns (job.claim w.store.now w.store.nextOwner) = true →
      Synced E K worker.lease (job.claim w.store.now w.store.nextOwner) worker.phase) :
    JobSync E K w' j := by
  constructor
  · intro job' hJob' hActive
    rcases row_step hStep hOther hJob' with ⟨job, hJob, hChange, hCounts⟩ | ⟨-, -, hZero, hNone, -⟩
    · exact (hSync.counted job hJob (hChange.active_of_active hActive)).congr hChange.sameJob hCounts
    · exact ⟨by omega, by rw [hNone]; exact fun h => by cases h⟩
  · intro job' hJob' owner worker hWorker hOwns
    rcases row_step hStep hOther hJob' with ⟨job, hJob, hChange, hCounts⟩ | ⟨-, hPending, -⟩
    · rcases hChange.owns hOwns with hOwned | ⟨hClaim, hClaimable, hProvenance, rfl⟩
      · exact (hWorkers job hJob owner worker hWorker hOwned).congr hChange.sameJob hCounts
      · have hId : job.id = j := Table.key_of_find? hJob
        exact hClaimed job hJob (hId ▸ hClaim) hClaimable hProvenance owner worker hWorker hOwns
    · rcases (ScanLease.owns_iff.mp hOwns).2 with hState | hState <;>
        rw [hPending] at hState <;> cases hState

/-- A worker that a claim starts agrees with the row it has claimed. -/
theorem synced_claimed {job : ScanJob} {lease : ScanLease} {now : Instant} {owner : LeaseOwner}
    (hRead : readLease now owner (job.claim now owner) = some lease) :
    Synced E K lease (job.claim now owner) .claimed := by
  obtain ⟨-, -, -, hReplace, -, -, hScanned, hCursor, hMax⟩ := readLease_eq_some hRead
  exact ⟨hMax, hReplace, hCursor.symm, hScanned.symm⟩

theorem jobSync_claim (env : Env) (hInv : WorldInv w) (hSync : JobSync E K w j) (jobId : JobId) :
    JobSync E K (w.afterClaim jobId) j := by
  -- no row has the next token before the claim draws it
  have hNext (job : ScanJob) (hJob : w.store.db.jobs.find? j = some job) :
      job.leaseOwner ≠ some w.store.nextOwner := by
    intro hOwner
    obtain ⟨lease, hLease, hToken⟩ :=
      hInv.store.owned job (Table.mem_of_find? hJob) _ hOwner
    have hFresh := hInv.store.fresh lease (List.mem_of_find?_eq_some hLease)
    rw [hToken] at hFresh
    exact absurd hFresh (Nat.lt_irrefl _)
  have hOwnerOf {lease : ScanLease} {job : ScanJob} (hOwns : lease.owns job = true) :
      job.leaseOwner = some lease.owner :=
    (ScanLease.names_iff.mp (ScanLease.names_of_owns hOwns)).2.2.2.2
  refine @jobSync_of_store env w (w.afterClaim jobId) j E K (.claim jobId) rfl
    (fun _ _ _ h => by cases h) hSync ?_ ?_
  · intro job hJob owner worker hWorker hOwns
    rcases afterClaim_workers hWorker with hBefore | ⟨-, -, hIssued⟩
    · exact hSync.synced job hJob owner worker hBefore hOwns
    · obtain ⟨_, -, -, -, hRead⟩ := claimScanJob_lease.mp hIssued
      have hOwner := hOwnerOf hOwns
      rw [(readLease_eq_some hRead).2.2.1] at hOwner
      exact absurd hOwner (hNext job hJob)
  · intro job hJob hClaim hClaimable hProvenance owner worker hWorker hOwns
    cases hClaim
    rcases afterClaim_workers hWorker with hBefore | ⟨-, hPhase, hIssued⟩
    · -- an earlier lease has an earlier token
      obtain ⟨-, hLease⟩ := hInv.worker owner worker hBefore
      have hOwner := Option.some.inj (hOwnerOf hOwns)
      have hFresh := hInv.store.fresh worker.lease hLease
      rw [← hOwner] at hFresh
      exact absurd hFresh (Nat.lt_irrefl _)
    · obtain ⟨job', hJob', -, -, hRead⟩ := claimScanJob_lease.mp hIssued
      rw [hJob] at hJob'
      cases hJob'
      rw [hPhase]
      exact synced_claimed hRead

theorem delivers_db {s : Store} {lease : ScanLease} {st st' : ScanState} {page : ScanPage}
    {reached : Bool} {delay : Nat} {turn : Turn} {db : Database}
    (h : Delivers env s lease st st' page reached delay turn)
    (hOk : persistScanPage env.py s.now (s.now + delay) lease page s.db = .ok db) :
    turn.store.db = db := by
  rw [(Store.step_worker.mp h.step).2]
  simp only [WorkerOp.apply, hOk, committed]

/-- A persisted page of a worker: the row its lease holds and the page the row gains. -/
theorem delivers_row {s : Store} {lease : ScanLease} {st st' : ScanState} {page : ScanPage}
    {reached : Bool} {delay : Nat} {turn : Turn}
    (h : Delivers env s lease st st' page reached delay turn) :
    ∃ job, s.db.jobs.find? lease.jobId = some job ∧ lease.holds s.now job = true ∧
      turn.store.db.jobs.find? lease.jobId =
        some (job.recordPage page.messages.length page.nextOffsetId) := by
  obtain ⟨db, hOk⟩ := h.persisted
  obtain ⟨-, -, ⟨job, hHeld⟩, -⟩ := persistScanPage_eq_ok hOk
  obtain ⟨hFind, hFence⟩ := heldJob_eq_some.mp hHeld
  refine ⟨job, hFind, holds_of_persisted hOk (Table.mem_of_find? hFind) hFence, ?_⟩
  rw [delivers_db h hOk, persistScanPage_jobs hOk, Table.find?_update, hFind, Option.map_some,
    if_pos hFence]

/-- Two workers whose leases own one job are one worker. -/
theorem owner_unique (hInv : WorldInv w) {job : ScanJob} {owner owner' : LeaseOwner}
    {worker worker' : Worker} (hWorker : w.workers owner = some worker)
    (hWorker' : w.workers owner' = some worker') (hOwns : worker.lease.owns job = true)
    (hOwns' : worker'.lease.owns job = true) : owner' = owner := by
  have hToken := (ScanLease.names_iff.mp (ScanLease.names_of_owns hOwns)).2.2.2.2
  have hToken' := (ScanLease.names_iff.mp (ScanLease.names_of_owns hOwns')).2.2.2.2
  have hSame := Option.some.inj (hToken.symm.trans hToken')
  rw [← (hInv.worker owner worker hWorker).1, ← (hInv.worker owner' worker' hWorker').1, hSame]

theorem jobSync_worker (hInv : WorldInv w) (hSync : JobSync E K w j) {owner : LeaseOwner}
    {act : WorkerAct} {own : Worker} (hOwn : w.workers owner = some own) {turn : Turn}
    (hTurn : Worker.step env (w.source own.lease.telegramUserId) w.store own.lease own.phase act =
      some turn)
    (hE : ∀ job, w.store.db.jobs.find? j = some job → own.lease.owns job = true →
      E (w.source own.lease.telegramUserId))
    (hK : K → ∀ job, w.store.db.jobs.find? j = some job → own.lease.owns job = true →
      own.phase = .claimed → act = .openConnection → own.lease.runtimeLeft w.store.now = true →
      own.lease.maxMessages ≤ own.lease.messagesScanned →
      (w.source own.lease.telegramUserId).below own.lease.lastMessageId ≠ []) :
    JobSync E K (w.afterTurn own owner turn) j := by
  rcases worker_step_cases hTurn with ⟨hPage, hStore⟩ |
    ⟨st, st', page, reached, delay, hPhase, hDelivers⟩
  · -- no page: the worker itself goes on in agreement, the others do not notice
    have hWorkers (job : ScanJob) (hJob : w.store.db.jobs.find? j = some job)
        (owner' : LeaseOwner) (worker : Worker)
        (hWorker : (w.afterTurn own owner turn).workers owner' = some worker)
        (hOwns : worker.lease.owns job = true) : Synced E K worker.lease job worker.phase := by
      rcases afterTurn_workers hWorker with ⟨-, hBefore⟩ | ⟨-, hLease, hNext⟩
      · exact hSync.synced job hJob owner' worker hBefore hOwns
      · rw [hLease] at hOwns ⊢
        have hSynced := hSync.synced job hJob owner own hOwn hOwns
        exact ⟨hSynced.maxMessages, hSynced.replaceExisting,
          turn_sync hTurn hPage hNext hSynced.phase hSynced.maxMessages
            (hSync.counted job hJob (ScanLease.active_of_owns hOwns)) (hE job hJob hOwns)
            fun k => hK k job hJob hOwns⟩
    rcases hStore with hSame | ⟨op, hStep, hOp⟩
    · constructor
      · intro job hJob
        rw [show (w.afterTurn own owner turn).store = w.store from hSame] at hJob
        exact hSync.counted job hJob
      · intro job hJob
        rw [show (w.afterTurn own owner turn).store = w.store from hSame] at hJob
        exact hWorkers job hJob
    · refine jobSync_of_store hStep ?_ hSync hWorkers ?_
      · intro lease page delay hAction
        cases hAction
        exact absurd rfl (hOp.noPage page delay)
      · intro _ _ hAction
        cases hAction
  · by_cases hJobId : own.lease.jobId = j
    · -- the row of the job gains the page, and so does the scan of its owner
      obtain ⟨job, hFind, hHolds, hFind'⟩ := delivers_row hDelivers
      rw [hJobId] at hFind hFind'
      have hOwns := ScanLease.owns_of_holds hHolds
      have hSynced := hSync.synced job hFind owner own hOwn hOwns
      have hScan : ScanSync E own.lease job st := by
        have h := hSynced.phase
        rw [hPhase] at h
        exact h
      obtain ⟨elapsed, hResume⟩ := hDelivers.resumed
      obtain ⟨hScan', hCounted'⟩ :=
        deliver_sync hScan hSynced.maxMessages hDelivers.phase hResume
      have hFind'' : (w.afterTurn own owner turn).store.db.jobs.find? j =
          some (job.recordPage page.messages.length page.nextOffsetId) := hFind'
      constructor
      · intro job' hJob'
        rw [hFind''] at hJob'
        cases hJob'
        exact fun _ => hCounted'
      · intro job' hJob' owner' worker hWorker hOwns'
        rw [hFind''] at hJob'
        cases hJob'
        rcases afterTurn_workers hWorker with ⟨hNe, hBefore⟩ | ⟨-, hLease, hNext⟩
        · exact absurd (owner_unique hInv hOwn hBefore hOwns hOwns') hNe
        · rw [hDelivers.next, Option.some.injEq] at hNext
          rw [hLease, ← hNext]
          exact ⟨hSynced.maxMessages, hSynced.replaceExisting, hScan'⟩
    · refine jobSync_of_store hDelivers.step ?_ hSync ?_ ?_
      · intro lease page delay hAction
        cases hAction
        exact hJobId
      · intro job hJob owner' worker hWorker hOwns
        rcases afterTurn_workers hWorker with ⟨-, hBefore⟩ | ⟨-, hLease, -⟩
        · exact hSync.synced job hJob owner' worker hBefore hOwns
        · have hId : job.id = j := Table.key_of_find? hJob
          have hLeaseId := ScanLease.id_of_owns hOwns
          rw [hLease, hId] at hLeaseId
          exact absurd hLeaseId.symm hJobId
      · intro _ _ hAction
        cases hAction

/-- Nobody owns a job that is not active, so there is nothing to agree with. -/
theorem jobSync_of_ended (h : ∀ job, w.store.db.jobs.find? j = some job → job.state.active = false) :
    JobSync E K w j := by
  constructor
  · intro job hJob hActive
    rw [h job hJob] at hActive
    cases hActive
  · intro job hJob owner worker _ hOwns
    have hActive := ScanLease.active_of_owns hOwns
    rw [h job hJob] at hActive
    cases hActive

/-- A job that waits is owned by nobody, whatever Telegram holds. -/
theorem JobSync.of_pending {E' : SavedMessages → Prop} {K' : Prop} (hSync : JobSync E K w j)
    (h : ∀ job, w.store.db.jobs.find? j = some job → job.state = .pending) :
    JobSync E' K' w j := by
  refine ⟨hSync.counted, ?_⟩
  intro job hJob owner worker _ hOwns
  rcases (ScanLease.owns_iff.mp hOwns).2 with hState | hState <;>
    rw [h job hJob] at hState <;> cases hState

/-- Every step of the world keeps the agreement, when the source of the job's account stays in
`E` and slices that open with the quota used up meet `K`. -/
theorem jobSync_step (h : w.step env a = some w') (hInv : WorldInv w) (hSync : JobSync E K w j)
    (hE : ∀ job account, w.store.db.jobs.find? j = some job →
      job.telegramUserId = some account → E (w.source account))
    (hK : K → ∀ job owner worker, w.store.db.jobs.find? j = some job →
      a = .worker owner .openConnection → w.workers owner = some worker →
      worker.lease.owns job = true → worker.phase = .claimed →
      worker.lease.runtimeLeft w.store.now = true →
      worker.lease.maxMessages ≤ worker.lease.messagesScanned →
      (w.source worker.lease.telegramUserId).below worker.lease.lastMessageId ≠ []) :
    JobSync E K w' j := by
  cases a with
  | store sa =>
      simp only [World.step] at h
      split at h
      · rename_i hExternal
        obtain ⟨s', hStep, rfl⟩ := Option.map_eq_some_iff.mp h
        refine @jobSync_of_store env w { w with store := s' } j E K sa hStep ?_ hSync
          hSync.synced ?_
        · intro lease page delay hAction
          rw [hAction] at hExternal
          cases hExternal
        · intro _ _ hAction
          rw [hAction] at hExternal
          cases hExternal
      · cases h
  | changeSource account messages =>
      cases h
      exact ⟨hSync.counted, hSync.synced⟩
  | claim jobId =>
      cases h
      exact jobSync_claim env hInv hSync jobId
  | worker owner act =>
      obtain ⟨own, hOwn, h⟩ := Option.bind_eq_some_iff.mp h
      obtain ⟨turn, hTurn, rfl⟩ := Option.map_eq_some_iff.mp h
      refine jobSync_worker hInv hSync hOwn hTurn ?_ ?_
      · intro job hJob hOwns
        exact hE job _ hJob (ScanLease.names_iff.mp (ScanLease.names_of_owns hOwns)).2.2.1
      · intro k job hJob hOwns hPhase hAct
        exact hK k job owner own hJob (hAct ▸ rfl) hOwn hOwns hPhase

end JobSteps

end SavedOrganizer
