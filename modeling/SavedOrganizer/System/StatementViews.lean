import SavedOrganizer.System.MarkerSteps
import SavedOrganizer.System.StatementWorld

/-!
# What a transaction relies on

The invariant of the calls and their workers in terms of what one transaction sees. `Stored` is
what holds of the committed rows: a user has one active job, a message of Telegram is stored
once, and the job of a marker is there. `CallSeen` adds what holds of the transaction's own
versions. A job goes on from the committed row (`JobGoes`), except that the last statement before
a commit may claim it, record a page of it or add it. A message that is added or deleted is one
of a job that the transaction has locked, and a worker that waits for a page waits for the
transaction that persists it.
-/

namespace SavedOrganizer

open MarkerView

/-! ## Jobs -/

/-- What every statement makes of a job, except for the record of a page. -/
structure JobGoes (job job' : ScanJob) : Prop where
  same : SameJob job job'
  counts : SameCounts job job'
  active : job'.state.active = true → job.state.active = true
  stopping : job.state = .stopping → job'.state.active = true →
    job'.state = .stopping ∧ job'.leaseOwner = job.leaseOwner
  stopFlag : StopFlag job → StopFlag job'

/-- What every statement makes of a job. -/
structure JobMoves (job job' : ScanJob) : Prop where
  same : SameJob job job'
  active : job'.state.active = true → job.state.active = true
  stopping : job.state = .stopping → job'.state.active = true →
    job'.state = .stopping ∧ job'.leaseOwner = job.leaseOwner
  stopFlag : StopFlag job → StopFlag job'

theorem JobGoes.moves {job job' : ScanJob} (h : JobGoes job job') : JobMoves job job' :=
  ⟨h.same, h.active, h.stopping, h.stopFlag⟩

theorem moves_recordPage {job : ScanJob} {messages : Nat} {nextOffsetId : Option TelegramId} :
    JobMoves job (job.recordPage messages nextOffsetId) :=
  ⟨⟨rfl, rfl, rfl, rfl, rfl, rfl⟩, fun h => h, fun hState _ => ⟨hState, rfl⟩, fun h => h⟩

/-- No new worker has the job. -/
def KeepsOwner (job job' : ScanJob) : Prop :=
  ∀ lease : ScanLease, lease.owns job' = true → lease.owns job = true

theorem JobGoes.trans {job job' job'' : ScanJob} (h : JobGoes job job') (h' : JobGoes job' job'') :
    JobGoes job job'' where
  same := h.same.trans h'.same
  counts := ⟨h'.counts.messagesScanned.trans h.counts.messagesScanned,
    h'.counts.pagesScanned.trans h.counts.pagesScanned,
    h'.counts.lastMessageId.trans h.counts.lastMessageId⟩
  active hActive := h.active (h'.active hActive)
  stopping hState hActive := by
    obtain ⟨hBetween, hOwner⟩ := h.stopping hState (h'.active hActive)
    obtain ⟨hAfter, hOwner'⟩ := h'.stopping hBetween hActive
    exact ⟨hAfter, hOwner'.trans hOwner⟩
  stopFlag hFlag := h'.stopFlag (h.stopFlag hFlag)

theorem JobGoes.refl (job : ScanJob) : JobGoes job job :=
  ⟨.refl, ⟨rfl, rfl, rfl⟩, fun h => h, fun hState _ => ⟨hState, rfl⟩, fun h => h⟩

/-- An ended job is stopping no more. -/
theorem JobGoes.of_ended {job job' : ScanJob} (hSame : SameJob job job')
    (hCounts : SameCounts job job') (hEnd : job'.state.active = false) : JobGoes job job' := by
  have hNot {P : Prop} (hActive : job'.state.active = true) : P :=
    absurd (hEnd.symm.trans hActive) Bool.false_ne_true
  exact ⟨hSame, hCounts, hNot, fun _ => hNot, fun _ => hNot⟩

theorem keepsOwner_of_none {job job' : ScanJob} (h : job'.leaseOwner = none) :
    KeepsOwner job job' := by
  intro lease hOwns
  have hOwner := (ScanLease.names_iff.mp (ScanLease.names_of_owns hOwns)).2.2.2.2
  rw [h] at hOwner
  cases hOwner

theorem keepsOwner_of_ended {job job' : ScanJob} (hEnd : job'.state.active = false) :
    KeepsOwner job job' :=
  fun _ hOwns => absurd (hEnd.symm.trans (ScanLease.active_of_owns hOwns)) Bool.false_ne_true

namespace JobStatement

/-- The endings and the renewal, which are the second statements of their calls. -/
def secondary : JobStatement → Bool
  | renew _ _ | requeue _ _ | release _ _ | terminalize _ | downgrade _ _ | cancelActive _ _ => true
  | _ => false

/-- The worker whose call it is. -/
def worker : JobStatement → Option ScanLease
  | requeue _ lease => some lease
  | release _ lease => some lease
  | _ => none

variable {ending : JobStatement} {job : ScanJob} {clock : Instant}

theorem goes_sets (hSecondary : ending.secondary = true) (hFlag : StopFlag job)
    (h : ending.selects clock job = true) :
    JobGoes job (ending.sets job) ∧ KeepsOwner job (ending.sets job) := by
  have hActive : job.state.active = true := active_of_selects h
  cases ending with
  | renew now lease =>
      exact ⟨⟨⟨rfl, rfl, rfl, rfl, rfl, rfl⟩, ⟨rfl, rfl, rfl⟩, fun h => h,
        fun hState _ => ⟨hState, rfl⟩, fun h => h⟩, fun _ h => h⟩
  | requeue now lease =>
      refine ⟨?_, keepsOwner_of_none rfl⟩
      refine ⟨⟨rfl, rfl, rfl, rfl, rfl, rfl⟩, ⟨rfl, rfl, rfl⟩, fun _ => hActive,
        fun hState hGoesOn => ?_, fun _ => ?_⟩
      · simp only [sets, ScanJob.requeue, ScanJob.stopping, hState, beq_self_eq_true, Bool.or_true,
          if_true] at hGoesOn
        cases hGoesOn
      · intro hGoesOn
        simp only [sets, ScanJob.requeue] at hGoesOn ⊢
        by_cases hStop : job.stopping = true
        · rw [if_pos hStop] at hGoesOn
          cases hGoesOn
        · rw [if_neg hStop]
          rw [ScanJob.stopping, Bool.or_eq_true, not_or] at hStop
          exact ⟨fun hRequested => absurd hRequested hStop.1, fun hState => by cases hState⟩
  | release now lease =>
      refine ⟨?_, keepsOwner_of_none rfl⟩
      refine ⟨⟨rfl, rfl, rfl, rfl, rfl, rfl⟩, ⟨rfl, rfl, rfl⟩, fun _ => hActive,
        fun hState hGoesOn => ?_, fun _ => ?_⟩
      · simp only [sets, ScanJob.release, (hFlag hActive).mpr hState, if_true] at hGoesOn
        cases hGoesOn
      · intro hGoesOn
        simp only [sets, ScanJob.release] at hGoesOn ⊢
        by_cases hStop : job.stopRequested = true
        · rw [if_pos hStop] at hGoesOn
          cases hGoesOn
        · rw [if_neg hStop]
          exact ⟨fun hRequested => absurd hRequested hStop, fun hState => by cases hState⟩
  | terminalize now =>
      exact ⟨.of_ended ⟨rfl, rfl, rfl, rfl, rfl, rfl⟩ ⟨rfl, rfl, rfl⟩ rfl,
        keepsOwner_of_none rfl⟩
  | downgrade now lease =>
      exact ⟨.of_ended ⟨rfl, rfl, rfl, rfl, rfl, rfl⟩ ⟨rfl, rfl, rfl⟩ rfl,
        keepsOwner_of_none rfl⟩
  | cancelActive now userId =>
      exact ⟨.of_ended ⟨rfl, rfl, rfl, rfl, rfl, rfl⟩ ⟨rfl, rfl, rfl⟩ rfl,
        keepsOwner_of_none rfl⟩
  | _ => cases hSecondary

end JobStatement

theorem goes_claim {job : ScanJob} {begun : Instant} {owner : LeaseOwner}
    (h : job.claimable begun = true) (hFlag : StopFlag job) :
    JobGoes job (job.claim begun owner) := by
  simp only [ScanJob.claimable, Bool.or_eq_true, Bool.and_eq_true, beq_iff_eq] at h
  have hActive : job.state.active = true := by
    rcases h with hState | ⟨hState, -⟩ <;> rw [hState] <;> rfl
  have hNot : job.state ≠ .stopping := by
    intro hStopping
    rcases h with hState | ⟨hState, -⟩ <;> cases hStopping.symm.trans hState
  refine ⟨⟨rfl, rfl, rfl, rfl, rfl, rfl⟩, ⟨rfl, rfl, rfl⟩, fun _ => hActive,
    fun hState => absurd hState hNot,
    fun _ _ => ⟨fun hRequested => ?_, fun hState => by cases hState⟩⟩
  exact absurd ((hFlag hActive).mp hRequested) hNot

theorem SameJob.flush (loaded memory job : ScanJob) : SameJob job (flushJob loaded memory job) :=
  ⟨rfl, rfl, rfl, rfl, rfl, rfl⟩

/-- A stop writes back the row that it has locked. -/
theorem goes_stop {loaded : ScanJob} {now : Instant} (hActive : loaded.state.active = true) :
    JobGoes loaded (flushJob loaded (loaded.stop now) loaded) ∧
      KeepsOwner loaded (flushJob loaded (loaded.stop now) loaded) := by
  have hState : (flushJob loaded (loaded.stop now) loaded).state = (loaded.stop now).state := by
    simp only [flushJob]
    split
    · rename_i hSame
      exact hSame.symm
    · rfl
  have hOwner : (flushJob loaded (loaded.stop now) loaded).leaseOwner =
      (loaded.stop now).leaseOwner := by
    simp only [flushJob]
    split
    · rename_i hSame
      exact hSame.symm
    · rfl
  have hRequested : (flushJob loaded (loaded.stop now) loaded).stopRequested = true := by
    simp only [flushJob, ScanJob.stop]
    cases loaded.stopRequested <;> rfl
  by_cases hOnce : loaded.stopsAtOnce now = true
  · have hEnd : (flushJob loaded (loaded.stop now) loaded).state.active = false := by
      rw [hState]
      simp only [ScanJob.stop, if_pos hOnce]
      rfl
    exact ⟨.of_ended (.flush _ _ _) ⟨rfl, rfl, rfl⟩ hEnd, keepsOwner_of_ended hEnd⟩
  · have hStopping : (flushJob loaded (loaded.stop now) loaded).state = .stopping := by
      rw [hState]
      simp only [ScanJob.stop, if_neg hOnce]
    have hSame : (flushJob loaded (loaded.stop now) loaded).leaseOwner = loaded.leaseOwner := by
      rw [hOwner]
      simp only [ScanJob.stop, if_neg hOnce]
    refine ⟨⟨.flush _ _ _, ⟨rfl, rfl, rfl⟩, fun _ => hActive, fun _ _ => ⟨hStopping, hSame⟩,
      fun _ _ => ⟨fun _ => hStopping, fun _ => hRequested⟩⟩, fun lease hOwns => ?_⟩
    obtain ⟨hId, hUser, hTelegram, hGeneration, hNames⟩ :=
      ScanLease.names_iff.mp (ScanLease.names_of_owns hOwns)
    refine ScanLease.owns_iff.mpr ⟨ScanLease.names_iff.mpr
      ⟨hId, hUser, hTelegram, hGeneration, hSame ▸ hNames⟩, ?_⟩
    simp only [ScanJob.stopsAtOnce, Bool.or_eq_true, beq_iff_eq, not_or] at hOnce
    cases hLoaded : loaded.state with
    | running => exact Or.inl rfl
    | stopping => exact Or.inr rfl
    | pending => exact absurd hLoaded hOnce.1
    | _ =>
        rw [hLoaded] at hActive
        cases hActive

/-- An abandoned stop is written back as cancelled, whatever the row has become. -/
theorem goes_cancelStopped {loaded : ScanJob} {now : Instant} (hState : loaded.state = .stopping)
    (job : ScanJob) : JobGoes job (flushJob loaded (loaded.cancelStopped now) job) ∧
      KeepsOwner job (flushJob loaded (loaded.cancelStopped now) job) := by
  have hEnd : (flushJob loaded (loaded.cancelStopped now) job).state.active = false := by
    simp only [flushJob, ScanJob.cancelStopped, hState]
    rfl
  exact ⟨.of_ended (.flush _ _ _) ⟨rfl, rfl, rfl⟩ hEnd, keepsOwner_of_ended hEnd⟩

/-! ## Workers that wait -/

/-- The workers that wait for a transaction: with their lease, the phase they are in and the one
they go on in. -/
abbrev Waiter := ScanLease → WorkerPhase → Option WorkerPhase → Prop

/-- The worker waits for its page to be persisted. -/
structure AwaitsPage (waits : Waiter) (lease : ScanLease) (page : ScanPage) (st st' : ScanState) :
    Prop where
  waits : waits lease (.scanning st) (some (.scanning st'))
  phase : ∃ reached, st.phase = .delivering page reached
  resumed : ∃ elapsed, resume st (.delivered elapsed) = some st'

/-- The page a call persists. -/
def MarkerPhase.page : MarkerPhase → Option (ScanLease × ScanPage)
  | persisting _ lease page => some (lease, page)
  | persistLocking _ lease page => some (lease, page)
  | persistReading lease page => some (lease, page)
  | persistWriting lease page _ => some (lease, page)
  | _ => none

/-! ## The versions of a transaction -/

section Views

variable (s : MarkerView) (waits : Waiter) (phase : MarkerPhase)

/-- What holds of the committed rows. -/
structure Stored : Prop where
  jobId : ∀ id job, s.jobs.committed id = some job → job.id = id
  stopFlag : ∀ id job, s.jobs.committed id = some job → StopFlag job
  oneActive : ∀ id job id' job', s.jobs.committed id = some job → s.jobs.committed id' = some job' →
    job.userId = job'.userId → job.state.active = true → job'.state.active = true → id = id'
  marked : ∀ key id, s.messages.committed key = some (some id) → s.jobs.committed id ≠ none
  unique : ∀ key key', s.messages.committed key ≠ none → s.messages.committed key' ≠ none →
    key.source = key'.source → key = key'

def FollowsCommitted (id : JobId) (job : ScanJob) : Prop :=
  ∃ before, s.jobs.committed id = some before ∧ JobGoes before job ∧ KeepsOwner before job

/-- The job as it is recorded with a page of the worker that owns it. -/
structure RecordedPage (lease : ScanLease) (page : ScanPage) (before : ScanJob) : Prop where
  committed : s.jobs.committed lease.jobId = some before
  owns : lease.owns before = true
  own : s.jobs.own lease.jobId =
    some (some (before.recordPage page.messages.length page.nextOffsetId))

/-- A job that is added while its user has no other active one, with the connection locked. -/
structure AddedJob (id : JobId) (job : ScanJob) : Prop where
  committed : s.jobs.committed id = none
  connection : s.connections.own job.userId ≠ none
  jobId : job.id = id
  state : job.state = .pending
  stopRequested : job.stopRequested = false
  messagesScanned : job.messagesScanned = 0
  lastMessageId : job.lastMessageId = none
  free : ∀ id' ≠ id, ∀ job', s.jobs.view id' = some job' → job'.activeOf job.userId = false

inductive OwnVersion (id : JobId) : ScanJob → Prop
  | follows {job : ScanJob} (hFollows : FollowsCommitted s id job) : OwnVersion id job
  | claimed {begun : Instant} {owner : LeaseOwner} {matched : Bool} {before : ScanJob}
      (hPhase : phase = .claimCommitting begun id owner matched)
      (hCommitted : s.jobs.committed id = some before) (hClaimable : before.claimable begun = true) :
      OwnVersion id (before.claim begun owner)
  | recorded {lease : ScanLease} {page : ScanPage} {st st' : ScanState} {before : ScanJob}
      (hPhase : phase = .committing none) (hId : lease.jobId = id)
      (hAwaits : AwaitsPage waits lease page st st') (hRecorded : RecordedPage s lease page before) :
      OwnVersion id (before.recordPage page.messages.length page.nextOffsetId)
  | added {job : ScanJob} (hPhase : phase = .committing none) (hAdded : AddedJob s id job) :
      OwnVersion id job

/-- A row that a page has added. -/
structure AddedRow (key : MessageKey) (marker : Marker) : Prop where
  connection : s.connections.own key.userId ≠ none
  page : ∃ lease page st st' before, AwaitsPage waits lease page st st' ∧
    lease.userId = key.userId ∧ s.jobs.committed lease.jobId = some before ∧
      lease.owns before = true ∧ s.jobs.own lease.jobId ≠ none ∧
        (lease.replaceExisting = true → marker = some lease.jobId)
  fresh : ∀ key', key'.source = key.source → s.messages.view key' ≠ none → key' = key

/-- The worker waits for the end of a replacement that prunes. -/
structure Prunes (lease : ScanLease) : Prop where
  waits : ∃ outcome, waits lease (.ending outcome) none ∧ outcome.reason = .sourceExhausted
  owned : ∃ before, s.jobs.committed lease.jobId = some before ∧ lease.owns before = true
  ended : s.Ended lease.jobId

structure RowsSeen : Prop where
  marked : ∀ key id, s.messages.own key = some (some (some id)) → s.jobs.committed id ≠ none
  added : ∀ key marker, s.messages.own key = some (some marker) →
    s.messages.committed key = none → AddedRow s waits key marker
  deleted : ∀ key, s.messages.own key = some none → ∃ lease, Prunes s waits lease ∧
    key.userId = lease.userId ∧ s.messages.committed key ≠ some (some lease.jobId)

/-- The transaction has locked the job that its worker's page is of, and the connection. -/
structure Persists (lease : ScanLease) (page : ScanPage) : Prop where
  awaits : ∃ st st', AwaitsPage waits lease page st st'
  connection : s.connections.own lease.userId ≠ none
  held : ∃ job, s.jobs.committed lease.jobId = some job ∧ lease.owns job = true ∧
    s.jobs.own lease.jobId = some (some job)

/-- Jobs and messages are as committed. -/
abbrev Fresh : Prop := s.jobs.Unlocked ∧ s.messages.Unlocked

variable {s} in
theorem Fresh.jobs (h : Fresh s) : s.jobs.Unlocked := h.1

variable {s} in
theorem Fresh.messages (h : Fresh s) : s.messages.Unlocked := h.2

/-- What the transaction is at in each phase. -/
def PhaseSeen : MarkerPhase → Prop
  | .idle => Fresh s ∧ ∀ lease wphase next, ¬ waits lease wphase next
  | .returned => Fresh s
  | .committing _ | .claimCommitting _ _ _ _ => True
  | .clearingJob _ _ jobId => s.Ended jobId ∧
      ∀ key own, s.messages.own key = some own → own = none
  | .writing _ loaded memory => s.messages.Unlocked ∧ loaded.state.active = true ∧ ∃ now,
      (s.jobs.Unlocked ∧ loaded.state = .stopping ∧ memory = loaded.cancelStopped now) ∨
        (s.jobs.own loaded.id = some (some loaded) ∧ memory = loaded.stop now)
  | .starting _ | .startRead _ _ | .validating _ | .stopping _ => Fresh s
  | .clearingAll request _ _ => Fresh s ∧ s.connections.own request.userId ≠ none
  | .inserting request _ _ => s.jobs.Unlocked ∧ s.connections.own request.userId ≠ none
  | .stopRead loaded => s.messages.Unlocked ∧ loaded.state.active = true ∧
      s.jobs.own loaded.id = some (some loaded)
  | .claimFailing _ _ _ | .claimReading _ _ _ => Fresh s
  | .claimCancelling _ _ _ | .claimClearing _ _ _ => s.messages.Unlocked ∧
      ∀ id job, s.jobs.own id = some (some job) → job.state.active = false
  | .claimUpdating _ _ _ => ∀ id job, s.jobs.own id = some (some job) → job.state.active = false
  | .persisting _ lease page => Fresh s ∧ ∃ st st', AwaitsPage waits lease page st st'
  | .persistLocking _ lease page => Fresh s ∧ s.connections.own lease.userId ≠ none ∧
      ∃ st st', AwaitsPage waits lease page st st'
  | .persistReading lease page => s.messages.Unlocked ∧ Persists s waits lease page
  | .persistWriting lease page writes => Persists s waits lease page ∧
      ∀ key loaded, .refresh key loaded ∈ writes → key.userId = lease.userId
  | .finalizing _ lease state _ completionReason => Fresh s ∧
      (prunes lease state completionReason = true →
        ∃ outcome, waits lease (.ending outcome) none ∧ outcome.reason = .sourceExhausted)
  | .deleting lease => s.messages.Unlocked ∧ Prunes s waits lease
  | .downgrading _ | .disconnecting _ => Fresh s
  | .clearing ending => Fresh s ∧ ending.secondary = true ∧
      ∀ lease, ending.worker = some lease → ∃ wphase, waits lease wphase none
  | .updating ending _ => s.jobs.Unlocked ∧ ending.secondary = true

/-- A worker waits for its page, or is done or failing afterwards. -/
def WaitSeen (lease : ScanLease) (wphase : WorkerPhase) (next : Option WorkerPhase) : Prop :=
  next = none ∨ next = some .failing ∨ ∃ page st st', AwaitsPage waits lease page st st' ∧
    wphase = .scanning st ∧ next = some (.scanning st') ∧
      (phase.page = some (lease, page) ∨
        phase = .committing none ∧ ∃ before, RecordedPage s lease page before)

structure CallSeen : Prop where
  stored : Stored s
  jobs : ∀ id own, s.jobs.own id = some own →
    ∃ job, own = some job ∧ OwnVersion s waits phase id job
  rows : RowsSeen s waits
  phaseSeen : PhaseSeen s waits phase
  awaited : ∀ lease wphase next, waits lease wphase next → WaitSeen s waits phase lease wphase next
  sole : ∀ lease wphase next lease' wphase' next', waits lease wphase next →
    waits lease' wphase' next' → lease = lease' ∧ wphase = wphase' ∧ next = next'

end Views

end SavedOrganizer
