import SavedOrganizer.Scanner.Emission
import SavedOrganizer.System.Progress

/-!
# What the completion reason of a job says

Against a source that does not change, a job persists the source from the top, each page
behind the last one (`Accounted`), over any number of slices, crashes and reclaims. Its
completion reason says how far it came. The scan loop looks one message ahead before it
reports the message limit; a slice that opens with the quota used up does not look at the
source at all. `OpensSpent` is such a slice at the end of the source, and
`completion_truthful` proves that every reason is true in the runs without one.
`limit_reached_at_end` is a run with one: the worker crashed after it had persisted the last
page.
-/

namespace SavedOrganizer

open Transition SavedMessages Pagination

/-- The worker that owns the job opens a slice with the quota used up, and no message of the
source is left below the cursor. -/
def OpensSpent (w : World) (a : WorldAction) (j : JobId) : Prop :=
  ∃ owner own job, a = .worker owner .openConnection ∧ w.workers owner = some own ∧
    own.phase = .claimed ∧ w.store.db.jobs.find? j = some job ∧ own.lease.owns job = true ∧
    own.lease.runtimeLeft w.store.now = true ∧
    own.lease.maxMessages ≤ own.lease.messagesScanned ∧
    (w.source own.lease.telegramUserId).below own.lease.lastMessageId = []

/-- The completion reason is true of what the job has persisted. -/
structure TrueReason (src : SavedMessages) (job : ScanJob) (persisted : List TelegramId) :
    Prop where
  sourceExhausted : job.completionReason = some .sourceExhausted → persisted = src.ids
  messageLimitReached : job.completionReason = some .messageLimitReached →
    persisted.length = job.maxMessages ∧ ∃ n ∈ src.ids, n ∉ persisted

/-- A completed job has persisted messages of the source, from the top and each one once, and
its reason is true of them. -/
def ReasonTruthful (src : SavedMessages) (w : World) (j : JobId) : Prop :=
  ∀ job, w.store.db.jobs.find? j = some job → job.state = .completed →
    w.persisted j <+: src.ids ∧ (w.persisted j).Nodup ∧ TrueReason src job (w.persisted j)

/-- The reasons are true in every run against a source that does not change. -/
def ReasonsTruthful (env : Env) : Prop :=
  ∀ {w₀ w₁ w₂ : World} {front as : List WorldAction} {j : JobId} {job : ScanJob}
    {account : TelegramId} {src : SavedMessages}, w₀.Initial →
    run (World.step env) w₀ front = some w₁ → w₁.store.db.jobs.find? j = some job →
    job.state = .pending → job.lastMessageId = none → job.telegramUserId = some account →
    run (World.step env) w₁ as = some w₂ →
    (∀ u, Visits (World.step env) w₁ as u → u.source account = src) → ReasonTruthful src w₂ j

/-- The job has persisted what lies above its cursor, and has counted it. -/
structure Accounted (src : SavedMessages) (job : ScanJob) (persisted : List TelegramId) :
    Prop where
  ids_eq : persisted = upTo id job.lastMessageId src.ids
  length_eq : persisted.length = job.messagesScanned
  truthful : job.state = .completed → TrueReason src job persisted

section Steps

variable {env : Env} {w w' : World} {a : WorldAction} {j : JobId} {src : SavedMessages}
  {job job' : ScanJob}

theorem accounted_page {page : ScanPage} {persisted : List TelegramId}
    (h : Accounted src job persisted) (hPage : PageOf src job.lastMessageId page)
    (hActive : job.state.active = true) :
    Accounted src (job.recordPage page.messages.length page.nextOffsetId)
      (persisted ++ page.ids) := by
  refine ⟨?_, ?_, ?_⟩
  · show persisted ++ page.ids = upTo id page.nextOffsetId src.ids
    rw [hPage.below_next.2, h.ids_eq]
  · show (persisted ++ page.ids).length = job.messagesScanned + page.messages.length
    rw [List.length_append, h.length_eq, page.ids_length]
  · intro hDone
    rw [show job.state = .completed from hDone] at hActive
    cases hActive

/-- The reason with which a worker completes its job. -/
theorem trueReason_of_completes {owner : LeaseOwner} {own : Worker} {outcome : SliceOutcome}
    {reason : CompletionReason} {persisted : List TelegramId}
    (h : Completes w a job job' owner own outcome reason) (hSync : JobSync (· = src) True w j)
    (hJob : w.store.db.jobs.find? j = some job) (hAccounted : Accounted src job persisted)
    (hMax : job'.maxMessages = job.maxMessages) : TrueReason src job' persisted := by
  have hOutcome := h.outcomeTrue hSync hJob
  have hSplit := upTo_append_after src.ids_descending job.lastMessageId
  rw [← hAccounted.ids_eq] at hSplit
  constructor
  · intro hReason
    rw [h.completionReason, Option.some.injEq] at hReason
    subst hReason
    rcases h.reported with hReported | ⟨hReported, -⟩
    · rw [ScanReason.eq_of_completion .sourceExhausted hReported rfl] at hOutcome
      obtain ⟨source, rfl, hBelow⟩ := hOutcome
      rw [show after id job.lastMessageId source.ids = [] from hBelow, List.append_nil] at hSplit
      exact hSplit
    · cases hReported
  · intro hReason
    rw [h.completionReason, Option.some.injEq] at hReason
    subst hReason
    rcases h.reported with hReported | ⟨hReported, -⟩
    · rw [ScanReason.eq_of_completion .messageLimitReached hReported rfl] at hOutcome
      obtain ⟨hFull, hLeft⟩ := hOutcome
      obtain ⟨source, rfl, hBelow⟩ := hLeft trivial
      refine ⟨by rw [hAccounted.length_eq, hFull, hMax], ?_⟩
      obtain ⟨n, hn⟩ := List.exists_mem_of_ne_nil _ hBelow
      obtain ⟨hListed, hNot⟩ := mem_after.mp hn
      refine ⟨n, hListed, fun hPersisted => hNot ?_⟩
      rw [hAccounted.ids_eq] at hPersisted
      exact (mem_upTo.mp hPersisted).2
    · cases hReported

/-- One step keeps the account of a job. -/
theorem accounted_step (h : w.step env a = some w') (hSync : JobSync (· = src) True w j)
    (hJob : w.store.db.jobs.find? j = some job) (hAccounted : Accounted src job (w.persisted j)) :
    ∃ job', w'.store.db.jobs.find? j = some job' ∧ Accounted src job' (w'.persisted j) := by
  rcases world_progress h hSync with ⟨hPersisted, hStore⟩ | ⟨found, page, hPage⟩
  · rw [hPersisted]
    rcases hStore with hSame | ⟨sa, hStep, hOther⟩
    · exact ⟨job, by rw [hSame]; exact hJob, hAccounted⟩
    · obtain ⟨job', hJob', hChange⟩ := step_job hStep hJob
      refine ⟨job', hJob', ?_⟩
      rcases row_step hStep hOther hJob' with ⟨found, hFound, -, hCounts⟩ | ⟨hNone, -⟩
      · rw [hJob] at hFound
        obtain rfl := Option.some.inj hFound
        refine ⟨?_, ?_, ?_⟩
        · rw [hCounts.lastMessageId]
          exact hAccounted.ids_eq
        · rw [hCounts.messagesScanned]
          exact hAccounted.length_eq
        · intro hDone
          cases hActive : job.state.active with
          | true =>
              obtain ⟨owner, own, outcome, reason, hCompletes⟩ :=
                completed_by_owner h hJob hActive hJob' hDone
              exact trueReason_of_completes hCompletes hSync hJob hAccounted
                hChange.sameJob.maxMessages
          | false =>
              rw [hChange.eq_of_ended hActive] at hDone ⊢
              exact hAccounted.truthful hDone
      · rw [hNone] at hJob
        cases hJob
  · obtain ⟨source, hSource, hPageOf⟩ := hPage.pageOf
    have hFound := hPage.found
    rw [hJob] at hFound
    obtain rfl := Option.some.inj hFound
    refine ⟨_, hPage.found', ?_⟩
    rw [hPage.persisted]
    exact accounted_page hAccounted (hSource ▸ hPageOf) hPage.active

end Steps

/-! ## A whole run -/

section Runs

variable {env : Env} {w w' w₀ w₁ w₂ : World} {a : WorldAction} {j : JobId} {src : SavedMessages}
  {job : ScanJob} {account : TelegramId}

/-- A job without a cursor, or not yet created, has persisted nothing. -/
structure Unstarted (w : World) (j : JobId) : Prop where
  absent : w.store.db.jobs.find? j = none → w.persisted j = []
  fresh : ∀ job, w.store.db.jobs.find? j = some job → job.state.active = true →
    job.lastMessageId = none → w.persisted j = [] ∧ job.messagesScanned = 0

theorem unstarted_step {E : SavedMessages → Prop} {K : Prop} (h : w.step env a = some w')
    (hSync : JobSync E K w j) (hUnstarted : Unstarted w j) : Unstarted w' j := by
  have hAbsent (hNone : w'.store.db.jobs.find? j = none) : w.store.db.jobs.find? j = none := by
    cases hJob : w.store.db.jobs.find? j with
    | none => rfl
    | some job =>
        obtain ⟨job', hJob', -⟩ := world_job h hJob
        rw [hNone] at hJob'
        cases hJob'
  rcases world_progress h hSync with ⟨hPersisted, hStore⟩ | ⟨job, page, hPage⟩
  · refine ⟨fun hNone => hPersisted.trans (hUnstarted.absent (hAbsent hNone)), ?_⟩
    intro job' hJob' hActive hNone
    rw [hPersisted]
    rcases hStore with hSame | ⟨sa, hStep, hOther⟩
    · rw [hSame] at hJob'
      exact hUnstarted.fresh job' hJob' hActive hNone
    · rcases row_step hStep hOther hJob' with ⟨job, hJob, hChange, hCounts⟩ | ⟨hNew, -, hZero, -⟩
      · rw [hCounts.messagesScanned]
        exact hUnstarted.fresh job hJob (hChange.active_of_active hActive)
          (hCounts.lastMessageId ▸ hNone)
      · exact ⟨hUnstarted.absent hNew, hZero⟩
  · refine ⟨fun hNone => ?_, ?_⟩
    · rw [hPage.found'] at hNone
      cases hNone
    · intro job' hJob' _ hNone
      rw [hPage.found'] at hJob'
      cases hJob'
      obtain ⟨source, -, hPageOf⟩ := hPage.pageOf
      obtain ⟨c, hNext, -⟩ := hPageOf.last
      rw [show page.nextOffsetId = none from hNone] at hNext
      cases hNext

theorem unstarted_of_run {front : List WorldAction} (hStart : w₀.Initial)
    (hRun : run (World.step env) w₀ front = some w₁) : Unstarted w₁ j := by
  have hBoth : JobSync (fun _ => True) False w₁ j ∧ WorldInv w₁ ∧ Unstarted w₁ j := by
    refine invariant (I := fun u => JobSync (fun _ => True) False u j ∧ WorldInv u ∧
      Unstarted u j) ?_ ⟨jobSync_of_ended fun job hJob =>
        (hStart.store.jobsEnded job (Table.mem_of_find? hJob)).1, hStart.inv,
      fun _ => hStart.nothingPersisted j, ?_⟩ hRun
    · rintro u a v h ⟨hSync, hInv, hUnstarted⟩
      exact ⟨jobSync_step h hInv hSync (fun _ _ _ _ => trivial) (fun hFalse => hFalse.elim),
        worldInv_step h hInv, unstarted_step h hSync hUnstarted⟩
    · intro job hJob hActive
      rw [(hStart.store.jobsEnded job (Table.mem_of_find? hJob)).1] at hActive
      cases hActive
  exact hBoth.2.2

/-- What holds from the start of a job on, while its source does not change. -/
structure Accounting (src : SavedMessages) (account : TelegramId) (j : JobId) (w : World) :
    Prop where
  inv : WorldInv w
  sync : JobSync (· = src) True w j
  row : ∃ job, w.store.db.jobs.find? j = some job ∧ job.telegramUserId = some account ∧
    Accounted src job (w.persisted j)

theorem accounting_start {front : List WorldAction} (hStart : w₀.Initial)
    (hRun : run (World.step env) w₀ front = some w₁)
    (hJob : w₁.store.db.jobs.find? j = some job) (hPending : job.state = .pending)
    (hNew : job.lastMessageId = none) (hAccount : job.telegramUserId = some account) :
    Accounting src account j w₁ := by
  obtain ⟨hInv, hSync⟩ := jobSync_of_run hStart hRun j
  obtain ⟨hPersisted, hZero⟩ :=
    (unstarted_of_run hStart hRun).fresh job hJob (by rw [hPending]; rfl) hNew
  refine ⟨hInv, hSync.of_pending ?_, job, hJob, hAccount, ?_⟩
  · intro job' hJob'
    rw [hJob] at hJob'
    exact Option.some.inj hJob' ▸ hPending
  · rw [hPersisted]
    refine ⟨by rw [hNew]; rfl, hZero.symm, fun hDone => ?_⟩
    rw [hPending] at hDone
    cases hDone

theorem accounting_step (h : w.step env a = some w') (hSource : w.source account = src)
    (hOpens : ¬ OpensSpent w a j) (hInv : Accounting src account j w) :
    Accounting src account j w' := by
  obtain ⟨job, hJob, hAccount, hAccounted⟩ := hInv.row
  obtain ⟨job', hJob', hAccounted'⟩ := accounted_step h hInv.sync hJob hAccounted
  obtain ⟨found, hFound, hSame, -⟩ := world_job h hJob
  rw [hJob'] at hFound
  obtain rfl := Option.some.inj hFound
  refine ⟨worldInv_step h hInv.inv, jobSync_step h hInv.inv hInv.sync ?_ ?_, job', hJob',
    hSame.telegramUserId.trans hAccount, hAccounted'⟩
  · intro row account' hRow hAccount'
    rw [hJob] at hRow
    obtain rfl := Option.some.inj hRow
    rw [hAccount, Option.some.injEq] at hAccount'
    exact hAccount' ▸ hSource
  · intro _ row owner own hRow hAction hOwn hOwns hPhase hLeft hSpent hBelow
    exact hOpens ⟨owner, own, row, hAction, hOwn, hPhase, hRow, hOwns, hLeft, hSpent, hBelow⟩

/-- In every run against a source that does not change, and in which no slice of the job opens
with the quota used up at the end of the source, the reason of the completed job is true. -/
theorem completion_truthful {front as : List WorldAction} (hStart : w₀.Initial)
    (hFront : run (World.step env) w₀ front = some w₁)
    (hJob : w₁.store.db.jobs.find? j = some job) (hPending : job.state = .pending)
    (hNew : job.lastMessageId = none) (hAccount : job.telegramUserId = some account)
    (hRun : run (World.step env) w₁ as = some w₂)
    (hSource : ∀ u, Visits (World.step env) w₁ as u → u.source account = src)
    (hOpens : ∀ u a v, StepOf (World.step env) w₁ as u a v → ¬ OpensSpent u a j) :
    ReasonTruthful src w₂ j := by
  have hInv : Accounting src account j w₂ := by
    refine run_induct (accounting_start hStart hFront hJob hPending hNew hAccount) hRun ?_
    intro u a v hStep hInv
    exact accounting_step hStep.step (hSource u hStep.before) (hOpens u a v hStep) hInv
  obtain ⟨job', hJob', -, hAccounted⟩ := hInv.row
  have hPrefix : w₂.persisted j <+: src.ids := by
    rw [hAccounted.ids_eq]
    exact upTo_prefix src.ids_descending job'.lastMessageId
  intro done hDone hCompleted
  rw [hJob'] at hDone
  obtain rfl := Option.some.inj hDone
  have hSorted := src.ids_descending.sublist hPrefix.sublist
  exact ⟨hPrefix, hSorted.imp fun h => ne_of_gt h, hAccounted.truthful hCompleted⟩

end Runs

/-! ### A crash after the last page

The source has as many messages as the job may scan. The worker persists all four and
crashes. When the lease has run out another worker takes the job and finds its quota used
up. -/

def fullQuota : List WorldAction :=
  beginSlice 0 ++ readyPage 0 fourNotes 0 3 ++ .worker 0 (.deliver 0 0) ::
    readyPage 0 fourNotes 7 3 ++ [.worker 0 (.deliver 0 0)]

def reclaim : List WorldAction :=
  [.worker 0 .crash, .store (.tick (seconds 91)), .claim 1, .worker 1 .openConnection,
    .worker 1 .settle]

def quotaStart : World :=
  (run (World.step demoEnv) (demoWorld fourNotes) [startReplacement]).getD (demoWorld fourNotes)

def afterReclaim : World :=
  (run (World.step demoEnv) quotaStart (.claim 1 :: fullQuota ++ reclaim)).getD quotaStart

def afterQuota : World :=
  (run (World.step demoEnv) quotaStart (.claim 1 :: fullQuota ++ endSlice 0)).getD quotaStart

theorem quotaStart_eq : run (World.step demoEnv) (demoWorld fourNotes) [startReplacement] =
    some quotaStart := run_getD (by decide +kernel)

theorem quotaStart_job : quotaStart.store.db.jobs.find? 1 =
    some (.queued 1 1 true 2 200 3 4 3600 0) := by decide +kernel

example : afterReclaim.persisted 1 = fourNotes.ids := by decide +kernel

theorem limit_reached_at_end : ¬ ReasonsTruthful demoEnv := by
  intro h
  have hRun : run (World.step demoEnv) quotaStart (.claim 1 :: fullQuota ++ reclaim) =
      some afterReclaim := run_getD (by decide +kernel)
  have hDone : (afterReclaim.store.db.jobs.find? 1).map
      (fun job => (job.state, job.completionReason)) =
      some (.completed, some .messageLimitReached) := by decide +kernel
  have hPersisted : ∀ n ∈ fourNotes.ids, n ∈ afterReclaim.persisted 1 := by decide +kernel
  obtain ⟨done, hJob, hRow⟩ := Option.map_eq_some_iff.mp hDone
  obtain ⟨hCompleted, hReason⟩ := Prod.mk.inj hRow
  obtain ⟨-, -, hTrue⟩ := h (demoWorld_initial fourNotes) quotaStart_eq quotaStart_job rfl rfl rfl
    hRun (fun u hVisit => by rw [World.source_of_visits hVisit (by decide)]) done hJob hCompleted
  obtain ⟨-, n, hListed, hNot⟩ := hTrue.messageLimitReached hReason
  exact hNot (hPersisted n hListed)

theorem completion_truthful_uninterrupted :
    ReasonTruthful (quotaStart.source 200) afterQuota 1 := by
  have hRun : run (World.step demoEnv) quotaStart (.claim 1 :: fullQuota ++ endSlice 0) =
      some afterQuota := run_getD (by decide +kernel)
  refine completion_truthful (demoWorld_initial fourNotes) quotaStart_eq quotaStart_job rfl rfl
    rfl hRun (fun u hVisit => by rw [World.source_of_visits hVisit (by decide)]) ?_
  rintro u a v ⟨front, back, hAs, hFront, -⟩ ⟨owner, own, job, rfl, hOwn, -, -, -, -, hSpent, -⟩
  -- the only slice opens right after the claim
  rcases front with _ | ⟨x, _ | ⟨y, front⟩⟩
  · cases hAs
  · have hClaimed : ((run (World.step demoEnv) quotaStart [.claim 1]).bind (·.workers 0)).map
        (fun own => (own.lease.maxMessages, own.lease.messagesScanned)) = some (4, 0) := by
      decide +kernel
    obtain ⟨rfl, hRest⟩ := List.cons.inj hAs
    cases (List.cons.inj hRest).1
    rw [hFront, Option.bind_some, hOwn, Option.map_some, Option.some.injEq] at hClaimed
    obtain ⟨hMax, hScanned⟩ := Prod.mk.inj hClaimed
    omega
  · obtain ⟨-, hRest⟩ := List.cons.inj hAs
    obtain ⟨-, hRest⟩ := List.cons.inj hRest
    have hMem : WorldAction.worker owner .openConnection ∈ (fullQuota ++ endSlice 0).tail := by
      rw [show (fullQuota ++ endSlice 0).tail = _ from hRest]
      exact List.mem_append_right _ List.mem_cons_self
    simp [fullQuota, beginSlice, readyPage, endSlice] at hMem

end SavedOrganizer
