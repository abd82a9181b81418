import SavedOrganizer.System.Progress

/-!
# A replacement keeps every live message

A replacement job marks the library rows of the messages it persists and prunes the rows
without its mark when its source is exhausted. `Marked` is the invariant between the two:
the rows of a message that the job's cursor has passed carry the mark. A cursor moves only
over a page that holds every message of the source it passes, so a message that stays in
the source is marked when it is passed; a mark goes only when its job is over; and a slice
that reports the source exhausted has passed everything that is left.

`Lists n` restricts the sources to those that still have the message. Nothing else is asked
of Telegram: other messages may come and go at any time.

In this world every transaction is one step. What its statements may do in between is in
`System.StatementReplacement`.
-/

namespace SavedOrganizer

open Transition SavedMessages Pagination

/-- The rows of message `n` of the account carry the mark of job `j` once its cursor has
passed them. -/
def Marked (w : World) (j : JobId) (account : TelegramId) (n : TelegramId) : Prop :=
  ∀ job, w.store.db.jobs.find? j = some job → job.state.active = true →
    ∀ m ∈ w.store.db.messages, m.userId = job.userId → m.telegramUserId = some account →
      m.telegramId = n → Passed job.lastMessageId n → m.lastSeenReplacementJobId = some j

/-- The job `j` replaces the library rows of the account. -/
def Replaces (w : World) (j : JobId) (account : TelegramId) : Prop :=
  ∀ job, w.store.db.jobs.find? j = some job →
    job.replaceExisting = true ∧ job.telegramUserId = some account

/-- The source still has the message. -/
abbrev Lists (n : TelegramId) (src : SavedMessages) : Prop := n ∈ src.ids

section Steps

variable {env : Env} {w w' : World} {a : WorldAction} {j : JobId} {account n : TelegramId}
  {K : Prop}

theorem marked_persist {job : ScanJob} {page : ScanPage} (hInv : WorldInv w)
    (hPage : PersistsPage env (Lists n) w w' j job page) (hMarked : Marked w j account n)
    (hReplace : job.replaceExisting = true) (hAccount : job.telegramUserId = some account) :
    Marked w' j account n := by
  intro job' hJob' _ m' hm' hUser hSource hId hPassed
  obtain ⟨lease, delay, hHolds, hLeaseReplace, hOk⟩ := hPage.transaction
  rw [hPage.found'] at hJob'
  cases hJob'
  obtain ⟨hJobId, hLeaseUser, hLeaseAccount, -, -⟩ :=
    ScanLease.names_iff.mp (ScanLease.names_of_owns (ScanLease.owns_of_holds hHolds))
  have hLeaseJob : lease.jobId = j := by
    rw [← hJobId]
    exact Table.key_of_find? hPage.found
  have hOwns : lease.ownsMessage m' = true := by
    rw [ownsMessage_iff, hSource]
    exact ⟨hUser.trans hLeaseUser, hAccount.symm.trans hLeaseAccount⟩
  have hReplaces : lease.replaceExisting = true := hLeaseReplace.trans hReplace
  by_cases hOld : Passed job.lastMessageId n
  · -- the row was marked before the page, or the page has touched it
    obtain ⟨seen, hFrom⟩ := persistScanPage_stagedFrom hInv.unique hOk
    rcases hFrom.backward m' hm' with ⟨m, hm, hRefreshes⟩ | ⟨-, -, hMarker⟩
    · have hSame := hRefreshes.same
      have hBefore : m.lastSeenReplacementJobId = some j :=
        hMarked job hPage.found hPage.active m hm (hSame.userId.symm.trans hUser)
          (hSame.telegramUserId.symm.trans hSource) (hSame.telegramId.symm.trans hId) hOld
      rcases hRefreshes.marker with hKept | ⟨-, -, hMarker⟩
      · exact hKept.trans hBefore
      · rw [hMarker, hLeaseJob]
    · rw [hMarker hReplaces, hLeaseJob]
  · -- the page holds the message
    obtain ⟨source, hListed, hPageOf⟩ := hPage.pageOf
    have hMem := hPageOf.mem_of_between hListed hOld hPassed
    obtain ⟨scanned, hScanned, hTelegramId⟩ := List.mem_map.mp hMem
    rw [← hLeaseJob]
    exact persistScanPage_marks hInv.unique hReplaces hOk scanned hScanned m' hm' hOwns
      (hId.trans hTelegramId.symm)

/-- One step keeps the marks behind the cursor. -/
theorem marked_step (h : w.step env a = some w') (hInv : WorldInv w)
    (hSync : JobSync (Lists n) K w j) (hReplaces : Replaces w j account)
    (hMarked : Marked w j account n) : Marked w' j account n := by
  rcases world_progress h hSync with ⟨-, hSame | ⟨sa, hStep, hOther⟩⟩ | ⟨job, page, hPage⟩
  · unfold Marked
    rw [hSame]
    exact hMarked
  · intro job' hJob' hActive m' hm' hUser hSource hId hPassed
    rcases row_step hStep hOther hJob' with ⟨job, hJob, hChange, hCounts⟩ | ⟨-, -, -, hNone, -⟩
    · have hSameJob := hChange.sameJob
      obtain ⟨m, hm, hSame, hKeeps⟩ := marker_step hStep hInv.store hInv.unique hJob hJob'
        hActive hOther hm' (hUser.trans hSameJob.userId)
      refine hKeeps (hMarked job hJob (hChange.active_of_active hActive) m hm ?_ ?_ ?_ ?_)
      · rw [← hSame.userId, hUser, hSameJob.userId]
      · rw [← hSame.telegramUserId, hSource]
      · rw [← hSame.telegramId, hId]
      · rw [← hCounts.lastMessageId]
        exact hPassed
    · rw [hNone] at hPassed
      obtain ⟨c, hc, -⟩ := hPassed
      cases hc
  · obtain ⟨hReplace, hAccount⟩ := hReplaces job hPage.found
    exact marked_persist hInv hPage hMarked hReplace hAccount

/-- The worker that prunes has seen its source exhausted, so a message of the source is
marked. -/
theorem seen_of_prune {job : ScanJob} {m : Message} {owner : LeaseOwner} {own : Worker}
    {outcome : SliceOutcome} (hInv : WorldInv w) (hSync : JobSync (Lists n) K w j)
    (hMarked : Marked w j account n) (hJob : w.store.db.jobs.find? j = some job)
    (hActive : job.state.active = true) (hm : m ∈ w.store.db.messages)
    (hUser : m.userId = job.userId) (hSource : m.telegramUserId = some account)
    (hId : m.telegramId = n) (hOwn : w.workers owner = some own)
    (hPhase : own.phase = .ending outcome) (hReason : outcome.reason = .sourceExhausted)
    (hHeld : w.store.db.heldJob own.lease w.store.now ≠ none) : unseen own.lease m = false := by
  by_cases hLeaseUser : m.userId = own.lease.userId
  · -- a user has one active job, so the lease is one of this job
    obtain ⟨held, hHeldRow⟩ := Option.ne_none_iff_exists'.mp hHeld
    obtain ⟨hFind, hHolds⟩ := heldJob_eq_some.mp hHeldRow
    have hOwns := ScanLease.owns_of_holds hHolds
    have hHeldUser := (ScanLease.names_iff.mp (ScanLease.names_of_owns hOwns)).2.1
    have hSame : held = job := hInv.store.oneActive held (Table.mem_of_find? hFind) job
      (Table.mem_of_find? hJob) (by rw [hHeldUser, ← hLeaseUser, hUser])
      (ScanLease.active_of_owns hOwns) hActive
    rw [hSame] at hOwns
    have hLeaseJob : own.lease.jobId = j := by
      rw [← ScanLease.id_of_owns hOwns]
      exact Table.key_of_find? hJob
    have hPhaseSync := (hSync.synced job hJob owner own hOwn hOwns).phase
    rw [hPhase] at hPhaseSync
    have hOutcome : OutcomeTrue (Lists n) K job outcome.reason := hPhaseSync
    rw [hReason] at hOutcome
    obtain ⟨source, hListed, hBelow⟩ := hOutcome
    have hPassed : Passed job.lastMessageId n := by
      by_contra hNot
      have hMem : n ∈ source.below job.lastMessageId := mem_after.mpr ⟨hListed, hNot⟩
      rw [hBelow] at hMem
      cases hMem
    have hMark := hMarked job hJob hActive m hm hUser hSource hId hPassed
    simp only [unseen, hMark, hLeaseJob, bne_self_eq_false, Bool.and_false]
  · simp only [unseen, beq_eq_false_iff_ne.mpr hLeaseUser, Bool.false_and]

/-- While the job is active no step but an edit takes the message out of its place. -/
theorem keeps_step (h : w.step env a = some w') (hInv : WorldInv w)
    (hSync : JobSync (Lists n) K w j) (hMarked : Marked w j account n) {job : ScanJob}
    (hJob : w.store.db.jobs.find? j = some job) (hActive : job.state.active = true) {m : Message}
    (hm : m ∈ w.store.db.messages) (hUser : m.userId = job.userId)
    (hSource : m.telegramUserId = some account) (hId : m.telegramId = n)
    (hEdit : ∀ edit, a = .store (.edit edit) → KeepsOrganization w.store.db w'.store.db m) :
    KeepsOrganization w.store.db w'.store.db m := by
  cases world_change h with
  | unchanged hStore =>
      rw [hStore]
      exact .refl hm
  | outside sa hStep hAction hOutside =>
      refine keepsOrganization_step hStep hInv.store.stopFlag hInv.unique hm ?_ ?_
      · rintro edit rfl
        rcases hAction with rfl | ⟨jobId, -, hClaim⟩
        · exact hEdit edit rfl
        · cases hClaim
      · intro lease state error reason hFinalize
        exact absurd hFinalize (hOutside lease _)
  | page _ own _ _ _ _ _ _ turn _ _ _ hDelivers hWorld =>
      subst hWorld
      refine keepsOrganization_step hDelivers.step hInv.store.stopFlag hInv.unique hm ?_ ?_
      · intro edit hEditAction
        cases hEditAction
      · intro lease state error reason hFinalize
        cases hFinalize
  | quiet owner own act op _ hOwn hStep hPermitted =>
      refine keepsOrganization_step hStep hInv.store.stopFlag hInv.unique hm ?_ ?_
      · intro edit hEditAction
        cases hEditAction
      · intro lease state error reason hFinalize hHeld hPrunes
        cases hFinalize
        obtain ⟨state, hTerminal⟩ := state
        simp only [prunes, Bool.and_eq_true, beq_iff_eq] at hPrunes
        obtain ⟨⟨-, rfl⟩, rfl⟩ := hPrunes
        obtain ⟨outcome, hPhase, -, hDisposition⟩ := hPermitted.settled error _ rfl
        have hReason : outcome.reason = .sourceExhausted := by
          rcases disposition_cases hDisposition with hOp | hOp | ⟨-, reason, hOp, hReported⟩
          · cases hOp
          · cases hOp
          · cases hOp
            rcases hReported with hReported | ⟨hReported, -⟩
            · exact ScanReason.eq_of_completion .sourceExhausted hReported rfl
            · cases hReported
        exact seen_of_prune hInv hSync hMarked hJob hActive hm hUser hSource hId hOwn hPhase
          hReason hHeld

end Steps

/-! ## A whole run -/

section Runs

variable {env : Env} {w₀ w₁ w₂ w₃ w₄ : World} {j : JobId} {job : ScanJob}
  {account : TelegramId} {row : Message}

/-- The user does not delete, move or retag the row during the run. -/
def Untouched (env : Env) (w : World) (as : List WorldAction) (row : Message) : Prop :=
  ∀ u edit v, StepOf (World.step env) w as u (.store (.edit edit)) v →
    ∀ m ∈ u.store.db.messages, m.id = row.id → KeepsOrganization u.store.db v.store.db m

/-- What holds from the start of the job on. -/
structure Replacing (j : JobId) (job : ScanJob) (account n : TelegramId) (w : World) : Prop where
  inv : WorldInv w
  sync : JobSync (Lists n) False w j
  marked : Marked w j account n
  row : ∃ job', w.store.db.jobs.find? j = some job' ∧ SameJob job job'

theorem replacing_start {front : List WorldAction} {n : TelegramId} (hStart : w₀.Initial)
    (hRun : run (World.step env) w₀ front = some w₁)
    (hJob : w₁.store.db.jobs.find? j = some job) (hPending : job.state = .pending)
    (hNew : job.lastMessageId = none) : Replacing j job account n w₁ := by
  obtain ⟨hInv, hSync⟩ := jobSync_of_run hStart hRun j
  have hRow {job' : ScanJob} (hJob' : w₁.store.db.jobs.find? j = some job') : job' = job := by
    rw [hJob] at hJob'
    exact (Option.some.inj hJob').symm
  refine ⟨hInv, hSync.of_pending fun job' hJob' => hRow hJob' ▸ hPending, ?_, job, hJob, .refl⟩
  intro job' hJob' _ m _ _ _ _ hPassed
  rw [hRow hJob', hNew] at hPassed
  obtain ⟨c, hc, -⟩ := hPassed
  cases hc

theorem replacing_step {w w' : World} {a : WorldAction} {n : TelegramId}
    (hReplace : job.replaceExisting = true) (hAccount : job.telegramUserId = some account)
    (hLive : n ∈ (w.source account).ids) (h : w.step env a = some w')
    (hInv : Replacing j job account n w) : Replacing j job account n w' := by
  obtain ⟨job', hJob', hSame⟩ := hInv.row
  have hRow {row : ScanJob} (hRow : w.store.db.jobs.find? j = some row) :
      row.replaceExisting = true ∧ row.telegramUserId = some account := by
    rw [hJob'] at hRow
    obtain rfl := Option.some.inj hRow
    exact ⟨hSame.replaceExisting.trans hReplace, hSame.telegramUserId.trans hAccount⟩
  refine ⟨worldInv_step h hInv.inv, ?_, ?_, ?_⟩
  · refine jobSync_step h hInv.inv hInv.sync ?_ (fun hFalse => hFalse.elim)
    intro found account' hFound hAccount'
    rw [(hRow hFound).2, Option.some.injEq] at hAccount'
    exact hAccount' ▸ hLive
  · exact marked_step h hInv.inv hInv.sync (fun found hFound => hRow hFound) hInv.marked
  · obtain ⟨job'', hJob'', hSame', -⟩ := world_job h hJob'
    exact ⟨job'', hJob'', hSame.trans hSame'⟩

/-- A replacement never loses a live message, as long as nothing happens between the statements
of a transaction. From its start (`w₁`) up to and including the step
that ends it, by a prune or otherwise, a library row of its account keeps its id, its category
and its tags, from any moment on (`w₂`), while its message stays in the source and the user does
not touch it. -/
theorem replacement_keeps_live_messages {front mid back : List WorldAction} {a : WorldAction}
    (hStart : w₀.Initial) (hFront : run (World.step env) w₀ front = some w₁)
    (hJob : w₁.store.db.jobs.find? j = some job) (hPending : job.state = .pending)
    (hNew : job.lastMessageId = none) (hReplace : job.replaceExisting = true)
    (hAccount : job.telegramUserId = some account)
    (hMid : run (World.step env) w₁ mid = some w₂)
    (hRow : row ∈ w₂.store.db.messages) (hUser : row.userId = job.userId)
    (hSource : row.telegramUserId = some account)
    (hBack : run (World.step env) w₂ back = some w₃) (hLast : w₃.step env a = some w₄)
    (hActive : ∀ job', w₃.store.db.jobs.find? j = some job' → job'.state.active = true)
    (hLive : ∀ u, Visits (World.step env) w₁ (mid ++ back) u →
      row.telegramId ∈ (u.source account).ids)
    (hUntouched : Untouched env w₂ (back ++ [a]) row) :
    KeepsOrganization w₂.store.db w₄.store.db row := by
  have hMiddle : Replacing j job account row.telegramId w₂ := by
    refine run_induct (replacing_start hStart hFront hJob hPending hNew) hMid ?_
    intro u b v hStep hInv
    exact replacing_step hReplace hAccount (hLive u (hStep.before.append_right back)) hStep.step hInv
  -- one step of the second half, from a world where the job is active
  have hKeep (u : World) (b : WorldAction) (v : World) (h : u.step env b = some v)
      (hEdit : ∀ edit, b = .store (.edit edit) → ∀ m ∈ u.store.db.messages, m.id = row.id →
        KeepsOrganization u.store.db v.store.db m)
      (hInv : Replacing j job account row.telegramId u) {job' : ScanJob}
      (hJob' : u.store.db.jobs.find? j = some job') (hActive' : job'.state.active = true)
      (hKept : KeepsOrganization w₂.store.db u.store.db row) :
      KeepsOrganization w₂.store.db v.store.db row := by
    have ⟨m, hm, hSame, _⟩ := hKept
    refine hKept.trans fun m' hm' hId => ?_
    obtain rfl : m' = m := Table.eq_of_key hm' hm (hId.trans hSame.id.symm)
    obtain ⟨found, hFound, hSameJob⟩ := hInv.row
    rw [hJob'] at hFound
    obtain rfl := Option.some.inj hFound
    exact keeps_step h hInv.inv hInv.sync hInv.marked hJob' hActive' hm
      (hSame.userId.trans (hUser.trans hSameJob.userId.symm))
      (hSame.telegramUserId.trans hSource) hSame.telegramId
      fun edit hAction => hEdit edit hAction m' hm' hId
  have hBefore : Replacing j job account row.telegramId w₃ ∧
      ((∀ job', w₃.store.db.jobs.find? j = some job' → job'.state.active = true) →
        KeepsOrganization w₂.store.db w₃.store.db row) := by
    refine run_induct (I := fun u => Replacing j job account row.telegramId u ∧
      ((∀ job', u.store.db.jobs.find? j = some job' → job'.state.active = true) →
        KeepsOrganization w₂.store.db u.store.db row)) ⟨hMiddle, fun _ => .refl hRow⟩ hBack ?_
    rintro u b v hStep ⟨hInv, hKept⟩
    refine ⟨replacing_step hReplace hAccount (hLive u (hStep.before.append_left hMid)) hStep.step
      hInv, fun hStillActive => ?_⟩
    obtain ⟨job', hJob', -⟩ := hInv.row
    obtain ⟨job'', hJob'', -, hWasActive⟩ := world_job hStep.step hJob'
    have hActive' := hWasActive (hStillActive job'' hJob'')
    refine hKeep u b v hStep.step ?_ hInv hJob' hActive' (hKept ?_)
    · rintro edit rfl
      exact hUntouched u edit v (hStep.append_right [a])
    · intro found hFound
      rw [hJob'] at hFound
      exact Option.some.inj hFound ▸ hActive'
  obtain ⟨hInv, hKept⟩ := hBefore
  obtain ⟨job', hJob', -⟩ := hInv.row
  refine hKeep w₃ a w₄ hLast ?_ hInv hJob' (hActive job' hJob') (hKept hActive)
  rintro edit rfl
  exact hUntouched w₃ edit w₄ ⟨back, [], rfl, hBack, hLast⟩

end Runs

/-! ### A message that is gone and one that is not

Message 7 is gone from Telegram. The replacement prunes its row and keeps the one of
message 5. -/

def keptNotes : SavedMessages := .ofIds (textMessage "note") [9, 5] (by decide) (by decide)

def replacement : List WorldAction :=
  .claim 1 :: beginSlice 0 ++ readyPage 0 keptNotes 0 3 ++
    [.worker 0 (.deliver 0 0), .worker 0 .finishScan, .worker 0 (.refresh ⟨0, "session"⟩ 0)]

def beforeReplacement : World :=
  (run (World.step demoEnv) (demoWorld keptNotes) [startReplacement]).getD (demoWorld keptNotes)

def beforePrune : World :=
  (run (World.step demoEnv) beforeReplacement replacement).getD beforeReplacement

def afterPrune : World := (beforePrune.step demoEnv (.worker 0 .settle)).getD beforePrune

example : afterPrune.store.db.jobs.rows.map ScanJob.completionReason =
      [some CompletionReason.sourceExhausted] ∧
    afterPrune.store.db.messages.rows.map Message.telegramId = [5, 9] := by decide +kernel

end SavedOrganizer
