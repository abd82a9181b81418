import SavedOrganizer.Service.Staging
import SavedOrganizer.System.Tokens

/-!
# What a transaction does to the library

`step_messages` sorts the steps by what they do to messages: most of them at most clear
replacement markers (`Relabels`), a page is persisted, a job is finalized, or a user edits
the library. A marker is cleared only when its job is over (`Unmarks`); this is where the
order of the two statements of each transaction that ends a job matters.
-/

namespace SavedOrganizer

open Transition

/-- The marker of the message may go: its job is not active any more, or is another user's. -/
def Unmarks (db db' : Database) (m : Message) : Prop :=
  ∀ jobId job job', m.lastSeenReplacementJobId = some jobId →
    db.jobs.find? jobId = some job → job.userId = m.userId →
    db'.jobs.find? jobId = some job' → job'.state.active = false

/-- From `m` to `m'` at most the marker is cleared. -/
def MarkerChange (db db' : Database) (m m' : Message) : Prop :=
  m' = m ∨ m' = m.unmark ∧ Unmarks db db' m

/-- Nothing but markers changes, and only markers of jobs that are over. -/
structure Relabels (db db' : Database) : Prop where
  forward : ∀ m ∈ db.messages, ∃ m' ∈ db'.messages, MarkerChange db db' m m'
  backward : ∀ m' ∈ db'.messages, ∃ m ∈ db.messages, MarkerChange db db' m m'
  tags : db'.messageTags = db.messageTags

section Relabels

variable {db db' : Database}

theorem relabels_of_same (hMessages : db'.messages = db.messages)
    (hTags : db'.messageTags = db.messageTags) : Relabels db db' := by
  refine ⟨?_, ?_, hTags⟩
  · intro m hm
    exact ⟨m, hMessages ▸ hm, Or.inl rfl⟩
  · intro m hm
    exact ⟨m, hMessages ▸ hm, Or.inl rfl⟩

/-- A statement that clears the markers `q` selects. -/
theorem relabels_of_clear {q : Message → Bool}
    (hMessages : db'.messages = (db.clearMarkers q).messages)
    (hTags : db'.messageTags = db.messageTags)
    (hCleared : ∀ m ∈ db.messages, q m = true → Unmarks db db' m) : Relabels db db' := by
  have hChange (m : Message) (hm : m ∈ db.messages) :
      MarkerChange db db' m (if q m then m.unmark else m) := by
    split
    · rename_i hq
      exact Or.inr ⟨rfl, hCleared m hm hq⟩
    · exact Or.inl rfl
  have hMem {m' : Message} : m' ∈ db'.messages ↔
      ∃ m ∈ db.messages, (if q m then m.unmark else m) = m' := by
    rw [hMessages]
    exact @Table.mem_update Message MessageId _ db.messages q Message.unmark (fun _ => rfl) m'
  refine ⟨?_, ?_, hTags⟩
  · intro m hm
    exact ⟨_, hMem.mpr ⟨m, hm, rfl⟩, hChange m hm⟩
  · intro m' hm'
    obtain ⟨m, hm, rfl⟩ := hMem.mp hm'
    exact ⟨m, hm, hChange m hm⟩

/-- A marker of a job that the transaction ends. -/
theorem unmarks_of_markedBy {p : ScanJob → Bool} {m : Message} (hMarked : db.markedBy p m = true)
    (hEnds : ∀ jobId job job', db.jobs.find? jobId = some job → p job = true →
      db'.jobs.find? jobId = some job' → job'.state.active = false) : Unmarks db db' m := by
  intro jobId job job' hMarker hJob _ hJob'
  rw [Database.markedBy, hMarker, Option.any_some, hJob, Option.any_some] at hMarked
  exact hEnds jobId job job' hJob hMarked hJob'

/-- The jobs an update ends are not active after it. -/
theorem ended_of_update {p q : ScanJob → Bool} (f : ScanJob → ScanJob)
    (hKey : ∀ job, (Keyed.key (f job) : JobId) = Keyed.key job)
    (hJobs : db'.jobs = db.jobs.update q f hKey)
    (hEnds : ∀ job ∈ db.jobs, p job = true → q job = true ∧ (f job).state.active = false) :
    ∀ jobId job job', db.jobs.find? jobId = some job → p job = true →
      db'.jobs.find? jobId = some job' → job'.state.active = false := by
  intro jobId job job' hJob hp hJob'
  obtain ⟨hq, hInactive⟩ := hEnds job (Table.mem_of_find? hJob) hp
  rw [hJobs, Table.find?_update, hJob, Option.map_some, if_pos hq] at hJob'
  rw [← Option.some.inj hJob']
  exact hInactive

end Relabels

/-! ## Transactions that only relabel -/

section Statements

variable {db : Database} {now : Instant} {lease : ScanLease} {userId : UserId}

theorem relabels_requeue : Relabels db (requeueScanJob now lease db).1 := by
  unfold requeueScanJob
  cases lease.replaceExisting with
  | false => exact relabels_of_same rfl rfl
  | true =>
      refine relabels_of_clear rfl rfl ?_
      intro m _ hSelected
      apply unmarks_of_markedBy (Bool.and_eq_true_iff.mp hSelected).2
      refine ended_of_update (ScanJob.requeue now) (fun _ => rfl) rfl ?_
      intro job _ hStopping
      rw [Bool.and_eq_true] at hStopping
      refine ⟨hStopping.1, ?_⟩
      unfold ScanJob.requeue
      rw [if_pos hStopping.2]
      rfl

/-- Releasing looks at the stop flag where it clears markers by flag or state; the two go
together. -/
theorem relabels_release (hFlag : ∀ job ∈ db.jobs, StopFlag job) :
    Relabels db (releaseInterruptedScan now lease db).1 := by
  unfold releaseInterruptedScan
  cases lease.replaceExisting with
  | false => exact relabels_of_same rfl rfl
  | true =>
      refine relabels_of_clear rfl rfl ?_
      intro m _ hSelected
      apply unmarks_of_markedBy (Bool.and_eq_true_iff.mp hSelected).2
      refine ended_of_update (ScanJob.release now) (fun _ => rfl) rfl ?_
      intro job hJob hStopping
      rw [Bool.and_eq_true] at hStopping
      refine ⟨hStopping.1, ?_⟩
      have hRequested : job.stopRequested = true := by
        have hState := hFlag job hJob (ScanLease.active_of_owns hStopping.1)
        have hOr := hStopping.2
        rw [ScanJob.stopping, Bool.or_eq_true, beq_iff_eq] at hOr
        exact hOr.elim id hState.mpr
      unfold ScanJob.release
      rw [if_pos hRequested]
      rfl

theorem relabels_terminalize : Relabels db (terminalizeExpiredStoppingJobs now db).1 := by
  refine relabels_of_clear rfl rfl ?_
  intro m _ hSelected
  apply unmarks_of_markedBy hSelected
  refine ended_of_update (ScanJob.terminalize now) (fun _ => rfl) rfl ?_
  intro job _ hAbandoned
  exact ⟨hAbandoned, rfl⟩

theorem relabels_stopScan : Relabels db (stopScan now userId db) := by
  refine relabels_of_clear rfl rfl ?_
  intro m _ hSelected
  apply unmarks_of_markedBy (Bool.and_eq_true_iff.mp hSelected).2
  refine ended_of_update (ScanJob.stop now) (fun _ => rfl) rfl ?_
  intro job _ hStops
  rw [Bool.and_eq_true, Bool.and_eq_true] at hStops
  refine ⟨hStops.1.1, ?_⟩
  unfold ScanJob.stop
  rw [if_pos hStops.1.2]
  rfl

theorem relabels_cancel : Relabels db (db.cancelActiveScans now userId) := by
  refine relabels_of_clear rfl rfl ?_
  intro m _ hSelected
  apply unmarks_of_markedBy (Bool.and_eq_true_iff.mp hSelected).2
  refine ended_of_update (ScanJob.cancelDisconnected now) (fun _ => rfl) rfl ?_
  intro job _ hActive
  exact ⟨hActive, rfl⟩

theorem relabels_of_cancelsAtMost {db' : Database} (h : CancelsAtMost now userId db db') :
    Relabels db db' := by
  cases h with
  | kept connections => exact relabels_of_same rfl rfl
  | cancelled connections =>
      obtain ⟨hForward, hBackward, hTags⟩ := @relabels_cancel db now userId
      exact ⟨hForward, hBackward, hTags⟩

theorem relabels_downgrade : Relabels db (downgradeConnection now lease db) := by
  unfold downgradeConnection
  split
  · exact relabels_of_same rfl rfl
  · refine relabels_of_clear rfl rfl ?_
    intro m _ hSelected
    apply unmarks_of_markedBy (Bool.and_eq_true_iff.mp hSelected).2
    refine ended_of_update (ScanJob.cancelDisconnected now) (fun _ => rfl) rfl ?_
    intro job _ hDowngrades
    exact ⟨hDowngrades, rfl⟩

/-- A claim clears the markers of a job it ends, and of one that had ended without. -/
theorem relabels_claim {owner : LeaseOwner} {jobId : JobId} :
    Relabels db (claimScanJob now owner jobId db).1 := by
  refine relabels_of_clear rfl rfl ?_
  intro m _ hSelected
  rw [Bool.and_eq_true, beq_iff_eq] at hSelected
  obtain ⟨hMarker, hEnded⟩ := hSelected
  intro j job job' hMarker' _ _ hJob'
  obtain rfl : jobId = j := Option.some.inj (hMarker.symm.trans hMarker')
  rw [claimScanJob_jobs, Table.find?_update] at hJob'
  obtain ⟨ended, hFind, hClaim⟩ := Option.map_eq_some_iff.mp hJob'
  have hState : (ended.state == .failed || ended.state == .cancelled) = true := by
    have hFind : (endUnclaimable now jobId db).jobs.find? jobId = some ended := hFind
    rw [Database.markedBy, hMarker, Option.any_some] at hEnded
    rw [endUnclaimable_jobs] at hFind
    rw [Database.updateJobs_jobs, Database.updateJobs_jobs] at hEnded
    rw [show ((db.jobs.update _ _ _).update _ _ _).find? jobId = some ended from hFind,
      Option.any_some] at hEnded
    exact hEnded
  rw [Bool.or_eq_true, beq_iff_eq, beq_iff_eq] at hState
  have hNotClaimed : ¬ claimedBy now jobId ended = true := by
    intro hClaimed
    rw [claimedBy, Bool.and_eq_true] at hClaimed
    have hActive := active_of_claimable hClaimed.2
    rcases hState with hState | hState <;> rw [hState] at hActive <;> cases hActive
  rw [if_neg hNotClaimed] at hClaim
  rw [← hClaim]
  rcases hState with hState | hState <;> rw [hState] <;> rfl

/-- The job an abandoned stop leaves behind is cancelled with its markers. -/
theorem relabels_cancelAbandonedStop {clearExisting : Bool} {jobId : JobId}
    (hDecision : startDecision now userId clearExisting db = .cancelStopped jobId) :
    Relabels db (cancelAbandonedStop now userId jobId db) := by
  have hActive : ∃ job ∈ db.jobs, job.id = jobId ∧ job.activeOf userId = true := by
    unfold startDecision at hDecision
    split at hDecision
    · cases hDecision
    · rename_i job hJob
      split at hDecision
      · split at hDecision <;> cases hDecision
      · split at hDecision
        · cases hDecision
          exact ⟨job, List.mem_of_find?_eq_some hJob, rfl, by simpa using List.find?_some hJob⟩
        · cases hDecision
  obtain ⟨stopped, hStopped, hId, hStoppedActive⟩ := hActive
  refine relabels_of_clear rfl rfl ?_
  intro m _ hSelected
  rw [Bool.and_eq_true, Bool.and_eq_true, beq_iff_eq, beq_iff_eq] at hSelected
  intro j job job' hMarker hJob _ hJob'
  obtain rfl : jobId = j := Option.some.inj (hSelected.1.2.symm.trans hMarker)
  have hSame : db.jobs.find? jobId = some stopped :=
    Table.find?_eq_some.mpr ⟨hStopped, hId⟩
  have hSelected : (stopped.id == jobId && stopped.activeOf userId) = true := by
    rw [hId, beq_self_eq_true, hStoppedActive]
    rfl
  exact ended_of_update (p := fun job => job.id == jobId && job.activeOf userId)
    (ScanJob.cancelStopped now) (fun _ => rfl) (@cancelAbandonedStop_jobs db now userId jobId)
    (fun job _ h => ⟨h, rfl⟩) jobId stopped job' hSame hSelected hJob'

/-- A replacement starts over: it clears markers when no job of the user is active. -/
theorem relabels_createScan {env : Env} {s : Store} {start : ScanStart} {jobId : JobId}
    {client : ClientIdentity} {session : ClientSession} :
    Relabels s.db (s.createScan env start jobId client session) := by
  unfold Store.createScan
  rcases createScan_cases env.vault env.settings start.userId start.pageSize start.clearExisting
    jobId client session with
    ⟨connections, h⟩ | ⟨connections, new, jobs, hFree, -, hInsert, h⟩
  · rw [h]
    exact relabels_of_same rfl rfl
  · rw [h]
    cases start.clearExisting with
    | false => exact relabels_of_same rfl rfl
    | true =>
        refine relabels_of_clear rfl rfl ?_
        intro m _ hUser j job job' _ hJob hOwner hJob'
        rw [beq_iff_eq] at hUser
        obtain ⟨hAbsent, rfl⟩ := Table.insert?_eq_some.mp hInsert
        have hNe : ¬ (Keyed.key new : JobId) = j := by
          rintro rfl
          rw [hAbsent] at hJob
          cases hJob
        have hSame : s.db.jobs.find? j = some job' := by
          rw [← hJob']
          have hInserted := Table.find?_insert s.db.jobs new (Table.find?_eq_none.mp hAbsent) j
          exact (hInserted.trans (if_neg hNe)).symm
        rw [hJob] at hSame
        obtain rfl : job = job' := Option.some.inj hSame
        have hNotActive := hFree job (Table.mem_of_find? hJob)
        by_contra hActive
        rw [Bool.not_eq_false] at hActive
        rw [activeOf_iff.mpr ⟨hOwner.trans hUser, hActive⟩] at hNotActive
        cases hNotActive

end Statements

/-! ## Sorting the steps -/

/-- What a step does to the messages. -/
inductive MessagesChange (env : Env) (s : Store) (a : StoreAction) : Database → Prop
  | relabeled {db' : Database} (h : Relabels s.db db') : MessagesChange env s a db'
  | persisted (lease : ScanLease) (page : ScanPage) (delay : Nat) {db' : Database}
      (h : a = .worker lease (.persist page delay))
      (hOk : persistScanPage env.py s.now (s.now + delay) lease page s.db = .ok db') :
      MessagesChange env s a db'
  | finalized (lease : ScanLease) (state : TerminalState) (error : Option String)
      (reason : Option CompletionReason) (h : a = .worker lease (.finalize state error reason))
      (hHeld : s.db.heldJob lease s.now ≠ none) :
      MessagesChange env s a (finalizeScanJob s.now lease state error reason s.db).1
  | edited (edit : LibraryEdit) (h : a = .edit edit) : MessagesChange env s a (edit.apply s.db)

section Steps

variable {env : Env} {s s' : Store} {a : StoreAction}

theorem messages_of_worker {lease : ScanLease} {op : WorkerOp}
    (hFlag : ∀ job ∈ s.db.jobs, StopFlag job) :
    MessagesChange env s (.worker lease op) (op.apply env s.now lease s.db) := by
  cases op with
  | renew => exact .relabeled (relabels_of_same rfl rfl)
  | persist page delay =>
      simp only [WorkerOp.apply]
      cases hPersist : persistScanPage env.py s.now (s.now + delay) lease page s.db with
      | error e => exact .relabeled (relabels_of_same rfl rfl)
      | ok db' => exact .persisted lease page delay rfl hPersist
  | refreshSession session delay =>
      simp only [WorkerOp.apply, persistRefreshedSession]
      split
      · exact .relabeled (relabels_of_same rfl rfl)
      split
      · exact .relabeled (relabels_of_same rfl rfl)
      split
      · exact .relabeled (relabels_of_same rfl rfl)
      · exact .relabeled (relabels_of_same rfl rfl)
  | requeue => exact .relabeled relabels_requeue
  | release => exact .relabeled (relabels_release hFlag)
  | finalize state error reason =>
      simp only [WorkerOp.apply]
      by_cases hHeld : s.db.heldJob lease s.now = none
      · rw [finalizeScanJob_lost hHeld]
        exact .relabeled (relabels_of_same rfl rfl)
      · exact .finalized lease state error reason rfl hHeld
  | downgrade => exact .relabeled relabels_downgrade
  | openConnection =>
      simp only [WorkerOp.apply, openConnection]
      split
      · exact .relabeled (relabels_of_same rfl rfl)
      split
      · exact .relabeled (relabels_of_same rfl rfl)
      split
      · exact .relabeled (relabels_of_same rfl rfl)
      · exact .relabeled (relabels_of_same rfl rfl)

theorem step_messages (h : s.step env a = some s') (hFlag : ∀ job ∈ s.db.jobs, StopFlag job) :
    MessagesChange env s a s'.db := by
  cases a with
  | tick elapsed =>
      cases h
      exact .relabeled (relabels_of_same rfl rfl)
  | claim jobId =>
      cases h
      exact .relabeled relabels_claim
  | worker lease op =>
      simp only [Store.step] at h
      split at h
      · cases h
        exact messages_of_worker hFlag
      · cases h
  | terminalizeExpired =>
      cases h
      exact .relabeled relabels_terminalize
  | startScan start jobId client session =>
      simp only [Store.step] at h
      split at h
      · cases h
      split at h
      · cases h
        exact .relabeled (relabels_of_same rfl rfl)
      · cases h
        exact .relabeled (relabels_of_same rfl rfl)
      · rename_i hDecision
        cases h
        exact .relabeled (relabels_cancelAbandonedStop hDecision)
      · cases h
        exact .relabeled relabels_createScan
  | finishScanStart start jobId client session =>
      simp only [Store.step] at h
      split at h
      · cases h
        exact .relabeled relabels_createScan
      · cases h
  | stopScan userId =>
      cases h
      exact .relabeled relabels_stopScan
  | authStatus userId =>
      cases h
      exact .relabeled (relabels_of_cancelsAtMost authStatus_cancels)
  | authStart request client =>
      cases h
      exact .relabeled (relabels_of_cancelsAtMost startTelegram_cancels)
  | finishAuthStart i client =>
      obtain ⟨start, -, rfl⟩ := Option.map_eq_some_iff.mp h
      exact .relabeled (relabels_of_cancelsAtMost finishStart_cancels)
  | verify userId nonce client =>
      cases h
      exact .relabeled (relabels_of_cancelsAtMost verifyTelegram_cancels)
  | disconnect userId =>
      cases h
      exact .relabeled (relabels_of_cancelsAtMost disconnectTelegram_cancels)
  | deleteRemote userId telegramUserId generation client session =>
      cases h
      exact .relabeled (relabels_of_cancelsAtMost deleteSavedMessages_cancels)
  | edit edit =>
      cases h
      exact .edited edit rfl

end Steps

/-! ## Rows keep their source -/

section Sources

variable {env : Env} {s s' : Store} {a : StoreAction}

theorem MarkerChange.same {db db' : Database} {m m' : Message} (h : MarkerChange db db' m m') :
    SameMessage m m' ∧ m'.categoryId = m.categoryId := by
  rcases h with rfl | ⟨rfl, -⟩
  · exact ⟨.refl _, rfl⟩
  · exact ⟨⟨rfl, rfl, rfl, rfl⟩, rfl⟩

theorem sourcesUnique_of_backward {db db' : Database} (hUnique : db.SourcesUnique)
    (h : ∀ m' ∈ db'.messages, ∃ m ∈ db.messages, SameMessage m m') : db'.SourcesUnique := by
  intro a' ha' b' hb' hUser hAccount hNe hId
  obtain ⟨a, ha, hA⟩ := h a' ha'
  obtain ⟨b, hb, hB⟩ := h b' hb'
  have hSame : a = b := hUnique a ha b hb (by rw [← hA.userId, hUser, hB.userId])
    (by rw [← hA.telegramUserId, hAccount, hB.telegramUserId])
    (by rw [← hA.telegramUserId]; exact hNe) (by rw [← hA.telegramId, hId, hB.telegramId])
  apply Table.eq_of_key ha' hb'
  rw [key_message, key_message, hA.id, hB.id, hSame]

theorem sourcesUnique_step (h : s.step env a = some s')
    (hFlag : ∀ job ∈ s.db.jobs, StopFlag job) (hUnique : s.db.SourcesUnique) :
    s'.db.SourcesUnique := by
  have hChange := step_messages h hFlag
  generalize s'.db = db' at hChange ⊢
  cases hChange with
  | relabeled hRelabels =>
      refine sourcesUnique_of_backward hUnique fun m' hm' => ?_
      obtain ⟨m, hm, hMarker⟩ := hRelabels.backward m' hm'
      exact ⟨m, hm, hMarker.same.1⟩
  | persisted lease page delay _ hOk =>
      obtain ⟨seen, hFrom⟩ := persistScanPage_stagedFrom hUnique hOk
      exact hFrom.unique
  | finalized lease state error reason _ hHeld =>
      refine sourcesUnique_of_backward hUnique fun m' hm' => ?_
      obtain ⟨m, hm, -, rfl⟩ := (mem_finalizeScanJob hHeld).mp hm'
      refine ⟨m, hm, ?_⟩
      split
      · exact ⟨rfl, rfl, rfl, rfl⟩
      · exact .refl m
  | edited edit _ =>
      refine sourcesUnique_of_backward hUnique fun m' hm' => ?_
      obtain ⟨m, hm, hSame, -⟩ := LibraryEdit.mem_apply hm'
      exact ⟨m, hm, hSame⟩

end Sources

/-! ## What a message keeps -/

section Keeping

variable {env : Env} {s s' : Store} {a : StoreAction} {m : Message}

theorem KeepsOrganization.of_tags {db db' : Database} {m' : Message} (hm' : m' ∈ db'.messages)
    (hSame : SameMessage m m') (hCategory : m'.categoryId = m.categoryId)
    (hTags : db'.messageTags = db.messageTags) : KeepsOrganization db db' m := by
  refine ⟨m', hm', hSame, hCategory, fun tagId => ?_⟩
  rw [Database.hasTag, Database.hasTag, hTags, hSame.userId, hSame.id]

theorem KeepsOrganization.trans {db db' db'' : Database} (h : KeepsOrganization db db' m)
    (h' : ∀ m' ∈ db'.messages, m'.id = m.id → KeepsOrganization db' db'' m') :
    KeepsOrganization db db'' m := by
  obtain ⟨m', hm', hSame, hCategory, hTags⟩ := h
  obtain ⟨m'', hm'', hSame', hCategory', hTags'⟩ := h' m' hm' hSame.id
  exact ⟨m'', hm'', hSame.trans hSame', hCategory'.trans hCategory,
    fun tagId => (hTags' tagId).trans (hTags tagId)⟩

/-- A finalization leaves a message as it is unless it prunes it. -/
theorem keepsOrganization_finalize {now : Instant} {lease : ScanLease} {state : TerminalState}
    {error : Option String} {reason : Option CompletionReason} {db : Database}
    (hHeld : db.heldJob lease now ≠ none) (hm : m ∈ db.messages)
    (hSeen : prunes lease state reason = true → unseen lease m = false) :
    KeepsOrganization db (finalizeScanJob now lease state error reason db).1 m := by
  refine ⟨_, (mem_finalizeScanJob hHeld).mpr ⟨m, hm, hSeen, rfl⟩, ?_, ?_, ?_⟩
  · split
    · exact ⟨rfl, rfl, rfl, rfl⟩
    · exact .refl m
  · split <;> rfl
  · intro tagId
    have hSource : (⟨(if lease.replaceExisting && (m.userId == lease.userId &&
        m.lastSeenReplacementJobId == some lease.jobId) then m.unmark else m).userId,
        (if lease.replaceExisting && (m.userId == lease.userId &&
        m.lastSeenReplacementJobId == some lease.jobId) then m.unmark else m).id, tagId⟩ :
          MessageTag) = ⟨m.userId, m.id, tagId⟩ := by
      split <;> rfl
    unfold Database.hasTag
    rw [hSource, mem_finalizeScanJob_tags hHeld]
    refine ⟨fun h => h.1, fun h => ⟨h, fun hPrunes _ => ?_⟩⟩
    rw [show db.messages.find? m.id = some m from Table.find?_key hm, Option.any_some]
    exact hSeen hPrunes

/-- Only an edit or a prune of the message takes it out of its place. -/
theorem keepsOrganization_step (h : s.step env a = some s')
    (hFlag : ∀ job ∈ s.db.jobs, StopFlag job) (hUnique : s.db.SourcesUnique)
    (hm : m ∈ s.db.messages) (hEdit : ∀ edit, a = .edit edit → KeepsOrganization s.db s'.db m)
    (hPrune : ∀ lease state error reason, a = .worker lease (.finalize state error reason) →
      s.db.heldJob lease s.now ≠ none → prunes lease state reason = true →
      unseen lease m = false) : KeepsOrganization s.db s'.db m := by
  have hChange := step_messages h hFlag
  generalize s'.db = db' at hChange hEdit ⊢
  cases hChange with
  | relabeled hRelabels =>
      obtain ⟨m', hm', hMarker⟩ := hRelabels.forward m hm
      exact .of_tags hm' hMarker.same.1 hMarker.same.2 hRelabels.tags
  | persisted lease page delay _ hOk =>
      obtain ⟨seen, hFrom⟩ := persistScanPage_stagedFrom hUnique hOk
      obtain ⟨m', hm', hRefreshes⟩ := hFrom.forward m hm
      exact .of_tags hm' hRefreshes.same hRefreshes.categoryId (persistScanPage_tags hOk)
  | finalized lease state error reason hAction hHeld =>
      exact keepsOrganization_finalize hHeld hm (hPrune lease state error reason hAction hHeld)
  | edited edit hAction => exact hEdit edit hAction

/-- While its job is active a marker stays, and only the job's own pages add rows. -/
theorem marker_step (h : s.step env a = some s') (hInv : StoreInv s)
    (hUnique : s.db.SourcesUnique) {jobId : JobId} {job job' : ScanJob}
    (hJob : s.db.jobs.find? jobId = some job) (hJob' : s'.db.jobs.find? jobId = some job')
    (hActive : job'.state.active = true)
    (hOther : ∀ lease page delay, a = .worker lease (.persist page delay) → lease.jobId ≠ jobId)
    {m' : Message} (hm' : m' ∈ s'.db.messages) (hUser : m'.userId = job.userId) :
    ∃ m ∈ s.db.messages, SameMessage m m' ∧
      (m.lastSeenReplacementJobId = some jobId → m'.lastSeenReplacementJobId = some jobId) := by
  have hActiveOld : job.state.active = true := by
    obtain ⟨row, hRow, hChange⟩ := step_job h hJob
    rw [hJob'] at hRow
    cases hRow
    exact hChange.active_of_active hActive
  have hChange := step_messages h hInv.stopFlag
  generalize hDb : s'.db = db' at hChange hm' hJob'
  cases hChange with
  | relabeled hRelabels =>
      obtain ⟨m, hm, hMarker⟩ := hRelabels.backward m' hm'
      refine ⟨m, hm, hMarker.same.1, fun hMarked => ?_⟩
      rcases hMarker with rfl | ⟨rfl, hUnmarks⟩
      · exact hMarked
      · have hEnded := hUnmarks jobId job job' hMarked hJob hUser.symm hJob'
        rw [hActive] at hEnded
        cases hEnded
  | persisted lease page delay hAction hOk =>
      -- the other lease holds an active job, which is not one of this user
      have hNotOwned : lease.ownsMessage m' ≠ true := by
        intro hOwns
        obtain ⟨-, ⟨held, hHeld⟩, -⟩ := persistScanPage_eq_ok hOk
        obtain ⟨hFind, hHolds⟩ := heldJob_eq_some.mp hHeld
        have hOwnsJob := ScanLease.owns_of_holds hHolds
        have hHeldUser := (ScanLease.names_iff.mp (ScanLease.names_of_owns hOwnsJob)).2.1
        have hSame : held = job := hInv.oneActive held (Table.mem_of_find? hFind) job
          (Table.mem_of_find? hJob)
          (by rw [hHeldUser, ← (ownsMessage_iff.mp hOwns).1, hUser])
          (ScanLease.active_of_owns hOwnsJob) hActiveOld
        have hId : job.id = jobId := Table.key_of_find? hJob
        exact hOther lease page delay hAction
          ((ScanLease.id_of_owns hOwnsJob).symm.trans (hSame ▸ hId))
      obtain ⟨seen, hFrom⟩ := persistScanPage_stagedFrom hUnique hOk
      rcases hFrom.backward m' hm' with ⟨m, hm, hRefreshes⟩ | ⟨hOwns, -⟩
      · refine ⟨m, hm, hRefreshes.same, fun hMarked => ?_⟩
        rcases hRefreshes.marker with hSame | ⟨hOwns, -, -⟩
        · rw [hSame, hMarked]
        · rw [← hRefreshes.same.ownsMessage] at hOwns
          exact absurd hOwns hNotOwned
      · exact absurd hOwns hNotOwned
  | finalized lease state error reason _ hHeld =>
      obtain ⟨m, hm, -, rfl⟩ := (mem_finalizeScanJob hHeld).mp hm'
      refine ⟨m, hm, ?_, fun hMarked => ?_⟩
      · split
        · exact ⟨rfl, rfl, rfl, rfl⟩
        · exact .refl m
      · split
        · -- the markers of the job the lease ends
          rename_i hCleared
          exfalso
          simp only [Bool.and_eq_true, beq_iff_eq] at hCleared
          have hId : jobId = lease.jobId :=
            Option.some.inj (hMarked.symm.trans hCleared.2.2)
          obtain ⟨held, hHeldRow⟩ := Option.ne_none_iff_exists'.mp hHeld
          obtain ⟨hFind, hHolds⟩ := heldJob_eq_some.mp hHeldRow
          rw [finalizeScanJob_jobs hHeld, Table.find?_update, hId, hFind, Option.map_some,
            if_pos hHolds] at hJob'
          cases hJob'
          rw [show (held.finalize s.now state.1 error reason).state = state.1 from rfl,
            state.2] at hActive
          cases hActive
        · exact hMarked
  | edited edit _ =>
      obtain ⟨m, hm, hSame, hMarker⟩ := LibraryEdit.mem_apply hm'
      exact ⟨m, hm, hSame, fun hMarked => hMarker.trans hMarked⟩

end Keeping

end SavedOrganizer
