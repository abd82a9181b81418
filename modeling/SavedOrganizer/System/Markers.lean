import SavedOrganizer.Library.Transition
import SavedOrganizer.System.MarkerPhases
import SavedOrganizer.System.World

/-!
# Replacement markers end with their job

The calls of any number of users and workers, interleaved statement by statement. Each step
of a call is a statement of its transaction, its commit or its rollback (`Outcome`), and keeps
`MarkersOk`. Where a requeue, a release or the end of expired stops ends a replacement, this
needs that its clearing statement came in time (`clearsInTime`): it has selected the job, and
no message of it was scanned since. Then every committed marker names an active replacement
of the message's user (`markers_end_with_job`).
-/

namespace SavedOrganizer

open Transition MarkerView

/-! ## The statements in views -/

def MarkerStore.seenBy (store : MarkerStore) (t : TransactionId) : MarkerView :=
  ⟨store.connections.seenBy t, store.jobs.seenBy t, store.messages.seenBy t⟩

/-- The transaction sees `s` after its statement, and for the others nothing changes. -/
structure Statement (t : TransactionId) (store store' : MarkerStore) (s : MarkerView) : Prop where
  own : store'.seenBy t = s
  others : ∀ t' ≠ t, store'.seenBy t' = store.seenBy t'
  leases : store'.leases = store.leases

section Statements

variable {t t' : TransactionId} {store store' : MarkerStore} {job : ScanJob} {id : JobId}
  {p : ScanJob → Bool}

theorem statement_refl : Statement t store store (store.seenBy t) := ⟨rfl, fun _ _ => rfl, rfl⟩

theorem Statement.trans {locked : MarkerStore} {s s' : MarkerView}
    (h : Statement t store locked s) (h' : Statement t locked store' s') :
    Statement t store store' s' :=
  ⟨h'.own, fun t' hNe => (h'.others t' hNe).trans (h.others t' hNe), h'.leases.trans h.leases⟩

theorem statement_connections {p : UserId → TelegramConnection → Bool}
    {f : TelegramConnection → Option TelegramConnection}
    {connections : LockedTable TransactionId UserId TelegramConnection}
    (h : store.connections.rewrite t p f = some connections) :
    Statement t store { store with connections := connections }
      { store.seenBy t with connections := (store.seenBy t).connections.write p f } := by
  refine ⟨?_, fun t' hNe => ?_, rfl⟩
  · unfold MarkerStore.seenBy
    rw [LockedTable.seenBy_rewrite h]
  · unfold MarkerStore.seenBy
    rw [LockedTable.seenBy_rewrite_of_ne h hNe]

theorem statement_jobs {f : ScanJob → Option ScanJob}
    {jobs : LockedTable TransactionId JobId ScanJob}
    (h : store.jobs.rewrite t (fun _ => p) f = some jobs) :
    Statement t store { store with jobs := jobs }
      { store.seenBy t with jobs := (store.seenBy t).jobs.write (fun _ => p) f } := by
  refine ⟨?_, fun t' hNe => ?_, rfl⟩
  · unfold MarkerStore.seenBy
    rw [LockedTable.seenBy_rewrite h]
  · unfold MarkerStore.seenBy
    rw [LockedTable.seenBy_rewrite_of_ne h hNe]

theorem statement_messages {p : MessageKey → Marker → Bool} {f : Marker → Option Marker}
    {messages : LockedTable TransactionId MessageKey Marker}
    (h : store.messages.rewrite t p f = some messages) :
    Statement t store { store with messages := messages }
      { store.seenBy t with messages := (store.seenBy t).messages.write p f } := by
  refine ⟨?_, fun t' hNe => ?_, rfl⟩
  · unfold MarkerStore.seenBy
    rw [LockedTable.seenBy_rewrite h]
  · unfold MarkerStore.seenBy
    rw [LockedTable.seenBy_rewrite_of_ne h hNe]

theorem statement_insertJob {jobs : LockedTable TransactionId JobId ScanJob}
    (h : store.jobs.insert t id job = some (some jobs)) :
    Statement t store { store with jobs := jobs }
      { store.seenBy t with jobs := (store.seenBy t).jobs.insert id job } := by
  obtain ⟨-, hOwn, hOthers⟩ := LockedTable.insert_eq_some h
  refine ⟨?_, fun t' hNe => ?_, rfl⟩
  · unfold MarkerStore.seenBy
    rw [hOwn]
  · unfold MarkerStore.seenBy
    rw [hOthers t' hNe]

theorem statement_insertMessage {key : MessageKey} {marker : Marker} {next : MessageId}
    {messages : LockedTable TransactionId MessageKey Marker}
    (h : store.messages.insert t key marker = some (some messages)) :
    Statement t store { store with messages := messages, nextMessageId := next }
      { store.seenBy t with messages := (store.seenBy t).messages.insert key marker } := by
  obtain ⟨-, hOwn, hOthers⟩ := LockedTable.insert_eq_some h
  refine ⟨?_, fun t' hNe => ?_, rfl⟩
  · unfold MarkerStore.seenBy
    rw [hOwn]
  · unfold MarkerStore.seenBy
    rw [hOthers t' hNe]

theorem mem_selectJobs : job ∈ store.selectJobs t p ↔
    ∃ id, (store.seenBy t).jobs.view id = some job ∧ p job = true := by
  unfold MarkerStore.selectJobs
  rw [List.mem_map]
  constructor
  · rintro ⟨⟨id, job'⟩, hMem, rfl⟩
    exact ⟨id, LockedTable.mem_select.mp hMem⟩
  · rintro ⟨id, hFound⟩
    exact ⟨(id, job), LockedTable.mem_select.mpr hFound, rfl⟩

theorem markedBy_some (hView : (store.seenBy t).jobs.view id = some job) (hp : p job = true) :
    store.markedBy t p (some id) = true := by
  have hRow : (store.jobs.row id).view t = some job := LockedTable.seenBy_view.symm.trans hView
  simp only [MarkerStore.markedBy, Option.any_some, hRow, hp]

theorem seenBy_commit : (store.commit t).seenBy t = (store.seenBy t).commit := by
  simp only [MarkerStore.seenBy, MarkerStore.commit, LockedTable.seenBy_commit,
    MarkerView.commit]

theorem seenBy_commit_of_ne (hNe : t' ≠ t) :
    (store.commit t).seenBy t' = (store.seenBy t').after (store.seenBy t) := by
  simp only [MarkerStore.seenBy, MarkerStore.commit, LockedTable.seenBy_commit_of_ne hNe,
    MarkerView.after]

theorem seenBy_rollback : (store.rollback t).seenBy t = (store.seenBy t).rollback := by
  simp only [MarkerStore.seenBy, MarkerStore.rollback, LockedTable.seenBy_rollback,
    MarkerView.rollback]

theorem seenBy_rollback_of_ne (hNe : t' ≠ t) :
    (store.rollback t).seenBy t' = store.seenBy t' := by
  simp only [MarkerStore.seenBy, MarkerStore.rollback, LockedTable.seenBy_rollback_of_ne hNe]

theorem beside_of_ne (hNe : t' ≠ t) : Beside (store.seenBy t') (store.seenBy t) where
  connections_committed := rfl
  jobs_committed := rfl
  messages_committed := rfl
  connections _ h := LockedTable.exclusive hNe h
  jobs _ h := LockedTable.exclusive hNe h
  messages _ h := LockedTable.exclusive hNe h

theorem unlocked_commit {s : MarkerView} : s.commit.Unlocked :=
  ⟨fun _ => rfl, fun _ => rfl, fun _ => rfl⟩

theorem unlocked_rollback {s : MarkerView} : s.rollback.Unlocked :=
  ⟨fun _ => rfl, fun _ => rfl, fun _ => rfl⟩

end Statements

/-! ## What a step of a call does -/

/-- The transaction goes on, is committed or is rolled back, or a claim has returned. -/
inductive Outcome (t : TransactionId) (store : MarkerStore) : MarkerStore → MarkerPhase → Prop
  | statement {store' : MarkerStore} {phase' : MarkerPhase} {s : MarkerView}
      (hStatement : Statement t store store' s)
      (hCommitted : s.jobs.committed = (store.seenBy t).jobs.committed)
      (hOk : ViewOk s phase'.marks) (hPhase : MarkerPhaseOk s phase') : Outcome t store store' phase'
  | committed {phase' : MarkerPhase} (hOk : ViewOk (store.seenBy t) fun _ => False)
      (hSettled : (store.seenBy t).Settled none)
      (hPhase : ∀ s : MarkerView, s.Unlocked → MarkerPhaseOk s phase') :
      Outcome t store (store.commit t) phase'
  | rolledBack {locked : MarkerStore} {s : MarkerView} {marks : JobId → Prop}
      (hStatement : Statement t store locked s)
      (hCommitted : s.jobs.committed = (store.seenBy t).jobs.committed) (hOk : ViewOk s marks) :
      Outcome t store (locked.rollback t) .returned
  | claimed {leases : List ScanLease} (hUnlocked : (store.seenBy t).Unlocked)
      (hKnown : ∀ lease ∈ leases, lease ∈ store.leases ∨ (store.seenBy t).KnownLease lease) :
      Outcome t store { store with leases := leases } .returned

section Outcomes

variable {vault : Vault} {settings : Settings} {now : Instant} {t : TransactionId}
  {store store' : MarkerStore} {phase' : MarkerPhase} {marks : JobId → Prop} {job : ScanJob}
  {s : MarkerView}

/-- Clearing writes no marker. -/
theorem unmarks (_ : Marker) (id : JobId) : some (none : Marker) ≠ some (some id) := nofun

theorem settled_of_active (h : ∀ id job, s.jobs.own id = some (some job) → job.state.active = true)
    {uncleared : Option JobId} : s.Settled uncleared := by
  rintro id ⟨job, hOwn, hEnd⟩
  exact absurd (hEnd.symm.trans (h id job hOwn)) Bool.false_ne_true

theorem clearMarkers_eq_some {p : MessageKey → Marker → Bool}
    (h : store.clearMarkers t p = some store') :
    Statement t store store' { store.seenBy t with
      messages := (store.seenBy t).messages.write p fun _ => some none } := by
  obtain ⟨messages, hMessages, rfl⟩ := Option.map_eq_some_iff.mp h
  exact statement_messages hMessages

theorem updateJobs_eq_some {p : ScanJob → Bool} {f : ScanJob → ScanJob}
    (h : store.updateJobs t p f = some store') :
    Statement t store store' { store.seenBy t with
      jobs := (store.seenBy t).jobs.write (fun _ => p) fun job => some (f job) } := by
  obtain ⟨jobs, hJobs, rfl⟩ := Option.map_eq_some_iff.mp h
  exact statement_jobs hJobs

theorem updateConnections_eq_some {p : UserId → TelegramConnection → Bool}
    {f : TelegramConnection → TelegramConnection}
    (h : store.updateConnections t p f = some store') :
    Statement t store store' { store.seenBy t with
      connections := (store.seenBy t).connections.write p fun c => some (f c) } := by
  obtain ⟨connections, hConnections, rfl⟩ := Option.map_eq_some_iff.mp h
  exact statement_connections hConnections

/-- A job with these columns is still there with them. -/
theorem MarkerView.Known.of_view {id : JobId} {userId : UserId} {replaceExisting : Bool}
    (h : s.Known id userId replaceExisting) (hOk : ViewOk s marks)
    (hView : s.jobs.view id = some job) :
    job.userId = userId ∧ job.replaceExisting = replaceExisting := by
  obtain ⟨before, hBefore, hUser, hReplace⟩ := h
  obtain ⟨job', hJob', hFollows⟩ := hOk.view_of_committed hBefore
  obtain rfl := Option.some.inj (hView.symm.trans hJob')
  exact ⟨hFollows.userId.trans hUser, hFollows.replaceExisting.trans hReplace⟩

/-- The markers of a known job are on its user's messages. -/
theorem userId_of_marked {id : JobId} {userId : UserId} {replaceExisting : Bool} {key : MessageKey}
    (hOk : ViewOk s marks) (hKnown : s.Known id userId replaceExisting)
    (hMarked : s.messages.view key = some (some id)) : key.userId = userId := by
  obtain ⟨job, hView, -, hUser⟩ := hOk.marked_job hMarked
  exact hUser.symm.trans (hKnown.of_view hOk hView).1

/-- The transaction gives up without another statement. -/
theorem Outcome.gaveUp (hOk : ViewOk (store.seenBy t) marks) :
    Outcome t store (store.rollback t) .returned :=
  .rolledBack statement_refl rfl hOk

/-- The transaction only reads. -/
theorem Outcome.reads (hOk : ViewOk (store.seenBy t) phase'.marks)
    (hPhase : MarkerPhaseOk (store.seenBy t) phase') : Outcome t store store phase' :=
  .statement statement_refl rfl hOk hPhase

/-! ### Endings that clear afterwards -/

theorem outcome_clearingJob {next : Option ScanRequest} {userId : UserId} {jobId : JobId}
    (hOk : ViewOk (store.seenBy t) fun _ => False)
    (hPhase : MarkerPhaseOk (store.seenBy t) (.clearingJob next userId jobId))
    (h : advanceMarkers vault settings now t store (.clearingJob next userId jobId) =
      some (store', phase')) : Outcome t store store' phase' := by
  obtain ⟨cleared, hCleared, hEq⟩ := Option.map_eq_some_iff.mp h
  cases hEq
  obtain ⟨hSettled, replaceExisting, hKnown⟩ := hPhase
  refine .statement (clearMarkers_eq_some hCleared) rfl (hOk.messages_write _ unmarks) ?_
  intro id hEnded
  rcases hSettled id hEnded with hThis | hUnmarked
  · obtain rfl := Option.some.inj hThis
    refine Or.inr (unmarked_messages_write unmarks fun key hMarked => ?_)
    simp only [userId_of_marked hOk hKnown hMarked, beq_self_eq_true, Bool.and_self]
  · exact Or.inr (hUnmarked.messages_write _ unmarks)

theorem outcome_deleting {lease : ScanLease} (hOk : ViewOk (store.seenBy t) fun _ => False)
    (hPhase : MarkerPhaseOk (store.seenBy t) (.deleting lease))
    (h : advanceMarkers vault settings now t store (.deleting lease) = some (store', phase')) :
    Outcome t store store' phase' := by
  obtain ⟨messages, hMessages, hEq⟩ := Option.map_eq_some_iff.mp h
  cases hEq
  have hDeletes (_ : Marker) (id : JobId) : (none : Option Marker) ≠ some (some id) := nofun
  exact .statement (statement_messages hMessages) rfl (hOk.messages_write _ hDeletes)
    ⟨hPhase.1.messages_write _ hDeletes, lease.replaceExisting, hPhase.2⟩

/-- A job written back from memory: if it ends, its markers are cleared next. -/
theorem outcome_writing {next : Option ScanRequest} {loaded memory : ScanJob}
    (hOk : ViewOk (store.seenBy t) fun _ => False)
    (hPhase : MarkerPhaseOk (store.seenBy t) (.writing next loaded memory))
    (h : advanceMarkers vault settings now t store (.writing next loaded memory) =
      some (store', phase')) : Outcome t store store' phase' := by
  obtain ⟨hSettled, hKnown, hFlushes⟩ := hPhase
  simp only [advanceMarkers] at h
  split at h
  · cases h
    exact .gaveUp hOk
  · obtain ⟨written, hWritten, hEq⟩ := Option.map_eq_some_iff.mp h
    cases hEq
    have hFlush {id : JobId} {job : ScanJob} (hView : (store.seenBy t).jobs.view id = some job)
        (hId : (job.id == loaded.id) = true) : id = loaded.id ∧ Flushes loaded memory job := by
      have hThis : id = loaded.id := (hOk.view_id hView).symm.trans (eq_of_beq hId)
      refine ⟨hThis, ?_⟩
      rcases hFlushes with hAny | ⟨hOwn, hLoaded⟩
      · exact hAny job
      · rw [hThis, Seen.view_of_own hOwn] at hView
        exact Option.some.inj hView ▸ hLoaded
    refine .statement (updateJobs_eq_some hWritten) rfl ?_ ?_
    · have hNew := hOk.jobs_update_same fun id job hView hId => (hFlush hView hId).2.follows
      split <;> exact hNew
    · split
      · rename_i hEnds
        refine ⟨MarkerView.Settled.update (fun id hEnded => (hSettled id hEnded).imp nofun fun h => h)
          fun id job hView hId _ => Or.inl ?_, _, hKnown⟩
        rw [(hFlush hView hId).1]
      · rename_i hGoesOn
        refine MarkerView.Settled.update hSettled fun id job hView hId hEnd => Or.inr ?_
        obtain ⟨rfl, hThis⟩ := hFlush hView hId
        -- The job ends as cancelled, so it is not a replacement.
        refine hOk.unmarked_of_not_replacement hView ?_
        rw [(hKnown.of_view hOk hView).2]
        simp only [Bool.and_eq_true, beq_iff_eq, not_and] at hGoesOn
        exact (Bool.not_eq_true _).mp (hGoesOn (hThis.cancels hEnd))

/-! ### Starting and stopping -/

/-- A job that an unlocked transaction reads is committed. -/
theorem knownJob_of_view {id : JobId} (hOk : ViewOk (store.seenBy t) marks)
    (hUnlocked : (store.seenBy t).jobs.Unlocked)
    (hView : (store.seenBy t).jobs.view id = some job) : (store.seenBy t).KnownJob job := by
  have hId : job.id = id := hOk.view_id hView
  rw [hUnlocked.view] at hView
  exact ⟨job, hId ▸ hView, rfl, rfl⟩

theorem outcome_starting {request : ScanRequest} (hOk : ViewOk (store.seenBy t) fun _ => False)
    (hPhase : MarkerPhaseOk (store.seenBy t) (.starting request))
    (h : advanceMarkers vault settings now t store (.starting request) = some (store', phase')) :
    Outcome t store store' phase' := by
  have hUnlocked : (store.seenBy t).Unlocked := hPhase
  cases h
  refine .reads hOk ⟨hUnlocked, fun job hFound => ?_⟩
  obtain ⟨id, hView, -⟩ := mem_selectJobs.mp (List.mem_of_mem_head? hFound)
  exact knownJob_of_view hOk hUnlocked.jobs hView

/-- An abandoned stop is written back as cancelled, whatever the row has become. -/
theorem flushes_cancelStopped (hStop : job.abandonedStop now = true) (current : ScanJob) :
    Flushes job (job.cancelStopped now) current := by
  have hState : job.state = .stopping := by
    simp only [ScanJob.abandonedStop, Bool.and_eq_true, beq_iff_eq] at hStop
    exact hStop.1
  have hCancelled : (flushJob job (job.cancelStopped now) current).state = .cancelled := by
    simp only [flushJob, ScanJob.cancelStopped, hState]
    rfl
  refine ⟨⟨rfl, rfl, rfl, rfl, rfl, Nat.le_refl _, fun hActive => ?_⟩, fun _ => rfl⟩
  rw [hCancelled] at hActive
  cases hActive

theorem outcome_startRead {request : ScanRequest} {found : Option ScanJob}
    (hOk : ViewOk (store.seenBy t) fun _ => False)
    (hPhase : MarkerPhaseOk (store.seenBy t) (.startRead request found))
    (h : advanceMarkers vault settings now t store (.startRead request found) =
      some (store', phase')) : Outcome t store store' phase' := by
  obtain ⟨hUnlocked, hFound⟩ := hPhase
  cases found with
  | none =>
      cases h
      exact .reads hOk hUnlocked
  | some job =>
      simp only [advanceMarkers] at h
      split at h
      · rename_i hStop
        cases h
        exact .reads hOk ⟨settled_of_unlocked hUnlocked.jobs, hFound job rfl,
          Or.inl (flushes_cancelStopped hStop)⟩
      · cases h
        exact .gaveUp hOk

theorem outcome_validating {request : ScanRequest} (hOk : ViewOk (store.seenBy t) fun _ => False)
    (hPhase : MarkerPhaseOk (store.seenBy t) (.validating request))
    (h : advanceMarkers vault settings now t store (.validating request) =
      some (store', phase')) : Outcome t store store' phase' := by
  have hUnlocked : (store.seenBy t).Unlocked := hPhase
  simp only [advanceMarkers, MarkerStore.validateConnection] at h
  obtain ⟨connections, hConnections, hRest⟩ := Option.bind_eq_some_iff.mp h
  have hLocked := statement_connections hConnections
  have hLockedOk := hOk.connections_write (fun userId _ => userId == request.userId) some
  -- Both ways to write the row go on from the row that was locked.
  have hWrites {c c' : TelegramConnection} {locked : MarkerStore}
      (hView : (connections.row request.userId).view t = some c)
      (hWritten : MarkerStore.updateConnections { store with connections := connections } t
        (fun userId _ => userId == request.userId) (fun _ => c') = some locked) :
      ∃ s, Statement t store locked s ∧ s.jobs = (store.seenBy t).jobs ∧
        ViewOk s (fun _ => False) ∧ s.connections.own request.userId ≠ none := by
    refine ⟨_, hLocked.trans (updateConnections_eq_some hWritten), rfl, ?_, ?_⟩
    · exact (hLocked.own ▸ hLockedOk :
        ViewOk (MarkerStore.seenBy _ t) fun _ => False).connections_write _ _
    · exact Seen.own_write_ne_none_of_match (LockedTable.seenBy_view.trans hView)
        (beq_self_eq_true _)
  split at hRest
  · cases hRest
    exact .rolledBack hLocked rfl hLockedOk
  · rename_i c hView
    split at hRest
    · cases hRest
      exact .rolledBack hLocked rfl hLockedOk
    · rename_i c' hRejected
      obtain ⟨written, hWritten, hEq⟩ := Option.map_eq_some_iff.mp hRest
      cases hEq
      obtain ⟨s, hStatement, hJobs, hOk', -⟩ := hWrites hView hWritten
      refine .statement hStatement (congrArg Seen.committed hJobs) hOk' ?_
      exact settled_of_unlocked (hJobs ▸ hUnlocked.jobs)
    · rename_i c' hValidated
      split at hRest
      · cases hRest
        exact .rolledBack hLocked rfl hLockedOk
      · obtain ⟨written, hWritten, hEq⟩ := Option.map_eq_some_iff.mp hRest
        cases hEq
        obtain ⟨s, hStatement, hJobs, hOk', hOwn⟩ := hWrites hView hWritten
        refine .statement hStatement (congrArg Seen.committed hJobs) ?_ ?_
        · split <;> exact hOk'
        · split <;> exact ⟨hJobs ▸ hUnlocked.jobs, hOwn⟩

theorem outcome_clearingAll {request : ScanRequest} {telegramUserId : TelegramId}
    {generation : Nat} (hOk : ViewOk (store.seenBy t) fun _ => False)
    (hPhase : MarkerPhaseOk (store.seenBy t) (.clearingAll request telegramUserId generation))
    (h : advanceMarkers vault settings now t store
      (.clearingAll request telegramUserId generation) = some (store', phase')) :
    Outcome t store store' phase' := by
  obtain ⟨cleared, hCleared, hEq⟩ := Option.map_eq_some_iff.mp h
  cases hEq
  exact .statement (clearMarkers_eq_some hCleared) rfl (hOk.messages_write _ unmarks) hPhase

theorem outcome_inserting {request : ScanRequest} {telegramUserId : TelegramId}
    {generation : Nat} (hOk : ViewOk (store.seenBy t) fun _ => False)
    (hPhase : MarkerPhaseOk (store.seenBy t) (.inserting request telegramUserId generation))
    (h : advanceMarkers vault settings now t store
      (.inserting request telegramUserId generation) = some (store', phase')) :
    Outcome t store store' phase' := by
  obtain ⟨hUnlocked, hConnection⟩ := hPhase
  simp only [advanceMarkers, MarkerStore.insertJob] at h
  split at h
  · cases h
  · split at h
    · cases h
      exact .gaveUp hOk
    · obtain ⟨result, hResult, hEq⟩ := Option.map_eq_some_iff.mp h
      cases result with
      | none =>
          cases hEq
          exact .gaveUp hOk
      | some jobs =>
          cases hEq
          have hNew := (LockedTable.insert_eq_some hResult).1
          refine .statement (statement_insertJob hResult) rfl (hOk.jobs_insert hNew hConnection) ?_
          refine settled_of_active fun id job hJob => ?_
          dsimp only [Seen.insert] at hJob
          rw [Function.update_apply] at hJob
          split at hJob
          · cases hJob
            rfl
          · exact absurd ((hUnlocked id).symm.trans hJob) nofun

/-- A stop writes back a job that it has locked. -/
theorem flushes_stop (hActive : job.state.active = true) : Flushes job (job.stop now) job := by
  have hState : (flushJob job (job.stop now) job).state = (job.stop now).state := by
    simp only [flushJob]
    split
    · rename_i hSame
      exact hSame.symm
    · rfl
  refine ⟨⟨rfl, rfl, rfl, rfl, rfl, Nat.le_refl _, fun _ => hActive⟩, fun hEnd => ?_⟩
  rw [hState] at hEnd
  simp only [ScanJob.stop] at hEnd ⊢
  split at hEnd
  · rename_i hAtOnce
    rw [if_pos hAtOnce]
  · cases hEnd

theorem outcome_stopping {userId : UserId} (hOk : ViewOk (store.seenBy t) fun _ => False)
    (hPhase : MarkerPhaseOk (store.seenBy t) (.stopping userId))
    (h : advanceMarkers vault settings now t store (.stopping userId) = some (store', phase')) :
    Outcome t store store' phase' := by
  have hUnlocked : (store.seenBy t).Unlocked := hPhase
  obtain ⟨jobs, hJobs, hEq⟩ := Option.map_eq_some_iff.mp h
  have hLocked := statement_jobs hJobs
  have hLockedOk : ViewOk _ fun _ => False :=
    hOk.jobs_update_same (f := fun job => job) fun _ job _ (_ : job.activeOf userId = true) =>
      .refl job
  dsimp only at hEq
  split at hEq
  · cases hEq
    exact .rolledBack hLocked rfl hLockedOk
  · rename_i job hFound
    cases hEq
    obtain ⟨id, hView, hActiveOf⟩ := mem_selectJobs.mp (List.mem_of_mem_head? hFound)
    rw [hLocked.own] at hView
    -- The job that is found was there, and is locked now.
    have hMatch : (store.seenBy t).jobs.view id = some job := by
      rcases Seen.view_write_eq_some hView with ⟨hOld, hNot⟩ | ⟨job', hOld, -, hSame⟩
      · exact hOld
      · exact hSame ▸ hOld
    have hId : job.id = id := hOk.view_id hMatch
    refine .statement hLocked rfl hLockedOk ⟨?_, ?_, ?_, ?_⟩
    · refine settled_of_active fun id' job' hOwn => ?_
      rcases Seen.own_write_eq_some hOwn with hOld | ⟨job'', -, hActive, hSame⟩
      · exact absurd ((hUnlocked.jobs id').symm.trans hOld) nofun
      · cases hSame
        exact (Bool.and_eq_true _ _ ▸ hActive).2
    · exact knownJob_of_view hOk hUnlocked.jobs hMatch
    · rw [hId]
      exact Seen.own_write_of_match hMatch hActiveOf
    · exact (Bool.and_eq_true _ _ ▸ hActiveOf).2

theorem outcome_stopRead {loaded : ScanJob} (hOk : ViewOk (store.seenBy t) fun _ => False)
    (hPhase : MarkerPhaseOk (store.seenBy t) (.stopRead loaded))
    (h : advanceMarkers vault settings now t store (.stopRead loaded) = some (store', phase')) :
    Outcome t store store' phase' := by
  obtain ⟨hSettled, hKnown, hOwn, hActive⟩ := hPhase
  cases h
  exact .reads hOk ⟨hSettled, hKnown, Or.inr ⟨hOwn, flushes_stop hActive⟩⟩

/-! ### Claims -/

theorem outcome_claimFailing {begun : Instant} {jobId : JobId} {owner : LeaseOwner}
    (hOk : ViewOk (store.seenBy t) fun _ => False)
    (hPhase : MarkerPhaseOk (store.seenBy t) (.claimFailing begun jobId owner))
    (h : advanceMarkers vault settings now t store (.claimFailing begun jobId owner) =
      some (store', phase')) : Outcome t store store' phase' := by
  have hUnlocked : (store.seenBy t).Unlocked := hPhase
  obtain ⟨failed, hFailed, hEq⟩ := Option.map_eq_some_iff.mp h
  cases hEq
  refine .statement (updateJobs_eq_some hFailed) rfl
    (hOk.jobs_update_same fun id job _ hSelects => JobStatement.follows_sets hSelects) ?_
  intro id job hOwn
  rcases Seen.own_write_eq_some hOwn with hOld | ⟨before, hView, hSelects, hNew⟩
  · exact absurd ((hUnlocked.jobs id).symm.trans hOld) nofun
  · cases hNew
    simp only [JobStatement.selects, Bool.and_eq_true, beq_iff_eq] at hSelects
    exact ⟨(hOk.view_id hView).symm.trans hSelects.1.1, Or.inl rfl⟩

theorem outcome_claimCancelling {begun : Instant} {jobId : JobId} {owner : LeaseOwner}
    (hOk : ViewOk (store.seenBy t) fun _ => False)
    (hPhase : MarkerPhaseOk (store.seenBy t) (.claimCancelling begun jobId owner))
    (h : advanceMarkers vault settings now t store (.claimCancelling begun jobId owner) =
      some (store', phase')) : Outcome t store store' phase' := by
  obtain ⟨cancelled, hCancelled, hEq⟩ := Option.map_eq_some_iff.mp h
  cases hEq
  refine .statement (updateJobs_eq_some hCancelled) rfl
    (hOk.jobs_update_same fun id job _ hSelects => JobStatement.follows_sets hSelects) ?_
  intro id job hOwn
  rcases Seen.own_write_eq_some hOwn with hOld | ⟨before, hView, hSelects, hNew⟩
  · exact hPhase id job hOld
  · cases hNew
    simp only [JobStatement.selects, Bool.and_eq_true, beq_iff_eq] at hSelects
    exact ⟨(hOk.view_id hView).symm.trans hSelects.1, Or.inr rfl⟩

theorem outcome_claimClearing {begun : Instant} {jobId : JobId} {owner : LeaseOwner}
    (hOk : ViewOk (store.seenBy t) fun _ => False)
    (hPhase : MarkerPhaseOk (store.seenBy t) (.claimClearing begun jobId owner))
    (h : advanceMarkers vault settings now t store (.claimClearing begun jobId owner) =
      some (store', phase')) : Outcome t store store' phase' := by
  obtain ⟨cleared, hCleared, hEq⟩ := Option.map_eq_some_iff.mp h
  cases hEq
  refine .statement (clearMarkers_eq_some hCleared) rfl (hOk.messages_write _ unmarks) ?_
  rintro id ⟨job, hOwn, -⟩
  obtain ⟨rfl, hState⟩ := hPhase id job hOwn
  refine Or.inr (unmarked_messages_write unmarks fun key _ => ?_)
  rw [beq_self_eq_true, Bool.true_and]
  refine markedBy_some (Seen.view_of_own hOwn) ?_
  simpa only [Bool.or_eq_true, beq_iff_eq] using hState

theorem outcome_claimUpdating {begun : Instant} {jobId : JobId} {owner : LeaseOwner}
    (hOk : ViewOk (store.seenBy t) fun _ => False)
    (hPhase : MarkerPhaseOk (store.seenBy t) (.claimUpdating begun jobId owner))
    (h : advanceMarkers vault settings now t store (.claimUpdating begun jobId owner) =
      some (store', phase')) : Outcome t store store' phase' := by
  obtain ⟨claimed, hClaimed, hEq⟩ := Option.map_eq_some_iff.mp h
  cases hEq
  exact .statement (updateJobs_eq_some hClaimed) rfl
    (hOk.jobs_update_same fun id job _ hSelects => JobStatement.follows_sets hSelects)
    (MarkerView.Settled.update hPhase fun _ _ _ _ hEnd => nomatch hEnd)

theorem readLease_known {begun : Instant} {owner : LeaseOwner} {lease : ScanLease}
    (h : readLease begun owner job = some lease) :
    lease.jobId = job.id ∧ lease.userId = job.userId ∧
      lease.replaceExisting = job.replaceExisting := by
  unfold readLease at h
  split at h
  · cases h
    exact ⟨rfl, rfl, rfl⟩
  · cases h

theorem outcome_claimReading {begun : Instant} {jobId : JobId} {owner : LeaseOwner}
    (hOk : ViewOk (store.seenBy t) fun _ => False)
    (hPhase : MarkerPhaseOk (store.seenBy t) (.claimReading begun jobId owner))
    (h : advanceMarkers vault settings now t store (.claimReading begun jobId owner) =
      some (store', phase')) : Outcome t store store' phase' := by
  have hUnlocked : (store.seenBy t).Unlocked := hPhase
  cases h
  refine .claimed hUnlocked fun lease hMem => ?_
  rcases List.mem_append.mp hMem with hNew | hOld
  · obtain ⟨job, hClaimed, hLease⟩ := Option.bind_eq_some_iff.mp (Option.mem_toList.mp hNew)
    obtain ⟨hId, hUser, hReplace⟩ := readLease_known hLease
    have hView : (store.seenBy t).jobs.view jobId = some job :=
      LockedTable.seenBy_view.trans (Option.filter_eq_some_iff.mp hClaimed).1
    unfold KnownLease
    rw [hId, hUser, hReplace]
    exact Or.inr (knownJob_of_view hOk hUnlocked.jobs hView)
  · exact Or.inl hOld

/-! ### Pages -/

theorem outcome_persisting {begun : Instant} {lease : ScanLease} {page : ScanPage}
    (hOk : ViewOk (store.seenBy t) fun _ => False)
    (hPhase : MarkerPhaseOk (store.seenBy t) (.persisting begun lease page))
    (h : advanceMarkers vault settings now t store (.persisting begun lease page) =
      some (store', phase')) : Outcome t store store' phase' := by
  obtain ⟨hUnlocked, hKnown⟩ := hPhase
  obtain ⟨connections, hConnections, hEq⟩ := Option.map_eq_some_iff.mp h
  have hLocked := statement_connections hConnections
  have hLockedOk := hOk.connections_write
    (fun userId c => userId == lease.userId && lease.connected c) some
  dsimp only at hEq
  split at hEq
  · rename_i hConnected
    cases hEq
    refine .statement hLocked rfl hLockedOk ⟨hUnlocked.jobs, ?_, hKnown⟩
    obtain ⟨c, hView, hBound⟩ := (Option.any_eq_true _ _).mp hConnected
    rw [← LockedTable.seenBy_view, LockedTable.seenBy_rewrite hConnections] at hView
    rcases Seen.view_write_eq_some hView with ⟨-, hNot⟩ | ⟨c', hOld, hMatch, -⟩
    · rw [beq_self_eq_true, hBound] at hNot
      cases hNot
    · exact Seen.own_write_ne_none_of_match hOld hMatch
  · cases hEq
    exact .rolledBack hLocked rfl hLockedOk

theorem outcome_persistLocking {begun : Instant} {lease : ScanLease} {page : ScanPage}
    (hOk : ViewOk (store.seenBy t) fun _ => False)
    (hPhase : MarkerPhaseOk (store.seenBy t) (.persistLocking begun lease page))
    (h : advanceMarkers vault settings now t store (.persistLocking begun lease page) =
      some (store', phase')) : Outcome t store store' phase' := by
  obtain ⟨hUnlocked, hConnection, hKnown⟩ := hPhase
  obtain ⟨jobs, hJobs, hEq⟩ := Option.map_eq_some_iff.mp h
  have hLocked := statement_jobs hJobs
  have hLockedOk : ViewOk _ fun _ => False :=
    hOk.jobs_update_same (f := fun job => job) fun _ job _ (_ : lease.holds begun job = true) =>
      .refl job
  dsimp only at hEq
  split at hEq
  · cases hEq
    exact .rolledBack hLocked rfl hLockedOk
  · rename_i hFound
    cases hEq
    obtain ⟨job, hMem⟩ := List.exists_mem_of_ne_nil _ (mt List.isEmpty_iff.mpr hFound)
    obtain ⟨id, hView, hHolds⟩ := mem_selectJobs.mp hMem
    rw [hLocked.own] at hView
    have hMatch : (store.seenBy t).jobs.view id = some job := by
      rcases Seen.view_write_eq_some hView with ⟨hOld, -⟩ | ⟨job', hOld, -, hSame⟩
      · exact hOld
      · exact hSame ▸ hOld
    have hId : lease.jobId = id :=
      (ScanLease.id_of_owns (ScanLease.owns_of_holds hHolds)).symm.trans (hOk.view_id hMatch)
    subst hId
    obtain ⟨hUser, hReplace⟩ := hKnown.of_view hOk hMatch
    refine .statement hLocked rfl hLockedOk ⟨hConnection, ⟨job, job, ?_, ?_, hReplace, hUser⟩, ?_⟩
    · exact hUnlocked.view.symm.trans hMatch
    · exact Seen.own_write_of_match hMatch hHolds
    · intro id' job' hOwn
      rcases Seen.own_write_eq_some hOwn with hOld | ⟨job'', -, hHolds', hSame⟩
      · exact absurd ((hUnlocked id').symm.trans hOld) nofun
      · cases hSame
        exact ScanLease.active_of_owns (ScanLease.owns_of_holds hHolds')

/-- A row that a page refreshes is one that it has read. -/
theorem mem_pageWrites {stored : List (MessageKey × Marker)} {messages : List ScannedMessage}
    {seen : List TelegramId} {writes : List MessageWrite} {key : MessageKey} {loaded : Marker}
    (h : pageWrites stored seen messages = some writes)
    (hMem : MessageWrite.refresh key loaded ∈ writes) : (key, loaded) ∈ stored := by
  induction messages generalizing seen writes with
  | nil =>
      cases h
      cases hMem
  | cons scanned rest ih =>
      simp only [pageWrites] at h
      split at h
      · rename_i key' loaded' hFound
        obtain ⟨later, hLater, rfl⟩ := Option.map_eq_some_iff.mp h
        split at hMem
        · exact ih hLater hMem
        · rcases List.mem_cons.mp hMem with hThis | hMem
          · cases hThis
            exact List.mem_reverse.mp (List.mem_of_find?_eq_some hFound)
          · exact ih hLater hMem
      · split at h
        · cases h
        · obtain ⟨later, hLater, rfl⟩ := Option.map_eq_some_iff.mp h
          rcases List.mem_cons.mp hMem with hThis | hMem
          · cases hThis
          · exact ih hLater hMem

theorem outcome_persistReading {lease : ScanLease} {page : ScanPage}
    (hOk : ViewOk (store.seenBy t) fun _ => False)
    (hPhase : MarkerPhaseOk (store.seenBy t) (.persistReading lease page))
    (h : advanceMarkers vault settings now t store (.persistReading lease page) =
      some (store', phase')) : Outcome t store store' phase' := by
  simp only [advanceMarkers] at h
  split at h
  · cases h
    exact .gaveUp hOk
  · rename_i writes hWrites
    cases h
    refine .reads (hOk.mono nofun) ⟨hPhase, fun hEmpty => ?_, fun key loaded hMem => ?_⟩
    · rw [hEmpty] at hWrites
      exact (Option.some.inj hWrites).symm
    · have hMatch := (LockedTable.mem_select.mp (mem_pageWrites hWrites hMem)).2
      simp only [Bool.and_eq_true, beq_iff_eq] at hMatch
      exact hMatch.1.1

/-- A page that holds its connection and its job may mark messages of its user. -/
theorem MarkerView.Holding.marking {lease : ScanLease} (h : s.Holding lease)
    (hReplace : lease.replaceExisting = true) {key : MessageKey} (hKey : key.userId = lease.userId)
    (hMarks : marks lease.jobId) : Marking s marks key lease.jobId := by
  obtain ⟨before, job, hBefore, hOwn, hJob, hUser⟩ := h.job
  exact ⟨hKey ▸ h.connection, before, job, hBefore, hOwn, hJob.trans hReplace,
    hUser.trans hKey.symm, Or.inr hMarks⟩

theorem outcome_persistWriting {lease : ScanLease} {page : ScanPage} {write : MessageWrite}
    {writes : List MessageWrite}
    (hOk : ViewOk (store.seenBy t) (MarkerPhase.persistWriting lease page (write :: writes)).marks)
    (hPhase : MarkerPhaseOk (store.seenBy t) (.persistWriting lease page (write :: writes)))
    (h : advanceMarkers vault settings now t store (.persistWriting lease page (write :: writes)) =
      some (store', phase')) : Outcome t store store' phase' := by
  obtain ⟨hHolding, hEmpty, hUsers⟩ := hPhase
  have hMarks : (MarkerPhase.persistWriting lease page writes).marks lease.jobId :=
    ⟨rfl, fun hNil => nomatch hEmpty hNil⟩
  have hUsers' (key : MessageKey) (loaded : Marker)
      (hMem : MessageWrite.refresh key loaded ∈ writes) : key.userId = lease.userId :=
    hUsers key loaded (List.mem_cons_of_mem _ hMem)
  have hEmpty' : page.messages = [] → writes = [] := fun hNil => nomatch hEmpty hNil
  obtain ⟨result, hResult, hEq⟩ := Option.map_eq_some_iff.mp h
  cases write with
  | refresh key loaded =>
      simp only [MarkerStore.writeMessage] at hResult
      split at hResult
      · cases hResult
        cases hEq
        exact .gaveUp hOk
      · obtain ⟨messages, hMessages, rfl⟩ := Option.map_eq_some_iff.mp hResult
        cases hEq
        refine .statement (statement_messages hMessages) rfl ?_
          ⟨⟨hHolding.connection, hHolding.job, hHolding.active⟩, hEmpty', hUsers'⟩
        refine ViewOk.messages_rewrite hOk fun key' marker id hKey hNew => ?_
        have hKey : key'.userId = lease.userId :=
          eq_of_beq hKey ▸ hUsers key loaded List.mem_cons_self
        simp only [flushMarker, Option.some.injEq] at hNew
        split at hNew
        · rename_i hReplace
          obtain rfl := Option.some.inj hNew
          exact Or.inr (hHolding.marking (Bool.and_eq_true _ _ ▸ hReplace).1 hKey hMarks)
        · exact Or.inl hNew
  | add telegramId =>
      obtain ⟨inserted, hInserted, rfl⟩ := Option.map_eq_some_iff.mp hResult
      cases inserted with
      | none =>
          cases hEq
          exact .gaveUp hOk
      | some messages =>
          cases hEq
          refine .statement (statement_insertMessage hInserted) rfl ?_
            ⟨⟨hHolding.connection, hHolding.job, hHolding.active⟩, hEmpty', hUsers'⟩
          refine ViewOk.messages_insert hOk fun id hNew => ?_
          split at hNew
          · rename_i hReplace
            obtain rfl := Option.some.inj hNew
            exact hHolding.marking hReplace rfl hMarks
          · cases hNew

/-- The fence counts the messages of the page. -/
theorem outcome_fence {lease : ScanLease} {page : ScanPage}
    (hOk : ViewOk (store.seenBy t) (MarkerPhase.persistWriting lease page []).marks)
    (hPhase : MarkerPhaseOk (store.seenBy t) (.persistWriting lease page []))
    (h : advanceMarkers vault settings now t store (.persistWriting lease page []) =
      some (store', phase')) : Outcome t store store' phase' := by
  obtain ⟨hHolding, -⟩ := hPhase
  simp only [advanceMarkers] at h
  split at h
  · cases h
    exact .gaveUp hOk
  · rename_i hFound
    obtain ⟨recorded, hRecorded, hEq⟩ := Option.map_eq_some_iff.mp h
    cases hEq
    have hFollows (id : JobId) (job : ScanJob) (_ : (store.seenBy t).jobs.view id = some job)
        (hHolds : lease.holds now job = true) :
        JobFollows job (job.recordPage page.messages.length page.nextOffsetId) :=
      ⟨rfl, rfl, rfl, rfl, rfl, Nat.le_add_right _ _, fun _ =>
        ScanLease.active_of_owns (ScanLease.owns_of_holds hHolds)⟩
    refine .statement (updateJobs_eq_some hRecorded) rfl
      (ViewOk.jobs_update hOk hFollows fun id hMarks => Or.inr fun job hOwn => ?_) ?_
    · obtain ⟨rfl, hSome⟩ := hMarks
      obtain ⟨found, hMem⟩ := List.exists_mem_of_ne_nil _ (mt List.isEmpty_iff.mpr hFound)
      obtain ⟨id, hView, hHolds⟩ := mem_selectJobs.mp hMem
      obtain rfl : lease.jobId = id :=
        (ScanLease.id_of_owns (ScanLease.owns_of_holds hHolds)).symm.trans (hOk.view_id hView)
      obtain rfl := Option.some.inj ((Seen.view_of_own hOwn).symm.trans hView)
      exact ⟨hHolds, Nat.lt_add_of_pos_right (List.length_pos_of_ne_nil hSome)⟩
    · refine MarkerView.Settled.update (settled_of_active hHolding.active)
        fun id job _ hHolds hEnd => ?_
      have hActive := ScanLease.active_of_owns (ScanLease.owns_of_holds hHolds)
      exact absurd (hEnd.symm.trans hActive) Bool.false_ne_true

/-! ### Finalizations -/

theorem outcome_finalizing {begun : Instant} {lease : ScanLease} {state : TerminalState}
    {error : Option String} {reason : Option CompletionReason}
    (hOk : ViewOk (store.seenBy t) fun _ => False)
    (hPhase : MarkerPhaseOk (store.seenBy t) (.finalizing begun lease state error reason))
    (h : advanceMarkers vault settings now t store (.finalizing begun lease state error reason) =
      some (store', phase')) : Outcome t store store' phase' := by
  obtain ⟨hUnlocked, hKnown⟩ := hPhase
  simp only [advanceMarkers] at h
  split at h
  · cases h
    exact .gaveUp hOk
  · obtain ⟨ended, hEnded, hEq⟩ := Option.map_eq_some_iff.mp h
    cases hEq
    have hOk' := hOk.jobs_update_same (p := lease.holds begun)
      (f := ScanJob.finalize begun state.1 error reason) fun id job _ hHolds =>
        ⟨rfl, rfl, rfl, rfl, rfl, Nat.le_refl _, fun _ =>
          ScanLease.active_of_owns (ScanLease.owns_of_holds hHolds)⟩
    have hThis {id : JobId} {job : ScanJob} (hView : (store.seenBy t).jobs.view id = some job)
        (hHolds : lease.holds begun job = true) : lease.jobId = id :=
      (ScanLease.id_of_owns (ScanLease.owns_of_holds hHolds)).symm.trans (hOk.view_id hView)
    have hSettled := MarkerView.Settled.update (f := ScanJob.finalize begun state.1 error reason)
      (settled_of_unlocked hUnlocked.jobs : (store.seenBy t).Settled (some lease.jobId))
      fun id job hView hHolds _ => Or.inl (congrArg some (hThis hView hHolds))
    refine .statement (updateJobs_eq_some hEnded) rfl ?_ ?_
    · split
      · exact hOk'
      · split <;> exact hOk'
    · split
      · exact ⟨hSettled, hKnown⟩
      · split
        · exact ⟨hSettled, _, hKnown⟩
        · rename_i hNot
          refine MarkerView.Settled.update (settled_of_unlocked hUnlocked.jobs)
            fun id job hView hHolds _ => Or.inr ?_
          obtain rfl := hThis hView hHolds
          refine hOk.unmarked_of_not_replacement hView ?_
          rw [(hKnown.of_view hOk hView).2]
          exact (Bool.not_eq_true _).mp hNot

/-! ### Endings that clear before -/

theorem outcome_downgrading {lease : ScanLease} (hOk : ViewOk (store.seenBy t) fun _ => False)
    (hPhase : MarkerPhaseOk (store.seenBy t) (.downgrading lease))
    (h : advanceMarkers vault settings now t store (.downgrading lease) = some (store', phase')) :
    Outcome t store store' phase' := by
  have hUnlocked : (store.seenBy t).Unlocked := hPhase
  simp only [advanceMarkers] at h
  split at h
  · rename_i hBound
    obtain ⟨erased, hErased, hEq⟩ := Option.map_eq_some_iff.mp h
    cases hEq
    obtain ⟨c, hView, hMatch⟩ := (Option.any_eq_true _ _).mp hBound
    refine .statement (updateConnections_eq_some hErased) rfl (hOk.connections_write _ _)
      ⟨hUnlocked.jobs, .cancels lease.userId rfl (Or.inl ?_)⟩
    refine Seen.own_write_ne_none_of_match (LockedTable.seenBy_view.trans hView) ?_
    rw [beq_self_eq_true, hMatch, Bool.and_self]
  · cases h
    exact .gaveUp hOk

theorem outcome_disconnecting {userId : UserId} (hOk : ViewOk (store.seenBy t) fun _ => False)
    (hPhase : MarkerPhaseOk (store.seenBy t) (.disconnecting userId))
    (h : advanceMarkers vault settings now t store (.disconnecting userId) =
      some (store', phase')) : Outcome t store store' phase' := by
  have hUnlocked : (store.seenBy t).Unlocked := hPhase
  obtain ⟨erased, hErased, hEq⟩ := Option.map_eq_some_iff.mp h
  cases hEq
  refine .statement (updateConnections_eq_some hErased) rfl (hOk.connections_write _ _)
    ⟨hUnlocked.jobs, .cancels userId rfl ?_⟩
  cases hView : (store.seenBy t).connections.view userId with
  | none => exact Or.inr (hUnlocked.connections.view.symm.trans hView)
  | some c => exact Or.inl (Seen.own_write_ne_none_of_match hView (beq_self_eq_true _))

/-- The clearing statement has reached every marker of the jobs it selects. -/
theorem unmarked_of_clearing {ending : JobStatement} {id : JobId}
    (hOk : ViewOk (store.seenBy t) marks) (hView : (store.seenBy t).jobs.view id = some job)
    (hClears : ending.clearsFor job = true) :
    MarkerView.Unmarked { store.seenBy t with
      messages := (store.seenBy t).messages.write (fun key marker =>
        ending.clearsOf key && store.markedBy t ending.clearsFor marker) fun _ => some none } id := by
  refine unmarked_messages_write unmarks fun key hMarked => ?_
  obtain ⟨job', hView', -, hUser⟩ := hOk.marked_job hMarked
  obtain rfl := Option.some.inj (hView.symm.trans hView')
  rw [JobStatement.clearsOf_of_clearsFor hClears hUser, Bool.true_and]
  exact markedBy_some hView hClears

theorem outcome_clearing {ending : JobStatement} (hOk : ViewOk (store.seenBy t) fun _ => False)
    (hPhase : MarkerPhaseOk (store.seenBy t) (.clearing ending))
    (h : advanceMarkers vault settings now t store (.clearing ending) = some (store', phase')) :
    Outcome t store store' phase' := by
  obtain ⟨hUnlocked, hClearing⟩ := hPhase
  obtain ⟨cleared, hCleared, hEq⟩ := Option.map_eq_some_iff.mp h
  cases hEq
  refine .statement (clearMarkers_eq_some hCleared) rfl (hOk.messages_write _ unmarks)
    ⟨hUnlocked, ?_⟩
  cases hClearing with
  | yields hYields =>
      refine .yields hYields fun id scanned hMem => ?_
      obtain ⟨job, hJob, hPair⟩ := List.mem_map.mp hMem
      obtain ⟨id', hView, hClears⟩ := mem_selectJobs.mp hJob
      cases hPair
      obtain rfl := hOk.view_id hView
      exact ⟨job, hUnlocked.view.symm.trans hView, Nat.le_refl _, fun _ =>
        unmarked_of_clearing hOk hView hClears⟩
  | cancels userId hCancels hKept =>
      exact .cancels userId hCancels hKept fun id job hJob hClears =>
        unmarked_of_clearing hOk (hUnlocked.view.trans hJob) hClears

/-- The clearing statement of the `UPDATE` came in time for the job. -/
def ClearedInTime (cleared : List (JobId × Nat)) (id : JobId) (job : ScanJob) : Prop :=
  job.messagesScanned = 0 ∨ (id, job.messagesScanned) ∈ cleared

theorem outcome_updating {ending : JobStatement} {cleared : List (JobId × Nat)}
    (hOk : ViewOk (store.seenBy t) fun _ => False)
    (hPhase : MarkerPhaseOk (store.seenBy t) (.updating ending cleared))
    (hInTime : ending.yields = true → ∀ id job, (store.seenBy t).jobs.view id = some job →
      ending.selects now job = true → (ending.sets job).state.active = false →
        job.replaceExisting = true → ClearedInTime cleared id job)
    (h : advanceMarkers vault settings now t store (.updating ending cleared) =
      some (store', phase')) : Outcome t store store' phase' := by
  obtain ⟨hUnlocked, hEnding⟩ := hPhase
  obtain ⟨updated, hUpdated, hEq⟩ := Option.map_eq_some_iff.mp h
  cases hEq
  refine .statement (updateJobs_eq_some hUpdated) rfl
    (hOk.jobs_update_same fun id job _ hSelects => JobStatement.follows_sets hSelects)
    (MarkerView.Settled.update (settled_of_unlocked hUnlocked)
      fun id job hView hSelects hEnd => Or.inr ?_)
  have hCommitted : (store.seenBy t).jobs.committed id = some job :=
    hUnlocked.view.symm.trans hView
  cases hEnding with
  | renews begun lease =>
      have hActive : job.state.active = true := JobStatement.active_of_selects hSelects
      exact absurd (hEnd.symm.trans hActive) Bool.false_ne_true
  | yields hYields hCleared =>
      by_cases hReplace : job.replaceExisting = true
      · rcases hInTime hYields id job hView hSelects hEnd hReplace with hUnscanned | hMem
        · exact hOk.unmarked_of_unscanned (hUnlocked id) hCommitted hUnscanned
        · obtain ⟨job', hJob', -, hUnmarked⟩ := hCleared id _ hMem
          obtain rfl := Option.some.inj (hCommitted.symm.trans hJob')
          exact hUnmarked rfl
      · exact hOk.unmarked_of_not_replacement hView ((Bool.not_eq_true _).mp hReplace)
  | cancels userId hCancels hKept hCleared =>
      exact hCleared id job hCommitted (JobStatement.clearsFor_of_selects hCancels hSelects)

/-- One step of a call. -/
theorem outcome_of_advance {phase : MarkerPhase} (hOk : ViewOk (store.seenBy t) phase.marks)
    (hPhase : MarkerPhaseOk (store.seenBy t) phase)
    (hInTime : ∀ ending cleared, phase = .updating ending cleared → ending.yields = true →
      ∀ id job, (store.seenBy t).jobs.view id = some job → ending.selects now job = true →
        (ending.sets job).state.active = false → job.replaceExisting = true →
          ClearedInTime cleared id job)
    (h : advanceMarkers vault settings now t store phase = some (store', phase')) :
    Outcome t store store' phase' := by
  cases phase with
  | idle => cases h
  | returned => cases h
  | committing next =>
      cases h
      refine .committed hOk hPhase fun s hUnlocked => ?_
      cases next with
      | none => exact hUnlocked
      | some request => exact hUnlocked
  | clearingJob next userId jobId => exact outcome_clearingJob hOk hPhase h
  | writing next loaded memory => exact outcome_writing hOk hPhase h
  | starting request => exact outcome_starting hOk hPhase h
  | startRead request found => exact outcome_startRead hOk hPhase h
  | validating request => exact outcome_validating hOk hPhase h
  | clearingAll request telegramUserId generation => exact outcome_clearingAll hOk hPhase h
  | inserting request telegramUserId generation => exact outcome_inserting hOk hPhase h
  | stopping userId => exact outcome_stopping hOk hPhase h
  | stopRead loaded => exact outcome_stopRead hOk hPhase h
  | claimFailing begun jobId owner => exact outcome_claimFailing hOk hPhase h
  | claimCancelling begun jobId owner => exact outcome_claimCancelling hOk hPhase h
  | claimClearing begun jobId owner => exact outcome_claimClearing hOk hPhase h
  | claimUpdating begun jobId owner => exact outcome_claimUpdating hOk hPhase h
  | claimCommitting begun jobId owner matched =>
      cases h
      refine .committed hOk hPhase fun s hUnlocked => ?_
      split <;> exact hUnlocked
  | claimReading begun jobId owner => exact outcome_claimReading hOk hPhase h
  | persisting begun lease page => exact outcome_persisting hOk hPhase h
  | persistLocking begun lease page => exact outcome_persistLocking hOk hPhase h
  | persistReading lease page => exact outcome_persistReading hOk hPhase h
  | persistWriting lease page writes =>
      cases writes with
      | nil => exact outcome_fence hOk hPhase h
      | cons write writes => exact outcome_persistWriting hOk hPhase h
  | finalizing begun lease state error reason => exact outcome_finalizing hOk hPhase h
  | deleting lease => exact outcome_deleting hOk hPhase h
  | downgrading lease => exact outcome_downgrading hOk hPhase h
  | disconnecting userId => exact outcome_disconnecting hOk hPhase h
  | clearing ending => exact outcome_clearing hOk hPhase h
  | updating ending cleared => exact outcome_updating hOk hPhase (hInTime ending cleared rfl) h

end Outcomes

/-! ## Runs -/

/-- What holds of one call among the others. -/
structure MarkerCallOk (store : MarkerStore) (t : TransactionId) (phase : MarkerPhase) : Prop where
  view : ViewOk (store.seenBy t) phase.marks
  phase : MarkerPhaseOk (store.seenBy t) phase
  leases : ∀ lease ∈ store.leases, (store.seenBy t).KnownLease lease

/-- The invariant of the interleaved calls. -/
def MarkersOk (w : MarkerWorld) : Prop := ∀ t, MarkerCallOk w.store t (w.calls t)

/-- Nothing has been called, and no message carries a marker. -/
structure MarkerWorld.Initial (w : MarkerWorld) : Prop where
  idle : ∀ t, w.calls t = .idle
  unlocked : ∀ t, (w.store.seenBy t).Unlocked
  unmarked : ∀ key id, (w.store.messages.row key).committed ≠ some (some id)
  jobId : ∀ id job, (w.store.jobs.row id).committed = some job → job.id = id
  leases : w.store.leases = []

/-- When a requeue, a release or the end of expired stops cancels a replacement, its clearing
statement had selected the job, and no message of the job has been scanned since; or none has
been scanned at all. -/
def clearsInTime (w : MarkerWorld) : MarkerAction → Bool
  | .advance t => match w.calls t with
      | .updating ending cleared => !ending.yields ||
          (w.store.selectJobs t fun job => ending.selects w.now job &&
            !(ending.sets job).state.active && job.replaceExisting).all fun job =>
              job.messagesScanned == 0 || cleared.contains (job.id, job.messagesScanned)
      | _ => true
  | _ => true

def MarkerPhase.inFlight : MarkerPhase → Bool
  | .idle | .returned => false
  | _ => true

/-- No transaction is in flight. -/
def MarkerWorld.Quiescent (w : MarkerWorld) : Prop := ∀ t, (w.calls t).inFlight = false

/-- Every committed marker refers to an active replacement job of the message's user. -/
def MarkersReferToActive (w : MarkerWorld) : Prop :=
  ∀ key id, (w.store.messages.row key).committed = some (some id) →
    ∃ job, (w.store.jobs.row id).committed = some job ∧ job.replaceExisting = true ∧
      job.userId = key.userId ∧ job.state.active = true

section Runs

variable {vault : Vault} {settings : Settings} {w w' : MarkerWorld} {a : MarkerAction}
  {as : List MarkerAction} {t t' : TransactionId} {store store' : MarkerStore}
  {phase' : MarkerPhase}

theorem markersOk_initial (h : w.Initial) : MarkersOk w := by
  intro t
  have hUnmarked : MarkersLive (w.store.seenBy t).jobs.committed
      (w.store.seenBy t).messages.committed :=
    fun key id hMarked => absurd hMarked (h.unmarked key id)
  refine ⟨.of_unlocked hUnmarked h.jobId (h.unlocked t), ?_, fun lease hMem => ?_⟩
  · rw [h.idle t]
    exact h.unlocked t
  · rw [h.leases] at hMem
    cases hMem

theorem markersRefer_of_ok (h : MarkersOk w) : MarkersReferToActive w := by
  intro key id hMarked
  obtain ⟨job, hJob, hLive⟩ := (h 0).view.live key id hMarked
  exact ⟨job, hJob, hLive.replaceExisting, hLive.userId, hLive.active⟩

/-- A lease stays known while the jobs evolve. -/
theorem knownLease_of_committed {s s' : MarkerView} {lease : ScanLease}
    (hSame : s'.jobs.committed = s.jobs.committed) (h : s.KnownLease lease) :
    s'.KnownLease lease := by
  obtain ⟨job, hJob, hRest⟩ := h
  exact ⟨job, hSame ▸ hJob, hRest⟩

theorem markerPhaseOk_begins {now : Instant} {s : MarkerView} {call : MarkerCall}
    (hUnlocked : s.Unlocked) (hKnown : ∀ lease, call.lease = some lease → s.KnownLease lease) :
    MarkerPhaseOk s (call.begins now) := by
  have hYields {lease : ScanLease} {ending : JobStatement} (h : ending.yields = true) :
      MarkerPhaseOk s (clearingOf lease ending) := by
    unfold clearingOf
    split
    · exact ⟨hUnlocked.jobs, .yields h⟩
    · exact ⟨hUnlocked.jobs, .yields h nofun⟩
  cases call with
  | renew lease => exact ⟨hUnlocked.jobs, .renews now lease⟩
  | persistPage lease page => exact ⟨hUnlocked, hKnown lease rfl⟩
  | requeue lease => exact hYields rfl
  | release lease => exact hYields rfl
  | finalize lease state error reason => exact ⟨hUnlocked, hKnown lease rfl⟩
  | terminalizeExpired => exact ⟨hUnlocked.jobs, .yields rfl⟩
  | _ => exact hUnlocked

/-- The call that takes the step. -/
theorem Outcome.own {phase : MarkerPhase} (h : Outcome t store store' phase')
    (hOk : MarkerCallOk store t phase) : MarkerCallOk store' t phase' := by
  cases h with
  | statement hStatement hCommitted hView hPhase =>
      refine ⟨hStatement.own ▸ hView, hStatement.own ▸ hPhase, fun lease hMem => ?_⟩
      rw [hStatement.own]
      exact knownLease_of_committed hCommitted (hOk.leases lease (hStatement.leases ▸ hMem))
  | committed hView hSettled hPhase =>
      refine ⟨?_, ?_, fun lease hMem => ?_⟩
      · rw [seenBy_commit]
        exact hView.commit hSettled
      · rw [seenBy_commit]
        exact hPhase _ unlocked_commit
      · rw [seenBy_commit]
        obtain ⟨job, hJob, hUser, hReplace⟩ := hOk.leases lease hMem
        obtain ⟨job', hJob', hFollows⟩ := hView.view_of_committed hJob
        exact ⟨job', hJob', hFollows.userId.trans hUser, hFollows.replaceExisting.trans hReplace⟩
  | rolledBack hStatement hCommitted hView =>
      refine ⟨?_, ?_, fun lease hMem => ?_⟩
      · rw [seenBy_rollback, hStatement.own]
        exact hView.rollback
      · rw [seenBy_rollback]
        exact unlocked_rollback
      · rw [seenBy_rollback, hStatement.own]
        exact knownLease_of_committed hCommitted (hOk.leases lease (hStatement.leases ▸ hMem))
  | claimed hUnlocked hKnown =>
      exact ⟨.of_unlocked hOk.view.live hOk.view.jobId hUnlocked, hUnlocked, fun lease hMem =>
        (hKnown lease hMem).elim (hOk.leases lease) fun hNew => hNew⟩

/-- The other calls. -/
theorem Outcome.others {phase : MarkerPhase} (h : Outcome t store store' phase') (hNe : t' ≠ t)
    (hOk : MarkerCallOk store t' phase) : MarkerCallOk store' t' phase := by
  cases h with
  | statement hStatement hCommitted hView hPhase =>
      have hSame := hStatement.others t' hNe
      exact ⟨hSame ▸ hOk.view, hSame ▸ hOk.phase, fun lease hMem =>
        hSame ▸ hOk.leases lease (hStatement.leases ▸ hMem)⟩
  | committed hView hSettled hPhase =>
      have hBeside : Beside (store.seenBy t') (store.seenBy t) := beside_of_ne hNe
      have hAfter : (store.commit t).seenBy t' = (store.seenBy t').after (store.seenBy t) :=
        seenBy_commit_of_ne hNe
      exact ⟨hAfter ▸ hOk.view.after hBeside hView hSettled, hAfter ▸ hOk.phase.after hBeside hView,
        fun lease hMem => hAfter ▸ Known.after (hOk.leases lease hMem) hBeside hView⟩
  | @rolledBack locked _ _ hStatement hCommitted hView =>
      have hSame : (locked.rollback t).seenBy t' = store.seenBy t' :=
        (seenBy_rollback_of_ne hNe).trans (hStatement.others t' hNe)
      exact ⟨hSame ▸ hOk.view, hSame ▸ hOk.phase, fun lease hMem =>
        hSame ▸ hOk.leases lease (hStatement.leases ▸ hMem)⟩
  | claimed hUnlocked hKnown =>
      exact ⟨hOk.view, hOk.phase, fun lease hMem =>
        (hKnown lease hMem).elim (hOk.leases lease) fun hNew => hNew⟩

/-- The step of one call keeps the invariant of all. -/
theorem markersOk_of_outcome {now : Instant} (h : MarkersOk w)
    (hOutcome : Outcome t w.store store' phase') :
    MarkersOk ⟨now, store', Function.update w.calls t phase'⟩ :=
  (Function.forall_update_iff w.calls fun t phase => MarkerCallOk store' t phase).mpr
    ⟨hOutcome.own (h t), fun t' hNe => hOutcome.others hNe (h t')⟩

theorem markersOk_step (h : MarkersOk w) (hInTime : clearsInTime w a = true)
    (hStep : w.step vault settings a = some w') : MarkersOk w' := by
  cases a with
  | tick elapsed =>
      cases hStep
      exact h
  | begin t call =>
      simp only [MarkerWorld.step] at hStep
      split at hStep
      · rename_i hIdle
        split at hStep
        · rename_i hLease
          cases hStep
          have hUnlocked : (w.store.seenBy t).Unlocked :=
            (hIdle ▸ (h t).phase : MarkerPhaseOk _ .idle)
          refine (Function.forall_update_iff w.calls fun t phase =>
            MarkerCallOk w.store t phase).mpr ⟨⟨?_, ?_, (h t).leases⟩, fun t' _ => h t'⟩
          · exact .of_unlocked (h t).view.live (h t).view.jobId hUnlocked
          · refine markerPhaseOk_begins hUnlocked fun lease hCall => ?_
            rw [hCall, Option.all_some, List.contains_iff_mem] at hLease
            exact (h t).leases lease hLease
        · cases hStep
      · cases hStep
  | advance t =>
      obtain ⟨⟨store', phase'⟩, hAdvance, rfl⟩ := Option.map_eq_some_iff.mp hStep
      refine markersOk_of_outcome h (outcome_of_advance (h t).view (h t).phase ?_ hAdvance)
      intro ending cleared hUpdating hYields id job hView hSelects hEnd hReplace
      simp only [clearsInTime, hUpdating, hYields, Bool.not_true, Bool.false_or,
        List.all_eq_true] at hInTime
      have hMem := hInTime job (mem_selectJobs.mpr ⟨id, hView, by
        rw [hSelects, hEnd, hReplace]
        rfl⟩)
      rw [(h t).view.view_id hView, Bool.or_eq_true, beq_iff_eq, List.contains_iff_mem] at hMem
      exact hMem
  | raise t =>
      cases hStep
      exact markersOk_of_outcome h (.gaveUp (h t).view)

/-- In every run in which the clearing statements come in time, every committed marker refers
to an active replacement job of its user, whenever no transaction is in flight (and else). -/
theorem markers_end_with_job (hStart : w.Initial)
    (hInTime : ∀ u a v, StepOf (MarkerWorld.step vault settings) w as u a v →
      clearsInTime u a = true) {u : MarkerWorld}
    (hVisit : Visits (MarkerWorld.step vault settings) w as u) : MarkersReferToActive u :=
  markersRefer_of_ok (visits_induct (markersOk_initial hStart) hVisit fun x a y hStep hx =>
    markersOk_step hx (hInTime x a y hStep) hStep.step)

end Runs

/-! ## A stop between the two statements of a requeue -/

/-- One connected user with one message. -/
def oneMessage : MarkerWorld :=
  ⟨0, ⟨.ofList [(1, demoConnection)], .ofList [], .ofList [(⟨1, 1, 200, 9⟩, none)], 2, []⟩,
    fun _ => .idle⟩

theorem oneMessage_initial : oneMessage.Initial where
  idle _ := rfl
  unlocked t := by
    refine ⟨fun k => ?_, fun k => ?_, fun k => ?_⟩ <;>
      exact LockedTable.own_ofList
  unmarked key id h := by
    rw [oneMessage, LockedTable.row_ofList] at h
    dsimp only at h
    simp only [List.lookup_cons, List.lookup_nil] at h
    split at h <;> simp at h
  jobId id job h := by
    rw [oneMessage, LockedTable.row_ofList] at h
    cases h
  leases := rfl

def replacementLease : ScanLease :=
  { jobId := 1, userId := 1, pageSize := 2, telegramUserId := 200, connectionGeneration := 3
    messagesScanned := 0, lastMessageId := none, maxMessages := 4, maxRuntimeSeconds := 3600
    startedAt := 0, owner := 7, replaceExisting := true }

def statements (n : Nat) (t : TransactionId) : List MarkerAction := List.replicate n (.advance t)

/-- A replacement has scanned the message, and the requeue has run its clearing statement. -/
def requeueCleared : List MarkerAction :=
  .begin 1 (.start ⟨1, 2, true, 1, .id 200, ⟨0, "session"⟩⟩) :: statements 6 1 ++
    .begin 2 (.claim 1 7) :: statements 6 2 ++
    .begin 3 (.persistPage replacementLease ⟨[scannedMessage 0 9 (textMessage "note")], true,
      some 9⟩) :: statements 6 3 ++
    .begin 4 (.requeue replacementLease) :: statements 1 4

/-- The requeue writes the job and commits, then the user stops it. -/
def stopAfterwards : List MarkerAction :=
  requeueCleared ++ statements 2 4 ++ .begin 5 (.stop 1) :: statements 5 5

/-- The stop commits first, so that the requeue cancels the job. -/
def stopBetween : List MarkerAction :=
  requeueCleared ++ .begin 5 (.stop 1) :: statements 4 5 ++ statements 2 4

def MarkerAction.transaction : MarkerAction → Option TransactionId
  | .tick _ => none
  | .begin t _ | .advance t | .raise t => some t

def markersAfter (as : List MarkerAction) : MarkerWorld :=
  (run (MarkerWorld.step demoEnv.vault demoEnv.settings) oneMessage as).getD oneMessage

theorem markers_end_stop_afterwards :
    (∃ w, run (MarkerWorld.step demoEnv.vault demoEnv.settings) oneMessage stopAfterwards = some w) ∧
      ∀ u, Visits (MarkerWorld.step demoEnv.vault demoEnv.settings) oneMessage stopAfterwards u →
        MarkersReferToActive u := by
  refine ⟨⟨markersAfter stopAfterwards, run_getD (by decide +kernel)⟩, fun u hVisit => ?_⟩
  refine markers_end_with_job oneMessage_initial (fun x a y hStep => ?_) hVisit
  exact of_everyStep (by decide +kernel) hStep

/-- A transaction that takes no step of the run is where it was. -/
theorem calls_of_run {vault : Vault} {settings : Settings} {w w' : MarkerWorld}
    {as : List MarkerAction} {t : TransactionId}
    (hRun : run (MarkerWorld.step vault settings) w as = some w')
    (hOther : ∀ a ∈ as, a.transaction ≠ some t) : w'.calls t = w.calls t := by
  refine run_induct (I := fun u => u.calls t = w.calls t) rfl hRun fun u a v hStep hCalls => ?_
  rw [← hCalls]
  have hNe := hOther a hStep.mem
  have hTaken := hStep.step
  cases a with
  | tick elapsed =>
      cases hTaken
      rfl
  | begin t' call =>
      have hThis : t ≠ t' := fun h => hNe (congrArg some h.symm)
      simp only [MarkerWorld.step] at hTaken
      split at hTaken
      · split at hTaken
        · cases hTaken
          exact Function.update_of_ne hThis _ _
        · cases hTaken
      · cases hTaken
  | advance t' =>
      have hThis : t ≠ t' := fun h => hNe (congrArg some h.symm)
      obtain ⟨⟨store', phase'⟩, -, rfl⟩ := Option.map_eq_some_iff.mp hTaken
      exact Function.update_of_ne hThis _ _
  | raise t' =>
      have hThis : t ≠ t' := fun h => hNe (congrArg some h.symm)
      cases hTaken
      exact Function.update_of_ne hThis _ _

/-- The cancelled job stays on the message. -/
theorem marker_outlives_job :
    oneMessage.Initial ∧ ∃ w : MarkerWorld,
      run (MarkerWorld.step demoEnv.vault demoEnv.settings) oneMessage stopBetween = some w ∧
        w.Quiescent ∧ ¬ MarkersReferToActive w := by
  have hRun : run (MarkerWorld.step demoEnv.vault demoEnv.settings) oneMessage stopBetween =
      some (markersAfter stopBetween) := run_getD (by decide +kernel)
  refine ⟨oneMessage_initial, markersAfter stopBetween, hRun, ?_, ?_⟩
  · intro t
    by_cases hTaken : ∀ a ∈ stopBetween, a.transaction ≠ some t
    · rw [calls_of_run hRun hTaken]
      rfl
    · have hMem : t ∈ stopBetween.filterMap MarkerAction.transaction := by
        simpa [List.mem_filterMap] using hTaken
      have hEnded : ∀ t ∈ stopBetween.filterMap MarkerAction.transaction,
          ((markersAfter stopBetween).calls t).inFlight = false := by decide +kernel
      exact hEnded t hMem
  · intro hRefer
    obtain ⟨job, hJob, -, -, hActive⟩ := hRefer ⟨1, 1, 200, 9⟩ 1 (by decide +kernel)
    have hCancelled : ((markersAfter stopBetween).store.jobs.row 1).committed.map (·.state) =
        some .cancelled := by decide +kernel
    rw [hJob, Option.map_some, Option.some.injEq] at hCancelled
    rw [hCancelled] at hActive
    cases hActive

/-! ## The end of expired stops, alone -/

/-- The key of a message that is filed under an account. -/
def Message.markerKey (m : Message) : Option MessageKey :=
  m.telegramUserId.map fun telegramUserId => ⟨m.id, m.userId, telegramUserId, m.telegramId⟩

/-- The committed jobs and markers are those of the database. -/
structure MarkerStore.Shows (store : MarkerStore) (db : Database) : Prop where
  jobs : ∀ id, (store.jobs.row id).committed = db.jobs.find? id
  markers : ∀ key, (store.messages.row key).committed =
    ((db.messages.find? key.id).filter fun m => m.markerKey == some key).map
      Message.lastSeenReplacementJobId

section Alone

variable {vault : Vault} {settings : Settings} {w : MarkerWorld} {t : TransactionId}
  {store : MarkerStore} {db : Database} {p : ScanJob → Bool}

theorem MarkerStore.Shows.markedBy (h : store.Shows db) (hUnlocked : (store.seenBy t).jobs.Unlocked)
    (m : Message) : store.markedBy t p m.lastSeenReplacementJobId = db.markedBy p m := by
  unfold MarkerStore.markedBy Database.markedBy
  congr 1
  funext id
  rw [← LockedTable.seenBy_view, ← h.jobs]
  exact congrArg (Option.any p) (hUnlocked.view (k := id))

/-- Nobody is waited for when nobody has a lock. -/
theorem clearMarkers_of_free (h : store.messages.Free) (q : MessageKey → Marker → Bool) :
    ∃ store', store.clearMarkers t q = some store' ∧ store'.jobs = store.jobs := by
  obtain ⟨messages, hMessages⟩ := h.rewrite (t := t) q fun _ => some none
  refine ⟨{ store with messages := messages }, ?_, rfl⟩
  unfold MarkerStore.clearMarkers LockedTable.update
  rw [hMessages, Option.map_some]

theorem updateJobs_of_free (h : store.jobs.Free) (f : ScanJob → ScanJob) :
    ∃ store', store.updateJobs t p f = some store' := by
  obtain ⟨jobs, hJobs⟩ := h.rewrite (t := t) (fun _ => p) fun job => some (f job)
  refine ⟨{ store with jobs := jobs }, ?_⟩
  unfold MarkerStore.updateJobs LockedTable.update
  rw [hJobs, Option.map_some]

/-- Markers are cleared in both. -/
theorem MarkerStore.Shows.cleared (h : store.Shows db) (hJobs : (store.seenBy t).jobs.Unlocked)
    (hMessages : (store.seenBy t).messages.Unlocked) (key : MessageKey) :
    ((store.seenBy t).messages.write (fun _ => store.markedBy t p) fun _ => some none).view key =
      (((db.clearMarkers (db.markedBy p)).messages.find? key.id).filter fun m =>
        m.markerKey == some key).map Message.lastSeenReplacementJobId := by
  have hKey (m : Message) : (if db.markedBy p m then m.unmark else m).markerKey = m.markerKey := by
    split <;> rfl
  rw [Seen.view_update, hMessages.view, Database.clearMarkers, Database.updateMessages_messages,
    Table.find?_update]
  refine (congrArg _ (h.markers key)).trans ?_
  cases db.messages.find? key.id with
  | none => rfl
  | some m =>
      rw [Option.map_some, Option.filter_some, Option.filter_some, hKey]
      by_cases hThis : (m.markerKey == some key) = true
      · rw [if_pos hThis, if_pos hThis, Option.map_some, Option.map_some, Option.map_some,
          h.markedBy hJobs m]
        split <;> rfl
      · rw [if_neg hThis, if_neg hThis]
        rfl

/-- With the tables to itself, the end of expired stops does in its two statements what the
request does as a whole. -/
theorem terminalizeExpired_alone (hIdle : w.calls t = .idle) (hJobs : w.store.jobs.Free)
    (hMessages : w.store.messages.Free) (hShows : w.store.Shows db) :
    ∃ w', run (MarkerWorld.step vault settings) w
        (.begin t .terminalizeExpired :: statements 3 t) = some w' ∧
      w'.calls t = .returned ∧ w'.store.Shows (terminalizeExpiredStoppingJobs w.now db).1 := by
  let ending := JobStatement.terminalize w.now
  obtain ⟨cleared, hCleared, hSameJobs⟩ := clearMarkers_of_free (t := t) hMessages
    fun key marker => ending.clearsOf key && w.store.markedBy t ending.clearsFor marker
  obtain ⟨ended, hEnded⟩ := updateJobs_of_free (t := t) (p := ending.selects w.now)
    (hSameJobs ▸ hJobs) ending.sets
  let found := (w.store.selectJobs t ending.clearsFor).map fun job => (job.id, job.messagesScanned)
  let calls (phase : MarkerPhase) := Function.update w.calls t phase
  have hBegin : w.step vault settings (.begin t .terminalizeExpired) =
      some ⟨w.now, w.store, calls (.clearing ending)⟩ := by
    simp only [MarkerWorld.step, hIdle]
    rfl
  have hAdvance {store' : MarkerStore} {phase phase' : MarkerPhase} {before : MarkerStore}
      (h : advanceMarkers vault settings w.now t before phase = some (store', phase')) :
      MarkerWorld.step vault settings ⟨w.now, before, calls phase⟩ (.advance t) =
        some ⟨w.now, store', calls phase'⟩ := by
    simp only [MarkerWorld.step, calls, Function.update_self, h, Option.map_some,
      Function.update_idem]
  have hClear : advanceMarkers vault settings w.now t w.store (.clearing ending) =
      some (cleared, .updating ending found) := by
    simp only [advanceMarkers, hCleared, Option.map_some, found]
  have hUpdate : advanceMarkers vault settings w.now t cleared (.updating ending found) =
      some (ended, .committing none) := by
    simp only [advanceMarkers, hEnded, Option.map_some]
  refine ⟨⟨w.now, ended.commit t, calls .returned⟩, ?_, ?_, ?_⟩
  · exact run_cons.mpr ⟨_, hBegin, run_cons.mpr ⟨_, hAdvance hClear, run_cons.mpr
      ⟨_, hAdvance hUpdate, run_cons.mpr ⟨_, hAdvance rfl, rfl⟩⟩⟩⟩
  · exact Function.update_self _ _ _
  · have hJobsFree := hJobs.unlocked (t := t)
    have hView (id : JobId) : (w.store.seenBy t).jobs.view id = db.jobs.find? id :=
      hJobsFree.view.trans (hShows.jobs id)
    have hSeen : ended.seenBy t = { w.store.seenBy t with
        messages := (w.store.seenBy t).messages.write
          (fun key marker => ending.clearsOf key && w.store.markedBy t ending.clearsFor marker)
          fun _ => some none
        jobs := (w.store.seenBy t).jobs.write (fun _ => ending.selects w.now)
          fun job => some (ending.sets job) } := by
      rw [(updateJobs_eq_some hEnded).own, (clearMarkers_eq_some hCleared).own]
    have hCommit : (ended.commit t).seenBy t = _ :=
      seenBy_commit.trans (congrArg MarkerView.commit hSeen)
    refine ⟨fun id => ?_, fun key => ?_⟩
    · refine (congrArg (fun s => s.jobs.committed id) hCommit).trans ?_
      refine (Seen.view_update (s := (w.store.seenBy t).jobs)).trans ?_
      rw [hView]
      exact (Table.find?_update db.jobs (ending.selects w.now) ending.sets (fun _ => rfl) id).symm
    · refine (congrArg (fun s => s.messages.committed key) hCommit).trans ?_
      exact hShows.cleared hJobsFree hMessages.unlocked key

end Alone

end SavedOrganizer
