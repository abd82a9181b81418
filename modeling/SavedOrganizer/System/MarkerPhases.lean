import SavedOrganizer.System.MarkerViews

/-!
# What holds between the statements of a call

`MarkerPhaseOk` says for each point of a call what its transaction has locked, ended and cleared.
Only its own statements change that: another transaction's statements leave its view as it
is, and another one's commit keeps `MarkerPhaseOk` (`MarkerPhaseOk.after`).

A cancellation clears the markers of the jobs that it is going to end, and its lock on the
connection keeps new pages away. A requeue, a release and the end of expired stops have no
lock yet when they clear; all they can rely on is that a job's markers are gone as long as
its `messages_scanned` stays the same (`EndingOk.yields`).
-/

namespace SavedOrganizer

namespace JobStatement

/-- The endings that clear markers without a lock. -/
def yields : JobStatement → Bool
  | requeue _ _ => true
  | release _ _ => true
  | terminalize _ => true
  | _ => false

/-- The endings that clear markers under the lock of the user's connection. -/
def cancelsUser : JobStatement → Option UserId
  | downgrade _ lease => some lease.userId
  | cancelActive _ userId => some userId
  | _ => none

section Clears

variable {ending : JobStatement} {job job' : ScanJob} {key : MessageKey} {clock : Instant}
  {userId : UserId}

/-- Every statement on a job changes an active one. -/
theorem active_of_selects (h : ending.selects clock job = true) : job.state.active = true := by
  have hClaimable {now : Instant} (h : job.claimable now = true) : job.state.active = true := by
    simp only [ScanJob.claimable, Bool.or_eq_true, Bool.and_eq_true, beq_iff_eq] at h
    rcases h with hState | ⟨hState, -⟩ <;> rw [hState] <;> rfl
  have hStop {now : Instant} (h : job.abandonedStop now = true) : job.state.active = true := by
    simp only [ScanJob.abandonedStop, Bool.and_eq_true, beq_iff_eq] at h
    rw [h.1]
    rfl
  have hHolds {lease : ScanLease} {now : Instant} (h : lease.holds now job = true) :
      job.state.active = true := ScanLease.active_of_owns (ScanLease.owns_of_holds h)
  cases ending with
  | failWithoutProvenance now jobId =>
      simp only [selects, Bool.and_eq_true] at h
      exact h.1.2
  | cancelStopped now jobId =>
      simp only [selects, Bool.and_eq_true] at h
      exact hStop h.2
  | claim now jobId owner =>
      simp only [selects, claimedBy, Bool.and_eq_true] at h
      exact hClaimable h.2
  | release now lease => exact ScanLease.active_of_owns h
  | terminalize now => exact hStop h
  | downgrade now lease =>
      simp only [selects, ScanLease.downgrades, Bool.and_eq_true] at h
      exact h.2
  | cancelActive now userId =>
      simp only [selects, ScanJob.activeOf, Bool.and_eq_true] at h
      exact h.2
  | _ => exact hHolds h

theorem follows_sets (h : ending.selects clock job = true) : JobFollows job (ending.sets job) := by
  have hActive := active_of_selects h
  cases ending with
  | recordPage lease messages nextOffsetId =>
      exact ⟨rfl, rfl, rfl, rfl, rfl, Nat.le_add_right _ _, fun _ => hActive⟩
  | _ => exact ⟨rfl, rfl, rfl, rfl, rfl, Nat.le_refl _, fun _ => hActive⟩

theorem userId_of_owns {lease : ScanLease} (h : lease.owns job = true) :
    job.userId = lease.userId :=
  (ScanLease.names_iff.mp (ScanLease.names_of_owns h)).2.1

/-- A job's markers are on messages that its clearing statement looks at. -/
theorem clearsOf_of_clearsFor (h : ending.clearsFor job = true) (hUser : job.userId = key.userId) :
    ending.clearsOf key = true := by
  cases ending with
  | requeue now lease =>
      simp only [clearsFor, Bool.and_eq_true] at h
      exact beq_iff_eq.mpr (hUser.symm.trans (userId_of_owns (ScanLease.owns_of_holds h.1)))
  | release now lease =>
      simp only [clearsFor, Bool.and_eq_true] at h
      exact beq_iff_eq.mpr (hUser.symm.trans (userId_of_owns h.1))
  | downgrade now lease =>
      simp only [clearsFor, ScanLease.downgrades, Bool.and_eq_true, beq_iff_eq] at h
      exact beq_iff_eq.mpr (hUser.symm.trans h.1.1.1)
  | cancelActive now userId =>
      simp only [clearsFor, ScanJob.activeOf, Bool.and_eq_true, beq_iff_eq] at h
      exact beq_iff_eq.mpr (hUser.symm.trans h.1)
  | _ => rfl

/-- A cancellation ends what it has cleared. -/
theorem clearsFor_of_selects (hCancels : ending.cancelsUser = some userId)
    (h : ending.selects clock job = true) : ending.clearsFor job = true := by
  cases ending with
  | downgrade now lease => exact h
  | cancelActive now userId => exact h
  | _ => cases hCancels

theorem userId_of_cancels (hCancels : ending.cancelsUser = some userId)
    (h : ending.clearsFor job = true) : job.userId = userId := by
  cases ending with
  | downgrade now lease =>
      cases hCancels
      simp only [clearsFor, ScanLease.downgrades, Bool.and_eq_true, beq_iff_eq] at h
      exact h.1.1.1
  | cancelActive now userId =>
      cases hCancels
      simp only [clearsFor, ScanJob.activeOf, Bool.and_eq_true, beq_iff_eq] at h
      exact h.1
  | _ => cases hCancels

/-- A job that a cancellation is going to end was so before. -/
theorem clearsFor_of_follows (hCancels : ending.cancelsUser = some userId)
    (hFollows : JobFollows job job') (h : ending.clearsFor job' = true) :
    ending.clearsFor job = true := by
  cases ending with
  | downgrade now lease =>
      simp only [clearsFor, ScanLease.downgrades, Bool.and_eq_true, beq_iff_eq] at h ⊢
      rw [← hFollows.userId, ← hFollows.telegramUserId, ← hFollows.connectionGeneration]
      exact ⟨h.1, hFollows.active h.2⟩
  | cancelActive now userId =>
      simp only [clearsFor, ScanJob.activeOf, Bool.and_eq_true, beq_iff_eq] at h ⊢
      rw [← hFollows.userId]
      exact ⟨h.1, hFollows.active h.2⟩
  | _ => cases hCancels

end Clears

end JobStatement

/-! ## The points of a call -/

/-- The messages a page is about to mark. -/
def MarkerPhase.marks : MarkerPhase → JobId → Prop
  | .persistWriting lease page _, id => id = lease.jobId ∧ page.messages ≠ []
  | _, _ => False

/-- The write-back of a job in memory ends it only as cancelled. -/
structure Flushes (loaded memory job : ScanJob) : Prop where
  follows : JobFollows job (flushJob loaded memory job)
  cancels : (flushJob loaded memory job).state.active = false → memory.state = .cancelled

namespace MarkerView

/-- No page of the user can be written: the connection is locked, or there is none. -/
def ConnectionKept (s : MarkerView) (userId : UserId) : Prop :=
  s.connections.own userId ≠ none ∨ s.connections.committed userId = none

/-- The columns of the lease that never change. -/
def KnownLease (s : MarkerView) (lease : ScanLease) : Prop :=
  s.Known lease.jobId lease.userId lease.replaceExisting

/-- The columns of the job that never change. -/
def KnownJob (s : MarkerView) (job : ScanJob) : Prop :=
  s.Known job.id job.userId job.replaceExisting

/-- A page has locked its connection and its job. -/
structure Holding (s : MarkerView) (lease : ScanLease) : Prop where
  connection : s.connections.own lease.userId ≠ none
  job : ∃ before job, s.jobs.committed lease.jobId = some before ∧
    s.jobs.own lease.jobId = some (some job) ∧ job.replaceExisting = lease.replaceExisting ∧
      job.userId = lease.userId
  active : ∀ id job, s.jobs.own id = some (some job) → job.state.active = true

end MarkerView

open MarkerView

/-- The markers of the job are gone until another message of it is scanned. -/
def ClearedUntil (s : MarkerView) (id : JobId) (scanned : Nat) : Prop :=
  ∃ job, s.jobs.committed id = some job ∧ scanned ≤ job.messagesScanned ∧
    (job.messagesScanned = scanned → s.Unmarked id)

/-- Before the clearing statement. -/
inductive ClearingOk (s : MarkerView) (ending : JobStatement) : Prop
  | yields (hYields : ending.yields = true)
  | cancels (userId : UserId) (hCancels : ending.cancelsUser = some userId)
      (hKept : s.ConnectionKept userId)

/-- Between the clearing statement and the `UPDATE`. -/
inductive EndingOk (s : MarkerView) (cleared : List (JobId × Nat)) : JobStatement → Prop
  | renews (now : Instant) (lease : ScanLease) : EndingOk s cleared (.renew now lease)
  | yields {ending : JobStatement} (hYields : ending.yields = true)
      (hCleared : ∀ id scanned, (id, scanned) ∈ cleared → ClearedUntil s id scanned) :
      EndingOk s cleared ending
  | cancels {ending : JobStatement} (userId : UserId) (hCancels : ending.cancelsUser = some userId)
      (hKept : s.ConnectionKept userId)
      (hCleared : ∀ id job, s.jobs.committed id = some job → ending.clearsFor job = true →
        s.Unmarked id) : EndingOk s cleared ending

/-- What the statements of the call have done so far. -/
def MarkerPhaseOk (s : MarkerView) : MarkerPhase → Prop
  | .idle => s.Unlocked
  | .returned => s.Unlocked
  | .committing _ => s.Settled none
  | .clearingJob _ userId jobId =>
      s.Settled (some jobId) ∧ ∃ replaceExisting, s.Known jobId userId replaceExisting
  | .writing _ loaded memory => s.Settled none ∧ s.KnownJob loaded ∧
      ((∀ job, Flushes loaded memory job) ∨
        s.jobs.own loaded.id = some (some loaded) ∧ Flushes loaded memory loaded)
  | .starting _ => s.Unlocked
  | .startRead _ found => s.Unlocked ∧ ∀ job, found = some job → s.KnownJob job
  | .validating _ => s.Unlocked
  | .clearingAll request _ _ => s.jobs.Unlocked ∧ s.connections.own request.userId ≠ none
  | .inserting request _ _ => s.jobs.Unlocked ∧ s.connections.own request.userId ≠ none
  | .stopping _ => s.Unlocked
  | .stopRead loaded => s.Settled none ∧ s.KnownJob loaded ∧
      s.jobs.own loaded.id = some (some loaded) ∧ loaded.state.active = true
  | .claimFailing _ _ _ => s.Unlocked
  | .claimCancelling _ jobId _ => ∀ id job, s.jobs.own id = some (some job) →
      id = jobId ∧ (job.state = .failed ∨ job.state = .cancelled)
  | .claimClearing _ jobId _ => ∀ id job, s.jobs.own id = some (some job) →
      id = jobId ∧ (job.state = .failed ∨ job.state = .cancelled)
  | .claimUpdating _ _ _ => s.Settled none
  | .claimCommitting _ _ _ _ => s.Settled none
  | .claimReading _ _ _ => s.Unlocked
  | .persisting _ lease _ => s.Unlocked ∧ s.KnownLease lease
  | .persistLocking _ lease _ =>
      s.jobs.Unlocked ∧ s.connections.own lease.userId ≠ none ∧ s.KnownLease lease
  | .persistReading lease _ => s.Holding lease
  | .persistWriting lease page writes => s.Holding lease ∧ (page.messages = [] → writes = []) ∧
      ∀ key loaded, MessageWrite.refresh key loaded ∈ writes → key.userId = lease.userId
  | .finalizing _ lease _ _ _ => s.Unlocked ∧ s.KnownLease lease
  | .deleting lease => s.Settled (some lease.jobId) ∧ s.KnownLease lease
  | .downgrading _ => s.Unlocked
  | .disconnecting _ => s.Unlocked
  | .clearing ending => s.jobs.Unlocked ∧ ClearingOk s ending
  | .updating ending cleared => s.jobs.Unlocked ∧ EndingOk s cleared ending

/-! ## A commit beside the call -/

section After

variable {s other : MarkerView} {marks : JobId → Prop} {phase : MarkerPhase} {id : JobId}
  {userId : UserId} {ending : JobStatement} {cleared : List (JobId × Nat)} {lease : ScanLease}

theorem MarkerView.Unlocked.after (h : s.Unlocked) : (s.after other).Unlocked :=
  ⟨h.connections, h.jobs, h.messages⟩

theorem MarkerView.ConnectionKept.after (h : s.ConnectionKept userId) (hBeside : Beside s other)
    (hOther : ViewOk other fun _ => False) : (s.after other).ConnectionKept userId := by
  rcases h with hOwn | hNone
  · exact Or.inl hOwn
  · refine Or.inr ?_
    have hSame : other.connections.committed userId = none :=
      congrFun hBeside.connections_committed userId ▸ hNone
    have hFree : other.connections.own userId = none := by
      by_contra hOwn
      exact hOther.connections userId hOwn hSame
    exact (Seen.view_of_none hFree).trans hSame

/-- The other transaction has not locked the connection. -/
theorem MarkerView.ConnectionKept.free (h : s.ConnectionKept userId) (hBeside : Beside s other)
    (hOther : ViewOk other fun _ => False) : other.connections.own userId = none := by
  by_contra hOwn
  rcases h with hKept | hNone
  · exact hKept (hBeside.connections userId hOwn)
  · exact hOther.connections userId hOwn (congrFun hBeside.connections_committed userId ▸ hNone)

theorem ClearedUntil.after {scanned : Nat} (h : ClearedUntil s id scanned)
    (hBeside : Beside s other) (hOther : ViewOk other fun _ => False) :
    ClearedUntil (s.after other) id scanned := by
  obtain ⟨job, hJob, hLe, hCleared⟩ := h
  obtain ⟨job', hJob', hFollows⟩ := committed_after_follows hBeside hOther hJob
  refine ⟨job', hJob', Nat.le_trans hLe hFollows.scanned, fun hSame => ?_⟩
  have hScanned : job.messagesScanned = scanned :=
    Nat.le_antisymm (hSame ▸ hFollows.scanned) hLe
  rcases (hCleared hScanned).after hBeside hOther with hUnmarked | hCounts
  · exact hUnmarked
  · -- The other transaction has scanned a message of the job.
    obtain ⟨before, counted, hBefore, hOwn, hLt, -⟩ := hCounts
    rw [← hBeside.jobs_committed] at hBefore
    obtain rfl := Option.some.inj (hJob.symm.trans hBefore)
    obtain rfl := Option.some.inj ((Seen.view_of_own hOwn).symm.trans hJob')
    exact absurd (hScanned.trans hSame.symm) (Nat.ne_of_lt hLt)

theorem ClearingOk.after (h : ClearingOk s ending) (hBeside : Beside s other)
    (hOther : ViewOk other fun _ => False) : ClearingOk (s.after other) ending := by
  cases h with
  | yields hYields => exact .yields hYields
  | cancels userId hCancels hKept => exact .cancels userId hCancels (hKept.after hBeside hOther)

theorem EndingOk.after (h : EndingOk s cleared ending) (hBeside : Beside s other)
    (hOther : ViewOk other fun _ => False) : EndingOk (s.after other) cleared ending := by
  cases h with
  | renews now lease => exact .renews now lease
  | yields hYields hCleared =>
      exact .yields hYields fun id scanned hMem => (hCleared id scanned hMem).after hBeside hOther
  | cancels userId hCancels hKept hCleared =>
      have hFree : other.connections.own userId = none := hKept.free hBeside hOther
      refine .cancels userId hCancels (hKept.after hBeside hOther) fun id job hJob hClears => ?_
      have hUser : job.userId = userId := JobStatement.userId_of_cancels hCancels hClears
      -- The job was there before the commit, and its markers were cleared.
      obtain ⟨before, hBefore, hFollows⟩ :
          ∃ before, s.jobs.committed id = some before ∧ JobFollows before job := by
        rw [hBeside.jobs_committed]
        have hView : other.jobs.view id = some job := hJob
        cases hOwn : other.jobs.own id with
        | none => exact ⟨job, (Seen.view_of_none hOwn).symm.trans hView, .refl job⟩
        | some own =>
            obtain ⟨job', rfl, -, hOwnJob⟩ := hOther.jobs id own hOwn
            obtain rfl := Option.some.inj ((Seen.view_of_own hOwn).symm.trans hView)
            cases hOwnJob with
            | follows before hBefore hFollows => exact ⟨before, hBefore, hFollows⟩
            | added hNone hConnection => exact absurd (hUser ▸ hFree) hConnection
      have hUnmarked : s.Unmarked id :=
        hCleared id before hBefore (JobStatement.clearsFor_of_follows hCancels hFollows hClears)
      rcases hUnmarked.after hBeside hOther with hUnmarked | hCounts
      · exact hUnmarked
      · obtain ⟨-, counted, -, hOwn, -, hConnection⟩ := hCounts
        obtain rfl := Option.some.inj ((Seen.view_of_own hOwn).symm.trans hJob)
        exact absurd (hUser ▸ hFree) hConnection

theorem MarkerView.Holding.after (h : s.Holding lease) (hBeside : Beside s other) :
    (s.after other).Holding lease where
  connection := h.connection
  job := by
    obtain ⟨before, job, hBefore, hOwn, hRest⟩ := h.job
    refine ⟨before, job, ?_, hOwn, hRest⟩
    rw [← hBefore]
    exact Seen.committed_after hBeside.jobs_committed hBeside.jobs (hOwn ▸ Option.some_ne_none _)
  active := h.active

/-- The commit of another transaction keeps what the call relies on. -/
theorem MarkerPhaseOk.after (h : MarkerPhaseOk s phase) (hBeside : Beside s other)
    (hOther : ViewOk other fun _ => False) : MarkerPhaseOk (s.after other) phase := by
  cases phase with
  | committing next => exact MarkerView.Settled.after h hBeside hOther
  | clearingJob next userId jobId =>
      obtain ⟨hSettled, replaceExisting, hKnown⟩ := h
      exact ⟨hSettled.after hBeside hOther, replaceExisting, hKnown.after hBeside hOther⟩
  | writing next loaded memory =>
      obtain ⟨hSettled, hKnown, hFlushes⟩ := h
      exact ⟨hSettled.after hBeside hOther, Known.after hKnown hBeside hOther, hFlushes⟩
  | startRead request found =>
      exact ⟨Unlocked.after h.1, fun job hFound => Known.after (h.2 job hFound) hBeside hOther⟩
  | clearingAll request telegramUserId generation => exact h
  | inserting request telegramUserId generation => exact h
  | stopRead loaded =>
      obtain ⟨hSettled, hKnown, hRest⟩ := h
      exact ⟨hSettled.after hBeside hOther, Known.after hKnown hBeside hOther, hRest⟩
  | claimCancelling now jobId owner => exact h
  | claimClearing now jobId owner => exact h
  | claimUpdating now jobId owner => exact MarkerView.Settled.after h hBeside hOther
  | claimCommitting now jobId owner matched => exact MarkerView.Settled.after h hBeside hOther
  | persisting now lease page => exact ⟨Unlocked.after h.1, Known.after h.2 hBeside hOther⟩
  | persistLocking now lease page => exact ⟨h.1, h.2.1, Known.after h.2.2 hBeside hOther⟩
  | persistReading lease page => exact Holding.after h hBeside
  | persistWriting lease page writes => exact ⟨h.1.after hBeside, h.2⟩
  | finalizing now lease state error completionReason =>
      exact ⟨Unlocked.after h.1, Known.after h.2 hBeside hOther⟩
  | deleting lease => exact ⟨h.1.after hBeside hOther, Known.after h.2 hBeside hOther⟩
  | clearing ending => exact ⟨h.1, h.2.after hBeside hOther⟩
  | updating ending cleared => exact ⟨h.1, h.2.after hBeside hOther⟩
  | _ => exact Unlocked.after h

end After

end SavedOrganizer
