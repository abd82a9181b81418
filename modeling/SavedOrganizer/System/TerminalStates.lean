import SavedOrganizer.Library.Transition
import SavedOrganizer.Service.JobStatements
import SavedOrganizer.System.Store

/-!
# Terminal states under interleaving

The lease columns of a job row are consistent with its state in every committed version, for
every interleaving. A terminal state and its reason are kept, but for one write: `start`
decides on a `stopping` job it has read without a lock that its stop was abandoned, and
cancels it by primary key whatever the row is by then. A run keeps the terminal states
exactly if no `start` commits that over a row that has ended otherwise
(`terminal_absorbs_iff`).

A statement with a `WHERE` finds active rows only (`active_of_selects`), and `stop` has the
row locked.
-/

namespace SavedOrganizer

open Transition LockedRow

/-! ## What the statements do to a row -/

/-- The lease columns are those of the state. -/
structure LeaseColumns (job : ScanJob) : Prop where
  stopping : job.state = .stopping → job.stopRequested = true
  released : job.state = .pending ∨ job.state.active = false →
    job.leaseOwner = none ∧ job.leaseExpiresAt = none

/-- And only a job that has ended has a reason. -/
structure LeaseConsistent (job : ScanJob) : Prop extends LeaseColumns job where
  noReason : job.state.active = true → job.completionReason = none

/-- The row since a transaction has read it as `stopping`: it still is, under the lease that
was read, or the job has ended. -/
def StillStopped (loaded job : ScanJob) : Prop :=
  (job.state = .stopping ∧ job.leaseOwner = loaded.leaseOwner ∧
    (loaded.leaseExpiresAt = none → job.leaseExpiresAt = none)) ∨ job.state.active = false

/-- A version of a consistent row that may follow it. -/
structure Proceeds (job job' : ScanJob) : Prop where
  consistent : LeaseConsistent job'
  stopped : ∀ loaded, StillStopped loaded job → StillStopped loaded job'

/-- A terminal state stays, with its reason. -/
def KeepsEnd (job job' : ScanJob) : Prop :=
  job.state.active = false →
    job'.state = job.state ∧ job'.completionReason = job.completionReason

/-- A `finalize` is to a terminal state. -/
def JobStatement.EndsJob : JobStatement → Prop
  | finalize _ _ state _ _ => state.active = false
  | _ => True

section Rows

variable {job job' loaded : ScanJob} {now clock : Instant} {statement : JobStatement}

theorem proceeds_refl (h : LeaseConsistent job) : Proceeds job job := ⟨h, fun _ => id⟩

theorem Proceeds.trans {job'' : ScanJob} (h : Proceeds job job') (h' : Proceeds job' job'') :
    Proceeds job job'' :=
  ⟨h'.consistent, fun loaded hStopped => h'.stopped loaded (h.stopped loaded hStopped)⟩

theorem KeepsEnd.trans {job'' : ScanJob} (h : KeepsEnd job job') (h' : KeepsEnd job' job'') :
    KeepsEnd job job'' := by
  intro hEnded
  obtain ⟨hState, hReason⟩ := h hEnded
  obtain ⟨hState', hReason'⟩ := h' (hState ▸ hEnded)
  exact ⟨hState'.trans hState, hReason'.trans hReason⟩

theorem keepsEnd_of_active (h : job.state.active = true) : KeepsEnd job job' := by
  intro hEnded
  rw [h] at hEnded
  cases hEnded

/-- The job ends, and its lease with it. -/
theorem proceeds_of_ended (hState : job'.state.active = false) (hOwner : job'.leaseOwner = none)
    (hExpiry : job'.leaseExpiresAt = none) : Proceeds job job' := by
  refine ⟨⟨⟨?_, fun _ => ⟨hOwner, hExpiry⟩⟩, ?_⟩, fun _ _ => Or.inr hState⟩
  · intro hStopping
    rw [hStopping] at hState
    cases hState
  · intro hActive
    rw [hState] at hActive
    cases hActive

/-- The row keeps its state and its lease's owner, and an expiry that there is. -/
theorem proceeds_of_same (h : LeaseConsistent job) (hState : job'.state = job.state)
    (hActive : job.state = .running ∨ job.state = .stopping)
    (hStop : job'.stopRequested = job.stopRequested)
    (hReason : job'.completionReason = job.completionReason)
    (hOwner : job'.leaseOwner = job.leaseOwner)
    (hExpiry : job.leaseExpiresAt = none → job'.leaseExpiresAt = none) : Proceeds job job' := by
  have hIs : job.state.active = true := by
    rcases hActive with hEq | hEq <;> rw [hEq] <;> rfl
  refine ⟨⟨⟨?_, ?_⟩, ?_⟩, ?_⟩
  · rw [hState, hStop]
    exact h.stopping
  · rw [hState]
    rintro (hPending | hEnded)
    · rcases hActive with hEq | hEq <;> rw [hEq] at hPending <;> cases hPending
    · rw [hIs] at hEnded
      cases hEnded
  · intro _
    rw [hReason]
    exact h.noReason hIs
  · rintro loaded (⟨hStopping, hSame, hNone⟩ | hEnded)
    · exact Or.inl ⟨hState.trans hStopping, hOwner.trans hSame,
        fun hLoaded => hExpiry (hNone hLoaded)⟩
    · rw [hIs] at hEnded
      cases hEnded

/-- A job that is not `stopping` goes on, so nobody has read it as stopped. -/
theorem proceeds_of_not_stopping (hNot : job.state ≠ .stopping) (hActive : job.state.active = true)
    (h : LeaseConsistent job') : Proceeds job job' := by
  refine ⟨h, ?_⟩
  rintro loaded (⟨hStopping, -⟩ | hEnded)
  · exact absurd hStopping hNot
  · rw [hActive] at hEnded
    cases hEnded

theorem active_of_selects (h : statement.selects clock job = true) : job.state.active = true := by
  have hHolds {lease : ScanLease} {now : Instant} (h : lease.holds now job = true) :
      job.state.active = true := ScanLease.active_of_owns (ScanLease.owns_of_holds h)
  have hAbandoned {now : Instant} (h : job.abandonedStop now = true) :
      job.state.active = true := by
    simp only [ScanJob.abandonedStop, Bool.and_eq_true, beq_iff_eq] at h
    rw [h.1]
    rfl
  cases statement with
  | failWithoutProvenance now jobId =>
      simp only [JobStatement.selects, Bool.and_eq_true] at h
      exact h.1.2
  | cancelStopped now jobId =>
      simp only [JobStatement.selects, Bool.and_eq_true] at h
      exact hAbandoned h.2
  | claim now jobId owner =>
      simp only [JobStatement.selects, claimedBy, ScanJob.claimable, Bool.and_eq_true,
        Bool.or_eq_true, beq_iff_eq] at h
      rcases h.2 with hPending | ⟨hRunning, -⟩
      · rw [hPending]
        rfl
      · rw [hRunning]
        rfl
  | renew now lease => exact hHolds h
  | lockHeld now lease => exact hHolds h
  | recordPage lease messages nextOffsetId => exact hHolds h
  | fenceSession lease => exact hHolds h
  | requeue now lease => exact hHolds h
  | release now lease => exact ScanLease.active_of_owns h
  | finalize now lease state error completionReason => exact hHolds h
  | terminalize now => exact hAbandoned h
  | downgrade now lease =>
      simp only [JobStatement.selects, ScanLease.downgrades, Bool.and_eq_true] at h
      exact h.2
  | cancelActive now userId =>
      simp only [JobStatement.selects, ScanJob.activeOf, Bool.and_eq_true] at h
      exact h.2

/-- A worker gives the job back: it is cancelled, or pending again if no stop was requested. -/
theorem proceeds_of_return (h : LeaseConsistent job) (hActive : job.state.active = true)
    (hOwner : job'.leaseOwner = none) (hExpiry : job'.leaseExpiresAt = none)
    (hState : job'.state = .cancelled ∨
      (job.stopRequested = false ∧ job'.state = .pending ∧ job'.completionReason = none)) :
    Proceeds job job' := by
  rcases hState with hCancelled | ⟨hNo, hPending, hReason⟩
  · exact proceeds_of_ended (by rw [hCancelled]; rfl) hOwner hExpiry
  · refine proceeds_of_not_stopping ?_ hActive
      ⟨⟨?_, fun _ => ⟨hOwner, hExpiry⟩⟩, fun _ => hReason⟩
    · intro hStopping
      rw [h.stopping hStopping] at hNo
      cases hNo
    · intro hStopping
      rw [hPending] at hStopping
      cases hStopping

theorem proceeds_sets (h : LeaseConsistent job) (hEnds : statement.EndsJob)
    (hSelects : statement.selects clock job = true) : Proceeds job (statement.sets job) := by
  have hActive := active_of_selects hSelects
  cases statement with
  | failWithoutProvenance now jobId => exact proceeds_of_ended rfl rfl rfl
  | cancelStopped now jobId => exact proceeds_of_ended rfl rfl rfl
  | claim now jobId owner =>
      refine proceeds_of_not_stopping ?_ hActive ⟨⟨nofun, ?_⟩, fun _ => rfl⟩
      · simp only [JobStatement.selects, claimedBy, ScanJob.claimable, Bool.and_eq_true,
          Bool.or_eq_true, beq_iff_eq] at hSelects
        rcases hSelects.2 with hPending | ⟨hRunning, -⟩
        · rw [hPending]
          nofun
        · rw [hRunning]
          nofun
      · rintro (hPending | hEnded)
        · cases hPending
        · cases hEnded
  | renew now lease =>
      have hHolds := ScanLease.holds_iff.mp hSelects
      refine proceeds_of_same h rfl (ScanLease.owns_iff.mp hHolds.1).2 rfl rfl rfl fun hNone => ?_
      have hUnexpired := hHolds.2
      rw [hNone] at hUnexpired
      cases hUnexpired
  | lockHeld now lease => exact proceeds_refl h
  | recordPage lease messages nextOffsetId =>
      have hHolds := ScanLease.holds_iff.mp hSelects
      exact proceeds_of_same h rfl (ScanLease.owns_iff.mp hHolds.1).2 rfl rfl rfl id
  | fenceSession lease => exact proceeds_refl h
  | requeue now lease =>
      refine proceeds_of_return h hActive rfl rfl ?_
      by_cases hStop : job.stopping = true
      · exact Or.inl (if_pos hStop)
      · have hNo : job.stopRequested = false := by
          simp only [ScanJob.stopping, Bool.or_eq_true, not_or, Bool.not_eq_true] at hStop
          exact hStop.1
        exact Or.inr ⟨hNo, if_neg hStop, if_neg hStop⟩
  | release now lease =>
      refine proceeds_of_return h hActive rfl rfl ?_
      by_cases hStop : job.stopRequested = true
      · exact Or.inl (if_pos hStop)
      · exact Or.inr ⟨by simpa using hStop, if_neg hStop, if_neg hStop⟩
  | finalize now lease state error completionReason => exact proceeds_of_ended hEnds rfl rfl
  | terminalize now => exact proceeds_of_ended rfl rfl rfl
  | downgrade now lease => exact proceeds_of_ended rfl rfl rfl
  | cancelActive now userId => exact proceeds_of_ended rfl rfl rfl

/-- `stop`, on an active job. -/
theorem proceeds_stop (h : LeaseConsistent job) (hActive : job.state.active = true) :
    Proceeds job (job.stop now) := by
  by_cases hAtOnce : job.stopsAtOnce now = true
  · exact proceeds_of_ended (by rw [ScanJob.stop, if_pos hAtOnce]; rfl) (if_pos hAtOnce)
      (if_pos hAtOnce)
  · have hState : (job.stop now).state = .stopping := if_neg hAtOnce
    refine ⟨⟨⟨fun _ => rfl, ?_⟩, fun _ => ?_⟩, ?_⟩
    · rw [hState]
      rintro (hPending | hEnded)
      · cases hPending
      · cases hEnded
    · exact (if_neg hAtOnce).trans (h.noReason hActive)
    · rintro loaded (⟨-, hOwner, hNone⟩ | hEnded)
      · exact Or.inl ⟨hState, (if_neg hAtOnce).trans hOwner,
          fun hLoaded => (if_neg hAtOnce).trans (hNone hLoaded)⟩
      · rw [hActive] at hEnded
        cases hEnded

/-- A write over the row that was loaded writes the row in memory. -/
theorem flushJob_stop : flushJob job (job.stop now) job = job.stop now := by
  have hKeep {α : Type} (p : Prop) [Decidable p] (x y : α) (h : p → y = x) :
      (if p then x else y) = y := by
    split
    · rename_i hp
      exact (h hp).symm
    · rfl
  unfold flushJob
  rw [hKeep _ _ _ id, hKeep _ _ _ id, hKeep _ _ _ id, hKeep _ _ _ id, hKeep _ _ _ id,
    hKeep _ _ _ id]
  rfl

/-- What `start` cancels, over whatever the row is since. -/
theorem proceeds_flush_cancelStopped (hLoaded : LeaseConsistent loaded)
    (hStopping : loaded.state = .stopping) (h : LeaseConsistent job)
    (hSince : StillStopped loaded job) :
    Proceeds job (flushJob loaded (loaded.cancelStopped now) job) ∧
      (flushJob loaded (loaded.cancelStopped now) job).state = .cancelled ∧
      (flushJob loaded (loaded.cancelStopped now) job).completionReason = some .stoppedByUser := by
  have hLeft : (loaded.leaseOwner = none → job.leaseOwner = none) ∧
      (loaded.leaseExpiresAt = none → job.leaseExpiresAt = none) := by
    rcases hSince with ⟨-, hOwner, hNone⟩ | hEnded
    · exact ⟨fun hNo => hOwner.trans hNo, hNone⟩
    · obtain ⟨hOwner, hExpiry⟩ := h.released (Or.inr hEnded)
      exact ⟨fun _ => hOwner, fun _ => hExpiry⟩
  have hState : (flushJob loaded (loaded.cancelStopped now) job).state = .cancelled := by
    simp [flushJob, ScanJob.cancelStopped, hStopping]
  have hReason : (flushJob loaded (loaded.cancelStopped now) job).completionReason =
      some .stoppedByUser := by
    have hNone := hLoaded.noReason (by rw [hStopping]; rfl)
    simp [flushJob, ScanJob.cancelStopped, hNone]
  refine ⟨proceeds_of_ended (by rw [hState]; rfl) ?_ ?_, hState, hReason⟩
  · cases hOwner : loaded.leaseOwner with
    | none => simp [flushJob, ScanJob.cancelStopped, hOwner, hLeft.1 hOwner]
    | some owner => simp [flushJob, ScanJob.cancelStopped, hOwner]
  · cases hExpiry : loaded.leaseExpiresAt with
    | none => simp [flushJob, ScanJob.cancelStopped, hExpiry, hLeft.2 hExpiry]
    | some expiry => simp [flushJob, ScanJob.cancelStopped, hExpiry]

end Rows

/-! ## The invariant -/

def JobRowOk (row : JobRow) : Prop := ∃ job, row.committed = some job ∧ LeaseConsistent job

/-- What the transaction has locked, if anything, may follow the committed row and keeps its
end. -/
def Tracks (row : JobRow) (t : TransactionId) : Prop :=
  ∀ own, row.Held t own → ∃ job job', row.committed = some job ∧ own = some job' ∧
    Proceeds job job' ∧ KeepsEnd job job'

def Since (loaded : ScanJob) (row : JobRow) : Prop :=
  ∀ job, row.committed = some job → StillStopped loaded job

def JobPhaseOk (row : JobRow) (t : TransactionId) : JobPhase → Prop
  | .idle => row.HasNoLock t
  | .executing statements =>
      (∀ statement ∈ statements, statement.EndsJob) ∧ Tracks row t
  | .starting _ => row.HasNoLock t
  | .startRead found => row.HasNoLock t ∧ ∀ loaded, found = some loaded →
      LeaseConsistent loaded ∧ (loaded.state = .stopping → Since loaded row)
  | .stopping _ => row.HasNoLock t
  | .stopRead loaded => row.Held t (some loaded) ∧ row.committed = some loaded ∧
      loaded.state.active = true
  | .writing .start loaded memory => row.HasNoLock t ∧ LeaseConsistent loaded ∧
      loaded.state = .stopping ∧ (∃ now, memory = loaded.cancelStopped now) ∧ Since loaded row
  | .writing .stop loaded memory => row.Held t (some loaded) ∧ row.committed = some loaded ∧
      loaded.state.active = true ∧ ∃ now, memory = loaded.stop now
  | .committing .start => ∃ job job', row.committed = some job ∧ row.Held t (some job') ∧
      Proceeds job job' ∧ job'.state = .cancelled ∧ job'.completionReason = some .stoppedByUser
  | .committing .stop => Tracks row t
  | .returned => row.HasNoLock t

structure JobCallsOk (w : JobWorld) : Prop where
  row : JobRowOk w.row
  phases : ∀ t, JobPhaseOk w.row t (w.calls t)

/-- The committed version is followed by another one. -/
def Evolves (row row' : JobRow) : Prop :=
  ∀ job, row.committed = some job → ∃ job', row'.committed = some job' ∧ Proceeds job job'

/-- A committed end stays. -/
def EndStays (row row' : JobRow) : Prop :=
  ∀ job, row.committed = some job → ∃ job', row'.committed = some job' ∧ KeepsEnd job job'

/-- A `start` that commits its cancellation does so over an active job, or over one that has
been cancelled for the same reason. -/
def cancelsActive (row : JobRow) : JobPhase → Bool
  | .committing .start => row.committed.all fun job => job.state.active ||
      (job.state == .cancelled && job.completionReason == some .stoppedByUser)
  | _ => true

/-- What a step of the call makes of the row, of its end and of its own clause. -/
structure JobSettles (t : TransactionId) (row row' : JobRow) (phase phase' : JobPhase) :
    Prop where
  evolves : Evolves row row'
  phaseOk : JobPhaseOk row' t phase'
  endStays : EndStays row row' ↔ cancelsActive row phase = true

section Steps

variable {now : Instant} {t t' : TransactionId} {row row' : JobRow} {phase phase' : JobPhase}
  {job loaded memory : ScanJob}

theorem evolves_same (hRow : JobRowOk row) (hSame : row'.committed = row.committed) :
    Evolves row row' := by
  obtain ⟨job, hCommitted, hConsistent⟩ := hRow
  intro job' hJob'
  obtain rfl := Option.some.inj (hCommitted.symm.trans hJob')
  exact ⟨job, hSame.trans hCommitted, proceeds_refl hConsistent⟩

theorem endStays_same (hSame : row'.committed = row.committed) : EndStays row row' :=
  fun job hCommitted => ⟨job, hSame.trans hCommitted, fun _ => ⟨rfl, rfl⟩⟩

theorem settles_unchanged (hRow : JobRowOk row) (hSame : row'.committed = row.committed)
    (hCancels : cancelsActive row phase = true) (hPhase : JobPhaseOk row' t phase') :
    JobSettles t row row' phase phase' :=
  ⟨evolves_same hRow hSame, hPhase, fun _ => hCancels, fun _ => endStays_same hSame⟩

theorem Since.evolves (h : Since loaded row) (hRow : JobRowOk row) (hEvolves : Evolves row row') :
    Since loaded row' := by
  obtain ⟨job, hCommitted, -⟩ := hRow
  obtain ⟨job', hCommitted', hProceeds⟩ := hEvolves job hCommitted
  intro after hAfter
  obtain rfl := Option.some.inj (hCommitted'.symm.trans hAfter)
  exact hProceeds.stopped loaded (h job hCommitted)

theorem tracks_of_hasNoLock (h : row.HasNoLock t) : Tracks row t :=
  fun own hHeld => absurd hHeld (h own)

/-- The clauses of the other calls. -/
theorem JobPhaseOk.of_stepBy (h : JobPhaseOk row t' phase) (hRow : JobRowOk row)
    (hStep : StepBy t row row') (hEvolves : Evolves row row') (hNe : t' ≠ t) :
    JobPhaseOk row' t' phase := by
  by_cases hLocked : ∃ own, row.Held t' own
  · obtain ⟨own, hHeld⟩ := hLocked
    obtain rfl := hStep.of_held hHeld hNe
    exact h
  have hFree : row.HasNoLock t' := fun own hHeld => hLocked ⟨own, hHeld⟩
  have hFree' : row'.HasNoLock t' := hStep.hasNoLock hFree hNe
  cases phase with
  | idle => exact hFree'
  | executing statements => exact ⟨h.1, tracks_of_hasNoLock hFree'⟩
  | starting userId => exact hFree'
  | startRead found =>
      refine ⟨hFree', fun loaded hFound => ?_⟩
      obtain ⟨hConsistent, hSince⟩ := h.2 loaded hFound
      exact ⟨hConsistent, fun hStopping => (hSince hStopping).evolves hRow hEvolves⟩
  | stopping userId => exact hFree'
  | stopRead loaded => exact absurd h.1 (hFree _)
  | writing writer loaded memory =>
      cases writer with
      | start =>
          obtain ⟨-, hConsistent, hStopping, hMemory, hSince⟩ := h
          exact ⟨hFree', hConsistent, hStopping, hMemory, hSince.evolves hRow hEvolves⟩
      | stop => exact absurd h.1 (hFree _)
  | committing writer =>
      cases writer with
      | start =>
          obtain ⟨_, _, -, hHeld, -⟩ := h
          exact absurd hHeld (hFree _)
      | stop => exact tracks_of_hasNoLock hFree'
  | returned => exact hFree'

/-- The commit of what follows the committed row. -/
theorem settles_commit_tracks (hRow : JobRowOk row) (hTracks : Tracks row t)
    (hCancels : cancelsActive row phase = true) :
    JobSettles t row (row.commit t) phase .returned := by
  by_cases hLocked : ∃ own, row.Held t own
  · obtain ⟨own, hHeld⟩ := hLocked
    obtain ⟨job, job', hCommitted, rfl, hProceeds, hKeeps⟩ := hTracks own hHeld
    have hOnly {before : ScanJob} (hBefore : row.committed = some before) : before = job :=
      Option.some.inj (hBefore.symm.trans hCommitted)
    have hAfter : (row.commit t).committed = some job' := by rw [hHeld.commit]
    refine ⟨fun before hBefore => ?_, hasNoLock_commit, fun _ => hCancels, ?_⟩
    · obtain rfl := hOnly hBefore
      exact ⟨job', hAfter, hProceeds⟩
    · intro _ before hBefore
      obtain rfl := hOnly hBefore
      exact ⟨job', hAfter, hKeeps⟩
  · have hFree : row.HasNoLock t := fun own hHeld => hLocked ⟨own, hHeld⟩
    exact settles_unchanged hRow (by rw [hFree.commit]) hCancels hasNoLock_commit

/-- A statement works on a version that follows the committed one. -/
theorem tracks_update {statement : JobStatement} {matched : Bool} (hRow : JobRowOk row)
    (hEnds : statement.EndsJob) (hTracks : Tracks row t)
    (h : row.update t (statement.selects now) statement.sets = some (row', matched)) :
    row'.committed = row.committed ∧ Tracks row' t := by
  rcases update_eq_some h with ⟨rfl, -⟩ | ⟨r, locked, hView, hSelects, -, hLocked, rfl⟩
  · exact ⟨rfl, hTracks⟩
  · have hSame : (locked.write t (some (statement.sets r))).committed = row.committed :=
      (acquire_eq_some hLocked).1
    refine ⟨hSame, fun own hOwn => ?_⟩
    obtain rfl : own = some (statement.sets r) := (Prod.mk.inj (Option.some.inj hOwn)).2.symm
    by_cases hBefore : ∃ own, row.Held t own
    · obtain ⟨own, hHeld⟩ := hBefore
      obtain ⟨job, job', hCommitted, rfl, hProceeds, hKeeps⟩ := hTracks own hHeld
      rw [hHeld.view] at hView
      obtain rfl := Option.some.inj hView
      exact ⟨job, _, hSame.trans hCommitted, rfl,
        hProceeds.trans (proceeds_sets hProceeds.consistent hEnds hSelects),
        hKeeps.trans (keepsEnd_of_active (active_of_selects hSelects))⟩
    · have hFree : row.HasNoLock t := fun own hHeld => hBefore ⟨own, hHeld⟩
      obtain ⟨job, hCommitted, hConsistent⟩ := hRow
      rw [hFree.view, hCommitted] at hView
      obtain rfl := Option.some.inj hView
      exact ⟨job, _, hSame.trans hCommitted, rfl, proceeds_sets hConsistent hEnds hSelects,
        keepsEnd_of_active (active_of_selects hSelects)⟩

theorem settles_executing {statement : JobStatement} {rest : List JobStatement}
    (hRow : JobRowOk row) (hPhase : JobPhaseOk row t (.executing (statement :: rest)))
    (h : advanceJob now t row (.executing (statement :: rest)) = some (row', phase')) :
    JobSettles t row row' (.executing (statement :: rest)) phase' := by
  obtain ⟨hEnds, hTracks⟩ := hPhase
  obtain ⟨⟨updated, matched⟩, hUpdate, hEq⟩ := Option.map_eq_some_iff.mp h
  obtain ⟨hSame, hTracks'⟩ := tracks_update hRow (hEnds statement List.mem_cons_self) hTracks
    hUpdate
  dsimp only at hEq
  split at hEq
  · cases hEq
    exact settles_unchanged hRow (rollback_committed.trans hSame) rfl hasNoLock_rollback
  · cases hEq
    exact settles_unchanged hRow hSame rfl
      ⟨fun s hs => hEnds s (List.mem_cons_of_mem _ hs), hTracks'⟩

/-- `start` writes its cancellation over the row. -/
theorem settles_writing_start (hRow : JobRowOk row)
    (hPhase : JobPhaseOk row t (.writing .start loaded memory))
    (h : advanceJob now t row (.writing .start loaded memory) = some (row', phase')) :
    JobSettles t row row' (.writing .start loaded memory) phase' := by
  obtain ⟨hFree, hConsistent, hStopping, ⟨decided, rfl⟩, hSince⟩ := hPhase
  obtain ⟨job, hCommitted, hJob⟩ := hRow
  obtain ⟨⟨written, matched⟩, hUpdate, hEq⟩ := Option.map_eq_some_iff.mp h
  cases hEq
  obtain ⟨hSame, hHeld⟩ := hFree.update_eq_some hCommitted rfl hUpdate
  obtain ⟨hProceeds, hState, hReason⟩ := @proceeds_flush_cancelStopped job loaded decided
    hConsistent hStopping hJob (hSince job hCommitted)
  exact settles_unchanged ⟨job, hCommitted, hJob⟩ (hSame.trans hCommitted.symm) rfl
    ⟨job, _, hSame, hHeld, hProceeds, hState, hReason⟩

theorem settles_writing_stop (hRow : JobRowOk row)
    (hPhase : JobPhaseOk row t (.writing .stop loaded memory))
    (h : advanceJob now t row (.writing .stop loaded memory) = some (row', phase')) :
    JobSettles t row row' (.writing .stop loaded memory) phase' := by
  obtain ⟨hHeld, hCommitted, hActive, decided, rfl⟩ := hPhase
  have hConsistent : LeaseConsistent loaded := by
    obtain ⟨job, hJob, hConsistent⟩ := hRow
    obtain rfl := Option.some.inj (hCommitted.symm.trans hJob)
    exact hConsistent
  have hUpdate : row.update t (fun _ => true) (flushJob loaded (loaded.stop decided)) = _ :=
    hHeld.update rfl
  simp only [advanceJob, hUpdate, Option.map_some] at h
  cases h
  refine settles_unchanged hRow rfl rfl fun own hOwn => ?_
  obtain rfl := (Prod.mk.inj (Option.some.inj hOwn)).2
  rw [flushJob_stop]
  exact ⟨loaded, _, hCommitted, rfl, proceeds_stop hConsistent hActive,
    keepsEnd_of_active hActive⟩

/-- The one step that may lose an end. -/
theorem settles_commit_start (hPhase : JobPhaseOk row t (.committing .start)) :
    JobSettles t row (row.commit t) (.committing .start) .returned := by
  obtain ⟨job, job', hCommitted, hHeld, hProceeds, hState, hReason⟩ := hPhase
  have hOnly {before : ScanJob} (hBefore : row.committed = some before) : before = job :=
    Option.some.inj (hBefore.symm.trans hCommitted)
  have hAfter : (row.commit t).committed = some job' := by rw [hHeld.commit]
  refine ⟨fun before hBefore => ?_, hasNoLock_commit, ?_⟩
  · obtain rfl := hOnly hBefore
    exact ⟨job', hAfter, hProceeds⟩
  have hCancels : cancelsActive row (.committing .start) = true ↔ KeepsEnd job job' := by
    simp only [cancelsActive, hCommitted, Option.all_some, Bool.or_eq_true, Bool.and_eq_true,
      beq_iff_eq, KeepsEnd, hState, hReason]
    constructor
    · rintro (hActive | ⟨hCancelled, hStopped⟩) hEnded
      · rw [hActive] at hEnded
        cases hEnded
      · exact ⟨hCancelled.symm, hStopped.symm⟩
    · intro hKeeps
      by_cases hActive : job.state.active = true
      · exact Or.inl hActive
      · obtain ⟨hCancelled, hStopped⟩ := hKeeps (by simpa using hActive)
        exact Or.inr ⟨hCancelled.symm, hStopped.symm⟩
  rw [hCancels]
  constructor
  · intro hStays
    obtain ⟨after, hCommitted', hKeeps⟩ := hStays job hCommitted
    obtain rfl := Option.some.inj (hAfter.symm.trans hCommitted')
    exact hKeeps
  · intro hKeeps before hBefore
    obtain rfl := hOnly hBefore
    exact ⟨job', hAfter, hKeeps⟩

theorem settles_advanceJob (hRow : JobRowOk row) (hPhase : JobPhaseOk row t phase)
    (h : advanceJob now t row phase = some (row', phase')) :
    JobSettles t row row' phase phase' := by
  cases phase with
  | idle => cases h
  | returned => cases h
  | executing statements =>
      cases statements with
      | nil =>
          cases h
          exact settles_commit_tracks hRow hPhase.2 rfl
      | cons statement rest => exact @settles_executing now _ _ _ _ _ _ hRow hPhase h
  | starting userId =>
      have hFree : row.HasNoLock t := hPhase
      cases h
      refine settles_unchanged hRow rfl rfl ⟨hFree, fun loaded hFound => ?_⟩
      obtain ⟨hView, -⟩ := Option.filter_eq_some_iff.mp hFound
      rw [hFree.view] at hView
      obtain ⟨job, hCommitted, hConsistent⟩ := hRow
      obtain rfl := Option.some.inj (hCommitted.symm.trans hView)
      refine ⟨hConsistent, fun hStopping after hAfter => ?_⟩
      obtain rfl := Option.some.inj (hCommitted.symm.trans hAfter)
      exact Or.inl ⟨hStopping, rfl, id⟩
  | startRead found =>
      cases found with
      | none =>
          cases h
          exact settles_unchanged hRow rollback_committed rfl hasNoLock_rollback
      | some job =>
          simp only [advanceJob] at h
          split at h
          · rename_i hAbandoned
            cases h
            obtain ⟨hConsistent, hSince⟩ := hPhase.2 job rfl
            have hStopping : job.state = .stopping := by
              simp only [ScanJob.abandonedStop, Bool.and_eq_true, beq_iff_eq] at hAbandoned
              exact hAbandoned.1
            exact settles_unchanged hRow rfl rfl
              ⟨hPhase.1, hConsistent, hStopping, ⟨now, rfl⟩, hSince hStopping⟩
          · cases h
            exact settles_unchanged hRow rollback_committed rfl hasNoLock_rollback
  | stopping userId =>
      have hFree : row.HasNoLock t := hPhase
      obtain ⟨⟨locked, found⟩, hFound, hEq⟩ := Option.map_eq_some_iff.mp h
      cases hEq
      cases found with
      | none =>
          obtain rfl := selectForUpdate_none hFound
          exact settles_unchanged hRow rfl rfl hFree
      | some job =>
          obtain ⟨hCommitted, hActive, hSame, hHeld⟩ := hFree.selectForUpdate_some hFound
          refine settles_unchanged hRow hSame rfl ⟨hHeld, hSame.trans hCommitted, ?_⟩
          simp only [ScanJob.activeOf, Bool.and_eq_true] at hActive
          exact hActive.2
  | stopRead job =>
      cases h
      obtain ⟨hHeld, hCommitted, hActive⟩ := hPhase
      exact settles_unchanged hRow rfl rfl ⟨hHeld, hCommitted, hActive, now, rfl⟩
  | writing writer loaded memory =>
      cases writer with
      | start => exact @settles_writing_start now _ _ _ _ _ _ hRow hPhase h
      | stop => exact @settles_writing_stop now _ _ _ _ _ _ hRow hPhase h
  | committing writer =>
      cases writer with
      | start =>
          cases h
          exact settles_commit_start hPhase
      | stop =>
          cases h
          exact settles_commit_tracks hRow hPhase rfl

end Steps

/-! ## Runs -/

/-- Nothing has been called, and the row is consistent, as a new one is. -/
structure JobWorld.Initial (w : JobWorld) : Prop where
  idle : ∀ t, w.calls t = .idle
  unlocked : w.row.lock = none
  consistent : JobRowOk w.row

def startsCancelActive (w : JobWorld) : JobAction → Bool
  | .advance t => cancelsActive w.row (w.calls t)
  | _ => true

/-- The lease columns are consistent in every committed version, and no committed end is
ever changed. -/
structure TerminalAbsorbs (w : JobWorld) (as : List JobAction) : Prop where
  columns : ∀ u, Visits JobWorld.step w as u →
    ∀ job, u.row.committed = some job → LeaseColumns job
  ends : ∀ front middle back u v, as = front ++ (middle ++ back) →
    run JobWorld.step w front = some u → run JobWorld.step u middle = some v →
      EndStays u.row v.row

section Runs

variable {w w' : JobWorld} {a : JobAction} {as : List JobAction}

theorem queued_consistent (id : JobId) (userId : UserId) (replaceExisting : Bool) (pageSize : Nat)
    (telegramUserId : TelegramId) (generation maxMessages maxRuntimeSeconds : Nat)
    (createdAt : Instant) :
    LeaseConsistent (.queued id userId replaceExisting pageSize telegramUserId generation
      maxMessages maxRuntimeSeconds createdAt) :=
  ⟨⟨nofun, fun _ => ⟨rfl, rfl⟩⟩, fun _ => rfl⟩

theorem jobCallsOk_initial (h : w.Initial) : JobCallsOk w := by
  refine ⟨h.consistent, fun t => ?_⟩
  rw [h.idle t]
  intro own hHeld
  rw [LockedRow.Held, h.unlocked] at hHeld
  cases hHeld

theorem jobPhaseOk_begins {now : Instant} {t : TransactionId} {row : JobRow}
    (hFree : row.HasNoLock t) (call : JobCall) : JobPhaseOk row t (call.begins now) := by
  have hExecuting {statements : List JobStatement}
      (hEnds : ∀ statement ∈ statements, statement.EndsJob) :
      JobPhaseOk row t (.executing statements) := ⟨hEnds, tracks_of_hasNoLock hFree⟩
  cases call with
  | start userId => exact hFree
  | stop userId => exact hFree
  | finalize lease state error completionReason =>
      simp only [JobCall.begins]
      split
      · exact hFree
      · rename_i hTerminal
        refine hExecuting fun statement hMem => ?_
        rw [List.mem_singleton.mp hMem]
        exact (Bool.not_eq_true _).mp hTerminal
  | _ => exact hExecuting (by simp [JobStatement.EndsJob])

theorem JobRowOk.evolves {row row' : JobRow} (h : JobRowOk row) (hEvolves : Evolves row row') :
    JobRowOk row' := by
  obtain ⟨job, hCommitted, -⟩ := h
  obtain ⟨job', hCommitted', hProceeds⟩ := hEvolves job hCommitted
  exact ⟨job', hCommitted', hProceeds.consistent⟩

theorem jobCallsOk_step (h : JobCallsOk w) (hStep : w.step a = some w') :
    JobCallsOk w' ∧ (EndStays w.row w'.row ↔ startsCancelActive w a = true) := by
  have hSame : EndStays w.row w.row ↔ true = true := ⟨fun _ => rfl, fun _ => endStays_same rfl⟩
  rcases JobWorld.step_eq_some hStep with ⟨elapsed, rfl, rfl⟩ | ⟨t, call, rfl, hIdle, rfl⟩ |
    ⟨t, row', phase', rfl, hAdvance, rfl⟩ | ⟨t, rfl, rfl⟩
  · exact ⟨⟨h.row, h.phases⟩, hSame⟩
  · have hFree : JobPhaseOk w.row t .idle := hIdle ▸ h.phases t
    exact ⟨⟨h.row, (Function.forall_update_iff w.calls (JobPhaseOk w.row)).mpr
      ⟨jobPhaseOk_begins hFree call, fun t' _ => h.phases t'⟩⟩, hSame⟩
  · have hSettles := settles_advanceJob h.row (h.phases t) hAdvance
    exact ⟨⟨h.row.evolves hSettles.evolves, (Function.forall_update_iff w.calls
      (JobPhaseOk row')).mpr ⟨hSettles.phaseOk, fun t' hNe => (h.phases t').of_stepBy h.row
        (stepBy_advanceJob hAdvance) hSettles.evolves hNe⟩⟩, hSettles.endStays⟩
  · have hEvolves : Evolves w.row (w.row.rollback t) := evolves_same h.row rollback_committed
    exact ⟨⟨h.row.evolves hEvolves, (Function.forall_update_iff w.calls
      (JobPhaseOk (w.row.rollback t))).mpr ⟨hasNoLock_rollback, fun t' hNe =>
        (h.phases t').of_stepBy h.row stepBy_rollback hEvolves hNe⟩⟩,
      fun _ => rfl, fun _ => endStays_same rollback_committed⟩

theorem EndStays.trans {row row' row'' : JobRow} (h : EndStays row row')
    (h' : EndStays row' row'') : EndStays row row'' := by
  intro job hCommitted
  obtain ⟨job', hCommitted', hKeeps⟩ := h job hCommitted
  obtain ⟨job'', hCommitted'', hKeeps'⟩ := h' job' hCommitted'
  exact ⟨job'', hCommitted'', hKeeps.trans hKeeps'⟩

/-- A run leaves the terminal states alone, exactly if every `start` that commits the
cancellation of an abandoned stop does so over an active job, or over one that has been
cancelled for the same reason. -/
theorem terminal_absorbs_iff (hStart : w.Initial) :
    TerminalAbsorbs w as ↔
      ∀ u a v, StepOf JobWorld.step w as u a v → startsCancelActive u a = true := by
  have hOk {u : JobWorld} (hVisit : Visits JobWorld.step w as u) : JobCallsOk u :=
    visits_induct (jobCallsOk_initial hStart) hVisit fun x b y h hx => (jobCallsOk_step hx h.step).1
  constructor
  · rintro hAbsorbs u a v hStep
    refine (jobCallsOk_step (hOk hStep.before) hStep.step).2.mp ?_
    obtain ⟨front, back, rfl, hFront, hLast⟩ := hStep
    exact hAbsorbs.ends front [a] back u v rfl hFront (run_cons.mpr ⟨v, hLast, rfl⟩)
  · intro hCancels
    constructor
    · intro u hVisit job hCommitted
      obtain ⟨job', hCommitted', hConsistent⟩ := (hOk hVisit).row
      obtain rfl := Option.some.inj (hCommitted.symm.trans hCommitted')
      exact hConsistent.toLeaseColumns
    · rintro front middle back u v rfl hFront hMiddle
      refine @run_induct _ _ _ (fun x => EndStays u.row x.row) _ _ _ (endStays_same rfl) hMiddle
        fun x b y h hx => ?_
      have hWhole : StepOf JobWorld.step w (front ++ (middle ++ back)) x b y :=
        (h.append_right back).append_left hFront
      exact hx.trans ((jobCallsOk_step (hOk hWhole.before) hWhole.step).2.mpr (hCancels x b y hWhole))

end Runs

/-! ### A scan that ends while its stop is taken for abandoned -/

def queuedWorld : JobWorld :=
  ⟨0, ⟨some (.queued 1 1 false 2 200 3 4 3600 0), none⟩, fun _ => .idle⟩

theorem queuedWorld_initial : queuedWorld.Initial :=
  ⟨fun _ => rfl, rfl, _, rfl, queued_consistent _ _ _ _ _ _ _ _ _⟩

/-- The lease of the worker that claims it. -/
def claimedLease : ScanLease :=
  { jobId := 1, userId := 1, pageSize := 2, telegramUserId := 200, connectionGeneration := 3
    messagesScanned := 0, lastMessageId := none, maxMessages := 4, maxRuntimeSeconds := 3600
    startedAt := 0, owner := 7, replaceExisting := false }

def advances (n : Nat) (t : TransactionId) : List JobAction := List.replicate n (.advance t)

/-- The job is claimed and stopped, and its worker begins to finalize it as complete. -/
def finalizesLate : List JobAction :=
  .begin 1 (.claim 1 7) :: advances 4 1 ++ .begin 2 (.stop 1) :: advances 4 2 ++
    [.tick (seconds 89), .begin 3 (.finalize claimedLease .completed none (some .sourceExhausted)),
      .tick (seconds 2)]

/-- A new start finds the lease expired. -/
def findsAbandoned : List JobAction := .begin 4 (.start 1) :: advances 2 4

def endAfter (as : List JobAction) : Option (ScanJobState × Option CompletionReason) :=
  ((run JobWorld.step queuedWorld as).bind fun w => w.row.committed).map
    fun job => (job.state, job.completionReason)

theorem terminal_absorbs_alone :
    TerminalAbsorbs queuedWorld (finalizesLate ++ findsAbandoned ++ advances 2 4 ++ advances 1 3) ∧
      endAfter (finalizesLate ++ findsAbandoned ++ advances 2 4 ++ advances 1 3) =
        some (.cancelled, some .stoppedByUser) :=
  ⟨(terminal_absorbs_iff queuedWorld_initial).mpr fun _ _ _ hStep =>
    of_everyStep (by decide +kernel) hStep, by decide +kernel⟩

/-- The worker completes the job between the start's read and its write. -/
theorem terminal_is_overwritten : queuedWorld.Initial ∧
    endAfter (finalizesLate ++ findsAbandoned ++ advances 2 3) =
      some (.completed, some .sourceExhausted) ∧
    endAfter (finalizesLate ++ findsAbandoned ++ advances 2 3 ++ advances 2 4) =
      some (.cancelled, some .stoppedByUser) ∧
    ¬ TerminalAbsorbs queuedWorld
      (finalizesLate ++ findsAbandoned ++ advances 2 3 ++ advances 2 4) := by
  have hCompleted : endAfter (finalizesLate ++ findsAbandoned ++ advances 2 3) =
      some (.completed, some .sourceExhausted) := by decide +kernel
  have hCancelled : endAfter (finalizesLate ++ findsAbandoned ++ advances 2 3 ++ advances 2 4) =
      some (.cancelled, some .stoppedByUser) := by decide +kernel
  refine ⟨queuedWorld_initial, hCompleted, hCancelled, fun hAbsorbs => ?_⟩
  obtain ⟨job, hJob, hEnd⟩ := Option.map_eq_some_iff.mp hCompleted
  obtain ⟨u, hFront, hCommitted⟩ := Option.bind_eq_some_iff.mp hJob
  obtain ⟨job', hJob', hEnd'⟩ := Option.map_eq_some_iff.mp hCancelled
  obtain ⟨v, hWhole, hCommitted'⟩ := Option.bind_eq_some_iff.mp hJob'
  obtain ⟨u', hFront', hMiddle⟩ := run_append.mp hWhole
  obtain rfl := Option.some.inj (hFront.symm.trans hFront')
  obtain ⟨after, hAfter, hKeeps⟩ := hAbsorbs.ends _ _ [] u v (by rw [List.append_nil]) hFront
    hMiddle job hCommitted
  obtain rfl := Option.some.inj (hCommitted'.symm.trans hAfter)
  obtain ⟨hState, hReason⟩ := Prod.mk.inj hEnd
  have hSame := (hKeeps (by rw [hState]; rfl)).1
  rw [hState, (Prod.mk.inj hEnd').1] at hSame
  cases hSame

end SavedOrganizer
