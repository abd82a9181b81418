import SavedOrganizer.System.Tokens

/-!
# Leases fence their workers

A worker may go on after its lease is gone. `apply_of_lost` says that each of its fenced
transactions then changes nothing, whichever of its own checks fails; `lost_of_superseded`
that the checks do fail from the moment another claim of the job has committed, or the job
has ended. `lease_fencing` puts both together over a run.
-/

namespace SavedOrganizer

open Transition

/-- The transactions that go through only under a lease. -/
def WorkerOp.fenced : WorkerOp → Bool
  | downgrade => false
  | openConnection => false
  | _ => true

/-- The connection or the job is not what the transaction looks for. Releasing does not
look at the expiry, and only two of them look at the connection. -/
def WorkerOp.LosesLease (now : Instant) (lease : ScanLease) (db : Database) : WorkerOp → Prop
  | persist _ delay => db.boundConnection lease = none ∨ db.heldJob lease now = none ∨
      db.heldJob lease (now + delay) = none
  | refreshSession _ delay => db.boundConnection lease = none ∨ db.heldJob lease now = none ∨
      db.heldJob lease (now + delay) = none
  | release => ∀ job ∈ db.jobs, lease.owns job = false
  | _ => db.heldJob lease now = none

section Lost

variable {db : Database} {now fenceNow : Instant} {lease : ScanLease}

theorem holds_eq_false (h : db.heldJob lease now = none) :
    ∀ job ∈ db.jobs, lease.holds now job = false := by
  intro job hJob
  by_contra hHolds
  rw [Bool.not_eq_false] at hHolds
  have hId : job.id = lease.jobId := ScanLease.id_of_owns (ScanLease.owns_of_holds hHolds)
  have hHeld : db.heldJob lease now = some job :=
    heldJob_eq_some.mpr ⟨hId ▸ Table.find?_key hJob, hHolds⟩
  rw [h] at hHeld
  cases hHeld

theorem heldJob_eq_none (h : ∀ job ∈ db.jobs, lease.owns job = false) :
    db.heldJob lease now = none := by
  cases hHeld : db.heldJob lease now with
  | none => rfl
  | some job =>
      obtain ⟨hFind, hHolds⟩ := heldJob_eq_some.mp hHeld
      have hOwns := h job (Table.mem_of_find? hFind)
      rw [ScanLease.owns_of_holds hHolds] at hOwns
      cases hOwns

/-- No message carries the marker of a job that no row is. -/
theorem markedBy_eq_false {p : ScanJob → Bool} (h : ∀ job ∈ db.jobs, p job = false)
    (m : Message) : db.markedBy p m = false := by
  unfold Database.markedBy
  rw [Option.any_eq_false]
  intro jobId _
  rw [Option.any_eq_false]
  intro job hJob
  exact h job (Table.mem_of_find? hJob)

theorem clearMarkers_eq_self {p : ScanJob → Bool} {q : Message → Bool}
    (h : ∀ job ∈ db.jobs, p job = false) :
    (db.clearMarkers fun m => q m && db.markedBy p m) = db := by
  apply Database.updateMessages_eq_self
  intro m _
  rw [markedBy_eq_false h m, Bool.and_false]

theorem renewScanLease_lost (h : db.heldJob lease now = none) :
    renewScanLease now lease db = (db, false) := by
  rw [renewScanLease, h, Database.updateJobs_eq_self (holds_eq_false h)]
  rfl

theorem persistScanPage_lost {py : Python.Runtime} {page : ScanPage}
    (h : db.boundConnection lease = none ∨ db.heldJob lease now = none ∨
      db.heldJob lease fenceNow = none) :
    committed db (persistScanPage py now fenceNow lease page db) = db := by
  cases hPersist : persistScanPage py now fenceNow lease page db with
  | error e => rfl
  | ok db' =>
      obtain ⟨⟨c, hBound⟩, ⟨job, hHeld⟩, ⟨job', hFence⟩, -⟩ := persistScanPage_eq_ok hPersist
      rcases h with h | h | h
      · rw [hBound] at h; cases h
      · rw [hHeld] at h; cases h
      · rw [hFence] at h; cases h

theorem persistRefreshedSession_lost {vault : Vault} {session : ClientSession}
    (h : db.boundConnection lease = none ∨ db.heldJob lease now = none ∨
      db.heldJob lease fenceNow = none) :
    persistRefreshedSession vault now fenceNow lease session db = .error .leaseLost := by
  unfold persistRefreshedSession
  rcases h with h | h | h
  · rw [h, Option.isNone_none, if_pos rfl]
  · rw [h, Option.isNone_none, if_pos rfl]
    split <;> rfl
  · rw [h, Option.isNone_none, if_pos rfl]
    split
    · rfl
    · split <;> rfl

theorem requeueScanJob_lost (h : db.heldJob lease now = none) :
    requeueScanJob now lease db = (db, false) := by
  have hStopping : ∀ job ∈ db.jobs, (lease.holds now job && job.stopping) = false := by
    intro job hJob
    rw [holds_eq_false h job hJob, Bool.false_and]
  rw [requeueScanJob, h, clearMarkers_eq_self hStopping, ite_self,
    Database.updateJobs_eq_self (holds_eq_false h)]
  rfl

theorem releaseInterruptedScan_lost (h : ∀ job ∈ db.jobs, lease.owns job = false) :
    releaseInterruptedScan now lease db = (db, false) := by
  have hStopping : ∀ job ∈ db.jobs, (lease.owns job && job.stopping) = false := by
    intro job hJob
    rw [h job hJob, Bool.false_and]
  have hNone : (db.jobs.find? lease.jobId).filter lease.owns = none := by
    rw [Option.filter_eq_none_iff]
    intro job hJob
    rw [h job (Table.mem_of_find? hJob)]
    exact Bool.false_ne_true
  rw [releaseInterruptedScan, hNone, clearMarkers_eq_self hStopping, ite_self,
    Database.updateJobs_eq_self h]
  rfl

/-- A transaction that finds its lease lost changes nothing. -/
theorem apply_of_lost {env : Env} {op : WorkerOp} (hFenced : op.fenced = true)
    (h : op.LosesLease now lease db) : op.apply env now lease db = db := by
  cases op with
  | renew =>
      simp only [WorkerOp.apply]
      rw [renewScanLease_lost h]
  | persist page delay => exact persistScanPage_lost h
  | refreshSession session delay =>
      simp only [WorkerOp.apply]
      rw [persistRefreshedSession_lost h]
      rfl
  | requeue =>
      simp only [WorkerOp.apply]
      rw [requeueScanJob_lost h]
  | release =>
      simp only [WorkerOp.apply]
      rw [releaseInterruptedScan_lost h]
  | finalize state error reason =>
      simp only [WorkerOp.apply]
      rw [finalizeScanJob_lost h]
  | downgrade => cases hFenced
  | openConnection => cases hFenced

end Lost

/-! ## Superseded leases -/

/-- A later claim of the job has issued a lease, or the job has ended. -/
def Store.Superseded (s : Store) (lease : ScanLease) : Prop :=
  (∃ newer older, s.leases = newer ++ lease :: older ∧
    ∃ later ∈ newer, later.jobId = lease.jobId) ∨
  ∃ job, s.db.jobs.find? lease.jobId = some job ∧ job.state.active = false

section Superseded

variable {env : Env} {s s' : Store} {a : StoreAction} {lease : ScanLease}

theorem superseded_step (h : s.step env a = some s') (hLease : s.Superseded lease) :
    s'.Superseded lease := by
  rcases hLease with ⟨newer, older, hLeases, later, hLater, hId⟩ | ⟨job, hJob, hEnded⟩
  · obtain ⟨issued, hIssued⟩ := step_leases_suffix h
    refine Or.inl ⟨issued ++ newer, older, ?_, later, List.mem_append_right _ hLater, hId⟩
    rw [← hIssued, hLeases, List.append_assoc]
  · obtain ⟨job', hJob', hChange⟩ := step_job h hJob
    refine Or.inr ⟨job', hJob', ?_⟩
    rw [hChange.eq_of_ended hEnded]
    exact hEnded

/-- A superseded lease owns no job. -/
theorem owns_of_superseded (hInv : StoreInv s) (hLease : s.Superseded lease)
    (hIssued : lease ∈ s.leases) : ∀ job ∈ s.db.jobs, lease.owns job = false := by
  intro job hJob
  by_contra hOwns
  rw [Bool.not_eq_false] at hOwns
  rcases hLease with ⟨newer, older, hLeases, later, hLater, hId⟩ | ⟨ended, hFind, hEnded⟩
  · have hLatest := latestLease_of_owns hInv hIssued hJob hOwns
    rw [Store.latestLease, hLeases, List.find?_append, Option.or_eq_some_iff] at hLatest
    rcases hLatest with hFound | ⟨hNone, -⟩
    · -- the latest lease of the job would be among the newer ones
      have hMem := List.mem_of_find?_eq_some hFound
      have hOrdered := hInv.ordered
      rw [hLeases, List.pairwise_append] at hOrdered
      exact Nat.lt_irrefl _ (hOrdered.2.2 lease hMem lease List.mem_cons_self)
    · have hNot := List.find?_eq_none.mp hNone later hLater
      rw [beq_iff_eq] at hNot
      exact hNot hId
  · have hSame : job = ended := by
      have hFindJob : s.db.jobs.find? job.id = some job := Table.find?_key hJob
      rw [ScanLease.id_of_owns hOwns, hFind] at hFindJob
      exact (Option.some.inj hFindJob).symm
    have hActive := ScanLease.active_of_owns hOwns
    rw [hSame, hEnded] at hActive
    cases hActive

theorem lost_of_superseded {op : WorkerOp} (hInv : StoreInv s) (hLease : s.Superseded lease)
    (hIssued : lease ∈ s.leases) : op.LosesLease s.now lease s.db := by
  have hOwns := owns_of_superseded hInv hLease hIssued
  have hHeld (now : Instant) : s.db.heldJob lease now = none := heldJob_eq_none hOwns
  cases op with
  | persist page delay => exact Or.inr (Or.inl (hHeld s.now))
  | refreshSession session delay => exact Or.inr (Or.inl (hHeld s.now))
  | release => exact hOwns
  | _ => exact hHeld s.now

/-- Once another claim of the job has committed, or the job has ended, no fenced
transaction under the lease changes a row, and neither does one that finds its lease lost. -/
theorem lease_fencing {s₀ t t' : Store} {front back : List StoreAction} {op : WorkerOp}
    (hStart : s₀.Initial) (hFront : run (Store.step env) s₀ front = some s)
    (hIssued : lease ∈ s.leases) (hBack : run (Store.step env) s back = some t)
    (hFenced : op.fenced = true) (hStep : t.step env (.worker lease op) = some t')
    (hLost : s.Superseded lease ∨ op.LosesLease t.now lease t.db) : t'.db = t.db := by
  have hInv : StoreInv t :=
    storeInv_of_run hStart (run_append.mpr ⟨s, hFront, hBack⟩)
  have hStill : lease ∈ t.leases :=
    invariant (I := fun u => lease ∈ u.leases)
      (fun _ _ _ h hMem => (step_leases_suffix h).subset hMem) hIssued hBack
  have hLoses : op.LosesLease t.now lease t.db := by
    rcases hLost with hSuperseded | hLoses
    · have hLater : t.Superseded lease :=
        invariant (I := fun u => u.Superseded lease)
          (fun _ _ _ h hOld => superseded_step h hOld) hSuperseded hBack
      exact lost_of_superseded hInv hLater hStill
    · exact hLoses
  simp only [Store.step, if_pos hStill, Option.some.injEq] at hStep
  rw [← hStep]
  exact apply_of_lost hFenced hLoses

end Superseded

/-! ### A worker that was too slow

Job 7 is claimed, its lease expires, and it is claimed again. -/

def reclaimed : List StoreAction :=
  [.startScan ⟨1, 100, true⟩ 7 (.id 200) ⟨0, "session"⟩, .claim 7, .tick (seconds 91), .claim 7]

def staleLease : ScanLease :=
  { jobId := 7, userId := 1, pageSize := 100, telegramUserId := 200, connectionGeneration := 3,
    messagesScanned := 0, lastMessageId := none, maxMessages := 4, maxRuntimeSeconds := 3600,
    startedAt := 0, owner := 0, replaceExisting := true }

theorem lease_fencing_reclaimed : ∃ s t, run (Store.step demoEnv) demoStore reclaimed = some s ∧
    s.step demoEnv (.worker staleLease .requeue) = some t ∧ t.db = s.db := by
  have hLeases : (run (Store.step demoEnv) demoStore reclaimed).map Store.leases =
      some [{ staleLease with owner := 1 }, staleLease] := by decide +kernel
  obtain ⟨s, hRun, hIssued⟩ := Option.map_eq_some_iff.mp hLeases
  have hMem : staleLease ∈ s.leases := by
    rw [hIssued]
    decide
  have hStep : s.step demoEnv (.worker staleLease .requeue) = some _ := if_pos hMem
  refine ⟨s, _, hRun, hStep, ?_⟩
  exact lease_fencing demoStore_initial hRun hMem (run_nil _ s) rfl hStep
    (Or.inl (Or.inl ⟨[_], [], hIssued, _, List.mem_cons_self, rfl⟩))

end SavedOrganizer
