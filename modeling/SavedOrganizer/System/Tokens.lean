import SavedOrganizer.System.JobChange

/-!
# Owner tokens and active jobs over a run

`StoreInv` is what every step of the store keeps about jobs and leases: tokens grow along
the claims, the owner of a job row is the token of the latest claim of that job, a user has
one active job at most, and an active job is `stopping` exactly when its stop flag is set. It
holds in every store a run from an initial one reaches
(`storeInv_of_run`).
-/

namespace SavedOrganizer

open Transition

/-- The lease of the last claim of a job. -/
def Store.latestLease (s : Store) (jobId : JobId) : Option ScanLease :=
  s.leases.find? (·.jobId == jobId)

/-- The stop flag and the state `stopping` go together. -/
def StopFlag (job : ScanJob) : Prop :=
  job.state.active = true → (job.stopRequested = true ↔ job.state = .stopping)

structure StoreInv (s : Store) : Prop where
  ordered : s.leases.Pairwise fun later earlier => earlier.owner < later.owner
  fresh : ∀ lease ∈ s.leases, lease.owner < s.nextOwner
  owned : ∀ job ∈ s.db.jobs, ∀ owner, job.leaseOwner = some owner →
    ∃ lease, s.latestLease job.id = some lease ∧ lease.owner = owner
  oneActive : ∀ job ∈ s.db.jobs, ∀ job' ∈ s.db.jobs, job.userId = job'.userId →
    job.state.active = true → job'.state.active = true → job = job'
  stopFlag : ∀ job ∈ s.db.jobs, StopFlag job

theorem Store.Initial.inv {s : Store} (h : s.Initial) : StoreInv s := by
  refine ⟨?_, ?_, ?_, ?_, ?_⟩
  · rw [h.noLeases]
    exact List.Pairwise.nil
  · rw [h.noLeases]
    intro lease hLease
    cases hLease
  · intro job hJob owner hOwner
    rw [(h.jobsEnded job hJob).2] at hOwner
    cases hOwner
  · intro job hJob job' _ _ hActive
    rw [(h.jobsEnded job hJob).1] at hActive
    cases hActive
  · intro job hJob hActive
    rw [(h.jobsEnded job hJob).1] at hActive
    cases hActive

/-! ## What a claim issues -/

section Claim

variable {db : Database} {now : Instant} {owner : LeaseOwner} {jobId : JobId}

/-- A claim passes over the statements that end a job when it takes the job. -/
theorem find?_endUnclaimable {job : ScanJob} (hJob : db.jobs.find? jobId = some job)
    (hClaimable : job.claimable now = true) (hProvenance : job.hasProvenance = true) :
    (endUnclaimable now jobId db).jobs.find? jobId = some job := by
  have hFail : (job.id == jobId && job.state.active && !job.hasProvenance) = false := by
    rw [hProvenance]
    exact Bool.and_false _
  have hStop : (job.id == jobId && job.abandonedStop now) = false := by
    have hState : job.state ≠ .stopping := by
      intro hStopping
      simp only [ScanJob.claimable, hStopping] at hClaimable
      cases hClaimable
    simp [ScanJob.abandonedStop, hState]
  rw [endUnclaimable_jobs, Table.find?_update, Table.find?_update, hJob]
  simp only [Option.map_some, hFail, hStop, Bool.false_eq_true, if_false]

/-- A claim issues a lease exactly when it takes the job, and the lease is read from it. -/
theorem claimScanJob_lease {lease : ScanLease} :
    (claimScanJob now owner jobId db).2 = some lease ↔
      ∃ job, db.jobs.find? jobId = some job ∧ job.claimable now = true ∧
        job.hasProvenance = true ∧ readLease now owner (job.claim now owner) = some lease := by
  constructor
  · intro h
    obtain ⟨job, hClaimed, hLease⟩ := Option.bind_eq_some_iff.mp h
    obtain ⟨hFind, hSelected⟩ := Option.filter_eq_some_iff.mp hClaimed
    simp only [claimedBy, Bool.and_eq_true, beq_iff_eq] at hSelected
    obtain ⟨⟨hId, hProvenance⟩, hClaimable⟩ := hSelected
    -- a row the first two statements changed is not active any more
    rw [endUnclaimable_jobs, Table.find?_update, Table.find?_update] at hFind
    obtain ⟨mid, hMid, hRow⟩ := Option.map_eq_some_iff.mp hFind
    obtain ⟨old, hOld, hMidEq⟩ := Option.map_eq_some_iff.mp hMid
    have hNotFailed : mid = old := by
      rw [← hMidEq]
      split
      · exfalso
        rename_i hFail
        have hMidFailed : mid.hasProvenance = false := by
          rw [← hMidEq, if_pos hFail]
          simp only [Bool.and_eq_true, Bool.not_eq_true'] at hFail
          exact hFail.2
        have hKept : job.hasProvenance = mid.hasProvenance := by
          rw [← hRow]
          split <;> rfl
        rw [hKept, hMidFailed] at hProvenance
        cases hProvenance
      · rfl
    have hNotStopped : job = mid := by
      rw [← hRow]
      split
      · exfalso
        rename_i hStop
        rw [← hRow, if_pos hStop] at hClaimable
        cases hClaimable
      · rfl
    rw [hNotStopped, hNotFailed] at hClaimable hProvenance hLease
    exact ⟨old, hOld, hClaimable, hProvenance, hLease⟩
  · rintro ⟨job, hJob, hClaimable, hProvenance, hLease⟩
    have hSelected : claimedBy now jobId job = true := by
      have hId : job.id = jobId := Table.key_of_find? hJob
      simp [claimedBy, hId, hClaimable, hProvenance]
    show ((endUnclaimable now jobId db).jobs.find? jobId |>.filter _).bind _ = _
    rw [find?_endUnclaimable hJob hClaimable hProvenance, Option.filter_some_pos hSelected]
    exact hLease

/-- The lease names the row it was read from. -/
theorem readLease_eq_some {job : ScanJob} {lease : ScanLease}
    (h : readLease now owner job = some lease) :
    lease.jobId = job.id ∧ lease.userId = job.userId ∧ lease.owner = owner ∧
      lease.replaceExisting = job.replaceExisting ∧
      job.telegramUserId = some lease.telegramUserId ∧
      job.connectionGeneration = some lease.connectionGeneration ∧
      lease.messagesScanned = job.messagesScanned ∧ lease.lastMessageId = job.lastMessageId ∧
      lease.maxMessages = job.maxMessages := by
  unfold readLease at h
  split at h
  · rename_i hTelegram hGeneration
    cases h
    exact ⟨rfl, rfl, rfl, rfl, hTelegram, hGeneration, rfl, rfl, rfl⟩
  · cases h

theorem exists_readLease {job : ScanJob} (h : job.hasProvenance = true) :
    ∃ lease, readLease now owner job = some lease := by
  simp only [ScanJob.hasProvenance, Bool.and_eq_true, Option.isSome_iff_exists] at h
  obtain ⟨⟨telegramUserId, hTelegram⟩, ⟨generation, hGeneration⟩⟩ := h
  unfold readLease
  rw [hTelegram, hGeneration]
  exact ⟨_, rfl⟩

end Claim

/-! ## One step keeps the invariant -/

section Steps

variable {env : Env} {s s' : Store} {a : StoreAction}

/-- Only a claim issues leases. -/
theorem step_leases (h : s.step env a = some s') :
    (∃ jobId, a = .claim jobId ∧ s' = s.claim jobId) ∨
      (∀ jobId, a ≠ .claim jobId) ∧ s'.leases = s.leases ∧ s'.nextOwner = s.nextOwner := by
  cases a with
  | claim jobId =>
      cases h
      exact Or.inl ⟨jobId, rfl, rfl⟩
  | worker lease op =>
      simp only [Store.step] at h
      split at h
      · cases h
        exact Or.inr ⟨fun _ h => (by cases h), rfl, rfl⟩
      · cases h
  | startScan start jobId client session =>
      simp only [Store.step] at h
      split at h
      · cases h
      split at h <;> cases h <;> exact Or.inr ⟨fun _ h => (by cases h), rfl, rfl⟩
  | finishScanStart start jobId client session =>
      simp only [Store.step] at h
      split at h
      · cases h
        exact Or.inr ⟨fun _ h => (by cases h), rfl, rfl⟩
      · cases h
  | finishAuthStart i client =>
      obtain ⟨start, -, rfl⟩ := Option.map_eq_some_iff.mp h
      exact Or.inr ⟨fun _ h => (by cases h), rfl, rfl⟩
  | _ =>
      cases h
      exact Or.inr ⟨fun _ h => (by cases h), rfl, rfl⟩

/-- The leases after a claim. -/
theorem claim_leases (s : Store) (jobId : JobId) :
    (s.claim jobId).leases = s.leases ∨
      ∃ lease, (s.claim jobId).leases = lease :: s.leases ∧ lease.jobId = jobId ∧
        lease.owner = s.nextOwner ∧ ∃ job, s.db.jobs.find? jobId = some job ∧
          readLease s.now s.nextOwner (job.claim s.now s.nextOwner) = some lease := by
  unfold Store.claim
  dsimp only
  cases hLease : (claimScanJob s.now s.nextOwner jobId s.db).2 with
  | none => exact Or.inl rfl
  | some lease =>
      obtain ⟨job, hJob, -, -, hRead⟩ := claimScanJob_lease.mp hLease
      obtain ⟨hId, -, hOwner, -⟩ := readLease_eq_some hRead
      exact Or.inr ⟨lease, rfl, hId.trans (Table.key_of_find? hJob), hOwner, job, hJob, hRead⟩

theorem step_leases_suffix (h : s.step env a = some s') : s.leases <:+ s'.leases := by
  rcases step_leases h with ⟨jobId, rfl, rfl⟩ | ⟨-, hLeases, -⟩
  · rcases claim_leases s jobId with hSame | ⟨lease, hNew, -⟩
    · exact hSame ▸ List.suffix_rfl
    · rw [hNew]
      exact List.suffix_cons lease s.leases
  · exact hLeases ▸ List.suffix_rfl

theorem claim_latestLease_of_ne {jobId j : JobId} (hNe : jobId ≠ j) :
    (s.claim jobId).latestLease j = s.latestLease j := by
  unfold Store.latestLease
  rcases claim_leases s jobId with hSame | ⟨lease, hNew, hId, -⟩
  · rw [hSame]
  · rw [hNew, List.find?_cons_of_neg]
    rw [beq_iff_eq, hId]
    exact hNe

theorem claim_latestLease {jobId : JobId} {job : ScanJob}
    (hJob : s.db.jobs.find? jobId = some job) (hClaimable : job.claimable s.now = true)
    (hProvenance : job.hasProvenance = true) :
    ∃ lease, (s.claim jobId).latestLease jobId = some lease ∧ lease.owner = s.nextOwner := by
  obtain ⟨lease, hRead⟩ : ∃ lease, readLease s.now s.nextOwner
      (job.claim s.now s.nextOwner) = some lease := exists_readLease hProvenance
  have hIssued := claimScanJob_lease.mpr ⟨job, hJob, hClaimable, hProvenance, hRead⟩
  obtain ⟨hId, -, hOwner, -⟩ := readLease_eq_some hRead
  refine ⟨lease, ?_, hOwner⟩
  unfold Store.latestLease Store.claim
  dsimp only
  rw [hIssued]
  show List.find? _ (lease :: s.leases) = some lease
  rw [List.find?_cons_of_pos]
  rw [beq_iff_eq, hId]
  exact Table.key_of_find? hJob

theorem find?_claim {jobId : JobId} {job : ScanJob} (hJob : s.db.jobs.find? jobId = some job)
    (hClaimable : job.claimable s.now = true) (hProvenance : job.hasProvenance = true) :
    (s.claim jobId).db.jobs.find? jobId = some (job.claim s.now s.nextOwner) := by
  have hSelected : claimedBy s.now jobId job = true := by
    have hId : job.id = jobId := Table.key_of_find? hJob
    simp [claimedBy, hId, hClaimable, hProvenance]
  show (claimScanJob s.now s.nextOwner jobId s.db).1.jobs.find? jobId = _
  rw [claimScanJob_jobs, Table.find?_update,
    find?_endUnclaimable hJob hClaimable hProvenance, Option.map_some, if_pos hSelected]

/-- A claim that does not take the job issues no lease. -/
theorem claim_leases_of_not {jobId : JobId} {job : ScanJob}
    (hJob : s.db.jobs.find? jobId = some job)
    (hNot : ¬ (job.claimable s.now = true ∧ job.hasProvenance = true)) :
    (s.claim jobId).leases = s.leases := by
  unfold Store.claim
  dsimp only
  cases hLease : (claimScanJob s.now s.nextOwner jobId s.db).2 with
  | none => rfl
  | some lease =>
      obtain ⟨job', hJob', hClaimable, hProvenance, -⟩ := claimScanJob_lease.mp hLease
      rw [hJob] at hJob'
      cases hJob'
      exact absurd ⟨hClaimable, hProvenance⟩ hNot

theorem ordered_step (h : s.step env a = some s') (hInv : StoreInv s) :
    (s'.leases.Pairwise fun later earlier => earlier.owner < later.owner) ∧
      ∀ lease ∈ s'.leases, lease.owner < s'.nextOwner := by
  rcases step_leases h with ⟨jobId, rfl, rfl⟩ | ⟨-, hLeases, hNext⟩
  · have hNext : (s.claim jobId).nextOwner = s.nextOwner + 1 := rfl
    rcases claim_leases s jobId with hSame | ⟨lease, hNew, -, hOwner, -⟩
    · rw [hSame, hNext]
      exact ⟨hInv.ordered, fun lease hLease => Nat.lt_succ_of_lt (hInv.fresh lease hLease)⟩
    · rw [hNew, hNext]
      constructor
      · refine List.Pairwise.cons (fun earlier hEarlier => ?_) hInv.ordered
        rw [hOwner]
        exact hInv.fresh earlier hEarlier
      · intro other hOther
        rcases List.mem_cons.mp hOther with rfl | hOld
        · rw [hOwner]
          exact Nat.lt_succ_self _
        · exact Nat.lt_succ_of_lt (hInv.fresh other hOld)
  · rw [hLeases, hNext]
    exact ⟨hInv.ordered, hInv.fresh⟩

theorem owned_step (h : s.step env a = some s') (hInv : StoreInv s) :
    ∀ job ∈ s'.db.jobs, ∀ owner, job.leaseOwner = some owner →
      ∃ lease, s'.latestLease job.id = some lease ∧ lease.owner = owner := by
  intro job' hJob' owner hOwner
  rcases mem_step_jobs h hJob' with
    ⟨job, hJob, hChange⟩ | ⟨start, jobId, _, _, -, -, rfl⟩
  · have hId : job'.id = job.id := hChange.sameJob.id
    rcases hChange.leaseOwner with hNone | hSame | ⟨rfl, hClaimable, hProvenance, rfl⟩
    · rw [hNone] at hOwner
      cases hOwner
    · -- the row keeps its owner: the step was no claim of this job
      rw [hSame] at hOwner
      obtain ⟨lease, hLatest, hLease⟩ := hInv.owned job hJob owner hOwner
      refine ⟨lease, ?_, hLease⟩
      rcases step_leases h with ⟨jobId, rfl, rfl⟩ | ⟨-, hLeases, -⟩
      · by_cases hClaimed : jobId = job.id
        · subst hClaimed
          have hFind : s.db.jobs.find? job.id = some job := Table.find?_key hJob
          by_cases hTaken : job.claimable s.now = true ∧ job.hasProvenance = true
          · -- the new owner would be an old token
            have hRow := find?_claim hFind hTaken.1 hTaken.2
            have hRow' : (s.claim job.id).db.jobs.find? job.id = some job' :=
              Table.find?_eq_some.mpr ⟨hJob', hId⟩
            rw [hRow'] at hRow
            cases hRow
            cases hSame.trans hOwner
            exact absurd (hInv.fresh lease (List.mem_of_find?_eq_some hLatest))
              (hLease ▸ Nat.lt_irrefl _)
          · rw [hId, Store.latestLease, claim_leases_of_not hFind hTaken]
            exact hLatest
        · rw [hId, claim_latestLease_of_ne hClaimed]
          exact hLatest
      · rw [hId, Store.latestLease, hLeases]
        exact hLatest
    · cases h
      obtain rfl : s.nextOwner = owner := Option.some.inj hOwner
      exact claim_latestLease (Table.find?_key hJob) hClaimable hProvenance
  · cases hOwner

theorem oneActive_step (h : s.step env a = some s') (hInv : StoreInv s) :
    ∀ job ∈ s'.db.jobs, ∀ other ∈ s'.db.jobs, job.userId = other.userId →
      job.state.active = true → other.state.active = true → job = other := by
  -- two changed rows were one row; a created row is alone
  have hFreeOf {start : ScanStart} {job job' : ScanJob} (hJob : job ∈ s.db.jobs)
      (hChange : JobChange s a job job') (hActive : job'.state.active = true)
      (hUser : job'.userId = start.userId)
      (hFree : ∀ job ∈ s.db.jobs, job.activeOf start.userId = false) : False := by
    have hOld : job.activeOf start.userId = true :=
      activeOf_iff.mpr ⟨hChange.sameJob.userId.symm.trans hUser, hChange.active_of_active hActive⟩
    rw [hFree job hJob] at hOld
    cases hOld
  intro job₁ h₁ job₂ h₂ hUser hActive₁ hActive₂
  rcases mem_step_jobs h h₁ with ⟨old₁, hOld₁, hChange₁⟩ | ⟨start, jobId, t, g, hCreates, hFree, hNew⟩
  · rcases mem_step_jobs h h₂ with ⟨old₂, hOld₂, hChange₂⟩ | ⟨start, jobId, t, g, -, hFree, hNew⟩
    · have hSame : old₁ = old₂ := hInv.oneActive old₁ hOld₁ old₂ hOld₂
        (hChange₁.sameJob.userId.symm.trans (hUser.trans hChange₂.sameJob.userId))
        (hChange₁.active_of_active hActive₁) (hChange₂.active_of_active hActive₂)
      apply Table.eq_of_key h₁ h₂
      rw [key_job, key_job, hChange₁.sameJob.id, hChange₂.sameJob.id, hSame]
    · exact (hFreeOf hOld₁ hChange₁ hActive₁ (by rw [hUser, hNew]; rfl) hFree).elim
  · rcases mem_step_jobs h h₂ with ⟨old₂, hOld₂, hChange₂⟩ | ⟨start', jobId', t', g', hCreates', -, hNew'⟩
    · exact (hFreeOf hOld₂ hChange₂ hActive₂ (by rw [← hUser, hNew]; rfl) hFree).elim
    · rw [hCreates] at hCreates'
      cases hCreates'
      apply Table.eq_of_key h₁ h₂
      rw [hNew, hNew']
      rfl

theorem JobChange.stopFlag {job job' : ScanJob} (h : JobChange s a job job')
    (hOld : StopFlag job) : StopFlag job' := by
  cases h with
  | same => exact hOld
  | claimed _ hClaimable =>
      intro _
      have hState := hOld (active_of_claimable hClaimable)
      have hNotStopping : job.state ≠ .stopping := by
        intro hStopping
        rw [ScanJob.claimable, hStopping] at hClaimable
        cases hClaimable
      refine ⟨fun hFlag => absurd (hState.mp hFlag) hNotStopping, fun h => ?_⟩
      cases h
  | renewed => exact hOld
  | recorded => exact hOld
  | requeued lease _ hHolds =>
      intro hActive
      have hOwns := ScanLease.owns_of_holds hHolds
      have hState := hOld (ScanLease.active_of_owns hOwns)
      unfold ScanJob.requeue at hActive ⊢
      by_cases hStopping : job.stopping = true
      · rw [if_pos hStopping] at hActive
        cases hActive
      · rw [if_neg hStopping]
        rw [ScanJob.stopping, Bool.or_eq_true, not_or] at hStopping
        refine ⟨fun hFlag => absurd hFlag hStopping.1, fun h => ?_⟩
        cases h
  | released lease _ hOwns =>
      intro hActive
      unfold ScanJob.release at hActive ⊢
      by_cases hFlag : job.stopRequested = true
      · rw [if_pos hFlag] at hActive
        cases hActive
      · rw [if_neg hFlag]
        refine ⟨fun h => absurd h hFlag, fun h => ?_⟩
        cases h
  | finalized lease state _ _ _ _ =>
      intro hActive
      rw [show (job.finalize s.now state.1 _ _).state = state.1 from rfl, state.2] at hActive
      cases hActive
  | stopped =>
      intro hActive
      unfold ScanJob.stop at hActive ⊢
      by_cases hOnce : job.stopsAtOnce s.now = true
      · rw [if_pos hOnce] at hActive
        cases hActive
      · rw [if_neg hOnce]
        exact ⟨fun _ => rfl, fun _ => rfl⟩
  | ended _ _ hEnded =>
      intro hActive
      rcases hEnded.state with hState | hState <;> rw [hState] at hActive <;> cases hActive

theorem stopFlag_step (h : s.step env a = some s') (hInv : StoreInv s) :
    ∀ job ∈ s'.db.jobs, StopFlag job := by
  intro job' hJob'
  rcases mem_step_jobs h hJob' with ⟨job, hJob, hChange⟩ | ⟨_, _, _, _, -, -, rfl⟩
  · exact hChange.stopFlag (hInv.stopFlag job hJob)
  · intro _
    refine ⟨fun h => ?_, fun h => ?_⟩ <;> cases h

theorem storeInv_step (h : s.step env a = some s') (hInv : StoreInv s) : StoreInv s' := by
  obtain ⟨hOrdered, hFresh⟩ := ordered_step h hInv
  exact ⟨hOrdered, hFresh, owned_step h hInv, oneActive_step h hInv, stopFlag_step h hInv⟩

theorem storeInv_of_run {as : List StoreAction} (hStart : s.Initial)
    (hRun : run (Store.step env) s as = some s') : StoreInv s' :=
  invariant (fun _ _ _ h hInv => storeInv_step h hInv) hStart.inv hRun

end Steps

/-! ## Leases that own a job -/

section Owning

variable {s : Store} (hInv : StoreInv s)
include hInv

/-- Leases are told apart by their tokens. -/
theorem eq_of_owner {lease lease' : ScanLease} (h : lease ∈ s.leases) (h' : lease' ∈ s.leases)
    (hOwner : lease.owner = lease'.owner) : lease = lease' := by
  have hNodup : (s.leases.map ScanLease.owner).Nodup :=
    List.pairwise_map.mpr (hInv.ordered.imp fun hlt => Nat.ne_of_gt hlt)
  exact List.inj_on_of_nodup_map hNodup h h' hOwner

/-- The lease that owns a job is the one of its last claim. -/
theorem latestLease_of_owns {lease : ScanLease} (hLease : lease ∈ s.leases) {job : ScanJob}
    (hJob : job ∈ s.db.jobs) (hOwns : lease.owns job = true) :
    s.latestLease lease.jobId = some lease := by
  obtain ⟨hId, -, -, -, hOwner⟩ := ScanLease.names_iff.mp (ScanLease.names_of_owns hOwns)
  obtain ⟨latest, hLatest, hSame⟩ := hInv.owned job hJob lease.owner hOwner
  rw [← hId, hLatest, eq_of_owner hInv (List.mem_of_find?_eq_some hLatest) hLease hSame]

end Owning

end SavedOrganizer
