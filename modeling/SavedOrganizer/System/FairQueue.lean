import SavedOrganizer.System.Tokens

/-!
# The order of service

A single worker drains the queue with `process_next_scan_job`: it ends the abandoned stops,
selects the claimable job that was serviced least recently, claims it and processes it. Each
step reads a later clock than the one before. Everything else (arrivals, stops, what the
worker does under its lease) may happen between any two steps of the worker.

Once a job has been claimed, its heartbeat is later than that of every job that was waiting
at that time and has not been claimed since (`Behind`), so the worker cannot select it before
them.
-/

namespace SavedOrganizer

open Transition

/-! ## The worker's loop -/

/-- `coalesce(heartbeat_at, created_at)`. -/
def ScanJob.lastServiced (job : ScanJob) : Instant := job.heartbeatAt.getD job.createdAt

/-- The order of the queue. -/
def ScanJob.servedBefore (job other : ScanJob) : Bool :=
  job.lastServiced < other.lastServiced ||
    (job.lastServiced == other.lastServiced && job.createdAt < other.createdAt)

/-- What the query of `process_next_scan_job` may find; among equals it finds any. -/
def mayFind (now : Instant) (db : Database) : Option JobId → Bool
  | none => db.jobs.rows.all fun job => !job.claimable now
  | some jobId => (db.jobs.find? jobId).any fun job => job.claimable now &&
      db.jobs.rows.all fun other => !(other.claimable now && other.servedBefore job)

def SCAN_CLAIM_RETRY_LIMIT : Nat := 3

/-- Where the worker is in `process_next_scan_job`; `attempts` are the ones left. -/
inductive DrainPhase
  | idle
  | selecting (attempts : Nat)
  | claiming (attempts : Nat) (jobId : JobId)
  | processing (lease : ScanLease)
  deriving DecidableEq

structure Drain where
  store : Store
  phase : DrainPhase

inductive DrainAction
  /-- The worker calls `process_next_scan_job`. -/
  | begin
  | select (found : Option JobId)
  | claim
  /-- `process_scan_job` returns. -/
  | finish
  /-- The worker dies and is started again. -/
  | restart
  /-- A transaction of an API process, or of the worker under a lease. -/
  | other (a : StoreAction)

namespace Drain

/-- The store when the clock has advanced. -/
def read (d : Drain) (elapsed : Nat) : Store := { d.store with now := d.store.now + elapsed }

/-- A claim that issues no lease is tried again on another job. -/
def afterClaim (attempts : Nat) : Option ScanLease → DrainPhase
  | some lease => .processing lease
  | none => if attempts = 0 then .idle else .selecting attempts

def perform (env : Env) (s : Store) (phase : DrainPhase) : DrainAction → Option Drain
  | .begin =>
      if phase = .idle then
        (s.step env .terminalizeExpired).map (⟨·, .selecting SCAN_CLAIM_RETRY_LIMIT⟩)
      else none
  | .select found =>
      match phase with
      | .selecting (attempts + 1) =>
          if mayFind s.now s.db found then
            some ⟨s, found.elim .idle (.claiming attempts)⟩
          else none
      | _ => none
  | .claim =>
      match phase with
      | .claiming attempts jobId =>
          some ⟨s.claim jobId,
            afterClaim attempts (claimScanJob s.now s.nextOwner jobId s.db).2⟩
      | _ => none
  | .finish =>
      match phase with
      | .processing _ => some ⟨s, .idle⟩
      | _ => none
  | .restart => some ⟨s, .idle⟩
  | .other (.claim _) => none
  | .other a => (s.step env a).map (⟨·, phase⟩)

/-- The clock is strictly increasing. -/
def step (env : Env) (d : Drain) (a : Nat × DrainAction) : Option Drain :=
  if a.1 = 0 then none else perform env (d.read a.1) d.phase a.2

/-- The step claims job `j`. -/
def claims (j : JobId) (d : Drain) (a : Nat × DrainAction) : Bool :=
  match d.phase, a.2 with
  | .claiming _ jobId, .claim => jobId == j &&
      (claimScanJob (d.read a.1).now d.store.nextOwner jobId d.store.db).2.isSome
  | _, _ => false

/-- Job `j` could be claimed. -/
def waits (j : JobId) (d : Drain) : Bool :=
  (d.store.db.jobs.find? j).any fun job => job.claimable d.store.now

end Drain

/-! ## One job -/

section Jobs

variable {s : Store} {a : StoreAction} {job job' : ScanJob}

/-- A lease does not hold a job that could be claimed. -/
theorem not_holds_of_claimable {lease : ScanLease} {now : Instant}
    (h : job.claimable now = true) : ¬ lease.holds now job = true := by
  intro hHolds
  obtain ⟨hOwns, hLive⟩ := ScanLease.holds_iff.mp hHolds
  simp only [ScanJob.claimable, ScanJob.leaseExpired, Bool.or_eq_true, Bool.and_eq_true,
    beq_iff_eq] at h
  rcases h with hPending | ⟨-, hExpired⟩
  · rcases (ScanLease.owns_iff.mp hOwns).2 with hState | hState <;>
      rw [hState] at hPending <;> cases hPending
  · cases hExpires : job.leaseExpiresAt with
    | none =>
        rw [hExpires] at hLive
        cases hLive
    | some expires =>
        simp only [hExpires, Option.all_some, Option.any_some, decide_eq_true_eq] at hExpired hLive
        exact absurd hExpired (Nat.not_le.mpr hLive)

theorem claimable_mono {now now' : Instant} (hLe : now ≤ now') (h : job.claimable now = true) :
    job.claimable now' = true := by
  simp only [ScanJob.claimable, ScanJob.leaseExpired, Bool.or_eq_true, Bool.and_eq_true] at h ⊢
  refine h.imp_right fun hBoth => ?_
  obtain ⟨hState, hExpired⟩ := hBoth
  refine ⟨hState, ?_⟩
  cases hExpires : job.leaseExpiresAt with
  | none => rfl
  | some expires =>
      simp only [hExpires, Option.all_some, decide_eq_true_eq] at hExpired ⊢
      exact Nat.le_trans hExpired hLe

theorem not_claimable_stop {now now' : Instant} : ¬ (job.stop now).claimable now' = true := by
  simp only [ScanJob.claimable, ScanJob.stop, Bool.or_eq_true, Bool.and_eq_true, beq_iff_eq]
  by_cases hAtOnce : job.stopsAtOnce now = true <;> simp [hAtOnce]

/-- A step keeps the heartbeat of an active job or sets it to the clock. -/
theorem JobChange.heartbeat (h : JobChange s a job job') (hActive : job'.state.active = true) :
    (job'.heartbeatAt = job.heartbeatAt ∧ job'.createdAt = job.createdAt) ∨
      job'.heartbeatAt = some s.now := by
  cases h with
  | same => exact Or.inl ⟨rfl, rfl⟩
  | claimed => exact Or.inr rfl
  | renewed => exact Or.inr rfl
  | recorded => exact Or.inl ⟨rfl, rfl⟩
  | requeued => exact Or.inr rfl
  | released => exact Or.inl ⟨rfl, rfl⟩
  | finalized => exact Or.inl ⟨rfl, rfl⟩
  | stopped => exact Or.inl ⟨rfl, rfl⟩
  | ended _ _ hEnded =>
      rcases hEnded.state with hState | hState <;> rw [hState] at hActive <;> cases hActive

/-- A waiting job keeps its place in the queue until it is claimed. -/
theorem JobChange.lastServiced (h : JobChange s a job job') (hWaits : job.claimable s.now = true)
    {now : Instant} (hWaits' : job'.claimable now = true) :
    job'.lastServiced = job.lastServiced ∨ a = .claim job.id ∧ job.hasProvenance = true := by
  cases h with
  | same => exact Or.inl rfl
  | claimed h _ hProvenance => exact Or.inr ⟨h, hProvenance⟩
  | renewed _ _ hHolds => exact absurd hHolds (not_holds_of_claimable hWaits)
  | recorded _ _ _ _ hHolds => exact absurd hHolds (not_holds_of_claimable hWaits)
  | requeued _ _ hHolds => exact absurd hHolds (not_holds_of_claimable hWaits)
  | released => exact Or.inl rfl
  | finalized _ _ _ _ _ hHolds => exact absurd hHolds (not_holds_of_claimable hWaits)
  | stopped => exact absurd hWaits' not_claimable_stop
  | ended _ _ hEnded =>
      have hActive := active_of_claimable hWaits'
      rcases hEnded.state with hState | hState <;> rw [hState] at hActive <;> cases hActive

end Jobs

/-! ## The worker's steps -/

/-- What a step of the loop in phase `phase` makes of the store `s`, whose clock it has read. -/
inductive DrainChange (env : Env) (s : Store) (phase : DrainPhase) (act : DrainAction) :
    Drain → Prop
  | moved (phase' : DrainPhase)
      (hFound : ∀ n j, phase' = .claiming n j → mayFind s.now s.db (some j) = true) :
      DrainChange env s phase act ⟨s, phase'⟩
  | claimed (n : Nat) (j : JobId) (phase' : DrainPhase) (hAct : act = .claim)
      (hPhase : phase = .claiming n j) (hNext : ∀ m i, phase' ≠ .claiming m i) :
      DrainChange env s phase act ⟨s.claim j, phase'⟩
  | stored (a : StoreAction) (s' : Store) (phase' : DrainPhase) (hOther : ∀ j, a ≠ .claim j)
      (hStep : s.step env a = some s')
      (hPhase : phase' = phase ∨ ∀ m i, phase' ≠ .claiming m i) :
      DrainChange env s phase act ⟨s', phase'⟩

section Steps

variable {env : Env} {d d' : Drain} {a : Nat × DrainAction} {j : JobId} {job job' : ScanJob}

theorem afterClaim_ne (n : Nat) (lease : Option ScanLease) (m : Nat) (i : JobId) :
    Drain.afterClaim n lease ≠ .claiming m i := by
  cases lease with
  | some lease => simp [Drain.afterClaim]
  | none => by_cases hn : n = 0 <;> simp [Drain.afterClaim, hn]

theorem perform_change {s : Store} {phase : DrainPhase} {act : DrainAction}
    (h : Drain.perform env s phase act = some d') : DrainChange env s phase act d' := by
  cases act with
  | begin =>
      simp only [Drain.perform] at h
      split at h
      · obtain ⟨s', hStep, rfl⟩ := Option.map_eq_some_iff.mp h
        exact .stored _ s' _ (by simp) hStep (Or.inr (by simp))
      · cases h
  | select found =>
      simp only [Drain.perform] at h
      split at h
      · split at h
        · rename_i hFound
          cases h
          refine .moved _ fun n j hPhase => ?_
          cases found with
          | none => cases hPhase
          | some jobId =>
              cases hPhase
              exact hFound
        · cases h
      · cases h
  | claim =>
      simp only [Drain.perform] at h
      split at h
      · rename_i n jobId
        cases h
        exact .claimed n jobId _ rfl rfl (afterClaim_ne n _)
      · cases h
  | finish =>
      simp only [Drain.perform] at h
      split at h
      · cases h
        exact .moved _ (by simp)
      · cases h
  | restart =>
      cases h
      exact .moved _ (by simp)
  | other a =>
      unfold Drain.perform at h
      cases a with
      | claim jobId => cases h
      | _ =>
          obtain ⟨s', hStep, rfl⟩ := Option.map_eq_some_iff.mp h
          exact .stored _ s' _ (by simp) hStep (Or.inl rfl)

theorem drain_change (h : d.step env a = some d') :
    0 < a.1 ∧ DrainChange env (d.read a.1) d.phase a.2 d' := by
  simp only [Drain.step, Option.ite_none_left_eq_some] at h
  exact ⟨Nat.pos_of_ne_zero h.1, perform_change h.2⟩

/-- Every step of the loop is a step of the store. -/
theorem DrainChange.store_step {s : Store} {phase : DrainPhase} {act : DrainAction}
    (h : DrainChange env s phase act d') : ∃ a, s.step env a = some d'.store ∧
      ∀ i, a = .claim i → act = .claim ∧ ∃ n, phase = .claiming n i := by
  cases h with
  | moved phase' hFound => exact ⟨.tick 0, rfl, fun i hClaim => by cases hClaim⟩
  | claimed n j phase' hAct hPhase =>
      refine ⟨.claim j, rfl, fun i hClaim => ⟨hAct, n, ?_⟩⟩
      rw [hPhase, StoreAction.claim.inj hClaim]
  | stored a s' phase' hOther hStep => exact ⟨a, hStep, fun i hClaim => absurd hClaim (hOther i)⟩

theorem drain_now (h : d.step env a = some d') :
    d.store.now < (d.read a.1).now ∧ (d.read a.1).now ≤ d'.store.now := by
  obtain ⟨hElapsed, hChange⟩ := drain_change h
  obtain ⟨sa, hStep, -⟩ := hChange.store_step
  exact ⟨Nat.lt_add_of_pos_right hElapsed, Store.now_le hStep⟩

/-- A step that claims a job is a claim of the store that takes it. -/
theorem claims_iff : d.claims j a = true ↔ a.2 = .claim ∧ (∃ n, d.phase = .claiming n j) ∧
    ∃ job, d.store.db.jobs.find? j = some job ∧ job.claimable (d.read a.1).now = true ∧
      job.hasProvenance = true := by
  constructor
  · intro h
    unfold Drain.claims at h
    split at h
    · rename_i n jobId hPhase hAct
      rw [Bool.and_eq_true, beq_iff_eq] at h
      obtain ⟨rfl, hIssued⟩ := h
      obtain ⟨lease, hLease⟩ := Option.isSome_iff_exists.mp hIssued
      obtain ⟨job, hJob, hClaimable, hProvenance, -⟩ := claimScanJob_lease.mp hLease
      exact ⟨hAct, ⟨n, hPhase⟩, job, hJob, hClaimable, hProvenance⟩
    · cases h
  · rintro ⟨hAct, ⟨n, hPhase⟩, job, hJob, hClaimable, hProvenance⟩
    obtain ⟨lease, hRead⟩ : ∃ lease, readLease (d.read a.1).now d.store.nextOwner
        (job.claim (d.read a.1).now d.store.nextOwner) = some lease :=
      exists_readLease hProvenance
    have hLease := claimScanJob_lease.mpr ⟨job, hJob, hClaimable, hProvenance, hRead⟩
    unfold Drain.claims
    rw [hPhase, hAct]
    simp [hLease]

/-! ## Waiting jobs stay ahead -/

/-- No active job was serviced in the future. -/
def Serviced (d : Drain) : Prop :=
  ∀ job ∈ d.store.db.jobs, job.state.active = true → job.lastServiced ≤ d.store.now

theorem serviced_step (h : d.step env a = some d') (hServiced : Serviced d) : Serviced d' := by
  intro job' hJob' hActive'
  obtain ⟨sa, hStep, -⟩ := (drain_change h).2.store_step
  obtain ⟨hBefore, hAfter⟩ := drain_now h
  rcases mem_step_jobs hStep hJob' with ⟨job, hJob, hChange⟩ | ⟨_, _, _, _, -, -, rfl⟩
  · rcases hChange.heartbeat hActive' with ⟨hHeartbeat, hCreated⟩ | hNow
    · have hOld := hServiced job hJob (hChange.active_of_active hActive')
      unfold ScanJob.lastServiced at hOld ⊢
      rw [hHeartbeat, hCreated]
      exact Nat.le_trans hOld (Nat.le_trans (Nat.le_of_lt hBefore) hAfter)
    · unfold ScanJob.lastServiced
      rw [hNow, Option.getD_some]
      exact hAfter
  · exact hAfter

/-- Since time `t`, job `j` has been serviced and the waiting job `k` has not. -/
structure Behind (j k : JobId) (t : Instant) (d : Drain) : Prop where
  clock : t ≤ d.store.now
  serviced : ∃ job, d.store.db.jobs.find? j = some job ∧
    (job.state.active = true → ∃ heartbeat, job.heartbeatAt = some heartbeat ∧ t ≤ heartbeat)
  waiting : ∃ job, d.store.db.jobs.find? k = some job ∧ job.lastServiced < t
  notNext : ∀ n, d.phase ≠ .claiming n j

/-- Another job's claim leaves an active job alone. -/
theorem JobChange.eq_of_claim {s : Store} (h : JobChange s (.claim j) job job')
    (hOther : job.id ≠ j) (hActive : job'.state.active = true) : job' = job := by
  cases h with
  | same => rfl
  | claimed h => exact absurd (StoreAction.claim.inj h).symm hOther
  | renewed _ h => cases h
  | recorded _ _ _ h => cases h
  | requeued _ h => cases h
  | released _ h => cases h
  | finalized _ _ _ _ h => cases h
  | stopped h => cases h
  | ended _ _ hEnded =>
      rcases hEnded.state with hState | hState <;> rw [hState] at hActive <;> cases hActive

/-- A claim puts the job behind all that wait. -/
theorem behind_claim {k : JobId} (hServiced : Serviced d) (h : d.step env a = some d')
    (hClaims : d.claims j a = true) (hOther : k ≠ j) (hWaits : d'.waits k = true) :
    Behind j k (d.read a.1).now d' := by
  obtain ⟨hAct, ⟨n, hPhase⟩, job, hJob, hClaimable, hProvenance⟩ := claims_iff.mp hClaims
  obtain ⟨hBefore, hAfter⟩ := drain_now h
  rw [Drain.step, hAct, hPhase] at h
  simp only [Option.ite_none_left_eq_some, Drain.perform, Option.some.injEq] at h
  obtain ⟨-, rfl⟩ := h
  refine ⟨hAfter, ?_, ?_, ?_⟩
  · exact ⟨_, find?_claim hJob hClaimable hProvenance, fun _ => ⟨_, rfl, Nat.le_refl _⟩⟩
  · obtain ⟨other', hOther', hWaits⟩ := (Option.any_eq_true _ _).mp hWaits
    have hActive := active_of_claimable hWaits
    have hStep : (d.read a.1).step env (.claim j) = some ((d.read a.1).claim j) := rfl
    rcases mem_step_jobs hStep (Table.mem_of_find? hOther') with
      ⟨other, hMem, hChange⟩ | ⟨_, _, _, _, hCreates, -⟩
    · have hId : other.id = k := hChange.sameJob.id.symm.trans (Table.key_of_find? hOther')
      obtain rfl := hChange.eq_of_claim (by rw [hId]; exact hOther) hActive
      exact ⟨other', hOther', Nat.lt_of_le_of_lt (hServiced _ hMem hActive) hBefore⟩
    · cases hCreates
  · exact fun m => afterClaim_ne n _ m j

/-- While job `k` waits and is not claimed, it stays ahead of job `j`. -/
theorem behind_step {k : JobId} {t : Instant} (hBehind : Behind j k t d)
    (h : d.step env a = some d') (hWaits : d.waits k = true) (hWaits' : d'.waits k = true)
    (hNot : d.claims k a = false) : Behind j k t d' := by
  obtain ⟨hBefore, hAfter⟩ := drain_now h
  obtain ⟨-, hChange⟩ := drain_change h
  obtain ⟨sa, hStep, hClaim⟩ := hChange.store_step
  obtain ⟨job, hJob, hHeartbeat⟩ := hBehind.serviced
  obtain ⟨other, hOther, hEarlier⟩ := hBehind.waiting
  have hClock : t ≤ (d.read a.1).now := Nat.le_trans hBehind.clock (Nat.le_of_lt hBefore)
  -- job `j` is not serviced earlier than before
  obtain ⟨job', hJob', hJobChange⟩ := step_job hStep hJob
  have hServiced : job'.state.active = true →
      ∃ heartbeat, job'.heartbeatAt = some heartbeat ∧ t ≤ heartbeat := by
    intro hActive
    rcases hJobChange.heartbeat hActive with ⟨hSame, -⟩ | hNow
    · rw [hSame]
      exact hHeartbeat (hJobChange.active_of_active hActive)
    · exact ⟨_, hNow, hClock⟩
  -- job `k` keeps its place
  obtain ⟨other', hOther', hOtherChange⟩ := step_job hStep hOther
  have hClaimable : other.claimable (d.read a.1).now = true := by
    simp only [Drain.waits, hOther, Option.any_some] at hWaits
    exact claimable_mono (Nat.le_of_lt hBefore) hWaits
  have hClaimable' : other'.claimable d'.store.now = true := by
    simpa only [Drain.waits, hOther', Option.any_some] using hWaits'
  have hEarlier' : other'.lastServiced < t := by
    rcases hOtherChange.lastServiced hClaimable hClaimable' with hSame | ⟨hClaimed, hProvenance⟩
    · rw [hSame]
      exact hEarlier
    · obtain ⟨hAct, hPhase⟩ := hClaim _ hClaimed
      have hId : other.id = k := Table.key_of_find? hOther
      rw [hId] at hPhase
      rw [claims_iff.mpr ⟨hAct, hPhase, other, hOther, hClaimable, hProvenance⟩] at hNot
      cases hNot
  refine ⟨Nat.le_trans hClock hAfter, ⟨job', hJob', hServiced⟩, ⟨other', hOther', hEarlier'⟩, ?_⟩
  intro n hPhase
  cases hChange with
  | moved phase' hFound =>
      -- the query has found `j`, although `k` comes before it
      have hFound := hFound n j hPhase
      simp only [mayFind, hJob', Option.any_some, Bool.and_eq_true] at hFound
      obtain ⟨heartbeat, hHeartbeat, hLe⟩ := hServiced (active_of_claimable hFound.1)
      have hLast := List.all_eq_true.mp hFound.2 other' (Table.mem_of_find? hOther')
      have hAhead : other'.servedBefore job' = true := by
        have hLater : t ≤ job'.lastServiced := by
          unfold ScanJob.lastServiced
          rw [hHeartbeat]
          exact hLe
        simp only [ScanJob.servedBefore, Bool.or_eq_true, decide_eq_true_eq]
        exact Or.inl (Nat.lt_of_lt_of_le hEarlier' hLater)
      rw [show other'.claimable (d.read a.1).now = true from hClaimable', hAhead] at hLast
      cases hLast
  | claimed m i phase' hAct hOld hNext => exact hNext n j hPhase
  | stored act s' phase' hNotClaim hStored hOld =>
      rcases hOld with hSame | hNext
      · exact hBehind.notNext n (hSame.symm.trans hPhase)
      · exact hNext n j hPhase

end Steps

/-! ## Between two claims of a job -/

/-- Between two claims of a job, every other job that waits is claimed. -/
theorem fair_service {env : Env} {d d₁ d₁' d₂ d₂' : Drain} {front mid : List (Nat × DrainAction)}
    {a₁ a₂ : Nat × DrainAction} {j k : JobId} (hStore : d.store.Initial)
    (hFront : run (Drain.step env) d front = some d₁)
    (hFirst : d₁.step env a₁ = some d₁' ∧ d₁.claims j a₁ = true)
    (hMid : run (Drain.step env) d₁' mid = some d₂)
    (hSecond : d₂.step env a₂ = some d₂' ∧ d₂.claims j a₂ = true) (hOther : k ≠ j)
    (hWaits : holdsUntil (Drain.step env) (Drain.waits k) (Drain.claims k) d₁' mid = true) :
    ∃ u a v, StepOf (Drain.step env) d₁' mid u a v ∧ u.claims k a = true := by
  by_contra hNever
  have hNot : ∀ u a v, StepOf (Drain.step env) d₁' mid u a v → u.claims k a = false := by
    intro u a v hStep
    by_contra hClaims
    exact hNever ⟨u, a, v, hStep, by simpa using hClaims⟩
  have hVisited {u : Drain} (hVisit : Visits (Drain.step env) d₁' mid u) : u.waits k = true :=
    of_holdsUntil hWaits hNot hVisit
  have hServiced : Serviced d₁ := by
    refine invariant (fun _ _ _ hStep => serviced_step hStep) ?_ hFront
    intro job hJob hActive
    rw [(hStore.jobsEnded job hJob).1] at hActive
    cases hActive
  have hStart : Behind j k (d₁.read a₁.1).now d₁' :=
    behind_claim hServiced hFirst.1 hFirst.2 hOther (hVisited (visits_start _ _ _))
  have hBehind : Behind j k (d₁.read a₁.1).now d₂ :=
    run_induct hStart hMid fun u a v hStep hBehind => behind_step hBehind hStep.step
      (hVisited hStep.before) (hVisited hStep.after) (hNot u a v hStep)
  obtain ⟨-, ⟨n, hPhase⟩, -⟩ := claims_iff.mp hSecond.2
  exact hBehind.notNext n hPhase

/-! ### Two users

Job 7 of user 1 is served, then job 8 of user 2, then job 7 again. -/

def twoUsers : Drain :=
  { store := { demoStore with
      db := { demoDatabase with
        connections := ⟨[demoConnection,
          { demoConnection with userId := 2, telegramUserId := some 300 }], by decide⟩ } }
    phase := .idle }

/-- The worker claims the job and gives it back at the end of a slice. -/
def slice (jobId : JobId) (lease : ScanLease) : List (Nat × DrainAction) :=
  [(1, .begin), (1, .select (some jobId)), (1, .claim), (1, .other (.worker lease .requeue)),
    (1, .finish)]

def queued : List (Nat × DrainAction) :=
  [(1, .other (.startScan ⟨1, 100, true⟩ 7 (.id 200) ⟨0, "session"⟩)),
    (1, .other (.startScan ⟨2, 100, false⟩ 8 (.id 300) ⟨0, "session"⟩)),
    (1, .begin), (1, .select (some 7))]

def firstLease : ScanLease :=
  { jobId := 7, userId := 1, pageSize := 100, telegramUserId := 200, connectionGeneration := 3,
    messagesScanned := 0, lastMessageId := none, maxMessages := 4, maxRuntimeSeconds := 3600,
    startedAt := 5, owner := 0, replaceExisting := true }

def otherLease : ScanLease :=
  { firstLease with
    jobId := 8, userId := 2, telegramUserId := 300, startedAt := 10, owner := 1,
    replaceExisting := false }

def served : List (Nat × DrainAction) :=
  [(1, .other (.worker firstLease .requeue)), (1, .finish)] ++ slice 8 otherLease ++
    [(1, .begin), (1, .select (some 7))]

def firstClaim : Drain := (run (Drain.step demoEnv) twoUsers (queued ++ [(1, .claim)])).getD twoUsers

theorem twoUsers_initial : twoUsers.store.Initial where
  noLeases := rfl
  noScanStarts := rfl
  noAuthStarts := rfl
  jobsEnded := fun _ hJob => by cases hJob
  pendingUnbound := (by decide : ∀ c ∈ twoUsers.store.db.connections.rows,
    c.state = .pending → c.telegramUserId = none)
  sourcesUnique := fun _ hm => by cases hm

theorem fair_service_two : ∃ u a v,
    StepOf (Drain.step demoEnv) firstClaim served u a v ∧ u.claims 8 a = true := by
  have hBoth : (run (Drain.step demoEnv) twoUsers (queued ++ [(1, .claim)])).isSome = true := by
    decide +kernel
  have hFirst := run_getD (d := twoUsers) hBoth
  have hMid : (run (Drain.step demoEnv) firstClaim served).isSome = true := by decide +kernel
  have hLast : (((run (Drain.step demoEnv) firstClaim served).getD twoUsers).step demoEnv
      (1, .claim)).isSome = true := by decide +kernel
  obtain ⟨d₁, hRun, hStep⟩ := run_concat.mp hFirst
  obtain ⟨d₂', hStep₂⟩ := Option.isSome_iff_exists.mp hLast
  have hd₁ : d₁ = (run (Drain.step demoEnv) twoUsers queued).getD twoUsers := by
    rw [hRun, Option.getD_some]
  subst hd₁
  exact fair_service twoUsers_initial hRun ⟨hStep, by decide +kernel⟩ (run_getD hMid)
    ⟨hStep₂, by decide +kernel⟩ (by decide : (8 : JobId) ≠ 7) (by decide +kernel)

end SavedOrganizer
