import SavedOrganizer.System.Progress
import SavedOrganizer.System.StatementCommits

/-!
# The invariant of the statements of all

`StepKind` is the inversion of a step of the world. Each kind changes what one transaction sees,
and the workers that wait for it; the others see at most its commit. So every call keeps
`CallSeen` in every run, and an owner token belongs to one worker or one claim.
-/

namespace SavedOrganizer

open Transition MarkerView

/-- The workers that wait for the transaction. -/
def StatementWorld.waits (w : StatementWorld) (t : TransactionId) : Waiter :=
  fun lease phase next => w.workers lease.owner = some ⟨lease, phase, some (t, next)⟩

/-- The token of a claim. -/
def MarkerPhase.claimant : MarkerPhase → Option LeaseOwner
  | claimFailing _ _ owner => some owner
  | claimCancelling _ _ owner => some owner
  | claimClearing _ _ owner => some owner
  | claimUpdating _ _ owner => some owner
  | claimCommitting _ _ owner _ => some owner
  | claimReading _ _ owner => some owner
  | _ => none

structure WorldSeen (w : StatementWorld) : Prop where
  calls : ∀ t, CallSeen (w.markers.store.seenBy t) (w.waits t) (w.markers.calls t)
  workers : ∀ owner worker, w.workers owner = some worker →
    worker.lease.owner = owner ∧ owner < w.nextOwner
  claims : ∀ t owner, (w.markers.calls t).claimant = some owner → owner < w.nextOwner ∧
    w.workers owner = none ∧ ∀ t', (w.markers.calls t').claimant = some owner → t' = t

/-! ## The kinds of steps -/

/-- A write of another session: it deletes messages, or writes a connection. -/
structure OutsideWrite (s s' : MarkerView) : Prop where
  jobs : s'.jobs = s.jobs
  messages : ∀ key, s'.messages.own key = s.messages.own key ∨ s'.messages.own key = some none
  committed : s'.messages.committed = s.messages.committed

inductive StepKind (settings : Settings) (w : StatementWorld) (a : StatementAction)
    (w' : StatementWorld) : Prop
  | passes (hStore : w'.markers.store = w.markers.store) (hCalls : w'.markers.calls = w.markers.calls)
      (hWorkers : w'.workers = w.workers) (hNext : w'.nextOwner = w.nextOwner)
  | begins {t : TransactionId} {call : MarkerCall} (hIdle : w.markers.calls t = .idle)
      (hStore : w'.markers.store = w.markers.store)
      (hCalls : w'.markers.calls = Function.update w.markers.calls t (call.begins w.markers.now))
      (hWorkers : w'.workers = w.workers)
      (hCall : call.unawaited = true ∧ w'.nextOwner = w.nextOwner ∨
        ∃ jobId, call = .claim jobId w.nextOwner ∧ w'.nextOwner = w.nextOwner + 1)
  | advances {t : TransactionId} {store' : MarkerStore} {phase' : MarkerPhase}
      (hAction : a = .advance t) (hRefuses : w.markers.refuses t = false)
      (hAdvances : CallAdvances w.markers.now t w.markers.store (w.markers.calls t) store' phase')
      (hStore : w'.markers.store = store')
      (hCalls : w'.markers.calls = Function.update w.markers.calls t phase')
      (hWorkers : w'.workers = w.informed t phase') (hNext : w'.nextOwner = w.nextOwner)
  | raises {t : TransactionId} (hStore : w'.markers.store = w.markers.store.rollback t)
      (hCalls : w'.markers.calls = Function.update w.markers.calls t .returned)
      (hWorkers : w'.workers = fun owner => (w.workers owner).bind (·.hears t .gaveUp))
      (hNext : w'.nextOwner = w.nextOwner)
  | turns {vault : Vault} {owner : LeaseOwner} {worker : ScanWorker} {act : ScanAct} {turn : ScanTurn}
      (hWorker : w.workers owner = some worker)
      (hTurn : ScanWorker.turn settings (w.source worker.lease.telegramUserId) w.markers.now
        (w.stopRequested worker.lease) worker.lease worker.phase act = some turn)
      (hTake : (w.abandon worker).take vault settings owner worker.lease turn worker.phase = some w')
  | writes {t : TransactionId} {store' : MarkerStore} {s' : MarkerView}
      (hAction : (∃ edit, a = .edit t edit) ∨ s'.messages = (w.markers.store.seenBy t).messages)
      (hIdle : w.markers.calls t = .idle) (hStatement : Statement t w.markers.store store' s')
      (hWrite : OutsideWrite (w.markers.store.seenBy t) s')
      (hStore : w'.markers.store = store'.commit t) (hCalls : w'.markers.calls = w.markers.calls)
      (hWorkers : w'.workers = w.workers) (hNext : w'.nextOwner = w.nextOwner)

section Kinds

variable {vault : Vault} {settings : Settings} {filedUnder : MessageKey → CategoryId}
  {w w' : StatementWorld} {a : StatementAction} {t : TransactionId}

theorem begin_eq_some {m m' : MarkerWorld} {call : MarkerCall}
    (h : m.step vault settings (.begin t call) = some m') : m.calls t = .idle ∧
      m' = { m with calls := Function.update m.calls t (call.begins m.now) } := by
  simp only [MarkerWorld.step] at h
  split at h
  · rename_i hIdle
    split at h
    · exact ⟨hIdle, (Option.some.inj h).symm⟩
    · cases h
  · cases h

end Kinds

/-! ## Who waits after a step -/

section Waits

variable {w w' : StatementWorld} {t t' : TransactionId} {phase phase' : MarkerPhase}
  {lease : ScanLease} {wphase : WorkerPhase} {next : Option WorkerPhase}

theorem hears_lease {worker worker' : ScanWorker} {result : CallResult}
    (h : worker.hears t result = some worker') : worker'.lease = worker.lease := by
  unfold ScanWorker.hears at h
  split at h
  · cases h
    rfl
  · split at h
    · cases h
      rfl
    · split at h
      · cases h
        rfl
      · obtain ⟨phase, -, rfl⟩ := Option.map_eq_some_iff.mp h
        rfl
      · cases h
        rfl

theorem informed_eq (h : w.markers.issues t = none) :
    w.informed t phase' =
      fun owner => (w.workers owner).bind (·.hears t (.of (w.markers.calls t) phase')) := by
  funext owner
  unfold StatementWorld.informed
  rw [h]

theorem informed_issues (h : w.markers.issues t = some lease) (owner : LeaseOwner) :
    w.informed t phase' owner = if owner = lease.owner then some ⟨lease, .claimed, none⟩
      else (w.workers owner).bind (·.hears t (.of (w.markers.calls t) phase')) := by
  unfold StatementWorld.informed
  rw [h]

theorem result_returned : CallResult.of phase .returned ≠ .pending := by
  cases phase with
  | committing next => cases next <;> exact nofun
  | _ => exact nofun

theorem result_goesOn (hPhase : phase ≠ .committing none) (hPhase' : phase' ≠ .returned) :
    CallResult.of phase phase' = .pending := by
  unfold CallResult.of
  split
  · exact absurd rfl hPhase
  · exact absurd rfl hPhase'
  · rfl

end Waits

/-! ## The steps -/

/-- What a call of a worker needs of the worker that waits for it. -/
def CallAwaited (waits : Waiter) : MarkerCall → Prop
  | .persistPage lease page => ∃ st st', AwaitsPage waits lease page st st'
  | .requeue lease => ∃ wphase, waits lease wphase none
  | .release lease => ∃ wphase, waits lease wphase none
  | .finalize lease state _ completionReason => prunes lease state completionReason = true →
      ∃ outcome, waits lease (.ending outcome) none ∧ outcome.reason = .sourceExhausted
  | _ => True

section Calls

variable {now : Instant} {s s' : MarkerView} {waits : Waiter} {phase phase' : MarkerPhase}
  {call : MarkerCall} {t t' : TransactionId} {store store' : MarkerStore} {owner : LeaseOwner}

theorem Executes.goesOn (h : Executes now s phase s' phase') : phase' ≠ .returned := by
  cases h with
  | writes =>
      unfold MarkerPhase.written
      split <;> exact nofun
  | validates => split <;> exact nofun
  | finalizes =>
      unfold MarkerPhase.finalized
      split
      · exact nofun
      · split <;> exact nofun
  | _ => exact nofun

theorem Executes.claimant (h : Executes now s phase s' phase')
    (hClaimant : phase'.claimant = some owner) : phase.claimant = some owner := by
  cases h with
  | writes =>
      unfold MarkerPhase.written at hClaimant
      split at hClaimant <;> cases hClaimant
  | validates => split at hClaimant <;> cases hClaimant
  | finalizes =>
      unfold MarkerPhase.finalized at hClaimant
      split at hClaimant
      · cases hClaimant
      · split at hClaimant <;> cases hClaimant
  | failsClaim | cancelsClaim | clearsClaim | claims => exact hClaimant
  | _ => cases hClaimant

theorem CallAdvances.claimant (h : CallAdvances now t store phase store' phase')
    (hClaimant : phase'.claimant = some owner) : phase.claimant = some owner := by
  cases h with
  | executed _ hExecutes => exact hExecutes.claimant hClaimant
  | committed hGoesOn =>
      cases hGoesOn with
      | claimed => exact hClaimant
      | _ => cases hClaimant
  | rolledBack => cases hClaimant
  | issued => cases hClaimant

theorem claimant_begins (h : (call.begins now).claimant = some owner) :
    ∃ jobId, call = .claim jobId owner := by
  cases call with
  | claim jobId owner' =>
      obtain rfl := Option.some.inj h
      exact ⟨jobId, rfl⟩
  | requeue lease =>
      simp only [MarkerCall.begins, clearingOf] at h
      split at h <;> cases h
  | release lease =>
      simp only [MarkerCall.begins, clearingOf] at h
      split at h <;> cases h
  | _ => cases h

theorem CallAdvances.seen {waits' : Waiter} (hAdvances : CallAdvances now t store phase store' phase')
    (h : CallSeen (store.seenBy t) waits phase) (hAdds : AddsFresh (store.seenBy t) phase)
    (hWaits : ∀ lease wphase next, waits' lease wphase next ↔
      waits lease wphase next ∧ CallResult.of phase phase' = .pending) :
    CallSeen (store'.seenBy t) waits' phase' := by
  have hNone (hReturned : phase' = .returned) (lease : ScanLease) (wphase : WorkerPhase)
      (next : Option WorkerPhase) : ¬ waits' lease wphase next := by
    intro hWait
    exact result_returned (hReturned ▸ ((hWaits lease wphase next).mp hWait).2)
  have hSame (hPhase : phase ≠ .committing none) (hPhase' : phase' ≠ .returned) : waits' = waits := by
    funext lease wphase next
    refine propext ((hWaits lease wphase next).trans (and_iff_left ?_))
    exact result_goesOn hPhase hPhase'
  cases hAdvances with
  | executed hStatement hExecutes =>
      have hOpen : phase ≠ .committing none := by
        rintro rfl
        cases hExecutes.uncommitted
      rw [hStatement.own, hSame hOpen hExecutes.goesOn]
      exact h.executes hExecutes hAdds
  | committed hGoesOn =>
      rw [seenBy_commit]
      refine h.commit hGoesOn (fun hPhase' => hSame ?_ hPhase') hNone
      rintro rfl
      cases hGoesOn
      exact hPhase' rfl
  | rolledBack _ hStatement hConnections hJobs hMessages =>
      rw [seenBy_rollback, hStatement.own]
      exact .returned (h.stored.congr hJobs hMessages) fresh_rollback (hNone rfl)
  | issued hPhase =>
      have hSeen : PhaseSeen (store.seenBy t) waits _ := hPhase ▸ h.phaseSeen
      exact .returned h.stored hSeen (hNone rfl)

theorem CallAdvances.others {waits' : Waiter} {phase'' : MarkerPhase}
    (hAdvances : CallAdvances now t store phase store' phase')
    (h : CallSeen (store.seenBy t) waits phase) (hNe : t' ≠ t)
    (hOther : CallSeen (store.seenBy t') waits' phase'') :
    CallSeen (store'.seenBy t') waits' phase'' := by
  cases hAdvances with
  | executed hStatement => exact hStatement.others t' hNe ▸ hOther
  | committed =>
      rw [seenBy_commit_of_ne hNe]
      exact hOther.after h.commitOk (beside_of_ne hNe)
  | rolledBack _ hStatement =>
      rw [seenBy_rollback_of_ne hNe, hStatement.others t' hNe]
      exact hOther
  | issued => exact hOther

/-- A write of another session is committed at once. -/
theorem OutsideWrite.commitOk (h : OutsideWrite s s') (hSeen : CallSeen s waits phase)
    (hFresh : Fresh s) : CommitOk s' := by
  have hJobs {id : JobId} : s'.jobs.view id = s.jobs.committed id := h.jobs ▸ hFresh.jobs.view
  have hThere {key : MessageKey} {marker : Marker} (hView : s'.messages.view key = some marker) :
      s.messages.committed key = some marker := by
    rcases h.messages key with hSame | hDeleted
    · rw [Seen.view_of_none (hSame.trans (hFresh.messages key)), h.committed] at hView
      exact hView
    · rw [Seen.view_of_own hDeleted] at hView
      cases hView
  have hRow {key : MessageKey} (hView : s'.messages.view key ≠ none) :
      s.messages.committed key ≠ none := by
    obtain ⟨marker, hMarker⟩ := Option.ne_none_iff_exists'.mp hView
    exact hThere hMarker ▸ nofun
  refine ⟨⟨fun id job hView => ?_, fun id job hView => ?_, fun id job id' job' hView hView' => ?_,
    fun key id hView => ?_, fun key key' hView hView' => ?_⟩, fun id job hView => ?_,
    fun id hCommitted => ?_, fun key hView => ?_⟩
  · exact hSeen.stored.jobId id job (hJobs.symm.trans hView)
  · exact hSeen.stored.stopFlag id job (hJobs.symm.trans hView)
  · exact hSeen.stored.oneActive id job id' job' (hJobs.symm.trans hView) (hJobs.symm.trans hView')
  · exact fun hNone => hSeen.stored.marked key id (hThere hView) (hJobs.symm.trans hNone)
  · exact hSeen.stored.unique key key' (hRow hView) (hRow hView')
  · refine Or.inl ⟨job, ?_, (JobGoes.refl job).moves⟩
    rw [h.jobs]
    exact hJobs.symm.trans hView
  · rw [hJobs, ← h.jobs]
    exact hCommitted
  · exact Or.inl (h.committed ▸ hRow hView)

end Calls

section Steps

variable {vault : Vault} {settings : Settings} {filedUnder : MessageKey → CategoryId}
  {w w' : StatementWorld} {a : StatementAction} {t t' : TransactionId}

/-- The lease of a claim that returns is no worker's yet. -/
theorem WorldSeen.issues (h : WorldSeen w) {issued : ScanLease}
    (hIssues : w.markers.issues t = some issued) :
    (w.markers.calls t).claimant = some issued.owner ∧ w.workers issued.owner = none := by
  unfold MarkerWorld.issues at hIssues
  split at hIssues
  · rename_i begun jobId owner hPhase
    obtain ⟨job, -, hLease⟩ := Option.bind_eq_some_iff.mp hIssues
    obtain ⟨-, -, hOwner, -⟩ := readLease_eq_some hLease
    have hClaimant : (w.markers.calls t).claimant = some owner := by
      rw [hPhase]
      rfl
    exact ⟨hOwner ▸ hClaimant, hOwner ▸ (h.claims t owner hClaimant).2.1⟩
  · cases hIssues

/-- The workers that are told of a step have the leases they had. -/
theorem workers_of_informed (h : WorldSeen w) {phase' : MarkerPhase} {owner : LeaseOwner}
    {worker' : ScanWorker} (hWorker : w.informed t phase' owner = some worker') :
    worker'.lease.owner = owner ∧ (w.markers.issues t = some worker'.lease ∨
      ∃ worker, w.workers owner = some worker ∧ worker'.lease = worker.lease) := by
  have hOld (hHears : (w.workers owner).bind
      (·.hears t (.of (w.markers.calls t) phase')) = some worker') :
      ∃ worker, w.workers owner = some worker ∧ worker'.lease = worker.lease := by
    obtain ⟨worker, hFound, hHears⟩ := Option.bind_eq_some_iff.mp hHears
    exact ⟨worker, hFound, hears_lease hHears⟩
  have hOldOwner (hHears : ∃ worker, w.workers owner = some worker ∧ worker'.lease = worker.lease) :
      worker'.lease.owner = owner := by
    obtain ⟨worker, hFound, hLease⟩ := hHears
    exact hLease ▸ (h.workers owner worker hFound).1
  cases hIssues : w.markers.issues t with
  | none =>
      rw [informed_eq hIssues] at hWorker
      exact ⟨hOldOwner (hOld hWorker), Or.inr (hOld hWorker)⟩
  | some issued =>
      rw [informed_issues hIssues] at hWorker
      split at hWorker
      · rename_i hOwner
        cases hWorker
        exact ⟨hOwner.symm, Or.inl rfl⟩
      · exact ⟨hOldOwner (hOld hWorker), Or.inr (hOld hWorker)⟩

end Steps

/-! ### A worker's turn -/

section Turns

variable {settings : Settings} {src : SavedMessages} {now : Instant} {stop : Option Bool}
  {lease : ScanLease} {phase : WorkerPhase} {act : ScanAct} {t : TransactionId} {call : MarkerCall}
  {next : Option WorkerPhase} {waits : Waiter}

/-- A slice that is settled completes with its own reason. -/
theorem callAwaited_settle {outcome : SliceOutcome} {runtimeLeft : Bool} {op : WorkerOp}
    (hOp : outcome.disposition runtimeLeft = some op) (hCall : op.call lease = some call)
    (hWaits : waits lease (.ending outcome) none) : CallAwaited waits call := by
  rcases disposition_cases hOp with rfl | rfl | ⟨-, reason, rfl, hReason⟩
  · cases hCall
    intro hPrunes
    simp only [prunes, Bool.and_eq_true, beq_iff_eq] at hPrunes
    cases hPrunes.1.2
  · cases hCall
    exact ⟨_, hWaits⟩
  · cases hCall
    intro hPrunes
    simp only [prunes, Bool.and_eq_true, beq_iff_eq, Option.some.injEq] at hPrunes
    refine ⟨outcome, hWaits, ?_⟩
    rcases hReason with hReported | ⟨hLimit, -⟩
    · rw [hPrunes.2] at hReported
      exact ScanReason.eq_of_completion .sourceExhausted hReported rfl
    · rw [hPrunes.2] at hLimit
      cases hLimit

/-- A worker that begins a call waits for it as the call needs. -/
theorem callAwaited_of_turn
    (h : ScanWorker.turn settings src now stop lease phase act = some (.call t call next))
    (hWaits : waits lease phase next) : CallAwaited waits call ∧ call.lease = some lease ∧
      (next = none ∨ next = some .failing ∨ ∃ page st st', call = .persistPage lease page ∧
        AwaitsPage waits lease page st st' ∧ phase = .scanning st ∧ next = some (.scanning st')) := by
  unfold ScanWorker.turn at h
  split at h
  -- openConnection
  · split at h
    · cases h
    split at h
    · cases h
    · cases h
  -- connect
  · split at h
    · cases h
    · cases h
      exact ⟨trivial, rfl, Or.inr (Or.inl rfl)⟩
    · cases h
      exact ⟨trivial, rfl, Or.inr (Or.inl rfl)⟩
    · split at h
      · cases h
        exact ⟨trivial, rfl, Or.inr (Or.inl rfl)⟩
      split at h
      · cases h
      split at h
      · cases h
      split at h
      · cases h
      · cases h
  -- answer
  · split at h
    · obtain ⟨st', -, hEq⟩ := Option.map_eq_some_iff.mp h
      cases hEq
    · cases h
  -- deliver
  · rename_i st t' elapsed
    split at h
    · rename_i page reached hPhase
      obtain ⟨st', hResume, hEq⟩ := Option.map_eq_some_iff.mp h
      cases hEq
      have hAwaits : AwaitsPage waits lease page st st' :=
        ⟨hWaits, ⟨reached, hPhase⟩, elapsed, hResume⟩
      exact ⟨⟨st, st', hAwaits⟩, rfl, Or.inr (Or.inr ⟨page, st, st', rfl, hAwaits, rfl, rfl⟩)⟩
    · cases h
  -- finishScan
  · split at h <;> cases h
  -- refresh
  · cases h
  -- settle
  · obtain ⟨op, hOp, h⟩ := Option.bind_eq_some_iff.mp h
    obtain ⟨call', hCall, hEq⟩ := Option.map_eq_some_iff.mp h
    cases hEq
    refine ⟨callAwaited_settle hOp hCall hWaits, ?_, Or.inl rfl⟩
    rcases disposition_cases hOp with rfl | rfl | ⟨-, _, rfl, -⟩ <;> cases hCall <;> rfl
  -- fail
  · cases h
    refine ⟨fun hPrunes => ?_, rfl, Or.inl rfl⟩
    simp only [prunes, Bool.and_eq_true, beq_iff_eq] at hPrunes
    cases hPrunes.1.2
  -- raise, interrupt, crash, timeout
  · cases h
  · cases h
  · cases h
    exact ⟨⟨_, hWaits⟩, rfl, Or.inl rfl⟩
  · cases h
  · split at h <;> cases h
  · split at h <;> cases h
  · cases h

/-- A worker calls with its own lease. -/
theorem lease_of_turn
    (h : ScanWorker.turn settings src now stop lease phase act = some (.call t call next)) :
    call.lease = some lease :=
  (@callAwaited_of_turn settings src now stop lease phase act t call next (fun _ _ _ => True) h
    trivial).2.1

end Turns

section Abandoned

variable {vault : Vault} {settings : Settings} {w w' : StatementWorld} {a : StatementAction}
  {t : TransactionId} {owner : LeaseOwner} {worker : ScanWorker} {turn : ScanTurn}
  {x : Option ScanWorker}

/-- The transaction a worker has waited for is rolled back. -/
theorem abandon_waited {next : Option WorkerPhase} (h : worker.awaits = some (t, next)) :
    (w.abandon worker).markers.calls t = .returned ∧
      (w.abandon worker).markers.store.seenBy t = (w.markers.store.seenBy t).rollback := by
  unfold StatementWorld.abandon
  rw [h]
  exact ⟨Function.update_self _ _ _, seenBy_rollback⟩

/-- The others are as they were. -/
theorem abandon_other (h : ∀ next, worker.awaits ≠ some (t, next)) :
    (w.abandon worker).markers.calls t = w.markers.calls t ∧
      (w.abandon worker).markers.store.seenBy t = w.markers.store.seenBy t := by
  unfold StatementWorld.abandon
  split
  · exact ⟨rfl, rfl⟩
  · rename_i t' next hAwaits
    have hNe : t ≠ t' := fun hEq => h next (hEq ▸ hAwaits)
    exact ⟨Function.update_of_ne hNe _ _, seenBy_rollback_of_ne hNe⟩

theorem abandon_rest : (w.abandon worker).workers = w.workers ∧
    (w.abandon worker).nextOwner = w.nextOwner ∧ (w.abandon worker).markers.now = w.markers.now := by
  unfold StatementWorld.abandon
  split <;> exact ⟨rfl, rfl, rfl⟩

/-- What a turn makes of the world: the worker's transaction is abandoned, and a call begins. -/
inductive Taken (w w' : StatementWorld) (owner : LeaseOwner) (worker : ScanWorker) : ScanTurn → Prop
  | goesOn {phase : WorkerPhase} (hStore : w'.markers.store = (w.abandon worker).markers.store)
      (hCalls : w'.markers.calls = (w.abandon worker).markers.calls)
      (hWorkers : w'.workers = Function.update w.workers owner (some ⟨worker.lease, phase, none⟩))
      (hNext : w'.nextOwner = w.nextOwner) : Taken w w' owner worker (.goOn phase)
  | calls {t : TransactionId} {call : MarkerCall} {next : Option WorkerPhase}
      (hIdle : (w.abandon worker).markers.calls t = .idle)
      (hStore : w'.markers.store = (w.abandon worker).markers.store)
      (hCalls : w'.markers.calls = Function.update (w.abandon worker).markers.calls t
        (call.begins w.markers.now))
      (hWorkers : w'.workers = Function.update w.workers owner
        (some ⟨worker.lease, worker.phase, some (t, next)⟩))
      (hNext : w'.nextOwner = w.nextOwner) : Taken w w' owner worker (.call t call next)
  | done (hStore : w'.markers.store = (w.abandon worker).markers.store)
      (hCalls : w'.markers.calls = (w.abandon worker).markers.calls)
      (hWorkers : w'.workers = Function.update w.workers owner none)
      (hNext : w'.nextOwner = w.nextOwner) : Taken w w' owner worker .done

theorem taken_of_take (h : (w.abandon worker).take vault settings owner worker.lease turn worker.phase =
    some w') : Taken w w' owner worker turn := by
  obtain ⟨hWorkers, hNext, hNow⟩ := @abandon_rest w worker
  cases turn with
  | goOn phase =>
      cases h
      exact .goesOn rfl rfl (congrArg (Function.update · _ _) hWorkers) hNext
  | call t call next =>
      obtain ⟨m, hBegin, rfl⟩ := Option.map_eq_some_iff.mp h
      obtain ⟨hIdle, rfl⟩ := begin_eq_some hBegin
      exact .calls hIdle rfl (hNow ▸ rfl) (congrArg (Function.update · _ _) hWorkers) hNext
  | done =>
      cases h
      exact .done rfl rfl (congrArg (Function.update · _ _) hWorkers) hNext

/-- Calls that have returned are nobody's. -/
theorem claimant_abandon (h : ((w.abandon worker).markers.calls t).claimant = some owner) :
    (w.markers.calls t).claimant = some owner := by
  by_cases hAwaits : ∃ next, worker.awaits = some (t, next)
  · obtain ⟨next, hAwaits⟩ := hAwaits
    rw [(abandon_waited hAwaits).1] at h
    cases h
  · rw [(abandon_other (not_exists.mp hAwaits)).1] at h
    exact h

end Abandoned

end SavedOrganizer
