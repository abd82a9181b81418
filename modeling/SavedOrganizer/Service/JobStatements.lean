import Mathlib.Logic.Function.Basic
import SavedOrganizer.Library.RowLock
import SavedOrganizer.Service.Connection

/-!
# One job row, statement by statement

The transactions that write the row of one scan job, each SQL statement a step of its own.
Most of them write with conditional `UPDATE`s (`JobStatement`); a worker's page and session
lock the row first. `stop` selects the job `FOR UPDATE`. `start` reads it without a lock, and
writes what it decided by primary key.

The statements on other rows are left out, and with them the locks on the user and the
connection, which only exclude interleavings.
-/

namespace SavedOrganizer

abbrev TransactionId := Nat

abbrev JobRow := LockedRow TransactionId ScanJob

/-- The statements that name the row by its columns, with the `_utcnow()` of their function.
The fences of a page and of a session read the clock anew. -/
inductive JobStatement
  | failWithoutProvenance (now : Instant) (jobId : JobId)
  | cancelStopped (now : Instant) (jobId : JobId)
  | claim (now : Instant) (jobId : JobId) (owner : LeaseOwner)
  | renew (now : Instant) (lease : ScanLease)
  /-- `SELECT .. FOR UPDATE`. -/
  | lockHeld (now : Instant) (lease : ScanLease)
  | recordPage (lease : ScanLease) (messages : Nat) (nextOffsetId : Option TelegramId)
  /-- `heartbeat_at` is set to itself. -/
  | fenceSession (lease : ScanLease)
  | requeue (now : Instant) (lease : ScanLease)
  | release (now : Instant) (lease : ScanLease)
  | finalize (now : Instant) (lease : ScanLease) (state : ScanJobState) (error : Option String)
      (completionReason : Option CompletionReason)
  | terminalize (now : Instant)
  | downgrade (now : Instant) (lease : ScanLease)
  | cancelActive (now : Instant) (userId : UserId)

namespace JobStatement

/-- The `WHERE` clause. -/
def selects (clock : Instant) : JobStatement → ScanJob → Bool
  | failWithoutProvenance _ jobId, job =>
      job.id == jobId && job.state.active && !job.hasProvenance
  | cancelStopped now jobId, job => job.id == jobId && job.abandonedStop now
  | claim now jobId _, job => claimedBy now jobId job
  | renew now lease, job => lease.holds now job
  | lockHeld now lease, job => lease.holds now job
  | recordPage lease _ _, job => lease.holds clock job
  | fenceSession lease, job => lease.holds clock job
  | requeue now lease, job => lease.holds now job
  | release _ lease, job => lease.owns job
  | finalize now lease _ _ _, job => lease.holds now job
  | terminalize now, job => job.abandonedStop now
  | downgrade _ lease, job => lease.downgrades job
  | cancelActive _ userId, job => job.activeOf userId

/-- The `VALUES`. -/
def sets : JobStatement → ScanJob → ScanJob
  | failWithoutProvenance now _, job => job.failWithoutProvenance now
  | cancelStopped now _, job => job.cancelStopped now
  | claim now _ owner, job => job.claim now owner
  | renew now _, job => job.renew now
  | lockHeld _ _, job => job
  | recordPage _ messages nextOffsetId, job => job.recordPage messages nextOffsetId
  | fenceSession _, job => job
  | requeue now _, job => job.requeue now
  | release now _, job => job.release now
  | finalize now _ state error completionReason, job =>
      job.finalize now state error completionReason
  | terminalize now, job => job.terminalize now
  | downgrade now _, job => job.cancelDisconnected now
  | cancelActive now _, job => job.cancelDisconnected now

/-- The function rolls back and gives up when no row matches. -/
def required : JobStatement → Bool
  | lockHeld _ _ => true
  | recordPage _ _ _ => true
  | fenceSession _ => true
  | finalize _ _ _ _ _ => true
  | _ => false

end JobStatement

/-! ## The calls -/

inductive JobCall
  | start (userId : UserId)
  | stop (userId : UserId)
  | claim (jobId : JobId) (owner : LeaseOwner)
  | renew (lease : ScanLease)
  | persistPage (lease : ScanLease) (messages : Nat) (nextOffsetId : Option TelegramId)
  | refreshSession (lease : ScanLease)
  | requeue (lease : ScanLease)
  | release (lease : ScanLease)
  | finalize (lease : ScanLease) (state : ScanJobState) (error : Option String)
      (completionReason : Option CompletionReason)
  | terminalizeExpired
  | downgrade (lease : ScanLease)
  /-- `_cancel_active_scans`, also where it is part of another request. -/
  | disconnect (userId : UserId)

/-- Who writes the columns of a row in memory. -/
inductive JobWriter
  | start
  | stop
  deriving DecidableEq, Repr

inductive JobPhase
  | idle
  /-- The statements that are still to come, and then the commit. -/
  | executing (statements : List JobStatement)
  | starting (userId : UserId)
  | startRead (found : Option ScanJob)
  | stopping (userId : UserId)
  | stopRead (loaded : ScanJob)
  | writing (writer : JobWriter) (loaded memory : ScanJob)
  | committing (writer : JobWriter)
  | returned

/-- What a call begins with. `_finalize_scan_job` refuses a state that is not terminal. -/
def JobCall.begins (now : Instant) : JobCall → JobPhase
  | start userId => .starting userId
  | stop userId => .stopping userId
  | claim jobId owner => .executing
      [.failWithoutProvenance now jobId, .cancelStopped now jobId, .claim now jobId owner]
  | renew lease => .executing [.renew now lease]
  | persistPage lease messages nextOffsetId => .executing
      [.lockHeld now lease, .recordPage lease messages nextOffsetId]
  | refreshSession lease => .executing [.lockHeld now lease, .fenceSession lease]
  | requeue lease => .executing [.requeue now lease]
  | release lease => .executing [.release now lease]
  | finalize lease state error completionReason =>
      if state.active then .returned
      else .executing [.finalize now lease state error completionReason]
  | terminalizeExpired => .executing [.terminalize now]
  | downgrade lease => .executing [.downgrade now lease]
  | disconnect userId => .executing [.cancelActive now userId]

/-- The ORM writes the columns of `memory` that differ from what it `loaded`; these are the
ones `start` and `stop` assign. -/
def flushJob (loaded memory current : ScanJob) : ScanJob :=
  { current with
    state := if memory.state = loaded.state then current.state else memory.state
    stopRequested := if memory.stopRequested = loaded.stopRequested then
      current.stopRequested else memory.stopRequested
    completionReason := if memory.completionReason = loaded.completionReason then
      current.completionReason else memory.completionReason
    finishedAt := if memory.finishedAt = loaded.finishedAt then
      current.finishedAt else memory.finishedAt
    leaseOwner := if memory.leaseOwner = loaded.leaseOwner then
      current.leaseOwner else memory.leaseOwner
    leaseExpiresAt := if memory.leaseExpiresAt = loaded.leaseExpiresAt then
      current.leaseExpiresAt else memory.leaseExpiresAt }

def advanceJob (now : Instant) (t : TransactionId) (row : JobRow) :
    JobPhase → Option (JobRow × JobPhase)
  | .idle => none
  | .returned => none
  | .executing [] => some (row.commit t, .returned)
  | .executing (statement :: rest) =>
      (row.update t (statement.selects now) statement.sets).map fun (row, matched) =>
        if statement.required && !matched then (row.rollback t, .returned)
        else (row, .executing rest)
  | .starting userId => some (row, .startRead ((row.view t).filter (·.activeOf userId)))
  | .startRead found =>
      match found with
      | none => some (row.rollback t, .returned)
      | some job =>
          if job.abandonedStop now then
            some (row, .writing .start job (job.cancelStopped now))
          else some (row.rollback t, .returned)
  | .stopping userId =>
      (row.selectForUpdate t (·.activeOf userId)).map fun (row, found) =>
        (row, match found with
          | none => .returned
          | some job => .stopRead job)
  | .stopRead job => some (row, .writing .stop job (job.stop now))
  | .writing writer loaded memory =>
      (row.update t (fun _ => true) (flushJob loaded memory)).map fun (row, _) =>
        (row, .committing writer)
  | .committing _ => some (row.commit t, .returned)

/-! ## Interleaved calls -/

structure JobWorld where
  now : Instant
  row : JobRow
  calls : TransactionId → JobPhase

inductive JobAction
  | tick (elapsed : Nat)
  | begin (t : TransactionId) (call : JobCall)
  | advance (t : TransactionId)
  /-- An exception, or the end of the process. -/
  | raise (t : TransactionId)

def JobWorld.step (w : JobWorld) : JobAction → Option JobWorld
  | .tick elapsed => some { w with now := w.now + elapsed }
  | .begin t call => match w.calls t with
      | .idle => some { w with calls := Function.update w.calls t (call.begins w.now) }
      | _ => none
  | .advance t => (advanceJob w.now t w.row (w.calls t)).map fun (row, phase) =>
      { w with row := row, calls := Function.update w.calls t phase }
  | .raise t => some
      { w with row := w.row.rollback t, calls := Function.update w.calls t .returned }

/-- Time passes, a call begins, takes a step on the row, or raises. -/
theorem JobWorld.step_eq_some {w w' : JobWorld} {a : JobAction} (h : w.step a = some w') :
    (∃ elapsed, a = .tick elapsed ∧ w' = { w with now := w.now + elapsed }) ∨
      (∃ t call, a = .begin t call ∧ w.calls t = .idle ∧
        w' = { w with calls := Function.update w.calls t (call.begins w.now) }) ∨
      (∃ t row phase, a = .advance t ∧ advanceJob w.now t w.row (w.calls t) = some (row, phase) ∧
        w' = { w with row := row, calls := Function.update w.calls t phase }) ∨
      ∃ t, a = .raise t ∧
        w' = { w with row := w.row.rollback t, calls := Function.update w.calls t .returned } := by
  cases a with
  | tick elapsed => exact Or.inl ⟨elapsed, rfl, (Option.some.inj h).symm⟩
  | begin t call =>
      simp only [JobWorld.step] at h
      split at h
      · rename_i hIdle
        exact Or.inr (Or.inl ⟨t, call, rfl, hIdle, (Option.some.inj h).symm⟩)
      · cases h
  | advance t =>
      obtain ⟨⟨row, phase⟩, hAdvance, hEq⟩ := Option.map_eq_some_iff.mp h
      exact Or.inr (Or.inr (Or.inl ⟨t, row, phase, rfl, hAdvance, hEq.symm⟩))
  | raise t => exact Or.inr (Or.inr (Or.inr ⟨t, rfl, (Option.some.inj h).symm⟩))

/-! ## Every statement is a step of its transaction -/

section Steps

variable {now : Instant} {t : TransactionId} {row row' : JobRow} {phase phase' : JobPhase}

theorem stepBy_advanceJob (h : advanceJob now t row phase = some (row', phase')) :
    LockedRow.StepBy t row row' := by
  cases phase with
  | idle => cases h
  | returned => cases h
  | executing statements =>
      cases statements with
      | nil =>
          cases h
          exact LockedRow.stepBy_commit
      | cons statement rest =>
          obtain ⟨⟨updated, matched⟩, hUpdate, hEq⟩ := Option.map_eq_some_iff.mp h
          dsimp only at hEq
          split at hEq
          · rename_i hGivesUp
            cases hEq
            simp only [Bool.and_eq_true, Bool.not_eq_true'] at hGivesUp
            obtain rfl := LockedRow.update_unmatched (hGivesUp.2 ▸ hUpdate)
            exact LockedRow.stepBy_rollback
          · cases hEq
            exact LockedRow.stepBy_update hUpdate
  | starting userId =>
      cases h
      exact Or.inl rfl
  | startRead found =>
      cases found with
      | none =>
          cases h
          exact LockedRow.stepBy_rollback
      | some job =>
          simp only [advanceJob] at h
          split at h
          · cases h
            exact Or.inl rfl
          · cases h
            exact LockedRow.stepBy_rollback
  | stopping userId =>
      obtain ⟨⟨locked, found⟩, hFound, hEq⟩ := Option.map_eq_some_iff.mp h
      cases hEq
      exact LockedRow.stepBy_selectForUpdate hFound
  | stopRead job =>
      cases h
      exact Or.inl rfl
  | writing writer loaded memory =>
      obtain ⟨⟨written, matched⟩, hUpdate, hEq⟩ := Option.map_eq_some_iff.mp h
      cases hEq
      exact LockedRow.stepBy_update hUpdate
  | committing writer =>
      cases h
      exact LockedRow.stepBy_commit

end Steps

end SavedOrganizer
