import SavedOrganizer.Library.Transition
import SavedOrganizer.System.ConnectionCalls
import SavedOrganizer.System.ConnectionChange

/-!
# A worker and a newer connection

The writes of a worker whose lease is bound to a generation, in any interleaving with the
requests of the user and with other workers. Its page, session and downgrade transactions
check the generation on the row they have locked. The erasure after an undecryptable secret
does not: it is decided on a row read without a lock. A run leaves newer connections alone
exactly if its erasures do (`worker_spares_newer_iff`).
-/

namespace SavedOrganizer

open Transition LockedRow

/-- The generation of the lease, in the transactions of a worker. -/
def CallPhase.worker : CallPhase → Option Nat
  | .begun (.openScan lease) => some lease.connectionGeneration
  | .begun (.persistPage lease) => some lease.connectionGeneration
  | .begun (.refreshSession lease _) => some lease.connectionGeneration
  | .begun (.downgrade lease) => some lease.connectionGeneration
  | .persisting generation => some generation
  | .writing (.worker generation) _ _ _ => some generation
  | .writing (.erasure generation) _ _ _ => some generation
  | .committing (.worker generation) _ => some generation
  | .committing (.erasure generation) _ => some generation
  | _ => none

/-- The row is another one, for everybody or for the transaction. -/
def Alters (t : CallId) (row row' : ConnectionRow) : Prop :=
  row'.committed ≠ row.committed ∨ row'.view t ≠ row.view t

/-- The committed row is of this generation. -/
def OfGeneration (generation : Nat) (row : ConnectionRow) : Prop :=
  ∃ c, row.committed = some c ∧ c.generation = generation

/-- A step of a worker alters only a row of the generation of its lease. -/
def SparesNewer (w : CallWorld) (a : CallAction) (w' : CallWorld) : Prop :=
  ∀ t input, a = .advance t input → ∀ generation, (w.calls t).worker = some generation →
    Alters t w.row w'.row → OfGeneration generation w.row

/-- The erasure finds the generation it was decided on, or nothing left to change. -/
def erasesOwn (row : ConnectionRow) : CallPhase → CallInput → Bool
  | .writing (.erasure generation) loaded memory _, .proceed => row.committed.all fun c =>
      c.generation == generation || flushConnection loaded memory c == c
  | _, _ => true

def ownErasures (w : CallWorld) : CallAction → Bool
  | .advance t input => erasesOwn w.row (w.calls t) input
  | _ => true

/-! ## The invariant -/

def WorkerOk (row : ConnectionRow) (t : CallId) : CallPhase → Prop
  | .idle => row.HasNoLock t
  | .begun _ => row.HasNoLock t
  | .persisting _ => row.Held t row.committed
  | .writing (.worker generation) loaded _ _ =>
      row.Held t (some loaded) ∧ row.committed = some loaded ∧ loaded.generation = generation
  | .writing (.erasure _) _ _ _ => row.HasNoLock t
  | .committing (.worker generation) _ => ∀ own, row.Held t own →
      own = row.committed ∨ OfGeneration generation row
  | .committing (.erasure generation) _ => ∀ own, row.Held t own →
      own = row.committed ∨ OfGeneration generation row
  | _ => True

/-- No statement of another call touches what the clause says. -/
theorem WorkerOk.of_stepBy {t t' : CallId} {row row' : ConnectionRow} {phase : CallPhase}
    (h : WorkerOk row t' phase) (hStep : StepBy t row row') (hNe : t' ≠ t) :
    WorkerOk row' t' phase := by
  by_cases hLocked : ∃ own, row.Held t' own
  · obtain ⟨own, hHeld⟩ := hLocked
    obtain rfl := hStep.of_held hHeld hNe
    exact h
  have hFree : row.HasNoLock t' := fun own hHeld => hLocked ⟨own, hHeld⟩
  have hFree' : row'.HasNoLock t' := hStep.hasNoLock hFree hNe
  cases phase with
  | idle => exact hFree'
  | begun call => exact hFree'
  | persisting generation => exact absurd h (hFree _)
  | writing origin loaded memory after =>
      cases origin with
      | status => trivial
      | user => trivial
      | worker generation => exact absurd h.1 (hFree _)
      | erasure generation => exact hFree'
  | committing origin after =>
      cases origin with
      | status => trivial
      | user => trivial
      | worker generation => exact fun own hHeld => absurd hHeld (hFree' own)
      | erasure generation => exact fun own hHeld => absurd hHeld (hFree' own)
  | _ => trivial

/-! ## A step of a call -/

section Steps

variable {env : CallEnv} {now : Instant} {t : CallId} {row row' : ConnectionRow}
  {phase phase' : CallPhase} {input : CallInput} {generation : Nat} {loaded memory : TelegramConnection}
  {after : AfterCommit} {lease : ScanLease}

theorem not_alters (hCommitted : row'.committed = row.committed) (hView : row'.view t = row.view t) :
    ¬ Alters t row row' := by
  rintro (h | h)
  · exact h hCommitted
  · exact h hView

/-- The end of a transaction on a row it has not changed, or one of its generation. -/
theorem ofGeneration_of_end {ended : ConnectionRow}
    (hEnd : ended = row.rollback t ∨ ended = row.commit t)
    (hOwn : ∀ own, row.Held t own → own = row.committed ∨ OfGeneration generation row)
    (hAlters : Alters t row ended) : OfGeneration generation row := by
  by_cases hLocked : ∃ own, row.Held t own
  · obtain ⟨own, hHeld⟩ := hLocked
    rcases hOwn own hHeld with rfl | hOf
    · refine absurd hAlters (not_alters ?_ ?_)
      · rcases hEnd with rfl | rfl
        · exact rollback_committed
        · rw [hHeld.commit]
      · rcases hEnd with rfl | rfl
        · rw [hasNoLock_rollback.view, hHeld.view, rollback_committed]
        · rw [hasNoLock_commit.view, hHeld.view, hHeld.commit]
    · exact hOf
  · have hFree : row.HasNoLock t := fun own hHeld => hLocked ⟨own, hHeld⟩
    rw [hFree.rollback, hFree.commit, or_self_iff] at hEnd
    subst hEnd
    exact absurd hAlters (not_alters rfl rfl)

/-- The clause of a call that has checked the generation on the row it has locked. -/
theorem workerOk_selected {p : TelegramConnection → Bool} {c : TelegramConnection}
    (hFree : row.HasNoLock t) (hp : ∀ c, p c = true → lease.bound c = true)
    (h : row.selectForUpdate t p = some (row', some c)) :
    row'.Held t (some c) ∧ row'.committed = some c ∧ c.generation = lease.connectionGeneration := by
  obtain ⟨hCommitted, hMatch, hSame, hHeld⟩ := hFree.selectForUpdate_some h
  refine ⟨hHeld, hSame.trans hCommitted, ?_⟩
  have hBound := hp c hMatch
  simp only [ScanLease.bound, Bool.and_eq_true, beq_iff_eq] at hBound
  exact hBound.2

/-- The first statement of a call changes nothing. -/
theorem workerOk_beginCall {call : ConnectionCall} (hFree : row.HasNoLock t)
    (h : beginCall env t row call = some (row', phase')) :
    ¬ Alters t row row' ∧ WorkerOk row' t phase' := by
  cases call with
  | status =>
      cases h
      exact ⟨not_alters rfl rfl, trivial⟩
  | openScan lease =>
      simp only [beginCall] at h
      split at h
      · cases h
        exact ⟨not_alters rfl rfl, trivial⟩
      split at h
      · cases h
        exact ⟨not_alters rfl rfl, trivial⟩
      split at h
      · cases h
        exact ⟨not_alters rfl rfl, trivial⟩
      · cases h
        exact ⟨not_alters rfl rfl, hFree⟩
  | start request =>
      obtain ⟨⟨locked, found⟩, hFound, hEq⟩ := Option.map_eq_some_iff.mp h
      cases hEq
      exact ⟨not_alters (selectForUpdate_same hFound).1 (selectForUpdate_same hFound).2, trivial⟩
  | verify nonce =>
      obtain ⟨⟨locked, found⟩, hFound, hEq⟩ := Option.map_eq_some_iff.mp h
      cases hEq
      refine ⟨not_alters (selectForUpdate_same hFound).1 (selectForUpdate_same hFound).2, ?_⟩
      cases found with
      | none => trivial
      | some c => trivial
  | disconnect =>
      obtain ⟨⟨locked, found⟩, hFound, hEq⟩ := Option.map_eq_some_iff.mp h
      cases hEq
      refine ⟨not_alters (selectForUpdate_same hFound).1 (selectForUpdate_same hFound).2, ?_⟩
      cases found with
      | none => trivial
      | some c => trivial
  | persistPage lease =>
      obtain ⟨⟨locked, found⟩, hFound, hEq⟩ := Option.map_eq_some_iff.mp h
      cases hEq
      refine ⟨not_alters (selectForUpdate_same hFound).1 (selectForUpdate_same hFound).2, ?_⟩
      cases found with
      | none => trivial
      | some c =>
          obtain ⟨hCommitted, -, hSame, hHeld⟩ := hFree.selectForUpdate_some hFound
          show row'.Held t row'.committed
          rw [hSame, hCommitted]
          exact hHeld
  | refreshSession lease session =>
      obtain ⟨⟨locked, found⟩, hFound, hEq⟩ := Option.map_eq_some_iff.mp h
      cases hEq
      refine ⟨not_alters (selectForUpdate_same hFound).1 (selectForUpdate_same hFound).2, ?_⟩
      cases found with
      | none => trivial
      | some c =>
          refine workerOk_selected hFree (fun c hConnected => ?_) hFound
          exact (Bool.and_eq_true_iff.mp hConnected).1
  | downgrade lease =>
      obtain ⟨⟨locked, found⟩, hFound, hEq⟩ := Option.map_eq_some_iff.mp h
      cases hEq
      refine ⟨not_alters (selectForUpdate_same hFound).1 (selectForUpdate_same hFound).2, ?_⟩
      cases found with
      | none => trivial
      | some c => exact workerOk_selected hFree (fun _ => id) hFound

theorem workerOk_writeOutcome {result : Option (TelegramConnection × Bool)}
    (h : writeOutcome t row loaded after result = some (row', phase')) :
    WorkerOk row' t phase' := by
  unfold writeOutcome at h
  split at h
  · cases h
    trivial
  · cases h
    trivial

theorem workerOk_advance (hOk : WorkerOk row t phase) (hErases : erasesOwn row phase input = true)
    (h : advance env now t row phase input = some (row', phase')) : WorkerOk row' t phase' := by
  unfold advance at h
  split at h
  -- a call that has not begun or has returned, and an input it does not wait for
  case h_1 | h_2 | h_20 => cases h
  case h_4 => exact (workerOk_beginCall hOk h).2
  -- the requests of the user
  case h_3 | h_7 | h_12 | h_14 | h_17 =>
      cases h
      trivial
  case h_5 =>
      split at h
      · cases h
        trivial
      · split at h <;> cases h <;> trivial
  case h_6 =>
      split at h
      · obtain ⟨inserted, -, h⟩ := Option.bind_eq_some_iff.mp h
        cases inserted with
        | none =>
            cases h
            trivial
        | some added =>
            cases h
            trivial
      · split at h <;> cases h <;> trivial
  case h_8 =>
      split at h
      · cases h
        trivial
      · split at h <;> cases h <;> trivial
  case h_9 | h_10 | h_13 | h_15 | h_16 => exact workerOk_writeOutcome h
  case h_11 => split at h <;> cases h <;> trivial
  -- the `UPDATE`
  case h_18 origin loaded memory after =>
      obtain ⟨⟨written, matched⟩, hUpdate, hEq⟩ := Option.map_eq_some_iff.mp h
      cases hEq
      cases origin with
      | status => trivial
      | user => trivial
      | worker generation =>
          obtain ⟨hHeld, hCommitted, hGeneration⟩ := hOk
          have hWritten : row.update t (fun _ => true) (flushConnection loaded memory) = _ :=
            hHeld.update rfl
          rw [hWritten] at hUpdate
          cases hUpdate
          exact fun _ _ => Or.inr ⟨loaded, hCommitted, hGeneration⟩
      | erasure generation =>
          intro own hHeld
          rcases update_eq_some hUpdate with ⟨rfl, -⟩ | ⟨c, locked, hView, -, -, hLocked, rfl⟩
          · exact absurd hHeld (hOk own)
          · rw [HasNoLock.view hOk] at hView
            have hCommitted := (acquire_eq_some hLocked).1.trans hView
            obtain rfl := (Prod.mk.inj (Option.some.inj hHeld)).2
            simp only [erasesOwn, hView, Option.all_some, Bool.or_eq_true, beq_iff_eq] at hErases
            rcases hErases with hOf | hNothing
            · exact Or.inr ⟨c, hCommitted, hOf⟩
            · rw [hNothing]
              exact Or.inl hCommitted.symm
  case h_19 origin after =>
      cases h
      cases after with
      | returns outcome => trivial
      | connects request memory => trivial

/-- A worker's statement other than an erasure spares a newer connection, and so does an
erasure that finds its own generation. -/
theorem ofGeneration_of_alters (hOk : WorkerOk row t phase)
    (hErases : erasesOwn row phase input = true) (hWorker : phase.worker = some generation)
    (h : advance env now t row phase input = some (row', phase')) (hAlters : Alters t row row') :
    OfGeneration generation row := by
  have hNone (hFree : row.HasNoLock t) : ∀ own, row.Held t own →
      own = row.committed ∨ OfGeneration generation row :=
    fun own hHeld => absurd hHeld (hFree own)
  unfold advance at h
  split at h
  case h_1 | h_2 | h_20 => cases h
  case h_4 => exact absurd hAlters (workerOk_beginCall hOk h).1
  case h_5 | h_6 | h_7 | h_8 | h_9 | h_10 | h_11 | h_12 | h_13 | h_14 | h_15 | h_16 => cases hWorker
  -- an exception
  case h_3 =>
      cases h
      refine ofGeneration_of_end (Or.inl rfl) ?_ hAlters
      cases phase with
      | begun call => exact hNone hOk
      | persisting generation => exact fun own hHeld => Or.inl (hHeld.unique hOk).2
      | writing origin loaded memory after =>
          cases origin with
          | worker generation =>
              cases hWorker
              exact fun _ _ => Or.inr ⟨loaded, hOk.2⟩
          | erasure generation => exact hNone hOk
          | _ => cases hWorker
      | committing origin after =>
          cases origin with
          | worker generation =>
              cases hWorker
              exact hOk
          | erasure generation =>
              cases hWorker
              exact hOk
          | _ => cases hWorker
      | _ => cases hWorker
  case h_17 =>
      cases h
      exact ofGeneration_of_end (Or.inr rfl) (fun own hHeld => Or.inl (hHeld.unique hOk).2) hAlters
  case h_18 origin loaded memory after =>
      obtain ⟨⟨written, matched⟩, hUpdate, hEq⟩ := Option.map_eq_some_iff.mp h
      cases hEq
      cases origin with
      | worker generation =>
          cases hWorker
          exact ⟨loaded, hOk.2⟩
      | erasure generation =>
          cases hWorker
          rcases update_eq_some hUpdate with ⟨rfl, -⟩ | ⟨c, locked, hView, -, -, hLocked, rfl⟩
          · exact absurd hAlters (not_alters rfl rfl)
          · rw [HasNoLock.view hOk] at hView
            simp only [erasesOwn, hView, Option.all_some, Bool.or_eq_true, beq_iff_eq] at hErases
            rcases hErases with hOf | hNothing
            · exact ⟨c, hView, hOf⟩
            · refine absurd hAlters (not_alters (acquire_eq_some hLocked).1 ?_)
              rw [HasNoLock.view hOk, hView, hNothing]
              exact LockedRow.Held.view rfl
      | _ => cases hWorker
  case h_19 origin after =>
      cases h
      refine ofGeneration_of_end (Or.inr rfl) ?_ hAlters
      cases origin with
      | worker generation =>
          cases hWorker
          exact hOk
      | erasure generation =>
          cases hWorker
          exact hOk
      | _ => cases hWorker

/-- An erasure that finds another generation does not spare it. -/
theorem erasesOwn_of_spares (hOk : WorkerOk row t phase)
    (h : advance env now t row phase input = some (row', phase'))
    (hSpares : ∀ generation, phase.worker = some generation → Alters t row row' →
      OfGeneration generation row) : erasesOwn row phase input = true := by
  unfold erasesOwn
  split
  case h_2 => rfl
  rename_i generation loaded memory after
  have hFree : row.HasNoLock t := hOk
  cases hCommitted : row.committed with
  | none => rfl
  | some c =>
      rw [Option.all_some, Bool.or_eq_true, beq_iff_eq, beq_iff_eq]
      by_cases hSame : flushConnection loaded memory c = c
      · exact Or.inr hSame
      · obtain ⟨⟨written, matched⟩, hUpdate, hEq⟩ := Option.map_eq_some_iff.mp h
        cases hEq
        obtain ⟨-, hHeld⟩ := hFree.update_eq_some hCommitted rfl hUpdate
        have hAlters : Alters t row row' := by
          refine Or.inr ?_
          rw [hHeld.view, hFree.view, hCommitted]
          exact fun hEqual => hSame (Option.some.inj hEqual)
        obtain ⟨c', hCommitted', hGeneration⟩ := hSpares generation rfl hAlters
        obtain rfl := Option.some.inj (hCommitted.symm.trans hCommitted')
        exact Or.inl hGeneration

end Steps

/-! ## Runs -/

section Runs

variable {env : CallEnv} {w w' : CallWorld} {a : CallAction} {as : List CallAction}

def WorkersOk (w : CallWorld) : Prop := ∀ t, WorkerOk w.row t (w.calls t)

/-- Nothing has been called and nobody has the row locked. -/
structure CallWorld.Initial (w : CallWorld) : Prop where
  idle : ∀ t, w.calls t = .idle
  unlocked : w.row.lock = none

theorem workersOk_initial (h : w.Initial) : WorkersOk w := by
  intro t
  rw [h.idle t]
  intro own hHeld
  rw [LockedRow.Held, h.unlocked] at hHeld
  cases hHeld

theorem workersOk_step (h : WorkersOk w) (hErasures : ownErasures w a = true)
    (hStep : w.step env a = some w') : WorkersOk w' := by
  rcases CallWorld.step_eq_some hStep with ⟨elapsed, rfl, rfl⟩ | ⟨t, call, rfl, hIdle, rfl⟩ |
    ⟨t, input, row', phase', rfl, hAdvance, rfl⟩
  · exact h
  · have hFree : WorkerOk w.row t .idle := hIdle ▸ h t
    exact (Function.forall_update_iff w.calls (WorkerOk w.row)).mpr ⟨hFree, fun t' _ => h t'⟩
  · exact (Function.forall_update_iff w.calls (WorkerOk row')).mpr
      ⟨workerOk_advance (h t) hErasures hAdvance,
        fun t' hNe => (h t').of_stepBy (stepBy_advance hAdvance) hNe⟩

/-- One step spares newer connections exactly if it is not an erasure of one. -/
theorem sparesNewer_iff (h : WorkersOk w) (hStep : w.step env a = some w') :
    SparesNewer w a w' ↔ ownErasures w a = true := by
  rcases CallWorld.step_eq_some hStep with ⟨elapsed, rfl, rfl⟩ | ⟨t, call, rfl, hIdle, rfl⟩ |
    ⟨t, input, row', phase', rfl, hAdvance, rfl⟩
  · exact ⟨fun _ => rfl, fun _ _ _ hTick => nomatch hTick⟩
  · exact ⟨fun _ => rfl, fun _ _ _ hBegin => nomatch hBegin⟩
  · constructor
    · intro hSpares
      exact erasesOwn_of_spares (h t) hAdvance (hSpares t input rfl)
    · rintro hErases t' input' hEq generation hWorker hAlters
      cases hEq
      exact ofGeneration_of_alters (h t) hErases hWorker hAdvance hAlters

/-- No write of a worker in the run alters a connection of another generation, if and only
if each erasure finds the generation it was decided on, or nothing left to change. -/
theorem worker_spares_newer_iff (hStart : w.Initial) :
    (∀ u a v, StepOf (CallWorld.step env) w as u a v → SparesNewer u a v) ↔
      ∀ u a v, StepOf (CallWorld.step env) w as u a v → ownErasures u a = true := by
  constructor
  · intro hSpares u a v hStep
    have hOk : WorkersOk u := visits_induct (workersOk_initial hStart) hStep.before
      fun x b y h hx =>
        workersOk_step hx ((sparesNewer_iff hx h.step).mp (hSpares x b y h)) h.step
    exact (sparesNewer_iff hOk hStep.step).mp (hSpares u a v hStep)
  · intro hErasures u a v hStep
    have hOk : WorkersOk u := visits_induct (workersOk_initial hStart) hStep.before
      fun x b y h hx => workersOk_step hx (hErasures x b y h) h.step
    exact (sparesNewer_iff hOk hStep.step).mpr (hErasures u a v hStep)

end Runs

/-! ### A worker that finds its secret lost -/

def lostCalls : CallEnv := ⟨demoEnv.py, plainVault, 1, demoDatabase⟩

/-- The row of user 1 is connected under generation 3, with a session that cannot be opened. -/
def lostWorld : CallWorld :=
  ⟨0, ⟨some { demoConnection with sessionEncrypted := some "lost" }, none⟩, fun _ => .idle⟩

/-- A lease of generation 3. -/
def boundLease : ScanLease :=
  { jobId := 1, userId := 1, pageSize := 2, telegramUserId := 200, connectionGeneration := 3
    messagesScanned := 0, lastMessageId := none, maxMessages := 4, maxRuntimeSeconds := 60
    startedAt := 0, owner := 1, replaceExisting := false }

/-- The worker decides the erasure, which takes two more steps. -/
def decidesErasure : List CallAction := .begin 1 (.openScan boundLease) :: proceeds 1 1

/-- The user disconnects, starts and verifies, as the same account. -/
def reconnects : List CallAction :=
  .begin 2 .disconnect :: proceeds 3 2 ++
    .begin 3 (.start (startRequest 0)) :: proceeds 3 3 ++
    [.advance 3 (.authorized false), .advance 3 (.code (some "hash") "first")] ++ proceeds 2 3 ++
    .begin 4 (.verify 10) :: proceeds 4 4 ++
    .advance 4 (.identity (some 200) "second") :: proceeds 2 4

def lostAfter (as : List CallAction) : CallWorld :=
  (run (CallWorld.step lostCalls) lostWorld as).getD lostWorld

/-- State and generation of the committed row. -/
def generationAfter (as : List CallAction) : Option (ConnectionState × Nat) :=
  (lostAfter as).row.committed.map fun c => (c.state, c.generation)

theorem lostWorld_initial : lostWorld.Initial := ⟨fun _ => rfl, rfl⟩

theorem worker_spares_newer_alone :
    (∀ u a v, StepOf (CallWorld.step lostCalls) lostWorld (decidesErasure ++ proceeds 2 1) u a v →
      SparesNewer u a v) ∧
      generationAfter (decidesErasure ++ proceeds 2 1) = some (.error, 4) :=
  ⟨(worker_spares_newer_iff lostWorld_initial).mpr fun _ _ _ hStep =>
    of_everyStep (by decide +kernel) hStep, by decide +kernel⟩

/-- The erasure takes generation 5 back to 4. -/
theorem worker_erases_newer : lostWorld.Initial ∧
    generationAfter (decidesErasure ++ reconnects ++ proceeds 1 1) = some (.connected, 5) ∧
    generationAfter (decidesErasure ++ reconnects ++ proceeds 1 1 ++ proceeds 1 1) =
      some (.error, 4) ∧
    ¬ ∀ u a v, StepOf (CallWorld.step lostCalls) lostWorld
        (decidesErasure ++ reconnects ++ proceeds 1 1 ++ proceeds 1 1) u a v →
      SparesNewer u a v := by
  have hNew : generationAfter (decidesErasure ++ reconnects ++ proceeds 1 1) =
      some (.connected, 5) := by decide +kernel
  have hErased : generationAfter (decidesErasure ++ reconnects ++ proceeds 1 1 ++ proceeds 1 1) =
      some (.error, 4) := by decide +kernel
  refine ⟨lostWorld_initial, hNew, hErased, fun hSpares => ?_⟩
  have hFront : run (CallWorld.step lostCalls) lostWorld
      (decidesErasure ++ reconnects ++ proceeds 1 1) =
      some (lostAfter (decidesErasure ++ reconnects ++ proceeds 1 1)) :=
    run_getD (by decide +kernel)
  have hLast : run (CallWorld.step lostCalls)
      (lostAfter (decidesErasure ++ reconnects ++ proceeds 1 1)) [.advance 1 .proceed] =
      some (lostAfter (decidesErasure ++ reconnects ++ proceeds 1 1 ++ proceeds 1 1)) :=
    run_getD_append (by decide +kernel)
  obtain ⟨v, hStep, hEnd⟩ := run_cons.mp hLast
  rw [run_nil, Option.some.injEq] at hEnd
  subst hEnd
  have hWorker : ((lostAfter (decidesErasure ++ reconnects ++ proceeds 1 1)).calls 1).worker =
      some 3 := by decide +kernel
  obtain ⟨c, hCommitted, hGeneration⟩ := hSpares _ _ _ ⟨_, [], rfl, hFront, hStep⟩ 1 .proceed rfl 3
    hWorker (Or.inl fun hSame => by
      rw [generationAfter, hSame] at hErased
      rw [generationAfter, hErased] at hNew
      cases hNew)
  rw [generationAfter, hCommitted, Option.map_some, hGeneration] at hNew
  exact absurd (Prod.mk.inj (Option.some.inj hNew)).2 (by decide)

end SavedOrganizer
