import SavedOrganizer.System.JobChange

/-!
# Generations and Telegram principals

`ConnectionChange` is what a step does to a user's connection row: the generation does not
go down, and a principal stays as long as the generation does. Erasing an expired challenge,
which clears the principal without a new generation, is only right because a pending row
has none (`Unbound`).

The second transaction of a start that invalidated a row it could not open is the
exception. It writes the row it has in memory, so what it writes is `ConnectionChange` only
when the row is still that one (`FreshFinish`). `generation_identifies_principal` is about
the runs in which it always is; `stale_start_reuses_generation` is a run in which it is not.
-/

namespace SavedOrganizer

open Transition

/-- A pending row has no principal. -/
def Unbound (c : TelegramConnection) : Prop := c.state = .pending → c.telegramUserId = none

/-- The row `c'` may come after the row `c`. -/
structure Succeeds (c c' : TelegramConnection) : Prop where
  generation_le : c.generation ≤ c'.generation
  principal : c'.generation = c.generation → c.telegramUserId ≠ none →
    c'.telegramUserId = c.telegramUserId

theorem Succeeds.refl (c : TelegramConnection) : Succeeds c c := ⟨Nat.le_refl _, fun _ _ => rfl⟩

theorem Succeeds.trans {c c' c'' : TelegramConnection} (h : Succeeds c c')
    (h' : Succeeds c' c'') : Succeeds c c'' := by
  refine ⟨Nat.le_trans h.generation_le h'.generation_le, ?_⟩
  intro hSame hBound
  have hLe := h.generation_le
  have hLe' := h'.generation_le
  have hFirst := h.principal (by omega) hBound
  have hSecond := h'.principal (by omega) (by rw [hFirst]; exact hBound)
  rw [hSecond, hFirst]

theorem Succeeds.of_lt {c c' : TelegramConnection} (h : c.generation < c'.generation) :
    Succeeds c c' :=
  ⟨Nat.le_of_lt h, fun hSame => absurd hSame (Nat.ne_of_gt h)⟩

theorem Succeeds.of_unbound {c c' : TelegramConnection} (hNone : c.telegramUserId = none)
    (hLe : c.generation ≤ c'.generation) : Succeeds c c' :=
  ⟨hLe, fun _ hBound => absurd hNone hBound⟩

/-- The row changes as it may, and a pending row stays without a principal. -/
def Follows (c c' : TelegramConnection) : Prop := Succeeds c c' ∧ Unbound c'

/-- What a step makes of a user's row; a row is never deleted. -/
inductive ConnectionChange : Option TelegramConnection → Option TelegramConnection → Prop
  | absent : ConnectionChange none none
  | changed {c c' : TelegramConnection} (h : Follows c c') : ConnectionChange (some c) (some c')
  | created {c : TelegramConnection} (h : Unbound c) : ConnectionChange none (some c)

/-! ## The values that are written -/

section Values

variable {c : TelegramConnection}

theorem follows_invalidate {state : ConnectionState} (hState : state ≠ .pending) :
    Follows c (c.invalidate state) :=
  ⟨.of_lt (Nat.lt_succ_self _), fun hPending => absurd hPending hState⟩

theorem follows_rejectIdentity : Follows c c.rejectIdentity :=
  ⟨.of_lt (Nat.lt_succ_self _), fun hPending => by cases hPending⟩

/-- Erasing a challenge clears no principal: the row was pending. -/
theorem follows_eraseExpiredChallenge (hPending : c.state = .pending) (hUnbound : Unbound c) :
    Follows c c.eraseExpiredChallenge :=
  ⟨.of_unbound (hUnbound hPending) (Nat.le_refl _), fun h => by cases h⟩

/-- Binding a principal: a new one comes with a new generation, unless the row was pending. -/
theorem succeeds_bind {identity : Option TelegramId} {db : Database} {row : TelegramConnection}
    {cancels : Bool} (h : bindAuthorizedPrincipal identity db c = some (row, cancels)) :
    Succeeds c row := by
  unfold bindAuthorizedPrincipal at h
  split at h
  · cases h
  · rename_i actual
    split at h
    · cases h
    · simp only [Option.some.injEq, Prod.mk.injEq] at h
      obtain ⟨rfl, -⟩ := h
      by_cases hRebinds : (c.telegramUserId != some actual &&
          (c.telegramUserId.isSome || c.state != .pending)) = true
      · apply Succeeds.of_lt
        simp only [hRebinds, if_true]
        omega
      · rw [Bool.not_eq_true] at hRebinds
        constructor
        · simp only [hRebinds, Bool.false_eq_true, if_false, Nat.le_refl]
        intro _ hBound
        have hSome : c.telegramUserId.isSome = true := Option.isSome_iff_ne_none.mpr hBound
        rw [hSome, Bool.true_or, Bool.and_true, bne_eq_false_iff_eq] at hRebinds
        exact hRebinds.symm

/-- A write over the row that was loaded writes the row in memory. -/
theorem flushConnection_self (memory : TelegramConnection) :
    flushConnection c memory c = { memory with userId := c.userId } := by
  have hKeep {α : Type} (p : Prop) [Decidable p] (x y : α) (h : p → y = x) :
      (if p then x else y) = y := by
    split
    · rename_i hp
      exact (h hp).symm
    · rfl
  simp only [flushConnection, TelegramConnection.mk.injEq, true_and]
  refine ⟨?_, ?_, ?_, ?_, ?_, ?_, ?_, ?_, ?_, ?_⟩ <;> exact hKeep _ _ _ id

/-- What a start has in memory at its end comes after the row it loaded. -/
theorem follows_startOutcome {py : Python.Runtime} {vault : Vault} {now : Instant}
    {request : StartRequest} {client : StartClient} {db : Database}
    {memory : TelegramConnection} {cancels : Bool}
    (h : startOutcome py vault now request client db c = some (memory, cancels)) :
    Follows c memory := by
  unfold startOutcome at h
  split at h
  · cases h
  · split at h
    · cases h
    · obtain ⟨⟨bound, b⟩, hBind, hEq⟩ := Option.map_eq_some_iff.mp h
      cases hEq
      have hSucceeds : Succeeds (withCredentials vault request c) bound :=
        succeeds_bind hBind
      exact ⟨⟨hSucceeds.generation_le, hSucceeds.principal⟩, fun hPending => by cases hPending⟩
  · obtain ⟨hash, -, h⟩ := Option.bind_eq_some_iff.mp h
    split at h
    · cases h
    · cases h
      exact ⟨.of_lt (Nat.lt_succ_self _), fun _ => rfl⟩

end Values

/-! ## The connection statements of each transaction -/

section Statements

variable {db : Database} {now : Instant} {lease : ScanLease} {userId u : UserId}

theorem change_refl (hOld : ∀ c ∈ db.connections, Unbound c) :
    ConnectionChange (db.connections.find? u) (db.connections.find? u) := by
  cases hRow : db.connections.find? u with
  | none => exact .absent
  | some c => exact .changed ⟨.refl c, hOld c (Table.mem_of_find? hRow)⟩

theorem change_update {p : TelegramConnection → Bool}
    {f : TelegramConnection → TelegramConnection} (hOld : ∀ c ∈ db.connections, Unbound c)
    (hSelected : ∀ c ∈ db.connections, p c = true → Follows c (f c))
    (hKey : ∀ c, (Keyed.key (f c) : UserId) = Keyed.key c := by intro _; exact Eq.trans rfl rfl) :
    ConnectionChange (db.connections.find? u) ((db.connections.update p f hKey).find? u) := by
  rw [Table.find?_update]
  cases hRow : db.connections.find? u with
  | none => exact .absent
  | some c =>
      have hMem := Table.mem_of_find? hRow
      refine .changed ?_
      beta_reduce
      split
      · rename_i hp
        exact hSelected c hMem hp
      · exact ⟨.refl c, hOld c hMem⟩

/-- The ORM writes the user's row back. -/
theorem change_updateConnection {db' : Database} {f : TelegramConnection → TelegramConnection}
    (hOld : ∀ c ∈ db.connections, Unbound c) (hSame : db'.connections = db.connections)
    (hRow : ∀ c, db.connections.find? userId = some c → Follows c (f c))
    (hKey : ∀ c, (f c).userId = c.userId := by intro _; exact Eq.trans rfl rfl) :
    ConnectionChange (db.connections.find? u)
      ((db'.updateConnection userId f hKey).connections.find? u) := by
  unfold Database.updateConnection
  rw [Database.updateConnections_connections, hSame]
  refine change_update hOld ?_ hKey
  intro c hMem hUser
  rw [beq_iff_eq] at hUser
  exact hRow c (Table.find?_eq_some.mpr ⟨hMem, hUser⟩)

theorem change_invalidate {db' : Database} {state : ConnectionState}
    (hOld : ∀ c ∈ db.connections, Unbound c) (hSame : db'.connections = db.connections)
    (hState : state ≠ .pending) :
    ConnectionChange (db.connections.find? u)
      ((db'.updateConnection userId (TelegramConnection.invalidate state)).connections.find? u) :=
  change_updateConnection hOld hSame fun _ _ => follows_invalidate hState

theorem persistScanPage_connections {py : Python.Runtime} {fenceNow : Instant} {page : ScanPage} :
    (committed db (persistScanPage py now fenceNow lease page db)).connections =
      db.connections := by
  cases hPersist : persistScanPage py now fenceNow lease page db with
  | error e => rfl
  | ok db' =>
      obtain ⟨-, -, -, other, staged, hStaged, rfl⟩ := persistScanPage_eq_ok hPersist
      exact (stagePage_tables hStaged).2.1

theorem requeueScanJob_connections :
    (requeueScanJob now lease db).1.connections = db.connections := by
  unfold requeueScanJob
  dsimp only
  cases lease.replaceExisting <;> rfl

theorem releaseInterruptedScan_connections :
    (releaseInterruptedScan now lease db).1.connections = db.connections := by
  unfold releaseInterruptedScan
  dsimp only
  cases lease.replaceExisting <;> rfl

theorem change_of_worker {env : Env} {op : WorkerOp} (hOld : ∀ c ∈ db.connections, Unbound c) :
    ConnectionChange (db.connections.find? u)
      ((op.apply env now lease db).connections.find? u) := by
  cases op with
  | renew => exact change_refl hOld
  | persist page delay =>
      simp only [WorkerOp.apply]
      rw [persistScanPage_connections]
      exact change_refl hOld
  | refreshSession session delay =>
      simp only [WorkerOp.apply, persistRefreshedSession]
      split
      · exact change_refl hOld
      split
      · exact change_refl hOld
      split
      · exact change_refl hOld
      · refine change_update hOld ?_
        intro c hMem _
        exact ⟨⟨Nat.le_refl _, fun _ _ => rfl⟩, hOld c hMem⟩
  | requeue =>
      simp only [WorkerOp.apply]
      rw [requeueScanJob_connections]
      exact change_refl hOld
  | release =>
      simp only [WorkerOp.apply]
      rw [releaseInterruptedScan_connections]
      exact change_refl hOld
  | finalize state error reason =>
      simp only [WorkerOp.apply]
      rw [finalizeScanJob_connections]
      exact change_refl hOld
  | downgrade =>
      simp only [WorkerOp.apply, downgradeConnection]
      split
      · exact change_refl hOld
      · exact change_invalidate hOld rfl (by decide)
  | openConnection =>
      simp only [WorkerOp.apply, openConnection]
      split
      · exact change_refl hOld
      split
      · exact change_refl hOld
      split
      · exact change_refl hOld
      · exact change_invalidate hOld rfl (by decide)

theorem change_of_authStatus {vault : Vault} (hOld : ∀ c ∈ db.connections, Unbound c) :
    ConnectionChange (db.connections.find? u)
      ((authStatus vault now userId db).1.connections.find? u) := by
  have hCorrupt : ConnectionChange (db.connections.find? u)
      ((invalidateCorruptConnection now userId db).connections.find? u) :=
    change_invalidate hOld rfl (by decide)
  unfold authStatus
  split
  · exact change_refl hOld
  rename_i c hRow
  split
  · dsimp only
    split
    · exact hCorrupt
    · exact change_refl hOld
  split
  · exact hCorrupt
  split
  · rename_i hExpired
    rw [Bool.and_eq_true, beq_iff_eq] at hExpired
    refine change_updateConnection hOld rfl ?_
    intro c' hRow'
    rw [hRow] at hRow'
    cases hRow'
    exact follows_eraseExpiredChallenge hExpired.1 (hOld c (Table.mem_of_find? hRow))
  split
  · exact hCorrupt
  · exact change_refl hOld

/-- The second part of a start, over the row it loaded. -/
theorem change_of_finishStart {py : Python.Runtime} {vault : Vault} {request : StartRequest}
    {client : StartClient} {loaded : TelegramConnection}
    (hOld : ∀ c ∈ db.connections, Unbound c)
    (hLoaded : client = .raises ∨ db.connections.find? request.userId = some loaded) :
    ConnectionChange (db.connections.find? u)
      ((finishStart py vault now request client loaded db).connections.find? u) := by
  unfold finishStart
  split
  · exact change_refl hOld
  · rename_i memory cancels hOutcome
    rcases hLoaded with rfl | hLoaded
    · cases hOutcome
    · have hFollows := follows_startOutcome hOutcome
      have hSame : (if cancels then db.cancelActiveScans now request.userId else db).connections =
          db.connections := by
        cases cancels <;> rfl
      refine change_updateConnection hOld hSame ?_
      intro c hRow
      rw [hLoaded] at hRow
      cases hRow
      rw [flushConnection_self]
      exact ⟨⟨hFollows.1.generation_le, hFollows.1.principal⟩, hFollows.2⟩

theorem change_of_startTelegram {py : Python.Runtime} {vault : Vault} {request : StartRequest}
    {client : StartClient} (hOld : ∀ c ∈ db.connections, Unbound c) :
    ConnectionChange (db.connections.find? u)
      ((startTelegram py vault now request client db).1.connections.find? u) := by
  unfold startTelegram
  split
  · split
    · exact change_refl hOld
    · rename_i hNone _ connections hInsert
      dsimp only
      split
      · exact change_refl hOld
      · -- the row is created and, in the same transaction, written
        obtain ⟨hFree, hTable⟩ := Table.insert?_eq_some.mp hInsert
        have hFind (k : UserId) : connections.find? k = if request.userId = k then
            some (.created request.userId) else db.connections.find? k := by
          rw [← hTable]
          exact Table.find?_insert _ _ _ k
        have hAdded : ∀ c ∈ connections, Unbound c := by
          intro c hc
          rw [← hTable] at hc
          rcases (Table.mem_insert _).mp hc with hc | rfl
          · exact hOld c hc
          · intro hPending
            cases hPending
        have hChange := @change_of_finishStart { db with connections := connections } now u py
          vault request client (.created request.userId) hAdded
          (Or.inr ((hFind request.userId).trans (if_pos rfl)))
        rw [hFind u] at hChange
        split at hChange
        · rename_i hUser
          rw [← hUser, hNone]
          rw [← hUser] at hChange
          generalize (finishStart py vault now request client _ _).connections.find?
            request.userId = row at hChange ⊢
          cases hChange with
          | changed h => exact .created h.2
        · exact hChange
  · rename_i c hRow
    split
    · exact change_of_finishStart hOld (Or.inr hRow)
    · exact change_invalidate hOld rfl (by decide)

theorem change_of_verifyTelegram {vault : Vault} {nonce : Nat} {client : VerifyClient}
    (hOld : ∀ c ∈ db.connections, Unbound c) :
    ConnectionChange (db.connections.find? u)
      ((verifyTelegram vault now userId nonce client db).connections.find? u) := by
  unfold verifyTelegram
  split
  · exact change_refl hOld
  rename_i c hRow
  have hUnbound : Unbound c := hOld c (Table.mem_of_find? hRow)
  have hIt {c' : TelegramConnection} (hRow' : db.connections.find? userId = some c') : c' = c := by
    rw [hRow] at hRow'
    exact (Option.some.inj hRow').symm
  split
  · exact change_refl hOld
  split
  · exact change_refl hOld
  split
  · exact change_refl hOld
  rename_i hNotPending
  have hPending : c.state = .pending := by simpa using hNotPending
  split
  · refine change_updateConnection hOld rfl ?_
    intro c' hRow'
    rw [hIt hRow']
    exact follows_eraseExpiredChallenge hPending hUnbound
  split
  · exact change_refl hOld
  · exact change_invalidate hOld rfl (by decide)
  · dsimp only
    split
    · exact change_refl hOld
    · refine change_updateConnection hOld rfl ?_
      intro c' hRow'
      rw [hIt hRow']
      exact ⟨⟨Nat.le_refl _, fun _ _ => rfl⟩, fun _ => hUnbound hPending⟩
    · refine change_updateConnection hOld rfl ?_
      intro c' hRow'
      rw [hIt hRow']
      exact ⟨⟨Nat.le_refl _, fun _ _ => rfl⟩, hUnbound⟩
    · split
      · exact change_refl hOld
      · rename_i bound cancels hBind
        have hSucceeds := succeeds_bind hBind
        refine change_updateConnection hOld (by cases cancels <;> rfl) ?_
        intro c' hRow'
        rw [hIt hRow']
        exact ⟨⟨hSucceeds.generation_le, hSucceeds.principal⟩, fun h => by cases h⟩

theorem change_of_deleteSavedMessages {vault : Vault} {telegramUserId : TelegramId}
    {generation : Nat} {client : ClientIdentity} {session : ClientSession}
    (hOld : ∀ c ∈ db.connections, Unbound c) :
    ConnectionChange (db.connections.find? u)
      ((deleteSavedMessages vault now userId telegramUserId generation client session
        db).connections.find? u) := by
  have hInvalid : ConnectionChange (db.connections.find? u)
      ((invalidateAuthorization now userId db).connections.find? u) :=
    change_invalidate hOld rfl (by decide)
  unfold deleteSavedMessages
  split
  · exact change_refl hOld
  split
  · exact change_refl hOld
  split
  · exact hInvalid
  split
  · exact change_refl hOld
  · exact hInvalid
  · exact hInvalid
  · split
    · exact hInvalid
    · refine change_updateConnection hOld rfl ?_
      intro c hRow
      exact ⟨⟨Nat.le_refl _, fun _ _ => rfl⟩, hOld c (Table.mem_of_find? hRow)⟩

/-- The validation at a scan's start, whether it raises or not. -/
theorem change_of_validate {vault : Vault} {client : ClientIdentity} {session : ClientSession}
    (hOld : ∀ c ∈ db.connections, Unbound c) {db' : Database}
    (h : validateAuthorizedConnection vault userId client session db = .error db' ∨
      ∃ c, validateAuthorizedConnection vault userId client session db = .ok (db', c)) :
    ConnectionChange (db.connections.find? u) (db'.connections.find? u) := by
  have hReject : ConnectionChange (db.connections.find? u)
      ((db.updateConnection userId TelegramConnection.rejectIdentity).connections.find? u) :=
    change_updateConnection hOld rfl fun _ _ => follows_rejectIdentity
  unfold validateAuthorizedConnection at h
  split at h
  · rcases h with h | ⟨c, h⟩ <;> cases h
    exact change_refl hOld
  rename_i c hRow
  split at h
  · rcases h with h | ⟨c, h⟩ <;> cases h
    exact change_refl hOld
  rename_i hUsable
  split at h
  · rcases h with h | ⟨c, h⟩ <;> cases h
    exact change_invalidate hOld rfl (by decide)
  split at h
  · rcases h with h | ⟨c, h⟩ <;> cases h
    exact change_refl hOld
  · rcases h with h | ⟨c, h⟩ <;> cases h
    exact change_invalidate hOld rfl (by decide)
  · rcases h with h | ⟨c, h⟩ <;> cases h
    exact hReject
  rename_i actual
  split at h
  · rcases h with h | ⟨c, h⟩ <;> cases h
    exact hReject
  · rename_i hSame
    rcases h with h | ⟨c', h⟩ <;> cases h
    refine change_updateConnection hOld rfl ?_
    intro c' hRow'
    rw [hRow] at hRow'
    cases hRow'
    have hConnected : c.state = .connected := by
      rw [Bool.or_eq_true, not_or] at hUsable
      simpa using hUsable.1
    refine ⟨?_, fun hPending => ?_⟩
    · cases hTelegram : c.telegramUserId with
      | none => exact .of_unbound hTelegram (Nat.le_succ _)
      | some p =>
          rw [hTelegram] at hSame
          have hActual : p = actual := by simpa using hSame
          refine ⟨Nat.le_refl _, fun _ _ => ?_⟩
          rw [hTelegram, hActual]
    · rw [show c.state = .pending from hPending] at hConnected
      cases hConnected

theorem change_of_createScan {vault : Vault} {settings : Settings} {pageSize : Nat}
    {clearExisting : Bool} {jobId : JobId} {client : ClientIdentity} {session : ClientSession}
    (hOld : ∀ c ∈ db.connections, Unbound c) :
    ConnectionChange (db.connections.find? u)
      ((createScan vault settings now userId pageSize clearExisting jobId client session
        db).connections.find? u) := by
  unfold createScan
  split
  · rename_i rejected hRejected
    exact change_of_validate hOld (Or.inl hRejected)
  · rename_i validated c hValidated
    split
    · exact change_refl hOld
    · rename_i telegramUserId _
      dsimp only
      have hChange : ConnectionChange (db.connections.find? u)
          (validated.connections.find? u) := change_of_validate hOld (Or.inr ⟨c, hValidated⟩)
      generalize hCleared : (if clearExisting = true then
        validated.clearMarkers (·.userId == userId) else validated) = cleared
      have hSame : cleared.connections = validated.connections := by
        rw [← hCleared]
        cases clearExisting <;> rfl
      cases hInsert : cleared.insertJob (.queued jobId userId clearExisting pageSize
          telegramUserId c.generation settings.scanMaxMessages settings.scanMaxRuntimeSeconds
          now) with
      | none => exact change_refl hOld
      | some created =>
          obtain ⟨-, jobs, -, rfl⟩ := insertJob_eq_some.mp hInsert
          rw [Option.getD_some]
          show ConnectionChange _ (cleared.connections.find? u)
          rw [hSame]
          exact hChange

end Statements

/-! ## Runs -/

/-- When the second part of a start writes, the row is still the one in its memory. -/
def FreshFinish (s : Store) : StoreAction → Prop
  | .finishAuthStart i client => ∀ start, s.authStarts[i]? = some start →
      client = .raises ∨ s.db.connections.find? start.request.userId = some start.memory
  | _ => True

section Runs

variable {env : Env} {s s' : Store} {a : StoreAction}

theorem step_connection (h : s.step env a = some s') (hFresh : FreshFinish s a)
    (hOld : ∀ c ∈ s.db.connections, Unbound c) (u : UserId) :
    ConnectionChange (s.db.connections.find? u) (s'.db.connections.find? u) := by
  cases a with
  | tick elapsed =>
      cases h
      exact change_refl hOld
  | claim jobId =>
      cases h
      exact change_refl hOld
  | worker lease op =>
      simp only [Store.step] at h
      split at h
      · cases h
        exact change_of_worker hOld
      · cases h
  | terminalizeExpired =>
      cases h
      exact change_refl hOld
  | startScan start jobId client session =>
      simp only [Store.step] at h
      split at h
      · cases h
      split at h
      · cases h
        exact change_refl hOld
      · cases h
        exact change_refl hOld
      · cases h
        exact change_refl hOld
      · cases h
        exact change_of_createScan hOld
  | finishScanStart start jobId client session =>
      simp only [Store.step] at h
      split at h
      · cases h
        exact change_of_createScan hOld
      · cases h
  | stopScan userId =>
      cases h
      exact change_refl hOld
  | authStatus userId =>
      cases h
      exact change_of_authStatus hOld
  | authStart request client =>
      cases h
      exact change_of_startTelegram hOld
  | finishAuthStart i client =>
      obtain ⟨start, hStart, rfl⟩ := Option.map_eq_some_iff.mp h
      exact change_of_finishStart hOld (hFresh start hStart)
  | verify userId nonce client =>
      cases h
      exact change_of_verifyTelegram hOld
  | disconnect userId =>
      cases h
      exact change_invalidate hOld rfl (by decide)
  | deleteRemote userId telegramUserId generation client session =>
      cases h
      exact change_of_deleteSavedMessages hOld
  | edit edit =>
      cases h
      show ConnectionChange _ ((edit.apply s.db).connections.find? u)
      rw [LibraryEdit.apply_connections]
      exact change_refl hOld

theorem unbound_step (h : s.step env a = some s') (hFresh : FreshFinish s a)
    (hOld : ∀ c ∈ s.db.connections, Unbound c) : ∀ c ∈ s'.db.connections, Unbound c := by
  intro c hc
  have hChange := step_connection h hFresh hOld c.userId
  rw [show s'.db.connections.find? c.userId = some c from Table.find?_key hc] at hChange
  generalize s.db.connections.find? c.userId = row at hChange
  cases hChange with
  | changed hFollows => exact hFollows.2
  | created hUnbound => exact hUnbound

/-- The row `c'` is not older than the row `c`, and each generation stands for one
principal. -/
structure GenerationIdentifies (c c' : TelegramConnection) : Prop where
  monotone : c.generation ≤ c'.generation
  onePrincipal : c.generation = c'.generation → ∀ p p', c.telegramUserId = some p →
    c'.telegramUserId = some p' → p = p'
  changes : c.telegramUserId ≠ none → c'.telegramUserId ≠ c.telegramUserId →
    c.generation < c'.generation

theorem Succeeds.identifies {c c' : TelegramConnection} (h : Succeeds c c') :
    GenerationIdentifies c c' := by
  refine ⟨h.generation_le, ?_, ?_⟩
  · intro hSame p p' hp hp'
    have hKept := h.principal hSame.symm (by rw [hp]; exact Option.some_ne_none p)
    rw [hp, hp'] at hKept
    exact (Option.some.inj hKept).symm
  · intro hBound hChanged
    have hLe := h.generation_le
    have hNe : c'.generation ≠ c.generation := fun hSame => hChanged (h.principal hSame hBound)
    omega

/-- In a run in which every start finishes over the row it left, any two states of a
connection, the later one second, agree on what a generation stands for. -/
theorem generation_identifies_principal {s₀ t : Store} {front back : List StoreAction}
    {userId : UserId} {c c' : TelegramConnection} (hStart : s₀.Initial)
    (hFront : run (Store.step env) s₀ front = some s)
    (hBack : run (Store.step env) s back = some t)
    (hFresh : ∀ x a y, StepOf (Store.step env) s₀ (front ++ back) x a y → FreshFinish x a)
    (hc : s.db.connections.find? userId = some c)
    (hc' : t.db.connections.find? userId = some c') : GenerationIdentifies c c' := by
  have hUnbound : ∀ c ∈ s.db.connections, Unbound c :=
    run_induct (I := fun x => ∀ c ∈ x.db.connections, Unbound c) hStart.pendingUnbound hFront
      fun x a y hStep hOld =>
        unbound_step hStep.step (hFresh x a y (hStep.append_right back)) hOld
  have hReach : (∀ c ∈ t.db.connections, Unbound c) ∧
      ∃ last, t.db.connections.find? userId = some last ∧ Succeeds c last := by
    refine run_induct (I := fun x => (∀ c ∈ x.db.connections, Unbound c) ∧
      ∃ last, x.db.connections.find? userId = some last ∧ Succeeds c last)
      ⟨hUnbound, c, hc, .refl c⟩ hBack ?_
    rintro x a y hStep ⟨hOld, last, hLast, hSucceeds⟩
    have hFreshHere := hFresh x a y (hStep.append_left hFront)
    refine ⟨unbound_step hStep.step hFreshHere hOld, ?_⟩
    have hChange := step_connection hStep.step hFreshHere hOld userId
    rw [hLast] at hChange
    generalize y.db.connections.find? userId = row at hChange ⊢
    cases hChange with
    | changed hFollows => exact ⟨_, rfl, hSucceeds.trans hFollows.1⟩
  obtain ⟨-, last, hLast, hSucceeds⟩ := hReach
  rw [hc'] at hLast
  obtain rfl : c' = last := Option.some.inj hLast
  exact hSucceeds.identifies

end Runs

/-! ### A start that was overtaken

The first start cannot open the session of account 200 and invalidates the row. While its
client connects, a second start and a verification bind account 300. Then the first start
binds account 400 over them, under the generation it counts from its memory. -/

def lostStore : Store :=
  { demoStore with
    db := { demoDatabase with
      connections := ⟨[{ demoConnection with sessionEncrypted := some "lost" }], by decide⟩ } }

def startRequest (nonce : Nat) : StartRequest :=
  ⟨1, 12345, "0123456789abcdef0123456789abcdef", "+4912345".toList, nonce⟩

def overtaken : List StoreAction :=
  [.authStart (startRequest 0) .raises,
    .authStart (startRequest 10) (.codeRequested (some "hash") "second"),
    .verify 1 20 (.signedIn true (some 300) "verified")]

def finishOvertaken : StoreAction := .finishAuthStart 0 (.authorized (some 400) "first")

theorem lostStore_initial : lostStore.Initial where
  noLeases := rfl
  noScanStarts := rfl
  noAuthStarts := rfl
  jobsEnded := fun _ hJob => by cases hJob
  pendingUnbound := by
    intro c hc hPending
    rw [List.mem_singleton.mp hc] at hPending
    cases hPending
  sourcesUnique := fun _ hm => by cases hm

/-- Generation 5 stands for account 300 before the last step and for account 400 after it. -/
theorem stale_start_reuses_generation : lostStore.Initial ∧ ∃ s t c c',
    run (Store.step demoEnv) lostStore overtaken = some s ∧
    run (Store.step demoEnv) s [finishOvertaken] = some t ∧
    s.db.connections.find? 1 = some c ∧ t.db.connections.find? 1 = some c' ∧
    ¬ GenerationIdentifies c c' := by
  have hBefore : ((run (Store.step demoEnv) lostStore overtaken).bind fun s =>
      s.db.connections.find? 1).map (fun c => (c.generation, c.telegramUserId)) =
      some (5, some 300) := by decide +kernel
  have hAfter : ((run (Store.step demoEnv) lostStore (overtaken ++ [finishOvertaken])).bind
      fun s => s.db.connections.find? 1).map (fun c => (c.generation, c.telegramUserId)) =
      some (5, some 400) := by decide +kernel
  obtain ⟨c, hc, hEq⟩ := Option.map_eq_some_iff.mp hBefore
  obtain ⟨s, hs, hRow⟩ := Option.bind_eq_some_iff.mp hc
  obtain ⟨c', hc', hEq'⟩ := Option.map_eq_some_iff.mp hAfter
  obtain ⟨t, ht, hRow'⟩ := Option.bind_eq_some_iff.mp hc'
  obtain ⟨s', hs', hStep⟩ := run_append.mp ht
  rw [hs] at hs'
  obtain rfl : s = s' := Option.some.inj hs'
  simp only [Prod.mk.injEq] at hEq hEq'
  refine ⟨lostStore_initial, s, t, c, c', hs, hStep, hRow, hRow', ?_⟩
  intro h
  have hPrincipal := h.onePrincipal (hEq.1.trans hEq'.1.symm) 300 400 hEq.2 hEq'.2
  revert hPrincipal
  decide

/-- The first start finishes at once. -/
def undisturbed : List StoreAction := [.authStart (startRequest 0) .raises, finishOvertaken]

theorem generation_identifies_principal_undisturbed : ∃ s t c c',
    run (Store.step demoEnv) lostStore [] = some s ∧
    run (Store.step demoEnv) s undisturbed = some t ∧
    s.db.connections.find? 1 = some c ∧ t.db.connections.find? 1 = some c' ∧
    GenerationIdentifies c c' := by
  have hAfter : ((run (Store.step demoEnv) lostStore undisturbed).bind fun s =>
      s.db.connections.find? 1).isSome = true := by decide +kernel
  have hLeft : (run (Store.step demoEnv) lostStore [.authStart (startRequest 0) .raises]).all
      (fun s => s.authStarts.all fun start =>
        s.db.connections.find? start.request.userId == some start.memory) = true := by
    decide +kernel
  obtain ⟨c', hc'⟩ := Option.isSome_iff_exists.mp hAfter
  obtain ⟨t, hRun, hRow⟩ := Option.bind_eq_some_iff.mp hc'
  refine ⟨lostStore, t, _, c', rfl, hRun, rfl, hRow, ?_⟩
  refine generation_identifies_principal lostStore_initial (run_nil _ _) hRun ?_ rfl hRow
  rintro x a y ⟨front, back, hActions, hFront, -⟩
  rw [List.nil_append, undisturbed] at hActions
  rcases front with _ | ⟨first, _ | ⟨second, rest⟩⟩
  · cases hActions
    trivial
  · cases hActions
    intro start hStart
    rw [hFront, Option.all_some, List.all_eq_true] at hLeft
    exact Or.inr (beq_iff_eq.mp (hLeft start (List.mem_of_getElem? hStart)))
  · simp at hActions

end SavedOrganizer
