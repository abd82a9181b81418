import SavedOrganizer.System.Replacement
import SavedOrganizer.System.StatementRuns

/-!
# The marker of one message

What the transactions may do to the marker that an active job `j` has put on a row
(`RowSeen`). A transaction that has taken it away ends the job before it commits, or is the last
of the job's worker (`Losing`). One that persists a page of the job marks every row of the page,
so that a cursor moves only over rows that are marked.

The end of expired stops takes markers away in one statement and ends the jobs in the next: that
it ends those jobs is the hypothesis `hEnds`.
-/

namespace SavedOrganizer

open Pagination MarkerView

/-- The committed job is active. -/
def ActiveJob (s : MarkerView) (j : JobId) : Prop :=
  ∃ job, s.jobs.committed j = some job ∧ job.state.active = true

/-- The statement ends the job whatever has become of it. -/
def JobStatement.EndsAnyway (ending : JobStatement) (job : ScanJob) : Prop :=
  ∀ clock job', SameJob job job' → job'.state.active = true →
    ending.selects clock job' = true ∧ (ending.sets job').state.active = false

/-- A transaction that has taken the marker of job `j` away. -/
inductive Losing (s : MarkerView) (waits : Waiter) (j : JobId) (phase : MarkerPhase) : Prop
  | ended (h : s.Ended j)
  /-- The worker of the job waits for this, and is done then. -/
  | yields {lease : ScanLease} {wphase : WorkerPhase} {job : ScanJob}
      (hPhase : phase = .committing none ∨ ∃ ending cleared, phase = .updating ending cleared)
      (hWaits : waits lease wphase none) (hJob : s.jobs.committed j = some job)
      (hOwns : lease.owns job = true) (hState : job.state = .stopping)
  | terminalizes {begun : Instant} {cleared : List (JobId × Nat)} {messages : Nat}
      (hPhase : phase = .updating (.terminalize begun) cleared) (hMem : (j, messages) ∈ cleared)
  | cancels {ending : JobStatement} {cleared : List (JobId × Nat)} {job : ScanJob}
      (hPhase : phase = .updating ending cleared) (hJob : s.jobs.committed j = some job)
      (hEnds : ending.EndsAnyway job)
  | starts {request : ScanRequest} {telegramUserId : TelegramId} {generation : Nat} {job : ScanJob}
      (hPhase : phase = .inserting request telegramUserId generation)
      (hJob : s.jobs.committed j = some job) (hUser : job.userId = request.userId)

/-- The row in the hands of one transaction. -/
structure RowSeen (s : MarkerView) (waits : Waiter) (phase : MarkerPhase) (j : JobId)
    (key : MessageKey) : Prop where
  cleared : s.messages.committed key = some (some j) → ActiveJob s j → ∀ marker,
    s.messages.own key = some (some marker) → marker ≠ some j → Losing s waits j phase
  covered : ∀ lease page writes, phase = .persistWriting lease page writes → lease.jobId = j →
    key.telegramId ∈ page.ids → s.messages.view key ≠ none →
      s.messages.own key = some (some (some j)) ∨ ∃ loaded, .refresh key loaded ∈ writes ∧
        (loaded = some j → s.messages.view key = some (some j))
  passed : ∀ before job, s.jobs.committed j = some before → s.jobs.own j = some (some job) →
    Passed job.lastMessageId key.telegramId → ¬ Passed before.lastMessageId key.telegramId →
      s.messages.view key ≠ none → s.messages.own key = some (some (some j))

/-- The job replaces the library of the row's account, and its pages leave nothing out. -/
structure Covers (s : MarkerView) (waits : Waiter) (j : JobId) (key : MessageKey) : Prop where
  job : ∀ job, s.jobs.committed j = some job →
    job.userId = key.userId ∧ job.telegramUserId = some key.telegramUserId
  page : ∀ lease page st st' job, AwaitsPage waits lease page st st' →
    s.jobs.committed j = some job → lease.owns job = true → lease.replaceExisting = true ∧
      (Passed page.nextOffsetId key.telegramId → ¬ Passed job.lastMessageId key.telegramId →
        key.telegramId ∈ page.ids)

section Rows

variable {now : Instant} {s s' : MarkerView} {waits : Waiter} {phase phase' : MarkerPhase}
  {j : JobId} {key : MessageKey} {job : ScanJob}

theorem RowSeen.of_fresh (hFresh : Fresh s)
    (hPhase : ∀ lease page writes, phase ≠ .persistWriting lease page writes) :
    RowSeen s waits phase j key :=
  ⟨fun _ _ _ hOwn => absurd ((hFresh.messages key).symm.trans hOwn) nofun,
    fun lease page writes hEq => absurd hEq (hPhase lease page writes),
    fun _ _ _ hOwn => absurd ((hFresh.jobs j).symm.trans hOwn) nofun⟩

theorem endsAnyway_downgrade {now : Instant} {lease : ScanLease} (h : lease.downgrades job = true) :
    (JobStatement.downgrade now lease).EndsAnyway job := by
  simp only [ScanLease.downgrades, Bool.and_eq_true, beq_iff_eq] at h
  obtain ⟨⟨⟨hUser, hTelegram⟩, hGeneration⟩, -⟩ := h
  intro clock job' hSame hActive
  refine ⟨?_, rfl⟩
  simp only [JobStatement.selects, ScanLease.downgrades, Bool.and_eq_true, beq_iff_eq]
  exact ⟨⟨⟨hSame.userId.trans hUser, hSame.telegramUserId.trans hTelegram⟩,
    hSame.connectionGeneration.trans hGeneration⟩, hActive⟩

theorem endsAnyway_cancelActive {now : Instant} {userId : UserId} (h : job.activeOf userId = true) :
    (JobStatement.cancelActive now userId).EndsAnyway job := fun _ _ hSame hActive =>
  ⟨activeOf_iff.mpr ⟨hSame.userId.trans (activeOf_iff.mp h).1, hActive⟩, rfl⟩

/-- A job of the row's user that its worker owns is the job of the row. -/
theorem Covers.jobId (hSeen : CallSeen s waits phase) (hCovers : Covers s waits j key)
    (hActive : ActiveJob s j) {lease : ScanLease} {before : ScanJob}
    (hUser : lease.userId = key.userId) (hCommitted : s.jobs.committed lease.jobId = some before)
    (hOwns : lease.owns before = true) : lease.jobId = j := by
  obtain ⟨job, hJob, hJobActive⟩ := hActive
  refine hSeen.stored.oneActive lease.jobId before j job hCommitted hJob ?_
    (ScanLease.active_of_owns hOwns) hJobActive
  rw [(ScanLease.names_iff.mp (ScanLease.names_of_owns hOwns)).2.1, hUser, (hCovers.job job hJob).1]

/-! ## A statement of the transaction -/

theorem Losing.keeps (h : Losing s waits j phase) (hKeeps : Keeps s s')
    (hUpdating : ∀ ending cleared, phase ≠ .updating ending cleared)
    (hOpen : phase.commits = false)
    (hInserting : ∀ request telegramUserId generation,
      phase ≠ .inserting request telegramUserId generation) : Losing s' waits j phase' := by
  cases h with
  | ended hEnded => exact .ended (hKeeps.ended j hEnded)
  | yields hPhase =>
      rcases hPhase with hPhase | ⟨ending, cleared, hPhase⟩
      · rw [hPhase] at hOpen
        cases hOpen
      · exact absurd hPhase (hUpdating ending cleared)
  | terminalizes hPhase => exact absurd hPhase (hUpdating _ _)
  | cancels hPhase => exact absurd hPhase (hUpdating _ _)
  | starts hPhase => exact absurd hPhase (hInserting _ _ _)

/-- A marker that an ending has cleared before it ends the jobs. -/
theorem losing_clears {ending : JobStatement} {cleared : List (JobId × Nat)}
    (hSeen : CallSeen s waits (.clearing ending)) (hJob : s.jobs.committed j = some job)
    (hClears : ending.clearsFor job = true) (hMem : (job.id, job.messagesScanned) ∈ cleared)
    {messages : Seen MessageKey Marker} :
    Losing { s with messages := messages } waits j (.updating ending cleared) := by
  obtain ⟨-, -, hWorker⟩ := hSeen.phaseSeen
  have hStopping (hStop : job.stopping = true) (hActive : job.state.active = true) :
      job.state = .stopping := by
    rw [ScanJob.stopping, Bool.or_eq_true, beq_iff_eq] at hStop
    exact hStop.elim (hSeen.stored.stopFlag j job hJob hActive).mp id
  have hYields {lease : ScanLease} (hLease : ending.worker = some lease)
      (hOwns : lease.owns job = true) (hStop : job.stopping = true) :
      Losing { s with messages := messages } waits j (.updating ending cleared) := by
    obtain ⟨wphase, hWaits⟩ := hWorker lease hLease
    exact .yields (Or.inr ⟨_, _, rfl⟩) hWaits hJob hOwns
      (hStopping hStop (ScanLease.active_of_owns hOwns))
  cases ending with
  | requeue now lease =>
      simp only [JobStatement.clearsFor, Bool.and_eq_true] at hClears
      exact hYields rfl (ScanLease.owns_of_holds hClears.1) hClears.2
  | release now lease =>
      simp only [JobStatement.clearsFor, Bool.and_eq_true] at hClears
      exact hYields rfl hClears.1 hClears.2
  | terminalize now => exact .terminalizes rfl (hSeen.stored.jobId j job hJob ▸ hMem)
  | downgrade now lease => exact .cancels rfl hJob (endsAnyway_downgrade hClears)
  | cancelActive now userId => exact .cancels rfl hJob (endsAnyway_cancelActive hClears)
  | _ => cases hClears

/-- The statement that ends the jobs whose markers it has cleared. -/
theorem losing_updates {ending : JobStatement} {cleared : List (JobId × Nat)}
    (hSeen : CallSeen s waits (.updating ending cleared))
    (h : Losing s waits j (.updating ending cleared)) (hActive : ActiveJob s j)
    (hEnds : ∀ begun messages, ending = .terminalize begun → (j, messages) ∈ cleared →
      ∀ job, s.jobs.view j = some job → job.state.active = true → job.abandonedStop begun = true) :
    Losing (s.update (ending.selects now) ending.sets) waits j (.committing none) := by
  obtain ⟨hUnlocked, -⟩ := hSeen.phaseSeen
  have hEnded {job : ScanJob} (hJob : s.jobs.committed j = some job)
      (hSelects : ending.selects now job = true) (hEnd : (ending.sets job).state.active = false) :
      Losing (s.update (ending.selects now) ending.sets) waits j (.committing none) :=
    .ended ⟨ending.sets job, Seen.own_write_of_match (hUnlocked.view.trans hJob) hSelects, hEnd⟩
  cases h with
  | ended hEnded =>
      obtain ⟨job, hOwn, -⟩ := hEnded
      exact absurd ((hUnlocked j).symm.trans hOwn) nofun
  | yields _ hWaits hJob hOwns hState => exact .yields (Or.inl rfl) hWaits hJob hOwns hState
  | terminalizes hPhase hMem =>
      cases hPhase
      obtain ⟨job, hJob, hJobActive⟩ := hActive
      exact hEnded hJob (hEnds _ _ rfl hMem job (hUnlocked.view.trans hJob) hJobActive) rfl
  | cancels hPhase hJob hEndsAnyway =>
      cases hPhase
      obtain ⟨job, hJob', hJobActive⟩ := hActive
      obtain rfl := Option.some.inj (hJob.symm.trans hJob')
      obtain ⟨hSelects, hEnd⟩ := hEndsAnyway now _ .refl hJobActive
      exact hEnded hJob hSelects hEnd
  | starts hPhase => cases hPhase

/-- A page deletes no rows. -/
theorem CallSeen.not_deleted {lease : ScanLease} {page : ScanPage} {writes : List MessageWrite}
    (h : CallSeen s waits (.persistWriting lease page writes)) : s.messages.own key ≠ some none := by
  intro hOwn
  obtain ⟨lease', hPrunes, -⟩ := h.rows.deleted key hOwn
  obtain ⟨outcome, hWaits, -⟩ := hPrunes.waits
  obtain ⟨st, st', hAwaits⟩ := h.phaseSeen.1.awaits
  cases (h.sole _ _ _ _ _ _ hWaits hAwaits.waits).2.1

/-- A page of the job's user takes no marker of the job away. -/
theorem RowSeen.losing_refresh {lease : ScanLease} {page : ScanPage} {key' : MessageKey}
    {loaded marker : Marker} {writes : List MessageWrite}
    (h : RowSeen s waits (.persistWriting lease page (.refresh key' loaded :: writes)) j key)
    (hSeen : CallSeen s waits (.persistWriting lease page (.refresh key' loaded :: writes)))
    (hCovers : Covers s waits j key) (hMarked : s.messages.committed key = some (some j))
    (hActive : ActiveJob s j)
    (hOwn : (s.messages.write (fun k _ => k == key')
      fun marker => some (flushMarker lease loaded marker)).own key = some (some marker))
    (hLost : marker ≠ some j) {messages : Seen MessageKey Marker} :
    Losing { s with messages := messages } waits j (.persistWriting lease page writes) := by
  obtain ⟨hPersists, hUsers⟩ := hSeen.phaseSeen
  have hBefore (hOld : s.messages.own key = some (some marker)) :
      Losing { s with messages := messages } waits j (.persistWriting lease page writes) :=
    (h.cleared hMarked hActive marker hOld hLost).keeps (keeps_messages messages) nofun rfl nofun
  rcases Seen.own_write_eq_some hOwn with hSame | ⟨marker', hView, hMatch, hNew⟩
  · exact hBefore hSame
  · have hKey : key = key' := eq_of_beq hMatch
    have hFlush : flushMarker lease loaded marker' = marker := (Option.some.inj hNew).symm
    unfold flushMarker at hFlush
    split at hFlush
    · obtain ⟨before, hBefore, hOwns, -⟩ := hPersists.held
      have hUser := hUsers key' loaded List.mem_cons_self
      have hThis := hCovers.jobId hSeen hActive (hKey ▸ hUser.symm) hBefore hOwns
      exact absurd (hFlush.symm.trans (congrArg some hThis)) hLost
    · subst hFlush
      cases hLocked : s.messages.own key with
      | none =>
          rw [Seen.view_of_none hLocked, hMarked] at hView
          exact absurd (Option.some.inj hView).symm hLost
      | some own =>
          rw [Seen.view_of_own hLocked] at hView
          exact hBefore (hView ▸ hLocked)

/-- The end of expired stops ends the jobs whose markers it has cleared. -/
def EndsCleared (s : MarkerView) (phase : MarkerPhase) (j : JobId) : Prop :=
  ∀ begun cleared messages, phase = .updating (.terminalize begun) cleared →
    (j, messages) ∈ cleared → ∀ job, s.jobs.view j = some job → job.state.active = true →
    job.abandonedStop begun = true

theorem RowSeen.cleared_executes (h : RowSeen s waits phase j key) (hSeen : CallSeen s waits phase)
    (hCovers : Covers s waits j key) (hExecutes : Executes now s phase s' phase')
    (hEnds : EndsCleared s phase j) (hMarked : s.messages.committed key = some (some j))
    (hActive : ActiveJob s j) {marker : Marker} (hOwn : s'.messages.own key = some (some marker))
    (hLost : marker ≠ some j) : Losing s' waits j phase' := by
  have hPhase := hSeen.phaseSeen
  have hUnlocked (hMessages : s.messages.Unlocked)
      (hOwn : s.messages.own key = some (some marker)) : Losing s' waits j phase' :=
    absurd ((hMessages key).symm.trans hOwn) nofun
  -- a row that is seen with another marker than the committed one is an own version
  have hCommitted {marker : Marker} (hMessages : s.messages.Unlocked)
      (hView : s.messages.view key = some marker) : marker = some j :=
    Option.some.inj (hView.symm.trans (hMessages.view.trans hMarked))
  have hKeeps : Keeps s s' := by
    rcases hExecutes.keeps hSeen with hKeeps | ⟨hFresh, hSame⟩
    · exact hKeeps
    · rw [hSame, hFresh.messages key] at hOwn
      cases hOwn
  obtain ⟨job, hJob, hJobActive⟩ := hActive
  cases hExecutes with
  | @clearsJob next userId jobId =>
      rcases Seen.own_write_eq_some hOwn with hOld | ⟨marker', hView, hMatch, -⟩
      · cases hPhase.2 key _ hOld
      · cases hOld : s.messages.own key with
        | some own =>
            rw [Seen.view_of_own hOld, hPhase.2 key own hOld] at hView
            cases hView
        | none =>
            rw [Seen.view_of_none hOld, hMarked] at hView
            cases hView
            rw [Bool.and_eq_true, beq_iff_eq, beq_iff_eq, Option.some.injEq] at hMatch
            exact .ended (hMatch.2 ▸ hPhase.1)
  | @clearsAll request telegramUserId generation =>
      rcases Seen.own_write_eq_some hOwn with hOld | ⟨marker', -, hMatch, -⟩
      · exact hUnlocked hPhase.1.messages hOld
      · exact .starts rfl hJob ((hCovers.job job hJob).1.trans (eq_of_beq hMatch))
  | clearsClaim hMarkedBy =>
      rcases Seen.own_write_eq_some hOwn with hOld | ⟨marker', hView, hMatch, -⟩
      · exact hUnlocked hPhase.1 hOld
      · obtain ⟨hThis, job', hView', hEnd⟩ := hMarkedBy key marker' hMatch
        have hId := Option.some.inj (hThis.symm.trans (hCommitted hPhase.1 hView))
        rw [hId] at hView'
        cases hLocked : s.jobs.own j with
        | none =>
            rw [Seen.view_of_none hLocked, hJob] at hView'
            cases hView'
            exact absurd (hEnd.symm.trans hJobActive) Bool.false_ne_true
        | some own =>
            rw [Seen.view_of_own hLocked] at hView'
            exact .ended ⟨job', hView' ▸ hLocked, hEnd⟩
  | clears hMarkedBy hCleared =>
      rcases Seen.own_write_eq_some hOwn with hOld | ⟨marker', hView, hMatch, -⟩
      · exact hUnlocked hPhase.1.messages hOld
      · obtain ⟨id, job', hId, hView', hClears⟩ := hMarkedBy key marker' hMatch
        obtain rfl := Option.some.inj (hId.symm.trans (hCommitted hPhase.1.messages hView))
        exact losing_clears hSeen (hPhase.1.jobs.view.symm.trans hView') hClears
          (hCleared id job' hView' hClears)
  | updates =>
      exact losing_updates hSeen (h.cleared hMarked ⟨job, hJob, hJobActive⟩ marker hOwn hLost)
        ⟨job, hJob, hJobActive⟩ fun begun messages hEq hMem => hEnds begun _ messages (hEq ▸ rfl) hMem
  | inserts hUser _ _ _ _ _ hFree =>
      cases h.cleared hMarked ⟨job, hJob, hJobActive⟩ marker hOwn hLost with
      | ended hEnded =>
          obtain ⟨job', hLocked, -⟩ := hEnded
          exact absurd ((hPhase.1 j).symm.trans hLocked) nofun
      | starts hThis hJob' hUser' =>
          cases hThis
          obtain rfl := Option.some.inj (hJob.symm.trans hJob')
          have hNone := hFree j _ (hPhase.1.view.trans hJob)
          rw [activeOf_iff.mpr ⟨hUser'.trans hUser.symm, hJobActive⟩] at hNone
          cases hNone
      | yields hThis =>
          rcases hThis with hThis | ⟨_, _, hThis⟩ <;> cases hThis
      | terminalizes hThis => cases hThis
      | cancels hThis => cases hThis
  | claims | records =>
      exact (h.cleared hMarked ⟨job, hJob, hJobActive⟩ marker hOwn hLost).keeps hKeeps nofun rfl nofun
  | refreshes => exact h.losing_refresh hSeen hCovers hMarked ⟨job, hJob, hJobActive⟩ hOwn hLost
  | @adds lease page newId telegramId writes hNew =>
      dsimp only [Seen.insert] at hOwn
      rw [Function.update_apply] at hOwn
      split at hOwn
      · rename_i hKey
        subst hKey
        cases hLocked : s.messages.own _ with
        | none => exact absurd ((Seen.view_of_none hLocked).symm.trans hNew) (hMarked ▸ nofun)
        | some own =>
            rw [Seen.view_of_own hLocked] at hNew
            exact absurd (hNew ▸ hLocked) hSeen.not_deleted
      · exact (h.cleared hMarked ⟨job, hJob, hJobActive⟩ marker hOwn hLost).keeps hKeeps nofun rfl
          nofun
  | deletes =>
      rcases Seen.own_write_eq_some hOwn with hOld | ⟨_, -, -, hNew⟩
      · exact hUnlocked hPhase.1 hOld
      · cases hNew
  | rejects hConnects => exact hUnlocked hPhase.messages (hConnects.messages ▸ hOwn)
  | validates hConnects => exact hUnlocked hPhase.messages (hConnects.messages ▸ hOwn)
  | locksConnection hConnects => exact hUnlocked hPhase.1.messages (hConnects.messages ▸ hOwn)
  | downgrades hConnects => exact hUnlocked hPhase.messages (hConnects.messages ▸ hOwn)
  | disconnects hConnects => exact hUnlocked hPhase.messages (hConnects.messages ▸ hOwn)
  | finds | startsFresh | cancels | locksStop | failsClaim => exact hUnlocked hPhase.messages hOwn
  | writes | stops | cancelsClaim | readsPage => exact hUnlocked hPhase.1 hOwn
  | locksJob | finalizes => exact hUnlocked hPhase.1.messages hOwn

/-- A row that the page has read is written. -/
theorem exists_pageWrites {stored : List (MessageKey × Marker)} {messages : List ScannedMessage}
    {seen : List TelegramId} {writes : List MessageWrite} {loaded : Marker}
    (hWrites : pageWrites stored seen messages = some writes) (hStored : (key, loaded) ∈ stored)
    (hOnly : ∀ key' loaded', (key', loaded') ∈ stored → key'.telegramId = key.telegramId →
      key' = key)
    (hMem : key.telegramId ∈ messages.map ScannedMessage.telegramId)
    (hSeen : key.telegramId ∉ seen) : ∃ loaded', MessageWrite.refresh key loaded' ∈ writes := by
  induction messages generalizing seen writes with
  | nil => cases hMem
  | cons scanned rest ih =>
      simp only [pageWrites] at hWrites
      by_cases hThis : scanned.telegramId = key.telegramId
      · cases hFound : stored.reverse.find? (·.1.telegramId == scanned.telegramId) with
        | none =>
            have hNot := List.find?_eq_none.mp hFound (key, loaded) (List.mem_reverse.mpr hStored)
            exact absurd (beq_iff_eq.mpr hThis.symm) hNot
        | some found =>
            obtain ⟨key', loaded'⟩ := found
            have hMatch := List.find?_some hFound
            have hId : key'.telegramId = scanned.telegramId := eq_of_beq hMatch
            obtain rfl := hOnly key' loaded' (List.mem_reverse.mp (List.mem_of_find?_eq_some hFound))
              (hId.trans hThis)
            rw [hFound] at hWrites
            obtain ⟨later, -, rfl⟩ := Option.map_eq_some_iff.mp hWrites
            have hNew : seen.contains scanned.telegramId = false := by
              rw [hThis, ← Bool.not_eq_true, List.contains_iff_mem]
              exact hSeen
            rw [hNew]
            exact ⟨loaded', List.mem_cons_self⟩
      · have hRest : key.telegramId ∈ rest.map ScannedMessage.telegramId := by
          rcases List.mem_cons.mp hMem with hHead | hRest
          · exact absurd hHead.symm hThis
          · exact hRest
        have hSeen' : key.telegramId ∉ scanned.telegramId :: seen := by
          rw [List.mem_cons, not_or]
          exact ⟨Ne.symm hThis, hSeen⟩
        split at hWrites
        · obtain ⟨later, hLater, rfl⟩ := Option.map_eq_some_iff.mp hWrites
          obtain ⟨loaded', hMem'⟩ := ih hLater hRest hSeen'
          refine ⟨loaded', ?_⟩
          split
          · exact hMem'
          · exact List.mem_cons_of_mem _ hMem'
        · split at hWrites
          · cases hWrites
          · obtain ⟨later, hLater, rfl⟩ := Option.map_eq_some_iff.mp hWrites
            obtain ⟨loaded', hMem'⟩ := ih hLater hRest hSeen'
            exact ⟨loaded', List.mem_cons_of_mem _ hMem'⟩

/-- The lease of a page of the job is for the row's account. -/
theorem Covers.lease (hCovers : Covers s waits j key) {lease : ScanLease} (hId : lease.jobId = j)
    {before : ScanJob} (hCommitted : s.jobs.committed lease.jobId = some before)
    (hOwns : lease.owns before = true) :
    lease.userId = key.userId ∧ lease.telegramUserId = key.telegramUserId := by
  obtain ⟨-, hUser, hTelegram, -, -⟩ := ScanLease.names_iff.mp (ScanLease.names_of_owns hOwns)
  obtain ⟨hUser', hTelegram'⟩ := hCovers.job before (hId ▸ hCommitted)
  exact ⟨hUser.symm.trans hUser', Option.some.inj (hTelegram.symm.trans hTelegram')⟩

/-- A statement that writes one row of the page marks it, or leaves it to be marked. -/
theorem RowSeen.covered_refresh {lease : ScanLease} {page : ScanPage} {key' : MessageKey}
    {loaded' : Marker} {writes : List MessageWrite}
    (h : RowSeen s waits (.persistWriting lease page (.refresh key' loaded' :: writes)) j key)
    (hReplace : lease.replaceExisting = true) (hId : lease.jobId = j)
    (hPage : key.telegramId ∈ page.ids) {messages : Seen MessageKey Marker}
    (hMessages : messages = s.messages.write (fun k _ => k == key')
      fun marker => some (flushMarker lease loaded' marker)) (hView : messages.view key ≠ none) :
    messages.own key = some (some (some j)) ∨ ∃ loaded, .refresh key loaded ∈ writes ∧
      (loaded = some j → messages.view key = some (some j)) := by
  subst hMessages
  have hViewOld : s.messages.view key ≠ none := by
    rw [Seen.view_update] at hView
    exact fun hNone => hView (by rw [hNone]; rfl)
  have hFlush : flushMarker lease loaded' (some j) = some j := by
    unfold flushMarker
    split
    · rw [hId]
    · rfl
  rcases h.covered lease page _ rfl hId hPage hViewOld with hOwn | ⟨loaded, hMem, hLoaded⟩
  · left
    by_cases hKey : key = key'
    · rw [Seen.own_write_of_match (Seen.view_of_own hOwn) (beq_iff_eq.mpr hKey), hFlush]
    · have hSame : (s.messages.write (fun k _ => k == key')
          fun marker => some (flushMarker lease loaded' marker)).own key = s.messages.own key :=
        Seen.own_write_of_ne fun _ _ => beq_false_of_ne hKey
      exact hSame.trans hOwn
  · rcases List.mem_cons.mp hMem with hHead | hMem
    · cases hHead
      obtain ⟨marker, hMarker⟩ := Option.ne_none_iff_exists'.mp hViewOld
      left
      rw [Seen.own_write_of_match hMarker (beq_self_eq_true _)]
      by_cases hThis : loaded' = some j
      · obtain rfl := Option.some.inj (hMarker.symm.trans (hLoaded hThis))
        rw [hFlush]
      · have hNe : (loaded' != some lease.jobId) = true := bne_iff_ne.mpr (hId ▸ hThis)
        rw [flushMarker, hReplace, hNe, if_pos (Bool.and_self true), hId]
    · refine Or.inr ⟨loaded, hMem, fun hThis => ?_⟩
      rw [Seen.view_update, hLoaded hThis, Option.map_some]
      split
      · rw [hFlush]
      · rfl

theorem RowSeen.covered_add {lease : ScanLease} {page : ScanPage} {added : MessageKey}
    {telegramId : TelegramId} {writes : List MessageWrite}
    (h : RowSeen s waits (.persistWriting lease page (.add telegramId :: writes)) j key)
    (hReplace : lease.replaceExisting = true) (hId : lease.jobId = j)
    (hPage : key.telegramId ∈ page.ids) {messages : Seen MessageKey Marker}
    (hMessages : messages = s.messages.insert added
      (if lease.replaceExisting then some lease.jobId else none)) (hView : messages.view key ≠ none) :
    messages.own key = some (some (some j)) ∨ ∃ loaded, .refresh key loaded ∈ writes ∧
      (loaded = some j → messages.view key = some (some j)) := by
  subst hMessages
  by_cases hKey : key = added
  · left
    dsimp only [Seen.insert]
    rw [hKey, Function.update_self, if_pos hReplace, hId]
  · have hOwn : (s.messages.insert added (if lease.replaceExisting then some lease.jobId else none)).own
        key = s.messages.own key := Function.update_of_ne hKey _ _
    rw [Seen.view_insert, if_neg hKey] at hView
    rw [hOwn, Seen.view_insert, if_neg hKey]
    rcases h.covered lease page _ rfl hId hPage hView with hOwn | ⟨loaded, hMem, hLoaded⟩
    · exact Or.inl hOwn
    · rcases List.mem_cons.mp hMem with hHead | hMem
      · cases hHead
      · exact Or.inr ⟨loaded, hMem, hLoaded⟩

/-- The rows that the page has read are to be marked. -/
theorem covered_reads {lease : ScanLease} {page : ScanPage} {stored : List (MessageKey × Marker)}
    {writes : List MessageWrite} (hSeen : CallSeen s waits (.persistReading lease page))
    (hCovers : Covers s waits j key)
    (hStored : ∀ key marker, (key, marker) ∈ stored ↔ s.messages.view key = some marker ∧
      key.userId = lease.userId ∧ key.telegramUserId = lease.telegramUserId ∧
        key.telegramId ∈ page.ids)
    (hWrites : pageWrites stored [] page.messages = some writes) (hId : lease.jobId = j)
    (hPage : key.telegramId ∈ page.ids) (hView : s.messages.view key ≠ none) :
    ∃ loaded, .refresh key loaded ∈ writes ∧
      (loaded = some j → s.messages.view key = some (some j)) := by
  obtain ⟨before, hCommitted, hOwns, -⟩ := hSeen.phaseSeen.2.held
  obtain ⟨hUser, hTelegram⟩ := hCovers.lease hId hCommitted hOwns
  obtain ⟨loaded, hLoaded⟩ := Option.ne_none_iff_exists'.mp hView
  have hMine : (key, loaded) ∈ stored :=
    (hStored key loaded).mpr ⟨hLoaded, hUser.symm, hTelegram.symm, hPage⟩
  have hOnly (key' : MessageKey) (loaded' : Marker) (hMem : (key', loaded') ∈ stored)
      (hSame : key'.telegramId = key.telegramId) : key' = key := by
    obtain ⟨hView', hUser', hTelegram', -⟩ := (hStored key' loaded').mp hMem
    refine hSeen.unique_of_view (hView' ▸ nofun) hView ?_
    rw [MessageKey.source, MessageKey.source, hUser', hTelegram', hSame, hUser, hTelegram]
  obtain ⟨loaded', hMem⟩ := exists_pageWrites hWrites hMine hOnly hPage List.not_mem_nil
  refine ⟨loaded', hMem, fun hThis => ?_⟩
  exact hThis ▸ ((hStored key loaded').mp (mem_pageWrites hWrites hMem)).1

theorem RowSeen.covered_executes (h : RowSeen s waits phase j key) (hSeen : CallSeen s waits phase)
    (hCovers : Covers s waits j key) (hExecutes : Executes now s phase s' phase') {lease : ScanLease}
    {page : ScanPage} {writes : List MessageWrite} (hPhase' : phase' = .persistWriting lease page writes)
    (hId : lease.jobId = j) (hPage : key.telegramId ∈ page.ids) (hView : s'.messages.view key ≠ none) :
    s'.messages.own key = some (some (some j)) ∨ ∃ loaded, .refresh key loaded ∈ writes ∧
      (loaded = some j → s'.messages.view key = some (some j)) := by
  have hPhase := hSeen.phaseSeen
  have hReplace (hPersists : Persists s waits lease page) : lease.replaceExisting = true := by
    obtain ⟨before, hCommitted, hOwns, -⟩ := hPersists.held
    obtain ⟨st, st', hAwaits⟩ := hPersists.awaits
    exact (hCovers.page lease page st st' before hAwaits (hId ▸ hCommitted) hOwns).1
  cases hExecutes with
  | readsPage hStored hWrites =>
      cases hPhase'
      exact Or.inr (covered_reads hSeen hCovers hStored hWrites hId hPage hView)
  | refreshes =>
      cases hPhase'
      exact h.covered_refresh (hReplace hPhase.1) hId hPage rfl hView
  | adds =>
      cases hPhase'
      exact h.covered_add (hReplace hPhase.1) hId hPage rfl hView
  | writes =>
      unfold MarkerPhase.written at hPhase'
      split at hPhase' <;> cases hPhase'
  | validates => split at hPhase' <;> cases hPhase'
  | finalizes =>
      unfold MarkerPhase.finalized at hPhase'
      split at hPhase'
      · cases hPhase'
      · split at hPhase' <;> cases hPhase'
  | _ => cases hPhase'

/-- A worker waits for one page. -/
theorem AwaitsPage.unique {lease : ScanLease} {page page' : ScanPage} {st st' st₁ : ScanState}
    (h : AwaitsPage waits lease page st st') (h' : AwaitsPage waits lease page' st st₁) :
    page = page' := by
  obtain ⟨reached, hPhase⟩ := h.phase
  obtain ⟨reached', hPhase'⟩ := h'.phase
  rw [hPhase] at hPhase'
  cases hPhase'
  rfl

/-- Only a page moves the cursor. -/
theorem OwnVersion.page_of_passed {before : ScanJob} {n : TelegramId}
    (h : OwnVersion s waits phase j job) (hBefore : s.jobs.committed j = some before)
    (hPassed : Passed job.lastMessageId n) (hNot : ¬ Passed before.lastMessageId n) :
    phase = .committing none ∧ ∃ lease page st st', lease.jobId = j ∧
      AwaitsPage waits lease page st st' ∧ RecordedPage s lease page before := by
  have hSame {before' : ScanJob} (hBefore' : s.jobs.committed j = some before') : before' = before :=
    Option.some.inj (hBefore'.symm.trans hBefore)
  cases h with
  | follows hFollows =>
      obtain ⟨before', hBefore', hGoes, -⟩ := hFollows
      rw [hGoes.counts.lastMessageId, hSame hBefore'] at hPassed
      exact absurd hPassed hNot
  | claimed _ hBefore' =>
      rw [hSame hBefore'] at hPassed
      exact absurd hPassed hNot
  | @recorded lease page st st' before' hCommits hId hAwaits hRecorded =>
      obtain rfl := hSame (hId ▸ hRecorded.committed)
      exact ⟨hCommits, lease, page, st, st', hId, hAwaits, hRecorded⟩
  | added _ hAdded => cases hAdded.committed.symm.trans hBefore

/-- A cursor moves only over rows that are marked. -/
theorem RowSeen.passed_executes (h : RowSeen s waits phase j key) (hSeen : CallSeen s waits phase)
    (hCovers : Covers s waits j key) (hExecutes : Executes now s phase s' phase') {before : ScanJob}
    (hBefore : s.jobs.committed j = some before) (hOwn : s'.jobs.own j = some (some job))
    (hPassed : Passed job.lastMessageId key.telegramId)
    (hNot : ¬ Passed before.lastMessageId key.telegramId) (hView : s'.messages.view key ≠ none) :
    s'.messages.own key = some (some (some j)) := by
  have hBefore' : s'.jobs.committed j = some before := by
    rw [hExecutes.committed.1, hBefore]
  obtain ⟨job', hJob, hVersion⟩ := hSeen.jobs_executes hExecutes hOwn
  obtain rfl := Option.some.inj hJob
  obtain ⟨hCommits, lease, page, st, st', hId, hAwaits, hRecorded⟩ :=
    hVersion.page_of_passed hBefore' hPassed hNot
  rw [← hId, hRecorded.own] at hOwn
  obtain rfl := Option.some.inj (Option.some.inj hOwn)
  rcases hSeen.awaited _ _ _ hAwaits.waits with hDone | hFailing |
    ⟨page', st₁, st₁', hAwaits', hPhase, -, hPage | ⟨hCommitting, -⟩⟩
  · cases hDone
  · cases hFailing
  · cases hPhase
    obtain rfl := hAwaits.unique hAwaits'
    rcases hExecutes.page hPage with hGoesOn | ⟨hWriting, -, -, -, -, -, rfl⟩
    · rw [hCommits] at hGoesOn
      cases hGoesOn
    · obtain ⟨-, hHolds⟩ := hCovers.page lease page st st' before hAwaits hBefore hRecorded.owns
      rcases h.covered lease page [] hWriting hId (hHolds hPassed hNot) hView with
        hMarked | ⟨_, hMem, -⟩
      · exact hMarked
      · cases hMem
  · have hOpen := hExecutes.uncommitted
    rw [hCommitting] at hOpen
    cases hOpen

/-- A statement of the transaction. -/
theorem RowSeen.executes (h : RowSeen s waits phase j key) (hSeen : CallSeen s waits phase)
    (hCovers : Covers s waits j key) (hExecutes : Executes now s phase s' phase')
    (hEnds : EndsCleared s phase j) : RowSeen s' waits phase' j key := by
  obtain ⟨hJobs, hMessages⟩ := hExecutes.committed
  refine ⟨fun hMarked hActive marker hOwn hLost => ?_, fun lease page writes hPhase' hId hPage hView =>
    h.covered_executes hSeen hCovers hExecutes hPhase' hId hPage hView,
    fun before job hBefore hOwn hPassed hNot hView => ?_⟩
  · refine h.cleared_executes hSeen hCovers hExecutes hEnds (hMessages ▸ hMarked) ?_ hOwn hLost
    unfold ActiveJob at hActive
    rw [hJobs] at hActive
    exact hActive
  · exact h.passed_executes hSeen hCovers hExecutes (hJobs ▸ hBefore) hOwn hPassed hNot hView

end Rows

/-! ## Beside a commit -/

/-- What a commit does to the row: it takes the job's marker away with the end of the job or of
its worker's slice, and adds the row with a page of a job that it has locked. -/
structure RowCommit (s : MarkerView) (waits : Waiter) (j : JobId) (key : MessageKey) : Prop where
  cleared : s.messages.committed key = some (some j) → ActiveJob s j → ∀ marker,
    s.messages.own key = some (some marker) → marker ≠ some j →
      s.Ended j ∨ ∃ (lease : ScanLease) (wphase : WorkerPhase) (job : ScanJob),
        waits lease wphase none ∧ s.jobs.committed j = some job ∧ lease.owns job = true
  added : ∀ marker, s.messages.own key = some (some marker) → s.messages.committed key = none →
    ∃ (lease : ScanLease) (before : ScanJob), lease.userId = key.userId ∧
      s.jobs.committed lease.jobId = some before ∧ lease.owns before = true ∧
        s.jobs.own lease.jobId ≠ none

section Beside

variable {s other : MarkerView} {waits waits' : Waiter} {phase phase' : MarkerPhase} {j : JobId}
  {key : MessageKey} {job : ScanJob}

/-- A job that is active after a commit was so before. -/
theorem ActiveJob.of_after (hOther : CommitOk other) (h : ActiveJob (s.after other) j)
    (hThere : other.jobs.committed j ≠ none) : ∃ before job, other.jobs.committed j = some before ∧
      other.jobs.view j = some job ∧ before.state.active = true ∧ job.state.active = true ∧
        JobMoves before job := by
  obtain ⟨job, hJob, hActive⟩ := h
  have hView : other.jobs.view j = some job := hJob
  rcases hOther.jobs j job hView with ⟨before, hBefore, hMoves⟩ | hAdded
  · exact ⟨before, job, hBefore, hView, hMoves.active hActive, hActive, hMoves⟩
  · exact absurd hAdded.committed hThere

theorem JobStatement.EndsAnyway.trans {ending : JobStatement} {job job' : ScanJob}
    (h : ending.EndsAnyway job) (hSame : SameJob job job') : ending.EndsAnyway job' :=
  fun clock job'' hSame' hActive => h clock job'' (hSame.trans hSame') hActive

/-- The owner of a job that goes on stopping is the same. -/
theorem owns_of_stopping {before : ScanJob} {lease : ScanLease} (hOwns : lease.owns before = true)
    (hSame : SameJob before job) (hState : job.state = .stopping)
    (hOwner : job.leaseOwner = before.leaseOwner) : lease.owns job = true := by
  obtain ⟨hId, hUser, hTelegram, hGeneration, hNames⟩ :=
    ScanLease.names_iff.mp (ScanLease.names_of_owns hOwns)
  exact ScanLease.owns_iff.mpr ⟨ScanLease.names_iff.mpr ⟨hSame.id.trans hId, hSame.userId.trans hUser,
    hSame.telegramUserId.trans hTelegram, hSame.connectionGeneration.trans hGeneration,
    hOwner.trans hNames⟩, Or.inr hState⟩

theorem Losing.after (h : Losing s waits j phase) (hOther : CommitOk other) (hBeside : Beside s other)
    (hActive : ActiveJob (s.after other) j) : Losing (s.after other) waits j phase := by
  have hGoes {before : ScanJob} (hBefore : s.jobs.committed j = some before) :
      ∃ job, (s.after other).jobs.committed j = some job ∧ job.state.active = true ∧
        JobMoves before job := by
    rw [hBeside.jobs_committed] at hBefore
    obtain ⟨before', job, hBefore', hView, -, hJobActive, hMoves⟩ :=
      hActive.of_after hOther (hBefore ▸ nofun)
    obtain rfl := Option.some.inj (hBefore.symm.trans hBefore')
    exact ⟨job, hView, hJobActive, hMoves⟩
  cases h with
  | ended hEnded => exact .ended hEnded
  | yields hPhase hWaits hJob hOwns hState =>
      obtain ⟨job, hView, hJobActive, hMoves⟩ := hGoes hJob
      obtain ⟨hStopping, hOwner⟩ := hMoves.stopping hState hJobActive
      exact .yields hPhase hWaits hView (owns_of_stopping hOwns hMoves.same hStopping hOwner) hStopping
  | terminalizes hPhase hMem => exact .terminalizes hPhase hMem
  | cancels hPhase hJob hEnds =>
      obtain ⟨job, hView, -, hMoves⟩ := hGoes hJob
      exact .cancels hPhase hView (hEnds.trans hMoves.same)
  | starts hPhase hJob hUser =>
      obtain ⟨job, hView, -, hMoves⟩ := hGoes hJob
      exact .starts hPhase hView (hMoves.same.userId.trans hUser)

/-- No commit beside a page of the job adds the row. -/
theorem committed_of_left (hBeside : Beside s other) (hRow : RowCommit other waits' j key)
    (hView : other.messages.view key ≠ none)
    (hPage : ∀ (lease : ScanLease) (before : ScanJob), lease.userId = key.userId →
      s.jobs.committed lease.jobId = some before → lease.owns before = true →
        s.jobs.own lease.jobId ≠ none) :
    s.messages.committed key ≠ none := by
  rw [hBeside.messages_committed]
  intro hNone
  obtain ⟨marker, hMarker⟩ := Option.ne_none_iff_exists'.mp hView
  cases hOwn : other.messages.own key with
  | none => exact hView ((Seen.view_of_none hOwn).trans hNone)
  | some own =>
      rw [Seen.view_of_own hOwn] at hMarker
      obtain ⟨lease, before, hUser, hCommitted, hOwns, hLocked⟩ :=
        hRow.added marker (hMarker ▸ hOwn) hNone
      exact hPage lease before hUser (hBeside.jobs_committed ▸ hCommitted) hOwns
        (hBeside.jobs _ hLocked)

theorem CallSeen.active_of_passed (h : CallSeen s waits phase) {before : ScanJob} {n : TelegramId}
    (hBefore : s.jobs.committed j = some before) (hOwn : s.jobs.own j = some (some job))
    (hPassed : Passed job.lastMessageId n) (hNot : ¬ Passed before.lastMessageId n) :
    before.state.active = true := by
  obtain ⟨job', hJob, hVersion⟩ := h.jobs j _ hOwn
  obtain rfl := Option.some.inj hJob
  obtain ⟨-, lease, page, st, st', -, -, hRecorded⟩ := hVersion.page_of_passed hBefore hPassed hNot
  exact ScanLease.active_of_owns hRecorded.owns

/-- A commit of another transaction. -/
theorem RowSeen.after (h : RowSeen s waits phase j key) (hSeen : CallSeen s waits phase)
    (hCovers : Covers s waits j key) (hOther : CommitOk other) (hRow : RowCommit other waits' j key)
    (hBeside : Beside s other)
    (hDisjoint : ∀ lease wphase next lease' wphase' next', waits lease wphase next →
      waits' lease' wphase' next' → lease.owner ≠ lease'.owner) :
    RowSeen (s.after other) waits phase j key := by
  have hKeeps := keeps_after hOther hBeside
  -- jobs of the row's user that a worker owns are this one
  have hPage {before : ScanJob} (hBefore : s.jobs.committed j = some before)
      (hActive : before.state.active = true) (hLocked : s.jobs.own j ≠ none) (lease : ScanLease)
      (before' : ScanJob) (hUser : lease.userId = key.userId)
      (hCommitted : s.jobs.committed lease.jobId = some before') (hOwns : lease.owns before' = true) :
      s.jobs.own lease.jobId ≠ none :=
    hCovers.jobId hSeen ⟨before, hBefore, hActive⟩ hUser hCommitted hOwns ▸ hLocked
  have hViewLeft (hNone : s.messages.own key = none) :
      (s.after other).messages.view key = other.messages.view key :=
    Seen.view_of_none (s := (s.after other).messages) hNone
  refine ⟨fun hMarked hActive marker hOwn hLost => ?_, fun lease page writes hPhase hId hMem hView => ?_,
    fun before job hBefore hOwn hPassed hNot hView => ?_⟩
  · have hSame : (s.after other).messages.committed key = s.messages.committed key :=
      Seen.committed_after hBeside.messages_committed hBeside.messages (hOwn ▸ nofun)
    rw [hSame] at hMarked
    have hThere := hSeen.stored.marked key j hMarked
    obtain ⟨before, -, hBefore, -, hBeforeActive, -, -⟩ :=
      hActive.of_after hOther (hBeside.jobs_committed ▸ hThere)
    rw [← hBeside.jobs_committed] at hBefore
    exact (h.cleared hMarked ⟨before, hBefore, hBeforeActive⟩ marker hOwn hLost).after hOther hBeside
      hActive
  · have hWriting : PhaseSeen s waits (.persistWriting lease page writes) := hPhase ▸ hSeen.phaseSeen
    obtain ⟨before, hBefore, hOwns, hLocked⟩ := hWriting.1.held
    rw [hId] at hBefore hLocked
    have hBeforeActive := ScanLease.active_of_owns hOwns
    cases hOwn : s.messages.own key with
    | some own =>
        have hViewSame : (s.after other).messages.view key = s.messages.view key :=
          (Seen.view_of_own (s := (s.after other).messages) hOwn).trans (Seen.view_of_own hOwn).symm
        rw [hViewSame] at hView ⊢
        exact hOwn ▸ h.covered lease page writes hPhase hId hMem hView
    | none =>
        rw [hViewLeft hOwn] at hView ⊢
        have hCommitted := committed_of_left hBeside hRow hView
          (hPage hBefore hBeforeActive (hLocked ▸ nofun))
        rcases h.covered lease page writes hPhase hId hMem
          (Seen.view_of_none hOwn ▸ hCommitted) with hMine | ⟨loaded, hRefresh, hLoaded⟩
        · rw [hOwn] at hMine
          cases hMine
        · refine Or.inr ⟨loaded, hRefresh, fun hThis => ?_⟩
          have hMarked := hLoaded hThis
          rw [Seen.view_of_none hOwn, hBeside.messages_committed] at hMarked
          cases hOwn' : other.messages.own key with
          | none => exact (Seen.view_of_none hOwn').trans hMarked
          | some own' =>
              rw [Seen.view_of_own hOwn'] at hView ⊢
              obtain ⟨marker, rfl⟩ := Option.ne_none_iff_exists'.mp hView
              -- a commit that takes the marker away ends the job, which is locked, or its worker's slice
              by_contra hLost
              have hLost' : marker ≠ some j := fun hEq => hLost (congrArg some hEq)
              have hThere : other.jobs.committed j = some before :=
                hBeside.jobs_committed ▸ hBefore
              rcases hRow.cleared hMarked ⟨before, hThere, hBeforeActive⟩ marker hOwn' hLost' with
                ⟨job, hEnded, -⟩ | ⟨lease', wphase, job, hWaits, hJob, hOwns'⟩
              · have hFree := hBeside.jobs j (hEnded ▸ nofun)
                rw [hLocked] at hFree
                cases hFree
              · obtain ⟨st, st', hAwaits⟩ := hWriting.1.awaits
                refine hDisjoint _ _ _ _ _ _ hAwaits.waits hWaits ?_
                rw [← hBeside.jobs_committed, hBefore] at hJob
                obtain rfl := Option.some.inj hJob
                have hName := (ScanLease.names_iff.mp (ScanLease.names_of_owns hOwns)).2.2.2.2
                have hName' := (ScanLease.names_iff.mp (ScanLease.names_of_owns hOwns')).2.2.2.2
                exact Option.some.inj (hName.symm.trans hName')
  · have hSame := (hKeeps.jobs j (show s.jobs.own j ≠ none from hOwn ▸ nofun)).2
    rw [hSame] at hBefore
    cases hMine : s.messages.own key with
    | some own =>
        have hViewSame : (s.after other).messages.view key = s.messages.view key :=
          (Seen.view_of_own (s := (s.after other).messages) hMine).trans (Seen.view_of_own hMine).symm
        rw [hViewSame] at hView
        exact h.passed before job hBefore hOwn hPassed hNot hView
    | none =>
        rw [hViewLeft hMine] at hView
        have hCommitted := committed_of_left hBeside hRow hView
          (hPage hBefore (hSeen.active_of_passed hBefore hOwn hPassed hNot)
            (show s.jobs.own j ≠ none from hOwn ▸ nofun))
        exact h.passed before job hBefore hOwn hPassed hNot (Seen.view_of_none hMine ▸ hCommitted)

/-- The worker that waits for this commit is done with it, and its job was stopping. -/
def Yields (s : MarkerView) (waits : Waiter) (phase : MarkerPhase) (j : JobId) : Prop :=
  phase = .committing none ∧ ∃ (lease : ScanLease) (wphase : WorkerPhase) (job : ScanJob),
    waits lease wphase none ∧ s.jobs.committed j = some job ∧ lease.owns job = true ∧
      job.state = .stopping

/-- A commit leaves the row marked when the cursor has passed it, unless the worker of the job
yields. -/
theorem RowSeen.commit (h : RowSeen s waits phase j key) (hSeen : CallSeen s waits phase)
    (hCovers : Covers s waits j key) (hCommits : phase.commits = true)
    (hMarked : ∀ before, s.jobs.committed j = some before → before.state.active = true →
      s.messages.committed key ≠ none → Passed before.lastMessageId key.telegramId →
        s.messages.committed key = some (some j))
    (hView : s.jobs.view j = some job) (hActive : job.state.active = true)
    (hThere : s.messages.view key ≠ none) (hPassed : Passed job.lastMessageId key.telegramId) :
    s.messages.view key = some (some j) ∨ Yields s waits phase j := by
  rcases hSeen.moves_of_view hView with ⟨before, hBefore, hMoves⟩ | hAdded
  · have hBeforeActive := hMoves.active hActive
    by_cases hOld : Passed before.lastMessageId key.telegramId
    · cases hCommitted : s.messages.committed key with
      | none =>
          -- the row is new, so it has the marker of the page that adds it
          obtain ⟨marker, hMarker⟩ := Option.ne_none_iff_exists'.mp hThere
          cases hOwn : s.messages.own key with
          | none => exact absurd ((Seen.view_of_none hOwn).trans hCommitted) hThere
          | some own =>
              rw [Seen.view_of_own hOwn] at hMarker
              subst hMarker
              obtain ⟨lease, page, st, st', before', hAwaits, hUser, hBefore', hOwns, -, hOwnMarker⟩ :=
                (hSeen.rows.added key marker hOwn hCommitted).page
              have hId := hCovers.jobId hSeen ⟨before, hBefore, hBeforeActive⟩ hUser hBefore' hOwns
              have hReplace := (hCovers.page lease page st st' before' hAwaits (hId ▸ hBefore') hOwns).1
              left
              rw [Seen.view_of_own hOwn, hOwnMarker hReplace, hId]
      | some marker =>
          have hMine := hMarked before hBefore hBeforeActive (hCommitted ▸ nofun) hOld
          cases hOwn : s.messages.own key with
          | none => exact Or.inl ((Seen.view_of_none hOwn).trans hMine)
          | some own =>
              rw [Seen.view_of_own hOwn] at hThere ⊢
              obtain ⟨marker', rfl⟩ := Option.ne_none_iff_exists'.mp hThere
              by_cases hLost : marker' = some j
              · exact Or.inl (congrArg some hLost)
              right
              cases h.cleared hMine ⟨before, hBefore, hBeforeActive⟩ marker' hOwn hLost with
              | ended hEnded =>
                  obtain ⟨job', hLocked, hEnd⟩ := hEnded
                  rw [Seen.view_of_own hLocked] at hView
                  cases hView
                  exact absurd (hEnd.symm.trans hActive) Bool.false_ne_true
              | yields hPhase hWaits hJob hOwns hState =>
                  rcases hPhase with hPhase | ⟨ending, cleared, hPhase⟩
                  · exact ⟨hPhase, _, _, _, hWaits, hJob, hOwns, hState⟩
                  · rw [hPhase] at hCommits
                    cases hCommits
              | terminalizes hPhase =>
                  rw [hPhase] at hCommits
                  cases hCommits
              | cancels hPhase =>
                  rw [hPhase] at hCommits
                  cases hCommits
              | starts hPhase =>
                  rw [hPhase] at hCommits
                  cases hCommits
    · cases hOwn : s.jobs.own j with
      | none =>
          rw [Seen.view_of_none hOwn, hBefore] at hView
          cases hView
          exact absurd hPassed hOld
      | some own =>
          have hJob := (Seen.view_of_own hOwn).symm.trans hView
          exact Or.inl (Seen.view_of_own
            (h.passed before job hBefore (hJob ▸ hOwn) hPassed hOld hThere))
  · rw [hAdded.lastMessageId] at hPassed
    obtain ⟨c, hNone, -⟩ := hPassed
    cases hNone

end Beside

end SavedOrganizer
