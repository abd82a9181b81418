import Mathlib.Data.Finset.Card
import SavedOrganizer.Scanner.Emission
import SavedOrganizer.System.Progress

/-!
# Counters and budgets of a job

A `PageLog` is the world together with the pages that one job has persisted, a record no step
looks at. In every run the counters and the cursor of the job say what the record says
(`Ledger`), and the record never has more messages than the job may scan.

A worker that claims a job whose time is up never opens the connection: it goes from the claim
to the end of the slice (`LatePhase`) and completes the job with `RUNTIME_LIMIT_REACHED`.
-/

namespace SavedOrganizer

open Transition SavedMessages Pagination

/-! ## The pages of a job -/

/-- The page that a step persists, with the job it belongs to. -/
def persistedPage (env : Env) (w : World) : WorldAction → Option (JobId × ScanPage)
  | .worker owner act =>
      (w.workers owner).bind fun worker =>
        (Worker.step env (w.source worker.lease.telegramUserId) w.store worker.lease worker.phase
          act).bind fun turn => turn.page.map (worker.lease.jobId, ·)
  | _ => none

/-- The page that a step persists for job `j`. -/
def pageFor (env : Env) (w : World) (a : WorldAction) (j : JobId) : Option ScanPage :=
  ((persistedPage env w a).filter (·.1 == j)).map Prod.snd

/-- The world and the pages of one job. -/
structure PageLog where
  world : World
  pages : List ScanPage

def PageLog.step (env : Env) (j : JobId) (r : PageLog) (a : WorldAction) : Option PageLog :=
  (r.world.step env a).map fun w => ⟨w, r.pages ++ (pageFor env r.world a j).toList⟩

/-- The ids of the persisted messages, page by page. -/
def PageLog.ids (r : PageLog) : List TelegramId := r.pages.flatMap ScanPage.ids

/-- What the columns of the job say about its pages. -/
structure BudgetKept (job : ScanJob) (r : PageLog) : Prop where
  distinct : r.ids.toFinset.card = job.messagesScanned
  quota : job.messagesScanned ≤ job.maxMessages
  pages : r.pages.length = job.pagesScanned

/-- The cursor of the job goes down. -/
def CursorDrops (j : JobId) (w w' : World) : Prop :=
  ∃ job job' c, w.store.db.jobs.find? j = some job ∧ w'.store.db.jobs.find? j = some job' ∧
    job'.lastMessageId = some c ∧ ∀ d, job.lastMessageId = some d → c < d

/-! ## The counters -/

/-- The counters, the quota and the cursor of the job, in terms of the ids it has persisted. -/
structure Ledger (job : ScanJob) (r : PageLog) : Prop where
  scanned : r.ids.length = job.messagesScanned
  quota : job.messagesScanned ≤ job.maxMessages
  pages : r.pages.length = job.pagesScanned
  descending : r.ids.Pairwise (· > ·)
  cursor : r.ids.getLast? = job.lastMessageId

section Counters

variable {env : Env} {w w' : World} {a : WorldAction} {j : JobId} {job : ScanJob} {r r' : PageLog}

theorem Ledger.budgetKept (h : Ledger job r) : BudgetKept job r where
  distinct := by
    rw [List.toFinset_card_of_nodup (h.descending.imp fun hgt => ne_of_gt hgt)]
    exact h.scanned
  quota := h.quota
  pages := h.pages

/-- A step that persists a page for the job records it in the job row. -/
theorem pageFor_cases (h : w.step env a = some w') :
    (pageFor env w a j = none ∧ w'.persisted j = w.persisted j) ∨
      ∃ page job, pageFor env w a j = some page ∧ w.store.db.jobs.find? j = some job ∧
        w'.store.db.jobs.find? j =
          some (job.recordPage page.messages.length page.nextOffsetId) ∧
        w'.persisted j = w.persisted j ++ page.ids := by
  cases a with
  | store sa =>
      simp only [World.step] at h
      split at h
      · obtain ⟨s', -, rfl⟩ := Option.map_eq_some_iff.mp h
        exact Or.inl ⟨rfl, rfl⟩
      · cases h
  | changeSource account messages =>
      cases h
      exact Or.inl ⟨rfl, rfl⟩
  | claim jobId =>
      cases h
      exact Or.inl ⟨rfl, rfl⟩
  | worker owner act =>
      obtain ⟨own, hOwn, h⟩ := Option.bind_eq_some_iff.mp h
      obtain ⟨turn, hTurn, rfl⟩ := Option.map_eq_some_iff.mp h
      have hPage : persistedPage env w (.worker owner act) =
          turn.page.map (own.lease.jobId, ·) := by
        simp only [persistedPage, hOwn, Option.bind_some, hTurn]
      unfold pageFor World.afterTurn
      rw [hPage]
      rcases worker_step_cases hTurn with ⟨hNone, -⟩ | ⟨st, st', page, reached, delay, -, hDelivers⟩
      · rw [hNone]
        exact Or.inl ⟨rfl, rfl⟩
      · rw [hDelivers.page]
        by_cases hJob : own.lease.jobId = j
        · obtain ⟨job, hFind, -, hFind'⟩ := delivers_row hDelivers
          subst hJob
          refine Or.inr ⟨page, job, by simp, hFind, hFind', ?_⟩
          dsimp only
          rw [Function.update_self]
        · refine Or.inl ⟨by simp [hJob], ?_⟩
          dsimp only
          rw [Function.update_of_ne (Ne.symm hJob)]

/-- A step that leaves the job alone keeps its counters, when the job is there. -/
theorem Stays.counts (h : Stays env w w' j) (hJob : w.store.db.jobs.find? j = some job) :
    ∃ job', w'.store.db.jobs.find? j = some job' ∧ SameCounts job job' ∧
      job'.maxMessages = job.maxMessages := by
  rcases h.2 with hSame | ⟨sa, hStep, hOther⟩
  · exact ⟨job, by rw [hSame]; exact hJob, ⟨rfl, rfl, rfl⟩, rfl⟩
  · obtain ⟨job', hJob', hChange⟩ := step_job hStep hJob
    refine ⟨job', hJob', ?_, hChange.sameJob.maxMessages⟩
    rcases row_step hStep hOther hJob' with ⟨found, hFound, -, hCounts⟩ | ⟨hNone, -⟩
    · rw [hJob] at hFound
      obtain rfl := Option.some.inj hFound
      exact hCounts
    · rw [hJob] at hNone
      cases hNone

/-- A step persists the page next below the cursor of the job, or none for this job. -/
theorem pageFor_progress {E : SavedMessages → Prop} {K : Prop} (h : w.step env a = some w')
    (hSync : JobSync E K w j) :
    (pageFor env w a j = none ∧ Stays env w w' j) ∨
      ∃ job page source, pageFor env w a j = some page ∧ w.store.db.jobs.find? j = some job ∧
        job.state.active = true ∧ PageOf source job.lastMessageId page ∧
        w'.store.db.jobs.find? j =
          some (job.recordPage page.messages.length page.nextOffsetId) := by
  rcases pageFor_cases h with ⟨hNone, hSame⟩ | ⟨page, job, hPage, hJob, hJob', hPersisted⟩
  · refine Or.inl ⟨hNone, ?_⟩
    rcases world_progress h hSync with hStays | ⟨job, page, hPersists⟩
    · exact hStays
    · obtain ⟨source, -, hPageOf⟩ := hPersists.pageOf
      rw [hPersists.persisted, List.append_right_eq_self] at hSame
      exact absurd hSame hPageOf.nonempty
  · rcases world_progress h hSync with hStays | ⟨row, page', hPersists⟩
    · obtain ⟨job', hFound, hCounts, -⟩ := hStays.counts hJob
      rw [hJob'] at hFound
      obtain rfl := Option.some.inj hFound
      exact absurd hCounts.pagesScanned (Nat.succ_ne_self _)
    · obtain ⟨source, -, hPageOf⟩ := hPersists.pageOf
      have hFound := hPersists.found
      rw [hJob] at hFound
      obtain rfl := Option.some.inj hFound
      have hIds : page.ids = page'.ids :=
        List.append_cancel_left (hPersisted.symm.trans hPersists.persisted)
      have hNext : page.nextOffsetId = page'.nextOffsetId := by
        have hRow := hJob'.symm.trans hPersists.found'
        exact congrArg ScanJob.lastMessageId (Option.some.inj hRow)
      refine Or.inr ⟨job, page, source, hPage, hJob, hPersists.active, ?_, hJob'⟩
      exact ⟨hIds ▸ hPageOf.nonempty, hIds ▸ hPageOf.ids_prefix,
        hNext.trans (hPageOf.next_eq.trans (congrArg List.getLast? hIds.symm))⟩

/-- The last of descending ids is the least. -/
theorem le_of_getLast? {ids : List TelegramId} {c : TelegramId} (h : ids.Pairwise (· > ·))
    (hLast : ids.getLast? = some c) : ∀ n ∈ ids, c ≤ n := by
  obtain ⟨front, rfl⟩ := List.getLast?_eq_some_iff.mp hLast
  intro n hn
  rcases List.mem_append.mp hn with hn | hn
  · exact le_of_lt ((List.pairwise_append.mp h).2.2 n hn c List.mem_cons_self)
  · exact le_of_eq (List.mem_singleton.mp hn).symm

/-- The ids of a page lie below the cursor and go down to the cursor of the page. -/
theorem ledger_page {source : SavedMessages} {page : ScanPage} (h : Ledger job r)
    (hPage : PageOf source job.lastMessageId page)
    (hQuota : job.messagesScanned + page.messages.length ≤ job.maxMessages) :
    Ledger (job.recordPage page.messages.length page.nextOffsetId)
      ⟨w', r.pages ++ [page]⟩ := by
  have hIds : PageLog.ids ⟨w', r.pages ++ [page]⟩ = r.ids ++ page.ids := by
    simp [PageLog.ids]
  refine ⟨?_, hQuota, ?_, ?_, ?_⟩
  · rw [hIds, List.length_append, h.scanned, page.ids_length]
    rfl
  · rw [List.length_append, h.pages]
    rfl
  · rw [hIds, List.pairwise_append]
    refine ⟨h.descending, source.ids_descending.sublist
      (hPage.ids_prefix.sublist.trans (after_sublist _ _)), ?_⟩
    intro n hn m hm
    obtain ⟨-, hBelow⟩ := hPage.mem_ids hm
    cases hLast : r.ids.getLast? with
    | none => exact absurd (List.getLast?_eq_none_iff.mp hLast) (List.ne_nil_of_mem hn)
    | some c =>
        have hAbove := le_of_getLast? h.descending hLast n hn
        have hNot : ¬ c ≤ m := fun hle => hBelow ⟨c, h.cursor.symm.trans hLast, hle⟩
        exact lt_of_lt_of_le (lt_of_not_ge hNot) hAbove
  · rw [hIds, List.getLast?_append_of_ne_nil _ hPage.nonempty]
    exact hPage.next_eq.symm

/-- What holds of a job and the record of its pages in every run. -/
structure PageLogInv (j : JobId) (r : PageLog) : Prop where
  inv : WorldInv r.world
  sync : JobSync (fun _ => True) False r.world j
  absent : r.world.store.db.jobs.find? j = none → r.pages = []
  ledger : ∀ job, r.world.store.db.jobs.find? j = some job → Ledger job r

theorem pageLogInv_step (h : PageLog.step env j r a = some r') (hInv : PageLogInv j r) :
    PageLogInv j r' := by
  obtain ⟨w', hStep, rfl⟩ := Option.map_eq_some_iff.mp h
  have hSync : JobSync (fun _ => True) False w' j :=
    jobSync_step hStep hInv.inv hInv.sync (fun _ _ _ _ => trivial) (fun hFalse => hFalse.elim)
  refine ⟨worldInv_step hStep hInv.inv, hSync, ?_, ?_⟩
  · intro hNone
    cases hJob : r.world.store.db.jobs.find? j with
    | none =>
        rcases pageFor_cases hStep with ⟨hPage, -⟩ | ⟨page, job, -, hFound, -⟩
        · dsimp only
          rw [hPage, hInv.absent hJob]
          rfl
        · rw [hJob] at hFound
          cases hFound
    | some job =>
        obtain ⟨job', hJob', -⟩ := world_job hStep hJob
        exact absurd (hNone.symm.trans hJob') (by simp)
  · intro job' hJob'
    rcases pageFor_progress hStep hInv.sync with ⟨hNone, hStays⟩ |
      ⟨job, page, source, hPage, hJob, hActive, hPageOf, hRow⟩
    · rw [hNone, Option.toList_none, List.append_nil]
      cases hJob : r.world.store.db.jobs.find? j with
      | none =>
          -- a job that has just been created has nothing yet
          have hNew : job'.messagesScanned = 0 ∧ job'.lastMessageId = none ∧
              job'.pagesScanned = 0 := by
            rcases hStays.2 with hSame | ⟨sa, hStoreStep, hOther⟩
            · rw [hSame, hJob] at hJob'
              cases hJob'
            · rcases row_step hStoreStep hOther hJob' with ⟨job, hFound, -⟩ | ⟨-, -, hZero⟩
              · rw [hJob] at hFound
                cases hFound
              · exact hZero
          have hIds : PageLog.ids ⟨w', r.pages⟩ = [] := by
            simp [PageLog.ids, hInv.absent hJob]
          refine ⟨?_, ?_, ?_, ?_, ?_⟩
          · rw [hIds, hNew.1]
            rfl
          · rw [hNew.1]
            exact Nat.zero_le _
          · rw [hNew.2.2, hInv.absent hJob]
            rfl
          · rw [hIds]
            exact List.Pairwise.nil
          · rw [hIds, hNew.2.1]
            rfl
      | some job =>
          obtain ⟨found, hFound, hCounts, hMax⟩ := hStays.counts hJob
          rw [hJob'] at hFound
          obtain rfl := Option.some.inj hFound
          have hLedger := hInv.ledger job hJob
          exact ⟨hLedger.scanned.trans hCounts.messagesScanned.symm,
            by rw [hCounts.messagesScanned, hMax]; exact hLedger.quota,
            hLedger.pages.trans hCounts.pagesScanned.symm, hLedger.descending,
            hLedger.cursor.trans hCounts.lastMessageId.symm⟩
    · rw [hRow] at hJob'
      obtain rfl := Option.some.inj hJob'
      rw [hPage, Option.toList_some]
      exact ledger_page (hInv.ledger job hJob) hPageOf (hSync.counted _ hRow hActive).quota

theorem pageLogInv_run {w₀ : World} {as : List WorldAction} (hStart : w₀.Initial)
    (hNew : w₀.store.db.jobs.find? j = none)
    (hRun : run (PageLog.step env j) ⟨w₀, []⟩ as = some r) : PageLogInv j r := by
  refine invariant (fun _ _ _ => pageLogInv_step) ⟨hStart.inv, ?_, fun _ => rfl, ?_⟩ hRun
  · exact jobSync_of_ended fun job hJob =>
      (hStart.store.jobsEnded job (Table.mem_of_find? hJob)).1
  · intro job hJob
    exact absurd (hNew.symm.trans hJob) (by simp)

/-- A page moves the cursor down. -/
theorem cursorDrops {page : ScanPage} (h : w.step env a = some w')
    (hSync : JobSync (fun _ => True) False w j) (hPage : pageFor env w a j = some page) : CursorDrops j w w' := by
  rcases pageFor_progress h hSync with ⟨hNone, -⟩ |
    ⟨job, found, source, hFound, hJob, -, hPageOf, hRow⟩
  · rw [hPage] at hNone
    cases hNone
  · obtain ⟨c, hNext, hLast⟩ := hPageOf.last
    refine ⟨job, _, c, hJob, hRow, hNext, fun d hd => ?_⟩
    have hBelow := (hPageOf.mem_ids (List.mem_of_getLast? hLast)).2
    exact lt_of_not_ge fun hle => hBelow ⟨d, hd, hle⟩

end Counters

/-! ## A slice that comes too late -/

/-- The claim gets a lease, and the time of the job is up. -/
def LateClaim (w : World) (jobId : JobId) (lease : ScanLease) : Prop :=
  (claimScanJob w.store.now w.store.nextOwner jobId w.store.db).2 = some lease ∧
    lease.startedAt + seconds lease.maxRuntimeSeconds ≤ w.store.now

/-- The end of a slice without time. -/
def outOfTime : WorkerPhase := .ending ⟨false, .runtimeLimitReached⟩

/-- The worker is not cut off, and its lease is valid when it settles the slice. -/
def KeepsLease (w : World) (lease : ScanLease) : WorkerAct → Prop
  | .raise | .interrupt | .crash => False
  | .settle => (w.store.db.heldJob lease w.store.now).isSome = true
  | _ => True

/-- The job has been completed for its time. -/
def TimedOut (w : World) (j : JobId) : Prop :=
  ∃ job, w.store.db.jobs.find? j = some job ∧ job.state = .completed ∧
    job.completionReason = some .runtimeLimitReached

/-- The worker is on its way to complete the job, and can go on. -/
inductive ReachesLimit (env : Env) (w : World) (owner : LeaseOwner) (lease : ScanLease) : Prop
  | claimed (hWorker : w.workers owner = some ⟨lease, .claimed⟩)
      (hNext : ∃ w', w.step env (.worker owner .openConnection) = some w' ∧
        w'.workers owner = some ⟨lease, outOfTime⟩)
  | ending (hWorker : w.workers owner = some ⟨lease, outOfTime⟩)
      (hNext : ∃ w', w.step env (.worker owner .settle) = some w' ∧ w'.workers owner = none)
  | done (hWorker : w.workers owner = none) (hJob : TimedOut w lease.jobId)

/-- In every run from the claim on the worker persists no page, and as long as it keeps its
lease it completes the job. -/
structure LateSlice (env : Env) (w : World) (owner : LeaseOwner) (lease : ScanLease) : Prop where
  noPage : ∀ as u act, run (World.step env) w as = some u →
    persistedPage env u (.worker owner act) = none
  ends : ∀ as u, run (World.step env) w as = some u →
    (∀ x act y, StepOf (World.step env) w as x (.worker owner act) y → KeepsLease x lease act) →
    ReachesLimit env u owner lease

section Late

variable {env : Env} {src : SavedMessages} {s s' : Store} {w w' u : World} {a : WorldAction}
  {owner : LeaseOwner} {lease : ScanLease} {phase : WorkerPhase} {act : WorkerAct} {turn : Turn}

theorem world_now_le (h : w.step env a = some w') : w.store.now ≤ w'.store.now := by
  rcases world_store h with hSame | ⟨sa, hStep⟩
  · rw [hSame]
  · exact Store.now_le hStep

/-- A job that has been completed stays so. -/
theorem timedOut_step {j : JobId} (h : w.step env a = some w') (hDone : TimedOut w j) :
    TimedOut w' j := by
  obtain ⟨job, hJob, hState, hReason⟩ := hDone
  rcases world_store h with hSame | ⟨sa, hStep⟩
  · exact ⟨job, by rw [hSame]; exact hJob, hState, hReason⟩
  · obtain ⟨job', hJob', hChange⟩ := step_job hStep hJob
    obtain rfl := hChange.eq_of_ended (by rw [hState]; rfl)
    exact ⟨_, hJob', hState, hReason⟩

/-- A worker is left alone by the steps that are not its own. -/
theorem workers_other (h : w.step env a = some w') (hOwn : ∀ act, a ≠ .worker owner act)
    (hOwner : owner ≠ w.store.nextOwner) : w'.workers owner = w.workers owner := by
  cases a with
  | store sa =>
      simp only [World.step] at h
      split at h
      · obtain ⟨s', -, rfl⟩ := Option.map_eq_some_iff.mp h
        rfl
      · cases h
  | changeSource account messages =>
      cases h
      rfl
  | claim jobId =>
      cases h
      simp only [World.afterClaim]
      cases (claimScanJob w.store.now w.store.nextOwner jobId w.store.db).2 with
      | none => rfl
      | some lease => exact Function.update_of_ne hOwner _ _
  | worker owner' act =>
      obtain ⟨own, -, h⟩ := Option.bind_eq_some_iff.mp h
      obtain ⟨turn, -, rfl⟩ := Option.map_eq_some_iff.mp h
      refine Function.update_of_ne (fun hSame => hOwn act ?_) _ _
      rw [hSame]

/-! ### The phases -/

/-- Where a worker without time can be. -/
def LatePhase (phase : WorkerPhase) : Prop :=
  phase = .claimed ∨ phase = outOfTime ∨ phase = .failing

/-- Without time the worker goes from the claim straight to the end. -/
theorem late_claimed (hLate : lease.runtimeLeft s.now = false)
    (h : Worker.step env src s lease .claimed act = some turn) :
    turn.next = none ∧ (act = .interrupt ∨ act = .crash) ∨
      turn.next = some .failing ∧ act = .raise ∨ turn.next = some .claimed ∨
      turn.next = some outOfTime := by
  cases act with
  | renew => exact Or.inr (Or.inr (Or.inl (perform_eq_some h).2.1))
  | openConnection =>
      simp only [Worker.step, hLate, Bool.not_false, if_true] at h
      cases h
      exact Or.inr (Or.inr (Or.inr rfl))
  | raise =>
      cases h
      exact Or.inr (Or.inl ⟨rfl, rfl⟩)
  | timeout =>
      simp only [Worker.step, WorkerPhase.inSlice, if_true, hLate] at h
      cases h
      exact Or.inr (Or.inr (Or.inr rfl))
  | interrupt => exact Or.inl ⟨(perform_eq_some h).2.1, Or.inl rfl⟩
  | crash =>
      cases h
      exact Or.inl ⟨rfl, Or.inr rfl⟩
  | _ => cases h

/-- The end of the slice is settled, unless the worker is cut off. -/
theorem late_ending (h : Worker.step env src s lease outOfTime act = some turn) :
    turn.next = none ∧ (act = .interrupt ∨ act = .crash) ∨
      turn.next = some .failing ∧ act = .raise ∨ turn.next = some outOfTime ∨
      turn.next = none ∧ act = .settle ∧ s.step env (.worker lease
        (.finalize ⟨.completed, rfl⟩ none (some .runtimeLimitReached))) = some turn.store := by
  cases act with
  | renew => exact Or.inr (Or.inr (Or.inl (perform_eq_some h).2.1))
  | settle =>
      obtain ⟨hStore, hNext, -⟩ := perform_eq_some h
      exact Or.inr (Or.inr (Or.inr ⟨hNext, rfl, hStore⟩))
  | raise =>
      cases h
      exact Or.inr (Or.inl ⟨rfl, rfl⟩)
  | interrupt => exact Or.inl ⟨(perform_eq_some h).2.1, Or.inl rfl⟩
  | crash =>
      cases h
      exact Or.inl ⟨rfl, Or.inr rfl⟩
  | _ => cases h

theorem late_failing (h : Worker.step env src s lease .failing act = some turn) :
    turn.next = none ∨ turn.next = some .failing := by
  cases act with
  | renew => exact Or.inr (perform_eq_some h).2.1
  | fail => exact Or.inl (perform_eq_some h).2.1
  | crash =>
      cases h
      exact Or.inl rfl
  | _ => cases h

theorem late_turn (hLate : lease.runtimeLeft s.now = false) (hPhase : LatePhase phase)
    (h : Worker.step env src s lease phase act = some turn) :
    turn.page = none ∧ ∀ next, turn.next = some next → LatePhase next := by
  constructor
  · rcases worker_step_cases h with ⟨hPage, -⟩ | ⟨st, st', page, reached, delay, hScanning, -⟩
    · exact hPage
    · rcases hPhase with rfl | rfl | rfl <;> cases hScanning
  · intro next hNext
    rcases hPhase with rfl | rfl | rfl
    · rcases late_claimed hLate h with ⟨hNone, -⟩ | ⟨hSome, -⟩ | hSome | hSome
      · rw [hNext] at hNone
        cases hNone
      · exact Or.inr (Or.inr (Option.some.inj (hNext.symm.trans hSome)))
      · exact Or.inl (Option.some.inj (hNext.symm.trans hSome))
      · exact Or.inr (Or.inl (Option.some.inj (hNext.symm.trans hSome)))
    · rcases late_ending h with ⟨hNone, -⟩ | ⟨hSome, -⟩ | hSome | ⟨hNone, -⟩
      · rw [hNext] at hNone
        cases hNone
      · exact Or.inr (Or.inr (Option.some.inj (hNext.symm.trans hSome)))
      · exact Or.inr (Or.inl (Option.some.inj (hNext.symm.trans hSome)))
      · rw [hNext] at hNone
        cases hNone
    · rcases late_failing h with hNone | hSome
      · rw [hNext] at hNone
        cases hNone
      · exact Or.inr (Or.inr (Option.some.inj (hNext.symm.trans hSome)))

/-! ### Runs -/

/-- What holds of a worker without time from its claim on. -/
structure LateInv (w : World) (owner : LeaseOwner) (lease : ScanLease) : Prop where
  inv : WorldInv w
  issued : lease ∈ w.store.leases
  token : lease.owner = owner
  late : lease.runtimeLeft w.store.now = false
  phase : ∀ worker, w.workers owner = some worker → worker.lease = lease ∧ LatePhase worker.phase

theorem LateInv.owner_ne (h : LateInv w owner lease) : owner ≠ w.store.nextOwner := by
  rw [← h.token]
  exact Nat.ne_of_lt (h.inv.store.fresh lease h.issued)

theorem lateInv_step (h : w.step env a = some w') (hInv : LateInv w owner lease) :
    LateInv w' owner lease := by
  refine ⟨worldInv_step h hInv.inv, ?_, hInv.token, ?_, ?_⟩
  · rcases world_store h with hSame | ⟨sa, hStep⟩
    · rw [hSame]
      exact hInv.issued
    · exact (step_leases_suffix hStep).subset hInv.issued
  · have hLate := hInv.late
    simp only [ScanLease.runtimeLeft, decide_eq_false_iff_not, Nat.not_lt] at hLate ⊢
    exact Nat.le_trans hLate (world_now_le h)
  · intro worker hWorker
    by_cases hOwn : ∃ act, a = .worker owner act
    · obtain ⟨act, rfl⟩ := hOwn
      obtain ⟨own, hOwn, h⟩ := Option.bind_eq_some_iff.mp h
      obtain ⟨turn, hTurn, rfl⟩ := Option.map_eq_some_iff.mp h
      obtain ⟨hLease, hPhase⟩ := hInv.phase own hOwn
      rcases afterTurn_workers hWorker with ⟨hNe, -⟩ | ⟨-, hSame, hNext⟩
      · exact absurd rfl hNe
      · refine ⟨hSame.trans hLease, ?_⟩
        rw [hLease] at hTurn
        exact (late_turn hInv.late hPhase hTurn).2 worker.phase hNext
    · rw [workers_other h (fun act hAct => hOwn ⟨act, hAct⟩) hInv.owner_ne] at hWorker
      exact hInv.phase worker hWorker

theorem lateInv_claim (env : Env) {jobId : JobId} (hInv : WorldInv w) (hClaim : LateClaim w jobId lease) :
    LateInv (w.afterClaim jobId) w.store.nextOwner lease := by
  obtain ⟨hIssued, hLate⟩ := hClaim
  obtain ⟨job, -, -, -, hRead⟩ := claimScanJob_lease.mp hIssued
  refine ⟨@worldInv_step env w (w.afterClaim jobId) (.claim jobId) rfl hInv, ?_,
    (readLease_eq_some hRead).2.2.1, ?_, ?_⟩
  · show lease ∈ (w.store.claim jobId).leases
    unfold Store.claim
    dsimp only
    rw [hIssued]
    exact List.mem_cons_self
  · simp only [ScanLease.runtimeLeft, decide_eq_false_iff_not, Nat.not_lt]
    exact hLate
  · intro worker hWorker
    rcases afterClaim_workers hWorker with hBefore | ⟨-, hPhase, hSame⟩
    · -- the token is new, so nobody had it
      obtain ⟨hToken, hMem⟩ := hInv.worker _ worker hBefore
      exact absurd (hInv.store.fresh worker.lease hMem) (by rw [hToken]; exact Nat.lt_irrefl _)
    · exact ⟨Option.some.inj (hSame.symm.trans hIssued), Or.inl hPhase⟩

/-- The worker has completed the job or is about to. -/
def EndsJob (w : World) (owner : LeaseOwner) (lease : ScanLease) : Prop :=
  (∃ phase, w.workers owner = some ⟨lease, phase⟩ ∧ (phase = .claimed ∨ phase = outOfTime)) ∨
    w.workers owner = none ∧ TimedOut w lease.jobId

/-- Finalizing the held job completes it. -/
theorem timedOut_of_finalize (hHeld : (s.db.heldJob lease s.now).isSome = true)
    (h : s.step env (.worker lease
      (.finalize ⟨.completed, rfl⟩ none (some .runtimeLimitReached))) = some s')
    (hStore : w'.store = s') : TimedOut w' lease.jobId := by
  obtain ⟨job, hJob⟩ := Option.isSome_iff_exists.mp hHeld
  obtain ⟨hFind, hHolds⟩ := heldJob_eq_some.mp hJob
  refine ⟨job.finalize s.now .completed none (some .runtimeLimitReached), ?_, rfl, rfl⟩
  rw [hStore, (Store.step_worker.mp h).2]
  show (finalizeScanJob s.now lease ⟨.completed, rfl⟩ none (some .runtimeLimitReached)
    s.db).1.jobs.find? lease.jobId = _
  rw [finalizeScanJob_jobs (by rw [hJob]; exact Option.some_ne_none _), Table.find?_update, hFind,
    Option.map_some, if_pos hHolds]

theorem endsJob_step (h : w.step env a = some w') (hInv : LateInv w owner lease)
    (hEnds : EndsJob w owner lease)
    (hKeeps : ∀ act, a = .worker owner act → KeepsLease w lease act) :
    EndsJob w' owner lease := by
  by_cases hOwn : ∃ act, a = .worker owner act
  · obtain ⟨act, rfl⟩ := hOwn
    have hKeep := hKeeps act rfl
    obtain ⟨own, hOwn, h⟩ := Option.bind_eq_some_iff.mp h
    obtain ⟨turn, hTurn, rfl⟩ := Option.map_eq_some_iff.mp h
    have hWorkers : (w.afterTurn own owner turn).workers owner =
        turn.next.map (⟨own.lease, ·⟩) := Function.update_self _ _ _
    rcases hEnds with ⟨phase, hPhase, hWhere⟩ | ⟨hNone, -⟩
    · rw [hOwn] at hPhase
      obtain rfl := Option.some.inj hPhase
      rcases hWhere with rfl | rfl
      · rcases late_claimed hInv.late hTurn with ⟨-, rfl | rfl⟩ | ⟨-, rfl⟩ | hNext | hNext
        · exact hKeep.elim
        · exact hKeep.elim
        · exact hKeep.elim
        · exact Or.inl ⟨_, by rw [hWorkers, hNext]; rfl, Or.inl rfl⟩
        · exact Or.inl ⟨_, by rw [hWorkers, hNext]; rfl, Or.inr rfl⟩
      · rcases late_ending hTurn with ⟨-, rfl | rfl⟩ | ⟨-, rfl⟩ | hNext | ⟨hNext, rfl, hStep⟩
        · exact hKeep.elim
        · exact hKeep.elim
        · exact hKeep.elim
        · exact Or.inl ⟨_, by rw [hWorkers, hNext]; rfl, Or.inr rfl⟩
        · exact Or.inr ⟨by rw [hWorkers, hNext]; rfl, timedOut_of_finalize hKeep hStep rfl⟩
    · rw [hOwn] at hNone
      cases hNone
  · have hSame := workers_other h (fun act hAct => hOwn ⟨act, hAct⟩) hInv.owner_ne
    rcases hEnds with ⟨phase, hPhase, hWhere⟩ | ⟨hNone, hDone⟩
    · exact Or.inl ⟨phase, hSame.trans hPhase, hWhere⟩
    · exact Or.inr ⟨hSame.trans hNone, timedOut_step h hDone⟩

theorem own_step (hWorker : w.workers owner = some ⟨lease, phase⟩)
    (h : Worker.step env (w.source lease.telegramUserId) w.store lease phase act = some turn) :
    ∃ w', w.step env (.worker owner act) = some w' ∧
      w'.workers owner = turn.next.map (⟨lease, ·⟩) := by
  refine ⟨w.afterTurn ⟨lease, phase⟩ owner turn, ?_, Function.update_self _ _ _⟩
  simp only [World.step, hWorker, Option.bind_some, h, Option.map_some]

/-- The next step of the worker is enabled. -/
theorem reachesLimit_of_endsJob (hInv : LateInv w owner lease) (hEnds : EndsJob w owner lease) :
    ReachesLimit env w owner lease := by
  rcases hEnds with ⟨phase, hPhase, rfl | rfl⟩ | ⟨hNone, hDone⟩
  · have hTurn : Worker.step env (w.source lease.telegramUserId) w.store lease .claimed
        .openConnection = some ⟨w.store, some outOfTime, none⟩ := by
      simp only [Worker.step, hInv.late, Bool.not_false, if_true]
      rfl
    exact .claimed hPhase (own_step hPhase hTurn)
  · obtain ⟨s', hStep⟩ : ∃ s', w.store.step env (.worker lease
        (.finalize ⟨.completed, rfl⟩ none (some .runtimeLimitReached))) = some s' :=
      ⟨_, Store.step_worker.mpr ⟨hInv.issued, rfl⟩⟩
    have hTurn : Worker.step env (w.source lease.telegramUserId) w.store lease outOfTime .settle =
        some ⟨s', none, none⟩ := by
      show perform env w.store lease _ none = _
      rw [perform, hStep]
      rfl
    exact .ending hPhase (own_step hPhase hTurn)
  · exact .done hNone hDone

/-- A claim whose time is up leads to a slice that persists nothing and completes the job. -/
theorem lateSlice_of_claim {jobId : JobId} (hInv : WorldInv w) (hClaim : LateClaim w jobId lease) :
    LateSlice env (w.afterClaim jobId) w.store.nextOwner lease := by
  have hStart := lateInv_claim env hInv hClaim
  have hLate : ∀ as u, run (World.step env) (w.afterClaim jobId) as = some u →
      LateInv u w.store.nextOwner lease :=
    fun as u hRun => invariant (fun _ _ _ h => lateInv_step h) hStart hRun
  constructor
  · intro as u act hRun
    have hInv := hLate as u hRun
    unfold persistedPage
    dsimp only
    cases hWorker : u.workers w.store.nextOwner with
    | none => rfl
    | some worker =>
        obtain ⟨hLease, hPhase⟩ := hInv.phase worker hWorker
        rw [Option.bind_some]
        cases hTurn : Worker.step env (u.source worker.lease.telegramUserId) u.store worker.lease
            worker.phase act with
        | none => rfl
        | some turn =>
            rw [Option.bind_some, (late_turn (hLease ▸ hInv.late) hPhase hTurn).1]
            rfl
  · intro as u hRun hKeeps
    refine reachesLimit_of_endsJob (hLate as u hRun) ?_
    have hBoth : LateInv u w.store.nextOwner lease ∧ EndsJob u w.store.nextOwner lease := by
      refine run_induct (I := fun u => LateInv u w.store.nextOwner lease ∧
        EndsJob u w.store.nextOwner lease) ⟨hStart, Or.inl ⟨.claimed, ?_, Or.inl rfl⟩⟩ hRun ?_
      · simp only [World.afterClaim, hClaim.1, Function.update_self]
      · rintro x a y hStep ⟨hInv, hEnds⟩
        refine ⟨lateInv_step hStep.step hInv, endsJob_step hStep.step hInv hEnds ?_⟩
        rintro act rfl
        exact hKeeps x act y hStep
    exact hBoth.2

end Late

/-! ## Every run -/

/-- From the creation of a job on its counters, its quota and its cursor are kept in every run,
and a slice that is claimed when the time of its job is up persists nothing and completes it. -/
theorem job_budgets (env : Env) (j : JobId) (w₀ : World) (actions : List WorldAction)
    (r : PageLog) (hStart : w₀.Initial) (hNew : w₀.store.db.jobs.find? j = none)
    (hRun : run (PageLog.step env j) ⟨w₀, []⟩ actions = some r) :
    (∀ job, r.world.store.db.jobs.find? j = some job → BudgetKept job r) ∧
    (∀ a w' page, r.world.step env a = some w' → pageFor env r.world a j = some page →
      CursorDrops j r.world w') ∧
    (∀ jobId lease, LateClaim r.world jobId lease →
      LateSlice env (r.world.afterClaim jobId) r.world.store.nextOwner lease) := by
  have hInv := pageLogInv_run hStart hNew hRun
  refine ⟨fun job hJob => (hInv.ledger job hJob).budgetKept, ?_, ?_⟩
  · intro a w' page hStep hPage
    exact cursorDrops hStep hInv.sync hPage
  · intro jobId lease hClaim
    exact lateSlice_of_claim hInv.inv hClaim

/-! ### A job that is taken up again when its hour is over

The worker persists one page and crashes; the next claim comes more than an hour later. -/

def overdue : List WorldAction :=
  startReplacement :: .claim 1 :: beginSlice 0 ++ readyPage 0 fourNotes 0 3 ++
    [.worker 0 (.deliver 0 0), .worker 0 .crash, .store (.tick (seconds 4000))]

def overdueLog : PageLog :=
  (run (PageLog.step demoEnv 1) ⟨demoWorld fourNotes, []⟩ overdue).getD ⟨demoWorld fourNotes, []⟩

/-- The lease of the next claim. -/
def overdueLease : ScanLease :=
  { jobId := 1, userId := 1, pageSize := 2, telegramUserId := 200, connectionGeneration := 3,
    messagesScanned := 2, lastMessageId := some 7, maxMessages := 4, maxRuntimeSeconds := 3600,
    startedAt := 0, owner := 1, replaceExisting := true }

theorem job_budgets_overdue :
    (∀ job, overdueLog.world.store.db.jobs.find? 1 = some job → BudgetKept job overdueLog) ∧
      LateSlice demoEnv (overdueLog.world.afterClaim 1) overdueLog.world.store.nextOwner
        overdueLease := by
  have hRun : run (PageLog.step demoEnv 1) ⟨demoWorld fourNotes, []⟩ overdue = some overdueLog :=
    run_getD (by decide +kernel)
  obtain ⟨hKept, -, hLate⟩ :=
    job_budgets demoEnv 1 (demoWorld fourNotes) overdue overdueLog (demoWorld_initial fourNotes)
      rfl hRun
  exact ⟨hKept, hLate 1 overdueLease ⟨by decide +kernel, by decide +kernel⟩⟩

example : overdueLog.pages.map ScanPage.ids = [[9, 7]] := by decide +kernel

end SavedOrganizer
