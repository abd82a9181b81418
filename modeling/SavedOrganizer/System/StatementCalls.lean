import SavedOrganizer.System.StatementViews

/-!
# A statement keeps what its transaction relies on

What a statement does to jobs is one of a few things (`JobEffect`); from that come the versions
of the jobs, and what the rows of messages rest on stays (`Keeps`).
-/

namespace SavedOrganizer

open MarkerView

section Statements

variable {now : Instant} {s s' : MarkerView} {waits : Waiter} {phase phase' : MarkerPhase}
  {id : JobId} {job : ScanJob} {p : ScanJob → Bool} {f : ScanJob → ScanJob}

theorem Executes.uncommitted (h : Executes now s phase s' phase') : phase.commits = false := by
  cases h <;> rfl

theorem Executes.committed (h : Executes now s phase s' phase') :
    s'.jobs.committed = s.jobs.committed ∧ s'.messages.committed = s.messages.committed := by
  cases h with
  | rejects hConnects | validates hConnects _ | locksConnection hConnects _ | downgrades hConnects
      | disconnects hConnects =>
      rw [hConnects.jobs, hConnects.messages]
      exact ⟨rfl, rfl⟩
  | _ => exact ⟨rfl, rfl⟩

theorem Stored.congr (h : Stored s) (hJobs : s'.jobs.committed = s.jobs.committed)
    (hMessages : s'.messages.committed = s.messages.committed) : Stored s' := by
  constructor
  · rw [hJobs]
    exact h.jobId
  · rw [hJobs]
    exact h.stopFlag
  · rw [hJobs]
    exact h.oneActive
  · rw [hJobs, hMessages]
    exact h.marked
  · rw [hMessages]
    exact h.unique

/-! ## Jobs -/

theorem FollowsCommitted.of_committed (h : s.jobs.committed id = some job) :
    FollowsCommitted s id job := ⟨job, h, .refl job, fun _ hOwns => hOwns⟩

theorem FollowsCommitted.goes {job' : ScanJob} (h : FollowsCommitted s id job)
    (hGoes : JobGoes job job' ∧ KeepsOwner job job') : FollowsCommitted s id job' := by
  obtain ⟨before, hBefore, hSoFar, hOwner⟩ := h
  exact ⟨before, hBefore, hSoFar.trans hGoes.1, fun lease hOwns => hOwner lease (hGoes.2 lease hOwns)⟩

theorem FollowsCommitted.congr (h : FollowsCommitted s id job)
    (hCommitted : s'.jobs.committed id = s.jobs.committed id) : FollowsCommitted s' id job := by
  obtain ⟨before, hBefore, hRest⟩ := h
  exact ⟨before, hCommitted.trans hBefore, hRest⟩

namespace CallSeen

/-- Before the last statement of a transaction its jobs go on from the committed rows. -/
theorem follows_of_own (h : CallSeen s waits phase) (hOpen : phase.commits = false)
    (hOwn : s.jobs.own id = some (some job)) : FollowsCommitted s id job := by
  obtain ⟨job', hJob, hVersion⟩ := h.jobs id _ hOwn
  obtain rfl := Option.some.inj hJob
  cases hVersion with
  | follows hFollows => exact hFollows
  | claimed hPhase =>
      rw [hPhase] at hOpen
      cases hOpen
  | recorded hPhase =>
      rw [hPhase] at hOpen
      cases hOpen
  | added hPhase =>
      rw [hPhase] at hOpen
      cases hOpen

theorem follows_of_view (h : CallSeen s waits phase) (hOpen : phase.commits = false)
    (hView : s.jobs.view id = some job) : FollowsCommitted s id job := by
  cases hOwn : s.jobs.own id with
  | none => exact .of_committed (Seen.view_of_none hOwn ▸ hView)
  | some own => exact h.follows_of_own hOpen (hOwn.trans (congrArg some
      ((Seen.view_of_own hOwn).symm.trans hView)))

theorem id_of_view (h : CallSeen s waits phase) (hOpen : phase.commits = false)
    (hView : s.jobs.view id = some job) : job.id = id := by
  obtain ⟨before, hBefore, hGoes, -⟩ := h.follows_of_view hOpen hView
  exact hGoes.same.id.trans (h.stored.jobId id before hBefore)

theorem stopFlag_of_view (h : CallSeen s waits phase) (hOpen : phase.commits = false)
    (hView : s.jobs.view id = some job) : StopFlag job := by
  obtain ⟨before, hBefore, hGoes, -⟩ := h.follows_of_view hOpen hView
  exact hGoes.stopFlag (h.stored.stopFlag id before hBefore)

end CallSeen

/-- What a statement does to jobs, and whether it leaves the connections as they are. -/
inductive JobEffect (s s' : MarkerView) (phase phase' : MarkerPhase) : Prop
  | fresh (hFresh : Fresh s) (hJobs : s'.jobs = s.jobs) (hMessages : s'.messages = s.messages)
  | same (hJobs : s'.jobs = s.jobs) (hConnections : s'.connections = s.connections)
  | goes {p : ScanJob → Bool} {f : ScanJob → ScanJob} (hView : s' = s.update p f)
      (hGoes : ∀ id job, s.jobs.view id = some job → p job = true →
        JobGoes job (f job) ∧ KeepsOwner job (f job))
  | claimed {begun : Instant} {jobId : JobId} {owner : LeaseOwner} {matched : Bool}
      (hView : s' = s.update (claimedBy begun jobId) (ScanJob.claim begun owner))
      (hPhase : phase' = .claimCommitting begun jobId owner matched)
      (hEnded : ∀ id job, s.jobs.own id = some (some job) → job.state.active = false)
  | recorded {lease : ScanLease} {page : ScanPage} {now : Instant}
      (hView : s' = s.update (lease.holds now)
        (ScanJob.recordPage page.messages.length page.nextOffsetId))
      (hPhase : phase = .persistWriting lease page []) (hPhase' : phase' = .committing none)
  | inserted {job : ScanJob} (hView : s' = { s with jobs := s.jobs.insert job.id job })
      (hPhase : phase' = .committing none) (hUnlocked : s.jobs.Unlocked)
      (hConnection : s.connections.own job.userId ≠ none) (hState : job.state = .pending)
      (hStop : job.stopRequested = false) (hScanned : job.messagesScanned = 0)
      (hCursor : job.lastMessageId = none) (hNew : s.jobs.view job.id = none)
      (hFree : ∀ id job', s.jobs.view id = some job' → job'.activeOf job.userId = false)

theorem Executes.jobEffect (h : CallSeen s waits phase) (hExecutes : Executes now s phase s' phase') :
    JobEffect s s' phase phase' := by
  have hOpen := hExecutes.uncommitted
  have hSeen := h.phaseSeen
  cases hExecutes with
  | clearsJob | clearsAll | clearsClaim | refreshes | adds | deletes | clears => exact .same rfl rfl
  | finds | startsFresh | cancels | stops | readsPage => exact .same rfl rfl
  | rejects hConnects => exact .fresh hSeen hConnects.jobs hConnects.messages
  | validates hConnects => exact .fresh hSeen hConnects.jobs hConnects.messages
  | locksConnection hConnects => exact .fresh hSeen.1 hConnects.jobs hConnects.messages
  | downgrades hConnects => exact .fresh hSeen hConnects.jobs hConnects.messages
  | disconnects hConnects => exact .fresh hSeen hConnects.jobs hConnects.messages
  | @writes next loaded memory id job hView hId =>
      obtain ⟨-, hActive, clock, ⟨-, hState, rfl⟩ | ⟨hOwn, rfl⟩⟩ := hSeen
      · exact .goes rfl fun _ job _ _ => goes_cancelStopped hState job
      · refine .goes rfl fun id' job' hView' hId' => ?_
        obtain rfl : id' = loaded.id := (h.id_of_view hOpen hView').symm.trans (eq_of_beq hId')
        obtain rfl : job' = loaded :=
          Option.some.inj (hView'.symm.trans (Seen.view_of_own hOwn))
        exact goes_stop hActive
  | locksStop => exact .goes rfl fun _ job _ _ => ⟨.refl job, fun _ hOwns => hOwns⟩
  | locksJob => exact .goes rfl fun _ job _ _ => ⟨.refl job, fun _ hOwns => hOwns⟩
  | failsClaim =>
      exact .goes rfl fun _ job _ _ =>
        ⟨.of_ended ⟨rfl, rfl, rfl, rfl, rfl, rfl⟩ ⟨rfl, rfl, rfl⟩ rfl, keepsOwner_of_none rfl⟩
  | cancelsClaim =>
      exact .goes rfl fun _ job _ _ =>
        ⟨.of_ended ⟨rfl, rfl, rfl, rfl, rfl, rfl⟩ ⟨rfl, rfl, rfl⟩ rfl, keepsOwner_of_none rfl⟩
  | claims => exact .claimed rfl rfl hSeen
  | records => exact .recorded rfl rfl rfl
  | @finalizes begun lease state error reason id job hView hHolds =>
      exact .goes rfl fun _ job _ _ =>
        ⟨.of_ended ⟨rfl, rfl, rfl, rfl, rfl, rfl⟩ ⟨rfl, rfl, rfl⟩ state.2, keepsOwner_of_none rfl⟩
  | updates =>
      exact .goes rfl fun id job hView hSelects =>
        JobStatement.goes_sets hSeen.2 (h.stopFlag_of_view hOpen hView) hSelects
  | inserts hUser hState hStop hScanned hCursor hNew hFree =>
      exact .inserted rfl rfl hSeen.1 (hUser ▸ hSeen.2) hState hStop hScanned hCursor hNew hFree

/-- A claim and a page are for active jobs. -/
theorem JobEffect.active_of_claimedBy {begun : Instant} (h : claimedBy begun id job = true) :
    job.id = id ∧ job.claimable begun = true ∧ job.state.active = true := by
  simp only [claimedBy, Bool.and_eq_true, beq_iff_eq] at h
  exact ⟨h.1.1, h.2, active_of_claimable h.2⟩

theorem CallSeen.jobs_executes (h : CallSeen s waits phase)
    (hExecutes : Executes now s phase s' phase') {own : Option ScanJob}
    (hOwn : s'.jobs.own id = some own) : ∃ job, own = some job ∧ OwnVersion s' waits phase' id job := by
  have hOpen := hExecutes.uncommitted
  have hCommitted : s'.jobs.committed id = s.jobs.committed id := congrFun hExecutes.committed.1 id
  -- a version that stays goes on from the committed row as before
  have hOld (hOwn : s.jobs.own id = some own) :
      ∃ job, own = some job ∧ OwnVersion s' waits phase' id job := by
    obtain ⟨job, rfl, -⟩ := h.jobs id own hOwn
    exact ⟨job, rfl, .follows ((h.follows_of_own hOpen hOwn).congr hCommitted)⟩
  cases hExecutes.jobEffect h with
  | fresh _ hJobs => exact hOld (hJobs ▸ hOwn)
  | same hJobs => exact hOld (hJobs ▸ hOwn)
  | goes hView hGoes =>
      subst hView
      rcases Seen.own_write_eq_some hOwn with hOwn | ⟨job, hJob, hMatch, rfl⟩
      · exact hOld hOwn
      · exact ⟨_, rfl, .follows ((h.follows_of_view hOpen hJob).goes (hGoes id job hJob hMatch))⟩
  | @claimed begun jobId owner matched hView hPhase hEnded =>
      subst hView
      rcases Seen.own_write_eq_some hOwn with hOwn | ⟨job, hJob, hMatch, rfl⟩
      · exact hOld hOwn
      · obtain ⟨hId, hClaimable, hActive⟩ := JobEffect.active_of_claimedBy hMatch
        obtain rfl : jobId = id := hId.symm.trans (h.id_of_view hOpen hJob)
        cases hNone : s.jobs.own jobId with
        | none =>
            exact ⟨_, rfl, .claimed hPhase ((Seen.view_of_none hNone).symm.trans hJob) hClaimable⟩
        | some own =>
            rw [Seen.view_of_own hNone] at hJob
            rw [hJob] at hNone
            exact absurd ((hEnded jobId job hNone).symm.trans hActive) Bool.false_ne_true
  | @recorded lease page clock hView hPhase hPhase' =>
      subst hView
      rcases Seen.own_write_eq_some hOwn with hOwn | ⟨job, hJob, hMatch, rfl⟩
      · exact hOld hOwn
      · have hId : id = lease.jobId :=
          (h.id_of_view hOpen hJob).symm.trans (ScanLease.id_of_owns (ScanLease.owns_of_holds hMatch))
        have hSeen : PhaseSeen s waits (.persistWriting lease page []) := hPhase ▸ h.phaseSeen
        obtain ⟨st, st', hAwaits⟩ := hSeen.1.awaits
        obtain ⟨held, hHeld, hOwns, hLocked⟩ := hSeen.1.held
        rw [hId] at hJob
        obtain rfl := Option.some.inj ((Seen.view_of_own hLocked).symm.trans hJob)
        exact ⟨_, rfl, .recorded hPhase' hId.symm hAwaits ⟨hHeld, hOwns,
          Seen.own_write_of_match (Seen.view_of_own hLocked) hMatch⟩⟩
  | @inserted added hView hPhase hUnlocked hConnection hState hStop hScanned hCursor hNew hFree =>
      subst hView
      dsimp only [Seen.insert] at hOwn
      rw [Function.update_apply] at hOwn
      split at hOwn
      · rename_i hId
        subst hId
        cases hOwn
        refine ⟨added, rfl, .added hPhase ⟨hUnlocked.view.symm.trans hNew, hConnection, rfl, hState,
          hStop, hScanned, hCursor, fun id' hNe job' hView => hFree id' job' ?_⟩⟩
        have hSame : (s.jobs.insert added.id added).own id' = s.jobs.own id' :=
          Function.update_of_ne hNe _ _
        rw [Seen.view, hSame] at hView
        exact hView
      · exact hOld hOwn

/-! ## Rows of messages -/

/-- What rows of messages rest on stays. -/
structure Keeps (s s' : MarkerView) : Prop where
  connections : ∀ userId, s.connections.own userId ≠ none → s'.connections.own userId ≠ none
  jobs : ∀ id, s.jobs.own id ≠ none → s'.jobs.own id ≠ none ∧
    s'.jobs.committed id = s.jobs.committed id
  there : ∀ id, s.jobs.committed id ≠ none → s'.jobs.committed id ≠ none
  ended : ∀ id, s.Ended id → s'.Ended id

theorem ended_update (hGoes : ∀ id job, s.jobs.view id = some job → p job = true →
    (f job).state.active = true → job.state.active = true) (h : s.Ended id) :
    (s.update p f).Ended id := by
  obtain ⟨job, hOwn, hEnd⟩ := h
  have hView := Seen.view_of_own hOwn
  by_cases hMatch : p job = true
  · refine ⟨f job, Seen.own_write_of_match hView hMatch, ?_⟩
    by_contra hActive
    rw [Bool.not_eq_false] at hActive
    exact absurd (hEnd.symm.trans (hGoes id job hView hMatch hActive)) Bool.false_ne_true
  · refine ⟨job, (Seen.own_write_of_ne fun job' hView' => ?_).trans hOwn, hEnd⟩
    obtain rfl := Option.some.inj (hView.symm.trans hView')
    exact (Bool.not_eq_true _).mp hMatch

theorem keeps_update (hGoes : ∀ id job, s.jobs.view id = some job → p job = true →
    (f job).state.active = true → job.state.active = true) : Keeps s (s.update p f) :=
  ⟨fun _ h => h, fun _ h => ⟨Seen.own_write_ne_none h, rfl⟩, fun _ h => h,
    fun _ h => ended_update hGoes h⟩

theorem Executes.keeps (h : CallSeen s waits phase) (hExecutes : Executes now s phase s' phase') :
    Keeps s s' ∨ Fresh s ∧ s'.messages = s.messages := by
  cases hExecutes.jobEffect h with
  | fresh hFresh _ hMessages => exact Or.inr ⟨hFresh, hMessages⟩
  | same hJobs hConnections =>
      refine Or.inl ⟨fun _ h => hConnections ▸ h, fun _ h => ⟨hJobs ▸ h, ?_⟩,
        fun _ h => hJobs ▸ h, fun id h => ?_⟩
      · rw [hJobs]
      · unfold MarkerView.Ended
        rw [hJobs]
        exact h
  | goes hView hGoes =>
      exact Or.inl (hView ▸ keeps_update fun id job hJob hMatch hActive =>
        (hGoes id job hJob hMatch).1.active hActive)
  | claimed hView =>
      exact Or.inl (hView ▸ keeps_update fun _ _ _ hMatch _ =>
        (JobEffect.active_of_claimedBy hMatch).2.2)
  | recorded hView =>
      exact Or.inl (hView ▸ keeps_update fun _ _ _ hMatch _ =>
        ScanLease.active_of_owns (ScanLease.owns_of_holds hMatch))
  | @inserted added hView _ hUnlocked =>
      subst hView
      refine Or.inl ⟨fun _ h => h, fun id h => absurd (hUnlocked id) h, fun _ h => h, fun id h => ?_⟩
      obtain ⟨job, hOwn, -⟩ := h
      exact absurd ((hUnlocked id).symm.trans hOwn) nofun

theorem AddedRow.keeps {key : MessageKey} {marker : Marker} (h : AddedRow s waits key marker)
    (hKeeps : Keeps s s') (hFresh : ∀ key', key'.source = key.source → s'.messages.view key' ≠ none →
      s.messages.view key' ≠ none) : AddedRow s' waits key marker := by
  obtain ⟨hConnection, ⟨lease, page, st, st', before, hAwaits, hUser, hCommitted, hOwns, hOwn,
    hMarker⟩, hOnly⟩ := h
  obtain ⟨hOwn', hSame⟩ := hKeeps.jobs lease.jobId hOwn
  exact ⟨hKeeps.connections _ hConnection, ⟨lease, page, st, st', before, hAwaits, hUser,
    hSame.trans hCommitted, hOwns, hOwn', hMarker⟩,
    fun key' hSource hView => hOnly key' hSource (hFresh key' hSource hView)⟩

theorem Prunes.keeps {lease : ScanLease} (h : Prunes s waits lease) (hKeeps : Keeps s s') :
    Prunes s' waits lease := by
  obtain ⟨before, hCommitted, hOwns⟩ := h.owned
  obtain ⟨job, hOwn, -⟩ := h.ended
  have hSame := (hKeeps.jobs lease.jobId (hOwn ▸ Option.some_ne_none _)).2
  exact ⟨h.waits, ⟨before, hSame.trans hCommitted, hOwns⟩, hKeeps.ended _ h.ended⟩

theorem RowsSeen.of_unlocked (h : s.messages.Unlocked) : RowsSeen s waits :=
  ⟨fun key _ hOwn => absurd ((h key).symm.trans hOwn) nofun,
    fun key _ hOwn => absurd ((h key).symm.trans hOwn) nofun,
    fun key hOwn => absurd ((h key).symm.trans hOwn) nofun⟩

theorem RowsSeen.keeps (h : RowsSeen s waits) (hKeeps : Keeps s s')
    (hMessages : s'.messages = s.messages) : RowsSeen s' waits := by
  constructor
  · rw [hMessages]
    exact fun key id hOwn => hKeeps.there id (h.marked key id hOwn)
  · rw [hMessages]
    intro key marker hOwn hNone
    refine (h.added key marker hOwn hNone).keeps hKeeps fun key' _ hView => ?_
    rw [hMessages] at hView
    exact hView
  · rw [hMessages]
    intro key hOwn
    obtain ⟨lease, hPrunes, hUser, hMarker⟩ := h.deleted key hOwn
    exact ⟨lease, hPrunes.keeps hKeeps, hUser, hMarker⟩

/-- A statement on messages. -/
theorem keeps_messages (messages : Seen MessageKey Marker) :
    Keeps s { s with messages := messages } :=
  ⟨fun _ h => h, fun _ h => ⟨h, rfl⟩, fun _ h => h, fun _ h => h⟩

theorem RowsSeen.clear (h : RowsSeen s waits)
    (hDeleted : ∀ key own, s.messages.own key = some own → own = none)
    {p : MessageKey → Marker → Bool} : RowsSeen (s.clear p) waits := by
  refine ⟨fun key id hOwn => ?_, fun key marker hOwn hNone => ?_, fun key hOwn => ?_⟩
  · rcases Seen.own_write_eq_some hOwn with hOld | ⟨_, -, -, hNew⟩
    · cases hDeleted key _ hOld
    · cases hNew
  · rcases Seen.own_write_eq_some hOwn with hOld | ⟨marker', hView, -, -⟩
    · cases hDeleted key _ hOld
    · cases hOld : s.messages.own key with
      | none => exact absurd ((Seen.view_of_none hOld).symm.trans hView) (hNone ▸ nofun)
      | some own =>
          rw [Seen.view_of_own hOld, hDeleted key own hOld] at hView
          cases hView
  · rcases Seen.own_write_eq_some hOwn with hOld | ⟨_, -, -, hNew⟩
    · obtain ⟨lease, hPrunes, hRest⟩ := h.deleted key hOld
      exact ⟨lease, hPrunes.keeps (keeps_messages _), hRest⟩
    · cases hNew

/-- No message of Telegram is added that the transaction sees already. -/
def AddsFresh (s : MarkerView) (phase : MarkerPhase) : Prop :=
  ∀ lease page telegramId writes, phase = .persistWriting lease page (.add telegramId :: writes) →
    ∀ key : MessageKey, key.source = (lease.userId, lease.telegramUserId, telegramId) →
      s.messages.view key = none

/-- A stored row of the page is marked, unless it carries the marker already. -/
theorem CallSeen.rows_refresh (h : CallSeen s waits phase) {lease : ScanLease} {page : ScanPage}
    (hPersists : Persists s waits lease page) (key : MessageKey) (loaded : Marker) :
    RowsSeen
      { s with
        messages := s.messages.write (fun k _ => k == key)
          fun marker => some (flushMarker lease loaded marker) } waits := by
  have hFresh (key' : MessageKey) (hView : (s.messages.write (fun k _ => k == key)
      fun marker => some (flushMarker lease loaded marker)).view key' ≠ none) :
      s.messages.view key' ≠ none := by
    rw [Seen.view_update] at hView
    exact fun hNone => hView (by rw [hNone]; rfl)
  refine ⟨fun key' id hOwn => ?_, fun key' marker hOwn hNone => ?_, fun key' hOwn => ?_⟩
  · rcases Seen.own_write_eq_some hOwn with hOld | ⟨marker, hView, -, hNew⟩
    · exact h.rows.marked key' id hOld
    · have hFlush : flushMarker lease loaded marker = some id := (Option.some.inj hNew).symm
      unfold flushMarker at hFlush
      split at hFlush
      · obtain ⟨before, hCommitted, -, -⟩ := hPersists.held
        exact Option.some.inj hFlush ▸ hCommitted ▸ nofun
      · subst hFlush
        cases hOld : s.messages.own key' with
        | none => exact h.stored.marked key' id ((Seen.view_of_none hOld).symm.trans hView)
        | some own => exact h.rows.marked key' id (hOld.trans (congrArg some
            ((Seen.view_of_own hOld).symm.trans hView)))
  · rcases Seen.own_write_eq_some hOwn with hOld | ⟨marker', hView, -, hNew⟩
    · exact (h.rows.added key' marker hOld hNone).keeps (keeps_messages _)
        fun key'' _ => hFresh key''
    · cases hOld : s.messages.own key' with
      | none => exact absurd ((Seen.view_of_none hOld).symm.trans hView) (hNone ▸ nofun)
      | some own =>
          -- the page marks a row that it has added itself
          rw [Seen.view_of_own hOld] at hView
          subst hView
          obtain ⟨hConnection, ⟨lease', page', st, st', before, hAwaits, hUser, hCommitted, hOwns,
            hLocked, hMarker⟩, hOnly⟩ := h.rows.added key' marker' hOld hNone
          obtain ⟨st₁, st₁', hThis⟩ := hPersists.awaits
          obtain ⟨hLease, -, -⟩ := h.sole _ _ _ _ _ _ hAwaits.waits hThis.waits
          refine ⟨hConnection, ⟨lease', page', st, st', before, hAwaits, hUser, hCommitted, hOwns,
            hLocked, fun hReplace => ?_⟩, fun key'' hSource hView => hOnly key'' hSource
              (hFresh key'' hView)⟩
          rw [Option.some.inj hNew, flushMarker]
          split
          · rw [hLease]
          · exact hMarker hReplace
  · rcases Seen.own_write_eq_some hOwn with hOld | ⟨_, -, -, hNew⟩
    · obtain ⟨lease', hPrunes, hRest⟩ := h.rows.deleted key' hOld
      exact ⟨lease', hPrunes.keeps (keeps_messages _), hRest⟩
    · cases hNew

/-- A row is added that no other of its message is seen beside. -/
theorem CallSeen.rows_add (h : CallSeen s waits phase) {lease : ScanLease} {page : ScanPage}
    (hPersists : Persists s waits lease page) {added : MessageKey} (hUser : added.userId = lease.userId)
    (hNone : ∀ key : MessageKey, key.source = added.source → s.messages.view key = none) :
    RowsSeen
      { s with
        messages := s.messages.insert added
          (if lease.replaceExisting then some lease.jobId else none) } waits := by
  obtain ⟨before, hCommitted, hOwns, hLocked⟩ := hPersists.held
  obtain ⟨st, st', hAwaits⟩ := hPersists.awaits
  refine ⟨fun key id hOwn => ?_, fun key marker hOwn hOld => ?_, fun key hOwn => ?_⟩
  · dsimp only [Seen.insert] at hOwn
    rw [Function.update_apply] at hOwn
    split at hOwn
    · have hMarker := Option.some.inj (Option.some.inj hOwn)
      split at hMarker
      · exact Option.some.inj hMarker ▸ hCommitted ▸ nofun
      · cases hMarker
    · exact h.rows.marked key id hOwn
  · dsimp only [Seen.insert] at hOwn
    rw [Function.update_apply] at hOwn
    split at hOwn
    · rename_i hKey
      subst hKey
      refine ⟨hUser ▸ hPersists.connection, ⟨lease, page, st, st', before, hAwaits, hUser.symm,
        hCommitted, hOwns, hLocked ▸ nofun, fun hReplace => ?_⟩, fun key' hSource hView => ?_⟩
      · rw [← Option.some.inj (Option.some.inj hOwn), if_pos hReplace]
      · by_contra hNe
        rw [Seen.view_insert, if_neg hNe] at hView
        exact hView (hNone key' hSource)
    · refine (h.rows.added key marker hOwn hOld).keeps (keeps_messages _) fun key' hSource hView => ?_
      rw [Seen.view_insert] at hView
      split at hView
      · rename_i hKey
        have hNoView := hNone key (hSource.symm.trans (congrArg MessageKey.source hKey))
        rw [Seen.view_of_own hOwn] at hNoView
        cases hNoView
      · exact hView
  · dsimp only [Seen.insert] at hOwn
    rw [Function.update_apply] at hOwn
    split at hOwn
    · cases hOwn
    · obtain ⟨lease', hPrunes, hRest⟩ := h.rows.deleted key hOwn
      exact ⟨lease', hPrunes.keeps (keeps_messages _), hRest⟩

/-- The rows without the job's marker are deleted. -/
theorem Prunes.rows {lease : ScanLease} (h : Prunes s waits lease) (hUnlocked : s.messages.Unlocked) :
    RowsSeen
      { s with
        messages := s.messages.write (fun key marker =>
          key.userId == lease.userId && marker != some lease.jobId) fun _ => none } waits := by
  refine ⟨fun key id hOwn => ?_, fun key marker hOwn _ => ?_, fun key hOwn => ?_⟩
  · rcases Seen.own_write_eq_some hOwn with hOld | ⟨_, -, -, hNew⟩
    · exact absurd ((hUnlocked key).symm.trans hOld) nofun
    · cases hNew
  · rcases Seen.own_write_eq_some hOwn with hOld | ⟨_, -, -, hNew⟩
    · exact absurd ((hUnlocked key).symm.trans hOld) nofun
    · cases hNew
  · rcases Seen.own_write_eq_some hOwn with hOld | ⟨marker, hView, hMatch, -⟩
    · exact absurd ((hUnlocked key).symm.trans hOld) nofun
    · rw [Bool.and_eq_true, beq_iff_eq, bne_iff_ne] at hMatch
      refine ⟨lease, h.keeps (keeps_messages _), hMatch.1, fun hMarked => ?_⟩
      rw [hUnlocked.view] at hView
      exact hMatch.2 (Option.some.inj (hView.symm.trans hMarked))

theorem CallSeen.rows_executes (h : CallSeen s waits phase)
    (hExecutes : Executes now s phase s' phase') (hAdds : AddsFresh s phase) :
    RowsSeen s' waits := by
  have hSeen := h.phaseSeen
  -- the statements that leave messages as they are
  have hSame (hMessages : s'.messages = s.messages) : RowsSeen s' waits := by
    rcases hExecutes.keeps h with hKeeps | ⟨hFresh, -⟩
    · exact h.rows.keeps hKeeps hMessages
    · exact .of_unlocked (hMessages ▸ hFresh.messages)
  have hUnlocked (hMessages : s.messages.Unlocked) (key : MessageKey) (own : Option Marker)
      (hOwn : s.messages.own key = some own) : own = none :=
    absurd ((hMessages key).symm.trans hOwn) nofun
  cases hExecutes with
  | clearsJob => exact h.rows.clear hSeen.2
  | clearsAll => exact h.rows.clear (hUnlocked hSeen.1.messages)
  | clearsClaim => exact h.rows.clear (hUnlocked hSeen.1)
  | clears => exact h.rows.clear (hUnlocked hSeen.1.messages)
  | rejects hConnects => exact hSame hConnects.messages
  | validates hConnects => exact hSame hConnects.messages
  | locksConnection hConnects => exact hSame hConnects.messages
  | downgrades hConnects => exact hSame hConnects.messages
  | disconnects hConnects => exact hSame hConnects.messages
  | deletes => exact hSeen.2.rows hSeen.1
  | refreshes => exact h.rows_refresh hSeen.1 _ _
  | adds => exact h.rows_add hSeen.1 rfl (hAdds _ _ _ _ rfl)
  | _ => exact hSame rfl

/-! ## Phases -/

theorem Persists.keeps {lease : ScanLease} {page : ScanPage} (h : Persists s waits lease page)
    (hConnections : s'.connections = s.connections) (hJobs : s'.jobs = s.jobs) :
    Persists s' waits lease page := by
  refine ⟨h.awaits, hConnections ▸ h.connection, ?_⟩
  rw [hJobs]
  exact h.held

/-- The job that a statement ends. -/
theorem CallSeen.ended_of_view (h : CallSeen s waits phase) (hOpen : phase.commits = false)
    (hView : s.jobs.view id = some job) (hMatch : p job = true)
    (hEnd : (f job).state.active = false) : (s.update p f).Ended job.id := by
  rw [h.id_of_view hOpen hView]
  exact ⟨f job, Seen.own_write_of_match hView hMatch, hEnd⟩

theorem flushJob_ended {loaded memory : ScanJob} (hActive : loaded.state.active = true)
    (hCancelled : memory.state = .cancelled) : (flushJob loaded memory job).state.active = false := by
  have hNe : memory.state ≠ loaded.state := by
    intro hSame
    rw [← hSame, hCancelled] at hActive
    cases hActive
  have hState : (flushJob loaded memory job).state = memory.state := if_neg hNe
  rw [hState, hCancelled]
  rfl

theorem CallSeen.phase_executes (h : CallSeen s waits phase)
    (hExecutes : Executes now s phase s' phase') : PhaseSeen s' waits phase' := by
  have hOpen := hExecutes.uncommitted
  have hSeen := h.phaseSeen
  have hUnlocked (hMessages : s.messages.Unlocked) (key : MessageKey) (own : Option Marker)
      (hOwn : s.messages.own key = some own) : own = none :=
    absurd ((hMessages key).symm.trans hOwn) (Option.some_ne_none _).symm
  cases hExecutes with
  | clearsJob | rejects | inserts | claims | records | updates => exact trivial
  | finds | startsFresh => exact hSeen
  | @writes next loaded memory id job hView hId =>
      unfold MarkerPhase.written
      split
      · rename_i hCancels
        rw [Bool.and_eq_true, beq_iff_eq] at hCancels
        have hEnded : (s.update (·.id == loaded.id) (flushJob loaded memory)).Ended job.id :=
          h.ended_of_view hOpen hView (beq_iff_eq.mpr hId) (flushJob_ended hSeen.2.1 hCancels.1)
        rw [hId] at hEnded
        exact ⟨hEnded, hUnlocked hSeen.1⟩
      · exact trivial
  | @cancels request job hStop =>
      have hState : job.state = .stopping := by
        simp only [ScanJob.abandonedStop, Bool.and_eq_true, beq_iff_eq] at hStop
        exact hStop.1
      exact ⟨hSeen.messages, active_of_abandonedStop hStop, now, Or.inl ⟨hSeen.jobs, hState, rfl⟩⟩
  | validates hConnects hLocked =>
      split
      · exact ⟨⟨hConnects.jobs ▸ hSeen.jobs, hConnects.messages ▸ hSeen.messages⟩, hLocked⟩
      · exact ⟨hConnects.jobs ▸ hSeen.jobs, hLocked⟩
  | clearsAll => exact ⟨hSeen.1.jobs, hSeen.2⟩
  | @locksStop userId id job hView hActive =>
      refine ⟨hSeen.messages, (activeOf_iff.mp hActive).2, ?_⟩
      rw [h.id_of_view hOpen hView]
      exact Seen.own_write_of_match hView hActive
  | stops => exact ⟨hSeen.1, hSeen.2.1, now, Or.inr ⟨hSeen.2.2, rfl⟩⟩
  | failsClaim =>
      refine ⟨hSeen.messages, fun id job hOwn => ?_⟩
      rcases Seen.own_write_eq_some hOwn with hOld | ⟨job', -, -, hNew⟩
      · exact absurd ((hSeen.jobs id).symm.trans hOld) (Option.some_ne_none _).symm
      · cases hNew
        rfl
  | cancelsClaim =>
      refine ⟨hSeen.1, fun id job hOwn => ?_⟩
      rcases Seen.own_write_eq_some hOwn with hOld | ⟨job', -, -, hNew⟩
      · exact hSeen.2 id job hOld
      · cases hNew
        rfl
  | clearsClaim => exact hSeen.2
  | locksConnection hConnects hLocked =>
      exact ⟨⟨hConnects.jobs ▸ hSeen.1.jobs, hConnects.messages ▸ hSeen.1.messages⟩, hLocked,
        hSeen.2⟩
  | @locksJob begun lease page id job hView hHolds =>
      have hOwns := ScanLease.owns_of_holds hHolds
      obtain rfl : lease.jobId = id := (ScanLease.id_of_owns hOwns).symm.trans (h.id_of_view hOpen hView)
      exact ⟨hSeen.1.messages, hSeen.2.2, hSeen.2.1, job, hSeen.1.jobs.view.symm.trans hView, hOwns,
        Seen.own_write_of_match hView hHolds⟩
  | readsPage hStored hWrites =>
      refine ⟨hSeen.2, fun key loaded hMem => ?_⟩
      exact ((hStored key loaded).mp (mem_pageWrites hWrites hMem)).2.1
  | refreshes => exact ⟨hSeen.1.keeps rfl rfl, fun key loaded hMem =>
      hSeen.2 key loaded (List.mem_cons_of_mem _ hMem)⟩
  | adds => exact ⟨hSeen.1.keeps rfl rfl, fun key loaded hMem =>
      hSeen.2 key loaded (List.mem_cons_of_mem _ hMem)⟩
  | @finalizes begun lease state error reason id job hView hHolds =>
      have hOwns := ScanLease.owns_of_holds hHolds
      have hId := ScanLease.id_of_owns hOwns
      have hEnded : (s.update (lease.holds begun)
          (ScanJob.finalize begun state.1 error reason)).Ended lease.jobId :=
        hId ▸ h.ended_of_view hOpen hView hHolds state.2
      unfold MarkerPhase.finalized
      split
      · rename_i hPrunes
        refine ⟨hSeen.1.messages, hSeen.2 hPrunes, ⟨job, ?_, hOwns⟩, hEnded⟩
        rw [← hId, h.id_of_view hOpen hView]
        exact hSeen.1.jobs.view.symm.trans hView
      · split
        · exact ⟨hEnded, hUnlocked hSeen.1.messages⟩
        · exact trivial
  | deletes =>
      refine ⟨hSeen.2.ended, fun key own hOwn => ?_⟩
      rcases Seen.own_write_eq_some hOwn with hOld | ⟨_, -, -, hNew⟩
      · exact hUnlocked hSeen.1 key own hOld
      · exact hNew
  | downgrades hConnects =>
      exact ⟨⟨hConnects.jobs ▸ hSeen.jobs, hConnects.messages ▸ hSeen.messages⟩, rfl,
        fun _ hLease => by cases hLease⟩
  | disconnects hConnects =>
      exact ⟨⟨hConnects.jobs ▸ hSeen.jobs, hConnects.messages ▸ hSeen.messages⟩, rfl,
        fun _ hLease => by cases hLease⟩
  | clears => exact ⟨hSeen.1.jobs, hSeen.2.1⟩

/-! ## Waiting workers -/

/-- A call goes on with its page until that is recorded. -/
theorem Executes.page {lease : ScanLease} {page : ScanPage}
    (h : Executes now s phase s' phase') (hPage : phase.page = some (lease, page)) :
    phase'.page = some (lease, page) ∨ phase = .persistWriting lease page [] ∧
      phase' = .committing none ∧ ∃ id job, s.jobs.view id = some job ∧ lease.holds now job = true ∧
        s' = s.update (lease.holds now)
          (ScanJob.recordPage page.messages.length page.nextOffsetId) := by
  cases h with
  | locksConnection | locksJob | readsPage | refreshes | adds => exact Or.inl hPage
  | @records lease' page' id job hView hHolds =>
      cases hPage
      exact Or.inr ⟨rfl, rfl, id, job, hView, hHolds, rfl⟩
  | _ => cases hPage

theorem CallSeen.awaited_executes (h : CallSeen s waits phase)
    (hExecutes : Executes now s phase s' phase') {lease : ScanLease} {wphase : WorkerPhase}
    {next : Option WorkerPhase} (hWaits : waits lease wphase next) :
    WaitSeen s' waits phase' lease wphase next := by
  rcases h.awaited lease wphase next hWaits with
    hDone | hFailing | ⟨page, st, st', hAwaits, hPhase, hNext, hPage | ⟨hCommits, -⟩⟩
  · exact Or.inl hDone
  · exact Or.inr (Or.inl hFailing)
  · refine Or.inr (Or.inr ⟨page, st, st', hAwaits, hPhase, hNext, ?_⟩)
    rcases hExecutes.page hPage with hGoesOn | ⟨hWriting, hCommits, id, job, hView, hHolds, rfl⟩
    · exact Or.inl hGoesOn
    · have hSeen : PhaseSeen s waits (.persistWriting lease page []) := hWriting ▸ h.phaseSeen
      obtain ⟨held, hCommitted, hOwns, hLocked⟩ := hSeen.1.held
      have hId : id = lease.jobId := (h.id_of_view hExecutes.uncommitted hView).symm.trans
        (ScanLease.id_of_owns (ScanLease.owns_of_holds hHolds))
      rw [hId, Seen.view_of_own hLocked] at hView
      obtain rfl := Option.some.inj hView
      exact Or.inr ⟨hCommits, held, hCommitted, hOwns,
        Seen.own_write_of_match (Seen.view_of_own hLocked) hHolds⟩
  · have hOpen := hExecutes.uncommitted
    rw [hCommits] at hOpen
    cases hOpen

/-- A statement keeps what its transaction relies on. -/
theorem CallSeen.executes (h : CallSeen s waits phase) (hExecutes : Executes now s phase s' phase')
    (hAdds : AddsFresh s phase) : CallSeen s' waits phase' where
  stored := h.stored.congr hExecutes.committed.1 hExecutes.committed.2
  jobs _ _ hOwn := h.jobs_executes hExecutes hOwn
  rows := h.rows_executes hExecutes hAdds
  phaseSeen := h.phase_executes hExecutes
  awaited _ _ _ hWaits := h.awaited_executes hExecutes hWaits
  sole := h.sole

end Statements

end SavedOrganizer
