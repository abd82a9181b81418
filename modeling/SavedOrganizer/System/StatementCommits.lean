import SavedOrganizer.System.StatementCalls

/-!
# A commit keeps what the others rely on

`CommitOk` is what the others need of a transaction that commits: every job it leaves goes on from
the committed one or is added, and a message is added only with the connection of its user
locked. `CallSeen.commit` and `CallSeen.after` are the two sides of a commit.
-/

namespace SavedOrganizer

open MarkerView

/-- What a commit leaves. -/
structure CommitOk (s : MarkerView) : Prop where
  stored : Stored s.commit
  jobs : ∀ id job, s.jobs.view id = some job →
    (∃ before, s.jobs.committed id = some before ∧ JobMoves before job) ∨ AddedJob s id job
  there : ∀ id, s.jobs.committed id ≠ none → s.jobs.view id ≠ none
  rows : ∀ key, s.messages.view key ≠ none →
    s.messages.committed key ≠ none ∨ s.connections.own key.userId ≠ none

section Commits

variable {s other : MarkerView} {waits waits' : Waiter} {phase phase' : MarkerPhase} {id : JobId}
  {job : ScanJob}

theorem OwnVersion.moves (h : OwnVersion s waits phase id job) (hStored : Stored s) :
    (∃ before, s.jobs.committed id = some before ∧ JobMoves before job) ∨ AddedJob s id job := by
  cases h with
  | follows hFollows =>
      obtain ⟨before, hBefore, hGoes, -⟩ := hFollows
      exact Or.inl ⟨before, hBefore, hGoes.moves⟩
  | claimed _ hCommitted hClaimable =>
      exact Or.inl ⟨_, hCommitted, (goes_claim hClaimable (hStored.stopFlag id _ hCommitted)).moves⟩
  | recorded _ hId _ hRecorded => exact Or.inl ⟨_, hId ▸ hRecorded.committed, moves_recordPage⟩
  | added _ hAdded => exact Or.inr hAdded

namespace CallSeen

theorem moves_of_view (h : CallSeen s waits phase) (hView : s.jobs.view id = some job) :
    (∃ before, s.jobs.committed id = some before ∧ JobMoves before job) ∨ AddedJob s id job := by
  cases hOwn : s.jobs.own id with
  | none => exact Or.inl ⟨job, (Seen.view_of_none hOwn).symm.trans hView, (JobGoes.refl job).moves⟩
  | some own =>
      obtain ⟨job', rfl, hVersion⟩ := h.jobs id own hOwn
      obtain rfl := Option.some.inj ((Seen.view_of_own hOwn).symm.trans hView)
      exact hVersion.moves h.stored

theorem view_ne_none (h : CallSeen s waits phase) (hCommitted : s.jobs.committed id ≠ none) :
    s.jobs.view id ≠ none := by
  cases hOwn : s.jobs.own id with
  | none => exact Seen.view_of_none hOwn ▸ hCommitted
  | some own =>
      obtain ⟨job', rfl, -⟩ := h.jobs id own hOwn
      exact Seen.view_of_own hOwn ▸ Option.some_ne_none _

/-- Two active jobs of a user are one. -/
theorem oneActive_of_view (h : CallSeen s waits phase) {id' : JobId} {job' : ScanJob}
    (hView : s.jobs.view id = some job) (hView' : s.jobs.view id' = some job')
    (hUser : job.userId = job'.userId) (hActive : job.state.active = true)
    (hActive' : job'.state.active = true) : id = id' := by
  by_contra hNe
  rcases h.moves_of_view hView with ⟨before, hBefore, hMoves⟩ | hAdded
  · rcases h.moves_of_view hView' with ⟨before', hBefore', hMoves'⟩ | hAdded'
    · refine hNe (h.stored.oneActive id before id' before' hBefore hBefore' ?_
        (hMoves.active hActive) (hMoves'.active hActive'))
      rw [← hMoves.same.userId, hUser, hMoves'.same.userId]
    · have hFree := hAdded'.free id hNe job hView
      rw [activeOf_iff.mpr ⟨hUser, hActive⟩] at hFree
      cases hFree
  · have hFree := hAdded.free id' (Ne.symm hNe) job' hView'
    rw [activeOf_iff.mpr ⟨hUser.symm, hActive'⟩] at hFree
    cases hFree

/-- A message of Telegram is seen once. -/
theorem unique_of_view (h : CallSeen s waits phase) {key key' : MessageKey}
    (hView : s.messages.view key ≠ none) (hView' : s.messages.view key' ≠ none)
    (hSource : key.source = key'.source) : key = key' := by
  have hAdded {key key' : MessageKey} (hView : s.messages.view key ≠ none)
      (hView' : s.messages.view key' ≠ none) (hSource : key.source = key'.source)
      (hNone : s.messages.committed key = none) : key' = key := by
    cases hOwn : s.messages.own key with
    | none => exact absurd ((Seen.view_of_none hOwn).trans hNone) hView
    | some own =>
        obtain ⟨marker, hMarker⟩ := Option.ne_none_iff_exists'.mp hView
        rw [Seen.view_of_own hOwn] at hMarker
        subst hMarker
        exact (h.rows.added key marker hOwn hNone).fresh key' hSource.symm hView'
  cases hNone : s.messages.committed key with
  | none => exact (hAdded hView hView' hSource hNone).symm
  | some marker =>
      cases hNone' : s.messages.committed key' with
      | none => exact hAdded hView' hView hSource.symm hNone'
      | some marker' =>
          exact h.stored.unique key key' (hNone ▸ nofun) (hNone' ▸ nofun) hSource

theorem commitOk (h : CallSeen s waits phase) : CommitOk s where
  stored := by
    refine ⟨fun id job hView => ?_, fun id job hView => ?_, fun id job id' job' hView hView' =>
      h.oneActive_of_view hView hView', fun key id hView => ?_, fun key key' hView hView' =>
        h.unique_of_view hView hView'⟩
    · rcases h.moves_of_view hView with ⟨before, hBefore, hMoves⟩ | hAdded
      · exact hMoves.same.id.trans (h.stored.jobId id before hBefore)
      · exact hAdded.jobId
    · rcases h.moves_of_view hView with ⟨before, hBefore, hMoves⟩ | hAdded
      · exact hMoves.stopFlag (h.stored.stopFlag id before hBefore)
      · intro _
        rw [hAdded.stopRequested, hAdded.state]
        exact ⟨nofun, nofun⟩
    · refine h.view_ne_none ?_
      cases hOwn : s.messages.own key with
      | none => exact h.stored.marked key id ((Seen.view_of_none hOwn).symm.trans hView)
      | some own => exact h.rows.marked key id (hOwn.trans (congrArg some
          ((Seen.view_of_own hOwn).symm.trans hView)))
  jobs _ _ hView := h.moves_of_view hView
  there _ hCommitted := h.view_ne_none hCommitted
  rows key hView := by
    cases hNone : s.messages.committed key with
    | some marker => exact Or.inl nofun
    | none =>
        obtain ⟨marker, hMarker⟩ := Option.ne_none_iff_exists'.mp hView
        cases hOwn : s.messages.own key with
        | none => exact absurd ((Seen.view_of_none hOwn).trans hNone) hView
        | some own =>
            rw [Seen.view_of_own hOwn] at hMarker
            subst hMarker
            exact Or.inr (h.rows.added key marker hOwn hNone).connection

end CallSeen

/-! ## Beside a commit -/

theorem keeps_after (hOther : CommitOk other) (hBeside : Beside s other) :
    Keeps s (s.after other) where
  connections _ h := h
  jobs _ h := ⟨h, Seen.committed_after hBeside.jobs_committed hBeside.jobs h⟩
  there id h := hOther.there id (hBeside.jobs_committed ▸ h)
  ended _ h := h

theorem AddedJob.after (h : AddedJob s id job) (hOwn : s.jobs.own id ≠ none)
    (hOther : CommitOk other) (hBeside : Beside s other) : AddedJob (s.after other) id job := by
  refine ⟨((keeps_after hOther hBeside).jobs id hOwn).2.trans h.committed, h.connection, h.jobId, h.state,
    h.stopRequested, h.messagesScanned, h.lastMessageId, fun id' hNe job' hView => ?_⟩
  cases hLocked : s.jobs.own id' with
  | some own =>
      refine h.free id' hNe job' ((Seen.view_of_own hLocked).trans ?_)
      exact (Seen.view_of_own (s := (s.after other).jobs) hLocked).symm.trans hView
  | none =>
      have hLeft : other.jobs.view id' = some job' :=
        (Seen.view_of_none (s := (s.after other).jobs) hLocked).symm.trans hView
      by_contra hActive
      rw [Bool.not_eq_false, activeOf_iff] at hActive
      rcases hOther.jobs id' job' hLeft with ⟨before, hBefore, hMoves⟩ | hAdded
      · have hFree := h.free id' hNe before ((Seen.view_of_none hLocked).trans
          ((congrFun hBeside.jobs_committed id').trans hBefore))
        rw [activeOf_iff.mpr ⟨hMoves.same.userId.symm.trans hActive.1, hMoves.active hActive.2⟩]
          at hFree
        cases hFree
      · exact h.connection (hBeside.connections _ (hActive.1 ▸ hAdded.connection))

theorem RowsSeen.after (h : RowsSeen s waits) (hOther : CommitOk other) (hBeside : Beside s other) :
    RowsSeen (s.after other) waits := by
  have hKeeps := keeps_after hOther hBeside
  have hSame {key : MessageKey} {own : Option Marker} (hOwn : s.messages.own key = some own) :
      (s.after other).messages.committed key = s.messages.committed key :=
    Seen.committed_after hBeside.messages_committed hBeside.messages (hOwn ▸ nofun)
  refine ⟨fun key id hOwn => hKeeps.there id (h.marked key id hOwn), fun key marker hOwn hNone => ?_,
    fun key hOwn => ?_⟩
  · have hAdded := h.added key marker hOwn ((hSame hOwn).symm.trans hNone)
    refine hAdded.keeps hKeeps fun key' hSource hView => ?_
    cases hLocked : s.messages.own key' with
    | some own =>
        rw [Seen.view_of_own hLocked]
        rw [Seen.view_of_own (s := (s.after other).messages) hLocked] at hView
        exact hView
    | none =>
        rw [Seen.view_of_none (s := (s.after other).messages) hLocked] at hView
        rw [Seen.view_of_none hLocked, congrFun hBeside.messages_committed key']
        rcases hOther.rows key' hView with hCommitted | hConnection
        · exact hCommitted
        · have hUser : key'.userId = key.userId := congrArg Prod.fst hSource
          exact absurd (hBeside.connections _ (hUser ▸ hConnection)) hAdded.connection
  · obtain ⟨lease, hPrunes, hUser, hMarker⟩ := h.deleted key hOwn
    exact ⟨lease, hPrunes.keeps hKeeps, hUser, (hSame hOwn).symm ▸ hMarker⟩

theorem RecordedPage.after {lease : ScanLease} {page : ScanPage} {before : ScanJob}
    (h : RecordedPage s lease page before) (hOther : CommitOk other) (hBeside : Beside s other) :
    RecordedPage (s.after other) lease page before :=
  ⟨((keeps_after hOther hBeside).jobs _ (h.own ▸ nofun)).2.trans h.committed, h.owns, h.own⟩

theorem Persists.after {lease : ScanLease} {page : ScanPage} (h : Persists s waits lease page)
    (hOther : CommitOk other) (hBeside : Beside s other) :
    Persists (s.after other) waits lease page := by
  obtain ⟨job, hCommitted, hOwns, hOwn⟩ := h.held
  exact ⟨h.awaits, h.connection, job,
    ((keeps_after hOther hBeside).jobs _ (hOwn ▸ nofun)).2.trans hCommitted, hOwns, hOwn⟩

/-- Another transaction commits. -/
theorem CallSeen.after (h : CallSeen s waits phase) (hOther : CommitOk other)
    (hBeside : Beside s other) : CallSeen (s.after other) waits phase where
  stored := hOther.stored.congr rfl rfl
  jobs id _ hOwn := by
    obtain ⟨job, rfl, hVersion⟩ := h.jobs id _ hOwn
    have hLocked : s.jobs.own id ≠ none := hOwn ▸ nofun
    have hSame := ((keeps_after hOther hBeside).jobs id hLocked).2
    refine ⟨job, rfl, ?_⟩
    cases hVersion with
    | follows hFollows => exact .follows (hFollows.congr hSame)
    | claimed hPhase hCommitted hClaimable =>
        exact .claimed hPhase (hSame.trans hCommitted) hClaimable
    | recorded hPhase hId hAwaits hRecorded =>
        exact .recorded hPhase hId hAwaits (hRecorded.after hOther hBeside)
    | added hPhase hAdded => exact .added hPhase (hAdded.after hLocked hOther hBeside)
  rows := h.rows.after hOther hBeside
  phaseSeen := by
    have hSeen := h.phaseSeen
    cases phase with
    | persistReading lease page => exact ⟨hSeen.1, hSeen.2.after hOther hBeside⟩
    | persistWriting lease page writes => exact ⟨hSeen.1.after hOther hBeside, hSeen.2⟩
    | deleting lease => exact ⟨hSeen.1, hSeen.2.keeps (keeps_after hOther hBeside)⟩
    | _ => exact hSeen
  awaited lease wphase next hWaits := by
    rcases h.awaited lease wphase next hWaits with
      hDone | hFailing | ⟨page, st, st', hAwaits, hPhase, hNext, hPage⟩
    · exact Or.inl hDone
    · exact Or.inr (Or.inl hFailing)
    · refine Or.inr (Or.inr ⟨page, st, st', hAwaits, hPhase, hNext, hPage.imp_right ?_⟩)
      rintro ⟨hCommits, before, hRecorded⟩
      exact ⟨hCommits, before, hRecorded.after hOther hBeside⟩
  sole := h.sole

/-! ## After a commit or a rollback of its own -/

/-- A transaction without locks. -/
theorem CallSeen.of_fresh (hStored : Stored s) (hFresh : Fresh s) (hPhase : PhaseSeen s waits phase)
    (hAwaited : ∀ lease wphase next, waits lease wphase next →
      WaitSeen s waits phase lease wphase next)
    (hSole : ∀ lease wphase next lease' wphase' next', waits lease wphase next →
      waits lease' wphase' next' → lease = lease' ∧ wphase = wphase' ∧ next = next') :
    CallSeen s waits phase where
  stored := hStored
  jobs id _ hOwn := absurd ((hFresh.jobs id).symm.trans hOwn) nofun
  rows := .of_unlocked hFresh.messages
  phaseSeen := hPhase
  awaited := hAwaited
  sole := hSole

theorem fresh_commit : Fresh s.commit := ⟨fun _ => rfl, fun _ => rfl⟩

theorem fresh_rollback : Fresh s.rollback := ⟨fun _ => rfl, fun _ => rfl⟩

/-- A call that is over, and nobody waits for. -/
theorem CallSeen.returned (hStored : Stored s) (hFresh : Fresh s)
    (hNone : ∀ lease wphase next, ¬ waits lease wphase next) : CallSeen s waits .returned :=
  .of_fresh hStored hFresh hFresh (fun _ _ _ hWaits => absurd hWaits (hNone _ _ _))
    fun _ _ _ _ _ _ hWaits => absurd hWaits (hNone _ _ _)

/-- A call goes on after its commit; if it returns, nobody waits any more. -/
theorem CallSeen.commit (h : CallSeen s waits phase) (hGoesOn : CallGoesOn phase phase')
    (hWaits : phase' ≠ .returned → waits' = waits)
    (hReturned : phase' = .returned → ∀ lease wphase next, ¬ waits' lease wphase next) :
    CallSeen s.commit waits' phase' := by
  have hStored := h.commitOk.stored
  -- the calls that go on have no page
  have hGoing (hOpen : ∀ lease page, phase.page ≠ some (lease, page))
      (hCommits : phase ≠ .committing none) (hPhase : PhaseSeen s.commit waits phase') :
      CallSeen s.commit waits phase' := by
    refine .of_fresh hStored fresh_commit hPhase (fun lease wphase next hWait => ?_) h.sole
    rcases h.awaited lease wphase next hWait with
      hDone | hFailing | ⟨page, -, -, -, -, -, hPage | ⟨hCommitting, -⟩⟩
    · exact Or.inl hDone
    · exact Or.inr (Or.inl hFailing)
    · exact absurd hPage (hOpen lease page)
    · exact absurd hCommitting hCommits
  cases hGoesOn with
  | returns => exact .returned hStored fresh_commit (hReturned rfl)
  | unclaimed => exact .returned hStored fresh_commit (hReturned rfl)
  | starts request =>
      rw [hWaits nofun]
      exact hGoing nofun nofun fresh_commit
  | claimed begun jobId owner =>
      rw [hWaits nofun]
      exact hGoing nofun nofun fresh_commit

end Commits

end SavedOrganizer
