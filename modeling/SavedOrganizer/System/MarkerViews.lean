import SavedOrganizer.Service.MarkerStatements

/-!
# What a transaction sees of jobs and markers

The invariant behind the replacement markers, in terms of what one transaction sees
(`MarkerView`): every committed marker is `LiveFor` its message, every own version of a job
follows the committed one, and an own marker is the committed one or comes from a page that
holds the connection and the job (`Marking`). A transaction that has ended jobs is `Settled`
when it sees no markers of them. Its commit then leaves only live markers
(`ViewOk.commit_live`), and keeps what every other transaction relies on (`ViewOk.after`).
-/

namespace SavedOrganizer

/-- What one transaction sees. -/
structure MarkerView where
  connections : Seen UserId TelegramConnection
  jobs : Seen JobId ScanJob
  messages : Seen MessageKey Marker

namespace MarkerView

def commit (s : MarkerView) : MarkerView :=
  ⟨s.connections.commit, s.jobs.commit, s.messages.commit⟩

def rollback (s : MarkerView) : MarkerView :=
  ⟨s.connections.rollback, s.jobs.rollback, s.messages.rollback⟩

def after (s other : MarkerView) : MarkerView :=
  ⟨s.connections.after other.connections, s.jobs.after other.jobs,
    s.messages.after other.messages⟩

/-- The transaction has no lock. -/
structure Unlocked (s : MarkerView) : Prop where
  connections : s.connections.Unlocked
  jobs : s.jobs.Unlocked
  messages : s.messages.Unlocked

/-- No message carries the marker of the job. -/
def Unmarked (s : MarkerView) (id : JobId) : Prop :=
  ∀ key, s.messages.view key ≠ some (some id)

/-- The transaction has ended the job. -/
def Ended (s : MarkerView) (id : JobId) : Prop :=
  ∃ job, s.jobs.own id = some (some job) ∧ job.state.active = false

/-- The jobs the transaction has ended have no markers, but for the one it is to clear. -/
def Settled (s : MarkerView) (uncleared : Option JobId) : Prop :=
  ∀ id, s.Ended id → uncleared = some id ∨ s.Unmarked id

end MarkerView

/-- The job admits markers on the message. -/
structure LiveFor (key : MessageKey) (job : ScanJob) : Prop where
  active : job.state.active = true
  replaceExisting : job.replaceExisting = true
  userId : job.userId = key.userId
  scanned : 0 < job.messagesScanned

def MarkersLive (jobs : JobId → Option ScanJob) (messages : MessageKey → Option Marker) : Prop :=
  ∀ key id, messages key = some (some id) → ∃ job, jobs id = some job ∧ LiveFor key job

/-- What every statement on a job keeps. -/
structure JobFollows (job job' : ScanJob) : Prop where
  id : job'.id = job.id
  userId : job'.userId = job.userId
  replaceExisting : job'.replaceExisting = job.replaceExisting
  telegramUserId : job'.telegramUserId = job.telegramUserId
  connectionGeneration : job'.connectionGeneration = job.connectionGeneration
  scanned : job.messagesScanned ≤ job'.messagesScanned
  active : job'.state.active = true → job.state.active = true

theorem JobFollows.refl (job : ScanJob) : JobFollows job job :=
  ⟨rfl, rfl, rfl, rfl, rfl, Nat.le_refl _, fun h => h⟩

theorem JobFollows.trans {job job' job'' : ScanJob} (h : JobFollows job job')
    (h' : JobFollows job' job'') : JobFollows job job'' :=
  ⟨h'.id.trans h.id, h'.userId.trans h.userId, h'.replaceExisting.trans h.replaceExisting,
    h'.telegramUserId.trans h.telegramUserId,
    h'.connectionGeneration.trans h.connectionGeneration,
    Nat.le_trans h.scanned h'.scanned, fun hActive => h.active (h'.active hActive)⟩

/-- A transaction's version of a job follows the committed one, or the transaction has added
the job, with the connection of its user locked. -/
inductive OwnJob (s : MarkerView) (id : JobId) (job : ScanJob) : Prop
  | follows (before : ScanJob) (hCommitted : s.jobs.committed id = some before)
      (hFollows : JobFollows before job)
  | added (hCommitted : s.jobs.committed id = none)
      (hConnection : s.connections.own job.userId ≠ none)

/-- The transaction is persisting a page of the job, whose messages are counted by now or
(`marks`) will be. -/
structure Marking (s : MarkerView) (marks : JobId → Prop) (key : MessageKey) (id : JobId) :
    Prop where
  connection : s.connections.own key.userId ≠ none
  held : ∃ before job, s.jobs.committed id = some before ∧ s.jobs.own id = some (some job) ∧
    job.replaceExisting = true ∧ job.userId = key.userId ∧
      (before.messagesScanned < job.messagesScanned ∨ marks id)

structure ViewOk (s : MarkerView) (marks : JobId → Prop) : Prop where
  live : MarkersLive s.jobs.committed s.messages.committed
  jobId : ∀ id job, s.jobs.committed id = some job → job.id = id
  connections : ∀ userId, s.connections.own userId ≠ none →
    s.connections.committed userId ≠ none
  jobs : ∀ id own, s.jobs.own id = some own → ∃ job, own = some job ∧ job.id = id ∧ OwnJob s id job
  markers : ∀ key id, s.messages.own key = some (some (some id)) →
    s.messages.committed key = some (some id) ∨ Marking s marks key id

/-! ## What is seen -/

section Views

variable {s : MarkerView} {marks : JobId → Prop} {id : JobId} {key : MessageKey} {job : ScanJob}

theorem ViewOk.of_unlocked (hLive : MarkersLive s.jobs.committed s.messages.committed)
    (hId : ∀ id job, s.jobs.committed id = some job → job.id = id) (hUnlocked : s.Unlocked) :
    ViewOk s marks where
  live := hLive
  jobId := hId
  connections userId hOwn := absurd (hUnlocked.connections userId) hOwn
  jobs id _ hOwn := absurd ((hUnlocked.jobs id).symm.trans hOwn) nofun
  markers key _ hOwn := absurd ((hUnlocked.messages key).symm.trans hOwn) nofun

/-- A job keeps its id. -/
theorem ViewOk.view_id (h : ViewOk s marks) (hView : s.jobs.view id = some job) : job.id = id := by
  cases hOwn : s.jobs.own id with
  | none => exact h.jobId id job (Seen.view_of_none hOwn ▸ hView)
  | some own =>
      obtain ⟨job', rfl, hId, -⟩ := h.jobs id own hOwn
      obtain rfl := Option.some.inj ((Seen.view_of_own hOwn).symm.trans hView)
      exact hId

/-- A committed job is still there for the transaction. -/
theorem ViewOk.view_of_committed (h : ViewOk s marks) (hCommitted : s.jobs.committed id = some job) :
    ∃ job', s.jobs.view id = some job' ∧ JobFollows job job' := by
  cases hOwn : s.jobs.own id with
  | none => exact ⟨job, (Seen.view_of_none hOwn).trans hCommitted, .refl job⟩
  | some own =>
      obtain ⟨job', rfl, -, hJob⟩ := h.jobs id own hOwn
      cases hJob with
      | follows before hBefore hFollows =>
          obtain rfl := Option.some.inj (hCommitted.symm.trans hBefore)
          exact ⟨job', Seen.view_of_own hOwn, hFollows⟩
      | added hNone => exact absurd (hCommitted.symm.trans hNone) (Option.some_ne_none job)

/-- A marker that is seen is committed, or of a page of this transaction. -/
theorem ViewOk.of_view (h : ViewOk s marks) (hView : s.messages.view key = some (some id)) :
    s.messages.committed key = some (some id) ∨ Marking s marks key id := by
  cases hOwn : s.messages.own key with
  | none => exact Or.inl (Seen.view_of_none hOwn ▸ hView)
  | some own =>
      rw [Seen.view_of_own hOwn] at hView
      exact h.markers key id (hView ▸ hOwn)

/-- A marker that is seen names a replacement of the message's user. -/
theorem ViewOk.marked_job (h : ViewOk s marks) (hView : s.messages.view key = some (some id)) :
    ∃ job, s.jobs.view id = some job ∧ job.replaceExisting = true ∧ job.userId = key.userId := by
  rcases h.of_view hView with hCommitted | hMarking
  · obtain ⟨job, hJob, hLive⟩ := h.live key id hCommitted
    obtain ⟨job', hJob', hFollows⟩ := h.view_of_committed hJob
    exact ⟨job', hJob', hFollows.replaceExisting.trans hLive.replaceExisting,
      hFollows.userId.trans hLive.userId⟩
  · obtain ⟨-, job, -, hOwn, hReplace, hUser, -⟩ := hMarking.held
    exact ⟨job, Seen.view_of_own hOwn, hReplace, hUser⟩

theorem ViewOk.unmarked_of_not_replacement (h : ViewOk s marks)
    (hView : s.jobs.view id = some job) (hNot : job.replaceExisting = false) : s.Unmarked id := by
  intro key hMarked
  obtain ⟨job', hJob', hReplace, -⟩ := h.marked_job hMarked
  obtain rfl := Option.some.inj (hView.symm.trans hJob')
  exact Bool.false_ne_true (hNot.symm.trans hReplace)

/-- A job that has no message scanned has no markers. -/
theorem ViewOk.unmarked_of_unscanned (h : ViewOk s marks) (hOwn : s.jobs.own id = none)
    (hCommitted : s.jobs.committed id = some job) (hScanned : job.messagesScanned = 0) :
    s.Unmarked id := by
  intro key hMarked
  rcases h.of_view hMarked with hMarked | hMarking
  · obtain ⟨job', hJob', hLive⟩ := h.live key id hMarked
    obtain rfl := Option.some.inj (hCommitted.symm.trans hJob')
    exact absurd hScanned (Nat.ne_of_gt hLive.scanned)
  · obtain ⟨-, job', -, hHeld, -⟩ := hMarking.held
    exact absurd (hOwn.symm.trans hHeld) nofun

/-- The commit of a settled transaction leaves live markers only. -/
theorem ViewOk.commit_live (h : ViewOk s fun _ => False) (hSettled : s.Settled none) :
    MarkersLive s.jobs.view s.messages.view := by
  intro key id hMarked
  have hActive {job : ScanJob} (hOwn : s.jobs.own id = some (some job)) :
      job.state.active = true := by
    by_contra hEnd
    rcases hSettled id ⟨job, hOwn, (Bool.not_eq_true _).mp hEnd⟩ with hNone | hUnmarked
    · cases hNone
    · exact hUnmarked key hMarked
  rcases h.of_view hMarked with hCommitted | hMarking
  · obtain ⟨job, hJob, hLive⟩ := h.live key id hCommitted
    cases hOwn : s.jobs.own id with
    | none => exact ⟨job, (Seen.view_of_none hOwn).trans hJob, hLive⟩
    | some own =>
        obtain ⟨job', hJob', hFollows⟩ := h.view_of_committed hJob
        obtain rfl := (Seen.view_of_own hOwn).symm.trans hJob'
        exact ⟨job', hJob', hActive hOwn, hFollows.replaceExisting.trans hLive.replaceExisting,
          hFollows.userId.trans hLive.userId, Nat.lt_of_lt_of_le hLive.scanned hFollows.scanned⟩
  · obtain ⟨before, job, -, hOwn, hReplace, hUser, hScanned | hMarks⟩ := hMarking.held
    · exact ⟨job, Seen.view_of_own hOwn, hActive hOwn, hReplace, hUser,
        Nat.lt_of_le_of_lt (Nat.zero_le _) hScanned⟩
    · cases hMarks

theorem ViewOk.commit (h : ViewOk s fun _ => False) (hSettled : s.Settled none) :
    ViewOk s.commit marks :=
  .of_unlocked (h.commit_live hSettled) (fun _ _ hView => h.view_id hView)
    ⟨fun _ => rfl, fun _ => rfl, fun _ => rfl⟩

theorem ViewOk.rollback {marks' : JobId → Prop} (h : ViewOk s marks) : ViewOk s.rollback marks' :=
  .of_unlocked h.live h.jobId ⟨fun _ => rfl, fun _ => rfl, fun _ => rfl⟩

end Views

/-! ## A statement of the transaction -/

section Statements

variable {s : MarkerView} {marks : JobId → Prop} {id : JobId} {key : MessageKey} {job : ScanJob}
  {uncleared : Option JobId}

/-- Connections are written or locked. -/
theorem ViewOk.connections_write (h : ViewOk s marks) (p : UserId → TelegramConnection → Bool)
    (f : TelegramConnection → Option TelegramConnection) :
    ViewOk { s with connections := s.connections.write p f } marks where
  live := h.live
  jobId := h.jobId
  connections userId hOwn := by
    obtain ⟨own, hOwn⟩ := Option.ne_none_iff_exists'.mp hOwn
    rcases Seen.own_write_eq_some hOwn with hOld | ⟨c, hView, -, -⟩
    · exact h.connections userId (hOld ▸ Option.some_ne_none own)
    · cases hOld : s.connections.own userId with
      | none =>
          rw [Seen.view_of_none hOld] at hView
          exact hView ▸ Option.some_ne_none c
      | some own => exact h.connections userId (hOld ▸ Option.some_ne_none own)
  jobs id own hOwn := by
    obtain ⟨job, hJob, hId, hOwnJob⟩ := h.jobs id own hOwn
    refine ⟨job, hJob, hId, ?_⟩
    cases hOwnJob with
    | follows before hBefore hFollows => exact .follows before hBefore hFollows
    | added hNone hConnection => exact .added hNone (Seen.own_write_ne_none hConnection)
  markers key id hOwn :=
    (h.markers key id hOwn).imp_right fun hMarking =>
      ⟨Seen.own_write_ne_none hMarking.connection, hMarking.held⟩

/-- Messages are written: a marker stays, or is of a page. -/
theorem ViewOk.messages_rewrite (h : ViewOk s marks) {p : MessageKey → Marker → Bool}
    {f : Marker → Option Marker}
    (hf : ∀ key marker id, p key marker = true → f marker = some (some id) →
      marker = some id ∨ Marking s marks key id) :
    ViewOk { s with messages := s.messages.write p f } marks where
  live := h.live
  jobId := h.jobId
  connections := h.connections
  jobs id own hOwn := by
    obtain ⟨job, hJob, hId, hOwnJob⟩ := h.jobs id own hOwn
    refine ⟨job, hJob, hId, ?_⟩
    cases hOwnJob with
    | follows before hBefore hFollows => exact .follows before hBefore hFollows
    | added hNone hConnection => exact .added hNone hConnection
  markers key id hOwn := by
    have hOld : s.messages.committed key = some (some id) ∨ Marking s marks key id := by
      rcases Seen.own_write_eq_some hOwn with hOld | ⟨marker, hView, hp, hNew⟩
      · exact h.markers key id hOld
      · rcases hf key marker id hp hNew.symm with rfl | hMarking
        · exact h.of_view hView
        · exact Or.inr hMarking
    exact hOld.imp_right fun hMarking => ⟨hMarking.connection, hMarking.held⟩

/-- Markers are cleared, or messages deleted. -/
theorem ViewOk.messages_write (h : ViewOk s marks) (p : MessageKey → Marker → Bool)
    {f : Marker → Option Marker} (hf : ∀ marker id, f marker ≠ some (some id)) :
    ViewOk { s with messages := s.messages.write p f } marks :=
  h.messages_rewrite fun _ marker id _ hNew => absurd hNew (hf marker id)

/-- A message is added with the marker of a page. -/
theorem ViewOk.messages_insert (h : ViewOk s marks) {marker : Marker}
    (hMarker : ∀ id, marker = some id → Marking s marks key id) :
    ViewOk { s with messages := s.messages.insert key marker } marks where
  live := h.live
  jobId := h.jobId
  connections := h.connections
  jobs id own hOwn := by
    obtain ⟨job, hJob, hId, hOwnJob⟩ := h.jobs id own hOwn
    refine ⟨job, hJob, hId, ?_⟩
    cases hOwnJob with
    | follows before hBefore hFollows => exact .follows before hBefore hFollows
    | added hNone hConnection => exact .added hNone hConnection
  markers key' id hOwn := by
    have hOld : s.messages.committed key' = some (some id) ∨ Marking s marks key' id := by
      dsimp only [Seen.insert] at hOwn
      rw [Function.update_apply] at hOwn
      split at hOwn
      · rename_i hKey
        cases hOwn
        exact hKey ▸ Or.inr (hMarker id rfl)
      · exact h.markers key' id hOwn
    exact hOld.imp_right fun hMarking => ⟨hMarking.connection, hMarking.held⟩

/-- A job is added, with the connection of its user locked. -/
theorem ViewOk.jobs_insert (h : ViewOk s marks) (hNew : s.jobs.view job.id = none)
    (hConnection : s.connections.own job.userId ≠ none) :
    ViewOk { s with jobs := s.jobs.insert job.id job } marks := by
  have hNoOwn : s.jobs.own job.id = none := by
    by_contra hOwn
    obtain ⟨own, hOwn⟩ := Option.ne_none_iff_exists'.mp hOwn
    obtain ⟨job', rfl, -, -⟩ := h.jobs job.id own hOwn
    rw [Seen.view_of_own hOwn] at hNew
    cases hNew
  have hNone : s.jobs.committed job.id = none := (Seen.view_of_none hNoOwn).symm.trans hNew
  refine ⟨h.live, h.jobId, h.connections, fun id own hOwn => ?_, fun key id hOwn => ?_⟩
  · dsimp only [Seen.insert] at hOwn
    rw [Function.update_apply] at hOwn
    split at hOwn
    · rename_i hId
      cases hOwn
      exact ⟨job, rfl, hId.symm, .added (hId ▸ hNone) hConnection⟩
    · obtain ⟨job', hJob, hId, hOwnJob⟩ := h.jobs id own hOwn
      refine ⟨job', hJob, hId, ?_⟩
      cases hOwnJob with
      | follows before hBefore hFollows => exact .follows before hBefore hFollows
      | added hNone hConnection => exact .added hNone hConnection
  · refine (h.markers key id hOwn).imp_right fun hMarking => ⟨hMarking.connection, ?_⟩
    obtain ⟨before, held, hBefore, hOwn, hRest⟩ := hMarking.held
    refine ⟨before, held, hBefore, ?_, hRest⟩
    dsimp only [Seen.insert]
    rw [Function.update_of_ne ?_]
    · exact hOwn
    · rintro rfl
      exact absurd (hNone.symm.trans hBefore) nofun

theorem ViewOk.mono {marks' : JobId → Prop} (h : ViewOk s marks)
    (hMarks : ∀ id, marks id → marks' id) : ViewOk s marks' where
  live := h.live
  jobId := h.jobId
  connections := h.connections
  jobs := h.jobs
  markers key id hOwn := by
    refine (h.markers key id hOwn).imp_right fun hMarking => ⟨hMarking.connection, ?_⟩
    obtain ⟨before, job, hBefore, hHeld, hReplace, hUser, hCount⟩ := hMarking.held
    exact ⟨before, job, hBefore, hHeld, hReplace, hUser, hCount.imp_right (hMarks id)⟩

theorem MarkerView.Unmarked.messages_write (h : s.Unmarked id) (p : MessageKey → Marker → Bool)
    {f : Marker → Option Marker} (hf : ∀ marker id, f marker ≠ some (some id)) :
    MarkerView.Unmarked { s with messages := s.messages.write p f } id := by
  intro key hMarked
  rcases Seen.view_write_eq_some hMarked with ⟨hOld, -⟩ | ⟨marker, -, -, hNew⟩
  · exact h key hOld
  · exact hf marker id hNew

/-- The statement reaches every marker of the job. -/
theorem MarkerView.unmarked_messages_write {p : MessageKey → Marker → Bool}
    {f : Marker → Option Marker} (hf : ∀ marker id, f marker ≠ some (some id))
    (hAll : ∀ key, s.messages.view key = some (some id) → p key (some id) = true) :
    MarkerView.Unmarked { s with messages := s.messages.write p f } id := by
  intro key hMarked
  rcases Seen.view_write_eq_some hMarked with ⟨hOld, hNot⟩ | ⟨marker, -, -, hNew⟩
  · exact Bool.false_ne_true (hNot.symm.trans (hAll key hOld))
  · exact hf marker id hNew

theorem MarkerView.Settled.messages_write (h : s.Settled uncleared)
    (p : MessageKey → Marker → Bool) {f : Marker → Option Marker}
    (hf : ∀ marker id, f marker ≠ some (some id)) :
    MarkerView.Settled { s with messages := s.messages.write p f } uncleared :=
  fun id hEnded => (h id hEnded).imp_right fun hUnmarked => hUnmarked.messages_write p hf

/-- The version of a job after an `UPDATE` follows the one before. -/
theorem own_update_follows {p : ScanJob → Bool} {f : ScanJob → ScanJob}
    (hFollows : ∀ id job, s.jobs.view id = some job → p job = true → JobFollows job (f job))
    (hOwn : s.jobs.own id = some (some job)) :
    ∃ job', (s.jobs.write (fun _ => p) fun job => some (f job)).own id = some (some job') ∧
      JobFollows job job' := by
  have hView : s.jobs.view id = some job := Seen.view_of_own hOwn
  by_cases hp : p job = true
  · exact ⟨f job, Seen.own_write_of_match hView hp, hFollows id job hView hp⟩
  · refine ⟨job, ?_, .refl job⟩
    rw [Seen.own_write_of_ne fun job' hJob' => ?_]
    · exact hOwn
    · obtain rfl := Option.some.inj (hView.symm.trans hJob')
      exact (Bool.not_eq_true _).mp hp

/-- Jobs are updated. What a page has marked stays counted, or is counted by now. -/
theorem ViewOk.jobs_update {marks' : JobId → Prop} (h : ViewOk s marks) {p : ScanJob → Bool}
    {f : ScanJob → ScanJob}
    (hFollows : ∀ id job, s.jobs.view id = some job → p job = true → JobFollows job (f job))
    (hCounts : ∀ id, marks id → marks' id ∨ ∀ job, s.jobs.own id = some (some job) →
      p job = true ∧ job.messagesScanned < (f job).messagesScanned) :
    ViewOk { s with jobs := s.jobs.write (fun _ => p) fun job => some (f job) } marks' where
  live := h.live
  jobId := h.jobId
  connections := h.connections
  jobs id own hOwn := by
    rcases Seen.own_write_eq_some hOwn with hOld | ⟨job, hView, hp, rfl⟩
    · obtain ⟨job, hJob, hId, hOwnJob⟩ := h.jobs id own hOld
      refine ⟨job, hJob, hId, ?_⟩
      cases hOwnJob with
      | follows before hBefore hFollows => exact .follows before hBefore hFollows
      | added hNone hConnection => exact .added hNone hConnection
    · have hNew : JobFollows job (f job) := hFollows id job hView hp
      refine ⟨f job, rfl, hNew.id.trans (h.view_id hView), ?_⟩
      cases hOld : s.jobs.own id with
      | none => exact .follows job (Seen.view_of_none hOld ▸ hView) hNew
      | some own =>
          obtain ⟨job', rfl, -, hOwnJob⟩ := h.jobs id own hOld
          obtain rfl := Option.some.inj ((Seen.view_of_own hOld).symm.trans hView)
          cases hOwnJob with
          | follows before hBefore hFollows =>
              exact .follows before hBefore (hFollows.trans hNew)
          | added hNone hConnection => exact .added hNone (hNew.userId ▸ hConnection)
  markers key id hOwn := by
    refine (h.markers key id hOwn).imp_right fun hMarking => ⟨hMarking.connection, ?_⟩
    obtain ⟨before, job, hBefore, hOwn, hReplace, hUser, hCount⟩ := hMarking.held
    obtain ⟨job', hOwn', hNew⟩ := own_update_follows hFollows hOwn
    refine ⟨before, job', hBefore, hOwn', hNew.replaceExisting.trans hReplace,
      hNew.userId.trans hUser, ?_⟩
    rcases hCount with hCounted | hMarks
    · exact Or.inl (Nat.lt_of_lt_of_le hCounted hNew.scanned)
    · rcases hCounts id hMarks with hMarks' | hCounted
      · exact Or.inr hMarks'
      · obtain ⟨hp, hLt⟩ := hCounted job hOwn
        rw [Seen.own_write_of_match (Seen.view_of_own hOwn) hp] at hOwn'
        obtain rfl := Option.some.inj (Option.some.inj hOwn')
        obtain ⟨job'', hJob'', -, hOwnJob⟩ := h.jobs id _ hOwn
        obtain rfl := Option.some.inj hJob''
        cases hOwnJob with
        | follows before' hBefore' hFollows' =>
            obtain rfl := Option.some.inj (hBefore.symm.trans hBefore')
            exact Or.inl (Nat.lt_of_le_of_lt hFollows'.scanned hLt)
        | added hNone => exact absurd (hBefore.symm.trans hNone) (Option.some_ne_none _)

theorem ViewOk.jobs_update_same (h : ViewOk s marks) {p : ScanJob → Bool} {f : ScanJob → ScanJob}
    (hFollows : ∀ id job, s.jobs.view id = some job → p job = true → JobFollows job (f job)) :
    ViewOk { s with jobs := s.jobs.write (fun _ => p) fun job => some (f job) } marks :=
  h.jobs_update hFollows fun _ hMarks => Or.inl hMarks

/-- A job is ended by this `UPDATE`, or was before. -/
theorem MarkerView.Ended.of_update {p : ScanJob → Bool} {f : ScanJob → ScanJob}
    (h : MarkerView.Ended { s with jobs := s.jobs.write (fun _ => p) fun job => some (f job) } id) :
    s.Ended id ∨ ∃ job, s.jobs.view id = some job ∧ p job = true ∧
      (f job).state.active = false := by
  obtain ⟨job', hOwn, hEnd⟩ := h
  rcases Seen.own_write_eq_some hOwn with hOld | ⟨job, hView, hp, hNew⟩
  · exact Or.inl ⟨job', hOld, hEnd⟩
  · cases hNew
    exact Or.inr ⟨job, hView, hp, hEnd⟩

theorem MarkerView.Settled.update (h : s.Settled uncleared) {p : ScanJob → Bool}
    {f : ScanJob → ScanJob}
    (hEnds : ∀ id job, s.jobs.view id = some job → p job = true →
      (f job).state.active = false → uncleared = some id ∨ s.Unmarked id) :
    MarkerView.Settled { s with jobs := s.jobs.write (fun _ => p) fun job => some (f job) }
      uncleared := by
  intro id hEnded
  rcases hEnded.of_update with hOld | ⟨job, hView, hp, hEnd⟩
  · exact h id hOld
  · exact hEnds id job hView hp hEnd

/-- A transaction without a job has ended none. -/
theorem MarkerView.settled_of_unlocked (h : s.jobs.Unlocked) : s.Settled uncleared := by
  rintro id ⟨job, hOwn, -⟩
  exact absurd ((h id).symm.trans hOwn) nofun

end Statements

/-! ## A commit beside the transaction -/

/-- Two transactions see the same committed rows, and have locked different ones. -/
structure Beside (s other : MarkerView) : Prop where
  connections_committed : s.connections.committed = other.connections.committed
  jobs_committed : s.jobs.committed = other.jobs.committed
  messages_committed : s.messages.committed = other.messages.committed
  connections : ∀ userId, other.connections.own userId ≠ none → s.connections.own userId = none
  jobs : ∀ id, other.jobs.own id ≠ none → s.jobs.own id = none
  messages : ∀ key, other.messages.own key ≠ none → s.messages.own key = none

/-- The commit of this transaction counts new messages of the job. -/
def MarkerView.Counts (s : MarkerView) (id : JobId) : Prop :=
  ∃ before job, s.jobs.committed id = some before ∧ s.jobs.own id = some (some job) ∧
    before.messagesScanned < job.messagesScanned ∧ s.connections.own job.userId ≠ none

/-- The job is there, with these columns, which never change. -/
def MarkerView.Known (s : MarkerView) (id : JobId) (userId : UserId) (replaceExisting : Bool) :
    Prop :=
  ∃ job, s.jobs.committed id = some job ∧ job.userId = userId ∧
    job.replaceExisting = replaceExisting

section Beside

variable {s other : MarkerView} {marks : JobId → Prop} {id : JobId} {key : MessageKey}
  {job : ScanJob} {uncleared : Option JobId}

/-- The markers of a job that the other transaction does not count stay cleared. -/
theorem MarkerView.Unmarked.after (h : s.Unmarked id) (hBeside : Beside s other)
    (hOther : ViewOk other fun _ => False) :
    (s.after other).Unmarked id ∨ other.Counts id := by
  by_cases hCounts : other.Counts id
  · exact Or.inr hCounts
  · refine Or.inl fun key hMarked => ?_
    cases hOwn : s.messages.own key with
    | some own =>
        have hView : (s.after other).messages.view key = s.messages.view key :=
          (Seen.view_of_own (s := (s.after other).messages) hOwn).trans (Seen.view_of_own hOwn).symm
        exact h key (hView ▸ hMarked)
    | none =>
        have hView : other.messages.view key = some (some id) :=
          (Seen.view_of_none (s := (s.after other).messages) hOwn).symm.trans hMarked
        rcases hOther.of_view hView with hCommitted | hMarking
        · refine h key ((Seen.view_of_none hOwn).trans ?_)
          rw [hBeside.messages_committed]
          exact hCommitted
        · obtain ⟨before, job, hBefore, hHeld, -, hUser, hCount⟩ := hMarking.held
          exact hCounts ⟨before, job, hBefore, hHeld, hCount.resolve_right not_false,
            hUser ▸ hMarking.connection⟩

theorem MarkerView.Settled.after (h : s.Settled uncleared) (hBeside : Beside s other)
    (hOther : ViewOk other fun _ => False) : (s.after other).Settled uncleared := by
  intro id hEnded
  have hOld : s.Ended id := hEnded
  refine (h id hOld).imp_right fun hUnmarked => ?_
  rcases hUnmarked.after hBeside hOther with hUnmarked | hCounts
  · exact hUnmarked
  · obtain ⟨job, hOwn, -⟩ := hOld
    obtain ⟨-, job', -, hHeld, -⟩ := hCounts
    have hFree := hBeside.jobs id (hHeld ▸ Option.some_ne_none _)
    exact absurd (hFree.symm.trans hOwn) nofun

/-- A committed job follows the one from before the commit. -/
theorem MarkerView.committed_after_follows (hBeside : Beside s other)
    (hOther : ViewOk other fun _ => False) (h : s.jobs.committed id = some job) :
    ∃ job', (s.after other).jobs.committed id = some job' ∧ JobFollows job job' :=
  hOther.view_of_committed (hBeside.jobs_committed ▸ h)

theorem MarkerView.Known.after {userId : UserId} {replaceExisting : Bool}
    (h : s.Known id userId replaceExisting) (hBeside : Beside s other)
    (hOther : ViewOk other fun _ => False) : (s.after other).Known id userId replaceExisting := by
  obtain ⟨job, hJob, hUser, hReplace⟩ := h
  obtain ⟨job', hJob', hFollows⟩ := committed_after_follows hBeside hOther hJob
  exact ⟨job', hJob', hFollows.userId.trans hUser, hFollows.replaceExisting.trans hReplace⟩

theorem ViewOk.after (h : ViewOk s marks) (hBeside : Beside s other)
    (hOther : ViewOk other fun _ => False) (hSettled : other.Settled none) :
    ViewOk (s.after other) marks where
  live := hOther.commit_live hSettled
  jobId _ _ hView := hOther.view_id hView
  connections userId hOwn := by
    rw [MarkerView.after,
      Seen.committed_after hBeside.connections_committed hBeside.connections hOwn]
    exact h.connections userId hOwn
  jobs id own hOwn := by
    obtain ⟨job, hJob, hId, hOwnJob⟩ := h.jobs id own hOwn
    have hSame : (s.after other).jobs.committed id = s.jobs.committed id :=
      Seen.committed_after hBeside.jobs_committed hBeside.jobs
        ((show s.jobs.own id = some own from hOwn) ▸ Option.some_ne_none own)
    refine ⟨job, hJob, hId, ?_⟩
    cases hOwnJob with
    | follows before hBefore hFollows => exact .follows before (hSame.trans hBefore) hFollows
    | added hNone hConnection => exact .added (hSame.trans hNone) hConnection
  markers key id hOwn := by
    have hSame : (s.after other).messages.committed key = s.messages.committed key :=
      Seen.committed_after hBeside.messages_committed hBeside.messages
        ((show s.messages.own key = _ from hOwn) ▸ Option.some_ne_none _)
    rw [hSame]
    refine (h.markers key id hOwn).imp_right fun hMarking => ⟨hMarking.connection, ?_⟩
    obtain ⟨before, job, hBefore, hHeld, hRest⟩ := hMarking.held
    refine ⟨before, job, ?_, hHeld, hRest⟩
    rw [← hBefore]
    exact Seen.committed_after hBeside.jobs_committed hBeside.jobs (hHeld ▸ Option.some_ne_none _)

end Beside

end SavedOrganizer
