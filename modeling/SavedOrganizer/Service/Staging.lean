import SavedOrganizer.Messages.Edits
import SavedOrganizer.Service.Persist

/-!
# What persisting a page does to the library

A stored message of the page is refreshed in place, a new one is added, and under a
replacement both carry the job's marker afterwards (`persistScanPage_marks`). Every other
row stays, and no row is doubled (`StagedFrom`). The induction is over the messages of the
page; what makes it go through is that the rows of the lease's account in the session are
the stored ones and those the page itself has added.
-/

namespace SavedOrganizer

open Python

/-- `m'` is the row `m`, refreshed by the lease's scan or not. -/
structure Refreshes (lease : ScanLease) (m m' : Message) : Prop where
  same : SameMessage m m'
  categoryId : m'.categoryId = m.categoryId
  marker : m'.lastSeenReplacementJobId = m.lastSeenReplacementJobId ∨
    lease.ownsMessage m = true ∧ lease.replaceExisting = true ∧
      m'.lastSeenReplacementJobId = some lease.jobId

theorem Refreshes.refl (lease : ScanLease) (m : Message) : Refreshes lease m m :=
  ⟨.refl m, rfl, Or.inl rfl⟩

/-- The rows with this Telegram id carry the marker of the lease's job. -/
def Marks (lease : ScanLease) (db : Database) (telegramId : TelegramId) : Prop :=
  ∀ m ∈ db.messages, lease.ownsMessage m = true → m.telegramId = telegramId →
    m.lastSeenReplacementJobId = some lease.jobId

/-- The session holds the rows of `db`, refreshed or not, and the rows the page has added. -/
structure StagedFrom (lease : ScanLease) (db : Database) (staged : Staged) : Prop where
  forward : ∀ m ∈ db.messages, ∃ m' ∈ staged.db.messages, Refreshes lease m m'
  backward : ∀ m' ∈ staged.db.messages, (∃ m ∈ db.messages, Refreshes lease m m') ∨
    lease.ownsMessage m' = true ∧ m'.telegramId ∈ staged.seen ∧
      (lease.replaceExisting = true → m'.lastSeenReplacementJobId = some lease.jobId)
  added : ∀ n ∈ staged.seen, db.storedMessage lease n = none
  unique : staged.db.SourcesUnique

section

variable {py : Runtime} {lease : ScanLease} {db : Database} {m m' : Message}

theorem ownsMessage_iff : lease.ownsMessage m = true ↔
    m.userId = lease.userId ∧ m.telegramUserId = some lease.telegramUserId := by
  rw [ScanLease.ownsMessage, Bool.and_eq_true, beq_iff_eq, beq_iff_eq]

theorem SameMessage.ownsMessage (h : SameMessage m m') :
    lease.ownsMessage m' = lease.ownsMessage m := by
  rw [ScanLease.ownsMessage, ScanLease.ownsMessage, h.userId, h.telegramUserId]

theorem storedMessage_eq_some {n : TelegramId} (h : db.storedMessage lease n = some m) :
    m ∈ db.messages ∧ lease.ownsMessage m = true ∧ m.telegramId = n := by
  have hMem := List.mem_of_find?_eq_some h
  have hFound := List.find?_some h
  rw [Bool.and_eq_true, beq_iff_eq] at hFound
  exact ⟨List.mem_reverse.mp hMem, hFound⟩

theorem storedMessage_eq_none {n : TelegramId} (h : db.storedMessage lease n = none)
    (hm : m ∈ db.messages) (hOwns : lease.ownsMessage m = true) : m.telegramId ≠ n := by
  intro hId
  have hNot := List.find?_eq_none.mp h m (List.mem_reverse.mpr hm)
  rw [hOwns, hId, beq_self_eq_true] at hNot
  exact hNot rfl

/-- Two rows of the account with one Telegram id are one row. -/
theorem eq_of_source (hUnique : db.SourcesUnique) (hm : m ∈ db.messages) (hm' : m' ∈ db.messages)
    (hOwns : lease.ownsMessage m = true) (hOwns' : lease.ownsMessage m' = true)
    (hId : m.telegramId = m'.telegramId) : m = m' := by
  obtain ⟨hUser, hAccount⟩ := ownsMessage_iff.mp hOwns
  obtain ⟨hUser', hAccount'⟩ := ownsMessage_iff.mp hOwns'
  refine hUnique m hm m' hm' (hUser.trans hUser'.symm) (hAccount.trans hAccount'.symm) ?_ hId
  rw [hAccount]
  exact Option.some_ne_none _

theorem refreshMessage_same (scanned : ScannedMessage) :
    SameMessage m (refreshMessage lease scanned m) :=
  ⟨rfl, rfl, rfl, rfl⟩

/-- A row with the id of a stored row of the account, refreshed once more. -/
theorem Refreshes.refresh (h : Refreshes lease m m') (hOwns : lease.ownsMessage m = true)
    (scanned : ScannedMessage) : Refreshes lease m (refreshMessage lease scanned m') := by
  refine ⟨h.same.trans (refreshMessage_same scanned), h.categoryId, ?_⟩
  unfold refreshMessage
  dsimp only
  split
  · rename_i hReplace
    exact Or.inr ⟨hOwns, hReplace, rfl⟩
  · exact h.marker

theorem stagedFrom_start (hUnique : db.SourcesUnique) : StagedFrom lease db ⟨db, []⟩ where
  forward := fun m hm => ⟨m, hm, .refl lease m⟩
  backward := fun m hm => Or.inl ⟨m, hm, .refl lease m⟩
  added := fun _ hn => by cases hn
  unique := hUnique

variable {staged next : Staged} {scanned : ScannedMessage} {existing : Message}

/-- In the session a Telegram id the database does not know belongs to an added row. -/
theorem StagedFrom.not_mem_of_new (hInv : StagedFrom lease db staged)
    (hStored : db.storedMessage lease scanned.telegramId = none)
    (hSeen : scanned.telegramId ∉ staged.seen) (hm' : m' ∈ staged.db.messages)
    (hOwns : lease.ownsMessage m' = true) : m'.telegramId ≠ scanned.telegramId := by
  intro hId
  rcases hInv.backward m' hm' with ⟨m, hm, hRefreshes⟩ | ⟨-, hAdded, -⟩
  · have hOwnsOld : lease.ownsMessage m = true := by
      rw [← hRefreshes.same.ownsMessage]
      exact hOwns
    exact storedMessage_eq_none hStored hm hOwnsOld
      (hRefreshes.same.telegramId.symm.trans hId)
  · rw [hId] at hAdded
    exact hSeen hAdded

/-! ## Refreshing a stored row -/

theorem mem_refreshed : m ∈ (db.updateMessages (·.id == existing.id)
    (refreshMessage lease scanned)).messages ↔ ∃ r ∈ db.messages,
      (if r.id == existing.id then refreshMessage lease scanned r else r) = m :=
  @Table.mem_update Message MessageId _ db.messages (·.id == existing.id)
    (refreshMessage lease scanned) (fun _ => rfl) m

theorem stagedFrom_refresh (hInv : StagedFrom lease db staged)
    (hStored : db.storedMessage lease scanned.telegramId = some existing) :
    StagedFrom lease db { staged with
      db := staged.db.updateMessages (·.id == existing.id) (refreshMessage lease scanned) } := by
  obtain ⟨hExisting, hOwns, -⟩ := storedMessage_eq_some hStored
  -- the row that is refreshed is `existing`
  have hRefreshed {r r' : Message} (hr : r ∈ db.messages) (h : Refreshes lease r r') :
      Refreshes lease r
        (if r'.id == existing.id then refreshMessage lease scanned r' else r') := by
    split
    · rename_i hId
      rw [beq_iff_eq, h.same.id] at hId
      obtain rfl : r = existing := Table.eq_of_key hr hExisting hId
      exact h.refresh hOwns scanned
    · exact h
  have hSame (r' : Message) : SameMessage r'
      (if r'.id == existing.id then refreshMessage lease scanned r' else r') := by
    split
    · exact refreshMessage_same scanned
    · exact .refl r'
  refine ⟨?_, ?_, hInv.added, ?_⟩
  · intro r hr
    obtain ⟨r', hr', hRefreshes⟩ := hInv.forward r hr
    exact ⟨_, mem_refreshed.mpr ⟨r', hr', rfl⟩, hRefreshed hr hRefreshes⟩
  · intro r'' hr''
    obtain ⟨r', hr', rfl⟩ := mem_refreshed.mp hr''
    rcases hInv.backward r' hr' with ⟨r, hr, hRefreshes⟩ | ⟨hOwnsRow, hAdded, hMarker⟩
    · exact Or.inl ⟨r, hr, hRefreshed hr hRefreshes⟩
    · refine Or.inr ⟨?_, ?_, ?_⟩
      · rw [(hSame r').ownsMessage]
        exact hOwnsRow
      · rw [(hSame r').telegramId]
        exact hAdded
      · intro hReplace
        split
        · unfold refreshMessage
          exact if_pos hReplace
        · exact hMarker hReplace
  · intro a ha b hb hUser hAccount hNe hId
    obtain ⟨a', ha', rfl⟩ := mem_refreshed.mp ha
    obtain ⟨b', hb', rfl⟩ := mem_refreshed.mp hb
    rw [(hSame a').userId, (hSame b').userId] at hUser
    rw [(hSame a').telegramUserId, (hSame b').telegramUserId] at hAccount
    rw [(hSame a').telegramUserId] at hNe
    rw [(hSame a').telegramId, (hSame b').telegramId] at hId
    rw [hInv.unique a' ha' b' hb' hUser hAccount hNe hId]

theorem marks_refresh (hInv : StagedFrom lease db staged)
    (hStored : db.storedMessage lease scanned.telegramId = some existing)
    (hReplace : lease.replaceExisting = true) :
    Marks lease (staged.db.updateMessages (·.id == existing.id) (refreshMessage lease scanned))
      scanned.telegramId := by
  obtain ⟨hExisting, hOwns, hId⟩ := storedMessage_eq_some hStored
  intro r hr hOwnsRow hIdRow
  obtain ⟨r', hr', rfl⟩ := mem_refreshed.mp hr
  obtain ⟨e, he, hRefreshes⟩ := hInv.forward existing hExisting
  have hSame : SameMessage r'
      (if r'.id == existing.id then refreshMessage lease scanned r' else r') := by
    split
    · exact refreshMessage_same scanned
    · exact .refl r'
  rw [hSame.ownsMessage] at hOwnsRow
  rw [hSame.telegramId] at hIdRow
  have hOwnsE : lease.ownsMessage e = true := by
    rw [hRefreshes.same.ownsMessage]
    exact hOwns
  have hIt : r' = e := eq_of_source hInv.unique hr' he hOwnsRow hOwnsE
    (hIdRow.trans (hRefreshes.same.telegramId.trans hId).symm)
  have hSelected : (r'.id == existing.id) = true := by
    rw [hIt, hRefreshes.same.id, beq_self_eq_true]
  rw [if_pos hSelected]
  unfold refreshMessage
  exact if_pos hReplace

/-! ## Adding a new row -/

theorem stagedFrom_insert {categoryId : CategoryId} (hInv : StagedFrom lease db staged)
    (hStored : db.storedMessage lease scanned.telegramId = none)
    (hSeen : scanned.telegramId ∉ staged.seen) :
    StagedFrom lease db
      { db := staged.db.insertMessage (newMessage lease scanned categoryId)
        seen := scanned.telegramId :: staged.seen } := by
  have hOwnsNew : lease.ownsMessage { newMessage lease scanned categoryId with
      id := staged.db.nextMessageId } = true := ownsMessage_iff.mpr ⟨rfl, rfl⟩
  have hNew {r : Message} (hr : r ∈ staged.db.messages)
      (hUser : r.userId = lease.userId) (hAccount : r.telegramUserId = some lease.telegramUserId) :
      r.telegramId ≠ scanned.telegramId :=
    hInv.not_mem_of_new hStored hSeen hr (ownsMessage_iff.mpr ⟨hUser, hAccount⟩)
  refine ⟨?_, ?_, ?_, ?_⟩
  · intro r hr
    obtain ⟨r', hr', hRefreshes⟩ := hInv.forward r hr
    exact ⟨r', Database.mem_insertMessage.mpr (Or.inl hr'), hRefreshes⟩
  · intro r' hr'
    rcases Database.mem_insertMessage.mp hr' with hr' | rfl
    · rcases hInv.backward r' hr' with hOld | ⟨hOwnsRow, hAdded, hMarker⟩
      · exact Or.inl hOld
      · exact Or.inr ⟨hOwnsRow, List.mem_cons_of_mem _ hAdded, hMarker⟩
    · refine Or.inr ⟨hOwnsNew, List.mem_cons_self, ?_⟩
      intro hReplace
      exact if_pos hReplace
  · intro n hn
    rcases List.mem_cons.mp hn with rfl | hn
    · exact hStored
    · exact hInv.added n hn
  · intro a ha b hb hUser hAccount hNe hId
    rcases Database.mem_insertMessage.mp ha with ha | rfl
    · rcases Database.mem_insertMessage.mp hb with hb | rfl
      · exact hInv.unique a ha b hb hUser hAccount hNe hId
      · exact absurd hId (hNew ha hUser hAccount)
    · rcases Database.mem_insertMessage.mp hb with hb | rfl
      · exact absurd hId.symm (hNew hb hUser.symm hAccount.symm)
      · rfl

theorem marks_insert {categoryId : CategoryId} (hInv : StagedFrom lease db staged)
    (hStored : db.storedMessage lease scanned.telegramId = none)
    (hSeen : scanned.telegramId ∉ staged.seen) (hReplace : lease.replaceExisting = true) :
    Marks lease (staged.db.insertMessage (newMessage lease scanned categoryId))
      scanned.telegramId := by
  intro r hr hOwnsRow hIdRow
  rcases Database.mem_insertMessage.mp hr with hr | rfl
  · exact absurd hIdRow (hInv.not_mem_of_new hStored hSeen hr hOwnsRow)
  · exact if_pos hReplace

/-! ## One message, a page, a transaction -/

theorem stageMessage_stagedFrom {categories : List (String × CategoryId)} {other : CategoryId}
    (hInv : StagedFrom lease db staged)
    (h : stageMessage py lease categories other (db.storedMessage lease) staged scanned =
      .ok next) : StagedFrom lease db next := by
  rcases stageMessage_eq_ok h with ⟨existing, hStored, rfl⟩ | ⟨categoryId, hStored, hSeen, rfl⟩
  · exact stagedFrom_refresh hInv hStored
  · exact stagedFrom_insert hInv hStored hSeen

theorem stageMessage_marks {categories : List (String × CategoryId)} {other : CategoryId}
    (hInv : StagedFrom lease db staged) (hReplace : lease.replaceExisting = true)
    (h : stageMessage py lease categories other (db.storedMessage lease) staged scanned =
      .ok next) : Marks lease next.db scanned.telegramId := by
  rcases stageMessage_eq_ok h with ⟨existing, hStored, rfl⟩ | ⟨categoryId, hStored, hSeen, rfl⟩
  · exact marks_refresh hInv hStored hReplace
  · exact marks_insert hInv hStored hSeen hReplace

/-- Rows that are marked stay marked while the rest of the page is staged. -/
theorem stageMessage_keeps_marks {categories : List (String × CategoryId)} {other : CategoryId}
    {stored : TelegramId → Option Message} (hReplace : lease.replaceExisting = true)
    (h : stageMessage py lease categories other stored staged scanned = .ok next)
    {n : TelegramId} (hMarks : Marks lease staged.db n) : Marks lease next.db n := by
  rcases stageMessage_eq_ok h with ⟨existing, -, rfl⟩ | ⟨categoryId, -, -, rfl⟩
  · intro r hr hOwns hId
    obtain ⟨r', hr', rfl⟩ := mem_refreshed.mp hr
    by_cases hSelected : (r'.id == existing.id) = true
    · rw [if_pos hSelected]
      unfold refreshMessage
      exact if_pos hReplace
    · rw [if_neg hSelected] at hOwns hId ⊢
      exact hMarks r' hr' hOwns hId
  · intro r hr hOwns hId
    rcases Database.mem_insertMessage.mp hr with hr | rfl
    · exact hMarks r hr hOwns hId
    · exact if_pos hReplace

theorem stagePage_marks {categories : List (String × CategoryId)} {other : CategoryId}
    {messages : List ScannedMessage} (hInv : StagedFrom lease db staged)
    (hReplace : lease.replaceExisting = true)
    (h : stagePage py lease categories other (db.storedMessage lease) staged messages =
      .ok next) : ∀ scanned ∈ messages, Marks lease next.db scanned.telegramId := by
  induction messages generalizing staged with
  | nil =>
      intro scanned hScanned
      cases hScanned
  | cons first rest ih =>
      unfold stagePage at h
      split at h
      · cases h
      · rename_i middle hMiddle
        intro scanned hScanned
        rcases List.mem_cons.mp hScanned with rfl | hRest
        · exact stagePage_induct (P := fun s => Marks lease s.db scanned.telegramId) h
            (stageMessage_marks hInv hReplace hMiddle)
            (fun _ _ _ _ hMarks hStep => stageMessage_keeps_marks hReplace hStep hMarks)
        · exact ih (stageMessage_stagedFrom hInv hMiddle) h scanned hRest

theorem persistScanPage_stagedFrom {now fenceNow : Instant} {page : ScanPage} {db' : Database}
    (hUnique : db.SourcesUnique) (h : persistScanPage py now fenceNow lease page db = .ok db') :
    ∃ seen, StagedFrom lease db ⟨db', seen⟩ := by
  obtain ⟨-, -, -, other, staged, hStaged, rfl⟩ := persistScanPage_eq_ok h
  have hFrom : StagedFrom lease db staged :=
    stagePage_induct hStaged (stagedFrom_start hUnique)
      (fun _ _ _ _ hInv hStep => stageMessage_stagedFrom hInv hStep)
  exact ⟨staged.seen, hFrom.forward, hFrom.backward, hFrom.added, hFrom.unique⟩

/-- After a page of a replacement every row of its messages carries the job's marker. -/
theorem persistScanPage_marks {now fenceNow : Instant} {page : ScanPage} {db' : Database}
    (hUnique : db.SourcesUnique) (hReplace : lease.replaceExisting = true)
    (h : persistScanPage py now fenceNow lease page db = .ok db') :
    ∀ scanned ∈ page.messages, Marks lease db' scanned.telegramId := by
  obtain ⟨-, -, -, other, staged, hStaged, rfl⟩ := persistScanPage_eq_ok h
  exact stagePage_marks (stagedFrom_start hUnique) hReplace hStaged

theorem persistScanPage_tags {now fenceNow : Instant} {page : ScanPage} {db' : Database}
    (h : persistScanPage py now fenceNow lease page db = .ok db') :
    db'.messageTags = db.messageTags := by
  obtain ⟨-, -, -, other, staged, hStaged, rfl⟩ := persistScanPage_eq_ok h
  exact (stagePage_tables hStaged).2.2.2

end

end SavedOrganizer
