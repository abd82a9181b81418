import SavedOrganizer.Service.Staging
import SavedOrganizer.System.Poison
import SavedOrganizer.System.World

/-!
# The library after a page

What `_persist_scan_page` commits, row by row (`PageEffect`): a row for each message that was
not stored, the stored ones refreshed in place, everything else as it was. An error leaves
nothing behind (`page_persistence`).

The loop over the page looks a repeated message up among the rows that were stored before, so
a message that is new and repeated fails the page. `repeated_ids_merge_iff` says that repeated
messages are merged exactly when the loop goes through (`stagePage_ok_iff`).
-/

namespace SavedOrganizer

open Python

/-! ## Repeated messages -/

/-- There is a row for this message of the lease's account. -/
def Present (lease : ScanLease) (db : Database) (telegramId : TelegramId) : Prop :=
  ∃ m ∈ db.messages, lease.ownsMessage m = true ∧ m.telegramId = telegramId

section Repeated

variable {py : Runtime} {lease : ScanLease} {categories : List (String × CategoryId)}
  {other : CategoryId} {db : Database} {staged next : Staged} {scanned : ScannedMessage}

theorem Present.refresh {existing : Message} {telegramId : TelegramId}
    (h : Present lease db telegramId) :
    Present lease (db.updateMessages (·.id == existing.id) (refreshMessage lease scanned))
      telegramId := by
  obtain ⟨m, hm, hOwns, hId⟩ := h
  refine ⟨_, mem_refreshed.mpr ⟨m, hm, rfl⟩, ?_⟩
  split
  · exact ⟨hOwns, hId⟩
  · exact ⟨hOwns, hId⟩

theorem Present.insert {row : Message} {telegramId : TelegramId}
    (h : Present lease db telegramId) : Present lease (db.insertMessage row) telegramId := by
  obtain ⟨m, hm, hRow⟩ := h
  exact ⟨m, Database.mem_insertMessage.mpr (Or.inl hm), hRow⟩

/-- A round leaves a row for its message, and one for every message that had one. -/
theorem stageMessage_present (hInv : StagedFrom lease db staged)
    (h : stageMessage py lease categories other (db.storedMessage lease) staged scanned =
      .ok next) : Present lease next.db scanned.telegramId ∧
      ∀ n, Present lease staged.db n → Present lease next.db n := by
  rcases stageMessage_eq_ok h with ⟨existing, hStored, rfl⟩ | ⟨categoryId, -, -, rfl⟩
  · refine ⟨Present.refresh ?_, fun n => Present.refresh⟩
    obtain ⟨hExisting, hOwns, hId⟩ := storedMessage_eq_some hStored
    obtain ⟨e, he, hRefreshes⟩ := hInv.forward existing hExisting
    exact ⟨e, he, hRefreshes.same.ownsMessage.trans hOwns, hRefreshes.same.telegramId.trans hId⟩
  · exact ⟨⟨_, Database.mem_insertMessage.mpr (Or.inr rfl), ownsMessage_iff.mpr ⟨rfl, rfl⟩, rfl⟩,
      fun n => Present.insert⟩

theorem stagePage_present {messages : List ScannedMessage} (hInv : StagedFrom lease db staged)
    (h : stagePage py lease categories other (db.storedMessage lease) staged messages =
      .ok next) : ∀ m ∈ messages, Present lease next.db m.telegramId := by
  induction messages generalizing staged with
  | nil => simp
  | cons first rest ih =>
      unfold stagePage at h
      split at h
      · cases h
      · rename_i middle hMiddle
        have hInv' := stageMessage_stagedFrom hInv hMiddle
        rw [List.forall_mem_cons]
        refine ⟨?_, ih hInv' h⟩
        -- the row of the first message stays through the rest
        refine (stagePage_induct (P := fun s => StagedFrom lease db s ∧
          Present lease s.db first.telegramId) h
          ⟨hInv', (stageMessage_present hInv hMiddle).1⟩ ?_).2
        rintro current m after - ⟨hCurrent, hPresent⟩ hStep
        exact ⟨stageMessage_stagedFrom hCurrent hStep,
          (stageMessage_present hCurrent hStep).2 _ hPresent⟩

end Repeated

/-- Every message of the page has exactly one row of the lease's account. -/
def PageMerged (lease : ScanLease) (page : ScanPage) (db : Database) : Prop :=
  ∀ m ∈ page.messages, ∃! row, row ∈ db.messages ∧ lease.ownsMessage row = true ∧
    row.telegramId = m.telegramId

/-- The user has the fallback category, and the messages that are not stored come once each
and have a category. -/
structure Mergeable (py : Runtime) (lease : ScanLease) (page : ScanPage) (db : Database) :
    Prop where
  fallback : (dictGet (db.categoryMap lease.userId) OTHER_CATEGORY_SLUG).isSome = true
  categorizable : ∀ m ∈ page.messages, db.storedMessage lease m.telegramId = none →
    categorizable py m = true
  once : ((page.messages.filter fun m => (db.storedMessage lease m.telegramId).isNone).map
    ScannedMessage.telegramId).Nodup

theorem persistScanPage_ok_iff {py : Runtime} {now fenceNow : Instant} {lease : ScanLease}
    {page : ScanPage} {db : Database} (hConnection : (db.boundConnection lease).isSome = true)
    (hHeld : (db.heldJob lease now).isSome = true)
    (hFence : (db.heldJob lease fenceNow).isSome = true) :
    (∃ db', persistScanPage py now fenceNow lease page db = .ok db') ↔
      Mergeable py lease page db := by
  have hNot {α : Type} {x : Option α} (h : x.isSome = true) : x.isNone = false := by
    rw [← Option.not_isSome, h, Bool.not_true]
  unfold persistScanPage
  rw [hNot hConnection, hNot hHeld, hNot hFence]
  simp only [Bool.false_eq_true, if_false]
  cases hOther : dictGet (db.categoryMap lease.userId) OTHER_CATEGORY_SLUG with
  | none =>
      refine iff_of_false ?_ ?_
      · rintro ⟨db', h⟩
        cases h
      · rintro ⟨hFallback, -, -⟩
        rw [hOther] at hFallback
        cases hFallback
  | some other =>
      have hStage := @stagePage_ok_iff py lease (db.categoryMap lease.userId) other
        (db.storedMessage lease) ⟨db, []⟩ page.messages
      dsimp only
      constructor
      · rintro ⟨db', h⟩
        split at h
        · cases h
        · rename_i staged hStaged
          obtain ⟨hNew, hOnce⟩ := hStage.mp ⟨staged, hStaged⟩
          exact ⟨by rw [hOther]; rfl, fun m hm h => (hNew m hm h).1, hOnce⟩
      · rintro ⟨-, hSlug, hOnce⟩
        obtain ⟨staged, hStaged⟩ := hStage.mpr
          ⟨fun m hm h => ⟨hSlug m hm h, List.not_mem_nil⟩, hOnce⟩
        rw [hStaged]
        exact ⟨_, rfl⟩

/-- Under a valid lease a page is persisted with one row for each of its messages exactly when
no message that was not stored is repeated, none fails to be categorized, and there is a
fallback category. -/
theorem repeated_ids_merge_iff (py : Runtime) (now fenceNow : Instant) (lease : ScanLease)
    (page : ScanPage) (db : Database) (hUnique : db.SourcesUnique)
    (hConnection : (db.boundConnection lease).isSome = true)
    (hHeld : (db.heldJob lease now).isSome = true)
    (hFence : (db.heldJob lease fenceNow).isSome = true) :
    (∃ db', persistScanPage py now fenceNow lease page db = .ok db' ∧
      PageMerged lease page db') ↔ Mergeable py lease page db := by
  rw [← persistScanPage_ok_iff hConnection hHeld hFence]
  constructor
  · rintro ⟨db', h, -⟩
    exact ⟨db', h⟩
  · rintro ⟨db', h⟩
    refine ⟨db', h, fun m hm => ?_⟩
    obtain ⟨-, -, -, other, staged, hStaged, rfl⟩ := persistScanPage_eq_ok h
    have hFrom : StagedFrom lease db staged :=
      stagePage_induct hStaged (stagedFrom_start hUnique)
        (fun _ _ _ _ hInv hStep => stageMessage_stagedFrom hInv hStep)
    obtain ⟨row, hRow, hOwns, hId⟩ :=
      stagePage_present (stagedFrom_start hUnique) hStaged m hm
    refine ⟨row, ⟨hRow, hOwns, hId⟩, ?_⟩
    rintro row' ⟨hRow', hOwns', hId'⟩
    exact eq_of_source hFrom.unique hRow' hRow hOwns' hOwns (hId'.trans hId.symm)

/-! ## The rows after a page -/

/-- A stored row after these messages: the one with its id refreshes it. -/
def refreshedBy (lease : ScanLease) (messages : List ScannedMessage) (m : Message) : Message :=
  match messages.find? fun scanned =>
      lease.ownsMessage m && m.telegramId == scanned.telegramId with
  | some scanned => refreshMessage lease scanned m
  | none => m

/-- The row of a new message, with the id that the sequence gives it. -/
def addedRow (lease : ScanLease) (file : ScannedMessage → CategoryId) (scanned : ScannedMessage)
    (id : MessageId) : Message :=
  { newMessage lease scanned (file scanned) with id := id }

/-- The session after some of the messages: the stored rows, refreshed by these, and a row for
each of these that is new. -/
structure PageStaged (lease : ScanLease) (file : ScannedMessage → CategoryId) (db : Database)
    (done : List ScannedMessage) (staged : Staged) : Prop where
  stored : ∀ m ∈ db.messages, refreshedBy lease done m ∈ staged.db.messages
  added : ∀ scanned ∈ done, db.storedMessage lease scanned.telegramId = none →
    ∃ id, db.nextMessageId ≤ id ∧ addedRow lease file scanned id ∈ staged.db.messages
  nothingElse : ∀ m' ∈ staged.db.messages, (∃ m ∈ db.messages, m' = refreshedBy lease done m) ∨
    ∃ scanned ∈ done, db.storedMessage lease scanned.telegramId = none ∧
      ∃ id, db.nextMessageId ≤ id ∧ m' = addedRow lease file scanned id
  sequence : db.nextMessageId ≤ staged.db.nextMessageId

section PageStaged

variable {py : Runtime} {lease : ScanLease} {categories : List (String × CategoryId)}
  {other : CategoryId} {file : ScannedMessage → CategoryId} {db : Database}
  {done : List ScannedMessage} {staged next : Staged} {scanned : ScannedMessage} {m : Message}

/-- A row that no message refreshes is left alone. -/
theorem refreshedBy_of_absent
    (h : lease.ownsMessage m = true → ∀ s ∈ done, m.telegramId ≠ s.telegramId) :
    refreshedBy lease done m = m := by
  unfold refreshedBy
  rw [List.find?_eq_none.mpr]
  intro s hs hFound
  rw [Bool.and_eq_true, beq_iff_eq] at hFound
  exact h hFound.1 s hs hFound.2

theorem refreshedBy_concat_of_ne
    (h : lease.ownsMessage m = true → m.telegramId ≠ scanned.telegramId) :
    refreshedBy lease (done ++ [scanned]) m = refreshedBy lease done m := by
  have hLast : ([scanned].find? fun s =>
      lease.ownsMessage m && m.telegramId == s.telegramId) = none := by
    rw [List.find?_eq_none]
    intro s hs hFound
    obtain rfl := List.mem_singleton.mp hs
    rw [Bool.and_eq_true, beq_iff_eq] at hFound
    exact h hFound.1 hFound.2
  unfold refreshedBy
  rw [List.find?_append, hLast, Option.or_none]

/-- The first message with the id of a row refreshes it. -/
theorem refreshedBy_concat_of_eq (hOwns : lease.ownsMessage m = true)
    (hId : m.telegramId = scanned.telegramId)
    (hFirst : ∀ s ∈ done, s.telegramId ≠ scanned.telegramId) :
    refreshedBy lease (done ++ [scanned]) m = refreshMessage lease scanned m := by
  have hBefore : (done.find? fun s =>
      lease.ownsMessage m && m.telegramId == s.telegramId) = none := by
    rw [List.find?_eq_none]
    intro s hs hFound
    rw [Bool.and_eq_true, beq_iff_eq] at hFound
    exact hFirst s hs (hFound.2.symm.trans hId)
  unfold refreshedBy
  rw [List.find?_append, hBefore, Option.none_or, List.find?_cons_of_pos]
  rw [hOwns, hId, beq_self_eq_true, Bool.and_self]

/-- In a page without repeated messages the one with the id of a row refreshes it. -/
theorem refreshedBy_of_mem {messages : List ScannedMessage}
    (hDistinct : (messages.map ScannedMessage.telegramId).Nodup) (hScanned : scanned ∈ messages)
    (hOwns : lease.ownsMessage m = true) (hId : m.telegramId = scanned.telegramId) :
    refreshedBy lease messages m = refreshMessage lease scanned m := by
  unfold refreshedBy
  cases hFound : messages.find? fun s => lease.ownsMessage m && m.telegramId == s.telegramId with
  | none =>
      refine absurd ?_ (List.find?_eq_none.mp hFound scanned hScanned)
      rw [hOwns, hId, beq_self_eq_true, Bool.and_self]
  | some s =>
      have hMatch := List.find?_some hFound
      rw [Bool.and_eq_true, beq_iff_eq] at hMatch
      rw [List.inj_on_of_nodup_map hDistinct (List.mem_of_find?_eq_some hFound) hScanned
        (hMatch.2.symm.trans hId)]

theorem refreshedBy_same : SameMessage m (refreshedBy lease done m) := by
  unfold refreshedBy
  split
  · exact refreshMessage_same _
  · exact .refl m

theorem pageStaged_start : PageStaged lease file db [] ⟨db, []⟩ where
  stored := fun _ hm => hm
  added := fun _ hs => absurd hs List.not_mem_nil
  nothingElse := fun m hm => Or.inl ⟨m, hm, rfl⟩
  sequence := Nat.le_refl _

theorem pageStaged_refresh {existing : Message} (hUnique : db.SourcesUnique)
    (hInv : PageStaged lease file db done staged)
    (hFirst : ∀ s ∈ done, s.telegramId ≠ scanned.telegramId)
    (hStored : db.storedMessage lease scanned.telegramId = some existing) :
    PageStaged lease file db (done ++ [scanned]) { staged with
      db := staged.db.updateMessages (·.id == existing.id) (refreshMessage lease scanned) } := by
  obtain ⟨hExisting, hOwns, hId⟩ := storedMessage_eq_some hStored
  -- what the statement does to a row that was stored, refreshed or not
  have hRow {m : Message} (hm : m ∈ db.messages) :
      (if (refreshedBy lease done m).id == existing.id then
        refreshMessage lease scanned (refreshedBy lease done m) else refreshedBy lease done m) =
      refreshedBy lease (done ++ [scanned]) m := by
    rw [refreshedBy_same.id]
    by_cases hIt : m = existing
    · subst hIt
      rw [beq_self_eq_true, if_pos rfl, refreshedBy_concat_of_eq hOwns hId hFirst,
        refreshedBy_of_absent]
      intro _ s hs hEq
      exact hFirst s hs (hEq.symm.trans hId)
    · have hOther : (m.id == existing.id) = false := by
        rw [beq_eq_false_iff_ne]
        exact fun hEq => hIt (Table.eq_of_key hm hExisting hEq)
      rw [hOther, if_neg Bool.false_ne_true, refreshedBy_concat_of_ne]
      intro hOwnsRow hEq
      exact hIt (eq_of_source hUnique hm hExisting hOwnsRow hOwns (hEq.trans hId.symm))
  -- and to one that the page has added
  have hAdded {s : ScannedMessage} {id : MessageId} (hFresh : db.nextMessageId ≤ id) :
      (if (addedRow lease file s id).id == existing.id then
        refreshMessage lease scanned (addedRow lease file s id)
        else addedRow lease file s id) = addedRow lease file s id := by
    refine if_neg fun hEq => ?_
    have hEq : id = existing.id := by simpa [addedRow] using hEq
    exact Nat.not_le_of_lt (db.messageIds_fresh existing hExisting) (hEq ▸ hFresh)
  refine ⟨?_, ?_, ?_, hInv.sequence⟩
  · intro m hm
    exact mem_refreshed.mpr ⟨_, hInv.stored m hm, hRow hm⟩
  · intro s hs hNew
    rcases List.mem_append.mp hs with hs | hs
    · obtain ⟨id, hFresh, hMem⟩ := hInv.added s hs hNew
      exact ⟨id, hFresh, mem_refreshed.mpr ⟨_, hMem, hAdded hFresh⟩⟩
    · rw [List.mem_singleton.mp hs, hStored] at hNew
      cases hNew
  · intro m' hm'
    obtain ⟨r, hr, rfl⟩ := mem_refreshed.mp hm'
    rcases hInv.nothingElse r hr with ⟨m, hm, rfl⟩ | ⟨s, hs, hNew, id, hFresh, rfl⟩
    · exact Or.inl ⟨m, hm, hRow hm⟩
    · exact Or.inr ⟨s, List.mem_append_left _ hs, hNew, id, hFresh, hAdded hFresh⟩

theorem pageStaged_insert (hInv : PageStaged lease file db done staged)
    (hStored : db.storedMessage lease scanned.telegramId = none) :
    PageStaged lease file db (done ++ [scanned])
      { db := staged.db.insertMessage (newMessage lease scanned (file scanned))
        seen := scanned.telegramId :: staged.seen } := by
  have hRow {m : Message} (hm : m ∈ db.messages) :
      refreshedBy lease (done ++ [scanned]) m = refreshedBy lease done m :=
    refreshedBy_concat_of_ne fun hOwns => storedMessage_eq_none hStored hm hOwns
  refine ⟨?_, ?_, ?_, Nat.le_succ_of_le hInv.sequence⟩
  · intro m hm
    rw [hRow hm]
    exact Database.mem_insertMessage.mpr (Or.inl (hInv.stored m hm))
  · intro s hs hNew
    rcases List.mem_append.mp hs with hs | hs
    · obtain ⟨id, hFresh, hMem⟩ := hInv.added s hs hNew
      exact ⟨id, hFresh, Database.mem_insertMessage.mpr (Or.inl hMem)⟩
    · obtain rfl := List.mem_singleton.mp hs
      exact ⟨staged.db.nextMessageId, hInv.sequence, Database.mem_insertMessage.mpr (Or.inr rfl)⟩
  · intro m' hm'
    rcases Database.mem_insertMessage.mp hm' with hm' | rfl
    · rcases hInv.nothingElse m' hm' with ⟨m, hm, rfl⟩ | ⟨s, hs, hNew, hAdded⟩
      · exact Or.inl ⟨m, hm, (hRow hm).symm⟩
      · exact Or.inr ⟨s, List.mem_append_left _ hs, hNew, hAdded⟩
    · exact Or.inr ⟨scanned, List.mem_append_right _ (List.mem_singleton.mpr rfl), hStored,
        staged.db.nextMessageId, hInv.sequence, rfl⟩

/-- A page without repeated messages, message by message. -/
theorem stagePage_pageStaged (hUnique : db.SourcesUnique) {messages : List ScannedMessage}
    (hDistinct : ((done ++ messages).map ScannedMessage.telegramId).Nodup)
    (hInv : PageStaged lease (filedUnder py categories other) db done staged)
    (h : stagePage py lease categories other (db.storedMessage lease) staged messages =
      .ok next) : PageStaged lease (filedUnder py categories other) db (done ++ messages) next := by
  induction messages generalizing done staged with
  | nil =>
      obtain rfl := Except.ok.inj h
      rw [List.append_nil]
      exact hInv
  | cons first rest ih =>
      have hSplit : done ++ first :: rest = done ++ [first] ++ rest := by simp
      have hFirst : ∀ s ∈ done, s.telegramId ≠ first.telegramId := by
        intro s hs hEq
        rw [List.map_append, List.nodup_append] at hDistinct
        exact hDistinct.2.2 _ (List.mem_map_of_mem hs) _
          (List.mem_map_of_mem List.mem_cons_self) hEq
      rw [hSplit] at hDistinct ⊢
      unfold stagePage at h
      split at h
      · cases h
      · rename_i middle hMiddle
        refine ih hDistinct ?_ h
        cases hStored : db.storedMessage lease first.telegramId with
        | some existing =>
            rw [stageMessage_stored hStored] at hMiddle
            obtain rfl := Except.ok.inj hMiddle
            exact pageStaged_refresh hUnique hInv hFirst hStored
        | none =>
            by_cases hSeen : first.telegramId ∈ staged.seen
            · rw [stageMessage_repeated hStored hSeen] at hMiddle
              cases hMiddle
            · rw [stageMessage_new hStored hSeen] at hMiddle
              split at hMiddle
              · obtain rfl := Except.ok.inj hMiddle
                exact pageStaged_insert hInv hStored
              · cases hMiddle

end PageStaged

/-- What a persisted page has done: `file` gives the category of a new message. -/
structure PageEffect (lease : ScanLease) (file : ScannedMessage → CategoryId) (page : ScanPage)
    (db db' : Database) : Prop where
  /-- A message that was not stored has one row, with an id of its own. -/
  created : ∀ scanned ∈ page.messages, db.storedMessage lease scanned.telegramId = none →
    ∃ id, (∀ m ∈ db.messages, m.id ≠ id) ∧
      ∀ m', (m' ∈ db'.messages ∧ lease.ownsMessage m' = true ∧
        m'.telegramId = scanned.telegramId) ↔ m' = addedRow lease file scanned id
  /-- A stored one has its row, with the columns of `refreshMessage` overwritten. -/
  refreshed : ∀ m ∈ db.messages, ∀ scanned ∈ page.messages, lease.ownsMessage m = true →
    m.telegramId = scanned.telegramId →
    ∃ m' ∈ db'.messages, m' = refreshMessage lease scanned m ∧ m'.id = m.id ∧
      m'.categoryId = m.categoryId
  kept : ∀ m ∈ db.messages, (lease.ownsMessage m = true →
    ∀ scanned ∈ page.messages, m.telegramId ≠ scanned.telegramId) → m ∈ db'.messages
  /-- Every row is one of these. -/
  nothingElse : ∀ m' ∈ db'.messages, (∃ m ∈ db.messages, m.id = m'.id) ∨
    lease.ownsMessage m' = true ∧ ∃ scanned ∈ page.messages,
      db.storedMessage lease scanned.telegramId = none ∧ m'.telegramId = scanned.telegramId
  counted : db'.jobs.find? lease.jobId = (db.jobs.find? lease.jobId).map
    (ScanJob.recordPage page.messages.length page.nextOffsetId)
  otherJobs : ∀ id, id ≠ lease.jobId → db'.jobs.find? id = db.jobs.find? id
  tags : db'.messageTags = db.messageTags
  categories : db'.categories = db.categories
  connections : db'.connections = db.connections

section Effect

variable {py : Runtime} {now fenceNow : Instant} {lease : ScanLease} {page : ScanPage}
  {db db' : Database}

/-- The fence updates the row it has found, and only that. -/
theorem jobs_recordPage (hFence : (db.heldJob lease fenceNow).isSome = true) (id : JobId)
    (f : ScanJob → ScanJob) (hKey : ∀ job, (f job).id = job.id) :
    (db.jobs.update (lease.holds fenceNow) f hKey).find? id =
      if id = lease.jobId then (db.jobs.find? id).map f else db.jobs.find? id := by
  obtain ⟨held, hHeld⟩ := Option.isSome_iff_exists.mp hFence
  obtain ⟨hFind, hHolds⟩ := heldJob_eq_some.mp hHeld
  rw [Table.find?_update]
  split
  · rename_i hId
    rw [hId, hFind, Option.map_some, Option.map_some, if_pos hHolds]
  · rename_i hId
    cases hJob : db.jobs.find? id with
    | none => rfl
    | some job =>
        rw [Option.map_some, if_neg]
        intro hHoldsJob
        have hOwn := ScanLease.id_of_owns (ScanLease.owns_of_holds hHoldsJob)
        exact hId ((Table.key_of_find? hJob).symm.trans hOwn)

theorem persistScanPage_effect (hUnique : db.SourcesUnique)
    (hDistinct : (page.messages.map ScannedMessage.telegramId).Nodup)
    (h : persistScanPage py now fenceNow lease page db = .ok db') :
    ∃ other, PageEffect lease (filedUnder py (db.categoryMap lease.userId) other) page db db' := by
  have hFence : (db.heldJob lease fenceNow).isSome = true := by
    obtain ⟨-, -, ⟨job, hJob⟩, -⟩ := persistScanPage_eq_ok h
    rw [hJob]
    rfl
  obtain ⟨-, -, -, other, staged, hStaged, rfl⟩ := persistScanPage_eq_ok h
  obtain ⟨hJobs, hConnections, hCategories, hTags⟩ := stagePage_tables hStaged
  have hFrom : StagedFrom lease db staged :=
    stagePage_induct hStaged (stagedFrom_start hUnique)
      (fun _ _ _ _ hInv hStep => stageMessage_stagedFrom hInv hStep)
  have hPage : PageStaged lease (filedUnder py (db.categoryMap lease.userId) other) db
      ([] ++ page.messages) staged :=
    stagePage_pageStaged hUnique hDistinct pageStaged_start hStaged
  rw [List.nil_append] at hPage
  refine ⟨other, ?_, ?_, ?_, ?_, ?_, ?_, hTags, hCategories, hConnections⟩
  · intro scanned hScanned hNew
    obtain ⟨id, hFresh, hMem⟩ := hPage.added scanned hScanned hNew
    have hOwns : lease.ownsMessage (addedRow lease
        (filedUnder py (db.categoryMap lease.userId) other) scanned id) = true :=
      ownsMessage_iff.mpr ⟨rfl, rfl⟩
    refine ⟨id, fun m hm hEq => ?_, fun m' => ⟨?_, ?_⟩⟩
    · exact Nat.not_le_of_lt (db.messageIds_fresh m hm) (hEq ▸ hFresh)
    · rintro ⟨hm', hOwns', hId'⟩
      exact eq_of_source hFrom.unique hm' hMem hOwns' hOwns hId'
    · rintro rfl
      exact ⟨hMem, hOwns, rfl⟩
  · intro m hm scanned hScanned hOwns hId
    have hRow := refreshedBy_of_mem hDistinct hScanned hOwns hId
    exact ⟨_, hPage.stored m hm, hRow, refreshedBy_same.id, by rw [hRow]; rfl⟩
  · intro m hm hAbsent
    have hStored := hPage.stored m hm
    rwa [refreshedBy_of_absent hAbsent] at hStored
  · intro m' hm'
    rcases hPage.nothingElse m' hm' with ⟨m, hm, rfl⟩ | ⟨scanned, hScanned, hNew, id, -, rfl⟩
    · exact Or.inl ⟨m, hm, refreshedBy_same.id.symm⟩
    · exact Or.inr ⟨ownsMessage_iff.mpr ⟨rfl, rfl⟩, scanned, hScanned, hNew, rfl⟩
  · rw [Database.updateJobs_jobs, hJobs, jobs_recordPage hFence, if_pos rfl]
  · intro id hId
    rw [Database.updateJobs_jobs, hJobs, jobs_recordPage hFence, if_neg hId]

end Effect

/-! ## The transaction -/

/-- `_persist_scan_page` with what is committed when it ends. Closing the session after an error
rolls back; the error may also be one of the database, while the changes are flushed or
committed. -/
def commitScanPage (py : Runtime) (now fenceNow : Instant) (lease : ScanLease) (page : ScanPage)
    (databaseFails : Bool) (db : Database) : Except PersistError Unit × Database :=
  match persistScanPage py now fenceNow lease page db with
  | .error e => (.error e, db)
  | .ok db' => if databaseFails then (.error .persistence, db) else (.ok (), db')

/-- Under a lease that is valid when the transaction starts, a page of distinct messages that
can be categorized is persisted as a whole or not at all. -/
theorem page_persistence (py : Runtime) (now fenceNow : Instant) (lease : ScanLease)
    (page : ScanPage) (databaseFails : Bool) (db : Database) (hUnique : db.SourcesUnique)
    (hConnection : (db.boundConnection lease).isSome = true)
    (hHeld : (db.heldJob lease now).isSome = true)
    (hDistinct : (page.messages.map ScannedMessage.telegramId).Nodup)
    (hCategorizes : ∀ m ∈ page.messages, categorizable py m = true) :
    ((commitScanPage py now fenceNow lease page databaseFails db).1 = .ok () →
      ∃ other, PageEffect lease (filedUnder py (db.categoryMap lease.userId) other) page db
        (commitScanPage py now fenceNow lease page databaseFails db).2) ∧
    (∀ error, (commitScanPage py now fenceNow lease page databaseFails db).1 = .error error →
      (commitScanPage py now fenceNow lease page databaseFails db).2 = db) ∧
    (db.HasFallback lease.userId → (db.heldJob lease fenceNow).isSome = true →
      databaseFails = false →
      (commitScanPage py now fenceNow lease page databaseFails db).1 = .ok ()) := by
  unfold commitScanPage
  refine ⟨?_, ?_, ?_⟩
  · intro hOk
    split at hOk
    · cases hOk
    · rename_i db' hPersisted
      split at hOk
      · cases hOk
      · rename_i hCommits
        rw [if_neg hCommits]
        exact persistScanPage_effect hUnique hDistinct hPersisted
  · intro error hError
    split
    · rfl
    · split
      · rfl
      · rename_i hPersisted hFails
        rw [hPersisted] at hError
        dsimp only at hError
        rw [if_neg hFails] at hError
        cases hError
  · rintro hFallback hFence rfl
    obtain ⟨other, hOther⟩ := dictGet_other hFallback
    obtain ⟨db', hPersisted⟩ := (persistScanPage_ok_iff hConnection hHeld hFence).mpr
      ⟨by rw [hOther]; rfl, fun m hm _ => hCategorizes m hm,
        hDistinct.sublist (List.filter_sublist.map _)⟩
    rw [hPersisted]
    rfl

/-! ### A library with the messages 5 and 7 -/

def storedLibrary : Database :=
  { runningLibrary with
    messages := demoNotes
    nextMessageId := 3
    messageIds_fresh := demoNotes_fresh }

theorem storedLibrary_sourcesUnique : storedLibrary.SourcesUnique := by
  unfold Database.SourcesUnique
  show ∀ m ∈ demoNotes.rows, ∀ m' ∈ demoNotes.rows, _
  decide

/-- A note with this id. -/
def scannedNote (id : TelegramId) : ScannedMessage := scannedMessage 0 id (textMessage "note")

theorem page_persistence_of_note :
    ∃ other, PageEffect runningLease
      (filedUnder demoEnv.py (storedLibrary.categoryMap 1) other)
      ⟨[scannedNote 9, scannedNote 7], true, some 7⟩ storedLibrary
      (commitScanPage demoEnv.py 0 0 runningLease ⟨[scannedNote 9, scannedNote 7], true, some 7⟩
        false storedLibrary).2 := by
  obtain ⟨hEffect, -, hOk⟩ := page_persistence demoEnv.py 0 0 runningLease
    ⟨[scannedNote 9, scannedNote 7], true, some 7⟩ false storedLibrary storedLibrary_sourcesUnique
    (by decide +kernel) (by decide +kernel) (by decide) (by decide +kernel)
  exact hEffect (hOk ⟨otherCategory, List.mem_cons_self, rfl, rfl⟩ (by decide +kernel) rfl)

/-- A stored message may come twice. -/
theorem repeated_ids_merge_stored :
    ∃ db', persistScanPage demoEnv.py 0 0 runningLease
        ⟨[scannedNote 9, scannedNote 7, scannedNote 7], true, some 7⟩ storedLibrary = .ok db' ∧
      PageMerged runningLease ⟨[scannedNote 9, scannedNote 7, scannedNote 7], true, some 7⟩ db' :=
  (repeated_ids_merge_iff demoEnv.py 0 0 runningLease
    ⟨[scannedNote 9, scannedNote 7, scannedNote 7], true, some 7⟩ storedLibrary
    storedLibrary_sourcesUnique (by decide +kernel) (by decide +kernel) (by decide +kernel)).mpr
    ⟨by decide +kernel, fun m hm _ =>
      (by decide +kernel : ∀ m ∈ [scannedNote 9, scannedNote 7, scannedNote 7],
        categorizable demoEnv.py m = true) m hm, by decide +kernel⟩

/-- A new one may not: the page fails under a good lease. -/
theorem repeated_new_id_fails :
    (storedLibrary.boundConnection runningLease).isSome = true ∧
      (storedLibrary.heldJob runningLease 0).isSome = true ∧ storedLibrary.SourcesUnique ∧
      storedLibrary.HasFallback 1 ∧
      ¬ ∃ db', persistScanPage demoEnv.py 0 0 runningLease
        ⟨[scannedNote 9, scannedNote 9], true, some 9⟩ storedLibrary = .ok db' ∧
        PageMerged runningLease ⟨[scannedNote 9, scannedNote 9], true, some 9⟩ db' := by
  refine ⟨by decide +kernel, by decide +kernel, storedLibrary_sourcesUnique,
    ⟨otherCategory, List.mem_cons_self, rfl, rfl⟩, ?_⟩
  rintro ⟨db', hPersisted, -⟩
  have hRefused : (persistScanPage demoEnv.py 0 0 runningLease
      ⟨[scannedNote 9, scannedNote 9], true, some 9⟩ storedLibrary).toOption.isSome = false := by
    decide +kernel
  rw [hPersisted] at hRefused
  cases hRefused

end SavedOrganizer
