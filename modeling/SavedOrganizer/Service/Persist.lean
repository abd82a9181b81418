import SavedOrganizer.Categorizer
import SavedOrganizer.Scanner.Scan
import SavedOrganizer.Service.Lease

/-!
# Persisting a scanned page

`_persist_scan_page` is one transaction: it checks the connection and the lease, refreshes
the stored messages of the page, files the new ones under a category, and advances the job
row under a second check of the lease. Any error rolls all of it back, so an error carries
no database.

`load_cached_media` and `_persist_refreshed_session` are the other two statements of a
slice that touch what the page touches.
-/

namespace SavedOrganizer

open Python

/-- The two errors of `_persist_scan_page`; any other exception becomes `persistence`. -/
inductive PersistError
  /-- `ScanLeaseLostError`. -/
  | leaseLost
  /-- `ScanPersistenceError`. -/
  | persistence
  deriving DecidableEq, Repr

/-! ## What the lease names -/

/-- The connection the lease was claimed for. -/
def ScanLease.bound (lease : ScanLease) (connection : TelegramConnection) : Bool :=
  connection.telegramUserId == some lease.telegramUserId &&
    connection.generation == lease.connectionGeneration

/-- It is still connected. -/
def ScanLease.connected (lease : ScanLease) (connection : TelegramConnection) : Bool :=
  lease.bound connection && connection.state == .connected

/-- A message row of the lease's user and Telegram account. -/
def ScanLease.ownsMessage (lease : ScanLease) (m : Message) : Bool :=
  m.userId == lease.userId && m.telegramUserId == some lease.telegramUserId

namespace Database

def boundConnection (db : Database) (lease : ScanLease) : Option TelegramConnection :=
  (db.connections.find? lease.userId).filter lease.connected

/-- `category_map`: the categories of a user under their system key, or else their slug. -/
def categoryMap (db : Database) (userId : UserId) : List (String × CategoryId) :=
  (db.categories.rows.filter (·.userId == userId)).map fun category =>
    (if truthy category.systemKey then category.systemKey.getD "" else category.slug, category.id)

/-- The row a page message refreshes: `existing_by_id.get(telegram_id)`. -/
def storedMessage (db : Database) (lease : ScanLease) (telegramId : TelegramId) :
    Option Message :=
  db.messages.rows.reverse.find? fun m => lease.ownsMessage m && m.telegramId == telegramId

end Database

/-- Reading a `dict` built from pairs: the last one with the key counts. -/
def dictGet (pairs : List (String × CategoryId)) (key : String) : Option CategoryId :=
  (pairs.reverse.find? (·.1 == key)).map Prod.snd

/-! ## One message of the page -/

/-- The message keeps a stored preview that the new version does not bring. -/
def keepsPreview (scanned : ScannedMessage) : Bool :=
  scanned.mediaType == some "photo".toList ||
    startsWith "image/".toList (lower (orEmpty scanned.mimeType))

/-- The values assigned to a stored message. -/
def refreshMessage (lease : ScanLease) (scanned : ScannedMessage) (existing : Message) :
    Message :=
  { existing with
    connectionGeneration := some lease.connectionGeneration
    content := scanned.content
    mediaType := scanned.mediaType
    fileName := scanned.fileName
    fileSize := scanned.fileSize
    mimeType := scanned.mimeType
    cachedMedia :=
      if scanned.cachedMedia.isSome then scanned.cachedMedia
      else if keepsPreview scanned then existing.cachedMedia else none
    cachedMediaMimeType :=
      if scanned.cachedMedia.isSome then scanned.cachedMediaMimeType
      else if keepsPreview scanned then existing.cachedMediaMimeType else none
    url := scanned.url
    senderName := scanned.senderName
    date := scanned.date
    rawData := scanned.rawData
    lastSeenReplacementJobId :=
      if lease.replaceExisting then some lease.jobId else existing.lastSeenReplacementJobId }

/-- The row added for a new message; the sequence gives it its id. -/
def newMessage (lease : ScanLease) (scanned : ScannedMessage) (categoryId : CategoryId) :
    Message :=
  { id := 0
    userId := lease.userId
    telegramId := scanned.telegramId
    telegramUserId := some lease.telegramUserId
    connectionGeneration := some lease.connectionGeneration
    lastSeenReplacementJobId := if lease.replaceExisting then some lease.jobId else none
    content := scanned.content
    mediaType := scanned.mediaType
    fileName := scanned.fileName
    fileSize := scanned.fileSize
    mimeType := scanned.mimeType
    cachedMedia := scanned.cachedMedia
    cachedMediaMimeType := scanned.cachedMediaMimeType
    url := scanned.url
    senderName := scanned.senderName
    date := scanned.date
    categoryId := categoryId
    rawData := scanned.rawData }

/-- The session while the page is staged: its pending changes and `seen_ids`. -/
structure Staged where
  db : Database
  seen : List TelegramId

/-- One round of the loop over the page. `stored` is `existing_by_id`; an id that the page
itself added is not in it and raises `KeyError`. -/
def stageMessage (py : Runtime) (lease : ScanLease) (categories : List (String × CategoryId))
    (other : CategoryId) (stored : TelegramId → Option Message) (staged : Staged)
    (scanned : ScannedMessage) : Except PersistError Staged :=
  if (stored scanned.telegramId).isSome || staged.seen.contains scanned.telegramId then
    match stored scanned.telegramId with
    | none => .error .persistence
    | some existing => .ok { staged with
        db := staged.db.updateMessages (·.id == existing.id) (refreshMessage lease scanned) }
  else match categorizeScannedMessage py scanned with
    | .error _ => .error .persistence
    | .ok slug => .ok
        { db := staged.db.insertMessage
            (newMessage lease scanned ((dictGet categories slug).getD other))
          seen := scanned.telegramId :: staged.seen }

def stagePage (py : Runtime) (lease : ScanLease) (categories : List (String × CategoryId))
    (other : CategoryId) (stored : TelegramId → Option Message) :
    Staged → List ScannedMessage → Except PersistError Staged
  | staged, [] => .ok staged
  | staged, scanned :: rest =>
      match stageMessage py lease categories other stored staged scanned with
      | .error e => .error e
      | .ok next => stagePage py lease categories other stored next rest

/-- `_persist_scan_page`. The clock is read twice: `now` at the first check of the lease,
`fenceNow` at the last one. -/
def persistScanPage (py : Runtime) (now fenceNow : Instant) (lease : ScanLease)
    (page : ScanPage) (db : Database) : Except PersistError Database :=
  if (db.boundConnection lease).isNone then .error .leaseLost
  else if (db.heldJob lease now).isNone then .error .leaseLost
  else
    let categories := db.categoryMap lease.userId
    match dictGet categories OTHER_CATEGORY_SLUG with
    | none => .error .persistence
    | some other =>
        match stagePage py lease categories other (db.storedMessage lease) ⟨db, []⟩
            page.messages with
        | .error e => .error e
        | .ok staged =>
            if (db.heldJob lease fenceNow).isNone then .error .leaseLost
            else .ok (staged.db.updateJobs (lease.holds fenceNow)
              (ScanJob.recordPage page.messages.length page.nextOffsetId))

/-! ## The other statements of a slice -/

/-- `load_cached_media`: the stored previews of the page's messages. -/
def loadCachedMedia (lease : ScanLease) (page : ScanPage) (db : Database) : List CachedMediaRow :=
  db.messages.rows.filterMap fun m =>
    if lease.ownsMessage m && page.messages.any (·.telegramId == m.telegramId) then
      m.cachedMedia.map fun media => ⟨m.telegramId, media, m.cachedMediaMimeType⟩
    else none

/-! ## What staging a page does -/

section Staging

variable {py : Runtime} {lease : ScanLease} {categories : List (String × CategoryId)}
  {other : CategoryId} {stored : TelegramId → Option Message}

theorem stageMessage_eq_ok {staged next : Staged} {scanned : ScannedMessage}
    (h : stageMessage py lease categories other stored staged scanned = .ok next) :
    (∃ existing, stored scanned.telegramId = some existing ∧ next = { staged with
      db := staged.db.updateMessages (·.id == existing.id) (refreshMessage lease scanned) }) ∨
    (∃ categoryId, stored scanned.telegramId = none ∧ scanned.telegramId ∉ staged.seen ∧
      next = { db := staged.db.insertMessage (newMessage lease scanned categoryId)
               seen := scanned.telegramId :: staged.seen }) := by
  unfold stageMessage at h
  split at h
  · split at h
    · cases h
    · rename_i existing hStored
      cases h
      exact Or.inl ⟨existing, hStored, rfl⟩
  · rename_i hNew
    split at h
    · cases h
    · cases h
      rw [Bool.or_eq_true, not_or] at hNew
      obtain ⟨hStored, hSeen⟩ := hNew
      refine Or.inr ⟨_, ?_, ?_, rfl⟩
      · simpa using hStored
      · simpa using hSeen

/-- A property of databases that refreshing a stored row and adding a new one keep. -/
theorem stagePage_induct {P : Staged → Prop} {messages : List ScannedMessage}
    {staged final : Staged}
    (h : stagePage py lease categories other stored staged messages = .ok final)
    (hStart : P staged)
    (hStep : ∀ current scanned next, scanned ∈ messages → P current →
      stageMessage py lease categories other stored current scanned = .ok next → P next) :
    P final := by
  induction messages generalizing staged with
  | nil =>
      cases h
      exact hStart
  | cons scanned rest ih =>
      unfold stagePage at h
      split at h
      · cases h
      · rename_i next hNext
        exact ih h (hStep staged scanned next List.mem_cons_self hStart hNext)
          (fun current m next hm => hStep current m next (List.mem_cons_of_mem _ hm))

/-- Staging touches the message table only. -/
theorem stagePage_tables {messages : List ScannedMessage} {staged final : Staged}
    (h : stagePage py lease categories other stored staged messages = .ok final) :
    final.db.jobs = staged.db.jobs ∧ final.db.connections = staged.db.connections ∧
      final.db.categories = staged.db.categories ∧
      final.db.messageTags = staged.db.messageTags := by
  refine stagePage_induct (P := fun s => s.db.jobs = staged.db.jobs ∧
    s.db.connections = staged.db.connections ∧ s.db.categories = staged.db.categories ∧
    s.db.messageTags = staged.db.messageTags) h ⟨rfl, rfl, rfl, rfl⟩ ?_
  intro current scanned next _ hCurrent hStep
  rcases stageMessage_eq_ok hStep with ⟨_, -, rfl⟩ | ⟨_, -, -, rfl⟩
  · exact hCurrent
  · exact hCurrent

end Staging

theorem persistScanPage_eq_ok {py : Runtime} {now fenceNow : Instant} {lease : ScanLease}
    {page : ScanPage} {db db' : Database}
    (h : persistScanPage py now fenceNow lease page db = .ok db') :
    (∃ c, db.boundConnection lease = some c) ∧ (∃ job, db.heldJob lease now = some job) ∧
      (∃ job, db.heldJob lease fenceNow = some job) ∧
      ∃ other staged, stagePage py lease (db.categoryMap lease.userId) other
        (db.storedMessage lease) ⟨db, []⟩ page.messages = .ok staged ∧
        db' = staged.db.updateJobs (lease.holds fenceNow)
          (ScanJob.recordPage page.messages.length page.nextOffsetId) := by
  unfold persistScanPage at h
  split at h
  · cases h
  split at h
  · cases h
  dsimp only at h
  split at h
  · cases h
  split at h
  · cases h
  split at h
  · cases h
  · rename_i hConnection hJob _ other _ _ staged hStaged hFence
    cases h
    simp only [Option.isNone_iff_eq_none] at hConnection hJob hFence
    exact ⟨Option.ne_none_iff_exists'.mp hConnection, Option.ne_none_iff_exists'.mp hJob,
      Option.ne_none_iff_exists'.mp hFence, other, staged, hStaged, rfl⟩

end SavedOrganizer
