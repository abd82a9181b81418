import SavedOrganizer.Library.Table
import SavedOrganizer.Python.Text

/-!
# The stored rows

The tables of `models.py` that the scan, connection and message services read and write.
Row and job identifiers, users and lease owners are opaque in the program (UUID strings or
sequence numbers, compared for equality only) and are numbers here. Times are UTC
microseconds. Text columns hold Unicode code points, one `Char` each.

A `Database` is the committed content of these tables. Message row ids come from a
sequence that is above every id in use (`messageIds_fresh`), so an inserted message never
meets a taken primary key; `updateMessages`, `deleteMessages` and `insertMessage` are the
statements that change the message table.
-/

namespace SavedOrganizer

abbrev UserId := Nat
abbrev JobId := Nat
abbrev LeaseOwner := Nat
abbrev MessageId := Nat
abbrev CategoryId := Nat
abbrev TagId := Nat

/-- A Telegram user id or a Saved Message id, as Telegram numbers them. -/
abbrev TelegramId := Int

/-- UTC time in microseconds. -/
abbrev Instant := Nat

/-- A time span of whole seconds, in microseconds. -/
def seconds (n : Nat) : Nat := n * 1000000

theorem seconds_pos {n : Nat} (h : 0 < n) : 0 < seconds n := Nat.mul_pos h (by decide)

abbrev Bytes := List UInt8

/-- Encrypted column value. -/
abbrev Secret := String

/-- Python truth of an optional string column: set and not empty. -/
def truthy (value : Option String) : Bool := value.any (fun s => s != "")

/-! ## Rows -/

inductive ConnectionState
  | disconnected | pending | connected | error
  deriving DecidableEq, Repr

/-- `TelegramConnection`: a user's encrypted Telegram authorization and challenge state. -/
structure TelegramConnection where
  userId : UserId
  telegramUserId : Option TelegramId
  apiIdEncrypted : Option Secret
  apiHashEncrypted : Option Secret
  phoneEncrypted : Option Secret
  sessionEncrypted : Option Secret
  state : ConnectionState
  pendingPhoneCodeHashEncrypted : Option Secret
  pendingExpiresAt : Option Instant
  passwordRequired : Bool
  generation : Nat
  deriving DecidableEq, Repr

/-- The row is unique per user. -/
instance : Keyed TelegramConnection UserId := ⟨TelegramConnection.userId⟩

inductive ScanJobState
  | pending | running | stopping | completed | failed | cancelled
  deriving DecidableEq, Repr

/-- `ACTIVE_SCAN_STATES`. -/
def ScanJobState.active : ScanJobState → Bool
  | .pending | .running | .stopping => true
  | .completed | .failed | .cancelled => false

theorem ScanJobState.completed_ended : ScanJobState.completed.active = false := rfl

theorem ScanJobState.cancelled_ended : ScanJobState.cancelled.active = false := rfl

/-- The values the column `completion_reason` admits. -/
inductive CompletionReason
  | sourceExhausted | messageLimitReached | runtimeLimitReached | stoppedByUser
  deriving DecidableEq, Repr

/-- `ScanJob`: durable per-user Telegram scan state. -/
structure ScanJob where
  id : JobId
  userId : UserId
  state : ScanJobState
  stopRequested : Bool
  replaceExisting : Bool
  messagesScanned : Nat
  pagesScanned : Nat
  pageSize : Nat
  maxMessages : Nat
  maxRuntimeSeconds : Nat
  completionReason : Option CompletionReason
  telegramUserId : Option TelegramId
  connectionGeneration : Option Nat
  lastMessageId : Option TelegramId
  startedAt : Option Instant
  finishedAt : Option Instant
  error : Option String
  leaseOwner : Option LeaseOwner
  leaseExpiresAt : Option Instant
  heartbeatAt : Option Instant
  createdAt : Instant
  deriving DecidableEq, Repr

instance : Keyed ScanJob JobId := ⟨ScanJob.id⟩

/-- `Category`: user-owned message category. -/
structure Category where
  id : CategoryId
  userId : UserId
  name : String
  normalizedName : String
  slug : String
  systemKey : Option String
  icon : String
  color : String
  position : Nat
  isDefault : Bool
  deriving DecidableEq, Repr

instance : Keyed Category CategoryId := ⟨Category.id⟩

/-- `Message`: user-owned cached Telegram Saved Message. -/
structure Message where
  id : MessageId
  userId : UserId
  telegramId : TelegramId
  telegramUserId : Option TelegramId
  connectionGeneration : Option Nat
  lastSeenReplacementJobId : Option JobId
  content : Option Text
  mediaType : Option Text
  fileName : Option Text
  fileSize : Option Int
  mimeType : Option Text
  cachedMedia : Option Bytes
  cachedMediaMimeType : Option Text
  url : Option Text
  senderName : Option Text
  date : Instant
  categoryId : CategoryId
  rawData : List (String × TelegramId)
  deriving DecidableEq, Repr

instance : Keyed Message MessageId := ⟨Message.id⟩

/-- `MessageTag`: association between a message and a tag. -/
structure MessageTag where
  userId : UserId
  messageId : MessageId
  tagId : TagId
  deriving DecidableEq, Repr

/-- The primary key is the whole row. -/
instance : Keyed MessageTag MessageTag := ⟨id⟩

@[simp] theorem key_connection (r : TelegramConnection) : (Keyed.key r : UserId) = r.userId := rfl
@[simp] theorem key_job (r : ScanJob) : (Keyed.key r : JobId) = r.id := rfl
@[simp] theorem key_category (r : Category) : (Keyed.key r : CategoryId) = r.id := rfl
@[simp] theorem key_message (r : Message) : (Keyed.key r : MessageId) = r.id := rfl
@[simp] theorem key_messageTag (r : MessageTag) : (Keyed.key r : MessageTag) = r := rfl

/-! ## The database -/

/-- The committed rows, and the sequence behind `messages.id`. -/
structure Database where
  connections : Table TelegramConnection
  jobs : Table ScanJob
  categories : Table Category
  messages : Table Message
  messageTags : Table MessageTag
  nextMessageId : MessageId
  messageIds_fresh : ∀ m ∈ messages, m.id < nextMessageId

namespace Database

/-- The unique constraint on the source of a message; a null account is never equal. -/
def SourcesUnique (db : Database) : Prop :=
  ∀ m ∈ db.messages, ∀ m' ∈ db.messages, m.userId = m'.userId →
    m.telegramUserId = m'.telegramUserId → m.telegramUserId ≠ none →
    m.telegramId = m'.telegramId → m = m'

/-- `UPDATE messages SET f WHERE p`. -/
def updateMessages (db : Database) (p : Message → Bool) (f : Message → Message)
    (hKey : ∀ m, (f m).id = m.id := by intro _; exact Eq.trans rfl rfl) : Database :=
  { db with
    messages := db.messages.update p f hKey
    messageIds_fresh := by
      intro m hm
      obtain ⟨r, hr, rfl⟩ := Table.mem_update.mp hm
      have hId : (if p r then f r else r).id = r.id := by
        split
        · exact hKey r
        · rfl
      rw [hId]
      exact db.messageIds_fresh r hr }

/-- `DELETE FROM messages WHERE p`. -/
def deleteMessages (db : Database) (p : Message → Bool) : Database :=
  { db with
    messages := db.messages.delete p
    messageIds_fresh := fun m hm => db.messageIds_fresh m (Table.mem_delete.mp hm).1 }

/-- `INSERT INTO messages`: the row gets the next id of the sequence. -/
def insertMessage (db : Database) (row : Message) : Database :=
  { db with
    messages := db.messages.insert { row with id := db.nextMessageId }
      (fun m hm => Nat.ne_of_lt (db.messageIds_fresh m hm))
    nextMessageId := db.nextMessageId + 1
    messageIds_fresh := by
      intro m hm
      rcases (Table.mem_insert _).mp hm with hm | rfl
      · exact Nat.lt_succ_of_lt (db.messageIds_fresh m hm)
      · exact Nat.lt_succ_self _ }

/-- `UPDATE scan_jobs SET f WHERE p`. -/
def updateJobs (db : Database) (p : ScanJob → Bool) (f : ScanJob → ScanJob)
    (hKey : ∀ j, (f j).id = j.id := by intro _; exact Eq.trans rfl rfl) : Database :=
  { db with jobs := db.jobs.update p f hKey }

/-- `UPDATE telegram_connections SET f WHERE p`. -/
def updateConnections (db : Database) (p : TelegramConnection → Bool)
    (f : TelegramConnection → TelegramConnection)
    (hKey : ∀ c, (f c).userId = c.userId := by intro _; exact Eq.trans rfl rfl) : Database :=
  { db with connections := db.connections.update p f hKey }

section Simp

variable (db : Database)

@[simp] theorem updateMessages_jobs (p : Message → Bool) (f : Message → Message)
    (h : ∀ m, (f m).id = m.id) : (db.updateMessages p f h).jobs = db.jobs := rfl

@[simp] theorem updateMessages_connections (p : Message → Bool) (f : Message → Message)
    (h : ∀ m, (f m).id = m.id) : (db.updateMessages p f h).connections = db.connections := rfl

@[simp] theorem updateMessages_messages (p : Message → Bool) (f : Message → Message)
    (h : ∀ m, (f m).id = m.id) :
    (db.updateMessages p f h).messages = db.messages.update p f h := rfl

@[simp] theorem updateMessages_messageTags (p : Message → Bool) (f : Message → Message)
    (h : ∀ m, (f m).id = m.id) : (db.updateMessages p f h).messageTags = db.messageTags := rfl

@[simp] theorem deleteMessages_jobs (p : Message → Bool) :
    (db.deleteMessages p).jobs = db.jobs := rfl

@[simp] theorem deleteMessages_connections (p : Message → Bool) :
    (db.deleteMessages p).connections = db.connections := rfl

@[simp] theorem deleteMessages_messages (p : Message → Bool) :
    (db.deleteMessages p).messages = db.messages.delete p := rfl

@[simp] theorem deleteMessages_messageTags (p : Message → Bool) :
    (db.deleteMessages p).messageTags = db.messageTags := rfl

@[simp] theorem insertMessage_jobs (row : Message) : (db.insertMessage row).jobs = db.jobs := rfl

@[simp] theorem insertMessage_connections (row : Message) :
    (db.insertMessage row).connections = db.connections := rfl

@[simp] theorem insertMessage_messageTags (row : Message) :
    (db.insertMessage row).messageTags = db.messageTags := rfl

@[simp] theorem updateJobs_jobs (p : ScanJob → Bool) (f : ScanJob → ScanJob)
    (h : ∀ j, (f j).id = j.id) : (db.updateJobs p f h).jobs = db.jobs.update p f h := rfl

@[simp] theorem updateJobs_messages (p : ScanJob → Bool) (f : ScanJob → ScanJob)
    (h : ∀ j, (f j).id = j.id) : (db.updateJobs p f h).messages = db.messages := rfl

@[simp] theorem updateJobs_connections (p : ScanJob → Bool) (f : ScanJob → ScanJob)
    (h : ∀ j, (f j).id = j.id) : (db.updateJobs p f h).connections = db.connections := rfl

@[simp] theorem updateJobs_messageTags (p : ScanJob → Bool) (f : ScanJob → ScanJob)
    (h : ∀ j, (f j).id = j.id) : (db.updateJobs p f h).messageTags = db.messageTags := rfl

@[simp] theorem updateConnections_connections (p : TelegramConnection → Bool)
    (f : TelegramConnection → TelegramConnection) (h : ∀ c, (f c).userId = c.userId) :
    (db.updateConnections p f h).connections = db.connections.update p f h := rfl

@[simp] theorem updateConnections_jobs (p : TelegramConnection → Bool)
    (f : TelegramConnection → TelegramConnection) (h : ∀ c, (f c).userId = c.userId) :
    (db.updateConnections p f h).jobs = db.jobs := rfl

@[simp] theorem updateConnections_messages (p : TelegramConnection → Bool)
    (f : TelegramConnection → TelegramConnection) (h : ∀ c, (f c).userId = c.userId) :
    (db.updateConnections p f h).messages = db.messages := rfl

@[simp] theorem updateConnections_messageTags (p : TelegramConnection → Bool)
    (f : TelegramConnection → TelegramConnection) (h : ∀ c, (f c).userId = c.userId) :
    (db.updateConnections p f h).messageTags = db.messageTags := rfl

end Simp

/-! A statement that selects no row changes nothing. -/

theorem updateMessages_eq_self {db : Database} {p : Message → Bool} {f : Message → Message}
    {hKey : ∀ m, (f m).id = m.id} (h : ∀ m ∈ db.messages, p m = false) :
    db.updateMessages p f hKey = db := by
  have hTable : db.messages.update p f hKey = db.messages := Table.update_eq_self h
  cases db
  simp only [updateMessages, Database.mk.injEq, true_and, and_true]
  exact hTable

theorem updateJobs_eq_self {db : Database} {p : ScanJob → Bool} {f : ScanJob → ScanJob}
    {hKey : ∀ job, (f job).id = job.id} (h : ∀ job ∈ db.jobs, p job = false) :
    db.updateJobs p f hKey = db := by
  have hTable : db.jobs.update p f hKey = db.jobs := Table.update_eq_self h
  cases db
  simp only [updateJobs, Database.mk.injEq, true_and, and_true]
  exact hTable

theorem mem_insertMessage {db : Database} {row m : Message} :
    m ∈ (db.insertMessage row).messages ↔
      m ∈ db.messages ∨ m = { row with id := db.nextMessageId } :=
  Table.mem_insert (fun m hm => Nat.ne_of_lt (db.messageIds_fresh m hm))

end Database

end SavedOrganizer
