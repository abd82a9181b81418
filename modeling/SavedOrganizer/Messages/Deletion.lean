import SavedOrganizer.Messages.Edits
import SavedOrganizer.Service.Connection
import Mathlib.Algebra.Group.Int.Defs
import Mathlib.Data.List.Dedup

/-!
# Deleting messages

`MessageService.delete_message` and `bulk_delete_messages`, with the call of
`delete_saved_messages` that deletes the messages in Telegram first. What the client does is
a script with one entry for each call; an entry may be any failure. Besides the rows, the
outcome records the ids of every `client.delete_messages`.

`DeletionClient.deleteSavedMessages` has all the answers and errors of the call. What it does
to the connection is the transaction of `Service.Connection` (`deleteSavedMessages_eq`).
-/

namespace SavedOrganizer

def MAX_DATABASE_INTEGER : Int := 2 ^ 31 - 1

/-- What the service raises. -/
inductive MessageError
  /-- `ValueError`. -/
  | value (message : String)
  | messageNotFound (message : String)
  | categoryNotFound (message : String)
  /-- `TelegramMessageProvenanceError`. -/
  | provenance (message : String)
  /-- `TelegramClientNotConnectedError`. -/
  | notConnected (message : String)
  /-- `TelegramMessageDeleteError`. -/
  | deleteFailed (message : String)
  deriving DecidableEq, Repr

/-! ## Loading the messages -/

namespace MessageService

/-- The loop of `_normalize_message_ids`. -/
def normalizeMessageIdsFrom (normalized : List Int) : List Int → Except MessageError (List Int)
  | [] => .ok normalized
  | id :: ids =>
      if id ≤ 0 || id > MAX_DATABASE_INTEGER then
        .error (.value "message_ids must contain only positive integers.")
      else if normalized.contains id then normalizeMessageIdsFrom normalized ids
      else normalizeMessageIdsFrom (normalized ++ [id]) ids

def normalizeMessageIds (ids : List Int) : Except MessageError (List Int) :=
  if ids.isEmpty then .error (.value "message_ids must contain at least one id.")
  else if ids.length > 200 then
    .error (.value "message_ids must not contain more than 200 ids.")
  else normalizeMessageIdsFrom [] ids

def formatMissingMessageError : List Int → String
  | [id] => "Message " ++ toString id ++ " was not found."
  | ids => "Messages " ++ ", ".intercalate (ids.map toString) ++ " were not found."

variable (userId : UserId)

/-- `_load_message`. -/
def loadMessage (db : Database) (id : Int) : Option Message :=
  db.messages.rows.find? fun m => m.userId == userId && (m.id : Int) == id

def getMessage (db : Database) (id : Int) : Except MessageError Message :=
  match loadMessage userId db id with
  | none => .error (.messageNotFound ("Message " ++ toString id ++ " was not found."))
  | some message => .ok message

def loadMessagesByIds (db : Database) (ids : List Int) : Except MessageError (List Message) :=
  let rows := db.messages.rows.filter fun m => m.userId == userId && ids.contains (m.id : Int)
  let missing := ids.filter fun id => !rows.any fun m => (m.id : Int) == id
  if missing.isEmpty then
    .ok (ids.filterMap fun id => rows.find? fun m => (m.id : Int) == id)
  else .error (.messageNotFound (formatMissingMessageError missing))

end MessageService

/-! ## Deleting in Telegram -/

/-- What a call of the client may raise. -/
inductive ClientFailure
  | rpc
  /-- A timeout, a lost connection, anything else. -/
  | other
  deriving DecidableEq, Repr

def ClientFailure.deletionError : ClientFailure → MessageError
  | .rpc => .deleteFailed "Telegram rejected message deletion."
  | .other => .deleteFailed "Failed to delete Telegram message(s)."

/-- The outcome of each call of the client. -/
structure DeletionClient where
  connect : Except ClientFailure Unit
  isUserAuthorized : Except ClientFailure Bool
  /-- `get_me()`, by its `id`. -/
  identity : Except ClientFailure (Option TelegramId)
  deleteMessages : Except ClientFailure Unit
  savedSession : Except ClientFailure ClientSession

/-- How `delete_saved_messages` ends. When it raises its transaction is over, rolled back or
committed by the invalidation; otherwise the caller's goes on. -/
structure RemoteDeletion where
  /-- The ids of each `client.delete_messages`. -/
  passed : List (List TelegramId)
  result : Except (MessageError × Database) Database

/-- The rows after the call, however it ends. -/
def RemoteDeletion.db (r : RemoteDeletion) : Database :=
  match r.result with
  | .error (_, db) => db
  | .ok db => db

namespace DeletionClient

variable (client : DeletionClient) (vault : Vault) (now : Instant) (userId : UserId)

/-- `delete_saved_messages`. -/
def deleteSavedMessages (telegramUserId : TelegramId) (generation : Nat)
    (ids : List TelegramId) (db : Database) : RemoteDeletion :=
  let normalized := ids.eraseDups
  let invalidated := invalidateAuthorization now userId db
  if normalized.isEmpty then ⟨[], .ok db⟩
  else match (db.connections.find? userId).filter fun c =>
      c.telegramUserId == some telegramUserId && c.generation == generation with
  | none => ⟨[], .error (.provenance
      "The cached message does not belong to the active Telegram connection.", db)⟩
  | some c =>
      if c.state != .connected || !truthy c.sessionEncrypted then
        ⟨[], .error (.provenance
          "The cached message does not belong to the active Telegram connection.", db)⟩
      else if !vault.opens c then
        ⟨[], .error (.notConnected
          "The saved Telegram authorization could not be opened.", invalidated)⟩
      else match client.connect with
      | .error failure => ⟨[], .error (failure.deletionError, db)⟩
      | .ok () => match client.isUserAuthorized with
        | .error failure => ⟨[], .error (failure.deletionError, db)⟩
        | .ok false =>
            ⟨[], .error (.notConnected
              "Telegram is not authorized for the current user.", invalidated)⟩
        | .ok true => match client.identity with
          | .error failure => ⟨[], .error (failure.deletionError, db)⟩
          | .ok identity =>
              if identity != some telegramUserId then
                ⟨[], .error (.provenance
                  "The active Telegram session does not match the cached message provenance.",
                  invalidated)⟩
              else match client.deleteMessages with
              | .error failure => ⟨[normalized], .error (failure.deletionError, db)⟩
              | .ok () => match client.savedSession with
                | .error failure => ⟨[normalized], .error (failure.deletionError, db)⟩
                | .ok session =>
                    let sealed := vault.sealSession userId session
                    ⟨[normalized], .ok (db.updateConnection userId
                      (fun row => { row with sessionEncrypted := some sealed })
                      (TelegramConnection.keepSession_userId sealed))⟩

/-- The one account and generation of the messages. -/
def provenance (messages : List Message) : Except MessageError (TelegramId × Nat) :=
  match (messages.map fun m => (m.telegramUserId, m.connectionGeneration)).dedup with
  | [(some telegramUserId, some generation)] => .ok (telegramUserId, generation)
  | [_] => .error (.provenance
      "Legacy messages without Telegram provenance can only be deleted locally.")
  | _ => .error (.provenance
      "Messages from different Telegram connections cannot be deleted together.")

/-- `_delete_telegram_messages`. -/
def deleteTelegramMessages (messages : List Message) (db : Database) : RemoteDeletion :=
  match provenance messages with
  | .error error => ⟨[], .error (error, db)⟩
  | .ok (telegramUserId, generation) =>
      client.deleteSavedMessages vault now userId telegramUserId generation
        (messages.map Message.telegramId) db

end DeletionClient

/-! ## The two requests -/

/-- The answer to a request, the rows it leaves committed, and what the client was asked to
delete. -/
structure DeletionResponse where
  passed : List (List TelegramId)
  result : Except MessageError Nat
  db : Database

namespace MessageService

variable (client : DeletionClient) (vault : Vault) (now : Instant) (userId : UserId)

/-- `session.delete` of each message, and the commit. -/
def deleteRows (messages : List Message) (db : Database) : Database :=
  LibraryEdit.dropMessages db fun m => messages.any fun r => r.id == m.id

/-- The two requests behind the loading of their messages. -/
def deleteLoaded (localOnly : Bool) (messages : List Message) (db : Database) :
    DeletionResponse :=
  if localOnly then ⟨[], .ok messages.length, deleteRows messages db⟩
  else
    let remote := client.deleteTelegramMessages vault now userId messages db
    match remote.result with
    | .error (error, db) => ⟨remote.passed, .error error, db⟩
    | .ok db => ⟨remote.passed, .ok messages.length, deleteRows messages db⟩

def deleteMessage (localOnly : Bool) (id : Int) (db : Database) : DeletionResponse :=
  match getMessage userId db id with
  | .error error => ⟨[], .error error, db⟩
  | .ok message => deleteLoaded client vault now userId localOnly [message] db

def bulkDeleteMessages (localOnly : Bool) (ids : List Int) (db : Database) : DeletionResponse :=
  match (normalizeMessageIds ids).bind (loadMessagesByIds userId db) with
  | .error error => ⟨[], .error error, db⟩
  | .ok messages => deleteLoaded client vault now userId localOnly messages db

end MessageService

/-! ## What a request names -/

/-- The row belongs to the user and its id is one of the requested. -/
def Requested (userId : UserId) (ids : List Int) (m : Message) : Prop :=
  m.userId = userId ∧ (m.id : Int) ∈ ids

section Loading

variable {userId : UserId} {db : Database}

theorem mem_normalizeMessageIdsFrom {normalized ids result : List Int}
    (h : MessageService.normalizeMessageIdsFrom normalized ids = .ok result) (id : Int) :
    id ∈ result ↔ id ∈ normalized ∨ id ∈ ids := by
  induction ids generalizing normalized with
  | nil =>
      obtain rfl := Except.ok.inj h
      simp
  | cons first ids ih =>
      rw [MessageService.normalizeMessageIdsFrom] at h
      split at h
      · cases h
      split at h
      · rename_i hSeen
        have hSeen : first ∈ normalized := List.contains_iff_mem.mp hSeen
        rw [ih h, List.mem_cons]
        constructor
        · exact Or.imp_right Or.inr
        · rintro (hId | rfl | hId)
          · exact Or.inl hId
          · exact Or.inl hSeen
          · exact Or.inr hId
      · rw [ih h, List.mem_append, List.mem_singleton, List.mem_cons, or_assoc]

theorem mem_normalizeMessageIds {ids result : List Int}
    (h : MessageService.normalizeMessageIds ids = .ok result) (id : Int) :
    id ∈ result ↔ id ∈ ids := by
  unfold MessageService.normalizeMessageIds at h
  split at h
  · cases h
  split at h
  · cases h
  · simpa using mem_normalizeMessageIdsFrom h id

/-- A key finds the one row that has it. -/
theorem find_message {rows : List Message} (hRows : ∀ m ∈ rows, m ∈ db.messages) {id : Int}
    {m : Message} : rows.find? (fun m => (m.id : Int) == id) = some m ↔ m ∈ rows ∧ (m.id : Int) = id := by
  constructor
  · intro h
    exact ⟨List.mem_of_find?_eq_some h, by simpa using List.find?_some h⟩
  · rintro ⟨hm, rfl⟩
    obtain ⟨r, hr⟩ : ∃ r, rows.find? (fun r => (r.id : Int) == (m.id : Int)) = some r :=
      Option.isSome_iff_exists.mp (List.find?_isSome.mpr ⟨m, hm, by simp⟩)
    have hId : (r.id : Int) = m.id := by simpa using List.find?_some hr
    have hId : r.id = m.id := Int.ofNat_inj.mp hId
    rw [hr, Table.eq_of_key (hRows r (List.mem_of_find?_eq_some hr)) (hRows m hm) hId]

theorem mem_loadMessagesByIds {ids : List Int} {messages : List Message}
    (h : MessageService.loadMessagesByIds userId db ids = .ok messages) (m : Message) :
    m ∈ messages ↔ m ∈ db.messages ∧ Requested userId ids m := by
  unfold MessageService.loadMessagesByIds at h
  dsimp only at h
  split at h
  · obtain rfl := Except.ok.inj h
    have hRows : ∀ m ∈ db.messages.rows.filter
        (fun m => m.userId == userId && ids.contains (m.id : Int)), m ∈ db.messages :=
      fun m hm => (List.mem_filter.mp hm).1
    simp only [List.mem_filterMap, find_message hRows, List.mem_filter, Bool.and_eq_true,
      beq_iff_eq, List.contains_iff_mem]
    constructor
    · rintro ⟨id, -, ⟨hm, hUser, hId⟩, rfl⟩
      exact ⟨hm, hUser, hId⟩
    · rintro ⟨hm, hUser, hId⟩
      exact ⟨m.id, hId, ⟨hm, hUser, hId⟩, rfl⟩
  · cases h

theorem getMessage_eq_ok {id : Int} {message : Message}
    (h : MessageService.getMessage userId db id = .ok message) (m : Message) :
    m ∈ [message] ↔ m ∈ db.messages ∧ Requested userId [id] m := by
  unfold MessageService.getMessage at h
  split at h
  · cases h
  · rename_i found hFound
    obtain rfl := Except.ok.inj h
    have hMem : found ∈ db.messages := List.mem_of_find?_eq_some hFound
    have hNamed : found.userId = userId ∧ (found.id : Int) = id := by
      simpa using List.find?_some hFound
    simp only [List.mem_singleton, Requested]
    constructor
    · rintro rfl
      exact ⟨hMem, hNamed⟩
    · rintro ⟨hm, -, hId⟩
      exact Table.eq_of_key hm hMem (by exact_mod_cast hId.trans hNamed.2.symm)

theorem provenance_eq_ok {messages : List Message} {telegramUserId : TelegramId}
    {generation : Nat}
    (h : DeletionClient.provenance messages = .ok (telegramUserId, generation)) :
    ∀ m ∈ messages, m.telegramUserId = some telegramUserId ∧
      m.connectionGeneration = some generation := by
  unfold DeletionClient.provenance at h
  split at h
  · rename_i t g hOne
    obtain ⟨rfl, rfl⟩ := Prod.mk.inj (Except.ok.inj h)
    intro m hm
    have hMem : (m.telegramUserId, m.connectionGeneration) ∈
        (messages.map fun m => (m.telegramUserId, m.connectionGeneration)).dedup :=
      List.mem_dedup.mpr (List.mem_map_of_mem hm)
    rw [hOne, List.mem_singleton] at hMem
    exact Prod.mk.inj hMem
  · cases h
  · cases h

end Loading

/-! ## The call of the client -/

theorem nodup_eraseDups {α : Type} [DecidableEq α] (xs : List α) : xs.eraseDups.Nodup := by
  induction hn : xs.length using Nat.strongRecOn generalizing xs with
  | ind n ih =>
      cases xs with
      | nil => simp
      | cons x xs =>
          rw [List.eraseDups_cons, List.nodup_cons]
          constructor
          · simp
          · refine ih _ ?_ _ rfl
            rw [← hn]
            exact Nat.lt_succ_of_le (List.length_filter_le _ xs)

/-- The connection and the client both stand for this account. -/
structure Authorizes (client : DeletionClient) (db : Database) (userId : UserId)
    (telegramUserId : TelegramId) (generation : Nat) : Prop where
  connection : ∃ c ∈ db.connections, c.userId = userId ∧ c.state = .connected ∧
    c.telegramUserId = some telegramUserId ∧ c.generation = generation
  identity : client.identity = .ok (some telegramUserId)

/-- What a deletion in Telegram may come to. -/
inductive Deleted (client : DeletionClient) (now : Instant) (userId : UserId)
    (telegramUserId : TelegramId) (generation : Nat) (ids : List TelegramId) (db : Database) :
    RemoteDeletion → Prop
  | nothing (empty : ids = []) :
      Deleted client now userId telegramUserId generation ids db ⟨[], .ok db⟩
  | refused (error : MessageError) :
      Deleted client now userId telegramUserId generation ids db ⟨[], .error (error, db)⟩
  | invalidated (error : MessageError) :
      Deleted client now userId telegramUserId generation ids db
        ⟨[], .error (error, invalidateAuthorization now userId db)⟩
  | failed (error : MessageError)
      (authorizes : Authorizes client db userId telegramUserId generation) :
      Deleted client now userId telegramUserId generation ids db
        ⟨[ids.eraseDups], .error (error, db)⟩
  | deleted (session : Secret)
      (authorizes : Authorizes client db userId telegramUserId generation) :
      Deleted client now userId telegramUserId generation ids db
        ⟨[ids.eraseDups], .ok (db.updateConnection userId fun row =>
          { row with sessionEncrypted := some session })⟩

section Client

variable {client : DeletionClient} {vault : Vault} {now : Instant} {userId : UserId}
  {telegramUserId : TelegramId} {generation : Nat} {ids : List TelegramId} {db : Database}

theorem deleteSavedMessages_deleted :
    Deleted client now userId telegramUserId generation ids db
      (client.deleteSavedMessages vault now userId telegramUserId generation ids db) := by
  unfold DeletionClient.deleteSavedMessages
  dsimp only
  split
  · rename_i hEmpty
    refine .nothing (List.eq_nil_iff_forall_not_mem.mpr fun x hx => ?_)
    have hMem := List.mem_eraseDups.mpr hx
    rw [List.isEmpty_iff.mp hEmpty] at hMem
    cases hMem
  split
  · exact .refused _
  rename_i c hFound
  obtain ⟨hRow, hBound⟩ := Option.filter_eq_some_iff.mp hFound
  split
  · exact .refused _
  rename_i hUsable
  split
  · exact .invalidated _
  split
  · exact .refused _
  split
  · exact .refused _
  · exact .invalidated _
  split
  · exact .refused _
  rename_i identity hIdentity
  split
  · exact .invalidated _
  rename_i hSame
  have hAuthorizes : Authorizes client db userId telegramUserId generation := by
    have hBound : c.telegramUserId = some telegramUserId ∧ c.generation = generation := by
      simpa using hBound
    have hConnected : c.state = .connected := by
      by_contra hNot
      exact hUsable (by simp [hNot])
    have hReported : identity = some telegramUserId := by simpa using hSame
    exact ⟨⟨c, Table.mem_of_find? hRow, Table.key_of_find? hRow, hConnected, hBound⟩,
      hReported ▸ hIdentity⟩
  split
  · exact .failed _ hAuthorizes
  split
  · exact .failed _ hAuthorizes
  · exact .deleted _ hAuthorizes

/-- An invalidation deletes no message. -/
theorem invalidateAuthorization_kept {m : Message} (h : m ∈ db.messages) :
    ∃ m' ∈ (invalidateAuthorization now userId db).messages, SameMessage m m' := by
  let marked (m : Message) : Bool := m.userId == userId && db.markedBy (·.activeOf userId) m
  refine ⟨if marked m then m.unmark else m,
    (@Table.mem_update _ _ _ db.messages marked Message.unmark (fun _ => rfl) _).mpr
      ⟨m, h, rfl⟩, ?_⟩
  split
  · exact ⟨rfl, rfl, rfl, rfl⟩
  · exact SameMessage.refl m

/-- The answers of the client, as far as the connection is concerned: a client that fails
while it deletes has not been reached. -/
def DeletionClient.answer (client : DeletionClient) (telegramUserId : TelegramId) :
    ClientIdentity :=
  match client.connect, client.isUserAuthorized, client.identity with
  | .error _, _, _ => .unreachable
  | _, .error _, _ => .unreachable
  | _, .ok false, _ => .unauthorized
  | _, _, .error _ => .unreachable
  | _, _, .ok none => .withoutId
  | _, _, .ok (some actual) =>
      if actual != telegramUserId then .id actual
      else match client.deleteMessages, client.savedSession with
      | .ok (), .ok _ => .id actual
      | _, _ => .unreachable

/-- On the connection the call is the transaction of `Service.Connection`. -/
theorem deleteSavedMessages_eq {session : ClientSession} (hIds : ids ≠ [])
    (hSession : ∀ saved, client.savedSession = .ok saved → saved = session) :
    (client.deleteSavedMessages vault now userId telegramUserId generation ids db).db =
      SavedOrganizer.deleteSavedMessages vault now userId telegramUserId generation
        (client.answer telegramUserId) session db := by
  have hSome : ids.eraseDups.isEmpty = false := by
    obtain ⟨x, hx⟩ := List.exists_mem_of_ne_nil ids hIds
    have hMem := List.mem_eraseDups.mpr hx
    rw [List.isEmpty_eq_false_iff]
    exact List.ne_nil_of_mem hMem
  unfold DeletionClient.deleteSavedMessages SavedOrganizer.deleteSavedMessages
    DeletionClient.answer
  dsimp only
  rw [if_neg (by simp [hSome])]
  cases (db.connections.find? userId).filter fun c =>
      c.telegramUserId == some telegramUserId && c.generation == generation with
  | none => rfl
  | some c =>
      dsimp only
      split
      · rfl
      split
      · rfl
      cases client.connect with
      | error failure => rfl
      | ok _ =>
          cases client.isUserAuthorized with
          | error failure => rfl
          | ok authorized =>
              cases authorized with
              | false => rfl
              | true =>
                  cases client.identity with
                  | error failure => rfl
                  | ok identity =>
                      cases identity with
                      | none => rfl
                      | some actual =>
                          by_cases hActual : actual = telegramUserId
                          · subst hActual
                            cases client.deleteMessages with
                            | error failure => simp [RemoteDeletion.db]
                            | ok _ =>
                                cases hSaved : client.savedSession with
                                | error failure => simp [RemoteDeletion.db]
                                | ok saved => simp [RemoteDeletion.db, hSession saved hSaved]
                          · simp [RemoteDeletion.db, hActual]

end Client

/-! ## The requests -/

inductive DeletionRequest
  /-- `delete_message`. -/
  | message (id : Int)
  /-- `bulk_delete_messages`. -/
  | messages (ids : List Int)

namespace DeletionRequest

def ids : DeletionRequest → List Int
  | message id => [id]
  | messages ids => ids

def run (client : DeletionClient) (vault : Vault) (now : Instant) (userId : UserId)
    (localOnly : Bool) (db : Database) : DeletionRequest → DeletionResponse
  | message id => MessageService.deleteMessage client vault now userId localOnly id db
  | messages ids => MessageService.bulkDeleteMessages client vault now userId localOnly ids db

end DeletionRequest

/-- The response touches what the request names: nothing else is deleted, here or in
Telegram, and nothing is deleted here unless it was deleted there. -/
structure DeletesRequested (client : DeletionClient) (userId : UserId) (ids : List Int)
    (db : Database) (r : DeletionResponse) : Prop where
  passed_requested : ∀ call ∈ r.passed, call.Nodup ∧
    ∀ x, x ∈ call ↔ ∃ m ∈ db.messages, Requested userId ids m ∧ m.telegramId = x
  passed_current : ∀ call ∈ r.passed, ∀ m ∈ db.messages, Requested userId ids m →
    ∃ c ∈ db.connections, c.userId = userId ∧ c.state = .connected ∧
      c.telegramUserId ≠ none ∧ m.telegramUserId = c.telegramUserId ∧
      m.connectionGeneration = some c.generation ∧ client.identity = .ok m.telegramUserId
  passed_once : r.passed.length ≤ 1
  kept : ∀ error, r.result = .error error →
    ∀ m ∈ db.messages, ∃ m' ∈ r.db.messages, SameMessage m m'
  deleted : ∀ count, r.result = .ok count →
    r.passed.length = 1 ∧
      ∀ m, m ∈ r.db.messages ↔ m ∈ db.messages ∧ ¬ Requested userId ids m

section Requests

variable {client : DeletionClient} {vault : Vault} {now : Instant} {userId : UserId}
  {ids : List Int} {db : Database} {messages : List Message}

/-- A request that is refused before the client is asked. -/
theorem deletesRequested_refused {error : MessageError} :
    DeletesRequested client userId ids db ⟨[], .error error, db⟩ where
  passed_requested := by simp
  passed_current := by simp
  passed_once := Nat.zero_le _
  kept := fun _ _ m hm => ⟨m, hm, SameMessage.refl m⟩
  deleted := by simp

/-- Deleting the loaded rows leaves the rows that were not requested. -/
theorem mem_deleteRows (hMessages : ∀ m, m ∈ messages ↔ m ∈ db.messages ∧ Requested userId ids m)
    {db' : Database} (hSame : db'.messages = db.messages) (m : Message) :
    m ∈ (MessageService.deleteRows messages db').messages ↔
      m ∈ db.messages ∧ ¬ Requested userId ids m := by
  have hDelete : m ∈ (MessageService.deleteRows messages db').messages ↔
      m ∈ db'.messages ∧ (messages.any fun r => r.id == m.id) = false := Table.mem_delete
  rw [hDelete, hSame]
  refine and_congr_right fun hm => ?_
  rw [← Bool.not_eq_true, not_iff_not, List.any_eq_true]
  constructor
  · rintro ⟨r, hr, hId⟩
    obtain ⟨hRow, hRequested⟩ := (hMessages r).mp hr
    have hEq : r = m := Table.eq_of_key hRow hm (by simpa using hId)
    exact hEq ▸ hRequested
  · intro hRequested
    exact ⟨m, (hMessages m).mpr ⟨hm, hRequested⟩, by simp⟩

theorem passed_requested (hMessages : ∀ m, m ∈ messages ↔ m ∈ db.messages ∧ Requested userId ids m)
    (x : TelegramId) : x ∈ (messages.map Message.telegramId).eraseDups ↔
      ∃ m ∈ db.messages, Requested userId ids m ∧ m.telegramId = x := by
  rw [List.mem_eraseDups, List.mem_map]
  constructor
  · rintro ⟨m, hm, rfl⟩
    obtain ⟨hRow, hRequested⟩ := (hMessages m).mp hm
    exact ⟨m, hRow, hRequested, rfl⟩
  · rintro ⟨m, hRow, hRequested, rfl⟩
    exact ⟨m, (hMessages m).mpr ⟨hRow, hRequested⟩, rfl⟩

theorem deleteLoaded_deletesRequested
    (hMessages : ∀ m, m ∈ messages ↔ m ∈ db.messages ∧ Requested userId ids m) :
    DeletesRequested client userId ids db
      (MessageService.deleteLoaded client vault now userId false messages db) := by
  unfold MessageService.deleteLoaded DeletionClient.deleteTelegramMessages
  rw [if_neg Bool.false_ne_true]
  dsimp only
  cases hProvenance : DeletionClient.provenance messages with
  | error error => exact deletesRequested_refused
  | ok origin =>
      obtain ⟨telegramUserId, generation⟩ := origin
      have hOrigin := provenance_eq_ok hProvenance
      have hPassed := passed_requested hMessages
      have hCurrent : Authorizes client db userId telegramUserId generation →
          ∀ m ∈ db.messages, Requested userId ids m →
          ∃ c ∈ db.connections, c.userId = userId ∧ c.state = .connected ∧
            c.telegramUserId ≠ none ∧ m.telegramUserId = c.telegramUserId ∧
            m.connectionGeneration = some c.generation ∧
            client.identity = .ok m.telegramUserId := by
        rintro ⟨⟨c, hc, hUser, hState, hAccount, rfl⟩, hIdentity⟩ m hm hRequested
        obtain ⟨hTelegram, hGeneration⟩ := hOrigin m ((hMessages m).mpr ⟨hm, hRequested⟩)
        refine ⟨c, hc, hUser, hState, ?_, hTelegram.trans hAccount.symm, hGeneration, ?_⟩
        · rw [hAccount]
          exact Option.some_ne_none _
        · rw [hTelegram]
          exact hIdentity
      have hDeleted := @deleteSavedMessages_deleted client vault now userId telegramUserId
        generation (messages.map Message.telegramId) db
      dsimp only
      generalize client.deleteSavedMessages vault now userId telegramUserId generation
        (messages.map Message.telegramId) db = remote at hDeleted ⊢
      cases hDeleted with
      | nothing hEmpty =>
          -- there is always a message, or the provenance raises
          rw [List.map_eq_nil_iff.mp hEmpty] at hProvenance
          cases hProvenance
      | refused error => exact deletesRequested_refused
      | invalidated error =>
          exact ⟨by simp, by simp, Nat.zero_le _,
            fun _ _ m hm => invalidateAuthorization_kept hm, by simp⟩
      | failed error hAuthorizes =>
          refine ⟨?_, ?_, Nat.le_refl _, fun _ _ m hm => ⟨m, hm, SameMessage.refl m⟩, by simp⟩
          · intro call hCall
            obtain rfl := List.mem_singleton.mp hCall
            exact ⟨nodup_eraseDups _, hPassed⟩
          · exact fun _ _ => hCurrent hAuthorizes
      | deleted session hAuthorizes =>
          refine ⟨?_, ?_, Nat.le_refl _, by simp, fun _ _ => ⟨rfl, mem_deleteRows hMessages rfl⟩⟩
          · intro call hCall
            obtain rfl := List.mem_singleton.mp hCall
            exact ⟨nodup_eraseDups _, hPassed⟩
          · exact fun _ _ => hCurrent hAuthorizes

/-- Remote deletion touches only what the request names. -/
theorem remote_deletion (client : DeletionClient) (vault : Vault) (now : Instant)
    (userId : UserId) (request : DeletionRequest) (db : Database) :
    DeletesRequested client userId request.ids db
      (request.run client vault now userId false db) := by
  cases request with
  | message id =>
      unfold DeletionRequest.run MessageService.deleteMessage
      dsimp only
      cases hFound : MessageService.getMessage userId db id with
      | error error => exact deletesRequested_refused
      | ok message => exact deleteLoaded_deletesRequested (getMessage_eq_ok hFound)
  | messages ids =>
      unfold DeletionRequest.run MessageService.bulkDeleteMessages
      dsimp only
      cases hNormalized : MessageService.normalizeMessageIds ids with
      | error error => exact deletesRequested_refused
      | ok normalized =>
          have hIds := mem_normalizeMessageIds hNormalized
          dsimp only [Except.bind]
          cases hLoaded : MessageService.loadMessagesByIds userId db normalized with
          | error error => exact deletesRequested_refused
          | ok messages =>
              refine deleteLoaded_deletesRequested fun m => ?_
              rw [mem_loadMessagesByIds hLoaded, Requested, Requested, hIds]
              rfl

end Requests

end SavedOrganizer
