import SavedOrganizer.Messages.Service

/-!
# Tags

`TagService`: the tags of a user and their assignment to messages. A tag has a name and a key,
the name after NFC, casefolding and NFC again, by which it is unique. Ids come as arguments of
any type and are checked before they are used.
-/

namespace SavedOrganizer

open Python

def MAX_NORMALIZED_NAME_LENGTH : Nat := 100

/-- What the service raises. -/
inductive TagError
  /-- `ValueError`. -/
  | value (message : String)
  | tagNotFound (message : String)
  | tagConflict (message : String)
  | messageNotFound (message : String)
  | assignmentNotFound (message : String)
  deriving DecidableEq, Repr

/-- `HEX_COLOR_PATTERN.match`. -/
def isHexColor : Text → Bool
  | '#' :: digits =>
      (digits.length == 6 || (digits.length == 7 && digits.getLast? == some '\n')) &&
        (digits.take 6).all fun c => ('0' ≤ c && c ≤ '9') || ('A' ≤ c && c ≤ 'F')
  | _ => false

/-- `TagWithCount`. -/
structure TagWithCount where
  tag : Tag
  messageCount : Nat
  deriving DecidableEq, Repr

/-- `BulkTagResult`. -/
structure BulkTagResult where
  updatedCount : Nat
  assignmentCount : Nat
  deriving DecidableEq, Repr

namespace TagService

/-! ## Arguments -/

section Arguments

variable (u : Unicode)

/-- `_normalize_name`. -/
def normalizeName : Value → Except TagError Text
  | .str value =>
      let name := u.nfc (strip value)
      if name.isEmpty then .error (.value "name must not be empty.") else .ok name
  | _ => .error (.value "name must be a string.")

/-- `_normalize_name_key`. -/
def normalizeNameKey (value : Text) : Except TagError Text :=
  let key := u.nfc (u.casefold value)
  if MAX_NORMALIZED_NAME_LENGTH < key.length then
    .error (.value "name is too long after Unicode normalization.")
  else .ok key

/-- `_normalize_color`. -/
def normalizeColor : Value → Except TagError (Option Text)
  | .none => .ok none
  | .str value =>
      let color := u.upper (strip value)
      if color.isEmpty then .ok none
      else if isHexColor color then .ok (some color)
      else .error (.value "color must be a valid hex value like #22C55E.")
  | _ => .error (.value "color must be a string or null.")

/-- The name and the key of a tag. -/
def normalizedNames (value : Value) : Except TagError (Text × Text) :=
  match normalizeName u value with
  | .error e => .error e
  | .ok name => (normalizeNameKey u name).map fun key => (name, key)

/-- `_normalize_positive_int`. -/
def normalizePositiveInt (value : Value) (field : String) : Except TagError Int :=
  match value with
  | .int n =>
      if n ≤ 0 then .error (.value (field ++ " must be a positive integer.")) else .ok n
  | _ => .error (.value (field ++ " must be a positive integer."))

/-- The loop of `_normalize_ids`. -/
def normalizeIdsFrom (field : String) (normalized : List Int) :
    List Value → Except TagError (List Int)
  | [] => .ok normalized
  | value :: values =>
      match normalizePositiveInt value field with
      | .error e => .error e
      | .ok id =>
          if normalized.contains id then normalizeIdsFrom field normalized values
          else normalizeIdsFrom field (normalized ++ [id]) values

/-- `_normalize_ids`. -/
def normalizeIds (values : List Value) (field : String) (maxCount : Nat) :
    Except TagError (List Int) :=
  if values.isEmpty then .error (.value (field ++ " must contain at least one id."))
  else if maxCount < values.length then
    .error (.value (field ++ " must not contain more than " ++ toString maxCount ++ " ids."))
  else normalizeIdsFrom field [] values

def normalizeTagIds (values : List Value) : Except TagError (List Int) :=
  normalizeIds values "tag_ids" 100

def normalizeMessageIds (values : List Value) : Except TagError (List Int) :=
  normalizeIds values "message_ids" 200

/-- `_format_missing_tag_error` and `_format_missing_message_error`. -/
def formatMissingError (kind : String) : List Int → String
  | [id] => kind ++ " " ++ toString id ++ " was not found."
  | ids => kind ++ "s " ++ ", ".intercalate (ids.map toString) ++ " were not found."

end Arguments

/-! ## Loading -/

section Loading

variable (userId : UserId) (s : Organizer)

/-- `_load_tag`. -/
def loadTag (id : Int) : Option Tag :=
  s.tags.rows.find? fun t => t.userId == userId && (t.id : Int) == id

def requireTag (id : Int) : Except TagError Tag :=
  match loadTag userId s id with
  | none => .error (.tagNotFound ("Tag " ++ toString id ++ " was not found."))
  | some tag => .ok tag

/-- `_load_message`, and the error when there is none. -/
def requireMessage (id : Int) : Except TagError Message :=
  match MessageService.loadMessage userId s.db id with
  | none => .error (.messageNotFound ("Message " ++ toString id ++ " was not found."))
  | some message => .ok message

/-- `_load_messages_by_ids`. -/
def loadMessagesByIds (ids : List Int) : Except TagError (List Message) :=
  match ids.filter fun id => (MessageService.loadMessage userId s.db id).isNone with
  | [] => .ok (ids.filterMap (MessageService.loadMessage userId s.db))
  | missing => .error (.messageNotFound (formatMissingError "Message" missing))

/-- `_load_tags_by_ids`. -/
def loadTagsByIds (ids : List Int) : Except TagError (List Tag) :=
  match ids.filter fun id => (loadTag userId s id).isNone with
  | [] => .ok (ids.filterMap (loadTag userId s))
  | missing => .error (.tagNotFound (formatMissingError "Tag" missing))

/-- `_load_message_tags`. -/
def loadMessageTags (id : MessageId) : List Tag :=
  s.tags.select (fun t => t.userId == userId &&
    s.db.messageTags.rows.any (· == ⟨userId, id, t.id⟩)) (.ascending Tag.id)

/-- The tag is assigned to the message. -/
def isAssigned (id : MessageId) (tagId : TagId) : Bool :=
  s.db.messageTags.rows.any (· == ⟨userId, id, tagId⟩)

/-- `_ensure_name_available`, for a name with this key. -/
def ensureNameAvailable (name key : Text) (excluded : Option TagId) : Except TagError Unit :=
  if s.tags.rows.any fun t => t.userId == userId && t.normalizedName == key &&
      excluded.all (t.id != ·) then
    .error (.tagConflict ("Tag name '" ++ String.ofList name ++ "' already exists."))
  else .ok ()

end Loading

/-! ## Tags -/

section Tags

variable (sql : Sql) (u : Unicode) (userId : UserId)

/-- `Tag.normalized_name.asc(), Tag.id.asc()`. -/
def byName : SortKey Tag := (sql.collation.on Tag.normalizedName).thenBy (.ascending Tag.id)

def listTags (s : Organizer) : List Tag := s.tags.select (·.userId == userId) (byName sql)

def listTagsWithCounts (s : Organizer) : List TagWithCount :=
  (listTags sql userId s).map fun t =>
    ⟨t, s.db.messageTags.count fun a => a.userId == t.userId && a.tagId == t.id⟩

/-- The row `create_tag` adds, without its id. -/
def checkCreate (name color : Value) (s : Organizer) : Except TagError Tag :=
  match normalizedNames u name with
  | .error e => .error e
  | .ok (name, key) => match normalizeColor u color with
    | .error e => .error e
    | .ok color => (ensureNameAvailable userId s name key none).map fun _ =>
        ⟨0, userId, name, key, color⟩

/-- `create_tag`. -/
def createTag (name color : Value) (s : Organizer) : Except TagError Tag × Organizer :=
  match checkCreate u userId name color s with
  | .error e => (.error e, s)
  | .ok row => (.ok { row with id := s.nextTagId }, s.insertTag row)

/-- The new name and key of an update. -/
def updatedNames (tag : Tag) (updates : Updates) (s : Organizer) :
    Except TagError (Text × Text) :=
  match updates.get? "name" with
  | none => .ok (tag.name, tag.normalizedName)
  | some value => match normalizedNames u value with
    | .error e => .error e
    | .ok (name, key) => (ensureNameAvailable userId s name key (some tag.id)).map fun _ =>
        (name, key)

def updatedColor (tag : Tag) (updates : Updates) : Except TagError (Option Text) :=
  match updates.get? "color" with
  | none => .ok tag.color
  | some value => normalizeColor u value

/-- The row as `update_tag` leaves it. -/
def checkUpdate (id : Value) (updates : Updates) (s : Organizer) : Except TagError Tag :=
  match normalizePositiveInt id "tag_id" with
  | .error e => .error e
  | .ok id =>
      if updates.isEmpty then .error (.value "At least one update field must be provided.")
      else match updates.unknown ["name", "color"] with
      | some fields => .error (.value ("Unsupported update field(s): " ++ fields ++ "."))
      | none => match requireTag userId s id with
        | .error e => .error e
        | .ok tag => match updatedNames u userId tag updates s with
          | .error e => .error e
          | .ok (name, key) => (updatedColor u tag updates).map fun color =>
              { tag with name := name, normalizedName := key, color := color }

/-- `update_tag`. -/
def updateTag (id : Value) (updates : Updates) : Organizer → Except TagError Tag × Organizer :=
  Organizer.transaction (checkUpdate u userId id updates)
    (fun tag s => s.updateTags (·.id == tag.id) fun row =>
      { row with name := tag.name, normalizedName := tag.normalizedName, color := tag.color })
    fun tag _ => .ok tag

/-- `delete_tag`. Its assignments go with it. -/
def deleteTag (id : Value) : Organizer → Except TagError Unit × Organizer :=
  Organizer.transaction
    (fun s => match normalizePositiveInt id "tag_id" with
      | .error e => .error e
      | .ok id => requireTag userId s id)
    (fun tag s => (s.deleteMessageTags fun a => a.userId == tag.userId && a.tagId == tag.id).deleteTags
      (·.id == tag.id))
    fun _ _ => .ok ()

end Tags

/-! ## Assignments -/

section Assignments

variable (userId : UserId)

def checkAddTags (messageId : Value) (tagIds : List Value) (s : Organizer) :
    Except TagError (Message × List Tag) :=
  match normalizePositiveInt messageId "message_id" with
  | .error e => .error e
  | .ok messageId => match normalizeTagIds tagIds with
    | .error e => .error e
    | .ok tagIds => match requireMessage userId s messageId with
      | .error e => .error e
      | .ok message => (loadTagsByIds userId s tagIds).map fun tags => (message, tags)

/-- `add_tags_to_message`. -/
def addTagsToMessage (messageId : Value) (tagIds : List Value) :
    Organizer → Except TagError (List Tag) × Organizer :=
  Organizer.transaction (checkAddTags userId messageId tagIds)
    (fun (message, tags) s => s.insertMessageTags
      ((tags.filter fun t => !isAssigned userId s message.id t.id).map fun t =>
        ⟨userId, message.id, t.id⟩))
    fun (message, _) s => .ok (loadMessageTags userId s message.id)

/-- The assignments that are missing. -/
def checkBulkAdd (messageIds tagIds : List Value) (s : Organizer) :
    Except TagError (List MessageTag) :=
  match normalizeMessageIds messageIds with
  | .error e => .error e
  | .ok messageIds => match normalizeTagIds tagIds with
    | .error e => .error e
    | .ok tagIds => match loadMessagesByIds userId s messageIds with
      | .error e => .error e
      | .ok messages => (loadTagsByIds userId s tagIds).map fun tags =>
          (messages.flatMap fun m => tags.map fun t => ⟨userId, m.id, t.id⟩).filter
            fun a => !isAssigned userId s a.messageId a.tagId

/-- `bulk_add_tags_to_messages`. -/
def bulkAddTagsToMessages (messageIds tagIds : List Value) :
    Organizer → Except TagError BulkTagResult × Organizer :=
  Organizer.transaction (checkBulkAdd userId messageIds tagIds)
    (fun missing s => s.insertMessageTags missing)
    fun missing _ => .ok ⟨(missing.map MessageTag.messageId).eraseDups.length, missing.length⟩

def checkRemove (messageId tagId : Value) (s : Organizer) : Except TagError (Message × Tag) :=
  match normalizePositiveInt messageId "message_id" with
  | .error e => .error e
  | .ok messageId => match normalizePositiveInt tagId "tag_id" with
    | .error e => .error e
    | .ok tagId => match requireMessage userId s messageId with
      | .error e => .error e
      | .ok message => match requireTag userId s tagId with
        | .error e => .error e
        | .ok tag =>
            if isAssigned userId s message.id tag.id then .ok (message, tag)
            else .error (.assignmentNotFound ("Tag " ++ toString tagId ++
              " is not assigned to message " ++ toString messageId ++ "."))

/-- `remove_tag_from_message`. -/
def removeTagFromMessage (messageId tagId : Value) :
    Organizer → Except TagError (List Tag) × Organizer :=
  Organizer.transaction (checkRemove userId messageId tagId)
    (fun (message, tag) s => s.deleteMessageTags (· == ⟨userId, message.id, tag.id⟩))
    fun (message, _) s => .ok (loadMessageTags userId s message.id)

end Assignments

end TagService

end SavedOrganizer
