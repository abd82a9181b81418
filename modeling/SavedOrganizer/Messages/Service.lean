import SavedOrganizer.Library.Checks
import SavedOrganizer.Messages.Deletion
import SavedOrganizer.Messages.Kinds

/-!
# Listing and editing messages

`MessageService` without its deletions: `list_messages` with its filters and sort orders,
`get_message`, `get_cached_media`, `update_message`, `clear_all_messages` and
`bulk_move_messages`. A returned message comes with its category and its tags, the tags by id.

Every statement selects by the user. Only the writes of a message that has been loaded name it
by its primary key alone.
-/

namespace SavedOrganizer

open Python

def MAX_PAGE_NUMBER : Int := 1000000

/-- `MessageSort`: supported message list sorting modes. -/
inductive MessageSort
  | dateDesc | dateAsc | category | sender
  deriving DecidableEq, Repr

/-! ## Patterns -/

/-- `t LIKE pattern ESCAPE escape`. -/
def sqlLike (escape : Char) : Text → Text → Bool
  | [], t => t.isEmpty
  | c :: pattern, t =>
      if c = escape then
        match pattern, t with
        | d :: rest, e :: t => d == e && sqlLike escape rest t
        | _, _ => false
      else if c = '%' then t.tails.any (sqlLike escape pattern)
      else match t with
        | [] => false
        | e :: t => (c == '_' || c == e) && sqlLike escape pattern t

/-- `value.ilike(pattern, escape="\\")`. -/
def ilike (sql : Sql) (pattern : Text) (value : Option Text) : Bool :=
  value.any fun t => sqlLike '\\' (sql.lower pattern) (sql.lower t)

/-- `t.replace(c, by)`, for one character. -/
def replaceChar (c : Char) (replacement t : Text) : Text :=
  t.flatMap fun d => if d = c then replacement else [d]

/-- `search_pattern`. -/
def searchPattern (search : Text) : Text :=
  let escaped := replaceChar '_' ['\\', '_']
    (replaceChar '%' ['\\', '%'] (replaceChar '\\' ['\\', '\\'] search))
  '%' :: escaped ++ ['%']

/-! ## Messages with their category and tags -/

/-- A message as it is returned. -/
structure MessageView where
  message : Message
  category : Option Category
  tags : List Tag
  deriving DecidableEq, Repr

namespace Organizer

variable (s : Organizer)

/-- `Message.category`. -/
def categoryOf (m : Message) : Option Category :=
  s.db.categories.rows.find? fun c => c.userId == m.userId && c.id == m.categoryId

/-- The tag is assigned to the message. -/
def assigned (m : Message) (t : Tag) : Bool :=
  t.userId == m.userId && s.db.messageTags.rows.any (· == ⟨m.userId, m.id, t.id⟩)

/-- `Message.tags`. -/
def tagsOf (m : Message) : List Tag := s.tags.select (s.assigned m) (.ascending Tag.id)

/-- `Message.tags.any(..)`. -/
def anyTag (m : Message) (p : Tag → Bool) : Bool := s.tags.rows.any fun t => s.assigned m t && p t

def view (m : Message) : MessageView := ⟨m, s.categoryOf m, s.tagsOf m⟩

end Organizer

/-! ## Listing -/

/-- The arguments of `list_messages`. -/
structure ListArguments where
  page : Int := 1
  perPage : Int := 50
  sort : MessageSort := .dateDesc
  categorySlug : Option Text := none
  tagNames : List Text := []
  search : Option Text := none
  messageKind : Option MessageKind := none
  deriving DecidableEq, Repr

/-- The filters after normalization. -/
structure MessageFilter where
  categorySlug : Option Text
  tagNames : List Text
  search : Option Text
  messageKind : Option MessageKind
  deriving DecidableEq, Repr

/-- `MessageListResult`. -/
structure MessageListResult where
  items : List MessageView
  total : Nat
  page : Int
  perPage : Int
  deriving DecidableEq, Repr

/-- `tag_name.strip().casefold()`. -/
def tagNameKey (u : Unicode) (name : Text) : Text := u.casefold (strip name)

namespace MessageService

/-- A stripped optional argument; an empty one counts as missing. -/
def stripped (value : Option Text) : Option Text :=
  (value.map strip).filter (!·.isEmpty)

/-- `normalized_tag_names`. -/
def normalizedTagNames (u : Unicode) (names : List Text) : List Text :=
  ((names.filter fun name => !(strip name).isEmpty).map (tagNameKey u)).eraseDups

/-- The checks of `list_messages`. -/
def normalizeFilter (u : Unicode) (args : ListArguments) : Except MessageError MessageFilter :=
  let search := stripped args.search
  let tagNames := normalizedTagNames u args.tagNames
  if args.page ≤ 0 then .error (.value "page must be greater than zero.")
  else if args.page > MAX_PAGE_NUMBER then
    .error (.value ("page must not exceed " ++ toString MAX_PAGE_NUMBER ++ "."))
  else if args.perPage ≤ 0 then .error (.value "per_page must be greater than zero.")
  else if args.perPage > 200 then .error (.value "per_page must not exceed 200.")
  else if search.any (500 < ·.length) then
    .error (.value "search must not exceed 500 characters.")
  else if 20 < tagNames.length then
    .error (.value "tag_names must not contain more than 20 values.")
  else if tagNames.any (100 < ·.length) then
    .error (.value "tag names must not exceed 100 characters.")
  else .ok ⟨stripped args.categorySlug, tagNames, search, args.messageKind⟩

variable (sql : Sql) (u : Unicode) (userId : UserId) (s : Organizer)

/-- The `WHERE` of `list_messages`. -/
def selects (filter : MessageFilter) (m : Message) : Bool :=
  m.userId == userId &&
    (filter.categorySlug.all fun slug =>
      (s.categoryOf m).any fun c => c.userId == userId && c.slug.toList == slug) &&
    (filter.tagNames.all fun name =>
      s.anyTag m fun t => t.userId == userId && t.normalizedName == name) &&
    (filter.messageKind.all fun kind => messageKindPredicate sql kind m) &&
    (filter.search.all fun search =>
      ilike sql (searchPattern search) m.content || ilike sql (searchPattern search) m.url ||
        ilike sql (searchPattern search) m.senderName ||
        s.anyTag m fun t => t.userId == userId && ilike sql (searchPattern search) (some t.name))

/-- `Message.date.desc(), Message.id.desc()`. -/
def newestFirst : SortKey Message := (SortKey.descending Message.date).thenBy (.descending Message.id)

/-- The join for the order by category: a message without its category drops out. -/
def joins (sort : MessageSort) (m : Message) : Bool := sort != .category || (s.categoryOf m).isSome

/-- `ordering`. -/
def ordering : MessageSort → SortKey Message
  | .category =>
      (sql.collation.on fun m => sql.lower (((s.categoryOf m).map (·.name.toList)).getD [])).thenBy
        newestFirst
  | .sender => (sql.collation.on fun m => sql.lower (m.senderName.getD [])).thenBy newestFirst
  | .dateAsc => (SortKey.ascending Message.date).thenBy (.ascending Message.id)
  | .dateDesc => newestFirst

/-- `list_messages`. -/
def listMessages (args : ListArguments) : Except MessageError MessageListResult :=
  match normalizeFilter u args with
  | .error e => .error e
  | .ok filter =>
      let rows := s.db.messages.select
        (fun m => selects sql userId s filter m && joins s args.sort m)
        (ordering sql s args.sort)
      .ok
        { items := ((rows.drop ((args.page - 1) * args.perPage).toNat).take
            args.perPage.toNat).map s.view
          total := s.db.messages.count (selects sql userId s filter)
          page := args.page
          perPage := args.perPage }

/-! ## Reading one message -/

def getMessageView (id : Int) : Except MessageError MessageView :=
  (getMessage userId s.db id).map s.view

/-- `CachedMessageMedia`. -/
structure CachedMessageMedia where
  content : Bytes
  mimeType : Text
  deriving DecidableEq, Repr

def getCachedMedia (id : Int) : Except MessageError CachedMessageMedia :=
  match loadMessage userId s.db id with
  | some { cachedMedia := some content, cachedMediaMimeType := some mimeType, .. } =>
      .ok ⟨content, mimeType⟩
  | _ => .error (.messageNotFound ("Media for message " ++ toString id ++ " was not found."))

/-! ## Editing -/

/-- `_ensure_category_exists`; the id is printed as it was given. -/
def ensureCategoryExists (id : Int) (printed : String) : Except MessageError Unit :=
  if s.db.categories.rows.any fun c => c.userId == userId && (c.id : Int) == id then .ok ()
  else .error (.categoryNotFound ("Category " ++ printed ++ " was not found."))

/-- What `update_message` assigns to the message it has loaded. -/
structure MessageChange where
  loaded : MessageView
  categoryId : Option CategoryId
  content : Option (Option Text)
  deriving DecidableEq, Repr

/-- The new category of an update. `True` is the integer 1. -/
def updatedCategory (updates : Updates) : Except MessageError (Option CategoryId) :=
  let refused := Except.error (MessageError.value "category_id must be a positive integer.")
  let accepted (id : Int) (printed : String) :=
    if id ≤ 0 then refused
    else (ensureCategoryExists userId s id printed).map fun _ => some id.toNat
  match updates.get? "category_id" with
  | none => .ok none
  | some (.int id) => accepted id (toString id)
  | some (.bool true) => accepted 1 "True"
  | some _ => refused

def updatedContent (updates : Updates) : Except MessageError (Option (Option Text)) :=
  match updates.get? "content" with
  | none => .ok none
  | some .none => .ok (some none)
  | some (.str content) => .ok (some (some content))
  | some _ => .error (.value "content must be a string or null.")

def checkUpdate (id : Int) (updates : Updates) : Except MessageError MessageChange :=
  if updates.isEmpty then .error (.value "At least one update field must be provided.")
  else match getMessageView userId s id with
  | .error e => .error e
  | .ok loaded => match updates.unknown ["category_id", "content"] with
    | some fields => .error (.value ("Unsupported update field(s): " ++ fields ++ "."))
    | none => match updatedCategory userId s updates with
      | .error e => .error e
      | .ok categoryId => (updatedContent updates).map fun content => ⟨loaded, categoryId, content⟩

def MessageChange.apply (change : MessageChange) (m : Message) : Message :=
  { m with
    categoryId := change.categoryId.getD m.categoryId
    content := change.content.getD m.content }

/-- `update_message`. The message that is read again is the loaded object, whose category and
tags stay as they were loaded. -/
def updateMessage (id : Int) (updates : Updates) : Organizer → Except MessageError MessageView × Organizer :=
  Organizer.transaction (checkUpdate userId · id updates)
    (fun change s => s.updateMessages (·.id == change.loaded.message.id) change.apply)
    fun change s => (getMessage userId s.db id).map fun m => { change.loaded with message := m }

/-- `clear_all_messages`. -/
def clearAllMessages : Organizer → Except MessageError Nat × Organizer :=
  Organizer.transaction (fun s => .ok (s.db.messages.count (·.userId == userId)))
    (fun _ s => { s with
      db := { s.db with
        messageTags := s.db.messageTags.delete (·.userId == userId) }.deleteMessages
          (·.userId == userId) })
    fun total _ => .ok total

def checkMove (ids : List Int) (categoryId : Value) :
    Except MessageError (List Message × CategoryId) :=
  match categoryId with
  | .int id =>
      if id ≤ 0 then .error (.value "category_id must be a positive integer.")
      else match normalizeMessageIds ids with
      | .error e => .error e
      | .ok normalized => match ensureCategoryExists userId s id (toString id) with
        | .error e => .error e
        | .ok () => (loadMessagesByIds userId s.db normalized).map fun messages =>
            (messages, id.toNat)
  | _ => .error (.value "category_id must be a positive integer.")

/-- `bulk_move_messages`. -/
def bulkMoveMessages (ids : List Int) (categoryId : Value) :
    Organizer → Except MessageError Nat × Organizer :=
  Organizer.transaction (checkMove userId · ids categoryId)
    (fun (messages, categoryId) s => s.updateMessages
      (fun m => messages.any fun r => r.id == m.id) (fun m => { m with categoryId := categoryId })
      (Message.move_id categoryId))
    fun (messages, _) _ => .ok messages.length

end MessageService

/-! ## The orders of the list -/

theorem decides_newestFirst : MessageService.newestFirst.Decides := by
  refine SortKey.Decides.thenBy (fun m m' hLe hGe => ?_) _
  exact Nat.le_antisymm (of_decide_eq_true hGe) (of_decide_eq_true hLe)

/-- Every order of the list ends with the id. -/
theorem decides_ordering (sql : Sql) (s : Organizer) (sort : MessageSort) :
    (MessageService.ordering sql s sort).Decides := by
  cases sort with
  | dateDesc => exact decides_newestFirst
  | dateAsc =>
      refine SortKey.Decides.thenBy (fun m m' hLe hGe => ?_) _
      exact Nat.le_antisymm (of_decide_eq_true hLe) (of_decide_eq_true hGe)
  | category => exact decides_newestFirst.thenBy _
  | sender => exact decides_newestFirst.thenBy _

/-! ## What a request loads -/

section Loading

variable {userId : UserId} {s : Organizer} {id : Int} {m : Message}

theorem loadMessage_eq_some (h : MessageService.loadMessage userId s.db id = some m) :
    m ∈ s.db.messages ∧ m.userId = userId := by
  have hNamed := List.find?_some h
  simp only [Bool.and_eq_true, beq_iff_eq] at hNamed
  exact ⟨List.mem_of_find?_eq_some h, hNamed.1⟩

/-- An update works on a stored message of the user. -/
theorem checkUpdate_loaded {updates : Updates} {change : MessageService.MessageChange}
    (h : MessageService.checkUpdate userId s id updates = .ok change) :
    change.loaded.message ∈ s.db.messages ∧ change.loaded.message.userId = userId := by
  unfold MessageService.checkUpdate MessageService.getMessageView MessageService.getMessage at h
  cases hLoaded : MessageService.loadMessage userId s.db id with
  | none =>
      rw [hLoaded] at h
      split at h
      · cases h
      · cases h
  | some m =>
      rw [hLoaded] at h
      have hView : change.loaded = s.view m := by
        split at h
        · cases h
        · dsimp only [Except.map] at h
          split at h
          · cases h
          · split at h
            · cases h
            · obtain ⟨content, -, rfl⟩ := Checks.map_eq_ok h
              rfl
      rw [hView]
      exact loadMessage_eq_some hLoaded

end Loading

end SavedOrganizer
