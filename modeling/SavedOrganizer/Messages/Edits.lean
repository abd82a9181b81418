import SavedOrganizer.Models

/-!
# What users do to their library

The writes that a successful request of the message, tag and category services commits, as
far as the scan has to live with them: messages are edited, moved and deleted, tags are put
on and taken off, and categories come and go. A request that is refused writes nothing and
is not an edit.

`mem_apply` is all the scan needs to know: an edit invents no message and changes neither
where a message comes from nor its replacement marker. Whether it deletes, moves or retags
one message is `keepsOrganization`.
-/

namespace SavedOrganizer

inductive LibraryEdit
  /-- `update_message`. -/
  | updateMessage (userId : UserId) (id : MessageId) (categoryId : Option CategoryId)
      (content : Option (Option Text))
  /-- `bulk_move_messages`. -/
  | moveMessages (userId : UserId) (ids : List MessageId) (categoryId : CategoryId)
  /-- `delete_message` and `bulk_delete_messages`. -/
  | deleteMessages (userId : UserId) (ids : List MessageId)
  /-- `clear_all_messages`. -/
  | clearMessages (userId : UserId)
  /-- One row of `add_tags_to_message`. -/
  | addTag (userId : UserId) (id : MessageId) (tagId : TagId)
  /-- `remove_tag_from_message`. -/
  | removeTag (userId : UserId) (id : MessageId) (tagId : TagId)
  /-- `delete_tag`; its assignments go with it. -/
  | deleteTag (userId : UserId) (tagId : TagId)
  /-- `create_category`. -/
  | createCategory (category : Category)
  /-- `delete_category`: the messages move to the fallback category. -/
  | deleteCategory (userId : UserId) (categoryId fallback : CategoryId)
  deriving DecidableEq

/-- The rows are the same message of the same Telegram account. -/
structure SameMessage (m m' : Message) : Prop where
  id : m'.id = m.id
  userId : m'.userId = m.userId
  telegramUserId : m'.telegramUserId = m.telegramUserId
  telegramId : m'.telegramId = m.telegramId

theorem SameMessage.refl (m : Message) : SameMessage m m := ⟨rfl, rfl, rfl, rfl⟩

theorem SameMessage.trans {m m' m'' : Message} (h : SameMessage m m') (h' : SameMessage m' m'') :
    SameMessage m m'' :=
  ⟨h'.id.trans h.id, h'.userId.trans h.userId, h'.telegramUserId.trans h.telegramUserId,
    h'.telegramId.trans h.telegramId⟩

/-- Each message after an update is one from before it. -/
theorem Database.mem_updateMessages {db : Database} {p : Message → Bool} {f : Message → Message}
    (hKey : ∀ m, (f m).id = m.id) {m' : Message}
    (h : m' ∈ (db.updateMessages p f hKey).messages) :
    ∃ m ∈ db.messages, m' = if p m then f m else m := by
  have h : m' ∈ db.messages.update p f hKey := h
  obtain ⟨m, hm, rfl⟩ := Table.mem_update.mp h
  exact ⟨m, hm, rfl⟩

theorem Message.move_id (categoryId : CategoryId) (m : Message) :
    { m with categoryId := categoryId }.id = m.id := rfl

namespace LibraryEdit

/-- Messages and their tags are deleted together. -/
def dropMessages (db : Database) (p : Message → Bool) : Database :=
  let untagged : Database :=
    { db with messageTags := db.messageTags.delete fun t =>
        (db.messages.find? t.messageId).any fun m => m.userId == t.userId && p m }
  untagged.deleteMessages p

def apply (db : Database) : LibraryEdit → Database
  | updateMessage userId id categoryId content =>
      db.updateMessages (fun m => m.userId == userId && m.id == id) fun m =>
        { m with
          categoryId := categoryId.getD m.categoryId
          content := content.getD m.content }
  | moveMessages userId ids categoryId =>
      db.updateMessages (fun m => m.userId == userId && ids.contains m.id)
        (fun m => { m with categoryId := categoryId }) (Message.move_id categoryId)
  | deleteMessages userId ids =>
      dropMessages db fun m => m.userId == userId && ids.contains m.id
  | clearMessages userId => dropMessages db (·.userId == userId)
  | addTag userId id tagId =>
      { db with messageTags := (db.messageTags.insert? ⟨userId, id, tagId⟩).getD db.messageTags }
  | removeTag userId id tagId =>
      { db with messageTags := db.messageTags.delete (· == ⟨userId, id, tagId⟩) }
  | deleteTag userId tagId =>
      { db with messageTags :=
          db.messageTags.delete fun t => t.userId == userId && t.tagId == tagId }
  | createCategory category =>
      { db with categories := (db.categories.insert? category).getD db.categories }
  | deleteCategory userId categoryId fallback =>
      let moved := db.updateMessages
        (fun m => m.userId == userId && m.categoryId == categoryId)
        fun m => { m with categoryId := fallback }
      { moved with
        categories := moved.categories.delete fun c => c.userId == userId && c.id == categoryId }

variable {db : Database}

theorem apply_jobs (edit : LibraryEdit) : (edit.apply db).jobs = db.jobs := by
  cases edit <;> rfl

theorem apply_connections (edit : LibraryEdit) :
    (edit.apply db).connections = db.connections := by
  cases edit <;> rfl

/-- Each message after an edit is one from before it, with its marker. -/
theorem mem_apply {edit : LibraryEdit} {m' : Message} (h : m' ∈ (edit.apply db).messages) :
    ∃ m ∈ db.messages, SameMessage m m' ∧
      m'.lastSeenReplacementJobId = m.lastSeenReplacementJobId := by
  have hSelf (hm : m' ∈ db.messages) : ∃ m ∈ db.messages, SameMessage m m' ∧
      m'.lastSeenReplacementJobId = m.lastSeenReplacementJobId :=
    ⟨m', hm, SameMessage.refl m', rfl⟩
  have hUpdate {p : Message → Bool} {f : Message → Message} (hKey : ∀ m, (f m).id = m.id)
      (h : m' ∈ (db.updateMessages p f hKey).messages) (hSame : ∀ m, SameMessage m (f m))
      (hMarker : ∀ m, (f m).lastSeenReplacementJobId = m.lastSeenReplacementJobId) :
      ∃ m ∈ db.messages, SameMessage m m' ∧
        m'.lastSeenReplacementJobId = m.lastSeenReplacementJobId := by
    obtain ⟨m, hm, rfl⟩ := Database.mem_updateMessages hKey h
    refine ⟨m, hm, ?_⟩
    split
    · exact ⟨hSame m, hMarker m⟩
    · exact ⟨SameMessage.refl m, rfl⟩
  cases edit with
  | updateMessage => exact hUpdate _ h (fun _ => ⟨rfl, rfl, rfl, rfl⟩) (fun _ => rfl)
  | moveMessages => exact hUpdate _ h (fun _ => ⟨rfl, rfl, rfl, rfl⟩) (fun _ => rfl)
  | deleteMessages => exact hSelf (Table.mem_delete.mp h).1
  | clearMessages => exact hSelf (Table.mem_delete.mp h).1
  | addTag => exact hSelf h
  | removeTag => exact hSelf h
  | deleteTag => exact hSelf h
  | createCategory => exact hSelf h
  | deleteCategory userId categoryId fallback =>
      have hMoved : m' ∈ (db.updateMessages
          (fun m => m.userId == userId && m.categoryId == categoryId)
          (fun m => { m with categoryId := fallback })).messages := h
      exact hUpdate _ hMoved (fun _ => ⟨rfl, rfl, rfl, rfl⟩) (fun _ => rfl)

end LibraryEdit

/-- The tags of a message. -/
def Database.hasTag (db : Database) (m : Message) (tagId : TagId) : Prop :=
  (⟨m.userId, m.id, tagId⟩ : MessageTag) ∈ db.messageTags

/-- From `db` to `db'` the message is not deleted, moved or retagged. -/
def KeepsOrganization (db db' : Database) (m : Message) : Prop :=
  ∃ m' ∈ db'.messages, SameMessage m m' ∧ m'.categoryId = m.categoryId ∧
    ∀ tagId, db'.hasTag m' tagId ↔ db.hasTag m tagId

theorem KeepsOrganization.refl {db : Database} {m : Message} (h : m ∈ db.messages) :
    KeepsOrganization db db m :=
  ⟨m, h, SameMessage.refl m, rfl, fun _ => Iff.rfl⟩

end SavedOrganizer
