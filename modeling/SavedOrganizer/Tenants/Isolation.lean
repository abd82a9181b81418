import SavedOrganizer.Tenants.Categories
import SavedOrganizer.Tenants.Deletions
import SavedOrganizer.Tenants.Tags

/-!
# Tenant isolation

Every operation of the message, tag and category services, run for a user in two states that
agree on the rows of the user, answers the same, leaves the user with the same rows and changes
no row of anybody else. The ids that a creation draws from the sequences may differ
(`SameOutcome`).
-/

namespace SavedOrganizer

open Organizer

/-! ## The operations -/

inductive ServiceRequest
  | listMessages (args : ListArguments)
  | getMessage (id : Int)
  | getCachedMedia (id : Int)
  | updateMessage (id : Int) (updates : Updates)
  /-- `delete_message` and `bulk_delete_messages`. -/
  | deleteMessages (client : DeletionClient) (now : Instant) (localOnly : Bool)
      (request : DeletionRequest)
  | clearAllMessages
  | bulkMoveMessages (ids : List Int) (categoryId : Value)
  | listTags
  | listTagsWithCounts
  | createTag (name color : Value)
  | updateTag (id : Value) (updates : Updates)
  | deleteTag (id : Value)
  | addTagsToMessage (messageId : Value) (tagIds : List Value)
  | bulkAddTagsToMessages (messageIds tagIds : List Value)
  | removeTagFromMessage (messageId tagId : Value)
  | listCategories
  | createCategory (name icon color position : Value)
  | updateCategory (id : Int) (updates : Updates)
  | deleteCategory (id : Int)

inductive ServiceAnswer
  | messageList (result : Except MessageError MessageListResult)
  | message (result : Except MessageError MessageView)
  | media (result : Except MessageError MessageService.CachedMessageMedia)
  /-- With what the client was asked to delete. -/
  | deleted (result : List (List TelegramId) × Except MessageError Nat)
  | messageCount (result : Except MessageError Nat)
  | tagList (result : List Tag)
  | tagCounts (result : List TagWithCount)
  | createdTag (result : Except TagError Tag)
  | updatedTag (result : Except TagError Tag)
  | deletedTag (result : Except TagError Unit)
  | messageTags (result : Except TagError (List Tag))
  | bulkTags (result : Except TagError BulkTagResult)
  | categoryList (result : List CategoryService.CategoryWithCount)
  | createdCategory (result : Except CategoryError Category)
  | updatedCategory (result : Except CategoryError Category)
  | deletedCategory (result : Except CategoryError CategoryService.CategoryDeleteResult)

/-- The answer of a service under the name of the operation. -/
def answering {α : Type} (wrap : α → ServiceAnswer) (result : α × Organizer) :
    ServiceAnswer × Organizer := (wrap result.1, result.2)

namespace ServiceRequest

variable (sql : Sql) (u : Unicode) (vault : Vault) (userId : UserId)

def run : ServiceRequest → Organizer → ServiceAnswer × Organizer
  | listMessages args => fun s =>
      (.messageList (MessageService.listMessages sql u userId s args), s)
  | getMessage id => fun s => (.message (MessageService.getMessageView userId s id), s)
  | getCachedMedia id => fun s => (.media (MessageService.getCachedMedia userId s id), s)
  | updateMessage id updates => fun s =>
      answering .message (MessageService.updateMessage userId id updates s)
  | deleteMessages client now localOnly request => fun s =>
      answering .deleted (request.respond client vault now userId localOnly s)
  | clearAllMessages => fun s => answering .messageCount (MessageService.clearAllMessages userId s)
  | bulkMoveMessages ids categoryId => fun s =>
      answering .messageCount (MessageService.bulkMoveMessages userId ids categoryId s)
  | listTags => fun s => (.tagList (TagService.listTags sql userId s), s)
  | listTagsWithCounts => fun s => (.tagCounts (TagService.listTagsWithCounts sql userId s), s)
  | createTag name color => fun s =>
      answering .createdTag (TagService.createTag u userId name color s)
  | updateTag id updates => fun s =>
      answering .updatedTag (TagService.updateTag u userId id updates s)
  | deleteTag id => fun s => answering .deletedTag (TagService.deleteTag userId id s)
  | addTagsToMessage messageId tagIds => fun s =>
      answering .messageTags (TagService.addTagsToMessage userId messageId tagIds s)
  | bulkAddTagsToMessages messageIds tagIds => fun s =>
      answering .bulkTags (TagService.bulkAddTagsToMessages userId messageIds tagIds s)
  | removeTagFromMessage messageId tagId => fun s =>
      answering .messageTags (TagService.removeTagFromMessage userId messageId tagId s)
  | listCategories => fun s => (.categoryList (CategoryService.listCategories userId s), s)
  | createCategory name icon color position => fun s =>
      answering .createdCategory (CategoryService.createCategory u userId name icon color position s)
  | updateCategory id updates => fun s =>
      answering .updatedCategory (CategoryService.updateCategory u userId id updates s)
  | deleteCategory id => fun s =>
      answering .deletedCategory (CategoryService.deleteCategory userId id s)

end ServiceRequest

/-! ## The same outcome -/

def Tag.withId (id : TagId) (t : Tag) : Tag := { t with id := id }

def Category.withId (id : CategoryId) (c : Category) : Category := { c with id := id }

/-- The answers and the rows of the user after a request in `s` and in `s'`. A row that the
request has created has the next id of either state. -/
inductive SameOutcome (userId : UserId) (s s' : Organizer) :
    ServiceAnswer × Organizer → ServiceAnswer × Organizer → Prop
  | same (answer : ServiceAnswer) {t t' : Organizer} (rows : AgreeFor userId t t') :
      SameOutcome userId s s' (answer, t) (answer, t')
  | createdTag (row : Tag) {t t' : Organizer} (rows : t.db.AgreeFor userId t'.db)
      (tags : Table.AgreeUpTo Tag.withId userId s.nextTagId s'.nextTagId t.tags t'.tags) :
      SameOutcome userId s s' (.createdTag (.ok (row.withId s.nextTagId)), t)
        (.createdTag (.ok (row.withId s'.nextTagId)), t')
  | createdCategory (row : Category) {t t' : Organizer}
      (connections : Table.AgreeFor userId t.db.connections t'.db.connections)
      (jobs : Table.AgreeFor userId t.db.jobs t'.db.jobs)
      (messages : Table.AgreeFor userId t.db.messages t'.db.messages)
      (messageTags : Table.AgreeFor userId t.db.messageTags t'.db.messageTags)
      (tags : Table.AgreeFor userId t.tags t'.tags)
      (categories : Table.AgreeUpTo Category.withId userId s.nextCategoryId s'.nextCategoryId
        t.db.categories t'.db.categories) :
      SameOutcome userId s s' (.createdCategory (.ok (row.withId s.nextCategoryId)), t)
        (.createdCategory (.ok (row.withId s'.nextCategoryId)), t')

section Outcomes

variable {userId : UserId} {s s' : Organizer} {α : Type}

/-- Wrapping the answer of an isolated request. -/
theorem Organizer.Isolated.outcome {request : Organizer → α × Organizer} (h : Isolated userId request)
    (hUnique : s.SystemKeysUnique) (hAgree : AgreeFor userId s s') (wrap : α → ServiceAnswer) :
    SameOutcome userId s s' (answering wrap (request s)) (answering wrap (request s')) ∧
      KeepsTo userId s (answering wrap (request s)).2 := by
  refine ⟨?_, h.keeps s⟩
  have hRows := h.rows s s' hUnique hAgree
  unfold answering
  rw [h.answer s s' hUnique hAgree]
  exact .same _ hRows

/-- A request that only reads, once its answer is known to be the same. -/
theorem readingOutcome {answer answer' : ServiceAnswer} (h : answer = answer')
    (hAgree : AgreeFor userId s s') :
    SameOutcome userId s s' (answer, s) (answer', s') ∧ KeepsTo userId s s := by
  rw [h]
  exact ⟨.same _ hAgree, .refl s⟩

theorem insertTag_upTo (h : AgreeFor userId s s') (row : Tag) :
    Table.AgreeUpTo Tag.withId userId s.nextTagId s'.nextTagId (s.insertTag row).tags
      (s'.insertTag row).tags := by
  have hFresh (s : Organizer) : ∀ t ∈ s.tags, t.id ≠ s.nextTagId :=
    fun t ht => Nat.ne_of_lt (s.tagIds_fresh t ht)
  have hKey : ∀ id (t : Tag), (Keyed.key (t.withId id) : TagId) = id := fun _ _ => rfl
  have hWith : ∀ id id' (t : Tag), (t.withId id).withId id' = t.withId id' := fun _ _ _ => rfl
  exact h.tags.insert (hFresh s) (hFresh s') hKey hWith row (hFresh s) (hFresh s')

theorem insertCategory_upTo (h : AgreeFor userId s s') (row : Category) :
    Table.AgreeUpTo Category.withId userId s.nextCategoryId s'.nextCategoryId
      (s.insertCategory row).db.categories (s'.insertCategory row).db.categories := by
  have hFresh (s : Organizer) : ∀ c ∈ s.db.categories, c.id ≠ s.nextCategoryId :=
    fun c hc => Nat.ne_of_lt (s.categoryIds_fresh c hc)
  have hKey : ∀ id (c : Category), (Keyed.key (c.withId id) : CategoryId) = id := fun _ _ => rfl
  have hWith : ∀ id id' (c : Category), (c.withId id).withId id' = c.withId id' :=
    fun _ _ _ => rfl
  exact h.categories.insert (hFresh s) (hFresh s') hKey hWith row (hFresh s) (hFresh s')

theorem createTag_outcome (u : Unicode) (name color : Value) (h : AgreeFor userId s s') :
    SameOutcome userId s s' (answering .createdTag (TagService.createTag u userId name color s))
        (answering .createdTag (TagService.createTag u userId name color s')) ∧
      KeepsTo userId s
        (answering .createdTag (TagService.createTag u userId name color s)).2 := by
  unfold TagService.createTag
  rw [← checkCreateTag_congr u h]
  cases hCheck : TagService.checkCreate u userId name color s with
  | error e => exact ⟨.same _ h, .refl s⟩
  | ok row =>
      have hOwner : row.userId = userId := (checkCreateTag_eq_ok hCheck).1
      exact ⟨.createdTag row h.toAgreeFor (insertTag_upTo h row), keepsTo_insertTag hOwner⟩

theorem createCategory_outcome (u : Unicode) (name icon color position : Value)
    (h : AgreeFor userId s s') :
    SameOutcome userId s s'
        (answering .createdCategory
          (CategoryService.createCategory u userId name icon color position s))
        (answering .createdCategory
          (CategoryService.createCategory u userId name icon color position s')) ∧
      KeepsTo userId s (answering .createdCategory
        (CategoryService.createCategory u userId name icon color position s)).2 := by
  unfold CategoryService.createCategory
  rw [← checkCreateCategory_congr h u]
  cases hCheck : CategoryService.checkCreate u userId name icon color position s with
  | error e => exact ⟨.same _ h, .refl s⟩
  | ok row =>
      have hOwner : row.userId = userId := (checkCreate_eq_ok hCheck).1
      exact ⟨.createdCategory row h.connections h.jobs h.messages h.messageTags h.tags
        (insertCategory_upTo h row), keepsTo_insertCategory hOwner⟩

end Outcomes

/-- Run for a user, a request reads and changes the rows of that user only. -/
theorem tenant_isolation (sql : Sql) (u : Unicode) (vault : Vault) {userId : UserId}
    {s s' : Organizer} (hAgree : AgreeFor userId s s') (hUnique : s.SystemKeysUnique)
    (request : ServiceRequest) :
    SameOutcome userId s s' (request.run sql u vault userId s) (request.run sql u vault userId s') ∧
      KeepsTo userId s (request.run sql u vault userId s).2 := by
  cases request with
  | listMessages args =>
      exact readingOutcome (congrArg _ (listMessages_congr sql u args hAgree)) hAgree
  | getMessage id => exact readingOutcome (congrArg _ (getMessageView_congr hAgree id)) hAgree
  | getCachedMedia id => exact readingOutcome (congrArg _ (getCachedMedia_congr hAgree id)) hAgree
  | updateMessage id updates =>
      exact (updateMessage_isolated id updates).outcome hUnique hAgree _
  | deleteMessages client now localOnly request =>
      exact (deletion_isolated client vault now userId localOnly request).outcome hUnique hAgree _
  | clearAllMessages => exact clearAllMessages_isolated.outcome hUnique hAgree _
  | bulkMoveMessages ids categoryId =>
      exact (bulkMoveMessages_isolated ids categoryId).outcome hUnique hAgree _
  | listTags => exact readingOutcome (congrArg _ (listTags_congr hAgree sql)) hAgree
  | listTagsWithCounts =>
      exact readingOutcome (congrArg _ (listTagsWithCounts_congr hAgree sql)) hAgree
  | createTag name color => exact createTag_outcome u name color hAgree
  | updateTag id updates => exact (updateTag_isolated u id updates).outcome hUnique hAgree _
  | deleteTag id => exact (deleteTag_isolated id).outcome hUnique hAgree _
  | addTagsToMessage messageId tagIds =>
      exact (addTagsToMessage_isolated messageId tagIds).outcome hUnique hAgree _
  | bulkAddTagsToMessages messageIds tagIds =>
      exact (bulkAddTagsToMessages_isolated messageIds tagIds).outcome hUnique hAgree _
  | removeTagFromMessage messageId tagId =>
      exact (removeTagFromMessage_isolated messageId tagId).outcome hUnique hAgree _
  | listCategories => exact readingOutcome (congrArg _ (listCategories_congr hAgree)) hAgree
  | createCategory name icon color position =>
      exact createCategory_outcome u name icon color position hAgree
  | updateCategory id updates =>
      exact (updateCategory_isolated u id updates).outcome hUnique hAgree _
  | deleteCategory id => exact (deleteCategory_isolated id).outcome hUnique hAgree _

/-! ### A second tenant

User 1 creates a tag, once alone and once beside user 2, who has a tag of the same name and the
same key. -/

def alone : Organizer where
  db := demoDatabase
  tags := .empty
  nextTagId := 1
  nextCategoryId := 10
  tagIds_fresh := noTag_fresh
  categoryIds_fresh := by decide +kernel

def neighboursTag : Tag :=
  { id := 1, userId := 2, name := "Work".toList, normalizedName := "work".toList, color := none }

def beside : Organizer where
  db := demoDatabase
  tags := ⟨[neighboursTag], by decide⟩
  nextTagId := 2
  nextCategoryId := 10
  tagIds_fresh := by
    intro t ht
    rw [List.mem_singleton.mp ht]
    decide
  categoryIds_fresh := by decide +kernel

theorem beside_agreeFor_alone : AgreeFor 1 beside alone := by
  refine ⟨⟨Table.agreeFor_refl, Table.agreeFor_refl, Table.agreeFor_refl, Table.agreeFor_refl,
    Table.agreeFor_refl⟩, fun t hOwner => iff_of_false (fun ht => ?_) (List.not_mem_nil)⟩
  rw [show t = neighboursTag from List.mem_singleton.mp ht] at hOwner
  cases hOwner

def createWork : ServiceRequest := .createTag (.str "Work".toList) .none

theorem tenant_isolation_beside :
    SameOutcome 1 beside alone (createWork.run plainSql plainUnicode plainVault 1 beside)
        (createWork.run plainSql plainUnicode plainVault 1 alone) ∧
      KeepsTo 1 beside (createWork.run plainSql plainUnicode plainVault 1 beside).2 := by
  refine tenant_isolation plainSql plainUnicode plainVault beside_agreeFor_alone ?_ createWork
  intro c hc c' hc' _ _ _
  rw [List.mem_singleton.mp hc, List.mem_singleton.mp hc']

end SavedOrganizer
