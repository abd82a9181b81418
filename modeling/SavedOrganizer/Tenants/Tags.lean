import SavedOrganizer.Tags.Requests
import SavedOrganizer.Tenants.Messages

/-!
# The tag service is isolated

`create_tag` is not in the list: the tag it returns has a fresh id.
-/

namespace SavedOrganizer

open Organizer

section Reading

variable {userId : UserId} {s s' : Organizer}

/-! ## What the service reads -/

section Agree

variable (h : AgreeFor userId s s')

include h

theorem loadTag_congr (id : Int) :
    TagService.loadTag userId s id = TagService.loadTag userId s' id := by
  refine h.tags.find (fun t ht => ?_) fun t t' ht ht' => ?_
  · simp only [Bool.and_eq_true, beq_iff_eq] at ht
    exact ht.1
  · simp only [Bool.and_eq_true, beq_iff_eq] at ht ht'
    exact Int.ofNat_inj.mp (ht.2.trans ht'.2.symm)

theorem requireTag_congr (id : Int) :
    TagService.requireTag userId s id = TagService.requireTag userId s' id := by
  unfold TagService.requireTag
  rw [loadTag_congr h]

theorem requireMessage_congr (id : Int) :
    TagService.requireMessage userId s id = TagService.requireMessage userId s' id := by
  unfold TagService.requireMessage
  rw [loadMessage_congr h]

theorem loadTagsByIds_congr (ids : List Int) :
    TagService.loadTagsByIds userId s ids = TagService.loadTagsByIds userId s' ids := by
  unfold TagService.loadTagsByIds
  rw [funext (loadTag_congr h)]

theorem tagService_loadMessagesByIds_congr (ids : List Int) :
    TagService.loadMessagesByIds userId s ids = TagService.loadMessagesByIds userId s' ids := by
  unfold TagService.loadMessagesByIds
  rw [funext (loadMessage_congr h)]

theorem isAssigned_congr (id : MessageId) (tagId : TagId) :
    TagService.isAssigned userId s id tagId = TagService.isAssigned userId s' id tagId := by
  refine h.messageTags.any fun a ha => ?_
  rw [beq_iff_eq.mp ha]
  rfl

theorem loadMessageTags_congr (id : MessageId) :
    TagService.loadMessageTags userId s id = TagService.loadMessageTags userId s' id := by
  have hAssigned : (fun t : Tag => t.userId == userId && TagService.isAssigned userId s id t.id) =
      fun t => t.userId == userId && TagService.isAssigned userId s' id t.id := by
    funext t
    rw [isAssigned_congr h]
  unfold TagService.isAssigned at hAssigned
  unfold TagService.loadMessageTags
  rw [hAssigned]
  refine h.tags.select (fun t ht => ?_) decides_byId
  exact beq_iff_eq.mp (Bool.and_eq_true_iff.mp ht).1

theorem ensureTagNameAvailable_congr (name key : Text) (excluded : Option TagId) :
    TagService.ensureNameAvailable userId s name key excluded =
      TagService.ensureNameAvailable userId s' name key excluded := by
  unfold TagService.ensureNameAvailable
  rw [h.tags.any]
  intro t ht
  simp only [Bool.and_eq_true, beq_iff_eq] at ht
  exact ht.1.1

theorem listTags_congr (sql : Sql) :
    TagService.listTags sql userId s = TagService.listTags sql userId s' := by
  refine h.tags.select (fun t ht => beq_iff_eq.mp ht) (SortKey.Decides.thenBy ?_ _)
  exact decides_byId

theorem listTagsWithCounts_congr (sql : Sql) :
    TagService.listTagsWithCounts sql userId s = TagService.listTagsWithCounts sql userId s' := by
  unfold TagService.listTagsWithCounts
  rw [listTags_congr h]
  refine List.map_congr_left fun t ht => ?_
  have hOwner : t.userId = userId := beq_iff_eq.mp (Table.mem_select.mp ht).2
  rw [h.messageTags.count]
  intro a ha
  rw [Bool.and_eq_true, beq_iff_eq] at ha
  exact ha.1.trans hOwner

end Agree

/-! ## The loaded rows -/

/-- A row with the id of a tag of the user is that tag. -/
theorem owner_of_tag {tag t : Tag} (hTag : tag ∈ s.tags ∧ tag.userId = userId) (ht : t ∈ s.tags)
    (hId : (t.id == tag.id) = true) : t.userId = userId := by
  rw [Table.eq_of_key ht hTag.1 (beq_iff_eq.mp hId)]
  exact hTag.2

/-! ## Tags -/

section Tags

variable (u : Unicode)

theorem checkCreateTag_congr (h : AgreeFor userId s s') (name color : Value) :
    TagService.checkCreate u userId name color s = TagService.checkCreate u userId name color s' := by
  unfold TagService.checkCreate
  simp only [ensureTagNameAvailable_congr h]

theorem checkUpdateTag_congr (h : AgreeFor userId s s') (id : Value) (updates : Updates) :
    TagService.checkUpdate u userId id updates s = TagService.checkUpdate u userId id updates s' := by
  unfold TagService.checkUpdate TagService.updatedNames
  simp only [requireTag_congr h, ensureTagNameAvailable_congr h]

theorem updateTag_isolated (id : Value) (updates : Updates) :
    Isolated userId (TagService.updateTag u userId id updates) := by
  refine isolated_transaction (fun s s' _ h => checkUpdateTag_congr u h id updates)
    (fun s s' row _ h => ⟨h.updateTags fun _ => rfl, rfl⟩) fun s row hCheck => ?_
  obtain ⟨tag, hTag, hId, -⟩ := checkUpdateTag_eq_ok hCheck
  refine keepsTo_updateTags (fun t ht hRow => owner_of_tag hTag ht ?_) fun _ => rfl
  rwa [hId] at hRow

theorem deleteTag_isolated (id : Value) : Isolated userId (TagService.deleteTag userId id) := by
  refine isolated_transaction (fun s s' _ h => ?_)
    (fun s s' tag _ h => ⟨(h.deleteMessageTags fun _ _ => rfl).deleteTags, rfl⟩)
    fun s tag hCheck => ?_
  · simp only [requireTag_congr h]
  · have hTag : tag ∈ s.tags ∧ tag.userId = userId := by
      split at hCheck
      · cases hCheck
      · exact requireTag_eq_ok hCheck
    refine (keepsTo_deleteMessageTags fun a _ ha => ?_).trans
      (keepsTo_deleteTags fun t ht hId => owner_of_tag hTag ht hId)
    exact (beq_iff_eq.mp (Bool.and_eq_true_iff.mp ha).1).trans hTag.2

end Tags

/-! ## Assignments -/

theorem addTagsToMessage_isolated (messageId : Value) (tagIds : List Value) :
    Isolated userId (TagService.addTagsToMessage userId messageId tagIds) := by
  refine isolated_transaction (fun s s' _ h => ?_) (fun s s' plan _ h => ?_) fun s plan _ => ?_
  · unfold TagService.checkAddTags
    simp only [requireMessage_congr h, loadTagsByIds_congr h]
  · obtain ⟨message, tags⟩ := plan
    have hRows : (tags.filter fun t => !TagService.isAssigned userId s message.id t.id) =
        tags.filter fun t => !TagService.isAssigned userId s' message.id t.id := by
      simp only [isAssigned_congr h]
    have hWritten := h.insertMessageTags
      ((tags.filter fun t => !TagService.isAssigned userId s message.id t.id).map fun t =>
        ⟨userId, message.id, t.id⟩)
    dsimp only
    rw [← hRows]
    exact ⟨hWritten, congrArg Except.ok (loadMessageTags_congr hWritten message.id)⟩
  · refine keepsTo_insertMessageTags fun a ha => ?_
    obtain ⟨t, -, rfl⟩ := List.mem_map.mp ha
    rfl

theorem bulkAddTagsToMessages_isolated (messageIds tagIds : List Value) :
    Isolated userId (TagService.bulkAddTagsToMessages userId messageIds tagIds) := by
  refine isolated_transaction (fun s s' _ h => ?_)
    (fun s s' missing _ h => ⟨h.insertMessageTags missing, rfl⟩) fun s missing hCheck => ?_
  · unfold TagService.checkBulkAdd
    simp only [tagService_loadMessagesByIds_congr h, loadTagsByIds_congr h, isAssigned_congr h]
  · refine keepsTo_insertMessageTags fun a ha => ?_
    unfold TagService.checkBulkAdd at hCheck
    split at hCheck
    · cases hCheck
    split at hCheck
    · cases hCheck
    split at hCheck
    · cases hCheck
    · obtain ⟨tags, -, rfl⟩ := Checks.map_eq_ok hCheck
      obtain ⟨m, -, hm⟩ := List.mem_flatMap.mp (List.mem_filter.mp ha).1
      obtain ⟨t, -, rfl⟩ := List.mem_map.mp hm
      rfl

theorem removeTagFromMessage_isolated (messageId tagId : Value) :
    Isolated userId (TagService.removeTagFromMessage userId messageId tagId) := by
  refine isolated_transaction (fun s s' _ h => ?_) (fun s s' plan _ h => ?_) fun s plan _ => ?_
  · unfold TagService.checkRemove
    simp only [requireMessage_congr h, requireTag_congr h, isAssigned_congr h]
  · obtain ⟨message, tag⟩ := plan
    have hWritten : AgreeFor userId
        (s.deleteMessageTags (· == ⟨userId, message.id, tag.id⟩))
        (s'.deleteMessageTags (· == ⟨userId, message.id, tag.id⟩)) :=
      h.deleteMessageTags fun _ _ => rfl
    exact ⟨hWritten, congrArg Except.ok (loadMessageTags_congr hWritten message.id)⟩
  · refine keepsTo_deleteMessageTags fun a _ ha => ?_
    rw [beq_iff_eq.mp ha]

end Reading

end SavedOrganizer
