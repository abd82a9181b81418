import SavedOrganizer.Tenants.Rows

/-!
# The message service is isolated

First what the service reads of a state: for the messages of a user it is the same in two
states that agree for the user. Then the requests, one theorem for each.
-/

namespace SavedOrganizer

open Organizer

section Reading

variable {userId : UserId} {s s' : Organizer} {m : Message}

section Agree

variable (h : AgreeFor userId s s')

include h

theorem loadMessage_congr (id : Int) :
    MessageService.loadMessage userId s.db id = MessageService.loadMessage userId s'.db id := by
  refine h.messages.find (fun m hm => ?_) fun m m' hm hm' => ?_
  · simp only [Bool.and_eq_true, beq_iff_eq] at hm
    exact hm.1
  · simp only [Bool.and_eq_true, beq_iff_eq] at hm hm'
    exact Int.ofNat_inj.mp (hm.2.trans hm'.2.symm)

theorem getMessage_congr (id : Int) :
    MessageService.getMessage userId s.db id = MessageService.getMessage userId s'.db id := by
  unfold MessageService.getMessage
  rw [loadMessage_congr h]

/-- The rows of one statement, found again by their ids. -/
theorem loadMessagesByIds_congr (ids : List Int) :
    MessageService.loadMessagesByIds userId s.db ids =
      MessageService.loadMessagesByIds userId s'.db ids := by
  have hFind (id : Int) :
      (s.db.messages.rows.filter fun m => m.userId == userId && ids.contains (m.id : Int)).find?
          (fun m => (m.id : Int) == id) =
        (s'.db.messages.rows.filter fun m =>
          m.userId == userId && ids.contains (m.id : Int)).find? fun m => (m.id : Int) == id := by
    rw [List.find?_filter, List.find?_filter]
    refine h.messages.find (fun m hm => ?_) fun m m' hm hm' => ?_
    · simp only [Bool.and_eq_true, beq_iff_eq, decide_eq_true_eq] at hm
      exact hm.1.1
    · simp only [Bool.and_eq_true, beq_iff_eq, decide_eq_true_eq] at hm hm'
      exact Int.ofNat_inj.mp (hm.2.trans hm'.2.symm)
  have hAny (id : Int) :
      (s.db.messages.rows.filter fun m => m.userId == userId && ids.contains (m.id : Int)).any
          (fun m => (m.id : Int) == id) =
        (s'.db.messages.rows.filter fun m =>
          m.userId == userId && ids.contains (m.id : Int)).any fun m => (m.id : Int) == id := by
    rw [← List.isSome_find?, ← List.isSome_find?, hFind]
  unfold MessageService.loadMessagesByIds
  simp only [hFind, hAny]

variable (hm : m.userId = userId)

include hm

theorem categoryOf_congr : s.categoryOf m = s'.categoryOf m := by
  refine h.categories.find (fun c hc => ?_) fun c c' hc hc' => ?_
  · simp only [Bool.and_eq_true, beq_iff_eq] at hc
    exact hc.1.trans hm
  · simp only [Bool.and_eq_true, beq_iff_eq] at hc hc'
    exact hc.2.trans hc'.2.symm

theorem assigned_congr : s.assigned m = s'.assigned m := by
  funext t
  unfold assigned
  rw [h.messageTags.any]
  intro a ha
  rw [beq_iff_eq.mp ha]
  exact hm

end Agree

theorem confinedTo_assigned (hm : m.userId = userId) (s : Organizer) :
    ConfinedTo userId (s.assigned m) := by
  intro t ht
  simp only [assigned, Bool.and_eq_true, beq_iff_eq] at ht
  exact ht.1.trans hm

theorem decides_byId : (SortKey.ascending Tag.id).Decides := by
  intro t t' hLe hGe
  exact Nat.le_antisymm (of_decide_eq_true hLe) (of_decide_eq_true hGe)

section Views

variable (h : AgreeFor userId s s') (hm : m.userId = userId)

include h hm

theorem tagsOf_congr : s.tagsOf m = s'.tagsOf m := by
  unfold tagsOf
  rw [← assigned_congr h hm]
  exact h.tags.select (confinedTo_assigned hm s) decides_byId

theorem anyTag_congr (p : Tag → Bool) : s.anyTag m p = s'.anyTag m p := by
  unfold anyTag
  rw [← assigned_congr h hm]
  refine h.tags.any fun t ht => ?_
  exact confinedTo_assigned hm s t (Bool.and_eq_true_iff.mp ht).1

theorem view_congr : s.view m = s'.view m := by
  unfold view
  rw [categoryOf_congr h hm, tagsOf_congr h hm]

end Views

/-! ## Listing -/

section Listing

variable (sql : Sql) (h : AgreeFor userId s s')

include h

theorem selects_congr (filter : MessageFilter) :
    MessageService.selects sql userId s filter = MessageService.selects sql userId s' filter := by
  funext m
  unfold MessageService.selects
  by_cases hm : m.userId = userId
  · simp only [categoryOf_congr h hm, anyTag_congr h hm]
  · simp only [beq_eq_false_iff_ne.mpr hm, Bool.false_and]

theorem selectsJoined_congr (filter : MessageFilter) (sort : MessageSort) :
    (fun m => MessageService.selects sql userId s filter m && MessageService.joins s sort m) =
      fun m => MessageService.selects sql userId s' filter m && MessageService.joins s' sort m := by
  funext m
  rw [selects_congr sql h]
  by_cases hm : m.userId = userId
  · unfold MessageService.joins
    rw [categoryOf_congr h hm]
  · have hNot : MessageService.selects sql userId s' filter m = false := by
      simp only [MessageService.selects, beq_eq_false_iff_ne.mpr hm, Bool.false_and]
    rw [hNot, Bool.false_and, Bool.false_and]

end Listing

theorem confinedTo_selects (sql : Sql) (s : Organizer) (filter : MessageFilter)
    (joins : Message → Bool) :
    ConfinedTo userId fun m => MessageService.selects sql userId s filter m && joins m := by
  intro m hm
  simp only [MessageService.selects, Bool.and_eq_true, beq_iff_eq] at hm
  exact hm.1.1.1.1.1

theorem ordering_congr (sql : Sql) (h : AgreeFor userId s s') (sort : MessageSort)
    {m m' : Message} (hm : m.userId = userId) (hm' : m'.userId = userId) :
    (MessageService.ordering sql s' sort).le m m' = (MessageService.ordering sql s sort).le m m' := by
  cases sort with
  | category =>
      simp only [MessageService.ordering, SortKey.thenBy, SortKey.on, categoryOf_congr h hm,
        categoryOf_congr h hm']
  | _ => rfl

theorem listMessages_congr (sql : Sql) (u : Unicode) (args : ListArguments)
    (h : AgreeFor userId s s') :
    MessageService.listMessages sql u userId s args =
      MessageService.listMessages sql u userId s' args := by
  unfold MessageService.listMessages
  split
  · rfl
  rename_i filter hFilter
  have hRows : s.db.messages.select
      (fun m => MessageService.selects sql userId s filter m && MessageService.joins s args.sort m)
      (MessageService.ordering sql s args.sort) =
    s'.db.messages.select
      (fun m => MessageService.selects sql userId s' filter m && MessageService.joins s' args.sort m)
      (MessageService.ordering sql s' args.sort) := by
    rw [← selectsJoined_congr sql h]
    refine Table.select_congr_order (decides_ordering sql s args.sort)
      (h.messages.selected (confinedTo_selects sql s filter _)) fun m m' hm hm' _ _ => ?_
    exact ordering_congr sql h args.sort (confinedTo_selects sql s filter _ m hm)
      (confinedTo_selects sql s filter _ m' hm')
  have hTotal : s.db.messages.count (MessageService.selects sql userId s filter) =
      s'.db.messages.count (MessageService.selects sql userId s' filter) := by
    rw [← selects_congr sql h]
    refine h.messages.count fun m hm => ?_
    simp only [MessageService.selects, Bool.and_eq_true, beq_iff_eq] at hm
    exact hm.1.1.1.1
  have hViews : ∀ m ∈ s'.db.messages.select
      (fun m => MessageService.selects sql userId s' filter m && MessageService.joins s' args.sort m)
      (MessageService.ordering sql s' args.sort), s.view m = s'.view m := by
    intro m hm
    exact view_congr h (confinedTo_selects sql s' filter _ m (Table.mem_select.mp hm).2)
  dsimp only
  rw [hRows, hTotal]
  congr 2
  refine List.map_congr_left fun m hm => hViews m ?_
  exact List.mem_of_mem_drop (List.mem_of_mem_take hm)

/-! ## Reading one message -/

theorem getMessageView_congr (h : AgreeFor userId s s') (id : Int) :
    MessageService.getMessageView userId s id = MessageService.getMessageView userId s' id := by
  unfold MessageService.getMessageView MessageService.getMessage
  rw [← loadMessage_congr h]
  cases hLoaded : MessageService.loadMessage userId s.db id with
  | none => rfl
  | some m => exact congrArg Except.ok (view_congr h (loadMessage_eq_some hLoaded).2)

theorem getCachedMedia_congr (h : AgreeFor userId s s') (id : Int) :
    MessageService.getCachedMedia userId s id = MessageService.getCachedMedia userId s' id := by
  unfold MessageService.getCachedMedia
  rw [loadMessage_congr h]

/-! ## Editing -/

theorem ensureCategoryExists_congr (h : AgreeFor userId s s') (id : Int) (printed : String) :
    MessageService.ensureCategoryExists userId s id printed =
      MessageService.ensureCategoryExists userId s' id printed := by
  unfold MessageService.ensureCategoryExists
  rw [h.categories.any]
  intro c hc
  exact beq_iff_eq.mp (Bool.and_eq_true_iff.mp hc).1

theorem updatedCategory_congr (h : AgreeFor userId s s') (updates : Updates) :
    MessageService.updatedCategory userId s updates =
      MessageService.updatedCategory userId s' updates := by
  unfold MessageService.updatedCategory
  simp only [ensureCategoryExists_congr h]

theorem checkUpdateMessage_congr (h : AgreeFor userId s s') (id : Int) (updates : Updates) :
    MessageService.checkUpdate userId s id updates =
      MessageService.checkUpdate userId s' id updates := by
  unfold MessageService.checkUpdate
  simp only [getMessageView_congr h, updatedCategory_congr h]

theorem updateMessage_isolated (id : Int) (updates : Updates) :
    Isolated userId (MessageService.updateMessage userId id updates) := by
  refine isolated_transaction (fun s s' _ h => checkUpdateMessage_congr h id updates) ?_ ?_
  · intro s s' change hCheck h
    have hWritten : AgreeFor userId
        (s.updateMessages (·.id == change.loaded.message.id) change.apply)
        (s'.updateMessages (·.id == change.loaded.message.id) change.apply) :=
      h.updateMessages fun _ => rfl
    refine ⟨hWritten, ?_⟩
    rw [getMessage_congr hWritten]
  · intro s change hCheck
    obtain ⟨hMem, hOwner⟩ := checkUpdate_loaded hCheck
    refine keepsTo_updateMessages (fun m hm hId => ?_) fun _ => rfl
    rw [Table.eq_of_key hm hMem (beq_iff_eq.mp hId)]
    exact hOwner

theorem clearAllMessages_isolated : Isolated userId (MessageService.clearAllMessages userId) := by
  refine isolated_transaction (fun s s' _ h => ?_) (fun s s' total _ h => ⟨?_, rfl⟩)
    fun s total _ => ?_
  · exact congrArg Except.ok (h.messages.count fun m hm => beq_iff_eq.mp hm)
  · exact { h with
      messages := h.messages.delete fun _ _ => rfl
      messageTags := h.messageTags.delete fun _ _ => rfl }
  · exact { KeepsTo.refl s with
      messages := Table.sameForOthers_delete fun m _ hm => beq_iff_eq.mp hm
      messageTags := Table.sameForOthers_delete fun a _ ha => beq_iff_eq.mp ha }

/-- The messages that are moved are stored messages of the user. -/
theorem checkMove_loaded {ids : List Int} {categoryId : Value} {messages : List Message}
    {destination : CategoryId}
    (h : MessageService.checkMove userId s ids categoryId = .ok (messages, destination)) :
    ∀ m ∈ messages, m ∈ s.db.messages ∧ m.userId = userId := by
  unfold MessageService.checkMove at h
  split at h
  · split at h
    · cases h
    split at h
    · cases h
    split at h
    · cases h
    · obtain ⟨loaded, hLoaded, hPair⟩ := Checks.map_eq_ok h
      obtain ⟨rfl, -⟩ := Prod.mk.inj hPair
      intro m hm
      obtain ⟨hMem, hOwner, -⟩ := (mem_loadMessagesByIds hLoaded m).mp hm
      exact ⟨hMem, hOwner⟩
  · cases h

/-- The rows with the ids of loaded messages are the loaded ones. -/
theorem owner_of_loaded {db : Database} {messages : List Message}
    (hLoaded : ∀ m ∈ messages, m ∈ db.messages ∧ m.userId = userId) :
    ∀ m ∈ db.messages, (messages.any fun r => r.id == m.id) = true → m.userId = userId := by
  intro m hm hAny
  obtain ⟨r, hr, hId⟩ := List.any_eq_true.mp hAny
  obtain ⟨hMem, hOwner⟩ := hLoaded r hr
  rw [Table.eq_of_key hm hMem (beq_iff_eq.mp hId).symm]
  exact hOwner

theorem bulkMoveMessages_isolated (ids : List Int) (categoryId : Value) :
    Isolated userId (MessageService.bulkMoveMessages userId ids categoryId) := by
  refine isolated_transaction (fun s s' _ h => ?_) (fun s s' plan _ h => ⟨?_, rfl⟩)
    fun s plan hCheck => ?_
  · show MessageService.checkMove userId s ids categoryId =
      MessageService.checkMove userId s' ids categoryId
    unfold MessageService.checkMove
    simp only [ensureCategoryExists_congr h, loadMessagesByIds_congr h]
  · exact h.updateMessages fun _ => rfl
  · exact keepsTo_updateMessages (owner_of_loaded (checkMove_loaded hCheck)) fun _ => rfl

end Reading

end SavedOrganizer
