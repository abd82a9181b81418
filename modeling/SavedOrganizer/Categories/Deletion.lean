import SavedOrganizer.Categories.Filing
import SavedOrganizer.Library.Transition
import SavedOrganizer.Tenants.Rows

/-!
# Deleting a category while others write

`delete_category`, statement by statement, among the row writes of other transactions. A write
of another transaction is possible where no lock is in its way and it keeps the foreign key of
messages to categories (`OtherWrite.allowed`). The bulk update locks the rows it moves. A
message that is filed in the category afterwards is found when the category is deleted: the
flush would set its columns to null, which they must not be, and the foreign key restricts the
`DELETE`. So the commit removes an empty category (`category_deletion`).

`updated_at` of a message, which nothing reads but the answer to the browser, is kept beside
the rows. `now()` is the time at which the transaction began.
-/

namespace SavedOrganizer

open Transition CategoryService

/-- How far a `delete_category` is, and the messages it has moved. -/
inductive CategoryDeletionPhase
  | loading
  | loadingFallback (category : Category)
  | moving (category fallback : Category)
  | unlinking (category fallback : Category) (moved : List MessageId)
  | removing (category fallback : Category) (moved : List MessageId)
  | committing (category fallback : Category) (moved : List MessageId)
  | returned (result : Except CategoryError CategoryDeleteResult)
  deriving DecidableEq

/-- The committed rows, and the request. -/
structure CategoryDeletion where
  s : Organizer
  updatedAt : MessageId → Instant
  phase : CategoryDeletionPhase

/-! ## The request -/

/-- The message is in this category of the user. -/
def filedIn (userId : UserId) (id : Int) (m : Message) : Bool :=
  m.userId == userId && (m.categoryId : Int) == id

/-- `_commit_with_conflict_handling`, when the flush fails. -/
def integrityConflict : CategoryError := .categoryConflict "Category name or slug already exists."

/-- A message in the category that the request has not moved. -/
def leftBehind (userId : UserId) (s : Organizer) (category : Category) (moved : List MessageId) :
    Bool :=
  s.db.messages.rows.any fun m => filedIn userId category.id m && !moved.contains m.id

def CategoryDeletion.fail (d : CategoryDeletion) (e : CategoryError) : CategoryDeletion :=
  { d with phase := .returned (.error e) }

/-- The messages of the list, moved to the category. -/
def Organizer.refiled (s : Organizer) (moved : List MessageId) (categoryId : CategoryId) :
    Organizer :=
  s.updateMessages (fun m => moved.contains m.id) (fun m => { m with categoryId := categoryId })
    (Message.move_id categoryId)

/-- The next statement of `delete_category`. -/
def CategoryDeletion.advance (userId : UserId) (id : Int) (begun : Instant)
    (d : CategoryDeletion) : Option CategoryDeletion :=
  match d.phase with
  | .loading => match requireCategory userId d.s id with
      | .error e => some (d.fail e)
      | .ok category =>
          if category.isDefault || category.systemKey.isSome then
            some (d.fail (.categoryProtected "Default categories cannot be deleted."))
          else some { d with phase := .loadingFallback category }
  | .loadingFallback category => match loadFallbackCategory userId d.s category.id with
      | none => some (d.fail (.categoryNotFound
          "Fallback category 'other' was not found. Re-seed default categories before deleting."))
      | some fallback => some { d with phase := .moving category fallback }
  | .moving category fallback =>
      let moved := (d.s.db.messages.rows.filter (filedIn userId category.id)).map Message.id
      some { d with phase := .unlinking category fallback moved }
  | .unlinking category fallback moved =>
      -- The flush loads `category.messages` and would unset the columns of what it finds.
      if leftBehind userId d.s category moved then some (d.fail integrityConflict)
      else some { d with phase := .removing category fallback moved }
  | .removing category fallback moved =>
      -- `ON DELETE RESTRICT`
      if leftBehind userId d.s category moved then some (d.fail integrityConflict)
      else some { d with phase := .committing category fallback moved }
  | .committing category fallback moved =>
      some
        { s := (d.s.refiled moved fallback.id).deleteCategories (·.id == category.id)
          updatedAt := fun k => if moved.contains k then begun else d.updatedAt k
          phase := .returned (.ok ⟨moved.length, fallback.id⟩) }
  | .returned _ => none

/-! ## The others -/

/-- A row that another transaction commits. -/
inductive OtherWrite
  | insertMessage (row : Message)
  | updateMessage (id : MessageId) (row : Message)
  | deleteMessage (id : MessageId)
  | insertCategory (row : Category)
  | updateCategory (id : CategoryId) (row : Category)
  | deleteCategory (id : CategoryId)
  | insertMessageTag (row : MessageTag)
  | deleteMessageTag (row : MessageTag)

namespace CategoryDeletionPhase

/-- The messages whose rows the request has locked. -/
def locked : CategoryDeletionPhase → List MessageId
  | .unlinking _ _ moved | .removing _ _ moved | .committing _ _ moved => moved
  | _ => []

/-- The category the request has deleted. -/
def removed : CategoryDeletionPhase → Option CategoryId
  | .committing category _ _ => some category.id
  | _ => none

end CategoryDeletionPhase

namespace OtherWrite

/-- The message whose row is written. -/
def messageId (s : Organizer) : OtherWrite → Option MessageId
  | .insertMessage _ => some s.db.nextMessageId
  | .updateMessage id _ | .deleteMessage id => some id
  | _ => none

def apply (s : Organizer) : OtherWrite → Organizer
  | .insertMessage row => s.withDatabase (s.db.insertMessage row) rfl
  | .updateMessage id row => s.updateMessages (·.id == id) fun m => { row with id := m.id }
  | .deleteMessage id => s.withDatabase (s.db.deleteMessages (·.id == id)) rfl
  | .insertCategory row => s.insertCategory row
  | .updateCategory id row => s.updateCategories (·.id == id) fun c => { row with id := c.id }
  | .deleteCategory id => s.deleteCategories (·.id == id)
  | .insertMessageTag row => s.insertMessageTags [row]
  | .deleteMessageTag row => s.deleteMessageTags (· == row)

/-- The message may be filed where it says: the category is there, and not deleted meanwhile. -/
def filable (phase : CategoryDeletionPhase) (s : Organizer) (row : Message) : Bool :=
  (s.db.categories.rows.any fun c => c.userId == row.userId && c.id == row.categoryId) &&
    phase.removed != some row.categoryId

/-- The locks and constraints that a write meets. No request changes the user or the system key
of a category, or deletes one that has a system key. -/
def allowed (phase : CategoryDeletionPhase) (s : Organizer) : OtherWrite → Bool
  | .insertMessage row => filable phase s row
  | .updateMessage id row => !phase.locked.contains id && filable phase s row
  | .deleteMessage id => !phase.locked.contains id
  | .insertCategory row => row.systemKey.isNone || s.db.categories.rows.all fun c =>
      c.userId != row.userId || c.systemKey != row.systemKey
  | .updateCategory id row => phase.removed != some id && s.db.categories.rows.all fun c =>
      c.id != id || c.userId == row.userId && c.systemKey == row.systemKey
  | .deleteCategory id => phase.removed != some id &&
      (s.db.categories.rows.all fun c => c.id != id || c.systemKey.isNone &&
        s.db.messages.rows.all fun m => m.userId != c.userId || m.categoryId != id)
  | .insertMessageTag _ | .deleteMessageTag _ => true

end OtherWrite

inductive CategoryDeletionAction
  | advance
  | other (write : OtherWrite) (stamp : Instant)

def CategoryDeletion.step (userId : UserId) (id : Int) (begun : Instant) (d : CategoryDeletion) :
    CategoryDeletionAction → Option CategoryDeletion
  | .advance => d.advance userId id begun
  | .other write stamp =>
      if write.allowed d.phase d.s then
        some
          { d with
            s := write.apply d.s
            updatedAt := fun k => if write.messageId d.s = some k then stamp else d.updatedAt k }
      else none

/-! ## What the others leave alone -/

/-- The locked messages, the built-in categories, and the emptiness of a deleted category. -/
structure Undisturbed (phase : CategoryDeletionPhase) (s s' : Organizer) : Prop where
  locked : ∀ m ∈ s.db.messages, m.id ∈ phase.locked → m ∈ s'.db.messages
  builtIn : ∀ c ∈ s.db.categories, c.systemKey ≠ none →
    ∃ c' ∈ s'.db.categories, c'.id = c.id ∧ c'.userId = c.userId ∧ c'.systemKey = c.systemKey
  unfiled : ∀ k, phase.removed = some k → ∀ m ∈ s'.db.messages, m.categoryId = k →
    m ∈ s.db.messages
  unique : s.SystemKeysUnique → s'.SystemKeysUnique

section Others

variable {phase : CategoryDeletionPhase} {s s' : Organizer}

/-- The categories stay. -/
theorem undisturbed_messages (hCategories : s'.db.categories = s.db.categories)
    (hLocked : ∀ m ∈ s.db.messages, m.id ∈ phase.locked → m ∈ s'.db.messages)
    (hUnfiled : ∀ k, phase.removed = some k → ∀ m ∈ s'.db.messages, m.categoryId = k →
      m ∈ s.db.messages) : Undisturbed phase s s' where
  locked := hLocked
  builtIn c hc _ := ⟨c, hCategories ▸ hc, rfl, rfl, rfl⟩
  unfiled := hUnfiled
  unique h := by
    unfold Organizer.SystemKeysUnique
    rw [hCategories]
    exact h

/-- The messages stay. -/
theorem undisturbed_categories (hMessages : s'.db.messages = s.db.messages)
    (hBuiltIn : ∀ c ∈ s.db.categories, c.systemKey ≠ none →
      ∃ c' ∈ s'.db.categories, c'.id = c.id ∧ c'.userId = c.userId ∧ c'.systemKey = c.systemKey)
    (hUnique : s.SystemKeysUnique → s'.SystemKeysUnique) : Undisturbed phase s s' where
  locked _ hm _ := hMessages ▸ hm
  builtIn := hBuiltIn
  unfiled _ _ _ hm _ := hMessages ▸ hm
  unique := hUnique

theorem undisturbed_of_allowed {write : OtherWrite} (h : write.allowed phase s = true) :
    Undisturbed phase s (write.apply s) := by
  cases write with
  | insertMessage row =>
      refine undisturbed_messages rfl (fun m hm _ => ?_) fun k hRemoved m hm hFiled => ?_
      · exact Database.mem_insertMessage.mpr (Or.inl hm)
      · rcases Database.mem_insertMessage.mp hm with hOld | rfl
        · exact hOld
        · simp only [OtherWrite.allowed, OtherWrite.filable, Bool.and_eq_true, bne_iff_ne] at h
          exact absurd (hRemoved.trans (congrArg some hFiled.symm)) h.2
  | updateMessage id row =>
      simp only [OtherWrite.allowed, OtherWrite.filable, Bool.and_eq_true, bne_iff_ne,
        Bool.not_eq_true', List.contains_eq_mem, decide_eq_false_iff_not] at h
      obtain ⟨hFree, -, hRemoved⟩ := h
      refine undisturbed_messages rfl (fun m hm hLocked => ?_) fun k hKey m hm hFiled => ?_
      · refine (Organizer.mem_updateMessages s).mpr ⟨m, hm, ?_⟩
        rw [if_neg]
        rintro hId
        exact hFree (beq_iff_eq.mp hId ▸ hLocked)
      · obtain ⟨m₀, hm₀, hEq⟩ := (Organizer.mem_updateMessages s).mp hm
        split at hEq
        · subst hEq
          exact absurd (hKey.trans (congrArg some hFiled.symm)) hRemoved
        · exact hEq ▸ hm₀
  | deleteMessage id =>
      simp only [OtherWrite.allowed, Bool.not_eq_true', List.contains_eq_mem,
        decide_eq_false_iff_not] at h
      refine undisturbed_messages rfl (fun _ hm hLocked => ?_) fun _ _ _ hm _ => ?_
      · refine Table.mem_delete.mpr ⟨hm, beq_eq_false_iff_ne.mpr fun hId => ?_⟩
        exact h (hId ▸ hLocked)
      · exact (Table.mem_delete.mp hm).1
  | insertCategory row =>
      refine undisturbed_categories rfl (fun c hc _ => ?_) fun hUnique c hc c' hc' hUser hKey hSame => ?_
      · exact ⟨c, (Organizer.mem_insertCategory s).mpr (Or.inl hc), rfl, rfl, rfl⟩
      · simp only [OtherWrite.allowed, Bool.or_eq_true, List.all_eq_true, bne_iff_ne,
          Option.isNone_iff_eq_none] at h
        rcases (Organizer.mem_insertCategory s).mp hc with hOld | rfl <;>
          rcases (Organizer.mem_insertCategory s).mp hc' with hOld' | rfl
        · exact hUnique c hOld c' hOld' hUser hKey hSame
        · rcases h with hNone | hFree
          · exact absurd (hSame.trans hNone) hKey
          · exact absurd hSame ((hFree c hOld).resolve_left fun hNe => hNe hUser)
        · rcases h with hNone | hFree
          · exact absurd hNone hKey
          · exact absurd hSame.symm ((hFree c' hOld').resolve_left fun hNe => hNe hUser.symm)
        · rfl
  | updateCategory id row =>
      simp only [OtherWrite.allowed, Bool.and_eq_true, List.all_eq_true, Bool.or_eq_true,
        bne_iff_ne, beq_iff_eq] at h
      obtain ⟨-, hSame⟩ := h
      -- The row that is written, with the columns that stay.
      have hKept (c : Category) (hc : c ∈ s.db.categories) :
          let c' := if c.id == id then { row with id := c.id } else c
          c'.id = c.id ∧ c'.userId = c.userId ∧ c'.systemKey = c.systemKey := by
        intro c'
        by_cases hId : c.id = id
        · obtain ⟨hUser, hKey⟩ := (hSame c hc).resolve_left fun hNe => hNe hId
          have hRow : c' = { row with id := c.id } := if_pos (beq_iff_eq.mpr hId)
          rw [hRow]
          exact ⟨rfl, hUser.symm, hKey.symm⟩
        · have hRow : c' = c := if_neg (by simpa using hId)
          rw [hRow]
          exact ⟨rfl, rfl, rfl⟩
      refine undisturbed_categories rfl (fun c hc _ => ?_) fun hUnique c hc c' hc' hUser hKey hEq => ?_
      · exact ⟨_, (Organizer.mem_updateCategories s).mpr ⟨c, hc, rfl⟩, hKept c hc⟩
      · obtain ⟨c₀, hc₀, rfl⟩ := (Organizer.mem_updateCategories s).mp hc
        obtain ⟨c₁, hc₁, rfl⟩ := (Organizer.mem_updateCategories s).mp hc'
        obtain ⟨-, hUser₀, hKey₀⟩ := hKept c₀ hc₀
        obtain ⟨-, hUser₁, hKey₁⟩ := hKept c₁ hc₁
        rw [hUser₀, hUser₁] at hUser
        rw [hKey₀] at hKey
        rw [hKey₀, hKey₁] at hEq
        rw [hUnique c₀ hc₀ c₁ hc₁ hUser hKey hEq]
  | deleteCategory id =>
      simp only [OtherWrite.allowed, Bool.and_eq_true, List.all_eq_true, Bool.or_eq_true,
        bne_iff_ne, Option.isNone_iff_eq_none] at h
      obtain ⟨-, hFree⟩ := h
      refine undisturbed_categories rfl (fun c hc hKey => ?_) fun hUnique c hc c' hc' => ?_
      · refine ⟨c, (Organizer.mem_deleteCategories s).mpr ⟨hc, ?_⟩, rfl, rfl, rfl⟩
        rw [beq_eq_false_iff_ne]
        exact (hFree c hc).resolve_right fun hCustom => hKey hCustom.1
      · exact hUnique c ((Organizer.mem_deleteCategories s).mp hc).1 c'
          ((Organizer.mem_deleteCategories s).mp hc').1
  | insertMessageTag row => exact undisturbed_messages rfl (fun _ hm _ => hm) fun _ _ _ hm _ => hm
  | deleteMessageTag row => exact undisturbed_messages rfl (fun _ hm _ => hm) fun _ _ _ hm _ => hm

end Others

/-! ## What a deletion does -/

/-- The commit of a deletion that returns: what it has done to the rows before it. -/
structure DeletesCategory (userId : UserId) (id : Int) (begun : Instant) (d d' : CategoryDeletion)
    (result : CategoryDeleteResult) : Prop where
  destination : ∀ c ∈ d'.s.db.categories, c.id = result.destinationCategoryId ↔
    c.userId = userId ∧ c.systemKey = some OTHER_CATEGORY_SLUG
  present : ∃ c ∈ d'.s.db.categories, c.id = result.destinationCategoryId
  messages : ∀ m', m' ∈ d'.s.db.messages ↔ ∃ m ∈ d.s.db.messages,
    (if filedIn userId id m then { m with categoryId := result.destinationCategoryId } else m) = m'
  stamps : ∀ m ∈ d.s.db.messages,
    d'.updatedAt m.id = if filedIn userId id m then begun else d.updatedAt m.id
  moved : result.movedMessageCount = d.s.db.messages.count (filedIn userId id)
  categories : ∀ c, c ∈ d'.s.db.categories ↔ c ∈ d.s.db.categories ∧ (c.id : Int) ≠ id
  tags : d'.s.tags = d.s.tags ∧ d'.s.db.messageTags = d.s.db.messageTags

/-- A custom category of the user, and the user's category `other`. -/
structure Chosen (userId : UserId) (id : Int) (s : Organizer) (category fallback : Category) :
    Prop where
  id : (category.id : Int) = id
  present : ∃ c ∈ s.db.categories, c.id = fallback.id ∧ c.userId = userId ∧
    c.systemKey = some OTHER_CATEGORY_SLUG
  ne : fallback.id ≠ category.id

/-- The messages that are moved are in the category. -/
structure MovesTo (userId : UserId) (id : Int) (s : Organizer) (category fallback : Category)
    (moved : List MessageId) : Prop extends Chosen userId id s category fallback where
  nodup : moved.Nodup
  filed : ∀ k ∈ moved, ∃ m ∈ s.db.messages, m.id = k ∧ filedIn userId category.id m = true

/-- What the request may rely on between its statements. -/
def DeletionOk (userId : UserId) (id : Int) (s : Organizer) : CategoryDeletionPhase → Prop
  | .loading | .returned _ => True
  | .loadingFallback category => (category.id : Int) = id
  | .moving category fallback => Chosen userId id s category fallback
  | .unlinking category fallback moved | .removing category fallback moved =>
      MovesTo userId id s category fallback moved
  | .committing category fallback moved =>
      MovesTo userId id s category fallback moved ∧ leftBehind userId s category moved = false

section Request

variable {userId : UserId} {id : Int} {begun : Instant} {s s' : Organizer}
  {d d' : CategoryDeletion} {category fallback : Category} {moved : List MessageId}

/-! ### Between the statements -/

theorem Chosen.undisturbed {phase : CategoryDeletionPhase}
    (h : Chosen userId id s category fallback) (hOthers : Undisturbed phase s s') :
    Chosen userId id s' category fallback := by
  obtain ⟨c, hc, hId, hUser, hKey⟩ := h.present
  obtain ⟨c', hc', hId', hUser', hKey'⟩ := hOthers.builtIn c hc (by rw [hKey]; exact Option.some_ne_none _)
  exact ⟨h.id, ⟨c', hc', hId'.trans hId, hUser'.trans hUser, hKey'.trans hKey⟩, h.ne⟩

theorem MovesTo.undisturbed {phase : CategoryDeletionPhase}
    (h : MovesTo userId id s category fallback moved) (hLocked : phase.locked = moved)
    (hOthers : Undisturbed phase s s') : MovesTo userId id s' category fallback moved := by
  refine ⟨h.toChosen.undisturbed hOthers, h.nodup, fun k hk => ?_⟩
  obtain ⟨m, hm, hId, hFiled⟩ := h.filed k hk
  refine ⟨m, hOthers.locked m hm ?_, hId, hFiled⟩
  rw [hLocked, hId]
  exact hk

theorem leftBehind_eq_false : leftBehind userId s category moved = false ↔
    ∀ m ∈ s.db.messages, filedIn userId category.id m = true → m.id ∈ moved := by
  unfold leftBehind
  rw [List.any_eq_false]
  refine forall₂_congr fun m _ => ?_
  simp only [Bool.and_eq_true, Bool.not_eq_true', List.contains_eq_mem, decide_eq_false_iff_not,
    not_and, not_not]

theorem DeletionOk.undisturbed {phase : CategoryDeletionPhase} (h : DeletionOk userId id s phase)
    (hOthers : Undisturbed phase s s') : DeletionOk userId id s' phase := by
  cases phase with
  | loading => trivial
  | returned result => trivial
  | loadingFallback category => exact h
  | moving category fallback => exact Chosen.undisturbed h hOthers
  | unlinking category fallback moved => exact MovesTo.undisturbed h rfl hOthers
  | removing category fallback moved => exact MovesTo.undisturbed h rfl hOthers
  | committing category fallback moved =>
      obtain ⟨hMoving, hEmpty⟩ := h
      refine ⟨hMoving.undisturbed rfl hOthers, leftBehind_eq_false.mpr fun m hm hFiled => ?_⟩
      have hCategory : m.categoryId = category.id := by
        simp only [filedIn, Bool.and_eq_true, beq_iff_eq] at hFiled
        exact Int.ofNat_inj.mp hFiled.2
      exact leftBehind_eq_false.mp hEmpty m (hOthers.unfiled category.id rfl m hm hCategory) hFiled

/-! ### Its statements -/

theorem id_of_required (h : requireCategory userId s id = .ok category) :
    (category.id : Int) = id := by
  unfold requireCategory at h
  split at h
  · cases h
  · rename_i found hFound
    obtain rfl := Except.ok.inj h
    have hNamed := List.find?_some hFound
    simp only [Bool.and_eq_true, beq_iff_eq] at hNamed
    exact hNamed.2

theorem chosen_of_loaded (hId : (category.id : Int) = id)
    (h : loadFallbackCategory userId s category.id = some fallback) :
    Chosen userId id s category fallback := by
  have hNamed := List.find?_some h
  simp only [Bool.and_eq_true, beq_iff_eq, bne_iff_ne] at hNamed
  exact ⟨hId, ⟨fallback, List.mem_of_find?_eq_some h, rfl, hNamed.1.1, hNamed.1.2⟩, hNamed.2⟩

theorem moving_of_chosen (h : Chosen userId id s category fallback) :
    MovesTo userId id s category fallback
      ((s.db.messages.rows.filter (filedIn userId category.id)).map Message.id) := by
  refine ⟨h, ?_, fun k hk => ?_⟩
  · exact (List.filter_sublist.map _).nodup s.db.messages.distinct
  · obtain ⟨m, hm, rfl⟩ := List.mem_map.mp hk
    obtain ⟨hm, hFiled⟩ := List.mem_filter.mp hm
    exact ⟨m, hm, rfl, hFiled⟩

/-- The rows that have been moved are those in the category. -/
theorem mem_moved_iff (h : MovesTo userId id s category fallback moved)
    (hEmpty : leftBehind userId s category moved = false) {m : Message} (hm : m ∈ s.db.messages) :
    moved.contains m.id = filedIn userId id m := by
  rw [Bool.eq_iff_iff, List.contains_iff_mem, ← h.id]
  constructor
  · intro hMoved
    obtain ⟨m', hm', hId, hFiled⟩ := h.filed m.id hMoved
    exact Table.eq_of_key hm' hm hId ▸ hFiled
  · exact leftBehind_eq_false.mp hEmpty m hm

theorem length_moved (h : MovesTo userId id s category fallback moved)
    (hEmpty : leftBehind userId s category moved = false) :
    moved.length = s.db.messages.count (filedIn userId id) := by
  have hSame : moved.Perm ((s.db.messages.rows.filter (filedIn userId id)).map Message.id) := by
    refine (List.perm_ext_iff_of_nodup h.nodup
      ((List.filter_sublist.map _).nodup s.db.messages.distinct)).mpr fun k => ?_
    rw [List.mem_map]
    constructor
    · intro hk
      obtain ⟨m, hm, rfl, hFiled⟩ := h.filed k hk
      exact ⟨m, List.mem_filter.mpr ⟨hm, h.id ▸ hFiled⟩, rfl⟩
    · rintro ⟨m, hm, rfl⟩
      obtain ⟨hm, hFiled⟩ := List.mem_filter.mp hm
      rw [← mem_moved_iff h hEmpty hm, List.contains_iff_mem] at hFiled
      exact hFiled
  rw [hSame.length_eq, List.length_map, Table.count, List.countP_eq_length_filter]

/-- The commit, once nothing is left behind. -/
theorem deletesCategory_of_committing (hUnique : d.s.SystemKeysUnique)
    (h : MovesTo userId id d.s category fallback moved)
    (hEmpty : leftBehind userId d.s category moved = false)
    (hPhase : d.phase = .committing category fallback moved)
    (hStep : d.advance userId id begun = some d') :
    d'.phase = .returned (.ok ⟨moved.length, fallback.id⟩) ∧ d'.s.SystemKeysUnique ∧
      DeletesCategory userId id begun d d' ⟨moved.length, fallback.id⟩ := by
  unfold CategoryDeletion.advance at hStep
  rw [hPhase] at hStep
  obtain rfl := Option.some.inj hStep
  have hCategories (c : Category) : c ∈ ((d.s.updateMessages (fun m => moved.contains m.id)
      (fun m => { m with categoryId := fallback.id }) (Message.move_id fallback.id)).deleteCategories
        (·.id == category.id)).db.categories ↔ c ∈ d.s.db.categories ∧ (c.id : Int) ≠ id := by
    rw [Organizer.mem_deleteCategories, ← h.id, beq_eq_false_iff_ne, Ne, Ne, Int.ofNat_inj]
    exact Iff.rfl
  obtain ⟨other, hOther, hOtherId, hOtherUser, hOtherKey⟩ := h.present
  have hKept : (other.id : Int) ≠ id := by
    rw [hOtherId, ← h.id, Ne, Int.ofNat_inj]
    exact h.ne
  refine ⟨rfl, fun c hc c' hc' => ?_, ?_⟩
  · exact hUnique c ((hCategories c).mp hc).1 c' ((hCategories c').mp hc').1
  · refine ⟨fun c hc => ⟨fun hId => ?_, fun hBuiltIn => ?_⟩, ?_, fun m' => ?_, fun m hm => ?_,
      length_moved h hEmpty, hCategories, rfl, rfl⟩
    · obtain rfl := Table.eq_of_key ((hCategories c).mp hc).1 hOther (hId.trans hOtherId.symm)
      exact ⟨hOtherUser, hOtherKey⟩
    · have hSame := hUnique c ((hCategories c).mp hc).1 other hOther
        (hBuiltIn.1.trans hOtherUser.symm) (by rw [hBuiltIn.2]; exact Option.some_ne_none _)
        (hBuiltIn.2.trans hOtherKey.symm)
      rw [hSame]
      exact hOtherId
    · exact ⟨other, (hCategories other).mpr ⟨hOther, hKept⟩, hOtherId⟩
    · refine (@Organizer.mem_updateMessages d.s _ _ (Message.move_id fallback.id) m').trans
        (exists_congr fun m => and_congr_right fun hm => ?_)
      rw [mem_moved_iff h hEmpty hm]
    · dsimp only
      rw [mem_moved_iff h hEmpty hm]

end Request

/-! ## Runs -/

/-- Whatever the others do, the request deletes the category and moves its messages, in one
step, or does nothing. -/
structure LosesNothing (userId : UserId) (id : Int) (begun : Instant) (d₀ : CategoryDeletion)
    (as : List CategoryDeletionAction) : Prop where
  returns : ∀ d a d' result, StepOf (CategoryDeletion.step userId id begun) d₀ as d a d' →
    (∀ r, d.phase ≠ .returned r) → d'.phase = .returned (.ok result) →
      DeletesCategory userId id begun d d' result
  raises : ∀ e t, run (CategoryDeletion.step userId id begun) d₀ as = some t →
    t.phase = .returned (.error e) →
      ∀ d d', StepOf (CategoryDeletion.step userId id begun) d₀ as d .advance d' →
        d'.s = d.s ∧ d'.updatedAt = d.updatedAt

def DeletionInv (userId : UserId) (id : Int) (d : CategoryDeletion) : Prop :=
  d.s.SystemKeysUnique ∧ DeletionOk userId id d.s d.phase

section Runs

variable {userId : UserId} {id : Int} {begun : Instant} {d d' : CategoryDeletion}
  {a : CategoryDeletionAction} {as : List CategoryDeletionAction}

/-- A statement of the request is the commit of a deletion, or it only goes on. -/
inductive DeletionStatement (userId : UserId) (id : Int) (begun : Instant) (d : CategoryDeletion) :
    CategoryDeletion → Prop
  | goesOn (phase : CategoryDeletionPhase) (hOk : DeletionOk userId id d.s phase)
      (hGoesOn : ∀ result, phase ≠ .returned (.ok result)) :
      DeletionStatement userId id begun d { d with phase := phase }
  | deletes {d' : CategoryDeletion} (result : CategoryDeleteResult)
      (hPhase : d'.phase = .returned (.ok result)) (hUnique : d'.s.SystemKeysUnique)
      (hDeletes : DeletesCategory userId id begun d d' result) :
      DeletionStatement userId id begun d d'

theorem statement_of_advance (h : DeletionInv userId id d)
    (hStep : d.advance userId id begun = some d') : DeletionStatement userId id begun d d' := by
  obtain ⟨hUnique, hOk⟩ := h
  cases hPhase : d.phase with
  | loading =>
      unfold CategoryDeletion.advance at hStep
      rw [hPhase] at hStep
      dsimp only at hStep
      split at hStep
      · cases hStep
        exact .goesOn _ trivial nofun
      · rename_i category hRequired
        split at hStep
        · cases hStep
          exact .goesOn _ trivial nofun
        · cases hStep
          exact .goesOn _ (id_of_required hRequired) nofun
  | loadingFallback category =>
      unfold CategoryDeletion.advance at hStep
      rw [hPhase] at hStep hOk
      dsimp only at hStep
      split at hStep
      · cases hStep
        exact .goesOn _ trivial nofun
      · rename_i fallback hLoaded
        cases hStep
        exact .goesOn _ (chosen_of_loaded hOk hLoaded) nofun
  | moving category fallback =>
      unfold CategoryDeletion.advance at hStep
      rw [hPhase] at hStep hOk
      cases hStep
      exact .goesOn _ (moving_of_chosen hOk) nofun
  | unlinking category fallback moved =>
      unfold CategoryDeletion.advance at hStep
      rw [hPhase] at hStep hOk
      dsimp only at hStep
      split at hStep
      · cases hStep
        exact .goesOn _ trivial nofun
      · cases hStep
        exact .goesOn _ hOk nofun
  | removing category fallback moved =>
      unfold CategoryDeletion.advance at hStep
      rw [hPhase] at hStep hOk
      dsimp only at hStep
      split at hStep
      · cases hStep
        exact .goesOn _ trivial nofun
      · rename_i hEmpty
        cases hStep
        exact .goesOn _ ⟨hOk, (Bool.not_eq_true _).mp hEmpty⟩ nofun
  | committing category fallback moved =>
      rw [hPhase] at hOk
      obtain ⟨hReturned, hUnique', hDeletes⟩ :=
        deletesCategory_of_committing hUnique hOk.1 hOk.2 hPhase hStep
      exact .deletes _ hReturned hUnique' hDeletes
  | returned result =>
      unfold CategoryDeletion.advance at hStep
      rw [hPhase] at hStep
      cases hStep

theorem deletionInv_step (h : DeletionInv userId id d)
    (hStep : d.step userId id begun a = some d') : DeletionInv userId id d' := by
  cases a with
  | advance =>
      cases statement_of_advance h hStep with
      | goesOn phase hOk hGoesOn => exact ⟨h.1, hOk⟩
      | deletes result hPhase hUnique hDeletes =>
          refine ⟨hUnique, ?_⟩
          rw [hPhase]
          trivial
  | other write stamp =>
      unfold CategoryDeletion.step at hStep
      dsimp only at hStep
      split at hStep
      · rename_i hAllowed
        cases hStep
        have hOthers := undisturbed_of_allowed hAllowed
        exact ⟨hOthers.unique h.1, h.2.undisturbed hOthers⟩
      · cases hStep

theorem returned_step {result : Except CategoryError CategoryDeleteResult}
    (hStep : d.step userId id begun a = some d') (h : d.phase = .returned result) :
    d'.phase = .returned result := by
  cases a with
  | advance =>
      unfold CategoryDeletion.step CategoryDeletion.advance at hStep
      rw [h] at hStep
      cases hStep
  | other write stamp =>
      unfold CategoryDeletion.step at hStep
      dsimp only at hStep
      split at hStep
      · cases hStep
        exact h
      · cases hStep

/-! ### Without the others -/

theorem table_update_congr {t : Table Message} {p q : Message → Bool} {f : Message → Message}
    {hKey : ∀ m, (Keyed.key (f m) : MessageId) = Keyed.key m} (h : ∀ m ∈ t, p m = q m) :
    t.update p f hKey = t.update q f hKey := by
  unfold Table.update
  congr 1
  refine List.map_congr_left fun m hm => ?_
  rw [h m hm]

theorem updateMessages_congr {s : Organizer} {p q : Message → Bool} {f : Message → Message}
    {hKey : ∀ m, (f m).id = m.id} (h : ∀ m ∈ s.db.messages, p m = q m) :
    s.updateMessages p f hKey = s.updateMessages q f hKey := by
  have hTable := @table_update_congr s.db.messages p q f hKey h
  unfold Organizer.updateMessages Database.updateMessages
  congr 2

theorem checkDelete_ok {s : Organizer} {category : Category}
    (h : requireCategory userId s id = .ok category) :
    checkDelete userId id s =
      if category.isDefault || category.systemKey.isSome then
        .error (.categoryProtected "Default categories cannot be deleted.")
      else match loadFallbackCategory userId s category.id with
        | none => .error (.categoryNotFound
            "Fallback category 'other' was not found. Re-seed default categories before deleting.")
        | some fallback => .ok (category, fallback,
            s.db.messages.count fun m => m.userId == userId && m.categoryId == category.id) := by
  unfold checkDelete
  rw [h]
  simp only [bind, Except.bind]
  split
  · rfl
  · cases loadFallbackCategory userId s category.id with
    | none => rfl
    | some fallback => rfl

theorem filedIn_nat (k : CategoryId) (m : Message) :
    filedIn userId k m = (m.userId == userId && m.categoryId == k) := by
  have hCast : ((m.categoryId : Int) == (k : Int)) = (m.categoryId == k) := by
    rw [Bool.eq_iff_iff, beq_iff_eq, beq_iff_eq]
    exact Int.ofNat_inj
  rw [filedIn, hCast]

/-- When nobody else writes, the statements are the request as a whole. -/
theorem deletion_alone (userId : UserId) (id : Int) (begun : Instant) (s : Organizer)
    (updatedAt : MessageId → Instant) :
    (runFor (CategoryDeletion.advance userId id begun) 6 ⟨s, updatedAt, .loading⟩).phase =
        .returned (deleteCategory userId id s).1 ∧
      (runFor (CategoryDeletion.advance userId id begun) 6 ⟨s, updatedAt, .loading⟩).s =
        (deleteCategory userId id s).2 := by
  have hEnds {n : Nat} {d d' : CategoryDeletion}
      {r : Except CategoryError CategoryDeleteResult}
      (h : d.advance userId id begun = some d') (hReturned : d'.phase = .returned r) :
      runFor (CategoryDeletion.advance userId id begun) (n + 1) d = d' := by
    rw [runFor_succ h]
    exact runFor_halted (by rw [CategoryDeletion.advance, hReturned]) n
  cases hRequired : requireCategory userId s id with
  | error e =>
      have hCheck : checkDelete userId id s = .error e := by
        rw [checkDelete, hRequired]
        rfl
      have hFirst : CategoryDeletion.advance userId id begun ⟨s, updatedAt, .loading⟩ =
          some (CategoryDeletion.fail ⟨s, updatedAt, .loading⟩ e) := by
        simp only [CategoryDeletion.advance, hRequired]
      rw [deleteCategory, Organizer.transaction_error hCheck, hEnds hFirst rfl]
      exact ⟨rfl, rfl⟩
  | ok category =>
      have hCheck := checkDelete_ok hRequired
      by_cases hBuiltIn : (category.isDefault || category.systemKey.isSome) = true
      · have hFirst : CategoryDeletion.advance userId id begun ⟨s, updatedAt, .loading⟩ =
            some (CategoryDeletion.fail ⟨s, updatedAt, .loading⟩
              (.categoryProtected "Default categories cannot be deleted.")) := by
          simp only [CategoryDeletion.advance, hRequired, if_pos hBuiltIn]
        rw [if_pos hBuiltIn] at hCheck
        rw [deleteCategory, Organizer.transaction_error hCheck, hEnds hFirst rfl]
        exact ⟨rfl, rfl⟩
      · have hFirst : CategoryDeletion.advance userId id begun ⟨s, updatedAt, .loading⟩ =
            some ⟨s, updatedAt, .loadingFallback category⟩ := by
          simp only [CategoryDeletion.advance, hRequired, if_neg hBuiltIn]
        rw [if_neg hBuiltIn] at hCheck
        rw [runFor_succ hFirst]
        cases hFallback : loadFallbackCategory userId s category.id with
        | none =>
            have hSecond : CategoryDeletion.advance userId id begun
                ⟨s, updatedAt, .loadingFallback category⟩ =
                  some (CategoryDeletion.fail ⟨s, updatedAt, .loadingFallback category⟩
                    (.categoryNotFound "Fallback category 'other' was not found. Re-seed default categories before deleting.")) := by
              simp only [CategoryDeletion.advance, hFallback]
            rw [hFallback] at hCheck
            rw [deleteCategory, Organizer.transaction_error hCheck, hEnds hSecond rfl]
            exact ⟨rfl, rfl⟩
        | some fallback =>
            rw [hFallback] at hCheck
            let moved := (s.db.messages.rows.filter (filedIn userId category.id)).map Message.id
            have hMoves := moving_of_chosen (chosen_of_loaded (id_of_required hRequired) hFallback)
            have hEmpty : leftBehind userId s category moved = false :=
              leftBehind_eq_false.mpr fun m hm hFiled =>
                List.mem_map_of_mem (List.mem_filter.mpr ⟨hm, hFiled⟩)
            have hFiled (m : Message) : filedIn userId id m =
                (m.userId == userId && m.categoryId == category.id) := by
              rw [← id_of_required hRequired, filedIn_nat]
            have hSecond : CategoryDeletion.advance userId id begun
                ⟨s, updatedAt, .loadingFallback category⟩ =
                  some ⟨s, updatedAt, .moving category fallback⟩ := by
              simp only [CategoryDeletion.advance, hFallback]
            have hThird : CategoryDeletion.advance userId id begun
                ⟨s, updatedAt, .moving category fallback⟩ =
                  some ⟨s, updatedAt, .unlinking category fallback moved⟩ := rfl
            have hFourth : CategoryDeletion.advance userId id begun
                ⟨s, updatedAt, .unlinking category fallback moved⟩ =
                  some ⟨s, updatedAt, .removing category fallback moved⟩ := by
              simp only [CategoryDeletion.advance, hEmpty, Bool.false_eq_true, if_false]
            have hFifth : CategoryDeletion.advance userId id begun
                ⟨s, updatedAt, .removing category fallback moved⟩ =
                  some ⟨s, updatedAt, .committing category fallback moved⟩ := by
              simp only [CategoryDeletion.advance, hEmpty, Bool.false_eq_true, if_false]
            rw [runFor_succ hSecond, runFor_succ hThird, runFor_succ hFourth, runFor_succ hFifth,
              deleteCategory, Organizer.transaction_ok hCheck, hEnds rfl rfl]
            constructor
            · have hCount : moved.length = s.db.messages.count fun m =>
                  m.userId == userId && m.categoryId == category.id :=
                (length_moved hMoves hEmpty).trans (congrArg _ (funext hFiled))
              dsimp only
              rw [hCount]
            · have hSame : s.refiled moved fallback.id =
                s.updateMessages (fun m => m.userId == userId && m.categoryId == category.id)
                  (fun m => { m with categoryId := fallback.id }) (Message.move_id fallback.id) :=
                updateMessages_congr fun m hm => (mem_moved_iff hMoves hEmpty hm).trans (hFiled m)
              dsimp only
              rw [hSame]

end Runs

/-- Among any writes of others, a deletion that returns has moved the messages of the category to
the user's category `other` and removed the category, in one commit, with `updated_at` the only
other column it has written; one that raises has done nothing. -/
theorem category_deletion (userId : UserId) (id : Int) (begun : Instant) (d₀ : CategoryDeletion)
    (as : List CategoryDeletionAction) (hStart : d₀.phase = .loading)
    (hUnique : d₀.s.SystemKeysUnique) : LosesNothing userId id begun d₀ as := by
  have hInv (d : CategoryDeletion) (h : Visits (CategoryDeletion.step userId id begun) d₀ as d) :
      DeletionInv userId id d := by
    refine visits_induct ⟨hUnique, ?_⟩ h fun x a y hStep hx => deletionInv_step hx hStep.step
    rw [hStart]
    trivial
  constructor
  · intro d a d' result hStep hRuns hReturned
    cases a with
    | advance =>
        cases statement_of_advance (hInv d hStep.before) hStep.step with
        | goesOn phase hOk hGoesOn => exact absurd hReturned (hGoesOn result)
        | deletes result' hPhase hUnique' hDeletes =>
            obtain rfl := Except.ok.inj
              (CategoryDeletionPhase.returned.inj (hPhase.symm.trans hReturned))
            exact hDeletes
    | other write stamp =>
        have hTaken := hStep.step
        unfold CategoryDeletion.step at hTaken
        dsimp only at hTaken
        split at hTaken
        · cases hTaken
          exact absurd hReturned (hRuns _)
        · cases hTaken
  · intro e t hRun hRaised d d' hStep
    cases statement_of_advance (hInv d hStep.before) hStep.step with
    | goesOn phase hOk hGoesOn => exact ⟨rfl, rfl⟩
    | deletes result hPhase hUnique' hDeletes =>
        -- The commit would have been the end.
        have hStays : t.phase = .returned (.ok result) :=
          hStep.invariant hRun (fun _ _ _ h => returned_step h) hPhase
        cases hStays.symm.trans hRaised

/-! ### A category with one message -/

def workCategory : Category :=
  ⟨9, 1, "Work", "work", "work", none, "folder", "#64748B", 9, false⟩

/-- One message in `Work`. -/
def workLibrary : Organizer where
  db :=
    { connections := .empty
      jobs := .empty
      categories := ⟨[otherCategory, workCategory], by decide⟩
      messages := ⟨[{ noteRow importLease 1 41 with categoryId := 9 }], List.nodup_singleton _⟩
      messageTags := .empty
      nextMessageId := 2
      messageIds_fresh := by
        intro m hm
        rw [List.mem_singleton.mp hm]
        decide }
  tags := .empty
  nextTagId := 1
  nextCategoryId := 10
  tagIds_fresh := noTag_fresh
  categoryIds_fresh := (by decide : ∀ c ∈ [otherCategory, workCategory], c.id < 10)

theorem workLibrary_unique : workLibrary.SystemKeysUnique :=
  (by decide : ∀ c ∈ [otherCategory, workCategory], ∀ c' ∈ [otherCategory, workCategory],
    c.userId = c'.userId → c.systemKey ≠ none → c.systemKey = c'.systemKey → c = c')

def deletionStart : CategoryDeletion := ⟨workLibrary, fun _ => 0, .loading⟩

def deletionAfter (as : List CategoryDeletionAction) : CategoryDeletion :=
  (run (CategoryDeletion.step 1 9 10) deletionStart as).getD deletionStart

/-- A scan files another message in `Work` after the bulk update. -/
def filesMeanwhile : List CategoryDeletionAction :=
  List.replicate 3 .advance ++
    [.other (.insertMessage { noteRow importLease 0 42 with categoryId := 9 }) 5] ++ [.advance]

theorem category_deletion_conflicts :
    LosesNothing 1 9 10 deletionStart filesMeanwhile ∧
      (deletionAfter filesMeanwhile).phase = .returned (.error integrityConflict) ∧
      (deletionAfter filesMeanwhile).s.db.messages.rows.map Message.categoryId = [9, 9] :=
  ⟨category_deletion 1 9 10 deletionStart filesMeanwhile rfl workLibrary_unique,
    by decide +kernel, by decide +kernel⟩

/-- The message that is moved gets another `updated_at`. -/
theorem deletion_stamps_moved :
    run (CategoryDeletion.step 1 9 10) deletionStart (List.replicate 6 .advance) =
        some (deletionAfter (List.replicate 6 .advance)) ∧
      (deletionAfter (List.replicate 6 .advance)).phase = .returned (.ok ⟨1, 1⟩) ∧
      ¬ ∀ m ∈ deletionStart.s.db.messages,
        (deletionAfter (List.replicate 6 .advance)).updatedAt m.id =
          deletionStart.updatedAt m.id := by
  refine ⟨run_getD (by decide +kernel), by decide +kernel, fun hKept => ?_⟩
  have hStamp : (deletionAfter (List.replicate 6 .advance)).updatedAt 1 = 10 := by decide +kernel
  have hSame := hKept _ (List.mem_singleton.mpr rfl)
  exact absurd (hStamp.symm.trans hSame) (by decide)

end SavedOrganizer
