import SavedOrganizer.Categories.Service

/-!
# The rows of one user

Two states agree for a user when they have the same rows of that user in every table
(`AgreeFor`), and a request keeps to a user when it leaves the rows of all others as they are
(`KeepsTo`). What the statements that write do to both is listed here, one lemma for each
statement; the requests are built from these.
-/

namespace SavedOrganizer

instance : HasOwner TelegramConnection UserId := ⟨TelegramConnection.userId⟩
instance : HasOwner ScanJob UserId := ⟨ScanJob.userId⟩
instance : HasOwner Category UserId := ⟨Category.userId⟩
instance : HasOwner Message UserId := ⟨Message.userId⟩
instance : HasOwner MessageTag UserId := ⟨MessageTag.userId⟩
instance : HasOwner Tag UserId := ⟨Tag.userId⟩

/-- The same rows of the user. -/
structure Database.AgreeFor (userId : UserId) (db db' : Database) : Prop where
  connections : Table.AgreeFor userId db.connections db'.connections
  jobs : Table.AgreeFor userId db.jobs db'.jobs
  categories : Table.AgreeFor userId db.categories db'.categories
  messages : Table.AgreeFor userId db.messages db'.messages
  messageTags : Table.AgreeFor userId db.messageTags db'.messageTags

/-- The same rows of everybody else. -/
structure Database.KeepsTo (userId : UserId) (db db' : Database) : Prop where
  connections : Table.SameForOthers userId db.connections db'.connections
  jobs : Table.SameForOthers userId db.jobs db'.jobs
  categories : Table.SameForOthers userId db.categories db'.categories
  messages : Table.SameForOthers userId db.messages db'.messages
  messageTags : Table.SameForOthers userId db.messageTags db'.messageTags

theorem Database.KeepsTo.refl {userId : UserId} (db : Database) : KeepsTo userId db db :=
  ⟨Table.sameForOthers_refl, Table.sameForOthers_refl, Table.sameForOthers_refl,
    Table.sameForOthers_refl, Table.sameForOthers_refl⟩

theorem Database.KeepsTo.trans {userId : UserId} {db db' db'' : Database}
    (h : KeepsTo userId db db') (h' : KeepsTo userId db' db'') : KeepsTo userId db db'' :=
  ⟨h.connections.trans h'.connections, h.jobs.trans h'.jobs, h.categories.trans h'.categories,
    h.messages.trans h'.messages, h.messageTags.trans h'.messageTags⟩

namespace Organizer

structure AgreeFor (userId : UserId) (s s' : Organizer) : Prop
    extends Database.AgreeFor userId s.db s'.db where
  tags : Table.AgreeFor userId s.tags s'.tags

structure KeepsTo (userId : UserId) (s s' : Organizer) : Prop
    extends Database.KeepsTo userId s.db s'.db where
  tags : Table.SameForOthers userId s.tags s'.tags

section Statements

variable {userId : UserId} {s s' s'' : Organizer}

theorem AgreeFor.refl (s : Organizer) : AgreeFor userId s s :=
  ⟨⟨Table.agreeFor_refl, Table.agreeFor_refl, Table.agreeFor_refl, Table.agreeFor_refl,
    Table.agreeFor_refl⟩, Table.agreeFor_refl⟩

theorem KeepsTo.refl (s : Organizer) : KeepsTo userId s s :=
  ⟨.refl s.db, Table.sameForOthers_refl⟩

theorem KeepsTo.trans (h : KeepsTo userId s s') (h' : KeepsTo userId s' s'') :
    KeepsTo userId s s'' :=
  ⟨h.toKeepsTo.trans h'.toKeepsTo, h.tags.trans h'.tags⟩

/-! ## The same statement in both states -/

section Agree

variable (h : AgreeFor userId s s')

include h

theorem AgreeFor.updateMessages {p : Message → Bool} {f : Message → Message}
    {hKey : ∀ m, (f m).id = m.id} (hOwner : ∀ m, (f m).userId = m.userId) :
    AgreeFor userId (s.updateMessages p f hKey) (s'.updateMessages p f hKey) :=
  { h with messages := h.messages.update hKey hOwner fun _ _ => rfl }

theorem AgreeFor.deleteMessageTags {p q : MessageTag → Bool}
    (hSame : ∀ a : MessageTag, a.userId = userId → p a = q a) :
    AgreeFor userId (s.deleteMessageTags p) (s'.deleteMessageTags q) :=
  { h with messageTags := h.messageTags.delete hSame }

theorem AgreeFor.updateTags {p : Tag → Bool} {f : Tag → Tag} {hKey : ∀ t, (f t).id = t.id}
    (hOwner : ∀ t, (f t).userId = t.userId) :
    AgreeFor userId (s.updateTags p f hKey) (s'.updateTags p f hKey) :=
  { h with tags := h.tags.update hKey hOwner fun _ _ => rfl }

theorem AgreeFor.deleteTags {p : Tag → Bool} :
    AgreeFor userId (s.deleteTags p) (s'.deleteTags p) :=
  { h with tags := h.tags.delete fun _ _ => rfl }

theorem AgreeFor.updateCategories {p : Category → Bool} {f : Category → Category}
    {hKey : ∀ c, (f c).id = c.id} (hOwner : ∀ c, (f c).userId = c.userId) :
    AgreeFor userId (s.updateCategories p f hKey) (s'.updateCategories p f hKey) :=
  { h with categories := h.categories.update hKey hOwner fun _ _ => rfl }

theorem AgreeFor.deleteCategories {p : Category → Bool} :
    AgreeFor userId (s.deleteCategories p) (s'.deleteCategories p) :=
  { h with categories := h.categories.delete fun _ _ => rfl }

end Agree

/-- The assignments after an insertion. -/
theorem mem_insertMessageTags {rows : List MessageTag} {a : MessageTag} :
    a ∈ (s.insertMessageTags rows).db.messageTags ↔ a ∈ s.db.messageTags ∨ a ∈ rows := by
  unfold insertMessageTags
  dsimp only
  generalize s.db.messageTags = t
  induction rows generalizing t with
  | nil => simp
  | cons row rows ih =>
      rw [List.foldl_cons, ih, List.mem_cons]
      have hRow : a ∈ (t.insert? row).getD t ↔ a ∈ t ∨ a = row := by
        cases hInsert : t.insert? row with
        | some t' =>
            obtain ⟨hFree, rfl⟩ := Table.insert?_eq_some.mp hInsert
            exact Table.mem_insert (Table.find?_eq_none.mp hFree)
        | none =>
            have hTaken : row ∈ t := by
              by_contra hNot
              have hFree : t.find? (Keyed.key row) = none :=
                Table.find?_eq_none.mpr fun r hr hEq => hNot (by rwa [show r = row from hEq] at hr)
              rw [Table.insert?_eq_some.mpr ⟨hFree, rfl⟩] at hInsert
              cases hInsert
            constructor
            · exact Or.inl
            · rintro (ha | rfl)
              · exact ha
              · exact hTaken
      rw [hRow, or_assoc]

theorem AgreeFor.insertMessageTags (h : AgreeFor userId s s') (rows : List MessageTag) :
    AgreeFor userId (s.insertMessageTags rows) (s'.insertMessageTags rows) := by
  refine { h with messageTags := fun a ha => ?_ }
  rw [mem_insertMessageTags, mem_insertMessageTags, h.messageTags a ha]

/-! ## One statement, and the rows of the others -/

theorem keepsTo_updateMessages {p : Message → Bool} {f : Message → Message}
    {hKey : ∀ m, (f m).id = m.id} (hp : ∀ m ∈ s.db.messages, p m = true → m.userId = userId)
    (hOwner : ∀ m, (f m).userId = m.userId) : KeepsTo userId s (s.updateMessages p f hKey) :=
  { KeepsTo.refl s with messages := Table.sameForOthers_update hKey hp hOwner }

theorem keepsTo_deleteMessageTags {p : MessageTag → Bool}
    (hp : ∀ a ∈ s.db.messageTags, p a = true → a.userId = userId) :
    KeepsTo userId s (s.deleteMessageTags p) :=
  { KeepsTo.refl s with messageTags := Table.sameForOthers_delete hp }

theorem keepsTo_updateTags {p : Tag → Bool} {f : Tag → Tag} {hKey : ∀ t, (f t).id = t.id}
    (hp : ∀ t ∈ s.tags, p t = true → t.userId = userId)
    (hOwner : ∀ t, (f t).userId = t.userId) : KeepsTo userId s (s.updateTags p f hKey) :=
  { KeepsTo.refl s with tags := Table.sameForOthers_update hKey hp hOwner }

theorem keepsTo_deleteTags {p : Tag → Bool}
    (hp : ∀ t ∈ s.tags, p t = true → t.userId = userId) : KeepsTo userId s (s.deleteTags p) :=
  { KeepsTo.refl s with tags := Table.sameForOthers_delete hp }

theorem keepsTo_updateCategories {p : Category → Bool} {f : Category → Category}
    {hKey : ∀ c, (f c).id = c.id} (hp : ∀ c ∈ s.db.categories, p c = true → c.userId = userId)
    (hOwner : ∀ c, (f c).userId = c.userId) : KeepsTo userId s (s.updateCategories p f hKey) :=
  { KeepsTo.refl s with categories := Table.sameForOthers_update hKey hp hOwner }

theorem keepsTo_deleteCategories {p : Category → Bool}
    (hp : ∀ c ∈ s.db.categories, p c = true → c.userId = userId) :
    KeepsTo userId s (s.deleteCategories p) :=
  { KeepsTo.refl s with categories := Table.sameForOthers_delete hp }

theorem keepsTo_insertMessageTags {rows : List MessageTag} (hRows : ∀ a ∈ rows, a.userId = userId) :
    KeepsTo userId s (s.insertMessageTags rows) := by
  refine { KeepsTo.refl s with messageTags := fun a ha => ?_ }
  rw [mem_insertMessageTags]
  constructor
  · exact Or.inl
  · exact fun hMem => hMem.resolve_right fun hRow => ha (hRows a hRow)

theorem keepsTo_insertTag {row : Tag} (hOwner : row.userId = userId) :
    KeepsTo userId s (s.insertTag row) :=
  { KeepsTo.refl s with tags :=
      Table.sameForOthers_insert (fun t ht => Nat.ne_of_lt (s.tagIds_fresh t ht)) hOwner }

theorem keepsTo_insertCategory {row : Category} (hOwner : row.userId = userId) :
    KeepsTo userId s (s.insertCategory row) :=
  { KeepsTo.refl s with categories :=
      Table.sameForOthers_insert (fun c hc => Nat.ne_of_lt (s.categoryIds_fresh c hc)) hOwner }

end Statements

/-! ## Isolated requests -/

/-- The unique constraint on the system keys of a user's categories. -/
def SystemKeysUnique (s : Organizer) : Prop :=
  ∀ c ∈ s.db.categories, ∀ c' ∈ s.db.categories, c.userId = c'.userId → c.systemKey ≠ none →
    c.systemKey = c'.systemKey → c = c'

/-- What a request of the user answers and does depends on the rows of the user only, and it
leaves all others alone. -/
structure Isolated {α : Type} (userId : UserId) (request : Organizer → α × Organizer) : Prop where
  answer : ∀ s s', s.SystemKeysUnique → AgreeFor userId s s' → (request s).1 = (request s').1
  rows : ∀ s s', s.SystemKeysUnique → AgreeFor userId s s' →
    AgreeFor userId (request s).2 (request s').2
  keeps : ∀ s, KeepsTo userId s (request s).2

section Requests

variable {userId : UserId} {ε π α β : Type}

/-- It is enough to look at the requests that pass their check. -/
theorem isolated_transaction {check : Organizer → Except ε π} {write : π → Organizer → Organizer}
    {answer : π → Organizer → Except ε α}
    (hCheck : ∀ s s', s.SystemKeysUnique → AgreeFor userId s s' → check s = check s')
    (hWrite : ∀ s s' plan, check s = .ok plan → AgreeFor userId s s' →
      AgreeFor userId (write plan s) (write plan s') ∧
        answer plan (write plan s) = answer plan (write plan s'))
    (hKeeps : ∀ s plan, check s = .ok plan → KeepsTo userId s (write plan s)) :
    Isolated userId (transaction check write answer) where
  answer := by
    intro s s' hUnique h
    cases hPlan : check s with
    | error e =>
        rw [transaction_error hPlan, transaction_error ((hCheck s s' hUnique h).symm.trans hPlan)]
    | ok plan =>
        rw [transaction_ok hPlan, transaction_ok ((hCheck s s' hUnique h).symm.trans hPlan)]
        exact (hWrite s s' plan hPlan h).2
  rows := by
    intro s s' hUnique h
    cases hPlan : check s with
    | error e =>
        rw [transaction_error hPlan, transaction_error ((hCheck s s' hUnique h).symm.trans hPlan)]
        exact h
    | ok plan =>
        rw [transaction_ok hPlan, transaction_ok ((hCheck s s' hUnique h).symm.trans hPlan)]
        exact (hWrite s s' plan hPlan h).1
  keeps := by
    intro s
    cases hPlan : check s with
    | error e =>
        rw [transaction_error hPlan]
        exact .refl s
    | ok plan =>
        rw [transaction_ok hPlan]
        exact hKeeps s plan hPlan

end Requests

end Organizer

end SavedOrganizer
