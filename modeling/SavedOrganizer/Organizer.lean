import SavedOrganizer.Library.Query
import SavedOrganizer.Models
import SavedOrganizer.Python.Urllib

/-!
# The library a user organizes

The tables the message, tag and category services work on: the `Database` and the tags. The
ids of new tags and categories come from sequences that are above every id in use.

A request reads and checks first and writes last, in one transaction (`transaction`); a
request that raises has written nothing. The services are run one request at a time here, so
what a request has checked still holds when it commits, and the unique constraints that the
checks anticipate do not raise.
-/

namespace SavedOrganizer

/-- `Tag`: user-owned custom label for messages. -/
structure Tag where
  id : TagId
  userId : UserId
  name : Text
  normalizedName : Text
  color : Option Text
  deriving DecidableEq, Repr

instance : Keyed Tag TagId := ⟨Tag.id⟩

@[simp] theorem key_tag (r : Tag) : (Keyed.key r : TagId) = r.id := rfl

/-- The rows of all users, and the sequences behind `tags.id` and `categories.id`. -/
structure Organizer where
  db : Database
  tags : Table Tag
  nextTagId : TagId
  nextCategoryId : CategoryId
  tagIds_fresh : ∀ t ∈ tags, t.id < nextTagId
  categoryIds_fresh : ∀ c ∈ db.categories, c.id < nextCategoryId

theorem noTag_fresh : ∀ t ∈ (Table.empty : Table Tag), t.id < 1 := fun t ht => by cases ht

/-- What the database does with texts. -/
structure Sql where
  /-- `lower(t)`. -/
  lower : Text → Text
  /-- The order of texts. -/
  collation : SortKey Text

/-- The tables behind `str.upper` and `unicodedata.normalize("NFC", ..)`, with those of the
scanner. -/
structure Unicode extends Python.Runtime where
  upper : Text → Text
  nfc : Text → Text
  nfc_nil : nfc [] = []

/-- An argument of any type, as far as the services tell types apart. -/
inductive Value
  | none
  | bool (value : Bool)
  | int (value : Int)
  | str (value : Text)
  | other
  deriving DecidableEq, Repr

/-- The fields of an update, by name. -/
abbrev Updates := List (String × Value)

namespace Updates

variable (updates : Updates)

/-- `updates[name]`, when it is there. -/
def get? (name : String) : Option Value := (updates.find? (·.1 == name)).map Prod.snd

/-- `", ".join(sorted(set(updates) - known))`, when there is an unknown field. -/
def unknown (known : List String) : Option String :=
  match (updates.map Prod.fst).eraseDups.filter (!known.contains ·) with
  | [] => Option.none
  | fields => some (", ".intercalate (fields.insertionSort (· ≤ ·)))

end Updates

namespace Organizer

/-- A request: `check` reads and may raise, `write` is what it commits, and `answer` is read
from what is committed then. -/
def transaction {ε π α : Type} (check : Organizer → Except ε π) (write : π → Organizer → Organizer)
    (answer : π → Organizer → Except ε α) (s : Organizer) : Except ε α × Organizer :=
  match check s with
  | .error e => (.error e, s)
  | .ok plan => (answer plan (write plan s), write plan s)

section Transaction

variable {ε π α : Type} {check : Organizer → Except ε π} {write : π → Organizer → Organizer}
  {answer : π → Organizer → Except ε α} {s : Organizer}

theorem transaction_error {e : ε} (h : check s = .error e) :
    transaction check write answer s = (.error e, s) := by
  unfold transaction
  rw [h]

theorem transaction_ok {plan : π} (h : check s = .ok plan) :
    transaction check write answer s = (answer plan (write plan s), write plan s) := by
  unfold transaction
  rw [h]

end Transaction

end Organizer

/-! ## The statements that write -/

namespace Organizer

variable (s : Organizer)

/-- `UPDATE messages SET f WHERE p`. -/
def updateMessages (p : Message → Bool) (f : Message → Message)
    (hKey : ∀ m, (f m).id = m.id := by intro _; exact Eq.trans rfl rfl) : Organizer :=
  { s with db := s.db.updateMessages p f hKey }

theorem mem_updateMessages {p : Message → Bool} {f : Message → Message}
    {hKey : ∀ m, (f m).id = m.id} {m' : Message} :
    m' ∈ (s.updateMessages p f hKey).db.messages ↔
      ∃ m ∈ s.db.messages, (if p m then f m else m) = m' :=
  @Table.mem_update Message MessageId _ s.db.messages p f hKey m'

/-- The other tables after a change that leaves the categories alone. -/
def withDatabase (db : Database) (hCategories : db.categories = s.db.categories) : Organizer :=
  { s with
    db := db
    categoryIds_fresh := by
      rw [hCategories]
      exact s.categoryIds_fresh }

/-- `DELETE FROM message_tags WHERE p`. -/
def deleteMessageTags (p : MessageTag → Bool) : Organizer :=
  { s with db := { s.db with messageTags := s.db.messageTags.delete p } }

/-- `INSERT INTO message_tags`, for the assignments that are not there. -/
def insertMessageTags (rows : List MessageTag) : Organizer :=
  { s with db := { s.db with
      messageTags := rows.foldl (fun t row => (t.insert? row).getD t) s.db.messageTags } }

/-- `INSERT INTO tags`: the row gets the next id of the sequence. -/
def insertTag (row : Tag) : Organizer :=
  { s with
    tags := s.tags.insert { row with id := s.nextTagId }
      (fun t ht => Nat.ne_of_lt (s.tagIds_fresh t ht))
    nextTagId := s.nextTagId + 1
    tagIds_fresh := by
      intro t ht
      rcases (Table.mem_insert _).mp ht with ht | rfl
      · exact Nat.lt_succ_of_lt (s.tagIds_fresh t ht)
      · exact Nat.lt_succ_self _ }

/-- `UPDATE tags SET f WHERE p`. -/
def updateTags (p : Tag → Bool) (f : Tag → Tag)
    (hKey : ∀ t, (f t).id = t.id := by intro _; exact Eq.trans rfl rfl) : Organizer :=
  { s with
    tags := s.tags.update p f hKey
    tagIds_fresh := by
      intro t ht
      obtain ⟨r, hr, rfl⟩ := Table.mem_update.mp ht
      have hFresh := s.tagIds_fresh r hr
      split
      · rw [hKey]
        exact hFresh
      · exact hFresh }

/-- `DELETE FROM tags WHERE p`. -/
def deleteTags (p : Tag → Bool) : Organizer :=
  { s with
    tags := s.tags.delete p
    tagIds_fresh := fun t ht => s.tagIds_fresh t (Table.mem_delete.mp ht).1 }

/-- `INSERT INTO categories`. -/
def insertCategory (row : Category) : Organizer :=
  { s with
    db := { s.db with
      categories := s.db.categories.insert { row with id := s.nextCategoryId }
        fun c hc => Nat.ne_of_lt (s.categoryIds_fresh c hc) }
    nextCategoryId := s.nextCategoryId + 1
    categoryIds_fresh := by
      intro c hc
      rcases (Table.mem_insert fun c hc => Nat.ne_of_lt (s.categoryIds_fresh c hc)).mp hc with hc | rfl
      · exact Nat.lt_succ_of_lt (s.categoryIds_fresh c hc)
      · exact Nat.lt_succ_self _ }

theorem mem_insertCategory {row c : Category} :
    c ∈ (s.insertCategory row).db.categories ↔
      c ∈ s.db.categories ∨ c = { row with id := s.nextCategoryId } :=
  Table.mem_insert (r := { row with id := s.nextCategoryId })
    fun c hc => Nat.ne_of_lt (s.categoryIds_fresh c hc)

/-- `UPDATE categories SET f WHERE p`. -/
def updateCategories (p : Category → Bool) (f : Category → Category)
    (hKey : ∀ c, (f c).id = c.id := by intro _; exact Eq.trans rfl rfl) : Organizer :=
  { s with
    db := { s.db with categories := s.db.categories.update p f hKey }
    categoryIds_fresh := by
      intro c hc
      obtain ⟨r, hr, rfl⟩ := (@Table.mem_update _ _ _ s.db.categories p f hKey c).mp hc
      have hFresh := s.categoryIds_fresh r hr
      split
      · rw [hKey]
        exact hFresh
      · exact hFresh }

theorem mem_updateCategories {p : Category → Bool} {f : Category → Category}
    {hKey : ∀ c, (f c).id = c.id} {c' : Category} :
    c' ∈ (s.updateCategories p f hKey).db.categories ↔
      ∃ c ∈ s.db.categories, (if p c then f c else c) = c' :=
  @Table.mem_update Category CategoryId _ s.db.categories p f hKey c'

/-- `DELETE FROM categories WHERE p`. -/
def deleteCategories (p : Category → Bool) : Organizer :=
  { s with
    db := { s.db with categories := s.db.categories.delete p }
    categoryIds_fresh := fun c hc => s.categoryIds_fresh c (Table.mem_delete.mp hc).1 }

theorem mem_deleteCategories {p : Category → Bool} {c : Category} :
    c ∈ (s.deleteCategories p).db.categories ↔ c ∈ s.db.categories ∧ p c = false :=
  Table.mem_delete

end Organizer

end SavedOrganizer
