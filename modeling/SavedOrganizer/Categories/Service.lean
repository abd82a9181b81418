import SavedOrganizer.Tags.Service

/-!
# Categories

`CategoryService` and the seed of a new user's categories. A built-in category has a
`system_key` for good; its name and slug can be changed like those of any other. A custom
category has no `system_key`.
-/

namespace SavedOrganizer

open Python

def MAX_SLUG_LENGTH : Nat := 100

/-- What the service raises. -/
inductive CategoryError
  /-- `ValueError`. -/
  | value (message : String)
  | categoryNotFound (message : String)
  | categoryConflict (message : String)
  | categoryProtected (message : String)
  deriving DecidableEq, Repr

/-! ## The seed -/

/-- `DefaultCategorySeed`. -/
structure DefaultCategorySeed where
  name : String
  slug : String
  icon : String
  color : String
  position : Nat

def DEFAULT_CATEGORIES : List DefaultCategorySeed :=
  [⟨"Videos", "videos", "video", "#E11D48", 1⟩,
    ⟨"Audio", "audio", "music", "#2563EB", 2⟩,
    ⟨"Links", "links", "link", "#0EA5E9", 3⟩,
    ⟨"Repositories", "repositories", "code", "#4F46E5", 4⟩,
    ⟨"Images", "images", "image", "#14B8A6", 5⟩,
    ⟨"Documents", "documents", "file-text", "#F59E0B", 6⟩,
    ⟨"Text", "text", "message-square", "#6B7280", 7⟩,
    ⟨"Other", "other", "archive", "#64748B", 8⟩]

/-- `default_keys`: the eight system keys. -/
def defaultKeys : List String := DEFAULT_CATEGORIES.map DefaultCategorySeed.slug

def DefaultCategorySeed.category (u : Unicode) (userId : UserId) (seed : DefaultCategorySeed) :
    Category :=
  { id := 0
    userId := userId
    name := seed.name
    normalizedName := String.ofList (u.casefold seed.name.toList)
    slug := seed.slug
    systemKey := some seed.slug
    icon := seed.icon
    color := seed.color
    position := seed.position
    isDefault := true }

/-- `system_key or slug`. -/
def Category.mapKey (c : Category) : String :=
  if truthy c.systemKey then c.systemKey.getD "" else c.slug

/-- `existing_keys`. -/
def existingKeys (userId : UserId) (s : Organizer) : List String :=
  (s.db.categories.rows.filter fun c => c.userId == userId &&
    (c.systemKey.any defaultKeys.contains ||
      (c.systemKey.isNone && defaultKeys.contains c.slug))).map Category.mapKey

/-- `seed_default_categories`. -/
def seedDefaultCategories (u : Unicode) (userId : UserId) (s : Organizer) : Organizer :=
  (DEFAULT_CATEGORIES.filter fun seed => !(existingKeys userId s).contains seed.slug).foldl
    (fun s seed => s.insertCategory (seed.category u userId)) s

namespace CategoryService

/-! ## Arguments -/

section Arguments

variable (u : Unicode)

/-- `_normalize_non_empty_string`. -/
def normalizeNonEmptyString (value : Value) (fieldName : String) : Except CategoryError Text :=
  match value with
  | .str value =>
      if (strip value).isEmpty then .error (.value (fieldName ++ " must not be empty."))
      else .ok (strip value)
  | _ => .error (.value (fieldName ++ " must be a string."))

/-- `_normalize_name`. -/
def normalizeName (value : Value) : Except CategoryError Text :=
  (normalizeNonEmptyString value "name").map u.nfc

/-- `_normalize_name_key`. -/
def normalizeNameKey (value : Text) : Except CategoryError Text :=
  let key := u.nfc (u.casefold value)
  if MAX_NORMALIZED_NAME_LENGTH < key.length then
    .error (.value "name is too long after Unicode normalization.")
  else .ok key

/-- `_normalize_icon`. -/
def normalizeIcon (value : Value) : Except CategoryError Text :=
  normalizeNonEmptyString value "icon"

/-- `_normalize_color`. -/
def normalizeColor : Value → Except CategoryError Text
  | .str value =>
      let color := u.upper (strip value)
      if isHexColor color then .ok color
      else .error (.value "color must be a valid hex value like #22C55E.")
  | _ => .error (.value "color must be a string.")

/-- `_normalize_position`. `True` and `False` are refused. -/
def normalizePosition : Value → Except CategoryError Nat
  | .int n =>
      if n < 0 then .error (.value "position must be a non-negative integer.") else .ok n.toNat
  | _ => .error (.value "position must be a non-negative integer.")

/-- `SLUG_SANITIZE_PATTERN.sub("-", ..)`: a run of other characters becomes one dash. -/
def sanitizeSlug (inRun : Bool) : Text → Text
  | [] => []
  | c :: rest =>
      if u.isAlnum c then c :: sanitizeSlug false rest
      else if inRun then sanitizeSlug true rest
      else '-' :: sanitizeSlug true rest

/-- `rstrip("-")`. -/
def rstripDashes (t : Text) : Text := (t.reverse.dropWhile (· == '-')).reverse

/-- `_slugify`, before the check. -/
def slugOf (value : Text) : Text :=
  rstripDashes ((rstripDashes
    ((sanitizeSlug u false (u.casefold (u.nfc value))).dropWhile (· == '-'))).take MAX_SLUG_LENGTH)

/-- `_slugify`. -/
def slugify (value : Text) : Except CategoryError Text :=
  if (slugOf u value).isEmpty then
    .error (.value "name must include at least one alphanumeric character.")
  else .ok (slugOf u value)

end Arguments

/-! ## Loading -/

section Loading

variable (userId : UserId) (s : Organizer)

/-- `_load_category`. -/
def loadCategory (id : Int) : Option Category :=
  s.db.categories.rows.find? fun c => c.userId == userId && (c.id : Int) == id

def requireCategory (id : Int) : Except CategoryError Category :=
  match loadCategory userId s id with
  | none => .error (.categoryNotFound ("Category " ++ toString id ++ " was not found."))
  | some category => .ok category

/-- `_load_fallback_category`. -/
def loadFallbackCategory (excluded : CategoryId) : Option Category :=
  s.db.categories.rows.find? fun c =>
    c.userId == userId && c.systemKey == some OTHER_CATEGORY_SLUG && c.id != excluded

/-- A category of the user with this column, other than the excluded one. -/
def taken (column : Category → String) (value : Text) (excluded : Option CategoryId) : Bool :=
  s.db.categories.rows.any fun c =>
    c.userId == userId && column c == String.ofList value && excluded.all (c.id != ·)

/-- `_ensure_name_available`, for a name with this key. -/
def ensureNameAvailable (name key : Text) (excluded : Option CategoryId) :
    Except CategoryError Unit :=
  if taken userId s Category.normalizedName key excluded then
    .error (.categoryConflict ("Category name '" ++ String.ofList name ++ "' already exists."))
  else .ok ()

/-- `_ensure_slug_available`. -/
def ensureSlugAvailable (slug : Text) (excluded : Option CategoryId) : Except CategoryError Unit :=
  if taken userId s Category.slug slug excluded then
    .error (.categoryConflict ("Category slug '" ++ String.ofList slug ++ "' already exists."))
  else .ok ()

/-- `_resolve_position`: without a position the category goes to the end. -/
def resolvePosition : Value → Except CategoryError Nat
  | .none => .ok (((s.db.categories.rows.filter (·.userId == userId)).map
      Category.position).max?.getD 0 + 1)
  | value => normalizePosition value

end Loading

/-! ## Categories -/

section Categories

variable (u : Unicode) (userId : UserId)

/-- `CategoryWithCount`. -/
structure CategoryWithCount where
  category : Category
  messageCount : Nat
  deriving DecidableEq, Repr

/-- `Category.position.asc(), Category.id.asc()`. -/
def byPosition : SortKey Category :=
  (SortKey.ascending Category.position).thenBy (.ascending Category.id)

def listCategories (s : Organizer) : List CategoryWithCount :=
  (s.db.categories.select (·.userId == userId) byPosition).map fun c =>
    ⟨c, s.db.messages.count fun m => m.userId == userId && m.categoryId == c.id⟩

/-- The row `create_category` adds, without its id. -/
def checkCreate (name icon color position : Value) (s : Organizer) :
    Except CategoryError Category := do
  let name ← normalizeName u name
  let key ← normalizeNameKey u name
  let icon ← normalizeIcon icon
  let color ← normalizeColor u color
  let slug ← slugify u name
  let position ← resolvePosition userId s position
  ensureNameAvailable userId s name key none
  ensureSlugAvailable userId s slug none
  return {
    id := 0
    userId := userId
    name := String.ofList name
    normalizedName := String.ofList key
    slug := String.ofList slug
    systemKey := none
    icon := String.ofList icon
    color := String.ofList color
    position := position
    isDefault := false }

/-- `create_category`. -/
def createCategory (name icon color position : Value) (s : Organizer) :
    Except CategoryError Category × Organizer :=
  match checkCreate u userId name icon color position s with
  | .error e => (.error e, s)
  | .ok row => (.ok { row with id := s.nextCategoryId }, s.insertCategory row)

/-- The category with its new name, when there is one. -/
def withName (updates : Updates) (s : Organizer) (category : Category) :
    Except CategoryError Category :=
  match updates.get? "name" with
  | none => .ok category
  | some value => do
      let name ← normalizeName u value
      let key ← normalizeNameKey u name
      let slug ← slugify u name
      ensureNameAvailable userId s name key (some category.id)
      ensureSlugAvailable userId s slug (some category.id)
      return { category with
        name := String.ofList name
        normalizedName := String.ofList key
        slug := String.ofList slug }

def withIcon (updates : Updates) (category : Category) : Except CategoryError Category :=
  match updates.get? "icon" with
  | none => .ok category
  | some value => (normalizeIcon value).map fun icon => { category with icon := String.ofList icon }

def withColor (updates : Updates) (category : Category) : Except CategoryError Category :=
  match updates.get? "color" with
  | none => .ok category
  | some value => (normalizeColor u value).map fun color =>
      { category with color := String.ofList color }

def withPosition (updates : Updates) (category : Category) : Except CategoryError Category :=
  match updates.get? "position" with
  | none => .ok category
  | some value => (normalizePosition value).map fun position => { category with position := position }

/-- The row as `update_category` leaves it. -/
def checkUpdate (id : Int) (updates : Updates) (s : Organizer) : Except CategoryError Category :=
  if updates.isEmpty then .error (.value "At least one update field must be provided.")
  else do
    let category ← requireCategory userId s id
    match updates.unknown ["name", "icon", "color", "position"] with
    | some fields => throw (.value ("Unsupported update field(s): " ++ fields ++ "."))
    | none =>
        let category ← withName u userId updates s category
        let category ← withIcon updates category
        let category ← withColor u updates category
        withPosition updates category

/-- `update_category`. -/
def updateCategory (id : Int) (updates : Updates) :
    Organizer → Except CategoryError Category × Organizer :=
  Organizer.transaction (checkUpdate u userId id updates)
    (fun category s => s.updateCategories (·.id == category.id) fun row =>
      { row with
        name := category.name
        normalizedName := category.normalizedName
        slug := category.slug
        icon := category.icon
        color := category.color
        position := category.position })
    fun category _ => .ok category

/-- `CategoryDeleteResult`. -/
structure CategoryDeleteResult where
  movedMessageCount : Nat
  destinationCategoryId : CategoryId
  deriving DecidableEq, Repr

/-- The category, the fallback category, and the number of the messages that are moved. -/
def checkDelete (id : Int) (s : Organizer) :
    Except CategoryError (Category × Category × Nat) := do
  let category ← requireCategory userId s id
  if category.isDefault || category.systemKey.isSome then
    throw (.categoryProtected "Default categories cannot be deleted.")
  match loadFallbackCategory userId s category.id with
  | none => throw (.categoryNotFound
      "Fallback category 'other' was not found. Re-seed default categories before deleting.")
  | some fallback => return (category, fallback,
      s.db.messages.count fun m => m.userId == userId && m.categoryId == category.id)

/-- `delete_category`. -/
def deleteCategory (id : Int) : Organizer → Except CategoryError CategoryDeleteResult × Organizer :=
  Organizer.transaction (checkDelete userId id)
    (fun (category, fallback, _) s =>
      (s.updateMessages (fun m => m.userId == userId && m.categoryId == category.id)
        fun m => { m with categoryId := fallback.id }).deleteCategories (·.id == category.id))
    fun (_, fallback, moved) _ => .ok ⟨moved, fallback.id⟩

end Categories

end CategoryService

end SavedOrganizer
