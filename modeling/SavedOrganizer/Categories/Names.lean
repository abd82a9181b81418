import SavedOrganizer.Categories.Filing
import SavedOrganizer.Tags.Requests

/-!
# Names and their columns

A category or a tag is stored with its name in NFC and a key, a category also with a slug, each in
a column of 100 code points. The request schemas bound the name as it is sent, `_normalize_name_key`
bounds the key and `_slugify` the slug. Nothing bounds the name in NFC, and a code point that NFC
takes apart makes it longer than what was sent.

`names_fit_iff` says for which names all texts that are stored fit their columns.
-/

namespace SavedOrganizer

open Python

/-! ## The columns -/

/-- The text is not empty and fits `String(100)`. -/
def FitsColumn (t : Text) : Prop := 1 ≤ t.length ∧ t.length ≤ 100

instance (t : Text) : Decidable (FitsColumn t) := inferInstanceAs (Decidable (_ ∧ _))

/-- `Field(min_length=1, max_length=100)`. -/
def admittedName (raw : Text) : Bool := 1 ≤ raw.length && raw.length ≤ 100

/-- The standard's NFC and casefolding leave something of every text. -/
structure KeepsText (u : Unicode) : Prop where
  nfc : ∀ t, t ≠ [] → u.nfc t ≠ []
  casefold : ∀ t, t ≠ [] → u.casefold t ≠ []

def Category.names (c : Category) : List Text :=
  [c.name.toList, c.normalizedName.toList, c.slug.toList]

def Tag.names (t : Tag) : List Text := [t.name, t.normalizedName]

/-! ## The requests -/

/-- The requests that can name a category or a tag. -/
inductive NameRequest
  | createCategory (name icon color position : Value)
  | updateCategory (id : Int) (updates : Updates)
  | createTag (name color : Value)
  | updateTag (id : Value) (updates : Updates)

namespace NameRequest

/-- The name that is asked for. -/
def name : NameRequest → Option Value
  | .createCategory name _ _ _ => some name
  | .updateCategory _ updates => updates.get? "name"
  | .createTag name _ => some name
  | .updateTag _ updates => updates.get? "name"

/-- The names in the row that a request on categories has written. -/
def storedCategory : Except CategoryError Category × Organizer → Option (List Text)
  | (.error _, _) => none
  | (.ok row, s) => (s.db.categories.find? row.id).map Category.names

/-- The names in the row that a request on tags has written. -/
def storedTag : Except TagError Tag × Organizer → Option (List Text)
  | (.error _, _) => none
  | (.ok row, s) => (s.tags.find? row.id).map Tag.names

/-- The names a request has stored, if it is accepted. -/
def stored (u : Unicode) (userId : UserId) (s : Organizer) : NameRequest → Option (List Text)
  | .createCategory name icon color position =>
      storedCategory (CategoryService.createCategory u userId name icon color position s)
  | .updateCategory id updates =>
      storedCategory (CategoryService.updateCategory u userId id updates s)
  | .createTag name color => storedTag (TagService.createTag u userId name color s)
  | .updateTag id updates => storedTag (TagService.updateTag u userId id updates s)

end NameRequest

/-! ## The texts of a name -/

section Texts

variable {u : Unicode} {userId : UserId} {s : Organizer} {raw name key slug : Text}

theorem length_rstripDashes_le (t : Text) : (CategoryService.rstripDashes t).length ≤ t.length := by
  have hDropped := (List.dropWhile_sublist (· == '-') (l := t.reverse)).length_le
  simpa [CategoryService.rstripDashes] using hDropped

/-- A slug is cut to its column. -/
theorem slug_fits (h : CategoryService.slugify u name = .ok slug) : FitsColumn slug := by
  obtain ⟨hSlug, hNonempty⟩ := slugify_eq_ok h
  refine ⟨List.length_pos_iff.mpr hNonempty, ?_⟩
  rw [hSlug]
  refine (length_rstripDashes_le _).trans ?_
  rw [List.length_take]
  exact Nat.min_le_left _ _

/-- The name in NFC and the key of a name are not empty. -/
theorem KeepsText.names (h : KeepsText u) (hRaw : strip raw ≠ []) :
    1 ≤ (u.nfc (strip raw)).length ∧
      1 ≤ (u.nfc (u.casefold (u.nfc (strip raw)))).length :=
  ⟨List.length_pos_iff.mpr (h.nfc _ hRaw),
    List.length_pos_iff.mpr (h.nfc _ (h.casefold _ (h.nfc _ hRaw)))⟩

/-- Of a category's texts only the name can be too long. -/
theorem categoryNames_fit_iff (hText : KeepsText u) (h : Names u (.str raw) name key slug) :
    (∀ t ∈ [name, key, slug], FitsColumn t) ↔ (u.nfc (strip raw)).length ≤ 100 := by
  obtain ⟨text, hValue, hRaw, rfl⟩ := normalizeName_eq_ok h.normalized
  obtain rfl : raw = text := Value.str.inj hValue
  obtain ⟨rfl, hShort⟩ := categoryNameKey_eq_ok h.keyed
  obtain ⟨hNamePos, hKeyPos⟩ := hText.names hRaw
  constructor
  · intro hFits
    exact (hFits _ List.mem_cons_self).2
  · intro hLength t ht
    simp only [List.mem_cons, List.not_mem_nil, or_false] at ht
    rcases ht with rfl | rfl | rfl
    · exact ⟨hNamePos, hLength⟩
    · exact ⟨hKeyPos, hShort⟩
    · exact slug_fits h.slugified

/-- Of a tag's texts only the name can be too long. -/
theorem tagNames_fit_iff (hText : KeepsText u)
    (h : TagService.normalizedNames u (.str raw) = .ok (name, key)) :
    (∀ t ∈ [name, key], FitsColumn t) ↔ (u.nfc (strip raw)).length ≤ 100 := by
  obtain ⟨hRaw, rfl, rfl, hShort⟩ := normalizedNames_eq_ok h
  obtain ⟨hNamePos, hKeyPos⟩ := hText.names hRaw
  constructor
  · intro hFits
    exact (hFits _ List.mem_cons_self).2
  · intro hLength t ht
    simp only [List.mem_cons, List.not_mem_nil, or_false] at ht
    rcases ht with rfl | rfl
    · exact ⟨hNamePos, hLength⟩
    · exact ⟨hKeyPos, hShort⟩

end Texts

/-! ## The rows -/

section Rows

variable {u : Unicode} {userId : UserId} {s : Organizer} {texts : List Text}

theorem names_of_texts {row : Category} {name key slug : Text} (hName : row.name = String.ofList name)
    (hKey : row.normalizedName = String.ofList key) (hSlug : row.slug = String.ofList slug) :
    row.names = [name, key, slug] := by
  simp [Category.names, hName, hKey, hSlug]

/-- A new category is stored under the name of the request. -/
theorem createCategory_stored {value icon color position : Value}
    (h : NameRequest.storedCategory
      (CategoryService.createCategory u userId value icon color position s) = some texts) :
    ∃ name key slug, Names u value name key slug ∧ texts = [name, key, slug] := by
  unfold CategoryService.createCategory at h
  cases hCheck : CategoryService.checkCreate u userId value icon color position s with
  | error e =>
      rw [hCheck] at h
      cases h
  | ok row =>
      rw [hCheck] at h
      have hFound : (s.insertCategory row).db.categories.find? s.nextCategoryId =
          some { row with id := s.nextCategoryId } :=
        Table.find?_eq_some.mpr ⟨s.mem_insertCategory.mpr (Or.inr rfl), rfl⟩
      simp only [NameRequest.storedCategory, hFound, Option.map_some] at h
      obtain ⟨-, -, -, name, key, slug, hNames, hName, hKey, hSlug⟩ := checkCreate_eq_ok hCheck
      refine ⟨name, key, slug, hNames, (Option.some.inj h).symm.trans ?_⟩
      exact names_of_texts hName hKey hSlug

/-- An updated category is stored under the name of the request. -/
theorem updateCategory_stored {id : Int} {updates : Updates} {value : Value}
    (h : NameRequest.storedCategory (CategoryService.updateCategory u userId id updates s) =
      some texts) (hGet : updates.get? "name" = some value) :
    ∃ name key slug, Names u value name key slug ∧ texts = [name, key, slug] := by
  unfold CategoryService.updateCategory at h
  cases hCheck : CategoryService.checkUpdate u userId id updates s with
  | error e =>
      rw [Organizer.transaction_error hCheck] at h
      cases h
  | ok row =>
      rw [Organizer.transaction_ok hCheck] at h
      obtain ⟨c', hFound, rfl⟩ := Option.map_eq_some_iff.mp h
      obtain ⟨hMem, hId⟩ := Table.find?_eq_some.mp hFound
      obtain ⟨c, -, rfl⟩ := s.mem_updateCategories.mp hMem
      obtain ⟨loaded, -, -, named, icon, color, hNamed, hRow⟩ := checkUpdate_eq_ok hCheck
      obtain ⟨position, rfl, -⟩ := withPosition_eq_ok hRow
      rcases withName_eq_ok hNamed with ⟨hNone, -⟩ | ⟨asked, name, key, slug, hAsked, hNames, rfl⟩
      · rw [hGet] at hNone
        cases hNone
      · obtain rfl := Option.some.inj (hGet.symm.trans hAsked)
        refine ⟨name, key, slug, hNames, ?_⟩
        split at hId
        · rename_i hSelected
          rw [if_pos hSelected]
          exact names_of_texts rfl rfl rfl
        · rename_i hNot
          exact absurd (beq_iff_eq.mpr hId) hNot

/-! ### Tags -/

/-- A new tag is stored under the name of the request. -/
theorem createTag_stored {name color : Value}
    (h : NameRequest.storedTag (TagService.createTag u userId name color s) = some texts) :
    ∃ text key, TagService.normalizedNames u name = .ok (text, key) ∧ texts = [text, key] := by
  unfold TagService.createTag at h
  cases hCheck : TagService.checkCreate u userId name color s with
  | error e =>
      rw [hCheck] at h
      cases h
  | ok row =>
      rw [hCheck] at h
      have hFound : (s.insertTag row).tags.find? s.nextTagId =
          some { row with id := s.nextTagId } :=
        Table.find?_eq_some.mpr ⟨(Table.mem_insert (r := { row with id := s.nextTagId })
          fun t ht => Nat.ne_of_lt (s.tagIds_fresh t ht)).mpr (Or.inr rfl), rfl⟩
      simp only [NameRequest.storedTag, hFound, Option.map_some] at h
      exact ⟨_, _, (checkCreateTag_eq_ok hCheck).2, (Option.some.inj h).symm⟩

/-- An updated tag is stored under the name of the request. -/
theorem updateTag_stored {id : Value} {updates : Updates} {value : Value}
    (h : NameRequest.storedTag (TagService.updateTag u userId id updates s) = some texts)
    (hGet : updates.get? "name" = some value) :
    ∃ text key, TagService.normalizedNames u value = .ok (text, key) ∧ texts = [text, key] := by
  unfold TagService.updateTag at h
  cases hCheck : TagService.checkUpdate u userId id updates s with
  | error e =>
      rw [Organizer.transaction_error hCheck] at h
      cases h
  | ok row =>
      rw [Organizer.transaction_ok hCheck] at h
      obtain ⟨tag, -, -, hNames⟩ := checkUpdateTag_eq_ok hCheck
      refine ⟨_, _, updatedNames_eq_ok hNames hGet, ?_⟩
      obtain ⟨t', hFound, rfl⟩ := Option.map_eq_some_iff.mp h
      obtain ⟨hMem, hKey⟩ := Table.find?_eq_some.mp hFound
      obtain ⟨t, -, rfl⟩ := List.mem_map.mp hMem
      split at hKey
      · rename_i hSelected
        rw [if_pos hSelected]
        rfl
      · rename_i hOther
        exact absurd (beq_iff_eq.mpr hKey) hOther

end Rows

/-! ## The names that fit -/

/-- All texts that an accepted name is stored as fit their columns exactly when the stripped name
in NFC does. -/
theorem names_fit_iff (u : Unicode) (hText : KeepsText u) (userId : UserId) (s : Organizer)
    (request : NameRequest) (raw : Text) (texts : List Text)
    (hName : request.name = some (.str raw)) (hStored : request.stored u userId s = some texts) :
    (∀ t ∈ texts, FitsColumn t) ↔ (u.nfc (strip raw)).length ≤ 100 := by
  cases request with
  | createCategory value icon color position =>
      obtain rfl := Option.some.inj hName
      obtain ⟨name, key, slug, hNames, rfl⟩ := createCategory_stored hStored
      exact categoryNames_fit_iff hText hNames
  | updateCategory id updates =>
      obtain ⟨name, key, slug, hNames, rfl⟩ := updateCategory_stored hStored hName
      exact categoryNames_fit_iff hText hNames
  | createTag name color =>
      obtain rfl := Option.some.inj hName
      obtain ⟨text, key, hNames, rfl⟩ := createTag_stored hStored
      exact tagNames_fit_iff hText hNames
  | updateTag id updates =>
      obtain ⟨text, key, hNames, rfl⟩ := updateTag_stored hStored hName
      exact tagNames_fit_iff hText hNames

/-- `Archive`, for the user 1. -/
def archiveRequest : NameRequest :=
  .createCategory (.str "Archive".toList) (.str "archive".toList) (.str "#14B8A6".toList) .none

theorem plainUnicode_keepsText : KeepsText plainUnicode where
  nfc _ h := h
  casefold _ h := fun hNil => h (List.map_eq_nil_iff.mp hNil)

theorem names_fit_archive : ∃ texts, archiveRequest.stored plainUnicode 1 newUser = some texts ∧
    ∀ t ∈ texts, FitsColumn t := by
  have hStored : archiveRequest.stored plainUnicode 1 newUser =
      some ["Archive".toList, "archive".toList, "archive".toList] := by decide +kernel
  refine ⟨_, hStored, ?_⟩
  exact (names_fit_iff plainUnicode plainUnicode_keepsText 1 newUser archiveRequest
    "Archive".toList _ rfl hStored).mpr (by decide +kernel)

/-! ### A name of composition exclusions

NFC takes U+0958 apart and does not compose it again. It composes U+0331 with `h`, but not with
`H`, so that casefolding lets the key become shorter than the name. -/

def lineBelow : Char := Char.ofNat 0x331

def qa : Char := Char.ofNat 0x958

def qaParts : Text := [Char.ofNat 0x915, Char.ofNat 0x93C]

/-- `h` and U+0331. -/
def hLineBelow : Char := Char.ofNat 0x1E96

/-- NFC, on texts of ASCII characters, U+0331, U+0958 and its parts. -/
def nfcMarks (t : Text) : Text :=
  t.foldr (fun c rest =>
    if c = qa then qaParts ++ rest
    else if c = 'h' && rest.head? == some lineBelow then hLineBelow :: rest.tail
    else c :: rest) []

def markUnicode : Unicode where
  isAlnum c := c.isAlphanum || c == hLineBelow || c == qa || c == Char.ofNat 0x915
  casefold t := t.map Char.toLower
  nfkc := id
  bracketsAccepted _ := true
  upper t := t.map Char.toUpper
  nfc := nfcMarks
  nfc_nil := rfl

/-- `H̱` 34 times and U+0958 32 times. -/
def markedName : Text :=
  (List.replicate 34 ['H', lineBelow]).flatten ++ List.replicate 32 qa

def markedRequest : NameRequest :=
  .createCategory (.str markedName) (.str "archive".toList) (.str "#14B8A6".toList) .none

/-- A name of 100 code points is accepted and stored as one of 132, with a key of 98 and a slug
of 99. -/
theorem marked_name_too_long : admittedName markedName = true ∧
    markedRequest.name = some (.str markedName) ∧
    ∃ texts, markedRequest.stored markUnicode 1 newUser = some texts ∧
      texts.map List.length = [132, 98, 99] ∧ ¬ ∀ t ∈ texts, FitsColumn t := by
  refine ⟨by decide +kernel, rfl, ?_⟩
  have hAccepted : (markedRequest.stored markUnicode 1 newUser).isSome = true := by decide +kernel
  obtain ⟨texts, hStored⟩ := Option.isSome_iff_exists.mp hAccepted
  refine ⟨texts, hStored, ?_⟩
  have hCreated : NameRequest.storedCategory (CategoryService.createCategory markUnicode 1
      (.str markedName) (.str "archive".toList) (.str "#14B8A6".toList) .none newUser) =
      some texts := hStored
  obtain ⟨name, key, slug, hNames, rfl⟩ := createCategory_stored hCreated
  obtain ⟨text, hValue, -, rfl⟩ := normalizeName_eq_ok hNames.normalized
  obtain rfl : markedName = text := Value.str.inj hValue
  obtain rfl := (categoryNameKey_eq_ok hNames.keyed).1
  obtain rfl := (slugify_eq_ok hNames.slugified).1
  exact ⟨by decide +kernel, fun hFits => absurd (hFits _ List.mem_cons_self) (by decide +kernel)⟩

end SavedOrganizer
