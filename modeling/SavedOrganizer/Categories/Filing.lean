import SavedOrganizer.Categories.Requests
import SavedOrganizer.System.PageEffect

/-!
# Filing new messages

`_persist_scan_page` looks the category of a new message up in a map from `system_key or slug`.
The built-in categories are in it by their system keys and custom ones by their slugs. A custom
category can have a system key as its slug once the built-in category has been renamed, and
which of the two the map then holds depends on the order of the rows.

The built-in categories stay through every run of category requests. New messages are filed
under them as long as no custom category is given the slug of one (`filed_by_system_key`).
-/

namespace SavedOrganizer

open Python Transition

/-! ## Requests -/

inductive CategoryAction
  | create (userId : UserId) (name icon color position : Value)
  | update (userId : UserId) (id : Int) (updates : Updates)
  | delete (userId : UserId) (id : Int)

/-- The rows after a request. -/
def categoryStep (u : Unicode) (s : Organizer) : CategoryAction → Option Organizer
  | .create userId name icon color position =>
      some (CategoryService.createCategory u userId name icon color position s).2
  | .update userId id updates => some (CategoryService.updateCategory u userId id updates s).2
  | .delete userId id => some (CategoryService.deleteCategory userId id s).2

/-- The name gives a category the slug of a built-in one. -/
def reservedName (u : Unicode) : Value → Bool
  | .str name =>
      defaultKeys.contains (String.ofList (CategoryService.slugOf u (u.nfc (strip name))))
  | _ => false

/-- The request is accepted and gives a custom category of the user a reserved name. -/
def TakesSystemKey (u : Unicode) (userId : UserId) (s : Organizer) : CategoryAction → Prop
  | .create owner name icon color position =>
      owner = userId ∧ reservedName u name = true ∧
        ∃ row, CategoryService.checkCreate u owner name icon color position s = .ok row
  | .update owner id updates =>
      owner = userId ∧ (∃ name, updates.get? "name" = some name ∧ reservedName u name = true) ∧
        ∃ row, CategoryService.checkUpdate u owner id updates s = .ok row ∧ row.systemKey = none
  | .delete _ _ => False

/-! ## What is filed -/

/-- The rows that a page has added are the ones for its messages, each in the built-in category
that the categorizer names. -/
def NewRowsFiled (py : Runtime) (lease : ScanLease) (page : ScanPage) (db db' : Database) :
    Prop :=
  ∀ m' ∈ db'.messages, (∀ m ∈ db.messages, m.id ≠ m'.id) →
    ∃ scanned ∈ page.messages, ∃ key, categorizeScannedMessage py scanned = .ok key ∧
      ∃ c ∈ db.categories, c.userId = lease.userId ∧ c.systemKey = some key ∧
        m' = addedRow lease (fun _ => c.id) scanned m'.id

/-- The user has the eight built-in categories. -/
def HasBuiltIn (userId : UserId) (s : Organizer) : Prop :=
  ∀ key ∈ defaultKeys, ∃ c ∈ s.db.categories, c.userId = userId ∧ c.systemKey = some key

/-- Whatever the other tables hold, and in whatever order the categories are read, new messages
of the user are filed under the built-in categories. -/
def FilesBySystemKey (py : Runtime) (userId : UserId) (s : Organizer) : Prop :=
  ∀ db db' : Database, db.categories.rows.Perm s.db.categories.rows →
    ∀ (lease : ScanLease) (page : ScanPage) (now fenceNow : Instant), lease.userId = userId →
      persistScanPage py now fenceNow lease page db = .ok db' → NewRowsFiled py lease page db db'

/-! ## The invariant -/

/-- The built-in categories of the user: one for each of these keys. -/
structure BuiltIn (userId : UserId) (keys : List String) (s : Organizer) : Prop where
  present : ∀ key ∈ keys, ∃ c ∈ s.db.categories, c.userId = userId ∧ c.systemKey = some key
  known : ∀ c ∈ s.db.categories, c.userId = userId → ∀ key, c.systemKey = some key → key ∈ keys
  unique : ∀ c ∈ s.db.categories, ∀ c' ∈ s.db.categories, c.userId = userId →
    c'.userId = userId → c.systemKey ≠ none → c.systemKey = c'.systemKey → c = c'

/-- No custom category of the user has the slug of a built-in one. -/
def SlugsFree (userId : UserId) (s : Organizer) : Prop :=
  ∀ c ∈ s.db.categories, c.userId = userId → c.systemKey = none → c.slug ∉ defaultKeys

section Statements

variable {userId : UserId} {keys : List String} {s : Organizer} {row : Category}

theorem BuiltIn.insert_custom (h : BuiltIn userId keys s) (hCustom : row.systemKey = none) :
    BuiltIn userId keys (s.insertCategory row) where
  present := by
    intro key hKey
    obtain ⟨c, hc, hOwner⟩ := h.present key hKey
    exact ⟨c, s.mem_insertCategory.mpr (Or.inl hc), hOwner⟩
  known := by
    intro c hc hOwner key hKey
    rcases s.mem_insertCategory.mp hc with hc | rfl
    · exact h.known c hc hOwner key hKey
    · exact absurd (hCustom.symm.trans hKey) (by simp)
  unique := by
    intro c hc c' hc' hOwner hOwner' hKey hSame
    rcases s.mem_insertCategory.mp hc with hc | rfl
    · rcases s.mem_insertCategory.mp hc' with hc' | rfl
      · exact h.unique c hc c' hc' hOwner hOwner' hKey hSame
      · exact absurd (hSame.trans hCustom) hKey
    · exact absurd hCustom hKey

theorem BuiltIn.insert_builtIn {key : String} (h : BuiltIn userId keys s) (hNew : key ∉ keys)
    (hOwner : row.userId = userId) (hRow : row.systemKey = some key) :
    BuiltIn userId (key :: keys) (s.insertCategory row) where
  present := by
    intro k hk
    rcases List.mem_cons.mp hk with rfl | hk
    · exact ⟨_, s.mem_insertCategory.mpr (Or.inr rfl), hOwner, hRow⟩
    · obtain ⟨c, hc, hOwner⟩ := h.present k hk
      exact ⟨c, s.mem_insertCategory.mpr (Or.inl hc), hOwner⟩
  known := by
    intro c hc hOwner k hk
    rcases s.mem_insertCategory.mp hc with hc | rfl
    · exact List.mem_cons_of_mem _ (h.known c hc hOwner k hk)
    · rw [Option.some.inj (hRow.symm.trans hk)]
      exact List.mem_cons_self
  unique := by
    -- a stored category with the new key would make the key an old one
    have hOther : ∀ c ∈ s.db.categories, c.userId = userId → c.systemKey ≠ some key :=
      fun c hc hOwner hKey => hNew (h.known c hc hOwner key hKey)
    intro c hc c' hc' hOwner hOwner' hKey hSame
    rcases s.mem_insertCategory.mp hc with hc | rfl
    · rcases s.mem_insertCategory.mp hc' with hc' | rfl
      · exact h.unique c hc c' hc' hOwner hOwner' hKey hSame
      · exact absurd (hSame.trans hRow) (hOther c hc hOwner)
    · rcases s.mem_insertCategory.mp hc' with hc' | rfl
      · exact absurd (hSame.symm.trans hRow) (hOther c' hc' hOwner')
      · rfl

/-- An update that leaves owners and system keys alone keeps the built-in categories. -/
theorem BuiltIn.update {p : Category → Bool} {f : Category → Category}
    {hKey : ∀ c, (f c).id = c.id} (h : BuiltIn userId keys s)
    (hOwners : ∀ c, (f c).userId = c.userId) (hSystem : ∀ c, (f c).systemKey = c.systemKey) :
    BuiltIn userId keys (s.updateCategories p f hKey) := by
  have hOwner : ∀ c, (if p c then f c else c).userId = c.userId := by
    intro c
    split
    · exact hOwners c
    · rfl
  have hSame : ∀ c, (if p c then f c else c).systemKey = c.systemKey := by
    intro c
    split
    · exact hSystem c
    · rfl
  refine ⟨?_, ?_, ?_⟩
  · intro key hk
    obtain ⟨c, hc, hUser, hc'⟩ := h.present key hk
    exact ⟨_, s.mem_updateCategories.mpr ⟨c, hc, rfl⟩, (hOwner c).trans hUser,
      (hSame c).trans hc'⟩
  · intro c' hc' hUser key hk
    obtain ⟨c, hc, rfl⟩ := s.mem_updateCategories.mp hc'
    rw [hOwner] at hUser
    rw [hSame] at hk
    exact h.known c hc hUser key hk
  · intro c₁ hc₁ c₂ hc₂ hUser₁ hUser₂ hSome hEq
    obtain ⟨c, hc, rfl⟩ := s.mem_updateCategories.mp hc₁
    obtain ⟨c', hc', rfl⟩ := s.mem_updateCategories.mp hc₂
    rw [hOwner] at hUser₁ hUser₂
    rw [hSame] at hSome
    rw [hSame, hSame] at hEq
    rw [h.unique c hc c' hc' hUser₁ hUser₂ hSome hEq]

theorem BuiltIn.delete {p : Category → Bool} (h : BuiltIn userId keys s)
    (hCustom : ∀ c ∈ s.db.categories, p c = true → c.systemKey = none) :
    BuiltIn userId keys (s.deleteCategories p) where
  present := by
    intro key hKey
    obtain ⟨c, hc, hUser, hSystem⟩ := h.present key hKey
    refine ⟨c, s.mem_deleteCategories.mpr ⟨hc, ?_⟩, hUser, hSystem⟩
    rw [← Bool.not_eq_true]
    intro hp
    rw [hCustom c hc hp] at hSystem
    cases hSystem
  known := fun c hc => h.known c (s.mem_deleteCategories.mp hc).1
  unique := fun c hc c' hc' =>
    h.unique c (s.mem_deleteCategories.mp hc).1 c' (s.mem_deleteCategories.mp hc').1

end Statements

/-! ## The seed -/

theorem existingKeys_eq_nil {userId : UserId} {s : Organizer}
    (hNew : ∀ c ∈ s.db.categories, c.userId ≠ userId) : existingKeys userId s = [] := by
  unfold existingKeys
  rw [List.map_eq_nil_iff, List.filter_eq_nil_iff]
  intro c hc hSelected
  simp only [Bool.and_eq_true, beq_iff_eq] at hSelected
  exact hNew c hc hSelected.1

/-- Seeding adds the built-in categories one after the other, and nothing else. -/
theorem builtIn_seed {u : Unicode} {userId : UserId} {seeds : List DefaultCategorySeed}
    {keys : List String} {s : Organizer} (h : BuiltIn userId keys s) (hFree : SlugsFree userId s)
    (hDistinct : (seeds.map DefaultCategorySeed.slug).Nodup)
    (hNew : ∀ seed ∈ seeds, seed.slug ∉ keys) :
    BuiltIn userId ((seeds.map DefaultCategorySeed.slug).reverse ++ keys)
        (seeds.foldl (fun s seed => s.insertCategory (seed.category u userId)) s) ∧
      SlugsFree userId
        (seeds.foldl (fun s seed => s.insertCategory (seed.category u userId)) s) := by
  induction seeds generalizing keys s with
  | nil => exact ⟨h, hFree⟩
  | cons seed rest ih =>
      rw [List.map_cons, List.nodup_cons] at hDistinct
      rw [List.map_cons, List.reverse_cons, List.append_assoc, List.singleton_append,
        List.foldl_cons]
      refine ih (h.insert_builtIn (hNew seed List.mem_cons_self) rfl rfl) ?_ hDistinct.2 ?_
      · intro c hc hUser hCustom
        rcases s.mem_insertCategory.mp hc with hc | rfl
        · exact hFree c hc hUser hCustom
        · cases hCustom
      · intro other hOther hMem
        rcases List.mem_cons.mp hMem with hSame | hMem
        · exact hDistinct.1 (hSame ▸ List.mem_map_of_mem hOther)
        · exact hNew other (List.mem_cons_of_mem _ hOther) hMem

/-- A new user has exactly the built-in categories. -/
theorem seedDefaultCategories_builtIn {u : Unicode} {userId : UserId} {s : Organizer}
    (hNew : ∀ c ∈ s.db.categories, c.userId ≠ userId) :
    BuiltIn userId defaultKeys (seedDefaultCategories u userId s) ∧
      SlugsFree userId (seedDefaultCategories u userId s) := by
  have hStart : BuiltIn userId [] s :=
    ⟨by simp, fun c hc hUser => absurd hUser (hNew c hc),
      fun c hc _ _ hUser => absurd hUser (hNew c hc)⟩
  have hAll : (DEFAULT_CATEGORIES.filter fun seed =>
      !(existingKeys userId s).contains seed.slug) = DEFAULT_CATEGORIES := by
    rw [existingKeys_eq_nil hNew]
    rfl
  unfold seedDefaultCategories
  rw [hAll]
  obtain ⟨hBuiltIn, hFree⟩ := @builtIn_seed u userId DEFAULT_CATEGORIES [] s hStart
    (fun c hc hUser => absurd hUser (hNew c hc)) (by decide) (fun _ _ => List.not_mem_nil)
  rw [List.append_nil] at hBuiltIn
  refine ⟨⟨fun key hKey => hBuiltIn.present key (List.mem_reverse.mpr hKey),
    fun c hc hUser key hKey => List.mem_reverse.mp (hBuiltIn.known c hc hUser key hKey),
    hBuiltIn.unique⟩, hFree⟩

/-! ## The requests -/

section Requests

variable {u : Unicode} {userId owner : UserId} {s s' : Organizer} {row : Category}

/-- A name that is accepted is a text; its slug is reserved when the name is. -/
theorem reservedName_eq {value : Value} {name key slug : Text} (h : Names u value name key slug) :
    reservedName u value = defaultKeys.contains (String.ofList slug) := by
  obtain ⟨text, rfl, -, rfl⟩ := normalizeName_eq_ok h.normalized
  rw [(slugify_eq_ok h.slugified).1]
  rfl

/-- The identity of a category, and its slug unless it gets another name. -/
structure Renames (u : Unicode) (updates : Updates) (c c' : Category) : Prop where
  id : c'.id = c.id
  userId : c'.userId = c.userId
  systemKey : c'.systemKey = c.systemKey
  slug : c'.slug = c.slug ∨ ∃ name, updates.get? "name" = some name ∧
    reservedName u name = defaultKeys.contains c'.slug

theorem renames_withName {updates : Updates} {c c' : Category}
    (h : CategoryService.withName u owner updates s c = .ok c') : Renames u updates c c' := by
  rcases withName_eq_ok h with ⟨-, rfl⟩ | ⟨value, name, key, slug, hGet, hNames, rfl⟩
  · exact ⟨rfl, rfl, rfl, Or.inl rfl⟩
  · exact ⟨rfl, rfl, rfl, Or.inr ⟨value, hGet, reservedName_eq hNames⟩⟩

/-- The other fields of an update leave all of that alone. -/
theorem Renames.of_same {updates : Updates} {c c' c'' : Category} (h : Renames u updates c c')
    (hId : c''.id = c'.id) (hUser : c''.userId = c'.userId)
    (hSystem : c''.systemKey = c'.systemKey) (hSlug : c''.slug = c'.slug) :
    Renames u updates c c'' := by
  refine ⟨hId.trans h.id, hUser.trans h.userId, hSystem.trans h.systemKey, ?_⟩
  rw [hSlug]
  exact h.slug

/-- An update keeps the owner and the system key of the category. -/
theorem renames_checkUpdate {id : Int} {updates : Updates}
    (h : CategoryService.checkUpdate u owner id updates s = .ok row) :
    ∃ c ∈ s.db.categories, c.userId = owner ∧ Renames u updates c row := by
  obtain ⟨c, hc, hOwner, named, icon, color, hName, hRow⟩ := checkUpdate_eq_ok h
  obtain ⟨position, rfl, -⟩ := withPosition_eq_ok hRow
  exact ⟨c, hc, hOwner, (renames_withName hName).of_same rfl rfl rfl rfl⟩

/-- The built-in categories stay through every request. -/
theorem categoryStep_builtIn {a : CategoryAction} {keys : List String}
    (h : categoryStep u s a = some s') (hInv : BuiltIn userId keys s) :
    BuiltIn userId keys s' := by
  cases a with
  | create owner name icon color position =>
      obtain rfl := Option.some.inj h
      unfold CategoryService.createCategory
      split
      · exact hInv
      · rename_i row hRow
        exact hInv.insert_custom (checkCreate_eq_ok hRow).2.1
  | update owner id updates =>
      obtain rfl := Option.some.inj h
      unfold CategoryService.updateCategory
      cases hCheck : CategoryService.checkUpdate u owner id updates s with
      | error e =>
          rw [Organizer.transaction_error hCheck]
          exact hInv
      | ok row =>
          rw [Organizer.transaction_ok hCheck]
          exact hInv.update (fun _ => rfl) (fun _ => rfl)
  | delete owner id =>
      obtain rfl := Option.some.inj h
      unfold CategoryService.deleteCategory
      cases hCheck : CategoryService.checkDelete owner id s with
      | error e =>
          rw [Organizer.transaction_error hCheck]
          exact hInv
      | ok plan =>
          obtain ⟨hc, -, hCustom⟩ := checkDelete_eq_ok hCheck
          rw [Organizer.transaction_ok hCheck]
          refine BuiltIn.delete ⟨hInv.present, hInv.known, hInv.unique⟩ fun c hMem hp => ?_
          rw [Table.eq_of_key hMem hc (beq_iff_eq.mp hp)]
          exact hCustom

/-- A request that takes no system key leaves the slugs free. -/
theorem categoryStep_slugsFree {a : CategoryAction} (h : categoryStep u s a = some s')
    (hFree : SlugsFree userId s) (hTakes : ¬ TakesSystemKey u userId s a) :
    SlugsFree userId s' := by
  cases a with
  | create owner name icon color position =>
      obtain rfl := Option.some.inj h
      unfold CategoryService.createCategory
      split
      · exact hFree
      · rename_i row hRow
        obtain ⟨hOwner, -, -, text, key, slug, hNames, -, -, hSlug⟩ := checkCreate_eq_ok hRow
        intro c hc hUser hCustom hMem
        rcases s.mem_insertCategory.mp hc with hc | rfl
        · exact hFree c hc hUser hCustom hMem
        · refine hTakes ⟨hOwner.symm.trans hUser, ?_, row, hRow⟩
          rw [reservedName_eq hNames, ← hSlug]
          exact List.contains_iff_mem.mpr hMem
  | update owner id updates =>
      obtain rfl := Option.some.inj h
      unfold CategoryService.updateCategory
      cases hCheck : CategoryService.checkUpdate u owner id updates s with
      | error e =>
          rw [Organizer.transaction_error hCheck]
          exact hFree
      | ok row =>
          rw [Organizer.transaction_ok hCheck]
          obtain ⟨loaded, hLoaded, hOwner, hRenames⟩ := renames_checkUpdate hCheck
          intro c' hc' hUser hCustom hMem
          obtain ⟨c, hc, rfl⟩ := s.mem_updateCategories.mp hc'
          split at hUser
          · rename_i hSelected
            rw [if_pos hSelected] at hCustom hMem
            obtain rfl : c = loaded :=
              Table.eq_of_key hc hLoaded ((beq_iff_eq.mp hSelected).trans hRenames.id)
            rcases hRenames.slug with hSame | ⟨name, hName, hReserved⟩
            · exact hFree c hc hUser hCustom (hSame ▸ hMem)
            · refine hTakes ⟨hOwner.symm.trans hUser, ⟨name, hName, ?_⟩, row, hCheck,
                hRenames.systemKey.trans hCustom⟩
              rw [hReserved]
              exact List.contains_iff_mem.mpr hMem
          · rename_i hOther
            rw [if_neg hOther] at hCustom hMem
            exact hFree c hc hUser hCustom hMem
  | delete owner id =>
      obtain rfl := Option.some.inj h
      unfold CategoryService.deleteCategory
      cases hCheck : CategoryService.checkDelete owner id s with
      | error e =>
          rw [Organizer.transaction_error hCheck]
          exact hFree
      | ok plan =>
          rw [Organizer.transaction_ok hCheck]
          exact fun c hc => hFree c (Organizer.mem_deleteCategories _ |>.mp hc).1

end Requests

/-! ## The map of a scan -/

section Filing

variable {py : Runtime} {userId : UserId} {s : Organizer} {db db' : Database}

theorem mediaCategorySlug_key {scanned : ScannedMessage} {key : String}
    (h : mediaCategorySlug scanned = some key) : key ∈ defaultKeys := by
  unfold mediaCategorySlug at h
  dsimp only at h
  split at h
  · obtain rfl := Option.some.inj h
    decide
  split at h
  · obtain rfl := Option.some.inj h
    decide
  split at h
  · obtain rfl := Option.some.inj h
    decide
  split at h
  · obtain rfl := Option.some.inj h
    decide
  · cases h

/-- The categorizer names a built-in category. -/
theorem categorizeScannedMessage_key {scanned : ScannedMessage} {key : String}
    (h : categorizeScannedMessage py scanned = .ok key) : key ∈ defaultKeys := by
  unfold categorizeScannedMessage at h
  cases hMedia : mediaCategorySlug scanned with
  | some slug =>
      rw [hMedia] at h
      obtain rfl := Except.ok.inj h
      exact mediaCategorySlug_key hMedia
  | none =>
      rw [hMedia] at h
      obtain ⟨isRepository, -, h⟩ := Checks.bind_eq_ok h
      split at h
      · obtain rfl := Except.ok.inj h
        decide
      split at h
      · obtain rfl := Except.ok.inj h
        decide
      split at h
      · obtain rfl := Except.ok.inj h
        decide
      · obtain rfl := Except.ok.inj h
        decide

/-- A key that all its pairs map to one value has that value. -/
theorem dictGet_eq_some {pairs : List (String × CategoryId)} {key : String} {id : CategoryId}
    (hMem : (key, id) ∈ pairs) (hUnique : ∀ id', (key, id') ∈ pairs → id' = id) :
    dictGet pairs key = some id := by
  unfold dictGet
  cases hFound : pairs.reverse.find? (·.1 == key) with
  | none =>
      have hNot := List.find?_eq_none.mp hFound (key, id) (List.mem_reverse.mpr hMem)
      simp at hNot
  | some pair =>
      obtain ⟨key', id'⟩ := pair
      have hSame : key' = key := by simpa using List.find?_some hFound
      subst hSame
      rw [Option.map_some,
        hUnique id' (List.mem_reverse.mp (List.mem_of_find?_eq_some hFound))]

theorem mem_categoryMap {key : String} {id : CategoryId} :
    (key, id) ∈ db.categoryMap userId ↔
      ∃ c ∈ db.categories, c.userId = userId ∧ c.mapKey = key ∧ c.id = id := by
  unfold Database.categoryMap
  rw [List.mem_map]
  simp only [List.mem_filter, beq_iff_eq, Prod.mk.injEq, and_assoc]
  exact Iff.rfl

/-- Built-in categories are looked up by their system key, custom ones by their slug. -/
theorem mapKey_eq {c : Category} {key : String} (h : c.mapKey = key) :
    c.systemKey = some key ∨ (∀ k ∈ defaultKeys, c.systemKey ≠ some k) ∧ c.slug = key := by
  have hNonempty : ∀ k ∈ defaultKeys, k ≠ "" := by decide
  unfold Category.mapKey at h
  cases hSystem : c.systemKey with
  | none =>
      rw [hSystem] at h
      exact Or.inr ⟨fun k _ => by simp, h⟩
  | some k =>
      rw [hSystem] at h
      by_cases hEmpty : k = ""
      · subst hEmpty
        refine Or.inr ⟨fun k' hk' hEq => hNonempty k' hk' (Option.some.inj hEq).symm, ?_⟩
        simpa [truthy] using h
      · refine Or.inl ?_
        simpa [truthy, hEmpty] using h

/-- Whatever the order of the rows, a system key is mapped to its built-in category. -/
theorem categoryMap_builtIn {key : String} (hInv : BuiltIn userId defaultKeys s)
    (hFree : SlugsFree userId s) (hRows : db.categories.rows.Perm s.db.categories.rows)
    (hKey : key ∈ defaultKeys) :
    ∃ c ∈ db.categories, c.userId = userId ∧ c.systemKey = some key ∧
      dictGet (db.categoryMap userId) key = some c.id := by
  have hNonempty : ∀ k ∈ defaultKeys, k ≠ "" := by decide
  obtain ⟨c, hc, hUser, hSystem⟩ := hInv.present key hKey
  refine ⟨c, hRows.mem_iff.mpr hc, hUser, hSystem, ?_⟩
  apply dictGet_eq_some
  · refine mem_categoryMap.mpr ⟨c, hRows.mem_iff.mpr hc, hUser, ?_, rfl⟩
    simp [Category.mapKey, hSystem, truthy, hNonempty key hKey]
  · intro id hMem
    obtain ⟨c', hc', hUser', hMap, rfl⟩ := mem_categoryMap.mp hMem
    have hStored : c' ∈ s.db.categories := hRows.mem_iff.mp hc'
    rcases mapKey_eq hMap with hSystem' | ⟨hNot, hSlug⟩
    · rw [hInv.unique c' hStored c hc hUser' hUser (by simp [hSystem'])
        (hSystem'.trans hSystem.symm)]
    · have hCustom : c'.systemKey = none := by
        cases hSome : c'.systemKey with
        | none => rfl
        | some k => exact absurd hSome (hNot k (hInv.known c' hStored hUser' k hSome))
      exact absurd (hSlug ▸ hKey) (hFree c' hStored hUser' hCustom)

/-- A page adds the rows of its messages, each under the category the map has for it. -/
theorem persistScanPage_newRows {now fenceNow : Instant} {lease : ScanLease} {page : ScanPage}
    (h : persistScanPage py now fenceNow lease page db = .ok db') :
    ∃ other, ∀ m' ∈ db'.messages, (∀ m ∈ db.messages, m.id ≠ m'.id) →
      ∃ scanned ∈ page.messages, ∃ key, categorizeScannedMessage py scanned = .ok key ∧
        m' = addedRow lease (fun _ => (dictGet (db.categoryMap lease.userId) key).getD other)
          scanned m'.id := by
  obtain ⟨-, -, -, other, staged, hStaged, rfl⟩ := persistScanPage_eq_ok h
  refine ⟨other, ?_⟩
  refine stagePage_induct (P := fun current => ∀ m' ∈ current.db.messages,
    (∀ m ∈ db.messages, m.id ≠ m'.id) → ∃ scanned ∈ page.messages, ∃ key,
      categorizeScannedMessage py scanned = .ok key ∧
        m' = addedRow lease (fun _ => (dictGet (db.categoryMap lease.userId) key).getD other)
          scanned m'.id) hStaged (fun m hm hNew => absurd rfl (hNew m hm)) ?_
  intro current scanned next hScanned hCurrent hStep
  cases hStored : db.storedMessage lease scanned.telegramId with
  | some existing =>
      rw [stageMessage_stored hStored] at hStep
      obtain rfl := Except.ok.inj hStep
      intro m' hm' hNew
      obtain ⟨row, hRow, rfl⟩ := mem_refreshed.mp hm'
      split at hNew
      · rename_i hSelected
        -- the refreshed row has the id of a stored one
        exact absurd (beq_iff_eq.mp hSelected).symm
          (hNew existing (storedMessage_eq_some hStored).1)
      · rename_i hOther
        rw [if_neg hOther]
        exact hCurrent row hRow hNew
  | none =>
      by_cases hSeen : scanned.telegramId ∈ current.seen
      · rw [stageMessage_repeated hStored hSeen] at hStep
        cases hStep
      · rw [stageMessage_new hStored hSeen] at hStep
        split at hStep
        · rename_i hSlug
          obtain ⟨key, hCategory⟩ := (categorizeScannedMessage_returns_iff py scanned).mpr hSlug
          obtain rfl := Except.ok.inj hStep
          intro m' hm' hNew
          rcases Database.mem_insertMessage.mp hm' with hm' | rfl
          · exact hCurrent m' hm' hNew
          · refine ⟨scanned, hScanned, key, hCategory, ?_⟩
            unfold addedRow filedUnder
            rw [hCategory]
        · cases hStep

/-- With the slugs free, new messages are filed under the built-in categories. -/
theorem filesBySystemKey_of_free (hInv : BuiltIn userId defaultKeys s)
    (hFree : SlugsFree userId s) : FilesBySystemKey py userId s := by
  intro db db' hRows lease page now fenceNow hUser h m' hm' hNew
  subst hUser
  obtain ⟨other, hRow⟩ := persistScanPage_newRows h
  obtain ⟨scanned, hScanned, key, hCategory, hAdded⟩ := hRow m' hm' hNew
  obtain ⟨c, hc, hOwner, hSystem, hMap⟩ := categoryMap_builtIn hInv hFree hRows
    (categorizeScannedMessage_key hCategory)
  rw [hMap, Option.getD_some] at hAdded
  exact ⟨scanned, hScanned, key, hCategory, c, hc, hOwner, hSystem, hAdded⟩

end Filing

/-- From the seeded categories on, the built-in categories stay in every run of requests, and
new messages are filed under them in every state as long as no request gives a custom category
a reserved name. -/
theorem filed_by_system_key (py : Runtime) (u : Unicode) (userId : UserId) (s : Organizer)
    (actions : List CategoryAction) (hNew : ∀ c ∈ s.db.categories, c.userId ≠ userId) :
    (∀ t, Visits (categoryStep u) (seedDefaultCategories u userId s) actions t →
      HasBuiltIn userId t) ∧
    ((∀ t a t', StepOf (categoryStep u) (seedDefaultCategories u userId s) actions t a t' →
        ¬ TakesSystemKey u userId t a) →
      ∀ t, Visits (categoryStep u) (seedDefaultCategories u userId s) actions t →
        FilesBySystemKey py userId t) := by
  obtain ⟨hSeeded, hFree⟩ := seedDefaultCategories_builtIn (u := u) hNew
  have hBuiltIn : ∀ t, Visits (categoryStep u) (seedDefaultCategories u userId s) actions t →
      BuiltIn userId defaultKeys t := fun t hVisit =>
    visits_induct hSeeded hVisit fun x a y hStep => categoryStep_builtIn hStep.step
  refine ⟨fun t hVisit => (hBuiltIn t hVisit).present, fun hTakes t hVisit => ?_⟩
  apply filesBySystemKey_of_free (hBuiltIn t hVisit)
  exact visits_induct hFree hVisit fun x a y hStep hx =>
    categoryStep_slugsFree hStep.step hx (hTakes x a y hStep)

/-! ### Pictures and Images -/

def plainUnicode : Unicode where
  isAlnum := Char.isAlphanum
  casefold t := t.map Char.toLower
  nfkc := id
  bracketsAccepted _ := true
  upper t := t.map Char.toUpper
  nfc := id
  nfc_nil := rfl

/-- The user 1 with a running scan, before the seed. -/
def newUser : Organizer where
  db := { runningLibrary with categories := .empty }
  tags := .empty
  nextTagId := 1
  nextCategoryId := 1
  tagIds_fresh := noTag_fresh
  categoryIds_fresh := fun c hc => by cases hc

theorem newUser_new : ∀ c ∈ newUser.db.categories, c.userId ≠ 1 := fun c hc => by cases hc

def renameImages : CategoryAction := .update 1 5 [("name", .str "Pictures".toList)]

def createImages : CategoryAction :=
  .create 1 (.str "Images".toList) (.str "image".toList) (.str "#14B8A6".toList) .none

/-- The library after these requests. -/
def filedAfter (actions : List CategoryAction) : Organizer :=
  (run (categoryStep plainUnicode) (seedDefaultCategories plainUnicode 1 newUser) actions).getD
    newUser

/-- Renaming a built-in category is harmless. -/
theorem filed_by_system_key_renamed :
    HasBuiltIn 1 (filedAfter [renameImages]) ∧
      FilesBySystemKey demoEnv.py 1 (filedAfter [renameImages]) := by
  have hVisit : Visits (categoryStep plainUnicode) (seedDefaultCategories plainUnicode 1 newUser)
      [renameImages] (filedAfter [renameImages]) := visits_end rfl
  obtain ⟨hStay, hFiled⟩ :=
    filed_by_system_key demoEnv.py plainUnicode 1 newUser [renameImages] newUser_new
  refine ⟨hStay _ hVisit, hFiled ?_ _ hVisit⟩
  intro t a t' hStep hTakes
  rcases (stepOf_cons rfl).mp hStep with ⟨-, rfl, -⟩ | hNone
  · obtain ⟨-, ⟨name, hName, hReserved⟩, -⟩ := hTakes
    obtain rfl : Value.str "Pictures".toList = name := Option.some.inj hName
    have hNot : reservedName plainUnicode (.str "Pictures".toList) = false := by decide +kernel
    rw [hNot] at hReserved
    cases hReserved
  · exact not_stepOf_nil hNone

def photoPage : ScanPage :=
  ⟨[scannedMessage 0 5 { textMessage "" with photo := some ⟨none⟩ }], false, some 5⟩

/-- Once `Images` has another name, a custom category can be called `Images`, and a photo is
filed there. -/
theorem photo_is_filed_in_custom :
    HasBuiltIn 1 (filedAfter [renameImages, createImages]) ∧
      ¬ FilesBySystemKey demoEnv.py 1 (filedAfter [renameImages, createImages]) := by
  refine ⟨?_, fun hFiles => ?_⟩
  · show ∀ key ∈ defaultKeys,
      ∃ c ∈ (filedAfter [renameImages, createImages]).db.categories.rows, _
    decide +kernel
  · have hFiled : ((persistScanPage demoEnv.py 0 0 runningLease photoPage
        (filedAfter [renameImages, createImages]).db).toOption.map fun db =>
          db.messages.rows.map Message.categoryId) = some [9] := by decide +kernel
    cases hPersisted : persistScanPage demoEnv.py 0 0 runningLease photoPage
        (filedAfter [renameImages, createImages]).db with
    | error e =>
        rw [hPersisted] at hFiled
        cases hFiled
    | ok db' =>
        rw [hPersisted] at hFiled
        have hIds : db'.messages.rows.map Message.categoryId = [9] := Option.some.inj hFiled
        obtain ⟨m', hm', hNine⟩ : ∃ m' ∈ db'.messages.rows, m'.categoryId = 9 := by
          rw [← List.mem_map, hIds]
          exact List.mem_cons_self
        have hEmpty : (filedAfter [renameImages, createImages]).db.messages.rows = [] := by
          decide +kernel
        have hNone : ∀ m ∈ (filedAfter [renameImages, createImages]).db.messages.rows,
            m.id ≠ m'.id := by simp [hEmpty]
        obtain ⟨scanned, -, key, -, c, hc, -, hSystem, hRow⟩ :=
          hFiles _ db' (List.Perm.refl _) runningLease photoPage 0 0 rfl hPersisted m' hm' hNone
        have hCustom : ∀ c ∈ (filedAfter [renameImages, createImages]).db.categories.rows,
            c.id = 9 → c.systemKey = none := by decide +kernel
        have hId : c.id = 9 := by
          rw [← hNine, hRow]
          rfl
        rw [hCustom c hc hId] at hSystem
        cases hSystem

end SavedOrganizer
