import SavedOrganizer.Categories.Service
import SavedOrganizer.Library.Checks

/-!
# What accepted category requests have checked

For each check of `CategoryService`, what holds of its arguments and its result when it does not
raise; and for each request, the row it writes.
-/

namespace SavedOrganizer

open Python

variable {u : Unicode} {owner : UserId} {s : Organizer} {row : Category} {name key slug : Text}

/-! ## Names -/

theorem normalizeName_eq_ok {value : Value} (h : CategoryService.normalizeName u value = .ok name) :
    ∃ text, value = .str text ∧ strip text ≠ [] ∧ name = u.nfc (strip text) := by
  obtain ⟨stripped, hStripped, rfl⟩ := Checks.map_eq_ok h
  cases value with
  | str text =>
      obtain ⟨hBlank, hText⟩ := Checks.of_ite_error hStripped
      obtain rfl := Except.ok.inj hText
      exact ⟨text, rfl, fun hNil => hBlank (List.isEmpty_iff.mpr hNil), rfl⟩
  | none => cases hStripped
  | bool b => cases hStripped
  | int n => cases hStripped
  | other => cases hStripped

theorem categoryNameKey_eq_ok (h : CategoryService.normalizeNameKey u name = .ok key) :
    key = u.nfc (u.casefold name) ∧ key.length ≤ 100 := by
  obtain ⟨hShort, h⟩ := Checks.of_ite_error h
  obtain rfl := Except.ok.inj h
  exact ⟨rfl, Nat.le_of_not_lt hShort⟩

theorem slugify_eq_ok (h : CategoryService.slugify u name = .ok slug) :
    slug = CategoryService.slugOf u name ∧ slug ≠ [] := by
  obtain ⟨hEmpty, h⟩ := Checks.of_ite_error h
  obtain rfl := Except.ok.inj h
  exact ⟨rfl, fun hNil => hEmpty (List.isEmpty_iff.mpr hNil)⟩

/-- The texts of a category that is called `value`. -/
structure Names (u : Unicode) (value : Value) (name key slug : Text) : Prop where
  normalized : CategoryService.normalizeName u value = .ok name
  keyed : CategoryService.normalizeNameKey u name = .ok key
  slugified : CategoryService.slugify u name = .ok slug

/-! ## Creating -/

/-- The row of a new category. -/
theorem checkCreate_eq_ok {value icon color position : Value}
    (h : CategoryService.checkCreate u owner value icon color position s = .ok row) :
    row.userId = owner ∧ row.systemKey = none ∧
      CategoryService.resolvePosition owner s position = .ok row.position ∧
      ∃ name key slug, Names u value name key slug ∧ row.name = String.ofList name ∧
        row.normalizedName = String.ofList key ∧ row.slug = String.ofList slug := by
  unfold CategoryService.checkCreate at h
  obtain ⟨name, hName, h⟩ := Checks.bind_eq_ok h
  obtain ⟨key, hKey, h⟩ := Checks.bind_eq_ok h
  obtain ⟨icon', -, h⟩ := Checks.bind_eq_ok h
  obtain ⟨color', -, h⟩ := Checks.bind_eq_ok h
  obtain ⟨slug, hSlug, h⟩ := Checks.bind_eq_ok h
  obtain ⟨position', hPosition, h⟩ := Checks.bind_eq_ok h
  obtain ⟨-, -, h⟩ := Checks.bind_eq_ok h
  obtain ⟨-, -, h⟩ := Checks.bind_eq_ok h
  obtain rfl := Except.ok.inj h
  exact ⟨rfl, rfl, hPosition, name, key, slug, ⟨hName, hKey, hSlug⟩, rfl, rfl, rfl⟩

/-! ## Updating -/

variable {updates : Updates} {c c' : Category}

/-- Without a name the category stays as it is, and with one only its texts change. -/
theorem withName_eq_ok (h : CategoryService.withName u owner updates s c = .ok c') :
    (updates.get? "name" = none ∧ c' = c) ∨
      ∃ value name key slug, updates.get? "name" = some value ∧ Names u value name key slug ∧
        c' = { c with
          name := String.ofList name
          normalizedName := String.ofList key
          slug := String.ofList slug } := by
  unfold CategoryService.withName at h
  cases hGet : updates.get? "name" with
  | none =>
      rw [hGet] at h
      exact Or.inl ⟨rfl, (Except.ok.inj h).symm⟩
  | some value =>
      rw [hGet] at h
      obtain ⟨name, hName, h⟩ := Checks.bind_eq_ok h
      obtain ⟨key, hKey, h⟩ := Checks.bind_eq_ok h
      obtain ⟨slug, hSlug, h⟩ := Checks.bind_eq_ok h
      obtain ⟨-, -, h⟩ := Checks.bind_eq_ok h
      obtain ⟨-, -, h⟩ := Checks.bind_eq_ok h
      exact Or.inr ⟨value, name, key, slug, rfl, ⟨hName, hKey, hSlug⟩, (Except.ok.inj h).symm⟩

theorem withIcon_eq_ok (h : CategoryService.withIcon updates c = .ok c') :
    ∃ icon, c' = { c with icon := icon } := by
  unfold CategoryService.withIcon at h
  split at h
  · obtain rfl := Except.ok.inj h
    exact ⟨c.icon, rfl⟩
  · obtain ⟨icon, -, rfl⟩ := Checks.map_eq_ok h
    exact ⟨_, rfl⟩

theorem withColor_eq_ok (h : CategoryService.withColor u updates c = .ok c') :
    ∃ color, c' = { c with color := color } := by
  unfold CategoryService.withColor at h
  split at h
  · obtain rfl := Except.ok.inj h
    exact ⟨c.color, rfl⟩
  · obtain ⟨color, -, rfl⟩ := Checks.map_eq_ok h
    exact ⟨_, rfl⟩

/-- A position of the update is one that is accepted. -/
theorem withPosition_eq_ok (h : CategoryService.withPosition updates c = .ok c') :
    ∃ position, c' = { c with position := position } ∧
      ((updates.get? "position" = none ∧ position = c.position) ∨
        ∃ value, updates.get? "position" = some value ∧
          CategoryService.normalizePosition value = .ok position) := by
  unfold CategoryService.withPosition at h
  cases hGet : updates.get? "position" with
  | none =>
      rw [hGet] at h
      obtain rfl := Except.ok.inj h
      exact ⟨c.position, rfl, Or.inl ⟨rfl, rfl⟩⟩
  | some value =>
      rw [hGet] at h
      obtain ⟨position, hPosition, rfl⟩ := Checks.map_eq_ok h
      exact ⟨position, rfl, Or.inr ⟨value, rfl, hPosition⟩⟩

theorem requireCategory_eq_ok {id : Int} (h : CategoryService.requireCategory owner s id = .ok row) :
    row ∈ s.db.categories ∧ row.userId = owner := by
  unfold CategoryService.requireCategory at h
  cases hLoaded : CategoryService.loadCategory owner s id with
  | none =>
      rw [hLoaded] at h
      cases h
  | some c =>
      rw [hLoaded] at h
      obtain rfl := Except.ok.inj h
      have hFound := List.find?_some hLoaded
      rw [Bool.and_eq_true, beq_iff_eq] at hFound
      exact ⟨List.mem_of_find?_eq_some hLoaded, hFound.1⟩

/-- The row of an updated category: one of the user's with its new name, and then the other
fields. -/
theorem checkUpdate_eq_ok {id : Int}
    (h : CategoryService.checkUpdate u owner id updates s = .ok row) :
    ∃ c ∈ s.db.categories, c.userId = owner ∧
      ∃ named icon color, CategoryService.withName u owner updates s c = .ok named ∧
        CategoryService.withPosition updates { named with icon := icon, color := color } =
          .ok row := by
  obtain ⟨-, h⟩ := Checks.of_ite_error h
  obtain ⟨c, hLoaded, h⟩ := Checks.bind_eq_ok h
  obtain ⟨hc, hOwner⟩ := requireCategory_eq_ok hLoaded
  refine ⟨c, hc, hOwner, ?_⟩
  split at h
  · cases h
  · obtain ⟨named, hName, h⟩ := Checks.bind_eq_ok h
    obtain ⟨c₂, hIcon, h⟩ := Checks.bind_eq_ok h
    obtain ⟨c₃, hColor, h⟩ := Checks.bind_eq_ok h
    obtain ⟨icon, rfl⟩ := withIcon_eq_ok hIcon
    obtain ⟨color, rfl⟩ := withColor_eq_ok hColor
    exact ⟨named, icon, color, hName, h⟩

/-! ## Deleting -/

/-- Only a custom category of the user is deleted. -/
theorem checkDelete_eq_ok {id : Int} {plan : Category × Category × Nat}
    (h : CategoryService.checkDelete owner id s = .ok plan) :
    plan.1 ∈ s.db.categories ∧ plan.1.userId = owner ∧ plan.1.systemKey = none := by
  unfold CategoryService.checkDelete at h
  obtain ⟨c, hLoaded, h⟩ := Checks.bind_eq_ok h
  obtain ⟨hc, hOwner⟩ := requireCategory_eq_ok hLoaded
  dsimp only at h
  split at h
  · cases h
  · rename_i hCustom
    split at h
    · cases h
    · obtain rfl := Except.ok.inj h
      rw [Bool.or_eq_true, not_or, Bool.not_eq_true, Bool.not_eq_true, Option.isSome_eq_false_iff,
        Option.isNone_iff_eq_none] at hCustom
      exact ⟨hc, hOwner, hCustom.2⟩

end SavedOrganizer
