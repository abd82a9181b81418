import SavedOrganizer.Library.Checks
import SavedOrganizer.Tags.Service

/-!
# What accepted tag requests have checked

For each check of `TagService`, what holds of its arguments and its result when it does not raise.
-/

namespace SavedOrganizer

open Python

variable {u : Unicode} {userId : UserId} {s : Organizer} {spelling name key : Text}

/-- The key of a name. -/
theorem normalizeNameKey_eq_ok (h : TagService.normalizeNameKey u name = .ok key) :
    key = u.nfc (u.casefold name) ∧ key.length ≤ 100 := by
  obtain ⟨hShort, h⟩ := Checks.of_ite_error h
  obtain rfl := Except.ok.inj h
  exact ⟨rfl, Nat.le_of_not_lt hShort⟩

/-- A spelling that has a key is not blank, and its key is short. -/
theorem normalizedNames_eq_ok (h : TagService.normalizedNames u (.str spelling) = .ok (name, key)) :
    strip spelling ≠ [] ∧ name = u.nfc (strip spelling) ∧
      key = u.nfc (u.casefold (u.nfc (strip spelling))) ∧ key.length ≤ 100 := by
  unfold TagService.normalizedNames at h
  by_cases hBlank : (u.nfc (strip spelling)).isEmpty
  · simp [TagService.normalizeName, hBlank] at h
  · have hName : TagService.normalizeName u (.str spelling) = .ok (u.nfc (strip spelling)) := by
      simp [TagService.normalizeName, hBlank]
    rw [hName] at h
    obtain ⟨key', hKey, hPair⟩ := Checks.map_eq_ok h
    obtain ⟨rfl, rfl⟩ := Prod.mk.inj hPair
    refine ⟨fun hEmpty => hBlank ?_, rfl, normalizeNameKey_eq_ok hKey⟩
    rw [hEmpty, u.nfc_nil]
    rfl

theorem requireTag_eq_ok {id : Int} {tag : Tag} (h : TagService.requireTag userId s id = .ok tag) :
    tag ∈ s.tags ∧ tag.userId = userId := by
  unfold TagService.requireTag at h
  split at h
  · cases h
  · rename_i found hFound
    obtain rfl := Except.ok.inj h
    have hNamed := List.find?_some hFound
    simp only [Bool.and_eq_true, beq_iff_eq] at hNamed
    exact ⟨List.mem_of_find?_eq_some hFound, hNamed.1⟩

/-- The row of a new tag. -/
theorem checkCreateTag_eq_ok {spelled color : Value} {row : Tag}
    (h : TagService.checkCreate u userId spelled color s = .ok row) :
    row.userId = userId ∧
      TagService.normalizedNames u spelled = .ok (row.name, row.normalizedName) := by
  unfold TagService.checkCreate at h
  split at h
  · cases h
  · rename_i hNames
    split at h
    · cases h
    · obtain ⟨-, -, rfl⟩ := Checks.map_eq_ok h
      exact ⟨rfl, hNames⟩

/-- A new name of a tag is accepted like that of a new tag. -/
theorem updatedNames_eq_ok {tag : Tag} {updates : Updates} {value : Value}
    (h : TagService.updatedNames u userId tag updates s = .ok (name, key))
    (hGet : updates.get? "name" = some value) :
    TagService.normalizedNames u value = .ok (name, key) := by
  unfold TagService.updatedNames at h
  rw [hGet] at h
  dsimp only at h
  split at h
  · cases h
  · rename_i hNames
    obtain ⟨-, -, hPair⟩ := Checks.map_eq_ok h
    obtain ⟨rfl, rfl⟩ := Prod.mk.inj hPair
    exact hNames

/-- The row of an updated tag is one of the user's, with the names of the update. -/
theorem checkUpdateTag_eq_ok {id : Value} {updates : Updates} {row : Tag}
    (h : TagService.checkUpdate u userId id updates s = .ok row) :
    ∃ tag, (tag ∈ s.tags ∧ tag.userId = userId) ∧ row.id = tag.id ∧
      TagService.updatedNames u userId tag updates s = .ok (row.name, row.normalizedName) := by
  unfold TagService.checkUpdate at h
  split at h
  · cases h
  obtain ⟨-, h⟩ := Checks.of_ite_error h
  split at h
  · cases h
  split at h
  · cases h
  rename_i tag hLoaded
  split at h
  · cases h
  · rename_i hNames
    obtain ⟨color, -, rfl⟩ := Checks.map_eq_ok h
    exact ⟨tag, requireTag_eq_ok hLoaded, rfl, hNames⟩

end SavedOrganizer
