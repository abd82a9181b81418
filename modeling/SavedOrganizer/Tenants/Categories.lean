import SavedOrganizer.Categories.Filing
import SavedOrganizer.Tenants.Rows

/-!
# The category service is isolated

`create_category` is not in the list: the category it returns has a fresh id.
-/

namespace SavedOrganizer

open Organizer

section Reading

variable {userId : UserId} {s s' : Organizer}

/-! ## What the service reads -/

theorem decides_byPosition : CategoryService.byPosition.Decides := by
  refine SortKey.Decides.thenBy (fun c c' hLe hGe => ?_) _
  exact Nat.le_antisymm (of_decide_eq_true hLe) (of_decide_eq_true hGe)

/-- The greatest of some numbers does not depend on their order. -/
theorem max?_perm {ns ns' : List Nat} (h : ns.Perm ns') : ns.max? = ns'.max? := by
  apply Option.ext
  intro n
  rw [List.max?_eq_some_iff, List.max?_eq_some_iff, h.mem_iff]
  simp only [h.mem_iff]

theorem confinedTo_ofUser : ConfinedTo userId fun c : Category => c.userId == userId :=
  fun _ hc => beq_iff_eq.mp hc

section Agree

variable (h : AgreeFor userId s s')

include h

theorem requireCategory_congr (id : Int) :
    CategoryService.requireCategory userId s id = CategoryService.requireCategory userId s' id := by
  have hLoad : CategoryService.loadCategory userId s id = CategoryService.loadCategory userId s' id := by
    refine h.categories.find (fun c hc => ?_) fun c c' hc hc' => ?_
    · simp only [Bool.and_eq_true, beq_iff_eq] at hc
      exact hc.1
    · simp only [Bool.and_eq_true, beq_iff_eq] at hc hc'
      exact Int.ofNat_inj.mp (hc.2.trans hc'.2.symm)
  unfold CategoryService.requireCategory
  rw [hLoad]

/-- The fallback category is the one with the system key `other`. -/
theorem loadFallbackCategory_congr (hUnique : s.SystemKeysUnique) (excluded : CategoryId) :
    CategoryService.loadFallbackCategory userId s excluded =
      CategoryService.loadFallbackCategory userId s' excluded := by
  refine h.categories.find_one (fun c hc => ?_) fun c hMem c' hMem' hc hc' => ?_
  · simp only [Bool.and_eq_true, beq_iff_eq] at hc
    exact hc.1.1
  · simp only [Bool.and_eq_true, beq_iff_eq] at hc hc'
    refine hUnique c hMem c' hMem' (hc.1.1.trans hc'.1.1.symm) ?_ (hc.1.2.trans hc'.1.2.symm)
    simp [hc.1.2]

theorem taken_congr (column : Category → String) (value : Text) (excluded : Option CategoryId) :
    CategoryService.taken userId s column value excluded =
      CategoryService.taken userId s' column value excluded := by
  refine h.categories.any fun c hc => ?_
  simp only [Bool.and_eq_true, beq_iff_eq] at hc
  exact hc.1.1

theorem resolvePosition_congr (position : Value) :
    CategoryService.resolvePosition userId s position =
      CategoryService.resolvePosition userId s' position := by
  cases position with
  | none =>
      have hRows := Table.filter_perm (h.categories.selected confinedTo_ofUser)
      simp only [CategoryService.resolvePosition, max?_perm (hRows.map Category.position)]
  | _ => rfl

theorem listCategories_congr :
    CategoryService.listCategories userId s = CategoryService.listCategories userId s' := by
  unfold CategoryService.listCategories
  rw [h.categories.select confinedTo_ofUser decides_byPosition]
  refine List.map_congr_left fun c _ => ?_
  rw [h.messages.count]
  intro m hm
  exact beq_iff_eq.mp (Bool.and_eq_true_iff.mp hm).1

/-! ## Categories -/

theorem checkCreateCategory_congr (u : Unicode) (name icon color position : Value) :
    CategoryService.checkCreate u userId name icon color position s =
      CategoryService.checkCreate u userId name icon color position s' := by
  unfold CategoryService.checkCreate CategoryService.ensureNameAvailable
    CategoryService.ensureSlugAvailable
  simp only [taken_congr h, resolvePosition_congr h]

theorem checkUpdateCategory_congr (u : Unicode) (id : Int) (updates : Updates) :
    CategoryService.checkUpdate u userId id updates s =
      CategoryService.checkUpdate u userId id updates s' := by
  unfold CategoryService.checkUpdate CategoryService.withName CategoryService.ensureNameAvailable
    CategoryService.ensureSlugAvailable
  simp only [requireCategory_congr h, taken_congr h]

theorem checkDeleteCategory_congr (hUnique : s.SystemKeysUnique) (id : Int) :
    CategoryService.checkDelete userId id s = CategoryService.checkDelete userId id s' := by
  have hCount (id : CategoryId) :
      s.db.messages.count (fun m => m.userId == userId && m.categoryId == id) =
        s'.db.messages.count fun m => m.userId == userId && m.categoryId == id := by
    refine h.messages.count fun m hm => ?_
    exact beq_iff_eq.mp (Bool.and_eq_true_iff.mp hm).1
  unfold CategoryService.checkDelete
  simp only [requireCategory_congr h, loadFallbackCategory_congr h hUnique, hCount]

end Agree

/-- A row with the id of a category of the user is that category. -/
theorem owner_of_category {category c : Category}
    (hCategory : category ∈ s.db.categories ∧ category.userId = userId)
    (hc : c ∈ s.db.categories) (hId : (c.id == category.id) = true) : c.userId = userId := by
  rw [Table.eq_of_key hc hCategory.1 (beq_iff_eq.mp hId)]
  exact hCategory.2

theorem updateCategory_isolated (u : Unicode) (id : Int) (updates : Updates) :
    Isolated userId (CategoryService.updateCategory u userId id updates) := by
  refine isolated_transaction (fun s s' _ h => checkUpdateCategory_congr h u id updates)
    (fun s s' row _ h => ⟨h.updateCategories fun _ => rfl, rfl⟩) fun s row hCheck => ?_
  obtain ⟨loaded, hLoaded, hOwner, hRenames⟩ := renames_checkUpdate hCheck
  refine keepsTo_updateCategories
    (fun c hc hRow => owner_of_category ⟨hLoaded, hOwner⟩ hc ?_) fun _ => rfl
  rwa [hRenames.id] at hRow

theorem deleteCategory_isolated (id : Int) :
    Isolated userId (CategoryService.deleteCategory userId id) := by
  refine isolated_transaction (fun s s' hUnique h => checkDeleteCategory_congr h hUnique id)
    (fun s s' plan _ h => ⟨?_, rfl⟩) fun s plan hCheck => ?_
  · have hMoved : AgreeFor userId
        (s.updateMessages (fun m => m.userId == userId && m.categoryId == plan.1.id)
          fun m => { m with categoryId := plan.2.1.id })
        (s'.updateMessages (fun m => m.userId == userId && m.categoryId == plan.1.id)
          fun m => { m with categoryId := plan.2.1.id }) :=
      h.updateMessages fun _ => rfl
    exact hMoved.deleteCategories
  · obtain ⟨hLoaded, hOwner, -⟩ := checkDelete_eq_ok hCheck
    have hMoved : KeepsTo userId s
        (s.updateMessages (fun m => m.userId == userId && m.categoryId == plan.1.id)
          fun m => { m with categoryId := plan.2.1.id }) :=
      keepsTo_updateMessages (fun m _ hm => beq_iff_eq.mp (Bool.and_eq_true_iff.mp hm).1)
        fun _ => rfl
    exact hMoved.trans
      (keepsTo_deleteCategories fun c hc hId => owner_of_category ⟨hLoaded, hOwner⟩ hc hId)

end Reading

end SavedOrganizer
