import SavedOrganizer.Categories.Filing

/-!
# Positions in the range of the column

The request schemas bound a position that is given. Without one `_resolve_position` takes the
highest position of the user plus one, which nothing bounds: a category at the last position of
the column leaves no room for the next one.

`positions_storable_iff` says for which runs of requests all positions stay in range.
-/

namespace SavedOrganizer

open Python Transition

/-! ## Requests in range -/

/-- `Field(ge=0, le=MAX_DATABASE_INTEGER, strict=True)`. -/
def admittedPosition : Value → Bool
  | .int n => 0 ≤ n && n ≤ MAX_DATABASE_INTEGER
  | _ => false

/-- The position of the request, if there is one, is in range. -/
def AdmitsPosition : CategoryAction → Prop
  | .create _ _ _ _ position => position = .none ∨ admittedPosition position = true
  | .update _ _ updates =>
      ∀ value, updates.get? "position" = some value → admittedPosition value = true
  | .delete _ _ => True

/-- The highest position of the user. -/
def highestPosition (userId : UserId) (s : Organizer) : Nat :=
  ((s.db.categories.rows.filter (·.userId == userId)).map Category.position).max?.getD 0

/-- The positions of the user's categories are in range. -/
def PositionsStorable (userId : UserId) (s : Organizer) : Prop :=
  ∀ c ∈ s.db.categories, c.userId = userId → (c.position : Int) ≤ MAX_DATABASE_INTEGER

/-- The user appends a category after the last position there is, in a request that nothing else
speaks against. -/
def AppendsAtTop (u : Unicode) (userId : UserId) (s : Organizer) : CategoryAction → Prop
  | .create owner name icon color position =>
      owner = userId ∧ position = .none ∧
        (highestPosition userId s : Int) = MAX_DATABASE_INTEGER ∧
        ∃ row, CategoryService.checkCreate u owner name icon color (.int 0) s = .ok row
  | .update _ _ _ => False
  | .delete _ _ => False

section Steps

variable {u : Unicode} {userId owner : UserId} {s s' : Organizer} {row : Category}
  {name icon color position : Value} {updates : Updates}

/-- The highest position is 0 or the position of a category. -/
theorem highestPosition_le (h : PositionsStorable userId s) :
    (highestPosition userId s : Int) ≤ MAX_DATABASE_INTEGER := by
  unfold highestPosition
  cases hMax : ((s.db.categories.rows.filter (·.userId == userId)).map Category.position).max? with
  | none => decide
  | some highest =>
      obtain ⟨c, hc, rfl⟩ := List.mem_map.mp (List.max?_eq_some_iff.mp hMax).1
      obtain ⟨hMem, hOwner⟩ := List.mem_filter.mp hc
      exact h c hMem (beq_iff_eq.mp hOwner)

/-! ## Creating -/

/-- A request without a position is one with the next position. -/
theorem checkCreate_append :
    CategoryService.checkCreate u owner name icon color .none s =
      (CategoryService.checkCreate u owner name icon color (.int 0) s).map fun row =>
        { row with position := highestPosition owner s + 1 } := by
  unfold CategoryService.checkCreate
  cases CategoryService.normalizeName u name with
  | error e => rfl
  | ok name =>
    simp only [bind, Except.bind]
    cases CategoryService.normalizeNameKey u name with
    | error e => rfl
    | ok key =>
      cases CategoryService.normalizeIcon icon with
      | error e => rfl
      | ok icon =>
        cases CategoryService.normalizeColor u color with
        | error e => rfl
        | ok color =>
          cases CategoryService.slugify u name with
          | error e => rfl
          | ok slug =>
            dsimp only
            cases CategoryService.ensureNameAvailable owner s name key none with
            | error e => rfl
            | ok _ =>
              cases CategoryService.ensureSlugAvailable owner s slug none with
              | error e => rfl
              | ok _ => rfl

theorem normalizePosition_le {value : Value} {n : Nat} (hAdmitted : admittedPosition value = true)
    (h : CategoryService.normalizePosition value = .ok n) : (n : Int) ≤ MAX_DATABASE_INTEGER := by
  cases value with
  | int m =>
      simp only [admittedPosition, Bool.and_eq_true, decide_eq_true_eq] at hAdmitted
      have hNot : ¬ m < 0 := by omega
      rw [CategoryService.normalizePosition, if_neg hNot] at h
      obtain rfl := Except.ok.inj h
      rw [Int.toNat_of_nonneg hAdmitted.1]
      exact hAdmitted.2
  | none => cases hAdmitted
  | bool b => cases hAdmitted
  | str t => cases hAdmitted
  | other => cases hAdmitted

/-- Where there is room, or a position is given, the new category is in range. -/
theorem create_storable (hInv : PositionsStorable userId s)
    (hAdmitted : AdmitsPosition (.create owner name icon color position))
    (hRoom : ¬ AppendsAtTop u userId s (.create owner name icon color position)) :
    PositionsStorable userId (CategoryService.createCategory u owner name icon color position s).2 := by
  unfold CategoryService.createCategory
  cases hCheck : CategoryService.checkCreate u owner name icon color position s with
  | error e => exact hInv
  | ok row =>
      obtain ⟨hRow, -, hPosition, -⟩ := checkCreate_eq_ok hCheck
      intro c hc hOwner
      rcases s.mem_insertCategory.mp hc with hc | rfl
      · exact hInv c hc hOwner
      · rcases hAdmitted with rfl | hAdmitted
        · obtain rfl : owner = userId := hRow.symm.trans hOwner
          have hNext : row.position = highestPosition owner s + 1 := (Except.ok.inj hPosition).symm
          have hHighest := highestPosition_le hInv
          rw [checkCreate_append] at hCheck
          obtain ⟨row', hOther, -⟩ := Checks.map_eq_ok hCheck
          have hNot : (highestPosition owner s : Int) ≠ MAX_DATABASE_INTEGER :=
            fun hTop => hRoom ⟨rfl, rfl, hTop, row', hOther⟩
          show (row.position : Int) ≤ MAX_DATABASE_INTEGER
          omega
        · have hGiven : CategoryService.normalizePosition position = .ok row.position := by
            cases position with
            | int n => exact hPosition
            | none => cases hAdmitted
            | bool b => cases hAdmitted
            | str t => cases hAdmitted
            | other => cases hAdmitted
          exact normalizePosition_le hAdmitted hGiven

/-- At the top the appended category is out of range. -/
theorem create_overflows
    (h : AppendsAtTop u userId s (.create owner name icon color position)) :
    ¬ PositionsStorable userId
      (CategoryService.createCategory u owner name icon color position s).2 := by
  obtain ⟨rfl, rfl, hTop, row, hOther⟩ := h
  have hCheck : CategoryService.checkCreate u owner name icon color .none s =
      .ok { row with position := highestPosition owner s + 1 } := by
    rw [checkCreate_append, hOther]
    rfl
  have hRow : row.userId = owner := (checkCreate_eq_ok hOther).1
  intro hStorable
  unfold CategoryService.createCategory at hStorable
  rw [hCheck] at hStorable
  have hLast := hStorable _ (s.mem_insertCategory.mpr (Or.inr rfl)) hRow
  rw [← hTop] at hLast
  exact Nat.not_succ_le_self _ (Int.ofNat_le.mp hLast)

/-! ## Updating -/

theorem withName_position {c c' : Category}
    (h : CategoryService.withName u owner updates s c = .ok c') : c'.position = c.position := by
  rcases withName_eq_ok h with ⟨-, rfl⟩ | ⟨value, name, key, slug, -, -, rfl⟩
  · rfl
  · rfl

theorem withPosition_le {c c' : Category} (h : CategoryService.withPosition updates c = .ok c')
    (hAdmitted : ∀ value, updates.get? "position" = some value → admittedPosition value = true)
    (hOld : (c.position : Int) ≤ MAX_DATABASE_INTEGER) :
    (c'.position : Int) ≤ MAX_DATABASE_INTEGER := by
  obtain ⟨position, rfl, ⟨-, rfl⟩ | ⟨value, hGet, hPosition⟩⟩ := withPosition_eq_ok h
  · exact hOld
  · exact normalizePosition_le (hAdmitted value hGet) hPosition

/-- What an update writes is in range if the stored position and a given one are. -/
theorem checkUpdate_position {id : Int} (h : CategoryService.checkUpdate u owner id updates s = .ok row)
    (hAdmitted : ∀ value, updates.get? "position" = some value → admittedPosition value = true)
    (hInv : PositionsStorable userId s) :
    row.userId = userId → (row.position : Int) ≤ MAX_DATABASE_INTEGER := by
  obtain ⟨c, hc, hLoaded, named, icon, color, hName, hRow⟩ := checkUpdate_eq_ok h
  intro hOwner
  refine withPosition_le hRow hAdmitted ?_
  obtain ⟨position, rfl, -⟩ := withPosition_eq_ok hRow
  show (named.position : Int) ≤ MAX_DATABASE_INTEGER
  rw [withName_position hName]
  exact hInv c hc ((renames_withName hName).userId.symm.trans hOwner)

theorem update_storable {id : Int} (hInv : PositionsStorable userId s)
    (hAdmitted : AdmitsPosition (.update owner id updates)) :
    PositionsStorable userId (CategoryService.updateCategory u owner id updates s).2 := by
  unfold CategoryService.updateCategory
  cases hCheck : CategoryService.checkUpdate u owner id updates s with
  | error e =>
      rw [Organizer.transaction_error hCheck]
      exact hInv
  | ok row =>
      rw [Organizer.transaction_ok hCheck]
      obtain ⟨loaded, hLoaded, hOwner, hRenames⟩ := renames_checkUpdate hCheck
      intro c' hc' hUser
      obtain ⟨c, hc, rfl⟩ := s.mem_updateCategories.mp hc'
      split at hUser
      · rename_i hSelected
        obtain rfl : c = loaded :=
          Table.eq_of_key hc hLoaded ((beq_iff_eq.mp hSelected).trans hRenames.id)
        rw [if_pos hSelected]
        have hRow := checkUpdate_position hCheck hAdmitted hInv (hRenames.userId.trans hUser)
        exact hRow
      · rename_i hOther
        rw [if_neg hOther]
        exact hInv c hc hUser

/-! ## One request -/

/-- A request in range keeps the positions in range exactly when it does not append at the
top. -/
theorem categoryStep_storable_iff {a : CategoryAction} (hInv : PositionsStorable userId s)
    (hAdmitted : AdmitsPosition a) (h : categoryStep u s a = some s') :
    PositionsStorable userId s' ↔ ¬ AppendsAtTop u userId s a := by
  cases a with
  | create owner name icon color position =>
      obtain rfl := Option.some.inj h
      exact ⟨fun hStorable hTop => create_overflows hTop hStorable,
        create_storable hInv hAdmitted⟩
  | update owner id updates =>
      obtain rfl := Option.some.inj h
      exact iff_of_true (update_storable hInv hAdmitted) fun hTop => hTop
  | delete owner id =>
      obtain rfl := Option.some.inj h
      refine iff_of_true ?_ fun hTop => hTop
      unfold CategoryService.deleteCategory
      cases hCheck : CategoryService.checkDelete owner id s with
      | error e =>
          rw [Organizer.transaction_error hCheck]
          exact hInv
      | ok plan =>
          rw [Organizer.transaction_ok hCheck]
          exact fun c hc => hInv c (Organizer.mem_deleteCategories _ |>.mp hc).1

/-! ## The seed -/

theorem storable_seed {seeds : List DefaultCategorySeed} (hInv : PositionsStorable userId s)
    (hSeeds : ∀ seed ∈ seeds, (seed.position : Int) ≤ MAX_DATABASE_INTEGER) :
    PositionsStorable userId
      (seeds.foldl (fun s seed => s.insertCategory (seed.category u owner)) s) := by
  induction seeds generalizing s with
  | nil => exact hInv
  | cons seed rest ih =>
      rw [List.foldl_cons]
      refine ih ?_ fun other hOther => hSeeds other (List.mem_cons_of_mem _ hOther)
      intro c hc hOwner
      rcases s.mem_insertCategory.mp hc with hc | rfl
      · exact hInv c hc hOwner
      · exact hSeeds seed List.mem_cons_self

theorem seedDefaultCategories_storable (hInv : PositionsStorable userId s) :
    PositionsStorable userId (seedDefaultCategories u owner s) := by
  have hAll : ∀ seed ∈ DEFAULT_CATEGORIES, (seed.position : Int) ≤ MAX_DATABASE_INTEGER := by decide
  exact storable_seed hInv fun seed hSeed => hAll seed (List.mem_filter.mp hSeed).1

end Steps

/-! ## Runs -/

/-- From the seeded categories on, the positions of a user stay in range through a run of requests
exactly when none of them appends a category at the top. -/
theorem positions_storable_iff (u : Unicode) (userId : UserId) (s : Organizer)
    (actions : List CategoryAction) (hNew : ∀ c ∈ s.db.categories, c.userId ≠ userId)
    (hAdmitted : ∀ a ∈ actions, AdmitsPosition a) :
    (∀ t, Visits (categoryStep u) (seedDefaultCategories u userId s) actions t →
        PositionsStorable userId t) ↔
      ∀ t a t', StepOf (categoryStep u) (seedDefaultCategories u userId s) actions t a t' →
        ¬ AppendsAtTop u userId t a := by
  constructor
  · intro hStorable t a t' hStep
    exact (categoryStep_storable_iff (hStorable t hStep.before) (hAdmitted a hStep.mem)
      hStep.step).mp (hStorable t' hStep.after)
  · intro hRoom t hVisit
    have hSeeded : PositionsStorable userId (seedDefaultCategories u userId s) :=
      seedDefaultCategories_storable fun c hc hOwner => absurd hOwner (hNew c hc)
    refine visits_induct hSeeded hVisit fun x a y hStep hx => ?_
    exact (categoryStep_storable_iff hx (hAdmitted a hStep.mem) hStep.step).mpr
      (hRoom x a y hStep)

/-! ### The last position -/

def createArchive : CategoryAction :=
  .create 1 (.str "Archive".toList) (.str "archive".toList) (.str "#14B8A6".toList)
    (.int MAX_DATABASE_INTEGER)

def appendLater : CategoryAction :=
  .create 1 (.str "Later".toList) (.str "clock".toList) (.str "#14B8A6".toList) .none

theorem positions_storable_later : PositionsStorable 1 (filedAfter [appendLater]) := by
  refine (positions_storable_iff plainUnicode 1 newUser [appendLater] newUser_new ?_).mpr ?_ _
    (visits_end rfl)
  · intro a ha
    rw [List.mem_singleton.mp ha]
    exact Or.inl rfl
  · intro t a t' hStep hTop
    rcases (stepOf_cons rfl).mp hStep with ⟨rfl, rfl, -⟩ | hNone
    · obtain ⟨-, -, hHighest, -⟩ := hTop
      revert hHighest
      decide +kernel
    · exact not_stepOf_nil hNone

/-- After a category at the last position, an appended one is out of range. -/
theorem position_overflows :
    (∀ a ∈ [createArchive, appendLater], AdmitsPosition a) ∧
      Visits (categoryStep plainUnicode) (seedDefaultCategories plainUnicode 1 newUser)
        [createArchive, appendLater] (filedAfter [createArchive, appendLater]) ∧
      ¬ PositionsStorable 1 (filedAfter [createArchive, appendLater]) := by
  refine ⟨?_, visits_end rfl, fun hStorable => ?_⟩
  · intro a ha
    rcases List.mem_pair.mp ha with rfl | rfl
    · exact Or.inr rfl
    · exact Or.inl rfl
  · have hLast : ∃ c ∈ (filedAfter [createArchive, appendLater]).db.categories.rows,
        c.userId = 1 ∧ c.position = 2 ^ 31 := by decide +kernel
    obtain ⟨c, hc, hOwner, hPosition⟩ := hLast
    have hRange := hStorable c hc hOwner
    rw [hPosition] at hRange
    exact absurd hRange (by decide)

end SavedOrganizer
