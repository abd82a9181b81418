import Mathlib.Data.List.DropRight
import Mathlib.Data.List.TakeWhile
import SavedOrganizer.Frontend.MessageDrag
import SavedOrganizer.Library.SearchParams
import SavedOrganizer.Messages.Deletion

/-!
# The filters of the message page

`MessagesPage` keeps its filters, its order and its page in the query of its URL. Each render reads
them again, whatever the URL holds, and every control rewrites the part that is its own and goes
back to the first page.

`MessageFilters` is what a render reads. Any sequence of controls does to it what the controls say
(`controls_refine`): the URL is an implementation of the filters. `toLowerCase` is left open, as it
depends on the tables of Unicode.
-/

namespace SavedOrganizer.Frontend.Messages

open SearchParams

/-- The parameters of a URL, which hold no lone surrogates. -/
abbrev UrlSearchParams := List (Text × Text)

/-! ## Strings -/

/-- White space, as `trim` removes it. -/
def isSpaceChar (c : Char) : Bool := c.toNat < 0x10000 && isSpace (unit c)

/-- `value.trim()`. -/
def trim (t : Text) : Text := (t.dropWhile isSpaceChar).rdropWhile isSpaceChar

/-- `value.length`. -/
def length (t : Text) : Nat := (utf16 t).length

/-- `String(n)`. -/
def numeral (n : Int) : Text := (toString n).toList

/-- What is used of `toLowerCase`: it is done once, and brings no white space to the ends. -/
structure LowersCase (lower : Text → Text) : Prop where
  again : ∀ t, lower (lower t) = lower t
  trimmed : ∀ t, trim (lower (trim t)) = lower (trim t)
  nil_iff : ∀ t, lower t = [] ↔ t = []

/-! ## Reading the URL -/

def sortOptions : List Text :=
  ["date_desc".toList, "date_asc".toList, "category".toList, "sender".toList]

def messageKindOptions : List Text :=
  ["mixed".toList, "image".toList, "video".toList, "audio".toList, "document".toList, "link".toList,
    "text".toList, "other".toList]

def DEFAULT_SORT_OPTION : Text := "date_desc".toList
def DEFAULT_ITEMS_PER_PAGE : Int := 60
def MAX_PAGE : Int := 1000000
def MAX_SEARCH_LENGTH : Nat := 500
def MAX_TAG_FILTERS : Nat := 20
def MAX_TAG_NAME_LENGTH : Nat := 100
def itemsPerPageOptions : List Int := [30, 60, 120, 200]

/-- `/^\d+$/`, and the number it parses to. -/
def readDigits (value : Option Text) : Option Number :=
  value.bind fun t =>
    if !t.isEmpty && (utf16 t).all isDigit then some (parseInt (utf16 t)) else none

def readPageNumber (value : Option Text) : Int :=
  match readDigits value with
  | some (.integer parsed) =>
      if 0 < parsed ∧ parsed ≤ MAX_PAGE ∧ parsed < 2 ^ 53 then parsed else 1
  | _ => 1

def readItemsPerPage (value : Option Text) : Int :=
  match readDigits value with
  | some (.integer parsed) =>
      if parsed ∈ itemsPerPageOptions then parsed else DEFAULT_ITEMS_PER_PAGE
  | _ => DEFAULT_ITEMS_PER_PAGE

def readSearchQuery (value : Option Text) : Text :=
  let normalized := (value.map trim).getD []
  if length normalized ≤ MAX_SEARCH_LENGTH then normalized else []

section Reading

variable (lower : Text → Text)

def normalizeTagKey (name : Text) : Text := lower (trim name)

def tagFits (tag : Text) : Bool := 0 < length tag && length tag ≤ MAX_TAG_NAME_LENGTH

def selectedTagFilters (params : UrlSearchParams) : List Text :=
  ((((getAll "tag".toList params).map (normalizeTagKey lower)).filter tagFits).eraseDups).take
    MAX_TAG_FILTERS

/-- What a render of `MessagesPage` reads. -/
structure MessageFilters where
  page : Int
  perPage : Int
  sort : Text
  category : Text
  /-- `urlSearchQuery`. -/
  search : Text
  tags : List Text
  kind : Option Text
  deriving DecidableEq, Repr

def readFilters (params : UrlSearchParams) : MessageFilters where
  page := readPageNumber (first "page".toList params)
  perPage := readItemsPerPage (first "per_page".toList params)
  sort := ((first "sort".toList params).filter fun value => decide (value ∈ sortOptions)).getD
    DEFAULT_SORT_OPTION
  category := ((first "category".toList params).map fun value => lower (trim value)).getD []
  search := readSearchQuery (first "q".toList params)
  tags := selectedTagFilters lower params
  kind := (first "kind".toList params).filter fun value => decide (value ∈ messageKindOptions)

end Reading

/-! ## The controls -/

inductive Control
  /-- `goToPage`, with the number of pages; also when the page is behind the last one. -/
  | goToPage (page totalPages : Int) (hPages : totalPages < 2 ^ 53)
  | setCategory (category : Text)
  /-- `toggleTagFilter` of a tag with this name. -/
  | toggleTag (name : Text)
  | setSort (sort : Text) (hSort : sort ∈ sortOptions)
  | setKind (kind : Option Text) (hKind : ∀ k ∈ kind, k ∈ messageKindOptions)
  | setItemsPerPage (n : Int) (hItems : n ∈ itemsPerPageOptions)
  /-- The text of the search field, some time after it was typed. -/
  | search (text : Text)
  | clearFilters

def toFirstPage (params : UrlSearchParams) : UrlSearchParams := delete "page".toList params

/-- A value is set, unless it is the default one. -/
def setUnless (isDefault : Bool) (name value : Text) (params : UrlSearchParams) : UrlSearchParams :=
  if isDefault then delete name params else set name value params

/-- `clamped`. -/
def clampPage (page totalPages : Int) : Int := max 1 (min page totalPages)

/-- `nextTags`. -/
def toggled (key : Text) (tags : List Text) : List Text :=
  if key ∈ tags then tags.filter (· ≠ key) else tags ++ [key]

namespace Control

variable (lower : Text → Text)

def apply (params : UrlSearchParams) : Control → UrlSearchParams
  | goToPage page totalPages _ =>
      let clamped := clampPage page totalPages
      setUnless (clamped == 1) "page".toList (numeral clamped) params
  | setCategory category =>
      toFirstPage (setUnless (lower (trim category)).isEmpty "category".toList
        (lower (trim category)) params)
  | toggleTag name =>
      toFirstPage (appendAll "tag".toList
        (toggled (normalizeTagKey lower name) (selectedTagFilters lower params))
        (delete "tag".toList params))
  | setSort sort _ => toFirstPage (setUnless (sort == DEFAULT_SORT_OPTION) "sort".toList sort params)
  | setKind kind _ => toFirstPage (setUnless kind.isNone "kind".toList (kind.getD []) params)
  | setItemsPerPage n _ =>
      toFirstPage (setUnless (n == DEFAULT_ITEMS_PER_PAGE) "per_page".toList (numeral n) params)
  | search text =>
      if lower (trim text) = lower (readSearchQuery (first "q".toList params)) then params
      else toFirstPage (setUnless (trim text).isEmpty "q".toList (trim text) params)
  | clearFilters =>
      toFirstPage (delete "sort".toList (delete "kind".toList (delete "tag".toList
        (delete "category".toList (delete "q".toList params)))))

/-- What a control means for the filters. -/
def effect (f : MessageFilters) : Control → MessageFilters
  | goToPage page totalPages _ =>
      let clamped := clampPage page totalPages
      { f with page := if clamped ≤ MAX_PAGE then clamped else 1 }
  | setCategory category => { f with page := 1, category := lower (trim category) }
  | toggleTag name =>
      let key := normalizeTagKey lower name
      { f with
        page := 1
        tags :=
          if key ∈ f.tags then f.tags.filter (· ≠ key)
          else if tagFits key ∧ f.tags.length < MAX_TAG_FILTERS then f.tags ++ [key]
          else f.tags }
  | setSort sort _ => { f with page := 1, sort := sort }
  | setKind kind _ => { f with page := 1, kind := kind }
  | setItemsPerPage n _ => { f with page := 1, perPage := n }
  | search text =>
      if lower (trim text) = lower f.search then f
      else { f with page := 1, search := readSearchQuery (some text) }
  | clearFilters =>
      { f with
        page := 1, sort := DEFAULT_SORT_OPTION, category := [], search := [], tags := [], kind := none }

end Control

/-! ## Strings that are read back -/

section Strings

variable {lower : Text → Text} {t : Text} {n : Int}

/-- The front of a text without white space before it has none before it. -/
theorem dropWhile_of_prefix {front : Text} {p : Char → Bool} (hFront : front <+: t)
    (ht : t.dropWhile p = t) : front.dropWhile p = front := by
  obtain ⟨rest, rfl⟩ := hFront
  cases front with
  | nil => rfl
  | cons c front =>
      refine List.dropWhile_cons_of_neg fun hc => ?_
      have hNot := List.dropWhile_eq_self_iff.mp ht (Nat.succ_pos _)
      exact hNot hc

theorem trim_trim (t : Text) : trim (trim t) = trim t := by
  have hFront : (trim t).dropWhile isSpaceChar = trim t :=
    dropWhile_of_prefix (t := t.dropWhile isSpaceChar) (List.rdropWhile_prefix _ _)
      (List.dropWhile_idempotent _ _)
  rw [trim, hFront]
  exact List.rdropWhile_idempotent _ _

theorem LowersCase.key (hLower : LowersCase lower) (name : Text) :
    normalizeTagKey lower (normalizeTagKey lower name) = normalizeTagKey lower name := by
  rw [normalizeTagKey, normalizeTagKey, hLower.trimmed, hLower.again]

theorem utf16_ascii (h : ∀ c ∈ t, c.toNat < 0x10000) : utf16 t = t.map unit := by
  induction t with
  | nil => rfl
  | cons c t ih =>
      rw [utf16, List.flatMap_cons, codeUnits, if_pos (h c List.mem_cons_self), List.map_cons,
        List.singleton_append]
      exact congrArg (unit c :: ·) (ih fun d hd => h d (List.mem_cons_of_mem _ hd))

theorem numeral_ofNat (n : Nat) : numeral n = Nat.toDigits 10 n := by
  show (Nat.repr n).toList = _
  rw [Nat.repr_eq_ofList_toDigits, String.toList_ofList]

theorem utf16_numeral (n : Nat) : utf16 (numeral n) = decimal n := by
  rw [numeral_ofNat]
  refine utf16_ascii fun c hc => ?_
  have hDigit : c.isDigit = true := Nat.isDigit_of_mem_toDigits (by decide) (by decide) hc
  have hBound := (Char.isDigit_iff_toNat.mp hDigit).2
  exact Nat.lt_of_le_of_lt hBound (by decide)

/-- A number that is written is the one that is read. -/
theorem readDigits_numeral {n : Nat} (h : n < 2 ^ 53) :
    readDigits (some (numeral n)) = some (.integer n) := by
  have hDigits := decimal_isDigit n
  have hFilled : decimal n ≠ [] := by
    intro hNil
    obtain ⟨u, -, -, hDecimal⟩ := decimal_cases n
    exact List.append_ne_nil_of_right_ne_nil _ (List.cons_ne_nil u []) (hDecimal.symm.trans hNil)
  have hNumeral : numeral n ≠ [] := by
    rintro hNil
    exact hFilled ((utf16_numeral n).symm.trans (by rw [hNil]; rfl))
  have hGuard : (!(numeral n).isEmpty && (utf16 (numeral n)).all isDigit) = true := by
    rw [utf16_numeral, Bool.and_eq_true, List.all_eq_true]
    exact ⟨by simpa using hNumeral, hDigits⟩
  rw [readDigits, Option.bind_some, if_pos hGuard, utf16_numeral, parseInt, signedDigits_digits hDigits]
  dsimp only
  rw [if_neg (by simpa using hFilled), digitsValue_decimal, toNumber_exact h]
  rfl

end Strings

/-! ## What a render can read -/

section Valid

variable {lower : Text → Text} {params : UrlSearchParams} {f : MessageFilters}

/-- The tags that the URL can hold for long. -/
structure TagsValid (lower : Text → Text) (tags : List Text) : Prop where
  keys : ∀ tag ∈ tags, normalizeTagKey lower tag = tag
  fit : ∀ tag ∈ tags, tagFits tag = true
  nodup : tags.Nodup
  count : tags.length ≤ MAX_TAG_FILTERS

/-- The ranges of what is read. -/
structure MessageFilters.Valid (lower : Text → Text) (f : MessageFilters) : Prop where
  page : 1 ≤ f.page ∧ f.page ≤ MAX_PAGE
  perPage : f.perPage ∈ itemsPerPageOptions
  sort : f.sort ∈ sortOptions
  category : lower (trim f.category) = f.category
  search : trim f.search = f.search ∧ length f.search ≤ MAX_SEARCH_LENGTH
  tags : TagsValid lower f.tags
  kind : ∀ k ∈ f.kind, k ∈ messageKindOptions

theorem eraseDups_of_nodup {tags : List Text} (h : tags.Nodup) : tags.eraseDups = tags := by
  induction tags with
  | nil => rfl
  | cons tag tags ih =>
      obtain ⟨hNew, hRest⟩ := List.nodup_cons.mp h
      have hFilter : tags.filter (fun other => !other == tag) = tags := by
        refine List.filter_eq_self.mpr fun other hOther => ?_
        simpa using fun hEq : other = tag => hNew (hEq ▸ hOther)
      rw [List.eraseDups_cons, hFilter, ih hRest]

theorem tagsValid_selected (hLower : LowersCase lower) (params : UrlSearchParams) :
    TagsValid lower (selectedTagFilters lower params) := by
  have hMem : ∀ tag ∈ selectedTagFilters lower params,
      (∃ name, normalizeTagKey lower name = tag) ∧ tagFits tag = true := by
    intro tag hTag
    have hAll := List.mem_eraseDups.mp (List.mem_of_mem_take hTag)
    obtain ⟨hKey, hFits⟩ := List.mem_filter.mp hAll
    obtain ⟨name, -, hName⟩ := List.mem_map.mp hKey
    exact ⟨⟨name, hName⟩, hFits⟩
  refine ⟨fun tag hTag => ?_, fun tag hTag => (hMem tag hTag).2, ?_, List.length_take_le _ _⟩
  · obtain ⟨name, rfl⟩ := (hMem tag hTag).1
    exact hLower.key name
  · have hBEq : (List.instBEq : BEq Text) = instBEqOfDecidableEq := lawful_beq_subsingleton _ _
    refine List.Nodup.sublist (List.take_sublist _ _) ?_
    rw [hBEq]
    exact nodup_eraseDups _

theorem readPageNumber_range (value : Option Text) :
    1 ≤ readPageNumber value ∧ readPageNumber value ≤ MAX_PAGE := by
  have hOne : (1 : Int) ≤ 1 ∧ (1 : Int) ≤ MAX_PAGE := by decide
  unfold readPageNumber
  split
  · split
    · rename_i hRange
      exact ⟨hRange.1, hRange.2.1⟩
    · exact hOne
  · exact hOne

theorem readItemsPerPage_mem (value : Option Text) : readItemsPerPage value ∈ itemsPerPageOptions := by
  have hDefault : DEFAULT_ITEMS_PER_PAGE ∈ itemsPerPageOptions := by decide
  unfold readItemsPerPage
  split
  · split
    · assumption
    · exact hDefault
  · exact hDefault

theorem getD_filter_mem {options : List Text} {default : Text} (h : default ∈ options)
    (value : Option Text) : (value.filter fun t => decide (t ∈ options)).getD default ∈ options := by
  cases value with
  | none => exact h
  | some t =>
      by_cases ht : t ∈ options
      · simp [Option.filter, ht]
      · simpa [Option.filter, ht] using h

theorem readSearchQuery_valid (value : Option Text) :
    trim (readSearchQuery value) = readSearchQuery value ∧
      length (readSearchQuery value) ≤ MAX_SEARCH_LENGTH := by
  unfold readSearchQuery
  dsimp only
  split
  · refine ⟨?_, ‹_›⟩
    cases value with
    | none => rfl
    | some t => exact trim_trim t
  · exact ⟨rfl, Nat.zero_le _⟩

/-- Whatever the URL holds. -/
theorem readFilters_valid (hLower : LowersCase lower) (params : UrlSearchParams) :
    (readFilters lower params).Valid lower where
  page := readPageNumber_range _
  perPage := readItemsPerPage_mem _
  sort := getD_filter_mem (by decide) _
  category := by
    show lower (trim (((first _ params).map _).getD [])) = ((first _ params).map _).getD []
    cases first "category".toList params with
    | none => exact (hLower.nil_iff _).mpr rfl
    | some t =>
        rw [Option.map_some, Option.getD_some, hLower.trimmed, hLower.again]
  search := readSearchQuery_valid _
  tags := tagsValid_selected hLower params
  kind k hKind := of_decide_eq_true (Option.mem_filter_iff.mp hKind).2

end Valid

/-! ## Controls are what they mean -/

section Controls

variable {lower : Text → Text} {params : UrlSearchParams} {name value other : Text} {d : Bool}

theorem getAll_setUnless_self :
    getAll name (setUnless d name value params) = if d then [] else [value] := by
  cases d with
  | true => exact getAll_delete_self
  | false => exact getAll_set_self

theorem getAll_setUnless_other (h : other ≠ name) :
    getAll other (setUnless d name value params) = getAll other params := by
  cases d with
  | true => exact getAll_delete_other h
  | false => exact getAll_set_other h

theorem first_setUnless :
    first name (setUnless d name value params) = if d then none else some value := by
  rw [first, getAll_setUnless_self]
  cases d <;> rfl

theorem read_toFirstPage (lower : Text → Text) (params : UrlSearchParams) :
    readFilters lower (toFirstPage params) = { readFilters lower params with page := 1 } := by
  simp (disch := decide) only [readFilters, selectedTagFilters, toFirstPage, first,
    getAll_delete_self, getAll_delete_other, List.head?_nil]
  rfl

theorem read_category (lower : Text → Text) (params : UrlSearchParams) (d : Bool) (value : Text) :
    readFilters lower (setUnless d "category".toList value params) =
      { readFilters lower params with
        category := ((if d then none else some value).map fun t => lower (trim t)).getD [] } := by
  simp (disch := decide) only [readFilters, selectedTagFilters, first_setUnless]
  simp (disch := decide) only [first, getAll_setUnless_other]

theorem read_sort (lower : Text → Text) (params : UrlSearchParams) (d : Bool) (value : Text) :
    readFilters lower (setUnless d "sort".toList value params) =
      { readFilters lower params with
        sort := ((if d then none else some value).filter fun t => decide (t ∈ sortOptions)).getD
          DEFAULT_SORT_OPTION } := by
  simp (disch := decide) only [readFilters, selectedTagFilters, first_setUnless]
  simp (disch := decide) only [first, getAll_setUnless_other]

theorem read_kind (lower : Text → Text) (params : UrlSearchParams) (d : Bool) (value : Text) :
    readFilters lower (setUnless d "kind".toList value params) =
      { readFilters lower params with
        kind := (if d then none else some value).filter fun t =>
          decide (t ∈ messageKindOptions) } := by
  simp (disch := decide) only [readFilters, selectedTagFilters, first_setUnless]
  simp (disch := decide) only [first, getAll_setUnless_other]

theorem read_perPage (lower : Text → Text) (params : UrlSearchParams) (d : Bool) (value : Text) :
    readFilters lower (setUnless d "per_page".toList value params) =
      { readFilters lower params with
        perPage := readItemsPerPage (if d then none else some value) } := by
  simp (disch := decide) only [readFilters, selectedTagFilters, first_setUnless]
  simp (disch := decide) only [first, getAll_setUnless_other]

theorem read_page (lower : Text → Text) (params : UrlSearchParams) (d : Bool) (value : Text) :
    readFilters lower (setUnless d "page".toList value params) =
      { readFilters lower params with
        page := readPageNumber (if d then none else some value) } := by
  simp (disch := decide) only [readFilters, selectedTagFilters, first_setUnless]
  simp (disch := decide) only [first, getAll_setUnless_other]

theorem read_search (lower : Text → Text) (params : UrlSearchParams) (d : Bool) (value : Text) :
    readFilters lower (setUnless d "q".toList value params) =
      { readFilters lower params with
        search := readSearchQuery (if d then none else some value) } := by
  simp (disch := decide) only [readFilters, selectedTagFilters, first_setUnless]
  simp (disch := decide) only [first, getAll_setUnless_other]

theorem read_tags (lower : Text → Text) (params : UrlSearchParams) (tags : List Text) :
    readFilters lower (appendAll "tag".toList tags (delete "tag".toList params)) =
      { readFilters lower params with
        tags := (((tags.map (normalizeTagKey lower)).filter tagFits).eraseDups).take
          MAX_TAG_FILTERS } := by
  simp (disch := decide) only [readFilters, selectedTagFilters, first, getAll_appendAll_self,
    getAll_appendAll_other, getAll_delete_self, getAll_delete_other, List.nil_append]

theorem read_cleared (lower : Text → Text) (params : UrlSearchParams) :
    readFilters lower (delete "sort".toList (delete "kind".toList (delete "tag".toList
      (delete "category".toList (delete "q".toList params))))) =
      { readFilters lower params with
        sort := DEFAULT_SORT_OPTION, category := [], search := [], tags := [], kind := none } := by
  simp (disch := decide) only [readFilters, selectedTagFilters, first, getAll_delete_self,
    getAll_delete_other, List.head?_nil]
  rfl

/-- Tags that are valid are read as they are. -/
theorem TagsValid.read {tags : List Text} (h : TagsValid lower tags) :
    (((tags.map (normalizeTagKey lower)).filter tagFits).eraseDups).take MAX_TAG_FILTERS = tags := by
  have hKeys : tags.map (normalizeTagKey lower) = tags :=
    (List.map_congr_left h.keys).trans (List.map_id tags)
  rw [hKeys, List.filter_eq_self.mpr h.fit, eraseDups_of_nodup h.nodup,
    List.take_of_length_le h.count]

/-- A tag that is toggled, among valid ones. -/
theorem TagsValid.toggled {tags : List Text} (hLower : LowersCase lower) (h : TagsValid lower tags)
    (name : Text) :
    ((((toggled (normalizeTagKey lower name) tags).map (normalizeTagKey lower)).filter
        tagFits).eraseDups).take MAX_TAG_FILTERS =
      if normalizeTagKey lower name ∈ tags then tags.filter (· ≠ normalizeTagKey lower name)
      else if tagFits (normalizeTagKey lower name) ∧ tags.length < MAX_TAG_FILTERS then
        tags ++ [normalizeTagKey lower name]
      else tags := by
  generalize hKey : normalizeTagKey lower name = key
  have hAgain : normalizeTagKey lower key = key := by
    rw [← hKey]
    exact hLower.key name
  unfold Messages.toggled
  split
  · have hRest : TagsValid lower (tags.filter (· ≠ key)) :=
      ⟨fun tag hTag => h.keys tag (List.mem_of_mem_filter hTag),
        fun tag hTag => h.fit tag (List.mem_of_mem_filter hTag), h.nodup.filter _,
        Nat.le_trans (List.length_filter_le _ _) h.count⟩
    exact hRest.read
  · rename_i hNew
    have hKeys : (tags ++ [key]).map (normalizeTagKey lower) = tags ++ [key] := by
      rw [List.map_append, List.map_singleton, hAgain]
      exact congrArg (· ++ [key]) ((List.map_congr_left h.keys).trans (List.map_id tags))
    rw [hKeys, List.filter_append, List.filter_eq_self.mpr h.fit]
    by_cases hFits : tagFits key = true
    · have hNodup : (tags ++ [key]).Nodup := by
        rw [List.nodup_append]
        exact ⟨h.nodup, List.nodup_singleton _, fun a ha b hb hEq =>
          hNew (List.mem_singleton.mp hb ▸ hEq ▸ ha)⟩
      rw [List.filter_cons_of_pos hFits, List.filter_nil, eraseDups_of_nodup hNodup]
      by_cases hCount : tags.length < MAX_TAG_FILTERS
      · rw [if_pos ⟨hFits, hCount⟩, List.take_of_length_le]
        rw [List.length_append, List.length_singleton]
        exact hCount
      · have hFull : MAX_TAG_FILTERS = tags.length :=
          Nat.le_antisymm (Nat.not_lt.mp hCount) h.count
        rw [if_neg fun hBoth => hCount hBoth.2, hFull, List.take_left']
        rfl
    · rw [List.filter_cons_of_neg hFits, List.filter_nil, List.append_nil,
        eraseDups_of_nodup h.nodup, List.take_of_length_le h.count, if_neg fun hBoth => hFits hBoth.1]

theorem readItemsPerPage_numeral {n : Int} (h : n ∈ itemsPerPageOptions) :
    readItemsPerPage (some (numeral n)) = n := by
  have hOptions := h
  simp only [itemsPerPageOptions, List.mem_cons, List.not_mem_nil, or_false] at h
  obtain ⟨m, rfl⟩ := Int.eq_ofNat_of_zero_le (show 0 ≤ n by omega)
  rw [readItemsPerPage, readDigits_numeral (by omega)]
  exact if_pos hOptions

theorem readPageNumber_numeral {n : Int} (hPos : 1 ≤ n) (hSafe : n < 2 ^ 53) :
    readPageNumber (some (numeral n)) = if n ≤ MAX_PAGE then n else 1 := by
  obtain ⟨m, rfl⟩ := Int.eq_ofNat_of_zero_le (show 0 ≤ n by omega)
  rw [readPageNumber, readDigits_numeral (by omega)]
  dsimp only
  by_cases hMax : (m : Int) ≤ MAX_PAGE
  · rw [if_pos hMax, if_pos ⟨by omega, hMax, hSafe⟩]
  · rw [if_neg hMax, if_neg fun hAll => hMax hAll.2.1]

theorem control_refines (hLower : LowersCase lower) (params : UrlSearchParams) (c : Control) :
    readFilters lower (c.apply lower params) = c.effect lower (readFilters lower params) := by
  cases c with
  | goToPage page totalPages hPages =>
      have hPos : 1 ≤ clampPage page totalPages := Int.le_max_left _ _
      have hSafe : clampPage page totalPages < 2 ^ 53 := by
        unfold clampPage
        omega
      rw [Control.apply, Control.effect, read_page]
      by_cases hOne : clampPage page totalPages = 1
      · rw [hOne]
        rfl
      · rw [if_neg (by simpa using hOne), readPageNumber_numeral hPos hSafe]
  | setCategory category =>
      rw [Control.apply, Control.effect, read_toFirstPage, read_category]
      cases hEmpty : (lower (trim category)).isEmpty with
      | true =>
          rw [List.isEmpty_iff.mp hEmpty]
          rfl
      | false =>
          rw [if_neg Bool.false_ne_true, Option.map_some, Option.getD_some, hLower.trimmed,
            hLower.again]
  | toggleTag name =>
      rw [Control.apply, Control.effect, read_toFirstPage, read_tags,
        (tagsValid_selected hLower params).toggled hLower name]
      rfl
  | setSort sort hSort =>
      rw [Control.apply, Control.effect, read_toFirstPage, read_sort]
      by_cases hDefault : sort = DEFAULT_SORT_OPTION
      · rw [hDefault]
        rfl
      · rw [if_neg (by simpa using hDefault)]
        simp only [Option.filter, hSort, decide_true, if_true, Option.getD_some]
  | setKind kind hKind =>
      rw [Control.apply, Control.effect, read_toFirstPage, read_kind]
      cases kind with
      | none => rfl
      | some k =>
          have hMem : k ∈ messageKindOptions := hKind k rfl
          simp [Option.filter, hMem]
  | setItemsPerPage n hItems =>
      rw [Control.apply, Control.effect, read_toFirstPage, read_perPage]
      by_cases hDefault : n = DEFAULT_ITEMS_PER_PAGE
      · rw [hDefault]
        rfl
      · rw [if_neg (by simpa using hDefault), readItemsPerPage_numeral hItems]
  | search text =>
      rw [Control.apply, Control.effect]
      by_cases hSame : lower (trim text) = lower (readSearchQuery (first "q".toList params))
      · rw [if_pos hSame, if_pos (show _ = lower (readFilters lower params).search from hSame)]
      · rw [if_neg hSame, if_neg (show ¬ _ = lower (readFilters lower params).search from hSame),
          read_toFirstPage, read_search]
        cases hEmpty : (trim text).isEmpty with
        | true =>
            have hNone : readSearchQuery (some text) = readSearchQuery none := by
              rw [readSearchQuery, Option.map_some, Option.getD_some, List.isEmpty_iff.mp hEmpty]
              rfl
            rw [hNone]
            rfl
        | false =>
            have hText : readSearchQuery (some (trim text)) = readSearchQuery (some text) := by
              rw [readSearchQuery, Option.map_some, Option.getD_some, trim_trim]
              rfl
            rw [if_neg Bool.false_ne_true, hText]
  | clearFilters =>
      rw [Control.apply, Control.effect, read_toFirstPage, read_cleared]

/-- Whatever the URL holds, any sequence of controls does to the filters that are read from it what
the controls say, and the filters stay in their ranges. -/
theorem controls_refine (hLower : LowersCase lower) (params : UrlSearchParams)
    (controls : List Control) :
    readFilters lower (controls.foldl (Control.apply lower) params) =
        controls.foldl (Control.effect lower) (readFilters lower params) ∧
      (controls.foldl (Control.effect lower) (readFilters lower params)).Valid lower := by
  have hFold : ∀ params, readFilters lower (controls.foldl (Control.apply lower) params) =
      controls.foldl (Control.effect lower) (readFilters lower params) := by
    induction controls with
    | nil => exact fun _ => rfl
    | cons c controls ih =>
        intro params
        rw [List.foldl_cons, List.foldl_cons, ih, control_refines hLower]
  exact ⟨hFold params, hFold params ▸ readFilters_valid hLower _⟩

/-- A case mapping that goes character by character, as it does for texts in ASCII. -/
def lowerAscii (t : Text) : Text := t.map Char.toLower

theorem lowersCase_ascii : LowersCase lowerAscii where
  again t := by
    rw [lowerAscii, lowerAscii, List.map_map]
    refine List.map_congr_left fun c _ => ?_
    rcases Python.toLower_eq_or c with hSame | hLow
    · rw [Function.comp_apply, hSame, hSame]
    · exact Python.toLower_eq_self (Or.inr (Nat.lt_of_lt_of_le (by decide) hLow))
  trimmed t := by
    have hSpace : isSpaceChar ∘ Char.toLower = isSpaceChar := by
      funext c
      rw [Function.comp_apply]
      by_cases hUpper : 65 ≤ c.toNat ∧ c.toNat ≤ 90
      · have hAll : ∀ n < 91, 65 ≤ n → isSpaceChar (Char.ofNat n).toLower = isSpaceChar (Char.ofNat n) := by
          decide +kernel
        have hChar := hAll c.toNat (Nat.lt_succ_of_le hUpper.2) hUpper.1
        rwa [Char.ofNat_toNat] at hChar
      · rw [Python.toLower_eq_self (by omega)]
    have hMap (u : Text) : trim (u.map Char.toLower) = (trim u).map Char.toLower := by
      simp only [trim, List.rdropWhile, List.dropWhile_map, hSpace,
        ← List.map_reverse]
    rw [lowerAscii, hMap, trim_trim]
  nil_iff t := List.map_eq_nil_iff

/-- From page 3 of a search, a category and a tag are chosen. -/
theorem controls_refine_chosen :
    readFilters lowerAscii ([Control.setCategory "Links".toList, .toggleTag "Rust ".toList].foldl
      (Control.apply lowerAscii) [("q".toList, "lean".toList), ("page".toList, "3".toList)]) =
        ⟨1, 60, DEFAULT_SORT_OPTION, "links".toList, "lean".toList, ["rust".toList], none⟩ :=
  (controls_refine lowersCase_ascii _ _).1.trans (by decide +kernel)

end Controls

end SavedOrganizer.Frontend.Messages
