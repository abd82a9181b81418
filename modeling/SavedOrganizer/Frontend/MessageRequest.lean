import SavedOrganizer.Frontend.MessageFilters
import SavedOrganizer.Library.FormUrlencoded
import SavedOrganizer.Messages.Service
import SavedOrganizer.Security
import SavedOrganizer.System.WellFormed
import SavedOrganizer.Tags.Filter

/-!
# The request of the message page

The page asks for the messages of its filters. `buildQueryString` writes the query of the request,
the server reads its parameters, the route checks them and the service normalizes them.

Whatever the URL of the page holds, the route reads the filters that the page has read, unless the
search has grown beyond 500 characters in lower case (`request_carries`); and the service accepts
them exactly if no tag grows beyond 100 characters when its case is folded (`request_accepted_iff`).
How an integer is read from a parameter is left open.
-/

namespace SavedOrganizer.Frontend.Messages

open Python SearchParams

/-! ## Writing the query -/

/-- `MessageListQuery`. -/
structure MessageListQuery where
  page : Option Int
  perPage : Option Int
  sort : Option Text
  category : Option Text
  search : Option Text
  tag : Option (List Text)
  kind : Option Text
  deriving DecidableEq, Repr

/-- `value || undefined`. -/
def orUndefined (value : Text) : Option Text := if value.isEmpty then none else some value

/-- The query of `hydrateMessages`. -/
def pageQuery (lower : Text → Text) (f : MessageFilters) : MessageListQuery where
  page := some f.page
  perPage := some f.perPage
  sort := some f.sort
  category := orUndefined f.category
  search := orUndefined (lower f.search)
  tag := if 0 < f.tags.length then some f.tags else none
  kind := f.kind

/-- A value that is not empty. -/
def filled (value : Option Text) : Option Text := value.filter fun t => !t.isEmpty

def setIf (name : Text) (value : Option Text) (params : UrlSearchParams) : UrlSearchParams :=
  match value with
  | some t => set name t params
  | none => params

/-- The parameters of `buildQueryString`. -/
def queryParams (query : MessageListQuery) : UrlSearchParams :=
  appendAll "tag".toList (((query.tag.getD []).map trim).filter fun t => !t.isEmpty)
    (setIf "search".toList (filled (query.search.map trim))
      (setIf "kind".toList (filled query.kind)
        (setIf "category".toList (filled (query.category.map trim))
          (setIf "sort".toList (filled query.sort)
            (setIf "per_page".toList (query.perPage.map fun n => numeral (min 200 (max 1 n)))
              (setIf "page".toList (query.page.map fun n => numeral (max 1 n)) []))))))

/-- The bytes of a text in UTF-8. -/
def encodeText (t : Text) : Bytes := utf8 (String.ofList t)

def buildQueryString (query : MessageListQuery) : Text :=
  let serialized := FormUrlencoded.serialize encodeText (queryParams query)
  if 0 < serialized.length then '?' :: serialized else []

/-! ## Reading it -/

/-- `bytes.decode("utf-8", "replace")`; what replaces bytes that are not UTF-8 is left open. -/
def decodeText (replaced : Bytes → Text) (bytes : Bytes) : Text :=
  match String.fromUTF8? bytes.toByteArray with
  | some value => value.toList
  | none => replaced bytes

/-- The query of a request. -/
def queryOf : Text → Text
  | '?' :: query => query
  | _ => []

/-- The parameters of the route that are refused. -/
inductive QueryField
  | page | perPage | sort | category | tag | search | kind
  deriving DecidableEq, Repr

/-- `MessageSort(value)`. -/
def sortOf (value : Text) : Option MessageSort :=
  if value = "date_desc".toList then some .dateDesc
  else if value = "date_asc".toList then some .dateAsc
  else if value = "category".toList then some .category
  else if value = "sender".toList then some .sender
  else none

/-- `MessageKind(value)`. -/
def kindOf (value : Text) : Option MessageKind :=
  if value = "text".toList then some .text
  else if value = "link".toList then some .link
  else if value = "image".toList then some .image
  else if value = "audio".toList then some .audio
  else if value = "video".toList then some .video
  else if value = "document".toList then some .document
  else if value = "mixed".toList then some .mixed
  else if value = "other".toList then some .other
  else none

/-- A parameter with a default and a check. -/
def readParam {α : Type} (default : α) (read : Text → Option α) (value : Option Text) : Option α :=
  match value with
  | none => some default
  | some t => read t

section Route

variable (readInt : String → Option Int) (replaced : Bytes → Text)

/-- `Query(ge=1, le=..)`. -/
def readBounded (most : Int) (t : Text) : Option Int :=
  (readInt (String.ofList t)).filter fun n => decide (1 ≤ n ∧ n ≤ most)

/-- `Query(min_length=.., max_length=..)` of an optional text. -/
def readText (least : Nat) (most : Option Nat) (t : Text) : Option (Option Text) :=
  if least ≤ t.length ∧ most.all (t.length ≤ ·) then some (some t) else none

/-- The arguments that `list_messages` gets, or the parameters that are refused. -/
def routeArguments (params : UrlSearchParams) : Except (List QueryField) ListArguments :=
  let page := readParam 1 (readBounded readInt MAX_PAGE_NUMBER) (last "page".toList params)
  let perPage := readParam 50 (readBounded readInt 200) (last "per_page".toList params)
  let sort := readParam .dateDesc sortOf (last "sort".toList params)
  let category := readParam none (readText 1 none) (last "category".toList params)
  let tags := getAll "tag".toList params
  let search := readParam none (readText 0 (some 500)) (last "search".toList params)
  let kind := readParam none (fun t => (kindOf t).map some) (last "kind".toList params)
  match page, perPage, sort, category, decide (tags.length ≤ 20), search, kind with
  | some page, some perPage, some sort, some category, true, some search, some kind =>
      .ok ⟨page, perPage, sort, category, tags, search, kind⟩
  | _, _, _, _, _, _, _ =>
      .error (([(QueryField.page, page.isNone), (.perPage, perPage.isNone), (.sort, sort.isNone),
        (.category, category.isNone), (.tag, decide (20 < tags.length)), (.search, search.isNone),
        (.kind, kind.isNone)].filter Prod.snd).map Prod.fst)

/-- The route of a request. -/
def receive (target : Text) : Except (List QueryField) ListArguments :=
  routeArguments readInt (FormUrlencoded.parse (decodeText replaced) (queryOf target))

end Route

/-! ## What the query holds -/

section Query

variable {lower : Text → Text} {f : MessageFilters} {name other : Text} {value : Option Text}
  {params : UrlSearchParams}

theorem getAll_setIf_self (h : getAll name params = []) :
    getAll name (setIf name value params) = value.toList := by
  cases value with
  | none => exact h
  | some t => exact getAll_set_self

theorem getAll_setIf_other (h : other ≠ name) :
    getAll other (setIf name value params) = getAll other params := by
  cases value with
  | none => rfl
  | some t => exact getAll_set_other h

theorem filled_orUndefined {t : Text} (h : trim t = t) :
    filled ((orUndefined t).map trim) = orUndefined t := by
  unfold orUndefined
  split
  · rfl
  · rename_i hFilled
    rw [Option.map_some, h, filled, Option.filter, if_pos (by simpa using hFilled)]

theorem filled_of_mem {t : Text} {options : List Text} (hOptions : [] ∉ options) (h : t ∈ options) :
    filled (some t) = some t := by
  have hFilled : t ≠ [] := fun hNil => hOptions (hNil ▸ h)
  rw [filled, Option.filter, if_pos (by simpa using hFilled)]

theorem LowersCase.trim_lower (hLower : LowersCase lower) {t : Text} (h : trim t = t) :
    trim (lower t) = lower t := by
  have hTrimmed := hLower.trimmed t
  rwa [h] at hTrimmed

/-- A text that is its own key has no white space around it. -/
theorem LowersCase.trim_key (hLower : LowersCase lower) {t : Text} (h : lower (trim t) = t) :
    trim t = t := by
  have hTrimmed := hLower.trimmed t
  rwa [h] at hTrimmed

/-- The values of the parameters. -/
structure Holds (lower : Text → Text) (f : MessageFilters) (params : UrlSearchParams) : Prop where
  page : getAll "page".toList params = [numeral f.page]
  perPage : getAll "per_page".toList params = [numeral f.perPage]
  sort : getAll "sort".toList params = [f.sort]
  category : getAll "category".toList params = (orUndefined f.category).toList
  search : getAll "search".toList params = (orUndefined (lower f.search)).toList
  tag : getAll "tag".toList params = f.tags
  kind : getAll "kind".toList params = f.kind.toList

theorem holds_queryParams (hLower : LowersCase lower) (h : f.Valid lower) :
    Holds lower f (queryParams (pageQuery lower f)) where
  page := by
    simp (disch := decide) only [queryParams, getAll_appendAll_other, getAll_setIf_other]
    rw [getAll_setIf_self getAll_nil]
    simp only [pageQuery, Option.map_some, Option.toList_some, max_eq_right h.page.1]
  perPage := by
    have hRange : min 200 (max 1 f.perPage) = f.perPage := by
      have hMem := h.perPage
      simp only [itemsPerPageOptions, List.mem_cons, List.not_mem_nil, or_false] at hMem
      omega
    simp (disch := decide) only [queryParams, getAll_appendAll_other, getAll_setIf_other]
    rw [getAll_setIf_self (by simp (disch := decide) only [getAll_setIf_other, getAll_nil])]
    simp only [pageQuery, Option.map_some, Option.toList_some, hRange]
  sort := by
    simp (disch := decide) only [queryParams, getAll_appendAll_other, getAll_setIf_other]
    rw [getAll_setIf_self (by simp (disch := decide) only [getAll_setIf_other, getAll_nil])]
    exact congrArg Option.toList (filled_of_mem (by decide) h.sort)
  category := by
    simp (disch := decide) only [queryParams, getAll_appendAll_other, getAll_setIf_other]
    rw [getAll_setIf_self (by simp (disch := decide) only [getAll_setIf_other, getAll_nil])]
    exact congrArg Option.toList (filled_orUndefined (hLower.trim_key h.category))
  search := by
    simp (disch := decide) only [queryParams, getAll_appendAll_other]
    rw [getAll_setIf_self (by simp (disch := decide) only [getAll_setIf_other, getAll_nil])]
    exact congrArg Option.toList (filled_orUndefined (hLower.trim_lower h.search.1))
  tag := by
    have hTags : ((f.tags.map trim).filter fun t => !t.isEmpty) = f.tags := by
      have hMap : f.tags.map trim = f.tags :=
        (List.map_congr_left fun tag hTag => hLower.trim_key (h.tags.keys tag hTag)).trans
          (List.map_id _)
      rw [hMap]
      refine List.filter_eq_self.mpr fun tag hTag => ?_
      have hFits := h.tags.fit tag hTag
      cases tag with
      | nil => cases hFits
      | cons c tag => rfl
    have hGiven : (pageQuery lower f).tag.getD [] = f.tags := by
      show (if 0 < f.tags.length then some f.tags else none).getD [] = f.tags
      split
      · rfl
      · rename_i hNone
        exact (List.length_eq_zero_iff.mp (Nat.eq_zero_of_not_pos hNone)).symm
    rw [queryParams, getAll_appendAll_self, hGiven, hTags]
    simp (disch := decide) only [getAll_setIf_other, getAll_nil, List.nil_append]
  kind := by
    simp (disch := decide) only [queryParams, getAll_appendAll_other, getAll_setIf_other]
    rw [getAll_setIf_self (by simp (disch := decide) only [getAll_setIf_other, getAll_nil])]
    show (filled f.kind).toList = f.kind.toList
    cases hKind : f.kind with
    | none => rfl
    | some k => exact congrArg Option.toList (filled_of_mem (by decide) (h.kind k hKind))

end Query

/-! ## What the route reads -/

section Receive

variable {lower : Text → Text} {f : MessageFilters} {readInt : String → Option Int}
  {replaced : Bytes → Text} {params : UrlSearchParams} {args : ListArguments} {u : Unicode}

theorem decodeText_encodeText (t : Text) : decodeText replaced (encodeText t) = t := by
  rw [decodeText, encodeText, fromUTF8?_utf8]
  exact String.toList_ofList

/-- The server gets the parameters that were written. -/
theorem parse_buildQueryString (query : MessageListQuery) :
    FormUrlencoded.parse (decodeText replaced) (queryOf (buildQueryString query)) =
      queryParams query := by
  have hQuery : queryOf (buildQueryString query) =
      FormUrlencoded.serialize encodeText (queryParams query) := by
    unfold buildQueryString
    dsimp only
    split
    · rfl
    · rename_i hNone
      exact (List.length_eq_zero_iff.mp (Nat.eq_zero_of_not_pos hNone)).symm
  rw [hQuery, FormUrlencoded.parse_serialize decodeText_encodeText]

/-- The arguments of the service say what the page has read. -/
structure Carries (lower : Text → Text) (f : MessageFilters) (args : ListArguments) : Prop where
  page : args.page = f.page
  perPage : args.perPage = f.perPage
  sort : sortOf f.sort = some args.sort
  category : args.categorySlug = orUndefined f.category
  search : args.search = orUndefined (lower f.search)
  tags : args.tagNames = f.tags
  kind : f.kind.map kindOf = args.messageKind.map some

theorem readBounded_numeral (hInt : ∀ n : Int, 0 < n → readInt (toString n) = some n) {n most : Int}
    (hLeast : 1 ≤ n) (hMost : n ≤ most) : readBounded readInt most (numeral n) = some n := by
  rw [readBounded, numeral, String.ofList_toList, hInt n (by omega)]
  simp only [Option.filter, hLeast, hMost, and_self, decide_true, if_true]

theorem sortOf_isSome {t : Text} (h : t ∈ sortOptions) : ∃ sort, sortOf t = some sort := by
  have hAll : ∀ t ∈ sortOptions, (sortOf t).isSome = true := by decide
  exact Option.isSome_iff_exists.mp (hAll t h)

theorem kindOf_isSome {t : Text} (h : t ∈ messageKindOptions) : ∃ kind, kindOf t = some kind := by
  have hAll : ∀ t ∈ messageKindOptions, (kindOf t).isSome = true := by decide
  exact Option.isSome_iff_exists.mp (hAll t h)

theorem readParam_orUndefined {t : Text} {least : Nat} {most : Option Nat} (hLeast : least ≤ 1)
    (hMost : most.all (t.length ≤ ·) = true) :
    readParam none (readText least most) (orUndefined t).toList.getLast? = some (orUndefined t) := by
  unfold orUndefined
  split
  · rfl
  · rename_i hFilled
    have hLength : least ≤ t.length :=
      Nat.le_trans hLeast (List.length_pos_iff.mpr (by simpa using hFilled))
    exact if_pos ⟨hLength, hMost⟩

/-- The route reads parameters that hold valid filters. -/
theorem routeArguments_holds (hInt : ∀ n : Int, 0 < n → readInt (toString n) = some n)
    (hValid : f.Valid lower) (h : Holds lower f params) :
    (500 < (lower f.search).length → routeArguments readInt params = .error [.search]) ∧
      ((lower f.search).length ≤ 500 →
        ∃ args, routeArguments readInt params = .ok args ∧ Carries lower f args) := by
  have hPage : readParam 1 (readBounded readInt MAX_PAGE_NUMBER) (last "page".toList params) =
      some f.page := by
    rw [last, h.page]
    exact readBounded_numeral hInt hValid.page.1 hValid.page.2
  have hPerPage : readParam 50 (readBounded readInt 200) (last "per_page".toList params) =
      some f.perPage := by
    have hMem := hValid.perPage
    simp only [itemsPerPageOptions, List.mem_cons, List.not_mem_nil, or_false] at hMem
    rw [last, h.perPage]
    exact readBounded_numeral hInt (by omega) (by omega)
  obtain ⟨sort, hSortOf⟩ := sortOf_isSome hValid.sort
  have hSort : readParam .dateDesc sortOf (last "sort".toList params) = some sort := by
    rw [last, h.sort]
    exact hSortOf
  have hCategory : readParam none (readText 1 none) (last "category".toList params) =
      some (orUndefined f.category) := by
    rw [last, h.category]
    exact readParam_orUndefined (Nat.le_refl _) rfl
  have hTags : decide ((getAll "tag".toList params).length ≤ 20) = true :=
    decide_eq_true (h.tag.symm ▸ hValid.tags.count)
  obtain ⟨kind, hKind, hKinds⟩ : ∃ kind,
      readParam none (fun t => (kindOf t).map some) (last "kind".toList params) = some kind ∧
        f.kind.map kindOf = kind.map some := by
    rw [last, h.kind]
    cases hGiven : f.kind with
    | none => exact ⟨none, rfl, rfl⟩
    | some k =>
        obtain ⟨kind, hKindOf⟩ := kindOf_isSome (hValid.kind k hGiven)
        refine ⟨some kind, ?_, congrArg some hKindOf⟩
        show (kindOf k).map some = _
        rw [hKindOf]
        rfl
  refine ⟨fun hLong => ?_, fun hShort => ?_⟩
  · have hSearch : readParam none (readText 0 (some 500)) (last "search".toList params) = none := by
      have hFilled : (lower f.search).isEmpty = false := by
        rw [List.isEmpty_eq_false_iff]
        rintro hNil
        rw [hNil] at hLong
        cases hLong
      rw [last, h.search, orUndefined, hFilled, if_neg Bool.false_ne_true]
      refine if_neg fun hBoth => ?_
      exact Nat.not_le.mpr hLong (of_decide_eq_true hBoth.2)
    unfold routeArguments
    dsimp only
    rw [hPage, hPerPage, hSort, hCategory, hTags, hSearch, hKind]
    have hCount : decide (20 < (getAll "tag".toList params).length) = false :=
      decide_eq_false (Nat.not_lt.mpr (of_decide_eq_true hTags))
    dsimp only
    rw [hCount]
    rfl
  · have hSearch : readParam none (readText 0 (some 500)) (last "search".toList params) =
        some (orUndefined (lower f.search)) := by
      rw [last, h.search]
      exact readParam_orUndefined (Nat.zero_le _) (decide_eq_true hShort)
    refine ⟨⟨f.page, f.perPage, sort, orUndefined f.category, getAll "tag".toList params,
      orUndefined (lower f.search), kind⟩, ?_, ⟨rfl, rfl, hSortOf, rfl, rfl, h.tag, hKinds⟩⟩
    unfold routeArguments
    dsimp only
    rw [hPage, hPerPage, hSort, hCategory, hTags, hSearch, hKind]

/-- Whatever the URL of the page holds, the route reads from the page's request the filters the
page has read from the URL, unless the search is longer than 500 characters in lower case, which is
the only thing that is ever refused. -/
theorem request_carries (hLower : LowersCase lower)
    (hInt : ∀ n : Int, 0 < n → readInt (toString n) = some n) (url : UrlSearchParams) :
    (500 < (lower (readFilters lower url).search).length →
      receive readInt replaced (buildQueryString (pageQuery lower (readFilters lower url))) =
        .error [.search]) ∧
    ((lower (readFilters lower url).search).length ≤ 500 → ∃ args,
      receive readInt replaced (buildQueryString (pageQuery lower (readFilters lower url))) =
        .ok args ∧ Carries lower (readFilters lower url) args) := by
  have hValid := readFilters_valid hLower url
  rw [receive, parse_buildQueryString]
  exact routeArguments_holds hInt hValid (holds_queryParams hLower hValid)

/-- A page with a search and two tags, one of them twice. -/
theorem request_carries_searched :
    ∃ args, receive sealingVault.readInt (fun _ => [])
        (buildQueryString (pageQuery lowerAscii (readFilters lowerAscii
          [("q".toList, "Lean 4 & more".toList), ("tag".toList, "Rust".toList),
            ("tag".toList, " rust".toList), ("tag".toList, "c++".toList)]))) = .ok args ∧
      Carries lowerAscii (readFilters lowerAscii
        [("q".toList, "Lean 4 & more".toList), ("tag".toList, "Rust".toList),
          ("tag".toList, " rust".toList), ("tag".toList, "c++".toList)]) args :=
  (request_carries lowersCase_ascii sealingVault_lawful.readInt_toString _).2 (by decide +kernel)

/-! ## What the service accepts -/

theorem length_strip_le (t : Text) : (strip t).length ≤ t.length := by
  have hInner := (@List.dropWhile_suffix Char t Python.isSpace).length_le
  have hOuter := (@List.dropWhile_suffix Char (t.dropWhile Python.isSpace).reverse Python.isSpace).length_le
  rw [List.length_reverse] at hOuter
  rw [strip, List.length_reverse]
  exact Nat.le_trans hOuter hInner

theorem length_eraseDups_le (tags : List Text) : tags.eraseDups.length ≤ tags.length := by
  have hNodup := nodup_eraseDups tags
  rw [lawful_beq_subsingleton instBEqOfDecidableEq List.instBEq] at hNodup
  exact (hNodup.subperm fun tag hTag => List.mem_eraseDups.mp hTag).length_le

theorem length_normalizedTagNames_le (names : List Text) :
    (MessageService.normalizedTagNames u names).length ≤ names.length :=
  calc (MessageService.normalizedTagNames u names).length
    _ ≤ ((names.filter fun name => !(strip name).isEmpty).map (tagNameKey u)).length :=
        length_eraseDups_le _
    _ = (names.filter fun name => !(strip name).isEmpty).length := List.length_map _
    _ ≤ names.length := List.length_filter_le _ _

theorem mem_normalizedTagNames {key : Text} {names : List Text} :
    key ∈ MessageService.normalizedTagNames u names ↔
      ∃ name ∈ names, strip name ≠ [] ∧ tagNameKey u name = key := by
  simp [MessageService.normalizedTagNames, List.mem_eraseDups, and_assoc]

theorem stripped_short {value : Option Text} (h : ∀ t ∈ value, t.length ≤ 500) :
    (MessageService.stripped value).any (500 < ·.length) = false := by
  cases value with
  | none => rfl
  | some t =>
      have hShort := Nat.le_trans (length_strip_le t) (h t rfl)
      rw [MessageService.stripped, Option.map_some, Option.filter]
      split
      · exact decide_eq_false (Nat.not_lt.mpr hShort)
      · rfl

/-- Arguments in the ranges of the route are refused only for a tag that is too long. -/
theorem normalizeFilter_accepts_iff (hPage : 1 ≤ args.page ∧ args.page ≤ MAX_PAGE_NUMBER)
    (hPerPage : 1 ≤ args.perPage ∧ args.perPage ≤ 200)
    (hSearch : ∀ t ∈ args.search, t.length ≤ 500) (hTags : args.tagNames.length ≤ 20) :
    (∃ filter, MessageService.normalizeFilter u args = .ok filter) ↔
      ∀ tag ∈ args.tagNames, strip tag ≠ [] → (tagNameKey u tag).length ≤ 100 := by
  have hCount := Nat.le_trans (@length_normalizedTagNames_le u args.tagNames) hTags
  unfold MessageService.normalizeFilter
  dsimp only
  rw [if_neg (by omega), if_neg (by omega), if_neg (by omega), if_neg (by omega),
    if_neg (Bool.eq_false_iff.mp (stripped_short hSearch)), if_neg (by omega)]
  split
  · rename_i hLong
    refine ⟨fun ⟨_, hEq⟩ => (by cases hEq), fun hAll => ?_⟩
    obtain ⟨key, hKey, hOver⟩ := List.any_eq_true.mp hLong
    obtain ⟨tag, hTag, hStrip, rfl⟩ := mem_normalizedTagNames.mp hKey
    exact absurd (hAll tag hTag hStrip) (Nat.not_le.mpr (of_decide_eq_true hOver))
  · rename_i hShort
    refine ⟨fun _ tag hTag hStrip => Nat.le_of_not_lt fun hOver => hShort ?_,
      fun _ => ⟨_, rfl⟩⟩
    exact List.any_eq_true.mpr
      ⟨_, mem_normalizedTagNames.mpr ⟨tag, hTag, hStrip, rfl⟩, decide_eq_true hOver⟩

/-- The page's request is refused by the route or by the service exactly if the search is longer
than 500 characters in lower case or a tag is longer than 100 characters when its case is folded. -/
theorem request_accepted_iff (hLower : LowersCase lower)
    (hInt : ∀ n : Int, 0 < n → readInt (toString n) = some n) (url : UrlSearchParams) :
    (∃ args filter,
      receive readInt replaced (buildQueryString (pageQuery lower (readFilters lower url))) =
        .ok args ∧ MessageService.normalizeFilter u args = .ok filter) ↔
    (lower (readFilters lower url).search).length ≤ 500 ∧
      ∀ tag ∈ (readFilters lower url).tags, strip tag ≠ [] → (tagNameKey u tag).length ≤ 100 := by
  have hValid := readFilters_valid hLower url
  have hHolds := holds_queryParams hLower hValid
  obtain ⟨hRefused, hRead⟩ := routeArguments_holds hInt hValid hHolds
  rw [receive, parse_buildQueryString]
  by_cases hShort : (lower (readFilters lower url).search).length ≤ 500
  · obtain ⟨args, hArgs, hCarries⟩ := hRead hShort
    have hPerPage := hValid.perPage
    simp only [itemsPerPageOptions, List.mem_cons, List.not_mem_nil, or_false] at hPerPage
    have hSearch : ∀ t ∈ args.search, t.length ≤ 500 := by
      intro t hMem
      rw [hCarries.search, orUndefined] at hMem
      split at hMem
      · cases hMem
      · cases hMem
        exact hShort
    have hAccepts := @normalizeFilter_accepts_iff args u
      (hCarries.page ▸ hValid.page) (hCarries.perPage ▸ by omega) hSearch
      (hCarries.tags ▸ hValid.tags.count)
    rw [hCarries.tags] at hAccepts
    rw [hArgs, ← hAccepts]
    constructor
    · rintro ⟨_, filter, hSame, hFilter⟩
      cases hSame
      exact ⟨hShort, filter, hFilter⟩
    · rintro ⟨-, filter, hFilter⟩
      exact ⟨args, filter, rfl, hFilter⟩
  · rw [hRefused (Nat.lt_of_not_le hShort)]
    constructor
    · rintro ⟨_, _, hEq, _⟩
      cases hEq
    · rintro ⟨hLe, -⟩
      exact absurd hLe hShort

/-- A tag of 40 characters U+0390 has 120 characters when its case is folded. -/
theorem request_accepted_iff_iota :
    (∃ args filter, receive sealingVault.readInt (fun _ => [])
        (buildQueryString (pageQuery lowerAscii (readFilters lowerAscii
          [("tag".toList, "c++".toList)]))) = .ok args ∧
        MessageService.normalizeFilter greekUnicode args = .ok filter) ∧
      ¬ ∃ args filter, receive sealingVault.readInt (fun _ => [])
        (buildQueryString (pageQuery lowerAscii (readFilters lowerAscii
          [("tag".toList, List.replicate 40 iota)]))) = .ok args ∧
        MessageService.normalizeFilter greekUnicode args = .ok filter := by
  have hIff (url : UrlSearchParams) :=
    @request_accepted_iff lowerAscii sealingVault.readInt (fun _ => []) greekUnicode
      lowersCase_ascii sealingVault_lawful.readInt_toString url
  exact ⟨(hIff _).mpr (by decide +kernel), fun hAccepted =>
    absurd ((hIff _).mp hAccepted).2 (by decide +kernel)⟩

end Receive

end SavedOrganizer.Frontend.Messages
