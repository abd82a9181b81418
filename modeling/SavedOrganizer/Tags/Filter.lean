import SavedOrganizer.Tags.Requests

/-!
# Filtering by a tag

A tag is unique by its key, which `TagService` computes with NFC before and after casefolding.
The filter of `list_messages` strips and casefolds only. It finds the messages of a tag, in
every library, exactly for the spellings on which the two agree (`tag_filter_iff`).
-/

namespace SavedOrganizer

open Python

/-- The unique constraint on the key of a tag. -/
def Organizer.TagKeysUnique (s : Organizer) : Prop :=
  ∀ t ∈ s.tags, ∀ t' ∈ s.tags, t.userId = t'.userId → t.normalizedName = t'.normalizedName → t = t'

/-- The user's message carries the tag. -/
def Organizer.carries (s : Organizer) (tag : Tag) (m : Message) : Bool :=
  m.userId == tag.userId && s.assigned m tag

/-- The name is accepted as a filter, and on every page lists what carries the tag. -/
def ListsTagged (sql : Sql) (u : Unicode) (s : Organizer) (tag : Tag) (spelling : Text) : Prop :=
  ∀ page perPage : Int, 1 ≤ page → page ≤ MAX_PAGE_NUMBER → 1 ≤ perPage → perPage ≤ 200 →
    ∃ result, MessageService.listMessages sql u tag.userId s
        { page := page, perPage := perPage, tagNames := [spelling] } = .ok result ∧
      result.total = s.db.messages.count (s.carries tag) ∧
      result.items = (((s.db.messages.select (s.carries tag) MessageService.newestFirst).drop
        ((page - 1) * perPage).toNat).take perPage.toNat).map s.view

section

variable {sql : Sql} {u : Unicode} {spelling name key : Text}

/-- One name that is not blank is one key to filter by. -/
theorem normalizedTagNames_single (h : strip spelling ≠ []) :
    MessageService.normalizedTagNames u [spelling] = [tagNameKey u spelling] := by
  have hKeep : (!(strip spelling).isEmpty) = true := by
    cases hStrip : strip spelling with
    | nil => exact absurd hStrip h
    | cons => rfl
  simp [MessageService.normalizedTagNames, hKeep, List.eraseDups_cons]

theorem normalizeFilter_tag {page perPage : Int} (h : strip spelling ≠ []) (hPage : 1 ≤ page)
    (hLast : page ≤ MAX_PAGE_NUMBER) (hPer : 1 ≤ perPage) (hMost : perPage ≤ 200) :
    MessageService.normalizeFilter u
        { page := page, perPage := perPage, tagNames := [spelling] } =
      if 100 < (tagNameKey u spelling).length then
        .error (.value "tag names must not exceed 100 characters.")
      else .ok ⟨none, [tagNameKey u spelling], none, none⟩ := by
  unfold MessageService.normalizeFilter
  have h1 : ¬ page ≤ 0 := by omega
  have h2 : ¬ page > MAX_PAGE_NUMBER := by omega
  have h3 : ¬ perPage ≤ 0 := by omega
  have h4 : ¬ perPage > 200 := by omega
  simp [normalizedTagNames_single h, h1, h2, h3, h4, MessageService.stripped]

/-- Without other filters the messages with a tag of this key are selected. -/
theorem selects_tag (s : Organizer) (userId : UserId) (m : Message) :
    MessageService.selects sql userId s ⟨none, [key], none, none⟩ m =
      (m.userId == userId &&
        s.anyTag m fun t => t.userId == userId && t.normalizedName == key) := by
  simp [MessageService.selects]

/-- The key belongs to one tag. -/
theorem anyTag_eq_carries {s : Organizer} {tag : Tag} (hUnique : s.TagKeysUnique)
    (hTag : tag ∈ s.tags) (m : Message) :
    (m.userId == tag.userId &&
      s.anyTag m fun t => t.userId == tag.userId && t.normalizedName == tag.normalizedName) =
      s.carries tag m := by
  unfold Organizer.carries
  by_cases hUser : m.userId = tag.userId
  · rw [hUser, beq_self_eq_true, Bool.true_and, Bool.true_and, Bool.eq_iff_iff, Organizer.anyTag,
      List.any_eq_true]
    simp only [Bool.and_eq_true, beq_iff_eq]
    constructor
    · rintro ⟨t, ht, hAssigned, hOwner, hName⟩
      rw [← hUnique t ht tag hTag hOwner hName]
      exact hAssigned
    · intro hAssigned
      exact ⟨tag, hTag, hAssigned, rfl, rfl⟩
  · rw [beq_eq_false_iff_ne.mpr hUser, Bool.false_and, Bool.false_and]

theorem listsTagged_of_key {s : Organizer} {tag : Tag}
    (hNames : TagService.normalizedNames u (.str spelling) = .ok (name, key))
    (hKey : tagNameKey u spelling = key) (hUnique : s.TagKeysUnique) (hTag : tag ∈ s.tags)
    (hName : tag.normalizedName = key) : ListsTagged sql u s tag spelling := by
  obtain ⟨hStrip, -, -, hShort⟩ := normalizedNames_eq_ok hNames
  intro page perPage hPage hLast hPer hMost
  have hFilter := @normalizeFilter_tag u spelling page perPage hStrip hPage hLast hPer hMost
  rw [if_neg (by rw [hKey]; omega)] at hFilter
  have hSelects : ∀ m, MessageService.selects sql tag.userId s
      ⟨none, [tagNameKey u spelling], none, none⟩ m = s.carries tag m := by
    intro m
    rw [selects_tag, hKey, ← hName, anyTag_eq_carries hUnique hTag]
  unfold MessageService.listMessages
  rw [hFilter]
  refine ⟨_, rfl, ?_, ?_⟩
  · simp only [funext hSelects]
  · have hSort : (MessageSort.dateDesc != MessageSort.category) = true := rfl
    simp [MessageService.joins, MessageService.ordering, hSelects, hSort]

end

/-! ## A library with one tagged message -/

/-- The tag, on message 1 of user 1. -/
def oneTag (name key : Text) : Tag := ⟨1, 1, name, key, none⟩

def taggedMessage : Message :=
  { id := 1, userId := 1, telegramId := 5, telegramUserId := none, connectionGeneration := none,
    lastSeenReplacementJobId := none, content := none, mediaType := none, fileName := none,
    fileSize := none, mimeType := none, cachedMedia := none, cachedMediaMimeType := none,
    url := none, senderName := none, date := 0, categoryId := 1, rawData := [] }

def taggedLibrary (name key : Text) : Organizer where
  db :=
    { connections := .empty
      jobs := .empty
      categories := .empty
      messages := ⟨[taggedMessage], by decide⟩
      messageTags := ⟨[⟨1, 1, 1⟩], by decide⟩
      nextMessageId := 2
      messageIds_fresh := (by decide : ∀ m ∈ [taggedMessage], m.id < 2) }
  tags := ⟨[oneTag name key], List.nodup_singleton _⟩
  nextTagId := 2
  nextCategoryId := 1
  tagIds_fresh := by
    intro t ht
    rw [List.mem_singleton.mp ht]
    exact Nat.lt_succ_self 1
  categoryIds_fresh := fun c hc => by cases hc

theorem taggedLibrary_keysUnique (name key : Text) : (taggedLibrary name key).TagKeysUnique := by
  intro t ht t' ht' _ _
  exact (List.mem_singleton.mp ht).trans (List.mem_singleton.mp ht').symm

/-- Its tag is found under no other key. -/
theorem not_listsTagged {sql : Sql} {u : Unicode} {spelling name key : Text}
    (hStrip : strip spelling ≠ []) (hKey : tagNameKey u spelling ≠ key) :
    ¬ ListsTagged sql u (taggedLibrary name key) (oneTag name key) spelling := by
  intro hLists
  obtain ⟨result, hResult, hTotal, -⟩ :=
    hLists 1 50 (by decide) (by decide) (by decide) (by decide)
  have hFilter := @normalizeFilter_tag u spelling 1 50 hStrip (by decide) (by decide) (by decide)
    (by decide)
  unfold MessageService.listMessages at hResult
  rw [hFilter] at hResult
  by_cases hLong : 100 < (tagNameKey u spelling).length
  · rw [if_pos hLong] at hResult
    cases hResult
  · rw [if_neg hLong] at hResult
    obtain rfl := Except.ok.inj hResult
    have hNone : (taggedLibrary name key).db.messages.count
        (MessageService.selects sql (oneTag name key).userId (taggedLibrary name key)
          ⟨none, [tagNameKey u spelling], none, none⟩) = 0 := by
      rw [Table.count_eq_zero]
      intro m _
      rw [selects_tag]
      have hOther : (key == tagNameKey u spelling) = false := by
        rw [beq_eq_false_iff_ne]
        exact fun hEq => hKey hEq.symm
      simp [Organizer.anyTag, taggedLibrary, oneTag, hOther]
    dsimp only at hTotal
    rw [hNone] at hTotal
    have hOne : 0 < (taggedLibrary name key).db.messages.count
        ((taggedLibrary name key).carries (oneTag name key)) := by
      apply Table.count_pos (r := taggedMessage)
      · exact List.mem_singleton.mpr rfl
      · rfl
    omega

/-- A spelling of a tag, by the key `TagService` gives it, lists the messages of the tag in
every library exactly when NFC changes nothing before and after casefolding it. -/
theorem tag_filter_iff (sql : Sql) (u : Unicode) (spelling name key : Text)
    (h : TagService.normalizedNames u (.str spelling) = .ok (name, key)) :
    (∀ (s : Organizer) (tag : Tag), s.TagKeysUnique → tag ∈ s.tags → tag.normalizedName = key →
      ListsTagged sql u s tag spelling) ↔
      u.casefold (strip spelling) = u.nfc (u.casefold (u.nfc (strip spelling))) := by
  rw [← (normalizedNames_eq_ok h).2.2.1]
  constructor
  · intro hLists
    by_contra hKey
    exact not_listsTagged (normalizedNames_eq_ok h).1 hKey
      (hLists (taggedLibrary name key) (oneTag name key) (taggedLibrary_keysUnique name key)
        (List.mem_singleton.mpr rfl) rfl)
  · intro hKey s tag hUnique hTag hName
    exact listsTagged_of_key h hKey hUnique hTag hName

/-! ### The tag `ΐ`

Casefolding takes U+0390 apart into U+03B9 U+0308 U+0301, and NFC puts it together again. -/

def iota : Char := Char.ofNat 0x390

def iotaParts : Text := [Char.ofNat 0x3B9, Char.ofNat 0x308, Char.ofNat 0x301]

/-- `casefold` and NFC, on texts of ASCII characters, U+0390 and its parts. -/
def greekUnicode : Unicode where
  isAlnum := Char.isAlphanum
  casefold t := t.flatMap fun c => if c = iota then iotaParts else [c.toLower]
  nfkc := id
  bracketsAccepted _ := true
  upper t := t.map Char.toUpper
  nfc t := if t = iotaParts then [iota] else t
  nfc_nil := rfl

theorem tag_filter_iff_ascii : tagNameKey greekUnicode "Notes".toList = "notes".toList ∧
    ∀ (s : Organizer) (tag : Tag), s.TagKeysUnique → tag ∈ s.tags →
      tag.normalizedName = "notes".toList →
      ListsTagged plainSql greekUnicode s tag "Notes".toList :=
  ⟨by decide +kernel, (tag_filter_iff plainSql greekUnicode "Notes".toList "Notes".toList
    "notes".toList (by decide +kernel)).mpr (by decide +kernel)⟩

/-- The tag is created under the name `ΐ`, and filtering by this very name does not list the
message that carries it. -/
theorem tag_filter_misses :
    TagService.checkCreate greekUnicode 1 (.str [iota]) .none (taggedLibrary [] []) =
      .ok { oneTag [iota] [iota] with id := 0 } ∧
    ¬ ListsTagged plainSql greekUnicode (taggedLibrary [iota] [iota]) (oneTag [iota] [iota])
      [iota] :=
  ⟨by decide +kernel, not_listsTagged (by decide +kernel) (by decide +kernel)⟩

end SavedOrganizer
