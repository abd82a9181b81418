import SavedOrganizer.Categories.Filing
import SavedOrganizer.Messages.Service

/-!
# The pages of the library

`list_messages` counts in one query and selects each page in another, with a join that only
the order by category has. Every order ends with the id, so a page does not depend on how the
database orders equal rows (`listsPage_iff`). No message is without its category, so the join
drops nothing, and the pages together are the messages that the filters select, each once.
Page numbers end at `MAX_PAGE_NUMBER`, and a library may have more pages
(`pages_partition_iff`).
-/

namespace SavedOrganizer

open MessageService

/-- The foreign key of a message to its category. -/
def Organizer.CategoriesExist (s : Organizer) : Prop :=
  ∀ m ∈ s.db.messages, ∃ c ∈ s.db.categories, c.userId = m.userId ∧ c.id = m.categoryId

/-- What `list_messages` may return, as the database orders equal rows. -/
def ListsPage (sql : Sql) (u : Unicode) (userId : UserId) (s : Organizer) (args : ListArguments)
    (result : MessageListResult) : Prop :=
  ∃ filter rows, normalizeFilter u args = .ok filter ∧
    s.db.messages.Answer (fun m => selects sql userId s filter m && joins s args.sort m)
      (ordering sql s args.sort) rows ∧
    result =
      { items := ((rows.drop ((args.page - 1) * args.perPage).toNat).take
          args.perPage.toNat).map s.view
        total := s.db.messages.count (selects sql userId s filter)
        page := args.page
        perPage := args.perPage }

/-- The arguments for the `n`-th page, from 0. -/
def ListArguments.nth (args : ListArguments) (n : Nat) : ListArguments :=
  { args with page := n + 1 }

@[simp] theorem nth_perPage (args : ListArguments) (n : Nat) :
    (args.nth n).perPage = args.perPage := rfl

@[simp] theorem nth_sort (args : ListArguments) (n : Nat) : (args.nth n).sort = args.sort := rfl

/-- The messages on the first `k` pages. -/
def listedMessages (k : Nat) (results : Nat → MessageListResult) : List Message :=
  (List.range k).flatMap fun n => (results n).items.map MessageView.message

/-- The first `k` pages list what the filters select, once and in order. -/
structure PagesPartition (sql : Sql) (userId : UserId) (s : Organizer) (filter : MessageFilter)
    (sort : MessageSort) (k : Nat) (results : Nat → MessageListResult) : Prop where
  once : (listedMessages k results).Nodup
  complete : ∀ m, m ∈ listedMessages k results ↔
    m ∈ s.db.messages ∧ selects sql userId s filter m = true
  sorted : (listedMessages k results).Pairwise fun m m' => (ordering sql s sort).le m m' = true
  total : ∀ n < k, (results n).total = (listedMessages k results).length

section

variable {sql : Sql} {u : Unicode} {userId : UserId} {s : Organizer} {args : ListArguments}
  {filter : MessageFilter} {result : MessageListResult} {m : Message} {n : Nat}

/-- The database has no choice. -/
theorem listsPage_iff :
    ListsPage sql u userId s args result ↔ listMessages sql u userId s args = .ok result := by
  unfold ListsPage listMessages
  constructor
  · rintro ⟨filter, rows, hFilter, hAnswer, rfl⟩
    rw [hFilter, hAnswer.eq_select (decides_ordering sql s args.sort)]
  · intro h
    split at h
    · cases h
    · rename_i filter hFilter
      obtain rfl := Except.ok.inj h
      exact ⟨filter, _, hFilter, Table.answer_select _ _ _, rfl⟩

/-! ## Which pages there are -/

/-- Once the first page is accepted, the others are up to the last number. -/
theorem normalizeFilter_nth (h : normalizeFilter u (args.nth 0) = .ok filter) :
    normalizeFilter u (args.nth n) =
      if (n + 1 : Int) ≤ MAX_PAGE_NUMBER then .ok filter
      else .error (.value ("page must not exceed " ++ toString MAX_PAGE_NUMBER ++ ".")) := by
  unfold normalizeFilter ListArguments.nth at h ⊢
  dsimp only at h ⊢
  have hPositive : ¬ ((n : Int) + 1 ≤ 0) := by omega
  rw [if_neg (by decide), if_neg (by decide)] at h
  rw [if_neg hPositive]
  by_cases hLast : (n + 1 : Int) ≤ MAX_PAGE_NUMBER
  · rw [if_neg (Int.not_lt.mpr hLast), if_pos hLast]
    exact h
  · rw [if_pos (Int.not_le.mp hLast), if_neg hLast]

/-- The checks of the first page hold `per_page` between its bounds. -/
theorem perPage_bounds (h : normalizeFilter u args = .ok filter) :
    0 < args.perPage ∧ args.perPage ≤ 200 := by
  unfold normalizeFilter at h
  dsimp only at h
  split at h
  · cases h
  split at h
  · cases h
  split at h
  · cases h
  split at h
  · cases h
  · omega

theorem offset_nth (hPer : 0 < args.perPage) :
    (((args.nth n).page - 1) * (args.nth n).perPage).toNat = n * args.perPage.toNat := by
  obtain ⟨size, hSize⟩ := Int.eq_ofNat_of_zero_le (Int.le_of_lt hPer)
  have hPage : (args.nth n).page - 1 = (n : Int) := by
    simp only [ListArguments.nth]
    omega
  rw [hPage, nth_perPage, hSize, ← Int.natCast_mul, Int.toNat_natCast, Int.toNat_natCast]

/-! ## What is on them -/

theorem categoryOf_isSome (h : s.CategoriesExist) (hm : m ∈ s.db.messages) :
    (s.categoryOf m).isSome = true := by
  obtain ⟨c, hc, hUser, hId⟩ := h m hm
  refine List.find?_isSome.mpr ⟨c, hc, ?_⟩
  simp only [hUser, hId, beq_self_eq_true, Bool.and_self]

/-- The join drops nothing. -/
theorem filter_joins (h : s.CategoriesExist) (p : Message → Bool) (sort : MessageSort) :
    s.db.messages.rows.filter (fun m => p m && joins s sort m) = s.db.messages.rows.filter p := by
  apply List.filter_congr
  intro m hm
  rw [joins, categoryOf_isSome h hm, Bool.or_true, Bool.and_true]

/-- The rows whose pages are listed. -/
theorem listed_rows (hFilter : normalizeFilter u (args.nth 0) = .ok filter)
    (h : ListsPage sql u userId s (args.nth n) result) :
    result.items.map MessageView.message = pageOf (s.db.messages.select
        (fun m => selects sql userId s filter m && joins s args.sort m)
        (ordering sql s args.sort)) args.perPage.toNat n ∧
      result.total = s.db.messages.count (selects sql userId s filter) := by
  have hPer : 0 < args.perPage := (perPage_bounds hFilter).1
  obtain ⟨filter', rows, hFilter', hAnswer, rfl⟩ := h
  rw [normalizeFilter_nth hFilter] at hFilter'
  split at hFilter'
  · obtain rfl := Except.ok.inj hFilter'
    rw [hAnswer.eq_select (decides_ordering sql s _)]
    refine ⟨?_, rfl⟩
    dsimp only
    rw [List.map_map, offset_nth hPer, nth_perPage, nth_sort]
    exact List.map_id _
  · cases hFilter'

theorem pagesPartition_of_lists (hCategories : s.CategoriesExist)
    (hFilter : normalizeFilter u (args.nth 0) = .ok filter) {results : Nat → MessageListResult}
    (hLists : ∀ n < pageCount (s.db.messages.count (selects sql userId s filter)) args.perPage.toNat,
      ListsPage sql u userId s (args.nth n) (results n)) :
    PagesPartition sql userId s filter args.sort
      (pageCount (s.db.messages.count (selects sql userId s filter)) args.perPage.toNat)
      results := by
  let rows := s.db.messages.select
    (fun m => selects sql userId s filter m && joins s args.sort m) (ordering sql s args.sort)
  have hAnswer : s.db.messages.Answer
      (fun m => selects sql userId s filter m && joins s args.sort m) (ordering sql s args.sort)
      rows := Table.answer_select _ _ _
  have hRows : rows.Perm (s.db.messages.rows.filter (selects sql userId s filter)) := by
    rw [← filter_joins hCategories _ args.sort]
    exact hAnswer.selected
  have hCount : s.db.messages.count (selects sql userId s filter) = rows.length := by
    rw [Table.count, List.countP_eq_length_filter, hRows.length_eq]
  have hSize : 0 < args.perPage.toNat := by
    have hPer := (perPage_bounds hFilter).1
    rw [nth_perPage] at hPer
    omega
  have hListed : listedMessages (pageCount (s.db.messages.count (selects sql userId s filter))
      args.perPage.toNat) results = rows := by
    rw [← flatMap_pageCount rows hSize, ← hCount]
    refine List.flatMap_congr fun n hn => ?_
    exact (listed_rows hFilter (hLists n (List.mem_range.mp hn))).1
  refine ⟨?_, fun m => ?_, ?_, fun n hn => ?_⟩
  · rw [hListed]
    exact hRows.nodup_iff.mpr (s.db.messages.nodup_rows.filter _)
  · rw [hListed, hRows.mem_iff, List.mem_filter]
    exact Iff.rfl
  · rw [hListed]
    exact hAnswer.sorted
  · rw [hListed, ← hCount]
    exact (listed_rows hFilter (hLists n hn)).2

end

/-- For filters that are accepted, `list_messages` returns every page exactly when there are
not more pages than page numbers, and pages that it returns partition the filtered library. -/
theorem pages_partition_iff (sql : Sql) (u : Unicode) (userId : UserId) (s : Organizer)
    (args : ListArguments) (filter : MessageFilter) (hCategories : s.CategoriesExist)
    (hFilter : normalizeFilter u (args.nth 0) = .ok filter) :
    let pages := pageCount (s.db.messages.count (selects sql userId s filter)) args.perPage.toNat
    ((∀ n < pages, ∃ result, ListsPage sql u userId s (args.nth n) result) ↔
        (pages : Int) ≤ MAX_PAGE_NUMBER) ∧
      ∀ results, (∀ n < pages, ListsPage sql u userId s (args.nth n) (results n)) →
        PagesPartition sql userId s filter args.sort pages results := by
  intro pages
  refine ⟨⟨fun hReturns => ?_, fun hLast n hn => ?_⟩,
    fun results hLists => pagesPartition_of_lists hCategories hFilter hLists⟩
  · by_contra hMore
    have hPages : pages - 1 < pages := by
      have : (0 : Int) ≤ MAX_PAGE_NUMBER := by decide
      omega
    obtain ⟨result, filter', rows, hFilter', -, -⟩ := hReturns (pages - 1) hPages
    rw [normalizeFilter_nth hFilter, if_neg (by omega)] at hFilter'
    cases hFilter'
  · refine ⟨_, filter, _, ?_, Table.answer_select _ _ _, rfl⟩
    rw [normalizeFilter_nth hFilter, if_pos (by omega)]

/-! ### More messages than page numbers -/

/-- `n` notes in the one category of user 1. -/
def notes (n : Nat) : List Message :=
  (List.range n).map fun i =>
    { id := i, userId := 1, telegramId := i, telegramUserId := none, connectionGeneration := none,
      lastSeenReplacementJobId := none, content := some "note".toList, mediaType := none,
      fileName := none, fileSize := none, mimeType := none, cachedMedia := none,
      cachedMediaMimeType := none, url := none, senderName := none, date := 0, categoryId := 1,
      rawData := [] }

theorem notes_ids (n : Nat) : (notes n).map Message.id = List.range n := by
  rw [notes, List.map_map]
  exact List.map_id _

def notesTable (n : Nat) : Table Message :=
  ⟨notes n, by
    have hIds : (notes n).map (Keyed.key : Message → MessageId) = List.range n := notes_ids n
    rw [hIds]
    exact List.nodup_range⟩

theorem notes_fresh {n : Nat} {m : Message} (hm : m ∈ notesTable n) : m.id < n := by
  have hId : m.id ∈ (notes n).map Message.id := List.mem_map_of_mem hm
  rw [notes_ids] at hId
  exact List.mem_range.mp hId

def noteLibrary (n : Nat) : Organizer where
  db :=
    { connections := .empty
      jobs := .empty
      categories := ⟨[otherCategory], List.nodup_singleton _⟩
      messages := notesTable n
      messageTags := .empty
      nextMessageId := n
      messageIds_fresh := fun m hm => notes_fresh hm }
  tags := .empty
  nextTagId := 1
  nextCategoryId := 2
  tagIds_fresh := noTag_fresh
  categoryIds_fresh := by
    intro c hc
    rw [List.mem_singleton.mp hc]
    exact Nat.lt_succ_self 1

theorem noteLibrary_categoriesExist (n : Nat) : (noteLibrary n).CategoriesExist := by
  intro m hm
  obtain ⟨i, -, rfl⟩ := List.mem_map.mp hm
  exact ⟨otherCategory, List.mem_singleton.mpr rfl, rfl, rfl⟩

theorem count_noteLibrary (sql : Sql) (n : Nat) :
    (noteLibrary n).db.messages.count (selects sql 1 (noteLibrary n) ⟨none, [], none, none⟩) = n := by
  have hAll : ∀ m ∈ notes n, selects sql 1 (noteLibrary n) ⟨none, [], none, none⟩ m = true := by
    intro m hm
    obtain ⟨i, -, rfl⟩ := List.mem_map.mp hm
    rfl
  calc (notes n).countP _ = (notes n).length := List.countP_eq_length.mpr hAll
    _ = n := by rw [notes, List.length_map, List.length_range]

theorem pages_partition_five :
    (∀ n < 3, ∃ result, ListsPage plainSql plainUnicode 1 (noteLibrary 5)
        ({ perPage := 2 : ListArguments }.nth n) result) ∧
      ∀ results, (∀ n < 3, ListsPage plainSql plainUnicode 1 (noteLibrary 5)
          ({ perPage := 2 : ListArguments }.nth n) (results n)) →
        PagesPartition plainSql 1 (noteLibrary 5) ⟨none, [], none, none⟩ .dateDesc 3 results := by
  have hPages := pages_partition_iff plainSql plainUnicode 1 (noteLibrary 5) { perPage := 2 }
    ⟨none, [], none, none⟩ (noteLibrary_categoriesExist 5) (by decide +kernel)
  rw [count_noteLibrary] at hPages
  exact ⟨hPages.1.mpr (by decide), hPages.2⟩

/-- With one message on a page, the last page of 1,000,001 messages has no number. -/
theorem last_page_refused :
    (noteLibrary 1000001).CategoriesExist ∧
    pageCount ((noteLibrary 1000001).db.messages.count
        (selects plainSql 1 (noteLibrary 1000001) ⟨none, [], none, none⟩)) 1 = 1000001 ∧
    ¬ ∃ result, ListsPage plainSql plainUnicode 1 (noteLibrary 1000001)
        ({ perPage := 1 : ListArguments }.nth 1000000) result := by
  refine ⟨noteLibrary_categoriesExist _, by rw [count_noteLibrary]; rfl, ?_⟩
  rintro ⟨result, filter, rows, hFilter, -, -⟩
  cases hFilter

end SavedOrganizer
