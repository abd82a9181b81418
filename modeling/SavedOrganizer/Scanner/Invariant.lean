import SavedOrganizer.Scanner.Source

/-!
# The invariant of the scan loop

`ScanInv E st`: in every phase the offset of the next fetch is the cursor of the last
delivered page, a page in hand is a prefix of what some source of `E` has below that
cursor, and the reasons `sourceExhausted` and `messageLimitReached` mean that a source of
`E` has nothing, or something, below the final cursor. `resume_inv` proves it step by step;
the answer of a fetch has to come from a source of `E`, the other answers are arbitrary.

`resume_progress` is the other half of what a step does: only a delivered page moves the
counters and the cursor.
-/

namespace SavedOrganizer

open Pagination SavedMessages

variable {E : SavedMessages → Prop} {src : SavedMessages}

/-! ## A fetched page -/

theorem ids_of_fetch {now : Instant} {offset : TelegramId} {limit capacity : Nat}
    {messages : List ScannedMessage}
    (h : ((src.iterMessages offset limit).take capacity).mapM (normalizeMessage now) =
      .ok messages) :
    messages.map ScannedMessage.telegramId =
      ((src.below (cursorOf offset)).take limit).take capacity := by
  obtain ⟨-, hIds⟩ := mapM_normalizeMessage h
  have hCoerce : ((src.iterMessages offset limit).take capacity).map
      (fun raw => coerceInt raw.id) =
      (((src.iterMessages offset limit).take capacity).map sourceId).map some := by
    rw [List.map_map]
    apply List.map_congr_left
    intro raw hRaw
    exact src.coerceInt_of_mem (src.mem_of_mem_iterMessages (List.mem_of_mem_take hRaw))
  rw [hCoerce] at hIds
  have hSome : (messages.map ScannedMessage.telegramId).map some =
      (((src.iterMessages offset limit).take capacity).map sourceId).map some := by
    rw [List.map_map]
    exact hIds
  have hMap := List.map_injective_iff.mpr (fun _ _ h => Option.some.inj h) hSome
  rw [hMap, List.map_take, iterMessages_ids]

theorem minimumMessageId_of_fetch {offset : TelegramId} {limit capacity : Nat} :
    minimumMessageId ((src.iterMessages offset limit).take capacity) =
      (((src.below (cursorOf offset)).take limit).take capacity).getLast? := by
  have hMap : ((src.iterMessages offset limit).take capacity).filterMap
      (fun raw => coerceInt raw.id) =
      ((src.iterMessages offset limit).take capacity).map sourceId := by
    rw [← List.filterMap_eq_map]
    apply List.filterMap_congr
    intro raw hRaw
    exact src.coerceInt_of_mem (src.mem_of_mem_iterMessages (List.mem_of_mem_take hRaw))
  rw [minimumMessageId, hMap, List.map_take, iterMessages_ids]
  apply min?_eq_getLast?
  exact (src.ids_descending.after _).sublist
    ((List.take_sublist _ _).trans (List.take_sublist _ _))

/-- The page built from a fetch holds the messages next below the offset, and `hasMore`
says whether the source goes on. -/
theorem pageOf_fetch {st : ScanState} {now : Instant} {page : ScanPage}
    (hCapacity : 0 < st.pageCapacity)
    (hSome : src.iterMessages st.previousOffsetId st.fetchLimit ≠ [])
    (h : buildPage now
      ((src.iterMessages st.previousOffsetId st.fetchLimit).take st.pageCapacity)
      st.pageCapacity
      (some (st.hasMore st.pageCapacity
        (src.iterMessages st.previousOffsetId st.fetchLimit))) = .ok page) :
    PageOf src (cursorOf st.previousOffsetId) page ∧
      Whole src (cursorOf st.previousOffsetId) st.options.maxMessages.isSome page ∧
      page.messages.length ≤ st.pageCapacity := by
  obtain ⟨hMessages, hNext, hMore⟩ := buildPage_eq_ok h
  have hIds : page.ids = ((src.below (cursorOf st.previousOffsetId)).take st.fetchLimit).take
      st.pageCapacity := ids_of_fetch hMessages
  have hLimit : st.pageCapacity ≤ st.fetchLimit := by
    unfold ScanState.fetchLimit
    split <;> omega
  have hRawLength : (src.iterMessages st.previousOffsetId st.fetchLimit).length =
      ((src.below (cursorOf st.previousOffsetId)).take st.fetchLimit).length := by
    rw [← iterMessages_ids, List.length_map]
  rw [List.take_take, Nat.min_eq_left hLimit] at hIds
  have hBelow : src.below (cursorOf st.previousOffsetId) ≠ [] := by
    intro hNil
    rw [hNil, List.take_nil, List.length_nil] at hRawLength
    exact hSome (List.length_eq_zero_iff.mp hRawLength)
  have hNonempty : page.ids ≠ [] := by
    intro hNil
    rw [hIds, List.take_eq_nil_iff] at hNil
    rcases hNil with hNil | hNil
    · omega
    · exact hBelow hNil
  have hNextEq : page.nextOffsetId = page.ids.getLast? := by
    rw [hNext, minimumMessageId_of_fetch, List.take_take, Nat.min_eq_left hLimit, hIds]
  have hIsSome : (minimumMessageId
      ((src.iterMessages st.previousOffsetId st.fetchLimit).take st.pageCapacity)).isSome =
      true := by
    rw [← hNext, hNextEq, List.getLast?_isSome]
    exact hNonempty
  rw [Option.getD_some, hIsSome, Bool.and_true] at hMore
  refine ⟨⟨hNonempty, ?_, hNextEq⟩, ⟨?_, ?_⟩, ?_⟩
  · rw [hIds]
    exact List.take_prefix _ _
  · intro hFalse
    have hShort : (src.below (cursorOf st.previousOffsetId)).length ≤ st.pageCapacity := by
      rw [hFalse] at hMore
      unfold ScanState.hasMore at hMore
      rw [hRawLength, List.length_take] at hMore
      unfold ScanState.fetchLimit at hMore
      split at hMore
      · rw [false_eq_decide_iff] at hMore
        omega
      · rw [false_eq_decide_iff] at hMore
        omega
    rw [hIds, List.take_of_length_le hShort]
  · intro hLookAhead hTrue hEq
    rw [hTrue] at hMore
    unfold ScanState.hasMore at hMore
    rw [if_pos hLookAhead, hRawLength, List.length_take, eq_comm, decide_eq_true_eq] at hMore
    have hLength := congrArg List.length hEq
    rw [hIds, List.length_take] at hLength
    omega
  · rw [← page.ids_length, hIds, List.length_take]
    exact Nat.min_le_left _ _

/-- What the deadline cuts off a page is a prefix of it with its own cursor. -/
theorem pageOf_deadlinePage {cursor : Option TelegramId} {page : ScanPage}
    (h : PageOf src cursor page) {processed : List ScannedMessage}
    (hPrefix : processed.map ScannedMessage.telegramId <+: page.ids) (hSome : processed ≠ []) :
    PageOf src cursor (deadlinePage processed) := by
  have hBelow : (deadlinePage processed).ids <+: src.below cursor :=
    hPrefix.trans h.ids_prefix
  refine ⟨?_, hBelow, ?_⟩
  · simpa [ScanPage.ids, deadlinePage] using hSome
  · exact min?_eq_getLast? ((src.ids_descending.after cursor).sublist hBelow.sublist)

/-! ## The invariant -/

/-- The cursor of the last delivered page. -/
def ScanState.cursor (st : ScanState) : Option TelegramId := st.progress.lastMessageId

/-- The next fetch is at the cursor. -/
def Aligned (st : ScanState) : Prop := cursorOf st.previousOffsetId = st.cursor

/-- The page in hand, cut short or not. -/
def Held (E : SavedMessages → Prop) (st : ScanState) (page : ScanPage) (whole : Prop) : Prop :=
  page.messages.length ≤ st.pageCapacity ∧
    ∃ src, E src ∧ PageOf src st.cursor page ∧
      (whole → Whole src st.cursor st.options.maxMessages.isSome page)

/-- What holds of the state in its phase. -/
def PhaseInv (E : SavedMessages → Prop) (st : ScanState) : ScanPhase → Prop
  | .polling => Aligned st ∧
      (st.progress.messagesScanned = 0 ∨ st.options.maxMessages = none ∨
        ∃ src, E src ∧ src.below st.cursor ≠ [])
  | .fetching capacity limit => Aligned st ∧ 0 < capacity ∧ capacity = st.pageCapacity ∧
      limit = st.fetchLimit
  | .loading rawPage page => Aligned st ∧ rawPage.length = page.messages.length ∧
      Held E st page True
  | .caching rawPage page _ => Aligned st ∧ rawPage.length = page.messages.length ∧
      Held E st page True
  | .delivering page reached => Aligned st ∧ Held E st page (reached = false)
  | .returned .sourceExhausted => ∃ src, E src ∧ src.below st.cursor = []
  | .returned .messageLimitReached =>
      st.options.maxMessages = some st.progress.messagesScanned ∧
        ∃ src, E src ∧ src.below st.cursor ≠ []
  | .returned _ => True
  | .raised => True

/-- The options are valid and the message quota is kept. -/
structure WithinQuota (st : ScanState) : Prop where
  valid : st.options.valid = true
  quota : ∀ n, st.options.maxMessages = some n → st.progress.messagesScanned ≤ n

structure ScanInv (E : SavedMessages → Prop) (st : ScanState) : Prop extends WithinQuota st where
  phase : PhaseInv E st st.phase

/-- A fetched page comes from a source of `E`. -/
def Truthful (E : SavedMessages → Prop) (st : ScanState) : Answer → Prop
  | .fetched _ _ rawPage => ∀ capacity limit, st.phase = .fetching capacity limit →
      ∃ src, E src ∧ rawPage = src.iterMessages st.previousOffsetId limit
  | _ => True

theorem beginScan_inv {options : ScanOptions} (clock : Nat) (hValid : options.valid = true)
    (hStart : options.startOffsetId ≠ some 0) : ScanInv E (beginScan options clock) := by
  refine ⟨⟨hValid, fun n _ => Nat.zero_le n⟩, ?_, Or.inl rfl⟩
  unfold Aligned ScanState.cursor beginScan cursorOf
  dsimp only
  cases hOffset : options.startOffsetId with
  | none => rfl
  | some n =>
      have hn : n ≠ 0 := fun h => hStart (by rw [hOffset, h])
      simp [hn]

/-! ## One step keeps it -/

theorem WithinQuota.elapse {st : ScanState} (h : WithinQuota st) (d : Nat) :
    WithinQuota (st.elapse d) :=
  ⟨h.valid, h.quota⟩

theorem WithinQuota.fail {st : ScanState} (h : WithinQuota st) : ScanInv E st.fail :=
  ⟨⟨h.valid, h.quota⟩, trivial⟩

/-- The loop ends with `reason` where the state bears the reason out. -/
theorem WithinQuota.finish {st : ScanState} (h : WithinQuota st) {reason : ScanReason}
    (hReason : PhaseInv E st (.returned reason)) : ScanInv E (st.finish reason) := by
  refine ⟨⟨h.valid, h.quota⟩, ?_⟩
  cases reason <;> exact hReason

theorem afterPoll_inv {st : ScanState} (h : WithinQuota st) (hPhase : PhaseInv E st .polling)
    (requested : Bool) : ScanInv E (st.afterPoll requested) := by
  obtain ⟨hAligned, hRest⟩ := hPhase
  unfold ScanState.afterPoll
  split
  · exact ⟨⟨h.valid, h.quota⟩, trivial⟩
  split
  · rename_i hLimit
    obtain ⟨n, hn, hle⟩ := (Option.any_eq_true _ _).mp hLimit
    have hEq : st.progress.messagesScanned = n :=
      Nat.le_antisymm (h.quota n hn) (of_decide_eq_true hle)
    have hPos : 0 < n := by
      have hValid := h.valid
      simp only [ScanOptions.valid, hn, Option.all_some, Bool.and_eq_true,
        decide_eq_true_eq] at hValid
      exact hValid.1.1.1.2
    refine h.finish ⟨by rw [hn, hEq], ?_⟩
    rcases hRest with hZero | hNone | hSome
    · omega
    · rw [hNone] at hn
      cases hn
    · exact hSome
  split
  · exact h.finish trivial
  split
  · exact h.finish trivial
  · rename_i hLimit _ _
    refine ⟨⟨h.valid, h.quota⟩, hAligned, ?_, rfl, rfl⟩
    have hValid := h.valid
    simp only [ScanOptions.valid, Bool.and_eq_true, decide_eq_true_eq] at hValid
    unfold ScanState.pageCapacity
    split
    · exact hValid.1.1.1.1
    · rename_i n hn
      have hLt : ¬ n ≤ st.progress.messagesScanned := by simpa [hn] using hLimit
      have hPage := hValid.1.1.1.1
      omega

theorem afterFetch_inv {st : ScanState} (h : WithinQuota st) {capacity limit : Nat}
    (hPhase : PhaseInv E st (.fetching capacity limit)) {rawPage : List RawMessage}
    (hRaw : ∃ src, E src ∧ rawPage = src.iterMessages st.previousOffsetId limit)
    (now : Instant) : ScanInv E (st.afterFetch capacity now rawPage) := by
  obtain ⟨hAligned, hPos, rfl, rfl⟩ := hPhase
  obtain ⟨src, hE, rfl⟩ := hRaw
  unfold ScanState.afterFetch
  split
  · rename_i hEmpty
    refine h.finish ⟨src, hE, ?_⟩
    have hIds := src.iterMessages_ids st.previousOffsetId st.fetchLimit
    rw [List.isEmpty_iff.mp hEmpty, hAligned, List.map_nil, eq_comm, List.take_eq_nil_iff] at hIds
    have hLimit : st.fetchLimit ≠ 0 := by
      unfold ScanState.fetchLimit
      split <;> omega
    exact hIds.resolve_left hLimit
  · rename_i hSome
    split
    · exact h.fail
    · rename_i page hBuild
      obtain ⟨hPage, hWhole, hLength⟩ := pageOf_fetch hPos
        (fun hNil => hSome (List.isEmpty_iff.mpr hNil)) hBuild
      rw [show cursorOf st.previousOffsetId = st.cursor from hAligned] at hPage hWhole
      split
      · exact h.finish trivial
      · have hMessages := (mapM_normalizeMessage (buildPage_eq_ok hBuild).1).1
        exact ⟨⟨h.valid, h.quota⟩, hAligned, hMessages.symm, hLength, src, hE, hPage,
          fun _ => hWhole⟩

/-- After a delivered page: `cursor` is the one the page was fetched at. -/
theorem afterPage_inv {st : ScanState} (h : WithinQuota st) {page : ScanPage} {reached : Bool}
    {cursor : Option TelegramId} (hOffset : cursorOf st.previousOffsetId = cursor)
    (hCursor : st.cursor = page.nextOffsetId) (hE : E src) (hPage : PageOf src cursor page)
    (hWhole : reached = false → Whole src cursor st.options.maxMessages.isSome page) :
    ScanInv E (st.afterPage page reached) := by
  unfold ScanState.afterPage
  split
  · exact h.finish trivial
  · rename_i hReached
    rw [Bool.not_eq_true] at hReached
    have hWhole := hWhole hReached
    have hBelow := hPage.below_next.1
    obtain ⟨next, hNext, -⟩ := hPage.last
    simp only [hNext]
    split
    · rename_i hMore
      rw [Bool.not_eq_true'] at hMore
      refine h.finish ⟨src, hE, ?_⟩
      rw [hCursor, hBelow, hWhole.exhausted hMore, List.drop_length]
    split
    · rename_i hEq
      have hPos := hPage.next_pos hNext
      exfalso
      apply hPage.next_ne
      rw [hNext, ← hOffset, hEq, cursorOf, if_neg (by rw [← hEq]; exact ne_of_gt hPos)]
    · rename_i hMore hNe
      rw [Bool.not_eq_true', Bool.not_eq_false] at hMore
      have hPos := hPage.next_pos hNext
      refine ⟨⟨h.valid, h.quota⟩, ?_, ?_⟩
      · show cursorOf next = st.cursor
        rw [hCursor, hNext, cursorOf, if_neg (ne_of_gt hPos)]
      · cases hMax : st.options.maxMessages with
        | none => exact Or.inr (Or.inl rfl)
        | some n =>
            refine Or.inr (Or.inr ⟨src, hE, ?_⟩)
            intro hNil
            have hNil : src.below st.cursor = [] := hNil
            rw [hCursor, hBelow, List.drop_eq_nil_iff] at hNil
            refine hWhole.continues (by rw [hMax]; rfl) hMore ?_
            exact (List.IsPrefix.eq_of_length_le hPage.ids_prefix hNil).symm

theorem afterPreviews_inv {st : ScanState} (h : WithinQuota st) (hAligned : Aligned st)
    {page : ScanPage} {reached : Bool}
    (hHeld : page.messages ≠ [] → Held E st page (reached = false))
    (hReached : page.messages = [] → reached = true) :
    ScanInv E (st.afterPreviews page reached) := by
  unfold ScanState.afterPreviews
  split
  · rename_i hEmpty
    rw [List.isEmpty_iff] at hEmpty
    rw [ScanState.afterPage, if_pos (hReached hEmpty)]
    exact h.finish trivial
  · rename_i hSome
    exact ⟨⟨h.valid, h.quota⟩, hAligned, hHeld (fun hNil => hSome (List.isEmpty_iff.mpr hNil))⟩

theorem messages_ne_nil {cursor : Option TelegramId} {page : ScanPage}
    (h : PageOf src cursor page) : page.messages ≠ [] := by
  intro hNil
  exact h.nonempty (by rw [ScanPage.ids, hNil, List.map_nil])

theorem afterLoad_inv {st : ScanState} (h : WithinQuota st) {rawPage : List RawMessage}
    {page : ScanPage} (hAligned : Aligned st) (hLength : rawPage.length = page.messages.length)
    (hHeld : Held E st page True) : ScanInv E (st.afterLoad rawPage page) := by
  unfold ScanState.afterLoad
  split
  · obtain ⟨hCapacity, src, hE, hPage, hWhole⟩ := hHeld
    exact afterPreviews_inv h hAligned
      (fun _ => ⟨hCapacity, src, hE, hPage, fun _ => hWhole trivial⟩)
      (fun hNil => absurd hNil (messages_ne_nil hPage))
  · exact ⟨⟨h.valid, h.quota⟩, hAligned, hLength, hHeld⟩

theorem held_withCachedMedia {st : ScanState} {page : ScanPage} {whole : Prop}
    (rows : List CachedMediaRow) (h : Held E st page whole) :
    Held E st (withCachedMedia rows page) whole := by
  obtain ⟨hCapacity, src, hE, hPage, hWhole⟩ := h
  have hIds := withCachedMedia_ids rows page
  refine ⟨?_, src, hE, ⟨?_, ?_, ?_⟩, fun hw => ⟨?_, ?_⟩⟩
  · rw [← ScanPage.ids_length, hIds, ScanPage.ids_length]
    exact hCapacity
  · rw [hIds]
    exact hPage.nonempty
  · rw [hIds]
    exact hPage.ids_prefix
  · rw [hIds]
    exact hPage.next_eq
  · rw [hIds]
    exact (hWhole hw).exhausted
  · rw [hIds]
    exact (hWhole hw).continues

/-- The downloads leave a page of the same source, cut short or whole. -/
theorem held_cacheMediaPreviews {st : ScanState}
    {downloadMedia : RawMessage → Option ThumbnailSelector → Download}
    {rawPage : List RawMessage} {page cached : ScanPage} {maxBytes clock clock' : Nat}
    {deadline : Option Nat} {reached : Bool}
    (hLength : rawPage.length = page.messages.length) (hHeld : Held E st page True)
    (h : cacheMediaPreviews downloadMedia rawPage page maxBytes deadline clock =
      some (cached, reached, clock')) :
    (cached.messages ≠ [] → Held E st cached (reached = false)) ∧
      (cached.messages = [] → reached = true) := by
  obtain ⟨hCapacity, src, hE, hPage, hWhole⟩ := hHeld
  obtain ⟨⟨messages, r, c⟩, hEnrich, hEq⟩ := Option.map_eq_some_iff.mp h
  obtain ⟨hPrefix, hAll⟩ := enrichMessages_ids hEnrich
  have hZip : (rawPage.zip page.messages).map (fun pair => pair.2.telegramId) = page.ids := by
    rw [show (fun pair : RawMessage × ScannedMessage => pair.2.telegramId) =
      ScannedMessage.telegramId ∘ Prod.snd from rfl, ← List.map_map,
      List.map_snd_zip (by omega)]
    rfl
  rw [hZip] at hPrefix hAll
  cases r with
  | true =>
      cases hEq
      refine ⟨fun hSome => ⟨?_, src, hE, pageOf_deadlinePage hPage hPrefix hSome,
        fun hFalse => by cases hFalse⟩, fun _ => rfl⟩
      have hLe := hPrefix.length_le
      rw [List.length_map, ScanPage.ids_length] at hLe
      exact hLe.trans hCapacity
  | false =>
      cases hEq
      have hIds : ({ page with messages := messages } : ScanPage).ids = page.ids := hAll rfl
      have hPage' : PageOf src st.cursor { page with messages := messages } :=
        ⟨hIds ▸ hPage.nonempty, hIds ▸ hPage.ids_prefix, hIds ▸ hPage.next_eq⟩
      have hWhole' := hWhole trivial
      refine ⟨fun _ => ⟨?_, src, hE, hPage', fun _ => ⟨?_, ?_⟩⟩,
        fun hNil => absurd hNil (messages_ne_nil hPage')⟩
      · rw [← ScanPage.ids_length, hIds, ScanPage.ids_length]
        exact hCapacity
      · rw [hIds]
        exact hWhole'.exhausted
      · rw [hIds]
        exact hWhole'.continues

theorem resume_inv {st st' : ScanState} {answer : Answer} (h : resume st answer = some st')
    (hInv : ScanInv E st) (hTruth : Truthful E st answer) : ScanInv E st' := by
  have hPhase := hInv.phase
  have hWithin := hInv.toWithinQuota
  unfold resume at h
  split at h
  -- should_stop
  · rename_i d requested hAt
    cases h
    rw [hAt] at hPhase
    exact afterPoll_inv (hWithin.elapse d) hPhase requested
  · cases h
    exact (hWithin.elapse _).fail
  · cases h
    exact (hWithin.elapse _).fail
  -- _fetch_page
  · rename_i capacity limit d now rawPage hAt
    rw [hAt] at hPhase
    split at h
    · cases h
      exact afterFetch_inv (hWithin.elapse d) hPhase (hTruth capacity limit hAt) now
    · cases h
      exact (hWithin.elapse d).finish trivial
  · cases h
    exact (hWithin.elapse _).finish trivial
  · split at h
    · cases h
      exact (hWithin.elapse _).fail
    · cases h
      exact (hWithin.elapse _).finish trivial
  -- load_cached_media
  · rename_i rawPage page d rows hAt
    rw [hAt] at hPhase
    obtain ⟨hAligned, hLength, hHeld⟩ := hPhase
    split at h
    · cases h
      refine afterLoad_inv (hWithin.elapse d) hAligned ?_ (held_withCachedMedia rows hHeld)
      simpa [withCachedMedia] using hLength
    · cases h
      exact (hWithin.elapse d).finish trivial
  · cases h
    exact (hWithin.elapse _).finish trivial
  · split at h
    · cases h
      exact (hWithin.elapse _).fail
    · cases h
      exact (hWithin.elapse _).finish trivial
  -- download_media
  · rename_i rawPage page maxBytes downloadMedia hAt
    rw [hAt] at hPhase
    obtain ⟨hAligned, hLength, hHeld⟩ := hPhase
    obtain ⟨⟨cached, reached, clock⟩, hCached, hEq⟩ := Option.map_eq_some_iff.mp h
    cases hEq
    obtain ⟨hKept, hNil⟩ := held_cacheMediaPreviews hLength hHeld hCached
    have hClock : WithinQuota { st with clock := clock } := ⟨hInv.valid, hInv.quota⟩
    exact afterPreviews_inv hClock hAligned hKept hNil
  -- on_page
  · rename_i page reached d hAt
    rw [hAt] at hPhase
    obtain ⟨hAligned, hCapacity, src, hE, hPage, hWhole⟩ := hPhase
    cases h
    have hRecorded : WithinQuota
        { st.elapse d with progress := recordPage st.progress page } := by
      refine ⟨hInv.valid, ?_⟩
      intro n (hn : st.options.maxMessages = some n)
      have hQuota := hInv.quota n hn
      rw [ScanState.pageCapacity, hn] at hCapacity
      have hMin : page.messages.length ≤ n - st.progress.messagesScanned :=
        hCapacity.trans (Nat.min_le_right _ _)
      show st.progress.messagesScanned + page.messages.length ≤ n
      omega
    exact afterPage_inv hRecorded hAligned rfl hE hPage hWhole
  · cases h
    exact (hWithin.elapse _).fail
  · cases h
    exact (hWithin.elapse _).fail
  · cases h

/-! ## What a step does to the progress -/

/-- The counters and the cursor a client sees. -/
structure SameProgress (st st' : ScanState) : Prop where
  options : st'.options = st.options
  messagesScanned : st'.progress.messagesScanned = st.progress.messagesScanned
  pagesScanned : st'.progress.pagesScanned = st.progress.pagesScanned
  cursor : st'.cursor = st.cursor

section Progress

variable (st : ScanState)

theorem finish_progress (reason : ScanReason) : SameProgress st (st.finish reason) :=
  ⟨rfl, rfl, rfl, rfl⟩

theorem fail_progress : SameProgress st st.fail := ⟨rfl, rfl, rfl, rfl⟩

theorem afterPoll_progress (requested : Bool) : SameProgress st (st.afterPoll requested) := by
  unfold ScanState.afterPoll
  repeat' split
  all_goals exact ⟨rfl, rfl, rfl, rfl⟩

theorem afterFetch_progress (capacity : Nat) (now : Instant) (rawPage : List RawMessage) :
    SameProgress st (st.afterFetch capacity now rawPage) := by
  unfold ScanState.afterFetch
  repeat' split
  all_goals exact ⟨rfl, rfl, rfl, rfl⟩

theorem afterPage_progress (page : ScanPage) (reached : Bool) :
    SameProgress st (st.afterPage page reached) := by
  unfold ScanState.afterPage
  repeat' split
  all_goals exact ⟨rfl, rfl, rfl, rfl⟩

theorem afterPreviews_progress (page : ScanPage) (reached : Bool) :
    SameProgress st (st.afterPreviews page reached) := by
  unfold ScanState.afterPreviews
  split
  · exact afterPage_progress st page reached
  · exact ⟨rfl, rfl, rfl, rfl⟩

theorem afterLoad_progress (rawPage : List RawMessage) (page : ScanPage) :
    SameProgress st (st.afterLoad rawPage page) := by
  unfold ScanState.afterLoad
  split
  · exact afterPreviews_progress st page false
  · exact ⟨rfl, rfl, rfl, rfl⟩

end Progress

theorem SameProgress.of_elapse {st st' : ScanState} {d : Nat}
    (h : SameProgress (st.elapse d) st') : SameProgress st st' :=
  ⟨h.options, h.messagesScanned, h.pagesScanned, h.cursor⟩

theorem deliveredPage_eq_some {st : ScanState} {answer : Answer} {page : ScanPage}
    (h : deliveredPage st answer = some page) : ∃ reached, st.phase = .delivering page reached := by
  unfold deliveredPage at h
  split at h
  · split at h
    · rename_i hAt
      cases h
      exact ⟨_, hAt⟩
    · cases h
  · cases h

/-- Only a delivered page moves the counters and the cursor. -/
theorem resume_progress {st st' : ScanState} {answer : Answer}
    (h : resume st answer = some st') :
    match deliveredPage st answer with
    | none => SameProgress st st'
    | some page => st'.options = st.options ∧
        st'.progress.messagesScanned = st.progress.messagesScanned + page.messages.length ∧
        st'.progress.pagesScanned = st.progress.pagesScanned + 1 ∧
        st'.cursor = page.nextOffsetId := by
  unfold resume at h
  split at h
  -- should_stop
  · cases h
    exact (afterPoll_progress _ _).of_elapse
  · cases h
    exact (fail_progress _).of_elapse
  · cases h
    exact (fail_progress _).of_elapse
  -- _fetch_page
  · split at h <;> cases h
    · exact (afterFetch_progress _ _ _ _).of_elapse
    · exact (finish_progress _ _).of_elapse
  · cases h
    exact (finish_progress _ _).of_elapse
  · split at h <;> cases h
    · exact (fail_progress _).of_elapse
    · exact (finish_progress _ _).of_elapse
  -- load_cached_media
  · split at h <;> cases h
    · exact (afterLoad_progress _ _ _).of_elapse
    · exact (finish_progress _ _).of_elapse
  · cases h
    exact (finish_progress _ _).of_elapse
  · split at h <;> cases h
    · exact (fail_progress _).of_elapse
    · exact (finish_progress _ _).of_elapse
  -- download_media
  · obtain ⟨⟨cached, reached, clock⟩, -, hEq⟩ := Option.map_eq_some_iff.mp h
    cases hEq
    have hSame := afterPreviews_progress { st with clock := clock } cached reached
    exact ⟨hSame.options, hSame.messagesScanned, hSame.pagesScanned, hSame.cursor⟩
  -- on_page
  · rename_i page reached d hAt
    cases h
    have hSame := afterPage_progress
      { st.elapse d with progress := recordPage st.progress page } page reached
    simp only [deliveredPage, hAt]
    exact ⟨hSame.options, hSame.messagesScanned, hSame.pagesScanned, hSame.cursor⟩
  · cases h
    exact (fail_progress _).of_elapse
  · cases h
    exact (fail_progress _).of_elapse
  · cases h

end SavedOrganizer
