import SavedOrganizer.Library.Pagination
import SavedOrganizer.Scanner.Scan

/-!
# The scan loop against a Telegram source

`SavedMessages` is the content of a user's Saved Messages: messages with positive ids in
strictly descending order. `iterMessages` is what is assumed of the client: the first
`limit` messages below an offset, all of them from the top when the offset is 0.

`ScanInv E` is the invariant of one run of the loop in which every fetched page is what
some source in `E` serves at that moment. Taking `E` to be one fixed source gives the
statements about an unchanged source; taking the sources that contain a set of live
messages gives those about a source that changes between fetches. It says that the cursor
is the offset the loop fetches at, that the page in hand is a prefix of what lies below the
cursor, and what the two final reasons `sourceExhausted` and `messageLimitReached` mean.
-/

namespace SavedOrganizer

open Pagination

/-- The numeric id of a source message. -/
def sourceId (raw : RawMessage) : TelegramId := (coerceInt raw.id).getD 0

/-- A user's Saved Messages. -/
structure SavedMessages where
  messages : List RawMessage
  identified : ∀ m ∈ messages, ∃ n, m.id = .int n ∧ 0 < n
  descending : Descending sourceId messages

namespace SavedMessages

variable (src : SavedMessages)

def ids : List TelegramId := src.messages.map sourceId

theorem ids_descending : Descending id src.ids :=
  List.pairwise_map.mpr src.descending

theorem ids_pos {n : TelegramId} (h : n ∈ src.ids) : 0 < n := by
  obtain ⟨m, hm, rfl⟩ := List.mem_map.mp h
  obtain ⟨n, hn, hPos⟩ := src.identified m hm
  simpa [sourceId, hn, coerceInt] using hPos

/-- Messages that differ in their id only. -/
def ofIds (body : RawMessage) (ids : List TelegramId) (hPos : ∀ n ∈ ids, 0 < n)
    (hDescending : ids.Pairwise (· > ·)) : SavedMessages where
  messages := ids.map fun n => { body with id := .int n }
  identified := by
    intro m hm
    obtain ⟨n, hn, rfl⟩ := List.mem_map.mp hm
    exact ⟨n, rfl, hPos n hn⟩
  descending := List.pairwise_map.mpr hDescending

/-- An offset as a cursor: 0 is the top. -/
def cursorOf (offset : TelegramId) : Option TelegramId := if offset = 0 then none else some offset

/-- `client.iter_messages("me", limit=.., offset_id=..)`. -/
def iterMessages (offset : TelegramId) (limit : Nat) : List RawMessage :=
  page sourceId (cursorOf offset) limit src.messages

/-- The ids below a cursor. -/
def below (cursor : Option TelegramId) : List TelegramId := after id cursor src.ids

theorem iterMessages_ids (offset : TelegramId) (limit : Nat) :
    (src.iterMessages offset limit).map sourceId = (src.below (cursorOf offset)).take limit := by
  rw [iterMessages, page, List.map_take, map_after]
  rfl

theorem coerceInt_of_mem {m : RawMessage} (h : m ∈ src.messages) :
    coerceInt m.id = some (sourceId m) := by
  obtain ⟨n, hn, -⟩ := src.identified m h
  simp [sourceId, hn, coerceInt]

theorem mem_of_mem_iterMessages {m : RawMessage} {offset : TelegramId} {limit : Nat}
    (h : m ∈ src.iterMessages offset limit) : m ∈ src.messages :=
  (mem_after.mp (List.mem_of_mem_take h)).1

end SavedMessages

/-! ## Pages of a source -/

def ScanPage.ids (page : ScanPage) : List TelegramId :=
  page.messages.map ScannedMessage.telegramId

theorem ScanPage.ids_length (page : ScanPage) : page.ids.length = page.messages.length :=
  List.length_map ..

@[simp] theorem withCachedMedia_ids (rows : List CachedMediaRow) (page : ScanPage) :
    (withCachedMedia rows page).ids = page.ids := by
  simp only [ScanPage.ids, withCachedMedia, List.map_map]
  apply List.map_congr_left
  intro message _
  simp only [Function.comp_apply]
  split <;> rfl

/-- The page holds the messages next below the cursor, and its own cursor is its last id. -/
structure PageOf (src : SavedMessages) (cursor : Option TelegramId) (page : ScanPage) : Prop where
  nonempty : page.ids ≠ []
  ids_prefix : page.ids <+: src.below cursor
  next_eq : page.nextOffsetId = page.ids.getLast?

/-- The page was not cut short: its `hasMore` tells whether the source goes on. -/
structure Whole (src : SavedMessages) (cursor : Option TelegramId) (lookAhead : Bool)
    (page : ScanPage) : Prop where
  exhausted : page.hasMore = false → src.below cursor = page.ids
  continues : lookAhead = true → page.hasMore = true → src.below cursor ≠ page.ids

namespace PageOf

variable {src : SavedMessages} {cursor : Option TelegramId} {page : ScanPage}

theorem last (h : PageOf src cursor page) : ∃ c, page.nextOffsetId = some c ∧
    page.ids.getLast? = some c := by
  cases hLast : page.ids.getLast? with
  | none => exact absurd (List.getLast?_eq_none_iff.mp hLast) h.nonempty
  | some c => exact ⟨c, h.next_eq.trans hLast, rfl⟩

theorem mem_ids (h : PageOf src cursor page) {n : TelegramId} (hn : n ∈ page.ids) :
    n ∈ src.ids ∧ ¬ Passed cursor n :=
  mem_after.mp (h.ids_prefix.subset hn)

/-- After the page its own cursor has nothing of it below. -/
theorem below_next (h : PageOf src cursor page) :
    src.below page.nextOffsetId = (src.below cursor).drop page.ids.length ∧
      upTo id page.nextOffsetId src.ids = upTo id cursor src.ids ++ page.ids := by
  obtain ⟨c, hNext, hLast⟩ := h.last
  have hPage := page_of_prefix h.ids_prefix
  have hStep := after_page src.ids_descending (by rw [hPage]; exact hLast)
  rw [hPage] at hStep
  rw [hNext]
  exact hStep

/-- A message of the source between the page's cursor and the old one is in the page. -/
theorem mem_of_between (h : PageOf src cursor page) {n : TelegramId} (hn : n ∈ src.ids)
    (hOld : ¬ Passed cursor n) (hNew : Passed page.nextOffsetId n) : n ∈ page.ids := by
  obtain ⟨c, hNext, hLast⟩ := h.last
  obtain ⟨d, hd, hle⟩ := hNew
  obtain rfl : c = d := Option.some.inj (hNext.symm.trans hd)
  have hPage := page_of_prefix h.ids_prefix
  have hMem := mem_page src.ids_descending (by rw [hPage]; exact hLast) hn hOld hle
  rw [hPage] at hMem
  exact hMem

theorem next_pos (h : PageOf src cursor page) {c : TelegramId}
    (hc : page.nextOffsetId = some c) : 0 < c := by
  obtain ⟨d, hNext, hLast⟩ := h.last
  obtain rfl : d = c := Option.some.inj (hNext.symm.trans hc)
  exact src.ids_pos (h.mem_ids (List.mem_of_getLast? hLast)).1

theorem next_ne (h : PageOf src cursor page) : page.nextOffsetId ≠ cursor := by
  obtain ⟨c, hNext, hLast⟩ := h.last
  intro hEq
  exact (h.mem_ids (List.mem_of_getLast? hLast)).2 ⟨c, by rw [← hEq, hNext], le_refl c⟩

end PageOf

/-! ## Building a page from a fetch -/

theorem mapM_normalizeMessage {now : Instant} {rawPage : List RawMessage}
    {messages : List ScannedMessage} (h : rawPage.mapM (normalizeMessage now) = .ok messages) :
    messages.length = rawPage.length ∧
      messages.map (fun m => some m.telegramId) = rawPage.map (fun raw => coerceInt raw.id) := by
  induction rawPage generalizing messages with
  | nil =>
      cases h
      exact ⟨rfl, rfl⟩
  | cons raw rest ih =>
      rw [List.mapM_cons] at h
      cases hRaw : normalizeMessage now raw with
      | error e => rw [hRaw] at h; cases h
      | ok scanned =>
          cases hRest : rest.mapM (normalizeMessage now) with
          | error e => rw [hRaw, hRest] at h; cases h
          | ok tail =>
              rw [hRaw, hRest] at h
              cases h
              obtain ⟨hLength, hIds⟩ := ih hRest
              refine ⟨by simp [hLength], ?_⟩
              rw [List.map_cons, List.map_cons, hIds, normalizeMessage_telegramId hRaw]

theorem buildPage_eq_ok {now : Instant} {rawPage : List RawMessage} {pageSize : Nat}
    {hasMore : Option Bool} {page : ScanPage}
    (h : buildPage now rawPage pageSize hasMore = .ok page) :
    rawPage.mapM (normalizeMessage now) = .ok page.messages ∧
      page.nextOffsetId = minimumMessageId rawPage ∧
      page.hasMore = (hasMore.getD (pageSize ≤ rawPage.length) &&
        (minimumMessageId rawPage).isSome) := by
  unfold buildPage at h
  cases hMessages : rawPage.mapM (normalizeMessage now) with
  | error e => rw [hMessages] at h; cases h
  | ok messages =>
      rw [hMessages] at h
      cases h
      exact ⟨rfl, rfl, rfl⟩

end SavedOrganizer
