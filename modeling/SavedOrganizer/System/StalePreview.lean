import SavedOrganizer.System.PageEffect

/-!
# Previews of edited messages

A fetched page passes `load_cached_media`, `_cache_media_previews` and `_persist_scan_page`.
The first attaches the stored preview to a message by its id, whatever the new version of the
message is; the second leaves a message alone that has one; the third keeps what the message
brings. So the branch of the third that clears the preview of a message without media is never
reached, and a stored preview stays for good (`previews_never_cleared`).
-/

namespace SavedOrganizer

open Python

/-- The version has something to cache: a photo, an image or playable audio. -/
def ScannedMessage.cacheable (scanned : ScannedMessage) : Bool :=
  scanned.mediaType == some "photo".toList ||
    startsWith "image/".toList (normalizedMimeType scanned) ||
    playableAudioMimeTypes.contains (normalizedMimeType scanned)

/-- The page from `load_cached_media` on, with the rows it leaves committed; `none` when a
download never ends. Only a page with messages is handed to `_persist_scan_page`. -/
def previewPipeline (py : Runtime) (now fenceNow : Instant) (lease : ScanLease)
    (downloadMedia : RawMessage → Option ThumbnailSelector → Download) (maxBytes : Nat)
    (deadline : Option Nat) (clock : Nat) (rawPage : List RawMessage) (page : ScanPage)
    (databaseFails : Bool) (db : Database) : Option Database :=
  (cacheMediaPreviews downloadMedia rawPage (withCachedMedia (loadCachedMedia lease page db) page)
    maxBytes deadline clock).map fun (cached, _, _) =>
      if cached.messages.isEmpty then db
      else (commitScanPage py now fenceNow lease cached databaseFails db).2

/-- The row's preview is gone when the new version of its message has nothing to cache. -/
def PreviewFollows (scanned : ScannedMessage) (m : Message) (db : Database) : Prop :=
  scanned.cacheable = false →
    ∀ row ∈ db.messages, row.id = m.id → row.cachedMedia = none ∧ row.cachedMediaMimeType = none

/-- Every version of this message brings a preview. -/
def BringsPreview (telegramId : TelegramId) (messages : List ScannedMessage) : Prop :=
  ∀ s ∈ messages, s.telegramId = telegramId → s.cachedMedia.isSome = true

/-- The row of `m` is there and has a preview. -/
def HasPreview (m : Message) (db : Database) : Prop :=
  ∃ row ∈ db.messages, row.id = m.id ∧ row.cachedMedia.isSome = true

section

variable {py : Runtime} {now fenceNow : Instant} {lease : ScanLease} {page : ScanPage}
  {db db' : Database} {m : Message}

/-- `load_cached_media` attaches the stored preview. -/
theorem bringsPreview_load (hm : m ∈ db.messages) (hOwns : lease.ownsMessage m = true)
    (hCached : m.cachedMedia.isSome = true) :
    BringsPreview m.telegramId
      (withCachedMedia (loadCachedMedia lease page db) page).messages := by
  obtain ⟨media, hMedia⟩ := Option.isSome_iff_exists.mp hCached
  intro s hs hId
  obtain ⟨original, hOriginal, rfl⟩ := List.mem_map.mp hs
  have hSame : original.telegramId = m.telegramId := by
    rw [← hId]
    split <;> rfl
  have hLoaded : ⟨m.telegramId, media, m.cachedMediaMimeType⟩ ∈ loadCachedMedia lease page db := by
    refine List.mem_filterMap.mpr ⟨m, hm, ?_⟩
    have hWanted : (page.messages.any fun r => r.telegramId == m.telegramId) = true :=
      List.any_eq_true.mpr ⟨original, hOriginal, by simp [hSame]⟩
    simp [hOwns, hWanted, hMedia]
  cases hFound : (loadCachedMedia lease page db).reverse.find?
      (fun row => row.telegramId = original.telegramId) with
  | none =>
      have hNot := List.find?_eq_none.mp hFound _ (List.mem_reverse.mpr hLoaded)
      simp [hSame] at hNot
  | some row => simp

/-- `_cache_media_previews` leaves a message with a preview alone. -/
theorem bringsPreview_enrich {downloadMedia : RawMessage → Option ThumbnailSelector → Download}
    {maxBytes clock clock' : Nat} {deadline : Option Nat} {telegramId : TelegramId}
    {pairs : List (RawMessage × ScannedMessage)} {messages : List ScannedMessage}
    {reached : Bool}
    (h : enrichMessages downloadMedia maxBytes deadline clock pairs =
      some (messages, reached, clock'))
    (hBefore : BringsPreview telegramId (pairs.map Prod.snd)) :
    BringsPreview telegramId messages := by
  induction pairs generalizing clock messages with
  | nil =>
      cases h
      simp [BringsPreview]
  | cons pair rest ih =>
      obtain ⟨raw, scanned⟩ := pair
      have hRest : BringsPreview telegramId (rest.map Prod.snd) :=
        fun s hs => hBefore s (List.mem_cons_of_mem _ hs)
      unfold enrichMessages at h
      split at h
      · rename_i message clock₁ hKept
        obtain ⟨⟨kept, r, c⟩, hEnriched, hEq⟩ := Option.map_eq_some_iff.mp h
        cases hEq
        intro s hs hId
        rcases List.mem_cons.mp hs with rfl | hs
        · have hFirst := hBefore scanned List.mem_cons_self
            ((cacheMediaPreview_telegramId hKept).symm.trans hId)
          unfold cacheMediaPreview at hKept
          rw [if_pos hFirst] at hKept
          cases hKept
          exact hFirst
        · exact ih hEnriched hRest s hs hId
      · cases h
        simp [BringsPreview]
      · cases h

/-- A page whose versions of the message bring a preview does not take the row's away. -/
theorem hasPreview_persist (hm : m ∈ db.messages) (hCached : m.cachedMedia.isSome = true)
    (hBrings : BringsPreview m.telegramId page.messages)
    (h : persistScanPage py now fenceNow lease page db = .ok db') : HasPreview m db' := by
  obtain ⟨-, -, -, other, staged, hStaged, rfl⟩ := persistScanPage_eq_ok h
  refine stagePage_induct (P := fun s => HasPreview m s.db) hStaged ⟨m, hm, rfl, hCached⟩ ?_
  rintro current s next hs ⟨row, hRow, hId, hPreview⟩ hStep
  rcases stageMessage_eq_ok hStep with ⟨existing, hStored, rfl⟩ | ⟨categoryId, -, -, rfl⟩
  · refine ⟨_, mem_refreshed.mpr ⟨row, hRow, rfl⟩, ?_, ?_⟩
    · split
      · exact hId
      · exact hId
    · split
      · rename_i hSelected
        obtain ⟨hExisting, -, hSource⟩ := storedMessage_eq_some hStored
        have hIt : existing = m :=
          Table.eq_of_key hExisting hm ((beq_iff_eq.mp hSelected).symm.trans hId)
        have hNew := hBrings s hs (by rw [← hSource, hIt])
        unfold refreshMessage
        simp [hNew]
      · exact hPreview
  · exact ⟨row, Database.mem_insertMessage.mpr (Or.inl hRow), hId, hPreview⟩

theorem hasPreview_commit {databaseFails : Bool} (hm : m ∈ db.messages)
    (hCached : m.cachedMedia.isSome = true)
    (hBrings : BringsPreview m.telegramId page.messages) :
    HasPreview m (commitScanPage py now fenceNow lease page databaseFails db).2 := by
  unfold commitScanPage
  split
  · exact ⟨m, hm, rfl, hCached⟩
  · rename_i hPersisted
    split
    · exact ⟨m, hm, rfl, hCached⟩
    · exact hasPreview_persist hm hCached hBrings hPersisted

end

/-- A row with a stored preview keeps one through the whole pipeline, whatever the new version
of its message is. -/
theorem previews_never_cleared (py : Runtime) (now fenceNow : Instant) (lease : ScanLease)
    (downloadMedia : RawMessage → Option ThumbnailSelector → Download) (maxBytes : Nat)
    (deadline : Option Nat) (clock : Nat) (rawPage : List RawMessage) (page : ScanPage)
    (databaseFails : Bool) (db db' : Database) (m : Message) (scanned : ScannedMessage)
    (hm : m ∈ db.messages) (hOwns : lease.ownsMessage m = true)
    (hCached : m.cachedMedia.isSome = true) (hNew : scanned.cacheable = false)
    (h : previewPipeline py now fenceNow lease downloadMedia maxBytes deadline clock rawPage page
      databaseFails db = some db') : ¬ PreviewFollows scanned m db' := by
  have hKept : HasPreview m db' := by
    obtain ⟨⟨cached, reached, clock'⟩, hCaching, hEq⟩ := Option.map_eq_some_iff.mp h
    obtain ⟨⟨messages, spent, after⟩, hEnriched, hPage⟩ := Option.map_eq_some_iff.mp hCaching
    have hLoaded : BringsPreview m.telegramId
        (withCachedMedia (loadCachedMedia lease page db) page).messages :=
      bringsPreview_load hm hOwns hCached
    have hBrings : BringsPreview m.telegramId cached.messages := by
      have hMessages : cached.messages = messages := by
        dsimp only at hPage
        split at hPage
        · obtain rfl := (Prod.mk.inj hPage).1
          rfl
        · obtain rfl := (Prod.mk.inj hPage).1
          rfl
      rw [hMessages]
      apply bringsPreview_enrich hEnriched
      intro s hs hId
      obtain ⟨⟨raw, s'⟩, hPair, rfl⟩ := List.mem_map.mp hs
      exact hLoaded s' (List.of_mem_zip hPair).2 hId
    dsimp only at hEq
    split at hEq
    · exact hEq ▸ ⟨m, hm, rfl, hCached⟩
    · exact hEq ▸ hasPreview_commit hm hCached hBrings
  intro hFollows
  obtain ⟨row, hRow, hId, hPreview⟩ := hKept
  rw [(hFollows hNew row hRow hId).1] at hPreview
  cases hPreview

/-! ### A photo that has become a text -/

/-- The library with a preview for the message 5. -/
def previewLibrary : Database :=
  { storedLibrary with
    messages := storedLibrary.messages.update (·.id == 1) fun m =>
      { m with cachedMedia := some [1, 2, 3], cachedMediaMimeType := some "image/jpeg".toList }
    messageIds_fresh := by decide +kernel }

def editedPage : ScanPage := ⟨[scannedNote 5], false, some 5⟩

/-- The stored message 5, with its preview. -/
def previewedNote : Message :=
  { importedNote 1 5 with
    cachedMedia := some [1, 2, 3], cachedMediaMimeType := some "image/jpeg".toList }

def editedRaw : RawMessage := { textMessage "note" with id := .int 5 }

def afterEdit : Option Database :=
  previewPipeline demoEnv.py 0 0 runningLease (fun _ _ => .never) 1024 none 0 [editedRaw]
    editedPage false previewLibrary

theorem afterEdit_isSome : afterEdit.isSome = true := by decide +kernel

theorem previews_never_cleared_note :
    ¬ PreviewFollows (scannedNote 5) previewedNote (afterEdit.getD previewLibrary) := by
  refine previews_never_cleared demoEnv.py 0 0 runningLease (fun _ _ => .never) 1024 none 0
    [editedRaw] editedPage false previewLibrary _ previewedNote (scannedNote 5) ?_
    (by decide) rfl (by decide +kernel) ?_
  · exact Table.mem_def.mpr (by decide +kernel)
  · obtain ⟨db', hAfter⟩ := Option.isSome_iff_exists.mp afterEdit_isSome
    have hRun : afterEdit = some (afterEdit.getD previewLibrary) := by
      rw [hAfter, Option.getD_some]
    exact hRun

/-- The page is committed, the message has nothing to cache any more, and the row has the text
of the new version with the preview of the photo. -/
theorem stale_preview_kept :
    (scannedNote 5).cacheable = false ∧ ∃ db, afterEdit = some db ∧
      db.messages.rows.head?.map (fun m => (m.id, m.content, m.cachedMedia)) =
        some (1, some "note".toList, some [1, 2, 3]) ∧
      ¬ PreviewFollows (scannedNote 5) previewedNote db := by
  have hNew : (scannedNote 5).cacheable = false := by decide +kernel
  obtain ⟨db, hAfter⟩ := Option.isSome_iff_exists.mp afterEdit_isSome
  have hRow : (afterEdit.getD previewLibrary).messages.rows.head?.map
      (fun m => (m.id, m.content, m.cachedMedia)) =
      some (1, some "note".toList, some [1, 2, 3]) := by decide +kernel
  rw [hAfter, Option.getD_some] at hRow
  refine ⟨hNew, db, hAfter, hRow, fun hFollows => ?_⟩
  obtain ⟨row, hHead, hColumns⟩ := Option.map_eq_some_iff.mp hRow
  simp only [Prod.mk.injEq] at hColumns
  have hCleared := (hFollows hNew row (List.mem_of_mem_head? hHead) hColumns.1).1
  rw [hCleared] at hColumns
  simp at hColumns

end SavedOrganizer
