import SavedOrganizer.Scanner.Message

/-!
# Pages and media previews

`_build_page` normalizes a fetched page. `_cache_media_previews` then walks over its
messages and downloads a preview for those that have a download plan. A download that
raises is skipped. A `TimeoutError`, and a download that is not over when the slice
deadline less `MEDIA_PERSISTENCE_RESERVE_SECONDS` comes, ends the walk: the page then
holds the messages before that one and the scan returns.

Times are microseconds of the event loop's clock. What a download does is a `Download`;
the client's `download_media` is any function from the message and the thumbnail asked for
to a `Download`.
-/

namespace SavedOrganizer

open Python

/-- `ScanPage`: single scanned page of normalized messages. -/
structure ScanPage where
  messages : List ScannedMessage
  hasMore : Bool
  nextOffsetId : Option TelegramId
  deriving DecidableEq, Repr

/-- `_minimum_message_id`. -/
def minimumMessageId (rawPage : List RawMessage) : Option TelegramId :=
  (rawPage.filterMap (fun raw => coerceInt raw.id)).min?

/-- `_build_page`. -/
def buildPage (now : Instant) (rawPage : List RawMessage) (pageSize : Nat)
    (hasMore : Option Bool) : Except NormalizationError ScanPage :=
  (rawPage.mapM (normalizeMessage now)).map fun messages =>
    let nextOffsetId := minimumMessageId rawPage
    { messages := messages
      hasMore := hasMore.getD (pageSize ≤ rawPage.length) && nextOffsetId.isSome
      nextOffsetId := nextOffsetId }

/-! ## Download plans -/

def renderableImageMimeTypes : List Text :=
  ["image/avif", "image/gif", "image/jpeg", "image/png", "image/webp"].map String.toList

def playableAudioMimeTypes : List Text :=
  ["audio/aac", "audio/flac", "audio/mp4", "audio/mp3", "audio/mpeg", "audio/ogg", "audio/wav",
    "audio/webm", "audio/x-opus+ogg", "audio/x-wav"].map String.toList

/-- `_telegram_media_size`. -/
def telegramMediaSize (thumbnail : Thumbnail) : Option Int :=
  (coerceNonNegativeInt thumbnail.size).or
    (thumbnail.sizes.bind fun sizes => (sizes.filterMap coerceNonNegativeInt).max?)

/-- What a thumbnail is compared by: its area and its estimated size. -/
def thumbnailRank (thumbnail : Thumbnail) : Int × Int :=
  ((coerceNonNegativeInt thumbnail.w).getD 0 * (coerceNonNegativeInt thumbnail.h).getD 0,
    (telegramMediaSize thumbnail).getD 0)

/-- The thumbnails `_largest_bounded_thumbnail` chooses among. -/
def boundedThumbnails (sizes : List Thumbnail) (maxBytes : Nat) : List Thumbnail :=
  sizes.filter fun thumbnail =>
    !thumbnail.isVideo && (telegramMediaSize thumbnail).all (· ≤ (maxBytes : Int))

/-- `_largest_bounded_thumbnail`: the first of the highest ranked candidates. -/
def largestBoundedThumbnail (sizes : Option (List Thumbnail)) (maxBytes : Nat) :
    Option Thumbnail :=
  (boundedThumbnails (sizes.getD []) maxBytes).foldl (fun best thumbnail =>
    match best with
    | none => some thumbnail
    | some found =>
        let a := thumbnailRank found
        let b := thumbnailRank thumbnail
        if a.1 < b.1 || (a.1 == b.1 && a.2 < b.2) then some thumbnail else some found) none

/-- `_telegram_thumbnail_selector`: the thumbnail's type, or the thumbnail itself. -/
inductive ThumbnailSelector
  | type (name : Text)
  | thumbnail (value : Thumbnail)
  deriving DecidableEq, Repr

def telegramThumbnailSelector (thumbnail : Thumbnail) : ThumbnailSelector :=
  match thumbnail.type with
  | some name => if name.isEmpty then .thumbnail thumbnail else .type name
  | none => .thumbnail thumbnail

/-- The `thumb` argument of `download_media`, and the MIME type of what it returns. -/
structure DownloadPlan where
  thumb : Option ThumbnailSelector
  cachedMimeType : Text
  deriving DecidableEq, Repr

/-- `(scanned.mime_type or "").strip().lower()`. -/
def normalizedMimeType (scanned : ScannedMessage) : Text := lower (strip (orEmpty scanned.mimeType))

/-- `_renderable_image_mime_type`. -/
def renderableImageMimeType (scanned : ScannedMessage) : Option Text :=
  if scanned.mediaType = some "photo".toList then some "image/jpeg".toList
  else if normalizedMimeType scanned ∈ renderableImageMimeTypes then
    some (normalizedMimeType scanned)
  else none

/-- `_preview_download_plan`. -/
def previewDownloadPlan (raw : RawMessage) (scanned : ScannedMessage) (maxBytes : Nat) :
    Option DownloadPlan :=
  if scanned.mediaType = some "audio".toList ∨ scanned.mediaType = some "voice".toList ∨
      startsWith "audio/".toList (normalizedMimeType scanned) then
    if normalizedMimeType scanned ∈ playableAudioMimeTypes ∧
        scanned.fileSize.any (· ≤ (maxBytes : Int)) then
      some ⟨none, normalizedMimeType scanned⟩
    else none
  else
    (renderableImageMimeType scanned).bind fun mimeType =>
      if scanned.mediaType = some "photo".toList then
        let thumbnail := largestBoundedThumbnail (raw.photo.bind (·.sizes)) maxBytes
        some ⟨thumbnail.map telegramThumbnailSelector, "image/jpeg".toList⟩
      else if scanned.fileSize.all (· ≤ (maxBytes : Int)) then some ⟨none, mimeType⟩
      else
        (largestBoundedThumbnail (raw.document.bind (·.thumbs)) maxBytes).map fun thumbnail =>
          ⟨some (telegramThumbnailSelector thumbnail), "image/jpeg".toList⟩

/-! ## Downloading -/

/-- What one call of `download_media` does, and how long it takes. -/
inductive Download
  /-- It returns bytes, or (`none`) something else. -/
  | returns (elapsed : Nat) (content : Option Bytes)
  | raisesTimeout (elapsed : Nat)
  /-- It raises any other exception. -/
  | raises (elapsed : Nat)
  | never
  deriving DecidableEq, Repr

/-- `MEDIA_PERSISTENCE_RESERVE_SECONDS`, in microseconds. -/
def mediaPersistenceReserve : Nat := seconds 2

/-- The message with the downloaded preview, when the content can be kept. -/
def withPreview (scanned : ScannedMessage) (plan : DownloadPlan) (maxBytes : Nat)
    (content : Option Bytes) : ScannedMessage :=
  match content with
  | none => scanned
  | some bytes =>
      if bytes.isEmpty || maxBytes < bytes.length then scanned
      else { scanned with cachedMedia := some bytes, cachedMediaMimeType := some plan.cachedMimeType }

/-- What happens to one message of the walk, and the time it is then. -/
inductive Preview
  | kept (message : ScannedMessage) (clock : Nat)
  | deadlineReached (clock : Nat)
  /-- The download never completes and nothing bounds it. -/
  | blocked
  deriving DecidableEq, Repr

/-- The download of one preview under the deadline, from `clock` on. -/
def awaitDownload (download : Download) (scanned : ScannedMessage) (plan : DownloadPlan)
    (maxBytes : Nat) (deadline : Option Nat) (clock : Nat) : Preview :=
  match deadline with
  | none =>
      match download with
      | .returns d content => .kept (withPreview scanned plan maxBytes content) (clock + d)
      | .raisesTimeout d => .deadlineReached (clock + d)
      | .raises d => .kept scanned (clock + d)
      | .never => .blocked
  | some t =>
      let remaining := t - clock - mediaPersistenceReserve
      if remaining = 0 then .deadlineReached clock
      else match download with
        | .returns d content =>
            if d < remaining then .kept (withPreview scanned plan maxBytes content) (clock + d)
            else .deadlineReached (clock + remaining)
        | .raisesTimeout d => .deadlineReached (clock + min d remaining)
        | .raises d =>
            if d < remaining then .kept scanned (clock + d)
            else .deadlineReached (clock + remaining)
        | .never => .deadlineReached (clock + remaining)

/-- One round of the loop of `_cache_media_previews`. -/
def cacheMediaPreview (downloadMedia : RawMessage → Option ThumbnailSelector → Download)
    (maxBytes : Nat) (deadline : Option Nat) (clock : Nat) (raw : RawMessage)
    (scanned : ScannedMessage) : Preview :=
  if scanned.cachedMedia.isSome then .kept scanned clock
  else match previewDownloadPlan raw scanned maxBytes with
    | none => .kept scanned clock
    | some plan =>
        awaitDownload (downloadMedia raw plan.thumb) scanned plan maxBytes deadline clock

/-- The loop of `_cache_media_previews`: the enriched messages, whether the deadline ended
it, and the time it is then. -/
def enrichMessages (downloadMedia : RawMessage → Option ThumbnailSelector → Download)
    (maxBytes : Nat) (deadline : Option Nat) :
    Nat → List (RawMessage × ScannedMessage) → Option (List ScannedMessage × Bool × Nat)
  | clock, [] => some ([], false, clock)
  | clock, (raw, scanned) :: rest =>
      match cacheMediaPreview downloadMedia maxBytes deadline clock raw scanned with
      | .kept message clock =>
          (enrichMessages downloadMedia maxBytes deadline clock rest).map fun result =>
            (message :: result.1, result.2)
      | .deadlineReached clock => some ([], true, clock)
      | .blocked => none

/-- `deadline_page()`: the page of the messages processed so far. -/
def deadlinePage (processed : List ScannedMessage) : ScanPage :=
  { messages := processed
    hasMore := true
    nextOffsetId := (processed.map ScannedMessage.telegramId).min? }

/-- `_cache_media_previews`. -/
def cacheMediaPreviews (downloadMedia : RawMessage → Option ThumbnailSelector → Download)
    (rawPage : List RawMessage) (page : ScanPage) (maxBytes : Nat) (deadline : Option Nat)
    (clock : Nat) : Option (ScanPage × Bool × Nat) :=
  (enrichMessages downloadMedia maxBytes deadline clock (rawPage.zip page.messages)).map
    fun (messages, reached, clock) =>
      if reached then (deadlinePage messages, true, clock)
      else ({ page with messages := messages }, false, clock)

/-! ## What the walk keeps -/

/-- A preview fills its own two columns. -/
theorem withPreview_eq (scanned : ScannedMessage) (plan : DownloadPlan) (maxBytes : Nat)
    (content : Option Bytes) : ∃ media mimeType, withPreview scanned plan maxBytes content =
      { scanned with cachedMedia := media, cachedMediaMimeType := mimeType } := by
  unfold withPreview
  split
  · exact ⟨_, _, rfl⟩
  · split
    · exact ⟨_, _, rfl⟩
    · exact ⟨_, _, rfl⟩

theorem awaitDownload_kept {download : Download} {scanned message : ScannedMessage}
    {plan : DownloadPlan} {maxBytes clock clock' : Nat} {deadline : Option Nat}
    (h : awaitDownload download scanned plan maxBytes deadline clock = .kept message clock') :
    ∃ media mimeType, message =
      { scanned with cachedMedia := media, cachedMediaMimeType := mimeType } := by
  unfold awaitDownload at h
  cases deadline with
  | none =>
      dsimp only at h
      split at h <;> cases h
      · exact withPreview_eq scanned plan maxBytes _
      · exact ⟨_, _, rfl⟩
  | some t =>
      dsimp only at h
      split at h
      · cases h
      · split at h
        · split at h <;> cases h
          exact withPreview_eq scanned plan maxBytes _
        · cases h
        · split at h <;> cases h
          exact ⟨_, _, rfl⟩
        · cases h

/-- A message that the walk keeps has at most got a preview. -/
theorem cacheMediaPreview_kept
    {downloadMedia : RawMessage → Option ThumbnailSelector → Download} {maxBytes : Nat}
    {deadline : Option Nat} {clock clock' : Nat} {raw : RawMessage}
    {scanned message : ScannedMessage}
    (h : cacheMediaPreview downloadMedia maxBytes deadline clock raw scanned =
      .kept message clock') : ∃ media mimeType, message =
        { scanned with cachedMedia := media, cachedMediaMimeType := mimeType } := by
  unfold cacheMediaPreview at h
  split at h
  · cases h
    exact ⟨_, _, rfl⟩
  · split at h
    · cases h
      exact ⟨_, _, rfl⟩
    · exact awaitDownload_kept h

theorem cacheMediaPreview_telegramId
    {downloadMedia : RawMessage → Option ThumbnailSelector → Download} {maxBytes : Nat}
    {deadline : Option Nat} {clock clock' : Nat} {raw : RawMessage}
    {scanned message : ScannedMessage}
    (h : cacheMediaPreview downloadMedia maxBytes deadline clock raw scanned =
      .kept message clock') : message.telegramId = scanned.telegramId := by
  obtain ⟨media, mimeType, rfl⟩ := cacheMediaPreview_kept h
  rfl

/-- The walk keeps the messages in order; it keeps all of them unless the deadline ends it. -/
theorem enrichMessages_ids {downloadMedia : RawMessage → Option ThumbnailSelector → Download}
    {maxBytes : Nat} {deadline : Option Nat} {clock clock' : Nat}
    {pairs : List (RawMessage × ScannedMessage)} {messages : List ScannedMessage}
    {reached : Bool}
    (h : enrichMessages downloadMedia maxBytes deadline clock pairs =
      some (messages, reached, clock')) :
    messages.map ScannedMessage.telegramId <+: pairs.map (fun pair => pair.2.telegramId) ∧
      (reached = false →
        messages.map ScannedMessage.telegramId = pairs.map (fun pair => pair.2.telegramId)) := by
  induction pairs generalizing clock messages with
  | nil =>
      cases h
      exact ⟨List.nil_prefix, fun _ => rfl⟩
  | cons pair rest ih =>
      obtain ⟨raw, scanned⟩ := pair
      unfold enrichMessages at h
      split at h
      · rename_i message clock₁ hKept
        obtain ⟨⟨kept, r, c⟩, hRest, hEq⟩ := Option.map_eq_some_iff.mp h
        cases hEq
        obtain ⟨hPrefix, hAll⟩ := ih hRest
        have hId := cacheMediaPreview_telegramId hKept
        refine ⟨?_, fun hReached => ?_⟩
        · rw [List.map_cons, List.map_cons, hId]
          exact (List.prefix_cons_inj _).mpr hPrefix
        · rw [List.map_cons, List.map_cons, hId, hAll hReached]
      · cases h
        exact ⟨List.nil_prefix, fun hReached => by cases hReached⟩
      · cases h

/-- Under a deadline, or when the download comes to an end, the message is kept or ends the
walk. -/
theorem awaitDownload_ne_blocked {download : Download} {scanned : ScannedMessage}
    {plan : DownloadPlan} {maxBytes clock : Nat} {deadline : Option Nat}
    (h : deadline.isSome = true ∨ download ≠ .never) :
    awaitDownload download scanned plan maxBytes deadline clock ≠ .blocked := by
  intro hBlocked
  cases deadline with
  | none =>
      have hEnds := h.resolve_left Bool.false_ne_true
      cases download with
      | returns d content => cases hBlocked
      | raisesTimeout d => cases hBlocked
      | raises d => cases hBlocked
      | never => exact hEnds rfl
  | some t =>
      simp only [awaitDownload] at hBlocked
      split at hBlocked
      · cases hBlocked
      · split at hBlocked <;> (try split at hBlocked) <;> cases hBlocked

/-- Under a deadline, or when every download comes to an end, the walk ends. -/
theorem enrichMessages_isSome
    {downloadMedia : RawMessage → Option ThumbnailSelector → Download} {deadline : Option Nat}
    (h : deadline.isSome = true ∨ ∀ raw thumb, downloadMedia raw thumb ≠ .never) (maxBytes : Nat)
    (pairs : List (RawMessage × ScannedMessage)) (clock : Nat) :
    (enrichMessages downloadMedia maxBytes deadline clock pairs).isSome = true := by
  induction pairs generalizing clock with
  | nil => rfl
  | cons pair rest ih =>
      obtain ⟨raw, scanned⟩ := pair
      unfold enrichMessages
      split
      · rw [Option.isSome_map]
        exact ih _
      · rfl
      · rename_i hBlocked
        exfalso
        unfold cacheMediaPreview at hBlocked
        split at hBlocked
        · cases hBlocked
        split at hBlocked
        · cases hBlocked
        · exact awaitDownload_ne_blocked (h.imp_right (· raw _)) hBlocked

end SavedOrganizer
