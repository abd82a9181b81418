import SavedOrganizer.System.World

/-!
# Previews that block a scan

The scan downloads the previews of a page one after another under the deadline of its slice,
less a reserve. A download that fails is skipped, but one that runs into the deadline, or
raises `TimeoutError` itself, ends the slice before its message. The next slice starts at
that message with a new deadline, so what decides is how the download ends in a slice of
its own: `PreviewClient.blocks`.

Everything but the downloads answers at once here, and the limits of the job are not
reached. `previews_pass_iff` says exactly for which sources such slices come to the end: no
message may block, and then every slice passes one message at least.
-/

namespace SavedOrganizer

open Transition SavedMessages Pagination

/-- A client whose calls return at once, but for its downloads, and the previews that are
stored for the account. -/
structure PreviewClient where
  src : SavedMessages
  stored : List CachedMediaRow
  downloadMedia : RawMessage → Option ThumbnailSelector → Download

/-- The download ends, with a value or an exception, in less than `limit`. -/
def Download.endsWithin (limit : Nat) : Download → Bool
  | .returns elapsed _ => elapsed < limit
  | .raises elapsed => elapsed < limit
  | .raisesTimeout _ => false
  | .never => false

namespace PreviewClient

variable (client : PreviewClient) (settings : Settings)

/-- What the awaited calls of the scan answer. -/
def answer (now : Instant) (st : ScanState) : Option Answer :=
  match st.phase with
  | .polling => some (.stop 0 false)
  | .fetching _ limit =>
      some (.fetched 0 now (client.src.iterMessages st.previousOffsetId limit))
  | .loading _ _ => some (.loaded 0 client.stored)
  | .caching _ _ _ => some (.downloading client.downloadMedia)
  | .delivering _ _ => some (.delivered 0)
  | .returned _ => none
  | .raised => none

def scanStep (now : Instant) (st : ScanState) : Option ScanState :=
  (client.answer now st).bind (resume st)

/-- A page takes five steps. -/
def sliceSteps : Nat := 5 * settings.scanSliceMaxPages + 1

/-- The scan of one slice, from its start to its end. -/
def slice (lease : ScanLease) (now : Instant) (clock : Nat) : ScanState :=
  runFor (client.scanStep now) (sliceSteps settings)
    (beginScan (lease.scanOptions settings (seconds settings.scanSliceSeconds)) clock)

/-- The lease of the claim that resumes the job after the slice. The slice starts at the given
time, on the wall clock and on the event loop's. -/
def nextSlice (lease : ScanLease) (start : Instant × Nat) : ScanLease :=
  if lease.maxMessages ≤ lease.messagesScanned then lease
  else
    let st := client.slice settings lease start.1 start.2
    { lease with
      messagesScanned := lease.messagesScanned + st.progress.messagesScanned
      lastMessageId := st.progress.lastMessageId }

/-- The cursor is past every message after `count` slices, whenever they start. -/
def PassesWithin (count : Nat) (lease : ScanLease) : Prop :=
  ∀ starts : List (Instant × Nat), count ≤ starts.length →
    client.src.below (starts.foldl (client.nextSlice settings) lease).lastMessageId = []

/-- The account has a stored preview of the message. -/
def hasStored (telegramId : TelegramId) : Bool :=
  client.stored.any fun row => row.telegramId = telegramId

/-- The message has a preview to download, and the download does not end within the limit. -/
def exceeds (maxBytes limit : Nat) (raw : RawMessage) : Bool :=
  !client.hasStored (sourceId raw) &&
    (previewDownloadPlan raw (scannedMessage 0 (sourceId raw) raw) maxBytes).any fun plan =>
      !(client.downloadMedia raw plan.thumb).endsWithin limit

/-- A slice that starts with the message ends before its download does. -/
def blocks (raw : RawMessage) : Bool :=
  client.exceeds settings.mediaCacheMaxBytes
    (seconds settings.scanSliceSeconds - mediaPersistenceReserve) raw

end PreviewClient

/-! ## One download -/

section Downloads

variable {download : Download} {scanned : ScannedMessage} {plan : DownloadPlan}
  {maxBytes deadline clock : Nat}

theorem awaitDownload_kept_iff :
    (∃ message clock', awaitDownload download scanned plan maxBytes (some deadline) clock =
      .kept message clock') ↔
      download.endsWithin (deadline - clock - mediaPersistenceReserve) = true := by
  simp only [awaitDownload]
  generalize deadline - clock - mediaPersistenceReserve = remaining
  by_cases hZero : remaining = 0
  · rw [if_pos hZero, hZero]
    cases download <;> simp [Download.endsWithin]
  · rw [if_neg hZero]
    cases download with
    | returns d content => by_cases hd : d < remaining <;> simp [Download.endsWithin, hd]
    | raises d => by_cases hd : d < remaining <;> simp [Download.endsWithin, hd]
    | raisesTimeout d => simp [Download.endsWithin]
    | never => simp [Download.endsWithin]

theorem endsWithin_mono {limit limit' : Nat} (hLe : limit ≤ limit')
    (h : download.endsWithin limit = true) : download.endsWithin limit' = true := by
  cases download with
  | returns d content => exact decide_eq_true (lt_of_lt_of_le (of_decide_eq_true h) hLe)
  | raises d => exact decide_eq_true (lt_of_lt_of_le (of_decide_eq_true h) hLe)
  | raisesTimeout d => cases h
  | never => cases h

end Downloads

/-! ## The messages of a page -/

section Messages

variable {client : PreviewClient} {settings : Settings} {raw : RawMessage}
  {scanned : ScannedMessage}

/-- `scanned` is the normalized message `raw` of the source. -/
structure Normalized (client : PreviewClient) (raw : RawMessage) (scanned : ScannedMessage) :
    Prop where
  mem : raw ∈ client.src.messages
  eq : ∃ now, scanned = scannedMessage now (sourceId raw) raw

/-- `scanned` carries the stored preview of the message `raw`, if there is one. -/
structure Loaded (client : PreviewClient) (raw : RawMessage) (scanned : ScannedMessage) :
    Prop where
  mem : raw ∈ client.src.messages
  telegramId : scanned.telegramId = sourceId raw
  plan (maxBytes : Nat) : previewDownloadPlan raw scanned maxBytes =
    previewDownloadPlan raw (scannedMessage 0 (sourceId raw) raw) maxBytes
  cached : scanned.cachedMedia.isSome = client.hasStored (sourceId raw)

theorem kept_iff {maxBytes deadline clock : Nat} (hLoaded : Loaded client raw scanned) :
    (∃ message clock', cacheMediaPreview client.downloadMedia maxBytes (some deadline) clock raw
      scanned = .kept message clock') ↔
      client.exceeds maxBytes (deadline - clock - mediaPersistenceReserve) raw = false := by
  unfold cacheMediaPreview PreviewClient.exceeds
  rw [hLoaded.cached, hLoaded.plan]
  cases client.hasStored (sourceId raw) with
  | true => simp
  | false =>
      cases previewDownloadPlan raw (scannedMessage 0 (sourceId raw) raw) maxBytes with
      | none => simp
      | some plan =>
          simp only [Bool.false_eq_true, if_false, Bool.not_false, Bool.true_and,
            Option.any_some, Bool.not_eq_false']
          exact awaitDownload_kept_iff

/-- More time helps. -/
theorem exceeds_mono {maxBytes limit limit' : Nat} (hLe : limit ≤ limit')
    (h : client.exceeds maxBytes limit raw = false) :
    client.exceeds maxBytes limit' raw = false := by
  unfold PreviewClient.exceeds at h ⊢
  rw [Bool.and_eq_false_iff] at h ⊢
  refine h.imp id fun h => ?_
  cases hPlan : previewDownloadPlan raw (scannedMessage 0 (sourceId raw) raw) maxBytes with
  | none => rfl
  | some plan =>
      rw [hPlan, Option.any_some, Bool.not_eq_false'] at h
      rw [Option.any_some, Bool.not_eq_false']
      exact endsWithin_mono hLe h

/-- A message that is kept within a slice does not block. -/
theorem blocks_of_kept {deadline clock clock' : Nat} {message : ScannedMessage}
    (hLoaded : Loaded client raw scanned)
    (hTime : deadline - clock ≤ seconds settings.scanSliceSeconds)
    (h : cacheMediaPreview client.downloadMedia settings.mediaCacheMaxBytes (some deadline) clock
      raw scanned = .kept message clock') : client.blocks settings raw = false :=
  exceeds_mono (Nat.sub_le_sub_right hTime _) ((kept_iff hLoaded).mp ⟨message, clock', h⟩)

/-- The first message of a slice is kept unless it blocks. -/
theorem kept_of_blocks {deadline clock : Nat} (hLoaded : Loaded client raw scanned)
    (hTime : deadline - clock = seconds settings.scanSliceSeconds)
    (h : client.blocks settings raw = false) :
    ∃ message clock', cacheMediaPreview client.downloadMedia settings.mediaCacheMaxBytes
      (some deadline) clock raw scanned = .kept message clock' := by
  rw [kept_iff hLoaded, hTime]
  exact h

/-- The time after one message. -/
def Preview.clock : Preview → Option Nat
  | .kept _ clock => some clock
  | .deadlineReached clock => some clock
  | .blocked => none

theorem cacheMediaPreview_clock {maxBytes deadline clock clock' : Nat}
    (h : (cacheMediaPreview client.downloadMedia maxBytes (some deadline) clock raw
      scanned).clock = some clock') : clock ≤ clock' := by
  have hSame {message : ScannedMessage} (h : (Preview.kept message clock).clock = some clock') :
      clock ≤ clock' := (Option.some.inj h).le
  have hLater {d : Nat} {preview : Preview} (hClock : preview.clock = some (clock + d))
      (h : preview.clock = some clock') : clock ≤ clock' := by
    rw [hClock, Option.some.injEq] at h
    omega
  unfold cacheMediaPreview at h
  split at h
  · exact hSame h
  split at h
  · exact hSame h
  · simp only [awaitDownload] at h
    generalize deadline - clock - mediaPersistenceReserve = remaining at h
    split at h
    · exact (Option.some.inj h).le
    · split at h
      · split at h <;> exact hLater rfl h
      · exact hLater rfl h
      · split at h <;> exact hLater rfl h
      · exact hLater rfl h

/-- What the walk over a page keeps does not block. -/
theorem enrichMessages_unblocked {rawPage : List RawMessage} {page messages : List ScannedMessage}
    {deadline clock clock' : Nat} {reached : Bool}
    (hLoaded : List.Forall₂ (Loaded client) rawPage page)
    (hTime : deadline - clock ≤ seconds settings.scanSliceSeconds)
    (h : enrichMessages client.downloadMedia settings.mediaCacheMaxBytes (some deadline) clock
      (rawPage.zip page) = some (messages, reached, clock')) :
    ∀ message ∈ messages, ∃ raw ∈ client.src.messages, sourceId raw = message.telegramId ∧
      client.blocks settings raw = false := by
  induction hLoaded generalizing clock messages with
  | nil =>
      cases h
      intro message hMem
      cases hMem
  | @cons raw scanned rawRest rest hFirst _ ih =>
      rw [List.zip_cons_cons] at h
      unfold enrichMessages at h
      split at h
      · rename_i kept clock₁ hKept
        obtain ⟨⟨tail, r, c⟩, hRest, hEq⟩ := Option.map_eq_some_iff.mp h
        cases hEq
        have hLater := cacheMediaPreview_clock (congrArg Preview.clock hKept)
        intro message hMem
        rcases List.mem_cons.mp hMem with rfl | hTail
        · exact ⟨raw, hFirst.mem, by rw [cacheMediaPreview_telegramId hKept, hFirst.telegramId],
            blocks_of_kept hFirst hTime hKept⟩
        · exact ih (by omega) hRest message hTail
      · cases h
        intro message hMem
        cases hMem
      · cases h

/-- The walk keeps the first message of a slice unless it blocks. -/
theorem enrichMessages_first {rawPage : List RawMessage} {page messages : List ScannedMessage}
    {deadline clock clock' : Nat} {reached : Bool}
    (hLoaded : Loaded client raw scanned)
    (hTime : deadline - clock = seconds settings.scanSliceSeconds)
    (hBlocks : client.blocks settings raw = false)
    (h : enrichMessages client.downloadMedia settings.mediaCacheMaxBytes (some deadline) clock
      ((raw, scanned) :: rawPage.zip page) = some (messages, reached, clock')) : messages ≠ [] := by
  obtain ⟨kept, clock₁, hKept⟩ := kept_of_blocks hLoaded hTime hBlocks
  rw [enrichMessages, hKept] at h
  obtain ⟨⟨tail, r, c⟩, -, hEq⟩ := Option.map_eq_some_iff.mp h
  cases hEq
  exact List.cons_ne_nil _ _

end Messages

/-! ## Pages of the source -/

section Pages

variable {client : PreviewClient} {rawPage : List RawMessage}

/-- Every id of the source fits the column it is stored in. -/
def IdsFit (src : SavedMessages) : Prop := ∀ raw ∈ src.messages, sourceId raw ≤ MAX_DB_BIGINT

theorem exists_normalized {raw : RawMessage} (hFits : IdsFit client.src)
    (hMem : raw ∈ client.src.messages) (now : Instant) :
    ∃ scanned, normalizeMessage now raw = .ok scanned := by
  obtain ⟨n, hn, hPos⟩ := client.src.identified raw hMem
  have hId : sourceId raw = n := by simp [sourceId, hn, coerceInt]
  have hLe := hFits raw hMem
  rw [hId] at hLe
  have hBigint : coerceDbBigint raw.id MIN_DB_BIGINT = some n := by
    have hMin : MIN_DB_BIGINT ≤ n := by
      unfold MIN_DB_BIGINT
      omega
    simp [coerceDbBigint, hn, coerceInt, hMin, hLe]
  refine ⟨scannedMessage now n raw, ?_⟩
  simp only [normalizeMessage, requiredTelegramId, hBigint]
  rfl

theorem normalized_of_eq {raw : RawMessage} {scanned : ScannedMessage} {now : Instant}
    (hMem : raw ∈ client.src.messages) (h : normalizeMessage now raw = .ok scanned) :
    Normalized client raw scanned := by
  have hId := normalizeMessage_telegramId h
  obtain ⟨telegramId, -, rfl⟩ := normalizeMessage_eq_ok h
  rw [client.src.coerceInt_of_mem hMem, Option.some.injEq] at hId
  exact ⟨hMem, now, by rw [hId]; rfl⟩

theorem normalized_of_mapM {now : Instant} {messages : List ScannedMessage}
    (hMem : ∀ raw ∈ rawPage, raw ∈ client.src.messages)
    (h : rawPage.mapM (normalizeMessage now) = .ok messages) :
    List.Forall₂ (Normalized client) rawPage messages := by
  induction rawPage generalizing messages with
  | nil =>
      cases h
      exact .nil
  | cons raw rest ih =>
      rw [List.mapM_cons] at h
      cases hRaw : normalizeMessage now raw with
      | error e => rw [hRaw] at h; cases h
      | ok scanned =>
          cases hRest : rest.mapM (normalizeMessage now) with
          | error e => rw [hRaw, hRest] at h; cases h
          | ok tail =>
              rw [hRaw, hRest] at h
              cases h
              exact .cons (normalized_of_eq (hMem raw List.mem_cons_self) hRaw)
                (ih (fun raw hRaw => hMem raw (List.mem_cons_of_mem _ hRaw)) hRest)

theorem exists_mapM (hFits : IdsFit client.src) (hMem : ∀ raw ∈ rawPage, raw ∈ client.src.messages)
    (now : Instant) : ∃ messages, rawPage.mapM (normalizeMessage now) = .ok messages := by
  induction rawPage with
  | nil => exact ⟨[], rfl⟩
  | cons raw rest ih =>
      obtain ⟨scanned, hRaw⟩ := exists_normalized hFits (hMem raw List.mem_cons_self) now
      obtain ⟨tail, hRest⟩ := ih fun raw hRaw => hMem raw (List.mem_cons_of_mem _ hRaw)
      refine ⟨scanned :: tail, ?_⟩
      rw [List.mapM_cons, hRaw, hRest]
      rfl

/-- No page of the source is refused. -/
theorem exists_buildPage (hFits : IdsFit client.src)
    (hMem : ∀ raw ∈ rawPage, raw ∈ client.src.messages) (now : Instant) (pageSize : Nat)
    (hasMore : Option Bool) : ∃ page, buildPage now rawPage pageSize hasMore = .ok page := by
  obtain ⟨messages, hMessages⟩ := exists_mapM hFits hMem now
  unfold buildPage
  rw [hMessages]
  exact ⟨_, rfl⟩

/-- `load_cached_media` adds the stored previews. -/
theorem loaded_withCachedMedia {page : ScanPage}
    (h : List.Forall₂ (Normalized client) rawPage page.messages) :
    List.Forall₂ (Loaded client) rawPage (withCachedMedia client.stored page).messages := by
  unfold withCachedMedia
  rw [List.forall₂_map_right_iff]
  refine h.imp fun raw scanned hNormalized => ?_
  obtain ⟨hMem, now, rfl⟩ := hNormalized
  have hFound : client.hasStored (sourceId raw) =
      (client.stored.reverse.find? fun row => row.telegramId = sourceId raw).isSome := by
    rw [Bool.eq_iff_iff]
    simp only [PreviewClient.hasStored, List.find?_isSome, List.any_eq_true, List.mem_reverse]
  refine ⟨hMem, ?_, ?_, ?_⟩
  · split <;> rfl
  · intro maxBytes
    split <;> rfl
  · rw [hFound]
    split
    · rename_i row hRow
      rw [show (client.stored.reverse.find? fun row => row.telegramId = sourceId raw) = some row
        from hRow]
      rfl
    · rename_i hNone
      rw [show (client.stored.reverse.find? fun row => row.telegramId = sourceId raw) = none
        from hNone]
      rfl

end Pages

/-! ## The scan of one slice -/

section Walk

variable {client : PreviewClient} {settings : Settings} {lease : ScanLease} {st st' : ScanState}
  {now : Instant}

/-- What the phases of the scan know of the messages in hand. -/
def Walking (client : PreviewClient) (settings : Settings) (st : ScanState) : ScanPhase → Prop
  | .polling => st.progress.pagesScanned ≤ settings.scanSliceMaxPages
  | .fetching _ _ => st.progress.pagesScanned < settings.scanSliceMaxPages
  | .loading rawPage page => st.progress.pagesScanned < settings.scanSliceMaxPages ∧
      List.Forall₂ (Normalized client) rawPage page.messages
  | .caching rawPage page maxBytes => st.progress.pagesScanned < settings.scanSliceMaxPages ∧
      List.Forall₂ (Loaded client) rawPage page.messages ∧
      maxBytes = settings.mediaCacheMaxBytes
  | .delivering page _ => st.progress.pagesScanned < settings.scanSliceMaxPages ∧
      ∀ scanned ∈ page.messages, ∃ raw ∈ client.src.messages,
        sourceId raw = scanned.telegramId ∧ client.blocks settings raw = false
  | .returned _ => True
  | .raised => False

/-- A slice of the job: what it has passed does not block. -/
structure Walk (client : PreviewClient) (settings : Settings) (lease : ScanLease)
    (st : ScanState) : Prop where
  inv : ScanInv (· = client.src) st
  options : st.options = lease.scanOptions settings (seconds settings.scanSliceSeconds)
  timed : ∃ t, st.deadline = some t ∧ t - st.clock ≤ seconds settings.scanSliceSeconds
  cursor_ne : st.cursor ≠ some 0
  counted : st.progress.messagesScanned + (client.src.below st.cursor).length =
    (client.src.below lease.lastMessageId).length
  unblocked : ∀ raw ∈ client.src.messages, Passed st.cursor (sourceId raw) →
    Passed lease.lastMessageId (sourceId raw) ∨ client.blocks settings raw = false
  phase : Walking client settings st st.phase

theorem afterPage_phase (st : ScanState) (page : ScanPage) (reached : Bool) :
    (∃ reason, (st.afterPage page reached).phase = .returned reason) ∨
      (st.afterPage page reached).phase = .polling := by
  unfold ScanState.afterPage
  split
  · exact Or.inl ⟨_, rfl⟩
  split
  · exact Or.inl ⟨_, rfl⟩
  split
  · exact Or.inl ⟨_, rfl⟩
  split
  · exact Or.inl ⟨_, rfl⟩
  · exact Or.inr rfl

theorem walking_afterPage {page : ScanPage} {reached : Bool}
    (h : st.progress.pagesScanned ≤ settings.scanSliceMaxPages) :
    Walking client settings (st.afterPage page reached) (st.afterPage page reached).phase := by
  rcases afterPage_phase st page reached with ⟨reason, hPhase⟩ | hPhase
  · rw [hPhase]
    trivial
  · rw [hPhase]
    show (st.afterPage page reached).progress.pagesScanned ≤ _
    rw [(afterPage_progress st page reached).pagesScanned]
    exact h

theorem walking_afterPoll {requested : Bool}
    (hOptions : st.options = lease.scanOptions settings (seconds settings.scanSliceSeconds)) :
    Walking client settings (st.afterPoll requested) (st.afterPoll requested).phase := by
  unfold ScanState.afterPoll
  split
  · trivial
  split
  · trivial
  split
  · trivial
  split
  · trivial
  · rename_i hPages _
    rw [hOptions] at hPages
    have hLt : st.progress.pagesScanned < settings.scanSliceMaxPages := by
      simpa [ScanLease.scanOptions] using hPages
    exact hLt

theorem walking_afterFetch {capacity limit : Nat} (hFits : IdsFit client.src)
    (hPages : st.progress.pagesScanned < settings.scanSliceMaxPages) :
    Walking client settings
      (st.afterFetch capacity now (client.src.iterMessages st.previousOffsetId limit))
      (st.afterFetch capacity now (client.src.iterMessages st.previousOffsetId limit)).phase := by
  have hMem : ∀ raw ∈ (client.src.iterMessages st.previousOffsetId limit).take capacity,
      raw ∈ client.src.messages := fun raw hRaw =>
    client.src.mem_of_mem_iterMessages (List.mem_of_mem_take hRaw)
  unfold ScanState.afterFetch
  split
  · trivial
  · split
    · rename_i hError
      obtain ⟨page, hPage⟩ := exists_buildPage hFits hMem now capacity _
      rw [hPage] at hError
      cases hError
    · rename_i page hBuild
      split
      · trivial
      · exact ⟨hPages, normalized_of_mapM hMem (buildPage_eq_ok hBuild).1⟩

theorem walking_afterPreviews {page : ScanPage} {reached : Bool}
    (hPages : st.progress.pagesScanned < settings.scanSliceMaxPages)
    (hKept : ∀ scanned ∈ page.messages, ∃ raw ∈ client.src.messages,
      sourceId raw = scanned.telegramId ∧ client.blocks settings raw = false) :
    Walking client settings (st.afterPreviews page reached)
      (st.afterPreviews page reached).phase := by
  unfold ScanState.afterPreviews
  split
  · exact walking_afterPage hPages.le
  · exact ⟨hPages, hKept⟩

/-- One step of the scan, phase by phase. -/
inductive StepsTo (client : PreviewClient) (now : Instant) (st : ScanState) : ScanState → Prop
  | polled (h : st.phase = .polling) : StepsTo client now st (st.afterPoll false)
  | fetched {capacity limit : Nat} (h : st.phase = .fetching capacity limit)
      (hTime : st.inTime 0 = true) : StepsTo client now st
        (st.afterFetch capacity now (client.src.iterMessages st.previousOffsetId limit))
  | loaded {rawPage : List RawMessage} {page : ScanPage} (h : st.phase = .loading rawPage page)
      (hTime : st.inTime 0 = true) : StepsTo client now st
        (st.afterLoad rawPage (withCachedMedia client.stored page))
  | late (h : (∃ capacity limit, st.phase = .fetching capacity limit) ∨
        ∃ rawPage page, st.phase = .loading rawPage page) (hTime : st.inTime 0 = false) :
      StepsTo client now st (st.finish .sliceTimeLimit)
  | cached {rawPage : List RawMessage} {page cached : ScanPage} {maxBytes clock : Nat}
      {reached : Bool} (h : st.phase = .caching rawPage page maxBytes)
      (hCached : cacheMediaPreviews client.downloadMedia rawPage page maxBytes st.deadline
        st.clock = some (cached, reached, clock)) :
      StepsTo client now st ({ st with clock := clock }.afterPreviews cached reached)
  | delivered {page : ScanPage} {reached : Bool} (h : st.phase = .delivering page reached) :
      StepsTo client now st
        ({ st with progress := recordPage st.progress page }.afterPage page reached)

theorem stepsTo_of_scanStep (h : client.scanStep now st = some st') :
    StepsTo client now st st' := by
  unfold PreviewClient.scanStep PreviewClient.answer at h
  cases hPhase : st.phase with
  | polling =>
      simp only [hPhase, Option.bind_some, resume, Option.some.injEq] at h
      exact h ▸ .polled hPhase
  | fetching capacity limit =>
      simp only [hPhase, Option.bind_some, resume] at h
      cases hTime : st.inTime 0 with
      | true =>
          rw [hTime, if_pos rfl] at h
          exact Option.some.inj h ▸ .fetched hPhase hTime
      | false =>
          rw [hTime, if_neg Bool.false_ne_true] at h
          exact Option.some.inj h ▸ .late (Or.inl ⟨capacity, limit, hPhase⟩) hTime
  | loading rawPage page =>
      simp only [hPhase, Option.bind_some, resume] at h
      cases hTime : st.inTime 0 with
      | true =>
          rw [hTime, if_pos rfl] at h
          exact Option.some.inj h ▸ .loaded hPhase hTime
      | false =>
          rw [hTime, if_neg Bool.false_ne_true] at h
          exact Option.some.inj h ▸ .late (Or.inr ⟨rawPage, page, hPhase⟩) hTime
  | caching rawPage page maxBytes =>
      simp only [hPhase, Option.bind_some, resume] at h
      obtain ⟨⟨cached, reached, clock⟩, hCached, rfl⟩ := Option.map_eq_some_iff.mp h
      exact .cached hPhase hCached
  | delivering page reached =>
      simp only [hPhase, Option.bind_some, resume, Option.some.injEq] at h
      exact h ▸ .delivered hPhase
  | returned reason =>
      simp only [hPhase, Option.bind_none] at h
      cases h
  | raised =>
      simp only [hPhase, Option.bind_none] at h
      cases h

theorem enrichMessages_clock {maxBytes deadline clock clock' : Nat} {reached : Bool}
    {pairs : List (RawMessage × ScannedMessage)} {messages : List ScannedMessage}
    (h : enrichMessages client.downloadMedia maxBytes (some deadline) clock pairs =
      some (messages, reached, clock')) : clock ≤ clock' := by
  induction pairs generalizing clock messages with
  | nil =>
      cases h
      exact Nat.le_refl _
  | cons pair rest ih =>
      obtain ⟨raw, scanned⟩ := pair
      unfold enrichMessages at h
      split at h
      · rename_i message clock₁ hKept
        obtain ⟨⟨kept, r, c⟩, hRest, hEq⟩ := Option.map_eq_some_iff.mp h
        cases hEq
        exact (cacheMediaPreview_clock (congrArg Preview.clock hKept)).trans (ih hRest)
      · rename_i clock₁ hReached
        cases h
        exact cacheMediaPreview_clock (congrArg Preview.clock hReached)
      · cases h

theorem cacheMediaPreviews_clock {rawPage : List RawMessage} {page cached : ScanPage}
    {maxBytes deadline clock clock' : Nat} {reached : Bool}
    (h : cacheMediaPreviews client.downloadMedia rawPage page maxBytes (some deadline) clock =
      some (cached, reached, clock')) : clock ≤ clock' := by
  obtain ⟨⟨messages, r, c⟩, hEnrich, hEq⟩ := Option.map_eq_some_iff.mp h
  have hLe := enrichMessages_clock hEnrich
  cases r <;> cases hEq <;> exact hLe

/-- The deadline stands, and time does not run back. -/
structure Later (st st' : ScanState) : Prop where
  deadline : st'.deadline = st.deadline
  clock : st.clock ≤ st'.clock

theorem later_afterPage (page : ScanPage) (reached : Bool) :
    Later st (st.afterPage page reached) := by
  unfold ScanState.afterPage
  repeat' split
  all_goals exact ⟨rfl, Nat.le_refl _⟩

theorem later_afterPreviews (page : ScanPage) (reached : Bool) :
    Later st (st.afterPreviews page reached) := by
  unfold ScanState.afterPreviews
  split
  · exact later_afterPage page reached
  · exact ⟨rfl, Nat.le_refl _⟩

theorem later_of_stepsTo (h : StepsTo client now st st') {deadline : Nat}
    (hDeadline : st.deadline = some deadline) : Later st st' := by
  cases h with
  | polled =>
      unfold ScanState.afterPoll
      repeat' split
      all_goals exact ⟨rfl, Nat.le_refl _⟩
  | fetched =>
      unfold ScanState.afterFetch
      repeat' split
      all_goals exact ⟨rfl, Nat.le_refl _⟩
  | loaded =>
      unfold ScanState.afterLoad
      split
      · exact later_afterPreviews _ _
      · exact ⟨rfl, Nat.le_refl _⟩
  | late => exact ⟨rfl, Nat.le_refl _⟩
  | @cached _ _ cached _ clock reached _ hCached =>
      rw [hDeadline] at hCached
      have hClock := cacheMediaPreviews_clock hCached
      have hLater := @later_afterPreviews { st with clock := clock } cached reached
      exact ⟨hLater.deadline, hClock.trans hLater.clock⟩
  | @delivered page reached _ =>
      have hLater := @later_afterPage { st with progress := recordPage st.progress page } page
        reached
      exact ⟨hLater.deadline, hLater.clock⟩

/-- What the walk over a page leaves to deliver does not block. -/
theorem unblocked_of_cached {rawPage : List RawMessage} {page cached : ScanPage}
    {deadline clock clock' : Nat} {reached : Bool}
    (hLoaded : List.Forall₂ (Loaded client) rawPage page.messages)
    (hTime : deadline - clock ≤ seconds settings.scanSliceSeconds)
    (h : cacheMediaPreviews client.downloadMedia rawPage page settings.mediaCacheMaxBytes
      (some deadline) clock = some (cached, reached, clock')) :
    ∀ scanned ∈ cached.messages, ∃ raw ∈ client.src.messages,
      sourceId raw = scanned.telegramId ∧ client.blocks settings raw = false := by
  obtain ⟨⟨messages, r, c⟩, hEnrich, hEq⟩ := Option.map_eq_some_iff.mp h
  have hKept := enrichMessages_unblocked hLoaded hTime hEnrich
  cases r <;> cases hEq <;> exact hKept

theorem walking_step (hFits : IdsFit client.src) (h : StepsTo client now st st')
    (hWalk : Walk client settings lease st) : Walking client settings st' st'.phase := by
  have hPhase := hWalk.phase
  obtain ⟨deadline, hDeadline, hTime⟩ := hWalk.timed
  cases h with
  | polled => exact walking_afterPoll hWalk.options
  | fetched h =>
      rw [h] at hPhase
      exact walking_afterFetch hFits hPhase
  | loaded h =>
      rw [h] at hPhase
      obtain ⟨hPages, hNormalized⟩ := hPhase
      have hMax : st.options.mediaCacheMaxBytes = some settings.mediaCacheMaxBytes := by
        rw [hWalk.options]
        rfl
      rw [ScanState.afterLoad, hMax]
      exact ⟨hPages, loaded_withCachedMedia hNormalized, rfl⟩
  | late => trivial
  | cached h hCached =>
      rw [h] at hPhase
      obtain ⟨hPages, hLoaded, rfl⟩ := hPhase
      rw [hDeadline] at hCached
      exact walking_afterPreviews hPages (unblocked_of_cached hLoaded hTime hCached)
  | @delivered page reached h =>
      rw [h] at hPhase
      have hPages : st.progress.pagesScanned < settings.scanSliceMaxPages := hPhase.1
      exact @walking_afterPage client settings
        { st with progress := recordPage st.progress page } page reached hPages

theorem answer_truthful {answer : Answer} (h : client.answer now st = some answer) :
    Truthful (· = client.src) st answer := by
  unfold PreviewClient.answer at h
  split at h <;> cases h
  · trivial
  · rename_i limit hPhase
    intro capacity limit' hPhase'
    rw [hPhase] at hPhase'
    cases hPhase'
    exact ⟨client.src, rfl, rfl⟩
  · trivial
  · trivial
  · trivial

/-- A message is told by its id. -/
theorem eq_of_sourceId {src : SavedMessages} {raw raw' : RawMessage} (h : raw ∈ src.messages)
    (h' : raw' ∈ src.messages) (hId : sourceId raw = sourceId raw') : raw = raw' := by
  have hNodup : (src.messages.map sourceId).Nodup := src.ids_descending.imp fun h => ne_of_gt h
  exact List.inj_on_of_nodup_map hNodup h h' hId

theorem walk_step (hFits : IdsFit client.src) (h : client.scanStep now st = some st')
    (hWalk : Walk client settings lease st) : Walk client settings lease st' := by
  have hSteps := stepsTo_of_scanStep h
  have hPhase := walking_step hFits hSteps hWalk
  obtain ⟨deadline, hDeadline, hTime⟩ := hWalk.timed
  have hLater := later_of_stepsTo hSteps hDeadline
  obtain ⟨answer, hAnswer, hResume⟩ := Option.bind_eq_some_iff.mp h
  have hInv := resume_inv hResume hWalk.inv (answer_truthful hAnswer)
  have hTimed : ∃ t, st'.deadline = some t ∧
      t - st'.clock ≤ seconds settings.scanSliceSeconds := by
    have hClock := hLater.clock
    exact ⟨deadline, hLater.deadline.trans hDeadline, by omega⟩
  have hProgress := resume_progress hResume
  cases hPage : deliveredPage st answer with
  | none =>
      rw [hPage] at hProgress
      refine ⟨hInv, hProgress.options.trans hWalk.options, hTimed, ?_, ?_, ?_, hPhase⟩
      · rw [hProgress.cursor]
        exact hWalk.cursor_ne
      · rw [hProgress.messagesScanned, hProgress.cursor]
        exact hWalk.counted
      · rw [hProgress.cursor]
        exact hWalk.unblocked
  | some page =>
      rw [hPage] at hProgress
      obtain ⟨hOptions, hScanned, -, hCursor⟩ := hProgress
      obtain ⟨reached, hAt⟩ := deliveredPage_eq_some hPage
      have hHeld := hWalk.inv.phase
      have hWalking := hWalk.phase
      rw [hAt] at hHeld hWalking
      obtain ⟨-, -, _, rfl, hPageOf, -⟩ := hHeld
      refine ⟨hInv, hOptions.trans hWalk.options, hTimed, ?_, ?_, ?_, hPhase⟩
      · intro hZero
        rw [hCursor] at hZero
        exact absurd (hPageOf.next_pos hZero) (lt_irrefl 0)
      · have hLe := hPageOf.ids_prefix.length_le
        have hCounted := hWalk.counted
        rw [hScanned, hCursor, hPageOf.below_next.1, List.length_drop, page.ids_length]
        rw [page.ids_length] at hLe
        omega
      · intro raw hRaw hPassed
        by_cases hOld : Passed st.cursor (sourceId raw)
        · exact hWalk.unblocked raw hRaw hOld
        · rw [hCursor] at hPassed
          have hMem := hPageOf.mem_of_between (List.mem_map_of_mem hRaw) hOld hPassed
          obtain ⟨scanned, hScannedMem, hId⟩ := List.mem_map.mp hMem
          obtain ⟨raw', hRaw', hSourceId, hBlocks⟩ := hWalking.2 scanned hScannedMem
          rw [eq_of_sourceId hRaw hRaw' (hId.symm.trans hSourceId.symm)]
          exact Or.inr hBlocks

/-- The steps a scan has left at most. -/
def stepsLeft (settings : Settings) (st : ScanState) : Nat :=
  match st.phase with
  | .polling => 5 * (settings.scanSliceMaxPages - st.progress.pagesScanned) + 1
  | .fetching _ _ => 5 * (settings.scanSliceMaxPages - st.progress.pagesScanned)
  | .loading _ _ => 5 * (settings.scanSliceMaxPages - st.progress.pagesScanned) - 1
  | .caching _ _ _ => 5 * (settings.scanSliceMaxPages - st.progress.pagesScanned) - 2
  | .delivering _ _ => 5 * (settings.scanSliceMaxPages - st.progress.pagesScanned) - 3
  | .returned _ => 0
  | .raised => 0

theorem stepsLeft_afterPage {page : ScanPage} {reached : Bool} :
    stepsLeft settings (st.afterPage page reached) ≤
      5 * (settings.scanSliceMaxPages - st.progress.pagesScanned) + 1 := by
  unfold stepsLeft
  rcases afterPage_phase st page reached with ⟨reason, hPhase⟩ | hPhase
  · rw [hPhase]
    exact Nat.zero_le _
  · rw [hPhase, (afterPage_progress st page reached).pagesScanned]

/-- Under the deadline a page is empty only when the deadline ended its walk. -/
theorem reached_of_empty {rawPage : List RawMessage} {page cached : ScanPage}
    {maxBytes clock : Nat} {reached : Bool} (hWalk : Walk client settings lease st)
    (h : st.phase = .caching rawPage page maxBytes)
    (hCached : cacheMediaPreviews client.downloadMedia rawPage page maxBytes st.deadline
      st.clock = some (cached, reached, clock)) (hEmpty : cached.messages = []) :
    reached = true := by
  have hHeld := hWalk.inv.phase
  rw [h] at hHeld
  obtain ⟨-, hLength, hHeld⟩ := hHeld
  exact (held_cacheMediaPreviews hLength hHeld hCached).2 hEmpty

theorem stepsLeft_step (hSteps : StepsTo client now st st')
    (hWalk : Walk client settings lease st) :
    stepsLeft settings st' < stepsLeft settings st := by
  have hWalking := hWalk.phase
  have hZero {reason : ScanReason} : stepsLeft settings (st.finish reason) = 0 := rfl
  cases hSteps with
  | polled h =>
      have hLeft : stepsLeft settings st =
          5 * (settings.scanSliceMaxPages - st.progress.pagesScanned) + 1 := by
        rw [stepsLeft, h]
      unfold ScanState.afterPoll
      split
      · exact hLeft ▸ Nat.succ_pos _
      split
      · exact hLeft ▸ Nat.succ_pos _
      split
      · exact hLeft ▸ Nat.succ_pos _
      split
      · exact hLeft ▸ Nat.succ_pos _
      · exact hLeft ▸ Nat.lt_succ_self _
  | fetched h =>
      rw [h] at hWalking
      have hPages : st.progress.pagesScanned < settings.scanSliceMaxPages := hWalking
      have hLeft : stepsLeft settings st =
          5 * (settings.scanSliceMaxPages - st.progress.pagesScanned) := by
        rw [stepsLeft, h]
      unfold ScanState.afterFetch
      split
      · rw [hZero, hLeft]
        omega
      split
      · rw [hLeft]
        show 0 < _
        omega
      split
      · rw [hZero, hLeft]
        omega
      · rw [hLeft]
        show 5 * (settings.scanSliceMaxPages - st.progress.pagesScanned) - 1 < _
        omega
  | loaded h =>
      rw [h] at hWalking
      have hPages := hWalking.1
      have hMax : st.options.mediaCacheMaxBytes = some settings.mediaCacheMaxBytes := by
        rw [hWalk.options]
        rfl
      have hLeft : stepsLeft settings st =
          5 * (settings.scanSliceMaxPages - st.progress.pagesScanned) - 1 := by
        rw [stepsLeft, h]
      rw [ScanState.afterLoad, hMax, hLeft]
      show 5 * (settings.scanSliceMaxPages - st.progress.pagesScanned) - 2 < _
      omega
  | late h =>
      rw [hZero]
      rcases h with ⟨capacity, limit, h⟩ | ⟨rawPage, page, h⟩
      · rw [h] at hWalking
        have hPages : st.progress.pagesScanned < settings.scanSliceMaxPages := hWalking
        rw [stepsLeft, h]
        show 0 < 5 * (settings.scanSliceMaxPages - st.progress.pagesScanned)
        omega
      · rw [h] at hWalking
        have hPages := hWalking.1
        rw [stepsLeft, h]
        show 0 < 5 * (settings.scanSliceMaxPages - st.progress.pagesScanned) - 1
        omega
  | @cached _ _ cached _ clock reached h hCached =>
      rw [h] at hWalking
      have hPages := hWalking.1
      have hLeft : stepsLeft settings st =
          5 * (settings.scanSliceMaxPages - st.progress.pagesScanned) - 2 := by
        rw [stepsLeft, h]
      rw [hLeft]
      unfold ScanState.afterPreviews
      split
      · rename_i hEmpty
        rw [ScanState.afterPage, if_pos (reached_of_empty hWalk h hCached
          (List.isEmpty_iff.mp hEmpty))]
        show 0 < _
        omega
      · show 5 * (settings.scanSliceMaxPages - st.progress.pagesScanned) - 3 < _
        omega
  | @delivered page reached h =>
      rw [h] at hWalking
      have hPages := hWalking.1
      have hLe := @stepsLeft_afterPage settings
        { st with progress := recordPage st.progress page } page reached
      have hRecorded : (recordPage st.progress page).pagesScanned =
          st.progress.pagesScanned + 1 := rfl
      simp only [hRecorded] at hLe
      rw [show stepsLeft settings st =
        5 * (settings.scanSliceMaxPages - st.progress.pagesScanned) - 3 by rw [stepsLeft, h]]
      omega

/-- A scan that takes no step has returned. -/
theorem returned_of_halted (hWalk : Walk client settings lease st)
    (h : client.scanStep now st = none) : ∃ reason, st.phase = .returned reason := by
  obtain ⟨deadline, hDeadline, -⟩ := hWalk.timed
  unfold PreviewClient.scanStep PreviewClient.answer at h
  cases hPhase : st.phase with
  | polling =>
      simp only [hPhase, Option.bind_some, resume] at h
      cases h
  | fetching capacity limit =>
      simp only [hPhase, Option.bind_some, resume] at h
      split at h <;> cases h
  | loading rawPage page =>
      simp only [hPhase, Option.bind_some, resume] at h
      split at h <;> cases h
  | caching rawPage page maxBytes =>
      simp only [hPhase, Option.bind_some, resume, hDeadline, cacheMediaPreviews,
        Option.map_eq_none_iff] at h
      have hSome := @enrichMessages_isSome client.downloadMedia (some deadline) (Or.inl rfl) maxBytes
        (rawPage.zip page.messages) st.clock
      rw [h] at hSome
      cases hSome
  | delivering page reached =>
      simp only [hPhase, Option.bind_some, resume] at h
      cases h
  | returned reason => exact ⟨reason, rfl⟩
  | raised =>
      have hWalking := hWalk.phase
      rw [hPhase] at hWalking
      exact hWalking.elim

end Walk

/-! ## A slice that passes a message -/

section Progress

variable {client : PreviewClient} {settings : Settings} {lease : ScanLease} {st st' : ScanState}
  {now : Instant}

/-- The scan is on the way to its first page, and no time has passed before the downloads. -/
structure FirstPage (settings : Settings) (lease : ScanLease) (st : ScanState) : Prop where
  cursor : st.cursor = lease.lastMessageId
  messagesScanned : st.progress.messagesScanned = 0
  pagesScanned : st.progress.pagesScanned = 0
  notStopped : st.progress.stopRequested = false
  underway : match st.phase with
    | .returned _ => False
    | .raised => False
    | .delivering _ _ => True
    | _ => st.deadline = some (st.clock + seconds settings.scanSliceSeconds)

/-- The scan has passed a message, or is about to. -/
def Moving (client : PreviewClient) (settings : Settings) (lease : ScanLease) (st : ScanState) :
    Prop :=
  (client.src.below st.cursor).length < (client.src.below lease.lastMessageId).length ∨
    FirstPage settings lease st

/-- No message below the cursor of the job blocks. -/
def Unblocked (client : PreviewClient) (settings : Settings) (lease : ScanLease) : Prop :=
  ∀ raw ∈ client.src.messages, ¬ Passed lease.lastMessageId (sourceId raw) →
    client.blocks settings raw = false

theorem firstPage_polled (hWalk : Walk client settings lease st)
    (hQuota : lease.messagesScanned < lease.maxMessages) (h : st.phase = .polling)
    (hFirst : FirstPage settings lease st) : FirstPage settings lease (st.afterPoll false) := by
  have hUnderway := hFirst.underway
  rw [h] at hUnderway
  have hSlice := seconds_pos settings.positive.2.2.2.1
  have hPages := settings.positive.2.2.1
  have hNotFull : st.options.maxMessages.any (· ≤ st.progress.messagesScanned) = false := by
    rw [hWalk.options, hFirst.messagesScanned]
    simp only [ScanLease.scanOptions, Option.any_some, decide_eq_false_iff_not]
    omega
  have hNotLast : st.options.maxPages.any (· ≤ st.progress.pagesScanned) = false := by
    rw [hWalk.options, hFirst.pagesScanned]
    simp only [ScanLease.scanOptions, Option.any_some, decide_eq_false_iff_not]
    omega
  have hNotExpired : st.expired = false := by
    rw [ScanState.expired, hUnderway, Option.any_some, decide_eq_false_iff_not]
    omega
  rw [ScanState.afterPoll, hFirst.notStopped, hNotFull, hNotLast, hNotExpired]
  exact ⟨hFirst.cursor, hFirst.messagesScanned, hFirst.pagesScanned, hFirst.notStopped, hUnderway⟩

theorem firstPage_fetched (hFits : IdsFit client.src) (hWalk : Walk client settings lease st)
    (hBelow : client.src.below lease.lastMessageId ≠ []) {capacity limit : Nat}
    (h : st.phase = .fetching capacity limit) (hFirst : FirstPage settings lease st) :
    FirstPage settings lease
      (st.afterFetch capacity now (client.src.iterMessages st.previousOffsetId limit)) := by
  have hUnderway := hFirst.underway
  have hHeld := hWalk.inv.phase
  rw [h] at hUnderway hHeld
  obtain ⟨hAligned, hCapacity, rfl, rfl⟩ := hHeld
  have hSlice := seconds_pos settings.positive.2.2.2.1
  have hNotExpired : st.expired = false := by
    rw [ScanState.expired, hUnderway, Option.any_some, decide_eq_false_iff_not]
    omega
  have hSome : (client.src.iterMessages st.previousOffsetId st.fetchLimit).isEmpty = false := by
    rw [List.isEmpty_eq_false_iff]
    intro hNil
    have hIds := client.src.iterMessages_ids st.previousOffsetId st.fetchLimit
    rw [hNil, hAligned, hFirst.cursor, List.map_nil, eq_comm, List.take_eq_nil_iff] at hIds
    have hLimit : st.fetchLimit ≠ 0 := by
      unfold ScanState.fetchLimit
      split <;> omega
    exact hBelow (hIds.resolve_left hLimit)
  obtain ⟨page, hBuild⟩ := exists_buildPage hFits (fun raw hRaw =>
    client.src.mem_of_mem_iterMessages (List.mem_of_mem_take hRaw)) now st.pageCapacity
    (some (st.hasMore st.pageCapacity
      (client.src.iterMessages st.previousOffsetId st.fetchLimit)))
  rw [ScanState.afterFetch, hSome, hBuild, hNotExpired]
  exact ⟨hFirst.cursor, hFirst.messagesScanned, hFirst.pagesScanned, hFirst.notStopped, hUnderway⟩

theorem firstPage_cached (hWalk : Walk client settings lease st)
    (hUnblocked : Unblocked client settings lease) {rawPage : List RawMessage}
    {page cached : ScanPage} {maxBytes clock : Nat} {reached : Bool}
    (h : st.phase = .caching rawPage page maxBytes)
    (hCached : cacheMediaPreviews client.downloadMedia rawPage page maxBytes st.deadline
      st.clock = some (cached, reached, clock)) (hFirst : FirstPage settings lease st) :
    FirstPage settings lease ({ st with clock := clock }.afterPreviews cached reached) := by
  have hUnderway := hFirst.underway
  have hWalking := hWalk.phase
  have hHeld := hWalk.inv.phase
  rw [h] at hUnderway hWalking hHeld
  have hDeadline : st.deadline = some (st.clock + seconds settings.scanSliceSeconds) := hUnderway
  obtain ⟨-, hLoaded, rfl⟩ := hWalking
  obtain ⟨-, hLength, -, source, rfl, hPageOf, -⟩ := hHeld
  rw [hDeadline] at hCached
  obtain ⟨⟨messages, r, c⟩, hEnrich, hEq⟩ := Option.map_eq_some_iff.mp hCached
  -- the first message of the page is the one next below the cursor
  have hKept : messages ≠ [] := by
    generalize hMessages : page.messages = scannedPage at hLoaded hEnrich
    cases hLoaded with
    | nil => exact absurd hMessages (messages_ne_nil hPageOf)
    | @cons raw scanned rawRest rest hRaw _ =>
        rw [List.zip_cons_cons] at hEnrich
        refine enrichMessages_first hRaw (by omega) ?_ hEnrich
        refine hUnblocked raw hRaw.mem ?_
        have hMem : sourceId raw ∈ page.ids := by
          rw [ScanPage.ids, hMessages, List.map_cons, hRaw.telegramId]
          exact List.mem_cons_self
        rw [← hFirst.cursor]
        exact (hPageOf.mem_ids hMem).2
  have hSome : cached.messages.isEmpty = false := by
    rw [List.isEmpty_eq_false_iff]
    cases r <;> cases hEq <;> exact hKept
  rw [ScanState.afterPreviews, hSome]
  exact ⟨hFirst.cursor, hFirst.messagesScanned, hFirst.pagesScanned, hFirst.notStopped, trivial⟩

theorem moving_step (hFits : IdsFit client.src) (hWalk : Walk client settings lease st)
    (hQuota : lease.messagesScanned < lease.maxMessages)
    (hBelow : client.src.below lease.lastMessageId ≠ [])
    (hUnblocked : Unblocked client settings lease) (hNext : client.scanStep now st = some st')
    (hMoving : Moving client settings lease st) : Moving client settings lease st' := by
  have hWalk' := walk_step hFits hNext hWalk
  have hCounted := hWalk.counted
  have hCounted' := hWalk'.counted
  rcases hMoving with hShorter | hFirst
  · obtain ⟨answer, -, hResume⟩ := Option.bind_eq_some_iff.mp hNext
    have hProgress := resume_progress hResume
    refine Or.inl ?_
    cases hPage : deliveredPage st answer with
    | none =>
        rw [hPage] at hProgress
        rw [hProgress.cursor]
        exact hShorter
    | some page =>
        rw [hPage] at hProgress
        have hScanned := hProgress.2.1
        omega
  · have hUnderway := hFirst.underway
    cases stepsTo_of_scanStep hNext with
    | polled h => exact Or.inr (firstPage_polled hWalk hQuota h hFirst)
    | fetched h => exact Or.inr (firstPage_fetched hFits hWalk hBelow h hFirst)
    | loaded h =>
        rw [h] at hUnderway
        have hMax : st.options.mediaCacheMaxBytes = some settings.mediaCacheMaxBytes := by
          rw [hWalk.options]
          rfl
        rw [ScanState.afterLoad, hMax]
        exact Or.inr ⟨hFirst.cursor, hFirst.messagesScanned, hFirst.pagesScanned,
          hFirst.notStopped, hUnderway⟩
    | late h hTime =>
        have hDeadline : st.deadline = some (st.clock + seconds settings.scanSliceSeconds) := by
          rcases h with ⟨_, _, h⟩ | ⟨_, _, h⟩ <;> (rw [h] at hUnderway; exact hUnderway)
        have hSlice := seconds_pos settings.positive.2.2.2.1
        rw [ScanState.inTime, hDeadline, Option.all_some, decide_eq_false_iff_not] at hTime
        omega
    | cached h hCached => exact Or.inr (firstPage_cached hWalk hUnblocked h hCached hFirst)
    | @delivered page reached h =>
        have hHeld := hWalk.inv.phase
        rw [h] at hHeld
        obtain ⟨-, -, source, -, hPageOf, -⟩ := hHeld
        have hScanned := (afterPage_progress
          { st with progress := recordPage st.progress page } page reached).messagesScanned
        have hSome := List.length_pos_of_ne_nil (messages_ne_nil hPageOf)
        have hZero := hFirst.messagesScanned
        have hRecorded : (recordPage st.progress page).messagesScanned =
            st.progress.messagesScanned + page.messages.length := rfl
        simp only [hRecorded] at hScanned
        exact Or.inl (by omega)

end Progress

/-! ## Slice after slice -/

section Slices

variable {client : PreviewClient} {settings : Settings} {lease lease' : ScanLease}

/-- The job of the lease can go on, and its message limit is not reached before the end. -/
structure Resumable (src : SavedMessages) (lease : ScanLease) : Prop where
  pageSize_pos : 0 < lease.pageSize
  cursor_ne : lease.lastMessageId ≠ some 0
  quota : lease.messagesScanned + (src.below lease.lastMessageId).length ≤ lease.maxMessages

theorem ScanOptions.valid_iff {options : ScanOptions} : options.valid = true ↔
    0 < options.pageSize ∧ (∀ n, options.maxMessages = some n → 0 < n) ∧
      (∀ n, options.maxPages = some n → 0 < n) ∧ (∀ n, options.timeout = some n → 0 < n) ∧
      (∀ n, options.mediaCacheMaxBytes = some n → 0 < n) := by
  simp only [ScanOptions.valid, Bool.and_eq_true, decide_eq_true_eq, and_assoc,
    Option.all_eq_true]

theorem scanOptions_valid (hResumable : Resumable client.src lease)
    (hQuota : lease.messagesScanned < lease.maxMessages) :
    (lease.scanOptions settings (seconds settings.scanSliceSeconds)).valid = true := by
  obtain ⟨-, -, hPages, hSlice, hMedia⟩ := settings.positive
  rw [ScanOptions.valid_iff]
  refine ⟨hResumable.pageSize_pos, ?_, ?_, ?_, ?_⟩
  · rintro n ⟨⟩
    exact Nat.sub_pos_of_lt hQuota
  · rintro n ⟨⟩
    exact hPages
  · rintro n ⟨⟩
    exact seconds_pos hSlice
  · rintro n ⟨⟩
    exact hMedia

theorem walk_beginScan (settings : Settings) (hResumable : Resumable client.src lease)
    (hQuota : lease.messagesScanned < lease.maxMessages) (clock : Nat) :
    Walk client settings lease
      (beginScan (lease.scanOptions settings (seconds settings.scanSliceSeconds)) clock) where
  inv := beginScan_inv clock (scanOptions_valid hResumable hQuota) hResumable.cursor_ne
  options := rfl
  timed := ⟨clock + seconds settings.scanSliceSeconds, rfl, (Nat.add_sub_cancel_left _ _).le⟩
  cursor_ne := hResumable.cursor_ne
  counted := Nat.zero_add _
  unblocked := fun _ _ hPassed => Or.inl hPassed
  phase := Nat.zero_le _

/-- A slice is a walk to its end. -/
theorem walk_slice (settings : Settings) (hFits : IdsFit client.src)
    (hResumable : Resumable client.src lease)
    (hQuota : lease.messagesScanned < lease.maxMessages) (now : Instant) (clock : Nat) :
    Walk client settings lease (client.slice settings lease now clock) ∧
      ∃ reason, (client.slice settings lease now clock).phase = .returned reason := by
  have hStart := walk_beginScan settings hResumable hQuota clock
  have hKeep : ∀ st st', client.scanStep now st = some st' → Walk client settings lease st →
      Walk client settings lease st' := fun _ _ => walk_step hFits
  have hWalk : Walk client settings lease (client.slice settings lease now clock) :=
    runFor_inv hKeep _ hStart
  have hHalted : client.scanStep now (client.slice settings lease now clock) = none :=
    runFor_halts hKeep (fun _ _ hNext hWalk => stepsLeft_step (stepsTo_of_scanStep hNext) hWalk)
      hStart (Nat.le_refl _)
  exact ⟨hWalk, returned_of_halted hWalk hHalted⟩

/-- A slice without blocking messages passes one at least. -/
theorem slice_moves (hFits : IdsFit client.src) (hResumable : Resumable client.src lease)
    (hQuota : lease.messagesScanned < lease.maxMessages)
    (hBelow : client.src.below lease.lastMessageId ≠ [])
    (hUnblocked : Unblocked client settings lease) (now : Instant) (clock : Nat) :
    (client.src.below (client.slice settings lease now clock).cursor).length <
      (client.src.below lease.lastMessageId).length := by
  have hFirst : FirstPage settings lease
      (beginScan (lease.scanOptions settings (seconds settings.scanSliceSeconds)) clock) :=
    ⟨rfl, rfl, rfl, rfl, rfl⟩
  have hBoth : Walk client settings lease (client.slice settings lease now clock) ∧
      Moving client settings lease (client.slice settings lease now clock) := by
    refine runFor_inv (I := fun st => Walk client settings lease st ∧
      Moving client settings lease st) ?_ _ ⟨walk_beginScan settings hResumable hQuota clock,
      Or.inr hFirst⟩
    rintro st st' hNext ⟨hWalk, hMoving⟩
    exact ⟨walk_step hFits hNext hWalk, moving_step hFits hWalk hQuota hBelow hUnblocked hNext hMoving⟩
  obtain ⟨reason, hReturned⟩ := (walk_slice settings hFits hResumable hQuota now
    clock).2
  refine hBoth.2.resolve_right fun hLate => ?_
  have hUnderway := hLate.underway
  rw [hReturned] at hUnderway
  exact hUnderway

/-- What a slice leaves behind: a job that can go on, further down by the messages it has
passed, none of which blocks. -/
structure PassesOn (client : PreviewClient) (settings : Settings) (lease lease' : ScanLease) :
    Prop where
  resumable : Resumable client.src lease'
  shorter : (client.src.below lease'.lastMessageId).length ≤
    (client.src.below lease.lastMessageId).length
  unblocked : ∀ raw ∈ client.src.messages, Passed lease'.lastMessageId (sourceId raw) →
    Passed lease.lastMessageId (sourceId raw) ∨ client.blocks settings raw = false

theorem advances_nextSlice (settings : Settings) (hFits : IdsFit client.src)
    (hResumable : Resumable client.src lease) (start : Instant × Nat) :
    PassesOn client settings lease (client.nextSlice settings lease start) := by
  unfold PreviewClient.nextSlice
  by_cases hQuota : lease.maxMessages ≤ lease.messagesScanned
  · rw [if_pos hQuota]
    exact ⟨hResumable, Nat.le_refl _, fun _ _ hPassed => Or.inl hPassed⟩
  · rw [if_neg hQuota]
    obtain ⟨hWalk, -⟩ := walk_slice settings hFits hResumable (by omega) start.1
      start.2
    have hCounted := hWalk.counted
    have hLimit := hResumable.quota
    refine ⟨⟨hResumable.pageSize_pos, hWalk.cursor_ne, ?_⟩, ?_, hWalk.unblocked⟩
    · show lease.messagesScanned + _ + (client.src.below (ScanState.cursor _)).length ≤
        lease.maxMessages
      omega
    · show (client.src.below (ScanState.cursor _)).length ≤ _
      omega

/-- A message that an earlier cursor has passed stays passed. -/
theorem PassesOn.passed (h : PassesOn client settings lease lease') {raw : RawMessage}
    (hMem : raw ∈ client.src.messages) (hPassed : Passed lease.lastMessageId (sourceId raw)) :
    Passed lease'.lastMessageId (sourceId raw) := by
  have hSuffix (cursor : Option TelegramId) : client.src.below cursor <:+ client.src.ids :=
    ⟨_, upTo_append_after client.src.ids_descending cursor⟩
  have hLess := List.suffix_of_suffix_length_le (hSuffix lease'.lastMessageId)
    (hSuffix lease.lastMessageId) h.shorter
  by_contra hNot
  have hBelow : sourceId raw ∈ client.src.below lease'.lastMessageId :=
    mem_after.mpr ⟨List.mem_map_of_mem hMem, hNot⟩
  exact (mem_after.mp (hLess.subset hBelow)).2 hPassed

theorem PassesOn.trans {lease'' : ScanLease} (h : PassesOn client settings lease lease')
    (h' : PassesOn client settings lease' lease'') : PassesOn client settings lease lease'' :=
  ⟨h'.resumable, h'.shorter.trans h.shorter, fun raw hMem hPassed =>
    (h'.unblocked raw hMem hPassed).elim (h.unblocked raw hMem) Or.inr⟩

theorem advances_slices (settings : Settings) (hFits : IdsFit client.src)
    (hResumable : Resumable client.src lease) (starts : List (Instant × Nat)) :
    PassesOn client settings lease (starts.foldl (client.nextSlice settings) lease) := by
  induction starts generalizing lease with
  | nil => exact ⟨hResumable, Nat.le_refl _, fun _ _ hPassed => Or.inl hPassed⟩
  | cons start starts ih =>
      have hNext := advances_nextSlice settings hFits hResumable start
      exact hNext.trans (ih hNext.resumable)

/-- As long as no message blocks, every slice leaves one message less. -/
theorem slices_shorten (hFits : IdsFit client.src) (hResumable : Resumable client.src lease)
    (hUnblocked : Unblocked client settings lease) (starts : List (Instant × Nat)) :
    (client.src.below (starts.foldl (client.nextSlice settings) lease).lastMessageId).length ≤
      (client.src.below lease.lastMessageId).length - starts.length := by
  induction starts generalizing lease with
  | nil => exact Nat.le_refl _
  | cons start starts ih =>
      have hNext := advances_nextSlice settings hFits hResumable start
      have hStill : Unblocked client settings (client.nextSlice settings lease start) :=
        fun raw hMem hNot => hUnblocked raw hMem fun hPassed => hNot (hNext.passed hMem hPassed)
      have hRest := ih hNext.resumable hStill
      rw [List.foldl_cons, List.length_cons]
      by_cases hBelow : client.src.below lease.lastMessageId = []
      · have hZero := hNext.shorter
        rw [hBelow, List.length_nil] at hZero
        omega
      · have hSome := List.length_pos_of_ne_nil hBelow
        have hLimit := hResumable.quota
        have hQuota : ¬ lease.maxMessages ≤ lease.messagesScanned := by omega
        have hMoves := slice_moves hFits hResumable (by omega) hBelow hUnblocked start.1 start.2
        have hCursor : (client.nextSlice settings lease start).lastMessageId =
            (client.slice settings lease start.1 start.2).cursor := by
          rw [PreviewClient.nextSlice, if_neg hQuota]
          rfl
        rw [← hCursor] at hMoves
        omega

/-- Slices that come to the end have met no message that blocks. -/
theorem unblocked_of_passes {count : Nat} (hFits : IdsFit client.src)
    (hResumable : Resumable client.src lease) (h : client.PassesWithin settings count lease) :
    Unblocked client settings lease := by
  intro raw hMem hNot
  -- any slices will do, since all of them come to the end
  have hNothing := h (List.replicate count (0, 0)) (List.length_replicate).ge
  have hAdvances := advances_slices settings hFits hResumable
    (List.replicate count (0, 0))
  have hPassed : Passed ((List.replicate count (0, 0)).foldl (client.nextSlice settings)
      lease).lastMessageId (sourceId raw) := by
    by_contra hLeft
    have hBelow : sourceId raw ∈ client.src.below ((List.replicate count (0, 0)).foldl
        (client.nextSlice settings) lease).lastMessageId :=
      mem_after.mpr ⟨List.mem_map_of_mem hMem, hLeft⟩
    rw [hNothing] at hBelow
    cases hBelow
  exact (hAdvances.unblocked raw hMem hPassed).resolve_left hNot

end Slices

/-! ## Which sources are passed -/

/-- The slices of a job come to the end of its source, after a number of slices that is the
same for all sources of one size. -/
def PreviewsNeverBlock : Prop :=
  ∀ (settings : Settings) (size : Nat), ∃ count, ∀ (client : PreviewClient) (lease : ScanLease),
    client.src.messages.length = size → IdsFit client.src → Resumable client.src lease →
      client.PassesWithin settings count lease

/-- The cursor comes past every message exactly when no message below it blocks, and then one
slice for each message of the source is enough. -/
theorem previews_pass_iff (client : PreviewClient) (settings : Settings) (lease : ScanLease)
    (hFits : IdsFit client.src) (hResumable : Resumable client.src lease) :
    ((∃ count, client.PassesWithin settings count lease) ↔ Unblocked client settings lease) ∧
      (Unblocked client settings lease →
        client.PassesWithin settings client.src.messages.length lease) := by
  have hEnough (hUnblocked : Unblocked client settings lease) :
      client.PassesWithin settings client.src.messages.length lease := by
    intro starts hCount
    have hShort := slices_shorten hFits hResumable hUnblocked starts
    have hLength : (client.src.below lease.lastMessageId).length ≤ client.src.messages.length := by
      have hSublist : (client.src.below lease.lastMessageId).Sublist client.src.ids :=
        after_sublist lease.lastMessageId client.src.ids
      have hLe := hSublist.length_le
      rwa [SavedMessages.ids, List.length_map] at hLe
    exact List.length_eq_zero_iff.mp (by omega)
  refine ⟨⟨?_, fun hUnblocked => ⟨_, hEnough hUnblocked⟩⟩, hEnough⟩
  rintro ⟨count, hPasses⟩
  exact unblocked_of_passes hFits hResumable hPasses

/-- A library of one photo, the message 5. -/
def onePhoto : SavedMessages :=
  .ofIds { textMessage "" with photo := some ⟨none⟩ } [5] (by decide) (by decide)

/-- A client that downloads every preview in the same way. -/
def photoClient (download : Download) : PreviewClient := ⟨onePhoto, [], fun _ _ => download⟩

/-- The lease of a new job of the account. -/
def photoLease : ScanLease := { secondAccountLease with lastMessageId := none, maxMessages := 4 }

theorem onePhoto_fits : IdsFit onePhoto := by unfold IdsFit; decide

theorem photoLease_resumable : Resumable onePhoto photoLease :=
  ⟨by decide, by decide, by decide⟩

/-- A download that fails is skipped. -/
theorem previews_pass_iff_failing :
    (photoClient (.raises 0)).PassesWithin demoEnv.settings 1 photoLease := by
  refine (previews_pass_iff (photoClient (.raises 0)) demoEnv.settings photoLease onePhoto_fits
    photoLease_resumable).2 ?_
  intro raw hMem _
  have hAll : ∀ raw ∈ onePhoto.messages,
      (photoClient (.raises 0)).blocks demoEnv.settings raw = false := by decide +kernel
  exact hAll raw hMem

/-- A download that raises `TimeoutError` stops every slice at its message. -/
theorem previews_block : ¬ PreviewsNeverBlock := by
  intro hClaim
  obtain ⟨count, hCount⟩ := hClaim demoEnv.settings 1
  have hPasses := hCount (photoClient (.raisesTimeout 0)) photoLease (by decide) onePhoto_fits
    photoLease_resumable
  have hUnblocked := unblocked_of_passes onePhoto_fits photoLease_resumable hPasses
  have hBlocks : ∃ raw ∈ onePhoto.messages, ¬ Passed photoLease.lastMessageId (sourceId raw) ∧
      (photoClient (.raisesTimeout 0)).blocks demoEnv.settings raw = true := by
    refine ⟨_, List.mem_singleton.mpr rfl, ?_, by decide +kernel⟩
    rintro ⟨_, hNone, -⟩
    cases hNone
  obtain ⟨raw, hMem, hNot, hBlocks⟩ := hBlocks
  rw [hUnblocked raw hMem hNot] at hBlocks
  cases hBlocks

end SavedOrganizer
