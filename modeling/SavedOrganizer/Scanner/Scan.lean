import SavedOrganizer.Scanner.Preview

/-!
# The scan loop

`SavedMessagesScanner.scan` as a machine that stops at every `await` of the loop. A
`ScanState` holds what the coroutine holds there (its phase), the scanner's progress, the
offset of the next fetch and the event loop's clock. `resume` continues it with the
`Answer` of the awaited call: whether a stop is requested, the fetched page, the rows of
`load_cached_media`, the behaviour of `download_media`, or that `on_page` is done. An
awaited call may also raise.

The service always passes `on_page`, `should_stop` and `load_cached_media`, so these are
part of the machine; the numeric options keep their `None`. Every answer says how long the
call took. Under a deadline a call that takes the whole remaining time is cut off, as
`asyncio.timeout` does.
-/

namespace SavedOrganizer

/-- The values of `completion_reason` a scan may end with. -/
inductive ScanReason
  | sourceExhausted | messageLimitReached | runtimeLimitReached | stoppedByUser
  | slicePageLimit | sliceTimeLimit
  deriving DecidableEq, Repr

/-- `TERMINAL_COMPLETION_REASONS`. -/
def ScanReason.terminal : ScanReason → Bool
  | .sourceExhausted | .messageLimitReached => true
  | _ => false

/-- `ScanProgress`: the part of the snapshot the service reads. -/
structure ScanProgress where
  isRunning : Bool
  isComplete : Bool
  stopRequested : Bool
  messagesScanned : Nat
  pagesScanned : Nat
  pageSize : Nat
  lastMessageId : Option TelegramId
  completionReason : Option ScanReason
  deriving DecidableEq, Repr

/-- The arguments of `scan`; `timeout` in microseconds. -/
structure ScanOptions where
  pageSize : Nat
  startOffsetId : Option TelegramId
  maxMessages : Option Nat
  maxPages : Option Nat
  timeout : Option Nat
  mediaCacheMaxBytes : Option Nat
  deriving DecidableEq, Repr

/-- `raise ValueError(..)` at the start of `scan`. -/
def ScanOptions.valid (options : ScanOptions) : Bool :=
  0 < options.pageSize && options.maxMessages.all (0 < ·) && options.maxPages.all (0 < ·) &&
    options.timeout.all (0 < ·) && options.mediaCacheMaxBytes.all (0 < ·)

/-- Where the coroutine waits. -/
inductive ScanPhase
  /-- `should_stop()`, at the top of the loop. -/
  | polling
  /-- `_fetch_page(..)`. -/
  | fetching (pageCapacity fetchLimit : Nat)
  /-- `load_cached_media(page)`. -/
  | loading (rawPage : List RawMessage) (page : ScanPage)
  /-- The downloads of `_cache_media_previews`. -/
  | caching (rawPage : List RawMessage) (page : ScanPage) (maxBytes : Nat)
  /-- `on_page(page)`. -/
  | delivering (page : ScanPage) (previewDeadlineReached : Bool)
  | returned (reason : ScanReason)
  | raised
  deriving DecidableEq, Repr

structure ScanState where
  options : ScanOptions
  progress : ScanProgress
  previousOffsetId : TelegramId
  clock : Nat
  deadline : Option Nat
  phase : ScanPhase
  deriving DecidableEq, Repr

/-- A stored preview, as `load_cached_media` selects it. -/
structure CachedMediaRow where
  telegramId : TelegramId
  cachedMedia : Bytes
  cachedMediaMimeType : Option Text
  deriving DecidableEq, Repr

/-- The outcome of the awaited call. -/
inductive Answer
  | stop (elapsed : Nat) (requested : Bool)
  | fetched (elapsed : Nat) (now : Instant) (rawPage : List RawMessage)
  | loaded (elapsed : Nat) (rows : List CachedMediaRow)
  | downloading (downloadMedia : RawMessage → Option ThumbnailSelector → Download)
  | delivered (elapsed : Nat)
  /-- The call raises `TimeoutError` itself. -/
  | raisesTimeout (elapsed : Nat)
  | raises (elapsed : Nat)

/-! ## The loop, from one `await` to the next -/

/-- `_begin_scan`. -/
def beginScan (options : ScanOptions) (clock : Nat) : ScanState :=
  { options := options
    progress :=
      { isRunning := true, isComplete := false, stopRequested := false, messagesScanned := 0,
        pagesScanned := 0, pageSize := options.pageSize,
        lastMessageId := options.startOffsetId, completionReason := none }
    previousOffsetId := options.startOffsetId.getD 0
    clock := clock
    deadline := options.timeout.map (clock + ·)
    phase := .polling }

/-- `_record_page`. -/
def recordPage (progress : ScanProgress) (page : ScanPage) : ScanProgress :=
  { progress with
    messagesScanned := progress.messagesScanned + page.messages.length
    pagesScanned := progress.pagesScanned + 1
    lastMessageId := page.nextOffsetId }

namespace ScanState

variable (st : ScanState)

/-- `_finish_scan` without an error, and the `return`. -/
def finish (reason : ScanReason) : ScanState :=
  { st with
    progress := { st.progress with
      isRunning := false
      isComplete := !st.progress.stopRequested && reason.terminal
      completionReason := some reason }
    phase := .returned reason }

/-- `_finish_scan` with an error, and the `raise`. -/
def fail : ScanState :=
  { st with
    progress := { st.progress with
      isRunning := false, isComplete := false, completionReason := none }
    phase := .raised }

/-- The clock after an awaited call. -/
def elapse (elapsed : Nat) : ScanState := { st with clock := st.clock + elapsed }

/-- No time is left before the deadline. -/
def expired : Bool := st.deadline.any (· ≤ st.clock)

/-- The call ends before `asyncio.timeout(remaining_seconds)` does. -/
def inTime (elapsed : Nat) : Bool := st.deadline.all (st.clock + elapsed < ·)

/-- The number of messages the next page may hold. -/
def pageCapacity : Nat :=
  match st.options.maxMessages with
  | none => st.options.pageSize
  | some n => min st.options.pageSize (n - st.progress.messagesScanned)

/-- One message more is fetched to see whether the source goes on. -/
def fetchLimit : Nat :=
  if st.options.maxMessages.isSome then st.pageCapacity + 1 else st.pageCapacity

/-- From the answer of `should_stop` to the fetch. -/
def afterPoll (requested : Bool) : ScanState :=
  if st.progress.stopRequested || requested then
    { st with progress := { st.progress with stopRequested := true } }.finish .stoppedByUser
  else if st.options.maxMessages.any (· ≤ st.progress.messagesScanned) then
    st.finish .messageLimitReached
  else if st.options.maxPages.any (· ≤ st.progress.pagesScanned) then
    st.finish .slicePageLimit
  else if st.expired then st.finish .sliceTimeLimit
  else { st with phase := .fetching st.pageCapacity st.fetchLimit }

/-- The source has more messages than the page. -/
def hasMore (pageCapacity : Nat) (rawPage : List RawMessage) : Bool :=
  if st.options.maxMessages.isSome then pageCapacity < rawPage.length
  else pageCapacity ≤ rawPage.length

/-- From the fetched page to `load_cached_media`. -/
def afterFetch (pageCapacity : Nat) (now : Instant) (rawPage : List RawMessage) : ScanState :=
  if rawPage.isEmpty then st.finish .sourceExhausted
  else match buildPage now (rawPage.take pageCapacity) pageCapacity
      (some (st.hasMore pageCapacity rawPage)) with
    | .error _ => st.fail
    | .ok page =>
        if st.expired then st.finish .sliceTimeLimit
        else { st with phase := .loading (rawPage.take pageCapacity) page }

/-- From `_record_page` to the next round of the loop. -/
def afterPage (page : ScanPage) (previewDeadlineReached : Bool) : ScanState :=
  if previewDeadlineReached then st.finish .sliceTimeLimit
  else match page.nextOffsetId with
    | none => st.finish .sourceExhausted
    | some next =>
        if !page.hasMore then st.finish .sourceExhausted
        else if next = st.previousOffsetId then st.finish .sourceExhausted
        else { st with previousOffsetId := next, phase := .polling }

/-- From the previews to `on_page`, when there is anything to deliver. -/
def afterPreviews (page : ScanPage) (previewDeadlineReached : Bool) : ScanState :=
  if page.messages.isEmpty then st.afterPage page previewDeadlineReached
  else { st with phase := .delivering page previewDeadlineReached }

/-- From `load_cached_media` to the downloads. -/
def afterLoad (rawPage : List RawMessage) (page : ScanPage) : ScanState :=
  match st.options.mediaCacheMaxBytes with
  | none => st.afterPreviews page false
  | some maxBytes => { st with phase := .caching rawPage page maxBytes }

end ScanState

/-- `load_cached_media`: the messages that have a stored preview carry it. -/
def withCachedMedia (rows : List CachedMediaRow) (page : ScanPage) : ScanPage :=
  { page with
    messages := page.messages.map fun message =>
      match rows.reverse.find? (fun row => row.telegramId = message.telegramId) with
      | some row => { message with
          cachedMedia := some row.cachedMedia
          cachedMediaMimeType := row.cachedMediaMimeType }
      | none => message }

/-- The next state, when the answer is one for the awaited call. -/
def resume (st : ScanState) (answer : Answer) : Option ScanState :=
  match st.phase, answer with
  | .polling, .stop d requested => some ((st.elapse d).afterPoll requested)
  | .polling, .raisesTimeout d => some (st.elapse d).fail
  | .polling, .raises d => some (st.elapse d).fail
  | .fetching capacity _, .fetched d now rawPage =>
      if st.inTime d then some ((st.elapse d).afterFetch capacity now rawPage)
      else some ((st.elapse d).finish .sliceTimeLimit)
  | .fetching _ _, .raisesTimeout d => some ((st.elapse d).finish .sliceTimeLimit)
  | .fetching _ _, .raises d =>
      if st.inTime d then some (st.elapse d).fail
      else some ((st.elapse d).finish .sliceTimeLimit)
  | .loading rawPage page, .loaded d rows =>
      if st.inTime d then some ((st.elapse d).afterLoad rawPage (withCachedMedia rows page))
      else some ((st.elapse d).finish .sliceTimeLimit)
  | .loading _ _, .raisesTimeout d => some ((st.elapse d).finish .sliceTimeLimit)
  | .loading _ _, .raises d =>
      if st.inTime d then some (st.elapse d).fail
      else some ((st.elapse d).finish .sliceTimeLimit)
  | .caching rawPage page maxBytes, .downloading downloadMedia =>
      (cacheMediaPreviews downloadMedia rawPage page maxBytes st.deadline st.clock).map
        fun (cached, reached, clock) => { st with clock := clock }.afterPreviews cached reached
  | .delivering page reached, .delivered d =>
      some ({ st.elapse d with progress := recordPage st.progress page }.afterPage page reached)
  | .delivering _ _, .raisesTimeout d => some (st.elapse d).fail
  | .delivering _ _, .raises d => some (st.elapse d).fail
  | _, _ => none

/-- The page that an answer of `on_page` has persisted. -/
def deliveredPage (st : ScanState) : Answer → Option ScanPage
  | .delivered _ =>
      match st.phase with
      | .delivering page _ => some page
      | _ => none
  | _ => none

end SavedOrganizer
