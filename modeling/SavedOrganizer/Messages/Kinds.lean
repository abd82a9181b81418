import SavedOrganizer.Organizer
import SavedOrganizer.Service.Persist

/-!
# Message kinds

The eight predicates of `_message_kind_predicate`. They are meant to be exclusive, and
`primaryKind` is the one kind they single out (`messageKindPredicate_iff`) as long as media
type and MIME type do not name two media at once. When they do, each of the two filters
selects the message (`message_kinds_iff`).
-/

namespace SavedOrganizer

open Python

/-- `trim(t)`: only blanks go. -/
def sqlTrim (t : Text) : Text :=
  ((t.dropWhile (· == ' ')).reverse.dropWhile (· == ' ')).reverse

/-- `MessageKind`: supported message-content filters. -/
inductive MessageKind
  | text | link | image | audio | video | document | mixed | other
  deriving DecidableEq, Repr

/-! ## The evidence -/

namespace Message

variable (sql : Sql) (m : Message)

def mediaTypeText : Text := sql.lower (sqlTrim (orEmpty m.mediaType))

def mimeTypeText : Text := sql.lower (sqlTrim (orEmpty m.mimeType))

def hasMediaType : Bool := 0 < (m.mediaTypeText sql).length && m.mediaTypeText sql != "text".toList

def hasMimeType : Bool := 0 < (m.mimeTypeText sql).length

def hasNativeMedia : Bool := m.hasMediaType sql || m.hasMimeType sql

def hasContent : Bool := 0 < (sqlTrim (orEmpty m.content)).length

def hasUrl : Bool := 0 < (sqlTrim (orEmpty m.url)).length

def hasCaptionOrUrl : Bool := m.hasContent || m.hasUrl

def isImage : Bool :=
  contains "photo".toList (m.mediaTypeText sql) || contains "image".toList (m.mediaTypeText sql) ||
    startsWith "image/".toList (m.mimeTypeText sql)

def isAudio : Bool :=
  contains "audio".toList (m.mediaTypeText sql) || contains "voice".toList (m.mediaTypeText sql) ||
    startsWith "audio/".toList (m.mimeTypeText sql)

def isVideo : Bool :=
  contains "video".toList (m.mediaTypeText sql) ||
    contains "animation".toList (m.mediaTypeText sql) ||
    startsWith "video/".toList (m.mimeTypeText sql)

def isDocument : Bool :=
  (contains "document".toList (m.mediaTypeText sql) ||
    contains "file".toList (m.mediaTypeText sql) || m.hasMimeType sql) &&
    !m.isImage sql && !m.isAudio sql && !m.isVideo sql

def isKnownMedia : Bool := m.isImage sql || m.isAudio sql || m.isVideo sql || m.isDocument sql

def isMediaOnly : Bool := m.hasNativeMedia sql && !m.hasCaptionOrUrl

end Message

/-- `_message_kind_predicate`. -/
def messageKindPredicate (sql : Sql) (kind : MessageKind) (m : Message) : Bool :=
  match kind with
  | .text => !m.hasNativeMedia sql && !m.hasUrl && m.hasContent
  | .link => !m.hasNativeMedia sql && m.hasUrl
  | .image => m.isMediaOnly sql && m.isImage sql
  | .audio => m.isMediaOnly sql && m.isAudio sql
  | .video => m.isMediaOnly sql && m.isVideo sql
  | .document => m.isMediaOnly sql && m.isDocument sql
  | .mixed => m.hasNativeMedia sql && m.hasCaptionOrUrl
  | .other => m.isMediaOnly sql && !m.isKnownMedia sql

/-! ## One kind for a message -/

/-- The message has neither text nor link nor media. -/
def Message.blank (sql : Sql) (m : Message) : Bool := !m.hasCaptionOrUrl && !m.hasNativeMedia sql

/-- At most one filter selects the message, and one does unless it is blank. -/
structure OneKind (sql : Sql) (m : Message) : Prop where
  exclusive : ∀ kind kind', messageKindPredicate sql kind m = true →
    messageKindPredicate sql kind' m = true → kind = kind'
  exhaustive : m.blank sql = false → ∃ kind, messageKindPredicate sql kind m = true

/-- Media without text or link, and two media named by its media type and MIME type. -/
def NamesTwoMedia (sql : Sql) (m : Message) : Prop :=
  m.isMediaOnly sql = true ∧
    (m.isImage sql = true ∧ m.isAudio sql = true ∨ m.isImage sql = true ∧ m.isVideo sql = true ∨
      m.isAudio sql = true ∧ m.isVideo sql = true)

/-- The kind of a message: its media before its link before its text. -/
def primaryKind (sql : Sql) (m : Message) : Option MessageKind :=
  if m.hasNativeMedia sql then
    if m.hasCaptionOrUrl then some .mixed
    else if m.isImage sql then some .image
    else if m.isAudio sql then some .audio
    else if m.isVideo sql then some .video
    else if m.isDocument sql then some .document
    else some .other
  else if m.hasUrl then some .link
  else if m.hasContent then some .text
  else none

variable {sql : Sql} {m : Message}

theorem messageKindPredicate_iff (h : ¬ NamesTwoMedia sql m) (kind : MessageKind) :
    messageKindPredicate sql kind m = true ↔ primaryKind sql m = some kind := by
  unfold primaryKind
  by_cases hNative : m.hasNativeMedia sql = true
  · by_cases hCaption : m.hasCaptionOrUrl = true
    · cases kind <;> simp [messageKindPredicate, Message.isMediaOnly, hNative, hCaption]
    · -- media only: the evidence names one medium
      have hOnly : m.isMediaOnly sql = true := by simp [Message.isMediaOnly, hNative, hCaption]
      have hOne : ¬ (m.isImage sql = true ∧ m.isAudio sql = true ∨
          m.isImage sql = true ∧ m.isVideo sql = true ∨
          m.isAudio sql = true ∧ m.isVideo sql = true) := fun hTwo => h ⟨hOnly, hTwo⟩
      cases kind <;>
        simp only [messageKindPredicate, hOnly, hNative, hCaption, Message.isKnownMedia,
          Message.isDocument] <;> grind
  · cases kind <;>
      simp only [messageKindPredicate, hNative, Message.isMediaOnly, Message.hasCaptionOrUrl] <;>
      grind

/-- Two filters select the same message exactly when it is nothing but media and its media
type and MIME type name two kinds of them. -/
theorem message_kinds_iff (sql : Sql) (m : Message) : OneKind sql m ↔ ¬ NamesTwoMedia sql m := by
  constructor
  · rintro ⟨hExclusive, -⟩ ⟨hOnly, ⟨hImage, hAudio⟩ | ⟨hImage, hVideo⟩ | ⟨hAudio, hVideo⟩⟩
    · have := hExclusive .image .audio (by simp [messageKindPredicate, hOnly, hImage])
        (by simp [messageKindPredicate, hOnly, hAudio])
      cases this
    · have := hExclusive .image .video (by simp [messageKindPredicate, hOnly, hImage])
        (by simp [messageKindPredicate, hOnly, hVideo])
      cases this
    · have := hExclusive .audio .video (by simp [messageKindPredicate, hOnly, hAudio])
        (by simp [messageKindPredicate, hOnly, hVideo])
      cases this
  · intro h
    have hIff := messageKindPredicate_iff h
    refine ⟨fun kind kind' hKind hKind' => ?_, fun hBlank => ?_⟩
    · exact Option.some.inj (((hIff kind).mp hKind).symm.trans ((hIff kind').mp hKind'))
    · have hSome : (primaryKind sql m).isSome = true := by
        simp only [Message.blank, Message.hasCaptionOrUrl] at hBlank
        unfold primaryKind
        grind
      obtain ⟨kind, hKind⟩ := Option.isSome_iff_exists.mp hSome
      exact ⟨kind, (hIff kind).mpr hKind⟩

/-! ### Audio in a video container -/

def plainSql : Sql where
  lower := Python.lower
  collation := .on (.ascending id) List.length

/-- A message with an audio attribute whose document is an MP4 file. -/
def songInVideo : RawMessage :=
  { textMessage "" with
    id := .int 9
    audio := true
    document := some ⟨.int 1000, some "video/mp4".toList, [], none⟩ }

def importLease : ScanLease :=
  { jobId := 7, userId := 1, pageSize := 100, telegramUserId := 200, connectionGeneration := 3,
    messagesScanned := 0, lastMessageId := none, maxMessages := 4, maxRuntimeSeconds := 3600,
    startedAt := 0, owner := 0, replaceExisting := false }

/-- The row that an import adds for it. -/
def songRow : Message := newMessage importLease (scannedMessage 0 9 songInVideo) 1

theorem song_has_two_kinds :
    messageKindPredicate plainSql .audio songRow = true ∧
      messageKindPredicate plainSql .video songRow = true ∧ ¬ OneKind plainSql songRow := by
  have hAudio : messageKindPredicate plainSql .audio songRow = true := by decide +kernel
  have hVideo : messageKindPredicate plainSql .video songRow = true := by decide +kernel
  refine ⟨hAudio, hVideo, fun hOne => ?_⟩
  cases hOne.exclusive .audio .video hAudio hVideo

end SavedOrganizer
