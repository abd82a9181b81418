import Mathlib.Algebra.Group.Int.Defs
import SavedOrganizer.Models
import SavedOrganizer.Scanner.Url

/-!
# Normalizing Telegram messages

`_normalize_message` turns a Telethon message object into a `ScannedMessage`. The objects
are read with `getattr` defaults and coerced, so an attribute that should be a number is a
`Number` (it may be missing, a `bool`, or any object with or without an `int(..)` value) and
one that should be a text is the `str(..)` of what is there.

The only error is a message without a usable id.
-/

namespace SavedOrganizer

open Python

/-! ## Message objects -/

/-- The value of an attribute read as a number. -/
inductive Number
  /-- `None`, or the attribute is missing. -/
  | missing
  | bool (value : Bool)
  | int (value : Int)
  /-- Any other object, with `int(value)` or `none` when that raises `TypeError` or
  `ValueError`. -/
  | other (asInt : Option Int)
  deriving DecidableEq, Repr

/-- A photo size or document thumbnail. -/
structure Thumbnail where
  /-- `"video" in type(size).__name__.lower()`. -/
  isVideo : Bool
  type : Option Text
  w : Number
  h : Number
  size : Number
  /-- The `sizes` list of a progressive size. -/
  sizes : Option (List Number)
  deriving DecidableEq, Repr

structure Document where
  size : Number
  mimeType : Option Text
  /-- The `file_name` of each attribute. -/
  attributes : List (Option Text)
  thumbs : Option (List Thumbnail)
  deriving DecidableEq, Repr

structure Photo where
  sizes : Option (List Thumbnail)
  deriving DecidableEq, Repr

structure Sender where
  firstName : Option Text
  lastName : Option Text
  username : Option Text
  deriving DecidableEq, Repr

/-- What the scanner reads of a Telethon message. -/
structure RawMessage where
  id : Number
  message : Option Text
  text : Option Text
  /-- `video`, `audio` and `voice` are only tested for being set. -/
  video : Bool
  audio : Bool
  voice : Bool
  photo : Option Photo
  document : Option Document
  /-- The `from_name` of `fwd_from`, when the message was forwarded. -/
  fwdFrom : Option (Option Text)
  sender : Option Sender
  /-- The `date`, when it is a `datetime`. -/
  date : Option Instant
  deriving DecidableEq, Repr

/-- A message with a text and nothing else. -/
def textMessage (text : String) : RawMessage :=
  { id := .missing, message := some text.toList, text := none, video := false, audio := false,
    voice := false, photo := none, document := none, fwdFrom := none, sender := none,
    date := none }

/-- `ScannedMessage`: normalized Saved Message payload produced by the scanner. -/
structure ScannedMessage where
  telegramId : TelegramId
  content : Option Text
  mediaType : Option Text
  fileName : Option Text
  fileSize : Option Int
  mimeType : Option Text
  url : Option Text
  senderName : Option Text
  date : Instant
  rawData : List (String × TelegramId)
  cachedMedia : Option Bytes
  cachedMediaMimeType : Option Text
  deriving DecidableEq, Repr

/-! ## Coercions -/

def MIN_DB_BIGINT : Int := -(2 ^ 63)
def MAX_DB_BIGINT : Int := 2 ^ 63 - 1
def MAX_FILE_NAME_LENGTH : Nat := 255
def MAX_MIME_TYPE_LENGTH : Nat := 100
def MAX_SENDER_NAME_LENGTH : Nat := 255

/-- `_coerce_int`. -/
def coerceInt : Number → Option Int
  | .missing => none
  | .bool _ => none
  | .int n => some n
  | .other n => n

/-- `_coerce_non_negative_int`. -/
def coerceNonNegativeInt (value : Number) : Option Int :=
  (coerceInt value).filter (0 ≤ ·)

/-- `_coerce_db_bigint`. -/
def coerceDbBigint (value : Number) (minimum : Int) : Option Int :=
  (coerceInt value).filter (fun n => minimum ≤ n && n ≤ MAX_DB_BIGINT)

/-- `_coerce_str`. -/
def coerceStr (value : Option Text) (maxLength : Option Nat) : Option Text :=
  value.bind fun v =>
    let text := strip v
    if text.isEmpty then none
    else some (match maxLength with
      | none => text
      | some n => text.take n)

/-! ## Extraction -/

/-- `_optional_text`. -/
def optionalText (raw : RawMessage) : Option Text :=
  coerceStr (raw.message.or raw.text) none

/-- `_extract_file_name`: the first attribute that has a file name. -/
def extractFileName (document : Document) : Option Text :=
  (document.attributes.find? isTruthy).bind fun name =>
    coerceStr name (some MAX_FILE_NAME_LENGTH)

/-- The media type, file name, file size and MIME type of a message. -/
structure Media where
  mediaType : Option Text
  fileName : Option Text
  fileSize : Option Int
  mimeType : Option Text
  deriving DecidableEq, Repr

/-- `_extract_document_metadata`. -/
def extractDocumentMetadata (mediaType : String) : Option Document → Media
  | none => ⟨some mediaType.toList, none, none, none⟩
  | some document =>
      { mediaType := some mediaType.toList
        fileName := extractFileName document
        fileSize := coerceDbBigint document.size 0
        mimeType := coerceStr document.mimeType (some MAX_MIME_TYPE_LENGTH) }

/-- `_extract_media`. -/
def extractMedia (raw : RawMessage) : Media :=
  if raw.video then ⟨some "video".toList, none, none, none⟩
  else if raw.audio then extractDocumentMetadata "audio" raw.document
  else if raw.voice then extractDocumentMetadata "voice" raw.document
  else if raw.photo.isSome then ⟨some "photo".toList, none, none, none⟩
  else if raw.document.isSome then extractDocumentMetadata "document" raw.document
  else ⟨none, none, none, none⟩

/-- First and last name, joined by a blank when both are there. -/
def fullName (sender : Sender) : Text :=
  let parts := [coerceStr sender.firstName none, coerceStr sender.lastName none].filter isTruthy
  strip (List.intercalate [' '] (parts.map orEmpty))

/-- `_extract_sender_name`. -/
def extractSenderName (raw : RawMessage) : Option Text :=
  let forwardedName := raw.fwdFrom.bind (coerceStr · (some MAX_SENDER_NAME_LENGTH))
  if isTruthy forwardedName then forwardedName
  else raw.sender.bind fun sender =>
    let name := fullName sender
    if name.isEmpty then coerceStr sender.username (some MAX_SENDER_NAME_LENGTH)
    else some (name.take MAX_SENDER_NAME_LENGTH)

/-- `_extract_raw_data`: only the identifier is retained. -/
def extractRawData (telegramId : TelegramId) : List (String × TelegramId) := [("id", telegramId)]

/-- `ValueError("Encountered a Telegram message without an id.")`. -/
inductive NormalizationError
  | withoutId
  deriving DecidableEq, Repr

/-- `_required_telegram_id`. -/
def requiredTelegramId (raw : RawMessage) : Except NormalizationError TelegramId :=
  match coerceDbBigint raw.id MIN_DB_BIGINT with
  | some n => .ok n
  | none => .error .withoutId

/-- The payload of a message whose id is known. `now` dates a message without a date. -/
def scannedMessage (now : Instant) (telegramId : TelegramId) (raw : RawMessage) :
    ScannedMessage :=
  let media := extractMedia raw
  { telegramId := telegramId
    content := optionalText raw
    mediaType := media.mediaType
    fileName := media.fileName
    fileSize := media.fileSize
    mimeType := media.mimeType
    url := extractUrl (optionalText raw)
    senderName := extractSenderName raw
    date := raw.date.getD now
    rawData := extractRawData telegramId
    cachedMedia := none
    cachedMediaMimeType := none }

/-- `_normalize_message`. -/
def normalizeMessage (now : Instant) (raw : RawMessage) :
    Except NormalizationError ScannedMessage :=
  (requiredTelegramId raw).map (fun telegramId => scannedMessage now telegramId raw)

theorem normalizeMessage_eq_ok {now : Instant} {raw : RawMessage} {scanned : ScannedMessage}
    (h : normalizeMessage now raw = .ok scanned) :
    ∃ telegramId, requiredTelegramId raw = .ok telegramId ∧
      scanned = scannedMessage now telegramId raw := by
  unfold normalizeMessage at h
  cases hId : requiredTelegramId raw with
  | error e => rw [hId] at h; cases h
  | ok telegramId =>
      rw [hId] at h
      exact ⟨telegramId, rfl, (Except.ok.inj h).symm⟩

theorem normalizeMessage_telegramId {now : Instant} {raw : RawMessage}
    {scanned : ScannedMessage} (h : normalizeMessage now raw = .ok scanned) :
    coerceInt raw.id = some scanned.telegramId := by
  obtain ⟨telegramId, hId, rfl⟩ := normalizeMessage_eq_ok h
  unfold requiredTelegramId at hId
  split at hId
  · rename_i n hn
    cases hId
    obtain ⟨hSome, -⟩ := Option.filter_eq_some_iff.mp hn
    exact hSome
  · cases hId

end SavedOrganizer
