import SavedOrganizer.Frontend.JavaScript

/-!
# Links and text of a message in the browser

`message-content.ts`: the URL candidates of a text, their trimming and parsing, the link
shown for a message, and the parts its text is split into.

The `URL` constructor and `decodeURIComponent`, which is only used for titles, are the
parameter `Platform`.
-/

namespace SavedOrganizer.Frontend

/-- What is read of a `URL`. -/
structure Url where
  href : JsString
  protocol : JsString
  hostname : JsString
  pathname : JsString
  searchParams : List (JsString × JsString)
  deriving DecidableEq, Repr

structure Platform where
  /-- `new URL(..)`; `none` when it throws. -/
  newUrl : JsString → Option Url
  /-- `decodeURIComponent(..)`; `none` when it throws. -/
  decodeURIComponent : JsString → Option JsString

/-! ## Trimming -/

/-- `SIMPLE_TRAILING_PUNCTUATION`. -/
def simpleTrailingPunctuation : JsString :=
  ['.', ',', '!', '?', ';', ':', '"', '\''].map unit

/-- `CLOSING_PAIRS`. -/
def closingPairs (u : UInt16) : Option UInt16 :=
  if u = unit ')' then some (unit '(')
  else if u = unit ']' then some (unit '[')
  else if u = unit '}' then some (unit '{')
  else none

def occurrences (value : JsString) (character : UInt16) : Nat :=
  ((codePoints value).filter (· == [character])).length

/-- The loop of `trimUrlPunctuation` on the reversed string. -/
def trimReversed : JsString → JsString
  | [] => []
  | finalCharacter :: rest =>
      let normalized := (finalCharacter :: rest).reverse
      if simpleTrailingPunctuation.contains finalCharacter then trimReversed rest
      else match closingPairs finalCharacter with
        | some openingCharacter =>
            if occurrences normalized openingCharacter < occurrences normalized finalCharacter then
              trimReversed rest
            else finalCharacter :: rest
        | none => finalCharacter :: rest

def trimUrlPunctuation (value : JsString) : JsString := (trimReversed (trim value).reverse).reverse

/-! ## `URL_CANDIDATE_PATTERN` -/

/-- The length of `https?:\/\/` or `www\.` at the start of the string. -/
def candidatePrefixLength (s : JsString) : Option Nat :=
  if matchesWord (js "https://") s then some 8
  else if matchesWord (js "http://") s then some 7
  else if matchesWord (js "www.") s then some 4
  else none

/-- `[^\s<>"']`. -/
def isCandidateUnit (u : UInt16) : Bool :=
  !(isSpace u || u == unit '<' || u == unit '>' || u == unit '"' || u == unit '\'')

/-- The match at the start of the string. -/
def matchCandidate (s : JsString) : Option JsString :=
  (candidatePrefixLength s).bind fun n =>
    let tail := (s.drop n).takeWhile isCandidateUnit
    if tail.isEmpty then none else some (s.take n ++ tail)

structure Candidate where
  index : Nat
  value : JsString
  deriving DecidableEq, Repr

/-- The matches from left to right, `index` units into the text and after `skip` more. -/
def matchAllFrom : Nat → Nat → JsString → List Candidate
  | _, _, [] => []
  | skip + 1, index, _ :: s => matchAllFrom skip (index + 1) s
  | 0, index, u :: s =>
      match matchCandidate (u :: s) with
      | some value => ⟨index, value⟩ :: matchAllFrom (value.length - 1) (index + 1) s
      | none => matchAllFrom 0 (index + 1) s

/-- `text.matchAll(URL_CANDIDATE_PATTERN)`. -/
def matchAll (text : JsString) : List Candidate := matchAllFrom 0 0 text

/-! ## Parsing -/

/-- `/^www\./i.test(..)`. -/
def startsWithWww (s : JsString) : Bool := matchesWord (js "www.") s

def parseHttpUrl (browser : Platform) (value : Option JsString) : Option Url :=
  match value with
  | none => none
  | some value =>
      if (trim value).isEmpty then none
      else
        let candidate := trimUrlPunctuation value
        (browser.newUrl (if startsWithWww candidate then js "https://" ++ candidate
          else candidate)).bind fun parsed =>
            if parsed.protocol = js "http:" ∨ parsed.protocol = js "https:" then some parsed
            else none

def extractFirstHttpUrl (browser : Platform) (content : JsString) : Option Url :=
  (matchAll content).findSome? fun candidate => parseHttpUrl browser (some candidate.value)

/-! ## The link -/

inductive LinkProvider
  | github | youtube | twitter | generic
  deriving DecidableEq, Repr

/-- A `string | null` that an index out of range may make `undefined`. -/
inductive Nullish
  | null
  | undefined
  | string (value : JsString)
  deriving DecidableEq, Repr

/-- The value in a template or as the argument of `test`. -/
def Nullish.text : Nullish → JsString
  | .null => js "null"
  | .undefined => js "undefined"
  | .string value => value

/-- `values[i]`. -/
def element (values : List JsString) (i : Nat) : Nullish :=
  match values[i]? with
  | none => .undefined
  | some value => .string value

structure MessageLink where
  url : JsString
  provider : LinkProvider
  providerLabel : JsString
  hostname : JsString
  title : JsString
  description : JsString
  youtubeVideoId : Nullish
  deriving DecidableEq, Repr

section Links

variable (browser : Platform) (url : Url)

def decoded (value : JsString) : JsString := (browser.decodeURIComponent value).getD value

/-- `value.split(separator)`. -/
def split (separator : UInt16) : JsString → List JsString
  | [] => [[]]
  | u :: s =>
      match split separator s with
      | [] => [[u]]
      | first :: rest => if u = separator then [] :: first :: rest else (u :: first) :: rest

def pathSegments : List JsString :=
  ((split (unit '/') url.pathname).filter (!·.isEmpty)).map (decoded browser)

/-- `hostname.replace(/^www\./i, "")`. -/
def withoutWww (hostname : JsString) : JsString :=
  if startsWithWww hostname then hostname.drop 4 else hostname

/-- `name.replace(/\.git$/i, "")`. -/
def withoutGit (name : JsString) : JsString :=
  let front := name.take (name.length - 4)
  let last := name.drop (name.length - 4)
  if 4 ≤ name.length && matchesWord (js ".git") last then front else name

/-- `path.replace(/\/$/, "")`. -/
def withoutFinalSlash (path : JsString) : JsString :=
  if path.getLast? = some (unit '/') then path.dropLast else path

def githubLink : MessageLink :=
  let segments := pathSegments browser url
  let owner := segments[0]?
  let repository := segments[1]?.map withoutGit
  let resource := segments[2]?.map toLowerCase
  let resourceId := segments[3]?
  let description := match owner, repository with
    | some _, some repository =>
        match resource, resourceId with
        | some resource, some resourceId =>
            if resource = js "issues" then js "Issue #" ++ resourceId
            else if resource = js "pull" then js "Pull request #" ++ resourceId
            else if resource = js "commit" then js "Commit " ++ slice resourceId 0 7
            else if resource = js "blob" then js "Code · " ++ segments.getLast?.getD repository
            else if resource = js "tree" then js "Repository directory"
            else if resource = js "releases" then js "Releases"
            else js "Repository"
        | some resource, none =>
            if resource = js "blob" then js "Code · " ++ segments.getLast?.getD repository
            else if resource = js "tree" then js "Repository directory"
            else if resource = js "releases" then js "Releases"
            else js "Repository"
        | none, _ => js "Repository"
    | _, _ => js "GitHub"
  { url := url.href
    provider := .github
    providerLabel := js "GitHub"
    hostname := js "github.com"
    title := match owner, repository with
      | some owner, some repository => owner ++ js "/" ++ repository
      | _, _ => js "GitHub"
    description := description
    youtubeVideoId := .null }

/-- `/^[a-z0-9_-]{6,20}$/i.test(..)`. -/
def isVideoId (candidate : JsString) : Bool :=
  6 ≤ candidate.length && candidate.length ≤ 20 && candidate.all fun u =>
    (unit 'a' ≤ u && u ≤ unit 'z') || (unit 'A' ≤ u && u ≤ unit 'Z') ||
      (unit '0' ≤ u && u ≤ unit '9') || u == unit '_' || u == unit '-'

def youtubeVideoId : Nullish :=
  let hostname := toLowerCase (withoutWww url.hostname)
  let segments := pathSegments browser url
  let candidate :=
    if hostname = js "youtu.be" then element segments 0
    else match url.searchParams.find? (·.1 == js "v") with
      | some (_, value) => .string value
      | none =>
          if [js "shorts", js "embed", js "live"].contains (segments[0]?.getD []) then
            element segments 1
          else .null
  if candidate ≠ .null ∧ isVideoId candidate.text then candidate else .null

def youtubeLink : MessageLink :=
  let videoId := youtubeVideoId browser url
  { url := url.href
    provider := .youtube
    providerLabel := js "YouTube"
    hostname := withoutWww url.hostname
    title := if videoId = .null then js "YouTube" else js "Watch on YouTube"
    description := if videoId = .null then js "Video link" else js "Video · " ++ videoId.text
    youtubeVideoId := videoId }

def twitterLink : MessageLink :=
  let segments := pathSegments browser url
  let isStatus := segments[1]?.map toLowerCase = some (js "status")
  { url := url.href
    provider := .twitter
    providerLabel := js "X / Twitter"
    hostname := withoutWww url.hostname
    title := match segments[0]? with
      | none => js "X / Twitter"
      | some account => js "@" ++ account
    description := match segments[2]? with
      | some status => if isStatus then js "Post on X · " ++ status else js "Profile on X"
      | none => js "Profile on X"
    youtubeVideoId := .null }

def genericLink : MessageLink :=
  let hostname := withoutWww url.hostname
  let path := withoutFinalSlash (decoded browser url.pathname)
  let pathLabel := if 1 < path.length then path else js "Website"
  { url := url.href
    provider := .generic
    providerLabel := js "Web link"
    hostname := hostname
    title := if hostname.isEmpty then js "Web link" else hostname
    description := if 72 < pathLabel.length then slice pathLabel 0 71 ++ js "…" else pathLabel
    youtubeVideoId := .null }

/-- `hostname.endsWith(word)`. -/
def endsWith (word hostname : JsString) : Bool := word.isSuffixOf hostname

def classifyLink : MessageLink :=
  let hostname := toLowerCase (withoutWww url.hostname)
  if hostname = js "github.com" ∨ endsWith (js ".github.com") hostname then githubLink browser url
  else if hostname = js "youtu.be" ∨ hostname = js "youtube.com" ∨
      endsWith (js ".youtube.com") hostname ∨ hostname = js "youtube-nocookie.com" then
    youtubeLink browser url
  else if [js "x.com", js "mobile.x.com", js "twitter.com", js "mobile.twitter.com"].contains
      hostname then twitterLink browser url
  else genericLink browser url

/-- Every kind of link leads to the URL it is made of. -/
theorem classifyLink_url : (classifyLink browser url).url = url.href := by
  unfold classifyLink
  dsimp only
  split
  · rfl
  split
  · rfl
  split
  · rfl
  · rfl

end Links

/-! ## Analysis -/

structure MessageContentAnalysis where
  text : Option JsString
  isPureUrl : Bool
  link : Option MessageLink
  deriving DecidableEq, Repr

/-- The content parses as a URL and has no white space. -/
def isPureUrl (browser : Platform) (normalizedContent : JsString) : Bool :=
  !normalizedContent.isEmpty && !normalizedContent.any isSpace &&
    (parseHttpUrl browser (some normalizedContent)).isSome

def analyzeMessageContent (browser : Platform) (content rawUrl : Option JsString) :
    MessageContentAnalysis :=
  let normalizedContent := (content.map trim).getD []
  let explicitUrl := parseHttpUrl browser rawUrl
  let contentUrl := extractFirstHttpUrl browser normalizedContent
  let parsedUrl := explicitUrl.or contentUrl
  let pure := isPureUrl browser normalizedContent
  let text := if !normalizedContent.isEmpty && !pure then some normalizedContent else none
  let text := if text.isNone && parsedUrl.isNone then
      (rawUrl.map trim).filter (!·.isEmpty)
    else text
  { text := text
    isPureUrl := pure
    link := parsedUrl.map (classifyLink browser) }

/-! ## The parts of a text -/

structure TextPart where
  value : JsString
  url : Option JsString
  deriving DecidableEq, Repr

/-- One round of the loop of `messageTextParts`: the parts so far and the cursor. -/
def pushCandidate (browser : Platform) (text : JsString) (state : List TextPart × Nat)
    (found : Candidate) : List TextPart × Nat :=
  let cleaned := trimUrlPunctuation found.value
  let before : List TextPart :=
    if state.2 < found.index then [⟨slice text state.2 found.index, none⟩] else []
  let link : TextPart := ⟨cleaned, (parseHttpUrl browser (some cleaned)).map Url.href⟩
  let after : List TextPart :=
    if cleaned.length < found.value.length then [⟨found.value.drop cleaned.length, none⟩] else []
  (state.1 ++ before ++ [link] ++ after, found.index + found.value.length)

def messageTextParts (browser : Platform) (text : JsString) : List TextPart :=
  let (parts, cursor) := (matchAll text).foldl (pushCandidate browser text) ([], 0)
  let parts := if cursor < text.length then parts ++ [⟨text.drop cursor, none⟩] else parts
  if 0 < parts.length then parts else [⟨text, none⟩]

end SavedOrganizer.Frontend
