import SavedOrganizer.Python.Urllib
import SavedOrganizer.Scanner.Message

/-!
# Auto-categorization

`categorize_scanned_message` picks the category of a new message from its media type, or
else from the URLs in its text. Recognizing a repository parses URLs, and `urlparse` raises
on some netlocs; nothing in the categorizer catches that. `categorizable` says, in terms
of the code's own predicates, when no URL that is reached raises, and
`categorize_returns_iff` that this is exactly when a category comes out.
-/

namespace SavedOrganizer

open Python

def VIDEOS_CATEGORY_SLUG : String := "videos"
def AUDIO_CATEGORY_SLUG : String := "audio"
def LINKS_CATEGORY_SLUG : String := "links"
def REPOSITORIES_CATEGORY_SLUG : String := "repositories"
def IMAGES_CATEGORY_SLUG : String := "images"
def DOCUMENTS_CATEGORY_SLUG : String := "documents"
def TEXT_CATEGORY_SLUG : String := "text"
def OTHER_CATEGORY_SLUG : String := "other"

/-- `_REPOSITORY_DOMAINS`. -/
def repositoryDomains : List Text := ["github.com".toList, "gitlab.com".toList]

/-! ## Repository references -/

/-- `(github\.com|gitlab\.com)([/:]|$)` matches at the start of the text. -/
def repositoryAt (t : Text) : Bool :=
  repositoryDomains.any (matchesWord · t) &&
    match t.drop 10 with
    | [] => true
    | c :: rest => c == '/' || c == ':' || (c == '\n' && rest.isEmpty)

/-- `\w`. -/
def isWordChar (py : Runtime) (c : Char) : Bool := py.isAlnum c || c == '_'

/-- `_REPOSITORY_PATTERN.search`. -/
def searchRepository (py : Runtime) (content : Text) : Bool :=
  repositoryAt content || content.tails.any fun
    | c :: rest => !isWordChar py c && repositoryAt rest
    | [] => false

/-- The URL that is parsed: one without `://` gets `https://`. -/
def parsedUrl (url : Text) : Text :=
  if contains "://".toList url then url else "https://".toList ++ url

/-- The host of a netloc, without user and port. -/
def hostOf (netloc : Text) : Text := lower (splitFirst ':' (splitLast '@' netloc))

def isRepositoryHost (host : Text) : Bool :=
  !host.isEmpty && repositoryDomains.any fun domain =>
    host == domain || endsWith ('.' :: domain) host

/-- `_is_repository_url`. -/
def isRepositoryUrl (py : Runtime) : Option Text → Except ValueError Bool
  | none => .ok false
  | some url =>
      if url.isEmpty then .ok false
      else (urlparseNetloc py (parsedUrl url)).map fun netloc => isRepositoryHost (hostOf netloc)

/-- The loop over the URLs of the content. -/
def anyRepositoryUrl (py : Runtime) : List Text → Except ValueError Bool
  | [] => .ok false
  | url :: rest => do
      if ← isRepositoryUrl py (some url) then return true
      anyRepositoryUrl py rest

/-- `_contains_repository_reference`. -/
def containsRepositoryReference (py : Runtime) (content : Text) (extractedUrl : Option Text) :
    Except ValueError Bool := do
  if ← isRepositoryUrl py extractedUrl then return true
  if searchRepository py content then return true
  anyRepositoryUrl py (findAllUrls content)

/-- `_contains_any_url`. -/
def containsAnyUrl (content : Text) (extractedUrl : Option Text) : Bool :=
  isTruthy (extractedUrl.map strip) || (searchUrl content).isSome

/-- The slug for a recognized media type. -/
def mediaCategorySlug (message : ScannedMessage) : Option String :=
  let mediaType := lower (strip (orEmpty message.mediaType))
  if contains "video".toList mediaType then some VIDEOS_CATEGORY_SLUG
  else if contains "audio".toList mediaType || contains "voice".toList mediaType then
    some AUDIO_CATEGORY_SLUG
  else if contains "photo".toList mediaType || contains "image".toList mediaType then
    some IMAGES_CATEGORY_SLUG
  else if contains "document".toList mediaType then some DOCUMENTS_CATEGORY_SLUG
  else none

/-- `categorize_scanned_message`. -/
def categorizeScannedMessage (py : Runtime) (message : ScannedMessage) :
    Except ValueError String :=
  match mediaCategorySlug message with
  | some slug => .ok slug
  | none => do
      let content := strip (orEmpty message.content)
      if ← containsRepositoryReference py content message.url then
        return REPOSITORIES_CATEGORY_SLUG
      if containsAnyUrl content message.url then return LINKS_CATEGORY_SLUG
      if !content.isEmpty then return TEXT_CATEGORY_SLUG
      return OTHER_CATEGORY_SLUG

/-! ## When no URL raises -/

/-- `urlparse` accepts the URL. -/
def urlAccepted (py : Runtime) (url : Text) : Bool := netlocAccepted py (parsedUrl url)

/-- The URL points at a repository host. -/
def namesRepository (url : Text) : Bool := isRepositoryHost (hostOf (rawNetloc (parsedUrl url)))

/-- Every URL is accepted, up to the first one that points at a repository host. -/
def urlsAccepted (py : Runtime) : List Text → Bool
  | [] => true
  | url :: rest => urlAccepted py url && (namesRepository url || urlsAccepted py rest)

/-- No URL that the categorizer parses raises. -/
def categorizable (py : Runtime) (message : ScannedMessage) : Bool :=
  let content := strip (orEmpty message.content)
  let url := message.url.filter (fun u => !u.isEmpty)
  (mediaCategorySlug message).isSome ||
    (url.all (urlAccepted py) &&
      (url.any namesRepository || searchRepository py content ||
        urlsAccepted py (findAllUrls content)))

theorem isRepositoryUrl_some {py : Runtime} {url : Text} (h : url.isEmpty = false) :
    (urlAccepted py url = true → isRepositoryUrl py (some url) = .ok (namesRepository url)) ∧
      (urlAccepted py url = false → ∃ e, isRepositoryUrl py (some url) = .error e) := by
  simp only [isRepositoryUrl, h, Bool.false_eq_true, if_false]
  constructor
  · intro hAccepted
    rw [urlparseNetloc_of_accepted hAccepted]
    rfl
  · intro hRefused
    obtain ⟨e, he⟩ := urlparseNetloc_of_not_accepted hRefused
    exact ⟨e, by rw [he]; rfl⟩

theorem matchUrl_ne_nil {t url : Text} (h : matchUrl t = some url) : url.isEmpty = false := by
  obtain ⟨n, -, hUrl⟩ := Option.bind_eq_some_iff.mp h
  dsimp only at hUrl
  split at hUrl
  · cases hUrl
  · rename_i hTail
    cases hUrl
    cases hEmpty : (t.take n ++ (t.drop n).takeWhile (!isSpace ·)).isEmpty with
    | false => rfl
    | true =>
        rw [List.isEmpty_iff, List.append_eq_nil_iff] at hEmpty
        exact absurd (List.isEmpty_iff.mpr hEmpty.2) hTail

theorem findUrlsFrom_ne_nil (skip : Nat) (t : Text) :
    ∀ url ∈ findUrlsFrom skip t, url.isEmpty = false := by
  fun_induction findUrlsFrom skip t with
  | case1 => intro url h; cases h
  | case2 skip c t ih => exact ih
  | case3 c t url hMatch ih =>
      intro u hu
      rcases List.mem_cons.mp hu with rfl | hu
      · exact matchUrl_ne_nil hMatch
      · exact ih u hu
  | case4 c t hMatch ih => exact ih

/-- The loop raises exactly when it reaches a URL that `urlparse` refuses. -/
theorem anyRepositoryUrl_returns_iff {py : Runtime} {urls : List Text}
    (hUrls : ∀ url ∈ urls, url.isEmpty = false) :
    (∃ b, anyRepositoryUrl py urls = .ok b) ↔ urlsAccepted py urls = true := by
  induction urls with
  | nil => exact ⟨fun _ => rfl, fun _ => ⟨false, rfl⟩⟩
  | cons url rest ih =>
      have ih := ih (fun u hu => hUrls u (List.mem_cons_of_mem _ hu))
      obtain ⟨hOk, hError⟩ := @isRepositoryUrl_some py url (hUrls url List.mem_cons_self)
      unfold anyRepositoryUrl urlsAccepted
      cases hAccepted : urlAccepted py url with
      | false =>
          obtain ⟨e, he⟩ := hError hAccepted
          rw [he]
          refine ⟨fun h => ?_, fun h => by cases h⟩
          obtain ⟨b, hb⟩ := h
          cases hb
      | true =>
          rw [hOk hAccepted]
          cases hNames : namesRepository url with
          | true => exact ⟨fun _ => rfl, fun _ => ⟨true, rfl⟩⟩
          | false => simpa [bind, Except.bind] using ih

/-- What follows the stored URL: the pattern, then the URLs of the content. -/
theorem search_returns_iff (py : Runtime) (content : Text) :
    (∃ b, (if searchRepository py content = true then (.ok true : Except ValueError Bool)
      else anyRepositoryUrl py (findAllUrls content)) = .ok b) ↔
      (searchRepository py content || urlsAccepted py (findAllUrls content)) = true := by
  cases searchRepository py content with
  | true => exact ⟨fun _ => rfl, fun _ => ⟨true, rfl⟩⟩
  | false =>
      rw [if_neg Bool.false_ne_true, Bool.false_or]
      exact anyRepositoryUrl_returns_iff (findUrlsFrom_ne_nil 0 content)

theorem containsRepositoryReference_returns_iff (py : Runtime) (content : Text)
    (url : Option Text) :
    (∃ b, containsRepositoryReference py content url = .ok b) ↔
      ((url.filter (fun u => !u.isEmpty)).all (urlAccepted py) &&
        ((url.filter (fun u => !u.isEmpty)).any namesRepository || searchRepository py content ||
          urlsAccepted py (findAllUrls content))) = true := by
  have hSearch := search_returns_iff py content
  -- without a stored URL only the content is searched
  have hNoUrl : isRepositoryUrl py url = .ok false →
      ((∃ b, containsRepositoryReference py content url = .ok b) ↔
        (searchRepository py content || urlsAccepted py (findAllUrls content)) = true) := by
    intro hFalse
    rw [← hSearch, containsRepositoryReference, hFalse]
    rfl
  cases url with
  | none => simpa using hNoUrl rfl
  | some u =>
      cases hEmpty : u.isEmpty with
      | true =>
          rw [Option.filter_some_neg (by simp [hEmpty])]
          simpa using hNoUrl (by rw [isRepositoryUrl, hEmpty, if_pos rfl])
      | false =>
          obtain ⟨hOk, hError⟩ := @isRepositoryUrl_some py u hEmpty
          rw [Option.filter_some_pos (by simp [hEmpty]), Option.all_some, Option.any_some]
          cases hAccepted : urlAccepted py u with
          | false =>
              obtain ⟨e, he⟩ := hError hAccepted
              rw [containsRepositoryReference, he]
              refine ⟨fun h => ?_, fun h => by cases h⟩
              obtain ⟨b, hb⟩ := h
              cases hb
          | true =>
              cases hNames : namesRepository u with
              | true =>
                  rw [containsRepositoryReference, hOk hAccepted, hNames]
                  exact ⟨fun _ => rfl, fun _ => ⟨true, rfl⟩⟩
              | false =>
                  rw [Bool.true_and, Bool.false_or]
                  exact hNoUrl (by rw [hOk hAccepted, hNames])

/-- A category comes out exactly when no URL that is parsed raises. -/
theorem categorizeScannedMessage_returns_iff (py : Runtime) (message : ScannedMessage) :
    (∃ slug, categorizeScannedMessage py message = .ok slug) ↔
      categorizable py message = true := by
  unfold categorizeScannedMessage categorizable
  cases hMedia : mediaCategorySlug message with
  | some slug => exact ⟨fun _ => rfl, fun _ => ⟨slug, rfl⟩⟩
  | none =>
      rw [Option.isSome_none, Bool.false_or, ← containsRepositoryReference_returns_iff]
      dsimp only
      cases containsRepositoryReference py (strip (orEmpty message.content)) message.url with
      | error e =>
          refine ⟨fun h => ?_, fun h => ?_⟩
          · obtain ⟨slug, hSlug⟩ := h
            cases hSlug
          · obtain ⟨b, hb⟩ := h
            cases hb
      | ok b =>
          refine ⟨fun _ => ⟨b, rfl⟩, fun _ => ?_⟩
          simp only [bind, Except.bind, pure, Except.pure]
          split
          · exact ⟨_, rfl⟩
          split
          · exact ⟨_, rfl⟩
          split
          · exact ⟨_, rfl⟩
          · exact ⟨_, rfl⟩

end SavedOrganizer
