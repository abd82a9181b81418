import SavedOrganizer.Frontend.TextParts

/-!
# What is shown of a message

`analyzeMessageContent` drops the text of a message whose content is a URL and nothing else:
the link stands for it. The link is taken from the stored URL first and from the first
candidate in the content second, and neither has to be the URL the content parses to. The
stored URL goes with the content the message was scanned with, and a candidate ends at a
quote or an angle bracket, or is missing where the `URL` constructor needs no `//`.

`contentShown_iff` says when the content is shown.
-/

namespace SavedOrganizer.Frontend

section Shown

variable {browser : Platform} {content rawUrl : Option JsString}

/-- `content?.trim() ?? ""`. -/
def normalized (content : Option JsString) : JsString := (content.map trim).getD []

/-- The analysis shows the content, unless it is blank: as text, or by a link to the URL it
parses to. -/
def ContentShown (browser : Platform) (content rawUrl : Option JsString) : Prop :=
  let analysis := analyzeMessageContent browser content rawUrl
  normalized content ≠ [] →
    analysis.text = some (normalized content) ∨
      (analysis.text = none ∧ analysis.isPureUrl = true ∧
        ∃ link url, analysis.link = some link ∧
          parseHttpUrl browser (some (normalized content)) = some url ∧ link.url = url.href)

/-- The URL that the whole content parses to, when it is a pure URL. -/
def PureUrl (browser : Platform) (content : Option JsString) (url : Url) : Prop :=
  isPureUrl browser (normalized content) = true ∧
    parseHttpUrl browser (some (normalized content)) = some url

/-- A URL leads where the content says. -/
def LeadsTo (found : Option Url) (url : Url) : Prop := ∃ u, found = some u ∧ u.href = url.href

/-- The URL of the link. -/
def linkedUrl (browser : Platform) (content rawUrl : Option JsString) : Option Url :=
  (parseHttpUrl browser rawUrl).or (extractFirstHttpUrl browser (normalized content))

/-- The content as text, unless it is blank or a pure URL. -/
def contentText (browser : Platform) (content : Option JsString) : Option JsString :=
  if !(normalized content).isEmpty && !isPureUrl browser (normalized content) then
    some (normalized content)
  else none

theorem analyze_eq : analyzeMessageContent browser content rawUrl =
    { text :=
        if (contentText browser content).isNone && (linkedUrl browser content rawUrl).isNone then
          (rawUrl.map trim).filter (!·.isEmpty)
        else contentText browser content
      isPureUrl := isPureUrl browser (normalized content)
      link := (linkedUrl browser content rawUrl).map (classifyLink browser) } := rfl

theorem text_of_not_pure (hSome : normalized content ≠ [])
    (h : isPureUrl browser (normalized content) = false) :
    (analyzeMessageContent browser content rawUrl).text = some (normalized content) := by
  have hBlank : (normalized content).isEmpty = false := by
    rw [← Bool.not_eq_true, List.isEmpty_iff]
    exact hSome
  have hText : contentText browser content = some (normalized content) := by
    rw [contentText, h, hBlank]
    rfl
  rw [analyze_eq, hText]
  rfl

theorem contentText_of_pure (h : isPureUrl browser (normalized content) = true) :
    contentText browser content = none := by
  rw [contentText, h, Bool.not_true, Bool.and_false]
  rfl

theorem pureUrl_of_isPureUrl (h : isPureUrl browser (normalized content) = true) :
    ∃ url, PureUrl browser content url := by
  have hParsed := h
  rw [isPureUrl, Bool.and_eq_true] at hParsed
  obtain ⟨url, hUrl⟩ := Option.isSome_iff_exists.mp hParsed.2
  exact ⟨url, h, hUrl⟩

/-- A pure URL is not blank. -/
theorem normalized_ne_nil (h : isPureUrl browser (normalized content) = true) :
    normalized content ≠ [] := by
  intro hNil
  rw [hNil] at h
  cases h

/-- White space around a URL does not change what it parses to. -/
theorem parseHttpUrl_trim {value : JsString} (h : ∀ u ∈ trim value, isSpace u = false) :
    parseHttpUrl browser (some (trim value)) = parseHttpUrl browser (some value) := by
  have hTrim := trim_eq_self h
  have hSame : trimUrlPunctuation (trim value) = trimUrlPunctuation value := by
    rw [trimUrlPunctuation, trimUrlPunctuation, hTrim]
  simp only [parseHttpUrl, hTrim, hSame]

/-- When nothing is linked, the stored URL is not what a pure URL shows as text. -/
theorem text_ne_pure {url : Url} (h : PureUrl browser content url)
    (hNone : linkedUrl browser content rawUrl = none) :
    (rawUrl.map trim).filter (!·.isEmpty) ≠ some (normalized content) := by
  obtain ⟨hPure, hUrl⟩ := h
  intro hText
  obtain ⟨hMap, -⟩ := Option.filter_eq_some_iff.mp hText
  obtain ⟨raw, rfl, hRaw⟩ := Option.map_eq_some_iff.mp hMap
  have hSpaceless : ∀ u ∈ trim raw, isSpace u = false := by
    rw [isPureUrl, Bool.and_eq_true, Bool.and_eq_true] at hPure
    rw [hRaw]
    simpa using hPure.1.2
  rw [← hRaw, parseHttpUrl_trim hSpaceless] at hUrl
  rw [linkedUrl, hUrl] at hNone
  cases hNone

/-- For a pure URL it is the link that counts. -/
theorem contentShown_pure {url : Url} (h : PureUrl browser content url) :
    ContentShown browser content rawUrl ↔ LeadsTo (linkedUrl browser content rawUrl) url := by
  obtain ⟨hPure, hUrl⟩ := h
  have hSome := normalized_ne_nil hPure
  unfold ContentShown
  rw [analyze_eq, contentText_of_pure hPure]
  dsimp only
  cases hLinked : linkedUrl browser content rawUrl with
  | none =>
      constructor
      · intro hShown
        rcases hShown hSome with hText | ⟨-, -, link, u, hLink, -⟩
        · exact absurd hText (text_ne_pure ⟨hPure, hUrl⟩ hLinked)
        · cases hLink
      · rintro ⟨u, hu, -⟩
        cases hu
  | some u =>
      constructor
      · intro hShown
        rcases hShown hSome with hText | ⟨-, -, link, parsed, hLink, hParsed, hSame⟩
        · cases hText
        · cases hLink
          rw [hUrl, Option.some.injEq] at hParsed
          rw [classifyLink_url] at hSame
          exact ⟨u, rfl, hParsed ▸ hSame⟩
      · rintro ⟨v, hv, hSame⟩ -
        cases hv
        exact Or.inr ⟨rfl, hPure, classifyLink browser u, url, rfl, hUrl,
          (classifyLink_url browser u).trans hSame⟩

theorem leadsTo_linkedUrl {url : Url} :
    LeadsTo (linkedUrl browser content rawUrl) url ↔
      LeadsTo (parseHttpUrl browser rawUrl) url ∨
        (parseHttpUrl browser rawUrl = none ∧
          LeadsTo (extractFirstHttpUrl browser (normalized content)) url) := by
  unfold linkedUrl
  cases hStored : parseHttpUrl browser rawUrl with
  | none => simp [LeadsTo]
  | some u => simp [LeadsTo]

/-- The content is shown exactly when it is no pure URL, or the stored URL leads where the
content says, or no stored URL parses and the first candidate in the content does. -/
theorem contentShown_iff (browser : Platform) (content rawUrl : Option JsString) :
    ContentShown browser content rawUrl ↔
      ∀ url, PureUrl browser content url →
        LeadsTo (parseHttpUrl browser rawUrl) url ∨
          (parseHttpUrl browser rawUrl = none ∧
            LeadsTo (extractFirstHttpUrl browser (normalized content)) url) := by
  cases hPure : isPureUrl browser (normalized content) with
  | false =>
      constructor
      · intro _ url h
        rw [h.1] at hPure
        cases hPure
      · intro _ hSome
        exact Or.inl (text_of_not_pure hSome hPure)
  | true =>
      obtain ⟨url, hUrl⟩ := pureUrl_of_isPureUrl hPure
      rw [contentShown_pure hUrl, leadsTo_linkedUrl]
      constructor
      · intro h url' hUrl'
        obtain rfl := Option.some.inj (hUrl.2.symm.trans hUrl'.2)
        exact h
      · intro h
        exact h url hUrl

/-- A content that is one candidate from end to end is its own first candidate. -/
theorem extractFirst_of_candidate {value : JsString} (hWhole : matchCandidate value = some value)
    (hParsed : (parseHttpUrl browser (some value)).isSome = true) :
    extractFirstHttpUrl browser value = parseHttpUrl browser (some value) := by
  obtain ⟨-, hSome, -⟩ := matchCandidate_eq_some hWhole
  obtain ⟨u, rest, rfl⟩ := List.exists_cons_of_ne_nil hSome
  obtain ⟨url, hUrl⟩ := Option.isSome_iff_exists.mp hParsed
  rw [extractFirstHttpUrl, matchAll, matchAllFrom, hWhole]
  dsimp only
  rw [List.findSome?_cons, hUrl]

/-- Without a stored URL such a content is always shown. -/
theorem contentShown_of_candidate {value : JsString} (hTrim : trim value = value)
    (hWhole : matchCandidate value = some value) : ContentShown browser (some value) none := by
  have hNormalized : normalized (some value) = value := hTrim
  cases hPure : isPureUrl browser (normalized (some value)) with
  | false => exact fun hSome => Or.inl (text_of_not_pure hSome hPure)
  | true =>
      obtain ⟨url, hUrl⟩ := pureUrl_of_isPureUrl hPure
      have hParsed := hUrl.2
      rw [hNormalized] at hParsed
      have hFirst := extractFirst_of_candidate hWhole (Option.isSome_iff_exists.mpr ⟨url, hParsed⟩)
      rw [contentShown_pure hUrl, leadsTo_linkedUrl, hNormalized, hFirst, hParsed]
      exact Or.inr ⟨rfl, url, rfl, rfl⟩

/-- The page a message was scanned with, and the one its text was edited to. -/
def editedBrowser : Platform :=
  let page (href hostname : String) : Url :=
    { href := js href, protocol := js "https:", hostname := js hostname, pathname := js "/",
      searchParams := [] }
  browserWith [(js "https://old.example/", page "https://old.example/" "old.example"),
    (js "https://new.example/", page "https://new.example/" "new.example"),
    (js "https:new.example", page "https://new.example/" "new.example")]

/-- The new content is represented by a link to the old page, and one that is no candidate by
nothing. -/
theorem content_hidden :
    ¬ ContentShown editedBrowser (some (js "https://new.example/"))
        (some (js "https://old.example/")) ∧
      (analyzeMessageContent editedBrowser (some (js "https://new.example/"))
        (some (js "https://old.example/"))).link.map MessageLink.url =
        some (js "https://old.example/") ∧
      ¬ ContentShown editedBrowser (some (js "https:new.example")) none ∧
      analyzeMessageContent editedBrowser (some (js "https:new.example")) none =
        { text := none, isPureUrl := true, link := none } := by
  have hLink : (analyzeMessageContent editedBrowser (some (js "https://new.example/"))
      (some (js "https://old.example/"))).link.map MessageLink.url =
      some (js "https://old.example/") := by decide +kernel
  have hParsed : (parseHttpUrl editedBrowser (some (normalized (some (js "https://new.example/"))))).map
      Url.href = some (js "https://new.example/") := by decide +kernel
  have hText : (analyzeMessageContent editedBrowser (some (js "https://new.example/"))
      (some (js "https://old.example/"))).text = none := by decide +kernel
  have hNothing : analyzeMessageContent editedBrowser (some (js "https:new.example")) none =
      { text := none, isPureUrl := true, link := none } := by decide +kernel
  refine ⟨fun hShown => ?_, hLink, fun hShown => ?_, hNothing⟩
  · rcases hShown (by decide +kernel) with hSome | ⟨-, -, link, url, hLinked, hUrl, hSame⟩
    · rw [hText] at hSome
      cases hSome
    · rw [hLinked, Option.map_some, Option.some.injEq] at hLink
      rw [hUrl, Option.map_some, Option.some.injEq] at hParsed
      rw [hSame, hParsed] at hLink
      exact absurd hLink (by decide)
  · rcases hShown (by decide +kernel) with hSome | ⟨-, -, link, url, hLinked, -⟩
    · rw [hNothing] at hSome
      cases hSome
    · rw [hNothing] at hLinked
      cases hLinked

end Shown

end SavedOrganizer.Frontend
