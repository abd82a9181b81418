import Mathlib.Data.List.TakeWhile
import SavedOrganizer.Frontend.UrlTrimming

/-!
# The parts of a text are the text

`messageTextParts` walks over the URL candidates with a cursor. The candidates stand in the
text one after another without overlapping (`standing_matchAll`), and each of them is cut into
its trimmed front and the rest, so what the parts say up to a candidate is the text up to the
end of it.

Of the `URL` constructor it is assumed that the `href` of a URL starts with its `protocol`.
-/

namespace SavedOrganizer.Frontend

open Trimming

/-! ## The candidates in the text -/

/-- The candidate is what the text has at its index, and it has no white space. -/
structure Candidate.StandsIn (found : Candidate) (text : JsString) : Prop where
  value_eq : (text.drop found.index).take found.value.length = found.value
  within : found.index + found.value.length ≤ text.length
  spaceless : ∀ u ∈ found.value, isSpace u = false

/-- The candidates stand in the text one after another, from `cursor` on. -/
def Standing (text : JsString) : Nat → List Candidate → Prop
  | _, [] => True
  | cursor, found :: rest => cursor ≤ found.index ∧ found.StandsIn text ∧
      Standing text (found.index + found.value.length) rest

theorem Standing.mono {text : JsString} {cursor cursor' : Nat} {candidates : List Candidate}
    (h : Standing text cursor' candidates) (hLe : cursor ≤ cursor') :
    Standing text cursor candidates := by
  cases candidates with
  | nil => trivial
  | cons found rest => exact ⟨hLe.trans h.1, h.2⟩

/-- No unit that matches a letter of a head is white space. -/
theorem spaceless_of_matchesWord {w s : JsString}
    (hw : ∀ p ∈ w, isSpace p = false ∧ isSpace (p - 32) = false) (h : matchesWord w s = true) :
    ∀ u ∈ s.take w.length, isSpace u = false := by
  induction w generalizing s with
  | nil => simp
  | cons p w ih =>
      cases s with
      | nil => cases h
      | cons u s =>
          obtain ⟨hp, hw⟩ := List.forall_mem_cons.mp hw
          rw [matchesWord, Bool.and_eq_true] at h
          rw [List.length_cons, List.take_succ_cons, List.forall_mem_cons]
          refine ⟨?_, ih hw h.2⟩
          have hUnit := h.1
          simp only [matchesUnit, Bool.or_eq_true, Bool.and_eq_true, beq_iff_eq] at hUnit
          rcases hUnit with rfl | ⟨-, rfl⟩
          · exact hp.1
          · exact hp.2

theorem spaceless_head {s : JsString} {n : Nat} (h : candidatePrefixLength s = some n) :
    ∀ u ∈ s.take n, isSpace u = false := by
  have hWords : ∀ w ∈ ["https://", "http://", "www."].map js, ∀ p ∈ w,
      isSpace p = false ∧ isSpace (p - 32) = false := by decide
  unfold candidatePrefixLength at h
  split at h
  · rename_i hWord
    cases h
    exact spaceless_of_matchesWord (hWords _ (by simp)) hWord
  split at h
  · rename_i hWord
    cases h
    exact spaceless_of_matchesWord (hWords _ (by simp)) hWord
  split at h
  · rename_i hWord
    cases h
    exact spaceless_of_matchesWord (hWords _ (by simp)) hWord
  · cases h

/-- A match is a start of the string that is not empty and has no white space. -/
theorem matchCandidate_eq_some {s value : JsString} (h : matchCandidate s = some value) :
    value <+: s ∧ value ≠ [] ∧ ∀ u ∈ value, isSpace u = false := by
  obtain ⟨n, hHead, hValue⟩ := Option.bind_eq_some_iff.mp h
  dsimp only at hValue
  split at hValue
  · cases hValue
  rename_i hTail
  cases hValue
  refine ⟨?_, ?_, ?_⟩
  · obtain ⟨rest, hRest⟩ := List.takeWhile_prefix (p := isCandidateUnit) (l := s.drop n)
    refine ⟨rest, ?_⟩
    rw [List.append_assoc, hRest, List.take_append_drop]
  · intro hNil
    exact hTail (List.isEmpty_iff.mpr (List.append_eq_nil_iff.mp hNil).2)
  · intro u hu
    rcases List.mem_append.mp hu with hu | hu
    · exact spaceless_head hHead u hu
    · have hUnit := List.mem_takeWhile_imp hu
      rw [isCandidateUnit, Bool.not_eq_true', Bool.or_eq_false_iff, Bool.or_eq_false_iff,
        Bool.or_eq_false_iff, Bool.or_eq_false_iff] at hUnit
      exact hUnit.1.1.1.1

theorem standing_matchAllFrom {text : JsString} (skip : Nat) (before s : JsString)
    (hText : before ++ s = text) :
    Standing text (before.length + skip) (matchAllFrom skip before.length s) := by
  induction s generalizing skip before with
  | nil =>
      unfold matchAllFrom
      trivial
  | cons u s ih =>
      have hNext : (before ++ [u]) ++ s = text := by rw [List.append_assoc, List.singleton_append, hText]
      have hLength : (before ++ [u]).length = before.length + 1 := by simp
      cases skip with
      | succ skip =>
          have hRest := ih skip (before ++ [u]) hNext
          rw [hLength] at hRest
          rw [matchAllFrom, Nat.add_comm skip 1, ← Nat.add_assoc]
          exact hRest
      | zero =>
          unfold matchAllFrom
          split
          · rename_i value hMatch
            obtain ⟨hPrefix, hSome, hSpaceless⟩ := matchCandidate_eq_some hMatch
            have hPos := List.length_pos_iff.mpr hSome
            have hRest := ih (value.length - 1) (before ++ [u]) hNext
            rw [hLength] at hRest
            refine ⟨Nat.le_refl _, ⟨?_, ?_, hSpaceless⟩, ?_⟩
            · show (text.drop before.length).take value.length = value
              rw [← hText, List.drop_left]
              exact (List.prefix_iff_eq_take.mp hPrefix).symm
            · show before.length + value.length ≤ text.length
              rw [← hText, List.length_append]
              exact Nat.add_le_add_left hPrefix.length_le _
            · show Standing text (before.length + value.length) _
              rw [show before.length + value.length = before.length + 1 + (value.length - 1) by omega]
              exact hRest
          · have hRest := ih 0 (before ++ [u]) hNext
            rw [hLength] at hRest
            exact hRest.mono (by omega)

theorem standing_matchAll (text : JsString) : Standing text 0 (matchAll text) :=
  standing_matchAllFrom 0 [] text rfl

/-! ## The parts so far -/

section Parts

variable {browser : Platform} {text : JsString}

/-- The text a list of parts shows. -/
def shown (parts : List TextPart) : JsString := parts.flatMap TextPart.value

theorem shown_append (parts rest : List TextPart) :
    shown (parts ++ rest) = shown parts ++ shown rest := List.flatMap_append

theorem shown_singleton (part : TextPart) : shown [part] = part.value := by
  simp [shown]

/-- The parts so far show the text up to the cursor. -/
def ShowsUpTo (text : JsString) (state : List TextPart × Nat) : Prop :=
  shown state.1 = text.take state.2 ∧ state.2 ≤ text.length

theorem trimUrlPunctuation_prefix {s : JsString} (h : ∀ u ∈ s, isSpace u = false) :
    trimUrlPunctuation s <+: s := by
  rw [trimUrlPunctuation_eq h, ← List.reverse_suffix, List.reverse_reverse]
  exact dropWhileTail_suffix trailing s.reverse

/-- The two pieces of a candidate. -/
theorem shown_candidate {found : Candidate} (h : found.StandsIn text) (url : Option JsString) :
    shown ([⟨trimUrlPunctuation found.value, url⟩] ++
      if (trimUrlPunctuation found.value).length < found.value.length then
        [⟨found.value.drop (trimUrlPunctuation found.value).length, none⟩]
      else []) = found.value := by
  obtain ⟨rest, hRest⟩ := trimUrlPunctuation_prefix h.spaceless
  have hDrop : found.value.drop (trimUrlPunctuation found.value).length = rest := by
    generalize trimUrlPunctuation found.value = cleaned at hRest
    rw [← hRest, List.drop_left]
  rw [shown_append, shown_singleton, hDrop]
  split
  · rw [shown_singleton, hRest]
  · rename_i hLength
    have hSum := congrArg List.length hRest
    rw [List.length_append] at hSum
    have hNil : rest = [] := List.length_eq_zero_iff.mp (by omega)
    rw [hNil, List.append_nil] at hRest
    show trimUrlPunctuation found.value ++ [] = found.value
    rw [List.append_nil, hRest]

/-- A round of the loop moves the cursor behind its candidate. -/
theorem showsUpTo_pushCandidate {state : List TextPart × Nat} {found : Candidate}
    (h : ShowsUpTo text state) (hCursor : state.2 ≤ found.index) (hFound : found.StandsIn text) :
    ShowsUpTo text (pushCandidate browser text state found) := by
  obtain ⟨hShown, hLength⟩ := h
  refine ⟨?_, hFound.within⟩
  have hBefore : shown (if state.2 < found.index then
      [⟨slice text state.2 found.index, none⟩] else []) = slice text state.2 found.index := by
    split
    · exact shown_singleton _
    · have hNil : (text.take found.index).drop state.2 = [] := by
        rw [List.drop_eq_nil_iff, List.length_take]
        omega
      exact hNil.symm
  unfold pushCandidate
  dsimp only
  rw [List.append_assoc, shown_append, shown_append, shown_candidate hFound, hBefore, hShown]
  have hTake : (text.take found.index).take state.2 = text.take state.2 := by
    rw [List.take_take, Nat.min_eq_left hCursor]
  calc text.take state.2 ++ slice text state.2 found.index ++ found.value
      = text.take found.index ++ found.value := by
        rw [← hTake, slice, List.take_append_drop]
    _ = text.take (found.index + found.value.length) := by
        rw [List.take_add, hFound.value_eq]

theorem showsUpTo_foldl (candidates : List Candidate) {state : List TextPart × Nat}
    (h : ShowsUpTo text state) (hStanding : Standing text state.2 candidates) :
    ShowsUpTo text (candidates.foldl (pushCandidate browser text) state) := by
  induction candidates generalizing state with
  | nil => exact h
  | cons found rest ih =>
      obtain ⟨hCursor, hFound, hRest⟩ := hStanding
      rw [List.foldl_cons]
      exact ih (showsUpTo_pushCandidate h hCursor hFound) hRest

/-! ## The links of the parts -/

/-- The URL of a part, if it has one, is an `http` or `https` URL. -/
def TextPart.WebLink (part : TextPart) : Prop :=
  ∀ url, part.url = some url → js "http:" <+: url ∨ js "https:" <+: url

theorem webLink_of_none (value : JsString) : TextPart.WebLink ⟨value, none⟩ := by
  intro url h
  cases h

theorem parseHttpUrl_protocol {value : Option JsString} {url : Url}
    (h : parseHttpUrl browser value = some url) :
    (∃ s, browser.newUrl s = some url) ∧ (url.protocol = js "http:" ∨ url.protocol = js "https:") := by
  cases value with
  | none => cases h
  | some value =>
      unfold parseHttpUrl at h
      dsimp only at h
      split at h
      · cases h
      · obtain ⟨parsed, hParsed, hUrl⟩ := Option.bind_eq_some_iff.mp h
        split at hUrl
        · rename_i hProtocol
          cases hUrl
          exact ⟨⟨_, hParsed⟩, hProtocol⟩
        · cases hUrl

theorem webLink_of_parse (hHref : ∀ s url, browser.newUrl s = some url → url.protocol <+: url.href)
    (value cleaned : JsString) :
    TextPart.WebLink ⟨value, (parseHttpUrl browser (some cleaned)).map Url.href⟩ := by
  intro href h
  obtain ⟨url, hUrl, rfl⟩ := Option.map_eq_some_iff.mp h
  obtain ⟨⟨s, hNew⟩, hProtocol⟩ := parseHttpUrl_protocol hUrl
  have hPrefix := hHref s url hNew
  rcases hProtocol with hProtocol | hProtocol
  · left
    rw [← hProtocol]
    exact hPrefix
  · right
    rw [← hProtocol]
    exact hPrefix

theorem webLink_pushCandidate
    (hHref : ∀ s url, browser.newUrl s = some url → url.protocol <+: url.href)
    {state : List TextPart × Nat} (found : Candidate) (h : ∀ part ∈ state.1, part.WebLink) :
    ∀ part ∈ (pushCandidate browser text state found).1, part.WebLink := by
  intro part hPart
  unfold pushCandidate at hPart
  simp only [List.mem_append, List.mem_singleton] at hPart
  rcases hPart with ((hPart | hPart) | rfl) | hPart
  · exact h part hPart
  · split at hPart
    · rw [List.mem_singleton.mp hPart]
      exact webLink_of_none _
    · cases hPart
  · exact webLink_of_parse hHref _ _
  · split at hPart
    · rw [List.mem_singleton.mp hPart]
      exact webLink_of_none _
    · cases hPart

theorem webLink_foldl (hHref : ∀ s url, browser.newUrl s = some url → url.protocol <+: url.href)
    (candidates : List Candidate) {state : List TextPart × Nat}
    (h : ∀ part ∈ state.1, part.WebLink) :
    ∀ part ∈ (candidates.foldl (pushCandidate browser text) state).1, part.WebLink := by
  induction candidates generalizing state with
  | nil => exact h
  | cons found rest ih =>
      rw [List.foldl_cons]
      exact ih (webLink_pushCandidate hHref found h)

end Parts

/-- The parts of a text show the text, and every link among them leads to an `http` or `https`
URL. -/
theorem messageTextParts_whole (browser : Platform)
    (hHref : ∀ s url, browser.newUrl s = some url → url.protocol <+: url.href)
    (text : JsString) :
    (messageTextParts browser text).flatMap TextPart.value = text ∧
      ∀ part ∈ messageTextParts browser text, ∀ url, part.url = some url →
        js "http:" <+: url ∨ js "https:" <+: url := by
  have hStart : ShowsUpTo text (([], 0) : List TextPart × Nat) := ⟨rfl, Nat.zero_le _⟩
  have hShows : ShowsUpTo text ((matchAll text).foldl (pushCandidate browser text) ([], 0)) :=
    showsUpTo_foldl _ hStart (standing_matchAll text)
  have hLinks : ∀ part ∈ ((matchAll text).foldl (pushCandidate browser text) ([], 0)).1,
      part.WebLink := by
    apply webLink_foldl hHref
    simp
  unfold messageTextParts
  generalize (matchAll text).foldl (pushCandidate browser text) ([], 0) = state at hShows hLinks
  obtain ⟨parts, cursor⟩ := state
  obtain ⟨hShown, hCursor⟩ := hShows
  have hEnd : shown (if cursor < text.length then parts ++ [⟨text.drop cursor, none⟩] else parts) =
      text ∧ ∀ part ∈ (if cursor < text.length then parts ++ [⟨text.drop cursor, none⟩] else parts),
        part.WebLink := by
    split
    · rw [shown_append, shown_singleton, hShown]
      refine ⟨List.take_append_drop cursor text, fun part hPart => ?_⟩
      rcases List.mem_append.mp hPart with hPart | hPart
      · exact hLinks part hPart
      · rw [List.mem_singleton.mp hPart]
        exact webLink_of_none _
    · rename_i hAll
      rw [hShown]
      exact ⟨List.take_of_length_le (Nat.not_lt.mp hAll), hLinks⟩
  dsimp only
  generalize (if cursor < text.length then parts ++ [⟨text.drop cursor, none⟩] else parts) = all at hEnd
  split
  · exact hEnd
  · rename_i hNone
    rw [Nat.not_lt, Nat.le_zero, List.length_eq_zero_iff] at hNone
    rw [hNone] at hEnd
    refine ⟨shown_singleton _, fun part hPart => ?_⟩
    rw [List.mem_singleton.mp hPart]
    exact webLink_of_none _

/-- A browser in which only the listed strings parse as URLs. -/
def browserWith (urls : List (JsString × Url)) : Platform where
  newUrl s := (urls.find? (·.1 == s)).map (·.2)
  decodeURIComponent := some

/-- The page `https://a.example/x`. -/
def examplePage : Url where
  href := js "https://a.example/x"
  protocol := js "https:"
  hostname := js "a.example"
  pathname := js "/x"
  searchParams := []

theorem messageTextParts_whole_sentence :
    let browser := browserWith [(js "https://a.example/x", examplePage)]
    let text := js "(see https://a.example/x)."
    (messageTextParts browser text).flatMap TextPart.value = text ∧
      ∀ part ∈ messageTextParts browser text, ∀ url, part.url = some url →
        js "http:" <+: url ∨ js "https:" <+: url := by
  intro browser text
  apply messageTextParts_whole browser
  intro s url h
  obtain ⟨pair, hFound, rfl⟩ := Option.map_eq_some_iff.mp h
  rw [List.mem_singleton.mp (List.mem_of_find?_eq_some hFound)]
  decide

example : messageTextParts (browserWith [(js "https://a.example/x", examplePage)])
    (js "(see https://a.example/x).") =
    [⟨js "(see ", none⟩, ⟨js "https://a.example/x", some (js "https://a.example/x")⟩,
      ⟨js ").", none⟩] := by decide +kernel

end SavedOrganizer.Frontend
