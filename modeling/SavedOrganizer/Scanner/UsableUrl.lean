import Mathlib.Data.List.TakeWhile
import SavedOrganizer.Python.Urllib
import SavedOrganizer.Scanner.UrlTrimming

/-!
# Which extracted URLs can be used

`_extract_url` trims the first match of `URL_PATTERN` and only then looks for `www.`. A match
is a scheme or `www.`, its head, and a tail without white space; the trimming takes from the
tail what it can, and goes on with the head when nothing of the tail is left. `://` stops it
there, the dot of `www.` does not: `www` comes back, without a scheme.

`extractUrl_usable_iff` says for which contents the result is a web address all the same.
-/

namespace SavedOrganizer

open Python Trimming

/-- The host a URL names, by what follows its scheme. -/
def hostAfterScheme (rest : Text) : Text := (hostInfo (splitNetloc ('/' :: '/' :: rest))).1

/-- The length of `http://` or `https://` in any case. -/
def schemeLength (url : Text) : Option Nat :=
  if lower (url.take 8) = "https://".toList then some 8
  else if lower (url.take 7) = "http://".toList then some 7
  else none

/-- A URL with a scheme of the web and a host. -/
def WebAddress (url : Text) : Prop :=
  ∃ n, schemeLength url = some n ∧ hostAfterScheme (url.drop n) ≠ []

/-- The first match, trimmed, with `https://` before it when the match starts with `www.`. -/
def trimmedMatch (matched : Text) : Text :=
  if startsWith "www.".toList (lower matched) then "https://".toList ++ trimUrlPunctuation matched
  else trimUrlPunctuation matched

/-- What is extracted from the content is a web address made of its first match. -/
def UsableLink (content : Text) : Prop :=
  ∀ url, extractUrl (some content) = some url →
    url.length ≤ MAX_URL_LENGTH ∧ WebAddress url ∧
      ∃ matched, searchUrl content = some matched ∧ url = trimmedMatch matched

/-- The first match of the content: its scheme or `www.`, and the rest. -/
structure FirstMatch (content head tail : Text) : Prop where
  found : searchUrl content = some (head ++ tail)
  headed : urlPrefixLength (head ++ tail) = some head.length

/-- After the trimming the match names a host, or it is too long to be kept. -/
def NamesHost (head tail : Text) : Prop :=
  let kept := trimUrlPunctuation tail
  if head.length = 4 then
    MAX_URL_LENGTH < 8 + (head ++ kept).length ∨ (kept ≠ [] ∧ hostAfterScheme (head ++ kept) ≠ [])
  else
    MAX_URL_LENGTH < (head ++ kept).length ∨
      ((lower head = "http://".toList ∨ lower head = "https://".toList) ∧ hostAfterScheme kept ≠ [])

/-! ## The head of a match -/

section Head

/-- The letters of the three words a match starts with. -/
def headLetters : Text := ['h', 't', 'p', 's', 'w', ':', '/', '.']

/-- A letter is matched by itself, in either case, and by `ſ` when it is an `s`. -/
theorem matchesChar_head {p c : Char} (hp : p ∈ headLetters) (h : matchesChar p c = true) :
    c.toLower = p ∨ (p = 's' ∧ c = Char.ofNat 0x17F) := by
  have hNot : ∀ p ∈ headLetters, p ≠ 'i' ∧ p ≠ 'k' := by decide
  simp only [matchesChar, Bool.or_eq_true, Bool.and_eq_true, beq_iff_eq] at h
  rcases h with ((h | h) | h) | h
  · exact Or.inl h
  · exact absurd h.1 (hNot p hp).1
  · refine Or.inr ⟨h.1, ?_⟩
    rw [← Char.toNat_inj, h.2]
    rfl
  · exact absurd h.1 (hNot p hp).2

/-- No letter of a head is white space or a bracket. -/
theorem plain_of_matchesChar {p c : Char} (hp : p ∈ headLetters) (h : matchesChar p c = true) :
    isSpace c = false ∧ ∀ pair ∈ bracketPairs, c ≠ pair.1 ∧ c ≠ pair.2 := by
  have hPlain : ∀ p ∈ Char.ofNat 0x17F :: headLetters, isSpace p = false ∧
      ∀ pair ∈ bracketPairs, p ≠ pair.1 ∧ p ≠ pair.2 := by decide
  rcases matchesChar_head hp h with hLower | ⟨-, rfl⟩
  · by_cases hCapital : c.toNat < 65 ∨ 90 < c.toNat
    · rw [toLower_eq_self hCapital] at hLower
      subst hLower
      exact hPlain c (List.mem_cons_of_mem _ hp)
    · have hNe (d : Char) (hd : d.toNat < 65 ∨ 90 < d.toNat) : c ≠ d := by
        rintro rfl
        exact hCapital hd
      refine ⟨?_, ?_⟩
      · simp only [isSpace, Bool.or_eq_false_iff, Bool.and_eq_false_iff, decide_eq_false_iff_not,
          beq_eq_false_iff_ne, ne_eq]
        omega
      · have hFar : ∀ pair ∈ bracketPairs, (pair.1.toNat < 65 ∨ 90 < pair.1.toNat) ∧
            (pair.2.toNat < 65 ∨ 90 < pair.2.toNat) := by decide
        exact fun pair hPair => ⟨hNe _ (hFar pair hPair).1, hNe _ (hFar pair hPair).2⟩
  · exact hPlain _ List.mem_cons_self

/-- A letter other than `s` is lowered to the letter of the pattern. -/
theorem lowerChar_of_matchesChar {p c : Char} (hp : p ∈ headLetters)
    (h : matchesChar p c = true) :
    lowerChar c = [p] ∨ (p = 's' ∧ lowerChar c = [Char.ofNat 0x17F]) := by
  rcases matchesChar_head hp h with hLower | ⟨rfl, rfl⟩
  · left
    have hLetters : ∀ p ∈ headLetters, p.toNat < 128 := by decide
    have hAscii := hLetters p hp
    have hNe (n : Nat) (hn : 128 ≤ n) : c.toNat ≠ n := by
      intro hEq
      rw [toLower_eq_self (by omega)] at hLower
      rw [hLower] at hEq
      omega
    rw [lowerChar, if_neg (hNe _ (by decide)), if_neg (hNe _ (by decide)), hLower]
  · right
    exact ⟨rfl, rfl⟩

theorem matchesWord_append {w v t : Text} :
    matchesWord (w ++ v) t = true ↔
      matchesWord w (t.take w.length) = true ∧ w.length ≤ t.length ∧
        matchesWord v (t.drop w.length) = true := by
  induction w generalizing t with
  | nil => simp [matchesWord]
  | cons p w ih =>
      cases t with
      | nil => simp [matchesWord]
      | cons c t => simp [matchesWord, ih, and_assoc]

/-- A word matches at the start of a text as at the start of a longer one. -/
theorem matchesWord_longer {w t u : Text} (hPrefix : t <+: u) (h : matchesWord w t = true) :
    matchesWord w u = true := by
  induction w generalizing t u with
  | nil => rfl
  | cons p w ih =>
      cases t with
      | nil => cases h
      | cons c t =>
          obtain ⟨rest, rfl⟩ := hPrefix
          rw [matchesWord, Bool.and_eq_true] at h
          rw [List.cons_append, matchesWord, Bool.and_eq_true]
          exact ⟨h.1, ih (List.prefix_append t rest) h.2⟩

/-- What a word matches has its length. -/
theorem matchesWord_take {w t : Text} (h : matchesWord w t = true) :
    w.length ≤ t.length ∧ matchesWord w (t.take w.length) = true := by
  have hAppend := matchesWord_append.mp ((List.append_nil w).symm ▸ h)
  exact ⟨hAppend.2.1, hAppend.1⟩

theorem exists_of_matchesWord {w t : Text} (hLength : t.length = w.length)
    (h : matchesWord w t = true) : ∀ c ∈ t, ∃ p ∈ w, matchesChar p c = true := by
  induction w generalizing t with
  | nil =>
      rw [List.length_nil, List.length_eq_zero_iff] at hLength
      subst hLength
      simp
  | cons p w ih =>
      cases t with
      | nil => cases h
      | cons c t =>
          rw [matchesWord, Bool.and_eq_true] at h
          intro d hd
          rcases List.mem_cons.mp hd with rfl | hd
          · exact ⟨p, List.mem_cons_self, h.1⟩
          · obtain ⟨q, hq, hMatch⟩ := ih (Nat.succ.inj hLength) h.2 d hd
            exact ⟨q, List.mem_cons_of_mem p hq, hMatch⟩

theorem lower_append (a b : Text) : lower (a ++ b) = lower a ++ lower b := List.flatMap_append

theorem lower_append_take (t : Text) (n : Nat) : lower (t.take n) ++ lower (t.drop n) = lower t := by
  rw [← lower_append, List.take_append_drop]

/-- A word without an `s` is what it matches, in lower case. -/
theorem lower_of_matchesWord {w t : Text} (hw : ∀ p ∈ w, p ∈ headLetters ∧ p ≠ 's')
    (hLength : t.length = w.length) (h : matchesWord w t = true) : lower t = w := by
  induction w generalizing t with
  | nil =>
      rw [List.length_nil, List.length_eq_zero_iff] at hLength
      rw [hLength]
      rfl
  | cons p w ih =>
      cases t with
      | nil => cases h
      | cons c t =>
          rw [matchesWord, Bool.and_eq_true] at h
          obtain ⟨hp, hs⟩ := hw p List.mem_cons_self
          have hHead := (lowerChar_of_matchesChar hp h.1).resolve_right (fun hEq => hs hEq.1)
          have hRest := ih (fun q hq => hw q (List.mem_cons_of_mem p hq)) (Nat.succ.inj hLength) h.2
          rw [lower, List.flatMap_cons, hHead]
          show p :: lower t = p :: w
          rw [hRest]

/-- `https://` with another `s` is no scheme. -/
theorem lower_https {t : Text} (hLength : t.length = 8)
    (h : matchesWord "https://".toList t = true) :
    lower t = "https://".toList ∨ lower t = "httpſ://".toList := by
  obtain ⟨hFront, -, hRest⟩ :=
    (@matchesWord_append "http".toList "s://".toList t).mp h
  have hDrop : (t.drop 4).length = 4 := by rw [List.length_drop, hLength]
  obtain ⟨c, rest, hSplit⟩ : ∃ c rest, t.drop 4 = c :: rest := by
    cases hEq : t.drop 4 with
    | nil =>
        rw [hEq] at hDrop
        cases hDrop
    | cons c rest => exact ⟨c, rest, rfl⟩
  have hRest : matchesWord "s://".toList (t.drop 4) = true := hRest
  rw [hSplit] at hRest hDrop
  have hRest : (matchesChar 's' c && matchesWord "://".toList rest) = true := hRest
  rw [Bool.and_eq_true] at hRest
  have hLower : lower t = "http".toList ++ (lowerChar c ++ "://".toList) := by
    have hTake : lower (t.take 4) = "http".toList :=
      lower_of_matchesWord (by decide) (by rw [List.length_take, hLength]; rfl) hFront
    have hTail : lower rest = "://".toList :=
      lower_of_matchesWord (by decide) (Nat.succ.inj hDrop) hRest.2
    rw [← List.take_append_drop 4 t, lower_append, hTake, hSplit, ← hTail]
    rfl
  rw [hLower]
  rcases lowerChar_of_matchesChar (by decide) hRest.1 with hs | ⟨-, hs⟩
  · left
    rw [hs]
    rfl
  · right
    rw [hs]
    rfl

end Head

/-! ## The first match -/

section Match

/-- The words a match starts with. -/
def headWords : List Text := ["https://", "http://", "www."].map String.toList

theorem headWords_letters : ∀ w ∈ headWords, ∀ p ∈ w, p ∈ headLetters := by decide

theorem urlPrefixLength_eq_some {t : Text} {n : Nat} (h : urlPrefixLength t = some n) :
    ∃ w ∈ headWords, w.length = n ∧ matchesWord w t = true := by
  unfold urlPrefixLength at h
  split at h
  · rename_i hWord
    cases h
    exact ⟨_, List.mem_cons_self, rfl, hWord⟩
  split at h
  · rename_i hWord
    cases h
    exact ⟨_, List.mem_cons_of_mem _ List.mem_cons_self, rfl, hWord⟩
  split at h
  · rename_i hWord
    cases h
    exact ⟨_, List.mem_cons_of_mem _ (List.mem_cons_of_mem _ List.mem_cons_self), rfl, hWord⟩
  · cases h

/-- The start of a text that holds its head has the same head. -/
theorem urlPrefixLength_shorter {t u : Text} {n : Nat} (hPrefix : t <+: u)
    (h : urlPrefixLength u = some n) (hn : n ≤ t.length) : urlPrefixLength t = some n := by
  have hDown (w : Text) (hw : w.length ≤ t.length) (hMatch : matchesWord w u = true) :
      matchesWord w t = true := by
    obtain ⟨rest, rfl⟩ := hPrefix
    have hTake := (matchesWord_take hMatch).2
    rw [List.take_append_of_le_length hw] at hTake
    exact matchesWord_longer (List.take_prefix _ _) hTake
  have hUp (w : Text) (hNot : ¬ matchesWord w u = true) : ¬ matchesWord w t = true :=
    fun hMatch => hNot (matchesWord_longer hPrefix hMatch)
  unfold urlPrefixLength at h ⊢
  split at h
  · rename_i hWord
    cases h
    rw [if_pos (hDown "https://".toList hn hWord)]
  split at h
  · rename_i hFirst hWord
    cases h
    rw [if_neg (hUp _ hFirst), if_pos (hDown "http://".toList hn hWord)]
  split at h
  · rename_i hFirst hSecond hWord
    cases h
    rw [if_neg (hUp _ hFirst), if_neg (hUp _ hSecond), if_pos (hDown "www.".toList hn hWord)]
  · cases h

theorem matchUrl_eq_some {t matched : Text} (h : matchUrl t = some matched) :
    ∃ head tail, matched = head ++ tail ∧ urlPrefixLength matched = some head.length ∧
      ∀ c ∈ tail, isSpace c = false := by
  obtain ⟨n, hPrefix, hMatched⟩ := Option.bind_eq_some_iff.mp h
  dsimp only at hMatched
  split at hMatched
  · cases hMatched
  cases hMatched
  obtain ⟨w, -, rfl, hWord⟩ := urlPrefixLength_eq_some hPrefix
  have hLength : (t.take w.length).length = w.length := by
    rw [List.length_take, Nat.min_eq_left (matchesWord_take hWord).1]
  refine ⟨t.take w.length, (t.drop w.length).takeWhile (!isSpace ·), rfl, ?_, ?_⟩
  · rw [hLength]
    apply urlPrefixLength_shorter _ hPrefix
    · rw [List.length_append, hLength]
      exact Nat.le_add_right _ _
    · obtain ⟨rest, hRest⟩ := List.takeWhile_prefix (p := (!isSpace ·)) (l := t.drop w.length)
      refine ⟨rest, ?_⟩
      rw [List.append_assoc, hRest, List.take_append_drop]
  · intro c hc
    simpa using List.mem_takeWhile_imp hc

theorem searchUrl_eq_some {t matched : Text} (h : searchUrl t = some matched) :
    ∃ u, matchUrl u = some matched := by
  induction t with
  | nil => cases h
  | cons c t ih =>
      rw [searchUrl, Option.or_eq_some_iff] at h
      rcases h with hHere | ⟨-, hLater⟩
      · exact ⟨_, hHere⟩
      · exact ih hLater

theorem exists_firstMatch {content matched : Text} (h : searchUrl content = some matched) :
    ∃ head tail, matched = head ++ tail ∧ FirstMatch content head tail := by
  obtain ⟨u, hMatch⟩ := searchUrl_eq_some h
  obtain ⟨head, tail, rfl, hHeaded, -⟩ := matchUrl_eq_some hMatch
  exact ⟨head, tail, rfl, h, hHeaded⟩

/-- The head of the first match is one of the words, and there is no white space in it or
after it. -/
theorem FirstMatch.word {content head tail : Text} (h : FirstMatch content head tail) :
    (∃ w ∈ headWords, w.length = head.length ∧ matchesWord w head = true) ∧
      (∀ c ∈ head, isSpace c = false ∧ ∀ pair ∈ bracketPairs, c ≠ pair.1 ∧ c ≠ pair.2) ∧
      ∀ c ∈ tail, isSpace c = false := by
  obtain ⟨w, hw, hLength, hMatch⟩ := urlPrefixLength_eq_some h.headed
  have hHead : matchesWord w head = true := by
    have hTake := (matchesWord_take hMatch).2
    rwa [hLength, List.take_left] at hTake
  obtain ⟨u, hFound⟩ := searchUrl_eq_some h.found
  obtain ⟨head', tail', hSplit, hHeaded, hTail⟩ := matchUrl_eq_some hFound
  rw [h.headed, Option.some.injEq] at hHeaded
  obtain ⟨rfl, rfl⟩ := List.append_inj hSplit hHeaded
  refine ⟨⟨w, hw, hLength, hHead⟩, ?_, hTail⟩
  intro c hc
  obtain ⟨p, hp, hChar⟩ := exists_of_matchesWord hLength.symm hHead c hc
  exact plain_of_matchesChar (headWords_letters w hw p hp) hChar

end Match

/-! ## Trimming a match -/

section Trim

variable {head tail : Text}

/-- A head without brackets does not change what is trimmed of the tail. -/
theorem trailing_append {b : Text} (hb : ∀ c ∈ b, ∀ pair ∈ bracketPairs, c ≠ pair.1 ∧ c ≠ pair.2)
    (c : Char) (t : Text) : trailing (c :: (t ++ b)) = trailing (c :: t) := by
  unfold trailing
  dsimp only
  cases hPair : urlClosingPairs c with
  | none => rfl
  | some opening =>
      have hMem := mem_bracketPairs.mpr hPair
      have hClosing : b.count c = 0 :=
        List.count_eq_zero_of_not_mem (fun hc => (hb c hc _ hMem).1 rfl)
      have hOpening : b.count opening = 0 :=
        List.count_eq_zero_of_not_mem (fun hc => (hb opening hc _ hMem).2 rfl)
      rw [Option.any_some, Option.any_some, ← List.cons_append, List.count_append,
        List.count_append, hClosing, hOpening, Nat.add_zero, Nat.add_zero]

/-- The trimming takes from the tail, and from the head when nothing of the tail is left. -/
theorem trimUrlPunctuation_append
    (hHead : ∀ c ∈ head, isSpace c = false ∧ ∀ pair ∈ bracketPairs, c ≠ pair.1 ∧ c ≠ pair.2)
    (hTail : ∀ c ∈ tail, isSpace c = false) :
    trimUrlPunctuation (head ++ tail) =
      if trimUrlPunctuation tail = [] then trimUrlPunctuation head
      else head ++ trimUrlPunctuation tail := by
  have hSpaces : ∀ c ∈ head, isSpace c = false := fun c hc => (hHead c hc).1
  have hBoth : ∀ c ∈ head ++ tail, isSpace c = false := by
    intro c hc
    exact (List.mem_append.mp hc).elim (hSpaces c) (hTail c)
  have hSame := trailing_append (b := head.reverse)
    (fun c hc => (hHead c (List.mem_reverse.mp hc)).2)
  rw [trimUrlPunctuation_eq hBoth, trimUrlPunctuation_eq hSpaces, trimUrlPunctuation_eq hTail,
    List.reverse_append]
  split
  · rename_i hNil
    rw [dropWhileTail_append_of_nil hSame (List.reverse_eq_nil_iff.mp hNil)]
  · rename_i hSome
    rw [dropWhileTail_append_of_ne_nil hSame (fun hNil => hSome (List.reverse_eq_nil_iff.mpr hNil)),
      List.reverse_append, List.reverse_reverse]

/-- The last letter of a word. -/
theorem exists_of_matchesWord_concat {w : Text} {p : Char} (hLength : head.length = w.length + 1)
    (h : matchesWord (w ++ [p]) head = true) :
    ∃ front c, head = front ++ [c] ∧ front.length = w.length ∧ matchesWord w front = true ∧
      matchesChar p c = true := by
  obtain ⟨hFront, -, hLast⟩ := matchesWord_append.mp h
  have hDrop : (head.drop w.length).length = 1 := by
    rw [List.length_drop, hLength]
    omega
  obtain ⟨c, hc⟩ := List.length_eq_one_iff.mp hDrop
  refine ⟨head.take w.length, c, ?_, ?_, hFront, ?_⟩
  · rw [← hc, List.take_append_drop]
  · rw [List.length_take]
    omega
  · rw [hc, matchesWord, Bool.and_eq_true] at hLast
    exact hLast.1

/-- A text that ends in a slash or a `w` is trimmed. -/
theorem trimmed_of_last {front : Text} {p c : Char} (hp : p ∈ ['/', 'w'])
    (h : matchesChar p c = true) : Trimmed (front ++ [c]) := by
  have hLetters : ∀ p ∈ ['/', 'w'], p ∈ headLetters ∧ p ≠ 's' := by decide
  have hLower := (matchesChar_head (hLetters p hp).1 h).resolve_right
    (fun hEq => (hLetters p hp).2 hEq.1)
  have hSigns : ∀ d ∈ ['.', ',', '!', '?', ';', ':', '"', '\''], d.toLower ∉ ['/', 'w'] := by
    decide
  intro front' d hEq
  obtain ⟨-, hSame⟩ := List.append_inj' hEq rfl
  obtain rfl := List.singleton_injective hSame
  refine ⟨fun hMem => hSigns c hMem (hLower ▸ hp), fun opening hPair => ?_⟩
  exact absurd rfl ((plain_of_matchesChar (hLetters p hp).1 h).2 _ hPair).1

/-- Nothing is taken from a scheme. -/
theorem trim_scheme {w : Text} (hLength : head.length = w.length + 1)
    (hWord : matchesWord (w ++ ['/']) head = true) (hSpaces : ∀ c ∈ head, isSpace c = false) :
    trimUrlPunctuation head = head := by
  obtain ⟨front, c, rfl, -, -, hSlash⟩ := exists_of_matchesWord_concat hLength hWord
  exact trimUrlPunctuation_of_trimmed hSpaces (trimmed_of_last (by decide) hSlash)

/-- The dot of `www.` is. -/
theorem trim_www (hLength : head.length = 4) (hWord : matchesWord "www.".toList head = true)
    (hSpaces : ∀ c ∈ head, isSpace c = false) :
    (trimUrlPunctuation head).length = 3 ∧ lower (trimUrlPunctuation head) = "www".toList := by
  obtain ⟨front, c, rfl, hFront, hWww, hDot⟩ :=
    @exists_of_matchesWord_concat _ "www".toList '.' hLength hWord
  obtain ⟨front', d, rfl, -, -, hLetter⟩ :=
    @exists_of_matchesWord_concat _ "ww".toList 'w' hFront hWww
  have hPoint : c = '.' := by
    have hLower := (matchesChar_head (by decide) hDot).resolve_right
      (fun hEq => absurd hEq.1 (by decide))
    rcases toLower_eq_or c with hSame | hLarge
    · exact hSame.symm.trans hLower
    · rw [hLower] at hLarge
      exact absurd hLarge (by decide)
  have hDropped : trimUrlPunctuation ((front' ++ [d]) ++ [c]) = front' ++ [d] := by
    rw [trimUrlPunctuation_eq hSpaces, List.reverse_append, List.reverse_singleton,
      List.singleton_append, dropWhileTail_drop (by rw [hPoint]; rfl),
      ← trimUrlPunctuation_eq (fun x hx => hSpaces x (List.mem_append_left _ hx))]
    exact trimUrlPunctuation_of_trimmed (fun x hx => hSpaces x (List.mem_append_left _ hx))
      (trimmed_of_last (by decide) hLetter)
  rw [hDropped]
  exact ⟨hFront, lower_of_matchesWord (by decide) hFront hWww⟩

end Trim

/-! ## The extracted URL -/

section Extraction

variable {content head tail : Text}

/-- The trimmed match with `https://`, when it starts with `www.` itself. -/
def withScheme (extracted : Text) : Text :=
  if startsWith "www.".toList (lower extracted) then "https://".toList ++ extracted else extracted

theorem extractUrl_of_searchUrl {matched : Text} (h : searchUrl content = some matched) :
    extractUrl (some content) =
      if (withScheme (trimUrlPunctuation matched)).length ≤ MAX_URL_LENGTH then
        some (withScheme (trimUrlPunctuation matched))
      else none := by
  rw [extractUrl, h]
  rfl

theorem usableLink_iff {matched url : Text} (h : searchUrl content = some matched)
    (hUrl : withScheme (trimUrlPunctuation matched) = url) :
    UsableLink content ↔
      MAX_URL_LENGTH < url.length ∨ (WebAddress url ∧ url = trimmedMatch matched) := by
  have hExtract := extractUrl_of_searchUrl h
  rw [hUrl] at hExtract
  by_cases hLength : url.length ≤ MAX_URL_LENGTH
  · rw [if_pos hLength] at hExtract
    rw [or_iff_right (Nat.not_lt.mpr hLength)]
    constructor
    · intro hUsable
      obtain ⟨-, hAddress, matched', hFound, hSame⟩ := hUsable url hExtract
      obtain rfl := Option.some.inj (h.symm.trans hFound)
      exact ⟨hAddress, hSame⟩
    · rintro ⟨hAddress, hSame⟩ url' hUrl'
      obtain rfl := Option.some.inj (hExtract.symm.trans hUrl')
      exact ⟨hLength, hAddress, matched, h, hSame⟩
  · rw [if_neg hLength] at hExtract
    refine ⟨fun _ => Or.inl (Nat.not_le.mp hLength), fun _ url' hUrl' => ?_⟩
    rw [hExtract] at hUrl'
    cases hUrl'

theorem startsWith_append {w a : Text} (b : Text) (h : lower a = w) :
    startsWith w (lower (a ++ b)) = true := by
  rw [startsWith, List.isPrefixOf_iff_prefix, lower_append, h]
  exact List.prefix_append w _

/-- Nothing that starts with another letter starts with `www.`. -/
theorem startsWith_www_of_http (b : Text) (h : "http".toList <+: lower head) :
    startsWith "www.".toList (lower (head ++ b)) = false := by
  obtain ⟨rest, hRest⟩ := h
  rw [lower_append, ← hRest]
  rfl

/-- The scheme of a URL is read off its head. -/
theorem webAddress_iff (kept : Text)
    (hScheme : (head.length = 7 ∧ lower head = "http://".toList) ∨
      (head.length = 8 ∧ (lower head = "https://".toList ∨ lower head = "httpſ://".toList))) :
    WebAddress (head ++ kept) ↔
      (lower head = "http://".toList ∨ lower head = "https://".toList) ∧
        hostAfterScheme kept ≠ [] := by
  have hOnly {n : Nat} (hLength : head.length = n)
      (h : schemeLength (head ++ kept) = some n) :
      WebAddress (head ++ kept) ↔ hostAfterScheme kept ≠ [] := by
    rw [WebAddress, h]
    simp only [Option.some.injEq, exists_eq_left']
    rw [List.drop_append_of_le_length hLength.ge, ← hLength, List.drop_length, List.nil_append]
  rcases hScheme with ⟨hLength, hLower⟩ | ⟨hLength, hLower⟩
  · have hTake : lower ((head ++ kept).take 8) ≠ "https://".toList := by
      intro hEq
      have hPrefix : lower head <+: "https://".toList := by
        rw [← hEq, ← List.take_append_drop 7 ((head ++ kept).take 8), lower_append,
          List.take_take, ← hLength, Nat.min_eq_left (by omega), List.take_left]
        exact List.prefix_append _ _
      rw [hLower] at hPrefix
      exact absurd hPrefix (by decide)
    have hSeven : (head ++ kept).take 7 = head := by rw [← hLength, List.take_left]
    rw [hOnly hLength (by rw [schemeLength, if_neg hTake, hSeven, if_pos hLower])]
    exact (and_iff_right (Or.inl hLower)).symm
  · have hEight : (head ++ kept).take 8 = head := by rw [← hLength, List.take_left]
    rcases hLower with hLower | hLower
    · rw [hOnly hLength (by rw [schemeLength, hEight, if_pos hLower])]
      exact (and_iff_right (Or.inr hLower)).symm
    · have hNeither : ¬ (lower head = "http://".toList ∨ lower head = "https://".toList) := by
        rw [hLower]
        decide
      have hNone : schemeLength (head ++ kept) = none := by
        have hSeven : lower ((head ++ kept).take 7) ≠ "http://".toList := by
          intro hEq
          have hPrefix : lower (head.take 7) <+: lower head := by
            rw [← lower_append_take head 7]
            exact List.prefix_append _ _
          rw [List.take_append_of_le_length (by omega)] at hEq
          rw [hEq, hLower] at hPrefix
          exact absurd hPrefix (by decide)
        rw [schemeLength, hEight, if_neg (fun hEq => hNeither (Or.inr hEq)), if_neg hSeven]
      constructor
      · rintro ⟨n, hn, -⟩
        rw [hNone] at hn
        cases hn
      · intro h
        exact absurd h.1 hNeither

/-- For a match with a scheme. -/
theorem usable_scheme (h : FirstMatch content head tail) {w : Text}
    (hLength : head.length = w.length + 1) (hWord : matchesWord (w ++ ['/']) head = true)
    (hFour : head.length ≠ 4)
    (hScheme : (head.length = 7 ∧ lower head = "http://".toList) ∨
      (head.length = 8 ∧ (lower head = "https://".toList ∨ lower head = "httpſ://".toList))) :
    UsableLink content ↔ NamesHost head tail := by
  obtain ⟨-, hHead, hTail⟩ := h.word
  have hKept : trimUrlPunctuation (head ++ tail) = head ++ trimUrlPunctuation tail := by
    rw [trimUrlPunctuation_append hHead hTail]
    split
    · rename_i hNil
      rw [hNil, List.append_nil, trim_scheme hLength hWord (fun c hc => (hHead c hc).1)]
    · rfl
  have hHttp : "http".toList <+: lower head := by
    rcases hScheme with ⟨-, hLower⟩ | ⟨-, hLower | hLower⟩ <;> rw [hLower] <;> decide
  have hPlain : withScheme (trimUrlPunctuation (head ++ tail)) =
      head ++ trimUrlPunctuation tail := by
    rw [hKept, withScheme, startsWith_www_of_http _ hHttp]
    rfl
  have hMatch : trimmedMatch (head ++ tail) = head ++ trimUrlPunctuation tail := by
    rw [trimmedMatch, startsWith_www_of_http _ hHttp, hKept]
    rfl
  rw [usableLink_iff h.found hPlain, hMatch, NamesHost, if_neg hFour, and_iff_left rfl,
    webAddress_iff _ hScheme]

/-- For a match with `www.`. -/
theorem usable_www (h : FirstMatch content head tail) (hLength : head.length = 4)
    (hWord : matchesWord "www.".toList head = true) :
    UsableLink content ↔ NamesHost head tail := by
  obtain ⟨-, hHead, hTail⟩ := h.word
  have hLower : lower head = "www.".toList := lower_of_matchesWord (by decide) hLength hWord
  have hKept := trimUrlPunctuation_append hHead hTail
  rw [NamesHost, if_pos hLength]
  by_cases hNil : trimUrlPunctuation tail = []
  · rw [if_pos hNil] at hKept
    obtain ⟨hThree, hWww⟩ := trim_www hLength hWord (fun c hc => (hHead c hc).1)
    have hPlain : withScheme (trimUrlPunctuation (head ++ tail)) = trimUrlPunctuation head := by
      rw [hKept, withScheme, hWww]
      rfl
    rw [usableLink_iff h.found hPlain, hThree, hNil, List.append_nil, hLength]
    constructor
    · rintro (hLong | ⟨⟨n, hn, -⟩, -⟩)
      · exact absurd hLong (by decide)
      · rw [schemeLength, List.take_of_length_le (by omega), List.take_of_length_le (by omega),
          hWww, if_neg (by decide), if_neg (by decide)] at hn
        cases hn
    · rintro (hLong | ⟨hSome, -⟩)
      · exact absurd hLong (by decide)
      · exact absurd rfl hSome
  · rw [if_neg hNil] at hKept
    have hPrefixed : withScheme (trimUrlPunctuation (head ++ tail)) =
        "https://".toList ++ (head ++ trimUrlPunctuation tail) := by
      rw [hKept, withScheme, startsWith_append _ hLower]
      rfl
    have hMatch : trimmedMatch (head ++ tail) =
        "https://".toList ++ (head ++ trimUrlPunctuation tail) := by
      rw [trimmedMatch, startsWith_append _ hLower, hKept]
      rfl
    rw [usableLink_iff h.found hPrefixed, hMatch, and_iff_left rfl,
      webAddress_iff _ (Or.inr ⟨rfl, Or.inl rfl⟩), List.length_append]
    constructor
    · rintro (hLong | ⟨-, hHost⟩)
      · exact Or.inl hLong
      · exact Or.inr ⟨hNil, hHost⟩
    · rintro (hLong | ⟨-, hHost⟩)
      · exact Or.inl hLong
      · exact Or.inr ⟨Or.inr rfl, hHost⟩

/-- What is extracted can be used exactly when there is no match, or the first one is too long
to be kept, or it names a host after the trimming: more of its tail is left than punctuation,
and its scheme is written in ASCII letters. -/
theorem extractUrl_usable_iff (content : Text) :
    UsableLink content ↔
      ∀ head tail, FirstMatch content head tail → NamesHost head tail := by
  have hMatch {head tail : Text} (h : FirstMatch content head tail) :
      UsableLink content ↔ NamesHost head tail := by
    obtain ⟨⟨w, hw, hLength, hWord⟩, -⟩ := h.word
    simp only [headWords, List.map_cons, List.map_nil, List.mem_cons, List.not_mem_nil,
      or_false] at hw
    rcases hw with rfl | rfl | rfl
    · have hEight : head.length = 8 := hLength.symm
      exact usable_scheme h (w := "https:/".toList) hEight hWord (by omega)
        (Or.inr ⟨hEight, lower_https hEight hWord⟩)
    · have hSeven : head.length = 7 := hLength.symm
      exact usable_scheme h (w := "http:/".toList) hSeven hWord (by omega)
        (Or.inl ⟨hSeven, lower_of_matchesWord (by decide) hSeven hWord⟩)
    · exact usable_www h hLength.symm hWord
  constructor
  · intro hUsable head tail h
    exact (hMatch h).mp hUsable
  · intro hNames
    cases hSearch : searchUrl content with
    | none =>
        intro url hUrl
        rw [extractUrl, hSearch] at hUrl
        cases hUrl
    | some matched =>
        obtain ⟨head, tail, -, h⟩ := exists_firstMatch hSearch
        exact (hMatch h).mpr (hNames head tail h)

/-- A sentence that ends in `www..` has `www` for a link, and one with `http://.` a scheme
without a host. -/
theorem extracted_without_host :
    extractUrl (some "see www..".toList) = some "www".toList ∧
      ¬ UsableLink "see www..".toList ∧
      extractUrl (some "see http://.".toList) = some "http://".toList ∧
      ¬ UsableLink "see http://.".toList := by
  have hWww : extractUrl (some "see www..".toList) = some "www".toList := by decide
  have hHttp : extractUrl (some "see http://.".toList) = some "http://".toList := by decide
  refine ⟨hWww, fun hUsable => ?_, hHttp, fun hUsable => ?_⟩
  · obtain ⟨-, ⟨n, hn, -⟩, -⟩ := hUsable _ hWww
    have hNone : schemeLength "www".toList = none := by decide
    rw [hNone] at hn
    cases hn
  · obtain ⟨-, ⟨n, hn, hHost⟩, -⟩ := hUsable _ hHttp
    have hSeven : n = 7 := by
      have hScheme : schemeLength "http://".toList = some 7 := by decide
      exact Option.some.inj (hn.symm.trans hScheme)
    subst hSeven
    exact hHost (by decide)

end Extraction

end SavedOrganizer
