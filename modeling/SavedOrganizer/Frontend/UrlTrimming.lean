import SavedOrganizer.Frontend.MessageContent
import SavedOrganizer.Scanner.UrlTrimming

/-!
# The two implementations of the punctuation trimming

`trimUrlPunctuation` in the browser goes by UTF-16 code units, `_trim_url_punctuation` by
characters. All the characters either of them looks for are ASCII, so a unit of a surrogate
pair ends the loop like any other letter, and the loop over the code units drops exactly the
codes of the characters the other loop drops (`trimUrlPunctuation_utf16`).
-/

namespace SavedOrganizer.Frontend

open Trimming

/-! ## The loop on code units -/

/-- The loop goes on: the reversed string starts with a unit to drop. -/
def trailing : JsString → Bool
  | [] => false
  | u :: rest => simpleTrailingPunctuation.contains u ||
      (closingPairs u).any fun opening => (u :: rest).count opening < (u :: rest).count u

theorem occurrences_eq_count {u : UInt16}
    (h : isHighSurrogate u = false ∧ isLowSurrogate u = false) (s : JsString) :
    occurrences s u = s.count u := by
  rw [← count_codePoints h, List.count_eq_length_filter]
  rfl

/-- Brackets are no surrogates. -/
theorem closingPairs_plain {u opening : UInt16} (h : closingPairs u = some opening) :
    (isHighSurrogate u = false ∧ isLowSurrogate u = false) ∧
      (isHighSurrogate opening = false ∧ isLowSurrogate opening = false) := by
  unfold closingPairs at h
  split at h
  · rename_i hu
    subst hu
    cases h
    decide
  split at h
  · rename_i hu
    subst hu
    cases h
    decide
  split at h
  · rename_i hu
    subst hu
    cases h
    decide
  · cases h

theorem trimReversed_eq_dropWhileTail (s : JsString) :
    trimReversed s = dropWhileTail trailing s := by
  have hOccurrences {u opening : UInt16} (rest : JsString) (h : closingPairs u = some opening) :
      occurrences (u :: rest).reverse opening = (u :: rest).count opening ∧
        occurrences (u :: rest).reverse u = (u :: rest).count u := by
    obtain ⟨hu, hOpening⟩ := closingPairs_plain h
    rw [occurrences_eq_count hu, occurrences_eq_count hOpening, List.count_reverse,
      List.count_reverse]
    exact ⟨rfl, rfl⟩
  fun_induction trimReversed s with
  | case1 => rfl
  | case2 u rest h ih =>
      rw [dropWhileTail_drop (by rw [trailing, h, Bool.true_or]), ih]
  | case3 u rest normalized h opening hPair hCount ih =>
      rw [(hOccurrences rest hPair).1, (hOccurrences rest hPair).2] at hCount
      have hTrailing : trailing (u :: rest) = true := by
        rw [trailing, hPair, Option.any_some, decide_eq_true hCount, Bool.or_true]
      rw [dropWhileTail_drop hTrailing, ih]
  | case4 u rest normalized h opening hPair hCount =>
      rw [(hOccurrences rest hPair).1, (hOccurrences rest hPair).2] at hCount
      have hTrailing : trailing (u :: rest) = false := by
        rw [Bool.not_eq_true] at h
        rw [trailing, h, hPair, Option.any_some, decide_eq_false hCount, Bool.or_false]
      exact (dropWhileTail_keep hTrailing).symm
  | case5 u rest h hPair =>
      have hTrailing : trailing (u :: rest) = false := by
        rw [Bool.not_eq_true] at h
        rw [trailing, h, hPair, Option.any_none, Bool.or_false]
      exact (dropWhileTail_keep hTrailing).symm

theorem trimUrlPunctuation_eq {s : JsString} (h : ∀ u ∈ s, isSpace u = false) :
    trimUrlPunctuation s = (dropWhileTail trailing s.reverse).reverse := by
  rw [trimUrlPunctuation, trim_eq_self h, trimReversed_eq_dropWhileTail]

/-! ## The code units of a character -/

section Units

variable {a c : Char}

theorem unit_toNat (h : c.toNat < 0x10000) : (unit c).toNat = c.toNat := by
  rw [unit, UInt16.toNat_ofNat']
  exact Nat.mod_eq_of_lt h

theorem unit_eq_iff (ha : a.toNat < 0x10000) (hc : c.toNat < 0x10000) :
    unit c = unit a ↔ c = a := by
  rw [← UInt16.toNat_inj, unit_toNat ha, unit_toNat hc, Char.toNat_inj]

theorem codeUnits_ascii (h : c.toNat < 0x80) : codeUnits c = [unit c] := by
  rw [codeUnits, if_pos (by omega)]
  rfl

/-- No code unit of another character is an ASCII character. -/
theorem not_ascii_of_mem (h : 0x80 ≤ c.toNat) {u : UInt16} (hu : u ∈ codeUnits c) :
    0x80 ≤ u.toNat := by
  have hValid := c.valid
  have hMax : c.toNat < 0x110000 := by
    rcases hValid with hLow | hHigh
    · exact lt_trans hLow (by decide)
    · exact hHigh.2
  unfold codeUnits at hu
  split at hu
  · rename_i hSmall
    rw [List.mem_singleton] at hu
    rw [hu, UInt16.toNat_ofNat', Nat.mod_eq_of_lt hSmall]
    exact h
  · simp only [List.mem_cons, List.not_mem_nil, or_false] at hu
    rcases hu with rfl | rfl
    · rw [UInt16.toNat_ofNat', Nat.mod_eq_of_lt (by omega)]
      omega
    · rw [UInt16.toNat_ofNat', Nat.mod_eq_of_lt (by omega)]
      omega

theorem codeUnits_ne_nil (c : Char) : codeUnits c ≠ [] := by
  unfold codeUnits
  split <;> exact List.cons_ne_nil _ _

theorem count_codeUnits (ha : a.toNat < 0x80) : (codeUnits c).count (unit a) = [c].count a := by
  by_cases hc : c.toNat < 0x80
  · rw [codeUnits_ascii hc, List.count_singleton, List.count_singleton]
    simp only [beq_iff_eq, unit_eq_iff (a := a) (c := c) (by omega) (by omega)]
  · have hne : c ≠ a := by
      rintro rfl
      exact hc ha
    have hNot : unit a ∉ codeUnits c := by
      intro hMem
      have hLarge := not_ascii_of_mem (Nat.not_lt.mp hc) hMem
      rw [unit_toNat (by omega)] at hLarge
      omega
    rw [List.count_eq_zero_of_not_mem hNot, List.count_singleton]
    simp [hne]

end Units

/-! ## The loop on the code of a text -/

section Agreement

/-- The code of a character from its last unit on. -/
def reversedUnits (c : Char) : JsString := (codeUnits c).reverse

theorem reverse_utf16 (t : Text) : (utf16 t).reverse = t.reverse.flatMap reversedUnits :=
  List.reverse_flatMap

theorem utf16_reverse (t : Text) : (t.flatMap reversedUnits).reverse = utf16 t.reverse := by
  rw [← List.reverse_reverse (utf16 t.reverse), reverse_utf16, List.reverse_reverse]

theorem count_reversedUnits {a : Char} (ha : a.toNat < 0x80) (t : Text) :
    (t.flatMap reversedUnits).count (unit a) = t.count a := by
  induction t with
  | nil => rfl
  | cons c t ih =>
      rw [List.flatMap_cons, List.count_append, ih, reversedUnits, List.count_reverse,
        count_codeUnits ha, ← List.count_append, List.singleton_append]

theorem contains_unit {c : Char} (hc : c.toNat < 0x80) :
    simpleTrailingPunctuation.contains (unit c) = simpleUrlTrailingPunctuation.contains c := by
  have hAscii : ∀ a ∈ simpleUrlTrailingPunctuation, a.toNat < 0x80 := by decide
  rw [Bool.eq_iff_iff, List.contains_iff_mem, List.contains_iff_mem]
  show unit c ∈ simpleUrlTrailingPunctuation.map unit ↔ c ∈ simpleUrlTrailingPunctuation
  rw [List.mem_map]
  constructor
  · rintro ⟨a, ha, hEq⟩
    have hSmall := hAscii a ha
    rw [unit_eq_iff (by omega) (by omega)] at hEq
    exact hEq ▸ ha
  · intro h
    exact ⟨c, h, rfl⟩

theorem closingPairs_unit {c : Char} (hc : c.toNat < 0x80) :
    closingPairs (unit c) = (urlClosingPairs c).map unit := by
  have hUnit (a : Char) (ha : a.toNat < 0x80) : unit c = unit a ↔ c = a :=
    unit_eq_iff (by omega) (by omega)
  unfold closingPairs urlClosingPairs
  simp only [hUnit ')' (by decide), hUnit ']' (by decide), hUnit '}' (by decide)]
  split
  · rfl
  split
  · rfl
  split
  · rfl
  · rfl

/-- No unit from 128 on is dropped. -/
theorem trailing_of_large {u : UInt16} (hu : 0x80 ≤ u.toNat) (rest : JsString) :
    trailing (u :: rest) = false := by
  have hSimple : simpleTrailingPunctuation.contains u = false := by
    have hAscii : ∀ v ∈ simpleTrailingPunctuation, v.toNat < 0x80 := by decide
    rw [← Bool.not_eq_true, List.contains_iff_mem]
    intro hMem
    exact absurd (hAscii u hMem) (Nat.not_lt.mpr hu)
  have hNone : closingPairs u = none := by
    have hNe (v : UInt16) (hv : v.toNat < 0x80) : u ≠ v := by
      rintro rfl
      exact absurd hv (Nat.not_lt.mpr hu)
    unfold closingPairs
    rw [if_neg (hNe _ (by decide)), if_neg (hNe _ (by decide)), if_neg (hNe _ (by decide))]
  rw [trailing, hSimple, hNone]
  rfl

/-- Opening brackets are ASCII as the closing ones are. -/
theorem urlClosingPairs_ascii {c opening : Char} (h : urlClosingPairs c = some opening) :
    c.toNat < 0x80 ∧ opening.toNat < 0x80 := by
  have hPair := mem_bracketPairs.mpr h
  have hAscii : ∀ pair ∈ bracketPairs, pair.1.toNat < 0x80 ∧ pair.2.toNat < 0x80 := by decide
  exact hAscii _ hPair

/-- The last unit of a character that is not ASCII. -/
theorem exists_reversedUnits {c : Char} (hc : 0x80 ≤ c.toNat) :
    ∃ u us, reversedUnits c = u :: us ∧ 0x80 ≤ u.toNat := by
  have hSome : reversedUnits c ≠ [] := by
    intro hNil
    exact codeUnits_ne_nil c (List.reverse_eq_nil_iff.mp hNil)
  obtain ⟨u, us, hUnits⟩ := List.exists_cons_of_ne_nil hSome
  refine ⟨u, us, hUnits, not_ascii_of_mem hc ?_⟩
  rw [← List.mem_reverse]
  show u ∈ reversedUnits c
  rw [hUnits]
  exact List.mem_cons_self

theorem trailing_reversedUnits (c : Char) (t : Text) :
    trailing ((c :: t).flatMap reversedUnits) = SavedOrganizer.trailing (c :: t) := by
  by_cases hc : c.toNat < 0x80
  · have hCode : (c :: t).flatMap reversedUnits = unit c :: t.flatMap reversedUnits := by
      rw [List.flatMap_cons, reversedUnits, codeUnits_ascii hc]
      rfl
    rw [hCode, trailing, SavedOrganizer.trailing, contains_unit hc, closingPairs_unit hc, ← hCode]
    cases hPair : urlClosingPairs c with
    | none => rfl
    | some opening =>
        obtain ⟨-, hOpening⟩ := urlClosingPairs_ascii hPair
        rw [Option.map_some, Option.any_some, Option.any_some, count_reversedUnits hOpening,
          count_reversedUnits hc]
  · rw [Nat.not_lt] at hc
    obtain ⟨u, us, hUnits, hLarge⟩ := exists_reversedUnits hc
    rw [List.flatMap_cons, hUnits, List.cons_append, trailing_of_large hLarge]
    have hPlain : simpleUrlTrailingPunctuation.contains c = false := by
      have hAscii : ∀ a ∈ simpleUrlTrailingPunctuation, a.toNat < 0x80 := by decide
      rw [← Bool.not_eq_true, List.contains_iff_mem]
      intro hMem
      exact absurd (hAscii c hMem) (Nat.not_lt.mpr hc)
    have hNone : urlClosingPairs c = none := by
      cases hPair : urlClosingPairs c with
      | none => rfl
      | some opening => exact absurd (urlClosingPairs_ascii hPair).1 (Nat.not_lt.mpr hc)
    rw [SavedOrganizer.trailing, hPlain, hNone]
    rfl

/-- A character that is dropped has one code unit. -/
theorem reversedUnits_of_trailing {c : Char} {t : Text}
    (h : SavedOrganizer.trailing (c :: t) = true) : ∃ u, reversedUnits c = [u] := by
  have hc : c.toNat < 0x80 := by
    by_contra hc
    obtain ⟨u, us, hUnits, hLarge⟩ := exists_reversedUnits (Nat.not_lt.mp hc)
    rw [← trailing_reversedUnits, List.flatMap_cons, hUnits, List.cons_append,
      trailing_of_large hLarge] at h
    cases h
  refine ⟨unit c, ?_⟩
  rw [reversedUnits, codeUnits_ascii hc]
  rfl

/-- The browser trims the code of a text to the code of the trimmed text. -/
theorem trimUrlPunctuation_utf16 {t : Text} (hText : ∀ c ∈ t, Python.isSpace c = false)
    (hUnits : ∀ u ∈ utf16 t, isSpace u = false) :
    trimUrlPunctuation (utf16 t) = utf16 (SavedOrganizer.trimUrlPunctuation t) := by
  rw [trimUrlPunctuation_eq hUnits, SavedOrganizer.trimUrlPunctuation_eq hText, reverse_utf16,
    ← utf16_reverse]
  congr 1
  apply dropWhileTail_flatMap
  · intro c t h
    obtain ⟨u, hu⟩ := reversedUnits_of_trailing h
    exact ⟨u, hu, (trailing_reversedUnits c t).trans h⟩
  · intro c t h
    exact (trailing_reversedUnits c t).trans h

/-- A text that ends in a closing bracket is trimmed, when its brackets are balanced. -/
theorem trimmed_of_balanced {front : Text} {closing opening : Char}
    (hPair : (closing, opening) ∈ bracketPairs)
    (h : (front ++ [closing]).count closing ≤ (front ++ [closing]).count opening) :
    Trimmed (front ++ [closing]) := by
  rw [trimmed_iff]
  right
  have hClosing := mem_bracketPairs.mp hPair
  have hPlain : ∀ pair ∈ bracketPairs, simpleUrlTrailingPunctuation.contains pair.1 = false := by
    decide
  rw [← List.count_reverse, ← @List.count_reverse _ _ opening, List.reverse_append] at h
  rw [List.reverse_append, List.reverse_singleton, List.singleton_append,
    SavedOrganizer.trailing, hPlain _ hPair, hClosing, Bool.false_or, Option.any_some,
    decide_eq_false_iff_not, not_lt]
  exact h

/-- Both implementations return the longest prefix that is empty or ends neither in sentence
punctuation nor in a closing bracket in excess. What they return is not trimmed again, and a
text that ends in a closing bracket and has as many of the opening one is not trimmed at all. -/
theorem trimming_agrees (w : Text) (hText : ∀ c ∈ w, Python.isSpace c = false)
    (hUnits : ∀ u ∈ utf16 w, isSpace u = false) :
    trimUrlPunctuation (utf16 w) = utf16 (SavedOrganizer.trimUrlPunctuation w) ∧
      LongestPrefix Trimmed w (SavedOrganizer.trimUrlPunctuation w) ∧
      SavedOrganizer.trimUrlPunctuation (SavedOrganizer.trimUrlPunctuation w) =
        SavedOrganizer.trimUrlPunctuation w ∧
      trimUrlPunctuation (trimUrlPunctuation (utf16 w)) = trimUrlPunctuation (utf16 w) ∧
      ∀ front closing opening, w = front ++ [closing] → (closing, opening) ∈ bracketPairs →
        w.count closing = w.count opening →
        SavedOrganizer.trimUrlPunctuation w = w ∧ trimUrlPunctuation (utf16 w) = utf16 w := by
  have hAgree := trimUrlPunctuation_utf16 hText hUnits
  have hLongest := longestPrefix_trimUrlPunctuation hText
  have hTrimmedText : ∀ c ∈ SavedOrganizer.trimUrlPunctuation w, Python.isSpace c = false :=
    fun c hc => hText c (hLongest.isPrefix.subset hc)
  have hTrimmedUnits : ∀ u ∈ utf16 (SavedOrganizer.trimUrlPunctuation w), isSpace u = false := by
    intro u hu
    obtain ⟨c, hc, hMem⟩ := List.mem_flatMap.mp hu
    exact hUnits u (List.mem_flatMap.mpr ⟨c, hLongest.isPrefix.subset hc, hMem⟩)
  have hFixed := trimUrlPunctuation_of_trimmed hTrimmedText hLongest.holds
  refine ⟨hAgree, hLongest, hFixed, ?_, ?_⟩
  · rw [hAgree, trimUrlPunctuation_utf16 hTrimmedText hTrimmedUnits, hFixed]
  · rintro front closing opening rfl hPair hCount
    have hSame := trimUrlPunctuation_of_trimmed hText (trimmed_of_balanced hPair hCount.le)
    rw [hAgree, hSame]
    exact ⟨rfl, rfl⟩

theorem trimming_agrees_balanced :
    let w : Text := "https://a.example/guide_(draft)".toList
    trimUrlPunctuation (utf16 w) = utf16 w ∧ LongestPrefix Trimmed w w := by
  intro w
  have hText : ∀ c ∈ w, Python.isSpace c = false := by decide
  have hUnits : ∀ u ∈ utf16 w, isSpace u = false := by decide
  obtain ⟨-, hLongest, -, -, hBalanced⟩ := trimming_agrees w hText hUnits
  obtain ⟨hSame, hBrowser⟩ := hBalanced "https://a.example/guide_(draft".toList ')' '(' (by decide)
    (by decide) (by decide)
  rw [hSame] at hLongest
  exact ⟨hBrowser, hLongest⟩

example : trimUrlPunctuation (js "https://a.example/(x)).") = js "https://a.example/(x)" := by
  decide +kernel

end Agreement

end SavedOrganizer.Frontend
