import Mathlib.Data.List.Count
import SavedOrganizer.Library.Trimming
import SavedOrganizer.Scanner.Url

/-!
# What the punctuation trimming leaves

`_trim_url_punctuation` looks at the last character and at the number of brackets in the
whole text, so each removal changes what decides the next one. `Trimmed` says what the loop
is looking for, without a loop; `longestPrefix_trimUrlPunctuation` is that the loop finds the
longest such prefix.
-/

namespace SavedOrganizer

open Python Trimming

/-- The pairs of brackets a URL may hold, closing bracket first. -/
def bracketPairs : List (Char × Char) := [(')', '('), (']', '['), ('}', '{')]

/-- The text is empty, or ends neither in sentence punctuation nor in a closing bracket that
occurs more often than its opening bracket. -/
def Trimmed (t : Text) : Prop :=
  ∀ front c, t = front ++ [c] → c ∉ ['.', ',', '!', '?', ';', ':', '"', '\''] ∧
    ∀ opening, (c, opening) ∈ bracketPairs → t.count c ≤ t.count opening

/-- The loop goes on: the reversed text starts with a character to drop. -/
def trailing : Text → Bool
  | [] => false
  | c :: rest => simpleUrlTrailingPunctuation.contains c ||
      (urlClosingPairs c).any fun opening => (c :: rest).count opening < (c :: rest).count c

theorem trimReversed_eq_dropWhileTail (t : Text) : trimReversed t = dropWhileTail trailing t := by
  fun_induction trimReversed t with
  | case1 => rfl
  | case2 c rest h ih =>
      rw [dropWhileTail_drop (by rw [trailing, h, Bool.true_or]), ih]
  | case3 c rest h opening hPair hCount ih =>
      have hTrailing : trailing (c :: rest) = true := by
        rw [trailing, hPair, Option.any_some, decide_eq_true hCount, Bool.or_true]
      rw [dropWhileTail_drop hTrailing, ih]
  | case4 c rest h opening hPair hCount =>
      have hTrailing : trailing (c :: rest) = false := by
        rw [Bool.not_eq_true] at h
        rw [trailing, h, hPair, Option.any_some, decide_eq_false hCount, Bool.or_false]
      exact (dropWhileTail_keep hTrailing).symm
  | case5 c rest h hPair =>
      have hTrailing : trailing (c :: rest) = false := by
        rw [Bool.not_eq_true] at h
        rw [trailing, h, hPair, Option.any_none, Bool.or_false]
      exact (dropWhileTail_keep hTrailing).symm

theorem mem_bracketPairs {c opening : Char} :
    (c, opening) ∈ bracketPairs ↔ urlClosingPairs c = some opening := by
  simp only [bracketPairs, urlClosingPairs, List.mem_cons, Prod.mk.injEq, List.not_mem_nil,
    or_false]
  constructor
  · rintro (⟨rfl, rfl⟩ | ⟨rfl, rfl⟩ | ⟨rfl, rfl⟩) <;> rfl
  · intro h
    split at h
    · rename_i hc
      exact Or.inl ⟨hc, (Option.some.inj h).symm⟩
    split at h
    · rename_i hc
      exact Or.inr (Or.inl ⟨hc, (Option.some.inj h).symm⟩)
    split at h
    · rename_i hc
      exact Or.inr (Or.inr ⟨hc, (Option.some.inj h).symm⟩)
    · cases h

/-- The loop stops exactly at a trimmed text. -/
theorem trimmed_iff (t : Text) : Trimmed t ↔ t = [] ∨ trailing t.reverse = false := by
  rcases List.eq_nil_or_concat t with rfl | ⟨front, c, rfl⟩
  · simp [Trimmed]
  · rw [List.concat_eq_append]
    have hReverse : (front ++ [c]).reverse = c :: front.reverse := by simp
    have hCount (a : Char) : (c :: front.reverse).count a = (front ++ [c]).count a := by
      rw [← hReverse, List.count_reverse]
    rw [hReverse, trailing, Bool.or_eq_false_iff, or_iff_right (by simp)]
    simp only [hCount]
    constructor
    · intro h
      obtain ⟨hPlain, hBrackets⟩ := h front c rfl
      refine ⟨?_, ?_⟩
      · simpa [simpleUrlTrailingPunctuation] using hPlain
      · cases hPair : urlClosingPairs c with
        | none => rfl
        | some opening =>
            rw [Option.any_some, decide_eq_false_iff_not, not_lt]
            exact hBrackets opening (mem_bracketPairs.mpr hPair)
    · rintro ⟨hPlain, hBrackets⟩ front' c' hEq
      obtain ⟨rfl, hSame⟩ := List.append_inj' hEq rfl
      obtain rfl := List.singleton_injective hSame
      refine ⟨?_, fun opening hPair => ?_⟩
      · simpa [simpleUrlTrailingPunctuation] using hPlain
      · rw [mem_bracketPairs.mp hPair, Option.any_some, decide_eq_false_iff_not, not_lt] at hBrackets
        exact hBrackets

/-! ## Stripping -/

theorem trimUrlPunctuation_eq {t : Text} (h : ∀ c ∈ t, isSpace c = false) :
    trimUrlPunctuation t = (dropWhileTail trailing t.reverse).reverse := by
  rw [trimUrlPunctuation, strip_eq_self h, trimReversed_eq_dropWhileTail]

theorem longestPrefix_trimUrlPunctuation {t : Text} (h : ∀ c ∈ t, isSpace c = false) :
    LongestPrefix Trimmed t (trimUrlPunctuation t) := by
  rw [trimUrlPunctuation_eq h]
  exact longestPrefix_dropWhileTail trimmed_iff t

/-- A trimmed text without white space is left as it is. -/
theorem trimUrlPunctuation_of_trimmed {t : Text} (h : ∀ c ∈ t, isSpace c = false)
    (hTrimmed : Trimmed t) : trimUrlPunctuation t = t := by
  have hLongest := longestPrefix_trimUrlPunctuation h
  exact hLongest.unique ⟨List.prefix_refl t, hTrimmed, fun u hu _ => hu⟩

end SavedOrganizer
