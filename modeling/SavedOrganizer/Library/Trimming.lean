import Mathlib.Data.List.Infix
import Mathlib.Data.List.Flatten

/-!
# Trimming a list at one end

A loop that drops the last element of a list as long as some condition holds of the whole
list. The lists are kept reversed here, so that the end is the head: `dropWhileTail p` drops
elements from the front until `p` fails. What the loop leaves is the longest part that is
empty or fails `p` (`longestPrefix_dropWhileTail`), whatever `p` is.

`dropWhileTail_flatMap` is the simulation of one such loop by another one over an encoding
of the same list, in which an element may take several positions.
-/

namespace Trimming

universe u v

variable {α : Type u} {β : Type v}

/-- Drops elements from the front as long as `p` holds of what is left. -/
def dropWhileTail (p : List α → Bool) : List α → List α
  | [] => []
  | a :: t => if p (a :: t) then dropWhileTail p t else a :: t

@[simp] theorem dropWhileTail_nil (p : List α → Bool) : dropWhileTail p [] = [] := rfl

section Lemmas

variable {p : List α → Bool} {a : α} {t : List α}

theorem dropWhileTail_drop (h : p (a :: t) = true) :
    dropWhileTail p (a :: t) = dropWhileTail p t := if_pos h

theorem dropWhileTail_keep (h : p (a :: t) = false) : dropWhileTail p (a :: t) = a :: t := by
  rw [dropWhileTail, h]
  rfl

theorem dropWhileTail_suffix (p : List α → Bool) (t : List α) : dropWhileTail p t <:+ t := by
  induction t with
  | nil => exact List.suffix_refl []
  | cons a t ih =>
      by_cases h : p (a :: t) = true
      · rw [dropWhileTail_drop h]
        exact ih.trans (List.suffix_cons a t)
      · rw [dropWhileTail_keep (Bool.not_eq_true _ ▸ h)]

theorem dropWhileTail_settled (p : List α → Bool) (t : List α) :
    dropWhileTail p t = [] ∨ p (dropWhileTail p t) = false := by
  induction t with
  | nil => exact Or.inl rfl
  | cons a t ih =>
      by_cases h : p (a :: t) = true
      · rw [dropWhileTail_drop h]
        exact ih
      · rw [Bool.not_eq_true] at h
        rw [dropWhileTail_keep h]
        exact Or.inr h

/-- A part that fails `p` is not reached. -/
theorem suffix_dropWhileTail {s : List α} (hs : s <:+ t) (h : s = [] ∨ p s = false) :
    s <:+ dropWhileTail p t := by
  induction t with
  | nil => exact hs
  | cons a t ih =>
      by_cases hp : p (a :: t) = true
      · rw [dropWhileTail_drop hp]
        rcases List.suffix_cons_iff.mp hs with rfl | hs
        · rcases h with h | h
          · cases h
          · rw [hp] at h
            cases h
        · exact ih hs
      · rw [Bool.not_eq_true] at hp
        rw [dropWhileTail_keep hp]
        exact hs

theorem dropWhileTail_eq_self (h : t = [] ∨ p t = false) : dropWhileTail p t = t :=
  List.IsSuffix.eq_of_length_le (dropWhileTail_suffix p t)
    (suffix_dropWhileTail (List.suffix_refl t) h).length_le

/-! ## A list in front of one that does not count -/

section Append

variable {b : List α} (hp : ∀ c t, p (c :: (t ++ b)) = p (c :: t))

include hp

/-- The loop goes on with `b` when it leaves nothing before it. -/
theorem dropWhileTail_append_of_nil {a : List α} (h : dropWhileTail p a = []) :
    dropWhileTail p (a ++ b) = dropWhileTail p b := by
  induction a with
  | nil => rfl
  | cons c t ih =>
      by_cases hc : p (c :: t) = true
      · rw [dropWhileTail_drop hc] at h
        rw [List.cons_append, dropWhileTail_drop ((hp c t).trans hc), ih h]
      · rw [Bool.not_eq_true] at hc
        rw [dropWhileTail_keep hc] at h
        cases h

theorem dropWhileTail_append_of_ne_nil {a : List α} (h : dropWhileTail p a ≠ []) :
    dropWhileTail p (a ++ b) = dropWhileTail p a ++ b := by
  induction a with
  | nil => exact absurd rfl h
  | cons c t ih =>
      by_cases hc : p (c :: t) = true
      · rw [dropWhileTail_drop hc] at h ⊢
        rw [List.cons_append, dropWhileTail_drop ((hp c t).trans hc), ih h]
      · rw [Bool.not_eq_true] at hc
        rw [dropWhileTail_keep hc, List.cons_append, dropWhileTail_keep ((hp c t).trans hc)]

end Append

end Lemmas

/-! ## The longest prefix -/

/-- `s` is the longest prefix of `t` that satisfies `q`. -/
structure LongestPrefix (q : List α → Prop) (t s : List α) : Prop where
  isPrefix : s <+: t
  holds : q s
  longest : ∀ u, u <+: t → q u → u <+: s

theorem LongestPrefix.unique {q : List α → Prop} {t s s' : List α} (h : LongestPrefix q t s)
    (h' : LongestPrefix q t s') : s = s' :=
  List.IsPrefix.eq_of_length_le (h'.longest s h.isPrefix h.holds)
    (h.longest s' h'.isPrefix h'.holds).length_le

theorem longestPrefix_dropWhileTail {p : List α → Bool} {q : List α → Prop}
    (h : ∀ u, q u ↔ u = [] ∨ p u.reverse = false) (t : List α) :
    LongestPrefix q t (dropWhileTail p t.reverse).reverse where
  isPrefix := by
    rw [← List.reverse_suffix, List.reverse_reverse]
    exact dropWhileTail_suffix p t.reverse
  holds := by
    rw [h, List.reverse_reverse, List.reverse_eq_nil_iff]
    exact dropWhileTail_settled p t.reverse
  longest := by
    intro u hu hq
    rw [← List.reverse_suffix, List.reverse_reverse]
    apply suffix_dropWhileTail (List.reverse_suffix.mpr hu)
    rw [List.reverse_eq_nil_iff]
    exact (h u).mp hq

/-! ## Trimming an encoded list -/

/-- The loop over the encoded list does what the loop over the list does, when an element
that is dropped has a code of one element, which is dropped too, and the code of one that is
kept is kept. -/
theorem dropWhileTail_flatMap {p : List α → Bool} {q : List β → Bool} {f : α → List β}
    (hDrop : ∀ a t, p (a :: t) = true → ∃ b, f a = [b] ∧ q ((a :: t).flatMap f) = true)
    (hKeep : ∀ a t, p (a :: t) = false → q ((a :: t).flatMap f) = false)
    (t : List α) : dropWhileTail q (t.flatMap f) = (dropWhileTail p t).flatMap f := by
  induction t with
  | nil => rfl
  | cons a t ih =>
      by_cases hp : p (a :: t) = true
      · obtain ⟨b, hf, hq⟩ := hDrop a t hp
        rw [dropWhileTail_drop hp, ← ih]
        rw [List.flatMap_cons, hf] at hq ⊢
        exact dropWhileTail_drop hq
      · rw [Bool.not_eq_true] at hp
        rw [dropWhileTail_keep hp]
        exact dropWhileTail_eq_self (Or.inr (hKeep a t hp))

end Trimming
