import Mathlib.Order.MinMax
import Mathlib.Data.List.Basic

/-!
# Cursor pagination over a descending list

A source lists its elements in strictly descending order of a key. A cursor is the key of
the last element already taken (`none` before the first one). `after cursor xs` is what is
left below the cursor and `upTo cursor xs` what has been taken; a page is a nonempty
prefix of the rest, and the next cursor is the key of its last element.

The two facts everything else follows from are `after_page` (resuming at the last key of a
page continues right behind it, nothing skipped and nothing repeated) and `mem_page` (a
page holds every element of the source between its own last key and the old cursor). Both
speak about one list, so they also hold when the source changes between two pages.
-/

namespace Pagination

universe u v

variable {α : Type u} {κ : Type v} [LinearOrder κ] {key : α → κ}

/-- Strictly descending keys. -/
def Descending (key : α → κ) (xs : List α) : Prop :=
  xs.Pairwise (fun a b => key b < key a)

/-- The elements below the cursor. -/
def after (key : α → κ) : Option κ → List α → List α
  | none, xs => xs
  | some c, xs => xs.filter (fun x => decide (key x < c))

/-- The elements at the cursor or above it. -/
def upTo (key : α → κ) : Option κ → List α → List α
  | none, _ => []
  | some c, xs => xs.filter (fun x => decide (c ≤ key x))

/-- The cursor `c` has passed the key `k`. -/
def Passed (c : Option κ) (k : κ) : Prop := ∃ d, c = some d ∧ d ≤ k

theorem Descending.sublist {xs ys : List α} (h : Descending key xs) (hs : ys.Sublist xs) :
    Descending key ys :=
  List.Pairwise.sublist hs h

theorem after_sublist (c : Option κ) (xs : List α) : (after key c xs).Sublist xs := by
  cases c with
  | none => exact List.Sublist.refl xs
  | some c => exact List.filter_sublist

theorem Descending.after {xs : List α} (h : Descending key xs) (c : Option κ) :
    Descending key (after key c xs) :=
  h.sublist (after_sublist c xs)

theorem mem_after {c : Option κ} {xs : List α} {x : α} :
    x ∈ after key c xs ↔ x ∈ xs ∧ ¬ Passed c (key x) := by
  cases c with
  | none => simp [after, Passed]
  | some c => simp [after, Passed]

theorem mem_upTo {c : Option κ} {xs : List α} {x : α} :
    x ∈ upTo key c xs ↔ x ∈ xs ∧ Passed c (key x) := by
  cases c with
  | none => simp [upTo, Passed]
  | some c => simp [upTo, Passed]

/-- What has been taken, followed by what is left, is the source. -/
theorem upTo_append_after {xs : List α} (h : Descending key xs) (c : Option κ) :
    upTo key c xs ++ after key c xs = xs := by
  cases c with
  | none => rfl
  | some c =>
      induction xs with
      | nil => rfl
      | cons x xs ih =>
          have hTail := List.Pairwise.of_cons h
          by_cases hx : c ≤ key x
          · have hlt : ¬ key x < c := not_lt.mpr hx
            simpa [upTo, after, hx, hlt] using ih hTail
          · have hlt : key x < c := not_le.mp hx
            have hAll : ∀ y ∈ xs, key y < c := fun y hy =>
              (List.rel_of_pairwise_cons h hy).trans hlt
            have hUp : xs.filter (fun y => decide (c ≤ key y)) = [] := by
              rw [List.filter_eq_nil_iff]
              intro y hy
              simpa using hAll y hy
            have hDown : xs.filter (fun y => decide (key y < c)) = xs := by
              rw [List.filter_eq_self]
              intro y hy
              simpa using hAll y hy
            simp [upTo, after, hx, hlt, hUp, hDown]

theorem upTo_prefix {xs : List α} (h : Descending key xs) (c : Option κ) :
    upTo key c xs <+: xs :=
  ⟨after key c xs, upTo_append_after h c⟩

/-- Splitting a descending list at the key of one of its elements. -/
theorem split_at_last {front back : List α} {x : α}
    (h : Descending key (front ++ x :: back)) :
    upTo key (some (key x)) (front ++ x :: back) = front ++ [x] ∧
      after key (some (key x)) (front ++ x :: back) = back := by
  obtain ⟨_, hCons, hCross⟩ := List.pairwise_append.mp h
  have hFront : ∀ y ∈ front, key x < key y := fun y hy => hCross y hy x List.mem_cons_self
  have hBack : ∀ y ∈ back, key y < key x := fun y hy => List.rel_of_pairwise_cons hCons hy
  have h1 : front.filter (fun y => decide (key x ≤ key y)) = front :=
    List.filter_eq_self.mpr (fun y hy => by simpa using (hFront y hy).le)
  have h2 : back.filter (fun y => decide (key x ≤ key y)) = [] :=
    List.filter_eq_nil_iff.mpr (fun y hy => by simpa using hBack y hy)
  have h3 : front.filter (fun y => decide (key y < key x)) = [] :=
    List.filter_eq_nil_iff.mpr (fun y hy => by simpa using (hFront y hy).le)
  have h4 : back.filter (fun y => decide (key y < key x)) = back :=
    List.filter_eq_self.mpr (fun y hy => by simpa using hBack y hy)
  constructor
  · simp [upTo, h1, h2]
  · simp [after, h3, h4]

/-! ## One page -/

/-- The page of the first `n` elements below the cursor. -/
def page (key : α → κ) (c : Option κ) (n : Nat) (xs : List α) : List α :=
  (after key c xs).take n

theorem page_split {xs : List α} {c : Option κ} {n : Nat} {last : α}
    (hLast : (page key c n xs).getLast? = some last) :
    ∃ front, page key c n xs = front ++ [last] ∧
      after key c xs = front ++ last :: (after key c xs).drop n := by
  obtain ⟨front, hFront⟩ := List.getLast?_eq_some_iff.mp hLast
  refine ⟨front, hFront, ?_⟩
  have h := List.take_append_drop n (after key c xs)
  rw [show (after key c xs).take n = front ++ [last] from hFront, List.append_assoc] at h
  exact h.symm

/-- Resuming at the last key of a page continues right behind the page. -/
theorem after_page {xs : List α} (h : Descending key xs) {c : Option κ} {n : Nat} {last : α}
    (hLast : (page key c n xs).getLast? = some last) :
    after key (some (key last)) xs = (after key c xs).drop n ∧
      upTo key (some (key last)) xs = upTo key c xs ++ page key c n xs := by
  obtain ⟨front, hPage, hAfter⟩ := page_split hLast
  have hAll : xs = (upTo key c xs ++ front) ++ last :: (after key c xs).drop n := by
    rw [List.append_assoc, ← hAfter]
    exact (upTo_append_after h c).symm
  have hSplit := split_at_last (hAll ▸ h)
  rw [← hAll] at hSplit
  rw [hPage, ← List.append_assoc]
  exact ⟨hSplit.2, hSplit.1⟩

/-- A page misses nothing between its last key and the cursor it was fetched at. -/
theorem mem_page {xs : List α} (h : Descending key xs) {c : Option κ} {n : Nat} {last x : α}
    (hLast : (page key c n xs).getLast? = some last) (hx : x ∈ xs) (hc : ¬ Passed c (key x))
    (hle : key last ≤ key x) : x ∈ page key c n xs := by
  obtain ⟨hAfter, -⟩ := after_page h hLast
  have hMem : x ∈ after key c xs := mem_after.mpr ⟨hx, hc⟩
  rw [← List.take_append_drop n (after key c xs)] at hMem
  rcases List.mem_append.mp hMem with hTake | hDrop
  · exact hTake
  · rw [← hAfter] at hDrop
    exact absurd ⟨key last, rfl, hle⟩ (mem_after.mp hDrop).2

/-- Every nonempty prefix of what is left is a page. -/
theorem page_of_prefix {xs p : List α} {c : Option κ} (hp : p <+: after key c xs) :
    page key c p.length xs = p :=
  (List.prefix_iff_eq_take.mp hp).symm

/-- The last key of a descending list is its least key. -/
theorem last_le {xs : List α} (h : Descending key xs) {last x : α}
    (hLast : xs.getLast? = some last) (hx : x ∈ xs) : key last ≤ key x := by
  obtain ⟨front, rfl⟩ := List.getLast?_eq_some_iff.mp hLast
  rcases List.mem_append.mp hx with hx | hx
  · exact ((List.pairwise_append.mp h).2.2 x hx last List.mem_cons_self).le
  · rw [List.mem_singleton.mp hx]

theorem min?_eq_getLast? {xs : List κ} (h : Descending id xs) : xs.min? = xs.getLast? := by
  cases hLast : xs.getLast? with
  | none => rw [List.getLast?_eq_none_iff.mp hLast]; rfl
  | some last =>
      have : Std.LawfulOrderMin κ :=
        { min_eq_or := min_choice, le_min_iff := fun _ _ _ => le_min_iff }
      rw [List.min?_eq_some_iff]
      exact ⟨List.mem_of_getLast? hLast, fun x hx => last_le h hLast hx⟩

/-- Reading off the keys commutes with the cursor. -/
theorem map_after (c : Option κ) (xs : List α) :
    (after key c xs).map key = after id c (xs.map key) := by
  cases c with
  | none => rfl
  | some c =>
      simp only [after, List.filter_map]
      rfl

end Pagination
