import SavedOrganizer.Library.Table
import Mathlib.Data.List.Sort

/-!
# Ordered queries, and the rows of one owner

`SELECT .. WHERE .. ORDER BY ..` over a table. A `SortKey` is one term of an `ORDER BY`, and
terms are chained with `thenBy`. When the last term is the primary key the answer is a
function of the set of rows, whatever order they are stored in (`select_congr`), and the
database has no choice left (`Answer.eq_select`).

Every row has an owner. Two tables agree for an owner when they have the same rows of that
owner, and a statement is confined to an owner when its predicate selects only such rows.
What a confined statement reads is then the same from both (`AgreeFor.any`,
`AgreeFor.count`, `AgreeFor.select`, `AgreeFor.find`), what it writes is the same in both,
and it leaves the rows of everybody else alone (`sameForOthers_update`, ..). A row that is inserted
may get another fresh key in the one than in the other (`AgreeUpTo`).
-/

universe u v w

/-! ## Sort keys -/

/-- A total preorder, as one term of an `ORDER BY`. -/
structure SortKey (ρ : Type u) where
  le : ρ → ρ → Bool
  total : ∀ a b, le a b = true ∨ le b a = true
  trans : ∀ a b c, le a b = true → le b c = true → le a c = true

namespace SortKey

variable {ρ : Type u} {σ : Type v}

/-- `ORDER BY f ASC` -/
def ascending (f : ρ → Nat) : SortKey ρ where
  le a b := decide (f a ≤ f b)
  total a b := by
    simp only [decide_eq_true_eq]
    exact Nat.le_total _ _
  trans a b c := by
    simp only [decide_eq_true_eq]
    exact Nat.le_trans

/-- `ORDER BY f DESC` -/
def descending (f : ρ → Nat) : SortKey ρ where
  le a b := decide (f b ≤ f a)
  total a b := by
    simp only [decide_eq_true_eq]
    exact Nat.le_total _ _
  trans a b c := by
    simp only [decide_eq_true_eq]
    exact fun hab hbc => Nat.le_trans hbc hab

/-- `ORDER BY f` in the order of the values of `f`. -/
def on (order : SortKey σ) (f : ρ → σ) : SortKey ρ where
  le a b := order.le (f a) (f b)
  total _ _ := order.total _ _
  trans _ _ _ := order.trans _ _ _

/-- `ORDER BY first, second` -/
def thenBy (first second : SortKey ρ) : SortKey ρ where
  le a b := first.le a b && (!first.le b a || second.le a b)
  total a b := by
    rcases first.total a b with hab | hba
    · cases hba : first.le b a with
      | false => simp [hab]
      | true => simpa [hab] using second.total a b
    · cases hab : first.le a b with
      | false => simp [hba]
      | true => simpa [hba] using second.total a b
  trans a b c := by
    simp only [Bool.and_eq_true, Bool.or_eq_true, Bool.not_eq_true']
    rintro ⟨hab, hab'⟩ ⟨hbc, hbc'⟩
    refine ⟨first.trans a b c hab hbc, ?_⟩
    cases hca : first.le c a with
    | false => exact Or.inl rfl
    | true =>
        have hba : first.le b a = true := first.trans b c a hbc hca
        have hcb : first.le c b = true := first.trans c a b hca hab
        rw [hba] at hab'
        rw [hcb] at hbc'
        simp only [Bool.true_eq_false, false_or] at hab' hbc'
        exact Or.inr (second.trans a b c hab' hbc')

/-- Rows that are equal in the order have the same key. -/
def Decides {κ : Type w} [Keyed ρ κ] (order : SortKey ρ) : Prop :=
  ∀ a b, order.le a b = true → order.le b a = true → (Keyed.key a : κ) = Keyed.key b

theorem Decides.thenBy {κ : Type w} [Keyed ρ κ] {second : SortKey ρ} (h : second.Decides)
    (first : SortKey ρ) : (first.thenBy second).Decides := by
  intro a b hab hba
  simp only [SortKey.thenBy, Bool.and_eq_true, Bool.or_eq_true, Bool.not_eq_true'] at hab hba
  obtain ⟨hab, hab'⟩ := hab
  obtain ⟨hba, hba'⟩ := hba
  rw [hba] at hab'
  rw [hab] at hba'
  simp only [Bool.true_eq_false, false_or] at hab' hba'
  exact h a b hab' hba'

end SortKey

/-! ## Selecting -/

namespace Table

variable {ρ : Type u} {κ : Type v} [Keyed ρ κ]

/-- `SELECT .. WHERE p ORDER BY order` -/
def select (t : Table ρ) (p : ρ → Bool) (order : SortKey ρ) : List ρ :=
  (t.rows.filter p).insertionSort fun a b => order.le a b = true

theorem mem_select {t : Table ρ} {p : ρ → Bool} {order : SortKey ρ} {r : ρ} :
    r ∈ t.select p order ↔ r ∈ t ∧ p r = true := by
  rw [select, List.mem_insertionSort, List.mem_filter]
  exact Iff.rfl

theorem nodup_rows (t : Table ρ) : t.rows.Nodup := t.distinct.of_map _

/-- The rows two tables select are the same up to their order. -/
theorem filter_perm {t t' : Table ρ} {p q : ρ → Bool}
    (h : ∀ r, (r ∈ t ∧ p r = true) ↔ (r ∈ t' ∧ q r = true)) :
    (t.rows.filter p).Perm (t'.rows.filter q) := by
  refine (List.perm_ext_iff_of_nodup (t.nodup_rows.filter _) (t'.nodup_rows.filter _)).mpr ?_
  intro r
  rw [List.mem_filter, List.mem_filter]
  exact h r

/-- Two orders that are the same on the selected rows, one of which decides, give the same
answer. -/
theorem select_congr_order {t t' : Table ρ} {p q : ρ → Bool} {order order' : SortKey ρ}
    (hDecides : order.Decides) (h : ∀ r, (r ∈ t ∧ p r = true) ↔ (r ∈ t' ∧ q r = true))
    (hOrder : ∀ a b, p a = true → p b = true → a ∈ t → b ∈ t → order'.le a b = order.le a b) :
    t.select p order = t'.select q order' := by
  have : Std.Total fun a b : ρ => order.le a b = true := ⟨order.total⟩
  have : IsTrans ρ fun a b : ρ => order.le a b = true := ⟨order.trans⟩
  have : Std.Total fun a b : ρ => order'.le a b = true := ⟨order'.total⟩
  have : IsTrans ρ fun a b : ρ => order'.le a b = true := ⟨order'.trans⟩
  have hSorted : (t'.select q order').Pairwise fun a b => order.le a b = true := by
    refine List.Pairwise.imp_of_mem ?_ (List.pairwise_insertionSort _ _)
    intro a b ha hb hab
    obtain ⟨hat, hap⟩ := (h a).mpr (mem_select.mp ha)
    obtain ⟨hbt, hbp⟩ := (h b).mpr (mem_select.mp hb)
    rwa [hOrder a b hap hbp hat hbt] at hab
  refine List.Perm.eq_of_pairwise ?_ (List.pairwise_insertionSort _ _) hSorted
    (((List.perm_insertionSort _ _).trans (filter_perm h)).trans (List.perm_insertionSort _ _).symm)
  intro a b ha hb hab hba
  have ha := (mem_select.mp ha).1
  have hb := (h b).mpr (mem_select.mp hb)
  exact eq_of_key ha hb.1 (hDecides a b hab hba)

/-- An order that decides makes the answer a function of the selected rows. -/
theorem select_congr {t t' : Table ρ} {p q : ρ → Bool} {order : SortKey ρ}
    (hDecides : order.Decides) (h : ∀ r, (r ∈ t ∧ p r = true) ↔ (r ∈ t' ∧ q r = true)) :
    t.select p order = t'.select q order :=
  select_congr_order hDecides h fun _ _ _ _ _ _ => rfl

end Table

/-! ## Any answer of the database

A database may return rows that are equal in the order as it likes, and another time
otherwise. -/

namespace Table

variable {ρ : Type u} {κ : Type v} [Keyed ρ κ]

/-- An answer to `SELECT .. WHERE p ORDER BY order`. -/
structure Answer (t : Table ρ) (p : ρ → Bool) (order : SortKey ρ) (rows : List ρ) : Prop where
  selected : rows.Perm (t.rows.filter p)
  sorted : rows.Pairwise fun a b => order.le a b = true

theorem answer_select (t : Table ρ) (p : ρ → Bool) (order : SortKey ρ) :
    t.Answer p order (t.select p order) := by
  have : Std.Total fun a b : ρ => order.le a b = true := ⟨order.total⟩
  have : IsTrans ρ fun a b : ρ => order.le a b = true := ⟨order.trans⟩
  exact ⟨List.perm_insertionSort _ _, List.pairwise_insertionSort _ _⟩

/-- An order that decides leaves one answer. -/
theorem Answer.eq_select {t : Table ρ} {p : ρ → Bool} {order : SortKey ρ} {rows : List ρ}
    (h : t.Answer p order rows) (hDecides : order.Decides) : rows = t.select p order := by
  have hSelect := t.answer_select p order
  refine List.Perm.eq_of_pairwise ?_ h.sorted hSelect.sorted (h.selected.trans hSelect.selected.symm)
  intro a b ha hb hab hba
  have hMem (r : ρ) (hr : r ∈ t.rows.filter p) : r ∈ t := (List.mem_filter.mp hr).1
  exact eq_of_key (hMem a (h.selected.subset ha)) (hMem b (hSelect.selected.subset hb))
    (hDecides a b hab hba)

end Table

/-! ## Pages by `OFFSET` and `LIMIT` -/

/-- `OFFSET n * size LIMIT size`. -/
def pageOf {α : Type u} (rows : List α) (size n : Nat) : List α := (rows.drop (n * size)).take size

/-- The number of pages, `ceil(total / size)`. -/
def pageCount (total size : Nat) : Nat := (total + size - 1) / size

theorem flatMap_pageOf {α : Type u} (rows : List α) (size k : Nat) :
    (List.range k).flatMap (pageOf rows size) = rows.take (k * size) := by
  induction k with
  | zero => simp
  | succ k ih =>
      rw [List.range_succ, List.flatMap_append, ih, List.flatMap_singleton, Nat.add_mul,
        Nat.one_mul, List.take_add, pageOf]

/-- The pages together reach the end. -/
theorem le_pageCount_mul {total size : Nat} (hSize : 0 < size) :
    total ≤ pageCount total size * size := by
  have hDiv := Nat.div_add_mod (total + size - 1) size
  have hMod := Nat.mod_lt (total + size - 1) hSize
  rw [Nat.mul_comm] at hDiv
  unfold pageCount
  omega

/-- All pages, one after the other, are all rows. -/
theorem flatMap_pageCount {α : Type u} (rows : List α) {size : Nat} (hSize : 0 < size) :
    (List.range (pageCount rows.length size)).flatMap (pageOf rows size) = rows := by
  rw [flatMap_pageOf, List.take_of_length_le (le_pageCount_mul hSize)]

/-! ## The rows of one owner -/

class HasOwner (ρ : Type u) (υ : outParam (Type w)) where
  owner : ρ → υ

/-- The predicate selects rows of this owner only. -/
def ConfinedTo {ρ : Type u} {υ : Type w} [HasOwner ρ υ] (o : υ) (p : ρ → Bool) : Prop :=
  ∀ r, p r = true → HasOwner.owner r = o

namespace Table

variable {ρ : Type u} {κ : Type v} {υ : Type w} [Keyed ρ κ] [HasOwner ρ υ]

/-- The tables have the same rows of this owner. -/
def AgreeFor (o : υ) (t t' : Table ρ) : Prop := ∀ r, HasOwner.owner r = o → (r ∈ t ↔ r ∈ t')

/-- The tables have the same rows of everybody else. -/
def SameForOthers (o : υ) (t t' : Table ρ) : Prop :=
  ∀ r, HasOwner.owner r ≠ o → (r ∈ t ↔ r ∈ t')

variable {o : υ} {t t' t'' : Table ρ} {p q : ρ → Bool} {f : ρ → ρ}

theorem agreeFor_refl : AgreeFor o t t := fun _ _ => Iff.rfl

theorem sameForOthers_refl : SameForOthers o t t := fun _ _ => Iff.rfl

theorem SameForOthers.trans (h : SameForOthers o t t') (h' : SameForOthers o t' t'') :
    SameForOthers o t t'' :=
  fun r hr => (h r hr).trans (h' r hr)

/-! ### Reading -/

/-- The selected rows are the same. -/
theorem AgreeFor.selected (h : AgreeFor o t t') (hp : ConfinedTo o p) (r : ρ) :
    (r ∈ t ∧ p r = true) ↔ (r ∈ t' ∧ p r = true) :=
  and_congr_left fun hpr => h r (hp r hpr)

section Reading

variable (h : AgreeFor o t t') (hp : ConfinedTo o p)

include h hp

theorem AgreeFor.select {order : SortKey ρ} (hDecides : order.Decides) :
    t.select p order = t'.select p order :=
  select_congr hDecides (h.selected hp)

theorem AgreeFor.any : t.rows.any p = t'.rows.any p := by
  rw [Bool.eq_iff_iff, List.any_eq_true, List.any_eq_true]
  exact exists_congr fun r => h.selected hp r

theorem AgreeFor.count : t.count p = t'.count p := by
  rw [Table.count, Table.count, List.countP_eq_length_filter, List.countP_eq_length_filter]
  exact (filter_perm (h.selected hp)).length_eq

/-- A predicate that selects at most one row finds the same. -/
theorem AgreeFor.find_one (hOne : ∀ r ∈ t, ∀ s ∈ t, p r = true → p s = true → r = s) :
    t.rows.find? p = t'.rows.find? p := by
  have hMem {t : Table ρ} (hOne : ∀ r ∈ t, ∀ s ∈ t, p r = true → p s = true → r = s) {r : ρ} :
      t.rows.find? p = some r ↔ r ∈ t ∧ p r = true := by
    constructor
    · intro hFound
      exact ⟨List.mem_of_find?_eq_some hFound, List.find?_some hFound⟩
    · rintro ⟨hr, hpr⟩
      obtain ⟨s, hs⟩ := Option.isSome_iff_exists.mp (List.find?_isSome.mpr ⟨r, hr, hpr⟩)
      rw [hs, hOne s (List.mem_of_find?_eq_some hs) r hr (List.find?_some hs) hpr]
  have hOne' : ∀ r ∈ t', ∀ s ∈ t', p r = true → p s = true → r = s := by
    intro r hr s hs hpr hps
    exact hOne r ((h r (hp r hpr)).mpr hr) s ((h s (hp s hps)).mpr hs) hpr hps
  apply Option.ext
  intro r
  rw [hMem hOne, hMem hOne']
  exact h.selected hp r

/-- In particular a predicate that fixes the key. -/
theorem AgreeFor.find (hOne : ∀ r s, p r = true → p s = true → (Keyed.key r : κ) = Keyed.key s) :
    t.rows.find? p = t'.rows.find? p :=
  h.find_one hp fun r hr s hs hpr hps => eq_of_key hr hs (hOne r s hpr hps)

/-- So does a key whose rows the predicate confines. -/
theorem AgreeFor.find?_any [DecidableEq κ] (k : κ) :
    (t.find? k).any p = (t'.find? k).any p := by
  have hMem {t : Table ρ} : (t.find? k).any p = true ↔ ∃ r, (r ∈ t ∧ p r = true) ∧ Keyed.key r = k := by
    rw [Option.any_eq_true]
    constructor
    · rintro ⟨r, hr, hpr⟩
      exact ⟨r, ⟨mem_of_find? hr, hpr⟩, key_of_find? hr⟩
    · rintro ⟨r, ⟨hr, hpr⟩, hk⟩
      exact ⟨r, find?_eq_some.mpr ⟨hr, hk⟩, hpr⟩
  rw [Bool.eq_iff_iff, hMem, hMem]
  exact exists_congr fun r => and_congr_left fun _ => h.selected hp r

end Reading

/-- A key that says who the owner is. -/
theorem AgreeFor.find? [DecidableEq κ] (h : AgreeFor o t t') {k : κ}
    (hOwner : ∀ r : ρ, (Keyed.key r : κ) = k → HasOwner.owner r = o) : t.find? k = t'.find? k :=
  @AgreeFor.find ρ κ υ _ _ o t t' (fun r => decide (Keyed.key r = k)) h
    (fun r hr => hOwner r (of_decide_eq_true hr))
    fun _ _ hr hs => (of_decide_eq_true hr).trans (of_decide_eq_true hs).symm

/-! ### Writing -/

section Writing

/-- The two updates may have different predicates, if they are the same for the owner. -/
theorem AgreeFor.update (h : AgreeFor o t t')
    (hKey : ∀ r, (Keyed.key (f r) : κ) = Keyed.key r) (hOwner : ∀ r, HasOwner.owner (f r) = HasOwner.owner r)
    (hSame : ∀ r, HasOwner.owner r = o → p r = q r) :
    AgreeFor o (t.update p f hKey) (t'.update q f hKey) := by
  intro r hr
  have hWritten {s : ρ} {b : Bool} (hs : (if b then f s else s) = r) : HasOwner.owner s = o := by
    rw [← hr, ← hs]
    split
    · exact (hOwner s).symm
    · rfl
  rw [@mem_update _ _ _ t p f hKey, @mem_update _ _ _ t' q f hKey]
  constructor
  · rintro ⟨s, hs, hEq⟩
    have hOwn := hWritten hEq
    exact ⟨s, (h s hOwn).mp hs, hSame s hOwn ▸ hEq⟩
  · rintro ⟨s, hs, hEq⟩
    have hOwn := hWritten hEq
    exact ⟨s, (h s hOwn).mpr hs, hSame s hOwn ▸ hEq⟩

theorem sameForOthers_update (hKey : ∀ r, (Keyed.key (f r) : κ) = Keyed.key r)
    (hp : ∀ r ∈ t, p r = true → HasOwner.owner r = o)
    (hOwner : ∀ r, HasOwner.owner (f r) = HasOwner.owner r) :
    SameForOthers o t (t.update p f hKey) := by
  intro r hr
  have hNot {s : ρ} (hMem : s ∈ t) (hs : HasOwner.owner s ≠ o) : p s = false := by
    rw [← Bool.not_eq_true]
    exact fun hps => hs (hp s hMem hps)
  rw [@mem_update _ _ _ t p f hKey]
  constructor
  · intro hMem
    exact ⟨r, hMem, by rw [hNot hMem hr]; rfl⟩
  · rintro ⟨s, hs, rfl⟩
    have hOwn : HasOwner.owner s ≠ o := by
      intro hOwn
      apply hr
      split
      · exact (hOwner s).trans hOwn
      · exact hOwn
    rw [hNot hs hOwn]
    exact hs

theorem AgreeFor.delete (h : AgreeFor o t t') (hSame : ∀ r, HasOwner.owner r = o → p r = q r) :
    AgreeFor o (t.delete p) (t'.delete q) := by
  intro r hr
  rw [mem_delete, mem_delete, hSame r hr, h r hr]

theorem sameForOthers_delete (hp : ∀ r ∈ t, p r = true → HasOwner.owner r = o) :
    SameForOthers o t (t.delete p) := by
  intro r hr
  rw [mem_delete, ← Bool.not_eq_true]
  exact ⟨fun hMem => ⟨hMem, fun hpr => hr (hp r hMem hpr)⟩, And.left⟩

end Writing

section Inserting

variable {r : ρ} (hFree : ∀ s ∈ t, (Keyed.key s : κ) ≠ Keyed.key r)

theorem sameForOthers_insert (hOwner : HasOwner.owner r = o) :
    SameForOthers o t (t.insert r hFree) := by
  intro s hs
  rw [mem_insert]
  constructor
  · exact Or.inl
  · rintro (hMem | rfl)
    · exact hMem
    · exact absurd hOwner hs

end Inserting

/-! ### Fresh keys -/

/-- The tables agree for the owner, except that the row that has the key `k` in the one may
have the key `k'` in the other. -/
def AgreeUpTo (withKey : κ → ρ → ρ) (o : υ) (k k' : κ) (t t' : Table ρ) : Prop :=
  ∀ r, HasOwner.owner r = o →
    ((r ∈ t ∧ (Keyed.key r : κ) ≠ k) ↔ (r ∈ t' ∧ (Keyed.key r : κ) ≠ k')) ∧
      (withKey k r ∈ t ↔ withKey k' r ∈ t')

section Fresh

variable {withKey : κ → ρ → ρ} {k k' : κ} (hFresh : ∀ r ∈ t, (Keyed.key r : κ) ≠ k)
  (hFresh' : ∀ r ∈ t', (Keyed.key r : κ) ≠ k') (hKey : ∀ k r, (Keyed.key (withKey k r) : κ) = k)

include hFresh hFresh' hKey

theorem AgreeFor.upTo (h : AgreeFor o t t') : AgreeUpTo withKey o k k' t t' := by
  intro r hr
  constructor
  · constructor
    · rintro ⟨hMem, -⟩
      have hMem' := (h r hr).mp hMem
      exact ⟨hMem', hFresh' r hMem'⟩
    · rintro ⟨hMem', -⟩
      have hMem := (h r hr).mpr hMem'
      exact ⟨hMem, hFresh r hMem⟩
  · constructor
    · exact fun hMem => absurd (hKey k r) (hFresh _ hMem)
    · exact fun hMem => absurd (hKey k' r) (hFresh' _ hMem)

/-- The two tables get the same row under fresh keys. -/
theorem AgreeFor.insert (h : AgreeFor o t t')
    (hWith : ∀ k k' r, withKey k' (withKey k r) = withKey k' r) (row : ρ)
    (hFree : ∀ s ∈ t, (Keyed.key s : κ) ≠ Keyed.key (withKey k row))
    (hFree' : ∀ s ∈ t', (Keyed.key s : κ) ≠ Keyed.key (withKey k' row)) :
    AgreeUpTo withKey o k k' (t.insert (withKey k row) hFree) (t'.insert (withKey k' row) hFree') := by
  intro r hr
  obtain ⟨hOld, hNew⟩ := h.upTo hFresh hFresh' hKey r hr
  rw [mem_insert hFree, mem_insert hFree', mem_insert hFree, mem_insert hFree']
  constructor
  · have hOther {k : κ} (hNe : (Keyed.key r : κ) ≠ k) : r ≠ withKey k row := by
      rintro rfl
      exact hNe (hKey k row)
    constructor
    · rintro ⟨hMem, hNe⟩
      obtain ⟨hMem', hNe'⟩ := hOld.mp ⟨hMem.resolve_right (hOther hNe), hNe⟩
      exact ⟨Or.inl hMem', hNe'⟩
    · rintro ⟨hMem', hNe'⟩
      obtain ⟨hMem, hNe⟩ := hOld.mpr ⟨hMem'.resolve_right (hOther hNe'), hNe'⟩
      exact ⟨Or.inl hMem, hNe⟩
  · refine or_congr hNew ⟨fun hEq => ?_, fun hEq => ?_⟩
    · rw [← hWith k k' r, hEq, hWith]
    · rw [← hWith k' k r, hEq, hWith]

end Fresh

end Table
