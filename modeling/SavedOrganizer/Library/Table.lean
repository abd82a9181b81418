import Mathlib.Data.List.Nodup
import Mathlib.Data.List.Perm.Subperm

/-!
# Tables with a primary key

A table is a list of rows no two of which have the same key; the proof is a field, so a
table with a repeated key cannot be built. The operations are the statements of a
relational store: `update` changes the rows a predicate selects, `delete` drops them,
`insert` adds a row with a free key (`insert?` tests that it is), `count` is the number of
rows a statement matches.

`find?` reads a table as a partial function of the key, and each operation acts on that
function pointwise (`find?_update`, `find?_delete`, `find?_insert`). Proofs about one row
therefore never look at the list.
-/

universe u v

/-- Rows with a primary key. -/
class Keyed (ρ : Type u) (κ : outParam (Type v)) where
  key : ρ → κ

/-- A list of rows with distinct keys. -/
structure Table (ρ : Type u) {κ : Type v} [Keyed ρ κ] where
  rows : List ρ
  distinct : (rows.map Keyed.key).Nodup

namespace Table

variable {ρ : Type u} {κ : Type v} [Keyed ρ κ]

def empty : Table ρ := ⟨[], List.nodup_nil⟩

instance : Membership ρ (Table ρ) := ⟨fun t r => r ∈ t.rows⟩

theorem mem_def {t : Table ρ} {r : ρ} : r ∈ t ↔ r ∈ t.rows := Iff.rfl

/-- Two rows of a table with the same key are the same row. -/
theorem eq_of_key {t : Table ρ} {r s : ρ} (hr : r ∈ t) (hs : s ∈ t)
    (h : (Keyed.key r : κ) = Keyed.key s) : r = s :=
  List.inj_on_of_nodup_map t.distinct hr hs h

/-! ## Reading -/

/-- The row with the given key. -/
def find? [DecidableEq κ] (t : Table ρ) (k : κ) : Option ρ :=
  t.rows.find? (fun r => Keyed.key r = k)

/-- The number of rows a predicate selects, a statement's `rowcount`. -/
def count (t : Table ρ) (p : ρ → Bool) : Nat := t.rows.countP p

section Find

variable [DecidableEq κ]

theorem find?_eq_some {t : Table ρ} {k : κ} {r : ρ} :
    t.find? k = some r ↔ r ∈ t ∧ Keyed.key r = k := by
  constructor
  · intro h
    exact ⟨List.mem_of_find?_eq_some h, by simpa using List.find?_some h⟩
  · rintro ⟨hr, rfl⟩
    cases h : t.find? (Keyed.key r : κ) with
    | none =>
        have := List.find?_eq_none.mp h r hr
        simp at this
    | some s =>
        have hs : Keyed.key s = (Keyed.key r : κ) := by simpa using List.find?_some h
        rw [eq_of_key (List.mem_of_find?_eq_some h) hr hs]

theorem find?_key {t : Table ρ} {r : ρ} (hr : r ∈ t) : t.find? (Keyed.key r : κ) = some r :=
  find?_eq_some.mpr ⟨hr, rfl⟩

theorem find?_eq_none {t : Table ρ} {k : κ} :
    t.find? k = none ↔ ∀ r ∈ t, (Keyed.key r : κ) ≠ k := by
  simp only [find?, List.find?_eq_none, decide_eq_true_eq]
  exact Iff.rfl

theorem mem_of_find? {t : Table ρ} {k : κ} {r : ρ} (h : t.find? k = some r) : r ∈ t :=
  (find?_eq_some.mp h).1

theorem key_of_find? {t : Table ρ} {k : κ} {r : ρ} (h : t.find? k = some r) :
    Keyed.key r = k :=
  (find?_eq_some.mp h).2

@[simp] theorem find?_empty (k : κ) : (empty : Table ρ).find? k = none := rfl

end Find

/-! ## Updating the selected rows -/

/-- `UPDATE .. SET f WHERE p`. The update does not write the key. -/
def update (t : Table ρ) (p : ρ → Bool) (f : ρ → ρ)
    (hKey : ∀ r, (Keyed.key (f r) : κ) = Keyed.key r := by intro _; exact Eq.trans rfl rfl) : Table ρ where
  rows := t.rows.map (fun r => if p r then f r else r)
  distinct := by
    have h : (t.rows.map (fun r => if p r then f r else r)).map (Keyed.key : ρ → κ) =
        t.rows.map Keyed.key := by
      rw [List.map_map]
      apply List.map_congr_left
      intro r _
      simp only [Function.comp_apply]
      split
      · exact hKey r
      · rfl
    rw [h]
    exact t.distinct

theorem mem_update {t : Table ρ} {p : ρ → Bool} {f : ρ → ρ}
    {hKey : ∀ r, (Keyed.key (f r) : κ) = Keyed.key r} {r : ρ} :
    r ∈ t.update p f hKey ↔ ∃ s ∈ t, (if p s then f s else s) = r :=
  List.mem_map

/-- An update acts on each row by itself. -/
theorem find?_update [DecidableEq κ] (t : Table ρ) (p : ρ → Bool) (f : ρ → ρ)
    (hKey : ∀ r, (Keyed.key (f r) : κ) = Keyed.key r) (k : κ) :
    (t.update p f hKey).find? k = (t.find? k).map (fun r => if p r then f r else r) := by
  have hKey' : ∀ r, (Keyed.key (if p r then f r else r) : κ) = Keyed.key r := by
    intro r
    split
    · exact hKey r
    · rfl
  simp only [find?, update, List.find?_map, Function.comp_def, hKey']

/-- An update that selects no row changes nothing. -/
theorem update_eq_self {t : Table ρ} {p : ρ → Bool} {f : ρ → ρ}
    {hKey : ∀ r, (Keyed.key (f r) : κ) = Keyed.key r} (h : ∀ r ∈ t, p r = false) :
    t.update p f hKey = t := by
  have hRows : t.rows.map (fun r => if p r then f r else r) = t.rows := by
    conv_rhs => rw [← List.map_id t.rows]
    apply List.map_congr_left
    intro r hr
    rw [h r hr]
    rfl
  cases t
  simpa only [update, Table.mk.injEq] using hRows

/-! ## Deleting the selected rows -/

/-- `DELETE .. WHERE p`. -/
def delete (t : Table ρ) (p : ρ → Bool) : Table ρ where
  rows := t.rows.filter (fun r => !p r)
  distinct := t.distinct.sublist (List.filter_sublist.map _)

theorem mem_delete {t : Table ρ} {p : ρ → Bool} {r : ρ} :
    r ∈ t.delete p ↔ r ∈ t ∧ p r = false := by
  simp only [mem_def, delete, List.mem_filter, Bool.not_eq_true']

/-- Deleting no row changes nothing. -/
theorem delete_eq_self {t : Table ρ} {p : ρ → Bool} (h : ∀ r ∈ t, p r = false) :
    t.delete p = t := by
  have hRows : t.rows.filter (fun r => !p r) = t.rows :=
    List.filter_eq_self.mpr fun r hr => by rw [h r hr]; rfl
  cases t
  simpa only [delete, Table.mk.injEq] using hRows

theorem find?_delete [DecidableEq κ] (t : Table ρ) (p : ρ → Bool) (k : κ) :
    (t.delete p).find? k = (t.find? k).filter (fun r => !p r) := by
  cases h : t.find? k with
  | none =>
      rw [Option.filter_none, find?_eq_none]
      intro r hr
      exact find?_eq_none.mp h r (mem_delete.mp hr).1
  | some r =>
      obtain ⟨hr, hk⟩ := find?_eq_some.mp h
      by_cases hp : p r = true
      · have hNone : (t.delete p).find? k = none := by
          rw [find?_eq_none]
          intro s hs hsk
          obtain ⟨hs, hps⟩ := mem_delete.mp hs
          rw [eq_of_key hs hr (hsk.trans hk.symm), hp] at hps
          cases hps
        rw [hNone, Option.filter_some_neg (by simpa using hp)]
      · have hp' : p r = false := by simpa using hp
        rw [find?_eq_some.mpr ⟨mem_delete.mpr ⟨hr, hp'⟩, hk⟩,
          Option.filter_some_pos (by simpa using hp)]

/-! ## Inserting -/

/-- `INSERT` of a row whose key is free. -/
def insert (t : Table ρ) (r : ρ) (hFree : ∀ s ∈ t, (Keyed.key s : κ) ≠ Keyed.key r) :
    Table ρ where
  rows := t.rows ++ [r]
  distinct := by
    rw [List.map_append, List.map_singleton]
    refine List.Nodup.append t.distinct (List.nodup_singleton _) ?_
    intro k hk hr
    obtain ⟨s, hs, rfl⟩ := List.mem_map.mp hk
    exact hFree s hs (List.mem_singleton.mp hr)

theorem mem_insert {t : Table ρ} {r : ρ}
    (hFree : ∀ s ∈ t, (Keyed.key s : κ) ≠ Keyed.key r) {s : ρ} :
    s ∈ t.insert r hFree ↔ s ∈ t ∨ s = r := by
  rw [mem_def, insert, List.mem_append, List.mem_singleton]
  exact Iff.rfl

section Insert

variable [DecidableEq κ]

theorem find?_insert (t : Table ρ) (r : ρ)
    (hFree : ∀ s ∈ t, (Keyed.key s : κ) ≠ Keyed.key r) (k : κ) :
    (t.insert r hFree).find? k = if (Keyed.key r : κ) = k then some r else t.find? k := by
  split
  · rename_i hk
    exact find?_eq_some.mpr ⟨(mem_insert hFree).mpr (Or.inr rfl), hk⟩
  · rename_i hk
    cases hf : t.find? k with
    | none =>
        rw [find?_eq_none]
        intro s hs
        rcases (mem_insert hFree).mp hs with hs | rfl
        · exact find?_eq_none.mp hf s hs
        · exact hk
    | some s =>
        obtain ⟨hs, hsk⟩ := find?_eq_some.mp hf
        exact find?_eq_some.mpr ⟨(mem_insert hFree).mpr (Or.inl hs), hsk⟩

/-- `INSERT`: refused when the key is taken. -/
def insert? (t : Table ρ) (r : ρ) : Option (Table ρ) :=
  if h : t.find? (Keyed.key r : κ) = none then some (t.insert r (find?_eq_none.mp h)) else none

theorem insert?_eq_some {t t' : Table ρ} {r : ρ} :
    t.insert? r = some t' ↔
      ∃ h : t.find? (Keyed.key r : κ) = none, t.insert r (find?_eq_none.mp h) = t' := by
  unfold insert?
  split
  · rename_i h
    simp [h]
  · rename_i h
    simp [h]

/-- `INSERT .. ON CONFLICT DO UPDATE SET f`: the row itself when its key is free, and `f` of
the row that has the key otherwise. -/
def upsert (t : Table ρ) (r : ρ) (f : ρ → ρ)
    (hKey : ∀ s, (Keyed.key (f s) : κ) = Keyed.key s := by intro _; exact Eq.trans rfl rfl) :
    Table ρ :=
  if h : t.find? (Keyed.key r : κ) = none then t.insert r (find?_eq_none.mp h)
  else t.update (fun s => (Keyed.key s : κ) = Keyed.key r) f hKey

theorem find?_upsert (t : Table ρ) (r : ρ) (f : ρ → ρ)
    (hKey : ∀ s, (Keyed.key (f s) : κ) = Keyed.key s) (k : κ) :
    (t.upsert r f hKey).find? k =
      if (Keyed.key r : κ) = k then some ((t.find? (Keyed.key r : κ)).elim r f)
      else t.find? k := by
  unfold upsert
  split
  · rename_i hFree
    rw [find?_insert, hFree, Option.elim_none]
  · rename_i hTaken
    obtain ⟨s, hs⟩ := Option.ne_none_iff_exists'.mp hTaken
    rw [find?_update, hs, Option.elim_some]
    split
    · rename_i hk
      rw [← hk, hs, Option.map_some, if_pos (decide_eq_true (key_of_find? hs))]
    · rename_i hk
      cases hf : t.find? k with
      | none => rfl
      | some u =>
          have hu : (Keyed.key u : κ) ≠ Keyed.key r := fun h =>
            hk (h.symm.trans (key_of_find? hf))
          rw [Option.map_some, if_neg (by simpa using hu)]

end Insert

/-! ## Counting -/

theorem count_eq_zero {t : Table ρ} {p : ρ → Bool} :
    t.count p = 0 ↔ ∀ r ∈ t, p r = false := by
  simp only [count, List.countP_eq_zero, Bool.not_eq_true]
  exact Iff.rfl

/-- There are no more rows than keys they may have. -/
theorem count_le_of_keys {t : Table ρ} {p : ρ → Bool} {keys : List κ}
    (h : ∀ r ∈ t, p r = true → Keyed.key r ∈ keys) : t.count p ≤ keys.length := by
  have hNodup : ((t.rows.filter p).map (Keyed.key : ρ → κ)).Nodup :=
    t.distinct.sublist (List.filter_sublist.map _)
  have hSubset : (t.rows.filter p).map (Keyed.key : ρ → κ) ⊆ keys := by
    intro k hk
    obtain ⟨r, hr, rfl⟩ := List.mem_map.mp hk
    obtain ⟨hr, hp⟩ := List.mem_filter.mp hr
    exact h r hr hp
  have hLength := (hNodup.subperm hSubset).length_le
  rwa [List.length_map, ← List.countP_eq_length_filter] at hLength

/-- There are no more selected rows than the rows they come from. -/
theorem count_le_of_origin {t t' : Table ρ} {p q : ρ → Bool}
    (h : ∀ r ∈ t', p r = true → ∃ s ∈ t, q s = true ∧ (Keyed.key s : κ) = Keyed.key r) :
    t'.count p ≤ t.count q := by
  have hKeys : ∀ r ∈ t', p r = true → Keyed.key r ∈ (t.rows.filter q).map (Keyed.key : ρ → κ) := by
    intro r hr hp
    obtain ⟨s, hs, hq, hKey⟩ := h r hr hp
    exact List.mem_map.mpr ⟨s, List.mem_filter.mpr ⟨hs, hq⟩, hKey⟩
  have hCount := count_le_of_keys hKeys
  rwa [List.length_map, ← List.countP_eq_length_filter] at hCount

theorem count_pos {t : Table ρ} {p : ρ → Bool} {r : ρ} (hr : r ∈ t) (hp : p r = true) :
    0 < t.count p :=
  List.countP_pos_iff.mpr ⟨r, hr, hp⟩

/-- A predicate that fixes the key selects at most one row. -/
theorem count_of_key [DecidableEq κ] {t : Table ρ} {p : ρ → Bool} {k : κ}
    (hp : ∀ r ∈ t, p r = true → Keyed.key r = k) :
    t.count p = if (t.find? k).any p then 1 else 0 := by
  have hCount : t.count p ≤ 1 := by
    have hSub : (t.rows.filter p).map (Keyed.key : ρ → κ) = List.replicate
        (t.rows.filter p).length k := by
      rw [List.eq_replicate_iff]
      refine ⟨by simp, ?_⟩
      intro x hx
      obtain ⟨r, hr, rfl⟩ := List.mem_map.mp hx
      exact hp r (List.mem_of_mem_filter hr) (List.mem_filter.mp hr).2
    have hNodup : ((t.rows.filter p).map (Keyed.key : ρ → κ)).Nodup :=
      t.distinct.sublist (List.filter_sublist.map _)
    rw [hSub, List.nodup_replicate] at hNodup
    rw [count, List.countP_eq_length_filter]
    exact hNodup
  by_cases hAny : (t.find? k).any p = true
  · rw [if_pos hAny]
    have hNe : t.count p ≠ 0 := by
      intro h0
      obtain ⟨r, hr, hpr⟩ := (Option.any_eq_true _ _).mp hAny
      have := count_eq_zero.mp h0 r (mem_of_find? hr)
      rw [this] at hpr
      cases hpr
    omega
  · rw [if_neg hAny]
    rw [count_eq_zero]
    intro r hr
    by_contra hpr
    rw [Bool.not_eq_false] at hpr
    apply hAny
    rw [(find?_eq_some.mpr ⟨hr, hp r hr hpr⟩ : t.find? k = some r)]
    exact hpr

end Table
