import Mathlib.Logic.Function.Basic
import SavedOrganizer.Library.RowLock

/-!
# A table under READ COMMITTED

The rows of a table under their keys, each a `LockedRow`. A statement goes over all of them in
one step, and does not take place (`none`) while another transaction has a row that it needs.

What a transaction sees of a table is the committed version of each row and its own version
of the rows it has locked (`Seen`). A statement changes only what its own transaction sees,
and there only its own versions (`Seen.write`, `Seen.insert`). When a transaction commits, its
view becomes what is committed, and the others keep their own versions (`Seen.after`). No two
transactions have a version of the same row (`exclusive`).
-/

universe u v w

/-- The versions of the rows a transaction can tell. -/
structure Seen (κ : Type v) (ρ : Type w) where
  committed : κ → Option ρ
  own : κ → Option (Option ρ)

namespace Seen

variable {κ : Type v} {ρ : Type w} {s : Seen κ ρ} {k : κ} {r : ρ} {p : κ → ρ → Bool}
  {f : ρ → Option ρ}

/-- What the transaction reads. -/
def view (s : Seen κ ρ) (k : κ) : Option ρ := (s.own k).getD (s.committed k)

/-- The transaction has no lock in this table. -/
def Unlocked (s : Seen κ ρ) : Prop := ∀ k, s.own k = none

/-- The rows that match get a new version. -/
def write (s : Seen κ ρ) (p : κ → ρ → Bool) (f : ρ → Option ρ) : Seen κ ρ :=
  { s with own := fun k =>
      match (s.view k).filter (p k) with
      | none => s.own k
      | some r => some (f r) }

def insert [DecidableEq κ] (s : Seen κ ρ) (k : κ) (r : ρ) : Seen κ ρ :=
  { s with own := Function.update s.own k (some (some r)) }

/-- After its commit. -/
def commit (s : Seen κ ρ) : Seen κ ρ := ⟨s.view, fun _ => none⟩

def rollback (s : Seen κ ρ) : Seen κ ρ := ⟨s.committed, fun _ => none⟩

/-- After the commit of the transaction that sees `other`. -/
def after (s other : Seen κ ρ) : Seen κ ρ := ⟨other.view, s.own⟩

theorem view_of_own {own : Option ρ} (h : s.own k = some own) : s.view k = own := by
  rw [view, h, Option.getD_some]

theorem view_of_none (h : s.own k = none) : s.view k = s.committed k := by
  rw [view, h, Option.getD_none]

theorem Unlocked.view (h : s.Unlocked) : s.view k = s.committed k := view_of_none (h k)

theorem own_write_of_match (h : s.view k = some r) (hp : p k r = true) :
    (s.write p f).own k = some (f r) := by
  simp only [write, h, Option.filter_some, if_pos hp]

/-- A row that matches is locked. -/
theorem own_write_ne_none_of_match (h : s.view k = some r) (hp : p k r = true) :
    (s.write p f).own k ≠ none := by
  rw [own_write_of_match h hp]
  exact Option.some_ne_none _

theorem own_write_of_ne (h : ∀ r, s.view k = some r → p k r = false) :
    (s.write p f).own k = s.own k := by
  have hNone : (s.view k).filter (p k) = none := by
    rw [Option.filter_eq_none_iff]
    intro r hr
    rw [h r hr]
    exact Bool.false_ne_true
  simp only [write, hNone]

/-- A version is as it was, or what a matching row has become. -/
theorem own_write_eq_some {own : Option ρ} (h : (s.write p f).own k = some own) :
    s.own k = some own ∨ ∃ r, s.view k = some r ∧ p k r = true ∧ own = f r := by
  cases hMatch : (s.view k).filter (p k) with
  | none =>
      simp only [write, hMatch] at h
      exact Or.inl h
  | some r =>
      simp only [write, hMatch, Option.some.injEq] at h
      obtain ⟨hView, hp⟩ := Option.filter_eq_some_iff.mp hMatch
      exact Or.inr ⟨r, hView, hp, h.symm⟩

theorem own_write_ne_none (h : s.own k ≠ none) : (s.write p f).own k ≠ none := by
  simp only [write]
  split
  · exact h
  · exact Option.some_ne_none _

/-- A row reads as it did, or as what a matching row has become. -/
theorem view_write_eq_some (h : (s.write p f).view k = some r) :
    (s.view k = some r ∧ p k r = false) ∨
      ∃ q, s.view k = some q ∧ p k q = true ∧ f q = some r := by
  cases hView : s.view k with
  | none =>
      have hOwn : (s.write p f).own k = s.own k := own_write_of_ne fun q hq => by
        rw [hView] at hq
        cases hq
      rw [view, hOwn] at h
      exact absurd (h.symm.trans hView) (Option.some_ne_none r)
  | some q =>
      cases hp : p k q with
      | true =>
          rw [view_of_own (own_write_of_match hView hp)] at h
          exact Or.inr ⟨q, rfl, hp, h⟩
      | false =>
          have hOwn : (s.write p f).own k = s.own k := own_write_of_ne fun q' hq' => by
            obtain rfl := Option.some.inj (hView.symm.trans hq')
            exact hp
          rw [view, hOwn] at h
          obtain rfl := Option.some.inj (hView.symm.trans h)
          exact Or.inl ⟨rfl, hp⟩

/-- An `UPDATE` rewrites the rows that match. -/
theorem view_update {s : Seen κ ρ} {p : κ → ρ → Bool} {f : ρ → ρ} {k : κ} :
    (s.write p fun r => some (f r)).view k = (s.view k).map fun r => if p k r then f r else r := by
  cases hView : s.view k with
  | none =>
      rw [Seen.view, own_write_of_ne fun r hr => absurd (hView.symm.trans hr) nofun]
      exact hView
  | some r =>
      by_cases hp : p k r = true
      · rw [view_of_own (own_write_of_match hView hp), Option.map_some, if_pos hp]
      · rw [Option.map_some, if_neg hp, ← hView, Seen.view, own_write_of_ne fun q hq => ?_]
        · rfl
        · obtain rfl := Option.some.inj (hView.symm.trans hq)
          exact (Bool.not_eq_true _).mp hp

theorem view_insert [DecidableEq κ] {k' : κ} :
    (s.insert k r).view k' = if k' = k then some r else s.view k' := by
  unfold view insert
  dsimp only
  rw [Function.update_apply]
  split <;> rfl

/-- A commit beside it changes no row that the transaction has locked. -/
theorem committed_after {other : Seen κ ρ} (hSame : s.committed = other.committed)
    (hLocked : ∀ k, other.own k ≠ none → s.own k = none) (h : s.own k ≠ none) :
    (s.after other).committed k = s.committed k := by
  have hOther : other.own k = none := by
    by_contra hOwn
    exact h (hLocked k hOwn)
  exact (view_of_none hOther).trans (congrFun hSame.symm k)

end Seen

namespace LockedRow

variable {τ : Type u} {ρ : Type v}

/-- A row that is not there. -/
def absent : LockedRow τ ρ := ⟨none, none⟩

variable [DecidableEq τ] {row row' : LockedRow τ ρ} {t t' : τ}
  {version : Option ρ} {r : ρ} {p : ρ → Bool} {f : ρ → Option ρ}

/-- The version of the transaction, if it has the lock. -/
def own (row : LockedRow τ ρ) (t : τ) : Option (Option ρ) :=
  (row.lock.filter fun l => l.1 = t).map Prod.snd

/-- `UPDATE`, `DELETE` and `SELECT .. FOR UPDATE`, by the version they write. -/
def rewrite (row : LockedRow τ ρ) (t : τ) (p : ρ → Bool) (f : ρ → Option ρ) :
    Option (LockedRow τ ρ) :=
  match (row.view t).filter p with
  | none => some row
  | some r => (row.acquire t).map fun row => row.write t (f r)

theorem own_eq_some : row.own t = some version ↔ row.Held t version := by
  unfold LockedRow.own Held
  rw [Option.map_eq_some_iff]
  constructor
  · rintro ⟨⟨holder, own⟩, hFilter, rfl⟩
    obtain ⟨hLock, hHolder⟩ := Option.filter_eq_some_iff.mp hFilter
    obtain rfl : holder = t := of_decide_eq_true hHolder
    exact hLock
  · intro hLock
    exact ⟨(t, version), Option.filter_eq_some_iff.mpr ⟨hLock, decide_eq_true rfl⟩, rfl⟩

theorem own_eq_none : row.own t = none ↔ row.HasNoLock t := by
  rw [Option.eq_none_iff_forall_ne_some]
  exact forall_congr' fun _ => not_congr own_eq_some

theorem view_eq : row.view t = (row.own t).getD row.committed := by
  cases hOwn : row.own t with
  | none => exact (own_eq_none.mp hOwn).view
  | some own => exact (own_eq_some.mp hOwn).view

theorem own_of_locked {holder : τ} (h : row.Held holder version) (hNe : t ≠ holder) :
    row.own t = none :=
  own_eq_none.mpr fun _ hHeld => hNe (hHeld.unique h).1

/-- A statement that has the lock: its transaction has a new version, the others none. -/
theorem own_of_acquire (h : row.acquire t = some row') (value : Option ρ) :
    (row'.write t value).committed = row.committed ∧
      (row'.write t value).own t = some value ∧
        ∀ t' ≠ t, (row'.write t value).own t' = row.own t' := by
  obtain ⟨hCommitted, -, hFree⟩ := acquire_eq_some h
  have hHeld : (row'.write t value).Held t value := rfl
  refine ⟨hCommitted, own_eq_some.mpr hHeld, fun t' hNe => ?_⟩
  rw [own_of_locked hHeld hNe]
  rcases hFree with hNone | ⟨own, hOwn⟩
  · rw [LockedRow.own, hNone]
    rfl
  · exact (own_of_locked hOwn hNe).symm

theorem rewrite_eq_some (h : row.rewrite t p f = some row') :
    row'.committed = row.committed ∧
      (row'.own t = match (row.view t).filter p with
        | none => row.own t
        | some r => some (f r)) ∧
        ∀ t' ≠ t, row'.own t' = row.own t' := by
  unfold rewrite at h
  cases hMatch : (row.view t).filter p with
  | none =>
      rw [hMatch] at h
      obtain rfl := Option.some.inj h
      exact ⟨rfl, rfl, fun _ _ => rfl⟩
  | some r =>
      rw [hMatch] at h
      obtain ⟨locked, hLocked, rfl⟩ := Option.map_eq_some_iff.mp h
      exact own_of_acquire hLocked (f r)

theorem own_commit : (row.commit t).own t = none := own_eq_none.mpr hasNoLock_commit

theorem own_rollback : (row.rollback t).own t = none := own_eq_none.mpr hasNoLock_rollback

theorem committed_commit : (row.commit t).committed = row.view t := by
  unfold commit LockedRow.view
  split
  · split <;> rfl
  · rfl

theorem own_commit_of_ne (hNe : t' ≠ t) : (row.commit t).own t' = row.own t' := by
  cases hOwn : row.own t with
  | none => rw [(own_eq_none.mp hOwn).commit]
  | some own =>
      rw [own_of_locked (own_eq_some.mp hOwn) hNe, (own_eq_some.mp hOwn).commit]
      rfl

theorem own_rollback_of_ne (hNe : t' ≠ t) : (row.rollback t).own t' = row.own t' := by
  cases hOwn : row.own t with
  | none => rw [(own_eq_none.mp hOwn).rollback]
  | some own =>
      rw [own_of_locked (own_eq_some.mp hOwn) hNe, (own_eq_some.mp hOwn).rollback]
      rfl

end LockedRow

/-- The rows under their keys. -/
structure LockedTable (τ : Type u) (κ : Type v) (ρ : Type w) where
  rows : List (κ × LockedRow τ ρ)

namespace LockedTable

variable {τ : Type u} {κ : Type v} {ρ : Type w}

/-- The rows of a database in which nothing goes on. -/
def ofList (rows : List (κ × ρ)) : LockedTable τ κ ρ := ⟨rows.map fun (k, r) => (k, ⟨some r, none⟩)⟩

variable [DecidableEq κ]

def row (table : LockedTable τ κ ρ) (k : κ) : LockedRow τ ρ :=
  (table.rows.lookup k).getD .absent

section Rows

variable {table : LockedTable τ κ ρ} {k k' : κ}

theorem row_map (g : LockedRow τ ρ → LockedRow τ ρ) (hAbsent : g .absent = .absent) :
    row ⟨table.rows.map fun (k, row) => (k, g row)⟩ k = g (table.row k) := by
  unfold row
  dsimp only
  induction table.rows with
  | nil => exact hAbsent.symm
  | cons entry rows ih =>
      obtain ⟨k', first⟩ := entry
      rw [List.map_cons, List.lookup_cons, List.lookup_cons]
      cases k == k' with
      | true => rfl
      | false => exact ih

theorem row_ofList {rows : List (κ × ρ)} :
    (ofList rows : LockedTable τ κ ρ).row k = ⟨rows.lookup k, none⟩ := by
  unfold row ofList
  dsimp only
  induction rows with
  | nil => rfl
  | cons entry rows ih =>
      obtain ⟨k', r⟩ := entry
      rw [List.map_cons, List.lookup_cons, List.lookup_cons]
      cases k == k' with
      | true => rfl
      | false => exact ih

theorem row_cons_filter {row : LockedRow τ ρ} :
    LockedTable.row ⟨(k, row) :: table.rows.filter fun entry => entry.1 ≠ k⟩ k' =
      if k' = k then row else table.row k' := by
  unfold LockedTable.row
  dsimp only
  rw [List.lookup_cons]
  by_cases hKey : k' = k
  · rw [if_pos hKey, beq_iff_eq.mpr hKey]
    rfl
  · rw [if_neg hKey, beq_false_of_ne hKey]
    dsimp only
    congr 1
    induction table.rows with
    | nil => rfl
    | cons entry rows ih =>
        obtain ⟨k'', first⟩ := entry
        rw [List.lookup_cons, List.filter_cons]
        by_cases hHead : k'' = k
        · have hNe : (k' == k'') = false := beq_false_of_ne (hHead ▸ hKey)
          rw [if_neg (by simpa using hHead), hNe]
          exact ih
        · rw [if_pos (by simpa using hHead), List.lookup_cons]
          cases k' == k'' with
          | true => rfl
          | false => exact ih

end Rows

variable [DecidableEq τ]

/-- What the transaction sees. -/
def seenBy (table : LockedTable τ κ ρ) (t : τ) : Seen κ ρ :=
  ⟨fun k => (table.row k).committed, fun k => (table.row k).own t⟩

theorem own_ofList {rows : List (κ × ρ)} {t : τ} {k : κ} :
    ((ofList rows : LockedTable τ κ ρ).seenBy t).own k = none := by
  unfold seenBy
  dsimp only
  rw [row_ofList]
  rfl

/-! ## The statements -/

/-- The rows a `SELECT` returns, in the order of the table. -/
def select (table : LockedTable τ κ ρ) (t : τ) (p : κ → ρ → Bool) : List (κ × ρ) :=
  table.rows.filterMap fun (k, _) => ((table.row k).view t).bind fun r =>
    if p k r then some (k, r) else none

def rewriteRows (t : τ) (p : κ → ρ → Bool) (f : ρ → Option ρ) :
    List (κ × LockedRow τ ρ) → Option (List (κ × LockedRow τ ρ))
  | [] => some []
  | (k, row) :: rows => (row.rewrite t (p k) f).bind fun row =>
      (rewriteRows t p f rows).map ((k, row) :: ·)

def rewrite (table : LockedTable τ κ ρ) (t : τ) (p : κ → ρ → Bool) (f : ρ → Option ρ) :
    Option (LockedTable τ κ ρ) :=
  (rewriteRows t p f table.rows).map .mk

/-- `UPDATE .. SET f WHERE p`. -/
def update (table : LockedTable τ κ ρ) (t : τ) (p : κ → ρ → Bool) (f : ρ → ρ) :
    Option (LockedTable τ κ ρ) :=
  table.rewrite t p fun r => some (f r)

/-- `DELETE .. WHERE p`. -/
def delete (table : LockedTable τ κ ρ) (t : τ) (p : κ → ρ → Bool) : Option (LockedTable τ κ ρ) :=
  table.rewrite t p fun _ => none

/-- `SELECT .. WHERE p FOR UPDATE`. -/
def selectForUpdate (table : LockedTable τ κ ρ) (t : τ) (p : κ → ρ → Bool) :
    Option (LockedTable τ κ ρ) :=
  table.rewrite t p some

/-- `INSERT`: the second `none` is a taken key. -/
def insert (table : LockedTable τ κ ρ) (t : τ) (k : κ) (r : ρ) :
    Option (Option (LockedTable τ κ ρ)) :=
  ((table.row k).insert t r).map fun result => result.map fun row =>
    ⟨(k, row) :: table.rows.filter fun entry => entry.1 ≠ k⟩

def commit (table : LockedTable τ κ ρ) (t : τ) : LockedTable τ κ ρ :=
  ⟨table.rows.map fun (k, row) => (k, row.commit t)⟩

def rollback (table : LockedTable τ κ ρ) (t : τ) : LockedTable τ κ ρ :=
  ⟨table.rows.map fun (k, row) => (k, row.rollback t)⟩

/-! ## What they do to what is seen -/

variable {table table' : LockedTable τ κ ρ} {t t' : τ} {k k' : κ} {r : ρ} {p : κ → ρ → Bool}
  {f : ρ → Option ρ}

theorem seenBy_view : (table.seenBy t).view k = (table.row k).view t :=
  LockedRow.view_eq.symm

/-- Two transactions have no version of the same row. -/
theorem exclusive (hNe : t' ≠ t) (h : (table.seenBy t).own k ≠ none) :
    (table.seenBy t').own k = none := by
  obtain ⟨own, hOwn⟩ := Option.ne_none_iff_exists'.mp h
  exact LockedRow.own_of_locked (LockedRow.own_eq_some.mp hOwn) hNe

/-- A key without an entry has no row. -/
theorem mem_keys_of_view (h : (table.seenBy t).view k = some r) :
    ∃ row, (k, row) ∈ table.rows := by
  rw [seenBy_view] at h
  cases hLookup : table.rows.lookup k with
  | none =>
      rw [row, hLookup] at h
      cases h
  | some row =>
      obtain ⟨front, back, hRows, -⟩ := List.lookup_eq_some_iff.mp hLookup
      exact ⟨row, hRows ▸ List.mem_append_right _ List.mem_cons_self⟩

theorem mem_select : (k, r) ∈ table.select t p ↔
    (table.seenBy t).view k = some r ∧ p k r = true := by
  constructor
  · intro h
    obtain ⟨⟨k', row⟩, -, hFound⟩ := List.mem_filterMap.mp h
    obtain ⟨r', hView, hMatch⟩ := Option.bind_eq_some_iff.mp hFound
    split at hMatch
    · rename_i hp
      cases hMatch
      exact ⟨seenBy_view.trans hView, hp⟩
    · cases hMatch
  · rintro ⟨hView, hp⟩
    obtain ⟨row, hMem⟩ := mem_keys_of_view hView
    refine List.mem_filterMap.mpr ⟨(k, row), hMem, ?_⟩
    dsimp only
    rw [← seenBy_view, hView, Option.bind_some, if_pos hp]

theorem row_rewrite (h : table.rewrite t p f = some table') (k : κ) :
    (table.row k).rewrite t (p k) f = some (table'.row k) := by
  obtain ⟨rows, hRows, rfl⟩ := Option.map_eq_some_iff.mp h
  unfold row
  dsimp only
  clear h
  generalize table.rows = before at hRows
  induction before generalizing rows with
  | nil =>
      cases hRows
      rfl
  | cons entry before ih =>
      obtain ⟨k', first⟩ := entry
      obtain ⟨first', hFirst, hTail⟩ := Option.bind_eq_some_iff.mp hRows
      obtain ⟨rest', hRest, rfl⟩ := Option.map_eq_some_iff.mp hTail
      rw [List.lookup_cons, List.lookup_cons]
      cases hKey : k == k' with
      | true =>
          obtain rfl := eq_of_beq hKey
          exact hFirst
      | false => exact ih rest' hRest

theorem seenBy_rewrite (h : table.rewrite t p f = some table') :
    table'.seenBy t = (table.seenBy t).write p f := by
  have hRow (k : κ) := LockedRow.rewrite_eq_some (row_rewrite h k)
  refine congrArg₂ Seen.mk (funext fun k => (hRow k).1) (funext fun k => ?_)
  rw [seenBy_view]
  exact (hRow k).2.1

theorem seenBy_rewrite_of_ne (h : table.rewrite t p f = some table') (hNe : t' ≠ t) :
    table'.seenBy t' = table.seenBy t' := by
  have hRow (k : κ) := LockedRow.rewrite_eq_some (row_rewrite h k)
  exact congrArg₂ Seen.mk (funext fun k => (hRow k).1) (funext fun k => (hRow k).2.2 t' hNe)

theorem insert_eq_some (h : table.insert t k r = some (some table')) :
    (table.seenBy t).view k = none ∧ table'.seenBy t = (table.seenBy t).insert k r ∧
      ∀ t' ≠ t, table'.seenBy t' = table.seenBy t' := by
  obtain ⟨result, hResult, hSome⟩ := Option.map_eq_some_iff.mp h
  obtain ⟨row, rfl, hTable⟩ := Option.map_eq_some_iff.mp hSome
  obtain ⟨locked, hLocked, ⟨hNone, -⟩ | ⟨hView, hRow⟩⟩ := LockedRow.insert_eq_some hResult
  · cases hNone
  · obtain rfl := Option.some.inj hRow
    obtain ⟨hCommitted, hOwn, hOthers⟩ := LockedRow.own_of_acquire hLocked (some r)
    have hRows (k' : κ) :
        table'.row k' = if k' = k then locked.write t (some r) else table.row k' := by
      rw [← hTable]
      exact row_cons_filter
    have hSame (k' : κ) : (table'.row k').committed = (table.row k').committed := by
      rw [hRows]
      split
      · rename_i hKey
        rw [hKey]
        exact hCommitted
      · rfl
    refine ⟨?_, ?_, fun t' hNe => ?_⟩
    · rw [seenBy_view, ← (LockedRow.acquire_eq_some hLocked).2.1.view]
      exact hView
    · refine congrArg₂ Seen.mk (funext hSame) (funext fun k' => ?_)
      rw [hRows, Function.update_apply]
      split
      · exact hOwn
      · rfl
    · refine congrArg₂ Seen.mk (funext hSame) (funext fun k' => ?_)
      rw [hRows]
      split
      · rename_i hKey
        rw [hKey]
        exact hOthers t' hNe
      · rfl

theorem row_commit : (table.commit t).row k = (table.row k).commit t :=
  row_map (fun row => row.commit t) rfl

theorem row_rollback : (table.rollback t).row k = (table.row k).rollback t :=
  row_map (fun row => row.rollback t) rfl

theorem seenBy_commit : (table.commit t).seenBy t = (table.seenBy t).commit := by
  refine congrArg₂ Seen.mk (funext fun k => ?_) (funext fun k => ?_)
  · rw [row_commit, LockedRow.committed_commit, seenBy_view]
  · rw [row_commit]
    exact LockedRow.own_commit

theorem seenBy_commit_of_ne (hNe : t' ≠ t) :
    (table.commit t).seenBy t' = (table.seenBy t').after (table.seenBy t) := by
  refine congrArg₂ Seen.mk (funext fun k => ?_) (funext fun k => ?_)
  · rw [row_commit, LockedRow.committed_commit, seenBy_view]
  · rw [row_commit]
    exact LockedRow.own_commit_of_ne hNe

theorem seenBy_rollback : (table.rollback t).seenBy t = (table.seenBy t).rollback := by
  refine congrArg₂ Seen.mk (funext fun k => ?_) (funext fun k => ?_)
  · rw [row_rollback]
    exact LockedRow.rollback_committed
  · rw [row_rollback]
    exact LockedRow.own_rollback

theorem seenBy_rollback_of_ne (hNe : t' ≠ t) : (table.rollback t).seenBy t' = table.seenBy t' := by
  refine congrArg₂ Seen.mk (funext fun k => ?_) (funext fun k => ?_)
  · rw [row_rollback]
    exact LockedRow.rollback_committed
  · rw [row_rollback]
    exact LockedRow.own_rollback_of_ne hNe

/-! ## Without locks -/

/-- Nobody has a lock. -/
def Free (table : LockedTable τ κ ρ) : Prop := ∀ entry ∈ table.rows, entry.2.lock = none

theorem Free.unlocked (h : table.Free) : (table.seenBy t).Unlocked := by
  intro k
  have hLock : (table.row k).lock = none := by
    unfold row
    cases hLookup : table.rows.lookup k with
    | none => rfl
    | some row =>
        obtain ⟨front, back, hRows, -⟩ := List.lookup_eq_some_iff.mp hLookup
        exact h (k, row) (hRows ▸ List.mem_append_right _ List.mem_cons_self)
  show LockedRow.own _ t = none
  rw [LockedRow.own, hLock]
  rfl

omit [DecidableEq κ] in
/-- A statement has nothing to wait for when nobody has a lock. -/
theorem Free.rewrite (h : table.Free) (p : κ → ρ → Bool) (f : ρ → Option ρ) :
    ∃ table', table.rewrite t p f = some table' := by
  suffices hRows : ∃ rows, rewriteRows t p f table.rows = some rows by
    obtain ⟨rows, hRows⟩ := hRows
    exact ⟨⟨rows⟩, by rw [LockedTable.rewrite, hRows, Option.map_some]⟩
  obtain ⟨rows⟩ := table
  dsimp only
  induction rows with
  | nil => exact ⟨[], rfl⟩
  | cons entry rows ih =>
      obtain ⟨k, row⟩ := entry
      have hFree : row.lock = none := h (k, row) List.mem_cons_self
      obtain ⟨rows', hRows⟩ := ih fun entry hEntry => h entry (List.mem_cons_of_mem _ hEntry)
      have hRow : ∃ row', row.rewrite t (p k) f = some row' := by
        unfold LockedRow.rewrite LockedRow.acquire
        rw [hFree]
        split
        · exact ⟨_, rfl⟩
        · exact ⟨_, rfl⟩
      obtain ⟨row', hRow⟩ := hRow
      exact ⟨(k, row') :: rows', by rw [rewriteRows, hRow, Option.bind_some, hRows, Option.map_some]⟩

end LockedTable
