import Mathlib.Data.Option.Basic

/-!
# A row under READ COMMITTED

One row of a table as the statements of concurrent transactions see it. The row has a
committed version, and while a transaction has it locked it has that transaction's version
too; `none` as a version means that the row is not there. Every statement is one step. It
reads the transaction's own version, or else the committed one. `FOR UPDATE`, `UPDATE` and
`INSERT` need the lock: they do not take place (`none`) while another transaction has it.
The lock ends with its transaction.

Only the end of the transaction that has the lock changes what the others see
(`Moves.committed`), and while it has the lock nobody else changes anything
(`StepBy.of_held`).
-/

universe u v

/-- The committed version, and the transaction that has the lock with its own version. -/
structure LockedRow (τ : Type u) (ρ : Type v) where
  committed : Option ρ
  lock : Option (τ × Option ρ)

namespace LockedRow

variable {τ : Type u} {ρ : Type v}

/-- The transaction has the lock, and this is its version. -/
def Held (row : LockedRow τ ρ) (t : τ) (own : Option ρ) : Prop := row.lock = some (t, own)

theorem Held.unique {row : LockedRow τ ρ} {t t' : τ} {own own' : Option ρ} (h : row.Held t own)
    (h' : row.Held t' own') : t = t' ∧ own = own' :=
  Prod.mk.inj (Option.some.inj (h.symm.trans h'))

def HasNoLock (row : LockedRow τ ρ) (t : τ) : Prop := ∀ own, ¬ row.Held t own

theorem held_or_hasNoLock (t : τ) (row : LockedRow τ ρ) :
    (∃ own, row.Held t own) ∨ row.HasNoLock t := by
  by_cases hHeld : ∃ own, row.Held t own
  · exact Or.inl hHeld
  · exact Or.inr fun own hLock => hHeld ⟨own, hLock⟩

/-- Another transaction has the lock, if there is one. -/
theorem HasNoLock.holder_ne {row : LockedRow τ ρ} {t holder : τ} {own : Option ρ}
    (h : row.HasNoLock t) (hLock : row.lock = some (holder, own)) : holder ≠ t := by
  rintro rfl
  exact h own hLock

/-- A step of the transaction `t` on the row: nobody else has the lock, and if anything is
committed it is the version of `t`. -/
structure Moves (t : τ) (row row' : LockedRow τ ρ) : Prop where
  free : row.lock = none ∨ ∃ own, row.Held t own
  free' : row'.lock = none ∨ ∃ own, row'.Held t own
  committed : row'.committed = row.committed ∨ row.Held t row'.committed

/-- The row stays as it is, or `t` does something to it. -/
def StepBy (t : τ) (row row' : LockedRow τ ρ) : Prop := row' = row ∨ Moves t row row'

/-- While another transaction has the lock the row stays as it is. -/
theorem StepBy.of_held {row row' : LockedRow τ ρ} {t t' : τ} {own : Option ρ}
    (h : StepBy t row row') (hHeld : row.Held t' own) (hNe : t' ≠ t) :
    row' = row := by
  rcases h with rfl | h
  · rfl
  · rcases h.free with hFree | ⟨own', hOwn⟩
    · rw [show row.lock = some (t', own) from hHeld] at hFree
      cases hFree
    · exact absurd (hHeld.unique hOwn).1 hNe

theorem StepBy.hasNoLock {row row' : LockedRow τ ρ} {t t' : τ} (h : StepBy t row row')
    (hFree : row.HasNoLock t') (hNe : t' ≠ t) : row'.HasNoLock t' := by
  rcases h with rfl | h
  · exact hFree
  · intro own hHeld
    rcases h.free' with hNone | ⟨own', hOwn⟩
    · rw [show row'.lock = some (t', own) from hHeld] at hNone
      cases hNone
    · exact hNe (hHeld.unique hOwn).1

/-! ## The statements -/

variable [DecidableEq τ]

/-- The version a transaction reads. -/
def view (row : LockedRow τ ρ) (t : τ) : Option ρ :=
  match row.lock with
  | some (holder, own) => if holder = t then own else row.committed
  | none => row.committed

/-- The transaction takes the lock, unless another has it. -/
def acquire (row : LockedRow τ ρ) (t : τ) : Option (LockedRow τ ρ) :=
  match row.lock with
  | some (holder, _) => if holder = t then some row else none
  | none => some { row with lock := some (t, row.committed) }

/-- `SELECT .. WHERE p FOR UPDATE`, and the row it finds. A row that does not match is not
waited for. -/
def selectForUpdate (row : LockedRow τ ρ) (t : τ) (p : ρ → Bool) :
    Option (LockedRow τ ρ × Option ρ) :=
  match (row.view t).filter p with
  | none => some (row, none)
  | some r => (row.acquire t).map fun row => (row, some r)

/-- The transaction's version becomes another one. -/
def write (row : LockedRow τ ρ) (t : τ) (value : Option ρ) : LockedRow τ ρ :=
  { row with lock := some (t, value) }

/-- `UPDATE .. SET f WHERE p`, and whether it has matched. -/
def update (row : LockedRow τ ρ) (t : τ) (p : ρ → Bool) (f : ρ → ρ) :
    Option (LockedRow τ ρ × Bool) :=
  match (row.view t).filter p with
  | none => some (row, false)
  | some r => (row.acquire t).map fun row => (row.write t (some (f r)), true)

/-- `INSERT`: the second `none` is a violated constraint. -/
def insert (row : LockedRow τ ρ) (t : τ) (r : ρ) : Option (Option (LockedRow τ ρ)) :=
  (row.acquire t).map fun row =>
    match row.view t with
    | some _ => none
    | none => some (row.write t (some r))

def commit (row : LockedRow τ ρ) (t : τ) : LockedRow τ ρ :=
  match row.lock with
  | some (holder, own) => if holder = t then ⟨own, none⟩ else row
  | none => row

def rollback (row : LockedRow τ ρ) (t : τ) : LockedRow τ ρ :=
  match row.lock with
  | some (holder, _) => if holder = t then { row with lock := none } else row
  | none => row

section Lemmas

variable {row row' : LockedRow τ ρ} {t t' : τ} {own : Option ρ} {r : ρ} {p : ρ → Bool}
  {f : ρ → ρ}

theorem Held.view (h : row.Held t own) : row.view t = own := by
  unfold LockedRow.view
  rw [show row.lock = some (t, own) from h]
  exact if_pos rfl

theorem Held.acquire (h : row.Held t own) : row.acquire t = some row := by
  unfold LockedRow.acquire
  rw [show row.lock = some (t, own) from h]
  exact if_pos rfl

theorem Held.commit (h : row.Held t own) : row.commit t = ⟨own, none⟩ := by
  unfold LockedRow.commit
  rw [show row.lock = some (t, own) from h]
  exact if_pos rfl

theorem Held.rollback (h : row.Held t own) : row.rollback t = { row with lock := none } := by
  unfold LockedRow.rollback
  rw [show row.lock = some (t, own) from h]
  exact if_pos rfl

theorem HasNoLock.view (h : row.HasNoLock t) : row.view t = row.committed := by
  unfold LockedRow.view
  split
  · rename_i holder own hLock
    exact if_neg (h.holder_ne hLock)
  · rfl

/-- The lock was free, or the transaction's. -/
theorem acquire_eq_some (h : row.acquire t = some row') :
    row'.committed = row.committed ∧ row'.Held t (row.view t) ∧
      (row.lock = none ∨ ∃ own, row.Held t own) := by
  unfold LockedRow.acquire at h
  unfold Held LockedRow.view
  split at h
  · rename_i holder own hLock
    split at h
    · rename_i hHolder
      obtain rfl := Option.some.inj h
      subst hHolder
      rw [hLock]
      exact ⟨rfl, by rw [if_pos rfl], Or.inr ⟨own, rfl⟩⟩
    · cases h
  · rename_i hLock
    obtain rfl := Option.some.inj h
    rw [hLock]
    exact ⟨rfl, rfl, Or.inl rfl⟩

/-- A transaction without the lock has nothing to end. -/
theorem HasNoLock.rollback (h : row.HasNoLock t) : row.rollback t = row := by
  unfold LockedRow.rollback
  split
  · rename_i holder own hLock
    exact if_neg (h.holder_ne hLock)
  · rfl

theorem HasNoLock.commit (h : row.HasNoLock t) : row.commit t = row := by
  unfold LockedRow.commit
  split
  · rename_i holder own hLock
    exact if_neg (h.holder_ne hLock)
  · rfl

theorem hasNoLock_rollback : (row.rollback t).HasNoLock t := by
  rcases held_or_hasNoLock t row with ⟨own, hHeld⟩ | hFree
  · rw [hHeld.rollback]
    intro own' hLock
    cases hLock
  · rw [hFree.rollback]
    exact hFree

theorem hasNoLock_commit : (row.commit t).HasNoLock t := by
  rcases held_or_hasNoLock t row with ⟨own, hHeld⟩ | hFree
  · rw [hHeld.commit]
    intro own' hLock
    cases hLock
  · rw [hFree.commit]
    exact hFree

theorem rollback_committed : (row.rollback t).committed = row.committed := by
  unfold LockedRow.rollback
  split
  · split <;> rfl
  · rfl

/-- The row is found and locked, or it does not match. -/
theorem selectForUpdate_eq_some {found : Option ρ}
    (h : row.selectForUpdate t p = some (row', found)) :
    (row' = row ∧ found = none) ∨
      ∃ r, row.view t = some r ∧ p r = true ∧ found = some r ∧ row.acquire t = some row' := by
  unfold selectForUpdate at h
  split at h
  · cases h
    exact Or.inl ⟨rfl, rfl⟩
  · rename_i r hMatch
    obtain ⟨hView, hp⟩ := Option.filter_eq_some_iff.mp hMatch
    obtain ⟨locked, hLocked, hEq⟩ := Option.map_eq_some_iff.mp h
    cases hEq
    exact Or.inr ⟨r, hView, hp, rfl, hLocked⟩

theorem update_eq_some {matched : Bool} (h : row.update t p f = some (row', matched)) :
    (row' = row ∧ matched = false) ∨
      ∃ r locked, row.view t = some r ∧ p r = true ∧ matched = true ∧
        row.acquire t = some locked ∧ row' = locked.write t (some (f r)) := by
  unfold update at h
  split at h
  · cases h
    exact Or.inl ⟨rfl, rfl⟩
  · rename_i r hMatch
    obtain ⟨hView, hp⟩ := Option.filter_eq_some_iff.mp hMatch
    obtain ⟨locked, hLocked, hEq⟩ := Option.map_eq_some_iff.mp h
    cases hEq
    exact Or.inr ⟨r, locked, hView, hp, rfl, hLocked, rfl⟩

theorem update_unmatched (h : row.update t p f = some (row', false)) : row' = row := by
  rcases update_eq_some h with ⟨hSame, -⟩ | ⟨_, _, -, -, hMatched, -⟩
  · exact hSame
  · cases hMatched

theorem insert_eq_some {r : ρ} {result : Option (LockedRow τ ρ)}
    (h : row.insert t r = some result) :
    ∃ locked, row.acquire t = some locked ∧
      ((result = none ∧ ∃ s, locked.view t = some s) ∨
        (locked.view t = none ∧ result = some (locked.write t (some r)))) := by
  obtain ⟨locked, hLocked, hEq⟩ := Option.map_eq_some_iff.mp h
  refine ⟨locked, hLocked, ?_⟩
  split at hEq
  · rename_i s hView
    exact Or.inl ⟨hEq.symm, s, hView⟩
  · rename_i hView
    exact Or.inr ⟨hView, hEq.symm⟩

/-- Reading changes nothing, whether it takes the lock or not. -/
theorem selectForUpdate_same {found : Option ρ}
    (h : row.selectForUpdate t p = some (row', found)) :
    row'.committed = row.committed ∧ row'.view t = row.view t := by
  rcases selectForUpdate_eq_some h with ⟨rfl, -⟩ | ⟨r, -, -, -, hLocked⟩
  · exact ⟨rfl, rfl⟩
  · obtain ⟨hCommitted, hHeld, -⟩ := acquire_eq_some hLocked
    exact ⟨hCommitted, hHeld.view⟩

/-- A transaction without the lock finds the committed version, and has it locked. -/
theorem HasNoLock.selectForUpdate_some {r : ρ} (hFree : row.HasNoLock t)
    (h : row.selectForUpdate t p = some (row', some r)) :
    row.committed = some r ∧ p r = true ∧ row'.committed = row.committed ∧
      row'.Held t (some r) := by
  rcases selectForUpdate_eq_some h with ⟨-, hNone⟩ | ⟨s, hView, hp, hFound, hLocked⟩
  · cases hNone
  · obtain rfl := Option.some.inj hFound
    obtain ⟨hCommitted, hHeld, -⟩ := acquire_eq_some hLocked
    rw [hView] at hHeld
    rw [hFree.view] at hView
    exact ⟨hView, hp, hCommitted, hHeld⟩

theorem selectForUpdate_none (h : row.selectForUpdate t p = some (row', none)) : row' = row := by
  rcases selectForUpdate_eq_some h with ⟨rfl, -⟩ | ⟨r, -, -, hFound, -⟩
  · rfl
  · cases hFound

theorem Held.update (h : row.Held t (some r)) (hp : p r = true) :
    row.update t p f = some (row.write t (some (f r)), true) := by
  unfold LockedRow.update
  rw [h.view, Option.filter_some, if_pos hp]
  dsimp only
  rw [h.acquire, Option.map_some]

/-- A transaction without the lock writes over the committed version. -/
theorem HasNoLock.update_eq_some {matched : Bool} (hFree : row.HasNoLock t)
    (hCommitted : row.committed = some r) (hp : p r = true)
    (h : row.update t p f = some (row', matched)) :
    row'.committed = some r ∧ row'.Held t (some (f r)) := by
  rcases LockedRow.update_eq_some h with ⟨rfl, rfl⟩ | ⟨s, locked, hView, -, -, hLocked, rfl⟩
  · unfold LockedRow.update at h
    rw [hFree.view, hCommitted, Option.filter_some, if_pos hp] at h
    obtain ⟨locked, -, hEq⟩ := Option.map_eq_some_iff.mp h
    cases hEq
  · rw [hFree.view, hCommitted] at hView
    obtain rfl := Option.some.inj hView
    exact ⟨(acquire_eq_some hLocked).1.trans hCommitted, rfl⟩

end Lemmas

/-! ## Each statement is a step of its transaction -/

section Moves

variable {row row' : LockedRow τ ρ} {t t' : τ} {own : Option ρ} {p : ρ → Bool} {f : ρ → ρ}

theorem Moves.of_acquire (h : row.acquire t = some row') : Moves t row row' := by
  obtain ⟨hCommitted, hHeld, hFree⟩ := acquire_eq_some h
  exact ⟨hFree, Or.inr ⟨_, hHeld⟩, Or.inl hCommitted⟩

theorem Moves.of_write {value : Option ρ} (h : row.acquire t = some row') :
    Moves t row (row'.write t value) := by
  obtain ⟨hCommitted, -, hFree⟩ := acquire_eq_some h
  exact ⟨hFree, Or.inr ⟨_, rfl⟩, Or.inl hCommitted⟩

theorem stepBy_selectForUpdate {found : Option ρ}
    (h : row.selectForUpdate t p = some (row', found)) : StepBy t row row' := by
  rcases selectForUpdate_eq_some h with ⟨rfl, -⟩ | ⟨r, -, -, -, hLocked⟩
  · exact Or.inl rfl
  · exact Or.inr (.of_acquire hLocked)

theorem stepBy_update {matched : Bool} (h : row.update t p f = some (row', matched)) :
    StepBy t row row' := by
  rcases update_eq_some h with ⟨rfl, -⟩ | ⟨r, locked, -, -, -, hLocked, rfl⟩
  · exact Or.inl rfl
  · exact Or.inr (.of_write hLocked)

theorem stepBy_insert {r : ρ} (h : row.insert t r = some (some row')) : StepBy t row row' := by
  obtain ⟨locked, hLocked, ⟨hNone, -⟩ | ⟨-, hSome⟩⟩ := insert_eq_some h
  · cases hNone
  · cases hSome
    exact Or.inr (.of_write hLocked)

theorem stepBy_commit : StepBy t row (row.commit t) := by
  rcases held_or_hasNoLock t row with ⟨own, hHeld⟩ | hFree
  · rw [hHeld.commit]
    exact Or.inr ⟨Or.inr ⟨own, hHeld⟩, Or.inl rfl, Or.inr hHeld⟩
  · rw [hFree.commit]
    exact Or.inl rfl

theorem stepBy_rollback : StepBy t row (row.rollback t) := by
  rcases held_or_hasNoLock t row with ⟨own, hHeld⟩ | hFree
  · rw [hHeld.rollback]
    exact Or.inr ⟨Or.inr ⟨own, hHeld⟩, Or.inl rfl, Or.inl rfl⟩
  · rw [hFree.rollback]
    exact Or.inl rfl

end Moves

end LockedRow
