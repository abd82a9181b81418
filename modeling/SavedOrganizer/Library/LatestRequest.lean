import Mathlib.Logic.Function.Basic

/-!
# Results of requests under a version counter

A view shows what requests and events bring. Requests overtake each other, so a counter tells
which result is still wanted: a request takes the next version when it is sent, something that is
shown at once takes a version of its own, and the result of a request is shown only while the
counter still has its version. Times come from outside and do not go back.

What `settle` shows was asked for after everything shown before it (`Inv.shownAt_le`).
-/

namespace LatestRequest

universe u v

/-- A request that has been sent. -/
structure Pending where
  version : Nat
  sentAt : Nat
  deriving DecidableEq, Repr

structure View (κ : Type u) (α : Type v) where
  version : Nat
  shown : α
  shownAt : Nat
  pending : κ → Option Pending

namespace View

variable {κ : Type u} {α : Type v}

/-- No result of an earlier request is wanted any more. -/
def supersede (view : View κ α) : View κ α := { view with version := view.version + 1 }

/-- Something is shown at once. -/
def present (now : Nat) (x : α) (view : View κ α) : View κ α :=
  { view with version := view.version + 1, shown := x, shownAt := now }

/-- The result of the request is still wanted. -/
def current (k : κ) (view : View κ α) : Bool :=
  (view.pending k).any fun p => p.version == view.version

/-- What holds of a view at a time. -/
structure Inv (now : Nat) (view : View κ α) : Prop where
  shown_le : view.shownAt ≤ now
  sent_le : ∀ k p, view.pending k = some p → p.sentAt ≤ now
  version_le : ∀ k p, view.pending k = some p → p.version ≤ view.version
  once : ∀ k k' p p', view.pending k = some p → view.pending k' = some p' →
    p.version = p'.version → k = k'
  /-- Nothing has been shown since a request whose result is wanted was sent. -/
  fresh : ∀ k p, view.pending k = some p → p.version = view.version → view.shownAt ≤ p.sentAt

variable {now now' : Nat} {k k' : κ} {x : α} {view : View κ α} {p : Pending}

theorem current_iff : view.current k = true ↔ ∃ p, view.pending k = some p ∧
    p.version = view.version := by
  simp only [current, Option.any_eq_true, beq_iff_eq]

theorem inv_initial (version now : Nat) (x : α) :
    Inv now ⟨version, x, now, fun _ : κ => none⟩ where
  shown_le := Nat.le_refl _
  sent_le _ _ h := nomatch h
  version_le _ _ h := nomatch h
  once _ _ _ _ h := nomatch h
  fresh _ _ h := nomatch h

theorem Inv.later (h : Inv now view) (hNow : now ≤ now') : Inv now' view where
  shown_le := Nat.le_trans h.shown_le hNow
  sent_le k p hp := Nat.le_trans (h.sent_le k p hp) hNow
  version_le := h.version_le
  once := h.once
  fresh := h.fresh

/-- A version that is new is the version of no request. -/
theorem Inv.version_ne (h : Inv now view) (hp : view.pending k = some p) :
    p.version ≠ view.version + 1 :=
  Nat.ne_of_lt (Nat.lt_succ_of_le (h.version_le k p hp))

theorem Inv.supersede (h : Inv now view) : Inv now view.supersede where
  shown_le := h.shown_le
  sent_le := h.sent_le
  version_le k p hp := Nat.le_succ_of_le (h.version_le k p hp)
  once := h.once
  fresh _ _ hp hVersion := absurd hVersion (h.version_ne hp)

theorem Inv.present (h : Inv now view) (x : α) : Inv now (view.present now x) where
  shown_le := Nat.le_refl _
  sent_le := h.sent_le
  version_le k p hp := Nat.le_succ_of_le (h.version_le k p hp)
  once := h.once
  fresh _ _ hp hVersion := absurd hVersion (h.version_ne hp)

/-- A result that is wanted belongs to a request sent after everything that has been shown. -/
theorem Inv.shownAt_le (h : Inv now view) (hCurrent : view.current k = true) :
    ∃ p, view.pending k = some p ∧ view.shownAt ≤ p.sentAt := by
  obtain ⟨p, hp, hVersion⟩ := current_iff.mp hCurrent
  exact ⟨p, hp, h.fresh k p hp hVersion⟩

variable [DecidableEq κ]

def send (now : Nat) (k : κ) (view : View κ α) : View κ α :=
  { view with
    version := view.version + 1
    pending := Function.update view.pending k (some ⟨view.version + 1, now⟩) }

/-- A request is sent and something is shown while it is under way. -/
def sendShowing (now : Nat) (k : κ) (x : α) (view : View κ α) : View κ α :=
  { view.send now k with shown := x, shownAt := now }

def forget (k : κ) (view : View κ α) : View κ α :=
  { view with pending := Function.update view.pending k none }

/-- The request has its result. -/
def settle (now : Nat) (k : κ) (x : α) (view : View κ α) : View κ α :=
  if view.current k then { view with shown := x, shownAt := now }.forget k else view.forget k

@[simp] theorem pending_send_self :
    (view.send now k).pending k = some ⟨view.version + 1, now⟩ := Function.update_self _ _ _

theorem pending_send_other (h : k' ≠ k) : (view.send now k).pending k' = view.pending k' :=
  Function.update_of_ne h _ _

@[simp] theorem pending_forget_self : (view.forget k).pending k = none :=
  Function.update_self _ _ _

theorem pending_forget_other (h : k' ≠ k) : (view.forget k).pending k' = view.pending k' :=
  Function.update_of_ne h _ _

/-- A pending request of a view after a request was sent. -/
theorem of_pending_send (h : (view.send now k).pending k' = some p) :
    (k' = k ∧ p = ⟨view.version + 1, now⟩) ∨ view.pending k' = some p := by
  by_cases hk : k' = k
  · subst hk
    rw [pending_send_self] at h
    exact Or.inl ⟨rfl, (Option.some.inj h).symm⟩
  · rw [pending_send_other hk] at h
    exact Or.inr h

theorem of_pending_forget (h : (view.forget k).pending k' = some p) :
    k' ≠ k ∧ view.pending k' = some p := by
  by_cases hk : k' = k
  · subst hk
    rw [pending_forget_self] at h
    cases h
  · rw [pending_forget_other hk] at h
    exact ⟨hk, h⟩

theorem settle_of_current (h : view.current k = true) :
    view.settle now k x = { view with shown := x, shownAt := now }.forget k := if_pos h

theorem settle_of_not_current (h : view.current k = false) :
    view.settle now k x = view.forget k := if_neg (Bool.eq_false_iff.mp h)

theorem of_pending_settle (h : (view.settle now k x).pending k' = some p) :
    k' ≠ k ∧ view.pending k' = some p := by
  unfold settle at h
  split at h <;> exact of_pending_forget h

theorem Inv.send (h : Inv now view) (k : κ) : Inv now (view.send now k) where
  shown_le := h.shown_le
  sent_le k' p hp := by
    rcases of_pending_send hp with ⟨-, rfl⟩ | hOld
    · exact Nat.le_refl _
    · exact h.sent_le k' p hOld
  version_le k' p hp := by
    rcases of_pending_send hp with ⟨-, rfl⟩ | hOld
    · exact Nat.le_refl _
    · exact Nat.le_succ_of_le (h.version_le k' p hOld)
  once k₁ k₂ p₁ p₂ h₁ h₂ hVersion := by
    rcases of_pending_send h₁ with ⟨rfl, rfl⟩ | hOld₁
    · rcases of_pending_send h₂ with ⟨rfl, -⟩ | hOld₂
      · rfl
      · exact absurd hVersion.symm (h.version_ne hOld₂)
    · rcases of_pending_send h₂ with ⟨-, rfl⟩ | hOld₂
      · exact absurd hVersion (h.version_ne hOld₁)
      · exact h.once k₁ k₂ p₁ p₂ hOld₁ hOld₂ hVersion
  fresh k' p hp hVersion := by
    rcases of_pending_send hp with ⟨-, rfl⟩ | hOld
    · exact h.shown_le
    · exact absurd hVersion (h.version_ne hOld)

theorem Inv.forget (h : Inv now view) (k : κ) : Inv now (view.forget k) where
  shown_le := h.shown_le
  sent_le k' p hp := h.sent_le k' p (of_pending_forget hp).2
  version_le k' p hp := h.version_le k' p (of_pending_forget hp).2
  once k₁ k₂ p₁ p₂ h₁ h₂ := h.once k₁ k₂ p₁ p₂ (of_pending_forget h₁).2 (of_pending_forget h₂).2
  fresh k' p hp := h.fresh k' p (of_pending_forget hp).2

theorem Inv.settle (h : Inv now view) (k : κ) (x : α) : Inv now (view.settle now k x) := by
  unfold View.settle
  split
  · rename_i hCurrent
    obtain ⟨q, hq, hVersion⟩ := current_iff.mp hCurrent
    refine ⟨Nat.le_refl _, (h.forget k).sent_le, (h.forget k).version_le, (h.forget k).once, ?_⟩
    -- no other request has the version of the one that is shown
    intro k' p hp hOther
    obtain ⟨hNe, hOld⟩ := of_pending_forget hp
    exact absurd (h.once k' k p q hOld hq (hOther.trans hVersion.symm)) hNe
  · exact h.forget k

end View

end LatestRequest
