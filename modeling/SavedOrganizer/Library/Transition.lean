import Mathlib.Data.List.Induction

/-!
# Runs of a labelled transition system

A system is a partial step function `σ → α → Option σ`: `none` when the action is not
enabled in the state. `run` folds it over a list of actions. `StepOf` names one step of a
run together with the states around it, and `Visits` a state the run passes through, so
that conditions on a run are conditions on its steps.

The induction over a run is done once, in `run_induct`: a property that holds at the
start and is kept by every step of this run holds at its end. `invariant` is the special
case where every step of the system keeps it.
-/

namespace Transition

universe u v

variable {σ : Type u} {α : Type v}

/-- The state after a list of actions, when each of them is enabled in turn. -/
def run (step : σ → α → Option σ) : σ → List α → Option σ
  | s, [] => some s
  | s, a :: as => (step s a).bind (fun t => run step t as)

@[simp] theorem run_nil (step : σ → α → Option σ) (s : σ) : run step s [] = some s := rfl

theorem run_cons {step : σ → α → Option σ} {s t : σ} {a : α} {as : List α} :
    run step s (a :: as) = some t ↔ ∃ u, step s a = some u ∧ run step u as = some t := by
  simp only [run, Option.bind_eq_some_iff]

theorem run_append {step : σ → α → Option σ} {s t : σ} {as bs : List α} :
    run step s (as ++ bs) = some t ↔ ∃ u, run step s as = some u ∧ run step u bs = some t := by
  induction as generalizing s with
  | nil => simp
  | cons a as ih =>
      rw [List.cons_append, run_cons]
      constructor
      · rintro ⟨u, hu, h⟩
        obtain ⟨v, hv, hw⟩ := ih.mp h
        exact ⟨v, run_cons.mpr ⟨u, hu, hv⟩, hw⟩
      · rintro ⟨v, hv, hw⟩
        obtain ⟨u, hu, h⟩ := run_cons.mp hv
        exact ⟨u, hu, ih.mpr ⟨v, h, hw⟩⟩

theorem run_concat {step : σ → α → Option σ} {s t : σ} {as : List α} {a : α} :
    run step s (as ++ [a]) = some t ↔ ∃ u, run step s as = some u ∧ step u a = some t := by
  rw [run_append]
  simp only [run_cons, run_nil, Option.some.injEq, exists_eq_right]

/-- A run that goes through ends in its `getD`. -/
theorem run_getD {step : σ → α → Option σ} {s d : σ} {as : List α}
    (h : (run step s as).isSome = true) : run step s as = some ((run step s as).getD d) := by
  obtain ⟨t, ht⟩ := Option.isSome_iff_exists.mp h
  rw [ht, Option.getD_some]

/-- The rest of a run that goes through starts where its front ends. -/
theorem run_getD_append {step : σ → α → Option σ} {s d : σ} {as bs : List α}
    (h : (run step s (as ++ bs)).isSome = true) :
    run step ((run step s as).getD d) bs = some ((run step s (as ++ bs)).getD d) := by
  obtain ⟨t, ht⟩ := Option.isSome_iff_exists.mp h
  obtain ⟨u, hu, hRun⟩ := run_append.mp ht
  rw [hu, ht, Option.getD_some, Option.getD_some, hRun]

/-- The run of `as` from `s` takes the step `u —a→ v`. -/
def StepOf (step : σ → α → Option σ) (s : σ) (as : List α) (u : σ) (a : α) (v : σ) : Prop :=
  ∃ front back, as = front ++ a :: back ∧ run step s front = some u ∧ step u a = some v

/-- The run of `as` from `s` passes through `u`. -/
def Visits (step : σ → α → Option σ) (s : σ) (as : List α) (u : σ) : Prop :=
  ∃ front back, as = front ++ back ∧ run step s front = some u

theorem visits_start (step : σ → α → Option σ) (s : σ) (as : List α) : Visits step s as s :=
  ⟨[], as, rfl, rfl⟩

theorem visits_end {step : σ → α → Option σ} {s t : σ} {as : List α}
    (h : run step s as = some t) : Visits step s as t :=
  ⟨as, [], (List.append_nil as).symm, h⟩

theorem StepOf.before {step : σ → α → Option σ} {s u v : σ} {as : List α} {a : α}
    (h : StepOf step s as u a v) : Visits step s as u := by
  obtain ⟨front, back, hAs, hRun, -⟩ := h
  exact ⟨front, a :: back, hAs, hRun⟩

theorem StepOf.after {step : σ → α → Option σ} {s u v : σ} {as : List α} {a : α}
    (h : StepOf step s as u a v) : Visits step s as v := by
  obtain ⟨front, back, rfl, hRun, hStep⟩ := h
  exact ⟨front ++ [a], back, by simp, run_concat.mpr ⟨u, hRun, hStep⟩⟩

theorem StepOf.mem {step : σ → α → Option σ} {s u v : σ} {as : List α} {a : α}
    (h : StepOf step s as u a v) : a ∈ as := by
  obtain ⟨front, back, rfl, -, -⟩ := h
  exact List.mem_append_right _ List.mem_cons_self

theorem StepOf.step {step : σ → α → Option σ} {s u v : σ} {as : List α} {a : α}
    (h : StepOf step s as u a v) : step u a = some v := by
  obtain ⟨_, _, -, -, hStep⟩ := h
  exact hStep

theorem not_stepOf_nil {step : σ → α → Option σ} {s u v : σ} {a : α} :
    ¬ StepOf step s [] u a v := by
  rintro ⟨front, back, hNil, -, -⟩
  exact List.append_ne_nil_of_right_ne_nil front (List.cons_ne_nil a back) hNil.symm

/-- A step of a run is its first one or one of the rest. -/
theorem stepOf_cons {step : σ → α → Option σ} {s t u v : σ} {a b : α} {as : List α}
    (hStep : step s b = some t) :
    StepOf step s (b :: as) u a v ↔ (u = s ∧ a = b ∧ v = t) ∨ StepOf step t as u a v := by
  constructor
  · rintro ⟨front, back, hAs, hRun, hLast⟩
    cases front with
    | nil =>
        obtain ⟨rfl, rfl⟩ := List.cons.inj hAs
        obtain rfl := Option.some.inj hRun
        exact Or.inl ⟨rfl, rfl, Option.some.inj (hLast.symm.trans hStep)⟩
    | cons c front =>
        obtain ⟨rfl, rfl⟩ := List.cons.inj hAs
        obtain ⟨w, hw, hRun⟩ := run_cons.mp hRun
        obtain rfl := Option.some.inj (hStep.symm.trans hw)
        exact Or.inr ⟨front, back, rfl, hRun, hLast⟩
  · rintro (⟨rfl, rfl, rfl⟩ | ⟨front, back, rfl, hRun, hLast⟩)
    · exact ⟨[], as, rfl, rfl, hStep⟩
    · exact ⟨b :: front, back, rfl, run_cons.mpr ⟨t, hStep, hRun⟩, hLast⟩

theorem StepOf.append_right {step : σ → α → Option σ} {s u v : σ} {as : List α} {a : α}
    (h : StepOf step s as u a v) (bs : List α) : StepOf step s (as ++ bs) u a v := by
  obtain ⟨front, back, rfl, hRun, hStep⟩ := h
  exact ⟨front, back ++ bs, by simp, hRun, hStep⟩

theorem StepOf.append_left {step : σ → α → Option σ} {r s u v : σ} {as bs : List α} {a : α}
    (hRun : run step r bs = some s) (h : StepOf step s as u a v) :
    StepOf step r (bs ++ as) u a v := by
  obtain ⟨front, back, rfl, hFront, hStep⟩ := h
  exact ⟨bs ++ front, back, by simp, run_append.mpr ⟨s, hRun, hFront⟩, hStep⟩

theorem Visits.append_left {step : σ → α → Option σ} {r s u : σ} {as bs : List α}
    (hRun : run step r bs = some s) (h : Visits step s as u) : Visits step r (bs ++ as) u := by
  obtain ⟨front, back, rfl, hFront⟩ := h
  exact ⟨bs ++ front, back, by simp, run_append.mpr ⟨s, hRun, hFront⟩⟩

theorem Visits.append_right {step : σ → α → Option σ} {s u : σ} {as : List α}
    (h : Visits step s as u) (bs : List α) : Visits step s (as ++ bs) u := by
  obtain ⟨front, back, rfl, hFront⟩ := h
  exact ⟨front, back ++ bs, by simp, hFront⟩

theorem visits_concat {step : σ → α → Option σ} {s u : σ} {as : List α} {a : α}
    (h : Visits step s (as ++ [a]) u) : Visits step s as u ∨ run step s (as ++ [a]) = some u := by
  obtain ⟨front, back, hAs, hRun⟩ := h
  rcases List.eq_nil_or_concat back with rfl | ⟨back, b, rfl⟩
  · rw [List.append_nil] at hAs
    exact Or.inr (hAs ▸ hRun)
  · rw [List.concat_eq_append, ← List.append_assoc] at hAs
    exact Or.inl ⟨front, back, (List.append_inj' hAs rfl).1, hRun⟩

/-- The induction over one run: only the steps this run takes have to keep `I`. -/
theorem run_induct {step : σ → α → Option σ} {I : σ → Prop} {s t : σ} {as : List α}
    (hStart : I s) (hRun : run step s as = some t)
    (hKeep : ∀ u a v, StepOf step s as u a v → I u → I v) : I t := by
  induction as using List.reverseRecOn generalizing t with
  | nil =>
      rw [run_nil, Option.some.injEq] at hRun
      exact hRun ▸ hStart
  | append_singleton as a ih =>
      obtain ⟨u, hu, hStep⟩ := run_concat.mp hRun
      have hI : I u := ih hu (fun x b y h hx => hKeep x b y (h.append_right [a]) hx)
      exact hKeep u a t ⟨as, [], rfl, hu, hStep⟩ hI

/-- A property that every step of the system keeps holds at the end of every run. -/
theorem invariant {step : σ → α → Option σ} {I : σ → Prop}
    (hKeep : ∀ u a v, step u a = some v → I u → I v) {s t : σ} {as : List α} (hStart : I s)
    (hRun : run step s as = some t) : I t :=
  run_induct hStart hRun (fun u a v h hu => hKeep u a v h.step hu)

/-- What every step keeps, and holds after one step of a run, holds at its end. -/
theorem StepOf.invariant {step : σ → α → Option σ} {I : σ → Prop} {s t u v : σ} {as : List α} {a : α}
    (h : StepOf step s as u a v) (hRun : run step s as = some t)
    (hKeep : ∀ u a v, step u a = some v → I u → I v) (hI : I v) : I t := by
  obtain ⟨front, back, rfl, hFront, hStep⟩ := h
  obtain ⟨w, hw, hBack⟩ := run_append.mp hRun
  obtain rfl := Option.some.inj (hFront.symm.trans hw)
  obtain ⟨w, hw, hBack⟩ := run_cons.mp hBack
  obtain rfl := Option.some.inj (hStep.symm.trans hw)
  exact Transition.invariant hKeep hI hBack

/-- The state a run visits, seen as the end of a shorter run of the same steps. -/
theorem visits_induct {step : σ → α → Option σ} {I : σ → Prop} {s u : σ} {as : List α}
    (hStart : I s) (hVisit : Visits step s as u)
    (hKeep : ∀ x a y, StepOf step s as x a y → I x → I y) : I u := by
  obtain ⟨front, back, rfl, hRun⟩ := hVisit
  exact run_induct hStart hRun (fun x a y h hx => hKeep x a y (h.append_right back) hx)

/-- A condition on each step of a run, by its state and action. -/
def everyStep (step : σ → α → Option σ) (p : σ → α → Bool) : σ → List α → Bool
  | _, [] => true
  | s, a :: as => p s a && (step s a).all fun t => everyStep step p t as

theorem of_everyStep {step : σ → α → Option σ} {p : σ → α → Bool} {s u v : σ} {as : List α} {a : α}
    (h : everyStep step p s as = true) (hStep : StepOf step s as u a v) : p u a = true := by
  induction as generalizing s with
  | nil => exact absurd hStep not_stepOf_nil
  | cons b as ih =>
      rw [everyStep, Bool.and_eq_true] at h
      obtain ⟨front, back, hAs, hRun, hLast⟩ := hStep
      cases hNext : step s b with
      | none =>
          cases front with
          | nil =>
              obtain ⟨rfl, rfl⟩ := List.cons.inj hAs
              obtain rfl := Option.some.inj hRun
              exact h.1
          | cons c front =>
              obtain ⟨rfl, -⟩ := List.cons.inj hAs
              obtain ⟨t, ht, -⟩ := run_cons.mp hRun
              rw [hNext] at ht
              cases ht
      | some t =>
          rw [hNext, Option.all_some] at h
          rcases (stepOf_cons hNext).mp ⟨front, back, hAs, hRun, hLast⟩ with
            ⟨rfl, rfl, -⟩ | hRest
          · exact h.1
          · exact ih h.2 hRest

/-- `p` holds in every state of a run until a step of the run satisfies `q`. -/
def holdsUntil (step : σ → α → Option σ) (p : σ → Bool) (q : σ → α → Bool) : σ → List α → Bool
  | s, [] => p s
  | s, a :: as => p s && (q s a || (step s a).all fun t => holdsUntil step p q t as)

/-- As long as no step satisfies `q`, the run is only in states that satisfy `p`. -/
theorem of_holdsUntil {step : σ → α → Option σ} {p : σ → Bool} {q : σ → α → Bool} {s u : σ}
    {as : List α} (h : holdsUntil step p q s as = true)
    (hNot : ∀ x a y, StepOf step s as x a y → q x a = false) (hVisit : Visits step s as u) :
    p u = true := by
  induction as generalizing s with
  | nil =>
      obtain ⟨front, back, hNil, hRun⟩ := hVisit
      obtain ⟨rfl, rfl⟩ := List.append_eq_nil_iff.mp hNil.symm
      obtain rfl := Option.some.inj hRun
      exact h
  | cons a as ih =>
      rw [holdsUntil, Bool.and_eq_true, Bool.or_eq_true] at h
      obtain ⟨front, back, hAs, hRun⟩ := hVisit
      cases front with
      | nil =>
          obtain rfl := Option.some.inj hRun
          exact h.1
      | cons b front =>
          obtain ⟨rfl, rfl⟩ := List.cons.inj hAs
          obtain ⟨t, ht, hRun⟩ := run_cons.mp hRun
          have hHead : q s a = false := hNot s a t ⟨[], _, rfl, rfl, ht⟩
          rw [hHead, ht, Option.all_some] at h
          refine ih (h.2.resolve_left Bool.false_ne_true) ?_ ⟨front, back, rfl, hRun⟩
          exact fun x b y hStep => hNot x b y ((stepOf_cons ht).mpr (Or.inr hStep))

/-- The states some run from an initial state ends in. -/
def Reachable (initial : σ → Prop) (step : σ → α → Option σ) (t : σ) : Prop :=
  ∃ s as, initial s ∧ run step s as = some t

theorem Reachable.run {initial : σ → Prop} {step : σ → α → Option σ} {s t : σ} {as : List α}
    (h : Reachable initial step s) (hRun : run step s as = some t) :
    Reachable initial step t := by
  obtain ⟨r, bs, hr, hbs⟩ := h
  exact ⟨r, bs ++ as, hr, run_append.mpr ⟨s, hbs, hRun⟩⟩

theorem Reachable.invariant {initial : σ → Prop} {step : σ → α → Option σ} {I : σ → Prop}
    (hStart : ∀ s, initial s → I s) (hKeep : ∀ u a v, step u a = some v → I u → I v) {t : σ}
    (h : Reachable initial step t) : I t := by
  obtain ⟨s, as, hs, hRun⟩ := h
  exact Transition.invariant hKeep (hStart s hs) hRun

/-! ## A machine that runs by itself

A machine has one next state, or none when it has halted. `runFor n` takes at most `n`
steps; `n` steps are enough when a measure bounded by `n` goes down at each of them. -/

def runFor (next : σ → Option σ) : Nat → σ → σ
  | 0, s => s
  | n + 1, s => match next s with
    | none => s
    | some t => runFor next n t

theorem runFor_succ {next : σ → Option σ} {s t : σ} {n : Nat} (h : next s = some t) :
    runFor next (n + 1) s = runFor next n t := by
  rw [runFor, h]

theorem runFor_halted {next : σ → Option σ} {s : σ} (h : next s = none) (n : Nat) :
    runFor next n s = s := by
  cases n with
  | zero => rfl
  | succ n => rw [runFor, h]

theorem runFor_inv {next : σ → Option σ} {I : σ → Prop} (hKeep : ∀ s t, next s = some t → I s → I t)
    (n : Nat) {s : σ} (h : I s) : I (runFor next n s) := by
  induction n generalizing s with
  | zero => exact h
  | succ n ih =>
      cases hNext : next s with
      | none => simpa only [runFor, hNext] using h
      | some t => simpa only [runFor, hNext] using ih (hKeep s t hNext h)

theorem runFor_halts {next : σ → Option σ} {I : σ → Prop} {measure : σ → Nat}
    (hKeep : ∀ s t, next s = some t → I s → I t)
    (hDown : ∀ s t, next s = some t → I s → measure t < measure s) {n : Nat} {s : σ} (h : I s)
    (hn : measure s ≤ n) : next (runFor next n s) = none := by
  induction n generalizing s with
  | zero =>
      cases hNext : next s with
      | none => exact hNext
      | some t =>
          have hLt := hDown s t hNext h
          omega
  | succ n ih =>
      cases hNext : next s with
      | none => simp only [runFor, hNext]
      | some t =>
          have hLt := hDown s t hNext h
          simpa only [runFor, hNext] using ih (hKeep s t hNext h) (by omega)

end Transition
