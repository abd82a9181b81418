import Mathlib.Logic.Function.Basic
import SavedOrganizer.Auth.Statements

/-!
# Interleaved calls on one connection row

Any number of calls of `Auth.Statements` take their statements in any order while the clock
advances. A step of a call is a step on the row in the sense of `LockedRow.StepBy`
(`stepBy_advance`): nobody else has the lock then, and what it commits is its own version.
-/

namespace SavedOrganizer

open LockedRow

structure CallWorld where
  now : Instant
  row : ConnectionRow
  calls : CallId → CallPhase

inductive CallAction
  | tick (elapsed : Nat)
  | begin (t : CallId) (call : ConnectionCall)
  | advance (t : CallId) (input : CallInput)

def CallWorld.step (env : CallEnv) (w : CallWorld) : CallAction → Option CallWorld
  | .tick elapsed => some { w with now := w.now + elapsed }
  | .begin t call => match w.calls t with
      | .idle => some { w with calls := Function.update w.calls t (.begun call) }
      | _ => none
  | .advance t input =>
      (advance env w.now t w.row (w.calls t) input).map fun (row, phase) =>
        { w with row := row, calls := Function.update w.calls t phase }

/-- The call takes steps that need no answer. -/
def proceeds (n : Nat) (t : CallId) : List CallAction := List.replicate n (.advance t .proceed)

/-- Time passes, a call begins, or a call takes a step on the row. -/
theorem CallWorld.step_eq_some {env : CallEnv} {w w' : CallWorld} {a : CallAction}
    (h : w.step env a = some w') :
    (∃ elapsed, a = .tick elapsed ∧ w' = { w with now := w.now + elapsed }) ∨
      (∃ t call, a = .begin t call ∧ w.calls t = .idle ∧
        w' = { w with calls := Function.update w.calls t (.begun call) }) ∨
      ∃ t input row phase, a = .advance t input ∧
        advance env w.now t w.row (w.calls t) input = some (row, phase) ∧
        w' = { w with row := row, calls := Function.update w.calls t phase } := by
  cases a with
  | tick elapsed => exact Or.inl ⟨elapsed, rfl, (Option.some.inj h).symm⟩
  | begin t call =>
      simp only [CallWorld.step] at h
      split at h
      · rename_i hIdle
        exact Or.inr (Or.inl ⟨t, call, rfl, hIdle, (Option.some.inj h).symm⟩)
      · cases h
  | advance t input =>
      obtain ⟨⟨row, phase⟩, hAdvance, hEq⟩ := Option.map_eq_some_iff.mp h
      exact Or.inr (Or.inr ⟨t, input, row, phase, rfl, hAdvance, hEq.symm⟩)

/-! ## Every statement is a step of its call -/

section Steps

variable {env : CallEnv} {now : Instant} {t : CallId} {row row' : ConnectionRow}
  {phase phase' : CallPhase} {input : CallInput}

theorem stepBy_endCall {outcome : CallOutcome} (h : endCall t row outcome = some (row', phase')) :
    StepBy t row row' := by
  cases h
  exact stepBy_rollback

theorem stepBy_writeOutcome {loaded : TelegramConnection} {after : AfterCommit}
    {memory : Option (TelegramConnection × Bool)}
    (h : writeOutcome t row loaded after memory = some (row', phase')) : StepBy t row row' := by
  unfold writeOutcome at h
  split at h
  · exact stepBy_endCall h
  · cases h
    exact Or.inl rfl

theorem stepBy_beginCall {call : ConnectionCall}
    (h : beginCall env t row call = some (row', phase')) : StepBy t row row' := by
  cases call with
  | status =>
      cases h
      exact Or.inl rfl
  | openScan lease =>
      simp only [beginCall] at h
      split at h
      · cases h
        exact Or.inl rfl
      split at h
      · cases h
        exact Or.inl rfl
      split at h
      · cases h
        exact Or.inl rfl
      · cases h
        exact Or.inl rfl
  | _ =>
      obtain ⟨⟨locked, found⟩, hFound, hEq⟩ := Option.map_eq_some_iff.mp h
      cases hEq
      exact stepBy_selectForUpdate hFound

theorem stepBy_advance (h : advance env now t row phase input = some (row', phase')) :
    StepBy t row row' := by
  unfold advance at h
  split at h
  -- a call that has not begun or has returned, and an input it does not wait for
  case h_1 | h_2 | h_20 => cases h
  -- the row is as it was
  case h_7 | h_12 | h_14 =>
      cases h
      exact Or.inl rfl
  -- an exception
  case h_3 => exact stepBy_endCall h
  case h_4 => exact stepBy_beginCall h
  -- `status` has read the row
  case h_5 =>
      split at h
      · exact stepBy_endCall h
      · split at h
        · exact stepBy_endCall h
        · cases h
          exact Or.inl rfl
        · cases h
          exact Or.inl rfl
  -- `start` has read the row, or has found none
  case h_6 =>
      split at h
      · obtain ⟨inserted, hInsert, h⟩ := Option.bind_eq_some_iff.mp h
        cases inserted with
        | none => exact stepBy_endCall h
        | some added =>
            cases h
            exact stepBy_insert hInsert
      · split at h
        · cases h
          exact Or.inl rfl
        · cases h
          exact Or.inl rfl
  -- the client has said whether it is authorized
  case h_8 =>
      split at h
      · cases h
        exact Or.inl rfl
      split at h
      · exact stepBy_endCall h
      · cases h
        exact Or.inl rfl
  -- the row in memory is complete
  case h_9 | h_10 | h_13 | h_15 | h_16 => exact stepBy_writeOutcome h
  -- `verify` has read the row
  case h_11 =>
      split at h
      · exact stepBy_endCall h
      · exact stepBy_endCall h
      · cases h
        exact Or.inl rfl
      · cases h
        exact Or.inl rfl
      · cases h
        exact Or.inl rfl
  -- the `UPDATE`, and the commits
  case h_18 =>
      obtain ⟨⟨written, matched⟩, hUpdate, hEq⟩ := Option.map_eq_some_iff.mp h
      cases hEq
      exact stepBy_update hUpdate
  case h_17 | h_19 =>
      cases h
      exact stepBy_commit

end Steps

end SavedOrganizer
