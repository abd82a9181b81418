import SavedOrganizer.Library.Transition
import SavedOrganizer.Scanner.Invariant

/-!
# Resumable slices emit the source once

A job is scanned in slices. Each slice is one run of the scan loop that starts at the
cursor of the last persisted page with what is left of the message quota; it ends by
itself, or is left at any `await` outside `on_page`. `sliceStep` makes this a transition
system over one unchanged source, in which every duration, every page limit and every
outcome of the downloads is free.

`emission_prefix` is the result: in every state of every run the persisted messages are a
prefix of the source, within the quota, and all of it once a slice has returned
`sourceExhausted`.
-/

namespace SavedOrganizer

open Pagination SavedMessages Transition

/-- The persisted messages, the durable cursor and the slice in progress. -/
structure SliceState where
  emitted : List ScannedMessage
  cursor : Option TelegramId
  slice : Option ScanState
  deriving DecidableEq

inductive SliceAction
  /-- A worker starts `scan`; the offset and the quota of the options are the job's. -/
  | start (options : ScanOptions) (clock : Nat)
  | answer (answer : Answer)
  /-- The slice has ended, or is cancelled. -/
  | leave

/-- The options of a slice that resumes a job. -/
def resumeOptions (options : ScanOptions) (cursor : Option TelegramId) (remaining : Nat) :
    ScanOptions :=
  { options with startOffsetId := cursor, maxMessages := some remaining }

/-- The answer is one the client and the database give: a fetch returns what the source
serves, and `on_page` persists its page. -/
def Answer.admissible (src : SavedMessages) (st : ScanState) : Answer → Bool
  | .fetched _ _ rawPage =>
      match st.phase with
      | .fetching _ limit => rawPage = src.iterMessages st.previousOffsetId limit
      | _ => false
  | .delivered _ => true
  | _ =>
      match st.phase with
      | .delivering _ _ => false
      | _ => true

/-- `on_page` adds its page to the persisted messages and moves the cursor. -/
def SliceState.persist (s : SliceState) : Option ScanPage → SliceState
  | some page => { s with emitted := s.emitted ++ page.messages, cursor := page.nextOffsetId }
  | none => s

def sliceStep (src : SavedMessages) (maxMessages : Nat) (s : SliceState) :
    SliceAction → Option SliceState
  | .start options clock =>
      let resumed := resumeOptions options s.cursor (maxMessages - s.emitted.length)
      if s.slice.isNone && resumed.valid then
        some { s with slice := some (beginScan resumed clock) }
      else none
  | .answer answer =>
      s.slice.bind fun st =>
        if answer.admissible src st then
          (resume st answer).map fun st' =>
            { s.persist (deliveredPage st answer) with slice := some st' }
        else none
  | .leave =>
      s.slice.bind fun st =>
        match st.phase with
        | .delivering _ _ => none
        | _ => some { s with slice := none }

def SliceState.initial : SliceState := ⟨[], none, none⟩

def SliceState.ids (s : SliceState) : List TelegramId :=
  s.emitted.map ScannedMessage.telegramId

/-! ## The invariant over slices -/

/-- The slice in progress continues the job. -/
structure Continues (src : SavedMessages) (maxMessages : Nat) (s : SliceState)
    (st : ScanState) : Prop where
  inv : ScanInv (· = src) st
  cursor_eq : st.cursor = s.cursor
  remaining : ∃ q, st.options.maxMessages = some q ∧
    q + s.emitted.length = maxMessages + st.progress.messagesScanned

structure SliceInv (src : SavedMessages) (maxMessages : Nat) (s : SliceState) : Prop where
  ids_eq : s.ids = upTo id s.cursor src.ids
  cursor_ne : s.cursor ≠ some 0
  quota : s.emitted.length ≤ maxMessages
  slice : ∀ st, s.slice = some st → Continues src maxMessages s st

theorem sliceInv_initial (src : SavedMessages) (maxMessages : Nat) :
    SliceInv src maxMessages .initial :=
  ⟨rfl, (fun h : none = some 0 => by cases h), Nat.zero_le _,
    fun _ (h : none = some _) => by cases h⟩

theorem Answer.admissible_truthful {src : SavedMessages} {st : ScanState} {answer : Answer}
    (h : answer.admissible src st = true) : Truthful (· = src) st answer := by
  cases answer with
  | fetched d now rawPage =>
      intro capacity limit hPhase
      simp only [Answer.admissible, hPhase] at h
      exact ⟨src, rfl, of_decide_eq_true h⟩
  | _ => trivial

theorem start_inv {src : SavedMessages} {maxMessages : Nat} {s : SliceState}
    (h : SliceInv src maxMessages s) {options : ScanOptions} (clock : Nat)
    (hValid : (resumeOptions options s.cursor (maxMessages - s.emitted.length)).valid = true) :
    SliceInv src maxMessages { s with
      slice := some (beginScan
        (resumeOptions options s.cursor (maxMessages - s.emitted.length)) clock) } := by
  refine ⟨h.ids_eq, h.cursor_ne, h.quota, ?_⟩
  intro st hst
  cases hst
  refine ⟨beginScan_inv clock hValid h.cursor_ne, rfl, maxMessages - s.emitted.length, rfl, ?_⟩
  have hQuota := h.quota
  show maxMessages - s.emitted.length + s.emitted.length = maxMessages + 0
  omega

/-- A step of the loop that persists no page leaves the job where it was. -/
theorem answer_inv_of_same {src : SavedMessages} {maxMessages : Nat} {s : SliceState}
    {st st' : ScanState} (h : SliceInv src maxMessages s) (hSlice : s.slice = some st)
    (hSame : SameProgress st st') (hInv : ScanInv (· = src) st') :
    SliceInv src maxMessages { s with slice := some st' } := by
  refine ⟨h.ids_eq, h.cursor_ne, h.quota, ?_⟩
  intro st'' hst
  cases hst
  obtain ⟨-, hCursor, q, hq, hRemaining⟩ := h.slice st hSlice
  refine ⟨hInv, hSame.cursor.trans hCursor, q, ?_, ?_⟩
  · rw [hSame.options, hq]
  · rw [hSame.messagesScanned]
    exact hRemaining

/-- A delivered page continues the prefix of the source. -/
theorem delivered_inv {src : SavedMessages} {maxMessages : Nat} {s : SliceState}
    {st st' : ScanState} {page : ScanPage} {reached : Bool} (h : SliceInv src maxMessages s)
    (hSlice : s.slice = some st) (hPhase : st.phase = .delivering page reached)
    (hOptions : st'.options = st.options)
    (hScanned : st'.progress.messagesScanned =
      st.progress.messagesScanned + page.messages.length)
    (hCursor : st'.cursor = page.nextOffsetId) (hInv : ScanInv (· = src) st') :
    SliceInv src maxMessages
      { emitted := s.emitted ++ page.messages, cursor := page.nextOffsetId,
        slice := some st' } := by
  obtain ⟨hInvOld, hCursorOld, q, hq, hRemaining⟩ := h.slice st hSlice
  have hHeld := hInvOld.phase
  rw [hPhase] at hHeld
  obtain ⟨-, hCapacity, _, rfl, hPage, -⟩ := hHeld
  have hScannedLe := hInv.quota q (by rw [hOptions, hq])
  refine ⟨?_, ?_, ?_, ?_⟩
  · rw [hCursorOld] at hPage
    rw [hPage.below_next.2, ← h.ids_eq]
    exact List.map_append
  · intro hZero
    exact absurd (hPage.next_pos hZero) (lt_irrefl 0)
  · rw [List.length_append]
    omega
  · intro st'' hst
    cases hst
    refine ⟨hInv, hCursor, q, by rw [hOptions, hq], ?_⟩
    rw [List.length_append]
    omega

theorem sliceStep_inv {src : SavedMessages} {maxMessages : Nat} {s s' : SliceState}
    {action : SliceAction} (hStep : sliceStep src maxMessages s action = some s')
    (h : SliceInv src maxMessages s) : SliceInv src maxMessages s' := by
  cases action with
  | start options clock =>
      simp only [sliceStep] at hStep
      split at hStep
      · rename_i hGuard
        cases hStep
        rw [Bool.and_eq_true] at hGuard
        exact start_inv h clock hGuard.2
      · cases hStep
  | answer answer =>
      obtain ⟨st, hSlice, hStep⟩ := Option.bind_eq_some_iff.mp hStep
      split at hStep
      · rename_i hAdmissible
        obtain ⟨st', hResume, rfl⟩ := Option.map_eq_some_iff.mp hStep
        have hInv := resume_inv hResume (h.slice st hSlice).inv
          (Answer.admissible_truthful hAdmissible)
        have hProgress := resume_progress hResume
        cases hPage : deliveredPage st answer with
        | none =>
            rw [hPage] at hProgress
            exact answer_inv_of_same h hSlice hProgress hInv
        | some page =>
            rw [hPage] at hProgress
            obtain ⟨hOptions, hScanned, -, hCursor⟩ := hProgress
            obtain ⟨reached, hPhase⟩ := deliveredPage_eq_some hPage
            exact delivered_inv h hSlice hPhase hOptions hScanned hCursor hInv
      · cases hStep
  | leave =>
      obtain ⟨st, hSlice, hStep⟩ := Option.bind_eq_some_iff.mp hStep
      split at hStep
      · cases hStep
      · cases hStep
        exact ⟨h.ids_eq, h.cursor_ne, h.quota, fun _ (h : none = some _) => by cases h⟩

/-- The slices of a job emit a prefix of the source, each message once and in order and
never more than the quota; a slice that returns `sourceExhausted` has emitted all of it. -/
theorem emission_prefix {src : SavedMessages} {maxMessages : Nat} {actions : List SliceAction}
    {s : SliceState}
    (hRun : run (sliceStep src maxMessages) .initial actions = some s) :
    s.ids <+: src.ids ∧ s.ids.Nodup ∧ s.emitted.length ≤ maxMessages ∧
      ∀ st, s.slice = some st → st.phase = .returned .sourceExhausted → s.ids = src.ids := by
  have hInv : SliceInv src maxMessages s :=
    invariant (fun _ _ _ hStep h => sliceStep_inv hStep h) (sliceInv_initial src maxMessages)
      hRun
  have hPrefix : s.ids <+: src.ids := by
    rw [hInv.ids_eq]
    exact upTo_prefix src.ids_descending s.cursor
  refine ⟨hPrefix, ?_, hInv.quota, ?_⟩
  · have hSorted := src.ids_descending.sublist hPrefix.sublist
    exact hSorted.imp (fun h => ne_of_gt h)
  · intro st hSlice hPhase
    obtain ⟨hScan, hCursor, -⟩ := hInv.slice st hSlice
    have hExhausted := hScan.phase
    rw [hPhase] at hExhausted
    obtain ⟨source, (hSource : source = src), hBelow⟩ := hExhausted
    rw [hSource] at hBelow
    have hAll := upTo_append_after src.ids_descending s.cursor
    rw [hCursor] at hBelow
    rw [show after id s.cursor src.ids = [] from hBelow, List.append_nil] at hAll
    rw [hInv.ids_eq, hAll]

/-- Four messages, read with pages of two: the first slice is left after one page, the
second one reads the rest. -/
def fourNotes : SavedMessages :=
  .ofIds (textMessage "note") [9, 7, 5, 2] (by decide) (by decide)

def twoSlices : List SliceAction :=
  let options : ScanOptions := ⟨2, none, none, some 5, some (seconds 30), some 1024⟩
  let page (offset : TelegramId) : List SliceAction :=
    [.answer (.stop 0 false), .answer (.fetched 0 0 (fourNotes.iterMessages offset 3)),
      .answer (.loaded 0 []), .answer (.downloading fun _ _ => .never), .answer (.delivered 0)]
  .start options 0 :: page 0 ++ .leave :: .start options 0 :: page 7

theorem emission_prefix_fourNotes : ∃ s, run (sliceStep fourNotes 4) .initial twoSlices = some s ∧
    (s.ids <+: fourNotes.ids ∧ s.ids.Nodup ∧ s.emitted.length ≤ 4 ∧
      ∀ st, s.slice = some st → st.phase = .returned .sourceExhausted → s.ids = fourNotes.ids) := by
  have hRuns : (run (sliceStep fourNotes 4) .initial twoSlices).isSome = true := by
    decide +kernel
  obtain ⟨s, hRun⟩ := Option.isSome_iff_exists.mp hRuns
  exact ⟨s, hRun, emission_prefix hRun⟩

example : (run (sliceStep fourNotes 4) .initial twoSlices).map
    (fun s => (s.ids, s.slice.map ScanState.phase)) =
    some ([9, 7, 5, 2], some (.returned .sourceExhausted)) := by decide +kernel

end SavedOrganizer
