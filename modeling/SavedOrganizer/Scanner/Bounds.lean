import Mathlib.Algebra.GroupWithZero.Nat
import SavedOrganizer.Library.Transition
import SavedOrganizer.Scanner.Source

/-!
# The scan loop is bounded for any client

Here nothing is assumed of the client: every call of `iter_messages` returns some list of
messages, with any ids, or raises. A `ScanRun` counts the fetches of one call of `scan` and
keeps the pages it hands to `on_page`.

The cursor says nothing about progress then. What bounds the loop are the two counters of
`_record_page`: a page that comes back to the top of the loop was not empty, so it used up
a page and at least one message. `LoopInv` says this phase by phase, and `stepsLeft` is the
measure that every awaited call brings down.
-/

namespace SavedOrganizer

open Transition

/-- How an awaited call ends, and how long it takes. -/
inductive Awaited (α : Type)
  | returns (elapsed : Nat) (value : α)
  | raisesTimeout (elapsed : Nat)
  | raises (elapsed : Nat)

def Awaited.answer {α : Type} (value : Nat → α → Answer) : Awaited α → Answer
  | .returns d x => value d x
  | .raisesTimeout d => .raisesTimeout d
  | .raises d => .raises d

/-- The Telegram client and the callbacks of the service, by the number of calls awaited
before. A fetch comes with the time its messages are normalized at. -/
structure ScanEnvironment where
  shouldStop : Nat → Awaited Bool
  iterMessages : Nat → TelegramId → Nat → Awaited (Instant × List RawMessage)
  loadCachedMedia : Nat → ScanPage → Awaited (List CachedMediaRow)
  downloadMedia : Nat → RawMessage → Option ThumbnailSelector → Download
  onPage : Nat → ScanPage → Awaited Unit

namespace ScanEnvironment

/-- The outcome of the call `st` waits for. -/
def answer (env : ScanEnvironment) (calls : Nat) (st : ScanState) : Option Answer :=
  match st.phase with
  | .polling => some ((env.shouldStop calls).answer .stop)
  | .fetching _ limit =>
      some ((env.iterMessages calls st.previousOffsetId limit).answer
        fun d fetched => .fetched d fetched.1 fetched.2)
  | .loading _ page => some ((env.loadCachedMedia calls page).answer .loaded)
  | .caching _ _ _ => some (.downloading (env.downloadMedia calls))
  | .delivering page _ => some ((env.onPage calls page).answer fun d _ => .delivered d)
  | .returned _ | .raised => none

/-- Every download comes to an end. -/
def Downloads (env : ScanEnvironment) : Prop :=
  ∀ calls raw thumb, env.downloadMedia calls raw thumb ≠ .never

end ScanEnvironment

/-- The fetches of a scan, and the pages passed to `on_page`. -/
structure Tally where
  fetches : Nat
  passed : List ScanPage
  deriving DecidableEq, Repr

/-- The calls made on entering a phase. -/
def Tally.enter (tally : Tally) : ScanPhase → Tally
  | .fetching _ _ => { tally with fetches := tally.fetches + 1 }
  | .delivering page _ => { tally with passed := tally.passed ++ [page] }
  | _ => tally

/-- The messages on a list of pages. -/
def messageCount (pages : List ScanPage) : Nat := (pages.map fun page => page.messages.length).sum

structure ScanRun where
  calls : Nat
  st : ScanState
  tally : Tally
  deriving DecidableEq, Repr

namespace ScanEnvironment

variable (env : ScanEnvironment)

/-- From one awaited call to the next. -/
def next (run : ScanRun) : Option ScanRun :=
  ((env.answer run.calls run.st).bind (resume run.st)).map fun st =>
    { calls := run.calls + 1, st := st, tally := run.tally.enter st.phase }

/-- `scan` after at most `n` awaited calls; `none` when it raises `ValueError` at once. -/
def scan (options : ScanOptions) (clock n : Nat) : Option ScanRun :=
  if options.valid then
    some (runFor env.next n { calls := 0, st := beginScan options clock, tally := ⟨0, []⟩ })
  else none

end ScanEnvironment

/-- The scan has returned or raised. -/
def ScanPhase.ended : ScanPhase → Bool
  | .returned _ | .raised => true
  | _ => false

/-! ## The measure -/

/-- The awaited calls up to the end of a round of the loop, at most. -/
def ScanPhase.rank : ScanPhase → Nat
  | .fetching _ _ => 5
  | .loading _ _ => 4
  | .caching _ _ _ => 3
  | .delivering _ _ => 2
  | .polling => 1
  | .returned _ => 0
  | .raised => 0

section Ranks

variable (st : ScanState)

theorem rank_afterPage (page : ScanPage) (reached : Bool) :
    (st.afterPage page reached).phase.rank ≤ 1 := by
  unfold ScanState.afterPage
  repeat' split
  all_goals simp [ScanState.finish, ScanPhase.rank]

theorem rank_afterPreviews (page : ScanPage) (reached : Bool) :
    (st.afterPreviews page reached).phase.rank ≤ 2 := by
  unfold ScanState.afterPreviews
  split
  · exact (rank_afterPage st page reached).trans (Nat.le_succ 1)
  · exact le_refl 2

theorem rank_afterLoad (rawPage : List RawMessage) (page : ScanPage) :
    (st.afterLoad rawPage page).phase.rank ≤ 3 := by
  unfold ScanState.afterLoad
  split
  · exact (rank_afterPreviews st page false).trans (Nat.le_succ 2)
  · exact le_refl 3

theorem rank_afterFetch (capacity : Nat) (now : Instant) (rawPage : List RawMessage) :
    (st.afterFetch capacity now rawPage).phase.rank ≤ 4 := by
  unfold ScanState.afterFetch
  repeat' split
  all_goals simp [ScanState.finish, ScanState.fail, ScanPhase.rank]

end Ranks

/-- Every awaited call brings the loop nearer to the end of the round, except that the
answer of `should_stop` may start the next fetch. -/
theorem rank_resume {st st' : ScanState} {answer : Answer} (h : resume st answer = some st') :
    st'.phase.rank < st.phase.rank ∨
      (st.phase.rank = 1 ∧ ∃ capacity limit, st'.phase = .fetching capacity limit) := by
  have hFinish (st : ScanState) (reason : ScanReason) : (st.finish reason).phase.rank = 0 := rfl
  have hFail (st : ScanState) : st.fail.phase.rank = 0 := rfl
  unfold resume at h
  split at h
  -- should_stop
  · rename_i d requested hAt
    cases h
    rw [hAt]
    unfold ScanState.afterPoll
    repeat' split
    all_goals first
      | exact Or.inl (by rw [hFinish]; exact Nat.one_pos)
      | exact Or.inr ⟨rfl, _, _, rfl⟩
  · rename_i hAt
    cases h
    rw [hAt]
    exact Or.inl Nat.one_pos
  · rename_i hAt
    cases h
    rw [hAt]
    exact Or.inl Nat.one_pos
  -- _fetch_page
  · rename_i capacity limit d now rawPage hAt
    rw [hAt]
    left
    split at h <;> cases h
    · exact Nat.lt_succ_of_le (rank_afterFetch _ capacity now rawPage)
    · exact Nat.succ_pos _
  · rename_i hAt
    cases h
    rw [hAt]
    exact Or.inl (Nat.succ_pos _)
  · rename_i hAt
    rw [hAt]
    left
    split at h <;> cases h <;> exact Nat.succ_pos _
  -- load_cached_media
  · rename_i rawPage page d rows hAt
    rw [hAt]
    left
    split at h <;> cases h
    · exact Nat.lt_succ_of_le (rank_afterLoad _ rawPage _)
    · exact Nat.succ_pos _
  · rename_i hAt
    cases h
    rw [hAt]
    exact Or.inl (Nat.succ_pos _)
  · rename_i hAt
    rw [hAt]
    left
    split at h <;> cases h <;> exact Nat.succ_pos _
  -- download_media
  · rename_i rawPage page maxBytes downloadMedia hAt
    obtain ⟨⟨cached, reached, clock⟩, -, hEq⟩ := Option.map_eq_some_iff.mp h
    cases hEq
    rw [hAt]
    exact Or.inl (Nat.lt_succ_of_le (rank_afterPreviews _ cached reached))
  -- on_page
  · rename_i page reached d hAt
    cases h
    rw [hAt]
    exact Or.inl (Nat.lt_succ_of_le (rank_afterPage _ page reached))
  · rename_i hAt
    cases h
    rw [hAt]
    exact Or.inl (Nat.succ_pos _)
  · rename_i hAt
    cases h
    rw [hAt]
    exact Or.inl (Nat.succ_pos _)
  · cases h

/-! ## The invariant -/

section Invariant

variable {M P : Nat} {tally : Tally} {st : ScanState}

/-- What is promised of the calls at any time. -/
structure WithinBounds (M P : Nat) (tally : Tally) : Prop where
  fetches : tally.fetches ≤ min M P
  pages : tally.passed.length ≤ min M P
  messages : messageCount tally.passed ≤ M

/-- Every page passed so far is recorded, and none of them was empty. -/
structure Recorded (M P : Nat) (passed : List ScanPage) (options : ScanOptions)
    (progress : ScanProgress) : Prop where
  maxMessages : options.maxMessages = some M
  maxPages : options.maxPages = some P
  pageSize : 0 < options.pageSize
  pages : passed.length = progress.pagesScanned
  messages : messageCount passed = progress.messagesScanned
  nonempty : progress.pagesScanned ≤ progress.messagesScanned
  quota : progress.messagesScanned ≤ M
  limit : progress.pagesScanned ≤ P

/-- A round of the loop has begun: its fetch is made, and its page has room. -/
structure Begun (M P : Nat) (fetches : Nat) (passed : List ScanPage) (options : ScanOptions)
    (progress : ScanProgress) : Prop extends Recorded M P passed options progress where
  fetched : fetches = progress.pagesScanned + 1
  open_pages : progress.pagesScanned < P
  open_messages : progress.messagesScanned < M

/-- The page in hand has messages, and no more than are left of the quota. -/
structure Fits (M : Nat) (page : ScanPage) (progress : ScanProgress) : Prop where
  some : 0 < page.messages.length
  room : progress.messagesScanned + page.messages.length ≤ M

/-- The invariant of the loop. -/
def LoopInv (M P : Nat) (tally : Tally) (st : ScanState) : Prop :=
  match st.phase with
  | .polling => Recorded M P tally.passed st.options st.progress ∧
      tally.fetches = st.progress.pagesScanned
  | .fetching capacity _ => Begun M P tally.fetches tally.passed st.options st.progress ∧
      0 < capacity ∧ st.progress.messagesScanned + capacity ≤ M
  | .loading rawPage page | .caching rawPage page _ =>
      Begun M P tally.fetches tally.passed st.options st.progress ∧
        Fits M page st.progress ∧ rawPage.length = page.messages.length
  | .delivering page _ => ∃ passed, tally.passed = passed ++ [page] ∧
      Begun M P tally.fetches passed st.options st.progress ∧ Fits M page st.progress
  | .returned _ | .raised => WithinBounds M P tally

theorem messageCount_concat (passed : List ScanPage) (page : ScanPage) :
    messageCount (passed ++ [page]) = messageCount passed + page.messages.length := by
  simp [messageCount]

section Within

variable {options : ScanOptions} {progress : ScanProgress}

theorem Recorded.within (h : Recorded M P tally.passed options progress)
    (hFetches : tally.fetches = progress.pagesScanned) : WithinBounds M P tally := by
  obtain ⟨-, -, -, hPages, hMessages, hSome, hQuota, hLimit⟩ := h
  constructor <;> omega

theorem Begun.within (h : Begun M P tally.fetches tally.passed options progress) :
    WithinBounds M P tally := by
  obtain ⟨⟨-, -, -, hPages, hMessages, hSome, hQuota, hLimit⟩, hFetched, hOpen, hRoom⟩ := h
  constructor <;> omega

/-- What `_record_page` does to the counters, once `on_page` has the page. -/
theorem Begun.record {fetches : Nat} {passed : List ScanPage} {page : ScanPage}
    (h : Begun M P fetches passed options progress) (hFits : Fits M page progress) :
    Recorded M P (passed ++ [page]) options (recordPage progress page) ∧
      fetches = (recordPage progress page).pagesScanned := by
  obtain ⟨⟨hM, hP, hSize, hPages, hMessages, hSome, hQuota, hLimit⟩, hFetched, hOpen, -⟩ := h
  obtain ⟨hOne, hRoom⟩ := hFits
  have hCount := messageCount_concat passed page
  refine ⟨⟨hM, hP, hSize, ?_, ?_, ?_, hRoom, hOpen⟩, hFetched⟩
  · rw [List.length_append, List.length_singleton, hPages]
    rfl
  · rw [hCount, hMessages]
    rfl
  · show progress.pagesScanned + 1 ≤ progress.messagesScanned + page.messages.length
    omega

end Within

/-- The bounds hold in every phase. -/
theorem LoopInv.within (h : LoopInv M P tally st) : WithinBounds M P tally := by
  unfold LoopInv at h
  split at h
  · exact h.1.within h.2
  · exact h.1.within
  · exact h.1.within
  · exact h.1.within
  · obtain ⟨passed, hPassed, hBegun, hFits⟩ := h
    obtain ⟨hRecorded, hFetches⟩ := hBegun.record hFits
    rw [← hPassed] at hRecorded
    exact hRecorded.within hFetches
  · exact h
  · exact h

/-! ## From one call to the next -/

theorem loopInv_finish (h : WithinBounds M P tally) (reason : ScanReason) :
    LoopInv M P (tally.enter (st.finish reason).phase) (st.finish reason) := h

theorem loopInv_fail (h : WithinBounds M P tally) :
    LoopInv M P (tally.enter st.fail.phase) st.fail := h

theorem loopInv_afterPoll (st : ScanState)
    (h : Recorded M P tally.passed st.options st.progress)
    (hFetches : tally.fetches = st.progress.pagesScanned) (requested : Bool) :
    LoopInv M P (tally.enter (st.afterPoll requested).phase) (st.afterPoll requested) := by
  have hWithin := h.within hFetches
  unfold ScanState.afterPoll
  split
  · exact loopInv_finish hWithin _
  split
  · exact loopInv_finish hWithin _
  split
  · exact loopInv_finish hWithin _
  split
  · exact loopInv_finish hWithin _
  · rename_i hMessages hPages _
    rw [h.maxMessages, Option.any_some, decide_eq_true_eq, not_le] at hMessages
    rw [h.maxPages, Option.any_some, decide_eq_true_eq, not_le] at hPages
    have hCapacity : st.pageCapacity = min st.options.pageSize (M - st.progress.messagesScanned) := by
      rw [ScanState.pageCapacity, h.maxMessages]
    have hSize := h.pageSize
    refine ⟨⟨h, ?_, hPages, hMessages⟩, ?_, ?_⟩
    · show tally.fetches + 1 = st.progress.pagesScanned + 1
      rw [hFetches]
    · omega
    · show st.progress.messagesScanned + st.pageCapacity ≤ M
      omega

theorem loopInv_afterFetch (st : ScanState) {capacity : Nat}
    (h : Begun M P tally.fetches tally.passed st.options st.progress) (hSome : 0 < capacity)
    (hRoom : st.progress.messagesScanned + capacity ≤ M) (now : Instant)
    (rawPage : List RawMessage) :
    LoopInv M P (tally.enter (st.afterFetch capacity now rawPage).phase)
      (st.afterFetch capacity now rawPage) := by
  unfold ScanState.afterFetch
  split
  · exact loopInv_finish h.within _
  · rename_i hRaw
    split
    · exact loopInv_fail h.within
    · rename_i page hBuild
      split
      · exact loopInv_finish h.within _
      · have hLength := (mapM_normalizeMessage (buildPage_eq_ok hBuild).1).1
        have hPos : 0 < rawPage.length := by
          rw [List.isEmpty_iff] at hRaw
          exact List.length_pos_iff.mpr hRaw
        rw [List.length_take] at hLength
        refine ⟨h, ⟨?_, ?_⟩, ?_⟩
        · omega
        · show st.progress.messagesScanned + page.messages.length ≤ M
          omega
        · rw [List.length_take]
          exact hLength.symm

theorem loopInv_afterPage (h : Recorded M P tally.passed st.options st.progress)
    (hFetches : tally.fetches = st.progress.pagesScanned) (page : ScanPage) (reached : Bool) :
    LoopInv M P (tally.enter (st.afterPage page reached).phase) (st.afterPage page reached) := by
  unfold ScanState.afterPage
  split
  · exact loopInv_finish (h.within hFetches) _
  split
  · exact loopInv_finish (h.within hFetches) _
  split
  · exact loopInv_finish (h.within hFetches) _
  split
  · exact loopInv_finish (h.within hFetches) _
  · exact ⟨h, hFetches⟩

/-- An empty page does not come back to the top of the loop. -/
theorem loopInv_afterPreviews {page : ScanPage} {reached : Bool}
    (h : Begun M P tally.fetches tally.passed st.options st.progress)
    (hFits : page.messages ≠ [] → Fits M page st.progress)
    (hEmpty : page.messages = [] → reached = true) :
    LoopInv M P (tally.enter (st.afterPreviews page reached).phase)
      (st.afterPreviews page reached) := by
  unfold ScanState.afterPreviews
  split
  · rename_i hNil
    rw [ScanState.afterPage, if_pos (hEmpty (List.isEmpty_iff.mp hNil))]
    exact loopInv_finish h.within _
  · rename_i hSome
    rw [List.isEmpty_iff] at hSome
    exact ⟨tally.passed, rfl, h, hFits hSome⟩

theorem loopInv_afterLoad {rawPage : List RawMessage} {page : ScanPage}
    (h : Begun M P tally.fetches tally.passed st.options st.progress)
    (hFits : Fits M page st.progress) (hLength : rawPage.length = page.messages.length) :
    LoopInv M P (tally.enter (st.afterLoad rawPage page).phase) (st.afterLoad rawPage page) := by
  unfold ScanState.afterLoad
  split
  · refine loopInv_afterPreviews h (fun _ => hFits) (fun hNil => ?_)
    have hSome := hFits.some
    rw [hNil] at hSome
    exact absurd hSome (lt_irrefl 0)
  · exact ⟨h, hFits, hLength⟩

theorem length_withCachedMedia (rows : List CachedMediaRow) (page : ScanPage) :
    (withCachedMedia rows page).messages.length = page.messages.length := by
  rw [← ScanPage.ids_length, withCachedMedia_ids, ScanPage.ids_length]

/-- The previews leave a page of the same length, or cut it short at the deadline. -/
theorem length_cacheMediaPreviews {rawPage : List RawMessage} {page cached : ScanPage}
    {downloadMedia : RawMessage → Option ThumbnailSelector → Download} {reached : Bool}
    {maxBytes clock clock' : Nat} {deadline : Option Nat}
    (hLength : rawPage.length = page.messages.length)
    (h : cacheMediaPreviews downloadMedia rawPage page maxBytes deadline clock =
      some (cached, reached, clock')) :
    cached.messages.length ≤ page.messages.length ∧
      (reached = false → cached.messages.length = page.messages.length) := by
  obtain ⟨⟨messages, r, c⟩, hEnrich, hEq⟩ := Option.map_eq_some_iff.mp h
  obtain ⟨hPrefix, hAll⟩ := enrichMessages_ids hEnrich
  have hZip : (rawPage.zip page.messages).length = page.messages.length := by
    rw [List.length_zip, hLength, Nat.min_self]
  have hLe := hPrefix.length_le
  rw [List.length_map, List.length_map, hZip] at hLe
  cases r with
  | true =>
      cases hEq
      exact ⟨hLe, fun hFalse => by cases hFalse⟩
  | false =>
      cases hEq
      have hSame := congrArg List.length (hAll rfl)
      rw [List.length_map, List.length_map, hZip] at hSame
      exact ⟨hLe, fun _ => hSame⟩

/-- Every answer of an awaited call keeps the invariant. -/
theorem loopInv_resume {st' : ScanState} {answer : Answer} (h : LoopInv M P tally st)
    (hStep : resume st answer = some st') : LoopInv M P (tally.enter st'.phase) st' := by
  have hWithin := h.within
  unfold LoopInv at h
  unfold resume at hStep
  split at hStep
  -- should_stop
  · rename_i d requested hAt
    cases hStep
    simp only [hAt] at h
    exact loopInv_afterPoll (st.elapse d) h.1 h.2 requested
  · cases hStep
    exact loopInv_fail hWithin
  · cases hStep
    exact loopInv_fail hWithin
  -- _fetch_page
  · rename_i capacity limit d now rawPage hAt
    simp only [hAt] at h
    obtain ⟨hBegun, hSome, hRoom⟩ := h
    split at hStep <;> cases hStep
    · exact loopInv_afterFetch (st.elapse d) hBegun hSome hRoom now rawPage
    · exact loopInv_finish hWithin _
  · cases hStep
    exact loopInv_finish hWithin _
  · split at hStep <;> cases hStep
    · exact loopInv_fail hWithin
    · exact loopInv_finish hWithin _
  -- load_cached_media
  · rename_i rawPage page d rows hAt
    simp only [hAt] at h
    obtain ⟨hBegun, hFits, hLength⟩ := h
    have hSame := length_withCachedMedia rows page
    split at hStep <;> cases hStep
    · refine loopInv_afterLoad hBegun ⟨?_, ?_⟩ (hLength.trans hSame.symm)
      · rw [hSame]
        exact hFits.some
      · rw [hSame]
        exact hFits.room
    · exact loopInv_finish hWithin _
  · cases hStep
    exact loopInv_finish hWithin _
  · split at hStep <;> cases hStep
    · exact loopInv_fail hWithin
    · exact loopInv_finish hWithin _
  -- download_media
  · rename_i rawPage page maxBytes downloadMedia hAt
    simp only [hAt] at h
    obtain ⟨hBegun, hFits, hLength⟩ := h
    obtain ⟨⟨cached, reached, clock⟩, hCached, hEq⟩ := Option.map_eq_some_iff.mp hStep
    cases hEq
    obtain ⟨hLe, hSame⟩ := length_cacheMediaPreviews hLength hCached
    have hSome := hFits.some
    have hRoom := hFits.room
    refine loopInv_afterPreviews hBegun
      (fun hNe => ⟨List.length_pos_iff.mpr hNe, ?_⟩) (fun hNil => ?_)
    · show st.progress.messagesScanned + cached.messages.length ≤ M
      omega
    · by_contra hReached
      rw [Bool.not_eq_true] at hReached
      have hZero := hSame hReached
      rw [hNil, List.length_nil] at hZero
      omega
  -- on_page
  · rename_i page reached d hAt
    simp only [hAt] at h
    obtain ⟨passed, hPassed, hBegun, hFits⟩ := h
    obtain ⟨hRecorded, hFetches⟩ := hBegun.record hFits
    rw [← hPassed] at hRecorded
    cases hStep
    exact loopInv_afterPage hRecorded hFetches page reached
  · cases hStep
    exact loopInv_fail hWithin
  · cases hStep
    exact loopInv_fail hWithin
  · cases hStep

end Invariant

/-! ## The end of the loop -/

section Deadline

variable (st : ScanState)

theorem deadline_afterPage (page : ScanPage) (reached : Bool) :
    (st.afterPage page reached).deadline = st.deadline := by
  unfold ScanState.afterPage
  repeat' split
  all_goals rfl

theorem deadline_afterPreviews (page : ScanPage) (reached : Bool) :
    (st.afterPreviews page reached).deadline = st.deadline := by
  unfold ScanState.afterPreviews
  split
  · exact deadline_afterPage st page reached
  · rfl

theorem deadline_afterLoad (rawPage : List RawMessage) (page : ScanPage) :
    (st.afterLoad rawPage page).deadline = st.deadline := by
  unfold ScanState.afterLoad
  split
  · exact deadline_afterPreviews st page false
  · rfl

theorem deadline_afterFetch (capacity : Nat) (now : Instant) (rawPage : List RawMessage) :
    (st.afterFetch capacity now rawPage).deadline = st.deadline := by
  unfold ScanState.afterFetch
  repeat' split
  all_goals rfl

theorem deadline_afterPoll (requested : Bool) :
    (st.afterPoll requested).deadline = st.deadline := by
  unfold ScanState.afterPoll
  repeat' split
  all_goals rfl

end Deadline

/-- The deadline of a scan stands. -/
theorem deadline_resume {st st' : ScanState} {answer : Answer} (h : resume st answer = some st') :
    st'.deadline = st.deadline := by
  unfold resume at h
  split at h
  · cases h
    exact deadline_afterPoll _ _
  · cases h
    rfl
  · cases h
    rfl
  · split at h <;> cases h
    · exact deadline_afterFetch _ _ _ _
    · rfl
  · cases h
    rfl
  · split at h <;> cases h <;> rfl
  · split at h <;> cases h
    · exact deadline_afterLoad _ _ _
    · rfl
  · cases h
    rfl
  · split at h <;> cases h <;> rfl
  · obtain ⟨⟨cached, reached, clock⟩, -, hEq⟩ := Option.map_eq_some_iff.mp h
    cases hEq
    exact deadline_afterPreviews { st with clock := clock } cached reached
  · cases h
    exact deadline_afterPage _ _ _
  · cases h
    rfl
  · cases h
    rfl
  · cases h

section Bounds

variable {env : ScanEnvironment} {M P : Nat}

theorem next_eq_some {run run' : ScanRun} (h : env.next run = some run') :
    ∃ answer, resume run.st answer = some run'.st ∧ run'.tally = run.tally.enter run'.st.phase := by
  obtain ⟨st, hBind, rfl⟩ := Option.map_eq_some_iff.mp h
  obtain ⟨answer, -, hResume⟩ := Option.bind_eq_some_iff.mp hBind
  exact ⟨answer, hResume, rfl⟩

/-- The awaited calls left at most. -/
def stepsLeftWithin (bound : Nat) (run : ScanRun) : Nat :=
  5 * (bound - run.tally.fetches) + run.st.phase.rank

theorem stepsLeftWithin_next {run run' : ScanRun} (h : env.next run = some run')
    (hInv : LoopInv M P run.tally run.st) :
    stepsLeftWithin (min M P) run' < stepsLeftWithin (min M P) run := by
  obtain ⟨answer, hResume, hTally⟩ := next_eq_some h
  have hInv' := loopInv_resume hInv hResume
  have hFetches := hInv'.within.fetches
  unfold stepsLeftWithin
  rw [hTally]
  rcases rank_resume hResume with hLt | ⟨hRank, capacity, limit, hAt⟩
  · have hSame : run.tally.fetches ≤ (run.tally.enter run'.st.phase).fetches := by
      unfold Tally.enter
      split
      · exact Nat.le_succ _
      · exact le_refl _
      · exact le_refl _
    omega
  · rw [hAt] at hFetches ⊢
    have hNext : (run.tally.enter (.fetching capacity limit)).fetches = run.tally.fetches + 1 := rfl
    have hFive : (ScanPhase.fetching capacity limit).rank = 5 := rfl
    omega

/-- A scan waits for ever on nothing but a download that never ends. -/
theorem ended_of_halted {run : ScanRun} (h : env.next run = none)
    (hEnds : run.st.deadline.isSome = true ∨ env.Downloads) : run.st.phase.ended = true := by
  unfold ScanEnvironment.next ScanEnvironment.answer at h
  rw [Option.map_eq_none_iff] at h
  cases hAt : run.st.phase with
  | polling =>
      simp only [hAt, Option.bind_some] at h
      cases hCall : env.shouldStop run.calls <;>
        simp only [hCall, Awaited.answer, resume, hAt] at h <;> cases h
  | fetching capacity limit =>
      simp only [hAt, Option.bind_some] at h
      cases hCall : env.iterMessages run.calls run.st.previousOffsetId limit <;>
        simp only [hCall, Awaited.answer, resume, hAt] at h <;> (try split at h) <;> cases h
  | loading rawPage page =>
      simp only [hAt, Option.bind_some] at h
      cases hCall : env.loadCachedMedia run.calls page <;>
        simp only [hCall, Awaited.answer, resume, hAt] at h <;> (try split at h) <;> cases h
  | caching rawPage page maxBytes =>
      simp only [hAt, Option.bind_some, resume, cacheMediaPreviews, Option.map_eq_none_iff] at h
      have hSome := enrichMessages_isSome (hEnds.imp_right (· run.calls)) maxBytes
        (rawPage.zip page.messages) run.st.clock
      rw [h] at hSome
      cases hSome
  | delivering page reached =>
      simp only [hAt, Option.bind_some] at h
      cases hCall : env.onPage run.calls page <;>
        simp only [hCall, Awaited.answer, resume, hAt] at h <;> cases h
  | returned reason => rfl
  | raised => rfl

/-- The scan at work: the loop's invariant, and a deadline when `timeout` sets one. -/
structure AtWork (M P : Nat) (timed : Bool) (run : ScanRun) : Prop where
  loop : LoopInv M P run.tally run.st
  deadline : run.st.deadline.isSome = timed

theorem atWork_next {timed : Bool} {run run' : ScanRun} (h : env.next run = some run')
    (hRun : AtWork M P timed run) : AtWork M P timed run' := by
  obtain ⟨answer, hResume, hTally⟩ := next_eq_some h
  refine ⟨?_, ?_⟩
  · rw [hTally]
    exact loopInv_resume hRun.loop hResume
  · rw [deadline_resume hResume]
    exact hRun.deadline

theorem atWork_begin {options : ScanOptions} (clock : Nat) (hM : options.maxMessages = some M)
    (hP : options.maxPages = some P) (hValid : options.valid = true) :
    AtWork M P options.timeout.isSome
      { calls := 0, st := beginScan options clock, tally := ⟨0, []⟩ } := by
  simp only [ScanOptions.valid, Bool.and_eq_true, decide_eq_true_eq] at hValid
  refine ⟨⟨⟨hM, hP, hValid.1.1.1.1, rfl, rfl, le_refl 0, Nat.zero_le M, Nat.zero_le P⟩, rfl⟩, ?_⟩
  exact Option.isSome_map

/-- Whatever the client and the callbacks do, a scan with the limits `M` and `P` makes at most
`min M P` fetches and passes at most `min M P` pages with at most `M` messages to `on_page`;
after `5 * min M P + 1` awaited calls it has returned or raised. Only a scan without `timeout`
may wait for ever, on a download that never ends. -/
theorem scan_bounded (env : ScanEnvironment) (pageSize M P : Nat)
    (startOffsetId : Option TelegramId) (timeout mediaCacheMaxBytes : Option Nat)
    (clock n : Nat) :
    ∀ run ∈ env.scan ⟨pageSize, startOffsetId, some M, some P, timeout, mediaCacheMaxBytes⟩ clock n,
      run.tally.fetches ≤ min M P ∧ run.tally.passed.length ≤ min M P ∧
        messageCount run.tally.passed ≤ M ∧
        (5 * min M P + 1 ≤ n →
          run.st.phase.ended = true ∨ (timeout = none ∧ ¬ env.Downloads)) := by
  intro run hRun
  unfold ScanEnvironment.scan at hRun
  split at hRun
  · rename_i hValid
    cases hRun
    have hBegin := atWork_begin clock rfl rfl hValid
    have hKeep (s t : ScanRun) (h : env.next s = some t) (hs : AtWork M P timeout.isSome s) :
        AtWork M P timeout.isSome t := atWork_next h hs
    have hEnd := runFor_inv hKeep n hBegin
    have hWithin := hEnd.loop.within
    refine ⟨hWithin.fetches, hWithin.pages, hWithin.messages, fun hn => ?_⟩
    have hHalted := runFor_halts hKeep
      (fun s t h (hs : AtWork M P timeout.isSome s) => stepsLeftWithin_next h hs.loop) hBegin hn
    by_cases hEnds : timeout.isSome = true ∨ env.Downloads
    · left
      apply ended_of_halted hHalted
      rw [hEnd.deadline]
      exact hEnds
    · right
      rw [not_or, Option.not_isSome_iff_eq_none] at hEnds
      exact hEnds
  · cases hRun

/-- A client that answers every fetch with the same three ascending messages, whatever the
offset and the limit, and whose downloads never end. -/
def repeatingClient : ScanEnvironment where
  shouldStop _ := .returns 1 false
  iterMessages _ _ _ :=
    .returns 1 (0, [2, 5, 2].map fun n => { textMessage "note" with id := .int n })
  loadCachedMedia _ _ := .returns 1 []
  downloadMedia _ _ _ := .never
  onPage _ _ := .returns 1 ()

theorem scan_bounded_repeating : ∃ run,
    repeatingClient.scan ⟨2, none, some 9, some 2, some (seconds 30), some 1024⟩ 0 11 = some run ∧
      run.tally.fetches ≤ 2 ∧ run.tally.passed.length ≤ 2 ∧
        messageCount run.tally.passed ≤ 9 ∧ run.st.phase.ended = true := by
  obtain ⟨run, hRun⟩ := Option.isSome_iff_exists.mp (show (repeatingClient.scan
    ⟨2, none, some 9, some 2, some (seconds 30), some 1024⟩ 0 11).isSome = true by decide +kernel)
  obtain ⟨hFetches, hPages, hMessages, hEnd⟩ := scan_bounded repeatingClient 2 9 2 none
    (some (seconds 30)) (some 1024) 0 11 run hRun
  exact ⟨run, hRun, hFetches, hPages, hMessages,
    (hEnd (le_refl 11)).resolve_right (fun hNone => Option.some_ne_none _ hNone.1)⟩

end Bounds

end SavedOrganizer
