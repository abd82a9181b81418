import Mathlib.Data.List.Destutter
import SavedOrganizer.Python.Text
import SavedOrganizer.System.World

/-!
# The status event stream

What `scan_status_stream` sends. Its generator polls the latest job of the user, sends the
response when it differs from the last one it sent, and ends with the first response of a scan
that is over, or with the last event the request asked for. A silent stream sends a keep-alive.

Every response that is not the last one before it is sent, so the events of a stream are its
polled responses without repetitions (`stream_delivers_changes`).
-/

namespace SavedOrganizer

open Python

def STREAM_HEARTBEAT_SECONDS : Nat := 15
def STREAM_KEEPALIVE_SECONDS : Nat := 15

/-- `ScanState` of the response: no job, or the state of the job. -/
inductive StatusState
  | idle
  | job (state : ScanJobState)
  deriving DecidableEq, Repr

/-- `ScanStatusResponse`: latest durable scan state for the authenticated user. -/
structure ScanStatusResponse where
  jobId : Option JobId
  state : StatusState
  stopRequested : Bool
  messagesScanned : Nat
  pagesScanned : Nat
  pageSize : Nat
  maxMessages : Option Nat
  maxRuntimeSeconds : Option Nat
  lastMessageId : Option TelegramId
  startedAt : Option Instant
  finishedAt : Option Instant
  error : Option String
  completionReason : Option CompletionReason
  deriving DecidableEq, Repr

namespace ScanStatusResponse

/-- The defaults of the fields. -/
def initial : ScanStatusResponse :=
  ⟨none, .idle, false, 0, 0, 100, none, none, none, none, none, none, none⟩

/-- `from_job`. -/
def fromJob : Option ScanJob → ScanStatusResponse
  | none => initial
  | some job =>
      { jobId := some job.id
        state := .job job.state
        stopRequested := job.stopRequested
        messagesScanned := job.messagesScanned
        pagesScanned := job.pagesScanned
        pageSize := job.pageSize
        maxMessages := some job.maxMessages
        maxRuntimeSeconds := some job.maxRuntimeSeconds
        lastMessageId := job.lastMessageId
        startedAt := job.startedAt
        finishedAt := job.finishedAt
        error := if job.state = .failed then some SCAN_FAILURE_MESSAGE else none
        completionReason := job.completionReason }

/-- The state is one of `ACTIVE_STREAM_STATES`. -/
def active (response : ScanStatusResponse) : Bool :=
  match response.state with
  | .idle => false
  | .job state => state.active

end ScanStatusResponse

/-- `model_dump_json`, of which is needed that the state can be read back. -/
structure JsonDump where
  dump : ScanStatusResponse → Text
  state_of_dump : ∀ a b, dump a = dump b → a.state = b.state

/-- The values of `ScanState`. -/
def StatusState.value : StatusState → Text
  | .idle => "idle".toList
  | .job .pending => "pending".toList
  | .job .running => "running".toList
  | .job .stopping => "stopping".toList
  | .job .completed => "completed".toList
  | .job .failed => "failed".toList
  | .job .cancelled => "cancelled".toList

theorem StatusState.value_injective : Function.Injective StatusState.value := by
  intro a b h
  rcases a with _ | a <;> rcases b with _ | b <;> (try cases a) <;> (try cases b) <;>
    first | rfl | (revert h; decide)

theorem JsonDump.active_of_dump (json : JsonDump) {a b : ScanStatusResponse}
    (h : json.dump a = json.dump b) : a.active = b.active := by
  rw [ScanStatusResponse.active, json.state_of_dump a b h]
  rfl

/-- What the generator yields. -/
inductive StreamChunk
  | status (payload : Text)
  | keepAlive
  deriving DecidableEq, Repr

namespace StreamChunk

/-- The text that is sent, for an event the one of `_format_sse_event`. -/
def text : StreamChunk → Text
  | .status payload => "event: status\ndata: ".toList ++ payload ++ "\n\n".toList
  | .keepAlive => ": keep-alive\n\n".toList

def payload? : StreamChunk → Option Text
  | .status payload => some payload
  | .keepAlive => none

end StreamChunk

/-- `max_events` as `Query(ge=1, le=500)` admits it. -/
abbrev MaxEvents := Option { n : Nat // 1 ≤ n ∧ n ≤ 500 }

/-- As many of the events as the request asked for. -/
def MaxEvents.cut (maxEvents : MaxEvents) (events : List Text) : List Text :=
  match maxEvents with
  | none => events
  | some n => events.take n.val

/-- The variables of `event_stream`, and the last response it sent. -/
structure EventLoop where
  lastPayload : Option Text
  lastEmittedAt : Instant
  emittedEvents : Nat
  nextHeartbeatAt : Instant
  deriving DecidableEq, Repr

namespace EventLoop

def start (now : Instant) : EventLoop := ⟨none, now, 0, now + seconds STREAM_HEARTBEAT_SECONDS⟩

def heartbeatDue (now : Instant) (loop : EventLoop) : Bool := loop.nextHeartbeatAt ≤ now

/-- After a heartbeat that found the session active and renewed the slot. -/
def heartbeat (now : Instant) (loop : EventLoop) : EventLoop :=
  { loop with nextHeartbeatAt := now + seconds STREAM_HEARTBEAT_SECONDS }

def emit (now : Instant) (payload : Text) (loop : EventLoop) : EventLoop :=
  { loop with
    lastPayload := some payload
    lastEmittedAt := now
    emittedEvents := loop.emittedEvents + 1 }

variable (json : JsonDump) (maxEvents : MaxEvents)

/-- The event is the last one. -/
def lastEvent (response : ScanStatusResponse) (loop : EventLoop) : Bool :=
  maxEvents.any (fun n => n.val ≤ loop.emittedEvents) || !response.active

/-- A turn of the loop from the poll on: what it yields, and the variables when it goes on. -/
def poll (now : Instant) (response : ScanStatusResponse) (loop : EventLoop) :
    Option StreamChunk × Option EventLoop :=
  let payload := json.dump response
  if some payload ≠ loop.lastPayload then
    let emitted := loop.emit now payload
    (some (.status payload), if emitted.lastEvent maxEvents response then none else some emitted)
  else if loop.lastEmittedAt + seconds STREAM_KEEPALIVE_SECONDS ≤ now then
    (some .keepAlive, some { loop with lastEmittedAt := now })
  else (none, some loop)

/-- What a stream yields that finds these responses at these times. -/
def deliver : EventLoop → List (Instant × ScanStatusResponse) → List StreamChunk
  | _, [] => []
  | loop, (now, response) :: polls =>
      match loop.poll json maxEvents now response with
      | (chunk, none) => chunk.toList
      | (chunk, some next) => chunk.toList ++ next.deliver polls

end EventLoop

/-! ## The events of a stream -/

section Events

variable {json : JsonDump} {maxEvents : MaxEvents} {loop : EventLoop}

open EventLoop

/-- The elements up to the first one that fails `p`, with it. -/
def throughFirst {α : Type} (p : α → Bool) : List α → List α
  | [] => []
  | x :: xs => if p x then x :: throughFirst p xs else [x]

/-- The payloads that differ from the one before them, where the first is compared with
`previous`. -/
def changes : Option Text → List Text → List Text
  | _, [] => []
  | previous, payload :: rest =>
      if some payload ≠ previous then payload :: changes (some payload) rest
      else changes previous rest

theorem changes_some (payload : Text) (rest : List Text) :
    payload :: changes (some payload) rest = rest.destutter' (· ≠ ·) payload := by
  induction rest generalizing payload with
  | nil => rfl
  | cons next rest ih =>
      rw [List.destutter'_cons, changes]
      by_cases hNext : next = payload
      · rw [if_neg (not_not.mpr (congrArg some hNext)), if_neg (not_not.mpr hNext.symm)]
        exact ih payload
      · rw [if_pos fun h => hNext (Option.some.inj h), if_pos (Ne.symm hNext), ih next]

theorem changes_none (payloads : List Text) : changes none payloads = payloads.destutter (· ≠ ·) := by
  cases payloads with
  | nil => rfl
  | cons payload rest =>
      rw [changes, if_pos (Option.some_ne_none _), List.destutter_cons', changes_some]

/-- The last payload sent was one of a scan that goes on. -/
def StillActive (json : JsonDump) (loop : EventLoop) : Prop :=
  ∀ response, loop.lastPayload = some (json.dump response) → response.active = true

/-- The events that are left. -/
def eventsLeft (maxEvents : MaxEvents) (loop : EventLoop) (payloads : List Text) : List Text :=
  match maxEvents with
  | none => payloads
  | some n => payloads.take (n.val - loop.emittedEvents)

def withinLimit (maxEvents : MaxEvents) (loop : EventLoop) : Prop :=
  ∀ n ∈ maxEvents, loop.emittedEvents < n.val

theorem eventsLeft_cons (hLimit : withinLimit maxEvents loop) (payload : Text)
    (payloads : List Text) (now : Instant) :
    eventsLeft maxEvents loop (payload :: payloads) =
      payload :: eventsLeft maxEvents (loop.emit now payload) payloads := by
  cases maxEvents with
  | none => rfl
  | some n =>
      have hLt := hLimit n rfl
      show (payload :: payloads).take (n.val - loop.emittedEvents) =
        payload :: payloads.take (n.val - (loop.emittedEvents + 1))
      rw [show n.val - loop.emittedEvents = n.val - (loop.emittedEvents + 1) + 1 by omega,
        List.take_succ_cons]

theorem eventsLeft_of_last (hLast : maxEvents.any (fun n => n.val ≤ loop.emittedEvents) = true)
    (payloads : List Text) : eventsLeft maxEvents loop payloads = [] := by
  obtain ⟨n, rfl, hLe⟩ := (Option.any_eq_true _ _).mp hLast
  show payloads.take (n.val - loop.emittedEvents) = []
  rw [Nat.sub_eq_zero_of_le (of_decide_eq_true hLe), List.take_zero]

/-- From any point of the loop, the events are the changes among the responses up to the first
one of a scan that is over, as many as the request still takes. -/
theorem deliver_events (polls : List (Instant × ScanStatusResponse))
    (hContinues : StillActive json loop) (hLimit : withinLimit maxEvents loop) :
    (loop.deliver json maxEvents polls).filterMap StreamChunk.payload? =
      eventsLeft maxEvents loop (changes loop.lastPayload
        ((throughFirst ScanStatusResponse.active (polls.map Prod.snd)).map json.dump)) := by
  induction polls generalizing loop with
  | nil =>
      cases maxEvents with
      | none => rfl
      | some n => exact List.take_nil.symm
  | cons head polls ih =>
      obtain ⟨now, response⟩ := head
      rw [deliver, List.map_cons, throughFirst]
      by_cases hChanged : some (json.dump response) ≠ loop.lastPayload
      · have hPoll : loop.poll json maxEvents now response =
            (some (.status (json.dump response)),
              if (loop.emit now (json.dump response)).lastEvent maxEvents response then none
              else some (loop.emit now (json.dump response))) := if_pos hChanged
        have hChanges (rest : List Text) : changes loop.lastPayload (json.dump response :: rest) =
            json.dump response :: changes (some (json.dump response)) rest := by
          rw [changes, if_pos hChanged]
        by_cases hActive : response.active = true
        · rw [if_pos hActive, List.map_cons, hChanges, eventsLeft_cons hLimit _ _ now, hPoll]
          by_cases hLast : (loop.emit now (json.dump response)).lastEvent maxEvents response = true
          · rw [if_pos hLast]
            rw [lastEvent, hActive, Bool.not_true, Bool.or_false] at hLast
            rw [eventsLeft_of_last hLast]
            rfl
          · rw [if_neg hLast]
            rw [lastEvent, hActive, Bool.not_true, Bool.or_false, Bool.not_eq_true,
              Option.any_eq_false] at hLast
            refine congrArg (json.dump response :: ·) (ih ?_ ?_)
            · intro other hOther
              rw [← json.active_of_dump (Option.some.inj hOther)]
              exact hActive
            · exact fun n hn => Nat.lt_of_not_le (of_decide_eq_false (by simpa using hLast n hn))
        · have hLast : (loop.emit now (json.dump response)).lastEvent maxEvents response = true := by
            rw [lastEvent, Bool.not_eq_true _ |>.mp hActive, Bool.not_false, Bool.or_true]
          rw [if_neg hActive, List.map_cons, hChanges, eventsLeft_cons hLimit _ _ now, hPoll,
            if_pos hLast]
          refine congrArg (json.dump response :: ·) ?_
          cases maxEvents with
          | none => rfl
          | some n => exact List.take_nil.symm
      · -- a response that was the last one to be sent is one of a scan that goes on
        have hActive : response.active = true := hContinues response (not_not.mp hChanged).symm
        have hChanges (rest : List Text) : changes loop.lastPayload (json.dump response :: rest) =
            changes loop.lastPayload rest := by
          rw [changes, if_neg hChanged]
        rw [if_pos hActive, List.map_cons, hChanges]
        by_cases hSilent : loop.lastEmittedAt + seconds STREAM_KEEPALIVE_SECONDS ≤ now
        · have hPoll : loop.poll json maxEvents now response =
              (some .keepAlive, some { loop with lastEmittedAt := now }) := by
            rw [poll, if_neg hChanged, if_pos hSilent]
          rw [hPoll]
          exact @ih { loop with lastEmittedAt := now } hContinues hLimit
        · have hPoll : loop.poll json maxEvents now response = (none, some loop) := by
            rw [poll, if_neg hChanged, if_neg hSilent]
          rw [hPoll]
          exact ih hContinues hLimit

/-- Whatever a stream finds and whenever it polls, its events are the polled responses without
repetitions, up to the first one of a scan that is over, and as many as the request asked for. -/
theorem stream_delivers_changes (json : JsonDump) (maxEvents : MaxEvents) (startedAt : Instant)
    (polls : List (Instant × ScanStatusResponse)) :
    ((start startedAt).deliver json maxEvents polls).filterMap StreamChunk.payload? =
      maxEvents.cut (((throughFirst ScanStatusResponse.active (polls.map Prod.snd)).map
        json.dump).destutter (· ≠ ·)) := by
  have hLimit : withinLimit maxEvents (start startedAt) := fun n _ => n.2.1
  rw [deliver_events polls (fun _ h => by cases h) hLimit, ← changes_none]
  cases maxEvents with
  | none => rfl
  | some n => rfl

end Events

end SavedOrganizer
