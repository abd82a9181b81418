import SavedOrganizer.Service.StatusStream
import SavedOrganizer.System.SessionLifetime
import SavedOrganizer.System.StreamSlots

/-!
# Runs of the status streams

Streams of any number of API processes beside everything that can happen to accounts and rows.
A request authenticates itself, claims a slot, and then runs the loop of `event_stream`; every
`await` of the loop is a step of its own, so that anything may happen between two of them. The
clock is the one of the accounts. The slots change by steps of `StreamWorld` only.

A stream ends with the release of its slot, unless its process dies or the client is gone before
the generator begins: then the row of the slot stays until its lease expires.

A stream of a session that has ended yields nothing beyond its next heartbeat
(`ended_session_streams`), and the streams that keep up with their heartbeats are never more than
the slots (`running_streams_bounded`).
-/

namespace SavedOrganizer

open Transition

/-- Where the generator stands, with what it has read in this turn. -/
inductive StreamPhase
  /-- It has not begun. -/
  | waiting
  /-- At the top of the loop. -/
  | ready (loop : EventLoop)
  /-- Before `_stream_session_is_active`. -/
  | checking (loop : EventLoop) (now : Instant)
  /-- Before `renew_scan_stream`. -/
  | renewing (loop : EventLoop) (now : Instant)
  /-- Before the status is read. -/
  | polling (loop : EventLoop) (now : Instant)
  /-- Before `release_scan_stream`. -/
  | closing
  | closed
  /-- It has ended without `release_scan_stream`. -/
  | abandoned
  deriving DecidableEq, Repr

/-- A stream, with the context of its request. -/
structure StatusStream where
  userId : UserId
  sessionId : SessionId
  maxEvents : MaxEvents
  phase : StreamPhase
  deriving DecidableEq, Repr

structure LiveWorld where
  accounts : Accounts
  slots : StreamWorld
  jobs : Table ScanJob
  streams : RequestId → Option StatusStream

/-- What one stream does next. -/
inductive StreamMove
  | start
  | turn
  | check
  | renew
  | poll
  /-- The client is gone, or something was raised. -/
  | leave
  | close
  /-- The process dies, or `release_scan_stream` is cancelled. -/
  | crash
  deriving DecidableEq, Repr

inductive LiveAction
  /-- Also the passing of time. -/
  | account (action : AccountAction)
  /-- Anything that changes the scan jobs. -/
  | jobs (jobs : Table ScanJob)
  | authenticate (request : RequestId) (token : Token) (maxEvents : MaxEvents)
  | attempt (request : RequestId)
  | stream (request : RequestId) (move : StreamMove)

/-- `TelegramScanService.status`. -/
def latestJob (userId : UserId) (jobs : Table ScanJob) : Option ScanJob :=
  ((jobs.rows.filter (·.userId = userId)).mergeSort (fun a b => b.createdAt ≤ a.createdAt)).head?

namespace LiveWorld

/-- `_stream_session_is_active`. -/
def sessionActive (w : LiveWorld) (stream : StatusStream) : Bool :=
  w.accounts.sessions.rows.any fun row =>
    row.id == stream.sessionId && row.activeOf stream.userId w.accounts.now

def status (w : LiveWorld) (stream : StatusStream) : ScanStatusResponse :=
  .fromJob (latestJob stream.userId w.jobs)

def enter (w : LiveWorld) (request : RequestId) (stream : StatusStream) : LiveWorld :=
  { w with streams := Function.update w.streams request (some stream) }

/-- The stream goes on at the phase. -/
def put (w : LiveWorld) (request : RequestId) (stream : StatusStream) (phase : StreamPhase) :
    LiveWorld :=
  w.enter request { stream with phase := phase }

variable (env : AccountEnv) (json : JsonDump) (maxStreams : Nat)

/-- The phase after the poll. -/
def afterPoll (w : LiveWorld) (stream : StatusStream) (loop : EventLoop) (now : Instant) :
    StreamPhase :=
  match (loop.poll json stream.maxEvents now (w.status stream)).2 with
  | none => .closing
  | some next => .ready next

/-- A move of the stream, from the phase it stands at. -/
def advance (w : LiveWorld) (request : RequestId) (stream : StatusStream) :
    StreamMove → Option LiveWorld
  | .start =>
      match stream.phase, w.slots.requests request with
      | .waiting, .claimed _ => some (w.put request stream (.ready (.start w.accounts.now)))
      | _, _ => none
  | .turn =>
      match stream.phase with
      | .ready loop => some (w.put request stream
          (if loop.heartbeatDue w.accounts.now then .checking loop w.accounts.now
          else .polling loop w.accounts.now))
      | _ => none
  | .check =>
      match stream.phase with
      | .checking loop now => some (w.put request stream
          (if w.sessionActive stream then .renewing loop now else .closing))
      | _ => none
  | .renew =>
      match stream.phase, w.slots.requests request with
      | .renewing loop now, .claimed lease =>
          (w.slots.step maxStreams (.renew request)).map fun slots =>
            { w with slots := slots }.put request stream
              (if (lease.renew w.slots.now w.slots.slots).2 then .polling (loop.heartbeat now) now
              else .closing)
      | _, _ => none
  | .poll =>
      match stream.phase with
      | .polling loop now => some (w.put request stream (w.afterPoll json stream loop now))
      | _ => none
  | .leave =>
      match stream.phase, w.slots.requests request with
      | .ready _, _ | .checking _ _, _ | .renewing _ _, _ | .polling _ _, _ =>
          some (w.put request stream .closing)
      -- a generator that has not begun has no `finally` to run
      | .waiting, .claimed _ => some (w.put request stream .abandoned)
      | _, _ => none
  | .close =>
      match stream.phase with
      | .closing =>
          (w.slots.step maxStreams (.release request)).map fun slots =>
            { w with slots := slots }.put request stream .closed
      | _ => none
  | .crash =>
      match stream.phase with
      | .closed | .abandoned => none
      | _ => some (w.put request stream .abandoned)

def step (w : LiveWorld) : LiveAction → Option LiveWorld
  | .account action =>
      let accounts := (w.accounts.perform env action).1
      (w.slots.step maxStreams (.tick (accounts.now - w.accounts.now))).map fun slots =>
        { w with accounts := accounts, slots := slots }
  | .jobs jobs => some { w with jobs := jobs }
  | .authenticate request token maxEvents =>
      match w.accounts.resolveSession env token with
      | (accounts, .accepted userId sessionId) =>
          (w.slots.step maxStreams (.begin request userId)).map fun slots =>
            { w with accounts := accounts, slots := slots }.enter request
              ⟨userId, sessionId, maxEvents, .waiting⟩
      | _ => none
  | .attempt request =>
      (w.slots.step maxStreams (.attempt request)).map fun slots => { w with slots := slots }
  | .stream request move =>
      match w.streams request with
      | some stream => w.advance json maxStreams request stream move
      | none => none

/-- What the next poll of the request yields. -/
def yields (w : LiveWorld) (request : RequestId) : Option (Instant × StreamChunk) :=
  match w.streams request with
  | some stream =>
      match stream.phase with
      | .polling loop now =>
          (loop.poll json stream.maxEvents now (w.status stream)).1.map (now, ·)
      | _ => none
  | none => none

/-- No session has been issued and no stream has been asked for. -/
structure Initial (w : LiveWorld) : Prop where
  accounts : w.accounts.Initial
  slots : w.slots.Initial
  clock : w.slots.now = w.accounts.now
  noStreams : ∀ request, w.streams request = none

end LiveWorld

/-! ## One step -/

section Step

variable {env : AccountEnv} {json : JsonDump} {maxStreams : Nat} {w w' : LiveWorld}
  {action : LiveAction} {request : RequestId} {stream : StatusStream}

theorem LiveWorld.enter_self : (w.enter request stream).streams request = some stream :=
  Function.update_self _ _ _

theorem LiveWorld.enter_other {other : RequestId} (h : other ≠ request) :
    (w.enter request stream).streams other = w.streams other :=
  Function.update_of_ne h _ _

/-- How a stream moves on, by what it does and the state before. -/
inductive Moves (w : LiveWorld) (stream : StatusStream) : StreamMove → StreamPhase → Prop
  | start (hPhase : stream.phase = .waiting) :
      Moves w stream .start (.ready (.start w.accounts.now))
  | due {loop : EventLoop} (hPhase : stream.phase = .ready loop)
      (hDue : loop.nextHeartbeatAt ≤ w.accounts.now) :
      Moves w stream .turn (.checking loop w.accounts.now)
  | early {loop : EventLoop} (hPhase : stream.phase = .ready loop)
      (hEarly : w.accounts.now < loop.nextHeartbeatAt) :
      Moves w stream .turn (.polling loop w.accounts.now)
  | active {loop : EventLoop} {now : Instant} (hPhase : stream.phase = .checking loop now)
      (hActive : w.sessionActive stream = true) : Moves w stream .check (.renewing loop now)
  | renewed {loop : EventLoop} {now : Instant} (hPhase : stream.phase = .renewing loop now) :
      Moves w stream .renew (.polling (loop.heartbeat now) now)
  | polled {loop next : EventLoop} {now : Instant} (hPhase : stream.phase = .polling loop now)
      (hSame : next.nextHeartbeatAt = loop.nextHeartbeatAt) : Moves w stream .poll (.ready next)
  | finished {move : StreamMove} (hMove : move ≠ .close) (hOpen : stream.phase ≠ .closed) :
      Moves w stream move .closing
  | abandoned {move : StreamMove} (hMove : move ≠ .close) (hOpen : stream.phase ≠ .closed) :
      Moves w stream move .abandoned
  | closed (hPhase : stream.phase = .closing) : Moves w stream .close .closed

theorem poll_heartbeat {maxEvents : MaxEvents} {now : Instant} {response : ScanStatusResponse}
    {loop next : EventLoop} (h : (loop.poll json maxEvents now response).2 = some next) :
    next.nextHeartbeatAt = loop.nextHeartbeatAt := by
  unfold EventLoop.poll at h
  dsimp only at h
  split at h
  · split at h
    · cases h
    · exact Option.some.inj h ▸ rfl
  · split at h <;> exact Option.some.inj h ▸ rfl

/-- What a step leaves of the streams, the slots and the accounts. -/
inductive LiveStep (env : AccountEnv) (maxStreams : Nat) (w : LiveWorld) :
    LiveAction → LiveWorld → Prop
  | account {action : AccountAction} {accounts : Accounts} {slots : StreamWorld}
      (hAccounts : w.accounts.step env action = some accounts)
      (hSlots : w.slots.step maxStreams (.tick (accounts.now - w.accounts.now)) = some slots) :
      LiveStep env maxStreams w (.account action) { w with accounts := accounts, slots := slots }
  | jobs (jobs : Table ScanJob) : LiveStep env maxStreams w (.jobs jobs) { w with jobs := jobs }
  | authenticate {request : RequestId} {token : Token} {maxEvents : MaxEvents}
      {accounts : Accounts} {slots : StreamWorld} {userId : UserId} {sessionId : SessionId}
      (hAccepted : w.accounts.resolveSession env token = (accounts, .accepted userId sessionId))
      (hSlots : w.slots.step maxStreams (.begin request userId) = some slots) :
      LiveStep env maxStreams w (.authenticate request token maxEvents)
        ({ w with accounts := accounts, slots := slots }.enter request
          ⟨userId, sessionId, maxEvents, .waiting⟩)
  | attempt {request : RequestId} {slots : StreamWorld}
      (hSlots : w.slots.step maxStreams (.attempt request) = some slots) :
      LiveStep env maxStreams w (.attempt request) { w with slots := slots }
  | stream {request : RequestId} {stream : StatusStream} {move : StreamMove} {phase : StreamPhase}
      (hStream : w.streams request = some stream) (hMoves : Moves w stream move phase)
      (hMove : move ≠ .renew) (hOpen : phase ≠ .closed) :
      LiveStep env maxStreams w (.stream request move) (w.put request stream phase)
  | renew {request : RequestId} {stream : StatusStream} {phase : StreamPhase} {slots : StreamWorld}
      {lease : ScanStreamLease}
      (hStream : w.streams request = some stream) (hMoves : Moves w stream .renew phase)
      (hLease : w.slots.requests request = .claimed lease)
      (hRenewed : phase ≠ .closing → (lease.renew w.slots.now w.slots.slots).2 = true)
      (hOpen : phase ≠ .closed)
      (hSlots : w.slots.step maxStreams (.renew request) = some slots) :
      LiveStep env maxStreams w (.stream request .renew)
        ({ w with slots := slots }.put request stream phase)
  | close {request : RequestId} {stream : StatusStream} {slots : StreamWorld}
      (hStream : w.streams request = some stream) (hPhase : stream.phase = .closing)
      (hSlots : w.slots.step maxStreams (.release request) = some slots) :
      LiveStep env maxStreams w (.stream request .close)
        ({ w with slots := slots }.put request stream .closed)

theorem liveStep_of_advance {move : StreamMove} (hStream : w.streams request = some stream)
    (h : w.advance json maxStreams request stream move = some w') :
    LiveStep env maxStreams w (.stream request move) w' := by
  cases move with
  | start =>
      simp only [LiveWorld.advance] at h
      split at h
      · rename_i hPhase hLease
        exact Option.some.inj h ▸ .stream hStream (.start hPhase) StreamMove.noConfusion
            StreamPhase.noConfusion
      · cases h
  | turn =>
      simp only [LiveWorld.advance] at h
      split at h
      · rename_i loop hPhase
        obtain rfl := Option.some.inj h
        by_cases hDue : loop.heartbeatDue w.accounts.now = true
        · rw [if_pos hDue]
          exact .stream hStream (.due hPhase (of_decide_eq_true hDue)) StreamMove.noConfusion
            StreamPhase.noConfusion
        · rw [if_neg hDue]
          refine .stream hStream (.early hPhase ?_) StreamMove.noConfusion
            StreamPhase.noConfusion
          exact Nat.lt_of_not_le fun hLe => hDue (decide_eq_true hLe)
      · cases h
  | check =>
      simp only [LiveWorld.advance] at h
      split at h
      · rename_i loop now hPhase
        obtain rfl := Option.some.inj h
        by_cases hActive : w.sessionActive stream = true
        · rw [if_pos hActive]
          exact .stream hStream (.active hPhase hActive) StreamMove.noConfusion
            StreamPhase.noConfusion
        · rw [if_neg hActive]
          refine .stream hStream (.finished StreamMove.noConfusion ?_) StreamMove.noConfusion
            StreamPhase.noConfusion
          rw [hPhase]
          exact StreamPhase.noConfusion
      · cases h
  | renew =>
      simp only [LiveWorld.advance] at h
      split at h
      · rename_i loop now lease hPhase hLease
        obtain ⟨slots, hSlots, rfl⟩ := Option.map_eq_some_iff.mp h
        by_cases hRenewed : (lease.renew w.slots.now w.slots.slots).2 = true
        · rw [if_pos hRenewed]
          exact .renew hStream (.renewed hPhase) hLease (fun _ => hRenewed)
            StreamPhase.noConfusion hSlots
        · rw [if_neg hRenewed]
          refine .renew hStream (.finished StreamMove.noConfusion ?_) hLease (fun hNe => absurd rfl hNe)
            StreamPhase.noConfusion hSlots
          rw [hPhase]
          exact StreamPhase.noConfusion
      · cases h
  | poll =>
      simp only [LiveWorld.advance] at h
      split at h
      · rename_i loop now hPhase
        obtain rfl := Option.some.inj h
        unfold LiveWorld.afterPoll
        split
        · refine .stream hStream (.finished StreamMove.noConfusion ?_) StreamMove.noConfusion
            StreamPhase.noConfusion
          rw [hPhase]
          exact StreamPhase.noConfusion
        · rename_i next hNext
          exact .stream hStream (.polled hPhase (poll_heartbeat hNext)) StreamMove.noConfusion
            StreamPhase.noConfusion
      · cases h
  | leave =>
      simp only [LiveWorld.advance] at h
      have hClosing (hOpen : stream.phase ≠ .closed)
          (h : some (w.put request stream .closing) = some w') :
          LiveStep env maxStreams w (.stream request .leave) w' :=
        Option.some.inj h ▸ .stream hStream (.finished StreamMove.noConfusion hOpen)
          StreamMove.noConfusion StreamPhase.noConfusion
      split at h
      · rename_i hPhase
        exact hClosing (hPhase ▸ StreamPhase.noConfusion) h
      · rename_i hPhase
        exact hClosing (hPhase ▸ StreamPhase.noConfusion) h
      · rename_i hPhase
        exact hClosing (hPhase ▸ StreamPhase.noConfusion) h
      · rename_i hPhase
        exact hClosing (hPhase ▸ StreamPhase.noConfusion) h
      · rename_i hPhase _
        exact Option.some.inj h ▸ .stream hStream
          (.abandoned StreamMove.noConfusion (hPhase ▸ StreamPhase.noConfusion))
          StreamMove.noConfusion StreamPhase.noConfusion
      · cases h
  | close =>
      simp only [LiveWorld.advance] at h
      split at h
      · rename_i hPhase
        obtain ⟨slots, hSlots, rfl⟩ := Option.map_eq_some_iff.mp h
        exact .close hStream hPhase hSlots
      · cases h
  | crash =>
      simp only [LiveWorld.advance] at h
      split at h
      · cases h
      · cases h
      · rename_i hOpen _
        exact Option.some.inj h ▸ .stream hStream (.abandoned StreamMove.noConfusion hOpen)
          StreamMove.noConfusion StreamPhase.noConfusion

theorem liveStep_of_step (h : w.step env json maxStreams action = some w') :
    LiveStep env maxStreams w action w' := by
  cases action with
  | account action =>
      simp only [LiveWorld.step, Option.map_eq_some_iff] at h
      obtain ⟨slots, hSlots, rfl⟩ := h
      exact .account rfl hSlots
  | jobs jobs => exact Option.some.inj h ▸ .jobs jobs
  | authenticate request token maxEvents =>
      simp only [LiveWorld.step] at h
      split at h
      · rename_i accounts userId sessionId hAccepted
        obtain ⟨slots, hSlots, rfl⟩ := Option.map_eq_some_iff.mp h
        exact .authenticate hAccepted hSlots
      · cases h
  | attempt request =>
      simp only [LiveWorld.step, Option.map_eq_some_iff] at h
      obtain ⟨slots, hSlots, rfl⟩ := h
      exact .attempt hSlots
  | stream request move =>
      simp only [LiveWorld.step] at h
      split at h
      · rename_i stream hStream
        exact liveStep_of_advance hStream h
      · cases h

/-- The slots change by their own steps. -/
theorem slots_of_step (h : LiveStep env maxStreams w action w') :
    w'.slots = w.slots ∨ ∃ a, w.slots.step maxStreams a = some w'.slots := by
  cases h with
  | account _ hSlots => exact Or.inr ⟨_, hSlots⟩
  | jobs => exact Or.inl rfl
  | authenticate _ hSlots => exact Or.inr ⟨_, hSlots⟩
  | attempt hSlots => exact Or.inr ⟨_, hSlots⟩
  | stream => exact Or.inl rfl
  | renew _ _ _ _ _ hSlots => exact Or.inr ⟨_, hSlots⟩
  | close _ _ hSlots => exact Or.inr ⟨_, hSlots⟩

/-- So do the accounts. -/
theorem accounts_of_step (h : LiveStep env maxStreams w action w') :
    w'.accounts = w.accounts ∨ ∃ a, w.accounts.step env a = some w'.accounts := by
  cases h with
  | account hAccounts _ => exact Or.inr ⟨_, hAccounts⟩
  | @authenticate request token maxEvents accounts slots userId sessionId hAccepted _ =>
      refine Or.inr ⟨.resolve token, ?_⟩
      show some (w.accounts.resolveSession env token).1 = some accounts
      rw [hAccepted]
  | jobs => exact Or.inl rfl
  | attempt => exact Or.inl rfl
  | stream => exact Or.inl rfl
  | renew => exact Or.inl rfl
  | close => exact Or.inl rfl

/-- A stream after a step was there before and has not moved, has moved, or has just been
authenticated. -/
theorem stream_of_step (h : LiveStep env maxStreams w action w')
    (hStream : w'.streams request = some stream) :
    w.streams request = some stream ∨
    (∃ old move phase, w.streams request = some old ∧ action = .stream request move ∧
      Moves w old move phase ∧ stream = { old with phase := phase } ∧
      (phase = .closed → w.slots.step maxStreams (.release request) = some w'.slots)) ∨
    ∃ token accounts, stream.phase = .waiting ∧
      w.accounts.resolveSession env token =
        (accounts, .accepted stream.userId stream.sessionId) ∧
      w.slots.step maxStreams (.begin request stream.userId) = some w'.slots := by
  have hPut {slots : StreamWorld} {target : RequestId} {old : StatusStream} {move : StreamMove}
      {phase : StreamPhase} (hOld : w.streams target = some old) (hMoves : Moves w old move phase)
      (hNew : ({ w with slots := slots }.put target old phase).streams request = some stream)
      (hClosed : phase = .closed → w.slots.step maxStreams (.release target) = some slots) :
      w.streams request = some stream ∨
      ∃ old' move' phase', w.streams request = some old' ∧
        LiveAction.stream target move = .stream request move' ∧
        Moves w old' move' phase' ∧ stream = { old' with phase := phase' } ∧
        (phase' = .closed → w.slots.step maxStreams (.release request) = some slots) := by
    by_cases hTarget : request = target
    · subst hTarget
      rw [LiveWorld.put, LiveWorld.enter_self] at hNew
      exact Or.inr ⟨old, move, phase, hOld, rfl, hMoves, (Option.some.inj hNew).symm, hClosed⟩
    · rw [LiveWorld.put, LiveWorld.enter_other hTarget] at hNew
      exact Or.inl hNew
  cases h with
  | account => exact Or.inl hStream
  | jobs => exact Or.inl hStream
  | @authenticate target token maxEvents accounts slots userId sessionId hAccepted hSlots =>
      by_cases hTarget : request = target
      · subst hTarget
        rw [LiveWorld.enter_self] at hStream
        obtain rfl := Option.some.inj hStream
        exact Or.inr (Or.inr ⟨token, accounts, rfl, hAccepted, hSlots⟩)
      · rw [LiveWorld.enter_other hTarget] at hStream
        exact Or.inl hStream
  | attempt => exact Or.inl hStream
  | stream hOld hMoves _ hOpen =>
      rcases @hPut w.slots _ _ _ _ hOld hMoves hStream (absurd · hOpen) with hSame | hMoved
      · exact Or.inl hSame
      · exact Or.inr (Or.inl hMoved)
  | renew hOld hMoves _ _ hOpen =>
      rcases hPut hOld hMoves hStream (absurd · hOpen) with hSame | hMoved
      · exact Or.inl hSame
      · exact Or.inr (Or.inl hMoved)
  | close hOld hPhase hSlots =>
      rcases hPut hOld (.closed hPhase) hStream (fun _ => hSlots) with hSame | hMoved
      · exact Or.inl hSame
      · exact Or.inr (Or.inl hMoved)

end Step

/-! ## A session that has ended -/

section Ended

variable {env : AccountEnv} {json : JsonDump} {maxStreams : Nat} {w w' w₀ x : LiveWorld}
  {action : LiveAction} {request : RequestId} {stream : StatusStream} {sessionId : SessionId}

theorem nextSession_step {s s' : Accounts} {action : AccountAction}
    (h : s.step env action = some s') : s.nextSession ≤ s'.nextSession := by
  obtain rfl := Option.some.inj h
  cases action with
  | login email password rehashed createdAt =>
      show s.nextSession ≤ (s.login env email password rehashed createdAt).1.nextSession
      unfold Accounts.login
      split
      · exact Nat.le_refl _
      · dsimp only
        split
        · split <;> exact Nat.le_refl _
        · exact Nat.le_succ _
  | resolve token =>
      show s.nextSession ≤ (s.resolveSession env token).1.nextSession
      unfold Accounts.resolveSession
      split
      · exact Nat.le_refl _
      · dsimp only
        split
        · split <;> exact Nat.le_refl _
        · split <;> exact Nat.le_refl _
  | revoke userId sessionId =>
      show s.nextSession ≤ (s.revokeSession userId sessionId).1.nextSession
      unfold Accounts.revokeSession
      split <;> exact Nat.le_refl _
  | changePassword userId currentPassword newHash createdAt =>
      show s.nextSession ≤
        (s.changePassword env userId currentPassword newHash createdAt).1.nextSession
      unfold Accounts.changePassword
      split
      · exact Nat.le_refl _
      · split
        · exact Nat.le_succ _
        · exact Nat.le_refl _
  | tick => exact Nat.le_refl _
  | logout => exact Nat.le_refl _

/-- The row behind a context. -/
theorem row_of_accepted {s s' : Accounts} {token : Token} {userId : UserId}
    (h : s.resolveSession env token = (s', .accepted userId sessionId)) :
    ∃ row ∈ s.sessions, row.id = sessionId ∧ row.userId = userId ∧ row.active s.now = true := by
  have hAccepts : s.accepts env token = true := by rw [Accounts.accepts, h]
  obtain ⟨record, hFind, hActive, hUser⟩ := accepts_iff.mp hAccepts
  rw [resolveSession_valid hFind hActive hUser] at h
  obtain ⟨hUserId, hId⟩ := AccountOutcome.accepted.inj (congrArg Prod.snd h)
  exact ⟨record, (eq_of_find?_token hFind).1, hId, hUserId, hActive⟩

/-- The session has been issued and is revoked, expired or pruned. -/
structure SessionEnded (sessionId : SessionId) (s : Accounts) : Prop where
  drawn : sessionId < s.nextSession
  inactive : ∀ row ∈ s.sessions, row.id = sessionId → row.active s.now = false

theorem sessionEnded_step {s s' : Accounts} {action : AccountAction}
    (h : s.step env action = some s') (hEnded : SessionEnded sessionId s) :
    SessionEnded sessionId s' where
  drawn := Nat.lt_of_lt_of_le hEnded.drawn (nextSession_step h)
  inactive := by
    intro row' hRow' hId
    refine Bool.eq_false_iff.mpr fun hActive' => ?_
    have hNow := active_later (now_le h) hActive'
    rcases row_origin h hRow' with ⟨row, hRow, hAfter⟩ | ⟨-, -, _, _, rfl⟩
    · have hInactive := hEnded.inactive row hRow (hAfter.fixed.1 ▸ hId)
      cases hAfter with
      | same => exact absurd hNow (Bool.eq_false_iff.mp hInactive)
      | revoked => exact nomatch (active_iff.mp hNow).1
      | touched _ _ hActive => exact absurd hActive (Bool.eq_false_iff.mp hInactive)
    · exact absurd hEnded.drawn (Nat.not_lt.mpr (Nat.le_of_eq hId))

theorem sessionEnded_live (h : LiveStep env maxStreams w action w')
    (hEnded : SessionEnded sessionId w.accounts) : SessionEnded sessionId w'.accounts := by
  rcases accounts_of_step h with hSame | ⟨a, hStep⟩
  · exact hSame ▸ hEnded
  · exact sessionEnded_step hStep hEnded

theorem SessionEnded.not_active (hEnded : SessionEnded sessionId w.accounts)
    (hSession : stream.sessionId = sessionId) : w.sessionActive stream = false := by
  refine Bool.eq_false_iff.mpr fun hActive => ?_
  obtain ⟨row, hRow, hBoth⟩ := List.any_eq_true.mp hActive
  rw [Bool.and_eq_true, beq_iff_eq, activeOf_iff_active] at hBoth
  rw [hEnded.inactive row hRow (hBoth.1.trans hSession)] at hBoth
  exact Bool.false_ne_true hBoth.2.2

/-! ### Heartbeats -/

theorem live_now_le (h : LiveStep env maxStreams w action w') : w.accounts.now ≤ w'.accounts.now := by
  rcases accounts_of_step h with hSame | ⟨a, hStep⟩
  · rw [hSame]
  · exact now_le hStep

/-- What a phase has read of the clock lies behind, and the next heartbeat is due in time. -/
def Timely (now : Instant) : StreamPhase → Prop
  | .ready loop => loop.nextHeartbeatAt ≤ now + seconds STREAM_HEARTBEAT_SECONDS
  | .checking _ read => read ≤ now
  | .renewing _ read => read ≤ now
  | .polling loop read => read ≤ now ∧ read < loop.nextHeartbeatAt ∧
      loop.nextHeartbeatAt ≤ now + seconds STREAM_HEARTBEAT_SECONDS
  | .waiting | .closing | .closed | .abandoned => True

theorem Timely.later {now now' : Instant} {phase : StreamPhase} (hNow : now ≤ now')
    (h : Timely now phase) : Timely now' phase := by
  cases phase with
  | ready => exact Nat.le_trans h (Nat.add_le_add_right hNow _)
  | checking => exact Nat.le_trans h hNow
  | renewing => exact Nat.le_trans h hNow
  | polling =>
      exact ⟨Nat.le_trans h.1 hNow, h.2.1, Nat.le_trans h.2.2 (Nat.add_le_add_right hNow _)⟩
  | waiting => trivial
  | closing => trivial
  | closed => trivial
  | abandoned => trivial

theorem heartbeat_pos : 0 < seconds STREAM_HEARTBEAT_SECONDS := seconds_pos (by decide)

theorem timely_moves {move : StreamMove} {phase : StreamPhase} (h : Moves w stream move phase)
    (hTimely : Timely w.accounts.now stream.phase) : Timely w.accounts.now phase := by
  cases h with
  | start => exact Nat.le_refl _
  | due => exact Nat.le_refl _
  | early hPhase hEarly =>
      rw [hPhase] at hTimely
      exact ⟨Nat.le_refl _, hEarly, hTimely⟩
  | active hPhase =>
      rw [hPhase] at hTimely
      exact hTimely
  | renewed hPhase =>
      rw [hPhase] at hTimely
      exact ⟨hTimely, Nat.lt_add_of_pos_right heartbeat_pos, Nat.add_le_add_right hTimely _⟩
  | polled hPhase hSame =>
      rw [hPhase] at hTimely
      exact hSame.trans_le hTimely.2.2
  | finished => trivial
  | abandoned => trivial
  | closed => trivial

def AllTimely (w : LiveWorld) : Prop :=
  ∀ request stream, w.streams request = some stream → Timely w.accounts.now stream.phase

theorem allTimely_step (h : LiveStep env maxStreams w action w') (hAll : AllTimely w) :
    AllTimely w' := by
  intro request stream hStream
  refine Timely.later (live_now_le h) ?_
  rcases stream_of_step h hStream with hOld | ⟨old, move, phase, hOld, -, hMoves, rfl, -⟩ |
    ⟨token, accounts, hWaiting, -, -⟩
  · exact hAll request stream hOld
  · exact timely_moves hMoves (hAll request old hOld)
  · rw [hWaiting]
    trivial

/-- Nothing is read of the clock beyond the heartbeat that follows one of these times. -/
def Expiring (times : Instant → Prop) : StreamPhase → Prop
  | .ready loop => ∃ t, times t ∧ loop.nextHeartbeatAt ≤ t + seconds STREAM_HEARTBEAT_SECONDS
  | .renewing _ read => ∃ t, times t ∧ read ≤ t
  | .polling loop read => ∃ t, times t ∧ read < t + seconds STREAM_HEARTBEAT_SECONDS ∧
      loop.nextHeartbeatAt ≤ t + seconds STREAM_HEARTBEAT_SECONDS
  | .waiting | .checking _ _ | .closing | .closed | .abandoned => True

theorem expiring_of_timely {times : Instant → Prop} {now : Instant} {phase : StreamPhase}
    (hNow : times now) (h : Timely now phase) : Expiring times phase := by
  cases phase with
  | ready => exact ⟨now, hNow, h⟩
  | renewing => exact ⟨now, hNow, h⟩
  | polling => exact ⟨now, hNow, Nat.lt_of_lt_of_le h.2.1 h.2.2, h.2.2⟩
  | waiting => trivial
  | checking => trivial
  | closing => trivial
  | closed => trivial
  | abandoned => trivial

theorem expiring_moves {times : Instant → Prop} {move : StreamMove} {phase : StreamPhase}
    (h : Moves w stream move phase) (hInactive : w.sessionActive stream = false)
    (hStart : move = .start → times w.accounts.now) (hExpiring : Expiring times stream.phase) :
    Expiring times phase := by
  cases h with
  | start => exact ⟨_, hStart rfl, Nat.le_refl _⟩
  | due => trivial
  | early hPhase hEarly =>
      rw [hPhase] at hExpiring
      obtain ⟨t, ht, hNext⟩ := hExpiring
      exact ⟨t, ht, Nat.lt_of_lt_of_le hEarly hNext, hNext⟩
  | active _ hActive =>
      -- the check is where the stream of an ended session stops
      rw [hInactive] at hActive
      cases hActive
  | renewed hPhase =>
      rw [hPhase] at hExpiring
      obtain ⟨t, ht, hRead⟩ := hExpiring
      exact ⟨t, ht, Nat.lt_of_le_of_lt hRead (Nat.lt_add_of_pos_right heartbeat_pos),
        Nat.add_le_add_right hRead _⟩
  | polled hPhase hSame =>
      rw [hPhase] at hExpiring
      obtain ⟨t, ht, -, hNext⟩ := hExpiring
      exact ⟨t, ht, hSame.trans_le hNext⟩
  | finished => trivial
  | abandoned => trivial
  | closed => trivial

/-- In the run the stream began at this time. -/
def Began (env : AccountEnv) (json : JsonDump) (maxStreams : Nat) (x : LiveWorld)
    (actions : List LiveAction) (request : RequestId) (time : Instant) : Prop :=
  ∃ u v, StepOf (LiveWorld.step env json maxStreams) x actions u (.stream request .start) v ∧
    time = u.accounts.now

/-- Once a session has ended, only streams that were asked for before yield anything, and in each
turn that yields the clock was read less than a heartbeat after the end, or after the stream
began if that was later. -/
theorem ended_session_streams {front back : List LiveAction} (hInitial : w₀.Initial)
    (hFront : run (LiveWorld.step env json maxStreams) w₀ front = some x)
    (hBack : run (LiveWorld.step env json maxStreams) x back = some w)
    (hEnded : SessionEnded sessionId x.accounts) (hStream : w.streams request = some stream)
    (hSession : stream.sessionId = sessionId) {read : Instant} {chunk : StreamChunk}
    (hYields : w.yields json request = some (read, chunk)) :
    (∃ old, x.streams request = some old ∧ old.sessionId = sessionId) ∧
    ∃ t, (t = x.accounts.now ∨ Began env json maxStreams x back request t) ∧
      read < t + seconds STREAM_HEARTBEAT_SECONDS := by
  have hTimely : AllTimely x := by
    refine invariant (fun _ _ _ hStep => allTimely_step (liveStep_of_step hStep)) ?_ hFront
    intro request stream hStream
    rw [hInitial.noStreams] at hStream
    cases hStream
  let times (request : RequestId) (t : Instant) : Prop :=
    t = x.accounts.now ∨ Began env json maxStreams x back request t
  let Of (u : LiveWorld) : Prop := SessionEnded sessionId u.accounts ∧ ∀ request stream,
    u.streams request = some stream → stream.sessionId = sessionId →
      (∃ old, x.streams request = some old ∧ old.sessionId = sessionId) ∧
        Expiring (times request) stream.phase
  have hOf : Of w := by
    refine run_induct (I := Of) ⟨hEnded, ?_⟩ hBack ?_
    · exact fun request stream hStream hSession =>
        ⟨⟨stream, hStream, hSession⟩, expiring_of_timely (Or.inl rfl) (hTimely request stream hStream)⟩
    · rintro u a v hStep ⟨hEnded, hExpiring⟩
      have hLive := liveStep_of_step hStep.step
      refine ⟨sessionEnded_live hLive hEnded, fun request stream hStream hSession => ?_⟩
      rcases stream_of_step hLive hStream with hOld |
        ⟨old, move, phase, hOld, rfl, hMoves, rfl, -⟩ | ⟨token, accounts, -, hAccepted, -⟩
      · exact hExpiring request stream hOld hSession
      · obtain ⟨hAsked, hPhase⟩ := hExpiring request old hOld hSession
        refine ⟨hAsked, expiring_moves hMoves (hEnded.not_active hSession) ?_ hPhase⟩
        rintro rfl
        exact Or.inr ⟨u, v, hStep, rfl⟩
      · -- no request is authenticated with a session that has ended
        obtain ⟨row, hRow, hId, -, hActive⟩ := row_of_accepted hAccepted
        rw [hEnded.inactive row hRow (hId.trans hSession)] at hActive
        cases hActive
  obtain ⟨hAsked, hExpiring⟩ := hOf.2 request stream hStream hSession
  unfold LiveWorld.yields at hYields
  rw [hStream] at hYields
  dsimp only at hYields
  split at hYields
  · rename_i loop now hPhase
    obtain ⟨chunk', -, hEq⟩ := Option.map_eq_some_iff.mp hYields
    obtain ⟨rfl, rfl⟩ := Prod.mk.inj hEq
    rw [hPhase] at hExpiring
    obtain ⟨t, ht, hRead, -⟩ := hExpiring
    exact ⟨hAsked, t, ht, hRead⟩
  · cases hYields

/-- A user with one slot. -/
def demoLive : LiveWorld := ⟨demoAccounts, noStreams, .empty, fun _ => none⟩

/-- A response by its state. -/
def stateDump : JsonDump := ⟨fun response => response.state.value, fun _ _ h =>
  StatusState.value_injective h⟩

def liveAfter (actions : List LiveAction) : LiveWorld :=
  (run (LiveWorld.step demoAccountEnv stateDump 1) demoLive actions).getD demoLive

theorem demoLive_initial : demoLive.Initial := ⟨rfl, ⟨rfl, fun _ => rfl⟩, rfl, fun _ => rfl⟩

def streamBegins : List LiveAction :=
  [.account signIn, .authenticate 0 0 none, .attempt 0, .stream 0 .start]

/-- The user signs out while the stream is open. -/
def signedOut : List LiveAction := streamBegins ++ [.account (.logout 0)]

/-- The stream polls again before its heartbeat is due. -/
def pollsAgain : List LiveAction := [.account (.tick (seconds 14)), .stream 0 .turn]

theorem ended_session_streams_signedOut :
    (∃ old, (liveAfter signedOut).streams 0 = some old ∧ old.sessionId = 0) ∧
    ∃ t, (t = (liveAfter signedOut).accounts.now ∨
      Began demoAccountEnv stateDump 1 (liveAfter signedOut) pollsAgain 0 t) ∧
      seconds 14 < t + seconds STREAM_HEARTBEAT_SECONDS := by
  have hFront : run (LiveWorld.step demoAccountEnv stateDump 1) demoLive signedOut =
      some (liveAfter signedOut) := run_getD (by decide +kernel)
  have hBack : run (LiveWorld.step demoAccountEnv stateDump 1) (liveAfter signedOut) pollsAgain =
      some (liveAfter (signedOut ++ pollsAgain)) := run_getD_append (by decide +kernel)
  have hYields : (liveAfter (signedOut ++ pollsAgain)).yields stateDump 0 =
      some (seconds 14, .status "idle".toList) := by decide +kernel
  have hEnded : SessionEnded 0 (liveAfter signedOut).accounts :=
    ⟨by decide +kernel, by decide +kernel⟩
  have hStream : (liveAfter (signedOut ++ pollsAgain)).streams 0 =
      some ⟨1, 0, none, .polling ⟨none, 0, 0, seconds 15⟩ (seconds 14)⟩ := by decide +kernel
  exact ended_session_streams demoLive_initial hFront hBack hEnded hStream rfl hYields

end Ended

/-! ## Streams and slots -/

section Slots

variable {maxStreams : Nat} {w w' : StreamWorld} {action : StreamAction} {request : RequestId}
  {lease : ScanStreamLease}

def StreamRequest.owner? : StreamRequest → Option LeaseOwner
  | .claiming claim => some claim.owner
  | .claimed lease => some lease.owner
  | .idle | .refused _ => none

/-- Every request draws an owner of its own, and its rows are in the slot of its lease. -/
structure HolderInv (w : StreamWorld) : Prop where
  past : ∀ request claim, w.requests request = .claiming claim → claim.now ≤ w.now
  drawn : ∀ request owner, (w.requests request).owner? = some owner → owner < w.nextOwner
  apart : ∀ request request' owner, (w.requests request).owner? = some owner →
    (w.requests request').owner? = some owner → request = request'
  rows : ∀ request lease, w.requests request = .claimed lease → ∀ row ∈ w.slots,
    row.owner = lease.owner → lease.names row = true

theorem StreamWorld.Initial.holderInv (h : w.Initial) : HolderInv w := by
  refine ⟨fun request _ hClaim => ?_, fun request _ hOwner => ?_,
    fun request _ _ hOwner => ?_, fun request _ hLease => ?_⟩
  · rw [h.idle] at hClaim
    cases hClaim
  · rw [h.idle] at hOwner
    cases hOwner
  · rw [h.idle] at hOwner
    cases hOwner
  · rw [h.idle] at hLease
    cases hLease

theorem loop_owner? {claim : StreamClaim} {owner : LeaseOwner}
    (h : (claim.loop maxStreams).owner? = some owner) : claim.owner = owner := by
  unfold StreamClaim.loop at h
  split at h
  · exact Option.some.inj h
  · cases h

/-- A request has the owner it had before, or draws the next one. -/
theorem owner_step (h : StreamStep maxStreams w action w') {owner : LeaseOwner}
    (hOwner : (w'.requests request).owner? = some owner) :
    (w.requests request).owner? = some owner ∨
      (owner = w.nextOwner ∧ w'.nextOwner = w.nextOwner + 1 ∧
        ∀ other, other ≠ request → w'.requests other = w.requests other) := by
  cases h with
  | tick => exact Or.inl hOwner
  | @begin target userId hUser =>
      by_cases hTarget : request = target
      · subst hTarget
        rw [StreamWorld.set_self] at hOwner
        exact Or.inr ⟨(loop_owner? hOwner).symm, rfl, fun other hOther =>
          StreamWorld.set_other hOther _⟩
      · rw [StreamWorld.set_other hTarget] at hOwner
        exact Or.inl hOwner
  | @taken target claim slots hClaim _ =>
      by_cases hTarget : request = target
      · subst hTarget
        rw [StreamWorld.set_self] at hOwner
        rw [hClaim]
        exact Or.inl hOwner
      · rw [StreamWorld.set_other hTarget] at hOwner
        exact Or.inl hOwner
  | @occupied target claim hClaim _ =>
      by_cases hTarget : request = target
      · subst hTarget
        rw [StreamWorld.set_self] at hOwner
        have hSame := loop_owner? hOwner
        rw [hClaim]
        exact Or.inl (congrArg some hSame)
      · rw [StreamWorld.set_other hTarget] at hOwner
        exact Or.inl hOwner
  | held => exact Or.inl hOwner

theorem streamNow_le (h : StreamStep maxStreams w action w') : w.now ≤ w'.now := by
  cases h <;> first | exact Nat.le_add_right _ _ | exact Nat.le_refl _

/-- A lease after a step was held before, or a claim has just been granted it. -/
theorem claimed_origin (h : StreamStep maxStreams w action w')
    (hLease : w'.requests request = .claimed lease) :
    w.requests request = .claimed lease ∨ ∃ claim, w.requests request = .claiming claim ∧
      lease = claim.lease ∧ claim.attempt (w.registered claim.userId) w.slots = some w'.slots := by
  have hLoop {claim : StreamClaim} (h : claim.loop maxStreams = .claimed lease) : False := by
    unfold StreamClaim.loop at h
    split at h <;> cases h
  cases h with
  | tick => exact Or.inl hLease
  | @begin target userId hUser =>
      by_cases hTarget : request = target
      · subst hTarget
        rw [StreamWorld.set_self] at hLease
        exact (hLoop hLease).elim
      · rw [StreamWorld.set_other hTarget] at hLease
        exact Or.inl hLease
  | @taken target claim slots hClaim hTaken =>
      by_cases hTarget : request = target
      · subst hTarget
        rw [StreamWorld.set_self] at hLease
        obtain rfl := StreamRequest.claimed.inj hLease
        exact Or.inr ⟨claim, hClaim, rfl, hTaken⟩
      · rw [StreamWorld.set_other hTarget] at hLease
        exact Or.inl hLease
  | @occupied target claim hClaim _ =>
      by_cases hTarget : request = target
      · subst hTarget
        rw [StreamWorld.set_self] at hLease
        exact (hLoop hLease).elim
      · rw [StreamWorld.set_other hTarget] at hLease
        exact Or.inl hLease
  | held => exact Or.inl hLease

theorem claiming_now (h : StreamStep maxStreams w action w') {claim' : StreamClaim}
    (hClaim' : w'.requests request = .claiming claim') :
    (∃ claim, w.requests request = .claiming claim ∧ claim'.now = claim.now) ∨
      claim'.now = w.now := by
  cases h with
  | tick => exact Or.inl ⟨claim', hClaim', rfl⟩
  | @begin target userId hUser =>
      by_cases hTarget : request = target
      · subst hTarget
        rw [StreamWorld.set_self] at hClaim'
        obtain ⟨rfl, -⟩ := loop_eq_claiming hClaim'
        exact Or.inr rfl
      · rw [StreamWorld.set_other hTarget] at hClaim'
        exact Or.inl ⟨claim', hClaim', rfl⟩
  | @taken target claim slots hClaim _ =>
      by_cases hTarget : request = target
      · subst hTarget
        rw [StreamWorld.set_self] at hClaim'
        cases hClaim'
      · rw [StreamWorld.set_other hTarget] at hClaim'
        exact Or.inl ⟨claim', hClaim', rfl⟩
  | @occupied target claim hClaim _ =>
      by_cases hTarget : request = target
      · subst hTarget
        rw [StreamWorld.set_self] at hClaim'
        obtain ⟨rfl, -⟩ := loop_eq_claiming hClaim'
        exact Or.inl ⟨claim, hClaim, rfl⟩
      · rw [StreamWorld.set_other hTarget] at hClaim'
        exact Or.inl ⟨claim', hClaim', rfl⟩
  | held => exact Or.inl ⟨claim', hClaim', rfl⟩

theorem StreamClaim.names_row (claim : StreamClaim) : claim.lease.names claim.row = true :=
  ScanStreamLease.names_iff.mpr ⟨rfl, rfl⟩

theorem holderInv_step (h : StreamStep maxStreams w action w') (hSlots : StreamInv maxStreams w)
    (hInv : HolderInv w) : HolderInv w' where
  past := by
    intro request claim' hClaim'
    refine Nat.le_trans ?_ (streamNow_le h)
    rcases claiming_now h hClaim' with ⟨claim, hClaim, hNow⟩ | hNow
    · exact hNow ▸ hInv.past request claim hClaim
    · exact Nat.le_of_eq hNow
  drawn := by
    intro request owner hOwner
    rcases owner_step h hOwner with hOld | ⟨rfl, hNext, -⟩
    · exact Nat.lt_of_lt_of_le (hInv.drawn request owner hOld) (nextOwner_step h)
    · rw [hNext]
      exact Nat.lt_succ_self _
  apart := by
    intro request request' owner hOwner hOwner'
    rcases owner_step h hOwner with hOld | ⟨hNew, -, hOthers⟩
    · rcases owner_step h hOwner' with hOld' | ⟨hNew', -, -⟩
      · exact hInv.apart request request' owner hOld hOld'
      · exact absurd (hNew' ▸ hInv.drawn request owner hOld) (Nat.lt_irrefl _)
    · by_contra hNe
      rw [hOthers request' (Ne.symm hNe)] at hOwner'
      exact absurd (hNew ▸ hInv.drawn request' owner hOwner') (Nat.lt_irrefl _)
  rows := by
    intro request lease hLease row hRow hOwner
    rcases claimed_origin h hLease with hOld | ⟨claim, hClaim, rfl, hTaken⟩
    · rcases slots_step h hRow with ⟨old, hOldRow, hKey, hSame⟩ | ⟨other, claim, hClaim, rfl, hNew⟩
      · have hNames := hInv.rows request lease hOld old hOldRow (hSame.symm.trans hOwner)
        exact ScanStreamLease.names_iff.mpr
          ⟨hKey.trans (ScanStreamLease.names_iff.mp hNames).1, hOwner⟩
      · -- the row of another claim has another owner
        have hOther : (w.requests other).owner? = some lease.owner := by
          rw [hClaim]
          exact congrArg some hOwner
        have hThis : (w.requests request).owner? = some lease.owner := by rw [hOld]; rfl
        obtain rfl := hInv.apart other request _ hOther hThis
        rw [hClaim] at hOld
        cases hOld
    · rcases (StreamClaim.mem_attempt hTaken).mp hRow with rfl | ⟨hOldRow, -⟩
      · exact claim.names_row
      · exact absurd hOwner ((hSlots.claims request claim hClaim).2.2.2 row hOldRow)

/-- A lease stays with its request. -/
theorem claimed_stays (h : w.step maxStreams action = some w')
    (hLease : w.requests request = .claimed lease) : w'.requests request = .claimed lease := by
  cases action with
  | tick elapsed => exact Option.some.inj h ▸ hLease
  | begin target userId =>
      simp only [StreamWorld.step, Option.ite_none_right_eq_some, Bool.and_eq_true,
        Option.some.injEq, decide_eq_true_eq] at h
      obtain ⟨⟨hIdle, -⟩, rfl⟩ := h
      rw [StreamWorld.set_other]
      · exact hLease
      · rintro rfl
        rw [hLease] at hIdle
        cases hIdle
  | attempt target =>
      have hNe {claim : StreamClaim} (hClaim : w.requests target = .claiming claim) :
          request ≠ target := by
        rintro rfl
        rw [hLease] at hClaim
        cases hClaim
      simp only [StreamWorld.step] at h
      split at h
      · rename_i claim hClaim
        split at h
        · obtain rfl := Option.some.inj h
          rw [StreamWorld.set_other (hNe hClaim)]
          exact hLease
        · obtain rfl := Option.some.inj h
          rw [StreamWorld.set_other (hNe hClaim)]
          exact hLease
      · cases h
  | renew target =>
      simp only [StreamWorld.step] at h
      split at h
      · exact Option.some.inj h ▸ hLease
      · cases h
  | release target =>
      simp only [StreamWorld.step] at h
      split at h
      · exact Option.some.inj h ▸ hLease
      · cases h

theorem ScanStreamLease.mem_renew_iff {now : Instant} {slots : Table ScanStreamSlot}
    {row' : ScanStreamSlot} : row' ∈ (lease.renew now slots).1 ↔
      ∃ row ∈ slots, (if lease.renews now row then
        { row with leaseExpiresAt := now + seconds STREAM_LEASE_SECONDS } else row) = row' := by
  rw [ScanStreamLease.renew, Table.mem_update]

/-- The lease has a row that does not expire before the time. -/
def SlotHeld (lease : ScanStreamLease) (until' : Instant) (slots : Table ScanStreamSlot) : Prop :=
  ∃ row ∈ slots, lease.names row = true ∧ until' ≤ row.leaseExpiresAt

/-- Only its own request gives up a slot before its lease expires. -/
theorem held_step {until' : Instant} (h : w.step maxStreams action = some w') (hInv : HolderInv w)
    (hLease : w.requests request = .claimed lease) (hKept : action ≠ .release request)
    (hNow : w.now < until') (hUntil : until' ≤ w.now + seconds STREAM_LEASE_SECONDS)
    (hHeld : SlotHeld lease until' w.slots) : SlotHeld lease until' w'.slots := by
  obtain ⟨row, hRow, hNames, hExpires⟩ := hHeld
  have hOwner : row.owner = lease.owner := (ScanStreamLease.names_iff.mp hNames).2
  cases action with
  | tick elapsed =>
      obtain rfl := Option.some.inj h
      exact ⟨row, hRow, hNames, hExpires⟩
  | begin target userId =>
      simp only [StreamWorld.step, Option.ite_none_right_eq_some, Option.some.injEq] at h
      obtain ⟨-, rfl⟩ := h
      exact ⟨row, hRow, hNames, hExpires⟩
  | attempt target =>
      simp only [StreamWorld.step] at h
      split at h
      · rename_i claim hClaim
        split at h
        · rename_i slots hTaken
          obtain rfl := Option.some.inj h
          refine ⟨row, (StreamClaim.mem_attempt hTaken).mpr (Or.inr ⟨hRow, fun hKey => ?_⟩),
            hNames, hExpires⟩
          -- an attempt only takes a slot that is free or whose lease has expired
          unfold StreamClaim.attempt at hTaken
          split at hTaken
          · rename_i hCount
            have hSome : ∃ old ∈ w.slots, claim.reclaims old = true := by
              by_contra hNone
              push Not at hNone
              rw [Table.count_eq_zero.mpr fun r hr => Bool.eq_false_iff.mpr (hNone r hr)] at hCount
              cases hCount
            obtain ⟨old, hOld, hReclaims⟩ := hSome
            obtain ⟨hOldKey, hExpired⟩ := StreamClaim.reclaims_iff.mp hReclaims
            obtain rfl := Table.eq_of_key hOld hRow (hOldKey.trans hKey.symm)
            have hPast := hInv.past target claim hClaim
            exact Nat.lt_irrefl _ (Nat.lt_of_lt_of_le hNow
              (Nat.le_trans hExpires (Nat.le_trans hExpired hPast)))
          · split at hTaken
            · obtain ⟨hFree, -⟩ := Table.insert?_eq_some.mp hTaken
              exact Table.find?_eq_none.mp hFree row hRow hKey
            · cases hTaken
        · obtain rfl := Option.some.inj h
          exact ⟨row, hRow, hNames, hExpires⟩
      · cases h
  | renew target =>
      simp only [StreamWorld.step] at h
      split at h
      · rename_i other hOther
        obtain rfl := Option.some.inj h
        by_cases hRenews : other.renews w.now row = true
        · exact ⟨{ row with leaseExpiresAt := w.now + seconds STREAM_LEASE_SECONDS },
            ScanStreamLease.mem_renew_iff.mpr ⟨row, hRow, if_pos hRenews⟩, hNames, hUntil⟩
        · exact ⟨row, ScanStreamLease.mem_renew_iff.mpr ⟨row, hRow, if_neg hRenews⟩, hNames,
            hExpires⟩
      · cases h
  | release target =>
      simp only [StreamWorld.step] at h
      split at h
      · rename_i other hOther
        obtain rfl := Option.some.inj h
        refine ⟨row, Table.mem_delete.mpr ⟨hRow, Bool.eq_false_iff.mpr fun hOtherNames => ?_⟩,
          hNames, hExpires⟩
        have hSame : other.owner = lease.owner :=
          (ScanStreamLease.names_iff.mp hOtherNames).2.symm.trans hOwner
        refine hKept (congrArg _ (hInv.apart target request lease.owner ?_ ?_))
        · rw [hOther]
          exact congrArg some hSame
        · rw [hLease]
          rfl
      · cases h

theorem held_of_renewed (h : (lease.renew w.now w.slots).2 = true) :
    SlotHeld lease (w.now + seconds STREAM_LEASE_SECONDS) (lease.renew w.now w.slots).1 := by
  have hCount : w.slots.count (lease.renews w.now) = 1 := beq_iff_eq.mp h
  have hSome : ∃ row ∈ w.slots, lease.renews w.now row = true := by
    by_contra hNone
    push Not at hNone
    rw [Table.count_eq_zero.mpr fun r hr => Bool.eq_false_iff.mpr (hNone r hr)] at hCount
    cases hCount
  obtain ⟨row, hRow, hRenews⟩ := hSome
  have hNames : lease.names row = true := ((Bool.and_eq_true _ _).mp hRenews).1
  exact ⟨{ row with leaseExpiresAt := w.now + seconds STREAM_LEASE_SECONDS },
    ScanStreamLease.mem_renew_iff.mpr ⟨row, hRow, if_pos hRenews⟩, hNames, Nat.le_refl _⟩

end Slots

/-! ## Running streams hold their slots -/

section Running

variable {env : AccountEnv} {json : JsonDump} {maxStreams : Nat} {w w' w₀ : LiveWorld}
  {action : LiveAction} {request : RequestId} {stream : StatusStream} {lease : ScanStreamLease}

theorem Moves.open {move : StreamMove} {phase : StreamPhase} (h : Moves w stream move phase) :
    stream.phase ≠ .closed := by
  intro hClosed
  cases h with
  | finished _ hOpen => exact hOpen hClosed
  | abandoned _ hOpen => exact hOpen hClosed
  | start hPhase => exact nomatch hPhase.symm.trans hClosed
  | due hPhase => exact nomatch hPhase.symm.trans hClosed
  | early hPhase => exact nomatch hPhase.symm.trans hClosed
  | active hPhase => exact nomatch hPhase.symm.trans hClosed
  | renewed hPhase => exact nomatch hPhase.symm.trans hClosed
  | polled hPhase => exact nomatch hPhase.symm.trans hClosed
  | closed hPhase => exact nomatch hPhase.symm.trans hClosed

/-- The request's user is the one its claim is made for. -/
def ClaimsFor (userId : UserId) : StreamRequest → Prop
  | .claiming claim => claim.userId = userId
  | .claimed lease => lease.userId = userId
  | .refused _ => True
  | .idle => False

/-- What the slots, the clocks and the streams have to do with each other. -/
structure LiveInv (maxStreams : Nat) (w : LiveWorld) : Prop where
  clock : w.slots.now = w.accounts.now
  slots : StreamInv maxStreams w.slots
  holders : HolderInv w.slots
  users : ∀ request stream, w.streams request = some stream →
    ClaimsFor stream.userId (w.slots.requests request)
  /-- A stream is closed by the release of its slot. -/
  released : ∀ request stream, w.streams request = some stream → stream.phase = .closed →
    ∃ lease, w.slots.requests request = .claimed lease ∧ ∀ row ∈ w.slots.slots,
      row.owner ≠ lease.owner

theorem claimsFor_step {slots slots' : StreamWorld} {action : StreamAction} {userId : UserId}
    (h : slots.step maxStreams action = some slots')
    (hFor : ClaimsFor userId (slots.requests request)) :
    ClaimsFor userId (slots'.requests request) := by
  have hLoop {claim : StreamClaim} (hUser : claim.userId = userId) :
      ClaimsFor userId (claim.loop maxStreams) := by
    unfold StreamClaim.loop
    split
    · exact hUser
    · trivial
  cases action with
  | begin target userId' =>
      simp only [StreamWorld.step, Option.ite_none_right_eq_some, Bool.and_eq_true,
        Option.some.injEq, decide_eq_true_eq] at h
      obtain ⟨⟨hIdle, -⟩, rfl⟩ := h
      rw [StreamWorld.set_other]
      · exact hFor
      · rintro rfl
        rw [hIdle] at hFor
        exact hFor
  | attempt target =>
      simp only [StreamWorld.step] at h
      split at h
      · rename_i claim hClaim
        by_cases hTarget : request = target
        · subst hTarget
          rw [hClaim] at hFor
          split at h
          · obtain rfl := Option.some.inj h
            rw [StreamWorld.set_self]
            exact hFor
          · obtain rfl := Option.some.inj h
            rw [StreamWorld.set_self]
            exact hLoop hFor
        · split at h
          · obtain rfl := Option.some.inj h
            rw [StreamWorld.set_other hTarget]
            exact hFor
          · obtain rfl := Option.some.inj h
            rw [StreamWorld.set_other hTarget]
            exact hFor
      · cases h
  | tick elapsed => exact Option.some.inj h ▸ hFor
  | renew target =>
      simp only [StreamWorld.step] at h
      split at h
      · exact Option.some.inj h ▸ hFor
      · cases h
  | release target =>
      simp only [StreamWorld.step] at h
      split at h
      · exact Option.some.inj h ▸ hFor
      · cases h

theorem claimsFor_begin {slots slots' : StreamWorld} {userId : UserId}
    (h : slots.step maxStreams (.begin request userId) = some slots') :
    ClaimsFor userId (slots'.requests request) := by
  simp only [StreamWorld.step, Option.ite_none_right_eq_some, Option.some.injEq] at h
  obtain ⟨-, rfl⟩ := h
  rw [StreamWorld.set_self]
  unfold StreamClaim.loop
  split
  · rfl
  · trivial

/-- No row of its owner comes back to a lease that has none. -/
theorem released_step {slots slots' : StreamWorld} {action : StreamAction}
    (h : slots.step maxStreams action = some slots') (hHolders : HolderInv slots)
    (hLease : slots.requests request = .claimed lease)
    (hNone : ∀ row ∈ slots.slots, row.owner ≠ lease.owner) :
    ∀ row ∈ slots'.slots, row.owner ≠ lease.owner := by
  intro row hRow hOwner
  rcases slots_step (streamStep_of_step h) hRow with ⟨old, hOld, -, hSame⟩ |
    ⟨other, claim, hClaim, rfl, -⟩
  · exact hNone old hOld (hSame.symm.trans hOwner)
  · have hOther : (slots.requests other).owner? = some lease.owner := by
      rw [hClaim]
      exact congrArg some hOwner
    have hThis : (slots.requests request).owner? = some lease.owner := by rw [hLease]; rfl
    obtain rfl := hHolders.apart other request _ hOther hThis
    rw [hClaim] at hLease
    cases hLease

theorem streamNow_step {slots slots' : StreamWorld} {action : StreamAction}
    (h : slots.step maxStreams action = some slots') :
    slots'.now = slots.now + match action with
      | .tick elapsed => elapsed
      | _ => 0 := by
  cases action with
  | tick elapsed => exact Option.some.inj h ▸ rfl
  | begin target userId =>
      simp only [StreamWorld.step, Option.ite_none_right_eq_some, Option.some.injEq] at h
      obtain ⟨-, rfl⟩ := h
      rfl
  | attempt target =>
      simp only [StreamWorld.step] at h
      split at h
      · split at h <;> exact Option.some.inj h ▸ rfl
      · cases h
  | renew target =>
      simp only [StreamWorld.step] at h
      split at h
      · exact Option.some.inj h ▸ rfl
      · cases h
  | release target =>
      simp only [StreamWorld.step] at h
      split at h
      · exact Option.some.inj h ▸ rfl
      · cases h

theorem clock_step (h : LiveStep env maxStreams w action w') (hClock : w.slots.now = w.accounts.now) :
    w'.slots.now = w'.accounts.now := by
  cases h with
  | @account action accounts slots hAccounts hSlots =>
      exact (streamNow_step hSlots).trans ((congrArg (· + (accounts.now - w.accounts.now)) hClock).trans
        (Nat.add_sub_cancel' (now_le hAccounts)))
  | jobs => exact hClock
  | @authenticate target token maxEvents accounts slots userId sessionId hAccepted hSlots =>
      have hSame : accounts.now = w.accounts.now := by
        have hEq := congrArg (fun result => result.1.now) hAccepted
        refine Eq.trans hEq.symm ?_
        show (w.accounts.resolveSession env token).1.now = w.accounts.now
        unfold Accounts.resolveSession
        split
        · rfl
        · dsimp only
          split
          · split <;> rfl
          · split <;> rfl
      exact (streamNow_step hSlots).trans (hClock.trans hSame.symm)
  | attempt hSlots => exact (streamNow_step hSlots).trans hClock
  | stream => exact hClock
  | renew _ _ _ _ _ hSlots => exact (streamNow_step hSlots).trans hClock
  | close _ _ hSlots => exact (streamNow_step hSlots).trans hClock

/-- A slot that is released has no row of its owner left. -/
theorem release_none {slots slots' : StreamWorld} (hHolders : HolderInv slots)
    (h : slots.step maxStreams (.release request) = some slots') :
    ∃ lease, slots'.requests request = .claimed lease ∧
      ∀ row ∈ slots'.slots, row.owner ≠ lease.owner := by
  have hStep := h
  simp only [StreamWorld.step] at h
  split at h
  · rename_i lease hLease
    refine ⟨lease, claimed_stays hStep hLease, fun row hRow hOwner => ?_⟩
    obtain rfl := Option.some.inj h
    obtain ⟨hOld, hNot⟩ := Table.mem_delete.mp hRow
    exact Bool.eq_false_iff.mp hNot (hHolders.rows request lease hLease row hOld hOwner)
  · cases h

theorem liveInv_step (h : LiveStep env maxStreams w action w') (hInv : LiveInv maxStreams w) :
    LiveInv maxStreams w' where
  clock := clock_step h hInv.clock
  slots := by
    rcases slots_of_step h with hSame | ⟨a, hStep⟩
    · exact hSame ▸ hInv.slots
    · exact streamInv_step (streamStep_of_step hStep) hInv.slots
  holders := by
    rcases slots_of_step h with hSame | ⟨a, hStep⟩
    · exact hSame ▸ hInv.holders
    · exact holderInv_step (streamStep_of_step hStep) hInv.slots hInv.holders
  users := by
    have hKept {request : RequestId} {userId : UserId}
        (hFor : ClaimsFor userId (w.slots.requests request)) :
        ClaimsFor userId (w'.slots.requests request) := by
      rcases slots_of_step h with hSame | ⟨a, hStep⟩
      · exact hSame ▸ hFor
      · exact claimsFor_step hStep hFor
    intro request stream hStream
    rcases stream_of_step h hStream with hOld | ⟨old, move, phase, hOld, -, -, rfl, -⟩ |
      ⟨token, accounts, -, -, hBegin⟩
    · exact hKept (hInv.users request stream hOld)
    · exact hKept (hInv.users request old hOld)
    · exact claimsFor_begin hBegin
  released := by
    intro request stream hStream hClosed
    rcases stream_of_step h hStream with hOld | ⟨old, move, phase, hOld, -, -, rfl, hRelease⟩ |
      ⟨token, accounts, hWaiting, -, -⟩
    · obtain ⟨lease, hLease, hNone⟩ := hInv.released request stream hOld hClosed
      rcases slots_of_step h with hSame | ⟨a, hStep⟩
      · exact hSame ▸ ⟨lease, hLease, hNone⟩
      · exact ⟨lease, claimed_stays hStep hLease,
          released_step hStep hInv.holders hLease hNone⟩
    · exact release_none hInv.holders (hRelease hClosed)
    · exact nomatch hWaiting.symm.trans hClosed

theorem LiveWorld.Initial.inv (h : w.Initial) : LiveInv maxStreams w where
  clock := h.clock
  slots := h.slots.inv
  holders := h.slots.holderInv
  users := fun request _ hStream => nomatch (h.noStreams request).symm.trans hStream
  released := fun request _ hStream => nomatch (h.noStreams request).symm.trans hStream

theorem liveInv_of_run {actions : List LiveAction} (h : w₀.Initial)
    (hRun : run (LiveWorld.step env json maxStreams) w₀ actions = some w) : LiveInv maxStreams w :=
  invariant (fun _ _ _ hStep => liveInv_step (liveStep_of_step hStep)) h.inv hRun

/-- The stream has been asked for and is not closed. -/
def OpenStream (w : LiveWorld) (request : RequestId) : Prop :=
  ∃ stream, w.streams request = some stream ∧ stream.phase ≠ .closed

/-- Since this time the request has a lease, whose row stays while the stream is open. -/
structure Holding (t : Instant) (request : RequestId) (lease : ScanStreamLease) (w : LiveWorld) :
    Prop where
  claimed : w.slots.requests request = .claimed lease
  past : t ≤ w.slots.now
  held : OpenStream w request → w.slots.now < t + seconds STREAM_LEASE_SECONDS →
    SlotHeld lease (t + seconds STREAM_LEASE_SECONDS) w.slots.slots

theorem open_before (h : LiveStep env maxStreams w action w')
    (hLease : w.slots.requests request = .claimed lease) (hOpen : OpenStream w' request) :
    OpenStream w request ∧ action ≠ .stream request .close := by
  obtain ⟨stream, hStream, hPhase⟩ := hOpen
  refine ⟨?_, ?_⟩
  · rcases stream_of_step h hStream with hOld | ⟨old, move, phase, hOld, -, hMoves, -, -⟩ |
      ⟨token, accounts, -, -, hBegin⟩
    · exact ⟨stream, hOld, hPhase⟩
    · exact ⟨old, hOld, hMoves.open⟩
    · simp only [StreamWorld.step, Option.ite_none_right_eq_some, Bool.and_eq_true,
        decide_eq_true_eq, hLease] at hBegin
      cases hBegin.1.1
  · rintro rfl
    cases h with
    | stream hOld hMoves _ hNot =>
        cases hMoves with
        | finished hMove => exact hMove rfl
        | abandoned hMove => exact hMove rfl
        | closed => exact hNot rfl
    | close hOld hClosing hSlots =>
        rw [LiveWorld.put, LiveWorld.enter_self] at hStream
        obtain rfl := Option.some.inj hStream
        exact hPhase rfl

theorem holding_step {t : Instant} (h : LiveStep env maxStreams w action w')
    (hInv : LiveInv maxStreams w) (hHolding : Holding t request lease w) :
    Holding t request lease w' := by
  have hKept {a : StreamAction} {slots : StreamWorld} (hStep : w.slots.step maxStreams a = some slots)
      (hNot : a ≠ .release request) (hOpen : OpenStream w request)
      (hNow : slots.now < t + seconds STREAM_LEASE_SECONDS) :
      SlotHeld lease (t + seconds STREAM_LEASE_SECONDS) slots.slots := by
    have hBefore : w.slots.now < t + seconds STREAM_LEASE_SECONDS :=
      Nat.lt_of_le_of_lt (streamNow_le (streamStep_of_step hStep)) hNow
    exact held_step hStep hInv.holders hHolding.claimed hNot hBefore
      (Nat.add_le_add_right hHolding.past _) (hHolding.held hOpen hBefore)
  have hBoth : w'.slots.requests request = .claimed lease ∧ t ≤ w'.slots.now := by
    rcases slots_of_step h with hSame | ⟨a, hStep⟩
    · exact hSame ▸ ⟨hHolding.claimed, hHolding.past⟩
    · exact ⟨claimed_stays hStep hHolding.claimed,
        Nat.le_trans hHolding.past (streamNow_le (streamStep_of_step hStep))⟩
  refine ⟨hBoth.1, hBoth.2, fun hOpen hNow => ?_⟩
  obtain ⟨hBefore, hNotClosed⟩ := open_before h hHolding.claimed hOpen
  cases h with
  | account _ hSlots => exact hKept hSlots StreamAction.noConfusion hBefore hNow
  | jobs => exact hHolding.held hBefore hNow
  | authenticate _ hSlots => exact hKept hSlots StreamAction.noConfusion hBefore hNow
  | attempt hSlots => exact hKept hSlots StreamAction.noConfusion hBefore hNow
  | stream => exact hHolding.held hBefore hNow
  | renew _ _ _ _ _ hSlots => exact hKept hSlots StreamAction.noConfusion hBefore hNow
  | @close target stream slots _ _ hSlots =>
      refine hKept hSlots (fun hEq => hNotClosed ?_) hBefore hNow
      rw [StreamAction.release.inj hEq]

/-- In the run the request was granted a slot that it had begun to claim at this time, or renewed
its slot at this time. -/
inductive Secured (env : AccountEnv) (json : JsonDump) (maxStreams : Nat) (w₀ : LiveWorld)
    (actions : List LiveAction) (request : RequestId) : Instant → Prop
  | granted {u v : LiveWorld} {claim : StreamClaim}
      (hStep : StepOf (LiveWorld.step env json maxStreams) w₀ actions u (.attempt request) v)
      (hClaim : u.slots.requests request = .claiming claim)
      (hLease : v.slots.requests request = .claimed claim.lease) :
      Secured env json maxStreams w₀ actions request claim.now
  | renewed {u v : LiveWorld} {stream : StatusStream} {loop : EventLoop} {read : Instant}
      (hStep : StepOf (LiveWorld.step env json maxStreams) w₀ actions u (.stream request .renew) v)
      (hStream : v.streams request = some stream) (hPhase : stream.phase = .polling loop read) :
      Secured env json maxStreams w₀ actions request u.accounts.now

theorem holding_of_granted {claim : StreamClaim} (hInv : LiveInv maxStreams w)
    (h : LiveStep env maxStreams w (.attempt request) w')
    (hClaim : w.slots.requests request = .claiming claim)
    (hLease : w'.slots.requests request = .claimed claim.lease) :
    Holding claim.now request claim.lease w' := by
  cases h with
  | @attempt target slots hSlots =>
      have hStep := streamStep_of_step hSlots
      refine ⟨hLease, Nat.le_trans (hInv.holders.past request claim hClaim) (streamNow_le hStep),
        fun _ _ => ?_⟩
      rcases claimed_origin hStep hLease with hOld | ⟨claim', hClaim', -, hTaken⟩
      · rw [hClaim] at hOld
        cases hOld
      · obtain rfl := StreamRequest.claiming.inj (hClaim.symm.trans hClaim')
        exact ⟨claim.row, (StreamClaim.mem_attempt hTaken).mpr (Or.inl rfl), claim.names_row,
          Nat.le_refl _⟩

theorem holding_of_renewed {loop : EventLoop} {read : Instant} (hInv : LiveInv maxStreams w)
    (h : LiveStep env maxStreams w (.stream request .renew) w')
    (hStream : w'.streams request = some stream) (hPhase : stream.phase = .polling loop read) :
    ∃ lease, Holding w.accounts.now request lease w' := by
  cases h with
  | stream _ _ hMove => exact absurd rfl hMove
  | @renew _ old phase slots lease hOld hMoves hLease hRenewed hOpen hSlots =>
      rw [LiveWorld.put, LiveWorld.enter_self] at hStream
      obtain rfl := Option.some.inj hStream
      have hRow := held_of_renewed (w := w.slots) (hRenewed fun hClosing => nomatch hPhase.symm.trans hClosing)
      refine ⟨lease, claimed_stays hSlots hLease, ?_, fun _ _ => ?_⟩
      · rw [← hInv.clock]
        exact streamNow_le (streamStep_of_step hSlots)
      · rw [← hInv.clock]
        simp only [StreamWorld.step, hLease] at hSlots
        obtain rfl := Option.some.inj hSlots
        exact hRow

theorem holding_of_secured {actions : List LiveAction} {t : Instant} (h : w₀.Initial)
    (hRun : run (LiveWorld.step env json maxStreams) w₀ actions = some w)
    (hSecured : Secured env json maxStreams w₀ actions request t) :
    ∃ lease, Holding t request lease w := by
  have hKeep (lease : ScanStreamLease) (t : Instant) : ∀ u a v,
      LiveWorld.step env json maxStreams u a = some v →
        LiveInv maxStreams u ∧ Holding t request lease u →
          LiveInv maxStreams v ∧ Holding t request lease v := fun _ _ _ hStep hBoth =>
    ⟨liveInv_step (liveStep_of_step hStep) hBoth.1,
      holding_step (liveStep_of_step hStep) hBoth.1 hBoth.2⟩
  have hBefore {u v : LiveWorld} {a : LiveAction}
      (hStep : StepOf (LiveWorld.step env json maxStreams) w₀ actions u a v) :
      LiveInv maxStreams u :=
    visits_induct h.inv hStep.before fun _ _ _ hStep => liveInv_step (liveStep_of_step hStep.step)
  cases hSecured with
  | granted hStep hClaim hLease =>
      have hLive := liveStep_of_step hStep.step
      exact ⟨_, (hStep.invariant hRun (hKeep _ _) ⟨liveInv_step hLive (hBefore hStep),
        holding_of_granted (hBefore hStep) hLive hClaim hLease⟩).2⟩
  | renewed hStep hStream hPhase =>
      have hLive := liveStep_of_step hStep.step
      obtain ⟨lease, hHolding⟩ := holding_of_renewed (hBefore hStep) hLive hStream hPhase
      exact ⟨lease, (hStep.invariant hRun (hKeep _ _)
        ⟨liveInv_step hLive (hBefore hStep), hHolding⟩).2⟩

/-- The stream of the user has not released its slot, and it secured the slot less than a lease
ago. -/
def RunningStream (env : AccountEnv) (json : JsonDump) (maxStreams : Nat) (w₀ : LiveWorld)
    (actions : List LiveAction) (w : LiveWorld) (userId : UserId) (request : RequestId) : Prop :=
  ∃ stream t, w.streams request = some stream ∧ stream.userId = userId ∧
    stream.phase ≠ .closed ∧ Secured env json maxStreams w₀ actions request t ∧
    w.accounts.now < t + seconds STREAM_LEASE_SECONDS

/-- A running stream has an unexpired row of its own. -/
theorem row_of_running {actions : List LiveAction} {userId : UserId} (h : w₀.Initial)
    (hRun : run (LiveWorld.step env json maxStreams) w₀ actions = some w)
    (hRunning : RunningStream env json maxStreams w₀ actions w userId request) :
    ∃ row ∈ w.slots.slots, row.userId = userId ∧ w.slots.now < row.leaseExpiresAt ∧
      (w.slots.requests request).owner? = some row.owner := by
  obtain ⟨stream, t, hStream, hUser, hOpen, hSecured, hNow⟩ := hRunning
  have hInv := liveInv_of_run h hRun
  obtain ⟨lease, hHolding⟩ := holding_of_secured h hRun hSecured
  rw [← hInv.clock] at hNow
  obtain ⟨row, hRow, hNames, hExpires⟩ := hHolding.held ⟨stream, hStream, hOpen⟩ hNow
  obtain ⟨hKey, hOwner⟩ := ScanStreamLease.names_iff.mp hNames
  have hFor := hInv.users request stream hStream
  rw [hHolding.claimed] at hFor
  refine ⟨row, hRow, (congrArg Prod.fst hKey).trans (Eq.trans hFor hUser),
    Nat.lt_of_lt_of_le hNow hExpires, ?_⟩
  rw [hHolding.claimed, hOwner]
  rfl

/-- The running streams of a user are never more than the slots, and a stream that has released its
slot leaves no row behind, however the streams and everything else take turns. -/
theorem running_streams_bounded {actions : List LiveAction} (hInitial : w₀.Initial)
    (hRun : run (LiveWorld.step env json maxStreams) w₀ actions = some w) :
    (∀ userId (requests : List RequestId), requests.Nodup →
      (∀ request ∈ requests, RunningStream env json maxStreams w₀ actions w userId request) →
        requests.length ≤ maxStreams) ∧
    (∀ request stream, w.streams request = some stream → stream.phase = .closed →
      ∃ lease, w.slots.requests request = .claimed lease ∧ ∀ row ∈ w.slots.slots,
        row.owner ≠ lease.owner) := by
  have hInv := liveInv_of_run hInitial hRun
  refine ⟨fun userId requests hNodup hRunning => ?_, hInv.released⟩
  have hRows : ∀ request ∈ requests, ∃ row ∈ w.slots.slots, row.userId = userId ∧
      w.slots.now < row.leaseExpiresAt ∧ (w.slots.requests request).owner? = some row.owner :=
    fun request hRequest => row_of_running hInitial hRun (hRunning request hRequest)
  have hSome : Nonempty ScanStreamSlot := ⟨⟨0, 0, 0, 0⟩⟩
  choose! rowOf hRowOf using hRows
  -- two requests have two owners, so they have two rows
  have hInjective : ∀ request ∈ requests, ∀ other ∈ requests, rowOf request = rowOf other →
      request = other := by
    intro request hRequest other hOther hEq
    refine hInv.holders.apart request other (rowOf request).owner
      (hRowOf request hRequest).2.2.2 ?_
    rw [hEq]
    exact (hRowOf other hOther).2.2.2
  have hSubset : requests.map rowOf ⊆ w.slots.slots.rows.filter fun row =>
      row.userId == userId && decide (w.slots.now < row.leaseExpiresAt) := by
    intro row hRow
    obtain ⟨request, hRequest, rfl⟩ := List.mem_map.mp hRow
    obtain ⟨hMem, hUser, hNow, -⟩ := hRowOf request hRequest
    refine List.mem_filter.mpr ⟨hMem, ?_⟩
    rw [Bool.and_eq_true, beq_iff_eq, decide_eq_true_eq]
    exact ⟨hUser, hNow⟩
  have hLength := ((hNodup.map_on hInjective).subperm hSubset).length_le
  rw [List.length_map, ← List.countP_eq_length_filter] at hLength
  exact Nat.le_trans hLength (streams_le hInv.slots userId)

theorem running_streams_bounded_one :
    [0].length ≤ 1 ∧ (liveAfter streamBegins).streams 0 =
      some ⟨1, 0, none, .ready ⟨none, 0, 0, seconds 15⟩⟩ := by
  have hRun : run (LiveWorld.step demoAccountEnv stateDump 1) demoLive streamBegins =
      some (liveAfter streamBegins) := run_getD (by decide +kernel)
  have hAttempt : run (LiveWorld.step demoAccountEnv stateDump 1)
      (liveAfter (streamBegins.take 2)) [.attempt 0] = some (liveAfter (streamBegins.take 3)) :=
    run_getD_append (show (run (LiveWorld.step demoAccountEnv stateDump 1) demoLive
      (streamBegins.take 2 ++ [.attempt 0])).isSome = true by decide +kernel)
  obtain ⟨v, hStep, hEnd⟩ := run_cons.mp hAttempt
  obtain rfl := Option.some.inj hEnd
  have hGranted : Secured demoAccountEnv stateDump 1 demoLive streamBegins 0 0 :=
    .granted ⟨streamBegins.take 2, streamBegins.drop 3, rfl, run_getD (by decide +kernel), hStep⟩
      (show (liveAfter (streamBegins.take 2)).slots.requests 0 = .claiming ⟨1, 0, 0, 0⟩ by
        decide +kernel)
      (by decide +kernel)
  have hStream : (liveAfter streamBegins).streams 0 =
      some ⟨1, 0, none, .ready ⟨none, 0, 0, seconds 15⟩⟩ := by decide +kernel
  have hRunning : RunningStream demoAccountEnv stateDump 1 demoLive streamBegins
      (liveAfter streamBegins) 1 0 :=
    ⟨_, 0, hStream, rfl, StreamPhase.noConfusion, hGranted, by decide +kernel⟩
  refine ⟨?_, hStream⟩
  exact (running_streams_bounded demoLive_initial hRun).1 1 [0] (by decide) fun request hRequest =>
    List.mem_singleton.mp hRequest ▸ hRunning

end Running

end SavedOrganizer
