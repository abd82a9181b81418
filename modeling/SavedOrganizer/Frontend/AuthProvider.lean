import SavedOrganizer.Library.LatestRequest
import SavedOrganizer.Library.Transition

/-!
# The signed-in user of the frontend

`AuthProvider` shows who is signed in. It asks the server when it is mounted, when another tab
reports a change and when a page wants it, signs in and out, and is told by other requests and
other tabs that the session is over. `requestVersion` is the counter of its view: every request
that may sign a user in takes a version, and every sign-out makes the versions before it void.

A user is known exactly while the status says so (`identity_consistent`), and after a sign-out
only an answer to a request that was sent later shows a user (`sign_out_wins`). The sign-out of
`logout` takes effect with its answer: the user that was shown may stay until then, and a request
that is sent in between may still show one.
-/

namespace SavedOrganizer.Frontend.Auth

open LatestRequest Transition

abbrev CallId := Nat

inductive AuthStatus
  | loading | authenticated | anonymous | unavailable
  deriving DecidableEq, Repr

structure AccountUser where
  id : String
  email : String
  displayName : String
  createdAt : String
  deriving DecidableEq, Repr

/-- What a session request resolves to: the `SessionStatus`, or a payload that `isAccountUser`
and the checks beside it do not accept. -/
inductive SessionAnswer
  | authenticated (user : AccountUser)
  | anonymous
  | invalid
  deriving DecidableEq, Repr

/-- The `status` and the `user` of the context. -/
structure Identity where
  status : AuthStatus
  user : Option AccountUser
  deriving DecidableEq, Repr

/-- An asynchronous function at its `await`. -/
inductive AuthCall
  /-- `loadSession`, with what it remembers. -/
  | load (background broadcast : Bool)
  | login
  /-- `register`, at the second `await` as at the first. -/
  | register
  | logout
  deriving DecidableEq, Repr

/-- What is posted to the other tabs. -/
inductive ChannelMessage
  | sessionChanged
  | signedOut
  deriving DecidableEq, Repr

structure AuthProvider where
  view : View CallId Identity
  statusRef : AuthStatus
  calls : CallId → Option AuthCall
  posted : List ChannelMessage

inductive AuthAction
  /-- Also on a `session-changed` of another tab. -/
  | load (k : CallId) (broadcast : Bool)
  | login (k : CallId)
  | register (k : CallId)
  | logout (k : CallId)
  | answer (k : CallId) (result : SessionAnswer)
  | fail (k : CallId)
  /-- `API_UNAUTHORIZED_EVENT`. -/
  | unauthorized
  /-- `signed-out` of another tab. -/
  | signedOutElsewhere
  deriving DecidableEq, Repr

namespace AuthProvider

def anonymous : Identity := ⟨.anonymous, none⟩

def post (message : ChannelMessage) (a : AuthProvider) : AuthProvider :=
  { a with posted := a.posted ++ [message] }

def put (identity : Identity) (now : Nat) (a : AuthProvider) : AuthProvider :=
  { a with
    view := { a.view with shown := identity, shownAt := now }
    statusRef := identity.status }

/-- `clearIdentity`. -/
def clearIdentity (now : Nat) (a : AuthProvider) : AuthProvider :=
  if a.statusRef = .anonymous then a else a.put anonymous now

/-- `if (clearIdentity()) broadcastAuthChange({ type: "signed-out" })`. -/
def clearAndPost (now : Nat) (a : AuthProvider) : AuthProvider :=
  if a.statusRef = .anonymous then a else (a.put anonymous now).post .signedOut

def supersede (a : AuthProvider) : AuthProvider := { a with view := a.view.supersede }

def finish (k : CallId) (a : AuthProvider) : AuthProvider :=
  { a with view := a.view.forget k, calls := Function.update a.calls k none }

/-- `loadSession`, up to its `await`. -/
def loadSession (now : Nat) (k : CallId) (broadcast : Bool) (a : AuthProvider) : AuthProvider :=
  if a.statusRef = .authenticated then
    { a with
      view := a.view.send now k
      calls := Function.update a.calls k (some (.load true broadcast)) }
  else
    { a with
      view := a.view.sendShowing now k { a.view.shown with status := .loading }
      statusRef := .loading
      calls := Function.update a.calls k (some (.load false broadcast)) }

/-- `login` and `register`, up to their `await`. -/
def signIn (now : Nat) (k : CallId) (call : AuthCall) (a : AuthProvider) : AuthProvider :=
  { a with view := a.view.send now k, calls := Function.update a.calls k (some call) }

/-- `logout`, up to its `await`. -/
def logout (k : CallId) (a : AuthProvider) : AuthProvider :=
  { a.supersede with calls := Function.update a.calls k (some .logout) }

/-- The `catch` of `loadSession`. -/
def loadFailed (now : Nat) (background : Bool) (a : AuthProvider) : AuthProvider :=
  if background then a else a.put ⟨.unavailable, none⟩ now

/-- What the answer does of a request whose version is current. -/
def accept (now : Nat) (call : AuthCall) (result : SessionAnswer) (a : AuthProvider) :
    AuthProvider :=
  match call, result with
  | .load _ broadcast, .authenticated user =>
      let shown := a.put ⟨.authenticated, some user⟩ now
      if broadcast then shown.post .sessionChanged else shown
  | .load _ broadcast, .anonymous => if broadcast then a.clearAndPost now else a.clearIdentity now
  | .load background _, .invalid => a.loadFailed now background
  | .login, .authenticated user | .register, .authenticated user =>
      (a.put ⟨.authenticated, some user⟩ now).post .sessionChanged
  | _, _ => a

/-- A call has its answer. A `logout` does not look at the version. -/
def answered (now : Nat) (k : CallId) (call : AuthCall) (result : SessionAnswer)
    (a : AuthProvider) : AuthProvider :=
  (match call with
    | .logout => a.clearAndPost now
    | _ => if a.view.current k then a.accept now call result else a).finish k

def failed (now : Nat) (k : CallId) (call : AuthCall) (a : AuthProvider) : AuthProvider :=
  (match call with
    | .load background _ => if a.view.current k then a.loadFailed now background else a
    | _ => a).finish k

/-- The clock is the number of steps. -/
def step (s : Nat × AuthProvider) (action : AuthAction) : Option (Nat × AuthProvider) :=
  let now := s.1 + 1
  let a := s.2
  let free (k : CallId) (next : AuthProvider) : Option (Nat × AuthProvider) :=
    if a.calls k = none then some (now, next) else none
  match action with
  | .load k broadcast => free k (a.loadSession now k broadcast)
  | .login k => free k (a.signIn now k .login)
  | .register k => free k (a.signIn now k .register)
  | .logout k => free k (a.logout k)
  | .answer k result => (a.calls k).map fun call => (now, a.answered now k call result)
  | .fail k => (a.calls k).map fun call => (now, a.failed now k call)
  | .unauthorized => some (now, a.supersede.clearAndPost now)
  | .signedOutElsewhere => some (now, a.supersede.clearIdentity now)

/-- Before it is mounted. -/
def initial : Nat × AuthProvider :=
  (0, ⟨⟨0, ⟨.loading, none⟩, 0, fun _ => none⟩, .loading, fun _ => none, []⟩)

end AuthProvider

/-! ## The identity that is shown -/

section Identity

variable {now : Nat} {k : CallId} {call : AuthCall} {result : SessionAnswer} {a : AuthProvider}
  {s t : Nat × AuthProvider} {action : AuthAction}

def Identity.Valid (identity : Identity) : Prop :=
  identity.status = .authenticated ↔ identity.user.isSome = true

/-- The reference agrees with the status, and the status with the user. -/
structure Consistent (a : AuthProvider) : Prop where
  reference : a.statusRef = a.view.shown.status
  valid : a.view.shown.Valid

theorem valid_user (user : AccountUser) : Identity.Valid ⟨.authenticated, some user⟩ :=
  ⟨fun _ => rfl, fun _ => rfl⟩

theorem valid_nobody {status : AuthStatus} (h : status ≠ .authenticated) :
    Identity.Valid ⟨status, none⟩ :=
  ⟨fun hStatus => absurd hStatus h, fun hUser => absurd hUser Bool.false_ne_true⟩

namespace Consistent

theorem put {identity : Identity} (hValid : identity.Valid) (now : Nat) (a : AuthProvider) :
    Consistent (a.put identity now) := ⟨rfl, hValid⟩

theorem post (h : Consistent a) (message : ChannelMessage) : Consistent (a.post message) :=
  ⟨h.reference, h.valid⟩

theorem supersede (h : Consistent a) : Consistent a.supersede := ⟨h.reference, h.valid⟩

theorem finish (h : Consistent a) (k : CallId) : Consistent (a.finish k) := ⟨h.reference, h.valid⟩

theorem clearIdentity (h : Consistent a) (now : Nat) : Consistent (a.clearIdentity now) := by
  unfold AuthProvider.clearIdentity
  split
  · exact h
  · exact put (valid_nobody AuthStatus.noConfusion) now a

theorem clearAndPost (h : Consistent a) (now : Nat) : Consistent (a.clearAndPost now) := by
  unfold AuthProvider.clearAndPost
  split
  · exact h
  · exact (put (valid_nobody AuthStatus.noConfusion) now a).post _

theorem loadFailed (h : Consistent a) (now : Nat) (background : Bool) :
    Consistent (a.loadFailed now background) := by
  unfold AuthProvider.loadFailed
  split
  · exact h
  · exact put (valid_nobody AuthStatus.noConfusion) now a

theorem loadSession (h : Consistent a) (now : Nat) (k : CallId) (broadcast : Bool) :
    Consistent (a.loadSession now k broadcast) := by
  unfold AuthProvider.loadSession
  split
  · exact ⟨h.reference, h.valid⟩
  · -- who is not signed in is not known either
    rename_i hOut
    rw [h.reference] at hOut
    exact
      { reference := rfl
        valid :=
          ⟨fun hStatus => AuthStatus.noConfusion hStatus,
            fun hUser => absurd (h.valid.mpr hUser) hOut⟩ }

theorem accept (h : Consistent a) (now : Nat) (call : AuthCall) (result : SessionAnswer) :
    Consistent (a.accept now call result) := by
  cases call with
  | load background broadcast =>
      cases result with
      | authenticated user =>
          unfold AuthProvider.accept
          dsimp only
          split
          · exact (put (valid_user user) now a).post _
          · exact put (valid_user user) now a
      | anonymous =>
          unfold AuthProvider.accept
          dsimp only
          split
          · exact h.clearAndPost now
          · exact h.clearIdentity now
      | invalid => exact h.loadFailed now background
  | login =>
      cases result with
      | authenticated user => exact (put (valid_user user) now a).post _
      | anonymous => exact h
      | invalid => exact h
  | register =>
      cases result with
      | authenticated user => exact (put (valid_user user) now a).post _
      | anonymous => exact h
      | invalid => exact h
  | logout => cases result <;> exact h

theorem answered (h : Consistent a) (now : Nat) (k : CallId) (call : AuthCall)
    (result : SessionAnswer) : Consistent (a.answered now k call result) := by
  unfold AuthProvider.answered
  refine finish ?_ k
  split
  · exact h.clearAndPost now
  · split
    · exact h.accept now call result
    · exact h

theorem failed (h : Consistent a) (now : Nat) (k : CallId) (call : AuthCall) :
    Consistent (a.failed now k call) := by
  unfold AuthProvider.failed
  refine finish ?_ k
  split
  · split
    · exact h.loadFailed now _
    · exact h
  · exact h

theorem step (h : AuthProvider.step s action = some t) (hInv : Consistent s.2) :
    Consistent t.2 := by
  cases action with
  | load k broadcast =>
      simp only [AuthProvider.step, Option.ite_none_right_eq_some, Option.some.injEq] at h
      exact h.2 ▸ hInv.loadSession _ k broadcast
  | login k =>
      simp only [AuthProvider.step, Option.ite_none_right_eq_some, Option.some.injEq] at h
      exact h.2 ▸ ⟨hInv.reference, hInv.valid⟩
  | register k =>
      simp only [AuthProvider.step, Option.ite_none_right_eq_some, Option.some.injEq] at h
      exact h.2 ▸ ⟨hInv.reference, hInv.valid⟩
  | logout k =>
      simp only [AuthProvider.step, Option.ite_none_right_eq_some, Option.some.injEq] at h
      exact h.2 ▸ ⟨hInv.reference, hInv.valid⟩
  | answer k result =>
      obtain ⟨call, -, rfl⟩ := Option.map_eq_some_iff.mp h
      exact hInv.answered _ k call result
  | fail k =>
      obtain ⟨call, -, rfl⟩ := Option.map_eq_some_iff.mp h
      exact hInv.failed _ k call
  | unauthorized => exact Option.some.inj h ▸ hInv.supersede.clearAndPost _
  | signedOutElsewhere => exact Option.some.inj h ▸ hInv.supersede.clearIdentity _

end Consistent

theorem consistent_initial : Consistent AuthProvider.initial.2 :=
  ⟨rfl, valid_nobody AuthStatus.noConfusion⟩

/-- In every state the provider reaches, whatever order answers, failures and messages of other
tabs come in, the status says `authenticated` exactly while a user is known, and the reference
its requests read is the status on display. -/
theorem identity_consistent {actions : List AuthAction} {s : Nat × AuthProvider}
    (hRun : run AuthProvider.step AuthProvider.initial actions = some s) :
    s.2.statusRef = s.2.view.shown.status ∧
      (s.2.view.shown.status = .authenticated ↔ s.2.view.shown.user.isSome = true) := by
  have hInv :=
    invariant (fun _ _ _ hStep h => Consistent.step hStep h) consistent_initial hRun
  exact ⟨hInv.reference, hInv.valid⟩

/-! ## Sign-outs -/

/-- Neither the counter nor the requests under way change. -/
structure SameRequests (a b : AuthProvider) : Prop where
  version : b.view.version = a.view.version
  pending : b.view.pending = a.view.pending

namespace SameRequests

theorem refl (a : AuthProvider) : SameRequests a a := ⟨rfl, rfl⟩

theorem clearIdentity (now : Nat) (a : AuthProvider) : SameRequests a (a.clearIdentity now) := by
  unfold AuthProvider.clearIdentity
  split <;> exact ⟨rfl, rfl⟩

theorem clearAndPost (now : Nat) (a : AuthProvider) : SameRequests a (a.clearAndPost now) := by
  unfold AuthProvider.clearAndPost
  split <;> exact ⟨rfl, rfl⟩

theorem loadFailed (now : Nat) (background : Bool) (a : AuthProvider) :
    SameRequests a (a.loadFailed now background) := by
  unfold AuthProvider.loadFailed
  split <;> exact ⟨rfl, rfl⟩

theorem accept (now : Nat) (call : AuthCall) (result : SessionAnswer) (a : AuthProvider) :
    SameRequests a (a.accept now call result) := by
  unfold AuthProvider.accept
  split
  · dsimp only
    split <;> exact ⟨rfl, rfl⟩
  · split
    · exact clearAndPost now a
    · exact clearIdentity now a
  · exact loadFailed now _ a
  · exact ⟨rfl, rfl⟩
  · exact ⟨rfl, rfl⟩
  · exact refl a

end SameRequests

/-- What a step does to the counter and to the requests under way. -/
structure Advance (s t : Nat × AuthProvider) : Prop where
  clock : t.1 = s.1 + 1
  version_le : s.2.view.version ≤ t.2.view.version
  pending : ∀ k p, t.2.view.pending k = some p →
    s.2.view.pending k = some p ∨ (p.version ≤ t.2.view.version ∧ p.sentAt = t.1)

namespace Advance

variable {b : AuthProvider} {n : Nat}

theorem sent (n : Nat) (a : AuthProvider) (k : CallId)
    (hView : b.view.version = (a.view.send (n + 1) k).version)
    (hPending : b.view.pending = (a.view.send (n + 1) k).pending) :
    Advance (n, a) (n + 1, b) where
  clock := rfl
  version_le := Nat.le_of_lt (Nat.lt_of_lt_of_eq (Nat.lt_succ_self _) hView.symm)
  pending k' p hp := by
    dsimp only at hp
    rw [hPending] at hp
    rcases View.of_pending_send hp with ⟨-, rfl⟩ | hOld
    · exact Or.inr ⟨Nat.le_of_eq hView.symm, rfl⟩
    · exact Or.inl hOld

theorem finished (n : Nat) (h : SameRequests a b) (k : CallId) :
    Advance (n, a) (n + 1, b.finish k) where
  clock := rfl
  version_le := Nat.le_of_eq h.version.symm
  pending _ _ hp := Or.inl (h.pending ▸ (View.of_pending_forget hp).2)

theorem superseded (n : Nat) (h : SameRequests a.supersede b) : Advance (n, a) (n + 1, b) where
  clock := rfl
  version_le := Nat.le_of_lt (Nat.lt_of_lt_of_eq (Nat.lt_succ_self _) h.version.symm)
  pending k' p hp := Or.inl (by rw [← hp]; exact congrFun h.pending.symm k')

end Advance

theorem advance_step (h : AuthProvider.step s action = some t) : Advance s t := by
  obtain ⟨n, a⟩ := s
  cases action with
  | load k broadcast =>
      simp only [AuthProvider.step, Option.ite_none_right_eq_some, Option.some.injEq] at h
      obtain ⟨-, rfl⟩ := h
      unfold AuthProvider.loadSession
      split <;> exact Advance.sent n a k rfl rfl
  | login k =>
      simp only [AuthProvider.step, Option.ite_none_right_eq_some, Option.some.injEq] at h
      exact h.2 ▸ Advance.sent n a k rfl rfl
  | register k =>
      simp only [AuthProvider.step, Option.ite_none_right_eq_some, Option.some.injEq] at h
      exact h.2 ▸ Advance.sent n a k rfl rfl
  | logout k =>
      simp only [AuthProvider.step, Option.ite_none_right_eq_some, Option.some.injEq] at h
      exact h.2 ▸ Advance.superseded n ⟨rfl, rfl⟩
  | answer k result =>
      obtain ⟨call, -, rfl⟩ := Option.map_eq_some_iff.mp h
      refine Advance.finished n ?_ k
      split
      · exact .clearAndPost _ a
      · split
        · exact .accept _ call result a
        · exact .refl a
  | fail k =>
      obtain ⟨call, -, rfl⟩ := Option.map_eq_some_iff.mp h
      refine Advance.finished n ?_ k
      split
      · split
        · exact .loadFailed _ _ a
        · exact .refl a
      · exact .refl a
  | unauthorized =>
      exact Option.some.inj h ▸ Advance.superseded n (.clearAndPost _ _)
  | signedOutElsewhere =>
      exact Option.some.inj h ▸ Advance.superseded n (.clearIdentity _ _)

theorem user_clearIdentity (hInv : Consistent a) :
    (a.clearIdentity now).view.shown.user = none := by
  unfold AuthProvider.clearIdentity
  split
  · rename_i hOut
    rw [hInv.reference] at hOut
    exact Option.not_isSome_iff_eq_none.mp fun hSome =>
      AuthStatus.noConfusion (hOut.symm.trans (hInv.valid.mpr hSome))
  · rfl

theorem user_clearAndPost (hInv : Consistent a) :
    (a.clearAndPost now).view.shown.user = none := by
  have hClear : (a.clearIdentity now).view.shown.user = none := user_clearIdentity hInv
  rw [← hClear]
  unfold AuthProvider.clearAndPost AuthProvider.clearIdentity
  split <;> rfl

theorem user_loadFailed {user : AccountUser} {background : Bool}
    (h : (a.loadFailed now background).view.shown.user = some user) :
    a.view.shown.user = some user := by
  unfold AuthProvider.loadFailed at h
  split at h
  · exact h
  · cases h

/-- A user that an accepted answer shows was shown before, or is the one it brings. -/
theorem user_accept {user : AccountUser} (hInv : Consistent a)
    (h : (a.accept now call result).view.shown.user = some user) :
    a.view.shown.user = some user ∨ result = .authenticated user := by
  unfold AuthProvider.accept at h
  split at h
  · dsimp only at h
    split at h <;> exact Or.inr (congrArg SessionAnswer.authenticated (Option.some.inj h))
  · split at h
    · cases (user_clearAndPost hInv).symm.trans h
    · cases (user_clearIdentity hInv).symm.trans h
  · exact Or.inl (user_loadFailed h)
  · exact Or.inr (congrArg SessionAnswer.authenticated (Option.some.inj h))
  · exact Or.inr (congrArg SessionAnswer.authenticated (Option.some.inj h))
  · exact Or.inl h

/-- A step that shows a user other than before is an answer that is still wanted. -/
theorem user_step {user : AccountUser} (h : AuthProvider.step s action = some t)
    (hInv : Consistent s.2) (hUser : t.2.view.shown.user = some user) :
    s.2.view.shown.user = some user ∨
      ∃ k, action = .answer k (.authenticated user) ∧ s.2.view.current k = true := by
  cases action with
  | load k broadcast =>
      simp only [AuthProvider.step, Option.ite_none_right_eq_some, Option.some.injEq] at h
      obtain ⟨-, rfl⟩ := h
      unfold AuthProvider.loadSession at hUser
      split at hUser <;> exact Or.inl hUser
  | login k =>
      simp only [AuthProvider.step, Option.ite_none_right_eq_some, Option.some.injEq] at h
      obtain ⟨-, rfl⟩ := h
      exact Or.inl hUser
  | register k =>
      simp only [AuthProvider.step, Option.ite_none_right_eq_some, Option.some.injEq] at h
      obtain ⟨-, rfl⟩ := h
      exact Or.inl hUser
  | logout k =>
      simp only [AuthProvider.step, Option.ite_none_right_eq_some, Option.some.injEq] at h
      obtain ⟨-, rfl⟩ := h
      exact Or.inl hUser
  | answer k result =>
      obtain ⟨call, -, rfl⟩ := Option.map_eq_some_iff.mp h
      unfold AuthProvider.answered AuthProvider.finish at hUser
      dsimp only [View.forget] at hUser
      split at hUser
      · cases (user_clearAndPost hInv).symm.trans hUser
      · split at hUser
        · rename_i hCurrent
          rcases user_accept hInv hUser with hOld | rfl
          · exact Or.inl hOld
          · exact Or.inr ⟨k, rfl, hCurrent⟩
        · exact Or.inl hUser
  | fail k =>
      obtain ⟨call, -, rfl⟩ := Option.map_eq_some_iff.mp h
      unfold AuthProvider.failed AuthProvider.finish at hUser
      dsimp only [View.forget] at hUser
      split at hUser
      · split at hUser
        · exact Or.inl (user_loadFailed hUser)
        · exact Or.inl hUser
      · exact Or.inl hUser
  | unauthorized =>
      obtain rfl := Option.some.inj h
      cases (user_clearAndPost hInv.supersede).symm.trans hUser
  | signedOutElsewhere =>
      obtain rfl := Option.some.inj h
      cases (user_clearIdentity hInv.supersede).symm.trans hUser

/-- `logout`, a refused request and the message of another tab. -/
def AuthAction.SignsOut : AuthAction → Prop
  | .logout _ | .unauthorized | .signedOutElsewhere => True
  | _ => False

/-- The requests under way after a sign-out are void or were sent after it. -/
structure SinceSignOut (x s : Nat × AuthProvider) : Prop where
  clock_le : x.1 ≤ s.1
  version_le : x.2.view.version ≤ s.2.view.version
  pending : ∀ k p, s.2.view.pending k = some p → p.version < x.2.view.version ∨ x.1 < p.sentAt

theorem sinceSignOut_step {x : Nat × AuthProvider} (h : AuthProvider.step s action = some t)
    (hInv : SinceSignOut x s) : SinceSignOut x t := by
  have hStep := advance_step h
  refine ⟨?_, Nat.le_trans hInv.version_le hStep.version_le, fun k p hp => ?_⟩
  · exact hStep.clock ▸ Nat.le_succ_of_le hInv.clock_le
  · rcases hStep.pending k p hp with hOld | ⟨-, hSent⟩
    · exact hInv.pending k p hOld
    · refine Or.inr ?_
      rw [hSent, hStep.clock]
      exact Nat.lt_succ_of_le hInv.clock_le

/-- No request has a version that has not been given out. -/
def Versioned (s : Nat × AuthProvider) : Prop :=
  ∀ k p, s.2.view.pending k = some p → p.version ≤ s.2.view.version

theorem versioned_step (h : AuthProvider.step s action = some t) (hInv : Versioned s) :
    Versioned t := by
  have hStep := advance_step h
  intro k p hp
  rcases hStep.pending k p hp with hOld | ⟨hNew, -⟩
  · exact Nat.le_trans (hInv k p hOld) hStep.version_le
  · exact hNew

theorem versioned_initial : Versioned AuthProvider.initial := by
  intro k p h
  cases h

theorem sinceSignOut_start {x : Nat × AuthProvider} (hOut : action.SignsOut)
    (h : AuthProvider.step s action = some x) (hInv : Versioned s) : SinceSignOut x x := by
  have hVoid : SameRequests s.2.supersede x.2 := by
    cases action with
    | logout k =>
        simp only [AuthProvider.step, Option.ite_none_right_eq_some, Option.some.injEq] at h
        exact h.2 ▸ ⟨rfl, rfl⟩
    | unauthorized => exact Option.some.inj h ▸ .clearAndPost _ _
    | signedOutElsewhere => exact Option.some.inj h ▸ .clearIdentity _ _
    | load | login | register | answer | fail => exact hOut.elim
  refine ⟨Nat.le_refl _, Nat.le_refl _, fun k p hp => Or.inl ?_⟩
  rw [hVoid.pending] at hp
  rw [hVoid.version]
  exact Nat.lt_succ_of_le (hInv k p hp)

/-- The user has come with an answer to a request that was sent after `x`. -/
def BroughtSince (x : Nat × AuthProvider) (after : List AuthAction) (user : AccountUser) : Prop :=
  ∃ k p u v, StepOf AuthProvider.step x after u (.answer k (.authenticated user)) v ∧
    u.2.view.pending k = some p ∧ x.1 < p.sentAt

/-- The user is shown from `x` on without a break. -/
def ShownThroughout (x : Nat × AuthProvider) (after : List AuthAction) (user : AccountUser) : Prop :=
  ∀ z, Visits AuthProvider.step x after z → z.2.view.shown.user = some user

/-- No `logout` has its answer after `x`. -/
def NoLogoutAnswered (x : Nat × AuthProvider) (after : List AuthAction) : Prop :=
  ∀ u j result v, StepOf AuthProvider.step x after u (.answer j result) v →
    u.2.calls j ≠ some .logout

theorem user_logoutAnswered (h : AuthProvider.step s (.answer k result) = some t)
    (hInv : Consistent s.2) (hCall : s.2.calls k = some .logout) : t.2.view.shown.user = none := by
  obtain ⟨call, hCall', rfl⟩ := Option.map_eq_some_iff.mp h
  obtain rfl := Option.some.inj (hCall.symm.trans hCall')
  exact user_clearAndPost hInv

theorem ShownThroughout.noLogoutAnswered {x : Nat × AuthProvider} {after : List AuthAction}
    {user : AccountUser} (hConsistent : Consistent x.2) (h : ShownThroughout x after user) :
    NoLogoutAnswered x after := by
  intro u j result v hStep hCall
  have hInv : Consistent u.2 := visits_induct (I := fun z => Consistent z.2) hConsistent
    hStep.before fun _ _ _ hStep hu => Consistent.step hStep.step hu
  cases (user_logoutAnswered hStep.step hInv hCall).symm.trans (h v hStep.after)

/-- The user at the end of a run after a sign-out was there all the time, or has been brought. -/
theorem shown_since {x y : Nat × AuthProvider} {after : List AuthAction} {user : AccountUser}
    (hConsistent : Consistent x.2) (hSince : SinceSignOut x x)
    (hAfter : run AuthProvider.step x after = some y)
    (hUser : y.2.view.shown.user = some user) :
    BroughtSince x after user ∨ ShownThroughout x after user := by
  induction after using List.reverseRecOn generalizing y with
  | nil =>
      obtain rfl := Option.some.inj hAfter
      refine Or.inr fun z hVisit => ?_
      obtain ⟨front, back, hNil, hRun⟩ := hVisit
      obtain ⟨rfl, rfl⟩ := List.append_eq_nil_iff.mp hNil.symm
      obtain rfl := Option.some.inj hRun
      exact hUser
  | append_singleton after a ih =>
      obtain ⟨u, hRun, hStep⟩ := run_concat.mp hAfter
      have hBoth : Consistent u.2 ∧ SinceSignOut x u :=
        invariant (I := fun z => Consistent z.2 ∧ SinceSignOut x z)
          (fun _ _ _ h hz => ⟨Consistent.step h hz.1, sinceSignOut_step h hz.2⟩)
          ⟨hConsistent, hSince⟩ hRun
      rcases user_step hStep hBoth.1 hUser with hOld | ⟨k, rfl, hCurrent⟩
      · rcases ih hRun hOld with ⟨k, p, u', v', hBrought, hRest⟩ | hThroughout
        · exact Or.inl ⟨k, p, u', v', hBrought.append_right _, hRest⟩
        · refine Or.inr fun z hVisit => ?_
          rcases visits_concat hVisit with hBefore | hEnd
          · exact hThroughout z hBefore
          · obtain rfl := Option.some.inj (hAfter.symm.trans hEnd)
            exact hUser
      · obtain ⟨p, hp, hVersion⟩ := View.current_iff.mp hCurrent
        refine Or.inl ⟨k, p, u, y, ⟨after, [], rfl, hRun, hStep⟩, hp,
          (hBoth.2.pending k p hp).resolve_left ?_⟩
        exact Nat.not_lt.mpr (hVersion ▸ hBoth.2.version_le)

/-- A run goes on after a sign-out, in whatever order answers, failures and messages come in. The
user that is shown at its end has come with an answer to a request that was sent after the
sign-out, or the sign-out was a `logout`, which has not been answered, and the user is the one it
found, shown ever since. -/
theorem sign_out_wins {before after : List AuthAction} {signOut : AuthAction}
    {s x y : Nat × AuthProvider} {user : AccountUser}
    (hBefore : run AuthProvider.step AuthProvider.initial before = some s)
    (hOut : signOut.SignsOut) (hStep : AuthProvider.step s signOut = some x)
    (hAfter : run AuthProvider.step x after = some y)
    (hUser : y.2.view.shown.user = some user) :
    (∃ k, signOut = .logout k ∧ s.2.view.shown.user = some user ∧
      ShownThroughout x after user ∧ NoLogoutAnswered x after) ∨
      BroughtSince x after user := by
  have hConsistent :=
    invariant (fun _ _ _ h hInv => Consistent.step h hInv) consistent_initial hBefore
  have hVersioned : Versioned s :=
    invariant (fun _ _ _ h hInv => versioned_step h hInv) versioned_initial hBefore
  have hConsistent' : Consistent x.2 := Consistent.step hStep hConsistent
  -- a user that the sign-out leaves is the one that was shown, and only `logout` leaves one
  have hLeft : x.2.view.shown.user = some user →
      ∃ k, signOut = .logout k ∧ s.2.view.shown.user = some user := by
    intro hShown
    cases signOut with
    | logout k =>
        simp only [AuthProvider.step, Option.ite_none_right_eq_some, Option.some.injEq] at hStep
        obtain ⟨-, rfl⟩ := hStep
        exact ⟨k, rfl, hShown⟩
    | unauthorized =>
        obtain rfl := Option.some.inj hStep
        cases (user_clearAndPost hConsistent.supersede).symm.trans hShown
    | signedOutElsewhere =>
        obtain rfl := Option.some.inj hStep
        cases (user_clearIdentity hConsistent.supersede).symm.trans hShown
    | load | login | register | answer | fail => exact hOut.elim
  rcases shown_since hConsistent' (sinceSignOut_start hOut hStep hVersioned) hAfter hUser with
    hBrought | hThroughout
  · exact Or.inr hBrought
  · obtain ⟨k, hLogout, hFound⟩ := hLeft (hThroughout x (visits_start _ _ _))
    exact Or.inl ⟨k, hLogout, hFound, hThroughout, hThroughout.noLogoutAnswered hConsistent'⟩

/-- Somebody signs in while the first request is under way, and is shown. -/
private def signInActions : List AuthAction :=
  [.load 0 false, .login 1, .answer 1 (.authenticated ⟨"u", "u@example.org", "U", ""⟩),
    .answer 0 .anonymous]

theorem identity_consistent_signedIn :
    ∃ s, run AuthProvider.step AuthProvider.initial signInActions = some s ∧
      (s.2.view.shown.status = .authenticated ↔ s.2.view.shown.user.isSome = true) ∧
      s.2.view.shown.user = some ⟨"u", "u@example.org", "U", ""⟩ := by
  have hRun := run_getD (d := AuthProvider.initial)
    (show (run AuthProvider.step AuthProvider.initial signInActions).isSome = true by
      decide +kernel)
  exact ⟨_, hRun, (identity_consistent hRun).2, by decide +kernel⟩

/-- The session ends while two refreshes are under way; somebody signs in again, and the answers
to the refreshes come after that. -/
private def signInAgain : List AuthAction :=
  [.login 4, .answer 2 (.authenticated ⟨"u", "u@example.org", "U", ""⟩),
    .answer 4 (.authenticated ⟨"v", "v@example.org", "V", ""⟩), .answer 3 .anonymous]

private def refreshing : List AuthAction := signInActions ++ [.load 2 true, .load 3 true]

theorem sign_out_wins_again :
    ∃ s x y, run AuthProvider.step AuthProvider.initial refreshing = some s ∧
      AuthProvider.step s .unauthorized = some x ∧
      run AuthProvider.step x signInAgain = some y ∧
      BroughtSince x signInAgain ⟨"v", "v@example.org", "V", ""⟩ := by
  let start := AuthProvider.initial
  let s := (run AuthProvider.step start refreshing).getD start
  let x := (AuthProvider.step s .unauthorized).getD start
  let y := (run AuthProvider.step x signInAgain).getD start
  have hBefore : run AuthProvider.step start refreshing = some s := run_getD (by decide +kernel)
  have hAfter : run AuthProvider.step x signInAgain = some y := run_getD (by decide +kernel)
  refine ⟨s, x, y, hBefore, rfl, hAfter, ?_⟩
  have hUser : y.2.view.shown.user = some ⟨"v", "v@example.org", "V", ""⟩ := by decide +kernel
  have hOut : AuthAction.SignsOut .unauthorized := trivial
  rcases sign_out_wins hBefore hOut rfl hAfter hUser with ⟨k, hLogout, -⟩ | hBrought
  · cases hLogout
  · exact hBrought

end Identity

end SavedOrganizer.Frontend.Auth
