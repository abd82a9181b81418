import SavedOrganizer.Frontend.JavaScript
import SavedOrganizer.Library.LatestRequest
import SavedOrganizer.Library.Transition
import SavedOrganizer.Service.StatusStream

/-!
# The import panel

`ScanProgress` shows the scan status that its polls, its buttons and the event stream bring, in
whatever order the answers come. `statusRequestVersionRef` is the counter of its view: every
request takes a version, and so does every event of the stream.

The server is a counter of its changes and the status after the last one. An answer carries the
status at some time after its request was sent, so that the panel never goes back behind what it
has shown (`answers_go_forward`). The busy flags follow the calls in flight (`busy_while_asking`).
-/

namespace SavedOrganizer.Frontend

open LatestRequest Transition

abbrev CallId := Nat

inductive RefreshMode
  | initial | manual | poll
  deriving DecidableEq, Repr

/-- An asynchronous function at its `await`. -/
inductive ScanCall
  /-- `refreshStatus`. -/
  | refresh (mode : RefreshMode)
  /-- `handleStartScan`, before the scan was started. -/
  | start
  /-- `handleStartScan`, in its `catch`. -/
  | sync
  /-- `handleStopScan`. -/
  | stop
  /-- `handleRefreshLibrary`. -/
  | library
  deriving DecidableEq, Repr

/-- `clampPageSize`, where `none` is a number that is not finite. -/
def clampPageSize : Option Int → Int
  | none => 100
  | some value => min 1000 (max 1 value)

/-- `toErrorMessage`, with the message of an `Error`. -/
def toErrorMessage : Option JsString → JsString
  | some message =>
      if trim message = [] then js "Import request failed. Please try again." else message
  | none => js "Import request failed. Please try again."

/-- What the component reads of a status with `isActiveScan`. -/
def isActiveScan (status : ScanStatusResponse) : Bool := status.active

/-- The state and the references of the component. -/
structure ScanProgress where
  /-- `statusRequestVersionRef`, `status`, and the requests under way. -/
  view : View CallId ScanStatusResponse
  calls : CallId → Option ScanCall
  inFlight : Bool
  /-- No status has been set. -/
  pristine : Bool
  pageSizeInput : JsString
  isInitialLoading : Bool
  isRefreshing : Bool
  isStarting : Bool
  isStopping : Bool
  isRefreshingLibrary : Bool
  requestError : Option JsString

def pageSizeText (size : Int) : JsString := js (toString size)

namespace ScanProgress

variable (parseInt : JsString → Option Int) (now : Nat)

def scanIsActive (ui : ScanProgress) : Bool := isActiveScan ui.view.shown

def isBusy (ui : ScanProgress) : Bool :=
  ui.isInitialLoading || ui.isStarting || ui.isStopping || ui.isRefreshingLibrary || ui.isRefreshing

def canStart (ui : ScanProgress) : Bool := !ui.isBusy && !ui.scanIsActive

def canStop (ui : ScanProgress) : Bool :=
  !ui.isBusy && ui.scanIsActive && !ui.view.shown.stopRequested

/-- The button of `handleRefreshLibrary` is not disabled. -/
def canRefreshLibrary (ui : ScanProgress) : Bool :=
  !(ui.scanIsActive || ui.isStarting || ui.isStopping || ui.isRefreshingLibrary)

def begin (k : CallId) (call : ScanCall) (ui : ScanProgress) : ScanProgress :=
  { ui with view := ui.view.send now k, calls := Function.update ui.calls k (some call) }

def finish (k : CallId) (ui : ScanProgress) : ScanProgress :=
  { ui with view := ui.view.forget k, calls := Function.update ui.calls k none }

/-- `setStatus` of a request that is current, at the end of its call. -/
def show' (k : CallId) (status : ScanStatusResponse) (ui : ScanProgress) : ScanProgress :=
  { ui with
    view := ui.view.settle now k status
    calls := Function.update ui.calls k none
    pristine := ui.pristine && !ui.view.current k }

/-- `refreshStatus`, up to its `await`. -/
def refreshStatus (k : CallId) (mode : RefreshMode) (ui : ScanProgress) : ScanProgress :=
  if ui.inFlight then ui
  else
    { ui.begin now k (.refresh mode) with
      inFlight := true
      isInitialLoading := ui.isInitialLoading || mode == .initial
      isRefreshing := ui.isRefreshing || mode == .manual }

/-- `setPageSizeInput(String(clampPageSize(..)))`. -/
def clampInput (ui : ScanProgress) : ScanProgress :=
  { ui with pageSizeInput := pageSizeText (clampPageSize (parseInt ui.pageSizeInput)) }

def handleStartScan (k : CallId) (ui : ScanProgress) : ScanProgress :=
  { (ui.begin now k .start).clampInput parseInt with requestError := none, isStarting := true }

def handleStopScan (k : CallId) (ui : ScanProgress) : ScanProgress :=
  { ui.begin now k .stop with requestError := none, isStopping := true }

/-- `handleRefreshLibrary`, confirmed. -/
def handleRefreshLibrary (k : CallId) (ui : ScanProgress) : ScanProgress :=
  { (ui.begin now k .library).clampInput parseInt with
    requestError := none
    isRefreshingLibrary := true }

/-- The `finally` of a call. -/
def leave (call : ScanCall) (ui : ScanProgress) : ScanProgress :=
  match call with
  | .refresh mode =>
      { ui with
        inFlight := false
        isInitialLoading := ui.isInitialLoading && mode != .initial
        isRefreshing := ui.isRefreshing && mode != .manual }
  | .start | .sync => { ui with isStarting := false }
  | .stop => { ui with isStopping := false }
  | .library => { ui with isRefreshingLibrary := false }

/-- What a call sets besides the status, when its answer is current. -/
def accept (call : ScanCall) (status : ScanStatusResponse) (ui : ScanProgress) : ScanProgress :=
  match call with
  | .refresh mode =>
      { ui with
        pageSizeInput := if isActiveScan status || mode != .poll then pageSizeText status.pageSize
          else ui.pageSizeInput
        requestError := none }
  | .library => { ui with pageSizeInput := pageSizeText status.pageSize }
  | .start | .sync | .stop => ui

/-- The call has its answer. -/
def answered (k : CallId) (call : ScanCall) (status : ScanStatusResponse) (ui : ScanProgress) :
    ScanProgress :=
  ((if ui.view.current k then ui.accept call status else ui).show' now k status).leave call

/-- The call has failed. A start asks for the status once more. -/
def failed (k : CallId) (call : ScanCall) (error : Option JsString) (ui : ScanProgress) :
    ScanProgress :=
  let reported : ScanProgress :=
    if ui.view.current k && call != .refresh .poll && call != .sync then
      { ui with requestError := some (toErrorMessage error) }
    else ui
  if call = .start then reported.begin now k .sync else (reported.finish k).leave call

/-- `onStatus` of the event stream. -/
def onStatus (status : ScanStatusResponse) (ui : ScanProgress) : ScanProgress :=
  { ui with
    view := ui.view.present now status
    pristine := false
    pageSizeInput := if isActiveScan status || ui.pristine then pageSizeText status.pageSize
      else ui.pageSizeInput
    requestError := none
    isInitialLoading := false }

@[simp] theorem leave_view (call : ScanCall) (ui : ScanProgress) :
    (ui.leave call).view = ui.view := by cases call <;> rfl

@[simp] theorem leave_calls (call : ScanCall) (ui : ScanProgress) :
    (ui.leave call).calls = ui.calls := by cases call <;> rfl

@[simp] theorem accept_view (call : ScanCall) (status : ScanStatusResponse) (ui : ScanProgress) :
    (ui.accept call status).view = ui.view := by cases call <;> rfl

theorem answered_view (k : CallId) (call : ScanCall) (status : ScanStatusResponse)
    (ui : ScanProgress) : (ui.answered now k call status).view = ui.view.settle now k status := by
  rw [answered, leave_view, show']
  split
  · rw [accept_view]
  · rfl

theorem failed_view (k : CallId) (call : ScanCall) (error : Option JsString) (ui : ScanProgress) :
    (ui.failed now k call error).view =
      if call = .start then ui.view.send now k else ui.view.forget k := by
  unfold failed
  dsimp only
  split
  · rw [begin]
    split <;> rfl
  · rw [leave_view, finish]
    split <;> rfl

end ScanProgress

/-! ## With the server -/

/-- The panel, the server, and what is on its way back. -/
structure ScanPanel where
  ui : ScanProgress
  /-- The changes of the status. -/
  time : Nat
  server : ScanStatusResponse
  /-- The answers of the server, with the time of the status they carry. -/
  answers : CallId → Option (Nat × ScanStatusResponse)
  /-- The events of the stream that have not arrived. -/
  events : List (Nat × ScanStatusResponse)
  /-- The time of the status on display. -/
  shownOf : Nat

inductive PanelAction
  /-- The status changes at the server. -/
  | change (status : ScanStatusResponse)
  | refresh (k : CallId) (mode : RefreshMode)
  | start (k : CallId)
  | stop (k : CallId)
  | library (k : CallId)
  | type (text : JsString)
  | blur
  /-- The server answers a request. -/
  | answer (k : CallId)
  | receive (k : CallId)
  | fail (k : CallId) (error : Option JsString)
  /-- The server sends an event. -/
  | emit
  | event

namespace ScanPanel

variable (parseInt : JsString → Option Int)

def ask (p : ScanPanel) (k : CallId) (ui : ScanProgress) : ScanPanel :=
  { p with ui := ui, answers := Function.update p.answers k none }

def step (p : ScanPanel) : PanelAction → Option ScanPanel
  | .change status => some { p with server := status, time := p.time + 1 }
  | .refresh k mode =>
      if p.ui.calls k = none && (mode != .manual || !p.ui.isBusy) && mode != .initial then
        some (if p.ui.inFlight then p else p.ask k (p.ui.refreshStatus p.time k mode))
      else none
  | .start k =>
      if p.ui.calls k = none && p.ui.canStart then
        some (p.ask k (p.ui.handleStartScan parseInt p.time k))
      else none
  | .stop k =>
      if p.ui.calls k = none && p.ui.canStop then some (p.ask k (p.ui.handleStopScan p.time k))
      else none
  | .library k =>
      if p.ui.calls k = none && p.ui.canRefreshLibrary then
        some (p.ask k (p.ui.handleRefreshLibrary parseInt p.time k))
      else none
  | .type text => some { p with ui := { p.ui with pageSizeInput := text } }
  | .blur => some { p with ui := p.ui.clampInput parseInt }
  | .answer k =>
      if (p.ui.calls k).isSome && (p.answers k).isNone then
        some { p with answers := Function.update p.answers k (some (p.time, p.server)) }
      else none
  | .receive k =>
      match p.ui.calls k, p.answers k with
      | some call, some (of, status) =>
          some { p with
            ui := p.ui.answered p.time k call status
            shownOf := if p.ui.view.current k then of else p.shownOf }
      | _, _ => none
  | .fail k error =>
      match p.ui.calls k with
      | some call => some (p.ask k (p.ui.failed p.time k call error))
      | none => none
  | .emit => some { p with events := p.events ++ [(p.time, p.server)] }
  | .event =>
      match p.events with
      | (of, status) :: events =>
          some { p with ui := p.ui.onStatus p.time status, events := events, shownOf := of }
      | [] => none

/-- The component has been mounted and its first refresh has been sent. -/
def initial (server : ScanStatusResponse) : ScanPanel where
  ui :=
    { view := View.send 0 0 ⟨0, .initial, 0, fun _ => none⟩
      calls := fun k => if k = 0 then some (.refresh .initial) else none
      inFlight := true
      pristine := true
      pageSizeInput := js "100"
      isInitialLoading := true
      isRefreshing := false
      isStarting := false
      isStopping := false
      isRefreshingLibrary := false
      requestError := none }
  time := 0
  server := server
  answers := fun _ => none
  events := []
  shownOf := 0

end ScanPanel

/-! ## The display -/

section Display

variable {parseInt : JsString → Option Int} {p q : ScanPanel} {action : PanelAction} {k : CallId}

/-- What is on its way, and what is shown, carries a time that fits. -/
structure DisplayInv (p : ScanPanel) : Prop where
  view : p.ui.view.Inv p.time
  answers : ∀ k of status pending, p.answers k = some (of, status) →
    p.ui.view.pending k = some pending → pending.sentAt ≤ of ∧ of ≤ p.time
  events : ∀ event ∈ p.events, event.1 ≤ p.time
  shown : p.shownOf ≤ p.ui.view.shownAt

theorem displayInv_initial (server : ScanStatusResponse) : DisplayInv (.initial server) where
  view := (View.inv_initial 0 0 _).send 0
  answers _ _ _ _ h := nomatch h
  events _ h := nomatch h
  shown := Nat.le_refl _

/-- The view after a call has begun, or after it is over. -/
inductive ViewStep (p : ScanPanel) (k : CallId) : View CallId ScanStatusResponse → Prop
  | sent : ViewStep p k (p.ui.view.send p.time k)
  | finished : ViewStep p k (p.ui.view.forget k)

theorem displayInv_ask {ui : ScanProgress} (hInv : DisplayInv p) (h : ViewStep p k ui.view) :
    DisplayInv (p.ask k ui) := by
  have hAnswer {k' : CallId} {of : Nat} {status : ScanStatusResponse}
      (hSome : (p.ask k ui).answers k' = some (of, status)) :
      k' ≠ k ∧ p.answers k' = some (of, status) := by
    by_cases hk : k' = k
    · subst hk
      rw [show (p.ask k' ui).answers k' = none from Function.update_self _ _ _] at hSome
      cases hSome
    · rw [show (p.ask k ui).answers k' = p.answers k' from Function.update_of_ne hk _ _] at hSome
      exact ⟨hk, hSome⟩
  generalize hView : ui.view = view at h
  have hEq : (p.ask k ui).ui.view = view := hView
  cases h with
  | sent =>
      refine ⟨hEq ▸ hInv.view.send k, ?_, hInv.events, hEq ▸ hInv.shown⟩
      intro k' of status pending hSome hPending
      obtain ⟨hk, hOld⟩ := hAnswer hSome
      rw [hEq, View.pending_send_other hk] at hPending
      exact hInv.answers k' of status pending hOld hPending
  | finished =>
      refine ⟨hEq ▸ hInv.view.forget k, ?_, hInv.events, hEq ▸ hInv.shown⟩
      intro k' of status pending hSome hPending
      rw [hEq] at hPending
      exact hInv.answers k' of status pending (hAnswer hSome).2 (View.of_pending_forget hPending).2

theorem displayInv_step (h : p.step parseInt action = some q) (hInv : DisplayInv p) :
    DisplayInv q := by
  cases action with
  | change status =>
      obtain rfl := Option.some.inj h
      exact
        { view := hInv.view.later (Nat.le_succ _)
          answers := fun k of status pending hSome hPending =>
            have hBoth := hInv.answers k of status pending hSome hPending
            ⟨hBoth.1, Nat.le_succ_of_le hBoth.2⟩
          events := fun event hEvent => Nat.le_succ_of_le (hInv.events event hEvent)
          shown := hInv.shown }
  | refresh k mode =>
      simp only [ScanPanel.step, Option.ite_none_right_eq_some, Option.some.injEq] at h
      obtain ⟨-, rfl⟩ := h
      split
      · exact hInv
      · rename_i hIdle
        refine displayInv_ask hInv ?_
        rw [ScanProgress.refreshStatus, if_neg hIdle]
        exact .sent
  | start k =>
      simp only [ScanPanel.step, Option.ite_none_right_eq_some, Option.some.injEq] at h
      obtain ⟨-, rfl⟩ := h
      exact displayInv_ask hInv .sent
  | stop k =>
      simp only [ScanPanel.step, Option.ite_none_right_eq_some, Option.some.injEq] at h
      obtain ⟨-, rfl⟩ := h
      exact displayInv_ask hInv .sent
  | library k =>
      simp only [ScanPanel.step, Option.ite_none_right_eq_some, Option.some.injEq] at h
      obtain ⟨-, rfl⟩ := h
      exact displayInv_ask hInv .sent
  | type text => exact Option.some.inj h ▸ ⟨hInv.view, hInv.answers, hInv.events, hInv.shown⟩
  | blur => exact Option.some.inj h ▸ ⟨hInv.view, hInv.answers, hInv.events, hInv.shown⟩
  | answer k =>
      simp only [ScanPanel.step, Option.ite_none_right_eq_some, Option.some.injEq] at h
      obtain ⟨-, rfl⟩ := h
      refine ⟨hInv.view, fun k' of status pending hSome hPending => ?_, hInv.events, hInv.shown⟩
      dsimp only at hSome
      by_cases hk : k' = k
      · subst hk
        rw [Function.update_self] at hSome
        obtain ⟨rfl, -⟩ := Prod.mk.inj (Option.some.inj hSome)
        exact ⟨hInv.view.sent_le k' pending hPending, Nat.le_refl _⟩
      · rw [Function.update_of_ne hk] at hSome
        exact hInv.answers k' of status pending hSome hPending
  | receive k =>
      simp only [ScanPanel.step] at h
      split at h
      · rename_i call of status hCall hAnswer
        obtain rfl := Option.some.inj h
        have hView := p.ui.answered_view p.time k call status
        refine ⟨hView ▸ hInv.view.settle k status, fun k' of' status' pending hSome hPending => ?_,
          hInv.events, ?_⟩
        · rw [show (p.ui.answered p.time k call status).view = _ from hView] at hPending
          exact hInv.answers k' of' status' pending hSome (View.of_pending_settle hPending).2
        · show (if p.ui.view.current k then of else p.shownOf) ≤
            (p.ui.answered p.time k call status).view.shownAt
          rw [hView]
          by_cases hCurrent : p.ui.view.current k = true
          · obtain ⟨pending, hPending, -⟩ := View.current_iff.mp hCurrent
            rw [if_pos hCurrent, View.settle_of_current hCurrent]
            exact (hInv.answers k of status pending hAnswer hPending).2
          · rw [if_neg hCurrent, View.settle_of_not_current (Bool.eq_false_iff.mpr hCurrent)]
            exact hInv.shown
      · cases h
  | fail k error =>
      simp only [ScanPanel.step] at h
      split at h
      · rename_i call hCall
        obtain rfl := Option.some.inj h
        refine displayInv_ask hInv ?_
        rw [ScanProgress.failed_view]
        split
        · exact .sent
        · exact .finished
      · cases h
  | emit =>
      obtain rfl := Option.some.inj h
      refine ⟨hInv.view, hInv.answers, fun event hEvent => ?_, hInv.shown⟩
      rcases List.mem_append.mp hEvent with hOld | hNew
      · exact hInv.events event hOld
      · rw [List.mem_singleton.mp hNew]
  | event =>
      simp only [ScanPanel.step] at h
      split at h
      · rename_i of status events hEvents
        obtain rfl := Option.some.inj h
        refine ⟨hInv.view.present status, hInv.answers, fun event hEvent => ?_, ?_⟩
        · exact hInv.events event (hEvents ▸ List.mem_cons_of_mem _ hEvent)
        · exact hInv.events (of, status) (hEvents ▸ List.mem_cons_self)
      · cases h

theorem displayInv_of_run {server : ScanStatusResponse} {actions : List PanelAction}
    (hRun : run (ScanPanel.step parseInt) (.initial server) actions = some p) : DisplayInv p :=
  invariant (fun _ _ _ hStep => displayInv_step hStep) (displayInv_initial server) hRun

/-- Only an event can put an older status on display. -/
theorem shownOf_step (h : p.step parseInt action = some q) (hInv : DisplayInv p)
    (hEvent : action ≠ .event) : p.shownOf ≤ q.shownOf := by
  cases action with
  | receive k =>
      simp only [ScanPanel.step] at h
      split at h
      · rename_i call of status hCall hAnswer
        obtain rfl := Option.some.inj h
        show p.shownOf ≤ if p.ui.view.current k then of else p.shownOf
        split
        · rename_i hCurrent
          obtain ⟨pending, hPending, hFresh⟩ := hInv.view.shownAt_le hCurrent
          have hSent := (hInv.answers k of status pending hAnswer hPending).1
          exact Nat.le_trans hInv.shown (Nat.le_trans hFresh hSent)
        · exact Nat.le_refl _
      · cases h
  | event => exact absurd rfl hEvent
  | change status => exact Option.some.inj h ▸ Nat.le_refl _
  | refresh k mode =>
      simp only [ScanPanel.step, Option.ite_none_right_eq_some, Option.some.injEq] at h
      obtain ⟨-, rfl⟩ := h
      split <;> exact Nat.le_refl _
  | start k =>
      simp only [ScanPanel.step, Option.ite_none_right_eq_some, Option.some.injEq] at h
      exact h.2 ▸ Nat.le_refl _
  | stop k =>
      simp only [ScanPanel.step, Option.ite_none_right_eq_some, Option.some.injEq] at h
      exact h.2 ▸ Nat.le_refl _
  | library k =>
      simp only [ScanPanel.step, Option.ite_none_right_eq_some, Option.some.injEq] at h
      exact h.2 ▸ Nat.le_refl _
  | type text => exact Option.some.inj h ▸ Nat.le_refl _
  | blur => exact Option.some.inj h ▸ Nat.le_refl _
  | answer k =>
      simp only [ScanPanel.step, Option.ite_none_right_eq_some, Option.some.injEq] at h
      exact h.2 ▸ Nat.le_refl _
  | fail k error =>
      simp only [ScanPanel.step] at h
      split at h
      · exact Option.some.inj h ▸ Nat.le_refl _
      · cases h
  | emit => exact Option.some.inj h ▸ Nat.le_refl _

/-- Whatever is asked and answered in whatever order, no answer takes the display back behind the
status it shows, so that between two events of the stream it only goes forward. -/
theorem answers_go_forward {server : ScanStatusResponse} {front back : List PanelAction}
    (hFront : run (ScanPanel.step parseInt) (.initial server) front = some p)
    (hBack : run (ScanPanel.step parseInt) p back = some q) (hEvents : .event ∉ back) :
    p.shownOf ≤ q.shownOf := by
  have hBoth : DisplayInv q ∧ p.shownOf ≤ q.shownOf := by
    refine run_induct (I := fun r => DisplayInv r ∧ p.shownOf ≤ r.shownOf)
      ⟨displayInv_of_run hFront, Nat.le_refl _⟩ hBack ?_
    rintro u a v hStep ⟨hInv, hLe⟩
    refine ⟨displayInv_step hStep.step hInv, Nat.le_trans hLe (shownOf_step hStep.step hInv ?_)⟩
    rintro rfl
    exact hEvents hStep.mem
  exact hBoth.2

/-- The panel after these actions, with nothing scanned before. -/
def panelAfter (actions : List PanelAction) : ScanPanel :=
  (run (ScanPanel.step fun _ => some 100) (.initial .initial) actions).getD (.initial .initial)

def firstAnswer : List PanelAction := [.answer 0, .receive 0]

def pendingStatus : ScanStatusResponse := { ScanStatusResponse.initial with state := .job .pending }

/-- A poll is overtaken by a start. -/
def overtaken : List PanelAction :=
  [.refresh 1 .poll, .answer 1, .start 2, .change pendingStatus, .answer 2, .receive 2, .receive 1]

theorem answers_go_forward_overtaken :
    (panelAfter firstAnswer).shownOf ≤ (panelAfter (firstAnswer ++ overtaken)).shownOf ∧
      (panelAfter (firstAnswer ++ overtaken)).ui.view.shown = pendingStatus :=
  have hFirst : run (ScanPanel.step fun _ => some 100) (.initial .initial) firstAnswer =
      some (panelAfter firstAnswer) := run_getD (by decide +kernel)
  ⟨answers_go_forward hFirst (run_getD_append (by decide +kernel)) (by simp [overtaken]),
    by decide +kernel⟩

end Display

/-! ## The busy flags -/

section Flags

variable {parseInt : JsString → Option Int} {p q : ScanPanel} {action : PanelAction}
  {k : CallId} {call : ScanCall}

/-- The calls that share a flag. -/
inductive CallGroup
  | refreshing | starting | stopping | library
  deriving DecidableEq, Repr

def ScanCall.group : ScanCall → CallGroup
  | .refresh _ => .refreshing
  | .start | .sync => .starting
  | .stop => .stopping
  | .library => .library

def ScanProgress.flag (ui : ScanProgress) : CallGroup → Bool
  | .refreshing => ui.inFlight
  | .starting => ui.isStarting
  | .stopping => ui.isStopping
  | .library => ui.isRefreshingLibrary

/-- A flag is set while a call of its group is under way, and there is one at most. -/
structure Tracks (calls : CallId → Option ScanCall) (flag : CallGroup → Bool) : Prop where
  set_iff : ∀ group, flag group = true ↔ ∃ k call, calls k = some call ∧ call.group = group
  once : ∀ k k' call call', calls k = some call → calls k' = some call' →
    call.group = call'.group → k = k'

variable {calls : CallId → Option ScanCall} {flag : CallGroup → Bool}

theorem Tracks.begin (h : Tracks calls flag) (hFree : calls k = none)
    (hClear : flag call.group = false) :
    Tracks (Function.update calls k (some call)) (Function.update flag call.group true) := by
  have hNone {k' : CallId} {call' : ScanCall} (hCall : calls k' = some call') :
      call'.group ≠ call.group := fun hGroup => by
    rw [← hGroup, (h.set_iff _).mpr ⟨k', call', hCall, rfl⟩] at hClear
    cases hClear
  have hOf {k' : CallId} {call' : ScanCall}
      (hCall : Function.update calls k (some call) k' = some call') :
      (k' = k ∧ call' = call) ∨ calls k' = some call' := by
    by_cases hk : k' = k
    · subst hk
      rw [Function.update_self] at hCall
      exact Or.inl ⟨rfl, (Option.some.inj hCall).symm⟩
    · rw [Function.update_of_ne hk] at hCall
      exact Or.inr hCall
  constructor
  · intro group
    by_cases hGroup : group = call.group
    · subst hGroup
      rw [Function.update_self]
      exact ⟨fun _ => ⟨k, call, Function.update_self _ _ _, rfl⟩, fun _ => rfl⟩
    · rw [Function.update_of_ne hGroup, h.set_iff]
      constructor
      · rintro ⟨k', call', hCall, rfl⟩
        refine ⟨k', call', ?_, rfl⟩
        rw [Function.update_of_ne]
        · exact hCall
        · rintro rfl
          rw [hFree] at hCall
          cases hCall
      · rintro ⟨k', call', hCall, rfl⟩
        rcases hOf hCall with ⟨-, rfl⟩ | hOld
        · exact absurd rfl hGroup
        · exact ⟨k', call', hOld, rfl⟩
  · intro k₁ k₂ call₁ call₂ h₁ h₂ hGroup
    rcases hOf h₁ with ⟨rfl, rfl⟩ | hOld₁
    · rcases hOf h₂ with ⟨rfl, -⟩ | hOld₂
      · rfl
      · exact absurd hGroup.symm (hNone hOld₂)
    · rcases hOf h₂ with ⟨-, rfl⟩ | hOld₂
      · exact absurd hGroup (hNone hOld₁)
      · exact h.once k₁ k₂ call₁ call₂ hOld₁ hOld₂ hGroup

theorem Tracks.leave (h : Tracks calls flag) (hCall : calls k = some call) :
    Tracks (Function.update calls k none) (Function.update flag call.group false) := by
  have hOf {k' : CallId} {call' : ScanCall}
      (hSome : Function.update calls k none k' = some call') : k' ≠ k ∧ calls k' = some call' := by
    by_cases hk : k' = k
    · subst hk
      rw [Function.update_self] at hSome
      cases hSome
    · rw [Function.update_of_ne hk] at hSome
      exact ⟨hk, hSome⟩
  constructor
  · intro group
    by_cases hGroup : group = call.group
    · subst hGroup
      rw [Function.update_self]
      refine ⟨fun hFalse => absurd hFalse Bool.false_ne_true, ?_⟩
      rintro ⟨k', call', hSome, hSame⟩
      obtain ⟨hNe, hOld⟩ := hOf hSome
      exact absurd (h.once k' k call' call hOld hCall hSame) hNe
    · rw [Function.update_of_ne hGroup, h.set_iff]
      constructor
      · rintro ⟨k', call', hOld, rfl⟩
        refine ⟨k', call', ?_, rfl⟩
        rw [Function.update_of_ne]
        · exact hOld
        · rintro rfl
          rw [hCall] at hOld
          exact hGroup (congrArg ScanCall.group (Option.some.inj hOld)).symm
      · rintro ⟨k', call', hSome, rfl⟩
        exact ⟨k', call', (hOf hSome).2, rfl⟩
  · intro k₁ k₂ call₁ call₂ h₁ h₂
    exact h.once k₁ k₂ call₁ call₂ (hOf h₁).2 (hOf h₂).2

/-- A call that goes on as another one of its group. -/
theorem Tracks.goOn (h : Tracks calls flag) (hCall : calls k = some call) {next : ScanCall}
    (hNext : next.group = call.group) : Tracks (Function.update calls k (some next)) flag := by
  have hOf (k' : CallId) : (Function.update calls k (some next) k').map ScanCall.group =
      (calls k').map ScanCall.group := by
    by_cases hk : k' = k
    · subst hk
      rw [Function.update_self, hCall, Option.map_some, Option.map_some, hNext]
    · rw [Function.update_of_ne hk]
  have hSame {k' : CallId} {call' : ScanCall}
      (hSome : Function.update calls k (some next) k' = some call') :
      ∃ old, calls k' = some old ∧ old.group = call'.group := by
    have hGroup := hOf k'
    rw [hSome, Option.map_some] at hGroup
    obtain ⟨old, hOld, hEq⟩ := Option.map_eq_some_iff.mp hGroup.symm
    exact ⟨old, hOld, hEq⟩
  constructor
  · intro group
    rw [h.set_iff]
    constructor
    · rintro ⟨k', call', hOld, rfl⟩
      have hGroup := hOf k'
      rw [hOld, Option.map_some] at hGroup
      obtain ⟨new, hNew, hEq⟩ := Option.map_eq_some_iff.mp hGroup
      exact ⟨k', new, hNew, hEq⟩
    · rintro ⟨k', call', hSome, rfl⟩
      obtain ⟨old, hOld, hEq⟩ := hSame hSome
      exact ⟨k', old, hOld, hEq⟩
  · intro k₁ k₂ call₁ call₂ h₁ h₂ hGroup
    obtain ⟨old₁, hOld₁, hEq₁⟩ := hSame h₁
    obtain ⟨old₂, hOld₂, hEq₂⟩ := hSame h₂
    exact h.once k₁ k₂ old₁ old₂ hOld₁ hOld₂ (hEq₁.trans (hGroup.trans hEq₂.symm))

/-- A call of this kind is under way. -/
def Has (calls : CallId → Option ScanCall) (call : ScanCall) : Prop := ∃ k, calls k = some call

theorem has_begin {other : ScanCall} (hFree : calls k = none) :
    Has (Function.update calls k (some call)) other ↔ other = call ∨ Has calls other := by
  constructor
  · rintro ⟨k', hSome⟩
    by_cases hk : k' = k
    · subst hk
      rw [Function.update_self] at hSome
      exact Or.inl (Option.some.inj hSome).symm
    · rw [Function.update_of_ne hk] at hSome
      exact Or.inr ⟨k', hSome⟩
  · rintro (rfl | ⟨k', hSome⟩)
    · exact ⟨k, Function.update_self _ _ _⟩
    · refine ⟨k', ?_⟩
      rw [Function.update_of_ne]
      · exact hSome
      · rintro rfl
        rw [hFree] at hSome
        cases hSome

theorem has_leave {other : ScanCall} (h : Tracks calls flag) (hCall : calls k = some call) :
    Has (Function.update calls k none) other ↔ other ≠ call ∧ Has calls other := by
  constructor
  · rintro ⟨k', hSome⟩
    by_cases hk : k' = k
    · subst hk
      rw [Function.update_self] at hSome
      cases hSome
    · rw [Function.update_of_ne hk] at hSome
      refine ⟨?_, k', hSome⟩
      rintro rfl
      exact hk (h.once k' k other other hSome hCall rfl)
  · rintro ⟨hNe, k', hSome⟩
    refine ⟨k', ?_⟩
    rw [Function.update_of_ne]
    · exact hSome
    · rintro rfl
      exact hNe (Option.some.inj (hSome.symm.trans hCall))

theorem has_goOn {other next : ScanCall} (hCall : calls k = some call) (hNext : other ≠ next)
    (hNe : other ≠ call) : Has (Function.update calls k (some next)) other ↔ Has calls other := by
  constructor
  · rintro ⟨k', hSome⟩
    by_cases hk : k' = k
    · subst hk
      rw [Function.update_self] at hSome
      exact absurd (Option.some.inj hSome).symm hNext
    · rw [Function.update_of_ne hk] at hSome
      exact ⟨k', hSome⟩
  · rintro ⟨k', hSome⟩
    refine ⟨k', ?_⟩
    rw [Function.update_of_ne]
    · exact hSome
    · rintro rfl
      exact hNe (Option.some.inj (hSome.symm.trans hCall))

/-- The flags and the calls in flight. -/
structure FlagInv (ui : ScanProgress) : Prop where
  tracks : Tracks ui.calls ui.flag
  refreshing : ui.isRefreshing = true ↔ Has ui.calls (.refresh .manual)
  loading : ui.isInitialLoading = true → Has ui.calls (.refresh .initial)

namespace ScanProgress

variable {ui : ScanProgress} {now : Nat} {status : ScanStatusResponse} {mode : RefreshMode}

theorem leave_flag (call : ScanCall) (ui : ScanProgress) :
    (ui.leave call).flag = Function.update ui.flag call.group false := by
  funext group
  cases call <;> cases group <;> rfl

theorem accept_flag (call : ScanCall) (status : ScanStatusResponse) (ui : ScanProgress) :
    (ui.accept call status).flag = ui.flag := by
  funext group
  cases call <;> cases group <;> rfl

theorem leave_isRefreshing (call : ScanCall) (ui : ScanProgress) :
    (ui.leave call).isRefreshing = (ui.isRefreshing && call != .refresh .manual) := by
  cases call with
  | refresh mode => cases mode <;> rfl
  | start => exact (Bool.and_true _).symm
  | sync => exact (Bool.and_true _).symm
  | stop => exact (Bool.and_true _).symm
  | library => exact (Bool.and_true _).symm

theorem leave_isInitialLoading (call : ScanCall) (ui : ScanProgress) :
    (ui.leave call).isInitialLoading = (ui.isInitialLoading && call != .refresh .initial) := by
  cases call with
  | refresh mode => cases mode <;> rfl
  | start => exact (Bool.and_true _).symm
  | sync => exact (Bool.and_true _).symm
  | stop => exact (Bool.and_true _).symm
  | library => exact (Bool.and_true _).symm

/-- A call that is over leaves the flags right, whatever else it sets. -/
theorem flagInv_leave {changed : ScanProgress} (h : FlagInv ui) (hCall : ui.calls k = some call)
    (hCalls : changed.calls = Function.update ui.calls k none) (hFlag : changed.flag = ui.flag)
    (hRefreshing : changed.isRefreshing = ui.isRefreshing)
    (hLoading : changed.isInitialLoading = ui.isInitialLoading) : FlagInv (changed.leave call) where
  tracks := by
    rw [leave_calls, leave_flag, hCalls, hFlag]
    exact h.tracks.leave hCall
  refreshing := by
    rw [leave_calls, leave_isRefreshing, hCalls, hRefreshing, has_leave h.tracks hCall,
      Bool.and_eq_true, h.refreshing, bne_iff_ne, and_comm, ne_comm]
  loading := by
    rw [leave_calls, leave_isInitialLoading, hCalls, hLoading, has_leave h.tracks hCall,
      Bool.and_eq_true, bne_iff_ne]
    exact fun hBoth => ⟨hBoth.2.symm, h.loading hBoth.1⟩

theorem flagInv_answered (h : FlagInv ui) (hCall : ui.calls k = some call) :
    FlagInv (ui.answered now k call status) := by
  unfold answered
  split
  · refine flagInv_leave h hCall ?_ (accept_flag call status ui) ?_ ?_ <;> cases call <;> rfl
  · exact flagInv_leave h hCall rfl rfl rfl rfl

theorem flagInv_failed (h : FlagInv ui) (hCall : ui.calls k = some call)
    (error : Option JsString) : FlagInv (ui.failed now k call error) := by
  unfold failed
  dsimp only
  split
  · rename_i hStart
    subst hStart
    have hGoOn : FlagInv (ui.begin now k .sync) :=
      { tracks := h.tracks.goOn hCall rfl
        refreshing := h.refreshing.trans (has_goOn hCall (by decide) (by decide)).symm
        loading := fun hLoading =>
          (has_goOn hCall (by decide) (by decide)).mpr (h.loading hLoading) }
    split
    · exact ⟨hGoOn.tracks, hGoOn.refreshing, hGoOn.loading⟩
    · exact hGoOn
  · split <;> exact flagInv_leave h hCall rfl rfl rfl rfl

theorem flagInv_refresh (h : FlagInv ui) (hFree : ui.calls k = none) :
    FlagInv (ui.refreshStatus now k mode) := by
  unfold refreshStatus
  split
  · exact h
  · rename_i hIdle
    have hFlag : ({ ui.begin now k (.refresh mode) with
        inFlight := true
        isInitialLoading := ui.isInitialLoading || mode == .initial
        isRefreshing := ui.isRefreshing || mode == .manual } : ScanProgress).flag =
          Function.update ui.flag (ScanCall.refresh mode).group true := by
      funext group
      cases group <;> rfl
    refine ⟨?_, ?_, ?_⟩
    · rw [hFlag]
      exact h.tracks.begin hFree (Bool.eq_false_iff.mpr hIdle)
    · show (ui.isRefreshing || mode == .manual) = true ↔
        Has (Function.update ui.calls k (some (.refresh mode))) (.refresh .manual)
      rw [has_begin hFree, Bool.or_eq_true, h.refreshing, beq_iff_eq, or_comm]
      exact or_congr_left ⟨fun hMode => hMode ▸ rfl, fun hCall => (ScanCall.refresh.inj hCall).symm⟩
    · show (ui.isInitialLoading || mode == .initial) = true →
        Has (Function.update ui.calls k (some (.refresh mode))) (.refresh .initial)
      rw [has_begin hFree, Bool.or_eq_true, beq_iff_eq]
      rintro (hLoading | rfl)
      · exact Or.inr (h.loading hLoading)
      · exact Or.inl rfl

/-- A call that a button begins sets its flag. -/
theorem flagInv_button (call : ScanCall) {changed : ScanProgress} (h : FlagInv ui) (hFree : ui.calls k = none)
    (hCalls : changed.calls = Function.update ui.calls k (some call))
    (hFlag : changed.flag = Function.update ui.flag call.group true)
    (hClear : ui.flag call.group = false) (hGroup : call.group ≠ .refreshing)
    (hRefreshing : changed.isRefreshing = ui.isRefreshing)
    (hLoading : changed.isInitialLoading = ui.isInitialLoading) : FlagInv changed where
  tracks := by
    rw [hCalls, hFlag]
    exact h.tracks.begin hFree hClear
  refreshing := by
    rw [hCalls, hRefreshing, h.refreshing, has_begin hFree]
    refine ⟨Or.inr, fun hBoth => hBoth.resolve_left ?_⟩
    rintro rfl
    exact hGroup rfl
  loading := by
    rw [hCalls, hLoading, has_begin hFree]
    exact fun hSome => Or.inr (h.loading hSome)

end ScanProgress

theorem flagInv_initial (server : ScanStatusResponse) : FlagInv (ScanPanel.initial server).ui := by
  have hCalls {k : CallId} {call : ScanCall}
      (h : (ScanPanel.initial server).ui.calls k = some call) :
      k = 0 ∧ call = .refresh .initial := by
    by_cases hk : k = 0
    · rw [show (ScanPanel.initial server).ui.calls k = some (.refresh .initial) from if_pos hk] at h
      exact ⟨hk, (Option.some.inj h).symm⟩
    · rw [show (ScanPanel.initial server).ui.calls k = none from if_neg hk] at h
      cases h
  refine ⟨⟨fun group => ?_, fun k k' call call' h h' _ => (hCalls h).1.trans (hCalls h').1.symm⟩,
    ⟨(fun h => nomatch h), fun ⟨k, h⟩ => nomatch (hCalls h).2⟩, fun _ => ⟨0, rfl⟩⟩
  constructor
  · intro hFlag
    cases group with
    | refreshing => exact ⟨0, .refresh .initial, rfl, rfl⟩
    | starting => cases hFlag
    | stopping => cases hFlag
    | library => cases hFlag
  · rintro ⟨k, call, hCall, rfl⟩
    obtain ⟨-, rfl⟩ := hCalls hCall
    rfl

theorem flagInv_step (h : p.step parseInt action = some q) (hInv : FlagInv p.ui) :
    FlagInv q.ui := by
  cases action with
  | change status => exact Option.some.inj h ▸ hInv
  | refresh k mode =>
      simp only [ScanPanel.step, Option.ite_none_right_eq_some, Option.some.injEq,
        Bool.and_eq_true, decide_eq_true_eq] at h
      obtain ⟨⟨⟨hFree, -⟩, -⟩, rfl⟩ := h
      split
      · exact hInv
      · exact ScanProgress.flagInv_refresh hInv hFree
  | start k =>
      simp only [ScanPanel.step, Option.ite_none_right_eq_some, Option.some.injEq,
        Bool.and_eq_true, decide_eq_true_eq, ScanProgress.canStart, ScanProgress.isBusy,
        Bool.not_eq_true', Bool.or_eq_false_iff] at h
      obtain ⟨⟨hFree, hClear, -⟩, rfl⟩ := h
      refine ScanProgress.flagInv_button .start hInv hFree rfl ?_ hClear.1.1.1.2
        CallGroup.noConfusion rfl rfl
      funext group
      cases group <;> rfl
  | stop k =>
      simp only [ScanPanel.step, Option.ite_none_right_eq_some, Option.some.injEq,
        Bool.and_eq_true, decide_eq_true_eq, ScanProgress.canStop, ScanProgress.isBusy,
        Bool.not_eq_true', Bool.or_eq_false_iff] at h
      obtain ⟨⟨hFree, ⟨hClear, -⟩, -⟩, rfl⟩ := h
      refine ScanProgress.flagInv_button .stop hInv hFree rfl ?_ hClear.1.1.2
        CallGroup.noConfusion rfl rfl
      funext group
      cases group <;> rfl
  | library k =>
      simp only [ScanPanel.step, Option.ite_none_right_eq_some, Option.some.injEq,
        Bool.and_eq_true, decide_eq_true_eq, ScanProgress.canRefreshLibrary,
        Bool.not_eq_true', Bool.or_eq_false_iff] at h
      obtain ⟨⟨hFree, hClear⟩, rfl⟩ := h
      refine ScanProgress.flagInv_button .library hInv hFree rfl ?_ hClear.2
        CallGroup.noConfusion rfl rfl
      funext group
      cases group <;> rfl
  | type text => exact Option.some.inj h ▸ ⟨hInv.tracks, hInv.refreshing, hInv.loading⟩
  | blur => exact Option.some.inj h ▸ ⟨hInv.tracks, hInv.refreshing, hInv.loading⟩
  | answer k =>
      simp only [ScanPanel.step, Option.ite_none_right_eq_some, Option.some.injEq] at h
      exact h.2 ▸ hInv
  | receive k =>
      simp only [ScanPanel.step] at h
      split at h
      · rename_i call of status hCall hAnswer
        exact Option.some.inj h ▸ ScanProgress.flagInv_answered hInv hCall
      · cases h
  | fail k error =>
      simp only [ScanPanel.step] at h
      split at h
      · rename_i call hCall
        exact Option.some.inj h ▸ ScanProgress.flagInv_failed hInv hCall error
      · cases h
  | emit => exact Option.some.inj h ▸ hInv
  | event =>
      simp only [ScanPanel.step] at h
      split at h
      · obtain rfl := Option.some.inj h
        exact ⟨hInv.tracks, hInv.refreshing, fun hLoading => nomatch hLoading⟩
      · cases h

/-- In every run the flags of requests, starts, stops and library refreshes are set exactly while
one call of their kind is under way, and there are never two of them; `isRefreshing` is set
exactly during a manual refresh, and `isInitialLoading` during the first request only, though an
event of the stream may clear it earlier. With nothing under way nothing is busy. -/
theorem busy_while_asking {server : ScanStatusResponse} {actions : List PanelAction}
    (hRun : run (ScanPanel.step parseInt) (.initial server) actions = some p) :
    Tracks p.ui.calls p.ui.flag ∧ (p.ui.isRefreshing = true ↔ Has p.ui.calls (.refresh .manual)) ∧
      (p.ui.isInitialLoading = true → Has p.ui.calls (.refresh .initial)) ∧
      ((∀ k, p.ui.calls k = none) → p.ui.isBusy = false) := by
  have hInv : FlagInv p.ui :=
    invariant (I := fun r : ScanPanel => FlagInv r.ui) (fun _ _ _ hStep => flagInv_step hStep)
      (flagInv_initial server) hRun
  refine ⟨hInv.tracks, hInv.refreshing, hInv.loading, fun hNone => ?_⟩
  have hNot (call : ScanCall) : ¬ Has p.ui.calls call := fun ⟨k, hSome⟩ => by
    rw [hNone k] at hSome
    cases hSome
  have hFlag (group : CallGroup) : p.ui.flag group = false := by
    refine Bool.eq_false_iff.mpr fun hSet => ?_
    obtain ⟨k, call, hSome, -⟩ := (hInv.tracks.set_iff group).mp hSet
    exact hNot call ⟨k, hSome⟩
  have hLoading : p.ui.isInitialLoading = false :=
    Bool.eq_false_iff.mpr fun hSet => hNot _ (hInv.loading hSet)
  have hRefreshing : p.ui.isRefreshing = false :=
    Bool.eq_false_iff.mpr fun hSet => hNot _ (hInv.refreshing.mp hSet)
  rw [ScanProgress.isBusy, hLoading, hRefreshing, show p.ui.isStarting = false from hFlag .starting,
    show p.ui.isStopping = false from hFlag .stopping,
    show p.ui.isRefreshingLibrary = false from hFlag .library]
  rfl

theorem busy_while_asking_overtaken :
    Tracks (panelAfter (firstAnswer ++ overtaken)).ui.calls
      (panelAfter (firstAnswer ++ overtaken)).ui.flag ∧
    (panelAfter (firstAnswer ++ overtaken)).ui.isBusy = false :=
  have hRun : run (ScanPanel.step fun _ => some 100) (.initial .initial)
      (firstAnswer ++ overtaken) = some (panelAfter (firstAnswer ++ overtaken)) :=
    run_getD (by decide +kernel)
  ⟨(busy_while_asking hRun).1, by decide +kernel⟩

end Flags

end SavedOrganizer.Frontend
