import Mathlib.Data.List.Sort
import SavedOrganizer.Frontend.JavaScript
import SavedOrganizer.Library.Transition

/-!
# Categories in the tabs of a browser

Every component that shows categories calls `useCategories`. The components of a tab share the
request that is under way, and every change of the categories is announced: to the listeners of
the tab by an event, to the other tabs by a broadcast channel. A listener makes the shared request
void before its component asks again.

The server is a list of its categories at every time, where a time is the number of changes. A
component that was mounted when a change was announced and has come to rest shows the categories
from that time on, or the fallback with an error (`categories_current`). For a component that is
mounted later this need not hold: an announcement that no listener hears leaves the shared request
as it is, and who is mounted then waits for its answer.
-/

namespace SavedOrganizer.Frontend.Categories

open Transition

abbrev TabId := Nat
abbrev HookId := Nat
abbrev RequestId := Nat

structure CategoryWithCount where
  id : Int
  name : JsString
  slug : JsString
  systemKey : Option JsString
  icon : JsString
  color : JsString
  position : Int
  isDefault : Bool
  messageCount : Int
  deriving DecidableEq, Repr

/-- `DEFAULT_CATEGORY_FALLBACK`, an entry at a time. -/
def fallbackCategory (position : Int) (name key icon color : String) : CategoryWithCount where
  id := position
  name := js name
  slug := js key
  systemKey := some (js key)
  icon := js icon
  color := js color
  position := position
  isDefault := true
  messageCount := 0

def DEFAULT_CATEGORY_FALLBACK : List CategoryWithCount :=
  [fallbackCategory 1 "Videos" "videos" "video" "#E11D48",
    fallbackCategory 2 "Audio" "audio" "music" "#2563EB",
    fallbackCategory 3 "Links" "links" "link" "#0EA5E9",
    fallbackCategory 4 "Repositories" "repositories" "code" "#4F46E5",
    fallbackCategory 5 "Images" "images" "image" "#14B8A6",
    fallbackCategory 6 "Documents" "documents" "file-text" "#F59E0B",
    fallbackCategory 7 "Text" "text" "message-square" "#6B7280",
    fallbackCategory 8 "Other" "other" "archive" "#64748B"]

/-- A payload that `isCategoryWithCount` accepts item by item, or another one. -/
inductive Payload
  | categories (items : List CategoryWithCount)
  | unexpected
  deriving DecidableEq, Repr

/-- The comparison of `normalizeCategories` is not positive. -/
def ordered (first second : CategoryWithCount) : Bool :=
  if first.position ≠ second.position then first.position < second.position
  else first.id ≤ second.id

def normalizeCategories : Payload → Option (List CategoryWithCount)
  | .categories items => some (items.mergeSort ordered)
  | .unexpected => none

/-- `toErrorMessage`, with the message of an `Error`. -/
def toErrorMessage : Option JsString → JsString
  | some message => if trim message = [] then js "Failed to fetch categories." else message
  | none => js "Failed to fetch categories."

/-! ## A tab -/

inductive RequestPhase
  | sent
  /-- The server has answered with its categories at a time. -/
  | answered (of : Nat) (payload : Payload)
  | resolved (of : Nat) (categories : List CategoryWithCount)
  | rejected (error : Option JsString)
  deriving DecidableEq, Repr

/-- A promise of `requestCategories`. -/
structure CategoryRequest where
  sentAt : Nat
  phase : RequestPhase
  deriving DecidableEq, Repr

/-- A mounted component with `useCategories`. -/
structure Hook where
  id : HookId
  categories : List CategoryWithCount
  isLoading : Bool
  isFallback : Bool
  error : Option JsString
  /-- The request `fetchCategories` awaits, unless it has been cancelled. -/
  waiting : Option RequestId
  /-- The path or `refreshRevision` has changed, and the effect has not run since. -/
  stale : Bool
  /-- The time of the categories that are shown. -/
  shownOf : Nat
  deriving DecidableEq, Repr

/-- `broadcastChannel`. -/
inductive ChannelState
  | undefined | opened | denied
  deriving DecidableEq, Repr

structure Tab where
  channel : ChannelState
  /-- The messages of other tabs that have not arrived. -/
  inbox : Nat
  /-- `inFlightCategoryRequest`. -/
  inFlight : Option RequestId
  requests : RequestId → Option CategoryRequest
  hooks : List Hook
  nextHook : HookId

inductive TabAction
  | mount
  | unmount (h : HookId)
  /-- The path changes. -/
  | navigate
  /-- The effect of a component runs; `r` is the request it sends if none is under way. -/
  | effect (h : HookId) (r : RequestId)
  /-- The server answers. -/
  | answer (r : RequestId)
  /-- The answer arrives. -/
  | settle (r : RequestId)
  | fail (r : RequestId) (error : Option JsString)
  /-- `fetchCategories` goes on after its `await`. -/
  | resume (h : HookId)
  /-- A message of another tab arrives. -/
  | deliver
  deriving DecidableEq, Repr

namespace Hook

def mounted (id : HookId) : Hook where
  id := id
  categories := DEFAULT_CATEGORY_FALLBACK
  isLoading := true
  isFallback := true
  error := none
  waiting := none
  stale := true
  shownOf := 0

def refresh (hook : Hook) : Hook := { hook with stale := true }

/-- The effect cancels what the component was waiting for. -/
def await (r : RequestId) (hook : Hook) : Hook := { hook with waiting := some r, stale := false }

def receive (of : Nat) (categories : List CategoryWithCount) (hook : Hook) : Hook :=
  { hook with
    categories := categories
    isLoading := false
    isFallback := false
    error := none
    waiting := none
    shownOf := of }

def giveUp (error : Option JsString) (hook : Hook) : Hook :=
  { hook with
    categories := DEFAULT_CATEGORY_FALLBACK
    isLoading := false
    isFallback := true
    error := some (toErrorMessage error)
    waiting := none }

end Hook

namespace Tab

def empty : Tab := ⟨.undefined, 0, none, fun _ => none, [], 0⟩

def hook (h : HookId) (tab : Tab) : Option Hook := tab.hooks.find? fun hook => hook.id == h

def modify (h : HookId) (f : Hook → Hook) (tab : Tab) : Tab :=
  { tab with hooks := tab.hooks.map fun hook => if hook.id = h then f hook else hook }

/-- `getBroadcastChannel`, where the browser may deny it. -/
def getBroadcastChannel (allowed : Bool) (tab : Tab) : Tab :=
  { tab with
    channel := if tab.channel = .undefined then (if allowed then .opened else .denied)
      else tab.channel }

/-- `dispatchLocal`: every listener calls `invalidateCategoryRequest` and refreshes. -/
def dispatchLocal (tab : Tab) : Tab :=
  { tab with
    inFlight := if tab.hooks.isEmpty then tab.inFlight else none
    hooks := tab.hooks.map Hook.refresh }

def setPhase (r : RequestId) (q : CategoryRequest) (phase : RequestPhase) (tab : Tab) : Tab :=
  { tab with requests := Function.update tab.requests r (some { q with phase := phase }) }

/-- The `finally` of `requestCategories`. -/
def release (r : RequestId) (tab : Tab) : Tab :=
  { tab with inFlight := if tab.inFlight = some r then none else tab.inFlight }

/-- The promise of a request whose answer has arrived. -/
def settled (of : Nat) (payload : Payload) : RequestPhase :=
  match normalizeCategories payload with
  | some categories => .resolved of categories
  | none => .rejected (some (js "Unexpected category payload."))

/-- `requestCategories`. -/
def requestCategories (now : Nat) (r : RequestId) (tab : Tab) : Option (Tab × RequestId) :=
  match tab.inFlight with
  | some current => some (tab, current)
  | none =>
      if tab.requests r = none then
        some ({ tab with
          inFlight := some r
          requests := Function.update tab.requests r (some ⟨now, .sent⟩) }, r)
      else none

def step (allowed : Bool) (now : Nat) (payload : Payload) (tab : Tab) : TabAction → Option Tab
  | .mount => some ({ tab with
      hooks := tab.hooks ++ [Hook.mounted tab.nextHook]
      nextHook := tab.nextHook + 1 }.getBroadcastChannel allowed)
  | .unmount h => some { tab with hooks := tab.hooks.filter fun hook => hook.id ≠ h }
  | .navigate => some { tab with hooks := tab.hooks.map Hook.refresh }
  | .effect h r =>
      match tab.hook h with
      | some hook =>
          if hook.stale then
            (tab.requestCategories now r).map fun (tab', current) =>
              tab'.modify h (Hook.await current)
          else none
      | none => none
  | .answer r =>
      match tab.requests r with
      | some ⟨sentAt, .sent⟩ => some (tab.setPhase r ⟨sentAt, .sent⟩ (.answered now payload))
      | _ => none
  | .settle r =>
      match tab.requests r with
      | some ⟨sentAt, .answered of payload⟩ =>
          some ((tab.setPhase r ⟨sentAt, .answered of payload⟩ (settled of payload)).release r)
      | _ => none
  | .fail r error =>
      match tab.requests r with
      | some ⟨sentAt, .sent⟩ =>
          some ((tab.setPhase r ⟨sentAt, .sent⟩ (.rejected error)).release r)
      | some ⟨sentAt, .answered of payload⟩ =>
          some ((tab.setPhase r ⟨sentAt, .answered of payload⟩ (.rejected error)).release r)
      | _ => none
  | .resume h =>
      match (tab.hook h).bind (·.waiting) with
      | some r =>
          match tab.requests r with
          | some ⟨_, .resolved of categories⟩ => some (tab.modify h (Hook.receive of categories))
          | some ⟨_, .rejected error⟩ => some (tab.modify h (Hook.giveUp error))
          | _ => none
      | none => none
  | .deliver =>
      if tab.inbox = 0 then none else some { tab with inbox := tab.inbox - 1 }.dispatchLocal

end Tab

/-! ## The tabs and the server -/

structure Browser where
  /-- The changes of the categories. -/
  time : Nat
  /-- What the server answered, or would have answered, at a time. -/
  server : Nat → Payload
  tabs : TabId → Tab

inductive Action
  /-- The categories change at the server. -/
  | change (payload : Payload)
  /-- `notifyCategoriesChanged`. -/
  | notify (t : TabId)
  | tab (t : TabId) (action : TabAction)
  deriving DecidableEq, Repr

namespace Browser

def put (t : TabId) (tab : Tab) (b : Browser) : Browser :=
  { b with tabs := Function.update b.tabs t tab }

/-- `postMessage` of a tab, to the other ones. -/
def post (t : TabId) (b : Browser) : Browser :=
  { b with
    tabs := fun t' =>
      if t' ≠ t ∧ (b.tabs t').channel = .opened then
        { b.tabs t' with inbox := (b.tabs t').inbox + 1 }
      else b.tabs t' }

/-- `notifyOrganizationChanged("categories")`. -/
def notify (allowed : TabId → Bool) (t : TabId) (b : Browser) : Browser :=
  let told := (b.tabs t).dispatchLocal.getBroadcastChannel (allowed t)
  if told.channel = .opened then (b.put t told).post t else b.put t told

def step (allowed : TabId → Bool) (b : Browser) : Action → Option Browser
  | .change payload => some { b with
      time := b.time + 1
      server := Function.update b.server (b.time + 1) payload }
  | .notify t => some (b.notify allowed t)
  | .tab t action =>
      ((b.tabs t).step (allowed t) b.time (b.server b.time) action).map fun tab => b.put t tab

def initial (payload : Payload) : Browser := ⟨0, fun _ => payload, fun _ => .empty⟩

@[simp] theorem put_self (t : TabId) (tab : Tab) (b : Browser) : (b.put t tab).tabs t = tab :=
  Function.update_self _ _ _

theorem put_other {t t' : TabId} (hNe : t' ≠ t) (tab : Tab) (b : Browser) :
    (b.put t tab).tabs t' = b.tabs t' := Function.update_of_ne hNe _ _

theorem post_self (t : TabId) (b : Browser) : (b.post t).tabs t = b.tabs t :=
  if_neg fun hBoth => hBoth.1 rfl

theorem post_opened {t t' : TabId} {b : Browser} (hNe : t' ≠ t)
    (hOpened : (b.tabs t').channel = .opened) :
    (b.post t).tabs t' = { b.tabs t' with inbox := (b.tabs t').inbox + 1 } :=
  if_pos ⟨hNe, hOpened⟩

theorem post_unopened {t t' : TabId} {b : Browser} (hUnopened : (b.tabs t').channel ≠ .opened) :
    (b.post t).tabs t' = b.tabs t' := if_neg fun hBoth => hUnopened hBoth.2

end Browser

/-! ## What holds of every tab -/

section Tabs

variable {allowed : Bool} {now : Nat} {server : Nat → Payload} {tab tab' : Tab}
  {action : TabAction} {h : HookId} {r : RequestId} {hook : Hook}

/-- An answer carries what the server had at a time after the request was sent. -/
def CategoryRequest.Valid (now : Nat) (server : Nat → Payload) (q : CategoryRequest) : Prop :=
  q.sentAt ≤ now ∧
    match q.phase with
    | .answered of payload => q.sentAt ≤ of ∧ of ≤ now ∧ payload = server of
    | .resolved of categories =>
        q.sentAt ≤ of ∧ of ≤ now ∧ normalizeCategories (server of) = some categories
    | .sent | .rejected _ => True

/-- What a component shows: the fallback, or what the server had at a time. -/
inductive Hook.Shows (now : Nat) (server : Nat → Payload) (hook : Hook) : Prop
  | fallback (hFallback : hook.isFallback = true)
      (hCategories : hook.categories = DEFAULT_CATEGORY_FALLBACK)
      (hError : hook.isLoading = true ∨ hook.error.isSome = true)
  | categories (hFallback : hook.isFallback = false) (hError : hook.error = none)
      (hTime : hook.shownOf ≤ now)
      (hCategories : normalizeCategories (server hook.shownOf) = some hook.categories)

/-- A component at rest is not loading. -/
def Hook.Settles (hook : Hook) : Prop :=
  hook.isLoading = true → hook.stale = true ∨ hook.waiting.isSome = true

theorem Hook.Shows.same {now : Nat} {server : Nat → Payload} {hook hook' : Hook}
    (h : hook.Shows now server) (hSame : hook' = { hook with
      waiting := hook'.waiting, stale := hook'.stale }) : hook'.Shows now server := by
  rw [hSame]
  cases h with
  | fallback hFallback hCategories hError => exact .fallback hFallback hCategories hError
  | categories hFallback hError hTime hCategories =>
      exact .categories hFallback hError hTime hCategories

structure TabInv (allowed : Bool) (now : Nat) (server : Nat → Payload) (tab : Tab) : Prop where
  requests : ∀ r q, tab.requests r = some q → q.Valid now server
  inFlight : ∀ r, tab.inFlight = some r → ∃ q, tab.requests r = some q
  shows : ∀ hook ∈ tab.hooks, hook.Shows now server
  settles : ∀ hook ∈ tab.hooks, hook.Settles
  fresh : ∀ hook ∈ tab.hooks, hook.id < tab.nextHook
  unique : ∀ a ∈ tab.hooks, ∀ b ∈ tab.hooks, a.id = b.id → a = b
  channel : tab.channel = .undefined ∨ tab.channel = if allowed then .opened else .denied
  opened : tab.hooks ≠ [] → tab.channel ≠ .undefined

/-- Everything the tab shows or will show without asking again was asked for since a time. -/
structure AskedSince (since : Nat) (tab : Tab) : Prop where
  inFlight : ∀ r q, tab.inFlight = some r → tab.requests r = some q → since ≤ q.sentAt
  hooks : ∀ hook ∈ tab.hooks, hook.stale = true ∨
    (∃ r q, hook.waiting = some r ∧ tab.requests r = some q ∧ since ≤ q.sentAt) ∨
    (hook.waiting = none ∧ (hook.isFallback = true ∨ since ≤ hook.shownOf))

theorem mem_modify {f : Hook → Hook} :
    hook ∈ (tab.modify h f).hooks ↔
      (hook ∈ tab.hooks ∧ hook.id ≠ h) ∨ ∃ old ∈ tab.hooks, old.id = h ∧ hook = f old := by
  simp only [Tab.modify, List.mem_map]
  constructor
  · rintro ⟨old, hOld, rfl⟩
    by_cases hId : old.id = h
    · rw [if_pos hId]
      exact Or.inr ⟨old, hOld, hId, rfl⟩
    · rw [if_neg hId]
      exact Or.inl ⟨hOld, hId⟩
  · rintro (⟨hHook, hId⟩ | ⟨old, hOld, hId, rfl⟩)
    · exact ⟨hook, hHook, if_neg hId⟩
    · exact ⟨old, hOld, if_pos hId⟩

theorem id_of_hook (hHook : tab.hook h = some hook) : hook ∈ tab.hooks ∧ hook.id = h := by
  have hId := List.find?_some hHook
  exact ⟨List.mem_of_find?_eq_some hHook, beq_iff_eq.mp hId⟩

/-- What a step of a tab can do. -/
inductive TabStep (allowed : Bool) (now : Nat) (payload : Payload) (tab : Tab) :
    TabAction → Tab → Prop
  | mount : TabStep allowed now payload tab .mount
      ({ tab with hooks := tab.hooks ++ [Hook.mounted tab.nextHook]
                  nextHook := tab.nextHook + 1 }.getBroadcastChannel allowed)
  | unmount (h : HookId) : TabStep allowed now payload tab (.unmount h)
      { tab with hooks := tab.hooks.filter fun hook => hook.id ≠ h }
  | navigate : TabStep allowed now payload tab .navigate
      { tab with hooks := tab.hooks.map Hook.refresh }
  | join {h : HookId} {r current : RequestId} (hCurrent : tab.inFlight = some current) :
      TabStep allowed now payload tab (.effect h r) (tab.modify h (Hook.await current))
  | send {h : HookId} {r : RequestId} (hIdle : tab.inFlight = none)
      (hFree : tab.requests r = none) :
      TabStep allowed now payload tab (.effect h r)
        ({ tab with
          inFlight := some r
          requests := Function.update tab.requests r (some ⟨now, .sent⟩) }.modify h
            (Hook.await r))
  | answer {r : RequestId} {sentAt : Nat} (hSent : tab.requests r = some ⟨sentAt, .sent⟩) :
      TabStep allowed now payload tab (.answer r)
        (tab.setPhase r ⟨sentAt, .sent⟩ (.answered now payload))
  | settle {r : RequestId} {q : CategoryRequest} {of : Nat} {answer : Payload}
      (hAnswered : tab.requests r = some q) (hPhase : q.phase = .answered of answer) :
      TabStep allowed now payload tab (.settle r)
        ((tab.setPhase r q (Tab.settled of answer)).release r)
  | fail {r : RequestId} {q : CategoryRequest} (error : Option JsString)
      (hRequest : tab.requests r = some q) :
      TabStep allowed now payload tab (.fail r error)
        ((tab.setPhase r q (.rejected error)).release r)
  | receive {h : HookId} {r : RequestId} {hook : Hook} {sentAt of : Nat}
      {categories : List CategoryWithCount} (hHook : tab.hook h = some hook)
      (hWaiting : hook.waiting = some r)
      (hResolved : tab.requests r = some ⟨sentAt, .resolved of categories⟩) :
      TabStep allowed now payload tab (.resume h) (tab.modify h (Hook.receive of categories))
  | giveUp {h : HookId} (error : Option JsString) :
      TabStep allowed now payload tab (.resume h) (tab.modify h (Hook.giveUp error))
  | deliver (hInbox : tab.inbox ≠ 0) :
      TabStep allowed now payload tab .deliver
        { tab with inbox := tab.inbox - 1 }.dispatchLocal

theorem tabStep_of_step {payload : Payload}
    (hStep : tab.step allowed now payload action = some tab') :
    TabStep allowed now payload tab action tab' := by
  cases action with
  | mount => exact Option.some.inj hStep ▸ .mount
  | unmount h => exact Option.some.inj hStep ▸ .unmount h
  | navigate => exact Option.some.inj hStep ▸ .navigate
  | effect h r =>
      simp only [Tab.step, Tab.requestCategories] at hStep
      split at hStep
      · split at hStep
        · split at hStep
          · rename_i current hCurrent
            exact Option.some.inj hStep ▸ .join hCurrent
          · rename_i hIdle
            split at hStep
            · rename_i hFree
              exact Option.some.inj hStep ▸ .send hIdle hFree
            · cases hStep
        · cases hStep
      · cases hStep
  | answer r =>
      simp only [Tab.step] at hStep
      split at hStep
      · rename_i sentAt hSent
        exact Option.some.inj hStep ▸ .answer hSent
      · cases hStep
  | settle r =>
      simp only [Tab.step] at hStep
      split at hStep
      · rename_i sentAt of answer hAnswered
        exact Option.some.inj hStep ▸ .settle hAnswered rfl
      · cases hStep
  | fail r error =>
      simp only [Tab.step] at hStep
      split at hStep
      · rename_i sentAt hRequest
        exact Option.some.inj hStep ▸ .fail error hRequest
      · rename_i sentAt of answer hRequest
        exact Option.some.inj hStep ▸ .fail error hRequest
      · cases hStep
  | resume h =>
      simp only [Tab.step] at hStep
      split at hStep
      · rename_i r hWaits
        obtain ⟨hook, hHook, hWaiting⟩ := Option.bind_eq_some_iff.mp hWaits
        split at hStep
        · rename_i sentAt of categories hResolved
          exact Option.some.inj hStep ▸ .receive hHook hWaiting hResolved
        · exact Option.some.inj hStep ▸ .giveUp _
        · cases hStep
      · cases hStep
  | deliver =>
      simp only [Tab.step, Option.ite_none_left_eq_some, Option.some.injEq] at hStep
      exact hStep.2 ▸ .deliver hStep.1

theorem tabInv_empty (allowed : Bool) (now : Nat) (server : Nat → Payload) :
    TabInv allowed now server .empty where
  requests _ _ hRequest := by cases hRequest
  inFlight _ hFlight := by cases hFlight
  shows _ hHook := by cases hHook
  settles _ hHook := by cases hHook
  fresh _ hHook := by cases hHook
  unique _ hHook := by cases hHook
  channel := Or.inl rfl
  opened hHooks := absurd rfl hHooks

/-- The categories at the server change. -/
theorem TabInv.later (hInv : TabInv allowed now server tab) (payload : Payload) :
    TabInv allowed (now + 1) (Function.update server (now + 1) payload) tab := by
  have hServer {of : Nat} (hLe : of ≤ now) :
      Function.update server (now + 1) payload of = server of :=
    Function.update_of_ne (Nat.ne_of_lt (Nat.lt_succ_of_le hLe)) _ _
  refine { hInv with requests := fun r q hRequest => ?_, shows := fun hook hHook => ?_ }
  · obtain ⟨hSent, hPhase⟩ := hInv.requests r q hRequest
    refine ⟨Nat.le_succ_of_le hSent, ?_⟩
    split at hPhase
    · obtain ⟨hLe, hNow, hPayload⟩ := hPhase
      exact ⟨hLe, Nat.le_succ_of_le hNow, (hServer hNow).symm ▸ hPayload⟩
    · obtain ⟨hLe, hNow, hCategories⟩ := hPhase
      exact ⟨hLe, Nat.le_succ_of_le hNow, (hServer hNow).symm ▸ hCategories⟩
    · trivial
    · trivial
  · cases hInv.shows hook hHook with
    | fallback hFallback hCategories hError => exact .fallback hFallback hCategories hError
    | categories hFallback hError hTime hCategories =>
        exact .categories hFallback hError (Nat.le_succ_of_le hTime)
          ((hServer hTime).symm ▸ hCategories)

/-- A request is sent or goes on. -/
theorem TabInv.put {q : CategoryRequest} (hInv : TabInv allowed now server tab)
    (inFlight : Option RequestId) (r : RequestId) (hValid : q.Valid now server)
    (hFlight : ∀ k, inFlight = some k → k = r ∨ tab.inFlight = some k) :
    TabInv allowed now server
      { tab with inFlight := inFlight, requests := Function.update tab.requests r (some q) } := by
  refine { hInv with requests := fun k p hRequest => ?_, inFlight := fun k hSome => ?_ }
  · dsimp only at hRequest
    by_cases hk : k = r
    · subst hk
      rw [Function.update_self] at hRequest
      exact Option.some.inj hRequest ▸ hValid
    · rw [Function.update_of_ne hk] at hRequest
      exact hInv.requests k p hRequest
  · dsimp only
    by_cases hk : k = r
    · exact ⟨q, hk ▸ Function.update_self _ _ _⟩
    · rw [Function.update_of_ne hk]
      exact hInv.inFlight k ((hFlight k hSome).resolve_left hk)

/-- A component changes. -/
theorem TabInv.modify {f : Hook → Hook} (hInv : TabInv allowed now server tab)
    (hId : ∀ hook, (f hook).id = hook.id)
    (hShows : ∀ hook ∈ tab.hooks, hook.id = h → (f hook).Shows now server)
    (hSettles : ∀ hook ∈ tab.hooks, hook.id = h → (f hook).Settles) :
    TabInv allowed now server (tab.modify h f) where
  requests := hInv.requests
  inFlight := hInv.inFlight
  shows hook hHook := by
    rcases mem_modify.mp hHook with ⟨hOld, -⟩ | ⟨old, hOld, hSame, rfl⟩
    · exact hInv.shows hook hOld
    · exact hShows old hOld hSame
  settles hook hHook := by
    rcases mem_modify.mp hHook with ⟨hOld, -⟩ | ⟨old, hOld, hSame, rfl⟩
    · exact hInv.settles hook hOld
    · exact hSettles old hOld hSame
  fresh hook hHook := by
    rcases mem_modify.mp hHook with ⟨hOld, -⟩ | ⟨old, hOld, -, rfl⟩
    · exact hInv.fresh hook hOld
    · exact (hId old).symm ▸ hInv.fresh old hOld
  unique a ha b hb hSame := by
    rcases mem_modify.mp ha with ⟨hA, hNotA⟩ | ⟨a, hA, hIsA, rfl⟩
    · rcases mem_modify.mp hb with ⟨hB, -⟩ | ⟨b, hB, hIsB, rfl⟩
      · exact hInv.unique a hA b hB hSame
      · exact absurd ((hSame.trans (hId b)).trans hIsB) hNotA
    · rcases mem_modify.mp hb with ⟨hB, hNotB⟩ | ⟨b, hB, hIsB, rfl⟩
      · exact absurd ((hSame.symm.trans (hId a)).trans hIsA) hNotB
      · rw [hInv.unique a hA b hB (hIsA.trans hIsB.symm)]
  channel := hInv.channel
  opened hHooks := hInv.opened fun hNone => hHooks (by rw [Tab.modify, hNone]; rfl)

/-- Every component is told to ask again, and nothing more is under way than before. -/
theorem TabInv.refresh {inFlight : Option RequestId} (hInv : TabInv allowed now server tab)
    (hFlight : ∀ k, inFlight = some k → tab.inFlight = some k) :
    TabInv allowed now server
      { tab with inFlight := inFlight, hooks := tab.hooks.map Hook.refresh } where
  requests := hInv.requests
  inFlight k hSome := hInv.inFlight k (hFlight k hSome)
  shows hook hHook := by
    obtain ⟨old, hOld, rfl⟩ := List.mem_map.mp hHook
    exact (hInv.shows old hOld).same rfl
  settles hook hHook := by
    obtain ⟨old, -, rfl⟩ := List.mem_map.mp hHook
    exact fun _ => Or.inl rfl
  fresh hook hHook := by
    obtain ⟨old, hOld, rfl⟩ := List.mem_map.mp hHook
    exact hInv.fresh old hOld
  unique a ha b hb hSame := by
    obtain ⟨a, hA, rfl⟩ := List.mem_map.mp ha
    obtain ⟨b, hB, rfl⟩ := List.mem_map.mp hb
    rw [hInv.unique a hA b hB hSame]
  channel := hInv.channel
  opened hHooks := hInv.opened fun hNone => hHooks (by dsimp only; rw [hNone]; rfl)

theorem TabInv.dispatchLocal (hInv : TabInv allowed now server tab) :
    TabInv allowed now server tab.dispatchLocal := by
  refine hInv.refresh fun k hSome => ?_
  split at hSome
  · exact hSome
  · cases hSome

theorem TabInv.inbox (hInv : TabInv allowed now server tab) (n : Nat) :
    TabInv allowed now server { tab with inbox := n } := { hInv with }

theorem TabInv.channel_opened (hInv : TabInv allowed now server tab) :
    (tab.getBroadcastChannel allowed).channel = if allowed then .opened else .denied := by
  show (if tab.channel = .undefined then _ else tab.channel) = _
  split
  · rfl
  · rename_i hDefined
    exact hInv.channel.resolve_left hDefined

theorem channel_ne_undefined (allowed : Bool) :
    (if allowed then ChannelState.opened else .denied) ≠ .undefined := by
  cases allowed <;> exact ChannelState.noConfusion

theorem TabInv.getBroadcastChannel (hInv : TabInv allowed now server tab) :
    TabInv allowed now server (tab.getBroadcastChannel allowed) :=
  { hInv with
    channel := Or.inr hInv.channel_opened
    opened := fun _ => hInv.channel_opened ▸ channel_ne_undefined allowed }

theorem TabInv.mount (hInv : TabInv allowed now server tab) (hOpened : tab.channel ≠ .undefined) :
    TabInv allowed now server { tab with
      hooks := tab.hooks ++ [Hook.mounted tab.nextHook], nextHook := tab.nextHook + 1 } := by
  have hMem {hook : Hook} (hHook : hook ∈ tab.hooks ++ [Hook.mounted tab.nextHook]) :
      hook ∈ tab.hooks ∨ hook = Hook.mounted tab.nextHook :=
    (List.mem_append.mp hHook).imp_right List.mem_singleton.mp
  refine
    { hInv with
      shows := fun hook hHook => ?_
      settles := fun hook hHook => ?_
      fresh := fun hook hHook => ?_
      unique := fun a ha b hb hSame => ?_
      opened := fun _ => hOpened }
  · rcases hMem hHook with hOld | rfl
    · exact hInv.shows hook hOld
    · exact .fallback rfl rfl (Or.inl rfl)
  · rcases hMem hHook with hOld | rfl
    · exact hInv.settles hook hOld
    · exact fun _ => Or.inl rfl
  · rcases hMem hHook with hOld | rfl
    · exact Nat.lt_succ_of_lt (hInv.fresh hook hOld)
    · exact Nat.lt_succ_self _
  · rcases hMem ha with hA | rfl
    · rcases hMem hb with hB | rfl
      · exact hInv.unique a hA b hB hSame
      · exact absurd hSame (Nat.ne_of_lt (hInv.fresh a hA))
    · rcases hMem hb with hB | rfl
      · exact absurd hSame.symm (Nat.ne_of_lt (hInv.fresh b hB))
      · rfl

theorem valid_settled {of : Nat} {payload : Payload} {sentAt : Nat}
    (hValid : CategoryRequest.Valid now server ⟨sentAt, .answered of payload⟩) :
    CategoryRequest.Valid now server ⟨sentAt, Tab.settled of payload⟩ := by
  obtain ⟨hSent, hLe, hNow, rfl⟩ := hValid
  cases hCategories : normalizeCategories (server of) with
  | none =>
      rw [show Tab.settled of (server of) = .rejected _ by rw [Tab.settled, hCategories]]
      exact ⟨hSent, trivial⟩
  | some categories =>
      rw [show Tab.settled of (server of) = .resolved of categories by
        rw [Tab.settled, hCategories]]
      exact ⟨hSent, hLe, hNow, hCategories⟩

theorem tabInv_step (hStep : TabStep allowed now (server now) tab action tab')
    (hInv : TabInv allowed now server tab) : TabInv allowed now server tab' := by
  have hRelease {r : RequestId} : ∀ k,
      (if tab.inFlight = some r then none else tab.inFlight) = some k →
        k = r ∨ tab.inFlight = some k := by
    intro k hSome
    split at hSome
    · cases hSome
    · exact Or.inr hSome
  cases hStep with
  | mount =>
      have hOpen := hInv.getBroadcastChannel
      exact hOpen.mount (hInv.channel_opened ▸ channel_ne_undefined allowed)
  | unmount h =>
      have hSub {hook : Hook} (hHook : hook ∈ tab.hooks.filter fun hook => hook.id ≠ h) :
          hook ∈ tab.hooks := List.mem_of_mem_filter hHook
      exact
        { hInv with
          shows := fun hook hHook => hInv.shows hook (hSub hHook)
          settles := fun hook hHook => hInv.settles hook (hSub hHook)
          fresh := fun hook hHook => hInv.fresh hook (hSub hHook)
          unique := fun a ha b hb => hInv.unique a (hSub ha) b (hSub hb)
          opened := fun hHooks => hInv.opened fun hNone => hHooks (by rw [hNone]; rfl) }
  | navigate => exact hInv.refresh fun _ hSome => hSome
  | join hCurrent =>
      exact hInv.modify (fun _ => rfl) (fun hook hHook _ => (hInv.shows hook hHook).same rfl)
        (fun _ _ _ _ => Or.inr rfl)
  | @send h r hIdle hFree =>
      have hSent := hInv.put (some r) r (q := ⟨now, .sent⟩) ⟨Nat.le_refl _, trivial⟩ fun k hSome => Or.inl (Option.some.inj hSome).symm
      exact hSent.modify (fun _ => rfl) (fun hook hHook _ => (hInv.shows hook hHook).same rfl)
        (fun _ _ _ _ => Or.inr rfl)
  | answer hSent =>
      obtain ⟨hBefore, -⟩ := hInv.requests _ _ hSent
      exact hInv.put _ _ ⟨hBefore, hBefore, Nat.le_refl _, rfl⟩ fun _ => Or.inr
  | settle hAnswered hPhase =>
      rename_i r q of payload
      obtain ⟨sentAt, phase⟩ := q
      obtain rfl := hPhase
      exact hInv.put _ _ (valid_settled (hInv.requests _ _ hAnswered)) hRelease
  | fail error hRequest =>
      exact hInv.put _ _ ⟨(hInv.requests _ _ hRequest).1, trivial⟩ hRelease
  | receive hHook hWaiting hResolved =>
      obtain ⟨-, -, hNow, hCategories⟩ := hInv.requests _ _ hResolved
      exact hInv.modify (fun _ => rfl) (fun _ _ _ => .categories rfl rfl hNow hCategories)
        (fun _ _ _ hLoading => nomatch hLoading)
  | giveUp error =>
      exact hInv.modify (fun _ => rfl) (fun _ _ _ => .fallback rfl rfl (Or.inr rfl))
        (fun _ _ _ hLoading => nomatch hLoading)
  | deliver hInbox => exact (hInv.inbox _).dispatchLocal

/-! ## What has been asked since an announcement -/

variable {since : Nat}

theorem asked_dispatchLocal (hHooks : tab.hooks ≠ []) : AskedSince since tab.dispatchLocal where
  inFlight r q hFlight := by
    have hNone : tab.dispatchLocal.inFlight = none :=
      if_neg fun hEmpty => hHooks (List.isEmpty_iff.mp hEmpty)
    cases hNone.symm.trans hFlight
  hooks hook hHook := by
    obtain ⟨old, -, rfl⟩ := List.mem_map.mp hHook
    exact Or.inl rfl

/-- A request is sent, or goes on without another time. -/
theorem AskedSince.put {q : CategoryRequest} {inFlight : Option RequestId}
    (hAsked : AskedSince since tab) (r : RequestId)
    (hSame : ∀ old, tab.requests r = some old → q.sentAt = old.sentAt)
    (hFlight : ∀ k, inFlight = some k → (k = r ∧ since ≤ q.sentAt) ∨ tab.inFlight = some k)
    (hKnown : ∀ k, tab.inFlight = some k → ∃ q, tab.requests k = some q) :
    AskedSince since
      { tab with inFlight := inFlight, requests := Function.update tab.requests r (some q) } where
  inFlight k p hSome hRequest := by
    dsimp only at hSome hRequest
    by_cases hk : k = r
    · subst hk
      rw [Function.update_self] at hRequest
      obtain rfl := Option.some.inj hRequest
      rcases hFlight k hSome with ⟨-, hLe⟩ | hOld
      · exact hLe
      · obtain ⟨old, hRequest⟩ := hKnown k hOld
        exact (hSame old hRequest).symm ▸ hAsked.inFlight k old hOld hRequest
    · rw [Function.update_of_ne hk] at hRequest
      exact hAsked.inFlight k p ((hFlight k hSome).resolve_left fun hBoth => hk hBoth.1) hRequest
  hooks hook hHook := by
    rcases hAsked.hooks hook hHook with hStale | ⟨k, p, hWaiting, hRequest, hLe⟩ | hRest
    · exact Or.inl hStale
    · refine Or.inr (Or.inl ?_)
      by_cases hk : k = r
      · subst hk
        exact ⟨k, q, hWaiting, Function.update_self _ _ _, (hSame p hRequest).symm ▸ hLe⟩
      · exact ⟨k, p, hWaiting, (Function.update_of_ne hk _ _).trans hRequest, hLe⟩
    · exact Or.inr (Or.inr hRest)

theorem AskedSince.modify {f : Hook → Hook} (hAsked : AskedSince since tab)
    (hHook : ∀ hook ∈ tab.hooks, hook.id = h → (f hook).stale = true ∨
      (∃ r q, (f hook).waiting = some r ∧ tab.requests r = some q ∧ since ≤ q.sentAt) ∨
      ((f hook).waiting = none ∧ ((f hook).isFallback = true ∨ since ≤ (f hook).shownOf))) :
    AskedSince since (tab.modify h f) where
  inFlight := hAsked.inFlight
  hooks hook hMem := by
    rcases mem_modify.mp hMem with ⟨hOld, -⟩ | ⟨old, hOld, hSame, rfl⟩
    · exact hAsked.hooks hook hOld
    · exact hHook old hOld hSame

theorem asked_step (hStep : TabStep allowed now (server now) tab action tab')
    (hInv : TabInv allowed now server tab) (hNow : since ≤ now)
    (hAsked : AskedSince since tab) : AskedSince since tab' := by
  have hRelease {r : RequestId} {p : Prop} : ∀ k,
      (if tab.inFlight = some r then none else tab.inFlight) = some k →
        (k = r ∧ p) ∨ tab.inFlight = some k := by
    intro k hSome
    split at hSome
    · cases hSome
    · exact Or.inr hSome
  have hPhase {r : RequestId} {q : CategoryRequest} {phase : RequestPhase}
      (hRequest : tab.requests r = some q) :
      ∀ old, tab.requests r = some old →
        ({ q with phase := phase } : CategoryRequest).sentAt = old.sentAt :=
    fun old hOld =>
      show q.sentAt = old.sentAt from
        congrArg CategoryRequest.sentAt (Option.some.inj (hRequest.symm.trans hOld))
  cases hStep with
  | mount =>
      refine ⟨hAsked.inFlight, fun hook hHook => ?_⟩
      rcases List.mem_append.mp hHook with hOld | hNew
      · exact hAsked.hooks hook hOld
      · exact Or.inl (List.mem_singleton.mp hNew ▸ rfl)
  | unmount h =>
      exact ⟨hAsked.inFlight, fun hook hHook => hAsked.hooks hook (List.mem_of_mem_filter hHook)⟩
  | navigate =>
      refine ⟨hAsked.inFlight, fun hook hHook => ?_⟩
      obtain ⟨old, -, rfl⟩ := List.mem_map.mp hHook
      exact Or.inl rfl
  | join hCurrent =>
      obtain ⟨q, hRequest⟩ := hInv.inFlight _ hCurrent
      exact hAsked.modify fun _ _ _ =>
        Or.inr (Or.inl ⟨_, q, rfl, hRequest, hAsked.inFlight _ q hCurrent hRequest⟩)
  | @send h r hIdle hFree =>
      refine AskedSince.modify (hAsked.put r (q := ⟨now, .sent⟩) ?_ ?_ hInv.inFlight) ?_
      · exact fun old hOld => by cases hFree.symm.trans hOld
      · exact fun k hSome => Or.inl ⟨(Option.some.inj hSome).symm, hNow⟩
      · exact fun _ _ _ => Or.inr (Or.inl ⟨r, ⟨now, .sent⟩, rfl, Function.update_self _ _ _, hNow⟩)
  | answer hSent => exact hAsked.put _ (hPhase hSent) (fun _ => Or.inr) hInv.inFlight
  | settle hAnswered => exact hAsked.put _ (hPhase hAnswered) hRelease hInv.inFlight
  | fail error hRequest => exact hAsked.put _ (hPhase hRequest) hRelease hInv.inFlight
  | @receive h r hook sentAt of categories hHook hWaiting hResolved =>
      obtain ⟨hMem, hId⟩ := id_of_hook hHook
      refine hAsked.modify fun old hOld hSame => ?_
      -- the component that goes on is the one that was waiting
      obtain rfl := hInv.unique old hOld hook hMem (hSame.trans hId.symm)
      rcases hAsked.hooks old hOld with hStale | ⟨k, q, hWaits, hRequest, hLe⟩ | ⟨hRest, -⟩
      · exact Or.inl hStale
      · obtain rfl := Option.some.inj (hWaits.symm.trans hWaiting)
        obtain rfl := Option.some.inj (hRequest.symm.trans hResolved)
        obtain ⟨-, hAnswered, -, -⟩ := hInv.requests _ _ hResolved
        exact Or.inr (Or.inr ⟨rfl, Or.inr (Nat.le_trans hLe hAnswered)⟩)
      · cases hRest.symm.trans hWaiting
  | giveUp error => exact hAsked.modify fun _ _ _ => Or.inr (Or.inr ⟨rfl, Or.inl rfl⟩)
  | deliver hInbox =>
      by_cases hHooks : tab.hooks = []
      · refine ⟨fun r q hFlight => hAsked.inFlight r q ?_, fun hook hHook => ?_⟩
        · rw [← hFlight]
          exact (if_pos (List.isEmpty_iff.mpr hHooks)).symm
        · obtain ⟨old, hOld, -⟩ := List.mem_map.mp hHook
          rw [show tab.hooks = [] from hHooks] at hOld
          cases hOld
      · exact @asked_dispatchLocal { tab with inbox := tab.inbox - 1 } since hHooks

/-- A component was told of a change at a time, or will be by a message that is on its way. Where
it is not mounted any more it does not come back. -/
structure Told (since : Nat) (h : HookId) (posted : Bool) (tab : Tab) : Prop where
  given : h < tab.nextHook
  told : (∀ hook ∈ tab.hooks, hook.id ≠ h) ∨ (posted = true ∧ tab.inbox ≠ 0) ∨
    AskedSince since tab

theorem asked_or_unmounted (since : Nat) (h : HookId) (tab : Tab) :
    (∀ hook ∈ tab.dispatchLocal.hooks, hook.id ≠ h) ∨ AskedSince since tab.dispatchLocal := by
  by_cases hHooks : tab.hooks = []
  · refine Or.inl fun hook hHook => ?_
    rw [Tab.dispatchLocal, hHooks] at hHook
    cases hHook
  · exact Or.inr (asked_dispatchLocal hHooks)

theorem told_step {posted : Bool} (hStep : TabStep allowed now (server now) tab action tab')
    (hInv : TabInv allowed now server tab) (hNow : since ≤ now) (hTold : Told since h posted tab) :
    Told since h posted tab' := by
  have hModify {h' : HookId} {f : Hook → Hook} {tab : Tab} (hId : ∀ hook, (f hook).id = hook.id)
      (hGone : ∀ hook ∈ tab.hooks, hook.id ≠ h) : ∀ hook ∈ (tab.modify h' f).hooks, hook.id ≠ h := by
    intro hook hHook
    rcases mem_modify.mp hHook with ⟨hOld, -⟩ | ⟨old, hOld, -, rfl⟩
    · exact hGone hook hOld
    · exact (hId old).symm ▸ hGone old hOld
  have hGiven : tab.nextHook ≤ tab'.nextHook := by
    cases hStep <;> first | exact Nat.le_succ _ | exact Nat.le_refl _
  refine ⟨Nat.lt_of_lt_of_le hTold.given hGiven, ?_⟩
  rcases hTold.told with hGone | ⟨hPosted, hInbox⟩ | hAsked
  · refine Or.inl ?_
    cases hStep with
    | mount =>
        intro hook hHook
        rcases List.mem_append.mp hHook with hOld | hNew
        · exact hGone hook hOld
        · rw [List.mem_singleton.mp hNew]
          exact (Nat.ne_of_lt hTold.given).symm
    | unmount => exact fun hook hHook => hGone hook (List.mem_of_mem_filter hHook)
    | navigate | deliver =>
        intro hook hHook
        obtain ⟨old, hOld, rfl⟩ := List.mem_map.mp hHook
        exact hGone old hOld
    | join | send | receive | giveUp => exact hModify (fun _ => rfl) hGone
    | answer | settle | fail => exact hGone
  · cases hStep with
    | deliver =>
        exact (asked_or_unmounted since h _).imp_right Or.inr
    | mount | unmount | navigate | join | send | receive | giveUp | answer | settle | fail =>
        exact Or.inr (Or.inl ⟨hPosted, hInbox⟩)
  · exact Or.inr (Or.inr (asked_step hStep hInv hNow hAsked))

end Tabs

/-! ## The browser -/

section Browsers

variable {allowed : TabId → Bool} {b b' : Browser} {action : Action} {t : TabId}

structure BrowserInv (allowed : TabId → Bool) (b : Browser) : Prop where
  tabs : ∀ t, TabInv (allowed t) b.time b.server (b.tabs t)

/-- The tab that announces a change. -/
theorem notify_self (allowed : TabId → Bool) (t : TabId) (b : Browser) :
    (b.notify allowed t).tabs t = (b.tabs t).dispatchLocal.getBroadcastChannel (allowed t) := by
  unfold Browser.notify
  dsimp only
  split
  · rw [Browser.post_self, Browser.put_self]
  · exact Browser.put_self t _ b

/-- The other tabs get at most a message. -/
theorem notify_other {t' : TabId} (hNe : t' ≠ t) :
    (b.notify allowed t).tabs t' = b.tabs t' ∨
      (b.notify allowed t).tabs t' = { b.tabs t' with inbox := (b.tabs t').inbox + 1 } := by
  unfold Browser.notify
  dsimp only
  split
  · by_cases hOpened : (b.tabs t').channel = .opened
    · rw [Browser.post_opened hNe ((Browser.put_other hNe _ b).symm ▸ hOpened),
        Browser.put_other hNe]
      exact Or.inr rfl
    · rw [Browser.post_unopened ((Browser.put_other hNe _ b).symm ▸ hOpened),
        Browser.put_other hNe]
      exact Or.inl rfl
  · exact Or.inl (Browser.put_other hNe _ b)

theorem notify_time (allowed : TabId → Bool) (t : TabId) (b : Browser) :
    (b.notify allowed t).time = b.time ∧ (b.notify allowed t).server = b.server := by
  unfold Browser.notify
  dsimp only
  split <;> exact ⟨rfl, rfl⟩

/-- They get one when both tabs use the channel. -/
theorem notify_posts {t' : TabId} (hNe : t' ≠ t)
    (hOpened : ((b.tabs t).getBroadcastChannel (allowed t)).channel = .opened)
    (hOther : (b.tabs t').channel = .opened) : ((b.notify allowed t).tabs t').inbox ≠ 0 := by
  have hTold : ((b.tabs t).dispatchLocal.getBroadcastChannel (allowed t)).channel = .opened :=
    hOpened
  unfold Browser.notify
  dsimp only
  rw [if_pos hTold, Browser.post_opened hNe ((Browser.put_other hNe _ b).symm ▸ hOther)]
  exact Nat.succ_ne_zero _

theorem browserInv_step (h : Browser.step allowed b action = some b') (hInv : BrowserInv allowed b) :
    BrowserInv allowed b' := by
  cases action with
  | change payload =>
      obtain rfl := Option.some.inj h
      exact ⟨fun t => (hInv.tabs t).later payload⟩
  | notify t =>
      obtain rfl := Option.some.inj h
      obtain ⟨hTime, hServer⟩ := notify_time allowed t b
      refine ⟨fun t' => ?_⟩
      rw [hTime, hServer]
      by_cases hNe : t' = t
      · subst hNe
        rw [notify_self]
        exact (hInv.tabs t').dispatchLocal.getBroadcastChannel
      · rcases @notify_other allowed b _ _ hNe with hSame | hPosted
        · exact hSame ▸ hInv.tabs t'
        · exact hPosted ▸ (hInv.tabs t').inbox _
  | tab t action =>
      obtain ⟨tab, hStep, rfl⟩ := Option.map_eq_some_iff.mp h
      refine ⟨fun t' => ?_⟩
      by_cases hNe : t' = t
      · subst hNe
        rw [Browser.put_self]
        exact tabInv_step (tabStep_of_step hStep) (hInv.tabs t')
      · rw [Browser.put_other hNe]
        exact hInv.tabs t'

theorem browserInv_initial (allowed : TabId → Bool) (payload : Payload) :
    BrowserInv allowed (.initial payload) :=
  ⟨fun t => tabInv_empty (allowed t) 0 fun _ => payload⟩

theorem told_browser_step {since : Nat} {h : HookId} {posted : Bool}
    (hStep : Browser.step allowed b action = some b') (hInv : BrowserInv allowed b)
    (hNow : since ≤ b.time) (hTold : Told since h posted (b.tabs t)) :
    since ≤ b'.time ∧ Told since h posted (b'.tabs t) := by
  cases action with
  | change payload =>
      obtain rfl := Option.some.inj hStep
      exact ⟨Nat.le_succ_of_le hNow, hTold⟩
  | notify t' =>
      obtain rfl := Option.some.inj hStep
      refine ⟨(notify_time allowed t' b).1.symm ▸ hNow, ?_⟩
      by_cases hNe : t = t'
      · subst hNe
        rw [notify_self]
        refine ⟨hTold.given, ?_⟩
        rcases asked_or_unmounted since h (b.tabs t) with hGone | hAsked
        · exact Or.inl hGone
        · exact Or.inr (Or.inr ⟨hAsked.inFlight, hAsked.hooks⟩)
      · rcases @notify_other allowed b _ _ hNe with hSame | hPosted
        · exact hSame ▸ hTold
        · rw [hPosted]
          refine ⟨hTold.given, ?_⟩
          rcases hTold.told with hGone | ⟨hWait, -⟩ | hAsked
          · exact Or.inl hGone
          · exact Or.inr (Or.inl ⟨hWait, Nat.succ_ne_zero _⟩)
          · exact Or.inr (Or.inr ⟨hAsked.inFlight, hAsked.hooks⟩)
  | tab t' action =>
      obtain ⟨tab, hTab, rfl⟩ := Option.map_eq_some_iff.mp hStep
      refine ⟨hNow, ?_⟩
      by_cases hNe : t = t'
      · subst hNe
        rw [Browser.put_self]
        exact told_step (tabStep_of_step hTab) (hInv.tabs t) hNow hTold
      · rw [Browser.put_other hNe]
        exact hTold

/-- A tab is told of a change, by its own announcement or by a message from another tab. -/
theorem told_notify {t' : TabId} {h : HookId} {posted : Bool} (hInv : BrowserInv allowed b)
    (hMounted : ∃ hook ∈ (b.tabs t).hooks, hook.id = h)
    (hHeard : t = t' ∨ (posted = true ∧ allowed t' = true ∧ allowed t = true)) :
    Told b.time h posted ((b.notify allowed t').tabs t) := by
  obtain ⟨hook, hHook, rfl⟩ := hMounted
  have hHooks : (b.tabs t).hooks ≠ [] := List.ne_nil_of_mem hHook
  by_cases hNe : t = t'
  · subst hNe
    rw [notify_self]
    have hAsked : AskedSince b.time (b.tabs t).dispatchLocal := asked_dispatchLocal hHooks
    exact ⟨(hInv.tabs t).fresh hook hHook, Or.inr (Or.inr ⟨hAsked.inFlight, hAsked.hooks⟩)⟩
  · obtain ⟨hPosted, hFrom, hTo⟩ := hHeard.resolve_left hNe
    have hOpened : (b.tabs t).channel = .opened := by
      have hChannel := (hInv.tabs t).channel.resolve_left ((hInv.tabs t).opened hHooks)
      rwa [hTo] at hChannel
    have hSends : ((b.tabs t').getBroadcastChannel (allowed t')).channel = .opened := by
      rw [(hInv.tabs t').channel_opened, hFrom]
      rfl
    refine ⟨?_, Or.inr (Or.inl ⟨hPosted, notify_posts hNe hSends hOpened⟩)⟩
    rcases @notify_other allowed b _ _ hNe with hSame | hMessage
    · exact hSame.symm ▸ (hInv.tabs t).fresh hook hHook
    · exact hMessage.symm ▸ (hInv.tabs t).fresh hook hHook

/-- Tabs announce changes, components come and go, requests are shared, answered and lost in any
order. A component that was mounted when a change was announced, in its tab or in another one
whose messages have arrived, and that has come to rest, is not loading; it shows what the server
had at that time or later, or the fallback and an error. -/
theorem categories_current {payload : Payload} {actions : List Action} {t' : TabId}
    {u v : Browser} {hook : Hook}
    (hRun : run (Browser.step allowed) (.initial payload) actions = some b)
    (hNotify : StepOf (Browser.step allowed) (.initial payload) actions u (.notify t') v)
    (hMounted : ∃ old ∈ (u.tabs t).hooks, old.id = hook.id) (hHook : hook ∈ (b.tabs t).hooks)
    (hRest : hook.stale = false ∧ hook.waiting = none)
    (hHeard : t = t' ∨ (allowed t' = true ∧ allowed t = true ∧ (b.tabs t).inbox = 0)) :
    hook.isLoading = false ∧
      ((hook.categories = DEFAULT_CATEGORY_FALLBACK ∧ hook.error.isSome = true) ∨
        (hook.error = none ∧ ∃ of, u.time ≤ of ∧ of ≤ b.time ∧
          normalizeCategories (b.server of) = some hook.categories)) := by
  have hKeeps : ∀ x action y, Browser.step allowed x action = some y → BrowserInv allowed x →
      BrowserInv allowed y := fun _ _ _ => browserInv_step
  have hEnd : BrowserInv allowed b := invariant hKeeps (browserInv_initial allowed payload) hRun
  obtain ⟨front, back, hActions, hFront, hStep⟩ := id hNotify
  have hBefore : BrowserInv allowed u :=
    invariant hKeeps (browserInv_initial allowed payload) hFront
  -- a message counts when it comes from another tab
  have hTold : Told u.time hook.id (decide (t ≠ t')) (v.tabs t) := by
    obtain rfl := Option.some.inj hStep
    refine told_notify hBefore hMounted ?_
    by_cases hNe : t = t'
    · exact Or.inl hNe
    · obtain ⟨hFrom, hTo, -⟩ := hHeard.resolve_left hNe
      exact Or.inr ⟨decide_eq_true hNe, hFrom, hTo⟩
  have hAfter : BrowserInv allowed v ∧ u.time ≤ v.time ∧
      Told u.time hook.id (decide (t ≠ t')) (v.tabs t) := by
    refine ⟨browserInv_step hStep hBefore, ?_, hTold⟩
    obtain rfl := Option.some.inj hStep
    exact Nat.le_of_eq (notify_time allowed t' u).1.symm
  obtain ⟨-, -, hLast⟩ := hNotify.invariant hRun
    (I := fun x => BrowserInv allowed x ∧ u.time ≤ x.time ∧
      Told u.time hook.id (decide (t ≠ t')) (x.tabs t))
    (fun x action y hxy ⟨hInv, hNow, hToldX⟩ =>
      ⟨browserInv_step hxy hInv, told_browser_step hxy hInv hNow hToldX⟩) hAfter
  have hAsked : AskedSince u.time (b.tabs t) := by
    rcases hLast.told with hGone | ⟨hOther, hInbox⟩ | hAsked
    · exact absurd rfl (hGone hook hHook)
    · exact absurd (hHeard.resolve_left (of_decide_eq_true hOther)).2.2 hInbox
    · exact hAsked
  have hLoaded : hook.isLoading = false := by
    refine Bool.eq_false_iff.mpr fun hLoading => ?_
    rcases (hEnd.tabs t).settles hook hHook hLoading with hStale | hWaiting
    · exact Bool.false_ne_true (hRest.1.symm.trans hStale)
    · rw [hRest.2] at hWaiting
      cases hWaiting
  refine ⟨hLoaded, ?_⟩
  cases (hEnd.tabs t).shows hook hHook with
  | fallback hFallback hCategories hError =>
      refine Or.inl ⟨hCategories, hError.resolve_left fun hLoading => ?_⟩
      exact Bool.false_ne_true (hLoaded.symm.trans hLoading)
  | categories hFallback hError hTime hCategories =>
      refine Or.inr ⟨hError, hook.shownOf, ?_, hTime, hCategories⟩
      rcases hAsked.hooks hook hHook with hStale | ⟨r, q, hWaiting, -⟩ | ⟨-, hShown⟩
      · exact absurd (hRest.1.symm.trans hStale) Bool.false_ne_true
      · cases hRest.2.symm.trans hWaiting
      · exact hShown.resolve_left fun hTrue => Bool.false_ne_true (hFallback.symm.trans hTrue)

/-- Two tabs show categories. The first one asks, a category is renamed and announced before the
answer is used, and in the end both have asked again. -/
private def renamed : Payload := .categories [fallbackCategory 1 "Clips" "videos" "video" "#E11D48"]

private def opening : List Action :=
  [.tab 0 .mount, .tab 1 .mount, .tab 0 (.effect 0 0), .tab 0 (.answer 0), .change renamed]

private def catchingUp : List Action :=
  [.tab 0 (.settle 0), .tab 0 (.resume 0), .tab 0 (.effect 0 1), .tab 1 .deliver,
    .tab 1 (.effect 0 0), .tab 1 (.answer 0), .tab 1 (.settle 0), .tab 1 (.resume 0),
    .tab 0 (.answer 1), .tab 0 (.settle 1), .tab 0 (.resume 0)]

private def browserAfter (actions : List Action) : Browser :=
  (run (Browser.step fun _ => true) (.initial (.categories [])) actions).getD
    (.initial (.categories []))

theorem categories_current_renamed :
    ∃ hook ∈ ((browserAfter (opening ++ .notify 0 :: catchingUp)).tabs 1).hooks,
      hook.isLoading = false ∧ hook.error = none ∧
        normalizeCategories renamed = some hook.categories := by
  have hRun : run (Browser.step fun _ => true) (.initial (.categories []))
      (opening ++ .notify 0 :: catchingUp) =
        some (browserAfter (opening ++ .notify 0 :: catchingUp)) := run_getD (by decide +kernel)
  have hNotify : StepOf (Browser.step fun _ => true) (.initial (.categories []))
      (opening ++ .notify 0 :: catchingUp) (browserAfter opening) (.notify 0)
      ((browserAfter opening).notify (fun _ => true) 0) :=
    ⟨opening, catchingUp, rfl, run_getD (by decide +kernel), rfl⟩
  obtain ⟨hook, hHook, hRest⟩ :
      ∃ hook ∈ ((browserAfter (opening ++ .notify 0 :: catchingUp)).tabs 1).hooks,
        (hook.id = 0 ∧ hook.error = none) ∧ hook.stale = false ∧ hook.waiting = none := by
    decide +kernel
  have hMounted : ∃ old ∈ ((browserAfter opening).tabs 1).hooks, old.id = hook.id := by
    rw [hRest.1.1]
    decide +kernel
  have hInbox : ((browserAfter (opening ++ .notify 0 :: catchingUp)).tabs 1).inbox = 0 := by
    decide +kernel
  obtain ⟨hLoaded, hShown⟩ :=
    categories_current hRun hNotify hMounted hHook hRest.2 (Or.inr ⟨rfl, rfl, hInbox⟩)
  refine ⟨hook, hHook, hLoaded, hRest.1.2, ?_⟩
  rcases hShown with ⟨-, hError⟩ | ⟨-, of, hSince, hUntil, hCategories⟩
  · rw [hRest.1.2] at hError
    cases hError
  · obtain rfl : of = 1 := Nat.le_antisymm
      (Nat.le_trans hUntil (show (browserAfter (opening ++ .notify 0 :: catchingUp)).time ≤ 1 by
        decide +kernel))
      (Nat.le_trans (show 1 ≤ (browserAfter opening).time by decide +kernel) hSince)
    rw [← hCategories]
    exact congrArg normalizeCategories (by decide +kernel)

end Browsers

end SavedOrganizer.Frontend.Categories
