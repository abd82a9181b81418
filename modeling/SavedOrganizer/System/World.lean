import SavedOrganizer.Scanner.Invariant
import SavedOrganizer.System.MessageChange

/-!
# Workers, Telegram and the store

A `World` is the store, the workers that are processing a job, and what Telegram holds for
each account. A worker runs `process_scan_job`: it has claimed its job, opens the
connection, runs the scan loop, saves the session and disposes of the job
(`WorkerPhase`). At every point it may crash, be cancelled, run into the slice timeout or
into an exception; a worker that finds its lease lost stops without another write, as one
that crashes does. The heartbeat renews the lease at any time.

One step of the world is one transaction of the store, one answer the scan loop waits for,
or a change of a source. `persisted` records, for each job, the Telegram ids of the pages it
has committed; no step looks at it.
-/

namespace SavedOrganizer

open Transition

/-- What `process_scan_job` reads of the progress a slice returns. -/
structure SliceOutcome where
  stopRequested : Bool
  reason : ScanReason
  deriving DecidableEq, Repr

/-- Where `process_scan_job` is. -/
inductive WorkerPhase
  /-- At the start of `_execute_bounded_scan_slice`. -/
  | claimed
  /-- The connection row is read, the client connects. -/
  | connecting
  | scanning (st : ScanState)
  /-- The scan has returned, `_persist_refreshed_session` is next. -/
  | refreshing (outcome : SliceOutcome)
  /-- The slice is over, the job is finalized or requeued next. -/
  | ending (outcome : SliceOutcome)
  /-- In the handler for any other exception. -/
  | failing
  deriving DecidableEq

structure Worker where
  lease : ScanLease
  phase : WorkerPhase
  deriving DecidableEq

/-- What happens next to a worker. -/
inductive WorkerAct
  /-- `_heartbeat_loop`. -/
  | renew
  | openConnection
  /-- The client answers; `timeout` is what is left for the scan, on the event loop's clock. -/
  | connect (identity : ClientIdentity) (clock timeout : Nat)
  /-- An awaited call of the scan loop other than `on_page` answers. -/
  | answer (answer : Answer)
  /-- `persist_page` commits and `on_page` returns. -/
  | deliver (elapsed delay : Nat)
  | finishScan
  | refresh (session : ClientSession) (delay : Nat)
  /-- The disposition of a finished slice. -/
  | settle
  /-- The failure is recorded. -/
  | fail
  /-- An exception. -/
  | raise
  /-- The timeout around the slice, or a `TimeoutError` that reaches it. -/
  | timeout
  /-- `CancelledError`. -/
  | interrupt
  /-- The process dies, or the lease is found lost. -/
  | crash

/-- The result of a worker's step: the store, its next phase unless it is done, and the page
it has persisted. -/
structure Turn where
  store : Store
  next : Option WorkerPhase
  page : Option ScanPage

/-! ## One worker -/

/-- `_remaining_runtime_seconds(..) > 0`. -/
def ScanLease.runtimeLeft (lease : ScanLease) (now : Instant) : Bool :=
  now < lease.startedAt + seconds lease.maxRuntimeSeconds

/-- The arguments `_execute_claimed_scan` calls `scan` with. -/
def ScanLease.scanOptions (lease : ScanLease) (settings : Settings) (timeout : Nat) :
    ScanOptions :=
  { pageSize := lease.pageSize
    startOffsetId := lease.lastMessageId
    maxMessages := some (lease.maxMessages - lease.messagesScanned)
    maxPages := some settings.scanSliceMaxPages
    timeout := some timeout
    mediaCacheMaxBytes := some settings.mediaCacheMaxBytes }

/-- The reasons that complete a job. -/
def ScanReason.completion : ScanReason → Option CompletionReason
  | .sourceExhausted => some .sourceExhausted
  | .messageLimitReached => some .messageLimitReached
  | .runtimeLimitReached => some .runtimeLimitReached
  | _ => none

/-- The transaction that disposes of the job, as `process_scan_job` chooses it. `none` is its
`RuntimeError`. -/
def SliceOutcome.disposition (outcome : SliceOutcome) (runtimeLeft : Bool) : Option WorkerOp :=
  if outcome.stopRequested then
    some (.finalize ⟨.cancelled, ScanJobState.cancelled_ended⟩ none (some .stoppedByUser))
  else match outcome.reason.completion with
    | some reason =>
        some (.finalize ⟨.completed, ScanJobState.completed_ended⟩ none (some reason))
    | none =>
        if !runtimeLeft then
          some (.finalize ⟨.completed, ScanJobState.completed_ended⟩ none
            (some .runtimeLimitReached))
        else if outcome.reason = .stoppedByUser then none
        else some .requeue

/-- The reason of a slice that was cut off. -/
def cutOff (runtimeLeft : Bool) : SliceOutcome :=
  ⟨false, if runtimeLeft then .sliceTimeLimit else .runtimeLimitReached⟩

/-- `SCAN_FAILURE_MESSAGE`. -/
def SCAN_FAILURE_MESSAGE : String := "The scan could not be completed. Please try again."

/-- The awaited call can give this answer: the stop flag and the stored previews are read
from the database, a fetch returns what the source serves. -/
def Answer.fits (src : SavedMessages) (s : Store) (lease : ScanLease) (st : ScanState) :
    Answer → Bool
  | .stop _ requested => scanStopRequested s.now lease s.db = some requested
  | .fetched _ _ rawPage =>
      match st.phase with
      | .fetching _ limit => rawPage = src.iterMessages st.previousOffsetId limit
      | _ => false
  | .loaded _ rows =>
      match st.phase with
      | .loading _ page => rows = loadCachedMedia lease page s.db
      | _ => false
  | .downloading _ => true
  | .delivered _ => false
  | _ =>
      match st.phase with
      | .delivering _ _ => false
      | _ => true

/-- The worker is inside `_execute_bounded_scan_slice`. -/
def WorkerPhase.inSlice : WorkerPhase → Bool
  | claimed | connecting | scanning _ | refreshing _ => true
  | ending _ | failing => false

section Steps

variable (env : Env) (src : SavedMessages) (s : Store) (lease : ScanLease)

/-- A transaction of the worker, and where it goes on. -/
def perform (op : WorkerOp) (next : Option WorkerPhase) : Option Turn :=
  (s.step env (.worker lease op)).map fun s' => ⟨s', next, none⟩

/-- The worker goes on without a transaction. -/
def goOn (next : WorkerPhase) : Option Turn := some ⟨s, some next, none⟩

/-- The worker's next step, when it can take it. -/
def Worker.step : WorkerPhase → WorkerAct → Option Turn
  | phase, .renew => perform env s lease .renew (some phase)
  | .claimed, .openConnection =>
      if !lease.runtimeLeft s.now then goOn s (.ending ⟨false, .runtimeLimitReached⟩)
      else if lease.maxMessages ≤ lease.messagesScanned then
        goOn s (.ending ⟨false, .messageLimitReached⟩)
      else perform env s lease .openConnection
        (some (if (SavedOrganizer.openConnection env.vault lease s.db).2 = .opened
          then .connecting else .failing))
  | .connecting, .connect identity clock timeout =>
      match identity with
      | .unreachable => goOn s .failing
      | .unauthorized => perform env s lease .downgrade (some .failing)
      | .withoutId => perform env s lease .downgrade (some .failing)
      | .id actual =>
          if actual ≠ lease.telegramUserId then perform env s lease .downgrade (some .failing)
          else if !lease.runtimeLeft s.now then goOn s (.ending ⟨false, .runtimeLimitReached⟩)
          else if timeout = 0 then goOn s (.ending ⟨false, .sliceTimeLimit⟩)
          else if (lease.scanOptions env.settings timeout).valid then
            goOn s (.scanning (beginScan (lease.scanOptions env.settings timeout) clock))
          else goOn s .failing
  | .scanning st, .answer answer =>
      if answer.fits src s lease st then
        (resume st answer).bind fun st' => goOn s (.scanning st')
      else none
  | .scanning st, .deliver elapsed delay =>
      match st.phase with
      | .delivering page _ =>
          match persistScanPage env.py s.now (s.now + delay) lease page s.db with
          | .error _ => none
          | .ok _ =>
              (s.step env (.worker lease (.persist page delay))).bind fun s' =>
                (resume st (.delivered elapsed)).map fun st' =>
                  ⟨s', some (.scanning st'), some page⟩
      | _ => none
  | .scanning st, .finishScan =>
      match st.phase with
      | .returned reason => goOn s (.refreshing ⟨st.progress.stopRequested, reason⟩)
      | .raised => goOn s .failing
      | _ => none
  | .refreshing outcome, .refresh session delay =>
      match persistRefreshedSession env.vault s.now (s.now + delay) lease session s.db with
      | .error _ => none
      | .ok _ => perform env s lease (.refreshSession session delay) (some (.ending outcome))
  | .ending outcome, .settle =>
      (outcome.disposition (lease.runtimeLeft s.now)).bind fun op => perform env s lease op none
  | .failing, .fail =>
      perform env s lease (.finalize ⟨.failed, rfl⟩ (some SCAN_FAILURE_MESSAGE) none) none
  | .ending _, .raise => goOn s .failing
  | .ending _, .interrupt => perform env s lease .release none
  | .failing, .interrupt => none
  | _, .interrupt => perform env s lease .release none
  | _, .crash => some ⟨s, none, none⟩
  | phase, .raise => if phase.inSlice then goOn s .failing else none
  | phase, .timeout =>
      if phase.inSlice then goOn s (.ending (cutOff (lease.runtimeLeft s.now))) else none
  | _, _ => none

end Steps

/-! ## The world -/

structure World where
  store : Store
  workers : LeaseOwner → Option Worker
  source : TelegramId → SavedMessages
  persisted : JobId → List TelegramId

inductive WorldAction
  /-- A transaction of an API process, or the passing of time. -/
  | store (a : StoreAction)
  | changeSource (account : TelegramId) (messages : SavedMessages)
  /-- `process_scan_job` starts. -/
  | claim (jobId : JobId)
  | worker (owner : LeaseOwner) (act : WorkerAct)

/-- The step is not a change of Telegram. -/
def WorldAction.keepsSource : WorldAction → Bool
  | .changeSource _ _ => false
  | _ => true

/-- The actions that are not a worker's. -/
def StoreAction.external : StoreAction → Bool
  | .claim _ => false
  | .worker _ _ => false
  | _ => true

namespace World

/-- The world after a worker's turn. -/
def afterTurn (w : World) (worker : Worker) (owner : LeaseOwner) (turn : Turn) : World :=
  { w with
    store := turn.store
    workers := Function.update w.workers owner (turn.next.map (⟨worker.lease, ·⟩))
    persisted :=
      match turn.page with
      | some page => Function.update w.persisted worker.lease.jobId
          (w.persisted worker.lease.jobId ++ page.ids)
      | none => w.persisted }

/-- The world after a claim: a lease that was issued is a new worker's. -/
def afterClaim (w : World) (jobId : JobId) : World :=
  let issued := (claimScanJob w.store.now w.store.nextOwner jobId w.store.db).2
  { w with
    store := w.store.claim jobId
    workers := match issued with
      | some lease => Function.update w.workers w.store.nextOwner (some ⟨lease, .claimed⟩)
      | none => w.workers }

def step (env : Env) (w : World) : WorldAction → Option World
  | .store a =>
      if a.external then (w.store.step env a).map ({ w with store := · }) else none
  | .changeSource account messages =>
      some { w with source := Function.update w.source account messages }
  | .claim jobId => some (w.afterClaim jobId)
  | .worker owner act =>
      (w.workers owner).bind fun worker =>
        (Worker.step env (w.source worker.lease.telegramUserId) w.store worker.lease worker.phase
          act).map (w.afterTurn worker owner)

theorem source_step {env : Env} {w w' : World} {a : WorldAction} (h : w.step env a = some w')
    (hKeeps : a.keepsSource = true) : w'.source = w.source := by
  cases a with
  | store a =>
      simp only [step] at h
      split at h
      · obtain ⟨s', -, rfl⟩ := Option.map_eq_some_iff.mp h
        rfl
      · cases h
  | changeSource account messages => cases hKeeps
  | claim jobId =>
      cases h
      rfl
  | worker owner act =>
      obtain ⟨own, -, h⟩ := Option.bind_eq_some_iff.mp h
      obtain ⟨turn, -, rfl⟩ := Option.map_eq_some_iff.mp h
      rfl

theorem source_of_visits {env : Env} {w u : World} {as : List WorldAction}
    (h : Visits (World.step env) w as u) (hKeep : ∀ a ∈ as, a.keepsSource = true) :
    u.source = w.source := by
  refine visits_induct (I := fun u => u.source = w.source) rfl h ?_
  intro x a y hStep hSame
  exact (source_step hStep.step (hKeep a hStep.mem)).trans hSame

/-- No worker runs and nothing is in progress. -/
structure Initial (w : World) : Prop where
  store : w.store.Initial
  noWorkers : ∀ owner, w.workers owner = none
  nothingPersisted : ∀ jobId, w.persisted jobId = []

end World

/-! ### A world with one connected user

The library of user 1 has the messages 5 and 7 of account 200. -/

/-- The row of a note that an import has added. -/
def importedNote (id : MessageId) (telegramId : TelegramId) : Message :=
  noteRow { secondAccountLease with replaceExisting := false } id telegramId

def demoNotes : Table Message := ⟨[importedNote 1 5, importedNote 2 7], by decide⟩

theorem demoNotes_fresh : ∀ m ∈ demoNotes, m.id < 3 :=
  (by decide : ∀ m ∈ demoNotes.rows, m.id < 3)

def demoLibrary : Database :=
  { demoDatabase with
    messages := demoNotes
    nextMessageId := 3
    messageIds_fresh := demoNotes_fresh }

def demoWorld (src : SavedMessages) : World :=
  ⟨{ demoStore with db := demoLibrary }, fun _ => none, fun _ => src, fun _ => []⟩

theorem demoWorld_initial (src : SavedMessages) : (demoWorld src).Initial := by
  refine ⟨⟨rfl, rfl, rfl, ?_, demoStore_initial.pendingUnbound, ?_⟩, fun _ => rfl, fun _ => rfl⟩
  · intro job hJob
    cases hJob
  · unfold Database.SourcesUnique
    show ∀ m ∈ demoNotes.rows, ∀ m' ∈ demoNotes.rows, _
    decide

/-- User 1 replaces the library, with pages of two messages. -/
def startReplacement : WorldAction := .store (.startScan ⟨1, 2, true⟩ 1 (.id 200) ⟨0, "session"⟩)

/-- A worker that has claimed its job begins to scan. -/
def beginSlice (owner : LeaseOwner) : List WorldAction :=
  [.worker owner .openConnection, .worker owner (.connect (.id 200) 0 (seconds 30))]

/-- The scan readies the next page; its messages have no previews. -/
def readyPage (owner : LeaseOwner) (src : SavedMessages) (offset : TelegramId) (limit : Nat) :
    List WorldAction :=
  [.worker owner (.answer (.stop 0 false)),
    .worker owner (.answer (.fetched 0 0 (src.iterMessages offset limit))),
    .worker owner (.answer (.loaded 0 [])),
    .worker owner (.answer (.downloading fun _ _ => .never))]

/-- The worker of a scan that has returned disposes of the job. -/
def endSlice (owner : LeaseOwner) : List WorldAction :=
  [.worker owner .finishScan, .worker owner (.refresh ⟨0, "session"⟩ 0), .worker owner .settle]

end SavedOrganizer
