import SavedOrganizer.System.Markers

/-!
# Workers, Telegram and the statements

The calls of `Service.MarkerStatements` together with those that make them. A worker runs
`process_scan_job` as in `System.World`; where that takes a transaction as one step, it now
begins a call (`ScanTurn.call`), waits for it statement by statement, and goes on when it has
committed. A call that returns without a commit has failed for it; if that was because the lease
is lost, the worker stops, which it may do at any point (`crash`). An interruption of a worker
that waits rolls its transaction back.

Renewals, the requests of users and the end of expired stops are calls that nobody here waits
for. A renewal may be made with any lease that was issued. `openConnection` and the refresh of
the session write the connection only; they may fail or not, whatever the row says, and
`setConnection` is any write of it. An edit of the user is the change that its commit makes
visible.

The columns and tags by which a user files a message (`Organization`) are written by an `INSERT`
and by edits; the other statements of a scan leave them out. An `INSERT` of a message that its
transaction sees already is refused by the unique key.
-/

namespace SavedOrganizer

/-- The category and the tags of a message. -/
structure Organization where
  categoryId : CategoryId
  tagIds : List TagId
  deriving DecidableEq, Repr

/-- A worker, and the transaction it waits for with the phase it goes on in (`none`: it is
done). -/
structure ScanWorker where
  lease : ScanLease
  phase : WorkerPhase
  awaits : Option (TransactionId × Option WorkerPhase)
  deriving DecidableEq

structure StatementWorld where
  markers : MarkerWorld
  organization : MessageKey → Organization
  workers : LeaseOwner → Option ScanWorker
  nextOwner : LeaseOwner
  source : TelegramId → SavedMessages

/-! ## A worker's turn -/

/-- What happens next to a worker, with the transaction of a call it begins. -/
inductive ScanAct
  | openConnection (opened : Bool)
  /-- The client answers; `timeout` is what is left for the scan, on the event loop's clock. -/
  | connect (t : TransactionId) (identity : ClientIdentity) (clock timeout : Nat)
  /-- An awaited call of the scan loop other than `on_page` answers. -/
  | answer (answer : Answer)
  /-- `persist_page`; `on_page` takes this long. -/
  | deliver (t : TransactionId) (elapsed : Nat)
  | finishScan
  | refresh (saved : Bool)
  | settle (t : TransactionId)
  | fail (t : TransactionId)
  | raise
  | timeout
  | interrupt (t : TransactionId)
  | crash

/-- It may come while the worker waits for a call. -/
def ScanAct.cuts : ScanAct → Bool
  | raise | timeout | interrupt _ | crash => true
  | _ => false

inductive ScanTurn
  | goOn (phase : WorkerPhase)
  /-- The worker waits for a call, and goes on in `next` when it has committed. -/
  | call (t : TransactionId) (call : MarkerCall) (next : Option WorkerPhase)
  | done

/-- The awaited call of the scan loop can give this answer. What is stored of previews is left
open. -/
def Answer.served (src : SavedMessages) (stop : Option Bool) (st : ScanState) : Answer → Bool
  | .stop _ requested => stop == some requested
  | .fetched _ _ rawPage =>
      match st.phase with
      | .fetching _ limit => rawPage = src.iterMessages st.previousOffsetId limit
      | _ => false
  | .delivered _ => false
  | .raisesTimeout _ | .raises _ =>
      match st.phase with
      | .delivering _ _ => false
      | _ => true
  | _ => true

/-- The call that disposes of the job. -/
def WorkerOp.call (lease : ScanLease) : WorkerOp → Option MarkerCall
  | .requeue => some (.requeue lease)
  | .finalize state error reason => some (.finalize lease state error reason)
  | _ => none

theorem failed_ended : ScanJobState.failed.active = false := rfl

section Turns

variable (settings : Settings) (src : SavedMessages) (now : Instant) (stop : Option Bool)
  (lease : ScanLease)

/-- The worker's next turn, when it can take it. -/
def ScanWorker.turn : WorkerPhase → ScanAct → Option ScanTurn
  | .claimed, .openConnection opened =>
      if !lease.runtimeLeft now then some (.goOn (.ending ⟨false, .runtimeLimitReached⟩))
      else if lease.maxMessages ≤ lease.messagesScanned then
        some (.goOn (.ending ⟨false, .messageLimitReached⟩))
      else some (.goOn (if opened then .connecting else .failing))
  | .connecting, .connect t identity clock timeout =>
      match identity with
      | .unreachable => some (.goOn .failing)
      | .unauthorized => some (.call t (.downgrade lease) (some .failing))
      | .withoutId => some (.call t (.downgrade lease) (some .failing))
      | .id actual =>
          if actual ≠ lease.telegramUserId then some (.call t (.downgrade lease) (some .failing))
          else if !lease.runtimeLeft now then some (.goOn (.ending ⟨false, .runtimeLimitReached⟩))
          else if timeout = 0 then some (.goOn (.ending ⟨false, .sliceTimeLimit⟩))
          else if (lease.scanOptions settings timeout).valid then
            some (.goOn (.scanning (beginScan (lease.scanOptions settings timeout) clock)))
          else some (.goOn .failing)
  | .scanning st, .answer answer =>
      if answer.served src stop st then (resume st answer).map fun st' => .goOn (.scanning st')
      else none
  | .scanning st, .deliver t elapsed =>
      match st.phase with
      | .delivering page _ => (resume st (.delivered elapsed)).map fun st' =>
          .call t (.persistPage lease page) (some (.scanning st'))
      | _ => none
  | .scanning st, .finishScan =>
      match st.phase with
      | .returned reason => some (.goOn (.refreshing ⟨st.progress.stopRequested, reason⟩))
      | .raised => some (.goOn .failing)
      | _ => none
  | .refreshing outcome, .refresh saved => some (.goOn (if saved then .ending outcome else .failing))
  | .ending outcome, .settle t => (outcome.disposition (lease.runtimeLeft now)).bind fun op =>
      (op.call lease).map fun call => .call t call none
  | .failing, .fail t => some (.call t
      (.finalize lease ⟨.failed, failed_ended⟩ (some SCAN_FAILURE_MESSAGE) none) none)
  | .ending _, .raise => some (.goOn .failing)
  | .failing, .interrupt _ => none
  | _, .interrupt t => some (.call t (.release lease) none)
  | _, .crash => some .done
  | phase, .raise => if phase.inSlice then some (.goOn .failing) else none
  | phase, .timeout =>
      if phase.inSlice then some (.goOn (.ending (cutOff (lease.runtimeLeft now)))) else none
  | _, _ => none

end Turns

/-! ## What a call tells its worker -/

/-- How a call stands after a step. -/
inductive CallResult
  | pending
  | committed
  | gaveUp

/-- After the step of a worker's call from the first point to the second. -/
def CallResult.of : MarkerPhase → MarkerPhase → CallResult
  | .committing none, _ => committed
  | _, .returned => gaveUp
  | _, _ => pending

/-- The worker after a step of the transaction `t`. -/
def ScanWorker.hears (t : TransactionId) (result : CallResult) (worker : ScanWorker) :
    Option ScanWorker :=
  match worker.awaits with
  | none => some worker
  | some (t', next) =>
      if t' ≠ t then some worker
      else match result with
        | .pending => some worker
        | .committed => next.map fun phase => ⟨worker.lease, phase, none⟩
        | .gaveUp => some ⟨worker.lease, .failing, none⟩

/-! ## The world -/

/-- What a request of another session does to the rows of messages. -/
structure MessageEdit where
  deletes : MessageKey → Bool
  organizes : MessageKey → Organization → Organization

inductive StatementAction
  | tick (elapsed : Nat)
  | changeSource (account : TelegramId) (messages : SavedMessages)
  /-- A call that no worker waits for. -/
  | begin (t : TransactionId) (call : MarkerCall)
  /-- `process_scan_job` starts. -/
  | claim (t : TransactionId) (jobId : JobId)
  /-- A call takes its next statement. -/
  | advance (t : TransactionId)
  /-- An exception in a call, or the end of its process. -/
  | raise (t : TransactionId)
  | worker (owner : LeaseOwner) (act : ScanAct)
  | edit (t : TransactionId) (edit : MessageEdit)
  | setConnection (t : TransactionId) (userId : UserId) (c : TelegramConnection)

/-- The calls that no worker waits for. -/
def MarkerCall.unawaited : MarkerCall → Bool
  | start _ | stop _ | renew _ | disconnect _ | terminalizeExpired => true
  | _ => false

/-- The lease a claim returns at this point. -/
def MarkerWorld.issues (w : MarkerWorld) (t : TransactionId) : Option ScanLease :=
  match w.calls t with
  | .claimReading begun jobId owner =>
      (((w.store.jobs.row jobId).view t).filter (·.leaseOwner == some owner)).bind
        (readLease begun owner)
  | _ => none

/-- The columns of `uq_messages_user_id_telegram_user_id_telegram_id`. -/
def MessageKey.source (key : MessageKey) : UserId × TelegramId × TelegramId :=
  (key.userId, key.telegramUserId, key.telegramId)

/-- The row a page adds at this point. -/
def MarkerWorld.adds (w : MarkerWorld) (t : TransactionId) : Option MessageKey :=
  match w.calls t with
  | .persistWriting lease _ (.add telegramId :: _) =>
      some ⟨w.store.nextMessageId, lease.userId, lease.telegramUserId, telegramId⟩
  | _ => none

/-- The unique key refuses that row. -/
def MarkerWorld.refuses (w : MarkerWorld) (t : TransactionId) : Bool :=
  (w.adds t).any fun key =>
    !(w.store.messages.select t fun key' _ => key'.source == key.source).isEmpty

namespace StatementWorld

/-- `_scan_stop_requested`: `none` when the lease is lost. -/
def stopRequested (w : StatementWorld) (lease : ScanLease) : Option Bool :=
  ((w.markers.store.jobs.row lease.jobId).committed.filter fun job =>
    lease.names job && job.leaseExpiresAt.any (w.markers.now < ·)).map ScanJob.stopRequested

variable (vault : Vault) (settings : Settings) (filedUnder : MessageKey → CategoryId)

/-- The transaction a worker waits for is rolled back. -/
def abandon (w : StatementWorld) (worker : ScanWorker) : StatementWorld :=
  match worker.awaits with
  | none => w
  | some (t, _) =>
      { w with markers := { w.markers with
          store := w.markers.store.rollback t
          calls := Function.update w.markers.calls t .returned } }

/-- The world after a worker's turn. -/
def take (w : StatementWorld) (owner : LeaseOwner) (lease : ScanLease) :
    ScanTurn → WorkerPhase → Option StatementWorld
  | .goOn phase, _ =>
      some { w with workers := Function.update w.workers owner (some ⟨lease, phase, none⟩) }
  | .call t call next, phase => (w.markers.step vault settings (.begin t call)).map fun markers =>
      { w with
        markers := markers
        workers := Function.update w.workers owner (some ⟨lease, phase, some (t, next)⟩) }
  | .done, _ => some { w with workers := Function.update w.workers owner none }

/-- The workers after a step of the transaction `t`: its worker hears of it, and a lease that was
issued is a new worker's. -/
def informed (w : StatementWorld) (t : TransactionId) (phase' : MarkerPhase) (owner : LeaseOwner) :
    Option ScanWorker :=
  match w.markers.issues t with
  | some lease => if owner = lease.owner then some ⟨lease, .claimed, none⟩
      else (w.workers owner).bind (·.hears t (.of (w.markers.calls t) phase'))
  | none => (w.workers owner).bind (·.hears t (.of (w.markers.calls t) phase'))

/-- A row that a page has added is filed, and has no tags. -/
def filed (w : StatementWorld) (t : TransactionId) : MarkerPhase → MessageKey → Organization
  | .persistWriting _ _ _ => match w.markers.adds t with
      | some key => Function.update w.organization key ⟨filedUnder key, []⟩
      | none => w.organization
  | _ => w.organization

/-- A call raises, and its worker hears of it. -/
def raised (w : StatementWorld) (t : TransactionId) : Option StatementWorld :=
  (w.markers.step vault settings (.raise t)).map fun markers =>
    { w with
      markers := markers
      workers := fun owner => (w.workers owner).bind (·.hears t .gaveUp) }

def step (w : StatementWorld) : StatementAction → Option StatementWorld
  | .tick elapsed => some { w with markers := { w.markers with now := w.markers.now + elapsed } }
  | .changeSource account messages =>
      some { w with source := Function.update w.source account messages }
  | .begin t call =>
      if call.unawaited then
        (w.markers.step vault settings (.begin t call)).map ({ w with markers := · })
      else none
  | .claim t jobId =>
      (w.markers.step vault settings (.begin t (.claim jobId w.nextOwner))).map fun markers =>
        { w with markers := markers, nextOwner := w.nextOwner + 1 }
  | .advance t =>
      if w.markers.refuses t then w.raised vault settings t
      else (w.markers.step vault settings (.advance t)).map fun markers =>
        { w with
          markers := markers
          organization := w.filed filedUnder t (markers.calls t)
          workers := w.informed t (markers.calls t) }
  | .raise t => w.raised vault settings t
  | .worker owner act =>
      (w.workers owner).bind fun worker =>
        if worker.awaits.isNone || act.cuts then
          (ScanWorker.turn settings (w.source worker.lease.telegramUserId) w.markers.now
            (w.stopRequested worker.lease) worker.lease worker.phase act).bind fun turn =>
              (w.abandon worker).take vault settings owner worker.lease turn worker.phase
        else none
  | .edit t edit =>
      match w.markers.calls t with
      | .idle => (w.markers.store.messages.delete t fun key _ => edit.deletes key).map fun messages =>
          let store : MarkerStore := { w.markers.store with messages := messages }
          { w with
            markers := { w.markers with store := store.commit t }
            organization := fun key => edit.organizes key (w.organization key) }
      | _ => none
  | .setConnection t userId c =>
      match w.markers.calls t with
      | .idle => (w.markers.store.updateConnections t (fun k _ => k == userId) fun _ => c).map
          fun store => { w with markers := { w.markers with store := store.commit t } }
      | _ => none

/-- Nothing has been called, no worker runs, and no job is active. -/
structure Initial (w : StatementWorld) : Prop where
  idle : ∀ t, w.markers.calls t = .idle
  unlocked : ∀ t, (w.markers.store.seenBy t).Unlocked
  jobId : ∀ id job, (w.markers.store.jobs.row id).committed = some job →
    job.id = id ∧ job.state.active = false
  marked : ∀ key id, (w.markers.store.messages.row key).committed = some (some id) →
    (w.markers.store.jobs.row id).committed ≠ none
  sourcesUnique : ∀ key key', (w.markers.store.messages.row key).committed ≠ none →
    (w.markers.store.messages.row key').committed ≠ none → key.source = key'.source → key = key'
  noWorkers : ∀ owner, w.workers owner = none

end StatementWorld

end SavedOrganizer
