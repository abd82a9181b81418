import SavedOrganizer.Tenants.Messages

/-!
# The deletions are isolated

A deletion may call the client, which may invalidate the authorization of the user: then the
connection, the jobs and the markers of the user change too. What the call does is decided by
the row of the user's connection alone (`deleteTelegramMessages_decides`).
-/

namespace SavedOrganizer

open Organizer

/-! ## The rows -/

section Rows

variable {userId : UserId} {db db' : Database}

/-- The messages of a deletion and their assignments. -/
theorem Database.AgreeFor.dropMessages (h : AgreeFor userId db db') (p : Message → Bool) :
    AgreeFor userId (LibraryEdit.dropMessages db p) (LibraryEdit.dropMessages db' p) := by
  refine { h with
    messages := h.messages.delete fun _ _ => rfl
    messageTags := h.messageTags.delete fun a ha => ?_ }
  refine h.messages.find?_any (fun m hm => ?_) a.messageId
  rw [Bool.and_eq_true, beq_iff_eq] at hm
  exact hm.1.trans ha

theorem keepsTo_dropMessages {p : Message → Bool}
    (hp : ∀ m ∈ db.messages, p m = true → m.userId = userId) :
    Database.KeepsTo userId db (LibraryEdit.dropMessages db p) := by
  refine { Database.KeepsTo.refl db with
    messages := Table.sameForOthers_delete hp
    messageTags := Table.sameForOthers_delete fun a _ ha => ?_ }
  obtain ⟨m, hm, hOwn⟩ := (Option.any_eq_true _ _).mp ha
  rw [Bool.and_eq_true, beq_iff_eq] at hOwn
  exact hOwn.1.symm.trans (hp m (Table.mem_of_find? hm) hOwn.2)

/-- The rows an invalidation of the user's authorization changes. -/
theorem Database.AgreeFor.invalidate (h : AgreeFor userId db db') (now : Instant) :
    AgreeFor userId (invalidateAuthorization now userId db)
      (invalidateAuthorization now userId db') := by
  refine { h with connections := ?_, jobs := ?_, messages := ?_ }
  · exact @Table.AgreeFor.update _ _ _ _ _ _ _ _ _ _ (TelegramConnection.invalidate .disconnected)
      h.connections (fun _ => rfl) (fun _ => rfl) fun _ _ => rfl
  · exact @Table.AgreeFor.update _ _ _ _ _ _ _ _ _ _ (ScanJob.cancelDisconnected now)
      h.jobs (fun _ => rfl) (fun _ => rfl) fun _ _ => rfl
  · refine @Table.AgreeFor.update _ _ _ _ _ _ _ _ _ _ Message.unmark h.messages
      (fun _ => rfl) (fun _ => rfl) fun m hm => ?_
    have hMarked : db.markedBy (·.activeOf userId) m = db'.markedBy (·.activeOf userId) m := by
      unfold Database.markedBy
      congr 1
      funext id
      refine h.jobs.find?_any (fun job hJob => ?_) id
      exact beq_iff_eq.mp (Bool.and_eq_true_iff.mp hJob).1
    rw [hMarked]

theorem keepsTo_invalidate (now : Instant) :
    Database.KeepsTo userId db (invalidateAuthorization now userId db) := by
  refine { Database.KeepsTo.refl db with connections := ?_, jobs := ?_, messages := ?_ }
  · exact @Table.sameForOthers_update _ _ _ _ _ _ _ _ (TelegramConnection.invalidate .disconnected)
      (fun _ => rfl) (fun c _ hc => beq_iff_eq.mp hc) fun _ => rfl
  · exact @Table.sameForOthers_update _ _ _ _ _ _ _ _ (ScanJob.cancelDisconnected now)
      (fun _ => rfl) (fun job _ hJob => beq_iff_eq.mp (Bool.and_eq_true_iff.mp hJob).1) fun _ => rfl
  · exact @Table.sameForOthers_update _ _ _ _ _ _ _ _ Message.unmark
      (fun _ => rfl) (fun m _ hm => beq_iff_eq.mp (Bool.and_eq_true_iff.mp hm).1) fun _ => rfl

end Rows

/-! ## The call of the client -/

/-- How the call ends, its rows aside. -/
inductive RemoteOutcome
  | refused (error : MessageError)
  | invalidated (error : MessageError)
  /-- Without a session there was nothing to delete. -/
  | deleted (session : Option Secret)

/-- The connection with the session the client has saved. -/
def saveSession (userId : UserId) (db : Database) : Option Secret → Database
  | none => db
  | some session => db.updateConnection userId
      (fun row => { row with sessionEncrypted := some session })
      (TelegramConnection.keepSession_userId session)

section Session

variable {userId : UserId} {db db' : Database}

theorem Database.AgreeFor.saveSession (h : AgreeFor userId db db') (session : Option Secret) :
    AgreeFor userId (saveSession userId db session) (saveSession userId db' session) := by
  cases session with
  | none => exact h
  | some session =>
      refine { h with connections := ?_ }
      exact @Table.AgreeFor.update _ _ _ _ _ _ _ _ _ _
        (fun row : TelegramConnection => { row with sessionEncrypted := some session })
        h.connections (fun _ => rfl) (fun _ => rfl) fun _ _ => rfl

theorem keepsTo_saveSession (session : Option Secret) :
    Database.KeepsTo userId db (SavedOrganizer.saveSession userId db session) := by
  cases session with
  | none => exact .refl db
  | some session =>
      refine { Database.KeepsTo.refl db with connections := ?_ }
      exact @Table.sameForOthers_update _ _ _ _ _ _ _ _
        (fun row : TelegramConnection => { row with sessionEncrypted := some session })
        (fun _ => rfl) (fun c _ hc => beq_iff_eq.mp hc) fun _ => rfl

end Session

def RemoteOutcome.result (now : Instant) (userId : UserId) (db : Database) :
    RemoteOutcome → Except (MessageError × Database) Database
  | refused error => .error (error, db)
  | invalidated error => .error (error, invalidateAuthorization now userId db)
  | deleted session => .ok (saveSession userId db session)

/-- The call ends in the same way for both. -/
inductive SameEnd (now : Instant) (userId : UserId) (db db' : Database) :
    RemoteDeletion → RemoteDeletion → Prop
  | intro (passed : List (List TelegramId)) (outcome : RemoteOutcome) :
      SameEnd now userId db db' ⟨passed, outcome.result now userId db⟩
        ⟨passed, outcome.result now userId db'⟩

section Client

variable (client : DeletionClient) (vault : Vault) (now : Instant) {userId : UserId}
  {db db' : Database}

theorem deleteSavedMessages_sameEnd (h : db.connections.find? userId = db'.connections.find? userId)
    (telegramUserId : TelegramId) (generation : Nat) (ids : List TelegramId) :
    SameEnd now userId db db'
      (client.deleteSavedMessages vault now userId telegramUserId generation ids db)
      (client.deleteSavedMessages vault now userId telegramUserId generation ids db') := by
  have hRefused (passed : List (List TelegramId)) (error : MessageError) :
      SameEnd now userId db db' ⟨passed, .error (error, db)⟩ ⟨passed, .error (error, db')⟩ :=
    .intro passed (.refused error)
  have hInvalidated (error : MessageError) : SameEnd now userId db db'
      ⟨[], .error (error, invalidateAuthorization now userId db)⟩
      ⟨[], .error (error, invalidateAuthorization now userId db')⟩ :=
    .intro [] (.invalidated error)
  unfold DeletionClient.deleteSavedMessages
  dsimp only
  rw [h]
  by_cases hEmpty : ids.eraseDups.isEmpty = true
  · rw [if_pos hEmpty, if_pos hEmpty]
    exact .intro [] (.deleted none)
  rw [if_neg hEmpty, if_neg hEmpty]
  cases (db'.connections.find? userId).filter fun c =>
      c.telegramUserId == some telegramUserId && c.generation == generation with
  | none => exact hRefused _ _
  | some c =>
      dsimp only
      by_cases hUnusable : (c.state != .connected || !truthy c.sessionEncrypted) = true
      · rw [if_pos hUnusable, if_pos hUnusable]
        exact hRefused _ _
      rw [if_neg hUnusable, if_neg hUnusable]
      by_cases hSealed : (!vault.opens c) = true
      · rw [if_pos hSealed, if_pos hSealed]
        exact hInvalidated _
      rw [if_neg hSealed, if_neg hSealed]
      cases client.connect with
      | error failure => exact hRefused _ _
      | ok _ => cases client.isUserAuthorized with
        | error failure => exact hRefused _ _
        | ok authorized => cases authorized with
          | false => exact hInvalidated _
          | true => cases client.identity with
            | error failure => exact hRefused _ _
            | ok identity =>
                dsimp only
                by_cases hOther : (identity != some telegramUserId) = true
                · rw [if_pos hOther, if_pos hOther]
                  exact hInvalidated _
                rw [if_neg hOther, if_neg hOther]
                cases client.deleteMessages with
                | error failure => exact hRefused _ _
                | ok _ => cases client.savedSession with
                  | error failure => exact hRefused _ _
                  | ok session =>
                      exact .intro _ (.deleted (some (vault.sealSession userId session)))

theorem deleteTelegramMessages_sameEnd
    (h : db.connections.find? userId = db'.connections.find? userId) (messages : List Message) :
    SameEnd now userId db db' (client.deleteTelegramMessages vault now userId messages db)
      (client.deleteTelegramMessages vault now userId messages db') := by
  unfold DeletionClient.deleteTelegramMessages
  cases DeletionClient.provenance messages with
  | error error => exact .intro [] (.refused error)
  | ok source => exact deleteSavedMessages_sameEnd client vault now h _ _ _

end Client

/-! ## The two requests -/

/-- Two answers to a deletion, from databases that agree for the user. -/
structure SameResponse (userId : UserId) (db : Database) (r r' : DeletionResponse) : Prop where
  passed : r.passed = r'.passed
  result : r.result = r'.result
  rows : r.db.AgreeFor userId r'.db
  keeps : db.KeepsTo userId r.db
  categories : r.db.categories = db.categories

section Requests

variable (client : DeletionClient) (vault : Vault) (now : Instant) {userId : UserId}
  {db db' : Database} (localOnly : Bool)

/-- The rows after the call of the client. -/
theorem outcome_sameResponse (h : db.AgreeFor userId db') (passed : List (List TelegramId))
    (outcome : RemoteOutcome) {messages : List Message}
    (hLoaded : ∀ m ∈ messages, m ∈ db.messages ∧ m.userId = userId) : SameResponse userId db
      (match outcome.result now userId db with
        | .error (error, db) => ⟨passed, .error error, db⟩
        | .ok db => ⟨passed, .ok messages.length, MessageService.deleteRows messages db⟩)
      (match outcome.result now userId db' with
        | .error (error, db) => ⟨passed, .error error, db⟩
        | .ok db => ⟨passed, .ok messages.length, MessageService.deleteRows messages db⟩) := by
  cases outcome with
  | refused error => exact ⟨rfl, rfl, h, .refl db, rfl⟩
  | invalidated error => exact ⟨rfl, rfl, h.invalidate now, keepsTo_invalidate now, rfl⟩
  | deleted session =>
      refine ⟨rfl, rfl, (h.saveSession session).dropMessages _, ?_, ?_⟩
      · refine (keepsTo_saveSession session).trans (keepsTo_dropMessages fun m hm hAny => ?_)
        have hMem : m ∈ db.messages := by
          cases session <;> exact hm
        exact owner_of_loaded hLoaded m hMem hAny
      · cases session <;> rfl

theorem deleteLoaded_sameResponse (h : db.AgreeFor userId db') {messages : List Message}
    (hLoaded : ∀ m ∈ messages, m ∈ db.messages ∧ m.userId = userId) : SameResponse userId db
      (MessageService.deleteLoaded client vault now userId localOnly messages db)
      (MessageService.deleteLoaded client vault now userId localOnly messages db') := by
  unfold MessageService.deleteLoaded
  cases localOnly with
  | true => exact outcome_sameResponse now h [] (.deleted none) hLoaded
  | false =>
      have hConnection : db.connections.find? userId = db'.connections.find? userId :=
        h.connections.find? fun c hc => hc
      have hEnd := deleteTelegramMessages_sameEnd client vault now hConnection messages
      generalize client.deleteTelegramMessages vault now userId messages db = remote at hEnd ⊢
      generalize client.deleteTelegramMessages vault now userId messages db' = remote' at hEnd ⊢
      obtain ⟨passed, outcome⟩ := hEnd
      exact outcome_sameResponse now h passed outcome hLoaded

theorem deletion_sameResponse {s s' : Organizer} (h : Organizer.AgreeFor userId s s')
    (request : DeletionRequest) : SameResponse userId s.db
      (request.run client vault now userId localOnly s.db)
      (request.run client vault now userId localOnly s'.db) := by
  cases request with
  | message id =>
      simp only [DeletionRequest.run, MessageService.deleteMessage]
      rw [← getMessage_congr h]
      cases hLoaded : MessageService.getMessage userId s.db id with
      | error error => exact ⟨rfl, rfl, h.toAgreeFor, .refl s.db, rfl⟩
      | ok message =>
          refine deleteLoaded_sameResponse client vault now localOnly h.toAgreeFor fun m hm => ?_
          obtain ⟨hMem, hOwner, -⟩ := (getMessage_eq_ok hLoaded m).mp hm
          exact ⟨hMem, hOwner⟩
  | messages ids =>
      simp only [DeletionRequest.run, MessageService.bulkDeleteMessages]
      have hLoad : (MessageService.normalizeMessageIds ids).bind
            (MessageService.loadMessagesByIds userId s.db) =
          (MessageService.normalizeMessageIds ids).bind
            (MessageService.loadMessagesByIds userId s'.db) := by
        rw [funext (loadMessagesByIds_congr h)]
      rw [← hLoad]
      cases hNormalized : MessageService.normalizeMessageIds ids with
      | error error => exact ⟨rfl, rfl, h.toAgreeFor, .refl s.db, rfl⟩
      | ok normalized =>
          dsimp only [Except.bind]
          cases hLoaded : MessageService.loadMessagesByIds userId s.db normalized with
          | error error => exact ⟨rfl, rfl, h.toAgreeFor, .refl s.db, rfl⟩
          | ok messages =>
              refine deleteLoaded_sameResponse client vault now localOnly h.toAgreeFor
                fun m hm => ?_
              obtain ⟨hMem, hOwner, -⟩ := (mem_loadMessagesByIds hLoaded m).mp hm
              exact ⟨hMem, hOwner⟩

end Requests

/-- A deletion as a request: the answer is what the client was asked to delete and the
result. -/
def DeletionRequest.respond (client : DeletionClient) (vault : Vault) (now : Instant)
    (userId : UserId) (localOnly : Bool) (request : DeletionRequest) (s : Organizer) :
    (List (List TelegramId) × Except MessageError Nat) × Organizer :=
  let response := request.run client vault now userId localOnly s.db
  ((response.passed, response.result), s.withDatabase response.db
    (deletion_sameResponse client vault now localOnly (.refl s) request).categories)

theorem deletion_isolated (client : DeletionClient) (vault : Vault) (now : Instant)
    (userId : UserId) (localOnly : Bool) (request : DeletionRequest) :
    Isolated userId (request.respond client vault now userId localOnly) where
  answer := by
    intro s s' _ h
    have hSame := deletion_sameResponse client vault now localOnly h request
    exact Prod.ext hSame.passed hSame.result
  rows := by
    intro s s' _ h
    exact ⟨(deletion_sameResponse client vault now localOnly h request).rows, h.tags⟩
  keeps := by
    intro s
    exact ⟨(deletion_sameResponse client vault now localOnly (.refl s) request).keeps,
      Table.sameForOthers_refl⟩

end SavedOrganizer
