import SavedOrganizer.Service.Persist

/-!
# Finalizing a scan job

`_finalize_scan_job` ends a job and, for a replacement that exhausted its source, deletes
the library messages the job has not marked. What it deletes is stated by `unseen`: the
rows of the user without the job's marker. The Telegram account of a row is not looked at,
although pages are marked per account; `prunesOnlyAccount_iff` says exactly which libraries
that leaves unharmed.
-/

namespace SavedOrganizer

/-- `TERMINAL_SCAN_STATES`: any other state raises `ValueError`. -/
abbrev TerminalState := { state : ScanJobState // state.active = false }

/-- The messages a replacement prunes. -/
def unseen (lease : ScanLease) (m : Message) : Bool :=
  m.userId == lease.userId && m.lastSeenReplacementJobId != some lease.jobId

namespace Database

/-- The two `DELETE`s of a finished replacement. -/
def prune (db : Database) (lease : ScanLease) : Database :=
  let untagged : Database :=
    { db with messageTags := db.messageTags.delete fun t => t.userId == lease.userId &&
        (db.messages.find? t.messageId).any (unseen lease) }
  untagged.deleteMessages (unseen lease)

/-- The markers of the lease's job are removed. -/
def clearJobMarkers (db : Database) (lease : ScanLease) : Database :=
  db.clearMarkers fun m => m.userId == lease.userId &&
    m.lastSeenReplacementJobId == some lease.jobId

end Database

/-- The finalization prunes the library. -/
def prunes (lease : ScanLease) (state : TerminalState)
    (completionReason : Option CompletionReason) : Bool :=
  lease.replaceExisting && state.1 == .completed && completionReason == some .sourceExhausted

/-- `_finalize_scan_job`. -/
def finalizeScanJob (now : Instant) (lease : ScanLease) (state : TerminalState)
    (error : Option String) (completionReason : Option CompletionReason) (db : Database) :
    Database × Bool :=
  if (db.heldJob lease now).isNone then (db, false)
  else
    let ended := db.updateJobs (lease.holds now)
      (ScanJob.finalize now state.1 error completionReason)
    let pruned := if prunes lease state completionReason then ended.prune lease else ended
    (if lease.replaceExisting then pruned.clearJobMarkers lease else pruned, true)

/-! ## What a finalization does to the tables -/

section Tables

variable {now : Instant} {lease : ScanLease} {state : TerminalState} {error : Option String}
  {reason : Option CompletionReason} {db : Database}

theorem finalizeScanJob_lost (h : db.heldJob lease now = none) :
    finalizeScanJob now lease state error reason db = (db, false) := by
  rw [finalizeScanJob, h, Option.isNone_none, if_pos rfl]

theorem finalizeScanJob_jobs (h : db.heldJob lease now ≠ none) :
    (finalizeScanJob now lease state error reason db).1.jobs =
      db.jobs.update (lease.holds now) (ScanJob.finalize now state.1 error reason) := by
  have hHeld : (db.heldJob lease now).isNone = false := by
    simpa [Option.isSome_iff_ne_none] using h
  simp only [finalizeScanJob, hHeld, Bool.false_eq_true, if_false]
  cases lease.replaceExisting <;> cases prunes lease state reason <;> rfl

theorem finalizeScanJob_connections :
    (finalizeScanJob now lease state error reason db).1.connections = db.connections := by
  unfold finalizeScanJob
  split
  · rfl
  · dsimp only
    cases lease.replaceExisting <;> cases prunes lease state reason <;> rfl

/-- A message is deleted when the job prunes and has not marked it. -/
theorem mem_finalizeScanJob (h : db.heldJob lease now ≠ none) {m : Message} :
    m ∈ (finalizeScanJob now lease state error reason db).1.messages ↔
      ∃ r ∈ db.messages, (prunes lease state reason = true → unseen lease r = false) ∧
        m = if lease.replaceExisting && (r.userId == lease.userId &&
          r.lastSeenReplacementJobId == some lease.jobId) then r.unmark else r := by
  have hHeld : (db.heldJob lease now).isNone = false := by
    simpa [Option.isSome_iff_ne_none] using h
  simp only [finalizeScanJob, hHeld, Bool.false_eq_true, if_false]
  cases hReplace : lease.replaceExisting with
  | false =>
      have hPrunes : prunes lease state reason = false := by
        rw [prunes, hReplace, Bool.false_and, Bool.false_and]
      simp only [hPrunes, Bool.false_eq_true, if_false, false_imp_iff, true_and,
        Bool.false_and, exists_eq_right']
      exact Iff.rfl
  | true =>
      simp only [if_true, Bool.true_and]
      unfold Database.clearJobMarkers Database.clearMarkers
      rw [Database.updateMessages_messages, Table.mem_update]
      cases hPrunes : prunes lease state reason with
      | false =>
          simp only [Bool.false_eq_true, if_false, false_imp_iff, true_and, eq_comm]
          exact Iff.rfl
      | true =>
          simp only [if_true, true_imp_iff]
          constructor
          · rintro ⟨r, hr, rfl⟩
            obtain ⟨hMem, hUnseen⟩ := Table.mem_delete.mp hr
            exact ⟨r, hMem, hUnseen, rfl⟩
          · rintro ⟨r, hMem, hUnseen, rfl⟩
            exact ⟨r, Table.mem_delete.mpr ⟨hMem, hUnseen⟩, rfl⟩

/-- A tag goes with the message it is on. -/
theorem mem_finalizeScanJob_tags (h : db.heldJob lease now ≠ none) {t : MessageTag} :
    t ∈ (finalizeScanJob now lease state error reason db).1.messageTags ↔
      t ∈ db.messageTags ∧ (prunes lease state reason = true → t.userId = lease.userId →
        (db.messages.find? t.messageId).any (unseen lease) = false) := by
  have hHeld : (db.heldJob lease now).isNone = false := by
    simpa [Option.isSome_iff_ne_none] using h
  simp only [finalizeScanJob, hHeld, Bool.false_eq_true, if_false]
  cases hPrunes : prunes lease state reason with
  | false =>
      simp only [Bool.false_eq_true, if_false, false_imp_iff, and_true]
      cases lease.replaceExisting <;> exact Iff.rfl
  | true =>
      have hReplace : lease.replaceExisting = true := by
        simp only [prunes, Bool.and_eq_true] at hPrunes
        exact hPrunes.1.1
      simp only [hReplace, if_true, true_imp_iff]
      show t ∈ db.messageTags.delete _ ↔ _
      rw [Table.mem_delete]
      simp only [Bool.and_eq_false_imp, beq_iff_eq]
      exact Iff.rfl

end Tables

/-! ## Which account a replacement prunes -/

/-- From `before` to `after` only messages of the Telegram account were deleted, and the
messages of every other provenance kept their category and tags. -/
def PrunesOnlyAccount (account : TelegramId) (before after : Database) : Prop :=
  (∀ m ∈ before.messages, after.messages.find? m.id = none → m.telegramUserId = some account) ∧
    ∀ m ∈ before.messages, m.telegramUserId ≠ some account →
      ∃ kept ∈ after.messages, kept.id = m.id ∧ kept.categoryId = m.categoryId ∧
        ∀ tag, (⟨m.userId, m.id, tag⟩ : MessageTag) ∈ after.messageTags ↔
          ⟨m.userId, m.id, tag⟩ ∈ before.messageTags

section Prune

variable {now : Instant} {lease : ScanLease} {error : Option String} {db : Database}

/-- The database after a replacement has completed. -/
abbrev afterReplacement (now : Instant) (lease : ScanLease) (error : Option String)
    (db : Database) : Database :=
  (finalizeScanJob now lease ⟨.completed, rfl⟩ error (some .sourceExhausted) db).1

theorem prunes_replacement (hReplace : lease.replaceExisting = true) :
    prunes lease ⟨.completed, rfl⟩ (some .sourceExhausted) = true := by
  rw [prunes, hReplace]
  rfl

/-- A message the job has seen keeps its row, its category and its tags. -/
theorem kept_of_seen (hHeld : db.heldJob lease now ≠ none) {m : Message}
    (hm : m ∈ db.messages) (hSeen : unseen lease m = false) :
    ∃ kept ∈ (afterReplacement now lease error db).messages, kept.id = m.id ∧
      kept.categoryId = m.categoryId ∧
        ∀ tag, (⟨m.userId, m.id, tag⟩ : MessageTag) ∈
            (afterReplacement now lease error db).messageTags ↔
          ⟨m.userId, m.id, tag⟩ ∈ db.messageTags := by
  have hFind : db.messages.find? m.id = some m := Table.find?_key hm
  refine ⟨_, (mem_finalizeScanJob hHeld).mpr ⟨m, hm, fun _ => hSeen, rfl⟩, ?_, ?_, ?_⟩
  · split <;> rfl
  · split <;> rfl
  · intro tag
    rw [mem_finalizeScanJob_tags hHeld]
    simp only [hFind, Option.any_some, hSeen, implies_true, and_true]

/-- A message the job has not seen is gone. -/
theorem find?_of_unseen (hHeld : db.heldJob lease now ≠ none)
    (hReplace : lease.replaceExisting = true) {m : Message} (hm : m ∈ db.messages)
    (hUnseen : unseen lease m = true) :
    (afterReplacement now lease error db).messages.find? m.id = none := by
  rw [Table.find?_eq_none]
  intro r hr hId
  obtain ⟨s, hs, hSeen, rfl⟩ := (mem_finalizeScanJob hHeld).mp hr
  have hSame : s.id = m.id := by
    rw [← show (if lease.replaceExisting && (s.userId == lease.userId &&
      s.lastSeenReplacementJobId == some lease.jobId) then s.unmark else s).id = s.id by
        split <;> rfl]
    exact hId
  obtain rfl : s = m := Table.eq_of_key hs hm hSame
  rw [hSeen (prunes_replacement hReplace)] at hUnseen
  cases hUnseen

/-- A completed replacement prunes only its account exactly when the job has marked every
message of its user that has another provenance. -/
theorem prunesOnlyAccount_iff (hHeld : db.heldJob lease now ≠ none)
    (hReplace : lease.replaceExisting = true) :
    PrunesOnlyAccount lease.telegramUserId db (afterReplacement now lease error db) ↔
      ∀ m ∈ db.messages, m.userId = lease.userId →
        m.telegramUserId ≠ some lease.telegramUserId →
        m.lastSeenReplacementJobId = some lease.jobId := by
  constructor
  · intro h m hm hUser hOther
    by_contra hMarker
    have hUnseen : unseen lease m = true := by
      simp [unseen, hUser, hMarker]
    exact hOther (h.1 m hm (find?_of_unseen hHeld hReplace hm hUnseen))
  · intro h
    have hSeen : ∀ m ∈ db.messages, m.telegramUserId ≠ some lease.telegramUserId →
        unseen lease m = false := by
      intro m hm hOther
      by_cases hUser : m.userId = lease.userId
      · simp [unseen, h m hm hUser hOther]
      · simp [unseen, hUser]
    constructor
    · intro m hm hGone
      by_contra hOther
      obtain ⟨kept, hKept, hId, -⟩ :=
        @kept_of_seen now lease error db hHeld m hm (hSeen m hm hOther)
      exact Table.find?_eq_none.mp hGone kept hKept hId
    · intro m hm hOther
      exact kept_of_seen hHeld hm (hSeen m hm hOther)

end Prune

/-! ### A library with two accounts

User 1 imported a message of account 100, connected account 200 instead and replaces the
library from there: job 7 has scanned and marked the only message of account 200. -/

def secondAccountLease : ScanLease :=
  { jobId := 7, userId := 1, pageSize := 100, telegramUserId := 200, connectionGeneration := 2,
    messagesScanned := 0, lastMessageId := none, maxMessages := 10000,
    maxRuntimeSeconds := 3600, startedAt := 0, owner := 5, replaceExisting := true }

def firstAccountLease : ScanLease :=
  { secondAccountLease with
    telegramUserId := 100, connectionGeneration := 1, replaceExisting := false }

/-- The row of a scanned note. -/
def noteRow (lease : ScanLease) (id : MessageId) (telegramId : TelegramId) : Message :=
  { newMessage lease (scannedMessage 0 telegramId (textMessage "note")) 1 with id := id }

def twoAccountsNotes : Table Message :=
  ⟨[noteRow firstAccountLease 1 41, noteRow secondAccountLease 2 42], by decide⟩

def twoAccountsLibrary : Database :=
  { connections := .empty
    jobs := ⟨[(ScanJob.queued 7 1 true 100 200 2 10000 3600 0).claim 0 5], by decide⟩
    categories := .empty
    messages := twoAccountsNotes
    messageTags := .empty
    nextMessageId := 3
    messageIds_fresh := (by decide : ∀ m ∈ twoAccountsNotes.rows, m.id < 3) }

/-- The replacement deletes the message of account 100. -/
theorem not_prunesOnlyAccount :
    ¬ PrunesOnlyAccount 200 twoAccountsLibrary
      (afterReplacement 0 secondAccountLease none twoAccountsLibrary) := by
  intro h
  have hAccount := h.1 (noteRow firstAccountLease 1 41) List.mem_cons_self (by decide +kernel)
  revert hAccount
  decide

theorem prunesOnlyAccount_iff_twoAccounts :
    PrunesOnlyAccount 200 twoAccountsLibrary
        (afterReplacement 0 secondAccountLease none twoAccountsLibrary) ↔
      ∀ m ∈ twoAccountsLibrary.messages, m.userId = 1 → m.telegramUserId ≠ some 200 →
        m.lastSeenReplacementJobId = some 7 :=
  prunesOnlyAccount_iff (by decide) rfl

end SavedOrganizer
