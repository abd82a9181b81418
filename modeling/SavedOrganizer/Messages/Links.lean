import SavedOrganizer.Messages.Edits
import SavedOrganizer.Messages.Kinds
import SavedOrganizer.Messages.Service
import SavedOrganizer.System.StalePreview

/-!
# The link of a message

`url` is derived from `content` when a message is scanned, and a scan writes both columns.
`update_message` writes `content` alone. So the column follows the text in a run of scans and
edits exactly when every edit assigns a text with the link that is stored (`links_follow_iff`).
-/

namespace SavedOrganizer

open Python Transition

/-- The link of a row is the link of its text. -/
def Message.Linked (m : Message) : Prop := m.url = extractUrl m.content

def Organizer.Linked (s : Organizer) : Prop := ∀ m ∈ s.db.messages, m.Linked

def ScannedMessage.Linked (m : ScannedMessage) : Prop := m.url = extractUrl m.content

/-! ## Scans and edits -/

/-- One round of the scan loop: what Telegram answers, and when and under which lease it is
persisted. -/
structure ScanRound where
  lease : ScanLease
  readAt : Instant
  now : Instant
  fenceNow : Instant
  rawPage : List RawMessage
  pageSize : Nat
  hasMore : Option Bool
  downloadMedia : RawMessage → Option ThumbnailSelector → Download
  maxBytes : Nat
  deadline : Option Nat
  clock : Nat
  databaseFails : Bool

/-- The rows after the round; `none` when a download never ends. -/
def ScanRound.commit (py : Runtime) (round : ScanRound) (db : Database) : Option Database :=
  match buildPage round.readAt round.rawPage round.pageSize round.hasMore with
  | .error _ => some db
  | .ok page =>
      previewPipeline py round.now round.fenceNow round.lease round.downloadMedia round.maxBytes
        round.deadline round.clock round.rawPage page round.databaseFails db

theorem persistScanPage_categories {py : Runtime} {now fenceNow : Instant} {lease : ScanLease}
    {page : ScanPage} {db db' : Database}
    (h : persistScanPage py now fenceNow lease page db = .ok db') :
    db'.categories = db.categories := by
  obtain ⟨-, -, -, other, staged, hStaged, rfl⟩ := persistScanPage_eq_ok h
  exact (stagePage_tables hStaged).2.2.1

theorem commitScanPage_categories {py : Runtime} {now fenceNow : Instant} {lease : ScanLease}
    {page : ScanPage} {databaseFails : Bool} {db : Database} :
    (commitScanPage py now fenceNow lease page databaseFails db).2.categories =
      db.categories := by
  unfold commitScanPage
  split
  · rfl
  · rename_i hPersisted
    split
    · rfl
    · exact persistScanPage_categories hPersisted

/-- A round never touches the categories. -/
theorem ScanRound.commit_categories {py : Runtime} {round : ScanRound} {db db' : Database}
    (h : round.commit py db = some db') : db'.categories = db.categories := by
  unfold commit at h
  split at h
  · cases h
    rfl
  · obtain ⟨⟨cached, reached, clock⟩, -, rfl⟩ := Option.map_eq_some_iff.mp h
    dsimp only
    split
    · rfl
    · exact commitScanPage_categories

inductive LibraryAction
  | scan (round : ScanRound)
  | update (userId : UserId) (id : Int) (updates : Updates)
  /-- What else the service does: connections and jobs change, messages are deleted, and
  replacement markers are set and cleared. -/
  | other (connections : Table TelegramConnection) (jobs : Table ScanJob)
      (deleted : Message → Bool) (marker : Message → Option JobId)

/-- The library after an action. -/
def libraryStep (py : Runtime) (s : Organizer) : LibraryAction → Option Organizer
  | .scan round =>
      match h : round.commit py s.db with
      | none => none
      | some db => some (s.withDatabase db (ScanRound.commit_categories h))
  | .update userId id updates => some (MessageService.updateMessage userId id updates s).2
  | .other connections jobs deleted marker => some
      { s with
        db := { (s.db.deleteMessages deleted).updateMessages (fun _ => true)
            (fun m => { m with lastSeenReplacementJobId := marker m }) with
          connections := connections
          jobs := jobs } }

/-! ## Scans keep the link -/

section Scans

variable {py : Runtime} {round : ScanRound} {db db' : Database}

/-- The link of a scanned message is the one of its text. -/
theorem mapM_normalizeMessage_linked {now : Instant} {rawPage : List RawMessage}
    {messages : List ScannedMessage} (h : rawPage.mapM (normalizeMessage now) = .ok messages) :
    ∀ m ∈ messages, m.Linked := by
  induction rawPage generalizing messages with
  | nil =>
      cases h
      simp
  | cons raw rest ih =>
      rw [List.mapM_cons] at h
      cases hRaw : normalizeMessage now raw with
      | error e => rw [hRaw] at h; cases h
      | ok scanned =>
          cases hRest : rest.mapM (normalizeMessage now) with
          | error e => rw [hRaw, hRest] at h; cases h
          | ok tail =>
              rw [hRaw, hRest] at h
              cases h
              obtain ⟨telegramId, -, rfl⟩ := normalizeMessage_eq_ok hRaw
              exact List.forall_mem_cons.mpr ⟨rfl, ih hRest⟩

theorem withCachedMedia_linked {rows : List CachedMediaRow} {page : ScanPage}
    (h : ∀ m ∈ page.messages, m.Linked) : ∀ m ∈ (withCachedMedia rows page).messages, m.Linked := by
  intro m hm
  obtain ⟨original, hOriginal, rfl⟩ := List.mem_map.mp hm
  have hLinked := h original hOriginal
  split
  · exact hLinked
  · exact hLinked

theorem enrichMessages_linked
    {downloadMedia : RawMessage → Option ThumbnailSelector → Download} {maxBytes : Nat}
    {deadline : Option Nat} {clock clock' : Nat} {pairs : List (RawMessage × ScannedMessage)}
    {messages : List ScannedMessage} {reached : Bool} (hLinked : ∀ pair ∈ pairs, pair.2.Linked)
    (h : enrichMessages downloadMedia maxBytes deadline clock pairs =
      some (messages, reached, clock')) : ∀ m ∈ messages, m.Linked := by
  induction pairs generalizing clock messages with
  | nil =>
      cases h
      simp
  | cons pair rest ih =>
      obtain ⟨hFirst, hRest⟩ := List.forall_mem_cons.mp hLinked
      unfold enrichMessages at h
      split at h
      · rename_i message clock₁ hKept
        obtain ⟨⟨kept, r, c⟩, hEnriched, hEq⟩ := Option.map_eq_some_iff.mp h
        cases hEq
        obtain ⟨media, mimeType, rfl⟩ := cacheMediaPreview_kept hKept
        exact List.forall_mem_cons.mpr ⟨hFirst, ih hRest hEnriched⟩
      · cases h
        simp
      · cases h

theorem cacheMediaPreviews_linked
    {downloadMedia : RawMessage → Option ThumbnailSelector → Download} {rawPage : List RawMessage}
    {page cached : ScanPage} {maxBytes : Nat} {deadline : Option Nat} {clock clock' : Nat}
    {reached : Bool} (hLinked : ∀ m ∈ page.messages, m.Linked)
    (h : cacheMediaPreviews downloadMedia rawPage page maxBytes deadline clock =
      some (cached, reached, clock')) : ∀ m ∈ cached.messages, m.Linked := by
  obtain ⟨⟨messages, spent, after⟩, hEnriched, hPage⟩ := Option.map_eq_some_iff.mp h
  have hAll := enrichMessages_linked
    (fun pair hPair => hLinked _ (List.of_mem_zip hPair).2) hEnriched
  dsimp only at hPage
  split at hPage
  · obtain rfl := (Prod.mk.inj hPage).1
    exact hAll
  · obtain rfl := (Prod.mk.inj hPage).1
    exact hAll

/-- Both columns of a row come from the same version of the message. -/
theorem persistScanPage_linked {now fenceNow : Instant} {lease : ScanLease} {page : ScanPage}
    (hDb : ∀ m ∈ db.messages, m.Linked) (hPage : ∀ m ∈ page.messages, m.Linked)
    (h : persistScanPage py now fenceNow lease page db = .ok db') :
    ∀ m ∈ db'.messages, m.Linked := by
  obtain ⟨-, -, -, other, staged, hStaged, rfl⟩ := persistScanPage_eq_ok h
  refine stagePage_induct (P := fun s => ∀ m ∈ s.db.messages, m.Linked) hStaged hDb ?_
  intro current scanned next hScanned hCurrent hStep
  rcases stageMessage_eq_ok hStep with ⟨existing, -, rfl⟩ | ⟨categoryId, -, -, rfl⟩
  · intro m hm
    obtain ⟨row, hRow, rfl⟩ := mem_refreshed.mp hm
    split
    · exact hPage scanned hScanned
    · exact hCurrent row hRow
  · intro m hm
    rcases Database.mem_insertMessage.mp hm with hm | rfl
    · exact hCurrent m hm
    · exact hPage scanned hScanned

theorem ScanRound.commit_linked (hDb : ∀ m ∈ db.messages, m.Linked)
    (h : round.commit py db = some db') : ∀ m ∈ db'.messages, m.Linked := by
  unfold commit at h
  split at h
  · cases h
    exact hDb
  · rename_i page hPage
    obtain ⟨⟨cached, reached, clock⟩, hCached, rfl⟩ := Option.map_eq_some_iff.mp h
    have hBuilt : ∀ m ∈ page.messages, m.Linked :=
      mapM_normalizeMessage_linked (buildPage_eq_ok hPage).1
    have hMessages := cacheMediaPreviews_linked (withCachedMedia_linked hBuilt) hCached
    dsimp only
    split
    · exact hDb
    · unfold commitScanPage
      split
      · exact hDb
      · rename_i hPersisted
        split
        · exact hDb
        · exact persistScanPage_linked hDb hMessages hPersisted

end Scans

/-! ## Edits that keep it -/

/-- An accepted update that assigns a text assigns one with the stored link. -/
def KeepsLink (userId : UserId) (id : Int) (updates : Updates) (s : Organizer) : Prop :=
  ∀ change, MessageService.checkUpdate userId s id updates = .ok change →
    ∀ content, change.content = some content → extractUrl content = change.loaded.message.url

section Edits

variable {s s' : Organizer} {userId : UserId} {id : Int} {updates : Updates}
  {change : MessageService.MessageChange}

theorem updateMessage_ok (h : MessageService.checkUpdate userId s id updates = .ok change) :
    (MessageService.updateMessage userId id updates s).2 =
      s.updateMessages (·.id == change.loaded.message.id) change.apply :=
  congrArg Prod.snd (Organizer.transaction_ok h)

theorem updateMessage_error {e : MessageError}
    (h : MessageService.checkUpdate userId s id updates = .error e) :
    (MessageService.updateMessage userId id updates s).2 = s :=
  congrArg Prod.snd (Organizer.transaction_error h)

/-- An update keeps the links of a library exactly when it assigns no text with another one. -/
theorem updateMessage_linked_iff (hLinked : s.Linked) :
    (MessageService.updateMessage userId id updates s).2.Linked ↔ KeepsLink userId id updates s := by
  cases hCheck : MessageService.checkUpdate userId s id updates with
  | error e =>
      rw [updateMessage_error hCheck]
      refine iff_of_true hLinked fun change h => ?_
      rw [hCheck] at h
      cases h
  | ok change =>
      have hLoaded := (checkUpdate_loaded hCheck).1
      rw [updateMessage_ok hCheck]
      constructor
      · intro hAfter change' h content hContent
        obtain rfl := Except.ok.inj (hCheck.symm.trans h)
        have hRow : change.apply change.loaded.message ∈
            (s.updateMessages (·.id == change.loaded.message.id) change.apply).db.messages :=
          (s.mem_updateMessages).mpr
            ⟨change.loaded.message, hLoaded, if_pos (beq_self_eq_true _)⟩
        have hUrl := hAfter _ hRow
        unfold Message.Linked MessageService.MessageChange.apply at hUrl
        rw [hContent, Option.getD_some] at hUrl
        exact hUrl.symm
      · intro hKeeps m hm
        obtain ⟨row, hRow, rfl⟩ := (s.mem_updateMessages).mp hm
        have hBefore : row.Linked := hLinked row hRow
        split
        · rename_i hSelected
          obtain rfl : row = change.loaded.message :=
            Table.eq_of_key hRow hLoaded (beq_iff_eq.mp hSelected)
          unfold Message.Linked MessageService.MessageChange.apply
          cases hContent : change.content with
          | none => exact hBefore
          | some content => exact (hKeeps change hCheck content hContent).symm
        · exact hBefore

/-- Every other action keeps the links. -/
theorem libraryStep_linked {py : Runtime} {a : LibraryAction} (hLinked : s.Linked)
    (h : libraryStep py s a = some s')
    (hUpdate : ∀ userId id updates, a = .update userId id updates →
      KeepsLink userId id updates s) : s'.Linked := by
  cases a with
  | scan round =>
      simp only [libraryStep] at h
      split at h
      · cases h
      · rename_i db hCommit
        cases h
        exact ScanRound.commit_linked hLinked hCommit
  | update userId id updates =>
      cases h
      exact (updateMessage_linked_iff hLinked).mpr (hUpdate userId id updates rfl)
  | other connections jobs deleted marker =>
      cases h
      intro m hm
      obtain ⟨row, hRow, rfl⟩ := (@Table.mem_update Message MessageId _
        (s.db.messages.delete deleted) (fun _ => true)
        (fun m => { m with lastSeenReplacementJobId := marker m }) (fun _ => rfl) m).mp hm
      exact hLinked row (Table.mem_delete.mp hRow).1

end Edits

/-- In a run of scans and edits every row has the link of its text throughout exactly when
every edit that assigns a text assigns one with the stored link. -/
theorem links_follow_iff (py : Runtime) (s : Organizer) (actions : List LibraryAction)
    (hLinked : s.Linked) :
    (∀ u, Visits (libraryStep py) s actions u → u.Linked) ↔
      ∀ u v userId id updates,
        StepOf (libraryStep py) s actions u (.update userId id updates) v →
        KeepsLink userId id updates u := by
  constructor
  · intro hAll u v userId id updates hStep
    obtain rfl := Option.some.inj hStep.step
    exact (updateMessage_linked_iff (hAll u hStep.before)).mp (hAll _ hStep.after)
  · intro hKeeps u hVisit
    refine visits_induct hLinked hVisit fun x a y hStep hx => ?_
    refine libraryStep_linked hx hStep.step fun userId id updates hAction => ?_
    subst hAction
    exact hKeeps x y userId id updates hStep

/-! ### An edited note -/

/-- The library with the messages 5 and 7, two notes without a link. -/
def notesLibrary : Organizer where
  db := storedLibrary
  tags := .empty
  nextTagId := 1
  nextCategoryId := 10
  tagIds_fresh := noTag_fresh
  categoryIds_fresh := by decide +kernel

theorem notesLibrary_linked : notesLibrary.Linked := by
  show ∀ m ∈ demoNotes.rows, m.url = extractUrl m.content
  decide +kernel

def editTo (text : String) : LibraryAction := .update 1 1 [("content", .str text.toList)]

/-- The edit as `update_message` accepts it. -/
def acceptedEdit (text : String) : MessageService.MessageChange :=
  ⟨notesLibrary.view (importedNote 1 5), none, some (some text.toList)⟩

theorem links_follow_iff_note : notesLibrary.Linked ∧
    ∀ u, Visits (libraryStep demoEnv.py) notesLibrary [editTo "another note"] u → u.Linked := by
  refine ⟨notesLibrary_linked,
    (links_follow_iff demoEnv.py notesLibrary _ notesLibrary_linked).mpr ?_⟩
  intro u v userId id updates hStep change hCheck content hContent
  rcases (stepOf_cons rfl).mp hStep with ⟨rfl, hAction, -⟩ | hNone
  · cases hAction
    have hEdit : MessageService.checkUpdate 1 notesLibrary 1
        [("content", .str "another note".toList)] = .ok (acceptedEdit "another note") := by
      decide +kernel
    obtain rfl := Except.ok.inj (hEdit.symm.trans hCheck)
    cases hContent
    decide +kernel
  · exact absurd hNone not_stepOf_nil

/-- After the edit the text has a link, and the column is empty. -/
theorem edited_link_is_stale :
    notesLibrary.Linked ∧ ∃ s, run (libraryStep demoEnv.py) notesLibrary
        [editTo "see https://example.org"] = some s ∧
      ∃ m ∈ s.db.messages, m.content = some "see https://example.org".toList ∧ m.url = none ∧
        extractUrl m.content = some "https://example.org".toList := by
  refine ⟨notesLibrary_linked, _, rfl, ?_⟩
  show ∃ m ∈ (MessageService.updateMessage 1 1
    [("content", .str "see https://example.org".toList)] notesLibrary).2.db.messages.rows, _
  decide +kernel

end SavedOrganizer
