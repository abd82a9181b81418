import SavedOrganizer.Scanner.Source
import SavedOrganizer.System.Store

/-!
# Which texts keep a page from being persisted

A page is staged as a whole or not at all, and a new message is staged by categorizing it.
So one message that `categorize_scanned_message` raises for rolls its page back, and as the
cursor then stays where it was, the next slice meets the same message again.
`page_persists_iff` says that nothing else can go wrong under a valid lease: the page is
committed and the cursor advances exactly when every new message of it is `categorizable`.
-/

namespace SavedOrganizer

open Python

/-- The user has the category every other one falls back to. -/
def Database.HasFallback (db : Database) (userId : UserId) : Prop :=
  ∃ category ∈ db.categories, category.userId = userId ∧
    category.systemKey = some OTHER_CATEGORY_SLUG

/-! ## One round of the loop -/

section Round

variable {py : Runtime} {lease : ScanLease} {categories : List (String × CategoryId)}
  {other : CategoryId} {stored : TelegramId → Option Message} {staged : Staged}
  {scanned : ScannedMessage}

/-- The category of a new message. -/
def filedUnder (py : Runtime) (categories : List (String × CategoryId)) (other : CategoryId)
    (scanned : ScannedMessage) : CategoryId :=
  match categorizeScannedMessage py scanned with
  | .error _ => other
  | .ok slug => (dictGet categories slug).getD other

/-- A message that was stored before the page refreshes its row, however often it comes. -/
theorem stageMessage_stored {existing : Message} (h : stored scanned.telegramId = some existing) :
    stageMessage py lease categories other stored staged scanned = .ok { staged with
      db := staged.db.updateMessages (·.id == existing.id) (refreshMessage lease scanned) } := by
  unfold stageMessage
  rw [h, Option.isSome_some, Bool.true_or, if_pos rfl]

/-- A message that the page itself has added raises. -/
theorem stageMessage_repeated (h : stored scanned.telegramId = none)
    (hSeen : scanned.telegramId ∈ staged.seen) :
    stageMessage py lease categories other stored staged scanned = .error .persistence := by
  unfold stageMessage
  rw [h, List.contains_iff_mem.mpr hSeen, Bool.or_true, if_pos rfl]

theorem stageMessage_new (h : stored scanned.telegramId = none)
    (hSeen : scanned.telegramId ∉ staged.seen) :
    stageMessage py lease categories other stored staged scanned =
      if categorizable py scanned then .ok
        { db := staged.db.insertMessage
            (newMessage lease scanned (filedUnder py categories other scanned))
          seen := scanned.telegramId :: staged.seen }
      else .error .persistence := by
  have hContains : staged.seen.contains scanned.telegramId = false := by
    rw [← Bool.not_eq_true, List.contains_iff_mem]
    exact hSeen
  have hReturns := categorizeScannedMessage_returns_iff py scanned
  unfold stageMessage filedUnder
  rw [h, hContains, Option.isSome_none, Bool.or_false, if_neg Bool.false_ne_true]
  cases hSlug : categorizeScannedMessage py scanned with
  | error e =>
      rw [if_neg]
      intro hOk
      obtain ⟨slug, hEq⟩ := hReturns.mpr hOk
      rw [hSlug] at hEq
      cases hEq
  | ok slug => rw [if_pos (hReturns.mp ⟨slug, hSlug⟩)]

/-- The loop goes through when every new message has a category and comes once. -/
theorem stagePage_ok_iff {messages : List ScannedMessage} :
    (∃ final, stagePage py lease categories other stored staged messages = .ok final) ↔
      (∀ m ∈ messages, stored m.telegramId = none →
        categorizable py m = true ∧ m.telegramId ∉ staged.seen) ∧
      ((messages.filter fun m => (stored m.telegramId).isNone).map
        ScannedMessage.telegramId).Nodup := by
  induction messages generalizing staged with
  | nil => exact iff_of_true ⟨staged, rfl⟩ ⟨by simp, List.nodup_nil⟩
  | cons first rest ih =>
      unfold stagePage
      cases hStored : stored first.telegramId with
      | some existing =>
          rw [stageMessage_stored hStored]
          dsimp only
          rw [ih, List.filter_cons_of_neg (by rw [hStored]; exact Bool.false_ne_true),
            List.forall_mem_cons]
          refine and_congr_left fun _ => ⟨fun h => ⟨fun hNew => ?_, h⟩, And.right⟩
          rw [hStored] at hNew
          cases hNew
      | none =>
          rw [List.filter_cons_of_pos (by rw [hStored]; rfl), List.map_cons, List.nodup_cons,
            List.forall_mem_cons]
          by_cases hSeen : first.telegramId ∈ staged.seen
          · rw [stageMessage_repeated hStored hSeen]
            refine iff_of_false ?_ fun h => (h.1.1 hStored).2 hSeen
            rintro ⟨final, hFinal⟩
            cases hFinal
          · rw [stageMessage_new hStored hSeen]
            by_cases hSlug : categorizable py first = true
            · rw [if_pos hSlug]
              dsimp only
              rw [ih]
              constructor
              · rintro ⟨hRest, hNodup⟩
                refine ⟨⟨fun _ => ⟨hSlug, hSeen⟩, fun m hm hNew => ?_⟩, ?_, hNodup⟩
                · obtain ⟨hOk, hNot⟩ := hRest m hm hNew
                  exact ⟨hOk, fun hMem => hNot (List.mem_cons_of_mem _ hMem)⟩
                · intro hMem
                  obtain ⟨m, hm, hId⟩ := List.mem_map.mp hMem
                  obtain ⟨hm, hNew⟩ := List.mem_filter.mp hm
                  refine (hRest m hm (Option.isNone_iff_eq_none.mp hNew)).2 ?_
                  rw [hId]
                  exact List.mem_cons_self
              · rintro ⟨⟨-, hRest⟩, hFirst, hNodup⟩
                refine ⟨fun m hm hNew => ⟨(hRest m hm hNew).1, ?_⟩, hNodup⟩
                rw [List.mem_cons, not_or]
                refine ⟨fun hId => hFirst ?_, (hRest m hm hNew).2⟩
                exact List.mem_map.mpr ⟨m, List.mem_filter.mpr ⟨hm, by rw [hNew]; rfl⟩, hId⟩
            · rw [if_neg hSlug]
              refine iff_of_false ?_ fun h => hSlug (h.1.1 hStored).1
              rintro ⟨final, hFinal⟩
              cases hFinal

end Round

/-! ## A page -/

section Page

variable {py : Runtime} {lease : ScanLease} {db : Database}

theorem dictGet_other (h : db.HasFallback lease.userId) :
    ∃ other, dictGet (db.categoryMap lease.userId) OTHER_CATEGORY_SLUG = some other := by
  obtain ⟨category, hMem, hUser, hKey⟩ := h
  have hPair : (OTHER_CATEGORY_SLUG, category.id) ∈ db.categoryMap lease.userId := by
    unfold Database.categoryMap
    refine List.mem_map.mpr ⟨category, List.mem_filter.mpr ⟨hMem, by rw [hUser, beq_self_eq_true]⟩, ?_⟩
    rw [hKey]
    rfl
  cases hGet : dictGet (db.categoryMap lease.userId) OTHER_CATEGORY_SLUG with
  | some other => exact ⟨other, rfl⟩
  | none =>
      exfalso
      rw [dictGet, Option.map_eq_none_iff, List.find?_eq_none] at hGet
      have hNot := hGet _ (List.mem_reverse.mpr hPair)
      simp at hNot

/-- Where no id comes twice, only a message without a category keeps a page from being staged. -/
theorem stagePage_returns_iff {categories : List (String × CategoryId)} {other : CategoryId}
    {stored : TelegramId → Option Message} {messages : List ScannedMessage} {staged : Staged}
    (hDistinct : (messages.map ScannedMessage.telegramId).Nodup)
    (hFresh : ∀ m ∈ messages, m.telegramId ∉ staged.seen) :
    (∃ final, stagePage py lease categories other stored staged messages = .ok final) ↔
      ∀ m ∈ messages, stored m.telegramId = none → categorizable py m = true := by
  rw [stagePage_ok_iff]
  constructor
  · rintro ⟨hNew, -⟩ m hm hNone
    exact (hNew m hm hNone).1
  · intro hCategory
    exact ⟨fun m hm hNone => ⟨hCategory m hm hNone, hFresh m hm⟩,
      hDistinct.sublist (List.filter_sublist.map _)⟩

/-- The page is committed and the cursor of the job moves to its end. -/
def Advances (py : Runtime) (now fenceNow : Instant) (lease : ScanLease) (page : ScanPage)
    (db : Database) : Prop :=
  ∃ db' job, persistScanPage py now fenceNow lease page db = .ok db' ∧
    db'.jobs.find? lease.jobId = some job ∧ job.lastMessageId = page.nextOffsetId

theorem page_persists_iff {now fenceNow : Instant} {page : ScanPage}
    (hConnection : db.boundConnection lease ≠ none) (hJob : db.heldJob lease now ≠ none)
    (hFence : db.heldJob lease fenceNow ≠ none) (hFallback : db.HasFallback lease.userId)
    (hDistinct : page.ids.Nodup) :
    Advances py now fenceNow lease page db ↔ ∀ m ∈ page.messages,
      db.storedMessage lease m.telegramId = none → categorizable py m = true := by
  obtain ⟨other, hOther⟩ := dictGet_other hFallback
  have hStage := @stagePage_returns_iff py lease (db.categoryMap lease.userId) other
    (db.storedMessage lease) page.messages ⟨db, []⟩ hDistinct (fun _ _ h => by cases h)
  rw [← hStage]
  have hBound : ¬ (db.boundConnection lease).isNone = true := by
    rwa [Option.isNone_iff_eq_none]
  have hHeldNow : ¬ (db.heldJob lease now).isNone = true := by rwa [Option.isNone_iff_eq_none]
  have hHeldThen : ¬ (db.heldJob lease fenceNow).isNone = true := by
    rwa [Option.isNone_iff_eq_none]
  have hPersist : persistScanPage py now fenceNow lease page db =
      (stagePage py lease (db.categoryMap lease.userId) other (db.storedMessage lease)
        ⟨db, []⟩ page.messages).map fun staged => staged.db.updateJobs (lease.holds fenceNow)
          (ScanJob.recordPage page.messages.length page.nextOffsetId) := by
    simp only [persistScanPage, if_neg hBound, if_neg hHeldNow, hOther, if_neg hHeldThen]
    cases stagePage py lease (db.categoryMap lease.userId) other (db.storedMessage lease)
      ⟨db, []⟩ page.messages <;> rfl
  constructor
  · rintro ⟨db', job, hOk, -⟩
    rw [hPersist] at hOk
    cases hStaged : stagePage py lease (db.categoryMap lease.userId) other
        (db.storedMessage lease) ⟨db, []⟩ page.messages with
    | error e => rw [hStaged] at hOk; cases hOk
    | ok staged => exact ⟨staged, rfl⟩
  · rintro ⟨staged, hStaged⟩
    rw [hStaged] at hPersist
    obtain ⟨held, hHeld⟩ := Option.ne_none_iff_exists'.mp hFence
    obtain ⟨hFind, hHolds⟩ := Option.filter_eq_some_iff.mp hHeld
    refine ⟨_, held.recordPage page.messages.length page.nextOffsetId, hPersist, ?_, rfl⟩
    have hJobs : staged.db.jobs = db.jobs := (stagePage_tables hStaged).1
    rw [Database.updateJobs_jobs, Table.find?_update, hJobs, hFind, Option.map_some, if_pos hHolds]

end Page

/-- Normalized text gets a category exactly when it is `categorizable`, and exactly then its
page is committed. -/
theorem scan_not_poisoned_iff (py : Runtime) :
    (∀ now raw message, normalizeMessage now raw = .ok message →
      ((∃ slug, categorizeScannedMessage py message = .ok slug) ↔
        categorizable py message = true)) ∧
    ∀ now fenceNow lease page db, db.boundConnection lease ≠ none →
      db.heldJob lease now ≠ none → db.heldJob lease fenceNow ≠ none →
      db.HasFallback lease.userId → page.ids.Nodup →
      (Advances py now fenceNow lease page db ↔ ∀ m ∈ page.messages,
        db.storedMessage lease m.telegramId = none → categorizable py m = true) :=
  ⟨fun _ _ message _ => categorizeScannedMessage_returns_iff py message,
    fun _ _ _ _ _ hConnection hJob hFence hFallback hDistinct =>
      page_persists_iff hConnection hJob hFence hFallback hDistinct⟩

/-! ### An unbalanced bracket

The text `http://[foo` is normalized and its URL is kept, but `urlparse` refuses it. -/

/-- Whatever is normalized gets a category. -/
def TextNeverRaises (py : Runtime) : Prop :=
  ∀ now raw message, normalizeMessage now raw = .ok message →
    ∃ slug, categorizeScannedMessage py message = .ok slug

/-- Under a valid lease every page of normalized messages is committed. -/
def PagesAdvance (py : Runtime) : Prop :=
  ∀ now fenceNow lease page db, db.boundConnection lease ≠ none →
    db.heldJob lease now ≠ none → db.heldJob lease fenceNow ≠ none →
    db.HasFallback lease.userId → page.ids.Nodup →
    (∀ m ∈ page.messages, ∃ now raw, normalizeMessage now raw = .ok m) →
    Advances py now fenceNow lease page db

def bracketMessage : RawMessage := { textMessage "http://[foo" with id := .int 5 }

def bracketScanned : ScannedMessage := scannedMessage 0 5 bracketMessage

def bracketPage : ScanPage := ⟨[bracketScanned], false, some 5⟩

/-- The connected user's job 7 is running. -/
def runningLibrary : Database :=
  { demoDatabase with
    jobs := ⟨[(ScanJob.queued 7 1 true 100 200 3 4 3600 0).claim 0 0], by decide⟩ }

def runningLease : ScanLease :=
  { jobId := 7, userId := 1, pageSize := 100, telegramUserId := 200, connectionGeneration := 3,
    messagesScanned := 0, lastMessageId := none, maxMessages := 4, maxRuntimeSeconds := 3600,
    startedAt := 0, owner := 0, replaceExisting := true }

theorem runningLibrary_hasFallback : runningLibrary.HasFallback 1 :=
  ⟨otherCategory, List.mem_cons_self, rfl, rfl⟩

def noteScanned : ScannedMessage := scannedMessage 0 5 (textMessage "note")

theorem scan_not_poisoned_iff_note :
    ((∃ slug, categorizeScannedMessage demoEnv.py noteScanned = .ok slug) ↔
      categorizable demoEnv.py noteScanned = true) ∧
    Advances demoEnv.py 0 0 runningLease ⟨[noteScanned], false, some 5⟩ runningLibrary := by
  obtain ⟨hText, hPages⟩ := scan_not_poisoned_iff demoEnv.py
  refine ⟨hText 0 { textMessage "note" with id := .int 5 } noteScanned rfl, ?_⟩
  refine (hPages 0 0 runningLease ⟨[noteScanned], false, some 5⟩ runningLibrary
    (by decide +kernel) (by decide +kernel) (by decide +kernel) runningLibrary_hasFallback
    (by decide)).mpr ?_
  intro m hm _
  obtain rfl := List.mem_singleton.mp hm
  decide +kernel

theorem normalize_bracketMessage : normalizeMessage 0 bracketMessage = .ok bracketScanned := rfl

theorem not_categorizable_bracket : categorizable demoEnv.py bracketScanned = false := by
  decide +kernel

/-- The lease and the connection are good, the message is new, and its page cannot be
committed. -/
theorem bracket_poisons : ¬ TextNeverRaises demoEnv.py ∧ ¬ PagesAdvance demoEnv.py := by
  constructor
  · intro h
    have hSlug := h 0 bracketMessage bracketScanned normalize_bracketMessage
    rw [categorizeScannedMessage_returns_iff, not_categorizable_bracket] at hSlug
    cases hSlug
  · intro h
    have hAdvances := h 0 0 runningLease bracketPage runningLibrary (by decide +kernel)
      (by decide +kernel) (by decide +kernel) runningLibrary_hasFallback (by decide) (by
        intro m hm
        obtain rfl := List.mem_singleton.mp hm
        exact ⟨0, bracketMessage, normalize_bracketMessage⟩)
    obtain ⟨db', job, hOk, -⟩ := hAdvances
    have hRefused : (persistScanPage demoEnv.py 0 0 runningLease bracketPage
        runningLibrary).toOption.isSome = false := by decide +kernel
    rw [hOk] at hRefused
    cases hRefused

end SavedOrganizer
