import SavedOrganizer.Library.Transition
import SavedOrganizer.Messages.Pages
import SavedOrganizer.Tags.Filter
import SavedOrganizer.Tenants.Rows

/-!
# Tagging in bulk while others tag

`bulk_add_tags_to_messages`, statement by statement, among the assignments that racing requests
add. It reads which of the requested pairs are there, inserts the others row by row, and
commits. A row that another request has committed meanwhile breaks the primary key: everything
is rolled back, and the request reads once more whether all pairs are there. A row that the
request has inserted is locked, and another request that inserts it waits.

Whatever the others add, the request adds all missing pairs in one step, or nothing
(`bulk_tagging`).
-/

namespace SavedOrganizer

open Transition TagService

/-- How far the request is: the requested pairs, and which of the missing ones are inserted. -/
inductive BulkPhase
  | checking
  | reading (requested : List MessageTag)
  | inserting (requested inserted remaining : List MessageTag)
  | rereading (requested : List MessageTag)
  | returned (result : Except TagError BulkTagResult)
  deriving DecidableEq

structure BulkTagging where
  s : Organizer
  phase : BulkPhase

/-! ## The request -/

/-- `requested_assignments`, after the checks of the arguments and the rows they name. -/
def requestedAssignments (userId : UserId) (messageIds tagIds : List Value) (s : Organizer) :
    Except TagError (List MessageTag) :=
  match normalizeMessageIds messageIds with
  | .error e => .error e
  | .ok messageIds => match normalizeTagIds tagIds with
    | .error e => .error e
    | .ok tagIds => match loadMessagesByIds userId s messageIds with
      | .error e => .error e
      | .ok messages => (loadTagsByIds userId s tagIds).map fun tags =>
          messages.flatMap fun m => tags.map fun t => ⟨userId, m.id, t.id⟩

def missingAssignments (s : Organizer) (requested : List MessageTag) : List MessageTag :=
  requested.filter fun a => !s.db.messageTags.rows.contains a

/-- The next statement of `bulk_add_tags_to_messages`. -/
def BulkTagging.advance (userId : UserId) (messageIds tagIds : List Value) (b : BulkTagging) :
    Option BulkTagging :=
  match b.phase with
  | .checking => match requestedAssignments userId messageIds tagIds b.s with
      | .error e => some { b with phase := .returned (.error e) }
      | .ok requested => some { b with phase := .reading requested }
  | .reading requested =>
      let missing := missingAssignments b.s requested
      if missing.isEmpty then some { b with phase := .returned (.ok ⟨0, 0⟩) }
      else some { b with phase := .inserting requested [] missing }
  | .inserting requested inserted (row :: remaining) =>
      if b.s.db.messageTags.rows.contains row then some { b with phase := .rereading requested }
      else some { b with phase := .inserting requested (inserted ++ [row]) remaining }
  | .inserting _ inserted [] =>
      some
        { s := b.s.insertMessageTags inserted
          phase := .returned
            (.ok ⟨(inserted.map MessageTag.messageId).eraseDups.length, inserted.length⟩) }
  | .rereading requested =>
      if (missingAssignments b.s requested).isEmpty then
        some { b with phase := .returned (.ok ⟨0, 0⟩) }
      else
        let conflict : TagError := .tagConflict "Tag assignments changed concurrently."
        some { b with phase := .returned (.error conflict) }
  | .returned _ => none

inductive BulkAction
  | advance
  /-- A racing request commits an assignment. -/
  | assign (row : MessageTag)

/-- The rows the request has inserted and not committed. -/
def BulkPhase.inserted : BulkPhase → List MessageTag
  | .inserting _ inserted _ => inserted
  | _ => []

def BulkTagging.step (userId : UserId) (messageIds tagIds : List Value) (b : BulkTagging) :
    BulkAction → Option BulkTagging
  | .advance => b.advance userId messageIds tagIds
  | .assign row =>
      if b.phase.inserted.contains row then none else some { b with s := b.s.insertMessageTags [row] }

/-! ## The requested pairs -/

section Requested

variable {userId : UserId} {messageIds tagIds : List Value} {s s' : Organizer} {field : String}
  {requested : List MessageTag}

/-- The ids in the order of the arguments, each once. -/
theorem normalizeIdsFrom_ok {values : List Value} {normalized ids : List Int}
    (h : normalizeIdsFrom field normalized values = .ok ids) :
    (normalized.Nodup → ids.Nodup) ∧ normalized ⊆ ids ∧
      ∀ v ∈ values, ∃ n, v = .int n ∧ n ∈ ids := by
  induction values generalizing normalized with
  | nil =>
      obtain rfl := Except.ok.inj h
      exact ⟨fun h => h, List.Subset.refl _, fun v hv => by cases hv⟩
  | cons value values ih =>
      unfold normalizeIdsFrom at h
      split at h
      · cases h
      · rename_i id hId
        have hValue : value = .int id := by
          unfold normalizePositiveInt at hId
          split at hId
          · split at hId
            · cases hId
            · rw [Except.ok.inj hId]
          · cases hId
        split at h
        · rename_i hSeen
          obtain ⟨hNodup, hSub, hAll⟩ := ih h
          refine ⟨hNodup, hSub, fun v hv => ?_⟩
          rcases List.mem_cons.mp hv with rfl | hv
          · exact ⟨id, hValue, hSub (List.contains_iff_mem.mp hSeen)⟩
          · exact hAll v hv
        · rename_i hNew
          obtain ⟨hNodup, hSub, hAll⟩ := ih h
          have hFresh : id ∉ normalized := fun hMem => hNew (List.contains_iff_mem.mpr hMem)
          refine ⟨fun hNormalized => hNodup ?_, fun x hx => ?_, fun v hv => ?_⟩
          · exact List.nodup_append.mpr ⟨hNormalized, List.nodup_singleton id, fun a ha b hb hab =>
              hFresh (List.mem_singleton.mp hb ▸ hab ▸ ha)⟩
          · exact hSub (List.mem_append_left _ hx)
          · rcases List.mem_cons.mp hv with rfl | hv
            · exact ⟨id, hValue, hSub (List.mem_append_right _ List.mem_cons_self)⟩
            · exact hAll v hv

theorem normalizeIds_ok {values : List Value} {maxCount : Nat} {ids : List Int}
    (h : normalizeIds values field maxCount = .ok ids) :
    ids.Nodup ∧ ∀ v ∈ values, ∃ n, v = .int n ∧ n ∈ ids := by
  unfold normalizeIds at h
  split at h
  · cases h
  split at h
  · cases h
  obtain ⟨hNodup, -, hAll⟩ := normalizeIdsFrom_ok h
  exact ⟨hNodup List.nodup_nil, hAll⟩

/-- Rows that are found for each of the ids, by a lookup that finds them by their id. -/
theorem nodup_loaded {ρ : Type} {load : Int → Option ρ} {key : ρ → Nat} {ids : List Int}
    (hKey : ∀ id r, load id = some r → (key r : Int) = id) (hIds : ids.Nodup) :
    ((ids.filterMap load).map key).Nodup := by
  induction ids with
  | nil => exact List.nodup_nil
  | cons id ids ih =>
      obtain ⟨hNew, hIds⟩ := List.nodup_cons.mp hIds
      cases hLoad : load id with
      | none =>
          rw [List.filterMap_cons_none hLoad]
          exact ih hIds
      | some r =>
          rw [List.filterMap_cons_some hLoad, List.map_cons, List.nodup_cons]
          refine ⟨fun hMem => hNew ?_, ih hIds⟩
          obtain ⟨r', hr', hSame⟩ := List.mem_map.mp hMem
          obtain ⟨id', hId', hLoad'⟩ := List.mem_filterMap.mp hr'
          have hEq : id' = id := by rw [← hKey id' r' hLoad', ← hKey id r hLoad, hSame]
          exact hEq ▸ hId'

/-- No id is missing. -/
theorem loaded_of_no_missing {ρ : Type} {load : Int → Option ρ} {ids : List Int}
    (h : ids.filter (fun id => (load id).isNone) = []) {id : Int} (hId : id ∈ ids) :
    ∃ r, load id = some r := by
  have hFound := List.filter_eq_nil_iff.mp h id hId
  rw [Option.isNone_iff_eq_none] at hFound
  exact Option.ne_none_iff_exists'.mp hFound

theorem loadMessagesByIds_ok {ids : List Int} {messages : List Message}
    (h : TagService.loadMessagesByIds userId s ids = .ok messages) :
    messages = ids.filterMap (MessageService.loadMessage userId s.db) ∧
      ∀ id ∈ ids, ∃ m, MessageService.loadMessage userId s.db id = some m := by
  unfold TagService.loadMessagesByIds at h
  split at h
  · rename_i hNone
    exact ⟨(Except.ok.inj h).symm, fun id hId => loaded_of_no_missing hNone hId⟩
  · cases h

theorem loadTagsByIds_ok {ids : List Int} {tags : List Tag}
    (h : loadTagsByIds userId s ids = .ok tags) :
    tags = ids.filterMap (loadTag userId s) ∧ ∀ id ∈ ids, ∃ t, loadTag userId s id = some t := by
  unfold loadTagsByIds at h
  split at h
  · rename_i hNone
    exact ⟨(Except.ok.inj h).symm, fun id hId => loaded_of_no_missing hNone hId⟩
  · cases h

theorem id_of_loadMessage (id : Int) (m : Message)
    (h : MessageService.loadMessage userId s.db id = some m) : (m.id : Int) = id := by
  have hNamed := List.find?_some h
  simp only [Bool.and_eq_true, beq_iff_eq] at hNamed
  exact hNamed.2

theorem id_of_loadTag (id : Int) (t : Tag) (h : loadTag userId s id = some t) :
    (t.id : Int) = id := by
  have hNamed := List.find?_some h
  simp only [Bool.and_eq_true, beq_iff_eq] at hNamed
  exact hNamed.2

/-- The pairs of messages and tags with distinct ids are distinct. -/
theorem nodup_pairs {messages : List Message} {tags : List Tag}
    (hMessages : (messages.map Message.id).Nodup) (hTags : (tags.map Tag.id).Nodup) :
    (messages.flatMap fun m => tags.map fun t => (⟨userId, m.id, t.id⟩ : MessageTag)).Nodup := by
  rw [List.nodup_flatMap]
  constructor
  · intro m _
    have hIds : (tags.map Tag.id).map (MessageTag.mk userId m.id) =
        tags.map fun t => ⟨userId, m.id, t.id⟩ := List.map_map
    rw [← hIds]
    exact hTags.map fun t t' h => (MessageTag.mk.inj h).2.2
  · refine (List.pairwise_map.mp hMessages).imp fun hNe a ha ha' => ?_
    obtain ⟨t, -, rfl⟩ := List.mem_map.mp ha
    obtain ⟨t', -, hEq⟩ := List.mem_map.mp ha'
    exact hNe (MessageTag.mk.inj hEq).2.1.symm

/-- Every requested pair, by its ids. -/
theorem requestedAssignments_ok
    (h : requestedAssignments userId messageIds tagIds s = .ok requested) :
    requested.Nodup ∧ ∀ v ∈ messageIds, ∀ v' ∈ tagIds, ∃ m t : Nat, v = .int m ∧ v' = .int t ∧
      ⟨userId, m, t⟩ ∈ requested := by
  unfold requestedAssignments at h
  split at h
  · cases h
  rename_i ids hIds
  split at h
  · cases h
  rename_i ids' hIds'
  split at h
  · cases h
  rename_i messages hMessages
  obtain ⟨tags, hTags, rfl⟩ := Checks.map_eq_ok h
  obtain ⟨hNodup, hAll⟩ := normalizeIds_ok hIds
  obtain ⟨hNodup', hAll'⟩ := normalizeIds_ok hIds'
  obtain ⟨rfl, hFound⟩ := loadMessagesByIds_ok hMessages
  obtain ⟨rfl, hFound'⟩ := loadTagsByIds_ok hTags
  refine ⟨nodup_pairs (nodup_loaded id_of_loadMessage hNodup)
    (nodup_loaded id_of_loadTag hNodup'), fun v hv v' hv' => ?_⟩
  obtain ⟨n, rfl, hn⟩ := hAll v hv
  obtain ⟨n', rfl, hn'⟩ := hAll' v' hv'
  obtain ⟨m, hm⟩ := hFound n hn
  obtain ⟨t, ht⟩ := hFound' n' hn'
  refine ⟨m.id, t.id, ?_, ?_, ?_⟩
  · rw [id_of_loadMessage n m hm]
  · rw [id_of_loadTag n' t ht]
  · exact List.mem_flatMap.mpr ⟨m, List.mem_filterMap.mpr ⟨n, hn, hm⟩,
      List.mem_map_of_mem (List.mem_filterMap.mpr ⟨n', hn', ht⟩)⟩

/-- The checks of the rows depend on the messages and tags only. -/
theorem requestedAssignments_congr (hMessages : s'.db.messages = s.db.messages)
    (hTags : s'.tags = s.tags) :
    requestedAssignments userId messageIds tagIds s' =
      requestedAssignments userId messageIds tagIds s := by
  unfold requestedAssignments TagService.loadMessagesByIds loadTagsByIds
    MessageService.loadMessage loadTag
  rw [hMessages, hTags]

theorem missingAssignments_isEmpty : (missingAssignments s requested).isEmpty = true ↔
    ∀ a ∈ requested, a ∈ s.db.messageTags := by
  unfold missingAssignments
  rw [List.isEmpty_iff, List.filter_eq_nil_iff]
  refine forall₂_congr fun a _ => ?_
  rw [Bool.not_eq_true, Bool.not_eq_false', List.contains_iff_mem]
  exact Iff.rfl

end Requested

/-! ## What its statements do -/

/-- The request is valid, and everything it asks for is assigned. -/
def Tagged (userId : UserId) (messageIds tagIds : List Value) (s : Organizer) : Prop :=
  ∃ requested, requestedAssignments userId messageIds tagIds s = .ok requested ∧
    ∀ a ∈ requested, a ∈ s.db.messageTags

/-- What the request may rely on between its statements. -/
def BulkOk (userId : UserId) (messageIds tagIds : List Value) (s : Organizer) : BulkPhase → Prop
  | .checking | .returned (.error _) => True
  | .reading requested | .rereading requested =>
      requestedAssignments userId messageIds tagIds s = .ok requested
  | .inserting requested inserted remaining =>
      requestedAssignments userId messageIds tagIds s = .ok requested ∧
      (inserted ++ remaining).Nodup ∧ (∀ a ∈ inserted, a ∉ s.db.messageTags) ∧
      ∀ a ∈ requested, a ∈ inserted ++ remaining ∨ a ∈ s.db.messageTags
  | .returned (.ok _) => Tagged userId messageIds tagIds s

section Statements

variable {userId : UserId} {messageIds tagIds : List Value} {s s' : Organizer}
  {b b' : BulkTagging} {a : BulkAction} {row : MessageTag}

/-- A statement of the request returns with what it adds, or it only goes on. -/
inductive BulkStatement (userId : UserId) (messageIds tagIds : List Value) (b : BulkTagging) :
    BulkTagging → Prop
  | goesOn (phase : BulkPhase) (hOk : BulkOk userId messageIds tagIds b.s phase)
      (hGoesOn : ∀ result, phase ≠ .returned (.ok result)) :
      BulkStatement userId messageIds tagIds b { b with phase := phase }
  | returns (added : List MessageTag) (hNodup : added.Nodup)
      (hFree : ∀ a ∈ added, a ∉ b.s.db.messageTags)
      (hTagged : Tagged userId messageIds tagIds (b.s.insertMessageTags added)) :
      BulkStatement userId messageIds tagIds b
        { s := b.s.insertMessageTags added
          phase := .returned
            (.ok ⟨(added.map MessageTag.messageId).eraseDups.length, added.length⟩) }

theorem Tagged.insert (h : Tagged userId messageIds tagIds s) (rows : List MessageTag) :
    Tagged userId messageIds tagIds (s.insertMessageTags rows) := by
  obtain ⟨requested, hRequested, hAll⟩ := h
  refine ⟨requested, (requestedAssignments_congr rfl rfl).trans hRequested, fun a ha => ?_⟩
  exact Organizer.mem_insertMessageTags.mpr (Or.inl (hAll a ha))

/-- A racing assignment does not touch what the request has inserted. -/
theorem BulkOk.assign {phase : BulkPhase} (h : BulkOk userId messageIds tagIds s phase)
    (hRow : row ∉ phase.inserted) :
    BulkOk userId messageIds tagIds (s.insertMessageTags [row]) phase := by
  have hSame : requestedAssignments userId messageIds tagIds (s.insertMessageTags [row]) =
      requestedAssignments userId messageIds tagIds s := requestedAssignments_congr rfl rfl
  cases phase with
  | checking => trivial
  | reading requested => exact hSame.trans h
  | rereading requested => exact hSame.trans h
  | inserting requested inserted remaining =>
      obtain ⟨hRequested, hNodup, hFree, hAll⟩ := h
      refine ⟨hSame.trans hRequested, hNodup, fun a ha hMem => ?_, fun a ha => ?_⟩
      · rcases Organizer.mem_insertMessageTags.mp hMem with hOld | hNew
        · exact hFree a ha hOld
        · exact hRow (List.mem_singleton.mp hNew ▸ ha)
      · exact (hAll a ha).imp_right fun hOld => Organizer.mem_insertMessageTags.mpr (Or.inl hOld)
  | returned result =>
      cases result with
      | error e => trivial
      | ok result => exact Tagged.insert h [row]

theorem statement_of_bulkAdvance (h : BulkOk userId messageIds tagIds b.s b.phase)
    (hStep : b.advance userId messageIds tagIds = some b') :
    BulkStatement userId messageIds tagIds b b' := by
  cases hPhase : b.phase with
  | checking =>
      unfold BulkTagging.advance at hStep
      rw [hPhase] at hStep
      dsimp only at hStep
      split at hStep
      · cases hStep
        exact .goesOn _ trivial nofun
      · rename_i requested hRequested
        cases hStep
        exact .goesOn _ hRequested nofun
  | reading requested =>
      unfold BulkTagging.advance at hStep
      rw [hPhase] at hStep h
      dsimp only at hStep
      split at hStep
      · rename_i hNone
        cases hStep
        exact .returns [] List.nodup_nil nofun ⟨requested, h, missingAssignments_isEmpty.mp hNone⟩
      · cases hStep
        refine .goesOn _ ⟨h, ?_, nofun, fun a ha => ?_⟩ nofun
        · exact (requestedAssignments_ok h).1.filter _
        · by_cases hThere : a ∈ b.s.db.messageTags
          · exact Or.inr hThere
          · refine Or.inl (List.mem_filter.mpr ⟨ha, ?_⟩)
            rw [Bool.not_eq_true', ← Bool.not_eq_true, List.contains_iff_mem]
            exact hThere
  | inserting requested inserted remaining =>
      rw [hPhase] at h
      obtain ⟨hRequested, hNodup, hFree, hAll⟩ := h
      cases remaining with
      | nil =>
          unfold BulkTagging.advance at hStep
          rw [hPhase] at hStep
          cases hStep
          rw [List.append_nil] at hNodup
          refine .returns inserted hNodup hFree
            ⟨requested, (requestedAssignments_congr rfl rfl).trans hRequested, fun a ha => ?_⟩
          rw [Organizer.mem_insertMessageTags]
          have hHere := hAll a ha
          rw [List.append_nil] at hHere
          exact hHere.symm
      | cons row remaining =>
          unfold BulkTagging.advance at hStep
          rw [hPhase] at hStep
          dsimp only at hStep
          split at hStep
          · cases hStep
            exact .goesOn _ hRequested nofun
          · rename_i hNew
            cases hStep
            refine .goesOn _ ⟨hRequested, ?_, fun a ha => ?_, fun a ha => ?_⟩ nofun
            · rwa [List.append_assoc]
            · rcases List.mem_append.mp ha with hOld | hRow
              · exact hFree a hOld
              · rw [List.mem_singleton.mp hRow]
                exact fun hMem => hNew (List.contains_iff_mem.mpr hMem)
            · rw [List.append_assoc]
              exact hAll a ha
  | rereading requested =>
      unfold BulkTagging.advance at hStep
      rw [hPhase] at hStep h
      dsimp only at hStep
      split at hStep
      · rename_i hNone
        cases hStep
        exact .returns [] List.nodup_nil nofun ⟨requested, h, missingAssignments_isEmpty.mp hNone⟩
      · cases hStep
        exact .goesOn _ trivial nofun
  | returned result =>
      unfold BulkTagging.advance at hStep
      rw [hPhase] at hStep
      cases hStep

theorem bulkOk_step (h : BulkOk userId messageIds tagIds b.s b.phase)
    (hStep : b.step userId messageIds tagIds a = some b') :
    BulkOk userId messageIds tagIds b'.s b'.phase := by
  cases a with
  | advance =>
      cases statement_of_bulkAdvance h hStep with
      | goesOn phase hOk hGoesOn => exact hOk
      | returns added hNodup hFree hTagged => exact hTagged
  | assign row =>
      unfold BulkTagging.step at hStep
      dsimp only at hStep
      split at hStep
      · cases hStep
      · rename_i hRow
        cases hStep
        exact h.assign fun hMem => hRow (List.contains_iff_mem.mpr hMem)

theorem bulkReturned_step {result : Except TagError BulkTagResult}
    (hStep : b.step userId messageIds tagIds a = some b') (h : b.phase = .returned result) :
    b'.phase = .returned result := by
  cases a with
  | advance =>
      unfold BulkTagging.step BulkTagging.advance at hStep
      rw [h] at hStep
      cases hStep
  | assign row =>
      unfold BulkTagging.step at hStep
      dsimp only at hStep
      split at hStep
      · cases hStep
      · cases hStep
        exact h

/-- Assignments are only added. -/
theorem kept_step (h : BulkOk userId messageIds tagIds b.s b.phase)
    (hStep : b.step userId messageIds tagIds a = some b') (hRow : row ∈ b.s.db.messageTags) :
    row ∈ b'.s.db.messageTags := by
  cases a with
  | advance =>
      cases statement_of_bulkAdvance h hStep with
      | goesOn phase hOk hGoesOn => exact hRow
      | returns added hNodup hFree hTagged =>
          exact Organizer.mem_insertMessageTags.mpr (Or.inl hRow)
  | assign other =>
      unfold BulkTagging.step at hStep
      dsimp only at hStep
      split at hStep
      · cases hStep
      · cases hStep
        exact Organizer.mem_insertMessageTags.mpr (Or.inl hRow)

/-! ### When all is assigned -/

/-- A request that finds everything assigned has nothing to insert. -/
def BulkIdle (requested : List MessageTag) : BulkPhase → Prop
  | .checking => True
  | .reading requested' => requested' = requested
  | .returned result => result = .ok ⟨0, 0⟩
  | _ => False

structure BulkRepeats (userId : UserId) (messageIds tagIds : List Value)
    (requested : List MessageTag) (b : BulkTagging) : Prop where
  valid : requestedAssignments userId messageIds tagIds b.s = .ok requested
  all : ∀ a ∈ requested, a ∈ b.s.db.messageTags
  idle : BulkIdle requested b.phase

theorem repeats_step {requested : List MessageTag}
    (h : BulkRepeats userId messageIds tagIds requested b)
    (hStep : b.step userId messageIds tagIds a = some b') :
    BulkRepeats userId messageIds tagIds requested b' ∧ (a = .advance → b'.s = b.s) := by
  obtain ⟨hRequested, hAll, hIdle⟩ := h
  cases a with
  | advance =>
      unfold BulkTagging.step BulkTagging.advance at hStep
      dsimp only at hStep
      split at hStep
      · rw [hRequested] at hStep
        cases hStep
        exact ⟨⟨hRequested, hAll, rfl⟩, fun _ => rfl⟩
      · rename_i requested' hPhase
        rw [hPhase] at hIdle
        obtain rfl : requested' = requested := hIdle
        rw [if_pos (missingAssignments_isEmpty.mpr hAll)] at hStep
        cases hStep
        exact ⟨⟨hRequested, hAll, rfl⟩, fun _ => rfl⟩
      · rename_i hPhase
        rw [hPhase] at hIdle
        exact hIdle.elim
      · rename_i hPhase
        rw [hPhase] at hIdle
        exact hIdle.elim
      · rename_i hPhase
        rw [hPhase] at hIdle
        exact hIdle.elim
      · cases hStep
  | assign row =>
      unfold BulkTagging.step at hStep
      dsimp only at hStep
      split at hStep
      · cases hStep
      · cases hStep
        exact ⟨⟨(requestedAssignments_congr rfl rfl).trans hRequested, fun a ha =>
          Organizer.mem_insertMessageTags.mpr (Or.inl (hAll a ha)), hIdle⟩, nofun⟩

end Statements

/-! ## Runs -/

/-- Whatever the others add, the request adds the missing pairs in one step and counts them, or
does nothing; and done again it has nothing to do. -/
structure AtomicUnion (userId : UserId) (messageIds tagIds : List Value) (b₀ : BulkTagging)
    (as : List BulkAction) : Prop where
  assigned : ∀ b result, Visits (BulkTagging.step userId messageIds tagIds) b₀ as b →
    b.phase = .returned (.ok result) → ∀ v ∈ messageIds, ∀ v' ∈ tagIds,
      ∃ m t : Nat, v = .int m ∧ v' = .int t ∧ ⟨userId, m, t⟩ ∈ b.s.db.messageTags
  kept : ∀ b a b', StepOf (BulkTagging.step userId messageIds tagIds) b₀ as b a b' →
    ∀ row ∈ b.s.db.messageTags, row ∈ b'.s.db.messageTags
  counts : ∀ b b' result, StepOf (BulkTagging.step userId messageIds tagIds) b₀ as b .advance b' →
    b'.phase = .returned (.ok result) → ∃ added : List MessageTag, added.Nodup ∧
      (∀ row ∈ added, row ∉ b.s.db.messageTags) ∧
      (∀ row, row ∈ b'.s.db.messageTags ↔ row ∈ b.s.db.messageTags ∨ row ∈ added) ∧
      result.assignmentCount = added.length ∧
      result.updatedCount = (added.map MessageTag.messageId).dedup.length
  raises : ∀ e t, run (BulkTagging.step userId messageIds tagIds) b₀ as = some t →
    t.phase = .returned (.error e) →
      ∀ b b', StepOf (BulkTagging.step userId messageIds tagIds) b₀ as b .advance b' → b'.s = b.s
  repeated : ∀ result t, run (BulkTagging.step userId messageIds tagIds) b₀ as = some t →
    t.phase = .returned (.ok result) →
      ∀ bs b b', StepOf (BulkTagging.step userId messageIds tagIds) ⟨t.s, .checking⟩ bs b .advance b' →
        b'.s = b.s ∧ ∀ r, b'.phase = .returned r → r = .ok ⟨0, 0⟩

theorem eraseDups_length (ids : List MessageId) : ids.eraseDups.length = ids.dedup.length := by
  refine List.Perm.length_eq ((List.perm_ext_iff_of_nodup (nodup_eraseDups ids)
    (List.nodup_dedup ids)).mpr fun k => ?_)
  rw [List.mem_eraseDups, List.mem_dedup]

/-- For any assignments that racing requests add, bulk tagging is an atomic union with exact
counts. -/
theorem bulk_tagging (userId : UserId) (messageIds tagIds : List Value) (b₀ : BulkTagging)
    (as : List BulkAction) (hStart : b₀.phase = .checking) :
    AtomicUnion userId messageIds tagIds b₀ as := by
  have hOk (b : BulkTagging)
      (h : Visits (BulkTagging.step userId messageIds tagIds) b₀ as b) :
      BulkOk userId messageIds tagIds b.s b.phase := by
    refine visits_induct (I := fun b => BulkOk userId messageIds tagIds b.s b.phase) ?_ h
      fun x a y hStep hx => bulkOk_step hx hStep.step
    rw [hStart]
    trivial
  constructor
  · intro b result hVisit hReturned
    have h := hOk b hVisit
    rw [hReturned] at h
    obtain ⟨requested, hRequested, hAll⟩ := h
    intro v hv v' hv'
    obtain ⟨m, t, hm, ht, hMem⟩ := (requestedAssignments_ok hRequested).2 v hv v' hv'
    exact ⟨m, t, hm, ht, hAll _ hMem⟩
  · intro b a b' hStep row hRow
    exact kept_step (hOk b hStep.before) hStep.step hRow
  · intro b b' result hStep hReturned
    cases statement_of_bulkAdvance (hOk b hStep.before) hStep.step with
    | goesOn phase hGoes hGoesOn => exact absurd hReturned (hGoesOn result)
    | returns added hNodup hFree hTagged =>
        obtain rfl := Except.ok.inj (BulkPhase.returned.inj hReturned)
        exact ⟨added, hNodup, hFree, fun row => Organizer.mem_insertMessageTags, rfl,
          eraseDups_length _⟩
  · intro e t hRun hRaised b b' hStep
    have hStays (r : Except TagError BulkTagResult) (h : b'.phase = .returned r) :
        t.phase = .returned r :=
      hStep.invariant hRun (fun _ _ _ hNext => bulkReturned_step hNext) h
    cases statement_of_bulkAdvance (hOk b hStep.before) hStep.step with
    | goesOn phase hGoes hGoesOn => rfl
    | returns added hNodup hFree hTagged => cases (hStays _ rfl).symm.trans hRaised
  · intro result t hRun hReturned bs b b' hStep
    have h := hOk t (visits_end hRun)
    rw [hReturned] at h
    obtain ⟨requested, hRequested, hAll⟩ := h
    have hAgain : BulkRepeats userId messageIds tagIds requested ⟨t.s, .checking⟩ :=
      ⟨hRequested, hAll, trivial⟩
    have hRepeats : BulkRepeats userId messageIds tagIds requested b :=
      visits_induct hAgain hStep.before fun x a y hStep hx => (repeats_step hx hStep.step).1
    obtain ⟨hAfter, hSame⟩ := repeats_step hRepeats hStep.step
    refine ⟨hSame rfl, fun r hr => ?_⟩
    have hIdle := hAfter.idle
    rw [hr] at hIdle
    exact hIdle

/-! ### Two messages, two tags -/

def twoTags : List Tag := [oneTag "first".toList "first".toList,
  { oneTag "second".toList "second".toList with id := 2 }]

/-- Nothing is assigned. -/
def untaggedLibrary : Organizer :=
  { noteLibrary 3 with
    tags := ⟨twoTags, by decide⟩
    nextTagId := 3
    tagIds_fresh := (by decide : ∀ t ∈ twoTags, t.id < 3) }

def bulkIds : List Value := [.int 1, .int 2, .int 1]

def bulkAfter (as : List BulkAction) : BulkTagging :=
  (run (BulkTagging.step 1 bulkIds bulkIds) ⟨untaggedLibrary, .checking⟩ as).getD
    ⟨untaggedLibrary, .checking⟩

/-- Another request tags a message after the read, so that the third insert fails. -/
def tagsMeanwhile : List BulkAction :=
  List.replicate 2 .advance ++ [.assign ⟨1, 2, 1⟩] ++ List.replicate 4 .advance

theorem bulk_tagging_conflicts :
    AtomicUnion 1 bulkIds bulkIds ⟨untaggedLibrary, .checking⟩ tagsMeanwhile ∧
      (bulkAfter tagsMeanwhile).phase =
        .returned (.error (.tagConflict "Tag assignments changed concurrently.")) ∧
      (bulkAfter tagsMeanwhile).s.db.messageTags.rows = [⟨1, 2, 1⟩] ∧
      (bulkAfter (List.replicate 7 .advance)).phase = .returned (.ok ⟨2, 4⟩) :=
  ⟨bulk_tagging 1 bulkIds bulkIds ⟨untaggedLibrary, .checking⟩ tagsMeanwhile rfl,
    by decide +kernel, by decide +kernel, by decide +kernel⟩

/-! ### Without the others -/

section Alone

variable {userId : UserId} {messageIds tagIds : List Value} {s : Organizer}

/-- The insertions one after the other, and the commit. -/
theorem runFor_inserting {requested inserted remaining : List MessageTag}
    (hFree : ∀ a ∈ remaining, a ∉ s.db.messageTags) :
    runFor (BulkTagging.advance userId messageIds tagIds) (remaining.length + 1)
        ⟨s, .inserting requested inserted remaining⟩ =
      { s := s.insertMessageTags (inserted ++ remaining)
        phase := .returned (.ok
          ⟨((inserted ++ remaining).map MessageTag.messageId).eraseDups.length,
            (inserted ++ remaining).length⟩) } := by
  induction remaining generalizing inserted with
  | nil =>
      rw [List.append_nil]
      exact runFor_succ rfl
  | cons row remaining ih =>
      have hRow : ¬ s.db.messageTags.rows.contains row = true := fun hMem =>
        hFree row List.mem_cons_self (List.contains_iff_mem.mp hMem)
      have hNext : BulkTagging.advance userId messageIds tagIds
          ⟨s, .inserting requested inserted (row :: remaining)⟩ =
            some ⟨s, .inserting requested (inserted ++ [row]) remaining⟩ := by
        simp only [BulkTagging.advance, if_neg hRow]
      rw [List.length_cons, runFor_succ hNext,
        ih fun a ha => hFree a (List.mem_cons_of_mem row ha), List.append_assoc,
        List.singleton_append]

theorem checkBulkAdd_eq : checkBulkAdd userId messageIds tagIds s =
    (requestedAssignments userId messageIds tagIds s).map (missingAssignments s) := by
  unfold checkBulkAdd requestedAssignments
  cases normalizeMessageIds messageIds with
  | error e => rfl
  | ok ids => cases normalizeTagIds tagIds with
    | error e => rfl
    | ok ids' =>
        dsimp only
        cases TagService.loadMessagesByIds userId s ids with
        | error e => rfl
        | ok messages =>
            dsimp only
            cases loadTagsByIds userId s ids' with
            | error e => rfl
            | ok tags =>
                refine congrArg Except.ok (List.filter_congr fun a ha => ?_)
                obtain ⟨m, -, ha⟩ := List.mem_flatMap.mp ha
                obtain ⟨t, -, rfl⟩ := List.mem_map.mp ha
                rw [isAssigned, List.contains_eq_any_beq]
                simp only [Bool.beq_comm]

/-- When nobody else tags, the statements are the request as a whole. -/
theorem bulk_alone (userId : UserId) (messageIds tagIds : List Value) (s : Organizer) :
    ∃ n, runFor (BulkTagging.advance userId messageIds tagIds) n ⟨s, .checking⟩ =
      { s := (bulkAddTagsToMessages userId messageIds tagIds s).2
        phase := .returned (bulkAddTagsToMessages userId messageIds tagIds s).1 } := by
  cases hRequested : requestedAssignments userId messageIds tagIds s with
  | error e =>
      have hCheck : checkBulkAdd userId messageIds tagIds s = .error e := by
        rw [checkBulkAdd_eq, hRequested]
        rfl
      refine ⟨1, ?_⟩
      rw [bulkAddTagsToMessages, Organizer.transaction_error hCheck]
      exact runFor_succ (by simp only [BulkTagging.advance, hRequested])
  | ok requested =>
      have hCheck : checkBulkAdd userId messageIds tagIds s =
          .ok (missingAssignments s requested) := by
        rw [checkBulkAdd_eq, hRequested]
        rfl
      have hFirst : BulkTagging.advance userId messageIds tagIds ⟨s, .checking⟩ =
          some ⟨s, .reading requested⟩ := by
        simp only [BulkTagging.advance, hRequested]
      rw [bulkAddTagsToMessages, Organizer.transaction_ok hCheck]
      by_cases hNone : (missingAssignments s requested).isEmpty = true
      · refine ⟨2, ?_⟩
        rw [runFor_succ hFirst, runFor_succ (t := ⟨s, .returned (.ok ⟨0, 0⟩)⟩)
          (by simp only [BulkTagging.advance, if_pos hNone]), List.isEmpty_iff.mp hNone]
        rfl
      · refine ⟨(missingAssignments s requested).length + 1 + 1 + 1, ?_⟩
        rw [runFor_succ hFirst,
          runFor_succ (t := ⟨s, .inserting requested [] (missingAssignments s requested)⟩)
            (by simp only [BulkTagging.advance, if_neg hNone]), runFor_inserting]
        · rfl
        · intro a ha hMem
          have hMissing := (List.mem_filter.mp ha).2
          rw [Bool.not_eq_true', ← Bool.not_eq_true, List.contains_iff_mem] at hMissing
          exact hMissing hMem

end Alone

end SavedOrganizer
