import SavedOrganizer.Accounts.Requests

/-!
# The end of an account

Deleting a row of `users` takes the rows of the user along, table by table. The tables come in the
order in which the database follows its foreign keys, and the one from messages to categories is
`RESTRICT`: where it is checked at once, a deletion fails if the categories come first and one of
them has a message left. A check after the cascades finds no message of the user.

`Emptied` says what some of the tables leave, whatever their order, and `cascade_iff` when they get
to the end.
-/

namespace SavedOrganizer

/-- A message without a marker of the user's jobs. -/
def unmarked (userId : UserId) (jobs : Table ScanJob) (m : Message) : Message :=
  if markedByUser userId jobs m then m.unmark else m

/-- The assignment is to a message of the user. -/
def ofMessage (userId : UserId) (s : Organizer) (a : MessageTag) : Bool :=
  (s.db.messages.find? a.messageId).any fun m => m.userId == a.userId && m.userId == userId

/-- The assignment is of a tag of the user. -/
def ofTag (userId : UserId) (s : Organizer) (a : MessageTag) : Bool :=
  s.tags.rows.any fun t => t.userId == userId && t.userId == a.userId && t.id == a.tagId

/-- A message of the user is filed in a category of the user. -/
def FiledMessage (userId : UserId) (s : Organizer) : Prop :=
  ∃ m ∈ s.db.messages, m.userId = userId ∧
    ∃ c ∈ s.db.categories, c.userId = userId ∧ c.id = m.categoryId

/-- What is left after some of the tables. -/
structure Emptied (userId : UserId) (tables : List OwnedTable) (s t : Organizer) : Prop where
  connections : ∀ r, r ∈ t.db.connections ↔
    r ∈ s.db.connections ∧ (.telegramConnections ∈ tables → r.userId ≠ userId)
  jobs : ∀ r, r ∈ t.db.jobs ↔ r ∈ s.db.jobs ∧ (.scanJobs ∈ tables → r.userId ≠ userId)
  categories : ∀ r, r ∈ t.db.categories ↔
    r ∈ s.db.categories ∧ (.categories ∈ tables → r.userId ≠ userId)
  messages : ∀ r, r ∈ t.db.messages ↔ ∃ m ∈ s.db.messages,
    (.messages ∈ tables → m.userId ≠ userId) ∧
      (if .scanJobs ∈ tables then unmarked userId s.db.jobs m else m) = r
  messageTags : ∀ a, a ∈ t.db.messageTags ↔ a ∈ s.db.messageTags ∧
    (.messages ∈ tables → ofMessage userId s a = false) ∧
      (.tags ∈ tables → ofTag userId s a = false)
  tags : ∀ r, r ∈ t.tags ↔ r ∈ s.tags ∧ (.tags ∈ tables → r.userId ≠ userId)

section Cascade

variable {atOnce : Bool} {userId : UserId} {s t : Organizer} {table : OwnedTable}
  {tables : List OwnedTable}

@[simp] theorem unmarked_id (jobs : Table ScanJob) (m : Message) :
    (unmarked userId jobs m).id = m.id := by
  unfold unmarked
  split <;> rfl

@[simp] theorem unmarked_userId (jobs : Table ScanJob) (m : Message) :
    (unmarked userId jobs m).userId = m.userId := by
  unfold unmarked
  split <;> rfl

@[simp] theorem unmarked_categoryId (jobs : Table ScanJob) (m : Message) :
    (unmarked userId jobs m).categoryId = m.categoryId := by
  unfold unmarked
  split <;> rfl

theorem ofMessage_iff {a : MessageTag} : ofMessage userId s a = true ↔
    ∃ m ∈ s.db.messages, m.id = a.messageId ∧ m.userId = a.userId ∧ m.userId = userId := by
  unfold ofMessage
  rw [Option.any_eq_true]
  constructor
  · rintro ⟨m, hFind, hOwner⟩
    rw [Bool.and_eq_true, beq_iff_eq, beq_iff_eq] at hOwner
    exact ⟨m, Table.mem_of_find? hFind, Table.key_of_find? hFind, hOwner⟩
  · rintro ⟨m, hm, hId, hOwner⟩
    refine ⟨m, Table.find?_eq_some.mpr ⟨hm, hId⟩, ?_⟩
    rw [Bool.and_eq_true, beq_iff_eq, beq_iff_eq]
    exact hOwner

theorem ofTag_iff {a : MessageTag} : ofTag userId s a = true ↔
    ∃ t ∈ s.tags, t.userId = userId ∧ t.userId = a.userId ∧ t.id = a.tagId := by
  simp only [ofTag, List.any_eq_true, Bool.and_eq_true, beq_iff_eq, and_assoc]
  exact Iff.rfl

section Rows

variable {ρ κ : Type} [Keyed ρ κ] {rows : Table ρ} {owner : ρ → UserId} {r : ρ}

theorem mem_deleted : r ∈ rows.delete (fun r => owner r == userId) ↔
    r ∈ rows ∧ (table ∈ [table] → owner r ≠ userId) := by
  rw [Table.mem_delete, beq_eq_false_iff_ne]
  exact and_congr_right fun _ => ⟨fun h _ => h, fun h => h (List.mem_singleton_self _)⟩

theorem mem_kept {p : Prop} (hOther : table ∉ tables) : r ∈ rows ↔ r ∈ rows ∧ (table ∈ tables → p) :=
  ⟨fun h => ⟨h, fun hMem => absurd hMem hOther⟩, And.left⟩

end Rows

theorem mem_messages_kept {jobs : Table ScanJob} {rows : Table Message} {m : Message}
    (hMessages : .messages ∉ tables) (hJobs : .scanJobs ∉ tables) : m ∈ rows ↔ ∃ old ∈ rows,
      (OwnedTable.messages ∈ tables → old.userId ≠ userId) ∧
        (if OwnedTable.scanJobs ∈ tables then unmarked userId jobs old else old) = m := by
  simp only [hMessages, hJobs, if_false, false_implies, true_and, exists_eq_right]

theorem mem_assignments_kept {rows : Table MessageTag} {a : MessageTag} {p q : Prop}
    (hMessages : .messages ∉ tables) (hTags : .tags ∉ tables) : a ∈ rows ↔ a ∈ rows ∧
      (OwnedTable.messages ∈ tables → p) ∧ (OwnedTable.tags ∈ tables → q) := by
  simp only [hMessages, hTags, false_implies, and_true]

/-- One table. -/
theorem emptied_single (h : s.cascade atOnce userId table = some t) : Emptied userId [table] s t := by
  cases table with
  | webSessions | scanStreamSlots =>
      obtain rfl := Option.some.inj h
      exact ⟨fun _ => mem_kept (by decide), fun _ => mem_kept (by decide),
        fun _ => mem_kept (by decide), fun _ => mem_messages_kept (by decide) (by decide),
        fun _ => mem_assignments_kept (by decide) (by decide), fun _ => mem_kept (by decide)⟩
  | telegramConnections =>
      obtain rfl := Option.some.inj h
      exact ⟨fun _ => mem_deleted, fun _ => mem_kept (by decide), fun _ => mem_kept (by decide),
        fun _ => mem_messages_kept (by decide) (by decide),
        fun _ => mem_assignments_kept (by decide) (by decide), fun _ => mem_kept (by decide)⟩
  | scanJobs =>
      obtain rfl := Option.some.inj h
      refine ⟨fun _ => mem_kept (by decide), fun _ => mem_deleted, fun _ => mem_kept (by decide),
        fun m => ?_, fun _ => mem_assignments_kept (by decide) (by decide),
        fun _ => mem_kept (by decide)⟩
      refine (@Organizer.mem_updateMessages s _ Message.unmark (fun _ => rfl) m).trans
        (exists_congr fun old => and_congr_right fun _ => ?_)
      rw [if_pos (List.mem_singleton_self _)]
      exact ⟨fun hEq => ⟨fun hMem => absurd hMem (by decide), hEq⟩, And.right⟩
  | categories =>
      unfold Organizer.cascade at h
      dsimp only at h
      split at h
      · cases h
      · obtain rfl := Option.some.inj h
        exact ⟨fun _ => mem_kept (by decide), fun _ => mem_kept (by decide), fun _ => mem_deleted,
          fun _ => mem_messages_kept (by decide) (by decide),
          fun _ => mem_assignments_kept (by decide) (by decide), fun _ => mem_kept (by decide)⟩
  | messages =>
      obtain rfl := Option.some.inj h
      refine ⟨fun _ => mem_kept (by decide), fun _ => mem_kept (by decide),
        fun _ => mem_kept (by decide), fun m => ?_, fun a => ?_, fun _ => mem_kept (by decide)⟩
      · show m ∈ s.db.messages.delete (·.userId == userId) ↔ _
        rw [@mem_deleted userId .messages]
        refine ⟨fun ⟨hm, hOther⟩ => ⟨m, hm, hOther, if_neg (by decide)⟩, ?_⟩
        rintro ⟨old, hOld, hOther, rfl⟩
        exact ⟨hOld, hOther⟩
      · refine Table.mem_delete.trans (and_congr_right fun _ => ?_)
        exact ⟨fun hKept => ⟨fun _ => hKept, fun hMem => absurd hMem (by decide)⟩,
          fun hKept => hKept.1 (List.mem_singleton_self _)⟩
  | tags =>
      obtain rfl := Option.some.inj h
      refine ⟨fun _ => mem_kept (by decide), fun _ => mem_kept (by decide),
        fun _ => mem_kept (by decide), fun _ => mem_messages_kept (by decide) (by decide),
        fun a => ?_, fun _ => mem_deleted⟩
      refine Table.mem_delete.trans (and_congr_right fun _ => ?_)
      exact ⟨fun hKept => ⟨fun hMem => absurd hMem (by decide), fun _ => hKept⟩,
        fun hKept => hKept.2 (List.mem_singleton_self _)⟩

/-! ## Table after table -/

section Compose

variable {u : Organizer}

theorem mem_cons_table {table' : OwnedTable} {p : Prop} :
    ((table' = table → p) ∧ (table' ∈ tables → p)) ↔ (table' ∈ table :: tables → p) := by
  rw [List.mem_cons, or_imp]

/-- A table other than the messages keeps each of them, but for its marker. -/
theorem Emptied.messages_alike (h : Emptied userId [table] s u) (hTable : table ≠ .messages)
    (p : MessageId → UserId → CategoryId → Prop) :
    (∃ m ∈ u.db.messages, p m.id m.userId m.categoryId) ↔
      ∃ m ∈ s.db.messages, p m.id m.userId m.categoryId := by
  have hOther : OwnedTable.messages ∉ [table] :=
    fun hMem => hTable (List.mem_singleton.mp hMem).symm
  have hAlike (m : Message) : p m.id m.userId m.categoryId ↔
      p (if .scanJobs ∈ [table] then unmarked userId s.db.jobs m else m).id
        (if .scanJobs ∈ [table] then unmarked userId s.db.jobs m else m).userId
        (if .scanJobs ∈ [table] then unmarked userId s.db.jobs m else m).categoryId := by
    split
    · rw [unmarked_id, unmarked_userId, unmarked_categoryId]
    · exact Iff.rfl
  constructor
  · rintro ⟨m, hm, hp⟩
    obtain ⟨old, hOld, -, rfl⟩ := (h.messages m).mp hm
    exact ⟨old, hOld, (hAlike old).mpr hp⟩
  · rintro ⟨m, hm, hp⟩
    exact ⟨_, (h.messages _).mpr ⟨m, hm, fun hIn => absurd hIn hOther, rfl⟩, (hAlike m).mp hp⟩

theorem Emptied.ofMessage_eq (h : Emptied userId [table] s u) (hTable : table ≠ .messages)
    (a : MessageTag) : ofMessage userId u a = ofMessage userId s a := by
  rw [Bool.eq_iff_iff, ofMessage_iff, ofMessage_iff]
  exact h.messages_alike hTable fun id owner _ =>
    id = a.messageId ∧ owner = a.userId ∧ owner = userId

theorem Emptied.ofTag_eq (h : Emptied userId [table] s u) (hTable : table ≠ .tags)
    (a : MessageTag) : ofTag userId u a = ofTag userId s a := by
  have hMem : OwnedTable.tags ∉ [table] := fun hMem => hTable (List.mem_singleton.mp hMem).symm
  have hTags (t : Tag) : t ∈ u.tags ↔ t ∈ s.tags :=
    (h.tags t).trans (and_iff_left fun hIn => absurd hIn hMem)
  rw [Bool.eq_iff_iff, ofTag_iff, ofTag_iff]
  exact exists_congr fun t => and_congr_left' (hTags t)

theorem markedByUser_iff {jobs : Table ScanJob} {m : Message} : markedByUser userId jobs m = true ↔
    ∃ j ∈ jobs, m.lastSeenReplacementJobId = some j.id ∧ j.userId = userId := by
  simp only [markedByUser, Option.any_eq_true, beq_iff_eq]
  constructor
  · rintro ⟨id, hId, j, hFind, hOwner⟩
    obtain rfl := Table.key_of_find? hFind
    exact ⟨j, Table.mem_of_find? hFind, hId, hOwner⟩
  · rintro ⟨j, hj, hId, hOwner⟩
    exact ⟨j.id, hId, j, Table.find?_key hj, hOwner⟩

theorem Emptied.unmarked_eq (h : Emptied userId [table] s u) (hTable : table ≠ .scanJobs)
    (m : Message) : unmarked userId u.db.jobs m = unmarked userId s.db.jobs m := by
  have hMem : OwnedTable.scanJobs ∉ [table] := fun hMem => hTable (List.mem_singleton.mp hMem).symm
  have hJobs (j : ScanJob) : j ∈ u.db.jobs ↔ j ∈ s.db.jobs :=
    (h.jobs j).trans (and_iff_left fun hIn => absurd hIn hMem)
  have hMarked : markedByUser userId u.db.jobs m = markedByUser userId s.db.jobs m := by
    rw [Bool.eq_iff_iff, markedByUser_iff, markedByUser_iff]
    exact exists_congr fun j => and_congr_left' (hJobs j)
  rw [unmarked, unmarked, hMarked]

theorem Emptied.cons (h : Emptied userId [table] s u) (h' : Emptied userId tables u t)
    (hNew : table ∉ tables) : Emptied userId (table :: tables) s t where
  connections r := by
    rw [h'.connections, h.connections, and_assoc, List.mem_singleton, mem_cons_table]
  jobs r := by rw [h'.jobs, h.jobs, and_assoc, List.mem_singleton, mem_cons_table]
  categories r := by rw [h'.categories, h.categories, and_assoc, List.mem_singleton, mem_cons_table]
  tags r := by rw [h'.tags, h.tags, and_assoc, List.mem_singleton, mem_cons_table]
  messageTags a := by
    have hMessages : (OwnedTable.messages ∈ tables → ofMessage userId u a = false) ↔
        (OwnedTable.messages ∈ tables → ofMessage userId s a = false) := by
      refine imp_congr_right fun hIn => ?_
      rw [h.ofMessage_eq (fun hEq => hNew (hEq ▸ hIn)) a]
    have hTags : (OwnedTable.tags ∈ tables → ofTag userId u a = false) ↔
        (OwnedTable.tags ∈ tables → ofTag userId s a = false) := by
      refine imp_congr_right fun hIn => ?_
      rw [h.ofTag_eq (fun hEq => hNew (hEq ▸ hIn)) a]
    rw [h'.messageTags, h.messageTags, hMessages, hTags]
    simp only [List.mem_cons, List.not_mem_nil, or_false, or_imp]
    tauto
  messages r := by
    have hOwner (m : Message) :
        (if .scanJobs ∈ [table] then unmarked userId s.db.jobs m else m).userId = m.userId := by
      split
      · exact unmarked_userId _ m
      · rfl
    have hMarker (m : Message) : (if .scanJobs ∈ tables then unmarked userId u.db.jobs
          (if .scanJobs ∈ [table] then unmarked userId s.db.jobs m else m)
        else if .scanJobs ∈ [table] then unmarked userId s.db.jobs m else m) =
        if .scanJobs ∈ table :: tables then unmarked userId s.db.jobs m else m := by
      by_cases hTable : table = .scanJobs
      · subst hTable
        rw [if_neg hNew, if_pos (List.mem_singleton_self _), if_pos List.mem_cons_self]
      · have hMem : OwnedTable.scanJobs ∉ [table] :=
          fun hMem => hTable (List.mem_singleton.mp hMem).symm
        rw [if_neg hMem, h.unmarked_eq hTable]
        exact if_congr (List.mem_cons.trans (or_iff_right fun hEq => hTable hEq.symm)).symm rfl rfl
    rw [h'.messages]
    constructor
    · rintro ⟨m, hm, hOther, rfl⟩
      obtain ⟨old, hOld, hFirst, rfl⟩ := (h.messages m).mp hm
      rw [hOwner] at hOther
      exact ⟨old, hOld, mem_cons_table.mp ⟨fun hEq => hFirst (hEq ▸ List.mem_singleton_self _), hOther⟩,
        (hMarker old).symm⟩
    · rintro ⟨old, hOld, hOther, rfl⟩
      obtain ⟨hFirst, hRest⟩ := mem_cons_table.mpr hOther
      refine ⟨_, (h.messages _).mpr ⟨old, hOld, fun hIn => hFirst (List.mem_singleton.mp hIn), rfl⟩,
        ?_, hMarker old⟩
      rw [hOwner]
      exact hRest

/-- Some of the tables, each of them once. -/
theorem emptied_of_cascade (hNodup : tables.Nodup)
    (h : tables.foldlM (Organizer.cascade atOnce userId) s = some t) : Emptied userId tables s t := by
  induction tables generalizing s with
  | nil =>
      obtain rfl := Option.some.inj h
      exact ⟨fun _ => mem_kept List.not_mem_nil, fun _ => mem_kept List.not_mem_nil,
        fun _ => mem_kept List.not_mem_nil,
        fun _ => mem_messages_kept List.not_mem_nil List.not_mem_nil,
        fun _ => mem_assignments_kept List.not_mem_nil List.not_mem_nil,
        fun _ => mem_kept List.not_mem_nil⟩
  | cons table tables ih =>
      obtain ⟨hNew, hRest⟩ := List.nodup_cons.mp hNodup
      rw [List.foldlM_cons] at h
      obtain ⟨u, hu, hTail⟩ := Option.bind_eq_some_iff.mp h
      exact (emptied_single hu).cons (ih hRest hTail) hNew

/-! ## Where it stops -/

theorem refersTo_iff {categories : Table Category} : s.refersTo userId categories = true ↔
    ∃ m ∈ s.db.messages, m.userId = userId ∧
      ∃ c ∈ categories, c.userId = userId ∧ c.id = m.categoryId := by
  simp only [Organizer.refersTo, List.any_eq_true, Bool.and_eq_true, beq_iff_eq]
  exact Iff.rfl

theorem cascade_eq_none : s.cascade atOnce userId table = none ↔
    atOnce = true ∧ table = .categories ∧ FiledMessage userId s := by
  cases table with
  | categories =>
      unfold Organizer.cascade
      dsimp only
      rw [ite_eq_left_iff, Bool.and_eq_true, refersTo_iff]
      simp only [reduceCtorEq, imp_false, not_not, true_and]
      exact Iff.rfl
  | _ => simp [Organizer.cascade]

/-- A check after the cascades finds nothing. -/
theorem Emptied.not_refersTo (h : Emptied userId tables s t) (hMessages : .messages ∈ tables)
    (categories : Table Category) : t.refersTo userId categories = false := by
  refine Bool.eq_false_iff.mpr fun hRefers => ?_
  obtain ⟨m, hm, hOwner, -⟩ := refersTo_iff.mp hRefers
  obtain ⟨old, -, hOther, rfl⟩ := (h.messages m).mp hm
  refine hOther hMessages ?_
  split at hOwner
  · exact (unmarked_userId _ old).symm.trans hOwner
  · exact hOwner

/-- Whether a message is filed is changed only by the messages and the categories. -/
theorem Emptied.filed_iff (h : Emptied userId [table] s u) (hMessages : table ≠ .messages)
    (hCategories : table ≠ .categories) : FiledMessage userId u ↔ FiledMessage userId s := by
  have hMem : OwnedTable.categories ∉ [table] :=
    fun hMem => hCategories (List.mem_singleton.mp hMem).symm
  have hSame (c : Category) : c ∈ u.db.categories ↔ c ∈ s.db.categories :=
    (h.categories c).trans (and_iff_left fun hIn => absurd hIn hMem)
  refine (h.messages_alike hMessages fun _ owner category => owner = userId ∧
    ∃ c ∈ u.db.categories, c.userId = userId ∧ c.id = category).trans ?_
  simp only [hSame]
  exact Iff.rfl

/-- The cascades get to their end, unless `RESTRICT` is checked at once, the categories come before
the messages, and one of these is still filed. -/
theorem cascade_iff (hNodup : tables.Nodup) :
    (∃ t, tables.foldlM (Organizer.cascade atOnce userId) s = some t) ↔
      (atOnce = true → .categories ∈ tables →
        tables.idxOf .messages < tables.idxOf .categories ∨ ¬ FiledMessage userId s) := by
  induction tables generalizing s with
  | nil => simp
  | cons table tables ih =>
      obtain ⟨hNew, hRest⟩ := List.nodup_cons.mp hNodup
      rw [List.foldlM_cons]
      cases hStep : s.cascade atOnce userId table with
      | none =>
          obtain ⟨hAtOnce, rfl, hFiled⟩ := cascade_eq_none.mp hStep
          refine ⟨fun ⟨_, h⟩ => (by cases h), fun h => ?_⟩
          rcases h hAtOnce List.mem_cons_self with hLt | hNot
          · rw [List.idxOf_cons_self] at hLt
            exact absurd hLt (Nat.not_lt_zero _)
          · exact absurd hFiled hNot
      | some u =>
          have hEmptied := emptied_single hStep
          refine (ih (s := u) hRest).trans (imp_congr_right fun hAtOnce => ?_)
          by_cases hCategories : table = .categories
          · subst hCategories
            refine ⟨fun _ _ => Or.inr fun hFiled => ?_, fun _ hIn => absurd hIn hNew⟩
            rw [cascade_eq_none.mpr ⟨hAtOnce, rfl, hFiled⟩] at hStep
            cases hStep
          · by_cases hMessages : table = .messages
            · subst hMessages
              refine ⟨fun _ _ => Or.inl ?_, fun _ _ => Or.inr ?_⟩
              · rw [List.idxOf_cons_self, List.idxOf_cons_ne _ (by decide)]
                exact Nat.succ_pos _
              · rintro ⟨m, hm, hOwner, -⟩
                obtain ⟨old, -, hOther, rfl⟩ := (hEmptied.messages m).mp hm
                rw [if_neg (by decide)] at hOwner
                exact hOther (List.mem_singleton_self _) hOwner
            · have hOther : OwnedTable.categories ≠ table := fun hEq => hCategories hEq.symm
              rw [List.mem_cons, or_iff_right hOther, List.idxOf_cons_ne _ hMessages,
                List.idxOf_cons_ne _ hCategories, Nat.succ_lt_succ_iff, hEmptied.filed_iff hMessages hCategories]

end Compose

end Cascade

end SavedOrganizer
