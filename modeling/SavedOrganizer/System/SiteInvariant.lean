import SavedOrganizer.Accounts.Deletion
import SavedOrganizer.Messages.Kinds
import SavedOrganizer.System.AccountRequests

/-!
# What holds in every state of the API

Sessions belong to users, every session row has the hash of the CSRF token that was drawn with it, no
user has more active sessions than there may be, and every user has the eight built-in categories.
`SiteInv` is kept by each part of a request.
-/

namespace SavedOrganizer

open Transition

/-! ## Accounts -/

/-- A change of the accounts: a call of the service, or one that leaves no new session. -/
inductive AccountsChange (env : AccountEnv) (s : Accounts) : Accounts → Prop
  | performed (action : AccountAction) : AccountsChange env s (s.perform env action).1
  | fewer {t : Accounts} (hRows : ∀ row ∈ t.sessions, row ∈ s.sessions) (hNow : t.now = s.now)
      (hToken : t.nextToken = s.nextToken) (hSession : t.nextSession = s.nextSession) :
      AccountsChange env s t

section Change

variable {env : AccountEnv} {s t : Accounts}

theorem AccountsChange.refl (env : AccountEnv) (s : Accounts) : AccountsChange env s s :=
  .fewer (fun _ h => h) rfl rfl rfl

theorem AccountsChange.sessionInv (h : AccountsChange env s t) (hInv : SessionInv env s) :
    SessionInv env t := by
  cases h with
  | performed action => exact sessionInv_step rfl hInv
  | fewer hRows hNow hToken hSession =>
      exact ⟨fun row hRow => hInv.idle_le row (hRows row hRow),
        fun row hRow => hToken ▸ hInv.drawn row (hRows row hRow),
        fun row hRow row' hRow' => hInv.unique row (hRows row hRow) row' (hRows row' hRow')⟩

theorem AccountsChange.bounded (h : AccountsChange env s t)
    (hBound : ∀ user, s.activeSessions user ≤ env.maxActiveSessions) (user : UserId) :
    t.activeSessions user ≤ env.maxActiveSessions := by
  cases h with
  | performed action => exact active_le_step rfl hBound
  | fewer hRows hNow hToken hSession =>
      refine Nat.le_trans (Table.count_le_of_origin fun row hRow hActive => ?_) (hBound user)
      exact ⟨row, hRows row hRow, hNow ▸ hActive, rfl⟩

/-- No session is idle for longer than it may be. -/
def IdleBounded (env : AccountEnv) (s : Accounts) : Prop :=
  ∀ row ∈ s.sessions, row.idleExpiresAt ≤ s.now + seconds env.sessionIdleSeconds

theorem AccountsChange.idle (h : AccountsChange env s t) (hIdle : IdleBounded env s) :
    IdleBounded env t := by
  cases h with
  | performed action =>
      intro row' hRow'
      have hNow : s.now ≤ (s.perform env action).1.now := @now_le env s _ action rfl
      refine Nat.le_trans ?_ (Nat.add_le_add_right hNow _)
      rcases row_origin rfl hRow' with ⟨row, hRow, hAfter⟩ | ⟨-, -, _, _, rfl⟩
      · cases hAfter with
        | same => exact hIdle _ hRow
        | revoked => exact hIdle row hRow
        | touched => exact Nat.min_le_left _ _
      · exact Nat.le_refl _
  | fewer hRows hNow hToken hSession =>
      intro row hRow
      rw [hNow]
      exact hIdle row (hRows row hRow)

/-- A session after a change was there before, with the same token, or is the next one. -/
theorem AccountsChange.origin (h : AccountsChange env s t) {row' : WebSession}
    (hRow' : row' ∈ t.sessions) :
    (∃ row ∈ s.sessions, row'.id = row.id ∧ row'.tokenHash = row.tokenHash) ∨
      row'.id = s.nextSession ∧ row'.tokenHash = env.hashToken s.nextToken := by
  cases h with
  | performed action =>
      rcases row_origin rfl hRow' with ⟨row, hRow, hAfter⟩ | ⟨-, -, _, _, rfl⟩
      · exact Or.inl ⟨row, hRow, hAfter.fixed.1, hAfter.fixed.2.2.1⟩
      · exact Or.inr ⟨rfl, rfl⟩
  | fewer hRows hNow hToken hSession => exact Or.inl ⟨row', hRows row' hRow', rfl, rfl⟩

end Change

/-! ## Registration and deletion -/

section Users

variable {env : ApiEnv} {s t : Site}

/-- The rows of a new user. -/
structure Registered (env : ApiEnv) (s t : Site) : Prop where
  sessions : t.accounts.sessions = s.accounts.sessions
  now : t.accounts.now = s.accounts.now
  nextToken : t.accounts.nextToken = s.accounts.nextToken
  nextSession : t.accounts.nextSession = s.accounts.nextSession
  nextUser : t.nextUser = s.nextUser + 1
  csrf : t.csrfTokenHash = s.csrfTokenHash
  others : ∀ id, id ≠ s.nextUser → t.accounts.users.find? id = s.accounts.users.find? id
  added : ∃ user, t.accounts.users.find? s.nextUser = some user ∧ user.isActive = true
  library : t.library = seedDefaultCategories env.unicode s.nextUser s.library

theorem Registered.users (h : Registered env s t) (id : UserId) :
    t.accounts.HasUser id ↔ s.accounts.HasUser id ∨ id = s.nextUser := by
  unfold Accounts.HasUser
  by_cases hId : id = s.nextUser
  · obtain ⟨user, hFind, -⟩ := h.added
    rw [hId, hFind]
    exact ⟨fun _ => Or.inr rfl, fun _ => rfl⟩
  · rw [h.others id hId, or_iff_left hId]

theorem register_eq_some {email displayName : Text} {passwordHash : String} {createdAt : Instant}
    (h : register env s email displayName passwordHash createdAt = some t) : Registered env s t := by
  unfold register at h
  dsimp only at h
  split at h
  · cases h
  · obtain ⟨users, hUsers, rfl⟩ := Option.map_eq_some_iff.mp h
    obtain ⟨hNew, rfl⟩ := Table.insert?_eq_some.mp hUsers
    refine ⟨rfl, rfl, rfl, rfl, rfl, rfl, fun id hId => ?_, ?_, rfl⟩
    · dsimp only
      rw [Table.find?_insert, if_neg fun hEq => hId hEq.symm]
    · dsimp only
      rw [Table.find?_insert]
      exact ⟨_, if_pos rfl, rfl⟩

/-- What is left after the rows of a user have gone. -/
structure UserGone (env : ApiEnv) (userId : UserId) (s t : Site) : Prop where
  sessions : ∀ row, row ∈ t.accounts.sessions ↔ row ∈ s.accounts.sessions ∧ row.userId ≠ userId
  now : t.accounts.now = s.accounts.now
  nextToken : t.accounts.nextToken = s.accounts.nextToken
  nextSession : t.accounts.nextSession = s.accounts.nextSession
  nextUser : t.nextUser = s.nextUser
  csrf : t.csrfTokenHash = s.csrfTokenHash
  users : ∀ id, t.accounts.users.find? id = if id = userId then none else s.accounts.users.find? id
  library : env.cascades.foldlM (Organizer.cascade env.restrictAtOnce userId) s.library =
    some t.library
  slots : ∀ row, row ∈ t.streamSlots ↔ row ∈ s.streamSlots ∧ row.userId ≠ userId

theorem UserGone.hasUser_iff {userId : UserId} (h : UserGone env userId s t) (id : UserId) :
    t.accounts.HasUser id ↔ s.accounts.HasUser id ∧ id ≠ userId := by
  unfold Accounts.HasUser
  rw [h.users]
  by_cases hId : id = userId
  · rw [if_pos hId]
    exact ⟨fun hSome => (by cases hSome), fun hBoth => absurd hId hBoth.2⟩
  · rw [if_neg hId, and_iff_left hId]

/-- The rows that are left when a table is followed first and others after it. -/
theorem mem_cascaded {ρ κ : Type} [Keyed ρ κ] {rows : Table ρ} {owner : ρ → UserId} {r : ρ}
    {userId : UserId} {table own : OwnedTable} {tables : List OwnedTable} :
    (r ∈ (if table = own then rows.delete (fun r => owner r == userId) else rows) ∧
        (own ∈ tables → owner r ≠ userId)) ↔
      r ∈ rows ∧ (own ∈ table :: tables → owner r ≠ userId) := by
  rw [List.mem_cons]
  split
  · rename_i hTable
    rw [Table.mem_delete, beq_eq_false_iff_ne]
    exact ⟨fun ⟨⟨hRow, hOther⟩, _⟩ => ⟨hRow, fun _ => hOther⟩, fun ⟨hRow, hOther⟩ =>
      ⟨⟨hRow, hOther (Or.inl hTable.symm)⟩, fun hMem => hOther (Or.inr hMem)⟩⟩
  · rename_i hTable
    exact and_congr_right fun _ => ⟨fun hOther hMem =>
      hOther (hMem.resolve_left fun hEq => hTable hEq.symm), fun hOther hMem =>
        hOther (Or.inr hMem)⟩

/-- Following some of the foreign keys. -/
theorem cascade_all {atOnce : Bool} {userId : UserId} {tables : List OwnedTable} :
    ∀ {s t : Site}, tables.foldlM (Site.cascade atOnce userId) s = some t →
      tables.foldlM (Organizer.cascade atOnce userId) s.library = some t.library ∧
      (∀ row, row ∈ t.accounts.sessions ↔ row ∈ s.accounts.sessions ∧
        (.webSessions ∈ tables → row.userId ≠ userId)) ∧
      t.accounts.users = s.accounts.users ∧ t.accounts.now = s.accounts.now ∧
      t.accounts.nextToken = s.accounts.nextToken ∧
      t.accounts.nextSession = s.accounts.nextSession ∧ t.nextUser = s.nextUser ∧
      t.csrfTokenHash = s.csrfTokenHash ∧
      (∀ row, row ∈ t.streamSlots ↔ row ∈ s.streamSlots ∧
        (.scanStreamSlots ∈ tables → row.userId ≠ userId)) := by
  induction tables with
  | nil =>
      intro s t h
      obtain rfl := Option.some.inj h
      exact ⟨rfl, fun row => ⟨fun hRow => ⟨hRow, fun hMem => by cases hMem⟩, And.left⟩, rfl, rfl, rfl,
        rfl, rfl, rfl, fun row => ⟨fun hRow => ⟨hRow, fun hMem => by cases hMem⟩, And.left⟩⟩
  | cons table tables ih =>
      intro s t h
      rw [List.foldlM_cons] at h
      obtain ⟨u, hu, hRest⟩ := Option.bind_eq_some_iff.mp h
      obtain ⟨library, hLibrary, rfl⟩ := Option.map_eq_some_iff.mp hu
      obtain ⟨hFold, hRows, hUsers, hNow, hToken, hSession, hNext, hCsrf, hSlots⟩ := ih hRest
      dsimp only at hFold hRows hUsers hNow hToken hSession hNext hCsrf hSlots
      refine ⟨?_, fun row => ?_, hUsers.trans ?_, hNow.trans ?_, hToken.trans ?_,
        hSession.trans ?_, hNext, hCsrf, fun row => ?_⟩
      · rw [List.foldlM_cons, hLibrary]
        exact hFold
      · have hKept : (if table = .webSessions then s.accounts.deleteSessions userId
            else s.accounts).sessions = if table = .webSessions then
              s.accounts.sessions.delete (·.userId == userId) else s.accounts.sessions := by
          split <;> rfl
        rw [hRows, hKept]
        exact mem_cascaded
      rotate_left 4
      · rw [hSlots]
        exact mem_cascaded
      all_goals split <;> rfl

theorem deleteUser_eq_some {userId : UserId} (h : s.deleteUser env userId = some t) :
    UserGone env userId s t := by
  obtain ⟨u, hu, h⟩ := Option.bind_eq_some_iff.mp h
  obtain rfl := Option.some.inj (Option.ite_none_left_eq_some.mp h).2
  obtain ⟨hFold, hRows, hUsers, hNow, hToken, hSession, hNext, hCsrf, hSlots⟩ := cascade_all hu
  have hAll (table : OwnedTable) {p : Prop} : (table ∈ env.cascades → p) ↔ p :=
    ⟨fun h => h (env.cascades_all table), fun h _ => h⟩
  refine ⟨fun row => (hRows row).trans (and_congr_right fun _ => hAll _), hNow, hToken, hSession,
    hNext, hCsrf, fun id => ?_, hFold, fun row => (hSlots row).trans (and_congr_right fun _ => hAll _)⟩
  · dsimp only
    rw [hUsers, Table.find?_delete]
    cases hFind : s.accounts.users.find? id with
    | none => exact (ite_self _).symm
    | some user =>
        obtain rfl := Table.key_of_find? hFind
        rw [Option.filter_some]
        by_cases hUser : user.id = userId
        · rw [if_neg (by rw [beq_iff_eq.mpr hUser]; decide)]
          exact (if_pos hUser).symm
        · rw [if_pos (by rw [beq_eq_false_iff_ne.mpr hUser]; rfl)]
          exact (if_neg hUser).symm

end Users

/-! ## The built-in categories -/

section BuiltIn

variable {userId owner : UserId} {keys : List String} {s s' : Organizer}

/-- What is built in depends on the categories of the user only. -/
theorem BuiltIn.congr (h : BuiltIn userId keys s)
    (hSame : ∀ c : Category, c.userId = userId → (c ∈ s'.db.categories ↔ c ∈ s.db.categories)) :
    BuiltIn userId keys s' where
  present key hKey := by
    obtain ⟨c, hc, hOwner, hSystem⟩ := h.present key hKey
    exact ⟨c, (hSame c hOwner).mpr hc, hOwner, hSystem⟩
  known c hc hOwner := h.known c ((hSame c hOwner).mp hc) hOwner
  unique c hc c' hc' hOwner hOwner' :=
    h.unique c ((hSame c hOwner).mp hc) c' ((hSame c' hOwner').mp hc') hOwner hOwner'

theorem mem_seeded {u : Unicode} {seeds : List DefaultCategorySeed} {c : Category} :
    c ∈ (seeds.foldl (fun s seed => s.insertCategory (seed.category u owner)) s).db.categories →
      c ∈ s.db.categories ∨ c.userId = owner := by
  induction seeds generalizing s with
  | nil => exact Or.inl
  | cons seed seeds ih =>
      intro hc
      rcases ih hc with hMem | hOwner
      · rcases s.mem_insertCategory.mp hMem with hOld | rfl
        · exact Or.inl hOld
        · exact Or.inr rfl
      · exact Or.inr hOwner

theorem mem_seeded_of_mem {u : Unicode} {seeds : List DefaultCategorySeed} {c : Category} :
    c ∈ s.db.categories →
      c ∈ (seeds.foldl (fun s seed => s.insertCategory (seed.category u owner)) s).db.categories := by
  induction seeds generalizing s with
  | nil => exact id
  | cons seed seeds ih => exact fun hc => ih (s.mem_insertCategory.mpr (Or.inl hc))

/-- The seed of a new user leaves the categories of the others. -/
theorem BuiltIn.seeded {u : Unicode} (h : BuiltIn userId keys s) (hOther : userId ≠ owner) :
    BuiltIn userId keys (seedDefaultCategories u owner s) := by
  refine h.congr fun c hOwner => ⟨fun hc => ?_, mem_seeded_of_mem⟩
  exact (mem_seeded hc).resolve_right fun hEq => hOther (hOwner.symm.trans hEq)

/-- A request to the category service as an action. -/
def ServiceRequest.categoryAction (userId : UserId) : ServiceRequest → Option CategoryAction
  | createCategory name icon color position => some (.create userId name icon color position)
  | updateCategory id updates => some (.update userId id updates)
  | deleteCategory id => some (.delete userId id)
  | _ => none

theorem transaction_categories {ε π α : Type} {check : Organizer → Except ε π}
    {write : π → Organizer → Organizer} {answer : π → Organizer → Except ε α}
    (hWrite : ∀ plan s, (write plan s).db.categories = s.db.categories) :
    (Organizer.transaction check write answer s).2.db.categories = s.db.categories := by
  unfold Organizer.transaction
  split
  · rfl
  · exact hWrite _ s

/-- A request to another service leaves the categories alone. -/
theorem run_categories (sql : Sql) (u : Unicode) (vault : Vault) (request : ServiceRequest)
    (h : request.categoryAction userId = none) :
    (request.run sql u vault userId s).2.db.categories = s.db.categories := by
  cases request with
  | updateMessage id updates => exact transaction_categories fun _ _ => rfl
  | deleteMessages client now localOnly request =>
      exact (deletion_sameResponse client vault now localOnly (.refl s) request).categories
  | clearAllMessages => exact transaction_categories fun _ _ => rfl
  | bulkMoveMessages ids categoryId => exact transaction_categories fun _ _ => rfl
  | createTag name color =>
      show (TagService.createTag u userId name color s).2.db.categories = _
      unfold TagService.createTag
      split <;> rfl
  | updateTag id updates => exact transaction_categories fun _ _ => rfl
  | deleteTag id => exact transaction_categories fun _ _ => rfl
  | addTagsToMessage messageId tagIds => exact transaction_categories fun _ _ => rfl
  | bulkAddTagsToMessages messageIds tagIds => exact transaction_categories fun _ _ => rfl
  | removeTagFromMessage messageId tagId => exact transaction_categories fun _ _ => rfl
  | createCategory | updateCategory | deleteCategory => cases h
  | _ => rfl

theorem run_categoryAction (sql : Sql) (u : Unicode) (vault : Vault) (request : ServiceRequest)
    {action : CategoryAction} (h : request.categoryAction userId = some action) :
    categoryStep u s action = some (request.run sql u vault userId s).2 := by
  cases request with
  | createCategory | updateCategory | deleteCategory =>
      obtain rfl := Option.some.inj h
      rfl
  | _ => cases h

/-- The built-in categories of anybody stay through a request. -/
theorem BuiltIn.run (sql : Sql) (u : Unicode) (vault : Vault) (request : ServiceRequest)
    (h : BuiltIn userId keys s) : BuiltIn userId keys (request.run sql u vault owner s).2 := by
  cases hAction : request.categoryAction owner with
  | none =>
      refine h.congr fun c _ => ?_
      rw [run_categories sql u vault request hAction]
  | some action => exact categoryStep_builtIn (run_categoryAction sql u vault request hAction) h

/-- Each category after a request has the owner of one before, or is of the user who asks. -/
theorem run_category_owner (sql : Sql) (u : Unicode) (vault : Vault) (request : ServiceRequest)
    {c : Category} (hc : c ∈ (request.run sql u vault owner s).2.db.categories) :
    (∃ old ∈ s.db.categories, old.userId = c.userId) ∨ c.userId = owner := by
  cases hAction : request.categoryAction owner with
  | none =>
      rw [run_categories sql u vault request hAction] at hc
      exact Or.inl ⟨c, hc, rfl⟩
  | some action =>
      cases request with
      | createCategory name icon color position =>
          replace hc : c ∈ (CategoryService.createCategory u owner name icon color position
            s).2.db.categories := hc
          unfold CategoryService.createCategory at hc
          split at hc
          · exact Or.inl ⟨c, hc, rfl⟩
          · rename_i row hRow
            rcases s.mem_insertCategory.mp hc with hOld | rfl
            · exact Or.inl ⟨c, hOld, rfl⟩
            · exact Or.inr (checkCreate_eq_ok hRow).1
      | updateCategory id updates =>
          replace hc : c ∈ (CategoryService.updateCategory u owner id updates s).2.db.categories := hc
          unfold CategoryService.updateCategory Organizer.transaction at hc
          split at hc
          · exact Or.inl ⟨c, hc, rfl⟩
          · obtain ⟨old, hOld, rfl⟩ := s.mem_updateCategories.mp hc
            refine Or.inl ⟨old, hOld, ?_⟩
            split <;> rfl
      | deleteCategory id =>
          replace hc : c ∈ (CategoryService.deleteCategory owner id s).2.db.categories := hc
          unfold CategoryService.deleteCategory Organizer.transaction at hc
          split at hc
          · exact Or.inl ⟨c, hc, rfl⟩
          · exact Or.inl ⟨c, ((Organizer.mem_deleteCategories _).mp hc).1, rfl⟩
      | _ => cases hAction

end BuiltIn

/-! ## The invariant -/

structure SiteInv (env : ApiEnv) (s : Site) : Prop where
  sessions : SessionInv env.accounts s.accounts
  bounded : ∀ user, s.accounts.activeSessions user ≤ env.accounts.maxActiveSessions
  idle : IdleBounded env.accounts s.accounts
  /-- The tokens of a session were drawn together. -/
  csrf : ∀ row ∈ s.accounts.sessions, ∀ k, row.tokenHash = env.accounts.hashToken k →
    s.csrfTokenHash row.id = env.hash (env.csrfToken k)
  drawn : ∀ user, s.accounts.HasUser user → user < s.nextUser
  active : ∀ user, s.accounts.HasUser user → s.accounts.isActive user = true
  owned : ∀ row ∈ s.accounts.sessions, s.accounts.HasUser row.userId
  builtIn : ∀ user, s.accounts.HasUser user → BuiltIn user defaultKeys s.library
  filed : ∀ c ∈ s.library.db.categories, c.userId < s.nextUser

section Invariant

variable {env : ApiEnv} {head : RequestHead} {s s' : Site}

theorem Site.Initial.inv (h : s.Initial) : SiteInv env s := by
  have hNoUser (user : UserId) : ¬ s.accounts.HasUser user := by
    unfold Accounts.HasUser
    rw [h.users]
    exact Bool.false_ne_true
  have hNoSession (row : WebSession) : row ∉ s.accounts.sessions := by
    rw [show s.accounts.sessions = .empty from h.sessions]
    exact List.not_mem_nil
  have hNoCategory (c : Category) : c ∉ s.library.db.categories := by
    rw [h.categories]
    exact List.not_mem_nil
  refine ⟨Accounts.Initial.inv h.sessions, fun user => ?_, fun row hRow => absurd hRow (hNoSession row),
    fun row hRow => absurd hRow (hNoSession row),
    fun user hUser => absurd hUser (hNoUser user), fun user hUser => absurd hUser (hNoUser user),
    fun row hRow => absurd hRow (hNoSession row), fun user hUser => absurd hUser (hNoUser user),
    fun c hc => absurd hc (hNoCategory c)⟩
  unfold Accounts.activeSessions
  rw [show s.accounts.sessions = .empty from h.sessions]
  exact Nat.zero_le _

/-- Nothing but the accounts changes, and no CSRF token of an old session. -/
structure AccountsStep (env : ApiEnv) (s s' : Site) : Prop where
  change : AccountsChange env.accounts s.accounts s'.accounts
  keeps : KeepsUsers s.accounts s'.accounts
  active : ∀ user, s'.accounts.isActive user = s.accounts.isActive user
  csrf : ∀ id, id < s.accounts.nextSession → s'.csrfTokenHash id = s.csrfTokenHash id
  issued : ∀ row ∈ s'.accounts.sessions, row.id = s.accounts.nextSession →
    s'.csrfTokenHash row.id = env.hash (env.csrfToken s.accounts.nextToken)
  nextUser : s'.nextUser = s.nextUser
  library : s'.library = s.library

theorem SiteInv.accountsStep (h : AccountsStep env s s') (hInv : SiteInv env s) : SiteInv env s' where
  sessions := h.change.sessionInv hInv.sessions
  bounded := h.change.bounded hInv.bounded
  idle := h.change.idle hInv.idle
  csrf row hRow k hToken := by
    rcases h.change.origin hRow with ⟨old, hOld, hId, hHash⟩ | ⟨hId, hHash⟩
    · rw [hId, h.csrf _ (s.accounts.sessions_fresh old hOld)]
      exact hInv.csrf old hOld k (hHash ▸ hToken)
    · obtain rfl := env.accounts.hashToken_injective (hHash.symm.trans hToken)
      exact h.issued row hRow hId
  drawn user hUser := h.nextUser ▸ hInv.drawn user ((h.keeps.users user).mp hUser)
  active user hUser := (h.active user).trans (hInv.active user ((h.keeps.users user).mp hUser))
  owned row hRow := by
    rw [h.keeps.users]
    rcases h.keeps.owners row hRow with ⟨old, hOld, hOwner⟩ | hOwner
    · exact hOwner ▸ hInv.owned old hOld
    · exact hOwner
  builtIn user hUser := h.library ▸ hInv.builtIn user ((h.keeps.users user).mp hUser)
  filed c hc := by
    rw [h.nextUser]
    exact hInv.filed c (h.library ▸ hc)

/-- A call of the account service that draws no token. -/
theorem accountsStep_performed (action : AccountAction)
    (hNone : ∀ token session, (s.accounts.perform env.accounts action).2 ≠ .issued token session) :
    AccountsStep env s { s with accounts := (s.accounts.perform env.accounts action).1 } := by
  refine ⟨.performed action, keepsUsers_perform env.accounts s.accounts action,
    @isActive_step env.accounts s.accounts _ action rfl, fun _ _ => rfl, fun row hRow hId => ?_, rfl,
    rfl⟩
  rcases @row_origin env.accounts s.accounts _ action row rfl hRow with
    ⟨old, hOld, hAfter⟩ | ⟨-, hIssued, -⟩
  · exact absurd (hAfter.fixed.1.symm.trans hId) (Nat.ne_of_lt (s.accounts.sessions_fresh old hOld))
  · exact absurd hIssued (hNone _ _)

theorem issued_eq {action : AccountAction} {token : Token} {session : SessionId}
    (h : (s.accounts.perform env.accounts action).2 = .issued token session) :
    token = s.accounts.nextToken ∧ session = s.accounts.nextSession := by
  have hPerformed := performed env.accounts s.accounts action
  rw [h] at hPerformed
  cases hPerformed with
  | kept _ _ _ _ hNone => exact absurd rfl (hNone token session)
  | issued => exact ⟨rfl, rfl⟩

/-- A call that draws one, and the CSRF token with it. -/
theorem accountsStep_issued {action : AccountAction} {token : Token} {session : SessionId}
    (hIssued : (s.accounts.perform env.accounts action).2 = .issued token session) :
    AccountsStep env s (s.issue env (s.accounts.perform env.accounts action).1 token session) := by
  obtain ⟨rfl, rfl⟩ := issued_eq hIssued
  refine ⟨.performed action, keepsUsers_perform env.accounts s.accounts action,
    @isActive_step env.accounts s.accounts _ action rfl, fun id hId => ?_, fun row _ hId => ?_, rfl,
    rfl⟩
  · exact Function.update_of_ne (Nat.ne_of_lt hId) _ _
  · show Function.update s.csrfTokenHash s.accounts.nextSession _ row.id = _
    rw [hId, Function.update_self]

theorem resolveSession_ne_issued (accounts : Accounts) (k token : Token) (session : SessionId) :
    (accounts.resolveSession env.accounts k).2 ≠ .issued token session := by
  unfold Accounts.resolveSession
  dsimp only
  split
  · exact fun h => by cases h
  · split
    · split <;> exact fun h => by cases h
    · split <;> exact fun h => by cases h

theorem revokeSession_ne_issued (accounts : Accounts) (user : UserId) (revoked : SessionId)
    (token : Token) (session : SessionId) :
    (accounts.revokeSession user revoked).2 ≠ .issued token session := by
  unfold Accounts.revokeSession
  split <;> exact fun h => by cases h

theorem SiteInv.registered (h : Registered env s s') (hInv : SiteInv env s) : SiteInv env s' where
  sessions := (AccountsChange.fewer (fun row hRow => h.sessions ▸ hRow) h.now h.nextToken
    h.nextSession).sessionInv hInv.sessions
  bounded := (AccountsChange.fewer (fun row hRow => h.sessions ▸ hRow) h.now h.nextToken
    h.nextSession).bounded hInv.bounded
  idle := (AccountsChange.fewer (fun row hRow => h.sessions ▸ hRow) h.now h.nextToken
    h.nextSession).idle hInv.idle
  csrf row hRow k hToken := h.csrf ▸ hInv.csrf row (h.sessions ▸ hRow) k hToken
  drawn user hUser := by
    rw [h.nextUser]
    rcases (h.users user).mp hUser with hOld | rfl
    · exact Nat.lt_succ_of_lt (hInv.drawn user hOld)
    · exact Nat.lt_succ_self _
  active user hUser := by
    unfold Accounts.isActive
    by_cases hNew : user = s.nextUser
    · obtain ⟨row, hFind, hActive⟩ := h.added
      rw [hNew, hFind]
      exact hActive
    · rw [h.others user hNew]
      exact hInv.active user (((h.users user).mp hUser).resolve_right hNew)
  owned row hRow := (h.users row.userId).mpr (Or.inl (hInv.owned row (h.sessions ▸ hRow)))
  builtIn user hUser := by
    have hNew : ∀ c ∈ s.library.db.categories, c.userId ≠ s.nextUser :=
      fun c hc => Nat.ne_of_lt (hInv.filed c hc)
    rw [h.library]
    rcases (h.users user).mp hUser with hOld | rfl
    · exact (hInv.builtIn user hOld).seeded (Nat.ne_of_lt (hInv.drawn user hOld))
    · exact (seedDefaultCategories_builtIn hNew).1
  filed c hc := by
    rw [h.nextUser]
    rw [h.library] at hc
    rcases mem_seeded hc with hOld | hOwner
    · exact Nat.lt_succ_of_lt (hInv.filed c hOld)
    · exact hOwner ▸ Nat.lt_succ_self _

theorem SiteInv.userGone {user : UserId} (h : UserGone env user s s') (hInv : SiteInv env s) :
    SiteInv env s' := by
  have hChange : AccountsChange env.accounts s.accounts s'.accounts :=
    .fewer (fun row hRow => ((h.sessions row).mp hRow).1) h.now h.nextToken h.nextSession
  have hEmptied := emptied_of_cascade env.cascades_nodup h.library
  have hCategories (c : Category) : c ∈ s'.library.db.categories ↔
      c ∈ s.library.db.categories ∧ c.userId ≠ user :=
    (hEmptied.categories c).trans (and_congr_right fun _ =>
      ⟨fun hOther => hOther (env.cascades_all _), fun hOther _ => hOther⟩)
  refine ⟨hChange.sessionInv hInv.sessions, hChange.bounded hInv.bounded, hChange.idle hInv.idle,
    fun row hRow => ?_,
    fun other hOther => ?_, fun other hOther => ?_, fun row hRow => ?_, fun other hOther => ?_,
    fun c hc => ?_⟩
  · rw [h.csrf]
    exact hInv.csrf row ((h.sessions row).mp hRow).1
  · rw [h.nextUser]
    exact hInv.drawn other ((h.hasUser_iff other).mp hOther).1
  · obtain ⟨hOld, hNe⟩ := (h.hasUser_iff other).mp hOther
    unfold Accounts.isActive
    rw [h.users, if_neg hNe]
    exact hInv.active other hOld
  · obtain ⟨hOld, hOther⟩ := (h.sessions row).mp hRow
    exact (h.hasUser_iff row.userId).mpr ⟨hInv.owned row hOld, hOther⟩
  · obtain ⟨hOld, hNe⟩ := (h.hasUser_iff other).mp hOther
    refine (hInv.builtIn other hOld).congr fun c hOwner => ?_
    rw [hCategories, and_iff_left (hOwner ▸ hNe)]
  · rw [h.nextUser]
    exact hInv.filed c ((hCategories c).mp hc).1

/-- The accounts and the categories stay. -/
structure AccountsKept (s s' : Site) : Prop where
  accounts : s'.accounts = s.accounts
  nextUser : s'.nextUser = s.nextUser
  csrf : s'.csrfTokenHash = s.csrfTokenHash
  categories : s'.library.db.categories = s.library.db.categories

theorem SiteInv.kept (h : AccountsKept s s') (hInv : SiteInv env s) : SiteInv env s' := by
  have hMem (c : Category) : c ∈ s'.library.db.categories ↔ c ∈ s.library.db.categories := by
    rw [h.categories]
  constructor
  · rw [h.accounts]
    exact hInv.sessions
  · rw [h.accounts]
    exact hInv.bounded
  · rw [h.accounts]
    exact hInv.idle
  · rw [h.accounts, h.csrf]
    exact hInv.csrf
  · rw [h.accounts, h.nextUser]
    exact hInv.drawn
  · rw [h.accounts]
    exact hInv.active
  · rw [h.accounts]
    exact hInv.owned
  · rw [h.accounts]
    exact fun user hUser => (hInv.builtIn user hUser).congr fun c _ => hMem c
  · rw [h.nextUser]
    exact fun c hc => hInv.filed c ((hMem c).mp hc)

theorem SiteInv.served {userId : UserId} (request : ServiceRequest) (hUser : userId < s.nextUser)
    (hInv : SiteInv env s) : SiteInv env
      { s with library := (request.run env.sql env.unicode env.vault userId s.library).2 } where
  sessions := hInv.sessions
  bounded := hInv.bounded
  idle := hInv.idle
  csrf := hInv.csrf
  drawn := hInv.drawn
  active := hInv.active
  owned := hInv.owned
  builtIn user hOther := (hInv.builtIn user hOther).run _ _ _ request
  filed c hc := by
    rcases run_category_owner _ _ _ request hc with ⟨old, hOld, hOwner⟩ | hOwner
    · exact hOwner ▸ hInv.filed old hOld
    · exact hOwner ▸ hUser

/-! ## The changes of a step -/

/-- What a step can change at a time, for the user who asks. -/
inductive SiteChange (env : ApiEnv) (s : Site) : Option UserId → Site → Prop
  | accounts {actor : Option UserId} {t : Site} (h : AccountsStep env s t) : SiteChange env s actor t
  | registered {t : Site} (h : Registered env s t) : SiteChange env s none t
  | kept {actor : Option UserId} {t : Site} (h : AccountsKept s t) : SiteChange env s actor t
  | gone {userId : UserId} {revoked t : Site} (hRevoked : AccountsKept s revoked)
      (h : UserGone env userId revoked t) : SiteChange env s (some userId) t
  | served (userId : UserId) (request : ServiceRequest) : SiteChange env s (some userId)
      { s with library := (request.run env.sql env.unicode env.vault userId s.library).2 }

theorem SiteChange.nextUser_le {actor : Option UserId} (h : SiteChange env s actor s') :
    s.nextUser ≤ s'.nextUser := by
  cases h with
  | accounts h => exact h.nextUser.ge
  | registered h => exact Nat.le_of_lt (h.nextUser ▸ Nat.lt_succ_self _)
  | kept h => exact h.nextUser.ge
  | gone hRevoked h => exact (h.nextUser.trans hRevoked.nextUser).ge
  | served => exact Nat.le_refl _

theorem SiteInv.change {actor : Option UserId} (h : SiteChange env s actor s')
    (hActor : ∀ user, actor = some user → user < s.nextUser) (hInv : SiteInv env s) :
    SiteInv env s' := by
  cases h with
  | accounts h => exact hInv.accountsStep h
  | registered h => exact hInv.registered h
  | kept h => exact hInv.kept h
  | gone hRevoked h => exact (hInv.kept hRevoked).userGone h
  | served userId request => exact hInv.served request (hActor userId rfl)

theorem kept_revokeConnection (userId : UserId) : AccountsKept s (s.revokeConnection userId) :=
  ⟨rfl, rfl, rfl, rfl⟩

theorem Resolves.change (h : Resolves env head s s') : SiteChange env s none s' := by
  cases h with
  | unknown => exact .kept ⟨rfl, rfl, rfl, rfl⟩
  | @token text source k hToken hRead =>
      exact .accounts (accountsStep_performed (.resolve k) (resolveSession_ne_issued s.accounts k))

theorem Acts.change {actor : Option AuthContext} {cookies : CookieChange}
    (h : Acts env s actor s' cookies) : SiteChange env s (actor.map AuthContext.user) s' := by
  cases h with
  | nothing => exact .kept ⟨rfl, rfl, rfl, rfl⟩
  | renamed => exact .kept ⟨rfl, rfl, rfl, rfl⟩
  | signInFailed email password rehashed createdAt hNone =>
      exact .accounts (accountsStep_performed (.login email password rehashed createdAt) hNone)
  | signedIn email password rehashed createdAt hIssued =>
      exact .accounts
        (@accountsStep_issued env s (.login email password rehashed createdAt) _ _ hIssued)
  | registered email displayName passwordHash createdAt hNew =>
      exact .registered (register_eq_some hNew)
  | signedOut context =>
      exact .accounts (accountsStep_performed (.logout context.webSession) fun _ _ h => by cases h)
  | sessionRevoked context session hCookies =>
      exact .accounts (accountsStep_performed (.revoke context.user session)
        (revokeSession_ne_issued s.accounts context.user session))
  | passwordChanged context currentPassword newHash createdAt hIssued =>
      exact .accounts (@accountsStep_issued env s
        (.changePassword context.user currentPassword newHash createdAt) _ _ hIssued)
  | connectionRevoked context => exact .kept (kept_revokeConnection context.user)
  | deleted context hDeleted =>
      exact .gone (kept_revokeConnection context.user) (deleteUser_eq_some hDeleted)
  | served context request => exact .served context.user request

/-! ## Whose session a request names -/

/-- The request names a session that is accepted. -/
structure Authenticated (env : ApiEnv) (head : RequestHead) (s : Site) (context : AuthContext)
    (record : WebSession) (k : Token) : Prop where
  token : requestToken env head = some (env.sessionToken k, context.source)
  row : record ∈ s.accounts.sessions
  hashed : record.tokenHash = env.accounts.hashToken k
  active : record.active s.accounts.now = true
  user : s.accounts.isActive record.userId = true
  userId : record.userId = context.user
  sessionId : record.id = context.webSession

/-- A cookie is read where there is no bearer token. -/
theorem requestToken_cookie_iff {t : Text} : requestToken env head = some (t, .cookie) ↔
    bearerToken env.lower head.authorization = none ∧ head.sessionCookie = some t ∧ t ≠ [] := by
  unfold requestToken
  cases bearerToken env.lower head.authorization with
  | some bearer => simp
  | none =>
      simp only [Option.map_eq_some_iff, Option.filter_eq_some_iff, Prod.mk.injEq, and_true,
        exists_eq_right, true_and, Bool.not_eq_true', List.isEmpty_eq_false_iff, ne_eq]

/-- `optional_auth_context` finds the sessions that are accepted. -/
theorem optionalAuthContext_iff (hInv : SessionInv env.accounts s.accounts) {context : AuthContext} :
    (optionalAuthContext env head s).2 = some context ↔
      ∃ record k, Authenticated env head s context record k := by
  constructor
  · intro h
    unfold optionalAuthContext at h
    split at h
    · cases h
    · rename_i text source hToken
      split at h
      · cases h
      · rename_i k hRead
        dsimp only at h
        split at h
        · rename_i user session hOutcome
          have hAccepts : s.accounts.accepts env.accounts k = true := by
            rw [Accounts.accepts, hOutcome]
          obtain ⟨record, hFind, hActive, hUser⟩ := accepts_iff.mp hAccepts
          obtain ⟨hRow, hHash⟩ := eq_of_find?_token hFind
          rw [resolveSession_valid hFind hActive hUser] at hOutcome
          obtain ⟨rfl, rfl⟩ := AccountOutcome.accepted.inj hOutcome
          obtain rfl := Option.some.inj h
          rw [← (env.readToken_eq_some text k).mp hRead] at hToken
          exact ⟨record, k, hToken, hRow, hHash, hActive, hUser, rfl, rfl⟩
        · cases h
  · rintro ⟨record, k, h⟩
    have hFind := find?_token hInv h.row h.hashed
    unfold optionalAuthContext
    rw [h.token]
    dsimp only
    rw [(env.readToken_eq_some _ k).mpr rfl]
    dsimp only
    rw [resolveSession_valid hFind h.active h.user]
    dsimp only
    rw [h.userId, h.sessionId]

theorem optional_of_getAuthContext {isUnsafe : Bool} {context : AuthContext}
    (h : (getAuthContext env head s isUnsafe).2 = .ok context) :
    (optionalAuthContext env head s).2 = some context := by
  unfold getAuthContext at h
  split at h
  · cases h
  · rename_i resolved found hOptional
    rw [hOptional]
    split at h
    · cases hGuard : guardCookieWrite env head resolved found.webSession with
      | error e =>
          rw [hGuard] at h
          cases h
      | ok =>
          rw [hGuard] at h
          exact congrArg some (Except.ok.inj h)
    · exact congrArg some (Except.ok.inj h)

theorem SiteInv.hasUser_of_acting (hInv : SiteInv env s) {isUnsafe : Bool} {context : AuthContext}
    (h : (getAuthContext env head s isUnsafe).2 = .ok context) : s.accounts.HasUser context.user := by
  obtain ⟨record, k, hAuth⟩ :=
    (optionalAuthContext_iff hInv.sessions).mp (optional_of_getAuthContext h)
  exact hAuth.userId ▸ hInv.owned record hAuth.row

theorem Resolves.nextUser_eq (h : Resolves env head s s') : s'.nextUser = s.nextUser := by
  cases h <;> rfl

/-! ## Runs -/

/-- What the changes of a step keep, where the user who asks exists, the step keeps. -/
theorem SiteInv.step_induct {I : Site → Prop} {action : SiteAction} (hInv : SiteInv env s)
    (hStep : s.step env action = some s')
    (hKeep : ∀ actor x y, (∀ user, actor = some user → s.accounts.HasUser user) →
      SiteChange env x actor y → I x → I y) (h : I s) : I s' := by
  have hNobody (user : UserId) (hNone : none = some user) : s.accounts.HasUser user := by
    cases hNone
  cases action with
  | tick elapsed =>
      obtain rfl := Option.some.inj hStep
      exact hKeep none _ _ hNobody
        (.accounts (accountsStep_performed (.tick elapsed) fun _ _ h => by cases h)) h
  | request call head =>
      obtain rfl := Option.some.inj hStep
      obtain ⟨parts⟩ := handled env head s call
      have hResolved := hKeep none _ _ hNobody parts.resolves.change h
      have hCounted : I { parts.resolved with buckets := parts.buckets } :=
        hKeep none parts.resolved _ hNobody (.kept ⟨rfl, rfl, rfl, rfl⟩) hResolved
      refine hKeep _ _ _ (fun user hUser => ?_) parts.acts.change hCounted
      obtain ⟨context, hContext, rfl⟩ := Option.map_eq_some_iff.mp hUser
      obtain ⟨account, -, hGate⟩ := parts.acting context hContext
      exact hInv.hasUser_of_acting hGate
  | background commit hCategories =>
      obtain rfl := Option.some.inj hStep
      exact hKeep none s _ hNobody (.kept ⟨rfl, rfl, rfl, hCategories s.library.db⟩) h
  | streams slots =>
      obtain rfl := Option.some.inj hStep
      exact hKeep none s _ hNobody (.kept ⟨rfl, rfl, rfl, rfl⟩) h

theorem SiteInv.step {action : SiteAction} (hStep : s.step env action = some s')
    (hInv : SiteInv env s) : SiteInv env s' := by
  have hBoth : SiteInv env s' ∧ s.nextUser ≤ s'.nextUser := by
    refine hInv.step_induct (I := fun x => SiteInv env x ∧ s.nextUser ≤ x.nextUser) hStep
      (fun actor x y hActor hChange ⟨hx, hNext⟩ => ⟨?_, ?_⟩) ⟨hInv, Nat.le_refl _⟩
    · exact hx.change hChange fun user hUser =>
        Nat.lt_of_lt_of_le (hInv.drawn user (hActor user hUser)) hNext
    · exact Nat.le_trans hNext hChange.nextUser_le
  exact hBoth.1

theorem SiteInv.of_run {s₀ : Site} {actions : List SiteAction} (h : s₀.Initial)
    (hRun : run (Site.step env) s₀ actions = some s) : SiteInv env s :=
  invariant (fun _ _ _ hStep hInv => hInv.step hStep) h.inv hRun

/-- In every state each user has each built-in category once, and no other one counts as built in,
whatever anybody has asked for. -/
theorem built_in_always (env : ApiEnv) {s₀ s : Site} {actions : List SiteAction}
    (hStart : s₀.Initial) (hRun : run (Site.step env) s₀ actions = some s) {user : UserId}
    (hUser : s.accounts.HasUser user) :
    (∀ key ∈ defaultKeys, ∃! c, c ∈ s.library.db.categories ∧ c.userId = user ∧
      c.systemKey = some key) ∧
    ∀ c ∈ s.library.db.categories, c.userId = user → ∀ key, c.systemKey = some key →
      key ∈ defaultKeys := by
  have hBuiltIn := (SiteInv.of_run hStart hRun).builtIn user hUser
  refine ⟨fun key hKey => ?_, hBuiltIn.known⟩
  obtain ⟨c, hc, hOwner, hSystem⟩ := hBuiltIn.present key hKey
  refine ⟨c, ⟨hc, hOwner, hSystem⟩, fun c' ⟨hc', hOwner', hSystem'⟩ => ?_⟩
  exact hBuiltIn.unique c' hc' c hc hOwner' hOwner (hSystem' ▸ Option.some_ne_none key)
    (hSystem'.trans hSystem.symm)

end Invariant

/-! ## A small API

Tokens are a letter and a unary number, and the tables come in the order of the migration. -/

def demoSessionToken (k : Token) : Text := 's' :: List.replicate k 'x'

def demoCsrfToken (k : Token) : Text := 'c' :: List.replicate k 'x'

theorem demoSessionToken_injective {k k' : Token} (h : demoSessionToken k = demoSessionToken k') :
    k = k' := by
  simpa [demoSessionToken] using congrArg List.length h

def demoReadToken (t : Text) : Option Token :=
  if demoSessionToken (t.length - 1) = t then some (t.length - 1) else none

theorem demoReadToken_eq_some (t : Text) (k : Token) :
    demoReadToken t = some k ↔ demoSessionToken k = t := by
  unfold demoReadToken
  constructor
  · intro h
    split at h
    · rename_i hToken
      rw [← Option.some.inj h]
      exact hToken
    · cases h
  · rintro rfl
    have hLength : (demoSessionToken k).length - 1 = k := by simp [demoSessionToken]
    rw [hLength, if_pos rfl]

theorem plain_replicate {c : Char} (hChar : 33 ≤ c.toNat ∧ c.toNat < 127) (k : Token) :
    Plain (c :: List.replicate k 'x') := by
  refine ⟨List.cons_ne_nil _ _, fun d hd => ?_⟩
  rcases List.mem_cons.mp hd with rfl | hx
  · exact hChar
  · rw [List.eq_of_mem_replicate hx]
    decide

def demoApi : ApiEnv where
  accounts :=
    { demoAccountEnv with
      hashToken := fun k => String.ofList (demoSessionToken k)
      hashToken_injective := fun _ _ h => demoSessionToken_injective (String.ofList_injective h) }
  sql := plainSql
  unicode := plainUnicode
  vault := plainVault
  subjectHash := fun scope subject => scope ++ ":" ++ subject
  lower := List.map Char.toLower
  publicOrigin := some "https://organizer.test".toList
  allowRegistration := true
  hash := String.ofList
  hash_injective := fun _ _ h => String.ofList_injective h
  sessionToken := demoSessionToken
  csrfToken := demoCsrfToken
  readToken := demoReadToken
  readToken_eq_some := demoReadToken_eq_some
  hashToken_eq := fun _ => rfl
  tokens_plain := fun k => ⟨plain_replicate (by decide) k, plain_replicate (by decide) k⟩
  cascades := [.categories, .scanJobs, .tags, .telegramConnections, .webSessions, .messages,
    .scanStreamSlots]
  cascades_all := fun table => by cases table <;> decide
  cascades_nodup := by decide
  restrictAtOnce := true

theorem noSession_fresh : ∀ r ∈ (Table.empty : Table WebSession), r.id < 0 :=
  fun r hr => by cases hr

def emptySite : Site where
  accounts := ⟨0, .empty, .empty, 0, 0, noSession_fresh⟩
  nextUser := 1
  csrfTokenHash := fun _ => ""
  profile := fun _ => ⟨[], [], 0⟩
  buckets := .empty
  library := newUser
  streamSlots := .empty

theorem emptySite_initial : emptySite.Initial := ⟨rfl, rfl, rfl⟩

/-- What a page of the application sends. -/
def pageHead (session csrf : Option Text) : RequestHead where
  authorization := none
  sessionCookie := session
  csrfCookie := csrf
  csrfHeader := csrf
  browser := ⟨some "same-origin".toList, some "https://organizer.test".toList, none, "https".toList,
    "organizer.test".toList⟩
  clientHost := some "10.0.0.1"

def registers (email password : String) : SiteAction :=
  .request (.anyone (.registerAccount email.toList "Ada".toList password 0)) (pageHead none none)

def logsIn (email password : String) : SiteAction :=
  .request (.anyone (.createSession email.toList password "" 0)) (pageHead none none)

/-- A request with the cookies of the token. -/
def asks (k : Token) (call : AccountCall) : SiteAction :=
  .request (.signedIn call) (pageHead (some (demoSessionToken k)) (some (demoCsrfToken k)))

def siteAfter (actions : List SiteAction) : Site :=
  (run (Site.step demoApi) emptySite actions).getD emptySite

/-- Ada asks for the end of a built-in category, and Ben registers. -/
def deletesBuiltIn : List SiteAction :=
  [registers "ada" "secret", logsIn "ada" "secret", asks 0 (.service (.deleteCategory 1)),
    registers "ben" "secret"]

theorem built_in_always_ben : (∀ key ∈ defaultKeys,
      ∃! c, c ∈ (siteAfter deletesBuiltIn).library.db.categories ∧ c.userId = 2 ∧
        c.systemKey = some key) ∧
    ∀ c ∈ (siteAfter deletesBuiltIn).library.db.categories, c.userId = 2 →
      ∀ key, c.systemKey = some key → key ∈ defaultKeys := by
  have hUser : ((siteAfter deletesBuiltIn).accounts.users.find? 2).isSome = true := by decide +kernel
  exact @built_in_always demoApi emptySite (siteAfter deletesBuiltIn) deletesBuiltIn
    emptySite_initial (run_getD (by decide +kernel)) 2 hUser

end SavedOrganizer
