import SavedOrganizer.System.SiteInvariant
import SavedOrganizer.Tags.Filter

/-!
# What a deletion of an account leaves

With the right password either everything of the user goes and nothing of anybody else, or the
request fails although the connection to Telegram is gone already. Which of the two depends on when
the database checks `RESTRICT`, on the order in which it follows its foreign keys, and on whether the
user still has a message: `account_deletion` says when.

What is gone stays gone: no later state has the user, a session or a category of the user, and no
request is answered as the user's (`deleted_for_good`).
-/

namespace SavedOrganizer

open Transition

/-- The deletion gets past the categories. -/
def Deletable (env : ApiEnv) (userId : UserId) (s : Organizer) : Prop :=
  env.restrictAtOnce = true →
    env.cascades.idxOf .messages < env.cascades.idxOf .categories ∨ ¬ FiledMessage userId s

/-- Everything of the user has gone, and nothing else: of the messages of others a marker of the
user's jobs. -/
structure RowsGone (userId : UserId) (s t : Site) : Prop where
  users : ∀ id, t.accounts.users.find? id = if id = userId then none else s.accounts.users.find? id
  sessions : ∀ r, r ∈ t.accounts.sessions ↔ r ∈ s.accounts.sessions ∧ r.userId ≠ userId
  connections : ∀ r, r ∈ t.library.db.connections ↔
    r ∈ s.library.db.connections ∧ r.userId ≠ userId
  jobs : ∀ r, r ∈ t.library.db.jobs ↔ r ∈ s.library.db.jobs ∧ r.userId ≠ userId
  categories : ∀ r, r ∈ t.library.db.categories ↔ r ∈ s.library.db.categories ∧ r.userId ≠ userId
  messages : ∀ r, r ∈ t.library.db.messages ↔ ∃ m ∈ s.library.db.messages, m.userId ≠ userId ∧
    unmarked userId s.library.db.jobs m = r
  messageTags : ∀ a, a ∈ t.library.db.messageTags ↔ a ∈ s.library.db.messageTags ∧
    ofMessage userId s.library a = false ∧ ofTag userId s.library a = false
  tags : ∀ r, r ∈ t.library.tags ↔ r ∈ s.library.tags ∧ r.userId ≠ userId
  streamSlots : ∀ r, r ∈ t.streamSlots ↔ r ∈ s.streamSlots ∧ r.userId ≠ userId

/-! ## The connection goes first -/

section Revoked

variable {s : Site} {userId : UserId}

section Update

variable {ρ κ π : Type} [Keyed ρ κ] {rows : Table ρ} {p : ρ → Bool} {r : ρ} (f : ρ → ρ)

/-- An update of the user's own rows leaves those of the others. -/
theorem mem_update_others {owner : ρ → UserId} (hKey : ∀ r, (Keyed.key (f r) : κ) = Keyed.key r)
    (hOwn : ∀ r, p r = true → owner r = userId) (hOwner : ∀ r, owner (f r) = owner r) :
    (r ∈ rows.update p f hKey ∧ owner r ≠ userId) ↔ r ∈ rows ∧ owner r ≠ userId := by
  rw [Table.mem_update]
  refine and_congr_left fun hOther => ⟨?_, fun hr => ⟨r, hr, if_neg fun hp => hOther (hOwn r hp)⟩⟩
  rintro ⟨old, hOld, hEq⟩
  split at hEq
  · rename_i hp
    rw [← hEq, hOwner] at hOther
    exact absurd (hOwn old hp) hOther
  · exact hEq ▸ hOld

/-- An update keeps what it does not write. -/
theorem exists_mem_update {read : ρ → π} (hKey : ∀ r, (Keyed.key (f r) : κ) = Keyed.key r)
    (hRead : ∀ r, read (f r) = read r) (q : π → Prop) :
    (∃ r ∈ rows.update p f hKey, q (read r)) ↔ ∃ r ∈ rows, q (read r) := by
  have hSame (r : ρ) : read (if p r then f r else r) = read r := by
    split
    · exact hRead r
    · rfl
  constructor
  · rintro ⟨r, hr, hq⟩
    obtain ⟨old, hOld, rfl⟩ := Table.mem_update.mp hr
    exact ⟨old, hOld, hSame old ▸ hq⟩
  · rintro ⟨r, hr, hq⟩
    exact ⟨_, Table.mem_update.mpr ⟨r, hr, rfl⟩, (hSame r).symm ▸ hq⟩

end Update

theorem revoked_connections (r : TelegramConnection) :
    (r ∈ (s.revokeConnection userId).library.db.connections ∧ r.userId ≠ userId) ↔
      r ∈ s.library.db.connections ∧ r.userId ≠ userId :=
  mem_update_others (TelegramConnection.invalidate .disconnected) (fun _ => rfl)
    (fun _ h => beq_iff_eq.mp h) fun _ => rfl

theorem revoked_jobs (r : ScanJob) :
    (r ∈ (s.revokeConnection userId).library.db.jobs ∧ r.userId ≠ userId) ↔
      r ∈ s.library.db.jobs ∧ r.userId ≠ userId := by
  refine mem_update_others (ScanJob.cancelDisconnected s.accounts.now) (fun _ => rfl)
    (fun job h => ?_) fun _ => rfl
  rw [ScanJob.activeOf, Bool.and_eq_true, beq_iff_eq] at h
  exact h.1

theorem revoked_messages (r : Message) :
    (r ∈ (s.revokeConnection userId).library.db.messages ∧ r.userId ≠ userId) ↔
      r ∈ s.library.db.messages ∧ r.userId ≠ userId := by
  refine mem_update_others Message.unmark (fun _ => rfl) (fun m h => ?_) fun _ => rfl
  rw [Bool.and_eq_true, beq_iff_eq] at h
  exact h.1

/-- The messages keep their ids, their owners and their categories. -/
theorem revoked_messages_alike (q : MessageId × UserId × CategoryId → Prop) :
    (∃ m ∈ (s.revokeConnection userId).library.db.messages, q (m.id, m.userId, m.categoryId)) ↔
      ∃ m ∈ s.library.db.messages, q (m.id, m.userId, m.categoryId) :=
  exists_mem_update Message.unmark (fun _ => rfl)
    (show ∀ m : Message, (m.unmark.id, m.unmark.userId, m.unmark.categoryId) =
      (m.id, m.userId, m.categoryId) from fun _ => rfl) q

theorem revoked_jobs_alike (q : JobId × UserId → Prop) :
    (∃ j ∈ (s.revokeConnection userId).library.db.jobs, q (j.id, j.userId)) ↔
      ∃ j ∈ s.library.db.jobs, q (j.id, j.userId) :=
  exists_mem_update (ScanJob.cancelDisconnected s.accounts.now) (fun _ => rfl)
    (show ∀ j : ScanJob, ((j.cancelDisconnected s.accounts.now).id,
      (j.cancelDisconnected s.accounts.now).userId) = (j.id, j.userId) from fun _ => rfl) q

theorem revoked_filed : FiledMessage userId (s.revokeConnection userId).library ↔
    FiledMessage userId s.library :=
  revoked_messages_alike fun (_, owner, category) =>
    owner = userId ∧ ∃ c ∈ s.library.db.categories, c.userId = userId ∧ c.id = category

theorem revoked_ofMessage (a : MessageTag) :
    ofMessage userId (s.revokeConnection userId).library a = ofMessage userId s.library a := by
  rw [Bool.eq_iff_iff, ofMessage_iff, ofMessage_iff]
  exact revoked_messages_alike fun (id, owner, _) =>
    id = a.messageId ∧ owner = a.userId ∧ owner = userId

theorem revoked_unmarked (m : Message) :
    unmarked userId (s.revokeConnection userId).library.db.jobs m =
      unmarked userId s.library.db.jobs m := by
  have hMarked : markedByUser userId (s.revokeConnection userId).library.db.jobs m =
      markedByUser userId s.library.db.jobs m := by
    rw [Bool.eq_iff_iff, markedByUser_iff, markedByUser_iff]
    exact revoked_jobs_alike fun (id, owner) => m.lastSeenReplacementJobId = some id ∧ owner = userId
  rw [unmarked, unmarked, hMarked]

end Revoked

/-! ## The deletion -/

section Deletion

variable {env : ApiEnv} {s t : Site} {userId : UserId}

/-- The rows of the user beside the library do not keep the others from going. -/
theorem cascade_library {atOnce : Bool} {tables : List OwnedTable} :
    ∀ {s : Site}, ((tables.foldlM (Site.cascade atOnce userId) s).map Site.library) =
      tables.foldlM (Organizer.cascade atOnce userId) s.library := by
  induction tables with
  | nil => exact fun {s} => rfl
  | cons table tables ih =>
      intro s
      rw [List.foldlM_cons, List.foldlM_cons]
      unfold Site.cascade
      dsimp only
      cases s.library.cascade atOnce userId table with
      | none => rfl
      | some library => exact ih

theorem deleteUser_isSome_iff :
    (∃ t, (s.revokeConnection userId).deleteUser env userId = some t) ↔
      Deletable env userId s.library := by
  have hLibrary := @cascade_library userId env.restrictAtOnce env.cascades
    (s.revokeConnection userId)
  have hIff : (∃ t, (s.revokeConnection userId).deleteUser env userId = some t) ↔
      ∃ t, env.cascades.foldlM (Organizer.cascade env.restrictAtOnce userId)
        (s.revokeConnection userId).library = some t := by
    unfold Site.deleteUser
    cases hFold : env.cascades.foldlM (Site.cascade env.restrictAtOnce userId)
        (s.revokeConnection userId) with
    | none =>
        rw [← hLibrary, hFold]
        exact ⟨fun ⟨_, h⟩ => (by cases h), fun ⟨_, h⟩ => (by cases h)⟩
    | some u =>
        rw [hFold] at hLibrary
        have hEmptied := emptied_of_cascade env.cascades_nodup hLibrary.symm
        rw [Option.bind_some, hEmptied.not_refersTo (env.cascades_all _), Bool.and_false,
          if_neg Bool.false_ne_true, ← hLibrary]
        exact ⟨fun _ => ⟨_, rfl⟩, fun _ => ⟨_, rfl⟩⟩
  rw [hIff, cascade_iff env.cascades_nodup, Deletable, revoked_filed]
  exact imp_congr_right fun _ => ⟨fun h => h (env.cascades_all _), fun h _ => h⟩

theorem rowsGone (h : (s.revokeConnection userId).deleteUser env userId = some t) :
    RowsGone userId s t := by
  have hGone := deleteUser_eq_some h
  have hEmptied := emptied_of_cascade env.cascades_nodup hGone.library
  have hAll (table : OwnedTable) {p : Prop} : (table ∈ env.cascades → p) ↔ p :=
    ⟨fun h => h (env.cascades_all table), fun h _ => h⟩
  refine ⟨hGone.users, hGone.sessions, fun r => ?_, fun r => ?_, fun r => ?_, fun r => ?_,
    fun a => ?_, fun r => ?_, hGone.slots⟩
  · rw [hEmptied.connections, hAll, revoked_connections]
  · rw [hEmptied.jobs, hAll, revoked_jobs]
  · rw [hEmptied.categories, hAll]
    exact Iff.rfl
  · rw [hEmptied.messages]
    simp only [env.cascades_all, true_implies, if_true, revoked_unmarked, ← and_assoc,
      revoked_messages]
  · rw [hEmptied.messageTags, hAll, hAll, revoked_ofMessage]
    exact Iff.rfl
  · rw [hEmptied.tags, hAll]
    exact Iff.rfl

section Route

variable {head : RequestHead} {password : String} {context : AuthContext} {u : Site}

/-- With the quota and the right password the route gets to the rows. -/
theorem deleteAccount_verified
    (hQuota : enforceRateLimits env t (passwordChecks head context.user) = (u, .ok ()))
    (hVerified : ((u.accounts.users.find? context.user).any fun user =>
      env.accounts.verifyPassword user.passwordHash password) = true) :
    deleteAccount env head t context password =
      ((u.revokeConnection context.user).deleteUser env context.user).elim
        (u.revokeConnection context.user, .error .internal)
        fun v => (v, ⟨.ok .noContent, .clear⟩) := by
  unfold deleteAccount limited
  rw [hQuota]
  refine (if_pos hVerified).trans ?_
  dsimp only
  cases (u.revokeConnection context.user).deleteUser env context.user with
  | none => rfl
  | some v => rfl

/-- Only where the rows go are the cookies cleared. -/
theorem deleteAccount_confirmed
    (h : (deleteAccount env head t context password).2.cookies = .clear) : ∃ buckets,
    (({ t with buckets := buckets } : Site).revokeConnection context.user).deleteUser env
      context.user = some (deleteAccount env head t context password).1 := by
  obtain ⟨buckets, hBuckets⟩ := @enforce_cases env t (passwordChecks head context.user)
  refine ⟨buckets, ?_⟩
  rw [← hBuckets]
  cases hQuota : enforceRateLimits env t (passwordChecks head context.user) with
  | mk v quota =>
      cases quota with
      | error e =>
          unfold deleteAccount limited at h
          rw [hQuota] at h
          cases h
      | ok =>
          cases hVerified : (v.accounts.users.find? context.user).any fun user =>
              env.accounts.verifyPassword user.passwordHash password with
          | false =>
              unfold deleteAccount limited at h
              rw [hQuota] at h
              dsimp only at h
              rw [if_neg (hVerified ▸ Bool.false_ne_true)] at h
              cases h
          | true =>
              rw [deleteAccount_verified hQuota hVerified] at h ⊢
              cases hDeleted : (v.revokeConnection context.user).deleteUser env context.user with
              | none =>
                  rw [hDeleted] at h
                  cases h
              | some w => rfl

end Route

/-- With the right password the account goes, with everything in it, where the database gets past
the categories: where it checks `RESTRICT` after the cascades, where these take the messages first,
or where the user has no filed message. Otherwise the request fails, and has revoked the connection. -/
theorem account_deletion (env : ApiEnv) (s : Site) {head : RequestHead} {password : String}
    {context : AuthContext} {t u : Site} {user : User}
    (hGate : getAuthContext env head s true = (t, .ok context))
    (hQuota : enforceRateLimits env t (passwordChecks head context.user) = (u, .ok ()))
    (hUser : u.accounts.users.find? context.user = some user)
    (hPassword : env.accounts.verifyPassword user.passwordHash password = true) :
    (Deletable env context.user t.library →
      ((ApiCall.signedIn (.deleteAccount password)).handle env head s).2 =
          ⟨.ok .noContent, .clear⟩ ∧
        RowsGone context.user t
          ((ApiCall.signedIn (.deleteAccount password)).handle env head s).1) ∧
    (¬ Deletable env context.user t.library →
      (ApiCall.signedIn (.deleteAccount password)).handle env head s =
        (u.revokeConnection context.user, .error .internal)) := by
  obtain ⟨buckets, hBuckets⟩ := @enforce_cases env t (passwordChecks head context.user)
  rw [hQuota] at hBuckets
  replace hBuckets : u = { t with buckets := buckets } := hBuckets
  have hLibrary : u.library = t.library := by rw [hBuckets]
  have hVerified : ((u.accounts.users.find? context.user).any fun user =>
      env.accounts.verifyPassword user.passwordHash password) = true := by
    rw [hUser]
    exact hPassword
  have hHandle : (ApiCall.signedIn (.deleteAccount password)).handle env head s =
      ((u.revokeConnection context.user).deleteUser env context.user).elim
        (u.revokeConnection context.user, .error .internal)
        fun v => (v, ⟨.ok .noContent, .clear⟩) :=
    (handle_of_gate hGate).trans (deleteAccount_verified hQuota hVerified)
  rw [hHandle, ← hLibrary]
  constructor
  · intro hDeletable
    obtain ⟨v, hv⟩ := deleteUser_isSome_iff.mpr hDeletable
    rw [hv]
    refine ⟨rfl, ?_⟩
    have hRows := rowsGone hv
    rw [hBuckets] at hRows
    exact ⟨hRows.users, hRows.sessions, hRows.connections, hRows.jobs, hRows.categories,
      hRows.messages, hRows.messageTags, hRows.tags, hRows.streamSlots⟩
  · intro hNot
    have hNone : (u.revokeConnection context.user).deleteUser env context.user = none := by
      rw [Option.eq_none_iff_forall_ne_some]
      exact fun v hv => hNot (deleteUser_isSome_iff.mp ⟨v, hv⟩)
    rw [hNone, Option.elim_none]

/-! ## For good -/

/-- Nothing of the user is left that a request could be answered with. -/
structure Gone (userId : UserId) (s : Site) : Prop where
  drawn : userId < s.nextUser
  user : ¬ s.accounts.HasUser userId
  sessions : ∀ row ∈ s.accounts.sessions, row.userId ≠ userId
  categories : ∀ c ∈ s.library.db.categories, c.userId ≠ userId

theorem Gone.change {actor : Option UserId} {x y : Site} (hActor : actor ≠ some userId)
    (hChange : SiteChange env x actor y) (h : Gone userId x) : Gone userId y := by
  cases hChange with
  | accounts hStep =>
      refine ⟨hStep.nextUser ▸ h.drawn, ?_, fun row hRow hOwner => ?_, ?_⟩
      · rw [hStep.keeps.users]
        exact h.user
      · rcases hStep.keeps.owners row hRow with ⟨old, hOld, hSame⟩ | hUser
        · exact h.sessions old hOld (hSame.trans hOwner)
        · exact h.user (hOwner ▸ hUser)
      · rw [hStep.library]
        exact h.categories
  | registered hNew =>
      refine ⟨?_, fun hUser => ?_, ?_, fun c hc hOwner => ?_⟩
      · rw [hNew.nextUser]
        exact Nat.lt_succ_of_lt h.drawn
      · exact ((hNew.users userId).mp hUser).elim h.user fun hEq => Nat.ne_of_lt h.drawn hEq
      · rw [hNew.sessions]
        exact h.sessions
      · rw [hNew.library] at hc
        exact (mem_seeded hc).elim (fun hOld => h.categories c hOld hOwner) fun hEq =>
          Nat.ne_of_lt h.drawn (hOwner.symm.trans hEq)
  | kept hKept =>
      refine ⟨hKept.nextUser ▸ h.drawn, ?_, ?_, ?_⟩
      · rw [hKept.accounts]
        exact h.user
      · rw [hKept.accounts]
        exact h.sessions
      · rw [hKept.categories]
        exact h.categories
  | @gone other revoked y hRevoked hGone =>
      have hEmptied := emptied_of_cascade env.cascades_nodup hGone.library
      refine ⟨?_, fun hUser => ?_, fun row hRow => ?_, fun c hc => ?_⟩
      · rw [hGone.nextUser, hRevoked.nextUser]
        exact h.drawn
      · rw [hGone.hasUser_iff, hRevoked.accounts] at hUser
        exact h.user hUser.1
      · rw [hGone.sessions, hRevoked.accounts] at hRow
        exact h.sessions row hRow.1
      · rw [hEmptied.categories, hRevoked.categories] at hc
        exact h.categories c hc.1
  | served other request =>
      refine ⟨h.drawn, h.user, h.sessions, fun c hc hOwner => ?_⟩
      rcases run_category_owner _ _ _ request hc with ⟨old, hOld, hSame⟩ | hNew
      · exact h.categories old hOld (hSame.trans hOwner)
      · exact hActor (congrArg some (hNew.symm.trans hOwner))

theorem gone_step {action : SiteAction} (hInv : SiteInv env s) (hStep : s.step env action = some t)
    (h : Gone userId s) : Gone userId t :=
  hInv.step_induct hStep (fun _ _ _ hActor hChange hx =>
    hx.change (fun hEq => h.user (hActor userId hEq)) hChange) h

/-- The rows that have gone are what is left of the user. -/
theorem gone_of_rowsGone (hUser : userId < t.nextUser) (h : RowsGone userId s t) :
    Gone userId t := by
  refine ⟨hUser, ?_, fun row hRow => ((h.sessions row).mp hRow).2, fun c hc =>
    ((h.categories c).mp hc).2⟩
  unfold Accounts.HasUser
  rw [h.users, if_pos rfl]
  exact Bool.false_ne_true

/-- A deletion that is confirmed, which clears the cookies, has gone through. -/
theorem gone_of_confirmed (hInv : SiteInv env s) {head : RequestHead} {password : String}
    {context : AuthContext} (hGate : (getAuthContext env head s true).2 = .ok context)
    (hConfirmed : ((ApiCall.signedIn (.deleteAccount password)).handle env head s).2.cookies =
      .clear) :
    Gone context.user ((ApiCall.signedIn (.deleteAccount password)).handle env head s).1 := by
  have hUser := hInv.drawn _ (hInv.hasUser_of_acting hGate)
  have hNext := (@resolves_optional env head s).nextUser_eq
  rw [← getAuthContext_fst true] at hNext
  have hHandle : (ApiCall.signedIn (.deleteAccount password)).handle env head s =
      deleteAccount env head (getAuthContext env head s true).1 context password :=
    handle_of_gate (Prod.ext rfl hGate)
  rw [hHandle] at hConfirmed ⊢
  obtain ⟨buckets, hDeleted⟩ := deleteAccount_confirmed hConfirmed
  refine gone_of_rowsGone ?_ (rowsGone hDeleted)
  rw [(deleteUser_eq_some hDeleted).nextUser]
  show context.user < (getAuthContext env head s true).1.nextUser
  rw [hNext]
  exact hUser

/-- Once a deletion has been confirmed, no later state knows the user, and nobody passes as the user
again. -/
theorem deleted_for_good (env : ApiEnv) {s₀ s u : Site} {front back : List SiteAction}
    (hStart : s₀.Initial) (hFront : run (Site.step env) s₀ front = some s) {head : RequestHead}
    {password : String} {context : AuthContext}
    (hGate : (getAuthContext env head s true).2 = .ok context)
    (hConfirmed : ((ApiCall.signedIn (.deleteAccount password)).handle env head s).2.cookies =
      .clear)
    (hBack : run (Site.step env) s (.request (.signedIn (.deleteAccount password)) head :: back) =
      some u) :
    Gone context.user u ∧ ∀ later isUnsafe again,
      (getAuthContext env later u isUnsafe).2 = .ok again → again.user ≠ context.user := by
  have hInv := SiteInv.of_run hStart hFront
  obtain ⟨t, hStep, hRest⟩ := run_cons.mp hBack
  have hGone : Gone context.user t := by
    obtain rfl := Option.some.inj hStep
    exact gone_of_confirmed hInv hGate hConfirmed
  obtain ⟨hInvU, hGoneU⟩ := invariant (I := fun x => SiteInv env x ∧ Gone context.user x)
    (fun _ _ _ hNext ⟨hx, hGone⟩ => ⟨hx.step hNext, gone_step hx hNext hGone⟩)
    ⟨hInv.step hStep, hGone⟩ hRest
  exact ⟨hGoneU, fun later isUnsafe again hAgain hSame =>
    hGoneU.user (hSame ▸ hInvU.hasUser_of_acting hAgain)⟩

end Deletion

/-! ## A message that is still filed -/

/-- The page of Ada, who has signed in first. -/
def adaHead : RequestHead := pageHead (some (demoSessionToken 0)) (some (demoCsrfToken 0))

def adaSignedIn : List SiteAction := [registers "ada" "secret", logsIn "ada" "secret"]

def adaMessages : Table Message := (taggedLibrary [] []).db.messages

theorem adaMessages_fresh : ∀ m ∈ adaMessages, m.id < 2 :=
  (taggedLibrary [] []).db.messageIds_fresh

def fileMessage (db : Database) : Database :=
  { db with messages := adaMessages, nextMessageId := 2, messageIds_fresh := adaMessages_fresh }

theorem fileMessage_categories (db : Database) : (fileMessage db).categories = db.categories := rfl

/-- A scan files a message in her first category. -/
def filesMessage : SiteAction := .background fileMessage fileMessage_categories

/-- The site after her gate and her quota. -/
def adaChecked (env : ApiEnv) (actions : List SiteAction) : Site :=
  (enforceRateLimits env (getAuthContext env adaHead (siteAfter actions) true).1
    (passwordChecks adaHead 1)).1

/-- A database that checks `RESTRICT` after the cascades. -/
def queuedApi : ApiEnv := { demoApi with restrictAtOnce := false }

/-- Without a message her account goes. With one it stays, unless the check comes after the
cascades. -/
theorem account_deletion_filed :
    ((ApiCall.signedIn (.deleteAccount "secret")).handle demoApi adaHead
      (siteAfter adaSignedIn)).2 = ⟨.ok .noContent, .clear⟩ ∧
    (ApiCall.signedIn (.deleteAccount "secret")).handle demoApi adaHead
      (siteAfter (adaSignedIn ++ [filesMessage])) =
        ((adaChecked demoApi (adaSignedIn ++ [filesMessage])).revokeConnection 1,
          .error .internal) ∧
    ((ApiCall.signedIn (.deleteAccount "secret")).handle queuedApi adaHead
      (siteAfter (adaSignedIn ++ [filesMessage]))).2 = ⟨.ok .noContent, .clear⟩ := by
  refine ⟨?_, ?_, ?_⟩
  · refine ((@account_deletion demoApi (siteAfter adaSignedIn) adaHead "secret" ⟨1, 0, .cookie⟩ _
      (adaChecked demoApi adaSignedIn) ⟨1, "ada".toList, "secret", true, 0, none⟩
      (Prod.ext rfl (by decide +kernel)) (Prod.ext rfl (by decide +kernel)) (by decide +kernel)
      (by decide +kernel)).1 (fun _ => Or.inr ?_)).1
    rintro ⟨m, hm, -⟩
    have hNone : (getAuthContext demoApi adaHead (siteAfter adaSignedIn)
      true).1.library.db.messages.rows = [] := by decide +kernel
    rw [Table.mem_def, hNone] at hm
    cases hm
  · refine (@account_deletion demoApi (siteAfter (adaSignedIn ++ [filesMessage])) adaHead "secret"
      ⟨1, 0, .cookie⟩ _ (adaChecked demoApi (adaSignedIn ++ [filesMessage]))
      ⟨1, "ada".toList, "secret", true, 0, none⟩ (Prod.ext rfl (by decide +kernel))
      (Prod.ext rfl (by decide +kernel)) (by decide +kernel) (by decide +kernel)).2 ?_
    intro hDeletable
    rcases hDeletable rfl with hLt | hNot
    · exact absurd hLt (by decide)
    · refine hNot ⟨taggedMessage, Table.mem_def.mpr (by decide +kernel), rfl, ?_⟩
      obtain ⟨c, hc, hId⟩ := List.any_eq_true.mp (show ((getAuthContext demoApi adaHead (siteAfter
        (adaSignedIn ++ [filesMessage])) true).1.library.db.categories.rows.any fun c =>
          c.userId == 1 && c.id == 1) = true from by decide +kernel)
      rw [Bool.and_eq_true, beq_iff_eq, beq_iff_eq] at hId
      exact ⟨c, hc, hId.1, hId.2⟩
  · exact ((@account_deletion queuedApi (siteAfter (adaSignedIn ++ [filesMessage])) adaHead "secret"
      ⟨1, 0, .cookie⟩ _ (adaChecked queuedApi (adaSignedIn ++ [filesMessage]))
      ⟨1, "ada".toList, "secret", true, 0, none⟩ (Prod.ext rfl (by decide +kernel))
      (Prod.ext rfl (by decide +kernel)) (by decide +kernel) (by decide +kernel)).1
      (fun hAtOnce => by cases hAtOnce)).1

/-- After the deletion Ada's cookie is worth nothing, also once Ben has registered. -/
theorem deleted_for_good_ben : Gone 1 (siteAfter
    (adaSignedIn ++ [.request (.signedIn (.deleteAccount "secret")) adaHead,
      registers "ben" "secret"])) :=
  (@deleted_for_good demoApi emptySite (siteAfter adaSignedIn) _ adaSignedIn
    [registers "ben" "secret"] emptySite_initial (run_getD (by decide +kernel)) adaHead "secret"
    ⟨1, 0, .cookie⟩ (by decide +kernel) (by decide +kernel) (run_getD_append (by decide +kernel))).1

end SavedOrganizer
