import SavedOrganizer.Accounts.Requests
import SavedOrganizer.System.SessionBound
import SavedOrganizer.System.SessionLifetime

/-!
# Runs of the API

Requests of any clients in any order, with time passing between them, and with whatever scans and the
routes of the Telegram connection commit meanwhile. A request resolves the session it names, may count
against a quota, and then does what its route does (`Acts`), for the user of its context. `handled`
says this once, and the invariants are kept part by part.
-/

namespace SavedOrganizer

open Transition

inductive SiteAction
  | tick (elapsed : Nat)
  | request (call : ApiCall) (head : RequestHead)
  /-- A commit of another part of the program: any rows but categories may change. -/
  | background (commit : Database → Database)
      (hCategories : ∀ db, (commit db).categories = db.categories)
  /-- The status streams claim, renew and release their slots. -/
  | streams (slots : Table ScanStreamSlot)

namespace Site

/-- The answer of a step. -/
def answer (env : ApiEnv) (s : Site) : SiteAction → Option ApiAnswer
  | .tick _ => none
  | .request call head => some (call.handle env head s).2
  | .background _ _ => none
  | .streams _ => none

def step (env : ApiEnv) (s : Site) : SiteAction → Option Site
  | .tick elapsed => some { s with accounts := { s.accounts with now := s.accounts.now + elapsed } }
  | .request call head => some (call.handle env head s).1
  | .background commit hCategories =>
      some { s with library := s.library.withDatabase (commit s.library.db) (hCategories _) }
  | .streams slots => some { s with streamSlots := slots }

/-- Nobody has registered. -/
structure Initial (s : Site) : Prop where
  users : s.accounts.users = .empty
  sessions : s.accounts.Initial
  categories : s.library.db.categories = .empty

end Site

/-! ## What a request does -/

section Handled

variable {env : ApiEnv} {head : RequestHead} {s s' : Site}

/-- The session that a request names is resolved. -/
inductive Resolves (env : ApiEnv) (head : RequestHead) (s : Site) : Site → Prop
  | unknown : Resolves env head s s
  | token {text : Text} {source : ContextSource} {k : Token}
      (hToken : requestToken env head = some (text, source)) (hRead : env.readToken text = some k) :
      Resolves env head s { s with accounts := (s.accounts.resolveSession env.accounts k).1 }

/-- What a route does itself, in its context if it has one, and the cookies of its answer. -/
inductive Acts (env : ApiEnv) (s : Site) : Option AuthContext → Site → CookieChange → Prop
  | nothing (actor : Option AuthContext) : Acts env s actor s .keep
  | renamed (context : AuthContext) (profile : Profile) :
      Acts env s (some context)
        { s with profile := Function.update s.profile context.user profile } .keep
  | signInFailed (email : Text) (password rehashed : String) (createdAt : Instant)
      (hNone : ∀ token session,
        (s.accounts.login env.accounts email password rehashed createdAt).2 ≠ .issued token session) :
      Acts env s none
        { s with accounts := (s.accounts.login env.accounts email password rehashed createdAt).1 } .keep
  | signedIn (email : Text) (password rehashed : String) (createdAt : Instant) {token : Token}
      {session : SessionId}
      (hIssued : (s.accounts.login env.accounts email password rehashed createdAt).2 =
        .issued token session) :
      Acts env s none
        (s.issue env (s.accounts.login env.accounts email password rehashed createdAt).1 token session)
        (.set (env.sessionToken token) (env.csrfToken token))
  | registered (email displayName : Text) (passwordHash : String) (createdAt : Instant) {t : Site}
      (hNew : register env s email displayName passwordHash createdAt = some t) :
      Acts env s none t .keep
  | signedOut (context : AuthContext) :
      Acts env s (some context)
        { s with accounts := (s.accounts.logout context.webSession).1 } .clear
  | sessionRevoked (context : AuthContext) (session : SessionId) {cookies : CookieChange}
      (hCookies : cookies = .keep ∨ cookies = .clear) :
      Acts env s (some context)
        { s with accounts := (s.accounts.revokeSession context.user session).1 } cookies
  | passwordChanged (context : AuthContext) (currentPassword newHash : String) (createdAt : Instant)
      {token : Token} {session : SessionId}
      (hIssued : (s.accounts.changePassword env.accounts context.user currentPassword newHash
        createdAt).2 = .issued token session) :
      Acts env s (some context)
        (s.issue env (s.accounts.changePassword env.accounts context.user currentPassword newHash
          createdAt).1 token session)
        (.set (env.sessionToken token) (env.csrfToken token))
  | connectionRevoked (context : AuthContext) :
      Acts env s (some context) (s.revokeConnection context.user) .keep
  | deleted (context : AuthContext) {t : Site}
      (hDeleted : (s.revokeConnection context.user).deleteUser env context.user = some t) :
      Acts env s (some context) t .clear
  | served (context : AuthContext) (request : ServiceRequest) :
      Acts env s (some context)
        { s with library := (request.run env.sql env.unicode env.vault context.user s.library).2 } .keep

/-- A request in its three parts. -/
structure Handled (env : ApiEnv) (head : RequestHead) (call : ApiCall) (s s' : Site)
    (cookies : CookieChange) where
  resolved : Site
  buckets : Buckets
  actor : Option AuthContext
  resolves : Resolves env head s resolved
  acts : Acts env { resolved with buckets := buckets } actor s' cookies
  acting : ∀ context, actor = some context → ∃ account, call = .signedIn account ∧
    (getAuthContext env head s account.isUnsafe).2 = .ok context

theorem resolves_optional : Resolves env head s (optionalAuthContext env head s).1 := by
  unfold optionalAuthContext
  split
  · exact .unknown
  · rename_i text source hToken
    split
    · exact .unknown
    · rename_i k hRead
      exact .token hToken hRead

theorem getAuthContext_fst (isUnsafe : Bool) :
    (getAuthContext env head s isUnsafe).1 = (optionalAuthContext env head s).1 := by
  unfold getAuthContext
  split
  · rename_i hContext
    rw [hContext]
  · rename_i hContext
    rw [hContext]
    split <;> rfl

/-- Past the gate a request is its route. -/
theorem handle_of_gate {call : AccountCall} {context : AuthContext}
    (hGate : getAuthContext env head s call.isUnsafe = (s', .ok context)) :
    (ApiCall.signedIn call).handle env head s = call.handle env head s' context := by
  unfold ApiCall.handle
  dsimp only
  rw [hGate]

/-- A quota changes the buckets only. -/
theorem enforce_cases (checks : List RateLimitCheck) : ∃ buckets,
    (enforceRateLimits env s checks).1 = { s with buckets := buckets } := by
  unfold enforceRateLimits
  split <;> exact ⟨_, rfl⟩

/-- What the part of a request behind the session does. -/
def Counts (env : ApiEnv) (s : Site) (actor : Option AuthContext) (s' : Site) (cookies : CookieChange) :
    Prop :=
  ∃ buckets, Acts env { s with buckets := buckets } actor s' cookies

theorem counts_of_acts {actor : Option AuthContext} {cookies : CookieChange}
    (h : Acts env s actor s' cookies) : Counts env s actor s' cookies :=
  ⟨s.buckets, h⟩

theorem counts_limited {checks : List RateLimitCheck} {actor : Option AuthContext}
    {route : Site → Site × ApiAnswer}
    (h : ∀ t, Acts env t actor (route t).1 (route t).2.cookies) :
    Counts env s actor (limited env s checks route).1 (limited env s checks route).2.cookies := by
  obtain ⟨buckets, hBuckets⟩ := @enforce_cases env s checks
  refine ⟨buckets, ?_⟩
  rw [← hBuckets]
  unfold limited
  cases hEnforce : enforceRateLimits env s checks with
  | mk counted result =>
      cases result with
      | error e => exact .nothing actor
      | ok => exact h counted

theorem counts_createSession (email : Text) (password rehashed : String) (createdAt : Instant) :
    Counts env s none (createSession env head s email password rehashed createdAt).1
      (createSession env head s email password rehashed createdAt).2.cookies := by
  unfold createSession admitted
  split
  · exact counts_of_acts (.nothing none)
  · refine counts_limited fun t => ?_
    have hFailed := @Acts.signInFailed env t email password rehashed createdAt
    have hSignedIn := @Acts.signedIn env t email password rehashed createdAt
    cases hLogin : t.accounts.login env.accounts email password rehashed createdAt with
    | mk accounts outcome =>
        rw [hLogin] at hFailed hSignedIn
        cases outcome with
        | issued token session => exact hSignedIn rfl
        | _ => exact hFailed fun _ _ h => by cases h

theorem counts_registerAccount (email displayName : Text) (passwordHash : String)
    (createdAt : Instant) :
    Counts env s none (registerAccount env head s email displayName passwordHash createdAt).1
      (registerAccount env head s email displayName passwordHash createdAt).2.cookies := by
  unfold registerAccount admitted
  split
  · exact counts_of_acts (.nothing none)
  · refine counts_limited fun t => ?_
    split
    · cases hNew : register env t email displayName passwordHash createdAt with
      | none => exact .nothing none
      | some u => exact .registered email displayName passwordHash createdAt hNew
    · exact .nothing none

theorem counts_changePassword (context : AuthContext) (currentPassword newHash : String)
    (createdAt : Instant) :
    Counts env s (some context)
      (changePassword env head s context currentPassword newHash createdAt).1
      (changePassword env head s context currentPassword newHash createdAt).2.cookies := by
  unfold changePassword
  refine counts_limited fun t => ?_
  have hChanged := @Acts.passwordChanged env t context currentPassword newHash createdAt
  have hKept (hNone : ∀ token session,
      (t.accounts.changePassword env.accounts context.user currentPassword newHash createdAt).2 ≠
        .issued token session) :
      (t.accounts.changePassword env.accounts context.user currentPassword newHash createdAt).1 =
        t.accounts := by
    unfold Accounts.changePassword at hNone ⊢
    split
    · rfl
    · split
      · rename_i hFind hVerified
        rw [hFind] at hNone
        dsimp only at hNone
        rw [if_pos hVerified] at hNone
        exact absurd rfl (hNone _ _)
      · rfl
  cases hChange : t.accounts.changePassword env.accounts context.user currentPassword newHash
      createdAt with
  | mk accounts outcome =>
      rw [hChange] at hChanged hKept
      cases outcome with
      | issued token session => exact hChanged rfl
      | _ =>
          obtain rfl := hKept fun _ _ h => by cases h
          exact .nothing _

theorem counts_deleteAccount (context : AuthContext) (password : String) :
    Counts env s (some context) (deleteAccount env head s context password).1
      (deleteAccount env head s context password).2.cookies := by
  unfold deleteAccount
  refine counts_limited fun t => ?_
  split
  · dsimp only
    cases hDeleted : (t.revokeConnection context.user).deleteUser env context.user with
    | none => exact .connectionRevoked context
    | some u => exact .deleted context hDeleted
  · exact .nothing _

theorem counts_signedIn (context : AuthContext) (call : AccountCall) :
    Counts env s (some context) (call.handle env head s context).1
      (call.handle env head s context).2.cookies := by
  cases call with
  | deleteSession => exact counts_of_acts (.signedOut _)
  | getAccount => exact counts_of_acts (.nothing _)
  | updateAccount displayName => exact counts_of_acts (.renamed _ _)
  | changePassword currentPassword newHash createdAt =>
      exact counts_changePassword context currentPassword newHash createdAt
  | deleteAccount password => exact counts_deleteAccount context password
  | listActiveSessions => exact counts_of_acts (.nothing _)
  | revokeActiveSession session =>
      refine counts_of_acts ?_
      have hRevoked (cookies : CookieChange) :=
        @Acts.sessionRevoked env s context session cookies
      show Acts env s _ (revokeActiveSession s context session).1
        (revokeActiveSession s context session).2.cookies
      unfold revokeActiveSession
      cases hRevoke : s.accounts.revokeSession context.user session with
      | mk accounts outcome =>
          rw [hRevoke] at hRevoked
          cases outcome with
          | done =>
              refine hRevoked _ ?_
              show (if session = context.webSession then CookieChange.clear else .keep) = .keep ∨ _
              split
              · exact Or.inr rfl
              · exact Or.inl rfl
          | _ => exact hRevoked _ (Or.inl rfl)
  | service request => exact counts_of_acts (.served _ _)

/-- Every request is done in its three parts. -/
theorem handled (env : ApiEnv) (head : RequestHead) (s : Site) (call : ApiCall) :
    Nonempty (Handled env head call s (call.handle env head s).1
      (call.handle env head s).2.cookies) := by
  cases call with
  | anyone call =>
      cases call with
      | sessionStatus =>
          refine ⟨⟨(optionalAuthContext env head s).1, (optionalAuthContext env head s).1.buckets,
            none, resolves_optional, ?_, fun _ h => by cases h⟩⟩
          show Acts env _ none (sessionStatus env head s).1 (sessionStatus env head s).2.cookies
          unfold sessionStatus
          split <;> rename_i hContext <;> rw [hContext] <;> exact .nothing none
      | createSession email password rehashed createdAt =>
          obtain ⟨buckets, hActs⟩ :=
            @counts_createSession env head s email password rehashed createdAt
          exact ⟨⟨s, buckets, none, .unknown, hActs, fun _ h => by cases h⟩⟩
      | registerAccount email displayName passwordHash createdAt =>
          obtain ⟨buckets, hActs⟩ :=
            @counts_registerAccount env head s email displayName passwordHash createdAt
          exact ⟨⟨s, buckets, none, .unknown, hActs, fun _ h => by cases h⟩⟩
  | signedIn call =>
      have hFst := @getAuthContext_fst env head s call.isUnsafe
      have hResolves := @resolves_optional env head s
      rw [← hFst] at hResolves
      unfold ApiCall.handle
      dsimp only
      cases hGate : getAuthContext env head s call.isUnsafe with
      | mk resolved result =>
          rw [hGate] at hResolves
          cases result with
          | error e => exact ⟨⟨resolved, resolved.buckets, none, hResolves, .nothing none,
              fun _ h => by cases h⟩⟩
          | ok context =>
              obtain ⟨buckets, hActs⟩ := @counts_signedIn env head resolved context call
              refine ⟨⟨resolved, buckets, some context, hResolves, hActs, fun user h => ?_⟩⟩
              obtain rfl := Option.some.inj h
              exact ⟨call, rfl, congrArg Prod.snd hGate⟩

end Handled

/-! ## What it does to the accounts -/

section Accounts

variable {env : AccountEnv} {s s' : Accounts} {action : AccountAction}

/-- There is a user of this id. -/
def Accounts.HasUser (s : Accounts) (userId : UserId) : Prop := (s.users.find? userId).isSome = true

theorem hasUser_iff {userId : UserId} : s.HasUser userId ↔ ∃ u ∈ s.users, u.id = userId := by
  constructor
  · intro h
    obtain ⟨u, hu⟩ := Option.isSome_iff_exists.mp h
    exact ⟨u, Table.mem_of_find? hu, Table.key_of_find? hu⟩
  · rintro ⟨u, hu, rfl⟩
    exact Option.isSome_iff_exists.mpr ⟨u, Table.find?_key hu⟩

theorem hasUser_updateUser {userId : UserId} {f : User → User} {hKey : ∀ u, (f u).id = u.id}
    (id : UserId) : (s.updateUser userId f hKey).HasUser id ↔ s.HasUser id := by
  unfold Accounts.HasUser Accounts.updateUser
  rw [Table.find?_update, Option.isSome_map]

/-- What a call leaves of the users and of who owns the sessions. -/
structure KeepsUsers (s s' : Accounts) : Prop where
  users : ∀ id, s'.HasUser id ↔ s.HasUser id
  owners : ∀ row' ∈ s'.sessions, (∃ row ∈ s.sessions, row.userId = row'.userId) ∨
    s.HasUser row'.userId

theorem KeepsUsers.of_sessions (hUsers : ∀ id, s'.HasUser id ↔ s.HasUser id)
    (hRows : ∀ row' ∈ s'.sessions, ∃ row ∈ s.sessions, row.userId = row'.userId) :
    KeepsUsers s s' :=
  ⟨hUsers, fun row' hRow' => Or.inl (hRows row' hRow')⟩

theorem keepsUsers_updateSessions {p : WebSession → Bool} {f : WebSession → WebSession}
    {hKey : ∀ r, (f r).id = r.id} (hOwner : ∀ r, (f r).userId = r.userId) :
    KeepsUsers s (s.updateSessions p f hKey) := by
  refine .of_sessions (fun _ => Iff.rfl) fun row' hRow' => ?_
  obtain ⟨row, hRow, rfl⟩ := Accounts.mem_updateSessions.mp hRow'
  refine ⟨row, hRow, ?_⟩
  split
  · exact (hOwner row).symm
  · rfl

theorem keepsUsers_perform (env : AccountEnv) (s : Accounts) (action : AccountAction) :
    KeepsUsers s (s.perform env action).1 := by
  have hSame : KeepsUsers s s := .of_sessions (fun _ => Iff.rfl) fun row hRow => ⟨row, hRow, rfl⟩
  cases action with
  | tick elapsed => exact .of_sessions (fun _ => Iff.rfl) fun row hRow => ⟨row, hRow, rfl⟩
  | login email password rehashed createdAt =>
      show KeepsUsers s (s.login env email password rehashed createdAt).1
      unfold Accounts.login
      split
      · exact hSame
      · rename_i stored hFind
        dsimp only
        split
        · split
          · exact .of_sessions (fun id => hasUser_updateUser id) fun row hRow => ⟨row, hRow, rfl⟩
          · exact hSame
        · refine ⟨@hasUser_updateUser s _ (fun row => (row.endLockout s.now).signIn env rehashed)
            (fun row => row.endLockout_id s.now), fun row' hRow' => ?_⟩
          rcases (Accounts.mem_issueSession env _).mp hRow' with hKept | rfl
          · obtain ⟨row, hRow, hAfter⟩ :=
              (@carries_prepare env s (.tick 0) (stored.endLockout s.now).id).backward row' hKept
            exact Or.inl ⟨row, hRow, hAfter.fixed.2.1.symm⟩
          · exact Or.inr (hasUser_iff.mpr ⟨stored, List.mem_of_find?_eq_some hFind,
              (User.endLockout_id s.now stored).symm⟩)
  | resolve token =>
      show KeepsUsers s (s.resolveSession env token).1
      unfold Accounts.resolveSession
      split
      · exact hSame
      · dsimp only
        split
        · split
          · exact keepsUsers_updateSessions fun _ => rfl
          · exact hSame
        · split
          · exact keepsUsers_updateSessions fun _ => rfl
          · exact hSame
  | revoke userId sessionId =>
      show KeepsUsers s (s.revokeSession userId sessionId).1
      unfold Accounts.revokeSession
      split
      · exact keepsUsers_updateSessions fun _ => rfl
      · exact hSame
  | logout sessionId => exact keepsUsers_updateSessions fun _ => rfl
  | changePassword userId currentPassword newHash createdAt =>
      show KeepsUsers s (s.changePassword env userId currentPassword newHash createdAt).1
      unfold Accounts.changePassword
      split
      · exact hSame
      · rename_i user hFind
        split
        · refine ⟨@hasUser_updateUser s _ (fun row => { row with passwordHash := newHash })
            (fun _ => rfl), fun row' hRow' => ?_⟩
          rcases (Accounts.mem_issueSession env _).mp hRow' with hKept | rfl
          · exact (@keepsUsers_updateSessions s _ (WebSession.revoke s.now) (fun _ => rfl)
              fun _ => rfl).owners row' hKept
          · exact Or.inr (Option.isSome_iff_exists.mpr ⟨user, hFind⟩)
        · exact hSame

end Accounts

end SavedOrganizer
