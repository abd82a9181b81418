import SavedOrganizer.Abuse
import SavedOrganizer.Accounts.Origin
import SavedOrganizer.Accounts.Service
import SavedOrganizer.Service.Streams
import SavedOrganizer.Tenants.Isolation

/-!
# Requests to the API

A request names a session by a cookie or a bearer token. `getAuthContext` resolves it, and guards a
request that writes on the strength of the cookie: it has to come from the page's own origin, and to
repeat in a header the CSRF token that the session was issued with. Behind it are the account routes
and the services of the library, which are run for the user of the session.

A token is the text that `random_token` has drawn for a number; the text of any other cookie is the
hash of no row. Requests are answered one after the other. A deletion of an account cascades through
the tables in the order of the database. A category that still has messages stops it where the
database checks `RESTRICT` row by row, as SQLite does; PostgreSQL makes the check after the cascades
of the same statement.
-/

namespace SavedOrganizer

open Python

/-- A text that a header carries as it is: printable ASCII. -/
def Plain (t : Text) : Prop := t ≠ [] ∧ ∀ c ∈ t, 33 ≤ c.toNat ∧ c.toNat < 127

/-- The tables whose rows go with their user. -/
inductive OwnedTable
  | webSessions | telegramConnections | scanJobs | scanStreamSlots | categories | messages | tags
  deriving DecidableEq, Repr

/-- What the API depends on: the settings, the texts of drawn tokens with their hash, the order in
which the database follows the foreign keys of `users`, and whether it checks `RESTRICT` at once. -/
structure ApiEnv where
  accounts : AccountEnv
  sql : Sql
  unicode : Unicode
  vault : Vault
  subjectHash : String → String → String
  lower : Text → Text
  publicOrigin : Option Text
  allowRegistration : Bool
  hash : Text → String
  hash_injective : Function.Injective hash
  sessionToken : Token → Text
  csrfToken : Token → Text
  readToken : Text → Option Token
  readToken_eq_some : ∀ t k, readToken t = some k ↔ sessionToken k = t
  hashToken_eq : ∀ k, accounts.hashToken k = hash (sessionToken k)
  tokens_plain : ∀ k, Plain (sessionToken k) ∧ Plain (csrfToken k)
  cascades : List OwnedTable
  cascades_all : ∀ table, table ∈ cascades
  cascades_nodup : cascades.Nodup
  restrictAtOnce : Bool

/-! ## The state -/

/-- What an `AccountResponse` says of a user beyond the id. -/
structure Profile where
  email : Text
  displayName : Text
  createdAt : Instant
  deriving DecidableEq, Repr

/-- The rows behind the API. `csrfTokenHash` and `profile` are columns of `web_sessions` and `users`
that the account service does not read. -/
structure Site where
  accounts : Accounts
  nextUser : UserId
  csrfTokenHash : SessionId → String
  profile : UserId → Profile
  buckets : Buckets
  library : Organizer
  streamSlots : Table ScanStreamSlot

/-- `DELETE FROM web_sessions WHERE user_id = userId`. -/
def Accounts.deleteSessions (s : Accounts) (userId : UserId) : Accounts :=
  { s with
    sessions := s.sessions.delete (·.userId == userId)
    sessions_fresh := fun r hr => s.sessions_fresh r (Table.mem_delete.mp hr).1 }

/-! ## Answers -/

/-- The errors of the routes. -/
inductive HttpError
  | authenticationRequired
  | invalidCredentials
  | crossOriginRequestBlocked
  | originRequired
  | csrfValidationFailed
  | invalidPassword
  | registrationDisabled
  | sessionNotFound
  | tooManyRequests (retryAfter : Nat)
  /-- An exception that no route handles. -/
  | internal
  deriving DecidableEq, Repr

def HttpError.status : HttpError → Nat
  | authenticationRequired | invalidCredentials => 401
  | crossOriginRequestBlocked | originRequired | csrfValidationFailed | invalidPassword
  | registrationDisabled => 403
  | sessionNotFound => 404
  | tooManyRequests _ => 429
  | internal => 500

def HttpError.detail : HttpError → String
  | authenticationRequired => "authentication_required"
  | invalidCredentials => "invalid_credentials"
  | crossOriginRequestBlocked => "cross_origin_request_blocked"
  | originRequired => "origin_required"
  | csrfValidationFailed => "csrf_validation_failed"
  | invalidPassword => "invalid_password"
  | registrationDisabled => "registration_disabled"
  | sessionNotFound => "session_not_found"
  | tooManyRequests _ => "too_many_requests"
  | internal => "Internal Server Error"

/-- `AccountResponse`. -/
structure AccountResponse where
  id : UserId
  profile : Profile
  deriving DecidableEq, Repr

/-- `ActiveSessionResponse`. -/
structure ActiveSessionResponse where
  id : SessionId
  createdAt : Instant
  lastSeenAt : Instant
  expiresAt : Instant
  current : Bool
  deriving DecidableEq, Repr

inductive ApiBody
  | noContent
  | sessionStatus (user : Option AccountResponse)
  | account (user : AccountResponse)
  | sessions (rows : List ActiveSessionResponse)
  | service (answer : ServiceAnswer)

/-- The `Set-Cookie` headers of an answer: `_set_session_cookies` and `_clear_session_cookies` name
both cookies. -/
inductive CookieChange
  | keep
  | set (session csrf : Text)
  | clear
  deriving DecidableEq, Repr

structure ApiAnswer where
  result : Except HttpError ApiBody
  cookies : CookieChange

namespace ApiAnswer

def error (e : HttpError) : ApiAnswer := ⟨.error e, .keep⟩

def ok (body : ApiBody) : ApiAnswer := ⟨.ok body, .keep⟩

end ApiAnswer

/-! ## The gate -/

/-- What is read of a request besides its payload. -/
structure RequestHead where
  authorization : Option Text
  sessionCookie : Option Text
  csrfCookie : Option Text
  /-- `X-CSRF-Token`. -/
  csrfHeader : Option Text
  browser : BrowserRequest
  clientHost : Option String
  deriving DecidableEq, Repr

inductive ContextSource
  | cookie | bearer
  deriving DecidableEq, Repr

/-- `AuthContext`. -/
structure AuthContext where
  user : UserId
  webSession : SessionId
  source : ContextSource
  deriving DecidableEq, Repr

/-- `_bearer_token`. -/
def bearerToken (lower : Text → Text) (authorization : Option Text) : Option Text :=
  (authorization.filter fun header => header.contains ' ' &&
    decide (lower (splitFirst ' ' header) = "bearer".toList) &&
    !(strip (afterFirst ' ' header)).isEmpty).map fun header => strip (afterFirst ' ' header)

/-- `csrf_matches`; `none` when `compare_digest` raises. -/
def csrfMatches (hash : Text → String) (csrfTokenHash : String) (cookieToken headerToken : Option Text) :
    Option Bool :=
  match cookieToken.filter (!·.isEmpty), headerToken.filter (!·.isEmpty) with
  | some cookie, some header =>
      (compareDigest cookie header).map fun same => same && hash header == csrfTokenHash
  | _, _ => some false

section Api

variable (env : ApiEnv) (head : RequestHead) (s : Site)

/-- `bearer or cookie`, and where it comes from. -/
def requestToken : Option (Text × ContextSource) :=
  match bearerToken env.lower head.authorization with
  | some bearer => some (bearer, .bearer)
  | none => (head.sessionCookie.filter (!·.isEmpty)).map (·, .cookie)

/-- `optional_auth_context`. -/
def optionalAuthContext : Site × Option AuthContext :=
  match requestToken env head with
  | none => (s, none)
  | some (token, source) =>
      match env.readToken token with
      | none => (s, none)
      | some k =>
          let (accounts, outcome) := s.accounts.resolveSession env.accounts k
          ({ s with accounts := accounts },
            match outcome with
            | .accepted user session => some ⟨user, session, source⟩
            | _ => none)

def OriginCheckError.httpError : OriginCheckError → HttpError
  | .crossOriginRequestBlocked => .crossOriginRequestBlocked
  | .originRequired => .originRequired
  | .typeError => .internal

/-- The guard of `get_auth_context` for a request that writes with the cookie. -/
def guardCookieWrite (webSession : SessionId) : Except HttpError Unit :=
  match validateBrowserOrigin env.unicode.toRuntime env.lower env.publicOrigin head.browser true with
  | .error e => .error e.httpError
  | .ok () =>
      match csrfMatches env.hash (s.csrfTokenHash webSession) head.csrfCookie head.csrfHeader with
      | none => .error .internal
      | some false => .error .csrfValidationFailed
      | some true => .ok ()

/-- `get_auth_context`. -/
def getAuthContext (isUnsafe : Bool) : Site × Except HttpError AuthContext :=
  match optionalAuthContext env head s with
  | (s', none) => (s', .error .authenticationRequired)
  | (s', some context) =>
      if isUnsafe && context.source == .cookie then
        (s', (guardCookieWrite env head s' context.webSession).map fun _ => context)
      else (s', .ok context)

/-! ## Rate limits -/

/-- A rule with all its checks at once. -/
def RateLimitRule.of (scope : String) (limit window : Nat)
    (h : (0 < scope.length ∧ scope.length ≤ 48) ∧ 0 < limit ∧ 0 < window) : RateLimitRule :=
  ⟨scope, limit, window, h.1, h.2.1, h.2.2⟩

def LOGIN_PER_IP : RateLimitRule := .of "login_ip" 50 (15 * 60) (by decide)
def LOGIN_PER_IDENTITY : RateLimitRule := .of "login_identity" 20 (15 * 60) (by decide)
def REGISTRATION_PER_IP : RateLimitRule := .of "registration_ip" 5 (60 * 60) (by decide)
def SENSITIVE_PASSWORD_PER_IP : RateLimitRule :=
  .of "sensitive_password_ip" 30 (15 * 60) (by decide)
def SENSITIVE_PASSWORD_PER_USER : RateLimitRule :=
  .of "sensitive_password_user" 10 (15 * 60) (by decide)

/-- `client_ip_subject`. -/
def clientIpSubject : String := (head.clientHost.filter (!·.isEmpty)).getD "unavailable"

/-- `enforce_rate_limits`. -/
def enforceRateLimits (checks : List RateLimitCheck) : Site × Except HttpError Unit :=
  match DatabaseRateLimiter.consume env.subjectHash s.accounts.now checks s.buckets with
  | (buckets, .accepted) => ({ s with buckets := buckets }, .ok ())
  | (buckets, .exceeded retryAfter) =>
      ({ s with buckets := buckets }, .error (.tooManyRequests retryAfter))
  | (buckets, .invalid _) => ({ s with buckets := buckets }, .error .internal)

/-! ## Users -/

/-- `AccountService.register`; `none` for `AccountConflictError`. The seed is in the transaction. -/
def register (email displayName : Text) (passwordHash : String) (createdAt : Instant) : Option Site :=
  let normalizedEmail := normalizeEmail env.accounts email
  if s.accounts.users.rows.any (·.normalizedEmail = normalizedEmail) then none
  else
    (s.accounts.users.insert? ⟨s.nextUser, normalizedEmail, passwordHash, true, 0, none⟩).map
      fun users =>
        { s with
          accounts := { s.accounts with users := users }
          nextUser := s.nextUser + 1
          profile := Function.update s.profile s.nextUser
            ⟨strip email, strip displayName, createdAt⟩
          library := seedDefaultCategories env.unicode s.nextUser s.library }

end Api

/-- The marker names a job of the user. -/
def markedByUser (userId : UserId) (jobs : Table ScanJob) (m : Message) : Bool :=
  m.lastSeenReplacementJobId.any fun job => (jobs.find? job).any (·.userId == userId)

section Cascade

variable (s : Organizer) (userId : UserId)

/-- The tables that a deletion of a user leaves the categories in. -/
theorem categories_withoutConnections :
    { s.db with connections := s.db.connections.delete (·.userId == userId) }.categories =
      s.db.categories := rfl

theorem categories_withoutJobs :
    { s.db with jobs := s.db.jobs.delete (·.userId == userId) }.categories = s.db.categories := rfl

theorem categories_dropMessages :
    (LibraryEdit.dropMessages s.db (·.userId == userId)).categories = s.db.categories := rfl

theorem unmark_id : ∀ m : Message, m.unmark.id = m.id := fun _ => rfl

end Cascade

/-- A message of the user refers to one of the user's categories. -/
def Organizer.refersTo (userId : UserId) (s : Organizer) (categories : Table Category) : Bool :=
  s.db.messages.rows.any fun m => m.userId == userId &&
    categories.rows.any fun c => c.userId == userId && c.id == m.categoryId

/-- The rows of the user in one table of the library, and what refers to them. Where `RESTRICT` is
checked at once a category that has messages cannot go. -/
def Organizer.cascade (atOnce : Bool) (userId : UserId) (s : Organizer) : OwnedTable → Option Organizer
  | .webSessions => some s
  | .scanStreamSlots => some s
  | .telegramConnections => some (s.withDatabase
      { s.db with connections := s.db.connections.delete (·.userId == userId) }
      (categories_withoutConnections s userId))
  | .scanJobs => some ((s.withDatabase
      { s.db with jobs := s.db.jobs.delete (·.userId == userId) }
      (categories_withoutJobs s userId)).updateMessages (markedByUser userId s.db.jobs)
        Message.unmark unmark_id)
  | .categories =>
      if atOnce && s.refersTo userId s.db.categories then none
      else some (s.deleteCategories (·.userId == userId))
  | .messages => some (s.withDatabase (LibraryEdit.dropMessages s.db (·.userId == userId))
      (categories_dropMessages s userId))
  | .tags => some ((s.deleteMessageTags fun a => s.tags.rows.any fun t =>
      t.userId == userId && t.userId == a.userId && t.id == a.tagId).deleteTags (·.userId == userId))

namespace Site

variable (env : ApiEnv) (head : RequestHead) (s : Site)

def cascade (atOnce : Bool) (userId : UserId) (s : Site) (table : OwnedTable) : Option Site :=
  let kept := if table = .webSessions then s.accounts.deleteSessions userId else s.accounts
  let slots := if table = .scanStreamSlots then s.streamSlots.delete (·.userId == userId)
    else s.streamSlots
  (s.library.cascade atOnce userId table).map fun library =>
    { s with accounts := kept, library := library, streamSlots := slots }

/-- `revoke_telegram_connection`, which commits. -/
def revokeConnection (userId : UserId) : Site :=
  let db := revokeTelegramConnection s.accounts.now userId s.library.db
  { s with library := s.library.withDatabase db rfl }

/-- `DELETE FROM users WHERE id = userId`. A check that was not made at once looks for what refers to
the categories that have gone. -/
def deleteUser (userId : UserId) : Option Site :=
  (env.cascades.foldlM (cascade env.restrictAtOnce userId) s).bind fun t =>
    if !env.restrictAtOnce && t.library.refersTo userId s.library.db.categories then none
    else some
      { t with accounts := { t.accounts with users := t.accounts.users.delete (·.id == userId) } }

/-- The rows of a session that has been issued. -/
def issue (accounts : Accounts) (token : Token) (session : SessionId) : Site :=
  { s with
    accounts := accounts
    csrfTokenHash := Function.update s.csrfTokenHash session (env.hash (env.csrfToken token)) }

def accountResponse (user : UserId) : AccountResponse := ⟨user, s.profile user⟩

end Site

/-! ## The routes -/

/-- The routes that need no session, with the payload and what `hash_password` and the database come
up with. -/
inductive PublicCall
  | sessionStatus
  | createSession (email : Text) (password rehashed : String) (createdAt : Instant)
  | registerAccount (email displayName : Text) (passwordHash : String) (createdAt : Instant)

/-- The routes behind `get_auth_context`. -/
inductive AccountCall
  | deleteSession
  | getAccount
  | updateAccount (displayName : Text)
  | changePassword (currentPassword newHash : String) (createdAt : Instant)
  | deleteAccount (password : String)
  | listActiveSessions
  | revokeActiveSession (sessionId : SessionId)
  | service (request : ServiceRequest)

inductive ApiCall
  | anyone (call : PublicCall)
  | signedIn (call : AccountCall)

/-- The method of the route is in `UNSAFE_METHODS`. -/
def ServiceRequest.isUnsafe : ServiceRequest → Bool
  | listMessages _ | getMessage _ | getCachedMedia _ | listTags | listTagsWithCounts
  | listCategories => false
  | _ => true

def AccountCall.isUnsafe : AccountCall → Bool
  | getAccount | listActiveSessions => false
  | service request => request.isUnsafe
  | _ => true

section Routes

variable (env : ApiEnv) (head : RequestHead) (s : Site)

/-- `session_status`. -/
def sessionStatus : Site × ApiAnswer :=
  match optionalAuthContext env head s with
  | (s, none) => (s, .ok (.sessionStatus none))
  | (s, some context) => (s, .ok (.sessionStatus (some (s.accountResponse context.user))))

/-- What a route does once its quota is checked. -/
def limited (checks : List RateLimitCheck) (route : Site → Site × ApiAnswer) : Site × ApiAnswer :=
  match enforceRateLimits env s checks with
  | (s, .error e) => (s, .error e)
  | (s, .ok ()) => route s

/-- A route that asks for a browser of the same origin and a quota first. -/
def admitted (checks : List RateLimitCheck) (route : Site → Site × ApiAnswer) : Site × ApiAnswer :=
  match validateBrowserOrigin env.unicode.toRuntime env.lower env.publicOrigin head.browser false with
  | .error e => (s, .error e.httpError)
  | .ok () => limited env s checks route

/-- `create_session`. -/
def createSession (email : Text) (password rehashed : String) (createdAt : Instant) :
    Site × ApiAnswer :=
  admitted env head s [⟨LOGIN_PER_IP, clientIpSubject head⟩,
      ⟨LOGIN_PER_IDENTITY, String.ofList (normalizeEmail env.accounts email)⟩] fun s =>
    match s.accounts.login env.accounts email password rehashed createdAt with
    | (accounts, .issued token session) =>
        let issued := s.issue env accounts token session
        (issued, ⟨.ok (.sessionStatus ((accounts.sessions.find? session).map fun record =>
          issued.accountResponse record.userId)), .set (env.sessionToken token) (env.csrfToken token)⟩)
    | (accounts, _) => ({ s with accounts := accounts }, .error .invalidCredentials)

/-- `register_account`: a conflict is answered like a new account. -/
def registerAccount (email displayName : Text) (passwordHash : String) (createdAt : Instant) :
    Site × ApiAnswer :=
  admitted env head s [⟨REGISTRATION_PER_IP, clientIpSubject head⟩] fun s =>
    if env.allowRegistration then
      ((register env s email displayName passwordHash createdAt).getD s, .ok .noContent)
    else (s, .error .registrationDisabled)

/-- The quota of a route that asks for the password again. -/
def passwordChecks (user : UserId) : List RateLimitCheck :=
  [⟨SENSITIVE_PASSWORD_PER_IP, clientIpSubject head⟩, ⟨SENSITIVE_PASSWORD_PER_USER, toString user⟩]

/-- `change_password`. -/
def changePassword (context : AuthContext) (currentPassword newHash : String) (createdAt : Instant) :
    Site × ApiAnswer :=
  limited env s (passwordChecks head context.user) fun s =>
    match s.accounts.changePassword env.accounts context.user currentPassword newHash createdAt with
    | (accounts, .issued token session) =>
        (s.issue env accounts token session,
          ⟨.ok .noContent, .set (env.sessionToken token) (env.csrfToken token)⟩)
    | (accounts, _) => ({ s with accounts := accounts }, .error .invalidPassword)

/-- `delete_account`. The connection is revoked in a transaction of its own. -/
def deleteAccount (context : AuthContext) (password : String) : Site × ApiAnswer :=
  limited env s (passwordChecks head context.user) fun s =>
    if (s.accounts.users.find? context.user).any fun user =>
        env.accounts.verifyPassword user.passwordHash password then
      let revoked := s.revokeConnection context.user
      match revoked.deleteUser env context.user with
      | none => (revoked, .error .internal)
      | some s => (s, ⟨.ok .noContent, .clear⟩)
    else (s, .error .invalidPassword)

/-- `list_sessions`. -/
def listSessions (userId : UserId) : List WebSession :=
  ((s.accounts.sessions.rows.filter (·.activeOf userId s.accounts.now)).mergeSort
    fun a b => b.lastSeenAt ≤ a.lastSeenAt).take env.accounts.maxActiveSessions

def ActiveSessionResponse.of (current : SessionId) (record : WebSession) : ActiveSessionResponse :=
  ⟨record.id, record.createdAt, record.lastSeenAt, record.expiresAt, record.id == current⟩

/-- `revoke_active_session`. -/
def revokeActiveSession (context : AuthContext) (sessionId : SessionId) : Site × ApiAnswer :=
  match s.accounts.revokeSession context.user sessionId with
  | (accounts, .done) =>
      ({ s with accounts := accounts },
        ⟨.ok .noContent, if sessionId = context.webSession then .clear else .keep⟩)
  | (accounts, _) => ({ s with accounts := accounts }, .error .sessionNotFound)

def PublicCall.handle : PublicCall → Site × ApiAnswer
  | sessionStatus => SavedOrganizer.sessionStatus env head s
  | createSession email password rehashed createdAt =>
      SavedOrganizer.createSession env head s email password rehashed createdAt
  | registerAccount email displayName passwordHash createdAt =>
      SavedOrganizer.registerAccount env head s email displayName passwordHash createdAt

def AccountCall.handle (context : AuthContext) : AccountCall → Site × ApiAnswer
  | deleteSession =>
      ({ s with accounts := (s.accounts.logout context.webSession).1 }, ⟨.ok .noContent, .clear⟩)
  | getAccount => (s, .ok (.account (s.accountResponse context.user)))
  | updateAccount displayName =>
      let profile := { s.profile context.user with displayName := strip displayName }
      let updated : Site := { s with profile := Function.update s.profile context.user profile }
      (updated, .ok (.account (updated.accountResponse context.user)))
  | changePassword currentPassword newHash createdAt =>
      SavedOrganizer.changePassword env head s context currentPassword newHash createdAt
  | deleteAccount password => SavedOrganizer.deleteAccount env head s context password
  | listActiveSessions =>
      (s, .ok (.sessions ((listSessions env s context.user).map (.of context.webSession))))
  | revokeActiveSession sessionId => SavedOrganizer.revokeActiveSession s context sessionId
  | service request =>
      let (answer, library) := request.run env.sql env.unicode env.vault context.user s.library
      ({ s with library := library }, .ok (.service answer))

/-- A request and its answer. -/
def ApiCall.handle : ApiCall → Site × ApiAnswer
  | anyone call => call.handle env head s
  | signedIn call =>
      match getAuthContext env head s call.isUnsafe with
      | (s, .error e) => (s, .error e)
      | (s, .ok context) => call.handle env head s context

end Routes

end SavedOrganizer
