import SavedOrganizer.Accounts.ForeignOrigin
import SavedOrganizer.Accounts.PublicOrigin
import SavedOrganizer.System.SiteInvariant

/-!
# Writes on the strength of a cookie

A browser attaches the session cookie to any request, also to one that another site makes. The gate of
an unsafe request asks for three things more: an origin, the CSRF cookie, and a header that repeats
it. `cookie_write_iff` says which requests pass in a state that the API reaches: those of the page's
own origin that hold both tokens of one sign-in, while its session is accepted.
-/

namespace SavedOrganizer

open Transition Python

/-- The request comes from the expected origin, and says so. -/
def OwnOrigin (env : ApiEnv) (request : BrowserRequest) : Prop :=
  request.crossSite = false ∧ ∃ o, request.supplied env.unicode.toRuntime env.lower = some o ∧
    expectedOrigin env.unicode.toRuntime env.lower env.publicOrigin request = some o ∧
      ∀ c ∈ o, c.toNat < 128

/-- An answer of the run has set these two tokens together. -/
def SetTogether (env : ApiEnv) (s₀ : Site) (actions : List SiteAction) (k : Token) : Prop :=
  ∃ u a v answer, StepOf (Site.step env) s₀ actions u a v ∧ u.answer env a = some answer ∧
    answer.cookies = .set (env.sessionToken k) (env.csrfToken k)

section Gate

variable {env : ApiEnv} {head : RequestHead} {s s' s₀ : Site}

/-! ## The two checks -/

theorem ascii_of_compareDigest {a b : Text} (h : compareDigest a b = some true) :
    ∀ c ∈ a, c.toNat < 128 := by
  unfold compareDigest at h
  split at h
  · rename_i hAscii
    exact fun c hc => of_decide_eq_true (List.all_eq_true.mp (Bool.and_eq_true_iff.mp hAscii).1 c hc)
  · cases h

/-- Where an origin is required, the expected one passes and nothing else. -/
theorem validate_required_iff (request : BrowserRequest) :
    validateBrowserOrigin env.unicode.toRuntime env.lower env.publicOrigin request true = .ok () ↔
      OwnOrigin env request := by
  constructor
  · intro h
    cases hSite : request.crossSite with
    | true =>
        rw [validate_crossSite hSite] at h
        cases h
    | false =>
        refine ⟨hSite, ?_⟩
        rcases supplied_of_ok h with ⟨-, hRequired⟩ | ⟨o, hSupplied, hExpected⟩
        · cases hRequired
        · refine ⟨o, hSupplied, hExpected, ?_⟩
          rw [validate_eq hSite, hSupplied, hExpected] at h
          dsimp only at h
          split at h
          · cases h
          · rename_i hSame
            exact ascii_of_compareDigest hSame
          · cases h
  · rintro ⟨hSite, o, hSupplied, hExpected, hAscii⟩
    rw [validate_eq hSite, hSupplied, hExpected]
    dsimp only
    rw [compareDigest_self hAscii]

/-- The CSRF check asks for the token of the hash, twice. -/
theorem csrfMatches_iff {k : Token} {cookie header : Option Text} :
    csrfMatches env.hash (env.hash (env.csrfToken k)) cookie header = some true ↔
      cookie = some (env.csrfToken k) ∧ header = some (env.csrfToken k) := by
  obtain ⟨hFilled, hPlain⟩ := (env.tokens_plain k).2
  constructor
  · intro h
    unfold csrfMatches at h
    split at h
    · rename_i cookieToken headerToken hCookie hHeader
      obtain ⟨hCookie, -⟩ := Option.filter_eq_some_iff.mp hCookie
      obtain ⟨hHeader, -⟩ := Option.filter_eq_some_iff.mp hHeader
      obtain ⟨same, hDigest, hSame⟩ := Option.map_eq_some_iff.mp h
      obtain ⟨rfl, hHash⟩ := Bool.and_eq_true_iff.mp hSame
      obtain rfl := eq_of_compareDigest hDigest
      obtain rfl := env.hash_injective (beq_iff_eq.mp hHash)
      exact ⟨hCookie, hHeader⟩
    · cases h
  · rintro ⟨rfl, rfl⟩
    have hSome : (some (env.csrfToken k)).filter (fun t => !t.isEmpty) = some (env.csrfToken k) := by
      rw [Option.filter_some, if_pos]
      rw [Bool.not_eq_true', ← Bool.not_eq_true, List.isEmpty_iff]
      exact hFilled
    unfold csrfMatches
    rw [hSome]
    dsimp only
    rw [compareDigest_self fun c hc => Nat.lt_succ_of_lt (hPlain c hc).2, Option.map_some,
      beq_self_eq_true, Bool.and_self]

theorem guardCookieWrite_iff {webSession : SessionId} {k : Token}
    (hHash : s.csrfTokenHash webSession = env.hash (env.csrfToken k)) :
    guardCookieWrite env head s webSession = .ok () ↔ OwnOrigin env head.browser ∧
      head.csrfCookie = some (env.csrfToken k) ∧ head.csrfHeader = some (env.csrfToken k) := by
  rw [← validate_required_iff, ← csrfMatches_iff]
  unfold guardCookieWrite
  rw [hHash]
  cases validateBrowserOrigin env.unicode.toRuntime env.lower env.publicOrigin head.browser true with
  | error e => exact ⟨fun h => (by cases h), fun h => (by cases h.1)⟩
  | ok =>
      dsimp only
      cases csrfMatches env.hash (env.hash (env.csrfToken k)) head.csrfCookie head.csrfHeader with
      | none => exact ⟨fun h => (by cases h), fun h => (by cases h.2)⟩
      | some same =>
          cases same with
          | false => exact ⟨fun h => (by cases h), fun h => (by cases h.2)⟩
          | true => exact ⟨fun _ => ⟨rfl, rfl⟩, fun _ => rfl⟩

/-! ## The gate in one state -/

theorem Resolves.csrf_eq (h : Resolves env head s s') : s'.csrfTokenHash = s.csrfTokenHash := by
  cases h <;> rfl

/-- An unsafe request with the session cookie. -/
theorem getAuthContext_cookie_iff (hInv : SiteInv env s) {context : AuthContext}
    (hSource : context.source = .cookie) : (getAuthContext env head s true).2 = .ok context ↔
      ∃ record k, Authenticated env head s context record k ∧ OwnOrigin env head.browser ∧
        head.csrfCookie = some (env.csrfToken k) ∧ head.csrfHeader = some (env.csrfToken k) := by
  have hCsrf := (@resolves_optional env head s).csrf_eq
  have hGuard {record : WebSession} {k : Token} (hAuth : Authenticated env head s context record k) :
      guardCookieWrite env head (optionalAuthContext env head s).1 context.webSession = .ok () ↔
        OwnOrigin env head.browser ∧ head.csrfCookie = some (env.csrfToken k) ∧
          head.csrfHeader = some (env.csrfToken k) := by
    refine guardCookieWrite_iff ?_
    rw [hCsrf, ← hAuth.sessionId]
    exact hInv.csrf record hAuth.row k hAuth.hashed
  constructor
  · intro h
    have hOptional := optional_of_getAuthContext h
    obtain ⟨record, k, hAuth⟩ := (optionalAuthContext_iff hInv.sessions).mp hOptional
    refine ⟨record, k, hAuth, (hGuard hAuth).mp ?_⟩
    unfold getAuthContext at h
    split at h
    · cases h
    · rename_i resolved found hFound
      rw [hFound] at hOptional ⊢
      obtain rfl := Option.some.inj hOptional
      rw [hSource, Bool.true_and, if_pos (by decide)] at h
      cases hResult : guardCookieWrite env head resolved found.webSession with
      | error e =>
          rw [hResult] at h
          cases h
      | ok => rfl
  · rintro ⟨record, k, hAuth, hChecks⟩
    have hOptional := (optionalAuthContext_iff hInv.sessions).mpr ⟨record, k, hAuth⟩
    have hPass := (hGuard hAuth).mpr hChecks
    unfold getAuthContext
    cases hFound : optionalAuthContext env head s with
    | mk resolved found =>
        rw [hFound] at hOptional hPass
        dsimp only at hOptional hPass ⊢
        rw [hOptional]
        dsimp only
        rw [hSource, Bool.true_and, if_pos (by decide), hPass]
        rfl

/-! ## Where the tokens come from -/

/-- The rows that a call leaves, and its own new one. -/
theorem perform_origin {action : AccountAction} {row' : WebSession}
    (hRow' : row' ∈ (s.accounts.perform env.accounts action).1.sessions) :
    (∃ row ∈ s.accounts.sessions, row'.tokenHash = row.tokenHash) ∨
      row'.tokenHash = env.accounts.hashToken s.accounts.nextToken ∧
        ∃ session, (s.accounts.perform env.accounts action).2 = .issued s.accounts.nextToken session := by
  rcases @row_origin env.accounts s.accounts _ action row' rfl hRow' with
    ⟨row, hRow, hAfter⟩ | ⟨-, hIssued, _, _, rfl⟩
  · exact Or.inl ⟨row, hRow, hAfter.fixed.2.2.1⟩
  · exact Or.inr ⟨rfl, _, hIssued⟩

theorem Resolves.origin (h : Resolves env head s s') {row' : WebSession}
    (hRow' : row' ∈ s'.accounts.sessions) :
    ∃ row ∈ s.accounts.sessions, row'.tokenHash = row.tokenHash := by
  cases h with
  | unknown => exact ⟨row', hRow', rfl⟩
  | @token text source k hToken hRead =>
      rcases @perform_origin env s (.resolve k) row' hRow' with hOld | ⟨-, session, hIssued⟩
      · exact hOld
      · exact absurd hIssued (resolveSession_ne_issued s.accounts k _ _)

/-- A route that leaves a new session sets its tokens. -/
theorem Acts.origin {actor : Option AuthContext} {cookies : CookieChange}
    (h : Acts env s actor s' cookies) {row' : WebSession} (hRow' : row' ∈ s'.accounts.sessions) :
    (∃ row ∈ s.accounts.sessions, row'.tokenHash = row.tokenHash) ∨
      ∃ k, row'.tokenHash = env.accounts.hashToken k ∧
        cookies = .set (env.sessionToken k) (env.csrfToken k) := by
  have hIssues {action : AccountAction} {token : Token} {session : SessionId}
      (hIssued : (s.accounts.perform env.accounts action).2 = .issued token session)
      (hRow' : row' ∈ (s.accounts.perform env.accounts action).1.sessions) :
      (∃ row ∈ s.accounts.sessions, row'.tokenHash = row.tokenHash) ∨
        ∃ k, row'.tokenHash = env.accounts.hashToken k ∧
          CookieChange.set (env.sessionToken token) (env.csrfToken token) =
            .set (env.sessionToken k) (env.csrfToken k) := by
    rcases perform_origin hRow' with hOld | ⟨hHash, -⟩
    · exact Or.inl hOld
    · exact Or.inr ⟨token, (issued_eq hIssued).1 ▸ hHash, rfl⟩
  have hKeeps {action : AccountAction}
      (hNone : ∀ token session, (s.accounts.perform env.accounts action).2 ≠ .issued token session)
      (hRow' : row' ∈ (s.accounts.perform env.accounts action).1.sessions) :
      ∃ row ∈ s.accounts.sessions, row'.tokenHash = row.tokenHash := by
    rcases perform_origin hRow' with hOld | ⟨-, session, hIssued⟩
    · exact hOld
    · exact absurd hIssued (hNone _ _)
  cases h with
  | nothing => exact Or.inl ⟨row', hRow', rfl⟩
  | renamed => exact Or.inl ⟨row', hRow', rfl⟩
  | signInFailed email password rehashed createdAt hNone =>
      exact Or.inl (@hKeeps (.login email password rehashed createdAt) hNone hRow')
  | signedIn email password rehashed createdAt hIssued =>
      exact @hIssues (.login email password rehashed createdAt) _ _ hIssued hRow'
  | registered email displayName passwordHash createdAt hNew =>
      rw [(register_eq_some hNew).sessions] at hRow'
      exact Or.inl ⟨row', hRow', rfl⟩
  | signedOut context =>
      exact Or.inl (@hKeeps (.logout context.webSession) (fun _ _ h => by cases h) hRow')
  | sessionRevoked context session hCookies =>
      exact Or.inl (@hKeeps (.revoke context.user session)
        (revokeSession_ne_issued s.accounts context.user session) hRow')
  | passwordChanged context currentPassword newHash createdAt hIssued =>
      exact @hIssues (.changePassword context.user currentPassword newHash createdAt) _ _ hIssued hRow'
  | connectionRevoked => exact Or.inl ⟨row', hRow', rfl⟩
  | deleted context hDeleted =>
      exact Or.inl ⟨row', (((deleteUser_eq_some hDeleted).sessions row').mp hRow').1, rfl⟩
  | served => exact Or.inl ⟨row', hRow', rfl⟩

/-- The tokens of a session have been set together by an answer. -/
theorem setTogether_of_run {actions : List SiteAction} (hStart : s₀.Initial)
    (hRun : run (Site.step env) s₀ actions = some s) {row : WebSession}
    (hRow : row ∈ s.accounts.sessions) :
    ∃ k, row.tokenHash = env.accounts.hashToken k ∧ SetTogether env s₀ actions k := by
  induction actions using List.reverseRecOn generalizing s row with
  | nil =>
      obtain rfl := Option.some.inj hRun
      rw [show s₀.accounts.sessions = .empty from hStart.sessions] at hRow
      cases hRow
  | append_singleton front action ih =>
      obtain ⟨u, hFront, hStep⟩ := run_concat.mp hRun
      have hEarlier {old : WebSession} (hOld : old ∈ u.accounts.sessions)
          (hHash : row.tokenHash = old.tokenHash) :
          ∃ k, row.tokenHash = env.accounts.hashToken k ∧
            SetTogether env s₀ (front ++ [action]) k := by
        obtain ⟨k, hToken, v, a, w, answer, hSet, hAnswer⟩ := ih hFront hOld
        exact ⟨k, hHash.trans hToken, v, a, w, answer, hSet.append_right _, hAnswer⟩
      cases action with
      | tick elapsed =>
          obtain rfl := Option.some.inj hStep
          exact hEarlier hRow rfl
      | background commit hCategories =>
          obtain rfl := Option.some.inj hStep
          exact hEarlier hRow rfl
      | streams slots =>
          obtain rfl := Option.some.inj hStep
          exact hEarlier hRow rfl
      | request call head =>
          obtain ⟨parts⟩ := handled env head u call
          have hOrigin := @Acts.origin env _ _ _ _ parts.acts row
          obtain rfl := Option.some.inj hStep
          rcases hOrigin hRow with ⟨old, hOld, hHash⟩ | ⟨k, hHash, hCookies⟩
          · obtain ⟨older, hOlder, hSame⟩ := parts.resolves.origin hOld
            exact hEarlier hOlder (hHash.trans hSame)
          · exact ⟨k, hHash, u, .request call head, _, _, ⟨front, [], rfl, hFront, rfl⟩, rfl, hCookies⟩

/-! ## Every run -/

/-- The unsafe requests that pass with a cookie. -/
theorem cookie_write_iff (env : ApiEnv) {s₀ s : Site} {actions : List SiteAction}
    (hStart : s₀.Initial) (hRun : run (Site.step env) s₀ actions = some s) (head : RequestHead)
    (context : AuthContext) :
    ((getAuthContext env head s true).2 = .ok context ∧ context.source = .cookie) ↔
      OwnOrigin env head.browser ∧ bearerToken env.lower head.authorization = none ∧
      ∃ k, SetTogether env s₀ actions k ∧ head.sessionCookie = some (env.sessionToken k) ∧
        head.csrfCookie = some (env.csrfToken k) ∧ head.csrfHeader = some (env.csrfToken k) ∧
        ∃ record ∈ s.accounts.sessions, record.tokenHash = env.accounts.hashToken k ∧
          record.active s.accounts.now = true ∧ s.accounts.isActive record.userId = true ∧
            context = ⟨record.userId, record.id, .cookie⟩ := by
  have hInv := SiteInv.of_run hStart hRun
  constructor
  · rintro ⟨hGate, hSource⟩
    obtain ⟨record, k, hAuth, hOwn, hCookie, hHeader⟩ :=
      (getAuthContext_cookie_iff hInv hSource).mp hGate
    obtain ⟨k', hToken, hSet⟩ := setTogether_of_run hStart hRun hAuth.row
    obtain rfl := env.accounts.hashToken_injective (hAuth.hashed.symm.trans hToken)
    obtain ⟨hBearer, hSession⟩ := requestToken_cookie_iff.mp (hSource ▸ hAuth.token)
    refine ⟨hOwn, hBearer, k, hSet, hSession.1, hCookie, hHeader, record, hAuth.row, hAuth.hashed,
      hAuth.active, hAuth.user, ?_⟩
    rw [hAuth.userId, hAuth.sessionId, ← hSource]
  · rintro ⟨hOwn, hBearer, k, -, hSession, hCookie, hHeader, record, hRow, hHash, hActive, hUser, rfl⟩
    refine ⟨(getAuthContext_cookie_iff hInv rfl).mpr ⟨record, k, ?_, hOwn, hCookie, hHeader⟩, rfl⟩
    exact ⟨requestToken_cookie_iff.mpr ⟨hBearer, hSession, (env.tokens_plain k).1.1⟩, hRow, hHash,
      hActive, hUser, rfl, rfl⟩

/-- Ada's page may write once she is signed in. -/
theorem cookie_write_iff_signedIn :
    (getAuthContext demoApi (pageHead (some (demoSessionToken 0)) (some (demoCsrfToken 0)))
        (siteAfter [registers "ada" "secret", logsIn "ada" "secret"]) true).2 =
      .ok ⟨1, 0, .cookie⟩ ∧
    SetTogether demoApi emptySite [registers "ada" "secret", logsIn "ada" "secret"] 0 := by
  have hRun : run (Site.step demoApi) emptySite [registers "ada" "secret", logsIn "ada" "secret"] =
      some (siteAfter [registers "ada" "secret", logsIn "ada" "secret"]) := rfl
  have hPasses : (getAuthContext demoApi
      (pageHead (some (demoSessionToken 0)) (some (demoCsrfToken 0)))
      (siteAfter [registers "ada" "secret", logsIn "ada" "secret"]) true).2 =
        .ok ⟨1, 0, .cookie⟩ := by decide +kernel
  obtain ⟨-, -, k, hSet, hSession, -⟩ :=
    (cookie_write_iff demoApi emptySite_initial hRun _ _).mp ⟨hPasses, rfl⟩
  obtain rfl := demoSessionToken_injective (Option.some.inj hSession)
  exact ⟨hPasses, hSet⟩

end Gate

end SavedOrganizer
