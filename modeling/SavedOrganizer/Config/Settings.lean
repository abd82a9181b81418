import SavedOrganizer.Accounts.PublicOrigin
import SavedOrganizer.Accounts.Service
import SavedOrganizer.Library.Checks
import SavedOrganizer.Security
import SavedOrganizer.Service.Start

/-!
# The settings

`_build_settings` reads the environment once, when a process starts, and refuses what it cannot
accept with a `RuntimeError`. The numbers it accepts are positive, so its result keeps that
(`AppSettings`), and from it come the settings the other services are given.

What is read of a file is an argument. `int`, `str.lower` and `ipaddress.ip_address(..).is_loopback`
are parameters of which nothing is assumed.
-/

namespace SavedOrganizer

open Python

def MASTER_KEY_BYTES : Nat := 48
def MASTER_KEY_ENCODED_LENGTH : Nat := 64
def MIN_MASTER_KEY_UNIQUE_BYTES : Nat := 16

def PRODUCTION_PLACEHOLDER_MARKERS : List Text :=
  ["replace-with".toList, "organizer.example.com".toList]

/-- What the configuration uses of the language. -/
structure ConfigRuntime where
  py : Runtime
  lower : Text → Text
  /-- `int(..)`, none for a `ValueError`. -/
  readInt : Text → Option Int
  /-- `ip_address(..).is_loopback`, none for a `ValueError`. -/
  isLoopback : Text → Option Bool

/-- `os.environ`. -/
abbrev Environment := String → Option Text

inductive ConfigError
  /-- `RuntimeError`. -/
  | runtime (message : String)
  /-- A `ValueError` that nothing catches. -/
  | value
  deriving DecidableEq, Repr

abbrev Configured (α : Type) := Except ConfigError α

/-! ## Values -/

section Values

variable (rt : ConfigRuntime) (environment : Environment)

/-- `_read_bool`. -/
def readBool (name : String) (default : Bool) : Configured Bool :=
  match environment name with
  | none => .ok default
  | some raw =>
      let normalized := rt.lower (strip raw)
      if normalized ∈ ["1".toList, "true".toList, "yes".toList, "on".toList] then .ok true
      else if normalized ∈ ["0".toList, "false".toList, "no".toList, "off".toList] then .ok false
      else .error (.runtime (name ++ " must be true or false."))

/-- `_read_positive_int`. -/
def readPositiveInt (name : String) (default : { n : Nat // 0 < n }) : Configured { n : Nat // 0 < n } :=
  match environment name with
  | none => .ok default
  | some raw =>
      match rt.readInt raw with
      | none => .error (.runtime (name ++ " must be an integer."))
      | some value =>
          if h : 0 < value.toNat then .ok ⟨value.toNat, h⟩
          else .error (.runtime (name ++ " must be greater than zero."))

/-- A value still contains a part of an example. -/
def holdsPlaceholder (value : Text) : Bool :=
  PRODUCTION_PLACEHOLDER_MARKERS.any (contains · (rt.py.casefold (strip value)))

/-- `_reject_production_placeholder`. -/
def rejectProductionPlaceholder (name : String) (value : Text) : Configured Unit :=
  if holdsPlaceholder rt value then
    .error (.runtime (name ++ " still contains an example placeholder."))
  else .ok ()

/-- `_is_loopback_host`. -/
def isLoopbackHost (value : Text) : Bool :=
  let host := rstripDots (rt.lower (strip value))
  if host = "localhost".toList ∨ host = "testserver".toList then true
  else (rt.isLoopback host).getD false

end Values

/-! ## The master key -/

/-- `_validate_production_master_key`. -/
def validateProductionMasterKey (value : Text) : Configured Text :=
  let normalized := strip value
  if normalized.length ≠ MASTER_KEY_ENCODED_LENGTH then
    .error (.runtime ("TSO_MASTER_KEY must be a base64 or base64url encoding of exactly " ++
      toString MASTER_KEY_BYTES ++ " random bytes."))
  else if ¬ normalized.all (·.toNat < 128) then
    .error (.runtime "TSO_MASTER_KEY must be valid base64 or base64url.")
  else match Base64.decodeStrict urlsafe normalized with
    | none => .error (.runtime "TSO_MASTER_KEY must be valid base64 or base64url.")
    | some decoded =>
        if decoded.length ≠ MASTER_KEY_BYTES then
          .error (.runtime ("TSO_MASTER_KEY must decode to exactly " ++ toString MASTER_KEY_BYTES ++
            " random bytes."))
        else if decoded.dedup.length < MIN_MASTER_KEY_UNIQUE_BYTES then
          .error (.runtime ("TSO_MASTER_KEY is not sufficiently random; generate it with " ++
            "`openssl rand -base64 48`."))
        else .ok normalized

/-- A key of 48 bytes, at least 16 of them different, in either alphabet. -/
structure ProductionKey (key : Text) : Prop where
  length_eq : key.length = MASTER_KEY_ENCODED_LENGTH
  digits : ∀ c ∈ key, (urlsafe.value c).isSome
  random : ∀ bytes, Base64.decode urlsafe key = some bytes →
    MIN_MASTER_KEY_UNIQUE_BYTES ≤ bytes.dedup.length

/-- Only ASCII characters are digits. -/
theorem ascii_of_digit {c : Char} (h : (urlsafe.value c).isSome) : c.toNat < 128 := by
  simp only [urlsafe, Option.isSome_map, List.isSome_idxOf?] at h
  have hDigits : ∀ d ∈ base64Digits, d.toNat < 128 := by decide
  unfold fromUrlsafe at h
  split at h
  · rename_i hMinus
    rw [hMinus]
    decide
  · split at h
    · rename_i hUnderscore
      rw [hUnderscore]
      decide
    · exact hDigits c h

theorem validateProductionMasterKey_iff {value key : Text} :
    validateProductionMasterKey value = .ok key ↔ key = strip value ∧ ProductionKey key := by
  have hFull (t : Text) (hLength : t.length = MASTER_KEY_ENCODED_LENGTH) :
      (∃ bytes, Base64.decodeStrict urlsafe t = some bytes ∧ bytes.length = 3 * 16) ↔
        ∀ c ∈ t, (urlsafe.value c).isSome :=
    Base64.decodeStrict_full (show t.length = 4 * 16 from hLength)
  constructor
  · intro h
    unfold validateProductionMasterKey at h
    dsimp only at h
    split at h
    · cases h
    rename_i hLength
    rw [not_not] at hLength
    split at h
    · cases h
    split at h
    · cases h
    rename_i decoded hDecoded
    split at h
    · cases h
    rename_i hBytes
    split at h
    · cases h
    rename_i hRandom
    cases h
    refine ⟨rfl, hLength, (hFull _ hLength).mp ⟨decoded, hDecoded, not_not.mp hBytes⟩, ?_⟩
    intro bytes hBytes
    rw [Base64.decode_of_strict hDecoded] at hBytes
    cases hBytes
    exact Nat.le_of_not_lt hRandom
  · rintro ⟨rfl, hKey⟩
    obtain ⟨decoded, hDecoded, hLength⟩ := (hFull _ hKey.length_eq).mpr hKey.digits
    have hBytes : decoded.length = MASTER_KEY_BYTES := hLength
    have hAscii : (strip value).all (·.toNat < 128) = true :=
      List.all_eq_true.mpr fun c hc => decide_eq_true (ascii_of_digit (hKey.digits c hc))
    have hRandom := hKey.random decoded (Base64.decode_of_strict hDecoded)
    unfold validateProductionMasterKey
    dsimp only
    rw [if_neg (not_not.mpr hKey.length_eq), if_neg (not_not.mpr hAscii), hDecoded]
    dsimp only
    rw [if_neg (not_not.mpr hBytes), if_neg (Nat.not_lt.mpr hRandom)]

/-- The alphabet of `openssl rand -base64`. -/
def standardBase64 : Base64.Alphabet where
  digit s := base64Digits.getD s.val 'A'
  value := urlsafe.value
  value_digit := by decide
  value_pad := urlsafe.value_pad

theorem productionKey_encode {alphabet : Base64.Alphabet} {bytes : Bytes}
    (hAlphabet : alphabet.value = urlsafe.value) (hLength : bytes.length = MASTER_KEY_BYTES)
    (hRandom : MIN_MASTER_KEY_UNIQUE_BYTES ≤ bytes.dedup.length) :
    ProductionKey (Base64.encode alphabet bytes) := by
  obtain ⟨hEncoded, hDigits⟩ := Base64.encode_full alphabet
    (show bytes.length = 3 * 16 from hLength)
  refine ⟨hEncoded, hAlphabet ▸ hDigits, fun decoded hDecoded => ?_⟩
  rw [← Base64.decode_congr hAlphabet, Base64.decode_encode] at hDecoded
  cases hDecoded
  exact hRandom

/-! ## `_build_settings` -/

/-- `Settings`, without the paths of the data directory. -/
structure AppSettings where
  environment : Text
  databaseUrl : Text
  masterKey : Text
  /-- The key is in a file. -/
  masterKeyFile : Bool
  publicOrigin : Option Text
  allowedHosts : List Text
  cookieSecure : Bool
  allowRegistration : Bool
  sessionAbsoluteSeconds : { n : Nat // 0 < n }
  sessionIdleSeconds : { n : Nat // 0 < n }
  idle_le_absolute : sessionIdleSeconds.val ≤ sessionAbsoluteSeconds.val
  maxActiveSessions : { n : Nat // 0 < n }
  processScansInApi : Bool
  scanMaxMessages : { n : Nat // 0 < n }
  scanMaxRuntimeSeconds : { n : Nat // 0 < n }
  scanSliceMaxPages : { n : Nat // 0 < n }
  scanSliceSeconds : { n : Nat // 0 < n }
  scanMaxStreamsPerUser : { n : Nat // 0 < n }
  mediaCacheMaxBytes : { n : Nat // 0 < n }
  telegramConnectTimeoutSeconds : { n : Nat // 0 < n }
  telegramDisconnectTimeoutSeconds : { n : Nat // 0 < n }

namespace AppSettings

def production (s : AppSettings) : Bool := s.environment == "production".toList

/-- The settings the accounts are given, with the functions of `security.py`. -/
def accounts (s : AppSettings) (casefold : Text → Text) (verifyPassword : String → String → Bool)
    (passwordNeedsRehash : String → Bool) (hashToken : Token → String)
    (hashToken_injective : Function.Injective hashToken) : AccountEnv where
  sessionIdleSeconds := s.sessionIdleSeconds
  sessionAbsoluteSeconds := s.sessionAbsoluteSeconds
  maxActiveSessions := s.maxActiveSessions
  positive := ⟨s.sessionIdleSeconds.2, s.sessionAbsoluteSeconds.2, s.maxActiveSessions.2⟩
  idle_le_absolute := s.idle_le_absolute
  casefold := casefold
  verifyPassword := verifyPassword
  passwordNeedsRehash := passwordNeedsRehash
  hashToken := hashToken
  hashToken_injective := hashToken_injective

end AppSettings

section Build

variable (rt : ConfigRuntime) (environment : Environment) (production : Bool)

/-- `_load_master_key`: the key, and whether it is in a file. `keyFile` is what the file gives. -/
def loadMasterKey (keyFile : Configured Text) : Configured (Text × Bool) :=
  match environment "TSO_MASTER_KEY" with
  | some configured =>
      let normalized := strip configured
      if normalized.length < 43 then
        .error (.runtime "TSO_MASTER_KEY must contain at least 43 characters of entropy.")
      else if production then do
        rejectProductionPlaceholder rt "TSO_MASTER_KEY" normalized
        return (← validateProductionMasterKey normalized, false)
      else .ok (normalized, false)
  | none =>
      if production then
        .error (.runtime "TSO_MASTER_KEY is required when TSO_ENVIRONMENT=production.")
      else keyFile.map (·, true)

/-- A check that is only made in production. -/
def inProduction (check : Configured Unit) : Configured Unit := if production then check else .ok ()

/-- `urlsplit(origin).hostname`. -/
def hostnameOf (origin : Text) : Configured (Option Text) :=
  match urlsplit rt.py origin with
  | .error _ => .error .value
  | .ok parsed => .ok (parsed.hostname rt.lower)

/-- `TSO_PUBLIC_ORIGIN`, normalized when it is there and not empty. -/
def readPublicOrigin : Configured (Option Text) :=
  match environment "TSO_PUBLIC_ORIGIN" with
  | none => .ok none
  | some [] => .ok none
  | some value =>
      match normalizeOrigin rt.py rt.lower value production with
      | .error e => .error (.runtime e.message)
      | .ok origin => .ok (some origin)

/-- The part of `_build_settings` about the public origin. -/
def loadPublicOrigin : Configured (Option Text) := do
  match ← readPublicOrigin rt environment production with
  | none =>
      if production then .error (.runtime "TSO_PUBLIC_ORIGIN is required in production.")
      else .ok none
  | some origin =>
      inProduction production (rejectProductionPlaceholder rt "TSO_PUBLIC_ORIGIN" origin)
      let publicHost ← hostnameOf rt origin
      if !production && !publicHost.any (isLoopbackHost rt) then
        .error (.runtime
          "A non-loopback TSO_PUBLIC_ORIGIN requires TSO_ENVIRONMENT=production.")
      else .ok (some origin)

/-- `host == "*" or host.startswith("*.")`. -/
def isWildcard (host : Text) : Bool := host == ['*'] || startsWith "*.".toList host

def defaultHosts : List Text := ["127.0.0.1".toList, "localhost".toList, "testserver".toList]

/-- The hosts of `TSO_ALLOWED_HOSTS`. -/
def configuredHosts : List Text :=
  ((((environment "TSO_ALLOWED_HOSTS").getD []).splitOn ',').filter
    fun host => !(strip host).isEmpty).map
    fun host => rt.lower (strip host)

/-- `configured_hosts or ((derived_host,) if derived_host else (..))`. -/
def hostsOr (derived : Option Text) (configured : List Text) : List Text :=
  if configured.isEmpty then
    match derived with
    | some (c :: host) => [c :: host]
    | _ => defaultHosts
  else configured

/-- `urlsplit(public_origin).hostname if public_origin else None`. -/
def derivedHost : Option Text → Configured (Option Text)
  | none => .ok none
  | some origin => hostnameOf rt origin

/-- The part of `_build_settings` about the allowed hosts. -/
def loadAllowedHosts (publicOrigin : Option Text) : Configured (List Text) := do
  let configured := configuredHosts rt environment
  inProduction production (configured.forM (rejectProductionPlaceholder rt "TSO_ALLOWED_HOSTS"))
  let derived ← derivedHost rt publicOrigin
  let allowed := hostsOr derived configured
  if production && allowed.any isWildcard then
    .error (.runtime "Wildcard TSO_ALLOWED_HOSTS values are not allowed in production.")
  else if !production && allowed.any (!isLoopbackHost rt ·) then
    .error (.runtime
      "Non-loopback TSO_ALLOWED_HOSTS values require TSO_ENVIRONMENT=production.")
  else .ok allowed

/-- The part of `_build_settings` about the cookies. -/
def loadCookieSecure (publicOrigin : Option Text) : Configured Bool := do
  let secure ← readBool rt environment "TSO_COOKIE_SECURE"
    (production || publicOrigin.any (startsWith "https://".toList))
  if production && !secure then
    .error (.runtime "TSO_COOKIE_SECURE cannot be disabled in production.")
  else .ok secure

/-- `_build_settings`. -/
def buildSettings (defaultDatabaseUrl : Text) (keyFile : Configured Text) :
    Configured AppSettings := do
  let name := rt.lower (strip ((environment "TSO_ENVIRONMENT").getD "development".toList))
  if name ∉ ["development".toList, "test".toList, "production".toList] then
    .error (.runtime "TSO_ENVIRONMENT must be development, test, or production.")
  else do
    let production := name == "production".toList
    let databaseUrl := strip ((environment "TSO_DATABASE_URL").getD defaultDatabaseUrl)
    let key ← loadMasterKey rt environment production keyFile
    inProduction production (rejectProductionPlaceholder rt "TSO_DATABASE_URL" databaseUrl)
    inProduction production (rejectProductionPlaceholder rt "TSO_MASTER_KEY" key.1)
    let publicOrigin ← loadPublicOrigin rt environment production
    let allowedHosts ← loadAllowedHosts rt environment production publicOrigin
    let cookieSecure ← loadCookieSecure rt environment production publicOrigin
    let absolute ← readPositiveInt rt environment "TSO_SESSION_ABSOLUTE_SECONDS" ⟨2592000, by decide⟩
    let idle ← readPositiveInt rt environment "TSO_SESSION_IDLE_SECONDS" ⟨604800, by decide⟩
    if hIdle : idle.val ≤ absolute.val then do
      let allowRegistration ← readBool rt environment "TSO_ALLOW_REGISTRATION" true
      let maxActive ← readPositiveInt rt environment "TSO_MAX_ACTIVE_SESSIONS" ⟨10, by decide⟩
      let inApi ← readBool rt environment "TSO_PROCESS_SCANS_IN_API" !production
      let maxMessages ← readPositiveInt rt environment "TSO_SCAN_MAX_MESSAGES" ⟨10000, by decide⟩
      let maxRuntime ← readPositiveInt rt environment "TSO_SCAN_MAX_RUNTIME_SECONDS" ⟨3600, by decide⟩
      let slicePages ← readPositiveInt rt environment "TSO_SCAN_SLICE_MAX_PAGES" ⟨5, by decide⟩
      let sliceSeconds ← readPositiveInt rt environment "TSO_SCAN_SLICE_SECONDS" ⟨30, by decide⟩
      let maxStreams ← readPositiveInt rt environment "TSO_SCAN_MAX_STREAMS_PER_USER" ⟨3, by decide⟩
      let maxBytes ← readPositiveInt rt environment "TSO_MEDIA_CACHE_MAX_BYTES" ⟨10485760, by decide⟩
      let connect ← readPositiveInt rt environment "TSO_TELEGRAM_CONNECT_TIMEOUT_SECONDS"
        ⟨15, by decide⟩
      let disconnect ← readPositiveInt rt environment "TSO_TELEGRAM_DISCONNECT_TIMEOUT_SECONDS"
        ⟨5, by decide⟩
      .ok
        { environment := name
          databaseUrl := databaseUrl
          masterKey := key.1
          masterKeyFile := key.2
          publicOrigin := publicOrigin
          allowedHosts := allowedHosts
          cookieSecure := cookieSecure
          allowRegistration := allowRegistration
          sessionAbsoluteSeconds := absolute
          sessionIdleSeconds := idle
          idle_le_absolute := hIdle
          maxActiveSessions := maxActive
          processScansInApi := inApi
          scanMaxMessages := maxMessages
          scanMaxRuntimeSeconds := maxRuntime
          scanSliceMaxPages := slicePages
          scanSliceSeconds := sliceSeconds
          scanMaxStreamsPerUser := maxStreams
          mediaCacheMaxBytes := maxBytes
          telegramConnectTimeoutSeconds := connect
          telegramDisconnectTimeoutSeconds := disconnect }
    else .error (.runtime
      "TSO_SESSION_IDLE_SECONDS cannot exceed TSO_SESSION_ABSOLUTE_SECONDS.")

end Build

/-! ## What is accepted -/

section Accepted

variable {rt : ConfigRuntime} {environment : Environment} {production : Bool}

open Checks

theorem rejectProductionPlaceholder_iff {name : String} {value : Text} :
    rejectProductionPlaceholder rt name value = .ok () ↔ holdsPlaceholder rt value = false := by
  unfold rejectProductionPlaceholder
  cases holdsPlaceholder rt value with
  | false => exact iff_of_true rfl rfl
  | true => exact iff_of_false (fun h => by cases h) (fun h => by cases h)

theorem loadMasterKey_production {keyFile : Configured Text} {key : Text × Bool}
    (h : loadMasterKey rt environment true keyFile = .ok key) :
    ProductionKey key.1 ∧ key.2 = false := by
  unfold loadMasterKey at h
  split at h
  · dsimp only at h
    obtain ⟨-, h⟩ := of_ite_error h
    rw [if_pos rfl] at h
    obtain ⟨-, -, h⟩ := bind_eq_ok h
    obtain ⟨valid, hValid, h⟩ := bind_eq_ok h
    cases h
    exact ⟨(validateProductionMasterKey_iff.mp hValid).2, rfl⟩
  · cases h

/-- Both checks of a configured key see the same text. -/
theorem loadMasterKey_configured {keyFile : Configured Text} {configured : Text}
    {key : Text × Bool} (hConfigured : environment "TSO_MASTER_KEY" = some configured) :
    loadMasterKey rt environment true keyFile = .ok key ↔
      key = (strip configured, false) ∧ ProductionKey (strip configured) ∧
        holdsPlaceholder rt (strip configured) = false := by
  unfold loadMasterKey
  rw [hConfigured]
  dsimp only
  constructor
  · intro h
    obtain ⟨-, h⟩ := of_ite_error h
    rw [if_pos rfl] at h
    obtain ⟨_, hAccepted, h⟩ := bind_eq_ok h
    obtain ⟨valid, hValid, h⟩ := bind_eq_ok h
    obtain ⟨hStripped, hKey⟩ := validateProductionMasterKey_iff.mp hValid
    rw [strip_strip] at hStripped
    subst hStripped
    cases h
    exact ⟨rfl, hKey, rejectProductionPlaceholder_iff.mp hAccepted⟩
  · rintro ⟨rfl, hKey, hAccepted⟩
    have hLong : ¬ (strip configured).length < 43 := by
      rw [hKey.length_eq]
      decide
    have hValid : validateProductionMasterKey (strip configured) = .ok (strip configured) :=
      validateProductionMasterKey_iff.mpr ⟨(strip_strip configured).symm, hKey⟩
    rw [if_neg hLong, if_pos rfl, rejectProductionPlaceholder_iff.mpr hAccepted, hValid]
    rfl

/-- In production a configured key is accepted, and returned without the space around it, exactly
when it encodes 48 bytes of which 16 are different and holds no placeholder. So is every such
encoding without a placeholder, in the standard alphabet and in the URL-safe one. The check of
the key that `_build_settings` makes once more passes for each key that is accepted. -/
theorem production_key_accepted (rt : ConfigRuntime) (environment : Environment)
    (keyFile : Configured Text) (configured : Text)
    (hConfigured : environment "TSO_MASTER_KEY" = some configured) :
    (∀ key inFile, loadMasterKey rt environment true keyFile = .ok (key, inFile) ↔
        key = strip configured ∧ inFile = false ∧ ProductionKey key ∧
          holdsPlaceholder rt key = false) ∧
      (∀ bytes : Bytes, bytes.length = MASTER_KEY_BYTES →
        MIN_MASTER_KEY_UNIQUE_BYTES ≤ bytes.dedup.length →
        (strip configured = Base64.encode standardBase64 bytes ∨
          strip configured = Base64.encode urlsafe bytes) →
        holdsPlaceholder rt (strip configured) = false →
        loadMasterKey rt environment true keyFile = .ok (strip configured, false) ∧
          Base64.decode urlsafe (strip configured) = some bytes) ∧
      ∀ key, loadMasterKey rt environment true keyFile = .ok key →
        rejectProductionPlaceholder rt "TSO_MASTER_KEY" key.1 = .ok () := by
  refine ⟨fun key inFile => ?_, fun bytes hLength hRandom hValue hAccepted => ?_, ?_⟩
  · rw [loadMasterKey_configured hConfigured]
    constructor
    · rintro ⟨hEqual, hKey, hAccepted⟩
      cases hEqual
      exact ⟨rfl, rfl, hKey, hAccepted⟩
    · rintro ⟨rfl, rfl, hKey, hAccepted⟩
      exact ⟨rfl, hKey, hAccepted⟩
  · rw [loadMasterKey_configured hConfigured]
    rcases hValue with hValue | hValue
    · refine ⟨⟨rfl, hValue ▸ productionKey_encode rfl hLength hRandom, hAccepted⟩, ?_⟩
      rw [hValue]
      exact (Base64.decode_congr (show urlsafe.value = standardBase64.value from rfl) _).trans
        (Base64.decode_encode bytes)
    · refine ⟨⟨rfl, hValue ▸ productionKey_encode rfl hLength hRandom, hAccepted⟩, ?_⟩
      rw [hValue]
      exact Base64.decode_encode bytes
  · intro key hKey
    obtain ⟨rfl, -, hAccepted⟩ := (loadMasterKey_configured hConfigured).mp hKey
    exact rejectProductionPlaceholder_iff.mpr hAccepted

theorem https_of_normalized {value origin : Text}
    (h : normalizeOrigin rt.py rt.lower value true = .ok origin) :
    startsWith "https://".toList origin = true := by
  obtain ⟨parsed, hostname, port, hFrom⟩ := normalizeOrigin_ok h
  have hScheme : parsed.scheme = "https".toList := by simpa using hFrom.https
  rw [hFrom.text, originText, hScheme]
  rfl

theorem loadPublicOrigin_production {publicOrigin : Option Text}
    (h : loadPublicOrigin rt environment true = .ok publicOrigin) :
    ∃ origin, publicOrigin = some origin ∧ startsWith "https://".toList origin = true := by
  obtain ⟨read, hRead, h⟩ := bind_eq_ok h
  cases read with
  | none => cases h
  | some origin =>
      obtain ⟨-, -, h⟩ := bind_eq_ok h
      obtain ⟨host, -, h⟩ := bind_eq_ok h
      obtain ⟨-, h⟩ := of_ite_error h
      cases h
      refine ⟨origin, rfl, ?_⟩
      unfold readPublicOrigin at hRead
      split at hRead
      · cases hRead
      · cases hRead
      · split at hRead
        · cases hRead
        · rename_i hNormalized
          cases hRead
          exact https_of_normalized hNormalized

theorem loadPublicOrigin_local {publicOrigin : Option Text} {origin : Text}
    (h : loadPublicOrigin rt environment false = .ok publicOrigin) (hOrigin : publicOrigin = some origin) :
    ∃ host, hostnameOf rt origin = .ok (some host) ∧ isLoopbackHost rt host = true := by
  obtain ⟨read, hRead, h⟩ := bind_eq_ok h
  cases read with
  | none =>
      cases h
      cases hOrigin
  | some origin' =>
      obtain ⟨-, -, h⟩ := bind_eq_ok h
      obtain ⟨host, hHost, h⟩ := bind_eq_ok h
      obtain ⟨hLocal, h⟩ := of_ite_error h
      cases h
      cases hOrigin
      have hAny : host.any (isLoopbackHost rt) = true := by simpa using hLocal
      obtain ⟨host, rfl, hLoopback⟩ := (Option.any_eq_true _ _).mp hAny
      exact ⟨host, hHost, hLoopback⟩

theorem hostsOr_ne_nil (derived : Option Text) (configured : List Text) :
    hostsOr derived configured ≠ [] := by
  unfold hostsOr
  split
  · split
    · exact List.cons_ne_nil _ _
    · exact List.cons_ne_nil _ _
  · rename_i hConfigured
    exact fun hNil => hConfigured (hNil ▸ rfl)

theorem loadAllowedHosts_ok {publicOrigin : Option Text} {allowed : List Text}
    (h : loadAllowedHosts rt environment production publicOrigin = .ok allowed) :
    allowed ≠ [] ∧ (production = true → ∀ host ∈ allowed, isWildcard host = false) ∧
      (production = false → ∀ host ∈ allowed, isLoopbackHost rt host = true) := by
  obtain ⟨-, -, h⟩ := bind_eq_ok h
  obtain ⟨derived, -, h⟩ := bind_eq_ok h
  obtain ⟨hWildcard, h⟩ := of_ite_error h
  obtain ⟨hLoopback, h⟩ := of_ite_error h
  cases h
  refine ⟨hostsOr_ne_nil _ _, ?_, ?_⟩
  · rintro rfl host hHost
    simp only [Bool.true_and, List.any_eq_true, not_exists, not_and, Bool.not_eq_true] at hWildcard
    exact hWildcard host hHost
  · rintro rfl host hHost
    simp only [Bool.not_false, Bool.true_and, List.any_eq_true, not_exists, not_and,
      Bool.not_eq_true', Bool.not_eq_false] at hLoopback
    exact hLoopback host hHost

theorem loadCookieSecure_production {publicOrigin : Option Text} {secure : Bool}
    (h : loadCookieSecure rt environment true publicOrigin = .ok secure) : secure = true := by
  obtain ⟨read, -, h⟩ := bind_eq_ok h
  obtain ⟨hSecure, h⟩ := of_ite_error h
  cases h
  simpa using hSecure

/-- What has to hold of a service that others can reach. -/
structure PublicSettings (s : AppSettings) : Prop where
  cookieSecure : s.cookieSecure = true
  masterKey : ProductionKey s.masterKey
  notInFile : s.masterKeyFile = false
  publicOrigin : ∃ origin, s.publicOrigin = some origin ∧
    startsWith "https://".toList origin = true
  noWildcard : ∀ host ∈ s.allowedHosts, isWildcard host = false

/-- Only the machine itself reaches the service, by its public origin too if it has one. -/
structure LocalSettings (rt : ConfigRuntime) (s : AppSettings) : Prop where
  publicOrigin : ∀ origin, s.publicOrigin = some origin →
    ∃ host, hostnameOf rt origin = .ok (some host) ∧ isLoopbackHost rt host = true
  allowedHosts : ∀ host ∈ s.allowedHosts, isLoopbackHost rt host = true

/-- The parts a settings object was built from. -/
theorem buildSettings_ok {defaultDatabaseUrl : Text} {keyFile : Configured Text} {s : AppSettings}
    (h : buildSettings rt environment defaultDatabaseUrl keyFile = .ok s) :
    loadMasterKey rt environment s.production keyFile =
        .ok (s.masterKey, s.masterKeyFile) ∧
      loadPublicOrigin rt environment s.production = .ok s.publicOrigin ∧
      loadAllowedHosts rt environment s.production s.publicOrigin = .ok s.allowedHosts ∧
      loadCookieSecure rt environment s.production s.publicOrigin = .ok s.cookieSecure := by
  unfold buildSettings at h
  obtain ⟨-, h⟩ := of_ite_error h
  obtain ⟨key, hKey, h⟩ := bind_eq_ok h
  obtain ⟨-, -, h⟩ := bind_eq_ok h
  obtain ⟨-, -, h⟩ := bind_eq_ok h
  obtain ⟨publicOrigin, hOrigin, h⟩ := bind_eq_ok h
  obtain ⟨allowedHosts, hHosts, h⟩ := bind_eq_ok h
  obtain ⟨cookieSecure, hCookie, h⟩ := bind_eq_ok h
  obtain ⟨absolute, -, h⟩ := bind_eq_ok h
  obtain ⟨idle, -, h⟩ := bind_eq_ok h
  split at h
  · obtain ⟨_, -, h⟩ := bind_eq_ok h
    obtain ⟨_, -, h⟩ := bind_eq_ok h
    obtain ⟨_, -, h⟩ := bind_eq_ok h
    obtain ⟨_, -, h⟩ := bind_eq_ok h
    obtain ⟨_, -, h⟩ := bind_eq_ok h
    obtain ⟨_, -, h⟩ := bind_eq_ok h
    obtain ⟨_, -, h⟩ := bind_eq_ok h
    obtain ⟨_, -, h⟩ := bind_eq_ok h
    obtain ⟨_, -, h⟩ := bind_eq_ok h
    obtain ⟨_, -, h⟩ := bind_eq_ok h
    obtain ⟨_, -, h⟩ := bind_eq_ok h
    cases h
    exact ⟨hKey, hOrigin, hHosts, hCookie⟩
  · cases h

/-- Whatever the environment holds, a service that starts is either fit to be reached by others or
answers to loopback names only, and it always answers to some name. -/
theorem settings_fit {rt : ConfigRuntime} {environment : Environment} {defaultDatabaseUrl : Text}
    {keyFile : Configured Text} {s : AppSettings}
    (h : buildSettings rt environment defaultDatabaseUrl keyFile = .ok s) :
    s.allowedHosts ≠ [] ∧ (if s.production then PublicSettings s else LocalSettings rt s) := by
  obtain ⟨hKey, hOrigin, hHosts, hCookie⟩ := buildSettings_ok h
  obtain ⟨hSome, hWildcard, hLoopback⟩ := loadAllowedHosts_ok hHosts
  refine ⟨hSome, ?_⟩
  cases hProduction : s.production with
  | true =>
      rw [hProduction] at hKey hOrigin hCookie
      obtain ⟨hMaster, hFile⟩ := loadMasterKey_production hKey
      exact
        { cookieSecure := loadCookieSecure_production hCookie
          masterKey := hMaster
          notInFile := hFile
          publicOrigin := loadPublicOrigin_production hOrigin
          noWildcard := hWildcard hProduction }
  | false =>
      rw [hProduction] at hOrigin
      exact
        { publicOrigin := fun origin hSome => loadPublicOrigin_local hOrigin hSome
          allowedHosts := hLoopback hProduction }

/-- The last 48 byte values. -/
def lastBytes : Bytes := (List.range 48).map fun i => UInt8.ofNat (208 + i)

/-- The variables of a deployment behind its own name. -/
def deployment : Environment := fun name =>
  if name = "TSO_ENVIRONMENT" then some "production".toList
  else if name = "TSO_MASTER_KEY" then some (Base64.encode standardBase64 lastBytes)
  else if name = "TSO_PUBLIC_ORIGIN" then some "https://saved.test".toList
  else none

def asciiConfig : ConfigRuntime where
  py := asciiRuntime
  lower := List.map Char.toLower
  readInt _ := none
  isLoopback _ := none

theorem production_key_accepted_lastBytes :
    ∃ key, loadMasterKey asciiConfig deployment true (.error .value) = .ok (key, false) ∧
      Base64.decode urlsafe key = some lastBytes := by
  have hStrip : strip (Base64.encode standardBase64 lastBytes) =
      Base64.encode standardBase64 lastBytes := by decide +kernel
  obtain ⟨-, hEncodings, -⟩ := production_key_accepted asciiConfig deployment (.error .value)
    (Base64.encode standardBase64 lastBytes) rfl
  exact ⟨_, hEncodings lastBytes (by decide) (by decide +kernel) (Or.inl hStrip)
    (by decide +kernel)⟩

theorem settings_fit_deployment :
    ∃ s, buildSettings asciiConfig deployment [] (.error .value) = .ok s ∧ s.production = true ∧
      s.allowedHosts = ["saved.test".toList] ∧
      (if s.production then PublicSettings s else LocalSettings asciiConfig s) := by
  have hOk : (buildSettings asciiConfig deployment [] (.error .value)).toOption.any
      (fun s => s.production && s.allowedHosts == ["saved.test".toList]) = true := by decide +kernel
  cases hBuilt : buildSettings asciiConfig deployment [] (.error .value) with
  | error e =>
      rw [hBuilt] at hOk
      cases hOk
  | ok s =>
      rw [hBuilt] at hOk
      have hParts : s.production = true ∧ s.allowedHosts = ["saved.test".toList] := by
        simpa [Except.toOption] using hOk
      exact ⟨s, rfl, hParts.1, hParts.2, (settings_fit hBuilt).2⟩

end Accepted

end SavedOrganizer
