import SavedOrganizer.Python.Urllib

/-!
# The configured origin and the check of browser origins

`config._normalize_origin` turns `TSO_PUBLIC_ORIGIN` into the public origin once, at the start.
`validate_browser_origin` normalizes it again with `dependencies._normalized_origin`, as it
does the `Origin` header, and compares the two.

`str.lower` is the parameter `lower`: a host may hold any character.
-/

namespace SavedOrganizer

open Python

/-- `str.rstrip(".")`. -/
def rstripDots (t : Text) : Text := (t.reverse.dropWhile (· == '.')).reverse

/-- `443 if parsed.scheme == "https" else 80`. -/
def defaultPort (scheme : Text) : Nat := if scheme = "https".toList then 443 else 80

/-- `"" if (port or default_port) == default_port else f":{port}"`. -/
def portSuffix (scheme : Text) (port : Option Nat) : Text :=
  match port with
  | none => []
  | some n => if n = 0 ∨ n = defaultPort scheme then [] else ':' :: Nat.toDigits 10 n

/-- `f"{parsed.scheme}://{parsed.hostname.lower().rstrip('.')}{port_suffix}"`. -/
def originText (lower : Text → Text) (scheme hostname : Text) (port : Option Nat) : Text :=
  scheme ++ "://".toList ++ rstripDots (lower hostname) ++ portSuffix scheme port

def webSchemes : List Text := ["http".toList, "https".toList]

/-! ## `config._normalize_origin` -/

/-- The reasons of its `RuntimeError`. -/
inductive OriginError
  | invalidUrl | schemeOrHost | httpsRequired | notAnOrigin
  deriving DecidableEq, Repr

def OriginError.message : OriginError → String
  | .invalidUrl => "TSO_PUBLIC_ORIGIN must be a valid origin URL."
  | .schemeOrHost => "TSO_PUBLIC_ORIGIN must use http or https and include a host."
  | .httpsRequired => "TSO_PUBLIC_ORIGIN must use https in production."
  | .notAnOrigin =>
      "TSO_PUBLIC_ORIGIN must be an origin without credentials, path, query, or fragment."

section Normalizers

variable (py : Runtime) (lower : Text → Text)

/-- `_normalize_origin` of `config`. -/
def normalizeOrigin (value : Text) (requireHttps : Bool) : Except OriginError Text :=
  match urlsplit py (strip value) with
  | .error _ => .error .invalidUrl
  | .ok parsed =>
      match parsed.port with
      | .error _ => .error .invalidUrl
      | .ok port =>
          if parsed.scheme ∉ webSchemes then .error .schemeOrHost
          else match parsed.hostname lower with
            | none => .error .schemeOrHost
            | some hostname =>
                if requireHttps && parsed.scheme != "https".toList then .error .httpsRequired
                else if !parsed.userInfo.1.isEmpty || !parsed.userInfo.2.isEmpty ||
                    !parsed.query.isEmpty || !parsed.fragment.isEmpty ||
                    !(parsed.path == [] || parsed.path == ['/']) then
                  .error .notAnOrigin
                else .ok (originText lower parsed.scheme hostname port)

/-- `_normalized_origin` of `dependencies`. -/
def normalizedOrigin (value : Text) : Option Text :=
  match urlsplit py value with
  | .error _ => none
  | .ok parsed =>
      match parsed.port with
      | .error _ => none
      | .ok port =>
          if parsed.scheme ∉ webSchemes then none
          else (parsed.hostname lower).map fun hostname =>
            originText lower parsed.scheme hostname port

end Normalizers

/-! ## `validate_browser_origin` -/

/-- What is read of a request. -/
structure BrowserRequest where
  secFetchSite : Option Text
  origin : Option Text
  referer : Option Text
  urlScheme : Text
  urlNetloc : Text
  deriving DecidableEq, Repr

/-- How the check fails: with a 403, or in `compare_digest`. -/
inductive OriginCheckError
  | crossOriginRequestBlocked
  | originRequired
  | typeError
  deriving DecidableEq, Repr

/-- `hmac.compare_digest` of two strings; `none` when it raises `TypeError`. -/
def compareDigest (a b : Text) : Option Bool :=
  if a.all (·.toNat < 128) && b.all (·.toNat < 128) then some (a == b) else none

/-- `expected_request_origin`. -/
def expectedRequestOrigin (publicOrigin : Option Text) (request : BrowserRequest) : Text :=
  publicOrigin.getD (request.urlScheme ++ "://".toList ++ request.urlNetloc)

def validateBrowserOrigin (py : Runtime) (lower : Text → Text) (publicOrigin : Option Text)
    (request : BrowserRequest) (required : Bool) : Except OriginCheckError Unit :=
  if request.secFetchSite.any (fun site =>
      !site.isEmpty && site != "same-origin".toList && site != "none".toList) then
    .error .crossOriginRequestBlocked
  else
    let supplied := match request.origin with
      | none => (request.referer.filter (!·.isEmpty)).bind (normalizedOrigin py lower)
      | some origin => normalizedOrigin py lower origin
    match supplied with
    | none => if required then .error .originRequired else .ok ()
    | some supplied =>
        match normalizedOrigin py lower (expectedRequestOrigin publicOrigin request) with
        | none => .error .crossOriginRequestBlocked
        | some expected =>
            match compareDigest supplied expected with
            | none => .error .typeError
            | some true => .ok ()
            | some false => .error .crossOriginRequestBlocked

/-! ## What is compared -/

section Compared

variable (py : Runtime) (lower : Text → Text) (publicOrigin : Option Text)

/-- `Sec-Fetch-Site` names another site. -/
def BrowserRequest.crossSite (request : BrowserRequest) : Bool :=
  request.secFetchSite.any fun site =>
    !site.isEmpty && site != "same-origin".toList && site != "none".toList

/-- `supplied`, as it is compared. -/
def BrowserRequest.supplied (request : BrowserRequest) : Option Text :=
  match request.origin with
  | none => (request.referer.filter (!·.isEmpty)).bind (normalizedOrigin py lower)
  | some origin => normalizedOrigin py lower origin

/-- `expected`. -/
def expectedOrigin (request : BrowserRequest) : Option Text :=
  normalizedOrigin py lower (expectedRequestOrigin publicOrigin request)

variable {py lower publicOrigin} {request : BrowserRequest} {required : Bool}

theorem eq_of_compareDigest {a b : Text} (h : compareDigest a b = some true) : a = b := by
  unfold compareDigest at h
  split at h
  · exact beq_iff_eq.mp (Option.some.inj h)
  · cases h

theorem validate_crossSite (h : request.crossSite = true) :
    validateBrowserOrigin py lower publicOrigin request required =
      .error .crossOriginRequestBlocked := by
  rw [BrowserRequest.crossSite] at h
  rw [validateBrowserOrigin, if_pos h]

/-- The check of a request that does not come from another site. -/
theorem validate_eq (h : request.crossSite = false) :
    validateBrowserOrigin py lower publicOrigin request required =
      match request.supplied py lower with
      | none => if required then .error .originRequired else .ok ()
      | some supplied => match expectedOrigin py lower publicOrigin request with
        | none => .error .crossOriginRequestBlocked
        | some expected => match compareDigest supplied expected with
          | none => .error .typeError
          | some true => .ok ()
          | some false => .error .crossOriginRequestBlocked := by
  rw [BrowserRequest.crossSite] at h
  unfold validateBrowserOrigin
  rw [h]
  rfl

end Compared

/-- A runtime for ASCII URLs with valid addresses. -/
def asciiRuntime : Runtime where
  isAlnum := Char.isAlphanum
  casefold := List.map Char.toLower
  nfkc := id
  bracketsAccepted := fun _ => true

end SavedOrganizer
