import SavedOrganizer.Python.Text

/-!
# `urllib.parse.urlparse` and `urlsplit`

What the categorizer reads of a parsed URL is its `netloc`, and whether parsing raises; the
check of origins reads all the components, the host and the port. The splitting is CPython's:
leading control characters and blanks go, tabs and line breaks are removed everywhere, a scheme
is split off at the first colon when everything before it is a scheme character, and the netloc
is what stands between `//` and the next `/`, `?` or `#`. Two checks on the netloc raise
`ValueError`: square brackets that do not form a pair around a valid address, and a character
that NFKC turns into a delimiter.

The Unicode tables and the check of a bracketed address are CPython's own and are taken
as the parameter `Runtime`; nothing is assumed about them.
-/

namespace SavedOrganizer.Python

structure Runtime where
  /-- `str.isalnum` of one character. -/
  isAlnum : Char → Bool
  /-- `str.casefold`. -/
  casefold : Text → Text
  /-- `unicodedata.normalize("NFKC", ..)`. -/
  nfkc : Text → Text
  /-- A netloc with both square brackets encloses a valid address in them. -/
  bracketsAccepted : Text → Bool

/-- The reasons for which `urlsplit` raises `ValueError`. -/
inductive ValueError
  | invalidIpv6Url
  | invalidUnderNfkc
  deriving DecidableEq, Repr

/-- `_WHATWG_C0_CONTROL_OR_SPACE`. -/
def isControlOrSpace (c : Char) : Bool := c.toNat ≤ 32

/-- `scheme_chars`. -/
def isSchemeChar (c : Char) : Bool := c.isAlphanum || c == '+' || c == '-' || c == '.'

/-- The characters removed from a URL wherever they stand. -/
def isUnsafeUrlByte (c : Char) : Bool := c == '\t' || c == '\r' || c == '\n'

/-- What follows the scheme, or the whole URL when it has none. -/
def dropScheme (url : Text) : Text :=
  let scheme := url.takeWhile (· != ':')
  match scheme, url.drop scheme.length with
  | c :: _, _ :: rest => if c.isAlpha && scheme.all isSchemeChar then rest else url
  | _, _ => url

/-- `_splitnetloc`: the text between `//` and the first `/`, `?` or `#`. -/
def splitNetloc : Text → Text
  | '/' :: '/' :: rest => rest.takeWhile (fun c => c != '/' && c != '?' && c != '#')
  | _ => []

/-- `_checknetloc`. -/
def invalidUnderNfkc (py : Runtime) (netloc : Text) : Bool :=
  let bare := netloc.filter (fun c => c != '@' && c != ':' && c != '#' && c != '?')
  !netloc.all (fun c => c.toNat < 128) && py.nfkc bare != bare &&
    (py.nfkc bare).any (fun c => c == '/' || c == '?' || c == '#' || c == '@' || c == ':')

/-- The check of the square brackets in a netloc. -/
def invalidBrackets (py : Runtime) (netloc : Text) : Bool :=
  (netloc.contains '[' != netloc.contains ']') ||
    (netloc.contains '[' && netloc.contains ']' && !py.bracketsAccepted netloc)

/-- The netloc of a URL before it is checked. -/
def rawNetloc (url : Text) : Text :=
  splitNetloc (dropScheme ((url.dropWhile isControlOrSpace).filter (!isUnsafeUrlByte ·)))

/-- `urlparse(url).netloc`. -/
def urlparseNetloc (py : Runtime) (url : Text) : Except ValueError Text :=
  let netloc := rawNetloc url
  if invalidBrackets py netloc then .error .invalidIpv6Url
  else if invalidUnderNfkc py netloc then .error .invalidUnderNfkc
  else .ok netloc

/-- `urlparse` accepts the URL's netloc. -/
def netlocAccepted (py : Runtime) (url : Text) : Bool :=
  !invalidBrackets py (rawNetloc url) && !invalidUnderNfkc py (rawNetloc url)

/-- `t.partition(sep)[2]`. -/
def afterFirst (sep : Char) (t : Text) : Text := (t.dropWhile (· != sep)).drop 1

/-- `_hostinfo`: the host of a netloc, and its port. -/
def hostInfo (netloc : Text) : Text × Option Text :=
  let hostinfo := splitLast '@' netloc
  let host :=
    if hostinfo.contains '[' then splitFirst ']' (afterFirst '[' hostinfo)
    else splitFirst ':' hostinfo
  let port :=
    if hostinfo.contains '[' then afterFirst ':' (afterFirst ']' (afterFirst '[' hostinfo))
    else afterFirst ':' hostinfo
  (host, if port.isEmpty then none else some port)

theorem urlparseNetloc_of_accepted {py : Runtime} {url : Text}
    (h : netlocAccepted py url = true) : urlparseNetloc py url = .ok (rawNetloc url) := by
  simp only [netlocAccepted, Bool.and_eq_true, Bool.not_eq_true'] at h
  simp only [urlparseNetloc, h.1, h.2, Bool.false_eq_true, if_false]

theorem urlparseNetloc_of_not_accepted {py : Runtime} {url : Text}
    (h : netlocAccepted py url = false) : ∃ e, urlparseNetloc py url = .error e := by
  unfold urlparseNetloc
  by_cases hBrackets : invalidBrackets py (rawNetloc url) = true
  · exact ⟨.invalidIpv6Url, by simp only [hBrackets, if_true]⟩
  · rw [Bool.not_eq_true] at hBrackets
    have hNfkc : invalidUnderNfkc py (rawNetloc url) = true := by
      simpa [netlocAccepted, hBrackets] using h
    exact ⟨.invalidUnderNfkc, by
      simp only [hBrackets, hNfkc, Bool.false_eq_true, if_false, if_true]⟩

example (py : Runtime) : urlparseNetloc py "http://[foo".toList = .error .invalidIpv6Url := rfl

/-! ## `urlsplit` -/

/-- The scheme of a URL, in lower case; empty when it has none. -/
def schemeOf (url : Text) : Text :=
  let scheme := url.takeWhile (· != ':')
  match scheme, url.drop scheme.length with
  | c :: _, _ :: _ => if c.isAlpha && scheme.all isSchemeChar then lower scheme else []
  | _, _ => []

/-- What follows the netloc. -/
def afterNetloc : Text → Text
  | '/' :: '/' :: rest => rest.dropWhile (fun c => c != '/' && c != '?' && c != '#')
  | rest => rest

structure SplitResult where
  scheme : Text
  netloc : Text
  path : Text
  query : Text
  fragment : Text
  deriving DecidableEq, Repr

def urlsplit (py : Runtime) (url : Text) : Except ValueError SplitResult :=
  let url := (url.dropWhile isControlOrSpace).filter (!isUnsafeUrlByte ·)
  let netloc := splitNetloc (dropScheme url)
  let tail := afterNetloc (dropScheme url)
  let beforeFragment := splitFirst '#' tail
  if invalidBrackets py netloc then .error .invalidIpv6Url
  else if invalidUnderNfkc py netloc then .error .invalidUnderNfkc
  else .ok
    { scheme := schemeOf url
      netloc := netloc
      path := splitFirst '?' beforeFragment
      query := afterFirst '?' beforeFragment
      fragment := afterFirst '#' tail }

/-- The reasons for which `port` raises `ValueError`. -/
inductive PortError
  | notANumber
  | outOfRange
  deriving DecidableEq, Repr

namespace SplitResult

variable (parsed : SplitResult)

/-- The user name and the password, empty when there is none. -/
def userInfo : Text × Text :=
  if parsed.netloc.contains '@' then
    let userinfo := parsed.netloc.take (parsed.netloc.length - (splitLast '@' parsed.netloc).length - 1)
    (splitFirst ':' userinfo, afterFirst ':' userinfo)
  else ([], [])

/-- `hostname`, where `lower` is `str.lower`: a zone identifier is not lowered. -/
def hostname (lower : Text → Text) : Option Text :=
  let host := (hostInfo parsed.netloc).1
  if host.isEmpty then none
  else some (lower (splitFirst '%' host) ++ host.drop (splitFirst '%' host).length)

def port : Except PortError (Option Nat) :=
  match (hostInfo parsed.netloc).2 with
  | none => .ok none
  | some text =>
      if text.all Char.isDigit then
        let port := Nat.ofDigitChars 10 text 0
        if port ≤ 65535 then .ok (some port) else .error .outOfRange
      else .error .notANumber

/-- The host stands in square brackets. -/
def bracketed : Bool := (splitLast '@' parsed.netloc).contains '['

end SplitResult

end SavedOrganizer.Python
