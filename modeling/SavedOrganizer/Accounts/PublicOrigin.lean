import Mathlib.Data.List.Count
import Mathlib.Data.List.DropRight
import SavedOrganizer.Accounts.Origin

/-!
# Is the configured origin accepted by the origin check?

The public origin is normalized twice, and the text between the two passes has lost the
brackets of an IPv6 address: its first colon is then read as the start of a port. A host of
dots alone is lost altogether, and a host that a browser writes in another way than it is
configured never matches.

`publicOrigin_accepted_iff` says which configured values are accepted. `serializeHost` is how
a browser writes a host. Of it, and of `str.lower`, only this is assumed: a host that is no
address in brackets is written with the ASCII characters a domain may have, an address in
brackets as an IPv6 address, and ASCII text is lowered letter by letter. Nothing is ever sent
from a host that no browser accepts, and its serialization stands for any name.
-/

namespace SavedOrganizer

open Python

/-! ## What is assumed -/

/-- `str.lower` on ASCII text. -/
def LowersAscii (lower : Text → Text) : Prop :=
  ∀ t : Text, (∀ c ∈ t, c.toNat < 128) → lower t = t.map Char.toLower

/-- No forbidden domain code point of the URL standard. -/
def isDomainChar (c : Char) : Bool :=
  33 ≤ c.toNat && c.toNat < 127 &&
    !(['#', '/', ':', '<', '>', '?', '@', '[', '\\', ']', '^', '|', '%'].contains c)

/-- The characters of a serialized IPv6 address. -/
def isAddressChar (c : Char) : Bool := c.isDigit || ('a' ≤ c && c ≤ 'f') || c == ':'

/-- The host serializer of a browser. -/
structure SerializesHosts (serializeHost : Text → Text) : Prop where
  name : ∀ host, ¬ ['['] <+: host → ∀ c ∈ serializeHost host, isDomainChar c = true
  address : ∀ host, ['['] <+: host → ∃ a, serializeHost host = '[' :: (a ++ [']']) ∧
    2 ≤ a.count ':' ∧ ∀ c ∈ a, isAddressChar c = true

/-! ## The claim -/

/-- The host of a URL as it is written in it. -/
def writtenHost (parsed : SplitResult) : Text :=
  if parsed.bracketed then '[' :: ((hostInfo parsed.netloc).1 ++ [']'])
  else (hostInfo parsed.netloc).1

/-- A port in a URL, if it is not the default one. -/
def numberSuffix : Option Nat → Text
  | none => []
  | some n => ':' :: Nat.toDigits 10 n

/-- The `Origin` a browser sends from a page of the configured origin. -/
def browserOrigin (py : Runtime) (serializeHost : Text → Text) (value : Text) : Option Text :=
  match urlsplit py (strip value) with
  | .error _ => none
  | .ok parsed =>
      match parsed.port with
      | .error _ => none
      | .ok port => some (parsed.scheme ++ "://".toList ++ serializeHost (writtenHost parsed) ++
          numberSuffix (port.filter (· != defaultPort parsed.scheme)))

section Claim

variable (py : Runtime) (lower serializeHost : Text → Text)

/-- The public origin is a fixed point of both normalizers, and a browser's request with it
passes the check. -/
def OriginAccepted (value : Text) (requireHttps : Bool) (publicOrigin : Text) : Prop :=
  normalizeOrigin py lower publicOrigin requireHttps = .ok publicOrigin ∧
    normalizedOrigin py lower publicOrigin = some publicOrigin ∧
    ∀ request required, request.secFetchSite = none →
      request.origin = browserOrigin py serializeHost value →
      validateBrowserOrigin py lower (some publicOrigin) request required = .ok ()

/-- The host is no address in brackets and does not consist of dots, and a browser writes it
as it is configured, up to case and trailing dots. -/
def PlainHost (value : Text) : Prop :=
  ∃ parsed hostname, urlsplit py (strip value) = .ok parsed ∧
    parsed.hostname lower = some hostname ∧ parsed.bracketed = false ∧
    rstripDots (lower hostname) ≠ [] ∧
    rstripDots (lower (serializeHost (hostInfo parsed.netloc).1)) = rstripDots (lower hostname)

end Claim

/-! ## Pieces of a netloc -/

section Pieces

theorem splitFirst_of_not_mem {sep : Char} {t : Text} (h : sep ∉ t) : splitFirst sep t = t := by
  rw [splitFirst, List.takeWhile_eq_self_iff]
  intro c hc
  rw [bne_iff_ne]
  rintro rfl
  exact h hc

theorem splitLast_of_not_mem {sep : Char} {t : Text} (h : sep ∉ t) : splitLast sep t = t := by
  have hReverse : t.reverse.takeWhile (· != sep) = t.reverse := by
    rw [List.takeWhile_eq_self_iff]
    intro c hc
    rw [bne_iff_ne]
    rintro rfl
    exact h (List.mem_reverse.mp hc)
  rw [splitLast, hReverse, List.reverse_reverse]

theorem afterFirst_of_not_mem {sep : Char} {t : Text} (h : sep ∉ t) : afterFirst sep t = [] := by
  have hNil : t.dropWhile (· != sep) = [] := by
    rw [List.dropWhile_eq_nil_iff]
    intro c hc
    rw [bne_iff_ne]
    rintro rfl
    exact h hc
  rw [afterFirst, hNil, List.drop_nil]

/-- A text is cut at the first separator. -/
theorem split_append {sep : Char} {a : Text} (b : Text) (h : sep ∉ a) :
    splitFirst sep (a ++ sep :: b) = a ∧ afterFirst sep (a ++ sep :: b) = b := by
  have hAll : ∀ c ∈ a, (c != sep) = true := by
    intro c hc
    rw [bne_iff_ne]
    rintro rfl
    exact h hc
  refine ⟨?_, ?_⟩
  · rw [splitFirst, List.takeWhile_append_of_pos hAll]
    simp
  · rw [afterFirst, List.dropWhile_append_of_pos hAll]
    simp

theorem numberSuffix_digits {port : Option Nat} :
    ∀ c ∈ numberSuffix port, c = ':' ∨ c.isDigit = true := by
  intro c hc
  cases port with
  | none => cases hc
  | some n =>
      rcases List.mem_cons.mp hc with rfl | hc
      · exact Or.inl rfl
      · exact Or.inr (Nat.isDigit_of_mem_toDigits (by decide) (by decide) hc)

theorem not_mem_numberSuffix {b : Char} {port : Option Nat} (hColon : b ≠ ':')
    (hDigit : b.isDigit = false) : b ∉ numberSuffix port := by
  intro hMem
  rcases numberSuffix_digits b hMem with h | h
  · exact hColon h
  · rw [hDigit] at h
    cases h

theorem not_mem_netloc {b : Char} {host : Text} {port : Option Nat} (hHost : b ∉ host)
    (hColon : b ≠ ':') (hDigit : b.isDigit = false) : b ∉ host ++ numberSuffix port := by
  rw [List.mem_append, not_or]
  exact ⟨hHost, not_mem_numberSuffix hColon hDigit⟩

/-- A text of some characters has no other one. -/
theorem not_mem_of_all {p : Char → Bool} {t : Text} {b : Char} (h : ∀ c ∈ t, p c = true)
    (hb : p b = false) : b ∉ t := by
  intro hMem
  rw [h b hMem] at hb
  cases hb

theorem contains_eq_false {t : Text} {b : Char} (h : b ∉ t) : t.contains b = false := by
  rw [← Bool.not_eq_true, List.contains_iff_mem]
  exact h

/-- The port of a host without colons. -/
theorem hostInfo_of_name {host : Text} (port : Option Nat) (hAt : '@' ∉ host) (hOpen : '[' ∉ host)
    (hColon : ':' ∉ host) :
    hostInfo (host ++ numberSuffix port) = (host, port.map (Nat.toDigits 10)) := by
  unfold hostInfo
  rw [splitLast_of_not_mem (not_mem_netloc hAt (by decide) (by decide))]
  simp only [contains_eq_false (not_mem_netloc hOpen (by decide) (by decide)), Bool.false_eq_true,
    if_false]
  cases port with
  | none =>
      rw [numberSuffix, List.append_nil, splitFirst_of_not_mem hColon, afterFirst_of_not_mem hColon]
      rfl
  | some n =>
      obtain ⟨hFirst, hAfter⟩ := split_append (Nat.toDigits 10 n) hColon
      rw [numberSuffix, hFirst, hAfter]
      have hSome : (Nat.toDigits 10 n).isEmpty = false := by
        rw [← Bool.not_eq_true, List.isEmpty_iff]
        exact Nat.toDigits_ne_nil
      rw [hSome]
      rfl

end Pieces

/-! ## Trailing dots -/

theorem rstripDots_eq_rdropWhile (t : Text) : rstripDots t = t.rdropWhile (· == '.') := rfl

theorem mem_of_mem_rstripDots {t : Text} {c : Char} (h : c ∈ rstripDots t) : c ∈ t :=
  (List.rdropWhile_prefix _ _).mem h

theorem rstripDots_rstripDots (t : Text) : rstripDots (rstripDots t) = rstripDots t :=
  List.rdropWhile_idempotent _ t

theorem rstripDots_eq_self {t : Text} (h : '.' ∉ t) : rstripDots t = t := by
  rw [rstripDots_eq_rdropWhile, List.rdropWhile_eq_self_iff]
  intro hSome hDot
  refine h ?_
  rw [← beq_iff_eq.mp hDot]
  exact List.getLast_mem hSome

/-! ## Reading an origin back -/

section ReadBack

/-- The characters that stay in a netloc when the URL is read again. -/
def isNetlocChar (c : Char) : Bool :=
  33 ≤ c.toNat && c.toNat < 127 && c != '/' && c != '?' && c != '#'

theorem isNetlocChar_iff {c : Char} : isNetlocChar c = true ↔
    33 ≤ c.toNat ∧ c.toNat < 127 ∧ c ≠ '/' ∧ c ≠ '?' ∧ c ≠ '#' := by
  simp [isNetlocChar, and_assoc]

theorem isNetlocChar_of_digit {c : Char} (h : c.isDigit = true) : isNetlocChar c = true := by
  have hLow : 48 ≤ c.toNat ∧ c.toNat ≤ 57 := Char.isDigit_iff_toNat.mp h
  have hNe (b : Char) (hb : b.isDigit = false) : c ≠ b := by
    rintro rfl
    rw [h] at hb
    cases hb
  exact isNetlocChar_iff.mpr ⟨by omega, by omega, hNe '/' rfl, hNe '?' rfl, hNe '#' rfl⟩

theorem isNetlocChar_numberSuffix {port : Option Nat} :
    ∀ c ∈ numberSuffix port, isNetlocChar c = true := by
  intro c hc
  rcases numberSuffix_digits c hc with rfl | hDigit
  · decide
  · exact isNetlocChar_of_digit hDigit

/-- No character of a written origin is a blank or a control character. -/
theorem origin_printable {scheme netloc : Text} (hScheme : scheme ∈ webSchemes)
    (hNetloc : ∀ c ∈ netloc, isNetlocChar c = true) :
    ∀ c ∈ scheme ++ "://".toList ++ netloc, 33 ≤ c.toNat ∧ c.toNat < 127 := by
  have hSchemes : ∀ scheme ∈ webSchemes, ∀ c ∈ scheme ++ "://".toList,
      33 ≤ c.toNat ∧ c.toNat < 127 := by decide
  intro c hc
  rcases List.mem_append.mp hc with hc | hc
  · exact hSchemes scheme hScheme c hc
  · obtain ⟨hLow, hHigh, -⟩ := isNetlocChar_iff.mp (hNetloc c hc)
    exact ⟨hLow, hHigh⟩

theorem isSpace_of_printable {c : Char} (h : 33 ≤ c.toNat ∧ c.toNat < 127) : isSpace c = false := by
  simp [isSpace]
  omega

theorem urlsplit_clean {url : Text} (h : ∀ c ∈ url, 33 ≤ c.toNat) :
    (url.dropWhile isControlOrSpace).filter (!isUnsafeUrlByte ·) = url := by
  have hDrop : url.dropWhile isControlOrSpace = url := by
    refine dropWhile_eq_self fun c hc => ?_
    have hLow := h c hc
    simp [isControlOrSpace]
    omega
  rw [hDrop, List.filter_eq_self]
  intro c hc
  have hNe (b : Char) (hb : b.toNat < 33) : c ≠ b := by
    rintro rfl
    have hLow := h c hc
    omega
  simp only [isUnsafeUrlByte, Bool.not_eq_true', Bool.or_eq_false_iff, beq_eq_false_iff_ne]
  exact ⟨⟨hNe '\t' (by decide), hNe '\r' (by decide)⟩, hNe '\n' (by decide)⟩

/-- A written origin is split where it was put together. -/
theorem urlsplit_origin (py : Runtime) {scheme netloc : Text} (hScheme : scheme ∈ webSchemes)
    (hNetloc : ∀ c ∈ netloc, isNetlocChar c = true) :
    urlsplit py (scheme ++ "://".toList ++ netloc) =
      if invalidBrackets py netloc then .error .invalidIpv6Url
      else .ok { scheme := scheme, netloc := netloc, path := [], query := [], fragment := [] } := by
  have hClean := urlsplit_clean fun c hc => (origin_printable hScheme hNetloc c hc).1
  have hSchemeOf : schemeOf (scheme ++ "://".toList ++ netloc) = scheme := by
    rcases List.mem_pair.mp hScheme with rfl | rfl <;> rfl
  have hDrop : dropScheme (scheme ++ "://".toList ++ netloc) = '/' :: '/' :: netloc := by
    rcases List.mem_pair.mp hScheme with rfl | rfl <;> rfl
  have hInside : ∀ c ∈ netloc, (c != '/' && c != '?' && c != '#') = true := by
    intro c hc
    obtain ⟨-, -, hSlash, hQuery, hHash⟩ := isNetlocChar_iff.mp (hNetloc c hc)
    simp [hSlash, hQuery, hHash]
  have hSplit : splitNetloc ('/' :: '/' :: netloc) = netloc :=
    List.takeWhile_eq_self_iff.mpr hInside
  have hAfter : afterNetloc ('/' :: '/' :: netloc) = [] :=
    List.dropWhile_eq_nil_iff.mpr hInside
  have hAscii : netloc.all (fun c => c.toNat < 128) = true := by
    rw [List.all_eq_true]
    intro c hc
    obtain ⟨-, hHigh, -⟩ := isNetlocChar_iff.mp (hNetloc c hc)
    exact decide_eq_true (by omega)
  have hNfkc : invalidUnderNfkc py netloc = false := by
    rw [invalidUnderNfkc, hAscii]
    rfl
  unfold urlsplit
  simp only [hClean, hDrop, hSplit, hAfter, hSchemeOf, hNfkc]
  rfl

/-! ### Ports -/

theorem portSuffix_eq_numberSuffix (scheme : Text) (port : Option Nat) :
    portSuffix scheme port =
      numberSuffix (port.filter fun n => n != 0 && n != defaultPort scheme) := by
  cases port with
  | none => rfl
  | some n =>
      by_cases hDefault : n = 0 ∨ n = defaultPort scheme
      · have hDrop : (n != 0 && n != defaultPort scheme) = false := by
          rcases hDefault with rfl | rfl <;> simp
        simp only [portSuffix, hDefault, if_true, Option.filter_some, hDrop]
        rfl
      · have hKeep : (n != 0 && n != defaultPort scheme) = true := by
          simpa using hDefault
        simp only [portSuffix, hDefault, if_false, Option.filter_some, hKeep, if_true]
        rfl

/-- What is left out of a URL as the default port makes no difference. -/
theorem portSuffix_filter (scheme : Text) (port : Option Nat) (keep : Nat → Bool)
    (hKeep : ∀ n, keep n = false → n = 0 ∨ n = defaultPort scheme) :
    portSuffix scheme (port.filter keep) = portSuffix scheme port := by
  cases port with
  | none => rfl
  | some n =>
      rw [Option.filter_some]
      cases hKept : keep n with
      | true => rfl
      | false => simp [portSuffix, hKeep n hKept]

theorem port_of_digits {parsed : SplitResult} {host : Text} {port : Option Nat}
    (hInfo : hostInfo parsed.netloc = (host, port.map (Nat.toDigits 10)))
    (hRange : ∀ n ∈ port, n ≤ 65535) : parsed.port = .ok port := by
  unfold SplitResult.port
  rw [hInfo]
  cases port with
  | none => rfl
  | some n =>
      have hDigits : (Nat.toDigits 10 n).all Char.isDigit = true := by
        rw [List.all_eq_true]
        exact fun c hc => Nat.isDigit_of_mem_toDigits (by decide) (by decide) hc
      have hLow : n ≤ 65535 := hRange n rfl
      simp only [Option.map_some, hDigits, if_true, Nat.ofDigitChars_ten_toDigits, hLow]

/-- A port that was read is in range. -/
theorem port_le {parsed : SplitResult} {port : Option Nat} (h : parsed.port = .ok port) :
    ∀ n ∈ port, n ≤ 65535 := by
  unfold SplitResult.port at h
  split at h
  · obtain rfl := Except.ok.inj h
    intro n hn
    cases hn
  · split at h
    · dsimp only at h
      split at h
      · rename_i hLe
        obtain rfl := Except.ok.inj h
        intro n hn
        obtain rfl := Option.mem_some_iff.mp hn
        exact hLe
      · cases h
    · cases h

/-! ### A host that is a name -/

theorem isDomainChar_iff {c : Char} : isDomainChar c = true ↔
    (33 ≤ c.toNat ∧ c.toNat < 127) ∧ c ∉
      ['#', '/', ':', '<', '>', '?', '@', '[', '\\', ']', '^', '|', '%'] := by
  simp [isDomainChar]

theorem isDomainChar_ascii :
    ∀ n < 128, isDomainChar (Char.ofNat n) = true → isNetlocChar (Char.ofNat n) = true ∧
      isDomainChar (Char.ofNat n).toLower = true ∧
      (Char.ofNat n).toLower.toLower = (Char.ofNat n).toLower := by
  decide

theorem isDomainChar_lower {c : Char} (h : isDomainChar c = true) : isNetlocChar c = true ∧
    isDomainChar c.toLower = true ∧ c.toLower.toLower = c.toLower := by
  obtain ⟨⟨-, hHigh⟩, -⟩ := isDomainChar_iff.mp h
  have hAscii := isDomainChar_ascii c.toNat (by omega)
  rw [Char.ofNat_toNat] at hAscii
  exact hAscii h

section Name

variable (py : Runtime) {lower : Text → Text} {scheme host : Text} {port : Option Nat}

theorem lower_domain (hLower : LowersAscii lower) (hHost : ∀ c ∈ host, isDomainChar c = true) :
    lower host = host.map Char.toLower := by
  refine hLower host fun c hc => ?_
  have hHigh := (isDomainChar_iff.mp (hHost c hc)).1.2
  omega

theorem domain_map_toLower (hHost : ∀ c ∈ host, isDomainChar c = true) :
    (∀ c ∈ host.map Char.toLower, isDomainChar c = true) ∧
      (host.map Char.toLower).map Char.toLower = host.map Char.toLower := by
  refine ⟨?_, ?_⟩
  · intro c hc
    obtain ⟨d, hd, rfl⟩ := List.mem_map.mp hc
    exact (isDomainChar_lower (hHost d hd)).2.1
  · rw [List.map_map]
    exact List.map_congr_left fun c hc => (isDomainChar_lower (hHost c hc)).2.2

theorem hostInfo_of_domain (port : Option Nat) (hHost : ∀ c ∈ host, isDomainChar c = true) :
    hostInfo (host ++ numberSuffix port) = (host, port.map (Nat.toDigits 10)) := by
  exact hostInfo_of_name port (not_mem_of_all hHost (by decide)) (not_mem_of_all hHost (by decide))
    (not_mem_of_all hHost (by decide))

/-- What `urlsplit` makes of a written origin. -/
def originParts (scheme host : Text) (port : Option Nat) : SplitResult where
  scheme := scheme
  netloc := host ++ numberSuffix port
  path := []
  query := []
  fragment := []

theorem name_netloc (hHost : ∀ c ∈ host, isDomainChar c = true) :
    ∀ c ∈ host ++ numberSuffix port, isNetlocChar c = true := by
  intro c hc
  rcases List.mem_append.mp hc with hc | hc
  · exact (isDomainChar_lower (hHost c hc)).1
  · exact isNetlocChar_numberSuffix c hc

theorem urlsplit_name (hScheme : scheme ∈ webSchemes)
    (hHost : ∀ c ∈ host, isDomainChar c = true) :
    urlsplit py (scheme ++ "://".toList ++ host ++ numberSuffix port) =
      .ok (originParts scheme host port) := by
  have hOpen : '[' ∉ host ++ numberSuffix port :=
    not_mem_netloc (not_mem_of_all hHost (by decide)) (by decide) (by decide)
  have hClose : ']' ∉ host ++ numberSuffix port :=
    not_mem_netloc (not_mem_of_all hHost (by decide)) (by decide) (by decide)
  have hBrackets : invalidBrackets py (host ++ numberSuffix port) = false := by
    rw [invalidBrackets, contains_eq_false hOpen, contains_eq_false hClose]
    rfl
  rw [List.append_assoc _ host, urlsplit_origin py hScheme (name_netloc hHost), hBrackets]
  rfl

theorem originParts_port (hHost : ∀ c ∈ host, isDomainChar c = true)
    (hRange : ∀ n ∈ port, n ≤ 65535) : (originParts scheme host port).port = .ok port :=
  port_of_digits (hostInfo_of_domain port hHost) hRange

theorem originParts_hostname (hLower : LowersAscii lower)
    (hHost : ∀ c ∈ host, isDomainChar c = true) :
    (originParts scheme host port).hostname lower =
      if host.isEmpty then none else some (host.map Char.toLower) := by
  have hPercent : '%' ∉ host := not_mem_of_all hHost (by decide)
  unfold SplitResult.hostname originParts
  simp only [hostInfo_of_domain port hHost, splitFirst_of_not_mem hPercent, List.drop_length,
    List.append_nil, lower_domain hLower hHost]

theorem originParts_userInfo (hHost : ∀ c ∈ host, isDomainChar c = true) :
    (originParts scheme host port).userInfo = ([], []) := by
  have hAt : '@' ∉ host ++ numberSuffix port :=
    not_mem_netloc (not_mem_of_all hHost (by decide)) (by decide) (by decide)
  unfold SplitResult.userInfo originParts
  simp only [contains_eq_false hAt, Bool.false_eq_true, if_false]

/-- A written origin is normalized to its host in lower case without trailing dots. -/
theorem normalizedOrigin_name (hLower : LowersAscii lower) (hScheme : scheme ∈ webSchemes)
    (hHost : ∀ c ∈ host, isDomainChar c = true) (hRange : ∀ n ∈ port, n ≤ 65535) :
    normalizedOrigin py lower (scheme ++ "://".toList ++ host ++ numberSuffix port) =
      if host.isEmpty then none
      else some (scheme ++ "://".toList ++ rstripDots (host.map Char.toLower) ++
        portSuffix scheme port) := by
  have hKnown : ¬ (originParts scheme host port).scheme ∉ webSchemes := not_not.mpr hScheme
  unfold normalizedOrigin
  simp only [urlsplit_name py hScheme hHost, originParts_port hHost hRange, hKnown, if_false,
    originParts_hostname hLower hHost]
  by_cases hEmpty : host.isEmpty = true
  · rw [if_pos hEmpty, if_pos hEmpty, Option.map_none]
  · obtain ⟨hDomain, hFixed⟩ := domain_map_toLower hHost
    rw [if_neg hEmpty, if_neg hEmpty, Option.map_some, originText, lower_domain hLower hDomain,
      hFixed]
    rfl

theorem normalizeOrigin_name (hLower : LowersAscii lower) (hScheme : scheme ∈ webSchemes)
    (hHost : ∀ c ∈ host, isDomainChar c = true) (hRange : ∀ n ∈ port, n ≤ 65535)
    (hSome : host.isEmpty = false) {requireHttps : Bool}
    (hHttps : (requireHttps && scheme != "https".toList) = false) :
    normalizeOrigin py lower (scheme ++ "://".toList ++ host ++ numberSuffix port) requireHttps =
      .ok (scheme ++ "://".toList ++ rstripDots (host.map Char.toLower) ++
        portSuffix scheme port) := by
  have hStrip : strip (scheme ++ "://".toList ++ host ++ numberSuffix port) =
      scheme ++ "://".toList ++ host ++ numberSuffix port := by
    rw [List.append_assoc _ host]
    exact strip_eq_self fun c hc =>
      isSpace_of_printable (origin_printable hScheme (name_netloc hHost) c hc)
  have hKnown : ¬ (originParts scheme host port).scheme ∉ webSchemes := not_not.mpr hScheme
  have hRequired : (requireHttps && (originParts scheme host port).scheme != "https".toList) = false :=
    hHttps
  have hHostname : (originParts scheme host port).hostname lower =
      some (host.map Char.toLower) := by
    rw [originParts_hostname hLower hHost, hSome]
    rfl
  obtain ⟨hDomain, hFixed⟩ := domain_map_toLower hHost
  unfold normalizeOrigin
  simp only [hStrip, urlsplit_name py hScheme hHost, originParts_port hHost hRange, hKnown,
    if_false, hHostname, hRequired, Bool.false_eq_true, originParts_userInfo hHost, originText,
    lower_domain hLower hDomain, hFixed]
  rfl

end Name

/-! ### A host that is an address -/

section Address

variable (py : Runtime) {lower : Text → Text} {scheme address : Text} {port : Option Nat}

theorem isAddressChar_ascii :
    ∀ n < 128, isAddressChar (Char.ofNat n) = true → isNetlocChar (Char.ofNat n) = true ∧
      (Char.ofNat n).toLower = Char.ofNat n := by
  decide

theorem isAddressChar_lt {c : Char} (h : isAddressChar c = true) : c.toNat < 128 := by
  simp only [isAddressChar, Bool.or_eq_true, Bool.and_eq_true, decide_eq_true_eq, beq_iff_eq] at h
  rcases h with (hDigit | ⟨-, hLetter⟩) | rfl
  · have hHigh : c.toNat ≤ 57 := (Char.isDigit_iff_toNat.mp hDigit).2
    omega
  · have hHigh : c.toNat ≤ 102 := hLetter
    omega
  · decide

theorem isAddressChar_lower {c : Char} (h : isAddressChar c = true) :
    isNetlocChar c = true ∧ c.toLower = c := by
  have hAscii := isAddressChar_ascii c.toNat (isAddressChar_lt h)
  rw [Char.ofNat_toNat] at hAscii
  exact hAscii h

/-- An address with two colons still has one after its first. -/
theorem colon_mem_afterFirst : ∀ {t : Text}, 2 ≤ t.count ':' → ':' ∈ afterFirst ':' t := by
  intro t h
  induction t with
  | nil => cases h
  | cons c t ih =>
      by_cases hColon : c = ':'
      · subst hColon
        rw [List.count_cons_self] at h
        exact List.count_pos_iff.mp (show 0 < t.count ':' by omega)
      · rw [List.count_cons_of_ne hColon] at h
        have hStep : afterFirst ':' (c :: t) = afterFirst ':' t := by
          simp [afterFirst, hColon]
        rw [hStep]
        exact ih h

/-- Without its brackets, an address is read as a host and a port that is no number. -/
theorem normalizedOrigin_bareAddress (hScheme : scheme ∈ webSchemes)
    (hColons : 2 ≤ address.count ':') (hAddress : ∀ c ∈ address, isAddressChar c = true) :
    normalizedOrigin py lower (scheme ++ "://".toList ++ address ++ numberSuffix port) = none := by
  have hNetloc : ∀ c ∈ address ++ numberSuffix port, isNetlocChar c = true := by
    intro c hc
    rcases List.mem_append.mp hc with hc | hc
    · exact (isAddressChar_lower (hAddress c hc)).1
    · exact isNetlocChar_numberSuffix c hc
  have hAt : '@' ∉ address ++ numberSuffix port :=
    not_mem_netloc (not_mem_of_all hAddress (by decide)) (by decide) (by decide)
  have hOpen : '[' ∉ address ++ numberSuffix port :=
    not_mem_netloc (not_mem_of_all hAddress (by decide)) (by decide) (by decide)
  have hCount : 2 ≤ (address ++ numberSuffix port).count ':' := by
    rw [List.count_append]
    omega
  have hColon := colon_mem_afterFirst hCount
  have hInfo : (hostInfo (address ++ numberSuffix port)).2 =
      some (afterFirst ':' (address ++ numberSuffix port)) := by
    have hSome : (afterFirst ':' (address ++ numberSuffix port)).isEmpty = false := by
      rw [← Bool.not_eq_true, List.isEmpty_iff]
      exact List.ne_nil_of_mem hColon
    unfold hostInfo
    rw [splitLast_of_not_mem hAt]
    simp only [contains_eq_false hOpen, Bool.false_eq_true, if_false, hSome]
  have hDigits : (afterFirst ':' (address ++ numberSuffix port)).all Char.isDigit = false := by
    rw [List.all_eq_false]
    exact ⟨':', hColon, by decide⟩
  have hPort (parsed : SplitResult) (h : parsed.netloc = address ++ numberSuffix port) :
      parsed.port = .error .notANumber := by
    unfold SplitResult.port
    rw [h, hInfo]
    simp only [hDigits, Bool.false_eq_true, if_false]
  rw [List.append_assoc _ address]
  unfold normalizedOrigin
  rw [urlsplit_origin py hScheme hNetloc]
  by_cases hBrackets : invalidBrackets py (address ++ numberSuffix port) = true
  · rw [if_pos hBrackets]
  · rw [if_neg hBrackets]
    dsimp only
    rw [hPort _ rfl]

theorem hostInfo_of_address (port : Option Nat)
    (hAddress : ∀ c ∈ address, isAddressChar c = true) :
    hostInfo ('[' :: (address ++ ']' :: numberSuffix port)) =
      (address, port.map (Nat.toDigits 10)) := by
  have hAt : '@' ∉ '[' :: (address ++ ']' :: numberSuffix port) := by
    have hBefore : '@' ∉ address := not_mem_of_all hAddress (by decide)
    have hAfterwards : '@' ∉ numberSuffix port := not_mem_numberSuffix (by decide) (by decide)
    simp [hBefore, hAfterwards]
  have hOpen : ('[' :: (address ++ ']' :: numberSuffix port)).contains '[' = true := by
    rw [List.contains_iff_mem]
    exact List.mem_cons_self
  have hAfter : afterFirst '[' ('[' :: (address ++ ']' :: numberSuffix port)) =
      address ++ ']' :: numberSuffix port := rfl
  have hClose : ']' ∉ address := not_mem_of_all hAddress (by decide)
  obtain ⟨hHost, hRest⟩ := split_append (numberSuffix port) hClose
  unfold hostInfo
  rw [splitLast_of_not_mem hAt]
  simp only [hOpen, if_true, hAfter, hHost, hRest]
  cases port with
  | none => rfl
  | some n =>
      have hDigits : afterFirst ':' (numberSuffix (some n)) = Nat.toDigits 10 n := rfl
      have hSome : (Nat.toDigits 10 n).isEmpty = false := by
        rw [← Bool.not_eq_true, List.isEmpty_iff]
        exact Nat.toDigits_ne_nil
      rw [hDigits, hSome]
      rfl

/-- The normalizer takes the brackets off the address of an `Origin` header. -/
theorem normalizedOrigin_address (hLower : LowersAscii lower) (hScheme : scheme ∈ webSchemes)
    (hAddress : ∀ c ∈ address, isAddressChar c = true) (hRange : ∀ n ∈ port, n ≤ 65535)
    {supplied : Text}
    (h : normalizedOrigin py lower
      (scheme ++ "://".toList ++ '[' :: (address ++ [']']) ++ numberSuffix port) = some supplied) :
    supplied = scheme ++ "://".toList ++ address ++ portSuffix scheme port := by
  have hWritten : scheme ++ "://".toList ++ '[' :: (address ++ [']']) ++ numberSuffix port =
      scheme ++ "://".toList ++ '[' :: (address ++ ']' :: numberSuffix port) := by
    simp
  have hNetloc : ∀ c ∈ '[' :: (address ++ ']' :: numberSuffix port), isNetlocChar c = true := by
    intro c hc
    rcases List.mem_cons.mp hc with rfl | hc
    · decide
    · rcases List.mem_append.mp hc with hc | hc
      · exact (isAddressChar_lower (hAddress c hc)).1
      · rcases List.mem_cons.mp hc with rfl | hc
        · decide
        · exact isNetlocChar_numberSuffix c hc
  have hLowered : lower address = address := by
    rw [hLower address fun c hc => isAddressChar_lt (hAddress c hc)]
    calc address.map Char.toLower
        = address.map id := List.map_congr_left fun c hc => (isAddressChar_lower (hAddress c hc)).2
      _ = address := List.map_id address
  have hPercent : '%' ∉ address := not_mem_of_all hAddress (by decide)
  have hDot : rstripDots address = address :=
    rstripDots_eq_self (not_mem_of_all hAddress (by decide))
  rw [hWritten] at h
  unfold normalizedOrigin at h
  rw [urlsplit_origin py hScheme hNetloc] at h
  by_cases hBrackets : invalidBrackets py ('[' :: (address ++ ']' :: numberSuffix port)) = true
  · rw [if_pos hBrackets] at h
    cases h
  · rw [if_neg hBrackets] at h
    dsimp only at h
    rw [port_of_digits (hostInfo_of_address port hAddress) hRange] at h
    dsimp only at h
    rw [if_neg (not_not.mpr hScheme)] at h
    obtain ⟨hostname, hHostname, rfl⟩ := Option.map_eq_some_iff.mp h
    have hSame : hostname = address := by
      unfold SplitResult.hostname at hHostname
      simp only [hostInfo_of_address port hAddress, splitFirst_of_not_mem hPercent,
        List.drop_length, List.append_nil, hLowered] at hHostname
      split at hHostname
      · cases hHostname
      · exact (Option.some.inj hHostname).symm
    rw [originText, hSame, hLowered, hDot]

end Address

end ReadBack

/-! ## The public origin -/

section PublicOrigin

variable {py : Runtime} {lower serializeHost : Text → Text} {value publicOrigin : Text}
  {requireHttps : Bool}

/-- What `_normalize_origin` has found when it returns. -/
structure NormalizedFrom (py : Runtime) (lower : Text → Text) (value : Text) (requireHttps : Bool)
    (publicOrigin : Text) (parsed : SplitResult) (hostname : Text) (port : Option Nat) : Prop where
  split : urlsplit py (strip value) = .ok parsed
  readPort : parsed.port = .ok port
  webScheme : parsed.scheme ∈ webSchemes
  host : parsed.hostname lower = some hostname
  https : (requireHttps && parsed.scheme != "https".toList) = false
  text : publicOrigin = originText lower parsed.scheme hostname port

theorem normalizeOrigin_ok (h : normalizeOrigin py lower value requireHttps = .ok publicOrigin) :
    ∃ parsed hostname port,
      NormalizedFrom py lower value requireHttps publicOrigin parsed hostname port := by
  unfold normalizeOrigin at h
  split at h
  · cases h
  · rename_i parsed hSplit
    split at h
    · cases h
    · rename_i port hPort
      split at h
      · cases h
      · rename_i hScheme
        split at h
        · cases h
        · rename_i hostname hHostname
          split at h
          · cases h
          · rename_i hHttps
            split at h
            · cases h
            · obtain rfl := Except.ok.inj h
              exact ⟨parsed, hostname, port, hSplit, hPort, not_not.mp hScheme, hHostname,
                Bool.not_eq_true _ ▸ hHttps, rfl⟩

/-- The header of a browser. -/
theorem browserOrigin_eq {parsed : SplitResult} {hostname : Text} {port : Option Nat}
    (h : NormalizedFrom py lower value requireHttps publicOrigin parsed hostname port) :
    browserOrigin py serializeHost value =
      some (parsed.scheme ++ "://".toList ++ serializeHost (writtenHost parsed) ++
        numberSuffix (port.filter (· != defaultPort parsed.scheme))) := by
  unfold browserOrigin
  simp only [h.split, h.readPort]

theorem compareDigest_self {a : Text} (h : ∀ c ∈ a, c.toNat < 128) :
    compareDigest a a = some true := by
  have hAll : a.all (·.toNat < 128) = true := by
    rw [List.all_eq_true]
    exact fun c hc => decide_eq_true (h c hc)
  rw [compareDigest, hAll]
  simp

/-- The comparison the check makes when the public origin is read as itself. -/
theorem validateBrowserOrigin_header {request : BrowserRequest} {header : Text} (required : Bool)
    (hSite : request.secFetchSite = none) (hOrigin : request.origin = some header)
    (hFixed : normalizedOrigin py lower publicOrigin = some publicOrigin) :
    validateBrowserOrigin py lower (some publicOrigin) request required =
      match normalizedOrigin py lower header with
      | none => if required then .error .originRequired else .ok ()
      | some supplied =>
          match compareDigest supplied publicOrigin with
          | none => .error .typeError
          | some true => .ok ()
          | some false => .error .crossOriginRequestBlocked := by
  have hSame : request.crossSite = false := by
    rw [BrowserRequest.crossSite, hSite]
    rfl
  have hSupplied : request.supplied py lower = normalizedOrigin py lower header := by
    rw [BrowserRequest.supplied, hOrigin]
  have hExpected : expectedOrigin py lower (some publicOrigin) request = some publicOrigin := hFixed
  have hValidate := @validate_eq py lower (some publicOrigin) request required hSame
  rw [hSupplied, hExpected] at hValidate
  exact hValidate

/-- A header that passes where an origin is required is normalized to the public origin. -/
theorem normalizedOrigin_of_accepted {header : Text}
    (hFixed : normalizedOrigin py lower publicOrigin = some publicOrigin)
    (h : ∀ request required, request.secFetchSite = none → request.origin = some header →
      validateBrowserOrigin py lower (some publicOrigin) request required = .ok ()) :
    normalizedOrigin py lower header = some publicOrigin := by
  have hAccepted := h ⟨none, some header, none, [], []⟩ true rfl rfl
  rw [validateBrowserOrigin_header true rfl rfl hFixed] at hAccepted
  split at hAccepted
  · cases hAccepted
  · rename_i supplied hSupplied
    split at hAccepted
    · cases hAccepted
    · rename_i hSame
      rw [hSupplied, eq_of_compareDigest hSame]
    · cases hAccepted

theorem no_bracket_of_not_bracketed {parsed : SplitResult} (h : parsed.bracketed = false) :
    ¬ ['['] <+: (hostInfo parsed.netloc).1 := by
  intro hPrefix
  have hMem : '[' ∈ (hostInfo parsed.netloc).1 := hPrefix.mem List.mem_cons_self
  have hOpen : (splitLast '@' parsed.netloc).contains '[' = false := h
  unfold hostInfo at hMem
  simp only [hOpen, Bool.false_eq_true, if_false] at hMem
  have hInfo : '[' ∈ splitLast '@' parsed.netloc := (List.takeWhile_sublist _).mem hMem
  rw [← List.contains_iff_mem, hOpen] at hInfo
  cases hInfo

/-- What a plain host comes to: its serialization in lower case without trailing dots. -/
theorem plain_fixed {written : Text} (hDomain : ∀ c ∈ written, isDomainChar c = true) :
    (∀ c ∈ rstripDots (written.map Char.toLower), isDomainChar c = true) ∧
      rstripDots ((rstripDots (written.map Char.toLower)).map Char.toLower) =
        rstripDots (written.map Char.toLower) := by
  have hLowered : ∀ c ∈ rstripDots (written.map Char.toLower),
      isDomainChar c = true ∧ c.toLower = c := by
    intro c hc
    obtain ⟨d, hd, rfl⟩ := List.mem_map.mp (mem_of_mem_rstripDots hc)
    exact (isDomainChar_lower (hDomain d hd)).2
  refine ⟨fun c hc => (hLowered c hc).1, ?_⟩
  have hMap : (rstripDots (written.map Char.toLower)).map Char.toLower =
      rstripDots (written.map Char.toLower) := by
    calc (rstripDots (written.map Char.toLower)).map Char.toLower
        = (rstripDots (written.map Char.toLower)).map id :=
          List.map_congr_left fun c hc => (hLowered c hc).2
      _ = rstripDots (written.map Char.toLower) := List.map_id _
  rw [hMap, rstripDots_rstripDots]

theorem accepted_of_plainHost (hLower : LowersAscii lower) (hHosts : SerializesHosts serializeHost)
    {parsed : SplitResult} {hostname : Text} {port : Option Nat}
    (h : NormalizedFrom py lower value requireHttps publicOrigin parsed hostname port)
    (hBracketed : parsed.bracketed = false) (hSome : rstripDots (lower hostname) ≠ [])
    (hWritten : rstripDots (lower (serializeHost (hostInfo parsed.netloc).1)) =
      rstripDots (lower hostname)) :
    OriginAccepted py lower serializeHost value requireHttps publicOrigin := by
  have hDomain := hHosts.name _ (no_bracket_of_not_bracketed hBracketed)
  have hHeader : writtenHost parsed = (hostInfo parsed.netloc).1 := by
    rw [writtenHost, hBracketed]
    rfl
  have hRange := port_le h.readPort
  have hFiltered (keep : Nat → Bool) : ∀ n ∈ port.filter keep, n ≤ 65535 :=
    fun n hn => hRange n (Option.eq_some_of_filter_eq_some hn)
  -- the host of the public origin is the serialized host
  rw [lower_domain hLower hDomain] at hWritten
  obtain ⟨hNormal, hFixedHost⟩ := plain_fixed hDomain
  have hText := h.text
  rw [originText, ← hWritten] at hText
  have hSuffix := portSuffix_eq_numberSuffix parsed.scheme port
  have hAgain : portSuffix parsed.scheme
      (port.filter fun n => n != 0 && n != defaultPort parsed.scheme) =
      portSuffix parsed.scheme port := by
    refine portSuffix_filter _ _ _ fun n hn => ?_
    simpa [or_iff_not_imp_left] using hn
  have hNotEmpty : (rstripDots ((serializeHost (hostInfo parsed.netloc).1).map
      Char.toLower)).isEmpty = false := by
    rw [← Bool.not_eq_true, List.isEmpty_iff, hWritten]
    exact hSome
  have hFixed : normalizedOrigin py lower publicOrigin = some publicOrigin := by
    rw [hText, hSuffix, normalizedOrigin_name py hLower h.webScheme hNormal (hFiltered _),
      hNotEmpty, hFixedHost, hAgain, hSuffix]
    rfl
  refine ⟨?_, hFixed, ?_⟩
  · rw [hText, hSuffix, normalizeOrigin_name py hLower h.webScheme hNormal (hFiltered _) hNotEmpty
      h.https, hFixedHost, hAgain, hSuffix]
  · intro request required hSite hOrigin
    rw [browserOrigin_eq h, hHeader] at hOrigin
    have hSent : (serializeHost (hostInfo parsed.netloc).1).isEmpty = false := by
      rw [← Bool.not_eq_true, List.isEmpty_iff]
      intro hEmpty
      rw [hEmpty] at hNotEmpty
      cases hNotEmpty
    have hDefault : portSuffix parsed.scheme (port.filter (· != defaultPort parsed.scheme)) =
        portSuffix parsed.scheme port := by
      refine portSuffix_filter _ _ _ fun n hn => Or.inr ?_
      simpa using hn
    have hAscii : ∀ c ∈ publicOrigin, c.toNat < 128 := by
      rw [hText, hSuffix, List.append_assoc _ (rstripDots _)]
      intro c hc
      have hHigh := (origin_printable h.webScheme (name_netloc hNormal) c hc).2
      omega
    rw [validateBrowserOrigin_header required hSite hOrigin hFixed,
      normalizedOrigin_name py hLower h.webScheme hDomain (hFiltered _), hSent, hDefault, ← hText]
    simp only [Bool.false_eq_true, if_false, compareDigest_self hAscii]

theorem plainHost_of_accepted (hLower : LowersAscii lower) (hHosts : SerializesHosts serializeHost)
    {parsed : SplitResult} {hostname : Text} {port : Option Nat}
    (h : NormalizedFrom py lower value requireHttps publicOrigin parsed hostname port)
    (hAccepted : OriginAccepted py lower serializeHost value requireHttps publicOrigin) :
    PlainHost py lower serializeHost value := by
  obtain ⟨-, hFixed, hRequests⟩ := hAccepted
  rw [browserOrigin_eq h] at hRequests
  have hSupplied := normalizedOrigin_of_accepted hFixed hRequests
  have hRange := port_le h.readPort
  have hFiltered : ∀ n ∈ port.filter (· != defaultPort parsed.scheme), n ≤ 65535 :=
    fun n hn => hRange n (Option.eq_some_of_filter_eq_some hn)
  have hDefault : portSuffix parsed.scheme (port.filter (· != defaultPort parsed.scheme)) =
      portSuffix parsed.scheme port := by
    refine portSuffix_filter _ _ _ fun n hn => Or.inr ?_
    simpa using hn
  have hSuffix := portSuffix_eq_numberSuffix parsed.scheme port
  cases hBracketed : parsed.bracketed with
  | true =>
      -- the public origin is the address without its brackets, which is no origin
      have hHeader : writtenHost parsed = '[' :: ((hostInfo parsed.netloc).1 ++ [']']) := by
        rw [writtenHost, hBracketed]
        rfl
      obtain ⟨address, hAddress, hColons, hChars⟩ :=
        hHosts.address _ (⟨_, hHeader.symm⟩ : ['['] <+: writtenHost parsed)
      rw [hAddress] at hSupplied
      have hText := normalizedOrigin_address py hLower h.webScheme hChars hFiltered hSupplied
      rw [hDefault, hSuffix] at hText
      rw [hText, normalizedOrigin_bareAddress py h.webScheme hColons hChars] at hFixed
      cases hFixed
  | false =>
      have hDomain := hHosts.name _ (no_bracket_of_not_bracketed hBracketed)
      have hHeader : writtenHost parsed = (hostInfo parsed.netloc).1 := by
        rw [writtenHost, hBracketed]
        rfl
      have hText := h.text
      refine ⟨parsed, hostname, h.split, h.host, hBracketed, ?_, ?_⟩
      · intro hEmpty
        have hNoHost := @normalizedOrigin_name py lower parsed.scheme []
          (port.filter fun n => n != 0 && n != defaultPort parsed.scheme) hLower h.webScheme
          (fun c hc => nomatch hc) (fun n hn => hRange n (Option.eq_some_of_filter_eq_some hn))
        rw [originText, hEmpty, hSuffix] at hText
        rw [← hText] at hNoHost
        rw [hNoHost] at hFixed
        cases hFixed
      · rw [hHeader, normalizedOrigin_name py hLower h.webScheme hDomain hFiltered, hDefault] at hSupplied
        split at hSupplied
        · cases hSupplied
        · have hSame := (Option.some.inj hSupplied).trans hText
          rw [originText] at hSame
          rw [lower_domain hLower hDomain]
          exact List.append_cancel_left (List.append_cancel_right hSame)

/-- The configured origin is accepted if and only if a browser writes its host as the first
normalizer has left it. -/
theorem publicOrigin_accepted_iff (hLower : LowersAscii lower)
    (hHosts : SerializesHosts serializeHost)
    (hValue : normalizeOrigin py lower value requireHttps = .ok publicOrigin) :
    OriginAccepted py lower serializeHost value requireHttps publicOrigin ↔
      PlainHost py lower serializeHost value := by
  obtain ⟨parsed, hostname, port, h⟩ := normalizeOrigin_ok hValue
  refine ⟨plainHost_of_accepted hLower hHosts h, ?_⟩
  rintro ⟨parsed', hostname', hSplit, hHost, hBracketed, hSome, hWritten⟩
  obtain rfl : parsed = parsed' := Except.ok.inj (h.split.symm.trans hSplit)
  obtain rfl : hostname = hostname' := Option.some.inj (h.host.symm.trans hHost)
  exact accepted_of_plainHost hLower hHosts h hBracketed hSome hWritten

end PublicOrigin

/-! ## A name and an address -/

section Examples

/-- A serializer of ASCII names and of one address. -/
def asciiSerializer (host : Text) : Text :=
  if ['['].isPrefixOf host then "[2001:db8::1]".toList
  else (host.filter isDomainChar).map Char.toLower

theorem asciiSerializer_serializes : SerializesHosts asciiSerializer where
  name := by
    intro host hName c hc
    rw [← List.isPrefixOf_iff_prefix] at hName
    rw [asciiSerializer, if_neg hName] at hc
    exact (domain_map_toLower fun d hd => (List.mem_filter.mp hd).2).1 c hc
  address := by
    intro host hAddress
    rw [← List.isPrefixOf_iff_prefix] at hAddress
    rw [asciiSerializer, if_pos hAddress]
    exact ⟨"2001:db8::1".toList, rfl, by decide, by decide⟩

theorem publicOrigin_accepted_name :
    normalizeOrigin asciiRuntime (List.map Char.toLower) "https://Example.COM.:8443/".toList true =
        .ok "https://example.com:8443".toList ∧
      OriginAccepted asciiRuntime (List.map Char.toLower) asciiSerializer
        "https://Example.COM.:8443/".toList true "https://example.com:8443".toList := by
  refine ⟨rfl, (publicOrigin_accepted_iff (fun _ _ => rfl) asciiSerializer_serializes rfl).mpr ?_⟩
  exact ⟨_, _, rfl, rfl, rfl, by decide, by decide⟩

/-- The public origin has lost the brackets of the address, and is no origin any more. -/
theorem publicOrigin_without_brackets :
    normalizeOrigin asciiRuntime (List.map Char.toLower) "https://[2001:DB8::1]/".toList true =
        .ok "https://2001:db8::1".toList ∧
      browserOrigin asciiRuntime asciiSerializer "https://[2001:DB8::1]/".toList =
        some "https://[2001:db8::1]".toList ∧
      normalizeOrigin asciiRuntime (List.map Char.toLower) "https://2001:db8::1".toList true =
        .error .invalidUrl ∧
      normalizedOrigin asciiRuntime (List.map Char.toLower) "https://2001:db8::1".toList = none ∧
      validateBrowserOrigin asciiRuntime (List.map Char.toLower)
        (some "https://2001:db8::1".toList)
        ⟨none, some "https://[2001:db8::1]".toList, none, [], []⟩ true =
        .error .crossOriginRequestBlocked ∧
      ¬ OriginAccepted asciiRuntime (List.map Char.toLower) asciiSerializer
        "https://[2001:DB8::1]/".toList true "https://2001:db8::1".toList := by
  refine ⟨rfl, rfl, rfl, rfl, rfl, ?_⟩
  rintro ⟨-, hFixed, -⟩
  cases hFixed

end Examples

end SavedOrganizer
