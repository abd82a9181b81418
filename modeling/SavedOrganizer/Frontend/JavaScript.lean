import SavedOrganizer.Python.Text

/-!
# JavaScript strings

A string is its list of UTF-16 code units, with lone surrogates allowed. `length`, `at`,
`slice` and a regular expression without the `u` flag work on code units; `[...value]`
goes by code points. `utf16` is the string of a Python text.
-/

namespace SavedOrganizer.Frontend

abbrev JsString := List UInt16

/-- The UTF-16 code of a character. -/
def codeUnits (c : Char) : JsString :=
  if c.toNat < 0x10000 then [UInt16.ofNat c.toNat]
  else [UInt16.ofNat (0xD800 + (c.toNat - 0x10000) / 0x400),
    UInt16.ofNat (0xDC00 + (c.toNat - 0x10000) % 0x400)]

def utf16 (t : Text) : JsString := t.flatMap codeUnits

/-- A string literal. -/
def js (s : String) : JsString := utf16 s.toList

/-- A literal of one code unit. -/
def unit (c : Char) : UInt16 := UInt16.ofNat c.toNat

/-- `WhiteSpace` and `LineTerminator`: what `\s` matches and `trim` removes. -/
def isSpace (u : UInt16) : Bool :=
  (9 ≤ u.toNat && u.toNat ≤ 13) || u.toNat == 32 || u.toNat == 0xA0 || u.toNat == 0x1680 ||
    (0x2000 ≤ u.toNat && u.toNat ≤ 0x200A) || u.toNat == 0x2028 || u.toNat == 0x2029 ||
    u.toNat == 0x202F || u.toNat == 0x205F || u.toNat == 0x3000 || u.toNat == 0xFEFF

/-- `value.trim()`. -/
def trim (s : JsString) : JsString := ((s.dropWhile isSpace).reverse.dropWhile isSpace).reverse

/-- `value.slice(start, end)`, for `start` and `end` that are not negative. -/
def slice (s : JsString) (first last : Nat) : JsString := (s.take last).drop first

def isHighSurrogate (u : UInt16) : Bool := 0xD800 ≤ u.toNat && u.toNat < 0xDC00

def isLowSurrogate (u : UInt16) : Bool := 0xDC00 ≤ u.toNat && u.toNat < 0xE000

/-- `[...value]`: a high surrogate and a low one make one code point. -/
def codePoints : JsString → List JsString
  | [] => []
  | [u] => [[u]]
  | u :: v :: rest =>
      if isHighSurrogate u && isLowSurrogate v then [u, v] :: codePoints rest
      else [u] :: codePoints (v :: rest)

/-- The letter `p` of a pattern, in lower case, matches `u` under the `i` flag. Without the
`u` flag no other code unit is compared as an ASCII letter. -/
def matchesUnit (p u : UInt16) : Bool :=
  u == p || (unit 'a' ≤ p && p ≤ unit 'z' && u == p - 32)

/-- The word `w` matches at the start of the string. -/
def matchesWord : JsString → JsString → Bool
  | [], _ => true
  | _ :: _, [] => false
  | p :: w, u :: s => matchesUnit p u && matchesWord w s

/-- `value.toLowerCase()`, as far as a comparison with an ASCII word can tell: besides the
capitals, `İ` and the Kelvin sign have an ASCII letter in their lower case. -/
def toLowerCase (s : JsString) : JsString :=
  s.flatMap fun u =>
    if u = 0x130 then [unit 'i', 0x307]
    else if u = 0x212A then [unit 'k']
    else if unit 'A' ≤ u && u ≤ unit 'Z' then [u + 32]
    else [u]

/-! ## Strings without white space -/

theorem trim_eq_self {s : JsString} (h : ∀ u ∈ s, isSpace u = false) : trim s = s := by
  have hReverse : s.reverse.dropWhile isSpace = s.reverse :=
    Python.dropWhile_eq_self fun u hu => h u (List.mem_reverse.mp hu)
  rw [trim, Python.dropWhile_eq_self h, hReverse, List.reverse_reverse]

/-- A code unit that is no surrogate occurs as often among the code points as in the string. -/
theorem count_codePoints {u : UInt16} (h : isHighSurrogate u = false ∧ isLowSurrogate u = false)
    (s : JsString) : (codePoints s).count [u] = s.count u := by
  fun_induction codePoints s with
  | case1 => rfl
  | case2 v => by_cases hv : v = u <;> simp [hv]
  | case3 v w rest hPair ih =>
      rw [Bool.and_eq_true] at hPair
      have hv : v ≠ u := by
        rintro rfl
        rw [h.1] at hPair
        exact Bool.false_ne_true hPair.1
      have hw : w ≠ u := by
        rintro rfl
        rw [h.2] at hPair
        exact Bool.false_ne_true hPair.2
      simp [hv, hw, ih]
  | case4 v w rest _ ih =>
      by_cases hv : v = u
      · subst hv
        rw [List.count_cons_self, List.count_cons_self, ih]
      · simpa [hv] using ih

end SavedOrganizer.Frontend
