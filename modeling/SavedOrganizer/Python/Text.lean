import Mathlib.Data.List.DropRight

/-!
# Python strings

The `str` operations and the two regular expression idioms the scanner and the
categorizer use. A string is its list of code points.

`strip` removes, and `\s` matches, the characters for which `str.isspace` is true.
`lower` and case-insensitive matching are only ever compared with ASCII words in this
program. Besides the ASCII capitals three code points have an ASCII letter in their
lowercase form (`İ` U+0130, the Kelvin sign U+212A) or match one under `re.IGNORECASE`
(`ı` U+0131, `ſ` U+017F); every other code point is left as it is, which no comparison
with an ASCII word can see.
-/

namespace SavedOrganizer

abbrev Text := List Char

instance : LawfulBEq Text := inferInstance

/-- What holds of every element of a list is decided on the list, never on all characters. -/
instance (priority := 2000) decidableForallMem {α : Type} {p : α → Prop} [DecidablePred p]
    (l : List α) : Decidable (∀ a ∈ l, p a) :=
  List.decidableBAll p l

namespace Python

/-- `str.isspace` of one character. -/
def isSpace (c : Char) : Bool :=
  (9 ≤ c.toNat && c.toNat ≤ 13) || (28 ≤ c.toNat && c.toNat ≤ 32) || c.toNat == 0x85 ||
    c.toNat == 0xA0 || c.toNat == 0x1680 || (0x2000 ≤ c.toNat && c.toNat ≤ 0x200A) ||
    c.toNat == 0x2028 || c.toNat == 0x2029 || c.toNat == 0x202F || c.toNat == 0x205F ||
    c.toNat == 0x3000

/-- `str.strip()`. -/
def strip (t : Text) : Text :=
  ((t.dropWhile isSpace).reverse.dropWhile isSpace).reverse

/-- `str.lower()` of one character, as far as ASCII words can tell. -/
def lowerChar (c : Char) : Text :=
  if c.toNat = 0x130 then ['i', Char.ofNat 0x307]
  else if c.toNat = 0x212A then ['k']
  else [c.toLower]

/-- `str.lower()`. -/
def lower (t : Text) : Text := t.flatMap lowerChar

/-- `needle in hay`. -/
def contains (needle hay : Text) : Bool := hay.tails.any needle.isPrefixOf

/-- `hay.startswith(word)`. -/
def startsWith (word hay : Text) : Bool := word.isPrefixOf hay

/-- `hay.endswith(word)`. -/
def endsWith (word hay : Text) : Bool := word.isSuffixOf hay

/-- `t.split(sep)[0]`. -/
def splitFirst (sep : Char) (t : Text) : Text := t.takeWhile (· != sep)

/-- `t.split(sep)[-1]`. -/
def splitLast (sep : Char) (t : Text) : Text := (t.reverse.takeWhile (· != sep)).reverse

/-- `t or ""`. -/
def orEmpty (t : Option Text) : Text := t.getD []

/-- The truth value of an optional string. -/
def isTruthy (t : Option Text) : Bool := t.any (fun s => !s.isEmpty)

/-! ## Case-insensitive matching -/

/-- The pattern letter `p` (lower case) matches `c` under `re.IGNORECASE`. -/
def matchesChar (p c : Char) : Bool :=
  c.toLower == p || (p == 'i' && (c.toNat == 0x130 || c.toNat == 0x131)) ||
    (p == 's' && c.toNat == 0x17F) || (p == 'k' && c.toNat == 0x212A)

/-- The word `w` (lower case) matches at the start of the text. -/
def matchesWord : Text → Text → Bool
  | [], _ => true
  | _ :: _, [] => false
  | p :: w, c :: t => matchesChar p c && matchesWord w t

/-! ## Lower case -/

theorem toLower_eq_or (c : Char) : c.toLower = c ∨ 97 ≤ c.toLower.toNat := by
  unfold Char.toLower
  split
  · rename_i hUpper
    have hLow : 65 ≤ c.val.toNat := hUpper.1
    have hHigh : c.val.toNat ≤ 90 := hUpper.2
    have hSum : (c.val + 32).toNat = c.val.toNat + 32 := by
      have hOffset : (32 : UInt32).toNat = 32 := rfl
      rw [UInt32.toNat_add, hOffset]
      exact Nat.mod_eq_of_lt (by omega)
    refine Or.inr ?_
    show 97 ≤ (c.val + 32).toNat
    omega
  · exact Or.inl rfl

theorem toLower_eq_self {c : Char} (h : c.toNat < 65 ∨ 90 < c.toNat) : c.toLower = c := by
  unfold Char.toLower
  split
  · rename_i hUpper
    have hLow : 65 ≤ c.toNat := hUpper.1
    have hHigh : c.toNat ≤ 90 := hUpper.2
    omega
  · rfl

/-! ## Stripping -/

theorem dropWhile_eq_self {α : Type} {p : α → Bool} {t : List α} (h : ∀ c ∈ t, p c = false) :
    t.dropWhile p = t := by
  cases t with
  | nil => rfl
  | cons c t =>
      rw [List.dropWhile_cons, h c List.mem_cons_self]
      rfl

/-- `strip` leaves a text without white space alone. -/
theorem strip_eq_self {t : Text} (h : ∀ c ∈ t, isSpace c = false) : strip t = t := by
  have hReverse : t.reverse.dropWhile isSpace = t.reverse :=
    dropWhile_eq_self fun c hc => h c (List.mem_reverse.mp hc)
  rw [strip, dropWhile_eq_self h, hReverse, List.reverse_reverse]

theorem strip_strip (t : Text) : strip (strip t) = strip t := by
  have hStrip (l : Text) : strip l = (l.dropWhile isSpace).rdropWhile isSpace := rfl
  -- The first character that is left, if any, is the one `dropWhile` has stopped at.
  have hHead : (strip t).dropWhile isSpace = strip t := by
    obtain ⟨rest, hRest⟩ : strip t <+: t.dropWhile isSpace := List.rdropWhile_prefix _ _
    cases hText : strip t with
    | nil => rfl
    | cons c text =>
        rw [hText, List.cons_append] at hRest
        have hc : isSpace c = false := by
          have hSome : t.dropWhile isSpace ≠ [] := by
            rw [← hRest]
            exact List.cons_ne_nil _ _
          have hFirst := List.head_dropWhile_not isSpace hSome
          simpa only [← hRest, List.head_cons] using hFirst
        rw [List.dropWhile_cons_of_neg (by simp [hc])]
  rw [hStrip (strip t), hHead, hStrip t, List.rdropWhile_idempotent]

end Python

end SavedOrganizer
