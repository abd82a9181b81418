import Mathlib.Data.List.Induction
import Mathlib.Data.List.TakeWhile
import SavedOrganizer.Frontend.JavaScript
import SavedOrganizer.Library.Rounding

/-!
# The message that is dragged

`setDraggedMessageId` writes the id of a message into the data of a drag, under a type of its own
and as `text/plain`. `getDraggedMessageId` takes the first of the two that names a number. It reads
them with `Number.parseInt`, which skips white space and stops at the first character that is no
digit, so that a text that only begins with a number names a message as well.

`dragged_id_spelled_iff` says for which data the id that is read is spelled there.
-/

namespace SavedOrganizer.Frontend

open Rounding

/-! ## Numbers in strings -/

/-- The first power of two above all numbers. -/
def numberBound : Nat := 2 ^ 1024

/-- The number nearest to an integer, ties to even, or none for `Infinity`. -/
def toNumber (n : Nat) : Option Nat :=
  let lastPlace := 2 ^ (n.log2 - 52)
  let rounded := roundHalfEven n lastPlace * lastPlace
  if rounded < numberBound then some rounded else none

def isDigit (u : UInt16) : Bool := unit '0' ≤ u && u ≤ unit '9'

/-- The integer that decimal digits stand for. -/
def digitsValue (digits : JsString) : Nat := digits.foldl (fun n u => 10 * n + (u.toNat - 48)) 0

/-- The decimal spelling of an integer. Below `10 ^ 21` it is that of a template literal. -/
def decimal (n : Nat) : JsString := (Nat.toDigits 10 n).map unit

/-- Whether a minus sign comes first, and the digits after white space and a sign. -/
def signedDigits (raw : JsString) : Bool × JsString :=
  match raw.dropWhile isSpace with
  | 0x2D :: rest => (true, rest.takeWhile isDigit)
  | 0x2B :: rest => (false, rest.takeWhile isDigit)
  | rest => (false, rest.takeWhile isDigit)

/-- A result of `Number.parseInt`. -/
inductive Number
  | nan
  | infinity (negative : Bool)
  | integer (n : Int)
  deriving DecidableEq, Repr

/-- `Number.parseInt(raw, 10)`. -/
def parseInt (raw : JsString) : Number :=
  let (negative, digits) := signedDigits raw
  if digits.isEmpty then .nan
  else match toNumber (digitsValue digits) with
  | none => .infinity negative
  | some n => .integer (if negative then -n else n)

/-! ## The data of a drag -/

def MESSAGE_DRAG_MIME : String := "application/x-saved-message-id"

def FALLBACK_MESSAGE_DRAG_MIME : String := "text/plain"

/-- The strings of a drag, by their type. -/
structure DataTransfer where
  items : List (String × JsString)

namespace DataTransfer

/-- `getData`: empty when there is no string of the type. -/
def getData (dataTransfer : DataTransfer) (format : String) : JsString :=
  ((dataTransfer.items.find? (·.1 == format)).map Prod.snd).getD []

/-- `setData`: a string of the same type is replaced. -/
def setData (dataTransfer : DataTransfer) (format : String) (data : JsString) : DataTransfer :=
  ⟨dataTransfer.items.filter (·.1 != format) ++ [(format, data)]⟩

theorem getData_setData (dataTransfer : DataTransfer) (format : String) (data : JsString) :
    (dataTransfer.setData format data).getData format = data := by
  have hNone : (dataTransfer.items.filter (·.1 != format)).find? (·.1 == format) = none := by
    rw [List.find?_eq_none]
    intro item hItem
    simpa using (List.mem_filter.mp hItem).2
  simp [getData, setData, List.find?_append, hNone]

theorem getData_setData_of_ne {format other : String} (h : other ≠ format)
    (dataTransfer : DataTransfer) (data : JsString) :
    (dataTransfer.setData format data).getData other = dataTransfer.getData other := by
  have hFilter : (dataTransfer.items.filter (·.1 != format)).find? (·.1 == other) =
      dataTransfer.items.find? (·.1 == other) := by
    have hSame : ∀ item : String × JsString,
        ((item.1 != format) = true ∧ (item.1 == other) = true) ↔ (item.1 == other) = true := by
      intro item
      by_cases hItem : item.1 = other
      · simp [hItem, h]
      · simp [hItem]
    simp only [List.find?_filter, hSame, Bool.decide_eq_true]
  have hLast : ([(format, data)].find? fun item => item.1 == other) = none := by
    simp [Ne.symm h]
  simp only [getData, setData, List.find?_append, hFilter, hLast, Option.or_none]

end DataTransfer

/-- `parseMessageId`. -/
def parseMessageId (raw : JsString) : Option Nat :=
  match parseInt raw with
  | .integer parsed => if parsed ≤ 0 then none else some parsed.toNat
  | _ => none

/-- `setDraggedMessageId`. -/
def setDraggedMessageId (dataTransfer : Option DataTransfer) (messageId : Nat) :
    Option DataTransfer :=
  dataTransfer.map fun dataTransfer =>
    (dataTransfer.setData MESSAGE_DRAG_MIME (decimal messageId)).setData
      FALLBACK_MESSAGE_DRAG_MIME (decimal messageId)

/-- `getDraggedMessageId`. -/
def getDraggedMessageId : Option DataTransfer → Option Nat
  | none => none
  | some dataTransfer =>
      match parseMessageId (dataTransfer.getData MESSAGE_DRAG_MIME) with
      | some primary => some primary
      | none => parseMessageId (dataTransfer.getData FALLBACK_MESSAGE_DRAG_MIME)

/-! ## Doubles -/

theorem two_pow_53_le_numberBound : 2 ^ 53 ≤ numberBound := by
  rw [numberBound]
  apply Nat.pow_le_pow_right Nat.two_pos
  omega

theorem toNumber_exact {n : Nat} (h : n < 2 ^ 53) : toNumber n = some n := by
  have hLog : n.log2 - 52 = 0 := by
    by_cases hZero : n = 0
    · simp [hZero]
    · have hBelow : n.log2 < 53 := (Nat.log2_lt hZero).mpr h
      omega
  have hRounded : roundHalfEven n 1 = n := by
    rw [roundHalfEven_down (by omega), Nat.div_one]
  have hFinite : n < numberBound := Nat.lt_of_lt_of_le h two_pow_53_le_numberBound
  simp only [toNumber, hLog, Nat.pow_zero, hRounded, Nat.mul_one, if_pos hFinite]

theorem toNumber_pos {n m : Nat} (h : toNumber n = some m) : 0 < m ↔ 0 < n := by
  by_cases hZero : n = 0
  · rw [hZero, toNumber_exact (by decide)] at h
    obtain rfl := Option.some.inj h
    rw [hZero]
  · have hPlace : 2 ^ (n.log2 - 52) ≤ n :=
      le_trans (Nat.pow_le_pow_right (by decide) (Nat.sub_le _ _)) (Nat.log2_self_le hZero)
    have hRounded : 0 < roundHalfEven n (2 ^ (n.log2 - 52)) :=
      Nat.lt_of_lt_of_le (Nat.div_pos hPlace (Nat.two_pow_pos _)) (roundHalfEven_ge _ _)
    have hValue : 0 < m := by
      unfold toNumber at h
      dsimp only at h
      split at h
      · obtain rfl := Option.some.inj h
        exact Nat.mul_pos hRounded (Nat.two_pow_pos _)
      · cases h
    exact iff_of_true hValue (Nat.pos_of_ne_zero hZero)

/-- An integer that its last place divides is a number. -/
theorem toNumber_eq_self {n : Nat} (hPlace : 2 ^ (n.log2 - 52) ∣ n) (hFinite : n < numberBound) :
    toNumber n = some n := by
  have hRounded : roundHalfEven n (2 ^ (n.log2 - 52)) = n / 2 ^ (n.log2 - 52) := by
    apply roundHalfEven_down
    rw [Nat.mod_eq_zero_of_dvd hPlace]
    exact Nat.two_pow_pos _
  simp only [toNumber, hRounded, Nat.div_mul_cancel hPlace, if_pos hFinite]

/-- A number is the number nearest to itself. -/
theorem toNumber_idem {n m : Nat} (h : toNumber n = some m) : toNumber m = some m := by
  unfold toNumber at h
  dsimp only at h
  split at h
  · rename_i hFinite
    obtain rfl := Option.some.inj h
    refine toNumber_eq_self ?_ hFinite
    generalize hExponent : n.log2 - 52 = e
    have hQuotient : n / 2 ^ e < 2 ^ 53 := by
      rw [Nat.div_lt_iff_lt_mul (Nat.two_pow_pos _), ← Nat.pow_add]
      exact Nat.lt_of_lt_of_le Nat.lt_log2_self
        (Nat.pow_le_pow_right Nat.two_pos (by omega))
    have hMantissa : roundHalfEven n (2 ^ e) ≤ 2 ^ 53 :=
      le_trans (roundHalfEven_le _ _) hQuotient
    generalize roundHalfEven n (2 ^ e) = mantissa at hMantissa
    by_cases hZero : mantissa = 0
    · simp [hZero]
    by_cases hTop : mantissa = 2 ^ 53
    · -- rounded up to the next power of two
      have hPower : mantissa * 2 ^ e = 2 ^ (53 + e) := by rw [hTop, ← Nat.pow_add]
      rw [hPower, Nat.log2_two_pow]
      exact Nat.pow_dvd_pow 2 (by omega)
    · have hNonzero : mantissa * 2 ^ e ≠ 0 := Nat.mul_ne_zero hZero (Nat.two_pow_pos _).ne'
      have hLog : (mantissa * 2 ^ e).log2 < 53 + e := by
        rw [Nat.log2_lt hNonzero, Nat.pow_add]
        exact Nat.mul_lt_mul_of_pos_right (by omega) (Nat.two_pow_pos _)
      exact (Nat.pow_dvd_pow 2 (by omega)).trans (Nat.dvd_mul_left _ _)
  · cases h

/-! ## Digits -/

theorem isDigit_iff {u : UInt16} : isDigit u = true ↔ 48 ≤ u.toNat ∧ u.toNat ≤ 57 := by
  simp only [isDigit, Bool.and_eq_true, decide_eq_true_eq, UInt16.le_iff_toNat_le]
  exact Iff.rfl

theorem isSpace_of_isDigit {u : UInt16} (h : isDigit u = true) : isSpace u = false := by
  obtain ⟨hLow, hHigh⟩ := isDigit_iff.mp h
  simp only [isSpace, Bool.or_eq_false_iff, Bool.and_eq_false_iff, beq_eq_false_iff_ne,
    decide_eq_false_iff_not]
  omega

theorem digitsValue_concat (digits : JsString) (u : UInt16) :
    digitsValue (digits ++ [u]) = 10 * digitsValue digits + (u.toNat - 48) := by
  simp [digitsValue, List.foldl_append]

/-- A digit is spelled by itself. -/
theorem decimal_digit {u : UInt16} (h : isDigit u = true) : decimal (u.toNat - 48) = [u] := by
  obtain ⟨hLow, hHigh⟩ := isDigit_iff.mp h
  have hDigit : u.toNat - 48 < 10 := by omega
  rw [decimal, Nat.toDigits_of_lt_base hDigit, List.map_singleton, unit,
    Nat.toNat_digitChar_of_lt_ten hDigit]
  have hUnit : 48 + (u.toNat - 48) = u.toNat := by omega
  rw [hUnit, UInt16.ofNat_toNat]

theorem decimal_append {n d : Nat} (hn : 0 < n) (hd : d < 10) :
    decimal (10 * n + d) = decimal n ++ decimal d := by
  rw [decimal, decimal, decimal, ← Nat.toDigits_append_toDigits (by decide) hn hd, List.map_append]

/-- The last digit of an integer, and those before it. -/
theorem decimal_cases (n : Nat) :
    ∃ u, isDigit u = true ∧ u.toNat - 48 = n % 10 ∧
      decimal n = (if n < 10 then [] else decimal (n / 10)) ++ [u] := by
  have hMod : n % 10 < 10 := Nat.mod_lt n (by decide)
  have hUnit : (UInt16.ofNat (48 + n % 10)).toNat = 48 + n % 10 := by
    rw [UInt16.toNat_ofNat']
    omega
  have hDigit : isDigit (UInt16.ofNat (48 + n % 10)) = true := by
    rw [isDigit_iff, hUnit]
    omega
  have hValue : (UInt16.ofNat (48 + n % 10)).toNat - 48 = n % 10 := by omega
  refine ⟨_, hDigit, hValue, ?_⟩
  have hLast := decimal_digit hDigit
  rw [hValue] at hLast
  by_cases hSmall : n < 10
  · rw [if_pos hSmall, List.nil_append, ← hLast, Nat.mod_eq_of_lt hSmall]
  · rw [if_neg hSmall, ← hLast, ← decimal_append (by omega) hMod, Nat.div_add_mod]

theorem decimal_isDigit (n : Nat) : ∀ u ∈ decimal n, isDigit u = true := by
  induction n using Nat.strong_induction_on with
  | _ n ih =>
    obtain ⟨last, hLast, -, hDecimal⟩ := decimal_cases n
    intro u hu
    rw [hDecimal, List.mem_append, List.mem_singleton] at hu
    rcases hu with hu | rfl
    · by_cases hSmall : n < 10
      · simp [hSmall] at hu
      · rw [if_neg hSmall] at hu
        exact ih (n / 10) (by omega) u hu
    · exact hLast

theorem digitsValue_decimal (n : Nat) : digitsValue (decimal n) = n := by
  induction n using Nat.strong_induction_on with
  | _ n ih =>
    obtain ⟨last, -, hLast, hDecimal⟩ := decimal_cases n
    rw [hDecimal, digitsValue_concat, hLast]
    by_cases hSmall : n < 10
    · rw [if_pos hSmall]
      show 10 * 0 + n % 10 = n
      omega
    · rw [if_neg hSmall, ih (n / 10) (by omega)]
      omega

/-- The spelling of a positive integer does not start with a zero. -/
theorem decimal_head {n : Nat} (hn : 0 < n) : (decimal n).head? ≠ some (unit '0') := by
  induction n using Nat.strong_induction_on with
  | _ n ih =>
    obtain ⟨last, hDigit, hLast, hDecimal⟩ := decimal_cases n
    rw [hDecimal]
    by_cases hSmall : n < 10
    · rw [if_pos hSmall]
      intro hHead
      obtain rfl : last = unit '0' := Option.some.inj hHead
      have hZero : n % 10 = 0 := hLast.symm
      omega
    · have hRest := ih (n / 10) (by omega) (by omega)
      rw [if_neg hSmall]
      cases hFront : decimal (n / 10) with
      | nil =>
          have hValue := digitsValue_decimal (n / 10)
          rw [hFront] at hValue
          have hZero : 0 = n / 10 := hValue
          omega
      | cons u rest =>
          rw [hFront] at hRest
          exact hRest

/-- Digits that do not start with a zero stand for a positive integer and are its spelling. -/
theorem decimal_digitsValue {digits : JsString} (hNil : digits ≠ [])
    (hDigits : ∀ u ∈ digits, isDigit u = true) (hHead : digits.head? ≠ some (unit '0')) :
    0 < digitsValue digits ∧ decimal (digitsValue digits) = digits := by
  induction digits using List.reverseRecOn with
  | nil => exact absurd rfl hNil
  | append_singleton front u ih =>
    have hu : isDigit u = true := hDigits u (List.mem_append_right _ List.mem_cons_self)
    obtain ⟨hLow, hHigh⟩ := isDigit_iff.mp hu
    rw [digitsValue_concat]
    by_cases hFront : front = []
    · subst hFront
      have hNot : u ≠ unit '0' := fun hZero => hHead (congrArg some hZero)
      have hPos : 0 < u.toNat - 48 := by
        have hNat : u.toNat ≠ 48 := fun h48 => hNot (UInt16.toNat_inj.mp h48)
        omega
      have hValue : 10 * digitsValue [] + (u.toNat - 48) = u.toNat - 48 := by
        show 10 * 0 + (u.toNat - 48) = u.toNat - 48
        omega
      rw [hValue, decimal_digit hu]
      exact ⟨hPos, rfl⟩
    · rw [List.head?_append_of_ne_nil _ hFront] at hHead
      obtain ⟨hPos, hSpelled⟩ :=
        ih hFront (fun v hv => hDigits v (List.mem_append_left _ hv)) hHead
      refine ⟨by omega, ?_⟩
      rw [decimal_append hPos (by omega), hSpelled, decimal_digit hu]

/-! ## Reading a string -/

/-- A string that consists of digits is read whole. -/
theorem signedDigits_digits {raw : JsString} (h : ∀ u ∈ raw, isDigit u = true) :
    signedDigits raw = (false, raw) := by
  have hSpaces : raw.dropWhile isSpace = raw :=
    Python.dropWhile_eq_self fun u hu => isSpace_of_isDigit (h u hu)
  have hTaken : raw.takeWhile isDigit = raw := List.takeWhile_eq_self_iff.mpr h
  unfold signedDigits
  rw [hSpaces]
  split
  · exact absurd (h 0x2D List.mem_cons_self) (by decide)
  · exact absurd (h 0x2B List.mem_cons_self) (by decide)
  · rw [hTaken]

/-- A string names the number of its leading digits, if that is positive and finite. -/
theorem parseMessageId_eq_some {raw : JsString} {n : Nat} :
    parseMessageId raw = some n ↔
      (signedDigits raw).1 = false ∧ toNumber (digitsValue (signedDigits raw).2) = some n ∧ 0 < n := by
  unfold parseMessageId parseInt
  obtain ⟨negative, digits⟩ := signedDigits raw
  dsimp only
  by_cases hEmpty : digits.isEmpty = true
  · obtain rfl := List.isEmpty_iff.mp hEmpty
    have hZero : toNumber (digitsValue []) = some 0 := toNumber_exact (by decide)
    simp only [List.isEmpty_nil, if_true, hZero, Option.some.injEq, reduceCtorEq, false_iff]
    rintro ⟨-, rfl, hPos⟩
    omega
  · rw [if_neg hEmpty]
    cases hNumber : toNumber (digitsValue digits) with
    | none => simp
    | some m =>
        cases negative with
        | true =>
            have hNot : -(m : Int) ≤ 0 := by omega
            simp [hNot]
        | false =>
            by_cases hZero : m = 0
            · subst hZero
              simp only [Bool.false_eq_true, if_false, Option.some.injEq, true_and]
              constructor
              · intro h
                cases h
              · rintro ⟨rfl, hPos⟩
                omega
            · have hNot : ¬ (m : Int) ≤ 0 := by omega
              simp only [Bool.false_eq_true, if_false, hNot, Int.toNat_natCast, Option.some.injEq,
                true_and]
              constructor
              · rintro rfl
                exact ⟨rfl, by omega⟩
              · exact fun h => h.1

/-- The string begins, after white space and a plus sign, with a positive number. -/
def beginsPositive (raw : JsString) : Bool :=
  !(signedDigits raw).1 && 0 < digitsValue (signedDigits raw).2 &&
    (toNumber (digitsValue (signedDigits raw).2)).isSome

theorem beginsPositive_iff {raw : JsString} :
    beginsPositive raw = true ↔ ∃ n, parseMessageId raw = some n := by
  simp only [beginsPositive, Bool.and_eq_true, Bool.not_eq_true', decide_eq_true_eq,
    Option.isSome_iff_exists, parseMessageId_eq_some]
  constructor
  · rintro ⟨⟨hSign, hPos⟩, n, hNumber⟩
    exact ⟨n, hSign, hNumber, (toNumber_pos hNumber).mpr hPos⟩
  · rintro ⟨n, hSign, hNumber, hPos⟩
    exact ⟨⟨hSign, (toNumber_pos hNumber).mp hPos⟩, n, hNumber⟩

/-- The string is the digits of a number, without a leading zero and nothing else. -/
structure IsSpelling (raw : JsString) : Prop where
  nonempty : raw ≠ []
  digits : ∀ u ∈ raw, isDigit u = true
  leading : raw.head? ≠ some (unit '0')
  number : toNumber (digitsValue raw) = some (digitsValue raw)

/-- A spelling is read as the number it spells. -/
theorem IsSpelling.parse {raw : JsString} (h : IsSpelling raw) :
    parseMessageId raw = some (digitsValue raw) ∧ decimal (digitsValue raw) = raw := by
  obtain ⟨hPos, hSpelled⟩ := decimal_digitsValue h.nonempty h.digits h.leading
  refine ⟨parseMessageId_eq_some.mpr ?_, hSpelled⟩
  rw [signedDigits_digits h.digits]
  exact ⟨rfl, h.number, hPos⟩

/-- What `decimal` writes is read back if the number is exact. -/
theorem parseMessageId_decimal {n : Nat} (hPos : 0 < n) (hNumber : toNumber n = some n) :
    parseMessageId (decimal n) = some n := by
  rw [parseMessageId_eq_some, signedDigits_digits (decimal_isDigit n), digitsValue_decimal]
  exact ⟨rfl, hNumber, hPos⟩

theorem isSpelling_decimal {n : Nat} (hPos : 0 < n) (hNumber : toNumber n = some n) :
    IsSpelling (decimal n) := by
  refine ⟨?_, decimal_isDigit n, decimal_head hPos, ?_⟩
  · simp [decimal]
  · rw [digitsValue_decimal]
    exact hNumber

/-- A string that is read as a number is the spelling of it exactly when it is one at all. -/
theorem eq_decimal_iff {raw : JsString} {n : Nat} (h : parseMessageId raw = some n) :
    raw = decimal n ↔ IsSpelling raw := by
  constructor
  · intro hRaw
    obtain ⟨-, hNumber, hPos⟩ := parseMessageId_eq_some.mp h
    rw [hRaw, signedDigits_digits (decimal_isDigit n), digitsValue_decimal] at hNumber
    rw [hRaw]
    exact isSpelling_decimal hPos hNumber
  · intro hSpelling
    obtain ⟨hParse, hSpelled⟩ := hSpelling.parse
    obtain rfl := Option.some.inj (h.symm.trans hParse)
    exact hSpelled.symm

/-! ## What is read -/

section Dragged

variable {dataTransfer : DataTransfer} {n : Nat}

/-- The id that is read is in the string of the own type, or in the plain text if that names no
number. -/
theorem getDraggedMessageId_eq_some :
    getDraggedMessageId (some dataTransfer) = some n ↔
      parseMessageId (dataTransfer.getData MESSAGE_DRAG_MIME) = some n ∨
        (beginsPositive (dataTransfer.getData MESSAGE_DRAG_MIME) = false ∧
          parseMessageId (dataTransfer.getData FALLBACK_MESSAGE_DRAG_MIME) = some n) := by
  unfold getDraggedMessageId
  dsimp only
  cases hCustom : parseMessageId (dataTransfer.getData MESSAGE_DRAG_MIME) with
  | none =>
      have hNot : beginsPositive (dataTransfer.getData MESSAGE_DRAG_MIME) = false := by
        rw [← Bool.not_eq_true, beginsPositive_iff, hCustom]
        simp
      simp [hNot]
  | some m =>
      have hBegins : beginsPositive (dataTransfer.getData MESSAGE_DRAG_MIME) = true :=
        beginsPositive_iff.mpr ⟨m, hCustom⟩
      simp [hBegins]

/-- What `setDraggedMessageId` writes is read back. -/
theorem getDraggedMessageId_set (dataTransfer : DataTransfer) (hPos : 0 < n) (hSafe : n < 2 ^ 53) :
    getDraggedMessageId (setDraggedMessageId (some dataTransfer) n) = some n := by
  have hTypes : MESSAGE_DRAG_MIME ≠ FALLBACK_MESSAGE_DRAG_MIME := by decide
  refine getDraggedMessageId_eq_some.mpr (Or.inl ?_)
  rw [DataTransfer.getData_setData_of_ne hTypes, DataTransfer.getData_setData]
  exact parseMessageId_decimal hPos (toNumber_exact hSafe)

end Dragged

/-- The string that is read is a spelling. If it is the one of the own type, it may also merely
begin with the number that the plain text spells. -/
def SpelledPayload (custom plain : JsString) : Prop :=
  if beginsPositive custom then
    IsSpelling custom ∨
      (IsSpelling plain ∧ toNumber (digitsValue (signedDigits custom).2) = some (digitsValue plain))
  else beginsPositive plain = true → IsSpelling plain

/-- Every id of a message is read back as it was written; and for any data, the id that is read is
the decimal spelling of one of the two strings exactly when the string it is read from is a
spelling. -/
theorem dragged_id_spelled_iff (dataTransfer : DataTransfer) :
    (∀ messageId, 0 < messageId → messageId < 2 ^ 53 →
      getDraggedMessageId (setDraggedMessageId (some dataTransfer) messageId) = some messageId) ∧
    ((∀ n, getDraggedMessageId (some dataTransfer) = some n →
        dataTransfer.getData MESSAGE_DRAG_MIME = decimal n ∨
          dataTransfer.getData FALLBACK_MESSAGE_DRAG_MIME = decimal n) ↔
      SpelledPayload (dataTransfer.getData MESSAGE_DRAG_MIME)
        (dataTransfer.getData FALLBACK_MESSAGE_DRAG_MIME)) := by
  refine ⟨fun messageId => getDraggedMessageId_set dataTransfer, ?_⟩
  generalize hCustom : dataTransfer.getData MESSAGE_DRAG_MIME = custom
  generalize hPlain : dataTransfer.getData FALLBACK_MESSAGE_DRAG_MIME = plain
  simp only [getDraggedMessageId_eq_some, hCustom, hPlain]
  unfold SpelledPayload
  by_cases hBegins : beginsPositive custom = true
  · -- the string of the own type is read
    obtain ⟨n, hParse⟩ := beginsPositive_iff.mp hBegins
    obtain ⟨-, hNumber, hPos⟩ := parseMessageId_eq_some.mp hParse
    have hRead : ∀ m, (parseMessageId custom = some m ∨
        (beginsPositive custom = false ∧ parseMessageId plain = some m)) ↔ m = n := by
      intro m
      simp [hBegins, hParse, eq_comm]
    simp only [hRead, forall_eq, if_pos hBegins, eq_decimal_iff hParse, hNumber,
      Option.some.injEq]
    refine or_congr_right ⟨?_, ?_⟩
    · rintro rfl
      exact ⟨isSpelling_decimal hPos (toNumber_idem hNumber), (digitsValue_decimal n).symm⟩
    · rintro ⟨hSpelling, rfl⟩
      exact hSpelling.parse.2.symm
  · -- the plain text is read
    have hNone : ∀ m, parseMessageId custom ≠ some m :=
      fun m hParse => hBegins (beginsPositive_iff.mpr ⟨m, hParse⟩)
    rw [Bool.not_eq_true] at hBegins
    simp only [hBegins, hNone, false_or, true_and, Bool.false_eq_true, if_false,
      beginsPositive_iff]
    constructor
    · rintro hSpelled ⟨n, hParse⟩
      refine (eq_decimal_iff hParse).mp ((hSpelled n hParse).resolve_left fun hCustomSpelled => ?_)
      obtain ⟨-, hNumber, hPos⟩ := parseMessageId_eq_some.mp hParse
      rw [hCustomSpelled] at hNone
      exact hNone n (parseMessageId_decimal hPos (toNumber_idem hNumber))
    · intro hSpelling n hParse
      exact Or.inr ((eq_decimal_iff hParse).mpr (hSpelling ⟨n, hParse⟩))

theorem dragged_id_spelled_42 :
    getDraggedMessageId (setDraggedMessageId (some ⟨[]⟩) 42) = some 42 :=
  (dragged_id_spelled_iff ⟨[]⟩).1 42 (by decide) (by decide)

/-- Text that is dragged from elsewhere. -/
def draggedText : DataTransfer := ⟨[("text/plain", js "12 apples")]⟩

/-- It names message 12, which neither string spells. -/
theorem dragged_text_names_message :
    getDraggedMessageId (some draggedText) = some 12 ∧
      draggedText.getData MESSAGE_DRAG_MIME ≠ decimal 12 ∧
      draggedText.getData FALLBACK_MESSAGE_DRAG_MIME ≠ decimal 12 := by
  refine ⟨?_, by decide +kernel, by decide +kernel⟩
  decide +kernel

end SavedOrganizer.Frontend
