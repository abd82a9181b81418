import Mathlib.Data.List.Basic

/-!
# `application/x-www-form-urlencoded`

Pairs of texts are written as `name=value`, joined by `&`. The bytes of a text are written one by
one: some stand for themselves, a space is a plus sign, and every other byte is a percent sign and
two digits. The reader puts spaces for plus signs, collects the bytes of a run of ASCII characters
and decodes them, so that characters that are not ASCII stay where they are.

`utf8` and `decode` stand for the two directions of an encoding of texts. What is written is read
back whenever `decode` undoes `utf8` (`parse_serialize`).
-/

namespace FormUrlencoded

/-! ## Writing -/

def hexDigit (n : Nat) : Char := if n < 10 then Char.ofNat (48 + n) else Char.ofNat (55 + n)

/-- The bytes that stand for themselves: letters, digits, `*`, `-`, `.` and `_`. -/
def plain (n : Nat) : Bool :=
  (48 ≤ n && n ≤ 57) || (65 ≤ n && n ≤ 90) || (97 ≤ n && n ≤ 122) || n == 42 || n == 45 ||
    n == 46 || n == 95

def encodeByte (b : UInt8) : List Char :=
  if b.toNat = 32 then ['+']
  else if plain b.toNat then [Char.ofNat b.toNat]
  else ['%', hexDigit (b.toNat / 16), hexDigit (b.toNat % 16)]

def encode (bytes : List UInt8) : List Char := bytes.flatMap encodeByte

def serialize (utf8 : List Char → List UInt8) (pairs : List (List Char × List Char)) : List Char :=
  List.intercalate ['&'] (pairs.map fun p => encode (utf8 p.1) ++ '=' :: encode (utf8 p.2))

/-! ## Reading -/

def hexValue (c : Char) : Option Nat :=
  let n := c.toNat
  if 48 ≤ n ∧ n ≤ 57 then some (n - 48)
  else if 65 ≤ n ∧ n ≤ 70 then some (n - 55)
  else if 97 ≤ n ∧ n ≤ 102 then some (n - 87)
  else none

/-- The byte of two digits. -/
def hexByte (high low : Char) : Option UInt8 :=
  (hexValue high).bind fun m => (hexValue low).map fun n => UInt8.ofNat (16 * m + n)

/-- A percent sign without two digits after it stands for itself. -/
def unquoteFrom (decode : List UInt8 → List Char) (run : List UInt8) : List Char → List Char
  | [] => decode run
  | '%' :: high :: low :: rest =>
      match hexByte high low with
      | some b => unquoteFrom decode (run ++ [b]) rest
      | none => unquoteFrom decode (run ++ [37]) (high :: low :: rest)
  | c :: rest =>
      if c.toNat < 128 then unquoteFrom decode (run ++ [UInt8.ofNat c.toNat]) rest
      else decode run ++ c :: unquoteFrom decode [] rest

def unplus (t : List Char) : List Char := t.map fun c => if c = '+' then ' ' else c

def readValue (decode : List UInt8 → List Char) (t : List Char) : List Char :=
  unquoteFrom decode [] (unplus t)

/-- The text before the first `=` and the one after it. -/
def parsePair (decode : List UInt8 → List Char) (t : List Char) : List Char × List Char :=
  (readValue decode (t.takeWhile (· ≠ '=')), readValue decode ((t.dropWhile (· ≠ '=')).drop 1))

def parse (decode : List UInt8 → List Char) (query : List Char) : List (List Char × List Char) :=
  ((query.splitOn '&').filter fun t => !t.isEmpty).map (parsePair decode)

/-! ## What is written is read back -/

section RoundTrip

variable {decode : List UInt8 → List Char} {utf8 : List Char → List UInt8} {run : List UInt8}
  {b : UInt8} {c : Char} {rest : List Char}

theorem hexValue_hexDigit : ∀ n < 16, hexValue (hexDigit n) = some n := by decide

theorem hexDigit_ascii : ∀ n < 16, (hexDigit n).toNat < 128 ∧ hexDigit n ≠ '+' := by decide

theorem plain_lt {n : Nat} (h : plain n = true) : n < 128 := by
  simp only [plain, Bool.or_eq_true, Bool.and_eq_true, decide_eq_true_eq, beq_iff_eq] at h
  omega

theorem plain_char : ∀ n < 128, plain n = true →
    (Char.ofNat n).toNat = n ∧ Char.ofNat n ≠ '+' ∧ Char.ofNat n ≠ '%' := by decide +kernel

theorem plain_ascii {n : Nat} (h : plain n = true) :
    (Char.ofNat n).toNat = n ∧ n < 128 ∧ Char.ofNat n ≠ '+' ∧ Char.ofNat n ≠ '%' := by
  obtain ⟨hNat, hSigns⟩ := plain_char n (plain_lt h) h
  exact ⟨hNat, plain_lt h, hSigns⟩

theorem digits_lt (b : UInt8) : b.toNat / 16 < 16 ∧ b.toNat % 16 < 16 := by
  have hByte := UInt8.toNat_lt b
  omega

theorem hexDigit_separates : ∀ n < 16, hexDigit n ≠ '&' ∧ hexDigit n ≠ '=' := by decide

/-- What separates pairs, names and values is written nowhere else. -/
theorem encodeByte_separates (b : UInt8) : ∀ c ∈ encodeByte b, c ≠ '&' ∧ c ≠ '=' := by
  intro c hc
  unfold encodeByte at hc
  split at hc
  · obtain rfl := List.mem_singleton.mp hc
    decide
  · split at hc
    · rename_i hPlain
      obtain rfl := List.mem_singleton.mp hc
      have hNat := (plain_ascii hPlain).1
      constructor
      · intro hEq
        rw [show b.toNat = 38 from hNat.symm.trans (congrArg Char.toNat hEq)] at hPlain
        cases hPlain
      · intro hEq
        rw [show b.toNat = 61 from hNat.symm.trans (congrArg Char.toNat hEq)] at hPlain
        cases hPlain
    · obtain ⟨hHigh, hLow⟩ := digits_lt b
      rcases List.mem_cons.mp hc with rfl | hDigit
      · decide
      · rcases List.mem_pair.mp hDigit with rfl | rfl
        · exact hexDigit_separates _ hHigh
        · exact hexDigit_separates _ hLow

theorem hexByte_digits (b : UInt8) :
    hexByte (hexDigit (b.toNat / 16)) (hexDigit (b.toNat % 16)) = some b := by
  rw [hexByte, hexValue_hexDigit _ (digits_lt b).1, hexValue_hexDigit _ (digits_lt b).2,
    Option.bind_some, Option.map_some, Nat.div_add_mod, UInt8.ofNat_toNat]

theorem unquoteFrom_self (h : c.toNat < 128) (hPercent : c ≠ '%') :
    unquoteFrom decode run (c :: rest) = unquoteFrom decode (run ++ [UInt8.ofNat c.toNat]) rest := by
  rw [unquoteFrom.eq_def]
  split
  · rename_i hNil
    cases hNil
  · rename_i hCons
    exact absurd (List.cons.inj hCons).1 hPercent
  · rename_i hCons
    obtain ⟨rfl, rfl⟩ := List.cons.inj hCons
    exact if_pos h

theorem unquoteFrom_hex (b : UInt8) :
    unquoteFrom decode run ('%' :: hexDigit (b.toNat / 16) :: hexDigit (b.toNat % 16) :: rest) =
      unquoteFrom decode (run ++ [b]) rest := by
  rw [unquoteFrom, hexByte_digits]

/-- A byte that was written is the next one of the run. -/
theorem unquoteFrom_byte (b : UInt8) :
    unquoteFrom decode run (unplus (encodeByte b) ++ rest) =
      unquoteFrom decode (run ++ [b]) rest := by
  unfold encodeByte
  split
  · rename_i hSpace
    have hByte : b = 32 := UInt8.toNat_inj.mp hSpace
    subst hByte
    exact unquoteFrom_self (by decide) (by decide)
  · split
    · rename_i hPlain
      obtain ⟨hNat, hAscii, hPlus, hPercent⟩ := plain_ascii hPlain
      rw [show unplus [Char.ofNat b.toNat] = [Char.ofNat b.toNat] by
        rw [unplus, List.map_singleton, if_neg hPlus], List.singleton_append,
        unquoteFrom_self (hNat.symm ▸ hAscii) hPercent, hNat, UInt8.ofNat_toNat]
    · have hHigh := (hexDigit_ascii _ (digits_lt b).1).2
      have hLow := (hexDigit_ascii _ (digits_lt b).2).2
      have hUnplus : unplus ['%', hexDigit (b.toNat / 16), hexDigit (b.toNat % 16)] =
          ['%', hexDigit (b.toNat / 16), hexDigit (b.toNat % 16)] := by
        simp only [unplus, List.map_cons, List.map_nil, if_neg hHigh, if_neg hLow]
        rfl
      rw [hUnplus]
      exact unquoteFrom_hex b

theorem unquoteFrom_encode (bytes : List UInt8) :
    unquoteFrom decode run (unplus (encode bytes)) = decode (run ++ bytes) := by
  induction bytes generalizing run with
  | nil => rw [List.append_nil, encode, List.flatMap_nil, unplus, List.map_nil, unquoteFrom.eq_def]
  | cons b bytes ih =>
      rw [encode, List.flatMap_cons, unplus, List.map_append]
      rw [show (encodeByte b).map _ = unplus (encodeByte b) from rfl,
        show (bytes.flatMap encodeByte).map _ = unplus (encode bytes) from rfl, unquoteFrom_byte, ih,
        List.append_assoc, List.singleton_append]

theorem readValue_encode (bytes : List UInt8) : readValue decode (encode bytes) = decode bytes :=
  unquoteFrom_encode bytes

theorem encode_separates (bytes : List UInt8) : ∀ c ∈ encode bytes, c ≠ '&' ∧ c ≠ '=' := by
  intro c hc
  obtain ⟨b, -, hByte⟩ := List.mem_flatMap.mp hc
  exact encodeByte_separates b c hByte

theorem parsePair_encode (name value : List UInt8) :
    parsePair decode (encode name ++ '=' :: encode value) = (decode name, decode value) := by
  have hName : ∀ c ∈ encode name, decide (c ≠ '=') = true :=
    fun c hc => decide_eq_true (encode_separates name c hc).2
  rw [parsePair, List.takeWhile_append_of_pos hName, List.dropWhile_append_of_pos hName,
    List.takeWhile_cons_of_neg (by simp), List.dropWhile_cons_of_neg (by simp), List.append_nil,
    List.drop_one, List.tail_cons, readValue_encode, readValue_encode]

/-- Every list of pairs is read as it was written. -/
theorem parse_serialize (hDecode : ∀ t, decode (utf8 t) = t) (pairs : List (List Char × List Char)) :
    parse decode (serialize utf8 pairs) = pairs := by
  let pieces := pairs.map fun p => encode (utf8 p.1) ++ '=' :: encode (utf8 p.2)
  have hRead : pieces.map (parsePair decode) = pairs := by
    rw [List.map_map]
    refine (List.map_congr_left fun p _ => ?_).trans (List.map_id pairs)
    rw [Function.comp_apply, parsePair_encode, hDecode, hDecode]
    rfl
  have hSeparates : ∀ piece ∈ pieces, '&' ∉ piece := by
    intro piece hPiece hMem
    obtain ⟨p, -, rfl⟩ := List.mem_map.mp hPiece
    rcases List.mem_append.mp hMem with hName | hValue
    · exact (encode_separates _ _ hName).1 rfl
    · rcases List.mem_cons.mp hValue with hEq | hValue
      · exact absurd hEq (by decide)
      · exact (encode_separates _ _ hValue).1 rfl
  have hFilled : pieces.filter (fun t => !t.isEmpty) = pieces := by
    refine List.filter_eq_self.mpr fun piece hPiece => ?_
    obtain ⟨p, -, rfl⟩ := List.mem_map.mp hPiece
    simp
  cases pairs with
  | nil => rfl
  | cons p pairs =>
      rw [parse, serialize, List.splitOn_intercalate '&' hSeparates (List.cons_ne_nil _ _)]
      exact (congrArg (List.map (parsePair decode)) hFilled).trans hRead

end RoundTrip

end FormUrlencoded
