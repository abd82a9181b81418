import Mathlib.Data.Fin.Basic
import Mathlib.Data.List.Basic

/-!
# Base64

The encoding of bytes in groups of three by groups of four digits, padded at the end, and two
decoders. Both read one character after the other and hold the bits of an unfinished group that no
byte has taken yet (`Group`). The lenient one skips what is neither a digit nor the pad and stops
where padding completes a group; the strict one refuses both.

An `Alphabet` may know more characters than it writes, so that one decoder reads several encodings.
-/

namespace Base64

/-- The digits that are written, and the characters that are read as digits. -/
structure Alphabet where
  digit : Fin 64 → Char
  value : Char → Option (Fin 64)
  value_digit : ∀ s, value (digit s) = some s
  value_pad : value '=' = none

def sextet (n : Nat) : Fin 64 := Fin.ofNat 64 n

theorem val_sextet {n : Nat} (h : n < 64) : (sextet n).val = n := Nat.mod_eq_of_lt h

/-- The bits of the digits so far that no byte has taken. -/
inductive Group
  | start
  | one (left : Nat)
  | two (left : Nat)
  | three (left : Nat)
  deriving DecidableEq, Repr

namespace Group

/-- The number of digits. -/
def size : Group → Nat
  | start => 0
  | one _ => 1
  | two _ => 2
  | three _ => 3

/-- The number of bits. -/
def bits : Group → Nat
  | start => 0
  | one _ => 6
  | two _ => 4
  | three _ => 2

/-- The byte that the next digit completes, and the group it leaves. -/
def push (s : Fin 64) : Group → List UInt8 × Group
  | start => ([], one s)
  | one left => ([UInt8.ofNat (left * 4 + s / 16)], two (s % 16))
  | two left => ([UInt8.ofNat (left * 16 + s / 4)], three (s % 4))
  | three left => ([UInt8.ofNat (left * 64 + s)], start)

/-- A digit brings six bits, and a byte takes eight. -/
theorem bits_push (s : Fin 64) (group : Group) :
    8 * (group.push s).1.length + (group.push s).2.bits = group.bits + 6 := by
  cases group <;> rfl

theorem size_push (s : Fin 64) (group : Group) :
    (group.push s).2.size % 4 = (group.size + 1) % 4 := by
  cases group <;> simp [push, size]

theorem size_lt (group : Group) : group.size < 4 := by
  cases group <;> simp [size]

theorem eq_start {group : Group} (h : group.size = 0) : group = start := by
  cases group with
  | start => rfl
  | one left => cases h
  | two left => cases h
  | three left => cases h

end Group

section Codec

variable (alphabet : Alphabet)

/-- The digit of the number. -/
def Alphabet.write (n : Nat) : Char := alphabet.digit (sextet n)

def encode : List UInt8 → List Char
  | [] => []
  | [a] => [alphabet.write (a.toNat / 4), alphabet.write (a.toNat % 4 * 16), '=', '=']
  | [a, b] =>
      [alphabet.write (a.toNat / 4), alphabet.write (a.toNat % 4 * 16 + b.toNat / 16),
        alphabet.write (b.toNat % 16 * 4), '=']
  | a :: b :: c :: rest =>
      alphabet.write (a.toNat / 4) :: alphabet.write (a.toNat % 4 * 16 + b.toNat / 16) ::
        alphabet.write (b.toNat % 16 * 4 + c.toNat / 64) :: alphabet.write (c.toNat % 64) ::
        encode rest

/-- The bytes that are still to come, from a group and the pads that have followed it. -/
def decodeFrom : Group → Nat → List Char → Option (List UInt8)
  | group, _, [] => if group = .start then some [] else none
  | group, pads, c :: rest =>
      if c = '=' then
        if group.size < 2 then decodeFrom group pads rest
        else if 4 ≤ group.size + (pads + 1) then some []
        else decodeFrom group (pads + 1) rest
      else match alphabet.value c with
        | none => decodeFrom group pads rest
        | some s => (decodeFrom (group.push s).2 0 rest).map ((group.push s).1 ++ ·)

/-- The lenient decoder. -/
def decode (t : List Char) : Option (List UInt8) := decodeFrom alphabet .start 0 t

/-- The same without leniency. `padding` is set by the first pad. -/
def decodeStrictFrom : Group → Nat → Bool → List Char → Option (List UInt8)
  | group, _, _, [] => if group = .start then some [] else none
  | group, pads, padding, c :: rest =>
      if c = '=' then
        if group.size < 2 then decodeStrictFrom group pads true rest
        else if 4 ≤ group.size + (pads + 1) then if rest = [] then some [] else none
        else decodeStrictFrom group (pads + 1) true rest
      else match alphabet.value c with
        | none => none
        | some s =>
            if padding then none
            else (decodeStrictFrom (group.push s).2 0 padding rest).map ((group.push s).1 ++ ·)

/-- The strict decoder. -/
def decodeStrict (t : List Char) : Option (List UInt8) :=
  if t.head? = some '=' then none else decodeStrictFrom alphabet .start 0 false t

end Codec

/-! ## What was encoded is decoded -/

section RoundTrip

variable {alphabet : Alphabet}

theorem Alphabet.write_ne_pad (n : Nat) : alphabet.write n ≠ '=' := by
  intro h
  have hValue := alphabet.value_digit (sextet n)
  rw [show alphabet.digit (sextet n) = '=' from h, alphabet.value_pad] at hValue
  cases hValue

/-- One digit of an encoding. -/
theorem decodeFrom_write (group : Group) (pads n : Nat) (rest : List Char) :
    decodeFrom alphabet group pads (alphabet.write n :: rest) =
      (decodeFrom alphabet (group.push (sextet n)).2 0 rest).map
        ((group.push (sextet n)).1 ++ ·) := by
  rw [decodeFrom, if_neg (alphabet.write_ne_pad n), Alphabet.write, alphabet.value_digit]

theorem byte_one (a b : UInt8) :
    UInt8.ofNat ((sextet (a.toNat / 4)).val * 4 +
      (sextet (a.toNat % 4 * 16 + b.toNat / 16)).val / 16) = a := by
  have ha := a.toNat_lt
  have hb := b.toNat_lt
  rw [val_sextet (by omega), val_sextet (by omega),
    show a.toNat / 4 * 4 + (a.toNat % 4 * 16 + b.toNat / 16) / 16 = a.toNat by omega,
    UInt8.ofNat_toNat]

theorem byte_two (a b c : UInt8) :
    UInt8.ofNat ((sextet (a.toNat % 4 * 16 + b.toNat / 16)).val % 16 * 16 +
      (sextet (b.toNat % 16 * 4 + c.toNat / 64)).val / 4) = b := by
  have ha := a.toNat_lt
  have hb := b.toNat_lt
  have hc := c.toNat_lt
  rw [val_sextet (by omega), val_sextet (by omega),
    show (a.toNat % 4 * 16 + b.toNat / 16) % 16 * 16 + (b.toNat % 16 * 4 + c.toNat / 64) / 4 =
      b.toNat by omega, UInt8.ofNat_toNat]

theorem byte_three (b c : UInt8) :
    UInt8.ofNat ((sextet (b.toNat % 16 * 4 + c.toNat / 64)).val % 4 * 64 +
      (sextet (c.toNat % 64)).val) = c := by
  have hb := b.toNat_lt
  have hc := c.toNat_lt
  rw [val_sextet (by omega), val_sextet (by omega),
    show (b.toNat % 16 * 4 + c.toNat / 64) % 4 * 64 + c.toNat % 64 = c.toNat by omega,
    UInt8.ofNat_toNat]

theorem decodeFrom_two_pads (left : Nat) (rest : List Char) :
    decodeFrom alphabet (.two left) 0 ('=' :: '=' :: rest) = some [] := rfl

theorem decodeFrom_one_pad (left : Nat) (rest : List Char) :
    decodeFrom alphabet (.three left) 0 ('=' :: rest) = some [] := rfl

theorem decodeFrom_encode (bytes : List UInt8) (pads : Nat) :
    decodeFrom alphabet .start pads (encode alphabet bytes) = some bytes := by
  induction bytes using encode.induct generalizing pads with
  | case1 => rfl
  | case2 a =>
      have hByte := byte_one a 0
      simp only [UInt8.toNat_zero, Nat.zero_div, Nat.add_zero] at hByte
      simp only [encode, decodeFrom_write, Group.push, decodeFrom_two_pads, Option.map_some, hByte]
      rfl
  | case3 a b =>
      have hTwo := byte_two a b 0
      simp only [UInt8.toNat_zero, Nat.zero_div, Nat.add_zero] at hTwo
      simp only [encode, decodeFrom_write, Group.push, decodeFrom_one_pad, Option.map_some,
        byte_one, hTwo]
      rfl
  | case4 a b c rest ih =>
      simp only [encode, decodeFrom_write, Group.push, ih, Option.map_some, byte_one, byte_two,
        byte_three]
      rfl

theorem decode_encode (bytes : List UInt8) :
    decode alphabet (encode alphabet bytes) = some bytes := decodeFrom_encode bytes 0

/-- What is decoded depends on the characters that are read, not on those that are written. -/
theorem decode_congr {other : Alphabet} (h : alphabet.value = other.value) (t : List Char) :
    decode alphabet t = decode other t := by
  have hFrom (group : Group) (pads : Nat) :
      decodeFrom alphabet group pads t = decodeFrom other group pads t := by
    induction t generalizing group pads with
    | nil => rfl
    | cons c rest ih => simp only [decodeFrom, h, ih]
  exact hFrom _ _

/-- The encoding consists of digits and pads. -/
theorem mem_encode {bytes : List UInt8} {c : Char} (h : c ∈ encode alphabet bytes) :
    (∃ s, c = alphabet.digit s) ∨ c = '=' := by
  induction bytes using encode.induct with
  | case1 => cases h
  | case2 a =>
      simp only [encode, List.mem_cons, List.not_mem_nil, or_false] at h
      rcases h with rfl | rfl | rfl | rfl
      · exact Or.inl ⟨_, rfl⟩
      · exact Or.inl ⟨_, rfl⟩
      · exact Or.inr rfl
      · exact Or.inr rfl
  | case3 a b =>
      simp only [encode, List.mem_cons, List.not_mem_nil, or_false] at h
      rcases h with rfl | rfl | rfl | rfl
      · exact Or.inl ⟨_, rfl⟩
      · exact Or.inl ⟨_, rfl⟩
      · exact Or.inl ⟨_, rfl⟩
      · exact Or.inr rfl
  | case4 a b c rest ih =>
      simp only [encode, List.mem_cons] at h
      rcases h with rfl | rfl | rfl | rfl | h
      · exact Or.inl ⟨_, rfl⟩
      · exact Or.inl ⟨_, rfl⟩
      · exact Or.inl ⟨_, rfl⟩
      · exact Or.inl ⟨_, rfl⟩
      · exact ih h

end RoundTrip

/-! ## Texts without padding -/

section Strict

variable {alphabet : Alphabet} {group : Group} {pads : Nat} {padding : Bool} {t : List Char}
  {bytes : List UInt8}

/-- The bytes have no more bits than the digits, and as many only if there is no pad. -/
theorem decodeStrictFrom_length (h : decodeStrictFrom alphabet group pads padding t = some bytes) :
    8 * bytes.length ≤ 6 * t.length + group.bits ∧
      (8 * bytes.length = 6 * t.length + group.bits → ∀ c ∈ t, (alphabet.value c).isSome) := by
  induction t generalizing group pads padding bytes with
  | nil =>
      unfold decodeStrictFrom at h
      split at h
      · cases h
        exact ⟨Nat.zero_le _, fun _ c hc => by cases hc⟩
      · cases h
  | cons c rest ih =>
      -- A pad takes a character and gives no byte.
      have hPad (hShort : 8 * bytes.length ≤ 6 * rest.length + group.bits) :
          8 * bytes.length ≤ 6 * (c :: rest).length + group.bits ∧
            (8 * bytes.length = 6 * (c :: rest).length + group.bits →
              ∀ c' ∈ c :: rest, (alphabet.value c').isSome) := by
        rw [List.length_cons]
        exact ⟨by omega, fun hEqual => by omega⟩
      unfold decodeStrictFrom at h
      split at h
      · split at h
        · exact hPad (ih h).1
        · split at h
          · split at h
            · cases h
              exact hPad (Nat.zero_le _)
            · cases h
          · exact hPad (ih h).1
      · split at h
        · cases h
        · rename_i s hValue
          split at h
          · cases h
          · obtain ⟨tail, hTail, rfl⟩ := Option.map_eq_some_iff.mp h
            obtain ⟨hLength, hDigits⟩ := ih hTail
            have hBits := Group.bits_push s group
            rw [List.length_append, List.length_cons]
            refine ⟨by omega, fun hEqual => List.forall_mem_cons.mpr ⟨?_, hDigits (by omega)⟩⟩
            rw [hValue]
            rfl

/-- What the strict decoder accepts, the lenient one reads as the same bytes. -/
theorem decodeFrom_of_strict (h : decodeStrictFrom alphabet group pads padding t = some bytes) :
    decodeFrom alphabet group pads t = some bytes := by
  induction t generalizing group pads padding bytes with
  | nil => exact h
  | cons c rest ih =>
      unfold decodeStrictFrom at h
      unfold decodeFrom
      split at h
      · rename_i hPad
        rw [if_pos hPad]
        split at h
        · rename_i hSize
          rw [if_pos hSize]
          exact ih h
        · rename_i hSize
          rw [if_neg hSize]
          split at h
          · rename_i hFull
            rw [if_pos hFull]
            split at h
            · exact h
            · cases h
          · rename_i hFull
            rw [if_neg hFull]
            exact ih h
      · rename_i hPad
        rw [if_neg hPad]
        split at h
        · cases h
        · split at h
          · cases h
          · obtain ⟨tail, hTail, rfl⟩ := Option.map_eq_some_iff.mp h
            rw [ih hTail]
            rfl

theorem decode_of_strict (h : decodeStrict alphabet t = some bytes) :
    decode alphabet t = some bytes := by
  unfold decodeStrict at h
  split at h
  · cases h
  · exact decodeFrom_of_strict h

theorem decodeStrictFrom_digits (hDigits : ∀ c ∈ t, (alphabet.value c).isSome)
    (hLength : (group.size + t.length) % 4 = 0) :
    ∃ bytes, decodeStrictFrom alphabet group pads false t = some bytes ∧
      8 * bytes.length = 6 * t.length + group.bits := by
  induction t generalizing group pads with
  | nil =>
      have hSize := group.size_lt
      obtain rfl := Group.eq_start (show group.size = 0 by rw [List.length_nil] at hLength; omega)
      exact ⟨[], rfl, rfl⟩
  | cons c rest ih =>
      obtain ⟨s, hValue⟩ := Option.isSome_iff_exists.mp (hDigits c List.mem_cons_self)
      have hNotPad : c ≠ '=' := by
        rintro rfl
        rw [alphabet.value_pad] at hValue
        cases hValue
      have hSize := Group.size_push s group
      rw [List.length_cons] at hLength
      obtain ⟨tail, hTail, hBytes⟩ := @ih (group.push s).2 0
        (fun c' hc' => hDigits c' (List.mem_cons_of_mem _ hc')) (by omega)
      refine ⟨(group.push s).1 ++ tail, ?_, ?_⟩
      · rw [decodeStrictFrom, if_neg hNotPad, hValue]
        simp only [Bool.false_eq_true, if_false, hTail, Option.map_some]
      · have hBits := Group.bits_push s group
        rw [List.length_append, List.length_cons]
        omega

/-- A text that is decoded to as many bytes as its length allows consists of digits, and every
such text of full groups is decoded. -/
theorem decodeStrict_full {n : Nat} (hLength : t.length = 4 * n) :
    (∃ bytes, decodeStrict alphabet t = some bytes ∧ bytes.length = 3 * n) ↔
      ∀ c ∈ t, (alphabet.value c).isSome := by
  unfold decodeStrict
  constructor
  · rintro ⟨bytes, hDecode, hBytes⟩
    split at hDecode
    · cases hDecode
    · refine (decodeStrictFrom_length hDecode).2 ?_
      show 8 * bytes.length = 6 * t.length + 0
      omega
  · intro hDigits
    have hHead : t.head? ≠ some '=' := by
      intro hPad
      have hDigit := hDigits '=' (List.mem_of_head? hPad)
      rw [alphabet.value_pad] at hDigit
      cases hDigit
    obtain ⟨bytes, hDecode, hBytes⟩ :
        ∃ bytes, decodeStrictFrom alphabet .start 0 false t = some bytes ∧
          8 * bytes.length = 6 * t.length + 0 :=
      decodeStrictFrom_digits hDigits (show (0 + t.length) % 4 = 0 by omega)
    exact ⟨bytes, by rw [if_neg hHead, hDecode], by omega⟩

/-- Full groups are encoded without padding. -/
theorem encode_full (alphabet : Alphabet) {n : Nat} (h : bytes.length = 3 * n) :
    (encode alphabet bytes).length = 4 * n ∧
      ∀ c ∈ encode alphabet bytes, (alphabet.value c).isSome := by
  have hWrite (k : Nat) : (alphabet.value (alphabet.write k)).isSome := by
    rw [Alphabet.write, alphabet.value_digit]
    rfl
  induction bytes using encode.induct generalizing n with
  | case1 =>
      obtain rfl : n = 0 := by rw [List.length_nil] at h; omega
      exact ⟨rfl, fun c hc => by cases hc⟩
  | case2 a =>
      simp only [List.length_cons, List.length_nil] at h
      omega
  | case3 a b =>
      simp only [List.length_cons, List.length_nil] at h
      omega
  | case4 a b c rest ih =>
      simp only [List.length_cons] at h
      obtain ⟨hLength, hRest⟩ := ih (n := n - 1) (by omega)
      simp only [encode, List.length_cons, List.forall_mem_cons]
      exact ⟨by omega, hWrite _, hWrite _, hWrite _, hWrite _, hRest⟩

end Strict

end Base64
