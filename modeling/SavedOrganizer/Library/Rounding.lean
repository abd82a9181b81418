import Mathlib.Data.Nat.Log
import Mathlib.Tactic.Ring

/-!
# Quotients rounded to a double

Division of two natural numbers in IEEE 754 binary64, to the nearest with ties to even, as a
numerator over a power of two. The quotients here are below `2 ^ 52` and not subnormal, so
the exponent range plays no part.

A quotient keeps its floor and its ceiling (`trunc_divide`, `ceil_divide`) when half a unit in
the last place is smaller than one part of the denominator; `scale_ge` says when that is so.
-/

namespace Rounding

/-- `a / b` to the nearest integer, ties to even. -/
def roundHalfEven (a b : Nat) : Nat :=
  if 2 * (a % b) < b then a / b
  else if b < 2 * (a % b) then a / b + 1
  else a / b + a / b % 2

/-- The value `mantissa / 2 ^ scale`. -/
structure Double where
  mantissa : Nat
  scale : Nat
  deriving DecidableEq, Repr

/-- The scale that gives `a / b` a mantissa of 53 bits. -/
def scale (a b : Nat) : Nat :=
  if a * 2 ^ (52 + b.log2 - a.log2) < 2 ^ 52 * b then 52 + b.log2 - a.log2 + 1
  else 52 + b.log2 - a.log2

/-- The double nearest to `a / b`. -/
def divide (a b : Nat) : Double :=
  ⟨roundHalfEven (a * 2 ^ scale a b) b, scale a b⟩

namespace Double

/-- The integer part. -/
def trunc (x : Double) : Nat := x.mantissa / 2 ^ x.scale

/-- The least integer that is not less. -/
def ceil (x : Double) : Nat := (x.mantissa + (2 ^ x.scale - 1)) / 2 ^ x.scale

end Double

theorem roundHalfEven_ge (a b : Nat) : a / b ≤ roundHalfEven a b := by
  unfold roundHalfEven
  split
  · exact Nat.le_refl _
  · split <;> omega

theorem roundHalfEven_le (a b : Nat) : roundHalfEven a b ≤ a / b + 1 := by
  unfold roundHalfEven
  split
  · exact Nat.le_succ _
  · split <;> omega

theorem roundHalfEven_down {a b : Nat} (h : 2 * (a % b) < b) : roundHalfEven a b = a / b :=
  if_pos h

theorem roundHalfEven_up {a b : Nat} (h : b < 2 * (a % b)) : roundHalfEven a b = a / b + 1 := by
  unfold roundHalfEven
  rw [if_neg (by omega), if_pos h]

section Exact

variable {a b p : Nat}

/-- The scaled quotient and its remainder. -/
theorem scaled_eq (hb : 0 < b) :
    a * p / b = a / b * p + a % b * p / b ∧ a * p % b = a % b * p % b := by
  have hSplit : a * p = b * (a / b * p) + a % b * p := by
    calc a * p = (b * (a / b) + a % b) * p := by rw [Nat.div_add_mod]
      _ = b * (a / b * p) + a % b * p := by ring
  constructor
  · rw [hSplit, Nat.mul_add_div hb]
  · rw [hSplit, Nat.mul_add_mod]

/-- Rounding to steps finer than half a part of `b` stays below the next integer. -/
theorem round_lt (hb : 0 < b) (h : b < 2 * p) :
    roundHalfEven (a * p) b < (a / b + 1) * p := by
  obtain ⟨hDiv, hMod⟩ := scaled_eq (a := a) (p := p) hb
  have hRem : a % b + 1 ≤ b := Nat.mod_lt a hb
  have hBelow : a % b * p + p ≤ b * p := by
    calc a % b * p + p = (a % b + 1) * p := by ring
      _ ≤ b * p := Nat.mul_le_mul_right p hRem
  have hFloor := Nat.div_add_mod (a % b * p) b
  generalize hQ : a % b * p / b = q at hDiv hFloor
  generalize hR : a % b * p % b = r at hMod hFloor
  have hQp : q < p := by
    by_contra hNot
    have hLe : b * p ≤ b * q := Nat.mul_le_mul_left b (Nat.not_lt.mp hNot)
    omega
  rw [Nat.add_mul, Nat.one_mul]
  by_cases hLast : q + 1 = p
  · -- the remainder is too small to round up to the next integer
    have hBq : b * q + b = b * p := by
      rw [← hLast]
      ring
    have hSmall : 2 * r < b := by omega
    rw [roundHalfEven_down (by rw [hMod]; exact hSmall), hDiv]
    omega
  · have hUp := roundHalfEven_le (a * p) b
    rw [hDiv] at hUp
    omega

theorem round_gt (hb : 0 < b) (h : b < 2 * p) (hRem : 0 < a % b) :
    a / b * p < roundHalfEven (a * p) b := by
  obtain ⟨hDiv, hMod⟩ := scaled_eq (a := a) (p := p) hb
  have hLow := roundHalfEven_ge (a * p) b
  by_cases hZero : a % b * p / b = 0
  · have hFloor := Nat.div_add_mod (a % b * p) b
    have hPart : p ≤ a % b * p := Nat.le_mul_of_pos_left p hRem
    rw [hZero, Nat.mul_zero, Nat.zero_add] at hFloor
    rw [roundHalfEven_up (by rw [hMod]; omega), hDiv]
    omega
  · have hSome := Nat.pos_of_ne_zero hZero
    rw [hDiv] at hLow
    omega

theorem round_exact (hb : 0 < b) (hRem : a % b = 0) : roundHalfEven (a * p) b = a / b * p := by
  obtain ⟨hDiv, hMod⟩ := scaled_eq (a := a) (p := p) hb
  rw [hRem, Nat.zero_mul] at hDiv hMod
  rw [Nat.zero_div, Nat.add_zero] at hDiv
  rw [Nat.zero_mod] at hMod
  rw [roundHalfEven_down (by rw [hMod]; omega), hDiv]

end Exact

section Quotient

variable {a b : Nat}

theorem trunc_divide (hb : 0 < b) (h : b < 2 * 2 ^ scale a b) : (divide a b).trunc = a / b := by
  unfold divide Double.trunc
  have hLt := round_lt (a := a) hb h
  have hLow : a / b * 2 ^ scale a b ≤ roundHalfEven (a * 2 ^ scale a b) b :=
    le_trans (by rw [(scaled_eq hb).1]; exact Nat.le_add_right _ _) (roundHalfEven_ge _ _)
  exact Nat.div_eq_of_lt_le hLow hLt

/-- Rounding never goes below the integer part. -/
theorem le_trunc_divide (hb : 0 < b) : a / b ≤ (divide a b).trunc := by
  unfold divide Double.trunc
  dsimp only
  rw [Nat.le_div_iff_mul_le (Nat.two_pow_pos _)]
  exact le_trans (by rw [(scaled_eq hb).1]; exact Nat.le_add_right _ _) (roundHalfEven_ge _ _)

theorem ceil_divide (hb : 0 < b) (h : b < 2 * 2 ^ scale a b) :
    (divide a b).ceil = (a + (b - 1)) / b := by
  unfold divide Double.ceil
  dsimp only
  have hPow : 0 < 2 ^ scale a b := Nat.two_pow_pos _
  have hLt := round_lt (a := a) hb h
  have hFloor := Nat.div_add_mod a b
  generalize hP : 2 ^ scale a b = p at hPow hLt h ⊢
  rcases Nat.eq_zero_or_pos (a % b) with hRem | hRem
  · rw [hRem, Nat.add_zero] at hFloor
    have hCeil : (a + (b - 1)) / b = a / b := by
      nth_rewrite 1 [← hFloor]
      rw [Nat.mul_add_div hb, Nat.div_eq_of_lt (show b - 1 < b by omega), Nat.add_zero]
    rw [round_exact hb hRem, hCeil, Nat.mul_comm, Nat.mul_add_div hPow,
      Nat.div_eq_of_lt (show p - 1 < p by omega), Nat.add_zero]
  · have hGt := round_gt hb h hRem
    have hMod := Nat.mod_lt a hb
    have hCeil : (a + (b - 1)) / b = a / b + 1 := by
      refine Nat.div_eq_of_lt_le ?_ ?_
      · rw [Nat.add_mul, Nat.one_mul, Nat.mul_comm]
        omega
      · rw [Nat.add_mul, Nat.add_mul, Nat.one_mul, Nat.mul_comm]
        omega
    rw [hCeil]
    refine Nat.div_eq_of_lt_le ?_ ?_
    · rw [Nat.add_mul, Nat.one_mul]
      omega
    · rw [Nat.add_mul (a / b + 1), Nat.one_mul]
      omega

/-- The scale of a quotient below `2 ^ n`. -/
theorem scale_ge {n : Nat} (hb : 0 < b) (hn : n ≤ 52) (h : a < 2 ^ n * b) :
    53 - n ≤ scale a b := by
  unfold scale
  by_cases ha : a = 0
  · subst ha
    rw [if_pos (by rw [Nat.zero_mul]; exact Nat.mul_pos (Nat.two_pow_pos 52) hb)]
    have hZero : Nat.log2 0 = 0 := rfl
    omega
  have hLog : a.log2 ≤ n + b.log2 := by
    have hLt : a < 2 ^ (n + b.log2 + 1) := by
      refine h.trans_le ?_
      rw [Nat.add_assoc, Nat.pow_add]
      exact Nat.mul_le_mul_left _ (Nat.lt_log2_self).le
    exact Nat.lt_succ_iff.mp ((Nat.log2_lt ha).mpr hLt)
  split
  · omega
  · rename_i hBig
    by_contra hSmall
    refine hBig ?_
    have hScale : 52 + b.log2 - a.log2 ≤ 52 - n := by omega
    calc a * 2 ^ (52 + b.log2 - a.log2) ≤ a * 2 ^ (52 - n) :=
          Nat.mul_le_mul_left a (Nat.pow_le_pow_right (by omega) hScale)
      _ < 2 ^ n * b * 2 ^ (52 - n) := Nat.mul_lt_mul_of_pos_right h (Nat.two_pow_pos _)
      _ = 2 ^ 52 * b := by
          rw [Nat.mul_right_comm, ← Nat.pow_add, Nat.add_sub_cancel' hn]

/-- A positive quotient does not round to zero. -/
theorem ceil_pos (ha : 0 < a) (hb : 0 < b) : 0 < (divide a b).ceil := by
  have hMantissa : 1 ≤ roundHalfEven (a * 2 ^ scale a b) b := by
    refine le_trans ?_ (roundHalfEven_ge _ _)
    rw [Nat.le_div_iff_mul_le hb, Nat.one_mul]
    have hLow : 52 + b.log2 - a.log2 ≤ scale a b := by
      unfold scale
      split <;> omega
    calc b ≤ 2 ^ (b.log2 + 1) := (Nat.lt_log2_self).le
      _ ≤ 2 ^ (a.log2 + scale a b) := Nat.pow_le_pow_right (by omega) (by omega)
      _ = 2 ^ a.log2 * 2 ^ scale a b := Nat.pow_add _ _ _
      _ ≤ a * 2 ^ scale a b := Nat.mul_le_mul_right _ (Nat.log2_self_le (by omega))
  unfold divide Double.ceil
  dsimp only
  have hPow : 0 < 2 ^ scale a b := Nat.two_pow_pos _
  refine Nat.div_pos ?_ hPow
  omega

end Quotient

end Rounding
