/-! # Binary floating point numbers of 64 bits

A finite number is a sign, a mantissa of at most 53 bits and a power of two. A decimal is rounded
to the nearest such number, a tie going to the even mantissa. Main statement: rounding a quotient
stays within half a unit (`roundDiv_le`, `le_roundDiv`).
-/

namespace FormatStyle.Decimal

/-- The quotient rounded to the nearest number; a half goes to the even neighbour. -/
def roundDiv (num den : Nat) : Nat :=
  let q := num / den
  let r := num % den
  if den < 2 * r || (2 * r == den && q % 2 == 1) then q + 1 else q

/-- A rounded quotient is at most half a unit too large. -/
theorem roundDiv_le {num den : Nat} (positive : 0 < den) :
    2 * (roundDiv num den * den) ≤ 2 * num + den := by
  have parts := Nat.div_add_mod num den
  have commuted := Nat.mul_comm den (num / den)
  unfold roundDiv
  dsimp only
  split
  · rename_i up
    have half : den ≤ 2 * (num % den) := by
      simp only [Bool.or_eq_true, decide_eq_true_eq, Bool.and_eq_true, beq_iff_eq] at up
      omega
    rw [Nat.add_mul]
    omega
  · omega

/-- A rounded quotient is at most half a unit too small. -/
theorem le_roundDiv {num den : Nat} (positive : 0 < den) :
    2 * num ≤ 2 * (roundDiv num den * den) + den := by
  have parts := Nat.div_add_mod num den
  have commuted := Nat.mul_comm den (num / den)
  have less := Nat.mod_lt num positive
  unfold roundDiv
  dsimp only
  split
  · rw [Nat.add_mul]
    omega
  · rename_i down
    have half : 2 * (num % den) ≤ den := by
      simp only [Bool.or_eq_true, decide_eq_true_eq, not_or] at down
      omega
    omega

/-- **Floating point numbers.** A finite one is `mantissa * 2 ^ exponent`, and its exponent is the
least possible with a mantissa below `2 ^ 53`, but at least `-1074`. -/
inductive Binary64 where
  | nan
  | infinity (negative : Bool)
  | finite (negative : Bool) (mantissa : Nat) (exponent : Int)
  deriving DecidableEq, Repr

namespace Binary64

/-- The least exponent. -/
def minExponent : Int := -1074

/-- The greatest exponent. -/
def maxExponent : Int := 971

/-- Equality as numbers: zeros are equal, and so are all values that are not numbers. -/
def same : Binary64 → Binary64 → Bool
  | nan, nan => true
  | infinity a, infinity b => a == b
  | finite s m e, finite t n f =>
    if m = 0 then n == 0 else s == t && m == n && e == f
  | _, _ => false

/-- A fraction with its power of two taken out, as a quotient of naturals. -/
def scaled (num den : Nat) (exponent : Int) : Nat × Nat :=
  if 0 ≤ exponent then (num, den * Nat.pow 2 exponent.toNat)
  else (num * Nat.pow 2 (-exponent).toNat, den)

/-- The exponent at which a positive fraction has a mantissa of 53 bits, or the least one. -/
def exponentOf (num den : Nat) : Int :=
  let guess : Int := (num.log2 : Int) - (den.log2 : Int) - 52
  let (n, d) := scaled num den guess
  let exponent := if n / d < Nat.pow 2 52 then guess - 1 else guess
  max exponent minExponent

/-- The nearest number to a positive fraction, none if it is out of range. -/
def ofFraction (negative : Bool) (num den : Nat) : Option Binary64 :=
  let exponent := exponentOf num den
  let (n, d) := scaled num den exponent
  let mantissa := roundDiv n d
  let (mantissa, exponent) :=
    if mantissa = Nat.pow 2 53 then (Nat.pow 2 52, exponent + 1) else (mantissa, exponent)
  if maxExponent < exponent then none else some (finite negative mantissa exponent)

/-- **The nearest number to a decimal** `digits * 10 ^ power`, none if it is out of range. Powers
that are out of the question are not computed. -/
def ofDecimal (negative : Bool) (digits : Nat) (power : Int) : Option Binary64 :=
  let magnitude : Int := power + (Nat.toDigits 10 digits).length
  if digits = 0 || magnitude < -330 then some (finite negative 0 minExponent)
  else if 310 < magnitude then none
  else if 0 ≤ power then ofFraction negative (digits * Nat.pow 10 power.toNat) 1
  else ofFraction negative digits (Nat.pow 10 (-power).toNat)

end Binary64

end FormatStyle.Decimal
