import FormatStyle.Decimal.Binary64

/-! # The shortest decimal that reads back

A finite number is written with the fewest digits of which it is the nearest floating point
number. The reals that round to it form an interval; for one digit, two digits and so on, the two
neighbours of the number on that decimal grid are tested, since a grid that meets the interval has
one of them in it. Of two neighbours in the interval the nearer is taken, and of two equally near
ones the even one.
-/

namespace FormatStyle.Decimal

/-- **A positive decimal** `digits * 10 ^ power`. -/
structure Scientific where
  digits : Nat
  power : Int
  deriving DecidableEq, Repr

/-- The interval of the reals that round to a number, and the number itself, over a common
denominator. The ends belong to it where the mantissa is even. -/
structure Rounding where
  low : Nat
  value : Nat
  high : Nat
  den : Nat
  closed : Bool
  deriving DecidableEq, Repr

/-- The interval of `mantissa * 2 ^ exponent`. Below a power of two the numbers lie twice as
close. -/
def Rounding.of (mantissa : Nat) (exponent : Int) : Rounding :=
  let lowGap := if mantissa = Nat.pow 2 52 && Binary64.minExponent < exponent then 1 else 2
  let scale := if 0 ≤ exponent then Nat.pow 2 exponent.toNat else 1
  let den := if 0 ≤ exponent then 4 else 4 * Nat.pow 2 (-exponent).toNat
  ⟨(4 * mantissa - lowGap) * scale, 4 * mantissa * scale, (4 * mantissa + 2) * scale, den,
    mantissa % 2 == 0⟩

/-- A decimal as a fraction. -/
def Scientific.fraction (d : Scientific) : Nat × Nat :=
  if 0 ≤ d.power then (d.digits * Nat.pow 10 d.power.toNat, 1)
  else (d.digits, Nat.pow 10 (-d.power).toNat)

/-- The decimal rounds to the number of the interval. -/
def Rounding.contains (r : Rounding) (d : Scientific) : Bool :=
  let (num, den) := d.fraction
  let low := r.low * den
  let high := r.high * den
  let here := num * r.den
  if r.closed then low ≤ here && here ≤ high else low < here && here < high

/-- Twice the distance in units of the grid: how far the number lies above the lower neighbour,
and the unit itself. -/
def Rounding.gridPosition (r : Rounding) (power : Int) : Nat × Nat × Nat :=
  let num := if 0 ≤ power then r.value else r.value * Nat.pow 10 (-power).toNat
  let den := if 0 ≤ power then r.den * Nat.pow 10 power.toNat else r.den
  (num / den, num % den, den)

/-- The neighbour on the grid of a power of ten that reads back, if there is one. -/
def Rounding.onGrid? (r : Rounding) (power : Int) : Option Scientific :=
  let (lower, rest, unit) := r.gridPosition power
  let below : Scientific := ⟨lower, power⟩
  let above : Scientific := ⟨lower + 1, power⟩
  let belowFits := 0 < lower && r.contains below
  match belowFits, r.contains above with
  | true, true =>
    if 2 * rest < unit then some below
    else if unit < 2 * rest then some above
    else if lower % 2 == 0 then some below
    else some above
  | true, false => some below
  | false, true => some above
  | false, false => none

/-- The power of ten of the first digit. -/
def Rounding.leading (r : Rounding) : Int :=
  let scaled := fun (power : Int) => (r.gridPosition power).1
  let guess : Int := ((r.value.log2 : Int) - (r.den.log2 : Int)) * 30103 / 100000
  ([guess + 1, guess, guess - 1].find? fun power => 0 < scaled power).getD (guess - 2)

/-- **The shortest decimal** that reads back as the number, without zeros at its end. Seventeen
digits always suffice. -/
def shortest (mantissa : Nat) (exponent : Int) : Scientific :=
  let r := Rounding.of mantissa exponent
  let leading := r.leading
  let found := (List.range 17).findSome? fun (count : Nat) => r.onGrid? (leading - count)
  strip 400 (found.getD ⟨(r.gridPosition (leading - 16)).1, leading - 16⟩)
where
  /-- Take zeros off the end, at most so many. -/
  strip : Nat → Scientific → Scientific
    | 0, d => d
    | n + 1, d =>
      if d.digits % 10 = 0 && d.digits ≠ 0 then strip n ⟨d.digits / 10, d.power + 1⟩ else d

end FormatStyle.Decimal
