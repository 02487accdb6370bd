import FormatStyle.Decimal.Shortest

/-! # Floating point numbers as text

Numbers from a hundred-thousandth up to ten to the sixteenth are written by position and always
with a fraction; others have one digit before the point and an exponent.
-/

namespace FormatStyle.Decimal

/-- **A layout of numbers.** Those below `10 ^ positionalUpTo` that are not below
`10 ^ positionalFrom` are written by position; an exponent that is not negative may have a plus
sign. -/
structure Layout where
  positionalFrom : Int
  positionalUpTo : Int
  signedExponent : Bool
  deriving DecidableEq, Repr

/-- The layout of numbers in configurations. -/
def standardLayout : Layout := ⟨-5, 16, false⟩

/-- The layout of numbers in manifests, where positive exponents have a sign. -/
def signedLayout : Layout := ⟨-5, 16, true⟩

/-- A positive decimal in a layout. -/
def Layout.write (layout : Layout) (d : Scientific) : String :=
  let digits := Nat.toDigits 10 d.digits
  let point : Int := digits.length + d.power
  let text : List Char :=
    if 0 ≤ d.power && point ≤ layout.positionalUpTo then
      digits ++ List.replicate d.power.toNat '0' ++ ['.', '0']
    else if 0 < point && point ≤ layout.positionalUpTo then
      digits.take point.toNat ++ '.' :: digits.drop point.toNat
    else if layout.positionalFrom < point && point ≤ 0 then
      '0' :: '.' :: List.replicate (-point).toNat '0' ++ digits
    else
      let mark := match digits with
        | first :: second :: rest => first :: '.' :: second :: rest
        | short => short
      let sign := if layout.signedExponent && 0 ≤ point - 1 then ['+'] else []
      mark ++ 'e' :: sign ++ (toString (point - 1)).toList
  String.ofList text

/-- The text of a finite number. -/
def Layout.finite (layout : Layout) (negative : Bool) (mantissa : Nat) (exponent : Int) : String :=
  let sign := if negative then "-" else ""
  if mantissa = 0 then sign ++ "0.0" else sign ++ layout.write (shortest mantissa exponent)

end FormatStyle.Decimal
