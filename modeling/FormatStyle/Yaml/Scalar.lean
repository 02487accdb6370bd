import FormatStyle.Decimal.Binary64
import FormatStyle.Yaml.Character

/-! # What a scalar stands for

An unquoted scalar is null, a flag, a number or else a text. Integers may be written in four
bases; a decimal one with a leading zero is a text. Integers beyond 64 bits are out of range up to
128 bits, and beyond that they are numbers like any other decimal. A core tag asks for one of these
meanings.
-/

namespace FormatStyle.Yaml

open FormatStyle.Decimal

/-- **The meaning of a plain scalar.** -/
inductive Scalar where
  | null
  | bool (b : Bool)
  | int (n : Int)
  | float (x : Binary64)
  | text
  deriving DecidableEq, Repr

namespace Scalar

def isNull (s : String) : Bool := ["null", "Null", "NULL", "~"].contains s

def bool? (s : String) : Option Bool :=
  if ["true", "True", "TRUE"].contains s then some true
  else if ["false", "False", "FALSE"].contains s then some false
  else none

/-- A text without its sign, if it starts with one of the given signs. -/
def dropSign (signs : List Char) : List Char → List Char
  | [] => []
  | c :: cs => if signs.contains c then cs else c :: cs

def startsWithSign : List Char → Bool
  | [] => false
  | c :: _ => c == '+' || c == '-'

/-- Digits with leading zeros, which are no number. -/
def hasLeadingZero (cs : List Char) : Bool :=
  let digits := dropSign ['-', '+'] cs
  2 ≤ digits.length && digits.head? == some '0' && digits.all Char.isDigit

/-- A natural number in a base, digits only. -/
def natural? (base : Nat) (cs : List Char) : Option Nat :=
  if cs.isEmpty then none
  else cs.foldl (fun n? c => do
    let n ← n?
    let digit ← hexValue? c
    if digit < base then some (n * base + digit) else none) (some 0)

/-- A number after its base mark, if the text has a mark. -/
def based? (cs : List Char) : Option (Nat × List Char) :=
  match cs with
  | '0' :: 'x' :: digits => some (16, digits)
  | '0' :: 'o' :: digits => some (8, digits)
  | '0' :: 'b' :: digits => some (2, digits)
  | _ => none

/-- The number that a text writes in a base or in decimal, within a limit. -/
def magnitude? (limit : Nat) (cs : List Char) : Option Nat :=
  let within := fun (n : Nat) => if n ≤ limit then some n else none
  match (based? cs).bind fun (base, digits) => (natural? base digits).bind within with
  | some n => some n
  | none => if hasLeadingZero cs then none else (natural? 10 cs).bind within

/-- A number that is not negative, an optional `+` in front, within a limit. -/
def unsigned? (limit : Nat) (cs : List Char) : Option Nat := magnitude? limit (dropSign ['+'] cs)

/-- A negative number within a limit. -/
def negative? (limit : Nat) (cs : List Char) : Option Int :=
  match cs with
  | '-' :: digits => (magnitude? limit digits).map fun n => -(n : Int)
  | _ => none

/-- **The integer that a text writes**, if it writes one: nothing is in it where the integer is out
of range. -/
def int? (cs : List Char) : Option (Option Int) :=
  if let some n := unsigned? (Nat.pow 2 64 - 1) cs then some (some n)
  else if let some n := negative? (Nat.pow 2 63) cs then some (some n)
  else if (unsigned? (Nat.pow 2 128 - 1) cs).isSome || (negative? (Nat.pow 2 127) cs).isSome then
    some none
  else none

/-- The exponent after the digits of a decimal: zero at the end of the text. -/
def exponent? (cs : List Char) : Option Int :=
  match cs with
  | [] => some 0
  | mark :: rest =>
    if mark == 'e' || mark == 'E' then
      match rest with
      | '-' :: digits => (natural? 10 digits).map fun n => -(n : Int)
      | '+' :: digits => (natural? 10 digits).map Int.ofNat
      | digits => (natural? 10 digits).map Int.ofNat
    else none

/-- A decimal with an optional fraction and exponent, as digits and a power of ten. -/
def decimal? (cs : List Char) : Option (Nat × Int) := do
  let whole := cs.takeWhile Char.isDigit
  let rest := cs.dropWhile Char.isDigit
  let (fraction, rest) := match rest with
    | '.' :: more => (more.takeWhile Char.isDigit, more.dropWhile Char.isDigit)
    | _ => ([], rest)
  let digits ← natural? 10 (whole ++ fraction)
  let exponent ← exponent? rest
  return (digits, exponent - fraction.length)

/-- A finite decimal with an optional sign. -/
def finite? (cs : List Char) : Option Binary64 := do
  let (digits, power) ← decimal? (dropSign ['+', '-'] cs)
  Binary64.ofDecimal (cs.head? == some '-') digits power

/-- **A floating point number.** -/
def float? (s : String) : Option Binary64 :=
  let cs := s.toList
  let positive := dropSign ['+'] cs
  if cs.head? == some '+' && startsWithSign positive then none
  else if [".inf", ".Inf", ".INF"].contains (String.ofList positive) then
    some (.infinity false)
  else if ["-.inf", "-.Inf", "-.INF"].contains s then some (.infinity true)
  else if [".nan", ".NaN", ".NAN"].contains s then some .nan
  else finite? positive

/-- **The meaning of a plain scalar**, none for an integer out of range. -/
def ofPlain (s : String) : Option Scalar :=
  if s.isEmpty || isNull s then some null
  else match bool? s with
    | some b => some (bool b)
    | none => match int? s.toList with
      | some n? => n?.map int
      | none =>
        if hasLeadingZero s.toList then some text
        else match float? s with
          | some x => some (float x)
          | none => some text

/-- The meaning of a scalar under a core tag, none where it does not fit the tag. -/
def ofCore (tag s : String) : Option Scalar :=
  if tag == "tag:yaml.org,2002:bool" then (bool? s).map bool
  else if tag == "tag:yaml.org,2002:int" then ((int? s.toList).bind id).map int
  else if tag == "tag:yaml.org,2002:float" then (float? s).map float
  else if tag == "tag:yaml.org,2002:null" then if isNull s then some null else none
  else some text

/-- **The meaning of a scalar**, with its tag unless that is the document's own. -/
def ofTagged (tag : Option String) (s : String) (plain : Bool) : Option Scalar :=
  match tag with
  | some core => ofCore core s
  | none => if plain then ofPlain s else some text

end Scalar

end FormatStyle.Yaml
