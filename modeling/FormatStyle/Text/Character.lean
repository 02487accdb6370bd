import FormatStyle.Text.Character.Table
import FormatStyle.Text.LowerCase

/-! # Classes of characters

Blank characters separate words without being seen, and decimal digits come in runs of ten (and one
of fifty). Between double quotes nothing is invisible: quotes and backslashes are escaped, the usual
control characters have a letter, and other characters without a picture of their own are written by
number. Main statements: the classes of core are in these
(`Text.isBlank_of_isWhitespace`, `Text.isDecimalDigit_of_isDigit`).
-/

namespace FormatStyle.Text

/-! ## Blank characters -/

/-- **Blank characters** are the twenty-five with the property `White_Space`. -/
def isBlank (c : Char) : Bool :=
  let n := c.toNat
  (0x09 ≤ n && n ≤ 0x0D) || n == 0x20 || n == 0x85 || n == 0xA0 || n == 0x1680 ||
    (0x2000 ≤ n && n ≤ 0x200A) || n == 0x2028 || n == 0x2029 || n == 0x202F ||
    n == 0x205F || n == 0x3000

/-- Characters without the blank ones at either end. -/
def trimChars (cs : List Char) : List Char :=
  ((cs.dropWhile isBlank).reverse.dropWhile isBlank).reverse

/-- A text without the blank characters at either end. -/
def trim (s : String) : String := String.ofList (trimChars s.toList)

/-- A text of blank characters only. -/
def isBlankText (s : String) : Bool := s.toList.all isBlank

/-- Every character that core calls white space is blank. -/
theorem isBlank_of_isWhitespace {c : Char} (h : c.isWhitespace = true) : isBlank c = true := by
  simp only [Char.isWhitespace, Bool.or_eq_true, decide_eq_true_eq] at h
  rcases h with ((h | h) | h) | h <;> subst h <;> decide

/-! ## Decimal digits -/

/-- The first characters of the runs of ten decimal digits. -/
def digitRuns : List Nat := [
  0x30, 0x660, 0x6F0, 0x7C0, 0x966, 0x9E6, 0xA66, 0xAE6, 0xB66, 0xBE6, 0xC66, 0xCE6, 0xD66,
  0xDE6, 0xE50, 0xED0, 0xF20, 0x1040, 0x1090, 0x17E0, 0x1810, 0x1946, 0x19D0, 0x1A80, 0x1A90,
  0x1B50, 0x1BB0, 0x1C40, 0x1C50, 0xA620, 0xA8D0, 0xA900, 0xA9D0, 0xA9F0, 0xAA50, 0xABF0, 0xFF10,
  0x104A0, 0x10D30, 0x10D40, 0x11066, 0x110F0, 0x11136, 0x111D0, 0x112F0, 0x11450, 0x114D0,
  0x11650, 0x116C0, 0x116D0, 0x116DA, 0x11730, 0x118E0, 0x11950, 0x11BF0, 0x11C50, 0x11D50,
  0x11DA0, 0x11F50, 0x16130, 0x16A60, 0x16AC0, 0x16B50, 0x16D70, 0x1CCF0, 0x1E140, 0x1E2F0,
  0x1E4F0, 0x1E5F1, 0x1E950, 0x1FBF0]

/-- **Decimal digits of any script.** The mathematical digits are one run of fifty. -/
def isDecimalDigit (c : Char) : Bool :=
  let n := c.toNat
  (0x1D7CE ≤ n && n ≤ 0x1D7FF) || digitRuns.any fun first => first ≤ n && n ≤ first + 9

/-- Every character that core calls a digit is one. -/
theorem isDecimalDigit_of_isDigit {c : Char} (h : c.isDigit = true) :
    isDecimalDigit c = true := by
  have range : 48 ≤ c.toNat ∧ c.toNat ≤ 57 := by
    simp only [Char.isDigit, Bool.and_eq_true, decide_eq_true_eq] at h
    exact h
  have run : digitRuns.any (fun first => first ≤ c.toNat && c.toNat ≤ first + 9) = true :=
    List.any_eq_true.mpr ⟨0x30, List.mem_cons_self, by simpa using range⟩
  simp [isDecimalDigit, run]

/-! ## Quoted text -/

/-- The lower-case hexadecimal digits of a number, without leading zeros. -/
def hex (n : Nat) : String := String.ofList (Nat.toDigits 16 n)

/-- One character between quotes. -/
def quoteChar (c : Char) : String :=
  match c with
  | '"' => "\\\""
  | '\\' => "\\\\"
  | '\n' => "\\n"
  | '\r' => "\\r"
  | '\t' => "\\t"
  | '\x00' => "\\0"
  | _ => if inRanges unseenRanges c then "\\u\x7b" ++ hex c.toNat ++ "\x7d" else c.toString

/-- **A quoted text.** -/
def quote (s : String) : String := "\"" ++ String.join (s.toList.map quoteChar) ++ "\""

end FormatStyle.Text
