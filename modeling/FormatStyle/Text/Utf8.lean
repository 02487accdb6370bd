import FormatStyle.Error

/-! # UTF-8

Bytes as text, with the place and the length of the first sequence that is no character: the
longest start of a sequence that could have been completed counts as one bad sequence.
-/

namespace FormatStyle.Text

/-- A byte that continues a sequence. -/
def isContinuation (b : Nat) : Bool := 0x80 ≤ b && b ≤ 0xBF

/-- The bytes that may follow the first one of a sequence, and how many follow in all. -/
def secondRange? (first : Nat) : Option (Nat × Nat × Nat) :=
  if 0xC2 ≤ first && first ≤ 0xDF then some (0x80, 0xBF, 1)
  else if first = 0xE0 then some (0xA0, 0xBF, 2)
  else if first = 0xED then some (0x80, 0x9F, 2)
  else if 0xE1 ≤ first && first ≤ 0xEF then some (0x80, 0xBF, 2)
  else if first = 0xF0 then some (0x90, 0xBF, 3)
  else if first = 0xF4 then some (0x80, 0x8F, 3)
  else if 0xF1 ≤ first && first ≤ 0xF3 then some (0x80, 0xBF, 3)
  else none

/-- **One sequence**: its character with the number of bytes, or how it is bad — after so many
bytes, or cut short by the end. -/
def sequence (bytes : List Nat) : Except (Option Nat) (Char × Nat) :=
  match bytes with
  | [] => .error none
  | first :: rest =>
    if first < 0x80 then .ok (Char.ofNat first, 1)
    else match secondRange? first with
      | none => .error (some 1)
      | some (low, high, count) =>
        match rest with
        | [] => .error none
        | second :: rest =>
          if !(low ≤ second && second ≤ high) then .error (some 1)
          else if count = 1 then .ok (Char.ofNat ((first - 0xC0) * 64 + (second - 0x80)), 2)
          else match rest with
            | [] => .error none
            | third :: rest =>
              if !isContinuation third then .error (some 2)
              else if count = 2 then
                .ok (Char.ofNat ((first - 0xE0) * 4096 + (second - 0x80) * 64 +
                  (third - 0x80)), 3)
              else match rest with
                | [] => .error none
                | fourth :: _ =>
                  if !isContinuation fourth then .error (some 3)
                  else .ok (Char.ofNat ((first - 0xF0) * 262144 + (second - 0x80) * 4096 +
                    (third - 0x80) * 64 + (fourth - 0x80)), 4)

/-- Decode bytes from an index on; one step of fuel for each character. -/
def decodeFrom (index : Nat) : Nat → List Nat → Except EncodingError (List Char)
  | _, [] => .ok []
  | 0, _ => .ok []
  | fuel + 1, bytes =>
    match sequence bytes with
    | .error bad => .error ⟨index, bad⟩
    | .ok (c, width) => (c :: ·) <$> decodeFrom (index + width) fuel (bytes.drop width)

/-- **The text of bytes**, or where they stop being text. -/
def decode (bytes : List UInt8) : Except EncodingError String :=
  let numbers := bytes.map UInt8.toNat
  String.ofList <$> decodeFrom 0 numbers.length numbers

/-- The bytes of a text. -/
def encode (s : String) : List UInt8 := s.toUTF8.toList

end FormatStyle.Text
