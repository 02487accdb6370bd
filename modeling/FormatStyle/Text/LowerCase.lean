import FormatStyle.Text.LowerCase.Table

/-! # Lower case

Full lower-case mapping of a text, and the comparison of names that ignores the case of the
letters `A` to `Z` only. A capital sigma becomes the final form at the end of a word.
-/

namespace FormatStyle.Text

/-- A character of one of the ranges. -/
def inRanges (ranges : List (Nat × Nat)) (c : Char) : Bool :=
  ranges.any fun range => range.1 ≤ c.toNat && c.toNat ≤ range.2

/-- Past marks and modifiers, the text goes on with a cased letter. -/
def meetsCased (cs : List Char) : Bool :=
  match cs.dropWhile (inRanges caseIgnorableRanges) with
  | c :: _ => inRanges casedRanges c
  | [] => false

/-- The lower-case form of one character that does not depend on its neighbours. -/
def lowerChar (c : Char) : List Char :=
  if c.toNat < 0x80 then [c.toLower]
  else if c.toNat = 0x130 then [Char.ofNat 0x69, Char.ofNat 0x307]
  else match caseRuns.findSome? (·.image? c.toNat) with
    | some n => [Char.ofNat n]
    | none => [c]

/-- **Lower case of a text**, given the characters before it, nearest first. A capital sigma
becomes a final one when a letter comes before it and none after. -/
def lowerAfter (before : List Char) : List Char → List Char
  | [] => []
  | c :: rest =>
    let here :=
      if c.toNat = 0x3A3 then
        if meetsCased before && !meetsCased rest then [Char.ofNat 0x3C2] else [Char.ofNat 0x3C3]
      else
        lowerChar c
    here ++ lowerAfter (c :: before) rest

/-- **Lower case of a text.** -/
def lower (s : String) : String := String.ofList (lowerAfter [] s.toList)

/-- Equal up to the case of `A` to `Z`. -/
def equalsIgnoringCase (s t : String) : Bool :=
  s.toList.map Char.toLower == t.toList.map Char.toLower

theorem equalsIgnoringCase_refl (s : String) : equalsIgnoringCase s s = true := by
  simp [equalsIgnoringCase]

end FormatStyle.Text
