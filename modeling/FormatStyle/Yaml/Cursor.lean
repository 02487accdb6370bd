import FormatStyle.Yaml.Character

/-! # Reading positions

A cursor is the text that is left, with the place that it starts at. Scanners take a cursor and
give one back; they fail without saying why, since no reader of the result tells one syntax error
from another.
-/

namespace FormatStyle.Yaml

/-- **A position in a text**: what is left of it, how many characters came before, and the line
and the column. -/
structure Cursor where
  rest : List Char
  index : Nat
  line : Nat
  column : Nat
  deriving Repr

namespace Cursor

/-- The start of a text. -/
def start (cs : List Char) : Cursor := ⟨cs, 0, 0, 0⟩

/-- Pass so many characters of the line. -/
def skip (c : Cursor) (count : Nat) : Cursor :=
  ⟨c.rest.drop count, c.index + count, c.line, c.column + count⟩

/-- Pass the characters of the line that have a property. -/
def skipWhile (c : Cursor) (p : Char → Bool) : Cursor := c.skip (c.rest.takeWhile p).length

/-- The characters from here on that have a property, and the cursor after them. -/
def spanWhile (c : Cursor) (p : Char → Bool) : List Char × Cursor :=
  (c.rest.takeWhile p, c.skipWhile p)

/-- **Pass a line break**, if one is here, and give it as it counts in a scalar: as a line feed,
unless it is a separator of lines or paragraphs. -/
def takeBreak (c : Cursor) : List Char × Cursor :=
  match c.rest with
  | '\r' :: '\n' :: rest => (['\n'], ⟨rest, c.index + 2, c.line + 1, 0⟩)
  | b :: rest =>
    if isBreak b then
      let n := b.toNat
      (if n == 0x2028 || n == 0x2029 then [b] else ['\n'], ⟨rest, c.index + 1, c.line + 1, 0⟩)
    else ([], c)
  | [] => ([], c)

/-- Pass a line break, if one is here. -/
def skipBreak (c : Cursor) : Cursor := c.takeBreak.2

/-- A gap follows at once. -/
def atGap (c : Cursor) : Bool := startsWithGap c.rest

/-- The text ends here or the line does. -/
def atLineEnd (c : Cursor) : Bool :=
  match c.rest with
  | [] => true
  | b :: _ => isBreak b || b.toNat == 0

/-- The character here, if there is one. -/
def peek? (c : Cursor) : Option Char := c.rest.head?

/-- The given character is here. -/
def isAt (c : Cursor) (char : Char) : Bool := c.peek? == some char

/-- Three of a character and a gap stand at the start of the line. -/
def atMarker (c : Cursor) (char : Char) : Bool :=
  c.column == 0 && c.rest.take 3 == [char, char, char] && startsWithGap (c.rest.drop 3)

/-- The mark that starts or ends a document stands here. -/
def atDocumentMarker (c : Cursor) : Bool := c.atMarker '-' || c.atMarker '.'

/-- Pass a comment, if one is here, up to the end of its line. -/
def skipComment (c : Cursor) : Cursor :=
  if c.isAt '#' then c.skipWhile fun b => !(isBreak b || b.toNat == 0) else c

end Cursor

/-- **A gap inside a scalar**: blanks on one line, or line breaks with blank lines between. -/
structure Gap where
  /-- The blanks, as long as there is no break. -/
  white : List Char
  /-- The first break. -/
  first : List Char
  /-- The breaks after the first. -/
  more : List Char
  /-- Whether there was a break. -/
  broken : Bool
  deriving DecidableEq, Repr

namespace Gap

/-- What a gap stands for: a single break is a space, several lose the first one. -/
def joined (g : Gap) : List Char :=
  if g.broken then
    if g.first = ['\n'] then if g.more.isEmpty then [' '] else g.more
    else g.first ++ g.more
  else g.white

/-- **Pass a gap**, starting after what is already read of it. A tab that indents a line less than
the given column is refused. -/
def scan (limit : Nat) : Nat → Gap → Cursor → Option (Gap × Cursor)
  | 0, g, c => some (g, c)
  | fuel + 1, g, c =>
    match c.rest with
    | [] => some (g, c)
    | b :: _ =>
      if isWhite b then
        if g.broken then
          if b == '\t' && c.column < limit then none else scan limit fuel g (c.skip 1)
        else scan limit fuel { g with white := g.white ++ [b] } (c.skip 1)
      else if isBreak b then
        let (text, next) := c.takeBreak
        if g.broken then scan limit fuel { g with more := g.more ++ text } next
        else scan limit fuel { g with white := [], first := text, broken := true } next
      else some (g, c)

/-- Pass the gap at a cursor. -/
def scanAt (limit : Nat) (c : Cursor) : Option (Gap × Cursor) :=
  scan limit c.rest.length ⟨[], [], [], false⟩ c

end Gap

end FormatStyle.Yaml
