import FormatStyle.Yaml.Node

/-! # Printing nodes

Nodes are written in block style, two columns to a level, a sequence under a key at the column of
the key. A string that would read as something else is quoted, one of several lines is a literal
block, and one with characters that cannot be shown is written with escapes. Lines are never
folded.
-/

namespace FormatStyle.Yaml

/-- **What the characters of a string allow.** -/
structure ScalarShape where
  /-- It goes over several lines. -/
  multiline : Bool
  plainAllowed : Bool
  singleQuotedAllowed : Bool
  literalAllowed : Bool
  deriving DecidableEq, Repr

namespace ScalarShape

/-- Characters that give a plain scalar another meaning when they come first. -/
def marksStart (c : Char) (rest : List Char) : Bool :=
  if c == '?' || c == ':' || c == '-' then startsWithGap rest else isIndicator c

/-- A colon before a gap, or a number sign after one, beyond the first character. -/
def marksInside : Char → List Char → Bool
  | _, [] => false
  | before, c :: rest =>
    (c == ':' && startsWithGap rest) || (c == '#' && isGap before) || marksInside c rest

/-- The string could be taken for syntax. -/
def hasIndicator (cs : List Char) : Bool :=
  cs.take 3 == ['-', '-', '-'] || cs.take 3 == ['.', '.', '.'] ||
    match cs with
    | [] => false
    | c :: rest => marksStart c rest || marksInside c rest

/-- Two neighbouring characters with the given properties. -/
def hasPair (first second : Char → Bool) : List Char → Bool
  | a :: b :: rest => (first a && second b) || hasPair first second (b :: rest)
  | _ => false

def isSpace (c : Char) : Bool := c == ' '

/-- **The shape of a string.** -/
def ofChars (cs : List Char) : ScalarShape :=
  let special := cs.any fun c => !isPrintable c
  let spaceBreak := hasPair isSpace isBreak cs
  let breakSpace := hasPair isBreak isSpace cs
  let edge := fun (c? : Option Char) => c?.any fun c => isSpace c || isBreak c
  let multiline := cs.any isBreak
  { multiline
    plainAllowed := !(special || spaceBreak || breakSpace || multiline || edge cs.head? ||
      edge cs.getLast? || hasIndicator cs)
    singleQuotedAllowed := !(special || spaceBreak || breakSpace)
    literalAllowed := !(special || spaceBreak || cs.getLast?.any isSpace) && !cs.isEmpty }

end ScalarShape

/-- **How a string is written.** -/
inductive ScalarStyle where
  | plain
  | singleQuoted
  | doubleQuoted
  | literal
  deriving DecidableEq, Repr

/-- The style of a string. A key on one line has no literal block. -/
def ScalarStyle.choose (s : String) (isKey : Bool) : ScalarStyle :=
  let cs := s.toList
  let shape := ScalarShape.ofChars cs
  let quoted := if shape.singleQuotedAllowed then singleQuoted else doubleQuoted
  if isKey && shape.multiline then doubleQuoted
  else if cs.contains '\n' then if shape.literalAllowed && !isKey then literal else doubleQuoted
  else if Scalar.ofPlain s == some .text && !Scalar.hasLeadingZero cs then
    if shape.plainAllowed then plain else quoted
  else quoted

/-- So many spaces. -/
def spaces (n : Nat) : String := String.ofList (List.replicate n ' ')

/-- The capital hexadecimal digits of a number, at least so many. -/
def hexDigits (width n : Nat) : String :=
  let digits := (Nat.toDigits 16 n).map Char.toUpper
  String.ofList (List.replicate (width - digits.length) '0' ++ digits)

/-- One character between double quotes. -/
def escapeChar (c : Char) : String :=
  let n := c.toNat
  if c == '"' then "\\\""
  else if c == '\\' then "\\\\"
  else if isPrintable c && !isBreak c then c.toString
  else if n == 0x00 then "\\0"
  else if n == 0x07 then "\\a"
  else if n == 0x08 then "\\b"
  else if n == 0x09 then "\\t"
  else if n == 0x0A then "\\n"
  else if n == 0x0B then "\\v"
  else if n == 0x0C then "\\f"
  else if n == 0x0D then "\\r"
  else if n == 0x1B then "\\e"
  else if n == 0x85 then "\\N"
  else if n == 0x2028 then "\\L"
  else if n == 0x2029 then "\\P"
  else if n ≤ 0xFF then "\\x" ++ hexDigits 2 n
  else if n ≤ 0xFFFF then "\\u" ++ hexDigits 4 n
  else "\\U" ++ hexDigits 8 n

/-- Lines that start at a column: the text after a break is indented. -/
def indentLines (column : Nat) : Bool → List Char → String
  | _, [] => ""
  | fresh, c :: rest =>
    if isBreak c then c.toString ++ indentLines column true rest
    else (if fresh then spaces column else "") ++ c.toString ++ indentLines column false rest

/-- A string between single quotes, each of its own quotes written twice. -/
def singleQuotedText (column : Nat) (s : String) : String :=
  let doubled := s.toList.flatMap fun c => if c == '\x27' then ['\x27', '\x27'] else [c]
  let last := if s.toList.getLast?.any isBreak then spaces column else ""
  "'" ++ indentLines column false doubled ++ last ++ "'"

/-- The marks after the bar of a literal block: an indentation where the first line is not plain,
and what becomes of the breaks at the end. -/
def literalMarks (cs : List Char) : String :=
  let indentation := if cs.head?.any fun c => c == ' ' || isBreak c then "2" else ""
  let chomping := match cs.reverse with
    | [] => "-"
    | [last] => if isBreak last then "+" else "-"
    | last :: before :: _ =>
      if !isBreak last then "-" else if isBreak before then "+" else ""
  indentation ++ chomping

/-- **A piece of output**, and whether it ends at the start of a new line. -/
structure Printed where
  text : String
  fresh : Bool
  deriving DecidableEq, Repr

/-- Put a text in front of a piece. -/
def Printed.after (lead : String) (p : Printed) : Printed := ⟨lead ++ p.text, p.fresh⟩

/-- One piece after another on a new line at a column. -/
def Printed.line (p q : Printed) (column : Nat) : Printed :=
  ⟨p.text ++ (if p.fresh then "" else "\n") ++ spaces column ++ q.text, q.fresh⟩

/-- Two pieces on one line. -/
def Printed.beside (p q : Printed) : Printed := ⟨p.text ++ q.text, q.fresh⟩

/-- A string in the style that suits it. Later lines start at the column. -/
def printString (s : String) (isKey : Bool) (column : Nat) : Printed :=
  match ScalarStyle.choose s isKey with
  | .plain => ⟨s, false⟩
  | .singleQuoted => ⟨singleQuotedText column s, false⟩
  | .doubleQuoted => ⟨"\"" ++ String.join (s.toList.map escapeChar) ++ "\"", false⟩
  | .literal =>
    ⟨"|" ++ literalMarks s.toList ++ "\n" ++ indentLines column true s.toList,
      s.toList.getLast?.any isBreak⟩

/-- Characters that a tag may hold without an escape. -/
def isTagChar (c : Char) : Bool :=
  isWordChar c || [';', '/', '?', ':', '@', '&', '=', '+', '$', ',', '.', '~', '*', '\x27', '(',
    ')', '[', ']'].contains c

/-- What follows the mark of a tag: its name, which may start with the mark itself. -/
def tagSuffix (tag : String) : List Char :=
  match tag.toList with
  | '!' :: rest => rest
  | cs => cs

/-- The characters of a tag, with escapes for the bytes of those that it may not hold. -/
def escapeTag (cs : List Char) : String :=
  String.join (cs.map fun c =>
    if isTagChar c then c.toString
    else String.join (c.toString.toUTF8.toList.map fun b => "%" ++ hexDigits 2 b.toNat))

/-- **A tag.** The lone mark has nothing behind it and is written in full. -/
def tagText (tag : String) : String :=
  let suffix := tagSuffix tag
  if suffix.isEmpty then "!<" ++ escapeTag ['!'] ++ ">" else "!" ++ escapeTag suffix

namespace Node

/-- The node is a mapping of one entry. -/
def isSingle : Node → Bool
  | mapping [_] => true
  | _ => false

/-- The node has a tag. -/
def isTagged : Node → Bool
  | tagged .. => true
  | _ => false

mutual

/-- **Nodes that can be printed.** In a mapping of one entry that has no tag itself, the key must
be neither tagged nor such a mapping; and a tagged node has no second tag. -/
def printable : Node → Bool
  | sequence items => allPrintable items
  | mapping entries => singleKeyFits entries && entriesPrintable entries
  | tagged _ content => !content.isTagged && match content with
    | mapping entries => entriesPrintable entries
    | other => printable other
  | _ => true

/-- All nodes of a list can be printed. -/
def allPrintable : List Node → Bool
  | [] => true
  | node :: rest => printable node && allPrintable rest

/-- All keys and values can be printed. -/
def entriesPrintable : List (Node × Node) → Bool
  | [] => true
  | (key, value) :: rest => printable key && printable value && entriesPrintable rest

/-- The key of a single entry does not hide the start of its mapping. -/
def singleKeyFits : List (Node × Node) → Bool
  | [(key, _)] => !key.isTagged && !key.isSingle
  | _ => true

end

/-- The length in bytes that counts for a key on one line. -/
def keyLength : Node → Nat
  | str s => s.utf8ByteSize
  | tagged tag content =>
    1 + (String.ofList (tagSuffix tag)).utf8ByteSize + keyLength content
  | sequence _ | mapping _ => 0
  | other => (other.scalarText?.getD "null").utf8ByteSize

/-- A key that can stand on one line before its colon. -/
def isSimpleKey (node : Node) : Bool :=
  node.keyLength ≤ 128 && match node with
    | str s => !s.toList.any isBreak
    | sequence items => items.isEmpty
    | mapping entries => entries.isEmpty
    | tagged _ (str s) => !s.toList.any isBreak
    | tagged _ (sequence items) => items.isEmpty
    | tagged _ (mapping entries) => entries.isEmpty
    | _ => true

/-- **Where a node is written.** -/
structure Place where
  /-- The column of the collection around it, none at the root. -/
  column : Option Nat
  /-- It is the key or value of an entry. -/
  inMapping : Bool
  /-- It is a key on one line. -/
  isKey : Bool
  /-- Nothing but indentation and indicators stand before it on its line. -/
  opensLine : Bool
  deriving DecidableEq, Repr

namespace Place

/-- The column of the entries or items of a collection in this place. -/
def inner (place : Place) (compact : Bool) : Nat :=
  match place.column with
  | none => 0
  | some column => if compact then column else column + 2

/-- A space, where something stands before the node on its line. -/
def gap (place : Place) : String := if place.column.isSome then " " else ""

end Place

/-- The start of a block collection: on the same line where nothing else stands on it. -/
def openBlock (place : Place) (column : Nat) (body : Printed) : Printed :=
  if place.opensLine then body.after place.gap
  else Printed.line ⟨"", false⟩ body column

mutual

/-- **Print a node** after the indicator before it. -/
def print (place : Place) : Node → Printed
  | null => ⟨place.gap ++ "null", false⟩
  | bool b => ⟨place.gap ++ toString b, false⟩
  | int n => ⟨place.gap ++ toString n, false⟩
  | float x => ⟨place.gap ++ floatText x, false⟩
  | str s => (printString s place.isKey ((place.column.getD 0) + 2)).after place.gap
  | sequence [] => ⟨place.gap ++ "[]", false⟩
  | sequence (item :: items) =>
    let column := place.inner (place.inMapping && !place.opensLine)
    openBlock place column (printItems column (item :: items))
  | mapping [] => ⟨place.gap ++ "\x7b\x7d", false⟩
  | mapping (entry :: entries) =>
    let column := place.inner false
    openBlock place column (printEntries column (entry :: entries))
  | tagged tag content =>
    (printTagged place content).after (place.gap ++ tagText tag)

/-- The content of a tagged node, after the tag. -/
def printTagged (place : Place) : Node → Printed
  | sequence (item :: items) =>
    let column := place.inner place.inMapping
    Printed.line ⟨"", false⟩ (printItems column (item :: items)) column
  | mapping (entry :: entries) =>
    let column := place.inner false
    Printed.line ⟨"", false⟩ (printEntries column (entry :: entries)) column
  | str s => (printString s place.isKey ((place.column.getD 0) + 2)).after " "
  | null => ⟨" null", false⟩
  | bool b => ⟨" " ++ toString b, false⟩
  | int n => ⟨" " ++ toString n, false⟩
  | float x => ⟨" " ++ floatText x, false⟩
  | sequence [] => ⟨" []", false⟩
  | mapping [] => ⟨" \x7b\x7d", false⟩
  | tagged _ content => printTagged place content

/-- The items of a sequence, the first one on the current line. -/
def printItems (column : Nat) : List Node → Printed
  | [] => ⟨"", false⟩
  | [item] => (print ⟨some column, false, false, true⟩ item).after "-"
  | item :: rest =>
    ((print ⟨some column, false, false, true⟩ item).after "-").line
      (printItems column rest) column

/-- One entry: on one line if the key allows it. -/
def printEntry (column : Nat) : Node × Node → Printed
  | (key, value) =>
    if key.isSimpleKey then
      ((print ⟨none, true, true, true⟩ key).after "").beside
        ((print ⟨some column, true, false, false⟩ value).after ":")
    else
      ((print ⟨some column, true, false, true⟩ key).after "?").line
        ((print ⟨some column, true, false, true⟩ value).after ":") column

/-- The entries of a mapping, the first one on the current line. -/
def printEntries (column : Nat) : List (Node × Node) → Printed
  | [] => ⟨"", false⟩
  | [entry] => printEntry column entry
  | entry :: rest => (printEntry column entry).line (printEntries column rest) column

end

/-- **The text of a node**, with a line break at its end; none if it cannot be printed. -/
def render? (node : Node) : Option String :=
  if node.printable then
    let p := print ⟨none, false, false, true⟩ node
    some (p.text ++ if p.fresh then "" else "\n")
  else
    none

end Node

end FormatStyle.Yaml
