import FormatStyle.Text.Utf8
import FormatStyle.Yaml.Cursor
import FormatStyle.Yaml.Token

/-! # Scanning scalars, tags and directives

Each scanner stands at the first character of what it reads and stops behind the last one.
-/

namespace FormatStyle.Yaml.Scan

/-! ## Quoted scalars -/

/-- The character that a letter after a backslash stands for. -/
def escaped? (letter : Char) : Option Char :=
  let table : List (Char × Nat) := [
    ('0', 0x00), ('a', 0x07), ('b', 0x08), ('t', 0x09), ('\t', 0x09), ('n', 0x0A), ('v', 0x0B),
    ('f', 0x0C), ('r', 0x0D), ('e', 0x1B), (' ', 0x20), ('"', 0x22), ('/', 0x2F), ('\\', 0x5C),
    ('N', 0x85), ('_', 0xA0), ('L', 0x2028), ('P', 0x2029)]
  (table.lookup letter).map Char.ofNat

/-- The number of hexadecimal digits after a letter that introduces them. -/
def escapeWidth? (letter : Char) : Option Nat :=
  [('x', 2), ('u', 4), ('U', 8)].lookup letter

/-- The number that exactly so many hexadecimal digits write. -/
def hexNumber? (width : Nat) (cs : List Char) : Option Nat :=
  if cs.length < width then none
  else (cs.take width).foldl (fun n? c => do return (← n?) * 16 + (← hexValue? c)) (some 0)

/-- **A quoted scalar** from behind its opening quote. In single quotes the quote is written
twice; in double quotes a backslash escapes. Line breaks are folded. -/
def quoted (single : Bool) : Nat → List Char → Cursor → Option (List Char × Cursor)
  | 0, _, _ => none
  | fuel + 1, read, c =>
    if c.atDocumentMarker then none
    else match c.rest with
      | [] => none
      | b :: after =>
        let quote := if single then '\x27' else '"'
        if single && b == quote && after.head? == some quote then
          quoted single fuel (quote :: read) (c.skip 2)
        else if b == quote then some (read.reverse, c.skip 1)
        else if !single && b == '\\' then
          match after with
          | [] => none
          | letter :: digits =>
            if isBreak letter then do
              let next := (c.skip 1).skipBreak
              let (gap, next) ← Gap.scan 0 next.rest.length ⟨[], [], [], true⟩ next
              quoted single fuel (gap.joined.reverse ++ read) next
            else match escaped? letter with
              | some char => quoted single fuel (char :: read) (c.skip 2)
              | none => do
                let width ← escapeWidth? letter
                let n ← hexNumber? width digits
                if (0xD800 ≤ n && n ≤ 0xDFFF) || 0x10FFFF < n then none
                else quoted single fuel (Char.ofNat n :: read) (c.skip (2 + width))
        else if isGap b then do
          let (gap, next) ← Gap.scanAt 0 c
          quoted single fuel (gap.joined.reverse ++ read) next
        else quoted single fuel (b :: read) (c.skip 1)

/-! ## Plain scalars -/

/-- A plain scalar that ends: its text, whether it ended at a line break, and the cursor. -/
def plainEnd (read : List Char) (gap : Gap) (c : Cursor) : Option (List Char × Bool × Cursor) :=
  some (read.reverse, gap.broken, c)

/-- **A plain scalar.** It ends before a colon or a comment, at a flow indicator in a flow
collection, and in block context where a line is indented less than the column. -/
def plain (inFlow : Bool) (column : Nat) :
    Nat → List Char → Gap → Cursor → Option (List Char × Bool × Cursor)
  | 0, _, _, _ => none
  | fuel + 1, read, gap, c =>
    match c.rest with
    | [] => plainEnd read gap c
    | b :: after =>
      if inFlow && b == ':' &&
          after.head?.any (fun n => isFlowIndicator n || n == '?') then none
      else if b == ':' && startsWithGap after then plainEnd read gap c
      else if inFlow && isFlowIndicator b then plainEnd read gap c
      else if isGap b then
        match Gap.scanAt column c with
        | none => none
        | some (gap, next) =>
          if !inFlow && next.column < column then plainEnd read gap next
          else if next.atDocumentMarker then plainEnd read gap next
          else if next.isAt '#' then plainEnd read gap next
          else plain inFlow column fuel read gap next
      else plain inFlow column fuel (b :: (gap.joined.reverse ++ read)) ⟨[], [], [], false⟩
        (c.skip 1)

/-! ## Block scalars -/

/-- **What becomes of the line breaks at the end** of a block scalar. -/
inductive Chomping where
  | strip
  | clip
  | keep
  deriving DecidableEq, Repr

def chomping? (c : Char) : Option Chomping :=
  if c == '+' then some .keep else if c == '-' then some .strip else none

/-- A number of columns after the mark of a block scalar; zero is refused. -/
def increment? (c : Cursor) : Option (Nat × Cursor) :=
  match c.peek? with
  | some d =>
    if d.isDigit then if d == '0' then none else some (d.toNat - '0'.toNat, c.skip 1)
    else some (0, c)
  | none => some (0, c)

/-- The two marks behind `|` or `>`, in either order. -/
def blockMarks (c : Cursor) : Option (Chomping × Nat × Cursor) :=
  match c.peek?.bind chomping? with
  | some chomping => do
    let (increment, c) ← increment? (c.skip 1)
    return (chomping, increment, c)
  | none => do
    let (increment, c) ← increment? c
    if increment = 0 then return (.clip, 0, c)
    match c.peek?.bind chomping? with
    | some chomping => return (chomping, increment, c.skip 1)
    | none => return (.clip, increment, c)

/-- Blank lines of a block scalar: the breaks, the widest indentation and the cursor at the next
text. An indentation of zero is not known yet. A tab in place of indentation is refused. -/
def blankLines (indent : Nat) : Nat → List Char → Nat → Cursor → Option (List Char × Nat × Cursor)
  | 0, breaks, widest, c => some (breaks, widest, c)
  | fuel + 1, breaks, widest, c =>
    let wanted := if indent = 0 then c.rest.length else indent - c.column
    let c := c.skip ((c.rest.take wanted).takeWhile (· == ' ')).length
    let widest := max widest c.column
    if (indent = 0 || c.column < indent) && c.isAt '\t' then none
    else if c.peek?.any isBreak then
      let (text, next) := c.takeBreak
      blankLines indent fuel (breaks ++ text) widest next
    else some (breaks, widest, c)

/-- The lines of a block scalar: what is read, the break after the last line, and the blank lines
behind it. -/
def blockLines (literal : Bool) (indent : Nat) :
    Nat → List Char → List Char → List Char → Bool → Cursor →
      Option (List Char × List Char × List Char × Cursor)
  | 0, _, _, _, _, _ => none
  | fuel + 1, read, lead, trailing, wasBlank, c =>
    if c.column = indent && !c.rest.isEmpty then
      let blank := c.peek?.any isWhite
      let joint :=
        if !literal && lead == ['\n'] && !wasBlank && !blank then
          if trailing.isEmpty then [' '] else trailing
        else lead ++ trailing
      let (line, c) := c.spanWhile fun b => !(isBreak b || b.toNat == 0)
      let (lead, next) := c.takeBreak
      match blankLines indent next.rest.length [] 0 next with
      | none => none
      | some (trailing, _, next) =>
        blockLines literal indent fuel (read ++ joint ++ line) lead trailing blank next
    else some (read, lead, trailing, c)

/-- **A block scalar** from behind its `|` or `>`, inside a collection at the given column. -/
def block (literal : Bool) (parent : Int) (c : Cursor) : Option (List Char × Cursor) := do
  let (chomping, increment, c) ← blockMarks c
  let c := (c.skipWhile isWhite).skipComment
  if !c.atLineEnd then none
  else
    let c := c.skipBreak
    let known := if increment = 0 then 0 else ((max parent 0) + increment).toNat
    let (trailing, widest, c) ← blankLines known c.rest.length [] 0 c
    let indent := if known = 0 then max (max widest (parent + 1).toNat) 1 else known
    let (read, lead, trailing, c) ←
      blockLines literal indent (c.rest.length + 1) [] [] trailing false c
    let kept := match chomping with
      | .strip => []
      | .clip => lead
      | .keep => lead ++ trailing
    return (read ++ kept, c)

/-! ## Tags, anchors and directives -/

/-- Characters of a tag; some belong to it only between angle brackets or in a directive. -/
def isUriChar (verbatim : Bool) (c : Char) : Bool :=
  isWordChar c || [';', '/', '?', ':', '@', '&', '=', '+', '$', '.', '%', '!', '~', '*', '\x27',
    '(', ')'].contains c || (verbatim && [',', '[', ']'].contains c)

/-- The bytes that a tag stands for, escapes undone. -/
def uriBytes : List Char → Option (List UInt8)
  | [] => some []
  | '%' :: high :: low :: rest => do
    let h ← hexValue? high
    let l ← hexValue? low
    return UInt8.ofNat (h * 16 + l) :: (← uriBytes rest)
  | '%' :: _ => none
  | c :: rest => do return c.toString.toUTF8.toList ++ (← uriBytes rest)

/-- **The rest of a tag** after what is already read of it. Something has to be there. -/
def uri (verbatim : Bool) (read : List Char) (c : Cursor) : Option (String × Cursor) := do
  let (more, next) := c.spanWhile (isUriChar verbatim)
  let text := read.drop 1 ++ more
  if read.isEmpty && more.isEmpty then none
  else match Text.decode (← uriBytes text) with
    | .ok s => return (s, next)
    | .error _ => none

/-- The handle of a tag: an exclamation mark, a word, and perhaps another mark. -/
def handle (c : Cursor) : Option (List Char × Cursor) :=
  if c.isAt '!' then
    let (word, next) := (c.skip 1).spanWhile isWordChar
    if next.isAt '!' then some ('!' :: word ++ ['!'], next.skip 1)
    else some ('!' :: word, next)
  else none

/-- **A tag.** The lone mark is a tag of its own. -/
def tag (inFlow : Bool) (c : Cursor) : Option (Token × Cursor) := do
  let (token, c) ←
    if c.rest.drop 1 |>.head? |> (· == some '<') then do
      let (suffix, c) ← uri true [] (c.skip 2)
      if c.isAt '>' then pure (Token.tag "" suffix, c.skip 1) else none
    else do
      let (word, c) ← handle c
      if 2 ≤ word.length && word.getLast? == some '!' then do
        let (suffix, c) ← uri false [] c
        pure (Token.tag (String.ofList word) suffix, c)
      else do
        let (suffix, c) ← uri false word c
        if suffix.isEmpty then pure (Token.tag "" "!", c) else pure (Token.tag "!" suffix, c)
  if (inFlow && c.isAt ',') || c.atGap then return (token, c) else none

/-- The name of an anchor or alias, from behind its mark. -/
def name (c : Cursor) : Option (String × Cursor) :=
  let (word, c) := c.spanWhile isWordChar
  let ends := c.atGap ||
    c.peek?.any fun b => ['?', ':', ',', ']', '\x7d', '%', '@', '\x60'].contains b
  if !word.isEmpty && ends then some (String.ofList word, c) else none

/-- A number of a directive, of at most nine digits. -/
def directiveNumber (c : Cursor) : Option (Nat × Cursor) :=
  let (digits, c) := c.spanWhile Char.isDigit
  if digits.isEmpty || 9 < digits.length then none
  else some (digits.foldl (fun n d => n * 10 + (d.toNat - '0'.toNat)) 0, c)

/-- **A directive** and the end of its line, from its percent sign on. -/
def directive (c : Cursor) : Option (Token × Cursor) := do
  let (word, c) := (c.skip 1).spanWhile isWordChar
  if !c.atGap then none
  else
    let c := c.skipWhile isWhite
    let (token, c) ←
      if word == ['Y', 'A', 'M', 'L'] then do
        let (major, c) ← directiveNumber c
        if !c.isAt '.' then none
        else
          let (minor, c) ← directiveNumber (c.skip 1)
          pure (Token.versionDirective major minor, c)
      else if word == ['T', 'A', 'G'] then do
        let (word, c) ← handle c
        if !(word == ['!'] || (2 ≤ word.length && word.getLast? == some '!')) then none
        else if !c.peek?.any isWhite then none
        else
          let (lead, c) ← uri true [] (c.skipWhile isWhite)
          if c.atGap then pure (Token.tagDirective (String.ofList word) lead, c) else none
      else none
    let c := (c.skipWhile isWhite).skipComment
    if c.atLineEnd then return (token, c.skipBreak) else none

end FormatStyle.Yaml.Scan
