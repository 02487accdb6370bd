import FormatStyle.Yaml.Token.Scan

/-! # Reading tokens

A lexer gives the tokens of a text one by one and reads no further than it has to. A token waits
while it may still turn out to start a key, because the token for the key goes in front of it; a
text that breaks while it waits is malformed at that token.
-/

namespace FormatStyle.Yaml

/-- **A possible key**: the number of its first token and where it starts. A required one stands
where the collection has nothing but keys. -/
structure PossibleKey where
  required : Bool
  token : Nat
  index : Nat
  line : Nat
  column : Nat
  deriving DecidableEq, Repr

/-- **A lexer**: a position, the tokens that wait, and what decides about keys and indentation.
There is one entry of `keys` for the block context and one for each open flow collection, the
innermost first. -/
structure Lexer where
  cursor : Cursor
  waiting : List Token
  /-- The number of tokens that are taken. -/
  taken : Nat
  keyAllowed : Bool
  keys : List (Option PossibleKey)
  indent : Int
  outerIndents : List Int
  /-- The end of the text is reached. -/
  ended : Bool
  deriving Repr

namespace Lexer

/-- The start of a text. -/
def start (cs : List Char) : Lexer := ⟨.start cs, [], 0, true, [none], -1, [], false⟩

/-- A flow collection is open. -/
def inFlow (l : Lexer) : Bool := 1 < l.keys.length

/-- Add a token at the end. -/
def push (l : Lexer) (token : Token) : Lexer := { l with waiting := l.waiting ++ [token] }

/-- Add a token in front of the one with a number. -/
def insert (l : Lexer) (number : Nat) (token : Token) : Lexer :=
  { l with waiting := l.waiting.take (number - l.taken) ++ token ::
      l.waiting.drop (number - l.taken) }

/-- The possible key of the innermost collection. -/
def key? (l : Lexer) : Option PossibleKey := (l.keys.head?).getD none

def setKey (l : Lexer) (key : Option PossibleKey) : Lexer :=
  { l with keys := key :: l.keys.drop 1 }

/-- Give up the possible key of the innermost collection. A required one cannot be given up. -/
def dropKey (l : Lexer) : Option Lexer :=
  if l.key?.any (·.required) then none else some (l.setKey none)

/-- Note that a key may start here. -/
def saveKey (l : Lexer) : Option Lexer :=
  if l.keyAllowed then do
    let required := !l.inFlow && l.indent == l.cursor.column
    let key : PossibleKey :=
      ⟨required, l.taken + l.waiting.length, l.cursor.index, l.cursor.line, l.cursor.column⟩
    return (← l.dropKey).setKey (some key)
  else some l

/-- **A key is on one line and short**: give up those that are not. -/
def dropStale (l : Lexer) : Option Lexer :=
  let stale := fun (key : PossibleKey) =>
    key.line < l.cursor.line || key.index + 1024 < l.cursor.index
  if l.keys.any fun key? => key?.any fun key => stale key && key.required then none
  else some { l with keys := l.keys.map fun key? => key?.filter fun key => !stale key }

/-- Open a block collection at a column, unless one is open there. -/
def openBlock (l : Lexer) (column : Nat) (token : Token) (number : Option Nat) : Lexer :=
  if !l.inFlow && l.indent < column then
    let l := { l with indent := column, outerIndents := l.indent :: l.outerIndents }
    match number with
    | some n => l.insert n token
    | none => l.push token
  else l

/-- The columns that close before a column is reached, and those that stay open. -/
def closing (column : Int) : Int → List Int → Nat × Int × List Int
  | indent, [] => if column < indent then (1, -1, []) else (0, indent, [])
  | indent, outer :: rest =>
    if column < indent then
      let (count, left) := closing column outer rest
      (count + 1, left)
    else (0, indent, outer :: rest)

/-- Close the block collections that are indented more than a column. -/
def closeBlocks (l : Lexer) (column : Int) : Lexer :=
  if l.inFlow then l
  else
    let (count, indent, outer) := closing column l.indent l.outerIndents
    { l with
      waiting := l.waiting ++ List.replicate count .blockEnd
      indent := indent
      outerIndents := outer }

/-- Pass so many characters and add a token. -/
def take (l : Lexer) (count : Nat) (token : Token) : Lexer :=
  { l.push token with cursor := l.cursor.skip count }

/-- **Pass blanks, comments and line breaks.** A line break in block context allows a key. A byte
order mark in front of the text is passed like a blank, so it takes a column of its own. -/
def skipToToken : Nat → Lexer → Lexer
  | 0, l => l
  | fuel + 1, l =>
    let c := if l.cursor.index == 0 && l.cursor.peek?.any isByteOrderMark then l.cursor.skip 1
      else l.cursor
    let tabs := l.inFlow || !l.keyAllowed
    let c := (c.skipWhile fun b => b == ' ' || (tabs && b == '\t')).skipComment
    if c.peek?.any isBreak then
      skipToToken fuel { l with cursor := c.skipBreak, keyAllowed := l.keyAllowed || !l.inFlow }
    else { l with cursor := c }

/-- Add what a scanner read. -/
def scanned (l : Lexer) (read : Option (Token × Cursor)) : Option Lexer :=
  read.map fun (token, c) => { l.push token with cursor := c }

/-- The end of the text. -/
def fetchEnd (l : Lexer) : Option Lexer := do
  let c := l.cursor
  let c := if c.column = 0 then c else { c with line := c.line + 1, column := 0 }
  let l ← ({ l with cursor := c }.closeBlocks (-1)).dropKey
  return { l.push .streamEnd with keyAllowed := false, ended := true }

/-- The start or end of a document. -/
def fetchMarker (l : Lexer) (token : Token) : Option Lexer := do
  let l ← (l.closeBlocks (-1)).dropKey
  return { l.take 3 token with keyAllowed := false }

def fetchDirective (l : Lexer) : Option Lexer := do
  let l ← (l.closeBlocks (-1)).dropKey
  { l with keyAllowed := false }.scanned (Scan.directive l.cursor)

def fetchFlowStart (l : Lexer) (token : Token) : Option Lexer := do
  let l ← l.saveKey
  return { l.take 1 token with keys := none :: l.keys, keyAllowed := true }

def fetchFlowEnd (l : Lexer) (token : Token) : Option Lexer := do
  let l ← l.dropKey
  let keys := if l.inFlow then l.keys.drop 1 else l.keys
  return { l.take 1 token with keys := keys, keyAllowed := false }

def fetchFlowEntry (l : Lexer) : Option Lexer := do
  let l ← l.dropKey
  return { l.take 1 .flowEntry with keyAllowed := true }

/-- An item of a block sequence. -/
def fetchBlockEntry (l : Lexer) : Option Lexer :=
  if !l.inFlow && !l.keyAllowed then none
  else do
    let l ← (l.openBlock l.cursor.column .blockSequenceStart none).dropKey
    return { l.take 1 .blockEntry with keyAllowed := true }

/-- The mark of a key. -/
def fetchKey (l : Lexer) : Option Lexer :=
  if !l.inFlow && !l.keyAllowed then none
  else do
    let l ← (l.openBlock l.cursor.column .blockMappingStart none).dropKey
    return { l.take 1 .key with keyAllowed := !l.inFlow }

/-- The colon before a value. It makes a key of what may have started one. -/
def fetchValue (l : Lexer) : Option Lexer :=
  match l.key? with
  | some key =>
    let l := (l.insert key.token .key).openBlock key.column .blockMappingStart (some key.token)
    some { (l.setKey none).take 1 .value with keyAllowed := false }
  | none =>
    if !l.inFlow && !l.keyAllowed then none
    else
      let l := l.openBlock l.cursor.column .blockMappingStart none
      some { l.take 1 .value with keyAllowed := !l.inFlow }

/-- An anchor, alias, tag or quoted scalar: it may start a key, and none follows at once. -/
def fetchWord (l : Lexer) (scan : Cursor → Option (Token × Cursor)) : Option Lexer := do
  let l ← l.saveKey
  { l with keyAllowed := false }.scanned (scan l.cursor)

def fetchBlockScalar (l : Lexer) (literal : Bool) : Option Lexer := do
  let l ← l.dropKey
  let (text, c) ← Scan.block literal l.indent (l.cursor.skip 1)
  { l with keyAllowed := true }.scanned (some (.scalar (String.ofList text) false, c))

def fetchQuoted (l : Lexer) (single : Bool) : Option Lexer :=
  l.fetchWord fun c => do
    let (text, c) ← Scan.quoted single (c.rest.length + 1) [] (c.skip 1)
    return (.scalar (String.ofList text) false, c)

def fetchPlain (l : Lexer) : Option Lexer := do
  let l ← l.saveKey
  let (text, broken, c) ←
    Scan.plain l.inFlow (l.indent + 1).toNat (l.cursor.rest.length + 1) []
      ⟨[], [], [], false⟩ l.cursor
  { l with keyAllowed := broken }.scanned (some (.scalar (String.ofList text) true, c))

/-- The character here can start a plain scalar. -/
def startsPlain (l : Lexer) (b : Char) (after : List Char) : Bool :=
  if b == '-' then !after.head?.any isWhite
  else if b == '?' || b == ':' then !l.inFlow && !startsWithGap after
  else !isGap b && !isIndicator b

/-- **Read one more token**, together with those that its indentation implies. -/
def fetch (l : Lexer) : Option Lexer := do
  let l ← (skipToToken (l.cursor.rest.length + 1) l).dropStale
  let l := l.closeBlocks l.cursor.column
  match l.cursor.rest with
  | [] => l.fetchEnd
  | b :: after =>
    if l.cursor.column = 0 && b == '%' then l.fetchDirective
    else if l.cursor.atMarker '-' then l.fetchMarker .documentStart
    else if l.cursor.atMarker '.' then l.fetchMarker .documentEnd
    else if b == '[' then l.fetchFlowStart .flowSequenceStart
    else if b == '\x7b' then l.fetchFlowStart .flowMappingStart
    else if b == ']' then l.fetchFlowEnd .flowSequenceEnd
    else if b == '\x7d' then l.fetchFlowEnd .flowMappingEnd
    else if b == ',' then l.fetchFlowEntry
    else if b == '-' && startsWithGap after then l.fetchBlockEntry
    else if b == '?' && (l.inFlow || startsWithGap after) then l.fetchKey
    else if b == ':' && (l.inFlow || startsWithGap after) then l.fetchValue
    else if b == '*' then l.fetchWord fun c => do
      let (name, c) ← Scan.name (c.skip 1)
      return (.aliasOf name, c)
    else if b == '&' then l.fetchWord fun c => do
      let (name, c) ← Scan.name (c.skip 1)
      return (.anchor name, c)
    else if b == '!' then l.fetchWord (Scan.tag l.inFlow)
    else if b == '|' && !l.inFlow then l.fetchBlockScalar true
    else if b == '>' && !l.inFlow then l.fetchBlockScalar false
    else if b == '\x27' then l.fetchQuoted true
    else if b == '"' then l.fetchQuoted false
    else if l.startsPlain b after then l.fetchPlain
    else none

/-- Read tokens until the first one that waits can no longer start a key. -/
def settle : Nat → Lexer → Option Lexer
  | 0, _ => none
  | fuel + 1, l =>
    if l.waiting.isEmpty then if l.ended then none else do settle fuel (← l.fetch)
    else do
      let l ← l.dropStale
      if l.keys.any fun key? => key?.any (·.token == l.taken) then settle fuel (← l.fetch)
      else return l

/-- **The next token**, and the lexer at which it is the first that waits. -/
def peek (l : Lexer) : Option (Token × Lexer) := do
  let l ← settle (l.cursor.rest.length + 3) l
  return (← l.waiting.head?, l)

/-- Take the first token that waits. -/
def skip (l : Lexer) : Lexer := { l with waiting := l.waiting.drop 1, taken := l.taken + 1 }

end Lexer

end FormatStyle.Yaml
