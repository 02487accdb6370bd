import FormatStyle.Yaml.Token.Lexer

/-! # YAML events

The structure of a stream, flattened: collections open and close, scalars and aliases stand in
between. The reader is a machine with a stack of states; each step looks at one token and gives
one event.
-/

namespace FormatStyle.Yaml

/-- **Events.** A tag is whole: its handle is replaced by what it stands for. -/
inductive Event where
  | streamEnd
  | documentStart
  | documentEnd
  | aliasOf (name : String)
  | scalar (anchor tag : Option String) (text : String) (plain : Bool)
  | sequenceStart (anchor tag : Option String)
  | sequenceEnd
  | mappingStart (anchor tag : Option String)
  | mappingEnd
  deriving DecidableEq, Repr

/-- **What the reader expects next.** -/
inductive Expectation where
  /-- A document, whose start may be left out at the start of the stream. -/
  | document (implicit : Bool)
  | documentContent
  | documentEnd
  | blockNode
  | blockSequenceEntry (first : Bool)
  | indentlessEntry
  | blockMappingKey (first : Bool)
  | blockMappingValue
  | flowSequenceEntry (first : Bool)
  | pairKey
  | pairValue
  | pairEnd
  | flowMappingKey (first : Bool)
  | flowMappingValue (empty : Bool)
  | nothing
  deriving DecidableEq, Repr

/-- **A reader of events.** -/
structure EventReader where
  lexer : Lexer
  expected : Expectation
  later : List Expectation
  /-- What the handles of tags stand for in this document. -/
  handles : List (String × String)
  deriving Repr

namespace EventReader

/-- A reader at the start of a text. -/
def start (cs : List Char) : EventReader := ⟨.start cs, .document true, [], []⟩

/-- The next token stays where it is. -/
def peek (r : EventReader) : Option (Token × EventReader) := do
  let (token, lexer) ← r.lexer.peek
  return (token, { r with lexer })

/-- Take the next token. -/
def skip (r : EventReader) : EventReader := { r with lexer := r.lexer.skip }

def expect (r : EventReader) (e : Expectation) : EventReader := { r with expected := e }

/-- Expect what was put off last. -/
def resume (r : EventReader) : EventReader :=
  { r with expected := r.later.head?.getD .nothing, later := r.later.drop 1 }

/-- Put something off. -/
def postpone (r : EventReader) (e : Expectation) : EventReader := { r with later := e :: r.later }

/-- A node that is not written. -/
def emptyNode : Event := .scalar none none "" true

/-- The handles that need no directive. -/
def defaultHandles : List (String × String) := [("!", "!"), ("!!", "tag:yaml.org,2002:")]

/-- The directives of a document. A version is named once and is `1.1` or `1.2`, and a handle is
defined once. -/
def directives : Nat → Bool → EventReader → Option EventReader
  | 0, _, _ => none
  | fuel + 1, versioned, r => do
    let (token, r) ← r.peek
    match token with
    | .versionDirective major minor =>
      if versioned || major != 1 || (minor != 1 && minor != 2) then none
      else directives fuel true r.skip
    | .tagDirective handle lead =>
      if (r.handles.lookup handle).isSome then none
      else directives fuel versioned { r.skip with handles := r.handles ++ [(handle, lead)] }
    | _ =>
      let more := defaultHandles.filter fun entry => (r.handles.lookup entry.1).isNone
      return { r with handles := r.handles ++ more }

/-- Pass the marks that end a document. -/
def skipEnds : Nat → EventReader → Option (Token × EventReader)
  | 0, _ => none
  | fuel + 1, r => do
    let (token, r) ← r.peek
    if token = .documentEnd then skipEnds fuel r.skip else return (token, r)

/-- A document, or the end of the stream. -/
def document (r : EventReader) (implicit : Bool) : Option (Event × EventReader) := do
  let fuel := r.lexer.cursor.rest.length + r.lexer.waiting.length + 2
  let (token, r) ← if implicit then r.peek else skipEnds fuel r
  match token with
  | .streamEnd => return (.streamEnd, (r.skip).expect .nothing)
  | .versionDirective .. | .tagDirective .. | .documentStart => do
    let r ← directives fuel false { r with handles := [] }
    let (token, r) ← r.peek
    if token = .documentStart then
      return (.documentStart, (r.skip.postpone .documentEnd).expect .documentContent)
    else none
  | _ =>
    if implicit then
      return (.documentStart,
        ({ r with handles := defaultHandles }.postpone .documentEnd).expect .blockNode)
    else none

/-- The tag that a handle and a suffix make. -/
def wholeTag (r : EventReader) (handle suffix : String) : Option String :=
  if handle.isEmpty then some suffix else (r.handles.lookup handle).map (· ++ suffix)

/-- The anchor and the tag in front of a node, in either order. -/
def properties (r : EventReader) :
    Option (Option String × Option (String × String) × EventReader) := do
  let (token, r) ← r.peek
  match token with
  | .anchor name => do
    let (token, r) ← r.skip.peek
    match token with
    | .tag handle suffix => return (some name, some (handle, suffix), r.skip)
    | _ => return (some name, none, r)
  | .tag handle suffix => do
    let (token, r) ← r.skip.peek
    match token with
    | .anchor name => return (some name, some (handle, suffix), r.skip)
    | _ => return (none, some (handle, suffix), r)
  | _ => return (none, none, r)

/-- **A node.** Its content may be left out where it has an anchor or a tag. -/
def node (r : EventReader) (block indentless : Bool) : Option (Event × EventReader) := do
  let (token, r) ← r.peek
  if let .aliasOf name := token then return (.aliasOf name, r.skip.resume)
  let (anchor, parts, r) ← r.properties
  let tag ← match parts with
    | some (handle, suffix) => some <$> r.wholeTag handle suffix
    | none => pure none
  let (token, r) ← r.peek
  if indentless && token = .blockEntry then
    return (.sequenceStart anchor tag, r.expect .indentlessEntry)
  match token with
  | .scalar text plain => return (.scalar anchor tag text plain, r.skip.resume)
  | .flowSequenceStart =>
    return (.sequenceStart anchor tag, r.expect (.flowSequenceEntry true))
  | .flowMappingStart => return (.mappingStart anchor tag, r.expect (.flowMappingKey true))
  | .blockSequenceStart =>
    if block then return (.sequenceStart anchor tag, r.expect (.blockSequenceEntry true))
    else emptyOr r anchor tag
  | .blockMappingStart =>
    if block then return (.mappingStart anchor tag, r.expect (.blockMappingKey true))
    else emptyOr r anchor tag
  | _ => emptyOr r anchor tag
where
  /-- A node that has only an anchor or a tag. -/
  emptyOr (r : EventReader) (anchor tag : Option String) : Option (Event × EventReader) :=
    if anchor.isSome || tag.isSome then some (.scalar anchor tag "" true, r.resume) else none

/-- A node unless one of the given tokens comes, which leave it out. What follows the node is
expected after it. -/
def nodeUnless (r : EventReader) (stops : List Token) (block indentless : Bool)
    (follow : Expectation) : Option (Event × EventReader) := do
  let (token, r) ← r.peek
  if stops.contains token then return (emptyNode, r.expect follow)
  else (r.postpone follow).node block indentless

def blockSequenceEntry (r : EventReader) : Option (Event × EventReader) := do
  let (token, r) ← r.peek
  match token with
  | .blockEntry =>
    r.skip.nodeUnless [.blockEntry, .blockEnd] true false (.blockSequenceEntry false)
  | .blockEnd => return (.sequenceEnd, r.skip.resume)
  | _ => none

/-- An item of a sequence that is not indented below its key. -/
def indentlessEntry (r : EventReader) : Option (Event × EventReader) := do
  let (token, r) ← r.peek
  match token with
  | .blockEntry =>
    r.skip.nodeUnless [.blockEntry, .key, .value, .blockEnd] true false .indentlessEntry
  | _ => return (.sequenceEnd, r.resume)

def blockMappingKey (r : EventReader) : Option (Event × EventReader) := do
  let (token, r) ← r.peek
  match token with
  | .key => r.skip.nodeUnless [.key, .value, .blockEnd] true true .blockMappingValue
  | .blockEnd => return (.mappingEnd, r.skip.resume)
  | _ => none

def blockMappingValue (r : EventReader) : Option (Event × EventReader) := do
  let (token, r) ← r.peek
  match token with
  | .value => r.skip.nodeUnless [.key, .value, .blockEnd] true true (.blockMappingKey false)
  | _ => return (emptyNode, r.expect (.blockMappingKey false))

/-- Pass the comma before an entry that is not the first. -/
def flowSeparator (r : EventReader) (first : Bool) : Option (Token × EventReader) := do
  let (token, r) ← r.peek
  if first then return (token, r)
  else if token = .flowEntry then r.skip.peek
  else none

/-- An item of a flow sequence, which may be a single pair. -/
def flowSequenceEntry (r : EventReader) (first : Bool) : Option (Event × EventReader) := do
  let (token, r) ← r.peek
  if token = .flowSequenceEnd then return (.sequenceEnd, r.skip.resume)
  let (token, r) ← r.flowSeparator first
  match token with
  | .key => return (.mappingStart none none, r.skip.expect .pairKey)
  | .flowSequenceEnd => return (.sequenceEnd, r.skip.resume)
  | _ => (r.postpone (.flowSequenceEntry false)).node false false

/-- The key of a single pair. Where it is left out, the token after it is lost. -/
def pairKey (r : EventReader) : Option (Event × EventReader) := do
  let (token, r) ← r.peek
  if [Token.value, .flowEntry, .flowSequenceEnd].contains token then
    return (emptyNode, r.skip.expect .pairValue)
  else (r.postpone .pairValue).node false false

def pairValue (r : EventReader) : Option (Event × EventReader) := do
  let (token, r) ← r.peek
  match token with
  | .value => r.skip.nodeUnless [.flowEntry, .flowSequenceEnd] false false .pairEnd
  | _ => return (emptyNode, r.expect .pairEnd)

def flowMappingKey (r : EventReader) (first : Bool) : Option (Event × EventReader) := do
  let (token, r) ← r.peek
  if token = .flowMappingEnd then return (.mappingEnd, r.skip.resume)
  let (token, r) ← r.flowSeparator first
  match token with
  | .key =>
    r.skip.nodeUnless [.value, .flowEntry, .flowMappingEnd] false false (.flowMappingValue false)
  | .flowMappingEnd => return (.mappingEnd, r.skip.resume)
  | _ => (r.postpone (.flowMappingValue true)).node false false

def flowMappingValue (r : EventReader) (empty : Bool) : Option (Event × EventReader) :=
  if empty then some (emptyNode, r.expect (.flowMappingKey false))
  else do
    let (token, r) ← r.peek
    match token with
    | .value =>
      r.skip.nodeUnless [.flowEntry, .flowMappingEnd] false false (.flowMappingKey false)
    | _ => return (emptyNode, r.expect (.flowMappingKey false))

/-- The first token of a collection is the one that opens it. -/
def opened (r : EventReader) (first : Bool) : Option EventReader :=
  if first then do return (← r.peek).2.skip else some r

/-- **The next event.** -/
def next (r : EventReader) : Option (Event × EventReader) :=
  match r.expected with
  | .document implicit => r.document implicit
  | .documentContent => do
    let (token, r) ← r.peek
    match token with
    | .versionDirective .. | .tagDirective .. | .documentStart | .documentEnd | .streamEnd =>
      return (emptyNode, r.resume)
    | _ => r.node true false
  | .documentEnd => do
    let (token, r) ← r.peek
    let r := if token = .documentEnd then r.skip else r
    return (.documentEnd, r.expect (.document false))
  | .blockNode => r.node true false
  | .blockSequenceEntry first => do (← r.opened first).blockSequenceEntry
  | .indentlessEntry => r.indentlessEntry
  | .blockMappingKey first => do (← r.opened first).blockMappingKey
  | .blockMappingValue => r.blockMappingValue
  | .flowSequenceEntry first => do (← r.opened first).flowSequenceEntry first
  | .pairKey => r.pairKey
  | .pairValue => r.pairValue
  | .pairEnd => some (.mappingEnd, r.expect (.flowSequenceEntry false))
  | .flowMappingKey first => do (← r.opened first).flowMappingKey first
  | .flowMappingValue empty => r.flowMappingValue empty
  | .nothing => none

end EventReader

end FormatStyle.Yaml
