import FormatStyle.Yaml.Event

/-! # Documents as trees

A document is a list of events in which aliases point back at anchored nodes. Its tree has the
aliases replaced by copies; scalars and tags are still as they were written. A document has
limits: collections nest at most so deep, and aliases are followed at most so often.
-/

namespace FormatStyle.Yaml

/-- **A document as written**, aliases replaced. -/
inductive Tree where
  | scalar (tag : Option String) (text : String) (plain : Bool)
  | sequence (tag : Option String) (items : List Tree)
  | mapping (tag : Option String) (entries : List (Tree × Tree))
  deriving Repr, Inhabited

/-- **The events inside a document.** An alias names its anchor by number. -/
inductive DocumentEvent where
  | aliasOf (anchor : Nat)
  | scalar (tag : Option String) (text : String) (plain : Bool)
  | sequenceStart (tag : Option String)
  | sequenceEnd
  | mappingStart (tag : Option String)
  | mappingEnd
  deriving DecidableEq, Repr

/-- **A document**: its events, and the position of the node of each numbered anchor. Of several
nodes with one number the last one counts. -/
structure Document where
  events : List DocumentEvent
  nodes : List (Nat × Nat)
  deriving Repr

namespace Document

/-- **A document that is being read**: its events so far, the last one first, and the anchors with
their numbers. -/
structure Draft where
  count : Nat
  events : List DocumentEvent
  nodes : List (Nat × Nat)
  anchors : List (String × Nat)
  deriving Repr

namespace Draft

def empty : Draft := ⟨0, [], [], []⟩

/-- Add an event. -/
def push (d : Draft) (event : DocumentEvent) : Draft :=
  { d with count := d.count + 1, events := event :: d.events }

/-- Let an anchor stand for the next event. Its number is the number of names so far, also where
the name is one of them. -/
def define (d : Draft) (anchor : Option String) : Draft :=
  match anchor with
  | none => d
  | some name =>
    let number := d.anchors.length
    let others := d.anchors.filter (·.1 != name)
    { d with nodes := (number, d.count) :: d.nodes, anchors := (name, number) :: others }

/-- Add an event of the stream. An alias has to name an anchor. -/
def add (d : Draft) : Event → Option Draft
  | .aliasOf name => (d.anchors.lookup name).map fun number => d.push (.aliasOf number)
  | .scalar anchor tag text plain => some ((d.define anchor).push (.scalar tag text plain))
  | .sequenceStart anchor tag => some ((d.define anchor).push (.sequenceStart tag))
  | .sequenceEnd => some (d.push .sequenceEnd)
  | .mappingStart anchor tag => some ((d.define anchor).push (.mappingStart tag))
  | .mappingEnd => some (d.push .mappingEnd)
  | .streamEnd | .documentStart | .documentEnd => some d

end Draft

/-- The greatest depth of collections. -/
def maxDepth : Nat := 128

/-- How often the aliases of a document may be followed. -/
def maxJumps (d : Document) : Nat := d.events.length * 100

mutual

/-- The tree of the node at the start of a list of events, with the events after it and the
number of aliases followed. -/
def node (d : Document) (depth : Nat) (events : List DocumentEvent) (jumps : Nat) :
    Option (Tree × List DocumentEvent × Nat) :=
  match events with
  | .aliasOf anchor :: rest =>
    if d.maxJumps < jumps + 1 then none
    else do
      let position ← d.nodes.lookup anchor
      let (tree, _, jumps) ← anchored d depth (d.events.drop position) (jumps + 1)
      return (tree, rest, jumps)
  | _ => anchored d depth events jumps
termination_by (depth, 1, events.length)

/-- The tree of a node that is no alias. -/
def anchored (d : Document) (depth : Nat) (events : List DocumentEvent) (jumps : Nat) :
    Option (Tree × List DocumentEvent × Nat) :=
  match events with
  | .scalar tag text plain :: rest => some (.scalar tag text plain, rest, jumps)
  | .sequenceStart tag :: rest =>
    match depth with
    | 0 => none
    | depth + 1 => do
      let (items, rest, jumps) ← items d depth rest jumps
      return (.sequence tag items, rest, jumps)
  | .mappingStart tag :: rest =>
    match depth with
    | 0 => none
    | depth + 1 => do
      let (entries, rest, jumps) ← entries d depth rest jumps
      return (.mapping tag entries, rest, jumps)
  | _ => none
termination_by (depth, 0, events.length)

/-- The items up to the end of a sequence. -/
def items (d : Document) (depth : Nat) (events : List DocumentEvent) (jumps : Nat) :
    Option (List Tree × List DocumentEvent × Nat) :=
  match events with
  | .sequenceEnd :: rest => some ([], rest, jumps)
  | events => do
    let (item, rest, jumps) ← node d depth events jumps
    if _shorter : rest.length < events.length then
      let (more, rest, jumps) ← items d depth rest jumps
      return (item :: more, rest, jumps)
    else none
termination_by (depth, 2, events.length)

/-- The entries up to the end of a mapping. -/
def entries (d : Document) (depth : Nat) (events : List DocumentEvent) (jumps : Nat) :
    Option (List (Tree × Tree) × List DocumentEvent × Nat) :=
  match events with
  | .mappingEnd :: rest => some ([], rest, jumps)
  | events => do
    let (key, afterKey, jumps) ← node d depth events jumps
    let (value, rest, jumps) ← node d depth afterKey jumps
    if _shorter : rest.length < events.length then
      let (more, rest, jumps) ← entries d depth rest jumps
      return ((key, value) :: more, rest, jumps)
    else none
termination_by (depth, 2, events.length)

end

/-- **The tree of a document.** -/
def tree? (d : Document) : Option Tree := (d.node maxDepth d.events 0).map (·.1)

/-- Read events up to the end of a document. -/
def read : Nat → Draft → EventReader → Option (Document × EventReader)
  | 0, _, _ => none
  | fuel + 1, draft, r => do
    let (event, r) ← r.next
    if event = .documentEnd || event = .streamEnd then
      return (⟨draft.events.reverse, draft.nodes⟩, r)
    else read fuel (← draft.add event) r

end Document

/-- **A stream**, up to its first document that is malformed. -/
structure Stream where
  documents : List Tree
  /-- Whether a malformed document follows. -/
  broken : Bool
  deriving Repr

namespace Stream

/-- Read the documents that are left. -/
def readFrom (eventFuel : Nat) : Nat → EventReader → Stream
  | 0, _ => ⟨[], true⟩
  | fuel + 1, r =>
    match r.next with
    | none => ⟨[], true⟩
    | some (.documentStart, r) =>
      match Document.read eventFuel .empty r with
      | none => ⟨[], true⟩
      | some (d, r) =>
        match d.tree? with
        | none => ⟨[], true⟩
        | some tree =>
          let rest := readFrom eventFuel fuel r
          ⟨tree :: rest.documents, rest.broken⟩
    | some (.streamEnd, _) => ⟨[], false⟩
    | some _ => ⟨[], true⟩

/-- **Read a text.** A text without any document has one that is empty. -/
def ofText (s : String) : Stream :=
  let cs := s.toList
  if !cs.all isAllowed then ⟨[], true⟩
  else
    let fuel := 16 * (cs.length + 8)
    let stream := readFrom fuel fuel (.start cs)
    if stream.documents.isEmpty && !stream.broken then ⟨[.scalar none "" true], false⟩
    else stream

end Stream

end FormatStyle.Yaml
