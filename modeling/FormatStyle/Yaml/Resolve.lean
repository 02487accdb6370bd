import FormatStyle.Yaml.Node
import FormatStyle.Yaml.Tree

/-! # Trees as nodes

Scalars get their meaning here: an unquoted one by its text, a quoted one as a string, and one
with a core tag as the tag says. Any other tag of the document's own makes a tagged node. A
mapping with one key twice is refused.
-/

namespace FormatStyle.Yaml

namespace Node

/-- The node of a scalar with a meaning. -/
def ofScalar (s : String) : Scalar → Node
  | .null => null
  | .bool b => bool b
  | .int n => int n
  | .float x => float x
  | .text => str s

/-- A text without its first character, if that is a mark and not all of it. -/
def dropMark : List Char → List Char
  | '!' :: c :: rest => c :: rest
  | cs => cs

/-- **The name of a tag of the document's own**, which starts with a mark. The mark is no part of
the name, nor is a second one; the lone mark is a name of its own. -/
def ownTag? (tag : Option String) : Option String :=
  let cs := (tag.map String.toList).getD []
  if cs.head? == some '!' then some (String.ofList (dropMark (dropMark cs))) else none

mutual

/-- **The node of a tree.** -/
def ofTree? : Tree → Option Node
  | .scalar tag text plain =>
    match ownTag? tag with
    | some name => do return tagged name (ofScalar text (← Scalar.ofTagged none text plain))
    | none => (Scalar.ofTagged tag text plain).map (ofScalar text)
  | .sequence tag items => do
    let content := sequence (← ofItems? items)
    match ownTag? tag with
    | some name => some (tagged name content)
    | none => some content
  | .mapping tag entries => do
    let content := mapping (← ofEntries? [] entries)
    match ownTag? tag with
    | some name => some (tagged name content)
    | none => some content

/-- The nodes of a sequence. -/
def ofItems? : List Tree → Option (List Node)
  | [] => some []
  | tree :: rest => do
    let node ← ofTree? tree
    let nodes ← ofItems? rest
    return node :: nodes

/-- The entries of a mapping, after those that are already read. -/
def ofEntries? (read : Mapping) : List (Tree × Tree) → Option Mapping
  | [] => some read
  | (key, value) :: rest => do
    let key ← ofTree? key
    if Mapping.hasKey read key then none
    else
      let value ← ofTree? value
      ofEntries? (read ++ [(key, value)]) rest

end

end Node

/-- **The documents of a text**, up to the first that is malformed, which is none. -/
def documents (s : String) : List (Option Node) :=
  let stream := Stream.ofText s
  stream.documents.map Node.ofTree? ++ if stream.broken then [none] else []

end FormatStyle.Yaml
