import FormatStyle.Decimal.Layout
import FormatStyle.Text.Character
import FormatStyle.Yaml.Scalar
import FormatStyle.Yaml.Tree

/-! # Plain data

What a manifest consists of before it is understood: numbers, texts, lists, and objects whose keys
are texts in order. A YAML document is read as plain data with the text of a scalar key as the
key; of several entries with one key the last one counts, and what is no number is null.
-/

namespace FormatStyle

open Decimal Yaml

/-- **Plain data.** The keys of an object are in order, each once. -/
inductive Datum where
  | null
  | bool (b : Bool)
  | int (n : Int)
  | float (x : Binary64)
  | text (s : String)
  | list (items : List Datum)
  | object (entries : List (String × Datum))
  deriving Repr, Inhabited

namespace Datum

/-- The text of a number that is no integer. -/
def floatText : Binary64 → String
  | .finite negative mantissa exponent => signedLayout.finite negative mantissa exponent
  | .nan | .infinity _ => "null"

/-- A character inside a quoted text. -/
def escape (c : Char) : List Char :=
  if c = '"' then ['\\', '"']
  else if c = '\\' then ['\\', '\\']
  else if c = '\n' then ['\\', 'n']
  else if c = '\r' then ['\\', 'r']
  else if c = '\t' then ['\\', 't']
  else if c = '\x08' then ['\\', 'b']
  else if c = '\x0c' then ['\\', 'f']
  else if c.toNat < 0x20 then
    '\\' :: 'u' :: '0' :: '0' :: [Nat.digitChar (c.toNat / 16), Nat.digitChar (c.toNat % 16)]
  else [c]

/-- A text in quotes. -/
def quote (s : String) : String := String.ofList ('"' :: s.toList.flatMap escape ++ ['"'])

mutual

/-- **Plain data in a message**, on one line without blanks. -/
def display : Datum → String
  | null => "null"
  | bool b => toString b
  | int n => toString n
  | float x => floatText x
  | text s => quote s
  | list items => "[" ++ ",".intercalate (displayItems items) ++ "]"
  | object entries => "\x7b" ++ ",".intercalate (displayEntries entries) ++ "\x7d"

/-- The items of a list in a message. -/
def displayItems : List Datum → List String
  | [] => []
  | item :: rest => display item :: displayItems rest

/-- The entries of an object in a message. -/
def displayEntries : List (String × Datum) → List String
  | [] => []
  | (key, value) :: rest => (quote key ++ ":" ++ display value) :: displayEntries rest

end

/-- Put an entry where its key belongs, in the place of one with the same key. -/
def insert (entries : List (String × Datum)) (key : String) (value : Datum) :
    List (String × Datum) :=
  match entries with
  | [] => [(key, value)]
  | (k, v) :: rest =>
    if key = k then (key, value) :: rest
    else if key < k then (key, value) :: (k, v) :: rest
    else (k, v) :: insert rest key value

/-- The object of entries in any order. -/
def ofEntries (entries : List (String × Datum)) : Datum :=
  object (entries.foldl (fun read entry => insert read entry.1 entry.2) [])

/-- The number, or null where there is none. -/
def ofFloat : Binary64 → Datum
  | .finite negative mantissa exponent => float (.finite negative mantissa exponent)
  | .nan | .infinity _ => null

/-- The datum of a scalar with a meaning. -/
def ofScalar (s : String) : Scalar → Datum
  | .null => null
  | .bool b => bool b
  | .int n => int n
  | .float x => ofFloat x
  | .text => text s

/-- A tag of the document's own. -/
def isOwnTag (tag : Option String) : Bool := (tag.map String.toList).any (·.head? == some '!')

mutual

/-- **The datum of a tree.** Tags of the document's own are refused. -/
def ofTree? : Tree → Option Datum
  | .scalar tag s plain =>
    if isOwnTag tag then none else (Scalar.ofTagged tag s plain).map (ofScalar s)
  | .sequence tag items => if isOwnTag tag then none else list <$> ofItems? items
  | .mapping tag entries =>
    if isOwnTag tag then none else ofEntries <$> ofEntries? entries

/-- The data of a sequence. -/
def ofItems? : List Tree → Option (List Datum)
  | [] => some []
  | tree :: rest => do
    let item ← ofTree? tree
    let items ← ofItems? rest
    return item :: items

/-- The entries of a mapping, whose keys are scalars. -/
def ofEntries? : List (Tree × Tree) → Option (List (String × Datum))
  | [] => some []
  | (.scalar _ key _, value) :: rest => do
    let value ← ofTree? value
    let entries ← ofEntries? rest
    return (key, value) :: entries
  | _ => none

end

/-- **Read one document** as plain data. -/
def ofYaml? (s : String) : Option Datum :=
  match Stream.ofText s with
  | ⟨[tree], false⟩ => ofTree? tree
  | _ => none

/-- The value under a key. -/
def get? : Datum → String → Option Datum
  | object entries, key => entries.lookup key
  | _, _ => none

/-- The text, if the datum is one. -/
def text? : Datum → Option String
  | text s => some s
  | _ => none

end Datum

end FormatStyle
