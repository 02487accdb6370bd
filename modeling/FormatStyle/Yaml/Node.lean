import FormatStyle.Decimal.Layout
import FormatStyle.Yaml.Scalar

/-! # YAML nodes

What a document holds once anchors are followed and scalars are understood. The entries of a
mapping keep their order, but two mappings are the same when they have the same entries.
-/

namespace FormatStyle.Yaml

open FormatStyle.Decimal

/-- **Nodes.** A tagged node is neither a scalar nor a collection. -/
inductive Node where
  | null
  | bool (b : Bool)
  | int (n : Int)
  | float (x : Binary64)
  | str (s : String)
  | sequence (items : List Node)
  | mapping (entries : List (Node × Node))
  | tagged (tag : String) (content : Node)
  deriving Repr, Inhabited

/-- The entries of a mapping. -/
abbrev Mapping := List (Node × Node)

/-- The text of a number. -/
def floatText : Binary64 → String
  | .nan => ".nan"
  | .infinity false => ".inf"
  | .infinity true => "-.inf"
  | .finite negative mantissa exponent => standardLayout.finite negative mantissa exponent

namespace Node

mutual

/-- **The same node**, whatever the order of mappings. -/
def same : Node → Node → Bool
  | null, null => true
  | bool a, bool b => a == b
  | int a, int b => a == b
  | float a, float b => a.same b
  | str a, str b => a == b
  | sequence a, sequence b => sameItems a b
  | mapping a, mapping b => a.length == b.length && within a b
  | tagged s a, tagged t b => s == t && same a b
  | _, _ => false

/-- The same nodes in the same order. -/
def sameItems : List Node → List Node → Bool
  | [], [] => true
  | a :: as, b :: bs => same a b && sameItems as bs
  | _, _ => false

/-- Each entry of the first mapping is one of the second. -/
def within : List (Node × Node) → List (Node × Node) → Bool
  | [], _ => true
  | (key, value) :: rest, others =>
    others.any (fun other => same key other.1 && same value other.2) && within rest others

end

/-- The text of a scalar as the program sees it: a string, a flag or a number. -/
def scalarText? : Node → Option String
  | str s => some s
  | bool b => some (toString b)
  | int n => some (toString n)
  | float x => some (floatText x)
  | _ => none

/-- The string, if the node is one. -/
def str? : Node → Option String
  | str s => some s
  | _ => none

/-- **The name that a key writes**: its string, whatever tag it is under. -/
def keyName? : Node → Option String
  | str s => some s
  | tagged _ content => content.keyName?
  | _ => none

end Node

/-- The value under a string key that has no tag. -/
def Mapping.get? (m : Mapping) (key : String) : Option Node :=
  (m.find? fun entry => entry.1.str? == some key).map (·.2)

/-- Whether a node is already a key. -/
def Mapping.hasKey (m : Mapping) (key : Node) : Bool := m.any fun entry => entry.1.same key

end FormatStyle.Yaml
