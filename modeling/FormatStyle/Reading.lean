import FormatStyle.Literal
import FormatStyle.Text.Character
import FormatStyle.Trace
import FormatStyle.Yaml.Node.Printer

/-! # Values from nodes

How the node under a key is read as a value of the key's kind. A mapping changes the parts that it
names and leaves the others of the current record alone; a list of records starts each of them
afresh. Main statement: what is read, the kind admits (`FieldKind.admits_of_read`).
-/

namespace FormatStyle

open Yaml (Node)

/-- **A node in a message**: a scalar by its text, anything else as it would be written. -/
def Yaml.Node.describe (node : Node) : String :=
  match node.scalarText? with
  | some text => text
  | none => (node.render?.map Text.trim).getD "<unprintable>"

/-- The complaint about a node that does not fit the field at a path. -/
def unreadable (path : String) (node : Node) : StyleError := .invalidValue path node.describe

namespace ScalarKind

/-- Digits with an optional sign, as they are read from a string. -/
def signedDecimal? (cs : List Char) : Option Int :=
  let magnitude := fun (digits : List Char) => (Yaml.Scalar.natural? 10 digits).map Int.ofNat
  match cs with
  | '-' :: digits => (magnitude digits).map (- ·)
  | '+' :: digits => magnitude digits
  | digits => magnitude digits

/-- The integer that a node holds, as a number or as a string of digits. -/
def readInt? : Node → Option Int
  | .int n => some n
  | .str s => signedDecimal? (Text.trimChars s.toList)
  | _ => none

/-- The flag that a node holds. Strings count in three capitalisations. -/
def readBool? : Node → Option Bool
  | .bool b => some b
  | .str s =>
    if ["true", "True", "TRUE"].contains s then some true
    else if ["false", "False", "FALSE"].contains s then some false
    else none
  | _ => none

/-- The text that a node holds. Null is the empty text. -/
def readText? : Node → Option String
  | .null => some ""
  | node => node.scalarText?

/-- An integer within limits. -/
def readWithin? (least most : Int) (node : Node) : Option Value :=
  (readInt? node).bind fun n => if least ≤ n ∧ n ≤ most then some (.int n) else none

/-- **The value of a node** for a simple kind. Integers have the width of a machine word of 32
bits. -/
def read? : ScalarKind → Node → Option Value
  | bool, node => (readBool? node).map .bool
  | unsigned, node => readWithin? 0 4294967295 node
  | int, node => readWithin? (-2147483648) 2147483647 node
  | bound, node => readWithin? (-1) 2147483647 node
  | str, node => (readText? node).map .str
  | strList, .sequence items => (items.mapM readText?).map .list
  | strList, _ => none
  | choice e, node => (node.scalarText?.bind e.variant?).map .choice

/-- Read a node for a simple kind, or complain about it. -/
def read (kind : ScalarKind) (node : Node) (path : String) : Except StyleError Value :=
  match kind.read? node with
  | some value => .ok value
  | none => .error (unreadable path node)

end ScalarKind

/-- **A key that nothing knows**: an error where keys are strict, a warning elsewhere. -/
def unknownKey (strict : Bool) (key : String) : Traced StyleError Unit :=
  if strict then Traced.fail (.unknownOption key)
  else Traced.log .warn ("Ignoring unknown option " ++ key)

/-- Read one entry of a mapping into the part that it names. -/
def readPart (strict : Bool) (parts : List Part) (path : String) (values : List Value)
    (entry : Node × Node) : Traced StyleError (List Value) :=
  match entry.1.keyName? with
  | none => Traced.fail (.malformedText (.nonStringKeyUnder path))
  | some key =>
    let partPath := path ++ "." ++ key
    match (partIndex? parts key).map fun index => (index, parts[index]?) with
    | some (index, some part) => do
      let value ← part.kind.read entry.2 partPath
      return values.set index value
    | _ => do
      unknownKey strict partPath
      return values

/-- **Read a mapping into the parts of a record.** -/
def readParts (strict : Bool) (parts : List Part) (path : String) (base : List Value)
    (node : Node) : Traced StyleError (List Value) :=
  match node with
  | .mapping entries => entries.foldlM (readPart strict parts path) base
  | _ => Traced.fail (unreadable path node)

namespace FieldKind

/-- What a node says for a kind before the result is checked. -/
def readUnchecked (strict : Bool) (node : Node) (current : Value) (path : String) :
    FieldKind → Traced StyleError Value
  | scalar kind => kind.read node path
  | record parts =>
    .record <$> readParts strict parts path (Literal.baseParts parts current) node
  | shorthand s =>
    let base := Literal.baseParts s.parts current
    match node.scalarText? with
    | some spelling =>
      match s.spelled? spelling base with
      | some values => return .record values
      | none => Traced.fail (unreadable path node)
    | none => .record <$> readParts strict s.parts path base node
  | recordList parts =>
    match node with
    | .sequence items => .records <$> items.mapM (readParts strict parts path (zeroParts parts))
    | _ => Traced.fail (unreadable path node)

/-- **Read a node** for a kind, on top of the current value. The path names the field in
messages. -/
def read (kind : FieldKind) (strict : Bool) (node : Node) (current : Value) (path : String) :
    Traced StyleError Value :=
  kind.readUnchecked strict node current path >>= fun value =>
    if kind.admits value then return value else Traced.fail (unreadable path node)

/-- What is read for a kind, the kind admits. -/
theorem admits_of_read {kind : FieldKind} {strict : Bool} {node : Node} {current value : Value}
    {path : String} (h : (kind.read strict node current path).outcome = .ok value) :
    kind.admits value = true := by
  unfold read at h
  rw [Traced.outcome_bind] at h
  cases unchecked : (kind.readUnchecked strict node current path).outcome with
  | error e => rw [unchecked] at h; cases h
  | ok candidate =>
    rw [unchecked] at h
    change (if kind.admits candidate = true then (pure candidate : Traced StyleError Value)
      else Traced.fail (unreadable path node)).outcome = Except.ok value at h
    split at h
    · cases h
      assumption
    · cases h

end FieldKind

end FormatStyle
