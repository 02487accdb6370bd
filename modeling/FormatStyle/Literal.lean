import FormatStyle.Error
import FormatStyle.Kind
import FormatStyle.Text.Character

/-! # Table literals as values

A literal denotes a value only for a kind, and a record literal only on top of the record it
changes. Main statement: what a literal denotes for a kind, the kind admits
(`Literal.admits_of_toValue`).
-/

namespace FormatStyle

/-- The position of a part in its table. -/
def partIndex? (parts : List Part) (name : String) : Option Nat :=
  parts.findIdx? (·.name == name)

namespace Literal

mutual

/-- **A literal in a message**, written as a term. -/
def display : Literal → String
  | bool b => s!"Bool({b})"
  | int n => s!"Int({n})"
  | str s => s!"Str({Text.quote s})"
  | choice variant => s!"Enum({Text.quote variant})"
  | list items => "List([" ++ ", ".intercalate (items.map Text.quote) ++ "])"
  | record assignments => "Record([" ++ ", ".intercalate (displayPairs assignments) ++ "])"
  | records entries => "Records([" ++ ", ".intercalate (displayEntries entries) ++ "])"

/-- The assignments of a record literal in a message. -/
def displayPairs : List (String × Literal) → List String
  | [] => []
  | (name, literal) :: rest =>
    ("(" ++ Text.quote name ++ ", " ++ display literal ++ ")") :: displayPairs rest

/-- The entries of a record list literal in a message. -/
def displayEntries : List (List (String × Literal)) → List String
  | [] => []
  | entry :: rest => ("[" ++ ", ".intercalate (displayPairs entry) ++ "]") :: displayEntries rest

end

/-- The complaint that a literal does not fit a field. -/
def misfit (literal : Literal) (name : String) : StyleError :=
  .invalidValue name literal.display

/-- **The value of a literal** for a simple kind. -/
def toScalar (literal : Literal) (name : String) (kind : ScalarKind) : Except StyleError Value :=
  let value? : Option Value :=
    match literal, kind with
    | bool b, .bool => some (.bool b)
    | int n, .int | int n, .unsigned | int n, .bound => some (.int n)
    | str s, .str => some (.str s)
    | list items, .strList => some (.list items)
    | choice variant, .choice _ => some (.choice variant)
    | _, _ => none
  match value? with
  | some value => if kind.admits value then .ok value else .error (literal.misfit name)
  | none => .error (literal.misfit name)

/-- One assignment to the parts of a record. -/
def assignPart (parts : List Part) (values : List Value) (assignment : String × Literal) :
    Except StyleError (List Value) :=
  match partIndex? parts assignment.1 with
  | none => .error (.unknownOption assignment.1)
  | some index =>
    match parts[index]?, values[index]? with
    | some part, some _ => do
      return values.set index (← assignment.2.toScalar part.name part.kind)
    | _, _ => .error (.unknownOption assignment.1)

/-- **Assignments to the parts of a record**, in order. -/
def assignParts (parts : List Part) (values : List Value)
    (assignments : List (String × Literal)) : Except StyleError (List Value) :=
  assignments.foldlM (assignPart parts) values

end Literal

namespace Shorthand

/-- The record that a spelling stands for, on top of the given parts. -/
def spelled? (s : Shorthand) (spelling : String) (base : List Value) : Option (List Value) :=
  (s.spellings.find? (·.1 == spelling)).bind fun entry =>
    (Literal.assignParts s.parts base entry.2).toOption

/-- The spellings that change nothing in a record, so that each stands for it. -/
def spellingsMatching (s : Shorthand) (values : List Value) : List String :=
  (s.spellings.map (·.1)).filter fun spelling => s.spelled? spelling values == some values

end Shorthand

/-- The spelling of a flag where words are expected. -/
def flagSpelling (flag : Bool) : String := if flag then "true" else "false"

namespace Literal

/-- The parts of a record value, or the parts that nothing has assigned yet. -/
def baseParts (parts : List Part) (current : Value) : List Value :=
  current.record?.getD (zeroParts parts)

/-- What a literal denotes for a kind before the result is checked. -/
def denote (literal : Literal) (name : String) (kind : FieldKind) (current : Value) :
    Except StyleError Value :=
  match literal, kind with
  | literal, .scalar kind => literal.toScalar name kind
  | choice spelling, .shorthand s =>
    match s.spelled? spelling (baseParts s.parts current) with
    | some values => .ok (.record values)
    | none => .error (literal.misfit name)
  | bool flag, .shorthand s =>
    match s.spelled? (flagSpelling flag) (baseParts s.parts current) with
    | some values => .ok (.record values)
    | none => .error (literal.misfit name)
  | record assignments, .record parts =>
    .record <$> assignParts parts (baseParts parts current) assignments
  | record assignments, .shorthand s =>
    .record <$> assignParts s.parts (baseParts s.parts current) assignments
  | records entries, .recordList parts =>
    .records <$> entries.mapM (assignParts parts (zeroParts parts))
  | literal, _ => .error (literal.misfit name)

/-- **The value of a literal** for a kind, on top of a current value. -/
def toValue (literal : Literal) (name : String) (kind : FieldKind) (current : Value) :
    Except StyleError Value :=
  literal.denote name kind current >>= fun value =>
    if kind.admits value then .ok value else .error (literal.misfit name)

/-- Whether a literal is the given value. Records never match. -/
def holds : Literal → Value → Bool
  | bool a, .bool b => a == b
  | int a, .int b => a == b
  | str a, .str b => a == b
  | choice a, .choice b => a == b
  | list a, .list b => a == b
  | _, _ => false

/-- What a literal denotes for a kind, the kind admits. -/
theorem admits_of_toValue {literal : Literal} {name : String} {kind : FieldKind}
    {current value : Value} (h : literal.toValue name kind current = .ok value) :
    kind.admits value = true := by
  unfold toValue at h
  cases denoted : literal.denote name kind current with
  | error e => rw [denoted] at h; cases h
  | ok candidate =>
    rw [denoted] at h
    change (if kind.admits candidate = true then Except.ok candidate
      else Except.error (literal.misfit name)) = Except.ok value at h
    split at h
    · cases h
      assumption
    · cases h

end Literal

end FormatStyle
