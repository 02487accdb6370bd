import FormatStyle.Document

/-! # Writing records

A record is written as one document. On top of a baseline only the differences are written, down
to the parts of nested records, and the document names the style that the baseline equals. What a
selected preset implies is never written. Main statement: what is written whole is one entry for
each field that no preset implies (`StyleRecord.writtenFields_none`).
-/

namespace FormatStyle

open Yaml (Node Mapping)

/-- The node of a value of a simple kind. A choice is written in the first spelling of its
variant. -/
def ScalarKind.write (kind : ScalarKind) : Value → Node
  | .bool b => .bool b
  | .int n => .int n
  | .str s => .str s
  | .list items => .sequence (items.map .str)
  | .choice variant =>
    match kind with
    | .choice e => .str ((e.canonical? variant).getD variant)
    | _ => .str variant
  | .record _ | .records _ => .null

/-- One entry of a mapping. -/
def entry (name : String) (node : Node) : Node × Node := (.str name, node)

/-- The node of a record, all of its parts. -/
def writeParts (parts : List Part) (values : List Value) : Node :=
  .mapping ((parts.zip values).map fun (part, value) => entry part.name (part.kind.write value))

/-- The node of a record, the parts that differ from the other record. -/
def writeDifferingParts (parts : List Part) (mine others : List Value) : Node :=
  .mapping (((parts.zip mine).zip others).filterMap fun ((part, value), other) =>
    if value = other then none else some (entry part.name (part.kind.write value)))

namespace FieldKind

/-- **The node of a value**, written whole. -/
def write : FieldKind → Value → Node
  | scalar kind, value => kind.write value
  | record parts, .record values => writeParts parts values
  | shorthand s, .record values => writeParts s.parts values
  | recordList parts, .records entries => .sequence (entries.map (writeParts parts))
  | _, _ => .null

/-- **The node of a value next to another one**: of nested records only the differences. -/
def writeDifference : FieldKind → Value → Value → Node
  | record parts, .record mine, .record others => writeDifferingParts parts mine others
  | shorthand s, .record mine, .record others => writeDifferingParts s.parts mine others
  | kind, value, _ => kind.write value

end FieldKind

namespace Preset

/-- A record selects a variant of the preset, so that the target follows from it. -/
def implies (preset : Preset) (r : StyleRecord) : Bool :=
  ((r.get? preset.selector).bind Value.choice?).any (· != preset.custom)

end Preset

namespace StyleRecord

variable (r : StyleRecord) (baseline : Option StyleRecord)

/-- The fields whose content follows from a preset. -/
def impliedFields : List String :=
  (r.schema.presets.filter (·.implies r)).map (·.target)

/-- The entry of a field: none where a preset implies it or the baseline has the same value. -/
def writtenField? (field : Field) (value : Value) : Option (Node × Node) :=
  if r.impliedFields.contains field.name then none
  else match baseline.bind fun b => b.get? field.name with
    | none => some (entry field.name (field.kind.write value))
    | some other =>
      if other = value then none
      else some (entry field.name (field.kind.writeDifference value other))

/-- **The entries of the fields** that are written, in schema order. -/
def writtenFields : Mapping :=
  r.toList.filterMap fun (field, value) => r.writtenField? baseline field value

/-- The entry that tells the language of a record. -/
def writtenLanguage : Mapping :=
  if r.schema.conventions.languageKey && r.language != .none then
    [entry languageKey (.str r.language.text)]
  else []

/-- The entry that tells what a record is based on. -/
def writtenBase : Traced StyleError Mapping :=
  if r.inheritsParent && r.schema.conventions.inheritsParent then
    return [entry basedOnKey (.str parentConfiguration)]
  else match baseline with
    | none => return []
    | some b => do
      match ← Style.identify b r.language with
      | some name => return [entry basedOnKey (.str name)]
      | none => return []

/-- **The mapping of a record**, on top of a baseline if there is one. -/
def toMapping : Traced StyleError Mapping := do
  let base ← r.writtenBase baseline
  return r.writtenLanguage ++ base ++ r.writtenFields baseline

/-- **The text of a mapping**: one document between its markers. -/
def frame (m : Mapping) : String :=
  let body := if m.isEmpty then "" else ((Node.mapping m).render?).getD ""
  "---\n" ++ body ++ "...\n"

/-- **Write a record**, on top of a baseline if there is one. -/
def write : Traced StyleError String := frame <$> r.toMapping baseline

/-- Without a baseline every field is written whole, unless a preset implies it. -/
theorem writtenFields_none :
    r.writtenFields none =
      (r.toList.filter fun (field, _) => !r.impliedFields.contains field.name).map
        fun (field, value) => entry field.name (field.kind.write value) := by
  unfold writtenFields
  rw [← List.filterMap_eq_map, List.filterMap_filter]
  congr 1
  funext ⟨field, value⟩
  simp [writtenField?]

end StyleRecord

end FormatStyle
