import FormatStyle.Language
import FormatStyle.Literal
import FormatStyle.Version

/-! # Schemas

A schema is one version's table of options, together with what the version knows about them: its
languages, its named styles, the older spellings that it still reads, the choices that stand for
a whole record, and the laws between options. A schema is data; nothing here is computed from a
record except through a `View`, which answers what a record holds under a name.
-/

namespace FormatStyle

/-- **A field of a schema**: its name, its kind and the literal that the version's baseline
assigns to it. -/
structure Field where
  name : String
  kind : FieldKind
  initial : Literal
  deriving Repr

/-- What a record holds under each name. -/
abbrev View := String → Option Value

/-- **The languages that a layer applies to.** -/
inductive Scope where
  | always
  | only (languages : List Language)
  | except (languages : List Language)
  deriving DecidableEq, Repr

def Scope.applies : Scope → Language → Bool
  | always, _ => true
  | only languages, language => languages.contains language
  | .except languages, language => !languages.contains language

/-- **A layer of a style**: assignments for some languages. -/
structure Layer where
  scope : Scope
  assignments : List (String × Literal)
  deriving Repr

/-- **The content of a style**: the baseline, or layers on top of another content. A layered
content may compute its base for one fixed language, and may stand in for a language by computing
everything for another one. -/
inductive StyleContent where
  | baseline
  | layered (base : StyleContent) (fixed : Option Language) (layers : List Layer)
      (standIns : List (Language × Language))
  deriving Repr

/-- **A named style.** Names are in lower case. -/
structure NamedStyle where
  name : String
  content : StyleContent
  deriving Repr

/-- **An older spelling** of a field, which is read and never written. -/
inductive Legacy where
  /-- Another name, read with the kind of the target. -/
  | synonym (name target : String)
  /-- A key with a kind of its own whose values stand for others. Values that stand for none are
  ignored, and so is the key when the target does not hold the value that it requires. -/
  | mapped (name : String) (kind : ScalarKind) (target : String)
      (map : List (Literal × Literal)) (onlyIf : Option Literal)
  /-- Several keys that are combined. The combination receives their values, what the record
  holds, and the style that the document is based on; it gives the assignments to make. -/
  | group (names : List (String × ScalarKind))
      (combine : List (Option Value) → View → Option String → List (String × Value))

/-- The keys that a legacy entry reads. -/
def Legacy.names : Legacy → List String
  | synonym name _ => [name]
  | mapped name .. => [name]
  | group names _ => names.map (·.1)

/-- **What a variant of a preset stands for**: flags of the target record on top of the reset,
and assignments to other fields. -/
structure PresetVariant where
  variant : String
  flags : List (String × Literal)
  side : List (String × Literal)
  deriving Repr

/-- **A preset**: a choice, the selector, whose variants stand for the content of a record, the
target. One variant leaves the record to the user. -/
structure Preset where
  selector : String
  target : String
  custom : String
  reset : List (String × Literal)
  variants : List PresetVariant
  deriving Repr

def Preset.variant? (preset : Preset) (name : String) : Option PresetVariant :=
  preset.variants.find? (·.variant == name)

/-- **A law between fields** that a selected record has to keep. -/
structure Constraint where
  name : String
  reason : String
  violated : View → Bool

/-- **A derived assignment**, made after a document is read. -/
abbrev Derivation := View → List (String × Value)

/-- **What blank text means.** -/
inductive BlankText where
  /-- It is malformed. -/
  | malformed
  /-- It holds no document, so none suits any language. -/
  | noDocuments
  /-- It changes nothing. -/
  | ambient
  deriving DecidableEq, Repr

/-- **How a version reads its documents.** -/
structure Conventions where
  /-- Unknown keys are errors. -/
  strictKeys : Bool
  blankText : BlankText
  /-- Documents may name a language, and several may follow each other. -/
  languageKey : Bool
  /-- A document may be based on the configuration of the parent directory. -/
  inheritsParent : Bool
  deriving DecidableEq, Repr

/-- **One version of the options.** The order of `fields` is the order of output, and the order of
`styles` the order in which a record is compared with them. -/
structure Schema where
  version : Version
  fields : List Field
  languages : List Language
  styles : List NamedStyle
  legacy : List Legacy
  presets : List Preset
  constraints : List Constraint
  derivations : List Derivation
  conventions : Conventions

namespace Schema

variable (schema : Schema)

/-- The field of a name. -/
def field? (name : String) : Option Field := schema.fields.find? (·.name == name)

/-- The name and the kind at a path: a field, or a part of one. -/
def at? : List String → Option (String × FieldKind)
  | [name] => (schema.field? name).map fun field => (field.name, field.kind)
  | [name, part] => do
    let field ← schema.field? name
    let part ← (← field.kind.parts?).find? (·.name == part)
    return (part.name, .scalar part.kind)
  | _ => none

/-- The position of a field. -/
def index? (name : String) : Option Nat := schema.fields.findIdx? (·.name == name)

def supports (language : Language) : Bool := schema.languages.contains language

/-- The names of the styles, in table order. -/
def styleNames : List String := schema.styles.map (·.name)

/-- The style that a name denotes in any case. -/
def style? (name : String) : Option NamedStyle :=
  schema.styles.find? fun style => Text.equalsIgnoringCase style.name name

end Schema

end FormatStyle
