import FormatStyle.Configuration
import FormatStyle.Conversion
import FormatStyle.Correspondence
import FormatStyle.Preset
import FormatStyle.Writing

/-! # Migration

A configuration is carried from one version to another through the versions in between. Each step
starts from the style as the next version defines it and carries every field that both versions
know, so that the effective style stays even where a default moved. A value that cannot be carried
is reported as lost if it differs from the style before the step.
-/

namespace FormatStyle

/-- **A loss**: something that was set and could not be carried. -/
inductive Loss where
  /-- The next version has no such field. -/
  | field (name : String)
  /-- The field cannot hold the value. -/
  | value (name shown : String)
  deriving DecidableEq, Repr

namespace Loss

/-- The names of the fields that a loss is about. -/
def name : Loss → String
  | field name => name
  | value name _ => name

def message : Loss → String
  | field name => s!"Option {name} was dropped"
  | value name shown => s!"Value {shown} of option {name} could not be represented"

end Loss

namespace Migration

/-- **How far a step has come**: the record for the next version, and the losses so far. -/
structure Progress where
  record : StyleRecord
  losses : List Loss
  deriving DecidableEq, Repr

namespace Progress

def lose (p : Progress) (loss : Loss) : Progress := { p with losses := p.losses ++ [loss] }

/-- Set a field of the next record. -/
def set (p : Progress) (name : String) (value : Value) : Except StyleError Progress := do
  let record ← p.record.set name value
  return { p with record }

/-- Set a field of the next record to what a literal denotes. -/
def setLiteral (p : Progress) (name : String) (literal : Literal) : Except StyleError Progress :=
  match p.record.schema.field? name with
  | none => .ok p
  | some field => do
    let value ← literal.toValue field.name field.kind (p.record.current field)
    p.set name value

end Progress

/-- **A step**: the record to carry, and the style it is based on as its own version and the next
one define it. -/
structure Step where
  record : StyleRecord
  before : StyleRecord
  after : StyleRecord
  deriving DecidableEq, Repr

namespace Step

variable (s : Step)

/-- A field was set to something else than the style says. -/
def changed (name : String) : Bool := s.record.get? name != s.before.get? name

/-- Carry a converted value, or account for its loss. -/
def place (source target : String) (value : Value) (converted : Option Value) (p : Progress) :
    Traced StyleError Progress :=
  match converted with
  | some value => p.set target value
  | none =>
    if s.changed source then return p.lose (.value source value.display)
    else do
      Traced.log .debug s!"Default {value.display} of {source} has no counterpart"
      return p

/-- The value that the rows of a renamed field give. -/
def translate? (map : List (Literal × Literal)) (value : Value) (field : Field)
    (current : Value) : Option Value := do
  let row ← map.find? fun row => row.1.holds value
  (row.2.toValue field.name field.kind current).toOption

/-- A renamed field: by its rows, or else by its kind. -/
def rename (source target : String) (map : List (Literal × Literal)) (p : Progress) :
    Traced StyleError Progress :=
  match s.record.get? source, s.record.schema.field? source, s.after.schema.field? target with
  | some value, some sourceField, some targetField =>
    let current := p.record.current targetField
    let converted :=
      (translate? map value targetField current).or
        (sourceField.kind.convert value targetField.kind current)
    s.place source target value converted p
  | _, _, _ => return p

/-- The values of several fields fit a row. -/
def matchesRow (pattern : List (Option Literal)) (values : List (Option Value)) : Bool :=
  (pattern.zip values).all fun (literal, value) =>
    literal.all fun literal => value.any literal.holds

/-- Several fields into one: by the first row that they fit. -/
def merge (sources : List String) (target : String)
    (rows : List (List (Option Literal) × Literal)) (p : Progress) :
    Traced StyleError Progress :=
  let values := sources.map s.record.get?
  match rows.find? fun row => matchesRow row.1 values, s.after.schema.field? target with
  | some row, some _ => p.setLiteral target row.2
  | _, _ =>
    let names := ", ".intercalate sources
    if sources.any s.changed then
      let shown := values.map fun value => (value.map Value.display).getD ""
      return p.lose (.value names (", ".intercalate shown))
    else do
      Traced.log .debug s!"Defaults of {names} have no counterpart"
      return p

/-- One field into several: by the first row whose value it holds. -/
def split (source : String) (targets : List String)
    (rows : List (List (Option Literal) × Literal)) (p : Progress) :
    Traced StyleError Progress :=
  match s.record.get? source with
  | none => return p
  | some value =>
    match rows.find? fun row => row.2.holds value with
    | none =>
      if s.changed source then return p.lose (.value source value.display) else return p
    | some row =>
      (targets.zip row.1).foldlM (fun p (target, literal) =>
        match literal with
        | none => return p
        | some literal => p.setLiteral target literal) p

/-- Carry the fields of a transfer. -/
def carry (p : Progress) : Transfer → Traced StyleError Progress
  | .rename source target map => s.rename source target map p
  | .merge sources target rows => s.merge sources target rows p
  | .split source targets rows => s.split source targets rows p

/-- The transfers of the step. -/
def transfers : List Transfer := FormatStyle.transfers s.record.version s.after.version

/-- The fields that the transfers read. -/
def consumed : List String := s.transfers.flatMap Transfer.sources

/-- The fields that the transfers write. -/
def produced : List String := s.transfers.flatMap Transfer.targets

/-- Carry a field of the next version from the field of the same name. -/
def carrySame (p : Progress) (field : Field) : Traced StyleError Progress :=
  if s.produced.contains field.name || s.consumed.contains field.name then return p
  else match s.record.schema.field? field.name, s.record.get? field.name with
    | some sourceField, some value =>
      let converted :=
        sourceField.kind.convert value field.kind (p.record.current field)
      s.place field.name field.name value converted p
    | _, _ => return p

/-- The fields that the next version lacks and that were set to something else than the style
says. -/
def dropped : List Loss :=
  (s.record.toList.filter fun (field, value) =>
    !s.consumed.contains field.name && (s.after.schema.field? field.name).isNone &&
      s.before.get? field.name != some value).map fun (field, _) => .field field.name

/-- **Carry a record one step.** -/
def run : Traced StyleError Progress := do
  let start : Progress := ⟨{ s.after with language := s.record.language }, []⟩
  let renamed ← s.transfers.foldlM s.carry start
  let carried ← s.after.schema.fields.foldlM s.carrySame renamed
  return { carried with losses := carried.losses ++ s.dropped }

end Step

/-- **What a migration is asked to do.** -/
structure Options where
  source : Version
  target : Version
  language : Language
  /-- The style of a text that names none, or names one that a later version lacks. -/
  fallbackStyle : String
  /-- Write only what differs from the style in the target version. -/
  skipSame : Bool
  deriving DecidableEq, Repr

/-- **How far a walk has come**: the record, the style it is based on, the style's record, and the
losses so far. -/
structure Walk where
  record : StyleRecord
  style : String
  before : StyleRecord
  losses : List Loss
  deriving DecidableEq, Repr

/-- **The style of the next version**: the current one, or the fallback where the next version
lacks it. -/
def nextStyle (style fallback : String) (next : Version) : Traced StyleError String :=
  let names := next.schema.styleNames
  if names.contains style then return style
  else if names.contains fallback then do
    Traced.log .info s!"Style {style} does not exist in {next.text}, using {fallback}"
    return fallback
  else Traced.fail (.incompatibleStyle style next.text names)

/-- The record of a style with its presets written out. -/
def expandedStyle (version : Version) (name : String) (language : Language) :
    Traced StyleError StyleRecord := do
  let r ← Style.resolve version name language
  r.expand

/-- Walk one version on. -/
def advance (language : Language) (fallback : String) (version next : Version) (w : Walk) :
    Traced StyleError Walk := do
  let style ← nextStyle w.style fallback next
  Traced.log .debug s!"Migrating {version.text} -> {next.text} as {style}"
  let after ← expandedStyle next style language
  let p ← (Step.mk w.record w.before after).run
  return ⟨p.record, style, after, w.losses ++ p.losses⟩

/-- **Walk through the versions** up to the target. -/
def walk (language : Language) (fallback : String) (target version : Version) (w : Walk) :
    Traced StyleError Walk :=
  match _step : version.stepTowards target with
  | none => return w
  | some next => do
    let w ← advance language fallback version next w
    walk language fallback target next w
termination_by version.distance target
decreasing_by
  have := Version.distance_stepTowards _step
  omega

end Migration

/-- **A finished migration**: the text, the record behind it, the style it is based on, and the
losses. -/
structure Migration where
  text : String
  record : StyleRecord
  style : String
  losses : List Loss
  deriving DecidableEq, Repr

namespace Migration

/-- Keep the inheritance of the source, or report its loss. -/
def keepInheritance (inherits : Bool) (w : Walk) : Walk :=
  if inherits then
    if w.record.schema.conventions.inheritsParent then
      { w with record := { w.record with inheritsParent := true } }
    else { w with losses := w.losses ++ [.value basedOnKey parentConfiguration] }
  else w

/-- The style that a configuration is based on, by its name in lower case. -/
def chosenStyle (configuration : Configuration) (fallback : String) : String :=
  match configuration.basedOn with
  | some name => if configuration.record.inheritsParent then fallback else Text.lower name
  | none => fallback

/-- Check that a version knows a language. -/
def checkLanguage (version : Version) (language : Language) : Except StyleError Unit :=
  if version.schema.supports language then .ok ()
  else .error (.unsupportedLanguage language.text version.text)

/-- **Migrate a configuration that has been read.** -/
def ofConfiguration (options : Options) (fallback : String) (configuration : Configuration) :
    Traced StyleError Migration := do
  let inherits := configuration.record.inheritsParent
  let style := chosenStyle configuration fallback
  let expanded ← configuration.record.expand
  let record ← expanded.collapse
  let before ← expandedStyle options.source style options.language
  let walked ← walk options.language fallback options.target options.source
    ⟨record, style, before, []⟩
  let w := keepInheritance inherits walked
  let baseline ←
    if options.skipSame then
      some <$> Style.resolve options.target w.style options.language
    else pure none
  let text ← w.record.write baseline
  return ⟨text, w.record, w.style, w.losses⟩

/-- **Migrate configuration text** from one version to another. -/
def migrate (text : String) (options : Options) : Traced StyleError Migration := do
  checkLanguage options.source options.language
  checkLanguage options.target options.language
  let fallback := Text.lower options.fallbackStyle
  let ambient ← Style.resolve options.source fallback options.language
  let configuration ← Configuration.read options.source text options.language ambient
  ofConfiguration options fallback configuration

/-- A version reads a text without an error, starting from its default style. -/
def isCompatible (text : String) (language : Language) (version : Version) :
    Traced StyleError Bool := do
  let outcome ← Traced.attempt do
    let ambient ← Style.resolve version defaultFallbackStyle language
    Configuration.read version text language ambient
  match outcome with
  | .ok _ => return true
  | .error e =>
    Traced.log .debug s!"Not compatible with {version.text}: {e.message}"
    return false

/-- **The versions that read a text** for a language. -/
def compatibleVersions (text : String) (language : Language) : Traced StyleError (List Version) :=
  Version.all.filterM (isCompatible text language)

end Migration

end FormatStyle
