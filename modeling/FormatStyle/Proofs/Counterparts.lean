import FormatStyle.Proofs.Restore
import Mathlib.Data.List.Sections

/-! # Fields of neighbouring versions

Every field of a version has counterparts in the next higher one, to which all its values can be
carried and from which they come back (`Version.counterparts`).
-/

namespace FormatStyle

open Migration Step

namespace Version

/-- The field that stand-ins are allowed for. -/
def loose (v : Version) (name : String) : Bool := v == .v12 && name == "Standard"

/-- The field that a step down may leave to the style. -/
def unsaid (v : Version) (name : String) : Bool :=
  v == .v12 && name == "AllowAllConstructorInitializersOnNextLine"

end Version

/-- All values of a simple kind that has finitely many. -/
def FieldKind.values? : FieldKind → Option (List Value)
  | scalar kind => kind.values?
  | _ => none

namespace Transfer

/-- The places of a row give back the values of the fields, or leave a field to the style that a
step down may leave to it. -/
def placesSay (v : Version) : List Field → List Value → List (Option Literal) → Bool
  | [], [], [] => true
  | field :: fields, value :: values, place :: places =>
    (match place with
    | none => v.unsaid field.name
    | some literal =>
      (literal.toValue field.name field.kind field.kind.zero).toOption == some value &&
        field.kind.parts?.isNone) && placesSay v fields values places
  | _, _, _ => false

/-- Both fields of a renaming store what comes from the other one. -/
def keepsWidth (source target : Field) : Bool :=
  source.kind.keepsWidth target.kind && target.kind.keepsWidth source.kind

/-- The fields that are merged into a simple field, its kind, and all values of the fields. -/
def mergedFields? (a b : Version) (sources : List String) (target : String) :
    Option (List Field × ScalarKind × List (List Value)) := do
  let fields ← sources.mapM a.schema.field?
  let kind ← b.schema.scalarKind? target
  let choices ← fields.mapM fun field => field.kind.values?
  return (fields, kind, choices)

/-- **A transfer upwards whose sources come back**, each from the target. -/
def comesBack (a b : Version) : Transfer → Bool
  | rename source target map =>
    (a.schema.field? source).any fun field => (b.schema.field? target).any fun other =>
      restores map field other (a.loose source) (b.loose target) && keepsWidth field other
  | merge sources target rows =>
    (mergedFields? a b sources target).any fun (fields, kind, choices) =>
      !b.loose target && choices.sections.all fun values =>
        (rows.find? fun row => matchesRow row.1 (values.map some)).any fun row =>
          (row.2.toScalar target kind).toOption.any fun there =>
            (rows.find? fun row => row.2.holds there).any fun row =>
              placesSay a fields values row.1
  | split .. => false

end Transfer

namespace Version

/-- **Every field of a version has its counterparts** in the next one: it takes part in a transfer,
or a field of the same name stands for it, and it comes back. -/
def counterparts (a b : Version) : Bool :=
  (transfers a b).all (Transfer.comesBack a b) && a.schema.fields.all fun field =>
    ((transfers a b).flatMap Transfer.sources).contains field.name ||
      !((transfers a b).flatMap Transfer.targets).contains field.name &&
        (b.schema.field? field.name).any fun other =>
          restores [] field other (a.loose field.name) (b.loose field.name) &&
            Transfer.keepsWidth field other

theorem counterparts_of_next {a b : Version} (next : a.next? = some b) :
    a.counterparts b = true := by
  have checked : ∀ a ∈ Version.all, ∀ b ∈ Version.all, a.next? = some b →
      a.counterparts b = true := by
    decide +kernel
  exact checked a a.mem_all b b.mem_all next

end Version

end FormatStyle
