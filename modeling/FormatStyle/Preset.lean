import FormatStyle.Record
import FormatStyle.Trace

/-! # Presets

A preset selector names the content of a whole record and the values of a few other fields.
`expand` writes that content out, and `collapse` finds the one name that a record given by hand
could have gone by.
-/

namespace FormatStyle

namespace Preset

/-- The variant that a record selects, unless it leaves the target to the user. -/
def selected? (preset : Preset) (r : StyleRecord) : Option PresetVariant :=
  match (r.get? preset.selector).bind Value.choice? with
  | some name => if name = preset.custom then none else preset.variant? name
  | none => none

/-- **Write out a variant**: the target from its reset and the flags, then the side fields. -/
def apply (preset : Preset) (variant : PresetVariant) (r : StyleRecord) :
    Except StyleError StyleRecord :=
  match r.schema.field? preset.target with
  | none => .error (.unknownOption preset.target)
  | some target => do
    let r ← r.set preset.target target.kind.zero
    let r ← (r.assign [(preset.target, .record preset.reset)]).toExcept
    let r ← (r.assign [(preset.target, .record variant.flags)]).toExcept
    (r.assign variant.side).toExcept

/-- Write out the variant that a record selects. -/
def expandIn (r : StyleRecord) (preset : Preset) : Except StyleError StyleRecord :=
  match preset.selected? r with
  | some variant => preset.apply variant r
  | none => .ok r

/-- Selecting a variant in a record would change nothing but the selector. -/
def describes (preset : Preset) (r : StyleRecord) (variant : PresetVariant) :
    Except StyleError Bool := do
  let candidate ← r.set preset.selector (.choice variant.variant)
  let expanded ← preset.apply variant candidate
  return decide (expanded = candidate)

/-- The names of the variants that describe a record. -/
def describing (preset : Preset) (r : StyleRecord) : Except StyleError (List String) := do
  let described ← preset.variants.filterM (preset.describes r)
  return described.map (·.variant)

/-- Select the only variant that describes a record, where the record leaves the target to the
user. -/
def collapseIn (r : StyleRecord) (preset : Preset) : Traced StyleError StyleRecord := do
  if (r.get? preset.selector).bind Value.choice? = some preset.custom then
    match ← preset.describing r with
    | [only] =>
      Traced.log .debug s!"{preset.selector} collapses to {only}"
      r.set preset.selector (.choice only)
    | _ => return r
  else
    return r

end Preset

namespace StyleRecord

/-- **Expansion**: every selected variant is written out. -/
def expand (r : StyleRecord) : Except StyleError StyleRecord :=
  r.schema.presets.foldlM Preset.expandIn r

/-- **Collapse**: selectors that leave their target to the user get the name of the one variant
that describes it, if there is one. -/
def collapse (r : StyleRecord) : Traced StyleError StyleRecord :=
  r.schema.presets.foldlM Preset.collapseIn r

end StyleRecord

end FormatStyle
