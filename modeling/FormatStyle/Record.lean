import FormatStyle.Catalogue

/-! # Style records

A style record holds one value for each field of its version's schema. Fields are read and set by
name. Main statements: a well-formed record stays well formed when a field is set
(`WellFormed.set`), and setting fields keeps the version, the language and the inheritance
(`sameTags_set`, `sameTags_assign`).
-/

namespace FormatStyle

/-- **A style record**: every option of one version, for one language. -/
structure StyleRecord where
  version : Version
  language : Language
  values : List Value
  inheritsParent : Bool
  deriving DecidableEq, Repr

/-- **How far a table of assignments got**: the record after the assignments that were made, and
the failure of the first one that could not be. -/
structure Assigned where
  record : StyleRecord
  failure : Option StyleError

/-- The record of a complete assignment, or its failure. -/
def Assigned.toExcept (a : Assigned) : Except StyleError StyleRecord :=
  match a.failure with
  | some e => .error e
  | none => .ok a.record

namespace StyleRecord

/-- Each value fits the kind of the field at its position. -/
def valuesFit : List Field → List Value → Bool
  | [], [] => true
  | field :: fields, value :: values => field.kind.admits value && valuesFit fields values
  | _, _ => false

variable (r : StyleRecord)

def schema : Schema := r.version.schema

def fields : List Field := r.schema.fields

/-- **A well-formed record** has one value for each field, of the field's kind. -/
def WellFormed : Prop := valuesFit r.fields r.values = true

/-- Every field at the value of its kind that no table has assigned. -/
def zeroed (version : Version) (language : Language) : StyleRecord :=
  ⟨version, language, version.schema.fields.map (·.kind.zero), false⟩

/-- The value of a field. -/
def get? (name : String) : Option Value :=
  (r.schema.index? name).bind fun index => r.values[index]?

/-- The record as the laws of its schema see it. -/
def view : View := r.get?

/-- One part of a record field. -/
def getPart? (name part : String) : Option Value := do
  let field ← r.schema.field? name
  let index ← partIndex? (← field.kind.parts?) part
  (← (← r.get? name).record?)[index]?

/-- The value of a field, or the kind's own where the record lacks one. -/
def current (field : Field) : Value := (r.get? field.name).getD field.kind.zero

/-- **Set a field.** The value has to fit the field's kind. -/
def set (name : String) (value : Value) : Except StyleError StyleRecord :=
  match r.schema.index? name with
  | none => .error (.unknownOption name)
  | some index =>
    match r.fields[index]? with
    | none => .error (.unknownOption name)
    | some field =>
      if field.kind.admits value then .ok { r with values := r.values.set index value }
      else .error (.invalidValue name value.display)

/-- Set several fields, one after the other. -/
def setAll (assignments : List (String × Value)) : Except StyleError StyleRecord :=
  assignments.foldlM (fun r assignment => r.set assignment.1 assignment.2) r

/-- Make one assignment of a table. -/
def assignOne (assignment : String × Literal) : Except StyleError StyleRecord :=
  match r.schema.index? assignment.1 with
  | none => .error (.unknownOption assignment.1)
  | some index =>
    match r.fields[index]?, r.values[index]? with
    | some field, some current => do
      let value ← assignment.2.toValue field.name field.kind current
      return { r with values := r.values.set index value }
    | _, _ => .error (.unknownOption assignment.1)

/-- **Make the assignments of a table**, in order, up to the first that fails. -/
def assign (r : StyleRecord) : List (String × Literal) → Assigned
  | [] => ⟨r, none⟩
  | assignment :: rest =>
    match r.assignOne assignment with
    | .ok next => next.assign rest
    | .error e => ⟨r, some e⟩

/-- The fields with their values, in schema order. -/
def toList : List (Field × Value) := r.fields.zip r.values

/-- Equal in every field, whatever the language and the inheritance. -/
def sameValues (other : StyleRecord) : Bool :=
  decide (r.version = other.version) && decide (r.values = other.values)

/-- The names of the fields whose values differ from the other record's at the same position. -/
def differingFields (other : StyleRecord) : List String :=
  ((r.toList.zip other.values).filter fun entry => !decide (entry.1.2 = entry.2)).map
    (·.1.1.name)

/-- Apply the derivations of the schema, each to the result of the one before. -/
def finish : Except StyleError StyleRecord :=
  r.schema.derivations.foldlM (fun r derive => r.setAll (derive r.view)) r

/-- The first law of the schema that the record breaks. -/
def brokenConstraint? : Option Constraint :=
  r.schema.constraints.find? (·.violated r.view)

theorem sameValues_iff (other : StyleRecord) :
    r.sameValues other = true ↔ r.version = other.version ∧ r.values = other.values := by
  simp [sameValues]

/-- A fitting value at a position keeps all values fitting. -/
theorem valuesFit_set {fields : List Field} {values : List Value} {index : Nat} {field : Field}
    {value : Value} (fit : valuesFit fields values = true) (found : fields[index]? = some field)
    (admitted : field.kind.admits value = true) :
    valuesFit fields (values.set index value) = true := by
  induction fields generalizing values index with
  | nil => simp at found
  | cons f fs ih =>
    cases values with
    | nil => simp [valuesFit] at fit
    | cons v vs =>
      simp only [valuesFit, Bool.and_eq_true] at fit
      cases index with
      | zero =>
        simp only [List.getElem?_cons_zero, Option.some.injEq] at found
        subst found
        simp [valuesFit, admitted, fit.2]
      | succ index =>
        simp only [List.getElem?_cons_succ] at found
        simp [valuesFit, fit.1, ih fit.2 found]

/-- Setting a field keeps a record well formed. -/
theorem WellFormed.set {r next : StyleRecord} {name : String} {value : Value}
    (wellFormed : r.WellFormed) (h : r.set name value = .ok next) : next.WellFormed := by
  unfold StyleRecord.set at h
  split at h
  · cases h
  · split at h
    · cases h
    · rename_i index _ _ field found
      split at h
      · cases h
        exact valuesFit_set wellFormed found (by assumption)
      · cases h

/-- **Two records for the same purpose**: everything but the values agrees. -/
def SameTags (a b : StyleRecord) : Prop :=
  a.version = b.version ∧ a.language = b.language ∧ a.inheritsParent = b.inheritsParent

theorem SameTags.refl (a : StyleRecord) : SameTags a a := ⟨rfl, rfl, rfl⟩

theorem SameTags.trans {a b c : StyleRecord} (ab : SameTags a b) (bc : SameTags b c) :
    SameTags a c :=
  ⟨ab.1.trans bc.1, ab.2.1.trans bc.2.1, ab.2.2.trans bc.2.2⟩

/-- Setting a field keeps the tags. -/
theorem sameTags_set {r next : StyleRecord} {name : String} {value : Value}
    (h : r.set name value = .ok next) : SameTags next r := by
  unfold StyleRecord.set at h
  split at h
  · cases h
  · split at h
    · cases h
    · split at h
      · cases h
        exact .refl r
      · cases h

/-- An assignment keeps the tags. -/
theorem sameTags_assignOne {r next : StyleRecord} {assignment : String × Literal}
    (h : r.assignOne assignment = .ok next) : SameTags next r := by
  unfold assignOne at h
  split at h
  · cases h
  · split at h
    · rename_i index _ _ _ field current _ _
      cases literal : assignment.2.toValue field.name field.kind current with
      | error e => rw [literal] at h; cases h
      | ok value => rw [literal] at h; cases h; exact .refl r
    · cases h

/-- A table of assignments keeps the tags, however far it gets. -/
theorem sameTags_assign (r : StyleRecord) (assignments : List (String × Literal)) :
    SameTags (r.assign assignments).record r := by
  induction assignments generalizing r with
  | nil => exact .refl r
  | cons assignment rest ih =>
    unfold assign
    split
    · rename_i next ok
      exact (ih next).trans (sameTags_assignOne ok)
    · exact .refl r

end StyleRecord

theorem Assigned.record_of_toExcept {a : Assigned} {r : StyleRecord} (h : a.toExcept = .ok r) :
    a.record = r := by
  unfold toExcept at h
  split at h
  · cases h
  · exact Except.ok.inj h

end FormatStyle
