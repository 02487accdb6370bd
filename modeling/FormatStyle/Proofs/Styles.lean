import FormatStyle.Proofs.Assignment
import FormatStyle.Proofs.Kinds
import FormatStyle.Style

/-! # Styles are well made

The tables of every version are checked once: each kind is lawful, each literal fits its field.
From this every style of a version is a record of stored values, for every language, and holds the
baseline wherever none of its layers assigns a field (`StyleContent.build_isOk`).
-/

namespace FormatStyle

namespace Schema

variable (schema : Schema)

/-- **A field that is made well**: a lawful kind, and an initial literal that fits it. -/
def wellMade (field : Field) : Bool :=
  field.kind.lawful && field.initial.fits field.name field.kind && field.initial.narrow

/-- An assignment fits the field that it names. -/
def accepts (assignment : String × Literal) : Bool :=
  (schema.field? assignment.1).any fun field =>
    assignment.2.fits field.name field.kind && assignment.2.narrow

end Schema

namespace StyleContent

/-- All assignments of a style fit the fields of a schema. -/
def accepted (schema : Schema) : StyleContent → Bool
  | baseline => true
  | layered base _ layers _ =>
    base.accepted schema && layers.all (·.assignments.all schema.accepts)

/-- Some layer of a style assigns the field. -/
def assigns (name : String) : StyleContent → Bool
  | baseline => false
  | layered base _ layers _ =>
    base.assigns name || layers.any (·.assignments.any (·.1 == name))

end StyleContent

namespace Version

variable (v : Version)

/-- **The tables of every version are made well.** -/
theorem tables_wellMade : v.schema.fields.all Schema.wellMade = true ∧
    v.schema.styles.all (·.content.accepted v.schema) = true := by
  have checked : ∀ v ∈ Version.all, v.schema.fields.all Schema.wellMade = true ∧
      v.schema.styles.all (·.content.accepted v.schema) = true := by
    decide +kernel
  exact checked v v.mem_all

variable {v} {field : Field}

theorem wellMade_of_mem (member : field ∈ v.schema.fields) : Schema.wellMade field = true :=
  List.all_eq_true.mp v.tables_wellMade.1 field member

theorem lawful_of_mem (member : field ∈ v.schema.fields) : field.kind.lawful = true := by
  have made := wellMade_of_mem member
  simp only [Schema.wellMade, Bool.and_eq_true] at made
  exact made.1.1

end Version

/-- **A record as the program holds it**: every number has the width of a machine word, and a
record inherits only where documents can. -/
structure StyleRecord.Native (r : StyleRecord) : Prop where
  stores : r.Each FieldKind.Stores
  inherits : r.inheritsParent = true → r.schema.conventions.inheritsParent = true

namespace StyleRecord

variable {r next : StyleRecord} {name : String} {literal : Literal}

theorem Each.wellFormed (stores : r.Each FieldKind.Stores) : r.WellFormed :=
  wellFormed_iff.mpr (stores.mono fun _ _ => FieldKind.admits_of_stores)

theorem Native.wellFormed (native : r.Native) : r.WellFormed := native.stores.wellFormed

/-- A record in which nothing is assigned is a record of stored values. -/
theorem stores_zeroed (v : Version) (language : Language) :
    (zeroed v language).Each FieldKind.Stores := by
  change List.Forall₂ (fun (field : Field) value => field.kind.Stores value) v.schema.fields
    (v.schema.fields.map (·.kind.zero))
  rw [List.forall₂_map_right_iff, List.forall₂_same]
  exact fun field member => FieldKind.stores_zero (Version.lawful_of_mem member)

/-- A table goes on after an assignment that is made. -/
theorem assign_cons_of_ok {assignment : String × Literal} (made : r.assignOne assignment = .ok next)
    (rest : List (String × Literal)) : r.assign (assignment :: rest) = next.assign rest := by
  rw [assign, made]

/-- A table ends with an assignment that cannot be made. -/
theorem assign_cons_of_error {assignment : String × Literal} {e : StyleError}
    (fails : r.assignOne assignment = .error e) (rest : List (String × Literal)) :
    r.assign (assignment :: rest) = ⟨r, some e⟩ := by
  rw [assign, fails]

/-- One assignment of a table changes one field, to what the literal denotes. -/
theorem assignOne_eq_ok {assignment : String × Literal} (h : r.assignOne assignment = .ok next) :
    ∃ field current value, r.schema.field? assignment.1 = some field ∧
      r.get? assignment.1 = some current ∧
      assignment.2.toValue field.name field.kind current = .ok value ∧
      next = r.put assignment.1 value := by
  unfold assignOne at h
  cases index : r.schema.index? assignment.1 with
  | none => simp [index] at h
  | some i =>
    obtain ⟨field, found, at_⟩ := Schema.field?_of_index? index
    rw [index] at h
    dsimp only at h
    split at h
    · rename_i field' current field_at current_at
      rw [show r.fields[i]? = some field from at_, Option.some.injEq] at field_at
      subst field_at
      obtain ⟨value, literal, h⟩ := Outcome.bind_eq_ok_iff.mp h
      cases h
      exact ⟨field, current, value, found, by simp [StyleRecord.get?, index, current_at], literal,
        by simp [put, index]⟩
    · cases h

theorem assignOne_eq_put {field : Field} {current value : Value}
    (found : r.schema.field? name = some field) (holds : r.get? name = some current)
    (denotes : literal.toValue field.name field.kind current = .ok value) :
    r.assignOne (name, literal) = .ok (r.put name value) := by
  obtain ⟨i, index, at_⟩ := Schema.index?_of_field? found
  unfold StyleRecord.get? at holds
  rw [index, Option.bind_some] at holds
  unfold assignOne put
  simp only [index]
  rw [show r.fields[i]? = some field from at_, holds]
  simp only [denotes]
  rfl

/-- **A table of fitting assignments can be made** in every record of stored values. It keeps them
stored, and the fields that it does not name as they are. -/
theorem assign_isOk {assignments : List (String × Literal)}
    (accepted : assignments.all r.schema.accepts = true) (stores : r.Each FieldKind.Stores) :
    ∃ next, (r.assign assignments).toExcept = .ok next ∧ next.Each FieldKind.Stores ∧
      SameTags next r ∧
      ∀ name, assignments.any (·.1 == name) = false → next.get? name = r.get? name := by
  induction assignments generalizing r with
  | nil => exact ⟨r, rfl, stores, .refl r, fun _ _ => rfl⟩
  | cons assignment rest ih =>
    simp only [List.all_cons, Bool.and_eq_true] at accepted
    obtain ⟨field, found, fits⟩ := (Option.any_eq_true _ _).mp accepted.1
    obtain ⟨fit, narrow⟩ := Bool.and_eq_true_iff.mp fits
    obtain ⟨current, holds, stored⟩ := stores.get? found
    obtain ⟨value, denotes⟩ := Literal.toValue_isOk fit (FieldKind.admits_of_stores stored)
    have lawful := Version.lawful_of_mem (Schema.mem_of_field? found)
    have stepped := assignOne_eq_put found holds denotes
    have kept : (r.put assignment.1 value).Each FieldKind.Stores := by
      refine stores.put fun field' found' => ?_
      rw [found, Option.some.injEq] at found'
      subst found'
      exact Literal.stores_of_toValue lawful narrow stored denotes
    obtain ⟨next, assigned, stores', same, frame⟩ := ih (by rw [schema_put]; exact accepted.2) kept
    refine ⟨next, ?_, stores', same.trans (sameTags_put r _ _), fun name unnamed => ?_⟩
    · rw [assign_cons_of_ok stepped]
      exact assigned
    · simp only [List.any_cons, Bool.or_eq_false_iff, beq_eq_false_iff_ne] at unnamed
      rw [frame name unnamed.2, get?_put_of_ne unnamed.1.symm]

end StyleRecord

namespace StyleContent

open StyleRecord

variable {v : Version} {content : StyleContent} {language : Language}

/-- Layers of fitting assignments can be applied. -/
private theorem applyLayers_isOk {layers : List Layer} {r : StyleRecord} (language : Language)
    (accepted : layers.all (·.assignments.all r.schema.accepts) = true)
    (stores : r.Each FieldKind.Stores) :
    ∃ next, layers.foldlM (applyLayer language) r = .ok next ∧ next.Each FieldKind.Stores ∧
      SameTags next r ∧
      ∀ name, layers.any (·.assignments.any (·.1 == name)) = false →
        next.get? name = r.get? name := by
  induction layers generalizing r with
  | nil => exact ⟨r, rfl, stores, .refl r, fun _ _ => rfl⟩
  | cons layer rest ih =>
    simp only [List.all_cons, Bool.and_eq_true] at accepted
    obtain ⟨applied, step, stores', same, frame⟩ : ∃ applied,
        applyLayer language r layer = .ok applied ∧ applied.Each FieldKind.Stores ∧
          SameTags applied r ∧ ∀ name, layer.assignments.any (·.1 == name) = false →
            applied.get? name = r.get? name := by
      unfold applyLayer
      split
      · exact assign_isOk accepted.1 stores
      · exact ⟨r, rfl, stores, .refl r, fun _ _ => rfl⟩
    obtain ⟨next, steps, stores'', same', frame'⟩ := ih (by rw [same.schema]; exact accepted.2)
      stores'
    refine ⟨next, ?_, stores'', same'.trans same, fun name unnamed => ?_⟩
    · rw [List.foldlM_cons, step]
      exact steps
    · simp only [List.any_cons, Bool.or_eq_false_iff] at unnamed
      rw [frame' name unnamed.2, frame name unnamed.1]

/-- The baseline of a version, with what its fields start from. -/
theorem build_baseline (v : Version) (language : Language) :
    ∃ r, baseline.build v language = .ok r ∧ r.Each FieldKind.Stores ∧ r.version = v ∧
      r.language = language ∧ r.inheritsParent = false ∧
      ∀ field ∈ v.schema.fields,
        field.initial.toValue field.name field.kind field.kind.zero = .ok (r.current field) := by
  have initial : ∀ field ∈ v.schema.fields, ∃ value,
      field.initial.toValue field.name field.kind field.kind.zero = .ok value ∧
        field.kind.Stores value := by
    intro field member
    have made := Version.wellMade_of_mem member
    simp only [Schema.wellMade, Bool.and_eq_true] at made
    have zero := FieldKind.stores_zero made.1.1
    obtain ⟨value, denotes⟩ := Literal.toValue_isOk made.1.2 (FieldKind.admits_of_stores zero)
    exact ⟨value, denotes, Literal.stores_of_toValue made.1.1 made.2 zero denotes⟩
  obtain ⟨values, built, -⟩ := Outcome.mapM_isOk (P := fun _ => True) fun field member =>
    let ⟨value, denotes, _⟩ := initial field member
    ⟨value, denotes, trivial⟩
  have each : (StyleRecord.mk v language values false).Each FieldKind.Stores := by
    refine List.forall₂_iff_get.mpr ?_
    obtain ⟨length, related⟩ := List.forall₂_iff_get.mp (Outcome.forall₂_of_mapM built)
    refine ⟨length, fun i bound bound' => ?_⟩
    obtain ⟨value, denotes, stored⟩ := initial _ (List.getElem_mem bound)
    have same : value = values[i] := Except.ok.inj (denotes.symm.trans (related i bound bound'))
    subst same
    exact stored
  refine ⟨⟨v, language, values, false⟩, ?_, each, rfl, rfl, rfl, fun field member => ?_⟩
  · unfold build
    rw [built]
    rfl
  · obtain ⟨i, bound, rfl⟩ := List.getElem_of_mem member
    obtain ⟨length, related⟩ := List.forall₂_iff_get.mp (Outcome.forall₂_of_mapM built)
    have listed := congrArg (·[i]?) each.values_eq
    dsimp only at listed
    rw [List.getElem?_eq_getElem (length ▸ bound), List.getElem?_map,
      show (StyleRecord.mk v language values false).fields[i]? = some v.schema.fields[i] from
        List.getElem?_eq_getElem bound, Option.map_some, Option.some.injEq] at listed
    rw [← listed]
    exact related i bound (length ▸ bound)

/-- **Every accepted style can be built**, for every language, as a record of stored values that
holds the baseline wherever no layer assigns a field. -/
theorem build_isOk (accepted : content.accepted v.schema = true) (language : Language) :
    ∃ r, content.build v language = .ok r ∧ r.Each FieldKind.Stores ∧ r.version = v ∧
      r.language = language ∧ r.inheritsParent = false ∧
      ∀ field ∈ v.schema.fields, content.assigns field.name = false →
        field.initial.toValue field.name field.kind field.kind.zero = .ok (r.current field) := by
  induction content generalizing language with
  | baseline =>
    obtain ⟨r, built, stores, version, tag, inherits, initial⟩ := build_baseline v language
    exact ⟨r, built, stores, version, tag, inherits, fun field member _ => initial field member⟩
  | layered base fixed layers standIns ih =>
    simp only [StyleContent.accepted, Bool.and_eq_true] at accepted
    obtain ⟨start, started, stores, rfl, -, inherits, initial⟩ :=
      ih accepted.1 (fixed.getD (computedLanguage standIns language))
    obtain ⟨r, folded, stores', same, frame⟩ :=
      applyLayers_isOk (computedLanguage standIns language) accepted.2 stores
    refine ⟨{ r with language }, ?_, stores', same.1, rfl, same.2.2.trans inherits,
      fun field member unassigned => ?_⟩
    · unfold build
      simp only [started, Outcome.ok_bind, folded, Outcome.pure_eq]
    · simp only [StyleContent.assigns, Bool.or_eq_false_iff] at unassigned
      rw [initial field member unassigned.1]
      change Except.ok (start.current field) = Except.ok (r.current field)
      rw [StyleRecord.current, StyleRecord.current, frame field.name unassigned.2]

end StyleContent

namespace Style

variable {v : Version} {name : String} {language : Language}

/-- **A style that a version knows resolves** for every language that the version supports. -/
theorem resolve_isOk {style : NamedStyle} (supported : v.schema.supports language = true)
    (found : v.schema.style? name = some style) :
    ∃ r, (resolve v name language).outcome = .ok r := by
  rw [outcome_resolve, if_pos supported, found]
  have accepted := List.all_eq_true.mp v.tables_wellMade.2 style (List.mem_of_find?_eq_some found)
  obtain ⟨r, built, -⟩ := StyleContent.build_isOk accepted language
  exact ⟨r, built⟩

/-- **A resolved style is native**, does not inherit, and holds the baseline wherever no layer
assigns a field. -/
theorem native_of_resolve {r : StyleRecord} (h : (resolve v name language).outcome = .ok r) :
    r.Native ∧ r.version = v ∧ r.language = language ∧ r.inheritsParent = false ∧
      ∃ style, v.schema.style? name = some style ∧
        ∀ field ∈ v.schema.fields, style.content.assigns field.name = false →
          field.initial.toValue field.name field.kind field.kind.zero = .ok (r.current field) := by
  rw [outcome_resolve] at h
  split at h
  · split at h
    · rename_i style found
      have accepted := List.all_eq_true.mp v.tables_wellMade.2 style
        (List.mem_of_find?_eq_some found)
      obtain ⟨built, build, stores, version, tag, inherits, initial⟩ :=
        StyleContent.build_isOk accepted language
      rw [h, Except.ok.injEq] at build
      subst build
      exact ⟨⟨stores, by simp [inherits]⟩, version, tag, inherits, style, found, initial⟩
    · cases h
  · cases h

end Style

end FormatStyle
