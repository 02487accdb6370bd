import FormatStyle.Proofs.Courses

/-! # Single fields of styles

What a style holds for one field follows from the literals that its layers assign to that field
alone (`StyleContent.value?`). So a question about a few fields of a style is answered from a few
entries of its tables, without building the rest of its record (`Style.eq_sketch_of_resolve`).
-/

namespace FormatStyle

open StyleRecord

namespace StyleContent

/-- What a field holds after one assignment of a table. -/
def assignField (field : Field) (current : Value) (assignment : String × Literal) : Option Value :=
  if assignment.1 = field.name then
    (assignment.2.toValue field.name field.kind current).toOption
  else some current

/-- What a field holds after a layer. -/
def layerField (language : Language) (field : Field) (current : Value) (layer : Layer) :
    Option Value :=
  if layer.scope.applies language then layer.assignments.foldlM (assignField field) current
  else some current

/-- **What a style holds for a field**, from the literals that its layers assign to it. -/
def value? (field : Field) : StyleContent → Language → Option Value
  | baseline, _ => (field.initial.toValue field.name field.kind field.kind.zero).toOption
  | layered base fixed layers standIns, language => do
    let computed := computedLanguage standIns language
    let start ← base.value? field (fixed.getD computed)
    layers.foldlM (layerField computed field) start

variable {r next : StyleRecord} {field : Field} {v : Version} {content : StyleContent}
  {language : Language}

private theorem assignField_of_assignOne {assignment : String × Literal}
    (member : field ∈ r.fields) (h : r.assignOne assignment = .ok next) :
    assignField field (r.current field) assignment = some (next.current field) := by
  obtain ⟨field', current, value, found, holds, denotes, rfl⟩ := assignOne_eq_ok h
  unfold assignField
  split
  · rename_i named
    have same : field' = field := by
      rw [named] at found
      exact Option.some.inj (found.symm.trans (r.version.field?_of_mem member))
    subst same
    rw [named] at holds ⊢
    rw [current_of_get? holds, denotes, current_put (Option.isSome_iff_exists.mpr ⟨_, holds⟩)]
    rfl
  · rename_i other
    rw [current_put_of_ne (Ne.symm other)]

/-- A table of assignments changes a field by the assignments to it. -/
private theorem foldlM_assignField {assignments : List (String × Literal)} (member : field ∈ r.fields)
    (h : (r.assign assignments).toExcept = .ok next) :
    assignments.foldlM (assignField field) (r.current field) = some (next.current field) := by
  induction assignments generalizing r with
  | nil =>
    cases h
    rfl
  | cons assignment rest ih =>
    cases one : r.assignOne assignment with
    | error e =>
      rw [assign_cons_of_error one] at h
      cases h
    | ok r' =>
      rw [assign_cons_of_ok one] at h
      rw [List.foldlM_cons, assignField_of_assignOne member one]
      exact ih (by rw [(sameTags_assignOne one).fields]; exact member) h

/-- Layers change a field by the assignments to it. -/
private theorem foldlM_layerField {layers : List Layer} (member : field ∈ r.fields)
    (h : layers.foldlM (applyLayer language) r = .ok next) :
    layers.foldlM (layerField language field) (r.current field) = some (next.current field) := by
  induction layers generalizing r with
  | nil =>
    cases h
    rfl
  | cons layer rest ih =>
    rw [List.foldlM_cons] at h
    obtain ⟨r', applied, h⟩ := Outcome.bind_eq_ok_iff.mp h
    have step : layerField language field (r.current field) layer = some (r'.current field) ∧
        r'.fields = r.fields := by
      unfold applyLayer at applied
      unfold layerField
      split at applied
      · rename_i applies
        rw [if_pos applies]
        refine ⟨foldlM_assignField member applied, ?_⟩
        rw [← Assigned.record_of_toExcept applied]
        exact (sameTags_assign r layer.assignments).fields
      · rename_i skipped
        rw [if_neg skipped, Except.ok.inj applied]
        exact ⟨rfl, rfl⟩
    rw [List.foldlM_cons, step.1]
    exact ih (by rw [step.2]; exact member) h

/-- **A built style holds for a field what its literals denote.** -/
theorem value?_of_build (member : field ∈ v.schema.fields)
    (h : content.build v language = .ok r) :
    content.value? field language = some (r.current field) := by
  induction content generalizing language r with
  | baseline =>
    obtain ⟨built, build, -, -, -, -, initial⟩ := build_baseline v language
    obtain rfl := Except.ok.inj (build.symm.trans h)
    rw [value?, initial field member]
    rfl
  | layered base fixed layers standIns ih =>
    unfold build at h
    obtain ⟨start, started, h⟩ := Outcome.bind_eq_ok_iff.mp h
    obtain ⟨layered, folded, h⟩ := Outcome.bind_eq_ok_iff.mp h
    obtain rfl := Except.ok.inj h
    have listed : field ∈ start.fields := by
      rw [StyleRecord.fields, StyleRecord.schema, (tags_of_build started).1]
      exact member
    unfold value?
    dsimp only
    rw [ih started]
    exact (foldlM_layerField listed folded : _ = some (layered.current field))

end StyleContent

/-- **A style, field by field.** Each field is computed on its own, where it is looked at. -/
def NamedStyle.sketch (style : NamedStyle) (v : Version) (language : Language) : StyleRecord :=
  ⟨v, language, v.schema.fields.map fun field =>
    (style.content.value? field language).getD field.kind.zero, false⟩

variable {v : Version} {name : String} {language : Language} {r : StyleRecord}

/-- **A resolved style is what its literals denote**, field by field. -/
theorem Style.eq_sketch_of_resolve (h : (Style.resolve v name language).outcome = .ok r) :
    language ∈ v.schema.languages ∧ ∃ style ∈ v.schema.styles, v.schema.style? name = some style ∧
      r = style.sketch v language := by
  obtain ⟨native, version, tag, plain, -⟩ := Style.native_of_resolve h
  rw [Style.outcome_resolve] at h
  split at h
  · rename_i supported
    split at h
    · rename_i style found
      refine ⟨List.contains_iff_mem.mp supported, style, List.mem_of_find?_eq_some found, found, ?_⟩
      have values : r.values = (style.sketch v language).values := by
        rw [native.stores.values_eq, StyleRecord.fields, StyleRecord.schema, version]
        refine List.map_congr_left fun field member => ?_
        rw [StyleContent.value?_of_build member h]
        rfl
      change StyleRecord.mk r.version r.language r.values r.inheritsParent = _
      rw [version, tag, plain, values]
      rfl
    · cases h
  · cases h

/-- **A written out style is its sketch** in every field that no preset writes. -/
theorem Migration.get?_of_expandedStyle (expanded : (expandedStyle v name language).outcome = .ok r) :
    language ∈ v.schema.languages ∧ ∃ style ∈ v.schema.styles, v.schema.style? name = some style ∧
      ∀ field, field ∉ v.schema.presetWrites →
        r.get? field = (style.sketch v language).get? field := by
  obtain ⟨resolved, resolve, -, frame⟩ := resolve_of_expandedStyle expanded
  obtain ⟨supported, style, listed, found, rfl⟩ := Style.eq_sketch_of_resolve resolve
  exact ⟨supported, style, listed, found, frame⟩

end FormatStyle
