import FormatStyle.Proofs.Outcome
import FormatStyle.Record
import Mathlib.Data.List.Nodup
import Mathlib.Data.List.Sort

/-! # Fields of records

A record is a list of values by position that is read and written by name. Field names are distinct
(`Version.nodup_names`), so a record is known by what it holds under each name (`ext_get?`), and
setting a field that fits is `put`, which always succeeds and touches nothing else. Steps that each
settle a field of their own amount to one table of assignments (`foldlM_eq_putAll`).
-/

namespace FormatStyle

/-- Where keys are distinct, one element only has the key of an element. -/
theorem filter_key_eq_singleton {α : Type} {key : α → String} {xs : List α} {x : α}
    (distinct : (xs.map key).Nodup) (member : x ∈ xs) : xs.filter (key · == key x) = [x] := by
  induction xs with
  | nil => cases member
  | cons first rest ih =>
    rw [List.map_cons, List.nodup_cons] at distinct
    rcases List.mem_cons.mp member with rfl | later
    · rw [List.filter_cons_of_pos (by simp), List.cons_inj_right, List.filter_eq_nil_iff]
      intro other listed same
      exact distinct.1 (beq_iff_eq.mp same ▸ List.mem_map_of_mem listed)
    · rw [List.filter_cons_of_neg, ih distinct.2 later]
      intro same
      exact distinct.1 (beq_iff_eq.mp same ▸ List.mem_map_of_mem later)

namespace Schema

variable {schema : Schema} {name : String} {field : Field} {i : Nat}

/-- The names of the fields, in table order. -/
def names (schema : Schema) : List String := schema.fields.map (·.name)

theorem name_of_field? (found : schema.field? name = some field) : field.name = name := by
  simpa using List.find?_some found

theorem mem_of_field? (found : schema.field? name = some field) : field ∈ schema.fields :=
  List.mem_of_find?_eq_some found

theorem field?_isSome_iff : (schema.field? name).isSome = true ↔ name ∈ schema.names := by
  simp [field?, names, List.find?_isSome]

theorem name_of_index? (found : schema.index? name = some i)
    (at_ : schema.fields[i]? = some field) : field.name = name := by
  obtain ⟨bound, matched, _⟩ := List.findIdx?_eq_some_iff_getElem.mp found
  rw [List.getElem?_eq_getElem bound, Option.some.injEq] at at_
  subst at_
  simpa using matched

/-- A field stands at the position of its name. -/
theorem index?_of_field? (found : schema.field? name = some field) :
    ∃ i, schema.index? name = some i ∧ schema.fields[i]? = some field := by
  unfold field? at found
  unfold index?
  generalize schema.fields = fields at found ⊢
  induction fields with
  | nil => cases found
  | cons f fs ih =>
    rw [List.find?_cons] at found
    rw [List.findIdx?_cons]
    cases matched : f.name == name with
    | true =>
      rw [matched] at found
      cases found
      exact ⟨0, rfl, rfl⟩
    | false =>
      rw [matched] at found
      obtain ⟨i, index, at_⟩ := ih found
      exact ⟨i + 1, by simp [index], by simpa using at_⟩

theorem field?_of_index? (found : schema.index? name = some i) :
    ∃ field, schema.field? name = some field ∧ schema.fields[i]? = some field := by
  obtain ⟨bound, matched, _⟩ := List.findIdx?_eq_some_iff_getElem.mp found
  have known : (schema.field? name).isSome := by
    rw [field?, List.find?_isSome]
    exact ⟨_, List.getElem_mem bound, matched⟩
  obtain ⟨field, field_found⟩ := Option.isSome_iff_exists.mp known
  obtain ⟨j, index, at_⟩ := index?_of_field? field_found
  rw [found, Option.some.injEq] at index
  subst index
  exact ⟨field, field_found, at_⟩

/-- Two names stand at two positions. -/
theorem index?_apart {other : String} {j : Nat} (found : schema.index? name = some i)
    (found' : schema.index? other = some j) (apart : name ≠ other) : i ≠ j := by
  rintro rfl
  obtain ⟨field, -, at_⟩ := field?_of_index? found
  refine apart ?_
  rw [← name_of_index? found at_, name_of_index? found' at_]

/-- Where names are distinct, a name finds the one field that carries it. -/
theorem field?_of_mem (distinct : schema.names.Nodup) (member : field ∈ schema.fields) :
    schema.field? field.name = some field := by
  have known : (schema.field? field.name).isSome := by
    rw [field?, List.find?_isSome]
    exact ⟨field, member, by simp⟩
  obtain ⟨other, found⟩ := Option.isSome_iff_exists.mp known
  rw [found, List.inj_on_of_nodup_map distinct (mem_of_field? found) member (name_of_field? found)]

/-- The simple kind of a field. -/
def scalarKind? (schema : Schema) (name : String) : Option ScalarKind :=
  (schema.field? name).bind fun field =>
    match field.kind with
    | .scalar kind => some kind
    | _ => none

/-- The parts of a field that is a record. -/
def recordParts? (schema : Schema) (name : String) : Option (List Part) :=
  (schema.field? name).bind fun field =>
    match field.kind with
    | .record parts => some parts
    | _ => none

theorem field?_of_scalarKind? {kind : ScalarKind} (h : schema.scalarKind? name = some kind) :
    ∃ field, schema.field? name = some field ∧ field.kind = .scalar kind := by
  obtain ⟨field, found, matched⟩ := Option.bind_eq_some_iff.mp h
  split at matched
  · rename_i is_scalar
    cases matched
    exact ⟨field, found, is_scalar⟩
  · cases matched

theorem field?_of_recordParts? {parts : List Part} (h : schema.recordParts? name = some parts) :
    ∃ field, schema.field? name = some field ∧ field.kind = .record parts := by
  obtain ⟨field, found, matched⟩ := Option.bind_eq_some_iff.mp h
  split at matched
  · rename_i is_record
    cases matched
    exact ⟨field, found, is_record⟩
  · cases matched

end Schema

/-- **Field names are distinct** in every version. -/
theorem Version.nodup_names (v : Version) : v.schema.names.Nodup := by
  -- Names as numbers: once they are sorted, it is enough to compare neighbours.
  have rising : ∀ v ∈ Version.all,
      ((v.schema.names.map fun name => name.toByteArray.data.toList.foldl
        (fun code byte => 256 * code + byte.toNat) 0).insertionSort (· ≤ ·)).IsChain (· < ·) := by
    decide +kernel
  have distinct := (List.isChain_iff_pairwise.mp (rising v v.mem_all)).imp ne_of_lt
  exact ((List.perm_insertionSort _ _).nodup_iff.mp distinct).of_map _

/-- In a schema of a version a name finds the field that carries it. -/
theorem Version.field?_of_mem {v : Version} {field : Field} (member : field ∈ v.schema.fields) :
    v.schema.field? field.name = some field :=
  Schema.field?_of_mem v.nodup_names member

namespace StyleRecord

variable {r a b : StyleRecord} {name other : String} {field : Field} {value : Value}

/-- **A property of every value**, which may depend on the kind of its field. -/
def Each (P : FieldKind → Value → Prop) (r : StyleRecord) : Prop :=
  List.Forall₂ (fun field value => P field.kind value) r.fields r.values

theorem Each.mono {P Q : FieldKind → Value → Prop} (implies : ∀ kind value, P kind value →
    Q kind value) (each : r.Each P) : r.Each Q :=
  List.Forall₂.imp (fun (field : Field) value => implies field.kind value)
    (show List.Forall₂ (fun (field : Field) value => P field.kind value) _ _ from each)

theorem wellFormed_iff : r.WellFormed ↔ r.Each fun kind value => kind.admits value = true := by
  unfold WellFormed Each
  generalize r.fields = fields
  generalize r.values = values
  induction fields generalizing values with
  | nil => cases values <;> simp [valuesFit]
  | cons field fields ih => cases values <;> simp [valuesFit, ih]

/-- Two records for one version have the same fields. -/
theorem SameTags.fields (same : SameTags a b) : a.fields = b.fields := by
  unfold StyleRecord.fields schema
  rw [same.1]

theorem SameTags.schema (same : SameTags a b) : a.schema = b.schema := by
  unfold StyleRecord.schema
  rw [same.1]

theorem SameTags.symm (same : SameTags a b) : SameTags b a :=
  ⟨same.1.symm, same.2.1.symm, same.2.2.symm⟩

/-- A field of a record whose values all have a property holds a value with it. -/
theorem Each.get? {P : FieldKind → Value → Prop} (each : r.Each P)
    (found : r.schema.field? name = some field) :
    ∃ value, r.get? name = some value ∧ P field.kind value := by
  obtain ⟨i, index, at_⟩ := Schema.index?_of_field? found
  obtain ⟨bound, rfl⟩ := List.getElem?_eq_some_iff.mp at_
  have bound' : i < r.values.length := by rw [← List.Forall₂.length_eq each]; exact bound
  exact ⟨r.values[i], by simp [StyleRecord.get?, index, bound'],
    List.forall₂_iff_get.mp each |>.2 i bound bound'⟩

/-- A value that a record holds has the property of all its values. -/
theorem Each.of_get? {P : FieldKind → Value → Prop} (each : r.Each P)
    (found : r.schema.field? name = some field) (holds : r.get? name = some value) :
    P field.kind value := by
  obtain ⟨held, holds', has⟩ := each.get? found
  rw [holds, Option.some.injEq] at holds'
  exact holds' ▸ has

/-- A simple field of a well-formed record holds what its kind admits. -/
theorem WellFormed.admits_of_get? {kind : ScalarKind} (wellFormed : r.WellFormed)
    (known : r.schema.scalarKind? name = some kind) (holds : r.get? name = some value) :
    kind.admits value = true := by
  obtain ⟨field, found, scalar⟩ := Schema.field?_of_scalarKind? known
  have admitted := (wellFormed_iff.mp wellFormed).of_get? found holds
  rwa [scalar] at admitted

/-- A well-formed record holds a value of its kind in every simple field. -/
theorem WellFormed.get?_scalar {kind : ScalarKind} (wellFormed : r.WellFormed)
    (known : r.schema.scalarKind? name = some kind) :
    ∃ value, r.get? name = some value ∧ kind.admits value = true := by
  obtain ⟨field, found, -⟩ := Schema.field?_of_scalarKind? known
  obtain ⟨value, holds, -⟩ := (wellFormed_iff.mp wellFormed).get? found
  exact ⟨value, holds, wellFormed.admits_of_get? known holds⟩

theorem get?_eq_none (unknown : r.schema.field? name = none) : r.get? name = none := by
  unfold StyleRecord.get?
  cases index : r.schema.index? name with
  | none => rfl
  | some i =>
    obtain ⟨field, found, _⟩ := Schema.field?_of_index? index
    rw [unknown] at found
    cases found

/-- What a record holds is under the name of a field. -/
theorem field?_of_get? (holds : r.get? name = some value) :
    ∃ field, r.schema.field? name = some field := by
  cases found : r.schema.field? name with
  | none => rw [get?_eq_none found] at holds; cases holds
  | some field => exact ⟨field, rfl⟩

theorem current_of_get? (holds : r.get? field.name = some value) : r.current field = value := by
  simp [current, holds]

theorem Each.get?_eq_current {P : FieldKind → Value → Prop} (each : r.Each P)
    (found : r.schema.field? field.name = some field) :
    r.get? field.name = some (r.current field) := by
  obtain ⟨value, holds, _⟩ := each.get? found
  rw [holds, current_of_get? holds]

/-- What a record holds for a field has the property of all its values. -/
theorem Each.current {P : FieldKind → Value → Prop} (each : r.Each P)
    (found : r.schema.field? field.name = some field) : P field.kind (r.current field) :=
  each.of_get? found (each.get?_eq_current found)

/-- A record lists what it holds under the name of each field. -/
theorem Each.values_eq {P : FieldKind → Value → Prop} (each : r.Each P) :
    r.values = r.fields.map r.current := by
  refine List.ext_getElem (by simp [List.Forall₂.length_eq each]) fun i bound bound' => ?_
  have bound'' : i < r.fields.length := by simpa using bound'
  have found := r.version.field?_of_mem (List.getElem_mem bound'')
  have holds : r.get? r.fields[i].name = some (r.current r.fields[i]) :=
    each.get?_eq_current found
  obtain ⟨j, index, at_⟩ := Schema.index?_of_field? found
  obtain ⟨bound_j, same⟩ := List.getElem?_eq_some_iff.mp at_
  have position : j = i := by
    have length : r.version.schema.names.length = r.fields.length := List.length_map _
    have names : r.version.schema.names.get ⟨j, length ▸ bound_j⟩ =
        r.version.schema.names.get ⟨i, length ▸ bound''⟩ := by
      simp only [Schema.names, List.get_eq_getElem, List.getElem_map]
      exact congrArg Field.name same
    exact congrArg Fin.val (List.nodup_iff_injective_get.mp r.version.nodup_names names)
  subst position
  have held : r.get? r.fields[j].name = r.values[j]? := by
    unfold StyleRecord.get?
    rw [show r.schema.index? r.fields[j].name = some j from index]
    rfl
  rw [held, List.getElem?_eq_getElem bound, Option.some.injEq] at holds
  simpa using holds

theorem Each.toList_eq {P : FieldKind → Value → Prop} (each : r.Each P) :
    r.toList = r.fields.map fun field => (field, r.current field) := by
  unfold toList
  rw [each.values_eq, List.zip_map_right]
  simp [List.zip, List.zipWith_self, List.map_map, Function.comp_def]

/-- **Two records that hold the same under every name are equal.** -/
theorem ext_get? {P Q : FieldKind → Value → Prop} (each : a.Each P) (each' : b.Each Q)
    (same : SameTags a b) (agree : ∀ field ∈ a.fields, a.get? field.name = b.get? field.name) :
    a = b := by
  have values : a.values = b.values := by
    rw [each.values_eq, each'.values_eq, ← same.fields]
    refine List.map_congr_left fun field member => ?_
    rw [current, current, agree field member]
  obtain ⟨version, language, inherits⟩ := same
  cases a
  cases b
  cases version
  cases language
  cases inherits
  cases values
  rfl

end StyleRecord

end FormatStyle
