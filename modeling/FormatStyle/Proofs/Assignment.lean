import FormatStyle.Proofs.Fields

/-! # Setting fields

Setting a field to a value that fits is `put`, a change of one field that cannot fail
(`set_eq_ok_iff`). A sequence of steps in which each settles a field of its own, and looks at no
other one that the sequence settles, amounts to one table of assignments (`foldlM_eq_putAll`).
-/

namespace FormatStyle.StyleRecord

variable {r a b : StyleRecord} {name other : String} {field : Field} {value : Value}
  {assignments : List (String × Value)} {P : FieldKind → Value → Prop}

/-- **The record with one field changed**, and nothing changed where the name is no field. -/
def put (r : StyleRecord) (name : String) (value : Value) : StyleRecord :=
  match r.schema.index? name with
  | some index => { r with values := r.values.set index value }
  | none => r

theorem put_of_index {i : Nat} (index : r.schema.index? name = some i) :
    r.put name value = { r with values := r.values.set i value } := by
  simp [put, index]

theorem put_of_unknown (unknown : r.schema.index? name = none) : r.put name value = r := by
  simp [put, unknown]

theorem sameTags_put (r : StyleRecord) (name : String) (value : Value) :
    SameTags (r.put name value) r := by
  unfold put
  split <;> exact .refl r

@[simp] theorem schema_put : (r.put name value).schema = r.schema := (sameTags_put r _ _).schema

@[simp] theorem fields_put : (r.put name value).fields = r.fields := (sameTags_put r _ _).fields

@[simp] theorem version_put : (r.put name value).version = r.version := (sameTags_put r _ _).1

@[simp] theorem language_put : (r.put name value).language = r.language :=
  (sameTags_put r _ _).2.1

@[simp] theorem inheritsParent_put : (r.put name value).inheritsParent = r.inheritsParent :=
  (sameTags_put r _ _).2.2

/-- A changed field holds its new value. -/
theorem get?_put (known : (r.get? name).isSome) : (r.put name value).get? name = some value := by
  unfold StyleRecord.get? at known ⊢
  unfold put
  cases index : r.schema.index? name with
  | none => simp [index] at known
  | some i =>
    simp only [index, Option.bind_some] at known
    obtain ⟨bound, _⟩ := List.getElem?_eq_some_iff.mp (Option.some_get known).symm
    change ((r.schema.index? name).bind _) = _
    simp [index, bound]

/-- The other fields stay as they are. -/
theorem get?_put_of_ne (ne : other ≠ name) : (r.put name value).get? other = r.get? other := by
  unfold put
  split
  · rename_i i index
    unfold StyleRecord.get?
    change ((r.schema.index? other).bind _) = _
    cases index' : r.schema.index? other with
    | none => rfl
    | some j =>
      simp [List.getElem?_set_ne (Schema.index?_apart index index' ne.symm)]
  · rfl

theorem current_put (known : (r.get? field.name).isSome) :
    (r.put field.name value).current field = value :=
  current_of_get? (get?_put known)

theorem current_put_of_ne (ne : field.name ≠ name) :
    (r.put name value).current field = r.current field := by
  rw [current, current, get?_put_of_ne ne]

/-- Changing a field to what it holds changes nothing. -/
theorem put_get? (holds : r.get? name = some value) : r.put name value = r := by
  unfold put
  unfold StyleRecord.get? at holds
  split
  · rename_i i index
    rw [index, Option.bind_some] at holds
    obtain ⟨bound, rfl⟩ := List.getElem?_eq_some_iff.mp holds
    rw [List.set_getElem_self]
  · rfl

/-- Of two changes of one field the second counts. -/
theorem put_put {value' : Value} : (r.put name value).put name value' = r.put name value' := by
  cases index : r.schema.index? name with
  | none => rw [put_of_unknown index, put_of_unknown index]
  | some i =>
    rw [put_of_index (i := i) (by rwa [schema_put]), put_of_index index, put_of_index index]
    simp

/-- Changes of different fields can be made in any order. -/
theorem put_comm {value' : Value} (apart : name ≠ other) :
    (r.put name value).put other value' = (r.put other value').put name value := by
  cases index : r.schema.index? name with
  | none =>
    rw [put_of_unknown index, put_of_unknown (r := r.put other value') (by rwa [schema_put])]
  | some i =>
    cases index' : r.schema.index? other with
    | none =>
      rw [put_of_unknown index', put_of_unknown (r := r.put name value) (by rwa [schema_put])]
    | some j =>
      rw [put_of_index (r := r.put name value) (i := j) (by rwa [schema_put]),
        put_of_index (r := r.put other value') (i := i) (by rwa [schema_put]),
        put_of_index index, put_of_index index']
      dsimp only
      rw [List.set_comm _ _ (Schema.index?_apart index index' apart)]

/-- Every record has been put together with what it holds. -/
theorem exists_put_self (r : StyleRecord) (name : String) : ∃ value, r.put name value = r := by
  cases holds : r.get? name with
  | some value => exact ⟨value, put_get? holds⟩
  | none =>
    refine ⟨.bool false, ?_⟩
    cases index : r.schema.index? name with
    | none => exact put_of_unknown index
    | some i =>
      rw [StyleRecord.get?, index, Option.bind_some, List.getElem?_eq_none_iff] at holds
      rw [put_of_index index, List.set_eq_of_length_le holds]

theorem Each.put (each : r.Each P)
    (fits : ∀ field, r.schema.field? name = some field → P field.kind value) :
    (r.put name value).Each P := by
  unfold StyleRecord.put
  split
  · rename_i i index
    obtain ⟨field, found, at_⟩ := Schema.field?_of_index? index
    obtain ⟨bound, rfl⟩ := List.getElem?_eq_some_iff.mp at_
    change List.Forall₂ (fun (field : Field) value => P field.kind value) r.fields
      (r.values.set i value)
    refine List.forall₂_iff_get.mpr ⟨by simpa using List.Forall₂.length_eq each, ?_⟩
    intro j bound_j bound_j'
    by_cases same : i = j
    · subst same
      simp only [List.get_eq_getElem, List.getElem_set_self]
      exact fits _ found
    · have := (List.forall₂_iff_get.mp each).2 j bound_j (by simpa using bound_j')
      simpa [List.getElem_set_ne same] using this
  · exact each

/-- **Setting a field** changes it, if the value fits. -/
theorem set_eq (r : StyleRecord) (name : String) (value : Value) : r.set name value =
    match r.schema.field? name with
    | some field =>
      if field.kind.admits value then .ok (r.put name value)
      else .error (.invalidValue name value.display)
    | none => .error (.unknownOption name) := by
  unfold set
  cases found : r.schema.field? name with
  | some field =>
    obtain ⟨i, index, at_⟩ := Schema.index?_of_field? found
    rw [index]
    dsimp only
    rw [show r.fields[i]? = some field from at_, put_of_index index]
  | none =>
    cases index : r.schema.index? name with
    | none => rfl
    | some i =>
      obtain ⟨field, found', -⟩ := Schema.field?_of_index? index
      rw [found] at found'
      cases found'

/-- **Setting a field succeeds exactly with a value that fits**, and then changes that field. -/
theorem set_eq_ok_iff {next : StyleRecord} :
    r.set name value = .ok next ↔
      ∃ field, r.schema.field? name = some field ∧ field.kind.admits value = true ∧
        next = r.put name value := by
  rw [set_eq]
  cases r.schema.field? name with
  | none => simp
  | some field =>
    dsimp only
    split
    · rename_i admitted
      simp [admitted, @eq_comm _ next]
    · rename_i rejected
      simp [rejected]

/-- Setting one field passes by a change of another one. -/
theorem set_put_of_ne {value' : Value} (apart : name ≠ other) :
    (r.put name value).set other value' = (·.put name value) <$> r.set other value' := by
  rw [set_eq, set_eq, schema_put, put_comm apart]
  split
  · split <;> rfl
  · rfl

theorem set_eq_put (found : r.schema.field? name = some field)
    (admitted : field.kind.admits value = true) : r.set name value = .ok (r.put name value) :=
  set_eq_ok_iff.mpr ⟨field, found, admitted, rfl⟩

/-- **The record with several fields changed**, one after the other. -/
def putAll (r : StyleRecord) (assignments : List (String × Value)) : StyleRecord :=
  assignments.foldl (fun r assignment => r.put assignment.1 assignment.2) r

@[simp] theorem putAll_nil : r.putAll [] = r := rfl

@[simp] theorem putAll_cons {assignment : String × Value} :
    r.putAll (assignment :: assignments) =
      (r.put assignment.1 assignment.2).putAll assignments := rfl

theorem putAll_append {more : List (String × Value)} :
    r.putAll (assignments ++ more) = (r.putAll assignments).putAll more :=
  List.foldl_append

theorem sameTags_putAll (r : StyleRecord) (assignments : List (String × Value)) :
    SameTags (r.putAll assignments) r := by
  induction assignments generalizing r with
  | nil => exact .refl r
  | cons assignment rest ih => exact (ih _).trans (sameTags_put r _ _)

@[simp] theorem schema_putAll : (r.putAll assignments).schema = r.schema :=
  (sameTags_putAll r _).schema

@[simp] theorem fields_putAll : (r.putAll assignments).fields = r.fields :=
  (sameTags_putAll r _).fields

/-- Fields that no assignment names stay as they are. -/
theorem get?_putAll_of_notMem (absent : name ∉ assignments.map Prod.fst) :
    (r.putAll assignments).get? name = r.get? name := by
  induction assignments generalizing r with
  | nil => rfl
  | cons assignment rest ih =>
    simp only [List.map_cons, List.mem_cons, not_or] at absent
    rw [putAll_cons, ih absent.2, get?_put_of_ne absent.1]

/-- Assigned fields hold what is assigned to them, where each is assigned once. -/
theorem get?_putAll_of_mem (distinct : (assignments.map Prod.fst).Nodup)
    (member : (name, value) ∈ assignments) (known : (r.get? name).isSome) :
    (r.putAll assignments).get? name = some value := by
  induction assignments generalizing r with
  | nil => cases member
  | cons assignment rest ih =>
    rw [List.map_cons, List.nodup_cons] at distinct
    rw [putAll_cons]
    cases member with
    | head => rw [get?_putAll_of_notMem distinct.1, get?_put known]
    | tail _ member =>
      have apart : name ≠ assignment.1 := by
        rintro rfl
        exact distinct.1 (List.mem_map.mpr ⟨_, member, rfl⟩)
      exact ih distinct.2 member (by rwa [get?_put_of_ne apart])

/-- **Assignments of other values change the fields that they name**, and no more. -/
theorem get?_putAll_ne_iff (distinct : (assignments.map Prod.fst).Nodup)
    (others : ∀ assignment ∈ assignments, (r.get? assignment.1).isSome ∧
      r.get? assignment.1 ≠ some assignment.2) :
    (r.putAll assignments).get? name ≠ r.get? name ↔ name ∈ assignments.map Prod.fst := by
  refine ⟨not_imp_comm.mp get?_putAll_of_notMem, fun named => ?_⟩
  obtain ⟨assignment, member, rfl⟩ := List.mem_map.mp named
  obtain ⟨known, other⟩ := others assignment member
  rw [get?_putAll_of_mem distinct member known]
  exact other.symm

theorem Each.putAll (each : r.Each P) (fits : ∀ assignment ∈ assignments, ∀ field,
    r.schema.field? assignment.1 = some field → P field.kind assignment.2) :
    (r.putAll assignments).Each P := by
  induction assignments generalizing r with
  | nil => exact each
  | cons assignment rest ih =>
    refine ih (each.put (fits assignment List.mem_cons_self)) fun next member field found => ?_
    exact fits next (List.mem_cons_of_mem _ member) field (by rwa [schema_put] at found)

/-- Setting several fields succeeds exactly where every value fits its field. -/
theorem setAll_eq_ok_iff {next : StyleRecord} :
    r.setAll assignments = .ok next ↔
      (∀ assignment ∈ assignments, ∃ field, r.schema.field? assignment.1 = some field ∧
        field.kind.admits assignment.2 = true) ∧ next = r.putAll assignments := by
  unfold setAll
  induction assignments generalizing r with
  | nil =>
    constructor
    · rintro ⟨⟩
      exact ⟨by simp, rfl⟩
    · rintro ⟨_, rfl⟩
      rfl
  | cons assignment rest ih =>
    rw [List.foldlM_cons, Outcome.bind_eq_ok_iff]
    simp only [set_eq_ok_iff, List.mem_cons, forall_eq_or_imp, putAll_cons]
    constructor
    · rintro ⟨_, ⟨field, found, admitted, rfl⟩, others⟩
      obtain ⟨fit, rfl⟩ := ih.mp others
      rw [schema_put] at fit
      exact ⟨⟨⟨field, found, admitted⟩, fit⟩, rfl⟩
    · rintro ⟨⟨⟨field, found, admitted⟩, fit⟩, rfl⟩
      exact ⟨_, ⟨field, found, admitted, rfl⟩, ih.mpr ⟨by rwa [schema_put], rfl⟩⟩

/-- Setting several fields keeps a record well formed. -/
theorem WellFormed.setAll {next : StyleRecord} (wellFormed : r.WellFormed)
    (h : r.setAll assignments = .ok next) : next.WellFormed :=
  Outcome.foldlM_preserves (fun _ _ _ _ set wellFormed => wellFormed.set set) h wellFormed

/-- **Steps that each settle one field** make one table of assignments. A step may rely on the
record still holding what it started with under the step's own name. -/
theorem foldlM_eq_putAll {α : Type} {key : α → String} {settled : α → Value}
    {step : StyleRecord → α → Except StyleError StyleRecord} {l : List α}
    (distinct : (l.map key).Nodup) (each : r.Each P)
    (steps : ∀ x ∈ l, ∀ p : StyleRecord, SameTags p r → p.Each P →
      p.get? (key x) = r.get? (key x) →
      step p x = .ok (p.put (key x) (settled x)) ∧ (p.put (key x) (settled x)).Each P) :
    l.foldlM step r = .ok (r.putAll (l.map fun x => (key x, settled x))) := by
  induction l generalizing r with
  | nil => rfl
  | cons x l ih =>
    rw [List.map_cons, List.nodup_cons] at distinct
    obtain ⟨stepped, kept⟩ := steps x List.mem_cons_self r (.refl r) each rfl
    rw [List.foldlM_cons, stepped, List.map_cons, putAll_cons]
    refine ih distinct.2 kept fun y member p same each' holds => ?_
    refine steps y (List.mem_cons_of_mem _ member) p (same.trans (sameTags_put r _ _)) each' ?_
    rw [holds, get?_put_of_ne]
    rintro same_key
    exact distinct.1 (same_key ▸ List.mem_map_of_mem member)

end FormatStyle.StyleRecord
