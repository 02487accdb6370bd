import FormatStyle.Proofs.Reads

/-! # Steps around an older spelling

Each older spelling is about one field, the one that it stands for, and no two are about the same
(`Version.legacy_about`, `Version.legacy_apart`). All other steps of reading a document pass that
field by (`StyleRecord.PassesBy`): they neither look at it nor change it.
-/

namespace FormatStyle

open StyleRecord
open Yaml (Node Mapping)

/-! ## Steps that pass a field by -/

namespace StyleRecord

variable {r : StyleRecord} {name other : String} {value : Value} {writes : List (String × Value)}

/-- **A step that passes a field by**: what the field holds makes no difference to it, and it leaves
that as it is. -/
def PassesBy (name : String) (step : StyleRecord → Except StyleError StyleRecord) : Prop :=
  ∀ r value, step (r.put name value) = (·.put name value) <$> step r

namespace PassesBy

variable {step step' : StyleRecord → Except StyleError StyleRecord}

theorem pure : PassesBy name .ok := fun _ _ => rfl

theorem andThen (first : PassesBy name step) (rest : PassesBy name step') :
    PassesBy name fun r => step r >>= step' := by
  intro r value
  dsimp only
  rw [first r value]
  cases step r with
  | error e => rfl
  | ok next => exact rest next value

/-- Steps that all pass a field by pass it by together. -/
theorem foldlM {α : Type} {step : StyleRecord → α → Except StyleError StyleRecord} {l : List α}
    (each : ∀ a ∈ l, PassesBy name fun r => step r a) : PassesBy name (l.foldlM step) := by
  induction l with
  | nil => exact pure
  | cons a l ih =>
    rw [List.forall_mem_cons] at each
    have both := each.1.andThen (ih each.2)
    simpa only [List.foldlM_cons] using both

theorem set (apart : name ≠ other) : PassesBy name fun r => r.set other value :=
  fun _ _ => set_put_of_ne apart

theorem setAll (apart : ∀ write ∈ writes, write.1 ≠ name) :
    PassesBy name fun r => r.setAll writes :=
  foldlM fun write member => set (apart write member).symm

end PassesBy

/-- Changes of one field come to one change of it. -/
private theorem exists_putAll_eq_put (r : StyleRecord) (same : ∀ write ∈ writes, write.1 = name) :
    ∃ value, r.putAll writes = r.put name value := by
  induction writes generalizing r with
  | nil =>
    obtain ⟨value, self⟩ := r.exists_put_self name
    exact ⟨value, self.symm⟩
  | cons write writes ih =>
    rw [List.forall_mem_cons] at same
    obtain ⟨value, changed⟩ := ih (r.put write.1 write.2) same.2
    refine ⟨value, ?_⟩
    rw [putAll_cons, changed, same.1, put_put]

end StyleRecord

/-! ## What an older spelling is about -/

namespace Legacy

/-- **The field that an older spelling is about**: it looks at no other one and changes no other
one. -/
def About : Legacy → String → Prop
  | synonym _ target, field => target = field
  | mapped _ _ target _ _, field => target = field
  | group _ combine, field =>
    (∀ values view basedOn, ∀ write ∈ combine values view basedOn, write.1 = field) ∧
      ∀ values view view' basedOn, view field = view' field →
        combine values view basedOn = combine values view' basedOn

/-- **The fields that an older spelling stands for**: its target, or whatever its combination can
assign. -/
def Replaces : Legacy → String → Prop
  | synonym _ target, field => target = field
  | mapped _ _ target _ _, field => target = field
  | group _ combine, field =>
    ∃ values view basedOn value, (field, value) ∈ combine values view basedOn

variable {legacy : Legacy} {field other : String}

/-- An older spelling stands for no other field than the one that it is about. -/
theorem Replaces.eq (replaces : legacy.Replaces field) (about : legacy.About other) :
    field = other := by
  cases legacy with
  | synonym name target => exact replaces.symm.trans about
  | mapped name kind target map onlyIf => exact replaces.symm.trans about
  | group names combine =>
    obtain ⟨values, view, basedOn, value, written⟩ := replaces
    exact about.1 values view basedOn _ written

end Legacy

namespace Version

open Catalogue

theorem initializerPacking_about {names : List (String × ScalarKind)} :
    (Legacy.group names V16.initializerPackingOfFlags).About "PackConstructorInitializers" := by
  refine ⟨fun values view basedOn write written => ?_, fun values view view' basedOn same => ?_⟩
  · unfold V16.initializerPackingOfFlags at written
    dsimp only at written
    split at written
    · rw [List.mem_singleton.mp written]
    · cases written
  · unfold V16.initializerPackingOfFlags
    rw [same]

theorem lineEnding_about {names : List (String × ScalarKind)} :
    (Legacy.group names V16.lineEndingOfFlags).About "LineEnding" := by
  refine ⟨fun values view basedOn write written => ?_, fun values view view' basedOn same => ?_⟩
  · unfold V16.lineEndingOfFlags at written
    dsimp only at written
    repeat' split at written
    all_goals simp_all
  · unfold V16.lineEndingOfFlags
    rw [same]

/-- The fields that older spellings are about, in the order of the spellings. -/
def legacyFields : Version → List String
  | v3_4 => []
  | v3_6 => ["IndentWrappedFunctionNames", "SpaceBeforeParens", "PointerAlignment",
      "DerivePointerAlignment"]
  | v12 => ["AlignEscapedNewlines", "DerivePointerAlignment", "IndentWrappedFunctionNames",
      "PointerAlignment", "SpaceBeforeParens", "BreakInheritanceList",
      "BreakConstructorInitializers"]
  | v16 => ["AlignEscapedNewlines", "DerivePointerAlignment", "IndentWrappedFunctionNames",
      "IndentRequiresClause", "PointerAlignment", "SpaceBeforeParens", "BreakInheritanceList",
      "BreakConstructorInitializers", "PackConstructorInitializers", "LineEnding"]

/-- **Each older spelling is about one field.** -/
theorem legacy_about (v : Version) : List.Forall₂ Legacy.About v.schema.legacy v.legacyFields := by
  cases v with
  | v3_4 => exact .nil
  | v3_6 => repeat' constructor
  | v12 => repeat' constructor
  | v16 =>
    change List.Forall₂ Legacy.About V16.legacy _
    unfold V16.legacy legacyFields
    repeat' apply List.Forall₂.cons
    all_goals
      first | exact rfl | exact initializerPacking_about | exact lineEnding_about | exact .nil

/-- **No two older spellings are about the same field, or have a name in common**, and the fields
are simple ones. -/
theorem legacy_apart (v : Version) : v.legacyFields.Nodup ∧
    (v.schema.legacy.flatMap Legacy.names).Nodup ∧
    ∀ name ∈ v.legacyFields, (v.schema.scalarKind? name).isSome = true := by
  have checked : ∀ v ∈ Version.all, v.legacyFields.Nodup ∧
      (v.schema.legacy.flatMap Legacy.names).Nodup ∧
      ∀ name ∈ v.legacyFields, (v.schema.scalarKind? name).isSome = true := by
    decide +kernel
  exact checked v v.mem_all

end Version

/-! ## Steps of reading a document -/

namespace Document

variable {v : Version} {m m' : Mapping} {basedOn : Option String} {r next : StyleRecord}
  {legacy : Legacy} {field : Field} {name target : String} {kind : ScalarKind}

/-- A key whose values stand for others: the row of its table for what it holds is what the field is
set to, where the field holds what is required. -/
theorem outcome_readMapped {map : List (Literal × Literal)} {onlyIf : Option Literal}
    (known : r.schema.field? target = some field) :
    (readLegacy m basedOn r (.mapped name kind target map onlyIf)).outcome =
      (readOwn r.schema.conventions.strictKeys m name kind).outcome >>= fun own =>
        (own.bind fun value => map.find? fun row => row.1.holds value).elim (.ok r) fun row =>
          if onlyIf.all (·.holds (r.current field)) then
            row.2.toValue field.name field.kind (r.current field) >>= r.set target
          else .ok r := by
  unfold readLegacy
  rw [Traced.outcome_bind]
  refine bind_congr fun own => ?_
  rw [known]
  cases own with
  | none => rfl
  | some value =>
    rw [Option.bind_some]
    dsimp only
    cases map.find? fun row => row.1.holds value with
    | none => rfl
    | some row =>
      rw [Option.elim_some]
      dsimp only
      split
      · rw [Traced.outcome_bind]
        rfl
      · rfl

/-- Keys that are combined: what their values come to is assigned, where one of them is there. -/
theorem outcome_readGroup {names : List (String × ScalarKind)}
    {combine : List (Option Value) → View → Option String → List (String × Value)} :
    (readLegacy m basedOn r (.group names combine)).outcome =
      (names.mapM fun key =>
        (readOwn r.schema.conventions.strictKeys m key.1 key.2).outcome) >>= fun values =>
          if values.any Option.isSome then r.setAll (combine values r.view basedOn)
          else .ok r := by
  unfold readLegacy
  rw [Traced.outcome_bind, Traced.outcome_mapM]
  refine bind_congr fun values => ?_
  split <;> rfl

/-- **An older spelling passes by** all fields but the one that it is about. -/
theorem readLegacy_passesBy (about : legacy.About target) (apart : name ≠ target) :
    PassesBy name fun r => (readLegacy m basedOn r legacy).outcome := by
  intro r value
  cases legacy with
  | synonym key _ =>
    obtain rfl := about
    unfold readLegacy
    simp only [schema_put]
    split
    · rename_i node field _ found
      have named := Schema.name_of_field? found
      rw [current_put_of_ne (named ▸ apart.symm), Traced.outcome_bind, Traced.outcome_bind]
      simp only [Traced.outcome_monadLift, set_put_of_ne apart]
      exact (map_bind _ _ _).symm
    · rfl
  | mapped key own _ map onlyIf =>
    obtain rfl := about
    unfold readLegacy
    simp only [schema_put, Traced.outcome_bind, map_bind]
    refine bind_congr fun said => ?_
    split
    · rename_i field value' found
      have named := Schema.name_of_field? found
      rw [current_put_of_ne (named ▸ apart.symm)]
      split
      · rfl
      · split
        · simp only [Traced.outcome_bind, Traced.outcome_monadLift, set_put_of_ne apart, map_bind]
        · rfl
    · rfl
  | group names combine =>
    dsimp only
    rw [outcome_readGroup, outcome_readGroup, map_bind, schema_put]
    refine bind_congr fun values => ?_
    split
    -- The combination looks at no other field than the one it is about.
    · have same : combine values (r.put name value).view basedOn =
          combine values r.view basedOn :=
        about.2 values _ _ basedOn (get?_put_of_ne apart.symm)
      rw [same]
      exact PassesBy.setAll (fun write written => by
        rw [about.1 values _ basedOn write written]
        exact apart.symm) r value
    · rfl

/-- The key of a field passes by all other fields. -/
theorem readField_passesBy (apart : name ≠ field.name) :
    PassesBy name fun r => (readField m r field).outcome := by
  intro r value
  unfold readField
  split
  · rfl
  · simp only [schema_put, current_put_of_ne apart.symm, Traced.outcome_bind,
      Traced.outcome_monadLift, set_put_of_ne apart, map_bind]

/-- An older spelling depends on its own names only. -/
theorem readLegacy_congr (agree : ∀ key ∈ legacy.names, m'.get? key = m.get? key) :
    readLegacy m' basedOn r legacy = readLegacy m basedOn r legacy := by
  cases legacy with
  | synonym key _ =>
    have same : m'.get? key = m.get? key := agree key List.mem_cons_self
    simp only [readLegacy, same]
  | mapped key own _ map onlyIf =>
    have same : m'.get? key = m.get? key := agree key List.mem_cons_self
    simp only [readLegacy, readOwn, same]
  | group names combine =>
    have each : ∀ strict, (names.mapM fun entry => readOwn strict m' entry.1 entry.2) =
        names.mapM fun entry => readOwn strict m entry.1 entry.2 := by
      intro strict
      clear r
      induction names with
      | nil => rfl
      | cons entry names ih =>
        have same : m'.get? entry.1 = m.get? entry.1 := agree entry.1 List.mem_cons_self
        rw [List.mapM_cons, List.mapM_cons, readOwn, readOwn, same,
          ih fun key member => agree key (List.mem_cons_of_mem _ member)]
    simp only [readLegacy, each]

/-- **An older spelling changes the field that it is about**, or nothing. -/
theorem exists_put_of_readLegacy (about : legacy.About target)
    (h : (readLegacy m basedOn r legacy).outcome = .ok next) :
    ∃ value, next = r.put target value := by
  cases renews_of_readLegacy h with
  | same =>
    obtain ⟨value, self⟩ := r.exists_put_self target
    exact ⟨value, self.symm⟩
  | synonym _ _ set =>
    obtain rfl := about
    obtain ⟨_, -, -, put⟩ := set_eq_ok_iff.mp set
    exact ⟨_, put⟩
  | mapped _ _ _ set =>
    obtain rfl := about
    obtain ⟨_, -, -, put⟩ := set_eq_ok_iff.mp set
    exact ⟨_, put⟩
  | group set =>
    obtain ⟨-, rfl⟩ := setAll_eq_ok_iff.mp set
    exact exists_putAll_eq_put r fun write written => about.1 _ _ _ write written

/-- A node is read for a simple kind as the value that it says, on top of anything. -/
theorem read_scalar_eq_ok_iff {strict : Bool} {node : Node} {path : String}
    {current value : Value} :
    ((FieldKind.scalar kind).read strict node current path).outcome = .ok value ↔
      kind.read? node = some value := by
  have reads : kind.read node path = .ok value ↔ kind.read? node = some value := by
    unfold ScalarKind.read
    cases kind.read? node <;> simp
  rw [← reads, FieldKind.read_eq_ok_iff]
  exact and_iff_left_of_imp fun read => (ScalarKind.stores_of_read read).1

/-- A simple field is set to what a node says, whatever it held and wherever the node comes
from. -/
theorem read_set_eq_ok_iff {strict : Bool} {node : Node} {path : String} {current : Value}
    (simple : field.kind = .scalar kind) (found : r.schema.field? field.name = some field) :
    ((field.kind.read strict node current path).outcome >>= r.set field.name) = .ok next ↔
      ∃ value, kind.read? node = some value ∧ next = r.put field.name value := by
  rw [Outcome.bind_eq_ok_iff]
  refine exists_congr fun value => ?_
  have reads : ((FieldKind.scalar kind).read strict node current path).outcome = .ok value ↔
      kind.read? node = some value := read_scalar_eq_ok_iff
  rw [simple, reads]
  refine and_congr_right fun said => ?_
  have admitted : field.kind.admits value = true := by
    rw [simple]
    exact FieldKind.admits_of_read (reads.mpr said)
  rw [set_eq_put found admitted, Except.ok.injEq, eq_comm]

/-- An older name of a field is read as the field is. -/
theorem readSynonym_eq_ok_iff {node : Node} (simple : field.kind = .scalar kind)
    (found : r.schema.field? field.name = some field) (held : m.get? name = some node) :
    (readLegacy m basedOn r (.synonym name field.name)).outcome = .ok next ↔
      ∃ value, kind.read? node = some value ∧ next = r.put field.name value := by
  unfold readLegacy
  simp only [held, found, Traced.outcome_bind, Traced.outcome_monadLift]
  exact read_set_eq_ok_iff simple found

/-- The key of a field is read as what it says. -/
theorem readField_eq_ok_iff {node : Node} (simple : field.kind = .scalar kind)
    (found : r.schema.field? field.name = some field) (held : m.get? field.name = some node) :
    (readField m r field).outcome = .ok next ↔
      ∃ value, kind.read? node = some value ∧ next = r.put field.name value := by
  unfold readField
  simp only [held, Traced.outcome_bind, Traced.outcome_monadLift]
  exact read_set_eq_ok_iff simple found

/-- A field that a document lacks stays as it is. -/
theorem readField_absent (absent : m.get? field.name = none) :
    (readField m r field).outcome = .ok r := by
  unfold readField
  rw [absent]
  rfl

end Document

end FormatStyle
