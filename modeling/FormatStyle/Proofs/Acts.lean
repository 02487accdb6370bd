import FormatStyle.Proofs.LegacySteps
import FormatStyle.Proofs.Overwrites

/-! # What a document makes of each field

The edits of a document act on each field by itself (`StyleRecord.ActsBy`): what a field holds
afterwards depends on what it held before, and on nothing else, and once a document can be read on
top of one well-formed record it can be read on top of all. Its older spellings change a field that
has not been changed before, and the key of a field overwrites it, so a document has nothing to add
to what it has made of a field (`Document.exists_acts`).
-/

namespace FormatStyle

open StyleRecord
open Yaml (Node Mapping)

/-! ## Steps that act on each field -/

namespace StyleRecord

variable {v : Version} {r t : StyleRecord} {name : String} {field : Field}
  {acts acts' : String → Value → Value} {write : Value → Value}
  {step step' : StyleRecord → Except StyleError StyleRecord}

/-- **A step that acts on each field by itself**, in all well-formed records of a version. -/
def ActsBy (v : Version) (acts : String → Value → Value)
    (step : StyleRecord → Except StyleError StyleRecord) : Prop :=
  ∀ r : StyleRecord, r.version = v → r.WellFormed →
    ∃ next, step r = .ok next ∧ SameTags next r ∧ next.WellFormed ∧
      ∀ name, next.get? name = (r.get? name).map (acts name)

/-- What acts on one field, and leaves the others as they are. -/
def onField (name : String) (write : Value → Value) : String → Value → Value :=
  Function.update (fun _ => id) name write

theorem onField_self : onField name write name = write := Function.update_self ..

theorem onField_of_ne {other : String} (apart : other ≠ name) :
    onField name write other = id :=
  Function.update_of_ne apart ..

namespace ActsBy

theorem pure : ActsBy v (fun _ => id) .ok := fun r _ wellFormed =>
  ⟨r, rfl, .refl r, wellFormed, fun _ => Option.map_id_apply.symm⟩

/-- Steps that act on each field act on it one after the other. -/
theorem andThen (first : ActsBy v acts step) (rest : ActsBy v acts' step') :
    ActsBy v (fun name => acts' name ∘ acts name) fun r => step r >>= step' := by
  intro r version wellFormed
  obtain ⟨between, stepped, same, whole, holds⟩ := first r version wellFormed
  obtain ⟨next, stepped', same', whole', holds'⟩ := rest between (same.1.trans version) whole
  refine ⟨next, ?_, same'.trans same, whole', fun name => ?_⟩
  · dsimp only
    rw [stepped, Outcome.ok_bind, stepped']
  · rw [holds', holds, Option.map_map]

/-- A step that sets one field by what it holds acts on that field. -/
theorem of_put (found : v.schema.field? field.name = some field)
    (sets : ∀ r : StyleRecord, r.version = v → r.WellFormed →
      field.kind.admits (r.current field) = true →
        field.kind.admits (write (r.current field)) = true ∧
          step r = .ok (r.put field.name (write (r.current field)))) :
    ActsBy v (onField field.name write) step := by
  intro r version wellFormed
  have known : r.schema.field? field.name = some field := by rwa [StyleRecord.schema, version]
  have each := wellFormed_iff.mp wellFormed
  have held := each.get?_eq_current known
  obtain ⟨admitted, stepped⟩ := sets r version wellFormed (each.current known)
  refine ⟨_, stepped, sameTags_put r _ _, wellFormed_iff.mpr (each.put fun other named => ?_),
    fun name => ?_⟩
  · obtain rfl := Option.some.inj (known.symm.trans named)
    exact admitted
  · by_cases here : name = field.name
    · subst here
      rw [get?_put (by rw [held]; rfl), held, onField_self]
      rfl
    · rw [get?_put_of_ne here, onField_of_ne here]
      exact Option.map_id_apply.symm

/-- A step that changes nothing acts on every field like that. -/
theorem of_same (stays : ∀ r : StyleRecord, r.version = v → step r = .ok r) :
    ActsBy v (onField name id) step := by
  intro r version wellFormed
  refine ⟨r, stays r version, .refl r, wellFormed, fun other => ?_⟩
  rw [onField, Function.update_eq_self]
  exact Option.map_id_apply.symm

/-- **Steps that each act on a field of their own act on each field by itself.** By induction on the
steps; a step is asked for what it makes of its field only where it succeeds. -/
theorem exists_foldlM {α : Type} {Q : String → (Value → Value) → Prop} {l : List α}
    (names : List String) (step : StyleRecord → α → Except StyleError StyleRecord)
    (each : List.Forall₂ (fun a name => ∀ r next : StyleRecord, r.version = v → r.WellFormed →
      step r a = .ok next → ∃ write, Q name write ∧
        ActsBy v (onField name write) fun r => step r a) l names)
    (distinct : names.Nodup) (version : r.version = v) (wellFormed : r.WellFormed)
    (folded : l.foldlM step r = .ok t) :
    ∃ acts, ActsBy v acts (fun r => l.foldlM step r) ∧ (∀ name ∈ names, Q name (acts name)) ∧
      ∀ name ∉ names, acts name = id := by
  induction each generalizing r with
  | nil => exact ⟨_, pure, List.forall_mem_nil _, fun _ _ => rfl⟩
  | @cons a name l names first _ ih =>
    rw [List.nodup_cons] at distinct
    rw [List.foldlM_cons] at folded
    obtain ⟨between, stepped, rest⟩ := Outcome.bind_eq_ok_iff.mp folded
    obtain ⟨write, has, once⟩ := first r between version wellFormed stepped
    obtain ⟨_, stepped', same, whole, -⟩ := once r version wellFormed
    obtain rfl := Except.ok.inj (stepped.symm.trans stepped')
    obtain ⟨acts, later, each_has, others⟩ := ih distinct.2 (same.1.trans version) whole rest
    have own : acts name ∘ onField name write name = write := by
      rw [others name distinct.1, onField_self]
      rfl
    have elsewhere : ∀ other, other ≠ name → acts other ∘ onField name write other = acts other :=
      fun other apart => congrArg (acts other ∘ ·) (onField_of_ne apart)
    refine ⟨fun other => acts other ∘ onField name write other, ?_,
      List.forall_mem_cons.mpr ⟨?_, fun other member => ?_⟩, fun other absent => ?_⟩
    · simpa only [List.foldlM_cons] using once.andThen later
    · change Q name (acts name ∘ onField name write name)
      rwa [own]
    · have apart : other ≠ name := fun same => distinct.1 (same ▸ member)
      change Q other (acts other ∘ onField name write other)
      rw [elsewhere other apart]
      exact each_has other member
    · rw [List.mem_cons, not_or] at absent
      exact (elsewhere other absent.1).trans (others other absent.2)

end ActsBy

end StyleRecord

/-! ## The key of a field -/

namespace Document

variable {v : Version} {m : Mapping} {basedOn : Option String} {r next start filled : StyleRecord}
  {field : Field} {name target : String} {legacy : Legacy}

/-- **A step that reads a node into a field overwrites the field.** -/
theorem acts_of_reading (node : Node) (path : String)
    {step : StyleRecord → Except StyleError StyleRecord} (member : field ∈ v.schema.fields)
    (steps : ∀ r : StyleRecord, r.version = v → step r =
      (field.kind.read v.schema.conventions.strictKeys node (r.current field) path).outcome >>=
        r.set field.name)
    (version : r.version = v) (wellFormed : r.WellFormed) (stepped : step r = .ok next) :
    ∃ write, Overwriting write ∧ ActsBy v (onField field.name write) step := by
  have found : v.schema.field? field.name = some field := Version.field?_of_mem member
  have known : ∀ r : StyleRecord, r.version = v → r.schema.field? field.name = some field := by
    intro r version
    rwa [StyleRecord.schema, version]
  rw [steps r version] at stepped
  obtain ⟨value, said, -⟩ := Outcome.bind_eq_ok_iff.mp stepped
  obtain ⟨write, overwriting, makes⟩ := FieldKind.overwriting_of_read
    ((wellFormed_iff.mp wellFormed).current (known r version)) said
  refine ⟨write, overwriting, .of_put found fun r' version' _ admitted => ?_⟩
  have made := makes (r'.current field) admitted
  have fits := FieldKind.admits_of_read made
  refine ⟨fits, ?_⟩
  rw [steps r' version', made, Outcome.ok_bind]
  exact set_eq_put (known r' version') fits

/-- **The key of a field overwrites it.** -/
theorem acts_of_readField (member : field ∈ v.schema.fields) (version : r.version = v)
    (wellFormed : r.WellFormed) (read : (readField m r field).outcome = .ok next) :
    ∃ write, Overwriting write ∧
      ActsBy v (onField field.name write) fun r => (readField m r field).outcome := by
  cases held : m.get? field.name with
  | none => exact ⟨id, .nothing, .of_same fun r _ => readField_absent held⟩
  | some node =>
    refine acts_of_reading node field.name member (fun r version => ?_) version wellFormed read
    simp only [readField, held, Traced.outcome_bind, Traced.outcome_monadLift, StyleRecord.schema,
      version]

/-! ## Older spellings -/

/-- Another name overwrites its field. -/
theorem acts_of_synonym (member : field ∈ v.schema.fields) (version : r.version = v)
    (wellFormed : r.WellFormed)
    (read : (readLegacy m basedOn r (.synonym name field.name)).outcome = .ok next) :
    ∃ write, Overwriting write ∧ ActsBy v (onField field.name write) fun r =>
      (readLegacy m basedOn r (.synonym name field.name)).outcome := by
  have known : v.schema.field? field.name = some field := Version.field?_of_mem member
  cases held : m.get? name with
  | none =>
    refine ⟨id, .nothing, .of_same fun r _ => readLegacy_absent fun key named => ?_⟩
    rwa [List.mem_singleton.mp named]
  | some node =>
    refine acts_of_reading node name member (fun r version => ?_) version wellFormed read
    simp only [readLegacy, held, known, Traced.outcome_bind, Traced.outcome_monadLift,
      StyleRecord.schema, version]

/-- What is changed where a condition holds is not changed again. -/
private theorem again_of_guarded (holds : Value → Bool) (fresh value : Value) :
    (if holds (if holds value then fresh else value) then fresh
      else if holds value then fresh else value) = if holds value then fresh else value := by
  by_cases first : holds value = true
  · rw [if_pos first]
    split <;> rfl
  · rw [if_neg first, if_neg first]

/-- A key whose values stand for others changes its field where that holds what is required. -/
theorem acts_of_mapped {kind own : ScalarKind} {map : List (Literal × Literal)}
    {onlyIf : Option Literal} (member : field ∈ v.schema.fields) (simple : field.kind = .scalar own)
    (denotes : ∀ row ∈ map, ∃ value, row.2.toScalar field.name own = .ok value)
    (version : r.version = v)
    (read : (readLegacy m basedOn r (.mapped name kind field.name map onlyIf)).outcome = .ok next) :
    ∃ write, (∀ value, write (write value) = write value) ∧
      ActsBy v (onField field.name write) fun r =>
        (readLegacy m basedOn r (.mapped name kind field.name map onlyIf)).outcome := by
  have known : v.schema.field? field.name = some field := Version.field?_of_mem member
  have steps : ∀ r : StyleRecord, r.version = v →
      (readLegacy m basedOn r (.mapped name kind field.name map onlyIf)).outcome =
        (readOwn v.schema.conventions.strictKeys m name kind).outcome >>= fun own =>
          (own.bind fun value => map.find? fun row => row.1.holds value).elim (.ok r) fun row =>
            if onlyIf.all (·.holds (r.current field)) then
              row.2.toValue field.name field.kind (r.current field) >>= r.set field.name
            else .ok r := by
    rintro r rfl
    exact outcome_readMapped known
  rw [steps r version] at read
  obtain ⟨own, said, -⟩ := Outcome.bind_eq_ok_iff.mp read
  cases matched : own.bind fun value => map.find? fun row => row.1.holds value with
  | none =>
    refine ⟨id, fun _ => rfl, .of_same fun r version => ?_⟩
    rw [steps r version, said, Outcome.ok_bind, matched, Option.elim_none]
  | some row =>
    obtain ⟨value, -, found⟩ := Option.bind_eq_some_iff.mp matched
    obtain ⟨fresh, denoted⟩ := denotes row (List.mem_of_find?_eq_some found)
    have admitted : field.kind.admits fresh = true := by
      rw [simple]
      exact (Literal.toScalar_eq_ok denoted).1
    have denotes : ∀ current, row.2.toValue field.name field.kind current = .ok fresh := by
      intro current
      rw [Literal.toValue, simple, Literal.denote, denoted, Outcome.ok_bind, ← simple,
        if_pos admitted]
    refine ⟨fun value => if onlyIf.all (·.holds value) then fresh else value,
      again_of_guarded (fun value => onlyIf.all (·.holds value)) fresh,
      .of_put known fun r version wellFormed admitted' => ?_⟩
    have known' : r.schema.field? field.name = some field := by rwa [StyleRecord.schema, version]
    rw [steps r version, said, Outcome.ok_bind, matched, Option.elim_some]
    split
    · refine ⟨admitted, ?_⟩
      rw [denotes, Outcome.ok_bind]
      exact set_eq_put known' admitted
    · refine ⟨admitted', ?_⟩
      rw [put_get? ((wellFormed_iff.mp wellFormed).get?_eq_current known')]

/-- **Keys that are combined fire once**: what the combination makes of its field, it makes nothing
more of. -/
def FiresOnce (v : Version) (target : String) (basedOn : Option String)
    (combine : List (Option Value) → View → Option String → List (String × Value)) : Prop :=
  ∀ values view, combine values view basedOn = [] ∨
    ∃ value, combine values view basedOn = [(target, value)] ∧
      (∃ field, v.schema.field? target = some field ∧ field.kind.admits value = true) ∧
      ∀ view' : View, view' target = some value → combine values view' basedOn = []

/-- **What combined keys make of the value of their field.** They see no other field, so a view of
nothing else will do. -/
def combined (combine : List (Option Value) → View → Option String → List (String × Value))
    (values : List (Option Value)) (basedOn : Option String) (value : Value) : Value :=
  match combine values (fun _ => some value) basedOn with
  | [] => value
  | assignment :: _ => assignment.2

/-- Combined keys make nothing more of what they made. -/
private theorem combined_combined {target : String}
    {combine : List (Option Value) → View → Option String → List (String × Value)}
    (fires : FiresOnce v target basedOn combine) (values : List (Option Value)) (value : Value) :
    combined combine values basedOn (combined combine values basedOn value) =
      combined combine values basedOn value := by
  rcases fires values fun _ => some value with none | ⟨fresh, one, -, done⟩
  · have stays : combined combine values basedOn value = value := by simp only [combined, none]
    rw [stays, stays]
  · have changes : combined combine values basedOn value = fresh := by simp only [combined, one]
    have stays : combined combine values basedOn fresh = fresh := by
      simp only [combined, done (fun _ => some fresh) rfl]
    rw [changes, stays]

/-- Keys that are combined change their field once. -/
theorem acts_of_group {names : List (String × ScalarKind)}
    {combine : List (Option Value) → View → Option String → List (String × Value)}
    (member : field ∈ v.schema.fields) (about : (Legacy.group names combine).About field.name)
    (fires : FiresOnce v field.name basedOn combine) (version : r.version = v)
    (read : (readLegacy m basedOn r (.group names combine)).outcome = .ok next) :
    ∃ write, (∀ value, write (write value) = write value) ∧
      ActsBy v (onField field.name write) fun r =>
        (readLegacy m basedOn r (.group names combine)).outcome := by
  have known : v.schema.field? field.name = some field := Version.field?_of_mem member
  have steps : ∀ r : StyleRecord, r.version = v →
      (readLegacy m basedOn r (.group names combine)).outcome =
        (names.mapM fun key =>
          (readOwn v.schema.conventions.strictKeys m key.1 key.2).outcome) >>= fun values =>
            if values.any Option.isSome then r.setAll (combine values r.view basedOn)
            else .ok r := by
    rintro r rfl
    exact outcome_readGroup
  rw [steps r version] at read
  obtain ⟨values, said, -⟩ := Outcome.bind_eq_ok_iff.mp read
  by_cases given : values.any Option.isSome = true
  · refine ⟨combined combine values basedOn, combined_combined fires values,
      .of_put known fun r version wellFormed admitted => ?_⟩
    have known' : r.schema.field? field.name = some field := by rwa [StyleRecord.schema, version]
    have held := (wellFormed_iff.mp wellFormed).get?_eq_current known'
    have seen : combine values r.view basedOn =
        combine values (fun _ => some (r.current field)) basedOn := about.2 values _ _ basedOn held
    rw [steps r version, said, Outcome.ok_bind, if_pos given, seen]
    rcases fires values fun _ => some (r.current field) with
      none | ⟨fresh, one, ⟨_, found, fits⟩, -⟩
    · have stays : combined combine values basedOn (r.current field) = r.current field := by
        simp only [combined, none]
      rw [stays, none, put_get? held]
      exact ⟨admitted, rfl⟩
    · have changes : combined combine values basedOn (r.current field) = fresh := by
        simp only [combined, one]
      obtain rfl := Option.some.inj (known.symm.trans found)
      refine ⟨changes ▸ fits, ?_⟩
      rw [changes, one]
      exact setAll_eq_ok_iff.mpr ⟨List.forall_mem_singleton.mpr ⟨field, known', fits⟩, rfl⟩
  · refine ⟨id, fun _ => rfl, .of_same fun r version => ?_⟩
    rw [steps r version, said, Outcome.ok_bind, if_neg given]

end Document

namespace Legacy

/-- **What an older spelling does to its field**, it does once: rows of a table denote values of the
field, and combined keys fire once. -/
def Fires (v : Version) (basedOn : Option String) : Legacy → String → Prop
  | synonym .., _ => True
  | mapped _ _ _ map _, target => ∀ row ∈ map,
      ((v.schema.scalarKind? target).any fun kind => (row.2.toScalar target kind).isOk) = true
  | group _ combine, target => Document.FiresOnce v target basedOn combine

end Legacy

namespace Version

open Catalogue

/-- Keys that are combined into a variant fire once if they rest where that variant is. -/
theorem firesOnce_of_choice {v : Version} {target : String} {basedOn : Option String}
    {e : Enumeration}
    {combine : List (Option Value) → View → Option String → List (String × Value)}
    (kind : v.schema.scalarKind? target = some (.choice e))
    (rests : ∀ values view, combine values view basedOn = [] ∨
      ∃ variant, combine values view basedOn = [(target, .choice variant)] ∧
        e.hasVariant variant = true ∧ ∀ view' : View, view' target = some (.choice variant) →
          combine values view' basedOn = []) :
    Document.FiresOnce v target basedOn combine := by
  obtain ⟨field, found, simple⟩ := Schema.field?_of_scalarKind? kind
  intro values view
  refine (rests values view).imp_right fun ⟨variant, one, has, done⟩ => ?_
  refine ⟨_, one, ⟨field, found, ?_⟩, done⟩
  rw [simple]
  exact has

theorem lineEnding_firesOnce (basedOn : Option String) :
    Document.FiresOnce .v16 "LineEnding" basedOn V16.lineEndingOfFlags := by
  refine firesOnce_of_choice (e := V16.lineEnding) (by decide) fun values view => ?_
  unfold V16.lineEndingOfFlags
  dsimp only
  split
  · cases (V16.flagAt values 0).getD true <;> cases (V16.flagAt values 1).getD false
    · exact .inr ⟨"LF", rfl, by decide, fun view' held => by simp [held, Value.choice?]⟩
    · exact .inr ⟨"CRLF", rfl, by decide, fun view' held => by simp [held, Value.choice?]⟩
    · exact .inl rfl
    · exact .inr ⟨"DeriveCRLF", rfl, by decide, fun view' held => by simp [held, Value.choice?]⟩
  · exact .inl rfl

theorem initializerPacking_firesOnce {basedOn : Option String}
    (plain : V16.inGoogleFamily basedOn = false) :
    Document.FiresOnce .v16 "PackConstructorInitializers" basedOn
      V16.initializerPackingOfFlags := by
  refine firesOnce_of_choice (e := V16.packConstructorInitializers) (by decide)
    fun values view => ?_
  unfold V16.initializerPackingOfFlags
  simp only [plain, Bool.false_eq_true, if_false]
  by_cases packs : ((view "PackConstructorInitializers").bind Value.choice? = some "BinPack" &&
      (V16.flagAt values 1).getD false) = true
  · rw [if_pos packs]
    cases (V16.flagAt values 0).getD true
    · exact .inr ⟨"CurrentLine", rfl, by decide, fun view' held => by simp [held, Value.choice?]⟩
    · exact .inr ⟨"NextLine", rfl, by decide, fun view' held => by simp [held, Value.choice?]⟩
  · rw [if_neg packs]
    exact .inl rfl

/-- **Older spellings do what they do once**, but for a style of the Google family. -/
theorem legacy_fires (v : Version) {basedOn : Option String}
    (plain : V16.inGoogleFamily basedOn = false) :
    List.Forall₂ (Legacy.Fires v basedOn) v.schema.legacy v.legacyFields := by
  cases v with
  | v3_4 => exact .nil
  | v3_6 => repeat' constructor
  | v12 =>
    change List.Forall₂ _ V12.legacy _
    unfold V12.legacy legacyFields
    repeat' apply List.Forall₂.cons
    all_goals
      first | exact trivial | exact .nil | exact List.forall_mem_singleton.mpr (by decide)
  | v16 =>
    change List.Forall₂ _ V16.legacy _
    unfold V16.legacy legacyFields
    repeat' apply List.Forall₂.cons
    all_goals
      first
      | exact trivial
      | exact .nil
      | exact List.forall_mem_singleton.mpr (by decide)
      | exact initializerPacking_firesOnce plain
      | exact lineEnding_firesOnce basedOn

end Version

/-! ## All edits of a document -/

namespace Document

variable {v : Version} {m : Mapping} {basedOn : Option String} {r next start filled : StyleRecord}
  {legacy : Legacy} {target : String}

/-- **An older spelling changes its field once.** -/
theorem acts_of_readLegacy (about : legacy.About target) (fires : legacy.Fires v basedOn target)
    (simple : (v.schema.scalarKind? target).isSome = true) (version : r.version = v)
    (wellFormed : r.WellFormed) (read : (readLegacy m basedOn r legacy).outcome = .ok next) :
    ∃ write, (∀ value, write (write value) = write value) ∧
      ActsBy v (onField target write) fun r => (readLegacy m basedOn r legacy).outcome := by
  obtain ⟨kind, known⟩ := Option.isSome_iff_exists.mp simple
  obtain ⟨field, found, scalar⟩ := Schema.field?_of_scalarKind? known
  obtain rfl := Schema.name_of_field? found
  have member := Schema.mem_of_field? found
  cases legacy with
  | synonym name _ =>
    obtain rfl := about
    obtain ⟨write, overwriting, acts⟩ := acts_of_synonym member version wellFormed read
    exact ⟨write, overwriting.again, acts⟩
  | mapped name own _ map onlyIf =>
    obtain rfl := about
    refine acts_of_mapped member scalar (fun row listed => ?_) version read
    have denotes := fires row listed
    rw [known, Option.any_some] at denotes
    exact Outcome.isOk_iff.mp denotes
  | group names combine => exact acts_of_group member about fires version read

/-- **A document makes of each field what it makes of it once.** Fields that no older spelling is
about are overwritten. -/
theorem exists_acts (plain : Catalogue.V16.inGoogleFamily basedOn = false)
    (version : start.version = v) (wellFormed : start.WellFormed)
    (edited : edit v m basedOn start = .ok filled) :
    ∃ acts, ActsBy v acts (edit v m basedOn) ∧
      (∀ name ∉ v.legacyFields, Overwriting (acts name)) ∧
      ∀ r : StyleRecord, r.version = v → r.WellFormed → ∀ name value, r.get? name = some value →
        acts name (acts name value) = acts name value := by
  obtain ⟨renewed, legacies, fields⟩ := Outcome.bind_eq_ok_iff.mp edited
  obtain ⟨distinct, -, simple⟩ := v.legacy_apart
  obtain ⟨early, renews, once, early_id⟩ := ActsBy.exists_foldlM
    (Q := fun _ write => ∀ value, write (write value) = write value) v.legacyFields
    (fun r legacy => (readLegacy m basedOn r legacy).outcome)
    (List.forall₂_iff_zip.mpr ⟨v.legacy_about.length_eq, fun paired r next =>
      acts_of_readLegacy ((List.forall₂_iff_zip.mp v.legacy_about).2 paired)
        ((List.forall₂_iff_zip.mp (v.legacy_fires plain)).2 paired)
        (simple _ (List.of_mem_zip paired).2)⟩)
    distinct version wellFormed legacies
  obtain ⟨_, renewed_eq, same, whole, -⟩ := renews start version wellFormed
  obtain rfl := Except.ok.inj (legacies.symm.trans renewed_eq)
  obtain ⟨late, fills, overwrites, late_id⟩ := ActsBy.exists_foldlM
    (Q := fun _ => Overwriting) v.schema.names (fun r field => (readField m r field).outcome)
    (List.forall₂_map_right_iff.mpr (List.forall₂_same.mpr fun field member r next =>
      acts_of_readField member))
    v.nodup_names (same.1.trans version) whole fields
  have overwriting : ∀ name, Overwriting (late name) := by
    intro name
    by_cases known : name ∈ v.schema.names
    · exact overwrites name known
    · exact late_id name known ▸ .nothing
  refine ⟨fun name => late name ∘ early name, renews.andThen fills, fun name absent => ?_,
    fun r version wellFormed name value held => ?_⟩
  · dsimp only
    rw [early_id name absent]
    exact overwriting name
  · by_cases older : name ∈ v.legacyFields
    · obtain ⟨kind, known⟩ := Option.isSome_iff_exists.mp (simple name older)
      obtain ⟨next, -, same, whole, holds⟩ := renews r version wellFormed
      have admitted : kind.admits (early name value) = true := whole.admits_of_get?
        (by rwa [StyleRecord.schema, same.1, version]) (by rw [holds, held, Option.map_some])
      have stays : early name (early name value) = early name value := once name older value
      rcases (overwriting name).simple with ⟨fresh, replaced⟩ | kept
      · simp only [Function.comp_apply, replaced]
      · simp only [Function.comp_apply, kept kind _ admitted, stays]
    · simp only [early_id name older, Function.comp_apply, id]
      exact (overwriting name).again value

end Document

end FormatStyle
