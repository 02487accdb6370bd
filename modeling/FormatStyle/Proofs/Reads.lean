import FormatStyle.Proofs.Documents
import FormatStyle.Proofs.LowerCase
import FormatStyle.Proofs.Reread

/-! # What is read

A configuration that is read is native, belongs to the version and the language that it was read
for, and keeps its laws with nothing left to derive (`Configuration.sound_of_read`). The style that
it is based on is one that the version knows, or the configuration of the parent directory.
-/

namespace FormatStyle

open Yaml (Node Mapping)

/-! ## Values -/

/-- **Simple values are read as they are stored.** -/
theorem ScalarKind.stores_of_read {kind : ScalarKind} {node : Node} {path : String} {value : Value}
    (h : kind.read node path = .ok value) : kind.Stores value := by
  have within : ∀ {least most : Int}, readWithin? least most node = some value →
      ∃ n, value = .int n ∧ least ≤ n ∧ n ≤ most := by
    intro least most found
    obtain ⟨n, -, bounded⟩ := Option.bind_eq_some_iff.mp found
    split at bounded
    · cases bounded
      exact ⟨n, rfl, by assumption⟩
    · cases bounded
  unfold ScalarKind.read at h
  split at h
  · rename_i read found
    cases h
    cases kind with
    | bool =>
      obtain ⟨b, -, rfl⟩ := Option.map_eq_some_iff.mp found
      exact ⟨rfl, trivial⟩
    | int =>
      obtain ⟨n, rfl, least, most⟩ := within found
      exact ⟨rfl, least, most⟩
    | unsigned =>
      obtain ⟨n, rfl, least, most⟩ := within found
      exact ⟨by simpa [ScalarKind.admits] using least, most⟩
    | bound =>
      obtain ⟨n, rfl, least, most⟩ := within found
      exact ⟨by simpa [ScalarKind.admits] using least, most⟩
    | str =>
      obtain ⟨s, -, rfl⟩ := Option.map_eq_some_iff.mp found
      exact ⟨rfl, trivial⟩
    | strList =>
      cases node <;> try cases found
      obtain ⟨items, -, rfl⟩ := Option.map_eq_some_iff.mp found
      exact ⟨rfl, trivial⟩
    | choice e =>
      obtain ⟨variant, spelled, rfl⟩ := Option.map_eq_some_iff.mp found
      obtain ⟨spelling, -, spells⟩ := Option.bind_eq_some_iff.mp spelled
      exact ⟨e.hasVariant_of_variant? spells, trivial⟩
  · cases h

theorem partsStore_of_readParts {strict : Bool} {parts : List Part} {path : String}
    {base values : List Value} {node : Node} (stores : PartsHold ScalarKind.Stores parts base)
    (h : (readParts strict parts path base node).outcome = .ok values) :
    PartsHold ScalarKind.Stores parts values := by
  unfold readParts at h
  split at h
  · rw [Traced.outcome_foldlM] at h
    refine Outcome.foldlM_preserves (fun current entry next _ stepped stores => ?_) h stores
    unfold readPart at stepped
    split at stepped
    · cases stepped
    · dsimp only at stepped
      split at stepped
      · rename_i i part found
        obtain ⟨j, -, same⟩ := Option.map_eq_some_iff.mp found
        obtain ⟨rfl, part_at⟩ := Prod.mk.inj same
        obtain ⟨value, read, stepped⟩ := Outcome.bind_eq_ok_iff.mp
          (Traced.outcome_bind _ _ ▸ stepped)
        cases stepped
        exact stores.set part_at (ScalarKind.stores_of_read read)
      · obtain ⟨_, -, stepped⟩ := Outcome.bind_eq_ok_iff.mp (Traced.outcome_bind _ _ ▸ stepped)
        cases stepped
        exact stores
  · cases h

/-- A choice that is admitted is stored. -/
theorem FieldKind.stores_choice {kind : FieldKind} {variant : String}
    (admitted : kind.admits (.choice variant) = true) : kind.Stores (.choice variant) := by
  cases kind with
  | scalar kind => exact ⟨admitted, by cases kind <;> trivial⟩
  | _ => cases admitted

/-- **What is read on top of a stored value is stored.** -/
theorem FieldKind.stores_of_read {kind : FieldKind} {strict : Bool} {node : Node}
    {current value : Value} {path : String} (lawful : kind.lawful = true)
    (stores : kind.Stores current)
    (h : (kind.read strict node current path).outcome = .ok value) : kind.Stores value := by
  obtain ⟨unchecked, -⟩ := read_eq_ok_iff.mp h
  unfold readUnchecked at unchecked
  cases kind with
  | scalar kind => exact ScalarKind.stores_of_read unchecked
  | record parts =>
    cases current <;> try exact stores.elim
    obtain ⟨values, read, rfl⟩ := Outcome.map_eq_ok_iff.mp (Traced.outcome_map _ _ ▸ unchecked)
    exact partsStore_of_readParts stores read
  | shorthand s =>
    cases current <;> try exact stores.elim
    dsimp only at unchecked
    split at unchecked
    · split at unchecked
      · cases unchecked
        exact Literal.partsStore_of_spelled? lawful (by assumption) stores
      · cases unchecked
    · obtain ⟨values, read, rfl⟩ := Outcome.map_eq_ok_iff.mp (Traced.outcome_map _ _ ▸ unchecked)
      exact partsStore_of_readParts stores read
  | recordList parts =>
    dsimp only at unchecked
    split at unchecked
    · obtain ⟨entries, read, rfl⟩ :=
        Outcome.map_eq_ok_iff.mp (Traced.outcome_map _ _ ▸ unchecked)
      rw [Traced.outcome_mapM] at read
      intro entry member
      obtain ⟨item, -, read⟩ := Outcome.exists_of_mem_mapM read member
      exact partsStore_of_readParts (partsStore_zeroParts lawful) read
    · cases unchecked

/-! ## Older spellings -/

open Catalogue

theorem initializerPackingOfFlags_choices {values : List (Option Value)} {view : View}
    {basedOn : Option String} :
    ∀ write ∈ V16.initializerPackingOfFlags values view basedOn, ∃ variant,
      write.2 = .choice variant := by
  unfold V16.initializerPackingOfFlags
  dsimp only
  split <;> simp

theorem lineEndingOfFlags_choices {values : List (Option Value)} {view : View}
    {basedOn : Option String} :
    ∀ write ∈ V16.lineEndingOfFlags values view basedOn, ∃ variant,
      write.2 = .choice variant := by
  unfold V16.lineEndingOfFlags
  dsimp only
  repeat' split
  all_goals simp

/-- **An older spelling stands for stored values**: its rows have small numbers, and what it
combines it gives as choices. -/
def Legacy.Storing : Legacy → Prop
  | synonym .. => True
  | mapped _ _ _ map _ => map.all (·.2.narrow) = true
  | group _ combine => ∀ values view basedOn, ∀ write ∈ combine values view basedOn,
      ∃ variant, write.2 = .choice variant

theorem Version.legacy_storing (v : Version) : ∀ legacy ∈ v.schema.legacy, legacy.Storing := by
  cases v with
  | v3_4 => exact List.forall_mem_nil _
  | v3_6 =>
    change ∀ legacy ∈ V36.legacy, _
    simp [V36.legacy, Legacy.Storing]
  | v12 =>
    change ∀ legacy ∈ V12.legacy, _
    simp [V12.legacy, Legacy.Storing, Literal.narrow, Literal.small]
  | v16 =>
    change ∀ legacy ∈ V16.legacy, _
    simp only [V16.legacy, List.forall_mem_cons]
    simp only [Legacy.Storing, List.all_cons, Literal.narrow, Literal.small, List.all_nil,
      Bool.and_self, true_and, List.not_mem_nil, false_implies, implies_true, and_true]
    exact ⟨fun _ _ _ => initializerPackingOfFlags_choices, fun _ _ _ => lineEndingOfFlags_choices⟩

namespace StyleRecord

variable {t r next : StyleRecord} {m : Mapping} {basedOn : Option String}

/-- **A record of stored values with the tags of another one.** -/
def Keeps (t r : StyleRecord) : Prop := r.Each FieldKind.Stores ∧ SameTags r t

theorem Keeps.put {name : String} {field : Field} {value : Value} (keeps : t.Keeps r)
    (found : r.schema.field? name = some field) (stores : field.kind.Stores value) :
    t.Keeps (r.put name value) := by
  refine ⟨keeps.1.put fun other found' => ?_, (sameTags_put r _ _).trans keeps.2⟩
  rw [found, Option.some.injEq] at found'
  exact found' ▸ stores

theorem Keeps.of_set {name : String} {value : Value} (keeps : t.Keeps r)
    (h : r.set name value = .ok next)
    (stores : ∀ field, r.schema.field? name = some field → field.kind.admits value = true →
      field.kind.Stores value) : t.Keeps next := by
  obtain ⟨field, found, admitted, rfl⟩ := set_eq_ok_iff.mp h
  exact keeps.put found (stores field found admitted)

theorem Keeps.native (keeps : t.Keeps r) (native : t.Native) : r.Native := by
  refine ⟨keeps.1, fun inherits => ?_⟩
  rw [keeps.2.schema]
  exact native.inherits (keeps.2.2.2 ▸ inherits)

/-- **Reading an older spelling keeps the values stored.** -/
theorem Keeps.of_readLegacy {legacy : Legacy} (keeps : t.Keeps r) (storing : legacy.Storing)
    (h : (Document.readLegacy m basedOn r legacy).outcome = .ok next) : t.Keeps next := by
  cases Document.renews_of_readLegacy h with
  | same => exact keeps
  | synonym found read set =>
    obtain rfl := Schema.name_of_field? found
    refine keeps.of_set set fun other found' _ => ?_
    obtain rfl := Option.some.inj (found.symm.trans found')
    exact FieldKind.stores_of_read (Version.lawful_of_mem (Schema.mem_of_field? found))
      (keeps.1.current found) read
  | mapped found listed denotes set =>
    obtain rfl := Schema.name_of_field? found
    refine keeps.of_set set fun other found' _ => ?_
    obtain rfl := Option.some.inj (found.symm.trans found')
    exact Literal.stores_of_toValue (Version.lawful_of_mem (Schema.mem_of_field? found))
      (List.all_eq_true.mp storing _ listed) (keeps.1.current found) denotes
  | group set =>
    obtain ⟨fit, rfl⟩ := setAll_eq_ok_iff.mp set
    refine ⟨keeps.1.putAll fun write member field found => ?_,
      (sameTags_putAll r _).trans keeps.2⟩
    obtain ⟨other, found', admitted⟩ := fit write member
    obtain rfl := Option.some.inj (found.symm.trans found')
    obtain ⟨variant, is_choice⟩ := storing _ _ _ write member
    rw [is_choice] at admitted ⊢
    exact FieldKind.stores_choice admitted

/-- **Reading a field keeps the values stored.** -/
theorem Keeps.of_readField {field : Field} (keeps : t.Keeps r) (member : field ∈ r.fields)
    (h : (Document.readField m r field).outcome = .ok next) : t.Keeps next := by
  have found : r.schema.field? field.name = some field := r.version.field?_of_mem member
  unfold Document.readField at h
  split at h
  · cases h
    exact keeps
  · obtain ⟨value, read, set⟩ := Outcome.bind_eq_ok_iff.mp (Traced.outcome_bind _ _ ▸ h)
    refine keeps.of_set set fun other found' _ => ?_
    obtain rfl := Option.some.inj (found.symm.trans found')
    exact FieldKind.stores_of_read (Version.lawful_of_mem member) (keeps.1.current found) read

end StyleRecord

/-! ## Names of styles -/

/-- **The names of styles are in lower case.** -/
theorem Version.styleNames_lower (v : Version) : ∀ name ∈ v.schema.styleNames,
    name.toList.all (fun c => decide (c.toNat < 0x80) && c.toLower == c) = true := by
  have checked : ∀ v ∈ Version.all, ∀ name ∈ v.schema.styleNames,
      name.toList.all (fun c => decide (c.toNat < 0x80) && c.toLower == c) = true := by
    decide
  exact checked v v.mem_all

/-- A name that finds a style is the style's name in lower case, and not the name of the parent
configuration. -/
private theorem Version.lower_of_style? {v : Version} {name : String} {style : NamedStyle}
    (found : v.schema.style? name = some style) :
    Text.lower name ∈ v.schema.styleNames ∧
      Text.equalsIgnoringCase name parentConfiguration = false := by
  have member : style.name ∈ v.schema.styleNames :=
    List.mem_map_of_mem (List.mem_of_find?_eq_some found)
  have same : Text.equalsIgnoringCase style.name name = true := by
    simpa using List.find?_some found
  rw [Text.lower_of_equalsIgnoringCase (v.styleNames_lower _ member) same]
  refine ⟨member, ?_⟩
  rw [← v.keys_apart.2.2.2 _ member]
  unfold Text.equalsIgnoringCase at same ⊢
  rw [← beq_iff_eq.mp same]

/-! ## Documents -/

namespace StyleRecord

/-- **A record fits the style that it is based on**: it inherits where that is the configuration of
the parent directory, and anything else is a style that the version knows. -/
def Based (r : StyleRecord) (basedOn : Option String) : Prop :=
  ∀ name, basedOn = some name →
    if Text.equalsIgnoringCase name parentConfiguration then r.inheritsParent = true
    else r.inheritsParent = false ∧ Text.lower name ∈ r.schema.styleNames

theorem Based.congr {r r' : StyleRecord} {basedOn : Option String} (based : r.Based basedOn)
    (version : r'.version = r.version) (inherits : r'.inheritsParent = r.inheritsParent) :
    r'.Based basedOn := by
  intro name here
  have := based name here
  unfold StyleRecord.schema
  rw [version, inherits]
  exact this

end StyleRecord

namespace Document

open StyleRecord

variable {requested : Language} {template : StyleRecord} {m : Mapping}

/-- **What a document is based on.** -/
theorem based_of_readBase {start : StyleRecord} {basedOn : Option String}
    (native : template.Native)
    (h : (readBase requested m template).outcome = .ok (start, basedOn)) :
    start.Native ∧ start.version = template.version ∧ start.language = template.language ∧
      start.Based basedOn := by
  unfold readBase at h
  split at h
  · cases h
    exact ⟨native, rfl, rfl, fun _ => by simp⟩
  · split at h
    · cases h
    · rename_i name _
      split at h
      · rename_i inherits
        obtain ⟨convention, parent⟩ := Bool.and_eq_true_iff.mp inherits
        cases h
        refine ⟨⟨native.stores, fun _ => convention⟩, rfl, rfl, ?_⟩
        rintro _ ⟨⟩
        rw [if_pos parent]
      · obtain ⟨style, resolved, h⟩ := Outcome.bind_eq_ok_iff.mp (Traced.outcome_bind _ _ ▸ h)
        cases h
        obtain ⟨styled, version, -, plain, named, found, -⟩ := Style.native_of_resolve resolved
        obtain ⟨known, apart⟩ := Version.lower_of_style? found
        refine ⟨⟨styled.stores, styled.inherits⟩, version, rfl, ?_⟩
        rintro _ ⟨⟩
        rw [apart, if_neg (by simp)]
        refine ⟨plain, ?_⟩
        rw [StyleRecord.schema, version]
        exact known

/-- **A sound document** of a version. -/
structure Sound (v : Version) (d : Document) : Prop where
  native : d.record.Native
  version : d.record.version = v
  settled : d.record.Settled
  based : d.record.Based d.basedOn

/-- **What is read on top of a native record is sound.** -/
theorem sound_of_read {index : Nat} {d : Document} (native : template.Native)
    (h : (Document.read requested template index m).outcome = .ok d) :
    d.Sound template.version := by
  obtain ⟨-, -, h⟩ := read_eq_ok_iff.mp h
  obtain ⟨-, start, filled, base, edited, -, finished⟩ := readFor_eq_ok_iff.mp h
  obtain ⟨renewed, legacies, fields⟩ := Outcome.bind_eq_ok_iff.mp edited
  obtain ⟨begun, version, -, based⟩ :=
    based_of_readBase (show Native { template with language := d.language } from
      ⟨native.stores, native.inherits⟩) base
  have renews : start.Keeps renewed := by
    refine Outcome.foldlM_preserves (fun r legacy next member step keeps => ?_) legacies
      ⟨begun.stores, .refl start⟩
    exact keeps.of_readLegacy (template.version.legacy_storing legacy member) step
  have fills : start.Keeps filled := by
    refine Outcome.foldlM_preserves (fun r field next member step keeps => ?_) fields renews
    refine keeps.of_readField ?_ step
    rw [StyleRecord.fields, StyleRecord.schema, keeps.2.1, version]
    exact member
  have whole := fills.native begun
  have record : filled.putAll filled.derived = d.record :=
    Except.ok.inj ((finish_eq_putAll fills.1.wellFormed).symm.trans finished)
  have tags := (sameTags_putAll filled filled.derived).trans fills.2
  rw [record] at tags
  exact ⟨record ▸ whole.finished, tags.1.trans version,
    record ▸ settled_finish fills.1.wellFormed, based.congr tags.1 tags.2.2⟩

end Document

namespace Configuration

open StyleRecord

variable {v : Version} {text : String} {requested : Language} {ambient : StyleRecord}

/-- All documents of a text are sound. -/
private theorem sound_of_readAll {ms : List Mapping} {documents : List Document} (native : ambient.Native)
    (version : ambient.version = v)
    (h : (readAll requested ambient ms).outcome = .ok documents) :
    ∀ d ∈ documents, d.Sound v := by
  refine forall_of_readAll (P := fun r => r.Native ∧ r.version = v) ⟨native, version⟩
    (fun sound => ⟨sound.native, sound.version⟩) ?_ h
  rintro template m d ⟨started, started_version⟩ read
  exact started_version ▸ Document.sound_of_read started read

/-- **What is read is sound**: it is native, belongs to the version and the language that it is
read for, and fits the style that it is based on. It keeps its laws and leaves nothing to derive,
unless the text is blank and the ambient record counts. -/
theorem sound_of_read {c : Configuration} (native : ambient.Native)
    (h : (read v text requested ambient).outcome = .ok c) :
    v.schema.supports requested = true ∧ c.record.Native ∧ c.record.version = v ∧
      c.record.language = requested ∧ c.record.Based c.basedOn ∧
      if Text.isBlankText text then c = ⟨{ ambient with language := requested }, none⟩
      else c.record.brokenConstraint? = none ∧ c.record.Settled := by
  obtain ⟨supported, version, h⟩ := read_eq_ok_iff.mp h
  refine ⟨supported, ?_⟩
  split at h
  · rename_i blank
    unfold ofBlank at h
    split at h <;> cases h
    exact ⟨⟨native.stores, native.inherits⟩, version, rfl, fun _ => by simp, by simp [blank]⟩
  · rename_i written
    obtain ⟨ms, -, h⟩ := h
    obtain ⟨-, documents, all, selects, lawful⟩ := ofMappings_eq_ok_iff.mp h
    obtain ⟨d, chosen, rfl⟩ := (select_eq_ok_iff (readAll_eq_ok_iff.mp all).1).mp selects
    have sound := sound_of_readAll (show Native { ambient with language := requested } from
      ⟨native.stores, native.inherits⟩) version all d chosen.mem
    refine ⟨⟨sound.native.stores, sound.native.inherits⟩, sound.version, rfl, sound.based, ?_⟩
    rw [if_neg written]
    exact ⟨lawful, sound.settled⟩

end Configuration

end FormatStyle
