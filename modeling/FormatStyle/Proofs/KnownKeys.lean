import FormatStyle.Proofs.LegacySteps
import FormatStyle.Proofs.Reorderings

/-! # Keys that nothing knows

A key that nothing knows is either an error or of no effect. Where keys are strict, an accepted
document has only known keys at its top, and each mapping that a value is read from names only parts
of its kind (`Document.KeysKnown`). Elsewhere unknown keys can be taken out and put in, as a
document is read like any other one that has the same known entries (`Document.Extends.readLike`).
Main statement: `Configuration.unknown_keys`, for every text that is accepted.
-/

namespace FormatStyle

open StyleRecord
open Yaml (Node Mapping)
open Outcome (Carries)

/-- The name of a key without a tag is its string. -/
theorem Yaml.Node.keyName?_of_str? {node : Node} {key : String} (h : node.str? = some key) :
    node.keyName? = some key := by
  cases node with
  | str s => exact h
  | _ => cases h

/-! ## Keys at the top -/

namespace Document

variable {schema : Schema} {v : Version} {requested : Language} {m m' : Mapping} {key : String}

/-- **The keys that a schema knows** at the top of a document. -/
inductive KnownKey (schema : Schema) : String → Prop where
  | language (spoken : schema.conventions.languageKey = true) : KnownKey schema languageKey
  | basedOn : KnownKey schema basedOnKey
  | field {field : Field} (listed : field ∈ schema.fields) : KnownKey schema field.name
  | legacy {legacy : Legacy} {name : String} (listed : legacy ∈ schema.legacy)
      (named : name ∈ legacy.names) : KnownKey schema name

theorem knows_iff : knows schema key = true ↔ KnownKey schema key := by
  simp only [knows, Bool.or_eq_true, Bool.and_eq_true, beq_iff_eq, List.any_eq_true,
    List.contains_iff_mem]
  constructor
  · rintro (((found | rfl) | ⟨spoken, rfl⟩) | ⟨legacy, listed, named⟩)
    · obtain ⟨field, found⟩ := Option.isSome_iff_exists.mp found
      exact Schema.name_of_field? found ▸ .field (Schema.mem_of_field? found)
    · exact .basedOn
    · exact .language spoken
    · exact .legacy listed named
  · intro known
    cases known with
    | language spoken => exact .inl (.inr ⟨spoken, rfl⟩)
    | basedOn => exact .inl (.inl (.inr rfl))
    | field listed =>
      refine .inl (.inl (.inl ?_))
      rw [Schema.field?, List.find?_isSome]
      exact ⟨_, listed, beq_self_eq_true _⟩
    | legacy listed named => exact .inr ⟨_, listed, named⟩

/-- The keys of a document pass exactly if each is a string, and known where keys are strict. -/
theorem checkKeys_pass_iff : (checkKeys schema m).outcome = .ok () ↔
    ∀ entry ∈ m, ∃ name, entry.1.keyName? = some name ∧
      (schema.conventions.strictKeys = true → KnownKey schema name) := by
  have passes : ∀ node : Node, (checkKey schema node).outcome = .ok () ↔
      ∃ name, node.keyName? = some name ∧
        (schema.conventions.strictKeys = true → KnownKey schema name) := by
    intro node
    unfold checkKey
    cases node.keyName? with
    | none => simp
    | some name =>
      by_cases known : knows schema name = true
      · simp [known, knows_iff.mp known]
      · have unknown : ¬ KnownKey schema name := fun h => known (knows_iff.mpr h)
        cases strict : schema.conventions.strictKeys <;> simp [known, unknown, unknownKey]
  rw [checkKeys_eq_ok_iff]
  exact forall₂_congr fun entry _ => passes entry.1

end Document

/-! ## Keys within values -/

namespace FieldKind

variable {node : Node} {parts : List Part} {entries : Mapping} {kind : FieldKind}
  {path : String} {values next : List Value} {current value : Value}

/-- **A mapping that is read into parts** for a kind: the node itself, or an item of a list. Parts
have simple kinds, so no mapping further inside is read into parts. -/
inductive ReadsMapping : FieldKind → Node → List Part → Mapping → Prop where
  | record {parts : List Part} {entries : Mapping} :
      ReadsMapping (.record parts) (.mapping entries) parts entries
  | shorthand {s : Shorthand} {entries : Mapping} :
      ReadsMapping (.shorthand s) (.mapping entries) s.parts entries
  | item {parts : List Part} {items : List Node} {entries : Mapping}
      (listed : .mapping entries ∈ items) :
      ReadsMapping (.recordList parts) (.sequence items) parts entries

/-- Where keys are strict, the keys of a mapping that is read into parts name parts. -/
theorem names_of_readParts
    (read : (readParts true parts path values (.mapping entries)).outcome = .ok next) :
    ∀ entry ∈ entries, ∃ part ∈ parts, entry.1.keyName? = some part.name := by
  intro entry member
  rw [readParts, Traced.outcome_foldlM] at read
  obtain ⟨before, after, -, step⟩ := Outcome.exists_step_of_foldlM (P := fun _ => True)
    (fun _ _ _ _ _ _ => trivial) read trivial member
  obtain ⟨key, named, ⟨index, part, value, found, at_, -, -⟩ | ⟨-, lax, -⟩⟩ :=
    readPart_eq_ok_iff.mp step
  · exact ⟨part, List.mem_of_getElem? at_, by rw [named, name_of_partIndex? found at_]⟩
  · cases lax

/-- **Where keys are strict, a value is read only from known keys**: by the kind, for the one
mapping or for each item. -/
theorem names_of_read (read : (kind.read true node current path).outcome = .ok value)
    (inside : kind.ReadsMapping node parts entries) :
    ∀ entry ∈ entries, ∃ part ∈ parts, entry.1.keyName? = some part.name := by
  obtain ⟨read, -⟩ := read_eq_ok_iff.mp read
  cases inside with
  | record =>
    simp only [readUnchecked, Traced.outcome_map] at read
    obtain ⟨values, reads, -⟩ := Outcome.map_eq_ok_iff.mp read
    exact names_of_readParts reads
  | shorthand =>
    simp only [readUnchecked, Node.scalarText?, Traced.outcome_map] at read
    obtain ⟨values, reads, -⟩ := Outcome.map_eq_ok_iff.mp read
    exact names_of_readParts reads
  | item listed =>
    simp only [readUnchecked, Traced.outcome_map, Traced.outcome_mapM] at read
    obtain ⟨records, reads, -⟩ := Outcome.map_eq_ok_iff.mp read
    obtain ⟨values, -, reads⟩ := Outcome.exists_of_mem_left (Outcome.forall₂_of_mapM reads) listed
    exact names_of_readParts reads

end FieldKind

/-! ## Strict documents -/

namespace Document

variable {schema : Schema} {v : Version} {requested : Language} {m m' : Mapping} {key : String}
  {template start filled : StyleRecord} {basedOn : Option String} {index : Nat} {d : Document}
  {kind : FieldKind} {node : Node}

/-- **The nodes that a document holds for a kind**: under the key of a field, or under an older
spelling. -/
inductive Holds (schema : Schema) (m : Mapping) : FieldKind → Node → Prop where
  | field {field : Field} {node : Node} (listed : field ∈ schema.fields)
      (held : m.get? field.name = some node) : Holds schema m field.kind node
  | synonym {name target : String} {field : Field} {node : Node}
      (listed : .synonym name target ∈ schema.legacy) (found : schema.field? target = some field)
      (held : m.get? name = some node) : Holds schema m field.kind node
  | mapped {name target : String} {kind : ScalarKind} {map : List (Literal × Literal)}
      {onlyIf : Option Literal} {node : Node}
      (listed : .mapped name kind target map onlyIf ∈ schema.legacy)
      (held : m.get? name = some node) : Holds schema m (.scalar kind) node
  | group {names : List (String × ScalarKind)}
      {combine : List (Option Value) → View → Option String → List (String × Value)}
      {name : String} {kind : ScalarKind} {node : Node}
      (listed : .group names combine ∈ schema.legacy) (named : (name, kind) ∈ names)
      (held : m.get? name = some node) : Holds schema m (.scalar kind) node

/-- **A document whose keys are all known**, at the top and in each mapping that is read into
parts. -/
structure KeysKnown (schema : Schema) (m : Mapping) : Prop where
  top : ∀ entry ∈ m, ∃ name, entry.1.keyName? = some name ∧ KnownKey schema name
  inside : ∀ kind node parts entries, Holds schema m kind node →
    kind.ReadsMapping node parts entries →
      ∀ entry ∈ entries, ∃ part ∈ parts, entry.1.keyName? = some part.name

/-- **Each node that a document holds for more than a simple kind has been read** when the edits
have been made. -/
theorem read_of_edit (edited : edit v m basedOn start = .ok filled) (version : start.version = v)
    (holds : Holds v.schema m kind node) :
    (∃ simple, kind = .scalar simple) ∨ ∃ current path value,
      (kind.read v.schema.conventions.strictKeys node current path).outcome = .ok value := by
  obtain ⟨renewed, legacies, fields⟩ := Outcome.bind_eq_ok_iff.mp edited
  have version' : renewed.version = v :=
    (Becomes.of_foldlM (fun _ => .of_readLegacy) legacies).sameTags.1.trans version
  cases holds with
  | mapped => exact .inl ⟨_, rfl⟩
  | group => exact .inl ⟨_, rfl⟩
  | @field field _ listed held =>
    obtain ⟨r, next, rfl, step⟩ := Outcome.exists_step_of_foldlM
      (P := fun r : StyleRecord => r.version = v)
      (fun _ _ _ _ step same => (Becomes.of_readField step).sameTags.1.trans same)
      fields version' listed
    simp only [readField, held, Traced.outcome_bind] at step
    obtain ⟨value, read, -⟩ := Outcome.bind_eq_ok_iff.mp step
    exact .inr ⟨_, _, value, read⟩
  | @synonym name target field _ listed found held =>
    obtain ⟨r, next, rfl, step⟩ := Outcome.exists_step_of_foldlM
      (P := fun r : StyleRecord => r.version = v)
      (fun _ _ _ _ step same => (Becomes.of_readLegacy step).sameTags.1.trans same)
      legacies version listed
    have found' : r.schema.field? target = some field := found
    simp only [readLegacy, held, found', Traced.outcome_bind] at step
    obtain ⟨value, read, -⟩ := Outcome.bind_eq_ok_iff.mp step
    exact .inr ⟨_, _, value, read⟩

/-- **Where keys are strict, a document that is read has only known keys.** -/
theorem keysKnown_of_read (strict : v.schema.conventions.strictKeys = true)
    (version : template.version = v) (h : (read requested template index m).outcome = .ok d) :
    KeysKnown v.schema m := by
  obtain ⟨-, -, h⟩ := read_eq_ok_iff.mp h
  obtain ⟨-, start, filled, base, edited, known, -⟩ := readFor_eq_ok_iff.mp h
  have begun : start.version = v := (tags_of_readBase base).1.trans version
  subst version
  constructor
  case top =>
    intro entry member
    obtain ⟨name, named, known⟩ := checkKeys_pass_iff.mp known entry member
    exact ⟨name, named, known strict⟩
  case inside =>
    intro kind node parts entries holds inside
    rcases read_of_edit edited begun holds with ⟨simple, rfl⟩ | ⟨current, path, value, read⟩
    · cases inside
    · rw [strict] at read
      exact FieldKind.names_of_read read inside

/-! ## Other documents -/

/-- **A stray entry**: its key is a string that the schema does not know. -/
def Stray (schema : Schema) (entry : Node × Node) : Prop :=
  ∃ name, entry.1.keyName? = some name ∧ ¬ KnownKey schema name

/-- **A document without its stray entries.** -/
def onlyKnown (schema : Schema) (m : Mapping) : Mapping :=
  m.filter fun entry => entry.1.keyName?.all (knows schema)

/-- **A document with stray entries put in**, wherever and whatever they hold. -/
inductive Extends (schema : Schema) : Mapping → Mapping → Prop where
  | nil : Extends schema [] []
  | keep {entry : Node × Node} {m m' : Mapping} (rest : Extends schema m m') :
      Extends schema (entry :: m) (entry :: m')
  | stray {entry : Node × Node} {m m' : Mapping} (unknown : Stray schema entry)
      (rest : Extends schema m m') : Extends schema m (entry :: m')

/-- A document extends what is left when its stray entries are taken out. -/
private theorem extends_onlyKnown (schema : Schema) (m : Mapping) :
    Extends schema (onlyKnown schema m) m := by
  induction m with
  | nil => exact .nil
  | cons entry m ih =>
    unfold onlyKnown at ih ⊢
    rw [List.filter_cons]
    split
    · exact .keep ih
    · rename_i dropped
      refine .stray ?_ ih
      cases named : entry.1.keyName? with
      | none => simp [named] at dropped
      | some name =>
        refine ⟨name, named, fun known => dropped ?_⟩
        simp [named, knows_iff.mpr known]

namespace Extends

/-- Under a known key the same is found. -/
theorem get?_eq (added : Extends schema m m') (known : KnownKey schema key) :
    m'.get? key = m.get? key := by
  induction added with
  | nil => rfl
  | keep _ ih => rw [Yaml.Mapping.get?_cons, Yaml.Mapping.get?_cons, ih]
  | @stray entry _ _ unknown _ ih =>
    obtain ⟨name, named, unknown⟩ := unknown
    rw [Yaml.Mapping.get?_cons, if_neg, ih]
    intro hit
    have same : entry.1.keyName? = some key := Node.keyName?_of_str? hit
    obtain rfl := Option.some.inj (named.symm.trans same)
    exact unknown known

theorem readLanguage_eq (added : Extends schema m m') :
    readLanguage schema m' = readLanguage schema m := by
  unfold readLanguage
  split
  · rename_i spoken
    rw [added.get?_eq (.language spoken)]
  · rfl

theorem readBase_eq (added : Extends schema m m') (template : StyleRecord) :
    readBase requested m' template = readBase requested m template := by
  unfold readBase
  rw [added.get?_eq .basedOn]

theorem edit_eq (added : Extends v.schema m m') :
    edit v m' basedOn start = edit v m basedOn start := by
  have legacies : ∀ legacy ∈ v.schema.legacy, ∀ r : StyleRecord,
      (readLegacy m' basedOn r legacy).outcome = (readLegacy m basedOn r legacy).outcome := by
    intro legacy listed r
    rw [readLegacy_congr fun key named => added.get?_eq (.legacy listed named)]
  have fields : ∀ field ∈ v.schema.fields, ∀ r : StyleRecord,
      (readField m' r field).outcome = (readField m r field).outcome := by
    intro field listed r
    simp only [readField, added.get?_eq (.field listed)]
  unfold edit
  rw [Outcome.foldlM_congr legacies]
  exact bind_congr fun r => Outcome.foldlM_congr fields r

/-- Where keys are not strict, stray entries pass. -/
theorem checkKeys_iff (added : Extends schema m m')
    (lax : schema.conventions.strictKeys = false) :
    (checkKeys schema m').outcome = .ok () ↔ (checkKeys schema m).outcome = .ok () := by
  simp only [checkKeys_pass_iff, lax, Bool.false_eq_true, false_implies, and_true]
  induction added with
  | nil => exact Iff.rfl
  | keep _ ih => rw [List.forall_mem_cons, List.forall_mem_cons, ih]
  | stray unknown _ ih =>
    obtain ⟨name, named, -⟩ := unknown
    rw [List.forall_mem_cons, ih]
    exact and_iff_right ⟨name, named⟩

/-- **Where keys are not strict, stray entries make no difference.** -/
theorem readLike (added : Extends v.schema m m')
    (lax : v.schema.conventions.strictKeys = false) :
    ReadLike v requested m m' ∧ ReadLike v requested m' m := by
  constructor
  · exact ⟨.of_eq added.readLanguage_eq.symm,
      fun template _ => .of_eq (congrArg _ (added.readBase_eq template).symm),
      fun _ _ _ => .of_eq added.edit_eq.symm, fun _ => (added.checkKeys_iff lax).mpr⟩
  · exact ⟨.of_eq added.readLanguage_eq,
      fun template _ => .of_eq (congrArg _ (added.readBase_eq template)),
      fun _ _ _ => .of_eq added.edit_eq, fun _ => (added.checkKeys_iff lax).mp⟩

end Extends

end Document

/-! ## Configurations -/

/-- **Keys are strict from the third version on**, and before it every option is a simple one. -/
theorem Version.strictKeys_iff (v : Version) :
    (v.schema.conventions.strictKeys = true ↔ .v12 ≤ v) ∧
      (v < .v12 → ∀ field ∈ v.schema.fields, field.kind.parts? = none) := by
  have checked : ∀ v ∈ Version.all, (v.schema.conventions.strictKeys = true ↔ .v12 ≤ v) ∧
      (v < .v12 → ∀ field ∈ v.schema.fields, field.kind.parts? = none) := by
    decide +kernel
  exact checked v v.mem_all

namespace Configuration

variable {v : Version} {text : String} {requested : Language} {ambient : StyleRecord}
  {ms ms' : List Mapping} {c : Configuration}

open Document (Extends Holds KeysKnown onlyKnown)

/-- **A configuration in which stray entries count for nothing**: no mapping is read into parts, the
stray entries at the top of the documents can be taken out, and others can be put in. -/
structure StrayIgnored (v : Version) (requested : Language) (ambient : StyleRecord)
    (ms : List Mapping) (c : Configuration) : Prop where
  flat : ∀ m ∈ ms, ∀ kind node parts entries, Holds v.schema m kind node →
    ¬ kind.ReadsMapping node parts entries
  takenOut : Yields v requested ambient (ms.map (onlyKnown v.schema)) c
  putIn : ∀ ms', List.Forall₂ (Extends v.schema) ms ms' → Yields v requested ambient ms' c

/-- Each mapping of a text that is accepted is read as a document of the version. -/
private theorem exists_read_of_ofMappings (version : ambient.version = v)
    (accepted : (ofMappings requested ambient ms).outcome = .ok c) :
    ∀ m ∈ ms, ∃ template d, template.version = v ∧
      (Document.read requested template 0 m).outcome = .ok d := by
  obtain ⟨-, documents, all, -, -⟩ := ofMappings_eq_ok_iff.mp accepted
  obtain ⟨-, each⟩ := readAll_eq_ok_iff.mp all
  intro m member
  obtain ⟨d, -, read⟩ := Outcome.exists_of_mem_left each member
  refine ⟨base ambient documents d, d, ?_, read⟩
  exact base_holds (P := fun r => r.version = v) version
    (fun d first => version_of_readAll version all d (List.mem_of_head? first)) d

/-- Where every option is a simple one, no mapping is read into parts. -/
private theorem not_readsMapping {m : Mapping} {kind : FieldKind} {node : Node} {parts : List Part}
    {entries : Mapping} (simple : ∀ field ∈ v.schema.fields, field.kind.parts? = none)
    (holds : Holds v.schema m kind node) : ¬ kind.ReadsMapping node parts entries := by
  have plain : kind.parts? = none := by
    cases holds with
    | field listed _ => exact simple _ listed
    | synonym _ found _ => exact simple _ (Schema.mem_of_field? found)
    | mapped => rfl
    | group => rfl
  intro inside
  cases inside <;> cases plain

/-- **A key that nothing knows is rejected or ignored.** For every text that is accepted, for every
language and over any ambient record: from the third version on, all keys of its documents are
known, the ones inside of values too; before it, unknown keys make no difference. -/
theorem unknown_keys (spells : Spells text ms)
    (accepted : (read v text requested ambient).outcome = .ok c) :
    (.v12 ≤ v → ∀ m ∈ ms, KeysKnown v.schema m) ∧
      (v < .v12 → StrayIgnored v requested ambient ms c) := by
  obtain ⟨supported, version, h⟩ := read_eq_ok_iff.mp accepted
  rw [spells.1, if_neg Bool.false_ne_true] at h
  obtain ⟨read, mappings, accepted⟩ := h
  obtain rfl := Except.ok.inj (spells.2.symm.trans mappings)
  have retagged : ({ ambient with language := requested } : StyleRecord).version = v := version
  obtain ⟨strict_iff, simple⟩ := v.strictKeys_iff
  refine ⟨fun late m member => ?_, fun early => ?_⟩
  · obtain ⟨template, d, same, read⟩ := exists_read_of_ofMappings retagged accepted m member
    exact Document.keysKnown_of_read (strict_iff.mpr late) same read
  · have lax : v.schema.conventions.strictKeys = false := by
      rw [← Bool.not_eq_true, strict_iff]
      exact Nat.not_le.mpr early
    constructor
    case flat =>
      intro m _ kind node parts entries holds
      exact not_readsMapping (simple early) holds
    case takenOut =>
      refine yields_of_ofMappings supported version (ofMappings_carries retagged ?_ _ accepted)
      rw [List.forall₂_map_right_iff, List.forall₂_same]
      exact fun m _ => ((Document.extends_onlyKnown v.schema m).readLike lax).2
    case putIn =>
      intro ms' added
      refine yields_of_ofMappings supported version (ofMappings_carries retagged ?_ _ accepted)
      exact added.imp fun _ _ added => (added.readLike lax).1

/-- A text with a stray key under a version that ignores it, and a text with keys at both levels
under one that does not. -/
theorem unknown_keys_both :
    (∃ c, (read .v3_4 "NoSuchOption: 1\nIndentWidth: 3\n" .cpp (.zeroed .v3_4 .cpp)).outcome =
        .ok c ∧
      StrayIgnored .v3_4 .cpp (.zeroed .v3_4 .cpp)
        [[entry "NoSuchOption" (.int 1), entry "IndentWidth" (.int 3)]] c) ∧
    ∃ c, (read .v16 "BraceWrapping:\n  AfterClass: true\n" .cpp (.zeroed .v16 .cpp)).outcome =
        .ok c ∧
      KeysKnown Version.v16.schema
        [entry "BraceWrapping" (.mapping [entry "AfterClass" (.bool true)])] := by
  have lax : Spells "NoSuchOption: 1\nIndentWidth: 3\n"
      [[entry "NoSuchOption" (.int 1), entry "IndentWidth" (.int 3)]] :=
    spells_of_tree (Yaml.plainTree [("NoSuchOption", "1"), ("IndentWidth", "3")]) (by decide)
      (by decide) rfl (by decide) rfl
  have strict : Spells "BraceWrapping:\n  AfterClass: true\n"
      [[entry "BraceWrapping" (.mapping [entry "AfterClass" (.bool true)])]] :=
    spells_of_tree (.mapping none [(.scalar none "BraceWrapping" true,
      Yaml.plainTree [("AfterClass", "true")])]) (by decide) (by decide) rfl (by decide) rfl
  let older : StyleRecord := .zeroed .v3_4 .cpp
  let newer : StyleRecord := .zeroed .v16 .cpp
  have accepts : (ofMappings .cpp { older with language := .cpp }
      [[entry "NoSuchOption" (.int 1), entry "IndentWidth" (.int 3)]]).outcome.isOk = true ∧
      (ofMappings .cpp { newer with language := .cpp }
        [[entry "BraceWrapping" (.mapping [entry "AfterClass" (.bool true)])]]).outcome.isOk =
          true := by
    decide +kernel
  obtain ⟨c, accepted⟩ := Outcome.isOk_iff.mp accepts.1
  obtain ⟨c', accepted'⟩ := Outcome.isOk_iff.mp accepts.2
  have yields : Yields .v3_4 .cpp older _ c := yields_of_ofMappings (by decide) rfl accepted
  have yields' : Yields .v16 .cpp newer _ c' := yields_of_ofMappings (by decide) rfl accepted'
  have reads := yields.2 _ lax
  have reads' := yields'.2 _ strict
  refine ⟨⟨c, reads, (unknown_keys lax reads).2 (by decide)⟩, c', reads', ?_⟩
  exact (unknown_keys strict reads').1 (by decide) _ List.mem_cons_self

end Configuration

end FormatStyle
