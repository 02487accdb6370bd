import FormatStyle.Proofs.Reread

/-! # What differences are written

On top of a baseline a record is written as its differences: in schema order one entry for each
field that differs and that no preset implies, and within a nested record one entry for each part
that differs (`FieldKind.Tells`). Without one it is written whole, with every part
(`FieldKind.Spells`). The node of a simple value spells it, and is read back as the value
(`ScalarKind.Shows`). The document names the first style that has the values of the baseline. Main
statement: `StyleRecord.writes_differences`, for every two well-formed records of a version.
-/

namespace FormatStyle

open StyleRecord
open Yaml (Node Mapping)

/-! ## Nodes of differences -/

/-- **The spelling of a simple value.** A choice has the first one of its variant. -/
inductive ScalarKind.Spells : ScalarKind → Value → Node → Prop where
  | bool {b : Bool} : Spells .bool (.bool b) (.bool b)
  | number {kind : ScalarKind} {n : Int} (admitted : kind.admits (.int n) = true) :
      Spells kind (.int n) (.int n)
  | str {s : String} : Spells .str (.str s) (.str s)
  | list {items : List String} : Spells .strList (.list items) (.sequence (items.map .str))
  | choice {e : Enumeration} {variant spelling : String}
      (first : e.canonical? variant = some spelling) :
      Spells (.choice e) (.choice variant) (.str spelling)

/-- **The node that shows a simple value**: it spells the value, and the value is read from it if a
machine word stores it. -/
structure ScalarKind.Shows (kind : ScalarKind) (value : Value) (node : Node) : Prop where
  spells : kind.Spells value node
  reads : kind.Stores value → kind.read? node = some value

/-- What a simple value is written as spells it. -/
theorem ScalarKind.spells_write {kind : ScalarKind} {value : Value}
    (admitted : kind.admits value = true) : kind.Spells value (kind.write value) := by
  cases value with
  | int => exact .number admitted
  | bool => cases kind <;> cases admitted; exact .bool
  | str => cases kind <;> cases admitted; exact .str
  | list => cases kind <;> cases admitted; exact .list
  | record => cases kind <;> cases admitted
  | records => cases kind <;> cases admitted
  | choice variant =>
    cases kind <;> try cases admitted
    rename_i e
    rw [admits, ← e.canonical?_isSome] at admitted
    obtain ⟨spelling, first⟩ := Option.isSome_iff_exists.mp admitted
    rw [write, first]
    exact .choice first

/-- **A simple value is shown by what it is written as.** -/
theorem ScalarKind.shows_write {kind : ScalarKind} {value : Value} (lawful : kind.lawful = true)
    (admitted : kind.admits value = true) : kind.Shows value (kind.write value) :=
  ⟨spells_write admitted, read?_write lawful⟩

/-- **The entries of the parts that differ**, in the order of the parts. -/
inductive PartsTell : List Part → List Value → List Value → Mapping → Prop where
  | nil : PartsTell [] [] [] []
  | same {part : Part} {value : Value} {parts : List Part} {mine others : List Value}
      {entries : Mapping} (rest : PartsTell parts mine others entries) :
      PartsTell (part :: parts) (value :: mine) (value :: others) entries
  | differs {part : Part} {value other : Value} {node : Node} {parts : List Part}
      {mine others : List Value} {entries : Mapping} (apart : value ≠ other)
      (shown : part.kind.Shows value node) (rest : PartsTell parts mine others entries) :
      PartsTell (part :: parts) (value :: mine) (other :: others)
        (entry part.name node :: entries)

/-- **The entries of all parts**, in order. -/
inductive PartsSpell : List Part → List Value → Mapping → Prop where
  | nil : PartsSpell [] [] []
  | cons {part : Part} {value : Value} {node : Node} {parts : List Part} {values : List Value}
      {entries : Mapping} (shown : part.kind.Shows value node)
      (rest : PartsSpell parts values entries) :
      PartsSpell (part :: parts) (value :: values) (entry part.name node :: entries)

section

variable {parts : List Part} {mine others values : List Value} {entries : Mapping}

/-- **Parts that differ somewhere have entries.** -/
theorem PartsTell.ne_nil (tell : PartsTell parts mine others entries) (apart : mine ≠ others) :
    entries ≠ [] := by
  induction tell with
  | nil => exact absurd rfl apart
  | same _ ih => exact ih fun equal => apart (congrArg _ equal)
  | differs => exact List.cons_ne_nil _ _

/-- The parts of two records that differ are told apart. -/
theorem writeDifferingParts_tells (lawful : ∀ part ∈ parts, part.kind.lawful = true)
    (admitted : partsAdmit parts mine = true) (aligned : others.length = parts.length) :
    ∃ entries, writeDifferingParts parts mine others = .mapping entries ∧
      PartsTell parts mine others entries := by
  refine ⟨_, rfl, ?_⟩
  have admits := partsAdmit_iff.mp admitted
  induction admits generalizing others with
  | nil =>
    obtain rfl := List.eq_nil_of_length_eq_zero aligned
    exact .nil
  | @cons part value parts mine holds later ih =>
    obtain ⟨other, others, rfl⟩ := List.exists_cons_of_length_eq_add_one aligned
    rw [List.forall_mem_cons] at lawful
    have rest := ih lawful.2 (partsAdmit_iff.mpr later) (Nat.succ_injective aligned)
    rw [List.zip_cons_cons, List.zip_cons_cons, List.filterMap_cons]
    by_cases same : value = other
    · subst same
      simpa using .same rest
    · simpa [same] using .differs same (ScalarKind.shows_write lawful.1 holds) rest

/-- All parts of a record are spelled. -/
theorem writeParts_spells (lawful : ∀ part ∈ parts, part.kind.lawful = true)
    (admitted : partsAdmit parts values = true) :
    ∃ entries, writeParts parts values = .mapping entries ∧ PartsSpell parts values entries := by
  refine ⟨_, rfl, ?_⟩
  have admits := partsAdmit_iff.mp admitted
  induction admits with
  | nil => exact .nil
  | cons holds rest ih =>
    rw [List.forall_mem_cons] at lawful
    exact .cons (ScalarKind.shows_write lawful.1 holds) (ih lawful.2 (partsAdmit_iff.mpr rest))

end

namespace FieldKind

variable {kind : FieldKind} {mine other value : Value}

/-- **The node that tells a value apart from another one**: of a record or a shorthand the parts
that differ, of which there are some, and any other value whole. -/
inductive Tells : FieldKind → Value → Value → Node → Prop where
  | scalar {kind : ScalarKind} {mine other : Value} {node : Node} (shown : kind.Shows mine node) :
      Tells (.scalar kind) mine other node
  | record {parts : List Part} {mine others : List Value} {entries : Mapping}
      (some : entries ≠ []) (tell : PartsTell parts mine others entries) :
      Tells (.record parts) (.record mine) (.record others) (.mapping entries)
  | shorthand {s : Shorthand} {mine others : List Value} {entries : Mapping}
      (some : entries ≠ []) (tell : PartsTell s.parts mine others entries) :
      Tells (.shorthand s) (.record mine) (.record others) (.mapping entries)
  | recordList {parts : List Part} {mine : List (List Value)} {other : Value} {items : List Node}
      (each : List.Forall₂ (fun values item => ∃ entries, item = .mapping entries ∧
        PartsSpell parts values entries) mine items) :
      Tells (.recordList parts) (.records mine) other (.sequence items)

/-- **The node that spells a value whole**, with each of its parts. -/
inductive Spells : FieldKind → Value → Node → Prop where
  | scalar {kind : ScalarKind} {value : Value} {node : Node} (shown : kind.Shows value node) :
      Spells (.scalar kind) value node
  | record {parts : List Part} {values : List Value} {entries : Mapping}
      (spell : PartsSpell parts values entries) :
      Spells (.record parts) (.record values) (.mapping entries)
  | shorthand {s : Shorthand} {values : List Value} {entries : Mapping}
      (spell : PartsSpell s.parts values entries) :
      Spells (.shorthand s) (.record values) (.mapping entries)
  | recordList {parts : List Part} {records : List (List Value)} {items : List Node}
      (each : List.Forall₂ (fun values item => ∃ entries, item = .mapping entries ∧
        PartsSpell parts values entries) records items) :
      Spells (.recordList parts) (.records records) (.sequence items)

/-- A value that a kind admits is spelled whole. -/
theorem spells_write (lawful : kind.lawful = true) (admitted : kind.admits value = true) :
    kind.Spells value (kind.write value) := by
  cases kind with
  | scalar kind => exact .scalar (ScalarKind.shows_write lawful admitted)
  | record parts =>
    cases value <;> try cases admitted
    obtain ⟨entries, written, spell⟩ := writeParts_spells (partsLawful_iff.mp lawful).2 admitted
    rw [write, written]
    exact .record spell
  | shorthand s =>
    cases value <;> try cases admitted
    obtain ⟨entries, written, spell⟩ := writeParts_spells
      (partsLawful_iff.mp (Bool.and_eq_true_iff.mp lawful).1).2 admitted
    rw [write, written]
    exact .shorthand spell
  | recordList parts =>
    cases value <;> try cases admitted
    refine .recordList ?_
    rw [List.forall₂_map_right_iff, List.forall₂_same]
    intro values member
    exact writeParts_spells (partsLawful_iff.mp lawful).2
      (List.all_eq_true.mp admitted values member)

/-- **A value that differs is told apart** from the other one. -/
theorem tells_writeDifference (lawful : kind.lawful = true) (admitted : kind.admits mine = true)
    (admitted' : kind.admits other = true) (apart : mine ≠ other) :
    kind.Tells mine other (kind.writeDifference mine other) := by
  cases kind with
  | scalar kind => exact .scalar (ScalarKind.shows_write lawful admitted)
  | record parts =>
    cases mine <;> try cases admitted
    cases other <;> try cases admitted'
    obtain ⟨entries, written, tell⟩ := writeDifferingParts_tells (partsLawful_iff.mp lawful).2
      admitted (length_eq_of_partsAdmit admitted')
    rw [writeDifference, written]
    exact .record (tell.ne_nil fun equal => apart (congrArg _ equal)) tell
  | shorthand s =>
    cases mine <;> try cases admitted
    cases other <;> try cases admitted'
    obtain ⟨entries, written, tell⟩ := writeDifferingParts_tells
      (partsLawful_iff.mp (Bool.and_eq_true_iff.mp lawful).1).2 admitted
      (length_eq_of_partsAdmit admitted')
    rw [writeDifference, written]
    exact .shorthand (tell.ne_nil fun equal => apart (congrArg _ equal)) tell
  | recordList parts =>
    change (recordList parts).Tells mine other ((recordList parts).write mine)
    generalize whole : (recordList parts).write mine = node
    have spells := whole ▸ spells_write lawful admitted
    cases spells with
    | recordList each => exact .recordList each

end FieldKind

/-! ## What a record writes -/

namespace StyleRecord

variable {r b : StyleRecord} {baseline : Option StyleRecord} {name : String} {field : Field}

/-- **A field that follows from a preset**: it is the target of one that selects a named variant. -/
def Implied (r : StyleRecord) (name : String) : Prop :=
  ∃ preset ∈ r.schema.presets, preset.target = name ∧
    ∃ variant, r.get? preset.selector = some (.choice variant) ∧ variant ≠ preset.custom

theorem mem_impliedFields_iff : name ∈ r.impliedFields ↔ r.Implied name := by
  have implies : ∀ preset : Preset, preset.implies r = true ↔
      ∃ variant, r.get? preset.selector = some (.choice variant) ∧ variant ≠ preset.custom := by
    intro preset
    unfold Preset.implies
    rw [Option.any_eq_true]
    constructor
    · rintro ⟨variant, chosen, apart⟩
      obtain ⟨value, holds, chosen⟩ := Option.bind_eq_some_iff.mp chosen
      cases value <;> cases chosen
      exact ⟨variant, holds, bne_iff_ne.mp apart⟩
    · rintro ⟨variant, holds, apart⟩
      exact ⟨variant, by rw [holds]; rfl, bne_iff_ne.mpr apart⟩
  unfold impliedFields Implied
  rw [List.mem_map]
  constructor
  · rintro ⟨preset, listed, target⟩
    obtain ⟨listed, selects⟩ := List.mem_filter.mp listed
    exact ⟨preset, listed, target, (implies preset).mp selects⟩
  · rintro ⟨preset, listed, target, selects⟩
    exact ⟨preset, List.mem_filter.mpr ⟨listed, (implies preset).mpr selects⟩, target⟩

instance : Decidable (r.Implied name) := decidable_of_iff _ mem_impliedFields_iff

/-- **The entry of a field that differs** from what another record holds. -/
def TellsField (r b : StyleRecord) (field : Field) (e : Node × Node) : Prop :=
  e.1 = .str field.name ∧ ∃ mine other, r.get? field.name = some mine ∧
    b.get? field.name = some other ∧ field.kind.Tells mine other e.2

/-- **The entry of a field that is written whole.** -/
def SpellsField (r : StyleRecord) (field : Field) (e : Node × Node) : Prop :=
  e.1 = .str field.name ∧ ∃ value, r.get? field.name = some value ∧ field.kind.Spells value e.2

/-- The entries that a selection of fields is written as. -/
theorem forall₂_filterMap {node? : Field → Option (Node × Node)} {selected : Field → Bool}
    {R : Field → Node × Node → Prop} {fields : List Field}
    (left : ∀ field ∈ fields, selected field = false → node? field = none)
    (taken : ∀ field ∈ fields, selected field = true → ∃ e, node? field = some e ∧ R field e) :
    List.Forall₂ R (fields.filter selected) (fields.filterMap node?) := by
  induction fields with
  | nil => exact .nil
  | cons field fields ih =>
    rw [List.forall_mem_cons] at left taken
    have rest := ih left.2 taken.2
    cases chosen : selected field with
    | false => simpa [chosen, left.1 chosen] using rest
    | true =>
      obtain ⟨e, written, related⟩ := taken.1 chosen
      simpa [chosen, written] using ⟨related, rest⟩

/-- **On top of a baseline the fields that differ are written**, but for those that follow from a
preset. -/
theorem writtenFields_tell (wellFormed : r.WellFormed) (wellFormed' : b.WellFormed)
    (version : b.version = r.version) :
    List.Forall₂ (r.TellsField b)
      (r.fields.filter fun field =>
        r.get? field.name ≠ b.get? field.name ∧ ¬ r.Implied field.name)
      (r.writtenFields (some b)) := by
  rw [writtenFields_eq_filterMap wellFormed]
  have each := wellFormed_iff.mp wellFormed
  have each' := wellFormed_iff.mp wellFormed'
  have schema : b.schema = r.schema := congrArg Version.schema version
  have known : ∀ field ∈ r.fields, r.schema.field? field.name = some field :=
    fun field member => r.version.field?_of_mem member
  have written : ∀ field ∈ r.fields, r.writtenField? (some b) field (r.current field) =
      if r.get? field.name ≠ b.get? field.name ∧ ¬ r.Implied field.name then
        some (entry field.name (field.kind.writeDifference (r.current field) (b.current field)))
      else none := by
    intro field member
    rw [writtenField?, Option.bind_some, each.get?_eq_current (known field member),
      each'.get?_eq_current (schema ▸ known field member)]
    by_cases implied : r.Implied field.name
    · rw [if_pos (List.contains_iff_mem.mpr (mem_impliedFields_iff.mpr implied))]
      simp [implied]
    · rw [if_neg fun contains => implied (mem_impliedFields_iff.mp
        (List.contains_iff_mem.mp contains))]
      by_cases same : b.current field = r.current field
      · simp [same]
      · simp [same, Ne.symm same, implied]
  refine forall₂_filterMap (fun field member passed => ?_) (fun field member chosen => ?_)
  · rw [written field member, if_neg (of_decide_eq_false passed)]
  · have differs := of_decide_eq_true chosen
    have held := each.get?_eq_current (known field member)
    have held' := each'.get?_eq_current (schema ▸ known field member)
    rw [written field member, if_pos differs]
    refine ⟨_, rfl, rfl, _, _, held, held', ?_⟩
    apply FieldKind.tells_writeDifference
    · exact Version.lawful_of_mem member
    · exact each.current (known field member)
    · exact each'.current (schema ▸ known field member)
    · intro same
      exact differs.1 (by rw [held, held', same])

/-- **Without a baseline all fields are written whole**, but for those that follow from a preset. -/
theorem writtenFields_spell (wellFormed : r.WellFormed) :
    List.Forall₂ r.SpellsField (r.fields.filter fun field => ¬ r.Implied field.name)
      (r.writtenFields none) := by
  rw [writtenFields_eq_filterMap wellFormed]
  have each := wellFormed_iff.mp wellFormed
  refine forall₂_filterMap (fun field _ passed => ?_) (fun field member chosen => ?_)
  · have implied : r.Implied field.name := by simpa using passed
    rw [writtenField?, if_pos (List.contains_iff_mem.mpr (mem_impliedFields_iff.mpr implied))]
  · have own : ¬ r.Implied field.name := of_decide_eq_true chosen
    have known : r.schema.field? field.name = some field := r.version.field?_of_mem member
    rw [writtenField?, if_neg fun contains => own (mem_impliedFields_iff.mp
      (List.contains_iff_mem.mp contains))]
    exact ⟨_, rfl, rfl, _, each.get?_eq_current known,
      FieldKind.spells_write (Version.lawful_of_mem member) (each.current known)⟩

/-- **What is written is what differs.** For every two well-formed records of a version: after its
language and what it is based on, a document has an entry for each field that differs from the
baseline and follows from no preset, in schema order, and tells the two values apart; without a
baseline it has an entry for each field that follows from no preset, with all its parts. -/
theorem writes_differences (wellFormed : r.WellFormed) (wellFormed' : b.WellFormed)
    (version : b.version = r.version) :
    (∃ base entries,
      (r.toMapping (some b)).outcome = .ok (r.writtenLanguage ++ base ++ entries) ∧
      (r.write (some b)).outcome = .ok (frame (r.writtenLanguage ++ base ++ entries)) ∧
      r.BaseTells (some b) base ∧
      List.Forall₂ (r.TellsField b)
        (r.fields.filter fun field =>
          r.get? field.name ≠ b.get? field.name ∧ ¬ r.Implied field.name) entries) ∧
    ∃ base entries,
      (r.toMapping none).outcome = .ok (r.writtenLanguage ++ base ++ entries) ∧
      (r.write none).outcome = .ok (frame (r.writtenLanguage ++ base ++ entries)) ∧
      r.BaseTells none base ∧
      List.Forall₂ r.SpellsField (r.fields.filter fun field => ¬ r.Implied field.name) entries := by
  have written : ∀ {baseline : Option StyleRecord} {m : Mapping},
      (r.toMapping baseline).outcome = .ok m → (r.write baseline).outcome = .ok (frame m) := by
    intro baseline m mapped
    unfold write
    rw [Traced.outcome_map, mapped]
    rfl
  obtain ⟨base, mapped, based⟩ := r.exists_toMapping (some b)
  obtain ⟨base', mapped', based'⟩ := r.exists_toMapping none
  exact ⟨⟨base, _, mapped, written mapped, based,
      writtenFields_tell wellFormed wellFormed' version⟩,
    base', _, mapped', written mapped', based', writtenFields_spell wellFormed⟩

/-- **Next to a style that goes by its name**, a record that inherits nothing says that name. -/
theorem base_of_identify {base : Mapping} {style : String} (tells : r.BaseTells (some b) base)
    (plain : r.inheritsParent = false)
    (identified : (Style.identify b r.language).outcome = .ok (some style)) :
    base = [entry basedOnKey (.str style)] := by
  cases tells with
  | parent inherits => simp [plain] at inherits
  | style alone first =>
    obtain ⟨found, among, first'⟩ := b.outcome_identifyAmong r.language b.schema.styleNames
    obtain rfl := Except.ok.inj (among.symm.trans identified)
    rw [first.eq_find?, ← first'.eq_find?]
    rfl

/-- Some changes to the default style of the fourth version: a line length, the content of a preset,
and a part of a record. -/
def llvmChanges : List (String × Value) :=
  [("ColumnLimit", .int 100),
    ("SpaceBeforeParensOptions", .record (zeroParts Catalogue.V16.spaceBeforeParensOptions)),
    ("SpacesInLineCommentPrefix", .record [.int 2, .int (-1)])]

/-- They are changes that fit their fields, the preset still selects another content, and the style
goes by its name. -/
private theorem llvmChanges_change :
    (Style.resolve .v16 "llvm" .cpp).outcome.toOption.map (fun b =>
      (llvmChanges.all fun change => (b.schema.field? change.1).all (·.kind.admits change.2) &&
        (b.get? change.1).any (· != change.2), (b.putAll llvmChanges).impliedFields,
        (Style.identify b .cpp).outcome.toOption)) =
      some (true, ["BraceWrapping", "SpaceBeforeParensOptions"], some (some "llvm")) := by
  decide +kernel

/-- The default style differs from what it is changed to in the fields that are changed. -/
private theorem llvm_changed (resolved : (Style.resolve .v16 "llvm" .cpp).outcome = .ok b) :
    (b.putAll llvmChanges).WellFormed ∧
      (∀ name, (b.putAll llvmChanges).get? name ≠ b.get? name ↔
        name ∈ llvmChanges.map Prod.fst) ∧
      (b.putAll llvmChanges).impliedFields = ["BraceWrapping", "SpaceBeforeParensOptions"] ∧
      (Style.identify b .cpp).outcome = .ok (some "llvm") := by
  have computed := llvmChanges_change
  rw [resolved] at computed
  obtain ⟨changes, rest⟩ := Prod.mk.inj (Option.some.inj computed)
  obtain ⟨implied, identified⟩ := Prod.mk.inj rest
  simp only [List.all_eq_true, Bool.and_eq_true] at changes
  have wellFormed := (Style.native_of_resolve resolved).1.wellFormed
  refine ⟨wellFormed_iff.mpr ((wellFormed_iff.mp wellFormed).putAll ?_), fun name => ?_, implied,
    Outcome.toOption_eq_some_iff.mp identified⟩
  · intro change member field known
    simpa [known] using (changes change member).1
  · refine get?_putAll_ne_iff (by decide) fun change member => ?_
    obtain ⟨value, holds, other⟩ := (Option.any_eq_true _ _).mp (changes change member).2
    rw [holds]
    exact ⟨rfl, fun same => bne_iff_ne.mp other (Option.some.inj same)⟩

/-- The default style with these changes, on top of it. The content of the preset is not written. -/
theorem writes_differences_llvm : ∃ b : StyleRecord,
    (Style.resolve .v16 "llvm" .cpp).outcome = .ok b ∧
    let r := b.putAll llvmChanges
    r.WellFormed ∧ b.WellFormed ∧ b.version = r.version ∧
      (r.fields.filter fun field => r.get? field.name ≠ b.get? field.name).map (·.name) =
        ["ColumnLimit", "SpaceBeforeParensOptions", "SpacesInLineCommentPrefix"] ∧
      (r.fields.filter fun field =>
        r.get? field.name ≠ b.get? field.name ∧ ¬ r.Implied field.name).map (·.name) =
          ["ColumnLimit", "SpacesInLineCommentPrefix"] ∧
      (∃ entries,
        (r.toMapping (some b)).outcome =
          .ok (r.writtenLanguage ++ [entry basedOnKey (.str "llvm")] ++ entries) ∧
        (r.write (some b)).outcome =
          .ok (frame (r.writtenLanguage ++ [entry basedOnKey (.str "llvm")] ++ entries)) ∧
        r.BaseTells (some b) [entry basedOnKey (.str "llvm")] ∧
        List.Forall₂ (r.TellsField b)
          (r.fields.filter fun field =>
            r.get? field.name ≠ b.get? field.name ∧ ¬ r.Implied field.name) entries) ∧
      ∃ base entries,
        (r.toMapping none).outcome = .ok (r.writtenLanguage ++ base ++ entries) ∧
        (r.write none).outcome = .ok (frame (r.writtenLanguage ++ base ++ entries)) ∧
        r.BaseTells none base ∧
        List.Forall₂ r.SpellsField (r.fields.filter fun field => ¬ r.Implied field.name)
          entries := by
  obtain ⟨b, resolved⟩ : ∃ b, (Style.resolve .v16 "llvm" .cpp).outcome = .ok b :=
    Style.resolve_isOk (by decide) rfl
  obtain ⟨native, version, tag, plain, -⟩ := Style.native_of_resolve resolved
  obtain ⟨wellFormed, changed, implied, identified⟩ := llvm_changed resolved
  refine ⟨b, resolved, ?_⟩
  intro r
  have tags : SameTags r b := sameTags_putAll b _
  have fields : r.fields = Version.v16.schema.fields := by
    rw [tags.fields, StyleRecord.fields, StyleRecord.schema, version]
  obtain ⟨⟨base, entries, mapped, written, based, tell⟩, whole⟩ :=
    writes_differences wellFormed native.wellFormed tags.1.symm
  obtain rfl := base_of_identify based (tags.2.2.trans plain) (by rwa [tags.2.1, tag])
  refine ⟨wellFormed, native.wellFormed, tags.1.symm, ?_, ?_,
    ⟨entries, mapped, written, based, tell⟩, whole⟩
  · simp only [r, changed, fields]
    decide +kernel
  · simp only [r, changed, fields, ← mem_impliedFields_iff, implied]
    decide +kernel

end StyleRecord

end FormatStyle
