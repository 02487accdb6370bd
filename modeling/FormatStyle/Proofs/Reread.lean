import FormatStyle.Configuration
import FormatStyle.Proofs.Laws
import FormatStyle.Proofs.ReadBack
import FormatStyle.Proofs.Streams

/-! # A written record read again

A document that is written for a record on top of a baseline is read, on top of a record that holds
what the baseline holds, as the record itself, but for the fields that a selected preset implies:
they are never written, so they keep what the reader starts from (`StyleRecord.overlay`). Main
statement: `Configuration.outcome_read_frame`, for the whole configuration text, up to the
derivations and the constraints that reading ends with.
-/

namespace FormatStyle

open Yaml (Node Mapping)

/-! ## Looking up written entries -/

namespace Yaml.Mapping

variable {key name : String} {node : Node}

theorem get?_cons {m : Mapping} {e : Node × Node} :
    Mapping.get? (e :: m) key = if e.1.str? = some key then some e.2 else m.get? key := by
  unfold Mapping.get?
  rw [List.find?_cons]
  by_cases hit : e.1.str? = some key
  · simp [hit]
  · simp [hit, beq_eq_false_iff_ne.mpr hit]

theorem get?_cons_entry {m : Mapping} :
    Mapping.get? (entry name node :: m) key = if name = key then some node else m.get? key := by
  simp only [get?_cons, entry, Node.str?, Option.some.injEq]

theorem get?_append {m m' : Mapping} :
    Mapping.get? (m ++ m') key = (m.get? key).or (m'.get? key) := by
  unfold Mapping.get?
  rw [List.find?_append]
  cases m.find? _ <;> rfl

/-- The entry of a field among the entries of several fields. -/
theorem get?_filterMap {fields : List Field} {node? : Field → Option Node} :
    Mapping.get? (fields.filterMap fun field => (node? field).map (entry field.name)) key =
      (fields.filter (·.name == key)).findSome? node? := by
  induction fields with
  | nil => rfl
  | cons field fields ih =>
    by_cases same : field.name = key
    · cases found : node? field with
      | none => simp [found, same, ih]
      | some node => simp [found, same, get?_cons_entry]
    · cases found : node? field with
      | none => simp [found, same, ih]
      | some node => simp [found, same, get?_cons_entry, ih]

end Yaml.Mapping

/-- Keys that are not names of fields are told apart from them in every version, and no style is
called like the parent configuration. -/
theorem Version.keys_apart (v : Version) :
    languageKey ∉ v.schema.names ∧ basedOnKey ∉ v.schema.names ∧
      (∀ legacy ∈ v.schema.legacy, ∀ name ∈ legacy.names,
        name ∉ v.schema.names ∧ name ≠ languageKey ∧ name ≠ basedOnKey) ∧
      ∀ name ∈ v.schema.styleNames, Text.equalsIgnoringCase name parentConfiguration = false := by
  have checked : ∀ v ∈ Version.all, languageKey ∉ v.schema.names ∧ basedOnKey ∉ v.schema.names ∧
      (∀ legacy ∈ v.schema.legacy, ∀ name ∈ legacy.names,
        name ∉ v.schema.names ∧ name ≠ languageKey ∧ name ≠ basedOnKey) ∧
      ∀ name ∈ v.schema.styleNames, Text.equalsIgnoringCase name parentConfiguration = false := by
    decide +kernel
  exact checked v v.mem_all

namespace StyleRecord

variable {r t : StyleRecord} {baseline : Option StyleRecord} {field : Field} {name : String}

/-! ## The overlay -/

/-- **A record with what its presets imply taken from another one.** -/
def overlay (r t : StyleRecord) : StyleRecord :=
  { r with values := r.fields.map fun field =>
      if r.impliedFields.contains field.name then t.current field else r.current field }

theorem sameTags_overlay (r t : StyleRecord) : SameTags (r.overlay t) r := ⟨rfl, rfl, rfl⟩

theorem get?_overlay (found : r.schema.field? name = some field) :
    (r.overlay t).get? name =
      some (if r.impliedFields.contains name then t.current field else r.current field) := by
  obtain ⟨i, index, at_⟩ := Schema.index?_of_field? found
  have named := Schema.name_of_field? found
  change ((r.schema.index? name).bind fun index => (r.overlay t).values[index]?) = _
  rw [index, Option.bind_some, overlay, List.getElem?_map]
  rw [show r.fields[i]? = some field from at_, Option.map_some, named]

theorem get?_overlay_of_not_implied (each : r.Each FieldKind.Stores)
    (unimplied : name ∉ r.impliedFields) : (r.overlay t).get? name = r.get? name := by
  cases found : r.schema.field? name with
  | none => rw [get?_eq_none found, get?_eq_none (r := r.overlay t) found]
  | some field =>
    obtain rfl := Schema.name_of_field? found
    rw [get?_overlay found, each.get?_eq_current found]
    simp [unimplied]

theorem get?_overlay_of_implied (wellFormed : t.WellFormed) (version : t.version = r.version)
    (implied : name ∈ r.impliedFields) : (r.overlay t).get? name = t.get? name := by
  cases found : r.schema.field? name with
  | none =>
    rw [get?_eq_none (r := r.overlay t) found, get?_eq_none]
    rw [StyleRecord.schema, version]
    exact found
  | some field =>
    obtain rfl := Schema.name_of_field? found
    have found' : t.schema.field? field.name = some field := by
      rw [StyleRecord.schema, version]
      exact found
    rw [get?_overlay found, (wellFormed_iff.mp wellFormed).get?_eq_current found']
    simp [implied]

theorem WellFormed.overlay (wellFormed : r.WellFormed) (wellFormed' : t.WellFormed)
    (version : t.version = r.version) : (r.overlay t).WellFormed := by
  rw [wellFormed_iff] at wellFormed wellFormed' ⊢
  change List.Forall₂ (fun (field : Field) value => field.kind.admits value = true) r.fields
    (r.fields.map _)
  rw [List.forall₂_map_right_iff, List.forall₂_same]
  intro field member
  have found := r.version.field?_of_mem member
  split
  · exact wellFormed'.current (by rw [StyleRecord.schema, version]; exact found)
  · exact wellFormed.current found

/-! ## Reading the entries of the fields -/

/-- The node that is written for a field, if any. -/
def writtenNode? (r : StyleRecord) (baseline : Option StyleRecord) (field : Field) : Option Node :=
  (r.writtenField? baseline field (r.current field)).map (·.2)

theorem writtenField?_eq {value : Value} :
    r.writtenField? baseline field value =
      ((r.writtenField? baseline field value).map (·.2)).map (entry field.name) := by
  unfold writtenField?
  split
  · rfl
  · split
    · rfl
    · split <;> rfl

/-- The entries of the fields, each from what the record holds. -/
theorem writtenFields_eq_filterMap (wellFormed : r.WellFormed) (baseline : Option StyleRecord) :
    r.writtenFields baseline =
      r.fields.filterMap fun field => r.writtenField? baseline field (r.current field) := by
  unfold writtenFields
  rw [(wellFormed_iff.mp wellFormed).toList_eq, List.filterMap_map]
  rfl

theorem writtenFields_eq (wellFormed : r.WellFormed) :
    r.writtenFields baseline = r.fields.filterMap fun field =>
      (r.writtenNode? baseline field).map (entry field.name) := by
  rw [writtenFields_eq_filterMap wellFormed]
  exact List.filterMap_congr fun field _ => writtenField?_eq

/-- A reader that starts from `t` starts from what the baseline holds. -/
def StartsFrom (baseline : Option StyleRecord) (t : StyleRecord) : Prop :=
  ∀ b, baseline = some b → ∀ name, b.get? name = t.get? name

/-- **A field is read as the overlay holds it**, wherever its name finds what was written. -/
theorem readField_written {m : Mapping} {p : StyleRecord} (native : r.Native)
    (starts : StartsFrom baseline t) (member : field ∈ r.fields)
    (found : m.get? field.name = r.writtenNode? baseline field)
    (version : p.version = r.version) (wellFormed : p.WellFormed)
    (holds : p.get? field.name = t.get? field.name) :
    (Document.readField m p field).outcome =
      .ok (p.put field.name ((r.overlay t).current field)) := by
  have known := r.version.field?_of_mem member
  have known' : p.schema.field? field.name = some field := by
    rw [StyleRecord.schema, version]
    exact known
  have each := wellFormed_iff.mp wellFormed
  have held := each.get?_eq_current known'
  have here : (r.overlay t).current field =
      if r.impliedFields.contains field.name then t.current field else r.current field :=
    current_of_get? (get?_overlay known)
  have lawful := Version.lawful_of_mem member
  have mine := native.stores.current known
  have others := each.current known'
  have current : t.current field = p.current field := by
    rw [StyleRecord.current, StyleRecord.current, holds]
  have keeps : ∀ {value}, p.current field = value → p.put field.name value = p := by
    rintro value rfl
    exact put_get? held
  unfold Document.readField
  rw [found, here]
  unfold writtenNode? writtenField?
  by_cases implied : r.impliedFields.contains field.name = true
  · simp only [implied, if_true, Option.map_none]
    rw [keeps current.symm]
    rfl
  · simp only [implied, Bool.false_eq_true, if_false]
    have sets : ∀ {node : Node},
        (field.kind.read p.schema.conventions.strictKeys node (p.current field)
          field.name).outcome = .ok (r.current field) →
        (do
          let value ← field.kind.read p.schema.conventions.strictKeys node (p.current field)
            field.name
          p.set field.name value : Traced StyleError StyleRecord).outcome =
          .ok (p.put field.name (r.current field)) := by
      intro node read
      rw [Traced.outcome_bind, read, Outcome.ok_bind]
      exact set_eq_put known' (FieldKind.admits_of_stores mine)
    cases other : baseline.bind fun b => b.get? field.name with
    | none => exact sets (FieldKind.read_write lawful mine others)
    | some other =>
      obtain ⟨b, rfl, based⟩ := Option.bind_eq_some_iff.mp other
      rw [starts b rfl, ← holds, held, Option.some.injEq] at based
      subst based
      dsimp only
      by_cases same : p.current field = r.current field
      · rw [if_pos same, keeps same]
        rfl
      · rw [if_neg same]
        exact sets (FieldKind.read_writeDifference lawful mine others)

/-- **The fields of a document are read as the overlay holds them.** -/
theorem readFields_written {m : Mapping} (native : r.Native) (wellFormed : t.WellFormed)
    (version : t.version = r.version) (starts : StartsFrom baseline t)
    (found : ∀ field ∈ r.fields, m.get? field.name = r.writtenNode? baseline field) :
    (r.fields.foldlM (Document.readField m) t).outcome =
      .ok { t with values := (r.overlay t).values } := by
  have each := wellFormed_iff.mp wellFormed
  have overlaid := wellFormed_iff.mp (native.wellFormed.overlay wellFormed version)
  have folded : r.fields.foldlM (fun p field => (Document.readField m p field).outcome) t =
      .ok (t.putAll (r.fields.map fun field => (field.name, (r.overlay t).current field))) := by
    refine foldlM_eq_putAll r.version.nodup_names each fun field member p same each' holds => ?_
    refine ⟨readField_written native starts member (found field member)
      (same.1.trans version) (wellFormed_iff.mpr each') holds, ?_⟩
    refine each'.put fun other known => ?_
    rw [StyleRecord.schema, same.1, version] at known
    have here := r.version.field?_of_mem member
    obtain rfl : other = field := Option.some.inj (known.symm.trans here)
    exact overlaid.current here
  have kept : (t.putAll (r.fields.map fun field =>
      (field.name, (r.overlay t).current field))).Each
        fun kind value => kind.admits value = true := by
    refine each.putAll fun write member field found => ?_
    obtain ⟨source, listed, rfl⟩ := List.mem_map.mp member
    rw [StyleRecord.schema, version] at found
    have same : source = field :=
      Option.some.inj ((r.version.field?_of_mem listed).symm.trans found)
    exact same ▸ overlaid.current (r.version.field?_of_mem listed)
  have target : ({ t with values := (r.overlay t).values } : StyleRecord).Each
      fun kind value => kind.admits value = true := by
    unfold StyleRecord.Each StyleRecord.fields StyleRecord.schema
    dsimp only
    rw [version]
    exact overlaid
  rw [Traced.outcome_foldlM, folded]
  refine congrArg Except.ok (ext_get? kept target (sameTags_putAll t _) fun field member => ?_)
  rw [fields_putAll, StyleRecord.fields, StyleRecord.schema, version] at member
  have known := r.version.field?_of_mem member
  obtain ⟨value, holds, -⟩ := each.get? (show t.schema.field? field.name = some field by
    rw [StyleRecord.schema, version]; exact known)
  have assigned : (t.putAll (r.fields.map fun field =>
      (field.name, (r.overlay t).current field))).get? field.name =
        some ((r.overlay t).current field) := by
    refine get?_putAll_of_mem ?_ (List.mem_map.mpr ⟨field, member, rfl⟩) (by simp [holds])
    rw [List.map_map]
    exact r.version.nodup_names
  rw [assigned, ← overlaid.get?_eq_current known]
  unfold StyleRecord.get? StyleRecord.schema
  dsimp only
  rw [version]
  rfl

/-! ## Reading the rest of a document -/

/-- Older spellings that a document lacks change nothing. -/
theorem readLegacy_absent {m : Mapping} {basedOn : Option String} {p : StyleRecord}
    {legacy : Legacy} (absent : ∀ name ∈ legacy.names, m.get? name = none) :
    (Document.readLegacy m basedOn p legacy).outcome = .ok p := by
  cases legacy with
  | synonym name target =>
    have none := absent name (by simp [Legacy.names])
    unfold Document.readLegacy
    simp only [none]
    rfl
  | mapped name kind target map onlyIf =>
    have none := absent name (by simp [Legacy.names])
    unfold Document.readLegacy
    simp only [Document.readOwn, none, pure_bind]
    split <;> first | rfl | simp_all
  | group names combine =>
    have each : ∀ key ∈ names, (Document.readOwn p.schema.conventions.strictKeys m key.1
        key.2).outcome = .ok none := by
      intro key member
      unfold Document.readOwn
      rw [absent key.1 (List.mem_map_of_mem member)]
      rfl
    unfold Document.readLegacy
    simp only [Traced.outcome_bind, Traced.outcome_mapM]
    rw [Outcome.mapM_eq_map (g := fun _ => none) each, Outcome.ok_bind]
    simp

private theorem readLegacies_absent {m : Mapping} {legacies : List Legacy} (basedOn : Option String)
    (p : StyleRecord)
    (absent : ∀ legacy ∈ legacies, ∀ name ∈ legacy.names, m.get? name = none) :
    (legacies.foldlM (Document.readLegacy m basedOn) p).outcome = .ok p := by
  rw [Traced.outcome_foldlM]
  induction legacies with
  | nil => rfl
  | cons legacy legacies ih =>
    simp only [List.mem_cons, forall_eq_or_imp] at absent
    rw [List.foldlM_cons, readLegacy_absent absent.1, Outcome.ok_bind]
    exact ih absent.2

/-- The keys of a document pass exactly if each of them does. -/
theorem checkKeys_eq_ok_iff {schema : Schema} {m : Mapping} :
    (Document.checkKeys schema m).outcome = .ok () ↔
      ∀ entry ∈ m, (Document.checkKey schema entry.1).outcome = .ok () := by
  unfold Document.checkKeys
  rw [Traced.outcome_forM, Outcome.forM_eq_ok_iff, List.forall_mem_map]

/-- Known keys pass the check. -/
private theorem checkKeys_known {schema : Schema} {m : Mapping}
    (known : ∀ entry ∈ m, ∃ name, entry.1 = .str name ∧ Document.knows schema name = true) :
    (Document.checkKeys schema m).outcome = .ok () := by
  refine checkKeys_eq_ok_iff.mpr fun entry member => ?_
  obtain ⟨name, key, knows⟩ := known entry member
  simp [Document.checkKey, key, Node.keyName?, knows]

/-! ## The written mapping -/

/-- **A style that has the values of a record**, for a language. -/
def FitsStyle (b : StyleRecord) (language : Language) (name : String) : Prop :=
  ∃ candidate, (Style.resolve b.version name language).outcome = .ok candidate ∧
    candidate.sameValues b = true

/-- **The first of some styles that has the values of a record**, if there is one. -/
inductive FirstStyle (b : StyleRecord) (language : Language) (names : List String) :
    Option String → Prop where
  | found {before after : List String} {name : String} (split : names = before ++ name :: after)
      (earlier : ∀ other ∈ before, ¬ b.FitsStyle language other)
      (fits : b.FitsStyle language name) : FirstStyle b language names (some name)
  | none (absent : ∀ name ∈ names, ¬ b.FitsStyle language name) : FirstStyle b language names none

open Classical in
/-- The first style is what a search finds. -/
theorem FirstStyle.eq_find? {b : StyleRecord} {language : Language} {names : List String}
    {found : Option String} (first : FirstStyle b language names found) :
    found = names.find? fun name => b.FitsStyle language name := by
  symm
  cases first with
  | found split earlier fits =>
    rw [List.find?_eq_some_iff_append]
    refine ⟨by simpa using fits, _, _, split, fun other before => ?_⟩
    simpa using earlier other before
  | none absent =>
    rw [List.find?_eq_none]
    exact fun name member => by simpa using absent name member

/-- **Identification finds the first style that has the values of the record.** -/
theorem outcome_identifyAmong (b : StyleRecord) (language : Language) (names : List String) :
    ∃ found, (Style.identifyAmong b language names).outcome = .ok found ∧
      FirstStyle b language names found := by
  induction names with
  | nil => exact ⟨none, rfl, .none (List.forall_mem_nil _)⟩
  | cons name names ih =>
    obtain ⟨found, identified, first⟩ := ih
    have later : ¬ b.FitsStyle language name → FirstStyle b language (name :: names) found := by
      intro misfit
      cases first with
      | found split earlier fits =>
        exact .found (congrArg (name :: ·) split) (List.forall_mem_cons.mpr ⟨misfit, earlier⟩) fits
      | none absent => exact .none (List.forall_mem_cons.mpr ⟨misfit, absent⟩)
    unfold Style.identifyAmong
    rw [Traced.outcome_bind, Traced.outcome_attempt, Outcome.ok_bind]
    cases resolved : (Style.resolve b.version name language).outcome with
    | error e =>
      refine ⟨found, identified, later ?_⟩
      rintro ⟨candidate, fits, -⟩
      cases resolved.symm.trans fits
    | ok candidate =>
      by_cases same : candidate.sameValues b = true
      · have first : name :: names = [] ++ name :: names := rfl
        refine ⟨some name, by simp [same], .found first (List.forall_mem_nil _) ?_⟩
        exact ⟨candidate, resolved, same⟩
      · refine ⟨found, by simp [same, identified], later ?_⟩
        rintro ⟨other, fits, same'⟩
        obtain rfl := Except.ok.inj (resolved.symm.trans fits)
        exact same same'

/-- **What a document says it is based on**: the configuration of the parent directory, or else the
first style that has the values of the baseline, or nothing. -/
inductive BaseTells (r : StyleRecord) : Option StyleRecord → Mapping → Prop where
  | parent {baseline : Option StyleRecord}
      (inherits : (r.inheritsParent && r.schema.conventions.inheritsParent) = true) :
      BaseTells r baseline [entry basedOnKey (.str parentConfiguration)]
  | style {b : StyleRecord} {found : Option String}
      (alone : (r.inheritsParent && r.schema.conventions.inheritsParent) = false)
      (first : FirstStyle b r.language b.schema.styleNames found) :
      BaseTells r (some b) (found.map fun name => entry basedOnKey (.str name)).toList
  | none (alone : (r.inheritsParent && r.schema.conventions.inheritsParent) = false) :
      BaseTells r none []

/-- **The mapping of a record**: its language, what it is based on, and its fields. -/
theorem exists_toMapping (r : StyleRecord) (baseline : Option StyleRecord) :
    ∃ base, (r.toMapping baseline).outcome =
        .ok (r.writtenLanguage ++ base ++ r.writtenFields baseline) ∧
      r.BaseTells baseline base := by
  have written : ∃ base, (r.writtenBase baseline).outcome = .ok base ∧
      r.BaseTells baseline base := by
    unfold writtenBase
    cases inherits : r.inheritsParent && r.schema.conventions.inheritsParent with
    | true => exact ⟨_, rfl, .parent inherits⟩
    | false =>
      rw [if_neg Bool.false_ne_true]
      cases baseline with
      | none => exact ⟨_, rfl, .none inherits⟩
      | some b =>
        obtain ⟨found, identified, first⟩ :=
          outcome_identifyAmong b r.language b.version.schema.styleNames
        refine ⟨_, ?_, .style inherits first⟩
        dsimp only
        rw [Traced.outcome_bind, Style.identify, identified, Outcome.ok_bind]
        cases found <;> rfl
  obtain ⟨base, outcome, tells⟩ := written
  refine ⟨base, ?_, tells⟩
  unfold toMapping
  rw [Traced.outcome_bind, outcome]
  rfl

/-- **What the entry of the base says**: that the record inherits, or a style with the values of
the baseline. -/
def BaseEntry (r : StyleRecord) (baseline : Option StyleRecord) (base : Mapping) : Prop :=
  if r.inheritsParent then base = [entry basedOnKey (.str parentConfiguration)]
  else base = [] ∨ ∃ name b candidate, base = [entry basedOnKey (.str name)] ∧
    baseline = some b ∧ name ∈ b.schema.styleNames ∧
      (Style.resolve b.version name r.language).outcome = .ok candidate ∧
        candidate.sameValues b = true

theorem BaseTells.entry {base : Mapping} (native : r.Native) (tells : r.BaseTells baseline base) :
    r.BaseEntry baseline base := by
  unfold BaseEntry
  by_cases inherits : r.inheritsParent = true
  · rw [if_pos inherits]
    have both : (r.inheritsParent && r.schema.conventions.inheritsParent) = true := by
      rw [inherits, native.inherits inherits, Bool.and_self]
    cases tells with
    | parent => rfl
    | style alone => cases alone.symm.trans both
    | none alone => cases alone.symm.trans both
  · rw [if_neg inherits]
    cases tells with
    | parent both => exact absurd (Bool.and_eq_true_iff.mp both).1 inherits
    | none => exact .inl rfl
    | style _ first =>
      cases first with
      | none => exact .inl rfl
      | found split _ fits =>
        obtain ⟨candidate, resolved, same⟩ := fits
        refine .inr ⟨_, _, candidate, rfl, rfl, ?_, resolved, same⟩
        exact split ▸ List.mem_append_right _ List.mem_cons_self

/-- **The mapping of a record**, in its three parts. -/
theorem outcome_toMapping (native : r.Native) (baseline : Option StyleRecord) :
    ∃ base, (r.toMapping baseline).outcome =
        .ok (r.writtenLanguage ++ base ++ r.writtenFields baseline) ∧
      r.BaseEntry baseline base := by
  obtain ⟨base, outcome, tells⟩ := r.exists_toMapping baseline
  exact ⟨base, outcome, tells.entry native⟩

/-- The keys of the entries of the base. -/
theorem BaseEntry.keys {base : Mapping} (based : r.BaseEntry baseline base) :
    ∀ entry ∈ base, entry.1 = .str basedOnKey := by
  unfold BaseEntry at based
  split at based
  · simp [based, entry]
  · obtain rfl | ⟨name, b, candidate, rfl, -⟩ := based <;> simp [entry]

theorem get?_of_keys {m : Mapping} {key name : String} (keys : ∀ entry ∈ m, entry.1 = .str key)
    (ne : key ≠ name) : m.get? name = none := by
  unfold Mapping.get?
  rw [Option.map_eq_none_iff, List.find?_eq_none]
  intro entry member
  simp [keys entry member, Node.str?, ne]

theorem writtenLanguage_keys : ∀ entry ∈ r.writtenLanguage, entry.1 = .str languageKey := by
  unfold writtenLanguage
  split <;> simp [entry]

theorem get?_writtenFields (wellFormed : r.WellFormed) (unknown : name ∉ r.schema.names) :
    (r.writtenFields baseline).get? name = none := by
  rw [writtenFields_eq wellFormed, Yaml.Mapping.get?_filterMap, List.filter_eq_nil_iff.mpr]
  · rfl
  · intro field member
    have apart : field.name ≠ name := by
      rintro rfl
      exact unknown (List.mem_map_of_mem member)
    simpa using apart

/-- **What a written mapping holds under each key** that a reader looks up. -/
theorem get?_written {base : Mapping} (native : r.Native) (based : r.BaseEntry baseline base) :
    (∀ field ∈ r.fields, (r.writtenLanguage ++ base ++ r.writtenFields baseline).get? field.name =
      r.writtenNode? baseline field) ∧
    (∀ legacy ∈ r.schema.legacy, ∀ name ∈ legacy.names,
      (r.writtenLanguage ++ base ++ r.writtenFields baseline).get? name = none) ∧
    (r.writtenLanguage ++ base ++ r.writtenFields baseline).get? languageKey =
      r.writtenLanguage.get? languageKey ∧
    (r.writtenLanguage ++ base ++ r.writtenFields baseline).get? basedOnKey =
      base.get? basedOnKey := by
  obtain ⟨language_apart, based_apart, legacy_apart, -⟩ := r.version.keys_apart
  have keys := based.keys
  have wellFormed := native.wellFormed
  simp only [Yaml.Mapping.get?_append]
  refine ⟨fun field member => ?_, fun legacy listed name named => ?_, ?_, ?_⟩
  · have known : field.name ∈ r.version.schema.names := List.mem_map_of_mem member
    rw [get?_of_keys writtenLanguage_keys fun same => language_apart (same ▸ known),
      get?_of_keys keys fun same => based_apart (same ▸ known), Option.none_or, Option.none_or,
      writtenFields_eq wellFormed, Yaml.Mapping.get?_filterMap,
      filter_key_eq_singleton (show (r.fields.map (·.name)).Nodup from r.version.nodup_names)
        member]
    cases written : r.writtenNode? baseline field <;> simp [written]
  · obtain ⟨unknown, apart, apart'⟩ := legacy_apart legacy listed name named
    rw [get?_of_keys writtenLanguage_keys apart.symm, get?_of_keys keys apart'.symm,
      get?_writtenFields wellFormed unknown]
    rfl
  · rw [get?_of_keys keys (by decide), get?_writtenFields wellFormed language_apart]
    simp
  · rw [get?_of_keys writtenLanguage_keys (by decide), get?_writtenFields wellFormed based_apart]
    simp

/-- A schema knows every key that is written. -/
private theorem knows_written {base : Mapping} (native : r.Native) (based : r.BaseEntry baseline base) :
    ∀ entry ∈ r.writtenLanguage ++ base ++ r.writtenFields baseline,
      ∃ name, entry.1 = .str name ∧ Document.knows r.schema name = true := by
  intro e member
  rcases List.mem_append.mp member with member | member
  · rcases List.mem_append.mp member with member | member
    · refine ⟨languageKey, writtenLanguage_keys e member, ?_⟩
      unfold writtenLanguage at member
      split at member
      · rename_i tagged
        simp [Document.knows, (Bool.and_eq_true_iff.mp tagged).1]
      · cases member
    · exact ⟨basedOnKey, based.keys e member, by simp [Document.knows]⟩
  · rw [writtenFields_eq native.wellFormed] at member
    obtain ⟨field, listed, written⟩ := List.mem_filterMap.mp member
    obtain ⟨node, -, rfl⟩ := Option.map_eq_some_iff.mp written
    refine ⟨field.name, rfl, ?_⟩
    have known : (r.schema.field? field.name).isSome = true :=
      Schema.field?_isSome_iff.mpr (List.mem_map_of_mem listed)
    simp [Document.knows, known]

/-! ## The document -/

/-- The language that a document for a record names. -/
def documentLanguage (r : StyleRecord) : Language :=
  if r.schema.conventions.languageKey then r.language else .none

theorem supports_proper {v : Version} {language : Language}
    (supported : v.schema.supports language = true) :
    language ≠ .none ∧ language.text ≠ Language.none.text ∧
      Language.ofConfig? language.text = some language := by
  have proper : language ≠ .none := by
    rintro rfl
    cases v <;> simp [Schema.supports, Version.schema, Catalogue.V34.schema,
      Catalogue.V36.schema, Catalogue.V12.schema, Catalogue.V16.schema] at supported
  refine ⟨proper, ?_⟩
  cases language <;> first | exact absurd rfl proper | decide

/-- The language of a written document is read back. -/
private theorem readLanguage_written {m : Mapping} (supported : r.schema.supports r.language = true)
    (found : m.get? languageKey = r.writtenLanguage.get? languageKey) :
    Document.readLanguage r.schema m = .ok r.documentLanguage := by
  obtain ⟨proper, distinct, named⟩ := supports_proper supported
  unfold Document.readLanguage documentLanguage
  split
  · rename_i tagged
    have written : r.writtenLanguage = [entry languageKey (.str r.language.text)] := by
      simp [writtenLanguage, tagged, proper]
    rw [found, written, Yaml.Mapping.get?_cons_entry, if_pos rfl]
    simp [Node.scalarText?, distinct, named, Option.filter, supported]
  · rfl

/-- **The base of a written document** starts the reader from what the baseline holds. -/
theorem readBase_written {m base : Mapping} (native : r.Native) (version : t.version = r.version)
    (plain : t.inheritsParent = false) (wellFormed : t.WellFormed)
    (starts : StartsFrom baseline t) (baseline_version : ∀ b, baseline = some b →
      b.version = r.version ∧ b.WellFormed)
    (based : r.BaseEntry baseline base) (found : m.get? basedOnKey = base.get? basedOnKey) :
    ∃ basedOn, (Document.readBase r.language m t).outcome =
      .ok ({ t with inheritsParent := r.inheritsParent }, basedOn) := by
  unfold Document.readBase
  unfold BaseEntry at based
  have schema : t.schema = r.schema := by rw [StyleRecord.schema, version]; rfl
  split at based
  · rename_i inherits
    rw [found, based, Yaml.Mapping.get?_cons_entry, if_pos rfl]
    refine ⟨some parentConfiguration, ?_⟩
    simp [Node.scalarText?, schema, native.inherits inherits, inherits,
      Text.equalsIgnoringCase_refl]
  · rename_i inherits
    rw [Bool.not_eq_true] at inherits
    obtain rfl | ⟨name, b, candidate, rfl, rfl, listed, resolved, same⟩ := based
    · rw [found]
      refine ⟨none, ?_⟩
      rw [inherits, ← plain]
      rfl
    · rw [found, Yaml.Mapping.get?_cons_entry, if_pos rfl]
      obtain ⟨b_version, b_wellFormed⟩ := baseline_version b rfl
      have apart := b.version.keys_apart.2.2.2 name listed
      refine ⟨some name, ?_⟩
      obtain ⟨-, tag, -, uninherited, -⟩ := Style.native_of_resolve resolved
      obtain ⟨same_version, values⟩ := (sameValues_iff candidate b).mp same
      have t_values : b.values = t.values := by
        rw [(wellFormed_iff.mp b_wellFormed).values_eq, (wellFormed_iff.mp wellFormed).values_eq,
          StyleRecord.fields, StyleRecord.fields,
          StyleRecord.schema, StyleRecord.schema, b_version, version]
        refine List.map_congr_left fun field _ => ?_
        rw [StyleRecord.current, StyleRecord.current, starts b rfl]
      simp only [Node.scalarText?, apart, Bool.and_false, Bool.false_eq_true, if_false]
      rw [Traced.outcome_bind, version, ← b_version, resolved, Outcome.ok_bind,
        Traced.outcome_pure]
      congr 2
      obtain ⟨cv, cl, cvalues, ci⟩ := candidate
      dsimp only at same_version values uninherited
      subst same_version values uninherited
      rw [inherits, t_values, b_version, ← version]

theorem put_language (language : Language) {value : Value} :
    ({ r with language } : StyleRecord).put name value =
      { r.put name value with language } := by
  cases index : r.schema.index? name with
  | none =>
    have index' : ({ r with language } : StyleRecord).schema.index? name = none := index
    simp [put, index, index']
  | some i =>
    have index' : ({ r with language } : StyleRecord).schema.index? name = some i := index
    simp [put, index, index']

theorem putAll_language (language : Language) {writes : List (String × Value)} :
    ({ r with language } : StyleRecord).putAll writes =
      { r.putAll writes with language } := by
  induction writes generalizing r with
  | nil => rfl
  | cons write writes ih => rw [putAll_cons, putAll_cons, put_language, ih]

/-- Derivations do not look at the language. -/
private theorem finish_language (language : Language) (wellFormed : r.WellFormed) :
    ({ r with language } : StyleRecord).finish = .ok { r.putAll r.derived with language } := by
  rw [finish_eq_putAll (r := { r with language }) wellFormed, putAll_language]
  rfl

/-- **What reading a written record gives**: the overlay, finished. -/
def reread (r t : StyleRecord) : StyleRecord :=
  (r.overlay t).putAll (r.overlay t).derived

/-- **A written document is read as the record**, in the language that the document names. -/
theorem outcome_read_written {m : Mapping} (native : r.Native)
    (supported : r.schema.supports r.language = true) (version : t.version = r.version)
    (plain : t.inheritsParent = false) (wellFormed : t.WellFormed)
    (starts : StartsFrom baseline t) (baseline_version : ∀ b, baseline = some b →
      b.version = r.version ∧ b.WellFormed)
    (written : (r.toMapping baseline).outcome = .ok m) :
    ∃ basedOn, (Document.read r.language t 0 m).outcome =
      .ok ⟨r.documentLanguage, { r.reread t with language := r.documentLanguage }, basedOn⟩ := by
  obtain ⟨base, mapping, based⟩ := outcome_toMapping native baseline
  obtain rfl := Except.ok.inj (mapping.symm.trans written)
  obtain ⟨fields, legacies, language, found⟩ := get?_written native based
  have schema : t.schema = r.schema := by rw [StyleRecord.schema, version]; rfl
  let tagged : StyleRecord := { t with language := r.documentLanguage }
  obtain ⟨basedOn, start⟩ := readBase_written (t := tagged) native version plain wellFormed
    (by intro b here; exact starts b here) baseline_version based found
  let begun : StyleRecord := { tagged with inheritsParent := r.inheritsParent }
  have begun_wellFormed : begun.WellFormed := wellFormed
  have begun_schema : begun.schema = r.schema := schema
  have renewed := readLegacies_absent basedOn begun legacies
  have filled := readFields_written (t := begun) native begun_wellFormed version
    (by intro b here; exact starts b here) fields
  have keys := checkKeys_known (knows_written native based)
  have overlaid : ({ begun with values := (r.overlay begun).values } : StyleRecord) =
      { r.overlay t with language := r.documentLanguage } := by
    change (⟨t.version, _, _, _⟩ : StyleRecord) = ⟨r.version, _, _, _⟩
    rw [version]
    rfl
  have finished :=
    finish_language r.documentLanguage (native.wellFormed.overlay wellFormed version)
  refine ⟨basedOn, ?_⟩
  unfold Document.read
  simp only [Traced.outcome_bind, schema, readLanguage_written supported language,
    Traced.outcome_monadLift, Outcome.ok_bind, Nat.lt_irrefl, and_false, if_false]
  rw [start, Outcome.ok_bind, renewed, Outcome.ok_bind]
  change ((r.fields.foldlM (Document.readField _) begun).outcome >>= _) = _
  rw [filled, Outcome.ok_bind, keys, Outcome.ok_bind, overlaid, finished]
  rfl

end StyleRecord

namespace Configuration

open StyleRecord

variable {r t : StyleRecord} {baseline : Option StyleRecord} {m : Mapping}

/-- A framed text is not blank. -/
theorem isBlankText_frame (m : Mapping) : Text.isBlankText (frame m) = false := by
  unfold Text.isBlankText frame
  simp only [String.toList_append]
  rfl

/-- The text of an empty mapping is an empty document. -/
private theorem documents_frame_nil : Yaml.documents (frame []) = [some .null] :=
  Yaml.documents_of_empty

/-- **A mapping that the document format keeps**: its text is one document, which reads back as the
mapping. -/
def ReadsBack (m : Mapping) : Prop :=
  m ≠ [] → Yaml.documents (frame m) = [some (.mapping m)]

/-- A mapping that the document format keeps is the one mapping of its text. -/
theorem mappings_frame (kept : ReadsBack m) : mappings (frame m) = .ok [m] := by
  unfold mappings
  cases m with
  | nil => rw [documents_frame_nil]; rfl
  | cons entry m => rw [kept (by simp)]; rfl

/-- **A written record is read again as itself**, but for what presets imply and what the
derivations and constraints make of it. -/
theorem outcome_read_frame (native : r.Native) (supported : r.schema.supports r.language = true)
    (version : t.version = r.version) (plain : t.inheritsParent = false)
    (wellFormed : t.WellFormed) (starts : StartsFrom baseline t)
    (baseline_version : ∀ b, baseline = some b → b.version = r.version ∧ b.WellFormed)
    (written : (r.toMapping baseline).outcome = .ok m)
    (kept : ReadsBack m) :
    ∃ basedOn, (read r.version (frame m) r.language t).outcome =
      (checkLaws (r.reread t) >>= fun _ => .ok ⟨r.reread t, basedOn⟩) := by
  let ambient : StyleRecord := { t with language := r.language }
  obtain ⟨basedOn, document⟩ := outcome_read_written (t := ambient) native supported version plain
    wellFormed (by intro b here; exact starts b here) baseline_version written
  have selected : (select [⟨r.documentLanguage,
      { r.reread t with language := r.documentLanguage }, basedOn⟩] r.language).outcome =
      .ok ⟨r.reread t, basedOn⟩ := by
    have first : selected? [⟨r.documentLanguage,
        { r.reread t with language := r.documentLanguage }, basedOn⟩] r.language = some 0 := by
      unfold selected? documentLanguage
      by_cases tagged : r.schema.conventions.languageKey = true <;>
        by_cases none : Language.none = r.language <;> simp [tagged, none]
    unfold select
    rw [first]
    have language : (r.reread t).language = r.language :=
      (sameTags_putAll (r.overlay t) _).2.1
    simp only [Option.map_some, List.getElem?_cons_zero, Traced.outcome_bind, Traced.outcome_log,
      Outcome.ok_bind, Traced.outcome_pure, ← language]
  have documents : (readAll r.language ambient [m]).outcome =
      .ok [⟨r.documentLanguage, { r.reread t with language := r.documentLanguage }, basedOn⟩] := by
    unfold readAll readNext
    simp only [List.foldlM_cons, List.foldlM_nil, Traced.outcome_bind, List.length_nil, template,
      document, Outcome.ok_bind, List.any_nil, Bool.false_eq_true, and_false, if_false]
    rfl
  refine ⟨basedOn, ?_⟩
  unfold read
  rw [if_pos (show r.version.schema.supports r.language = true from supported), if_pos version]
  simp only [isBlankText_frame, Bool.false_eq_true, if_false, Traced.outcome_bind,
    Traced.outcome_monadLift, mappings_frame kept, Outcome.ok_bind]
  unfold ofMappings
  simp only [List.length_singleton, Nat.lt_irrefl, decide_false, Bool.and_false,
    Bool.false_eq_true, if_false, Traced.outcome_bind, Traced.outcome_log, Outcome.ok_bind]
  rw [documents, Outcome.ok_bind, selected, Outcome.ok_bind]
  rfl

end Configuration

end FormatStyle
