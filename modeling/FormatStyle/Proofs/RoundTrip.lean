import FormatStyle.Proofs.WordMappings

/-! # Writing a record and reading it again

A record that has been finished, written as its differences to a baseline and read on top of that
baseline, comes back as it was, but for what its presets imply
(`Configuration.read_written_difference`). What presets imply does not matter once they are written
out.
-/

namespace FormatStyle

open Yaml (Node Mapping)

namespace StyleRecord

variable {r t : StyleRecord} {name : String}

/-- Presets imply fields that they write. -/
theorem impliedFields_subset (implied : name ∈ r.impliedFields) :
    name ∈ r.schema.presetWrites := by
  obtain ⟨preset, selected, rfl⟩ := List.mem_map.mp implied
  exact List.mem_flatMap.mpr
    ⟨preset, (List.mem_filter.mp selected).1, List.mem_cons_self⟩

/-- Laws are about fields that no preset implies. -/
private theorem notMem_impliedFields (law : name ∈ lawFields) : name ∉ r.impliedFields :=
  fun implied => notMem_presetWrites (v := r.version) law (impliedFields_subset implied)

theorem get?_overlay_law (each : r.Each FieldKind.Stores) (law : name ∈ lawFields) :
    (r.overlay t).get? name = r.get? name :=
  get?_overlay_of_not_implied each (notMem_impliedFields law)

/-- The overlay derives what the record derives. -/
theorem derived_overlay (each : r.Each FieldKind.Stores) : (r.overlay t).derived = r.derived :=
  derived_congr rfl fun _ law => get?_overlay_law each law

/-- **Nothing is left to derive** exactly in a record that finishing does not change. -/
theorem settled_iff (each : r.Each FieldKind.Stores) : r.Settled ↔ r.finish = .ok r := by
  refine ⟨Settled.finish each, fun finished write member => ?_⟩
  rw [finish_eq_putAll each.wellFormed, Except.ok.injEq] at finished
  rw [← finished]
  exact get?_finished_of_mem each.wellFormed member

/-- A finished record is read again as its overlay. -/
theorem reread_of_settled (each : r.Each FieldKind.Stores) (settled : r.Settled) :
    r.reread t = r.overlay t := by
  unfold reread
  refine putAll_of_holds fun write member => ?_
  rw [derived_overlay each] at member
  rw [get?_overlay_law each (stores_derived each write member).1]
  exact settled write member

/-- **Read again and expanded, a record is finished and expanded**: what its presets imply is
written out again. -/
theorem expand_reread (native : r.Native) (wellFormed : t.WellFormed)
    (version : t.version = r.version) :
    (r.reread t).expand = (r.putAll r.derived).expand := by
  have overlaid := native.wellFormed.overlay wellFormed version
  refine expand_congr native.finished.wellFormed overlaid.finished ?_
    fun name kept => ?_
  · exact (sameTags_putAll _ _).trans ((sameTags_overlay r t).trans (sameTags_putAll r _).symm)
  · rw [reread, derived_overlay native.stores]
    refine get?_putAll_congr (wellFormed_iff.mp overlaid) native.stores rfl fun underived => ?_
    refine get?_overlay_of_not_implied native.stores fun implied => kept ?_
    -- Selectors are not derived, so the finished record implies what the record implies.
    obtain ⟨preset, selected, rfl⟩ := List.mem_map.mp implied
    obtain ⟨member, implies⟩ := List.mem_filter.mp selected
    refine List.mem_flatMap.mpr ⟨preset, by rwa [schema_putAll], ?_⟩
    refine preset.target_mem_overwrites (by rwa [schema_putAll]) native.finished.wellFormed ?_
    unfold Preset.implies at implies ⊢
    rw [get?_putAll_of_notMem]
    · exact implies
    · intro derived
      obtain ⟨write, made, named⟩ := List.mem_map.mp derived
      have law := (stores_derived native.stores write made).1
      exact notMem_selectors (r := r) (named ▸ law) (List.mem_map_of_mem member)

/-- Read again, a record breaks the law that it breaks when it is finished. -/
theorem brokenConstraint?_reread (native : r.Native) (wellFormed : t.WellFormed)
    (version : t.version = r.version) :
    (r.reread t).brokenConstraint? = (r.putAll r.derived).brokenConstraint? := by
  have overlaid := native.wellFormed.overlay wellFormed version
  refine brokenConstraint?_congr ?_ fun name law => ?_
  · rw [reread, (sameTags_putAll _ _).1, (sameTags_putAll _ _).1]
    rfl
  · rw [reread, derived_overlay native.stores]
    exact get?_putAll_congr (wellFormed_iff.mp overlaid) native.stores rfl
      fun _ => get?_overlay_law native.stores (constrainedFields_subset law)

end StyleRecord

namespace Configuration

open StyleRecord

variable {r b : StyleRecord}

/-- **A written difference is read back.** A record that is finished and keeps its laws, written on
top of a baseline and read again on top of it, is what it was: it has its language and its
inheritance, and under every name it holds what it held, but that a record which a selected preset
implies is the baseline's. So written out it is the same. -/
theorem read_written_difference (native : r.Native) (baseline : b.Native)
    (version : b.version = r.version)
    (plain : b.inheritsParent = false) (supported : r.schema.supports r.language = true)
    (finished : r.finish = .ok r) (lawful : r.brokenConstraint? = none)
    (kept : ∀ m, (r.toMapping (some b)).outcome = .ok m → ReadsBack m) :
    ∃ text c, (r.write (some b)).outcome = .ok text ∧
      (read r.version text r.language b).outcome = .ok c ∧
      c.record.version = r.version ∧ c.record.language = r.language ∧
      c.record.inheritsParent = r.inheritsParent ∧ c.record.WellFormed ∧
      (∀ name, c.record.get? name =
        if name ∈ r.impliedFields then b.get? name else r.get? name) ∧
      ∃ expanded, r.expand = .ok expanded ∧ c.record.expand = .ok expanded := by
  obtain ⟨base, mapping, -⟩ := outcome_toMapping native (some b)
  obtain ⟨basedOn, outcome⟩ := outcome_read_frame native supported version plain
    baseline.wellFormed (by rintro _ ⟨⟩ name; rfl)
    (by rintro _ ⟨⟩; exact ⟨version, baseline.wellFormed⟩) mapping
    (kept _ mapping)
  have settled := (settled_iff native.stores).mpr finished
  have same : r.putAll r.derived = r := putAll_of_holds settled
  have laws : checkLaws (r.reread b) = .ok () := by
    unfold checkLaws
    rw [brokenConstraint?_reread native baseline.wellFormed version, same, lawful]
  rw [laws, Outcome.ok_bind] at outcome
  have expansion := expand_reread native baseline.wellFormed version
  rw [same] at expansion
  rw [reread_of_settled native.stores settled] at outcome expansion
  have overlaid := native.wellFormed.overlay baseline.wellFormed version
  obtain ⟨expanded, expand, -⟩ := expand_isOk native
  refine ⟨_, _, ?_, outcome, rfl, rfl, rfl, overlaid, fun name => ?_, expanded, expand,
    expansion.trans expand⟩
  · unfold write
    rw [Traced.outcome_map, mapping]
    rfl
  · split
    · exact get?_overlay_of_implied baseline.wellFormed version (by assumption)
    · exact get?_overlay_of_not_implied native.stores (by assumption)

/-- Next to a baseline that differs in one field only that field is written. -/
private theorem writtenFields_put {name : String} {field : Field} {value : Value}
    (each : b.Each FieldKind.Stores) (found : b.schema.field? name = some field)
    (stores : field.kind.Stores value) (differs : b.current field ≠ value)
    (unimplied : name ∉ (b.put name value).impliedFields) :
    (b.put name value).writtenFields (some b) =
      [entry name (field.kind.writeDifference value (b.current field))] := by
  obtain rfl := Schema.name_of_field? found
  have member := Schema.mem_of_field? found
  have changed : (b.put field.name value).Each FieldKind.Stores := by
    refine each.put fun other found' => ?_
    rw [found, Option.some.injEq] at found'
    exact found' ▸ stores
  have held := each.get?_eq_current found
  have here : (b.put field.name value).writtenNode? (some b) field =
      some (field.kind.writeDifference value (b.current field)) := by
    unfold writtenNode? writtenField?
    rw [current_put (by simp [held])]
    simp [unimplied, held, differs, entry]
  have elsewhere : ∀ other ∈ b.fields, other.name ≠ field.name →
      (b.put field.name value).writtenNode? (some b) other = none := by
    intro other listed apart
    have held' := each.get?_eq_current (b.version.field?_of_mem listed)
    unfold writtenNode? writtenField?
    rw [current_put_of_ne apart]
    simp [held']
  rw [writtenFields_eq changed.wellFormed, fields_put]
  have split : ∀ fields : List Field, (∀ other ∈ fields, other ∈ b.fields) →
      (fields.filterMap fun other =>
        ((b.put field.name value).writtenNode? (some b) other).map (entry other.name)) =
      (fields.filter (·.name == field.name)).filterMap fun other =>
        ((b.put field.name value).writtenNode? (some b) other).map (entry other.name) := by
    intro fields sub
    induction fields with
    | nil => rfl
    | cons other fields ih =>
      simp only [List.mem_cons, forall_eq_or_imp] at sub
      by_cases same : other.name = field.name
      · simp [same, ih sub.2, List.filterMap_cons]
      · simp [same, ih sub.2, elsewhere other sub.1 same]
  rw [split b.fields fun _ => id, filter_key_eq_singleton
    (show (b.fields.map (·.name)).Nodup from b.version.nodup_names) member]
  simp [here]

/-- **Next to a style** that goes by its name, a record that differs in one field is written as its
language, the style and that field. -/
theorem toMapping_put {v : Version} {style name : String} {language : Language} {field : Field}
    {value : Value} (resolve : (Style.resolve v style language).outcome = .ok b)
    (identified : (Style.identify b language).outcome = .ok (some style))
    (found : v.schema.field? name = some field) (stores : field.kind.Stores value)
    (differs : b.current field ≠ value) (unimplied : name ∉ (b.put name value).impliedFields) :
    (b.put name value).Native ∧ ((b.put name value).toMapping (some b)).outcome =
      .ok (b.writtenLanguage ++ [entry basedOnKey (.str style)] ++
        [entry name (field.kind.writeDifference value (b.current field))]) := by
  obtain ⟨native, version, tag, plain, -⟩ := Style.native_of_resolve resolve
  have found' : b.schema.field? name = some field := by
    rw [StyleRecord.schema, version]
    exact found
  have fits : ∀ write ∈ [(name, value)], ∃ field,
      b.schema.field? write.1 = some field ∧ field.kind.Stores write.2 :=
    List.forall_mem_singleton.mpr ⟨field, found', stores⟩
  have based : ((b.put name value).writtenBase (some b)).outcome =
      .ok [entry basedOnKey (.str style)] := by
    unfold writtenBase
    simp [inheritsParent_put, plain, tag, identified]
  have tagged : (b.put name value).writtenLanguage = b.writtenLanguage := by
    unfold writtenLanguage
    rw [schema_put, language_put]
  refine ⟨native.putAll fits, ?_⟩
  unfold toMapping
  rw [Traced.outcome_bind, based, tagged,
    writtenFields_put native.stores found' stores differs unimplied]
  rfl

/-- The text of another column limit on top of the default style reads back. -/
private theorem readsBack_columnLimit :
    ReadsBack [entry basedOnKey (.str "llvm"), entry "ColumnLimit" (.int 100)] :=
  readsBack_of_words (by decide)

/-- A known style resolves, so that its record can be named. -/
theorem resolve_getD {v : Version} {name : String} {language : Language}
    (supported : v.schema.supports language = true) (known : (v.schema.style? name).isSome = true)
    (other : StyleRecord) : (Style.resolve v name language).outcome =
      .ok ((Style.resolve v name language).outcome.toOption.getD other) := by
  obtain ⟨style, found⟩ := Option.isSome_iff_exists.mp known
  obtain ⟨resolved, resolve⟩ := Style.resolve_isOk supported found
  rw [resolve]
  rfl

/-- Another column limit than that of the default style is all that is written next to it. -/
theorem toMapping_columnLimit (resolve : (Style.resolve .v3_4 "llvm" .cpp).outcome = .ok b) :
    (b.put "ColumnLimit" (.int 100)).Native ∧
      ((b.put "ColumnLimit" (.int 100)).toMapping (some b)).outcome =
        .ok [entry basedOnKey (.str "llvm"), entry "ColumnLimit" (.int 100)] := by
  obtain ⟨-, version, -⟩ := Style.native_of_resolve resolve
  have base : b = (Style.resolve .v3_4 "llvm" .cpp).outcome.toOption.getD (.zeroed .v3_4 .cpp) := by
    rw [resolve]
    rfl
  obtain ⟨field, found, unsigned⟩ : ∃ field,
      Version.v3_4.schema.field? "ColumnLimit" = some field ∧ field.kind = .scalar .unsigned :=
    Schema.field?_of_scalarKind? (by decide)
  have stores : field.kind.Stores (.int 100) := by
    rw [unsigned]
    exact ⟨by decide, by decide⟩
  have differs : b.current field ≠ .int 100 := by
    have held : b.get? "ColumnLimit" = some (.int 80) := by
      rw [base]
      decide
    rw [StyleRecord.current, Schema.name_of_field? found, held]
    simp
  have unimplied : (b.put "ColumnLimit" (.int 100)).impliedFields = [] := by
    rw [impliedFields, schema_put, StyleRecord.schema, version]
    rfl
  have identified : (Style.identify b .cpp).outcome = .ok (some "llvm") := by
    rw [base]
    exact Outcome.toOption_eq_some_iff.mp (by decide)
  have untagged : b.writtenLanguage = [] := by
    rw [writtenLanguage, StyleRecord.schema, version]
    rfl
  obtain ⟨native, mapping⟩ := toMapping_put resolve identified found stores differs
    (unimplied ▸ List.not_mem_nil)
  rw [untagged, unsigned] at mapping
  exact ⟨native, mapping⟩

/-- A record with another column limit than the default style is read back. -/
theorem read_written_difference_columnLimit :
    let b := (Style.resolve .v3_4 "llvm" .cpp).outcome.toOption.getD (.zeroed .v3_4 .cpp)
    let r := b.put "ColumnLimit" (.int 100)
    ∃ text c, (r.write (some b)).outcome = .ok text ∧
      (read r.version text r.language b).outcome = .ok c ∧
      c.record.version = r.version ∧ c.record.language = r.language ∧
      c.record.inheritsParent = r.inheritsParent ∧ c.record.WellFormed ∧
      (∀ name, c.record.get? name =
        if name ∈ r.impliedFields then b.get? name else r.get? name) ∧
      ∃ expanded, r.expand = .ok expanded ∧ c.record.expand = .ok expanded := by
  intro b r
  have resolve : (Style.resolve .v3_4 "llvm" .cpp).outcome = .ok b :=
    resolve_getD (by decide) (by decide) _
  obtain ⟨native, version, language, plain, -⟩ := Style.native_of_resolve resolve
  obtain ⟨native', mapping⟩ := toMapping_columnLimit resolve
  have schema : r.schema = Version.v3_4.schema := by
    rw [schema_put, StyleRecord.schema, version]
  have settled : r.Settled := by
    rw [Settled, derived, schema]
    exact fun _ member => (List.not_mem_nil member).elim
  refine read_written_difference native' native (by rw [version_put]) plain ?_
    (settled.finish native'.stores) ?_ ?_
  · rw [schema, language_put, language]
    decide
  · rw [brokenConstraint?, schema]
    rfl
  · intro m written
    obtain rfl := Except.ok.inj (mapping.symm.trans written)
    exact readsBack_columnLimit

end Configuration

end FormatStyle
