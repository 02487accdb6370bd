import FormatStyle.Proofs.Failures
import FormatStyle.Proofs.Lawful
import FormatStyle.Proofs.RoundTrip

/-! # What a migrated text means

A migrated text is read under its version, and means the record behind it, finished. So it means
that record exactly if finishing leaves it as it is (`Migration.read_migrated`). What is written can
be computed, step by step (`Migration.migratedMapping`). A step up to the two highest versions can
leave something to derive, and then nothing that the text is read as is the record
(`Migration.expand_read_ne`).
-/

namespace FormatStyle

open StyleRecord

/-- **A finished record expands as the record** exactly if nothing was left to derive: expansion
writes no field that is derived. -/
theorem StyleRecord.expand_finished_iff {r : StyleRecord} (native : r.Native) :
    (∃ expanded, (r.putAll r.derived).expand = .ok expanded ∧ r.expand = .ok expanded) ↔
      r.Settled := by
  obtain ⟨expanded, expand, -, -, frame⟩ := expand_isOk native
  constructor
  · rintro ⟨_, expand', same⟩ write member
    obtain rfl := Except.ok.inj (expand.symm.trans same)
    obtain ⟨_, finished, -, -, frame'⟩ := expand_isOk native.finished
    obtain rfl := Except.ok.inj (finished.symm.trans expand')
    have unwritten : write.1 ∉ r.schema.presetWrites :=
      notMem_presetWrites (admits_derived native.wellFormed write member).1
    rw [← frame _ unwritten, frame' _ (by rwa [schema_putAll])]
    exact get?_finished_of_mem native.wellFormed member
  · intro settled
    rw [putAll_of_holds settled]
    exact ⟨expanded, expand, expand⟩

namespace Migration

variable {text : String} {o : Options} {m : Migration}

/-- **What a migrated text means.** It is read under the target, for the language and on top of its
style, and what is read expands as the migrated record exactly if the target finishes that record as
it is. So it does wherever no step leads up to the two highest versions. -/
theorem read_migrated (migrated : (migrate text o).outcome = .ok m)
    (kept : ∀ baseline mapping, baseline? o m.style = .ok baseline →
      (m.record.toMapping baseline).outcome = .ok mapping → Configuration.ReadsBack mapping) :
    ∃ ambient c, (Style.resolve o.target m.style o.language).outcome = .ok ambient ∧
      (Configuration.read o.target m.text o.language ambient).outcome = .ok c ∧
      ((∃ expanded, c.record.expand = .ok expanded ∧ m.record.expand = .ok expanded) ↔
        m.record.finish = .ok m.record) ∧
      (.v12 ≤ o.source ∨ o.target ≤ .v3_6 → m.record.finish = .ok m.record) := by
  obtain ⟨course, delivered⟩ := exists_course migrated
  obtain ⟨-, style, -, baseline, compared, written⟩ := deliver_eq_ok delivered
  obtain ⟨native, version, language, -⟩ := delivered_record course delivered
  obtain ⟨ambient, resolved, -⟩ := resolve_of_expandedStyle course.arrived.styled
  obtain ⟨ambient_native, ambient_version, -, plain, -⟩ := Style.native_of_resolve resolved
  have same_version := ambient_version.trans version.symm
  have starts : ∀ b, baseline = some b → b = ambient := by
    rintro b rfl
    unfold baseline? at compared
    split at compared
    · rw [resolved] at compared
      exact (Option.some.inj (Except.ok.inj compared)).symm
    · cases compared
  unfold write at written
  rw [Traced.outcome_map, Outcome.map_eq_ok_iff] at written
  obtain ⟨mapping, mapped, framed⟩ := written
  have supported : m.record.schema.supports m.record.language = true := by
    rw [StyleRecord.schema, version, language]
    exact course.supported
  obtain ⟨basedOn, read⟩ := Configuration.outcome_read_frame native supported same_version plain
    ambient_native.wellFormed
    (fun b here name => by rw [starts b here])
    (fun b here => by rw [starts b here]; exact ⟨same_version, ambient_native.wellFormed⟩) mapped
    (kept baseline mapping (style ▸ compared) mapped)
  have lawful : Configuration.checkLaws (m.record.reread ambient) = .ok () := by
    unfold Configuration.checkLaws
    rw [brokenConstraint?_reread native ambient_native.wellFormed same_version,
      course.keepsLaws delivered]
  rw [lawful, Outcome.ok_bind, version, language, framed] at read
  refine ⟨ambient, _, style ▸ resolved, read, ?_, fun apart =>
    (course.settled delivered apart).finish native.stores⟩
  rw [← settled_iff native.stores, ← expand_finished_iff native]
  dsimp only
  rw [expand_reread native ambient_native.wellFormed same_version]

/-! ## What is written, computed -/

/-- **What a migration writes** of what has been read, step by step. -/
def migratedMapping (o : Options) (c : Configuration) : Except StyleError Yaml.Mapping := do
  let record ← settled c.record
  let style := saidStyle (Text.lower o.fallbackStyle) c.basedOn
  let before ← (expandedStyle o.source style o.language).outcome
  let top ← advanceBy o.language (Text.lower o.fallbackStyle) o.target
    (o.source.distance o.target) o.source ⟨record, style, before, []⟩
  let baseline ← baseline? o top.style
  ((keepInheritance c.record.inheritsParent top).record.toMapping baseline).outcome

/-- A finished migration has written that mapping. -/
private theorem toMapping_migrated {c : Configuration} {baseline : Option StyleRecord}
    (accepts : Accepts text o c) (migrated : (migrate text o).outcome = .ok m)
    (compared : baseline? o m.style = .ok baseline) :
    (m.record.toMapping baseline).outcome = migratedMapping o c := by
  obtain ⟨course, rfl, delivered⟩ := exists_course_of_accepts accepts migrated
  obtain ⟨record, style, -⟩ := deliver_eq_ok delivered
  have walked := course.walked
  rw [outcome_walk_eq_advanceBy] at walked
  have styled := course.sound.styled
  have start : course.start =
      ⟨course.start.record, course.start.style, course.start.before, []⟩ := by
    rw [← course.lossless]
  unfold migratedMapping
  rw [course.settles, Outcome.ok_bind, ← course.chosen]
  dsimp only
  rw [styled, Outcome.ok_bind, ← start, walked, Outcome.ok_bind, ← style, compared,
    Outcome.ok_bind, record]

/-- **What a migration writes in words**, its text is read back as. -/
theorem readsBack_migrated {c : Configuration} (accepts : Accepts text o c)
    (words : (migratedMapping o c).toOption.any Yaml.isWordMapping = true)
    (migrated : (migrate text o).outcome = .ok m) (baseline : Option StyleRecord)
    (mapping : Yaml.Mapping) (compared : baseline? o m.style = .ok baseline)
    (mapped : (m.record.toMapping baseline).outcome = .ok mapping) :
    Configuration.ReadsBack mapping := by
  rw [toMapping_migrated accepts migrated compared] at mapped
  rw [mapped] at words
  exact Configuration.readsBack_of_words words

/-- A text that says nothing but a line length, read. -/
theorem mappings_columnLimit :
    Configuration.mappings "ColumnLimit: 100\n" = .ok [[(.str "ColumnLimit", .int 100)]] :=
  Configuration.mappings_of_entries [[("ColumnLimit", "100")]] (by decide) rfl rfl (by decide)

/-- The text is accepted, and two steps down it is words that are written. -/
private theorem accepts_columnLimit :
    ∃ c, Accepts "ColumnLimit: 100\n" ⟨.v12, .v3_4, .cpp, "llvm", true⟩ c ∧
      (c.basedOn, (migratedMapping ⟨.v12, .v3_4, .cpp, "llvm", true⟩ c).toOption.any
        Yaml.isWordMapping) = (none, true) :=
  accepts_of_mappings (by decide) (by decide) mappings_columnLimit (by decide +kernel)

/-- A text that says nothing but a line length, migrated two steps down. -/
theorem read_migrated_columnLimit :
    let text := "ColumnLimit: 100\n"
    let o : Options := ⟨.v12, .v3_4, .cpp, "llvm", true⟩
    ∃ m, (migrate text o).outcome = .ok m ∧
      (∀ baseline mapping, baseline? o m.style = .ok baseline →
        (m.record.toMapping baseline).outcome = .ok mapping → Configuration.ReadsBack mapping) ∧
      ∃ ambient c, (Style.resolve .v3_4 m.style .cpp).outcome = .ok ambient ∧
        (Configuration.read .v3_4 m.text .cpp ambient).outcome = .ok c ∧
        ((∃ expanded, c.record.expand = .ok expanded ∧ m.record.expand = .ok expanded) ↔
          m.record.finish = .ok m.record) ∧
        (Version.v12 ≤ .v12 ∨ Version.v3_4 ≤ .v3_6 → m.record.finish = .ok m.record) := by
  intro text o
  obtain ⟨c, accepts, said⟩ := accepts_columnLimit
  obtain ⟨based, words⟩ := Prod.mk.inj said
  obtain ⟨m, migrated⟩ : ∃ m, (migrate text o).outcome = .ok m :=
    migrate_isOk_iff.mpr ⟨by decide, c, accepts, by rw [based]; decide⟩
  have kept := readsBack_migrated accepts words migrated
  exact ⟨m, migrated, kept, read_migrated migrated kept⟩

/-! ## A record that is left unfinished -/

/-- A return type break for definitions alone leaves the general one to derive. -/
private theorem not_settled_of_definition {r : StyleRecord} (high : .v12 ≤ r.version)
    (definition : r.get? "AlwaysBreakAfterDefinitionReturnType" = some (.choice "All"))
    (general : r.get? "AlwaysBreakAfterReturnType" = some (.choice "None")) : ¬ r.Settled := by
  intro settled
  have derived : ("AlwaysBreakAfterReturnType", Value.choice "AllDefinitions") ∈ r.derived := by
    refine mem_derived_iff.mpr ⟨_, (Version.footprints_high high).1, ?_, rfl⟩
    change Catalogue.V12.returnTypeBreak r.get? = _
    simp [Catalogue.V12.returnTypeBreak, definition, general, Value.choice?]
  have held := settled _ derived
  rw [general] at held
  simp at held

/-- **A record that is not settled is not what its text means**, whatever the text is read as:
everything that is read is settled. -/
theorem expand_read_ne {r ambient : StyleRecord} {baseline : Option StyleRecord} {v : Version}
    {language : Language} {c : Configuration} (native : r.Native) (version : r.version = v)
    (unsettled : ¬ r.Settled) (written : (r.write baseline).outcome = .ok text)
    (ambient_native : ambient.Native)
    (read : (Configuration.read v text language ambient).outcome = .ok c) :
    ¬ ∃ expanded, c.record.expand = .ok expanded ∧ r.expand = .ok expanded := by
  rintro ⟨expanded, expand, expand'⟩
  unfold write at written
  rw [Traced.outcome_map, Outcome.map_eq_ok_iff] at written
  obtain ⟨mapping, -, rfl⟩ := written
  obtain ⟨-, native', version', -, -, lawful⟩ := Configuration.sound_of_read ambient_native read
  rw [Configuration.isBlankText_frame, if_neg Bool.false_ne_true] at lawful
  obtain ⟨_, same, -, -, frame⟩ := expand_isOk native
  obtain rfl := Except.ok.inj (same.symm.trans expand')
  obtain ⟨_, same', -, -, frame'⟩ := expand_isOk native'
  obtain rfl := Except.ok.inj (same'.symm.trans expand)
  refine unsettled ((settled_congr (version.trans version'.symm) fun name law => ?_).mpr lawful.2)
  rw [← frame name (notMem_presetWrites law), frame' name (notMem_presetWrites law)]

/-- The break after the return types of definitions, made in a text of the second version. -/
private theorem mappings_returnType :
    Configuration.mappings "AlwaysBreakAfterDefinitionReturnType: true\n" =
      .ok [[(.str "AlwaysBreakAfterDefinitionReturnType", .bool true)]] :=
  Configuration.mappings_of_entries [[("AlwaysBreakAfterDefinitionReturnType", "true")]] (by decide)
    rfl rfl (by decide)

/-- The text is accepted, and read as it says. -/
private theorem accepts_returnType :
    ∃ c, Accepts "AlwaysBreakAfterDefinitionReturnType: true\n"
        ⟨.v3_6, .v12, .cpp, "llvm", true⟩ c ∧
      (c.basedOn, c.record.get? "AlwaysBreakAfterDefinitionReturnType") =
        (none, some (.bool true)) :=
  accepts_of_mappings (by decide) (by decide) mappings_returnType (by decide +kernel)

/-- The break after return types from the second to the next version: that for definitions is a
choice now, and the general one begins. -/
private theorem returnType_tables :
    Version.v3_6.schema.scalarKind? "AlwaysBreakAfterDefinitionReturnType" = some .bool ∧
    Version.v12.schema.scalarKind? "AlwaysBreakAfterDefinitionReturnType" =
      some (.choice Catalogue.V12.definitionReturnTypeBreaking) ∧
    Version.v3_6.schema.field? "AlwaysBreakAfterReturnType" = none ∧
    "AlwaysBreakAfterReturnType" ∉ (transfers .v12 .v3_6).flatMap Transfer.sources ∧
    (Version.v12.schema.style? "llvm").all (fun style =>
      (style.sketch .v12 .cpp).get? "AlwaysBreakAfterReturnType" == some (.choice "None")) =
      true := by
  decide +kernel

/-- The move of the break for definitions on the way up. -/
private theorem returnType_move :
    Transfer.rename "AlwaysBreakAfterDefinitionReturnType" "AlwaysBreakAfterDefinitionReturnType"
      [(.bool true, .choice "All"), (.bool false, .choice "None"), (.bool true, .choice "TopLevel")] ∈
      Version.v3_6.moves .v12 :=
  List.mem_append_left _ (List.mem_map.mpr
    ⟨_, .tail _ (.tail _ (.tail _ (.tail _ (.tail _ (.head _))))), rfl⟩)

/-- **The step up leaves the general break to its style** when it carries the one for definitions.
-/
theorem Step.returnType_next {s : Step} (between : s.Between .v3_6 .v12)
    (styled : (expandedStyle .v12 "llvm" .cpp).outcome = .ok s.after)
    (on : s.record.get? "AlwaysBreakAfterDefinitionReturnType" = some (.bool true)) :
    s.next.get? "AlwaysBreakAfterDefinitionReturnType" = some (.choice "All") ∧
      s.next.get? "AlwaysBreakAfterReturnType" = some (.choice "None") := by
  obtain ⟨flag, choice, begins, unread, none⟩ := returnType_tables
  obtain ⟨field, found, kind⟩ := Schema.field?_of_scalarKind? flag
  obtain ⟨other, found', kind'⟩ := Schema.field?_of_scalarKind? choice
  constructor
  · have move := returnType_move
    rw [← between.moves] at move
    refine get?_next_of_assigned (between.adjacent (.inl rfl)) between.after_wellFormed move ?_
    refine (assigned_rename ?_).1 ▸ List.mem_singleton_self _
    rw [renamed?_eq on (between.schema ▸ found) (between.after_schema ▸ found')]
    have denotes : (Literal.choice "All").toValue other.name other.kind (s.after.current other) =
        .ok (.choice "All") := by
      rw [kind']
      rfl
    simp [carried, translate?, Literal.holds, denotes, Except.toOption]
  · rw [Step.get?_next_of_begins rfl between begins unread]
    obtain ⟨-, style, -, found, holds⟩ := get?_of_expandedStyle styled
    rw [found, Option.all_some, beq_iff_eq] at none
    rw [holds _ (notMem_presetWrites (by decide)), none]

/-- **A text that does not mean what is migrated.** It breaks after the return types of definitions,
which the target lets the general break follow from, and the step there does not. -/
theorem migrate_unfinished_returnType :
    let text := "AlwaysBreakAfterDefinitionReturnType: true\n"
    let o : Options := ⟨.v3_6, .v12, .cpp, "llvm", true⟩
    ∃ m, (migrate text o).outcome = .ok m ∧ ∀ ambient c,
      (Style.resolve .v12 m.style .cpp).outcome = .ok ambient →
      (Configuration.read .v12 m.text .cpp ambient).outcome = .ok c →
        ¬ ∃ expanded, c.record.expand = .ok expanded ∧ m.record.expand = .ok expanded := by
  intro text o
  obtain ⟨c, accepts, said⟩ := accepts_returnType
  obtain ⟨based, on⟩ := Prod.mk.inj said
  obtain ⟨m, migrated⟩ : ∃ m, (migrate text o).outcome = .ok m :=
    migrate_isOk_iff.mpr ⟨by decide, c, accepts, by rw [based]; decide⟩
  obtain ⟨course, rfl, delivered⟩ := exists_course_of_accepts accepts migrated
  obtain ⟨w, up, walked⟩ := exists_advanced
    (show Version.stepTowards .v3_6 .v12 = some .v12 by decide) course.walked course.sound
    course.supports course.supported
  obtain rfl := Except.ok.inj (outcome_walk_self.symm.trans walked)
  have llvm : course.top.style = "llvm" := by
    have offered : Version.v12.offered? (saidStyle (Text.lower "llvm") none) (Text.lower "llvm") =
        some course.top.style := by
      rw [← based, ← course.chosen]
      exact up.offered
    exact Option.some.inj (offered.symm.trans (by decide))
  have styled := up.sound.styled
  rw [llvm] at styled
  obtain ⟨definition, general⟩ := Step.returnType_next (course.sound.between up.sound) styled
    ((course.get?_start_of_law _ (by decide)).trans on)
  obtain ⟨native, version, -, holds⟩ := delivered_record course delivered
  obtain ⟨-, -, -, baseline, -, written⟩ := deliver_eq_ok delivered
  rw [← up.record, ← holds] at definition general
  have unsettled := not_settled_of_definition (version.symm ▸ (by decide)) definition general
  exact ⟨m, migrated, fun ambient c resolved read => expand_read_ne native version unsettled written
    (Style.native_of_resolve resolved).1 read⟩

end Migration

end FormatStyle
