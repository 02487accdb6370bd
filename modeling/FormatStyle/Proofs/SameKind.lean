import FormatStyle.Proofs.Return

/-! # Fields of one kind

A choice is carried by its spellings, and the name of its variant is tried before the others. So a
variant whose name spells another variant becomes that one, even in a field of its own kind. In the
tables only one variant does: the two highest versions read the name of the standard of 2011 as the
newest one. Every other value of every field is carried to its own kind as it is
(`FieldKind.convert_self`, `Version.convert_field_self`), and so a step keeps it where no transfer
names the field (`Migration.Step.run_keeps_sameKind_iff`).
-/

namespace FormatStyle

namespace Enumeration

variable {e : Enumeration} {variant : String}

/-- **No variant of the enumeration is named by a spelling of another one.** -/
def selfNamed (e : Enumeration) : Bool :=
  e.spellings.all fun s => (e.variant? s.2).all (· == s.2)

theorem variant?_of_mem_spellingsOf (lawful : e.lawful = true) {word : String}
    (member : word ∈ e.spellingsOf variant) : e.variant? word = some variant := by
  simp only [spellingsOf, List.mem_map, List.mem_filter, beq_iff_eq] at member
  obtain ⟨s, ⟨listed, rfl⟩, rfl⟩ := member
  simp only [Enumeration.lawful, Bool.and_eq_true, List.all_eq_true, beq_iff_eq] at lawful
  exact lawful.2 s listed

/-- A variant of an enumeration has a spelling. -/
private theorem exists_mem_spellingsOf (has : e.hasVariant variant = true) :
    ∃ word, word ∈ e.spellingsOf variant := by
  obtain ⟨s, listed, same⟩ := List.any_eq_true.mp has
  exact ⟨s.1, List.mem_map_of_mem (List.mem_filter.mpr ⟨listed, same⟩)⟩

/-- **The words for a variant are read as that variant**, if its name spells no other one. -/
theorem findSome?_variant? (lawful : e.lawful = true) (selfNamed : e.selfNamed = true)
    (has : e.hasVariant variant = true) :
    (e.variants.filter (· == variant) ++ e.spellingsOf variant).findSome? e.variant? =
      some variant := by
  obtain ⟨word, spells⟩ := exists_mem_spellingsOf has
  have read := variant?_of_mem_spellingsOf lawful spells
  obtain ⟨found, first⟩ : ∃ found, (e.variants.filter (· == variant) ++
      e.spellingsOf variant).findSome? e.variant? = some found := by
    rw [← Option.isSome_iff_exists, List.findSome?_isSome_iff]
    exact ⟨word, List.mem_append_right _ spells, by rw [read]; rfl⟩
  obtain ⟨word', member, read'⟩ := List.exists_of_findSome?_eq_some first
  rw [first]
  rcases List.mem_append.mp member with named | spelled
  · -- The name of the variant itself: it is read as this variant, or not at all.
    obtain rfl : word' = variant := by simpa using (List.mem_filter.mp named).2
    obtain ⟨s, listed, same⟩ := List.any_eq_true.mp has
    obtain rfl := beq_iff_eq.mp same
    have own := List.all_eq_true.mp selfNamed s listed
    rw [read'] at own
    rw [beq_iff_eq.mp own]
  · exact read'.symm.trans (variant?_of_mem_spellingsOf lawful spelled)

end Enumeration

namespace ScalarKind

variable {kind : ScalarKind} {value : Value}

/-- No variant of the kind is named by a spelling of another one. -/
def selfNamed : ScalarKind → Bool
  | choice e => e.selfNamed
  | _ => true

/-- A simple value is carried to its own kind as it is. -/
theorem convert_selfNamed (lawful : kind.lawful = true) (selfNamed : kind.selfNamed = true)
    (admitted : kind.admits value = true) : kind.convert value kind = some value := by
  cases finite : kind.values? with
  | none => exact convert_self finite admitted
  | some values =>
    cases kind <;> cases finite
    · cases value with
      | bool b => cases b <;> decide
      | _ => cases admitted
    · cases value with
      | choice variant =>
        have read := Enumeration.findSome?_variant? lawful selfNamed admitted
        unfold convert represent
        simp only [spellings, read, Option.map_some, Option.filter_some, admitted, if_true]
      | _ => cases admitted

end ScalarKind

/-- A record is carried to its own parts as it is. -/
theorem convertParts_self {parts : List Part} {values : List Value} (current : Value)
    (lawful : partsLawful parts = true) (selfNamed : parts.all (·.kind.selfNamed) = true)
    (admitted : partsAdmit parts values = true) :
    convertParts parts values parts current = some values := by
  rw [partsLawful_iff] at lawful
  rw [List.all_eq_true] at selfNamed
  have admits := partsAdmit_iff.mp admitted
  refine convertParts_eq_some (List.forall₂_iff_get.mpr
    ⟨admits.length_eq.symm, fun i bound bound' => ⟨parts[i], values[i], ?_, ?_⟩⟩)
  · have own := partIndex?_of_nodup lawful.1 bound
    simp [partAt?, own, bound, bound']
  · have member := List.getElem_mem bound
    exact ScalarKind.convert_selfNamed (lawful.2 _ member) (selfNamed _ member)
      ((List.forall₂_iff_get.mp admits).2 i bound bound')

namespace FieldKind

variable {kind : FieldKind} {value current : Value}

/-- No variant at any place of the kind is named by a spelling of another one. -/
def selfNamed : FieldKind → Bool
  | scalar kind => kind.selfNamed
  | kind => (kind.parts?.getD []).all (·.kind.selfNamed)

theorem convert_scalar (source target : ScalarKind) :
    (scalar source).convert value (scalar target) current = source.convert value target := by
  cases value <;> rfl

/-- **A value is carried to its own kind as it is**, whatever the target held before. -/
theorem convert_self (lawful : kind.lawful = true) (selfNamed : kind.selfNamed = true)
    (admitted : kind.admits value = true) : kind.convert value kind current = some value := by
  cases kind with
  | scalar kind =>
    rw [convert_scalar]
    exact ScalarKind.convert_selfNamed lawful selfNamed admitted
  | record parts =>
    cases value <;> try cases admitted
    have carried := convertParts_self current lawful selfNamed admitted
    simp [convert, represent, parts?, carried, Option.filter, admitted]
  | shorthand s =>
    cases value <;> try cases admitted
    have carried := convertParts_self current (Bool.and_eq_true_iff.mp lawful).1
      selfNamed admitted
    simp [convert, represent, parts?, carried, Option.filter, admitted]
  | recordList parts =>
    cases value <;> try cases admitted
    rename_i entries
    have carried : entries.mapM (fun values =>
        convertParts parts values parts (.record (zeroParts parts))) = some entries := by
      have each := List.all_eq_true.mp admitted
      clear admitted
      induction entries with
      | nil => rfl
      | cons values entries ih =>
        rw [List.mapM_cons, convertParts_self _ lawful selfNamed (each _ List.mem_cons_self),
          ih fun values member => each _ (List.mem_cons_of_mem _ member)]
        rfl
    simp [convert, represent, parts?, carried, Option.filter, admitted]

end FieldKind

namespace Version

variable {v : Version} {field : Field} {value current : Value}

/-- **What a version reads its own value of a field as**: the standard of 2011 by its name is the
newest one in the two highest versions, and every other value is itself. -/
def ownReading (v : Version) (name : String) (value : Value) : Value :=
  if (v = .v12 ∨ v = .v16) ∧ name = "Standard" ∧ value = .choice "Cpp11" then .choice "Latest"
  else value

/-- A value is read as another one only where the standard is named. -/
theorem ownReading_eq_self_iff {name : String} : v.ownReading name value = value ↔
    ¬ ((v = .v12 ∨ v = .v16) ∧ name = "Standard" ∧ value = .choice "Cpp11") := by
  unfold ownReading
  split
  · rename_i exception
    simp only [exception, not_true, and_self, iff_false]
    decide
  · rename_i regular
    simp [regular]

/-- The tables name no other variant by a spelling of another one. -/
private theorem selfNamed_of_mem (member : field ∈ v.schema.fields) :
    field.kind.selfNamed = true ∨ (v = .v12 ∨ v = .v16) ∧ field.name = "Standard" ∧
      field.kind = .scalar (.choice Catalogue.V12.languageStandard) := by
  have checked : ∀ v ∈ Version.all, v.schema.fields.all fun field => field.kind.selfNamed ||
      decide ((v = .v12 ∨ v = .v16) ∧ field.name = "Standard") &&
        v.schema.scalarKind? field.name == some (.choice Catalogue.V12.languageStandard) := by
    decide +kernel
  have one := List.all_eq_true.mp (checked v v.mem_all) field member
  simp only [Bool.or_eq_true, Bool.and_eq_true, decide_eq_true_eq, beq_iff_eq] at one
  rcases one with selfNamed | ⟨⟨high, named⟩, kind⟩
  · exact .inl selfNamed
  · obtain ⟨field', found, is_scalar⟩ := Schema.field?_of_scalarKind? kind
    rw [Version.field?_of_mem member, Option.some.injEq] at found
    exact .inr ⟨high, named, found ▸ is_scalar⟩

/-- The standards of the two highest versions, carried to themselves. -/
private theorem convert_standard (high : v = .v12 ∨ v = .v16)
    (admitted : (ScalarKind.choice Catalogue.V12.languageStandard).admits value = true) :
    (ScalarKind.choice Catalogue.V12.languageStandard).convert value
      (.choice Catalogue.V12.languageStandard) = some (v.ownReading "Standard" value) := by
  have checked : ∀ v : Version, v = .v12 ∨ v = .v16 →
      ∀ value ∈ Catalogue.V12.languageStandard.spellings.map fun s => Value.choice s.2,
        (ScalarKind.choice Catalogue.V12.languageStandard).convert value
          (.choice Catalogue.V12.languageStandard) = some (v.ownReading "Standard" value) := by
    rintro v (rfl | rfl) <;> decide
  exact checked v high value (ScalarKind.mem_values? rfl admitted)

/-- **A field carries a value to its own kind as what the version reads it as.** -/
theorem convert_field_self (member : field ∈ v.schema.fields)
    (admitted : field.kind.admits value = true) :
    field.kind.convert value field.kind current = some (v.ownReading field.name value) := by
  rcases selfNamed_of_mem member with selfNamed | ⟨high, named, kind⟩
  · rw [FieldKind.convert_self (lawful_of_mem member) selfNamed admitted, Option.some.injEq,
      eq_comm, ownReading_eq_self_iff]
    rintro ⟨high, named, rfl⟩
    have listed : v.schema.scalarKind? field.name =
        some (.choice Catalogue.V12.languageStandard) := by
      rw [named]
      rcases high with rfl | rfl <;> decide
    obtain ⟨field', found, kind⟩ := Schema.field?_of_scalarKind? listed
    rw [Version.field?_of_mem member, Option.some.injEq] at found
    rw [found, kind] at selfNamed
    exact absurd selfNamed (by decide)
  · rw [kind] at admitted ⊢
    rw [FieldKind.convert_scalar, named]
    exact convert_standard high admitted

/-- **A field that a step carries whatever it holds**: both versions have it, of one simple kind,
and no transfer names it. -/
def steady (a b : Version) (name : String) : Bool :=
  (a.schema.scalarKind? name).isSome && a.schema.scalarKind? name == b.schema.scalarKind? name &&
    !((transfers a b).flatMap Transfer.sources).contains name &&
    !((transfers a b).flatMap Transfer.targets).contains name

end Version

namespace Migration.Step

open StyleRecord

variable {s : Step} {name : String} {field other : Field} {value : Value}

/-- A field that no transfer names has a move of its own. -/
theorem rename_mem_moves (found : s.record.schema.field? name = some field)
    (found' : s.after.schema.field? name = some other)
    (unread : name ∉ s.transfers.flatMap Transfer.sources)
    (unwritten : name ∉ s.transfers.flatMap Transfer.targets) :
    .rename name name [] ∈ s.moves := by
  refine List.mem_append_right _ (List.mem_map_of_mem (Version.mem_sharedNames.mpr ?_))
  exact ⟨Schema.field?_isSome_iff.mp (Option.isSome_iff_exists.mpr ⟨_, found⟩),
    Schema.field?_isSome_iff.mp (Option.isSome_iff_exists.mpr ⟨_, found'⟩), unwritten, unread⟩

/-- A field is renamed to its own kind as what the version reads it as. -/
theorem renamed?_of_sameKind (wellFormed : s.record.WellFormed)
    (found : s.record.schema.field? name = some field)
    (found' : s.after.schema.field? name = some other) (same : other.kind = field.kind)
    (holds : s.record.get? name = some value) :
    s.renamed? name name [] = some (s.record.version.ownReading name value) := by
  obtain rfl := Schema.name_of_field? found
  have admitted := (wellFormed_iff.mp wellFormed).of_get? found holds
  rw [renamed?_eq holds found found', carried_nil, same]
  exact Version.convert_field_self (Schema.mem_of_field? found) admitted

/-- **A step holds a field of an unchanged kind as what the version reads it as**, if no transfer
names the field. -/
theorem get?_next_of_sameKind (adjacent : s.record.version.Adjacent s.after.version)
    (wellFormed : s.record.WellFormed) (wellFormed' : s.after.WellFormed)
    (found : s.record.schema.field? name = some field)
    (found' : s.after.schema.field? name = some other) (same : other.kind = field.kind)
    (unread : name ∉ s.transfers.flatMap Transfer.sources)
    (unwritten : name ∉ s.transfers.flatMap Transfer.targets)
    (holds : s.record.get? name = some value) :
    s.next.get? name = some (s.record.version.ownReading name value) := by
  obtain ⟨assigned, -⟩ := assigned_rename (renamed?_of_sameKind wellFormed found found' same holds)
  exact get?_next_of_assigned adjacent wellFormed'
    (rename_mem_moves found found' unread unwritten) (by simp [assigned])

/-- Both records of a step have a steady field, of one kind, and no transfer names it. -/
theorem Between.of_steady {a b : Version} (between : s.Between a b)
    (steady : a.steady b name = true) :
    ∃ field other value, s.record.schema.field? name = some field ∧
      s.after.schema.field? name = some other ∧ other.kind = field.kind ∧
      name ∉ s.transfers.flatMap Transfer.sources ∧ name ∉ s.transfers.flatMap Transfer.targets ∧
      s.record.get? name = some value := by
  unfold Version.steady at steady
  simp only [Bool.and_eq_true, beq_iff_eq, Bool.not_eq_true', List.contains_eq_mem,
    decide_eq_false_iff_not] at steady
  obtain ⟨⟨⟨known, same⟩, unread⟩, unwritten⟩ := steady
  obtain ⟨kind, is_scalar⟩ := Option.isSome_iff_exists.mp known
  obtain ⟨field, found, kind_eq⟩ := Schema.field?_of_scalarKind? is_scalar
  obtain ⟨other, found', kind_eq'⟩ := Schema.field?_of_scalarKind? (same ▸ is_scalar)
  rw [← between.transfers] at unread unwritten
  rw [← between.schema] at found
  rw [← between.after_schema] at found'
  obtain ⟨value, holds, -⟩ := (wellFormed_iff.mp between.wellFormed).get? found
  exact ⟨field, other, value, found, found', kind_eq'.trans kind_eq.symm, unread, unwritten, holds⟩

/-- **A step keeps a steady field as it is**, if it is not the standard. -/
theorem get?_next_of_steady {a b : Version} (adjacent : a.Adjacent b) (between : s.Between a b)
    (steady : a.steady b name = true) (ordinary : name ≠ "Standard") :
    s.next.get? name = s.record.get? name := by
  obtain ⟨field, other, value, found, found', same, unread, unwritten, holds⟩ :=
    between.of_steady steady
  rw [get?_next_of_sameKind (between.adjacent adjacent) between.wellFormed between.after_wellFormed
    found found' same unread unwritten holds, holds, Option.some.injEq,
    Version.ownReading_eq_self_iff]
  exact fun exception => ordinary exception.2.1

/-- **A step keeps every value of a field of an unchanged kind that no transfer names**, but for the
standard of 2011 between the two highest versions. So does every conversion to the field's own
kind. -/
theorem run_keeps_sameKind_iff (adjacent : s.record.version.Adjacent s.after.version)
    (wellFormed : s.record.WellFormed) (wellFormed' : s.after.WellFormed)
    (found : s.record.schema.field? name = some field)
    (found' : s.after.schema.field? name = some other) (same : other.kind = field.kind)
    (unread : name ∉ s.transfers.flatMap Transfer.sources)
    (unwritten : name ∉ s.transfers.flatMap Transfer.targets)
    (holds : s.record.get? name = some value) :
    (∃ p, s.run.outcome = .ok p ∧ (p.record.get? name = some value ↔
      ¬ ((s.record.version = .v12 ∨ s.record.version = .v16) ∧
        name = "Standard" ∧ value = .choice "Cpp11"))) ∧
    ∀ admitted current, field.kind.admits admitted = true →
      (field.kind.convert admitted field.kind current = some admitted ↔
        ¬ ((s.record.version = .v12 ∨ s.record.version = .v16) ∧
          name = "Standard" ∧ admitted = .choice "Cpp11")) := by
  constructor
  · refine ⟨_, outcome_run adjacent wellFormed', ?_⟩
    rw [get?_next_of_sameKind adjacent wellFormed wellFormed' found found' same unread unwritten
      holds, Option.some.injEq, Version.ownReading_eq_self_iff]
  · intro admitted current admits
    rw [Version.convert_field_self (Schema.mem_of_field? found) admits, Option.some.injEq,
      Version.ownReading_eq_self_iff, Schema.name_of_field? found]

/-- A step that keeps a line length. -/
theorem run_keeps_sameKind_columnLimit :
    let s : Step := ⟨(zeroed .v12 .cpp).put "ColumnLimit" (.int 100), zeroed .v12 .cpp,
      zeroed .v16 .cpp⟩
    ∃ p, s.run.outcome = .ok p ∧ (p.record.get? "ColumnLimit" = some (.int 100) ↔
      ¬ ((s.record.version = .v12 ∨ s.record.version = .v16) ∧
        "ColumnLimit" = "Standard" ∧ Value.int 100 = .choice "Cpp11")) := by
  intro s
  obtain ⟨field, found, kind⟩ := Schema.field?_of_scalarKind?
    (show s.record.schema.scalarKind? "ColumnLimit" = some .unsigned by decide)
  obtain ⟨other, found', kind'⟩ := Schema.field?_of_scalarKind?
    (show s.after.schema.scalarKind? "ColumnLimit" = some .unsigned by decide)
  exact (run_keeps_sameKind_iff (s := s) (.inl rfl) (by unfold WellFormed; decide)
    (by unfold WellFormed; decide) found found' (by rw [kind, kind'])
    (by decide) (by decide) (by decide)).1

/-- **The step to the highest version makes the standard of 2011 the newest one**, without a loss,
although both versions have one table of standards and no transfer names the field. -/
theorem run_standard (between : s.Between .v12 .v16)
    (holds : s.record.get? "Standard" = some (.choice "Cpp11")) :
    ∃ p, s.run.outcome = .ok p ∧ p.losses = [] ∧
      p.record.get? "Standard" = some (.choice "Latest") := by
  obtain ⟨field, found, kind⟩ := Schema.field?_of_scalarKind?
    (show Version.v12.schema.scalarKind? "Standard" =
      some (.choice Catalogue.V12.languageStandard) by decide)
  obtain ⟨other, found', kind'⟩ := Schema.field?_of_scalarKind?
    (show Version.v16.schema.scalarKind? "Standard" =
      some (.choice Catalogue.V12.languageStandard) by decide)
  have adjacent := between.adjacent (.inl rfl)
  have kept := get?_next_of_sameKind adjacent between.wellFormed between.after_wellFormed
    (between.schema ▸ found) (between.after_schema ▸ found') (by rw [kind, kind'])
    (by rw [between.transfers]; decide) (by rw [between.transfers]; decide) holds
  rw [between.source] at kept
  exact ⟨_, outcome_run_up (a := .v12) rfl between, rfl, kept⟩

/-- A record with the standard of 2011 whose step does not keep it. -/
theorem run_standard_zeroed :
    let s : Step := ⟨(zeroed .v12 .cpp).put "Standard" (.choice "Cpp11"), zeroed .v12 .cpp,
      zeroed .v16 .cpp⟩
    s.Between .v12 .v16 ∧ s.record.get? "Standard" = some (.choice "Cpp11") ∧
      Version.v12.schema.scalarKind? "Standard" = Version.v16.schema.scalarKind? "Standard" ∧
      "Standard" ∉ (FormatStyle.transfers .v12 .v16).flatMap Transfer.sources ∧
      "Standard" ∉ (FormatStyle.transfers .v12 .v16).flatMap Transfer.targets ∧
      ∃ p, s.run.outcome = .ok p ∧ p.losses = [] ∧
        p.record.get? "Standard" = some (.choice "Latest") := by
  intro s
  have between : s.Between .v12 .v16 :=
    ⟨rfl, rfl, by unfold WellFormed; decide, by unfold WellFormed; decide⟩
  have holds : s.record.get? "Standard" = some (.choice "Cpp11") := by decide
  exact ⟨between, holds, by decide, by decide, by decide,
    run_standard between holds⟩

end Migration.Step

end FormatStyle
