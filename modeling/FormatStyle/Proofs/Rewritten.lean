import FormatStyle.Proofs.Normal
import FormatStyle.Proofs.RoundTrip
import FormatStyle.Proofs.Upgrade

/-! # Texts that are written again

What is read from a written text is written to the same text again
(`StyleRecord.toMapping_overlay`). A text that is written next to a style says that style, or one
with the same record, so that it can be read on top of any other style
(`Configuration.read_beside_style`).
-/

namespace FormatStyle

open Yaml (Mapping Node)

namespace StyleRecord

variable {r t : StyleRecord} {baseline : Option StyleRecord}

/-- The overlay selects what the record selects, so it implies the same. -/
private theorem impliedFields_overlay (each : r.Each FieldKind.Stores) :
    (r.overlay t).impliedFields = r.impliedFields := by
  unfold impliedFields
  refine congrArg _ (List.filter_congr fun preset member => ?_)
  have selects : (r.overlay t).get? preset.selector = r.get? preset.selector :=
    get?_overlay_of_not_implied each fun implied =>
      selector_notMem_writes (v := r.version) member (impliedFields_subset implied)
  unfold Preset.implies
  rw [selects]

/-- **The overlay is written as the record is**: what distinguishes the two is never written. -/
theorem toMapping_overlay (native : r.Native) (wellFormed : t.WellFormed)
    (version : t.version = r.version) :
    (r.overlay t).toMapping baseline = r.toMapping baseline := by
  have fields : (r.overlay t).writtenFields baseline = r.writtenFields baseline := by
    rw [writtenFields_eq (native.wellFormed.overlay wellFormed version),
      writtenFields_eq native.wellFormed]
    refine List.filterMap_congr fun field member => congrArg _ ?_
    unfold writtenNode? writtenField?
    rw [impliedFields_overlay native.stores]
    by_cases implied : r.impliedFields.contains field.name = true
    · rw [if_pos implied, if_pos implied]
    · have same : (r.overlay t).current field = r.current field := by
        rw [current, current, get?_overlay_of_not_implied native.stores fun listed =>
          implied (List.contains_iff_mem.mpr listed)]
      rw [if_neg implied, if_neg implied, same]
  unfold toMapping
  rw [fields]
  rfl

/-- **Read again, a record has the meaning of the record finished.** -/
theorem sameExpansion_reread (native : r.Native) (wellFormed : t.WellFormed)
    (version : t.version = r.version) : SameExpansion (r.reread t) (r.putAll r.derived) := by
  obtain ⟨expanded, expand, -⟩ := expand_isOk native.finished
  exact ⟨expanded, (expand_reread native wellFormed version).trans expand, expand⟩

end StyleRecord

namespace Style

variable {v : Version} {name : String} {language : Language} {r b : StyleRecord}

/-- A style resolves for no language but those that its version supports. -/
private theorem supports_of_resolve (resolved : (resolve v name language).outcome = .ok r) :
    v.schema.supports language = true := by
  rw [outcome_resolve] at resolved
  split at resolved
  · assumption
  · cases resolved

/-- Two styles with the same values are the same record. -/
private theorem eq_of_sameValues {other : String} (resolved : (resolve v name language).outcome = .ok r)
    (resolved' : (resolve v other language).outcome = .ok b) (same : r.sameValues b = true) :
    r = b := by
  obtain ⟨-, version, tag, plain, -⟩ := native_of_resolve resolved
  obtain ⟨-, version', tag', plain', -⟩ := native_of_resolve resolved'
  obtain ⟨-, values⟩ := (StyleRecord.sameValues_iff r b).mp same
  cases r
  cases b
  cases values
  cases version.trans version'.symm
  cases tag.trans tag'.symm
  cases plain.trans plain'.symm
  rfl

/-- **A style is identified** by a name that resolves to it. -/
theorem identify_resolved (known : name ∈ v.schema.styleNames)
    (resolved : (resolve v name language).outcome = .ok b) :
    ∃ found, (identify b language).outcome = .ok (some found) ∧ found ∈ v.schema.styleNames ∧
      (resolve v found language).outcome = .ok b := by
  obtain ⟨-, version, -⟩ := native_of_resolve resolved
  obtain ⟨found, identified, first⟩ :=
    StyleRecord.outcome_identifyAmong b language b.version.schema.styleNames
  cases first with
  | none absent =>
    exact absurd ⟨b, version ▸ resolved, (StyleRecord.sameValues_iff b b).mpr ⟨rfl, rfl⟩⟩
      (absent name (version ▸ known))
  | found split _ fits =>
    obtain ⟨candidate, resolved', same⟩ := fits
    rw [version] at split resolved'
    refine ⟨_, identified, split ▸ List.mem_append_right _ List.mem_cons_self, ?_⟩
    exact eq_of_sameValues resolved' resolved same ▸ resolved'

end Style

/-! ## Documents that name their style -/

namespace Document

variable {requested : Language} {template other : StyleRecord} {m : Mapping} {index : Nat}
  {name : String}

/-- **A document that names its style** starts from that, and not from the template. -/
theorem read_of_based (based : m.get? basedOnKey = some (.str name))
    (apart : Text.equalsIgnoringCase name parentConfiguration = false)
    (version : other.version = template.version) :
    read requested other index m = read requested template index m := by
  have starts : ∀ {t : StyleRecord}, readBase requested m t = (do
      let style ← Style.resolve t.version name requested
      return ({ style with language := t.language }, some name)) := by
    intro t
    unfold readBase
    rw [based]
    simp only [Node.scalarText?, apart, Bool.and_false, Bool.false_eq_true, if_false]
  unfold read
  simp only [starts, StyleRecord.schema, version]

/-- A document is based on what its entry says. -/
private theorem basedOn_of_read {d : Document} (h : (read requested template index m).outcome = .ok d) :
    d.basedOn = (m.get? basedOnKey).bind Node.scalarText? := by
  obtain ⟨-, -, h⟩ := read_eq_ok_iff.mp h
  obtain ⟨-, start, -, base, -⟩ := readFor_eq_ok_iff.mp h
  have said : ∀ {other : StyleRecord} {basedOn : Option String},
      (Except.ok (other, basedOn) : Except StyleError _) = .ok (start, d.basedOn) →
        d.basedOn = basedOn := fun same => (Prod.mk.inj (Except.ok.inj same)).2.symm
  unfold readBase at base
  cases entry : m.get? basedOnKey with
  | none =>
    rw [entry] at base
    exact said base
  | some node =>
    rw [entry] at base
    dsimp only at base
    rw [Option.bind_some]
    cases text : node.scalarText? with
    | none => rw [text] at base; cases base
    | some name =>
      rw [text] at base
      dsimp only at base
      split at base
      · exact said base
      · obtain ⟨_, -, base⟩ := Outcome.bind_eq_ok_iff.mp (Traced.outcome_bind _ _ ▸ base)
        exact said base

end Document

namespace Configuration

open StyleRecord

variable {v : Version} {requested language : Language} {a b r : StyleRecord} {m : Mapping}
  {name fallback : String} {c : Configuration}

private theorem ofMappings_of_based (based : m.get? basedOnKey = some (.str name))
    (apart : Text.equalsIgnoringCase name parentConfiguration = false)
    (version : b.version = a.version) :
    ofMappings requested b [m] = ofMappings requested a [m] := by
  have documents : readAll requested b [m] = readAll requested a [m] := by
    unfold readAll readNext
    simp only [List.foldlM_cons, List.foldlM_nil, template]
    rw [Document.read_of_based based apart version]
  unfold ofMappings
  rw [documents, version]

/-- **A text that names its style is read on top of any record** of the version. -/
theorem read_frame_of_based (kept : ReadsBack m) (based : m.get? basedOnKey = some (.str name))
    (apart : Text.equalsIgnoringCase name parentConfiguration = false)
    (version : b.version = a.version) :
    (read v (frame m) requested b).outcome = (read v (frame m) requested a).outcome := by
  have retagged : ofMappings requested { b with language := requested } [m] =
      ofMappings requested { a with language := requested } [m] :=
    ofMappings_of_based based apart version
  unfold read
  by_cases supported : v.schema.supports requested = true
  · rw [if_pos supported, if_pos supported]
    by_cases own : a.version = v
    · rw [if_pos own, if_pos (version.trans own)]
      simp only [isBlankText_frame, Bool.false_eq_true, if_false, Traced.outcome_bind,
        Traced.outcome_monadLift, mappings_frame kept, Outcome.ok_bind, retagged]
    · rw [if_neg own, if_neg fun own' => own (version.symm.trans own'), version]
  · rw [if_neg supported, if_neg supported]

/-- A written mapping is based on what its entry says. -/
private theorem basedOn_of_read_frame (kept : ReadsBack m)
    (h : (read v (frame m) requested a).outcome = .ok c) :
    c.basedOn = (m.get? basedOnKey).bind Node.scalarText? := by
  obtain ⟨-, -, h⟩ := read_eq_ok_iff.mp h
  rw [isBlankText_frame, if_neg Bool.false_ne_true, mappings_frame kept] at h
  obtain ⟨_, ⟨⟩, h⟩ := h
  obtain ⟨-, documents, all, selects, -⟩ := ofMappings_eq_ok_iff.mp h
  obtain ⟨apart, each⟩ := readAll_eq_ok_iff.mp all
  obtain ⟨d, chosen, rfl⟩ := (select_eq_ok_iff apart).mp selects
  obtain ⟨_, listed, alone⟩ := Outcome.exists_of_mem_right each chosen.mem
  rw [List.mem_singleton.mp listed] at alone
  exact Document.basedOn_of_read alone

/-- **What a text that is written next to a style is based on**: it inherits if the record does, and
else it says a name of that style. -/
theorem get?_basedOn_written {style : String} (native : r.Native) (tag : r.language = language)
    (known : style ∈ v.schema.styleNames)
    (resolved : (Style.resolve v style language).outcome = .ok b)
    (mapped : (r.toMapping (some b)).outcome = .ok m) :
    if r.inheritsParent then m.get? basedOnKey = some (.str parentConfiguration)
    else ∃ found ∈ v.schema.styleNames, m.get? basedOnKey = some (.str found) ∧
      (Style.resolve v found language).outcome = .ok b := by
  have looked : ∀ {name : String}, (r.writtenBase (some b)).outcome =
      .ok [entry basedOnKey (.str name)] → r.BaseEntry (some b) [entry basedOnKey (.str name)] →
        m.get? basedOnKey = some (.str name) := by
    intro name based entered
    unfold toMapping at mapped
    rw [Traced.outcome_bind, based, Outcome.ok_bind, Traced.outcome_pure, Except.ok.injEq] at mapped
    rw [← mapped, (get?_written native entered).2.2.2, Yaml.Mapping.get?_cons_entry, if_pos rfl]
  by_cases inherits : r.inheritsParent = true
  · rw [if_pos inherits]
    refine looked ?_ (by rw [BaseEntry, if_pos inherits])
    unfold writtenBase
    rw [inherits, native.inherits inherits]
    rfl
  · rw [if_neg inherits]
    obtain ⟨-, version', -⟩ := Style.native_of_resolve resolved
    obtain ⟨found, identified, member, resolved'⟩ := Style.identify_resolved known resolved
    refine ⟨found, member, looked ?_ ?_, resolved'⟩
    · unfold writtenBase
      rw [Bool.eq_false_iff.mpr inherits, Bool.false_and, if_neg Bool.false_ne_true, tag,
        Traced.outcome_bind, identified]
      rfl
    · rw [BaseEntry, if_neg inherits]
      refine .inr ⟨found, b, b, rfl, rfl, ?_, ?_, (sameValues_iff b b).mpr ⟨rfl, rfl⟩⟩
      · rw [StyleRecord.schema, version']
        exact member
      · rw [version', tag]
        exact resolved'

/-- The name of the parent configuration says the fallback. -/
private theorem saidStyle_parent : Migration.saidStyle fallback (some parentConfiguration) = fallback := by
  unfold Migration.saidStyle
  dsimp only
  rw [if_pos (Text.equalsIgnoringCase_refl _)]

/-- A style goes by its name in lower case, and not by that of the parent configuration. -/
private theorem saidStyle_of_known {style : String} (known : style ∈ v.schema.styleNames) :
    Text.equalsIgnoringCase style parentConfiguration = false ∧
      Migration.saidStyle fallback (some style) = style := by
  have apart := v.keys_apart.2.2.2 style known
  refine ⟨apart, ?_⟩
  unfold Migration.saidStyle
  dsimp only
  rw [apart, if_neg Bool.false_ne_true]
  exact Text.lower_of_equalsIgnoringCase (v.styleNames_lower _ known)
    (Text.equalsIgnoringCase_refl style)

/-- **What is written next to a style or in full is read again on top of that style**, if the record
keeps its laws. -/
theorem outcome_read_frame_lawful {style : String} {baseline : Option StyleRecord}
    (native : r.Native)
    (version : r.version = v) (tag : r.language = language)
    (keeps : (r.putAll r.derived).brokenConstraint? = none)
    (resolved : (Style.resolve v style language).outcome = .ok b)
    (beside : ∀ other, baseline = some other → other = b)
    (mapped : (r.toMapping baseline).outcome = .ok m) (kept : ReadsBack m) :
    ∃ basedOn, (read v (frame m) language b).outcome = .ok ⟨r.reread b, basedOn⟩ := by
  obtain ⟨native_b, version_b, -, plain_b, -⟩ := Style.native_of_resolve resolved
  have same_version : b.version = r.version := version_b.trans version.symm
  have supported : r.schema.supports r.language = true := by
    rw [StyleRecord.schema, version, tag]
    exact Style.supports_of_resolve resolved
  obtain ⟨basedOn, read⟩ := outcome_read_frame native supported same_version plain_b
    native_b.wellFormed (fun other here name => by rw [beside other here])
    (fun other here => by rw [beside other here]; exact ⟨same_version, native_b.wellFormed⟩) mapped
    kept
  have lawful : checkLaws (r.reread b) = .ok () := by
    unfold checkLaws
    rw [brokenConstraint?_reread native native_b.wellFormed same_version, keeps]
  rw [lawful, Outcome.ok_bind, version, tag] at read
  exact ⟨basedOn, read⟩

/-- **A text that is written next to a style is read on top of the fallback** as the record next to
that style. What it says is that style again, by a name of it or as the fallback, which a record
that inherits is written next to. -/
theorem read_beside_style {style : String} (native : r.Native) (version : r.version = v)
    (tag : r.language = language) (keeps : (r.putAll r.derived).brokenConstraint? = none)
    (known : style ∈ v.schema.styleNames)
    (resolved : (Style.resolve v style language).outcome = .ok b)
    (ambient : (Style.resolve v fallback language).outcome = .ok a)
    (inherits : r.inheritsParent = true → b = a)
    (mapped : (r.toMapping (some b)).outcome = .ok m) (kept : ReadsBack m) :
    ∃ basedOn, (read v (frame m) language a).outcome = .ok ⟨r.reread b, basedOn⟩ ∧
      (Style.resolve v (Migration.saidStyle fallback basedOn) language).outcome = .ok b := by
  obtain ⟨-, version_b, -⟩ := Style.native_of_resolve resolved
  obtain ⟨-, version_a, -⟩ := Style.native_of_resolve ambient
  obtain ⟨basedOn, read_b⟩ := outcome_read_frame_lawful native version tag keeps resolved
    (fun _ => Option.some.inj ∘ Eq.symm) mapped kept
  have said : basedOn = (m.get? basedOnKey).bind Node.scalarText? :=
    basedOn_of_read_frame kept read_b
  have entered := get?_basedOn_written native tag known resolved mapped
  refine ⟨basedOn, ?_⟩
  by_cases parent : r.inheritsParent = true
  · obtain rfl := inherits parent
    rw [if_pos parent] at entered
    rw [entered] at said
    obtain rfl : basedOn = some parentConfiguration := said
    exact ⟨read_b, by rw [saidStyle_parent, ambient]⟩
  · rw [if_neg parent] at entered
    obtain ⟨found, member, entered, found_resolved⟩ := entered
    obtain ⟨apart, name⟩ : _ ∧ Migration.saidStyle fallback (some found) = found :=
      saidStyle_of_known member
    rw [entered] at said
    obtain rfl : basedOn = some found := said
    have anywhere : (read v (frame m) language a).outcome = (read v (frame m) language b).outcome :=
      read_frame_of_based kept entered apart (version_a.trans version_b.symm)
    exact ⟨anywhere.trans read_b, by rw [name, found_resolved]⟩

/-- **What is read says a style that the version knows**, and which is the fallback if it inherits.
-/
theorem saidStyle_of_read {text : String}
    (resolved : (Style.resolve v (Text.lower fallback) language).outcome = .ok a)
    (accepted : (read v text language a).outcome = .ok c) :
    Migration.chosenStyle c (Text.lower fallback) =
        Migration.saidStyle (Text.lower fallback) c.basedOn ∧
      Migration.saidStyle (Text.lower fallback) c.basedOn ∈ v.schema.styleNames ∧
      (c.record.inheritsParent = true →
        Migration.saidStyle (Text.lower fallback) c.basedOn = Text.lower fallback) := by
  obtain ⟨styled, -, -, -, _, found, -⟩ := Style.native_of_resolve resolved
  obtain ⟨-, -, version, -, based, -⟩ := sound_of_read styled accepted
  have schema : c.record.schema = v.schema := by rw [StyleRecord.schema, version]
  obtain ⟨said, known⟩ :=
    Migration.chosenStyle_eq based (schema ▸ Version.lower_mem_of_style? found)
  rw [schema] at known
  refine ⟨said, said ▸ known, fun inherits => ?_⟩
  rw [← said, Migration.chosenStyle]
  cases c.basedOn with
  | none => rfl
  | some name => exact if_pos inherits

end Configuration

end FormatStyle
