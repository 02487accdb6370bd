import FormatStyle.Proofs.Acts
import FormatStyle.Proofs.Stacking

/-! # Configurations that are read twice

A configuration says nothing new about a record that has been read from it
(`Configuration.read_twice`). What a document makes of a field it makes of it once, and what follows
from the edits comes out as before: of a field that has been derived, an edit brings back what it
was before the derivation, or leaves what it is (`Version.footprints_resume`).
-/

namespace FormatStyle

open StyleRecord Catalogue
open Yaml (Mapping)

/-! ## Derivations that resume -/

/-- **A derivation that resumes**, in records of a version: what overwrites its target leaves what
has been derived, or brings back what that was derived from. -/
def Derivation.Resumes (v : Version) (derive : Derivation) (target : String) : Prop :=
  ∀ {write : Value → Value} {view : View} {field : Field} {held value : Value}, Overwriting write →
    v.schema.field? target = some field → view target = some held →
      field.kind.admits held = true → write held = held → derive view = [(target, value)] →
        write value = value ∨ write value = held

/-- A derivation of simple values resumes, since these have no parts that could be kept. -/
theorem Derivation.resumes_of_simple {v : Version} {derive : Derivation} {target : String}
    (simple : ∀ view value, derive view = [(target, value)] →
      ∀ fresh, value.overwriteParts fresh = value) : derive.Resumes v target := by
  intro write view field held value overwriting _ _ _ stays derived
  cases overwriting with
  | whole other => exact .inr stays
  | parts fresh => exact .inl (simple view value derived fresh)

theorem returnTypeBreak_resumes {v : Version} :
    Derivation.Resumes v V12.returnTypeBreak "AlwaysBreakAfterReturnType" := by
  refine Derivation.resumes_of_simple fun view value derived fresh => ?_
  rcases returnTypeBreak_cases view with none | ⟨variant, -, one⟩
  · simp [none] at derived
  · obtain rfl : Value.choice variant = value := by simpa [one] using derived
    rfl

theorem fixedQualifierOrder_resumes :
    Derivation.Resumes .v16 V16.fixedQualifierOrder "QualifierOrder" := by
  refine Derivation.resumes_of_simple fun view value derived fresh => ?_
  unfold V16.fixedQualifierOrder at derived
  split at derived <;> cases derived <;> rfl

/-- The maximum of a comment prefix is the same before and after it is clamped, so only the minimum
can be brought back. -/
theorem clampedCommentPrefix_resumes :
    Derivation.Resumes .v16 V16.clampedCommentPrefix "SpacesInLineCommentPrefix" := by
  intro write view field held value overwriting found holds admitted stays derived
  cases overwriting with
  | whole other => exact .inr stays
  | parts fresh =>
    obtain ⟨field', found', is_record⟩ := Schema.field?_of_recordParts? lawFields_apart.2.2.1
    obtain rfl := Option.some.inj (found.symm.trans found')
    rw [is_record] at admitted
    unfold V16.clampedCommentPrefix at derived
    rw [holds] at derived
    split at derived
    · rename_i minimum maximum rest same
      obtain rfl := Option.some.inj same
      split at derived
      · cases derived
      · obtain rfl : Value.record [.int maximum, .int maximum] = value := by simpa using derived
        have both : rest = [] := by
          cases rest with
          | nil => rfl
          | cons => simp [FieldKind.admits, partsAdmit, V16.spacesInLineCommentPrefix] at admitted
        subst both
        have parts : (fresh 0).getD (.int minimum) = .int minimum ∧
            (fresh 1).getD (.int maximum) = .int maximum := by
          simpa [Value.overwriteParts, overwrite] using stays
        cases first : fresh 0 with
        | none => exact .inl (by simp [Value.overwriteParts, overwrite, first, parts.2])
        | some least =>
          obtain rfl : least = .int minimum := by simpa [first] using parts.1
          exact .inr (by simp [Value.overwriteParts, overwrite, first, parts.2])
    · cases derived

/-- **All derivations resume**, and no older spelling is about what they assign. -/
theorem Version.footprints_resume (v : Version) :
    ∀ f ∈ v.footprints, f.derive.Resumes v f.target ∧ f.target ∉ v.legacyFields := by
  have returnType : ∀ v, Derivation.Resumes v footprints.returnTypeFootprint.derive
      footprints.returnTypeFootprint.target := fun _ => returnTypeBreak_resumes
  cases v with
  | v3_4 => exact List.forall_mem_nil _
  | v3_6 => exact List.forall_mem_nil _
  | v12 => exact List.forall_mem_singleton.mpr ⟨returnType _, by decide⟩
  | v16 =>
    exact List.forall_mem_cons.mpr ⟨⟨returnType _, by decide⟩, List.forall_mem_cons.mpr
      ⟨⟨fixedQualifierOrder_resumes, by decide⟩,
        List.forall_mem_singleton.mpr ⟨clampedCommentPrefix_resumes, by decide⟩⟩⟩

/-! ## Finishing again -/

namespace StyleRecord

variable {r : StyleRecord} {f : Footprint}

/-- **What a record holds where a derivation assigns is kept or brought back** by edits that have
nothing new to say about it. -/
theorem get?_target_again {acts : String → Value → Value} (wellFormed : r.WellFormed)
    (settles : ∀ name, (r.get? name).map (acts name) = r.get? name)
    (listed : f ∈ r.version.footprints) (overwriting : Overwriting (acts f.target)) :
    ((r.putAll r.derived).get? f.target).map (acts f.target) =
        (r.putAll r.derived).get? f.target ∨
      ((r.putAll r.derived).get? f.target).map (acts f.target) = r.get? f.target := by
  rcases (r.version.footprints_local f listed).assigns r.view with none | ⟨value, one⟩
  · have same : (r.putAll r.derived).get? f.target = r.get? f.target := by
      rw [get?_finished_target wellFormed listed, none]
      rfl
    exact .inl (by rw [same, settles])
  · have derived : (f.target, value) ∈ r.derived := mem_derived_iff.mpr ⟨f, listed, one, rfl⟩
    obtain ⟨field, found, -⟩ := (admits_derived wellFormed _ derived).2
    obtain ⟨held, holds, admitted⟩ := (wellFormed_iff.mp wellFormed).get? found
    have stays : acts f.target held = held := by
      have settled := settles f.target
      rw [holds] at settled
      exact Option.some.inj settled
    have now : (r.putAll r.derived).get? f.target = some value := by
      rw [get?_finished_target wellFormed listed, one]
      rfl
    rw [now, holds]
    exact ((r.version.footprints_resume f listed).1 overwriting found holds admitted stays one).imp
      (congrArg some) (congrArg some)

/-- **A finished record is finished again** as it is, after edits that have nothing new to say about
what it was before. -/
theorem finished_again {next : StyleRecord} {acts : String → Value → Value}
    (wellFormed : r.WellFormed) (settles : ∀ name, (r.get? name).map (acts name) = r.get? name)
    (overwriting : ∀ f ∈ r.version.footprints, Overwriting (acts f.target))
    (wellFormed' : next.WellFormed) (tags : SameTags next (r.putAll r.derived))
    (holds : ∀ name, next.get? name = ((r.putAll r.derived).get? name).map (acts name)) :
    next.putAll next.derived = r.putAll r.derived := by
  have tags' : SameTags next r := tags.trans (sameTags_putAll ..)
  have complete : (r.putAll r.derived).WellFormed :=
    (Becomes.of_finish (finish_eq_putAll wellFormed)).wellFormed wellFormed
  have complete' : (next.putAll next.derived).WellFormed :=
    (Becomes.of_finish (finish_eq_putAll wellFormed')).wellFormed wellFormed'
  -- What is not derived is as it was before.
  have others : ∀ name, (∀ f ∈ r.version.footprints, name ≠ f.target) →
      (r.putAll r.derived).get? name = r.get? name ∧ next.get? name = r.get? name := by
    intro name apart
    have same := get?_finished_of_ne apart
    exact ⟨same, by rw [holds, same, settles]⟩
  refine ext_get? (wellFormed_iff.mp complete') (wellFormed_iff.mp complete)
    ((sameTags_putAll ..).trans tags) fun field _ => ?_
  by_cases derives : ∃ f ∈ r.version.footprints, field.name = f.target
  · obtain ⟨f, listed, named⟩ := derives
    have reads : ∀ name ∈ f.target :: f.reads, name ≠ f.target →
        ∀ g ∈ r.version.footprints, name ≠ g.target := fun name read apart g listed' =>
      ne_target_of_reads listed listed' ((List.mem_cons.mp read).resolve_left apart) apart
    rw [named]
    rcases get?_target_again wellFormed settles listed (overwriting f listed) with kept | back
    · have agree : ∀ name ∈ f.target :: f.reads,
          next.get? name = (r.putAll r.derived).get? name := by
        intro name read
        by_cases own : name = f.target
        · rw [own, holds, kept]
        · obtain ⟨same, same'⟩ := others name (reads name read own)
          rw [same, same']
      have listed' : f ∈ (r.putAll r.derived).version.footprints := by
        rwa [(sameTags_putAll r _).1]
      rw [get?_finished_congr complete wellFormed' tags.1 listed' agree,
        putAll_of_holds (settled_finish wellFormed)]
    · refine get?_finished_congr wellFormed wellFormed' tags'.1 listed fun name read => ?_
      by_cases own : name = f.target
      · rw [own, holds, back]
      · exact (others name (reads name read own)).2
  · have apart : ∀ f ∈ r.version.footprints, field.name ≠ f.target :=
      fun f listed named => derives ⟨f, listed, named⟩
    obtain ⟨same, same'⟩ := others field.name apart
    rw [get?_finished_of_ne (tags'.1.symm ▸ apart), same, same']

end StyleRecord

namespace Document

variable {v : Version} {m : Mapping} {basedOn : Option String} {start filled record : StyleRecord}
  {requested language : Language} {template other : StyleRecord} {d : Document}

/-- **The edits of a document say nothing new about the record that they lead to.** Of a field that
has been derived, they leave what it is or bring back what it was, and either way the same is
derived. -/
theorem edit_again (plain : V16.inGoogleFamily basedOn = false) (version : start.version = v)
    (wellFormed : start.WellFormed) (edited : edit v m basedOn start = .ok filled)
    (finished : filled.finish = .ok record) :
    ∃ next, edit v m basedOn record = .ok next ∧ next.finish = .ok record := by
  obtain ⟨acts, edits, overwriting, again⟩ := exists_acts plain version wellFormed edited
  obtain ⟨_, edited', same, whole, holds⟩ := edits start version wellFormed
  obtain rfl := Except.ok.inj (edited.symm.trans edited')
  obtain rfl := Except.ok.inj ((finish_eq_putAll whole).symm.trans finished)
  have tags : SameTags (filled.putAll filled.derived) filled := sameTags_putAll ..
  have complete : (filled.putAll filled.derived).WellFormed :=
    (Becomes.of_finish finished).wellFormed whole
  obtain ⟨next, edited', same', whole', holds'⟩ :=
    edits _ (tags.1.trans (same.1.trans version)) complete
  refine ⟨next, edited', ?_⟩
  have settles : ∀ name, (filled.get? name).map (acts name) = filled.get? name := by
    intro name
    rw [holds, Option.map_map]
    cases held : start.get? name with
    | none => rfl
    | some value => exact congrArg some (again start version wellFormed name value held)
  have newer : ∀ f ∈ filled.version.footprints, Overwriting (acts f.target) := by
    rw [same.1, version]
    exact fun f listed => overwriting f.target (v.footprints_resume f listed).2
  rw [finish_eq_putAll whole', finished_again whole settles newer whole' same' holds']

/-! ## Reading again -/

/-- The name of the parent configuration is no name of the Google family. -/
private theorem plain_of_parent {name : String}
    (parent : Text.equalsIgnoringCase name parentConfiguration = true) :
    V16.inGoogleFamily (some name) = false := by
  unfold Text.equalsIgnoringCase at parent
  unfold V16.inGoogleFamily Text.equalsIgnoringCase
  rw [Option.any_some, eq_of_beq parent]
  decide

/-- **The base of a document is found again.** It is a style that does not depend on the template,
or it keeps what the template holds, and then it keeps any record with the same tags. -/
theorem readBase_again (h : (readBase requested m template).outcome = .ok (start, basedOn)) :
    start.language = template.language ∧
      ((∀ other : StyleRecord, other.version = template.version →
          other.language = template.language →
            (readBase requested m other).outcome = .ok (start, basedOn)) ∨
        V16.inGoogleFamily basedOn = false ∧ ∀ other : StyleRecord, SameTags other start →
          (readBase requested m other).outcome = .ok (other, basedOn)) := by
  unfold readBase at h ⊢
  cases based : m.get? basedOnKey with
  | none =>
    rw [based] at h
    cases h
    exact ⟨rfl, .inr ⟨rfl, fun other _ => rfl⟩⟩
  | some node =>
    rw [based] at h
    dsimp only at h ⊢
    cases written : node.scalarText? with
    | none =>
      rw [written] at h
      cases h
    | some name =>
      rw [written] at h
      dsimp only at h ⊢
      split at h
      · rename_i parent
        cases h
        have plain := plain_of_parent (Bool.and_eq_true_iff.mp parent).2
        refine ⟨rfl, .inr ⟨plain, fun other same => ?_⟩⟩
        have shared : other.schema = template.schema := congrArg Version.schema same.1
        have inherits : other.inheritsParent = true := same.2.2
        have kept : ({ other with inheritsParent := true } : StyleRecord) = other := by
          rw [← inherits]
        rw [shared, if_pos parent, kept]
        rfl
      · rename_i named
        rw [Traced.outcome_bind] at h
        obtain ⟨style, resolved, h⟩ := Outcome.bind_eq_ok_iff.mp h
        cases h
        refine ⟨rfl, .inl fun other version language => ?_⟩
        have shared : other.schema = template.schema := congrArg Version.schema version
        rw [shared, if_neg named, Traced.outcome_bind, version, resolved, Outcome.ok_bind, language]
        rfl

/-- **A document is read again as it was**, on top of its own record. -/
theorem read_again (wellFormed : template.WellFormed)
    (read : (read requested template 0 m).outcome = .ok d) :
    (Document.read requested { d.record with language } 0 m).outcome = .ok d := by
  obtain ⟨spoken, -, h⟩ := read_eq_ok_iff.mp read
  obtain ⟨-, start, filled, base, edited, known, finished⟩ := readFor_eq_ok_iff.mp h
  have version := version_of_read read
  obtain ⟨starts, whole⟩ := tags_of_readBase base
  have tags : SameTags d.record start :=
    ((becomes_of_edit edited).trans (.of_finish finished)).sameTags
  obtain ⟨own, again⟩ := readBase_again base
  refine read_eq_ok_iff.mpr ⟨?_, fun _ => rfl, readFor_eq_ok_iff.mpr ⟨rfl, ?_⟩⟩
  · rw [StyleRecord.schema, version]
    exact spoken
  · have schema : ({ d.record with language } : StyleRecord).version = template.version := version
    rcases again with independent | ⟨plain, keeps⟩
    · refine ⟨start, filled, independent _ version rfl, ?_, ?_, finished⟩
      · rwa [schema]
      · rwa [StyleRecord.schema, schema]
    · obtain ⟨next, edited', finished'⟩ :=
        edit_again plain starts (whole wellFormed) edited finished
      have speaks : d.record.language = d.language := tags.2.1.trans own
      have back : ({ d.record with language := d.language } : StyleRecord) = d.record := by
        rw [← speaks]
      refine ⟨d.record, next, ?_, ?_, ?_, finished'⟩
      · exact (congrArg (fun r => (readBase requested m r).outcome) back).trans
          (keeps d.record tags)
      · rwa [schema]
      · rwa [StyleRecord.schema, schema]

end Document

namespace Configuration

variable {v : Version} {text : String} {requested : Language} {ambient : StyleRecord}
  {m : Mapping} {c : Configuration}

/-- A mapping is read again as it was, on top of what it was read as. -/
private theorem ofMappings_again (wellFormed : ambient.WellFormed)
    (accepted : (ofMappings requested ambient [m]).outcome = .ok c) :
    (ofMappings requested { c.record with language := requested } [m]).outcome = .ok c := by
  obtain ⟨single, documents, all, selects, unbroken⟩ := ofMappings_eq_ok_iff.mp accepted
  obtain ⟨apart, each⟩ := readAll_eq_ok_iff.mp all
  obtain ⟨d, _, read, nothing, rfl⟩ := List.forall₂_cons_left_iff.mp each
  obtain rfl := List.forall₂_nil_left_iff.mp nothing
  rw [ReadAlone, base_first] at read
  obtain ⟨_, chosen, rfl⟩ := (select_eq_ok_iff apart).mp selects
  obtain rfl := List.mem_singleton.mp chosen.mem
  refine ofMappings_eq_ok_iff.mpr ⟨.inr le_rfl, _, readAll_eq_ok_iff.mpr ⟨apart, .cons ?_ .nil⟩,
    selects, unbroken⟩
  rw [ReadAlone, base_first]
  exact Document.read_again wellFormed read

/-- Blank text that is accepted is read as the ambient record. -/
private theorem eq_of_ofBlank (h : ofBlank requested ambient = .ok c) : c = ⟨ambient, none⟩ := by
  unfold ofBlank at h
  split at h <;> cases h
  rfl

/-- **A configuration says nothing new about a record that has been read from it**: whatever
well-formed record a text of at most one document is read on top of, it is read as the same on top
of the result. -/
theorem read_twice (wellFormed : ambient.WellFormed)
    (single : Text.isBlankText text = true ∨ ∃ m, Spells text [m])
    (accepted : (read v text requested ambient).outcome = .ok c) :
    (read v text requested c.record).outcome = .ok c := by
  obtain ⟨supported, version, said⟩ := read_eq_ok_iff.mp accepted
  by_cases blank : Text.isBlankText text = true
  · rw [if_pos blank] at said
    obtain rfl := eq_of_ofBlank said
    refine read_eq_ok_iff.mpr ⟨supported, version, ?_⟩
    rw [if_pos blank]
    exact said
  · rw [if_neg blank] at said
    obtain ⟨m, -, spelled⟩ := single.resolve_left blank
    obtain ⟨_, spelled', said⟩ := said
    obtain rfl := Except.ok.inj (spelled.symm.trans spelled')
    refine read_eq_ok_iff.mpr ⟨supported, ?_, ?_⟩
    · have retagged : ({ ambient with language := requested } : StyleRecord).WellFormed :=
        wellFormed
      exact (settled_of_ofMappings retagged said).2.1.trans version
    · rw [if_neg blank]
      exact ⟨_, spelled, ofMappings_again wellFormed said⟩

/-- A text with a part of a value and an older spelling. -/
theorem spells_commentPrefix :
    Spells "SpacesInLineCommentPrefix:\n  Minimum: 5\nDeriveLineEnding: false\n"
      [[(.str "SpacesInLineCommentPrefix", .mapping [(.str "Minimum", .int 5)]),
        (.str "DeriveLineEnding", .bool false)]] :=
  spells_of_tree (.mapping none [(.scalar none "SpacesInLineCommentPrefix" true,
    Yaml.plainTree [("Minimum", "5")]), (.scalar none "DeriveLineEnding" true,
      .scalar none "false" true)]) (by decide) (by decide) rfl (by decide) rfl

/-- A minimum that is given again is clamped again, and an older spelling that has changed its field
leaves it. -/
theorem read_twice_commentPrefix :
    let text := "SpacesInLineCommentPrefix:\n  Minimum: 5\nDeriveLineEnding: false\n"
    let ambient := ((StyleRecord.zeroed .v16 .cpp).put "SpacesInLineCommentPrefix"
      (.record [.int 0, .int 2])).put "LineEnding" (.choice "DeriveLF")
    ambient.WellFormed ∧ (∃ m, Spells text [m]) ∧
      ∃ c, (read .v16 text .cpp ambient).outcome = .ok c ∧
        c.record.get? "SpacesInLineCommentPrefix" = some (.record [.int 2, .int 2]) ∧
        c.record.get? "LineEnding" = some (.choice "LF") ∧
        (read .v16 text .cpp c.record).outcome = .ok c := by
  intro text ambient
  have wellFormed : ambient.WellFormed := by
    unfold StyleRecord.WellFormed
    decide +kernel
  have holds : (ofMappings .cpp { ambient with language := .cpp }
      [[(.str "SpacesInLineCommentPrefix", .mapping [(.str "Minimum", .int 5)]),
        (.str "DeriveLineEnding", .bool false)]]).outcome.toOption.any (fun c =>
          c.record.get? "SpacesInLineCommentPrefix" = some (.record [.int 2, .int 2]) ∧
            c.record.get? "LineEnding" = some (.choice "LF")) = true := by
    decide +kernel
  obtain ⟨c, accepted, fits⟩ := (Option.any_eq_true _ _).mp holds
  obtain ⟨clamped, ended⟩ := of_decide_eq_true fits
  have yields : Yields .v16 .cpp ambient _ c :=
    yields_of_ofMappings (by decide) rfl (Outcome.toOption_eq_some_iff.mp accepted)
  have reads := yields.2 text spells_commentPrefix
  exact ⟨wellFormed, ⟨_, spells_commentPrefix⟩, c, reads, clamped, ended,
    read_twice wellFormed (.inr ⟨_, spells_commentPrefix⟩) reads⟩

end Configuration

end FormatStyle
