import FormatStyle.Proofs.Lawful

/-! # Laws across the fields of what is read

Some options restrict others: breaks after return types, trailing commas next to packed arguments,
the order of qualifiers, and the spaces before line comments. Half of these laws hold because what
is read is finished, the other half because constraints are checked (`StyleRecord.Coherent`). What
is read keeps all of them, whatever it is read on top of (`Configuration.coherent_of_read`).
-/

namespace FormatStyle

open Catalogue

namespace StyleRecord

variable {r : StyleRecord} {name : String} {v : Version}

/-- **A record that keeps the laws across its fields.** -/
structure Coherent (r : StyleRecord) : Prop where
  /-- Finishing it changes nothing. -/
  finished : r.finish = .ok r
  unbroken : r.brokenConstraint? = none
  /-- A return type break for definitions comes with a general one. -/
  returnTypes : .v12 ≤ r.version →
    r.get? "AlwaysBreakAfterDefinitionReturnType" ≠ some (.choice "None") →
      r.get? "AlwaysBreakAfterReturnType" ≠ some (.choice "None")
  /-- Where trailing commas are inserted, arguments are not packed. -/
  trailingCommas : .v12 ≤ r.version →
    r.get? "InsertTrailingCommas" ≠ some (.choice "None") →
      r.get? "BinPackArguments" ≠ some (.bool true)
  /-- Where qualifiers are aligned, they have an order: known words, each once, and the type. -/
  qualifiers : r.version = .v16 → r.get? "QualifierAlignment" ≠ some (.choice "Leave") →
    ∃ order, r.get? "QualifierOrder" = some (.list order) ∧ order ≠ [] ∧ order.Nodup ∧
      order ⊆ V16.qualifiers ∧ "type" ∈ order
  /-- The least number of spaces before a line comment is at most the greatest one, if that is
  bounded. -/
  commentPrefix : r.version = .v16 → ∃ minimum maximum : Int,
    r.getPart? "SpacesInLineCommentPrefix" "Minimum" = some (.int minimum) ∧
      r.getPart? "SpacesInLineCommentPrefix" "Maximum" = some (.int maximum) ∧
        (maximum ≠ -1 → minimum ≤ maximum)

/-! ## Values of well-formed records -/

/-- The kinds of the fields that laws look at. -/
theorem lawFields_kinds :
    (∀ v ∈ [Version.v12, .v16],
      v.schema.scalarKind? "AlwaysBreakAfterDefinitionReturnType" =
        some (.choice V12.definitionReturnTypeBreaking) ∧
      v.schema.scalarKind? "InsertTrailingCommas" = some (.choice V12.trailingComma)) ∧
    Version.v16.schema.scalarKind? "QualifierAlignment" =
      some (.choice V16.qualifierAlignment) := by
  decide

theorem WellFormed.get?_choice {e : Enumeration} (wellFormed : r.WellFormed)
    (known : r.schema.scalarKind? name = some (.choice e)) :
    ∃ variant, r.get? name = some (.choice variant) ∧ e.hasVariant variant = true := by
  obtain ⟨value, holds, admitted⟩ := wellFormed.get?_scalar known
  cases value with
  | choice variant => exact ⟨variant, holds, admitted⟩
  | _ => cases admitted

theorem WellFormed.get?_list (wellFormed : r.WellFormed)
    (known : r.schema.scalarKind? name = some .strList) :
    ∃ items, r.get? name = some (.list items) := by
  obtain ⟨value, holds, admitted⟩ := wellFormed.get?_scalar known
  cases value with
  | list items => exact ⟨items, holds⟩
  | _ => cases admitted

theorem high_mem (high : .v12 ≤ v) : v ∈ [Version.v12, .v16] := by
  revert high
  cases v <;> decide

/-! ## The laws -/

/-- **A settled record breaks after return types in general** where it does for definitions. -/
theorem Settled.returnTypes (settled : r.Settled) (wellFormed : r.WellFormed)
    (high : .v12 ≤ r.version)
    (definition : r.get? "AlwaysBreakAfterDefinitionReturnType" ≠ some (.choice "None")) :
    r.get? "AlwaysBreakAfterReturnType" ≠ some (.choice "None") := by
  intro general
  obtain ⟨variant, holds, known⟩ :=
    wellFormed.get?_choice (lawFields_kinds.1 r.version (high_mem high)).1
  have listed : variant = "None" ∨ variant = "All" ∨ variant = "TopLevel" := by
    simp only [Enumeration.hasVariant, V12.definitionReturnTypeBreaking, List.any_cons,
      List.any_nil, Bool.or_false, Bool.or_eq_true, beq_iff_eq] at known
    grind
  -- The general break is derived from the one for definitions, to a value that is not the held one.
  obtain ⟨derived, made, other⟩ : ∃ derived,
      V12.returnTypeBreak r.view = [("AlwaysBreakAfterReturnType", .choice derived)] ∧
        derived ≠ "None" := by
    unfold V12.returnTypeBreak view
    rw [holds, general]
    rcases listed with rfl | rfl | rfl
    · exact absurd holds definition
    · exact ⟨"AllDefinitions", rfl, by decide⟩
    · exact ⟨"TopLevelDefinitions", rfl, by decide⟩
  have held := settled _ (mem_derived_iff.mpr ⟨_, (Version.footprints_high high).1, made, rfl⟩)
  rw [general, Option.some.injEq, Value.choice.injEq] at held
  exact other held.symm

/-- **A record that breaks no constraint packs no arguments** where it inserts trailing commas. -/
theorem trailingCommas_of_unbroken (unbroken : r.brokenConstraint? = none)
    (wellFormed : r.WellFormed) (high : .v12 ≤ r.version)
    (inserted : r.get? "InsertTrailingCommas" ≠ some (.choice "None")) :
    r.get? "BinPackArguments" ≠ some (.bool true) := by
  intro packed
  obtain ⟨variant, holds, -⟩ :=
    wellFormed.get?_choice (lawFields_kinds.1 r.version (high_mem high)).2
  have some_comma : variant ≠ "None" := fun none => inserted (none ▸ holds)
  have keeps : r.KeepsCommas := keepsCommas_of_unbroken high unbroken
  simp [KeepsCommas, V12.trailingCommaBinPacking, view, holds, packed, Value.choice?, Value.bool?,
    some_comma] at keeps

/-- **A record that breaks no constraint orders qualifiers** where it aligns them. -/
theorem qualifiers_of_unbroken (unbroken : r.brokenConstraint? = none)
    (wellFormed : r.WellFormed) (highest : r.version = .v16)
    (aligned : r.get? "QualifierAlignment" ≠ some (.choice "Leave")) :
    ∃ order, r.get? "QualifierOrder" = some (.list order) ∧ order ≠ [] ∧ order.Nodup ∧
      order ⊆ V16.qualifiers ∧ "type" ∈ order := by
  have schema : r.schema = Version.v16.schema := congrArg Version.schema highest
  obtain ⟨variant, holds, -⟩ := wellFormed.get?_choice (schema ▸ lawFields_kinds.2)
  obtain ⟨order, listed⟩ := wellFormed.get?_list (schema ▸ lawFields_apart.2.1)
  have apart : variant ≠ "Leave" := fun leave => aligned (leave ▸ holds)
  have ordered : V16.qualifierOrder? r.view = some order := by
    simp [V16.qualifierOrder?, view, holds, listed, Value.choice?, Value.list?, apart]
  have kept : ∀ law ∈ V16.qualifierConstraints, law.violated r.view = false := by
    intro law member
    unfold brokenConstraint? at unbroken
    rw [schema, List.find?_eq_none] at unbroken
    exact Bool.eq_false_iff.mpr (unbroken law (List.mem_cons_of_mem _ member))
  simp only [V16.qualifierConstraints, List.forall_mem_cons, ordered, Option.any_some,
    List.isEmpty_eq_false_iff, List.any_eq_false, Bool.not_eq_true', Bool.not_eq_false',
    decide_eq_true_eq, List.contains_iff_mem] at kept
  obtain ⟨nonempty, known, once, typed, -⟩ := kept
  exact ⟨order, listed, nonempty, once, fun q member => by simpa using known q member, typed⟩

/-- The spaces before line comments are two numbers. -/
private theorem exists_of_partsAdmit {values : List Value}
    (admitted : partsAdmit V16.spacesInLineCommentPrefix values = true) :
    ∃ minimum maximum : Int, Value.record values = .record [.int minimum, .int maximum] := by
  rcases values with _ | ⟨a, _ | ⟨b, _ | ⟨_, _⟩⟩⟩ <;>
    simp only [V16.spacesInLineCommentPrefix, partsAdmit, Bool.and_eq_true, Bool.false_eq_true,
      and_false] at admitted
  obtain ⟨least, most, -⟩ := admitted
  cases a with
  | int minimum =>
    cases b with
    | int maximum => exact ⟨minimum, maximum, rfl⟩
    | _ => cases most
  | _ => cases least

/-- **A settled record bounds the spaces before line comments.** -/
theorem Settled.commentPrefix (settled : r.Settled) (wellFormed : r.WellFormed)
    (highest : r.version = .v16) : ∃ minimum maximum : Int,
      r.getPart? "SpacesInLineCommentPrefix" "Minimum" = some (.int minimum) ∧
        r.getPart? "SpacesInLineCommentPrefix" "Maximum" = some (.int maximum) ∧
          (maximum ≠ -1 → minimum ≤ maximum) := by
  have schema : r.schema = Version.v16.schema := congrArg Version.schema highest
  obtain ⟨field, found, is_record⟩ := Schema.field?_of_recordParts? (schema ▸ lawFields_apart.2.2.1)
  obtain ⟨value, holds, admitted⟩ := (wellFormed_iff.mp wellFormed).get? found
  obtain ⟨minimum, maximum, rfl⟩ : ∃ minimum maximum : Int,
      value = .record [.int minimum, .int maximum] := by
    rw [is_record] at admitted
    cases value with
    | record values => exact exists_of_partsAdmit admitted
    | _ => cases admitted
  have parts : ∀ part, r.getPart? "SpacesInLineCommentPrefix" part =
      (partIndex? V16.spacesInLineCommentPrefix part).bind
        fun index => [Value.int minimum, .int maximum][index]? := by
    intro part
    simp [getPart?, found, is_record, holds, FieldKind.parts?, Value.record?]
  refine ⟨minimum, maximum, parts _, parts _, fun bounded => ?_⟩
  by_contra exceeds
  have made : V16.clampedCommentPrefix r.view =
      [("SpacesInLineCommentPrefix", .record [.int maximum, .int maximum])] := by
    simp [V16.clampedCommentPrefix, view, holds, bounded, exceeds]
  have listed : (⟨V16.clampedCommentPrefix, ["SpacesInLineCommentPrefix"],
      "SpacesInLineCommentPrefix"⟩ : Footprint) ∈ r.version.footprints := by
    rw [highest]
    simp [Version.footprints]
  have held := settled _ (mem_derived_iff.mpr ⟨_, listed, made, rfl⟩)
  rw [holds] at held
  obtain rfl : minimum = maximum := by simpa using held
  exact exceeds le_rfl

/-- **A record that is settled and breaks no constraint is coherent.** -/
theorem coherent_of_settled (wellFormed : r.WellFormed) (settled : r.Settled)
    (unbroken : r.brokenConstraint? = none) : r.Coherent where
  finished := wellFormed.finish_of_settled settled
  unbroken := unbroken
  returnTypes := settled.returnTypes wellFormed
  trailingCommas := trailingCommas_of_unbroken unbroken wellFormed
  qualifiers := qualifiers_of_unbroken unbroken wellFormed
  commentPrefix := settled.commentPrefix wellFormed

end StyleRecord

namespace Configuration

open StyleRecord

variable {v : Version} {text : String} {requested : Language} {ambient : StyleRecord}
  {c : Configuration}

/-- **What is read is coherent**, on top of any well-formed record, or in blank text on top of a
style. Finishing a well-formed record never fails. -/
theorem coherent_of_read (wellFormed : ambient.WellFormed)
    (blank : Text.isBlankText text = true →
      ∃ w style language, (Style.resolve w style language).outcome = .ok ambient)
    (accepted : (read v text requested ambient).outcome = .ok c) :
    c.record.version = v ∧ c.record.Coherent ∧
      ∀ r : StyleRecord, r.WellFormed → ∃ finished, r.finish = .ok finished := by
  have finishes : ∀ r : StyleRecord, r.WellFormed → ∃ finished, r.finish = .ok finished :=
    fun r wellFormed => ⟨_, finish_eq_putAll wellFormed⟩
  have retagged : ({ ambient with language := requested } : StyleRecord).WellFormed := wellFormed
  obtain ⟨-, version, h⟩ := read_eq_ok_iff.mp accepted
  split at h
  · rename_i nothing
    obtain ⟨w, style, language, resolved⟩ := blank nothing
    obtain ⟨settled, keeps⟩ := Migration.lawful_of_resolve resolved
    have coherent : ({ ambient with language := requested } : StyleRecord).Coherent :=
      coherent_of_settled retagged settled (by rwa [KeepsLaws, putAll_of_holds settled] at keeps)
    unfold ofBlank at h
    split at h <;> cases h
    exact ⟨version, coherent, finishes⟩
  · obtain ⟨ms, -, accepted⟩ := h
    obtain ⟨whole, same, settled, unbroken⟩ := settled_of_ofMappings retagged accepted
    exact ⟨same.trans version, coherent_of_settled whole settled unbroken, finishes⟩

/-- A text from which a return type break and an order of qualifiers follow. -/
private theorem mappings_leftQualifiers :
    mappings "AlwaysBreakAfterDefinitionReturnType: All\nQualifierAlignment: Left\n" =
      .ok [[(.str "AlwaysBreakAfterDefinitionReturnType", .str "All"),
        (.str "QualifierAlignment", .str "Left")]] :=
  mappings_of_entries [[("AlwaysBreakAfterDefinitionReturnType", "All"),
    ("QualifierAlignment", "Left")]] (by decide) rfl rfl (by decide)

private theorem accepts_leftQualifiers :
    (ofMappings .cpp (.zeroed .v16 .cpp)
      [[(.str "AlwaysBreakAfterDefinitionReturnType", .str "All"),
        (.str "QualifierAlignment", .str "Left")]]).outcome.isOk = true := by
  decide +kernel

/-- That text, read on top of a record in which nothing is assigned. -/
theorem coherent_of_read_leftQualifiers :
    let text := "AlwaysBreakAfterDefinitionReturnType: All\nQualifierAlignment: Left\n"
    let ambient := StyleRecord.zeroed .v16 .cpp
    ambient.WellFormed ∧
      (Text.isBlankText text = true →
        ∃ w style language, (Style.resolve w style language).outcome = .ok ambient) ∧
      ∃ c, (read .v16 text .cpp ambient).outcome = .ok c ∧ c.record.version = .v16 ∧
        c.record.Coherent ∧
          ∀ r : StyleRecord, r.WellFormed → ∃ finished, r.finish = .ok finished := by
  intro text ambient
  have wellFormed : ambient.WellFormed := (stores_zeroed .v16 .cpp).wellFormed
  have written : Text.isBlankText text = false := by decide
  have blank : Text.isBlankText text = true →
      ∃ w style language, (Style.resolve w style language).outcome = .ok ambient := by
    intro nothing
    rw [written] at nothing
    cases nothing
  obtain ⟨c, accepted⟩ := Outcome.isOk_iff.mp accepts_leftQualifiers
  have reads : (read .v16 text .cpp ambient).outcome = .ok c :=
    read_eq_ok_iff.mpr ⟨by decide, rfl, by
      rw [written, if_neg Bool.false_ne_true]
      exact ⟨_, mappings_leftQualifiers, accepted⟩⟩
  exact ⟨wellFormed, blank, c, reads, coherent_of_read wellFormed blank reads⟩

end Configuration

end FormatStyle
