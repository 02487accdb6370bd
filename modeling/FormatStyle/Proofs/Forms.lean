import FormatStyle.Proofs.Rewritten
import FormatStyle.Proofs.WordMappings

/-! # The short and the full form of a record

A record is written in short, as what differs from a baseline, or in full, without one. On top of
the baseline both texts are read alike, whatever the record leaves to derive and whatever law it
breaks. The full text needs no baseline: on top of any record it is read with one meaning, because
all that it leaves out is what presets imply (`Configuration.read_short_and_full`).
-/

namespace FormatStyle

open Yaml (Mapping)

namespace StyleRecord

variable {r : StyleRecord} {baseline : Option StyleRecord}

/-- **The record as a document can say it**: it inherits only where its version knows the
configuration of the parent directory. -/
def said (r : StyleRecord) : StyleRecord :=
  { r with inheritsParent := r.inheritsParent && r.schema.conventions.inheritsParent }

theorem native_said (each : r.Each FieldKind.Stores) : r.said.Native :=
  ⟨each, fun inherits => (Bool.and_eq_true_iff.mp inherits).2⟩

/-- A record is written as a document can say it. -/
private theorem toMapping_said : r.said.toMapping baseline = r.toMapping baseline := by
  have based : r.said.writtenBase baseline = r.writtenBase baseline := by
    change (if (r.inheritsParent && r.schema.conventions.inheritsParent &&
      r.schema.conventions.inheritsParent) = true then _ else _) = _
    rw [Bool.and_assoc, Bool.and_self]
    rfl
  unfold toMapping
  rw [based]
  rfl

end StyleRecord

namespace Configuration

open StyleRecord

variable {r b a a' : StyleRecord} {baseline : Option StyleRecord}

/-- **Two readings that come out alike**: they fail with the same error, or give records that are
related. -/
inductive Alike (R : StyleRecord → StyleRecord → Prop) :
    Except StyleError Configuration → Except StyleError Configuration → Prop
  | failed (e : StyleError) : Alike R (.error e) (.error e)
  | read {c c' : Configuration} (related : R c.record c'.record) : Alike R (.ok c) (.ok c')

/-- **A record that texts of a version can be read on top of.** -/
structure Ambient (version : Version) (a : StyleRecord) : Prop where
  wellFormed : a.WellFormed
  version : a.version = version
  plain : a.inheritsParent = false

/-- **A written record is read again**, on top of the baseline if there is one. Whether that fails
depends on the record alone. -/
theorem read_write (each : r.Each FieldKind.Stores)
    (supported : r.schema.supports r.language = true)
    (ambient : Ambient r.version a) (on : baseline = none ∨ baseline = some a)
    (kept : ∀ m, (r.toMapping baseline).outcome = .ok m → ReadsBack m) :
    ∃ text basedOn, (r.write baseline).outcome = .ok text ∧
      (read r.version text r.language a).outcome =
        match (r.putAll r.derived).brokenConstraint? with
        | some law => .error (.constraintViolation law.name law.reason)
        | none => .ok ⟨r.said.reread a, basedOn⟩ := by
  have native := native_said each
  obtain ⟨base, mapping, -⟩ := outcome_toMapping native baseline
  have written := toMapping_said ▸ mapping
  have same : ∀ b, baseline = some b → b = a := by
    rintro b rfl
    rcases on with none | some
    · cases none
    · exact Option.some.inj some
  obtain ⟨basedOn, outcome⟩ := outcome_read_frame (r := r.said) native supported ambient.version
    ambient.plain ambient.wellFormed (fun b here name => by rw [same b here])
    (fun b here => by rw [same b here]; exact ⟨ambient.version, ambient.wellFormed⟩) mapping
    (kept _ written)
  refine ⟨_, basedOn, by rw [write, Traced.outcome_map, written, Outcome.map_ok], outcome.trans ?_⟩
  -- The laws look at nothing that inheritance or the record below changes.
  have laws : (r.said.reread a).brokenConstraint? = (r.putAll r.derived).brokenConstraint? := by
    refine (brokenConstraint?_reread native ambient.wellFormed ambient.version).trans ?_
    refine brokenConstraint?_congr ?_ fun name _ => ?_
    · rw [(sameTags_putAll _ _).1, (sameTags_putAll _ _).1]
      rfl
    · exact get?_putAll_congr native.stores each rfl fun _ => rfl
  unfold checkLaws
  rw [laws]
  cases (r.putAll r.derived).brokenConstraint? <;> rfl

/-- **The short and the full form of a record agree, and the full form stands by itself.** On top of
the baseline both are read as the same record, or fail with the same error. On top of any two
records the full form is read as records with the same expansion, or fails with the same error.
Nothing is asked of what the record derives and of the laws that it keeps. -/
theorem read_short_and_full (each : r.Each FieldKind.Stores)
    (supported : r.schema.supports r.language = true) (baseline : Ambient r.version b)
    (kept : ∀ on ∈ [some b, none], ∀ m, (r.toMapping on).outcome = .ok m → ReadsBack m) :
    ∃ short full, (r.write (some b)).outcome = .ok short ∧ (r.write none).outcome = .ok full ∧
      Alike Eq (read r.version short r.language b).outcome
        (read r.version full r.language b).outcome ∧
      ∀ a a', Ambient r.version a → Ambient r.version a' →
        Alike SameExpansion (read r.version full r.language a).outcome
          (read r.version full r.language a').outcome := by
  have full_kept := kept none (by simp)
  obtain ⟨short, _, short_written, short_read⟩ :=
    read_write each supported baseline (.inr rfl) (kept (some b) (by simp))
  obtain ⟨full, _, full_written, full_read⟩ :=
    read_write each supported baseline (.inl rfl) full_kept
  refine ⟨short, full, short_written, full_written, ?_, fun a a' ambient ambient' => ?_⟩
  · rw [short_read, full_read]
    cases (r.putAll r.derived).brokenConstraint? with
    | some law => exact .failed _
    | none => exact .read rfl
  · obtain ⟨_, _, written, read_a⟩ := read_write each supported ambient (.inl rfl) full_kept
    obtain rfl := Except.ok.inj (full_written.symm.trans written)
    obtain ⟨_, _, written', read_a'⟩ := read_write each supported ambient' (.inl rfl) full_kept
    obtain rfl := Except.ok.inj (full_written.symm.trans written')
    rw [read_a, read_a']
    cases (r.putAll r.derived).brokenConstraint? with
    | some law => exact .failed _
    | none =>
      have native := native_said each
      exact .read ((sameExpansion_reread native ambient.wellFormed ambient.version).trans
        (sameExpansion_reread native ambient'.wellFormed ambient'.version).symm)

/-- In short and in full, another line length than that of the default style is a mapping of words.
-/
private theorem isWordMapping_columnLimit :
    let b := (Style.resolve .v3_4 "llvm" .cpp).outcome.toOption.getD (.zeroed .v3_4 .cpp)
    let r := b.put "ColumnLimit" (.int 100)
    [some b, none].all (fun on =>
      (r.toMapping on).outcome.toOption.all Yaml.isWordMapping) = true := by
  decide +kernel

/-- The default style with another line length, in short and in full. -/
theorem read_short_and_full_columnLimit :
    let b := (Style.resolve .v3_4 "llvm" .cpp).outcome.toOption.getD (.zeroed .v3_4 .cpp)
    let r := b.put "ColumnLimit" (.int 100)
    r.Each FieldKind.Stores ∧ r.schema.supports r.language = true ∧ Ambient r.version b ∧
      (∀ on ∈ [some b, none], ∀ m, (r.toMapping on).outcome = .ok m → ReadsBack m) ∧
      ∃ short full, (r.write (some b)).outcome = .ok short ∧ (r.write none).outcome = .ok full ∧
        Alike Eq (read r.version short r.language b).outcome
          (read r.version full r.language b).outcome ∧
        ∀ a a', Ambient r.version a → Ambient r.version a' →
          Alike SameExpansion (read r.version full r.language a).outcome
            (read r.version full r.language a').outcome := by
  intro b r
  have resolve : (Style.resolve .v3_4 "llvm" .cpp).outcome = .ok b :=
    resolve_getD (by decide) (by decide) _
  obtain ⟨native, version, language, plain, -⟩ := Style.native_of_resolve resolve
  obtain ⟨native', -⟩ := toMapping_columnLimit resolve
  have same : r.version = b.version := version_put
  have supported : r.schema.supports r.language = true := by
    rw [StyleRecord.schema, same, language_put, version, language]
    decide
  have ambient : Ambient r.version b := ⟨native.wellFormed, same.symm, plain⟩
  have kept : ∀ on ∈ [some b, none], ∀ m, (r.toMapping on).outcome = .ok m → ReadsBack m := by
    intro on member m written
    have words := List.all_eq_true.mp isWordMapping_columnLimit on member
    rw [written] at words
    exact readsBack_of_words words
  exact ⟨native'.stores, supported, ambient, kept,
    read_short_and_full native'.stores supported ambient kept⟩

end Configuration

end FormatStyle
