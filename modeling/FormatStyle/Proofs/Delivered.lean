import FormatStyle.Proofs.Migrated
import FormatStyle.Proofs.Rewritten

/-! # What is migrated is accepted

Nothing checks what a migration delivers: the constraints of the target look at a record only when
its text is read. That they would find nothing is carried through the whole walk
(`Migration.Course.unbroken`, `Migration.Course.keepsLaws`), and every entry that is written is one
that the target reads. So the target accepts each migrated text (`Migration.accepts_migrated`).
-/

namespace FormatStyle

open StyleRecord

namespace Migration

variable {text : String} {o : Options} {m : Migration}

/-- Same entries are left out next to the style that is asked for. -/
private theorem resolve_of_baseline? {style : String} {b : StyleRecord}
    (compared : baseline? o style = .ok (some b)) :
    (Style.resolve o.target style o.language).outcome = .ok b := by
  unfold baseline? at compared
  split at compared
  · obtain ⟨_, resolved, same⟩ := Outcome.map_eq_ok_iff.mp compared
    exact Option.some.inj same ▸ resolved
  · cases compared

/-- **A delivered text is read** under the target as its record read again, on top of the style that
the walk has arrived with. -/
theorem Course.outcome_read_text (course : Course text o)
    (delivered : deliver o course.configuration.record.inheritsParent course.top = .ok m)
    (kept : ∀ baseline mapping, baseline? o m.style = .ok baseline →
      (m.record.toMapping baseline).outcome = .ok mapping → Configuration.ReadsBack mapping) :
    ∃ ambient basedOn, (Style.resolve o.target m.style o.language).outcome = .ok ambient ∧
      ambient.Native ∧ ambient.version = m.record.version ∧
      (Configuration.read o.target m.text o.language ambient).outcome =
        .ok ⟨m.record.reread ambient, basedOn⟩ := by
  obtain ⟨-, style, -, baseline, compared, written⟩ := deliver_eq_ok delivered
  obtain ⟨native, version, language, -⟩ := delivered_record course delivered
  obtain ⟨ambient, resolved, -⟩ := resolve_of_expandedStyle course.arrived.styled
  obtain ⟨ambient_native, ambient_version, -⟩ := Style.native_of_resolve resolved
  rw [← style] at compared resolved
  -- Same entries are left out next to the very record that the text is read on top of.
  have beside : ∀ b, baseline = some b → b = ambient := by
    rintro b rfl
    exact Except.ok.inj ((resolve_of_baseline? compared).symm.trans resolved)
  obtain ⟨mapping, mapped, framed⟩ := Outcome.map_eq_ok_iff.mp
    ((Traced.outcome_map _ _).symm.trans written)
  obtain ⟨basedOn, read⟩ := Configuration.outcome_read_frame_lawful native version language
    (course.keepsLaws delivered) resolved beside mapped (kept baseline mapping compared mapped)
  rw [framed] at read
  exact ⟨ambient, basedOn, resolved, ambient_native, ambient_version.trans version.symm, read⟩

/-- **The target accepts what is migrated.** The migrated record is one of the target and breaks
none of its constraints, and the migrated text is read under it, for the language and on top of the
style of the migration, as a record that breaks none either. -/
theorem accepts_migrated (migrated : (migrate text o).outcome = .ok m)
    (kept : ∀ baseline mapping, baseline? o m.style = .ok baseline →
      (m.record.toMapping baseline).outcome = .ok mapping → Configuration.ReadsBack mapping) :
    m.record.version = o.target ∧ m.record.brokenConstraint? = none ∧
      ∃ ambient c, (Style.resolve o.target m.style o.language).outcome = .ok ambient ∧
        (Configuration.read o.target m.text o.language ambient).outcome = .ok c ∧
        c.record.brokenConstraint? = none := by
  obtain ⟨course, delivered⟩ := exists_course migrated
  obtain ⟨ambient, basedOn, resolved, ambient_native, same_version, read⟩ :=
    course.outcome_read_text delivered kept
  obtain ⟨native, version, -⟩ := delivered_record course delivered
  have lawful : (m.record.reread ambient).brokenConstraint? = none := by
    rw [brokenConstraint?_reread native ambient_native.wellFormed same_version]
    exact course.keepsLaws delivered
  exact ⟨version, course.unbroken delivered, ambient, _, resolved, read, lawful⟩

/-- A line length is accepted under the first version on top of the second style, and two steps up
it is words that are written. -/
private theorem accepts_columnLimit_google :
    ∃ c, Accepts "ColumnLimit: 100\n" ⟨.v3_4, .v12, .cpp, "google", true⟩ c ∧
      (c.basedOn, (migratedMapping ⟨.v3_4, .v12, .cpp, "google", true⟩ c).toOption.any
        Yaml.isWordMapping) = (none, true) :=
  accepts_of_mappings (by decide) (by decide) mappings_columnLimit (by decide +kernel)

/-- A line length, migrated two steps up to the third version, which has a constraint to keep. -/
theorem accepts_migrated_columnLimit :
    let text := "ColumnLimit: 100\n"
    let o : Options := ⟨.v3_4, .v12, .cpp, "google", true⟩
    ∃ m, (migrate text o).outcome = .ok m ∧
      (∀ baseline mapping, baseline? o m.style = .ok baseline →
        (m.record.toMapping baseline).outcome = .ok mapping → Configuration.ReadsBack mapping) ∧
      m.record.version = .v12 ∧ m.record.brokenConstraint? = none ∧
      ∃ ambient c, (Style.resolve .v12 m.style .cpp).outcome = .ok ambient ∧
        (Configuration.read .v12 m.text .cpp ambient).outcome = .ok c ∧
        c.record.brokenConstraint? = none := by
  intro text o
  obtain ⟨c, accepts, said⟩ := accepts_columnLimit_google
  obtain ⟨based, words⟩ := Prod.mk.inj said
  obtain ⟨m, migrated⟩ : ∃ m, (migrate text o).outcome = .ok m :=
    migrate_isOk_iff.mpr ⟨by decide, c, accepts, by rw [based]; decide⟩
  have kept := readsBack_migrated accepts words migrated
  exact ⟨m, migrated, kept, accepts_migrated migrated kept⟩

end Migration

end FormatStyle
