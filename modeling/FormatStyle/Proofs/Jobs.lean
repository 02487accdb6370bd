import FormatStyle.Proofs.Failures
import FormatStyle.Proofs.Manifests

/-! # Jobs of accepted manifests

The check of a manifest looks at everything about a migration that does not depend on the text to
migrate: both versions know the language, and the source knows the fallback (`Migration.Ready`). So
an accepted manifest has a job for each of its entries, and the migration of a job only fails for
its text: where the source finds an error in it, or where no version on the way offers the style
that it is based on (`Manifest.jobs_ready`).
-/

namespace FormatStyle

namespace Migration

variable {text : String} {o : Options} {ambient : StyleRecord} {e : StyleError}

theorem checkLanguage_eq_ok_iff {v : Version} {language : Language} :
    checkLanguage v language = .ok () ↔ v.schema.supports language = true := by
  unfold checkLanguage
  split <;> simp_all

/-- **Why the migration of a text fails**: the source finds an error in the text, or the style that
the text is based on is not offered. -/
inductive FailsFor (text : String) (o : Options) (ambient : StyleRecord) : StyleError → Prop where
  | read {e : StyleError}
      (rejected : (Configuration.read o.source text o.language ambient).outcome = .error e) :
      FailsFor text o ambient e
  | style {style : String} {version : String} {names : List String} :
      FailsFor text o ambient (.incompatibleStyle style version names)

/-- **Options that can only fail for a text**: both versions know the language, and the fallback
resolves. -/
structure Ready (o : Options) : Prop where
  source : checkLanguage o.source o.language = .ok ()
  target : checkLanguage o.target o.language = .ok ()
  fallback : ∃ ambient,
    (Style.resolve o.source (Text.lower o.fallbackStyle) o.language).outcome = .ok ambient ∧
      ∀ text e, (migrate text o).outcome = .error e → FailsFor text o ambient e

/-- Where the source finds an error in a text, the migration fails with it. -/
theorem migrate_of_rejected (supports : o.source.schema.supports o.language = true)
    (supported : o.target.schema.supports o.language = true)
    (resolved : (Style.resolve o.source (Text.lower o.fallbackStyle) o.language).outcome =
      .ok ambient)
    (rejected : (Configuration.read o.source text o.language ambient).outcome = .error e) :
    (migrate text o).outcome = .error e := by
  unfold migrate
  simp only [Traced.outcome_bind, Traced.outcome_monadLift, checkLanguage_eq_ok_iff.mpr supports,
    checkLanguage_eq_ok_iff.mpr supported, resolved, rejected, Outcome.ok_bind,
    Outcome.error_bind]

/-- **A migration whose versions know the language and whose source knows the fallback only fails
for its text.** -/
theorem ready_of_known (supports : o.source.schema.supports o.language = true)
    (supported : o.target.schema.supports o.language = true)
    (known : Text.lower o.fallbackStyle ∈ o.source.schema.styleNames) : Ready o := by
  obtain ⟨ambient, resolved⟩ := resolve_isOk_iff.mpr ⟨supports, known⟩
  refine ⟨checkLanguage_eq_ok_iff.mpr supports, checkLanguage_eq_ok_iff.mpr supported, ambient,
    resolved, fun text e failed => ?_⟩
  cases read : (Configuration.read o.source text o.language ambient).outcome with
  | error e' =>
    have same := migrate_of_rejected supports supported resolved read
    rw [failed] at same
    cases same
    exact .read read
  | ok c =>
    have outcome := migrate_of_accepts supported ⟨ambient, resolved, read⟩
    split at outcome
    · obtain ⟨m, migrated, -⟩ := outcome
      cases failed.symm.trans migrated
    · obtain ⟨-, style, version, names, stuck⟩ := outcome
      cases failed.symm.trans stuck
      exact .style

end Migration

namespace Manifest

open Migration (Ready)

variable {m : Manifest} {text : String}

/-- **Options pass their check** if both versions know the language, and the source knows the
fallback style by its name in lower case. -/
theorem checkOptions_eq_ok_iff {o : Migration.Options} : checkOptions o = .ok () ↔
    o.source.schema.supports o.language = true ∧ o.target.schema.supports o.language = true ∧
      Text.lower o.fallbackStyle ∈ o.source.schema.styleNames := by
  have named : (if o.source.schema.styleNames.contains (Text.lower o.fallbackStyle) then .ok ()
      else .error (.unknownStyle o.fallbackStyle o.source.text) : Except StyleError Unit) = .ok () ↔
      Text.lower o.fallbackStyle ∈ o.source.schema.styleNames := by
    rw [← List.contains_iff_mem]
    split <;> simp_all
  rw [checkOptions, ← named, ← Migration.checkLanguage_eq_ok_iff,
    ← Migration.checkLanguage_eq_ok_iff, Outcome.bind_eq_ok_iff]
  constructor
  · rintro ⟨⟨⟩, source, rest⟩
    obtain ⟨⟨⟩, target, rest⟩ := Outcome.bind_eq_ok_iff.mp rest
    exact ⟨source, target, rest⟩
  · rintro ⟨source, target, rest⟩
    exact ⟨(), source, Outcome.bind_eq_ok_iff.mpr ⟨(), target, rest⟩⟩

/-- **An accepted manifest has a job for each entry, and no job fails but for its text.** For every
base directory: the jobs come in the order of the entries, each with the paths and the options of
its entry. -/
theorem jobs_ready (accepted : read text = .ok m) (base : Path) :
    ∃ jobs, m.jobs base = .ok jobs ∧
      List.Forall₂ (fun entry job => job.input = base.join ⟨entry.input⟩ ∧
        job.output = base.join ⟨entry.output⟩ ∧
        (entry.settings.withDefaults m.defaults).toOptions = .ok job.options) m.files jobs ∧
      ∀ job ∈ jobs, Ready job.options := by
  have passes := check_of_read accepted
  obtain ⟨jobs, made, -⟩ := exists_jobs passes base
  have related := forall₂_jobs made
  refine ⟨jobs, made, related, fun job member => ?_⟩
  obtain ⟨entry, listed, -, -, asked⟩ := Outcome.exists_of_mem_right related member
  obtain ⟨-, -, options, resolved, starts⟩ :=
    checkEntry_eq_ok_iff.mp ((check_eq_ok_iff.mp passes).1 entry listed)
  obtain rfl := Except.ok.inj (resolved.symm.trans asked)
  obtain ⟨supports, supported, known⟩ := checkOptions_eq_ok_iff.mp starts
  exact Migration.ready_of_known supports supported known

/-- The jobs of a manifest with two entries. -/
theorem jobs_ready_dotted : read dottedText = .ok dotted ∧
    ∃ jobs, dotted.jobs ⟨"/repo"⟩ = .ok jobs ∧ jobs.length = 2 ∧
      ∀ job ∈ jobs, Ready job.options := by
  obtain ⟨jobs, made, related, ready⟩ := jobs_ready read_dotted ⟨"/repo"⟩
  exact ⟨read_dotted, jobs, made, related.length_eq.symm, ready⟩

end Manifest

end FormatStyle
