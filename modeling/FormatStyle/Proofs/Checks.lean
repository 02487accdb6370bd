import FormatStyle.Command
import FormatStyle.Proofs.Batches
import FormatStyle.Proofs.Delivered
import FormatStyle.Proofs.Migrated
import FormatStyle.Proofs.Normal
import FormatStyle.Proofs.Rewritten

/-! # The shortest form of a text

A check reads a text and writes it next to the style that it says (`Command.checkText_eq_ok_iff`).
What it writes has the meaning of the text, and is what another check of it writes again
(`Command.checkText_shortest`): whatever way the text said its style, the shortest form says the
same one.
-/

namespace FormatStyle

open StyleRecord Migration

namespace Command

variable {w : Workspace} {version : String} {input : Input} {fallbackStyle output : String}

/-- **What a check goes through**: what its arguments stand for, what is read, and what the result
is written next to. -/
structure Check (w : Workspace) (versionText : String) (input : Input)
    (fallbackStyle : String) where
  version : Version
  language : Language
  text : String
  ambient : StyleRecord
  configuration : Configuration
  baseline : StyleRecord
  named : Version.parse versionText = .ok version
  spoken : Language.parse input.language = .ok language
  given : (readInput w input.path).outcome = .ok text
  resolved : (Style.resolve version (Text.lower fallbackStyle) language).outcome = .ok ambient
  accepted : (Configuration.read version text language ambient).outcome = .ok configuration
  compared : (Style.resolve version (saidStyle (Text.lower fallbackStyle) configuration.basedOn)
    language).outcome = .ok baseline

/-- A check finds one thing at each point. -/
theorem Check.unique (check check' : Check w version input fallbackStyle) : check' = check := by
  obtain ⟨v, language, text, ambient, c, b, named, spoken, given, resolved, accepted, compared⟩ :=
    check
  obtain ⟨v', language', text', ambient', c', b', named', spoken', given', resolved', accepted',
    compared'⟩ := check'
  obtain rfl := Except.ok.inj (named.symm.trans named')
  obtain rfl := Except.ok.inj (spoken.symm.trans spoken')
  obtain rfl := Except.ok.inj (given.symm.trans given')
  obtain rfl := Except.ok.inj (resolved.symm.trans resolved')
  obtain rfl := Except.ok.inj (accepted.symm.trans accepted')
  obtain rfl := Except.ok.inj (compared.symm.trans compared')
  rfl

/-- What is written next to the ambient record, if the configuration inherits, and else next to the
style that it names, is written next to the style that it says. -/
theorem outcome_beside {v : Version} {text fallback : String} {language : Language}
    {ambient : StyleRecord} {c : Configuration}
    (resolved : (Style.resolve v (Text.lower fallback) language).outcome = .ok ambient)
    (accepted : (Configuration.read v text language ambient).outcome = .ok c)
    (f : StyleRecord → Traced Failure String) :
    (if c.record.inheritsParent then (do
        let baseline ← pure ambient
        f baseline)
      else (do
        let baseline ← (Style.resolve v ((c.basedOn.map Text.lower).getD (Text.lower fallback))
          language).alone
        f baseline)).outcome = .ok output ↔
      ∃ b, (Style.resolve v (saidStyle (Text.lower fallback) c.basedOn) language).outcome = .ok b ∧
        (f b).outcome = .ok output := by
  obtain ⟨said, -, parent⟩ := Configuration.saidStyle_of_read resolved accepted
  by_cases inherits : c.record.inheritsParent = true
  · rw [if_pos inherits, pure_bind, parent inherits, resolved]
    simp only [Except.ok.injEq, exists_eq_left']
  · have named : chosenStyle c (Text.lower fallback) =
        (c.basedOn.map Text.lower).getD (Text.lower fallback) := by
      unfold chosenStyle
      cases c.basedOn with
      | none => rfl
      | some name => exact if_neg inherits
    rw [if_neg inherits, Traced.outcome_bind, Outcome.bind_eq_ok_iff, ← said, named]
    simp only [Traced.outcome_alone_eq_ok_iff]

/-- **What a check prints** is what is read, written next to the style that it says. -/
theorem checkText_eq_ok_iff : (checkText w version input fallbackStyle).outcome = .ok output ↔
    ∃ check : Check w version input fallbackStyle,
      (check.configuration.record.write (some check.baseline)).outcome = .ok output := by
  unfold checkText readVersion readLanguage
  simp only [Traced.outcome_bind, Outcome.bind_eq_ok_iff, Traced.outcome_alone_eq_ok_iff,
    Traced.outcome_within_eq_ok_iff, Traced.outcome_ofExcept]
  constructor
  · rintro ⟨v, named, language, spoken, text, given, ambient, resolved, c, accepted, finished⟩
    obtain ⟨b, compared, written⟩ := (outcome_beside resolved accepted _).mp finished
    exact ⟨⟨v, language, text, ambient, c, b, named, spoken, given, resolved, accepted, compared⟩,
      Traced.outcome_alone_eq_ok_iff.mp written⟩
  · rintro ⟨check, written⟩
    exact ⟨_, check.named, _, check.spoken, _, check.given, _, check.resolved, _, check.accepted,
      (outcome_beside check.resolved check.accepted _).mpr
        ⟨_, check.compared, Traced.outcome_alone_eq_ok_iff.mpr written⟩⟩

/-- **The shortest form has the meaning of the text and is its own shortest form.** It is read with
the same inheritance and the same expansion, and a check of it, under the same version and with the
same language and fallback, prints it again. -/
theorem checkText_shortest
    (checked : (checkText w version input fallbackStyle).outcome = .ok output)
    (kept : ∀ (check : Check w version input fallbackStyle) mapping,
      (check.configuration.record.toMapping (some check.baseline)).outcome = .ok mapping →
        Configuration.ReadsBack mapping) :
    ∃ check : Check w version input fallbackStyle,
      (∀ w' path, (readInput w' path).outcome = .ok output →
        (checkText w' version ⟨path, input.language⟩ fallbackStyle).outcome = .ok output) ∧
      ∃ c, (Configuration.read check.version output check.language check.ambient).outcome = .ok c ∧
        c.record.inheritsParent = check.configuration.record.inheritsParent ∧
        SameExpansion c.record check.configuration.record := by
  obtain ⟨check, written⟩ := checkText_eq_ok_iff.mp checked
  obtain ⟨-, known, parent⟩ := Configuration.saidStyle_of_read check.resolved check.accepted
  obtain ⟨styled, -⟩ := Style.native_of_resolve check.resolved
  obtain ⟨-, native, own, tag, -⟩ := Configuration.sound_of_read styled check.accepted
  obtain ⟨settled, keeps⟩ := lawful_of_read check.resolved check.accepted
  obtain ⟨compared_native, compared_version, -⟩ := Style.native_of_resolve check.compared
  have version' := compared_version.trans own.symm
  have beside : check.configuration.record.inheritsParent = true →
      check.baseline = check.ambient := fun inherits =>
    Except.ok.inj (check.compared.symm.trans (by rw [parent inherits, check.resolved]))
  obtain ⟨mapping, mapped, rfl⟩ :=
    Outcome.map_eq_ok_iff.mp ((Traced.outcome_map _ _).symm.trans written)
  obtain ⟨basedOn, read, repeated⟩ := Configuration.read_beside_style native own tag keeps known
    check.compared check.resolved beside mapped (kept check mapping mapped)
  rw [reread_of_settled native.stores settled] at read
  refine ⟨check, fun w' path given => ?_, _, read, rfl, ?_⟩
  · refine checkText_eq_ok_iff.mpr ⟨⟨check.version, check.language, _, check.ambient, _,
      check.baseline, check.named, check.spoken, given, check.resolved, read, repeated⟩, ?_⟩
    dsimp only
    rw [write, toMapping_overlay native compared_native.wellFormed version']
    exact written
  · have same := sameExpansion_reread native compared_native.wellFormed version'
    rw [reread_of_settled native.stores settled, putAll_of_holds settled] at same
    exact same

/-- A line length is accepted, and it is words that are written of it next to its style. -/
private theorem accepts_columnLimit_beside :
    ∃ c, Accepts "ColumnLimit: 100\n" ⟨.v12, .v12, .cpp, "llvm", true⟩ c ∧
      (c.basedOn, ((Style.resolve .v12 (Text.lower "llvm") .cpp).outcome >>= fun b =>
        (c.record.toMapping (some b)).outcome).toOption.any Yaml.isWordMapping) = (none, true) :=
  accepts_of_mappings (by decide) (by decide) mappings_columnLimit (by decide +kernel)

/-- A line length from standard input, checked, and the shortest form checked again. -/
theorem checkText_shortest_columnLimit :
    let w : Workspace := ⟨.empty, ⟨"/"⟩, "ColumnLimit: 100\n"⟩
    let input : Input := ⟨"-", "cpp"⟩
    ∃ output, (checkText w "12" input "llvm").outcome = .ok output ∧
      (∀ (check : Check w "12" input "llvm") mapping,
        (check.configuration.record.toMapping (some check.baseline)).outcome = .ok mapping →
          Configuration.ReadsBack mapping) ∧
      ∃ check : Check w "12" input "llvm",
        (∀ w' path, (readInput w' path).outcome = .ok output →
          (checkText w' "12" ⟨path, "cpp"⟩ "llvm").outcome = .ok output) ∧
        ∃ c, (Configuration.read check.version output check.language check.ambient).outcome =
            .ok c ∧
          c.record.inheritsParent = check.configuration.record.inheritsParent ∧
          SameExpansion c.record check.configuration.record := by
  intro w input
  obtain ⟨c, ⟨ambient, resolved, accepted⟩, said⟩ := accepts_columnLimit_beside
  obtain ⟨based, words⟩ := Prod.mk.inj said
  have named : saidStyle (Text.lower "llvm") c.basedOn = Text.lower "llvm" := by
    rw [based]
    decide
  let first : Check w "12" input "llvm" := ⟨.v12, .cpp, "ColumnLimit: 100\n", ambient, c, ambient,
    by decide, by decide, rfl, resolved, accepted, by rw [named]; exact resolved⟩
  have kept : ∀ (check : Check w "12" input "llvm") mapping,
      (check.configuration.record.toMapping (some check.baseline)).outcome = .ok mapping →
        Configuration.ReadsBack mapping := by
    intro check mapping written
    obtain rfl := Check.unique first check
    replace written : (c.record.toMapping (some ambient)).outcome = .ok mapping := written
    rw [resolved, Outcome.ok_bind, written] at words
    exact Configuration.readsBack_of_words words
  obtain ⟨-, native, -⟩ := Configuration.sound_of_read (Style.native_of_resolve resolved).1 accepted
  obtain ⟨output, written⟩ := write_isOk native (some ambient)
  have checked : (checkText w "12" input "llvm").outcome = .ok output :=
    checkText_eq_ok_iff.mpr ⟨first, written⟩
  exact ⟨output, checked, kept, checkText_shortest checked kept⟩

end Command

end FormatStyle
