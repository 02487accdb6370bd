import FormatStyle.Proofs.Reads
import FormatStyle.Proofs.Walks

/-! # Upgrades

A text that a version accepts can be migrated to every later version, and nothing is lost
(`Migration.migrate_upwards`). The style is the one chosen at the source, because later versions
know it too.
-/

namespace FormatStyle

open StyleRecord

namespace Version

variable {v low high : Version}

/-- Only the highest version has configurations that inherit. -/
private theorem inheritsParent_of_le (le : low ≤ high)
    (inherits : low.schema.conventions.inheritsParent = true) :
    high.schema.conventions.inheritsParent = true := by
  revert le inherits
  cases low <;> cases high <;> first | exact fun _ => id | (intro le; exact absurd le (by decide)) |
    (intro _ inherits; cases inherits)

/-- A lower case that finds a style is its name. -/
theorem lower_mem_of_style? {name : String} {style : NamedStyle}
    (found : v.schema.style? (Text.lower name) = some style) :
    Text.lower name ∈ v.schema.styleNames := by
  have member : style.name ∈ v.schema.styleNames :=
    List.mem_map_of_mem (List.mem_of_find?_eq_some found)
  have same : Text.equalsIgnoringCase style.name (Text.lower name) = true := by
    simpa using List.find?_some found
  rwa [Text.lower_eq_of_equalsIgnoringCase (v.styleNames_lower _ member) same]

end Version

namespace Migration

variable {source target : Version} {language : Language} {fallbackStyle text : String}
  {ambient : StyleRecord} {c : Configuration} {skipSame : Bool}

/-- **The style that a text says**: the one that it is based on, or else the fallback, which counts
for the configuration of the parent directory too. -/
def saidStyle (fallback : String) : Option String → String
  | none => fallback
  | some name =>
    if Text.equalsIgnoringCase name parentConfiguration then fallback else Text.lower name

/-- The chosen style is the one that the text says, and the source knows it. -/
theorem chosenStyle_eq {fallback : String} (based : c.record.Based c.basedOn)
    (known : fallback ∈ c.record.schema.styleNames) :
    chosenStyle c fallback = saidStyle fallback c.basedOn ∧
      chosenStyle c fallback ∈ c.record.schema.styleNames := by
  unfold chosenStyle saidStyle
  cases said : c.basedOn with
  | none => exact ⟨rfl, known⟩
  | some name =>
    have fits := based name said
    dsimp only
    split at fits
    · rename_i parent
      rw [fits, if_pos rfl, if_pos parent]
      exact ⟨rfl, known⟩
    · rename_i named
      rw [fits.1, if_neg (by simp), if_neg named]
      exact ⟨rfl, fits.2⟩

/-- **A native record can be written** on top of any baseline. -/
theorem write_isOk {r : StyleRecord} (native : r.Native) (baseline : Option StyleRecord) :
    ∃ text, (r.write baseline).outcome = .ok text := by
  obtain ⟨base, mapping, -⟩ := outcome_toMapping native baseline
  unfold write
  rw [Traced.outcome_map, mapping]
  exact ⟨_, rfl⟩

/-- **Inheritance is kept** by a record whose version has it, without a loss. -/
theorem keepInheritance_of_native (inherits : Bool) {w : Walk} (native : w.record.Native)
    (has : inherits = true → w.record.schema.conventions.inheritsParent = true) :
    ∃ kept, keepInheritance inherits w = ⟨kept, w.style, w.before, w.losses⟩ ∧ kept.Native := by
  unfold keepInheritance
  split
  · rename_i inherits
    rw [if_pos (has inherits)]
    exact ⟨_, rfl, native.stores, fun _ => has inherits⟩
  · exact ⟨w.record, rfl, native⟩

/-- **Upgrades lose nothing.** A text that a version accepts, on top of the fallback style, is
migrated to every later version without a loss and without a change of style. -/
theorem migrate_upwards (le : source ≤ target)
    (resolved : (Style.resolve source (Text.lower fallbackStyle) language).outcome = .ok ambient)
    (accepted : (Configuration.read source text language ambient).outcome = .ok c) :
    ∃ m, (migrate text ⟨source, target, language, fallbackStyle, skipSame⟩).outcome = .ok m ∧
      m.losses = [] ∧ m.style = saidStyle (Text.lower fallbackStyle) c.basedOn := by
  obtain ⟨ambient_native, ambient_version, -, -, _, found, -⟩ := Style.native_of_resolve resolved
  obtain ⟨supported, native, version, tag, based, -⟩ :=
    Configuration.sound_of_read ambient_native accepted
  have schema : c.record.schema = source.schema := by rw [StyleRecord.schema, version]
  obtain ⟨supports, knows⟩ := Version.grows le
  obtain ⟨said, known⟩ := chosenStyle_eq based (schema ▸ Version.lower_mem_of_style? found)
  rw [schema] at known
  obtain ⟨expanded, expand, expanded_native, same, -⟩ := expand_isOk native
  obtain ⟨record, collapse, record_native, same', -⟩ := collapse_isOk expanded_native
  obtain ⟨before, styled, -⟩ := expandedStyle_isOk supported known
  obtain ⟨top, after, walked, top_native, top_version, top_tag⟩ :=
    exists_walk_up (Text.lower fallbackStyle) before [] le supported
       known record_native (same'.1.trans (same.1.trans version))
  obtain ⟨kept, keeps, kept_native⟩ := keepInheritance_of_native c.record.inheritsParent
    (w := ⟨top, chosenStyle c (Text.lower fallbackStyle), after, []⟩) top_native fun inherits => by
      rw [StyleRecord.schema, top_version]
      exact Version.inheritsParent_of_le le (schema ▸ native.inherits inherits)
  obtain ⟨style, style_found⟩ := Version.style?_of_mem (knows _ known)
  obtain ⟨baseline, resolves⟩ := Style.resolve_isOk (supports _ supported) style_found
  obtain ⟨written, writes⟩ := write_isOk kept_native (if skipSame then some baseline else none)
  refine ⟨⟨written, kept, chosenStyle c (Text.lower fallbackStyle), []⟩, ?_, rfl, said⟩
  unfold migrate checkLanguage
  simp only [Traced.outcome_bind, Traced.outcome_monadLift, supported, supports _ supported,
    if_pos, resolved, accepted, Outcome.ok_bind]
  unfold ofConfiguration
  simp only [Traced.outcome_bind, Traced.outcome_monadLift, expand, collapse, styled, walked, keeps,
    Outcome.ok_bind]
  cases skipSame <;>
    simp only [Bool.false_eq_true, if_true, if_false, Traced.outcome_bind, Traced.outcome_map,
      Traced.outcome_pure, resolves, Outcome.map_ok, Outcome.ok_bind] at writes ⊢ <;>
    rw [writes, Outcome.ok_bind]

/-- A text of two entries, read. -/
private theorem mappings_google :
    Configuration.mappings "BasedOnStyle: Google\nColumnLimit: 100\n" =
      .ok [[(.str "BasedOnStyle", .str "Google"), (.str "ColumnLimit", .int 100)]] :=
  Configuration.mappings_of_entries [[("BasedOnStyle", "Google"), ("ColumnLimit", "100")]]
    (by decide) rfl rfl (by decide)

/-- A text that is based on a style and changes one option is migrated through all versions. -/
theorem migrate_upwards_google :
    ∃ m, (migrate "BasedOnStyle: Google\nColumnLimit: 100\n"
        ⟨.v3_4, .v16, .cpp, "LLVM", true⟩).outcome = .ok m ∧
      m.losses = [] ∧ m.style = saidStyle (Text.lower "LLVM") (some "Google") := by
  obtain ⟨ambient, resolved⟩ : ∃ r,
      (Style.resolve .v3_4 (Text.lower "LLVM") .cpp).outcome = .ok r :=
    Style.resolve_isOk (by decide) rfl
  obtain ⟨-, version, -⟩ := Style.native_of_resolve resolved
  have computed : ambient = (Style.resolve .v3_4 (Text.lower "LLVM") .cpp).outcome.toOption.getD
      (.zeroed .v3_4 .cpp) := by
    rw [resolved]
    rfl
  have based : ((Configuration.ofMappings .cpp { ambient with language := .cpp }
      [[(.str "BasedOnStyle", .str "Google"), (.str "ColumnLimit", .int 100)]]).outcome.toOption.map
        (·.basedOn)) = some (some "Google") := by
    rw [computed]
    decide +kernel
  obtain ⟨c, ok, based⟩ := Option.map_eq_some_iff.mp based
  have accepted : (Configuration.read .v3_4 "BasedOnStyle: Google\nColumnLimit: 100\n" .cpp
      ambient).outcome = .ok c := by
    unfold Configuration.read
    rw [if_pos (by decide), if_pos version]
    dsimp only
    rw [if_neg (by decide), Traced.outcome_bind, Traced.outcome_monadLift, mappings_google,
      Outcome.ok_bind]
    exact Outcome.toOption_eq_some_iff.mp ok
  obtain ⟨m, migrated, kept, styled⟩ :=
    migrate_upwards (show Version.v3_4 ≤ .v16 by decide) resolved accepted
  exact ⟨m, migrated, kept, based ▸ styled⟩

end Migration

end FormatStyle
