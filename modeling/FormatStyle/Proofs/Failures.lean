import FormatStyle.Proofs.Courses

/-! # When a migration fails

A migration fails where a version does not know the language, where the source does not know the
fallback or does not accept the text, and where the target knows neither the style that the text
says nor the fallback, and nowhere else (`Migration.migrate_fails_iff`). Nothing on the way from an
accepted text to a style that the target offers can fail.
-/

namespace FormatStyle

open StyleRecord

namespace Migration

variable {text : String} {o : Options} {c : Configuration} {m : Migration} {language : Language}

/-- **The source version reads a configuration** in a text, on top of the fallback style. -/
def Accepts (text : String) (o : Options) (c : Configuration) : Prop :=
  ∃ ambient, (Style.resolve o.source (Text.lower o.fallbackStyle) o.language).outcome =
      .ok ambient ∧
    (Configuration.read o.source text o.language ambient).outcome = .ok c

/-- **The source version finds an error** in a text, on top of the fallback style. -/
def Rejects (text : String) (o : Options) : Prop :=
  ∃ ambient e, (Style.resolve o.source (Text.lower o.fallbackStyle) o.language).outcome =
      .ok ambient ∧
    (Configuration.read o.source text o.language ambient).outcome = .error e

/-- A style name in lower case resolves for a language where both are known. -/
theorem resolve_isOk_iff {v : Version} {name : String} :
    (∃ r, (Style.resolve v (Text.lower name) language).outcome = .ok r) ↔
      v.schema.supports language = true ∧ Text.lower name ∈ v.schema.styleNames := by
  constructor
  · rintro ⟨r, resolved⟩
    obtain ⟨-, -, -, -, style, found, -⟩ := Style.native_of_resolve resolved
    refine ⟨?_, Version.lower_mem_of_style? found⟩
    rw [Style.outcome_resolve] at resolved
    split at resolved
    · assumption
    · cases resolved
  · rintro ⟨supported, known⟩
    obtain ⟨style, found⟩ := Version.style?_of_mem known
    exact Style.resolve_isOk supported found

/-- One configuration is accepted. -/
theorem Accepts.unique {c' : Configuration} (accepts : Accepts text o c)
    (accepts' : Accepts text o c') : c' = c := by
  obtain ⟨ambient, resolved, accepted⟩ := accepts
  obtain ⟨ambient', resolved', accepted'⟩ := accepts'
  obtain rfl := Except.ok.inj (resolved.symm.trans resolved')
  exact Except.ok.inj (accepted'.symm.trans accepted)

/-- What is accepted is what the course of its migration reads. -/
theorem exists_course_of_accepts {m : Migration} (accepts : Accepts text o c)
    (migrated : (migrate text o).outcome = .ok m) :
    ∃ course : Course text o, course.configuration = c ∧
      deliver o c.record.inheritsParent course.top = .ok m := by
  obtain ⟨course, delivered⟩ := exists_course migrated
  obtain rfl := accepts.unique ⟨course.ambient, course.resolved, course.accepted⟩
  exact ⟨course, rfl, delivered⟩

/-- What is accepted is not rejected. -/
theorem Accepts.not_rejects (accepts : Accepts text o c) : ¬ Rejects text o := by
  obtain ⟨ambient, resolved, accepted⟩ := accepts
  rintro ⟨ambient', e, resolved', rejected⟩
  obtain rfl := Except.ok.inj (resolved.symm.trans resolved')
  rw [accepted] at rejected
  cases rejected

/-- A source that knows the language and the fallback accepts a text or rejects it. -/
theorem accepts_or_rejects (text : String) (supported : o.source.schema.supports o.language = true)
    (known : Text.lower o.fallbackStyle ∈ o.source.schema.styleNames) :
    (∃ c, Accepts text o c) ∨ Rejects text o := by
  obtain ⟨ambient, resolved⟩ := resolve_isOk_iff.mpr ⟨supported, known⟩
  cases read : (Configuration.read o.source text o.language ambient).outcome with
  | ok c => exact .inl ⟨c, ambient, resolved, read⟩
  | error e => exact .inr ⟨ambient, e, resolved, read⟩

/-- **A text is accepted** if its mappings are. What is asked of the configuration is computed from
them. -/
theorem accepts_of_mappings {α : Type} {f : Configuration → α} {x : α} {ms : List Yaml.Mapping}
    (supported : o.source.schema.supports o.language = true)
    (written : Text.isBlankText text = false) (mapped : Configuration.mappings text = .ok ms)
    (computed : ((Style.resolve o.source (Text.lower o.fallbackStyle) o.language).outcome >>=
      fun ambient => (Configuration.ofMappings o.language { ambient with language := o.language }
        ms).outcome).toOption.map f = some x) :
    ∃ c, Accepts text o c ∧ f c = x := by
  obtain ⟨c, ok, same⟩ := Option.map_eq_some_iff.mp computed
  obtain ⟨ambient, resolved, read⟩ :=
    Outcome.bind_eq_ok_iff.mp (Outcome.toOption_eq_some_iff.mp ok)
  refine ⟨c, ⟨ambient, resolved, ?_⟩, same⟩
  unfold Configuration.read
  rw [if_pos supported, if_pos (Style.tags_resolve resolved).1]
  dsimp only
  rw [written, if_neg Bool.false_ne_true, Traced.outcome_bind, Traced.outcome_monadLift, mapped,
    Outcome.ok_bind, read]

/-- **An accepted text migrates with the style that the target offers**, and fails for want of a
style if it offers none. -/
theorem migrate_of_accepts (supported : o.target.schema.supports o.language = true)
    (accepts : Accepts text o c) :
    match o.target.offered? (saidStyle (Text.lower o.fallbackStyle) c.basedOn)
        (Text.lower o.fallbackStyle) with
    | some style => ∃ m, (migrate text o).outcome = .ok m ∧ m.style = style
    | none => o.target < o.source ∧ ∃ style version names,
        (migrate text o).outcome = .error (.incompatibleStyle style version names) := by
  obtain ⟨ambient, resolved, accepted⟩ := accepts
  obtain ⟨start, -, said, -, sound, same⟩ := migrate_of_accepted supported resolved accepted
  have supports := (Configuration.sound_of_read (Style.native_of_resolve resolved).1 accepted).1
  have arrives := walk_of_sound (Text.lower o.fallbackStyle) sound supports supported
  rw [same, ← said]
  split
  · rename_i style offered
    rw [offered] at arrives
    obtain ⟨top, walked, arrived, style_top⟩ := arrives
    obtain ⟨m, delivered, style_m⟩ := deliver_isOk c.record.inheritsParent arrived supported
    exact ⟨m, by rw [walked, Outcome.ok_bind, delivered], style_m.trans style_top⟩
  · rename_i offered
    rw [offered] at arrives
    obtain ⟨style, version, names, stuck⟩ := arrives
    exact ⟨Version.lt_of_offered?_eq_none sound.known offered, style, version, names,
      by rw [stuck, Outcome.error_bind]⟩

/-- **A migration succeeds** where the target knows the language, the source accepts the text, and
the target offers a style. -/
theorem migrate_isOk_iff : (∃ m, (migrate text o).outcome = .ok m) ↔
    o.target.schema.supports o.language = true ∧ ∃ c, Accepts text o c ∧
      o.target.offered? (saidStyle (Text.lower o.fallbackStyle) c.basedOn)
        (Text.lower o.fallbackStyle) ≠ none := by
  constructor
  · rintro ⟨m, migrated⟩
    obtain ⟨course, -⟩ := exists_course migrated
    have accepts : Accepts text o course.configuration :=
      ⟨course.ambient, course.resolved, course.accepted⟩
    refine ⟨course.supported, course.configuration, accepts, fun none => ?_⟩
    have outcome := migrate_of_accepts course.supported accepts
    rw [none] at outcome
    obtain ⟨-, _, _, _, failed⟩ := outcome
    rw [migrated] at failed
    cases failed
  · rintro ⟨supported, c, accepts, offered⟩
    obtain ⟨style, offered⟩ := Option.ne_none_iff_exists'.mp offered
    have outcome := migrate_of_accepts supported accepts
    rw [offered] at outcome
    obtain ⟨m, migrated, -⟩ := outcome
    exact ⟨m, migrated⟩

/-- Whether a version is compatible with a text is always answered. -/
theorem outcome_isCompatible (text : String) (language : Language) (v : Version)
    (skipSame : Bool) : ∃ answer, (isCompatible text language v).outcome = .ok answer ∧
      (answer = true ↔
        ∃ c, Accepts text ⟨v, v, language, defaultFallbackStyle, skipSame⟩ c) := by
  unfold isCompatible Accepts
  have lowered : Text.lower defaultFallbackStyle = defaultFallbackStyle := by decide
  simp only [Traced.outcome_bind, Traced.outcome_attempt, Outcome.ok_bind, lowered]
  cases Style.resolve v defaultFallbackStyle language |>.outcome with
  | error e => exact ⟨false, rfl, by simp⟩
  | ok ambient =>
    rw [Outcome.ok_bind]
    cases read : (Configuration.read v text language ambient).outcome with
    | error e => exact ⟨false, rfl, by simp [read]⟩
    | ok c => exact ⟨true, rfl, by simp [read]⟩

/-- **The versions that read a text are those that migrate it to themselves**, with the default
fallback. -/
theorem mem_compatibleVersions_iff (text : String) (language : Language) (skipSame : Bool) :
    ∃ versions, (compatibleVersions text language).outcome = .ok versions ∧
      ∀ v, v ∈ versions ↔
        ∃ m, (migrate text ⟨v, v, language, defaultFallbackStyle, skipSame⟩).outcome = .ok m := by
  choose answer answered compatible using fun v => outcome_isCompatible text language v skipSame
  refine ⟨Version.all.filter answer, ?_, fun v => ?_⟩
  · unfold compatibleVersions
    rw [Traced.outcome_filterM, Outcome.filterM_eq_filter fun v _ => answered v]
  rw [List.mem_filter, and_iff_right v.mem_all, compatible, migrate_isOk_iff]
  constructor
  · rintro ⟨c, accepts⟩
    obtain ⟨ambient, resolved, accepted⟩ := accepts
    obtain ⟨native, -, -, -, _, found, -⟩ := Style.native_of_resolve resolved
    obtain ⟨supported, native, version, -, based, -⟩ := Configuration.sound_of_read native accepted
    refine ⟨supported, c, ⟨ambient, resolved, accepted⟩, ?_⟩
    -- A text is based on a style of its own version, so the walk of no steps keeps it.
    have known := chosenStyle_eq based (version ▸ Version.lower_mem_of_style? found)
    rw [known.1, StyleRecord.schema, version] at known
    rw [Version.offered?_of_mem known.2]
    exact Option.some_ne_none _
  · rintro ⟨-, c, accepts, -⟩
    exact ⟨c, accepts⟩

/-- A migration fails exactly where something stands in its way. -/
theorem migrate_error_iff : (∃ e, (migrate text o).outcome = .error e) ↔
    o.source.schema.supports o.language = false ∨ o.target.schema.supports o.language = false ∨
    Text.lower o.fallbackStyle ∉ o.source.schema.styleNames ∨ Rejects text o ∨
    ∃ c, Accepts text o c ∧
      saidStyle (Text.lower o.fallbackStyle) c.basedOn ∉ o.target.schema.styleNames ∧
      Text.lower o.fallbackStyle ∉ o.target.schema.styleNames := by
  constructor
  · rintro ⟨e, failed⟩
    by_contra clear
    simp only [not_or, Bool.not_eq_false, not_not] at clear
    obtain ⟨supports, supported, known, clean, styled⟩ := clear
    obtain ⟨c, accepts⟩ := (accepts_or_rejects text supports known).resolve_right clean
    obtain ⟨m, migrated⟩ := migrate_isOk_iff.mpr ⟨supported, c, accepts, fun none =>
      styled ⟨c, accepts, Version.offered?_eq_none_iff.mp none⟩⟩
    rw [failed] at migrated
    cases migrated
  · intro obstacle
    cases outcome : (migrate text o).outcome with
    | error e => exact ⟨e, rfl⟩
    | ok m =>
      obtain ⟨supported, c, accepts, offered⟩ := migrate_isOk_iff.mp ⟨m, outcome⟩
      obtain ⟨ambient, resolved, -⟩ := id accepts
      obtain ⟨supports, known⟩ := resolve_isOk_iff.mp ⟨ambient, resolved⟩
      rcases obstacle with unsupported | unsupported | unknown | rejects | ⟨c', accepts', unstyled⟩
      · simp [supports] at unsupported
      · simp [supported] at unsupported
      · exact absurd known unknown
      · exact absurd rejects accepts.not_rejects
      · obtain rfl := accepts.unique accepts'
        exact absurd (Version.offered?_eq_none_iff.mpr unstyled) offered

/-- A migration that succeeds keeps the style that the text says if the target has it, and else
takes the fallback. -/
theorem style_of_migrate (migrated : (migrate text o).outcome = .ok m) :
    ∃ c, Accepts text o c ∧ o.target.offered? (saidStyle (Text.lower o.fallbackStyle) c.basedOn)
      (Text.lower o.fallbackStyle) = some m.style := by
  obtain ⟨supported, c, accepts, -⟩ := migrate_isOk_iff.mp ⟨m, migrated⟩
  refine ⟨c, accepts, ?_⟩
  have outcome := migrate_of_accepts supported accepts
  rw [migrated] at outcome
  split at outcome
  · rename_i style offered
    obtain ⟨m', same, rfl⟩ := outcome
    rw [offered, ← Except.ok.inj same]
  · obtain ⟨-, _, _, _, failed⟩ := outcome
    cases failed

/-- **When a migration fails**: where the source or the target does not support the language, where
the source lacks the fallback or rejects the text, and where the target lacks both the style that
the text says and the fallback. Then only a way down fails, and for want of a style. Otherwise the
migration keeps the style that the text says if the target has it, and else takes the fallback.
Neither presets nor steps fail, and the versions that read a text are those that migrate it to
themselves. -/
theorem migrate_fails_iff (text : String) (o : Options) :
    let fallback := Text.lower o.fallbackStyle
    let names := o.target.schema.styleNames
    ((∃ e, (migrate text o).outcome = .error e) ↔
      o.source.schema.supports o.language = false ∨ o.target.schema.supports o.language = false ∨
      fallback ∉ o.source.schema.styleNames ∨ Rejects text o ∨
      ∃ c, Accepts text o c ∧ saidStyle fallback c.basedOn ∉ names ∧ fallback ∉ names) ∧
    (∀ c, Accepts text o c → o.target.schema.supports o.language = true →
      saidStyle fallback c.basedOn ∉ names → fallback ∉ names →
      o.target < o.source ∧ ∃ style version names,
        (migrate text o).outcome = .error (.incompatibleStyle style version names)) ∧
    (∀ m, (migrate text o).outcome = .ok m → ∃ c, Accepts text o c ∧
      m.style =
        if saidStyle fallback c.basedOn ∈ names then saidStyle fallback c.basedOn else fallback) ∧
    (∀ r : StyleRecord, r.Native → ∃ expanded collapsed,
      r.expand = .ok expanded ∧ expanded.collapse.outcome = .ok collapsed) ∧
    (∀ s : Step, s.record.version.Adjacent s.after.version → s.after.WellFormed →
      ∃ p, s.run.outcome = .ok p) ∧
    ∃ versions, (compatibleVersions text o.language).outcome = .ok versions ∧
      ∀ v, v ∈ versions ↔ ∃ m,
        (migrate text ⟨v, v, o.language, defaultFallbackStyle, o.skipSame⟩).outcome = .ok m := by
  intro fallback names
  refine ⟨?_, ?_, ?_, ?_, ?_, mem_compatibleVersions_iff text o.language o.skipSame⟩
  · exact migrate_error_iff
  · intro c accepts supported missing missing'
    have outcome := migrate_of_accepts supported accepts
    rwa [Version.offered?_eq_none_iff.mpr ⟨missing, missing'⟩] at outcome
  · intro m migrated
    obtain ⟨c, accepts, offered⟩ := style_of_migrate migrated
    refine ⟨c, accepts, ?_⟩
    unfold Version.offered? at offered
    split at offered
    · rename_i known
      exact (Option.some.inj offered).symm.trans (if_pos known).symm
    · rename_i missing
      split at offered
      · exact (Option.some.inj offered).symm.trans (if_neg missing).symm
      · cases offered
  · intro r native
    obtain ⟨expanded, expand, native', -⟩ := expand_isOk native
    obtain ⟨collapsed, collapse, -⟩ := collapse_isOk native'
    exact ⟨expanded, collapsed, expand, collapse⟩
  · exact fun s adjacent wellFormed => ⟨_, Step.outcome_run adjacent wellFormed⟩

/-- A fallback that the source does not have stands in the way of every text. -/
theorem migrate_fails_unknownFallback :
    ∃ e, (migrate "ColumnLimit: 100\n" ⟨.v3_4, .v16, .cpp, "Microsoft", true⟩).outcome =
      .error e :=
  (migrate_fails_iff _ _).1.mpr (.inr (.inr (.inl (by decide))))

end Migration

end FormatStyle
