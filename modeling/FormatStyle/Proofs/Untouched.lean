import FormatStyle.Proofs.Reports

/-! # Migrating a style as it is

A style settles to itself (`Migration.settled_of_resolve`), so a configuration in which nothing was
changed starts its walk as its style (`Migration.Course.start_of_untouched`), and the first step
down loses nothing. Later steps compare what was carried with the style of the version before them,
and defaults move between versions. So such a migration loses something exactly when it passes a
version on its way in which a default that has no place further down was another one
(`Migration.losses_eq_nil_iff_of_untouched`).
-/

namespace FormatStyle

open StyleRecord

/-! ## Styles settle to themselves -/

/-- **A preset that stays with the user**: if a style leaves its target to the user, no selected
preset writes the target, and no variant has the content of it. -/
def NamedStyle.settles (style : NamedStyle) (v : Version) (language : Language) (preset : Preset) :
    Bool :=
  let r := style.sketch v language
  r.get? preset.selector != some (.choice preset.custom) ||
    (v.schema.presets.all fun other => !(Schema.writtenBy other).contains preset.target ||
        r.get? other.selector == some (.choice other.custom)) &&
      preset.variants.all fun variant => preset.content? v variant != r.get? preset.target

private theorem Version.styles_settle {v : Version} {style : NamedStyle} {language : Language}
    {preset : Preset} (listed : style ∈ v.schema.styles) (spoken : language ∈ v.schema.languages)
    (member : preset ∈ v.schema.presets) : style.settles v language preset = true := by
  have checked : ∀ v ∈ Version.all, ∀ style ∈ v.schema.styles, ∀ language ∈ v.schema.languages,
      ∀ preset ∈ v.schema.presets, style.settles v language preset = true := by
    decide +kernel
  exact checked v v.mem_all style listed language spoken preset member

namespace Migration

variable {text : String} {o : Options} {c : Configuration} {m : Migration} {language : Language}
  {fallback name : String} {v target : Version} {w top : Walk} {s : Step} {t : Transfer}

/-- **A style settles to itself**, with its presets written out. -/
theorem settled_of_resolve {profile : StyleRecord}
    (resolved : (Style.resolve v name language).outcome = .ok profile) :
    ∃ expanded, (expandedStyle v name language).outcome = .ok expanded ∧
      settled profile = .ok expanded := by
  obtain ⟨native, version, -⟩ := Style.native_of_resolve resolved
  obtain ⟨spoken, style, listed, -, sketched⟩ := Style.eq_sketch_of_resolve resolved
  obtain ⟨expanded, expand, native', same, frame⟩ := expand_isOk native
  have schema : profile.schema = v.schema := by rw [StyleRecord.schema, version]
  have collapses : expanded.collapse.outcome = .ok expanded := by
    refine collapse_self native'.wellFormed fun preset member custom variant variant_listed => ?_
    rw [same.schema] at member
    -- The presets of the style itself say the same, because expansion writes no selector.
    rw [frame _ (selector_notMem_writes member)] at custom
    have settles := Version.styles_settle listed spoken (schema ▸ member)
    unfold NamedStyle.settles at settles
    rw [← sketched] at settles
    simp only [custom, bne_self_eq_false, Bool.false_or, Bool.and_eq_true] at settles
    have target : expanded.get? preset.target = profile.get? preset.target := by
      refine get?_expand_of_unselected native.wellFormed expand member ?_
        (List.mem_cons_of_mem _ List.mem_cons_self)
      simp [Preset.selected?, custom, Value.choice?]
    have apart := settles.2
    have differs := List.all_eq_true.mp apart variant variant_listed
    rw [target, same.1, version]
    exact bne_iff_ne.mp differs
  refine ⟨expanded, ?_, by rw [settled, expand, Outcome.ok_bind, collapses]⟩
  unfold expandedStyle
  rw [Traced.outcome_bind, resolved, Outcome.ok_bind, Traced.outcome_monadLift, expand]

/-! ## Nothing changed at the source -/

/-- **A configuration in which nothing was changed**: it does not inherit, and has the values of the
style that it says. -/
def Untouched (o : Options) (c : Configuration) : Prop :=
  c.record.inheritsParent = false ∧ ∃ profile,
    (Style.resolve o.source (saidStyle (Text.lower o.fallbackStyle) c.basedOn) o.language).outcome =
      .ok profile ∧ c.record.sameValues profile = true

/-- **Where nothing was changed, a walk starts as the style.** -/
theorem Course.start_of_untouched (course : Course text o)
    (untouched : Untouched o course.configuration) : course.start.record = course.start.before := by
  obtain ⟨plain, profile, resolved, same⟩ := untouched
  obtain ⟨-, version, tag, plain', -⟩ := Style.native_of_resolve resolved
  obtain ⟨-, -, version', tag', -⟩ := Configuration.sound_of_read
    (Style.native_of_resolve course.resolved).1 course.accepted
  have whole : course.configuration.record = profile := by
    change StyleRecord.mk _ _ _ _ = StyleRecord.mk _ _ _ _
    rw [version, version', tag, tag', plain, plain', ((sameValues_iff _ _).mp same).2]
  obtain ⟨expanded, styled, settles⟩ := settled_of_resolve resolved
  rw [← whole, course.settles] at settles
  have styled' := course.sound.styled
  rw [course.chosen, styled] at styled'
  exact (Except.ok.inj settles).trans (Except.ok.inj styled')

/-- What is delivered without inheritance has lost what the steps of its walk lose. -/
theorem losses_eq_nil_iff (course : Course text o)
    (delivered : deliver o course.configuration.record.inheritsParent course.top = .ok m)
    (plain : course.configuration.record.inheritsParent = false) :
    m.losses = [] ↔ ∀ s, Takes o.language (Text.lower o.fallbackStyle) o.target o.source
      course.start s → s.losses = [] := by
  have losses (loss : Loss) : loss ∈ m.losses ↔ ∃ s, Takes o.language (Text.lower o.fallbackStyle)
      o.target o.source course.start s ∧ loss ∈ s.losses := by
    rw [(deliver_eq_ok delivered).2.2.1, plain]
    refine (mem_losses_iff course.walked course.sound course.supports course.supported).trans ?_
    rw [course.lossless]
    simp only [List.not_mem_nil, false_or]
  simp only [List.eq_nil_iff_forall_not_mem, losses, not_exists, not_and]
  exact ⟨fun none s takes loss => none loss s takes, fun none loss s takes => none s takes loss⟩

/-- **A step down from a style as it is loses nothing.** -/
theorem Step.losses_of_unchanged {a b : Version} (next : a.next? = some b)
    (between : s.Between b a) (same : s.record = s.before) : s.losses = [] := by
  refine List.eq_nil_iff_forall_not_mem.mpr fun loss made => ?_
  obtain ⟨-, differs, -⟩ := (exists_loss_iff next between).mp ⟨loss, made, rfl⟩
  exact Step.changed_iff.mp differs (by rw [same])

/-! ## Defaults that move on the way -/

/-- A steady field is passed on. -/
theorem Step.passesOn_of_steady {a b : Version} (between : s.Between a b)
    (steady : a.steady b name = true) : s.PassesOn name := by
  obtain ⟨field, other, value, found, found', same, unread, unwritten, holds⟩ :=
    between.of_steady steady
  refine ⟨_, rename_mem_moves found found' unread unwritten, List.mem_singleton_self _, ?_⟩
  rw [keeps, renamed?_of_sameKind between.wellFormed found found' same holds]
  rfl

/-- What a transfer assigns, the style of the next version has already. -/
def Step.keepsDefaults (s : Step) (t : Transfer) : Bool :=
  (s.assigned t).all fun write => s.after.get? write.1 == some write.2

/-- A transfer assigns to a field something else than the style of the next version has. -/
def Step.movesDefault (s : Step) (t : Transfer) (name : String) : Bool :=
  (s.assigned t).any fun write => write.1 == name && s.after.get? name != some write.2

/-- **The step between two styles as they are**, from the second highest version down. -/
def stepBetween (style style' : NamedStyle) : Step :=
  ⟨style.sketch .v12 .cpp, style.sketch .v12 .cpp, style'.sketch .v3_6 .cpp⟩

/-- The moves of that step, and moves of more fields to themselves. -/
def stepMoves : List Transfer :=
  transfers .v12 .v3_6 ++ Version.v3_6.schema.names.map fun name => .rename name name []

/-- The field of which a default moves. -/
abbrev movedField : String := "AllowShortFunctionsOnASingleLine"

/-- The defaults of most styles do not move where the lowest version may have no place for them,
and one default of the two other styles does. -/
theorem defaults_tables :
    (∀ t ∈ stepMoves, t.targets.all (Version.steady .v3_6 .v3_4) = true ∨
      ∀ name ∈ Version.v12.schema.styleNames, name ∈ ["microsoft", "mozilla"] ∨
        ((Version.v12.schema.style? name).any fun style =>
          (Version.v3_6.schema.style? name).any fun style' =>
            (stepBetween style style').keepsDefaults t) = true) ∧
    (∀ name ∈ ["microsoft", "mozilla"], ∀ name' ∈ Version.v3_6.schema.styleNames,
      (name ∈ Version.v3_6.schema.styleNames → name' = name) →
        ((Version.v12.schema.style? name).any fun style =>
          (Version.v3_6.schema.style? name').any fun style' => (transfers .v12 .v3_6).any fun t =>
            (stepBetween style style').movesDefault t movedField) = true) ∧
    (∀ name ∈ Version.v12.schema.styleNames, name ∈ ["microsoft", "mozilla"] ∨
      name ∈ Version.v3_6.schema.styleNames) ∧
    (Version.v3_6.schema.field? movedField).isSome = true ∧
    Version.v3_4.schema.field? movedField = none ∧
    movedField ∉ (transfers .v3_6 .v3_4).flatMap Transfer.sources ∧
    ∀ name ∈ Version.v12.schema.presetWrites, Version.v3_6.schema.field? name = none ∧
      name ∉ (transfers .v12 .v3_6).flatMap Transfer.sources := by
  decide +kernel

/-- **A step from a style as it is assigns what it assigns between the sketches.** -/
theorem exists_stepBetween {said kept : String}
    (styled : (expandedStyle .v12 said .cpp).outcome = .ok s.record)
    (styled' : (expandedStyle .v3_6 kept .cpp).outcome = .ok s.after) :
    ∃ style style', Version.v12.schema.style? said = some style ∧
      Version.v3_6.schema.style? kept = some style' ∧
      (∀ t ∈ s.moves, t ∈ stepMoves ∧ (stepBetween style style').assigned t = s.assigned t) ∧
      ∀ name, (stepBetween style style').after.get? name = s.after.get? name := by
  obtain ⟨-, version, -⟩ := native_of_expandedStyle styled
  obtain ⟨-, version', -⟩ := native_of_expandedStyle styled'
  obtain ⟨-, style, -, found, holds⟩ := get?_of_expandedStyle styled
  obtain ⟨-, style', -, found', holds'⟩ := get?_of_expandedStyle styled'
  have after : ∀ name, (stepBetween style style').after.get? name = s.after.get? name :=
    fun name => (holds' name List.not_mem_nil).symm
  refine ⟨style, style', found, found', fun t member => ?_, after⟩
  rw [Step.moves, version, version'] at member
  -- No move reads what presets write.
  have unwritten : ∀ name ∈ Version.v12.schema.presetWrites, name ∉ t.sources := by
    intro name written
    obtain ⟨ends, unread⟩ := defaults_tables.2.2.2.2.2.2 name written
    exact Version.notMem_sources_of_ends ends unread member
  refine ⟨?_, Step.assigned_congr version.symm version'.symm (fun name reads => ?_)
    fun name _ => after name⟩
  · rcases List.mem_append.mp member with listed | listed
    · exact List.mem_append_left _ listed
    · obtain ⟨name, shared, rfl⟩ := List.mem_map.mp listed
      exact List.mem_append_right _ (List.mem_map_of_mem (Version.mem_sharedNames.mp shared).2.1)
  · exact (holds name fun written => unwritten name written reads).symm

/-- **A default that stays**: of most styles the step holds a field that is not steady further down
as the style of the next version does. -/
theorem Step.get?_next_of_style {said name : String} (between : s.Between .v12 .v3_6)
    (known : said ∈ Version.v12.schema.styleNames) (ordinary : said ∉ ["microsoft", "mozilla"])
    (styled : (expandedStyle .v12 said .cpp).outcome = .ok s.record)
    (styled' : (expandedStyle .v3_6 said .cpp).outcome = .ok s.after)
    (loose : Version.v3_6.steady .v3_4 name = false) : s.next.get? name = s.after.get? name := by
  obtain ⟨style, style', found, found', same, after⟩ := exists_stepBetween styled styled'
  by_cases unassigned : ∀ t ∈ s.moves, name ∉ (s.assigned t).map Prod.fst
  · exact get?_next_of_unassigned unassigned
  simp only [not_forall, not_not] at unassigned
  obtain ⟨t, member, named⟩ := unassigned
  obtain ⟨⟨_, value⟩, assigned, rfl⟩ := List.mem_map.mp named
  obtain ⟨listed, congr⟩ := same t member
  rcases defaults_tables.1 t listed with steady | keeps
  · rw [List.all_eq_true.mp steady _ (assigned_sublist.subset named)] at loose
    cases loose
  · have keeps := (keeps said known).resolve_left ordinary
    rw [found, found', Option.any_some, Option.any_some, keepsDefaults, congr] at keeps
    have has := beq_iff_eq.mp (List.all_eq_true.mp keeps _ assigned)
    rw [get?_next_of_assigned (between.adjacent (.inr rfl)) between.after_wellFormed member assigned,
      ← has, after]

/-- **A default that moves**: of two styles the step holds a field otherwise than the style of the
next version does. -/
theorem Step.get?_next_ne_style {said kept : String} (between : s.Between .v12 .v3_6)
    (moving : said ∈ ["microsoft", "mozilla"])
    (offered : ∃ fallback, Version.v3_6.offered? said fallback = some kept)
    (styled : (expandedStyle .v12 said .cpp).outcome = .ok s.record)
    (styled' : (expandedStyle .v3_6 kept .cpp).outcome = .ok s.after) :
    s.next.get? movedField ≠ s.after.get? movedField := by
  obtain ⟨style, style', found, found', same, after⟩ := exists_stepBetween styled styled'
  obtain ⟨fallback, offered⟩ := offered
  have moves := defaults_tables.2.1 said moving kept (Version.mem_of_offered? offered) fun lasts => by
    rw [Version.offered?_of_mem lasts] at offered
    exact (Option.some.inj offered).symm
  rw [found, found', Option.any_some, Option.any_some] at moves
  obtain ⟨t, listed, moves⟩ := List.any_eq_true.mp moves
  have member : t ∈ s.moves := by
    rw [between.moves]
    exact List.mem_append_left _ listed
  rw [movesDefault, (same t member).2] at moves
  obtain ⟨⟨name, value⟩, assigned, differs⟩ := List.any_eq_true.mp moves
  obtain ⟨named, differs⟩ := Bool.and_eq_true_iff.mp differs
  obtain rfl := beq_iff_eq.mp named
  rw [get?_next_of_assigned (between.adjacent (.inr rfl)) between.after_wellFormed member assigned,
    ← after]
  exact (bne_iff_ne.mp differs).symm

/-! ## What a style loses on its way -/

/-- **Upwards nothing is lost.** -/
theorem Course.losses_of_le (course : Course text o) (le : o.source ≤ o.target) :
    course.top.losses = [] := by
  obtain ⟨top, after, walked, -⟩ := exists_walk_up (Text.lower o.fallbackStyle)
    course.start.before course.start.losses le course.supports course.sound.known
    course.sound.native course.sound.version
  have arrived := Except.ok.inj (course.walked.symm.trans walked)
  exact (congrArg Walk.losses arrived).trans course.lossless

theorem losses_of_le (course : Course text o)
    (delivered : deliver o course.configuration.record.inheritsParent course.top = .ok m)
    (plain : course.configuration.record.inheritsParent = false) (le : o.source ≤ o.target) :
    m.losses = [] := by
  rw [(deliver_eq_ok delivered).2.2.1, plain]
  exact course.losses_of_le le

/-- **To the next lower version a style loses nothing.** -/
theorem losses_of_next (course : Course text o) (same : course.start.record = course.start.before)
    (next : o.target.next? = some o.source)
    (takes : Takes o.language (Text.lower o.fallbackStyle) o.target o.source course.start s) :
    s.losses = [] := by
  obtain ⟨w, first, -⟩ := exists_advanced (Version.stepTowards_of_next next (Nat.le_refl _))
    course.walked course.sound course.supports course.supported
  obtain rfl := ((first.takes s).mp takes).resolve_right fun further => further.apart rfl
  exact Step.losses_of_unchanged next (course.sound.between first.sound) same

/-- **A style of the highest version loses a flag** on its way below the second highest one. -/
theorem exists_loss_of_requires (course : Course text o)
    (same : course.start.record = course.start.before) (source : o.source = .v16)
    (low : o.target ≤ .v3_6) :
    ∃ s, Takes o.language (Text.lower o.fallbackStyle) o.target o.source course.start s ∧
      s.losses ≠ [] := by
  have styled := course.sound.styled
  have walked := course.walked
  have sound := course.sound
  have supports := course.supports
  rw [source] at styled walked sound supports ⊢
  have on := requiresClause_on styled
  rw [← same] at on
  obtain ⟨-, s, -, takes, -, -, between, on, off, stuck, -⟩ :=
    exists_requires_steps low walked sound supports course.supported on
  obtain ⟨loss, made, -⟩ := (Step.exists_loss_iff (a := .v3_6) rfl between).mpr
    ⟨by rw [on]; rfl, Step.changed_iff.mpr (by rw [on, off]; decide), stuck⟩
  exact ⟨s, takes, List.ne_nil_of_mem made⟩

/-- **The step to the lowest version loses something** behind a step from a style as it is exactly
if a default of that style moves. -/
theorem Step.losses_eq_nil_iff_of_style {s' : Step} {said kept : String}
    (between : s.Between .v12 .v3_6) (between' : s'.Between .v3_6 .v3_4)
    (follows : s'.record = s.next) (compared : s'.before = s.after)
    (known : said ∈ Version.v12.schema.styleNames)
    (offered : Version.v3_6.offered? said fallback = some kept)
    (styled : (expandedStyle .v12 said .cpp).outcome = .ok s.record)
    (styled' : (expandedStyle .v3_6 kept .cpp).outcome = .ok s.after) :
    s'.losses = [] ↔ said ∉ ["microsoft", "mozilla"] := by
  constructor
  · intro none moving
    have differs := get?_next_ne_style between moving ⟨_, offered⟩ styled styled'
    rw [← follows, ← compared] at differs
    obtain ⟨-, -, -, starts, ends, unread, -⟩ := defaults_tables
    obtain ⟨field, found⟩ := Option.isSome_iff_exists.mp starts
    obtain ⟨value, holds, -⟩ :=
      (wellFormed_iff.mp between'.wellFormed).get? (between'.schema ▸ found)
    obtain ⟨loss, made, -⟩ := (exists_loss_iff (a := .v3_4) rfl between').mpr
      ⟨by rw [holds]; rfl, changed_iff.mpr differs, by
        rintro ⟨t, listed, reads, -⟩
        rw [between'.moves] at listed
        exact Version.notMem_sources_of_ends ends unread listed reads⟩
    rw [none] at made
    exact List.not_mem_nil made
  · intro ordinary
    refine List.eq_nil_iff_forall_not_mem.mpr fun loss made => ?_
    obtain ⟨-, differs, stuck⟩ := (exists_loss_iff (a := .v3_4) rfl between').mp ⟨loss, made, rfl⟩
    have lasts := (defaults_tables.2.2.1 _ known).resolve_left ordinary
    obtain rfl := Option.some.inj ((Version.offered?_of_mem lasts).symm.trans offered)
    cases steady : Version.v3_6.steady .v3_4 loss.name with
    | true => exact stuck (passesOn_of_steady between' steady)
    | false =>
      have stays := get?_next_of_style between known ordinary styled styled' steady
      rw [← follows, ← compared] at stays
      exact changed_iff.mp differs stays

/-- **From the second highest version to the lowest** two styles lose something. -/
theorem losses_to_lowest (course : Course text o)
    (same : course.start.record = course.start.before) (source : o.source = .v12)
    (target : o.target = .v3_4) :
    (∀ s, Takes o.language (Text.lower o.fallbackStyle) o.target o.source course.start s →
      s.losses = []) ↔ course.start.style ∉ ["microsoft", "mozilla"] := by
  have language : o.language = .cpp := Version.language_of_lowest (target ▸ course.supported)
  have way : o.source.stepTowards o.target = some .v3_6 ∧
      Version.stepTowards .v3_6 o.target = some .v3_4 := by
    rw [source, target]
    decide
  obtain ⟨w₁, to₁, walked₁⟩ :=
    exists_advanced way.1 course.walked course.sound course.supports course.supported
  obtain ⟨w₂, to₂, -⟩ := exists_advanced way.2 walked₁ to₁.sound
    (Version.supports_towards way.1 course.supports course.supported) course.supported
  have between₁ : (course.start.step w₁.before).Between .v12 .v3_6 :=
    source ▸ course.sound.between to₁.sound
  have first : (course.start.step w₁.before).losses = [] :=
    Step.losses_of_unchanged (a := .v3_6) rfl between₁ same
  have second : (∀ s, Takes o.language (Text.lower o.fallbackStyle) o.target o.source course.start s →
      s.losses = []) ↔ (w₁.step w₂.before).losses = [] := by
    refine ⟨fun none => none _ ((to₁.takes _).mpr (.inr ((to₂.takes _).mpr (.inl rfl)))),
      fun none s takes => ?_⟩
    rcases (to₁.takes s).mp takes with rfl | later
    · exact first
    · rcases (to₂.takes s).mp later with rfl | further
      · exact none
      · exact absurd target.symm further.apart
  rw [second]
  refine Step.losses_eq_nil_iff_of_style between₁ (to₁.sound.between to₂.sound) to₁.record rfl
    (source ▸ course.sound.known) to₁.offered ?_ (language ▸ to₁.sound.styled)
  rw [← source, ← language, course.sound.styled]
  exact congrArg _ same.symm

/-- **Where a default moves on the way down** that has no place further on: below the second highest
version for every style of the highest one, and in the lowest version for two styles of the second
highest one. -/
def DefaultMoves (source target : Version) (style : String) : Prop :=
  source = .v16 ∧ target ≤ .v3_6 ∨
    source = .v12 ∧ target = .v3_4 ∧ style ∈ ["microsoft", "mozilla"]

/-- **A migration in which nothing was changed loses something exactly where a default moves.** -/
theorem losses_eq_nil_iff_of_untouched (migrated : (migrate text o).outcome = .ok m)
    (accepts : Accepts text o c) (untouched : Untouched o c) :
    m.losses = [] ↔
      ¬ DefaultMoves o.source o.target (saidStyle (Text.lower o.fallbackStyle) c.basedOn) := by
  obtain ⟨course, rfl, delivered⟩ := exists_course_of_accepts accepts migrated
  have same := course.start_of_untouched untouched
  have none_iff := losses_eq_nil_iff course delivered untouched.1
  rw [← course.chosen]
  have ways : o.source ≤ o.target ∨ o.target.next? = some o.source ∨
      (o.source = .v16 ∧ o.target ≤ .v3_6) ∨ (o.source = .v12 ∧ o.target = .v3_4) := by
    cases o.source <;> cases o.target <;> decide
  rcases ways with le | next | ⟨source, low⟩ | ⟨source, target⟩
  · refine iff_of_true (losses_of_le course delivered untouched.1 le) ?_
    rintro (⟨source, low⟩ | ⟨source, target, -⟩)
    · rw [source] at le
      exact absurd (Nat.le_trans le low) (by decide)
    · rw [source, target] at le
      exact absurd le (by decide)
  · refine iff_of_true (none_iff.mpr fun s takes => losses_of_next course same next takes) ?_
    rintro (⟨source, low⟩ | ⟨source, target, -⟩)
    · rw [source] at next
      revert next low
      cases o.target <;> decide
    · rw [source, target] at next
      cases next
  · refine iff_of_false (fun none => ?_) (not_not.mpr (.inl ⟨source, low⟩))
    obtain ⟨s, takes, lost⟩ := exists_loss_of_requires course same source low
    exact lost (none_iff.mp none s takes)
  · rw [none_iff, losses_to_lowest course same source target]
    refine not_congr ⟨fun moving => .inr ⟨source, target, moving⟩, ?_⟩
    rintro (⟨source', -⟩ | ⟨-, -, moving⟩)
    · rw [source] at source'
      cases source'
    · exact moving

/-- A text that says nothing but its style, read. -/
private theorem mappings_llvm :
    Configuration.mappings "BasedOnStyle: llvm\n" =
      .ok [[(.str "BasedOnStyle", .str "llvm")]] :=
  Configuration.mappings_of_entries [[("BasedOnStyle", "llvm")]] (by decide) rfl rfl (by decide)

/-- The text is accepted, and nothing is changed in it. -/
theorem untouched_llvm {source : Version} (target : Version)
    (listed : source ∈ [Version.v3_6, Version.v16]) :
    ∃ c, Accepts "BasedOnStyle: llvm\n" ⟨source, target, .cpp, "llvm", true⟩ c ∧
      Untouched ⟨source, target, .cpp, "llvm", true⟩ c ∧ c.basedOn = some "llvm" := by
  have computed : ∀ v ∈ [Version.v3_6, Version.v16],
      ((Style.resolve v (Text.lower "llvm") .cpp).outcome >>= fun ambient =>
        (Configuration.ofMappings .cpp { ambient with language := .cpp }
          [[(.str "BasedOnStyle", .str "llvm")]]).outcome).toOption.map
        (fun c => (c.basedOn, c.record.inheritsParent,
          (Style.resolve v "llvm" .cpp).outcome.toOption.any c.record.sameValues)) =
        some (some "llvm", false, true) := by
    decide +kernel
  have supported : source.schema.supports .cpp = true := by
    revert listed
    cases source <;> decide
  obtain ⟨c, accepts, said⟩ :=
    accepts_of_mappings (o := ⟨source, target, .cpp, "llvm", true⟩) supported (by decide)
      mappings_llvm (computed source listed)
  obtain ⟨based, rest⟩ := Prod.mk.inj said
  obtain ⟨plain, same⟩ := Prod.mk.inj rest
  obtain ⟨profile, resolved, same⟩ := (Option.any_eq_true _ _).mp same
  have lowered : saidStyle (Text.lower "llvm") (some "llvm") = "llvm" := by decide
  refine ⟨c, accepts, ⟨plain, profile, ?_, same⟩, based⟩
  rw [based]
  change (Style.resolve source (saidStyle (Text.lower "llvm") (some "llvm")) .cpp).outcome = _
  rw [lowered]
  exact Outcome.toOption_eq_some_iff.mp resolved

/-- A style as it is goes down to the lowest version without a loss. -/
theorem losses_untouched_llvm :
    ∃ m c, (migrate "BasedOnStyle: llvm\n" ⟨.v3_6, .v3_4, .cpp, "llvm", true⟩).outcome = .ok m ∧
      Accepts "BasedOnStyle: llvm\n" ⟨.v3_6, .v3_4, .cpp, "llvm", true⟩ c ∧
      Untouched ⟨.v3_6, .v3_4, .cpp, "llvm", true⟩ c ∧
      (m.losses = [] ↔
        ¬ DefaultMoves .v3_6 .v3_4 (saidStyle (Text.lower "llvm") c.basedOn)) := by
  obtain ⟨c, accepts, untouched, based⟩ := untouched_llvm .v3_4 (by decide : Version.v3_6 ∈ _)
  obtain ⟨m, migrated⟩ : ∃ m, (migrate "BasedOnStyle: llvm\n"
      ⟨.v3_6, .v3_4, .cpp, "llvm", true⟩).outcome = .ok m :=
    migrate_isOk_iff.mpr ⟨by decide, c, accepts, by rw [based]; decide⟩
  exact ⟨m, c, migrated, accepts, untouched,
    losses_eq_nil_iff_of_untouched migrated accepts untouched⟩

/-- **A style as it is that loses something**: in the highest version, on its way to the second
one. -/
theorem migrate_untouched_llvm :
    let text := "BasedOnStyle: llvm\n"
    let o : Options := ⟨.v16, .v3_6, .cpp, "llvm", true⟩
    ∃ m c, (migrate text o).outcome = .ok m ∧ Accepts text o c ∧ Untouched o c ∧
      m.losses ≠ [] := by
  intro text o
  obtain ⟨c, accepts, untouched, based⟩ := untouched_llvm .v3_6 (by decide : Version.v16 ∈ _)
  obtain ⟨m, migrated⟩ : ∃ m, (migrate text o).outcome = .ok m :=
    migrate_isOk_iff.mpr ⟨by decide, c, accepts, by rw [based]; decide⟩
  obtain ⟨course, rfl, delivered⟩ := exists_course_of_accepts accepts migrated
  obtain ⟨s, takes, lost⟩ := exists_loss_of_requires course
    (course.start_of_untouched untouched) rfl (by decide)
  exact ⟨m, _, migrated, accepts, untouched, fun none =>
    lost ((losses_eq_nil_iff course delivered untouched.1).mp none s takes)⟩

end Migration

end FormatStyle
