import FormatStyle.Proofs.Accounts
import FormatStyle.Proofs.Normal
import FormatStyle.Proofs.Untouched

/-! # What presets imply, on the way down

A walk starts with its presets written out, and so do the styles that it compares with
(`StyleRecord.get?_expand_of_selected`). The record that a named preset implies goes on under its
name until it ends (`Migration.Step.goesOn`), next to the record of the style
(`Migration.Walk.Advanced.stays_iff`), and where it ends it is reported if it differs from that.
So a migration reports the record of a named preset exactly where the target has no such record and
the style another one (`Migration.reports_implied_iff`), although nobody wrote it and the selector
goes on (`Migration.migrate_reports_implied`).
-/

namespace FormatStyle

open StyleRecord Migration

/-! ## The target of a preset -/

section Expanded

variable {r expanded : StyleRecord} {preset : Preset} {variant : PresetVariant} {v : Version}
  {name : String} {language : Language}

/-- **What a style has in the target of a preset**, once its presets are written out. -/
def NamedStyle.presetContent (style : NamedStyle) (v : Version) (language : Language)
    (preset : Preset) : Option Value :=
  match preset.selected? (style.sketch v language) with
  | some variant => preset.content? v variant
  | none => (style.sketch v language).get? preset.target

theorem Migration.presetContent_of_expandedStyle (member : preset ∈ v.schema.presets)
    (styled : (expandedStyle v name language).outcome = .ok r) :
    ∃ style, v.schema.style? name = some style ∧
      r.get? preset.target = style.presetContent v language preset := by
  obtain ⟨resolved, resolve, expand, -⟩ := resolve_of_expandedStyle styled
  obtain ⟨native, version, -⟩ := Style.native_of_resolve resolve
  obtain ⟨-, style, -, found, rfl⟩ := Style.eq_sketch_of_resolve resolve
  refine ⟨style, found, ?_⟩
  unfold NamedStyle.presetContent
  cases selected : preset.selected? (style.sketch v language) with
  | some variant => exact get?_expand_of_selected native.wellFormed expand member selected
  | none =>
    exact get?_expand_of_unselected native.wellFormed expand member selected
      (List.mem_cons_of_mem _ List.mem_cons_self)

end Expanded

/-! ## Fields that go on -/

namespace Version

variable {a b : Version} {name : String} {preset : Preset} {language : Language}

/-- **A field that goes on down** under its name, without a loss: no transfer names it, and its
values come back. -/
def goesOn (b a : Version) (name : String) : Bool :=
  ((b.schema.field? name).any fun field => (a.schema.field? name).any fun other =>
    Step.restores [] field other false false) &&
    !((transfers b a).flatMap Transfer.sources).contains name &&
    !((transfers b a).flatMap Transfer.targets).contains name

/-- **What presets imply goes on down or ends.** Where it goes on, the styles go on with what they
have in it, and it is the target of a preset again. Where it ends, no lower version has it. -/
theorem targets_go_on :
    (∀ a ∈ Version.all, ∀ b ∈ Version.all, a.next? = some b → ∀ preset ∈ b.schema.presets,
      if (a.schema.field? preset.target).isSome then
        b.goesOn a preset.target = true ∧
        (∀ name ∈ b.schema.styleNames, name ∈ a.schema.styleNames) ∧
        (a.schema.presets.any fun other => other.target == preset.target &&
          b.schema.styleNames.all fun name => a.schema.languages.all fun language =>
            (b.schema.style? name).any fun style => (a.schema.style? name).any fun style' =>
              ((style.presetContent b language preset).bind
                (b.renames? a preset.target preset.target [])) ==
                style'.presetContent a language other) = true
      else preset.target ∉ (transfers b a).flatMap Transfer.sources ∧
        ∀ c ∈ Version.all, c ≤ a → (c.schema.field? preset.target).isNone = true) ∧
    ∀ a ∈ Version.all, ∀ b ∈ Version.all, a ≤ b → ∀ preset ∈ a.schema.presets,
      (b.schema.field? preset.target).isSome = true := by
  decide

end Version

namespace Migration

variable {text : String} {o : Options} {c : Configuration} {m : Migration} {language : Language}
  {fallback name : String} {a b v next target : Version} {w w' top : Walk} {s : Step}
  {preset : Preset} {variant : PresetVariant} {value : Value}

/-- Both versions have a field that goes on, and it is renamed to itself. -/
theorem fields_of_goesOn (goes : b.goesOn a name = true) :
    ∃ field other, b.schema.field? name = some field ∧ a.schema.field? name = some other ∧
      Step.restores [] field other false false = true ∧
      .rename name name [] ∈ b.moves a := by
  unfold Version.goesOn at goes
  simp only [Bool.and_eq_true, Bool.not_eq_true', List.contains_eq_mem,
    decide_eq_false_iff_not] at goes
  obtain ⟨⟨fields, unread⟩, unwritten⟩ := goes
  obtain ⟨field, found, fields⟩ := (Option.any_eq_true _ _).mp fields
  obtain ⟨other, found', restores⟩ := (Option.any_eq_true _ _).mp fields
  refine ⟨field, other, found, found', restores,
    List.mem_append_right _ (List.mem_map_of_mem (Version.mem_sharedNames.mpr ?_))⟩
  exact ⟨Schema.field?_isSome_iff.mp (by rw [found]; rfl),
    Schema.field?_isSome_iff.mp (by rw [found']; rfl), unwritten, unread⟩

/-- **A value goes on without a look at what was there before**, and comes back. -/
theorem exists_renames? {field other : Field} (found : b.schema.field? name = some field)
    (found' : a.schema.field? name = some other)
    (restores : Step.restores [] field other false false = true)
    (admitted : field.kind.admits value = true) :
    ∃ there, b.renames? a name name [] value = some there ∧
      (∀ current, other.kind.admits current = true →
        Step.carried [] field other value current = some there) ∧
      Step.carried [] other field there field.kind.zero = some value := by
  have lawful := Version.lawful_of_mem (Schema.mem_of_field? found')
  obtain ⟨there, goes, comes⟩ := Step.restored_of_restores restores lawful admitted
  obtain ⟨here, stands, back⟩ := comes there Step.mem_standIns_self
  rw [Step.standIns_strict, List.mem_singleton] at stands
  subst stands
  refine ⟨there, ?_, goes, back _⟩
  rw [Version.renames?, found, found']
  exact goes _ (FieldKind.admits_of_stores (FieldKind.stores_zero lawful))

/-- Different values go on as different ones. -/
private theorem renames?_injective {value' : Value} {field : Field} (goes : b.goesOn a name = true)
    (found : b.schema.field? name = some field) (admitted : field.kind.admits value = true)
    (admitted' : field.kind.admits value' = true)
    (same : b.renames? a name name [] value = b.renames? a name name [] value') :
    value = value' := by
  obtain ⟨_, other, found₁, found', restores, -⟩ := fields_of_goesOn goes
  obtain rfl := Option.some.inj (found.symm.trans found₁)
  obtain ⟨there, goes₁, -, comes₁⟩ := exists_renames? found found' restores admitted
  obtain ⟨there', goes₂, -, comes₂⟩ := exists_renames? found found' restores admitted'
  rw [goes₁, goes₂, Option.some.injEq] at same
  subst same
  exact Option.some.inj (comes₁.symm.trans comes₂)

/-- **A step passes on a field that goes on**, and the next record has its value. -/
theorem Step.get?_next_of_goesOn (down : a.next? = some b) (between : s.Between b a)
    (goes : b.goesOn a name = true) (holds : s.record.get? name = some value) :
    s.PassesOn name ∧ s.next.get? name = b.renames? a name name [] value ∧
      (s.next.get? name).isSome = true := by
  obtain ⟨field, other, found, found', restores, move⟩ := fields_of_goesOn goes
  obtain rfl := Schema.name_of_field? found'
  have admitted := (wellFormed_iff.mp between.wellFormed).of_get? (between.schema ▸ found) holds
  obtain ⟨there, renames, carries, -⟩ := exists_renames? found found' restores admitted
  have current := (wellFormed_iff.mp between.after_wellFormed).current
    (between.after_schema ▸ found')
  have renamed : s.renamed? other.name other.name [] = some there := by
    rw [renamed?_eq holds (between.schema ▸ found) (between.after_schema ▸ found'),
      carries _ current]
  have next : s.next.get? other.name = some there := by
    refine get?_next_of_assigned (between.adjacent (.inr down)) between.after_wellFormed
      (between.moves ▸ move) ?_
    rw [(assigned_rename renamed).1]
    exact List.mem_singleton_self _
  refine ⟨(passesOn_iff_keeps (.inr down) between move (List.mem_singleton_self _)).mpr ?_,
    next.trans renames.symm, by rw [next]; rfl⟩
  rw [keeps, renamed]
  rfl

/-! ## Along a walk -/

/-- **What a preset implies goes on next to the style**: after a step it is what the style has
exactly where it was before. -/
theorem Walk.Advanced.stays_iff (advances : w.Advanced language fallback target v next w')
    (sound : w.Sound language v) (down : next.next? = some v)
    (member : preset ∈ v.schema.presets)
    (lasts : (next.schema.field? preset.target).isSome = true) :
    (w.step w'.before).PassesOn preset.target ∧
      (∃ other ∈ next.schema.presets, other.target = preset.target) ∧
      (w'.record.get? preset.target = w'.before.get? preset.target ↔
        w.record.get? preset.target = w.before.get? preset.target) := by
  have between := sound.between advances.sound
  have tables := Version.targets_go_on.1 next next.mem_all v v.mem_all down preset member
  rw [if_pos lasts] at tables
  obtain ⟨goes, styles, contents⟩ := tables
  obtain ⟨other, listed, contents⟩ := List.any_eq_true.mp contents
  obtain ⟨same, contents⟩ := Bool.and_eq_true_iff.mp contents
  rw [beq_iff_eq] at same
  -- The style lasts, and goes on with what it has in the target.
  have style : w'.style = w.style :=
    (Option.some.inj ((Version.offered?_of_mem (styles _ sound.known)).symm.trans
      advances.offered)).symm
  obtain ⟨named, found, before⟩ := presetContent_of_expandedStyle member sound.styled
  obtain ⟨named', found', after⟩ := presetContent_of_expandedStyle listed advances.sound.styled
  rw [style] at found'
  rw [same] at after
  have spoken : language ∈ next.schema.languages :=
    (get?_of_expandedStyle advances.sound.styled).1
  have content := List.all_eq_true.mp (List.all_eq_true.mp contents _ sound.known) _ spoken
  rw [found, found', Option.any_some, Option.any_some, beq_iff_eq, ← before, ← after] at content
  obtain ⟨field, -, known, -⟩ := fields_of_goesOn goes
  obtain ⟨native, version, -⟩ := native_of_expandedStyle sound.styled
  obtain ⟨value, holds, admitted⟩ :=
    (wellFormed_iff.mp between.wellFormed).get? (between.schema ▸ known)
  obtain ⟨value', holds', admitted'⟩ := (wellFormed_iff.mp native.wellFormed).get?
    (show w.before.schema.field? preset.target = some field by
      rw [StyleRecord.schema, version]
      exact known)
  obtain ⟨passes, carried, -⟩ := Step.get?_next_of_goesOn down between goes holds
  refine ⟨passes, ⟨other, listed, same⟩, ?_⟩
  rw [advances.record, carried, ← content, holds', Option.bind_some,
    show w.record.get? preset.target = some value from holds, Option.some.injEq]
  exact ⟨renames?_injective goes known admitted admitted', fun same => by rw [same]⟩

/-- A walk down takes no step from above where it starts. -/
theorem Takes.version_le (takes : Takes language fallback target v w s) (below : target ≤ v)
    (sound : w.Sound language v) (supported : v.schema.supports language = true)
    (supported' : target.schema.supports language = true) : s.record.version ≤ v := by
  induction takes with
  | first => exact Nat.le_of_eq (congrArg _ sound.version)
  | later towards advanced _ ih =>
    have supports := Version.supports_towards towards supported supported'
    obtain ⟨down, below'⟩ := Version.next_of_stepTowards below towards
    have lower := ih below' (advance_eq_ok sound towards supports advanced).2.2.1 supports
    exact Nat.le_trans lower (Nat.le_of_lt (Version.lt_of_next down))

/-- **A walk down reports the record of a preset exactly where it ends and is not the style's.** By
induction backwards along the walk. -/
theorem exists_target_stuck_iff (below : target ≤ v) (member : preset ∈ v.schema.presets)
    (walked : (walk language fallback target v w).outcome = .ok top) (sound : w.Sound language v)
    (supported : v.schema.supports language = true)
    (supported' : target.schema.supports language = true) :
    (∃ s, Takes language fallback target v w s ∧ (s.record.get? preset.target).isSome = true ∧
      s.changed preset.target = true ∧ ¬ s.PassesOn preset.target) ↔
      target.schema.field? preset.target = none ∧
        w.record.get? preset.target ≠ w.before.get? preset.target := by
  induction v, w, walked using walk_induction generalizing preset with
  | arrived =>
    have known := Version.targets_go_on.2 target target.mem_all target target.mem_all
      (Nat.le_refl _) preset member
    refine iff_of_false ?_ fun ends => by simp [ends.1] at known
    rintro ⟨s, takes, -⟩
    exact takes.apart rfl
  | step v next w w' towards advanced _ ih =>
    have supports := Version.supports_towards towards supported supported'
    obtain ⟨down, below'⟩ := Version.next_of_stepTowards below towards
    obtain ⟨record, losses, sound', offered⟩ := advance_eq_ok sound towards supports advanced
    have advances : w.Advanced language fallback target v next w' :=
      ⟨record, losses, sound', offered, fun s => takes_iff towards advanced⟩
    have between := sound.between sound'
    simp only [takes_iff towards advanced, or_and_right, exists_or, exists_eq_left]
    by_cases lasts : (next.schema.field? preset.target).isSome = true
    · obtain ⟨passes, ⟨other, listed, same⟩, stays⟩ := advances.stays_iff sound down member lasts
      have further := ih below' listed sound' supports
      rw [same, ne_eq, stays] at further
      rw [further, or_iff_right fun first => first.2.2 passes]
    · have tables := Version.targets_go_on.1 next next.mem_all v v.mem_all down preset member
      rw [if_neg lasts] at tables
      obtain ⟨unread, unknown⟩ := tables
      have ends (c : Version) (lower : c ≤ next) : c.schema.field? preset.target = none :=
        Option.isNone_iff_eq_none.mp (unknown c c.mem_all lower)
      have none_later : ¬ ∃ s, Takes language fallback target next w' s ∧
          (s.record.get? preset.target).isSome = true ∧ s.changed preset.target = true ∧
            ¬ s.PassesOn preset.target := by
        rintro ⟨s, takes, holds, -⟩
        rw [get?_eq_none (ends _ (takes.version_le below' sound' supports supported'))] at holds
        cases holds
      have stuck : ¬ (w.step w'.before).PassesOn preset.target := by
        rintro ⟨t, listed, reads, -⟩
        rw [between.moves] at listed
        exact Version.notMem_sources_of_ends (ends next (Nat.le_refl _)) unread listed reads
      have known := Version.targets_go_on.2 v v.mem_all v v.mem_all (Nat.le_refl _) preset member
      rw [or_iff_left none_later, Step.changed_iff]
      refine ⟨fun first => ⟨ends target below', first.2.1⟩, fun differs =>
        ⟨sound.holds (Schema.field?_isSome_iff.mp known), differs.2, stuck⟩⟩

/-- **A walk starts with what the selected presets imply**. -/
theorem Course.get?_start_of_selected (course : Course text o)
    (member : preset ∈ o.source.schema.presets)
    (selected : preset.selected? course.configuration.record = some variant) :
    course.start.record.get? preset.target = preset.content? o.source variant := by
  obtain ⟨-, native, version, -⟩ := Configuration.sound_of_read
    (Style.native_of_resolve course.resolved).1 course.accepted
  have schema : course.configuration.record.schema = o.source.schema := by
    rw [StyleRecord.schema, version]
  have settles := course.settles
  obtain ⟨expanded, expand, collapse⟩ := Outcome.bind_eq_ok_iff.mp settles
  obtain ⟨expanded', expand', native', same, -⟩ := expand_isOk native
  obtain rfl := Except.ok.inj (expand.symm.trans expand')
  obtain ⟨record, collapse', -, -, frame⟩ := collapse_isOk native'
  obtain rfl := Except.ok.inj (collapse.symm.trans collapse')
  have unselected : preset.target ∉ expanded.selectors := by
    rw [selectors, same.schema, schema]
    intro listed
    obtain ⟨other, listed, hit⟩ := List.mem_map.mp listed
    refine selector_notMem_writtenBy listed member ?_
    rw [hit]
    exact List.mem_cons_self
  rw [frame _ unselected, get?_expand_of_selected native.wellFormed expand
    (schema ▸ member) selected, version]

/-- **A migration reports the target of a preset** exactly where it ends on the way and the walk
starts with something else in it than its style. -/
theorem Course.reports_target_iff (course : Course text o)
    (delivered : deliver o course.configuration.record.inheritsParent course.top = .ok m)
    (member : preset ∈ o.source.schema.presets) :
    (∃ loss ∈ m.losses, loss.name = preset.target) ↔
      o.target.schema.field? preset.target = none ∧
        course.start.record.get? preset.target ≠ course.start.before.get? preset.target := by
  have known : preset.target ∈ o.source.schema.names := Schema.field?_isSome_iff.mp
    (Version.targets_go_on.2 _ (Version.mem_all _) _ (Version.mem_all _) (Nat.le_refl _) _ member)
  by_cases le : o.source ≤ o.target
  · have lasts := Version.targets_go_on.2 _ (Version.mem_all _) _ (Version.mem_all _) le _ member
    refine iff_of_false (fun reported => ?_) fun ends => by simp [ends.1] at lasts
    rw [deliver_losses delivered known, course.losses_of_le le] at reported
    simp at reported
  · have below : o.target < o.source := Nat.lt_of_not_le le
    rw [exists_loss_name_iff course delivered below known,
      exists_target_stuck_iff (Nat.le_of_lt below) member course.walked course.sound
        course.supports course.supported]

/-- **A migration reports the record of a named preset** exactly where the target has no such
record and the style has another one in it. Whether the selector goes on does not count. -/
theorem reports_implied_iff (migrated : (migrate text o).outcome = .ok m)
    (accepts : Accepts text o c) (member : preset ∈ o.source.schema.presets)
    (selected : preset.selected? c.record = some variant) :
    (∃ loss ∈ m.losses, loss.name = preset.target) ↔
      o.target.schema.field? preset.target = none ∧ ∃ style,
        (expandedStyle o.source (saidStyle (Text.lower o.fallbackStyle) c.basedOn)
          o.language).outcome = .ok style ∧
        style.get? preset.target ≠ preset.content? o.source variant := by
  obtain ⟨course, rfl, delivered⟩ := exists_course_of_accepts accepts migrated
  have styled := course.sound.styled
  rw [course.chosen] at styled
  rw [course.reports_target_iff delivered member, course.get?_start_of_selected member selected]
  refine and_congr_right fun _ => ⟨fun differs => ⟨_, styled, differs.symm⟩, ?_⟩
  rintro ⟨style, styled', differs⟩
  obtain rfl := Except.ok.inj (styled.symm.trans styled')
  exact differs.symm

/-- The preset for blanks before parentheses. -/
def parensPreset : Preset :=
  ⟨"SpaceBeforeParens", "SpaceBeforeParensOptions", "Custom", Catalogue.V16.parensReset,
    Catalogue.V16.parensVariants⟩

/-- One of its variants, by name. -/
private theorem mappings_parens :
    Configuration.mappings "SpaceBeforeParens: Always\n" =
      .ok [[(.str "SpaceBeforeParens", .str "Always")]] :=
  Configuration.mappings_of_entries [[("SpaceBeforeParens", "Always")]] (by decide) rfl rfl
    (by decide)

/-- The text is accepted, and its walk starts with the variant selected. -/
private theorem accepts_parens :
    ∃ c, Accepts "SpaceBeforeParens: Always\n" ⟨.v16, .v12, .cpp, "llvm", true⟩ c ∧
      (c.basedOn, c.record.get? "SpaceBeforeParens",
        (settled c.record).toOption.bind (·.get? "SpaceBeforeParens")) =
      (none, some (.choice "Always"), some (.choice "Always")) :=
  accepts_of_mappings (by decide) (by decide) mappings_parens (by decide +kernel)

/-- The row of the selector on the way down. -/
def parensRow : List (Literal × Literal) :=
  [(.choice "ControlStatementsExceptControlMacros",
    .choice "ControlStatementsExceptForEachMacros")]

/-- The variant has another content than the style, the selector goes on, and the target ends. -/
theorem parens_tables :
    ((parensPreset.variant? "Always").any fun variant =>
      (Version.v16.schema.style? "llvm").any fun style =>
        style.presetContent .v16 .cpp parensPreset != parensPreset.content? .v16 variant) = true ∧
    (Version.v16.renames? .v12 parensPreset.selector parensPreset.selector parensRow
      (.choice "Always")).isSome = true ∧
    Version.v12.schema.field? parensPreset.target = none := by
  decide

private theorem parens_move :
    .rename parensPreset.selector parensPreset.selector parensRow ∈ Version.v16.moves .v12 :=
  List.mem_append_left _ (List.mem_map.mpr
    ⟨.rename "SpaceBeforeParens" "SpaceBeforeParens" (parensRow.map Prod.swap),
      .tail _ (.tail _ (.tail _ (.tail _ (.tail _ (.tail _ (.head _)))))), rfl⟩)

/-- The text migrates one version down, with a variant selected. -/
theorem migrate_parens :
    ∃ m c variant,
      (migrate "SpaceBeforeParens: Always\n" ⟨.v16, .v12, .cpp, "llvm", true⟩).outcome = .ok m ∧
      Accepts "SpaceBeforeParens: Always\n" ⟨.v16, .v12, .cpp, "llvm", true⟩ c ∧
      parensPreset ∈ Version.v16.schema.presets ∧ parensPreset.selected? c.record = some variant ∧
      parensPreset.variant? "Always" = some variant ∧ c.basedOn = none ∧
      (settled c.record).toOption.bind (·.get? "SpaceBeforeParens") = some (.choice "Always") := by
  obtain ⟨c, accepts, said⟩ := accepts_parens
  obtain ⟨based, rest⟩ := Prod.mk.inj said
  obtain ⟨holds, settles⟩ := Prod.mk.inj rest
  obtain ⟨m, migrated⟩ : ∃ m, (migrate "SpaceBeforeParens: Always\n"
      ⟨.v16, .v12, .cpp, "llvm", true⟩).outcome = .ok m :=
    migrate_isOk_iff.mpr ⟨by decide, c, accepts, by rw [based]; decide⟩
  obtain ⟨variant, named, -⟩ := (Option.any_eq_true _ _).mp parens_tables.1
  have selected : parensPreset.selected? c.record = some variant := by
    unfold Preset.selected?
    rw [show c.record.get? parensPreset.selector = some (.choice "Always") from holds]
    exact named
  exact ⟨m, c, variant, migrated, accepts, .tail _ (.head _), selected, named, based, settles⟩

/-- What is reported of the record that the variant implies. -/
theorem reports_implied_parens :
    ∃ m c variant,
      (migrate "SpaceBeforeParens: Always\n" ⟨.v16, .v12, .cpp, "llvm", true⟩).outcome = .ok m ∧
      Accepts "SpaceBeforeParens: Always\n" ⟨.v16, .v12, .cpp, "llvm", true⟩ c ∧
      parensPreset ∈ Version.v16.schema.presets ∧ parensPreset.selected? c.record = some variant ∧
      ((∃ loss ∈ m.losses, loss.name = parensPreset.target) ↔
        Version.v12.schema.field? parensPreset.target = none ∧ ∃ style,
          (expandedStyle .v16 (saidStyle (Text.lower "llvm") c.basedOn) .cpp).outcome = .ok style ∧
          style.get? parensPreset.target ≠ parensPreset.content? .v16 variant) := by
  obtain ⟨m, c, variant, migrated, accepts, member, selected, -⟩ := migrate_parens
  exact ⟨m, c, variant, migrated, accepts, member, selected,
    reports_implied_iff migrated accepts member selected⟩

/-- **A report of what nobody wrote.** The text names a variant, every step passes the selector on,
and the record that the variant implies is reported. -/
theorem migrate_reports_implied :
    let text := "SpaceBeforeParens: Always\n"
    let o : Options := ⟨.v16, .v12, .cpp, "llvm", true⟩
    ∃ m c, ∃ preset ∈ o.source.schema.presets, ∃ variant, (migrate text o).outcome = .ok m ∧
      Accepts text o c ∧ preset.selected? c.record = some variant ∧
      (∃ course : Course text o, ∀ s, Takes o.language (Text.lower o.fallbackStyle) o.target
        o.source course.start s → s.PassesOn preset.selector) ∧
      ∃ loss ∈ m.losses, loss.name = preset.target := by
  intro text o
  obtain ⟨m, c, variant, migrated, accepts, member, selected, named, based, settles⟩ :=
    migrate_parens
  obtain ⟨course, rfl, delivered⟩ := exists_course_of_accepts accepts migrated
  rw [course.settles] at settles
  have holds : course.start.record.get? parensPreset.selector = some (.choice "Always") := settles
  refine ⟨m, _, parensPreset, member, variant, migrated, accepts, selected, ⟨course, ?_⟩, ?_⟩
  · intro s takes
    obtain ⟨w, first, -⟩ := exists_advanced
      (show Version.v16.stepTowards .v12 = some .v12 from rfl) course.walked course.sound
      course.supports course.supported
    obtain rfl := ((first.takes s).mp takes).resolve_right fun further => further.apart rfl
    have between := course.sound.between first.sound
    have renamed : (course.start.step w.before).renamed? parensPreset.selector
        parensPreset.selector parensRow = Version.v16.renames? .v12 parensPreset.selector
          parensPreset.selector parensRow (.choice "Always") :=
      Step.renamed?_eq_renames? between (by decide) (by decide) holds
    rw [Step.passesOn_iff_keeps (.inr rfl) between parens_move (List.mem_singleton_self _),
      Step.keeps, renamed]
    exact parens_tables.2.1
  · obtain ⟨style, found, content⟩ := presetContent_of_expandedStyle member course.sound.styled
    obtain ⟨variant', named', differs⟩ := (Option.any_eq_true _ _).mp parens_tables.1
    obtain rfl := Option.some.inj (named.symm.trans named')
    rw [course.chosen, based] at found
    rw [show Version.v16.schema.style? "llvm" = some style from found, Option.any_some] at differs
    refine (course.reports_target_iff delivered member).mpr ⟨parens_tables.2.2, ?_⟩
    rw [course.get?_start_of_selected member selected, content]
    exact (bne_iff_ne.mp differs).symm

end Migration

end FormatStyle
