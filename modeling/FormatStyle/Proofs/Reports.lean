import FormatStyle.Proofs.Descents
import FormatStyle.Proofs.Failures
import FormatStyle.Proofs.SameKind
import FormatStyle.Proofs.StyleFields

/-! # What a migration reports

Following the moves of each step, a field leads to the fields that its value goes to
(`Version.Leads`). On the way up every field leads to the target. On the way down a field that does
not is reported, under its own name or under the name of one that it leads to, exactly when one of
the steps finds it changed and does not pass it on (`Migration.exists_report_iff`). What counts is
the style before that step. So a value that was changed at the source goes unreported if it is what
a version on the way starts from, as the indentation of requires clauses shows
(`Migration.migrate_unreported_indentRequires`).
-/

namespace FormatStyle

open StyleRecord

namespace Version

variable {a b v w target : Version} {t : Transfer} {name name' : String}

/-- What a step writes, the next version has. -/
theorem mem_names_of_target (adjacent : a.Adjacent b) (member : t ∈ a.moves b)
    (written : name ∈ t.targets) : name ∈ b.schema.names := by
  have checked : ∀ a ∈ Version.all, ∀ b ∈ Version.all, a.Adjacent b →
      ∀ name ∈ (transfers a b).flatMap Transfer.targets,
        (b.schema.field? name).isSome = true := by
    decide +kernel
  rcases List.mem_append.mp member with listed | listed
  · exact Schema.field?_isSome_iff.mp (checked a a.mem_all b b.mem_all adjacent name
      (List.mem_flatMap.mpr ⟨t, listed, written⟩))
  · obtain ⟨name', shared, rfl⟩ := List.mem_map.mp listed
    obtain rfl := List.mem_singleton.mp written
    exact (mem_sharedNames.mp shared).2.1

/-- **Where the value of a field goes** on the way to a target: each step on that way reads the
field in one of its moves, and goes on from what that move writes. -/
inductive Leads (target : Version) : Version → String → Version → String → Prop where
  | here {v : Version} {name : String} : Leads target v name v name
  | on {v next w : Version} {t : Transfer} {name through name' : String}
      (towards : v.stepTowards target = some next) (move : t ∈ v.moves next)
      (reads : name ∈ t.sources) (writes : through ∈ t.targets)
      (rest : Leads target next through w name') : Leads target v name w name'

/-- What a field leads to is a field. -/
theorem Leads.mem_names (leads : Leads target v name w name') (known : name ∈ v.schema.names) :
    name' ∈ w.schema.names := by
  induction leads with
  | here => exact known
  | on towards move _ writes _ ih =>
    exact ih (mem_names_of_target (adjacent_of_stepTowards towards) move writes)

/-- Towards a lower version a step goes down, and not below it. -/
theorem next_of_stepTowards (below : target ≤ v) (towards : v.stepTowards target = some w) :
    w.next? = some v ∧ target ≤ w := by
  revert below towards
  cases v <;> cases target <;> cases w <;> decide

/-- **On the way up every field leads to the target.** -/
theorem exists_leads_up (le : v ≤ target) (known : name ∈ v.schema.names) :
    ∃ name', Leads target v name target name' := by
  induction v, le using climb generalizing name with
  | arrived => exact ⟨name, .here⟩
  | step a b next towards _ ih =>
    obtain ⟨field, member, rfl⟩ := List.mem_map.mp known
    obtain ⟨t, listed, reads⟩ := Migration.Step.exists_move_of_mem next member
    obtain ⟨through, writes⟩ := exists_target (.inl next) listed
    obtain ⟨name', leads⟩ := ih (mem_names_of_target (.inl next) listed writes)
    exact ⟨name', .on towards listed reads writes leads⟩

end Version

namespace Migration

variable {text : String} {o : Options} {m : Migration} {language : Language} {fallback : String}
  {v target : Version} {w top : Walk} {s : Step}

/-- **A name that a field goes by** on the way to a target. -/
def GoesBy (target v : Version) (field name : String) : Prop :=
  ∃ w, Version.Leads target v field w name

/-- Towards a lower version every step of a walk goes down. -/
theorem Takes.down (takes : Takes language fallback target v w s) (below : target ≤ v)
    (sound : w.Sound language v) (supported : v.schema.supports language = true)
    (supported' : target.schema.supports language = true) :
    ∃ a b, a.next? = some b ∧ s.Between b a := by
  induction takes with
  | first towards advanced =>
    obtain ⟨-, -, sound', -⟩ := advance_eq_ok sound towards
      (Version.supports_towards towards supported supported') advanced
    exact ⟨_, _, (Version.next_of_stepTowards below towards).1, sound.between sound'⟩
  | later towards advanced _ ih =>
    have supports := Version.supports_towards towards supported supported'
    exact ih (Version.next_of_stepTowards below towards).2
      (advance_eq_ok sound towards supports advanced).2.2.1 supports

/-- No field has the name of the key that inheritance is written under. -/
theorem ne_basedOnKey {name : String} (known : name ∈ v.schema.names) : name ≠ basedOnKey := by
  rintro rfl
  have checked : ∀ v ∈ Version.all, (v.schema.field? basedOnKey).isNone = true := by
    decide
  rw [← Schema.field?_isSome_iff, Option.isNone_iff_eq_none.mp (checked v v.mem_all)] at known
  cases known

/-- What is delivered reports the losses of the walk, and under no name of a field anything else. -/
theorem deliver_losses {inherits : Bool} (delivered : deliver o inherits top = .ok m) {name : String}
    (known : name ∈ v.schema.names) :
    (∃ loss ∈ m.losses, loss.name = name) ↔ ∃ loss ∈ top.losses, loss.name = name := by
  have unnamed := ne_basedOnKey known
  rw [(deliver_eq_ok delivered).2.2.1]
  unfold keepInheritance
  split
  · split
    · rfl
    · constructor
      · rintro ⟨loss, member, rfl⟩
        rcases List.mem_append.mp member with member | member
        · exact ⟨loss, member, rfl⟩
        · rw [List.mem_singleton.mp member] at unnamed
          exact absurd rfl unnamed
      · rintro ⟨loss, member, same⟩
        exact ⟨loss, List.mem_append_left _ member, same⟩
  · rfl

/-- **A downgrade reports a field** under one of its names exactly when one of its steps finds it
changed and does not pass it on. -/
theorem exists_loss_name_iff (course : Course text o)
    (delivered : deliver o course.configuration.record.inheritsParent course.top = .ok m)
    (below : o.target < o.source) {name : String} (known : name ∈ v.schema.names) :
    (∃ loss ∈ m.losses, loss.name = name) ↔
      ∃ s, Takes o.language (Text.lower o.fallbackStyle) o.target o.source course.start s ∧
        (s.record.get? name).isSome = true ∧ s.changed name = true ∧ ¬ s.PassesOn name := by
  have losses (loss : Loss) : loss ∈ course.top.losses ↔ loss ∈ course.start.losses ∨ _ :=
    mem_losses_iff course.walked course.sound course.supports course.supported
  rw [deliver_losses delivered known]
  constructor
  · rintro ⟨loss, member, same⟩
    rw [losses, course.lossless] at member
    obtain ⟨s, takes, made⟩ := member.resolve_left List.not_mem_nil
    obtain ⟨a, b, next, between⟩ :=
      takes.down (Nat.le_of_lt below) course.sound course.supports course.supported
    exact ⟨s, takes, (Step.exists_loss_iff next between).mp ⟨loss, made, same⟩⟩
  · rintro ⟨s, takes, stuck⟩
    obtain ⟨a, b, next, between⟩ :=
      takes.down (Nat.le_of_lt below) course.sound course.supports course.supported
    obtain ⟨loss, made, same⟩ := (Step.exists_loss_iff next between).mpr stuck
    exact ⟨loss, (losses loss).mpr (.inr ⟨s, takes, made⟩), same⟩

/-- **What a migration reports of a field** that leads nowhere in the target, under any name that
the field goes by, is what one of its steps finds changed and does not pass on. Where already the
first step does not read the field, a change to it is reported. -/
theorem exists_report_iff (migrated : (migrate text o).outcome = .ok m) {field : String}
    (known : field ∈ o.source.schema.names)
    (ends : ∀ name, ¬ Version.Leads o.target o.source field o.target name) :
    ∃ course : Course text o,
      deliver o course.configuration.record.inheritsParent course.top = .ok m ∧
      ((∃ loss ∈ m.losses, GoesBy o.target o.source field loss.name) ↔
        ∃ s name, Takes o.language (Text.lower o.fallbackStyle) o.target o.source course.start s ∧
          GoesBy o.target o.source field name ∧ (s.record.get? name).isSome = true ∧
          s.record.get? name ≠ s.before.get? name ∧ ¬ s.PassesOn name) ∧
      ((∀ next, o.source.stepTowards o.target = some next →
          ∀ t ∈ o.source.moves next, field ∉ t.sources) →
        course.start.record.get? field ≠ course.start.before.get? field →
        ∃ loss ∈ m.losses, loss.name = field) := by
  obtain ⟨course, delivered⟩ := exists_course migrated
  have below : o.target < o.source := by
    refine Nat.lt_of_not_le fun le => ?_
    obtain ⟨name, leads⟩ := Version.exists_leads_up (show o.source ≤ o.target from le) known
    exact ends name leads
  refine ⟨course, delivered, ⟨?_, ?_⟩, fun unread differs => ?_⟩
  · rintro ⟨loss, member, goes⟩
    obtain ⟨s, takes, holds, differs, stuck⟩ := (exists_loss_name_iff course delivered below
      (goes.choose_spec.mem_names known)).mp ⟨loss, member, rfl⟩
    exact ⟨s, loss.name, takes, goes, holds, Step.changed_iff.mp differs, stuck⟩
  · rintro ⟨s, name, takes, goes, holds, differs, stuck⟩
    obtain ⟨loss, member, rfl⟩ := (exists_loss_name_iff course delivered below
      (goes.choose_spec.mem_names known)).mpr
        ⟨s, takes, holds, Step.changed_iff.mpr differs, stuck⟩
    exact ⟨loss, member, goes⟩
  · obtain ⟨next, w', towards, advanced, -⟩ := exists_advance course.walked fun same => by
      rw [same] at below
      exact Nat.lt_irrefl _ below
    refine (exists_loss_name_iff course delivered below known).mpr
      ⟨_, .first towards advanced, course.sound.holds known, Step.changed_iff.mpr differs, ?_⟩
    rintro ⟨t, listed, reads, -⟩
    obtain ⟨-, -, sound, -⟩ := advance_eq_ok course.sound towards
      (Version.supports_towards towards course.supports course.supported) advanced
    rw [(course.sound.between sound).moves] at listed
    exact unread next towards t listed reads

/-! ## A default that moves on the way -/

/-- The indentation of requires clauses is a flag of the two highest versions, under two names. It
is on in every style of the highest version and off in every style of the one below, where it
ends. -/
theorem requiresClause_tables :
    Version.v16.schema.scalarKind? "IndentRequiresClause" = some .bool ∧
    Version.v12.schema.scalarKind? "IndentRequires" = some .bool ∧
    "IndentRequiresClause" ∉ Version.v16.schema.presetWrites ∧
    "IndentRequires" ∉ Version.v12.schema.presetWrites ∧
    (∀ style ∈ Version.v16.schema.styles, ∀ language ∈ Version.v16.schema.languages,
      (style.sketch .v16 language).get? "IndentRequiresClause" = some (.bool true)) ∧
    (∀ style ∈ Version.v12.schema.styles, ∀ language ∈ Version.v12.schema.languages,
      (style.sketch .v12 language).get? "IndentRequires" = some (.bool false)) ∧
    Version.v3_6.schema.field? "IndentRequires" = none ∧
    "IndentRequires" ∉ (transfers .v12 .v3_6).flatMap Transfer.sources := by
  decide +kernel

theorem requiresClause_on {style : String} {r : StyleRecord}
    (expanded : (expandedStyle .v16 style language).outcome = .ok r) :
    r.get? "IndentRequiresClause" = some (.bool true) := by
  obtain ⟨-, -, unwritten, -, on, -⟩ := requiresClause_tables
  obtain ⟨spoken, named, listed, -, holds⟩ := get?_of_expandedStyle expanded
  rw [holds _ unwritten]
  exact on named listed language spoken

private theorem requires_off {style : String} {r : StyleRecord}
    (expanded : (expandedStyle .v12 style language).outcome = .ok r) :
    r.get? "IndentRequires" = some (.bool false) := by
  obtain ⟨-, -, -, unwritten, -, off, -⟩ := requiresClause_tables
  obtain ⟨spoken, named, listed, -, holds⟩ := get?_of_expandedStyle expanded
  rw [holds _ unwritten]
  exact off named listed language spoken

/-- The move of the flag on the way down. -/
private theorem requiresClause_move :
    Transfer.rename "IndentRequiresClause" "IndentRequires" [] ∈ Version.v16.moves .v12 :=
  List.mem_append_left _ (List.mem_map.mpr
    ⟨.rename "IndentRequires" "IndentRequiresClause" [], .tail _ (.tail _ (.head _)), rfl⟩)

/-- **The flag is passed on as it is** on the way down from the highest version. -/
theorem Step.requiresClause_next {flag : Bool} (between : s.Between .v16 .v12)
    (holds : s.record.get? "IndentRequiresClause" = some (.bool flag)) :
    s.next.get? "IndentRequires" = some (.bool flag) ∧ s.PassesOn "IndentRequiresClause" := by
  obtain ⟨field, found, kind⟩ := Schema.field?_of_scalarKind? requiresClause_tables.1
  obtain ⟨other, found', kind'⟩ := Schema.field?_of_scalarKind? requiresClause_tables.2.1
  have renamed : s.renamed? "IndentRequiresClause" "IndentRequires" [] = some (.bool flag) := by
    rw [renamed?_eq holds (between.schema ▸ found) (between.after_schema ▸ found'), carried_nil,
      kind, kind', FieldKind.convert_scalar]
    cases flag <;> decide
  have move := requiresClause_move
  rw [← between.moves] at move
  refine ⟨get?_next_of_assigned (between.adjacent (.inr rfl)) between.after_wellFormed move ?_,
    ⟨_, move, List.mem_singleton_self _, by rw [keeps, renamed]; rfl⟩⟩
  rw [(assigned_rename renamed).1]
  exact List.mem_singleton_self _

/-- No move below the two highest versions reads the flag. -/
theorem requires_unread {t : Transfer} (listed : t ∈ Version.v12.moves .v3_6) :
    "IndentRequires" ∉ t.sources := by
  obtain ⟨-, -, -, -, -, -, ends, unread⟩ := requiresClause_tables
  exact Version.notMem_sources_of_ends ends unread listed

/-- **The flag on its way below the versions that have it**: the first step passes it on, the second
one does not, and finds it changed if it is on. -/
theorem exists_requires_steps {flag : Bool} (low : target ≤ .v3_6)
    (walked : (walk language fallback target .v16 w).outcome = .ok top)
    (sound : w.Sound language .v16)
    (supported : Version.v16.schema.supports language = true)
    (supported' : target.schema.supports language = true)
    (holds : w.record.get? "IndentRequiresClause" = some (.bool flag)) :
    ∃ s₁ s₂ : Step, Takes language fallback target .v16 w s₁ ∧
      Takes language fallback target .v16 w s₂ ∧
      s₁.Between .v16 .v12 ∧ s₁.PassesOn "IndentRequiresClause" ∧
      s₂.Between .v12 .v3_6 ∧ s₂.record.get? "IndentRequires" = some (.bool flag) ∧
      s₂.before.get? "IndentRequires" = some (.bool false) ∧ ¬ s₂.PassesOn "IndentRequires" ∧
      (target = .v3_6 → ∀ s, Takes language fallback target .v16 w s → s = s₁ ∨ s = s₂) := by
  have way : Version.v16.stepTowards target = some .v12 ∧
      Version.v12.stepTowards target = some .v3_6 := by
    revert low
    cases target <;> decide
  obtain ⟨w₁, to₁, walked₁⟩ := exists_advanced way.1 walked sound supported supported'
  obtain ⟨w₂, to₂, -⟩ := exists_advanced way.2 walked₁ to₁.sound
    (Version.supports_towards way.1 supported supported') supported'
  have between₁ := sound.between to₁.sound
  have between₂ := to₁.sound.between to₂.sound
  obtain ⟨next₁, passes₁⟩ := Step.requiresClause_next between₁ holds
  refine ⟨_, _, (to₁.takes _).mpr (.inl rfl), (to₁.takes _).mpr (.inr ((to₂.takes _).mpr (.inl rfl))),
    between₁, passes₁, between₂, ?_, requires_off to₁.sound.styled, ?_, ?_⟩
  · exact (congrArg (·.get? "IndentRequires") to₁.record).trans next₁
  · rintro ⟨t, listed, reads, -⟩
    rw [between₂.moves] at listed
    exact requires_unread listed reads
  · rintro rfl s takes
    refine ((to₁.takes s).mp takes).imp_right fun later => ?_
    exact ((to₂.takes s).mp later).resolve_right fun further => further.apart rfl

/-- The names that the flag goes by on its way to the second version. -/
theorem leads_requiresClause {w : Version} {name : String}
    (leads : Version.Leads .v3_6 .v16 "IndentRequiresClause" w name) :
    (w = .v16 ∧ name = "IndentRequiresClause") ∨ (w = .v12 ∧ name = "IndentRequires") := by
  cases leads with
  | here => exact .inl ⟨rfl, rfl⟩
  | on towards move reads writes rest =>
    cases towards
    have same := Version.move_unique (a := .v16) (.inr rfl) requiresClause_move move
      (List.mem_singleton_self _) reads
    subst same
    obtain rfl := List.mem_singleton.mp writes
    cases rest with
    | here => exact .inr ⟨rfl, rfl⟩
    | on towards move reads =>
      cases towards
      exact absurd reads (requires_unread move)

/-- The flag, turned off in a text of the highest version. -/
private theorem mappings_requiresClause :
    Configuration.mappings "IndentRequiresClause: false\n" =
      .ok [[(.str "IndentRequiresClause", .bool false)]] :=
  Configuration.mappings_of_entries [[("IndentRequiresClause", "false")]] (by decide) rfl rfl
    (by decide)

/-- The text is accepted, and read as it says. -/
private theorem accepts_requiresClause :
    ∃ c, Accepts "IndentRequiresClause: false\n" ⟨.v16, .v3_6, .cpp, "llvm", true⟩ c ∧
      (c.basedOn, c.record.get? "IndentRequiresClause") = (none, some (.bool false)) :=
  accepts_of_mappings (by decide) (by decide +kernel) mappings_requiresClause (by decide +kernel)

/-- The text migrates to the second version, where the flag leads nowhere. -/
theorem migrate_requiresClause :
    (∃ m, (migrate "IndentRequiresClause: false\n" ⟨.v16, .v3_6, .cpp, "llvm", true⟩).outcome =
      .ok m) ∧ ∀ name, ¬ Version.Leads .v3_6 .v16 "IndentRequiresClause" .v3_6 name := by
  obtain ⟨c, accepts, said⟩ := accepts_requiresClause
  obtain ⟨based, -⟩ := Prod.mk.inj said
  refine ⟨migrate_isOk_iff.mpr ⟨by decide, c, accepts, by rw [based]; decide⟩,
    fun name leads => ?_⟩
  rcases leads_requiresClause leads with ⟨at_, -⟩ | ⟨at_, -⟩ <;> cases at_

/-- What is reported of the flag, if it is turned off in a text. -/
theorem exists_report_requiresClause :
    let text := "IndentRequiresClause: false\n"
    let o : Options := ⟨.v16, .v3_6, .cpp, "llvm", true⟩
    ∃ m, (migrate text o).outcome = .ok m ∧ ∃ course : Course text o,
      ((∃ loss ∈ m.losses, GoesBy .v3_6 .v16 "IndentRequiresClause" loss.name) ↔
        ∃ s name, Takes .cpp (Text.lower "llvm") .v3_6 .v16 course.start s ∧
          GoesBy .v3_6 .v16 "IndentRequiresClause" name ∧ (s.record.get? name).isSome = true ∧
          s.record.get? name ≠ s.before.get? name ∧ ¬ s.PassesOn name) := by
  obtain ⟨⟨m, migrated⟩, ends⟩ := migrate_requiresClause
  obtain ⟨course, -, reported, -⟩ :=
    exists_report_iff migrated (Schema.field?_isSome_iff.mp (by decide)) ends
  exact ⟨m, migrated, course, reported⟩

/-- **A change that is not reported.** The text turns off a flag that is on in its style and that
the target does not have, and no loss goes by a name of the flag. -/
theorem migrate_unreported_indentRequires :
    let text := "IndentRequiresClause: false\n"
    let o : Options := ⟨.v16, .v3_6, .cpp, "llvm", true⟩
    ∃ m, (migrate text o).outcome = .ok m ∧
      (∀ name, ¬ Version.Leads .v3_6 .v16 "IndentRequiresClause" .v3_6 name) ∧
      (∃ course : Course text o,
        course.start.record.get? "IndentRequiresClause" = some (.bool false) ∧
        course.start.before.get? "IndentRequiresClause" = some (.bool true)) ∧
      ∀ loss ∈ m.losses, ¬ GoesBy .v3_6 .v16 "IndentRequiresClause" loss.name := by
  intro text o
  obtain ⟨c, accepts, said⟩ := accepts_requiresClause
  obtain ⟨-, off⟩ := Prod.mk.inj said
  obtain ⟨⟨m, migrated⟩, ends⟩ := migrate_requiresClause
  obtain ⟨course, delivered⟩ := exists_course migrated
  obtain rfl := Accepts.unique accepts ⟨course.ambient, course.resolved, course.accepted⟩
  have start := (course.get?_start requiresClause_tables.2.2.1 (by decide)).trans off
  obtain ⟨s₁, s₂, -, -, between₁, passes₁, between₂, off₁, off₂, -, only⟩ :=
    exists_requires_steps (show Version.v3_6 ≤ .v3_6 by decide) course.walked course.sound
      course.supports course.supported start
  refine ⟨m, migrated, ends, ⟨course, start, requiresClause_on course.sound.styled⟩, ?_⟩
  rintro loss member ⟨w, leads⟩
  -- The first step passes the flag on under its new name, and the second one finds it as it is in
  -- every style.
  have absent : Version.v12.schema.field? "IndentRequiresClause" = none ∧
      Version.v16.schema.field? "IndentRequires" = none := by decide
  rcases leads_requiresClause leads with ⟨-, named⟩ | ⟨-, named⟩
  · obtain ⟨s, takes, holds, -, stuck⟩ := (exists_loss_name_iff (v := .v16) course delivered
      (by decide) (Schema.field?_isSome_iff.mp (by decide))).mp ⟨loss, member, named⟩
    rcases only rfl s takes with rfl | rfl
    · exact stuck passes₁
    · rw [get?_eq_none (between₂.schema ▸ absent.1)] at holds
      cases holds
  · obtain ⟨s, takes, holds, differs, -⟩ := (exists_loss_name_iff (v := .v12) course delivered
      (by decide) (Schema.field?_isSome_iff.mp (by decide))).mp ⟨loss, member, named⟩
    rcases only rfl s takes with rfl | rfl
    · rw [get?_eq_none (between₁.schema ▸ absent.2)] at holds
      cases holds
    · rw [Step.changed_iff, off₁, off₂] at differs
      exact differs rfl

end Migration

end FormatStyle
