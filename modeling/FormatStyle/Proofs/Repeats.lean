import FormatStyle.Proofs.Accounts
import FormatStyle.Proofs.Untouched
import FormatStyle.Proofs.WordMappings

/-! # Reports that are repeated

A step reports a field at most once (`Migration.Step.nodup_losses`), and leaves what it reports to
the style of the next version (`Migration.Step.get?_next_of_reported`), so the next step does not
report it again. The step after that one compares with another style, and may. In the tables there
is one such field: a bracket alignment of the highest version is reported where it has no place, the
next step carries the alignment of the style that stands in for it, and where the style then changes
to one that is aligned otherwise, the last step reports the field again
(`Migration.nodup_losses_iff`).
-/

namespace FormatStyle

open StyleRecord

namespace Version

variable {a b : Version} {t t' : Transfer} {name : String}

/-- **A step that reads a field and writes one of its name** does both in one transfer. -/
theorem reads_of_writes (adjacent : a.Adjacent b) (member : t ∈ a.moves b)
    (member' : t' ∈ a.moves b) (reads : name ∈ t.sources) (writes : name ∈ t'.targets) :
    name ∈ t'.sources := by
  have checked : ∀ a ∈ Version.all, ∀ b ∈ Version.all, a.Adjacent b → ∀ t ∈ transfers a b,
      ∀ name ∈ t.targets, name ∈ (transfers a b).flatMap Transfer.sources → name ∈ t.sources := by
    decide
  rcases List.mem_append.mp member' with listed' | shared'
  · rcases List.mem_append.mp member with listed | shared
    · exact checked a a.mem_all b b.mem_all adjacent t' listed' name writes
        (List.mem_flatMap.mpr ⟨t, listed, reads⟩)
    · obtain ⟨name', common, rfl⟩ := List.mem_map.mp shared
      obtain rfl := List.mem_singleton.mp reads
      exact absurd (List.mem_flatMap.mpr ⟨t', listed', writes⟩) (mem_sharedNames.mp common).2.2.1
  · obtain ⟨name', -, rfl⟩ := List.mem_map.mp shared'
    exact writes

end Version

namespace Migration

variable {text : String} {o : Options} {c : Configuration} {m : Migration} {language : Language}
  {fallback name : String} {a b v next target : Version} {w w' top : Walk} {s : Step}

/-! ## What a report leaves behind -/

/-- **What a step reports, it leaves to the style of the next version.** -/
theorem Step.get?_next_of_reported (down : a.next? = some b) (between : s.Between b a)
    (reported : ∃ loss ∈ s.losses, loss.name = name) : s.next.get? name = s.after.get? name := by
  obtain ⟨holds, -, stuck⟩ := (exists_loss_iff down between).mp reported
  refine get?_next_of_unassigned fun t listed assigned => ?_
  have writes := assigned_sublist.subset assigned
  have adjacent := between.adjacent (.inr down)
  rw [between.moves] at listed
  have known : name ∈ b.schema.names := by
    obtain ⟨value, holds⟩ := Option.isSome_iff_exists.mp holds
    obtain ⟨field, found⟩ := field?_of_get? holds
    rw [between.schema] at found
    exact Schema.field?_isSome_iff.mp (by rw [found]; rfl)
  obtain ⟨t', listed', reads⟩ := Version.exists_move_down down known
    (Version.mem_names_of_target (.inr down) listed writes)
  have reads' := Version.reads_of_writes (.inr down) listed' listed reads writes
  obtain ⟨write, assigns, -⟩ := List.mem_map.mp assigned
  rw [← between.moves] at listed
  exact stuck ⟨t, listed, reads', (keeps_iff adjacent listed).mpr ⟨write, assigns⟩⟩

/-- What is as the style has it is not reported. -/
theorem Step.unreported (down : a.next? = some b) (between : s.Between b a)
    (same : s.record.get? name = s.before.get? name) : ¬ ∃ loss ∈ s.losses, loss.name = name :=
  fun reported => changed_iff.mp ((exists_loss_iff down between).mp reported).2.1 same

/-- **A walk is settled** where what it reported is as its style has it. -/
def Walk.Settled (w : Walk) : Prop :=
  ∀ loss ∈ w.losses, w.record.get? loss.name = w.before.get? loss.name

/-- The first reports of a walk are settled. -/
theorem Walk.Advanced.settled (advances : w.Advanced language fallback target v next w')
    (sound : w.Sound language v) (down : next.next? = some v) (fresh : w.losses = []) :
    w'.Settled := by
  intro loss reported
  rw [advances.losses, fresh, List.nil_append] at reported
  rw [advances.record]
  exact Step.get?_next_of_reported down (sound.between advances.sound) ⟨loss, reported, rfl⟩

/-- **A step adds reports of other fields**, unless it finds a reported field changed. -/
theorem Walk.Advanced.nodup_iff (advances : w.Advanced language fallback target v next w')
    (sound : w.Sound language v) (down : next.next? = some v)
    (distinct : (w.losses.map Loss.name).Nodup) :
    (w'.losses.map Loss.name).Nodup ↔ ∀ loss ∈ w.losses,
      ¬ ∃ again ∈ (w.step w'.before).losses, again.name = loss.name := by
  have once := Step.nodup_losses (.inr down) (sound.between advances.sound)
  rw [advances.losses, List.map_append, List.nodup_append]
  constructor
  · rintro ⟨-, -, apart⟩ loss reported ⟨again, made, same⟩
    exact apart _ (List.mem_map_of_mem reported) _ (List.mem_map_of_mem made) same.symm
  · intro apart
    refine ⟨distinct, once, ?_⟩
    intro name reported name' made same
    obtain ⟨loss, listed, rfl⟩ := List.mem_map.mp reported
    obtain ⟨again, lost, rfl⟩ := List.mem_map.mp made
    exact apart loss listed ⟨again, lost, same.symm⟩

/-- A settled walk reports other fields in its next step. -/
theorem Walk.Advanced.nodup (advances : w.Advanced language fallback target v next w')
    (sound : w.Sound language v) (down : next.next? = some v)
    (distinct : (w.losses.map Loss.name).Nodup) (settled : w.Settled) :
    (w'.losses.map Loss.name).Nodup :=
  (advances.nodup_iff sound down distinct).mpr fun loss reported =>
    Step.unreported down (sound.between advances.sound) (settled loss reported)

/-- The first step of a walk reports each field once. -/
theorem Walk.Advanced.nodup_of_fresh (advances : w.Advanced language fallback target v next w')
    (sound : w.Sound language v) (down : next.next? = some v) (fresh : w.losses = []) :
    (w'.losses.map Loss.name).Nodup := by
  rw [advances.losses, fresh, List.nil_append]
  exact Step.nodup_losses (.inr down) (sound.between advances.sound)

/-! ## The fields that two steps may report -/

/-- The field that is reported again. -/
abbrev bracketField : String := "AlignAfterOpenBracket"

/-- Its rows on the way to the version where it is a flag. -/
def bracketRows : List (Literal × Literal) :=
  [(.choice "Align", .bool true), (.choice "DontAlign", .bool false),
    (.choice "AlwaysBreak", .bool false)]

/-- The rows of the spaces before parentheses, on the way to the lowest version. -/
def parensRows : List (Literal × Literal) :=
  [(.choice "ControlStatements", .bool true), (.choice "Never", .bool false),
    (.choice "Always", .bool true)]

theorem bracket_moves :
    .rename bracketField bracketField [] ∈ Version.v16.moves .v12 ∧
      .rename bracketField bracketField bracketRows ∈ Version.v12.moves .v3_6 ∧
      .rename "SpaceBeforeParens" "SpaceAfterControlStatementKeyword" parensRows ∈
        Version.v3_6.moves .v3_4 := by
  refine ⟨List.mem_append_right _ (List.mem_map_of_mem (Version.mem_sharedNames.mpr ?_)),
    List.mem_append_left _ (List.mem_map.mpr
      ⟨.rename bracketField bracketField (bracketRows.map Prod.swap), ?_, rfl⟩),
    List.mem_append_left _ (List.mem_map.mpr
      ⟨.rename "SpaceAfterControlStatementKeyword" "SpaceBeforeParens" (parensRows.map Prod.swap),
        ?_, rfl⟩)⟩
  · exact ⟨Schema.field?_isSome_iff.mp (by decide), Schema.field?_isSome_iff.mp (by decide),
      by decide, by decide⟩
  · exact .tail _ (.tail _ (.tail _ (.head _)))
  · exact .tail _ (.tail _ (.tail _ (.head _)))

/-- **Only the alignment after an open bracket** may have no place on the first step down and on the
last one: every other field of both is steady on one of them, but for one of which every value has a
place on the last step. -/
theorem bracket_tables :
    (Version.v3_6.schema.names.all fun name =>
      name == "SpaceBeforeParens" || name == bracketField || Version.v3_6.steady .v3_4 name ||
      (Version.v16.schema.field? name).isNone || Version.v16.steady .v12 name) = true ∧
    ((Version.v16.schema.scalarKind? bracketField).bind (·.values?)).any (fun values =>
      values.all fun value =>
        (Version.renames? .v16 .v12 bracketField bracketField [] value).isSome ==
          (value != .choice "BlockIndent")) = true ∧
    (∀ word ∈ ["Align", "DontAlign"],
      Version.renames? .v12 .v3_6 bracketField bracketField bracketRows (.choice word) =
        some (.bool (word == "Align"))) ∧
    ((Version.v3_6.schema.scalarKind? "SpaceBeforeParens").bind (·.values?)).any (fun values =>
      values.all fun value => (Version.renames? .v3_6 .v3_4 "SpaceBeforeParens"
        "SpaceAfterControlStatementKeyword" parensRows value).isSome) = true ∧
    Version.v3_4.schema.field? bracketField = none ∧
    bracketField ∉ (transfers .v3_6 .v3_4).flatMap Transfer.sources := by
  decide

/-- What holds of every value of a field that has finitely many, holds of the value in a record. -/
theorem exists_of_values {v : Version} {r : StyleRecord} {P : Value → Bool} (version : r.version = v)
    (wellFormed : r.WellFormed)
    (each : ((v.schema.scalarKind? name).bind (·.values?)).any (·.all P) = true) :
    ∃ value, r.get? name = some value ∧ P value = true := by
  obtain ⟨values, finite, each⟩ := (Option.any_eq_true _ _).mp each
  obtain ⟨kind, is_scalar, finite⟩ := Option.bind_eq_some_iff.mp finite
  obtain ⟨field, found, kind_eq⟩ := Schema.field?_of_scalarKind? is_scalar
  obtain ⟨value, holds, admitted⟩ := (wellFormed_iff.mp wellFormed).get?
    (show r.schema.field? name = some field by rwa [StyleRecord.schema, version])
  rw [kind_eq] at admitted
  exact ⟨value, holds, List.all_eq_true.mp each value (ScalarKind.mem_values? finite admitted)⟩

/-- **The first step down passes on every alignment but one.** -/
theorem Step.bracket_passesOn_iff (between : s.Between .v16 .v12) :
    s.PassesOn bracketField ↔ s.record.get? bracketField ≠ some (.choice "BlockIndent") := by
  obtain ⟨value, holds, tried⟩ :=
    exists_of_values between.source between.wellFormed bracket_tables.2.1
  rw [passesOn_iff_keeps (.inr rfl) between bracket_moves.1 (List.mem_singleton_self _), keeps,
    renamed?_eq_renames? between (by decide) (by decide) holds, beq_iff_eq.mp tried, holds]
  simp

/-- The second step makes the alignments of styles flags. -/
private theorem Step.bracket_next {word : String} (between : s.Between .v12 .v3_6)
    (listed : word ∈ ["Align", "DontAlign"])
    (holds : s.record.get? bracketField = some (.choice word)) :
    s.next.get? bracketField = some (.bool (word == "Align")) := by
  have renamed : s.renamed? bracketField bracketField bracketRows =
      some (.bool (word == "Align")) :=
    (renamed?_eq_renames? between (by decide) (by decide) holds).trans
      (bracket_tables.2.2.1 word listed)
  refine get?_next_of_assigned (between.adjacent (.inr rfl)) between.after_wellFormed
    (between.moves ▸ bracket_moves.2.1) ?_
  rw [(assigned_rename renamed).1]
  exact List.mem_singleton_self _

/-- The last step passes on the spaces before parentheses. -/
private theorem Step.parens_passesOn (between : s.Between .v3_6 .v3_4) :
    s.PassesOn "SpaceBeforeParens" := by
  obtain ⟨value, holds, kept⟩ :=
    exists_of_values between.source between.wellFormed bracket_tables.2.2.2.1
  rw [passesOn_iff_keeps (.inr rfl) between bracket_moves.2.2 (List.mem_singleton_self _), keeps,
    renamed?_eq_renames? between (by decide) (by decide) holds]
  exact kept

/-- **The first step and the last one report no other field.** -/
theorem eq_bracketField {s₁ s₃ : Step} (between₁ : s₁.Between .v16 .v12)
    (between₃ : s₃.Between .v3_6 .v3_4) (first : ∃ loss ∈ s₁.losses, loss.name = name)
    (last : ∃ loss ∈ s₃.losses, loss.name = name) : name = bracketField := by
  obtain ⟨holds₁, -, stuck₁⟩ := (Step.exists_loss_iff (a := .v12) rfl between₁).mp first
  obtain ⟨holds₃, -, stuck₃⟩ := (Step.exists_loss_iff (a := .v3_4) rfl between₃).mp last
  obtain ⟨field, found⟩ := field?_of_get? (Option.eq_some_of_isSome holds₁)
  obtain ⟨other, found'⟩ := field?_of_get? (Option.eq_some_of_isSome holds₃)
  rw [between₁.schema] at found
  rw [between₃.schema] at found'
  have known : name ∈ Version.v3_6.schema.names :=
    Schema.field?_isSome_iff.mp (by rw [found']; rfl)
  have checked := List.all_eq_true.mp bracket_tables.1 name known
  simp only [found, Option.isNone_some, Bool.or_false, Bool.or_eq_true, beq_iff_eq] at checked
  rcases checked with ((parens | bracket) | steady) | steady
  · exact absurd (parens ▸ Step.parens_passesOn between₃) stuck₃
  · exact bracket
  · exact absurd (Step.passesOn_of_steady between₃ steady) stuck₃
  · exact absurd (Step.passesOn_of_steady between₁ steady) stuck₁

/-- How a style is aligned in a version: by a flag, or by the word for it. -/
def bracketOf (v : Version) (style : String) : Option Value :=
  if v = .v3_4 then none
  else if v = .v3_6 then some (.bool (decide (style ≠ "webkit")))
  else some (.choice (if style = "webkit" then "DontAlign" else "Align"))

/-- **One style is aligned otherwise than the others**, in every version that has the field, and one
style of the two highest versions ends below them. -/
theorem bracket_styles :
    (∀ v ∈ Version.all, bracketField ∉ v.schema.presetWrites ∧
      ∀ name ∈ v.schema.styleNames, ((v.schema.style? name).any fun style =>
        (style.sketch v .cpp).get? bracketField == bracketOf v name) = true) ∧
    (∀ name ∈ Version.v16.schema.styleNames, name ∈ Version.v12.schema.styleNames ∧
      (name ∈ Version.v3_6.schema.styleNames ↔ name ≠ "microsoft")) ∧
    bracketField ∉ Version.v16.schema.presets.map (·.selector) := by
  decide

theorem bracket_of_sound (sound : w.Sound .cpp v) :
    w.before.get? bracketField = bracketOf v w.style := by
  obtain ⟨unwritten, styles⟩ := bracket_styles.1 v v.mem_all
  obtain ⟨-, named, -, found, holds⟩ := get?_of_expandedStyle sound.styled
  have own := styles w.style sound.known
  rw [found, Option.any_some, beq_iff_eq] at own
  rw [holds _ unwritten, own]

/-! ## Where a report is repeated -/

/-- The first step down reports the alignment that has no place in the next version. -/
theorem reports_bracket_first (sound : w.Sound .cpp .v16)
    (advances : w.Advanced .cpp fallback target .v16 .v12 w') :
    (∃ loss ∈ (w.step w'.before).losses, loss.name = bracketField) ↔
      w.record.get? bracketField = some (.choice "BlockIndent") := by
  have between := sound.between advances.sound
  rw [Step.exists_loss_iff (a := .v12) rfl between, Step.bracket_passesOn_iff between, not_not]
  refine ⟨fun reported => reported.2.2, fun holds => ⟨by rw [holds]; rfl, ?_, holds⟩⟩
  rw [Step.changed_iff, holds, bracket_of_sound sound, bracketOf, if_neg (by decide),
    if_neg (by decide)]
  split <;> decide

/-- **The last step reports an alignment that was left to the style** exactly where the style has
changed to one that is aligned otherwise. -/
theorem reports_bracket_last {w₁ w₂ w₃ : Walk} (sound : w₁.Sound .cpp .v12)
    (left : w₁.record.get? bracketField = w₁.before.get? bracketField)
    (second : w₁.Advanced .cpp fallback target .v12 .v3_6 w₂)
    (third : w₂.Advanced .cpp fallback target .v3_6 .v3_4 w₃) :
    (∃ loss ∈ (w₂.step w₃.before).losses, loss.name = bracketField) ↔
      (w₁.style = "webkit" ↔ w₂.style ≠ "webkit") := by
  have between₂ := sound.between second.sound
  have between₃ := second.sound.between third.sound
  have carried : w₂.record.get? bracketField = some (.bool (decide (w₁.style ≠ "webkit"))) := by
    rw [bracket_of_sound sound, bracketOf, if_neg (by decide), if_neg (by decide)] at left
    rw [second.record, Step.bracket_next between₂ (by split <;> decide) left]
    by_cases webkit : w₁.style = "webkit" <;> simp [webkit]
  have ends : ¬ (w₂.step w₃.before).PassesOn bracketField := by
    rintro ⟨t, listed, reads, -⟩
    rw [between₃.moves] at listed
    exact Version.notMem_sources_of_ends bracket_tables.2.2.2.2.1 bracket_tables.2.2.2.2.2 listed
      reads
  rw [Step.exists_loss_iff (a := .v3_4) rfl between₃, Step.changed_iff, carried,
    bracket_of_sound second.sound, bracketOf, if_neg (by decide), if_pos rfl]
  by_cases webkit : w₁.style = "webkit" <;> by_cases webkit' : w₂.style = "webkit" <;>
    simp [webkit, webkit', ends]

/-- The style below the versions that have them all. -/
private theorem kept_below {style kept : String} (known : style ∈ Version.v16.schema.styleNames)
    (offered : Version.v3_6.offered? style fallback = some kept) :
    kept = if style = "microsoft" then fallback else style := by
  have lasts := (bracket_styles.2.1 style known).2
  unfold Version.offered? at offered
  split at offered
  · rename_i listed
    rw [if_neg (lasts.mp listed)]
    exact (Option.some.inj offered).symm
  · rename_i ended
    rw [if_pos (by simpa [lasts] using ended)]
    split at offered
    · exact (Option.some.inj offered).symm
    · cases offered

/-- On the whole way down, only the alignment may be reported by the last step again: the second one
leaves what it reports to its style. -/
theorem repeats_iff {w₁ w₂ w₃ : Walk} (sound : w.Sound .cpp .v16) (fresh : w.losses = [])
    (first : w.Advanced .cpp fallback target .v16 .v12 w₁)
    (second : w₁.Advanced .cpp fallback target .v12 .v3_6 w₂)
    (third : w₂.Advanced .cpp fallback target .v3_6 .v3_4 w₃) :
    (∃ loss ∈ w₂.losses, ∃ again ∈ (w₂.step w₃.before).losses, again.name = loss.name) ↔
      (∃ loss ∈ (w.step w₁.before).losses, loss.name = bracketField) ∧
        ∃ again ∈ (w₂.step w₃.before).losses, again.name = bracketField := by
  have between₁ := sound.between first.sound
  have between₂ := first.sound.between second.sound
  have between₃ := second.sound.between third.sound
  rw [second.losses, first.losses, fresh, List.nil_append]
  constructor
  · rintro ⟨loss, made, again⟩
    rcases List.mem_append.mp made with made | made
    · have named := eq_bracketField between₁ between₃ ⟨loss, made, rfl⟩ again
      exact ⟨⟨loss, made, named⟩, named ▸ again⟩
    · have left := Step.get?_next_of_reported (a := .v3_6) rfl between₂ ⟨loss, made, rfl⟩
      rw [← second.record] at left
      exact absurd again (Step.unreported (a := .v3_4) rfl between₃ left)
  · rintro ⟨⟨loss, made, named⟩, again⟩
    exact ⟨loss, List.mem_append_left _ made, named ▸ again⟩

/-- The last step reports an alignment without a place again exactly where the style ends on the
way and the fallback is aligned otherwise. -/
private theorem reports_bracket_again {w₁ w₂ w₃ : Walk} (sound : w.Sound .cpp .v16) (fresh : w.losses = [])
    (first : w.Advanced .cpp fallback target .v16 .v12 w₁)
    (second : w₁.Advanced .cpp fallback target .v12 .v3_6 w₂)
    (third : w₂.Advanced .cpp fallback target .v3_6 .v3_4 w₃)
    (holds : w.record.get? bracketField = some (.choice "BlockIndent")) :
    (∃ again ∈ (w₂.step w₃.before).losses, again.name = bracketField) ↔
      w.style = "microsoft" ∧ fallback = "webkit" := by
  have same : w₁.style = w.style := by
    have lasts := (bracket_styles.2.1 _ sound.known).1
    exact (Option.some.inj ((Version.offered?_of_mem lasts).symm.trans first.offered)).symm
  obtain ⟨loss, made, named⟩ := (reports_bracket_first sound first).mpr holds
  have left := first.settled sound rfl fresh loss (first.losses ▸ List.mem_append_right _ made)
  have offered := second.offered
  rw [same] at offered
  rw [reports_bracket_last first.sound (named ▸ left) second third, same,
    kept_below sound.known offered]
  by_cases ends : w.style = "microsoft" <;> simp [ends]

/-- **On the whole way down a field is reported twice** exactly where an alignment without a place
meets the style that ends and the one that is aligned otherwise. -/
theorem nodup_to_lowest
    (walked : (walk .cpp fallback .v3_4 .v16 w).outcome = .ok top) (sound : w.Sound .cpp .v16)
    (fresh : w.losses = []) :
    (top.losses.map Loss.name).Nodup ↔ ¬ (w.style = "microsoft" ∧ fallback = "webkit" ∧
      w.record.get? bracketField = some (.choice "BlockIndent")) := by
  have supports (v : Version) : v.schema.supports .cpp = true := by cases v <;> decide
  obtain ⟨w₁, first, walked₁⟩ := exists_advanced
    (show Version.v16.stepTowards .v3_4 = some .v12 from rfl) walked sound (supports _) (supports _)
  obtain ⟨w₂, second, walked₂⟩ := exists_advanced
    (show Version.v12.stepTowards .v3_4 = some .v3_6 from rfl) walked₁ first.sound (supports _)
    (supports _)
  obtain ⟨w₃, third, walked₃⟩ := exists_advanced
    (show Version.v3_6.stepTowards .v3_4 = some .v3_4 from rfl) walked₂ second.sound (supports _)
    (supports _)
  obtain rfl := Except.ok.inj (outcome_walk_self.symm.trans walked₃)
  have distinct := second.nodup first.sound rfl (first.nodup_of_fresh sound rfl fresh)
    (first.settled sound rfl fresh)
  rw [third.nodup_iff second.sound rfl distinct,
    show (∀ loss ∈ w₂.losses, ¬ ∃ again ∈ (w₂.step w₃.before).losses, again.name = loss.name) ↔
      ¬ ∃ loss ∈ w₂.losses, ∃ again ∈ (w₂.step w₃.before).losses, again.name = loss.name by
        simp only [not_exists, not_and],
    repeats_iff sound fresh first second third, reports_bracket_first sound first, ← and_assoc,
    and_comm, and_congr_left (reports_bracket_again sound fresh first second third)]

/-- **A shorter way repeats no report**: the second step finds what the first one reported as its
style has it. -/
theorem Course.nodup_losses (course : Course text o)
    (short : ¬ (o.source = .v16 ∧ o.target = .v3_4)) : (course.top.losses.map Loss.name).Nodup := by
  by_cases le : o.source ≤ o.target
  · simp [course.losses_of_le le]
  have below : o.target ≤ o.source := Nat.le_of_not_le le
  have fresh := course.lossless
  have apart : o.source ≠ o.target := fun same => le (Nat.le_of_eq (congrArg _ same))
  obtain ⟨v₁, towards₁⟩ := Option.ne_none_iff_exists'.mp
    (mt (Version.stepTowards_eq_none_iff o.source o.target).mp apart)
  obtain ⟨down₁, below₁⟩ := Version.next_of_stepTowards below towards₁
  obtain ⟨w₁, first, walked₁⟩ :=
    exists_advanced towards₁ course.walked course.sound course.supports course.supported
  have distinct₁ := first.nodup_of_fresh course.sound down₁ fresh
  cases towards₂ : v₁.stepTowards o.target with
  | none =>
    obtain rfl := (Version.stepTowards_eq_none_iff v₁ o.target).mp towards₂
    rwa [← Except.ok.inj (outcome_walk_self.symm.trans walked₁)]
  | some v₂ =>
    obtain ⟨down₂, below₂⟩ := Version.next_of_stepTowards below₁ towards₂
    obtain ⟨w₂, second, walked₂⟩ := exists_advanced towards₂ walked₁ first.sound
      (Version.supports_towards towards₁ course.supports course.supported) course.supported
    have arrived : v₂ = o.target := by
      revert short down₁ down₂ below₂
      cases o.source <;> cases v₁ <;> cases v₂ <;> cases o.target <;> decide
    subst arrived
    rw [← Except.ok.inj (outcome_walk_self.symm.trans walked₂)]
    exact second.nodup first.sound down₂ distinct₁ (first.settled course.sound down₁ fresh)

/-- The losses of a walk name fields. -/
theorem Course.ne_basedOnKey (course : Course text o) :
    ∀ loss ∈ course.top.losses, loss.name ≠ basedOnKey := by
  intro loss made
  by_cases le : o.source ≤ o.target
  · rw [course.losses_of_le le] at made
    cases made
  have reported :=
    (mem_losses_iff course.walked course.sound course.supports course.supported).mp made
  rw [course.lossless] at reported
  obtain ⟨s, takes, lost⟩ := reported.resolve_left List.not_mem_nil
  obtain ⟨a, b, next, between⟩ :=
    takes.down (Nat.le_of_not_le le) course.sound course.supports course.supported
  obtain ⟨holds, -, -⟩ := (Step.exists_loss_iff next between).mp ⟨loss, lost, rfl⟩
  obtain ⟨field, found⟩ := field?_of_get? (Option.eq_some_of_isSome holds)
  rw [between.schema] at found
  exact Migration.ne_basedOnKey (Schema.field?_isSome_iff.mp (by rw [found]; rfl))

/-- What is delivered repeats what the walk repeats. -/
theorem nodup_delivered (course : Course text o) {inherits : Bool}
    (delivered : deliver o inherits course.top = .ok m) :
    (m.losses.map Loss.name).Nodup ↔ (course.top.losses.map Loss.name).Nodup := by
  rw [(deliver_eq_ok delivered).2.2.1]
  unfold keepInheritance
  split
  · split
    · rfl
    · rw [List.map_append, List.nodup_append]
      refine ⟨fun nodup => nodup.1, fun nodup => ⟨nodup, by simp, ?_⟩⟩
      intro name made name' inherited same
      obtain ⟨loss, reported, rfl⟩ := List.mem_map.mp made
      obtain rfl := List.mem_singleton.mp inherited
      exact course.ne_basedOnKey loss reported same
  · rfl

/-- **Where a field is reported twice**: on the whole way down, of an alignment that only the
highest version has, on top of the style that ends below the second highest version, if the fallback
is the style that is aligned otherwise. -/
def ReportsTwice (o : Options) (c : Configuration) : Prop :=
  o.source = .v16 ∧ o.target = .v3_4 ∧
    saidStyle (Text.lower o.fallbackStyle) c.basedOn = "microsoft" ∧
    Text.lower o.fallbackStyle = "webkit" ∧
    c.record.get? bracketField = some (.choice "BlockIndent")

/-- **A migration reports no field twice**, but for one alignment on the whole way down. -/
theorem nodup_losses_iff (migrated : (migrate text o).outcome = .ok m)
    (accepts : Accepts text o c) :
    (m.losses.map Loss.name).Nodup ↔ ¬ ReportsTwice o c := by
  obtain ⟨course, rfl, delivered⟩ := exists_course_of_accepts accepts migrated
  rw [nodup_delivered course delivered]
  by_cases whole : o.source = .v16 ∧ o.target = .v3_4
  · obtain ⟨source, target⟩ := whole
    have language : o.language = .cpp := Version.language_of_lowest (target ▸ course.supported)
    have sound := course.sound
    have walked := course.walked
    have start (unwritten : bracketField ∉ o.source.schema.presetWrites)
        (unselected : bracketField ∉ o.source.schema.presets.map (·.selector)) :=
      course.get?_start unwritten unselected
    rw [source] at sound start
    rw [source, target, language] at walked
    rw [language] at sound
    rw [nodup_to_lowest walked sound course.lossless, course.chosen,
      start (bracket_styles.1 _ Version.v16.mem_all).1 bracket_styles.2.2, ReportsTwice, source,
      target]
    simp
  · exact iff_of_true (course.nodup_losses whole) fun twice => whole ⟨twice.1, twice.2.1⟩

/-- A style as it is goes all the way down, and each field is reported once. -/
theorem nodup_losses_llvm :
    ∃ m c, (migrate "BasedOnStyle: llvm\n" ⟨.v16, .v3_4, .cpp, "llvm", true⟩).outcome = .ok m ∧
      Accepts "BasedOnStyle: llvm\n" ⟨.v16, .v3_4, .cpp, "llvm", true⟩ c ∧
      ((m.losses.map Loss.name).Nodup ↔
        ¬ ReportsTwice ⟨.v16, .v3_4, .cpp, "llvm", true⟩ c) := by
  obtain ⟨c, accepts, -, based⟩ := untouched_llvm .v3_4 (by decide : Version.v16 ∈ _)
  obtain ⟨m, migrated⟩ : ∃ m, (migrate "BasedOnStyle: llvm\n"
      ⟨.v16, .v3_4, .cpp, "llvm", true⟩).outcome = .ok m :=
    migrate_isOk_iff.mpr ⟨by decide, c, accepts, by rw [based]; decide⟩
  exact ⟨m, c, migrated, accepts, nodup_losses_iff migrated accepts⟩

/-- The alignment without a place, on top of the style that ends. -/
def blockIndentMapping : Yaml.Mapping :=
  [(.str "BasedOnStyle", .str "Microsoft"), (.str "AlignAfterOpenBracket", .str "BlockIndent")]

private theorem mappings_blockIndent :
    Configuration.mappings
        "---\nBasedOnStyle: Microsoft\nAlignAfterOpenBracket: BlockIndent\n...\n" =
      .ok [blockIndentMapping] := by
  have read := Configuration.mappings_frame
    (Configuration.readsBack_of_words (show Yaml.isWordMapping blockIndentMapping = true by
      decide))
  have shown : StyleRecord.frame blockIndentMapping =
      "---\nBasedOnStyle: Microsoft\nAlignAfterOpenBracket: BlockIndent\n...\n" := by
    decide
  rwa [shown] at read

/-- **A field that is reported twice**, first because its value has no place, and then because it is
dropped. -/
theorem migrate_reports_twice :
    let text := "---\nBasedOnStyle: Microsoft\nAlignAfterOpenBracket: BlockIndent\n...\n"
    let o : Options := ⟨.v16, .v3_4, .cpp, "webkit", true⟩
    ∃ m, (migrate text o).outcome = .ok m ∧ ¬ (m.losses.map Loss.name).Nodup := by
  intro text o
  obtain ⟨c, accepts, said⟩ : ∃ c, Accepts text o c ∧ (c.basedOn, c.record.get? bracketField) =
      (some "Microsoft", some (.choice "BlockIndent")) :=
    accepts_of_mappings (by decide) (by decide) mappings_blockIndent (by decide +kernel)
  obtain ⟨based, holds⟩ := Prod.mk.inj said
  obtain ⟨m, migrated⟩ : ∃ m, (migrate text o).outcome = .ok m :=
    migrate_isOk_iff.mpr ⟨by decide, c, accepts, by rw [based]; decide⟩
  obtain ⟨course, rfl, delivered⟩ := exists_course_of_accepts accepts migrated
  have start := (course.get?_start (bracket_styles.1 _ Version.v16.mem_all).1
    bracket_styles.2.2).trans holds
  refine ⟨m, migrated, fun nodup => ?_⟩
  refine (nodup_to_lowest course.walked course.sound course.lossless).mp
    ((nodup_delivered course delivered).mp nodup) ⟨?_, by decide, start⟩
  rw [course.chosen, based]
  decide

end Migration

end FormatStyle
