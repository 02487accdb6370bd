import FormatStyle.Proofs.Upgrade

/-! # The course of a migration

From a record in good order every step of a walk succeeds, and leads to a record in good order
(`Migration.advance_of_sound`). So a walk fails only for want of a style: it arrives with the style
that the target offers, and does not arrive if the target offers none
(`Migration.walk_of_sound`). What a migration went through on its way is its `Migration.Course`.
-/

namespace FormatStyle

open StyleRecord

namespace Version

variable {v next target : Version} {name style fallback : String} {language : Language}

/-- A step towards another version stays between the two. -/
theorem between_of_stepTowards (towards : v.stepTowards target = some next) :
    (v ≤ next ∧ next ≤ target) ∨ (target ≤ next ∧ next ≤ v) := by
  revert towards
  cases v <;> cases target <;> cases next <;> decide

theorem eq_of_distance (near : v.distance target = 0) : v = target := by
  unfold distance at near
  exact rank_injective (by omega)

/-- A version that is not there yet has a step to take. -/
theorem exists_stepTowards {n : Nat} (far : v.distance target = n + 1) :
    ∃ next, v.stepTowards target = some next := by
  refine Option.ne_none_iff_exists'.mp fun arrived => ?_
  rw [stepTowards_eq_none_iff] at arrived
  subst arrived
  unfold distance at far
  omega

/-- The lowest version supports one language. -/
theorem language_of_lowest (supported : Version.v3_4.schema.supports language = true) :
    language = .cpp := by
  revert supported
  cases language <;> decide

/-- A language that two versions support, every version on the way supports. -/
theorem supports_towards (towards : v.stepTowards target = some next)
    (supported : v.schema.supports language = true)
    (supported' : target.schema.supports language = true) :
    next.schema.supports language = true := by
  rcases between_of_stepTowards towards with ⟨up, -⟩ | ⟨down, -⟩
  · exact (grows up).1 _ supported
  · exact (grows down).1 _ supported'

/-- A style that two versions know, every version on the way knows. -/
private theorem knows_towards (towards : v.stepTowards target = some next)
    (known : name ∈ v.schema.styleNames) (known' : name ∈ target.schema.styleNames) :
    name ∈ next.schema.styleNames := by
  rcases between_of_stepTowards towards with ⟨up, -⟩ | ⟨down, -⟩
  · exact (grows up).2 _ known
  · exact (grows down).2 _ known'

/-- **The style that a version offers** in the place of another one: that style, or else the
fallback. -/
def offered? (v : Version) (style fallback : String) : Option String :=
  if style ∈ v.schema.styleNames then some style
  else if fallback ∈ v.schema.styleNames then some fallback
  else none

theorem offered?_of_mem (known : style ∈ v.schema.styleNames) :
    v.offered? style fallback = some style := if_pos known

/-- What a version offers, it knows. -/
theorem mem_of_offered? (offered : v.offered? style fallback = some name) :
    name ∈ v.schema.styleNames := by
  unfold offered? at offered
  split at offered
  · rename_i known
    exact Option.some.inj offered ▸ known
  · split at offered
    · rename_i known
      exact Option.some.inj offered ▸ known
    · cases offered

theorem offered?_eq_none_iff : v.offered? style fallback = none ↔
    style ∉ v.schema.styleNames ∧ fallback ∉ v.schema.styleNames := by
  unfold offered?
  split <;> simp_all

/-- Only below a version can one of its styles be missing. -/
theorem lt_of_offered?_eq_none (known : style ∈ v.schema.styleNames)
    (offered : target.offered? style fallback = none) : target < v := by
  refine Nat.lt_of_not_le fun le => ?_
  exact (offered?_eq_none_iff.mp offered).1 ((grows le).2 _ known)

/-- **What a version on the way offers does not change what the target offers.** -/
theorem offered?_towards (fallback : String) (towards : v.stepTowards target = some next)
    (known : style ∈ v.schema.styleNames) :
    (next.offered? style fallback = none → target.offered? style fallback = none) ∧
    ∀ kept, next.offered? style fallback = some kept →
      target.offered? kept fallback = target.offered? style fallback := by
  by_cases lasts : style ∈ next.schema.styleNames
  · rw [offered?_of_mem lasts]
    refine ⟨nofun, fun kept same => ?_⟩
    rw [Option.some.inj same]
  -- The style ends here, so the way goes down, and the target knows no more than this version.
  have missing : style ∉ target.schema.styleNames := fun known' =>
    lasts (knows_towards towards known known')
  have down : target ≤ next := by
    rcases between_of_stepTowards towards with ⟨up, -⟩ | ⟨down, -⟩
    · exact absurd ((grows up).2 _ known) lasts
    · exact down
  unfold offered?
  rw [if_neg lasts, if_neg missing]
  constructor
  · intro offered
    split at offered
    · cases offered
    · rename_i lasts'
      exact if_neg fun known' => lasts' ((grows down).2 _ known')
  · intro kept same
    split at same
    · obtain rfl := Option.some.inj same
      split <;> rfl
    · cases same

end Version

namespace Migration

/-- All that a step loses. -/
def Step.losses (s : Step) : List Loss := s.moves.flatMap s.lost ++ s.dropped

variable {v next target : Version} {language : Language} {fallback style : String} {w top : Walk}

/-- **A walk in good order** at a version: a native record for the language, next to a style that
the version knows, with its presets written out. -/
structure Walk.Sound (language : Language) (v : Version) (w : Walk) : Prop where
  native : w.record.Native
  version : w.record.version = v
  tag : w.record.language = language
  known : w.style ∈ v.schema.styleNames
  styled : (expandedStyle v w.style language).outcome = .ok w.before

/-- A walk in good order holds a value in every field. -/
theorem Walk.Sound.holds {name : String} (sound : w.Sound language v)
    (known : name ∈ v.schema.names) : (w.record.get? name).isSome = true := by
  obtain ⟨field, found⟩ := Option.isSome_iff_exists.mp (Schema.field?_isSome_iff.mpr known)
  obtain ⟨value, holds, -⟩ := sound.native.stores.get?
    (show w.record.schema.field? name = some field by
      rw [StyleRecord.schema, sound.version, found])
  exact Option.isSome_iff_exists.mpr ⟨value, holds⟩

/-- A written out style is a style with its presets written out. -/
theorem resolve_of_expandedStyle {r : StyleRecord}
    (expanded : (expandedStyle v style language).outcome = .ok r) :
    ∃ resolved, (Style.resolve v style language).outcome = .ok resolved ∧
      resolved.expand = .ok r ∧
      ∀ name, name ∉ v.schema.presetWrites → r.get? name = resolved.get? name := by
  unfold expandedStyle at expanded
  rw [Traced.outcome_bind] at expanded
  obtain ⟨resolved, resolve, expand⟩ := Outcome.bind_eq_ok_iff.mp expanded
  obtain ⟨native, version, -⟩ := Style.native_of_resolve resolve
  obtain ⟨r', expand', -, -, frame⟩ := expand_isOk native
  obtain rfl := Except.ok.inj (expand'.symm.trans expand)
  rw [StyleRecord.schema, version] at frame
  exact ⟨resolved, resolve, expand, frame⟩

/-- A written out style is native, and does not inherit. -/
theorem native_of_expandedStyle {r : StyleRecord}
    (expanded : (expandedStyle v style language).outcome = .ok r) :
    r.Native ∧ r.version = v ∧ r.language = language ∧ r.inheritsParent = false := by
  obtain ⟨resolved, resolve, expand, -⟩ := resolve_of_expandedStyle expanded
  obtain ⟨native, version, tag, plain, -⟩ := Style.native_of_resolve resolve
  obtain ⟨r', expand', native', same, -⟩ := expand_isOk native
  obtain rfl := Except.ok.inj (expand'.symm.trans expand)
  exact ⟨native', same.1.trans version, same.2.1.trans tag, same.2.2.trans plain⟩

theorem outcome_nextStyle_eq : (nextStyle style fallback v).outcome =
    match v.offered? style fallback with
    | some kept => .ok kept
    | none => .error (.incompatibleStyle style v.text v.schema.styleNames) := by
  unfold nextStyle Version.offered?
  by_cases known : style ∈ v.schema.styleNames
  · simp [known]
  · by_cases known' : fallback ∈ v.schema.styleNames <;> simp [known, known']

/-- The step that a walk takes next. -/
abbrev Walk.step (w : Walk) (after : StyleRecord) : Step := ⟨w.record, w.before, after⟩

/-- **One version on**, where that version offers a style: the step succeeds, and the walk stays in
good order. -/
theorem advance_of_sound (sound : w.Sound language v) (adjacent : v.Adjacent next)
    (supported : next.schema.supports language = true)
    (offered : next.offered? w.style fallback = some style) :
    ∃ after, (expandedStyle next style language).outcome = .ok after ∧
      (advance language fallback v next w).outcome =
        .ok ⟨(w.step after).next, style, after, w.losses ++ (w.step after).losses⟩ ∧
      Walk.Sound language next
        ⟨(w.step after).next, style, after, w.losses ++ (w.step after).losses⟩ := by
  have known := Version.mem_of_offered? offered
  obtain ⟨after, expanded, native, version, -, plain⟩ := expandedStyle_isOk supported known
  have adjacent' : (w.step after).record.version.Adjacent (w.step after).after.version := by
    rw [sound.version, version]
    exact adjacent
  obtain ⟨native', -⟩ := Step.native_next adjacent' sound.native native plain
  refine ⟨after, expanded, ?_, native', Step.version_next.trans version,
    Step.language_next.trans sound.tag, known, expanded⟩
  unfold advance
  simp only [Traced.outcome_bind, outcome_nextStyle_eq, offered, Outcome.ok_bind,
    Traced.outcome_log, expanded, Step.outcome_run adjacent' native.wellFormed,
    Traced.outcome_pure, Step.losses]

/-- **A walk arrives with the style that the target offers**, in good order and with all the losses
that it had before. It does not arrive if the target offers none. By induction on the versions to
go. -/
theorem walk_of_sound (fallback : String) (sound : w.Sound language v)
    (supported : v.schema.supports language = true)
    (supported' : target.schema.supports language = true) :
    match target.offered? w.style fallback with
    | some style => ∃ top, (walk language fallback target v w).outcome = .ok top ∧
        top.Sound language target ∧ top.style = style
    | none => ∃ style version names, (walk language fallback target v w).outcome =
        .error (.incompatibleStyle style version names) := by
  induction steps : v.distance target generalizing v w with
  | zero =>
    obtain rfl := Version.eq_of_distance steps
    rw [Version.offered?_of_mem sound.known]
    exact ⟨w, outcome_walk_self, sound, rfl⟩
  | succ n ih =>
    obtain ⟨next, towards⟩ := Version.exists_stepTowards steps
    obtain ⟨ends, lasts⟩ := Version.offered?_towards fallback towards sound.known
    rw [outcome_walk_step towards]
    cases offered : next.offered? w.style fallback with
    | none =>
      rw [ends offered]
      refine ⟨w.style, next.text, next.schema.styleNames, ?_⟩
      unfold advance
      rw [Traced.outcome_bind, outcome_nextStyle_eq, offered]
      rfl
    | some style =>
      have supports := Version.supports_towards towards supported supported'
      obtain ⟨after, -, advanced, sound'⟩ := advance_of_sound sound
        (Version.adjacent_of_stepTowards towards) supports offered
      rw [advanced, Outcome.ok_bind, ← lasts style offered]
      exact ih sound' supports (by have := Version.distance_stepTowards towards; omega)

/-- **Walk some versions on**, one after the other, and no further than the target. -/
def advanceBy (language : Language) (fallback : String) (target : Version) :
    Nat → Version → Walk → Except StyleError Walk
  | 0, _, w => .ok w
  | n + 1, v, w =>
    match v.stepTowards target with
    | none => .ok w
    | some next =>
      (advance language fallback v next w).outcome >>= advanceBy language fallback target n next

/-- **A walk takes as many steps as its versions are apart.** It goes by their distance, and so does
not compute; the steps by their number do. -/
theorem outcome_walk_eq_advanceBy :
    (walk language fallback target v w).outcome =
      advanceBy language fallback target (v.distance target) v w := by
  induction steps : v.distance target generalizing v w with
  | zero =>
    obtain rfl := Version.eq_of_distance steps
    exact outcome_walk_self
  | succ n ih =>
    obtain ⟨next, towards⟩ := Version.exists_stepTowards steps
    have near : next.distance target = n := by
      have := Version.distance_stepTowards towards
      omega
    unfold advanceBy
    rw [outcome_walk_step towards, towards]
    dsimp only
    congr 1
    funext w
    exact ih near

/-! ## What a migration goes through -/

variable {text : String} {o : Options} {c : Configuration} {m : Migration}

/-- The record that a walk starts from: what was read, with its presets written out and named
again where that is possible. -/
def settled (r : StyleRecord) : Except StyleError StyleRecord := do
  let expanded ← r.expand
  expanded.collapse.outcome

/-- **A native record can be settled**, which touches only the fields of presets. -/
theorem settled_isOk {r : StyleRecord} (native : r.Native) :
    ∃ record, settled r = .ok record ∧ record.Native ∧ SameTags record r ∧
      ∀ name, name ∉ r.schema.presetWrites → name ∉ r.selectors →
        record.get? name = r.get? name := by
  obtain ⟨expanded, expand, native', same, frame⟩ := expand_isOk native
  obtain ⟨record, collapse, native'', same', frame'⟩ := collapse_isOk native'
  refine ⟨record, by rw [settled, expand, Outcome.ok_bind, collapse], native'', same'.trans same,
    fun name unwritten unselected => ?_⟩
  rw [frame' name (by rwa [selectors, same.schema]), frame name unwritten]

/-- Inheritance is kept where the version has it, and else it is lost. -/
theorem native_keepInheritance (inherits : Bool) (native : w.record.Native) :
    (keepInheritance inherits w).record.Native ∧ (keepInheritance inherits w).style = w.style := by
  unfold keepInheritance
  split
  · split
    · rename_i has
      exact ⟨⟨native.stores, fun _ => has⟩, rfl⟩
    · exact ⟨native, rfl⟩
  · exact ⟨native, rfl⟩

/-- What the text of a migration is compared with. -/
def baseline? (o : Options) (style : String) : Except StyleError (Option StyleRecord) :=
  if o.skipSame then some <$> (Style.resolve o.target style o.language).outcome else .ok none

/-- **What is delivered** where a walk has arrived. -/
def deliver (o : Options) (inherits : Bool) (top : Walk) : Except StyleError Migration := do
  let w := keepInheritance inherits top
  let baseline ← baseline? o w.style
  let text ← (w.record.write baseline).outcome
  return ⟨text, w.record, w.style, w.losses⟩

/-- What is delivered is what has arrived, and its text. -/
theorem deliver_eq_ok {inherits : Bool} (delivered : deliver o inherits top = .ok m) :
    m.record = (keepInheritance inherits top).record ∧ m.style = top.style ∧
      m.losses = (keepInheritance inherits top).losses ∧
      ∃ baseline, baseline? o top.style = .ok baseline ∧
        (m.record.write baseline).outcome = .ok m.text := by
  have style : (keepInheritance inherits top).style = top.style := by
    unfold keepInheritance
    split
    · split <;> rfl
    · rfl
  unfold deliver at delivered
  obtain ⟨baseline, compared, delivered⟩ := Outcome.bind_eq_ok_iff.mp delivered
  obtain ⟨text, written, delivered⟩ := Outcome.bind_eq_ok_iff.mp delivered
  obtain rfl := Except.ok.inj delivered
  exact ⟨rfl, style, rfl, baseline, style ▸ compared, written⟩

/-- There is something to compare with next to each style that the target knows. -/
theorem baseline?_isOk (supported : o.target.schema.supports o.language = true)
    (known : style ∈ o.target.schema.styleNames) :
    ∃ baseline, baseline? o style = .ok baseline := by
  obtain ⟨named, found⟩ := Version.style?_of_mem known
  obtain ⟨resolved, resolve⟩ := Style.resolve_isOk supported found
  unfold baseline?
  split
  · exact ⟨some resolved, by rw [resolve, Outcome.map_ok]⟩
  · exact ⟨none, rfl⟩

/-- What has arrived in good order can be delivered. -/
theorem deliver_isOk (inherits : Bool) (sound : top.Sound o.language o.target)
    (supported : o.target.schema.supports o.language = true) :
    ∃ m, deliver o inherits top = .ok m ∧ m.style = top.style := by
  obtain ⟨native, style⟩ := native_keepInheritance inherits sound.native
  obtain ⟨baseline, compared⟩ := baseline?_isOk supported sound.known
  obtain ⟨text, written⟩ := write_isOk native baseline
  refine ⟨⟨text, (keepInheritance inherits top).record, (keepInheritance inherits top).style,
    (keepInheritance inherits top).losses⟩, ?_, style⟩
  unfold deliver
  simp only [style, compared, Outcome.ok_bind, written, Outcome.pure_eq]

/-- **The course of a migration**: what was read, and where its walk started and arrived. -/
structure Course (text : String) (o : Options) where
  ambient : StyleRecord
  configuration : Configuration
  start : Walk
  top : Walk
  supports : o.source.schema.supports o.language = true
  supported : o.target.schema.supports o.language = true
  resolved : (Style.resolve o.source (Text.lower o.fallbackStyle) o.language).outcome = .ok ambient
  accepted : (Configuration.read o.source text o.language ambient).outcome = .ok configuration
  settles : settled configuration.record = .ok start.record
  chosen : start.style = saidStyle (Text.lower o.fallbackStyle) configuration.basedOn
  lossless : start.losses = []
  sound : start.Sound o.language o.source
  walked : (walk o.language (Text.lower o.fallbackStyle) o.target o.source start).outcome = .ok top
  arrived : top.Sound o.language o.target

/-- **A walk starts with what was read** in every field but those of presets. -/
theorem Course.get?_start {name : String} (course : Course text o)
    (unwritten : name ∉ o.source.schema.presetWrites)
    (unselected : name ∉ o.source.schema.presets.map (·.selector)) :
    course.start.record.get? name = course.configuration.record.get? name := by
  obtain ⟨-, native, version, -⟩ := Configuration.sound_of_read
    (Style.native_of_resolve course.resolved).1 course.accepted
  obtain ⟨record, settles, -, -, frame⟩ := settled_isOk native
  obtain rfl := Except.ok.inj (settles.symm.trans course.settles)
  rw [selectors, StyleRecord.schema, version] at frame
  exact frame name unwritten unselected

/-- **An accepted text has a walk** that starts in good order, and the migration is that walk with
what is delivered at its end. -/
theorem migrate_of_accepted {ambient : StyleRecord}
    (supported : o.target.schema.supports o.language = true)
    (resolved : (Style.resolve o.source (Text.lower o.fallbackStyle) o.language).outcome =
      .ok ambient)
    (accepted : (Configuration.read o.source text o.language ambient).outcome = .ok c) :
    ∃ start : Walk, settled c.record = .ok start.record ∧
      start.style = saidStyle (Text.lower o.fallbackStyle) c.basedOn ∧ start.losses = [] ∧
      start.Sound o.language o.source ∧
      (migrate text o).outcome =
        (walk o.language (Text.lower o.fallbackStyle) o.target o.source start).outcome >>=
          deliver o c.record.inheritsParent := by
  obtain ⟨ambient_native, ambient_version, -, -, _, found, -⟩ := Style.native_of_resolve resolved
  obtain ⟨supports, native, version, tag, based, -⟩ :=
    Configuration.sound_of_read ambient_native accepted
  have schema : c.record.schema = o.source.schema := by rw [StyleRecord.schema, version]
  obtain ⟨said, known⟩ := chosenStyle_eq based (schema ▸ Version.lower_mem_of_style? found)
  rw [schema] at known
  obtain ⟨record, settles, native', same, -⟩ := settled_isOk native
  obtain ⟨before, styled, -⟩ := expandedStyle_isOk supports known
  refine ⟨⟨record, chosenStyle c (Text.lower o.fallbackStyle), before, []⟩, settles, said, rfl,
    ⟨native', same.1.trans version, same.2.1.trans tag, known, styled⟩, ?_⟩
  obtain ⟨expanded, expand, collapse⟩ := Outcome.bind_eq_ok_iff.mp settles
  unfold migrate checkLanguage
  simp only [Traced.outcome_bind, Traced.outcome_monadLift, supported, supports, if_pos, resolved,
    accepted, Outcome.ok_bind]
  unfold ofConfiguration deliver baseline?
  simp only [Traced.outcome_bind, Traced.outcome_monadLift, expand, collapse, styled,
    Outcome.ok_bind]
  congr 1
  funext top
  cases o.skipSame <;>
    simp only [Bool.false_eq_true, if_true, if_false, Traced.outcome_bind, Traced.outcome_map,
      Traced.outcome_pure, Outcome.pure_eq]

/-- **Every migration that succeeds has a course**, and delivers what has arrived. -/
theorem exists_course (migrated : (migrate text o).outcome = .ok m) :
    ∃ course : Course text o,
      deliver o course.configuration.record.inheritsParent course.top = .ok m := by
  have checked : o.target.schema.supports o.language = true ∧
      ∃ ambient c, (Style.resolve o.source (Text.lower o.fallbackStyle) o.language).outcome =
          .ok ambient ∧
        (Configuration.read o.source text o.language ambient).outcome = .ok c := by
    unfold migrate checkLanguage at migrated
    simp only [Traced.outcome_bind, Traced.outcome_monadLift] at migrated
    obtain ⟨_, -, migrated⟩ := Outcome.bind_eq_ok_iff.mp migrated
    obtain ⟨_, checked, migrated⟩ := Outcome.bind_eq_ok_iff.mp migrated
    obtain ⟨ambient, resolved, migrated⟩ := Outcome.bind_eq_ok_iff.mp migrated
    obtain ⟨c, accepted, -⟩ := Outcome.bind_eq_ok_iff.mp migrated
    refine ⟨?_, ambient, c, resolved, accepted⟩
    split at checked
    · assumption
    · cases checked
  obtain ⟨supported, ambient, c, resolved, accepted⟩ := checked
  obtain ⟨start, settles, chosen, lossless, sound, same⟩ :=
    migrate_of_accepted supported resolved accepted
  rw [same] at migrated
  obtain ⟨top, walked, delivered⟩ := Outcome.bind_eq_ok_iff.mp migrated
  have supports := (Configuration.sound_of_read (Style.native_of_resolve resolved).1 accepted).1
  have arrived : top.Sound o.language o.target := by
    have arrives := walk_of_sound (Text.lower o.fallbackStyle) sound supports supported
    split at arrives
    · obtain ⟨top', walked', arrived, -⟩ := arrives
      exact Except.ok.inj (walked.symm.trans walked') ▸ arrived
    · obtain ⟨_, _, _, stuck⟩ := arrives
      rw [stuck] at walked
      cases walked
  exact ⟨⟨ambient, c, start, top, supports, supported, resolved, accepted, settles, chosen, lossless, sound,
    walked, arrived⟩, delivered⟩

end Migration

end FormatStyle
