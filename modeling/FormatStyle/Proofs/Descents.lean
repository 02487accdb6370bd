import FormatStyle.Proofs.Courses
import FormatStyle.Proofs.Return

/-! # What is lost on the way down

A step down reads each field that it knows in one renaming or one split
(`Version.exists_move_down`). It reports a field exactly when the field differs from the style
before the step and is not passed on (`Migration.Step.exists_loss_iff`). The losses of a walk are
those of the steps that it takes (`Migration.mem_losses_iff`).
-/

namespace FormatStyle

open StyleRecord Migration

namespace Version

variable {a b : Version} {t t' : Transfer} {name : String}

/-- **A step down reads one field at a time** and writes fields of the lower version: nothing is
merged on the way down. -/
theorem sources_down (next : a.next? = some b) (member : t ∈ b.moves a) :
    (∃ source target map, t = .rename source target map ∧
      (a.schema.field? target).isSome = true) ∨
    ∃ source targets rows, t = .split source targets rows := by
  obtain ⟨up, listed, rfl⟩ := exists_reverse_of_mem_moves next member
  have comes := comesBack_of_mem next listed
  cases up with
  | rename source target map =>
    refine .inl ⟨target, source, map.map Prod.swap, rfl, ?_⟩
    unfold Transfer.comesBack at comes
    cases found : a.schema.field? source with
    | none => simp [found] at comes
    | some field => rfl
  | merge sources target rows => exact .inr ⟨target, sources, rows, rfl⟩
  | split source targets rows => cases comes

/-- **The transfers of a step each read something**, and no two read the same field. -/
theorem moves_read (adjacent : a.Adjacent b) :
    (∀ t ∈ a.moves b, t.sources ≠ []) ∧ ((a.moves b).flatMap Transfer.sources).Nodup := by
  have checked : ∀ a ∈ Version.all, ∀ b ∈ Version.all, a.Adjacent b →
      (∀ t ∈ transfers a b, t.sources ≠ []) ∧
        ((transfers a b).flatMap Transfer.sources).Nodup := by
    decide
  obtain ⟨reads, distinct⟩ := checked a a.mem_all b b.mem_all adjacent
  have own : ((a.sharedNames b).map fun name => Transfer.rename name name []).flatMap
      Transfer.sources = a.sharedNames b := by
    simp [List.flatMap_map, Transfer.sources, List.flatMap_singleton']
  unfold moves
  rw [List.flatMap_append, own]
  constructor
  · intro t member
    rcases List.mem_append.mp member with listed | listed
    · exact reads t listed
    · obtain ⟨name, -, rfl⟩ := List.mem_map.mp listed
      exact List.cons_ne_nil _ _
  · refine distinct.append (b.nodup_names.filter _) fun name read shared => ?_
    exact (mem_sharedNames.mp shared).2.2.2 read

/-- Every transfer of a step writes something. -/
theorem exists_target (adjacent : a.Adjacent b) (member : t ∈ a.moves b) :
    ∃ target, target ∈ t.targets := by
  have reads := (moves_read adjacent.symm).1
  rcases adjacent with up | down
  · rw [← Transfer.sources_reverse]
    exact List.exists_mem_of_ne_nil _ (reads _ (reverse_mem_moves up member))
  · obtain ⟨t', member', rfl⟩ := exists_reverse_of_mem_moves down member
    rw [Transfer.targets_reverse]
    exact List.exists_mem_of_ne_nil _ (reads _ member')

/-- A step reads a field in one way only. -/
theorem move_unique (adjacent : a.Adjacent b) (member : t ∈ a.moves b) (member' : t' ∈ a.moves b)
    (reads : name ∈ t.sources) (reads' : name ∈ t'.sources) : t' = t :=
  Transfer.eq_of_nodup_flatMap (moves_read adjacent).2 member member' reads reads'

/-- **A step down reads every field that both versions have.** -/
theorem exists_move_down (next : a.next? = some b) (known : name ∈ b.schema.names)
    (known' : name ∈ a.schema.names) : ∃ t ∈ b.moves a, name ∈ t.sources := by
  have checked : ∀ a ∈ Version.all, ∀ b ∈ Version.all, a.next? = some b →
      ∀ name ∈ (transfers b a).flatMap Transfer.targets,
        name ∈ (transfers b a).flatMap Transfer.sources ∨ (b.schema.field? name).isNone = true := by
    decide
  by_cases read : name ∈ (transfers b a).flatMap Transfer.sources
  · obtain ⟨t, listed, reads⟩ := List.mem_flatMap.mp read
    exact ⟨t, List.mem_append_left _ listed, reads⟩
  · refine ⟨.rename name name [], List.mem_append_right _ (List.mem_map_of_mem ?_),
      List.mem_singleton_self _⟩
    refine mem_sharedNames.mpr ⟨known, known', fun written => ?_, read⟩
    rcases checked a a.mem_all b b.mem_all next name written with read' | unknown
    · exact read read'
    · rw [← Schema.field?_isSome_iff] at known
      simp [Option.isNone_iff_eq_none.mp unknown] at known

/-- **A field ends** where the next version has none of its name and no transfer reads it. -/
theorem notMem_sources_of_ends (ends : a.schema.field? name = none)
    (unread : name ∉ (transfers b a).flatMap Transfer.sources) (member : t ∈ b.moves a) :
    name ∉ t.sources := by
  intro reads
  rcases List.mem_append.mp member with listed | listed
  · exact unread (List.mem_flatMap.mpr ⟨t, listed, reads⟩)
  · obtain ⟨shared, common, rfl⟩ := List.mem_map.mp listed
    obtain rfl := List.mem_singleton.mp reads
    have known := Schema.field?_isSome_iff.mpr (mem_sharedNames.mp common).2.1
    rw [ends] at known
    cases known

end Version

namespace Migration.Step

variable {s : Step} {name : String} {t : Transfer}

theorem changed_iff : s.changed name = true ↔ s.record.get? name ≠ s.before.get? name := by
  simp [changed]

/-- A transfer finds a place for what it reads. -/
def keeps (s : Step) : Transfer → Bool
  | .rename source target map => (s.renamed? source target map).isSome
  | .merge sources _ rows => (s.mergeRow? sources rows).isSome
  | .split source _ rows => (s.splitRow? source rows).isSome

/-- **A step passes a field on** if one of its transfers reads it and finds a place for it. -/
def PassesOn (s : Step) (name : String) : Prop :=
  ∃ t ∈ s.moves, name ∈ t.sources ∧ s.keeps t = true

/-- A transfer down loses what it reads if it was changed and finds no place. -/
theorem mem_lost_iff {loss : Loss} {a b : Version} (next : a.next? = some b)
    (between : s.Between b a) (member : t ∈ b.moves a) :
    (loss ∈ s.lost t ↔ ∃ name value, name ∈ t.sources ∧ s.record.get? name = some value ∧
      s.keeps t = false ∧ s.changed name = true ∧ loss = .value name value.display) := by
  rcases Version.sources_down next member with ⟨source, target, map, rfl, known⟩ |
    ⟨source, targets, rows, rfl⟩
  · obtain ⟨field, found⟩ := Option.isSome_iff_exists.mp known
    rw [← between.after_schema] at found
    cases holds : s.record.get? source with
    | none => simp [lost, holds, Transfer.sources]
    | some value =>
      cases renamed : s.renamed? source target map with
      | some _ => simp [lost, holds, renamed, keeps, Transfer.sources]
      | none => simp [lost, holds, renamed, found, keeps, Transfer.sources]
  · cases holds : s.record.get? source with
    | none => simp [lost, holds, Transfer.sources]
    | some value =>
      cases row : s.splitRow? source rows with
      | some _ => simp [lost, holds, row, keeps, Transfer.sources]
      | none => simp [lost, holds, row, keeps, Transfer.sources]

/-- A field is dropped if the next version lacks it, no transfer reads it, and it was changed. -/
theorem mem_dropped_iff {loss : Loss} (wellFormed : s.record.WellFormed) :
    loss ∈ s.dropped ↔ ∃ name value, s.record.get? name = some value ∧
      name ∉ s.consumed ∧ s.after.schema.field? name = none ∧ s.changed name = true ∧
      loss = .field name := by
  have each := wellFormed_iff.mp wellFormed
  unfold dropped
  rw [each.toList_eq]
  simp only [List.mem_map, List.mem_filter, Bool.and_eq_true, Bool.not_eq_true',
    List.contains_eq_mem, decide_eq_false_iff_not, Option.isNone_iff_eq_none, bne_iff_ne, ne_eq]
  constructor
  · rintro ⟨⟨field, value⟩, ⟨⟨field', member, same⟩, ⟨unread, unknown⟩, differs⟩, rfl⟩
    cases same
    have holds := each.get?_eq_current (s.record.version.field?_of_mem member)
    refine ⟨field.name, _, holds, unread, unknown, ?_, rfl⟩
    simpa [changed, holds] using Ne.symm differs
  · rintro ⟨name, value, holds, unread, unknown, differs, rfl⟩
    obtain ⟨field, found⟩ := field?_of_get? holds
    obtain rfl := Schema.name_of_field? found
    refine ⟨(field, s.record.current field), ⟨⟨field, Schema.mem_of_field? found, rfl⟩,
      ⟨unread, unknown⟩, fun same => ?_⟩, rfl⟩
    rw [changed, holds, same, current_of_get? holds] at differs
    simp at differs

/-- **A step down reports a field exactly when it was changed and is not passed on.** -/
theorem exists_loss_iff {a b : Version} (next : a.next? = some b) (between : s.Between b a) :
    (∃ loss ∈ s.losses, loss.name = name) ↔
      (s.record.get? name).isSome = true ∧ s.changed name = true ∧ ¬ s.PassesOn name := by
  have moves := between.moves
  unfold losses PassesOn
  rw [moves]
  constructor
  · rintro ⟨loss, member, rfl⟩
    rcases List.mem_append.mp member with lost | dropped
    · obtain ⟨t, listed, lost⟩ := List.mem_flatMap.mp lost
      obtain ⟨name, value, reads, holds, stuck, differs, rfl⟩ :=
        (mem_lost_iff next between listed).mp lost
      refine ⟨by simp [Loss.name, holds], differs, ?_⟩
      rintro ⟨t', listed', reads', kept⟩
      rw [Version.move_unique (.inr next) listed listed' reads reads', stuck] at kept
      cases kept
    · obtain ⟨name, value, holds, unread, unknown, differs, rfl⟩ :=
        (mem_dropped_iff between.wellFormed).mp dropped
      refine ⟨by simp [Loss.name, holds], differs, ?_⟩
      rintro ⟨t, listed, reads, -⟩
      rcases List.mem_append.mp listed with listed | listed
      · refine unread (List.mem_flatMap.mpr ⟨t, ?_, reads⟩)
        rwa [between.transfers]
      · obtain ⟨name', shared, rfl⟩ := List.mem_map.mp listed
        obtain rfl := List.mem_singleton.mp reads
        have known : (a.schema.field? name).isSome = true :=
          Schema.field?_isSome_iff.mpr (Version.mem_sharedNames.mp shared).2.1
        rw [← between.after_schema, unknown] at known
        cases known
  · rintro ⟨known, differs, stuck⟩
    obtain ⟨value, holds⟩ := Option.isSome_iff_exists.mp known
    by_cases read : ∃ t ∈ b.moves a, name ∈ t.sources
    · obtain ⟨t, listed, reads⟩ := read
      have lost : s.keeps t = false := by
        rw [Bool.eq_false_iff]
        exact fun kept => stuck ⟨t, listed, reads, kept⟩
      refine ⟨.value name value.display, List.mem_append_left _ (List.mem_flatMap.mpr
        ⟨t, listed, (mem_lost_iff next between listed).mpr
          ⟨name, value, reads, holds, lost, differs, rfl⟩⟩), rfl⟩
    · refine ⟨.field name, List.mem_append_right _ ((mem_dropped_iff between.wellFormed).mpr
        ⟨name, value, holds, fun consumed => ?_, ?_, differs, rfl⟩), rfl⟩
      · obtain ⟨t, listed, reads⟩ := List.mem_flatMap.mp consumed
        rw [between.transfers] at listed
        exact read ⟨t, List.mem_append_left _ listed, reads⟩
      · rw [between.after_schema, ← Option.not_isSome_iff_eq_none, Schema.field?_isSome_iff]
        obtain ⟨field, found⟩ := field?_of_get? holds
        rw [between.schema] at found
        exact fun known => read (Version.exists_move_down next
          (Schema.field?_isSome_iff.mp (Option.isSome_iff_exists.mpr ⟨field, found⟩)) known)

end Migration.Step

namespace Migration

/-! ## The steps of a walk -/

variable {v next target : Version} {language : Language} {fallback : String} {w w' top : Walk}
  {s : Step} {loss : Loss}

/-- **Backwards along a walk** that arrives: what holds where it arrives, and holds before each step
if it holds after it, holds where it starts. -/
@[elab_as_elim]
theorem walk_induction
    {motive : (v : Version) → (w : Walk) →
      (walk language fallback target v w).outcome = .ok top → Prop}
    (arrived : motive target top outcome_walk_self)
    (step : ∀ v next w w' (towards : v.stepTowards target = some next)
      (advanced : (advance language fallback v next w).outcome = .ok w')
      (walked : (walk language fallback target next w').outcome = .ok top),
      motive next w' walked →
      motive v w (by rw [outcome_walk_step towards, advanced, Outcome.ok_bind, walked]))
    (v : Version) (w : Walk) (walked : (walk language fallback target v w).outcome = .ok top) :
    motive v w walked := by
  induction steps : v.distance target generalizing v w with
  | zero =>
    obtain rfl := Version.eq_of_distance steps
    obtain rfl := Except.ok.inj (outcome_walk_self.symm.trans walked)
    exact arrived
  | succ n ih =>
    obtain ⟨next, towards⟩ := Version.exists_stepTowards steps
    obtain ⟨w', advanced, rest⟩ := Outcome.bind_eq_ok_iff.mp
      ((outcome_walk_step towards).symm.trans walked)
    exact step v next w w' towards advanced rest
      (ih next w' rest (by have := Version.distance_stepTowards towards; omega))

/-- **The steps that a walk takes**, each with the style before it and after it. -/
inductive Takes (language : Language) (fallback : String) (target : Version) :
    Version → Walk → Step → Prop where
  | first {v next : Version} {w w' : Walk} (towards : v.stepTowards target = some next)
      (advanced : (advance language fallback v next w).outcome = .ok w') :
      Takes language fallback target v w (w.step w'.before)
  | later {v next : Version} {w w' : Walk} {s : Step}
      (towards : v.stepTowards target = some next)
      (advanced : (advance language fallback v next w).outcome = .ok w')
      (rest : Takes language fallback target next w' s) : Takes language fallback target v w s

/-- **What one version on leads to**, from a walk in good order. -/
theorem advance_eq_ok (sound : w.Sound language v) (towards : v.stepTowards target = some next)
    (supported : next.schema.supports language = true)
    (advanced : (advance language fallback v next w).outcome = .ok w') :
    w'.record = (w.step w'.before).next ∧ w'.losses = w.losses ++ (w.step w'.before).losses ∧
      w'.Sound language next ∧ next.offered? w.style fallback = some w'.style := by
  cases offered : next.offered? w.style fallback with
  | none =>
    unfold advance at advanced
    rw [Traced.outcome_bind, outcome_nextStyle_eq, offered] at advanced
    cases advanced
  | some style =>
    obtain ⟨after, -, advanced', sound'⟩ := advance_of_sound sound
      (Version.adjacent_of_stepTowards towards) supported offered
    obtain rfl := Except.ok.inj (advanced'.symm.trans advanced)
    exact ⟨rfl, rfl, sound', rfl⟩

/-- The records of a step fit its versions. -/
theorem Walk.Sound.between (sound : w.Sound language v) (sound' : w'.Sound language next) :
    (w.step w'.before).Between v next := by
  obtain ⟨native, version, -⟩ := native_of_expandedStyle sound'.styled
  exact ⟨sound.version, version, sound.native.wellFormed, native.wellFormed⟩

/-- **Every step of a walk in good order is between neighbouring versions on the way**, with their
styles. -/
theorem Takes.between (takes : Takes language fallback target v w s) (sound : w.Sound language v)
    (supported : v.schema.supports language = true)
    (supported' : target.schema.supports language = true) :
    ∃ a b, a.stepTowards target = some b ∧ s.Between a b ∧ s.record.Native ∧
      ∃ style style', (expandedStyle a style language).outcome = .ok s.before ∧
        b.offered? style fallback = some style' ∧
        (expandedStyle b style' language).outcome = .ok s.after := by
  induction takes with
  | first towards advanced =>
    obtain ⟨-, -, sound', offered⟩ := advance_eq_ok sound towards
      (Version.supports_towards towards supported supported') advanced
    exact ⟨_, _, towards, sound.between sound', sound.native, _, _, sound.styled, offered,
      sound'.styled⟩
  | later towards advanced _ ih =>
    have supports := Version.supports_towards towards supported supported'
    exact ih (advance_eq_ok sound towards supports advanced).2.2.1 supports

/-- A walk that has not arrived goes on. -/
theorem exists_advance (walked : (walk language fallback target v w).outcome = .ok top)
    (apart : v ≠ target) : ∃ next w', v.stepTowards target = some next ∧
      (advance language fallback v next w).outcome = .ok w' ∧
      (walk language fallback target next w').outcome = .ok top := by
  obtain ⟨next, towards⟩ := Option.ne_none_iff_exists'.mp
    (mt (Version.stepTowards_eq_none_iff v target).mp apart)
  obtain ⟨w', advanced, rest⟩ := Outcome.bind_eq_ok_iff.mp
    ((outcome_walk_step towards).symm.trans walked)
  exact ⟨next, w', towards, advanced, rest⟩

/-- No step leads on from the target. -/
theorem Takes.apart (takes : Takes language fallback target v w s) : v ≠ target := by
  rintro rfl
  have stays := (Version.stepTowards_eq_none_iff v v).mpr rfl
  cases takes with
  | first towards => simp [stays] at towards
  | later towards => simp [stays] at towards

/-- **A walk takes its first step**, and then those that it takes from there. -/
theorem takes_iff (towards : v.stepTowards target = some next)
    (advanced : (advance language fallback v next w).outcome = .ok w') :
    Takes language fallback target v w s ↔
      s = w.step w'.before ∨ Takes language fallback target next w' s := by
  constructor
  · intro takes
    cases takes with
    | first towards' advanced' =>
      obtain rfl := Option.some.inj (towards.symm.trans towards')
      obtain rfl := Except.ok.inj (advanced.symm.trans advanced')
      exact .inl rfl
    | later towards' advanced' rest =>
      obtain rfl := Option.some.inj (towards.symm.trans towards')
      obtain rfl := Except.ok.inj (advanced.symm.trans advanced')
      exact .inr rest
  · rintro (rfl | later)
    · exact .first towards advanced
    · exact .later towards advanced later

/-- **What a walk comes to by its first step**, and the steps that it takes from there. -/
structure Walk.Advanced (language : Language) (fallback : String) (target v next : Version)
    (w w' : Walk) : Prop where
  record : w'.record = (w.step w'.before).next
  losses : w'.losses = w.losses ++ (w.step w'.before).losses
  sound : w'.Sound language next
  offered : next.offered? w.style fallback = some w'.style
  takes : ∀ s, Takes language fallback target v w s ↔
    s = w.step w'.before ∨ Takes language fallback target next w' s

/-- **A walk that arrives further on takes a first step.** -/
theorem exists_advanced (towards : v.stepTowards target = some next)
    (walked : (walk language fallback target v w).outcome = .ok top)
    (sound : w.Sound language v) (supported : v.schema.supports language = true)
    (supported' : target.schema.supports language = true) :
    ∃ w' : Walk, w.Advanced language fallback target v next w' ∧
      (walk language fallback target next w').outcome = .ok top := by
  obtain ⟨next', w', towards', advanced, rest⟩ := exists_advance walked fun same => by
    rw [(Version.stepTowards_eq_none_iff v target).mpr same] at towards
    cases towards
  obtain rfl := Option.some.inj (towards.symm.trans towards')
  obtain ⟨record, losses, sound', offered⟩ := advance_eq_ok sound towards
    (Version.supports_towards towards supported supported') advanced
  exact ⟨w', ⟨record, losses, sound', offered, fun s => takes_iff towards advanced⟩, rest⟩

/-- **The losses of a walk** are those that it had and those of the steps that it takes. -/
theorem mem_losses_iff (walked : (walk language fallback target v w).outcome = .ok top)
    (sound : w.Sound language v) (supported : v.schema.supports language = true)
    (supported' : target.schema.supports language = true) :
    loss ∈ top.losses ↔
      loss ∈ w.losses ∨ ∃ s, Takes language fallback target v w s ∧ loss ∈ s.losses := by
  induction v, w, walked using walk_induction with
  | arrived =>
    refine ⟨.inl, fun either => either.resolve_right ?_⟩
    rintro ⟨s, takes, -⟩
    exact takes.apart rfl
  | step v next w w' towards advanced _ ih =>
    have supports := Version.supports_towards towards supported supported'
    obtain ⟨-, losses, sound', -⟩ := advance_eq_ok sound towards supports advanced
    rw [ih sound' supports, losses, List.mem_append, or_assoc]
    simp only [takes_iff towards advanced, or_and_right, exists_or, exists_eq_left]

end Migration

end FormatStyle
