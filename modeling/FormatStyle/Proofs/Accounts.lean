import FormatStyle.Proofs.Descents

/-! # A step accounts for every field

A field of the record stands for values in the next version by a correspondence or by its own name
(`Step.Represents`), and it is meant for the fields that these name (`Step.Aims`). A step between
neighbouring versions writes what a field stands for, reports a field once if it was changed and
stands for nothing, and does nothing else (`Step.run_accounts`): the transfers, the fields of one
name and the fields that end neither meet nor leave a gap.
-/

namespace FormatStyle

open StyleRecord Migration

/-- Every row of a split has a place that says something. -/
def Transfer.speaks : Transfer → Bool
  | split _ targets rows => rows.all fun row => (targets.zip row.1).any (·.2.isSome)
  | _ => true

namespace Version

variable {a b : Version} {name : String}

/-- **A step between neighbours reads every field that both versions have.** -/
theorem exists_move (adjacent : a.Adjacent b) (known : name ∈ a.schema.names)
    (known' : name ∈ b.schema.names) : ∃ t ∈ a.moves b, name ∈ t.sources := by
  rcases adjacent with up | down
  · obtain ⟨field, found⟩ := Option.isSome_iff_exists.mp (Schema.field?_isSome_iff.mpr known)
    obtain rfl := Schema.name_of_field? found
    exact Step.exists_move_of_mem up (Schema.mem_of_field? found)
  · exact exists_move_down down known known'

/-- **Every row of a split says something** about one of its targets. -/
theorem speaks_of_mem {source : String} {targets : List String}
    {rows : List (List (Option Literal) × Literal)} (adjacent : a.Adjacent b)
    (member : .split source targets rows ∈ a.moves b) :
    rows.all (fun row => (targets.zip row.1).any (·.2.isSome)) = true := by
  have checked : ∀ a ∈ Version.all, ∀ b ∈ Version.all, a.Adjacent b →
      ∀ t ∈ transfers a b, t.speaks = true := by
    decide
  have listed := (List.mem_append.mp member).resolve_right (by simp)
  exact checked a a.mem_all b b.mem_all adjacent _ listed

/-- **What a renaming makes of a value** on top of a field that holds nothing else. -/
def renames? (a b : Version) (source target : String) (map : List (Literal × Literal))
    (value : Value) : Option Value := do
  let field ← a.schema.field? source
  let other ← b.schema.field? target
  Step.carried map field other value other.kind.zero

end Version

namespace Migration

/-- The losses that name a field. -/
def Progress.reports (p : Progress) (name : String) : List Loss :=
  p.losses.filter (·.name == name)

namespace Step

variable {s : Step} {source target name : String} {value : Value}

/-- **What a field of the record stands for** in a field of the next version. -/
inductive Represents (s : Step) : String → String → Value → Prop where
  /-- A renamed field, by its rows or else by its kind. -/
  | renamed {source target : String} {map : List (Literal × Literal)} {field other : Field}
      {value converted : Value} (listed : .rename source target map ∈ s.transfers)
      (holds : s.record.get? source = some value)
      (found : s.record.schema.field? source = some field)
      (found' : s.after.schema.field? target = some other)
      (converts : carried map field other value (s.after.current other) = some converted) :
      Represents s source target converted
  /-- One of several fields that fit a row together. -/
  | merged {sources : List String} {source target : String}
      {rows : List (List (Option Literal) × Literal)} {row : List (Option Literal) × Literal}
      {value : Value} (listed : .merge sources target rows ∈ s.transfers)
      (member : source ∈ sources)
      (fits : rows.find? (fun row => matchesRow row.1 (sources.map s.record.get?)) = some row)
      (denotes : s.denoted? target row.2 = some value) : Represents s source target value
  /-- A field whose row says something about the target. An empty place says nothing. -/
  | split {source target : String} {targets : List String}
      {rows : List (List (Option Literal) × Literal)} {row : List (Option Literal) × Literal}
      {literal : Literal} {held value : Value} (listed : .split source targets rows ∈ s.transfers)
      (holds : s.record.get? source = some held)
      (fits : rows.find? (fun row => row.2.holds held) = some row)
      (place : (target, some literal) ∈ targets.zip row.1)
      (denotes : s.denoted? target literal = some value) : Represents s source target value
  /-- A field that no correspondence reads, by its kind in the field of its name. -/
  | sameName {name : String} {field other : Field} {value converted : Value}
      (unread : name ∉ s.consumed) (holds : s.record.get? name = some value)
      (found : s.record.schema.field? name = some field)
      (found' : s.after.schema.field? name = some other)
      (converts : field.kind.convert value other.kind (s.after.current other) = some converted) :
      Represents s name name converted

/-- **The fields that a field is meant for**: those of the correspondence that reads it, or else the
one of its name. -/
inductive Aims (s : Step) (source : String) : String → Prop where
  | transfer {t : Transfer} {target : String} (listed : t ∈ s.transfers)
      (reads : source ∈ t.sources) (writes : target ∈ t.targets) : Aims s source target
  | sameName (unread : source ∉ s.consumed)
      (known : (s.after.schema.field? source).isSome = true) : Aims s source source

/-- **A step accounts for its record**: each field is either written or left to the style of the
next version, and each is reported once or not at all. -/
structure Accounts (s : Step) (p : Progress) : Prop where
  version : p.record.version = s.after.version
  wellFormed : p.record.WellFormed
  /-- What a field stands for is written, without a loss. -/
  written : ∀ {source target value}, s.Represents source target value →
    p.record.get? target = some value ∧ p.reports source = []
  /-- A field that stands for nothing leaves the fields that it is meant for to the style, and its
  value is reported if it was changed. -/
  unrepresented : ∀ {source value}, s.record.get? source = some value →
    (∃ target, s.Aims source target) → (∀ target value, ¬ s.Represents source target value) →
      (∀ target, s.Aims source target → p.record.get? target = s.after.get? target) ∧
        p.reports source = if s.changed source then [.value source value.display] else []
  /-- A field that is meant for nothing is dropped, and reported if it was changed. -/
  dropped : ∀ {source value}, s.record.get? source = some value →
    (∀ target, ¬ s.Aims source target) →
      p.reports source = if s.changed source then [.field source] else []
  /-- A field that nothing stands for is as the style has it. -/
  kept : ∀ {target}, (∀ source value, ¬ s.Represents source target value) →
    p.record.get? target = s.after.get? target
  /-- Nothing else is reported. -/
  known : ∀ loss ∈ p.losses, (s.record.get? loss.name).isSome = true

/-! ## The transfers behind it -/

/-- A field that no correspondence reads goes to the field of its name. -/
theorem sameName_mem_moves (adjacent : s.record.version.Adjacent s.after.version)
    (unread : name ∉ s.consumed) (known : (s.record.schema.field? name).isSome = true)
    (known' : (s.after.schema.field? name).isSome = true) :
    .rename name name [] ∈ s.moves := by
  obtain ⟨t, listed, reads⟩ := Version.exists_move adjacent (Schema.field?_isSome_iff.mp known)
    (Schema.field?_isSome_iff.mp known')
  rcases List.mem_append.mp listed with correspondence | shared
  · exact absurd (List.mem_flatMap.mpr ⟨t, correspondence, reads⟩) unread
  · obtain ⟨name', -, rfl⟩ := List.mem_map.mp shared
    obtain rfl := List.mem_singleton.mp reads
    exact listed

/-- A field is meant for what the transfer that reads it writes. -/
theorem aims_iff (adjacent : s.record.version.Adjacent s.after.version)
    (holds : s.record.get? source = some value) :
    s.Aims source target ↔ ∃ t ∈ s.moves, source ∈ t.sources ∧ target ∈ t.targets := by
  constructor
  · rintro (⟨listed, reads, writes⟩ | ⟨unread, known⟩)
    · exact ⟨_, List.mem_append_left _ listed, reads, writes⟩
    · obtain ⟨field, found⟩ := field?_of_get? holds
      exact ⟨_, sameName_mem_moves adjacent unread (by rw [found]; rfl) known,
        List.mem_singleton_self _, List.mem_singleton_self _⟩
  · rintro ⟨t, listed, reads, writes⟩
    rcases List.mem_append.mp listed with correspondence | shared
    · exact .transfer correspondence reads writes
    · obtain ⟨name, common, rfl⟩ := List.mem_map.mp shared
      obtain rfl := List.mem_singleton.mp reads
      obtain rfl := List.mem_singleton.mp writes
      obtain ⟨-, known, -, unread⟩ := Version.mem_sharedNames.mp common
      exact .sameName unread (Schema.field?_isSome_iff.mpr known)

/-- What a field stands for, the transfer that reads it assigns. -/
theorem Represents.mem_assigned (adjacent : s.record.version.Adjacent s.after.version)
    (represents : s.Represents source target value) :
    ∃ t ∈ s.moves, source ∈ t.sources ∧ (target, value) ∈ s.assigned t := by
  cases represents with
  | renamed listed holds found found' converts =>
    refine ⟨_, List.mem_append_left _ listed, List.mem_singleton_self _, ?_⟩
    rw [(assigned_rename ((renamed?_eq holds found found').trans converts)).1]
    exact List.mem_singleton_self _
  | merged listed member fits denotes =>
    refine ⟨_, List.mem_append_left _ listed, member, ?_⟩
    simp [assigned, mergeRow?, fits, denotes]
  | split listed holds fits place denotes =>
    refine ⟨_, List.mem_append_left _ listed, List.mem_singleton_self _, ?_⟩
    simp only [assigned, splitRow?, holds, Option.bind_eq_bind, Option.bind_some, fits,
      Option.map_some, Option.getD_some]
    exact List.mem_filterMap.mpr ⟨_, place, by simp [denotes]⟩
  | sameName unread holds found found' converts =>
    refine ⟨_, sameName_mem_moves adjacent unread (by rw [found]; rfl) (by rw [found']; rfl),
      List.mem_singleton_self _, ?_⟩
    have renamed : s.renamed? source source [] = some value :=
      (renamed?_eq holds found found').trans (by simpa [carried, translate?] using converts)
    rw [(assigned_rename renamed).1]
    exact List.mem_singleton_self _

/-- What a transfer assigns, each field that it reads stands for. -/
private theorem represents_of_assigned {t : Transfer} (listed : t ∈ s.moves) (reads : source ∈ t.sources)
    (writes : (target, value) ∈ s.assigned t) : s.Represents source target value := by
  cases t with
  | rename source' target' map =>
    obtain rfl := List.mem_singleton.mp reads
    obtain ⟨converted, made, same⟩ := List.mem_map.mp writes
    cases same
    obtain ⟨held, holds, renames⟩ := Option.bind_eq_some_iff.mp (Option.mem_toList.mp made)
    obtain ⟨field, found, fields⟩ := Option.bind_eq_some_iff.mp renames
    obtain ⟨other, found', converts⟩ := Option.bind_eq_some_iff.mp fields
    rcases List.mem_append.mp listed with correspondence | shared
    · exact .renamed correspondence holds found found' converts
    · obtain ⟨name, common, same⟩ := List.mem_map.mp shared
      cases same
      refine .sameName (Version.mem_sharedNames.mp common).2.2.2 holds found found' ?_
      simpa [carried, translate?] using converts
  | merge sources target' rows =>
    obtain ⟨converted, made, same⟩ := List.mem_map.mp writes
    cases same
    obtain ⟨row, fits, denotes⟩ := Option.bind_eq_some_iff.mp (Option.mem_toList.mp made)
    exact .merged ((List.mem_append.mp listed).resolve_right (by simp)) reads fits denotes
  | split source' targets rows =>
    obtain rfl := List.mem_singleton.mp reads
    simp only [assigned] at writes
    cases found : s.splitRow? source rows with
    | none => simp [found] at writes
    | some row =>
      rw [found, Option.map_some, Option.getD_some] at writes
      obtain ⟨⟨target', literal?⟩, place, made⟩ := List.mem_filterMap.mp writes
      obtain ⟨converted, bound, same⟩ := Option.map_eq_some_iff.mp made
      cases same
      obtain ⟨literal, rfl, denotes⟩ := Option.bind_eq_some_iff.mp bound
      obtain ⟨held, holds, fits⟩ := Option.bind_eq_some_iff.mp found
      exact .split ((List.mem_append.mp listed).resolve_right (by simp)) holds fits place denotes

/-- **A field stands for what the transfer that reads it assigns.** -/
theorem represents_iff (adjacent : s.record.version.Adjacent s.after.version) :
    s.Represents source target value ↔
      ∃ t ∈ s.moves, source ∈ t.sources ∧ (target, value) ∈ s.assigned t :=
  ⟨fun represents => represents.mem_assigned adjacent,
    fun ⟨_, listed, reads, writes⟩ => represents_of_assigned listed reads writes⟩

/-- What is written comes from a field that is meant for it. -/
theorem Represents.aims (adjacent : s.record.version.Adjacent s.after.version)
    (holds : s.record.get? source = some value) {value' : Value}
    (represents : s.Represents source target value') : s.Aims source target := by
  obtain ⟨t, listed, reads, writes⟩ := (represents_iff adjacent).mp represents
  exact (aims_iff adjacent holds).mpr
    ⟨t, listed, reads, assigned_sublist.subset (List.mem_map_of_mem writes)⟩

/-- **A transfer finds a place exactly when it assigns something.** -/
theorem keeps_iff {t : Transfer} (adjacent : s.record.version.Adjacent s.after.version)
    (member : t ∈ s.moves) : s.keeps t = true ↔ ∃ write, write ∈ s.assigned t := by
  have fits := List.all_eq_true.mp (Version.moves_fit adjacent).1 t member
  cases t with
  | rename source target map => simp [keeps, assigned, Option.isSome_iff_exists]
  | merge sources target rows =>
    simp only [Transfer.fits, Bool.and_eq_true] at fits
    cases found : s.mergeRow? sources rows with
    | none => simp [keeps, assigned, found]
    | some row =>
      obtain ⟨value, denoted⟩ := denoted?_isSome
        (List.all_eq_true.mp fits.2 row (List.mem_of_find?_eq_some found))
      simp [keeps, assigned, found, denoted]
  | split source targets rows =>
    simp only [Transfer.fits, Bool.and_eq_true, decide_eq_true_eq] at fits
    cases found : s.splitRow? source rows with
    | none => simp [keeps, assigned, found]
    | some row =>
      obtain ⟨held, -, fitting⟩ := Option.bind_eq_some_iff.mp found
      have listed := List.mem_of_find?_eq_some fitting
      have spoken := List.all_eq_true.mp (Version.speaks_of_mem adjacent member) row listed
      obtain ⟨⟨target, literal?⟩, place, some_literal⟩ := List.any_eq_true.mp spoken
      obtain ⟨literal, rfl⟩ := Option.isSome_iff_exists.mp some_literal
      have accepted := List.all_eq_true.mp (List.all_eq_true.mp fits.2 row listed) _ place
      obtain ⟨value, denoted⟩ := denoted?_isSome (s := s) accepted
      simp only [keeps, found, Option.isSome_some, assigned, Option.map_some, Option.getD_some,
        true_iff]
      exact ⟨_, List.mem_filterMap.mpr ⟨_, place, by simp [denoted]; rfl⟩⟩

/-- **A field stands for something exactly when the step passes it on.** -/
theorem passesOn_iff (adjacent : s.record.version.Adjacent s.after.version) :
    s.PassesOn source ↔ ∃ target value, s.Represents source target value := by
  constructor
  · rintro ⟨t, listed, reads, kept⟩
    obtain ⟨⟨target, value⟩, writes⟩ := (keeps_iff adjacent listed).mp kept
    exact ⟨target, value, (represents_iff adjacent).mpr ⟨t, listed, reads, writes⟩⟩
  · rintro ⟨target, value, represents⟩
    obtain ⟨t, listed, reads, writes⟩ := (represents_iff adjacent).mp represents
    exact ⟨t, listed, reads, (keeps_iff adjacent listed).mpr ⟨_, writes⟩⟩

/-! ## Single transfers -/

variable {a b : Version}

/-- A step passes on what the transfer that reads it finds a place for. -/
theorem passesOn_iff_keeps {t : Transfer} (adjacent : b.Adjacent a) (between : s.Between b a)
    (member : t ∈ b.moves a) (reads : name ∈ t.sources) : s.PassesOn name ↔ s.keeps t = true := by
  constructor
  · rintro ⟨t', listed, reads', kept⟩
    rw [between.moves] at listed
    rwa [Version.move_unique adjacent listed member reads' reads]
  · exact fun kept => ⟨t, between.moves ▸ member, reads, kept⟩

/-- A renaming to a simple field goes by the tables alone. -/
theorem renamed?_eq_renames? {map : List (Literal × Literal)} (between : s.Between b a)
    (known : (b.schema.field? source).isSome = true)
    (simple : (a.schema.scalarKind? target).isSome = true)
    (holds : s.record.get? source = some value) :
    s.renamed? source target map = b.renames? a source target map value := by
  obtain ⟨field, found⟩ := Option.isSome_iff_exists.mp known
  obtain ⟨kind, is_scalar⟩ := Option.isSome_iff_exists.mp simple
  obtain ⟨other, found', kind_eq⟩ := Schema.field?_of_scalarKind? is_scalar
  rw [renamed?_eq holds (between.schema ▸ found) (between.after_schema ▸ found'),
    Version.renames?, found, found']
  exact carried_scalar kind_eq

/-! ## What is written -/

/-- A field that nothing stands for is left to the style. -/
theorem get?_next_of_unrepresented (adjacent : s.record.version.Adjacent s.after.version)
    (none_stands : ∀ source value, ¬ s.Represents source target value) :
    s.next.get? target = s.after.get? target := by
  refine get?_next_of_unassigned fun t listed assigned => ?_
  obtain ⟨⟨_, value⟩, writes, rfl⟩ := List.mem_map.mp assigned
  obtain ⟨source, reads⟩ := List.exists_mem_of_ne_nil _ ((Version.moves_read adjacent).1 t listed)
  exact none_stands source value ((represents_iff adjacent).mpr ⟨t, listed, reads, writes⟩)

/-- **A field that stands for nothing leaves the fields that it is meant for to the style.** -/
theorem get?_next_of_aims (adjacent : s.record.version.Adjacent s.after.version)
    (holds : s.record.get? source = some value) (aims : s.Aims source target)
    (stands : ∀ target value, ¬ s.Represents source target value) :
    s.next.get? target = s.after.get? target := by
  obtain ⟨t, listed, reads, writes⟩ := (aims_iff adjacent holds).mp aims
  refine get?_next_of_unassigned fun t' listed' assigned => ?_
  obtain rfl := assigned_once adjacent listed listed' writes (assigned_sublist.subset assigned)
  obtain ⟨⟨_, value⟩, assigns, rfl⟩ := List.mem_map.mp assigned
  exact stands _ value ((represents_iff adjacent).mpr ⟨_, listed, reads, assigns⟩)

/-! ## What is reported -/

/-- A step up loses nothing. -/
theorem losses_up (next : a.next? = some b) (between : s.Between a b) : s.losses = [] :=
  congrArg Progress.losses (Except.ok.inj
    ((outcome_run (between.adjacent (.inl next)) between.after_wellFormed).symm.trans
      (outcome_run_up next between)))

/-- A step up passes on every field. -/
private theorem passesOn_up (next : a.next? = some b) (between : s.Between a b)
    (holds : s.record.get? source = some value) : s.PassesOn source := by
  obtain ⟨field, found⟩ := field?_of_get? holds
  obtain rfl := Schema.name_of_field? found
  rw [between.schema] at found
  obtain ⟨t, listed, reads⟩ := exists_move_of_mem next (Schema.mem_of_field? found)
  obtain ⟨target, there, -, assigned, -⟩ := returned_of_mem next listed between
  rw [← between.moves] at listed
  refine ⟨t, listed, reads, (keeps_iff (between.adjacent (.inl next)) listed).mpr ?_⟩
  exact ⟨_, assigned ▸ List.mem_singleton_self _⟩

/-- What a transfer down loses, it reads. -/
theorem names_lost_sublist {t : Transfer} (next : a.next? = some b) (member : t ∈ b.moves a) :
    ((s.lost t).map Loss.name).Sublist t.sources := by
  rcases Version.sources_down next member with ⟨source, target, map, rfl, -⟩ |
    ⟨source, targets, rows, rfl⟩
  · simp only [lost]
    split
    · split <;> simp [Loss.name, Transfer.sources]
    · simp
  · simp only [lost]
    split
    · simp
    · split <;> simp [Loss.name, Transfer.sources]

/-- **A step reports a field at most once.** -/
theorem nodup_losses (adjacent : b.Adjacent a) (between : s.Between b a) :
    (s.losses.map Loss.name).Nodup := by
  rcases adjacent with next | next
  · simp [losses_up next between]
  have each := wellFormed_iff.mp between.wellFormed
  have distinct := (Version.moves_read (a := b) (b := a) (.inr next)).2
  have lost : ((s.moves.flatMap s.lost).map Loss.name).Nodup := by
    rw [List.map_flatMap, between.moves]
    rw [List.nodup_flatMap] at distinct ⊢
    refine ⟨fun t listed => (distinct.1 t listed).sublist (names_lost_sublist next listed),
      distinct.2.imp_of_mem fun listed listed' disjoint name here there => ?_⟩
    exact disjoint ((names_lost_sublist next listed).subset here)
      ((names_lost_sublist next listed').subset there)
  have dropped : (s.dropped.map Loss.name).Nodup := by
    unfold Step.dropped
    rw [each.toList_eq, List.map_map]
    refine s.record.version.nodup_names.sublist ((List.filter_sublist.map _).trans ?_)
    rw [List.map_map]
    exact .refl _
  rw [losses, List.map_append]
  refine lost.append dropped fun name reported ended => ?_
  obtain ⟨loss, member, rfl⟩ := List.mem_map.mp reported
  obtain ⟨_, ended, same⟩ := List.mem_map.mp ended
  obtain ⟨t, listed, lost⟩ := List.mem_flatMap.mp member
  obtain ⟨name, value, holds, unread, unknown, -, rfl⟩ :=
    (mem_dropped_iff between.wellFormed).mp ended
  have reads := (names_lost_sublist next (between.moves ▸ listed)).subset
    (List.mem_map_of_mem lost)
  rw [← same] at reads
  rw [consumed, between.transfers] at unread
  exact Version.notMem_sources_of_ends (between.after_schema ▸ unknown) unread
    (between.moves ▸ listed) reads

theorem filter_eq_nil {losses : List Loss}
    (silent : ¬ ∃ loss ∈ losses, loss.name = name) : losses.filter (·.name == name) = [] := by
  rw [List.filter_eq_nil_iff]
  exact fun loss listed same => silent ⟨loss, listed, beq_iff_eq.mp same⟩

variable (adjacent : b.Adjacent a) (between : s.Between b a)

include adjacent between

/-- What is passed on is not reported. -/
private theorem filter_of_passesOn (passes : s.PassesOn source) :
    s.losses.filter (·.name == source) = [] := by
  rcases adjacent with next | next
  · simp [losses_up next between]
  · exact filter_eq_nil fun reported =>
      ((exists_loss_iff next between).mp reported).2.2 passes

/-- What was not changed is not reported. -/
theorem filter_of_unchanged (same : s.changed source = false) :
    s.losses.filter (·.name == source) = [] := by
  rcases adjacent with next | next
  · simp [losses_up next between]
  · refine filter_eq_nil fun reported => ?_
    rw [((exists_loss_iff next between).mp reported).2.1] at same
    cases same

/-- **A changed field that is meant for others and is not passed on is reported once**, with its
value. -/
theorem filter_of_aims (holds : s.record.get? source = some value)
    (aims : ∃ target, s.Aims source target) (stuck : ¬ s.PassesOn source) :
    s.losses.filter (·.name == source) =
      if s.changed source then [.value source value.display] else [] := by
  cases differs : s.changed source with
  | false => simp [filter_of_unchanged adjacent between differs]
  | true =>
    obtain ⟨target, aims⟩ := aims
    obtain ⟨t, listed, reads, -⟩ := (aims_iff (between.adjacent adjacent) holds).mp aims
    have lost : s.keeps t = false :=
      Bool.eq_false_iff.mpr fun kept => stuck ⟨t, listed, reads, kept⟩
    rcases adjacent with next | next
    · exact absurd (passesOn_up next between holds) stuck
    · have reported : Loss.value source value.display ∈ s.losses :=
        List.mem_append_left _ (List.mem_flatMap.mpr ⟨t, listed, (mem_lost_iff next between
          (between.moves ▸ listed)).mpr ⟨source, value, reads, holds, lost, differs, rfl⟩⟩)
      exact filter_key_eq_singleton (nodup_losses (.inr next) between) reported

/-- **A changed field that is meant for nothing is reported once**, as dropped. -/
theorem filter_of_ends (holds : s.record.get? source = some value)
    (ends : ∀ target, ¬ s.Aims source target) :
    s.losses.filter (·.name == source) = if s.changed source then [.field source] else [] := by
  cases differs : s.changed source with
  | false => simp [filter_of_unchanged adjacent between differs]
  | true =>
    have unread : source ∉ s.consumed := by
      intro read
      obtain ⟨t, listed, reads⟩ := List.mem_flatMap.mp read
      obtain ⟨target, writes⟩ := Version.exists_target (between.adjacent adjacent)
        (List.mem_append_left _ listed)
      exact ends _ (.transfer listed reads writes)
    have unknown : s.after.schema.field? source = none := by
      rw [← Option.not_isSome_iff_eq_none]
      exact fun known => ends _ (.sameName unread known)
    have reported : Loss.field source ∈ s.losses :=
      List.mem_append_right _ ((mem_dropped_iff between.wellFormed).mpr
        ⟨source, value, holds, unread, unknown, differs, rfl⟩)
    exact filter_key_eq_singleton (nodup_losses adjacent between) reported

omit adjacent between

/-! ## The account -/

/-- **A step accounts for every field once**: between neighbouring versions, whatever the record
and the style before it hold, it succeeds, writes what the fields stand for, reports what stands for
nothing and was changed, and leaves the rest to the style of the next version. -/
theorem run_accounts (adjacent : s.record.version.Adjacent s.after.version)
    (wellFormed : s.record.WellFormed) (wellFormed' : s.after.WellFormed) :
    ∃ p, s.run.outcome = .ok p ∧ s.Accounts p := by
  have between : s.Between s.record.version s.after.version := ⟨rfl, rfl, wellFormed, wellFormed'⟩
  refine ⟨⟨s.next, s.losses⟩, outcome_run adjacent wellFormed', ?_⟩
  exact {
    version := version_next
    wellFormed := wellFormed_next wellFormed'
    written := fun represents => by
      obtain ⟨t, listed, -, assigned⟩ := (represents_iff adjacent).mp represents
      exact ⟨get?_next_of_assigned adjacent wellFormed' listed assigned,
        filter_of_passesOn adjacent between ((passesOn_iff adjacent).mpr ⟨_, _, represents⟩)⟩
    unrepresented := fun holds aims stands =>
      ⟨fun _ aims => get?_next_of_aims adjacent holds aims stands,
        filter_of_aims adjacent between holds aims fun passes => by
          obtain ⟨target, value, represents⟩ := (passesOn_iff adjacent).mp passes
          exact stands target value represents⟩
    dropped := fun holds ends => filter_of_ends adjacent between holds ends
    kept := fun stands => get?_next_of_unrepresented adjacent stands
    known := fun loss reported => by
      rcases adjacent with next | next
      · rw [losses_up next between] at reported
        cases reported
      · exact ((exists_loss_iff next between).mp ⟨loss, reported, rfl⟩).1 }

/-- A step that drops a field of the highest version. -/
theorem run_accounts_insertBraces :
    let s : Step := ⟨(zeroed .v16 .cpp).put "InsertBraces" (.bool true), zeroed .v16 .cpp,
      zeroed .v12 .cpp⟩
    s.record.version.Adjacent s.after.version ∧ s.record.WellFormed ∧ s.after.WellFormed ∧
      ∃ p, s.run.outcome = .ok p ∧ s.Accounts p := by
  intro s
  have wellFormed : s.record.WellFormed := by unfold WellFormed; decide
  have wellFormed' : s.after.WellFormed := by unfold WellFormed; decide
  exact ⟨.inr rfl, wellFormed, wellFormed', run_accounts (.inr rfl) wellFormed wellFormed'⟩

end Step

end Migration

end FormatStyle
