import FormatStyle.Proofs.PresetFields
import FormatStyle.Writing

/-! # Presets

What a variant of a preset writes does not depend on the record that it is written into
(`Preset.exists_writes`). So writing out a preset always succeeds, and so does naming it again: a
variant describes a record exactly where writing it out changes nothing (`Preset.describes_iff`).
Both stay within the preset (`Preset.local_expandIn`, `Preset.local_collapseIn`).
-/

namespace FormatStyle

/-! ## What variants write -/

namespace StyleRecord

variable {r a b : StyleRecord} {name : String} {value : Value} {writes : List (String × Value)}

/-- What several records hold after the same assignments, where they agreed or are assigned. -/
theorem get?_putAll_congr {P Q : FieldKind → Value → Prop}
    (each : a.Each P) (each' : b.Each Q) (version : b.version = a.version)
    (agree : name ∉ writes.map Prod.fst → a.get? name = b.get? name) :
    (a.putAll writes).get? name = (b.putAll writes).get? name := by
  cases found : a.schema.field? name with
  | none =>
    rw [get?_eq_none (by rw [schema_putAll]; exact found), get?_eq_none]
    rw [schema_putAll, StyleRecord.schema, version]
    exact found
  | some field =>
    have known : (a.get? name).isSome = true ∧ (b.get? name).isSome = true := by
      obtain ⟨_, holds, _⟩ := each.get? found
      obtain ⟨_, holds', _⟩ := each'.get? (by rw [StyleRecord.schema, version]; exact found)
      simp [holds, holds']
    clear each each'
    induction writes generalizing a b with
    | nil => exact agree (by simp)
    | cons write writes ih =>
      rw [putAll_cons, putAll_cons]
      by_cases named : name = write.1
      · subst named
        have same : (a.put write.1 write.2).get? write.1 = (b.put write.1 write.2).get? write.1 :=
          (get?_put known.1).trans (get?_put known.2).symm
        exact ih (by rw [version_put, version_put, version]) (fun _ => same)
          (by rw [schema_put]; exact found) (by rw [get?_put known.1, get?_put known.2]; simp)
      · refine ih (by rw [version_put, version_put, version]) (fun unnamed => ?_)
          (by rw [schema_put]; exact found)
          (by rw [get?_put_of_ne named, get?_put_of_ne named]; exact known)
        rw [get?_put_of_ne named, get?_put_of_ne named]
        exact agree (by simpa [named] using unnamed)

/-- Assignments that have been made are held. -/
theorem putAll_putAll (wellFormed : r.WellFormed) (fits : r.schema.Fits writes) :
    (r.putAll writes).putAll writes = r.putAll writes := by
  have once := ChangesOnly.putAll wellFormed fits
  have twice := ChangesOnly.putAll once.wellFormed (by rwa [schema_putAll])
  refine twice.eq_self once.wellFormed fun name assigned => ?_
  exact get?_putAll_congr (wellFormed_iff.mp once.wellFormed) (wellFormed_iff.mp wellFormed)
    once.sameTags.1.symm fun unassigned => absurd assigned unassigned

/-- Assignments that one record already holds, another one holds that agrees with it there. -/
theorem putAll_self_congr (wellFormed : a.WellFormed) (wellFormed' : b.WellFormed)
    (version : b.version = a.version) (fits : b.schema.Fits writes)
    (agree : ∀ name ∈ writes.map Prod.fst, b.get? name = a.get? name)
    (holds : a.putAll writes = a) : b.putAll writes = b := by
  refine (ChangesOnly.putAll wellFormed' fits).eq_self wellFormed' fun name assigned => ?_
  rw [get?_putAll_congr (wellFormed_iff.mp wellFormed') (wellFormed_iff.mp wellFormed)
    version.symm fun unassigned => absurd assigned unassigned, holds, agree name assigned]

/-- Assignments to simple fields are the same table for every record. -/
private theorem exists_scalar_writes {v : Version} {assignments : List (String × Literal)}
    (accepted : assignments.all v.schema.acceptsScalar = true) :
    ∃ writes : List (String × Value), writes.map Prod.fst = assignments.map Prod.fst ∧
      v.schema.Fits writes ∧
      ∀ r : StyleRecord, r.version = v → r.WellFormed →
        (r.assign assignments).toExcept = .ok (r.putAll writes) := by
  induction assignments with
  | nil => exact ⟨[], rfl, List.forall_mem_nil _, fun _ _ _ => rfl⟩
  | cons assignment rest ih =>
    simp only [List.all_cons, Bool.and_eq_true] at accepted
    obtain ⟨writes, names, stored, assign⟩ := ih accepted.2
    obtain ⟨field, found, fits⟩ := (Option.any_eq_true _ _).mp accepted.1
    split at fits
    · rename_i kind is_scalar
      obtain ⟨isOk, small⟩ := Bool.and_eq_true_iff.mp fits
      obtain ⟨value, literal⟩ := Outcome.isOk_iff.mp isOk
      obtain ⟨admitted, stores⟩ := Literal.toScalar_eq_ok literal
      refine ⟨(assignment.1, value) :: writes, by simp [names], ?_, fun r version wellFormed => ?_⟩
      · refine List.forall_mem_cons.mpr ⟨⟨field, found, ?_⟩, stored⟩
        rw [is_scalar]
        exact stores small
      · have found' : r.schema.field? assignment.1 = some field := by
          rw [StyleRecord.schema, version]
          exact found
        obtain ⟨current, holds, _⟩ := (wellFormed_iff.mp wellFormed).get? found'
        have denotes : assignment.2.toValue field.name field.kind current = .ok value := by
          rw [is_scalar]
          exact Literal.toValue_of_toScalar literal
        have kept : (r.put assignment.1 value).WellFormed :=
          wellFormed.set (set_eq_put found' (by rw [is_scalar]; exact admitted))
        rw [assign_cons_of_ok (assignOne_eq_put found' holds denotes)]
        exact assign _ (by rw [version_put, version]) kept
    · cases fits

end StyleRecord

/-! ## One preset -/

namespace Preset

open StyleRecord

variable {v : Version} {preset : Preset} {variant : PresetVariant} {r a b : StyleRecord}
  {name : String}

/-- **What a variant writes is one table of assignments**, whatever the record was. -/
theorem exists_writes (member : preset ∈ v.schema.presets) (listed : variant ∈ preset.variants) :
    ∃ writes : List (String × Value),
      writes.map Prod.fst = preset.target :: variant.side.map Prod.fst ∧
      v.schema.Fits writes ∧
      ∀ r : StyleRecord, r.version = v → r.WellFormed →
        preset.apply variant r = .ok (r.putAll writes) := by
  have made := List.all_eq_true.mp v.presets_wellMade preset member
  simp only [Schema.presetFits, Bool.and_eq_true] at made
  obtain ⟨⟨⟨target_fits, sides⟩, -⟩, -⟩ := made
  obtain ⟨target, found, fits⟩ := (Option.any_eq_true _ _).mp target_fits
  simp only [Bool.and_eq_true] at fits
  obtain ⟨⟨⟨-, reset_fits⟩, reset_narrow⟩, variants⟩ := fits
  obtain ⟨flags_fit, flags_narrow⟩ :=
    Bool.and_eq_true_iff.mp (List.all_eq_true.mp variants variant listed)
  have lawful := Version.lawful_of_mem (Schema.mem_of_field? found)
  have zero := FieldKind.stores_zero lawful
  obtain ⟨blank, reset⟩ := Literal.toValue_isOk reset_fits (FieldKind.admits_of_stores zero)
  have blank_stores := Literal.stores_of_toValue lawful reset_narrow zero reset
  obtain ⟨content, flags⟩ :=
    Literal.toValue_isOk flags_fit (FieldKind.admits_of_stores blank_stores)
  have content_stores := Literal.stores_of_toValue lawful flags_narrow blank_stores flags
  obtain ⟨writes, names, stored, assign⟩ :=
    exists_scalar_writes (List.all_eq_true.mp sides variant listed)
  refine ⟨(preset.target, content) :: writes, by simp [names],
    List.forall_mem_cons.mpr ⟨⟨target, found, content_stores⟩, stored⟩,
    fun r version wellFormed => ?_⟩
  have found' : r.schema.field? preset.target = some target := by
    rw [StyleRecord.schema, version]
    exact found
  have known : ∀ value, ((r.put preset.target value).get? preset.target) = some value := by
    obtain ⟨current, holds, _⟩ := (wellFormed_iff.mp wellFormed).get? found'
    exact fun value => get?_put (by simp [holds])
  have kept : ∀ value, target.kind.Stores value → (r.put preset.target value).WellFormed :=
    fun value stores => wellFormed.set (set_eq_put found' (FieldKind.admits_of_stores stores))
  have one : ∀ {literal value value'},
      literal.toValue target.name target.kind value = .ok value' →
        ((r.put preset.target value).assign [(preset.target, literal)]).toExcept =
          .ok (r.put preset.target value') := by
    intro literal value value' denotes
    have made := assignOne_eq_put (by rw [schema_put]; exact found') (known value) denotes
    rw [assign_cons_of_ok made, put_put]
    rfl
  unfold apply
  rw [found']
  dsimp only
  rw [set_eq_put found' (FieldKind.admits_of_stores zero), Outcome.ok_bind, one reset,
    Outcome.ok_bind, one flags, Outcome.ok_bind, putAll_cons]
  exact assign _ (by rw [version_put, version]) (kept content content_stores)

/-- A selected variant is one of the preset's own. -/
theorem mem_of_selected? {r : StyleRecord} (selected : preset.selected? r = some variant) :
    variant ∈ preset.variants := by
  unfold selected? at selected
  split at selected
  · split at selected
    · cases selected
    · exact List.mem_of_find?_eq_some selected
  · cases selected

/-- A choice that names a variant selects it. -/
theorem selected?_of_choice (member : preset ∈ v.schema.presets)
    (listed : variant ∈ preset.variants)
    (selects : r.get? preset.selector = some (.choice variant.variant)) :
    preset.selected? r = some variant := by
  obtain ⟨other, found⟩ : ∃ other, preset.variant? variant.variant = some other :=
    Option.isSome_iff_exists.mp (List.find?_isSome.mpr ⟨variant, listed, beq_self_eq_true _⟩)
  obtain rfl : other = variant := by
    refine List.inj_on_of_nodup_map (v.presets_apart.2 preset member)
      (List.mem_of_find?_eq_some found) listed ?_
    simpa using List.find?_some found
  unfold selected?
  rw [selects]
  dsimp only [Option.bind_some, Value.choice?]
  rw [if_neg (v.custom_is_no_variant member listed), found]

/-- The selection depends on nothing but the selector. -/
theorem selected?_congr {a b : StyleRecord}
    (agree : a.get? preset.selector = b.get? preset.selector) :
    preset.selected? a = preset.selected? b := by
  unfold selected?
  rw [agree]

/-- **The selector of a preset is a choice** between its variants and the custom one. -/
theorem exists_selector {v : Version} (member : preset ∈ v.schema.presets) :
    ∃ field e, v.schema.field? preset.selector = some field ∧ field.kind = .scalar (.choice e) ∧
      (∀ variant ∈ preset.variants, e.hasVariant variant.variant = true) ∧
      ∀ s ∈ e.spellings, s.2 = preset.custom ∨ (preset.variant? s.2).isSome = true := by
  have made := List.all_eq_true.mp v.presets_wellMade preset member
  simp only [Schema.selectorFits, Bool.and_eq_true] at made
  obtain ⟨field, found, fits⟩ := (Option.any_eq_true _ _).mp made.1.2
  split at fits
  · rename_i e is_choice
    obtain ⟨variants, spellings⟩ := Bool.and_eq_true_iff.mp fits
    refine ⟨field, e, found, is_choice, fun _ => List.all_eq_true.mp variants _, fun s listed => ?_⟩
    simpa using List.all_eq_true.mp spellings s listed
  · cases fits

/-- A preset writes its target exactly where it implies it. -/
theorem selected?_isSome_iff {r : StyleRecord} (member : preset ∈ r.schema.presets)
    (wellFormed : r.WellFormed) :
    (preset.selected? r).isSome = preset.implies r := by
  obtain ⟨field, e, found, is_choice, -, covered⟩ := exists_selector (v := r.version) member
  obtain ⟨value, holds, admitted⟩ := (wellFormed_iff.mp wellFormed).get? found
  rw [is_choice] at admitted
  cases value with
  | choice name =>
    have has : e.hasVariant name = true := admitted
    obtain ⟨s, listed, named⟩ := List.any_eq_true.mp has
    rw [beq_iff_eq] at named
    subst named
    unfold selected? implies
    simp only [holds, Option.bind_some, Value.choice?, Option.any_some]
    by_cases custom : s.2 = preset.custom
    · simp [custom]
    · simp [custom, (covered s listed).resolve_left custom]
  | _ => cases admitted

/-- **The fields that the selected variant overwrites**, none where the record leaves the target to
the user. -/
def overwrites (preset : Preset) (r : StyleRecord) : List String :=
  match preset.selected? r with
  | some variant => preset.target :: variant.side.map Prod.fst
  | none => []

theorem overwrites_congr (agree : a.get? preset.selector = b.get? preset.selector) :
    preset.overwrites a = preset.overwrites b := by
  rw [overwrites, overwrites, selected?_congr agree]

/-- What a variant overwrites is among what its preset writes. -/
theorem overwrites_subset : preset.overwrites r ⊆ Schema.writtenBy preset := by
  intro name overwritten
  unfold overwrites at overwritten
  split at overwritten
  · rename_i variant selected
    refine List.mem_cons.mpr ((List.mem_cons.mp overwritten).imp_right fun side => ?_)
    exact List.mem_flatMap.mpr ⟨variant, mem_of_selected? selected, side⟩
  · cases overwritten

/-- A preset that a record implies overwrites its target. -/
theorem target_mem_overwrites (member : preset ∈ r.schema.presets) (wellFormed : r.WellFormed)
    (implies : preset.implies r = true) : preset.target ∈ preset.overwrites r := by
  rw [← selected?_isSome_iff member wellFormed] at implies
  obtain ⟨variant, selected⟩ := Option.isSome_iff_exists.mp implies
  rw [overwrites, selected]
  exact List.mem_cons_self

/-- **A preset is written out in every record in the same way.** -/
theorem expandIn_eq (member : preset ∈ v.schema.presets) (r : StyleRecord) :
    ∃ writes : List (String × Value), writes.map Prod.fst = preset.overwrites r ∧
      v.schema.Fits writes ∧
      ∀ b : StyleRecord, b.version = v → b.WellFormed →
        b.get? preset.selector = r.get? preset.selector →
          preset.expandIn b = .ok (b.putAll writes) := by
  cases selected : preset.selected? r with
  | none =>
    refine ⟨[], by simp [overwrites, selected], List.forall_mem_nil _, fun b _ _ agree => ?_⟩
    simp [expandIn, selected?_congr agree, selected]
  | some variant =>
    obtain ⟨writes, names, fits, apply⟩ := exists_writes member (mem_of_selected? selected)
    refine ⟨writes, by simp [overwrites, selected, names], fits,
      fun b version wellFormed agree => ?_⟩
    simp only [expandIn, selected?_congr agree, selected]
    exact apply b version wellFormed

/-- Writing out a preset changes what the selected variant overwrites. -/
theorem expandIn_isOk (wellFormed : r.WellFormed) (member : preset ∈ r.schema.presets) :
    ∃ next, preset.expandIn r = .ok next ∧ ChangesOnly (preset.overwrites r) r next := by
  obtain ⟨writes, names, fits, expand⟩ := expandIn_eq member r
  exact ⟨_, expand r rfl wellFormed rfl, names ▸ .putAll wellFormed fits⟩

/-- **Writing out presets stays within them.** -/
theorem local_expandIn : Local expandIn where
  isOk wellFormed member := by
    obtain ⟨next, expand, changes⟩ := expandIn_isOk wellFormed member
    exact ⟨next, expand,
      changes.mono fun name overwritten => List.mem_cons_of_mem _ (overwrites_subset overwritten)⟩
  congr wellFormed wellFormed' version member agree expand expand' name about := by
    obtain ⟨writes, -, -, apply⟩ := expandIn_eq member _
    obtain rfl := Except.ok.inj (expand.symm.trans (apply _ rfl wellFormed rfl))
    obtain rfl := Except.ok.inj
      (expand'.symm.trans (apply _ version wellFormed' (agree _ List.mem_cons_self)))
    exact get?_putAll_congr (wellFormed_iff.mp wellFormed') (wellFormed_iff.mp wellFormed)
      version.symm fun _ => agree name about

/-- **What a variant writes into its target**, whatever the record was. -/
def content? (v : Version) (preset : Preset) (variant : PresetVariant) : Option Value :=
  (preset.apply variant (.zeroed v .cpp)).toOption.bind (·.get? preset.target)

/-- **A variant writes its content** into its target. -/
theorem apply_eq (member : preset ∈ v.schema.presets) (listed : variant ∈ preset.variants)
    (wellFormed : r.WellFormed) (version : r.version = v) :
    ∃ applied, preset.apply variant r = .ok applied ∧
      applied.get? preset.target = preset.content? v variant := by
  obtain ⟨writes, names, -, apply⟩ := exists_writes member listed
  have zeroed := stores_zeroed v .cpp
  refine ⟨_, apply r version wellFormed, ?_⟩
  unfold content?
  rw [apply _ rfl zeroed.wellFormed]
  refine get?_putAll_congr (wellFormed_iff.mp wellFormed) zeroed version.symm fun unwritten => ?_
  rw [names] at unwritten
  exact absurd List.mem_cons_self unwritten

/-- The record with a variant selected. -/
def selecting (preset : Preset) (variant : PresetVariant) (r : StyleRecord) : StyleRecord :=
  r.put preset.selector (.choice variant.variant)

theorem get?_selecting (apart : name ≠ preset.selector) :
    (preset.selecting variant r).get? name = r.get? name := get?_put_of_ne apart

/-- What a preset writes does not depend on what is selected. -/
theorem get?_selecting_of_written (member : preset ∈ v.schema.presets)
    (written : name ∈ Schema.writtenBy preset) :
    (preset.selecting variant r).get? name = r.get? name := by
  refine get?_selecting ?_
  rintro rfl
  exact selector_notMem_writtenBy member member written

/-- **Each variant can be selected**, and that changes nothing else. -/
theorem select_isOk (wellFormed : r.WellFormed) (member : preset ∈ r.schema.presets)
    (listed : variant ∈ preset.variants) :
    r.set preset.selector (.choice variant.variant) = .ok (preset.selecting variant r) ∧
      ChangesOnly [preset.selector] r (preset.selecting variant r) ∧
      (preset.selecting variant r).get? preset.selector = some (.choice variant.variant) := by
  obtain ⟨field, e, found, is_choice, has, -⟩ := exists_selector (v := r.version) member
  have stores : field.kind.Stores (.choice variant.variant) := by
    rw [is_choice]
    exact ⟨has variant listed, trivial⟩
  have chosen : r.schema.Fits [(preset.selector, .choice variant.variant)] :=
    List.forall_mem_singleton.mpr ⟨field, found, stores⟩
  obtain ⟨current, holds, -⟩ := (wellFormed_iff.mp wellFormed).get? found
  exact ⟨set_eq_put found (FieldKind.admits_of_stores stores), .putAll wellFormed chosen,
    get?_put (by rw [holds]; rfl)⟩

/-- Whether writing out a variant changes anything, the fields that the preset writes tell. -/
theorem apply_self_congr (wellFormed : a.WellFormed) (wellFormed' : b.WellFormed)
    (version : b.version = a.version) (member : preset ∈ a.schema.presets)
    (listed : variant ∈ preset.variants)
    (agree : ∀ name ∈ Schema.writtenBy preset, b.get? name = a.get? name)
    (self : preset.apply variant a = .ok a) : preset.apply variant b = .ok b := by
  obtain ⟨writes, names, fits, apply⟩ := exists_writes member listed
  have kept := Except.ok.inj ((apply a rfl wellFormed).symm.trans self)
  rw [apply b version wellFormed']
  refine congrArg Except.ok (putAll_self_congr wellFormed wellFormed' version ?_ ?_ kept)
  · rw [StyleRecord.schema, version]
    exact fits
  · intro name assigned
    rw [names] at assigned
    refine agree name (List.mem_cons.mpr ((List.mem_cons.mp assigned).imp_right fun side => ?_))
    exact List.mem_flatMap.mpr ⟨variant, listed, side⟩

/-- **Every variant can be tried** on a well-formed record. -/
theorem exists_describes (wellFormed : r.WellFormed) (member : preset ∈ r.schema.presets)
    (listed : variant ∈ preset.variants) :
    ∃ applied, preset.apply variant (preset.selecting variant r) = .ok applied ∧
      preset.describes r variant = .ok (decide (applied = preset.selecting variant r)) := by
  obtain ⟨select, selects, -⟩ := select_isOk wellFormed member listed
  obtain ⟨applied, apply, -⟩ := apply_eq member listed selects.wellFormed selects.sameTags.1
  refine ⟨applied, apply, ?_⟩
  unfold describes
  rw [select, Outcome.ok_bind, apply]
  rfl

/-- **A variant describes a record** if the record already holds what the variant writes. -/
theorem describes_iff (wellFormed : r.WellFormed) (member : preset ∈ r.schema.presets)
    (listed : variant ∈ preset.variants) :
    preset.describes r variant = .ok true ↔ preset.apply variant r = .ok r := by
  obtain ⟨-, selects, -⟩ := select_isOk wellFormed member listed
  obtain ⟨applied, apply, describes⟩ := exists_describes wellFormed member listed
  have selected : preset.describes r variant = .ok true ↔
      preset.apply variant (preset.selecting variant r) = .ok (preset.selecting variant r) := by
    rw [describes, apply, Except.ok.injEq, Except.ok.injEq, decide_eq_true_iff]
  rw [selected]
  constructor
  · refine apply_self_congr selects.wellFormed wellFormed selects.sameTags.1.symm
      (by rwa [selects.sameTags.schema]) listed fun name written => ?_
    exact (get?_selecting_of_written member written).symm
  · exact apply_self_congr wellFormed selects.wellFormed selects.sameTags.1 member listed
      fun name written => get?_selecting_of_written member written

/-- A variant describes only records whose target holds its content. -/
theorem content?_of_describes (wellFormed : r.WellFormed) (member : preset ∈ r.schema.presets)
    (listed : variant ∈ preset.variants) (describes : preset.describes r variant = .ok true) :
    preset.content? r.version variant = r.get? preset.target := by
  obtain ⟨applied, apply, content⟩ := apply_eq member listed wellFormed rfl
  have self := (describes_iff wellFormed member listed).mp describes
  obtain rfl := Except.ok.inj (apply.symm.trans self)
  exact content.symm

/-- The variants that describe a record. -/
def fitting (preset : Preset) (r : StyleRecord) : List PresetVariant :=
  preset.variants.filter fun variant => (preset.describes r variant).toOption == some true

theorem mem_fitting_iff : variant ∈ preset.fitting r ↔
    variant ∈ preset.variants ∧ preset.describes r variant = .ok true := by
  rw [fitting, List.mem_filter, beq_iff_eq, Outcome.toOption_eq_some_iff]

theorem mem_variants_of_fitting (fits : preset.fitting r = [variant]) :
    variant ∈ preset.variants :=
  (mem_fitting_iff.mp (fits ▸ List.mem_singleton_self variant)).1

/-- The variants that describe a record have names of their own. -/
theorem nodup_fitting (member : preset ∈ r.schema.presets) :
    ((preset.fitting r).map (·.variant)).Nodup :=
  (r.version.presets_apart.2 preset member).sublist (List.filter_sublist.map _)

/-- What is tried on a record is named by the variants that describe it. -/
theorem describing_eq (wellFormed : r.WellFormed) (member : preset ∈ r.schema.presets) :
    preset.describing r = .ok ((preset.fitting r).map (·.variant)) := by
  have tests : ∀ variant ∈ preset.variants, preset.describes r variant =
      .ok ((preset.describes r variant).toOption == some true) := by
    intro variant listed
    obtain ⟨applied, -, describes⟩ := exists_describes wellFormed member listed
    rw [describes]
    simp [Except.toOption]
  unfold describing
  rw [Outcome.filterM_eq_filter tests]
  rfl

/-- Records that agree on the fields that a preset writes are described by the same variants. -/
theorem fitting_congr (wellFormed : a.WellFormed) (wellFormed' : b.WellFormed)
    (version : b.version = a.version) (member : preset ∈ a.schema.presets)
    (agree : ∀ name ∈ Schema.writtenBy preset, b.get? name = a.get? name) :
    preset.fitting b = preset.fitting a := by
  have member' : preset ∈ b.schema.presets := by rwa [StyleRecord.schema, version]
  refine List.filter_congr fun variant listed => Bool.eq_iff_iff.mpr ?_
  simp only [beq_iff_eq, Outcome.toOption_eq_some_iff]
  rw [describes_iff wellFormed' member' listed, describes_iff wellFormed member listed]
  exact ⟨apply_self_congr wellFormed' wellFormed version.symm member' listed
      fun name written => (agree name written).symm,
    apply_self_congr wellFormed wellFormed' version member listed agree⟩

/-- A selector that holds the custom choice. -/
theorem custom_iff : (r.get? preset.selector).bind Value.choice? = some preset.custom ↔
    r.get? preset.selector = some (.choice preset.custom) := by
  constructor
  · intro custom
    obtain ⟨value, holds, choice⟩ := Option.bind_eq_some_iff.mp custom
    cases value <;> cases choice
    exact holds
  · intro custom
    rw [custom]
    rfl

/-- A record that selects a variant is not named again. -/
theorem collapseIn_of_not_custom (selects : r.get? preset.selector ≠ some (.choice preset.custom)) :
    (preset.collapseIn r).outcome = .ok r := by
  unfold collapseIn
  rw [if_neg (mt custom_iff.mp selects)]
  rfl

/-- **Naming a preset** selects the variant that describes the record, if it is the only one. -/
theorem collapseIn_of_custom (wellFormed : r.WellFormed) (member : preset ∈ r.schema.presets)
    (custom : r.get? preset.selector = some (.choice preset.custom)) :
    (∃ variant, preset.fitting r = [variant] ∧
      (preset.collapseIn r).outcome = .ok (preset.selecting variant r)) ∨
    ((∀ variant, preset.fitting r ≠ [variant]) ∧ (preset.collapseIn r).outcome = .ok r) := by
  unfold collapseIn
  rw [if_pos (custom_iff.mpr custom), Traced.outcome_bind, Traced.outcome_monadLift,
    describing_eq wellFormed member, Outcome.ok_bind]
  match fits : preset.fitting r with
  | [variant] =>
    have select := (select_isOk wellFormed member (mem_variants_of_fitting fits)).1
    exact .inl ⟨variant, rfl, by simp [select]⟩
  | [] => exact .inr ⟨by simp, rfl⟩
  | _ :: _ :: _ => exact .inr ⟨by simp, rfl⟩

/-- Naming a preset changes nothing but its selector. -/
theorem collapseIn_isOk (wellFormed : r.WellFormed) (member : preset ∈ r.schema.presets) :
    ∃ next, (preset.collapseIn r).outcome = .ok next ∧ ChangesOnly [preset.selector] r next := by
  by_cases custom : r.get? preset.selector = some (.choice preset.custom)
  · rcases collapseIn_of_custom wellFormed member custom with ⟨variant, fits, named⟩ | ⟨-, kept⟩
    · exact ⟨_, named, (select_isOk wellFormed member (mem_variants_of_fitting fits)).2.1⟩
    · exact ⟨r, kept, .refl wellFormed⟩
  · exact ⟨r, collapseIn_of_not_custom custom, .refl wellFormed⟩

/-- **Naming presets stays within them.** -/
theorem local_collapseIn : Local fun r preset => (preset.collapseIn r).outcome where
  isOk wellFormed member := by
    obtain ⟨next, collapse, changes⟩ := collapseIn_isOk wellFormed member
    exact ⟨next, collapse, changes.mono (List.cons_subset_cons _ (List.nil_subset _))⟩
  congr {preset a b a' b'} wellFormed wellFormed' version member agree collapse collapse' name
      about := by
    have member' : preset ∈ b.schema.presets := by rwa [StyleRecord.schema, version]
    have selector := agree _ List.mem_cons_self
    have fits := fitting_congr wellFormed wellFormed' version member fun name written =>
      agree name (List.mem_cons_of_mem _ written)
    have unchanged : (preset.collapseIn a).outcome = .ok a →
        (preset.collapseIn b).outcome = .ok b → b'.get? name = a'.get? name := by
      intro kept kept'
      obtain rfl := Except.ok.inj (collapse.symm.trans kept)
      obtain rfl := Except.ok.inj (collapse'.symm.trans kept')
      exact agree name about
    by_cases custom : a.get? preset.selector = some (.choice preset.custom)
    · rcases collapseIn_of_custom wellFormed member custom with
        ⟨variant, one, named⟩ | ⟨several, kept⟩ <;>
      rcases collapseIn_of_custom wellFormed' member' (selector.trans custom) with
        ⟨variant', one', named'⟩ | ⟨several', kept'⟩
      · obtain rfl := List.singleton_inj.mp (one'.symm.trans (fits.trans one))
        obtain rfl := Except.ok.inj (collapse.symm.trans named)
        obtain rfl := Except.ok.inj (collapse'.symm.trans named')
        have listed := mem_variants_of_fitting one
        by_cases hit : name = preset.selector
        · rw [hit, (select_isOk wellFormed member listed).2.2,
            (select_isOk wellFormed' member' listed).2.2]
        · rw [get?_selecting hit, get?_selecting hit, agree name about]
      · exact absurd (fits.trans one) (several' variant)
      · exact absurd (fits.symm.trans one') (several variant')
      · exact unchanged kept kept'
    · exact unchanged (collapseIn_of_not_custom custom)
        (collapseIn_of_not_custom (selector ▸ custom))

end Preset

end FormatStyle
