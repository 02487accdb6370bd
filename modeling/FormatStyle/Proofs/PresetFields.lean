import FormatStyle.Preset
import FormatStyle.Proofs.Styles

/-! # What presets are about

The presets of every version are made well (`Version.presets_wellMade`), and each is about fields of
its own (`Version.presets_apart`). So steps that stay within one preset each do not disturb each
other: all of them together do to the fields of a preset what its own step does
(`Preset.Local.foldlM`), and settle what its own step settles (`Preset.Local.foldlM_self`).
-/

namespace FormatStyle

namespace Schema

variable (schema : Schema)

/-- An assignment fits the simple field that it names. -/
def acceptsScalar (assignment : String × Literal) : Bool :=
  (schema.field? assignment.1).any fun field =>
    match field.kind with
    | .scalar kind => (assignment.2.toScalar field.name kind).isOk && assignment.2.small
    | _ => false

/-- The fields that the variants of a preset write. -/
def writtenBy (preset : Preset) : List String :=
  preset.target :: preset.variants.flatMap (·.side.map (·.1))

/-- The fields that presets write. -/
def presetWrites : List String := schema.presets.flatMap writtenBy

/-- The content of the target of a preset fits it, and so does what is beside it. -/
def presetFits (preset : Preset) : Bool :=
  ((schema.field? preset.target).any fun target =>
    target.kind.parts?.isSome && (Literal.record preset.reset).fits target.name target.kind &&
      (Literal.record preset.reset).narrow && preset.variants.all fun variant =>
        (Literal.record variant.flags).fits target.name target.kind &&
          (Literal.record variant.flags).narrow) &&
    preset.variants.all fun variant => variant.side.all schema.acceptsScalar

/-- The selector of a preset is a choice between its variants and the custom one. -/
def selectorFits (preset : Preset) : Bool :=
  (schema.field? preset.selector).any fun field =>
    match field.kind with
    | .scalar (.choice e) =>
      preset.variants.all (e.hasVariant ·.variant) &&
        e.spellings.all fun s => s.2 == preset.custom || (preset.variant? s.2).isSome
    | _ => false

/-- **Presets that are made well**: they fit, and none writes a selector. -/
def presetsWellMade : Bool :=
  schema.presets.all fun preset => schema.presetFits preset && schema.selectorFits preset &&
    !schema.presetWrites.contains preset.selector

end Schema

/-- **The presets of every version are made well.** -/
theorem Version.presets_wellMade (v : Version) : v.schema.presetsWellMade = true := by
  have checked : ∀ v ∈ Version.all, v.schema.presetsWellMade = true := by decide +kernel
  exact checked v v.mem_all

/-- **The fields that a preset is about**: its selector, and what its variants write. -/
def Preset.fields (preset : Preset) : List String := preset.selector :: Schema.writtenBy preset

/-- **Two presets of a version are about different fields**, and the variants of each have names of
their own. -/
theorem Version.presets_apart (v : Version) :
    (v.schema.presets.Pairwise fun preset other => ∀ name ∈ preset.fields, name ∉ other.fields) ∧
      ∀ preset ∈ v.schema.presets, (preset.variants.map (·.variant)).Nodup := by
  have checked : ∀ v ∈ Version.all,
      (v.schema.presets.Pairwise fun preset other =>
        ∀ name ∈ preset.fields, name ∉ other.fields) ∧
      ∀ preset ∈ v.schema.presets, (preset.variants.map (·.variant)).Nodup := by
    decide +kernel
  exact checked v v.mem_all

/-- The custom choice names no variant. -/
theorem Version.custom_is_no_variant {v : Version} {preset : Preset} {variant : PresetVariant}
    (member : preset ∈ v.schema.presets) (listed : variant ∈ preset.variants) :
    variant.variant ≠ preset.custom := by
  have checked : ∀ v ∈ Version.all, ∀ preset ∈ v.schema.presets, ∀ variant ∈ preset.variants,
      variant.variant ≠ preset.custom := by
    decide +kernel
  exact checked v v.mem_all preset member variant listed

namespace StyleRecord

/-- No preset writes a selector. -/
theorem selector_notMem_writes {v : Version} {preset : Preset}
    (member : preset ∈ v.schema.presets) :
    preset.selector ∉ v.schema.presetWrites := by
  have made := List.all_eq_true.mp v.presets_wellMade preset member
  simp only [Bool.and_eq_true, Bool.not_eq_true', List.contains_eq_mem, decide_eq_false_iff_not]
    at made
  exact made.2

/-- What a preset writes is no selector. -/
theorem selector_notMem_writtenBy {v : Version} {preset other : Preset}
    (member : preset ∈ v.schema.presets) (member' : other ∈ v.schema.presets) :
    preset.selector ∉ Schema.writtenBy other := fun written =>
  selector_notMem_writes member (List.mem_flatMap.mpr ⟨other, member', written⟩)

/-! ## Changes of some fields -/

/-- **A change of some fields only**: the others stay as they are, and the record stays what it was
otherwise. -/
structure ChangesOnly (names : List String) (r next : StyleRecord) : Prop where
  wellFormed : next.WellFormed
  native : r.Native → next.Native
  sameTags : SameTags next r
  get?_eq : ∀ name, name ∉ names → next.get? name = r.get? name

variable {r next last : StyleRecord} {names names' : List String}

namespace ChangesOnly

theorem refl (wellFormed : r.WellFormed) : ChangesOnly names r r :=
  ⟨wellFormed, id, .refl r, fun _ _ => rfl⟩

theorem append (first : ChangesOnly names r next) (rest : ChangesOnly names' next last) :
    ChangesOnly (names ++ names') r last where
  wellFormed := rest.wellFormed
  native native := rest.native (first.native native)
  sameTags := rest.sameTags.trans first.sameTags
  get?_eq name unnamed := by
    rw [List.mem_append, not_or] at unnamed
    rw [rest.get?_eq name unnamed.2, first.get?_eq name unnamed.1]

theorem mono (changes : ChangesOnly names r next) (within : names ⊆ names') :
    ChangesOnly names' r next where
  __ := changes
  get?_eq name unnamed := changes.get?_eq name fun named => unnamed (within named)

/-- Fields that hold what they held have not changed. -/
theorem restrict (changes : ChangesOnly names r next)
    (stays : ∀ name ∈ names, name ∉ names' → next.get? name = r.get? name) :
    ChangesOnly names' r next where
  __ := changes
  get?_eq name unnamed := by
    by_cases named : name ∈ names
    · exact stays name named unnamed
    · exact changes.get?_eq name named

/-- A change that changes nothing. -/
theorem eq_self (changes : ChangesOnly names r next) (wellFormed : r.WellFormed)
    (stays : ∀ name ∈ names, next.get? name = r.get? name) : next = r := by
  refine ext_get? (wellFormed_iff.mp changes.wellFormed) (wellFormed_iff.mp wellFormed)
    changes.sameTags fun field _ => ?_
  by_cases named : field.name ∈ names
  · exact stays _ named
  · exact changes.get?_eq _ named

end ChangesOnly

end StyleRecord

/-- **Assignments of values that their fields store.** -/
def Schema.Fits (schema : Schema) (writes : List (String × Value)) : Prop :=
  ∀ write ∈ writes, ∃ field, schema.field? write.1 = some field ∧ field.kind.Stores write.2

namespace StyleRecord

variable {r : StyleRecord} {writes : List (String × Value)}

theorem Native.putAll (native : r.Native) (fits : r.schema.Fits writes) :
    (r.putAll writes).Native := by
  refine ⟨native.stores.putAll fun write written field found => ?_, fun inherits => ?_⟩
  · obtain ⟨field', found', stores⟩ := fits write written
    rw [found, Option.some.injEq] at found'
    exact found' ▸ stores
  · rw [schema_putAll]
    exact native.inherits ((sameTags_putAll r writes).2.2 ▸ inherits)

theorem WellFormed.putAll (wellFormed : r.WellFormed) (fits : r.schema.Fits writes) :
    (r.putAll writes).WellFormed := by
  refine wellFormed_iff.mpr ((wellFormed_iff.mp wellFormed).putAll
    fun write written field found => ?_)
  obtain ⟨field', found', stores⟩ := fits write written
  rw [found, Option.some.injEq] at found'
  exact found' ▸ FieldKind.admits_of_stores stores

/-- Assignments change the fields that they name. -/
theorem ChangesOnly.putAll (wellFormed : r.WellFormed) (fits : r.schema.Fits writes) :
    ChangesOnly (writes.map Prod.fst) r (r.putAll writes) :=
  ⟨wellFormed.putAll fits, fun native => native.putAll fits, sameTags_putAll r writes,
    fun _ => get?_putAll_of_notMem⟩

end StyleRecord

/-! ## Steps that stay within a preset -/

namespace Preset

open StyleRecord

/-- **A step for each preset that stays within the preset**: it changes nothing but the fields that
the preset is about, and these alone tell what to. -/
structure Local (step : StyleRecord → Preset → Except StyleError StyleRecord) : Prop where
  isOk : ∀ {preset r}, r.WellFormed → preset ∈ r.schema.presets →
    ∃ next, step r preset = .ok next ∧ ChangesOnly preset.fields r next
  congr : ∀ {preset a b a' b'}, a.WellFormed → b.WellFormed → b.version = a.version →
    preset ∈ a.schema.presets → (∀ name ∈ preset.fields, b.get? name = a.get? name) →
      step a preset = .ok a' → step b preset = .ok b' →
        ∀ name ∈ preset.fields, b'.get? name = a'.get? name

namespace Local

variable {step : StyleRecord → Preset → Except StyleError StyleRecord} {preset : Preset}
  {presets : List Preset} {r a b next last : StyleRecord}

private theorem changesOnly (stays : Local step) (wellFormed : r.WellFormed)
    (member : preset ∈ r.schema.presets) (stepped : step r preset = .ok next) :
    ChangesOnly preset.fields r next := by
  obtain ⟨next', stepped', changes⟩ := stays.isOk wellFormed member
  obtain rfl := Except.ok.inj (stepped.symm.trans stepped')
  exact changes

/-- Whether a step changes anything, the fields of its preset tell. -/
theorem self_congr (stays : Local step) (wellFormed : a.WellFormed) (wellFormed' : b.WellFormed)
    (version : b.version = a.version) (member : preset ∈ a.schema.presets)
    (agree : ∀ name ∈ preset.fields, b.get? name = a.get? name) (self : step a preset = .ok a) :
    step b preset = .ok b := by
  have member' : preset ∈ b.schema.presets := by rwa [schema, version]
  obtain ⟨next, stepped, changes⟩ := stays.isOk wellFormed' member'
  rw [stepped]
  refine congrArg Except.ok (changes.eq_self wellFormed' fun name about => ?_)
  exact (stays.congr wellFormed wellFormed' version member agree self stepped name about).trans
    (agree name about).symm

/-- **All steps together do to each preset what its own step does.** By induction on the presets:
each step changes only what its preset is about, so it disturbs no other one. -/
theorem foldlM (stays : Local step) (wellFormed : r.WellFormed)
    (listed : ∀ preset ∈ presets, preset ∈ r.schema.presets)
    (apart : presets.Pairwise fun preset other => ∀ name ∈ preset.fields, name ∉ other.fields) :
    ∃ last, presets.foldlM step r = .ok last ∧ ChangesOnly (presets.flatMap fields) r last ∧
      ∀ preset ∈ presets, ∃ next, step r preset = .ok next ∧
        ∀ name ∈ preset.fields, last.get? name = next.get? name := by
  induction presets generalizing r with
  | nil => exact ⟨r, rfl, .refl wellFormed, List.forall_mem_nil _⟩
  | cons preset presets ih =>
    rw [List.forall_mem_cons] at listed
    rw [List.pairwise_cons] at apart
    obtain ⟨next, first, changes⟩ := stays.isOk wellFormed listed.1
    have listed' : ∀ other ∈ presets, other ∈ next.schema.presets := by
      rw [changes.sameTags.schema]
      exact listed.2
    obtain ⟨last, rest, changes', own⟩ := ih changes.wellFormed listed' apart.2
    refine ⟨last, ?_, changes.append changes', List.forall_mem_cons.mpr ⟨?_, ?_⟩⟩
    · rw [List.foldlM_cons, first, Outcome.ok_bind, rest]
    · refine ⟨next, first, fun name about => changes'.get?_eq name fun other => ?_⟩
      obtain ⟨other, member, about'⟩ := List.mem_flatMap.mp other
      exact apart.1 other member name about about'
    · intro other member
      obtain ⟨other', stepped', holds'⟩ := own other member
      obtain ⟨other'', stepped, -⟩ := stays.isOk wellFormed (listed.2 other member)
      refine ⟨other'', stepped, fun name about => (holds' name about).trans ?_⟩
      refine stays.congr wellFormed changes.wellFormed changes.sameTags.1 (listed.2 other member)
        (fun name about => ?_) stepped stepped' name about
      exact changes.get?_eq name fun about' => apart.1 other member name about' about

/-- **What a step for each preset settles, all of them together settle**: where another step has
nothing to do after the preset's own one, it has nothing to do after all of them. -/
theorem foldlM_self {settle : StyleRecord → Preset → Except StyleError StyleRecord}
    (stays : Local step) (stays' : Local settle) (wellFormed : r.WellFormed)
    (folded : r.schema.presets.foldlM step r = .ok last) (member : preset ∈ r.schema.presets)
    (settled : ∀ {next}, step r preset = .ok next → settle next preset = .ok next) :
    settle last preset = .ok last := by
  obtain ⟨last', folded', changes, own⟩ :=
    stays.foldlM wellFormed (fun _ => id) r.version.presets_apart.1
  obtain rfl := Except.ok.inj (folded.symm.trans folded')
  obtain ⟨next, stepped, holds⟩ := own preset member
  have changes' := stays.changesOnly wellFormed member stepped
  exact stays'.self_congr changes'.wellFormed changes.wellFormed
    (changes.sameTags.1.trans changes'.sameTags.1.symm) (by rwa [changes'.sameTags.schema]) holds
    (settled stepped)

end Local

end Preset

end FormatStyle
