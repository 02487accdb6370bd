import FormatStyle.Proofs.Presets

/-! # Expansion and collapse

Expansion always succeeds, changes only what selected variants overwrite
(`StyleRecord.exists_expand`), and forgets what a record holds there (`StyleRecord.expand_congr`).
Collapse always succeeds and changes nothing but selectors (`StyleRecord.exists_collapse`).
-/

namespace FormatStyle

namespace StyleRecord

variable {r a b expanded collapsed : StyleRecord} {name : String}

/-- **The fields that selected variants overwrite.** -/
def overwritten (r : StyleRecord) : List String := r.schema.presets.flatMap (·.overwrites r)

/-- Records that select the same overwrite the same. -/
theorem overwritten_congr (version : b.version = a.version)
    (agree : ∀ preset ∈ a.schema.presets, b.get? preset.selector = a.get? preset.selector) :
    b.overwritten = a.overwritten := by
  have schema : b.schema = a.schema := by rw [StyleRecord.schema, version]; rfl
  rw [overwritten, overwritten, schema]
  exact List.flatMap_congr fun preset member => Preset.overwrites_congr (agree preset member)

/-- Only what presets write is overwritten. -/
theorem overwritten_subset : r.overwritten ⊆ r.schema.presetWrites := by
  intro name written
  obtain ⟨preset, member, written⟩ := List.mem_flatMap.mp written
  exact List.mem_flatMap.mpr ⟨preset, member, Preset.overwrites_subset written⟩

/-- No selector is overwritten. -/
theorem selector_notMem_overwritten {preset : Preset} (member : preset ∈ r.schema.presets) :
    preset.selector ∉ r.overwritten := fun written =>
  selector_notMem_writes member (overwritten_subset written)

/-- **Expansion succeeds**, changes only what selected variants overwrite, and does to the fields of
each preset what writing out that preset alone does. -/
theorem exists_expand (wellFormed : r.WellFormed) :
    ∃ expanded, r.expand = .ok expanded ∧ ChangesOnly r.overwritten r expanded ∧
      ∀ preset ∈ r.schema.presets, ∃ next, preset.expandIn r = .ok next ∧
        ∀ name ∈ preset.fields, expanded.get? name = next.get? name := by
  obtain ⟨expanded, expand, changes, own⟩ :=
    Preset.local_expandIn.foldlM wellFormed (fun _ => id) r.version.presets_apart.1
  refine ⟨expanded, expand, changes.restrict fun name about kept => ?_, own⟩
  obtain ⟨preset, member, about⟩ := List.mem_flatMap.mp about
  obtain ⟨next, step, holds⟩ := own preset member
  obtain ⟨next', step', changes'⟩ := Preset.expandIn_isOk wellFormed member
  obtain rfl := Except.ok.inj (step.symm.trans step')
  rw [holds name about]
  exact changes'.get?_eq name fun written => kept (List.mem_flatMap.mpr ⟨preset, member, written⟩)

/-- **Expansion succeeds** on what the program holds, and changes only fields that presets
write. -/
theorem expand_isOk (native : r.Native) :
    ∃ expanded, r.expand = .ok expanded ∧ expanded.Native ∧ SameTags expanded r ∧
      ∀ name, name ∉ r.schema.presetWrites → expanded.get? name = r.get? name := by
  obtain ⟨expanded, expand, changes, -⟩ := exists_expand native.wellFormed
  exact ⟨expanded, expand, changes.native native, changes.sameTags,
    (changes.mono overwritten_subset).get?_eq⟩

/-- **Expansion forgets what selected variants overwrite**: two records that agree on all other
fields expand to the same. -/
theorem expand_congr (wellFormed : a.WellFormed) (wellFormed' : b.WellFormed) (same : SameTags b a)
    (agree : ∀ name, name ∉ a.overwritten → b.get? name = a.get? name) : b.expand = a.expand := by
  obtain ⟨expanded, expand, changes, own⟩ := exists_expand wellFormed
  obtain ⟨expanded', expand', changes', own'⟩ := exists_expand wellFormed'
  have selectors : ∀ preset ∈ a.schema.presets, b.get? preset.selector = a.get? preset.selector :=
    fun preset member => agree _ (selector_notMem_overwritten member)
  rw [expand, expand']
  refine congrArg Except.ok (ext_get? (wellFormed_iff.mp changes'.wellFormed)
    (wellFormed_iff.mp changes.wellFormed)
    (changes'.sameTags.trans (same.trans changes.sameTags.symm)) fun field _ => ?_)
  by_cases written : field.name ∈ a.overwritten
  · obtain ⟨preset, member, written⟩ := List.mem_flatMap.mp written
    obtain ⟨writes, names, -, apply⟩ := Preset.expandIn_eq member a
    have about : field.name ∈ preset.fields :=
      List.mem_cons_of_mem _ (Preset.overwrites_subset written)
    obtain ⟨next, step, holds⟩ := own preset member
    obtain ⟨next', step', holds'⟩ := own' preset (by rwa [same.schema])
    obtain rfl := Except.ok.inj (step.symm.trans (apply a rfl wellFormed rfl))
    obtain rfl := Except.ok.inj
      (step'.symm.trans (apply b same.1 wellFormed' (selectors preset member)))
    rw [holds _ about, holds' _ about]
    refine get?_putAll_congr (wellFormed_iff.mp wellFormed') (wellFormed_iff.mp wellFormed)
      same.1.symm fun unassigned => ?_
    rw [names] at unassigned
    exact absurd written unassigned
  · rw [changes.get?_eq _ written, changes'.get?_eq, agree _ written]
    rwa [overwritten_congr same.1 selectors]

/-- **A selected variant is written out**: the target holds its content. -/
theorem get?_expand_of_selected {preset : Preset} {variant : PresetVariant}
    (wellFormed : r.WellFormed) (expand : r.expand = .ok expanded)
    (member : preset ∈ r.schema.presets) (selected : preset.selected? r = some variant) :
    expanded.get? preset.target = preset.content? r.version variant := by
  obtain ⟨expanded', expand', -, own⟩ := exists_expand wellFormed
  obtain rfl := Except.ok.inj (expand.symm.trans expand')
  obtain ⟨next, step, holds⟩ := own preset member
  obtain ⟨applied, apply, content⟩ :=
    Preset.apply_eq member (Preset.mem_of_selected? selected) wellFormed rfl
  rw [Preset.expandIn, selected] at step
  obtain rfl := Except.ok.inj (step.symm.trans apply)
  rw [holds _ (List.mem_cons_of_mem _ List.mem_cons_self), content]

/-- **A preset that is left to the user stays** as it is. -/
theorem get?_expand_of_unselected {preset : Preset} (wellFormed : r.WellFormed)
    (expand : r.expand = .ok expanded) (member : preset ∈ r.schema.presets)
    (selected : preset.selected? r = none) (about : name ∈ preset.fields) :
    expanded.get? name = r.get? name := by
  obtain ⟨expanded', expand', -, own⟩ := exists_expand wellFormed
  obtain rfl := Except.ok.inj (expand.symm.trans expand')
  obtain ⟨next, step, holds⟩ := own preset member
  rw [Preset.expandIn, selected] at step
  obtain rfl := Except.ok.inj step
  exact holds name about

/-- The fields that select presets. -/
def selectors (r : StyleRecord) : List String := r.schema.presets.map (·.selector)

/-- **Collapse succeeds**, changes only selectors, and does to the fields of each preset what naming
that preset alone does. -/
theorem exists_collapse (wellFormed : r.WellFormed) :
    ∃ collapsed, r.collapse.outcome = .ok collapsed ∧ ChangesOnly r.selectors r collapsed ∧
      ∀ preset ∈ r.schema.presets, ∃ next, (preset.collapseIn r).outcome = .ok next ∧
        ∀ name ∈ preset.fields, collapsed.get? name = next.get? name := by
  obtain ⟨collapsed, collapse, changes, own⟩ :=
    Preset.local_collapseIn.foldlM wellFormed (fun _ => id) r.version.presets_apart.1
  refine ⟨collapsed, (Traced.outcome_foldlM _ _ _).trans collapse,
    changes.restrict fun name about kept => ?_, own⟩
  obtain ⟨preset, member, about⟩ := List.mem_flatMap.mp about
  obtain ⟨next, step, holds⟩ := own preset member
  obtain ⟨next', step', changes'⟩ := Preset.collapseIn_isOk wellFormed member
  obtain rfl := Except.ok.inj (step.symm.trans step')
  rw [holds name about]
  exact changes'.get?_eq name fun hit =>
    kept (List.mem_map.mpr ⟨preset, member, (List.mem_singleton.mp hit).symm⟩)

/-- **Collapse succeeds** on what the program holds, and changes only selectors. -/
theorem collapse_isOk (native : r.Native) :
    ∃ collapsed, r.collapse.outcome = .ok collapsed ∧ collapsed.Native ∧ SameTags collapsed r ∧
      ∀ name, name ∉ r.selectors → collapsed.get? name = r.get? name := by
  obtain ⟨collapsed, collapse, changes, -⟩ := exists_collapse native.wellFormed
  exact ⟨collapsed, collapse, changes.native native, changes.sameTags, changes.get?_eq⟩

/-- **A record that every variant would change keeps its custom presets**: the target of each
custom one holds something else than any variant writes. -/
theorem collapse_self (wellFormed : r.WellFormed)
    (apart : ∀ preset ∈ r.schema.presets,
      r.get? preset.selector = some (.choice preset.custom) →
        ∀ variant ∈ preset.variants, preset.content? r.version variant ≠ r.get? preset.target) :
    r.collapse.outcome = .ok r := by
  refine (Traced.outcome_foldlM _ _ _).trans (Outcome.foldlM_self fun preset member => ?_)
  by_cases custom : r.get? preset.selector = some (.choice preset.custom)
  · rcases Preset.collapseIn_of_custom wellFormed member custom with ⟨variant, fits, -⟩ | ⟨-, kept⟩
    · obtain ⟨listed, describes⟩ :=
        Preset.mem_fitting_iff.mp (fits ▸ List.mem_singleton_self variant)
      exact absurd (Preset.content?_of_describes wellFormed member listed describes)
        (apart preset member custom variant listed)
    · exact kept
  · exact Preset.collapseIn_of_not_custom custom

end StyleRecord

end FormatStyle
