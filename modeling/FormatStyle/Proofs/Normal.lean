import FormatStyle.Proofs.Expansion

/-! # The normal form of presets

Written out, a record stays as it is when it is written out again (`StyleRecord.expand_written`).
Collapsed, it has nothing left to be named (`StyleRecord.collapse_named`), and what was written out
stays written out (`StyleRecord.collapse_written`). So a record that is expanded and then collapsed
is in normal form.
-/

namespace FormatStyle

/-! ## One preset -/

namespace Preset

open StyleRecord

variable {preset : Preset} {variant : PresetVariant} {r next : StyleRecord}

/-- The variant that a record selects is written out already. -/
def Written (preset : Preset) (r : StyleRecord) : Prop := preset.expandIn r = .ok r

/-- No variant is left to be named. -/
def Named (preset : Preset) (r : StyleRecord) : Prop := (preset.collapseIn r).outcome = .ok r

/-- **Writing out a preset** leaves it written out. -/
theorem expandIn_written (wellFormed : r.WellFormed) (member : preset ∈ r.schema.presets)
    (expand : preset.expandIn r = .ok next) : preset.Written next := by
  obtain ⟨writes, names, fits, apply⟩ := expandIn_eq member r
  obtain rfl := Except.ok.inj (expand.symm.trans (apply r rfl wellFormed rfl))
  have changes := ChangesOnly.putAll wellFormed fits
  rw [Written, apply _ changes.sameTags.1 changes.wellFormed, putAll_putAll wellFormed fits]
  refine get?_putAll_of_notMem fun assigned => ?_
  rw [names] at assigned
  exact selector_notMem_writtenBy member member (overwrites_subset assigned)

/-- A record that selects a variant has nothing left to be named. -/
private theorem named_selecting (wellFormed : r.WellFormed) (member : preset ∈ r.schema.presets)
    (listed : variant ∈ preset.variants) : preset.Named (preset.selecting variant r) := by
  apply collapseIn_of_not_custom
  rw [(select_isOk wellFormed member listed).2.2]
  intro custom
  rw [Option.some.injEq, Value.choice.injEq] at custom
  exact r.version.custom_is_no_variant member listed custom

/-- **What naming a preset comes to**: nothing, or one variant that describes the record. -/
theorem collapseIn_cases (wellFormed : r.WellFormed) (member : preset ∈ r.schema.presets)
    (collapse : (preset.collapseIn r).outcome = .ok next) :
    next = r ∨ ∃ variant ∈ preset.fitting r, next = preset.selecting variant r := by
  by_cases custom : r.get? preset.selector = some (.choice preset.custom)
  · rcases collapseIn_of_custom wellFormed member custom with ⟨variant, fits, named⟩ | ⟨-, kept⟩
    · exact .inr ⟨variant, by simp [fits], Except.ok.inj (collapse.symm.trans named)⟩
    · exact .inl (Except.ok.inj (collapse.symm.trans kept))
  · exact .inl (Except.ok.inj (collapse.symm.trans (collapseIn_of_not_custom custom)))

/-- **Naming a preset** leaves nothing to be named. -/
theorem collapseIn_named (wellFormed : r.WellFormed) (member : preset ∈ r.schema.presets)
    (collapse : (preset.collapseIn r).outcome = .ok next) : preset.Named next := by
  rcases collapseIn_cases wellFormed member collapse with rfl | ⟨variant, fits, rfl⟩
  · exact collapse
  · exact named_selecting wellFormed member (mem_fitting_iff.mp fits).1

/-- A variant that describes a record is written out where it is selected. -/
private theorem written_selecting (wellFormed : r.WellFormed) (member : preset ∈ r.schema.presets)
    (fits : variant ∈ preset.fitting r) : preset.Written (preset.selecting variant r) := by
  obtain ⟨listed, describes⟩ := mem_fitting_iff.mp fits
  obtain ⟨-, selects, selected⟩ := select_isOk wellFormed member listed
  rw [Written, expandIn, selected?_of_choice member listed selected]
  exact apply_self_congr wellFormed selects.wellFormed selects.sameTags.1 member listed
    (fun name written => get?_selecting_of_written member written)
    ((describes_iff wellFormed member listed).mp describes)

/-- Naming a preset that is written out leaves it written out. -/
private theorem collapseIn_written (wellFormed : r.WellFormed) (member : preset ∈ r.schema.presets)
    (written : preset.Written r) (collapse : (preset.collapseIn r).outcome = .ok next) :
    preset.Written next := by
  rcases collapseIn_cases wellFormed member collapse with rfl | ⟨variant, fits, rfl⟩
  · exact written
  · exact written_selecting wellFormed member fits

end Preset

/-! ## All presets -/

namespace StyleRecord

variable {r expanded collapsed : StyleRecord}

/-- **The same meaning**: two records that are one once their presets are written out. -/
def SameExpansion (a b : StyleRecord) : Prop :=
  ∃ expanded, a.expand = .ok expanded ∧ b.expand = .ok expanded

theorem SameExpansion.symm {a b : StyleRecord} (same : SameExpansion a b) : SameExpansion b a := by
  obtain ⟨expanded, expand, expand'⟩ := same
  exact ⟨expanded, expand', expand⟩

theorem SameExpansion.trans {a b c : StyleRecord} (same : SameExpansion a b)
    (after : SameExpansion b c) : SameExpansion a c := by
  obtain ⟨expanded, expand, expand'⟩ := same
  obtain ⟨_, again, last⟩ := after
  obtain rfl := Except.ok.inj (expand'.symm.trans again)
  exact ⟨expanded, expand, last⟩

/-- A record in which all presets are written out expands to itself. -/
theorem expand_self_of_written (written : ∀ preset ∈ r.schema.presets, preset.Written r) :
    r.expand = .ok r := Outcome.foldlM_self written

/-- A record in which nothing is left to be named collapses to itself. -/
theorem collapse_self_of_named (named : ∀ preset ∈ r.schema.presets, preset.Named r) :
    r.collapse.outcome = .ok r :=
  (Traced.outcome_foldlM _ _ _).trans (Outcome.foldlM_self named)

/-- **Written out, a record is written out for good.** -/
theorem expand_written (wellFormed : r.WellFormed) (expand : r.expand = .ok expanded) :
    ∀ preset ∈ r.schema.presets, preset.Written expanded := fun _ member =>
  Preset.local_expandIn.foldlM_self Preset.local_expandIn wellFormed expand member
    (Preset.expandIn_written wellFormed member)

/-- **Collapsed, a record has nothing left to be named.** -/
theorem collapse_named (wellFormed : r.WellFormed) (collapse : r.collapse.outcome = .ok collapsed) :
    ∀ preset ∈ r.schema.presets, preset.Named collapsed := fun _ member =>
  Preset.local_collapseIn.foldlM_self Preset.local_collapseIn wellFormed
    ((Traced.outcome_foldlM _ _ _).symm.trans collapse) member
    (Preset.collapseIn_named wellFormed member)

/-- **Collapse leaves written out what was written out.** -/
theorem collapse_written (wellFormed : r.WellFormed) (collapse : r.collapse.outcome = .ok collapsed)
    (written : ∀ preset ∈ r.schema.presets, preset.Written r) :
    ∀ preset ∈ r.schema.presets, preset.Written collapsed := fun preset member =>
  Preset.local_collapseIn.foldlM_self Preset.local_expandIn wellFormed
    ((Traced.outcome_foldlM _ _ _).symm.trans collapse) member
    (Preset.collapseIn_written wellFormed member (written preset member))

/-- **Expanded and then collapsed, a record is in normal form**: nothing is left to write out, and
nothing to name. -/
theorem exists_normal (wellFormed : r.WellFormed) :
    ∃ expanded normal, r.expand = .ok expanded ∧ expanded.collapse.outcome = .ok normal ∧
      ChangesOnly r.overwritten r expanded ∧ ChangesOnly expanded.selectors expanded normal ∧
      normal.expand = .ok normal ∧ normal.collapse.outcome = .ok normal := by
  obtain ⟨expanded, expand, changes, -⟩ := exists_expand wellFormed
  obtain ⟨normal, collapse, changes', -⟩ := exists_collapse changes.wellFormed
  have written := collapse_written changes.wellFormed collapse
    (by rw [changes.sameTags.schema]; exact expand_written wellFormed expand)
  have named := collapse_named changes.wellFormed collapse
  rw [← changes'.sameTags.schema] at written named
  exact ⟨expanded, normal, expand, collapse, changes, changes', expand_self_of_written written,
    collapse_self_of_named named⟩

/-- **What expansion makes of a record**, which may hold anything where selected variants write. -/
structure Expansion (r expanded : StyleRecord) : Prop where
  wellFormed : expanded.WellFormed
  /-- The version, the language and the inheritance stay. -/
  sameTags : SameTags expanded r
  /-- Every preset stays selected as it was. -/
  selectors : ∀ preset ∈ r.schema.presets,
    expanded.get? preset.selector = r.get? preset.selector
  /-- Only the targets and the side fields of selected variants change. -/
  frame : ∀ name, name ∉ r.overwritten → expanded.get? name = r.get? name
  /-- What was there is forgotten: all records that agree elsewhere expand to the same. -/
  forgets : ∀ other : StyleRecord, other.WellFormed → SameTags other r →
    (∀ name, name ∉ r.overwritten → other.get? name = r.get? name) →
      other.expand = .ok expanded
  idempotent : expanded.expand = .ok expanded

/-- **Every well-formed record expands**, once for all, to a record that its own choices and the
fields beside them determine. -/
theorem expand_expansion (wellFormed : r.WellFormed) :
    ∃ expanded, r.expand = .ok expanded ∧ Expansion r expanded := by
  obtain ⟨expanded, expand, changes, -⟩ := exists_expand wellFormed
  have written := expand_written wellFormed expand
  exact ⟨expanded, expand,
    { wellFormed := changes.wellFormed
      sameTags := changes.sameTags
      selectors := fun preset member => changes.get?_eq _ (selector_notMem_overwritten member)
      frame := changes.get?_eq
      forgets := fun other wellFormed' same agree =>
        (expand_congr wellFormed wellFormed' same agree).trans expand
      idempotent := expand_self_of_written (by rwa [changes.sameTags.schema]) }⟩

/-- A record without any content in its braces selects the Allman braces. -/
theorem expand_expansion_allman :
    ∃ expanded, ((zeroed .v16 .cpp).put "BreakBeforeBraces" (.choice "Allman")).expand =
        .ok expanded ∧
      Expansion ((zeroed .v16 .cpp).put "BreakBeforeBraces" (.choice "Allman")) expanded := by
  refine expand_expansion ?_
  change valuesFit _ _ = true
  decide +kernel

end StyleRecord

end FormatStyle
