import FormatStyle.Proofs.Normal

/-! # What collapse names

A selector that leaves its target to the user gets the name of a variant exactly where that variant
is the only one that would change nothing else (`Preset.Suits`, `StyleRecord.exists_collapsed`). The
variants of a preset have different contents, all but one pair (`Version.contents_apart`), so naming
what a variant wrote gives the variant back (`StyleRecord.exists_renamed`).
-/

namespace FormatStyle

/-! ## Contents of variants -/

/-- **The variants whose content another variant has, too**: neither of them says anything about
single places. -/
def Preset.Ambiguous (preset : Preset) (variant : PresetVariant) : Prop :=
  preset.selector = "SpaceBeforeParens" ∧ variant.variant ∈ ["Never", "Always"]

instance (preset : Preset) (variant : PresetVariant) : Decidable (preset.Ambiguous variant) :=
  inferInstanceAs (Decidable (_ ∧ _))

namespace Version

variable {v : Version} {preset : Preset} {variant other : PresetVariant}

/-- The variants of a preset with their contents. -/
def contents (v : Version) (preset : Preset) : List (PresetVariant × Option Value) :=
  preset.variants.map fun variant => (variant, preset.content? v variant)

/-- **Different variants have different contents**, unless both are ambiguous. -/
theorem contents_apart (member : preset ∈ v.schema.presets) (listed : variant ∈ preset.variants)
    (listed' : other ∈ preset.variants)
    (same : preset.content? v variant = preset.content? v other) :
    variant.variant = other.variant ∨ preset.Ambiguous variant ∧ preset.Ambiguous other := by
  have checked : ∀ v ∈ Version.all, ∀ preset ∈ v.schema.presets,
      (v.contents preset).Pairwise fun a b =>
        a.2 ≠ b.2 ∨ preset.Ambiguous a.1 ∧ preset.Ambiguous b.1 := by
    decide +kernel
  have apart : preset.variants.Pairwise fun a b =>
      preset.content? v a ≠ preset.content? v b ∨ preset.Ambiguous a ∧ preset.Ambiguous b :=
    List.pairwise_map.mp (checked v v.mem_all preset member)
  refine List.Pairwise.forall_of_forall_of_flip
    (R := fun a b => preset.content? v a = preset.content? v b →
      a.variant = b.variant ∨ preset.Ambiguous a ∧ preset.Ambiguous b)
    (fun _ _ _ => .inl rfl) (apart.imp fun distinct same => ?_)
    (apart.imp fun distinct same => ?_) listed listed' same
  · exact .inr (distinct.resolve_left (not_not_intro same))
  · exact .inr (distinct.resolve_left (not_not_intro same.symm)).symm

/-- An ambiguous variant says nothing, and neither does another one of the preset. -/
private theorem exists_ambiguous (member : preset ∈ v.schema.presets) (listed : variant ∈ preset.variants)
    (ambiguous : preset.Ambiguous variant) :
    ∃ other ∈ preset.variants, other ≠ variant ∧ other.flags = variant.flags ∧
      other.side = variant.side := by
  have checked : ∀ v ∈ Version.all, ∀ preset ∈ v.schema.presets, ∀ variant ∈ preset.variants,
      preset.Ambiguous variant → variant.flags.isEmpty = true ∧ variant.side.isEmpty = true ∧
        ∃ other ∈ preset.variants, preset.Ambiguous other ∧ other.variant ≠ variant.variant := by
    decide +kernel
  obtain ⟨flags, side, other, listed', ambiguous', apart⟩ :=
    checked v v.mem_all preset member variant listed ambiguous
  obtain ⟨flags', side', -⟩ := checked v v.mem_all preset member other listed' ambiguous'
  rw [List.isEmpty_iff] at flags side flags' side'
  exact ⟨other, listed', fun same => apart (same ▸ rfl), flags'.trans flags.symm,
    side'.trans side.symm⟩

/-- The target can be left to the user in every preset. -/
private theorem admits_custom (member : preset ∈ v.schema.presets) :
    ∃ field, v.schema.field? preset.selector = some field ∧
      field.kind.admits (.choice preset.custom) = true := by
  have checked : ∀ v ∈ Version.all, ∀ preset ∈ v.schema.presets,
      (v.schema.field? preset.selector).any (·.kind.admits (.choice preset.custom)) = true := by
    decide +kernel
  exact (Option.any_eq_true _ _).mp (checked v v.mem_all preset member)

end Version

/-! ## Naming one preset -/

namespace Preset

open StyleRecord

variable {preset : Preset} {variant : PresetVariant} {r next : StyleRecord}

/-- **A variant suits a record** if selecting it and expanding changes no field that the preset
writes. -/
def Suits (preset : Preset) (variant : PresetVariant) (r : StyleRecord) : Prop :=
  ∃ selecting expanded, r.set preset.selector (.choice variant.variant) = .ok selecting ∧
    selecting.expand = .ok expanded ∧
    ∀ name ∈ Schema.writtenBy preset, expanded.get? name = r.get? name

/-- **The only variant that suits a record.** -/
def SuitsOnly (preset : Preset) (variant : PresetVariant) (r : StyleRecord) : Prop :=
  preset.Suits variant r ∧ ∀ other ∈ preset.variants, preset.Suits other r → other = variant

/-- **The variants that suit a record are those that describe it**: the other presets do not
interfere. -/
theorem suits_iff (wellFormed : r.WellFormed) (member : preset ∈ r.schema.presets)
    (listed : variant ∈ preset.variants) :
    preset.Suits variant r ↔ variant ∈ preset.fitting r := by
  obtain ⟨select, selects, selected⟩ := select_isOk wellFormed member listed
  have member' : preset ∈ (preset.selecting variant r).schema.presets := by
    rwa [selects.sameTags.schema]
  obtain ⟨expanded, expand, -, own⟩ := exists_expand selects.wellFormed
  obtain ⟨next, step, holds⟩ := own preset member'
  obtain ⟨next', step', changes⟩ := expandIn_isOk selects.wellFormed member'
  obtain rfl := Except.ok.inj (step.symm.trans step')
  rw [expandIn, selected?_of_choice member listed selected] at step
  have unselected : ∀ {name}, name ∈ Schema.writtenBy preset →
      (preset.selecting variant r).get? name = r.get? name :=
    fun written => get?_selecting_of_written member written
  -- On the fields that the preset writes, the expanded record holds what the variant wrote.
  have suits : preset.Suits variant r ↔
      ∀ name ∈ Schema.writtenBy preset,
        next.get? name = (preset.selecting variant r).get? name := by
    constructor
    · rintro ⟨_, _, select', expand', kept⟩ name written
      obtain rfl := Except.ok.inj (select.symm.trans select')
      obtain rfl := Except.ok.inj (expand.symm.trans expand')
      rw [← holds name (List.mem_cons_of_mem _ written), kept name written, unselected written]
    · intro kept
      refine ⟨_, expanded, select, expand, fun name written => ?_⟩
      rw [holds name (List.mem_cons_of_mem _ written), kept name written, unselected written]
  have describes : preset.describes r variant = .ok true ↔ next = preset.selecting variant r := by
    obtain ⟨applied, apply, describes⟩ := exists_describes wellFormed member listed
    obtain rfl := Except.ok.inj (step.symm.trans apply)
    rw [describes, Except.ok.injEq, decide_eq_true_iff]
  rw [suits, mem_fitting_iff, describes]
  constructor
  · intro kept
    refine ⟨listed, changes.eq_self selects.wellFormed fun name written => ?_⟩
    exact kept name (overwrites_subset written)
  · rintro ⟨-, rfl⟩ name -
    rfl

/-- The only variant that suits a record is the only one that describes it. -/
theorem suitsOnly_iff (wellFormed : r.WellFormed) (member : preset ∈ r.schema.presets)
    (listed : variant ∈ preset.variants) :
    preset.SuitsOnly variant r ↔ preset.fitting r = [variant] := by
  have only : preset.SuitsOnly variant r ↔
      variant ∈ preset.fitting r ∧ ∀ other ∈ preset.fitting r, other = variant := by
    rw [SuitsOnly, suits_iff wellFormed member listed]
    refine and_congr_right fun _ => forall_congr' fun other => ⟨fun all fits => ?_, fun all => ?_⟩
    · have listed' := (mem_fitting_iff.mp fits).1
      exact all listed' ((suits_iff wellFormed member listed').mpr fits)
    · exact fun listed' suits => all ((suits_iff wellFormed member listed').mp suits)
  have nodup : (preset.fitting r).Nodup := (nodup_fitting member).of_map
  rw [only]
  constructor
  · rintro ⟨fits, unique⟩
    refine List.perm_singleton.mp ((List.perm_ext_iff_of_nodup nodup (List.nodup_singleton _)).mpr
      fun other => ?_)
    rw [List.mem_singleton]
    exact ⟨unique other, fun same => same ▸ fits⟩
  · intro one
    simp [one]

/-- **A custom preset is named after the only variant that suits the record**, and stays custom if
there is none or more than one. -/
theorem collapseIn_suitsOnly (wellFormed : r.WellFormed) (member : preset ∈ r.schema.presets)
    (custom : r.get? preset.selector = some (.choice preset.custom))
    (collapse : (preset.collapseIn r).outcome = .ok next) :
    (∀ variant ∈ preset.variants, (next.get? preset.selector = some (.choice variant.variant) ↔
      preset.SuitsOnly variant r)) ∧
    ((∀ variant ∈ preset.variants, ¬ preset.SuitsOnly variant r) →
      next.get? preset.selector = some (.choice preset.custom)) := by
  rcases collapseIn_of_custom wellFormed member custom with
    ⟨only, one, named⟩ | ⟨several, kept⟩
  · obtain rfl := Except.ok.inj (collapse.symm.trans named)
    have listed := mem_variants_of_fitting one
    have selects := (select_isOk wellFormed member listed).2.2
    refine ⟨fun variant listed' => ?_, fun none => ?_⟩
    · rw [selects, suitsOnly_iff wellFormed member listed', one, List.singleton_inj,
        Option.some.injEq, Value.choice.injEq]
      refine ⟨fun same => ?_, fun same => same ▸ rfl⟩
      exact List.inj_on_of_nodup_map (r.version.presets_apart.2 preset member) listed listed' same
    · exact absurd ((suitsOnly_iff wellFormed member listed).mpr one) (none only listed)
  · obtain rfl := Except.ok.inj (collapse.symm.trans kept)
    refine ⟨fun variant listed => ?_, fun _ => custom⟩
    rw [custom, suitsOnly_iff wellFormed member listed, Option.some.injEq, Value.choice.injEq]
    refine iff_of_false (fun same => ?_) (several variant)
    exact Version.custom_is_no_variant member listed same.symm

theorem mem_fitting_of_written (wellFormed : r.WellFormed) (member : preset ∈ r.schema.presets)
    (listed : variant ∈ preset.variants) (written : preset.apply variant r = .ok r) :
    variant ∈ preset.fitting r :=
  mem_fitting_iff.mpr ⟨listed, (describes_iff wellFormed member listed).mpr written⟩

/-- **A variant that is written out is the only one that suits**, unless another one has the same
content. -/
theorem suitsOnly_of_written (wellFormed : r.WellFormed) (member : preset ∈ r.schema.presets)
    (listed : variant ∈ preset.variants) (written : preset.apply variant r = .ok r) :
    preset.SuitsOnly variant r ↔ ¬ preset.Ambiguous variant := by
  have fits := mem_fitting_of_written wellFormed member listed written
  constructor
  · rintro ⟨-, only⟩ ambiguous
    obtain ⟨other, listed', apart, flags, side⟩ :=
      Version.exists_ambiguous member listed ambiguous
    refine apart (only other listed' ((suits_iff wellFormed member listed').mpr
      (mem_fitting_of_written wellFormed member listed' ?_)))
    unfold Preset.apply
    rw [flags, side]
    exact written
  · intro clear
    refine ⟨(suits_iff wellFormed member listed).mpr fits, fun other listed' suits => ?_⟩
    obtain ⟨-, describes⟩ := mem_fitting_iff.mp ((suits_iff wellFormed member listed').mp suits)
    have content := content?_of_describes wellFormed member listed (mem_fitting_iff.mp fits).2
    have content' := content?_of_describes wellFormed member listed' describes
    rcases Version.contents_apart member listed' listed (content'.trans content.symm) with
      same | ⟨-, ambiguous⟩
    · exact List.inj_on_of_nodup_map (r.version.presets_apart.2 preset member) listed' listed same
    · exact absurd ambiguous clear

end Preset

/-! ## Naming all presets -/

namespace StyleRecord

variable {r collapsed : StyleRecord}

/-- The selectors of a record that leave their targets to the user. -/
def customSelectors (r : StyleRecord) : List String :=
  (r.schema.presets.filter fun preset =>
    r.get? preset.selector == some (.choice preset.custom)).map (·.selector)

/-- **What collapse makes of a record.** -/
structure Collapse (r collapsed : StyleRecord) : Prop where
  wellFormed : collapsed.WellFormed
  sameTags : SameTags collapsed r
  /-- Only selectors change that leave their target to the user. -/
  frame : ∀ name, name ∉ r.customSelectors → collapsed.get? name = r.get? name
  /-- Each of them gets the name of the only variant that suits the record. -/
  named : ∀ preset ∈ r.schema.presets,
    r.get? preset.selector = some (.choice preset.custom) →
      ∀ variant ∈ preset.variants,
        (collapsed.get? preset.selector = some (.choice variant.variant) ↔
          preset.SuitsOnly variant r)
  /-- It stays as it is if no variant is the only one. -/
  kept : ∀ preset ∈ r.schema.presets,
    r.get? preset.selector = some (.choice preset.custom) →
      (∀ variant ∈ preset.variants, ¬ preset.SuitsOnly variant r) →
        collapsed.get? preset.selector = some (.choice preset.custom)
  idempotent : collapsed.collapse.outcome = .ok collapsed

/-- **Every well-formed record collapses**, once for all, to one in which each custom preset that
can be named is named. -/
theorem exists_collapsed (wellFormed : r.WellFormed) :
    ∃ collapsed, r.collapse.outcome = .ok collapsed ∧ Collapse r collapsed := by
  obtain ⟨collapsed, collapse, changes, own⟩ := exists_collapse wellFormed
  have own' : ∀ preset ∈ r.schema.presets, ∃ next, (preset.collapseIn r).outcome = .ok next ∧
      collapsed.get? preset.selector = next.get? preset.selector := by
    intro preset member
    obtain ⟨next, step, holds⟩ := own preset member
    exact ⟨next, step, holds _ List.mem_cons_self⟩
  refine ⟨collapsed, collapse, changes.wellFormed, changes.sameTags, ?_, ?_, ?_, ?_⟩
  · refine (changes.restrict fun name selector kept => ?_).get?_eq
    obtain ⟨preset, member, rfl⟩ := List.mem_map.mp selector
    obtain ⟨next, step, holds⟩ := own' preset member
    rw [holds]
    rw [Preset.collapseIn_of_not_custom, Except.ok.injEq] at step
    · rw [step]
    · intro custom
      refine kept (List.mem_map.mpr ⟨preset, List.mem_filter.mpr ⟨member, ?_⟩, rfl⟩)
      rw [custom, beq_self_eq_true]
  · intro preset member custom variant listed
    obtain ⟨next, step, holds⟩ := own' preset member
    rw [holds]
    exact (Preset.collapseIn_suitsOnly wellFormed member custom step).1 variant listed
  · intro preset member custom none
    obtain ⟨next, step, holds⟩ := own' preset member
    rw [holds]
    exact (Preset.collapseIn_suitsOnly wellFormed member custom step).2 none
  · have named := collapse_named wellFormed collapse
    rw [← changes.sameTags.schema] at named
    exact collapse_self_of_named named

/-- A variant is selected and written out, and then the target is left to the user: it still holds
what the variant wrote. -/
private theorem exists_custom_written {preset : Preset} {variant : PresetVariant}
    (wellFormed : r.WellFormed) (member : preset ∈ r.schema.presets)
    (listed : variant ∈ preset.variants) :
    ∃ selecting expanded custom,
      r.set preset.selector (.choice variant.variant) = .ok selecting ∧
      selecting.expand = .ok expanded ∧
      expanded.set preset.selector (.choice preset.custom) = .ok custom ∧
      custom.WellFormed ∧ SameTags custom r ∧
      custom.get? preset.selector = some (.choice preset.custom) ∧
      preset.apply variant custom = .ok custom := by
  obtain ⟨select, selects, selected⟩ := Preset.select_isOk wellFormed member listed
  obtain ⟨expanded, expand, changes, -⟩ := exists_expand selects.wellFormed
  have same := changes.sameTags.trans selects.sameTags
  have member' : preset ∈ (preset.selecting variant r).schema.presets := by
    rwa [selects.sameTags.schema]
  have holds : expanded.get? preset.selector = some (.choice variant.variant) :=
    (changes.get?_eq _ (selector_notMem_overwritten member')).trans selected
  have written := expand_written selects.wellFormed expand preset member'
  rw [Preset.Written, Preset.expandIn, Preset.selected?_of_choice member listed holds] at written
  -- Leaving the target to the user changes nothing that the preset writes.
  obtain ⟨field, found, admitted⟩ := Version.admits_custom member
  have customize : expanded.set preset.selector (.choice preset.custom) =
      .ok (expanded.put preset.selector (.choice preset.custom)) :=
    set_eq_put (by rw [same.schema]; exact found) admitted
  refine ⟨_, expanded, _, select, expand, customize, changes.wellFormed.set customize,
    (sameTags_set customize).trans same, get?_put (by rw [holds]; rfl), ?_⟩
  refine Preset.apply_self_congr changes.wellFormed (changes.wellFormed.set customize)
    (sameTags_set customize).1 (by rwa [same.schema]) listed (fun name own => ?_) written
  exact get?_put_of_ne fun hit => selector_notMem_writtenBy member member (hit ▸ own)

/-- **Naming what a variant wrote** gives the variant back, unless another one has the same
content. -/
theorem exists_renamed {preset : Preset} {variant : PresetVariant} (wellFormed : r.WellFormed)
    (member : preset ∈ r.schema.presets) (listed : variant ∈ preset.variants) :
    ∃ selecting expanded custom collapsed,
      r.set preset.selector (.choice variant.variant) = .ok selecting ∧
      selecting.expand = .ok expanded ∧
      expanded.set preset.selector (.choice preset.custom) = .ok custom ∧
      custom.collapse.outcome = .ok collapsed ∧
      collapsed.get? preset.selector = some (.choice
        (if preset.Ambiguous variant then preset.custom else variant.variant)) := by
  obtain ⟨selecting, expanded, custom, select, expand, customize, wellFormed', same, chosen,
    written⟩ := exists_custom_written wellFormed member listed
  obtain ⟨collapsed, collapse, collapses⟩ := exists_collapsed wellFormed'
  rw [← same.schema] at member
  have only := Preset.suitsOnly_of_written wellFormed' member listed written
  refine ⟨selecting, expanded, custom, collapsed, select, expand, customize, collapse, ?_⟩
  by_cases ambiguous : preset.Ambiguous variant
  · rw [if_pos ambiguous]
    refine collapses.kept preset member chosen fun other listed' suits => ?_
    have suits' := (Preset.suits_iff wellFormed' member listed).mpr
      (Preset.mem_fitting_of_written wellFormed' member listed written)
    exact only.mp (suits.2 variant listed suits' ▸ suits) ambiguous
  · rw [if_neg ambiguous]
    exact (collapses.named preset member chosen variant listed).mpr (only.mpr ambiguous)

/-- **Collapse of well-formed records.** It names what it can, once for all. What is expanded and
then collapsed neither expands nor collapses further. And what a variant wrote is named after it,
unless another variant has the same content. -/
theorem collapse_spec (wellFormed : r.WellFormed) :
    (∃ collapsed, r.collapse.outcome = .ok collapsed ∧ Collapse r collapsed) ∧
    (∃ expanded normal, r.expand = .ok expanded ∧ expanded.collapse.outcome = .ok normal ∧
      normal.expand = .ok normal ∧ normal.collapse.outcome = .ok normal) ∧
    ∀ preset ∈ r.schema.presets, ∀ variant ∈ preset.variants,
      ∃ selecting expanded custom collapsed,
        r.set preset.selector (.choice variant.variant) = .ok selecting ∧
        selecting.expand = .ok expanded ∧
        expanded.set preset.selector (.choice preset.custom) = .ok custom ∧
        custom.collapse.outcome = .ok collapsed ∧
        collapsed.get? preset.selector = some (.choice
          (if preset.Ambiguous variant then preset.custom else variant.variant)) := by
  refine ⟨exists_collapsed wellFormed, ?_, fun _ member _ => exists_renamed wellFormed member⟩
  obtain ⟨expanded, normal, expand, collapse, -, -, again, named⟩ := exists_normal wellFormed
  exact ⟨expanded, normal, expand, collapse, again, named⟩

/-- A record that leaves its braces to the user, with nothing in them. -/
theorem collapse_spec_braces :
    ∃ collapsed, ((zeroed .v12 .cpp).put "BreakBeforeBraces" (.choice "Custom")).collapse.outcome =
        .ok collapsed ∧
      Collapse ((zeroed .v12 .cpp).put "BreakBeforeBraces" (.choice "Custom")) collapsed := by
  refine (collapse_spec ?_).1
  change valuesFit _ _ = true
  decide +kernel

end StyleRecord

end FormatStyle
