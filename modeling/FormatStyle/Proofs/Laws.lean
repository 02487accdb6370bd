import FormatStyle.Proofs.Expansion
import Mathlib.Data.List.Find

/-! # Derivations and constraints

A derivation looks at a few fields and assigns one, and no derivation looks at what another one
assigns (`Derivation.Local`). So finishing a well-formed record always succeeds, with one table of
assignments (`StyleRecord.finish_eq_putAll`), and leaves nothing to derive
(`StyleRecord.settled_finish`).
Constraints look at few fields as well (`constrainedFields`). Presets write and select by other
fields than those, which are all listed in `lawFields`.
-/

namespace FormatStyle

open Catalogue

/-- **The fields that derivations and constraints look at or assign.** -/
def lawFields : List String :=
  ["InsertTrailingCommas", "BinPackArguments", "AlwaysBreakAfterDefinitionReturnType",
    "AlwaysBreakAfterReturnType", "QualifierAlignment", "QualifierOrder",
    "SpacesInLineCommentPrefix"]

/-- **The fields that constraints look at.** -/
def constrainedFields : List String :=
  ["InsertTrailingCommas", "BinPackArguments", "QualifierAlignment", "QualifierOrder"]

theorem constrainedFields_subset : constrainedFields ⊆ lawFields := by
  simp [constrainedFields, lawFields]

/-- The assigned fields have the kinds that derivations expect, and presets are about other
fields. -/
theorem lawFields_apart :
    (∀ v ∈ [Version.v12, .v16],
      v.schema.scalarKind? "AlwaysBreakAfterReturnType" = some (.choice V12.returnTypeBreaking)) ∧
    Version.v16.schema.scalarKind? "QualifierOrder" = some .strList ∧
    Version.v16.schema.recordParts? "SpacesInLineCommentPrefix" =
      some V16.spacesInLineCommentPrefix ∧
    ∀ v ∈ Version.all, ∀ name ∈ lawFields,
      name ∉ v.schema.presetWrites ∧ name ∉ v.schema.presets.map (·.selector) := by
  decide

theorem notMem_presetWrites {v : Version} {name : String} (law : name ∈ lawFields) :
    name ∉ v.schema.presetWrites :=
  (lawFields_apart.2.2.2 v v.mem_all name law).1

theorem notMem_selectors {r : StyleRecord} {name : String} (law : name ∈ lawFields) :
    name ∉ r.selectors :=
  (lawFields_apart.2.2.2 r.version r.version.mem_all name law).2

/-- **A property of simple values that derivations keep.** Such values are admitted. Choices and
lists that are admitted have the property, and so has a bound as a number if it is not negative. -/
structure ScalarKind.Keeping (P : ScalarKind → Value → Prop) : Prop where
  admits : ∀ {kind value}, P kind value → kind.admits value = true
  choice : ∀ {e value}, (ScalarKind.choice e).admits value = true → P (.choice e) value
  list : ∀ {value}, ScalarKind.strList.admits value = true → P .strList value
  number : ∀ {n}, P .bound (.int n) → 0 ≤ n → P .unsigned (.int n)

private theorem ScalarKind.keeping_admits : Keeping fun kind value => kind.admits value = true where
  admits := id
  choice := id
  list := id
  number _ least := decide_eq_true least

private theorem ScalarKind.keeping_stores : Keeping Stores where
  admits := And.left
  choice admitted := ⟨admitted, trivial⟩
  list admitted := ⟨admitted, trivial⟩
  number := by
    rintro n ⟨-, width⟩ least
    refine ⟨decide_eq_true least, ?_⟩
    dsimp only at width ⊢
    omega

/-- **A derivation that reads some fields and assigns one**, in records of a version. What it
assigns has the properties that derivations keep, and once that is assigned nothing else follows. -/
structure Derivation.Local (v : Version) (derive : Derivation) (reads : List String)
    (target : String) : Prop where
  congr : ∀ {a b : View}, (∀ name ∈ reads, a name = b name) → derive a = derive b
  assigns : ∀ view : View, derive view = [] ∨ ∃ value, derive view = [(target, value)]
  holds : ∀ {P : ScalarKind → Value → Prop} {r : StyleRecord} {value : Value},
    ScalarKind.Keeping P → r.version = v → r.Each (FieldKind.Holds P) →
      derive r.view = [(target, value)] →
        ∃ field, v.schema.field? target = some field ∧ field.kind.Holds P value
  settles : ∀ {view view' : View} {value : Value}, derive view = [(target, value)] →
    (∀ name, name ≠ target → view' name = view name) → view' target = some value →
      derive view' = [] ∨ derive view' = [(target, value)]

theorem returnTypeBreak_cases (view : View) : V12.returnTypeBreak view = [] ∨
    ∃ variant ∈ ["AllDefinitions", "TopLevelDefinitions"],
      V12.returnTypeBreak view = [("AlwaysBreakAfterReturnType", .choice variant)] := by
  unfold V12.returnTypeBreak
  dsimp only
  split
  · split
    · exact .inr ⟨_, by simp, rfl⟩
    · split
      · exact .inr ⟨_, by simp, rfl⟩
      · exact .inl rfl
  · exact .inl rfl

theorem returnTypeBreak_local {v : Version} (modern : v ∈ [Version.v12, .v16]) :
    Derivation.Local v V12.returnTypeBreak
      ["AlwaysBreakAfterDefinitionReturnType", "AlwaysBreakAfterReturnType"]
      "AlwaysBreakAfterReturnType" where
  congr agree := by
    unfold V12.returnTypeBreak
    rw [agree _ (by simp), agree _ (by simp)]
  assigns view := (returnTypeBreak_cases view).imp_right fun ⟨_, _, assigned⟩ => ⟨_, assigned⟩
  holds := by
    intro P r value keeping _ _ assigned
    obtain ⟨field, found, is_choice⟩ := Schema.field?_of_scalarKind? (lawFields_apart.1 v modern)
    refine ⟨field, found, is_choice ▸ ?_⟩
    rcases returnTypeBreak_cases r.view with none | ⟨variant, listed, assigned'⟩
    · simp [none] at assigned
    · obtain rfl : Value.choice variant = value := by simpa [assigned'] using assigned
      have known : ∀ variant ∈ ["AllDefinitions", "TopLevelDefinitions"],
          V12.returnTypeBreaking.hasVariant variant = true := by decide
      exact keeping.choice (known variant listed)
  settles := by
    intro view view' value assigned _ held
    rcases returnTypeBreak_cases view with none | ⟨variant, listed, assigned'⟩
    · simp [none] at assigned
    · obtain rfl : Value.choice variant = value := by simpa [assigned'] using assigned
      left
      have settled : variant ≠ "None" := by
        rintro rfl
        simp at listed
      unfold V12.returnTypeBreak
      simp [held, Value.choice?, settled]

theorem fixedQualifierOrder_local :
    Derivation.Local .v16 V16.fixedQualifierOrder ["QualifierAlignment"] "QualifierOrder" where
  congr agree := by
    unfold V16.fixedQualifierOrder
    rw [agree _ (by simp)]
  assigns view := by
    unfold V16.fixedQualifierOrder
    split <;> simp
  holds := by
    intro P r value keeping _ _ assigned
    obtain ⟨field, found, is_list⟩ := Schema.field?_of_scalarKind? lawFields_apart.2.1
    refine ⟨field, found, is_list ▸ ?_⟩
    unfold V16.fixedQualifierOrder at assigned
    split at assigned <;> cases assigned <;> exact keeping.list rfl
  settles := by
    intro view view' value assigned frame _
    right
    rw [← assigned]
    unfold V16.fixedQualifierOrder
    rw [frame "QualifierAlignment" (by simp)]

theorem clampedCommentPrefix_local :
    Derivation.Local .v16 V16.clampedCommentPrefix ["SpacesInLineCommentPrefix"]
      "SpacesInLineCommentPrefix" where
  congr agree := by
    unfold V16.clampedCommentPrefix
    rw [agree _ (by simp)]
  assigns view := by
    unfold V16.clampedCommentPrefix
    split
    · split <;> simp
    · simp
  holds := by
    intro P r value keeping version each assigned
    obtain ⟨field, found, is_record⟩ := Schema.field?_of_recordParts? lawFields_apart.2.2.1
    refine ⟨field, found, is_record ▸ ?_⟩
    unfold V16.clampedCommentPrefix at assigned
    split at assigned
    · rename_i minimum maximum rest holds
      split at assigned
      · cases assigned
      · rename_i exceeds
        cases assigned
        have stored := each.of_get?
          (show r.schema.field? _ = some field by rw [StyleRecord.schema, version]; exact found)
          holds
        rw [is_record] at stored
        obtain ⟨_, bounded, _⟩ : _ ∧ P .bound (.int maximum) ∧ _ := by
          simpa [FieldKind.Holds, PartsHold, V16.spacesInLineCommentPrefix] using stored
        simp only [Bool.or_eq_true, decide_eq_true_eq, not_or] at exceeds
        have most : -1 ≤ maximum := of_decide_eq_true (keeping.admits bounded)
        have least : 0 ≤ maximum := by omega
        exact .cons (keeping.number bounded least) (.cons bounded .nil)
    · cases assigned
  settles := by
    intro view view' value assigned _ held
    left
    unfold V16.clampedCommentPrefix at assigned
    split at assigned
    · split at assigned
      · cases assigned
      · cases assigned
        unfold V16.clampedCommentPrefix
        simp [held]
    · cases assigned

/-- **What a derivation looks at and assigns.** -/
structure Footprint where
  derive : Derivation
  reads : List String
  target : String

/-- The derivations of a version with what they look at. -/
def Version.footprints : Version → List Footprint
  | .v3_4 | .v3_6 => []
  | .v12 => [returnTypeFootprint]
  | .v16 => [returnTypeFootprint,
      ⟨V16.fixedQualifierOrder, ["QualifierAlignment"], "QualifierOrder"⟩,
      ⟨V16.clampedCommentPrefix, ["SpacesInLineCommentPrefix"], "SpacesInLineCommentPrefix"⟩]
where
  returnTypeFootprint : Footprint := ⟨V12.returnTypeBreak,
    ["AlwaysBreakAfterDefinitionReturnType", "AlwaysBreakAfterReturnType"],
    "AlwaysBreakAfterReturnType"⟩

theorem Version.derivations_eq (v : Version) :
    v.schema.derivations = v.footprints.map (·.derive) := by
  cases v <;> rfl

theorem Version.footprints_local (v : Version) :
    ∀ f ∈ v.footprints, Derivation.Local v f.derive f.reads f.target := by
  cases v with
  | v3_4 => exact List.forall_mem_nil _
  | v3_6 => exact List.forall_mem_nil _
  | v12 => exact List.forall_mem_singleton.mpr (returnTypeBreak_local (by decide))
  | v16 =>
    exact List.forall_mem_cons.mpr ⟨returnTypeBreak_local (by decide), List.forall_mem_cons.mpr
      ⟨fixedQualifierOrder_local, List.forall_mem_singleton.mpr clampedCommentPrefix_local⟩⟩

/-- No derivation looks at or assigns what another one assigns. -/
theorem Version.footprints_apart (v : Version) : v.footprints.Pairwise fun f g =>
    f.target ∉ g.target :: g.reads ∧ g.target ∉ f.target :: f.reads := by
  cases v <;> simp [footprints, footprints.returnTypeFootprint]

theorem Version.footprints_lawFields (v : Version) :
    ∀ f ∈ v.footprints, f.target ∈ lawFields ∧ ∀ name ∈ f.reads, name ∈ lawFields := by
  cases v <;> simp [footprints, footprints.returnTypeFootprint, lawFields]

namespace StyleRecord

variable {r a b : StyleRecord} {name : String}

/-- **What the derivations of a schema assign** in a record. -/
def derived (r : StyleRecord) : List (String × Value) :=
  r.schema.derivations.flatMap fun derive => derive r.view

/-- Every derivation has already been made. -/
def Settled (r : StyleRecord) : Prop :=
  ∀ write ∈ r.derived, r.get? write.1 = some write.2

theorem derived_eq : r.derived = r.version.footprints.flatMap fun f => f.derive r.view := by
  unfold derived
  rw [show r.schema.derivations = r.version.footprints.map (·.derive) from
    r.version.derivations_eq, List.flatMap_map]

/-- Changes that are already there change nothing. -/
theorem putAll_of_holds {writes : List (String × Value)}
    (holds : ∀ write ∈ writes, r.get? write.1 = some write.2) : r.putAll writes = r := by
  induction writes with
  | nil => rfl
  | cons write writes ih =>
    simp only [List.mem_cons, forall_eq_or_imp] at holds
    rw [putAll_cons, put_get? holds.1]
    exact ih holds.2

theorem mem_derived_iff {write : String × Value} :
    write ∈ r.derived ↔ ∃ f ∈ r.version.footprints, f.derive r.view = [write] ∧
      write.1 = f.target := by
  rw [derived_eq, List.mem_flatMap]
  refine exists_congr fun f => and_congr_right fun member => ?_
  rcases (r.version.footprints_local f member).assigns r.view with none | ⟨value, one⟩
  · simp [none]
  · rw [one, List.mem_singleton]
    constructor
    · rintro rfl
      exact ⟨rfl, rfl⟩
    · rintro ⟨same, _⟩
      exact (List.singleton_inj.mp same).symm

/-- **Each derived assignment has the properties that derivations keep**, in a field that laws are
about. -/
theorem holds_derived {P : ScalarKind → Value → Prop} (keeping : ScalarKind.Keeping P)
    (each : r.Each (FieldKind.Holds P)) :
    ∀ write ∈ r.derived, write.1 ∈ lawFields ∧
      ∃ field, r.schema.field? write.1 = some field ∧ field.kind.Holds P write.2 := by
  intro write member
  obtain ⟨f, listed, one, named⟩ := mem_derived_iff.mp member
  refine ⟨named ▸ (r.version.footprints_lawFields f listed).1, ?_⟩
  rw [named]
  exact (r.version.footprints_local f listed).holds keeping rfl each (by rw [one, ← named])

/-- What is derived from stored values is stored. -/
theorem stores_derived (each : r.Each FieldKind.Stores) :
    ∀ write ∈ r.derived, write.1 ∈ lawFields ∧
      ∃ field, r.schema.field? write.1 = some field ∧ field.kind.Stores write.2 :=
  holds_derived ScalarKind.keeping_stores each

/-- What is derived from admitted values is admitted. -/
theorem admits_derived (wellFormed : r.WellFormed) :
    ∀ write ∈ r.derived, write.1 ∈ lawFields ∧
      ∃ field, r.schema.field? write.1 = some field ∧ field.kind.admits write.2 = true := by
  have each := (wellFormed_iff.mp wellFormed).mono fun _ _ => FieldKind.holds_admits_iff.mpr
  intro write member
  obtain ⟨law, field, found, holds⟩ := holds_derived ScalarKind.keeping_admits each write member
  exact ⟨law, field, found, FieldKind.holds_admits_iff.mp holds⟩

/-- Records that agree on the fields that laws look at derive the same. -/
theorem derived_congr (version : b.version = a.version)
    (agree : ∀ name ∈ lawFields, b.get? name = a.get? name) : b.derived = a.derived := by
  rw [derived_eq, derived_eq, version]
  refine List.flatMap_congr fun f member => ?_
  exact (a.version.footprints_local f member).congr fun name read =>
    agree name ((a.version.footprints_lawFields f member).2 name read)

/-- The derivations of some footprints, one after the other, are one table of assignments. -/
private theorem finishSome_eq_putAll {footprints : List Footprint} (wellFormed : r.WellFormed)
    (listed : ∀ f ∈ footprints, f ∈ r.version.footprints)
    (apart : footprints.Pairwise fun f g => f.target ∉ g.reads) :
    footprints.foldlM (fun r f => r.setAll (f.derive r.view)) r =
      .ok (r.putAll (footprints.flatMap fun f => f.derive r.view)) := by
  induction footprints generalizing r with
  | nil => rfl
  | cons f footprints ih =>
    rw [List.pairwise_cons] at apart
    simp only [List.mem_cons, forall_eq_or_imp] at listed
    have made := r.version.footprints_local f listed.1
    have named : ∀ write ∈ f.derive r.view, write.1 = f.target ∧ write ∈ r.derived := by
      intro write member
      rcases made.assigns r.view with none | ⟨value, one⟩
      · simp [none] at member
      · rw [one, List.mem_singleton] at member
        subst member
        exact ⟨rfl, mem_derived_iff.mpr ⟨f, listed.1, one, rfl⟩⟩
    have set : r.setAll (f.derive r.view) = .ok (r.putAll (f.derive r.view)) :=
      setAll_eq_ok_iff.mpr ⟨fun write member =>
        (admits_derived wellFormed write (named write member).2).2, rfl⟩
    have unread : ∀ g ∈ footprints,
        g.derive (r.putAll (f.derive r.view)).view = g.derive r.view := by
      intro g member
      refine (r.version.footprints_local g (listed.2 g member)).congr fun name read => ?_
      refine get?_putAll_of_notMem fun written => ?_
      obtain ⟨write, made, rfl⟩ := List.mem_map.mp written
      exact apart.1 g member ((named write made).1 ▸ read)
    rw [List.foldlM_cons, set, Outcome.ok_bind, ih, List.flatMap_cons, putAll_append]
    · rw [List.flatMap_congr unread]
    · exact wellFormed.setAll set
    · rw [(sameTags_putAll r _).1]
      exact listed.2
    · exact apart.2

/-- **Finishing a well-formed record succeeds**, with what its derivations assign. -/
theorem finish_eq_putAll (wellFormed : r.WellFormed) :
    r.finish = .ok (r.putAll r.derived) := by
  unfold finish
  rw [show r.schema.derivations = r.version.footprints.map (·.derive) from
    r.version.derivations_eq, List.foldlM_map, derived_eq]
  refine finishSome_eq_putAll wellFormed (fun _ => id) (r.version.footprints_apart.imp ?_)
  intro f g apart
  exact fun read => apart.1 (List.mem_cons_of_mem _ read)

/-- A settled record is finished as it is. -/
theorem WellFormed.finish_of_settled (wellFormed : r.WellFormed) (settled : r.Settled) :
    r.finish = .ok r := by
  rw [finish_eq_putAll wellFormed, putAll_of_holds settled]

theorem Settled.finish (each : r.Each FieldKind.Stores) (settled : r.Settled) :
    r.finish = .ok r :=
  each.wellFormed.finish_of_settled settled

/-- What a well-formed record derives keeps it well-formed. -/
theorem WellFormed.finished (wellFormed : r.WellFormed) : (r.putAll r.derived).WellFormed :=
  wellFormed.setAll (setAll_eq_ok_iff.mpr
    ⟨fun write member => (admits_derived wellFormed write member).2, rfl⟩)

theorem Native.finished (native : r.Native) : (r.putAll r.derived).Native :=
  native.putAll fun write member => (stores_derived native.stores write member).2

/-- Two footprints of a version are the same or apart. -/
theorem eq_or_apart {v : Version} {f g : Footprint} (listed : f ∈ v.footprints)
    (listed' : g ∈ v.footprints) : f = g ∨ g.target ∉ f.target :: f.reads := by
  have apart := v.footprints_apart
  rw [List.pairwise_iff_getElem] at apart
  obtain ⟨i, bound, rfl⟩ := List.getElem_of_mem listed
  obtain ⟨j, bound', rfl⟩ := List.getElem_of_mem listed'
  rcases Nat.lt_trichotomy i j with before | rfl | after
  · exact .inr (apart i j bound bound' before).2
  · exact .inl rfl
  · exact .inr (apart j i bound' bound after).1

/-- What a derivation assigns is all that is assigned of the fields that it looks at. -/
private theorem mem_derive_of_reads {f : Footprint} {write : String × Value}
    (listed : f ∈ r.version.footprints) (member : write ∈ r.derived)
    (read : write.1 ∈ f.target :: f.reads) : f.derive r.view = [write] := by
  obtain ⟨g, listed', one, named⟩ := mem_derived_iff.mp member
  rcases eq_or_apart listed listed' with rfl | apart
  · exact one
  · exact absurd (named ▸ read) apart

/-- Each field is derived once. -/
private theorem nodup_derived : (r.derived.map Prod.fst).Nodup := by
  rw [derived_eq, List.map_flatMap, List.nodup_flatMap]
  have made := r.version.footprints_local
  refine ⟨fun f listed => ?_, r.version.footprints_apart.imp_of_mem fun {f g} hf hg apart => ?_⟩
  · rcases (made f listed).assigns r.view with none | ⟨value, one⟩
    · simp [none]
    · simp [one]
  · have distinct : f.target ≠ g.target := fun same => apart.1 (same ▸ List.mem_cons_self)
    rcases (made f hf).assigns r.view with none | ⟨value, one⟩ <;>
      rcases (made g hg).assigns r.view with none' | ⟨value', one'⟩ <;>
      simp [Function.onFun, *, distinct.symm]

/-- A finished record holds what is derived. -/
theorem get?_finished_of_mem {write : String × Value} (wellFormed : r.WellFormed)
    (member : write ∈ r.derived) : (r.putAll r.derived).get? write.1 = some write.2 := by
  obtain ⟨field, found, -⟩ := (admits_derived wellFormed write member).2
  obtain ⟨value, holds, -⟩ := (wellFormed_iff.mp wellFormed).get? found
  exact get?_putAll_of_mem nodup_derived member (by simp [holds])

/-- What no derivation assigns, a finished record holds as before. -/
theorem get?_finished_of_ne (apart : ∀ f ∈ r.version.footprints, name ≠ f.target) :
    (r.putAll r.derived).get? name = r.get? name := by
  refine get?_putAll_of_notMem fun written => ?_
  obtain ⟨write, derived, rfl⟩ := List.mem_map.mp written
  obtain ⟨f, listed, -, named⟩ := mem_derived_iff.mp derived
  exact apart f listed named

/-- What a derivation looks at is assigned by itself, or not at all. -/
theorem ne_target_of_reads {f g : Footprint} (listed : f ∈ r.version.footprints)
    (listed' : g ∈ r.version.footprints) (read : name ∈ f.reads) (apart : name ≠ f.target) :
    name ≠ g.target := by
  rintro rfl
  rcases eq_or_apart listed listed' with rfl | unread
  · exact apart rfl
  · exact unread (List.mem_cons_of_mem _ read)

/-- Where a derivation assigns, a finished record holds what is derived, or else what it held. -/
theorem get?_finished_target {f : Footprint} (wellFormed : r.WellFormed)
    (listed : f ∈ r.version.footprints) : (r.putAll r.derived).get? f.target =
      ((f.derive r.view).head?.map Prod.snd).or (r.get? f.target) := by
  rcases (r.version.footprints_local f listed).assigns r.view with none | ⟨value, one⟩
  · rw [none, get?_putAll_of_notMem]
    · rfl
    · intro written
      obtain ⟨write, derived, named⟩ := List.mem_map.mp written
      have := mem_derive_of_reads listed derived (named ▸ List.mem_cons_self)
      simp [none] at this
  · have derived : (f.target, value) ∈ r.derived := mem_derived_iff.mpr ⟨f, listed, one, rfl⟩
    rw [one, get?_finished_of_mem wellFormed derived]
    rfl

/-- Records that agree on what a derivation looks at and assigns agree there when finished. -/
theorem get?_finished_congr {f : Footprint} (wellFormed : a.WellFormed)
    (wellFormed' : b.WellFormed) (version : b.version = a.version)
    (listed : f ∈ a.version.footprints)
    (agree : ∀ name ∈ f.target :: f.reads, b.get? name = a.get? name) :
    (b.putAll b.derived).get? f.target = (a.putAll a.derived).get? f.target := by
  rw [List.forall_mem_cons] at agree
  have same : f.derive b.view = f.derive a.view :=
    (a.version.footprints_local f listed).congr agree.2
  rw [get?_finished_target wellFormed' (version ▸ listed), get?_finished_target wellFormed listed,
    same, agree.1]

/-- **A finished record leaves nothing to derive.** -/
theorem settled_finish (wellFormed : r.WellFormed) : (r.putAll r.derived).Settled := by
  intro write member
  obtain ⟨f, listed, one, named⟩ := mem_derived_iff.mp member
  rw [(sameTags_putAll r _).1] at listed
  have made := r.version.footprints_local f listed
  have elsewhere : ∀ name ∈ f.reads, name ≠ f.target →
      (r.putAll r.derived).get? name = r.get? name := fun name read apart =>
    get?_finished_of_ne fun g listed' => ne_target_of_reads listed listed' read apart
  rcases made.assigns r.view with none | ⟨value, assigned⟩
  · -- Nothing that the derivation looks at has changed.
    exfalso
    have unchanged : f.derive (r.putAll r.derived).view = f.derive r.view := by
      refine made.congr fun name read => ?_
      change (r.putAll r.derived).get? name = r.get? name
      by_cases own : name = f.target
      · rw [own, get?_finished_target wellFormed listed, none]
        rfl
      · exact elsewhere name read own
    rw [one, none] at unchanged
    cases unchanged
  · have derived : (f.target, value) ∈ r.derived :=
      mem_derived_iff.mpr ⟨f, listed, assigned, rfl⟩
    have held := get?_finished_of_mem wellFormed derived
    obtain ⟨field, found, -⟩ := (admits_derived wellFormed _ derived).2
    obtain ⟨current, holds, -⟩ := (wellFormed_iff.mp wellFormed).get? found
    have known : (r.get? f.target).isSome := by simp [holds]
    -- As far as the derivation sees, only its own target has changed.
    have unchanged : f.derive (r.putAll r.derived).view =
        f.derive (r.put f.target value).view := by
      refine made.congr fun name read => ?_
      change (r.putAll r.derived).get? name = (r.put f.target value).get? name
      by_cases own : name = f.target
      · rw [own, held, get?_put known]
      · rw [get?_put_of_ne own, elsewhere name read own]
    have frame : ∀ name, name ≠ f.target → (r.put f.target value).view name = r.view name :=
      fun name ne => get?_put_of_ne ne
    rcases made.settles assigned frame (get?_put known) with nothing | again
    · rw [one, nothing] at unchanged
      cases unchanged
    · rw [one, again, List.singleton_inj] at unchanged
      rw [unchanged]
      exact held

/-! ## Constraints -/

theorem qualifierOrder?_congr {x y : View} (agree : ∀ name ∈ constrainedFields, x name = y name) :
    V16.qualifierOrder? x = V16.qualifierOrder? y := by
  unfold V16.qualifierOrder?
  rw [agree "QualifierAlignment" (by simp [constrainedFields]),
    agree "QualifierOrder" (by simp [constrainedFields])]

/-- Constraints look at few fields. -/
theorem violated_congr {v : Version} {law : Constraint} (member : law ∈ v.schema.constraints)
    {x y : View} (agree : ∀ name ∈ constrainedFields, x name = y name) :
    law.violated x = law.violated y := by
  have packing : V12.trailingCommaBinPacking.violated x =
      V12.trailingCommaBinPacking.violated y := by
    simp only [V12.trailingCommaBinPacking,
      agree "InsertTrailingCommas" (by simp [constrainedFields]),
      agree "BinPackArguments" (by simp [constrainedFields])]
  have order := qualifierOrder?_congr agree
  cases v with
  | v3_4 => cases member
  | v3_6 => cases member
  | v12 => rwa [List.mem_singleton.mp member]
  | v16 =>
    rcases List.mem_cons.mp member with rfl | member
    · exact packing
    · unfold V16.qualifierConstraints at member
      simp only [List.mem_cons, List.not_mem_nil, or_false] at member
      rcases member with rfl | rfl | rfl | rfl <;> simp only [order]

/-- Records that agree on the fields that constraints look at break the same one. -/
theorem brokenConstraint?_congr (version : b.version = a.version)
    (agree : ∀ name ∈ constrainedFields, b.get? name = a.get? name) :
    b.brokenConstraint? = a.brokenConstraint? := by
  unfold brokenConstraint?
  rw [show b.schema = a.schema by rw [StyleRecord.schema, StyleRecord.schema, version]]
  refine List.find?_congr fun law member => ?_
  exact violated_congr member agree

end StyleRecord

end FormatStyle
