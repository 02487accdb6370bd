import FormatStyle.Proofs.Descents
import FormatStyle.Proofs.SameKind
import FormatStyle.Proofs.StyleFields

/-! # Laws along a walk

A walk neither finishes a record nor checks its constraints. But what laws look at comes either from
a style, which keeps its laws as it is, or from the record before, as it was there. So each step
leads from a record that keeps its laws once it is finished to another one
(`Migration.Step.keepsLaws_next`), and so does a whole migration (`Migration.Course.keepsLaws`). It
breaks no constraint as it is, either (`Migration.Course.unbroken`).
Between the two highest versions a step also leaves nothing to derive where nothing was left
(`Migration.Step.settled_next`); a step up to them can leave something.
-/

namespace FormatStyle

open Catalogue

/-- **The fields that derivations assign.** -/
def derivedFields : List String :=
  ["AlwaysBreakAfterReturnType", "QualifierOrder", "SpacesInLineCommentPrefix"]

private theorem Version.footprints_targets (v : Version) :
    ∀ f ∈ v.footprints, f.target ∈ derivedFields := by
  cases v <;> simp [footprints, footprints.returnTypeFootprint, derivedFields]

/-- The return type break is derived in both of the two highest versions, and the highest one
derives from fields of its own besides. -/
theorem Version.footprints_high {v : Version} (high : .v12 ≤ v) :
    footprints.returnTypeFootprint ∈ v.footprints ∧
      ∀ f ∈ v.footprints, f = footprints.returnTypeFootprint ∨
        v = .v16 ∧ ∀ name ∈ f.reads, name ∈ ["QualifierAlignment", "SpacesInLineCommentPrefix"] := by
  cases v with
  | v3_4 => exact absurd high (by decide)
  | v3_6 => exact absurd high (by decide)
  | v12 => simp [footprints]
  | v16 => simp [footprints]

theorem Version.low_or_high (v : Version) : v ≤ .v3_6 ∨ .v12 ≤ v := by
  cases v <;> decide

namespace StyleRecord

variable {r t : StyleRecord} {name : String}

/-- **A record that keeps its laws** once it is finished. -/
def KeepsLaws (r : StyleRecord) : Prop := (r.putAll r.derived).brokenConstraint? = none

/-- Records that agree on the fields that laws look at keep their laws alike. -/
theorem keepsLaws_congr (each : r.Each FieldKind.Stores) (each' : t.Each FieldKind.Stores)
    (version : t.version = r.version) (agree : ∀ name ∈ lawFields, t.get? name = r.get? name) :
    t.KeepsLaws ↔ r.KeepsLaws := by
  unfold KeepsLaws
  rw [derived_congr version agree, brokenConstraint?_congr (a := r.putAll r.derived)]
  · rw [(sameTags_putAll _ _).1, (sameTags_putAll _ _).1, version]
  · intro name law
    exact get?_putAll_congr each' each version.symm fun _ =>
      agree name (constrainedFields_subset law)

/-- Records that agree on the fields that laws look at leave alike nothing to derive. -/
theorem settled_congr (version : t.version = r.version)
    (agree : ∀ name ∈ lawFields, t.get? name = r.get? name) : t.Settled ↔ r.Settled := by
  unfold Settled
  rw [derived_congr version agree]
  refine forall₂_congr fun write member => ?_
  obtain ⟨f, listed, -, named⟩ := mem_derived_iff.mp member
  rw [agree write.1 (named ▸ (r.version.footprints_lawFields f listed).1)]

/-- **A settled record keeps its laws** if it breaks no constraint as it is. -/
theorem Settled.keepsLaws (settled : r.Settled) (unbroken : r.brokenConstraint? = none) :
    r.KeepsLaws := by
  rwa [KeepsLaws, putAll_of_holds settled]

/-- Where nothing is derived, everything is settled. -/
theorem settled_of_derived (none : r.derived = []) : r.Settled := by
  rw [Settled, none]
  exact fun _ member => (List.not_mem_nil member).elim

/-- In the two lower versions there is no constraint to break. -/
theorem unbroken_of_le (low : r.version ≤ .v3_6) : r.brokenConstraint? = none := by
  have lawless : r.version.schema.constraints = [] := by
    revert low
    cases r.version <;> decide
  rw [brokenConstraint?, StyleRecord.schema, lawless]
  rfl

/-- In the two lower versions there is nothing to derive either. -/
theorem settled_of_le (low : r.version ≤ .v3_6) : r.Settled ∧ r.KeepsLaws := by
  have underived : r.version.footprints = [] := by
    revert low
    cases r.version <;> decide
  have settled : r.Settled := settled_of_derived (by rw [derived_eq, underived]; rfl)
  exact ⟨settled, settled.keepsLaws (unbroken_of_le low)⟩

/-- What no derivation assigns, a finished record holds as before. -/
theorem get?_finished (underived : name ∉ derivedFields) :
    (r.putAll r.derived).get? name = r.get? name := by
  refine get?_finished_of_ne ?_
  rintro f listed rfl
  exact underived (r.version.footprints_targets f listed)

/-- **The law on trailing commas**, kept by a record as it is. -/
def KeepsCommas (r : StyleRecord) : Prop :=
  V12.trailingCommaBinPacking.violated r.view = false

theorem keepsCommas_congr
    (agree : ∀ name ∈ ["InsertTrailingCommas", "BinPackArguments"], t.get? name = r.get? name) :
    t.KeepsCommas ↔ r.KeepsCommas := by
  simp only [List.mem_cons, List.not_mem_nil, or_false, forall_eq_or_imp, forall_eq] at agree
  simp only [KeepsCommas, V12.trailingCommaBinPacking, view, agree]

/-- Finishing a record changes nothing for the law on trailing commas. -/
theorem keepsCommas_finished : (r.putAll r.derived).KeepsCommas ↔ r.KeepsCommas :=
  keepsCommas_congr fun name listed => get?_finished <|
    (by decide : ∀ name ∈ ["InsertTrailingCommas", "BinPackArguments"], name ∉ derivedFields)
      name listed

/-- A record of one of the two highest versions that breaks no constraint keeps the law on
commas. -/
theorem keepsCommas_of_unbroken (high : .v12 ≤ r.version) (unbroken : r.brokenConstraint? = none) :
    r.KeepsCommas := by
  unfold brokenConstraint? at unbroken
  rw [List.find?_eq_none] at unbroken
  refine Bool.eq_false_iff.mpr (unbroken _ ?_)
  unfold StyleRecord.schema
  revert high
  cases r.version with
  | v3_4 => exact fun high => absurd high (by decide)
  | v3_6 => exact fun high => absurd high (by decide)
  | v12 => exact fun _ => List.mem_cons_self
  | v16 => exact fun _ => List.mem_cons_self

/-- A record of one of the two highest versions that keeps its laws keeps the one on commas. -/
theorem KeepsLaws.keepsCommas (high : .v12 ≤ r.version) (keeps : r.KeepsLaws) : r.KeepsCommas := by
  refine keepsCommas_finished.mp (keepsCommas_of_unbroken ?_ keeps)
  rwa [(sameTags_putAll r _).1]

/-- **Where qualifiers are left alone, the law on commas is the only constraint.** -/
theorem KeepsCommas.unbroken (keeps : r.KeepsCommas)
    (aligned : r.version = .v16 → r.get? "QualifierAlignment" = some (.choice "Leave")) :
    r.brokenConstraint? = none := by
  unfold brokenConstraint?
  rw [List.find?_eq_none]
  intro law member
  rw [StyleRecord.schema] at member
  have commas : V12.trailingCommaBinPacking.violated r.view = false := keeps
  cases version : r.version with
  | v3_4 | v3_6 =>
    rw [version] at member
    cases member
  | v12 =>
    rw [version] at member
    rw [List.mem_singleton.mp member, commas]
    simp
  | v16 =>
    have unordered : V16.qualifierOrder? r.view = none := by
      unfold V16.qualifierOrder? view
      rw [aligned version]
      rfl
    rw [version] at member
    rcases List.mem_cons.mp member with rfl | member
    · simp [commas]
    · unfold V16.qualifierConstraints at member
      simp only [List.mem_cons, List.not_mem_nil, or_false] at member
      rcases member with rfl | rfl | rfl | rfl <;> simp [unordered]

/-- Where qualifiers are left alone, the law on commas is the only one once a record is finished. -/
theorem KeepsCommas.keepsLaws (keeps : r.KeepsCommas)
    (aligned : r.version = .v16 → r.get? "QualifierAlignment" = some (.choice "Leave")) :
    r.KeepsLaws := by
  refine (keepsCommas_finished.mpr keeps).unbroken fun highest => ?_
  rw [get?_finished (by simp [derivedFields]), aligned ((sameTags_putAll r _).1 ▸ highest)]

end StyleRecord

/-! ## Styles keep their laws -/

/-- No style inserts trailing commas, leaves anything to derive or aligns qualifiers. -/
private theorem styles_lawful : ∀ v ∈ [Version.v12, .v16], ∀ style ∈ v.schema.styles,
    ∀ language ∈ v.schema.languages,
      (style.sketch v language).get? "InsertTrailingCommas" = some (.choice "None") ∧
      (style.sketch v language).derived = [] ∧
      (v = .v16 →
        (style.sketch v language).get? "QualifierAlignment" = some (.choice "Leave")) := by
  decide +kernel

namespace StyleRecord

variable {r : StyleRecord}

/-- **A record that is plain** in what laws look at: it inserts no trailing commas, leaves nothing
to derive and aligns no qualifiers. -/
structure Plain (r : StyleRecord) : Prop where
  uninserted : r.get? "InsertTrailingCommas" = some (.choice "None")
  underived : r.derived = []
  unaligned : r.version = .v16 → r.get? "QualifierAlignment" = some (.choice "Leave")

theorem keepsCommas_of_uninserted
    (uninserted : r.get? "InsertTrailingCommas" = some (.choice "None")) : r.KeepsCommas := by
  simp only [KeepsCommas, V12.trailingCommaBinPacking, view, uninserted]
  rfl

/-- A plain record is settled and keeps its laws. -/
theorem Plain.lawful (plain : r.Plain) : r.Settled ∧ r.KeepsLaws :=
  ⟨settled_of_derived plain.underived,
    (keepsCommas_of_uninserted plain.uninserted).keepsLaws plain.unaligned⟩

end StyleRecord

namespace Migration

open StyleRecord

variable {v a b target : Version} {language : Language} {fallback name style : String}
  {w top : Walk} {s : Step} {r : StyleRecord}

/-- What agrees with a style of one of the two highest versions is plain. -/
theorem plain_of_sketch {named : NamedStyle} (high : .v12 ≤ v) (listed : named ∈ v.schema.styles)
    (spoken : language ∈ v.schema.languages) (version : r.version = v)
    (agree : ∀ name ∈ lawFields, r.get? name = (named.sketch v language).get? name) : r.Plain := by
  have modern : v ∈ [Version.v12, .v16] := by
    revert high
    cases v <;> decide
  obtain ⟨uninserted, underived, unaligned⟩ := styles_lawful v modern named listed language spoken
  refine ⟨?_, ?_, fun highest => ?_⟩
  · rw [agree _ (by decide), uninserted]
  · rw [derived_congr version agree, underived]
  · rw [agree _ (by decide), unaligned (version.symm.trans highest)]

/-- A style is plain, with its presets written out. -/
theorem plain_of_expandedStyle (high : .v12 ≤ v)
    (styled : (expandedStyle v style language).outcome = .ok r) : r.Plain := by
  obtain ⟨-, version, -⟩ := native_of_expandedStyle styled
  obtain ⟨spoken, named, listed, -, holds⟩ := get?_of_expandedStyle styled
  exact plain_of_sketch high listed spoken version fun name law =>
    holds name (notMem_presetWrites law)

/-- **A style is settled and keeps its laws.** -/
theorem lawful_of_resolve (resolved : (Style.resolve v style language).outcome = .ok r) :
    r.Settled ∧ r.KeepsLaws := by
  obtain ⟨-, version, -⟩ := Style.native_of_resolve resolved
  obtain ⟨spoken, named, listed, -, sketched⟩ := Style.eq_sketch_of_resolve resolved
  rcases v.low_or_high with low | high
  · exact settled_of_le (version ▸ low)
  · exact (plain_of_sketch high listed spoken version fun _ _ => sketched ▸ rfl).lawful

/-! ## One step -/

/-- Between the two highest versions fields that laws look at are steady, or begin with the highest
one. The flag for trailing commas begins with the other one. -/
theorem lawFields_tables :
    (∀ a ∈ [Version.v12, .v16], ∀ b ∈ [Version.v12, .v16], a ≠ b →
      ∀ name ∈ ["InsertTrailingCommas", "BinPackArguments", "AlwaysBreakAfterDefinitionReturnType",
        "AlwaysBreakAfterReturnType"], a.steady b name = true) ∧
    (∀ name ∈ ["QualifierAlignment", "SpacesInLineCommentPrefix"],
      Version.v12.schema.field? name = none ∧
        name ∉ (transfers .v16 .v12).flatMap Transfer.sources) ∧
    Version.v3_6.schema.field? "InsertTrailingCommas" = none ∧
      "InsertTrailingCommas" ∉ (transfers .v12 .v3_6).flatMap Transfer.sources := by
  decide +kernel

/-- A step up holds a field that begins with it as the style does. -/
theorem Step.get?_next_of_begins (next : a.next? = some b) (between : s.Between a b)
    (begins : a.schema.field? name = none)
    (unread : name ∉ (FormatStyle.transfers b a).flatMap Transfer.sources) :
    s.next.get? name = s.after.get? name := by
  have moves := between.moves
  refine get?_next_of_untargeted fun target => ?_
  rcases Version.mem_targets_moves next (moves ▸ target) with read | known
  · exact unread read
  · rw [← Schema.field?_isSome_iff, begins] at known
    cases known

/-- Between the two highest versions a step keeps what laws of both look at. -/
theorem Step.get?_next_of_laws (adjacent : a.Adjacent b) (high : .v12 ≤ a) (high' : .v12 ≤ b)
    (between : s.Between a b)
    (listed : name ∈ ["InsertTrailingCommas", "BinPackArguments",
      "AlwaysBreakAfterDefinitionReturnType", "AlwaysBreakAfterReturnType"]) :
    s.next.get? name = s.record.get? name := by
  have ways : a ∈ [Version.v12, .v16] ∧ b ∈ [Version.v12, .v16] ∧ a ≠ b := by
    revert adjacent high high'
    cases a <;> cases b <;> decide
  refine get?_next_of_steady adjacent between
    (lawFields_tables.1 a ways.1 b ways.2.1 ways.2.2 name listed) ?_
  rintro rfl
  revert listed
  decide

/-- **A step keeps the law on commas**, which begins with the second highest version. -/
theorem Step.keepsCommas_next (adjacent : a.Adjacent b) (high' : .v12 ≤ b)
    (between : s.Between a b) (styled : (expandedStyle b style language).outcome = .ok s.after)
    (keeps : .v12 ≤ a → s.record.KeepsCommas) : s.next.KeepsCommas := by
  rcases a.low_or_high with low | high
  · -- The flag for trailing commas begins with the step, and is that of the style.
    obtain ⟨rfl, rfl⟩ : a = .v3_6 ∧ b = .v12 := by
      revert adjacent low high'
      cases a <;> cases b <;> decide
    have plain := plain_of_expandedStyle high' styled
    refine keepsCommas_of_uninserted ?_
    obtain ⟨-, -, begins, unread⟩ := lawFields_tables
    rw [Step.get?_next_of_begins rfl between begins unread, plain.uninserted]
  · refine (keepsCommas_congr fun name listed => ?_).mpr (keeps high)
    exact Step.get?_next_of_laws adjacent high high' between (List.mem_append_left [_, _] listed)

/-- A step up to the highest version leaves qualifiers alone, as the style does. -/
theorem Step.unaligned_next (adjacent : a.Adjacent b) (between : s.Between a b)
    (styled : (expandedStyle b style language).outcome = .ok s.after) (highest : b = .v16) :
    s.next.get? "QualifierAlignment" = some (.choice "Leave") := by
  obtain rfl := highest
  obtain rfl : a = .v12 := by
    revert adjacent
    cases a <;> decide
  have plain := plain_of_expandedStyle (show Version.v12 ≤ .v16 by decide) styled
  obtain ⟨begins, unread⟩ := lawFields_tables.2.1 _ List.mem_cons_self
  rw [Step.get?_next_of_begins rfl between begins unread, plain.unaligned between.target]

/-- **A step keeps laws**: from a record that keeps its laws it leads to one that does. -/
theorem Step.keepsLaws_next (adjacent : a.Adjacent b) (between : s.Between a b)
    (styled : (expandedStyle b style language).outcome = .ok s.after)
    (keeps : s.record.KeepsLaws) : s.next.KeepsLaws := by
  have version : s.next.version = b := version_next.trans between.target
  rcases b.low_or_high with low | high'
  · exact (settled_of_le (version ▸ low)).2
  have commas := Step.keepsCommas_next adjacent high' between styled fun high =>
    keeps.keepsCommas (between.source.symm ▸ high)
  exact commas.keepsLaws fun highest =>
    Step.unaligned_next adjacent between styled (version.symm.trans highest)

/-- **A step breaks no constraint**, finished or not, if none was broken. -/
theorem Step.unbroken_next (adjacent : a.Adjacent b) (between : s.Between a b)
    (styled : (expandedStyle b style language).outcome = .ok s.after)
    (unbroken : s.record.brokenConstraint? = none) : s.next.brokenConstraint? = none := by
  have version : s.next.version = b := version_next.trans between.target
  rcases b.low_or_high with low | high'
  · exact unbroken_of_le (version ▸ low)
  have commas := Step.keepsCommas_next adjacent high' between styled fun high =>
    keepsCommas_of_unbroken (between.source.symm ▸ high) unbroken
  exact commas.unbroken fun highest =>
    Step.unaligned_next adjacent between styled (version.symm.trans highest)

/-- **Between the two highest versions a step leaves nothing to derive**, if nothing was left. -/
theorem Step.settled_next (adjacent : a.Adjacent b) (high : .v12 ≤ a) (high' : .v12 ≤ b)
    (between : s.Between a b) (styled : (expandedStyle b style language).outcome = .ok s.after)
    (settled : s.record.Settled) : s.next.Settled := by
  have plain := plain_of_expandedStyle high' styled
  have version := version_next.trans between.target
  intro write member
  obtain ⟨f, listed, one, named⟩ := mem_derived_iff.mp member
  rw [version] at listed
  rcases (Version.footprints_high high').2 f listed with rfl | ⟨rfl, own⟩
  · -- The step keeps what the derivation looks at and assigns, and it was made before.
    have kept : ∀ name ∈ ["AlwaysBreakAfterDefinitionReturnType", "AlwaysBreakAfterReturnType"],
        s.next.get? name = s.record.get? name := fun name read =>
      Step.get?_next_of_laws adjacent high high' between (List.mem_append_right [_, _] read)
    have before : write ∈ s.record.derived := by
      refine mem_derived_iff.mpr ⟨_, between.source ▸ (Version.footprints_high high).1, ?_, named⟩
      rw [← one]
      exact ((b.footprints_local _ listed).congr kept).symm
    rw [kept write.1 (named ▸ List.mem_cons_of_mem _ List.mem_cons_self)]
    exact settled write before
  · -- The derivation looks at what the step takes from the style, in which nothing is derived.
    obtain rfl : a = .v12 := by
      revert adjacent
      cases a <;> decide
    have taken : ∀ name ∈ f.reads, s.next.get? name = s.after.get? name := fun name read =>
      have begins := lawFields_tables.2.1 name (own name read)
      Step.get?_next_of_begins rfl between begins.1 begins.2
    have made : write ∈ s.after.derived := by
      refine mem_derived_iff.mpr ⟨f, between.target ▸ listed, ?_, named⟩
      rw [← one]
      exact ((Version.footprints_local _ _ listed).congr taken).symm
    rw [plain.underived] at made
    cases made

/-! ## A whole walk -/

/-- **What each step of a walk keeps, the walk keeps**, from its record to the one that it arrives
at. By induction on the walk. -/
theorem preserves_of_walk {P : Version → StyleRecord → Prop}
    (keeps : ∀ {a b : Version} {s : Step} {style : String}, a.stepTowards target = some b →
      s.Between a b → (expandedStyle b style language).outcome = .ok s.after →
        P a s.record → P b s.next)
    (walked : (walk language fallback target v w).outcome = .ok top)
    (sound : w.Sound language v) (supported : v.schema.supports language = true)
    (supported' : target.schema.supports language = true) (starts : P v w.record) :
    P target top.record := by
  induction v, w, walked using walk_induction with
  | arrived => exact starts
  | step v next w w' towards advanced _ ih =>
    have supports := Version.supports_towards towards supported supported'
    obtain ⟨record, -, sound', -⟩ := advance_eq_ok sound towards supports advanced
    refine ih sound' supports ?_
    rw [record]
    exact keeps towards (sound.between sound') sound'.styled starts

/-- **A walk keeps laws**: from a record that keeps its laws it arrives at one that does. -/
theorem keepsLaws_of_walk (walked : (walk language fallback target v w).outcome = .ok top)
    (sound : w.Sound language v) (supported : v.schema.supports language = true)
    (supported' : target.schema.supports language = true) (keeps : w.record.KeepsLaws) :
    top.record.KeepsLaws :=
  preserves_of_walk (P := fun _ r => r.KeepsLaws)
    (fun towards => Step.keepsLaws_next (Version.adjacent_of_stepTowards towards))
    walked sound supported supported' keeps

/-- **A walk breaks no constraint**, finished or not, if none was broken. -/
theorem unbroken_of_walk (walked : (walk language fallback target v w).outcome = .ok top)
    (sound : w.Sound language v) (supported : v.schema.supports language = true)
    (supported' : target.schema.supports language = true)
    (unbroken : w.record.brokenConstraint? = none) : top.record.brokenConstraint? = none :=
  preserves_of_walk (P := fun _ r => r.brokenConstraint? = none)
    (fun towards => Step.unbroken_next (Version.adjacent_of_stepTowards towards))
    walked sound supported supported' unbroken

/-- **A walk between the two highest versions leaves nothing to derive**, if nothing was left. -/
theorem settled_of_walk (walked : (walk language fallback target v w).outcome = .ok top)
    (sound : w.Sound language v) (supported : v.schema.supports language = true)
    (supported' : target.schema.supports language = true) (high : .v12 ≤ v) (high' : .v12 ≤ target)
    (settled : w.record.Settled) : top.record.Settled := by
  refine (preserves_of_walk (P := fun a r => .v12 ≤ a ∧ r.Settled) ?_
    walked sound supported supported' ⟨high, settled⟩).2
  rintro a b s style towards between styled ⟨high, settled⟩
  have next_high : .v12 ≤ b := by
    rcases Version.between_of_stepTowards towards with ⟨up, -⟩ | ⟨down, -⟩
    · exact Nat.le_trans high up
    · exact Nat.le_trans high' down
  exact ⟨next_high, Step.settled_next (Version.adjacent_of_stepTowards towards) high next_high
    between styled settled⟩

/-! ## A whole migration -/

variable {text : String} {o : Options} {m : Migration}

/-- A walk starts with what was read in the fields that laws look at. -/
theorem Course.get?_start_of_law (course : Course text o) :
    ∀ name ∈ lawFields,
      course.start.record.get? name = course.configuration.record.get? name := fun name law =>
  have apart := lawFields_apart.2.2.2 o.source o.source.mem_all name law
  course.get?_start apart.1 apart.2

/-- **What is read on top of a style is settled and keeps its laws**, also where the text is blank.
-/
theorem lawful_of_read {ambient : StyleRecord} {c : Configuration}
    (resolved : (Style.resolve v style language).outcome = .ok ambient)
    (accepted : (Configuration.read v text language ambient).outcome = .ok c) :
    c.record.Settled ∧ c.record.KeepsLaws := by
  have styled := (Style.native_of_resolve resolved).1
  obtain ⟨-, native, -, -, -, read⟩ := Configuration.sound_of_read styled accepted
  split at read
  · -- A blank text stands for the style itself.
    obtain ⟨settled, keeps⟩ := lawful_of_resolve resolved
    have same : c.record.version = ambient.version ∧
        ∀ name ∈ lawFields, c.record.get? name = ambient.get? name := by
      rw [read]
      exact ⟨rfl, fun _ _ => rfl⟩
    exact ⟨(settled_congr same.1 same.2).mpr settled,
      (keepsLaws_congr styled.stores native.stores same.1 same.2).mpr keeps⟩
  · exact ⟨read.2, read.2.keepsLaws read.1⟩

/-- **A walk starts from a settled record that keeps its laws.** -/
theorem Course.lawful_start (course : Course text o) :
    course.start.record.Settled ∧ course.start.record.KeepsLaws := by
  obtain ⟨-, native, version, -⟩ := Configuration.sound_of_read
    (Style.native_of_resolve course.resolved).1 course.accepted
  have lawful := lawful_of_read course.resolved course.accepted
  have same := course.sound.version.trans version.symm
  exact ⟨(settled_congr same course.get?_start_of_law).mpr lawful.1,
    (keepsLaws_congr native.stores course.sound.native.stores same
      course.get?_start_of_law).mpr lawful.2⟩

/-- What is delivered is native, and holds what has arrived, for the version and the language that
are asked for. -/
theorem delivered_record (course : Course text o)
    (delivered : deliver o course.configuration.record.inheritsParent course.top = .ok m) :
    m.record.Native ∧ m.record.version = o.target ∧ m.record.language = o.language ∧
      ∀ name, m.record.get? name = course.top.record.get? name := by
  obtain ⟨record, -⟩ := deliver_eq_ok delivered
  obtain ⟨native, -⟩ := native_keepInheritance course.configuration.record.inheritsParent
    course.arrived.native
  have same : ∀ inherits w, (keepInheritance inherits w).record.version = w.record.version ∧
      (keepInheritance inherits w).record.language = w.record.language ∧
      (keepInheritance inherits w).record.values = w.record.values := by
    intro inherits w
    unfold keepInheritance
    split
    · split <;> exact ⟨rfl, rfl, rfl⟩
    · exact ⟨rfl, rfl, rfl⟩
  obtain ⟨version, language, values⟩ := same course.configuration.record.inheritsParent course.top
  rw [record]
  refine ⟨native, version.trans course.arrived.version, language.trans course.arrived.tag,
    fun name => ?_⟩
  unfold get? StyleRecord.schema
  rw [version, values]

/-- **What is delivered keeps its laws** once it is finished. -/
theorem Course.keepsLaws (course : Course text o)
    (delivered : deliver o course.configuration.record.inheritsParent course.top = .ok m) :
    m.record.KeepsLaws := by
  obtain ⟨native, version, -, holds⟩ := delivered_record course delivered
  have arrived := keepsLaws_of_walk course.walked course.sound course.supports course.supported
    course.lawful_start.2
  exact (keepsLaws_congr course.arrived.native.stores native.stores
    (version.trans course.arrived.version.symm) fun name _ => holds name).mpr arrived

/-- **What is delivered breaks no constraint**, finished or not. -/
theorem Course.unbroken (course : Course text o)
    (delivered : deliver o course.configuration.record.inheritsParent course.top = .ok m) :
    m.record.brokenConstraint? = none := by
  obtain ⟨-, version, -, holds⟩ := delivered_record course delivered
  obtain ⟨settled, keeps⟩ := course.lawful_start
  have started : course.start.record.brokenConstraint? = none := by
    rw [KeepsLaws, putAll_of_holds settled] at keeps
    exact keeps
  have arrived :=
    unbroken_of_walk course.walked course.sound course.supports course.supported started
  rw [brokenConstraint?_congr (version.trans course.arrived.version.symm) fun name _ => holds name]
  exact arrived

/-- **What is delivered leaves nothing to derive** where no step leads up to the two highest
versions. -/
theorem Course.settled (course : Course text o)
    (delivered : deliver o course.configuration.record.inheritsParent course.top = .ok m)
    (apart : .v12 ≤ o.source ∨ o.target ≤ .v3_6) : m.record.Settled := by
  obtain ⟨-, version, -, holds⟩ := delivered_record course delivered
  rcases o.target.low_or_high with low | high'
  · exact (settled_of_le (version ▸ low)).1
  have high : .v12 ≤ o.source := apart.resolve_right fun low =>
    absurd (Nat.le_trans high' low) (by decide)
  have arrived := settled_of_walk course.walked course.sound course.supports course.supported high
    high' course.lawful_start.1
  exact (settled_congr (version.trans course.arrived.version.symm) fun name _ => holds name).mpr
    arrived

end Migration

end FormatStyle
