import FormatStyle.Proofs.Delivered
import FormatStyle.Proofs.Normal

/-! # Migration within one version

Within one version nothing is carried over: a migration writes out the presets of what is read and
names them again, and delivers that (`Migration.migrate_of_unmoved`). It is a normal form
(`Migration.settled_normal`). The text of it may say the style by another name, or no style at all,
but it is read as a record with the same meaning, so the same migration of it delivers it once more
(`Migration.migrate_within`).
-/

namespace FormatStyle

open StyleRecord

namespace Migration

variable {text : String} {o : Options} {c : Configuration} {m : Migration} {n : StyleRecord}

/-- Records with one meaning are settled alike. -/
private theorem settled_of_sameExpansion {a b : StyleRecord} (same : SameExpansion a b) :
    settled a = settled b := by
  obtain ⟨expanded, expand, expand'⟩ := same
  rw [settled, settled, expand, expand']

/-- **A settled record is in normal form**: it differs from what it was settled from, written out,
in selectors only, and settles as it is. -/
theorem settled_normal {r : StyleRecord} (native : r.Native) :
    ∃ expanded n, r.expand = .ok expanded ∧ settled r = .ok n ∧ SameTags n expanded ∧
      (∀ name ∉ expanded.selectors, n.get? name = expanded.get? name) ∧ settled n = .ok n := by
  obtain ⟨expanded, n, expand, collapse, -, changes, again, fixed⟩ :=
    exists_normal native.wellFormed
  refine ⟨expanded, n, expand, ?_, changes.sameTags, changes.get?_eq, ?_⟩
  · rw [settled, expand, Outcome.ok_bind, collapse]
  · rw [settled, again, Outcome.ok_bind, fixed]

/-- What a record inherits is kept where it stays. -/
private theorem keepInheritance_self {w : Walk} (native : w.record.Native) :
    keepInheritance w.record.inheritsParent w = w := by
  unfold keepInheritance
  split
  · rename_i inherits
    rw [if_pos (native.inherits inherits), ← inherits]
  · rfl

/-- **Within one version** what is read is delivered settled, next to the style that the text says,
and nothing is lost. -/
theorem migrate_of_unmoved {baseline : Option StyleRecord} {written : String}
    (accepts : Accepts text o c) (unmoved : o.source = o.target)
    (settles : settled c.record = .ok n)
    (compared : baseline? o (saidStyle (Text.lower o.fallbackStyle) c.basedOn) = .ok baseline)
    (writes : (n.write baseline).outcome = .ok written) :
    (migrate text o).outcome =
      .ok ⟨written, n, saidStyle (Text.lower o.fallbackStyle) c.basedOn, []⟩ := by
  obtain ⟨ambient, resolved, accepted⟩ := accepts
  obtain ⟨supports, native, -⟩ :=
    Configuration.sound_of_read (Style.native_of_resolve resolved).1 accepted
  obtain ⟨start, settles', style, lossless, sound, migrates⟩ :=
    migrate_of_accepted (unmoved ▸ supports) resolved accepted
  obtain rfl := Except.ok.inj (settles'.symm.trans settles)
  obtain ⟨_, same, -, tags, -⟩ := settled_isOk native
  obtain rfl := Except.ok.inj (same.symm.trans settles)
  rw [migrates, unmoved, outcome_walk_self, Outcome.ok_bind, ← tags.2.2]
  unfold deliver
  simp only [keepInheritance_self sound.native, style, lossless, compared, writes, Outcome.ok_bind,
    Outcome.pure_eq]

/-- **The text of a record is accepted on top of the fallback**, as a record with its meaning, and
it is compared with what the record was compared with. -/
theorem accepts_written {style : String} {baseline : Option StyleRecord} {mapping : Yaml.Mapping}
    {ambient : StyleRecord} (native : n.Native) (version : n.version = o.source)
    (tag : n.language = o.language) (settled : n.Settled) (keeps : n.KeepsLaws)
    (unmoved : o.source = o.target) (known : style ∈ o.source.schema.styleNames)
    (inherits : n.inheritsParent = true → style = Text.lower o.fallbackStyle)
    (resolved : (Style.resolve o.source (Text.lower o.fallbackStyle) o.language).outcome =
      .ok ambient)
    (compared : baseline? o style = .ok baseline)
    (mapped : (n.toMapping baseline).outcome = .ok mapping)
    (kept : Configuration.ReadsBack mapping) :
    ∃ c, Accepts (frame mapping) o c ∧ SameExpansion c.record n ∧
      baseline? o (saidStyle (Text.lower o.fallbackStyle) c.basedOn) = .ok baseline := by
  have meaning : ∀ {t : StyleRecord} {style : String},
      (Style.resolve o.source style o.language).outcome = .ok t → SameExpansion (n.reread t) n := by
    intro t style resolved
    obtain ⟨each, version', -⟩ := Style.native_of_resolve resolved
    have same := sameExpansion_reread native each.wellFormed (version'.trans version.symm)
    rwa [putAll_of_holds settled] at same
  cases skip : o.skipSame with
  | false =>
    have anything : ∀ style, baseline? o style = .ok none := fun style => by
      rw [baseline?, skip, if_neg Bool.false_ne_true]
    obtain rfl := Except.ok.inj ((anything style).symm.trans compared)
    obtain ⟨basedOn, read⟩ := Configuration.outcome_read_frame_lawful native version tag keeps
      resolved (by rintro _ ⟨⟩) mapped kept
    exact ⟨_, ⟨ambient, resolved, read⟩, meaning resolved, anything _⟩
  | true =>
    have names : ∀ style, baseline? o style =
        some <$> (Style.resolve o.source style o.language).outcome := fun style => by
      rw [baseline?, skip, if_pos rfl, unmoved]
    rw [names] at compared
    obtain ⟨b, resolved_b, rfl⟩ := Outcome.map_eq_ok_iff.mp compared
    have beside : n.inheritsParent = true → b = ambient := fun parent =>
      Except.ok.inj (resolved_b.symm.trans (inherits parent ▸ resolved))
    obtain ⟨basedOn, read, again⟩ := Configuration.read_beside_style native version tag keeps known
      resolved_b resolved beside mapped kept
    exact ⟨_, ⟨ambient, resolved, read⟩, meaning resolved_b, by rw [names, again, Outcome.map_ok]⟩

/-- **Migration within one version is a normal form.** It loses nothing, and its record is what was
read, written out, in all but selectors. Its text is read on top of its style with the same meaning,
and the same migration of its text delivers the same text and record. -/
theorem migrate_within (accepts : Accepts text o c) (unmoved : o.source = o.target)
    (kept : ∀ m baseline mapping, (migrate text o).outcome = .ok m →
      baseline? o m.style = .ok baseline → (m.record.toMapping baseline).outcome = .ok mapping →
        Configuration.ReadsBack mapping) :
    ∃ m, (migrate text o).outcome = .ok m ∧ m.losses = [] ∧
      m.style = saidStyle (Text.lower o.fallbackStyle) c.basedOn ∧
      (∃ expanded, c.record.expand = .ok expanded ∧ SameTags m.record expanded ∧
        ∀ name ∉ expanded.selectors, m.record.get? name = expanded.get? name) ∧
      (∃ ambient c', (Style.resolve o.target m.style o.language).outcome = .ok ambient ∧
        (Configuration.read o.target m.text o.language ambient).outcome = .ok c' ∧
        SameExpansion c'.record m.record) ∧
      ∃ m', (migrate m.text o).outcome = .ok m' ∧ m'.text = m.text ∧ m'.record = m.record ∧
        m'.losses = [] := by
  obtain ⟨ambient, resolved, accepted⟩ := id accepts
  obtain ⟨-, known, parent⟩ := Configuration.saidStyle_of_read resolved accepted
  obtain ⟨supports, native, version, tag, -⟩ :=
    Configuration.sound_of_read (Style.native_of_resolve resolved).1 accepted
  obtain ⟨n, settles, native_n, tags, -⟩ := settled_isOk native
  obtain ⟨expanded, n', expand, settles', same, frame, again⟩ := settled_normal native
  obtain rfl := Except.ok.inj (settles.symm.trans settles')
  obtain ⟨baseline, compared⟩ := baseline?_isOk (unmoved ▸ supports) (unmoved ▸ known)
  obtain ⟨written, writes⟩ := write_isOk native_n baseline
  have migrated := migrate_of_unmoved accepts unmoved settles compared writes
  obtain ⟨mapping, mapped, framed⟩ :=
    Outcome.map_eq_ok_iff.mp ((Traced.outcome_map _ _).symm.trans writes)
  have kept' := fun baseline mapping => kept _ baseline mapping migrated
  obtain ⟨course, delivered⟩ := exists_course migrated
  have finished : n.Settled := course.settled delivered
    (unmoved ▸ (o.source.low_or_high.symm))
  obtain ⟨top, _, resolved_top, top_native, top_version, read⟩ :=
    course.outcome_read_text delivered kept'
  have meaning := sameExpansion_reread native_n top_native.wellFormed top_version
  rw [putAll_of_holds finished] at meaning
  obtain ⟨c', accepts', same', compared'⟩ := accepts_written native_n (tags.1.trans version)
    (tags.2.1.trans tag) finished (course.keepsLaws delivered) unmoved known
    (fun inherits => parent (tags.2.2 ▸ inherits)) resolved compared mapped
    (kept' baseline mapping compared mapped)
  rw [framed] at accepts'
  have settles_again := (settled_of_sameExpansion same').trans again
  exact ⟨_, migrated, rfl, rfl, ⟨expanded, expand, same, frame⟩,
    ⟨top, _, resolved_top, read, meaning⟩, _,
    migrate_of_unmoved accepts' unmoved settles_again compared' writes, rfl, rfl, rfl⟩

/-- A line length is accepted under the third version, and it is words that are written there. -/
private theorem accepts_columnLimit_unmoved :
    ∃ c, Accepts "ColumnLimit: 100\n" ⟨.v12, .v12, .cpp, "llvm", true⟩ c ∧
      (migratedMapping ⟨.v12, .v12, .cpp, "llvm", true⟩ c).toOption.any Yaml.isWordMapping =
        true :=
  accepts_of_mappings (by decide) (by decide) mappings_columnLimit (by decide +kernel)

/-- A line length, migrated within the third version, and its text again. -/
theorem migrate_within_columnLimit :
    let text := "ColumnLimit: 100\n"
    let o : Options := ⟨.v12, .v12, .cpp, "llvm", true⟩
    ∃ c, Accepts text o c ∧ o.source = o.target ∧
      (∀ m baseline mapping, (migrate text o).outcome = .ok m →
        baseline? o m.style = .ok baseline → (m.record.toMapping baseline).outcome = .ok mapping →
          Configuration.ReadsBack mapping) ∧
      ∃ m, (migrate text o).outcome = .ok m ∧ m.losses = [] ∧
        m.style = saidStyle (Text.lower "llvm") c.basedOn ∧
        (∃ expanded, c.record.expand = .ok expanded ∧ SameTags m.record expanded ∧
          ∀ name ∉ expanded.selectors, m.record.get? name = expanded.get? name) ∧
        (∃ ambient c', (Style.resolve .v12 m.style .cpp).outcome = .ok ambient ∧
          (Configuration.read .v12 m.text .cpp ambient).outcome = .ok c' ∧
          SameExpansion c'.record m.record) ∧
        ∃ m', (migrate m.text o).outcome = .ok m' ∧ m'.text = m.text ∧ m'.record = m.record ∧
          m'.losses = [] := by
  intro text o
  obtain ⟨c, accepts, words⟩ := accepts_columnLimit_unmoved
  have kept : ∀ m baseline mapping, (migrate text o).outcome = .ok m →
      baseline? o m.style = .ok baseline → (m.record.toMapping baseline).outcome = .ok mapping →
        Configuration.ReadsBack mapping :=
    fun _ baseline mapping migrated => readsBack_migrated accepts words migrated baseline mapping
  exact ⟨c, accepts, rfl, kept, migrate_within accepts rfl kept⟩

end Migration

end FormatStyle
