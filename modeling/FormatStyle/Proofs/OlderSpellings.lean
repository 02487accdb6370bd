import FormatStyle.Proofs.Agreement
import FormatStyle.Proofs.LegacySteps

/-! # Older spellings

The steps of reading a document pass by the fields that they are not about, so an older spelling may
as well be read just before the key of its field. There the key of another name means what the older
name means, and the key of the field itself has the last word (`Configuration.older_spellings`).
-/

namespace FormatStyle

open StyleRecord
open Yaml (Node Mapping)
open Outcome (Carries)

/-! ## Renaming and leaving out keys -/

namespace Yaml.Mapping

variable {m : Mapping} {old new key : String} {names : List String}

/-- **A mapping with a key renamed.** -/
def rename (m : Mapping) (old new : String) : Mapping :=
  m.map fun entry => if entry.1.str? = some old then (.str new, entry.2) else entry

/-- **A mapping without some keys.** -/
def without (m : Mapping) (names : List String) : Mapping :=
  m.filter fun entry => !entry.1.str?.any names.contains

theorem get?_rename : (m.rename old new).get? key = (m.find? fun entry =>
    (if entry.1.str? = some old then some new else entry.1.str?) == some key).map (·.2) := by
  unfold rename Mapping.get?
  rw [List.find?_map, Option.map_map]
  have keys : ((fun entry : Node × Node => entry.1.str? == some key) ∘ fun entry =>
      if entry.1.str? = some old then (Node.str new, entry.2) else entry) =
        fun entry => (if entry.1.str? = some old then some new else entry.1.str?) == some key := by
    funext entry
    dsimp only [Function.comp_apply]
    split <;> rfl
  have values : ((·.2) ∘ fun entry : Node × Node =>
      if entry.1.str? = some old then (Node.str new, entry.2) else entry) = (·.2) := by
    funext entry
    dsimp only [Function.comp_apply]
    split <;> rfl
  rw [keys, values]

/-- What was under the old key is under the new one, which was free. -/
theorem get?_rename_new (absent : m.get? new = none) :
    (m.rename old new).get? new = m.get? old := by
  rw [get?_rename, Mapping.get?, List.find?_congr fun entry member => ?_]
  rw [Mapping.get?, Option.map_eq_none_iff, List.find?_eq_none] at absent
  have free := absent entry member
  by_cases hit : entry.1.str? = some old <;> simp_all

/-- Nothing is under the old key any more. -/
theorem get?_rename_old (apart : old ≠ new) : (m.rename old new).get? old = none := by
  rw [get?_rename, Option.map_eq_none_iff, List.find?_eq_none]
  intro entry _
  by_cases hit : entry.1.str? = some old <;> simp [hit, apart.symm]

theorem get?_rename_of_ne (apart : key ≠ old) (apart' : key ≠ new) :
    (m.rename old new).get? key = m.get? key := by
  rw [get?_rename, Mapping.get?, List.find?_congr fun entry _ => ?_]
  by_cases hit : entry.1.str? = some old
  · simp [hit, apart.symm, apart'.symm]
  · simp [hit]

theorem get?_without_of_mem (named : key ∈ names) : (m.without names).get? key = none := by
  unfold without Mapping.get?
  rw [List.find?_filter, Option.map_eq_none_iff, List.find?_eq_none]
  intro entry _ found
  obtain ⟨kept, hit⟩ := of_decide_eq_true found
  rw [beq_iff_eq.mp hit, Option.any_some, List.contains_iff_mem.mpr named] at kept
  cases kept

theorem get?_without_of_notMem (unnamed : key ∉ names) :
    (m.without names).get? key = m.get? key := by
  unfold without Mapping.get?
  rw [List.find?_filter, List.find?_congr fun entry _ => ?_]
  by_cases hit : entry.1.str? = some key
  · simp [hit, unnamed]
  · simp [hit]

end Yaml.Mapping

/-! ## The turn of an older spelling -/

/-- **Where an older spelling and its field come** among the steps of reading a document. -/
structure Turn (v : Version) (legacy : Legacy) (field : Field) where
  replaces : legacy.Replaces field.name
  front : List Legacy
  back : List Legacy
  earlier : List Field
  later : List Field
  legacies : v.schema.legacy = front ++ legacy :: back
  fields : v.schema.fields = earlier ++ field :: later

namespace Turn

open Document

variable {v : Version} {legacy : Legacy} {field : Field} {m m' : Mapping}
  {basedOn : Option String} {r start filled : StyleRecord} {name : String}

/-- An older spelling has its turn, and so has the field that it stands for. -/
theorem exists_turn (listed : legacy ∈ v.schema.legacy) (replaces : legacy.Replaces name) :
    ∃ field, field.name = name ∧ legacy.About field.name ∧
      (∃ kind, field.kind = .scalar kind) ∧ Nonempty (Turn v legacy field) := by
  obtain ⟨other, known, about⟩ := Outcome.exists_of_mem_left v.legacy_about listed
  obtain rfl := replaces.eq about
  obtain ⟨kind, simple⟩ := Option.isSome_iff_exists.mp (v.legacy_apart.2.2 name known)
  obtain ⟨field, found, scalar⟩ := Schema.field?_of_scalarKind? simple
  have named := Schema.name_of_field? found
  obtain ⟨front, back, legacies⟩ := List.append_of_mem listed
  obtain ⟨earlier, later, fields⟩ := List.append_of_mem (Schema.mem_of_field? found)
  exact ⟨field, named, by rwa [named], ⟨kind, scalar⟩,
    ⟨⟨by rwa [named], front, back, earlier, later, legacies, fields⟩⟩⟩

variable (turn : Turn v legacy field)

/-- The steps before an older spelling. -/
def before (m : Mapping) (basedOn : Option String) : StyleRecord → Except StyleError StyleRecord :=
  turn.front.foldlM fun r legacy => (readLegacy m basedOn r legacy).outcome

/-- The steps between an older spelling and the key of its field. -/
def between (m : Mapping) (basedOn : Option String) (r : StyleRecord) :
    Except StyleError StyleRecord :=
  turn.back.foldlM (fun r legacy => (readLegacy m basedOn r legacy).outcome) r >>=
    turn.earlier.foldlM fun r field => (readField m r field).outcome

/-- The steps after the key of the field. -/
def after (m : Mapping) : StyleRecord → Except StyleError StyleRecord :=
  turn.later.foldlM fun r field => (readField m r field).outcome

/-- **The edits of a document**, around the turn of an older spelling. -/
theorem edit_eq : edit v m basedOn start =
    turn.before m basedOn start >>= fun r => (readLegacy m basedOn r legacy).outcome >>= fun r =>
      turn.between m basedOn r >>= fun r => (readField m r field).outcome >>= turn.after m := by
  unfold edit before between after
  rw [turn.legacies, turn.fields]
  simp only [List.foldlM_append, List.foldlM_cons, bind_assoc]

/-- Older spellings that come later are about other fields. -/
private theorem about_back : ∀ other ∈ turn.back, ∃ name, other.About name ∧ field.name ≠ name := by
  have abouts := v.legacy_about
  have distinct := v.legacy_apart.1
  rw [turn.legacies] at abouts
  obtain ⟨front, back, split, -, abouts⟩ := Outcome.forall₂_append_left_iff.mp abouts
  obtain ⟨own, rest, about, later, rfl⟩ := List.forall₂_cons_left_iff.mp abouts
  obtain same := turn.replaces.eq about
  rw [split, ← same] at distinct
  have fresh := (List.nodup_cons.mp distinct.of_append_right).1
  intro other member
  obtain ⟨name, listed, about'⟩ := Outcome.exists_of_mem_left later member
  exact ⟨name, about', fun same => fresh (same ▸ listed)⟩

/-- Other older spellings have other names. -/
private theorem names_apart : ∀ other ∈ turn.front ++ turn.back, ∀ key ∈ other.names,
    key ∉ legacy.names := by
  have distinct := (List.nodup_flatMap.mp v.legacy_apart.2.1).2
  rw [turn.legacies, List.pairwise_append, List.pairwise_cons] at distinct
  obtain ⟨-, ⟨back, -⟩, front⟩ := distinct
  intro other member key named own
  rcases List.mem_append.mp member with member | member
  · exact front other member legacy List.mem_cons_self named own
  · exact back other member own named

/-- Other fields have other names. -/
theorem fields_apart : ∀ other ∈ turn.earlier ++ turn.later, field.name ≠ other.name := by
  have distinct := v.nodup_names
  rw [Schema.names, turn.fields, List.map_append, List.map_cons, List.nodup_middle,
    List.nodup_cons, ← List.map_append] at distinct
  exact fun other member same => distinct.1 (same ▸ List.mem_map_of_mem member)

/-- **The steps in between pass the field by.** -/
theorem between_passesBy : PassesBy field.name (turn.between m basedOn) := by
  refine PassesBy.andThen (PassesBy.foldlM fun other member => ?_)
    (PassesBy.foldlM fun other member => ?_)
  · obtain ⟨name, about, apart⟩ := turn.about_back other member
    exact readLegacy_passesBy about apart
  · exact readField_passesBy (turn.fields_apart other (List.mem_append_left _ member))

/-- **Mappings that differ in the turn only**: they agree on all keys but the names of the older
spelling and of its field. -/
def Agree (_turn : Turn v legacy field) (m m' : Mapping) : Prop :=
  ∀ key, key ∉ legacy.names → key ≠ field.name → m'.get? key = m.get? key

variable {turn}

theorem Agree.symm {turn : Turn v legacy field} (agree : turn.Agree m m') : turn.Agree m' m :=
  fun key unnamed apart => (agree key unnamed apart).symm

theorem known (turn : Turn v legacy field) : field.name ∈ v.schema.names := by
  rw [Schema.names, turn.fields]
  simp

theorem listed (turn : Turn v legacy field) : legacy ∈ v.schema.legacy := by
  rw [turn.legacies]
  simp

theorem Agree.readLegacy_eq (agree : turn.Agree m m') {other : Legacy}
    (member : other ∈ turn.front ++ turn.back) :
    readLegacy m' basedOn r other = readLegacy m basedOn r other := by
  refine readLegacy_congr fun key named => agree key (turn.names_apart other member key named) ?_
  have listed : other ∈ v.schema.legacy := by
    rw [turn.legacies]
    exact List.mem_append.mpr ((List.mem_append.mp member).imp_right (List.mem_cons_of_mem _))
  rintro rfl
  exact (v.keys_apart.2.2.1 other listed _ named).1 turn.known

theorem Agree.readField_eq (agree : turn.Agree m m') {other : Field}
    (member : other ∈ turn.earlier ++ turn.later) :
    readField m' r other = readField m r other := by
  have same : m'.get? other.name = m.get? other.name := by
    refine agree other.name (fun named => ?_) (turn.fields_apart other member).symm
    have known : other.name ∈ v.schema.names := by
      rw [Schema.names, turn.fields]
      rcases List.mem_append.mp member with member | member <;>
        simp [List.mem_map_of_mem member]
    exact (v.keys_apart.2.2.1 legacy turn.listed _ named).1 known
  simp only [readField, same]

/-- **Mappings that differ in the turn only make the same other edits.** -/
theorem Agree.steps_eq (agree : turn.Agree m m') (basedOn : Option String) :
    turn.before m' basedOn = turn.before m basedOn ∧
      turn.between m' basedOn = turn.between m basedOn ∧ turn.after m' = turn.after m := by
  have legacies : ∀ {l : List Legacy}, l ⊆ turn.front ++ turn.back → ∀ r,
      l.foldlM (fun r legacy => (readLegacy m' basedOn r legacy).outcome) r =
        l.foldlM (fun r legacy => (readLegacy m basedOn r legacy).outcome) r :=
    fun within => Outcome.foldlM_congr fun other member r => by
      rw [agree.readLegacy_eq (within member)]
  have fields : ∀ {l : List Field}, l ⊆ turn.earlier ++ turn.later → ∀ r,
      l.foldlM (fun r field => (readField m' r field).outcome) r =
        l.foldlM (fun r field => (readField m r field).outcome) r :=
    fun within => Outcome.foldlM_congr fun other member r => by
      rw [agree.readField_eq (within member)]
  refine ⟨funext (legacies (List.subset_append_left _ _)), funext fun r => ?_,
    funext (fields (List.subset_append_right _ _))⟩
  unfold between
  rw [legacies (List.subset_append_right _ _)]
  exact bind_congr (fields (List.subset_append_left _ _))

variable {c : StyleRecord} {kind : ScalarKind} {node : Node}

/-- What holds between two steps and the steps around them. -/
theorem edit_eq_ok_iff (turn : Turn v legacy field) : edit v m basedOn start = .ok c ↔
    ∃ r renewed passed filled, turn.before m basedOn start = .ok r ∧
      (readLegacy m basedOn r legacy).outcome = .ok renewed ∧
      turn.between m basedOn renewed = .ok passed ∧
      (readField m passed field).outcome = .ok filled ∧ turn.after m filled = .ok c := by
  rw [turn.edit_eq]
  simp only [Outcome.bind_eq_ok_iff, exists_and_left]

/-- The steps around the turn keep the version. -/
theorem version_of_before (begun : turn.before m basedOn start = .ok r) :
    r.version = start.version :=
  (Becomes.of_foldlM (fun _ => .of_readLegacy) begun).sameTags.1

theorem version_of_between (passes : turn.between m basedOn start = .ok r) :
    r.version = start.version := by
  obtain ⟨next, first, rest⟩ := Outcome.bind_eq_ok_iff.mp passes
  exact ((Becomes.of_foldlM (fun _ => .of_readLegacy) first).trans
    (.of_foldlM (fun _ => .of_readField) rest)).sameTags.1

/-- A step in between leads from a changed field to where it leads without the change. -/
theorem between_put_eq_ok_iff {value : Value} :
    turn.between m basedOn (r.put field.name value) = .ok filled ↔
      ∃ passed, turn.between m basedOn r = .ok passed ∧ filled = passed.put field.name value := by
  rw [turn.between_passesBy r value, Outcome.map_eq_ok_iff]
  exact exists_congr fun passed => and_congr_right fun _ => eq_comm

/-- **An older name means what the name of the field means**: the field gets its value sooner, and
all that is done before its own turn passes it by. -/
theorem edit_renamed_iff (turn : Turn v (.synonym name field.name) field)
    (simple : field.kind = .scalar kind) (version : start.version = v)
    (held : m.get? name = some node) (absent : m.get? field.name = none)
    (held' : m'.get? field.name = some node) (absent' : m'.get? name = none)
    (agree : turn.Agree m m') :
    edit v m basedOn start = .ok c ↔ edit v m' basedOn start = .ok c := by
  have found : ∀ {r : StyleRecord}, r.version = v → r.schema.field? field.name = some field := by
    rintro r rfl
    exact Version.field?_of_mem (by rw [turn.fields]; simp)
  obtain ⟨before, between, after⟩ := agree.steps_eq basedOn
  rw [turn.edit_eq_ok_iff, turn.edit_eq_ok_iff, before, between, after]
  have skipped : ∀ r, (readLegacy m' basedOn r (.synonym name field.name)).outcome = .ok r :=
    fun r => readLegacy_absent (by simpa [Legacy.names] using absent')
  constructor
  · rintro ⟨r, renewed, passed, filled, begun, said, passes, kept, rest⟩
    have version' := (turn.version_of_before begun).trans version
    obtain ⟨value, reads, rfl⟩ := (readSynonym_eq_ok_iff simple (found version') held).mp said
    -- The steps in between carry the value along, so it may as well be put after them.
    obtain ⟨passed, passes', rfl⟩ := turn.between_put_eq_ok_iff.mp passes
    rw [readField_absent absent, Except.ok.injEq] at kept
    have version'' := (turn.version_of_between passes').trans version'
    exact ⟨r, r, passed, filled, begun, skipped r, passes',
      (readField_eq_ok_iff simple (found version'') held').mpr ⟨value, reads, kept.symm⟩, rest⟩
  · rintro ⟨r, renewed, passed, filled, begun, kept, passes, said, rest⟩
    rw [skipped, Except.ok.injEq] at kept
    subst kept
    have version' := (turn.version_of_before begun).trans version
    have version'' := (turn.version_of_between passes).trans version'
    obtain ⟨value, reads, rfl⟩ := (readField_eq_ok_iff simple (found version'') held').mp said
    exact ⟨r, _, _, _, begun,
      (readSynonym_eq_ok_iff simple (found version') held).mpr ⟨value, reads, rfl⟩,
      turn.between_put_eq_ok_iff.mpr ⟨passed, passes, rfl⟩, readField_absent absent, rest⟩

/-- **The key of a field has the last word**: whatever an older spelling says, the field gets the
value of its own key. -/
theorem edit_without (turn : Turn v legacy field) (about : legacy.About field.name)
    (simple : field.kind = .scalar kind) (version : start.version = v)
    (held : m.get? field.name = some node) (held' : m'.get? field.name = some node)
    (absent' : ∀ key ∈ legacy.names, m'.get? key = none) (agree : turn.Agree m m')
    (edited : edit v m basedOn start = .ok c) : edit v m' basedOn start = .ok c := by
  have found : ∀ {r : StyleRecord}, r.version = v → r.schema.field? field.name = some field := by
    rintro r rfl
    exact Version.field?_of_mem (by rw [turn.fields]; simp)
  obtain ⟨before, between, after⟩ := agree.steps_eq basedOn
  rw [turn.edit_eq_ok_iff] at edited ⊢
  rw [before, between, after]
  obtain ⟨r, renewed, passed, filled, begun, said, passes, own, rest⟩ := edited
  have version' := (turn.version_of_before begun).trans version
  obtain ⟨value, rfl⟩ := exists_put_of_readLegacy about said
  obtain ⟨passed, passes', rfl⟩ := turn.between_put_eq_ok_iff.mp passes
  have version'' := (turn.version_of_between passes').trans version'
  obtain ⟨value', reads, rfl⟩ :=
    (readField_eq_ok_iff simple (found (version_put.trans version'')) held).mp own
  -- The key of the field replaces whatever has been carried along to it.
  rw [put_put] at rest
  exact ⟨r, r, passed, _, begun, readLegacy_absent absent', passes',
    (readField_eq_ok_iff simple (found version'') held').mpr ⟨value', reads, rfl⟩, rest⟩

end Turn

namespace Document

variable {v : Version} {requested : Language} {m m' : Mapping} {legacy : Legacy} {field : Field}
  {name target : String} {node : Node}

/-- **Mappings that differ in a turn only are read alike** if their edits and their keys are. -/
theorem readLike_of_turn {turn : Turn v legacy field} (agree : turn.Agree m m')
    (edits : ∀ basedOn start, start.version = v →
      Carries (edit v m basedOn start) (edit v m' basedOn start))
    (keys : Carries (checkKeys v.schema m).outcome (checkKeys v.schema m').outcome) :
    ReadLike v requested m m' := by
  obtain ⟨language, based, legacies, -⟩ := v.keys_apart
  have named : ∀ key ∉ v.schema.names, key = languageKey ∨ key = basedOnKey →
      m'.get? key = m.get? key := by
    intro key unknown special
    refine agree key (fun own => ?_) fun same => unknown (same ▸ turn.known)
    obtain ⟨-, apart, apart'⟩ := legacies legacy turn.listed key own
    exact special.elim apart apart'
  have spoken := named languageKey language (.inl rfl)
  have starts := named basedOnKey based (.inr rfl)
  refine ⟨.of_eq ?_, fun template _ => .of_eq ?_, edits, keys⟩
  · simp only [readLanguage, spoken]
  · simp only [readBase, starts]

/-- The new name of a renamed key is known if the old one is. -/
private theorem checkKey_renamed (listed : .synonym name target ∈ v.schema.legacy)
    (known : target ∈ v.schema.names) :
    (checkKeys v.schema m).outcome = .ok () ↔
      (checkKeys v.schema (m.rename name target)).outcome = .ok () := by
  have old : (checkKey v.schema (.str name)).outcome = .ok () := by
    have knows : knows v.schema name = true := by
      have own : v.schema.legacy.any (·.names.contains name) = true :=
        List.any_eq_true.mpr ⟨_, listed, by simp [Legacy.names]⟩
      unfold Document.knows
      rw [own, Bool.or_true]
    simp [checkKey, Node.keyName?, knows]
  have new : (checkKey v.schema (.str target)).outcome = .ok () := by
    have knows : knows v.schema target = true := by
      simp [knows, Schema.field?_isSome_iff.mpr known]
    simp [checkKey, Node.keyName?, knows]
  rw [checkKeys_eq_ok_iff, checkKeys_eq_ok_iff, Yaml.Mapping.rename, List.forall_mem_map]
  refine forall₂_congr fun entry _ => ?_
  split
  · rename_i hit
    have key : entry.1 = .str name := by
      cases written : entry.1 <;> simp_all [Node.str?]
    rw [key]
    exact iff_of_true old new
  · rfl

end Document

namespace Configuration

open Document

variable {v : Version} {requested : Language} {ambient : StyleRecord} {m : Mapping}
  {name target : String} {legacy : Legacy}

/-- A mapping and the mapping with an older name renamed are read alike. -/
private theorem readLike_rename (listed : .synonym name target ∈ v.schema.legacy)
    (held : (m.get? name).isSome = true) (absent : m.get? target = none) :
    ReadLike v requested m (m.rename name target) ∧
      ReadLike v requested (m.rename name target) m := by
  obtain ⟨node, held⟩ := Option.isSome_iff_exists.mp held
  obtain ⟨field, rfl, -, ⟨kind, simple⟩, ⟨turn⟩⟩ := Turn.exists_turn listed rfl
  have apart : name ≠ field.name := by
    rintro rfl
    exact (v.keys_apart.2.2.1 _ listed _ List.mem_cons_self).1 turn.known
  have agree : turn.Agree m (m.rename name field.name) := fun key unnamed other =>
    Yaml.Mapping.get?_rename_of_ne (fun same => unnamed (by simp [same, Legacy.names])) other
  have held' : (m.rename name field.name).get? field.name = some node :=
    (Yaml.Mapping.get?_rename_new absent).trans held
  have absent' := Yaml.Mapping.get?_rename_old (m := m) apart
  have edits : ∀ basedOn start, start.version = v → ∀ c,
      edit v m basedOn start = .ok c ↔ edit v (m.rename name field.name) basedOn start = .ok c :=
    fun basedOn start version c =>
      turn.edit_renamed_iff simple version held absent held' absent' agree
  have keys := checkKey_renamed (m := m) listed turn.known
  exact ⟨readLike_of_turn agree (fun basedOn start version c => (edits basedOn start version c).mp)
      fun _ => keys.mp,
    readLike_of_turn agree.symm (fun basedOn start version c => (edits basedOn start version c).mpr)
      fun _ => keys.mpr⟩

/-- A mapping without an older spelling is read like the mapping with it, next to the key of the
field that it stands for. -/
private theorem readLike_without (listed : legacy ∈ v.schema.legacy) (replaces : legacy.Replaces target)
    (held : (m.get? target).isSome = true) : ReadLike v requested m (m.without legacy.names) := by
  obtain ⟨node, held⟩ := Option.isSome_iff_exists.mp held
  obtain ⟨field, rfl, about, ⟨kind, simple⟩, ⟨turn⟩⟩ := Turn.exists_turn listed replaces
  have unnamed : field.name ∉ legacy.names := fun named =>
    (v.keys_apart.2.2.1 _ listed _ named).1 turn.known
  have agree : turn.Agree m (m.without legacy.names) := fun key unnamed _ =>
    Yaml.Mapping.get?_without_of_notMem unnamed
  have held' := (Yaml.Mapping.get?_without_of_notMem unnamed).trans held
  refine readLike_of_turn agree (fun basedOn start version c edited => ?_) fun _ known => ?_
  · exact turn.edit_without about simple version held held'
      (fun key => Yaml.Mapping.get?_without_of_mem) agree edited
  · rw [checkKeys_eq_ok_iff] at known ⊢
    exact fun entry member => known entry (List.mem_of_mem_filter member)

/-- **Older spellings are shorthand.** A text in which the older name of a field takes the place of
the field's own name is read as if the own name stood there. And where the field's own name stands
in the text, an older spelling of it, of whatever form, might as well be left out. -/
theorem older_spellings {text text' : String} (spells : Spells text [m]) :
    (∀ name target, .synonym name target ∈ v.schema.legacy → (m.get? name).isSome = true →
      m.get? target = none → Spells text' [m.rename name target] →
        ∀ c, (read v text requested ambient).outcome = .ok c ↔
          (read v text' requested ambient).outcome = .ok c) ∧
    ∀ legacy ∈ v.schema.legacy, ∀ target, legacy.Replaces target →
      (m.get? target).isSome = true → Spells text' [m.without legacy.names] →
        ∀ c, (read v text requested ambient).outcome = .ok c →
          (read v text' requested ambient).outcome = .ok c := by
  refine ⟨fun name target listed held absent spells' c => ?_,
    fun legacy listed target replaces held spells' => ?_⟩
  · obtain ⟨like, like'⟩ : ReadLike v requested m (m.rename name target) ∧
        ReadLike v requested (m.rename name target) m := readLike_rename listed held absent
    exact ⟨read_carries spells spells' (.cons like .nil) c,
      read_carries spells' spells (.cons like' .nil) c⟩
  · exact read_carries spells spells' (.cons (readLike_without listed replaces held) .nil)

/-- The older name of a flag, by itself and next to the flag's own name. -/
theorem older_spellings_derivePointer :
    (∃ c, (read .v12 "DerivePointerBinding: true\n" .cpp (.zeroed .v12 .cpp)).outcome = .ok c ∧
      (read .v12 "DerivePointerAlignment: true\n" .cpp (.zeroed .v12 .cpp)).outcome = .ok c) ∧
    ∃ c, (read .v12 "DerivePointerBinding: true\nDerivePointerAlignment: false\n" .cpp
        (.zeroed .v12 .cpp)).outcome = .ok c ∧
      (read .v12 "DerivePointerAlignment: false\n" .cpp (.zeroed .v12 .cpp)).outcome = .ok c := by
  have spells : Spells "DerivePointerBinding: true\n"
      [[entry "DerivePointerBinding" (.bool true)]] :=
    spells_of_tree (Yaml.plainTree [("DerivePointerBinding", "true")]) (by decide) (by decide) rfl
      (by decide) rfl
  have spells' : Spells "DerivePointerAlignment: true\n"
      [[entry "DerivePointerAlignment" (.bool true)]] :=
    spells_of_tree (Yaml.plainTree [("DerivePointerAlignment", "true")]) (by decide) (by decide) rfl
      (by decide) rfl
  have both : Spells "DerivePointerBinding: true\nDerivePointerAlignment: false\n"
      [[entry "DerivePointerBinding" (.bool true), entry "DerivePointerAlignment" (.bool false)]] :=
    spells_of_tree (Yaml.plainTree [("DerivePointerBinding", "true"),
      ("DerivePointerAlignment", "false")]) (by decide) (by decide) rfl (by decide) rfl
  have own : Spells "DerivePointerAlignment: false\n"
      [[entry "DerivePointerAlignment" (.bool false)]] :=
    spells_of_tree (Yaml.plainTree [("DerivePointerAlignment", "false")]) (by decide) (by decide)
      rfl (by decide) rfl
  have listed : Legacy.synonym "DerivePointerBinding" "DerivePointerAlignment" ∈
      Version.v12.schema.legacy := by
    simp [Version.schema, Catalogue.V12.schema, Catalogue.V12.legacy]
  let ambient : StyleRecord := .zeroed .v12 .cpp
  have accepts : (ofMappings .cpp { ambient with language := .cpp }
      [[entry "DerivePointerBinding" (.bool true)]]).outcome.isOk = true ∧
      (ofMappings .cpp { ambient with language := .cpp }
        [[entry "DerivePointerBinding" (.bool true),
          entry "DerivePointerAlignment" (.bool false)]]).outcome.isOk = true := by
    decide +kernel
  obtain ⟨c, accepted⟩ := Outcome.isOk_iff.mp accepts.1
  obtain ⟨c', accepted'⟩ := Outcome.isOk_iff.mp accepts.2
  have supported : Version.v12.schema.supports .cpp = true := by decide
  have yields : Yields .v12 .cpp ambient _ c := yields_of_ofMappings supported rfl accepted
  have yields' : Yields .v12 .cpp ambient _ c' := yields_of_ofMappings supported rfl accepted'
  have reads := yields.2 _ spells
  have reads' := yields'.2 _ both
  refine ⟨⟨c, reads, ?_⟩, c', reads', ?_⟩
  · exact ((older_spellings spells).1 _ _ listed rfl rfl spells' c).mp reads
  · exact (older_spellings both).2 _ listed _ rfl rfl own c' reads'

end Configuration

end FormatStyle
