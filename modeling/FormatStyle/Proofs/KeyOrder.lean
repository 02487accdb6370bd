import FormatStyle.Proofs.Reorderings

/-! # The order of keys

Reading looks keys up at the top of a document, and follows the entries one after the other in the
mappings below. So the order of the keys makes no difference if the keys of each of those mappings
write different names (`Configuration.read_reordered`). A mapping of a text has no key twice, but
the name of a tagged key may be the name of another key, and then the later one counts
(`Configuration.read_reordered_tagged`).
-/

namespace FormatStyle

open StyleRecord
open Yaml (Node Mapping)
open Outcome (Carries)

/-! ## Documents that hold the same under their keys -/

open FieldKind (ReadsAlike)

namespace Document

variable {v : Version} {requested : Language} {template r : StyleRecord} {m m' : Mapping}
  {basedOn : Option String} {strict : Bool} {name : String}

/-- **Mappings that hold alike**: under each key there are nodes that are read alike, and each key
of the second one writes the name of a key of the first one. -/
structure HoldAlike (m m' : Mapping) : Prop where
  nodes : ∀ key, Option.Rel ReadsAlike (m.get? key) (m'.get? key)
  keys : ∀ e' ∈ m', ∃ e ∈ m, e'.1.keyName? = e.1.keyName?

namespace HoldAlike

variable (alike : HoldAlike m m')

include alike

theorem readLanguage {schema : Schema} :
    Carries (readLanguage schema m) (Document.readLanguage schema m') := by
  unfold Document.readLanguage
  split
  · match m.get? languageKey, m'.get? languageKey, alike.nodes languageKey with
    | _, _, .none => exact .refl _
    | some node, some node', .some like =>
      dsimp only
      rw [like.text]
      cases node.scalarText? with
      | none => exact .of_error
      | some spelling =>
        dsimp only
        split
        · exact .refl _
        · cases (Language.ofConfig? spelling).filter schema.supports with
          | none => exact .of_error
          | some language => exact .refl _
  · exact .refl _

theorem readBase : Carries (readBase requested m template).outcome
    (Document.readBase requested m' template).outcome := by
  unfold Document.readBase
  match m.get? basedOnKey, m'.get? basedOnKey, alike.nodes basedOnKey with
  | _, _, .none => exact .refl _
  | some node, some node', .some like =>
    dsimp only
    rw [like.text]
    cases node.scalarText? with
    | none => exact .of_error
    | some name => exact .refl _

theorem readOwn {kind : ScalarKind} : Carries (readOwn strict m name kind).outcome
    (Document.readOwn strict m' name kind).outcome := by
  unfold Document.readOwn
  match m.get? name, m'.get? name, alike.nodes name with
  | _, _, .none => exact .refl _
  | some node, some node', .some like =>
    simp only [Traced.outcome_map]
    exact (like.value _ _ _ _).map

theorem readField {field : Field} :
    Carries (readField m r field).outcome (Document.readField m' r field).outcome := by
  unfold Document.readField
  match m.get? field.name, m'.get? field.name, alike.nodes field.name with
  | _, _, .none => exact .refl _
  | some node, some node', .some like =>
    simp only [Traced.outcome_bind]
    exact (like.value _ _ _ _).bind fun _ _ => .refl _

theorem readLegacy {legacy : Legacy} : Carries (readLegacy m basedOn r legacy).outcome
    (Document.readLegacy m' basedOn r legacy).outcome := by
  unfold Document.readLegacy
  cases legacy with
  | synonym name target =>
    dsimp only
    match m.get? name, m'.get? name, alike.nodes name with
    | _, _, .none => exact .refl _
    | some node, some node', .some like =>
      cases r.schema.field? target with
      | none => exact .refl _
      | some field =>
        simp only [Traced.outcome_bind]
        exact (like.value _ _ _ _).bind fun _ _ => .refl _
  | mapped name kind target map onlyIf =>
    simp only [Traced.outcome_bind]
    exact alike.readOwn.bind fun _ _ => .refl _
  | group names combine =>
    simp only [Traced.outcome_bind, Traced.outcome_mapM]
    exact (Carries.mapM (List.forall₂_same.mpr fun _ _ => alike.readOwn)).bind fun _ _ => .refl _

theorem edit {start : StyleRecord} : Carries (edit v m basedOn start)
    (Document.edit v m' basedOn start) := by
  unfold Document.edit
  refine (Carries.foldlM (List.forall₂_same.mpr fun _ _ _ => alike.readLegacy) _).bind fun _ _ => ?_
  exact .foldlM (List.forall₂_same.mpr fun _ _ _ => alike.readField) _

theorem checkKeys {schema : Schema} :
    Carries (checkKeys schema m).outcome (Document.checkKeys schema m').outcome := by
  rintro ⟨⟩ known
  rw [checkKeys_eq_ok_iff] at known ⊢
  intro e' member
  obtain ⟨e, there, same⟩ := alike.keys e' member
  have passes := known e there
  unfold checkKey at passes ⊢
  rw [same]
  cases named : e.1.keyName? with
  | none =>
    rw [named] at passes
    cases passes
  | some name => simpa only [named] using passes

/-- **Mappings that hold alike are read alike.** -/
theorem readLike : ReadLike v requested m m' :=
  ⟨alike.readLanguage, fun _ _ => alike.readBase, fun _ _ _ => alike.edit, alike.checkKeys⟩

end HoldAlike

/-- A mapping with distinct keys and one reordering of it hold alike. -/
private theorem holdAlike_of_reorders (distinct : m.Distinct)
    (reorders : Node.Reorders (.mapping m) (.mapping m')) : HoldAlike m m' := by
  refine ⟨fun key => ?_, fun e' member => ?_⟩
  · have found : Option.Rel Node.Reorders (m.get? key) (m'.get? key) :=
      Yaml.Mapping.get?_reorders distinct.keys reorders
    match held : m.get? key, m'.get? key, found with
    | _, _, .none => exact .none
    | some node, some node', .some reorders =>
      obtain ⟨e, there, rfl⟩ := Yaml.Mapping.exists_of_get? held
      exact .some (FieldKind.readsAlike_of_reorders (distinct.values e there) reorders)
  · obtain ⟨_, ⟨⟩, perm | each⟩ := reorders.mapping_cases
    · exact ⟨e', perm.mem_iff.mpr member, rfl⟩
    · obtain ⟨e, there, keys, -⟩ := Outcome.exists_of_mem_right each member
      exact ⟨e, there, keys.keyName?_eq⟩

/-- **Reorderings of a mapping with distinct keys are read like it**, however many there are. -/
theorem readLike_of_reordered (distinct : m.Distinct)
    (reordered : Node.Reordered (.mapping m) (.mapping m')) :
    m'.Distinct ∧ ReadLike v requested m m' := by
  have run : ∀ {node}, Node.Reordered (.mapping m) node →
      ∃ m' : Mapping, node = .mapping m' ∧ m'.Distinct ∧ ReadLike v requested m m' := by
    intro node reordered
    -- Each reordering leaves a mapping with distinct keys, from which the next one starts.
    induction reordered with
    | refl => exact ⟨m, rfl, distinct, .refl m⟩
    | tail _ step ih =>
      obtain ⟨between, rfl, distinct, like⟩ := ih
      obtain ⟨m', rfl, -⟩ := step.mapping_cases
      exact ⟨m', rfl, distinct.of_reorders step,
        like.trans (holdAlike_of_reorders distinct step).readLike⟩
  obtain ⟨_, ⟨⟩, distinct', like⟩ := run reordered
  exact ⟨distinct', like⟩

end Document

/-! ## Texts -/

namespace Yaml

variable {m read : Mapping} {entries : List (Tree × Tree)} {tree : Tree}

/-- A string is a key of a mapping if it is among its string keys. -/
theorem Mapping.hasKey_of_mem {name : String} (member : name ∈ read.filterMap fun e => e.1.str?) :
    Mapping.hasKey read (.str name) = true := by
  obtain ⟨⟨key, value⟩, there, same⟩ := List.mem_filterMap.mp member
  refine List.any_eq_true.mpr ⟨_, there, ?_⟩
  cases key <;> cases same
  simp [Node.same]

/-- A mapping is read without a string key that is there twice. -/
private theorem nodup_of_ofEntries? (grown : Node.ofEntries? read entries = some m)
    (nodup : (read.filterMap fun e => e.1.str?).Nodup) :
    (m.filterMap fun e => e.1.str?).Nodup := by
  induction entries generalizing read with
  | nil =>
    unfold Node.ofEntries? at grown
    cases grown
    exact nodup
  | cons entry entries ih =>
    unfold Node.ofEntries? at grown
    obtain ⟨key, -, grown⟩ := Option.bind_eq_some_iff.mp grown
    split at grown
    · cases grown
    · rename_i fresh
      obtain ⟨value, -, grown⟩ := Option.bind_eq_some_iff.mp grown
      refine ih grown ?_
      rw [List.filterMap_append, List.nodup_append]
      cases key with
      | str name =>
        refine ⟨nodup, List.nodup_singleton name, fun other member _ last => ?_⟩
        rintro rfl
        obtain rfl := List.mem_singleton.mp last
        exact fresh (Mapping.hasKey_of_mem member)
      | _ => exact ⟨nodup, List.nodup_nil, fun _ _ _ last => nomatch last⟩

/-- **The mapping of a tree has no string key twice.** -/
theorem nodup_of_ofTree? (grown : Node.ofTree? tree = some (.mapping m)) :
    (m.filterMap fun e => e.1.str?).Nodup := by
  cases tree with
  | mapping tag entries =>
    unfold Node.ofTree? at grown
    obtain ⟨read, entered, grown⟩ := Option.bind_eq_some_iff.mp grown
    dsimp only at grown
    split at grown
    · cases grown
    · cases grown
      exact nodup_of_ofEntries? entered List.nodup_nil
  | scalar tag text plain =>
    unfold Node.ofTree? at grown
    split at grown
    · obtain ⟨scalar, -, grown⟩ := Option.bind_eq_some_iff.mp grown
      cases grown
    · obtain ⟨scalar, -, grown⟩ := Option.map_eq_some_iff.mp grown
      cases scalar <;> cases grown
  | sequence tag items =>
    unfold Node.ofTree? at grown
    obtain ⟨read, -, grown⟩ := Option.bind_eq_some_iff.mp grown
    dsimp only at grown
    split at grown <;> cases grown

/-- A node of a text is the node of a tree. -/
private theorem exists_tree_of_mem {text : String} {node : Node} (member : some node ∈ documents text) :
    ∃ tree, Node.ofTree? tree = some node := by
  unfold documents at member
  rcases List.mem_append.mp member with grown | broken
  · obtain ⟨tree, -, grown⟩ := List.mem_map.mp grown
    exact ⟨tree, grown⟩
  · split at broken <;> simp at broken

end Yaml

namespace Configuration

open Document (ReadLike readLike_of_reordered)

variable {v : Version} {text text' : String} {requested : Language} {ambient : StyleRecord}
  {ms ms' : List Mapping}

/-- **No string key is there twice** at the top of a document of a text. -/
theorem nodup_of_mappings (mapped : mappings text = .ok ms) :
    ∀ m ∈ ms, (m.filterMap fun e => e.1.str?).Nodup := by
  have keeps : ∀ read node next, node ∈ Yaml.documents text → nextMapping read node = .ok next →
      (∀ m ∈ read, (m.filterMap fun e => e.1.str?).Nodup) →
        ∀ m ∈ next, (m.filterMap fun e => e.1.str?).Nodup := by
    intro read node next member stepped fresh
    unfold nextMapping at stepped
    split at stepped
    · cases stepped
    · cases stepped
      exact List.forall_mem_append.mpr ⟨fresh, List.forall_mem_singleton.mpr List.nodup_nil⟩
    · cases stepped
      obtain ⟨tree, grown⟩ := Yaml.exists_tree_of_mem member
      exact List.forall_mem_append.mpr
        ⟨fresh, List.forall_mem_singleton.mpr (Yaml.nodup_of_ofTree? grown)⟩
    · cases stepped
  exact Outcome.foldlM_preserves keeps mapped (List.forall_mem_nil _)

/-- **The order of keys makes no difference**, at whatever depth, to texts that say one thing for
each name in the mappings below the top. -/
theorem read_reordered (spells : Spells text ms) (spells' : Spells text' ms')
    (reordered : List.Forall₂ (fun m m' => Node.Reordered (.mapping m) (.mapping m')) ms ms')
    (distinct : ∀ m ∈ ms, ∀ e ∈ m, e.2.Distinct) (c : Configuration) :
    (read v text requested ambient).outcome = .ok c ↔
      (read v text' requested ambient).outcome = .ok c := by
  have told : ∀ m ∈ ms, m.Distinct := fun m member =>
    ⟨nodup_of_mappings spells.2 m member, distinct m member⟩
  have like : List.Forall₂ (fun m m' => ReadLike v requested m m' ∧ ReadLike v requested m' m)
      ms ms' := by
    have both := (List.forall₂_and_left _ _).mpr ⟨told, reordered⟩
    refine both.imp fun m m' pair => ?_
    obtain ⟨distinct', like⟩ := readLike_of_reordered pair.1 pair.2
    exact ⟨like, (readLike_of_reordered distinct' pair.2.symm).2⟩
  exact ⟨read_carries spells spells' (like.imp fun _ _ both => both.1) c,
    read_carries spells' spells (like.flip.imp fun _ _ both => both.2) c⟩

/-- Two fields, and two parts of one of them, in one order and in the other. -/
theorem read_reordered_braces : ∃ c,
    (read .v16 "ColumnLimit: 100\nBraceWrapping:\n  AfterClass: true\n  AfterEnum: true\n" .cpp
      (.zeroed .v16 .cpp)).outcome = .ok c ∧
    (read .v16 "BraceWrapping:\n  AfterEnum: true\n  AfterClass: true\nColumnLimit: 100\n" .cpp
      (.zeroed .v16 .cpp)).outcome = .ok c := by
  let width := entry "ColumnLimit" (.int 100)
  let braces := entry "BraceWrapping"
    (.mapping [entry "AfterClass" (.bool true), entry "AfterEnum" (.bool true)])
  let braces' := entry "BraceWrapping"
    (.mapping [entry "AfterEnum" (.bool true), entry "AfterClass" (.bool true)])
  have spells : Spells "ColumnLimit: 100\nBraceWrapping:\n  AfterClass: true\n  AfterEnum: true\n"
      [[width, braces]] :=
    spells_of_tree (.mapping none [(.scalar none "ColumnLimit" true, .scalar none "100" true),
      (.scalar none "BraceWrapping" true,
        Yaml.plainTree [("AfterClass", "true"), ("AfterEnum", "true")])])
      (by decide) (by decide) rfl (by decide) rfl
  have spells' : Spells "BraceWrapping:\n  AfterEnum: true\n  AfterClass: true\nColumnLimit: 100\n"
      [[braces', width]] :=
    spells_of_tree (.mapping none [(.scalar none "BraceWrapping" true,
        Yaml.plainTree [("AfterEnum", "true"), ("AfterClass", "true")]),
      (.scalar none "ColumnLimit" true, .scalar none "100" true)])
      (by decide) (by decide) rfl (by decide) rfl
  have reordered : Node.Reordered (.mapping [width, braces]) (.mapping [braces', width]) := by
    have below : Node.Reorders (.mapping ([width] ++ braces :: [])) (.mapping [width, braces']) :=
      .entry (.refl _) (.entries (.swap _ _ _))
    have above : Node.Reorders (.mapping [width, braces']) (.mapping [braces', width]) :=
      .entries (.swap _ _ _)
    exact .head below (.single above)
  have distinct : ∀ m ∈ [[width, braces]], ∀ e ∈ m, e.2.Distinct := by
    have number : Node.Distinct (.int 100) := ⟨nofun, nofun⟩
    have parts : Node.Distinct braces.2 := ⟨by rintro _ ⟨⟩; decide, nofun⟩
    exact List.forall_mem_singleton.mpr
      (List.forall_mem_cons.mpr ⟨number, List.forall_mem_singleton.mpr parts⟩)
  let ambient : StyleRecord := .zeroed .v16 .cpp
  have accepts : (ofMappings .cpp { ambient with language := .cpp }
      [[width, braces]]).outcome.isOk = true := by
    decide +kernel
  obtain ⟨c, accepted⟩ := Outcome.isOk_iff.mp accepts
  have yields : Yields .v16 .cpp ambient _ c := yields_of_ofMappings (by decide) rfl accepted
  have reads := yields.2 _ spells
  exact ⟨c, reads, (read_reordered spells spells' (.cons reordered .nil) distinct c).mp reads⟩

/-- **The order of keys can make a difference**: a key and a tagged key of the same name are
different keys, but of the parts of a record the one that stands last is read under that name. -/
theorem read_reordered_tagged : ∃ m m' c c',
    Spells "BraceWrapping:\n  AfterClass: true\n  ! AfterClass: false\n" [m] ∧
    Spells "BraceWrapping:\n  ! AfterClass: false\n  AfterClass: true\n" [m'] ∧
    Node.Reordered (.mapping m) (.mapping m') ∧
    (read .v16 "BraceWrapping:\n  AfterClass: true\n  ! AfterClass: false\n" .cpp
      (.zeroed .v16 .cpp)).outcome = .ok c ∧
    (read .v16 "BraceWrapping:\n  ! AfterClass: false\n  AfterClass: true\n" .cpp
      (.zeroed .v16 .cpp)).outcome = .ok c' ∧
    c.record.getPart? "BraceWrapping" "AfterClass" = some (.bool false) ∧
    c'.record.getPart? "BraceWrapping" "AfterClass" = some (.bool true) := by
  let plain := entry "AfterClass" (.bool true)
  let tagged : Node × Node := (.tagged "!" (.str "AfterClass"), .bool false)
  let ambient : StyleRecord := .zeroed .v16 .cpp
  have spells : Spells "BraceWrapping:\n  AfterClass: true\n  ! AfterClass: false\n"
      [[entry "BraceWrapping" (.mapping [plain, tagged])]] :=
    spells_of_tree (.mapping none [(.scalar none "BraceWrapping" true, .mapping none
      [(.scalar none "AfterClass" true, .scalar none "true" true),
        (.scalar (some "!") "AfterClass" true, .scalar none "false" true)])])
      (by decide) (by decide) rfl (by decide) rfl
  have spells' : Spells "BraceWrapping:\n  ! AfterClass: false\n  AfterClass: true\n"
      [[entry "BraceWrapping" (.mapping [tagged, plain])]] :=
    spells_of_tree (.mapping none [(.scalar none "BraceWrapping" true, .mapping none
      [(.scalar (some "!") "AfterClass" true, .scalar none "false" true),
        (.scalar none "AfterClass" true, .scalar none "true" true)])])
      (by decide) (by decide) rfl (by decide) rfl
  have within : Node.Reorders
      (.mapping ([] ++ entry "BraceWrapping" (.mapping [plain, tagged]) :: []))
      (.mapping [entry "BraceWrapping" (.mapping [tagged, plain])]) :=
    .entry (.refl _) (.entries (.swap _ _ _))
  have parts : ((ofMappings .cpp { ambient with language := .cpp }
        [[entry "BraceWrapping" (.mapping [plain, tagged])]]).outcome.toOption.map
          fun c => c.record.getPart? "BraceWrapping" "AfterClass") = some (some (.bool false)) ∧
      ((ofMappings .cpp { ambient with language := .cpp }
        [[entry "BraceWrapping" (.mapping [tagged, plain])]]).outcome.toOption.map
          fun c => c.record.getPart? "BraceWrapping" "AfterClass") = some (some (.bool true)) := by
    decide +kernel
  obtain ⟨c, accepted, holds⟩ := Option.map_eq_some_iff.mp parts.1
  obtain ⟨c', accepted', holds'⟩ := Option.map_eq_some_iff.mp parts.2
  have accepted := Outcome.toOption_eq_some_iff.mp accepted
  have accepted' := Outcome.toOption_eq_some_iff.mp accepted'
  have supported : Version.v16.schema.supports .cpp = true := by decide
  have yields : Yields .v16 .cpp ambient _ c := yields_of_ofMappings supported rfl accepted
  have yields' : Yields .v16 .cpp ambient _ c' := yields_of_ofMappings supported rfl accepted'
  exact ⟨_, _, c, c', spells, spells', .single within, yields.2 _ spells, yields'.2 _ spells',
    holds, holds'⟩

end Configuration

end FormatStyle
