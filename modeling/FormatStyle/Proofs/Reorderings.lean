import FormatStyle.Proofs.Agreement
import FormatStyle.Proofs.Conversion
import Mathlib.Logic.Relation

/-! # Reordered nodes

Nodes are reordered when the keys of mappings change places, at whatever depth. What a node is read
as does not depend on the order of its keys, if the keys of each mapping write different names
(`FieldKind.readsAlike_of_reorders`): each entry settles the part that it names and looks at no
other one (`readPart_comm`).
-/

namespace FormatStyle

open Yaml (Node Mapping)
open Outcome (Carries)

/-! ## Reorderings -/

namespace Yaml

/-- **A reordering of keys**, in one mapping or within the parts of one node. The items of a
sequence keep their places. -/
inductive Node.Reorders : Node → Node → Prop where
  | refl (node : Node) : Reorders node node
  | entries {m m' : Mapping} (perm : m.Perm m') : Reorders (.mapping m) (.mapping m')
  | entry {before after : Mapping} {key key' value value' : Node} (keys : Reorders key key')
      (values : Reorders value value') : Reorders (.mapping (before ++ (key, value) :: after))
        (.mapping (before ++ (key', value') :: after))
  | item {before after : List Node} {item item' : Node} (items : Reorders item item') :
      Reorders (.sequence (before ++ item :: after)) (.sequence (before ++ item' :: after))
  | content {tag : String} {content content' : Node} (contents : Reorders content content') :
      Reorders (.tagged tag content) (.tagged tag content')

/-- **Nodes with the same keys in another order**, at whatever depth. -/
def Node.Reordered : Node → Node → Prop := Relation.ReflTransGen Node.Reorders

/-- Entries that have been reordered in their places. -/
def Mapping.EachReorders : Mapping → Mapping → Prop :=
  List.Forall₂ fun e e' => e.1.Reorders e'.1 ∧ e.2.Reorders e'.2

namespace Node.Reorders

variable {node node' : Node} {m m' : Mapping} {items : List Node} {key : String}

theorem symm (reorders : node.Reorders node') : node'.Reorders node := by
  induction reorders with
  | refl node => exact .refl node
  | entries perm => exact .entries perm.symm
  | entry _ _ keys values => exact .entry keys values
  | item _ items => exact .item items
  | content _ contents => exact .content contents

/-- What becomes of a mapping: its entries change places, or are reordered in them. -/
theorem mapping_cases (reorders : Reorders (.mapping m) node') :
    ∃ m', node' = .mapping m' ∧ (m.Perm m' ∨ m.EachReorders m') := by
  cases reorders with
  | refl => exact ⟨m, rfl, .inl (.refl m)⟩
  | entries perm => exact ⟨_, rfl, .inl perm⟩
  | entry keys values =>
    have same : ∀ l : Mapping, l.EachReorders l := fun l =>
      List.forall₂_same.mpr fun _ _ => ⟨.refl _, .refl _⟩
    exact ⟨_, rfl, .inr (List.rel_append (same _) (.cons ⟨keys, values⟩ (same _)))⟩

/-- What becomes of a sequence: its items are reordered in their places. -/
theorem sequence_cases (reorders : Reorders (.sequence items) node') :
    ∃ items', node' = .sequence items' ∧ List.Forall₂ Reorders items items' := by
  have same : ∀ l : List Node, List.Forall₂ Reorders l l := fun l =>
    List.forall₂_same.mpr fun node _ => .refl node
  cases reorders with
  | refl => exact ⟨items, rfl, same items⟩
  | item items => exact ⟨_, rfl, List.rel_append (same _) (.cons items (same _))⟩

/-! ### What stays -/

theorem scalarText?_eq (reorders : node.Reorders node') :
    node'.scalarText? = node.scalarText? := by
  cases reorders <;> rfl

theorem str?_eq (reorders : node.Reorders node') : node'.str? = node.str? := by
  cases reorders <;> rfl

theorem keyName?_eq (reorders : node.Reorders node') : node'.keyName? = node.keyName? := by
  induction reorders with
  | content _ contents => simpa only [Node.keyName?] using contents
  | _ => rfl

/-- What is the same of reordered keys is the same of all keys, but for the order. -/
theorem filterMap_perm {f : Node → Option String}
    (same : ∀ {node node' : Node}, node.Reorders node' → f node' = f node)
    (reorders : Reorders (.mapping m) (.mapping m')) :
    (m.filterMap fun e => f e.1).Perm (m'.filterMap fun e => f e.1) := by
  obtain ⟨_, ⟨⟩, perm | each⟩ := reorders.mapping_cases
  · exact perm.filterMap _
  · have eq : m'.filterMap (fun e => f e.1) = m.filterMap fun e => f e.1 := by
      clear reorders
      induction each with
      | nil => rfl
      | cons first _ ih => rw [List.filterMap_cons, List.filterMap_cons, same first.1, ih]
    rw [eq]

end Node.Reorders

theorem Node.Reordered.symm {node node' : Node} (reordered : node.Reordered node') :
    node'.Reordered node := by
  induction reordered with
  | refl => exact .refl
  | tail _ step ih => exact .head step.symm ih

/-! ## Names of keys -/

/-- **A node whose keys write different names**, if it is a mapping. -/
def Node.NamesApart (node : Node) : Prop :=
  ∀ m : Mapping, node = .mapping m → (m.filterMap fun e => e.1.keyName?).Nodup

/-- **A node that says one thing for each name**: keys write different names in a mapping and in the
mappings of a sequence, which are the ones that values are read from. -/
structure Node.Distinct (node : Node) : Prop where
  self : node.NamesApart
  items : ∀ items, node = .sequence items → ∀ item ∈ items, item.NamesApart

/-- **A document that says one thing for each key.** -/
structure Mapping.Distinct (m : Mapping) : Prop where
  keys : (m.filterMap fun e => e.1.str?).Nodup
  values : ∀ e ∈ m, e.2.Distinct

section

variable {node node' : Node} {m m' : Mapping} {key : String}

theorem Node.NamesApart.of_reorders (apart : node.NamesApart) (reorders : node.Reorders node') :
    node'.NamesApart := by
  rintro m' rfl
  obtain ⟨m, rfl, -⟩ := reorders.symm.mapping_cases
  exact (reorders.filterMap_perm Node.Reorders.keyName?_eq).nodup_iff.mp (apart m rfl)

theorem Node.Distinct.of_reorders (distinct : node.Distinct) (reorders : node.Reorders node') :
    node'.Distinct := by
  refine ⟨distinct.self.of_reorders reorders, ?_⟩
  rintro items' rfl item' member
  obtain ⟨items, rfl, each⟩ := reorders.symm.sequence_cases
  obtain ⟨item, there, reorders⟩ := Outcome.exists_of_mem_left each member
  exact (distinct.items items rfl item there).of_reorders reorders.symm

theorem Mapping.Distinct.of_reorders (distinct : m.Distinct)
    (reorders : Node.Reorders (.mapping m) (.mapping m')) : m'.Distinct := by
  refine ⟨(reorders.filterMap_perm Node.Reorders.str?_eq).nodup_iff.mp distinct.keys,
    fun e' member => ?_⟩
  obtain ⟨_, ⟨⟩, perm | each⟩ := reorders.mapping_cases
  · exact distinct.values e' (perm.mem_iff.mpr member)
  · obtain ⟨e, there, -, reorders⟩ := Outcome.exists_of_mem_right each member
    exact (distinct.values e there).of_reorders reorders

namespace Mapping

theorem exists_of_get? (found : m.get? key = some node) : ∃ e ∈ m, e.2 = node := by
  obtain ⟨e, hit, same⟩ := Option.map_eq_some_iff.mp found
  exact ⟨e, List.mem_of_find?_eq_some hit, same⟩

/-- Where no key is there twice, the order makes no difference to what is found. -/
theorem get?_perm (perm : m.Perm m') (distinct : (m.filterMap fun e => e.1.str?).Nodup) :
    m'.get? key = m.get? key := by
  induction perm with
  | nil => rfl
  | cons e _ ih =>
    rw [get?_cons, get?_cons, ih (distinct.sublist ((List.sublist_cons_self _ _).filterMap _))]
  | swap e e' m =>
    rw [get?_cons, get?_cons, get?_cons, get?_cons]
    by_cases hit : e.1.str? = some key
    · by_cases hit' : e'.1.str? = some key
      · simp [hit, hit'] at distinct
      · simp [hit']
    · simp [hit]
  | trans first _ ih ih' =>
    rw [ih' ((first.filterMap _).nodup_iff.mp distinct), ih distinct]

/-- **What is found under a key** of a reordered mapping is a reordering of what was there. -/
theorem get?_reorders (distinct : (m.filterMap fun e => e.1.str?).Nodup)
    (reorders : Node.Reorders (.mapping m) (.mapping m')) :
    Option.Rel Node.Reorders (m.get? key) (m'.get? key) := by
  obtain ⟨_, ⟨⟩, perm | each⟩ := reorders.mapping_cases
  · rw [get?_perm perm distinct]
    cases m.get? key with
    | none => exact .none
    | some node => exact .some (.refl node)
  · clear reorders distinct
    induction each with
    | nil => exact .none
    | cons first _ ih =>
      rw [get?_cons, get?_cons, first.1.str?_eq]
      split
      · exact .some first.2
      · exact ih

end Mapping

end

end Yaml

/-! ## Values of reordered nodes -/

namespace ScalarKind

variable {node node' : Node} {path : String}

theorem readText?_reorders (reorders : node.Reorders node') :
    readText? node' = readText? node := by
  cases reorders <;> rfl

/-- A reordered node has the same simple value, if any. -/
private theorem read?_reorders (kind : ScalarKind) (reorders : node.Reorders node') :
    kind.read? node' = kind.read? node := by
  have texts : ∀ {items items' : List Node}, List.Forall₂ Node.Reorders items items' →
      items'.mapM readText? = items.mapM readText? := by
    intro items items' each
    induction each with
    | nil => rfl
    | cons first _ ih => rw [List.mapM_cons, List.mapM_cons, readText?_reorders first, ih]
  cases node with
  | sequence items =>
    obtain ⟨items', rfl, each⟩ := reorders.sequence_cases
    cases kind with
    | strList => exact congrArg (Option.map Value.list) (texts each)
    | _ => rfl
  | _ => cases reorders <;> cases kind <;> rfl

theorem read_reorders (kind : ScalarKind) (reorders : node.Reorders node') :
    Carries (kind.read node path) (kind.read node' path) := by
  unfold read
  rw [kind.read?_reorders reorders]
  cases kind.read? node with
  | some value => exact .refl _
  | none => exact .of_error

end ScalarKind

section

variable {strict : Bool} {parts : List Part} {path key : String} {values next : List Value}
  {entry entry' : Node × Node} {node node' : Node}

/-- **What an entry does** to the parts of a record: it replaces the part that it names, or it is
passed over where unknown keys are allowed. -/
theorem readPart_eq_ok_iff : (readPart strict parts path values entry).outcome = .ok next ↔
    ∃ key, entry.1.keyName? = some key ∧
      ((∃ index part value, partIndex? parts key = some index ∧ parts[index]? = some part ∧
          part.kind.read entry.2 (path ++ "." ++ key) = .ok value ∧
          next = values.set index value) ∨
        partIndex? parts key = none ∧ strict = false ∧ next = values) := by
  unfold readPart
  cases named : entry.1.keyName? with
  | none => simp
  | some key =>
    cases found : partIndex? parts key with
    | none =>
      have skipped : ((do unknownKey strict (path ++ "." ++ key); return values :
          Traced StyleError (List Value))).outcome = .ok next ↔ strict = false ∧ next = values := by
        unfold unknownKey
        cases strict <;> simp [eq_comm]
      simpa [found] using skipped
    | some index =>
      obtain ⟨bound, -, -⟩ := List.findIdx?_eq_some_iff_getElem.mp found
      have at_ := List.getElem?_eq_getElem bound
      simp [found, at_, Outcome.map_eq_ok_iff, @eq_comm _ next]

/-- **Entries of different names change places.** -/
theorem readPart_comm (apart : ∀ key, entry.1.keyName? = some key → ∀ key',
    entry'.1.keyName? = some key' → key ≠ key')
    (h : ((readPart strict parts path values entry).outcome >>=
      fun values => (readPart strict parts path values entry').outcome) = .ok next) :
    ((readPart strict parts path values entry').outcome >>=
      fun values => (readPart strict parts path values entry).outcome) = .ok next := by
  simp only [Outcome.bind_eq_ok_iff, readPart_eq_ok_iff] at h ⊢
  obtain ⟨between, ⟨key, named, first⟩, key', named', second⟩ := h
  have ne := apart key named key' named'
  rcases first with ⟨i, part, value, found, at_, read, rfl⟩ | ⟨unknown, lax, rfl⟩
  · rcases second with ⟨i', part', value', found', at_', read', rfl⟩ | ⟨unknown', lax, rfl⟩
    · have indices : i ≠ i' := by
        rintro rfl
        obtain rfl := Option.some.inj (at_.symm.trans at_')
        exact ne ((name_of_partIndex? found at_).symm.trans (name_of_partIndex? found' at_'))
      exact ⟨_, ⟨key', named', .inl ⟨i', part', value', found', at_', read', rfl⟩⟩, key, named,
        .inl ⟨i, part, value, found, at_, read, List.set_comm _ _ indices⟩⟩
    · exact ⟨_, ⟨key', named', .inr ⟨unknown', lax, rfl⟩⟩, key, named,
        .inl ⟨i, part, value, found, at_, read, rfl⟩⟩
  · exact ⟨next, ⟨key', named', second⟩, key, named, .inr ⟨unknown, lax, rfl⟩⟩

/-- A reordered entry does the same. -/
private theorem readPart_reorders (keys : entry.1.Reorders entry'.1) (nodes : entry.2.Reorders entry'.2) :
    Carries (readPart strict parts path values entry).outcome
      (readPart strict parts path values entry').outcome := by
  intro next
  simp only [readPart_eq_ok_iff, keys.keyName?_eq]
  rintro ⟨key, named, ⟨index, part, value, found, at_, read, rfl⟩ | skipped⟩
  · exact ⟨key, named, .inl ⟨index, part, value, found, at_, part.kind.read_reorders nodes _ read,
      rfl⟩⟩
  · exact ⟨key, named, .inr skipped⟩

/-- **A reordered mapping says the same** about the parts of a record. -/
theorem readParts_reorders (apart : node.NamesApart) (reorders : node.Reorders node') :
    Carries (readParts strict parts path values node).outcome
      (readParts strict parts path values node').outcome := by
  cases node with
  | mapping m =>
    obtain ⟨m', rfl, perm | each⟩ := reorders.mapping_cases
    -- Entries that change places are steps that commute, as their names differ.
    · intro next read
      simp only [readParts, Traced.outcome_foldlM] at read ⊢
      have distinct : (m.filterMap fun e => e.1.keyName?).Pairwise (· ≠ ·) := apart m rfl
      exact Outcome.foldlM_perm (f := fun values e => (readPart strict parts path values e).outcome)
        (fun apart key named key' named' => (apart key' named' key named).symm) readPart_comm perm
        (List.pairwise_filterMap.mp distinct) read
    · simp only [readParts, Traced.outcome_foldlM]
      exact .foldlM (each.imp fun _ _ entry _ => readPart_reorders entry.1 entry.2) _
  | _ =>
    intro next read
    cases read

end

namespace FieldKind

variable {strict : Bool} {path : String} {node node' : Node} {current : Value}

/-- **Nodes that are read alike**, for every kind and on top of every value. -/
structure ReadsAlike (node node' : Node) : Prop where
  text : node'.scalarText? = node.scalarText?
  value : ∀ (kind : FieldKind) strict current path,
    Carries (kind.read strict node current path).outcome
      (kind.read strict node' current path).outcome

theorem readUnchecked_reorders (kind : FieldKind) (distinct : node.Distinct)
    (reorders : node.Reorders node') :
    Carries (kind.readUnchecked strict node current path).outcome
      (kind.readUnchecked strict node' current path).outcome := by
  cases kind with
  | scalar kind => exact kind.read_reorders reorders
  | record parts =>
    simp only [readUnchecked, Traced.outcome_map]
    exact (readParts_reorders distinct.self reorders).map
  | shorthand s =>
    simp only [readUnchecked, reorders.scalarText?_eq]
    cases node.scalarText? with
    | some spelling =>
      dsimp only
      cases s.spelled? spelling (Literal.baseParts s.parts current) with
      | some values => exact .refl _
      | none => exact .of_error
    | none =>
      simp only [Traced.outcome_map]
      exact (readParts_reorders distinct.self reorders).map
  | recordList parts =>
    cases node with
    | sequence items =>
      obtain ⟨items', rfl, each⟩ := reorders.sequence_cases
      simp only [readUnchecked, Traced.outcome_map, Traced.outcome_mapM]
      have apart : List.Forall₂ (fun item item' => item.NamesApart ∧ item.Reorders item')
          items items' := (List.forall₂_and_left _ _).mpr ⟨distinct.items items rfl, each⟩
      refine (Carries.mapM ?_).map
      exact apart.imp fun _ _ both => readParts_reorders both.1 both.2
    | _ =>
      intro value read
      cases read

/-- **Reordered nodes are read alike.** -/
theorem readsAlike_of_reorders (distinct : node.Distinct) (reorders : node.Reorders node') :
    ReadsAlike node node' := by
  refine ⟨reorders.scalarText?_eq, fun kind strict current path => ?_⟩
  simp only [read, Traced.outcome_bind]
  refine (kind.readUnchecked_reorders distinct reorders).bind fun value _ => ?_
  split
  · exact .refl _
  · exact .of_error

end FieldKind

end FormatStyle
