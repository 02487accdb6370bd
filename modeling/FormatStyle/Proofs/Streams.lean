import FormatStyle.Configuration
import Mathlib.Data.List.Forall2

/-! # Texts of a few documents

How the documents of a text are found: by the events of each and the tree that they make
(`documents_of_events`). The reader of events computes; the tree of a document does not, because
aliases are followed by well-founded recursion. So the tree is found the other way round: the events
of a tree are read as that tree (`tree?_events`). A configuration text of plain entries has one
mapping for each document (`Configuration.mappings_of_entries`).
-/

namespace FormatStyle.Yaml

/-- **The events of the documents** that are left in a stream, which ends after them. -/
def documentEvents? (eventFuel : Nat) : Nat → EventReader → Option (List Document)
  | 0, _ => none
  | fuel + 1, r => do
    match ← r.next with
    | (.documentStart, r) =>
      let (d, r) ← Document.read eventFuel .empty r
      return d :: (← documentEvents? eventFuel fuel r)
    | (.streamEnd, _) => return []
    | _ => none

/-- **The events of the documents of a text.** -/
def textEvents? (cs : List Char) : Option (List Document) :=
  documentEvents? (16 * (cs.length + 8)) (16 * (cs.length + 8)) (.start cs)

variable {s : String} {ds : List Document} {trees : List Tree}

/-- Documents that make trees are read as those. -/
private theorem readFrom_of_events {eventFuel fuel : Nat} {r : EventReader}
    (events : documentEvents? eventFuel fuel r = some ds)
    (grown : List.Forall₂ (fun (d : Document) tree => d.tree? = some tree) ds trees) :
    Stream.readFrom eventFuel fuel r = ⟨trees, false⟩ := by
  induction fuel generalizing r ds trees with
  | zero => cases events
  | succ fuel ih =>
    unfold documentEvents? at events
    obtain ⟨⟨event, r'⟩, next, events⟩ := Option.bind_eq_some_iff.mp events
    unfold Stream.readFrom
    rw [next]
    cases event with
    | documentStart =>
      obtain ⟨⟨d, r''⟩, read, events⟩ := Option.bind_eq_some_iff.mp events
      obtain ⟨rest, left, events⟩ := Option.bind_eq_some_iff.mp events
      cases events
      obtain ⟨tree, _, one, others, rfl⟩ := List.forall₂_cons_left_iff.mp grown
      dsimp only
      rw [read]
      dsimp only
      rw [one, ih left others]
    | streamEnd =>
      cases events
      cases grown
      rfl
    | _ => cases events

/-- **A text of some documents** is a stream of their trees. -/
theorem ofText_of_events (allowed : s.toList.all isAllowed = true)
    (events : textEvents? s.toList = some ds) (some : ds ≠ [])
    (grown : List.Forall₂ (fun (d : Document) tree => d.tree? = Option.some tree) ds trees) :
    Stream.ofText s = ⟨trees, false⟩ := by
  unfold Stream.ofText
  simp only [allowed, Bool.not_true, Bool.false_eq_true, if_false,
    readFrom_of_events events grown]
  cases grown with
  | nil => exact absurd rfl some
  | cons => rfl

/-- **A text of some documents** has the nodes of their trees. -/
theorem documents_of_events (allowed : s.toList.all isAllowed = true)
    (events : textEvents? s.toList = some ds) (some : ds ≠ [])
    (grown : List.Forall₂ (fun (d : Document) tree => d.tree? = Option.some tree) ds trees) :
    documents s = trees.map Node.ofTree? := by
  unfold documents
  rw [ofText_of_events allowed events some grown]
  exact List.append_nil _

/-- **A text of one document** has the node of its tree. -/
theorem documents_of_single {d : Document} {tree : Tree}
    (allowed : s.toList.all isAllowed = true) (events : textEvents? s.toList = some [d])
    (grown : d.tree? = some tree) : documents s = [Node.ofTree? tree] :=
  documents_of_events allowed events (List.cons_ne_nil _ _) (.cons grown .nil)

/-! ## Documents without aliases -/

mutual

/-- **The events of a tree**, without aliases. -/
def Tree.events : Tree → List DocumentEvent
  | .scalar tag text plain => [.scalar tag text plain]
  | .sequence tag items => .sequenceStart tag :: (itemEvents items ++ [.sequenceEnd])
  | .mapping tag entries => .mappingStart tag :: (entryEvents entries ++ [.mappingEnd])

/-- The events of the items of a sequence. -/
def itemEvents : List Tree → List DocumentEvent
  | [] => []
  | item :: items => item.events ++ itemEvents items

/-- The events of the entries of a mapping. -/
def entryEvents : List (Tree × Tree) → List DocumentEvent
  | [] => []
  | (key, value) :: entries => key.events ++ (value.events ++ entryEvents entries)

end

mutual

/-- **How deep the collections of a tree nest.** -/
def Tree.height : Tree → Nat
  | .scalar .. => 0
  | .sequence _ items => itemsHeight items + 1
  | .mapping _ entries => entriesHeight entries + 1

/-- How deep the items of a sequence nest. -/
def itemsHeight : List Tree → Nat
  | [] => 0
  | item :: items => max item.height (itemsHeight items)

/-- How deep the entries of a mapping nest. -/
def entriesHeight : List (Tree × Tree) → Nat
  | [] => 0
  | (key, value) :: entries => max (max key.height value.height) (entriesHeight entries)

end

/-- The events of a tree start no end of a collection, and no alias. -/
theorem Tree.events_eq_cons (t : Tree) : ∃ e es, t.events = e :: es ∧ e ≠ .sequenceEnd ∧
    e ≠ .mappingEnd ∧ ∀ anchor, e ≠ .aliasOf anchor := by
  cases t with
  | scalar tag text plain => exact ⟨_, _, rfl, by simp, by simp, by simp⟩
  | sequence tag items => exact ⟨_, _, rfl, by simp, by simp, by simp⟩
  | mapping tag entries => exact ⟨_, _, rfl, by simp, by simp, by simp⟩

/-- A node that is no alias is read as it is. -/
theorem Document.node_of_plain {d : Document} {depth jumps : Nat} {e : DocumentEvent}
    {es : List DocumentEvent} (plain : ∀ anchor, e ≠ .aliasOf anchor) :
    d.node depth (e :: es) jumps = d.anchored depth (e :: es) jumps := by
  unfold Document.node
  split
  · rename_i same
    exact absurd (List.cons.inj same).1 (plain _)
  · rfl

mutual

/-- **The events of a tree are read as the tree**, whatever follows. -/
theorem anchored_events (d : Document) (t : Tree) {depth : Nat} (low : t.height ≤ depth)
    (rest : List DocumentEvent) (jumps : Nat) :
    d.anchored depth (t.events ++ rest) jumps = some (t, rest, jumps) := by
  match t with
  | .scalar tag text plain => simp [Tree.events, Document.anchored]
  | .sequence tag items =>
    obtain ⟨depth, rfl⟩ := Nat.exists_eq_add_one_of_ne_zero (Nat.ne_zero_of_lt low)
    have content := items_events d items (Nat.le_of_succ_le_succ low) rest jumps
    simp [Tree.events, Document.anchored, content]
  | .mapping tag entries =>
    obtain ⟨depth, rfl⟩ := Nat.exists_eq_add_one_of_ne_zero (Nat.ne_zero_of_lt low)
    have content := entries_events d entries (Nat.le_of_succ_le_succ low) rest jumps
    simp [Tree.events, Document.anchored, content]

/-- The events of items are read as the items, up to the end of their sequence. -/
theorem items_events (d : Document) (items : List Tree) {depth : Nat}
    (low : itemsHeight items ≤ depth) (rest : List DocumentEvent) (jumps : Nat) :
    d.items depth (itemEvents items ++ .sequenceEnd :: rest) jumps = some (items, rest, jumps) := by
  match items with
  | [] => simp [itemEvents, Document.items]
  | item :: items =>
    obtain ⟨low, low'⟩ := Nat.max_le.mp low
    obtain ⟨e, es, events, going, -, plain⟩ := item.events_eq_cons
    have first := anchored_events d item low (itemEvents items ++ .sequenceEnd :: rest) jumps
    have others := items_events d items low' rest jumps
    rw [itemEvents, List.append_assoc]
    rw [events, List.cons_append] at first ⊢
    rw [← Document.node_of_plain plain] at first
    unfold Document.items
    split
    · rename_i same
      exact absurd (List.cons.inj same).1 going
    · have shorter : (itemEvents items ++ DocumentEvent.sequenceEnd :: rest).length <
          (e :: (es ++ (itemEvents items ++ DocumentEvent.sequenceEnd :: rest))).length := by
        simp only [List.length_cons, List.length_append]
        omega
      rw [first]
      simp only [Option.bind_eq_bind, Option.bind_some, others, dif_pos shorter]
      rfl

/-- The events of entries are read as the entries, up to the end of their mapping. -/
theorem entries_events (d : Document) (entries : List (Tree × Tree)) {depth : Nat}
    (low : entriesHeight entries ≤ depth) (rest : List DocumentEvent) (jumps : Nat) :
    d.entries depth (entryEvents entries ++ .mappingEnd :: rest) jumps =
      some (entries, rest, jumps) := by
  match entries with
  | [] => simp [entryEvents, Document.entries]
  | (key, value) :: entries =>
    obtain ⟨low, low''⟩ := Nat.max_le.mp low
    obtain ⟨low, low'⟩ := Nat.max_le.mp low
    obtain ⟨e, es, events, -, going, plain⟩ := key.events_eq_cons
    obtain ⟨e', es', events', -, -, plain'⟩ := value.events_eq_cons
    have others := entries_events d entries low'' rest jumps
    have second := anchored_events d value low' (entryEvents entries ++ .mappingEnd :: rest) jumps
    have first := anchored_events d key low
      (value.events ++ (entryEvents entries ++ .mappingEnd :: rest)) jumps
    rw [entryEvents, List.append_assoc, List.append_assoc]
    rw [events', List.cons_append] at first second ⊢
    rw [events, List.cons_append] at first ⊢
    rw [← Document.node_of_plain plain] at first
    rw [← Document.node_of_plain plain'] at second
    unfold Document.entries
    split
    · rename_i same
      exact absurd (List.cons.inj same).1 going
    · have shorter : (entryEvents entries ++ DocumentEvent.mappingEnd :: rest).length <
          (e :: (es ++ e' :: (es' ++ (entryEvents entries ++ .mappingEnd :: rest)))).length := by
        simp only [List.length_cons, List.length_append]
        omega
      rw [first]
      simp only [Option.bind_eq_bind, Option.bind_some, second, others, dif_pos shorter]
      rfl

end

/-- **A document without aliases** is read as the tree that its events are those of. -/
theorem tree?_events (t : Tree) (low : t.height ≤ Document.maxDepth) :
    (⟨t.events, []⟩ : Document).tree? = some t := by
  obtain ⟨e, es, events, -, -, plain⟩ := t.events_eq_cons
  have read := anchored_events ⟨t.events, []⟩ t low [] 0
  rw [List.append_nil] at read
  unfold Document.tree?
  dsimp only
  rw [events] at read ⊢
  rw [Document.node_of_plain plain, read]
  rfl

/-- **A text of one document** without aliases is a stream of its tree. -/
theorem ofText_of_tree {t : Tree} (allowed : s.toList.all isAllowed = true)
    (events : textEvents? s.toList = some [⟨t.events, []⟩]) (low : t.height ≤ Document.maxDepth) :
    Stream.ofText s = ⟨[t], false⟩ :=
  ofText_of_events allowed events (List.cons_ne_nil _ _) (.cons (tree?_events t low) .nil)

/-- The document of some entries between plain words. -/
def plainDocument (entries : List (String × String)) : Document :=
  ⟨.mappingStart none ::
    (entries.flatMap fun e => [.scalar none e.1 true, .scalar none e.2 true]) ++ [.mappingEnd], []⟩

/-- The tree of such a document. -/
def plainTree (entries : List (String × String)) : Tree :=
  .mapping none (entries.map fun e => (.scalar none e.1 true, .scalar none e.2 true))

private theorem tree?_plainDocument (entries : List (String × String)) :
    (plainDocument entries).tree? = some (plainTree entries) := by
  have shape : plainDocument entries = ⟨(plainTree entries).events, []⟩ ∧
      (plainTree entries).height = 1 := by
    unfold plainDocument plainTree Tree.events Tree.height
    induction entries with
    | nil => exact ⟨rfl, rfl⟩
    | cons e rest ih =>
      simp_all [entryEvents, entriesHeight, Tree.events, Tree.height]
  rw [shape.1]
  exact tree?_events _ (by rw [shape.2]; decide)

/-- **A text of entries** between plain words, in some documents, has the nodes of those
mappings. -/
theorem documents_of_entries (documents : List (List (String × String)))
    (allowed : s.toList.all isAllowed = true)
    (events : textEvents? s.toList = some (documents.map plainDocument))
    (some : documents ≠ []) :
    Yaml.documents s = documents.map fun entries => Node.ofTree? (plainTree entries) := by
  have grown : List.Forall₂ (fun (d : Document) tree => d.tree? = Option.some tree)
      (documents.map plainDocument) (documents.map plainTree) := by
    rw [List.forall₂_map_left_iff, List.forall₂_map_right_iff, List.forall₂_same]
    exact fun entries _ => tree?_plainDocument entries
  rw [documents_of_events allowed events (by simpa using some) grown, List.map_map]
  rfl

/-- The text of an empty document. -/
theorem documents_of_empty : documents "---\n...\n" = [some .null] := by
  have grown : (⟨[.scalar none "" true], []⟩ : Document).tree? = some (.scalar none "" true) := by
    simp [Document.tree?, Document.node, Document.anchored]
  rw [documents_of_single (by decide) rfl grown]
  rfl

end FormatStyle.Yaml

namespace FormatStyle.Configuration

open Yaml

/-- Documents that are mappings are the mappings of their text. -/
private theorem foldlM_nextMapping (read ms : List Mapping) :
    (ms.map fun m => some (.mapping m)).foldlM nextMapping read = .ok (read ++ ms) := by
  induction ms generalizing read with
  | nil => rw [List.append_nil]; rfl
  | cons m rest ih => rw [List.append_cons, ← ih]; rfl

/-- **The mappings of a text of entries** between plain words, in some documents. -/
theorem mappings_of_entries {text : String} (documents : List (List (String × String)))
    {ms : List Mapping} (allowed : text.toList.all isAllowed = true)
    (events : textEvents? text.toList = some (documents.map plainDocument))
    (grown : (documents.map fun entries => Node.ofTree? (plainTree entries)) =
      ms.map fun m => some (.mapping m))
    (some : documents ≠ []) : mappings text = .ok ms := by
  unfold mappings
  rw [documents_of_entries documents allowed events some, grown, foldlM_nextMapping,
    List.nil_append]

end FormatStyle.Configuration
