import FormatStyle.Datum
import Mathlib.Data.List.Nodup

/-! # Keys of objects

An entry of an object is what its key is looked up as, where each key stands once
(`Datum.lookup_of_mem`). Data that are read from a text have each key once in every object
(`Datum.keysOnce_of_ofYaml?`), because an entry is put where its key belongs.
-/

namespace FormatStyle

open Yaml

namespace Datum

variable {entries : List (String × Datum)} {key : String} {value d : Datum}

/-- **Data with each key once** in every object, at every depth. -/
inductive KeysOnce : Datum → Prop
  | null : KeysOnce null
  | bool (b : Bool) : KeysOnce (bool b)
  | int (n : Int) : KeysOnce (int n)
  | float (x : Decimal.Binary64) : KeysOnce (float x)
  | text (s : String) : KeysOnce (text s)
  | list {items : List Datum} (each : ∀ item ∈ items, KeysOnce item) : KeysOnce (list items)
  | object {entries : List (String × Datum)} (once : (entries.map (·.1)).Nodup)
    (each : ∀ entry ∈ entries, KeysOnce entry.2) : KeysOnce (object entries)

attribute [simp] KeysOnce.null KeysOnce.bool KeysOnce.int KeysOnce.float KeysOnce.text

@[simp] theorem keysOnce_list_iff {items : List Datum} :
    KeysOnce (list items) ↔ ∀ item ∈ items, KeysOnce item := by
  refine ⟨fun once => ?_, .list⟩
  cases once
  assumption

@[simp] theorem keysOnce_object_iff : KeysOnce (object entries) ↔
    (entries.map (·.1)).Nodup ∧ ∀ entry ∈ entries, KeysOnce entry.2 := by
  refine ⟨fun once => ?_, fun once => .object once.1 once.2⟩
  cases once
  exact ⟨‹_›, ‹_›⟩

/-! ## Looking up -/

theorem mem_of_lookup (found : entries.lookup key = some d) : (key, d) ∈ entries := by
  obtain ⟨before, after, rfl, -⟩ := List.lookup_eq_some_iff.mp found
  exact List.mem_append_right _ List.mem_cons_self

/-- A key that no entry has is not found. -/
theorem lookup_of_notMem (absent : key ∉ entries.map (·.1)) : entries.lookup key = none := by
  rw [List.lookup_eq_none_iff]
  intro entry member
  rw [bne_iff_ne]
  intro same
  exact absent (same ▸ List.mem_map_of_mem member)

/-- **An entry is what its key is looked up as**, where each key stands once. -/
theorem lookup_of_mem (once : (entries.map (·.1)).Nodup) (member : (key, d) ∈ entries) :
    entries.lookup key = some d := by
  obtain ⟨before, after, rfl⟩ := List.append_of_mem member
  rw [List.map_append, List.nodup_append] at once
  have absent : key ∉ before.map (·.1) := by
    intro earlier
    exact once.2.2 key earlier key List.mem_cons_self rfl
  rw [List.lookup_append, lookup_of_notMem absent, List.lookup_cons_self, Option.none_or]

/-- An entry at the end of an object is found where no entry before it is. -/
theorem get?_snoc (name : String) : (object (entries ++ [(key, d)])).get? name =
    ((object entries).get? name).or (if key = name then some d else none) := by
  rw [get?, get?, List.lookup_append, List.lookup_cons, List.lookup_nil]
  by_cases same : key = name
  · rw [if_pos same, beq_iff_eq.mpr same.symm]
  · rw [if_neg same, beq_eq_false_iff_ne.mpr (Ne.symm same)]

/-! ## Reading -/

/-- What is put into an object is its own entry or one that was there. -/
theorem mem_insert {entry : String × Datum} (member : entry ∈ insert entries key value) :
    entry = (key, value) ∨ entry ∈ entries := by
  induction entries with
  | nil => exact .inl (List.mem_singleton.mp member)
  | cons first rest ih =>
    rw [insert] at member
    split at member
    · exact (List.mem_cons.mp member).imp_right (List.mem_cons_of_mem _)
    · split at member
      · exact List.mem_cons.mp member
      · rcases List.mem_cons.mp member with rfl | later
        · exact .inr List.mem_cons_self
        · exact (ih later).imp_right (List.mem_cons_of_mem _)

/-- **An entry is put where its key belongs**, so that keys stay in order. -/
theorem sorted_insert (sorted : (entries.map (·.1)).Pairwise (· < ·)) :
    ((insert entries key value).map (·.1)).Pairwise (· < ·) := by
  induction entries with
  | nil => exact List.pairwise_singleton _ _
  | cons first rest ih =>
    obtain ⟨least, others⟩ := List.pairwise_cons.mp sorted
    rw [insert]
    split
    · rename_i same
      exact List.pairwise_cons.mpr ⟨same ▸ least, others⟩
    · rename_i differ
      split
      · rename_i before
        refine List.pairwise_cons.mpr ⟨fun other member => ?_, sorted⟩
        rcases List.mem_cons.mp member with rfl | later
        · exact before
        · exact String.lt_trans before (least other later)
      · rename_i after
        have behind : first.1 < key :=
          Std.lt_of_le_of_ne (String.not_lt.mp after) fun same => differ same.symm
        refine List.pairwise_cons.mpr ⟨fun other member => ?_, ih others⟩
        obtain ⟨entry, listed, rfl⟩ := List.mem_map.mp member
        rcases mem_insert listed with rfl | there
        · exact behind
        · exact least entry.1 (List.mem_map_of_mem there)

/-- What entries are put into stays in order, whatever it has held before. -/
private theorem keysOnce_insertAll {done : List (String × Datum)}
    (sorted : (done.map (·.1)).Pairwise (· < ·)) (values : ∀ entry ∈ done, KeysOnce entry.2)
    (each : ∀ entry ∈ entries, KeysOnce entry.2) :
    KeysOnce (object (entries.foldl (fun read entry => insert read entry.1 entry.2) done)) := by
  induction entries generalizing done with
  | nil =>
    refine .object (List.nodup_iff_pairwise_ne.mpr (sorted.imp fun less same => ?_)) values
    exact String.lt_irrefl _ (same ▸ less)
  | cons entry entries ih =>
    rw [List.forall_mem_cons] at each
    refine ih (sorted_insert sorted) (fun other member => ?_) each.2
    rcases mem_insert member with rfl | there
    · exact each.1
    · exact values other there

/-- The object of some entries has each key once. -/
theorem keysOnce_ofEntries (each : ∀ entry ∈ entries, KeysOnce entry.2) :
    KeysOnce (ofEntries entries) :=
  keysOnce_insertAll .nil (fun _ member => nomatch member) each

theorem keysOnce_ofScalar (s : String) (meaning : Scalar) : KeysOnce (ofScalar s meaning) := by
  cases meaning with
  | null => exact .null
  | bool b => exact .bool b
  | int n => exact .int n
  | float x =>
    cases x with
    | finite negative mantissa exponent => exact .float _
    | nan | infinity _ => exact .null
  | text => exact .text s

mutual

/-- **What a tree reads as has each key once.** -/
theorem keysOnce_of_ofTree? (t : Tree) {d : Datum} (read : ofTree? t = some d) : KeysOnce d := by
  match t with
  | .scalar tag s plain =>
    rw [ofTree?] at read
    split at read
    · cases read
    · obtain ⟨meaning, -, rfl⟩ := Option.map_eq_some_iff.mp read
      exact keysOnce_ofScalar s meaning
  | .sequence tag items =>
    rw [ofTree?] at read
    split at read
    · cases read
    · obtain ⟨values, each, rfl⟩ := Option.map_eq_some_iff.mp read
      exact .list (keysOnce_of_ofItems? items each)
  | .mapping tag entries =>
    rw [ofTree?] at read
    split at read
    · cases read
    · obtain ⟨values, each, rfl⟩ := Option.map_eq_some_iff.mp read
      exact keysOnce_ofEntries (keysOnce_of_ofEntries? entries each)

theorem keysOnce_of_ofItems? (trees : List Tree) {items : List Datum}
    (read : ofItems? trees = some items) : ∀ item ∈ items, KeysOnce item := by
  match trees with
  | [] =>
    cases read
    exact fun _ member => nomatch member
  | tree :: rest =>
    rw [ofItems?] at read
    obtain ⟨first, ofFirst, read⟩ := Option.bind_eq_some_iff.mp read
    obtain ⟨others, ofOthers, read⟩ := Option.bind_eq_some_iff.mp read
    cases read
    exact List.forall_mem_cons.mpr
      ⟨keysOnce_of_ofTree? tree ofFirst, keysOnce_of_ofItems? rest ofOthers⟩

theorem keysOnce_of_ofEntries? (trees : List (Tree × Tree)) {entries : List (String × Datum)}
    (read : ofEntries? trees = some entries) : ∀ entry ∈ entries, KeysOnce entry.2 := by
  match trees with
  | [] =>
    cases read
    exact fun _ member => nomatch member
  | (.scalar tag name plain, tree) :: rest =>
    rw [ofEntries?] at read
    obtain ⟨first, ofFirst, read⟩ := Option.bind_eq_some_iff.mp read
    obtain ⟨others, ofOthers, read⟩ := Option.bind_eq_some_iff.mp read
    cases read
    exact List.forall_mem_cons.mpr
      ⟨keysOnce_of_ofTree? tree ofFirst, keysOnce_of_ofEntries? rest ofOthers⟩
  | (.sequence _ _, _) :: _ | (.mapping _ _, _) :: _ =>
    cases read

end

/-- **Data that are read from a text have each key once.** -/
theorem keysOnce_of_ofYaml? {s : String} (read : ofYaml? s = some d) : KeysOnce d := by
  unfold ofYaml? at read
  split at read
  · exact keysOnce_of_ofTree? _ read
  · cases read

end Datum

end FormatStyle
