import FormatStyle.Proofs.Kinds
import FormatStyle.Writing

/-! # Values read back

Each value that a machine word stores is read back from the node that it is written as
(`FieldKind.read_write`), and from its differences to another value on top of that one
(`FieldKind.read_writeDifference`). For nested records this is one statement about the entries of
the parts that are written: those that are left out already hold what they should.
-/

namespace FormatStyle

open Yaml (Node)

private theorem mapM_readText?_str (items : List String) :
    (items.map Node.str).mapM ScalarKind.readText? = some items := by
  induction items with
  | nil => rfl
  | cons item items ih => simp [ScalarKind.readText?, Node.scalarText?, ih]

/-- The written spelling of a variant is read as the variant. -/
private theorem Enumeration.variant?_canonical {e : Enumeration} {variant : String}
    (lawful : e.lawful = true) (has : e.hasVariant variant = true) :
    e.variant? ((e.canonical? variant).getD variant) = some variant := by
  rw [← e.canonical?_isSome] at has
  obtain ⟨spelling, written⟩ := Option.isSome_iff_exists.mp has
  obtain ⟨s, found, rfl⟩ := Option.map_eq_some_iff.mp written
  have reads := List.all_eq_true.mp (Bool.and_eq_true_iff.mp lawful).2 s
    (List.mem_of_find?_eq_some found)
  have stands : s.2 = variant := by simpa using List.find?_some found
  rw [written, Option.getD_some, ← stands]
  simpa using reads

/-- **A stored simple value is read back.** -/
theorem ScalarKind.read?_write {kind : ScalarKind} {value : Value} (lawful : kind.lawful = true)
    (stores : kind.Stores value) : kind.read? (kind.write value) = some value := by
  obtain ⟨admitted, width⟩ := stores
  cases kind <;> cases value <;>
    simp only [admits, Bool.false_eq_true, decide_eq_true_eq] at admitted
  · rfl
  · exact if_pos width
  · exact if_pos ⟨admitted, width⟩
  · exact if_pos ⟨admitted, width⟩
  · rfl
  · rw [write, read?, mapM_readText?_str, Option.map_some]
  · simp [write, read?, Node.scalarText?, Enumeration.variant?_canonical lawful admitted]

theorem ScalarKind.read_write {kind : ScalarKind} {value : Value} {path : String}
    (lawful : kind.lawful = true) (stores : kind.Stores value) :
    kind.read (kind.write value) path = .ok value := by
  unfold read
  rw [read?_write lawful stores]

/-- Where part names are distinct, a name finds its position. -/
private theorem partIndex?_append {before after : List Part} {part : Part}
    (distinct : ((before ++ part :: after).map (·.name)).Nodup) :
    partIndex? (before ++ part :: after) part.name = some before.length := by
  unfold partIndex?
  rw [List.findIdx?_append, List.findIdx?_eq_none_iff.mpr, List.findIdx?_cons]
  · simp
  · intro other member
    rw [List.map_append, List.nodup_append] at distinct
    rw [beq_eq_false_iff_ne]
    exact distinct.2.2 other.name (List.mem_map_of_mem member) part.name (by simp)

variable {strict : Bool} {path : String}

/-- The entries of the parts that are kept. -/
def keptEntries (keep : Value → Value → Bool) (parts : List Part) (mine others : List Value) :
    List (Node × Node) :=
  ((parts.zip mine).zip others).filterMap fun ((part, value), other) =>
    if keep value other then some (entry part.name (part.kind.write value)) else none

/-- **Entries of parts are read back** on top of values that agree with the parts left out. -/
theorem foldlM_readPart {keep : Value → Value → Bool}
    (omits : ∀ value other, keep value other = false → value = other)
    {after : List Part} {mine others : List Value} (before : List Part) (done : List Value)
    (distinct : ((before ++ after).map (·.name)).Nodup)
    (lawful : ∀ part ∈ after, part.kind.lawful = true) (aligned : done.length = before.length)
    (stores : PartsHold ScalarKind.Stores after mine) (aligned' : others.length = after.length) :
    (keptEntries keep after mine others).foldlM
        (fun values entry => (readPart strict (before ++ after) path values entry).outcome)
        (done ++ others) = .ok (done ++ mine) := by
  induction after generalizing before done mine others with
  | nil =>
    cases stores
    rw [List.length_nil, List.length_eq_zero_iff] at aligned'
    subst aligned'
    rfl
  | cons part after ih =>
    cases stores with
    | cons stored stores =>
      rename_i value mine
      cases others with
      | nil => simp at aligned'
      | cons other others =>
        simp only [List.mem_cons, forall_eq_or_imp] at lawful
        simp only [List.length_cons, Nat.add_right_cancel_iff] at aligned'
        have shift : before ++ part :: after = (before ++ [part]) ++ after := by simp
        have rest := ih (before ++ [part]) (done ++ [value]) (shift ▸ distinct) lawful.2
          (by simp [aligned]) stores aligned'
        rw [← shift] at rest
        simp only [List.append_assoc, List.singleton_append] at rest
        unfold keptEntries
        rw [List.zip_cons_cons, List.zip_cons_cons, List.filterMap_cons]
        cases kept : keep value other with
        | false =>
          obtain rfl := omits value other kept
          simpa [kept, keptEntries] using rest
        | true =>
          have stepped : (readPart strict (before ++ part :: after) path
              (done ++ other :: others) (entry part.name (part.kind.write value))).outcome =
              .ok (done ++ value :: others) := by
            unfold readPart entry
            simp only [Node.keyName?]
            rw [partIndex?_append distinct]
            simp only [Option.map_some, List.getElem?_append_right (Nat.le_refl _),
              Nat.sub_self, List.getElem?_cons_zero, Traced.outcome_bind,
              Traced.outcome_monadLift, Traced.outcome_pure,
              ScalarKind.read_write lawful.1 stored, Outcome.ok_bind]
            rw [← aligned, List.set_append_right _ _ (Nat.le_refl _), Nat.sub_self,
              List.set_cons_zero]
          simp only [kept, if_true, List.foldlM_cons, stepped, Outcome.ok_bind]
          exact rest

variable {parts : List Part} {mine others : List Value}

/-- All parts are read back on top of any values. -/
theorem readParts_writeParts (lawful : partsLawful parts = true)
    (stores : PartsHold ScalarKind.Stores parts mine) (aligned : others.length = parts.length) :
    (readParts strict parts path others (writeParts parts mine)).outcome = .ok mine := by
  obtain ⟨distinct, each⟩ := partsLawful_iff.mp lawful
  have whole : writeParts parts mine =
      .mapping (keptEntries (fun _ _ => true) parts mine others) := by
    unfold writeParts keptEntries
    simp only [if_true, List.filterMap_eq_map']
    have short : (parts.zip mine).length ≤ others.length := by
      rw [List.length_zip, aligned]
      exact Nat.min_le_left _ _
    conv_lhs => rw [← List.map_fst_zip short]
    rw [List.map_map]
    rfl
  rw [whole]
  unfold readParts
  dsimp only
  rw [Traced.outcome_foldlM]
  exact foldlM_readPart (by simp) [] [] distinct each rfl stores aligned

/-- The parts that differ are read back on top of what they differ from. -/
theorem readParts_writeDifferingParts (lawful : partsLawful parts = true)
    (stores : PartsHold ScalarKind.Stores parts mine) (aligned : others.length = parts.length) :
    (readParts strict parts path others (writeDifferingParts parts mine others)).outcome =
      .ok mine := by
  obtain ⟨distinct, each⟩ := partsLawful_iff.mp lawful
  have differing : writeDifferingParts parts mine others =
      .mapping (keptEntries (fun value other => !decide (value = other)) parts mine others) := by
    unfold writeDifferingParts keptEntries
    congr 2
    funext slot
    by_cases same : slot.1.2 = slot.2 <;> simp [same]
  rw [differing]
  unfold readParts
  dsimp only
  rw [Traced.outcome_foldlM]
  exact foldlM_readPart (by simp) [] [] distinct each rfl stores aligned

namespace FieldKind

variable {kind : FieldKind} {value current : Value}

/-- A node is read for a kind if the kind admits what it says. -/
theorem read_eq_ok_iff {node : Node} : (kind.read strict node current path).outcome = .ok value ↔
    (kind.readUnchecked strict node current path).outcome = .ok value ∧
      kind.admits value = true := by
  unfold read
  rw [Traced.outcome_bind, Outcome.bind_eq_ok_iff]
  constructor
  · rintro ⟨candidate, said, checked⟩
    split at checked
    · obtain rfl := Except.ok.inj checked
      exact ⟨said, by assumption⟩
    · cases checked
  · rintro ⟨said, admitted⟩
    refine ⟨value, said, ?_⟩
    rw [if_pos admitted]
    rfl

/-- What is read before the check is read after it, if the kind stores it. -/
theorem read_of_readUnchecked {node : Node}
    (h : (kind.readUnchecked strict node current path).outcome = .ok value)
    (stores : kind.Stores value) : (kind.read strict node current path).outcome = .ok value :=
  read_eq_ok_iff.mpr ⟨h, admits_of_stores stores⟩

/-- **A stored value is read back** from its node, on top of any other one that the kind admits. -/
theorem read_write (lawful : kind.lawful = true) (stores : kind.Stores value)
    (admitted : kind.admits current = true) :
    (kind.read strict (kind.write value) current path).outcome = .ok value := by
  refine read_of_readUnchecked ?_ stores
  cases kind with
  | scalar kind => exact ScalarKind.read_write lawful stores
  | record parts =>
    cases value <;> try exact stores.elim
    cases current <;> try cases admitted
    unfold readUnchecked write
    rw [Traced.outcome_map, Literal.baseParts_record, readParts_writeParts lawful stores
      (length_eq_of_partsAdmit admitted)]
    rfl
  | shorthand s =>
    cases value <;> try exact stores.elim
    cases current <;> try cases admitted
    unfold readUnchecked write
    rw [show (writeParts s.parts _).scalarText? = none from rfl]
    dsimp only
    rw [Traced.outcome_map, Literal.baseParts_record, readParts_writeParts
      (Bool.and_eq_true_iff.mp lawful).1 stores (length_eq_of_partsAdmit admitted)]
    rfl
  | recordList parts =>
    cases value <;> try exact stores.elim
    rename_i entries
    unfold readUnchecked write
    dsimp only
    have each : ∀ entry ∈ entries, ((fun node =>
        (readParts strict parts path (zeroParts parts) node).outcome) ∘ writeParts parts) entry =
          .ok (id entry) := fun entry member =>
      readParts_writeParts lawful (stores entry member) (partsStore_zeroParts lawful).length_eq
    rw [Traced.outcome_map, Traced.outcome_mapM, List.mapM_map, Outcome.mapM_eq_map each,
      List.map_id]
    rfl

/-- **A stored value is read back** from its differences to another one, on top of that one. -/
theorem read_writeDifference (lawful : kind.lawful = true) (stores : kind.Stores value)
    (admitted : kind.admits current = true) :
    (kind.read strict (kind.writeDifference value current) current path).outcome = .ok value := by
  cases kind with
  | scalar kind =>
    change ((scalar kind).read strict ((scalar kind).write value) current path).outcome = _
    exact read_write lawful stores admitted
  | recordList parts =>
    change ((recordList parts).read strict ((recordList parts).write value) current
      path).outcome = _
    exact read_write lawful stores admitted
  | record parts =>
    cases value <;> try exact stores.elim
    cases current <;> try cases admitted
    refine read_of_readUnchecked ?_ stores
    unfold readUnchecked writeDifference
    rw [Traced.outcome_map, Literal.baseParts_record, readParts_writeDifferingParts lawful stores
      (length_eq_of_partsAdmit admitted)]
    rfl
  | shorthand s =>
    cases value <;> try exact stores.elim
    cases current <;> try cases admitted
    refine read_of_readUnchecked ?_ stores
    unfold readUnchecked writeDifference
    rw [show (writeDifferingParts s.parts _ _).scalarText? = none from rfl]
    dsimp only
    rw [Traced.outcome_map, Literal.baseParts_record, readParts_writeDifferingParts
      (Bool.and_eq_true_iff.mp lawful).1 stores (length_eq_of_partsAdmit admitted)]
    rfl

end FieldKind

end FormatStyle
