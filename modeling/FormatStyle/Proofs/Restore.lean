import FormatStyle.Proofs.Step

/-! # Values carried there and back

A field restores its values if each can be carried to the other field, and what stands for it there
can be carried back to what stands for it here. This is checked on the tables: simple kinds with
finitely many values by trying each (`ScalarKind.restores`), other simple kinds by being the same,
and records part by part (`partsRestore`). Main statement: `restored_of_restores`.
-/

namespace FormatStyle

namespace ScalarKind

variable {source target : ScalarKind} {value : Value}

/-- **A simple kind whose values come back** from another one. -/
def restores (source target : ScalarKind) : Bool :=
  match source.values? with
  | some values => values.all fun value => (source.convert value target).any fun there =>
      target.convert there source == some value
  | none => source == target

/-- A value that is restored goes there and comes back. -/
private theorem convert_of_restores (restores : source.restores target = true)
    (admitted : source.admits value = true) :
    ∃ there, source.convert value target = some there ∧
      target.convert there source = some value := by
  unfold ScalarKind.restores at restores
  cases finite : source.values? with
  | some values =>
    rw [finite] at restores
    have tried := List.all_eq_true.mp restores value (mem_values? finite admitted)
    obtain ⟨there, goes, comes⟩ := (Option.any_eq_true _ _).mp tried
    exact ⟨there, goes, beq_iff_eq.mp comes⟩
  | none =>
    rw [finite] at restores
    obtain rfl := beq_iff_eq.mp restores
    exact ⟨value, convert_self finite admitted, convert_self finite admitted⟩

end ScalarKind

/-! ## Records -/

section Records

variable {source target : List Part} {values : List Value}

/-- **A record whose parts come back** from another one: both have parts of the same names, and
each part is restored. -/
def partsRestore (source target : List Part) : Bool :=
  decide (source.map (·.name)).Nodup && decide (target.map (·.name)).Nodup &&
    partsCovered source target && partsCovered target source &&
    target.all fun part => source.all fun other =>
      other.name != part.name || other.kind.restores part.kind

theorem partIndex?_of_nodup {parts : List Part} {i : Nat} (distinct : (parts.map (·.name)).Nodup)
    (bound : i < parts.length) : partIndex? parts parts[i].name = some i := by
  refine List.findIdx?_eq_some_iff_getElem.mpr ⟨bound, by simp, fun j before => ?_⟩
  have apart : parts[j].name ≠ parts[i].name := by
    intro same
    have names : (parts.map (·.name)).get ⟨j, by simpa using Nat.lt_trans before bound⟩ =
        (parts.map (·.name)).get ⟨i, by simpa using bound⟩ := by simpa using same
    have := congrArg Fin.val (List.nodup_iff_injective_get.mp distinct names)
    dsimp only at this
    omega
  simpa using apart

/-- Each part of a restored record has a partner whose values come back. -/
private theorem partner_of_partsRestore (restore : partsRestore source target = true) {j : Nat}
    (bound : j < target.length) : ∃ i, ∃ bound' : i < source.length,
      partIndex? source target[j].name = some i ∧ partIndex? target source[i].name = some j ∧
        source[i].kind.restores target[j].kind = true := by
  simp only [partsRestore, Bool.and_eq_true, decide_eq_true_eq] at restore
  obtain ⟨⟨⟨⟨distinct, distinct'⟩, covered⟩, -⟩, each⟩ := restore
  obtain ⟨i, index⟩ := Option.isSome_iff_exists.mp
    (List.all_eq_true.mp covered target[j] (List.getElem_mem bound))
  obtain ⟨bound', -, -⟩ := List.findIdx?_eq_some_iff_getElem.mp index
  have named := name_of_partIndex? index (List.getElem?_eq_getElem bound')
  refine ⟨i, bound', index, named ▸ partIndex?_of_nodup distinct' bound, ?_⟩
  have restored := List.all_eq_true.mp (List.all_eq_true.mp each target[j]
    (List.getElem_mem bound)) source[i] (List.getElem_mem bound')
  simpa [named] using restored

/-- **A record that is restored goes there and comes back**, whatever the fields held before. -/
theorem convertParts_of_partsRestore (restore : partsRestore source target = true)
    (admitted : partsAdmit source values = true) :
    ∃ there, partsAdmit target there = true ∧
      (∀ current, convertParts source values target current = some there) ∧
      ∀ current, convertParts target there source current = some values := by
  have checked := restore
  simp only [partsRestore, Bool.and_eq_true, decide_eq_true_eq] at checked
  obtain ⟨⟨⟨⟨distinct, distinct'⟩, -⟩, covered⟩, -⟩ := checked
  have admits := partsAdmit_iff.mp admitted
  have length := admits.length_eq
  have each : ∀ j (bound : j < target.length), ∃ there, ∃ i, ∃ bound' : i < source.length,
      partIndex? source target[j].name = some i ∧ partIndex? target source[i].name = some j ∧
        source[i].kind.convert (values.get ⟨i, length ▸ bound'⟩) target[j].kind = some there ∧
        target[j].kind.convert there source[i].kind = some (values.get ⟨i, length ▸ bound'⟩) := by
    intro j bound
    obtain ⟨i, bound', index, index', restores⟩ := partner_of_partsRestore restore bound
    obtain ⟨there, goes, comes⟩ := ScalarKind.convert_of_restores restores
      ((List.forall₂_iff_get.mp admits).2 i bound' (length ▸ bound'))
    exact ⟨there, i, bound', index, index', goes, comes⟩
  choose there partner bounds index index' goes comes using each
  let converted := List.ofFn fun j : Fin target.length => there j j.2
  have place : ∀ j (bound : j < target.length),
      partAt? target converted target[j].name = some (target[j], there j bound) := by
    intro j bound
    have own : partIndex? target target[j].name = some j := partIndex?_of_nodup distinct' bound
    simp [partAt?, own, converted, bound]
  refine ⟨converted, partsAdmit_iff.mpr ?_, fun current => ?_, fun current => ?_⟩
  · refine List.forall₂_iff_get.mpr ⟨by simp [converted], fun j bound _ => ?_⟩
    simpa [converted] using ScalarKind.admits_of_convert (goes j bound)
  · refine convertParts_eq_some (List.forall₂_iff_get.mpr
      ⟨by simp [converted], fun j bound _ => ⟨source.get ⟨partner j bound, bounds j bound⟩,
        values.get ⟨partner j bound, length ▸ bounds j bound⟩, ?_, ?_⟩⟩)
    · simp [partAt?, index j bound, bounds j bound, length]
    · simpa [converted] using goes j bound
  · refine convertParts_eq_some (List.forall₂_iff_get.mpr ⟨length.symm, fun i bound bound' => ?_⟩)
    obtain ⟨j, found⟩ := Option.isSome_iff_exists.mp
      (List.all_eq_true.mp covered source[i] (List.getElem_mem bound))
    obtain ⟨bound_j, -, -⟩ := List.findIdx?_eq_some_iff_getElem.mp found
    have named := name_of_partIndex? found (List.getElem?_eq_getElem bound_j)
    have same : partner j bound_j = i := by
      have own := partIndex?_of_nodup distinct bound
      rw [← named, index j bound_j, Option.some.injEq] at own
      exact own
    refine ⟨target[j], there j bound_j, ?_, ?_⟩
    · have := place j bound_j
      rwa [named] at this
    · have := comes j bound_j
      simpa only [same, List.get_eq_getElem] using this

/-! ## Words for records -/

/-- Some assignment is to each part. -/
def saysAll (parts : List Part) (assignments : List (String × Literal)) : Bool :=
  parts.all fun part => assignments.any (·.1 == part.name)

/-- An assignment to a part of a record that has all its values. -/
theorem assignPart_of_index {parts : List Part} {assignment : String × Literal}
    {values : List Value} {i : Nat} (index : partIndex? parts assignment.1 = some i)
    (bound : i < parts.length) (length : values.length = parts.length) :
    Literal.assignPart parts values assignment =
      (assignment.2.toScalar parts[i].name parts[i].kind).map (values.set i) := by
  unfold Literal.assignPart
  rw [index]
  dsimp only
  rw [List.getElem?_eq_getElem bound, List.getElem?_eq_getElem (length ▸ bound)]
  dsimp only
  cases assignment.2.toScalar parts[i].name parts[i].kind <;> rfl

/-- **Assignments forget the parts that they assign.** -/
theorem assignParts_congr {parts : List Part} {assignments : List (String × Literal)}
    {base base' : List Value} (distinct : (parts.map (·.name)).Nodup)
    (length : base.length = parts.length) (length' : base'.length = parts.length)
    (agree : ∀ i (bound : i < parts.length), base[i]? = base'[i]? ∨
      assignments.any (·.1 == parts[i].name) = true) :
    Literal.assignParts parts base assignments = Literal.assignParts parts base' assignments := by
  unfold Literal.assignParts
  induction assignments generalizing base base' with
  | nil =>
    have same : base = base' := by
      refine List.ext_getElem? fun i => ?_
      by_cases bound : i < parts.length
      · simpa using agree i bound
      · rw [List.getElem?_eq_none (by omega), List.getElem?_eq_none (by omega)]
    rw [same]
  | cons assignment assignments ih =>
    rw [List.foldlM_cons, List.foldlM_cons]
    cases index : partIndex? parts assignment.1 with
    | none => simp [Literal.assignPart, index]
    | some i =>
      obtain ⟨bound, -, -⟩ := List.findIdx?_eq_some_iff_getElem.mp index
      rw [assignPart_of_index index bound length, assignPart_of_index index bound length']
      cases assignment.2.toScalar parts[i].name parts[i].kind with
      | error e => rfl
      | ok value =>
        refine ih (by simpa using length) (by simpa using length') fun j bound_j => ?_
        by_cases same : i = j
        · subst same
          simp [length, length', bound]
        · rw [List.getElem?_set_ne same, List.getElem?_set_ne same]
          refine (agree j bound_j).imp_right fun said => ?_
          have apart : assignment.1 ≠ parts[j].name := by
            rintro here
            have own := partIndex?_of_nodup distinct bound_j
            rw [← here, index, Option.some.injEq] at own
            exact same own
          simpa [apart] using said

end Records

namespace FieldKind

/-- The kind is the given simple one. -/
def isScalar (kind : ScalarKind) : FieldKind → Bool
  | scalar other => kind == other
  | _ => false

/-- **A kind whose words say all of a value**: what they stand for does not depend on the value
before. -/
def absolute : FieldKind → Bool
  | scalar _ => true
  | shorthand s => decide (s.parts.map (·.name)).Nodup && s.spellings.all (saysAll s.parts ·.2)
  | _ => false

variable {source target : FieldKind} {value current current' : Value}

/-- **What a word stands for** in an absolute kind does not depend on the value before. -/
theorem spelled?_congr {s : Shorthand} {word : String}
    (absolute : (shorthand s).absolute = true) (admits : (shorthand s).admits current = true)
    (admits' : (shorthand s).admits current' = true) :
    s.spelled? word (Literal.baseParts s.parts current) =
      s.spelled? word (Literal.baseParts s.parts current') := by
  unfold Shorthand.spelled?
  cases found : s.spellings.find? (·.1 == word) with
  | none => rfl
  | some entry =>
    simp only [FieldKind.absolute, Bool.and_eq_true, decide_eq_true_eq] at absolute
    have all := List.all_eq_true.mp absolute.2 entry (List.mem_of_find?_eq_some found)
    cases current <;> try cases admits
    cases current' <;> try cases admits'
    refine congrArg Except.toOption (assignParts_congr absolute.1 (length_eq_of_partsAdmit admits)
      (length_eq_of_partsAdmit admits') fun i bound => .inr ?_)
    exact List.all_eq_true.mp all _ (List.getElem_mem bound)

/-- **Flags and choices are carried** to an absolute kind without a look at the value before. -/
theorem convert_congr (absolute : target.absolute = true) (finite : value.record? = none)
    (admits : target.admits current = true) (admits' : target.admits current' = true) :
    source.convert value target current = source.convert value target current' := by
  cases target with
  | scalar kind => cases value <;> rfl
  | shorthand s =>
    have spelled : (fun word => s.spelled? word (Literal.baseParts s.parts current)) =
        fun word => s.spelled? word (Literal.baseParts s.parts current') :=
      funext fun word => spelled?_congr absolute admits admits'
    let spell := fun (word? : String → Option (List Value)) =>
      (((source.spellings value).findSome? word?).map .record).filter (shorthand s).admits
    cases value with
    | bool b => exact congrArg spell spelled
    | choice variant => exact congrArg spell spelled
    | record values => cases finite
    | _ => rfl
  | record parts => cases absolute
  | recordList parts => cases absolute

/-- **A record goes there and comes back** as a whole. -/
theorem convert_record_of_partsRestore {parts others : List Part} {values : List Value}
    (restore : partsRestore parts others = true)
    (admitted : (record parts).admits (.record values) = true) :
    ∃ there, (∀ current, (record parts).convert (.record values) (record others) current =
        some (.record there)) ∧
      ∀ current, (record others).convert (.record there) (record parts) current =
        some (.record values) := by
  obtain ⟨there, admitted', goes, comes⟩ := convertParts_of_partsRestore restore admitted
  have fits : (record others).admits (.record there) = true := admitted'
  refine ⟨there, fun current => ?_, fun current => ?_⟩
  · simp [convert, represent, parts?, goes, Option.filter, fits]
  · simp [convert, represent, parts?, comes, Option.filter, admitted]

/-- **A list of records goes there and comes back**, entry by entry. -/
theorem convert_records_of_partsRestore {parts others : List Part} {entries : List (List Value)}
    (restore : partsRestore parts others = true)
    (admitted : (recordList parts).admits (.records entries) = true) :
    ∃ there, (∀ current, (recordList parts).convert (.records entries) (recordList others)
        current = some (.records there)) ∧
      ∀ current, (recordList others).convert (.records there) (recordList parts) current =
        some (.records entries) := by
  obtain ⟨there, admitted', goes, comes⟩ : ∃ there,
      (recordList others).admits (.records there) = true ∧
      (∀ current, entries.mapM (fun values => convertParts parts values others current) =
        some there) ∧
      ∀ current, there.mapM (fun values => convertParts others values parts current) =
        some entries := by
    induction entries with
    | nil => exact ⟨[], rfl, fun _ => rfl, fun _ => rfl⟩
    | cons values entries ih =>
      obtain ⟨first, rest⟩ := Bool.and_eq_true_iff.mp admitted
      obtain ⟨one, one_fits, goes, comes⟩ := convertParts_of_partsRestore restore first
      obtain ⟨there, fits, goes', comes'⟩ := ih rest
      refine ⟨one :: there, Bool.and_eq_true_iff.mpr ⟨one_fits, fits⟩, fun current => ?_,
        fun current => ?_⟩
      · rw [List.mapM_cons, goes, goes']
        rfl
      · rw [List.mapM_cons, comes, comes']
        rfl
  refine ⟨there, fun current => ?_, fun current => ?_⟩
  · simp [convert, represent, parts?, goes, Option.filter, admitted']
  · simp [convert, represent, parts?, comes, Option.filter, admitted]

end FieldKind

/-! ## Fields -/

namespace Migration.Step

/-- **What stands for a value** once it has come back: the value itself, and in a loose field the
newest standard for the one whose name older documents used for it. -/
def standIns (loose : Bool) : Value → List Value
  | .choice variant =>
    if loose && variant == "Cpp11" then [.choice variant, .choice "Latest"] else [.choice variant]
  | value => [value]

theorem mem_standIns_self {loose : Bool} {value : Value} : value ∈ standIns loose value := by
  unfold standIns
  repeat' split
  all_goals simp

theorem standIns_strict {value : Value} : standIns false value = [value] := by
  cases value <;> rfl

/-- **A field whose values come back** from another one, by the rows and by the kinds. -/
def restores (map : List (Literal × Literal)) (source target : Field) (loose loose' : Bool) :
    Bool :=
  match source.kind, target.kind with
  | .scalar kind, other =>
    match kind.values? with
    | some values =>
      (other.parts?.isNone || map.isEmpty && other.absolute) && values.all fun value =>
        (carried map source target value other.zero).any fun there =>
          (standIns loose' there).all fun there =>
            (carried (map.map Prod.swap) target source there kind.zero).any
              (standIns loose value).contains
    | none => map.isEmpty && other.isScalar kind
  | .record parts, .record others => map.isEmpty && partsRestore parts others
  | .recordList parts, .recordList others => map.isEmpty && partsRestore parts others
  | _, _ => false

variable {map : List (Literal × Literal)} {source target : Field} {value current current' : Value}

/-- Without rows a field is carried by its kind. -/
theorem carried_nil :
    carried [] source target value current = source.kind.convert value target.kind current := rfl

/-- A simple field takes a value without a look at what it held before. -/
theorem carried_scalar {kind : ScalarKind} (is_scalar : target.kind = .scalar kind) :
    carried map source target value current = carried map source target value current' := by
  have translated : translate? map value target current = translate? map value target current' := by
    simp [translate?, Literal.toValue, is_scalar, Literal.denote_scalar]
  have converted : source.kind.convert value target.kind current =
      source.kind.convert value target.kind current' := by
    rw [is_scalar]
    cases value <;> rfl
  rw [carried, carried, translated, converted]

/-- **Flags and choices are carried** without a look at what an absolute field held before. -/
theorem carried_congr
    (absolute : target.kind.parts?.isNone || map.isEmpty && target.kind.absolute)
    (finite : value.record? = none) (admits : target.kind.admits current = true)
    (admits' : target.kind.admits current' = true) :
    carried map source target value current = carried map source target value current' := by
  rcases Bool.or_eq_true_iff.mp absolute with simple | wordy
  · cases kind : target.kind with
    | scalar => exact carried_scalar kind
    | _ => simp [kind, FieldKind.parts?] at simple
  · obtain ⟨empty, whole⟩ := Bool.and_eq_true_iff.mp wordy
    obtain rfl := List.isEmpty_iff.mp empty
    exact FieldKind.convert_congr whole finite admits admits'

/-- **A value that comes back**: it is carried there, and what stands for it there is carried back
to what stands for it here, whatever the fields held before. -/
def Restored (map : List (Literal × Literal)) (source target : Field) (loose loose' : Bool)
    (value : Value) : Prop :=
  ∃ there, (∀ current, target.kind.admits current = true →
      carried map source target value current = some there) ∧
    ∀ there' ∈ standIns loose' there, ∃ here ∈ standIns loose value, ∀ current,
      carried (map.map Prod.swap) target source there' current = some here

variable {loose loose' : Bool}

/-- What the kinds carry there and back comes back. -/
theorem restored_of_convert {there : Value} (strict : standIns loose' there = [there])
    (goes : ∀ current, source.kind.convert value target.kind current = some there)
    (comes : ∀ current, target.kind.convert there source.kind current = some value) :
    Restored [] source target loose loose' value := by
  refine ⟨there, fun current _ => goes current, fun there' member => ⟨value, mem_standIns_self, ?_⟩⟩
  rw [strict, List.mem_singleton] at member
  subst member
  exact comes

/-- Simple values are carried to their own kind as they are. -/
private theorem restored_scalar {kind : ScalarKind} (source_kind : source.kind = .scalar kind)
    (target_kind : target.kind = .scalar kind) (infinite : kind.values? = none)
    (admitted : kind.admits value = true) : Restored [] source target loose loose' value := by
  have same := ScalarKind.convert_self infinite admitted
  have stays : ∀ current, (FieldKind.scalar kind).convert value (.scalar kind) current =
      some value := by
    intro current
    cases value <;> exact same
  refine restored_of_convert ?_ (by rwa [source_kind, target_kind])
    (by rwa [source_kind, target_kind])
  cases value <;> first | rfl | (cases kind <;> first | cases admitted | cases infinite)

/-- **What is restored comes back.** -/
theorem restored_of_restores (check : restores map source target loose loose' = true)
    (lawful : target.kind.lawful = true) (admitted : source.kind.admits value = true) :
    Restored map source target loose loose' value := by
  unfold restores at check
  rcases source_kind : source.kind with kind | parts | words | parts
  · rw [source_kind] at check admitted
    cases finite : kind.values? with
    | some values =>
      simp only [finite, Bool.and_eq_true] at check
      obtain ⟨absolute, each⟩ := check
      have zero := FieldKind.admits_of_stores (FieldKind.stores_zero lawful)
      have tried := List.all_eq_true.mp each value (ScalarKind.mem_values? finite admitted)
      obtain ⟨there, goes, comes⟩ := (Option.any_eq_true _ _).mp tried
      have plain : value.record? = none := by
        cases value <;> first | rfl | (cases kind <;> cases admitted)
      refine ⟨there, fun current fits => ?_, fun there' member => ?_⟩
      · rw [carried_congr absolute plain fits zero]
        exact goes
      · obtain ⟨here, back, stands⟩ :=
          (Option.any_eq_true _ _).mp (List.all_eq_true.mp comes there' member)
        refine ⟨here, by simpa using stands, fun current => ?_⟩
        exact (carried_scalar source_kind).trans back
    | none =>
      simp only [finite, Bool.and_eq_true] at check
      obtain rfl := List.isEmpty_iff.mp check.1
      cases target_kind : target.kind with
      | scalar other =>
        obtain rfl : kind = other := by simpa [target_kind, FieldKind.isScalar] using check.2
        exact restored_scalar source_kind target_kind finite admitted
      | _ => simp [target_kind, FieldKind.isScalar] at check
  · cases target_kind : target.kind with
    | record others =>
      simp only [source_kind, target_kind, Bool.and_eq_true] at check
      rw [source_kind] at admitted
      obtain rfl := List.isEmpty_iff.mp check.1
      cases value <;> try cases admitted
      obtain ⟨there, goes, comes⟩ := FieldKind.convert_record_of_partsRestore check.2 admitted
      exact restored_of_convert rfl (by rwa [source_kind, target_kind])
        (by rwa [source_kind, target_kind])
    | _ => simp [source_kind, target_kind] at check
  · simp [source_kind] at check
  · cases target_kind : target.kind with
    | recordList others =>
      simp only [source_kind, target_kind, Bool.and_eq_true] at check
      rw [source_kind] at admitted
      obtain rfl := List.isEmpty_iff.mp check.1
      cases value <;> try cases admitted
      obtain ⟨there, goes, comes⟩ := FieldKind.convert_records_of_partsRestore check.2 admitted
      exact restored_of_convert rfl (by rwa [source_kind, target_kind])
        (by rwa [source_kind, target_kind])
    | _ => simp [source_kind, target_kind] at check

end Migration.Step

end FormatStyle
