import FormatStyle.Conversion
import FormatStyle.Proofs.Kinds

/-! # Carried values

What a converted value depends on, and what it keeps. Simple values and words for whole records do
not depend on what the target field held before (`FieldKind.convert_current`); records are carried
part by part by name (`convertParts_eq_some`); and a value that a machine word stores is stored
after it has been carried, where numbers keep their kind (`FieldKind.stores_of_convert`).
-/

namespace FormatStyle

namespace ScalarKind

variable {source target : ScalarKind} {value converted : Value}

/-- All values of a kind that has finitely many. -/
def values? : ScalarKind → Option (List Value)
  | bool => some [.bool true, .bool false]
  | choice e => some (e.spellings.map fun s => .choice s.2)
  | _ => none

theorem mem_values? {kind : ScalarKind} {values : List Value} (finite : kind.values? = some values)
    (admitted : kind.admits value = true) : value ∈ values := by
  cases kind <;> cases finite
  · cases value <;> simp_all [admits]
  · cases value with
    | choice variant =>
      obtain ⟨s, member, named⟩ := List.any_eq_true.mp (show Enumeration.hasVariant _ _ = true from
        admitted)
      exact List.mem_map.mpr ⟨s, member, by simpa using named⟩
    | _ => cases admitted

/-- A value of a kind without finitely many values is carried to that kind as it is. -/
theorem convert_self {kind : ScalarKind} (infinite : kind.values? = none)
    (admitted : kind.admits value = true) : kind.convert value kind = some value := by
  unfold convert
  cases kind <;> simp only [values?, reduceCtorEq] at infinite <;> cases value <;>
    simp_all [admits, represent, Option.filter]

/-- **Numbers keep their kind.** -/
def keepsWidth (source target : ScalarKind) : Bool :=
  match target with
  | int | unsigned | bound => source == target || !(source == int || source == unsigned ||
      source == bound)
  | _ => true

theorem stores_of_convert (keeps : source.keepsWidth target = true) (stores : source.Stores value)
    (h : source.convert value target = some converted) : target.Stores converted := by
  obtain ⟨represented, admitted⟩ := Option.filter_eq_some_iff.mp h
  refine ⟨admitted, ?_⟩
  obtain ⟨source_admits, width⟩ := stores
  cases target <;> cases value <;> simp only [represent, reduceCtorEq, Option.some.injEq]
    at represented <;> try trivial
  all_goals
    subst represented
    cases source <;> simp_all [keepsWidth, admits]

end ScalarKind

/-! ## Records -/

variable {source target : List Part} {values : List Value} {current : Value}

/-- The part of a record and its value under a name. -/
def partAt? (parts : List Part) (values : List Value) (name : String) : Option (Part × Value) :=
  (partIndex? parts name).bind fun i =>
    (parts[i]?).bind fun part => (values[i]?).map fun value => (part, value)

/-- **Every part of the target has a counterpart** of its name. -/
def partsCovered (source target : List Part) : Bool :=
  target.all fun part => (partIndex? source part.name).isSome

/-- The values that a carried record starts from, one for each part. -/
def carryBase (target : List Part) (current : Value) : List Value :=
  (current.record?.filter (·.length == target.length)).getD (zeroParts target)

theorem length_carryBase : (carryBase target current).length = target.length := by
  unfold carryBase
  cases found : current.record?.filter (·.length == target.length) with
  | none => simp [zeroParts]
  | some base => simpa using (Option.filter_eq_some_iff.mp found).2

/-- **A record is carried part by part**: where every part of the target has a counterpart whose
value can be carried, the record can, whatever the target held before. -/
theorem convertParts_eq_some {converted : List Value}
    (carried : List.Forall₂ (fun (part : Part) value => ∃ other old,
      partAt? source values part.name = some (other, old) ∧
        other.kind.convert old part.kind = some value) target converted) :
    convertParts source values target current = some converted := by
  change (target.zip (carryBase target current)).mapM _ = _
  have aligned : (carryBase target current).length = target.length := length_carryBase
  generalize carryBase target current = base at aligned ⊢
  induction carried generalizing base with
  | nil => simp
  | @cons part value parts converted one _ ih =>
    cases base with
    | nil => simp at aligned
    | cons old base =>
      obtain ⟨other, old', at_, converts⟩ := one
      obtain ⟨i, index, at_⟩ := Option.bind_eq_some_iff.mp at_
      obtain ⟨part', part_at, at_⟩ := Option.bind_eq_some_iff.mp at_
      obtain ⟨value', value_at, same⟩ := Option.map_eq_some_iff.mp at_
      cases same
      have first : convertPart source values (part, old) = some value := by
        simp [convertPart, index, part_at, value_at, converts]
      rw [List.zip_cons_cons, List.mapM_cons, first]
      simp [ih base (by simpa using aligned)]

/-- A successful traversal relates each member to its result. -/
theorem forall₂_of_mapM {α β : Type} {f : α → Option β} {l : List α} {l' : List β}
    (h : l.mapM f = some l') : List.Forall₂ (fun a b => f a = some b) l l' := by
  induction l generalizing l' with
  | nil =>
    cases h
    exact .nil
  | cons a l ih =>
    rw [List.mapM_cons] at h
    obtain ⟨b, first, h⟩ := Option.bind_eq_some_iff.mp h
    obtain ⟨bs, others, h⟩ := Option.bind_eq_some_iff.mp h
    cases h
    exact .cons first (ih others)

/-- Numbers keep their kind in the parts of one name. -/
def partsKeepWidth (source target : List Part) : Bool :=
  target.all fun part => source.all fun other =>
    other.name != part.name || other.kind.keepsWidth part.kind

theorem name_of_partIndex? {parts : List Part} {part : Part} {name : String} {i : Nat}
    (index : partIndex? parts name = some i) (at_ : parts[i]? = some part) : part.name = name := by
  obtain ⟨bound, matched, _⟩ := List.findIdx?_eq_some_iff_getElem.mp index
  rw [List.getElem?_eq_getElem bound, Option.some.injEq] at at_
  subst at_
  simpa using matched

theorem partsStore_of_convertParts {converted : List Value}
    (keeps : partsKeepWidth source target = true)
    (stores : PartsHold ScalarKind.Stores source values)
    (base : PartsHold ScalarKind.Stores target (carryBase target current))
    (h : convertParts source values target current = some converted) :
    PartsHold ScalarKind.Stores target converted := by
  change (target.zip (carryBase target current)).mapM _ = _ at h
  have each := forall₂_of_mapM h
  refine List.forall₂_iff_get.mpr ⟨?_, fun i bound bound' => ?_⟩
  · rw [← each.length_eq, List.length_zip, length_carryBase, Nat.min_self]
  · have bound'' : i < (carryBase target current).length := by rwa [length_carryBase]
    have one : convertPart source values (target[i], (carryBase target current)[i]) =
        some converted[i] := by
      have within : i < (target.zip (carryBase target current)).length := by
        rw [List.length_zip]
        omega
      have := (List.forall₂_iff_get.mp each).2 i within bound'
      simpa using this
    have fallback : target[i].kind.Stores (carryBase target current)[i] :=
      (List.forall₂_iff_get.mp base).2 i bound bound''
    change target[i].kind.Stores converted[i]
    unfold convertPart at one
    split at one
    · have same : (carryBase target current)[i] = converted[i] := Option.some.inj one
      exact same ▸ fallback
    · rename_i j index
      split at one
      · rename_i other old part_at value_at
        have named := name_of_partIndex? index part_at
        refine ScalarKind.stores_of_convert ?_ (stores.getElem? part_at value_at) one
        have checked := List.all_eq_true.mp (List.all_eq_true.mp keeps target[i]
          (List.getElem_mem bound)) other (List.mem_of_getElem? part_at)
        simpa [named] using checked
      · have same : (carryBase target current)[i] = converted[i] := Option.some.inj one
        exact same ▸ fallback

theorem partsStore_carryBase (lawful : partsLawful target = true)
    (stores : ∀ values, current = .record values → PartsHold ScalarKind.Stores target values) :
    PartsHold ScalarKind.Stores target (carryBase target current) := by
  unfold carryBase
  cases found : current.record?.filter (·.length == target.length) with
  | none => exact partsStore_zeroParts lawful
  | some base =>
    have held := (Option.filter_eq_some_iff.mp found).1
    cases current <;> cases held
    exact stores _ rfl

namespace FieldKind

variable {source target : FieldKind} {value converted : Value}

/-- **Numbers keep their kind**, at every place. -/
def keepsWidth : FieldKind → FieldKind → Bool
  | scalar source, scalar target => source.keepsWidth target
  | source, target =>
    match source.parts?, target.parts? with
    | some source, some target => partsKeepWidth source target
    | _, _ => true

/-- What is carried to a simple kind is stored, if its numbers keep their kind. -/
theorem stores_of_represent_scalar {kind : ScalarKind}
    (keeps : source.keepsWidth (scalar kind) = true) (stores : source.Stores value)
    (represented : kind.represent (source.spellings value) value = some converted)
    (admitted : kind.admits converted = true) : kind.Stores converted := by
  cases source with
  | scalar source =>
    refine ScalarKind.stores_of_convert keeps stores (Option.filter_eq_some_iff.mpr ⟨?_, admitted⟩)
    cases value <;> exact represented
  | _ =>
    refine ⟨admitted, ?_⟩
    cases value <;> first
      | exact stores.elim
      | cases kind <;> simp only [ScalarKind.represent, reduceCtorEq] at represented <;> trivial

/-- **What is carried is stored**, if its numbers keep their kind. -/
theorem stores_of_convert (keeps : source.keepsWidth target = true) (lawful : target.lawful = true)
    (stores : source.Stores value) (current_stores : target.Stores current)
    (h : source.convert value target current = some converted) : target.Stores converted := by
  obtain ⟨represented, admitted⟩ := Option.filter_eq_some_iff.mp h
  cases target with
  | scalar kind =>
    refine stores_of_represent_scalar keeps stores ?_ admitted
    cases value <;> exact represented
  | record parts =>
    cases value <;> try cases represented
    obtain ⟨others, parts_eq, represented⟩ := Option.bind_eq_some_iff.mp represented
    obtain ⟨carried, carries, same⟩ := Option.bind_eq_some_iff.mp represented
    cases same
    cases source <;> cases parts_eq <;> try exact stores.elim
    all_goals
      refine partsStore_of_convertParts keeps stores (partsStore_carryBase lawful ?_) carries
      rintro values rfl
      exact current_stores
  | shorthand s =>
    have lawful' := (Bool.and_eq_true_iff.mp lawful).1
    cases value with
    | record values =>
      obtain ⟨others, parts_eq, represented⟩ := Option.bind_eq_some_iff.mp represented
      obtain ⟨carried, carries, same⟩ := Option.bind_eq_some_iff.mp represented
      cases same
      cases source <;> cases parts_eq <;> try exact stores.elim
      all_goals
        refine partsStore_of_convertParts keeps stores (partsStore_carryBase lawful' ?_) carries
        rintro values rfl
        exact current_stores
    | bool b =>
      obtain ⟨spelled, found, rfl⟩ := Option.map_eq_some_iff.mp represented
      obtain ⟨word, -, spells⟩ := List.exists_of_findSome?_eq_some found
      cases current <;> try exact current_stores.elim
      exact Literal.partsStore_of_spelled? lawful spells current_stores
    | choice variant =>
      obtain ⟨spelled, found, rfl⟩ := Option.map_eq_some_iff.mp represented
      obtain ⟨word, -, spells⟩ := List.exists_of_findSome?_eq_some found
      cases current <;> try exact current_stores.elim
      exact Literal.partsStore_of_spelled? lawful spells current_stores
    | _ => cases represented
  | recordList parts =>
    cases value <;> try cases represented
    rename_i entries
    obtain ⟨others, parts_eq, represented⟩ := Option.bind_eq_some_iff.mp represented
    obtain ⟨carried, carries, same⟩ := Option.bind_eq_some_iff.mp represented
    cases same
    cases source <;> cases parts_eq <;> try exact stores.elim
    intro entry member
    obtain ⟨i, bound, rfl⟩ := List.getElem_of_mem member
    have each := List.forall₂_iff_get.mp (forall₂_of_mapM carries)
    have bound' : i < entries.length := each.1 ▸ bound
    refine partsStore_of_convertParts keeps (stores _ (List.getElem_mem bound'))
      (partsStore_carryBase lawful ?_) (each.2 i bound' bound)
    rintro values ⟨⟩
    exact partsStore_zeroParts lawful

end FieldKind

end FormatStyle
