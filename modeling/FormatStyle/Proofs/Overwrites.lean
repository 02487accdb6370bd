import FormatStyle.Proofs.Reorderings

/-! # What a node overwrites

A node that is read on top of a value either replaces it, or replaces some of its parts and keeps
the others (`Overwriting`). Which parts it replaces, and with what, does not depend on the value
(`FieldKind.overwriting_of_read`). So a node says nothing new about a value that has been read from
it (`Overwriting.again`).
-/

namespace FormatStyle

open Yaml (Node)

/-! ## Parts -/

/-- **Values with some of them replaced**, by position. -/
def overwrite (fresh : Nat → Option Value) (values : List Value) : List Value :=
  values.mapIdx fun i value => (fresh i).getD value

section

variable {fresh fresh' : Nat → Option Value} {values others next : List Value} {parts : List Part}

theorem length_overwrite : (overwrite fresh values).length = values.length := List.length_mapIdx

theorem overwrite_none : overwrite (fun _ => none) values = values := by
  unfold overwrite
  exact List.ext_getElem (by simp) fun i _ _ => by simp

/-- What is replaced later counts. -/
theorem overwrite_overwrite : overwrite fresh' (overwrite fresh values) =
    overwrite (fun i => (fresh' i).or (fresh i)) values := by
  unfold overwrite
  rw [List.mapIdx_mapIdx]
  congr 1
  funext i value
  cases replaced : fresh' i <;> simp [replaced]

/-- What is replaced by the same again stays as it is. -/
theorem overwrite_again : overwrite fresh (overwrite fresh values) = overwrite fresh values := by
  rw [overwrite_overwrite]
  congr 1
  funext i
  exact Option.or_self

theorem overwrite_single {i : Nat} {value : Value} :
    overwrite (fun j => if i = j then some value else none) values = values.set i value := by
  unfold overwrite
  refine List.ext_getElem (by simp) fun j _ _ => ?_
  rw [List.getElem_mapIdx, List.getElem_set]
  by_cases here : i = j <;> simp [here]

/-- Values that fit are replaced by values that have fitted elsewhere. -/
private theorem partsAdmit_overwrite (fits : partsAdmit parts (overwrite fresh values) = true)
    (fits' : partsAdmit parts others = true) :
    partsAdmit parts (overwrite fresh others) = true := by
  rw [partsAdmit_iff] at fits fits' ⊢
  have aligned := fits.length_eq
  have aligned' := fits'.length_eq
  rw [length_overwrite] at aligned
  refine List.forall₂_iff_get.mpr ⟨by rw [length_overwrite, aligned'], fun i bound bound' => ?_⟩
  have mine := (List.forall₂_iff_get.mp fits).2 i bound (by rwa [length_overwrite, aligned])
  have other := (List.forall₂_iff_get.mp fits').2 i bound (by rwa [aligned'])
  simp only [List.get_eq_getElem, overwrite, List.getElem_mapIdx] at mine other ⊢
  cases replaced : fresh i with
  | none => exact other
  | some value => rwa [replaced] at mine

/-- **A step that replaces the same values** in all lists of a length. -/
def OverwritesParts (count : Nat) (step : List Value → Except StyleError (List Value)) : Prop :=
  ∃ fresh, ∀ values, values.length = count → step values = .ok (overwrite fresh values)

/-- **Steps that each replace values replace values together.** By induction on the steps; whether
one of them succeeds does not depend on the values either. -/
theorem OverwritesParts.foldlM {α : Type} {count : Nat}
    {step : List Value → α → Except StyleError (List Value)} {l : List α}
    (each : ∀ a ∈ l, ∀ values next, step values a = .ok next →
      OverwritesParts count fun values => step values a)
    (aligned : values.length = count) (folded : l.foldlM step values = .ok next) :
    OverwritesParts count (l.foldlM step) := by
  induction l generalizing values with
  | nil => exact ⟨fun _ => none, fun values _ => congrArg _ overwrite_none.symm⟩
  | cons a l ih =>
    rw [List.forall_mem_cons] at each
    rw [List.foldlM_cons] at folded
    obtain ⟨between, first, rest⟩ := Outcome.bind_eq_ok_iff.mp folded
    obtain ⟨fresh, replaces⟩ := each.1 values between first
    obtain rfl := Except.ok.inj (first.symm.trans (replaces values aligned))
    obtain ⟨fresh', replaces'⟩ := ih each.2 (by rwa [length_overwrite]) rest
    refine ⟨fun i => (fresh' i).or (fresh i), fun values aligned => ?_⟩
    have once : step values a = .ok (overwrite fresh values) := replaces values aligned
    have twice : l.foldlM step (overwrite fresh values) =
        .ok (overwrite fresh' (overwrite fresh values)) := replaces' _ (by rwa [length_overwrite])
    dsimp only
    rw [List.foldlM_cons, once, Outcome.ok_bind, twice, overwrite_overwrite]

variable {strict : Bool} {path : String} {entry : Node × Node} {node : Node}

/-- An entry replaces the part that it names, whatever the parts hold. -/
private theorem overwritesParts_readPart {count : Nat}
    (read : (readPart strict parts path values entry).outcome = .ok next) :
    OverwritesParts count fun values => (readPart strict parts path values entry).outcome := by
  obtain ⟨key, named, ⟨index, part, value, found, at_, said, -⟩ | ⟨unknown, lax, -⟩⟩ :=
    readPart_eq_ok_iff.mp read
  · refine ⟨fun j => if index = j then some value else none, fun values _ => ?_⟩
    rw [overwrite_single]
    exact readPart_eq_ok_iff.mpr ⟨key, named, .inl ⟨index, part, value, found, at_, said, rfl⟩⟩
  · refine ⟨fun _ => none, fun values _ => ?_⟩
    rw [overwrite_none]
    exact readPart_eq_ok_iff.mpr ⟨key, named, .inr ⟨unknown, lax, rfl⟩⟩

/-- **A mapping replaces the parts that it names**, whatever the parts hold. -/
theorem overwritesParts_readParts
    (read : (readParts strict parts path values node).outcome = .ok next)
    (aligned : values.length = parts.length) :
    OverwritesParts parts.length fun values =>
      (readParts strict parts path values node).outcome := by
  cases node with
  | mapping entries =>
    simp only [readParts, Traced.outcome_foldlM] at read ⊢
    exact .foldlM (fun entry _ values next => overwritesParts_readPart) aligned read
  | _ => cases read

/-- **Assignments replace the parts that they name**, whatever the parts hold. -/
theorem overwritesParts_assignParts {assignments : List (String × Literal)}
    (assigned : Literal.assignParts parts values assignments = .ok next)
    (aligned : values.length = parts.length) :
    OverwritesParts parts.length fun values => Literal.assignParts parts values assignments := by
  refine .foldlM (fun assignment _ values next made => ?_) aligned assigned
  obtain ⟨i, part, value, found, at_, denotes, -⟩ := Literal.assignPart_eq_ok made
  refine ⟨fun j => if i = j then some value else none, fun values aligned => ?_⟩
  have bound : i < values.length := aligned ▸ (List.getElem?_eq_some_iff.mp at_).1
  unfold Literal.assignPart
  rw [overwrite_single, found]
  dsimp only
  rw [at_, List.getElem?_eq_getElem bound]
  dsimp only
  rw [denotes]
  rfl

/-- **A spelling replaces the parts that it is short for**, whatever the parts hold. -/
theorem overwritesParts_spelled? {s : Shorthand} {spelling : String}
    (spelled : s.spelled? spelling values = some next) (aligned : values.length = s.parts.length) :
    OverwritesParts s.parts.length fun values =>
      (s.spelled? spelling values).elim (.error (unreadable path node)) .ok := by
  obtain ⟨entry, found, assigned⟩ := Option.bind_eq_some_iff.mp spelled
  obtain ⟨fresh, replaces⟩ :=
    overwritesParts_assignParts (Outcome.toOption_eq_some_iff.mp assigned) aligned
  refine ⟨fresh, fun values aligned => ?_⟩
  have again : s.spelled? spelling values = some (overwrite fresh values) := by
    unfold Shorthand.spelled?
    rw [found, Option.bind_some]
    exact Outcome.toOption_eq_some_iff.mpr (replaces values aligned)
  dsimp only
  rw [again, Option.elim_some]

end

/-! ## Values -/

/-- A value with some of its parts replaced, if it is a record. -/
def Value.overwriteParts (fresh : Nat → Option Value) : Value → Value
  | .record values => .record (overwrite fresh values)
  | value => value

/-- **What a node makes of a value**: it replaces the value, or some parts of it. -/
inductive Overwriting : (Value → Value) → Prop where
  | whole (value : Value) : Overwriting fun _ => value
  | parts (fresh : Nat → Option Value) : Overwriting (Value.overwriteParts fresh)

namespace Overwriting

variable {write : Value → Value}

/-- Nothing at all is said about a value. -/
theorem nothing : Overwriting id := by
  have same : Value.overwriteParts (fun _ => none) = id := by
    funext value
    cases value with
    | record values => exact congrArg _ overwrite_none
    | _ => rfl
  exact same ▸ .parts _

/-- **A node says nothing new about a value that it has been read into.** -/
theorem again (overwriting : Overwriting write) (value : Value) :
    write (write value) = write value := by
  cases overwriting with
  | whole => rfl
  | parts fresh =>
    cases value with
    | record values => exact congrArg Value.record overwrite_again
    | _ => rfl

/-- A simple value is replaced or kept, since it has no parts. -/
theorem simple (overwriting : Overwriting write) : (∃ value, ∀ held, write held = value) ∨
    ∀ (kind : ScalarKind) held, kind.admits held = true → write held = held := by
  cases overwriting with
  | whole value => exact .inl ⟨value, fun _ => rfl⟩
  | parts fresh =>
    refine .inr fun kind held admitted => ?_
    cases held with
    | record values => cases kind <;> cases admitted
    | _ => rfl

end Overwriting

namespace FieldKind

variable {kind : FieldKind} {strict : Bool} {node : Node} {path : String}
  {current value : Value}

/-- **A record is read by overwriting** if what is read from its node overwrites its parts. -/
theorem overwriting_of_parts (parts : List Part)
    (step : List Value → Except StyleError (List Value))
    (admits_iff : ∀ value, kind.admits value = true ↔
      ∃ values, value = .record values ∧ partsAdmit parts values = true)
    (unchecked : ∀ values,
      (kind.readUnchecked strict node (.record values) path).outcome = .record <$> step values)
    (overwrites : ∀ values next, values.length = parts.length → step values = .ok next →
      OverwritesParts parts.length step)
    (admitted : kind.admits current = true)
    (read : (kind.read strict node current path).outcome = .ok value) :
    ∃ write, Overwriting write ∧ ∀ current, kind.admits current = true →
      (kind.read strict node current path).outcome = .ok (write current) := by
  obtain ⟨values, rfl, fits⟩ := (admits_iff current).mp admitted
  obtain ⟨said, admitted⟩ := read_eq_ok_iff.mp read
  rw [unchecked] at said
  obtain ⟨next, stepped, rfl⟩ := Outcome.map_eq_ok_iff.mp said
  obtain ⟨fresh, replaces⟩ := overwrites values next (length_eq_of_partsAdmit fits) stepped
  obtain rfl := Except.ok.inj (stepped.symm.trans (replaces values (length_eq_of_partsAdmit fits)))
  obtain ⟨_, ⟨⟩, fits⟩ := (admits_iff _).mp admitted
  refine ⟨_, .parts fresh, fun current admitted => ?_⟩
  obtain ⟨others, rfl, fits'⟩ := (admits_iff current).mp admitted
  refine read_eq_ok_iff.mpr ⟨?_, (admits_iff _).mpr ⟨_, rfl, partsAdmit_overwrite fits fits'⟩⟩
  rw [unchecked, replaces others (length_eq_of_partsAdmit fits')]
  rfl

/-- **A node is read by overwriting**, and makes the same of every value that the kind admits. -/
theorem overwriting_of_read (admitted : kind.admits current = true)
    (read : (kind.read strict node current path).outcome = .ok value) :
    ∃ write, Overwriting write ∧ ∀ current, kind.admits current = true →
      (kind.read strict node current path).outcome = .ok (write current) := by
  cases kind with
  | scalar kind => exact ⟨_, .whole value, fun _ _ => read⟩
  | recordList parts => exact ⟨_, .whole value, fun _ _ => read⟩
  | record parts =>
    refine overwriting_of_parts parts
      (fun values => (readParts strict parts path values node).outcome) (fun value => ?_)
      (fun values => ?_) (fun _ _ aligned read => overwritesParts_readParts read aligned) admitted
      read
    · cases value <;> simp [admits]
    · rw [readUnchecked, Traced.outcome_map, Literal.baseParts_record]
  | shorthand s =>
    have admits_iff : ∀ value, (shorthand s).admits value = true ↔
        ∃ values, value = .record values ∧ partsAdmit s.parts values = true := by
      intro value
      cases value <;> simp [admits]
    cases written : node.scalarText? with
    | none =>
      refine overwriting_of_parts s.parts
        (fun values => (readParts strict s.parts path values node).outcome) admits_iff
        (fun values => ?_) (fun _ _ aligned read => overwritesParts_readParts read aligned) admitted
        read
      rw [readUnchecked, written]
      dsimp only
      rw [Traced.outcome_map, Literal.baseParts_record]
    | some spelling =>
      refine overwriting_of_parts s.parts
        (fun values => (s.spelled? spelling values).elim (.error (unreadable path node)) .ok)
        admits_iff (fun values => ?_) (fun values next aligned spells => ?_) admitted read
      · rw [readUnchecked, written]
        dsimp only
        rw [Literal.baseParts_record]
        cases s.spelled? spelling values <;> rfl
      · cases spelled : s.spelled? spelling values with
        | none =>
          rw [spelled] at spells
          cases spells
        | some replaced => exact overwritesParts_spelled? spelled aligned

end FieldKind

end FormatStyle
