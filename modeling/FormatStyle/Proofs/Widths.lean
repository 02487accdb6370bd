import FormatStyle.Proofs.Return

/-! # Steps between stored values

What a step carries is stored by the next version: its rows have small numbers, and numbers keep
their kind between neighbouring versions. Main statement: a step leads from a native record to a
native one (`Migration.Step.native_next`).
-/

namespace FormatStyle

open Migration Step StyleRecord

variable {s : Step}

/-- **A renaming stores what comes from its source.** -/
theorem Version.keepsWidth_of_mem {a b : Version} (adjacent : a.Adjacent b)
    {source target : String} {map : List (Literal × Literal)} {field other : Field}
    (member : Transfer.rename source target map ∈ a.moves b)
    (found : a.schema.field? source = some field) (found' : b.schema.field? target = some other) :
    field.kind.keepsWidth other.kind = true := by
  rcases adjacent with next | next
  · have comes := comesBack_of_mem next member
    simp only [Transfer.comesBack, found, found', Option.any_some, Bool.and_eq_true] at comes
    exact (Bool.and_eq_true_iff.mp comes.2).1
  · obtain ⟨t, member', reversed⟩ := exists_reverse_of_mem_moves next member
    cases t <;> cases reversed
    have comes := comesBack_of_mem next member'
    simp only [Transfer.comesBack, found, found', Option.any_some, Bool.and_eq_true] at comes
    exact (Bool.and_eq_true_iff.mp comes.2).2

namespace Migration.Step

theorem stores_carried {map : List (Literal × Literal)} {source target : Field}
    {value current converted : Value} (narrow : map.all (·.2.narrow) = true)
    (keeps : source.kind.keepsWidth target.kind = true) (lawful : target.kind.lawful = true)
    (stores : source.kind.Stores value) (current_stores : target.kind.Stores current)
    (h : carried map source target value current = some converted) :
    target.kind.Stores converted := by
  rcases Option.or_eq_some_iff.mp h with translated | ⟨-, converts⟩
  · obtain ⟨row, row_found, denotes⟩ := Option.bind_eq_some_iff.mp translated
    exact Literal.stores_of_toValue lawful
      (List.all_eq_true.mp narrow row (List.mem_of_find?_eq_some row_found)) current_stores
      (Outcome.toOption_eq_some_iff.mp denotes)
  · exact FieldKind.stores_of_convert keeps lawful stores current_stores converts

theorem stores_denoted {target : String} {literal : Literal} {value : Value}
    (accepted : s.after.schema.acceptsScalar (target, literal) = true)
    (denoted : s.denoted? target literal = some value) :
    ∃ field, s.after.schema.field? target = some field ∧ field.kind.Stores value := by
  obtain ⟨field, found, fits⟩ := (Option.any_eq_true _ _).mp accepted
  refine ⟨field, found, ?_⟩
  split at fits
  · rename_i kind is_scalar
    obtain ⟨isOk, small⟩ := Bool.and_eq_true_iff.mp fits
    obtain ⟨value', denotes⟩ := Outcome.isOk_iff.mp isOk
    rw [denoted?_scalar found is_scalar field.kind.zero, is_scalar,
      Literal.toValue_of_toScalar denotes] at denoted
    cases denoted
    rw [is_scalar]
    exact (Literal.toScalar_eq_ok denotes).2 small
  · cases fits

/-- **What a transfer assigns, the next version stores.** -/
theorem stores_assigned {t : Transfer} (adjacent : s.record.version.Adjacent s.after.version)
    (stores : s.record.Each FieldKind.Stores) (after_stores : s.after.Each FieldKind.Stores)
    (member : t ∈ s.moves) : ∀ write ∈ s.assigned t, ∃ field,
      s.after.schema.field? write.1 = some field ∧ field.kind.Stores write.2 := by
  have fits := List.all_eq_true.mp (Version.moves_fit adjacent).1 t member
  intro write assigned
  cases t with
  | rename source target map =>
    obtain ⟨value, made, rfl⟩ := List.mem_map.mp assigned
    rw [Option.mem_toList, renamed?] at made
    obtain ⟨old, holds, made⟩ := Option.bind_eq_some_iff.mp made
    obtain ⟨field, found, made⟩ := Option.bind_eq_some_iff.mp made
    obtain ⟨other, found', made⟩ := Option.bind_eq_some_iff.mp made
    have named := Schema.name_of_field? found'
    exact ⟨other, found', stores_carried fits
      (Version.keepsWidth_of_mem adjacent member found found')
      (Version.lawful_of_mem (Schema.mem_of_field? found')) (stores.of_get? found holds)
      (after_stores.current (named ▸ found')) made⟩
  | merge sources target rows =>
    obtain ⟨value, made, rfl⟩ := List.mem_map.mp assigned
    rw [Option.mem_toList] at made
    obtain ⟨row, matched, denoted⟩ := Option.bind_eq_some_iff.mp made
    refine stores_denoted ?_ denoted
    exact List.all_eq_true.mp (Bool.and_eq_true_iff.mp fits).2 row
      (List.mem_of_find?_eq_some matched)
  | split source targets rows =>
    simp only [Step.assigned] at assigned
    cases matched : s.splitRow? source rows with
    | none => simp [matched] at assigned
    | some row =>
      rw [matched, Option.map_some, Option.getD_some] at assigned
      obtain ⟨place, listed, made⟩ := List.mem_filterMap.mp assigned
      obtain ⟨value, bound, rfl⟩ := Option.map_eq_some_iff.mp made
      obtain ⟨literal, said, denoted⟩ := Option.bind_eq_some_iff.mp bound
      refine stores_denoted ?_ denoted
      obtain ⟨held, -, row_found⟩ := Option.bind_eq_some_iff.mp matched
      have row_fits := List.all_eq_true.mp (List.all_eq_true.mp (Bool.and_eq_true_iff.mp fits).2 row
        (List.mem_of_find?_eq_some row_found)) place listed
      dsimp only at row_fits
      rw [said] at row_fits
      exact row_fits

/-- **A step leads from a native record to a native one**, which does not inherit. -/
theorem native_next (adjacent : s.record.version.Adjacent s.after.version)
    (native : s.record.Native) (after : s.after.Native) (plain : s.after.inheritsParent = false) :
    s.next.Native ∧ s.next.inheritsParent = false := by
  have uninherited : s.next.inheritsParent = false := inheritsParent_next.trans plain
  refine ⟨⟨?_, by simp [uninherited]⟩, uninherited⟩
  refine Each.putAll (show StyleRecord.Each FieldKind.Stores _ from after.stores) ?_
  intro write member field found
  obtain ⟨t, listed, assigned⟩ := List.mem_flatMap.mp member
  obtain ⟨other, found', stored⟩ :=
    stores_assigned adjacent native.stores after.stores listed write assigned
  exact Option.some.inj (found'.symm.trans found) ▸ stored

end Migration.Step

end FormatStyle
