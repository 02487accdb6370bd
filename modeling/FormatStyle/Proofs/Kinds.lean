import FormatStyle.Literal
import FormatStyle.Proofs.Outcome
import Mathlib.Data.List.Nodup

/-! # Values of a kind

A property of simple values holds of a value when it holds at every place of it
(`FieldKind.Holds`). Two such properties matter: that the kind admits the value
(`FieldKind.holds_admits_iff`), and that a machine word of 32 bits stores it as well
(`FieldKind.Stores`). Literals with small numbers give stored values
(`Literal.stores_of_toValue`), and a literal that fits a kind denotes a value whatever the current
one is (`Literal.toValue_isOk`).
-/

namespace FormatStyle

/-- **Values that are stored** as well as admitted: numbers have the width of a machine word. -/
def ScalarKind.Stores (kind : ScalarKind) (value : Value) : Prop :=
  kind.admits value = true ∧
    match kind, value with
    | unsigned, .int n => n ≤ 4294967295
    | int, .int n => -2147483648 ≤ n ∧ n ≤ 2147483647
    | bound, .int n => n ≤ 2147483647
    | _, _ => True

/-- **A property of the parts** of one record. -/
def PartsHold (P : ScalarKind → Value → Prop) (parts : List Part) (values : List Value) : Prop :=
  List.Forall₂ (fun part value => P part.kind value) parts values

namespace FieldKind

/-- **A property of simple values, at every place of a value.** -/
def Holds (P : ScalarKind → Value → Prop) : FieldKind → Value → Prop
  | scalar kind, value => P kind value
  | record parts, .record values => PartsHold P parts values
  | shorthand s, .record values => PartsHold P s.parts values
  | recordList parts, .records entries => ∀ entry ∈ entries, PartsHold P parts entry
  | _, _ => False

/-- **Values that are stored** at every place. -/
def Stores : FieldKind → Value → Prop := Holds ScalarKind.Stores

end FieldKind

variable {P Q : ScalarKind → Value → Prop} {parts : List Part} {values : List Value}

theorem partsAdmit_iff :
    partsAdmit parts values = true ↔ PartsHold (fun kind value => kind.admits value = true)
      parts values := by
  unfold PartsHold
  induction parts generalizing values with
  | nil => cases values <;> simp [partsAdmit]
  | cons part parts ih => cases values <;> simp [partsAdmit, ih]

theorem PartsHold.mono (implies : ∀ kind value, P kind value → Q kind value)
    (holds : PartsHold P parts values) : PartsHold Q parts values :=
  List.Forall₂.imp (fun (part : Part) value => implies part.kind value)
    (show List.Forall₂ (fun (part : Part) value => P part.kind value) _ _ from holds)

theorem PartsHold.length_eq (holds : PartsHold P parts values) : values.length = parts.length :=
  (List.Forall₂.length_eq holds).symm

theorem PartsHold.getElem? {i : Nat} {part : Part} {value : Value}
    (holds : PartsHold P parts values) (part_at : parts[i]? = some part)
    (value_at : values[i]? = some value) : P part.kind value := by
  obtain ⟨bound, rfl⟩ := List.getElem?_eq_some_iff.mp part_at
  obtain ⟨bound', rfl⟩ := List.getElem?_eq_some_iff.mp value_at
  exact (List.forall₂_iff_get.mp holds).2 i bound bound'

theorem PartsHold.set {i : Nat} {part : Part} {value : Value} (holds : PartsHold P parts values)
    (part_at : parts[i]? = some part) (has : P part.kind value) :
    PartsHold P parts (values.set i value) := by
  obtain ⟨bound, rfl⟩ := List.getElem?_eq_some_iff.mp part_at
  refine List.forall₂_iff_get.mpr ⟨by simp [holds.length_eq], fun j bound_j bound_j' => ?_⟩
  by_cases same : i = j
  · subst same
    simpa using has
  · have := (List.forall₂_iff_get.mp holds).2 j bound_j (by simpa using bound_j')
    simpa [List.getElem_set_ne same] using this

namespace FieldKind

variable {kind : FieldKind} {value : Value}

theorem holds_admits_iff :
    kind.Holds (fun kind value => kind.admits value = true) value ↔ kind.admits value = true := by
  cases kind with
  | scalar kind => exact Iff.rfl
  | record parts => cases value <;> simp [Holds, admits, partsAdmit_iff]
  | shorthand s => cases value <;> simp [Holds, admits, partsAdmit_iff]
  | recordList parts => cases value <;> simp [Holds, admits, partsAdmit_iff, List.all_eq_true]

theorem Holds.mono (implies : ∀ kind value, P kind value → Q kind value)
    (holds : kind.Holds P value) : kind.Holds Q value := by
  cases kind with
  | scalar kind => exact implies kind value holds
  | record parts => cases value <;> first | exact holds.elim | exact PartsHold.mono implies holds
  | shorthand s => cases value <;> first | exact holds.elim | exact PartsHold.mono implies holds
  | recordList parts =>
    cases value <;> first
      | exact holds.elim
      | exact fun entry member => (holds entry member).mono implies

theorem admits_of_stores (stores : kind.Stores value) : kind.admits value = true :=
  holds_admits_iff.mp (Holds.mono (fun _ _ => And.left) stores)

end FieldKind

/-! ## Lawful kinds -/

/-- **A lawful enumeration** reads each of its spellings as the variant that it stands for. -/
def Enumeration.lawful (e : Enumeration) : Bool :=
  !e.spellings.isEmpty && e.spellings.all fun s => e.variant? s.1 == some s.2

def ScalarKind.lawful : ScalarKind → Bool
  | choice e => e.lawful
  | _ => true

/-- A number that every kind can store, if the kind admits it. -/
def Literal.small : Literal → Bool
  | int n => -2147483648 ≤ n && n ≤ 2147483647
  | _ => true

/-- All numbers of a literal are small. -/
def Literal.narrow : Literal → Bool
  | record assignments => assignments.all (·.2.small)
  | records entries => entries.all (·.all (·.2.small))
  | literal => literal.small

/-- The part names are distinct, and the kinds of the parts lawful. -/
def partsLawful (parts : List Part) : Bool :=
  decide (parts.map (·.name)).Nodup && parts.all (·.kind.lawful)

theorem partsLawful_iff : partsLawful parts = true ↔
    (parts.map (·.name)).Nodup ∧ ∀ part ∈ parts, part.kind.lawful = true := by
  rw [partsLawful, Bool.and_eq_true, decide_eq_true_eq, List.all_eq_true]

/-- **A lawful kind**: its words and its parts can be told apart. -/
def FieldKind.lawful : FieldKind → Bool
  | scalar kind => kind.lawful
  | record parts => partsLawful parts
  | shorthand s => partsLawful s.parts && s.spellings.all (·.2.all (·.2.small))
  | recordList parts => partsLawful parts

private theorem ScalarKind.admits_zero_of_lawful {kind : ScalarKind} (lawful : kind.lawful = true) :
    kind.admits kind.zero = true := by
  refine ScalarKind.admits_zero ?_
  cases kind with
  | choice e =>
    simp only [ScalarKind.lawful, Enumeration.lawful, Bool.and_eq_true] at lawful
    simpa [ScalarKind.Spelled] using lawful.1
  | _ => trivial

theorem ScalarKind.stores_zero {kind : ScalarKind} (lawful : kind.lawful = true) :
    kind.Stores kind.zero := by
  refine ⟨admits_zero_of_lawful lawful, ?_⟩
  cases kind <;> simp [zero]

private theorem partsHold_zeroParts (zero : ∀ part ∈ parts, P part.kind part.kind.zero) :
    PartsHold P parts (zeroParts parts) := by
  unfold PartsHold zeroParts
  rw [List.forall₂_map_right_iff, List.forall₂_same]
  exact zero

theorem partsStore_zeroParts (lawful : partsLawful parts = true) :
    PartsHold ScalarKind.Stores parts (zeroParts parts) := by
  exact partsHold_zeroParts fun part member =>
    ScalarKind.stores_zero ((partsLawful_iff.mp lawful).2 part member)

theorem FieldKind.stores_zero {kind : FieldKind} (lawful : kind.lawful = true) :
    kind.Stores kind.zero := by
  cases kind with
  | scalar kind => exact ScalarKind.stores_zero lawful
  | record parts => exact partsStore_zeroParts lawful
  | shorthand s =>
    simp only [FieldKind.lawful, Bool.and_eq_true] at lawful
    exact partsStore_zeroParts lawful.1
  | recordList parts => simp [Stores, Holds, zero]

/-! ## Literals -/

namespace Literal

variable {literal : Literal} {name : String} {assignments : List (String × Literal)}

theorem toScalar_eq_ok {kind : ScalarKind} {value : Value}
    (h : literal.toScalar name kind = .ok value) :
    kind.admits value = true ∧ (literal.small = true → kind.Stores value) := by
  unfold toScalar at h
  dsimp only at h
  split at h
  · rename_i candidate found
    split at h
    · rename_i admitted
      cases h
      refine ⟨admitted, fun small => ⟨admitted, ?_⟩⟩
      split
      · cases literal <;> simp_all [Literal.small]
        omega
      · cases literal <;> simp_all [Literal.small]
      · cases literal <;> simp_all [Literal.small]
      · trivial
    · cases h
  · cases h

theorem assignPart_eq_ok {assigned : List Value} {assignment : String × Literal}
    (h : assignPart parts values assignment = .ok assigned) :
    ∃ i part value, partIndex? parts assignment.1 = some i ∧ parts[i]? = some part ∧
      assignment.2.toScalar part.name part.kind = .ok value ∧ assigned = values.set i value := by
  unfold assignPart at h
  split at h
  · cases h
  · rename_i i index
    split at h
    · rename_i part _ part_at _
      obtain ⟨value, literal, h⟩ := Outcome.bind_eq_ok_iff.mp h
      cases h
      exact ⟨i, part, value, index, part_at, literal, rfl⟩
    · cases h

/-- Assignments with small numbers keep the parts stored. -/
theorem partsStore_of_assignParts {assigned : List Value}
    (h : assignParts parts values assignments = .ok assigned)
    (small : assignments.all (·.2.small) = true)
    (stores : PartsHold ScalarKind.Stores parts values) :
    PartsHold ScalarKind.Stores parts assigned := by
  refine Outcome.foldlM_preserves (fun current assignment next member stepped stores => ?_) h stores
  obtain ⟨i, part, value, -, part_at, literal, rfl⟩ := assignPart_eq_ok stepped
  exact stores.set part_at
    ((toScalar_eq_ok literal).2 (List.all_eq_true.mp small assignment member))

theorem baseParts_record : baseParts parts (.record values) = values := rfl

theorem partsStore_of_spelled? {s : Shorthand} {spelling : String} {spelled : List Value}
    (lawful : (FieldKind.shorthand s).lawful = true) (h : s.spelled? spelling values = some spelled)
    (stores : PartsHold ScalarKind.Stores s.parts values) :
    PartsHold ScalarKind.Stores s.parts spelled := by
  simp only [FieldKind.lawful, Bool.and_eq_true] at lawful
  obtain ⟨entry, found, assigned⟩ := Option.bind_eq_some_iff.mp h
  refine partsStore_of_assignParts (Outcome.toOption_eq_some_iff.mp assigned) ?_ stores
  exact List.all_eq_true.mp lawful.2 entry (List.mem_of_find?_eq_some found)

theorem denote_scalar {kind : ScalarKind} {current : Value} :
    literal.denote name (.scalar kind) current = literal.toScalar name kind := by
  cases literal <;> rfl

/-- What a literal is for a simple kind, it denotes for it. -/
theorem toValue_of_toScalar {kind : ScalarKind} {current value : Value}
    (h : literal.toScalar name kind = .ok value) :
    literal.toValue name (.scalar kind) current = .ok value := by
  unfold toValue
  rw [denote_scalar, h, Outcome.ok_bind]
  exact if_pos (toScalar_eq_ok h).1

/-- A word denotes the record that it spells. -/
theorem spelled?_of_denote {s : Shorthand} {spelling : String} {value : Value} {e : StyleError}
    (h : (match s.spelled? spelling values with
      | some spelled => Except.ok (Value.record spelled)
      | none => Except.error e) = Except.ok value) :
    ∃ spelled, s.spelled? spelling values = some spelled ∧ value = .record spelled := by
  split at h
  · rename_i spelled found
    cases h
    exact ⟨spelled, found, rfl⟩
  · cases h

/-- **A literal with small numbers denotes a stored value** on top of a stored one. -/
theorem stores_of_toValue {kind : FieldKind} {current value : Value} (lawful : kind.lawful = true)
    (narrow : literal.narrow = true) (stores : kind.Stores current)
    (h : literal.toValue name kind current = .ok value) : kind.Stores value := by
  obtain ⟨candidate, denoted, checked⟩ := Outcome.bind_eq_ok_iff.mp h
  obtain rfl : candidate = value := by
    split at checked
    · exact Except.ok.inj checked
    · cases checked
  cases kind with
  | scalar kind =>
    rw [denote_scalar] at denoted
    refine (toScalar_eq_ok denoted).2 ?_
    cases literal <;> first | exact narrow | rfl
  | record parts =>
    cases current <;> try exact stores.elim
    cases literal <;> try cases denoted
    obtain ⟨assigned, assign, rfl⟩ := Outcome.map_eq_ok_iff.mp denoted
    exact partsStore_of_assignParts assign narrow stores
  | shorthand s =>
    cases current <;> try exact stores.elim
    cases literal with
    | choice spelling =>
      obtain ⟨spelled, found, rfl⟩ := spelled?_of_denote denoted
      exact partsStore_of_spelled? lawful found stores
    | bool flag =>
      obtain ⟨spelled, found, rfl⟩ := spelled?_of_denote denoted
      exact partsStore_of_spelled? lawful found stores
    | record assignments =>
      obtain ⟨assigned, assign, rfl⟩ := Outcome.map_eq_ok_iff.mp denoted
      exact partsStore_of_assignParts assign narrow stores
    | _ => cases denoted
  | recordList parts =>
    cases literal <;> try cases denoted
    obtain ⟨assigned, assign, rfl⟩ := Outcome.map_eq_ok_iff.mp denoted
    intro entry member
    obtain ⟨source, source_member, assigned_entry⟩ :=
      Outcome.exists_of_mem_mapM assign member
    exact partsStore_of_assignParts assigned_entry
      (List.all_eq_true.mp narrow source source_member) (partsStore_zeroParts lawful)

/-- An assignment fits one of the parts. -/
def fitsPart (parts : List Part) (assignment : String × Literal) : Bool :=
  ((partIndex? parts assignment.1).bind (parts[·]?)).any fun part =>
    (assignment.2.toScalar part.name part.kind).isOk

/-- The assignments of a spelling fit the parts. -/
def fitsSpelling (s : Shorthand) (spelling : String) : Bool :=
  (s.spellings.find? (·.1 == spelling)).any (·.2.all (fitsPart s.parts))

/-- Fitting assignments to parts succeed on every record of as many values. -/
theorem assignParts_isOk (fit : assignments.all (fitsPart parts) = true)
    (holds : PartsHold (fun kind value => kind.admits value = true) parts values) :
    ∃ assigned, assignParts parts values assignments = .ok assigned ∧
      PartsHold (fun kind value => kind.admits value = true) parts assigned := by
  unfold assignParts
  induction assignments generalizing values with
  | nil => exact ⟨values, rfl, holds⟩
  | cons assignment rest ih =>
    simp only [List.all_cons, Bool.and_eq_true] at fit
    obtain ⟨part, found, fits⟩ := (Option.any_eq_true _ _).mp fit.1
    obtain ⟨i, index, part_at⟩ := Option.bind_eq_some_iff.mp found
    obtain ⟨value, literal⟩ := Outcome.isOk_iff.mp fits
    obtain ⟨bound, _⟩ := List.getElem?_eq_some_iff.mp part_at
    have bound' : i < values.length := by rw [holds.length_eq]; exact bound
    have stepped : assignPart parts values assignment = .ok (values.set i value) := by
      unfold assignPart
      rw [index]
      dsimp only
      rw [part_at, List.getElem?_eq_getElem bound']
      dsimp only
      rw [literal]
      rfl
    rw [List.foldlM_cons, stepped]
    exact ih fit.2 (holds.set part_at (toScalar_eq_ok literal).1)

/-- **A literal fits a kind**, whatever the current value is. -/
def fits (literal : Literal) (name : String) (kind : FieldKind) : Bool :=
  match literal, kind with
  | literal, .scalar kind => (literal.toScalar name kind).isOk
  | choice spelling, .shorthand s => fitsSpelling s spelling
  | bool flag, .shorthand s => fitsSpelling s (flagSpelling flag)
  | record assignments, .record parts => assignments.all (fitsPart parts)
  | record assignments, .shorthand s => assignments.all (fitsPart s.parts)
  | records entries, .recordList parts =>
    partsLawful parts && entries.all (·.all (fitsPart parts))
  | _, _ => false

theorem spelled?_isSome {s : Shorthand} {spelling : String}
    (fit : fitsSpelling s spelling = true)
    (holds : PartsHold (fun kind value => kind.admits value = true) s.parts values) :
    ∃ spelled, s.spelled? spelling values = some spelled ∧
      PartsHold (fun kind value => kind.admits value = true) s.parts spelled := by
  obtain ⟨entry, found, fits⟩ := (Option.any_eq_true _ _).mp fit
  obtain ⟨assigned, assign, kept⟩ := assignParts_isOk fits holds
  refine ⟨assigned, ?_, kept⟩
  unfold Shorthand.spelled?
  rw [found, Option.bind_some, assign]
  rfl

/-- **A literal that fits a kind denotes a value** on top of every admitted one. -/
theorem toValue_isOk {kind : FieldKind} {current : Value} (fit : literal.fits name kind = true)
    (admitted : kind.admits current = true) :
    ∃ value, literal.toValue name kind current = .ok value := by
  have denotes : ∃ value, literal.denote name kind current = .ok value ∧
      kind.admits value = true := by
    rw [← FieldKind.holds_admits_iff] at admitted
    simp only [← FieldKind.holds_admits_iff]
    cases kind with
    | scalar kind =>
      rw [denote_scalar]
      obtain ⟨value, scalar⟩ : ∃ value, literal.toScalar name kind = .ok value := by
        cases literal <;> exact Outcome.isOk_iff.mp fit
      exact ⟨value, scalar, (toScalar_eq_ok scalar).1⟩
    | record parts =>
      cases current <;> try exact admitted.elim
      cases literal <;> try cases fit
      obtain ⟨assigned, assign, kept⟩ := assignParts_isOk fit admitted
      exact ⟨.record assigned, Outcome.map_eq_ok_iff.mpr ⟨assigned, assign, rfl⟩, kept⟩
    | shorthand s =>
      cases current <;> try exact admitted.elim
      cases literal with
      | choice spelling =>
        obtain ⟨spelled, found, kept⟩ := spelled?_isSome fit admitted
        refine ⟨.record spelled, ?_, kept⟩
        simp only [denote, baseParts_record, found]
      | bool flag =>
        obtain ⟨spelled, found, kept⟩ := spelled?_isSome fit admitted
        refine ⟨.record spelled, ?_, kept⟩
        simp only [denote, baseParts_record, found]
      | record assignments =>
        obtain ⟨assigned, assign, kept⟩ := assignParts_isOk fit admitted
        exact ⟨.record assigned, Outcome.map_eq_ok_iff.mpr ⟨assigned, assign, rfl⟩, kept⟩
      | _ => cases fit
    | recordList parts =>
      cases literal <;> try cases fit
      rename_i entries
      have zero : PartsHold (fun kind value => kind.admits value = true) parts
          (zeroParts parts) := by
        have lawful := (Bool.and_eq_true_iff.mp fit).1
        exact (partsStore_zeroParts lawful).mono fun _ _ => And.left
      have each := List.all_eq_true.mp (Bool.and_eq_true_iff.mp fit).2
      obtain ⟨assigned, assign, kept⟩ := Outcome.mapM_isOk fun entry member =>
        assignParts_isOk (each entry member) zero
      exact ⟨.records assigned, Outcome.map_eq_ok_iff.mpr ⟨assigned, assign, rfl⟩, kept⟩
  obtain ⟨value, denoted, kept⟩ := denotes
  refine ⟨value, ?_⟩
  unfold toValue
  rw [denoted, Outcome.ok_bind, if_pos kept]

end Literal

end FormatStyle
