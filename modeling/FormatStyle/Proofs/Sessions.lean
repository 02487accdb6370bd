import FormatStyle.Proofs.Lawful

/-! # Records under operations

Between one operation and the next a record is always well formed, whatever the operations are given
and whether they succeed: each one either edits the record field by field, or takes the place of it
with a record that was built from nothing (`StyleRecord.WellFormed.perform`). The widths of numbers
are not checked when a field is set, but every other operation keeps them
(`StyleRecord.Native.perform`). Sessions are sequences of operations from a style
(`StyleRecord.session_sound`).
-/

namespace FormatStyle

/-- **What can be done with a record.** -/
inductive Operation where
  | set (name : String) (value : Value)
  | assign (assignments : List (String × Literal))
  | expand
  | collapse
  /-- Read a text on top of the record. -/
  | read (version : Version) (text : String) (language : Language)
  | resolve (version : Version) (style : String) (language : Language)
  | migrate (text : String) (o : Migration.Options)

/-- Operations that build records, and take no values. -/
def Operation.Builds : Operation → Prop
  | set .. | assign _ => False
  | expand | collapse | read .. | resolve .. | migrate .. => True

namespace StyleRecord

open Migration (exists_course delivered_record)

variable {r start : StyleRecord} {operation : Operation} {operations : List Operation}

/-- An outcome takes the place of the record, and a failure leaves it as it is. -/
def replaceBy (r : StyleRecord) : Except StyleError StyleRecord → Assigned
  | .ok next => ⟨next, none⟩
  | .error e => ⟨r, some e⟩

/-- **Perform an operation.** -/
def perform (r : StyleRecord) : Operation → Assigned
  | .set name value => r.replaceBy (r.set name value)
  | .assign assignments => r.assign assignments
  | .expand => r.replaceBy r.expand
  | .collapse => r.replaceBy r.collapse.outcome
  | .read version text language =>
    r.replaceBy ((·.record) <$> (Configuration.read version text language r).outcome)
  | .resolve version style language => r.replaceBy (Style.resolve version style language).outcome
  | .migrate text o => r.replaceBy ((·.record) <$> (Migration.migrate text o).outcome)

/-- **Perform operations one after the other**, and go on after failures. -/
def session (r : StyleRecord) (operations : List Operation) : StyleRecord :=
  operations.foldl (fun r operation => (r.perform operation).record) r

/-! ## One operation -/

/-- What the record has and every outcome has, the record has afterwards. -/
theorem replaceBy_holds {P : StyleRecord → Prop} {outcome : Except StyleError StyleRecord}
    (holds : P r) (succeeds : ∀ next, outcome = .ok next → P next) :
    P (r.replaceBy outcome).record := by
  cases outcome with
  | ok next => exact succeeds next rfl
  | error e => exact holds

private theorem record_of_failed {outcome : Except StyleError StyleRecord} {e : StyleError}
    (failed : (r.replaceBy outcome).failure = some e) : (r.replaceBy outcome).record = r := by
  cases outcome with
  | ok next => cases failed
  | error e => rfl

/-- **An operation keeps a record well formed**, with any arguments and also if it fails. -/
theorem WellFormed.perform (wellFormed : r.WellFormed) (operation : Operation) :
    (r.perform operation).record.WellFormed := by
  cases operation with
  | set name value => exact replaceBy_holds wellFormed fun next set => wellFormed.set set
  | assign assignments => exact (Becomes.assign r assignments).wellFormed wellFormed
  | expand =>
    exact replaceBy_holds wellFormed fun next expanded =>
      (Becomes.of_expand expanded).wellFormed wellFormed
  | collapse =>
    exact replaceBy_holds wellFormed fun next collapsed =>
      (Becomes.of_collapse collapsed).wellFormed wellFormed
  | read version text language =>
    refine replaceBy_holds wellFormed fun next configured => ?_
    obtain ⟨c, accepted, rfl⟩ := Outcome.map_eq_ok_iff.mp configured
    exact Configuration.wellFormed_of_read wellFormed accepted
  | resolve version style language =>
    refine replaceBy_holds wellFormed fun next resolved => ?_
    exact (Style.native_of_resolve resolved).1.wellFormed
  | migrate text o =>
    refine replaceBy_holds wellFormed fun next delivered => ?_
    obtain ⟨m, migrated, rfl⟩ := Outcome.map_eq_ok_iff.mp delivered
    obtain ⟨course, delivered⟩ := exists_course migrated
    exact (delivered_record course delivered).1.wellFormed

/-- **An operation that builds keeps a record native.** -/
theorem Native.perform (native : r.Native) (builds : operation.Builds) :
    (r.perform operation).record.Native := by
  cases operation with
  | set name value => exact builds.elim
  | assign assignments => exact builds.elim
  | expand =>
    refine replaceBy_holds native fun next expanded => ?_
    obtain ⟨next', expanded', native', -⟩ := expand_isOk native
    exact Except.ok.inj (expanded'.symm.trans expanded) ▸ native'
  | collapse =>
    refine replaceBy_holds native fun next collapsed => ?_
    obtain ⟨next', collapsed', native', -⟩ := collapse_isOk native
    exact Except.ok.inj (collapsed'.symm.trans collapsed) ▸ native'
  | read version text language =>
    refine replaceBy_holds native fun next configured => ?_
    obtain ⟨c, accepted, rfl⟩ := Outcome.map_eq_ok_iff.mp configured
    exact (Configuration.sound_of_read native accepted).2.1
  | resolve version style language =>
    exact replaceBy_holds native fun next resolved => (Style.native_of_resolve resolved).1
  | migrate text o =>
    refine replaceBy_holds native fun next delivered => ?_
    obtain ⟨m, migrated, rfl⟩ := Outcome.map_eq_ok_iff.mp delivered
    obtain ⟨course, delivered⟩ := exists_course migrated
    exact (delivered_record course delivered).1

/-- An operation that fails leaves the record as it is, unless it is a table of assignments. -/
private theorem perform_of_failed {e : StyleError}
    (untabled : ∀ assignments, operation ≠ .assign assignments)
    (failed : (r.perform operation).failure = some e) : (r.perform operation).record = r := by
  cases operation with
  | assign assignments => exact absurd rfl (untabled assignments)
  | _ => exact record_of_failed failed

/-- **A table that fails leaves what its earlier assignments make of the record.** -/
theorem assign_of_failed {assignments : List (String × Literal)} {e : StyleError}
    (failed : (r.assign assignments).failure = some e) :
    ∃ made assignment rest, assignments = made ++ assignment :: rest ∧
      r.assign made = ⟨(r.assign assignments).record, none⟩ ∧
        (r.assign assignments).record.assignOne assignment = .error e := by
  induction assignments generalizing r with
  | nil => cases failed
  | cons assignment rest ih =>
    cases one : r.assignOne assignment with
    | ok next =>
      have assigns := assign_cons_of_ok one
      rw [assigns] at failed ⊢
      obtain ⟨made, stuck, after, split, assigned, fails⟩ := ih failed
      exact ⟨assignment :: made, stuck, after, congrArg _ split, (assigns made).trans assigned,
        fails⟩
    | error e' =>
      rw [assign_cons_of_error one] at failed ⊢
      cases failed
      exact ⟨[], assignment, rest, rfl, rfl, one⟩

/-! ## A session -/

/-- **What each operation keeps, a session keeps.** By induction on its operations. -/
theorem session_preserves {P : StyleRecord → Prop} {Q : Operation → Prop}
    (keeps : ∀ {r operation}, P r → Q operation → P (r.perform operation).record)
    (allowed : ∀ operation ∈ operations, Q operation) (holds : P r) : P (r.session operations) := by
  unfold session
  induction operations generalizing r with
  | nil => exact holds
  | cons operation rest ih =>
    rw [List.forall_mem_cons] at allowed
    exact ih allowed.2 (keeps holds allowed.1)

/-- **A session from a style is sound** at every point: each field has one value, which its kind
admits; a failure changes nothing but what a table assigned before it; and if all operations build,
then numbers have the width of a machine word. -/
theorem session_sound {v : Version} {style : String} {language : Language}
    (resolved : (Style.resolve v style language).outcome = .ok start)
    (operations : List Operation) :
    let r := start.session operations
    r.values.length = r.schema.fields.length ∧
      r.Each (fun kind value => kind.admits value = true) ∧
      (∀ operation e, (∀ assignments, operation ≠ .assign assignments) →
        (r.perform operation).failure = some e → (r.perform operation).record = r) ∧
      (∀ assignments e, (r.perform (.assign assignments)).failure = some e →
        ∃ made assignment rest, assignments = made ++ assignment :: rest ∧
          r.assign made = ⟨(r.perform (.assign assignments)).record, none⟩ ∧
            (r.perform (.assign assignments)).record.assignOne assignment = .error e) ∧
      ((∀ operation ∈ operations, operation.Builds) → r.Each FieldKind.Stores) := by
  intro r
  obtain ⟨native, -⟩ := Style.native_of_resolve resolved
  have wellFormed : r.WellFormed :=
    session_preserves (Q := fun _ => True) (fun wellFormed _ => wellFormed.perform _)
      (fun _ _ => trivial) native.wellFormed
  have each := wellFormed_iff.mp wellFormed
  refine ⟨(List.Forall₂.length_eq each).symm, each, fun _ _ => perform_of_failed,
    fun _ _ => assign_of_failed, fun builds => ?_⟩
  exact (session_preserves (P := Native) Native.perform builds native).stores

/-- An option that no version has. -/
theorem index?_unknown : ∀ v : Version, v.schema.index? "NoSuchOption" = none := by
  intro v
  cases v <;> decide

/-- A session from a style, in which one operation fails, and two failures after it. -/
theorem session_sound_llvm :
    let operations := [.expand, .read .v16 "ColumnLimit: 100\n" .cpp,
      .resolve .v12 "NoSuchStyle" .cpp, .collapse]
    ∃ start, (Style.resolve .v16 "llvm" .cpp).outcome = .ok start ∧
      (∀ operation ∈ operations, operation.Builds) ∧
      let r := start.session operations
      r.values.length = r.schema.fields.length ∧
        r.Each (fun kind value => kind.admits value = true) ∧
        (r.perform (.set "NoSuchOption" (.bool true))).failure =
          some (.unknownOption "NoSuchOption") ∧
        (r.perform (.set "NoSuchOption" (.bool true))).record = r ∧
        (r.perform (.assign [("NoSuchOption", .bool true)])).record = r ∧
        r.Each FieldKind.Stores := by
  intro operations
  have builds : ∀ operation ∈ operations, operation.Builds := by
    simp [operations, Operation.Builds]
  obtain ⟨start, resolved⟩ : ∃ start, (Style.resolve .v16 "llvm" .cpp).outcome = .ok start :=
    Style.resolve_isOk (by decide) rfl
  refine ⟨start, resolved, builds, ?_⟩
  intro r
  have unset : (r.perform (.set "NoSuchOption" (.bool true))).failure =
      some (.unknownOption "NoSuchOption") := by
    simp only [StyleRecord.perform, StyleRecord.set, schema, index?_unknown, replaceBy]
  have unassigned : (r.perform (.assign [("NoSuchOption", .bool true)])).failure =
      some (.unknownOption "NoSuchOption") := by
    simp only [StyleRecord.perform, assign, assignOne, schema, index?_unknown]
  obtain ⟨length, admitted, unchanged, before, native⟩ := session_sound resolved operations
  obtain ⟨made, stuck, after, split, assigned, -⟩ := before _ _ unassigned
  obtain ⟨rfl, -⟩ : made = [] ∧ _ := by
    simpa using List.cons_eq_append_iff.mp split
  exact ⟨length, admitted, unset, unchanged _ _ (by simp) unset,
    (congrArg Assigned.record assigned).symm, native builds⟩

end StyleRecord

end FormatStyle
