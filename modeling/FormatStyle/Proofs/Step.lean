import FormatStyle.Migration
import FormatStyle.Proofs.Conversion
import FormatStyle.Proofs.Expansion

/-! # One step of a migration

A step is a list of transfers, the fields of one name among them (`Step.moves`). No two transfers
write the same field, so each finds the field as the style of the next version has it. So a step
always succeeds, with one table of assignments to that style and one list of losses
(`Step.outcome_run`).
-/

namespace FormatStyle

open Migration

namespace Transfer

/-- **A transfer whose rows fit the fields of the next version.** -/
def fits (schema : Schema) : Transfer → Bool
  | rename _ _ map => map.all (·.2.narrow)
  | merge _ target rows =>
    (schema.field? target).isSome && rows.all fun row => schema.acceptsScalar (target, row.2)
  | split _ targets rows => decide targets.Nodup &&
    rows.all fun row => (targets.zip row.1).all fun (target, literal) =>
      literal.all fun literal => schema.acceptsScalar (target, literal)

end Transfer

namespace Version

/-- The versions next to a version. -/
def Adjacent (a b : Version) : Prop := a.next? = some b ∨ b.next? = some a

instance (a b : Version) : Decidable (a.Adjacent b) :=
  inferInstanceAs (Decidable (_ ∨ _))

theorem Adjacent.symm {a b : Version} (adjacent : a.Adjacent b) : b.Adjacent a :=
  Or.symm adjacent

theorem adjacent_of_stepTowards {a b goal : Version} (h : a.stepTowards goal = some b) :
    a.Adjacent b := by
  revert h
  cases a <;> cases b <;> cases goal <;> decide

/-- **The transfers between neighbouring versions fit**, and no two write the same field. -/
theorem transfers_fit {a b : Version} (adjacent : a.Adjacent b) :
    (transfers a b).all (·.fits b.schema) = true ∧
      ((transfers a b).flatMap Transfer.targets).Nodup := by
  have checked : ∀ a ∈ Version.all, ∀ b ∈ Version.all, a.Adjacent b →
      (transfers a b).all (·.fits b.schema) = true ∧
        ((transfers a b).flatMap Transfer.targets).Nodup := by
    decide +kernel
  exact checked a a.mem_all b b.mem_all adjacent

/-- Both versions have a field of the name, and no transfer reads or writes it. -/
def sharesName (a b : Version) (name : String) : Bool :=
  !(((transfers a b).flatMap Transfer.targets).contains name ||
    ((transfers a b).flatMap Transfer.sources).contains name) && (a.schema.field? name).isSome

/-- The names that two versions share. -/
def sharedNames (a b : Version) : List String := b.schema.names.filter (a.sharesName b)

/-- **All transfers of a step**: the fields of a shared name are renamed to themselves. -/
def moves (a b : Version) : List Transfer :=
  transfers a b ++ (a.sharedNames b).map fun name => .rename name name []

/-- The transfers of a step fit, and no two write the same field. -/
theorem moves_fit {a b : Version} (adjacent : a.Adjacent b) :
    (a.moves b).all (·.fits b.schema) = true ∧
      ((a.moves b).flatMap Transfer.targets).Nodup := by
  obtain ⟨fits, distinct⟩ := transfers_fit adjacent
  have own : ((a.sharedNames b).map fun name => Transfer.rename name name []).flatMap
      Transfer.targets = a.sharedNames b := by
    simp [List.flatMap_map, Transfer.targets, List.flatMap_singleton']
  unfold moves
  rw [List.all_append, fits, List.flatMap_append, own]
  refine ⟨by simp [Transfer.fits], distinct.append (b.nodup_names.filter _) ?_⟩
  intro name written shared
  have := (List.mem_filter.mp shared).2
  simp [sharesName, List.mem_flatMap.mp written] at this

end Version

namespace Migration.Step

open StyleRecord

variable (s : Step)

/-! ## What a transfer does -/

/-- The value of a renamed field, in the place of a current one. -/
def carried (map : List (Literal × Literal)) (source target : Field) (value current : Value) :
    Option Value :=
  (translate? map value target current).or (source.kind.convert value target.kind current)

/-- What a renamed field is set to, if its value can be carried. -/
def renamed? (source target : String) (map : List (Literal × Literal)) : Option Value := do
  let value ← s.record.get? source
  let sourceField ← s.record.schema.field? source
  let targetField ← s.after.schema.field? target
  carried map sourceField targetField value (s.after.current targetField)

/-- What a literal denotes in a field of the next version. -/
def denoted? (target : String) (literal : Literal) : Option Value := do
  let field ← s.after.schema.field? target
  (literal.toValue field.name field.kind (s.after.current field)).toOption

/-- The row of a merge that the record fits. -/
def mergeRow? (sources : List String) (rows : List (List (Option Literal) × Literal)) :
    Option (List (Option Literal) × Literal) :=
  rows.find? fun row => matchesRow row.1 (sources.map s.record.get?)

/-- The row of a split that the record fits. -/
def splitRow? (source : String) (rows : List (List (Option Literal) × Literal)) :
    Option (List (Option Literal) × Literal) := do
  let value ← s.record.get? source
  rows.find? fun row => row.2.holds value

/-- What the row of a split sets the targets to. An empty place sets nothing. -/
def placed (targets : List String) (pattern : List (Option Literal)) : List (String × Value) :=
  (targets.zip pattern).filterMap fun place =>
    (place.2.bind (s.denoted? place.1)).map (place.1, ·)

/-- **The assignments that a transfer makes.** -/
def assigned : Transfer → List (String × Value)
  | .rename source target map => (s.renamed? source target map).toList.map (target, ·)
  | .merge sources target rows =>
    ((s.mergeRow? sources rows).bind fun row => s.denoted? target row.2).toList.map (target, ·)
  | .split source targets rows =>
    ((s.splitRow? source rows).map fun row => s.placed targets row.1).getD []

/-- **What a transfer loses.** -/
def lost : Transfer → List Loss
  | .rename source target map =>
    match s.record.get? source, s.renamed? source target map, s.after.schema.field? target with
    | some value, none, some _ => if s.changed source then [.value source value.display] else []
    | _, _, _ => []
  | .merge sources _ rows =>
    if (s.mergeRow? sources rows).isNone && sources.any s.changed then
      [.value (", ".intercalate sources) (", ".intercalate
        ((sources.map s.record.get?).map fun value => (value.map Value.display).getD ""))]
    else []
  | .split source _ rows =>
    match s.record.get? source with
    | none => []
    | some value =>
      if (s.splitRow? source rows).isNone && s.changed source then
        [.value source value.display]
      else []

variable {s}

theorem placed_sublist {targets : List String} {pattern : List (Option Literal)} :
    ((s.placed targets pattern).map Prod.fst).Sublist targets := by
  unfold placed
  induction targets generalizing pattern with
  | nil => simp
  | cons target targets ih =>
    cases pattern with
    | nil => simp
    | cons literal pattern =>
      rw [List.zip_cons_cons, List.filterMap_cons]
      dsimp only
      cases literal.bind (s.denoted? target) with
      | none => exact ih.cons _
      | some value => exact ih.cons_cons _

/-- A transfer assigns its targets, each once. -/
theorem assigned_sublist {t : Transfer} : ((s.assigned t).map Prod.fst).Sublist t.targets := by
  cases t with
  | rename source target map =>
    unfold assigned
    cases renamed : s.renamed? source target map <;> simp [renamed, Transfer.targets]
  | merge sources target rows =>
    unfold assigned
    cases denoted : (s.mergeRow? sources rows).bind fun row => s.denoted? target row.2 <;>
      simp [denoted, Transfer.targets]
  | split source targets rows =>
    unfold assigned
    cases found : s.splitRow? source rows with
    | none => simp [found]
    | some row => simpa [found, Transfer.targets] using placed_sublist

/-- **What a transfer assigns depends on what it reads and on what it writes over**, and on nothing
else of the two records. -/
theorem assigned_congr {s' : Step} {t : Transfer} (source : s'.record.version = s.record.version)
    (target : s'.after.version = s.after.version)
    (reads : ∀ name ∈ t.sources, s'.record.get? name = s.record.get? name)
    (writes : ∀ name ∈ t.targets, s'.after.get? name = s.after.get? name) :
    s'.assigned t = s.assigned t := by
  have denotes : ∀ name ∈ t.targets, s'.denoted? name = s.denoted? name := by
    intro name written
    funext literal
    unfold denoted?
    rw [StyleRecord.schema, target]
    change (s.after.schema.field? name).bind _ = (s.after.schema.field? name).bind _
    refine Option.bind_congr fun field found => ?_
    obtain rfl := Schema.name_of_field? found
    rw [StyleRecord.current, StyleRecord.current, writes field.name written]
  cases t with
  | rename source' target' map =>
    have same : s'.renamed? source' target' map = s.renamed? source' target' map := by
      unfold renamed?
      rw [reads source' List.mem_cons_self, StyleRecord.schema, StyleRecord.schema, source, target]
      refine Option.bind_congr fun value _ => Option.bind_congr fun field _ => ?_
      refine Option.bind_congr fun field' found => ?_
      obtain rfl := Schema.name_of_field? found
      rw [StyleRecord.current, StyleRecord.current, writes field'.name List.mem_cons_self]
    simp only [assigned, same]
  | merge sources' target' rows =>
    have same : s'.mergeRow? sources' rows = s.mergeRow? sources' rows := by
      unfold mergeRow?
      rw [show sources'.map s'.record.get? = _ from List.map_congr_left reads]
    simp only [assigned, same, denotes target' List.mem_cons_self]
  | split source' targets rows =>
    have same : s'.splitRow? source' rows = s.splitRow? source' rows := by
      unfold splitRow?
      rw [reads source' List.mem_cons_self]
    simp only [assigned, same]
    cases s.splitRow? source' rows with
    | none => rfl
    | some row =>
      refine List.filterMap_congr fun place member => ?_
      rw [denotes place.1 (List.of_mem_zip member).1]

/-- What a step carries, the next version admits. -/
theorem admits_carried {map : List (Literal × Literal)} {source target : Field}
    {value current converted : Value}
    (h : carried map source target value current = some converted) :
    target.kind.admits converted = true := by
  rcases Option.or_eq_some_iff.mp h with translated | ⟨-, converts⟩
  · obtain ⟨row, -, denoted⟩ := Option.bind_eq_some_iff.mp translated
    exact Literal.admits_of_toValue (Outcome.toOption_eq_some_iff.mp denoted)
  · exact FieldKind.admits_of_convert converts

theorem admits_denoted {target : String} {literal : Literal} {value : Value}
    (h : s.denoted? target literal = some value) :
    ∃ field, s.after.schema.field? target = some field ∧ field.kind.admits value = true := by
  obtain ⟨field, found, denoted⟩ := Option.bind_eq_some_iff.mp h
  exact ⟨field, found, Literal.admits_of_toValue (Outcome.toOption_eq_some_iff.mp denoted)⟩

/-- **What a transfer assigns, the next version admits.** -/
theorem admits_assigned {t : Transfer} : ∀ write ∈ s.assigned t, ∃ field,
    s.after.schema.field? write.1 = some field ∧ field.kind.admits write.2 = true := by
  intro write member
  cases t with
  | rename source target map =>
    obtain ⟨value, made, rfl⟩ := List.mem_map.mp member
    rw [Option.mem_toList, renamed?] at made
    obtain ⟨old, -, made⟩ := Option.bind_eq_some_iff.mp made
    obtain ⟨sourceField, -, made⟩ := Option.bind_eq_some_iff.mp made
    obtain ⟨targetField, found, made⟩ := Option.bind_eq_some_iff.mp made
    exact ⟨targetField, found, admits_carried made⟩
  | merge sources target rows =>
    obtain ⟨value, made, rfl⟩ := List.mem_map.mp member
    rw [Option.mem_toList] at made
    obtain ⟨row, -, denoted⟩ := Option.bind_eq_some_iff.mp made
    exact admits_denoted denoted
  | split source targets rows =>
    simp only [assigned] at member
    cases found : s.splitRow? source rows with
    | none => simp [found] at member
    | some row =>
      rw [found, Option.map_some, Option.getD_some] at member
      obtain ⟨place, -, made⟩ := List.mem_filterMap.mp member
      obtain ⟨value, bound, rfl⟩ := Option.map_eq_some_iff.mp made
      obtain ⟨_, -, denoted⟩ := Option.bind_eq_some_iff.mp bound
      exact admits_denoted denoted

/-! ## Carrying -/

/-- A record of the next version that has the targets of a transfer as the style has them. -/
structure Fresh (s : Step) (targets : List String) (p : Progress) : Prop where
  version : p.record.version = s.after.version
  wellFormed : p.record.WellFormed
  agrees : ∀ target ∈ targets, p.record.get? target = s.after.get? target

theorem Fresh.current {targets : List String} {p : Progress} {field : Field}
    (fresh : s.Fresh targets p) (member : field.name ∈ targets) :
    p.record.current field = s.after.current field := by
  rw [StyleRecord.current, StyleRecord.current, fresh.agrees _ member]

theorem Fresh.schema {targets : List String} {p : Progress} (fresh : s.Fresh targets p) :
    p.record.schema = s.after.schema := by
  rw [StyleRecord.schema, fresh.version]
  rfl

theorem Fresh.mono {targets targets' : List String} {p : Progress} (fresh : s.Fresh targets p)
    (sub : ∀ target ∈ targets', target ∈ targets) : s.Fresh targets' p :=
  ⟨fresh.version, fresh.wellFormed, fun target member => fresh.agrees target (sub target member)⟩

/-- Assignments to other fields leave the targets as they are. -/
theorem Fresh.putAll {targets : List String} {p : Progress} {writes : List (String × Value)}
    {losses : List Loss} (fresh : s.Fresh targets p)
    (apart : ∀ target ∈ targets, target ∉ writes.map Prod.fst)
    (admitted : ∀ write ∈ writes, ∃ field, s.after.schema.field? write.1 = some field ∧
      field.kind.admits write.2 = true) :
    s.Fresh targets ⟨p.record.putAll writes, losses⟩ := by
  refine ⟨(sameTags_putAll _ _).1.trans fresh.version, ?_, fun target member => ?_⟩
  · refine wellFormed_iff.mpr ((wellFormed_iff.mp fresh.wellFormed).putAll ?_)
    intro write member field found
    obtain ⟨field', found', admits⟩ := admitted write member
    rw [fresh.schema, found', Option.some.injEq] at found
    exact found ▸ admits
  · rw [get?_putAll_of_notMem (apart target member), fresh.agrees target member]

theorem set_progress {p : Progress} {target : String} {value : Value} {field : Field}
    (found : p.record.schema.field? target = some field)
    (admitted : field.kind.admits value = true) :
    p.set target value = .ok ⟨p.record.put target value, p.losses⟩ := by
  unfold Progress.set
  rw [set_eq_put found admitted]
  rfl

/-- A literal is set to what it denotes in the style of the next version. -/
theorem setLiteral_eq {p : Progress} {target : String} {literal : Literal} {value : Value}
    {targets : List String} (fresh : s.Fresh targets p) (member : target ∈ targets)
    (denoted : s.denoted? target literal = some value) :
    p.setLiteral target literal = .ok ⟨p.record.put target value, p.losses⟩ := by
  obtain ⟨field, found, denotes⟩ := Option.bind_eq_some_iff.mp denoted
  have denotes := Outcome.toOption_eq_some_iff.mp denotes
  obtain rfl := Schema.name_of_field? found
  unfold Progress.setLiteral
  rw [fresh.schema, found]
  dsimp only
  rw [fresh.current member, denotes, Outcome.ok_bind]
  exact set_progress (by rw [fresh.schema]; exact found) (Literal.admits_of_toValue denotes)

/-- A fitting literal denotes a value. -/
theorem denoted?_isSome {target : String} {literal : Literal}
    (accepted : s.after.schema.acceptsScalar (target, literal) = true) :
    ∃ value, s.denoted? target literal = some value := by
  obtain ⟨field, found, fits⟩ := (Option.any_eq_true _ _).mp accepted
  split at fits
  · rename_i kind is_scalar
    obtain ⟨value, denotes⟩ := Outcome.isOk_iff.mp (Bool.and_eq_true_iff.mp fits).1
    refine ⟨value, Option.bind_eq_some_iff.mpr ⟨field, found, ?_⟩⟩
    rw [is_scalar, Literal.toValue_of_toScalar denotes]
    rfl
  · cases fits

theorem outcome_rename {source target : String} {map : List (Literal × Literal)} {p : Progress}
    (fresh : s.Fresh [target] p) :
    (s.rename source target map p).outcome =
      .ok ⟨p.record.putAll (s.assigned (.rename source target map)),
        p.losses ++ s.lost (.rename source target map)⟩ := by
  unfold rename assigned lost
  cases holds : s.record.get? source with
  | none => simp [renamed?, holds]
  | some value =>
    obtain ⟨sourceField, found⟩ := field?_of_get? holds
    cases found' : s.after.schema.field? target with
    | none => simp [renamed?, holds, found, found']
    | some targetField =>
      obtain rfl := Schema.name_of_field? found'
      have renamed : s.renamed? source targetField.name map =
          carried map sourceField targetField value (p.record.current targetField) := by
        simp [renamed?, holds, found, found', fresh.current]
      simp only [found]
      change (s.place source targetField.name value
        (carried map sourceField targetField value (p.record.current targetField)) p).outcome = _
      rw [renamed]
      cases converted : carried map sourceField targetField value
          (p.record.current targetField) with
      | some value' =>
        unfold place
        simp only [Traced.outcome_monadLift]
        rw [set_progress (by rw [fresh.schema]; exact found') (admits_carried converted)]
        simp
      | none =>
        unfold place
        by_cases changed : s.changed source = true
        · simp [changed, Progress.lose, holds, found']
        · simp [changed, holds, found']

theorem outcome_merge {sources : List String} {target : String}
    {rows : List (List (Option Literal) × Literal)} {p : Progress}
    (fresh : s.Fresh [target] p)
    (fits : (Transfer.merge sources target rows).fits s.after.schema = true) :
    (s.merge sources target rows p).outcome =
      .ok ⟨p.record.putAll (s.assigned (.merge sources target rows)),
        p.losses ++ s.lost (.merge sources target rows)⟩ := by
  simp only [Transfer.fits, Bool.and_eq_true] at fits
  obtain ⟨targetField, found'⟩ := Option.isSome_iff_exists.mp fits.1
  unfold merge
  simp only [assigned, lost]
  rw [show (rows.find? fun row => matchesRow row.1 (sources.map s.record.get?)) =
    s.mergeRow? sources rows from rfl, found']
  cases found : s.mergeRow? sources rows with
  | none =>
    by_cases changed : sources.any s.changed = true
    · simp [changed, Progress.lose]
    · simp [changed]
  | some row =>
    obtain ⟨value, denoted⟩ := denoted?_isSome
      (List.all_eq_true.mp fits.2 row (List.mem_of_find?_eq_some found))
    simp only [Traced.outcome_monadLift, Option.bind_some, denoted]
    rw [setLiteral_eq fresh List.mem_cons_self denoted]
    simp

/-- The places of a row are set one after the other. -/
theorem outcome_places {targets : List String} {pattern : List (Option Literal)} {p : Progress}
    (fresh : s.Fresh targets p) (distinct : targets.Nodup)
    (fits : ((targets.zip pattern).all fun (target, literal) =>
      literal.all fun literal => s.after.schema.acceptsScalar (target, literal)) = true) :
    (targets.zip pattern).foldlM (fun p (place : String × Option Literal) =>
      (match place.2 with
      | none => return p
      | some literal => p.setLiteral place.1 literal : Traced StyleError Progress).outcome) p =
      .ok ⟨p.record.putAll (s.placed targets pattern), p.losses⟩ := by
  induction targets generalizing pattern p with
  | nil => rfl
  | cons target targets ih =>
    cases pattern with
    | nil => rfl
    | cons literal pattern =>
      rw [List.nodup_cons] at distinct
      rw [List.zip_cons_cons, List.all_cons, Bool.and_eq_true] at fits
      unfold placed
      rw [List.zip_cons_cons, List.foldlM_cons, List.filterMap_cons]
      cases literal with
      | none => exact ih (fresh.mono fun _ => List.mem_cons_of_mem _) distinct.2 fits.2
      | some literal =>
        obtain ⟨value, denoted⟩ := denoted?_isSome fits.1
        dsimp only
        rw [Traced.outcome_monadLift, setLiteral_eq fresh List.mem_cons_self denoted,
          Outcome.ok_bind]
        simp only [Option.bind_some, denoted, Option.map_some, putAll_cons]
        have apart : ∀ other ∈ targets, other ∉ [(target, value)].map Prod.fst := by
          intro other member named
          rw [List.map_singleton, List.mem_singleton] at named
          exact distinct.1 ((show other = target from named) ▸ member)
        have admitted : ∀ write ∈ [(target, value)], ∃ field,
            s.after.schema.field? write.1 = some field ∧ field.kind.admits write.2 = true :=
          List.forall_mem_singleton.mpr (admits_denoted denoted)
        exact ih ((fresh.mono fun _ => List.mem_cons_of_mem _).putAll apart admitted) distinct.2
          fits.2

theorem outcome_split {source : String} {targets : List String}
    {rows : List (List (Option Literal) × Literal)} {p : Progress}
    (fresh : s.Fresh targets p)
    (fits : (Transfer.split source targets rows).fits s.after.schema = true) :
    (s.split source targets rows p).outcome =
      .ok ⟨p.record.putAll (s.assigned (.split source targets rows)),
        p.losses ++ s.lost (.split source targets rows)⟩ := by
  simp only [Transfer.fits, Bool.and_eq_true, decide_eq_true_eq] at fits
  unfold split
  simp only [assigned, lost]
  cases holds : s.record.get? source with
  | none => simp [splitRow?, holds]
  | some value =>
    have row_eq : s.splitRow? source rows = rows.find? fun row => row.2.holds value := by
      simp [splitRow?, holds]
    rw [row_eq]
    dsimp only
    cases found : rows.find? fun row => row.2.holds value with
    | none =>
      by_cases changed : s.changed source = true
      · simp [changed, Progress.lose]
      · simp [changed]
    | some row =>
      have row_fits := List.all_eq_true.mp fits.2 row (List.mem_of_find?_eq_some found)
      simp only [Option.map_some, Option.getD_some, Option.isNone_some, Bool.false_and,
        Bool.false_eq_true, if_false, List.append_nil]
      rw [Traced.outcome_foldlM]
      exact outcome_places fresh fits.1 row_fits

theorem outcome_carry {t : Transfer} {p : Progress} (fresh : s.Fresh t.targets p)
    (fits : t.fits s.after.schema = true) :
    (s.carry p t).outcome = .ok ⟨p.record.putAll (s.assigned t), p.losses ++ s.lost t⟩ := by
  cases t with
  | rename source target map => exact outcome_rename fresh
  | merge sources target rows => exact outcome_merge fresh fits
  | split source targets rows => exact outcome_split fresh fits

/-- **Transfers with targets of their own** make one table of assignments and one list of
losses. -/
theorem outcome_carryAll {ts : List Transfer} {p : Progress}
    (fresh : s.Fresh (ts.flatMap Transfer.targets) p)
    (distinct : (ts.flatMap Transfer.targets).Nodup)
    (fits : ts.all (·.fits s.after.schema) = true) :
    ts.foldlM (fun p t => (s.carry p t).outcome) p =
      .ok ⟨p.record.putAll (ts.flatMap s.assigned), p.losses ++ ts.flatMap s.lost⟩ := by
  induction ts generalizing p with
  | nil => simp
  | cons t ts ih =>
    rw [List.flatMap_cons] at fresh distinct
    rw [List.all_cons, Bool.and_eq_true] at fits
    have apart : ∀ target ∈ ts.flatMap Transfer.targets, target ∉ (s.assigned t).map Prod.fst :=
      fun target later now =>
        List.disjoint_of_nodup_append distinct (assigned_sublist.subset now) later
    rw [List.foldlM_cons, outcome_carry (fresh.mono fun _ => List.mem_append_left _) fits.1,
      Outcome.ok_bind, ih _ (List.nodup_append.mp distinct).2.1 fits.2]
    · rw [List.flatMap_cons, List.flatMap_cons, putAll_append, List.append_assoc]
    · exact (fresh.mono fun _ => List.mem_append_right _).putAll apart admits_assigned

/-! ## The whole step -/

/-- A field of the next version is carried from its own name, or left as it is. -/
theorem outcome_carrySame {p : Progress} {field : Field}
    (found : s.after.schema.field? field.name = some field) :
    (s.carrySame p field).outcome =
      if s.record.version.sharesName s.after.version field.name then
        (s.carry p (.rename field.name field.name [])).outcome
      else .ok p := by
  have shares : s.record.version.sharesName s.after.version field.name =
      (!(s.produced.contains field.name || s.consumed.contains field.name) &&
        (s.record.schema.field? field.name).isSome) := rfl
  unfold carrySame
  rw [shares]
  by_cases named : (s.produced.contains field.name || s.consumed.contains field.name) = true
  · rw [if_pos named, named]
    rfl
  · rw [if_neg named, Bool.not_eq_true] at *
    rw [named, Bool.not_false, Bool.true_and]
    unfold carry rename
    cases source : s.record.schema.field? field.name with
    | none => simp
    | some sourceField =>
      cases holds : s.record.get? field.name with
      | none => simp [holds]
      | some value => simp [source, holds, found, translate?]

/-- Fields are carried from their own names, as transfers of the shared names. -/
theorem outcome_carryShared {fields : List Field} {p : Progress}
    (listed : ∀ field ∈ fields, field ∈ s.after.fields) :
    fields.foldlM (fun p field => (s.carrySame p field).outcome) p =
      (((fields.map (·.name)).filter (s.record.version.sharesName s.after.version)).map
        fun name => Transfer.rename name name []).foldlM (fun p t => (s.carry p t).outcome) p := by
  induction fields generalizing p with
  | nil => rfl
  | cons field fields ih =>
    simp only [List.mem_cons, forall_eq_or_imp] at listed
    have ih := fun p => ih (p := p) listed.2
    rw [List.foldlM_cons, List.map_cons, List.filter_cons,
      outcome_carrySame (s.after.version.field?_of_mem listed.1)]
    split
    · rw [List.map_cons, List.foldlM_cons]
      exact bind_congr ih
    · exact ih p

/-- The transfers of a step. -/
def moves (s : Step) : List Transfer := s.record.version.moves s.after.version

/-- **The record that a step leads to**: the style of the next version, with what the transfers
assign. -/
def next (s : Step) : StyleRecord :=
  StyleRecord.putAll { s.after with language := s.record.language } (s.moves.flatMap s.assigned)

/-- **A step succeeds**, whatever the record holds. -/
theorem outcome_run (adjacent : s.record.version.Adjacent s.after.version)
    (wellFormed : s.after.WellFormed) :
    s.run.outcome = .ok ⟨s.next, s.moves.flatMap s.lost ++ s.dropped⟩ := by
  obtain ⟨fits, distinct⟩ := Version.moves_fit adjacent
  have fresh : s.Fresh (s.moves.flatMap Transfer.targets)
      ⟨{ s.after with language := s.record.language }, []⟩ := ⟨rfl, wellFormed, fun _ _ => rfl⟩
  have carried := outcome_carryAll fresh distinct fits
  unfold run
  -- The transfers come first, the fields of a shared name after them.
  unfold moves Version.moves at carried
  rw [List.foldlM_append] at carried
  obtain ⟨renamed, first, second⟩ := Outcome.bind_eq_ok_iff.mp carried
  simp only [Traced.outcome_bind, Traced.outcome_foldlM]
  rw [show s.transfers.foldlM _ _ = .ok renamed from first, Outcome.ok_bind,
    show s.after.schema.fields.foldlM _ renamed = _ from
      (outcome_carryShared fun _ => id).trans second]
  rfl

/-! ## What the next record holds -/

theorem version_next : s.next.version = s.after.version := (sameTags_putAll _ _).1

theorem language_next : s.next.language = s.record.language := (sameTags_putAll _ _).2.1

theorem inheritsParent_next : s.next.inheritsParent = s.after.inheritsParent :=
  (sameTags_putAll _ _).2.2

private theorem moves_assigned_sublist :
    ((s.moves.flatMap s.assigned).map Prod.fst).Sublist (s.moves.flatMap Transfer.targets) := by
  rw [List.map_flatMap]
  generalize s.moves = ts
  induction ts with
  | nil => exact .slnil
  | cons t ts ih => exact assigned_sublist.append ih

theorem wellFormed_next (wellFormed : s.after.WellFormed) : s.next.WellFormed := by
  refine wellFormed_iff.mpr (Each.putAll (wellFormed_iff.mp wellFormed) ?_)
  intro write member field found
  obtain ⟨t, -, assigned⟩ := List.mem_flatMap.mp member
  obtain ⟨field', found', admitted⟩ := admits_assigned write assigned
  exact Option.some.inj (found'.symm.trans found) ▸ admitted

/-- **What a transfer assigns, the next record holds.** -/
theorem get?_next_of_assigned {t : Transfer} {name : String} {value : Value}
    (adjacent : s.record.version.Adjacent s.after.version) (wellFormed : s.after.WellFormed)
    (member : t ∈ s.moves) (assigned : (name, value) ∈ s.assigned t) :
    s.next.get? name = some value := by
  obtain ⟨field, found, -⟩ := admits_assigned _ assigned
  obtain ⟨_, holds, -⟩ := (wellFormed_iff.mp wellFormed).get? found
  refine get?_putAll_of_mem (moves_assigned_sublist.nodup (Version.moves_fit adjacent).2)
    (List.mem_flatMap.mpr ⟨t, member, assigned⟩) ?_
  exact Option.isSome_iff_exists.mpr ⟨_, holds⟩

/-- **What no transfer assigns, the next record holds as the style does.** -/
theorem get?_next_of_unassigned {name : String}
    (unassigned : ∀ t ∈ s.moves, name ∉ (s.assigned t).map Prod.fst) :
    s.next.get? name = s.after.get? name := by
  refine get?_putAll_of_notMem fun assigned => ?_
  rw [List.map_flatMap] at assigned
  obtain ⟨t, member, assigned⟩ := List.mem_flatMap.mp assigned
  exact unassigned t member assigned

theorem get?_next_of_untargeted {name : String}
    (untargeted : name ∉ s.moves.flatMap Transfer.targets) :
    s.next.get? name = s.after.get? name :=
  get?_next_of_unassigned fun t member assigned =>
    untargeted (List.mem_flatMap.mpr ⟨t, member, assigned_sublist.subset assigned⟩)

end Migration.Step

end FormatStyle
