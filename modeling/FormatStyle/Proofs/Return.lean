import FormatStyle.Proofs.Counterparts

/-! # A step up and a step back

A step down goes back along the transfers of the step up (`Version.mem_moves_reverse`).
-/

namespace FormatStyle

open Migration Step

namespace Transfer

/-- The transfer in the other direction. -/
def reverse : Transfer → Transfer
  | rename source target map => rename target source (map.map Prod.swap)
  | merge sources target rows => split target sources rows
  | split source targets rows => merge targets source rows

@[simp] theorem sources_reverse (t : Transfer) : t.reverse.sources = t.targets := by
  cases t <;> rfl

@[simp] theorem targets_reverse (t : Transfer) : t.reverse.targets = t.sources := by
  cases t <;> rfl

/-- Of transfers that name nothing in common, one only names a field. -/
theorem eq_of_nodup_flatMap {ts : List Transfer} {names : Transfer → List String} {name : String}
    (distinct : (ts.flatMap names).Nodup) {t t' : Transfer} (member : t ∈ ts) (member' : t' ∈ ts)
    (named : name ∈ names t) (named' : name ∈ names t') : t' = t := by
  have once : ts.Pairwise fun x y => name ∈ names x → name ∈ names y → x = y :=
    (List.nodup_flatMap.mp distinct).2.imp fun disjoint here there => absurd there (disjoint here)
  exact List.Pairwise.forall_of_forall_of_flip (fun _ _ _ _ => rfl) once
    (once.imp fun same there here => (same here there).symm) member' member named' named

end Transfer

namespace Version

variable {a b : Version}

theorem transfers_reverse (next : a.next? = some b) :
    transfers b a = (transfers a b).map Transfer.reverse := by
  cases a <;> cases next <;> rfl

theorem mem_sharedNames {name : String} : name ∈ a.sharedNames b ↔
    name ∈ a.schema.names ∧ name ∈ b.schema.names ∧
      name ∉ (transfers a b).flatMap Transfer.targets ∧
      name ∉ (transfers a b).flatMap Transfer.sources := by
  have known : (a.schema.field? name).isSome = true ↔ name ∈ a.schema.names :=
    Schema.field?_isSome_iff
  rw [sharedNames, List.mem_filter, sharesName, ← known]
  simp only [Bool.and_eq_true, Bool.not_eq_true', Bool.or_eq_false_iff, List.contains_eq_mem,
    decide_eq_false_iff_not]
  tauto

theorem sharedNames_symm (next : a.next? = some b) {name : String} :
    name ∈ b.sharedNames a ↔ name ∈ a.sharedNames b := by
  rw [mem_sharedNames, mem_sharedNames, transfers_reverse next, List.flatMap_map, List.flatMap_map]
  simp only [Transfer.sources_reverse, Transfer.targets_reverse]
  tauto

/-- **The transfers of a step down are those of the step up**, reversed. -/
theorem reverse_mem_moves (next : a.next? = some b) {t : Transfer} (member : t ∈ a.moves b) :
    t.reverse ∈ b.moves a := by
  unfold moves at member ⊢
  rw [transfers_reverse next]
  rcases List.mem_append.mp member with member | member
  · exact List.mem_append_left _ (List.mem_map_of_mem member)
  · obtain ⟨name, shared, rfl⟩ := List.mem_map.mp member
    exact List.mem_append_right _
      (List.mem_map.mpr ⟨name, (sharedNames_symm next).mpr shared, rfl⟩)

theorem exists_reverse_of_mem_moves (next : a.next? = some b) {t : Transfer}
    (member : t ∈ b.moves a) : ∃ t' ∈ a.moves b, t'.reverse = t := by
  unfold moves at member ⊢
  rw [transfers_reverse next] at member
  rcases List.mem_append.mp member with member | member
  · obtain ⟨t', listed, rfl⟩ := List.mem_map.mp member
    exact ⟨t', List.mem_append_left _ listed, rfl⟩
  · obtain ⟨name, shared, rfl⟩ := List.mem_map.mp member
    exact ⟨.rename name name [], List.mem_append_right _
      (List.mem_map.mpr ⟨name, (sharedNames_symm next).mp shared, rfl⟩), rfl⟩

/-- A step up sets the field that stand-ins are allowed for, and leaves alone the one that a step
down may leave to the style. -/
theorem targets_of_next (next : a.next? = some b) {name : String} :
    (b.loose name = true → name ∈ (a.moves b).flatMap Transfer.targets) ∧
      (b.unsaid name = true → name ∉ (a.moves b).flatMap Transfer.targets) := by
  constructor
  · intro loose
    simp only [Version.loose, Bool.and_eq_true, beq_iff_eq] at loose
    obtain ⟨rfl, rfl⟩ := loose
    cases a <;> cases next
    unfold moves
    rw [List.flatMap_append]
    exact List.mem_append_left _ (by decide)
  · intro unsaid
    simp only [Version.unsaid, Bool.and_eq_true, beq_iff_eq] at unsaid
    obtain ⟨rfl, rfl⟩ := unsaid
    cases a <;> cases next
    unfold moves
    rw [List.flatMap_append, List.mem_append, not_or]
    refine ⟨by decide, fun member => ?_⟩
    obtain ⟨t, listed, target⟩ := List.mem_flatMap.mp member
    obtain ⟨name, shared, rfl⟩ := List.mem_map.mp listed
    obtain rfl := List.mem_singleton.mp target
    have unknown :
        Version.v3_6.schema.field? "AllowAllConstructorInitializersOnNextLine" = none := by
      decide
    have known := Schema.field?_isSome_iff.mpr (mem_sharedNames.mp shared).1
    rw [unknown] at known
    cases known

/-- What a step up sets, a step down reads or knows. -/
theorem mem_targets_moves (next : a.next? = some b) {name : String} :
    name ∈ (a.moves b).flatMap Transfer.targets →
      name ∈ (transfers b a).flatMap Transfer.sources ∨ name ∈ a.schema.names := by
  intro target
  unfold moves at target
  rw [List.flatMap_append, List.mem_append] at target
  refine target.imp (fun target => ?_) fun target => ?_
  · rw [transfers_reverse next, List.flatMap_map]
    simpa using target
  · obtain ⟨t, listed, target⟩ := List.mem_flatMap.mp target
    obtain ⟨name, shared, rfl⟩ := List.mem_map.mp listed
    obtain rfl := List.mem_singleton.mp target
    exact (mem_sharedNames.mp shared).1

/-- **The sources of every transfer upwards come back.** -/
theorem comesBack_of_mem (next : a.next? = some b) {t : Transfer} (member : t ∈ a.moves b) :
    t.comesBack a b = true := by
  obtain ⟨listed, fields⟩ := Bool.and_eq_true_iff.mp (counterparts_of_next next)
  rcases List.mem_append.mp member with member | member
  · exact List.all_eq_true.mp listed t member
  · obtain ⟨name, shared, rfl⟩ := List.mem_map.mp member
    obtain ⟨-, shares⟩ := List.mem_filter.mp shared
    simp only [sharesName, Bool.and_eq_true, Bool.not_eq_true', Bool.or_eq_false_iff] at shares
    obtain ⟨⟨-, unread⟩, known⟩ := shares
    obtain ⟨field, found⟩ := Option.isSome_iff_exists.mp known
    obtain rfl := Schema.name_of_field? found
    have checked := List.all_eq_true.mp fields field (Schema.mem_of_field? found)
    rw [unread, Bool.false_or, Bool.and_eq_true] at checked
    unfold Transfer.comesBack
    dsimp only
    rw [found]
    exact checked.2

end Version

namespace Migration.Step

open StyleRecord

/-- **A step between two versions**, of records that fit them. -/
structure Between (s : Step) (a b : Version) : Prop where
  source : s.record.version = a
  target : s.after.version = b
  wellFormed : s.record.WellFormed
  after_wellFormed : s.after.WellFormed

variable {a b : Version} {s back : Step} {t : Transfer}

theorem Between.schema (between : s.Between a b) : s.record.schema = a.schema := by
  rw [StyleRecord.schema, between.source]

theorem Between.after_schema (between : s.Between a b) : s.after.schema = b.schema := by
  rw [StyleRecord.schema, between.target]

/-- The versions of a step are neighbours if the versions that it is between are. -/
theorem Between.adjacent (between : s.Between a b) (adjacent : a.Adjacent b) :
    s.record.version.Adjacent s.after.version := by
  rwa [between.source, between.target]

/-- **What a transfer back gives**: it loses nothing, and sets each source to what stands for its
value, but for one that is left to the style. -/
def Returned (s back : Step) (t : Transfer) : Prop :=
  back.lost t.reverse = [] ∧ ∀ name ∈ t.sources,
    (∃ here value, (name, here) ∈ back.assigned t.reverse ∧ s.record.get? name = some value ∧
      here ∈ standIns (s.record.version.loose name) value) ∨
    s.record.version.unsaid name = true ∧ name ∉ (back.assigned t.reverse).map Prod.fst

/-- What a renaming carries. -/
theorem renamed?_eq {source target : String} {map : List (Literal × Literal)} {field other : Field}
    {value : Value} (holds : s.record.get? source = some value)
    (found : s.record.schema.field? source = some field)
    (found' : s.after.schema.field? target = some other) :
    s.renamed? source target map = carried map field other value (s.after.current other) := by
  simp [renamed?, holds, found, found']

theorem assigned_rename {source target : String} {map : List (Literal × Literal)} {value : Value}
    (renamed : s.renamed? source target map = some value) :
    s.assigned (.rename source target map) = [(target, value)] ∧
      s.lost (.rename source target map) = [] := by
  constructor
  · simp [assigned, renamed]
  · cases holds : s.record.get? source <;> simp [lost, holds, renamed]

/-- **A renaming upwards loses nothing and comes back.** -/
theorem returned_rename {source target : String} {map : List (Literal × Literal)}
    (check : (Transfer.rename source target map).comesBack a b = true) (between : s.Between a b) :
    ∃ there, s.assigned (.rename source target map) = [(target, there)] ∧
      s.lost (.rename source target map) = [] ∧
      ∀ back : Step, back.Between b a → ∀ there' ∈ standIns (b.loose target) there,
        back.record.get? target = some there' → Returned s back (.rename source target map) := by
  obtain ⟨field, found, check⟩ := (Option.any_eq_true _ _).mp check
  obtain ⟨other, found', check⟩ := (Option.any_eq_true _ _).mp check
  obtain ⟨check, -⟩ := Bool.and_eq_true_iff.mp check
  obtain rfl := Schema.name_of_field? found
  obtain rfl := Schema.name_of_field? found'
  obtain ⟨value, holds, admitted⟩ := (wellFormed_iff.mp between.wellFormed).get?
    (between.schema ▸ found)
  obtain ⟨there, goes, comes⟩ := restored_of_restores check
    (Version.lawful_of_mem (Schema.mem_of_field? found')) admitted
  have found_after : s.after.schema.field? other.name = some other := between.after_schema ▸ found'
  have current := (wellFormed_iff.mp between.after_wellFormed).current found_after
  have renamed : s.renamed? field.name other.name map = some there := by
    rw [renamed?_eq holds (between.schema ▸ found) found_after, goes _ current]
  refine ⟨there, (assigned_rename renamed).1, (assigned_rename renamed).2, ?_⟩
  intro back between' there' stands holds'
  obtain ⟨here, stands', comes⟩ := comes there' stands
  have renamed' : back.renamed? other.name field.name (map.map Prod.swap) = some here := by
    rw [renamed?_eq holds' (between'.schema ▸ found') (between'.after_schema ▸ found), comes]
  refine ⟨(assigned_rename renamed').2, fun name member => .inl ⟨here, value, ?_, ?_, ?_⟩⟩
  · obtain rfl := List.mem_singleton.mp member
    rw [Transfer.reverse, (assigned_rename renamed').1]
    exact List.mem_singleton_self _
  · obtain rfl := List.mem_singleton.mp member
    exact holds
  · obtain rfl := List.mem_singleton.mp member
    rwa [between.source]

/-- A literal of a simple field denotes the same whatever the field holds. -/
theorem denoted?_scalar {target : String} {literal : Literal} {field : Field} {kind : ScalarKind}
    (found : s.after.schema.field? target = some field) (is_scalar : field.kind = .scalar kind)
    (current : Value) :
    s.denoted? target literal = (literal.toValue field.name field.kind current).toOption := by
  unfold denoted? Literal.toValue
  simp only [found, is_scalar, Literal.denote_scalar, Option.bind_eq_bind, Option.bind_some]

theorem placed_cons_none {target : String} {targets : List String}
    {places : List (Option Literal)} :
    s.placed (target :: targets) (none :: places) = s.placed targets places := rfl

theorem placed_cons_some {target : String} {targets : List String} {literal : Literal}
    {places : List (Option Literal)} {value : Value}
    (denoted : s.denoted? target literal = some value) :
    s.placed (target :: targets) (some literal :: places) =
      (target, value) :: s.placed targets places := by
  simp [placed, denoted]

/-- **The places of a row give back the values**, or leave a field to the style. -/
theorem placed_of_placesSay {fields : List Field} {values : List Value}
    {places : List (Option Literal)} (say : Transfer.placesSay a fields values places = true)
    (found : ∀ field ∈ fields, back.after.schema.field? field.name = some field)
    (distinct : (fields.map (·.name)).Nodup) :
    ∀ slot ∈ fields.zip values, (slot.1.name, slot.2) ∈ back.placed (fields.map (·.name)) places ∨
      a.unsaid slot.1.name = true ∧
        slot.1.name ∉ (back.placed (fields.map (·.name)) places).map Prod.fst := by
  induction fields generalizing values places with
  | nil => simp
  | cons field fields ih =>
    cases values with
    | nil => simp
    | cons value values =>
      cases places with
      | nil => cases say
      | cons place places =>
        obtain ⟨first, say⟩ := Bool.and_eq_true_iff.mp say
        rw [List.map_cons, List.nodup_cons] at distinct
        have here := found field List.mem_cons_self
        have later := ih say (fun field member => found field (List.mem_cons_of_mem _ member))
          distinct.2
        have unnamed : field.name ∉ (back.placed (fields.map (·.name)) places).map Prod.fst :=
          fun named => distinct.1 (placed_sublist.subset named)
        have apart : ∀ slot ∈ fields.zip values, slot.1.name ≠ field.name := fun slot member same =>
          distinct.1 (List.mem_map.mpr ⟨slot.1, (List.of_mem_zip member).1, same⟩)
        rw [List.zip_cons_cons, List.forall_mem_cons, List.map_cons]
        cases place with
        | none =>
          rw [placed_cons_none]
          exact ⟨.inr ⟨first, unnamed⟩, later⟩
        | some literal =>
          obtain ⟨denotes, simple⟩ := Bool.and_eq_true_iff.mp first
          obtain ⟨kind, is_scalar⟩ : ∃ kind, field.kind = .scalar kind := by
            cases kind : field.kind <;> simp [kind, FieldKind.parts?] at simple ⊢
          have denoted : back.denoted? field.name literal = some value := by
            rw [denoted?_scalar here is_scalar field.kind.zero]
            exact beq_iff_eq.mp denotes
          rw [placed_cons_some denoted]
          refine ⟨.inl List.mem_cons_self, fun slot member => ?_⟩
          rcases later slot member with said | ⟨silent, unset⟩
          · exact .inl (List.mem_cons_of_mem _ said)
          · refine .inr ⟨silent, ?_⟩
            rw [List.map_cons, List.mem_cons, not_or]
            exact ⟨apart slot member, unset⟩

/-- Fields that are found by their names have those names. -/
private theorem names_of_fields {sources : List String} {fields : List Field} {schema : Schema}
    (named : List.Forall₂ (fun name field => schema.field? name = some field) sources fields) :
    fields.map (·.name) = sources ∧
      ∀ field ∈ fields, schema.field? field.name = some field := by
  induction named with
  | nil => exact ⟨rfl, by simp⟩
  | cons one _ ih =>
    obtain ⟨rest, found⟩ := ih
    obtain rfl := Schema.name_of_field? one
    exact ⟨by rw [List.map_cons, rest], List.forall_mem_cons.mpr ⟨one, found⟩⟩

/-- The values of merged fields are among those that are tried. -/
private theorem exists_merged {sources : List String} {target : String} {fields : List Field}
    {kind : ScalarKind} {choices : List (List Value)} (between : s.Between a b)
    (merged : Transfer.mergedFields? a b sources target = some (fields, kind, choices)) :
    fields.map (·.name) = sources ∧
      (∀ field ∈ fields, a.schema.field? field.name = some field) ∧
      (∃ other, b.schema.field? target = some other ∧ other.kind = .scalar kind) ∧
      fields.map s.record.current ∈ choices.sections ∧
      sources.map s.record.get? = (fields.map s.record.current).map some := by
  obtain ⟨_, sources_found, merged⟩ := Option.bind_eq_some_iff.mp merged
  obtain ⟨_, target_kind, merged⟩ := Option.bind_eq_some_iff.mp merged
  obtain ⟨_, finite, same⟩ := Option.bind_eq_some_iff.mp merged
  cases same
  have named := forall₂_of_mapM sources_found
  have tried := forall₂_of_mapM finite
  have each := wellFormed_iff.mp between.wellFormed
  obtain ⟨names, found⟩ := names_of_fields named
  have held : ∀ field ∈ fields, s.record.get? field.name = some (s.record.current field) :=
    fun field member => each.get?_eq_current (between.schema ▸ found field member)
  refine ⟨names, found, Schema.field?_of_scalarKind? target_kind, ?_, ?_⟩
  · rw [List.mem_sections, List.forall₂_map_left_iff, List.forall₂_iff_get]
    refine ⟨tried.length_eq, fun i bound bound' => ?_⟩
    have listed : fields[i] ∈ fields := List.getElem_mem bound
    have admitted := each.current (between.schema ▸ found fields[i] listed)
    have values := (List.forall₂_iff_get.mp tried).2 i bound bound'
    simp only [List.get_eq_getElem] at values ⊢
    unfold FieldKind.values? at values
    split at values
    · rename_i kind is_scalar
      rw [is_scalar] at admitted
      exact ScalarKind.mem_values? values admitted
    · cases values
  · rw [← names, List.map_map, List.map_map]
    exact List.map_congr_left held

/-- **A merge upwards loses nothing and comes back.** -/
theorem returned_merge {sources : List String} {target : String}
    {rows : List (List (Option Literal) × Literal)} (distinct : sources.Nodup)
    (comes : (Transfer.merge sources target rows).comesBack a b = true) (between : s.Between a b) :
    ∃ there, s.assigned (.merge sources target rows) = [(target, there)] ∧
      s.lost (.merge sources target rows) = [] ∧
      ∀ back : Step, back.Between b a → ∀ there' ∈ standIns (b.loose target) there,
        back.record.get? target = some there' → Returned s back (.merge sources target rows) := by
  obtain ⟨⟨fields, kind, choices⟩, merged, check⟩ := (Option.any_eq_true _ _).mp comes
  obtain ⟨strict, check⟩ := Bool.and_eq_true_iff.mp check
  obtain ⟨rfl, found, ⟨other, found', is_scalar⟩, tried, held⟩ := exists_merged between merged
  obtain ⟨row, fits, check⟩ := (Option.any_eq_true _ _).mp (List.all_eq_true.mp check _ tried)
  obtain ⟨there, denotes, check⟩ := (Option.any_eq_true _ _).mp check
  obtain ⟨row', fits', say⟩ := (Option.any_eq_true _ _).mp check
  obtain rfl := Schema.name_of_field? found'
  have matched : s.mergeRow? (fields.map (·.name)) rows = some row := by
    rw [mergeRow?, held]
    exact fits
  have denoted : s.denoted? other.name row.2 = some there := by
    rw [denoted?_scalar (between.after_schema ▸ found') is_scalar other.kind.zero, is_scalar,
      Literal.toValue_of_toScalar (Outcome.toOption_eq_some_iff.mp denotes)]
    rfl
  refine ⟨there, ?_, ?_, fun back between' there' stands holds => ?_⟩
  · simp [assigned, matched, denoted]
  · simp [lost, matched]
  · obtain rfl : there' = there := by
      rw [Bool.not_eq_true'] at strict
      rw [strict, standIns_strict] at stands
      exact List.mem_singleton.mp stands
    have matched' : back.splitRow? other.name rows = some row' := by
      rw [splitRow?, holds]
      exact fits'
    have placed := placed_of_placesSay say
      (fun field member => between'.after_schema ▸ found field member) distinct
    constructor
    · simp [Transfer.reverse, lost, holds, matched']
    · intro name member
      obtain ⟨field, listed, rfl⟩ := List.mem_map.mp member
      have slot : (field, s.record.current field) ∈ fields.zip (fields.map s.record.current) := by
        rw [← List.map_prod_left_eq_zip]
        exact List.mem_map_of_mem listed
      simp only [Transfer.reverse, assigned, matched', Option.map_some, Option.getD_some]
      rw [between.source]
      refine (placed _ slot).imp_left fun set => ⟨_, _, set, ?_, mem_standIns_self⟩
      exact (wellFormed_iff.mp between.wellFormed).get?_eq_current
        (between.schema ▸ found field listed)

/-- **Every transfer upwards loses nothing and comes back.** -/
theorem returned_of_mem (next : a.next? = some b) (member : t ∈ a.moves b)
    (between : s.Between a b) :
    ∃ target there, t.targets = [target] ∧ s.assigned t = [(target, there)] ∧ s.lost t = [] ∧
      ∀ back : Step, back.Between b a → ∀ there' ∈ standIns (b.loose target) there,
        back.record.get? target = some there' → Returned s back t := by
  have comes := Version.comesBack_of_mem next member
  cases t with
  | rename source target map =>
    obtain ⟨there, returned⟩ := returned_rename comes between
    exact ⟨target, there, rfl, returned⟩
  | merge sources target rows =>
    have fits := List.all_eq_true.mp (Version.moves_fit (a := b) (b := a) (.inr next)).1 _
      (Version.reverse_mem_moves next member)
    have distinct : sources.Nodup := by
      simp only [Transfer.reverse, Transfer.fits, Bool.and_eq_true, decide_eq_true_eq] at fits
      exact fits.1
    obtain ⟨there, returned⟩ := returned_merge distinct comes between
    exact ⟨target, there, rfl, returned⟩
  | split source targets rows => cases comes

/-- Every field takes part in a transfer upwards. -/
theorem exists_move_of_mem (next : a.next? = some b) {field : Field}
    (member : field ∈ a.schema.fields) : ∃ t ∈ a.moves b, field.name ∈ t.sources := by
  have checked := List.all_eq_true.mp (Bool.and_eq_true_iff.mp
    (Version.counterparts_of_next next)).2 field member
  rcases Bool.or_eq_true_iff.mp checked with read | shared
  · obtain ⟨t, listed, source⟩ := List.mem_flatMap.mp (List.contains_iff_mem.mp read)
    exact ⟨t, List.mem_append_left _ listed, source⟩
  · by_cases read : field.name ∈ (FormatStyle.transfers a b).flatMap Transfer.sources
    · obtain ⟨t, listed, source⟩ := List.mem_flatMap.mp read
      exact ⟨t, List.mem_append_left _ listed, source⟩
    · obtain ⟨unset, known⟩ := Bool.and_eq_true_iff.mp shared
      obtain ⟨other, found, -⟩ := (Option.any_eq_true _ _).mp known
      have name : field.name ∈ a.sharedNames b :=
        Version.mem_sharedNames.mpr ⟨List.mem_map_of_mem member,
          Schema.field?_isSome_iff.mp (by rw [found]; rfl), by simpa using unset, read⟩
      exact ⟨_, List.mem_append_right _ (List.mem_map_of_mem name), List.mem_singleton_self _⟩

theorem Between.moves (between : s.Between a b) : s.moves = a.moves b := by
  rw [Step.moves, between.source, between.target]

theorem Between.transfers (between : s.Between a b) : s.transfers = FormatStyle.transfers a b := by
  rw [Step.transfers, between.source, between.target]

/-- **A step up succeeds and loses nothing.** -/
theorem outcome_run_up (next : a.next? = some b) (between : s.Between a b) :
    s.run.outcome = .ok ⟨s.next, []⟩ := by
  have adjacent := between.adjacent (.inl next)
  have kept : s.moves.flatMap s.lost = [] := by
    rw [between.moves, List.flatMap_eq_nil_iff]
    intro t member
    obtain ⟨_, _, -, -, kept, -⟩ := returned_of_mem next member between
    exact kept
  have known : s.dropped = [] := by
    unfold dropped
    rw [List.map_eq_nil_iff, List.filter_eq_nil_iff,
      (wellFormed_iff.mp between.wellFormed).toList_eq]
    intro slot listed
    obtain ⟨field, member, rfl⟩ := List.mem_map.mp listed
    rw [StyleRecord.fields, between.schema] at member
    have checked := List.all_eq_true.mp (Bool.and_eq_true_iff.mp
      (Version.counterparts_of_next next)).2 field member
    dsimp only
    rw [consumed, between.transfers, between.after_schema]
    rcases Bool.or_eq_true_iff.mp checked with read | shared
    · rw [read]
      simp
    · obtain ⟨other, found, -⟩ := (Option.any_eq_true _ _).mp (Bool.and_eq_true_iff.mp shared).2
      simp [found]
  rw [outcome_run adjacent between.after_wellFormed, kept, known]
  rfl

end Migration.Step

namespace StyleRecord

/-- **A record that stands for another one**: under every name it holds what stands for what the
other one holds. -/
def Stands (r d : StyleRecord) : Prop :=
  ∀ name value, r.get? name = some value →
    ∃ value' ∈ Migration.Step.standIns (r.version.loose name) value, d.get? name = some value'

end StyleRecord

namespace Migration.Step

open StyleRecord

variable {a b : Version} {up back : Step}

/-- The field that stands for a field after a step back is set once. -/
theorem assigned_once {t t' : Transfer} {name : String}
    (adjacent : back.record.version.Adjacent back.after.version) (member : t ∈ back.moves)
    (member' : t' ∈ back.moves) (target : name ∈ t.targets) (target' : name ∈ t'.targets) :
    t' = t :=
  Transfer.eq_of_nodup_flatMap (Version.moves_fit adjacent).2 member member' target target'

/-- **Every transfer comes back** in a step from what stands for the record that the step up led
to. -/
theorem returned_of_stands (next : a.next? = some b) (between : up.Between a b)
    (between' : back.Between b a) (stands : up.next.Stands back.record) :
    ∀ t ∈ a.moves b, Returned up back t := by
  intro t member
  obtain ⟨target, there, -, assigned, -, returned⟩ := returned_of_mem next member between
  have holds := get?_next_of_assigned (between.adjacent (.inl next)) between.after_wellFormed
    (between.moves.symm ▸ member) (assigned ▸ List.mem_singleton_self (target, there))
  obtain ⟨there', member', holds'⟩ := stands target there holds
  rw [version_next.trans between.target] at member'
  exact returned back between' there' member' holds'

/-- A field that the step up left to the style is the style's again before the step back. -/
private theorem current_of_untargeted {field : Field} (next : a.next? = some b) (between : up.Between a b)
    (stands : up.next.Stands back.record) (found : b.schema.field? field.name = some field)
    (untargeted : field.name ∉ (a.moves b).flatMap Transfer.targets) :
    up.after.get? field.name = some (back.record.current field) := by
  have left := get?_next_of_untargeted (s := up) (by rwa [between.moves])
  have strict : b.loose field.name = false := by
    rw [← Bool.not_eq_true]
    exact fun loose => untargeted ((Version.targets_of_next next).1 loose)
  obtain ⟨value, holds, -⟩ := (wellFormed_iff.mp between.after_wellFormed).get?
    (between.after_schema ▸ found)
  obtain ⟨value', member', holds'⟩ := stands field.name value (left.trans holds)
  rw [version_next.trans between.target, strict, standIns_strict, List.mem_singleton] at member'
  rw [holds, current_of_get? holds', member']

/-- **A step back drops nothing**: a field without a counterpart was not changed. -/
theorem dropped_back (next : a.next? = some b) (between : up.Between a b)
    (between' : back.Between b a) (stands : up.next.Stands back.record)
    (before : ∀ name, back.before.get? name = up.after.get? name) : back.dropped = [] := by
  unfold dropped
  rw [List.map_eq_nil_iff, List.filter_eq_nil_iff,
    (wellFormed_iff.mp between'.wellFormed).toList_eq]
  intro slot listed
  obtain ⟨field, member, rfl⟩ := List.mem_map.mp listed
  rw [StyleRecord.fields, between'.schema] at member
  dsimp only
  rw [consumed, between'.transfers, between'.after_schema, before]
  by_cases target : field.name ∈ (a.moves b).flatMap Transfer.targets
  · rcases Version.mem_targets_moves next target with read | known
    · rw [List.contains_iff_mem.mpr read]
      simp
    · rw [← Schema.field?_isSome_iff, Option.isSome_iff_exists] at known
      obtain ⟨other, found⟩ := known
      simp [found]
  · simp [current_of_untargeted next between stands (Version.field?_of_mem member) target]

/-- **A step back leads to what stands for the record that the step up started from**, if every
transfer comes back. -/
theorem stands_next_back (next : a.next? = some b) (between : up.Between a b)
    (between' : back.Between b a) (returned : ∀ t ∈ a.moves b, Returned up back t)
    (silent : ∀ name, a.unsaid name = true → up.record.get? name = back.after.get? name) :
    up.record.Stands back.next := by
  have adjacent := between'.adjacent (.inr next)
  intro name value holds
  obtain ⟨field, found⟩ := field?_of_get? holds
  obtain rfl := Schema.name_of_field? found
  rw [between.schema] at found
  obtain ⟨t, member, source⟩ := exists_move_of_mem next (Schema.mem_of_field? found)
  have reversed : t.reverse ∈ back.moves := by
    rw [between'.moves]
    exact Version.reverse_mem_moves next member
  rcases (returned t member).2 field.name source with
    ⟨here, value', assigned, holds', stands'⟩ | ⟨unsaid, unset⟩
  · obtain rfl : value' = value := Option.some.inj (holds'.symm.trans holds)
    exact ⟨here, stands', get?_next_of_assigned adjacent between'.after_wellFormed reversed
      assigned⟩
  · rw [between.source] at unsaid
    refine ⟨value, mem_standIns_self, ?_⟩
    rw [get?_next_of_unassigned, ← silent _ unsaid, holds]
    intro t' member' assigned
    obtain rfl := assigned_once adjacent reversed member'
      (by rw [Transfer.targets_reverse]; exact source) (assigned_sublist.subset assigned)
    exact unset assigned

/-- **A step back succeeds, loses nothing, and leads to what stands for the record that the step up
started from**, if it starts from what stands for the record that the step up led to. -/
theorem outcome_run_back (next : a.next? = some b) (between : up.Between a b)
    (between' : back.Between b a) (stands : up.next.Stands back.record)
    (before : ∀ name, back.before.get? name = up.after.get? name)
    (silent : ∀ name, a.unsaid name = true → up.record.get? name = back.after.get? name) :
    back.run.outcome = .ok ⟨back.next, []⟩ ∧ up.record.Stands back.next := by
  have returned := returned_of_stands next between between' stands
  have kept : back.moves.flatMap back.lost = [] := by
    rw [between'.moves, List.flatMap_eq_nil_iff]
    intro t member
    obtain ⟨t', member', rfl⟩ := Version.exists_reverse_of_mem_moves next member
    exact (returned t' member').1
  refine ⟨?_, stands_next_back next between between' returned silent⟩
  rw [outcome_run (between'.adjacent (.inr next)) between'.after_wellFormed, kept,
    dropped_back next between between' stands before]
  rfl

end Migration.Step

end FormatStyle
