import FormatStyle.Document
import FormatStyle.Preset
import FormatStyle.Proofs.Styles

/-! # Records that edits lead to

An older spelling does one of a few things to a record (`Document.Renews`). Whatever changes a
record does it field by field, each time with a value that fits: tables of assignments, presets,
older spellings, keys of a document and derivations. So all of them lead from a record only to what
it can become (`StyleRecord.Becomes`), which has its tags and is well formed if it is.
-/

namespace FormatStyle

open Yaml (Node Mapping)

/-! ## Older spellings -/

namespace Document

variable {m : Mapping} {basedOn : Option String} {r t : StyleRecord}

/-- **What an older spelling makes of a record**: the same, or one with what is under a key, with
what a row of a table denotes, or with what has been combined. -/
inductive Renews (m : Mapping) (basedOn : Option String) (r : StyleRecord) :
    Legacy → StyleRecord → Prop where
  | same {legacy : Legacy} : Renews m basedOn r legacy r
  | synonym {name target : String} {node : Node} {field : Field} {value : Value} {t : StyleRecord}
      (found : r.schema.field? target = some field)
      (read : (field.kind.read r.schema.conventions.strictKeys node (r.current field)
        name).outcome = .ok value)
      (set : r.set target value = .ok t) : Renews m basedOn r (.synonym name target) t
  | mapped {name : String} {kind : ScalarKind} {target : String} {map : List (Literal × Literal)}
      {onlyIf : Option Literal} {row : Literal × Literal} {field : Field} {value : Value}
      {t : StyleRecord} (found : r.schema.field? target = some field) (listed : row ∈ map)
      (denotes : row.2.toValue field.name field.kind (r.current field) = .ok value)
      (set : r.set target value = .ok t) :
      Renews m basedOn r (.mapped name kind target map onlyIf) t
  | group {names : List (String × ScalarKind)}
      {combine : List (Option Value) → View → Option String → List (String × Value)}
      {values : List (Option Value)} {t : StyleRecord}
      (set : r.setAll (combine values r.view basedOn) = .ok t) :
      Renews m basedOn r (.group names combine) t

/-- **An older spelling that is read** does one of these things. -/
theorem renews_of_readLegacy {legacy : Legacy}
    (renewed : (readLegacy m basedOn r legacy).outcome = .ok t) : Renews m basedOn r legacy t := by
  unfold readLegacy at renewed
  cases legacy with
  | synonym name target =>
    dsimp only at renewed
    split at renewed
    · rename_i node field _ found
      obtain ⟨value, read, set⟩ := Outcome.bind_eq_ok_iff.mp (Traced.outcome_bind _ _ ▸ renewed)
      exact .synonym found read set
    · cases renewed
      exact .same
  | mapped name kind target map onlyIf =>
    obtain ⟨own, -, renewed⟩ := Outcome.bind_eq_ok_iff.mp (Traced.outcome_bind _ _ ▸ renewed)
    split at renewed
    · rename_i field value found
      split at renewed
      · cases renewed
        exact .same
      · rename_i row row_found
        split at renewed
        · obtain ⟨mapped, denotes, set⟩ :=
            Outcome.bind_eq_ok_iff.mp (Traced.outcome_bind _ _ ▸ renewed)
          exact .mapped found (List.mem_of_find?_eq_some row_found) denotes set
        · cases renewed
          exact .same
    · cases renewed
      exact .same
  | group names combine =>
    obtain ⟨values, -, renewed⟩ := Outcome.bind_eq_ok_iff.mp (Traced.outcome_bind _ _ ▸ renewed)
    split at renewed
    · exact .group renewed
    · cases renewed
      exact .same

end Document

namespace StyleRecord

variable {r t next : StyleRecord}

/-! ## Changes field by field -/

/-- **The records that a record becomes** when fields are set, one after the other. -/
inductive Becomes (r : StyleRecord) : StyleRecord → Prop where
  | same : r.Becomes r
  | set {before after : StyleRecord} {name : String} {value : Value} (path : r.Becomes before)
      (step : before.set name value = .ok after) : r.Becomes after

namespace Becomes

theorem trans (first : r.Becomes t) (rest : t.Becomes next) : r.Becomes next := by
  induction rest with
  | same => exact first
  | set _ step ih => exact ih.set step

/-- What a record becomes has its tags. -/
theorem sameTags (becomes : r.Becomes t) : SameTags t r := by
  induction becomes with
  | same => exact .refl r
  | set _ step ih => exact (sameTags_set step).trans ih

/-- **What a well-formed record becomes is well formed.** -/
theorem wellFormed (becomes : r.Becomes t) (wellFormed : r.WellFormed) : t.WellFormed := by
  induction becomes with
  | same => exact wellFormed
  | set _ step ih => exact ih.set step

theorem of_set {name : String} {value : Value} (set : r.set name value = .ok t) : r.Becomes t :=
  .set .same set

/-- Steps that each edit a record edit it together. -/
theorem of_foldlM {α : Type} {step : StyleRecord → α → Except StyleError StyleRecord} {l : List α}
    (edits : ∀ {before after : StyleRecord} {x : α}, x ∈ l → step before x = .ok after →
      before.Becomes after) (folded : l.foldlM step r = .ok t) : r.Becomes t :=
  Outcome.foldlM_preserves (fun _ _ _ member stepped path => path.trans (edits member stepped))
    folded .same

theorem of_setAll {assignments : List (String × Value)} (set : r.setAll assignments = .ok t) :
    r.Becomes t :=
  of_foldlM (fun _ => of_set) set

theorem of_finish (finished : r.finish = .ok t) : r.Becomes t :=
  of_foldlM (fun _ => of_setAll) finished

/-- An assignment of a table sets its field to what its literal denotes. -/
theorem of_assignOne {assignment : String × Literal} (made : r.assignOne assignment = .ok t) :
    r.Becomes t := by
  obtain ⟨field, current, value, found, -, denotes, rfl⟩ := assignOne_eq_ok made
  exact of_set (set_eq_put found (Literal.admits_of_toValue denotes))

/-- **A table of assignments edits a record**, however far it gets. -/
theorem assign (r : StyleRecord) (assignments : List (String × Literal)) :
    r.Becomes (r.assign assignments).record := by
  induction assignments generalizing r with
  | nil => exact .same
  | cons assignment rest ih =>
    cases made : r.assignOne assignment with
    | ok next =>
      rw [assign_cons_of_ok made]
      exact (of_assignOne made).trans (ih next)
    | error e =>
      rw [assign_cons_of_error made]
      exact .same

theorem of_toExcept {assignments : List (String × Literal)}
    (assigned : (r.assign assignments).toExcept = .ok t) : r.Becomes t :=
  Assigned.record_of_toExcept assigned ▸ assign r assignments

/-! ## Presets -/

theorem of_apply {preset : Preset} {variant : PresetVariant}
    (applied : preset.apply variant r = .ok t) : r.Becomes t := by
  unfold Preset.apply at applied
  split at applied
  · cases applied
  · obtain ⟨a, zeroed, applied⟩ := Outcome.bind_eq_ok_iff.mp applied
    obtain ⟨b, reset, applied⟩ := Outcome.bind_eq_ok_iff.mp applied
    obtain ⟨c, flags, side⟩ := Outcome.bind_eq_ok_iff.mp applied
    exact (of_set zeroed).trans ((of_toExcept reset).trans ((of_toExcept flags).trans
      (of_toExcept side)))

theorem of_expandIn {preset : Preset} (expanded : preset.expandIn r = .ok t) : r.Becomes t := by
  unfold Preset.expandIn at expanded
  split at expanded
  · exact of_apply expanded
  · cases expanded
    exact .same

/-- **Expansion edits a record.** -/
theorem of_expand (expanded : r.expand = .ok t) : r.Becomes t :=
  of_foldlM (fun _ => of_expandIn) expanded

theorem of_collapseIn {preset : Preset} (collapsed : (preset.collapseIn r).outcome = .ok t) :
    r.Becomes t := by
  unfold Preset.collapseIn at collapsed
  split at collapsed
  · obtain ⟨variants, -, collapsed⟩ :=
      Outcome.bind_eq_ok_iff.mp (Traced.outcome_bind _ _ ▸ collapsed)
    split at collapsed
    · obtain ⟨_, -, set⟩ := Outcome.bind_eq_ok_iff.mp (Traced.outcome_bind _ _ ▸ collapsed)
      exact of_set set
    · cases collapsed
      exact .same
  · cases collapsed
    exact .same

/-- **Collapse edits a record.** -/
theorem of_collapse (collapsed : r.collapse.outcome = .ok t) : r.Becomes t := by
  unfold collapse at collapsed
  rw [Traced.outcome_foldlM] at collapsed
  exact of_foldlM (fun _ => of_collapseIn) collapsed

/-! ## Documents -/

variable {m : Mapping} {basedOn : Option String}

/-- **An older spelling edits a record.** -/
theorem of_readLegacy {legacy : Legacy}
    (renewed : (Document.readLegacy m basedOn r legacy).outcome = .ok t) : r.Becomes t := by
  cases Document.renews_of_readLegacy renewed with
  | same => exact .same
  | synonym _ _ set => exact of_set set
  | mapped _ _ _ set => exact of_set set
  | group set => exact of_setAll set

/-- **The key of a field edits a record.** -/
theorem of_readField {field : Field} (filled : (Document.readField m r field).outcome = .ok t) :
    r.Becomes t := by
  unfold Document.readField at filled
  split at filled
  · cases filled
    exact .same
  · obtain ⟨value, -, set⟩ := Outcome.bind_eq_ok_iff.mp (Traced.outcome_bind _ _ ▸ filled)
    exact of_set set

end Becomes

end StyleRecord

end FormatStyle
