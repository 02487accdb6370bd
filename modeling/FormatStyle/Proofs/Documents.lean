import FormatStyle.Configuration
import FormatStyle.Proofs.Edits
import FormatStyle.Proofs.Laws
import Mathlib.Data.List.Induction

/-! # Documents that are read

What it takes for a document to be read, one condition after the other (`Document.read_eq_ok_iff`),
and for the documents of a text to be read together (`Configuration.readAll_eq_ok_iff`): each has a
language of its own, only the first is for every language, and each one is read by itself on top of
the first one or of the ambient record. From them one is chosen for the requested language
(`Configuration.select_eq_ok_iff`).
-/

namespace FormatStyle

open StyleRecord
open Yaml (Node Mapping)

namespace Document

variable {requested language : Language} {template : StyleRecord} {m : Mapping} {index : Nat}
  {d : Document}

/-- **Read a document of a known language**: what it starts from, its older spellings, the keys of
its fields, and what follows from them. -/
def readFor (requested : Language) (template : StyleRecord) (m : Mapping) (language : Language) :
    Traced StyleError Document := do
  let (start, basedOn) ← readBase requested m { template with language }
  let renewed ← template.schema.legacy.foldlM (readLegacy m basedOn) start
  let filled ← template.schema.fields.foldlM (readField m) renewed
  checkKeys template.schema m
  let record ← filled.finish
  return ⟨language, record, basedOn⟩

/-- A document is read once its language is known, and may stand where it does. -/
theorem outcome_read : (read requested template index m).outcome =
    readLanguage template.schema m >>= fun language =>
      if language = .none ∧ 0 < index then .error (.misplacedDefault index)
      else (readFor requested template m language).outcome := by
  unfold read
  rw [Traced.outcome_bind, Traced.outcome_monadLift]
  congr 1
  funext language
  split <;> rfl

/-- **What a document changes** in the record that it starts from: older spellings first, and then
the fields. -/
def edit (v : Version) (m : Mapping) (basedOn : Option String) (start : StyleRecord) :
    Except StyleError StyleRecord := do
  let renewed ← v.schema.legacy.foldlM
    (fun r legacy => (readLegacy m basedOn r legacy).outcome) start
  v.schema.fields.foldlM (fun r field => (readField m r field).outcome) renewed

/-- **A document is read for a language** exactly if its base is found, its edits can be made, its
keys are known, and what follows from it can be derived. -/
theorem readFor_eq_ok_iff : (readFor requested template m language).outcome = .ok d ↔
    d.language = language ∧ ∃ start filled,
      (readBase requested m { template with language }).outcome = .ok (start, d.basedOn) ∧
      edit template.version m d.basedOn start = .ok filled ∧
      (checkKeys template.schema m).outcome = .ok () ∧ filled.finish = .ok d.record := by
  have edits : (readFor requested template m language).outcome =
      (readBase requested m { template with language }).outcome >>= fun base =>
        edit template.version m base.2 base.1 >>= fun filled =>
          (checkKeys template.schema m).outcome >>= fun _ =>
            filled.finish >>= fun record => .ok ⟨language, record, base.2⟩ := by
    simp only [readFor, edit, Traced.outcome_bind, Traced.outcome_foldlM, Traced.outcome_monadLift,
      Traced.outcome_pure, bind_assoc]
    rfl
  rw [edits, Outcome.bind_eq_ok_iff]
  constructor
  · rintro ⟨⟨start, basedOn⟩, base, h⟩
    obtain ⟨filled, edited, h⟩ := Outcome.bind_eq_ok_iff.mp h
    obtain ⟨⟨⟩, known, h⟩ := Outcome.bind_eq_ok_iff.mp h
    obtain ⟨record, finished, h⟩ := Outcome.bind_eq_ok_iff.mp h
    cases h
    exact ⟨rfl, start, filled, base, edited, known, finished⟩
  · rintro ⟨rfl, start, filled, base, edited, known, finished⟩
    refine ⟨_, base, ?_⟩
    simp [edited, known, finished]

/-- Edits of a document lead to what a record becomes. -/
theorem becomes_of_edit {v : Version} {basedOn : Option String} {start filled : StyleRecord}
    (h : edit v m basedOn start = .ok filled) : start.Becomes filled := by
  obtain ⟨renewed, legacies, fields⟩ := Outcome.bind_eq_ok_iff.mp h
  exact (Becomes.of_foldlM (fun _ => .of_readLegacy) legacies).trans
    (.of_foldlM (fun _ => .of_readField) fields)

/-- A document edits the record that it starts from. -/
theorem becomes_of_readFor (h : (readFor requested template m language).outcome = .ok d) :
    ∃ start filled,
      (readBase requested m { template with language }).outcome = .ok (start, d.basedOn) ∧
        start.Becomes filled ∧ filled.finish = .ok d.record := by
  obtain ⟨-, start, filled, base, edited, -, finished⟩ := readFor_eq_ok_iff.mp h
  exact ⟨start, filled, base, becomes_of_edit edited, finished⟩

/-- **A document is read** exactly if its language is known and may stand where it does, and it can
be read for that language. -/
theorem read_eq_ok_iff : (read requested template index m).outcome = .ok d ↔
    readLanguage template.schema m = .ok d.language ∧ (d.language = .none → index = 0) ∧
      (readFor requested template m d.language).outcome = .ok d := by
  rw [outcome_read, Outcome.bind_eq_ok_iff]
  constructor
  · rintro ⟨language, spoken, h⟩
    split at h
    · cases h
    · rename_i placed
      obtain ⟨rfl, -⟩ := readFor_eq_ok_iff.mp h
      exact ⟨spoken, fun none => by_contra fun later =>
        placed ⟨none, Nat.pos_of_ne_zero later⟩, h⟩
  · rintro ⟨spoken, placed, h⟩
    refine ⟨d.language, spoken, ?_⟩
    rw [if_neg fun misplaced => misplaced.2.ne' (placed misplaced.1)]
    exact h

/-- A document further on is read as a first one, unless it is for every language. -/
theorem read_eq_ok_iff_first : (read requested template index m).outcome = .ok d ↔
    (d.language = .none → index = 0) ∧ (read requested template 0 m).outcome = .ok d := by
  rw [read_eq_ok_iff, read_eq_ok_iff]
  simp only [implies_true, true_and]
  exact and_left_comm

/-- A document starts from a record of the version, which is well formed if the template is. -/
theorem tags_of_readBase {start : StyleRecord} {basedOn : Option String}
    (h : (readBase requested m template).outcome = .ok (start, basedOn)) :
    start.version = template.version ∧ (template.WellFormed → start.WellFormed) := by
  unfold readBase at h
  split at h
  · cases h
    exact ⟨rfl, id⟩
  · split at h
    · cases h
    · split at h
      · cases h
        exact ⟨rfl, id⟩
      · obtain ⟨style, resolved, h⟩ := Outcome.bind_eq_ok_iff.mp (Traced.outcome_bind _ _ ▸ h)
        cases h
        obtain ⟨native, version, -⟩ := Style.native_of_resolve resolved
        exact ⟨version, fun _ => native.wellFormed⟩

/-- The version of what is read is the version that it is read under. -/
theorem version_of_read (h : (read requested template index m).outcome = .ok d) :
    d.record.version = template.version := by
  obtain ⟨-, -, h⟩ := read_eq_ok_iff.mp h
  obtain ⟨start, filled, base, fills, finished⟩ := becomes_of_readFor h
  obtain ⟨version, -⟩ := tags_of_readBase base
  exact (fills.trans (.of_finish finished)).sameTags.1.trans version

/-- **What is read on top of a well-formed record is well formed** and leaves nothing to derive. -/
theorem wellFormed_of_read (wellFormed : template.WellFormed)
    (h : (read requested template index m).outcome = .ok d) :
    d.record.WellFormed ∧ d.record.Settled := by
  obtain ⟨-, -, h⟩ := read_eq_ok_iff.mp h
  obtain ⟨start, filled, base, fills, finished⟩ := becomes_of_readFor h
  obtain ⟨-, starts⟩ := tags_of_readBase base
  have whole : filled.WellFormed := fills.wellFormed (starts wellFormed)
  refine ⟨(Becomes.of_finish finished).wellFormed whole, ?_⟩
  rw [← Except.ok.inj ((finish_eq_putAll whole).symm.trans finished)]
  exact settled_finish whole

end Document

namespace Configuration

variable {v : Version} {text : String} {requested : Language} {ambient : StyleRecord}
  {ms : List Mapping} {documents : List Document} {d : Document} {c : Configuration}

/-! ## All documents -/

/-- A document is read next if it can be read on top of the template, and its language is new. -/
theorem readNext_eq_ok_iff {m : Mapping} {next : List Document} :
    (readNext requested ambient documents m).outcome = .ok next ↔
      ∃ d, next = documents ++ [d] ∧
        (Document.read requested (template ambient documents) documents.length m).outcome =
          .ok d ∧
        ¬ (d.language ≠ .none ∧ documents.any (·.language = d.language) = true) := by
  unfold readNext
  rw [Traced.outcome_bind, Outcome.bind_eq_ok_iff]
  constructor
  · rintro ⟨d, read, h⟩
    split at h
    · cases h
    · cases h
      exact ⟨d, rfl, read, by assumption⟩
  · rintro ⟨d, rfl, read, new⟩
    refine ⟨d, read, ?_⟩
    rw [if_neg new]
    rfl

/-- **What a document is read on top of**: the first one if that is for every language, and else the
ambient record. The first one itself is read on top of the ambient record. -/
def base (ambient : StyleRecord) (documents : List Document) (d : Document) : StyleRecord :=
  if d.language = .none then ambient else template ambient documents

/-- **Documents that stand together**: each language has one document, and only the first is for
every language. -/
structure Apart (documents : List Document) : Prop where
  distinct : (documents.map (·.language)).Nodup
  proper : ∀ d ∈ documents.tail, d.language ≠ .none

theorem apart_nil : Apart [] := ⟨List.nodup_nil, List.forall_mem_nil _⟩

/-- A document stands together with earlier ones if its language is new to them, and none of them is
there if it is for every language. -/
theorem apart_snoc_iff : Apart (documents ++ [d]) ↔ Apart documents ∧
    d.language ∉ documents.map (·.language) ∧ (d.language = .none → documents = []) := by
  have distinct : ((documents ++ [d]).map (·.language)).Nodup ↔
      (documents.map (·.language)).Nodup ∧ d.language ∉ documents.map (·.language) := by
    rw [List.map_append, List.map_singleton, ← List.concat_eq_append, List.nodup_concat]
    exact and_comm
  cases documents with
  | nil =>
    refine ⟨fun _ => ⟨apart_nil, List.not_mem_nil, fun _ => rfl⟩, fun _ => ?_⟩
    exact ⟨List.nodup_singleton _, List.forall_mem_nil _⟩
  | cons first rest =>
    have proper : (∀ d' ∈ (first :: rest ++ [d]).tail, d'.language ≠ .none) ↔
        (∀ d' ∈ rest, d'.language ≠ .none) ∧ d.language ≠ .none := by
      rw [List.cons_append, List.tail_cons, List.forall_mem_append, List.forall_mem_singleton]
    constructor
    · rintro ⟨distinct', proper'⟩
      obtain ⟨earlier, new⟩ := distinct.mp distinct'
      obtain ⟨later, own⟩ := proper.mp proper'
      exact ⟨⟨earlier, later⟩, new, fun none => absurd none own⟩
    · rintro ⟨⟨earlier, later⟩, new, alone⟩
      exact ⟨distinct.mpr ⟨earlier, new⟩,
        proper.mpr ⟨later, fun none => List.cons_ne_nil _ _ (alone none)⟩⟩

/-- **A document that is read by itself**, on top of what the documents of its text give it. -/
def ReadAlone (requested : Language) (ambient : StyleRecord) (documents : List Document)
    (m : Mapping) (d : Document) : Prop :=
  (Document.read requested (base ambient documents d) 0 m).outcome = .ok d

/-- To earlier documents a later one gives nothing. -/
theorem readAlone_snoc :
    List.Forall₂ (ReadAlone requested ambient (documents ++ [d])) ms documents ↔
      List.Forall₂ (ReadAlone requested ambient documents) ms documents := by
  cases documents with
  | nil => rw [List.forall₂_nil_right_iff, List.forall₂_nil_right_iff]
  | cons first rest => exact Iff.rfl

/-- What a document is read on top of when it comes next. -/
theorem base_last (alone : d.language = .none → documents = []) :
    base ambient (documents ++ [d]) d = template ambient documents := by
  cases documents with
  | nil =>
    unfold base template
    by_cases none : d.language = .none <;> simp [none]
  | cons first rest =>
    unfold base
    rw [if_neg fun none => List.cons_ne_nil _ _ (alone none)]
    rfl

/-- **Documents are read together** exactly if they stand together, and each is read by itself on
top of its base. By induction from the last document, which looks at all earlier ones. -/
theorem readAll_eq_ok_iff : (readAll requested ambient ms).outcome = .ok documents ↔
    Apart documents ∧ List.Forall₂ (ReadAlone requested ambient documents) ms documents := by
  induction ms using List.reverseRecOn generalizing documents with
  | nil =>
    constructor
    · rintro ⟨⟩
      exact ⟨apart_nil, .nil⟩
    · rintro ⟨-, ⟨⟩⟩
      rfl
  | append_singleton ms m ih =>
    have split : (readAll requested ambient (ms ++ [m])).outcome =
        (readAll requested ambient ms).outcome >>= fun documents =>
          (readNext requested ambient documents m).outcome := by
      unfold readAll
      rw [List.foldlM_append, Traced.outcome_bind]
      congr 1
      funext documents
      rw [List.foldlM_cons, Traced.outcome_bind]
      cases (readNext requested ambient documents m).outcome <;> rfl
    have new_iff : ∀ {earlier : List Document} {d : Document},
        (d.language = .none → earlier = []) →
          (¬ (d.language ≠ .none ∧ earlier.any (·.language = d.language) = true) ↔
            d.language ∉ earlier.map (·.language)) := by
      intro earlier d alone
      by_cases none : d.language = .none
      · simp [none, alone none]
      · simp [none]
    rw [split, Outcome.bind_eq_ok_iff, Outcome.forall₂_append_left_iff]
    constructor
    · rintro ⟨earlier, all, next⟩
      obtain ⟨d, rfl, read, new⟩ := readNext_eq_ok_iff.mp next
      obtain ⟨apart, each⟩ := ih.mp all
      obtain ⟨placed, read⟩ := Document.read_eq_ok_iff_first.mp read
      have alone : d.language = .none → earlier = [] := fun none =>
        List.eq_nil_of_length_eq_zero (placed none)
      have last : ReadAlone requested ambient (earlier ++ [d]) m d := by
        rw [ReadAlone, base_last alone]
        exact read
      exact ⟨apart_snoc_iff.mpr ⟨apart, (new_iff alone).mp new, alone⟩, earlier, [d], rfl,
        readAlone_snoc.mpr each, .cons last .nil⟩
    · rintro ⟨apart, earlier, last, rfl, each, read⟩
      obtain ⟨d, _, read, nothing, rfl⟩ := List.forall₂_cons_left_iff.mp read
      obtain rfl := List.forall₂_nil_left_iff.mp nothing
      obtain ⟨apart, new, alone⟩ := apart_snoc_iff.mp apart
      refine ⟨earlier, ih.mpr ⟨apart, readAlone_snoc.mp each⟩,
        readNext_eq_ok_iff.mpr ⟨d, rfl, ?_, (new_iff alone).mpr new⟩⟩
      rw [ReadAlone, base_last alone] at read
      exact Document.read_eq_ok_iff_first.mpr ⟨fun none => by rw [alone none]; rfl, read⟩

/-- The first document is read on top of the ambient record. -/
theorem base_first {rest : List Document} : base ambient (d :: rest) d = ambient := by
  unfold base template
  by_cases common : d.language = .none <;> simp [common]

/-- A template is the ambient record or the record of the first document. -/
theorem template_holds {P : StyleRecord → Prop} (starts : P ambient)
    (first : ∀ d, documents.head? = some d → P d.record) : P (template ambient documents) := by
  cases documents with
  | nil => exact starts
  | cons head rest =>
    unfold template
    dsimp only
    split
    · exact first head rfl
    · exact starts

theorem base_holds {P : StyleRecord → Prop} (starts : P ambient)
    (first : ∀ d, documents.head? = some d → P d.record) (d : Document) :
    P (base ambient documents d) := by
  unfold base
  split
  · exact starts
  · exact template_holds starts first

/-- **What reading keeps, all documents have**, if the ambient record has it. -/
theorem forall_of_readAll {P : StyleRecord → Prop} {Q : Document → Prop} (starts : P ambient)
    (carries : ∀ {d}, Q d → P d.record)
    (reads : ∀ {template m d}, P template →
      (Document.read requested template 0 m).outcome = .ok d → Q d)
    (h : (readAll requested ambient ms).outcome = .ok documents) : ∀ d ∈ documents, Q d := by
  obtain ⟨-, each⟩ := readAll_eq_ok_iff.mp h
  cases each with
  | nil => exact List.forall_mem_nil _
  | @cons _ first _ rest read others =>
    rw [ReadAlone, base_first] at read
    have head : Q first := reads starts read
    refine List.forall_mem_cons.mpr ⟨head, fun d member => ?_⟩
    obtain ⟨m, -, read⟩ := Outcome.exists_of_mem_right others member
    refine reads (base_holds starts ?_ d) read
    rintro _ ⟨⟩
    exact carries head

/-- All documents are of the version that they are read under. -/
theorem version_of_readAll (version : ambient.version = v)
    (h : (readAll requested ambient ms).outcome = .ok documents) :
    ∀ d ∈ documents, d.record.version = v :=
  forall_of_readAll (P := fun r => r.version = v) version id
    (fun same read => (Document.version_of_read read).trans same) h

/-! ## The document that counts -/

/-- **The document that counts for a language**: its own, or else the one for every language. -/
inductive Chosen (requested : Language) (documents : List Document) (d : Document) : Prop where
  | own (member : d ∈ documents) (language : d.language = requested)
  | shared (others : ∀ d' ∈ documents, d'.language ≠ requested) (first : documents.head? = some d)
      (language : d.language = .none)

/-- A document that counts is one of the documents. -/
theorem Chosen.mem (chosen : Chosen requested documents d) : d ∈ documents := by
  cases chosen with
  | own member _ => exact member
  | shared _ first _ => exact List.mem_of_head? first

/-- Documents that stand together have one document for a language. -/
theorem Apart.eq_of_language {d' : Document} (apart : Apart documents) (member : d ∈ documents)
    (member' : d' ∈ documents) (same : d.language = d'.language) : d = d' :=
  List.inj_on_of_nodup_map apart.distinct member member' same

/-- What is selected is the document that counts, for the language that is asked for. -/
theorem select_eq_ok_iff (apart : Apart documents) :
    (select documents requested).outcome = .ok c ↔
      ∃ d, Chosen requested documents d ∧
        c = ⟨{ d.record with language := requested }, d.basedOn⟩ := by
  unfold select selected?
  cases found : documents.findIdx? (·.language = requested) with
  | some i =>
    obtain ⟨bound, language, -⟩ := List.findIdx?_eq_some_iff_getElem.mp found
    simp only [Option.map_some, List.getElem?_eq_getElem bound, Traced.outcome_bind,
      Traced.outcome_log, Outcome.ok_bind, Traced.outcome_pure, Except.ok.injEq]
    have own := of_decide_eq_true language
    constructor
    · rintro rfl
      exact ⟨_, .own (List.getElem_mem bound) own, rfl⟩
    · rintro ⟨d, chosen, rfl⟩
      cases chosen with
      | own member language =>
        rw [apart.eq_of_language (List.getElem_mem bound) member (own.trans language.symm)]
      | shared others _ _ => exact absurd own (others _ (List.getElem_mem bound))
  | none =>
    have others : ∀ d ∈ documents, d.language ≠ requested := fun d member same => by
      have := List.findIdx?_eq_none_iff.mp found d member
      simp [same] at this
    cases documents with
    | nil =>
      simp only [List.head?_nil, Option.any_none, Bool.false_eq_true, if_false, Option.map_none,
        Traced.outcome_fail, reduceCtorEq, false_iff]
      rintro ⟨d, chosen, -⟩
      cases chosen.mem
    | cons first rest =>
      by_cases common : first.language = .none
      · simp only [List.head?_cons, Option.any_some, common, decide_true, if_true, Option.map_some,
          List.getElem?_cons_zero, Traced.outcome_bind, Traced.outcome_log, Outcome.ok_bind,
          Traced.outcome_pure, Except.ok.injEq]
        constructor
        · rintro rfl
          exact ⟨first, .shared others rfl common, rfl⟩
        · rintro ⟨d, chosen, rfl⟩
          cases chosen with
          | own member language => exact absurd language (others d member)
          | shared _ head _ => rw [Option.some.inj head]
      · simp only [List.head?_cons, Option.any_some, common, decide_false, Bool.false_eq_true,
          if_false, Option.map_none, Traced.outcome_fail, reduceCtorEq, false_iff]
        rintro ⟨d, chosen, -⟩
        cases chosen with
        | own member language => exact others d member language
        | shared _ head none => exact common (Option.some.inj head ▸ none)

/-! ## The whole text -/

/-- **The mappings of a configuration are accepted** exactly if they may be as many, the documents
are read, one of them counts, and it keeps the laws. -/
theorem ofMappings_eq_ok_iff : (ofMappings requested ambient ms).outcome = .ok c ↔
    (ambient.version.schema.conventions.languageKey = true ∨ ms.length ≤ 1) ∧
      ∃ documents, (readAll requested ambient ms).outcome = .ok documents ∧
        (select documents requested).outcome = .ok c ∧ c.record.brokenConstraint? = none := by
  have checked : ∀ {r : StyleRecord}, checkLaws r = .ok () ↔ r.brokenConstraint? = none := by
    intro r
    unfold checkLaws
    cases r.brokenConstraint? <;> simp
  have enough : (!ambient.version.schema.conventions.languageKey && decide (1 < ms.length)) = true ↔
      ¬ (ambient.version.schema.conventions.languageKey = true ∨ ms.length ≤ 1) := by
    simp
  unfold ofMappings
  dsimp only
  by_cases several : ambient.version.schema.conventions.languageKey = true ∨ ms.length ≤ 1
  · rw [if_neg fun many => enough.mp many several]
    simp only [several, true_and, Traced.outcome_bind, Traced.outcome_log, Outcome.ok_bind,
      Traced.outcome_monadLift, Traced.outcome_pure, Outcome.bind_eq_ok_iff]
    refine exists_congr fun documents => and_congr_right fun _ => ?_
    constructor
    · rintro ⟨_, selected, ⟨⟩, lawful, ⟨⟩⟩
      exact ⟨selected, checked.mp lawful⟩
    · rintro ⟨selected, lawful⟩
      exact ⟨c, selected, (), checked.mpr lawful, rfl⟩
  · rw [if_pos (enough.mpr several)]
    simp [several]

/-- **A text is read** for a language that the version knows, on top of a record of the version:
blank text as the version has it, and any other text by its mappings. -/
theorem read_eq_ok_iff : (read v text requested ambient).outcome = .ok c ↔
    v.schema.supports requested = true ∧ ambient.version = v ∧
      if Text.isBlankText text then ofBlank requested { ambient with language := requested } = .ok c
      else ∃ ms, mappings text = .ok ms ∧
        (ofMappings requested { ambient with language := requested } ms).outcome = .ok c := by
  unfold read
  by_cases supported : v.schema.supports requested = true
  · by_cases version : ambient.version = v
    · rw [if_pos supported, if_pos version]
      dsimp only
      split
      · simp [supported, version]
      · simp [supported, version, Outcome.bind_eq_ok_iff]
    · simp [supported, version]
  · simp [supported]

/-- What mappings are read as on top of a well-formed record is well formed, and leaves nothing to
derive. -/
theorem settled_of_ofMappings (wellFormed : ambient.WellFormed)
    (accepted : (ofMappings requested ambient ms).outcome = .ok c) :
    c.record.WellFormed ∧ c.record.version = ambient.version ∧ c.record.Settled ∧
      c.record.brokenConstraint? = none := by
  obtain ⟨-, documents, all, selects, unbroken⟩ := ofMappings_eq_ok_iff.mp accepted
  obtain ⟨d, chosen, rfl⟩ := (select_eq_ok_iff (readAll_eq_ok_iff.mp all).1).mp selects
  obtain ⟨whole, settled⟩ :=
    forall_of_readAll (P := StyleRecord.WellFormed)
      (Q := fun d => d.record.WellFormed ∧ d.record.Settled) wellFormed And.left
      Document.wellFormed_of_read all d chosen.mem
  exact ⟨whole, version_of_readAll rfl all d chosen.mem, settled, unbroken⟩

/-- **What is read on top of a well-formed record is well formed.** -/
theorem wellFormed_of_read (wellFormed : ambient.WellFormed)
    (accepted : (read v text requested ambient).outcome = .ok c) : c.record.WellFormed := by
  have retagged : ({ ambient with language := requested } : StyleRecord).WellFormed := wellFormed
  obtain ⟨-, -, h⟩ := read_eq_ok_iff.mp accepted
  split at h
  · unfold ofBlank at h
    split at h <;> cases h
    exact retagged
  · obtain ⟨ms, -, accepted⟩ := h
    exact (settled_of_ofMappings retagged accepted).1

end Configuration

end FormatStyle
