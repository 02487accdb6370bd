import FormatStyle.Proofs.Documents
import FormatStyle.Proofs.Reread

/-! # Documents for several languages

A text may have documents for several languages, and one for every language at its start. Read for
one of the languages, documents for the other ones count for nothing, the document of the language
is read by itself on top of the common one, and without it the common one counts
(`Configuration.read_stacked`).
-/

namespace FormatStyle

open StyleRecord
open Yaml (Mapping)

namespace Configuration

variable {v : Version} {text : String} {requested language : Language} {ambient : StyleRecord}
  {ms before after : List Mapping} {m : Mapping} {documents front back : List Document}
  {d d' : Document} {c : Configuration}

/-- **A text that spells mappings**, one for each of its documents. -/
def Spells (text : String) (ms : List Mapping) : Prop :=
  Text.isBlankText text = false ∧ mappings text = .ok ms

/-- A text of one document without aliases spells the mapping of its tree. -/
theorem spells_of_tree (t : Yaml.Tree) (written : Text.isBlankText text = false)
    (allowed : text.toList.all Yaml.isAllowed = true)
    (events : Yaml.textEvents? text.toList = some [⟨t.events, []⟩])
    (low : t.height ≤ Yaml.Document.maxDepth)
    (grown : Yaml.Node.ofTree? t = some (.mapping m)) : Spells text [m] := by
  refine ⟨written, ?_⟩
  unfold mappings
  rw [Yaml.documents_of_single allowed events (Yaml.tree?_events t low), grown]
  rfl

/-- **What mappings yield**, read for a language on top of a record, in every text that spells
them. -/
def Yields (v : Version) (requested : Language) (ambient : StyleRecord) (ms : List Mapping)
    (c : Configuration) : Prop :=
  (ofMappings requested { ambient with language := requested } ms).outcome = .ok c ∧
    ∀ text, Spells text ms → (read v text requested ambient).outcome = .ok c

/-- **The common document**: the first one, where it is for every language. -/
def common? (requested : Language) (ambient : StyleRecord) (ms : List Mapping) : Option Document :=
  (ms.head?.bind fun m =>
    (Document.read requested { ambient with language := requested } 0 m).outcome.toOption).filter
      (·.language = .none)

/-- **What the document of a language starts from**: the record of the common document, or else the
ambient one. -/
def ground (requested : Language) (ambient : StyleRecord) (ms : List Mapping) : StyleRecord :=
  ((common? requested ambient ms).map (·.record)).getD ambient

/-- **A configuration that is stacked** from mappings for several languages. -/
structure Stacked (v : Version) (requested : Language) (ambient : StyleRecord)
    (ms : List Mapping) (c : Configuration) : Prop where
  /-- Every mapping has a language, or is for every language. -/
  spoken : ∀ m ∈ ms, ∃ language, Document.readLanguage v.schema m = .ok language
  /-- No two mappings have the same one. -/
  distinct : (ms.map (Document.readLanguage v.schema)).Nodup
  /-- Only the first mapping is for every language. -/
  proper : ∀ m ∈ ms.tail, Document.readLanguage v.schema m ≠ .ok .none
  /-- A mapping for another language can be left out. -/
  others : ∀ before m after language, ms = before ++ m :: after →
    Document.readLanguage v.schema m = .ok language → language ≠ requested → language ≠ .none →
      Yields v requested ambient (before ++ after) c
  /-- The mapping for the language yields the same by itself, on top of the common one. -/
  own : ∀ m ∈ ms, Document.readLanguage v.schema m = .ok requested →
    Yields v requested (ground requested ambient ms) [m] c
  /-- Without it the common one counts. -/
  shared : (∀ m ∈ ms, Document.readLanguage v.schema m ≠ .ok requested) →
    ∃ first, common? requested ambient ms = some first ∧
      c = ⟨{ first.record with language := requested }, first.basedOn⟩

/-! ## Leaving out a document -/

/-- Documents still stand together when one is left out. -/
theorem Apart.leaveOut (apart : Apart (front ++ d :: back)) : Apart (front ++ back) := by
  have sub : (front ++ back).Sublist (front ++ d :: back) :=
    (List.Sublist.refl front).append (List.sublist_cons_self d back)
  refine ⟨apart.distinct.sublist (sub.map _), fun d' member => apart.proper d' ?_⟩
  cases front with
  | nil => exact List.mem_of_mem_tail member
  | cons first front => exact (sub.tail).subset member

/-- A document for one language is no base of others. -/
private theorem base_leaveOut (apart : Apart (front ++ d :: back)) (proper : d.language ≠ .none) :
    base ambient (front ++ back) d' = base ambient (front ++ d :: back) d' := by
  have same : template ambient (front ++ back) = template ambient (front ++ d :: back) := by
    cases front with
    | cons first front => rfl
    | nil =>
      -- The first document goes, which is not common; the next one is not common either, as it
      -- stood later.
      cases back with
      | nil => simp [template, proper]
      | cons next back =>
        have later : next.language ≠ .none := apart.proper next List.mem_cons_self
        simp [template, proper, later]
  unfold base
  rw [same]

/-- A document that does not count can be left out. -/
theorem Chosen.leaveOut (chosen : Chosen requested (front ++ d :: back) d')
    (other : d.language ≠ requested) (proper : d.language ≠ .none) :
    Chosen requested (front ++ back) d' := by
  cases chosen with
  | own member language =>
    refine .own ?_ language
    rcases List.mem_append.mp member with here | here
    · exact List.mem_append_left _ here
    · rcases List.mem_cons.mp here with rfl | here
      · exact absurd language other
      · exact List.mem_append_right _ here
  | shared others first language =>
    refine .shared (fun d'' member => others d'' ?_) ?_ language
    · rcases List.mem_append.mp member with here | here
      · exact List.mem_append_left _ here
      · exact List.mem_append_right _ (List.mem_cons_of_mem _ here)
    · cases front with
      | nil =>
        obtain rfl := Option.some.inj first
        exact absurd language proper
      | cons head front => exact first

/-! ## The documents of mappings -/

/-- A document is read for the language that its mapping has. -/
theorem readLanguage_of_readAlone (version : ambient.version = v)
    (all : (readAll requested ambient ms).outcome = .ok documents)
    (read : ReadAlone requested ambient documents m d) :
    Document.readLanguage v.schema m = .ok d.language := by
  have same : (base ambient documents d).version = v :=
    base_holds (P := fun r => r.version = v) version
      (fun d first => version_of_readAll version all d (List.mem_of_head? first)) d
  obtain ⟨spoken, -⟩ := Document.read_eq_ok_iff.mp read
  rwa [StyleRecord.schema, same] at spoken

/-- The languages of documents are those that their mappings have, in the same order. -/
private theorem languages_of_readAll (version : ambient.version = v)
    (all : (readAll requested ambient ms).outcome = .ok documents) :
    List.Forall₂ (fun m d => Document.readLanguage v.schema m = .ok d.language) ms documents ∧
      ms.map (Document.readLanguage v.schema) = (documents.map (·.language)).map .ok := by
  have spoken : List.Forall₂ (fun m d => Document.readLanguage v.schema m = .ok d.language)
      ms documents :=
    (readAll_eq_ok_iff.mp all).2.imp fun m d read => readLanguage_of_readAlone version all read
  refine ⟨spoken, ?_⟩
  rw [List.map_map, ← List.forall₂_eq_eq_eq, List.forall₂_map_left_iff, List.forall₂_map_right_iff]
  exact spoken

/-- Where documents stand together, only the first mapping is for every language. -/
private theorem proper_of_languages (apart : Apart documents)
    (languages : ms.map (Document.readLanguage v.schema) =
      (documents.map (·.language)).map .ok) :
    ∀ m ∈ ms.tail, Document.readLanguage v.schema m ≠ .ok .none := by
  intro m later common
  have listed := List.mem_map_of_mem (f := Document.readLanguage v.schema) later
  rw [List.map_tail, languages, ← List.map_tail, ← List.map_tail, common] at listed
  obtain ⟨_, said, same⟩ := List.mem_map.mp listed
  obtain ⟨d, there, rfl⟩ := List.mem_map.mp said
  exact apart.proper d there (Except.ok.inj same)

/-- The common document is the first one that is read, where it is for every language. -/
theorem common?_eq
    (all : (readAll requested { ambient with language := requested } ms).outcome = .ok documents) :
    common? requested ambient ms = documents.head?.filter (·.language = .none) := by
  obtain ⟨-, each⟩ := readAll_eq_ok_iff.mp all
  unfold common?
  cases each with
  | nil => rfl
  | cons read _ =>
    rw [ReadAlone, base_first] at read
    rw [List.head?_cons, Option.bind_some, read]
    rfl

/-- The document of a language is read on top of the ground. -/
private theorem retagged_ground
    (all : (readAll requested { ambient with language := requested } ms).outcome = .ok documents) :
    { ground requested ambient ms with language := requested } =
      { template { ambient with language := requested } documents with language := requested } := by
  unfold ground
  rw [common?_eq all]
  cases documents with
  | nil => rfl
  | cons first rest =>
    by_cases common : first.language = .none <;> simp [template, Option.filter, common]

theorem yields_of_ofMappings (supported : v.schema.supports requested = true)
    (version : ambient.version = v)
    (accepted : (ofMappings requested { ambient with language := requested } ms).outcome = .ok c) :
    Yields v requested ambient ms c := by
  refine ⟨accepted, fun text spelled => read_eq_ok_iff.mpr ⟨supported, version, ?_⟩⟩
  rw [spelled.1, if_neg Bool.false_ne_true]
  exact ⟨ms, spelled.2, accepted⟩

/-- **Other documents can be left out.** -/
theorem ofMappings_leaveOut (version : ambient.version = v)
    (accepted : (ofMappings requested ambient (before ++ m :: after)).outcome = .ok c)
    (spoken : Document.readLanguage v.schema m = .ok language) (other : language ≠ requested)
    (proper : language ≠ .none) :
    (ofMappings requested ambient (before ++ after)).outcome = .ok c := by
  obtain ⟨several, documents, all, selects, lawful⟩ := ofMappings_eq_ok_iff.mp accepted
  obtain ⟨apart, each⟩ := readAll_eq_ok_iff.mp all
  obtain ⟨front, _, rfl, fronts, rest⟩ := Outcome.forall₂_append_left_iff.mp each
  obtain ⟨d, back, read, backs, rfl⟩ := List.forall₂_cons_left_iff.mp rest
  obtain rfl : language = d.language :=
    Except.ok.inj (spoken.symm.trans (readLanguage_of_readAlone version all read))
  obtain ⟨d', chosen, rfl⟩ := (select_eq_ok_iff apart).mp selects
  have same : ReadAlone requested ambient (front ++ d :: back) =
      ReadAlone requested ambient (front ++ back) := by
    funext m d'
    rw [ReadAlone, ReadAlone, base_leaveOut apart proper]
  rw [same] at fronts backs
  refine ofMappings_eq_ok_iff.mpr ⟨several.imp_right fun few => ?_, front ++ back,
    readAll_eq_ok_iff.mpr ⟨apart.leaveOut, List.rel_append fronts backs⟩,
    (select_eq_ok_iff apart.leaveOut).mpr ⟨d', chosen.leaveOut other proper, rfl⟩, lawful⟩
  simp only [List.length_append, List.length_cons] at few ⊢
  omega

/-- **The document of a language yields what it yields by itself**, on top of the common one. -/
theorem ofMappings_own (version : ambient.version = v) (proper : requested ≠ .none)
    (accepted : (ofMappings requested ambient ms).outcome = .ok c) (member : m ∈ ms)
    (spoken : Document.readLanguage v.schema m = .ok requested)
    (all : (readAll requested ambient ms).outcome = .ok documents) :
    (ofMappings requested { template ambient documents with language := requested } [m]).outcome =
      .ok c := by
  obtain ⟨-, documents', all', selects, lawful⟩ := ofMappings_eq_ok_iff.mp accepted
  obtain rfl := Except.ok.inj (all.symm.trans all')
  obtain ⟨apart, each⟩ := readAll_eq_ok_iff.mp all
  obtain ⟨d, listed, read⟩ := Outcome.exists_of_mem_left each member
  obtain rfl : requested = d.language :=
    Except.ok.inj (spoken.symm.trans (readLanguage_of_readAlone version all read))
  have counts : c = ⟨{ d.record with language := d.language }, d.basedOn⟩ :=
    Except.ok.inj (selects.symm.trans ((select_eq_ok_iff apart).mpr ⟨d, .own listed rfl, rfl⟩))
  have single : Apart [d] := ⟨List.nodup_singleton _, List.forall_mem_nil _⟩
  rw [ReadAlone, base, if_neg proper] at read
  -- By itself it comes first, so its base is now the ambient record, which is the former template.
  refine ofMappings_eq_ok_iff.mpr ⟨.inr le_rfl, [d], readAll_eq_ok_iff.mpr ⟨single, .cons ?_ .nil⟩,
    (select_eq_ok_iff single).mpr ⟨d, .own List.mem_cons_self rfl, counts⟩, lawful⟩
  rw [ReadAlone, base_first]
  exact read

/-- **What is accepted is stacked.** For every text that is read for a language, over any ambient
record. -/
theorem read_stacked (spelled : Spells text ms)
    (accepted : (read v text requested ambient).outcome = .ok c) :
    Stacked v requested ambient ms c := by
  obtain ⟨supported, version, h⟩ := read_eq_ok_iff.mp accepted
  rw [spelled.1, if_neg Bool.false_ne_true] at h
  obtain ⟨ms', spells, accepted⟩ := h
  obtain rfl := Except.ok.inj (spelled.2.symm.trans spells)
  obtain ⟨-, documents, all, selects, -⟩ := ofMappings_eq_ok_iff.mp accepted
  obtain ⟨apart, -⟩ := readAll_eq_ok_iff.mp all
  have proper : requested ≠ .none := (supports_proper supported).1
  have retagged : ({ ambient with language := requested } : StyleRecord).version = v := version
  obtain ⟨spoken, languages⟩ := languages_of_readAll retagged all
  constructor
  case spoken =>
    intro m member
    obtain ⟨d, -, names⟩ := Outcome.exists_of_mem_left spoken member
    exact ⟨d.language, names⟩
  case distinct =>
    rw [languages]
    exact apart.distinct.map fun _ _ => Except.ok.inj
  case proper => exact proper_of_languages apart languages
  case others =>
    rintro before m after language rfl names other alone
    exact yields_of_ofMappings supported version
      (ofMappings_leaveOut retagged accepted names other alone)
  case own =>
    intro m member names
    have grounded := retagged_ground all
    refine yields_of_ofMappings supported ?_ ?_
    · have same : (template { ambient with language := requested } documents).version = v :=
        template_holds (P := fun r => r.version = v) retagged
          fun d first => version_of_readAll retagged all d (List.mem_of_head? first)
      exact (congrArg StyleRecord.version grounded).trans same
    · rw [grounded]
      exact ofMappings_own retagged proper accepted member names all
  case shared =>
    intro unspoken
    obtain ⟨d, chosen, counts⟩ := (select_eq_ok_iff apart).mp selects
    cases chosen with
    | own member language =>
      obtain ⟨m, listed, names⟩ := Outcome.exists_of_mem_right spoken member
      exact absurd (language ▸ names) (unspoken m listed)
    | shared _ first common =>
      refine ⟨d, ?_, counts⟩
      rw [common?_eq all, first]
      simp [Option.filter, common]

/-- Three documents: a common one, and one each for two languages. -/
def threeDocuments : List Mapping :=
  [[entry "ColumnLimit" (.int 100)],
    [entry languageKey (.str "Java"), entry "IndentWidth" (.int 3)],
    [entry languageKey (.str "Cpp"), entry "TabWidth" (.int 4)]]

theorem spells_threeDocuments : Spells
    "ColumnLimit: 100\n---\nLanguage: Java\nIndentWidth: 3\n---\nLanguage: Cpp\nTabWidth: 4\n"
    threeDocuments :=
  ⟨by decide, mappings_of_entries [[("ColumnLimit", "100")],
    [("Language", "Java"), ("IndentWidth", "3")], [("Language", "Cpp"), ("TabWidth", "4")]]
    (by decide) rfl rfl (by decide)⟩

private theorem accepts_threeDocuments :
    (ofMappings .java (.zeroed .v12 .java) threeDocuments).outcome.isOk = true := by
  decide +kernel

/-- Three documents, read for the second language. -/
theorem read_stacked_threeDocuments :
    let text :=
      "ColumnLimit: 100\n---\nLanguage: Java\nIndentWidth: 3\n---\nLanguage: Cpp\nTabWidth: 4\n"
    Spells text threeDocuments ∧
      ∃ c, (read .v12 text .java (.zeroed .v12 .java)).outcome = .ok c ∧
        Stacked .v12 .java (.zeroed .v12 .java) threeDocuments c := by
  intro text
  obtain ⟨c, accepted⟩ := Outcome.isOk_iff.mp accepts_threeDocuments
  have yields : Yields .v12 .java (.zeroed .v12 .java) threeDocuments c :=
    yields_of_ofMappings (by decide) rfl accepted
  have reads := yields.2 text spells_threeDocuments
  exact ⟨spells_threeDocuments, c, reads, read_stacked spells_threeDocuments reads⟩

end Configuration

end FormatStyle
