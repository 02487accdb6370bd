import FormatStyle.Manifest
import FormatStyle.Proofs.Outcome
import FormatStyle.Proofs.Paths
import FormatStyle.Proofs.Streams

/-! # Accepted manifests

A manifest is accepted if each of its entries passes its own check and no two name one output in
the same words (`Manifest.check_eq_ok_iff`). Each entry of an accepted manifest has a job
(`Manifest.exists_jobs`). The words of outputs are compared and not the paths, so two jobs write
one file where two outputs are one path in different words (`Manifest.outputs_apart_iff`).
-/

namespace FormatStyle

namespace Manifest

variable {m : Manifest} {text : String} {defaults : Settings} {entry : FileEntry}
  {files : List FileEntry} {seen outputs : List String}

/-! ## What is checked -/

theorem checkNext_eq_ok_iff : checkNext defaults seen entry = .ok outputs ↔
    checkEntry defaults entry = .ok () ∧ entry.output ∉ seen ∧
      outputs = seen ++ [entry.output] := by
  unfold checkNext
  cases passes : checkEntry defaults entry with
  | error e => simp [Except.mapError]
  | ok u =>
    by_cases repeated : entry.output ∈ seen
    · simp [Except.mapError, repeated]
    · simp [Except.mapError, repeated, eq_comm]

/-- Entries are checked one after the other, each against the outputs before it. -/
theorem foldlM_checkNext_eq_ok_iff : files.foldlM (checkNext defaults) seen = .ok outputs ↔
    (∀ entry ∈ files, checkEntry defaults entry = .ok ()) ∧ (files.map (·.output)).Nodup ∧
      (∀ entry ∈ files, entry.output ∉ seen) ∧ outputs = seen ++ files.map (·.output) := by
  induction files generalizing seen with
  | nil => simp [eq_comm]
  | cons entry files ih =>
    rw [List.foldlM_cons, Outcome.bind_eq_ok_iff]
    simp only [checkNext_eq_ok_iff, List.forall_mem_cons, List.map_cons, List.nodup_cons,
      List.mem_map, not_exists, not_and]
    constructor
    · rintro ⟨next, ⟨passes, fresh, rfl⟩, rest⟩
      obtain ⟨others, distinct, apart, rfl⟩ := ih.mp rest
      refine ⟨⟨passes, others⟩, ⟨fun other member same => ?_, distinct⟩,
        ⟨fresh, fun other member => ?_⟩, by simp⟩
      · exact apart other member (List.mem_append_right _ (List.mem_singleton.mpr same))
      · exact fun repeated => apart other member (List.mem_append_left _ repeated)
    · rintro ⟨⟨passes, others⟩, ⟨first, distinct⟩, ⟨fresh, apart⟩, rfl⟩
      refine ⟨_, ⟨passes, fresh, rfl⟩, ih.mpr ⟨others, distinct, fun other member repeated => ?_,
        by simp⟩⟩
      rcases List.mem_append.mp repeated with repeated | repeated
      · exact apart other member repeated
      · exact first other member (List.mem_singleton.mp repeated)

/-- **A manifest passes its check** if each entry does, and no two have an output in the same
words. -/
theorem check_eq_ok_iff : m.check = .ok () ↔
    (∀ entry ∈ m.files, checkEntry m.defaults entry = .ok ()) ∧
      (m.files.map (·.output)).Nodup := by
  unfold check
  rw [Outcome.bind_eq_ok_iff]
  simp [foldlM_checkNext_eq_ok_iff]

/-- What is accepted has passed its check. -/
theorem check_of_read (accepted : read text = .ok m) : m.check = .ok () := by
  unfold read at accepted
  split at accepted
  · cases accepted
  · split at accepted
    · split at accepted
      · cases accepted
      · obtain ⟨⟨⟩, passes, same⟩ := Outcome.bind_eq_ok_iff.mp accepted
        exact Except.ok.inj same ▸ passes
    · cases accepted

/-- **A path that passes its check** stays below its directory: it is not blank, it is relative, and
the parent directory is none of its names. -/
theorem checkPath_eq_ok_iff {path : String} : checkPath path = .ok () ↔
    Text.isBlankText path = false ∧
      ['.', '.'] ∉ Text.splitAtSep (fun c => c == '/' || c == '\\') path.toList ∧
      (Path.mk path).isAbsolute = false := by
  have absolute : (Path.mk path).isAbsolute = decide (path.toList.head? = some '/') := by
    unfold Path.isAbsolute Path.isSlash
    cases path.toList.head? with
    | none => simp
    | some c => simp [Bool.beq_eq_decide_eq]
  unfold checkPath
  rw [absolute]
  by_cases blank : Text.isBlankText path = true
  · simp [blank]
  · by_cases climbs : ['.', '.'] ∈ Text.splitAtSep (fun c => c == '/' || c == '\\') path.toList
    · simp [blank, climbs]
    · by_cases rooted : path.toList.head? = some '/' <;> simp [blank, climbs, rooted]

/-- **An entry passes its check** if both of its paths do, and its settings ask for a migration that
can start. -/
theorem checkEntry_eq_ok_iff : checkEntry defaults entry = .ok () ↔
    checkPath entry.input = .ok () ∧ checkPath entry.output = .ok () ∧
      ∃ options, (entry.settings.withDefaults defaults).toOptions = .ok options ∧
        checkOptions options = .ok () := by
  unfold checkEntry
  simp only [Outcome.bind_eq_ok_iff]
  constructor
  · rintro ⟨⟨⟩, input, ⟨⟩, output, options, resolved, starts⟩
    exact ⟨input, output, options, resolved, starts⟩
  · rintro ⟨input, output, options, resolved, starts⟩
    exact ⟨(), input, (), output, options, resolved, starts⟩

/-! ## The jobs of an accepted manifest -/

/-- **Jobs are the jobs of the entries**, in the same order: each has the paths of its entry, taken
from the directory, and the options that the settings of its entry ask for. -/
theorem forall₂_jobs {base : Path} {jobs : List Job} (made : m.jobs base = .ok jobs) :
    List.Forall₂ (fun entry job => job.input = base.join ⟨entry.input⟩ ∧
      job.output = base.join ⟨entry.output⟩ ∧
      (entry.settings.withDefaults m.defaults).toOptions = .ok job.options) m.files jobs := by
  rw [← List.zipIdx_map_fst 0 m.files, List.forall₂_map_left_iff]
  refine (Outcome.forall₂_of_mapM made).imp fun indexed job made => ?_
  obtain ⟨options, resolved, same⟩ := Outcome.bind_eq_ok_iff.mp made
  obtain rfl := Except.ok.inj same
  exact ⟨rfl, rfl, Outcome.mapError_eq_ok_iff.mp resolved⟩

/-- **Each entry of a manifest that passes its check has a job**, in the same order, with the paths
of the entry taken from the directory. -/
theorem exists_jobs (passes : m.check = .ok ()) (base : Path) :
    ∃ jobs, m.jobs base = .ok jobs ∧ List.Forall₂ (fun entry job =>
      job.input = base.join ⟨entry.input⟩ ∧ job.output = base.join ⟨entry.output⟩)
      m.files jobs := by
  have succeeds : ∀ indexed ∈ m.files.zipIdx, ∃ job,
      m.job base indexed.1 indexed.2 = .ok job ∧ True := by
    intro indexed member
    obtain ⟨-, -, options, resolved, -⟩ := checkEntry_eq_ok_iff.mp
      ((check_eq_ok_iff.mp passes).1 indexed.1 (List.fst_mem_of_mem_zipIdx member))
    exact ⟨_, by rw [job, resolved]; rfl, trivial⟩
  obtain ⟨jobs, made, -⟩ := Outcome.mapM_isOk succeeds
  exact ⟨jobs, made, (forall₂_jobs made).imp fun _ _ job => ⟨job.1, job.2.1⟩⟩

/-- What entries have in pairs, their jobs have in pairs. -/
theorem pairwise_outputs_iff {R : Path → Path → Prop} {base : Path} {jobs : List Job}
    (made : jobs.map (·.output) = files.map fun entry => base.join ⟨entry.output⟩) :
    jobs.Pairwise (fun a b => R a.output b.output) ↔
      files.Pairwise fun a b => R (base.join ⟨a.output⟩) (base.join ⟨b.output⟩) := by
  rw [← List.pairwise_map (f := fun job : Job => job.output), made, List.pairwise_map]

/-- **When the outputs of an accepted manifest are different files**: each entry has a job that
writes its output, taken from the directory of the manifest. No two jobs write one file exactly if
no two outputs are the same path below that directory. Where no output has an idle piece, that is
so, because their words differ. -/
theorem outputs_apart_iff (accepted : read text = .ok m) (base : Path) :
    ∃ jobs, m.jobs base = .ok jobs ∧
      jobs.map (·.output) = m.files.map (fun entry => base.join ⟨entry.output⟩) ∧
      (jobs.Pairwise (fun a b => a.output.components ≠ b.output.components) ↔
        m.files.Pairwise fun a b => ¬ base.SameFrom ⟨a.output⟩ ⟨b.output⟩) ∧
      ((∀ entry ∈ m.files, (Path.mk entry.output).isPlain = true) →
        jobs.Pairwise fun a b => a.output.components ≠ b.output.components) := by
  have passes := check_of_read accepted
  obtain ⟨checked, distinct⟩ := check_eq_ok_iff.mp passes
  obtain ⟨jobs, made, related⟩ := exists_jobs passes base
  have outputs : jobs.map (·.output) = m.files.map fun entry => base.join ⟨entry.output⟩ := by
    rw [← List.forall₂_eq_eq_eq, List.forall₂_map_left_iff, List.forall₂_map_right_iff]
    exact related.flip.imp fun _ _ paths => paths.2
  have relative : ∀ entry ∈ m.files, (Path.mk entry.output).isAbsolute = false :=
    fun entry member =>
      (checkPath_eq_ok_iff.mp (checkEntry_eq_ok_iff.mp (checked entry member)).2.1).2.2
  have apart : jobs.Pairwise (fun a b => a.output.components ≠ b.output.components) ↔
      m.files.Pairwise fun a b => ¬ base.SameFrom ⟨a.output⟩ ⟨b.output⟩ := by
    rw [pairwise_outputs_iff (R := fun p q => p.components ≠ q.components) outputs]
    refine List.Pairwise.iff_of_mem fun member member' => ?_
    exact not_congr (Path.components_join_eq_iff base (relative _ member) (relative _ member'))
  refine ⟨jobs, made, outputs, apart, fun plain => apart.mpr ?_⟩
  refine (List.pairwise_map.mp distinct).imp_of_mem fun member member' differ same => differ ?_
  exact Path.mk.inj (Path.eq_of_below_of_isPlain (plain _ member) (plain _ member') same.1)

/-! ## One path in different words -/

/-- A manifest of two entries, whose outputs are one path in different words. -/
def dotted : Manifest :=
  ⟨⟨some "12", some "16", none, none, none⟩, [⟨"a", "out", .empty⟩, ⟨"b", "./out", .empty⟩]⟩

/-- The manifest as it is written. -/
def dottedText : String :=
  "from: 12\nto: 16\nfiles:\n- input: a\n  output: out\n- input: b\n  output: ./out\n"

/-- The tree of the text. -/
def dottedTree : Yaml.Tree :=
  .mapping none [
    (.scalar none "from" true, .scalar none "12" true),
    (.scalar none "to" true, .scalar none "16" true),
    (.scalar none "files" true, .sequence none [
      Yaml.plainTree [("input", "a"), ("output", "out")],
      Yaml.plainTree [("input", "b"), ("output", "./out")]])]

/-- The text is accepted. -/
theorem read_dotted : read dottedText = .ok dotted := by
  have stream := Yaml.ofText_of_tree (s := dottedText) (t := dottedTree) (by decide) rfl (by decide)
  have said : (Datum.ofTree? dottedTree).bind (fun data =>
      if (rule.violations [] data).isEmpty then ofDatum? data else none) = some dotted := by
    decide
  obtain ⟨data, understood, said⟩ := Option.bind_eq_some_iff.mp said
  have passes : dotted.check = .ok () := by
    obtain ⟨⟨⟩, passes⟩ := Outcome.isOk_iff.mp (show dotted.check.isOk = true by decide)
    exact passes
  split at said
  · rename_i shaped
    unfold read Datum.ofYaml?
    rw [stream]
    dsimp only
    rw [understood]
    dsimp only
    rw [List.isEmpty_iff.mp shaped]
    dsimp only
    rw [said]
    dsimp only
    rw [passes]
    rfl
  · cases said

/-- When the outputs of that manifest are different files. -/
theorem outputs_apart_iff_dotted :
    ∃ jobs, dotted.jobs ⟨"/repo"⟩ = .ok jobs ∧
      (jobs.Pairwise (fun a b => a.output.components ≠ b.output.components) ↔
        dotted.files.Pairwise fun a b => ¬ (Path.mk "/repo").SameFrom ⟨a.output⟩ ⟨b.output⟩) := by
  obtain ⟨jobs, made, -, apart, -⟩ := outputs_apart_iff read_dotted ⟨"/repo"⟩
  exact ⟨jobs, made, apart⟩

/-- **An accepted manifest whose jobs write one file twice**: its outputs are one path in different
words. -/
theorem jobs_write_one_file :
    ∃ m jobs, read dottedText = .ok m ∧ m.jobs ⟨"/repo"⟩ = .ok jobs ∧
      ¬ jobs.Pairwise fun a b => a.output.components ≠ b.output.components := by
  have computed : (dotted.jobs ⟨"/repo"⟩).toOption.map (·.map (·.output.components)) =
      some [[.root, .name "repo", .name "out"], [.root, .name "repo", .name "out"]] := by
    decide
  obtain ⟨jobs, made, paths⟩ := Option.map_eq_some_iff.mp computed
  refine ⟨dotted, jobs, read_dotted, Outcome.toOption_eq_some_iff.mp made, fun apart => ?_⟩
  have differ := List.pairwise_map (f := fun job : Job => job.output.components) (R := (· ≠ ·)).mpr
    apart
  rw [paths] at differ
  exact List.rel_of_pairwise_cons differ List.mem_cons_self rfl

end Manifest

end FormatStyle
