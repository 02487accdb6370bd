import FormatStyle.Batch
import FormatStyle.Proofs.Outcome
import Mathlib.Algebra.Ring.Nat

/-! # Batches, job by job

A job is done or fails (`Job.run_cases`). A job that is done changes no file but its output, and a
job that fails changes nothing. So a batch is its jobs one after the other, each on the tree that
the ones before it have left, up to the first that fails (`Batch.execute_in_order`).
-/

namespace FormatStyle

namespace Traced

variable {ε α : Type} {x : Traced StyleError α} {a : α}

/-- Naming what was being done changes no success. -/
theorem outcome_within_eq_ok_iff {context : String} :
    (x.within context).outcome = .ok a ↔ x.outcome = .ok a := by
  unfold within
  rw [outcome_mapError, Outcome.mapError_eq_ok_iff]

theorem outcome_alone_eq_ok_iff : x.alone.outcome = .ok a ↔ x.outcome = .ok a := by
  unfold alone
  rw [outcome_mapError, Outcome.mapError_eq_ok_iff]

@[simp] theorem outcome_logAll (severity : Severity) (texts : List String) :
    (logAll severity texts : Traced ε Unit).outcome = .ok () := by
  unfold logAll
  rw [outcome_forM]
  induction texts with
  | nil => rfl
  | cons text texts ih => exact ih

end Traced

/-! ## Writing results -/

namespace FileTree

variable {t after : FileTree} {path other : Path} {text : String} {e : StyleError}

/-- A directory that is made is there. -/
private theorem isDirectory_makeDirectories (named : path.text.isEmpty = false) :
    (t.makeDirectories path).isDirectory path = true := by
  have first : path.components ∈
      (path.ancestors.takeWhile (!·.text.isEmpty)).map Path.components := by
    rw [Path.ancestors, List.takeWhile_cons_of_pos (by simp [named])]
    exact List.mem_map_of_mem List.mem_cons_self
  unfold isDirectory makeDirectories
  rw [List.contains_iff_mem, List.mem_append, List.mem_filter]
  by_cases known : path.components ∈ t.directories
  · exact .inr known
  · exact .inl ⟨first, by simpa using known⟩

/-- The tree in which a result is written: the directory above it is there, or something else is in
its place. -/
theorem writeOutput_eq (t : FileTree) (path : Path) (text : String) :
    ∃ prepared : FileTree, prepared.files = t.files ∧
    t.writeOutput path text = (prepared.write path (Text.encode text)).mapError
      (fun e => .filesystem (.failedAt path.text e)) ∧
    (prepared = t ∨
      ∃ parent, path.parent? = some parent ∧ prepared = t.makeDirectories parent) := by
  unfold writeOutput
  cases above : path.parent? with
  | none => exact ⟨t, rfl, rfl, .inl rfl⟩
  | some parent =>
    dsimp only
    by_cases there : parent.components.isEmpty || t.contains parent
    · exact ⟨t, rfl, by rw [if_pos there], .inl rfl⟩
    · exact ⟨t.makeDirectories parent, rfl, by rw [if_neg there], .inr ⟨parent, rfl, rfl⟩⟩

/-- **A result that is written** is what its path then holds, and every other file stays as it
was. -/
theorem file?_writeOutput (written : t.writeOutput path text = .ok after) :
    after.file? path = some (Text.encode text) ∧
      ∀ other : Path, other.components ≠ path.components →
        after.file? other = t.file? other := by
  obtain ⟨prepared, files, output, -⟩ := writeOutput_eq t path text
  rw [output, Outcome.mapError_eq_ok_iff] at written
  refine ⟨file?_write written, fun other apart => ?_⟩
  rw [file?_write_of_ne written apart, file?, file?, files]

/-- **Where a result cannot be written, no directory was made for it**: the tree as it is does not
take it. -/
theorem writeOutput_eq_error (failed : t.writeOutput path text = .error e) :
    ∃ error, t.write path (Text.encode text) = .error error ∧
      e = .filesystem (.failedAt path.text error) := by
  obtain ⟨prepared, -, output, unprepared⟩ := writeOutput_eq t path text
  rw [output] at failed
  rcases unprepared with rfl | ⟨parent, above, rfl⟩
  · cases write : prepared.write path (Text.encode text) with
    | error error =>
      rw [write] at failed
      exact ⟨error, rfl, (Except.error.inj failed).symm⟩
    | ok next => rw [write] at failed; cases failed
  · -- In a directory that has just been made every result can be written.
    have takes : (t.makeDirectories parent).write path (Text.encode text) =
        .ok ((t.makeDirectories parent).put path (Text.encode text)) := by
      unfold write
      rw [above]
      dsimp only
      by_cases named : parent.text.isEmpty
      · rw [if_pos (by simp [named])]
      · rw [if_pos (by simp [isDirectory_makeDirectories (Bool.eq_false_iff.mpr named)])]
    rw [takes] at failed
    cases failed

end FileTree

/-! ## One job -/

namespace Job

variable {job : Job} {t before after : FileTree} {m : Migration}

/-- **A job is done**: the text of its input is migrated, and what comes out is written to its
output, which is the only file that changes. -/
structure Done (job : Job) (before : FileTree) (m : Migration) (after : FileTree) : Prop where
  migrated : ∃ text, before.readText job.input = .ok text ∧
    (Migration.migrate text job.options).outcome = .ok m
  written : before.writeOutput job.output m.text = .ok after
  held : after.file? job.output = some (Text.encode m.text)
  others : ∀ path : Path, path.components ≠ job.output.components →
    after.file? path = before.file? path

/-- **A job fails** on a tree: its input is no text, the text is not migrated, or the tree does not
take the output. -/
inductive Fails (job : Job) (t : FileTree) : StyleError → Prop
  | unread {e : FileError} (unread : t.readText job.input = .error e) :
    Fails job t (.filesystem (.failedAt job.input.text e))
  | unmigrated {text : String} {e : StyleError} (read : t.readText job.input = .ok text)
    (unmigrated : (Migration.migrate text job.options).outcome = .error e) : Fails job t e
  | unwritten {text : String} {m : Migration} {e : FileError}
    (read : t.readText job.input = .ok text)
    (migrated : (Migration.migrate text job.options).outcome = .ok m)
    (unwritten : t.write job.output (Text.encode m.text) = .error e) :
    Fails job t (.filesystem (.failedAt job.output.text e))

/-- **A job is done or fails.** -/
theorem run_cases (job : Job) (t : FileTree) :
    (∃ m after, (job.run t).outcome = .ok (after, m) ∧ job.Done t m after) ∨
      ∃ e, (job.run t).outcome = .error e ∧ job.Fails t e := by
  unfold run
  simp only [Traced.outcome_bind, Traced.outcome_monadLift, Traced.outcome_logAll,
    Traced.outcome_pure]
  cases read : t.readText job.input with
  | error e => exact .inr ⟨_, rfl, .unread read⟩
  | ok text =>
    cases migrated : (Migration.migrate text job.options).outcome with
    | error e => exact .inr ⟨e, by simp [Except.mapError, migrated], .unmigrated read migrated⟩
    | ok m =>
      cases written : t.writeOutput job.output m.text with
      | error e =>
        obtain ⟨error, unwritten, rfl⟩ := FileTree.writeOutput_eq_error written
        exact .inr ⟨_, by simp [Except.mapError, migrated, written],
          .unwritten read migrated unwritten⟩
      | ok after =>
        obtain ⟨held, others⟩ := FileTree.file?_writeOutput written
        exact .inl ⟨m, after, by simp [Except.mapError, migrated, written],
          ⟨text, read, migrated⟩, written, held, others⟩

end Job

/-! ## All jobs -/

namespace Batch

variable {jobs done earlier later rest : List Job} {job : Job} {ms : List Migration}
  {t last : FileTree} {number : Nat} {sum : Summary}

/-- **Jobs that are done one after the other**, each on the tree that the one before it has left,
with what they have migrated. -/
inductive Completes : FileTree → List Job → List Migration → FileTree → Prop
  | nil (t : FileTree) : Completes t [] [] t
  | cons {t next last : FileTree} {job : Job} {m : Migration} {jobs : List Job}
    {ms : List Migration} (first : job.Done t m next) (others : Completes next jobs ms last) :
    Completes t (job :: jobs) (m :: ms) last

namespace Completes

theorem length (completes : Completes t jobs ms last) : ms.length = jobs.length := by
  induction completes with
  | nil => rfl
  | cons _ _ ih => rw [List.length_cons, List.length_cons, ih]

/-- **A file that is no output stays as it was.** -/
theorem frame {path : Path} (completes : Completes t jobs ms last)
    (apart : ∀ job ∈ jobs, path.components ≠ job.output.components) :
    last.file? path = t.file? path := by
  induction completes with
  | nil => rfl
  | cons first _ ih =>
    rw [List.forall_mem_cons] at apart
    rw [ih apart.2, first.others path apart.1]

/-- **An output stays written** until a later job has the same output. -/
theorem held (completes : Completes t (earlier ++ job :: later) ms last)
    (kept : ∀ other ∈ later, job.output.components ≠ other.output.components) :
    ∃ m, ms[earlier.length]? = some m ∧ last.file? job.output = some (Text.encode m.text) := by
  induction earlier generalizing t ms with
  | nil =>
    cases completes with
    | @cons _ _ _ _ m _ _ first others =>
      refine ⟨m, rfl, ?_⟩
      rw [others.frame kept, first.held]
  | cons job earlier ih =>
    cases completes with
    | cons first others => exact ih others

end Completes

/-- What is summed up of several migrations. -/
private theorem foldl_add : ms.foldl Summary.add sum =
    ⟨sum.filesWritten + ms.length, sum.losses + (ms.map (·.losses.length)).sum⟩ := by
  induction ms generalizing sum with
  | nil => rfl
  | cons m ms ih =>
    rw [List.foldl_cons, ih, List.length_cons, List.map_cons, List.sum_cons]
    simp only [Summary.add, Summary.mk.injEq]
    omega

/-- The outcome of a job in a batch names its input where it fails. -/
theorem outcome_startJob (number : Nat) (job : Job) (t : FileTree) :
    (startJob number job t).outcome =
    (job.run t).outcome.mapError fun e =>
      (Failure.ofError e).within ("Failed to migrate " ++ job.input.text) := by
  unfold startJob Traced.within
  rw [Traced.outcome_bind, Traced.outcome_log, Outcome.ok_bind, Traced.outcome_mapError]

/-- A job that is done leaves the rest of the batch to the other jobs. -/
private theorem runJobs_of_ok {written : FileTree} {m : Migration}
    (ran : (job.run t).outcome = .ok (written, m)) :
    (runJobs number sum t (job :: jobs)).tree =
        (runJobs (number + 1) (sum.add m) written jobs).tree ∧
      (runJobs number sum t (job :: jobs)).trace.outcome =
        (runJobs (number + 1) (sum.add m) written jobs).trace.outcome := by
  have started : (startJob number job t).outcome = .ok (written, m) := by
    rw [outcome_startJob, ran, Except.mapError]
  conv => enter [1, 1]; unfold runJobs
  conv => enter [2, 1]; unfold runJobs
  dsimp only
  rw [started]
  refine ⟨rfl, ?_⟩
  dsimp only
  rw [Traced.outcome_bind, started, Outcome.ok_bind, Traced.outcome_bind, Traced.outcome_log,
    Outcome.ok_bind]

/-- A job that fails ends the batch where it is. -/
private theorem runJobs_of_error {e : StyleError} (ran : (job.run t).outcome = .error e) :
    (runJobs number sum t (job :: jobs)).tree = t ∧
      (runJobs number sum t (job :: jobs)).trace.outcome =
        .error ((Failure.ofError e).within ("Failed to migrate " ++ job.input.text)) := by
  have started := outcome_startJob number job t
  rw [ran] at started
  unfold runJobs
  dsimp only
  rw [started]
  exact ⟨rfl, rfl⟩

/-- **The jobs of a batch are done up to the first that fails.** By induction on the jobs, with any
number and any sum to start from. -/
theorem runJobs_completes (number : Nat) (sum : Summary) (t : FileTree) (jobs : List Job) :
    ∃ done rest ms, jobs = done ++ rest ∧
      Completes t done ms (runJobs number sum t jobs).tree ∧
      match rest with
      | [] => (runJobs number sum t jobs).trace.outcome = .ok (ms.foldl Summary.add sum)
      | job :: _ => ∃ e, job.Fails (runJobs number sum t jobs).tree e ∧
        (runJobs number sum t jobs).trace.outcome =
          .error ((Failure.ofError e).within ("Failed to migrate " ++ job.input.text)) := by
  induction jobs generalizing number sum t with
  | nil => exact ⟨[], [], [], rfl, .nil t, rfl⟩
  | cons job jobs ih =>
    rcases job.run_cases t with ⟨m, next, ran, finishes⟩ | ⟨e, ran, fails⟩
    · obtain ⟨done, rest, ms, split, completes, ends⟩ := ih (number + 1) (sum.add m) next
      obtain ⟨tree, outcome⟩ := runJobs_of_ok ran
      rw [tree, outcome]
      exact ⟨job :: done, rest, m :: ms, by rw [split, List.cons_append],
        .cons finishes completes, ends⟩
    · obtain ⟨tree, outcome⟩ := runJobs_of_error ran
      rw [tree, outcome]
      exact ⟨[], job :: jobs, [], rfl, .nil t, e, fails, rfl⟩

/-- What a batch says at its end changes nothing of what its jobs come to. -/
theorem run_eq (jobs : List Job) (t : FileTree) :
    (run jobs t).tree = (runJobs 1 .empty t jobs).tree ∧
      (run jobs t).trace.outcome = (runJobs 1 .empty t jobs).trace.outcome := by
  refine ⟨rfl, ?_⟩
  unfold run
  simp only [Traced.outcome_bind, Traced.outcome_log, Outcome.ok_bind, Traced.outcome_logAll,
    Traced.outcome_pure]
  cases (runJobs 1 .empty t jobs).trace.outcome <;> rfl

theorem outcome_preview (jobs : List Job) : (preview jobs).outcome = .ok .empty := by
  unfold preview
  simp only [Traced.outcome_bind, Traced.outcome_logAll, Outcome.ok_bind, Traced.outcome_pure]

/-- A dry run changes nothing. -/
theorem execute_dry {w : Workspace} {manifest : String}
    (loaded : (load w manifest).outcome = .ok jobs) :
    (execute w manifest true).tree = w.tree ∧
      (execute w manifest true).trace.outcome = .ok .empty := by
  unfold execute
  dsimp only
  rw [loaded]
  refine ⟨rfl, ?_⟩
  dsimp only
  rw [if_pos rfl, Traced.outcome_bind, loaded, Outcome.ok_bind, outcome_preview]

/-- The jobs of a manifest that is loaded are carried out. -/
theorem execute_loaded {w : Workspace} {manifest : String}
    (loaded : (load w manifest).outcome = .ok jobs) :
    (execute w manifest false).tree = (runJobs 1 .empty w.tree jobs).tree ∧
      (execute w manifest false).trace.outcome =
        (runJobs 1 .empty w.tree jobs).trace.outcome := by
  obtain ⟨tree, outcome⟩ := run_eq jobs w.tree
  rw [← tree, ← outcome]
  unfold execute
  dsimp only
  rw [loaded]
  refine ⟨rfl, ?_⟩
  dsimp only
  rw [if_neg Bool.false_ne_true, Traced.outcome_bind, loaded, Outcome.ok_bind]

/-- **A batch is its jobs, one after the other.** A manifest that is not loaded changes nothing, and
a dry run changes nothing. Otherwise the jobs are done in order, each on the tree that the earlier
ones have left, up to the first that fails, which changes nothing itself. No file changes but the
outputs of the jobs that are done, and these stay written. If all are done, the batch counts them
and what they have lost; else its error is that of the job that failed. -/
theorem execute_in_order (w : Workspace) (manifest : String) :
    match (load w manifest).outcome with
    | .error e => ∀ dryRun, (execute w manifest dryRun).tree = w.tree ∧
        (execute w manifest dryRun).trace.outcome = .error e
    | .ok jobs =>
      ((execute w manifest true).tree = w.tree ∧
        (execute w manifest true).trace.outcome = .ok .empty) ∧
      ∃ done rest ms, jobs = done ++ rest ∧
        Completes w.tree done ms (execute w manifest false).tree ∧
        (∀ path : Path, (∀ job ∈ done, path.components ≠ job.output.components) →
          (execute w manifest false).tree.file? path = w.tree.file? path) ∧
        (∀ earlier job later, done = earlier ++ job :: later →
          (∀ other ∈ later, job.output.components ≠ other.output.components) →
            ∃ m, ms[earlier.length]? = some m ∧
              (execute w manifest false).tree.file? job.output = some (Text.encode m.text)) ∧
        match rest with
        | [] => (execute w manifest false).trace.outcome =
            .ok ⟨jobs.length, (ms.map (·.losses.length)).sum⟩
        | job :: _ => ∃ e, job.Fails (execute w manifest false).tree e ∧
            (execute w manifest false).trace.outcome =
              .error ((Failure.ofError e).within ("Failed to migrate " ++ job.input.text)) := by
  cases loaded : (load w manifest).outcome with
  | error e =>
    intro dryRun
    unfold execute
    dsimp only
    rw [loaded]
    exact ⟨rfl, rfl⟩
  | ok jobs =>
    obtain ⟨tree, outcome⟩ := execute_loaded loaded
    obtain ⟨done, rest, ms, split, completes, ends⟩ := runJobs_completes 1 .empty w.tree jobs
    rw [← tree] at completes
    refine ⟨execute_dry loaded, done, rest, ms, split, completes, fun path => completes.frame,
      ?_, ?_⟩
    · rintro earlier job later rfl
      exact completes.held
    · rw [tree, outcome]
      cases rest with
      | nil =>
        dsimp only at ends ⊢
        rw [ends, foldl_add, completes.length, split, List.append_nil]
        simp [Summary.empty]
      | cons job later => exact ends

end Batch

end FormatStyle
