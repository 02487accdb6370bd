import FormatStyle.Proofs.Batches
import FormatStyle.Proofs.Directories
import FormatStyle.Proofs.Manifests

/-! # Batches stay in their directory

A path that passes the check of manifests is relative and never climbs, so that taken from a
directory it stays there (`Manifest.follows_of_checkPath`). Where the inputs and outputs of jobs are
in a directory, nothing outside of it is changed but that directories above it are made
(`Batch.keepsOutside_run`), and nothing outside of it matters but whether something is there
(`Batch.alike_run`). Both hold of the jobs of an accepted manifest (`Manifest.run_confined`).
-/

namespace FormatStyle

namespace FileTree

variable {base path : Path} {t t' before between after : FileTree} {place : List Component}
  {text : String}

/-! ## Directories that are made -/

/-- Where directories are made: at a path and above it. -/
private theorem liesUnder_of_made {p directory : Path} (above : directory ∈ p.directoriesAbove)
    (made : place ∈ (directory.ancestors.takeWhile (!·.text.isEmpty)).map Path.components) :
    p.LiesUnder place := by
  obtain ⟨higher, taken, rfl⟩ := List.mem_map.mp made
  rcases List.mem_cons.mp ((List.takeWhile_sublist _).subset taken) with rfl | higher
  · exact ⟨_, above, rfl⟩
  · exact Path.LiesUnder.trans ⟨directory, above, rfl⟩ ⟨_, higher, rfl⟩

theorem mem_directories_makeDirectories :
    place ∈ (t.makeDirectories path).directories ↔ place ∈ t.directories ∨
      place ∈ (path.ancestors.takeWhile (!·.text.isEmpty)).map Path.components := by
  unfold makeDirectories
  rw [List.mem_append, List.mem_filter]
  by_cases known : place ∈ t.directories <;> simp [known]

/-! ## What is changed -/

/-- **Nothing is changed outside of a directory**: no file, and which directories there are, except
at or below the directory and above it. -/
structure KeepsOutside (base : Path) (before after : FileTree) : Prop where
  files : ∀ path : Path, ¬ base.Encloses path.components → after.file? path = before.file? path
  directories : ∀ place, ¬ base.Encloses place → ¬ base.LiesUnder place →
    (place ∈ after.directories ↔ place ∈ before.directories)

namespace KeepsOutside

theorem refl (base : Path) (t : FileTree) : KeepsOutside base t t :=
  ⟨fun _ _ => rfl, fun _ _ _ => Iff.rfl⟩

theorem trans (first : KeepsOutside base before between) (second : KeepsOutside base between after) :
    KeepsOutside base before after where
  files path outside := (second.files path outside).trans (first.files path outside)
  directories place outside apart :=
    (second.directories place outside apart).trans (first.directories place outside apart)

end KeepsOutside

/-- **Writing a result inside a directory** changes nothing outside of it. -/
theorem keepsOutside_writeOutput (inside : base.Encloses path.components)
    (written : t.writeOutput path text = .ok after) : KeepsOutside base t after := by
  refine ⟨fun other outside => ?_, fun place outside apart => ?_⟩
  · apply (file?_writeOutput written).2
    intro same
    exact outside (same ▸ inside)
  · obtain ⟨prepared, -, output, unprepared⟩ := writeOutput_eq t path text
    rw [output, Outcome.mapError_eq_ok_iff] at written
    rw [put_of_write written]
    change place ∈ prepared.directories ↔ _
    rcases unprepared with rfl | ⟨parent, above, rfl⟩
    · rfl
    · rw [mem_directories_makeDirectories]
      refine or_iff_left fun made => ?_
      have under := liesUnder_of_made (List.mem_of_mem_head? above) made
      exact (inside.above under).elim outside apart

/-! ## What is looked at -/

/-- **Trees that are alike in a directory**: they hold the same files at or below it, and they do
not differ in what there is there and above it. -/
structure AlikeIn (base : Path) (t t' : FileTree) : Prop where
  files : ∀ path : Path, base.Encloses path.components → t'.file? path = t.file? path
  above : ∀ path : Path, base.LiesUnder path.components → t'.isFile path = t.isFile path
  directories : ∀ place, base.Encloses place ∨ base.LiesUnder place →
    (place ∈ t'.directories ↔ place ∈ t.directories)

namespace AlikeIn

theorem isDirectory (alike : AlikeIn base t t')
    (near : base.Encloses path.components ∨ base.LiesUnder path.components) :
    t'.isDirectory path = t.isDirectory path := by
  unfold FileTree.isDirectory
  rw [Bool.eq_iff_iff, List.contains_iff_mem, List.contains_iff_mem]
  exact alike.directories _ near

theorem contains (alike : AlikeIn base t t')
    (near : base.Encloses path.components ∨ base.LiesUnder path.components) :
    t'.contains path = t.contains path := by
  unfold FileTree.contains
  rw [alike.isDirectory near]
  rcases near with inside | under
  · rw [isFile, isFile, alike.files path inside]
  · rw [alike.above path under]

theorem readText (alike : AlikeIn base t t') (inside : base.Encloses path.components) :
    t'.readText path = t.readText path := by
  unfold FileTree.readText
  rw [alike.files path inside]

theorem makeDirectories (alike : AlikeIn base t t') (path : Path) :
    AlikeIn base (t.makeDirectories path) (t'.makeDirectories path) where
  files := alike.files
  above := alike.above
  directories place near := by
    rw [mem_directories_makeDirectories, mem_directories_makeDirectories,
      alike.directories place near]

theorem put (alike : AlikeIn base t t') (path : Path) (bytes : List UInt8) :
    AlikeIn base (t.put path bytes) (t'.put path bytes) := by
  have held : ∀ (tree : FileTree) (other : Path),
      (tree.put path bytes).file? other =
        if other.components = path.components then some bytes else tree.file? other := by
    intro tree other
    split
    · rename_i same
      rw [← file?_put tree path bytes, file?, file?, same]
    · rename_i apart
      exact file?_put_of_ne tree bytes apart
  refine ⟨fun other inside => ?_, fun other under => ?_, alike.directories⟩
  · rw [held, held, alike.files other inside]
  · have there := alike.above other under
    unfold isFile at there ⊢
    rw [held, held]
    split
    · rfl
    · exact there

/-- The directory above a path inside is near enough to be alike. -/
theorem near_parent {parent : Path} (inside : base.Encloses path.components)
    (above : path.parent? = some parent) :
    base.Encloses parent.components ∨ base.LiesUnder parent.components :=
  inside.above ⟨parent, List.mem_of_mem_head? above, rfl⟩

/-- A file is written to alike trees with the same error, or so that they stay alike. -/
theorem write (alike : AlikeIn base t t') (inside : base.Encloses path.components)
    (bytes : List UInt8) :
    (∃ after after', t.write path bytes = .ok after ∧ t'.write path bytes = .ok after' ∧
      AlikeIn base after after') ∨
    ∃ e, t.write path bytes = .error e ∧ t'.write path bytes = .error e := by
  unfold FileTree.write
  cases above : path.parent? with
  | none => exact .inl ⟨_, _, rfl, rfl, alike.put path bytes⟩
  | some parent =>
    dsimp only
    rw [alike.isDirectory (near_parent inside above)]
    split
    · exact .inl ⟨_, _, rfl, rfl, alike.put path bytes⟩
    · exact .inr ⟨_, rfl, rfl⟩

/-- A result is written to alike trees with the same error, or so that they stay alike. -/
theorem writeOutput (alike : AlikeIn base t t') (inside : base.Encloses path.components)
    (text : String) :
    (∃ after after', t.writeOutput path text = .ok after ∧
      t'.writeOutput path text = .ok after' ∧ AlikeIn base after after') ∨
    ∃ e, t.writeOutput path text = .error e ∧ t'.writeOutput path text = .error e := by
  have prepared : ∃ ready ready', AlikeIn base ready ready' ∧
      t.writeOutput path text = (ready.write path (Text.encode text)).mapError
        (fun e => .filesystem (.failedAt path.text e)) ∧
      t'.writeOutput path text = (ready'.write path (Text.encode text)).mapError
        (fun e => .filesystem (.failedAt path.text e)) := by
    unfold FileTree.writeOutput
    cases above : path.parent? with
    | none => exact ⟨t, t', alike, rfl, rfl⟩
    | some parent =>
      dsimp only
      rw [alike.contains (near_parent inside above)]
      split
      · exact ⟨t, t', alike, rfl, rfl⟩
      · exact ⟨_, _, alike.makeDirectories parent, rfl, rfl⟩
  obtain ⟨ready, ready', alike, output, output'⟩ := prepared
  rw [output, output']
  rcases alike.write inside (Text.encode text) with
    ⟨after, after', written, written', alike⟩ | ⟨e, failed, failed'⟩
  · exact .inl ⟨after, after', by rw [written]; rfl, by rw [written']; rfl, alike⟩
  · exact .inr ⟨_, by rw [failed]; rfl, by rw [failed']; rfl⟩

end AlikeIn

end FileTree

/-! ## Jobs inside a directory -/

/-- **A job inside a directory** reads and writes there. -/
structure Job.Inside (base : Path) (job : Job) : Prop where
  input : base.Encloses job.input.components
  output : base.Encloses job.output.components

/-- **Computations that only differ in trees that are alike**: they record the same events, and they
fail with the same error or give the same migration. -/
structure Traced.Alike {ε : Type} (base : Path) (x x' : Traced ε (FileTree × Migration)) : Prop where
  events : x'.events = x.events
  outcome : (∃ m after after', x.outcome = .ok (after, m) ∧ x'.outcome = .ok (after', m) ∧
      FileTree.AlikeIn base after after') ∨
    ∃ e, x.outcome = .error e ∧ x'.outcome = .error e

namespace Traced.Alike

variable {ε δ α : Type} {base : Path} {x x' : Traced ε (FileTree × Migration)}

/-- What comes first is the same. -/
theorem after (first : Traced ε α) {f f' : α → Traced ε (FileTree × Migration)}
    (rest : ∀ a, Traced.Alike base (f a) (f' a)) :
    Traced.Alike base (first >>= f) (first >>= f') := by
  change Traced.Alike base (Traced.bind first f) (Traced.bind first f')
  unfold Traced.bind
  cases first.outcome with
  | ok a => exact ⟨congrArg (first.events ++ ·) (rest a).events, (rest a).outcome⟩
  | error e => exact ⟨rfl, .inr ⟨e, rfl, rfl⟩⟩

theorem mapError (alike : Traced.Alike base x x') (f : ε → δ) :
    Traced.Alike base (x.mapError f) (x'.mapError f) := by
  refine ⟨alike.events, ?_⟩
  rw [outcome_mapError, outcome_mapError]
  rcases alike.outcome with ⟨m, t, t', done, done', near⟩ | ⟨e, failed, failed'⟩
  · exact .inl ⟨m, t, t', by rw [done]; rfl, by rw [done']; rfl, near⟩
  · exact .inr ⟨f e, by rw [failed]; rfl, by rw [failed']; rfl⟩

/-- What does not look at the results goes on in the same way. -/
theorem andThen (alike : Traced.Alike base x x') (rest : Traced ε α) :
    (x' >>= fun _ => rest) = x >>= fun _ => rest := by
  change Traced.bind x' (fun _ => rest) = Traced.bind x fun _ => rest
  unfold Traced.bind
  rw [alike.events]
  rcases alike.outcome with ⟨m, t, t', done, done', -⟩ | ⟨e, failed, failed'⟩
  · rw [done, done']
  · rw [failed, failed']

end Traced.Alike

namespace Batch

variable {base : Path} {t t' last : FileTree} {job : Job} {jobs : List Job}

/-- **A job inside a directory only looks there.** -/
theorem alike_job (inside : job.Inside base) (alike : FileTree.AlikeIn base t t') :
    Traced.Alike base (job.run t) (job.run t') := by
  unfold Job.run
  rw [alike.readText inside.input]
  refine .after _ fun text => .after _ fun m => .after _ fun _ => ?_
  rcases alike.writeOutput inside.output m.text with
    ⟨after, after', written, written', near⟩ | ⟨e, failed, failed'⟩
  · rw [written, written']
    exact ⟨rfl, .inl ⟨m, after, after', rfl, rfl, near⟩⟩
  · rw [failed, failed']
    exact ⟨rfl, .inr ⟨e, rfl, rfl⟩⟩

private theorem alike_startJob (inside : job.Inside base) (alike : FileTree.AlikeIn base t t')
    (number : Nat) : Traced.Alike base (startJob number job t) (startJob number job t') :=
  .after _ fun _ => (alike_job inside alike).mapError _

/-- **Jobs inside a directory only look there.** By induction on the jobs, on trees that stay
alike. -/
theorem alike_runJobs (inside : ∀ job ∈ jobs, job.Inside base)
    (alike : FileTree.AlikeIn base t t') (number : Nat) (sum : Summary) :
    (runJobs number sum t' jobs).trace = (runJobs number sum t jobs).trace ∧
      FileTree.AlikeIn base (runJobs number sum t jobs).tree
        (runJobs number sum t' jobs).tree := by
  induction jobs generalizing t t' number sum with
  | nil => exact ⟨rfl, alike⟩
  | cons job jobs ih =>
    rw [List.forall_mem_cons] at inside
    have started := alike_startJob inside.1 alike number
    rcases started.outcome with ⟨m, next, next', done, done', near⟩ | ⟨e, failed, failed'⟩
    · obtain ⟨trace, tree⟩ := ih inside.2 near (number + 1) (sum.add m)
      simp only [runJobs, done, done']
      exact ⟨by rw [trace]; exact started.andThen _, tree⟩
    · simp only [runJobs, failed, failed']
      exact ⟨by rw [started.events], alike⟩

/-- **A batch inside a directory only looks there**: on trees that are alike there it says the same
and comes to the same, and they stay alike. -/
theorem alike_run (inside : ∀ job ∈ jobs, job.Inside base)
    (alike : FileTree.AlikeIn base t t') :
    (run jobs t').trace = (run jobs t).trace ∧
      FileTree.AlikeIn base (run jobs t).tree (run jobs t').tree := by
  obtain ⟨trace, tree⟩ := alike_runJobs inside alike 1 .empty
  refine ⟨?_, tree⟩
  unfold run
  dsimp only
  rw [trace]

/-- Jobs inside a directory that are done change nothing outside of it. -/
theorem Completes.keepsOutside {ms : List Migration} (completes : Completes t jobs ms last)
    (inside : ∀ job ∈ jobs, job.Inside base) : FileTree.KeepsOutside base t last := by
  induction completes with
  | nil t => exact .refl base t
  | cons first _ ih =>
    rw [List.forall_mem_cons] at inside
    exact (FileTree.keepsOutside_writeOutput inside.1.output first.written).trans (ih inside.2)

/-- **A batch inside a directory changes nothing outside of it**, whether all of its jobs are done or
one fails. -/
theorem keepsOutside_run (inside : ∀ job ∈ jobs, job.Inside base) (t : FileTree) :
    FileTree.KeepsOutside base t (run jobs t).tree := by
  obtain ⟨done, rest, ms, rfl, completes, -⟩ := runJobs_completes 1 .empty t jobs
  rw [(run_eq _ t).1]
  apply completes.keepsOutside
  exact fun job member => inside job (List.mem_append_left _ member)

end Batch

/-! ## Jobs of accepted manifests -/

/-- **A path follows a directory**: it is the directory and the components of another path, none of
which leaves the directory. -/
structure Path.Follows (base p q : Path) : Prop where
  joined : q = base.join p
  components : q.components = base.components ++ base.following p
  root : .root ∉ p.components
  parent : .parent ∉ p.components

theorem Path.Follows.encloses {base p q : Path} (follows : base.Follows p q) :
    base.Encloses q.components :=
  ⟨base.following p, follows.components, fun inside => follows.root (following_subset inside),
    fun inside => follows.parent (following_subset inside)⟩

namespace Manifest

variable {m : Manifest} {text path : String} {base : Path} {jobs : List Job}

/-- **A path that passes its check follows every directory** that it is taken from. It is looked for
parent directories between slashes of either kind, which are more pieces than the path has. -/
theorem follows_of_checkPath (passes : checkPath path = .ok ()) (base : Path) :
    base.Follows ⟨path⟩ (base.join ⟨path⟩) := by
  obtain ⟨-, climbs, relative⟩ := checkPath_eq_ok_iff.mp passes
  refine ⟨rfl, Path.components_join_following relative, fun root => ?_, fun parent => ?_⟩
  · exact Path.start_ne_root relative (Path.start_eq_root_iff.mpr root)
  · rw [Path.components_eq, List.mem_append] at parent
    rcases parent with first | member
    · cases starts : (Path.mk path).start <;> rw [starts] at first <;>
        simp [Path.Start.component?] at first
    · rw [Path.below_eq relative] at member
      obtain ⟨piece, between, stands⟩ := List.mem_filterMap.mp member
      obtain ⟨-, ⟨rfl, -⟩ | ⟨-, same⟩⟩ := Path.component?_eq_some_iff.mp stands
      · have plain : ∀ c ∈ ['.', '.'], (c == '/' || c == '\\') = false := by simp
        apply climbs
        refine Text.mem_splitAtSep_finer (fun c slash => ?_) between plain
        exact Bool.or_eq_true_iff.mpr (.inl slash)
      · cases same

/-- The jobs of an accepted manifest follow the directory that they are taken from. -/
theorem follows_of_accepted (accepted : read text = .ok m) (made : m.jobs base = .ok jobs) :
    List.Forall₂ (fun entry job => base.Follows ⟨entry.input⟩ job.input ∧
      base.Follows ⟨entry.output⟩ job.output) m.files jobs := by
  have checked := (check_eq_ok_iff.mp (check_of_read accepted)).1
  obtain ⟨same, related⟩ := List.forall₂_iff_zip.mp (forall₂_jobs made)
  refine List.forall₂_iff_zip.mpr ⟨same, fun {entry job} pair => ?_⟩
  obtain ⟨input, output, -⟩ := related pair
  obtain ⟨passes, passes', -⟩ := checkEntry_eq_ok_iff.mp (checked entry (List.of_mem_zip pair).1)
  rw [input, output]
  exact ⟨follows_of_checkPath passes base, follows_of_checkPath passes' base⟩

/-- The jobs of an accepted manifest are inside the directory that they are taken from. -/
theorem inside_of_accepted (accepted : read text = .ok m) (made : m.jobs base = .ok jobs) :
    ∀ job ∈ jobs, job.Inside base := by
  intro job member
  obtain ⟨entry, -, input, output⟩ :=
    Outcome.exists_of_mem_right (follows_of_accepted accepted made) member
  exact ⟨input.encloses, output.encloses⟩

/-- **The batch of an accepted manifest stays in its directory.** For every base directory: each job
has the paths of its entry, behind the directory, and none of their components leaves it. On every
tree of files the batch changes no file outside of the directory, and makes directories only at or
below it and above it. What it says and what it comes to depends on the files at or below the
directory, and otherwise only on what there is above it. -/
theorem run_confined (accepted : read text = .ok m) (base : Path) :
    ∃ jobs, m.jobs base = .ok jobs ∧
      List.Forall₂ (fun entry job => base.Follows ⟨entry.input⟩ job.input ∧
        base.Follows ⟨entry.output⟩ job.output) m.files jobs ∧
      (∀ job ∈ jobs, job.Inside base) ∧
      ∀ t, FileTree.KeepsOutside base t (Batch.run jobs t).tree ∧
        ∀ t', FileTree.AlikeIn base t t' →
          (Batch.run jobs t').trace = (Batch.run jobs t).trace ∧
            FileTree.AlikeIn base (Batch.run jobs t).tree (Batch.run jobs t').tree := by
  obtain ⟨jobs, made, -⟩ := exists_jobs (check_of_read accepted) base
  have inside := inside_of_accepted accepted made
  refine ⟨jobs, made, follows_of_accepted accepted made, inside, fun t => ⟨?_, fun t' alike => ?_⟩⟩
  · exact Batch.keepsOutside_run inside t
  · exact Batch.alike_run inside alike

/-- A manifest with a current directory in a path stays in the directory `/repo`. -/
theorem run_confined_dotted : read dottedText = .ok dotted ∧
    ∃ jobs, dotted.jobs ⟨"/repo"⟩ = .ok jobs ∧ jobs.length = 2 ∧
      ∀ t, FileTree.KeepsOutside ⟨"/repo"⟩ t (Batch.run jobs t).tree := by
  obtain ⟨jobs, made, related, -, stays⟩ := run_confined read_dotted ⟨"/repo"⟩
  exact ⟨read_dotted, jobs, made, related.length_eq.symm, fun t => (stays t).1⟩

end Manifest

namespace Batch

variable {w : Workspace} {manifest : String}

/-- The jobs that are loaded are those of an accepted manifest. -/
private theorem exists_accepted_of_load {jobs : List Job} (loaded : (load w manifest).outcome = .ok jobs) :
    ∃ text m, Manifest.read text = .ok m ∧
      m.jobs ((w.directory.join ⟨manifest⟩).parent?.getD ⟨""⟩) = .ok jobs := by
  unfold load loadManifest at loaded
  simp only [Traced.outcome_bind, Outcome.bind_eq_ok_iff, Traced.outcome_alone_eq_ok_iff,
    Traced.outcome_ofExcept, Traced.outcome_log, Traced.outcome_pure] at loaded
  obtain ⟨m, read, jobs', made, -, -, same⟩ := loaded
  cases same
  split at read
  · rw [Traced.outcome_bind, Outcome.bind_eq_ok_iff] at read
    obtain ⟨text, -, accepted⟩ := read
    exact ⟨text, m, Traced.outcome_within_eq_ok_iff.mp accepted, made⟩
  · cases Traced.outcome_alone_eq_ok_iff.mp read

/-- **A batch changes nothing outside of the directory of its manifest**, however it ends. -/
theorem keepsOutside_execute (w : Workspace) (manifest : String) (dryRun : Bool) :
    FileTree.KeepsOutside ((w.directory.join ⟨manifest⟩).parent?.getD ⟨""⟩) w.tree
      (execute w manifest dryRun).tree := by
  cases loaded : (load w manifest).outcome with
  | error e =>
    have same : (execute w manifest dryRun).tree = w.tree := by
      unfold execute
      dsimp only
      rw [loaded]
    rw [same]
    exact .refl _ _
  | ok jobs =>
    cases dryRun with
    | true =>
      rw [(execute_dry loaded).1]
      exact .refl _ _
    | false =>
      obtain ⟨text, m, accepted, made⟩ := exists_accepted_of_load loaded
      rw [(execute_loaded loaded).1, ← (run_eq jobs w.tree).1]
      exact keepsOutside_run (Manifest.inside_of_accepted accepted made) w.tree

end Batch

end FormatStyle
