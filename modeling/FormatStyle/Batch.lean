import FormatStyle.FileTree
import FormatStyle.Manifest

/-! # Batches

A batch carries out the jobs of a manifest one after the other on a tree of files, and stops at
the first that fails. What the earlier jobs have written stays. A dry run only says what would be
done.
-/

namespace FormatStyle

/-- **What a command finds**: the files, the directory it is started in, and its standard
input. -/
structure Workspace where
  tree : FileTree
  directory : Path
  standardInput : String
  deriving DecidableEq, Repr

/-- **A run on a tree of files**: the tree that it leaves, also where it fails, and what came out
of it. -/
structure Run (α : Type) where
  tree : FileTree
  trace : Traced Failure α

/-- Say what was being done when an error arose. -/
def Traced.within {α : Type} (context : String) (x : Traced StyleError α) : Traced Failure α :=
  x.mapError fun e => (Failure.ofError e).within context

/-- Let an error stand for itself. -/
def Traced.alone {α : Type} (x : Traced StyleError α) : Traced Failure α :=
  x.mapError Failure.ofError

/-- Record events of one severity. -/
def Traced.logAll {ε : Type} (severity : Severity) (texts : List String) : Traced ε Unit :=
  texts.forM (Traced.log severity)

/-- **Carry out one job**: read the input, migrate it and write the output. -/
def Job.run (job : Job) (t : FileTree) : Traced StyleError (FileTree × Migration) := do
  let text ← (t.readText job.input).mapError fun e =>
    StyleError.filesystem (.failedAt job.input.text e)
  let migration ← Migration.migrate text job.options
  Traced.logAll .warn (migration.losses.map fun loss => job.input.text ++ ": " ++ loss.message)
  let written ← t.writeOutput job.output migration.text
  return (written, migration)

namespace Batch

/-- **The result of a batch**: how many files it has written, and how many losses it has
reported. -/
structure Summary where
  filesWritten : Nat
  losses : Nat
  deriving DecidableEq, Repr

namespace Summary

def empty : Summary := ⟨0, 0⟩

/-- Count one more migration. -/
def add (s : Summary) (migration : Migration) : Summary :=
  ⟨s.filesWritten + 1, s.losses + migration.losses.length⟩

end Summary

/-- The line about a finished job. -/
def finished (job : Job) (migration : Migration) : String :=
  s!"  ✓ {job.input.text} → {job.output.text} " ++
    s!"({job.options.source.text} → {job.options.target.text}, {migration.style})"

/-- Start the job of a number. -/
def startJob (number : Nat) (job : Job) (t : FileTree) :
    Traced Failure (FileTree × Migration) := do
  Traced.log .info s!"=> Migration #{number}"
  (job.run t).within ("Failed to migrate " ++ job.input.text)

/-- **Carry out jobs in order**, the first one with the given number. -/
def runJobs (number : Nat) (sum : Summary) (t : FileTree) : List Job → Run Summary
  | [] => ⟨t, pure sum⟩
  | job :: rest =>
    let started := startJob number job t
    match started.outcome with
    | .error e => ⟨t, ⟨started.events, .error e⟩⟩
    | .ok (written, migration) =>
      let later := runJobs (number + 1) (sum.add migration) written rest
      ⟨later.tree, do
        let _ ← started
        Traced.log .info (finished job migration)
        later.trace⟩

/-- **Carry out a batch.** -/
def run (jobs : List Job) (t : FileTree) : Run Summary :=
  let all := runJobs 1 .empty t jobs
  ⟨all.tree, do
    Traced.log .info "Starting batch migration..."
    let sum ← all.trace
    Traced.logAll .info ["✓ Completed batch migration successfully",
      s!"  Files written: {sum.filesWritten}", s!"  Warnings: {sum.losses}"]
    return sum⟩

/-- The lines about a job that would be carried out. -/
def planned (number : Nat) (job : Job) : List String :=
  let options := job.options
  [s!"  [{number}] {job.input.text} → {job.output.text}",
    s!"      - Versions: {options.source.text} → {options.target.text}",
    s!"      - Language: {options.language.text}",
    s!"      - Fallback style: {options.fallbackStyle}"] ++
  if options.skipSame then [] else ["      - Would write every option"]

/-- **Say what a batch would do.** -/
def preview (jobs : List Job) : Traced Failure Summary := do
  let lines := (jobs.zipIdx.map fun (job, index) => planned (index + 1) job).flatten
  Traced.logAll .info <|
    ["Dry run preview - no files will be modified:", "", "Planned migrations:"] ++ lines ++
      ["", "Run without --dry-run to execute these migrations."]
  return .empty

/-- Read the manifest at a path. -/
def loadManifest (t : FileTree) (path : Path) : Traced Failure Manifest :=
  if t.isFile path then do
    let read : Except StyleError String :=
      (t.readText path).mapError fun e => .filesystem (.failed e)
    let text ← Traced.within ("Failed to read manifest file: " ++ path.text) (.ofExcept read)
    Traced.within ("Invalid manifest file: " ++ path.text) (.ofExcept (Manifest.read text))
  else
    Traced.alone (.fail (.configuration (.manifestMissing path.text)))

/-- **The jobs of the manifest at a path.** A relative path is taken from the directory the
command is started in, and the paths in the manifest from the directory of the manifest. -/
def load (w : Workspace) (manifest : String) : Traced Failure (List Job) := do
  let path := w.directory.join ⟨manifest⟩
  let m ← loadManifest w.tree path
  let base := path.parent?.getD ⟨""⟩
  let jobs ← Traced.alone (.ofExcept (m.jobs base))
  Traced.log .debug s!"Loaded {jobs.length} job(s) from {path.text}"
  return jobs

/-- **Load a manifest and carry out its jobs**, or only say what they would do. -/
def execute (w : Workspace) (manifest : String) (dryRun : Bool) : Run Summary :=
  let loaded := load w manifest
  match loaded.outcome with
  | .error e => ⟨w.tree, ⟨loaded.events, .error e⟩⟩
  | .ok jobs =>
    if dryRun then ⟨w.tree, loaded >>= fun _ => preview jobs⟩
    else
      let done := run jobs w.tree
      ⟨done.tree, loaded >>= fun _ => done.trace⟩

end Batch

end FormatStyle
