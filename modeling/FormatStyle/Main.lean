import FormatStyle.CommandLine

/-! # The program

The outermost layer: it collects the files that a command reads, runs the command, and writes the
files, the text and the log that come out of it.
-/

namespace FormatStyle.Program

/-- The summary of the commands. -/
def usage : String := "\n".intercalate [
  "Resolve, validate and migrate clang-format style configurations",
  "",
  "Usage: stylemigrate [-v] <COMMAND> [OPTIONS]",
  "",
  "Commands:",
  "  migrate     Migrate a configuration from one schema version to another",
  "  check       Parse and validate a configuration, printing its minimal form",
  "  resolve     Print a named style, in full or as a diff against another style",
  "  compatible  List the schema versions that accept a configuration",
  "  styles      List style names for a version or a range of versions",
  "  batch       Migrate every file listed in a manifest",
  "  help        Print this message"]

/-- The name and the version of the program. -/
def versionLine : String := "stylemigrate 0.1.0"

/-- What is said about words that are no command. -/
def complaint : UsageProblem → String
  | .helpAsked | .nothingGiven => usage
  | .versionAsked => versionLine
  | .commandMissing => "error: a subcommand is required"
  | .unknownCommand => "error: unrecognized subcommand"
  | .unknownArgument => "error: unexpected argument"
  | .valueMissing => "error: a value is required"
  | .valueNotTaken => "error: an option takes no value"
  | .conflict => "error: options cannot be used together"
  | .optionMissing => "error: a required option is missing"

/-- Put the file at a path into a tree, if there is one. -/
def collect (t : FileTree) (path : Path) : IO FileTree := do
  try
    let bytes ← IO.FS.readBinFile path.text
    return t.seed path bytes.toList
  catch _ => return t

/-- The files that a command reads. -/
def gather (w : Workspace) : Command → IO FileTree
  | .migrate _ _ input _ _ _ | .check _ input _ | .compatible input => collect w.tree ⟨input.path⟩
  | .resolve .. | .styles .. => return w.tree
  | .batch manifest _ => do
    let tree ← collect w.tree (w.directory.join ⟨manifest⟩)
    match (Batch.load { w with tree } manifest).outcome with
    | .ok jobs => jobs.foldlM (fun t job => collect t job.input) tree
    | .error _ => return tree

/-- Write the files of a tree that another one does not hold as they are. -/
def save (before after : FileTree) (paths : List Path) : IO Unit :=
  for path in paths do
    match after.file? path with
    | some bytes =>
      if before.file? path != some bytes then
        if let some parent := path.parent? then
          unless parent.text.isEmpty do IO.FS.createDirAll parent.text
        IO.FS.writeBinFile path.text ⟨bytes.toArray⟩
    | none => pure ()

/-- The files that a command writes. -/
def written (w : Workspace) : Command → List Path
  | .migrate _ _ _ _ _ (some output) => [⟨output⟩]
  | .batch manifest false =>
    match (Batch.load w manifest).outcome with
    | .ok jobs => jobs.map (·.output)
    | .error _ => []
  | _ => []

/-- The text of standard input, where a command reads it. -/
def standardInput : Command → IO String
  | .migrate _ _ input _ _ _ | .check _ input _ | .compatible input => do
    if input.path != Command.standardInputPath then return ""
    let stream ← IO.getStdin
    let mut bytes : List UInt8 := []
    let mut block ← stream.read 65536
    while !block.isEmpty do
      bytes := bytes ++ block.toList
      block ← stream.read 65536
    match Text.decode bytes with
    | .ok text => return text
    | .error e => throw (IO.userError e.message)
  | _ => return ""

/-- Run a command in the directory the program is started in. -/
def execute (i : CommandLine.Invocation) : IO UInt32 := do
  let directory : Path := ⟨(← IO.currentDir).toString⟩
  let tree := FileTree.empty.makeDirectories directory
  let w : Workspace := ⟨tree, directory, ← standardInput i.command⟩
  let w := { w with tree := ← gather w i.command }
  let done := i.command.run w
  for event in done.trace.events do
    if i.verbose || event.severity != .debug then
      IO.eprintln s!"{event.severity.word} {event.text}"
  save w.tree done.tree (written w i.command)
  match done.trace.outcome with
  | .ok text =>
    IO.print text
    return 0
  | .error f =>
    IO.eprintln ("ERROR " ++ ": ".intercalate f.chain)
    return f.cause.exitCode.toUInt32

end FormatStyle.Program

/-- **The program**: read the command line and run the command. -/
def main (words : List String) : IO UInt32 :=
  match FormatStyle.CommandLine.parse words with
  | .ok invocation => FormatStyle.Program.execute invocation
  | .error problem => do
    if problem.exitCode = 0 then IO.println (FormatStyle.Program.complaint problem)
    else IO.eprintln (FormatStyle.Program.complaint problem)
    return problem.exitCode.toUInt32
