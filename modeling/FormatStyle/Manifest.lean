import FormatStyle.Datum.Rule
import FormatStyle.Path
import FormatStyle.Settings

/-! # Manifests

A manifest lists files to migrate, with settings for all of them and for each. It is read in
three steps: its text as plain data, the data against the rules of manifests, and what they say
against each other.
-/

namespace FormatStyle

/-- The name that a manifest goes by when nothing else is said. -/
def manifestName : String := "./stylemigrate.yaml"

/-- **One file to migrate**: where it is, where the result goes, and its own settings. -/
structure FileEntry where
  input : String
  output : String
  settings : Settings
  deriving DecidableEq, Repr

/-- **A manifest**: settings for all entries, and the entries in order. -/
structure Manifest where
  defaults : Settings
  files : List FileEntry
  deriving DecidableEq, Repr

/-- **A job**: an entry with its paths and its settings worked out. -/
structure Job where
  input : Path
  output : Path
  options : Migration.Options
  deriving DecidableEq, Repr

namespace Manifest

/-! ## The rules of manifests -/

/-- A text with at least one character. -/
def nameRule : Rule := .all [.minLength 1, .typed [.string]]

def versionRule : Rule := .typed [.number, .string]

/-- The keys of settings, without a rule of their own. -/
def settingsKeys : List (String × Rule) := Settings.keys.map fun key => (key, .all [])

/-- The rule of settings. -/
def settingsRule : Rule := .all [
  .properties [("fallbackStyle", nameRule), ("from", versionRule), ("language", nameRule),
    ("skipSame", .typed [.boolean]), ("to", versionRule)],
  .typed [.object]]

/-- The rule of an entry. -/
def entryRule : Rule := .all [
  .onlyProperties ([("input", nameRule), ("output", nameRule)] ++ settingsKeys),
  settingsRule,
  .required ["input", "output"],
  .typed [.object]]

/-- **The rule of a manifest.** -/
def rule : Rule := .all [
  .onlyProperties (("files", .all [.items entryRule, .minItems 1, .typed [.array]]) ::
    settingsKeys),
  settingsRule,
  .required ["files"],
  .typed [.object]]

/-! ## Reading -/

/-- The entry that data hold, if they hold one. -/
def entryOfDatum? : Datum → Option FileEntry
  | .object entries => do
    let input ← (← entries.lookup "input").text?
    let output ← (← entries.lookup "output").text?
    let settings ← (Settings.ofEntries entries).toOption
    return ⟨input, output, settings⟩
  | _ => none

/-- **The manifest that data hold**, if they hold one. -/
def ofDatum? : Datum → Option Manifest
  | .object entries => do
    let defaults ← (Settings.ofEntries entries).toOption
    match ← entries.lookup "files" with
    | .list files => return ⟨defaults, ← files.mapM entryOfDatum?⟩
    | _ => none
  | _ => none

/-! ## Checking -/

/-- **A path that stays below its directory**, whichever kind of slash it is written with. -/
def checkPath (path : String) : Except StyleError Unit :=
  if Text.isBlankText path then .error (.configuration .emptyPath)
  else if (Text.splitAtSep (fun c => c == '/' || c == '\\') path.toList).contains ['.', '.'] then
    .error (.configuration (.traversal path))
  else if path.toList.head? = some '/' then .error (.configuration (.absolutePath path))
  else .ok ()

/-- Check that a migration can start: both versions know the language, and the first one the
fallback style. -/
def checkOptions (options : Migration.Options) : Except StyleError Unit := do
  Migration.checkLanguage options.source options.language
  Migration.checkLanguage options.target options.language
  if options.source.schema.styleNames.contains (Text.lower options.fallbackStyle) then .ok ()
  else .error (.unknownStyle options.fallbackStyle options.source.text)

/-- Check an entry by itself. -/
def checkEntry (defaults : Settings) (entry : FileEntry) : Except StyleError Unit := do
  checkPath entry.input
  checkPath entry.output
  checkOptions (← (entry.settings.withDefaults defaults).toOptions)

/-- A problem of the entry at an index. -/
def entryError (index : Nat) (e : StyleError) : StyleError :=
  .configuration (.entry (index + 1) e.message)

/-- Check an entry by itself and against the outputs of those before it. -/
def checkNext (defaults : Settings) (outputs : List String) (entry : FileEntry) :
    Except StyleError (List String) := do
  (checkEntry defaults entry).mapError (entryError outputs.length)
  if outputs.contains entry.output then
    .error (.configuration (.repeatedOutput (outputs.length + 1) entry.output))
  else
    return outputs ++ [entry.output]

/-- **Check a manifest**, entry by entry. -/
def check (m : Manifest) : Except StyleError Unit := do
  let _ ← m.files.foldlM (checkNext m.defaults) []

/-- **Read a manifest** from its text. -/
def read (text : String) : Except StyleError Manifest :=
  match Datum.ofYaml? text with
  | none => .error (.configuration .manifestText)
  | some data =>
    match rule.violations [] data with
    | [] =>
      match ofDatum? data with
      | none => .error (.configuration .manifestContent)
      | some m => do
        m.check
        return m
    | violations => .error (.configuration (.manifestShape (violations.map (·.message))))

/-! ## Jobs -/

/-- The job of the entry at an index. -/
def job (m : Manifest) (base : Path) (entry : FileEntry) (index : Nat) :
    Except StyleError Job := do
  let options ← (entry.settings.withDefaults m.defaults).toOptions.mapError (entryError index)
  return ⟨base.join ⟨entry.input⟩, base.join ⟨entry.output⟩, options⟩

/-- **The jobs of a manifest**, with paths taken from a directory. -/
def jobs (m : Manifest) (base : Path) : Except StyleError (List Job) :=
  m.files.zipIdx.mapM fun (entry, index) => m.job base entry index

end Manifest

end FormatStyle
