import FormatStyle.Batch

/-! # Commands

What can be asked of the program. A command works on the files, the directory and the standard
input that it finds, and gives the text to print.
-/

namespace FormatStyle

/-- **Where configuration text comes from**, and the language that is asked for. -/
structure Input where
  path : String
  language : String
  deriving DecidableEq, Repr

/-- **Commands**, with versions and languages as they are written. -/
inductive Command where
  /-- Carry a configuration from one version to another. -/
  | migrate (source target : String) (input : Input) (fallbackStyle : String) (keepSame : Bool)
      (output : Option String)
  /-- Read a configuration and print its shortest form. -/
  | check (version : String) (input : Input) (fallbackStyle : String)
  /-- Print a named style. -/
  | resolve (version style language : String) (diffFrom : Option String)
  /-- List the versions that read a configuration. -/
  | compatible (input : Input)
  /-- List the names of styles. -/
  | styles (version first last : Option String)
  /-- Carry out the jobs of a manifest. -/
  | batch (manifest : String) (dryRun : Bool)
  deriving DecidableEq, Repr

namespace Command

/-- The path that stands for standard input. -/
def standardInputPath : String := "-"

/-- Each item on a line of its own. -/
def lines (items : List String) : String := String.join (items.map (· ++ "\n"))

/-- **The text of an input.** -/
def readInput (w : Workspace) (path : String) : Traced Failure String :=
  if path = standardInputPath then return w.standardInput
  else if w.tree.isFile ⟨path⟩ then
    let read : Except StyleError String :=
      (w.tree.readText ⟨path⟩).mapError fun e => .filesystem (.failed e)
    Traced.within ("Failed to read " ++ path) (.ofExcept read)
  else Traced.alone (.fail (.filesystem (.missingInput path)))

def readVersion (text : String) : Traced Failure Version :=
  Traced.alone (.ofExcept (Version.parse text))

def readLanguage (text : String) : Traced Failure Language :=
  Traced.alone (.ofExcept (Language.parse text))

/-- Migrate an input, and warn of each loss. -/
def migrateInput (w : Workspace) (source target : String) (input : Input)
    (fallbackStyle : String) (keepSame : Bool) : Traced Failure Migration := do
  let source ← readVersion source
  let target ← readVersion target
  let language ← readLanguage input.language
  let text ← readInput w input.path
  let migration ←
    (Migration.migrate text ⟨source, target, language, fallbackStyle, !keepSame⟩).within
      s!"Failed to migrate {input.path} from {source.text} to {target.text}"
  Traced.logAll .warn (migration.losses.map Loss.message)
  if migration.losses.isEmpty then Traced.log .debug "Migration lost nothing"
  return migration

/-- Migrate an input to a file, or to be printed. -/
def runMigrate (w : Workspace) (source target : String) (input : Input)
    (fallbackStyle : String) (keepSame : Bool) (output : Option String) : Run String :=
  let migrated := migrateInput w source target input fallbackStyle keepSame
  match output with
  | none => ⟨w.tree, (·.text) <$> migrated⟩
  | some path =>
    match migrated.outcome.bind fun m =>
        (w.tree.writeOutput ⟨path⟩ m.text).mapError Failure.ofError with
    | .error e => ⟨w.tree, ⟨migrated.events, .error e⟩⟩
    | .ok written => ⟨written, do
        let _ ← migrated
        Traced.log .info ("Wrote " ++ path)
        return ""⟩

/-- **The shortest form of an input** that is read under a version. -/
def checkText (w : Workspace) (version : String) (input : Input) (fallbackStyle : String) :
    Traced Failure String := do
  let version ← readVersion version
  let language ← readLanguage input.language
  let text ← readInput w input.path
  let fallback := Text.lower fallbackStyle
  let ambient ← (Style.resolve version fallback language).alone
  let configuration ← (Configuration.read version text language ambient).within
    s!"{input.path} is not a valid {version.text} configuration"
  let baseline ←
    if configuration.record.inheritsParent then pure ambient
    else
      let style := (configuration.basedOn.map Text.lower).getD fallback
      (Style.resolve version style language).alone
  (configuration.record.write (some baseline)).alone

/-- **The text of a style**, whole or next to another one. -/
def resolveText (version style language : String) (diffFrom : Option String) :
    Traced Failure String := do
  let version ← readVersion version
  let language ← readLanguage language
  let r ← (Style.resolve version style language).alone
  let baseline ← match diffFrom with
    | some name => some <$> (Style.resolve version name language).alone
    | none => pure none
  (r.write baseline).alone

/-- The versions that read an input, one on a line. -/
def compatibleText (w : Workspace) (input : Input) : Traced Failure String := do
  let language ← readLanguage input.language
  let text ← readInput w input.path
  let versions ← (Migration.compatibleVersions text language).alone
  if versions.isEmpty then
    Traced.log .warn ("No supported version accepts " ++ input.path)
  return lines (versions.map Version.text)

/-- **The style names** of a version, or of all versions of a range. -/
def styleNames (version first last : Option String) : Traced Failure (List String) :=
  match version, first, last with
  | some version, _, _ => do
    let version ← readVersion version
    return version.schema.styleNames
  | none, some first, some last => do
    let first ← readVersion first
    let last ← readVersion last
    return Style.commonNames first last
  | _, _, _ => Traced.alone (.fail (.configuration .versionOrRange))

/-- **Run a command.** What comes out is the text to print. -/
def run (w : Workspace) : Command → Run String
  | migrate source target input fallbackStyle keepSame output =>
    runMigrate w source target input fallbackStyle keepSame output
  | check version input fallbackStyle => ⟨w.tree, checkText w version input fallbackStyle⟩
  | resolve version style language diffFrom =>
    ⟨w.tree, resolveText version style language diffFrom⟩
  | compatible input => ⟨w.tree, compatibleText w input⟩
  | styles version first last => ⟨w.tree, lines <$> styleNames version first last⟩
  | batch manifest dryRun =>
    let done := Batch.execute w manifest dryRun
    ⟨done.tree, (fun _ => "") <$> done.trace⟩

end Command

end FormatStyle
