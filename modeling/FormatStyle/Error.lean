/-! # What can go wrong

Every failure of the library is one value of `StyleError`, a cause with what a reader of the
message needs. The wording stands in the `message` functions and nowhere else.
-/

namespace FormatStyle

/-- **Bytes that are not text**: where the first bad sequence starts, and how long it is when it
is bad rather than cut short by the end. -/
structure EncodingError where
  validUpTo : Nat
  badLength : Option Nat
  deriving DecidableEq, Repr

def EncodingError.message (e : EncodingError) : String :=
  match e.badLength with
  | some n => s!"invalid utf-8 sequence of {n} bytes from index {e.validUpTo}"
  | none => s!"incomplete utf-8 byte sequence from index {e.validUpTo}"

/-- **A file operation that failed.** -/
inductive FileError where
  /-- Nothing to read at this path. -/
  | noSuchFile (path : String)
  /-- The directory to write into does not exist. -/
  | noSuchDirectory (path : String)
  /-- The file does not hold text. -/
  | notText (reason : EncodingError)
  deriving DecidableEq, Repr

def FileError.message : FileError → String
  | .noSuchFile path => "No such file: " ++ path
  | .noSuchDirectory path => "No such directory: " ++ path
  | .notText reason => reason.message

/-- **A configuration that is no sequence of mappings.** -/
inductive Malformation where
  /-- The text is no well-formed YAML. -/
  | yaml
  /-- Blank text where the version asks for a document. -/
  | empty
  /-- More documents than a version without languages takes. -/
  | severalDocuments (version : String) (count : Nat)
  /-- A document that is not a mapping. -/
  | notMapping (index : Nat) (found : String)
  /-- A key of a document that is not a string. -/
  | nonStringKey (found : String)
  /-- A key of a nested mapping that is not a string. -/
  | nonStringKeyUnder (path : String)
  deriving DecidableEq, Repr

def Malformation.message : Malformation → String
  | .yaml => "<yaml>"
  | .empty => "configuration is empty"
  | .severalDocuments version count =>
    s!"version {version} accepts a single document, found {count}"
  | .notMapping index found => s!"expected a mapping at document {index}, found {found}"
  | .nonStringKey found => "non-string key " ++ found
  | .nonStringKeyUnder path => "non-string key under " ++ path

/-- **A set of instructions that cannot be followed**: a manifest or a combination of arguments. -/
inductive ConfigurationProblem where
  /-- A record of one version was offered as the ambient style of another. -/
  | ambientVersion (found expected : String)
  /-- Neither a version nor a range was given. -/
  | versionOrRange
  /-- A version that the settings have to name is missing. -/
  | notSet (key : String)
  | emptyPath
  /-- A path leaves its directory. -/
  | traversal (path : String)
  | absolutePath (path : String)
  /-- A problem of one manifest entry, counted from one. -/
  | entry (number : Nat) (reason : String)
  /-- An entry writes what an earlier one writes. -/
  | repeatedOutput (number : Nat) (output : String)
  /-- The manifest is not there. -/
  | manifestMissing (path : String)
  /-- The manifest is no well-formed YAML. -/
  | manifestText
  /-- The manifest does not have the shape its rules ask for. -/
  | manifestShape (violations : List String)
  /-- The manifest has its shape but cannot be decoded. -/
  | manifestContent
  deriving DecidableEq, Repr

def ConfigurationProblem.message : ConfigurationProblem → String
  | .ambientVersion found expected =>
    s!"ambient style belongs to version {found}, not {expected}"
  | .versionOrRange => "Specify --version, or both --from and --to"
  | .notSet key => s!"'{key}' is not set"
  | .emptyPath => "Path cannot be empty"
  | .traversal path => s!"Path contains unsafe directory traversal: '{path}'"
  | .absolutePath path =>
    s!"Absolute paths are not allowed: '{path}'. Use paths relative to the manifest."
  | .entry number reason => s!"File entry #{number}: {reason}"
  | .repeatedOutput number output =>
    s!"File entry #{number}: output '{output}' is written by an earlier entry"
  | .manifestMissing path =>
    s!"Manifest file not found: {path}\n" ++
      "Create a stylemigrate.yaml file or specify a different path with --manifest"
  | .manifestText => "Failed to parse YAML: <yaml>"
  | .manifestShape violations =>
    "Manifest validation failed:\n" ++ "\n".intercalate violations
  | .manifestContent => "Failed to read manifest: <yaml>"

/-- **A failed access to files**, as the commands report it. -/
inductive FilesystemProblem where
  /-- The input file that a command names does not exist. -/
  | missingInput (path : String)
  /-- An operation failed; its own message says where. -/
  | failed (cause : FileError)
  /-- An operation on a named path failed. -/
  | failedAt (path : String) (cause : FileError)
  deriving DecidableEq, Repr

def FilesystemProblem.message : FilesystemProblem → String
  | .missingInput path => "Input file not found: " ++ path
  | .failed cause => cause.message
  | .failedAt path cause => path ++ ": " ++ cause.message

/-- **The errors of the library.** -/
inductive StyleError where
  /-- The text is no sequence of mappings. -/
  | malformedText (cause : Malformation)
  /-- A key that the schema does not know. -/
  | unknownOption (key : String)
  /-- A known key with a value of the wrong shape or spelling. -/
  | invalidValue (field value : String)
  /-- A document after the first names no language. -/
  | misplacedDefault (index : Nat)
  /-- Two documents configure one language. -/
  | duplicateLanguage (language : String)
  /-- No document applies to the language. -/
  | unsuitableLanguage (language : String)
  /-- A cross-field law is broken. -/
  | constraintViolation (name reason : String)
  /-- The version has no style of this name. -/
  | unknownStyle (name version : String)
  /-- The version does not know the language. -/
  | unsupportedLanguage (language version : String)
  /-- Neither the style nor the fallback exists in the next version. -/
  | incompatibleStyle (style version : String) (available : List String)
  /-- No version goes by this text. -/
  | unknownVersion (version : String)
  | configuration (problem : ConfigurationProblem)
  | filesystem (problem : FilesystemProblem)
  deriving DecidableEq, Repr

namespace StyleError

/-- **The wording** of each error. -/
def message : StyleError → String
  | malformedText cause => "Malformed configuration: " ++ cause.message
  | unknownOption key => s!"Unknown option: '{key}'"
  | invalidValue field value => s!"Invalid value for '{field}': {value}"
  | misplacedDefault index =>
    s!"Document #{index} has no Language; only the first document may omit it"
  | duplicateLanguage language => s!"Language {language} is configured more than once"
  | unsuitableLanguage language => s!"No configuration applies to language {language}"
  | constraintViolation name reason => s!"Constraint '{name}' violated: {reason}"
  | unknownStyle name version => s!"Unknown style '{name}' for version {version}"
  | unsupportedLanguage language version =>
    s!"Language {language} is not supported by version {version}"
  | incompatibleStyle style version available =>
    let listed := ", ".intercalate available
    s!"Style '{style}' is not compatible with version {version} (available: {listed})"
  | unknownVersion version => s!"Unknown version: '{version}'"
  | configuration problem => "Configuration error: " ++ problem.message
  | filesystem problem => "Filesystem error: " ++ problem.message

/-- **The exit code** of a program that stops with this error. -/
def exitCode : StyleError → Nat
  | malformedText .. => 1
  | unknownOption .. => 2
  | invalidValue .. => 3
  | misplacedDefault .. => 4
  | duplicateLanguage .. => 5
  | unsuitableLanguage .. => 6
  | constraintViolation .. => 7
  | unknownStyle .. => 8
  | unsupportedLanguage .. => 9
  | incompatibleStyle .. => 10
  | unknownVersion .. => 11
  | configuration .. => 12
  | filesystem .. => 13

end StyleError

/-- **A failure with its history**: what was being done when the error arose, outermost first. -/
structure Failure where
  contexts : List String
  cause : StyleError
  deriving DecidableEq, Repr

namespace Failure

/-- A lone error. -/
def ofError (e : StyleError) : Failure := ⟨[], e⟩

/-- Say what was being done. -/
def within (context : String) (f : Failure) : Failure := ⟨context :: f.contexts, f.cause⟩

/-- All texts, from the outermost context to the error itself. -/
def chain (f : Failure) : List String := f.contexts ++ [f.cause.message]

end Failure

end FormatStyle
