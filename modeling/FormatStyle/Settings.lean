import FormatStyle.Datum
import FormatStyle.Migration

/-! # Settings

What a manifest and each of its entries can say about a migration. Settings of an entry win over
those of the manifest (`Settings.withDefaults`), and together they have to name both versions.
-/

namespace FormatStyle

/-- **Settings**, each of which may be left out. Versions and languages are still as written. -/
structure Settings where
  source : Option String
  target : Option String
  language : Option String
  fallbackStyle : Option String
  skipSame : Option Bool
  deriving DecidableEq, Repr

/-- **Why plain data are no settings.** -/
inductive SettingsProblem where
  /-- A version that is neither a text nor a number. -/
  | version (found : Datum)
  /-- Anything else of the wrong type, or too long a list. -/
  | shape
  deriving Repr

/-- The wording, where the library has its own. -/
def SettingsProblem.message? : SettingsProblem → Option String
  | version found => some ("expected a version, found " ++ found.display)
  | shape => none

namespace Settings

def empty : Settings := ⟨none, none, none, none, none⟩

/-- **Settings over defaults**: what is left out is taken from the defaults. -/
def withDefaults (s defaults : Settings) : Settings where
  source := s.source.or defaults.source
  target := s.target.or defaults.target
  language := s.language.or defaults.language
  fallbackStyle := s.fallbackStyle.or defaults.fallbackStyle
  skipSame := s.skipSame.or defaults.skipSame

/-- The version that has to be set under a key. -/
def versionOf (value : Option String) (key : String) : Except StyleError Version :=
  match value with
  | some text => Version.parse text
  | none => .error (.configuration (.notSet key))

/-- **The migration that settings ask for.** -/
def toOptions (s : Settings) : Except StyleError Migration.Options := do
  let source ← versionOf s.source "from"
  let target ← versionOf s.target "to"
  let language ←
    match s.language with
    | some text => Language.parse text
    | none => pure .cpp
  return ⟨source, target, language, s.fallbackStyle.getD defaultFallbackStyle,
    s.skipSame.getD true⟩

/-- A version: a text or the text of a number. -/
def readVersion : Datum → Except SettingsProblem (Option String)
  | .null => .ok none
  | .text s => .ok (some s)
  | .int n => .ok (some (toString n))
  | .float x => .ok (some (Datum.floatText x))
  | found => .error (.version found)

def readText : Datum → Except SettingsProblem (Option String)
  | .null => .ok none
  | .text s => .ok (some s)
  | _ => .error .shape

def readFlag : Datum → Except SettingsProblem (Option Bool)
  | .null => .ok none
  | .bool b => .ok (some b)
  | _ => .error .shape

/-- Read the value of one key. Keys that are no setting are passed over. -/
def readKey (s : Settings) (entry : String × Datum) : Except SettingsProblem Settings := do
  match entry.1 with
  | "from" => return { s with source := ← readVersion entry.2 }
  | "to" => return { s with target := ← readVersion entry.2 }
  | "language" => return { s with language := ← readText entry.2 }
  | "fallbackStyle" => return { s with fallbackStyle := ← readText entry.2 }
  | "skipSame" => return { s with skipSame := ← readFlag entry.2 }
  | _ => return s

/-- Read the entries of an object, in order. -/
def ofEntries (entries : List (String × Datum)) : Except SettingsProblem Settings :=
  entries.foldlM readKey empty

/-- The keys of the settings, in the order of a list of settings. -/
def keys : List String := ["from", "to", "language", "fallbackStyle", "skipSame"]

/-- **Read settings**: an object, or a list of the values in order. -/
def ofDatum : Datum → Except SettingsProblem Settings
  | .object entries => ofEntries entries
  | .list values => do
    let s ← ofEntries (keys.zip values)
    if values.length ≤ keys.length then .ok s else .error .shape
  | _ => .error .shape

end Settings

end FormatStyle
