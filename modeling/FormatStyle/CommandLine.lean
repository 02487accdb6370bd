import FormatStyle.Command

/-! # Command lines

How the words of a command line are read as a command. Options have a long name, and some a short
one; a value follows its option or is attached to it. Words are read from left to right, and the
first that cannot be read decides; only then the options are checked against each other.
-/

namespace FormatStyle

/-- **Why a command line is no command.** Asking for help or for the version is one reason. -/
inductive UsageProblem where
  | helpAsked
  | versionAsked
  /-- There are no words at all. -/
  | nothingGiven
  | commandMissing
  | unknownCommand
  | unknownArgument
  /-- An option that needs a value has none. -/
  | valueMissing
  /-- An option that takes no value has one. -/
  | valueNotTaken
  /-- An option is given twice, or with one that excludes it. -/
  | conflict
  /-- An option that is needed is not given. -/
  | optionMissing
  deriving DecidableEq, Repr

/-- The exit code of a program that stops for this reason. -/
def UsageProblem.exitCode : UsageProblem → Nat
  | helpAsked | versionAsked => 0
  | _ => 2

/-- **What an option does.** -/
inductive OptionEffect where
  | takesValue
  | isFlag
  | asksForHelp
  | asksForVersion
  deriving DecidableEq, Repr

/-- **An option**, by its names and what it does. -/
structure CommandOption where
  long : String
  short : Option Char
  effect : OptionEffect
  deriving DecidableEq, Repr

namespace CommandLine

/-! ## The options of each command -/

def helpOption : CommandOption := ⟨"help", some 'h', .asksForHelp⟩

def verboseOption : CommandOption := ⟨"verbose", some 'v', .isFlag⟩

/-- The options that stand before the command. -/
def mainOptions : List CommandOption :=
  [verboseOption, helpOption, ⟨"version", some 'V', .asksForVersion⟩]

def valueOption (long : String) (short : Option Char) : CommandOption :=
  ⟨long, short, .takesValue⟩

def inputOptions : List CommandOption :=
  [valueOption "input" (some 'i'), valueOption "language" (some 'l')]

/-- **A form of command**: its name, its options, and those that it needs. -/
structure Form where
  name : String
  options : List CommandOption
  required : List String

def migrateForm : Form where
  name := "migrate"
  options := inputOptions ++ [valueOption "from" none, valueOption "to" none,
    valueOption "fallback-style" none, ⟨"keep-same", none, .isFlag⟩,
    valueOption "output" (some 'o')]
  required := ["from", "to"]

def checkForm : Form where
  name := "check"
  options := inputOptions ++ [valueOption "version" none, valueOption "fallback-style" none]
  required := ["version"]

def resolveForm : Form where
  name := "resolve"
  options := [valueOption "version" none, valueOption "style" none,
    valueOption "language" (some 'l'), valueOption "diff-from" none]
  required := ["version", "style"]

def compatibleForm : Form where
  name := "compatible"
  options := inputOptions
  required := []

def stylesForm : Form where
  name := "styles"
  options := [valueOption "version" none, valueOption "from" none, valueOption "to" none]
  required := []

def batchForm : Form where
  name := "batch"
  options := [valueOption "manifest" (some 'm'), ⟨"dry-run", none, .isFlag⟩]
  required := []

def forms : List Form :=
  [migrateForm, checkForm, resolveForm, compatibleForm, stylesForm, batchForm]

def form? (name : String) : Option Form := forms.find? (·.name == name)

/-- The command that explains the others. -/
def helpCommand : String := "help"

/-! ## Words -/

/-- **What has been read so far**: the options with their values, flags with an empty one, and the
last option with a value of its own word, which is not among them before the next option. -/
structure Reading where
  given : List (String × String)
  last : Option (String × Option String)
  deriving DecidableEq, Repr

namespace Reading

def empty : Reading := ⟨[], none⟩

def has (r : Reading) (name : String) : Bool := (r.given.lookup name).isSome

def value? (r : Reading) (name : String) : Option String := r.given.lookup name

/-- Take an option with its value, which is given only once. -/
def give (r : Reading) (name value : String) : Except UsageProblem Reading :=
  if r.has name then .error .conflict else .ok { r with given := r.given ++ [(name, value)] }

/-- Take the last option, which needs its value now. -/
def settle (r : Reading) : Except UsageProblem Reading :=
  match r.last with
  | none => .ok r
  | some (_, none) => .error .valueMissing
  | some (name, some value) => Reading.give { r with last := none } name value

/-- Take an option that stands alone. -/
def useFlag (r : Reading) (option : CommandOption) : Except UsageProblem Reading := do
  let r ← r.settle
  match option.effect with
  | .asksForHelp => .error .helpAsked
  | .asksForVersion => .error .versionAsked
  | _ => r.give option.long ""

/-- Take an option that needs a value, with the value that is attached to it. -/
def useValue (r : Reading) (option : CommandOption) (attached : Option String) :
    Except UsageProblem Reading := do
  let r ← r.settle
  match attached with
  | some value => r.give option.long value
  | none => return { r with last := some (option.long, none) }

end Reading

/-- **The parts of a long option**: its name, and the value after an equals sign. -/
def longParts (cs : List Char) : String × Option String :=
  match cs.dropWhile (· != '=') with
  | _ :: value => (String.ofList (cs.takeWhile (· != '=')), some (String.ofList value))
  | [] => (String.ofList cs, none)

/-- Read a word that starts with two dashes. -/
def readLong (options : List CommandOption) (r : Reading) (cs : List Char) :
    Except UsageProblem Reading :=
  let (name, attached) := longParts cs
  match options.find? (·.long == name) with
  | none => .error .unknownArgument
  | some option =>
    match option.effect, attached with
    | .takesValue, attached => r.useValue option attached
    | _, none => r.useFlag option
    | _, some _ => .error .valueNotTaken

/-- Read the letters after one dash: flags, up to an option that takes the others as its value. -/
def readShort (options : List CommandOption) (r : Reading) : List Char → Except UsageProblem Reading
  | [] => .ok r
  | c :: rest =>
    match options.find? (·.short == some c) with
    | none => .error .unknownArgument
    | some option =>
      match option.effect, rest with
      | .takesValue, [] => r.useValue option none
      | .takesValue, '=' :: value => r.useValue option (some (String.ofList value))
      | .takesValue, value => r.useValue option (some (String.ofList value))
      | _, rest => do
        let r ← r.useFlag option
        readShort options r rest

/-- **What a word is.** A lone dash is a plain word. -/
inductive Word where
  | escape
  | long (cs : List Char)
  | short (cs : List Char)
  | plain (text : String)
  deriving DecidableEq, Repr

def Word.ofString (s : String) : Word :=
  match s.toList with
  | ['-', '-'] => .escape
  | '-' :: '-' :: cs => .long cs
  | '-' :: c :: cs => .short (c :: cs)
  | _ => .plain s

/-- A plain word where none belongs. -/
def misplaced (commands : List String) (escaped : Bool) (word : String) : UsageProblem :=
  if commands.isEmpty || (escaped && commands.contains word) then .unknownArgument
  else .unknownCommand

/-- **Read words** up to the first that is a command, which is given with the words after it. An
option that waits for its value takes any plain word. -/
def readWords (options : List CommandOption) (commands : List String) (r : Reading) :
    List String → Except UsageProblem (Reading × Option (String × List String))
  | [] => do return (← r.settle, none)
  | s :: rest =>
    match Word.ofString s with
    | .escape =>
      match rest with
      | [] => do return (← r.settle, none)
      | next :: _ => .error (misplaced commands true next)
    | .long cs => do readWords options commands (← readLong options r cs) rest
    | .short cs => do readWords options commands (← readShort options r cs) rest
    | .plain s =>
      match r.last with
      | some (name, none) =>
        readWords options commands { r with last := some (name, some s) } rest
      | _ =>
        if commands.contains s then .ok (r, some (s, rest))
        else .error (misplaced commands false s)

/-! ## Commands -/

/-- The input that options name. -/
def inputOf (r : Reading) : Input :=
  ⟨(r.value? "input").getD Command.standardInputPath, (r.value? "language").getD "Cpp"⟩

/-- The style to fall back to that options name. -/
def fallbackOf (r : Reading) : String := (r.value? "fallback-style").getD defaultFallbackStyle

/-- Check the options of a command against each other. -/
def checkReading (form : Form) (r : Reading) : Except UsageProblem Unit :=
  let range := r.has "from" || r.has "to"
  if form.name == stylesForm.name && r.has "version" && range then .error .conflict
  else if !form.required.all r.has then .error .optionMissing
  else if form.name == stylesForm.name && !r.has "version" && !(r.has "from" && r.has "to") then
    .error .optionMissing
  else .ok ()

/-- The command of a form, from options that have been checked. -/
def build (form : Form) (r : Reading) : Option Command := do
  match form.name with
  | "migrate" =>
    return .migrate (← r.value? "from") (← r.value? "to") (inputOf r) (fallbackOf r)
      (r.has "keep-same") (r.value? "output")
  | "check" => return .check (← r.value? "version") (inputOf r) (fallbackOf r)
  | "resolve" =>
    return .resolve (← r.value? "version") (← r.value? "style")
      ((r.value? "language").getD "Cpp") (r.value? "diff-from")
  | "compatible" => return .compatible (inputOf r)
  | "styles" => return .styles (r.value? "version") (r.value? "from") (r.value? "to")
  | "batch" =>
    return .batch ((r.value? "manifest").getD manifestName) (r.has "dry-run")
  | _ => none

/-- Why the words after the help command are no command: none or the name of a command asks for
help, and anything else is unknown. -/
def helpProblem : List String → UsageProblem
  | [] => .helpAsked
  | [name] =>
    if name == helpCommand || (form? name).isSome then .helpAsked else .unknownCommand
  | _ => .unknownCommand

/-- **A command with its verbosity.** -/
structure Invocation where
  command : Command
  verbose : Bool
  deriving DecidableEq, Repr

/-- **Read a command line**, without the name of the program. -/
def parse (words : List String) : Except UsageProblem Invocation := do
  let commands := forms.map (·.name) ++ [helpCommand]
  let (main, command?) ← readWords mainOptions commands .empty words
  match command? with
  | none => .error (if main.given.isEmpty then .nothingGiven else .commandMissing)
  | some (name, rest) =>
    match form? name with
    | none => .error (helpProblem rest)
    | some form =>
      let (own, _) ← readWords (form.options ++ [verboseOption, helpOption]) [] .empty rest
      checkReading form own
      match build form own with
      | some command => return ⟨command, main.has "verbose" || own.has "verbose"⟩
      | none => .error .optionMissing

end CommandLine

end FormatStyle
