import FormatStyle.Literal
import FormatStyle.Version

/-! # Fields that stand for each other

The correspondences between the fields of neighbouring versions, beyond those of one name. They
are written from the lower version to the higher and read in both directions: `Transfer` is a
correspondence with its direction.
-/

namespace FormatStyle

/-- **A correspondence** between a lower version and the next higher one. -/
inductive Correspondence where
  /-- One field for another. In each direction the first row that matches counts; a value without
  a row is converted by its kind. -/
  | rename (old new : String) (map : List (Literal × Literal))
  /-- Several lower fields for one higher field. An empty place in a row matches any value, and
  says nothing about it on the way down. -/
  | merge (old : List String) (new : String) (rows : List (List (Option Literal) × Literal))
  deriving Repr

namespace Correspondence

/-- From 3.4 to 3.6. -/
def to3_6 : List Correspondence := [
  .rename "PointerBindsToType" "PointerAlignment"
    [(.bool true, .choice "Left"), (.bool false, .choice "Right")],
  .rename "DerivePointerBinding" "DerivePointerAlignment" [],
  .rename "IndentFunctionDeclarationAfterType" "IndentWrappedFunctionNames" [],
  .rename "SpaceAfterControlStatementKeyword" "SpaceBeforeParens"
    [(.bool true, .choice "ControlStatements"), (.bool false, .choice "Never"),
     (.bool true, .choice "Always")],
  .rename "BreakBeforeBinaryOperators" "BreakBeforeBinaryOperators"
    [(.bool true, .choice "All"), (.bool false, .choice "None"),
     (.bool true, .choice "NonAssignment")]]

/-- From 3.6 to 12. -/
def to12 : List Correspondence := [
  .rename "AlignEscapedNewlinesLeft" "AlignEscapedNewlines"
    [(.bool true, .choice "Left"), (.bool false, .choice "Right")],
  .rename "BreakConstructorInitializersBeforeComma" "BreakConstructorInitializers"
    [(.bool true, .choice "BeforeComma"), (.bool false, .choice "BeforeColon"),
     (.bool false, .choice "AfterColon")],
  .rename "AllowShortIfStatementsOnASingleLine" "AllowShortIfStatementsOnASingleLine"
    [(.bool true, .choice "WithoutElse"), (.bool false, .choice "Never"),
     (.bool true, .choice "Always")],
  .rename "AlignAfterOpenBracket" "AlignAfterOpenBracket"
    [(.bool true, .choice "Align"), (.bool false, .choice "DontAlign"),
     (.bool false, .choice "AlwaysBreak")],
  .rename "AlignOperands" "AlignOperands"
    [(.bool true, .choice "Align"), (.bool false, .choice "DontAlign"),
     (.bool true, .choice "AlignAfterOperator")],
  .rename "AlwaysBreakAfterDefinitionReturnType" "AlwaysBreakAfterDefinitionReturnType"
    [(.bool true, .choice "All"), (.bool false, .choice "None"), (.bool true, .choice "TopLevel")],
  .rename "AlwaysBreakTemplateDeclarations" "AlwaysBreakTemplateDeclarations"
    [(.bool true, .choice "Yes"), (.bool false, .choice "MultiLine"), (.bool false, .choice "No")],
  .rename "Standard" "Standard"
    [(.choice "Cpp03", .choice "Cpp03"), (.choice "Cpp11", .choice "Cpp11"),
     (.choice "Cpp11", .choice "Latest"), (.choice "Cpp11", .choice "Cpp14"),
     (.choice "Cpp11", .choice "Cpp17"), (.choice "Cpp11", .choice "Cpp20"),
     (.choice "Auto", .choice "Auto")],
  .rename "AllowShortFunctionsOnASingleLine" "AllowShortFunctionsOnASingleLine"
    [(.choice "None", .choice "None"), (.choice "All", .choice "All"),
     (.choice "Inline", .choice "Inline"), (.choice "Empty", .choice "Empty"),
     (.choice "Inline", .choice "InlineOnly")],
  .rename "UseTab" "UseTab"
    [(.choice "Never", .choice "Never"), (.choice "Always", .choice "Always"),
     (.choice "ForIndentation", .choice "ForIndentation"),
     (.choice "ForIndentation", .choice "ForContinuationAndIndentation"),
     (.choice "ForIndentation", .choice "AlignWithSpaces")]]

/-- From 12 to 16. -/
def to16 : List Correspondence := [
  .merge
    ["AllowAllConstructorInitializersOnNextLine",
     "ConstructorInitializerAllOnOneLineOrOnePerLine"]
    "PackConstructorInitializers"
    [([none, some (.bool false)], .choice "BinPack"),
     ([some (.bool true), some (.bool true)], .choice "NextLine"),
     ([some (.bool false), some (.bool true)], .choice "CurrentLine")],
  .merge
    ["DeriveLineEnding", "UseCRLF"]
    "LineEnding"
    [([some (.bool true), some (.bool false)], .choice "DeriveLF"),
     ([some (.bool true), some (.bool true)], .choice "DeriveCRLF"),
     ([some (.bool false), some (.bool false)], .choice "LF"),
     ([some (.bool false), some (.bool true)], .choice "CRLF")],
  .rename "IndentRequires" "IndentRequiresClause" [],
  .rename "BreakBeforeConceptDeclarations" "BreakBeforeConceptDeclarations"
    [(.bool true, .choice "Always"), (.bool false, .choice "Allowed"),
     (.bool false, .choice "Never")],
  .rename "SortIncludes" "SortIncludes"
    [(.bool true, .choice "CaseSensitive"), (.bool false, .choice "Never"),
     (.bool true, .choice "CaseInsensitive")],
  .rename "SortUsingDeclarations" "SortUsingDeclarations"
    [(.bool true, .choice "LexicographicNumeric"), (.bool false, .choice "Never"),
     (.bool true, .choice "Lexicographic")],
  .rename "SpaceBeforeParens" "SpaceBeforeParens"
    [(.choice "ControlStatementsExceptForEachMacros",
      .choice "ControlStatementsExceptControlMacros")]]

/-- **The correspondences between two neighbouring versions**, in either order. -/
def between (a b : Version) : List Correspondence :=
  match if a ≤ b then a else b with
  | .v3_4 => to3_6
  | .v3_6 => to12
  | .v12 => to16
  | .v16 => []

end Correspondence

/-- **A correspondence in one direction**: the fields that are read, the fields that are written,
and the rows from the ones to the others. -/
inductive Transfer where
  | rename (source target : String) (map : List (Literal × Literal))
  | merge (sources : List String) (target : String)
      (rows : List (List (Option Literal) × Literal))
  | split (source : String) (targets : List String)
      (rows : List (List (Option Literal) × Literal))
  deriving Repr

namespace Transfer

/-- The fields that a transfer reads. -/
def sources : Transfer → List String
  | rename source .. => [source]
  | merge sources .. => sources
  | split source .. => [source]

/-- The fields that a transfer writes. -/
def targets : Transfer → List String
  | rename _ target _ => [target]
  | merge _ target _ => [target]
  | split _ targets _ => targets

end Transfer

namespace Correspondence

/-- The correspondence read upwards. -/
def upwards : Correspondence → Transfer
  | rename old new map => .rename old new map
  | merge old new rows => .merge old new rows

/-- The correspondence read downwards. -/
def downwards : Correspondence → Transfer
  | rename old new map => .rename new old (map.map Prod.swap)
  | merge old new rows => .split new old rows

end Correspondence

/-- **The transfers of a step** from one version to a neighbouring one. -/
def transfers (source target : Version) : List Transfer :=
  (Correspondence.between source target).map fun c =>
    if source < target then c.upwards else c.downwards

end FormatStyle
