import FormatStyle.Catalogue.V12.Laws
import FormatStyle.Catalogue.V16.Fields

/-! # Laws of version 16

Older keys, the presets for braces and parentheses, the laws on trailing commas and the order of
qualifiers, and what follows from other options.
-/

namespace FormatStyle.Catalogue.V16

/-- The flag at a position of a combined legacy entry. -/
def flagAt (values : List (Option Value)) (index : Nat) : Option Bool :=
  (values[index]?.getD none).bind Value.bool?

/-- Styles in which constructor initializers go one per line by default. -/
def inGoogleFamily (basedOn : Option String) : Bool :=
  basedOn.any fun style =>
    Text.equalsIgnoringCase style "google" || Text.equalsIgnoringCase style "chromium"

/-- **Packing of constructor initializers** from the two flags it took the place of: whether all
may go on the next line, and whether they go on one line or one per line. The second defaults to
true in the Google family, so the flags undo the packing there and make it elsewhere. -/
def initializerPackingOfFlags (values : List (Option Value)) (view : View)
    (basedOn : Option String) : List (String × Value) :=
  let onNextLine := (flagAt values 0).getD true
  let onCurrentLine := (flagAt values 1).getD (inGoogleFamily basedOn)
  let current := (view "PackConstructorInitializers").bind Value.choice?
  let packed : Option String :=
    if inGoogleFamily basedOn then
      if current = some "NextLine" then
        if !onCurrentLine then some "BinPack"
        else if !onNextLine then some "CurrentLine"
        else none
      else none
    else if current = some "BinPack" && onCurrentLine then
      some (if onNextLine then "NextLine" else "CurrentLine")
    else none
  match packed with
  | some variant => [("PackConstructorInitializers", .choice variant)]
  | none => []

/-- **The line ending** from the two flags it took the place of: whether it is derived from the
text, and whether it is carriage return and line feed. -/
def lineEndingOfFlags (values : List (Option Value)) (view : View) (_basedOn : Option String) :
    List (String × Value) :=
  let derive := (flagAt values 0).getD true
  let crlf := (flagAt values 1).getD false
  if (view "LineEnding").bind Value.choice? = some "DeriveLF" then
    match derive, crlf with
    | false, true => [("LineEnding", .choice "CRLF")]
    | false, false => [("LineEnding", .choice "LF")]
    | true, true => [("LineEnding", .choice "DeriveCRLF")]
    | true, false => []
  else []

/-- Keys of earlier versions that are still read. -/
def legacy : List Legacy := [
  .synonym "AlignEscapedNewlinesLeft" "AlignEscapedNewlines",
  .synonym "DerivePointerBinding" "DerivePointerAlignment",
  .synonym "IndentFunctionDeclarationAfterType" "IndentWrappedFunctionNames",
  .synonym "IndentRequires" "IndentRequiresClause",
  .synonym "PointerBindsToType" "PointerAlignment",
  .synonym "SpaceAfterControlStatementKeyword" "SpaceBeforeParens",
  .mapped "BreakBeforeInheritanceComma" .bool "BreakInheritanceList"
    [(.bool true, .choice "BeforeComma")] (some (.choice "BeforeColon")),
  .mapped "BreakConstructorInitializersBeforeComma" .bool "BreakConstructorInitializers"
    [(.bool true, .choice "BeforeComma")] (some (.choice "BeforeColon")),
  .group [("AllowAllConstructorInitializersOnNextLine", .bool),
      ("ConstructorInitializerAllOnOneLineOrOnePerLine", .bool)]
    initializerPackingOfFlags,
  .group [("DeriveLineEnding", .bool), ("UseCRLF", .bool)] lineEndingOfFlags]

/-- The spaces that each choice before parentheses stands for. -/
def parensVariants : List PresetVariant := [
  ⟨"Never", [], []⟩,
  ⟨"ControlStatements", controlStatementParens, []⟩,
  ⟨"ControlStatementsExceptControlMacros", [("AfterControlStatements", .bool true)], []⟩,
  ⟨"NonEmptyParentheses", [("BeforeNonEmptyParentheses", .bool true)], []⟩,
  ⟨"Always", [], []⟩]

def presets : List Preset := [
  ⟨"BreakBeforeBraces", "BraceWrapping", "Custom", V12.attachWrapping, V12.braceVariants⟩,
  ⟨"SpaceBeforeParens", "SpaceBeforeParensOptions", "Custom", parensReset, parensVariants⟩]

/-- The words that a qualifier order can list. -/
def qualifiers : List String :=
  ["const", "volatile", "static", "inline", "constexpr", "restrict", "friend", "type"]

/-- The order of qualifiers, where qualifiers are aligned at all. -/
def qualifierOrder? (view : View) : Option (List String) :=
  if ((view "QualifierAlignment").bind Value.choice?).any (· != "Leave") then
    (view "QualifierOrder").bind Value.list?
  else
    none

/-- The laws on the order of qualifiers, checked one after the other. -/
def qualifierConstraints : List Constraint := [
  { name := "qualifier-order-empty"
    reason := "Missing QualifierOrder"
    violated := fun view => (qualifierOrder? view).any (·.isEmpty) },
  { name := "qualifier-order-invalid"
    reason := "Invalid qualifier specified in QualifierOrder"
    violated := fun view => (qualifierOrder? view).any (·.any fun q => !qualifiers.contains q) },
  { name := "qualifier-order-duplicate"
    reason := "Duplicate qualifier specified in QualifierOrder"
    violated := fun view => (qualifierOrder? view).any fun order => !decide order.Nodup },
  { name := "qualifier-order-missing-type"
    reason := "Missing type in QualifierOrder"
    violated := fun view => (qualifierOrder? view).any fun order => !order.contains "type" }]

/-- An alignment of qualifiers to one side has a fixed order. -/
def fixedQualifierOrder : Derivation := fun view =>
  match (view "QualifierAlignment").bind Value.choice? with
  | some "Left" => [("QualifierOrder", .list ["const", "volatile", "type"])]
  | some "Right" => [("QualifierOrder", .list ["type", "const", "volatile"])]
  | _ => []

/-- The least number of spaces before a line comment never exceeds a bounded greatest one. -/
def clampedCommentPrefix : Derivation := fun view =>
  match view "SpacesInLineCommentPrefix" with
  | some (.record (.int minimum :: .int maximum :: _)) =>
    if maximum = -1 || minimum ≤ maximum then []
    else [("SpacesInLineCommentPrefix", .record [.int maximum, .int maximum])]
  | _ => []

end FormatStyle.Catalogue.V16
