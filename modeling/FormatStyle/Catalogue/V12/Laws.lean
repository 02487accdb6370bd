import FormatStyle.Catalogue.V12.Fields

/-! # Laws of version 12

Older keys, the brace presets, the law on trailing commas, and the return type break that follows
from another one. Version 16 keeps all of them.
-/

namespace FormatStyle.Catalogue.V12

/-- Keys of earlier versions that are still read. -/
def legacy : List Legacy := [
  .synonym "AlignEscapedNewlinesLeft" "AlignEscapedNewlines",
  .synonym "DerivePointerBinding" "DerivePointerAlignment",
  .synonym "IndentFunctionDeclarationAfterType" "IndentWrappedFunctionNames",
  .synonym "PointerBindsToType" "PointerAlignment",
  .synonym "SpaceAfterControlStatementKeyword" "SpaceBeforeParens",
  .mapped "BreakBeforeInheritanceComma" .bool "BreakInheritanceList"
    [(.bool true, .choice "BeforeComma")] (some (.choice "BeforeColon")),
  .mapped "BreakConstructorInitializersBeforeComma" .bool "BreakConstructorInitializers"
    [(.bool true, .choice "BeforeComma")] (some (.choice "BeforeColon"))]

/-- The wrapping that each brace style stands for. -/
def braceVariants : List PresetVariant := [
  ⟨"Attach", [], []⟩,
  ⟨"Linux", [
    ("AfterClass", .bool true), ("AfterFunction", .bool true), ("AfterNamespace", .bool true)],
    []⟩,
  ⟨"Mozilla", [
    ("AfterClass", .bool true), ("AfterEnum", .bool true), ("AfterFunction", .bool true),
    ("AfterStruct", .bool true), ("AfterUnion", .bool true), ("AfterExternBlock", .bool true),
    ("SplitEmptyFunction", .bool true), ("SplitEmptyRecord", .bool false)],
    [("IndentExternBlock", .choice "AfterExternBlock")]⟩,
  ⟨"Stroustrup", [
    ("AfterFunction", .bool true), ("BeforeCatch", .bool true), ("BeforeElse", .bool true)],
    []⟩,
  ⟨"Allman", [
    ("AfterCaseLabel", .bool true), ("AfterClass", .bool true),
    ("AfterControlStatement", .choice "Always"), ("AfterEnum", .bool true),
    ("AfterFunction", .bool true), ("AfterNamespace", .bool true),
    ("AfterObjCDeclaration", .bool true), ("AfterStruct", .bool true),
    ("AfterUnion", .bool true), ("AfterExternBlock", .bool true), ("BeforeCatch", .bool true),
    ("BeforeElse", .bool true), ("BeforeLambdaBody", .bool true)],
    [("IndentExternBlock", .choice "AfterExternBlock")]⟩,
  ⟨"Whitesmiths", [
    ("AfterCaseLabel", .bool true), ("AfterClass", .bool true),
    ("AfterControlStatement", .choice "Always"), ("AfterEnum", .bool true),
    ("AfterFunction", .bool true), ("AfterNamespace", .bool true),
    ("AfterObjCDeclaration", .bool true), ("AfterStruct", .bool true),
    ("AfterExternBlock", .bool true), ("BeforeCatch", .bool true), ("BeforeElse", .bool true),
    ("BeforeLambdaBody", .bool true)],
    [("IndentExternBlock", .choice "AfterExternBlock")]⟩,
  ⟨"GNU", [
    ("AfterCaseLabel", .bool true), ("AfterClass", .bool true),
    ("AfterControlStatement", .choice "Always"), ("AfterEnum", .bool true),
    ("AfterFunction", .bool true), ("AfterNamespace", .bool true),
    ("AfterObjCDeclaration", .bool true), ("AfterStruct", .bool true),
    ("AfterUnion", .bool true), ("AfterExternBlock", .bool true), ("BeforeCatch", .bool true),
    ("BeforeElse", .bool true), ("BeforeWhile", .bool true), ("IndentBraces", .bool true)],
    [("IndentExternBlock", .choice "AfterExternBlock")]⟩,
  ⟨"WebKit", [("AfterFunction", .bool true)], []⟩]

def presets : List Preset := [
  ⟨"BreakBeforeBraces", "BraceWrapping", "Custom", attachWrapping, braceVariants⟩]

/-- Trailing commas cannot be inserted while arguments are packed. -/
def trailingCommaBinPacking : Constraint where
  name := "trailing-comma-bin-packing"
  reason := "trailing comma insertion cannot be used with bin packing"
  violated view :=
    ((view "InsertTrailingCommas").bind Value.choice?).any (· != "None") &&
      ((view "BinPackArguments").bind Value.bool?).getD false

/-- A return type break for definitions implies the general one where that is left at `None`. -/
def returnTypeBreak : Derivation := fun view =>
  let definition := (view "AlwaysBreakAfterDefinitionReturnType").bind Value.choice?
  let general := (view "AlwaysBreakAfterReturnType").bind Value.choice?
  if general = some "None" then
    if definition = some "All" then
      [("AlwaysBreakAfterReturnType", .choice "AllDefinitions")]
    else if definition = some "TopLevel" then
      [("AlwaysBreakAfterReturnType", .choice "TopLevelDefinitions")]
    else []
  else []

end FormatStyle.Catalogue.V12
