import FormatStyle.Schema

/-! # Version 3.4

A single document without a language, and unknown keys are ignored.
-/

namespace FormatStyle.Catalogue.V34

/-! ## Enumerations -/

def languageStandard : Enumeration := ⟨"LanguageStandard",
  [
    ("Cpp03", "Cpp03"), ("C++03", "Cpp03"), ("Cpp11", "Cpp11"), ("C++11", "Cpp11"),
    ("Auto", "Auto")]⟩

def useTab : Enumeration := ⟨"UseTabStyle",
  [
    ("Never", "Never"), ("false", "Never"), ("Always", "Always"), ("true", "Always"),
    ("ForIndentation", "ForIndentation")]⟩

def braceBreaking : Enumeration := ⟨"BraceBreakingStyle",
  [("Attach", "Attach"), ("Linux", "Linux"), ("Stroustrup", "Stroustrup"), ("Allman", "Allman")]⟩

def namespaceIndentation : Enumeration := ⟨"NamespaceIndentationKind",
  [("None", "None"), ("Inner", "Inner"), ("All", "All")]⟩

/-! ## Fields -/

/-- The options, each with the value of the baseline. -/
def fields : List Field := [
  ⟨"AccessModifierOffset", .scalar .int, .int (-2)⟩,
  ⟨"ConstructorInitializerIndentWidth", .scalar .unsigned, .int 4⟩,
  ⟨"AlignEscapedNewlinesLeft", .scalar .bool, .bool false⟩,
  ⟨"AlignTrailingComments", .scalar .bool, .bool true⟩,
  ⟨"AllowAllParametersOfDeclarationOnNextLine", .scalar .bool, .bool true⟩,
  ⟨"AllowShortIfStatementsOnASingleLine", .scalar .bool, .bool false⟩,
  ⟨"AllowShortLoopsOnASingleLine", .scalar .bool, .bool false⟩,
  ⟨"AlwaysBreakTemplateDeclarations", .scalar .bool, .bool false⟩,
  ⟨"AlwaysBreakBeforeMultilineStrings", .scalar .bool, .bool false⟩,
  ⟨"BreakBeforeBinaryOperators", .scalar .bool, .bool false⟩,
  ⟨"BreakBeforeTernaryOperators", .scalar .bool, .bool true⟩,
  ⟨"BreakConstructorInitializersBeforeComma", .scalar .bool, .bool false⟩,
  ⟨"BinPackParameters", .scalar .bool, .bool true⟩,
  ⟨"ColumnLimit", .scalar .unsigned, .int 80⟩,
  ⟨"ConstructorInitializerAllOnOneLineOrOnePerLine", .scalar .bool, .bool false⟩,
  ⟨"DerivePointerBinding", .scalar .bool, .bool false⟩,
  ⟨"ExperimentalAutoDetectBinPacking", .scalar .bool, .bool false⟩,
  ⟨"IndentCaseLabels", .scalar .bool, .bool false⟩,
  ⟨"MaxEmptyLinesToKeep", .scalar .unsigned, .int 1⟩,
  ⟨"NamespaceIndentation", .scalar (.choice namespaceIndentation), .choice "None"⟩,
  ⟨"ObjCSpaceBeforeProtocolList", .scalar .bool, .bool true⟩,
  ⟨"PenaltyBreakBeforeFirstCallParameter", .scalar .unsigned, .int 19⟩,
  ⟨"PenaltyBreakComment", .scalar .unsigned, .int 60⟩,
  ⟨"PenaltyBreakString", .scalar .unsigned, .int 1000⟩,
  ⟨"PenaltyBreakFirstLessLess", .scalar .unsigned, .int 120⟩,
  ⟨"PenaltyExcessCharacter", .scalar .unsigned, .int 1000000⟩,
  ⟨"PenaltyReturnTypeOnItsOwnLine", .scalar .unsigned, .int 60⟩,
  ⟨"PointerBindsToType", .scalar .bool, .bool false⟩,
  ⟨"SpacesBeforeTrailingComments", .scalar .unsigned, .int 1⟩,
  ⟨"Cpp11BracedListStyle", .scalar .bool, .bool false⟩,
  ⟨"Standard", .scalar (.choice languageStandard), .choice "Cpp03"⟩,
  ⟨"IndentWidth", .scalar .unsigned, .int 2⟩,
  ⟨"TabWidth", .scalar .unsigned, .int 8⟩,
  ⟨"UseTab", .scalar (.choice useTab), .choice "Never"⟩,
  ⟨"BreakBeforeBraces", .scalar (.choice braceBreaking), .choice "Attach"⟩,
  ⟨"IndentFunctionDeclarationAfterType", .scalar .bool, .bool false⟩,
  ⟨"SpacesInParentheses", .scalar .bool, .bool false⟩,
  ⟨"SpacesInAngles", .scalar .bool, .bool false⟩,
  ⟨"SpaceInEmptyParentheses", .scalar .bool, .bool false⟩,
  ⟨"SpacesInCStyleCastParentheses", .scalar .bool, .bool false⟩,
  ⟨"SpaceAfterControlStatementKeyword", .scalar .bool, .bool true⟩,
  ⟨"SpaceBeforeAssignmentOperators", .scalar .bool, .bool true⟩,
  ⟨"ContinuationIndentWidth", .scalar .unsigned, .int 4⟩]

/-! ## Styles -/

def googleStyle : StyleContent := .layered .baseline none [
  ⟨.always, [
    ("AccessModifierOffset", .int (-1)), ("AlignEscapedNewlinesLeft", .bool true),
    ("AllowShortIfStatementsOnASingleLine", .bool true),
    ("AllowShortLoopsOnASingleLine", .bool true),
    ("AlwaysBreakBeforeMultilineStrings", .bool true),
    ("AlwaysBreakTemplateDeclarations", .bool true),
    ("ConstructorInitializerAllOnOneLineOrOnePerLine", .bool true),
    ("Cpp11BracedListStyle", .bool true), ("DerivePointerBinding", .bool true),
    ("IndentCaseLabels", .bool true), ("IndentFunctionDeclarationAfterType", .bool true),
    ("ObjCSpaceBeforeProtocolList", .bool false), ("PointerBindsToType", .bool true),
    ("SpacesBeforeTrailingComments", .int 2), ("Standard", .choice "Auto"),
    ("PenaltyReturnTypeOnItsOwnLine", .int 200),
    ("PenaltyBreakBeforeFirstCallParameter", .int 1)]⟩] []

def chromiumStyle : StyleContent := .layered googleStyle none [
  ⟨.always, [
    ("AllowAllParametersOfDeclarationOnNextLine", .bool false),
    ("AllowShortIfStatementsOnASingleLine", .bool false),
    ("AllowShortLoopsOnASingleLine", .bool false), ("BinPackParameters", .bool false),
    ("DerivePointerBinding", .bool false), ("Standard", .choice "Cpp03")]⟩] []

def llvmStyle : StyleContent := .layered .baseline none [] []

def mozillaStyle : StyleContent := .layered llvmStyle none [
  ⟨.always, [
    ("AllowAllParametersOfDeclarationOnNextLine", .bool false),
    ("ConstructorInitializerAllOnOneLineOrOnePerLine", .bool true),
    ("DerivePointerBinding", .bool true), ("IndentCaseLabels", .bool true),
    ("ObjCSpaceBeforeProtocolList", .bool false), ("PenaltyReturnTypeOnItsOwnLine", .int 200),
    ("PointerBindsToType", .bool true)]⟩] []

def webkitStyle : StyleContent := .layered llvmStyle none [
  ⟨.always, [
    ("AccessModifierOffset", .int (-4)), ("AlignTrailingComments", .bool false),
    ("BreakBeforeBinaryOperators", .bool true), ("BreakBeforeBraces", .choice "Stroustrup"),
    ("BreakConstructorInitializersBeforeComma", .bool true), ("ColumnLimit", .int 0),
    ("IndentWidth", .int 4), ("NamespaceIndentation", .choice "Inner"),
    ("PointerBindsToType", .bool true)]⟩] []

/-- The styles in the order in which a record is compared with them. -/
def styles : List NamedStyle := [
  ⟨"chromium", chromiumStyle⟩,
  ⟨"google", googleStyle⟩,
  ⟨"llvm", llvmStyle⟩,
  ⟨"mozilla", mozillaStyle⟩,
  ⟨"webkit", webkitStyle⟩]

/-! ## The schema -/

def legacy : List Legacy := []

/-- **Version 3.4.** -/
def schema : Schema where
  version := .v3_4
  fields := fields
  languages := [.cpp]
  styles := styles
  legacy := legacy
  presets := []
  constraints := []
  derivations := []
  conventions := ⟨false, .malformed, false, false⟩

end FormatStyle.Catalogue.V34
