import FormatStyle.Schema

/-! # Version 3.6

The first version with one document per language. Unknown keys are ignored.
-/

namespace FormatStyle.Catalogue.V36

/-! ## Enumerations -/

def languageStandard : Enumeration := ⟨"LanguageStandard",
  [
    ("Cpp03", "Cpp03"), ("C++03", "Cpp03"), ("Cpp11", "Cpp11"), ("C++11", "Cpp11"),
    ("Auto", "Auto")]⟩

def useTab : Enumeration := ⟨"UseTabStyle",
  [
    ("Never", "Never"), ("false", "Never"), ("Always", "Always"), ("true", "Always"),
    ("ForIndentation", "ForIndentation")]⟩

def shortFunction : Enumeration := ⟨"ShortFunctionStyle",
  [
    ("None", "None"), ("false", "None"), ("All", "All"), ("true", "All"), ("Inline", "Inline"),
    ("Empty", "Empty")]⟩

def binaryOperator : Enumeration := ⟨"BinaryOperatorStyle",
  [
    ("All", "All"), ("true", "All"), ("None", "None"), ("false", "None"),
    ("NonAssignment", "NonAssignment")]⟩

def braceBreaking : Enumeration := ⟨"BraceBreakingStyle",
  [
    ("Attach", "Attach"), ("Linux", "Linux"), ("Stroustrup", "Stroustrup"), ("Allman", "Allman"),
    ("GNU", "GNU")]⟩

def namespaceIndentation : Enumeration := ⟨"NamespaceIndentationKind",
  [("None", "None"), ("Inner", "Inner"), ("All", "All")]⟩

def pointerAlignment : Enumeration := ⟨"PointerAlignmentStyle",
  [
    ("Middle", "Middle"), ("Left", "Left"), ("Right", "Right"), ("true", "Left"),
    ("false", "Right")]⟩

def spaceBeforeParens : Enumeration := ⟨"SpaceBeforeParensOptions",
  [
    ("Never", "Never"), ("ControlStatements", "ControlStatements"), ("Always", "Always"),
    ("false", "Never"), ("true", "ControlStatements")]⟩

/-! ## Fields -/

/-- The options, each with the value of the baseline. -/
def fields : List Field := [
  ⟨"AccessModifierOffset", .scalar .int, .int (-2)⟩,
  ⟨"AlignAfterOpenBracket", .scalar .bool, .bool true⟩,
  ⟨"AlignEscapedNewlinesLeft", .scalar .bool, .bool false⟩,
  ⟨"AlignOperands", .scalar .bool, .bool true⟩,
  ⟨"AlignTrailingComments", .scalar .bool, .bool true⟩,
  ⟨"AllowAllParametersOfDeclarationOnNextLine", .scalar .bool, .bool true⟩,
  ⟨"AllowShortBlocksOnASingleLine", .scalar .bool, .bool false⟩,
  ⟨"AllowShortCaseLabelsOnASingleLine", .scalar .bool, .bool false⟩,
  ⟨"AllowShortIfStatementsOnASingleLine", .scalar .bool, .bool false⟩,
  ⟨"AllowShortLoopsOnASingleLine", .scalar .bool, .bool false⟩,
  ⟨"AllowShortFunctionsOnASingleLine", .scalar (.choice shortFunction), .choice "All"⟩,
  ⟨"AlwaysBreakAfterDefinitionReturnType", .scalar .bool, .bool false⟩,
  ⟨"AlwaysBreakTemplateDeclarations", .scalar .bool, .bool false⟩,
  ⟨"AlwaysBreakBeforeMultilineStrings", .scalar .bool, .bool false⟩,
  ⟨"BreakBeforeBinaryOperators", .scalar (.choice binaryOperator), .choice "None"⟩,
  ⟨"BreakBeforeTernaryOperators", .scalar .bool, .bool true⟩,
  ⟨"BreakConstructorInitializersBeforeComma", .scalar .bool, .bool false⟩,
  ⟨"BinPackParameters", .scalar .bool, .bool true⟩,
  ⟨"BinPackArguments", .scalar .bool, .bool true⟩,
  ⟨"ColumnLimit", .scalar .unsigned, .int 80⟩,
  ⟨"ConstructorInitializerAllOnOneLineOrOnePerLine", .scalar .bool, .bool false⟩,
  ⟨"ConstructorInitializerIndentWidth", .scalar .unsigned, .int 4⟩,
  ⟨"DerivePointerAlignment", .scalar .bool, .bool false⟩,
  ⟨"ExperimentalAutoDetectBinPacking", .scalar .bool, .bool false⟩,
  ⟨"IndentCaseLabels", .scalar .bool, .bool false⟩,
  ⟨"IndentWrappedFunctionNames", .scalar .bool, .bool false⟩,
  ⟨"MaxEmptyLinesToKeep", .scalar .unsigned, .int 1⟩,
  ⟨"KeepEmptyLinesAtTheStartOfBlocks", .scalar .bool, .bool true⟩,
  ⟨"NamespaceIndentation", .scalar (.choice namespaceIndentation), .choice "None"⟩,
  ⟨"ObjCBlockIndentWidth", .scalar .unsigned, .int 2⟩,
  ⟨"ObjCSpaceAfterProperty", .scalar .bool, .bool false⟩,
  ⟨"ObjCSpaceBeforeProtocolList", .scalar .bool, .bool true⟩,
  ⟨"PenaltyBreakBeforeFirstCallParameter", .scalar .unsigned, .int 19⟩,
  ⟨"PenaltyBreakComment", .scalar .unsigned, .int 300⟩,
  ⟨"PenaltyBreakString", .scalar .unsigned, .int 1000⟩,
  ⟨"PenaltyBreakFirstLessLess", .scalar .unsigned, .int 120⟩,
  ⟨"PenaltyExcessCharacter", .scalar .unsigned, .int 1000000⟩,
  ⟨"PenaltyReturnTypeOnItsOwnLine", .scalar .unsigned, .int 60⟩,
  ⟨"PointerAlignment", .scalar (.choice pointerAlignment), .choice "Right"⟩,
  ⟨"SpacesBeforeTrailingComments", .scalar .unsigned, .int 1⟩,
  ⟨"Cpp11BracedListStyle", .scalar .bool, .bool true⟩,
  ⟨"Standard", .scalar (.choice languageStandard), .choice "Cpp11"⟩,
  ⟨"IndentWidth", .scalar .unsigned, .int 2⟩,
  ⟨"TabWidth", .scalar .unsigned, .int 8⟩,
  ⟨"UseTab", .scalar (.choice useTab), .choice "Never"⟩,
  ⟨"BreakBeforeBraces", .scalar (.choice braceBreaking), .choice "Attach"⟩,
  ⟨"SpacesInParentheses", .scalar .bool, .bool false⟩,
  ⟨"SpacesInSquareBrackets", .scalar .bool, .bool false⟩,
  ⟨"SpacesInAngles", .scalar .bool, .bool false⟩,
  ⟨"SpaceInEmptyParentheses", .scalar .bool, .bool false⟩,
  ⟨"SpacesInCStyleCastParentheses", .scalar .bool, .bool false⟩,
  ⟨"SpaceAfterCStyleCast", .scalar .bool, .bool false⟩,
  ⟨"SpacesInContainerLiterals", .scalar .bool, .bool true⟩,
  ⟨"SpaceBeforeAssignmentOperators", .scalar .bool, .bool true⟩,
  ⟨"ContinuationIndentWidth", .scalar .unsigned, .int 4⟩,
  ⟨"CommentPragmas", .scalar .str, .str "^ IWYU pragma:"⟩,
  ⟨"ForEachMacros", .scalar .strList, .list ["foreach", "Q_FOREACH", "BOOST_FOREACH"]⟩,
  ⟨"SpaceBeforeParens", .scalar (.choice spaceBeforeParens), .choice "ControlStatements"⟩,
  ⟨"DisableFormat", .scalar .bool, .bool false⟩]

/-! ## Styles -/

def llvmStyle : StyleContent := .layered .baseline none [] []

def googleStyle : StyleContent := .layered llvmStyle none [
  ⟨.always, [
    ("AccessModifierOffset", .int (-1)), ("AlignEscapedNewlinesLeft", .bool true),
    ("AllowShortIfStatementsOnASingleLine", .bool true),
    ("AllowShortLoopsOnASingleLine", .bool true),
    ("AlwaysBreakBeforeMultilineStrings", .bool true),
    ("AlwaysBreakTemplateDeclarations", .bool true),
    ("ConstructorInitializerAllOnOneLineOrOnePerLine", .bool true),
    ("DerivePointerAlignment", .bool true), ("IndentCaseLabels", .bool true),
    ("KeepEmptyLinesAtTheStartOfBlocks", .bool false), ("ObjCSpaceAfterProperty", .bool false),
    ("ObjCSpaceBeforeProtocolList", .bool false), ("PointerAlignment", .choice "Left"),
    ("SpacesBeforeTrailingComments", .int 2), ("Standard", .choice "Auto"),
    ("PenaltyReturnTypeOnItsOwnLine", .int 200),
    ("PenaltyBreakBeforeFirstCallParameter", .int 1)]⟩,
  ⟨.only [.java], [
    ("AlignAfterOpenBracket", .bool false), ("AlignOperands", .bool false),
    ("AlignTrailingComments", .bool false),
    ("AllowShortFunctionsOnASingleLine", .choice "Empty"),
    ("AllowShortIfStatementsOnASingleLine", .bool false),
    ("AlwaysBreakBeforeMultilineStrings", .bool false),
    ("BreakBeforeBinaryOperators", .choice "NonAssignment"), ("ColumnLimit", .int 100),
    ("SpaceAfterCStyleCast", .bool true), ("SpacesBeforeTrailingComments", .int 1)]⟩,
  ⟨.only [.javaScript], [
    ("BreakBeforeTernaryOperators", .bool false), ("MaxEmptyLinesToKeep", .int 3),
    ("SpacesInContainerLiterals", .bool false),
    ("AllowShortFunctionsOnASingleLine", .choice "Inline"),
    ("AlwaysBreakBeforeMultilineStrings", .bool false)]⟩,
  ⟨.only [.proto], [
    ("AllowShortFunctionsOnASingleLine", .choice "None"),
    ("SpacesInContainerLiterals", .bool false)]⟩] []

def chromiumStyle : StyleContent := .layered googleStyle none [
  ⟨.only [.java], [
    ("AllowShortIfStatementsOnASingleLine", .bool true), ("IndentWidth", .int 4),
    ("ContinuationIndentWidth", .int 8)]⟩,
  ⟨.except [.java], [
    ("AllowAllParametersOfDeclarationOnNextLine", .bool false),
    ("AllowShortFunctionsOnASingleLine", .choice "Inline"),
    ("AllowShortIfStatementsOnASingleLine", .bool false),
    ("AllowShortLoopsOnASingleLine", .bool false), ("BinPackParameters", .bool false),
    ("DerivePointerAlignment", .bool false)]⟩] []

def gnuStyle : StyleContent := .layered llvmStyle none [
  ⟨.always, [
    ("AlwaysBreakAfterDefinitionReturnType", .bool true),
    ("BreakBeforeBinaryOperators", .choice "All"), ("BreakBeforeBraces", .choice "GNU"),
    ("BreakBeforeTernaryOperators", .bool true), ("Cpp11BracedListStyle", .bool false),
    ("ColumnLimit", .int 79), ("SpaceBeforeParens", .choice "Always"),
    ("Standard", .choice "Cpp03")]⟩] []

def mozillaStyle : StyleContent := .layered llvmStyle none [
  ⟨.always, [
    ("AllowAllParametersOfDeclarationOnNextLine", .bool false),
    ("Cpp11BracedListStyle", .bool false),
    ("ConstructorInitializerAllOnOneLineOrOnePerLine", .bool true),
    ("DerivePointerAlignment", .bool true), ("IndentCaseLabels", .bool true),
    ("ObjCSpaceAfterProperty", .bool true), ("ObjCSpaceBeforeProtocolList", .bool false),
    ("PenaltyReturnTypeOnItsOwnLine", .int 200), ("PointerAlignment", .choice "Left"),
    ("Standard", .choice "Cpp03")]⟩] []

def noneStyle : StyleContent := .layered llvmStyle none [
  ⟨.always, [
    ("DisableFormat", .bool true)]⟩] []

def webkitStyle : StyleContent := .layered llvmStyle none [
  ⟨.always, [
    ("AccessModifierOffset", .int (-4)), ("AlignAfterOpenBracket", .bool false),
    ("AlignOperands", .bool false), ("AlignTrailingComments", .bool false),
    ("BreakBeforeBinaryOperators", .choice "All"), ("BreakBeforeBraces", .choice "Stroustrup"),
    ("BreakConstructorInitializersBeforeComma", .bool true),
    ("Cpp11BracedListStyle", .bool false), ("ColumnLimit", .int 0), ("IndentWidth", .int 4),
    ("NamespaceIndentation", .choice "Inner"), ("ObjCBlockIndentWidth", .int 4),
    ("ObjCSpaceAfterProperty", .bool true), ("PointerAlignment", .choice "Left"),
    ("Standard", .choice "Cpp03")]⟩] []

/-- The styles in the order in which a record is compared with them. -/
def styles : List NamedStyle := [
  ⟨"chromium", chromiumStyle⟩,
  ⟨"gnu", gnuStyle⟩,
  ⟨"google", googleStyle⟩,
  ⟨"llvm", llvmStyle⟩,
  ⟨"mozilla", mozillaStyle⟩,
  ⟨"none", noneStyle⟩,
  ⟨"webkit", webkitStyle⟩]

/-! ## The schema -/

/-- Keys of the version before that are still read. -/
def legacy : List Legacy := [
  .synonym "IndentFunctionDeclarationAfterType" "IndentWrappedFunctionNames",
  .synonym "SpaceAfterControlStatementKeyword" "SpaceBeforeParens",
  .synonym "PointerBindsToType" "PointerAlignment",
  .synonym "DerivePointerBinding" "DerivePointerAlignment"]

/-- **Version 3.6.** -/
def schema : Schema where
  version := .v3_6
  fields := fields
  languages := [.cpp, .java, .javaScript, .proto]
  styles := styles
  legacy := legacy
  presets := []
  constraints := []
  derivations := []
  conventions := ⟨false, .noDocuments, true, false⟩

end FormatStyle.Catalogue.V36
