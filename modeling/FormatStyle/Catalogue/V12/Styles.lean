import FormatStyle.Schema

/-! # Styles of version 12

Every style as layers on top of another one.
-/

namespace FormatStyle.Catalogue.V12

def javaImportGroups : List String := [
  "android", "androidx", "com", "dalvik", "junit", "org", "com.google.android.apps.chrome",
  "org.chromium", "java", "javax"]

def llvmStyle : StyleContent := .layered .baseline none [
  ⟨.only [.tableGen], [
    ("SpacesInContainerLiterals", .bool false)]⟩] []

def googleStyle : StyleContent := .layered llvmStyle none [
  ⟨.always, [
    ("AccessModifierOffset", .int (-1)), ("AlignEscapedNewlines", .choice "Left"),
    ("AllowShortIfStatementsOnASingleLine", .choice "WithoutElse"),
    ("AllowShortLoopsOnASingleLine", .bool true),
    ("AlwaysBreakBeforeMultilineStrings", .bool true),
    ("AlwaysBreakTemplateDeclarations", .choice "Yes"),
    ("ConstructorInitializerAllOnOneLineOrOnePerLine", .bool true),
    ("DerivePointerAlignment", .bool true),
    ("IncludeCategories", .records [[("Regex", .str "^<ext/.*\\.h>"), ("Priority", .int 2)],
      [("Regex", .str "^<.*\\.h>"), ("Priority", .int 1)], [("Regex", .str "^<.*"), ("Priority",
      .int 2)], [("Regex", .str ".*"), ("Priority", .int 3)]]),
    ("IncludeIsMainRegex", .str "([-_](test|unittest))?$"),
    ("IncludeBlocks", .choice "Regroup"), ("IndentCaseLabels", .bool true),
    ("KeepEmptyLinesAtTheStartOfBlocks", .bool false),
    ("ObjCBinPackProtocolList", .choice "Never"), ("ObjCSpaceAfterProperty", .bool false),
    ("ObjCSpaceBeforeProtocolList", .bool true), ("PointerAlignment", .choice "Left"),
    ("RawStringFormats", .records [[("Language", .choice "Cpp"), ("Delimiters", .list ["cc", "CC",
      "cpp", "Cpp", "CPP", "c++", "C++"]), ("BasedOnStyle", .str "google")], [("Language",
      .choice "TextProto"), ("Delimiters", .list ["pb", "PB", "proto", "PROTO"]),
      ("EnclosingFunctions", .list ["EqualsProto", "EquivToProto", "PARSE_PARTIAL_TEXT_PROTO",
      "PARSE_TEST_PROTO", "PARSE_TEXT_PROTO", "ParseTextOrDie", "ParseTextProtoOrDie",
      "ParseTestProto", "ParsePartialTestProto"]), ("BasedOnStyle", .str "google")]]),
    ("SpacesBeforeTrailingComments", .int 2), ("Standard", .choice "Auto"),
    ("PenaltyReturnTypeOnItsOwnLine", .int 200),
    ("PenaltyBreakBeforeFirstCallParameter", .int 1)]⟩,
  ⟨.only [.java], [
    ("AlignAfterOpenBracket", .choice "DontAlign"), ("AlignOperands", .choice "DontAlign"),
    ("AlignTrailingComments", .bool false),
    ("AllowShortFunctionsOnASingleLine", .choice "Empty"),
    ("AllowShortIfStatementsOnASingleLine", .choice "Never"),
    ("AlwaysBreakBeforeMultilineStrings", .bool false),
    ("BreakBeforeBinaryOperators", .choice "NonAssignment"), ("ColumnLimit", .int 100),
    ("SpaceAfterCStyleCast", .bool true), ("SpacesBeforeTrailingComments", .int 1)]⟩,
  ⟨.only [.javaScript], [
    ("AlignAfterOpenBracket", .choice "AlwaysBreak"), ("AlignOperands", .choice "DontAlign"),
    ("AllowShortFunctionsOnASingleLine", .choice "Empty"),
    ("AllowShortLambdasOnASingleLine", .choice "Empty"),
    ("AlwaysBreakBeforeMultilineStrings", .bool false),
    ("BreakBeforeTernaryOperators", .bool false),
    ("CommentPragmas", .str "(taze:|^/[ \t]*<|tslint:|@see)"), ("MaxEmptyLinesToKeep", .int 3),
    ("NamespaceIndentation", .choice "All"), ("SpacesInContainerLiterals", .bool false),
    ("JavaScriptQuotes", .choice "Single"), ("JavaScriptWrapImports", .bool false)]⟩,
  ⟨.only [.proto], [
    ("AllowShortFunctionsOnASingleLine", .choice "Empty"),
    ("AlwaysBreakBeforeMultilineStrings", .bool false),
    ("SpacesInContainerLiterals", .bool false), ("Cpp11BracedListStyle", .bool false),
    ("BreakStringLiterals", .bool false)]⟩,
  ⟨.only [.objC], [
    ("AlwaysBreakBeforeMultilineStrings", .bool false), ("ColumnLimit", .int 100),
    ("IncludeBlocks", .choice "Preserve")]⟩,
  ⟨.only [.cSharp], [
    ("AllowShortFunctionsOnASingleLine", .choice "Empty"),
    ("AllowShortIfStatementsOnASingleLine", .choice "Never"),
    ("BreakStringLiterals", .bool false), ("ColumnLimit", .int 100),
    ("NamespaceIndentation", .choice "All")]⟩] [(.textProto, .proto)]

def chromiumStyle : StyleContent := .layered googleStyle none [
  ⟨.always, [
    ("IncludeBlocks", .choice "Preserve")]⟩,
  ⟨.only [.java], [
    ("AllowShortIfStatementsOnASingleLine", .choice "WithoutElse"),
    ("BreakAfterJavaFieldAnnotations", .bool true), ("ContinuationIndentWidth", .int 8),
    ("IndentWidth", .int 4), ("JavaImportGroups", .list javaImportGroups),
    ("SortIncludes", .bool true)]⟩,
  ⟨.only [.javaScript], [
    ("AllowShortIfStatementsOnASingleLine", .choice "Never"),
    ("AllowShortLoopsOnASingleLine", .bool false)]⟩,
  ⟨.except [.java, .javaScript], [
    ("AllowAllParametersOfDeclarationOnNextLine", .bool false),
    ("AllowShortFunctionsOnASingleLine", .choice "Inline"),
    ("AllowShortIfStatementsOnASingleLine", .choice "Never"),
    ("AllowShortLoopsOnASingleLine", .bool false), ("BinPackParameters", .bool false),
    ("DerivePointerAlignment", .bool false)]⟩,
  ⟨.only [.objC], [
    ("ColumnLimit", .int 80)]⟩] []

def gnuStyle : StyleContent := .layered llvmStyle (some .cpp) [
  ⟨.always, [
    ("AlwaysBreakAfterDefinitionReturnType", .choice "All"),
    ("AlwaysBreakAfterReturnType", .choice "AllDefinitions"),
    ("BreakBeforeBinaryOperators", .choice "All"), ("BreakBeforeBraces", .choice "GNU"),
    ("BreakBeforeTernaryOperators", .bool true), ("Cpp11BracedListStyle", .bool false),
    ("ColumnLimit", .int 79), ("FixNamespaceComments", .bool false),
    ("SpaceBeforeParens", .choice "Always"), ("Standard", .choice "Cpp03")]⟩] []

def microsoftStyle : StyleContent := .layered llvmStyle none [
  ⟨.always, [
    ("ColumnLimit", .int 120), ("TabWidth", .int 4), ("IndentWidth", .int 4),
    ("UseTab", .choice "Never"), ("BreakBeforeBraces", .choice "Custom"),
    ("BraceWrapping", .record [("AfterClass", .bool true), ("AfterControlStatement",
      .choice "Always"), ("AfterEnum", .bool true), ("AfterFunction", .bool true),
      ("AfterNamespace", .bool true), ("AfterObjCDeclaration", .bool true), ("AfterStruct",
      .bool true), ("AfterExternBlock", .bool true), ("BeforeCatch", .bool true), ("BeforeElse",
      .bool true), ("BeforeWhile", .bool false)]),
    ("IndentExternBlock", .choice "AfterExternBlock"),
    ("PenaltyReturnTypeOnItsOwnLine", .int 1000), ("AllowShortEnumsOnASingleLine", .bool false),
    ("AllowShortFunctionsOnASingleLine", .choice "None"),
    ("AllowShortCaseLabelsOnASingleLine", .bool false),
    ("AllowShortIfStatementsOnASingleLine", .choice "Never"),
    ("AllowShortLoopsOnASingleLine", .bool false),
    ("AlwaysBreakAfterDefinitionReturnType", .choice "None"),
    ("AlwaysBreakAfterReturnType", .choice "None")]⟩] []

def mozillaStyle : StyleContent := .layered llvmStyle (some .cpp) [
  ⟨.always, [
    ("AllowAllParametersOfDeclarationOnNextLine", .bool false),
    ("AllowShortFunctionsOnASingleLine", .choice "Inline"),
    ("AlwaysBreakAfterReturnType", .choice "TopLevel"),
    ("AlwaysBreakAfterDefinitionReturnType", .choice "TopLevel"),
    ("AlwaysBreakTemplateDeclarations", .choice "Yes"), ("BinPackParameters", .bool false),
    ("BinPackArguments", .bool false), ("BreakBeforeBraces", .choice "Mozilla"),
    ("BreakConstructorInitializers", .choice "BeforeComma"),
    ("BreakInheritanceList", .choice "BeforeComma"),
    ("ConstructorInitializerIndentWidth", .int 2), ("ContinuationIndentWidth", .int 2),
    ("Cpp11BracedListStyle", .bool false), ("FixNamespaceComments", .bool false),
    ("IndentCaseLabels", .bool true), ("ObjCSpaceAfterProperty", .bool true),
    ("ObjCSpaceBeforeProtocolList", .bool false), ("PenaltyReturnTypeOnItsOwnLine", .int 200),
    ("PointerAlignment", .choice "Left"), ("SpaceAfterTemplateKeyword", .bool false)]⟩] []

def noneStyle : StyleContent := .layered llvmStyle (some .cpp) [
  ⟨.always, [
    ("DisableFormat", .bool true), ("SortIncludes", .bool false),
    ("SortUsingDeclarations", .bool false)]⟩] []

def webkitStyle : StyleContent := .layered llvmStyle (some .cpp) [
  ⟨.always, [
    ("AccessModifierOffset", .int (-4)), ("AlignAfterOpenBracket", .choice "DontAlign"),
    ("AlignOperands", .choice "DontAlign"), ("AlignTrailingComments", .bool false),
    ("AllowShortBlocksOnASingleLine", .choice "Empty"),
    ("BreakBeforeBinaryOperators", .choice "All"), ("BreakBeforeBraces", .choice "WebKit"),
    ("BreakConstructorInitializers", .choice "BeforeComma"),
    ("Cpp11BracedListStyle", .bool false), ("ColumnLimit", .int 0),
    ("FixNamespaceComments", .bool false), ("IndentWidth", .int 4),
    ("NamespaceIndentation", .choice "Inner"), ("ObjCBlockIndentWidth", .int 4),
    ("ObjCSpaceAfterProperty", .bool true), ("PointerAlignment", .choice "Left"),
    ("SpaceBeforeCpp11BracedList", .bool true), ("SpaceInEmptyBlock", .bool true)]⟩] []

/-- The styles in the order in which a record is compared with them. -/
def styles : List NamedStyle := [
  ⟨"chromium", chromiumStyle⟩,
  ⟨"gnu", gnuStyle⟩,
  ⟨"google", googleStyle⟩,
  ⟨"llvm", llvmStyle⟩,
  ⟨"microsoft", microsoftStyle⟩,
  ⟨"mozilla", mozillaStyle⟩,
  ⟨"none", noneStyle⟩,
  ⟨"webkit", webkitStyle⟩]

end FormatStyle.Catalogue.V12
