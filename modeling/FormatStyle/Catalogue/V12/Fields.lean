import FormatStyle.Catalogue.V12.Enumerations
import FormatStyle.Schema

/-! # Options of version 12

The part tables of the record options and the table of all options.
-/

namespace FormatStyle.Catalogue.V12

def braceWrapping : List Part := [
  ⟨"AfterCaseLabel", .bool⟩, ⟨"AfterClass", .bool⟩,
  ⟨"AfterControlStatement", .choice afterControlStatement⟩, ⟨"AfterEnum", .bool⟩,
  ⟨"AfterFunction", .bool⟩, ⟨"AfterNamespace", .bool⟩, ⟨"AfterObjCDeclaration", .bool⟩,
  ⟨"AfterStruct", .bool⟩, ⟨"AfterUnion", .bool⟩, ⟨"AfterExternBlock", .bool⟩,
  ⟨"BeforeCatch", .bool⟩, ⟨"BeforeElse", .bool⟩, ⟨"BeforeLambdaBody", .bool⟩,
  ⟨"BeforeWhile", .bool⟩, ⟨"IndentBraces", .bool⟩, ⟨"SplitEmptyFunction", .bool⟩,
  ⟨"SplitEmptyRecord", .bool⟩, ⟨"SplitEmptyNamespace", .bool⟩]

def includeCategory : List Part := [
  ⟨"Regex", .str⟩, ⟨"Priority", .int⟩, ⟨"SortPriority", .int⟩, ⟨"CaseSensitive", .bool⟩]

def rawStringFormat : List Part := [
  ⟨"Language", .choice rawStringLanguage⟩, ⟨"Delimiters", .strList⟩,
  ⟨"EnclosingFunctions", .strList⟩, ⟨"CanonicalDelimiter", .str⟩, ⟨"BasedOnStyle", .str⟩]

/-- Braces stay on their line: the wrapping that every brace style starts from. -/
def attachWrapping : List (String × Literal) := [
  ("AfterCaseLabel", .bool false), ("AfterClass", .bool false),
  ("AfterControlStatement", .choice "Never"), ("AfterEnum", .bool false),
  ("AfterFunction", .bool false), ("AfterNamespace", .bool false),
  ("AfterObjCDeclaration", .bool false), ("AfterStruct", .bool false),
  ("AfterUnion", .bool false), ("AfterExternBlock", .bool false), ("BeforeCatch", .bool false),
  ("BeforeElse", .bool false), ("BeforeLambdaBody", .bool false), ("BeforeWhile", .bool false),
  ("IndentBraces", .bool false), ("SplitEmptyFunction", .bool true),
  ("SplitEmptyRecord", .bool true), ("SplitEmptyNamespace", .bool true)]

/-- The options, each with the value of the baseline. -/
def fields : List Field := [
  ⟨"AccessModifierOffset", .scalar .int, .int (-2)⟩,
  ⟨"AlignAfterOpenBracket", .scalar (.choice bracketAlignment), .choice "Align"⟩,
  ⟨"AlignConsecutiveMacros", .scalar (.choice alignConsecutive), .choice "None"⟩,
  ⟨"AlignConsecutiveAssignments", .scalar (.choice alignConsecutive), .choice "None"⟩,
  ⟨"AlignConsecutiveBitFields", .scalar (.choice alignConsecutive), .choice "None"⟩,
  ⟨"AlignConsecutiveDeclarations", .scalar (.choice alignConsecutive), .choice "None"⟩,
  ⟨"AlignEscapedNewlines", .scalar (.choice escapedNewlineAlignment), .choice "Right"⟩,
  ⟨"AlignOperands", .scalar (.choice operandAlignment), .choice "Align"⟩,
  ⟨"AlignTrailingComments", .scalar .bool, .bool true⟩,
  ⟨"AllowAllArgumentsOnNextLine", .scalar .bool, .bool true⟩,
  ⟨"AllowAllConstructorInitializersOnNextLine", .scalar .bool, .bool true⟩,
  ⟨"AllowAllParametersOfDeclarationOnNextLine", .scalar .bool, .bool true⟩,
  ⟨"AllowShortEnumsOnASingleLine", .scalar .bool, .bool true⟩,
  ⟨"AllowShortBlocksOnASingleLine", .scalar (.choice shortBlock), .choice "Never"⟩,
  ⟨"AllowShortCaseLabelsOnASingleLine", .scalar .bool, .bool false⟩,
  ⟨"AllowShortFunctionsOnASingleLine", .scalar (.choice shortFunction), .choice "All"⟩,
  ⟨"AllowShortLambdasOnASingleLine", .scalar (.choice shortLambda), .choice "All"⟩,
  ⟨"AllowShortIfStatementsOnASingleLine", .scalar (.choice shortIf), .choice "Never"⟩,
  ⟨"AllowShortLoopsOnASingleLine", .scalar .bool, .bool false⟩,
  ⟨"AlwaysBreakAfterDefinitionReturnType", .scalar (.choice definitionReturnTypeBreaking),
    .choice "None"⟩,
  ⟨"AlwaysBreakAfterReturnType", .scalar (.choice returnTypeBreaking), .choice "None"⟩,
  ⟨"AlwaysBreakBeforeMultilineStrings", .scalar .bool, .bool false⟩,
  ⟨"AlwaysBreakTemplateDeclarations", .scalar (.choice breakTemplateDeclarations),
    .choice "MultiLine"⟩,
  ⟨"AttributeMacros", .scalar .strList, .list ["__capability"]⟩,
  ⟨"BinPackArguments", .scalar .bool, .bool true⟩,
  ⟨"BinPackParameters", .scalar .bool, .bool true⟩,
  ⟨"BraceWrapping", .record braceWrapping, .record attachWrapping⟩,
  ⟨"BreakBeforeBinaryOperators", .scalar (.choice binaryOperator), .choice "None"⟩,
  ⟨"BreakBeforeConceptDeclarations", .scalar .bool, .bool true⟩,
  ⟨"BreakBeforeBraces", .scalar (.choice braceBreaking), .choice "Attach"⟩,
  ⟨"BreakInheritanceList", .scalar (.choice breakInheritanceList), .choice "BeforeColon"⟩,
  ⟨"BreakBeforeTernaryOperators", .scalar .bool, .bool true⟩,
  ⟨"BreakConstructorInitializers", .scalar (.choice breakConstructorInitializers),
    .choice "BeforeColon"⟩,
  ⟨"BreakAfterJavaFieldAnnotations", .scalar .bool, .bool false⟩,
  ⟨"BreakStringLiterals", .scalar .bool, .bool true⟩,
  ⟨"ColumnLimit", .scalar .unsigned, .int 80⟩,
  ⟨"CommentPragmas", .scalar .str, .str "^ IWYU pragma:"⟩,
  ⟨"CompactNamespaces", .scalar .bool, .bool false⟩,
  ⟨"ConstructorInitializerAllOnOneLineOrOnePerLine", .scalar .bool, .bool false⟩,
  ⟨"ConstructorInitializerIndentWidth", .scalar .unsigned, .int 4⟩,
  ⟨"ContinuationIndentWidth", .scalar .unsigned, .int 4⟩,
  ⟨"Cpp11BracedListStyle", .scalar .bool, .bool true⟩,
  ⟨"DeriveLineEnding", .scalar .bool, .bool true⟩,
  ⟨"DerivePointerAlignment", .scalar .bool, .bool false⟩,
  ⟨"DisableFormat", .scalar .bool, .bool false⟩,
  ⟨"EmptyLineBeforeAccessModifier", .scalar (.choice emptyLineBeforeAccessModifier),
    .choice "LogicalBlock"⟩,
  ⟨"ExperimentalAutoDetectBinPacking", .scalar .bool, .bool false⟩,
  ⟨"FixNamespaceComments", .scalar .bool, .bool true⟩,
  ⟨"ForEachMacros", .scalar .strList, .list ["foreach", "Q_FOREACH", "BOOST_FOREACH"]⟩,
  ⟨"StatementAttributeLikeMacros", .scalar .strList, .list ["Q_EMIT"]⟩,
  ⟨"IncludeBlocks", .scalar (.choice includeBlocks), .choice "Preserve"⟩,
  ⟨"IncludeCategories", .recordList includeCategory, .records [[("Regex",
    .str "^\"(llvm|llvm-c|clang|clang-c)/"), ("Priority", .int 2)], [("Regex",
    .str "^(<|\"(gtest|gmock|isl|json)/)"), ("Priority", .int 3)], [("Regex", .str ".*"),
    ("Priority", .int 1)]]⟩,
  ⟨"IncludeIsMainRegex", .scalar .str, .str "(Test)?$"⟩,
  ⟨"IncludeIsMainSourceRegex", .scalar .str, .str ""⟩,
  ⟨"IndentCaseLabels", .scalar .bool, .bool false⟩,
  ⟨"IndentCaseBlocks", .scalar .bool, .bool false⟩,
  ⟨"IndentGotoLabels", .scalar .bool, .bool true⟩,
  ⟨"IndentPPDirectives", .scalar (.choice ppDirectiveIndent), .choice "None"⟩,
  ⟨"IndentExternBlock", .scalar (.choice indentExternBlock), .choice "AfterExternBlock"⟩,
  ⟨"IndentRequires", .scalar .bool, .bool false⟩,
  ⟨"IndentWidth", .scalar .unsigned, .int 2⟩,
  ⟨"IndentWrappedFunctionNames", .scalar .bool, .bool false⟩,
  ⟨"InsertTrailingCommas", .scalar (.choice trailingComma), .choice "None"⟩,
  ⟨"JavaImportGroups", .scalar .strList, .list []⟩,
  ⟨"JavaScriptQuotes", .scalar (.choice javascriptQuote), .choice "Leave"⟩,
  ⟨"JavaScriptWrapImports", .scalar .bool, .bool true⟩,
  ⟨"KeepEmptyLinesAtTheStartOfBlocks", .scalar .bool, .bool true⟩,
  ⟨"MacroBlockBegin", .scalar .str, .str ""⟩,
  ⟨"MacroBlockEnd", .scalar .str, .str ""⟩,
  ⟨"MaxEmptyLinesToKeep", .scalar .unsigned, .int 1⟩,
  ⟨"NamespaceIndentation", .scalar (.choice namespaceIndentation), .choice "None"⟩,
  ⟨"NamespaceMacros", .scalar .strList, .list []⟩,
  ⟨"ObjCBinPackProtocolList", .scalar (.choice binPack), .choice "Auto"⟩,
  ⟨"ObjCBlockIndentWidth", .scalar .unsigned, .int 2⟩,
  ⟨"ObjCBreakBeforeNestedBlockParam", .scalar .bool, .bool true⟩,
  ⟨"ObjCSpaceAfterProperty", .scalar .bool, .bool false⟩,
  ⟨"ObjCSpaceBeforeProtocolList", .scalar .bool, .bool true⟩,
  ⟨"PenaltyBreakAssignment", .scalar .unsigned, .int 2⟩,
  ⟨"PenaltyBreakBeforeFirstCallParameter", .scalar .unsigned, .int 19⟩,
  ⟨"PenaltyBreakComment", .scalar .unsigned, .int 300⟩,
  ⟨"PenaltyBreakFirstLessLess", .scalar .unsigned, .int 120⟩,
  ⟨"PenaltyBreakString", .scalar .unsigned, .int 1000⟩,
  ⟨"PenaltyBreakTemplateDeclaration", .scalar .unsigned, .int 10⟩,
  ⟨"PenaltyExcessCharacter", .scalar .unsigned, .int 1000000⟩,
  ⟨"PenaltyReturnTypeOnItsOwnLine", .scalar .unsigned, .int 60⟩,
  ⟨"PenaltyIndentedWhitespace", .scalar .unsigned, .int 0⟩,
  ⟨"PointerAlignment", .scalar (.choice pointerAlignment), .choice "Right"⟩,
  ⟨"RawStringFormats", .recordList rawStringFormat, .records []⟩,
  ⟨"ReflowComments", .scalar .bool, .bool true⟩,
  ⟨"SortIncludes", .scalar .bool, .bool true⟩,
  ⟨"SortJavaStaticImport", .scalar (.choice sortJavaStaticImport), .choice "Before"⟩,
  ⟨"SortUsingDeclarations", .scalar .bool, .bool true⟩,
  ⟨"SpaceAfterCStyleCast", .scalar .bool, .bool false⟩,
  ⟨"SpaceAfterLogicalNot", .scalar .bool, .bool false⟩,
  ⟨"SpaceAfterTemplateKeyword", .scalar .bool, .bool true⟩,
  ⟨"SpaceBeforeAssignmentOperators", .scalar .bool, .bool true⟩,
  ⟨"SpaceBeforeCaseColon", .scalar .bool, .bool false⟩,
  ⟨"SpaceBeforeCpp11BracedList", .scalar .bool, .bool false⟩,
  ⟨"SpaceBeforeCtorInitializerColon", .scalar .bool, .bool true⟩,
  ⟨"SpaceBeforeInheritanceColon", .scalar .bool, .bool true⟩,
  ⟨"SpaceBeforeParens", .scalar (.choice spaceBeforeParens), .choice "ControlStatements"⟩,
  ⟨"SpaceAroundPointerQualifiers", .scalar (.choice spaceAroundPointerQualifiers),
    .choice "Default"⟩,
  ⟨"SpaceBeforeRangeBasedForLoopColon", .scalar .bool, .bool true⟩,
  ⟨"SpaceInEmptyBlock", .scalar .bool, .bool false⟩,
  ⟨"SpaceInEmptyParentheses", .scalar .bool, .bool false⟩,
  ⟨"SpacesBeforeTrailingComments", .scalar .unsigned, .int 1⟩,
  ⟨"SpacesInAngles", .scalar .bool, .bool false⟩,
  ⟨"SpacesInConditionalStatement", .scalar .bool, .bool false⟩,
  ⟨"SpacesInContainerLiterals", .scalar .bool, .bool true⟩,
  ⟨"SpacesInCStyleCastParentheses", .scalar .bool, .bool false⟩,
  ⟨"SpacesInParentheses", .scalar .bool, .bool false⟩,
  ⟨"SpacesInSquareBrackets", .scalar .bool, .bool false⟩,
  ⟨"SpaceBeforeSquareBrackets", .scalar .bool, .bool false⟩,
  ⟨"BitFieldColonSpacing", .scalar (.choice bitFieldColonSpacing), .choice "Both"⟩,
  ⟨"Standard", .scalar (.choice languageStandard), .choice "Latest"⟩,
  ⟨"StatementMacros", .scalar .strList, .list ["Q_UNUSED", "QT_REQUIRE_VERSION"]⟩,
  ⟨"TabWidth", .scalar .unsigned, .int 8⟩,
  ⟨"TypenameMacros", .scalar .strList, .list []⟩,
  ⟨"UseCRLF", .scalar .bool, .bool false⟩,
  ⟨"UseTab", .scalar (.choice useTab), .choice "Never"⟩,
  ⟨"WhitespaceSensitiveMacros", .scalar .strList, .list ["STRINGIZE", "PP_STRINGIZE",
    "BOOST_PP_STRINGIZE", "NS_SWIFT_NAME", "CF_SWIFT_NAME"]⟩]

end FormatStyle.Catalogue.V12
