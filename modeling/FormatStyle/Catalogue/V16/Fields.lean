import FormatStyle.Catalogue.V12.Fields
import FormatStyle.Catalogue.V16.Enumerations

/-! # Options of version 16

The part tables and shorthands of the record options and the table of all options.
-/

namespace FormatStyle.Catalogue.V16

def alignConsecutiveFields : List Part := [
  ⟨"Enabled", .bool⟩, ⟨"AcrossEmptyLines", .bool⟩, ⟨"AcrossComments", .bool⟩,
  ⟨"AlignCompound", .bool⟩, ⟨"PadOperators", .bool⟩]

/-- The parts of a consecutive alignment that is switched on or off, in the given places too. -/
def consecutive (enabled emptyLines comments : Bool) : List (String × Literal) := [
  ("Enabled", .bool enabled), ("AcrossEmptyLines", .bool emptyLines),
  ("AcrossComments", .bool comments), ("AlignCompound", .bool false),
  ("PadOperators", .bool true)]

def alignNone : List (String × Literal) := consecutive false false false

def alignConsecutiveOnly : List (String × Literal) := consecutive true false false

def alignAcrossEmptyLines : List (String × Literal) := consecutive true true false

def alignAcrossComments : List (String × Literal) := consecutive true false true

def alignAcrossBoth : List (String × Literal) := consecutive true true true

/-- Alignment of consecutive lines, which a word can stand for. -/
def alignConsecutive : Shorthand := ⟨"AlignConsecutiveStyle", alignConsecutiveFields,
  [
    ("None", alignNone), ("Consecutive", alignConsecutiveOnly),
    ("AcrossEmptyLines", alignAcrossEmptyLines), ("AcrossComments", alignAcrossComments),
    ("AcrossEmptyLinesAndComments", alignAcrossBoth), ("true", alignConsecutiveOnly),
    ("false", alignNone)]⟩

def trailingCommentsFields : List Part := [
  ⟨"Kind", .choice trailingCommentsKind⟩, ⟨"OverEmptyLines", .unsigned⟩]

def trailingLeave : List (String × Literal) := [
  ("Kind", .choice "Leave"), ("OverEmptyLines", .int 0)]

def trailingAlways : List (String × Literal) := [
  ("Kind", .choice "Always"), ("OverEmptyLines", .int 0)]

def trailingNever : List (String × Literal) := [
  ("Kind", .choice "Never"), ("OverEmptyLines", .int 0)]

/-- Alignment of trailing comments, which a word can stand for. -/
def trailingCommentsAlignment : Shorthand :=
  ⟨"TrailingCommentsAlignmentStyle", trailingCommentsFields, [
    ("Leave", trailingLeave), ("Always", trailingAlways), ("Never", trailingNever),
    ("true", trailingAlways), ("false", trailingNever)]⟩

def braceWrapping : List Part := [
  ⟨"AfterCaseLabel", .bool⟩, ⟨"AfterClass", .bool⟩,
  ⟨"AfterControlStatement", .choice V12.afterControlStatement⟩, ⟨"AfterEnum", .bool⟩,
  ⟨"AfterExternBlock", .bool⟩, ⟨"AfterFunction", .bool⟩, ⟨"AfterNamespace", .bool⟩,
  ⟨"AfterObjCDeclaration", .bool⟩, ⟨"AfterStruct", .bool⟩, ⟨"AfterUnion", .bool⟩,
  ⟨"BeforeCatch", .bool⟩, ⟨"BeforeElse", .bool⟩, ⟨"BeforeLambdaBody", .bool⟩,
  ⟨"BeforeWhile", .bool⟩, ⟨"IndentBraces", .bool⟩, ⟨"SplitEmptyFunction", .bool⟩,
  ⟨"SplitEmptyRecord", .bool⟩, ⟨"SplitEmptyNamespace", .bool⟩]

def integerLiteralSeparator : List Part := [
  ⟨"Binary", .int⟩, ⟨"BinaryMinDigits", .int⟩, ⟨"Decimal", .int⟩, ⟨"DecimalMinDigits", .int⟩,
  ⟨"Hex", .int⟩, ⟨"HexMinDigits", .int⟩]

def spaceBeforeParensOptions : List Part := [
  ⟨"AfterControlStatements", .bool⟩, ⟨"AfterForeachMacros", .bool⟩,
  ⟨"AfterFunctionDefinitionName", .bool⟩, ⟨"AfterFunctionDeclarationName", .bool⟩,
  ⟨"AfterIfMacros", .bool⟩, ⟨"AfterOverloadedOperator", .bool⟩, ⟨"AfterRequiresInClause", .bool⟩,
  ⟨"AfterRequiresInExpression", .bool⟩, ⟨"BeforeNonEmptyParentheses", .bool⟩]

def spacesInLineCommentPrefix : List Part := [
  ⟨"Minimum", .unsigned⟩, ⟨"Maximum", .bound⟩]

def rawStringFormat : List Part := [
  ⟨"Language", .choice rawStringLanguage⟩, ⟨"Delimiters", .strList⟩,
  ⟨"EnclosingFunctions", .strList⟩, ⟨"CanonicalDelimiter", .str⟩, ⟨"BasedOnStyle", .str⟩]

/-- No space before any parenthesis. -/
def parensReset : List (String × Literal) := [
  ("AfterControlStatements", .bool false), ("AfterForeachMacros", .bool false),
  ("AfterFunctionDefinitionName", .bool false), ("AfterFunctionDeclarationName", .bool false),
  ("AfterIfMacros", .bool false), ("AfterOverloadedOperator", .bool false),
  ("AfterRequiresInClause", .bool false), ("AfterRequiresInExpression", .bool false),
  ("BeforeNonEmptyParentheses", .bool false)]

def controlStatementParens : List (String × Literal) := [
  ("AfterControlStatements", .bool true), ("AfterForeachMacros", .bool true),
  ("AfterIfMacros", .bool true)]

/-- The options, each with the value of the baseline. -/
def fields : List Field := [
  ⟨"AccessModifierOffset", .scalar .int, .int (-2)⟩,
  ⟨"AlignAfterOpenBracket", .scalar (.choice bracketAlignment), .choice "Align"⟩,
  ⟨"AlignArrayOfStructures", .scalar (.choice arrayInitializerAlignment), .choice "None"⟩,
  ⟨"AlignConsecutiveAssignments", .shorthand alignConsecutive, .choice "None"⟩,
  ⟨"AlignConsecutiveBitFields", .shorthand alignConsecutive, .choice "None"⟩,
  ⟨"AlignConsecutiveDeclarations", .shorthand alignConsecutive, .choice "None"⟩,
  ⟨"AlignConsecutiveMacros", .shorthand alignConsecutive, .choice "None"⟩,
  ⟨"AlignEscapedNewlines", .scalar (.choice V12.escapedNewlineAlignment), .choice "Right"⟩,
  ⟨"AlignOperands", .scalar (.choice V12.operandAlignment), .choice "Align"⟩,
  ⟨"AlignTrailingComments", .shorthand trailingCommentsAlignment, .choice "Always"⟩,
  ⟨"AllowAllArgumentsOnNextLine", .scalar .bool, .bool true⟩,
  ⟨"AllowAllParametersOfDeclarationOnNextLine", .scalar .bool, .bool true⟩,
  ⟨"AllowShortBlocksOnASingleLine", .scalar (.choice V12.shortBlock), .choice "Never"⟩,
  ⟨"AllowShortCaseLabelsOnASingleLine", .scalar .bool, .bool false⟩,
  ⟨"AllowShortEnumsOnASingleLine", .scalar .bool, .bool true⟩,
  ⟨"AllowShortFunctionsOnASingleLine", .scalar (.choice V12.shortFunction), .choice "All"⟩,
  ⟨"AllowShortIfStatementsOnASingleLine", .scalar (.choice shortIf), .choice "Never"⟩,
  ⟨"AllowShortLambdasOnASingleLine", .scalar (.choice V12.shortLambda), .choice "All"⟩,
  ⟨"AllowShortLoopsOnASingleLine", .scalar .bool, .bool false⟩,
  ⟨"AlwaysBreakAfterDefinitionReturnType", .scalar (.choice V12.definitionReturnTypeBreaking),
    .choice "None"⟩,
  ⟨"AlwaysBreakAfterReturnType", .scalar (.choice V12.returnTypeBreaking), .choice "None"⟩,
  ⟨"AlwaysBreakBeforeMultilineStrings", .scalar .bool, .bool false⟩,
  ⟨"AlwaysBreakTemplateDeclarations", .scalar (.choice V12.breakTemplateDeclarations),
    .choice "MultiLine"⟩,
  ⟨"AttributeMacros", .scalar .strList, .list ["__capability"]⟩,
  ⟨"BinPackArguments", .scalar .bool, .bool true⟩,
  ⟨"BinPackParameters", .scalar .bool, .bool true⟩,
  ⟨"BitFieldColonSpacing", .scalar (.choice V12.bitFieldColonSpacing), .choice "Both"⟩,
  ⟨"BraceWrapping", .record braceWrapping, .record V12.attachWrapping⟩,
  ⟨"BreakAfterAttributes", .scalar (.choice attributeBreaking), .choice "Never"⟩,
  ⟨"BreakAfterJavaFieldAnnotations", .scalar .bool, .bool false⟩,
  ⟨"BreakArrays", .scalar .bool, .bool true⟩,
  ⟨"BreakBeforeBinaryOperators", .scalar (.choice V12.binaryOperator), .choice "None"⟩,
  ⟨"BreakBeforeConceptDeclarations", .scalar (.choice breakBeforeConceptDeclarations),
    .choice "Always"⟩,
  ⟨"BreakBeforeBraces", .scalar (.choice V12.braceBreaking), .choice "Attach"⟩,
  ⟨"BreakBeforeInlineASMColon", .scalar (.choice breakBeforeInlineAsmColon),
    .choice "OnlyMultiline"⟩,
  ⟨"BreakBeforeTernaryOperators", .scalar .bool, .bool true⟩,
  ⟨"BreakConstructorInitializers", .scalar (.choice V12.breakConstructorInitializers),
    .choice "BeforeColon"⟩,
  ⟨"BreakInheritanceList", .scalar (.choice breakInheritanceList), .choice "BeforeColon"⟩,
  ⟨"BreakStringLiterals", .scalar .bool, .bool true⟩,
  ⟨"ColumnLimit", .scalar .unsigned, .int 80⟩,
  ⟨"CommentPragmas", .scalar .str, .str "^ IWYU pragma:"⟩,
  ⟨"CompactNamespaces", .scalar .bool, .bool false⟩,
  ⟨"ConstructorInitializerIndentWidth", .scalar .unsigned, .int 4⟩,
  ⟨"ContinuationIndentWidth", .scalar .unsigned, .int 4⟩,
  ⟨"Cpp11BracedListStyle", .scalar .bool, .bool true⟩,
  ⟨"DerivePointerAlignment", .scalar .bool, .bool false⟩,
  ⟨"DisableFormat", .scalar .bool, .bool false⟩,
  ⟨"EmptyLineAfterAccessModifier", .scalar (.choice emptyLineAfterAccessModifier),
    .choice "Never"⟩,
  ⟨"EmptyLineBeforeAccessModifier", .scalar (.choice V12.emptyLineBeforeAccessModifier),
    .choice "LogicalBlock"⟩,
  ⟨"ExperimentalAutoDetectBinPacking", .scalar .bool, .bool false⟩,
  ⟨"FixNamespaceComments", .scalar .bool, .bool true⟩,
  ⟨"ForEachMacros", .scalar .strList, .list ["foreach", "Q_FOREACH", "BOOST_FOREACH"]⟩,
  ⟨"IfMacros", .scalar .strList, .list ["KJ_IF_MAYBE"]⟩,
  ⟨"IncludeBlocks", .scalar (.choice V12.includeBlocks), .choice "Preserve"⟩,
  ⟨"IncludeCategories", .recordList V12.includeCategory, .records [[("Regex",
    .str "^\"(llvm|llvm-c|clang|clang-c)/"), ("Priority", .int 2)], [("Regex",
    .str "^(<|\"(gtest|gmock|isl|json)/)"), ("Priority", .int 3)], [("Regex", .str ".*"),
    ("Priority", .int 1)]]⟩,
  ⟨"IncludeIsMainRegex", .scalar .str, .str "(Test)?$"⟩,
  ⟨"IncludeIsMainSourceRegex", .scalar .str, .str ""⟩,
  ⟨"IndentAccessModifiers", .scalar .bool, .bool false⟩,
  ⟨"IndentCaseBlocks", .scalar .bool, .bool false⟩,
  ⟨"IndentCaseLabels", .scalar .bool, .bool false⟩,
  ⟨"IndentExternBlock", .scalar (.choice V12.indentExternBlock), .choice "AfterExternBlock"⟩,
  ⟨"IndentGotoLabels", .scalar .bool, .bool true⟩,
  ⟨"IndentPPDirectives", .scalar (.choice V12.ppDirectiveIndent), .choice "None"⟩,
  ⟨"IndentRequiresClause", .scalar .bool, .bool true⟩,
  ⟨"IndentWidth", .scalar .unsigned, .int 2⟩,
  ⟨"IndentWrappedFunctionNames", .scalar .bool, .bool false⟩,
  ⟨"InsertBraces", .scalar .bool, .bool false⟩,
  ⟨"InsertNewlineAtEOF", .scalar .bool, .bool false⟩,
  ⟨"InsertTrailingCommas", .scalar (.choice V12.trailingComma), .choice "None"⟩,
  ⟨"IntegerLiteralSeparator", .record integerLiteralSeparator, .record [("Binary", .int 0),
    ("BinaryMinDigits", .int 0), ("Decimal", .int 0), ("DecimalMinDigits", .int 0), ("Hex",
    .int 0), ("HexMinDigits", .int 0)]⟩,
  ⟨"JavaImportGroups", .scalar .strList, .list []⟩,
  ⟨"JavaScriptQuotes", .scalar (.choice V12.javascriptQuote), .choice "Leave"⟩,
  ⟨"JavaScriptWrapImports", .scalar .bool, .bool true⟩,
  ⟨"KeepEmptyLinesAtTheStartOfBlocks", .scalar .bool, .bool true⟩,
  ⟨"LambdaBodyIndentation", .scalar (.choice lambdaBodyIndentation), .choice "Signature"⟩,
  ⟨"LineEnding", .scalar (.choice lineEnding), .choice "DeriveLF"⟩,
  ⟨"MacroBlockBegin", .scalar .str, .str ""⟩,
  ⟨"MacroBlockEnd", .scalar .str, .str ""⟩,
  ⟨"MaxEmptyLinesToKeep", .scalar .unsigned, .int 1⟩,
  ⟨"NamespaceIndentation", .scalar (.choice V12.namespaceIndentation), .choice "None"⟩,
  ⟨"NamespaceMacros", .scalar .strList, .list []⟩,
  ⟨"ObjCBinPackProtocolList", .scalar (.choice V12.binPack), .choice "Auto"⟩,
  ⟨"ObjCBlockIndentWidth", .scalar .unsigned, .int 2⟩,
  ⟨"ObjCBreakBeforeNestedBlockParam", .scalar .bool, .bool true⟩,
  ⟨"ObjCSpaceAfterProperty", .scalar .bool, .bool false⟩,
  ⟨"ObjCSpaceBeforeProtocolList", .scalar .bool, .bool true⟩,
  ⟨"PackConstructorInitializers", .scalar (.choice packConstructorInitializers),
    .choice "BinPack"⟩,
  ⟨"PenaltyBreakAssignment", .scalar .unsigned, .int 2⟩,
  ⟨"PenaltyBreakBeforeFirstCallParameter", .scalar .unsigned, .int 19⟩,
  ⟨"PenaltyBreakComment", .scalar .unsigned, .int 300⟩,
  ⟨"PenaltyBreakFirstLessLess", .scalar .unsigned, .int 120⟩,
  ⟨"PenaltyBreakOpenParenthesis", .scalar .unsigned, .int 0⟩,
  ⟨"PenaltyBreakString", .scalar .unsigned, .int 1000⟩,
  ⟨"PenaltyBreakTemplateDeclaration", .scalar .unsigned, .int 10⟩,
  ⟨"PenaltyExcessCharacter", .scalar .unsigned, .int 1000000⟩,
  ⟨"PenaltyIndentedWhitespace", .scalar .unsigned, .int 0⟩,
  ⟨"PenaltyReturnTypeOnItsOwnLine", .scalar .unsigned, .int 60⟩,
  ⟨"PointerAlignment", .scalar (.choice V12.pointerAlignment), .choice "Right"⟩,
  ⟨"PPIndentWidth", .scalar .int, .int (-1)⟩,
  ⟨"QualifierAlignment", .scalar (.choice qualifierAlignment), .choice "Leave"⟩,
  ⟨"QualifierOrder", .scalar .strList, .list []⟩,
  ⟨"RawStringFormats", .recordList rawStringFormat, .records []⟩,
  ⟨"ReferenceAlignment", .scalar (.choice referenceAlignment), .choice "Pointer"⟩,
  ⟨"ReflowComments", .scalar .bool, .bool true⟩,
  ⟨"RemoveBracesLLVM", .scalar .bool, .bool false⟩,
  ⟨"RemoveSemicolon", .scalar .bool, .bool false⟩,
  ⟨"RequiresClausePosition", .scalar (.choice requiresClausePosition), .choice "OwnLine"⟩,
  ⟨"RequiresExpressionIndentation", .scalar (.choice requiresExpressionIndentation),
    .choice "OuterScope"⟩,
  ⟨"SeparateDefinitionBlocks", .scalar (.choice separateDefinition), .choice "Leave"⟩,
  ⟨"ShortNamespaceLines", .scalar .unsigned, .int 1⟩,
  ⟨"SortIncludes", .scalar (.choice sortIncludes), .choice "CaseSensitive"⟩,
  ⟨"SortJavaStaticImport", .scalar (.choice V12.sortJavaStaticImport), .choice "Before"⟩,
  ⟨"SortUsingDeclarations", .scalar (.choice sortUsingDeclarations),
    .choice "LexicographicNumeric"⟩,
  ⟨"SpaceAfterCStyleCast", .scalar .bool, .bool false⟩,
  ⟨"SpaceAfterLogicalNot", .scalar .bool, .bool false⟩,
  ⟨"SpaceAfterTemplateKeyword", .scalar .bool, .bool true⟩,
  ⟨"SpaceAroundPointerQualifiers", .scalar (.choice V12.spaceAroundPointerQualifiers),
    .choice "Default"⟩,
  ⟨"SpaceBeforeAssignmentOperators", .scalar .bool, .bool true⟩,
  ⟨"SpaceBeforeCaseColon", .scalar .bool, .bool false⟩,
  ⟨"SpaceBeforeCpp11BracedList", .scalar .bool, .bool false⟩,
  ⟨"SpaceBeforeCtorInitializerColon", .scalar .bool, .bool true⟩,
  ⟨"SpaceBeforeInheritanceColon", .scalar .bool, .bool true⟩,
  ⟨"SpaceBeforeParens", .scalar (.choice spaceBeforeParens), .choice "ControlStatements"⟩,
  ⟨"SpaceBeforeParensOptions", .record spaceBeforeParensOptions, .record controlStatementParens⟩,
  ⟨"SpaceBeforeRangeBasedForLoopColon", .scalar .bool, .bool true⟩,
  ⟨"SpaceBeforeSquareBrackets", .scalar .bool, .bool false⟩,
  ⟨"SpaceInEmptyBlock", .scalar .bool, .bool false⟩,
  ⟨"SpaceInEmptyParentheses", .scalar .bool, .bool false⟩,
  ⟨"SpacesBeforeTrailingComments", .scalar .unsigned, .int 1⟩,
  ⟨"SpacesInAngles", .scalar (.choice spacesInAngles), .choice "Never"⟩,
  ⟨"SpacesInConditionalStatement", .scalar .bool, .bool false⟩,
  ⟨"SpacesInContainerLiterals", .scalar .bool, .bool true⟩,
  ⟨"SpacesInCStyleCastParentheses", .scalar .bool, .bool false⟩,
  ⟨"SpacesInLineCommentPrefix", .record spacesInLineCommentPrefix, .record [("Minimum", .int 1),
    ("Maximum", .int (-1))]⟩,
  ⟨"SpacesInParentheses", .scalar .bool, .bool false⟩,
  ⟨"SpacesInSquareBrackets", .scalar .bool, .bool false⟩,
  ⟨"Standard", .scalar (.choice V12.languageStandard), .choice "Latest"⟩,
  ⟨"StatementAttributeLikeMacros", .scalar .strList, .list ["Q_EMIT"]⟩,
  ⟨"StatementMacros", .scalar .strList, .list ["Q_UNUSED", "QT_REQUIRE_VERSION"]⟩,
  ⟨"TabWidth", .scalar .unsigned, .int 8⟩,
  ⟨"TypenameMacros", .scalar .strList, .list []⟩,
  ⟨"UseTab", .scalar (.choice V12.useTab), .choice "Never"⟩,
  ⟨"WhitespaceSensitiveMacros", .scalar .strList, .list ["BOOST_PP_STRINGIZE", "CF_SWIFT_NAME",
    "NS_SWIFT_NAME", "PP_STRINGIZE", "STRINGIZE"]⟩]

end FormatStyle.Catalogue.V16
