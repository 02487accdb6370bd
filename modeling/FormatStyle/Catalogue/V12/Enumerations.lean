import FormatStyle.Kind

/-! # Enumerations of version 12

The spellings of every choice. Version 16 shares those that it did not change.
-/

namespace FormatStyle.Catalogue.V12

def languageStandard : Enumeration := ⟨"LanguageStandard",
  [
    ("c++03", "Cpp03"), ("C++03", "Cpp03"), ("Cpp03", "Cpp03"), ("c++11", "Cpp11"),
    ("C++11", "Cpp11"), ("c++14", "Cpp14"), ("c++17", "Cpp17"), ("c++20", "Cpp20"),
    ("Latest", "Latest"), ("Cpp11", "Latest"), ("Auto", "Auto")]⟩

def useTab : Enumeration := ⟨"UseTabStyle",
  [
    ("Never", "Never"), ("false", "Never"), ("Always", "Always"), ("true", "Always"),
    ("ForIndentation", "ForIndentation"),
    ("ForContinuationAndIndentation", "ForContinuationAndIndentation"),
    ("AlignWithSpaces", "AlignWithSpaces")]⟩

def javascriptQuote : Enumeration := ⟨"JavaScriptQuoteStyle",
  [("Leave", "Leave"), ("Single", "Single"), ("Double", "Double")]⟩

def shortBlock : Enumeration := ⟨"ShortBlockStyle",
  [
    ("Never", "Never"), ("false", "Never"), ("Always", "Always"), ("true", "Always"),
    ("Empty", "Empty")]⟩

def shortFunction : Enumeration := ⟨"ShortFunctionStyle",
  [
    ("None", "None"), ("false", "None"), ("All", "All"), ("true", "All"), ("Inline", "Inline"),
    ("InlineOnly", "InlineOnly"), ("Empty", "Empty")]⟩

def alignConsecutive : Enumeration := ⟨"AlignConsecutiveStyle",
  [
    ("None", "None"), ("Consecutive", "Consecutive"), ("AcrossEmptyLines", "AcrossEmptyLines"),
    ("AcrossComments", "AcrossComments"),
    ("AcrossEmptyLinesAndComments", "AcrossEmptyLinesAndComments"), ("true", "Consecutive"),
    ("false", "None")]⟩

def shortIf : Enumeration := ⟨"ShortIfStyle",
  [
    ("Never", "Never"), ("Always", "Always"), ("WithoutElse", "WithoutElse"), ("false", "Never"),
    ("true", "WithoutElse")]⟩

def shortLambda : Enumeration := ⟨"ShortLambdaStyle",
  [
    ("None", "None"), ("false", "None"), ("Empty", "Empty"), ("Inline", "Inline"), ("All", "All"),
    ("true", "All")]⟩

def binPack : Enumeration := ⟨"BinPackStyle",
  [("Auto", "Auto"), ("Always", "Always"), ("Never", "Never")]⟩

def trailingComma : Enumeration := ⟨"TrailingCommaStyle",
  [("None", "None"), ("Wrapped", "Wrapped")]⟩

def binaryOperator : Enumeration := ⟨"BinaryOperatorStyle",
  [
    ("All", "All"), ("true", "All"), ("None", "None"), ("false", "None"),
    ("NonAssignment", "NonAssignment")]⟩

def braceBreaking : Enumeration := ⟨"BraceBreakingStyle",
  [
    ("Attach", "Attach"), ("Linux", "Linux"), ("Mozilla", "Mozilla"),
    ("Stroustrup", "Stroustrup"), ("Allman", "Allman"), ("Whitesmiths", "Whitesmiths"),
    ("GNU", "GNU"), ("WebKit", "WebKit"), ("Custom", "Custom")]⟩

def afterControlStatement : Enumeration := ⟨"BraceWrappingAfterControlStatementStyle",
  [
    ("Never", "Never"), ("MultiLine", "MultiLine"), ("Always", "Always"), ("false", "Never"),
    ("true", "Always")]⟩

def breakConstructorInitializers : Enumeration := ⟨"BreakConstructorInitializersStyle",
  [("BeforeColon", "BeforeColon"), ("BeforeComma", "BeforeComma"), ("AfterColon", "AfterColon")]⟩

def breakInheritanceList : Enumeration := ⟨"BreakInheritanceListStyle",
  [("BeforeColon", "BeforeColon"), ("BeforeComma", "BeforeComma"), ("AfterColon", "AfterColon")]⟩

def emptyLineBeforeAccessModifier : Enumeration := ⟨"EmptyLineBeforeAccessModifierStyle",
  [("Never", "Never"), ("Leave", "Leave"), ("LogicalBlock", "LogicalBlock"), ("Always", "Always")]⟩

def ppDirectiveIndent : Enumeration := ⟨"PPDirectiveIndentStyle",
  [("None", "None"), ("AfterHash", "AfterHash"), ("BeforeHash", "BeforeHash")]⟩

def indentExternBlock : Enumeration := ⟨"IndentExternBlockStyle",
  [
    ("AfterExternBlock", "AfterExternBlock"), ("Indent", "Indent"), ("NoIndent", "NoIndent"),
    ("true", "Indent"), ("false", "NoIndent")]⟩

def returnTypeBreaking : Enumeration := ⟨"ReturnTypeBreakingStyle",
  [
    ("None", "None"), ("All", "All"), ("TopLevel", "TopLevel"),
    ("TopLevelDefinitions", "TopLevelDefinitions"), ("AllDefinitions", "AllDefinitions")]⟩

def breakTemplateDeclarations : Enumeration := ⟨"BreakTemplateDeclarationsStyle",
  [
    ("No", "No"), ("MultiLine", "MultiLine"), ("Yes", "Yes"), ("false", "MultiLine"),
    ("true", "Yes")]⟩

def definitionReturnTypeBreaking : Enumeration := ⟨"DefinitionReturnTypeBreakingStyle",
  [("None", "None"), ("All", "All"), ("TopLevel", "TopLevel"), ("false", "None"), ("true", "All")]⟩

def namespaceIndentation : Enumeration := ⟨"NamespaceIndentationKind",
  [("None", "None"), ("Inner", "Inner"), ("All", "All")]⟩

def bracketAlignment : Enumeration := ⟨"BracketAlignmentStyle",
  [
    ("Align", "Align"), ("DontAlign", "DontAlign"), ("AlwaysBreak", "AlwaysBreak"),
    ("true", "Align"), ("false", "DontAlign")]⟩

def escapedNewlineAlignment : Enumeration := ⟨"EscapedNewlineAlignmentStyle",
  [
    ("DontAlign", "DontAlign"), ("Left", "Left"), ("Right", "Right"), ("true", "Left"),
    ("false", "Right")]⟩

def operandAlignment : Enumeration := ⟨"OperandAlignmentStyle",
  [
    ("DontAlign", "DontAlign"), ("Align", "Align"), ("AlignAfterOperator", "AlignAfterOperator"),
    ("true", "Align"), ("false", "DontAlign")]⟩

def pointerAlignment : Enumeration := ⟨"PointerAlignmentStyle",
  [
    ("Middle", "Middle"), ("Left", "Left"), ("Right", "Right"), ("true", "Left"),
    ("false", "Right")]⟩

def spaceAroundPointerQualifiers : Enumeration := ⟨"SpaceAroundPointerQualifiersStyle",
  [("Default", "Default"), ("Before", "Before"), ("After", "After"), ("Both", "Both")]⟩

def spaceBeforeParens : Enumeration := ⟨"SpaceBeforeParensOptions",
  [
    ("Never", "Never"), ("ControlStatements", "ControlStatements"),
    ("ControlStatementsExceptForEachMacros", "ControlStatementsExceptForEachMacros"),
    ("NonEmptyParentheses", "NonEmptyParentheses"), ("Always", "Always"), ("false", "Never"),
    ("true", "ControlStatements")]⟩

def bitFieldColonSpacing : Enumeration := ⟨"BitFieldColonSpacingStyle",
  [("Both", "Both"), ("None", "None"), ("Before", "Before"), ("After", "After")]⟩

def sortJavaStaticImport : Enumeration := ⟨"SortJavaStaticImportOptions",
  [("Before", "Before"), ("After", "After")]⟩

def includeBlocks : Enumeration := ⟨"IncludeBlocksStyle",
  [("Preserve", "Preserve"), ("Merge", "Merge"), ("Regroup", "Regroup")]⟩

def rawStringLanguage : Enumeration := ⟨"LanguageKind",
  [
    ("None", "None"), ("Cpp", "Cpp"), ("Java", "Java"), ("JavaScript", "JavaScript"),
    ("ObjC", "ObjC"), ("Proto", "Proto"), ("TableGen", "TableGen"), ("TextProto", "TextProto"),
    ("CSharp", "CSharp")]⟩

end FormatStyle.Catalogue.V12
