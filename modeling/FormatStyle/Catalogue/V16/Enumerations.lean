import FormatStyle.Catalogue.V12.Enumerations

/-! # Enumerations of version 16

The choices that are new or gained spellings. The others are those of version 12.
-/

namespace FormatStyle.Catalogue.V16

def attributeBreaking : Enumeration := ⟨"AttributeBreakingStyle",
  [("Always", "Always"), ("Leave", "Leave"), ("Never", "Never")]⟩

def arrayInitializerAlignment : Enumeration := ⟨"ArrayInitializerAlignmentStyle",
  [("None", "None"), ("Left", "Left"), ("Right", "Right")]⟩

def bracketAlignment : Enumeration := ⟨"BracketAlignmentStyle",
  [
    ("Align", "Align"), ("DontAlign", "DontAlign"), ("AlwaysBreak", "AlwaysBreak"),
    ("BlockIndent", "BlockIndent"), ("true", "Align"), ("false", "DontAlign")]⟩

def breakBeforeConceptDeclarations : Enumeration := ⟨"BreakBeforeConceptDeclarationsStyle",
  [
    ("Never", "Never"), ("Allowed", "Allowed"), ("Always", "Always"), ("true", "Always"),
    ("false", "Allowed")]⟩

def breakBeforeInlineAsmColon : Enumeration := ⟨"BreakBeforeInlineASMColonStyle",
  [("Never", "Never"), ("OnlyMultiline", "OnlyMultiline"), ("Always", "Always")]⟩

def breakInheritanceList : Enumeration := ⟨"BreakInheritanceListStyle",
  [
    ("BeforeColon", "BeforeColon"), ("BeforeComma", "BeforeComma"), ("AfterColon", "AfterColon"),
    ("AfterComma", "AfterComma")]⟩

def emptyLineAfterAccessModifier : Enumeration := ⟨"EmptyLineAfterAccessModifierStyle",
  [("Never", "Never"), ("Leave", "Leave"), ("Always", "Always")]⟩

def lambdaBodyIndentation : Enumeration := ⟨"LambdaBodyIndentationKind",
  [("Signature", "Signature"), ("OuterScope", "OuterScope")]⟩

def lineEnding : Enumeration := ⟨"LineEndingStyle",
  [("LF", "LF"), ("CRLF", "CRLF"), ("DeriveLF", "DeriveLF"), ("DeriveCRLF", "DeriveCRLF")]⟩

def packConstructorInitializers : Enumeration := ⟨"PackConstructorInitializersStyle",
  [
    ("Never", "Never"), ("BinPack", "BinPack"), ("CurrentLine", "CurrentLine"),
    ("NextLine", "NextLine")]⟩

def qualifierAlignment : Enumeration := ⟨"QualifierAlignmentStyle",
  [("Leave", "Leave"), ("Left", "Left"), ("Right", "Right"), ("Custom", "Custom")]⟩

def referenceAlignment : Enumeration := ⟨"ReferenceAlignmentStyle",
  [("Pointer", "Pointer"), ("Middle", "Middle"), ("Left", "Left"), ("Right", "Right")]⟩

def requiresClausePosition : Enumeration := ⟨"RequiresClausePositionStyle",
  [
    ("OwnLine", "OwnLine"), ("WithPreceding", "WithPreceding"),
    ("WithFollowing", "WithFollowing"), ("SingleLine", "SingleLine")]⟩

def requiresExpressionIndentation : Enumeration := ⟨"RequiresExpressionIndentationKind",
  [("Keyword", "Keyword"), ("OuterScope", "OuterScope")]⟩

def separateDefinition : Enumeration := ⟨"SeparateDefinitionStyle",
  [("Leave", "Leave"), ("Always", "Always"), ("Never", "Never")]⟩

def shortIf : Enumeration := ⟨"ShortIfStyle",
  [
    ("Never", "Never"), ("WithoutElse", "WithoutElse"), ("OnlyFirstIf", "OnlyFirstIf"),
    ("AllIfsAndElse", "AllIfsAndElse"), ("Always", "OnlyFirstIf"), ("false", "Never"),
    ("true", "WithoutElse")]⟩

def sortIncludes : Enumeration := ⟨"SortIncludesOptions",
  [
    ("Never", "Never"), ("CaseInsensitive", "CaseInsensitive"),
    ("CaseSensitive", "CaseSensitive"), ("false", "Never"), ("true", "CaseSensitive")]⟩

def sortUsingDeclarations : Enumeration := ⟨"SortUsingDeclarationsOptions",
  [
    ("Never", "Never"), ("Lexicographic", "Lexicographic"),
    ("LexicographicNumeric", "LexicographicNumeric"), ("false", "Never"),
    ("true", "LexicographicNumeric")]⟩

def spaceBeforeParens : Enumeration := ⟨"SpaceBeforeParensStyle",
  [
    ("Never", "Never"), ("ControlStatements", "ControlStatements"),
    ("ControlStatementsExceptControlMacros", "ControlStatementsExceptControlMacros"),
    ("NonEmptyParentheses", "NonEmptyParentheses"), ("Always", "Always"), ("Custom", "Custom"),
    ("false", "Never"), ("true", "ControlStatements"),
    ("ControlStatementsExceptForEachMacros", "ControlStatementsExceptControlMacros")]⟩

def spacesInAngles : Enumeration := ⟨"SpacesInAnglesStyle",
  [
    ("Never", "Never"), ("Always", "Always"), ("Leave", "Leave"), ("false", "Never"),
    ("true", "Always")]⟩

def trailingCommentsKind : Enumeration := ⟨"TrailingCommentsAlignmentKinds",
  [("Leave", "Leave"), ("Always", "Always"), ("Never", "Never")]⟩

def rawStringLanguage : Enumeration := ⟨"LanguageKind",
  [
    ("None", "None"), ("Cpp", "Cpp"), ("CSharp", "CSharp"), ("Java", "Java"),
    ("JavaScript", "JavaScript"), ("Json", "Json"), ("ObjC", "ObjC"), ("Proto", "Proto"),
    ("TableGen", "TableGen"), ("TextProto", "TextProto")]⟩

end FormatStyle.Catalogue.V16
