import FormatStyle.Error
import FormatStyle.Text.LowerCase

/-! # Formatted languages

The languages a configuration can be written for, and the tag of a document that names none.
Configuration files spell a language exactly; a user may spell it in any case and by a few other
names.
-/

namespace FormatStyle

/-- **Language tags.** `none` marks a document or record that is meant for every language. -/
inductive Language where
  | none
  | cpp
  | cSharp
  | java
  | javaScript
  | json
  | objC
  | proto
  | tableGen
  | textProto
  deriving DecidableEq, Repr

namespace Language

/-- The languages proper. -/
def all : List Language :=
  [cpp, cSharp, java, javaScript, json, objC, proto, tableGen, textProto]

/-- The spelling in configuration files. -/
def text : Language → String
  | none => "None"
  | cpp => "Cpp"
  | cSharp => "CSharp"
  | java => "Java"
  | javaScript => "JavaScript"
  | json => "Json"
  | objC => "ObjC"
  | proto => "Proto"
  | tableGen => "TableGen"
  | textProto => "TextProto"

/-- The language proper that a configuration file names. -/
def ofConfig? (s : String) : Option Language := all.find? (·.text == s)

/-- The names a user may give, in lower case. -/
def aliases : List (String × Language) := [
  ("cpp", cpp), ("c++", cpp), ("c", cpp),
  ("csharp", cSharp), ("c#", cSharp), ("cs", cSharp),
  ("java", java),
  ("javascript", javaScript), ("js", javaScript), ("typescript", javaScript),
  ("ts", javaScript),
  ("json", json),
  ("objc", objC), ("objective-c", objC),
  ("proto", proto),
  ("tablegen", tableGen), ("td", tableGen),
  ("textproto", textProto), ("textpb", textProto)]

/-- **Read a language** that a user names, in any case. -/
def parse (s : String) : Except StyleError Language :=
  match aliases.lookup (Text.lower s) with
  | some language => .ok language
  | Option.none => .error (.invalidValue "Language" s)

end Language

end FormatStyle
