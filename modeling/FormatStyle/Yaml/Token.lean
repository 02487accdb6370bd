/-! # YAML tokens

The words of a YAML stream. A block collection opens and closes with tokens that its indentation
implies, and a key before a colon gets a token of its own in front.
-/

namespace FormatStyle.Yaml

/-- **Tokens.** -/
inductive Token where
  | streamEnd
  | versionDirective (major minor : Nat)
  | tagDirective (handle lead : String)
  | documentStart
  | documentEnd
  | blockSequenceStart
  | blockMappingStart
  | blockEnd
  | flowSequenceStart
  | flowSequenceEnd
  | flowMappingStart
  | flowMappingEnd
  | blockEntry
  | flowEntry
  | key
  | value
  | aliasOf (name : String)
  | anchor (name : String)
  | tag (handle suffix : String)
  | scalar (text : String) (plain : Bool)
  deriving DecidableEq, Repr

end FormatStyle.Yaml
