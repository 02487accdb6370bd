import FormatStyle.Catalogue.V16.Laws
import FormatStyle.Catalogue.V16.Styles

/-! # Version 16

Documents for nine languages, which may inherit from the parent directory; unknown keys are
errors, and a blank text changes nothing.
-/

namespace FormatStyle.Catalogue.V16

/-- **Version 16.** -/
def schema : Schema where
  version := .v16
  fields := fields
  languages := [.cpp, .java, .javaScript, .objC, .proto, .tableGen, .textProto, .cSharp, .json]
  styles := styles
  legacy := legacy
  presets := presets
  constraints := V12.trailingCommaBinPacking :: qualifierConstraints
  derivations := [V12.returnTypeBreak, fixedQualifierOrder, clampedCommentPrefix]
  conventions := ⟨true, .ambient, true, true⟩

end FormatStyle.Catalogue.V16
