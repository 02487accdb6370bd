import FormatStyle.Catalogue.V12.Laws
import FormatStyle.Catalogue.V12.Styles

/-! # Version 12

Documents for eight languages; unknown keys are errors, and so is a blank text.
-/

namespace FormatStyle.Catalogue.V12

/-- **Version 12.** -/
def schema : Schema where
  version := .v12
  fields := fields
  languages := [.cpp, .java, .javaScript, .objC, .proto, .tableGen, .textProto, .cSharp]
  styles := styles
  legacy := legacy
  presets := presets
  constraints := [trailingCommaBinPacking]
  derivations := [returnTypeBreak]
  conventions := ⟨true, .malformed, true, false⟩

end FormatStyle.Catalogue.V12
