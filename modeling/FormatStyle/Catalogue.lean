import FormatStyle.Catalogue.V12
import FormatStyle.Catalogue.V16
import FormatStyle.Catalogue.V34
import FormatStyle.Catalogue.V36

/-! # The schemas of all versions -/

namespace FormatStyle

/-- **The schema of a version.** -/
def Version.schema : Version → Schema
  | .v3_4 => Catalogue.V34.schema
  | .v3_6 => Catalogue.V36.schema
  | .v12 => Catalogue.V12.schema
  | .v16 => Catalogue.V16.schema

@[simp] theorem Version.schema_version (v : Version) : v.schema.version = v := by
  cases v <;> rfl

end FormatStyle
