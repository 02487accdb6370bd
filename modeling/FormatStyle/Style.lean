import FormatStyle.Record
import FormatStyle.Trace

/-! # Named styles as records

A style is resolved by starting from the content it is based on and applying each layer whose
scope takes in the language. Main statement: a resolved record carries the version and the
language it was asked for (`Style.tags_resolve`).
-/

namespace FormatStyle

/-- The style that a migration falls back to when nothing else is said. -/
def defaultFallbackStyle : String := "llvm"

namespace StyleContent

/-- The language that a style computes with when asked for a language. -/
def computedLanguage (standIns : List (Language × Language)) (language : Language) : Language :=
  (standIns.lookup language).getD language

/-- Make the assignments of a layer where it applies. -/
def applyLayer (language : Language) (r : StyleRecord) (layer : Layer) :
    Except StyleError StyleRecord :=
  if layer.scope.applies language then (r.assign layer.assignments).toExcept else .ok r

/-- **The record of a style content**, tagged with the language it was asked for. -/
def build (version : Version) : StyleContent → Language → Except StyleError StyleRecord
  | baseline, language => do
    let values ← version.schema.fields.mapM fun field =>
      field.initial.toValue field.name field.kind field.kind.zero
    return ⟨version, language, values, false⟩
  | layered base fixed layers standIns, language => do
    let computed := computedLanguage standIns language
    let start ← base.build version (fixed.getD computed)
    let r ← layers.foldlM (applyLayer computed) start
    return { r with language := language }

/-- A style is built for the version and the language it is asked for. -/
theorem tags_of_build {version : Version} {content : StyleContent} {language : Language}
    {r : StyleRecord} (h : content.build version language = .ok r) :
    r.version = version ∧ r.language = language := by
  induction content generalizing language r with
  | baseline =>
    unfold build at h
    simp only [bind, Except.bind, pure, Except.pure] at h
    split at h
    · cases h
    · cases h
      exact ⟨rfl, rfl⟩
  | layered base fixed layers standIns ih =>
    unfold build at h
    simp only [bind, Except.bind, pure, Except.pure] at h
    split at h
    · cases h
    · rename_i start started
      split at h
      · cases h
      · rename_i layered folded
        cases h
        refine ⟨?_, rfl⟩
        rw [← (ih started).1]
        clear started
        induction layers generalizing start with
        | nil => cases folded; rfl
        | cons layer layers step =>
          simp only [List.foldlM_cons, bind, Except.bind] at folded
          split at folded
          · cases folded
          · rename_i next applied
            rw [show layered.version = next.version from step next folded]
            unfold applyLayer at applied
            split at applied
            · rw [← Assigned.record_of_toExcept applied]
              exact (StyleRecord.sameTags_assign start layer.assignments).1
            · cases applied
              rfl

end StyleContent

namespace Style

/-- **Resolve a style name** for a language. Names are found in any case. -/
def resolve (version : Version) (name : String) (language : Language) :
    Traced StyleError StyleRecord := do
  if version.schema.supports language then
    match version.schema.style? name with
    | some style =>
      Traced.log .debug
        s!"Resolving profile {style.name} for {language.text} under {version.text}"
      style.content.build version language
    | none => Traced.fail (.unknownStyle name version.text)
  else
    Traced.fail (.unsupportedLanguage language.text version.text)

/-- The style names of every version between the two, in the order of the first. -/
def commonNames (first last : Version) : List String :=
  let span := Version.all.filter fun v =>
    (decide (first ≤ v) && decide (v ≤ last)) || (decide (last ≤ v) && decide (v ≤ first))
  first.schema.styleNames.filter fun name =>
    span.all fun v => v.schema.styleNames.contains name

/-- The first of the names whose style has the values of a record. -/
def identifyAmong (r : StyleRecord) (language : Language) :
    List String → Traced StyleError (Option String)
  | [] => pure none
  | name :: names => do
    match ← (resolve r.version name language).attempt with
    | .ok candidate =>
      if candidate.sameValues r then pure (some name) else identifyAmong r language names
    | .error _ => identifyAmong r language names

/-- **Identify a record**: the first style of its version that has its values. -/
def identify (r : StyleRecord) (language : Language) : Traced StyleError (Option String) :=
  identifyAmong r language r.version.schema.styleNames

/-- The outcome of resolving a name, in one line per cause. -/
theorem outcome_resolve (version : Version) (name : String) (language : Language) :
    (resolve version name language).outcome =
      if version.schema.supports language then
        match version.schema.style? name with
        | some style => style.content.build version language
        | none => .error (.unknownStyle name version.text)
      else
        .error (.unsupportedLanguage language.text version.text) := by
  unfold resolve
  split
  · split <;> rfl
  · rfl

/-- A resolved record carries the version and the language it was asked for. -/
theorem tags_resolve {version : Version} {name : String} {language : Language} {r : StyleRecord}
    (h : (resolve version name language).outcome = .ok r) :
    r.version = version ∧ r.language = language := by
  rw [outcome_resolve] at h
  split at h
  · split at h
    · exact StyleContent.tags_of_build h
    · cases h
  · cases h

end Style

end FormatStyle
