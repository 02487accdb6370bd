import FormatStyle.Document
import FormatStyle.Yaml.Resolve

/-! # Configurations

A configuration is a sequence of documents. The first may be for every language, and then the
others start from it; each other document is for a language of its own. The document for the
requested language counts, or else the one for every language.
-/

namespace FormatStyle

open Yaml (Node Mapping)

/-- **A configuration read for one language**: the record, and the style that the selected
document is based on, as it is written. -/
structure Configuration where
  record : StyleRecord
  basedOn : Option String
  deriving DecidableEq, Repr

namespace Configuration

/-- The mapping of the next document of a text. An empty document is an empty mapping. -/
def nextMapping (read : List Mapping) (document : Option Node) :
    Except StyleError (List Mapping) :=
  match document with
  | none => .error (.malformedText .yaml)
  | some .null => .ok (read ++ [[]])
  | some (.mapping entries) => .ok (read ++ [entries])
  | some other => .error (.malformedText (.notMapping read.length other.describe))

/-- **The mappings of a text**, one for each document. -/
def mappings (text : String) : Except StyleError (List Mapping) :=
  (Yaml.documents text).foldlM nextMapping []

/-- The record that the next document starts from. -/
def template (ambient : StyleRecord) (read : List Document) : StyleRecord :=
  match read with
  | first :: _ => if first.language = .none then first.record else ambient
  | [] => ambient

/-- Read the next document and check that its language is new. -/
def readNext (requested : Language) (ambient : StyleRecord) (read : List Document) (m : Mapping) :
    Traced StyleError (List Document) := do
  let document ← Document.read requested (template ambient read) read.length m
  if document.language ≠ .none ∧ read.any (·.language = document.language) then
    Traced.fail (.duplicateLanguage document.language.text)
  else
    return read ++ [document]

/-- **Read all documents**, each on top of its template. -/
def readAll (requested : Language) (ambient : StyleRecord) (ms : List Mapping) :
    Traced StyleError (List Document) :=
  ms.foldlM (readNext requested ambient) []

/-- The position of the document that counts for a language. -/
def selected? (documents : List Document) (requested : Language) : Option Nat :=
  match documents.findIdx? (·.language = requested) with
  | some index => some index
  | none => if documents.head?.any (·.language = .none) then some 0 else none

/-- **Select the document** for a language. -/
def select (documents : List Document) (requested : Language) :
    Traced StyleError Configuration :=
  match (selected? documents requested).map fun index => (index, documents[index]?) with
  | some (index, some document) => do
    Traced.log .debug s!"Selected document {index} for {requested.text}"
    return ⟨{ document.record with language := requested }, document.basedOn⟩
  | _ => Traced.fail (.unsuitableLanguage requested.text)

/-- Check that a record keeps the laws of its schema. -/
def checkLaws (r : StyleRecord) : Except StyleError Unit :=
  match r.brokenConstraint? with
  | some law => .error (.constraintViolation law.name law.reason)
  | none => .ok ()

/-- **The configuration of a sequence of mappings**, for a language, on top of an ambient
record. -/
def ofMappings (requested : Language) (ambient : StyleRecord) (ms : List Mapping) :
    Traced StyleError Configuration := do
  let version := ambient.version
  if !version.schema.conventions.languageKey && 1 < ms.length then
    Traced.fail (.malformedText (.severalDocuments version.text ms.length))
  else
    Traced.log .debug s!"Read {ms.length} document(s) under {version.text}"
    let documents ← readAll requested ambient ms
    let configuration ← select documents requested
    checkLaws configuration.record
    return configuration

/-- **What blank text means** for a version. -/
def ofBlank (requested : Language) (ambient : StyleRecord) : Except StyleError Configuration :=
  match ambient.schema.conventions.blankText with
  | .ambient => .ok ⟨ambient, none⟩
  | .noDocuments => .error (.unsuitableLanguage requested.text)
  | .malformed => .error (.malformedText .empty)

/-- **Read configuration text** under a version, for a language, on top of an ambient record of
the same version. -/
def read (version : Version) (text : String) (requested : Language) (ambient : StyleRecord) :
    Traced StyleError Configuration := do
  if version.schema.supports requested then
    if ambient.version = version then
      let ambient := { ambient with language := requested }
      if Text.isBlankText text then
        ofBlank requested ambient
      else
        let ms ← mappings text
        ofMappings requested ambient ms
    else
      Traced.fail (.configuration (.ambientVersion ambient.version.text version.text))
  else
    Traced.fail (.unsupportedLanguage requested.text version.text)

end Configuration

end FormatStyle
