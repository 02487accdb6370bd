import FormatStyle.Proofs.Manifests
import FormatStyle.Proofs.ObjectKeys

/-! # Manifests in data

Data that keep the rule of manifests hold a manifest, and what it says is what the data say: its
entries are the items under `files` in their order, each with its paths, and a setting is there
exactly where its key is (`Manifest.decodes_kept`). So a text is never refused because its data
cannot be decoded.
-/

namespace FormatStyle

namespace Rule

variable {entries : List (String × Datum)} {rules : List (String × Rule)} {d : Datum}

/-- Rules for keys are kept where each is kept by what its key is looked up as. -/
theorem keptKeys_iff : KeptKeys rules entries ↔
    ∀ rule ∈ rules, ∀ d, entries.lookup rule.1 = some d → Kept rule.2 d := by
  induction rules with
  | nil => simp [KeptKeys]
  | cons rule rules ih => rw [KeptKeys, ih, List.forall_mem_cons]

theorem exists_entries (kept : (typed [.object]).Kept d) : ∃ entries, d = .object entries := by
  cases d <;> simp_all [Kept, DatumType.has]

private theorem exists_items (kept : (typed [.array]).Kept d) : ∃ items, d = .list items := by
  cases d <;> simp_all [Kept, DatumType.has]

theorem exists_flag (kept : (typed [.boolean]).Kept d) : ∃ b, d = .bool b := by
  cases d <;> simp_all [Kept, DatumType.has]

private theorem exists_text (kept : (typed [.string]).Kept d) : ∃ s, d = .text s := by
  cases d <;> simp_all [Kept, DatumType.has]

end Rule

/-! ## Settings -/

/-- The text of a version: a text stays what it is, and a number is written as data are shown. -/
def Datum.versionText : Datum → String
  | text s => s
  | d => d.display

namespace Settings

open Manifest

variable {done entries : List (String × Datum)} {key : String} {d : Datum}

/-- **Settings are written in data**: each is there exactly where its key is, a text and a flag as
they are, and a version with its text. -/
structure WrittenIn (s : Settings) (d : Datum) : Prop where
  source : s.source = (d.get? "from").map Datum.versionText
  target : s.target = (d.get? "to").map Datum.versionText
  language : s.language.map .text = d.get? "language"
  fallbackStyle : s.fallbackStyle.map .text = d.get? "fallbackStyle"
  skipSame : s.skipSame.map .bool = d.get? "skipSame"

/-- The rule for the value of a key. -/
def keyRule : String → Rule
  | "from" | "to" => versionRule
  | "language" | "fallbackStyle" => nameRule
  | "skipSame" => .typed [.boolean]
  | _ => .all []

/-- The settings that are found under their keys. -/
def found (d : Datum) : Settings where
  source := (d.get? "from").map Datum.versionText
  target := (d.get? "to").map Datum.versionText
  language := (d.get? "language").bind Datum.text?
  fallbackStyle := (d.get? "fallbackStyle").bind Datum.text?
  skipSame := (d.get? "skipSame").bind fun | .bool b => some b | _ => none

/-- Data that keep the rule of settings keep the rule of each key. -/
theorem kept_keyRule (kept : settingsRule.Kept (.object entries))
    (there : entries.lookup key = some d) : (keyRule key).Kept d := by
  simp only [settingsRule, Rule.Kept, Rule.KeptAll, Datum.object.injEq, forall_eq',
    Rule.keptKeys_iff, List.forall_mem_cons] at kept
  obtain ⟨⟨fallbackStyle, source, language, skipSame, target, -⟩, -⟩ := kept
  unfold keyRule
  split
  · exact source d there
  · exact target d there
  · exact language d there
  · exact fallbackStyle d there
  · exact skipSame d there
  · trivial

theorem readVersion_of_kept (kept : versionRule.Kept d) :
    readVersion d = .ok (some d.versionText) := by
  cases d with
  | int | float | text => rfl
  | _ => simp [versionRule, Rule.Kept, DatumType.has] at kept

theorem text_of_kept (kept : nameRule.Kept d) : ∃ s, d = .text s := by
  rw [nameRule, Rule.Kept, Rule.KeptAll, Rule.KeptAll] at kept
  exact Rule.exists_text kept.2.1

/-- **One more key is read**, where it has not been read before. -/
theorem readKey_found (fresh : (Datum.object done).get? key = none)
    (kept : (keyRule key).Kept d) :
    readKey (found (.object done)) (key, d) = .ok (found (.object (done ++ [(key, d)]))) := by
  unfold readKey
  dsimp only
  split
  · rw [readVersion_of_kept kept]
    simp [found, Datum.get?_snoc, fresh]
  · rw [readVersion_of_kept kept]
    simp [found, Datum.get?_snoc, fresh]
  · obtain ⟨s, rfl⟩ := text_of_kept kept
    simp [found, Datum.get?_snoc, fresh, readText, Datum.text?]
  · obtain ⟨s, rfl⟩ := text_of_kept kept
    simp [found, Datum.get?_snoc, fresh, readText, Datum.text?]
  · obtain ⟨b, rfl⟩ := Rule.exists_flag kept
    simp [found, Datum.get?_snoc, fresh, readFlag]
  · simp_all [found, Datum.get?_snoc]

/-- **Settings are read key by key**, from what has been read before. -/
theorem foldlM_readKey (done : List (String × Datum)) (once : ((done ++ entries).map (·.1)).Nodup)
    (kept : ∀ entry ∈ entries, (keyRule entry.1).Kept entry.2) :
    entries.foldlM readKey (found (.object done)) = .ok (found (.object (done ++ entries))) := by
  induction entries generalizing done with
  | nil => rw [List.append_nil]; rfl
  | cons entry entries ih =>
    rw [List.forall_mem_cons] at kept
    have split : done ++ entry :: entries = done ++ [entry] ++ entries := by simp
    have fresh : (Datum.object done).get? entry.1 = none := by
      apply Datum.lookup_of_notMem
      intro earlier
      rw [List.map_append, List.nodup_append] at once
      exact once.2.2 entry.1 earlier entry.1 List.mem_cons_self rfl
    rw [List.foldlM_cons, readKey_found fresh kept.1, Outcome.ok_bind, split]
    exact ih _ (split ▸ once) kept.2

/-- Settings that are found under keys whose rules are kept are written there. -/
private theorem writtenIn_found (kept : settingsRule.Kept (.object entries)) :
    (found (.object entries)).WrittenIn (.object entries) := by
  have texts : ∀ key, keyRule key = nameRule →
      (((Datum.object entries).get? key).bind Datum.text?).map Datum.text =
        (Datum.object entries).get? key := by
    intro key named
    cases there : (Datum.object entries).get? key with
    | none => rfl
    | some d =>
      obtain ⟨s, rfl⟩ := text_of_kept (named ▸ kept_keyRule kept there)
      rfl
  refine ⟨rfl, rfl, texts "language" rfl, texts "fallbackStyle" rfl, ?_⟩
  unfold found
  cases there : (Datum.object entries).get? "skipSame" with
  | none => rfl
  | some d =>
    obtain ⟨b, rfl⟩ := Rule.exists_flag (kept_keyRule kept there)
    rfl

/-- **Data that keep the rule of settings are settings**, those that are written there. -/
theorem exists_ofEntries (once : (entries.map (·.1)).Nodup)
    (kept : settingsRule.Kept (.object entries)) :
    ∃ s, ofEntries entries = .ok s ∧ s.WrittenIn (.object entries) := by
  refine ⟨found (.object entries), ?_, writtenIn_found kept⟩
  apply foldlM_readKey [] once
  intro entry member
  exact kept_keyRule kept (Datum.lookup_of_mem once member)

end Settings

/-! ## Entries -/

/-- **An entry is written in data**: its paths under their keys, and its settings. -/
structure FileEntry.WrittenIn (entry : FileEntry) (d : Datum) : Prop where
  input : d.get? "input" = some (.text entry.input)
  output : d.get? "output" = some (.text entry.output)
  settings : entry.settings.WrittenIn d

namespace Manifest

variable {d : Datum} {entries : List (String × Datum)}

/-- A required key is found, and its value keeps the rule for it. -/
theorem exists_required (key : String) {rules : List (String × Rule)} {keys : List String}
    (only : (Rule.onlyProperties rules).Kept (.object entries))
    (required : (Rule.required keys).Kept (.object entries)) (member : key ∈ keys) :
    ∃ d, entries.lookup key = some d ∧ Rule.KeptUnder rules key d := by
  simp only [Rule.Kept] at only required
  have listed := required entries rfl key member
  cases there : entries.lookup key with
  | none =>
    obtain ⟨entry, member, same⟩ := List.mem_map.mp listed
    have absent := List.lookup_eq_none_iff.mp there entry member
    exact absurd same.symm (bne_iff_ne.mp absent)
  | some d => exact ⟨d, rfl, only entries rfl (key, d) (Datum.mem_of_lookup there)⟩

/-- **Data that keep the rule of entries are an entry**, the one that is written there. -/
theorem exists_entryOfDatum? (once : d.KeysOnce) (kept : entryRule.Kept d) :
    ∃ entry, entryOfDatum? d = some entry ∧ entry.WrittenIn d := by
  simp only [entryRule, Rule.Kept.eq_1, Rule.KeptAll, and_true] at kept
  obtain ⟨only, settings, required, object⟩ := kept
  obtain ⟨entries, rfl⟩ := Rule.exists_entries object
  obtain ⟨keys, -⟩ := Datum.keysOnce_object_iff.mp once
  obtain ⟨s, read, written⟩ := Settings.exists_ofEntries keys settings
  obtain ⟨input, inputThere, inputKept⟩ := exists_required "input" only required (by simp)
  obtain ⟨output, outputThere, outputKept⟩ := exists_required "output" only required (by simp)
  obtain ⟨i, rfl⟩ := Settings.text_of_kept inputKept
  obtain ⟨o, rfl⟩ := Settings.text_of_kept outputKept
  refine ⟨⟨i, o, s⟩, ?_, inputThere, outputThere, written⟩
  rw [entryOfDatum?, inputThere, outputThere, read]
  rfl

/-! ## Manifests -/

/-- **A manifest is written in data**: its settings, and its entries under their key, in order. -/
structure WrittenIn (m : Manifest) (d : Datum) : Prop where
  defaults : m.defaults.WrittenIn d
  files : ∃ files, d.get? "files" = some (.list files) ∧
    List.Forall₂ (fun file entry => entry.WrittenIn file) files m.files

/-- **Data that keep the rule of manifests are a manifest**, the one that is written there. -/
theorem exists_ofDatum? (once : d.KeysOnce) (kept : rule.Kept d) :
    ∃ m, ofDatum? d = some m ∧ m.WrittenIn d := by
  simp only [rule, Rule.Kept.eq_1, Rule.KeptAll, and_true] at kept
  obtain ⟨only, settings, required, object⟩ := kept
  obtain ⟨entries, rfl⟩ := Rule.exists_entries object
  obtain ⟨keys, values⟩ := Datum.keysOnce_object_iff.mp once
  obtain ⟨defaults, read, written⟩ := Settings.exists_ofEntries keys settings
  obtain ⟨listed, there, filesKept⟩ := exists_required "files" only required (by simp)
  simp only [Rule.KeptUnder, ↓reduceIte, Rule.Kept.eq_1, Rule.KeptAll, and_true] at filesKept
  obtain ⟨each, -, array⟩ := filesKept
  obtain ⟨files, rfl⟩ := Rule.exists_items array
  rw [Rule.Kept] at each
  have single := Datum.keysOnce_list_iff.mp (values _ (Datum.mem_of_lookup there))
  obtain ⟨entries', decoded, related⟩ := Outcome.exists_mapM_eq_some (f := entryOfDatum?)
    fun file member => exists_entryOfDatum? (single file member) (each files rfl file member)
  refine ⟨⟨defaults, entries'⟩, ?_, written, files, there, related⟩
  rw [ofDatum?, read, there]
  dsimp only [Except.toOption, Option.bind_eq_bind, Option.bind_some]
  rw [decoded]
  rfl

/-- The check of a manifest only fails for one of its entries. -/
private theorem check_ne_manifestContent (m : Manifest) :
    m.check ≠ .error (.configuration .manifestContent) := by
  intro failed
  unfold check at failed
  cases checked : m.files.foldlM (checkNext m.defaults) [] with
  | ok outputs => rw [checked] at failed; cases failed
  | error e =>
    rw [checked] at failed
    cases failed
    obtain ⟨entry, -, seen, step⟩ := Outcome.exists_step_of_foldlM_error checked
    unfold checkNext at step
    cases passes : checkEntry m.defaults entry with
    | error e => rw [passes] at step; cases step
    | ok u =>
      rw [passes] at step
      dsimp only [Except.mapError, Outcome.ok_bind] at step
      split at step <;> cases step

/-- **Data that keep the rule of manifests are decoded**, where each object has each key once: the
manifest has the entries that the data list, in their order and with their paths, and each setting
exactly where the data have it. Data that are read from a text have each key once, so that no text
is refused because its data cannot be decoded. -/
theorem decodes_kept :
    (∀ d : Datum, d.KeysOnce → rule.Kept d → ∃ m, ofDatum? d = some m ∧ m.WrittenIn d) ∧
      ∀ text, read text ≠ .error (.configuration .manifestContent) := by
  refine ⟨fun d => exists_ofDatum?, fun text refused => ?_⟩
  unfold read at refused
  split at refused
  · cases refused
  · rename_i d understood
    split at refused
    · rename_i shaped
      obtain ⟨m, decoded, -⟩ := exists_ofDatum? (Datum.keysOnce_of_ofYaml? understood)
        ((Rule.violations_eq_nil_iff [] rule d).mp shaped)
      rw [decoded] at refused
      dsimp only at refused
      cases checked : m.check with
      | error e =>
        rw [checked] at refused
        cases refused
        exact check_ne_manifestContent m checked
      | ok u => rw [checked] at refused; cases refused
    · cases refused

/-- A manifest with a version in each form, and an entry with settings of its own. -/
def javaData : Datum := .object [
  ("files", .list [
    .object [("input", .text "a"), ("language", .text "Java"), ("output", .text "out"),
      ("skipSame", .bool false)],
    .object [("input", .text "b"), ("output", .text "./out")]]),
  ("from", .text "3.6"), ("to", .int 16)]

theorem keysOnce_javaData : javaData.KeysOnce := by
  simp [javaData]

/-- These data are decoded, and the number is there as its text. -/
theorem decodes_kept_java : javaData.KeysOnce ∧ rule.Kept javaData ∧
    ∃ m, ofDatum? javaData = some m ∧ m.WrittenIn javaData ∧ m.defaults.target = some "16" := by
  have kept : rule.Kept javaData := (Rule.violations_eq_nil_iff [] rule javaData).mp
    (List.isEmpty_iff.mp (by decide))
  obtain ⟨m, decoded, written⟩ := decodes_kept.1 javaData keysOnce_javaData kept
  exact ⟨keysOnce_javaData, kept, m, decoded, written, written.defaults.target.trans rfl⟩

end Manifest

end FormatStyle
