import FormatStyle.Proofs.Lines
import FormatStyle.Proofs.Reread

/-! # Mappings of words

A mapping whose keys and values are words is printed as lines (`Yaml.toList_frame`), each word is
understood as what it was printed from, and so the mapping is read back
(`Configuration.readsBack_of_words`).
-/

namespace FormatStyle

namespace Yaml

open Node (ofTree? ofEntries?)

/-- **A node that is printed as a word**, and understood from it. -/
def Node.isPlainWord (isKey : Bool) : Node → Bool
  | .bool b => isWord (toString b).toList && Scalar.ofPlain (toString b) == some (.bool b)
  | .int n => isWord (toString n).toList && Scalar.ofPlain (toString n) == some (.int n)
  | .str s => isWord s.toList && Scalar.ofPlain s == some .text &&
      ScalarStyle.choose s isKey == .plain
  | _ => false

/-- The word that a node is printed as. -/
def Node.word (node : Node) : String := node.scalarText?.getD ""

/-- **An entry between two words.** -/
def isWordEntry : Node × Node → Bool
  | (.str name, value) => isKeyWord name.toList && (Node.str name).isSimpleKey &&
      (Node.str name).isPlainWord true && value.isPlainWord false
  | _ => false

/-- **A mapping of words**, with each key once. -/
def isWordMapping (m : Mapping) : Bool :=
  m.all isWordEntry && decide (m.filterMap fun e => e.1.str?).Nodup

variable {node : Node} {isKey : Bool} {e : Node × Node} {m : Mapping}

/-- The word of a node is a word, and is understood as the node. -/
theorem Node.isPlainWord_sound (h : node.isPlainWord isKey = true) :
    isWord node.word.toList = true ∧ ofTree? (.scalar none node.word true) = some node := by
  have understood : ∀ {meaning : Scalar}, Scalar.ofPlain node.word = some meaning →
      ofTree? (.scalar none node.word true) = some (ofScalar node.word meaning) := by
    intro meaning plain
    unfold ofTree?
    simp [ownTag?, Scalar.ofTagged, plain]
  cases node with
  | bool b =>
    simp only [isPlainWord, Bool.and_eq_true, beq_iff_eq] at h
    exact ⟨h.1, understood h.2⟩
  | int n =>
    simp only [isPlainWord, Bool.and_eq_true, beq_iff_eq] at h
    exact ⟨h.1, understood h.2⟩
  | str s =>
    simp only [isPlainWord, Bool.and_eq_true, beq_iff_eq] at h
    exact ⟨h.1.1, understood h.1.2⟩
  | _ => cases h

/-- A string that is a word is printed as it is. -/
theorem printString_word {s : String} {column : Nat} (h : (Node.str s).isPlainWord isKey = true) :
    printString s isKey column = ⟨s, false⟩ := by
  simp only [Node.isPlainWord, Bool.and_eq_true, beq_iff_eq] at h
  rw [printString, h.2]

/-- A value is printed behind a blank. -/
private theorem Node.print_value (h : node.isPlainWord false = true) :
    print ⟨some 0, true, false, false⟩ node = ⟨" " ++ node.word, false⟩ := by
  cases node with
  | bool b => rfl
  | int n => rfl
  | str s =>
    unfold print
    rw [printString_word h]
    rfl
  | _ => cases h

/-- A key is printed as it is. -/
private theorem Node.print_key {name : String} (h : (str name).isPlainWord true = true) :
    print ⟨none, true, true, true⟩ (str name) = ⟨"" ++ name, false⟩ := by
  unfold print
  rw [printString_word h]
  rfl

/-- An entry of words is printed on one line. -/
private theorem Node.printEntry_words (h : isWordEntry e = true) :
    printEntry 0 e = ⟨e.1.word ++ (":" ++ (" " ++ e.2.word)), false⟩ := by
  obtain ⟨key, value⟩ := e
  cases key with
  | str name =>
    simp only [isWordEntry, Bool.and_eq_true] at h
    obtain ⟨⟨⟨-, simple⟩, key⟩, written⟩ := h
    unfold printEntry
    rw [if_pos simple, print_value written, print_key key]
    simp only [Printed.after, Printed.beside, String.empty_append]
    rfl
  | _ => cases h

/-- The lines of the words of a mapping. -/
def Mapping.wordLines (m : Mapping) : List (String × String) :=
  m.map fun e => (e.1.word, e.2.word)

/-- **A mapping of words is printed as its lines.** By induction on its entries. -/
theorem Node.printEntries_words (words : ∀ e ∈ m, isWordEntry e = true) (some : m ≠ []) :
    ((printEntries 0 m).text ++ "\n").toList = (Mapping.wordLines m).flatMap lineOf ∧
      (printEntries 0 m).fresh = false := by
  induction m with
  | nil => exact absurd rfl some
  | cons e m ih =>
    rw [List.forall_mem_cons] at words
    have line := printEntry_words words.1
    cases m with
    | nil =>
      simp [printEntries, line, Mapping.wordLines, lineOf]
    | cons e' m =>
      obtain ⟨lines, fresh⟩ := ih words.2 (List.cons_ne_nil _ _)
      have printed : printEntries 0 (e :: e' :: m) =
          (printEntry 0 e).line (printEntries 0 (e' :: m)) 0 := by
        conv_lhs => unfold printEntries
      rw [printed, line]
      refine ⟨?_, fresh⟩
      simp only [Printed.line, Mapping.wordLines, List.map_cons, List.flatMap_cons] at lines ⊢
      rw [← lines]
      simp [lineOf, spaces]

/-- A mapping of words can be printed. -/
private theorem Node.printable_words (words : ∀ e ∈ m, isWordEntry e = true) :
    (mapping m).printable = true := by
  have each : ∀ e ∈ m, ∃ name, e.1 = .str name ∧ e.2.printable = true := by
    rintro ⟨key, value⟩ member
    have word := words _ member
    cases key with
    | str name =>
      simp only [isWordEntry, Bool.and_eq_true] at word
      refine ⟨name, rfl, ?_⟩
      cases value <;> first | rfl | cases word.2
    | _ => cases word
  have all : entriesPrintable m = true := by
    clear words
    induction m with
    | nil => rfl
    | cons e m ih =>
      rw [List.forall_mem_cons] at each
      obtain ⟨⟨name, key, value⟩, rest⟩ := each
      obtain ⟨_, _⟩ := e
      subst key
      simp [entriesPrintable, printable, value, ih rest]
  have single : singleKeyFits m = true := by
    match m, each with
    | [], _ => rfl
    | [e], each =>
      obtain ⟨name, key, -⟩ := each e List.mem_cons_self
      obtain ⟨_, _⟩ := e
      subst key
      rfl
    | _ :: _ :: _, _ => rfl
  unfold printable
  rw [all, single]
  rfl

/-- **The text of a mapping of words** shows it line by line. -/
theorem toList_frame (words : ∀ e ∈ m, isWordEntry e = true) (some : m ≠ []) :
    (StyleRecord.frame m).toList = linesText (Mapping.wordLines m) := by
  obtain ⟨lines, fresh⟩ := Node.printEntries_words words some
  obtain ⟨e, rest, rfl⟩ := List.exists_cons_of_ne_nil some
  have printed : Node.print ⟨none, false, false, true⟩ (.mapping (e :: rest)) =
      ⟨"" ++ (Node.printEntries 0 (e :: rest)).text, (Node.printEntries 0 (e :: rest)).fresh⟩ := by
    unfold Node.print
    rfl
  unfold StyleRecord.frame Node.render?
  rw [if_neg (by simp), if_pos (Node.printable_words words), printed]
  simp only [fresh]
  rw [linesText, ← lines]
  simp

/-- The words of an entry are words. -/
theorem words_of_entry (h : isWordEntry e = true) :
    isKeyWord e.1.word.toList = true ∧ isWord e.2.word.toList = true ∧
      ofTree? (.scalar none e.1.word true) = some e.1 ∧
      ofTree? (.scalar none e.2.word true) = some e.2 := by
  obtain ⟨key, value⟩ := e
  cases key with
  | str name =>
    simp only [isWordEntry, Bool.and_eq_true] at h
    obtain ⟨⟨⟨letters, -⟩, key⟩, value⟩ := h
    obtain ⟨word, understood⟩ := Node.isPlainWord_sound value
    exact ⟨letters, word, (Node.isPlainWord_sound key).2, understood⟩
  | _ => cases h

private theorem areWords_wordLines (words : ∀ e ∈ m, isWordEntry e = true) :
    areWords m.wordLines = true := by
  simp only [areWords, Mapping.wordLines, List.all_map, List.all_eq_true, Function.comp_apply,
    Bool.and_eq_true]
  exact fun e member => ⟨(words_of_entry (words e member)).1, (words_of_entry (words e member)).2.1⟩

/-- Lines of words hold allowed characters only. -/
private theorem isAllowed_linesText {entries : List (String × String)} (words : areWords entries = true) :
    (linesText entries).all isAllowed = true := by
  have allowed : ∀ {w : List Char}, isWord w = true → w.all isAllowed = true := by
    intro w word
    rw [List.all_eq_true]
    exact fun b member =>
      isAllowed_of_isWordChar (List.all_eq_true.mp (all_of_isWord word) b member)
  have lines : (entries.flatMap lineOf).all isAllowed = true := by
    rw [List.all_flatMap, List.all_eq_true]
    intro e member
    obtain ⟨key, value⟩ := Bool.and_eq_true_iff.mp (List.all_eq_true.mp words e member)
    simp only [lineOf, List.all_append, List.all_cons, allowed (isKeyWord_iff.mp key).1,
      allowed value]
    rfl
  simp only [linesText, List.all_cons, List.all_append, lines]
  rfl

/-- A key that is there once is not there before. -/
theorem hasKey_of_nodup {read : Mapping} (word : isWordEntry e = true)
    (nodup : ((read ++ e :: m).filterMap fun e => e.1.str?).Nodup) :
    Mapping.hasKey read e.1 = false := by
  obtain ⟨key, value⟩ := e
  cases key with
  | str name =>
    rw [Mapping.hasKey, List.any_eq_false]
    rintro ⟨other, _⟩ member same
    have here : other = .str name := by
      cases other <;> simp_all [Node.same]
    subst here
    rw [List.filterMap_append, List.nodup_append] at nodup
    exact nodup.2.2 name (List.mem_filterMap.mpr ⟨_, member, rfl⟩) name
      (List.mem_filterMap.mpr ⟨_, List.mem_cons_self, rfl⟩) rfl
  | _ => cases word

/-- **The tree of the lines of a mapping is the mapping.** By induction on its entries. -/
theorem ofEntries?_words {read : Mapping} (words : ∀ e ∈ m, isWordEntry e = true)
    (nodup : ((read ++ m).filterMap fun e => e.1.str?).Nodup) :
    ofEntries? read (m.wordLines.map fun e => (.scalar none e.1 true, .scalar none e.2 true)) =
      some (read ++ m) := by
  induction m generalizing read with
  | nil => simp [Mapping.wordLines, ofEntries?]
  | cons e m ih =>
    rw [List.forall_mem_cons] at words
    obtain ⟨-, -, key, value⟩ := words_of_entry words.1
    have fresh : Mapping.hasKey read e.1 = false := hasKey_of_nodup words.1 nodup
    simp only [Mapping.wordLines, List.map_cons]
    unfold ofEntries?
    simp only [key, value, fresh, Option.bind_eq_bind, Option.bind_some, Bool.false_eq_true,
      if_false]
    rw [List.append_cons read e m] at nodup ⊢
    exact ih words.2 nodup

end Yaml

namespace Configuration

open StyleRecord Yaml

/-- **A mapping of words reads back.** -/
theorem readsBack_of_words {m : Mapping} (words : isWordMapping m = true) : ReadsBack m := by
  intro some
  simp only [isWordMapping, Bool.and_eq_true, List.all_eq_true, decide_eq_true_eq] at words
  obtain ⟨words, nodup⟩ := words
  have lines := toList_frame words some
  have all := areWords_wordLines words
  have events : textEvents? (frame m).toList = Option.some ([m.wordLines].map plainDocument) := by
    rw [lines]
    exact textEvents?_linesText all (by simpa [Mapping.wordLines] using some)
  rw [documents_of_entries [m.wordLines] (lines ▸ isAllowed_linesText all) events
    (List.cons_ne_nil _ _)]
  have entries : Node.ofEntries? [] _ = Option.some ([] ++ m) :=
    ofEntries?_words words (by simpa using nodup)
  have tree : Node.ofTree? (plainTree m.wordLines) = Option.some (.mapping m) := by
    unfold plainTree Node.ofTree?
    rw [entries]
    rfl
  rw [List.map_singleton, tree]

end Configuration

end FormatStyle
