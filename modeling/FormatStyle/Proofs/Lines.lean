import FormatStyle.Proofs.Words

/-! # Texts of lines

A text of one word before a colon and one after it on each line, between the marks of a document, is
read as the mapping that it shows (`Yaml.textEvents?_linesText`): the reader of events comes back to
where it stood, one line further on (`Yaml.EventReader.next_key`, `Yaml.EventReader.next_value`),
and so through all lines (`Yaml.read_lines`).
-/

namespace FormatStyle.Yaml

variable {w rest : List Char} {b : Char} {fuel index line column taken : Nat}

/-! ## The events of a document -/

namespace EventReader

variable {r : EventReader} {token : Token} {tokens : List Token} {later : List Expectation}
  {handles : List (String × String)} {block indentless : Bool}

theorem peek_of_waiting (waiting : r.lexer.waiting = token :: tokens)
    (keys : r.lexer.keys = [none]) : r.peek = some (token, r) := by
  unfold peek
  rw [Lexer.peek_of_waiting waiting keys]
  rfl

/-- A scalar that waits is the next node. -/
private theorem node_scalar {text : String} {plain : Bool}
    (waiting : r.lexer.waiting = .scalar text plain :: tokens) (keys : r.lexer.keys = [none]) :
    r.node block indentless = some (.scalar none none text plain, r.skip.resume) := by
  unfold node properties
  simp [peek_of_waiting waiting keys]

/-- A mapping that waits to be opened is the next node. -/
private theorem node_mapping (waiting : r.lexer.waiting = .blockMappingStart :: tokens)
    (keys : r.lexer.keys = [none]) :
    r.node true indentless = some (.mappingStart none none, r.expect (.blockMappingKey true)) := by
  unfold node properties
  simp [peek_of_waiting waiting keys]

/-- A scalar that comes next is a node that is not left out. -/
theorem nodeUnless_scalar {l : Lexer} {stops : List Token} {follow : Expectation} {text : String}
    {plain : Bool} (next : r.lexer.peek = some (.scalar text plain, l))
    (waiting : l.waiting = .scalar text plain :: tokens) (keys : l.keys = [none])
    (goes : stops.contains (.scalar text plain) = false) :
    r.nodeUnless stops block indentless follow =
      some (.scalar none none text plain, ⟨l.skip, follow, r.later, r.handles⟩) := by
  have node : (⟨l, r.expected, follow :: r.later, r.handles⟩ : EventReader).node block indentless =
      some (.scalar none none text plain, _) := node_scalar waiting keys
  unfold nodeUnless peek
  rw [next]
  exact (if_neg (by rw [goes]; exact Bool.false_ne_true)).trans node

/-- The directives of a document that has none. -/
private theorem directives_of_documentStart (waiting : r.lexer.waiting = .documentStart :: tokens)
    (keys : r.lexer.keys = [none]) (fresh : r.handles = []) :
    directives (fuel + 1) false r = some { r with handles := defaultHandles } := by
  unfold directives
  simp [peek_of_waiting waiting keys, fresh]

/-- The start of a document. -/
private theorem next_start : (start ('-' :: '-' :: '-' :: '\n' :: rest)).next =
    some (.documentStart,
      ⟨.behindMark rest 3 0 1, .documentContent, [.documentEnd], defaultHandles⟩) := by
  have first : (start ('-' :: '-' :: '-' :: '\n' :: rest)).peek = some (.documentStart,
      ⟨{ Lexer.behindMark rest 3 0 0 with waiting := [.documentStart] }, .document true, [], []⟩) := by
    unfold peek start
    rw [Lexer.peek_start]
    rfl
  unfold next document
  simp only [start, if_true, Option.bind_eq_bind]
  simp only [start] at first
  simp only [first, Option.bind_some]
  rw [directives_of_documentStart rfl rfl rfl, Option.bind_some, peek_of_waiting rfl rfl]
  rfl

/-- The first line opens a mapping. -/
private theorem next_first (key : isKeyWord w = true) :
    (⟨.behindMark (w ++ ':' :: ' ' :: rest) index line taken, .documentContent, later, handles⟩ :
        EventReader).next =
      some (.mappingStart none none,
        ⟨.inLine (Lexer.keyTokens false w) (' ' :: rest) (index + 1 + w.length + 1) (line + 1)
          (w.length + 1) taken, .blockMappingKey true, later, handles⟩) := by
  unfold next
  simp only [peek, Lexer.peek_first key, Option.bind_eq_bind, Option.bind_some]
  exact node_mapping rfl rfl

/-- A reader at the start of a line of a mapping. -/
def atLine (rest : List Char) (index line taken : Nat) (later : List Expectation)
    (handles : List (String × String)) : EventReader :=
  ⟨.atLine true rest index line taken, .blockMappingKey false, later, handles⟩

/-- A reader behind the key of a line, at its colon. -/
def atColon (rest : List Char) (index line column taken : Nat) (later : List Expectation)
    (handles : List (String × String)) : EventReader :=
  ⟨.inLine [.value] rest index line column taken, .blockMappingValue, later, handles⟩

theorem blockMappingKey_of_peek {r' : EventReader} (next : r.peek = some (.key, r')) :
    r.blockMappingKey =
      r'.skip.nodeUnless [.key, .value, .blockEnd] true true .blockMappingValue := by
  unfold blockMappingKey
  rw [next]
  rfl

private theorem blockMappingValue_of_peek {r' : EventReader} (next : r.peek = some (.value, r')) :
    r.blockMappingValue =
      r'.skip.nodeUnless [.key, .value, .blockEnd] true true (.blockMappingKey false) := by
  unfold blockMappingValue
  rw [next]
  rfl

/-- The key of the first line. -/
private theorem next_firstKey :
    (⟨.inLine (Lexer.keyTokens false w) rest index line column taken, .blockMappingKey true, later,
        handles⟩ : EventReader).next =
      some (.scalar none none (String.ofList w) true,
        atColon rest index line column (taken + 3) later handles) := by
  have opening : (⟨.inLine (Lexer.keyTokens false w) rest index line column taken,
      .blockMappingKey true, later, handles⟩ : EventReader).peek = some (.blockMappingStart, _) :=
    peek_of_waiting rfl rfl
  have peeked : (⟨.inLine (Lexer.keyTokens true w) rest index line column (taken + 1),
      .blockMappingKey true, later, handles⟩ : EventReader).peek = some (.key, _) :=
    peek_of_waiting rfl rfl
  unfold next opened
  dsimp only
  rw [if_pos rfl, opening]
  refine (blockMappingKey_of_peek peeked).trans ?_
  exact nodeUnless_scalar (Lexer.peek_of_waiting rfl rfl) rfl rfl rfl

/-- The key of a line. -/
private theorem next_key (key : isKeyWord w = true) :
    (atLine (w ++ ':' :: ' ' :: rest) index line taken later handles).next =
      some (.scalar none none (String.ofList w) true,
        atColon (' ' :: rest) (index + w.length + 1) line (w.length + 1) (taken + 2) later
          handles) := by
  have peeked : (atLine (w ++ ':' :: ' ' :: rest) index line taken later handles).peek =
      some (.key, ⟨.inLine (Lexer.keyTokens true w) (' ' :: rest) (index + w.length + 1) line
        (w.length + 1) taken, .blockMappingKey false, later, handles⟩) := by
    unfold peek atLine
    rw [Lexer.peek_key key]
    rfl
  refine (blockMappingKey_of_peek peeked).trans ?_
  exact nodeUnless_scalar (Lexer.peek_of_waiting rfl rfl) rfl rfl rfl

/-- The value of a line. -/
theorem next_value (word : isWord w = true) (white : isWhite b = false) (more : isBreak b = false) :
    (atColon (' ' :: (w ++ '\n' :: b :: rest)) index line column taken later handles).next =
      some (.scalar none none (String.ofList w) true,
        atLine (b :: rest) (index + 1 + w.length + 1) (line + 1) (taken + 2) later handles) := by
  have peeked :
      (atColon (' ' :: (w ++ '\n' :: b :: rest)) index line column taken later handles).peek =
      some (.value, _) := peek_of_waiting rfl rfl
  have scalar : (Lexer.inLine [] (' ' :: (w ++ '\n' :: b :: rest)) index line column
      (taken + 1)).peek = some (.scalar _ true, _) := Lexer.peek_value word white more
  refine (blockMappingValue_of_peek peeked).trans ?_
  exact (nodeUnless_scalar scalar rfl rfl (by rfl)).trans rfl

/-- The mark behind the last line ends the mapping, and then the document. -/
private theorem next_end :
    (atLine ('.' :: '.' :: '.' :: '\n' :: rest) index line taken later handles).next =
    some (.mappingEnd, ⟨{ Lexer.behindMark rest (index + 3) line (taken + 1) with
      waiting := [.documentEnd] }, later.head?.getD .nothing, later.drop 1, handles⟩) := by
  have peeked : (atLine ('.' :: '.' :: '.' :: '\n' :: rest) index line taken later handles).peek =
      some (.blockEnd, ⟨{ Lexer.behindMark rest (index + 3) line taken with
        waiting := [.blockEnd, .documentEnd] }, .blockMappingKey false, later, handles⟩) := by
    unfold peek atLine
    rw [Lexer.peek_end]
    rfl
  change (atLine ('.' :: '.' :: '.' :: '\n' :: rest) index line taken later
    handles).blockMappingKey = _
  unfold blockMappingKey
  rw [peeked]
  rfl

private theorem next_documentEnd :
    (⟨{ Lexer.behindMark rest index line taken with waiting := [.documentEnd] }, .documentEnd, later,
        handles⟩ : EventReader).next =
      some (.documentEnd,
        ⟨.behindMark rest index line (taken + 1), .document false, later, handles⟩) := by
  unfold next
  dsimp only
  rw [peek_of_waiting rfl rfl]
  rfl

/-- The end of the text. -/
private theorem next_streamEnd : ∃ r,
    (⟨.behindMark [] index line taken, .document false, later, handles⟩ : EventReader).next =
      some (.streamEnd, r) := by
  obtain ⟨r, peeked⟩ : ∃ r, (⟨.behindMark [] index line taken, .document false, later, handles⟩ :
      EventReader).peek = some (.streamEnd, r) := by
    unfold peek
    rw [Lexer.peek_streamEnd]
    exact ⟨_, rfl⟩
  unfold next document skipEnds
  dsimp only
  rw [peeked]
  exact ⟨_, rfl⟩

end EventReader

/-! ## The lines of a document -/

/-- **A line**: a word before a colon and one after it. -/
def lineOf (e : String × String) : List Char := e.1.toList ++ ':' :: ' ' :: (e.2.toList ++ ['\n'])

/-- **The text of some lines**, between the marks of a document. -/
def linesText (entries : List (String × String)) : List Char :=
  '-' :: '-' :: '-' :: '\n' :: (entries.flatMap lineOf ++ ['.', '.', '.', '\n'])

/-- The words of some lines are words. -/
def areWords (entries : List (String × String)) : Bool :=
  entries.all fun e => isKeyWord e.1.toList && isWord e.2.toList

variable {entries : List (String × String)} {e : String × String}

/-- What follows a line starts with ink: another key, or the mark behind the last line. -/
theorem exists_ink (words : areWords entries = true) :
    ∃ b rest, entries.flatMap lineOf ++ ['.', '.', '.', '\n'] = b :: rest ∧ isWhite b = false ∧
      isBreak b = false := by
  cases entries with
  | nil => exact ⟨'.', _, rfl, rfl, rfl⟩
  | cons e entries =>
    rw [areWords, List.all_cons, Bool.and_eq_true, Bool.and_eq_true] at words
    obtain ⟨b, after, split, word, -⟩ := exists_cons_of_isWord (isKeyWord_iff.mp words.1.1).1
    have inked := isGap_of_isWordChar word
    simp only [isGap, Bool.or_eq_false_iff] at inked
    rw [List.flatMap_cons, lineOf, split]
    exact ⟨b, _, rfl, inked.1⟩

/-- The text from a line on. -/
theorem lines_cons :
    (e :: entries).flatMap lineOf ++ ['.', '.', '.', '\n'] = e.1.toList ++ ':' :: ' ' ::
      (e.2.toList ++ '\n' :: (entries.flatMap lineOf ++ ['.', '.', '.', '\n'])) := by
  rw [List.flatMap_cons, lineOf]
  simp

/-- The events of some lines. -/
def lineEvents (entries : List (String × String)) : List DocumentEvent :=
  entries.flatMap fun e => [.scalar none e.1 true, .scalar none e.2 true]

/-- A document goes on with an event that it takes. -/
theorem read_step {draft draft' : Document.Draft} {r r' : EventReader} {event : Event}
    (next : r.next = some (event, r')) (added : draft.add event = some draft')
    (inside : event ≠ .documentEnd ∧ event ≠ .streamEnd) :
    Document.read (fuel + 1) draft r = Document.read fuel draft' r' := by
  conv_lhs => unfold Document.read
  simp [next, added, inside]

private theorem read_documentEnd {draft : Document.Draft} {r r' : EventReader}
    (next : r.next = some (.documentEnd, r')) :
    Document.read (fuel + 1) draft r = some (⟨draft.events.reverse, draft.nodes⟩, r') := by
  unfold Document.read
  simp [next]

/-- **The lines of a document are read** one after the other. By induction on the lines. -/
theorem read_lines {draft : Document.Draft} {handles : List (String × String)}
    (words : areWords entries = true) :
    ∃ index' line' taken', Document.read (2 * entries.length + (fuel + 2)) draft
        (.atLine (entries.flatMap lineOf ++ ['.', '.', '.', '\n']) index line taken [.documentEnd]
          handles) =
      some (⟨draft.events.reverse ++ lineEvents entries ++ [.mappingEnd], draft.nodes⟩,
        ⟨.behindMark [] index' line' taken', .document false, [], handles⟩) := by
  induction entries generalizing draft index line taken with
  | nil =>
    refine ⟨index + 3, line, taken + 2, ?_⟩
    rw [List.length_nil, Nat.mul_zero, Nat.zero_add]
    refine (read_step EventReader.next_end rfl (by decide)).trans ?_
    refine (read_documentEnd EventReader.next_documentEnd).trans ?_
    simp [Document.Draft.push, lineEvents]
  | cons e entries ih =>
    rw [areWords, List.all_cons, Bool.and_eq_true, Bool.and_eq_true] at words
    obtain ⟨⟨key, value⟩, words⟩ := words
    obtain ⟨b, rest, here, white, more⟩ := exists_ink words
    obtain ⟨index', line', taken', read⟩ := ih words
    refine ⟨index', line', taken', ?_⟩
    rw [lines_cons, here, List.length_cons, Nat.mul_succ, Nat.add_right_comm]
    refine (read_step (EventReader.next_key key) rfl (by simp)).trans ?_
    refine (read_step (EventReader.next_value value white more) rfl (by simp)).trans ?_
    rw [← here, read]
    simp [Document.Draft.push, Document.Draft.define, lineEvents]

/-- **A document of lines is read** as the mapping that it shows. -/
theorem read_document (words : areWords entries = true) (some : entries ≠ []) :
    ∃ index line taken, Document.read (2 * entries.length + (fuel + 3)) .empty
        ⟨.behindMark (entries.flatMap lineOf ++ ['.', '.', '.', '\n']) 3 0 1, .documentContent,
          [.documentEnd], EventReader.defaultHandles⟩ =
      Option.some (plainDocument entries,
        ⟨.behindMark [] index line taken, .document false, [], EventReader.defaultHandles⟩) := by
  obtain ⟨e, entries, rfl⟩ := List.exists_cons_of_ne_nil some
  rw [areWords, List.all_cons, Bool.and_eq_true, Bool.and_eq_true] at words
  obtain ⟨⟨key, value⟩, words⟩ := words
  obtain ⟨b, rest, here, white, more⟩ := exists_ink words
  obtain ⟨index, line, taken, read⟩ := read_lines words
  refine ⟨index, line, taken, ?_⟩
  rw [lines_cons, here, List.length_cons,
    show 2 * (entries.length + 1) + (fuel + 3) = 2 * entries.length + (fuel + 2) + 3 by omega]
  refine (read_step (EventReader.next_first key) rfl (by simp)).trans ?_
  refine (read_step EventReader.next_firstKey rfl (by simp)).trans ?_
  refine (read_step (EventReader.next_value value white more) rfl (by simp)).trans ?_
  rw [← here, read]
  simp [Document.Draft.push, Document.Draft.define, Document.Draft.empty, lineEvents, plainDocument]

/-- Each line takes at least as many characters as it has events. -/
theorem length_lines_le (entries : List (String × String)) :
    2 * entries.length ≤ (entries.flatMap lineOf).length := by
  induction entries with
  | nil => exact Nat.le_refl _
  | cons e entries ih =>
    simp only [List.flatMap_cons, List.length_append, List.length_cons, lineOf]
    omega

private theorem documentEvents?_cons {eventFuel : Nat} {r r' r'' : EventReader} {d : Document}
    {ds : List Document} (next : r.next = some (.documentStart, r'))
    (read : Document.read eventFuel .empty r' = some (d, r''))
    (left : documentEvents? eventFuel fuel r'' = some ds) :
    documentEvents? eventFuel (fuel + 1) r = some (d :: ds) := by
  unfold documentEvents?
  simp [next, read, left]

private theorem documentEvents?_nil {eventFuel : Nat} {r r' : EventReader}
    (next : r.next = some (.streamEnd, r')) :
    documentEvents? eventFuel (fuel + 1) r = some [] := by
  unfold documentEvents?
  simp [next]

/-- **A text of lines has the document that it shows.** -/
theorem textEvents?_linesText (words : areWords entries = true) (some : entries ≠ []) :
    textEvents? (linesText entries) = Option.some [plainDocument entries] := by
  obtain ⟨left, enough⟩ : ∃ left, 16 * ((linesText entries).length + 8) =
      2 * entries.length + (left + 3) := by
    have long := length_lines_le entries
    refine ⟨16 * ((linesText entries).length + 8) - 2 * entries.length - 3, ?_⟩
    simp only [linesText, List.length_cons, List.length_append]
    omega
  obtain ⟨index, line, taken, read⟩ : ∃ index line taken, _ := read_document words some
  obtain ⟨r, ended⟩ : ∃ r, (⟨.behindMark [] index line taken, .document false, [],
    EventReader.defaultHandles⟩ : EventReader).next = Option.some (.streamEnd, r) :=
      EventReader.next_streamEnd
  unfold textEvents?
  rw [enough]
  exact documentEvents?_cons EventReader.next_start read (documentEvents?_nil ended)

end FormatStyle.Yaml
