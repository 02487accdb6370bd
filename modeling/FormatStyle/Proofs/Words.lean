import FormatStyle.Proofs.Streams

/-! # Words on a line

What the lexer makes of a line with one word before a colon and one after it: the tokens of the key,
with the colon (`Yaml.Lexer.peek_first`, `Yaml.Lexer.peek_key`), and the token of the value, with
the end of the line (`Yaml.Lexer.peek_value`). Behind a line it stands as it stood in front of it.
-/

namespace FormatStyle.Yaml

/-- **A word**: letters, digits, `-` and `_`, and not a lone `-`. -/
def isWord (w : List Char) : Bool := !w.isEmpty && w != ['-'] && w.all isWordChar

/-- A word that may stand before the colon of an entry. -/
def isKeyWord (w : List Char) : Bool := isWord w && w.head? != some '-' && w.length ≤ 1024

variable {w rest after : List Char} {b : Char} {fuel index line column taken : Nat}

/-- A word has a first character. Another one follows a hyphen. -/
theorem exists_cons_of_isWord (word : isWord w = true) :
    ∃ b after, w = b :: after ∧ isWordChar b = true ∧ after.all isWordChar = true ∧
      (b = '-' → after ≠ []) := by
  simp only [isWord, Bool.and_eq_true, bne_iff_ne] at word
  obtain ⟨⟨some, lone⟩, all⟩ := word
  cases w with
  | nil => cases some
  | cons b after =>
    rw [List.all_cons, Bool.and_eq_true] at all
    refine ⟨b, after, rfl, all.1, all.2, ?_⟩
    rintro rfl rfl
    exact lone rfl

theorem all_of_isWord (word : isWord w = true) : w.all isWordChar = true :=
  (Bool.and_eq_true_iff.mp word).2

/-- A word before a colon is a short word that starts with no hyphen. -/
theorem isKeyWord_iff : isKeyWord w = true ↔
    isWord w = true ∧ w.head? ≠ some '-' ∧ w.length ≤ 1024 := by
  simp [isKeyWord, and_assoc]

/-! ## Characters of words -/

/-- The codes of the characters of words. -/
theorem toNat_of_isWordChar (h : isWordChar b = true) :
    (48 ≤ b.toNat ∧ b.toNat ≤ 57) ∨ (65 ≤ b.toNat ∧ b.toNat ≤ 90) ∨
      (97 ≤ b.toNat ∧ b.toNat ≤ 122) ∨ b.toNat = 45 ∨ b.toNat = 95 := by
  have ranges : isWordChar b = ((decide (65 ≤ b.val ∧ b.val ≤ 90) ||
      (97 ≤ b.val && b.val ≤ 122) || (48 ≤ b.val && b.val ≤ 57)) || b == '-' || b == '_') := rfl
  simp only [ranges, Bool.or_eq_true, Bool.and_eq_true, decide_eq_true_eq, beq_iff_eq,
    UInt32.le_iff_toNat_le] at h
  rcases h with (((h | h) | h) | rfl) | rfl
  · exact .inr (.inl h)
  · exact .inr (.inr (.inl h))
  · exact .inl h
  · exact .inr (.inr (.inr (.inl rfl)))
  · exact .inr (.inr (.inr (.inr rfl)))

/-- A character of a word ends no word. -/
theorem isGap_of_isWordChar (h : isWordChar b = true) : isGap b = false := by
  have codes := toNat_of_isWordChar h
  have space : b ≠ ' ' := by rintro rfl; revert h; decide
  have tab : b ≠ '\t' := by rintro rfl; revert h; decide
  simp only [isGap, isWhite, isBreak, Bool.or_eq_false_iff, beq_eq_false_iff_ne]
  exact ⟨⟨⟨space, tab⟩, by omega⟩, by omega⟩

theorem isAllowed_of_isWordChar (h : isWordChar b = true) : isAllowed b = true := by
  have codes := toNat_of_isWordChar h
  simp only [isAllowed, Bool.or_eq_true, Bool.and_eq_true, decide_eq_true_eq, beq_iff_eq]
  omega

/-- The one indicator among the characters of words is the hyphen. -/
private theorem isIndicator_of_isWordChar (h : isWordChar b = true) (hyphen : b ≠ '-') :
    isIndicator b = false := by
  rw [isIndicator, Bool.eq_false_iff, ne_eq, List.contains_iff_mem]
  intro member
  simp only [List.mem_cons, List.not_mem_nil, or_false] at member
  rcases member with rfl | member
  · exact hyphen rfl
  · revert h
    rcases member with rfl | rfl | rfl | rfl | rfl | rfl | rfl | rfl | rfl | rfl | rfl | rfl | rfl |
      rfl | rfl | rfl | rfl | rfl <;> decide

/-! ## Scanning a word -/

namespace Scan

/-- **A plain scalar goes on over a word.** By induction on the word. -/
theorem plain_word {read : List Char} {limit : Nat} (word : w.all isWordChar = true) :
    plain false limit (w.length + fuel) read ⟨[], [], [], false⟩ ⟨w ++ rest, index, line, column⟩ =
      plain false limit fuel (w.reverse ++ read) ⟨[], [], [], false⟩
        ⟨rest, index + w.length, line, column + w.length⟩ := by
  induction w generalizing read index column with
  | nil => rw [List.length_nil, Nat.zero_add]; rfl
  | cons b w ih =>
    rw [List.all_cons, Bool.and_eq_true] at word
    have inked := isGap_of_isWordChar word.1
    have colon : (b == ':') = false := by
      refine beq_eq_false_iff_ne.mpr ?_
      rintro rfl
      exact absurd word.1 (by decide)
    rw [List.length_cons, Nat.succ_add_eq_add_succ, ← Nat.add_assoc, Nat.add_right_comm,
      List.cons_append]
    conv_lhs => unfold plain
    simp only [Bool.false_and, Bool.false_eq_true, if_false, colon, inked]
    rw [show (Gap.joined ⟨[], [], [], false⟩).reverse ++ read = read from rfl]
    refine (ih word.2).trans ?_
    simp only [List.reverse_cons, List.append_assoc, List.singleton_append, Nat.add_assoc,
      Nat.add_comm 1]

/-- A word before a colon is read up to the colon. -/
private theorem plain_before_colon {limit : Nat} (word : w.all isWordChar = true)
    (enough : w.length < fuel) :
    plain false limit fuel [] ⟨[], [], [], false⟩ ⟨w ++ ':' :: ' ' :: rest, index, line, column⟩ =
      some (w, false, ⟨':' :: ' ' :: rest, index + w.length, line, column + w.length⟩) := by
  obtain ⟨left, rfl⟩ := Nat.exists_eq_add_of_lt enough
  rw [Nat.add_assoc, plain_word word, List.append_nil]
  unfold plain
  simp [plainEnd, startsWithGap, isGap, isWhite]

/-- A word at the end of a line is read with the break, if the next line is indented less. -/
private theorem plain_before_break {limit : Nat} (word : w.all isWordChar = true)
    (white : isWhite b = false)
    (more : isBreak b = false) (limited : 0 < limit) (enough : w.length < fuel) :
    plain false limit fuel [] ⟨[], [], [], false⟩ ⟨w ++ '\n' :: b :: rest, index, line, column⟩ =
      some (w, true, ⟨b :: rest, index + w.length + 1, line + 1, 0⟩) := by
  have broken : isBreak '\n' = true := rfl
  have unblank : isWhite '\n' = false := rfl
  have gap : Gap.scanAt limit ⟨'\n' :: b :: rest, index + w.length, line, column + w.length⟩ =
      some (⟨[], ['\n'], [], true⟩, ⟨b :: rest, index + w.length + 1, line + 1, 0⟩) := by
    simp [Gap.scanAt, Gap.scan, Cursor.takeBreak, broken, unblank, white, more]
  obtain ⟨left, rfl⟩ := Nat.exists_eq_add_of_lt enough
  rw [Nat.add_assoc, plain_word word, List.append_nil]
  unfold plain
  simp [gap, plainEnd, isGap, broken, limited]

end Scan

/-! ## The tokens of a line -/

/-- A character that is neither passed between tokens nor starts a comment. -/
def isInk (b : Char) : Bool := !isGap b && b != '#' && !isByteOrderMark b

theorem isInk_of_isWordChar (h : isWordChar b = true) : isInk b = true := by
  have codes := toNat_of_isWordChar h
  have sign : (b != '#') = true := by
    refine bne_iff_ne.mpr ?_
    rintro rfl
    exact absurd h (by decide)
  have mark : isByteOrderMark b = false := by
    simp only [isByteOrderMark, beq_eq_false_iff_ne]
    omega
  rw [isInk, isGap_of_isWordChar h, sign, mark]
  rfl

/-- What ink is not. -/
theorem isInk_iff : isInk b = true ↔
    (b ≠ ' ' ∧ b ≠ '\t') ∧ isBreak b = false ∧ b.toNat ≠ 0 ∧ b ≠ '#' ∧
    isByteOrderMark b = false := by
  simp [isInk, isGap, isWhite, and_assoc]

namespace Cursor

variable {c : Cursor}

theorem peek?_of_rest (here : c.rest = b :: rest) : c.peek? = some b := by
  rw [peek?, here]
  rfl

/-- Nothing is passed at a character that does not have the property. -/
theorem skipWhile_of_neg {p : Char → Bool} (here : c.rest = b :: rest) (other : p b = false) :
    c.skipWhile p = c := by
  rw [skipWhile, here, List.takeWhile_cons_of_neg (by simp [other])]
  rfl

end Cursor

namespace Lexer

variable {l : Lexer} {token : Token} {tokens : List Token}

/-- Nothing is passed in front of a token. -/
theorem skipToToken_ink (here : l.cursor.rest = b :: rest) (ink : isInk b = true) :
    skipToToken (fuel + 1) l = l := by
  obtain ⟨⟨space, tab⟩, broken, -, sign, mark⟩ := isInk_iff.mp ink
  have still := fun p => Cursor.skipWhile_of_neg (p := p) here
  unfold skipToToken
  simp [Cursor.peek?_of_rest here, mark, still, space, tab, Cursor.skipComment, Cursor.isAt, sign,
    broken]

/-- The blank in front of a token is passed. -/
private theorem skipToToken_blank (here : l.cursor.rest = ' ' :: b :: rest) (ink : isInk b = true) :
    skipToToken (fuel + 1) l = { l with cursor := l.cursor.skip 1 } := by
  obtain ⟨⟨space, tab⟩, broken, -, sign, mark⟩ := isInk_iff.mp ink
  have next : (l.cursor.skip 1).peek? = some b :=
    Cursor.peek?_of_rest (by rw [Cursor.skip, here]; rfl)
  have passed : ∀ p : Char → Bool, p ' ' = true → p b = false →
      l.cursor.skipWhile p = l.cursor.skip 1 := by
    intro p blank other
    rw [Cursor.skipWhile, here, List.takeWhile_cons_of_pos blank,
      List.takeWhile_cons_of_neg (by simp [other])]
    rfl
  have bom : isByteOrderMark ' ' = false := rfl
  unfold skipToToken
  simp [Cursor.peek?_of_rest here, next, bom, passed, space, tab, Cursor.skipComment, Cursor.isAt,
    sign, broken]

/-- A line break is passed, and a key may follow. -/
theorem skipToToken_break (here : l.cursor.rest = '\n' :: rest) (block : l.inFlow = false) :
    skipToToken (fuel + 1) l = skipToToken fuel { l with
      cursor := ⟨rest, l.cursor.index + 1, l.cursor.line + 1, 0⟩
      keyAllowed := true } := by
  have still := fun p => Cursor.skipWhile_of_neg (p := p) here
  have bom : isByteOrderMark '\n' = false := rfl
  have broken : isBreak '\n' = true := rfl
  have passed : l.cursor.skipBreak = ⟨rest, l.cursor.index + 1, l.cursor.line + 1, 0⟩ := by
    rw [Cursor.skipBreak, Cursor.takeBreak, here]
    simp [broken]
  conv_lhs => unfold skipToToken
  simp [Cursor.peek?_of_rest here, bom, still, Cursor.skipComment, Cursor.isAt, broken, passed,
    block]

/-- No collection closes before a column that it is not indented more than. -/
theorem closeBlocks_level {column : Int} (level : l.indent ≤ column) :
    l.closeBlocks column = l := by
  have none : closing column l.indent l.outerIndents = (0, l.indent, l.outerIndents) := by
    cases l.outerIndents <;> exact if_neg (Int.not_lt.mpr level)
  unfold closeBlocks
  split
  · rfl
  · rw [none]
    simp

/-- Without a possible key none is given up. -/
theorem dropStale_of_keys (keys : l.keys = [none]) : l.dropStale = some l := by
  unfold dropStale
  simp only [keys]
  cases l
  cases keys
  rfl

/-- What waits while no key is possible is settled. -/
theorem settle_of_waiting (waiting : l.waiting = token :: tokens) (keys : l.keys = [none]) :
    settle (fuel + 1) l = some l := by
  unfold settle
  simp [waiting, dropStale_of_keys keys, keys]

/-- What waits while no key is possible is the next token. -/
theorem peek_of_waiting (waiting : l.waiting = token :: tokens) (keys : l.keys = [none]) :
    l.peek = some (token, l) := by
  rw [peek, settle_of_waiting waiting keys]
  simp [waiting]

/-- What one more token makes wait, without a possible key, is the next token. -/
theorem peek_of_fetch {l' : Lexer} (empty : l.waiting = []) (more : l.ended = false)
    (fetched : l.fetch = some l') (waiting : l'.waiting = token :: tokens)
    (keys : l'.keys = [none]) :
    l.peek = some (token, l') := by
  have settled : settle (l.cursor.rest.length + 3) l = some l' := by
    unfold settle
    simp [empty, more, fetched, settle_of_waiting waiting keys]
  rw [peek, settled]
  simp [waiting]

/-- A word is fetched as a plain scalar. -/
theorem fetch_word {l' : Lexer} (passed : skipToToken (l.cursor.rest.length + 1) l = l')
    (fresh : l'.dropStale = some l') (level : l'.closeBlocks l'.cursor.column = l')
    (here : l'.cursor.rest = b :: after) (word : isWordChar b = true)
    (hyphen : b = '-' → startsWithGap after = false ∧ l'.cursor.column ≠ 0) :
    l.fetch = l'.fetchPlain := by
  have inked := isGap_of_isWordChar word
  unfold fetch
  simp only [passed, fresh, Option.bind_eq_bind, Option.bind_some, level, here]
  by_cases dash : b = '-'
  · obtain ⟨joined, inside⟩ := hyphen dash
    have unblank : after.head?.any isWhite = false := by
      cases after with
      | nil => rfl
      | cons c after =>
        simp only [startsWithGap, isGap, Bool.or_eq_false_iff] at joined
        exact joined.1.1
    subst dash
    simp [inside, joined, Cursor.atMarker, startsPlain, unblank]
  · have plain := isIndicator_of_isWordChar word dash
    have dot : b ≠ '.' := by
      rintro rfl
      exact absurd word (by decide)
    have unmarked : ∀ c, c = '-' ∨ c = '.' → l'.cursor.atMarker c = false := by
      rintro c (rfl | rfl) <;> simp [Cursor.atMarker, here, dash, dot]
    simp only [isIndicator, List.contains_eq_mem, List.mem_cons, List.not_mem_nil, or_false,
      decide_eq_false_iff_not, not_or] at plain
    simp [unmarked, startsPlain, inked, isIndicator, plain]

/-- A colon in front of a blank is fetched as one before a value. -/
private theorem fetch_colon {l' : Lexer} (passed : skipToToken (l.cursor.rest.length + 1) l = l')
    (fresh : l'.dropStale = some l') (level : l'.closeBlocks l'.cursor.column = l')
    (here : l'.cursor.rest = ':' :: ' ' :: rest) : l.fetch = l'.fetchValue := by
  have gap : startsWithGap (' ' :: rest) = true := rfl
  unfold fetch
  simp [passed, fresh, level, here, Cursor.atMarker, gap]

/-- **A lexer at the start of a line** of a mapping that is opened already, or that the line opens.
-/
def atLine (opened : Bool) (rest : List Char) (index line taken : Nat) : Lexer :=
  ⟨⟨rest, index, line, 0⟩, [], taken, true, [none], if opened then 0 else -1,
    if opened then [-1] else [], false⟩

/-- **A lexer at the colon of a line**, with the word that may be its key. -/
def atColon (opened : Bool) (w rest : List Char) (index line taken : Nat) : Lexer :=
  ⟨⟨':' :: ' ' :: rest, index + w.length, line, w.length⟩, [.scalar (String.ofList w) true], taken,
    false, [some ⟨opened, taken, index, line, 0⟩], if opened then 0 else -1,
    if opened then [-1] else [], false⟩

/-- **A lexer inside a line**, with the tokens that wait. -/
def inLine (tokens : List Token) (rest : List Char) (index line column taken : Nat) : Lexer :=
  ⟨⟨rest, index, line, column⟩, tokens, taken, false, [none], 0, [-1], false⟩

/-- **A lexer behind a line**, with the word that the line ends with. -/
def behindLine (w rest : List Char) (index line taken : Nat) : Lexer :=
  { atLine true rest index line taken with waiting := [.scalar (String.ofList w) true] }

/-- The tokens of a key and of the colon behind it. -/
def keyTokens (opened : Bool) (w : List Char) : List Token :=
  (if opened then [] else [.blockMappingStart]) ++
    [.key, .scalar (String.ofList w) true, .value]

variable {opened : Bool}

private theorem fetch_atLine (key : isKeyWord w = true) :
    (atLine opened (w ++ ':' :: ' ' :: rest) index line taken).fetch =
      some (atColon opened w rest index line taken) := by
  obtain ⟨word, start, -⟩ := isKeyWord_iff.mp key
  obtain ⟨b, after, split, inked, -⟩ := exists_cons_of_isWord word
  have here : w ++ ':' :: ' ' :: rest = b :: (after ++ ':' :: ' ' :: rest) := by
    rw [split, List.cons_append]
  rw [fetch_word (skipToToken_ink here (isInk_of_isWordChar inked)) (dropStale_of_keys rfl)
    (closeBlocks_level (by cases opened <;> simp [atLine])) here inked
    (fun dash => absurd (by rw [split, dash]; rfl) start)]
  cases opened <;>
    simp (disch := omega) [fetchPlain, atLine, atColon, saveKey, dropKey, setKey, key?, inFlow,
      scanned, push, Scan.plain_before_colon (all_of_isWord word)]

/-- A short key is not given up at its colon. -/
theorem dropStale_atColon (short : w.length ≤ 1024) :
    (atColon opened w rest index line taken).dropStale =
      some (atColon opened w rest index line taken) := by
  simp [atColon, dropStale]
  omega

private theorem fetch_atColon (short : w.length ≤ 1024) :
    (atColon opened w rest index line taken).fetch =
      some (inLine (keyTokens opened w) (' ' :: rest) (index + w.length + 1) line (w.length + 1)
        taken) := by
  rw [fetch_colon (skipToToken_ink rfl rfl) (dropStale_atColon short)
    (closeBlocks_level (by cases opened <;> simp [atColon])) rfl]
  cases opened <;>
    simp [fetchValue, atColon, inLine, keyTokens, key?, setKey, insert, openBlock, inFlow, take,
      push, Cursor.skip]

/-- **The tokens of a key** wait once its colon is read. -/
theorem settle_key (key : isKeyWord w = true) :
    settle (fuel + 3) (atLine opened (w ++ ':' :: ' ' :: rest) index line taken) =
      some (inLine (keyTokens opened w) (' ' :: rest) (index + w.length + 1) line (w.length + 1)
        taken) := by
  have short := (isKeyWord_iff.mp key).2.2
  obtain ⟨token, tokens, waiting⟩ : ∃ token tokens, keyTokens opened w = token :: tokens := by
    cases opened <;> exact ⟨_, _, rfl⟩
  have possible : ((atColon opened w rest index line taken).keys.any fun key? =>
      key?.any (·.token == taken)) = true := by
    simp [atColon]
  calc settle (fuel + 3) (atLine opened (w ++ ':' :: ' ' :: rest) index line taken)
      = settle (fuel + 2) (atColon opened w rest index line taken) := by
        conv_lhs => unfold settle
        rw [fetch_atLine key]
        rfl
    _ = settle (fuel + 1) (inLine (keyTokens opened w) (' ' :: rest) (index + w.length + 1) line
          (w.length + 1) taken) := by
        conv_lhs => unfold settle
        rw [dropStale_atColon short]
        exact (if_pos possible).trans (by rw [fetch_atColon short]; rfl)
    _ = _ := settle_of_waiting waiting rfl

/-- **The word behind a colon** is read with the end of its line. -/
theorem peek_value (word : isWord w = true) (white : isWhite b = false) (more : isBreak b = false) :
    (inLine [] (' ' :: (w ++ '\n' :: b :: rest)) index line column taken).peek =
      some (.scalar (String.ofList w) true,
        behindLine w (b :: rest) (index + 1 + w.length + 1) (line + 1) taken) := by
  obtain ⟨first, after, split, inked, all, hyphen⟩ := exists_cons_of_isWord word
  have here : w ++ '\n' :: b :: rest = first :: (after ++ '\n' :: b :: rest) := by
    rw [split, List.cons_append]
  have joined : first = '-' → startsWithGap (after ++ '\n' :: b :: rest) = false := by
    intro dash
    cases after with
    | nil => exact absurd rfl (hyphen dash)
    | cons second after =>
      exact isGap_of_isWordChar (Bool.and_eq_true_iff.mp (List.all_cons ▸ all)).1
  have fetched : (inLine [] (' ' :: (w ++ '\n' :: b :: rest)) index line column taken).fetch =
      some (behindLine w (b :: rest) (index + 1 + w.length + 1) (line + 1) taken) := by
    have passed : skipToToken ((' ' :: (w ++ '\n' :: b :: rest)).length + 1)
        (inLine [] (' ' :: (w ++ '\n' :: b :: rest)) index line column taken) =
          inLine [] (w ++ '\n' :: b :: rest) (index + 1) line (column + 1) taken :=
      skipToToken_blank (congrArg _ here) (isInk_of_isWordChar inked)
    rw [fetch_word passed (dropStale_of_keys rfl) (closeBlocks_level (Int.natCast_nonneg _)) here
      inked (fun dash => ⟨joined dash, Nat.succ_ne_zero _⟩)]
    simp (disch := omega) [fetchPlain, inLine, behindLine, atLine, saveKey, inFlow, scanned, push,
      Scan.plain_before_break (all_of_isWord word) white more]
  exact peek_of_fetch rfl rfl fetched rfl rfl

/-- A lexer behind the mark of a document, from which the next line is read as from its start. -/
def behindMark (rest : List Char) (index line taken : Nat) : Lexer :=
  ⟨⟨'\n' :: rest, index, line, 3⟩, [], taken, false, [none], -1, [], false⟩

private theorem settle_behindMark :
    settle (fuel + 1) (behindMark rest index line taken) =
      settle (fuel + 1) (atLine false rest (index + 1) (line + 1) taken) := by
  have passed : skipToToken (rest.length + 1 + 1) (behindMark rest index line taken) = skipToToken _
      (atLine false rest (index + 1) (line + 1) taken) := skipToToken_break rfl rfl
  have fetched : (behindMark rest index line taken).fetch =
      (atLine false rest (index + 1) (line + 1) taken).fetch := by
    conv_lhs => unfold fetch
    conv_rhs => unfold fetch
    exact congrArg (fun l : Lexer => l.dropStale >>= _) passed
  conv_lhs => unfold settle
  conv_rhs => unfold settle
  exact congrArg (· >>= settle fuel) fetched

/-- The mark that starts a document. -/
theorem peek_start : (start ('-' :: '-' :: '-' :: '\n' :: rest)).peek =
    some (.documentStart, { behindMark rest 3 0 0 with waiting := [.documentStart] }) := by
  have passed : skipToToken (rest.length + 4 + 1) (start ('-' :: '-' :: '-' :: '\n' :: rest)) = _ :=
    skipToToken_ink rfl rfl
  refine peek_of_fetch rfl rfl ?_ rfl rfl
  unfold fetch
  exact congrArg (fun l : Lexer => l.dropStale >>= _) passed

/-- The mark that ends a document closes the mapping. -/
theorem peek_end : (atLine true ('.' :: '.' :: '.' :: '\n' :: rest) index line taken).peek =
    some (.blockEnd, { behindMark rest (index + 3) line taken with
      waiting := [.blockEnd, .documentEnd] }) := by
  have passed : skipToToken (rest.length + 4 + 1)
      (atLine true ('.' :: '.' :: '.' :: '\n' :: rest) index line taken) = _ :=
    skipToToken_ink rfl rfl
  refine peek_of_fetch rfl rfl ?_ rfl rfl
  unfold fetch
  exact congrArg (fun l : Lexer => l.dropStale >>= _) passed

/-- The end of the text. -/
theorem peek_streamEnd : (behindMark [] index line taken).peek =
    some (.streamEnd, ⟨⟨[], index + 1, line + 1, 0⟩, [.streamEnd], taken, false, [none], -1, [],
      true⟩) := by
  have passed : skipToToken 2 (behindMark [] index line taken) =
      ⟨⟨[], index + 1, line + 1, 0⟩, [], taken, true, [none], -1, [], false⟩ :=
    (skipToToken_break rfl rfl).trans rfl
  refine peek_of_fetch rfl rfl ?_ rfl rfl
  unfold fetch
  exact congrArg (fun l : Lexer => l.dropStale >>= _) passed

/-- The tokens of the key of a line, and of the first line behind the mark of its document. -/
theorem peek_key (key : isKeyWord w = true) :
    (atLine true (w ++ ':' :: ' ' :: rest) index line taken).peek =
      some (.key, inLine (keyTokens true w) (' ' :: rest) (index + w.length + 1) line (w.length + 1)
        taken) := by
  rw [peek, settle_key key]
  rfl

theorem peek_first (key : isKeyWord w = true) :
    (behindMark (w ++ ':' :: ' ' :: rest) index line taken).peek =
      some (.blockMappingStart, inLine (keyTokens false w) (' ' :: rest) (index + 1 + w.length + 1)
        (line + 1) (w.length + 1) taken) := by
  rw [peek, settle_behindMark, settle_key key]
  rfl

end Lexer

end FormatStyle.Yaml
