import FormatStyle.Path

/-! # Joined paths

A path taken from a directory has the components of the directory, and then its own
(`Path.components_join`). So two paths from one directory are the same path exactly when they are
the same below it, whatever texts they have (`Path.components_join_eq_iff`). A path without idle
pieces is written in one way only (`Path.eq_of_below_of_isPlain`).
-/

namespace FormatStyle

namespace Text

variable {sep : Char → Bool} {c : Char} {xs ys : List Char}

/-- A separator ends a piece. -/
theorem splitAtSep_append (ends : sep c = true) :
    splitAtSep sep (xs ++ c :: ys) = splitAtSep sep xs ++ splitAtSep sep ys := by
  induction xs with
  | nil => simp [splitAtSep, ends]
  | cons d xs ih =>
    rw [List.cons_append, splitAtSep, splitAtSep, ih]
    split
    · rfl
    · cases split : splitAtSep sep xs with
      | nil => exact absurd split (splitAtSep_ne_nil sep xs)
      | cons piece pieces => rfl

/-- **Different texts have different pieces**, where only one character separates. -/
theorem splitAtSep_injective (only : ∀ c d, sep c = true → sep d = true → c = d)
    (same : splitAtSep sep xs = splitAtSep sep ys) : xs = ys := by
  induction xs generalizing ys with
  | nil =>
    cases ys with
    | nil => rfl
    | cons d ys =>
      unfold splitAtSep at same
      split at same
      · exact absurd (List.cons.inj same).2.symm (splitAtSep_ne_nil sep ys)
      · split at same <;> cases (List.cons.inj same).1
  | cons c xs ih =>
    cases ys with
    | nil =>
      unfold splitAtSep at same
      split at same
      · exact absurd (List.cons.inj same).2 (splitAtSep_ne_nil sep xs)
      · split at same <;> cases (List.cons.inj same).1
    | cons d ys =>
      unfold splitAtSep at same
      cases left : splitAtSep sep xs with
      | nil => exact absurd left (splitAtSep_ne_nil sep xs)
      | cons piece pieces =>
        cases right : splitAtSep sep ys with
        | nil => exact absurd right (splitAtSep_ne_nil sep ys)
        | cons piece' pieces' =>
          simp only [left, right] at same
          have rest : piece :: pieces = piece' :: pieces' → xs = ys := fun rest =>
            ih (left.trans (rest.trans right.symm))
          by_cases ends : sep c = true <;> by_cases ends' : sep d = true
          · rw [if_pos ends, if_pos ends'] at same
            rw [only c d ends ends', rest (List.cons.inj same).2]
          · rw [if_pos ends, if_neg ends'] at same
            cases (List.cons.inj same).1
          · rw [if_neg ends, if_pos ends'] at same
            cases (List.cons.inj same).1
          · rw [if_neg ends, if_neg ends'] at same
            obtain ⟨first, others⟩ := List.cons.inj same
            obtain ⟨head, tail⟩ := List.cons.inj first
            rw [head, rest (by rw [tail, others])]

end Text

namespace Path

variable {base p q : Path} {cs : List Char}

/-- Where a path starts. -/
def start (p : Path) : Start := (Start.ofChars p.text.toList).1

/-- **The components of a path below the directory that it is taken from.** -/
def below (p : Path) : List Component := p.pieces.filterMap component?

/-- **A path without idle pieces**: no empty name between slashes, and no current directory. -/
def isPlain (p : Path) : Bool :=
  (Text.splitAtSep isSlash p.text.toList).all fun piece => !isIdle piece

theorem components_eq (p : Path) : p.components = p.start.component?.toList ++ p.below := rfl

/-- What follows a slash does not change where a path starts. -/
theorem ofChars_append_slash (written : cs ≠ []) (rest : List Char) :
    Start.ofChars (cs ++ '/' :: rest) =
      ((Start.ofChars cs).1, (Start.ofChars cs).2 ++ '/' :: rest) := by
  obtain ⟨c, cs, rfl⟩ := List.exists_cons_of_ne_nil written
  by_cases slash : c = '/'
  · subst slash
    rfl
  · by_cases dot : c = '.'
    · subst dot
      cases cs with
      | nil => rfl
      | cons d cs =>
        by_cases next : d = '/'
        · subst next
          rfl
        · simp [Start.ofChars, next]
    · simp [Start.ofChars, slash, dot]

/-- The components of a longer path are those up to a slash and those after it. -/
theorem components_append_slash (cs rest : List Char) :
    (Path.mk (String.ofList (cs ++ '/' :: rest))).components =
      (Path.mk (String.ofList (cs ++ ['/']))).components ++
        (Text.splitAtSep isSlash rest).filterMap component? := by
  unfold components pieces
  simp only [String.toList_ofList]
  by_cases written : cs = []
  · subst written
    rfl
  · rw [ofChars_append_slash written, ofChars_append_slash written,
      Text.splitAtSep_append (by rfl), Text.splitAtSep_append (by rfl)]
    simp [Text.splitAtSep, component?, isIdle]

/-- A slash at the end of a path does not count. -/
theorem components_snoc_slash (written : cs ≠ []) :
    (Path.mk (String.ofList (cs ++ ['/']))).components =
      (Path.mk (String.ofList cs)).components := by
  unfold components pieces
  simp only [String.toList_ofList]
  rw [ofChars_append_slash written, Text.splitAtSep_append (by rfl)]
  simp [Text.splitAtSep, component?, isIdle]

/-- Below its directory a relative path has what stands between its slashes. -/
theorem below_eq (relative : p.isAbsolute = false) :
    p.below = (Text.splitAtSep isSlash p.text.toList).filterMap component? := by
  unfold below pieces
  unfold isAbsolute at relative
  generalize p.text.toList = cs at relative ⊢
  unfold Start.ofChars
  split
  · simp [isSlash] at relative
  · rfl
  · rfl
  · rfl

/-- **A joined path has the components of the directory, and then its own.** -/
theorem components_join (named : base.text ≠ "") (relative : p.isAbsolute = false) :
    (base.join p).components = base.components ++ p.below := by
  have written : base.text.toList ≠ [] := fun empty => named (String.toList_eq_nil_iff.mp empty)
  rw [below_eq relative]
  unfold join
  rw [relative, if_neg Bool.false_ne_true]
  split
  · have text : base.text ++ "/" ++ p.text =
        String.ofList (base.text.toList ++ '/' :: p.text.toList) := by
      simp [String.ext_iff]
    rw [text, components_append_slash, components_snoc_slash written, String.ofList_toList]
  · rename_i slash
    -- The directory is written with a slash at its end, which stays the only one.
    obtain ⟨cs, ends⟩ : ∃ cs, base.text.toList = cs ++ ['/'] := by
      rw [← List.getLast?_eq_some_iff]
      obtain ⟨c, last⟩ := Option.isSome_iff_exists.mp (List.getLast?_isSome.mpr written)
      rw [last] at slash ⊢
      simpa [isSlash] using slash
    have text : base.text ++ p.text = String.ofList (cs ++ '/' :: p.text.toList) := by
      simp [String.ext_iff, ends]
    have base_text : base = Path.mk (String.ofList (cs ++ ['/'])) := by
      rw [← ends, String.ofList_toList]
    rw [text, components_append_slash, ← base_text]

/-- From the empty directory a path stays what it is. -/
theorem join_empty (empty : base.text = "") : base.join p = p := by
  unfold join
  simp [empty]

/-- **Two paths from one directory are the same below it.** From the empty directory a current
directory that a path starts with counts as well. -/
def SameFrom (base p q : Path) : Prop :=
  p.below = q.below ∧ (base.text = "" → p.start = q.start)

/-- A relative path starts anywhere or in the current directory. -/
theorem start_ne_root (relative : p.isAbsolute = false) : p.start ≠ .root := by
  unfold start
  unfold isAbsolute at relative
  generalize p.text.toList = cs at relative ⊢
  unfold Start.ofChars
  split
  · simp [isSlash] at relative
  all_goals exact fun same => nomatch same

/-- A piece stands for a name or the parent directory. -/
theorem component?_eq_some_iff {piece : List Char} {c : Component} :
    component? piece = some c ↔ isIdle piece = false ∧
      (piece = ['.', '.'] ∧ c = .parent ∨
        piece ≠ ['.', '.'] ∧ c = .name (String.ofList piece)) := by
  unfold component?
  by_cases idle : isIdle piece = true
  · simp [idle]
  · by_cases parent : piece = ['.', '.']
    · simp [parent, isIdle, eq_comm]
    · simp [idle, parent, eq_comm]

/-- A piece that is not idle stands for a component. -/
theorem exists_component? {piece : List Char} (busy : isIdle piece = false) :
    ∃ c, component? piece = some c := by
  unfold component?
  rw [busy, if_neg Bool.false_ne_true]
  split <;> exact ⟨_, rfl⟩

/-- Below its start a path has names and parent directories. -/
theorem below_cases {c : Component} (member : c ∈ p.below) :
    c = .parent ∨ ∃ text, c = .name text := by
  obtain ⟨piece, -, is⟩ := List.mem_filterMap.mp member
  obtain ⟨-, ⟨-, same⟩ | ⟨-, same⟩⟩ := component?_eq_some_iff.mp is
  · exact .inl same
  · exact .inr ⟨_, same⟩

/-- No path names the current directory below its start. -/
theorem current_notMem_below (p : Path) : Component.current ∉ p.below := by
  intro member
  obtain same | ⟨text, same⟩ := below_cases member <;> cases same

/-- **Joined paths are the same path exactly when the paths are the same below the directory.** -/
theorem components_join_eq_iff (base : Path) (relative : p.isAbsolute = false)
    (relative' : q.isAbsolute = false) :
    (base.join p).components = (base.join q).components ↔ base.SameFrom p q := by
  unfold SameFrom
  by_cases empty : base.text = ""
  · rw [join_empty empty, join_empty empty, components_eq, components_eq]
    have anywhere := start_ne_root relative
    have anywhere' := start_ne_root relative'
    have inside := p.current_notMem_below
    have inside' := q.current_notMem_below
    cases first : p.start <;> cases second : q.start
    case root.root | root.current | root.anywhere => exact absurd first anywhere
    case current.root | anywhere.root => exact absurd second anywhere'
    case current.current | anywhere.anywhere => simp [Start.component?]
    case current.anywhere =>
      refine iff_of_false (fun same => inside' ?_) fun both => nomatch both.2 empty
      have same : .current :: p.below = q.below := same
      exact same ▸ List.mem_cons_self
    case anywhere.current =>
      refine iff_of_false (fun same => inside ?_) fun both => nomatch both.2 empty
      have same : p.below = .current :: q.below := same
      exact same ▸ List.mem_cons_self
  · rw [components_join empty relative, components_join empty relative',
      List.append_cancel_left_eq]
    simp [empty]

/-- **A path without idle pieces is relative.** -/
theorem isAbsolute_of_isPlain (plain : p.isPlain = true) : p.isAbsolute = false := by
  unfold isPlain at plain
  unfold isAbsolute
  cases text : p.text.toList with
  | nil => rfl
  | cons c cs =>
    rw [text, Text.splitAtSep] at plain
    by_cases slash : isSlash c = true
    · simp [slash, isIdle] at plain
    · simpa using slash

/-- Pieces that are not idle are known from their components. -/
private theorem eq_of_filterMap_component? {xs ys : List (List Char)}
    (plain : xs.all (!isIdle ·) = true) (plain' : ys.all (!isIdle ·) = true)
    (same : xs.filterMap component? = ys.filterMap component?) : xs = ys := by
  have stands : ∀ piece, (!isIdle piece) = true → ∃ c, component? piece = some c :=
    fun piece busy => exists_component? (Bool.not_eq_true' _ ▸ busy)
  have known : ∀ {piece piece' c}, component? piece = some c → component? piece' = some c →
      piece = piece' := by
    intro piece piece' c is is'
    obtain ⟨-, ⟨rfl, rfl⟩ | ⟨-, rfl⟩⟩ := component?_eq_some_iff.mp is <;>
    obtain ⟨-, ⟨rfl, other⟩ | ⟨-, other⟩⟩ := component?_eq_some_iff.mp is'
    · rfl
    · cases other
    · cases other
    · exact String.ofList_injective (Component.name.inj other)
  induction xs generalizing ys with
  | nil =>
    cases ys with
    | nil => rfl
    | cons piece' ys =>
      rw [List.all_cons, Bool.and_eq_true] at plain'
      obtain ⟨c, is⟩ := stands piece' plain'.1
      rw [List.filterMap_cons_some is] at same
      cases same
  | cons piece xs ih =>
    rw [List.all_cons, Bool.and_eq_true] at plain
    obtain ⟨c, is⟩ := stands piece plain.1
    rw [List.filterMap_cons_some is] at same
    cases ys with
    | nil => cases same
    | cons piece' ys =>
      rw [List.all_cons, Bool.and_eq_true] at plain'
      obtain ⟨c', is'⟩ := stands piece' plain'.1
      rw [List.filterMap_cons_some is'] at same
      obtain ⟨rfl, others⟩ := List.cons.inj same
      rw [known is is', ih plain.2 plain'.2 others]

/-- **Paths without idle pieces are written in one way only.** -/
theorem eq_of_below_of_isPlain (plain : p.isPlain = true) (plain' : q.isPlain = true)
    (same : p.below = q.below) : p = q := by
  rw [below_eq (isAbsolute_of_isPlain plain), below_eq (isAbsolute_of_isPlain plain')] at same
  have pieces := eq_of_filterMap_component? plain plain' same
  have chars := Text.splitAtSep_injective (fun c d slash slash' => by
    rw [beq_iff_eq.mp slash, beq_iff_eq.mp slash']) pieces
  have text : p.text = q.text := String.toList_injective chars
  cases p
  cases q
  cases text
  rfl

end Path

end FormatStyle
