import FormatStyle.Proofs.Paths
import Mathlib.Data.List.Infix

/-! # Directories above a path

The directories above a path are what its components start with (`Path.liesUnder_iff`). So what is
above a path below a directory is below that directory as well, or it is the directory itself or
above it (`Path.Encloses.above`).
-/

namespace FormatStyle

namespace Text

variable {sep : Char → Bool} {piece cs : List Char}

/-- A text without a separator is one piece. -/
theorem splitAtSep_of_plain (plain : ∀ c ∈ cs, sep c = false) : splitAtSep sep cs = [cs] := by
  induction cs with
  | nil => rfl
  | cons c cs ih =>
    rw [List.forall_mem_cons] at plain
    rw [splitAtSep, plain.1, ih plain.2]
    rfl

/-- **With more separators each piece is split once more.** -/
theorem splitAtSep_finer {finer : Char → Bool} (more : ∀ c, sep c = true → finer c = true)
    (cs : List Char) :
    splitAtSep finer cs = (splitAtSep sep cs).flatMap (splitAtSep finer) := by
  induction cs with
  | nil => rfl
  | cons c cs ih =>
    by_cases ends : sep c = true
    · rw [splitAtSep, if_pos (more c ends), splitAtSep, if_pos ends, ih]
      rfl
    · rw [splitAtSep, ih, splitAtSep, if_neg ends]
      cases pieces : splitAtSep sep cs with
      | nil => exact absurd pieces (splitAtSep_ne_nil sep cs)
      | cons first rest =>
        simp only [List.flatMap_cons]
        rw [splitAtSep]
        split
        · rfl
        · cases parts : splitAtSep finer first with
          | nil => exact absurd parts (splitAtSep_ne_nil finer first)
          | cons part parts => rfl

/-- A piece that holds no further separator stays a piece. -/
theorem mem_splitAtSep_finer {finer : Char → Bool} (more : ∀ c, sep c = true → finer c = true)
    (member : piece ∈ splitAtSep sep cs) (plain : ∀ c ∈ piece, finer c = false) :
    piece ∈ splitAtSep finer cs := by
  rw [splitAtSep_finer more]
  apply List.mem_flatMap.mpr
  exact ⟨piece, member, by rw [splitAtSep_of_plain plain]; exact List.mem_singleton_self piece⟩

/-- What stands between the pieces are the separators. -/
private theorem intercalate_splitAtSep {c : Char} (only : ∀ d, sep d = true ↔ d = c) (cs : List Char) :
    [c].intercalate (splitAtSep sep cs) = cs := by
  induction cs with
  | nil => rfl
  | cons d cs ih =>
    rw [splitAtSep]
    cases pieces : splitAtSep sep cs with
    | nil => exact absurd pieces (splitAtSep_ne_nil sep cs)
    | cons first rest =>
      rw [pieces] at ih
      split
      · rename_i ends
        rw [List.intercalate_cons_cons, ih, (only d).mp ends]
        rfl
      · dsimp only
        rw [← ih]
        cases rest with
        | nil => rfl
        | cons second rest => simp [List.intercalate_cons_cons]

/-- Pieces put together are split into the same pieces. -/
private theorem splitAtSep_intercalate {c : Char} (ends : sep c = true) {pieces : List (List Char)}
    (some : pieces ≠ []) (plain : ∀ piece ∈ pieces, ∀ d ∈ piece, sep d = false) :
    splitAtSep sep ([c].intercalate pieces) = pieces := by
  induction pieces with
  | nil => exact absurd rfl some
  | cons first rest ih =>
    rw [List.forall_mem_cons] at plain
    cases rest with
    | nil => simpa [List.intercalate] using splitAtSep_of_plain plain.1
    | cons second rest =>
      rw [List.intercalate_cons_cons, List.append_assoc, List.singleton_append,
        splitAtSep_append ends, splitAtSep_of_plain plain.1, ih (List.cons_ne_nil _ _) plain.2]
      rfl

/-- Pieces put together in two parts have a separator between them. -/
private theorem intercalate_append {c : Char} {front back : List (List Char)} (some : front ≠ [])
    (more : back ≠ []) :
    [c].intercalate (front ++ back) = [c].intercalate front ++ c :: [c].intercalate back := by
  obtain ⟨last, back, rfl⟩ := List.exists_cons_of_ne_nil more
  induction front with
  | nil => exact absurd rfl some
  | cons first rest ih =>
    cases rest with
    | nil => simp [List.intercalate_cons_cons]
    | cons second rest =>
      rw [List.cons_append, List.cons_append, List.intercalate_cons_cons, ← List.cons_append,
        ih (List.cons_ne_nil _ _), List.intercalate_cons_cons]
      simp

end Text

namespace Path

variable {base p : Path} {place : List Component} {pieces : List (List Char)}

/-! ## What a path starts with -/

/-- What a path starts with, up to a slash, starts where the path does. -/
private theorem ofChars_front {whole cs front : List Char} {start : Start}
    (starts : Start.ofChars whole = (start, cs))
    (part : front = [] ∨ cs = front ∨ ∃ rest, cs = front ++ '/' :: rest) :
    Start.ofChars (start.chars ++ front) = (start, front) := by
  have all := Start.chars_append_ofChars whole
  rw [starts] at all
  rcases part with rfl | rfl | ⟨rest, rfl⟩
  · cases start <;> rfl
  · rw [all, starts]
  · by_cases written : start.chars ++ front = []
    · obtain ⟨nothing, rfl⟩ := List.append_eq_nil_iff.mp written
      cases start <;> rfl
    · rw [← List.append_assoc] at all
      have same := ofChars_append_slash written rest
      rw [all, starts, Prod.mk.injEq] at same
      exact Prod.ext same.1.symm (List.append_cancel_right same.2).symm

/-- **The components of a path's first pieces** are its own, as far as they go. -/
theorem components_ofPieces (front : pieces <+: p.pieces) :
    (ofPieces p.start pieces).components =
      p.start.component?.toList ++ pieces.filterMap component? := by
  have slash : ∀ d, isSlash d = true ↔ d = '/' := fun d => beq_iff_eq
  have whole : ['/'].intercalate p.pieces = (Start.ofChars p.text.toList).2 :=
    Text.intercalate_splitAtSep slash _
  have read : Start.ofChars p.text.toList = (p.start, (Start.ofChars p.text.toList).2) := rfl
  have starts : Start.ofChars (p.start.chars ++ ['/'].intercalate pieces) =
      (p.start, ['/'].intercalate pieces) := by
    apply ofChars_front read
    obtain ⟨back, split⟩ := front
    by_cases none : pieces = []
    · exact .inl (by rw [none]; rfl)
    · by_cases last : back = []
      · rw [last, List.append_nil] at split
        exact .inr (.inl (by rw [split, whole]))
      · refine .inr (.inr ⟨['/'].intercalate back, ?_⟩)
        rw [← Text.intercalate_append none last, split, whole]
  unfold ofPieces components Path.pieces
  rw [String.toList_ofList, starts]
  by_cases none : pieces = []
  · subst none
    rfl
  · rw [Text.splitAtSep_intercalate rfl none]
    intro piece member d inside
    exact Text.sep_eq_false_of_mem_splitAtSep (front.subset member) inside

/-- Idle pieces at the end do not count. -/
theorem filterMap_dropWhile_isIdle (rev : List (List Char)) :
    (rev.dropWhile isIdle).reverse.filterMap component? = rev.reverse.filterMap component? := by
  induction rev with
  | nil => rfl
  | cons piece rev ih =>
    rw [List.dropWhile_cons]
    split
    · rename_i idle
      rw [ih, List.reverse_cons, List.filterMap_append]
      simp [component?, idle]
    · rfl

/-- The pieces that are left without idle ones at the end are the first ones. -/
theorem front_dropWhile (rev : List (List Char)) :
    (rev.dropWhile isIdle).reverse <+: rev.reverse :=
  List.reverse_prefix.mpr (List.dropWhile_suffix _)

theorem busy_dropWhile (rev : List (List Char)) :
    ∀ piece ∈ (rev.dropWhile isIdle).head?, isIdle piece = false := by
  intro piece first
  have busy := List.head?_dropWhile_not isIdle rev
  rw [Option.mem_def.mp first] at busy
  exact busy

/-! ## What is above a path -/

/-- **A path lies under a place**: one of the directories above the path is there. -/
def LiesUnder (p : Path) (place : List Component) : Prop :=
  ∃ directory ∈ p.directoriesAbove, directory.components = place

/-- The last piece that is not idle stands for the last component. -/
private theorem filterMap_reverse_cons {piece : List Char} (rev : List (List Char))
    (busy : isIdle piece = false) : ∃ c, (piece :: rev).reverse.filterMap component? =
      rev.reverse.filterMap component? ++ [c] := by
  obtain ⟨c, stands⟩ := exists_component? busy
  refine ⟨c, ?_⟩
  rw [List.reverse_cons, List.filterMap_append, List.filterMap_cons_some stands]
  rfl

/-- The directories above the first pieces of a path, given from the last one, are what the
components of these pieces start with. By induction as the directories are taken, one piece and the
idle ones before it at a time. -/
theorem exists_above_iff (place : List Component) {rev : List (List Char)}
    (front : rev.reverse <+: p.pieces) (busy : ∀ piece ∈ rev.head?, isIdle piece = false) :
    (∃ directory ∈ above p.start rev, directory.components = place) ↔
      place <+: p.start.component?.toList ++ rev.reverse.filterMap component? ∧
        place ≠ p.start.component?.toList ++ rev.reverse.filterMap component? ∧
        (p.start = .root → place ≠ []) := by
  induction rev using above.induct p.start with
  | case1 current =>
    rw [above, if_pos current, current]
    have nothing : (Path.mk "").components = [] := rfl
    simp only [List.mem_singleton, exists_eq_left, nothing, Start.component?, Option.toList_some,
      List.reverse_nil, List.filterMap_nil, List.append_nil, List.prefix_cons_iff]
    grind
  | case2 other =>
    rw [above, if_neg other]
    cases starts : p.start with
    | root =>
      simp only [Start.component?, Option.toList_some, List.reverse_nil, List.filterMap_nil,
        List.append_nil, List.prefix_cons_iff]
      grind
    | current => exact absurd starts other
    | anywhere => simp [Start.component?]
  | case3 piece rest kept ih =>
    have shorter : kept.reverse <+: (piece :: rest).reverse := by
      rw [List.reverse_cons]
      exact (front_dropWhile rest).trans (List.prefix_append _ _)
    have first := components_ofPieces (shorter.trans front)
    obtain ⟨c, last⟩ := filterMap_reverse_cons rest (busy piece rfl)
    rw [above, List.exists_mem_cons_iff, ih (shorter.trans front) (busy_dropWhile rest),
      first, last, filterMap_dropWhile_isIdle, ← List.append_assoc, List.prefix_concat_iff]
    generalize reached : p.start.component?.toList ++ rest.reverse.filterMap component? = upTo
    have rooted : p.start = .root → upTo ≠ [] := by
      intro root
      rw [← reached, root]
      exact List.cons_ne_nil _ _
    have apart : ∀ {other}, other <+: upTo → other ≠ upTo ++ [c] := by
      rintro other part rfl
      have := part.length_le
      rw [List.length_append, List.length_singleton] at this
      omega
    constructor
    · rintro (rfl | ⟨part, -, root⟩)
      · exact ⟨.inr (List.prefix_refl _), apart (List.prefix_refl _), rooted⟩
      · exact ⟨.inr part, apart part, root⟩
    · rintro ⟨rfl | part, differs, root⟩
      · exact absurd rfl differs
      · by_cases same : upTo = place
        · exact .inl same
        · exact .inr ⟨part, Ne.symm same, root⟩

/-- **What lies above a path** is what its components start with, short of all of them. Above a
path from the root there is no place without the root. -/
theorem liesUnder_iff : p.LiesUnder place ↔
    place <+: p.components ∧ place ≠ p.components ∧ (p.start = .root → place ≠ []) := by
  have front : (p.pieces.reverse.dropWhile isIdle).reverse <+: p.pieces := by
    simpa using front_dropWhile p.pieces.reverse
  have all := exists_above_iff place front (busy_dropWhile _)
  rwa [filterMap_dropWhile_isIdle, List.reverse_reverse] at all

/-- Only the start of a path can be the root. -/
theorem start_eq_root_iff : p.start = .root ↔ .root ∈ p.components := by
  have below : Component.root ∉ p.below := by
    intro member
    obtain same | ⟨text, same⟩ := below_cases member <;> cases same
  rw [components_eq, List.mem_append, or_iff_left below]
  cases p.start <;> simp [Start.component?]

/-- What is above a place above a path is above the path. -/
theorem LiesUnder.trans {directory : Path} (under : p.LiesUnder directory.components)
    (higher : directory.LiesUnder place) : p.LiesUnder place := by
  obtain ⟨part, short, rooted⟩ := liesUnder_iff.mp under
  obtain ⟨part', short', rooted'⟩ := liesUnder_iff.mp higher
  refine liesUnder_iff.mpr ⟨part'.trans part, ?_, fun starts => rooted' ?_⟩
  · rintro rfl
    exact short' (part'.eq_of_length (Nat.le_antisymm part'.length_le part.length_le))
  · -- A place above a path from the root starts with the root itself.
    obtain ⟨c, rest, named⟩ := List.exists_cons_of_ne_nil (rooted starts)
    obtain ⟨back, all⟩ := part
    rw [named, components_eq p, starts, List.cons_append] at all
    rw [start_eq_root_iff, named, (List.cons.inj all).1]
    exact List.mem_cons_self

/-! ## What is at or below a directory -/

/-- **A place at or below a directory**: its components go on from those of the directory, and they
do not leave it again. -/
def Encloses (base : Path) (place : List Component) : Prop :=
  ∃ rest, place = base.components ++ rest ∧ .root ∉ rest ∧ .parent ∉ rest

/-- **What is above a path in a directory** is in the directory too, or it is above the
directory. -/
theorem Encloses.above (inside : base.Encloses p.components) (under : p.LiesUnder place) :
    base.Encloses place ∨ base.LiesUnder place := by
  obtain ⟨rest, all, root, parent⟩ := inside
  obtain ⟨part, -, rooted⟩ := liesUnder_iff.mp under
  rw [all] at part
  rcases List.prefix_or_prefix_of_prefix part (List.prefix_append _ _) with upTo | ⟨more, rfl⟩
  · by_cases same : place = base.components
    · exact .inl ⟨[], by rw [same, List.append_nil], List.not_mem_nil, List.not_mem_nil⟩
    · refine .inr (liesUnder_iff.mpr ⟨upTo, same, fun starts => rooted ?_⟩)
      rw [start_eq_root_iff, all]
      exact List.mem_append_left _ (start_eq_root_iff.mp starts)
  · have front : more <+: rest := (List.prefix_append_right_inj _).mp part
    exact .inl ⟨more, rfl, fun inside => root (front.subset inside),
      fun inside => parent (front.subset inside)⟩

/-- **The components of a path as they follow a directory.** A current directory that the path
starts with only counts where the directory is empty. -/
def following (base p : Path) : List Component :=
  if base.text = "" then p.components else p.components.filter (· != .current)

theorem following_subset : base.following p ⊆ p.components := by
  unfold following
  split
  · exact List.Subset.refl _
  · exact List.filter_subset_self _

/-- **A relative path taken from a directory follows it.** -/
theorem components_join_following (relative : p.isAbsolute = false) :
    (base.join p).components = base.components ++ base.following p := by
  unfold following
  split
  · rename_i empty
    have nothing : base.components = [] := by
      cases base
      cases empty
      rfl
    rw [join_empty empty, nothing, List.nil_append]
  · rename_i named
    have kept : p.below.filter (· != .current) = p.below := by
      rw [List.filter_eq_self]
      intro c member
      exact bne_iff_ne.mpr fun same => p.current_notMem_below (same ▸ member)
    rw [components_join named relative, components_eq p, List.filter_append, kept]
    cases starts : p.start with
    | root => exact absurd starts (start_ne_root relative)
    | current | anywhere => rfl

end Path

end FormatStyle
