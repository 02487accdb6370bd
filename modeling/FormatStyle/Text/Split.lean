/-! # Splitting at separators

The pieces of a text between separator characters, empty pieces included. Main statement: no
piece holds a separator, and there is always at least one piece.
-/

namespace FormatStyle.Text

/-- **The pieces between separators.** A text without a separator is one piece. -/
def splitAtSep (sep : Char → Bool) : List Char → List (List Char)
  | [] => [[]]
  | c :: cs =>
    if sep c then [] :: splitAtSep sep cs
    else match splitAtSep sep cs with
      | [] => [[c]]
      | piece :: pieces => (c :: piece) :: pieces

theorem splitAtSep_ne_nil (sep : Char → Bool) (cs : List Char) : splitAtSep sep cs ≠ [] := by
  cases cs with
  | nil => simp [splitAtSep]
  | cons c cs =>
    unfold splitAtSep
    split
    · simp
    · split <;> simp

/-- A piece holds no separator. -/
theorem sep_eq_false_of_mem_splitAtSep {sep : Char → Bool} {cs piece : List Char} {c : Char}
    (inside : piece ∈ splitAtSep sep cs) (member : c ∈ piece) : sep c = false := by
  induction cs generalizing piece with
  | nil =>
    simp only [splitAtSep, List.mem_singleton] at inside
    subst inside
    simp at member
  | cons d ds ih =>
    unfold splitAtSep at inside
    split at inside
    · rcases List.mem_cons.mp inside with rfl | inside
      · simp at member
      · exact ih inside member
    · rename_i plain
      split at inside
      · rename_i none
        exact absurd none (splitAtSep_ne_nil sep ds)
      · rename_i first pieces eq
        rcases List.mem_cons.mp inside with rfl | inside
        · rcases List.mem_cons.mp member with rfl | member
          · simpa using plain
          · exact ih (eq ▸ List.mem_cons_self) member
        · exact ih (eq ▸ List.mem_cons_of_mem _ inside) member

end FormatStyle.Text
