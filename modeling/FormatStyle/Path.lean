import FormatStyle.Text.Split

/-! # Paths

A path is a text with components between slashes. Two paths are the same when they have the same
components: repeated slashes, inner `.` components and a slash at the end do not count, and `..`
stays what it is. The text is kept, because messages show it.
-/

namespace FormatStyle

/-- **Components of paths.** The current directory counts only where a path starts with it. -/
inductive Component where
  | root
  | current
  | parent
  | name (text : String)
  deriving DecidableEq, Repr

/-- **A path**, by its text. -/
structure Path where
  text : String
  deriving DecidableEq, Repr

namespace Path

/-- **Where a path starts**: at the root, in the current directory by name, or just anywhere. -/
inductive Start where
  | root
  | current
  | anywhere
  deriving DecidableEq, Repr

def isSlash (c : Char) : Bool := c == '/'

namespace Start

/-- The start of a path, and the rest of its characters. -/
def ofChars : List Char → Start × List Char
  | '/' :: rest => (root, rest)
  | ['.'] => (current, [])
  | '.' :: '/' :: rest => (current, '/' :: rest)
  | cs => (anywhere, cs)

def chars : Start → List Char
  | root => ['/']
  | current => ['.']
  | anywhere => []

def component? : Start → Option Component
  | root => some .root
  | current => some .current
  | anywhere => none

theorem chars_append_ofChars (cs : List Char) : (ofChars cs).1.chars ++ (ofChars cs).2 = cs := by
  unfold ofChars
  split <;> rfl

end Start

/-- Pieces between slashes that are no components. -/
def isIdle (piece : List Char) : Bool := piece == [] || piece == ['.']

/-- The component that a piece stands for. -/
def component? (piece : List Char) : Option Component :=
  if isIdle piece then none
  else if piece = ['.', '.'] then some .parent
  else some (.name (String.ofList piece))

/-- The pieces of a path after its start. -/
def pieces (p : Path) : List (List Char) :=
  Text.splitAtSep isSlash (Start.ofChars p.text.toList).2

/-- **The components of a path.** -/
def components (p : Path) : List Component :=
  (Start.ofChars p.text.toList).1.component?.toList ++ p.pieces.filterMap component?

/-- The path of a start and pieces. -/
def ofPieces (start : Start) (pieces : List (List Char)) : Path :=
  ⟨String.ofList (start.chars ++ ['/'].intercalate pieces)⟩

/-- A path from the root. -/
def isAbsolute (p : Path) : Bool := p.text.toList.head?.any isSlash

/-- **A path taken from a directory.** An absolute path stays what it is. -/
def join (base p : Path) : Path :=
  if p.isAbsolute then p
  else if base.text.toList.getLast?.any (!isSlash ·) then ⟨base.text ++ "/" ++ p.text⟩
  else ⟨base.text ++ p.text⟩

/-- The directories above a path whose pieces are given from the last one, the nearest first. -/
def above (start : Start) : List (List Char) → List Path
  | [] => if start = .current then [⟨""⟩] else []
  | _ :: rest =>
    let kept := rest.dropWhile isIdle
    ofPieces start kept.reverse :: above start kept
termination_by pieces => pieces.length
decreasing_by
  have := (List.dropWhile_sublist (l := rest) isIdle).length_le
  simp only [List.length_cons]
  omega

/-- **The directories above a path**, the nearest first. -/
def directoriesAbove (p : Path) : List Path :=
  above (Start.ofChars p.text.toList).1 (p.pieces.reverse.dropWhile isIdle)

/-- **The directory above a path**, if there is one. -/
def parent? (p : Path) : Option Path := p.directoriesAbove.head?

/-- A path and all directories above it. -/
def ancestors (p : Path) : List Path := p :: p.directoriesAbove

end Path

end FormatStyle
