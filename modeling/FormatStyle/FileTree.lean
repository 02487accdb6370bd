import FormatStyle.Error
import FormatStyle.Path
import FormatStyle.Text.Utf8

/-! # Trees of files

The files and directories that a command works on. A path finds what any other path with the same
components finds. Main statement: what is written to a path is what it then holds
(`FileTree.file?_write`), and every other file stays as it was (`FileTree.file?_write_of_ne`).
-/

namespace FormatStyle

/-- **A tree of files**: the content of each file and the known directories, by their
components. -/
structure FileTree where
  files : List (List Component × List UInt8)
  directories : List (List Component)
  deriving DecidableEq, Repr

namespace FileTree

/-- The tree with nothing but the root directory. -/
def empty : FileTree := ⟨[], [[.root]]⟩

variable (t : FileTree)

/-- The content of the file at a path. -/
def file? (path : Path) : Option (List UInt8) := t.files.lookup path.components

def isFile (path : Path) : Bool := (t.file? path).isSome

def isDirectory (path : Path) : Bool := t.directories.contains path.components

def contains (path : Path) : Bool := t.isFile path || t.isDirectory path

/-- **The text of a file.** -/
def readText (path : Path) : Except FileError String :=
  match t.file? path with
  | none => .error (.noSuchFile path.text)
  | some bytes => (Text.decode bytes).mapError .notText

/-- **Make a directory** and all directories above it. -/
def makeDirectories (path : Path) : FileTree :=
  let made := (path.ancestors.takeWhile (!·.text.isEmpty)).map Path.components
  { t with directories := made.filter (!t.directories.contains ·) ++ t.directories }

/-- Put a file into the tree. -/
def put (path : Path) (bytes : List UInt8) : FileTree :=
  { t with files := (path.components, bytes) :: t.files.filter (·.1 != path.components) }

/-- Put a file into the tree, with all directories above it. -/
def seed (path : Path) (bytes : List UInt8) : FileTree :=
  match path.parent? with
  | some parent => (t.makeDirectories parent).put path bytes
  | none => t.put path bytes

/-- **Write a file.** The directory above it has to exist. -/
def write (path : Path) (bytes : List UInt8) : Except FileError FileTree :=
  match path.parent? with
  | some parent =>
    if parent.text.isEmpty || t.isDirectory parent then .ok (t.put path bytes)
    else .error (.noSuchDirectory parent.text)
  | none => .ok (t.put path bytes)

/-- **Write a result**, making the directories above it where nothing is. -/
def writeOutput (path : Path) (text : String) : Except StyleError FileTree :=
  let prepared :=
    match path.parent? with
    | some parent =>
      if parent.components.isEmpty || t.contains parent then t else t.makeDirectories parent
    | none => t
  (prepared.write path (Text.encode text)).mapError fun e =>
    .filesystem (.failedAt path.text e)

theorem file?_put (path : Path) (bytes : List UInt8) :
    (t.put path bytes).file? path = some bytes := by
  simp [put, file?]

/-- Putting a file leaves every other file alone. -/
theorem file?_put_of_ne {path other : Path} (bytes : List UInt8)
    (h : other.components ≠ path.components) : (t.put path bytes).file? other = t.file? other := by
  simp only [put, file?, List.lookup_cons, beq_eq_false_iff_ne.mpr h]
  induction t.files with
  | nil => rfl
  | cons entry rest ih =>
    obtain ⟨key, content⟩ := entry
    by_cases same : key = path.components
    · subst same
      simp [List.lookup_cons, ih, beq_eq_false_iff_ne.mpr h]
    · simp only [List.filter_cons, bne_iff_ne, ne_eq, same, not_false_eq_true, ↓reduceIte,
        List.lookup_cons, ih]

theorem put_of_write {t next : FileTree} {path : Path} {bytes : List UInt8}
    (h : t.write path bytes = .ok next) : next = t.put path bytes := by
  unfold write at h
  split at h
  · split at h
    · cases h
      rfl
    · cases h
  · cases h
    rfl

/-- What is written to a path is what the path then holds. -/
theorem file?_write {t next : FileTree} {path : Path} {bytes : List UInt8}
    (h : t.write path bytes = .ok next) : next.file? path = some bytes := by
  rw [put_of_write h, file?_put]

/-- Writing a file leaves every other file alone. -/
theorem file?_write_of_ne {t next : FileTree} {path other : Path} {bytes : List UInt8}
    (h : t.write path bytes = .ok next) (ne : other.components ≠ path.components) :
    next.file? other = t.file? other := by
  rw [put_of_write h, file?_put_of_ne t bytes ne]

end FileTree

end FormatStyle
