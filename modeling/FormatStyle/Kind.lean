import FormatStyle.Value

/-! # Kinds of options

A kind says which values an option can hold and how they are spelled. Kinds have two levels:
simple kinds, and records whose parts have simple kinds. Main statements: the value that a simple
option starts from fits its kind (`ScalarKind.admits_zero`), and a record has as many values as its
part table has parts (`length_eq_of_partsAdmit`).
-/

namespace FormatStyle

/-- **An enumeration** with its accepted spellings, each mapped to a variant. The first spelling
of a variant is the one that is written; later ones are only read. -/
structure Enumeration where
  name : String
  spellings : List (String × String)
  deriving DecidableEq, Repr

namespace Enumeration

variable (e : Enumeration)

/-- The variant that a spelling stands for. -/
def variant? (spelling : String) : Option String :=
  (e.spellings.find? (·.1 == spelling)).map (·.2)

/-- The written spelling of a variant. -/
def canonical? (variant : String) : Option String :=
  (e.spellings.find? (·.2 == variant)).map (·.1)

def hasVariant (variant : String) : Bool := e.spellings.any (·.2 == variant)

/-- The variants in the order of their first spellings, each once. -/
def variants : List String :=
  e.spellings.foldl (fun seen s => if s.2 ∈ seen then seen else seen ++ [s.2]) []

/-- Every spelling of a variant, the written one first. -/
def spellingsOf (variant : String) : List String :=
  (e.spellings.filter (·.2 == variant)).map (·.1)

/-- The variant of the first spelling. -/
def first : String := (e.spellings.head?.map (·.2)).getD ""

/-- A spelling that is read stands for a variant. -/
theorem hasVariant_of_variant? {spelling variant : String}
    (h : e.variant? spelling = some variant) : e.hasVariant variant = true := by
  obtain ⟨pair, found, rfl⟩ := Option.map_eq_some_iff.mp h
  exact List.any_eq_true.mpr ⟨pair, List.mem_of_find?_eq_some found, by simp⟩

/-- Every variant has a written spelling. -/
theorem canonical?_isSome (variant : String) :
    (e.canonical? variant).isSome = e.hasVariant variant := by
  rw [Bool.eq_iff_iff]
  simp only [canonical?, hasVariant, Option.isSome_map, List.find?_isSome, List.any_eq_true]

end Enumeration

/-- **Simple kinds.** A bound is an integer where `-1` stands for no bound. -/
inductive ScalarKind where
  | bool
  | int
  | unsigned
  | bound
  | str
  | strList
  | choice (e : Enumeration)
  deriving DecidableEq, Repr

/-- **A part of a record**: its name and its kind. -/
structure Part where
  name : String
  kind : ScalarKind
  deriving DecidableEq, Repr

/-- **Table literals**, in which styles, presets and rules are written down. A record literal
names some of the parts and leaves the others as they are. -/
inductive Literal where
  | bool (b : Bool)
  | int (n : Int)
  | str (s : String)
  | choice (variant : String)
  | list (items : List String)
  | record (assignments : List (String × Literal))
  | records (entries : List (List (String × Literal)))
  deriving Repr, Inhabited

/-- **A record with shorthands**: words that stand for an assignment of its parts. -/
structure Shorthand where
  name : String
  parts : List Part
  spellings : List (String × List (String × Literal))
  deriving Repr

/-- **Kinds of options.** -/
inductive FieldKind where
  | scalar (kind : ScalarKind)
  | record (parts : List Part)
  | shorthand (s : Shorthand)
  | recordList (parts : List Part)
  deriving Repr

/-- The values that a simple kind admits. -/
def ScalarKind.admits : ScalarKind → Value → Bool
  | bool, .bool _ => true
  | int, .int _ => true
  | unsigned, .int n => 0 ≤ n
  | bound, .int n => -1 ≤ n
  | str, .str _ => true
  | strList, .list _ => true
  | choice e, .choice variant => e.hasVariant variant
  | _, _ => false

/-- One value for each part, each of the part's kind. -/
def partsAdmit : List Part → List Value → Bool
  | [], [] => true
  | part :: parts, value :: values => part.kind.admits value && partsAdmit parts values
  | _, _ => false

/-- The value of a simple kind before any table assigns it. -/
def ScalarKind.zero : ScalarKind → Value
  | bool => .bool false
  | int | unsigned | bound => .int 0
  | str => .str ""
  | strList => .list []
  | choice e => .choice e.first

/-- The values of the parts before any table assigns them. -/
def zeroParts (parts : List Part) : List Value := parts.map (·.kind.zero)

namespace FieldKind

/-- The part table of a kind that holds records. -/
def parts? : FieldKind → Option (List Part)
  | scalar _ => none
  | record parts => some parts
  | shorthand s => some s.parts
  | recordList parts => some parts

/-- **The values that a kind admits.** -/
def admits : FieldKind → Value → Bool
  | scalar kind, value => kind.admits value
  | record parts, .record values => partsAdmit parts values
  | shorthand s, .record values => partsAdmit s.parts values
  | recordList parts, .records entries => entries.all (partsAdmit parts)
  | _, _ => false

/-- The value that a field holds before any table assigns it. -/
def zero : FieldKind → Value
  | scalar kind => kind.zero
  | record parts => .record (zeroParts parts)
  | shorthand s => .record (zeroParts s.parts)
  | recordList _ => .records []

end FieldKind

/-- An enumeration that a kind uses has at least one spelling. -/
def ScalarKind.Spelled : ScalarKind → Prop
  | choice e => e.spellings ≠ []
  | _ => True

theorem ScalarKind.admits_zero {kind : ScalarKind} (h : kind.Spelled) :
    kind.admits kind.zero = true := by
  cases kind with
  | choice e =>
    obtain ⟨name, spellings⟩ := e
    cases spellings with
    | nil => exact absurd rfl h
    | cons s rest => simp [zero, admits, Enumeration.first, Enumeration.hasVariant]
  | _ => rfl

theorem length_eq_of_partsAdmit {parts : List Part} {values : List Value}
    (h : partsAdmit parts values = true) : values.length = parts.length := by
  induction parts generalizing values with
  | nil => cases values <;> simp_all [partsAdmit]
  | cons part parts ih =>
    cases values with
    | nil => simp [partsAdmit] at h
    | cons value values =>
      simp only [partsAdmit, Bool.and_eq_true] at h
      simp [ih h.2]

end FormatStyle
