import FormatStyle.Error
import FormatStyle.Text.Character
import FormatStyle.Text.Split

/-! # Schema versions

The four revisions of the option schema, in order, with the texts that name them and the walk
from one to another through adjacent revisions. Main statements: a walk makes progress
(`distance_stepTowards`) and stops only at its goal (`stepTowards_eq_none_iff`).
-/

namespace FormatStyle

/-- **Schema versions**, oldest first. -/
inductive Version where
  | v3_4
  | v3_6
  | v12
  | v16
  deriving DecidableEq, Repr

namespace Version

/-- All versions, oldest first. -/
def all : List Version := [v3_4, v3_6, v12, v16]

theorem mem_all (v : Version) : v ∈ all := by cases v <;> decide

/-- The position among all versions. -/
def rank : Version → Nat
  | v3_4 => 0
  | v3_6 => 1
  | v12 => 2
  | v16 => 3

instance : LE Version := ⟨fun a b => a.rank ≤ b.rank⟩

instance : LT Version := ⟨fun a b => a.rank < b.rank⟩

instance (a b : Version) : Decidable (a ≤ b) := inferInstanceAs (Decidable (a.rank ≤ b.rank))

instance (a b : Version) : Decidable (a < b) := inferInstanceAs (Decidable (a.rank < b.rank))

theorem rank_injective {a b : Version} (h : a.rank = b.rank) : a = b := by
  cases a <;> cases b <;> simp_all [rank]

/-- The text that stands for a version in messages. -/
def text : Version → String
  | v3_4 => "3.4"
  | v3_6 => "3.6"
  | v12 => "12"
  | v16 => "16"

/-- The next version up, if there is one. -/
def next? : Version → Option Version
  | v3_4 => some v3_6
  | v3_6 => some v12
  | v12 => some v16
  | v16 => none

/-- The next version down, if there is one. -/
def previous? : Version → Option Version
  | v3_4 => none
  | v3_6 => some v3_4
  | v12 => some v3_6
  | v16 => some v12

/-- **The adjacent version towards a goal**, none at the goal itself. -/
def stepTowards (v goal : Version) : Option Version :=
  if v < goal then v.next? else if goal < v then v.previous? else none

/-- The number of steps between two versions. -/
def distance (a b : Version) : Nat := (a.rank - b.rank) + (b.rank - a.rank)

theorem stepTowards_eq_none_iff (v goal : Version) :
    v.stepTowards goal = none ↔ v = goal := by
  cases v <;> cases goal <;> decide

/-- A step towards a goal brings it one nearer. -/
theorem distance_stepTowards {v goal w : Version} (h : v.stepTowards goal = some w) :
    distance w goal + 1 = distance v goal := by
  revert h
  cases v <;> cases goal <;> cases w <;> decide

/-- The version a major and a minor number name. The minor number counts only for `3`. -/
def ofNumbers (major : List Char) (minor : Option (List Char)) : Option Version :=
  if major = ['3'] then
    if minor = some ['4'] then some v3_4
    else if minor = some ['6'] then some v3_6
    else none
  else if major = ['1', '2'] then some v12
  else if major = ['1', '6'] then some v16
  else none

/-- The version that characters name: an optional `v`, then one to three numbers between
points. -/
def ofChars (cs : List Char) : Option Version :=
  let numbers := Text.splitAtSep (· == '.') <|
    match cs with
    | 'v' :: rest => rest
    | 'V' :: rest => rest
    | _ => cs
  if numbers.all (fun number => !number.isEmpty && number.all Text.isDecimalDigit) then
    match numbers with
    | [major] => ofNumbers major none
    | [major, minor] => ofNumbers major (some minor)
    | [major, minor, _] => ofNumbers major (some minor)
    | _ => none
  else
    none

/-- **Read a version**: `3.4`, `3.4.2`, `v12`, `16.0.6` and similar, blank ends ignored. -/
def parse (s : String) : Except StyleError Version :=
  match ofChars (Text.trimChars s.toList) with
  | some v => .ok v
  | none => .error (.unknownVersion s)

end Version

end FormatStyle
