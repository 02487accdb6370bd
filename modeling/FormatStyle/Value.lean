/-! # Values of options

What an option of a style record can hold. Nested records are laid out by position, so that two
values are equal exactly when they hold the same content.
-/

namespace FormatStyle

/-- **Option values.** A choice is held by the name of its variant, a record by its parts in the
order of its part table. -/
inductive Value where
  | bool (b : Bool)
  | int (n : Int)
  | str (s : String)
  | list (items : List String)
  | choice (variant : String)
  | record (parts : List Value)
  | records (entries : List (List Value))
  deriving Repr, Inhabited

namespace Value

mutual

/-- Equality of values can be decided. -/
def decideEq : (a b : Value) → Decidable (a = b)
  | bool a, bool b => decidable_of_iff (a = b) (by simp)
  | int a, int b => decidable_of_iff (a = b) (by simp)
  | str a, str b => decidable_of_iff (a = b) (by simp)
  | list a, list b => decidable_of_iff (a = b) (by simp)
  | choice a, choice b => decidable_of_iff (a = b) (by simp)
  | record a, record b =>
    have := decideEqParts a b
    decidable_of_iff (a = b) (by simp)
  | records a, records b =>
    have := decideEqEntries a b
    decidable_of_iff (a = b) (by simp)
  | bool _, int _ | bool _, str _ | bool _, list _ | bool _, choice _ | bool _, record _
  | bool _, records _ | int _, bool _ | int _, str _ | int _, list _ | int _, choice _
  | int _, record _ | int _, records _ | str _, bool _ | str _, int _ | str _, list _
  | str _, choice _ | str _, record _ | str _, records _ | list _, bool _ | list _, int _
  | list _, str _ | list _, choice _ | list _, record _ | list _, records _ | choice _, bool _
  | choice _, int _ | choice _, str _ | choice _, list _ | choice _, record _
  | choice _, records _ | record _, bool _ | record _, int _ | record _, str _
  | record _, list _ | record _, choice _ | record _, records _ | records _, bool _
  | records _, int _ | records _, str _ | records _, list _ | records _, choice _
  | records _, record _ => isFalse (by simp)

/-- Equality of the parts of records can be decided. -/
def decideEqParts : (a b : List Value) → Decidable (a = b)
  | [], [] => isTrue rfl
  | [], _ :: _ => isFalse (by simp)
  | _ :: _, [] => isFalse (by simp)
  | x :: xs, y :: ys =>
    have := decideEq x y
    have := decideEqParts xs ys
    decidable_of_iff (x = y ∧ xs = ys) (by simp)

/-- Equality of record lists can be decided. -/
def decideEqEntries : (a b : List (List Value)) → Decidable (a = b)
  | [], [] => isTrue rfl
  | [], _ :: _ => isFalse (by simp)
  | _ :: _, [] => isFalse (by simp)
  | x :: xs, y :: ys =>
    have := decideEqParts x y
    have := decideEqEntries xs ys
    decidable_of_iff (x = y ∧ xs = ys) (by simp)

end

instance : DecidableEq Value := decideEq

/-- The flag, if the value is one. -/
def bool? : Value → Option Bool
  | bool b => some b
  | _ => none

/-- The number, if the value is one. -/
def int? : Value → Option Int
  | int n => some n
  | _ => none

/-- The variant, if the value is a choice. -/
def choice? : Value → Option String
  | choice variant => some variant
  | _ => none

/-- The items, if the value is a list of texts. -/
def list? : Value → Option (List String)
  | list items => some items
  | _ => none

/-- The parts, if the value is a record. -/
def record? : Value → Option (List Value)
  | record parts => some parts
  | _ => none

mutual

/-- **A value in a message**: texts in quotes, records in braces, record lists by their size. -/
def display : Value → String
  | bool b => toString b
  | int n => toString n
  | str s => "'" ++ s ++ "'"
  | choice variant => variant
  | list items => "[" ++ ", ".intercalate items ++ "]"
  | record parts => "\x7b" ++ ", ".intercalate (displayAll parts) ++ "\x7d"
  | records entries => "[" ++ toString entries.length ++ " entries]"

/-- The values of a list in messages. -/
def displayAll : List Value → List String
  | [] => []
  | v :: vs => display v :: displayAll vs

end

end Value

end FormatStyle
