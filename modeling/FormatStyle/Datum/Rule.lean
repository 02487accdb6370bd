import FormatStyle.Datum

/-! # Rules for plain data

A rule says what a datum has to be; what breaks it is reported piece by piece, with the place of
each piece. Main statement: nothing is reported exactly where the rule is kept
(`Rule.violations_eq_nil_iff`).
-/

namespace FormatStyle

/-- **Types of data**, by the names that messages use. -/
inductive DatumType where
  | array
  | boolean
  | number
  | object
  | string
  deriving DecidableEq, Repr

namespace DatumType

def name : DatumType → String
  | array => "array"
  | boolean => "boolean"
  | number => "number"
  | object => "object"
  | string => "string"

/-- The data of a type. -/
def has : DatumType → Datum → Bool
  | array, .list _ => true
  | boolean, .bool _ => true
  | number, .int _ | number, .float _ => true
  | object, .object _ => true
  | string, .text _ => true
  | _, _ => false

end DatumType

/-- **Rules.** A rule about one type of data says nothing about others. -/
inductive Rule where
  | all (rules : List Rule)
  /-- One of the types. -/
  | typed (types : List DatumType)
  /-- A text with at least so many characters. -/
  | minLength (n : Nat)
  /-- A list with at least so many items. -/
  | minItems (n : Nat)
  /-- Every item of a list. -/
  | items (rule : Rule)
  /-- The values under keys of an object. -/
  | properties (rules : List (String × Rule))
  /-- The values under keys of an object, and no other keys. -/
  | onlyProperties (rules : List (String × Rule))
  /-- The keys that an object has to have. -/
  | required (keys : List String)
  deriving Repr

/-- **What is wrong with a datum.** -/
inductive Misfit where
  | notOfType (found : Datum) (types : List DatumType)
  | tooShort (found : Datum) (minimum : Nat)
  | tooFew (found : Datum) (minimum : Nat)
  | unexpected (keys : List String)
  | missing (key : String)
  deriving Repr

/-- One thing, or several. -/
def plural (n : Nat) (one many : String) : String := if n = 1 then one else many

def Misfit.message : Misfit → String
  | notOfType found types =>
    let names := ", ".intercalate (types.map fun type => Datum.quote type.name)
    let noun := plural types.length "type" "types"
    s!"{found.display} is not of {noun} {names}"
  | tooShort found minimum =>
    let noun := plural minimum "character" "characters"
    s!"{found.display} is shorter than {minimum} {noun}"
  | tooFew found minimum =>
    let noun := plural minimum "item" "items"
    s!"{found.display} has less than {minimum} {noun}"
  | unexpected keys =>
    let names := ", ".intercalate (keys.map fun key => "'" ++ key ++ "'")
    let verb := plural keys.length "was" "were"
    "Additional properties are not allowed (" ++ names ++ " " ++ verb ++ " unexpected)"
  | missing key => Datum.quote key ++ " is a required property"

/-- **A broken rule**: the place of the datum, and what is wrong with it. -/
structure Violation where
  path : List String
  misfit : Misfit
  deriving Repr

/-- A violation in a message. -/
def Violation.message (v : Violation) : String :=
  "  - Path '" ++ String.join (v.path.map ("/" ++ ·)) ++ "': " ++ v.misfit.message

/-- The violation of a single check. -/
def violationUnless (kept : Bool) (path : List String) (misfit : Misfit) : List Violation :=
  if kept then [] else [⟨path, misfit⟩]

theorem violationUnless_eq_nil_iff (kept : Bool) (path : List String) (misfit : Misfit) :
    violationUnless kept path misfit = [] ↔ kept = true := by
  cases kept <;> simp [violationUnless]

namespace Rule

mutual

/-- **The violations of a rule** by a datum at a place, in order. -/
def violations (path : List String) : Rule → Datum → List Violation
  | all rules, d => violationsOfAll path rules d
  | typed types, d => violationUnless (types.any (·.has d)) path (.notOfType d types)
  | minLength n, .text s => violationUnless (n ≤ s.length) path (.tooShort (.text s) n)
  | minLength _, _ => []
  | minItems n, .list ds => violationUnless (n ≤ ds.length) path (.tooFew (.list ds) n)
  | minItems _, _ => []
  | items rule, .list ds => (ds.zipIdx.map fun (d, index) =>
      violations (path ++ [toString index]) rule d).flatten
  | items _, _ => []
  | properties rules, .object entries => violationsOfKeys path rules entries
  | properties _, _ => []
  | onlyProperties rules, .object entries =>
    (entries.map fun (key, d) => violationsUnder path rules key d).flatten ++
      let others := (entries.map (·.1)).filter fun key => !(rules.map (·.1)).contains key
      violationUnless others.isEmpty path (.unexpected others)
  | onlyProperties _, _ => []
  | required keys, .object entries =>
    (keys.map fun key =>
      violationUnless ((entries.map (·.1)).contains key) path (.missing key)).flatten
  | required _, _ => []

/-- The violations of several rules. -/
def violationsOfAll (path : List String) : List Rule → Datum → List Violation
  | [], _ => []
  | rule :: rest, d => violations path rule d ++ violationsOfAll path rest d

/-- The violations of the rules for keys by the values of an object, in the order of the rules. -/
def violationsOfKeys (path : List String) :
    List (String × Rule) → List (String × Datum) → List Violation
  | [], _ => []
  | (key, rule) :: rest, entries =>
    (match entries.lookup key with
      | some d => violations (path ++ [key]) rule d
      | none => []) ++ violationsOfKeys path rest entries

/-- The violations of the rule for one key. -/
def violationsUnder (path : List String) :
    List (String × Rule) → String → Datum → List Violation
  | [], _, _ => []
  | (name, rule) :: rest, key, d =>
    if name = key then violations (path ++ [key]) rule d else violationsUnder path rest key d

end

mutual

/-- **A rule is kept** by a datum. -/
def Kept : Rule → Datum → Prop
  | all rules, d => KeptAll rules d
  | typed types, d => ∃ type ∈ types, type.has d = true
  | minLength n, d => ∀ s, d = .text s → n ≤ s.length
  | minItems n, d => ∀ ds, d = .list ds → n ≤ ds.length
  | items rule, d => ∀ ds, d = .list ds → ∀ item ∈ ds, Kept rule item
  | properties rules, d => ∀ entries, d = .object entries → KeptKeys rules entries
  | onlyProperties rules, d => ∀ entries, d = .object entries →
      ∀ entry ∈ entries, KeptUnder rules entry.1 entry.2
  | required keys, d => ∀ entries, d = .object entries →
      ∀ key ∈ keys, key ∈ entries.map (·.1)

/-- Each of several rules is kept. -/
def KeptAll : List Rule → Datum → Prop
  | [], _ => True
  | rule :: rest, d => Kept rule d ∧ KeptAll rest d

/-- The rules for keys are kept by the values of an object. -/
def KeptKeys : List (String × Rule) → List (String × Datum) → Prop
  | [], _ => True
  | (key, rule) :: rest, entries =>
    (∀ d, entries.lookup key = some d → Kept rule d) ∧ KeptKeys rest entries

/-- A key is allowed, and its rule is kept. -/
def KeptUnder : List (String × Rule) → String → Datum → Prop
  | [], _, _ => False
  | (name, rule) :: rest, key, d => if name = key then Kept rule d else KeptUnder rest key d

end

/-- A key whose rule is kept is one of those that have a rule. -/
theorem listed_of_keptUnder :
    (rules : List (String × Rule)) → {key : String} → {d : Datum} → KeptUnder rules key d →
      (rules.map (·.1)).contains key = true
  | [], _, _, h => by simp [KeptUnder] at h
  | (name, rule) :: rest, key, d, h => by
    rw [KeptUnder] at h
    split at h
    · rename_i same
      simp [same]
    · have := listed_of_keptUnder rest h
      simp only [List.map_cons, List.contains_cons, this, Bool.or_true]

mutual

/-- Nothing is reported exactly where a rule is kept. -/
theorem violations_eq_nil_iff (path : List String) :
    (rule : Rule) → (d : Datum) → (violations path rule d = [] ↔ Kept rule d)
  | all rules, d => by
    rw [violations, Kept]
    exact violationsOfAll_eq_nil_iff path rules d
  | typed types, d => by
    rw [violations, Kept, violationUnless_eq_nil_iff, List.any_eq_true]
  | minLength n, d => by
    cases d <;> simp [violations, Kept, violationUnless_eq_nil_iff]
  | minItems n, d => by
    cases d <;> simp [violations, Kept, violationUnless_eq_nil_iff]
  | items rule, d => by
    cases d with
    | list ds =>
      simp only [violations, Kept, List.flatten_eq_nil_iff, List.mem_map, Datum.list.injEq,
        forall_eq']
      constructor
      · intro h item member
        obtain ⟨index, at_⟩ := List.mem_iff_getElem?.mp member
        exact (violations_eq_nil_iff _ rule item).mp
          (h _ ⟨(item, index), List.mem_zipIdx_iff_getElem?.mpr at_, rfl⟩)
      · rintro h _ ⟨⟨item, index⟩, member, rfl⟩
        exact (violations_eq_nil_iff _ rule item).mpr
          (h item (List.mem_of_getElem? (List.mem_zipIdx_iff_getElem?.mp member)))
    | _ => simp [violations, Kept]
  | properties rules, d => by
    cases d with
    | object entries =>
      simp only [violations, Kept, Datum.object.injEq, forall_eq']
      exact violationsOfKeys_eq_nil_iff path rules entries
    | _ => simp [violations, Kept]
  | onlyProperties rules, d => by
    cases d with
    | object entries =>
      simp only [violations, Kept, Datum.object.injEq, forall_eq', List.append_eq_nil_iff,
        List.flatten_eq_nil_iff, List.mem_map, violationUnless_eq_nil_iff, List.isEmpty_iff,
        List.filter_eq_nil_iff]
      constructor
      · rintro ⟨under, known⟩ ⟨key, d⟩ member
        have listed : (rules.map (·.1)).contains key = true := by
          have := known key ⟨(key, d), member, rfl⟩
          simpa using this
        exact (violationsUnder_eq_nil_iff path rules key d listed).mp
          (under _ ⟨(key, d), member, rfl⟩)
      · intro h
        refine ⟨?_, ?_⟩
        · rintro _ ⟨⟨key, d⟩, member, rfl⟩
          have kept := h (key, d) member
          exact (violationsUnder_eq_nil_iff path rules key d (listed_of_keptUnder rules kept)).mpr
            kept
        · rintro key ⟨⟨_, d⟩, member, rfl⟩
          rw [listed_of_keptUnder rules (h _ member)]
          simp
    | _ => simp [violations, Kept]
  | required keys, d => by
    cases d with
    | object entries =>
      simp [violations, Kept, violationUnless_eq_nil_iff]
    | _ => simp [violations, Kept]

theorem violationsOfAll_eq_nil_iff (path : List String) :
    (rules : List Rule) → (d : Datum) →
      (violationsOfAll path rules d = [] ↔ KeptAll rules d)
  | [], d => by simp [violationsOfAll, KeptAll]
  | rule :: rest, d => by
    rw [violationsOfAll, KeptAll, List.append_eq_nil_iff, violations_eq_nil_iff path rule d,
      violationsOfAll_eq_nil_iff path rest d]

theorem violationsOfKeys_eq_nil_iff (path : List String) :
    (rules : List (String × Rule)) → (entries : List (String × Datum)) →
      (violationsOfKeys path rules entries = [] ↔ KeptKeys rules entries)
  | [], entries => by simp [violationsOfKeys, KeptKeys]
  | (key, rule) :: rest, entries => by
    rw [violationsOfKeys, KeptKeys, List.append_eq_nil_iff,
      violationsOfKeys_eq_nil_iff path rest entries]
    cases entries.lookup key with
    | none => simp
    | some d => simp [violations_eq_nil_iff (path ++ [key]) rule d]

theorem violationsUnder_eq_nil_iff (path : List String) :
    (rules : List (String × Rule)) → (key : String) → (d : Datum) →
      (rules.map (·.1)).contains key = true →
      (violationsUnder path rules key d = [] ↔ KeptUnder rules key d)
  | [], key, d, listed => by simp at listed
  | (name, rule) :: rest, key, d, listed => by
    rw [violationsUnder, KeptUnder]
    split
    · exact violations_eq_nil_iff (path ++ [key]) rule d
    · rename_i other
      refine violationsUnder_eq_nil_iff path rest key d ?_
      simp only [List.map_cons, List.contains_cons, Bool.or_eq_true, beq_iff_eq] at listed
      exact listed.resolve_left fun same => other same.symm

end

end Rule

end FormatStyle
