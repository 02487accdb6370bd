import FormatStyle.Trace
import Mathlib.Data.List.Forall2

/-! # Outcomes of sequences

Success of a sequence of steps is success of every step. What each successful step of a fold keeps,
the fold keeps (`Outcome.foldlM_preserves`), and the outcome of a traced fold is the fold of the
outcomes (`Traced.outcome_foldlM`).
-/

namespace FormatStyle

namespace Outcome

variable {ε α β γ : Type}

@[simp] theorem ok_bind (a : α) (f : α → Except ε β) : (Except.ok a >>= f) = f a := rfl

@[simp] theorem error_bind (e : ε) (f : α → Except ε β) :
    ((Except.error e : Except ε α) >>= f) = .error e := rfl

@[simp] theorem map_ok (a : α) (f : α → β) : (f <$> (Except.ok a : Except ε α)) = .ok (f a) := rfl

@[simp] theorem map_error (e : ε) (f : α → β) :
    (f <$> (Except.error e : Except ε α)) = .error e := rfl

@[simp] theorem pure_eq (a : α) : (pure a : Except ε α) = .ok a := rfl

theorem bind_eq_ok_iff {x : Except ε α} {f : α → Except ε β} {b : β} :
    x >>= f = .ok b ↔ ∃ a, x = .ok a ∧ f a = .ok b := by
  cases x <;> simp

theorem map_eq_ok_iff {x : Except ε α} {f : α → β} {b : β} :
    f <$> x = .ok b ↔ ∃ a, x = .ok a ∧ f a = b := by
  cases x <;> simp

/-- What an error is turned into is no success. -/
theorem mapError_eq_ok_iff {δ : Type} {x : Except ε α} {f : ε → δ} {a : α} :
    x.mapError f = .ok a ↔ x = .ok a := by
  cases x <;> simp [Except.mapError]

theorem toOption_eq_some_iff {x : Except ε α} {a : α} : x.toOption = some a ↔ x = .ok a := by
  cases x <;> simp [Except.toOption]

theorem isOk_iff {x : Except ε α} : x.isOk = true ↔ ∃ a, x = .ok a := by
  cases x <;> simp [Except.isOk, Except.toBool]

/-- What each successful step keeps, a successful fold keeps. -/
theorem foldlM_preserves {f : β → α → Except ε β} {P : β → Prop} {l : List α}
    (keeps : ∀ b a b', a ∈ l → f b a = .ok b' → P b → P b') {b b' : β}
    (h : l.foldlM f b = .ok b') (start : P b) : P b' := by
  induction l generalizing b with
  | nil =>
    cases h
    exact start
  | cons a l ih =>
    rw [List.foldlM_cons] at h
    obtain ⟨next, stepped, rest⟩ := bind_eq_ok_iff.mp h
    exact ih (fun b a b' member => keeps b a b' (List.mem_cons_of_mem _ member)) rest
      (keeps b a next List.mem_cons_self stepped start)

/-- Each step of a successful fold succeeds, from where the steps before it lead. -/
theorem exists_step_of_foldlM {f : β → α → Except ε β} {P : β → Prop} {l : List α}
    (keeps : ∀ b a b', a ∈ l → f b a = .ok b' → P b → P b') {b b' : β}
    (h : l.foldlM f b = .ok b') (start : P b) {a : α} (member : a ∈ l) :
    ∃ before after, P before ∧ f before a = .ok after := by
  obtain ⟨front, back, rfl⟩ := List.append_of_mem member
  rw [List.foldlM_append] at h
  obtain ⟨before, fronts, rest⟩ := bind_eq_ok_iff.mp h
  rw [List.foldlM_cons] at rest
  obtain ⟨after, step, -⟩ := bind_eq_ok_iff.mp rest
  refine ⟨before, after, ?_, step⟩
  exact foldlM_preserves (fun b a b' earlier => keeps b a b' (List.mem_append_left _ earlier))
    fronts start

/-- What a fold fails with, one of its steps fails with. -/
theorem exists_step_of_foldlM_error {f : β → α → Except ε β} {l : List α} {b : β} {e : ε}
    (h : l.foldlM f b = .error e) : ∃ a ∈ l, ∃ before, f before a = .error e := by
  induction l generalizing b with
  | nil => cases h
  | cons a l ih =>
    rw [List.foldlM_cons] at h
    cases step : f b a with
    | error e' =>
      rw [step] at h
      cases h
      exact ⟨a, List.mem_cons_self, b, step⟩
    | ok next =>
      rw [step] at h
      obtain ⟨later, member, failed⟩ := ih h
      exact ⟨later, List.mem_cons_of_mem _ member, failed⟩

/-- A fold whose steps change nothing changes nothing. -/
theorem foldlM_self {f : β → α → Except ε β} {l : List α} {b : β}
    (stays : ∀ a ∈ l, f b a = .ok b) : l.foldlM f b = .ok b := by
  induction l with
  | nil => rfl
  | cons a l ih =>
    rw [List.foldlM_cons, stays a List.mem_cons_self, ok_bind]
    exact ih fun a member => stays a (List.mem_cons_of_mem _ member)

/-- A fold depends on its steps for members only. -/
theorem foldlM_congr {f g : β → α → Except ε β} {l : List α}
    (same : ∀ a ∈ l, ∀ b, f b a = g b a) (b : β) : l.foldlM f b = l.foldlM g b := by
  induction l generalizing b with
  | nil => rfl
  | cons a l ih =>
    rw [List.foldlM_cons, List.foldlM_cons, same a List.mem_cons_self]
    exact congrArg (g b a >>= ·) <|
      funext (ih fun a member => same a (List.mem_cons_of_mem _ member))

/-- **A fold whose steps commute** gives the same for every order of its list. By induction on the
permutation; only steps that stand next to each other change places. -/
theorem foldlM_perm {f : β → α → Except ε β} {R : α → α → Prop} {l l' : List α}
    (symm : ∀ {a a'}, R a a' → R a' a)
    (commute : ∀ {a a' b c}, R a a' → (f b a >>= (f · a')) = .ok c → (f b a' >>= (f · a)) = .ok c)
    (perm : l.Perm l') (apart : l.Pairwise R) {b c : β} (h : l.foldlM f b = .ok c) :
    l'.foldlM f b = .ok c := by
  induction perm generalizing b with
  | nil => exact h
  | cons a _ ih =>
    rw [List.foldlM_cons] at h ⊢
    obtain ⟨next, stepped, rest⟩ := bind_eq_ok_iff.mp h
    rw [stepped, ok_bind]
    exact ih (List.pairwise_cons.mp apart).2 rest
  | swap a a' l =>
    have related : R a' a := (List.pairwise_cons.mp apart).1 a List.mem_cons_self
    simp only [List.foldlM_cons, ← bind_assoc] at h ⊢
    obtain ⟨next, stepped, rest⟩ := bind_eq_ok_iff.mp h
    rw [commute related stepped, ok_bind, rest]
  | trans first _ ih ih' => exact ih' ((first.pairwise_iff symm).mp apart) (ih apart h)

/-- A visit succeeds exactly if it does at each member. -/
theorem forM_eq_ok_iff {f : α → Except ε Unit} {l : List α} :
    l.forM f = .ok () ↔ ∀ a ∈ l, f a = .ok () := by
  induction l with
  | nil => simp
  | cons a l ih =>
    change (f a >>= fun _ => l.forM f) = _ ↔ _
    rw [bind_eq_ok_iff, List.forall_mem_cons, ← ih]
    constructor
    · rintro ⟨⟨⟩, first, rest⟩
      exact ⟨first, rest⟩
    · rintro ⟨first, rest⟩
      exact ⟨(), first, rest⟩

/-- A successful traversal relates each member to its result. -/
theorem forall₂_of_mapM {f : α → Except ε β} {l : List α} {l' : List β}
    (h : l.mapM f = .ok l') : List.Forall₂ (fun a b => f a = .ok b) l l' := by
  induction l generalizing l' with
  | nil =>
    cases h
    exact .nil
  | cons a l ih =>
    rw [List.mapM_cons] at h
    obtain ⟨b, first, h⟩ := bind_eq_ok_iff.mp h
    obtain ⟨bs, others, h⟩ := bind_eq_ok_iff.mp h
    cases h
    exact .cons first (ih others)

/-- Each member of the one list is related to one of the other. -/
theorem exists_of_mem_left {R : α → β → Prop} {l : List α} {k : List β} {a : α}
    (related : List.Forall₂ R l k) (member : a ∈ l) : ∃ b ∈ k, R a b := by
  induction related with
  | nil => cases member
  | cons first _ ih =>
    rcases List.mem_cons.mp member with rfl | member
    · exact ⟨_, List.mem_cons_self, first⟩
    · obtain ⟨b, there, holds⟩ := ih member
      exact ⟨b, List.mem_cons_of_mem _ there, holds⟩

theorem exists_of_mem_right {R : α → β → Prop} {l : List α} {k : List β} {b : β}
    (related : List.Forall₂ R l k) (member : b ∈ k) : ∃ a ∈ l, R a b :=
  exists_of_mem_left related.flip member

/-- What is related to two lists together is related to one after the other. -/
theorem forall₂_append_left_iff {R : α → β → Prop} {l l' : List α} {k : List β} :
    List.Forall₂ R (l ++ l') k ↔
      ∃ front back, k = front ++ back ∧ List.Forall₂ R l front ∧ List.Forall₂ R l' back := by
  constructor
  · intro related
    refine ⟨_, _, (List.take_append_drop l.length k).symm, ?_, ?_⟩
    · simpa using List.forall₂_take l.length related
    · simpa using List.forall₂_drop l.length related
  · rintro ⟨front, back, rfl, first, rest⟩
    exact List.rel_append first rest

/-- Each result of a successful traversal is the result of a member. -/
theorem exists_of_mem_mapM {f : α → Except ε β} {l : List α} {l' : List β} {b : β}
    (h : l.mapM f = .ok l') (member : b ∈ l') : ∃ a ∈ l, f a = .ok b :=
  exists_of_mem_right (R := fun a b => f a = .ok b) (forall₂_of_mapM h) member

/-- A traversal whose steps succeed succeeds, and its results have what each step gives. -/
theorem mapM_isOk {f : α → Except ε β} {P : β → Prop} {l : List α}
    (succeeds : ∀ a ∈ l, ∃ b, f a = .ok b ∧ P b) : ∃ l', l.mapM f = .ok l' ∧ ∀ b ∈ l', P b := by
  induction l with
  | nil => exact ⟨[], rfl, by simp⟩
  | cons a l ih =>
    obtain ⟨b, first, has⟩ := succeeds a List.mem_cons_self
    obtain ⟨bs, others, have_⟩ := ih fun a member => succeeds a (List.mem_cons_of_mem _ member)
    refine ⟨b :: bs, ?_, List.forall_mem_cons.mpr ⟨has, have_⟩⟩
    rw [List.mapM_cons, first, others]
    rfl

/-- A traversal whose members have related results has results that are related in order. -/
theorem exists_mapM_eq_some {f : α → Option β} {R : α → β → Prop} {l : List α}
    (each : ∀ a ∈ l, ∃ b, f a = some b ∧ R a b) :
    ∃ l', l.mapM f = some l' ∧ List.Forall₂ R l l' := by
  induction l with
  | nil => exact ⟨[], rfl, .nil⟩
  | cons a l ih =>
    obtain ⟨b, first, related⟩ := each a List.mem_cons_self
    obtain ⟨bs, others, rest⟩ := ih fun a member => each a (List.mem_cons_of_mem _ member)
    refine ⟨b :: bs, ?_, .cons related rest⟩
    rw [List.mapM_cons, first, others]
    rfl

/-- A traversal whose steps succeed is a map. -/
theorem mapM_eq_map {f : α → Except ε β} {g : α → β} {l : List α}
    (succeeds : ∀ a ∈ l, f a = .ok (g a)) : l.mapM f = .ok (l.map g) := by
  induction l with
  | nil => rfl
  | cons a l ih =>
    rw [List.mapM_cons, succeeds a List.mem_cons_self,
      ih fun a member => succeeds a (List.mem_cons_of_mem _ member)]
    rfl

private theorem filterAuxM_eq_filterAux {f : α → Except ε Bool} {g : α → Bool} {l : List α} (acc : List α)
    (succeeds : ∀ a ∈ l, f a = .ok (g a)) :
    l.filterAuxM f acc = .ok ((l.filter g).reverse ++ acc) := by
  induction l generalizing acc with
  | nil => rfl
  | cons a l ih =>
    have others := fun acc => ih acc fun a member => succeeds a (List.mem_cons_of_mem _ member)
    rw [List.filterAuxM, succeeds a List.mem_cons_self, ok_bind, others]
    cases kept : g a <;> simp [kept]

/-- A selection whose tests succeed is a filter. -/
theorem filterM_eq_filter {f : α → Except ε Bool} {g : α → Bool} {l : List α}
    (succeeds : ∀ a ∈ l, f a = .ok (g a)) : l.filterM f = .ok (l.filter g) := by
  unfold List.filterM
  rw [filterAuxM_eq_filterAux [] succeeds]
  simp

end Outcome

namespace Traced

variable {ε α β : Type}

/-- The outcome of a fold is the fold of the outcomes. -/
theorem outcome_foldlM (f : β → α → Traced ε β) (l : List α) (b : β) :
    (l.foldlM f b).outcome = l.foldlM (fun b a => (f b a).outcome) b := by
  induction l generalizing b with
  | nil => rfl
  | cons a l ih =>
    rw [List.foldlM_cons, List.foldlM_cons, outcome_bind]
    congr 1
    funext next
    exact ih next

/-- The outcome of a traversal is the traversal of the outcomes. -/
theorem outcome_mapM (f : α → Traced ε β) (l : List α) :
    (l.mapM f).outcome = l.mapM fun a => (f a).outcome := by
  induction l with
  | nil => rfl
  | cons a l ih =>
    rw [List.mapM_cons, List.mapM_cons, outcome_bind]
    congr 1
    funext first
    rw [outcome_bind, ih]
    rfl

/-- The outcome of a visit is the visit of the outcomes. -/
theorem outcome_forM (f : α → Traced ε Unit) (l : List α) :
    (l.forM f).outcome = l.forM fun a => (f a).outcome := by
  induction l with
  | nil => rfl
  | cons a l ih =>
    change (f a >>= fun _ => l.forM f).outcome = _
    rw [outcome_bind]
    congr 1
    funext _
    exact ih

/-- The outcome of a selection is the selection by the outcomes. -/
theorem outcome_filterM (f : α → Traced ε Bool) (l : List α) :
    (l.filterM f).outcome = l.filterM fun a => (f a).outcome := by
  have each : ∀ acc, (l.filterAuxM f acc).outcome =
      l.filterAuxM (fun a => (f a).outcome) acc := by
    induction l with
    | nil => exact fun acc => rfl
    | cons a l ih =>
      intro acc
      rw [List.filterAuxM, List.filterAuxM, outcome_bind]
      congr 1
      funext kept
      exact ih _
  unfold List.filterM
  rw [outcome_bind, each]
  rfl

end Traced

end FormatStyle
