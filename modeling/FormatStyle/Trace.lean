/-! # Computations that keep a log

A traced computation has an outcome and the log events recorded on the way to it. A failure does
not lose the events recorded before it. Main statements: `Traced` is a lawful monad, and taking
the outcome commutes with `pure` and `bind`, so that statements about outcomes are statements
about `Except`.
-/

namespace FormatStyle

/-- **Severity** of a log event, from the least to the most urgent. -/
inductive Severity where
  | debug
  | info
  | warn
  deriving DecidableEq, Repr

/-- The word that introduces an event of this severity. -/
def Severity.word : Severity → String
  | .debug => "DEBUG"
  | .info => "INFO"
  | .warn => "WARN"

/-- **A log event**: one line of text with its severity. -/
structure LogEvent where
  severity : Severity
  text : String
  deriving DecidableEq, Repr

/-- **A traced computation**: what came out, and the events recorded in order. -/
structure Traced (ε α : Type) where
  events : List LogEvent
  outcome : Except ε α

namespace Traced

variable {ε α β : Type}

/-- A value, without any event. -/
protected def pure (a : α) : Traced ε α := ⟨[], .ok a⟩

/-- Run the second computation on the value of the first; events accumulate. -/
protected def bind (x : Traced ε α) (f : α → Traced ε β) : Traced ε β :=
  match x.outcome with
  | .ok a => ⟨x.events ++ (f a).events, (f a).outcome⟩
  | .error e => ⟨x.events, .error e⟩

instance : Monad (Traced ε) where
  pure := Traced.pure
  bind := Traced.bind

/-- Stop with an error. -/
def fail (e : ε) : Traced ε α := ⟨[], .error e⟩

/-- Record one event. -/
def log (severity : Severity) (text : String) : Traced ε Unit :=
  ⟨[⟨severity, text⟩], .ok ()⟩

/-- An outcome that recorded nothing. -/
def ofExcept (outcome : Except ε α) : Traced ε α := ⟨[], outcome⟩

/-- Translate the error, keeping the events. -/
def mapError {δ : Type} (f : ε → δ) (x : Traced ε α) : Traced δ α :=
  ⟨x.events, x.outcome.mapError f⟩

/-- Go on after a failure, with the outcome as the value. -/
def attempt {δ : Type} (x : Traced ε α) : Traced δ (Except ε α) := ⟨x.events, .ok x.outcome⟩

instance : MonadLift (Except ε) (Traced ε) where
  monadLift := ofExcept

@[simp] theorem outcome_pure (a : α) : (pure a : Traced ε α).outcome = .ok a := rfl

@[simp] theorem events_pure (a : α) : (pure a : Traced ε α).events = [] := rfl

@[simp] theorem outcome_fail (e : ε) : (fail e : Traced ε α).outcome = .error e := rfl

@[simp] theorem outcome_log (severity : Severity) (text : String) :
    (log severity text : Traced ε Unit).outcome = .ok () := rfl

@[simp] theorem outcome_ofExcept (outcome : Except ε α) :
    (ofExcept outcome).outcome = outcome := rfl

@[simp] theorem outcome_attempt {δ : Type} (x : Traced ε α) :
    (x.attempt : Traced δ (Except ε α)).outcome = .ok x.outcome := rfl

@[simp] theorem outcome_monadLift (outcome : Except ε α) :
    (monadLift outcome : Traced ε α).outcome = outcome := rfl

@[simp] theorem outcome_mapError {δ : Type} (f : ε → δ) (x : Traced ε α) :
    (x.mapError f).outcome = x.outcome.mapError f := rfl

/-- The outcome of a sequence is the sequence of the outcomes. -/
@[simp] theorem outcome_bind (x : Traced ε α) (f : α → Traced ε β) :
    (x >>= f).outcome = x.outcome >>= fun a => (f a).outcome := by
  change (Traced.bind x f).outcome = _
  unfold Traced.bind
  cases x.outcome <;> rfl

@[simp] theorem outcome_map (f : α → β) (x : Traced ε α) :
    (f <$> x).outcome = f <$> x.outcome := by
  change (Traced.bind x fun a => Traced.pure (f a)).outcome = _
  unfold Traced.bind
  cases x.outcome <;> rfl

/-- Two traced computations with the same events and the same outcome are equal. -/
@[ext] theorem ext {x y : Traced ε α} (events : x.events = y.events)
    (outcome : x.outcome = y.outcome) : x = y := by
  cases x
  cases y
  cases events
  cases outcome
  rfl

protected theorem map_id (x : Traced ε α) : Traced.bind x (fun a => Traced.pure a) = x := by
  apply ext
  · unfold Traced.bind; cases x.outcome <;> simp [Traced.pure]
  · unfold Traced.bind; cases x.outcome <;> rfl

protected theorem bind_bind {γ : Type} (x : Traced ε α) (f : α → Traced ε β)
    (g : β → Traced ε γ) :
    Traced.bind (Traced.bind x f) g = Traced.bind x fun a => Traced.bind (f a) g := by
  apply ext
  · unfold Traced.bind
    cases x.outcome with
    | error e => rfl
    | ok a => dsimp only; cases (f a).outcome <;> simp
  · unfold Traced.bind
    cases x.outcome with
    | error e => rfl
    | ok a => dsimp only; cases (f a).outcome <;> rfl

instance : LawfulMonad (Traced ε) :=
  LawfulMonad.mk' (Traced ε) Traced.map_id (fun _ _ => rfl) Traced.bind_bind

end Traced

end FormatStyle
