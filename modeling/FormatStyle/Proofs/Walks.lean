import FormatStyle.Proofs.Widths

/-! # Walking through the versions

Later versions know the languages and the styles of earlier ones (`Version.grows`). So a walk
upwards keeps its style and loses nothing (`Migration.outcome_walk_up`).
-/

namespace FormatStyle

namespace Version

variable {a b c : Version}

/-- The next version knows the languages and the styles of a version. -/
private theorem grows_of_next (next : a.next? = some b) :
    (∀ language ∈ a.schema.languages, language ∈ b.schema.languages) ∧
      ∀ name ∈ a.schema.styleNames, name ∈ b.schema.styleNames := by
  have checked : ∀ a ∈ Version.all, ∀ b ∈ Version.all, a.next? = some b →
      (∀ language ∈ a.schema.languages, language ∈ b.schema.languages) ∧
        ∀ name ∈ a.schema.styleNames, name ∈ b.schema.styleNames := by
    decide
  exact checked a a.mem_all b b.mem_all next

theorem lt_of_next (next : a.next? = some b) : a < b := by
  revert next
  cases a <;> cases b <;> decide

/-- A version below another one has a next version, which is towards the other one. -/
private theorem exists_next_of_lt (lt : a < c) :
    ∃ b, a.next? = some b ∧ a.stepTowards c = some b ∧ b ≤ c := by
  revert lt
  cases a <;> cases c <;> decide

/-- From a next version the way down to a lower one goes back. -/
theorem stepTowards_of_next (next : a.next? = some b) (le : c ≤ a) : b.stepTowards c = some a := by
  revert next le
  cases a <;> cases b <;> cases c <;> decide

/-- **Induction on the way up** to a version: what holds there and comes down from the next version
holds of every lower one. -/
@[elab_as_elim]
theorem climb {high : Version} {motive : (a : Version) → a ≤ high → Prop}
    (arrived : motive high (Nat.le_refl _))
    (step : ∀ a b, (next : a.next? = some b) → a.stepTowards high = some b → (le : b ≤ high) →
      motive b le → motive a (Nat.le_trans (Nat.le_of_lt (lt_of_next next)) le))
    (a : Version) (le : a ≤ high) : motive a le := by
  have ranks : a.rank ≤ high.rank := le
  induction steps : a.distance high generalizing a with
  | zero =>
    unfold distance at steps
    obtain rfl : a = high := rank_injective (by omega)
    exact arrived
  | succ n ih =>
    have lt : a.rank < high.rank := by
      unfold distance at steps
      omega
    obtain ⟨b, next, towards, le'⟩ := exists_next_of_lt lt
    exact step a b next towards le'
      (ih b le' le' (by have := distance_stepTowards towards; omega))

/-- **Later versions know the languages and the styles of earlier ones.** -/
theorem grows (le : a ≤ b) :
    (∀ language, a.schema.supports language = true → b.schema.supports language = true) ∧
      ∀ name ∈ a.schema.styleNames, name ∈ b.schema.styleNames := by
  induction a, le using climb with
  | arrived => exact ⟨fun _ => id, fun _ => id⟩
  | step a c next _ _ ih =>
    obtain ⟨languages, names⟩ := grows_of_next next
    refine ⟨fun language supported => ih.1 language ?_, fun name member =>
      ih.2 name (names name member)⟩
    exact List.contains_iff_mem.mpr (languages _ (List.contains_iff_mem.mp supported))

/-- The name of a style finds a style. -/
theorem style?_of_mem {name : String} (known : name ∈ a.schema.styleNames) :
    ∃ style, a.schema.style? name = some style := by
  rw [← Option.isSome_iff_exists, Schema.style?, List.find?_isSome]
  obtain ⟨style, listed, rfl⟩ := List.mem_map.mp known
  exact ⟨style, listed, Text.equalsIgnoringCase_refl _⟩

end Version

namespace Migration

variable {v : Version} {name : String} {language : Language}

/-- **A style that a version knows can be expanded** for every language that it supports. -/
theorem expandedStyle_isOk (supported : v.schema.supports language = true)
    (known : name ∈ v.schema.styleNames) :
    ∃ r, (expandedStyle v name language).outcome = .ok r ∧ r.Native ∧ r.version = v ∧
      r.language = language ∧ r.inheritsParent = false := by
  obtain ⟨style, found⟩ := Version.style?_of_mem known
  obtain ⟨r, resolved⟩ := Style.resolve_isOk supported found
  obtain ⟨native, version, tag, plain, -⟩ := Style.native_of_resolve resolved
  obtain ⟨expanded, expand, native', same, -⟩ := StyleRecord.expand_isOk native
  refine ⟨expanded, ?_, native', same.1.trans version, same.2.1.trans tag, same.2.2.trans plain⟩
  unfold expandedStyle
  rw [Traced.outcome_bind, resolved, Outcome.ok_bind, Traced.outcome_monadLift, expand]

/-- A style that the next version knows is kept. -/
theorem outcome_nextStyle {fallback : String} (known : name ∈ v.schema.styleNames) :
    (nextStyle name fallback v).outcome = .ok name := by
  simp [nextStyle, known]

/-- One version on, as the step says. -/
theorem outcome_advance (fallback : String) {a b : Version} {w : Walk} {after : StyleRecord}
    {losses : List Loss} (known : w.style ∈ b.schema.styleNames)
    (style : (expandedStyle b w.style language).outcome = .ok after)
    (run : (Step.mk w.record w.before after).run.outcome =
      .ok ⟨(Step.mk w.record w.before after).next, losses⟩) :
    (advance language fallback a b w).outcome =
      .ok ⟨(Step.mk w.record w.before after).next, w.style, after, w.losses ++ losses⟩ := by
  unfold advance
  simp only [Traced.outcome_bind, outcome_nextStyle known, Outcome.ok_bind, Traced.outcome_log,
    style, run, Traced.outcome_pure]

/-- A walk that has arrived stays. -/
theorem outcome_walk_self {fallback : String} {w : Walk} :
    (walk language fallback v v w).outcome = .ok w := by
  unfold walk
  split
  · rfl
  · rename_i next step
    have arrived := (Version.stepTowards_eq_none_iff v v).mpr rfl
    rw [arrived] at step
    cases step

/-- A walk goes on from the next version. -/
theorem outcome_walk_step {fallback : String} {target next : Version} {w : Walk}
    (step : v.stepTowards target = some next) :
    (walk language fallback target v w).outcome =
      (advance language fallback v next w).outcome >>= fun w =>
        (walk language fallback target next w).outcome := by
  rw [walk]
  split
  · rename_i none
    rw [step] at none
    cases none
  · rename_i next' step'
    rw [step, Option.some.injEq] at step'
    subst step'
    rw [Traced.outcome_bind]

/-- **One version up** keeps the style and loses nothing. -/
theorem exists_advance_up (fallback : String) {a b : Version} {style : String} {u : StyleRecord}
    (next : a.next? = some b) (supported : a.schema.supports language = true)
    (known : style ∈ a.schema.styleNames) (wellFormed : u.WellFormed) (version : u.version = a) :
    ∃ after, (expandedStyle b style language).outcome = .ok after ∧ after.Native ∧
      after.version = b ∧ after.inheritsParent = false ∧
      ∀ before losses, (Step.mk u before after).Between a b ∧
        (advance language fallback a b ⟨u, style, before, losses⟩).outcome =
          .ok ⟨(Step.mk u before after).next, style, after, losses⟩ := by
  obtain ⟨supports, knows⟩ := Version.grows (Nat.le_of_lt (Version.lt_of_next next))
  obtain ⟨after, expanded, native, after_version, -, plain⟩ :=
    expandedStyle_isOk (supports _ supported) (knows _ known)
  refine ⟨after, expanded, native, after_version, plain, fun before losses => ?_⟩
  have between : (Step.mk u before after).Between a b :=
    ⟨version, after_version, wellFormed, native.wellFormed⟩
  refine ⟨between, ?_⟩
  have advanced := outcome_advance fallback (a := a)
    (w := ⟨u, style, before, losses⟩) (knows _ known) expanded (Step.outcome_run_up next between)
  rwa [List.append_nil] at advanced

/-- **A walk up keeps the style, loses nothing**, and leads from a native record to a native
one. -/
theorem exists_walk_up (fallback : String) {a high : Version} {style : String} {u : StyleRecord}
    (before : StyleRecord) (losses : List Loss) (le : a ≤ high)
    (supported : a.schema.supports language = true) (known : style ∈ a.schema.styleNames)
    (native : u.Native) (version : u.version = a) :
    ∃ top after, (walk language fallback high a ⟨u, style, before, losses⟩).outcome =
        .ok ⟨top, style, after, losses⟩ ∧
      top.Native ∧ top.version = high ∧ top.language = u.language := by
  induction a, le using Version.climb generalizing u before with
  | arrived => exact ⟨u, before, outcome_walk_self, native, version, rfl⟩
  | step a b next towards _ ih =>
    obtain ⟨supports, knows⟩ := Version.grows (Nat.le_of_lt (Version.lt_of_next next))
    obtain ⟨after, -, after_native, after_version, plain, advances⟩ :=
      exists_advance_up fallback next supported known native.wellFormed version
    obtain ⟨between, advanced⟩ := advances before losses
    obtain ⟨native', -⟩ := Step.native_next (s := ⟨u, before, after⟩)
      (.inl (by rw [version, after_version]; exact next)) native after_native plain
    obtain ⟨top, last, walked, top_native, top_version, tag⟩ := ih after
      (supports _ supported) (knows _ known) native' (Step.version_next.trans after_version)
    refine ⟨top, last, ?_, top_native, top_version, tag.trans Step.language_next⟩
    rw [outcome_walk_step towards, advanced, Outcome.ok_bind, walked]

end Migration

end FormatStyle
