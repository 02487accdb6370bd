import FormatStyle.Proofs.Walks

/-! # Up and back

A record that is walked up and back down again comes back as what stands for it, and nothing is
lost on the way (`Migration.exists_walk_up_and_back`). In the two lowest versions nothing but the
value itself stands for a value, so there the record itself comes back
(`Migration.walk_up_and_back`).
-/

namespace FormatStyle

open StyleRecord Migration Step

theorem StyleRecord.Stands.refl (r : StyleRecord) : r.Stands r :=
  fun _ value holds => ⟨value, mem_standIns_self, holds⟩

/-- Where nothing else stands for a value, only the record itself stands for it. -/
theorem StyleRecord.Stands.values_eq {r d : StyleRecord} (stands : r.Stands d)
    (strict : ∀ name, r.version.loose name = false) (wellFormed : r.WellFormed)
    (wellFormed' : d.WellFormed) (version : d.version = r.version) : d.values = r.values := by
  have each := wellFormed_iff.mp wellFormed
  rw [(wellFormed_iff.mp wellFormed').values_eq, each.values_eq, StyleRecord.fields,
    StyleRecord.schema, version]
  refine List.map_congr_left fun field member => ?_
  have holds := each.get?_eq_current (r.version.field?_of_mem member)
  obtain ⟨value, stands, holds'⟩ := stands field.name _ holds
  rw [strict, standIns_strict, List.mem_singleton] at stands
  rw [current_of_get? holds', stands]

namespace Migration

variable {a b high : Version} {language : Language} {style : String} {u before : StyleRecord}

/-- **A walk up keeps the style and loses nothing, and the walk back down passes through what
stands for the record.** By induction on the way up: the step back undoes the step up. -/
theorem exists_walk_up_and_back (fallback : String) (le : a ≤ high)
    (supported : a.schema.supports language = true) (known : style ∈ a.schema.styleNames)
    (expanded : (expandedStyle a style language).outcome = .ok before)
    (wellFormed : u.WellFormed) (version : u.version = a)
    (silent : ∀ name, a.unsaid name = true → u.get? name = before.get? name)
    (losses : List Loss) :
    ∃ top after, (walk language fallback high a ⟨u, style, before, losses⟩).outcome =
        .ok ⟨top, style, after, losses⟩ ∧
      (expandedStyle high style language).outcome = .ok after ∧
      ∃ back, u.Stands back ∧ back.WellFormed ∧ back.version = a ∧ back.language = u.language ∧
        ∀ low ≤ a, ∀ losses',
          (walk language fallback low high ⟨top, style, after, losses'⟩).outcome =
            (walk language fallback low a ⟨back, style, before, losses'⟩).outcome := by
  induction a, le using Version.climb generalizing u before losses with
  | arrived =>
    exact ⟨u, before, outcome_walk_self, expanded, u, .refl u, wellFormed, version, rfl,
      fun _ _ _ => rfl⟩
  | step a b next step _ ih =>
    obtain ⟨supports, knows⟩ := Version.grows (Nat.le_of_lt (Version.lt_of_next next))
    obtain ⟨after, expanded', native, after_version, -, advances⟩ :=
      exists_advance_up fallback next supported known wellFormed version
    obtain ⟨between, advanced⟩ := advances before losses
    obtain ⟨before', expanded'', native'', before_version, -, -⟩ :=
      expandedStyle_isOk supported known
    obtain rfl : before = before' := Except.ok.inj (expanded.symm.trans expanded'')
    obtain ⟨top, last, walked, expanded_last, back, stands, back_wellFormed, back_version, tag,
      down⟩ := ih (supports _ supported) (knows _ known) expanded'
        (wellFormed_next native.wellFormed) (version_next.trans after_version)
        (fun name unsaid => get?_next_of_untargeted (s := ⟨u, before, after⟩) (by
          rw [between.moves]
          exact (Version.targets_of_next next).2 unsaid)) losses
    let down_step : Step := ⟨back, after, before⟩
    have between' : down_step.Between b a :=
      ⟨back_version, before_version, back_wellFormed, native''.wellFormed⟩
    obtain ⟨run, stands'⟩ := outcome_run_back next between between' stands (fun _ => rfl) silent
    refine ⟨top, last, ?_, expanded_last, down_step.next, stands',
      wellFormed_next native''.wellFormed, version_next.trans before_version,
      language_next.trans (tag.trans language_next), fun low below losses' => ?_⟩
    · rw [outcome_walk_step step, advanced, Outcome.ok_bind, walked]
    · have descended := outcome_advance fallback (a := b)
        (w := ⟨back, style, after, losses'⟩) known expanded run
      rw [List.append_nil] at descended
      rw [down low (Nat.le_trans below (Nat.le_of_lt (Version.lt_of_next next))) losses',
        outcome_walk_step (Version.stepTowards_of_next next below), descended, Outcome.ok_bind]

/-- **Up and back is the identity.** A record of one of the two lowest versions that is walked up
to a higher version and back, next to a style that its version knows, comes back with the values
and the language that it had, and neither way loses anything. -/
theorem walk_up_and_back {low high : Version} {fallback : String} {r : StyleRecord}
    (lowest : low = .v3_4 ∨ low = .v3_6) (higher : low < high)
    (supported : low.schema.supports language = true) (known : style ∈ low.schema.styleNames)
    (wellFormed : r.WellFormed) (version : r.version = low) :
    ∃ before top after back, (expandedStyle low style language).outcome = .ok before ∧
      (walk language fallback high low ⟨r, style, before, []⟩).outcome =
        .ok ⟨top, style, after, []⟩ ∧
      (expandedStyle high style language).outcome = .ok after ∧
      (walk language fallback low high ⟨top, style, after, []⟩).outcome =
        .ok ⟨back, style, before, []⟩ ∧
      back.version = r.version ∧ back.language = r.language ∧ back.values = r.values := by
  obtain ⟨before, expanded, -⟩ := expandedStyle_isOk supported known
  have strict : ∀ name, low.loose name = false ∧ low.unsaid name = false := by
    intro name
    rcases lowest with rfl | rfl <;> exact ⟨rfl, rfl⟩
  obtain ⟨top, after, up, expanded', back, stands, wellFormed', version', tag, down⟩ :=
    exists_walk_up_and_back fallback (Nat.le_of_lt higher) supported known expanded
      wellFormed version (fun name unsaid => by simp [(strict name).2] at unsaid) []
  refine ⟨before, top, after, back, expanded, up, expanded', ?_, version'.trans version.symm, tag,
    stands.values_eq (fun name => version ▸ (strict name).1) wellFormed wellFormed'
      (version'.trans version.symm)⟩
  rw [down low (Nat.le_refl _), outcome_walk_self]

/-- A record with pointers bound to their types, walked from the lowest version to the highest and
back. -/
theorem walk_up_and_back_pointerBinding :
    let r := (zeroed .v3_4 .cpp).put "PointerBindsToType" (.bool true)
    ∃ before top after back, (expandedStyle .v3_4 "google" .cpp).outcome = .ok before ∧
      (walk .cpp "llvm" .v16 .v3_4 ⟨r, "google", before, []⟩).outcome =
        .ok ⟨top, "google", after, []⟩ ∧
      (expandedStyle .v16 "google" .cpp).outcome = .ok after ∧
      (walk .cpp "llvm" .v3_4 .v16 ⟨top, "google", after, []⟩).outcome =
        .ok ⟨back, "google", before, []⟩ ∧
      back.version = r.version ∧ back.language = r.language ∧ back.values = r.values :=
  walk_up_and_back (.inl rfl) (by decide) (by decide) (by decide)
    (by unfold WellFormed; decide) rfl

end Migration

end FormatStyle
