import FormatStyle.Text.LowerCase
import Mathlib.Data.List.Basic

/-! # Texts in lower case

A lower case has no capital of the letters `A` to `Z` (`Text.map_toLower_lower`), and it is the name
that it finds when the case of these letters is ignored (`Text.lower_of_equalsIgnoringCase`).
-/

namespace FormatStyle

namespace Text

private theorem ascii_of_toLower {c : Char} (ascii : c.toLower.toNat < 0x80) : c.toNat < 0x80 := by
  unfold Char.toLower at ascii
  split at ascii
  · rename_i capital
    have : c.val.toNat ≤ 'Z'.val.toNat := capital.2
    exact Nat.lt_of_le_of_lt this (by decide)
  · exact ascii

private theorem lowerAfter_of_ascii {before cs : List Char} (ascii : ∀ c ∈ cs, c.toNat < 0x80) :
    lowerAfter before cs = cs.map Char.toLower := by
  induction cs generalizing before with
  | nil => rfl
  | cons c cs ih =>
    rw [List.forall_mem_cons] at ascii
    have small : c.toNat ≠ 0x3A3 := by omega
    simp [lowerAfter, lowerChar, small, ascii.1, ih ascii.2]

theorem map_toLower_of_plain {cs : List Char} (plain : ∀ c ∈ cs, c.toLower = c) :
    cs.map Char.toLower = cs := by
  conv_rhs => rw [← List.map_id cs]
  exact List.map_congr_left plain

/-- **A name that is another one in lower case** has it for its lower case. -/
theorem lower_of_equalsIgnoringCase {s t : String}
    (plain : s.toList.all (fun c => decide (c.toNat < 0x80) && c.toLower == c) = true)
    (same : equalsIgnoringCase s t = true) : lower t = s := by
  simp only [List.all_eq_true, Bool.and_eq_true, decide_eq_true_eq, beq_iff_eq] at plain
  have own := map_toLower_of_plain fun c member => (plain c member).2
  have lowered : s.toList = t.toList.map Char.toLower := own ▸ beq_iff_eq.mp same
  have ascii : ∀ c ∈ t.toList, c.toNat < 0x80 := fun c member =>
    ascii_of_toLower (plain c.toLower (lowered ▸ List.mem_map_of_mem member)).1
  rw [lower, lowerAfter_of_ascii ascii, ← lowered, String.ofList_toList]

/-- Every run of capitals leads past the capitals `A` to `Z`. -/
private theorem caseRuns_past : caseRuns.all (fun run => decide (0x5A < run.target)) = true := by
  decide +kernel

/-- Past the capitals nothing changes. -/
theorem toLower_of_past {c : Char} (past : 0x5A < c.toNat) : c.toLower = c := by
  unfold Char.toLower
  split
  · rename_i capital
    have : c.val.toNat ≤ 'Z'.val.toNat := capital.2
    exact absurd this (Nat.not_le.mpr past)
  · rfl

private theorem toLower_ofNat {n : Nat} (past : 0x5A < n) : (Char.ofNat n).toLower = Char.ofNat n := by
  by_cases valid : n.isValidChar
  · refine toLower_of_past ?_
    have same : (Char.ofNat n).toNat = n := by
      rw [Char.ofNat, dif_pos valid]
      rfl
    omega
  · rw [Char.ofNat, dif_neg valid]
    decide

private theorem toLower_toLower (c : Char) : c.toLower.toLower = c.toLower := by
  by_cases capital : c.val ≥ 'A'.val ∧ c.val ≤ 'Z'.val
  · refine toLower_of_past ?_
    have least : 'A'.val.toNat ≤ c.val.toNat := capital.1
    have most : c.val.toNat ≤ 'Z'.val.toNat := capital.2
    have shifted : c.toLower.toNat = c.val.toNat + 32 := by
      unfold Char.toLower
      rw [dif_pos capital]
      change (c.val + ('a'.val - 'A'.val)).toNat = _
      rw [UInt32.toNat_add]
      exact Nat.mod_eq_of_lt (Nat.lt_of_le_of_lt (Nat.add_le_add_right most _) (by decide))
    rw [shifted]
    exact Nat.lt_of_lt_of_le (by decide) (Nat.add_le_add_right least 32)
  · have same : c.toLower = c := dif_neg capital
    rw [same, same]

/-- No character of a lower case is a capital. -/
private theorem toLower_lowerChar (c : Char) : ∀ d ∈ lowerChar c, d.toLower = d := by
  unfold lowerChar
  split
  · exact List.forall_mem_singleton.mpr (toLower_toLower c)
  · rename_i high
    split
    · exact List.forall_mem_cons.mpr ⟨by decide, List.forall_mem_singleton.mpr (by decide)⟩
    · split
      · rename_i n found
        obtain ⟨run, listed, image⟩ := List.exists_of_findSome?_eq_some found
        have past := of_decide_eq_true (List.all_eq_true.mp caseRuns_past run listed)
        rw [List.forall_mem_singleton]
        unfold CaseRun.image? at image
        split at image
        · cases image
          exact toLower_ofNat (by omega)
        · cases image
      · rw [List.forall_mem_singleton]
        exact toLower_of_past (by omega)

private theorem toLower_lowerAfter {before cs : List Char} :
    ∀ d ∈ lowerAfter before cs, d.toLower = d := by
  induction cs generalizing before with
  | nil => simp [lowerAfter]
  | cons c cs ih =>
    unfold lowerAfter
    dsimp only
    rw [List.forall_mem_append]
    refine ⟨?_, ih⟩
    split
    · split <;> exact List.forall_mem_singleton.mpr (by decide)
    · exact toLower_lowerChar c

/-- **A lower case has no capital** of the letters `A` to `Z`. -/
theorem map_toLower_lower (s : String) :
    (lower s).toList.map Char.toLower = (lower s).toList := by
  rw [lower, String.toList_ofList]
  exact map_toLower_of_plain toLower_lowerAfter

/-- **A lower case that finds a plain name is that name.** -/
theorem lower_eq_of_equalsIgnoringCase {s t : String}
    (plain : s.toList.all (fun c => decide (c.toNat < 0x80) && c.toLower == c) = true)
    (same : equalsIgnoringCase s (lower t) = true) : lower t = s := by
  simp only [List.all_eq_true, Bool.and_eq_true, decide_eq_true_eq, beq_iff_eq] at plain
  have own := map_toLower_of_plain fun c member => (plain c member).2
  have lists : s.toList = (lower t).toList := by
    rw [← own, ← map_toLower_lower]
    exact beq_iff_eq.mp same
  exact String.toList_inj.mp lists.symm

end Text

end FormatStyle
