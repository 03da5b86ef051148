import BucketPlanner.Text.Blank
import Mathlib

/-!
# Trimmed texts and letter case

Trimming and the change to upper case are independent of each other (`trim_upperCase`). So a text with
blanks around it stays apart from the trimmed one in upper case as well (`upperCase_trim_eq_iff`).
-/

namespace BucketPlanner

/-! ### Characters -/

theorem isLower_iff {c : Char} : c.isLower ↔ 97 ≤ c.toNat ∧ c.toNat ≤ 122 := by
  simp [Char.isLower, UInt32.le_iff_toNat_le, ← Char.toNat_val]

theorem toNat_toUpper_of_isLower {c : Char} (h : c.isLower) : c.toUpper.toNat = c.toNat - 32 := by
  have hrange := isLower_iff.1 h
  have hvalid : (c.toNat - 32).isValidChar := Or.inl (by omega)
  rw [Char.toUpper_eq_of_isLower h, Char.toNat_ofNat, if_pos hvalid]

/-- Letters are not blank, in neither case. -/
theorem isBlank_toUpper (c : Char) : isBlank c.toUpper = isBlank c := by
  by_cases h : c.isLower
  · have hletter : ∀ d : Char, 65 ≤ d.toNat → d.toNat ≤ 122 → isBlank d = false := by
      intro d hlow hhigh
      simp only [isBlank, Bool.or_eq_false_iff, Bool.and_eq_false_iff, decide_eq_false_iff_not,
        beq_eq_false_iff_ne]
      omega
    have hupper := toNat_toUpper_of_isLower h
    rw [isLower_iff] at h
    rw [hletter c (by omega) (by omega), hletter _ (by omega) (by omega)]
  · rw [Char.toUpper_eq_of_not_isLower h]

/-! ### Texts -/

variable {s : String}

theorem not_isLower_of_mem_upperCase {c : Char} (h : c ∈ (upperCase s).toList) : ¬ c.isLower := by
  rw [upperCase, String.toList_map] at h
  obtain ⟨d, -, rfl⟩ := List.mem_map.1 h
  simp

theorem upperCase_eq_self (h : ∀ c ∈ s.toList, ¬ c.isLower) : upperCase s = s := by
  rw [← String.toList_inj, upperCase, String.toList_map, List.map_congr_left (g := id), List.map_id]
  exact fun c hc => Char.toUpper_eq_of_not_isLower (h c hc)

theorem equalIgnoringCase_iff {t : String} : equalIgnoringCase s t ↔ upperCase s = upperCase t := by
  rw [equalIgnoringCase, beq_iff_eq, String.toList_inj]

theorem toList_trim (s : String) :
    (trim s).toList = (s.toList.dropWhile isBlank).rdropWhile isBlank := by
  rw [trim, String.toList_ofList, List.rdropWhile]

theorem trim_trim (s : String) : trim (trim s) = trim s := by
  rw [← String.toList_inj, toList_trim (trim s), toList_trim]
  -- What is left begins as the text does behind its leading blanks.
  have hfront : ((s.toList.dropWhile isBlank).rdropWhile isBlank).dropWhile isBlank =
      (s.toList.dropWhile isBlank).rdropWhile isBlank := by
    rw [List.dropWhile_eq_self_iff]
    intro hpos
    have hfirst := List.rdropWhile_prefix isBlank (s.toList.dropWhile isBlank)
    rw [hfirst.getElem hpos]
    exact List.dropWhile_get_zero_not isBlank s.toList (Nat.lt_of_lt_of_le hpos hfirst.length_le)
  rw [hfront, List.rdropWhile_idempotent]

/-- **Letter case and surrounding blanks** have nothing to do with each other. -/
theorem trim_upperCase (s : String) : trim (upperCase s) = upperCase (trim s) := by
  have hblank : isBlank ∘ Char.toUpper = isBlank := funext isBlank_toUpper
  rw [← String.toList_inj, toList_trim]
  simp only [upperCase, String.toList_map, toList_trim, List.rdropWhile, List.dropWhile_map,
    ← List.map_reverse, hblank]

theorem trim_eq_of_length (h : (trim s).length = s.length) : trim s = s := by
  have hsub : (trim s).toList.Sublist s.toList := by
    rw [toList_trim]
    exact (List.rdropWhile_prefix _ _).sublist.trans (List.dropWhile_suffix _).sublist
  rw [← String.toList_inj]
  exact hsub.eq_of_length (by rw [String.length_toList, String.length_toList, h])

/-- A text with blanks around it stays apart from the trimmed one in upper case. -/
theorem upperCase_trim_eq_iff : upperCase (trim s) = upperCase s ↔ trim s = s := by
  constructor
  · intro h
    refine trim_eq_of_length ?_
    rw [← String.length_map (f := Char.toUpper), ← upperCase, h, upperCase, String.length_map]
  · exact congrArg upperCase

end BucketPlanner
