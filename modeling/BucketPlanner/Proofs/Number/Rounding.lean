import BucketPlanner.Number.Binary64
import Mathlib.Tactic.Linarith
import Mathlib.Tactic.Ring

/-!
# Rounding to the binary64 format

What rounding a quotient of units does to its order and to the numbers of the format:

* `roundHalfEven_mono`, `roundUnits_mono`: rounding keeps the order of quotients with one divisor;
* `roundUnits_mul_of_dvd`: a number of the format is its own rounding;
* `two_pow_log2_le_roundUnits`, `roundUnits_le_two_pow`: rounding stays between powers of two;
* `lt_roundUnits`, `roundUnits_lt`: a quotient that is more than half a spacing away from a number
  of the format is rounded to the same side of it.
-/

namespace BucketPlanner

/-! ### Rounding to whole numbers -/

theorem roundHalfEven_mono {a b : Nat} (h : a ≤ b) (den : Nat) :
    roundHalfEven a den ≤ roundHalfEven b den := by
  have hq : a / den ≤ b / den := Nat.div_le_div_right h
  rcases Nat.lt_or_eq_of_le hq with hlt | heq
  · calc roundHalfEven a den ≤ a / den + 1 := roundHalfEven_le a den
      _ ≤ b / den := hlt
      _ ≤ roundHalfEven b den := le_roundHalfEven b den
  · have ha := Nat.div_add_mod a den
    have hb := Nat.div_add_mod b den
    rw [heq] at ha
    have hr : a % den ≤ b % den := by omega
    unfold roundHalfEven
    split <;> split <;> omega

@[simp] theorem roundHalfEven_zero (den : Nat) : roundHalfEven 0 den = 0 := by
  rcases Nat.eq_zero_or_pos den with rfl | hden
  · rfl
  · simp [roundHalfEven, hden]

/-- Less than a half above a whole number is rounded down to it. -/
theorem roundHalfEven_le_of_lt {num den c : Nat} (h : 2 * num < (2 * c + 1) * den) :
    roundHalfEven num den ≤ c := by
  have hden : 0 < den := Nat.pos_of_ne_zero fun h0 => by simp [h0] at h
  have hmod := Nat.div_add_mod num den
  have hq : num / den ≤ c := by
    refine Nat.le_of_lt_succ ((Nat.div_lt_iff_lt_mul hden).2 ?_)
    linarith
  rcases Nat.lt_or_eq_of_le hq with hlt | heq
  · exact Nat.le_trans (roundHalfEven_le num den) hlt
  · have hr : 2 * (num % den) < den := by rw [heq] at hmod; nlinarith
    simp [roundHalfEven, hr, heq]

/-- More than a half above a whole number is rounded up. -/
theorem lt_roundHalfEven_of_lt {num den c : Nat} (h : (2 * c + 1) * den < 2 * num)
    (hden : 0 < den) : c < roundHalfEven num den := by
  have hmod := Nat.div_add_mod num den
  have hlt := Nat.mod_lt num hden
  have hq : c ≤ num / den := by
    rw [Nat.le_div_iff_mul_le hden]
    nlinarith
  rcases Nat.lt_or_eq_of_le hq with hlt | heq
  · exact Nat.lt_of_lt_of_le hlt (le_roundHalfEven num den)
  · have hr : den < 2 * (num % den) := by rw [← heq] at hmod; nlinarith
    simp only [roundHalfEven, ← heq]
    split <;> omega

/-- A common factor does not change the rounding. -/
theorem roundHalfEven_mul_mul (num den : Nat) {c : Nat} (hc : 0 < c) :
    roundHalfEven (num * c) (den * c) = roundHalfEven num den := by
  have hlt : 2 * (num % den * c) < den * c ↔ 2 * (num % den) < den := by
    rw [← Nat.mul_assoc]
    exact Nat.mul_lt_mul_right hc
  have heq : 2 * (num % den * c) = den * c ↔ 2 * (num % den) = den := by
    rw [← Nat.mul_assoc]
    exact Nat.mul_right_cancel_iff hc
  simp only [roundHalfEven, Nat.mul_mod_mul_right, Nat.mul_div_mul_right _ _ hc, hlt, heq]

/-! ### Spacings -/

theorem unitsPerOne_pos : 0 < unitsPerOne := by decide +kernel

theorem spacing_pos (n : Nat) : 0 < spacing n := Nat.two_pow_pos _

theorem spacing_dvd_spacing {m n : Nat} (h : m ≤ n) : spacing m ∣ spacing n := by
  refine Nat.pow_dvd_pow 2 (Nat.sub_le_sub_right ?_ 52)
  rcases Nat.eq_zero_or_pos m with rfl | hm
  · simp
  · exact (Nat.le_log2 (by omega)).2 (Nat.le_trans (Nat.log2_self_le (by omega)) h)

theorem spacing_dvd_two_pow {n s : Nat} (h : n.log2 ≤ s) : spacing n ∣ 2 ^ s :=
  Nat.pow_dvd_pow 2 (by omega)

theorem spacing_eq_of_log2_eq {m n : Nat} (h : m.log2 = n.log2) : spacing m = spacing n := by
  rw [spacing, spacing, h]

/-! ### Rounding to the format -/

/-- A number of the format is its own rounding. -/
theorem roundUnits_mul_of_dvd {n den : Nat} (h : spacing n ∣ n) (hden : 0 < den) :
    roundUnits (n * den) den = n := by
  obtain ⟨k, hk⟩ := h
  have hq : n * den / den = n := Nat.mul_div_cancel n hden
  have hn : n * den = k * (den * spacing n) := by
    calc n * den = spacing n * k * den := by rw [← hk]
      _ = k * (den * spacing n) := by ring
  rw [roundUnits, hq, hn, roundHalfEven_mul k (Nat.mul_pos hden (spacing_pos n)), Nat.mul_comm]
  exact hk.symm

theorem roundUnits_mul_mul (num den : Nat) {c : Nat} (hc : 0 < c) :
    roundUnits (num * c) (den * c) = roundUnits num den := by
  rw [roundUnits, roundUnits, Nat.mul_div_mul_right _ _ hc, Nat.mul_right_comm,
    roundHalfEven_mul_mul _ _ hc]

@[simp] theorem roundUnits_zero (den : Nat) : roundUnits 0 den = 0 := by
  rw [roundUnits, roundHalfEven_zero, Nat.zero_mul]

/-- A quotient of at least one is not rounded below its power of two. -/
theorem two_pow_log2_le_roundUnits {num den : Nat} (h : num / den ≠ 0) :
    2 ^ (num / den).log2 ≤ roundUnits num den := by
  obtain ⟨k, hk⟩ := spacing_dvd_two_pow (Nat.le_refl (num / den).log2)
  have hle : k ≤ num / den / spacing (num / den) := by
    rw [Nat.le_div_iff_mul_le (spacing_pos _), Nat.mul_comm, ← hk]
    exact Nat.log2_self_le h
  calc 2 ^ (num / den).log2 = k * spacing (num / den) := by rw [hk, Nat.mul_comm]
    _ ≤ roundUnits num den := by
      refine Nat.mul_le_mul_right _ (Nat.le_trans hle ?_)
      rw [Nat.div_div_eq_div_mul]
      exact le_roundHalfEven _ _

/-- A quotient is not rounded above the next power of two. -/
theorem roundUnits_le_two_pow (num : Nat) {den : Nat} (hden : 0 < den) :
    roundUnits num den ≤ 2 ^ ((num / den).log2 + 1) := by
  obtain ⟨k, hk⟩ := spacing_dvd_two_pow (Nat.le_succ (num / den).log2)
  have hlt : num / den < 2 ^ ((num / den).log2 + 1) := Nat.lt_log2_self
  have hnum : num ≤ k * (den * spacing (num / den)) := by
    calc num ≤ 2 ^ ((num / den).log2 + 1) * den :=
          Nat.le_of_lt ((Nat.div_lt_iff_lt_mul hden).1 hlt)
      _ = k * (den * spacing (num / den)) := by
          rw [show (num / den).log2 + 1 = (num / den).log2.succ from rfl, hk]; ring
  have hround : roundHalfEven num (den * spacing (num / den)) ≤ k := by
    calc roundHalfEven num (den * spacing (num / den))
        ≤ roundHalfEven (k * (den * spacing (num / den))) (den * spacing (num / den)) :=
          roundHalfEven_mono hnum _
      _ = k := roundHalfEven_mul k (Nat.mul_pos hden (spacing_pos _))
  calc roundUnits num den ≤ k * spacing (num / den) := Nat.mul_le_mul_right _ hround
    _ = 2 ^ ((num / den).log2 + 1) := by rw [Nat.mul_comm, ← hk]

/-- **Rounding is monotone.** -/
theorem roundUnits_mono {a b den : Nat} (h : a ≤ b) (hden : 0 < den) :
    roundUnits a den ≤ roundUnits b den := by
  have hq : a / den ≤ b / den := Nat.div_le_div_right h
  rcases Nat.lt_or_ge (a / den).log2 (b / den).log2 with hlt | hge
  · have hb : b / den ≠ 0 := fun h0 => by simp [h0] at hlt
    calc roundUnits a den ≤ 2 ^ ((a / den).log2 + 1) := roundUnits_le_two_pow a hden
      _ ≤ 2 ^ (b / den).log2 := Nat.pow_le_pow_right (by decide) hlt
      _ ≤ roundUnits b den := two_pow_log2_le_roundUnits hb
  · have hlog : (a / den).log2 = (b / den).log2 := by
      refine Nat.le_antisymm ?_ hge
      rcases Nat.eq_zero_or_pos (a / den) with h0 | hpos
      · simp [h0]
      · exact (Nat.le_log2 (by omega)).2 (Nat.le_trans (Nat.log2_self_le (by omega)) hq)
    rw [roundUnits, roundUnits, spacing_eq_of_log2_eq hlog]
    exact Nat.mul_le_mul_right _ (roundHalfEven_mono h _)

/-- More than half a spacing above a number of the format is rounded to a greater one. -/
theorem lt_roundUnits {num den c : Nat} (hc : spacing c ∣ c) (hden : 0 < den)
    (h : (2 * c + spacing c) * den < 2 * num) : c < roundUnits num den := by
  have hq : c ≤ num / den := by
    rw [Nat.le_div_iff_mul_le hden]
    have := Nat.zero_le (spacing c * den)
    nlinarith
  rcases Nat.lt_or_ge c.log2 (num / den).log2 with hlt | hge
  · have hne : num / den ≠ 0 := fun h0 => by simp [h0] at hlt
    calc c < 2 ^ (c.log2 + 1) := Nat.lt_log2_self
      _ ≤ 2 ^ (num / den).log2 := Nat.pow_le_pow_right (by decide) hlt
      _ ≤ roundUnits num den := two_pow_log2_le_roundUnits hne
  · have hspacing : spacing (num / den) = spacing c := by
      have h1 := Nat.le_of_dvd (spacing_pos _) (spacing_dvd_spacing hq)
      have h2 : spacing (num / den) ≤ spacing c := Nat.pow_le_pow_right (by decide) (by omega)
      omega
    obtain ⟨k, hk⟩ := hc
    have hround : k < roundHalfEven num (den * spacing c) := by
      refine lt_roundHalfEven_of_lt ?_ (Nat.mul_pos hden (spacing_pos c))
      calc (2 * k + 1) * (den * spacing c) = (2 * (spacing c * k) + spacing c) * den := by ring
        _ < 2 * num := by rw [← hk]; exact h
    rw [roundUnits, hspacing]
    calc c = k * spacing c := by rw [Nat.mul_comm]; exact hk
      _ < roundHalfEven num (den * spacing c) * spacing c :=
        Nat.mul_lt_mul_of_pos_right hround (spacing_pos c)

/-- More than half a spacing below a number of the format is rounded to a smaller one. -/
theorem roundUnits_lt {num den c : Nat} (hc : spacing (c - 1) ∣ c) (hpos : 0 < c) (hden : 0 < den)
    (h : 2 * num + spacing (c - 1) * den < 2 * c * den) : roundUnits num den < c := by
  have hq : num / den ≤ c - 1 := by
    have : num / den < c := by
      rw [Nat.div_lt_iff_lt_mul hden]
      have := Nat.zero_le (spacing (c - 1) * den)
      nlinarith
    omega
  rcases Nat.lt_or_ge (num / den).log2 (c - 1).log2 with hlt | hge
  · have hne : c - 1 ≠ 0 := fun h0 => by simp [h0] at hlt
    calc roundUnits num den ≤ 2 ^ ((num / den).log2 + 1) := roundUnits_le_two_pow num hden
      _ ≤ 2 ^ (c - 1).log2 := Nat.pow_le_pow_right (by decide) hlt
      _ ≤ c - 1 := Nat.log2_self_le hne
      _ < c := by omega
  · have hspacing : spacing (num / den) = spacing (c - 1) := by
      have h1 := Nat.le_of_dvd (spacing_pos _) (spacing_dvd_spacing hq)
      have h2 : spacing (c - 1) ≤ spacing (num / den) :=
        Nat.pow_le_pow_right (by decide) (by omega)
      omega
    obtain ⟨k, hk⟩ := hc
    have hk0 : k ≠ 0 := fun h0 => by simp [h0] at hk; omega
    obtain ⟨j, rfl⟩ := Nat.exists_eq_succ_of_ne_zero hk0
    have hround : roundHalfEven num (den * spacing (c - 1)) ≤ j := by
      refine roundHalfEven_le_of_lt ?_
      have hexp : 2 * (spacing (c - 1) * (j + 1)) * den =
          (2 * j + 1) * (den * spacing (c - 1)) + spacing (c - 1) * den := by ring
      rw [← hk] at hexp
      omega
    rw [roundUnits, hspacing]
    calc roundHalfEven num (den * spacing (c - 1)) * spacing (c - 1)
        ≤ j * spacing (c - 1) := Nat.mul_le_mul_right _ hround
      _ < (j + 1) * spacing (c - 1) := Nat.mul_lt_mul_of_pos_right (by omega) (spacing_pos _)
      _ = c := by rw [Nat.mul_comm]; exact hk.symm

end BucketPlanner
