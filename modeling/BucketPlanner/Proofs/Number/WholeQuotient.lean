import BucketPlanner.Proofs.Number.Order

/-!
# Quotients of whole numbers

The quotient of a whole number of at most 53 bits by a whole divisor may be rounded, but never
across a whole number, so its floor is that of the exact quotient (`roundedPlace_whole_ediv`). The
reason is that the exact quotient is at least one divisor's share away from the next whole number,
which is more than half the spacing there.
-/

namespace BucketPlanner

/-- A spacing is at most one part in 2⁵². -/
theorem spacing_mul_le {n : Nat} (h : 52 ≤ n.log2) : spacing n * 2 ^ 52 ≤ n := by
  have hn : n ≠ 0 := fun h0 => by simp [h0] at h
  calc spacing n * 2 ^ 52 = 2 ^ n.log2 := by rw [spacing, ← Nat.pow_add, Nat.sub_add_cancel h]
    _ ≤ n := Nat.log2_self_le hn

theorem log2_mul_unitsPerOne {k : Nat} (hk : 0 < k) :
    (k * unitsPerOne).log2 = k.log2 + 1074 := by
  have hlow : 2 ^ (k.log2 + 1074) ≤ k * unitsPerOne := by
    rw [← two_pow_mul_unitsPerOne]
    exact Nat.mul_le_mul_right _ (Nat.log2_self_le (by omega))
  have hhigh : k * unitsPerOne < 2 ^ (k.log2 + 1074 + 1) := by
    rw [show k.log2 + 1074 + 1 = k.log2 + 1 + 1074 by omega, ← two_pow_mul_unitsPerOne]
    exact Nat.mul_lt_mul_of_pos_right Nat.lt_log2_self unitsPerOne_pos
  have hne : k * unitsPerOne ≠ 0 := by have := Nat.mul_pos hk unitsPerOne_pos; omega
  exact (Nat.log2_eq_iff hne).2 ⟨hlow, hhigh⟩

/-- In front of a whole number that is at most `2 ^ f` the spacing is that of the numbers below
`2 ^ f`. -/
theorem spacing_pred_mul_le {c f : Nat} (hc : 0 < c) (hf : c ≤ 2 ^ f) :
    spacing (c * unitsPerOne - 1) * 2 ^ 53 ≤ 2 ^ f * unitsPerOne := by
  have hne : c * unitsPerOne - 1 ≠ 0 := by
    have h1 : 1 * unitsPerOne ≤ c * unitsPerOne := Nat.mul_le_mul_right _ hc
    have h2 : 2 ≤ unitsPerOne := by decide +kernel
    omega
  have hlog : (c * unitsPerOne - 1).log2 < f + 1074 := by
    refine (Nat.log2_lt hne).2 ?_
    have hle : c * unitsPerOne ≤ 2 ^ f * unitsPerOne := Nat.mul_le_mul_right _ hf
    rw [two_pow_mul_unitsPerOne] at hle
    omega
  calc spacing (c * unitsPerOne - 1) * 2 ^ 53 ≤ 2 ^ (f + 1021) * 2 ^ 53 :=
        Nat.mul_le_mul_right _ (Nat.pow_le_pow_right (by decide) (by omega))
    _ = 2 ^ f * unitsPerOne := by rw [two_pow_mul_unitsPerOne, ← Nat.pow_add]

theorem spacing_pred_dvd {c f : Nat} (hc : 0 < c) (hf : c ≤ 2 ^ f) (hf53 : f ≤ 53) :
    spacing (c * unitsPerOne - 1) ∣ unitsPerOne := by
  have hle := spacing_pred_mul_le hc hf
  have hpow : 2 ^ f * unitsPerOne ≤ 2 ^ 53 * unitsPerOne :=
    Nat.mul_le_mul_right _ (Nat.pow_le_pow_right (by decide) hf53)
  have hspacing : spacing (c * unitsPerOne - 1) ≤ unitsPerOne := by omega
  obtain ⟨s, -, hs⟩ := unitsPerOne_eq_two_pow
  rw [hs] at hspacing ⊢
  exact Nat.pow_dvd_pow 2 ((Nat.pow_le_pow_iff_right (by decide)).1 hspacing)

/-- One half is a number of the format. -/
theorem exists_half : ∃ h, unitsPerOne = 2 * h ∧ spacing h ∣ h := by
  obtain ⟨s, hs, hU⟩ := unitsPerOne_eq_two_pow
  refine ⟨2 ^ (s - 1), ?_, spacing_dvd_two_pow (Nat.le_of_eq Nat.log2_two_pow)⟩
  rw [hU, ← Nat.pow_succ', Nat.succ_eq_add_one, Nat.sub_add_cancel (by omega)]

section

variable {a b k : Nat}

/-- A whole quotient of whole numbers is exact. -/
theorem roundUnits_whole_eq (hk : k ≤ 2 ^ 53) (hb : 0 < b) :
    roundUnits (k * b * unitsPerOne) b = k * unitsPerOne := by
  rw [Nat.mul_right_comm]
  exact roundUnits_mul_of_dvd (representable_mul_unitsPerOne hk).2 hb

/-- A quotient above a whole number is not rounded down to it. -/
theorem lt_roundUnits_whole (ha : a ≤ 2 ^ 53) (hb : 0 < b) (hb64 : b ≤ 2 ^ 64) (h : k * b < a) :
    k * unitsPerOne < roundUnits (a * unitsPerOne) b := by
  have hU := unitsPerOne_pos
  rcases Nat.eq_zero_or_pos k with rfl | hk
  · have hq : a * unitsPerOne / b ≠ 0 := by
      have h64 : 2 ^ 64 ≤ unitsPerOne := by decide +kernel
      have hle : 1 * unitsPerOne ≤ a * unitsPerOne := Nat.mul_le_mul_right _ (by omega)
      have := (Nat.le_div_iff_mul_le hb).2 (show 1 * b ≤ a * unitsPerOne by omega)
      omega
    have hpow := Nat.two_pow_pos (a * unitsPerOne / b).log2
    have := two_pow_log2_le_roundUnits hq
    omega
  · have hkb : k * 1 ≤ k * b := Nat.mul_le_mul_left k hb
    refine lt_roundUnits (representable_mul_unitsPerOne (by omega)).2 hb ?_
    have hspacing := spacing_mul_le (n := k * unitsPerOne)
      (by rw [log2_mul_unitsPerOne hk]; omega)
    have hshare : spacing (k * unitsPerOne) * b < 2 * unitsPerOne := by
      have h1 := Nat.mul_le_mul_right b hspacing
      have h2 : k * b * unitsPerOne < 2 ^ 53 * unitsPerOne :=
        Nat.mul_lt_mul_of_pos_right (by omega) hU
      nlinarith
    have hstep : (k * b + 1) * unitsPerOne ≤ a * unitsPerOne := Nat.mul_le_mul_right _ h
    nlinarith

/-- A quotient below a whole number is not rounded up to it. -/
theorem roundUnits_whole_lt (ha : a ≤ 2 ^ 53) (hb : 0 < b) (h : a < k * b) :
    roundUnits (a * unitsPerOne) b < k * unitsPerOne := by
  have hU := unitsPerOne_pos
  -- It is enough to stay below the first whole number above the quotient.
  suffices hc : roundUnits (a * unitsPerOne) b < (a / b + 1) * unitsPerOne by
    refine Nat.lt_of_lt_of_le hc (Nat.mul_le_mul_right _ ?_)
    exact (Nat.div_lt_iff_lt_mul hb).2 h
  have hlow : a / b * b ≤ a := Nat.div_mul_le_self a b
  have hhigh : a < (a / b + 1) * b := (Nat.div_lt_iff_lt_mul hb).1 (Nat.lt_succ_self _)
  have hq : a / b ≤ 2 ^ 53 := Nat.le_trans (Nat.div_le_self a b) ha
  generalize a / b = c at *
  rcases Nat.lt_or_eq_of_le hlow with hlt | heq
  · have hstep : (a + 1) * unitsPerOne ≤ (c + 1) * b * unitsPerOne := Nat.mul_le_mul_right _ hhigh
    -- More than half a spacing is left when the divisor's share exceeds half a spacing.
    have hround : ∀ f, f ≤ 53 → c + 1 ≤ 2 ^ f → 2 ^ f * b < 2 ^ 54 →
        roundUnits (a * unitsPerOne) b < (c + 1) * unitsPerOne := by
      intro f hf hcf hfb
      refine roundUnits_lt (Nat.dvd_mul_left_of_dvd (spacing_pred_dvd (by omega) hcf hf) _)
        (Nat.mul_pos (by omega) hU) hb ?_
      have h1 := Nat.mul_le_mul_right b (spacing_pred_mul_le (by omega) hcf)
      have h2 : 2 ^ f * b * unitsPerOne < 2 ^ 54 * unitsPerOne :=
        Nat.mul_lt_mul_of_pos_right hfb hU
      have hshare : spacing ((c + 1) * unitsPerOne - 1) * b < 2 * unitsPerOne := by nlinarith
      nlinarith
    rcases Nat.eq_zero_or_pos c with rfl | hc
    · rcases Nat.lt_or_ge b (2 * a) with hsmall | hlarge
      · exact hround 0 (by omega) (by omega) (by omega)
      · -- The quotient is at most one half, and so is what it is rounded to.
        obtain ⟨h, hUh, hh⟩ := exists_half
        have hle : roundUnits (a * unitsPerOne) b ≤ h := by
          calc roundUnits (a * unitsPerOne) b ≤ roundUnits (h * b) b :=
                roundUnits_mono (by rw [hUh]; nlinarith) hb
            _ = h := roundUnits_mul_of_dvd hh hb
        omega
    · have hc53 : c * 1 ≤ c * b := Nat.mul_le_mul_left c hb
      have hlog : c.log2 < 53 := (Nat.log2_lt (by omega)).2 (by omega)
      refine hround (c.log2 + 1) hlog Nat.lt_log2_self ?_
      have := Nat.mul_le_mul_right b (Nat.log2_self_le (show c ≠ 0 by omega))
      rw [Nat.pow_succ, Nat.mul_right_comm]
      omega
  · rw [← heq, roundUnits_whole_eq hq hb]
    exact Nat.mul_lt_mul_of_pos_right (Nat.lt_succ_self c) hU

/-- Rounding keeps a quotient on its side of every whole number. -/
theorem whole_le_roundUnits_iff (ha : a ≤ 2 ^ 53) (hb : 0 < b) (hb64 : b ≤ 2 ^ 64) :
    k * unitsPerOne ≤ roundUnits (a * unitsPerOne) b ↔ k * b ≤ a := by
  constructor
  · intro h
    by_contra hn
    have := roundUnits_whole_lt ha hb (show a < k * b by omega)
    omega
  · intro h
    rcases Nat.lt_or_eq_of_le h with hlt | rfl
    · exact Nat.le_of_lt (lt_roundUnits_whole ha hb hb64 hlt)
    · have hk : k * 1 ≤ k * b := Nat.mul_le_mul_left k hb
      rw [roundUnits_whole_eq (by omega) hb]

theorem roundUnits_le_whole_iff (ha : a ≤ 2 ^ 53) (hb : 0 < b) (hb64 : b ≤ 2 ^ 64) :
    roundUnits (a * unitsPerOne) b ≤ k * unitsPerOne ↔ a ≤ k * b := by
  constructor
  · intro h
    by_contra hn
    have := lt_roundUnits_whole ha hb hb64 (show k * b < a by omega)
    omega
  · intro h
    rcases Nat.lt_or_eq_of_le h with hlt | rfl
    · exact Nat.le_of_lt (roundUnits_whole_lt ha hb hlt)
    · have hk : k * 1 ≤ k * b := Nat.mul_le_mul_left k hb
      rw [roundUnits_whole_eq (by omega) hb]

end

/-- Rounding keeps the quotient of a whole number on its side of every whole number. -/
theorem whole_le_roundedPlace_iff {i k : Int} {b : Nat} (hi : i.natAbs ≤ 2 ^ 53) (hb : 0 < b)
    (hb64 : b ≤ 2 ^ 64) : k * unitsPerOne ≤ roundedPlace (i * unitsPerOne) b ↔ k * b ≤ i := by
  have hU : (0 : Int) < unitsPerOne := Int.natCast_pos.2 unitsPerOne_pos
  have hb' : (0 : Int) < b := Int.natCast_pos.2 hb
  have hlimit : roundUnits (i.natAbs * unitsPerOne) b ≤ unitsLimit := by
    have hle := (roundUnits_le_whole_iff (k := 2 ^ 53) hi hb hb64).2 (by nlinarith)
    exact Nat.le_trans hle (Nat.le_of_lt (representable_mul_unitsPerOne (Nat.le_refl _)).1)
  have hplace : roundedPlace (i * unitsPerOne) b =
      signed (i < 0) (roundUnits (i.natAbs * unitsPerOne) b) := by
    have hsign : i * unitsPerOne < 0 ↔ i < 0 :=
      ⟨fun h => by by_contra hn; nlinarith, fun h => by nlinarith⟩
    rw [roundedPlace, Int.natAbs_mul, Int.natAbs_natCast, Nat.min_eq_left hlimit]
    simp only [hsign]
  rw [hplace]
  rcases lt_or_ge i 0 with hneg | hnonneg
  · obtain ⟨a, rfl⟩ : ∃ a : Nat, i = -a := ⟨i.natAbs, by omega⟩
    rw [Int.natAbs_neg, Int.natAbs_natCast] at *
    simp only [signed, hneg, decide_true, if_true]
    rcases lt_or_ge 0 k with hk | hk
    · constructor
      · intro h; nlinarith
      · intro h; nlinarith
    · obtain ⟨j, rfl⟩ : ∃ j : Nat, k = -j := ⟨k.natAbs, by omega⟩
      have hiff := roundUnits_le_whole_iff (k := j) hi hb hb64
      zify at hiff
      constructor
      · intro h
        have := hiff.1 (by linarith)
        linarith
      · intro h
        have := hiff.2 (by linarith)
        linarith
  · obtain ⟨a, rfl⟩ : ∃ a : Nat, i = a := ⟨i.natAbs, by omega⟩
    rw [Int.natAbs_natCast] at *
    simp only [signed, show ¬ (a : Int) < 0 by omega, decide_false, Bool.false_eq_true, if_false]
    rcases lt_or_ge k 0 with hk | hk
    · constructor
      · intro h; nlinarith
      · intro h; nlinarith
    · obtain ⟨j, rfl⟩ : ∃ j : Nat, k = j := ⟨k.natAbs, by omega⟩
      exact_mod_cast whole_le_roundUnits_iff (k := j) hi hb hb64

/-- **The floor of a rounded quotient of whole numbers is the floor of the quotient.** -/
theorem roundedPlace_whole_ediv {i : Int} {b : Nat} (hi : i.natAbs ≤ 2 ^ 53) (hb : 0 < b)
    (hb64 : b ≤ 2 ^ 64) : roundedPlace (i * unitsPerOne) b / unitsPerOne = i / b := by
  have hU : (0 : Int) < unitsPerOne := Int.natCast_pos.2 unitsPerOne_pos
  have hb' : (0 : Int) < b := Int.natCast_pos.2 hb
  have hle : ∀ k : Int, k ≤ roundedPlace (i * unitsPerOne) b / unitsPerOne ↔ k ≤ i / b := by
    intro k
    rw [Int.le_ediv_iff_mul_le hU, Int.le_ediv_iff_mul_le hb']
    exact whole_le_roundedPlace_iff hi hb hb64
  exact Int.le_antisymm ((hle _).1 (Int.le_refl _)) ((hle _).2 (Int.le_refl _))

end BucketPlanner
