import BucketPlanner.Plan.PredicateRange
import BucketPlanner.Proofs.Value.Order

/-!
# Comparisons of whole values

A value without a fractional part is in a relation to a literal with one exactly as it is to a
neighbouring whole literal:

* `unitsPerOne_dvd_of_not_isFraction`: such a value stands at a multiple of one;
* `exists_wholeComparison?`: the comparison that replaces a comparison with a fraction holds as well,
  and it is one of `>=` and `<=`.
-/

namespace BucketPlanner

/-- A finite number with a fractional part. -/
def Value.isFraction : Value → Bool
  | .float x => x.isFinite && !x.isWhole
  | _ => false

/-- A relation between a value and a literal; values that are not compared are in none. -/
def Comparison.relates (c : Comparison) (v literal : Value) : Bool :=
  (v.compare? literal).any c.holds

variable {c : Comparison} {v l : Value}

/-! ### Relations as orders -/

theorem Predicate.holds_iff {p : Predicate} {record : List Value} :
    p.holds record ↔ ∃ v, record[p.field]? = some v ∧ p.comparison.relates v p.value := by
  unfold Predicate.holds Comparison.relates
  cases record[p.field]? with
  | none => simp
  | some v => cases h : v.compare? p.value <;> simp [h]

namespace Comparison

theorem relates_iff : c.relates v l ↔ ∃ o, v.compare? l = some o ∧ c.holds o := by
  simp [relates, Option.any_eq_true]

theorem literal_isAtMost_of_relates (h : c.relates v l) (hc : c = .eq ∨ c = .ge ∨ c = .gt) :
    l.isAtMost v := by
  obtain ⟨o, ho, hholds⟩ := relates_iff.1 h
  refine Value.isAtMost_iff_swap.2 ⟨o, ho, ?_⟩
  rcases hc with rfl | rfl | rfl <;> cases o <;> simp_all [holds]

theorem isAtMost_literal_of_relates (h : c.relates v l) (hc : c = .eq ∨ c = .le ∨ c = .lt) :
    v.isAtMost l := by
  obtain ⟨o, ho, hholds⟩ := relates_iff.1 h
  refine Value.isAtMost_iff.2 ⟨o, ho, ?_⟩
  rcases hc with rfl | rfl | rfl <;> cases o <;> simp_all [holds]

end Comparison

/-! ### Fractions -/

theorem Value.exists_float_of_isFraction (h : v.isFraction) :
    ∃ x, v = .float x ∧ (x.isFinite && !x.isWhole) := by
  cases v with
  | float x => exact ⟨x, rfl, h⟩
  | bool | int | uint | text => simp [isFraction] at h

theorem natCast_dvd_signed {d n : Nat} {negative : Bool} :
    (d : Int) ∣ signed negative n ↔ d ∣ n := by
  rw [← Int.natAbs_dvd_natAbs, Int.natAbs_natCast]
  cases negative <;> simp [signed]

/-- Fractions lie below 2⁵². -/
theorem exists_place_of_isFraction {x : Binary64} (h : (Value.float x).isFraction) :
    ∃ p, x.isFinite ∧ x.place? = some p ∧ ¬ (unitsPerOne : Int) ∣ p ∧
      p.natAbs < 2 ^ 52 * unitsPerOne := by
  cases x with
  | nan => simp [Value.isFraction, Binary64.isFinite] at h
  | infinite negative => simp [Value.isFraction, Binary64.isFinite] at h
  | finite negative n hn =>
    have hdvd : ¬ unitsPerOne ∣ n := by
      intro hdvd
      simp [Value.isFraction, Binary64.isWhole, Nat.mod_eq_zero_of_dvd hdvd] at h
    have hlt := (dvd_or_lt_of_spacing_dvd hn.2).resolve_left hdvd
    refine ⟨_, rfl, Binary64.place?_finite .., ?_, ?_⟩
    · rwa [natCast_dvd_signed]
    · cases negative <;> simpa [signed] using hlt

theorem Value.not_isFraction_of_integer? {i : Int} (h : v.integer? = some i) : ¬ v.isFraction := by
  cases v <;> simp_all [integer?, isFraction]

theorem unitsPerOne_dvd_unitsLimit : unitsPerOne ∣ unitsLimit := by decide +kernel

/-- The nearest binary64 number to an integer is whole. -/
theorem unitsPerOne_dvd_roundedPlace (i : Int) :
    (unitsPerOne : Int) ∣ roundedPlace (i * unitsPerOne) 1 := by
  have hround : unitsPerOne ∣ roundUnits (i * unitsPerOne).natAbs 1 := by
    rw [Int.natAbs_mul, Int.natAbs_natCast]
    have hspacing : spacing (roundUnits (i.natAbs * unitsPerOne) 1) ∣ _ :=
      spacing_dvd_mul_two_pow _ (roundHalfEven_spacing_le _ _)
    rcases dvd_or_lt_of_spacing_dvd hspacing with hdvd | hlt
    · exact hdvd
    · -- An integer that is rounded to so small a place has at most 53 bits, and is not rounded.
      have hi : i.natAbs ≤ 2 ^ 53 := by
        by_contra hi
        have hle : 2 ^ 53 * unitsPerOne * 1 ≤ i.natAbs * unitsPerOne := by
          rw [Nat.mul_one]
          exact Nat.mul_le_mul_right _ (by omega)
        have hmono := roundUnits_mono hle Nat.one_pos
        rw [roundUnits_mul_of_dvd (representable_mul_unitsPerOne (Nat.le_refl _)).2 Nat.one_pos]
          at hmono
        omega
      have hexact := roundUnits_mul_of_dvd (representable_mul_unitsPerOne hi).2 Nat.one_pos
      rw [Nat.mul_one] at hexact
      rw [hexact]
      exact Nat.dvd_mul_left ..
  rw [roundedPlace, natCast_dvd_signed]
  rcases Nat.le_total (roundUnits (i * unitsPerOne).natAbs 1) unitsLimit with h | h
  · rwa [Nat.min_eq_left h]
  · rw [Nat.min_eq_right h]
    exact unitsPerOne_dvd_unitsLimit

/-- A value without a fractional part stands at a multiple of one. -/
theorem unitsPerOne_dvd_of_not_isFraction {q : Int} (hv : ¬ v.isFraction) (hq : v.place? = some q) :
    (unitsPerOne : Int) ∣ q := by
  rcases Value.number_cases hq with ⟨i, -, rfl⟩ | ⟨x, rfl, hx⟩
  · exact unitsPerOne_dvd_roundedPlace i
  · cases x with
    | nan => simp [Binary64.place?] at hx
    | infinite negative =>
      rw [Binary64.place?_infinite, Option.some.injEq] at hx
      rw [← hx, natCast_dvd_signed]
      exact unitsPerOne_dvd_unitsLimit
    | finite negative n hn =>
      rw [Binary64.place?_finite, Option.some.injEq] at hx
      rw [← hx, natCast_dvd_signed]
      simpa [Value.isFraction, Binary64.isFinite, Binary64.isWhole,
        ← Nat.dvd_iff_mod_eq_zero] using hv

/-! ### Comparisons with fractions -/

theorem wholeComparison?_of_not_isFraction (hl : ¬ l.isFraction) :
    wholeComparison? c l = some (c, l) := by
  unfold wholeComparison?
  split
  · rw [if_neg (by simpa [Value.isFraction] using hl)]
  · rfl

/-- A multiple of one that is not below a number is not below the least whole number above it. -/
theorem ceil_le_of_dvd {p q : Int} (hq : (unitsPerOne : Int) ∣ q) (h : p ≤ q) :
    -(-p / unitsPerOne) * unitsPerOne ≤ q := by
  have hU : (0 : Int) < unitsPerOne := Int.natCast_pos.2 unitsPerOne_pos
  obtain ⟨m, rfl⟩ := hq
  rw [Int.mul_comm]
  refine Int.mul_le_mul_of_nonneg_left ?_ (Int.le_of_lt hU)
  have : -m ≤ -p / unitsPerOne := (Int.le_ediv_iff_mul_le hU).2 (by linarith)
  omega

/-- A multiple of one that is not above a number is not above the greatest whole number below it. -/
theorem le_floor_of_dvd {p q : Int} (hq : (unitsPerOne : Int) ∣ q) (h : q ≤ p) :
    q ≤ p / unitsPerOne * unitsPerOne := by
  have hU : (0 : Int) < unitsPerOne := Int.natCast_pos.2 unitsPerOne_pos
  obtain ⟨m, rfl⟩ := hq
  rw [Int.mul_comm]
  refine Int.mul_le_mul_of_nonneg_right ?_ (Int.le_of_lt hU)
  exact (Int.le_ediv_iff_mul_le hU).2 (by linarith)

/-- Every value is clear of numbers below 2⁵³. -/
theorem Value.isClearOf_float {x : Binary64} {p : Int} (hp : x.place? = some p)
    (h : p.natAbs < 2 ^ 53 * unitsPerOne) : v.IsClearOf (.float x) := by
  have hplace : (Value.float x).place? = some p := place?_eq_some_iff.2 ⟨x, rfl, hp⟩
  unfold IsClearOf
  cases v.integer? with
  | none => simp [integer?]
  | some i =>
    intro q hq
    rw [hplace, Option.mem_some_iff] at hq
    rw [← hq]
    exact Or.inr (Or.inl h)

theorem Value.place?_of_compare?_float {x : Binary64} {p : Int} {o : Ordering}
    (hp : x.place? = some p) (h : v.compare? (.float x) = some o) :
    ∃ q, v.place? = some q ∧ o = compare q p := by
  rw [compare?_eq_some_iff] at h
  rcases h with _ | _ | ⟨-, hx⟩ | ⟨-, hq, hp'⟩
  · simp [integer?] at hx
  · rw [place?_eq_some_iff.2 ⟨x, rfl, hp⟩, Option.some.injEq] at hp'
    exact ⟨_, hq, by rw [hp']⟩

section Fraction

variable {x : Binary64} {p q : Int} (hx : x.isFinite) (hp : x.place? = some p)
  (hsmall : p.natAbs < 2 ^ 52 * unitsPerOne) (hv : ¬ v.isFraction) (hq : v.place? = some q)

include hx hp hsmall hv hq

theorem relates_ceil (h : p ≤ q) :
    Comparison.ge.relates v (.float x.ceil) ∧ v.IsClearOf (.float x.ceil) := by
  have hceil := Binary64.place?_ceil hx hp
  have hle := ceil_le_of_dvd (unitsPerOne_dvd_of_not_isFraction hv hq) h
  have hU := unitsPerOne_pos
  have hlow := Int.ediv_mul_le (-p) (show (unitsPerOne : Int) ≠ 0 by omega)
  have hhigh := Int.lt_ediv_add_one_mul_self (-p) (show (0 : Int) < unitsPerOne by omega)
  rw [Int.add_mul, Int.one_mul] at hhigh
  rw [Int.neg_mul] at hceil hle
  constructor
  · refine Comparison.relates_iff.2 ⟨_, Value.compare?_of_place? (Or.inr rfl) hq
      (Value.place?_eq_some_iff.2 ⟨_, rfl, hceil⟩), ?_⟩
    simpa [Comparison.holds, Int.compare_eq_lt] using hle
  · exact Value.isClearOf_float hceil (by omega)

theorem relates_floor (h : q ≤ p) :
    Comparison.le.relates v (.float x.floor) ∧ v.IsClearOf (.float x.floor) := by
  have hfloor := Binary64.place?_floor hx hp
  have hle := le_floor_of_dvd (unitsPerOne_dvd_of_not_isFraction hv hq) h
  have hU := unitsPerOne_pos
  have hlow := Int.ediv_mul_le p (show (unitsPerOne : Int) ≠ 0 by omega)
  have hhigh := Int.lt_ediv_add_one_mul_self p (show (0 : Int) < unitsPerOne by omega)
  rw [Int.add_mul, Int.one_mul] at hhigh
  constructor
  · refine Comparison.relates_iff.2 ⟨_, Value.compare?_of_place? (Or.inr rfl) hq
      (Value.place?_eq_some_iff.2 ⟨_, rfl, hfloor⟩), ?_⟩
    simpa [Comparison.holds, Int.compare_eq_gt] using hle
  · exact Value.isClearOf_float hfloor (by omega)

end Fraction

/-- **A relation to a fraction is one to a neighbouring whole literal**, for values without a
fractional part. -/
theorem exists_wholeComparison? (hl : l.isFraction) (hv : ¬ v.isFraction) (hc : c.isRange)
    (h : c.relates v l) :
    ∃ c' l', wholeComparison? c l = some (c', l') ∧ c'.relates v l' ∧ v.IsClearOf l' ∧
      (c' = .ge ∧ (c = .ge ∨ c = .gt) ∨ c' = .le ∧ (c = .le ∨ c = .lt)) := by
  obtain ⟨o, hcmp, hholds⟩ := Comparison.relates_iff.1 h
  cases l with
  | bool | int | uint | text => simp [Value.isFraction] at hl
  | float x =>
    obtain ⟨p, hx, hp, hndvd, hsmall⟩ := exists_place_of_isFraction hl
    obtain ⟨q, hq, rfl⟩ := Value.place?_of_compare?_float hp hcmp
    have hne : q ≠ p := fun h => hndvd (h ▸ unitsPerOne_dvd_of_not_isFraction hv hq)
    have hcond : x.isFinite && !x.isWhole := hl
    cases c with
    | neq => simp [Comparison.isRange] at hc
    | eq => simp [Comparison.holds, hne] at hholds
    | ge | gt =>
      have hle : p ≤ q := by
        simp [Comparison.holds, Int.compare_eq_lt, Int.compare_eq_gt] at hholds
        omega
      obtain ⟨hrel, hclear⟩ := relates_ceil hx hp hsmall hv hq hle
      exact ⟨.ge, _, by rw [wholeComparison?, if_pos hcond], hrel, hclear, by simp⟩
    | le | lt =>
      have hle : q ≤ p := by
        simp [Comparison.holds, Int.compare_eq_lt, Int.compare_eq_gt] at hholds
        omega
      obtain ⟨hrel, hclear⟩ := relates_floor hx hp hsmall hv hq hle
      exact ⟨.le, _, by rw [wholeComparison?, if_pos hcond], hrel, hclear, by simp⟩

end BucketPlanner
