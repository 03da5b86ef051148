import BucketPlanner.Proofs.Number.Rounding

/-!
# The order of binary64 numbers

Every number that is not "not a number" has a place on the line of units, and the operations are
known through the places of their results:

* `roundedPlace`: the place of a quotient after rounding, which keeps the order of quotients with
  one divisor (`roundedPlace_mono`);
* `place?_ofInt`, `place?_div`: conversion of integers and division by a positive number round the
  exact place;
* `place?_floor`, `place?_ceil`: `floor` and `ceil` are exact.
-/

namespace BucketPlanner

/-- A natural number with a sign. -/
def signed (negative : Bool) (n : Nat) : Int := if negative then -n else n

/-- The place of the quotient `num / den` after rounding. -/
def roundedPlace (num : Int) (den : Nat) : Int :=
  signed (num < 0) (min (roundUnits num.natAbs den) unitsLimit)

section RoundedPlace

variable {den : Nat}

@[simp] theorem roundedPlace_zero (den : Nat) : roundedPlace 0 den = 0 := by
  simp [roundedPlace, signed]

theorem roundedPlace_of_nonneg (den : Nat) {num : Int} (h : 0 ≤ num) :
    roundedPlace num den = min (roundUnits num.natAbs den : Int) unitsLimit := by
  rw [roundedPlace, signed, if_neg (by simpa using h), Nat.cast_min]

theorem roundedPlace_neg (num : Int) (den : Nat) :
    roundedPlace (-num) den = -roundedPlace num den := by
  rcases Int.lt_trichotomy num 0 with h | rfl | h
  · have h' : ¬ 0 < num := by omega
    simp [roundedPlace, signed, h, h']
  · simp
  · have h' : ¬ num < 0 := by omega
    simp [roundedPlace, signed, h, h']

theorem roundedPlace_nonneg (den : Nat) {num : Int} (h : 0 ≤ num) :
    0 ≤ roundedPlace num den := by
  rw [roundedPlace_of_nonneg den h]
  omega

/-- **Rounding keeps the order of places.** -/
theorem roundedPlace_mono {a b : Int} (h : a ≤ b) (hden : 0 < den) :
    roundedPlace a den ≤ roundedPlace b den := by
  have hpos : ∀ {a b : Int}, 0 ≤ a → a ≤ b → roundedPlace a den ≤ roundedPlace b den := by
    intro a b ha h
    have hround := roundUnits_mono (show a.natAbs ≤ b.natAbs by omega) hden
    rw [roundedPlace_of_nonneg den ha, roundedPlace_of_nonneg den (Int.le_trans ha h)]
    omega
  rcases Int.le_total 0 a with ha | ha
  · exact hpos ha h
  rcases Int.le_total 0 b with hb | hb
  · have h1 := roundedPlace_nonneg den (show 0 ≤ -a by omega)
    have h2 := roundedPlace_nonneg den hb
    rw [roundedPlace_neg] at h1
    omega
  · have hneg := hpos (show 0 ≤ -b by omega) (show -b ≤ -a by omega)
    rw [roundedPlace_neg, roundedPlace_neg] at hneg
    omega

/-- A number of the format stays where it is. -/
theorem roundedPlace_mul {p : Int} (h : Representable p.natAbs) (hden : 0 < den) :
    roundedPlace (p * den) den = p := by
  have hpos : ∀ {p : Int}, 0 ≤ p → Representable p.natAbs → roundedPlace (p * den) den = p := by
    intro p hp h
    have habs : (p * den).natAbs = p.natAbs * den := by rw [Int.natAbs_mul, Int.natAbs_natCast]
    rw [roundedPlace_of_nonneg den (Int.mul_nonneg hp (by omega)), habs,
      roundUnits_mul_of_dvd h.2 hden]
    have := h.1
    omega
  rcases Int.le_total 0 p with hp | hp
  · exact hpos hp h
  · have hneg := hpos (show 0 ≤ -p by omega) (by rwa [Int.natAbs_neg])
    rw [Int.neg_mul, roundedPlace_neg] at hneg
    omega

theorem roundedPlace_mul_mul (num : Int) (den : Nat) {c : Nat} (hc : 0 < c) :
    roundedPlace (num * c) (den * c) = roundedPlace num den := by
  have hsign : num * c < 0 ↔ num < 0 := by
    constructor
    · intro h
      by_contra hn
      have := Int.mul_nonneg (show 0 ≤ num by omega) (show (0 : Int) ≤ c by omega)
      omega
    · intro h
      exact Int.mul_neg_of_neg_of_pos h (by omega)
  rw [roundedPlace, roundedPlace, Int.natAbs_mul, Int.natAbs_natCast, roundUnits_mul_mul _ _ hc]
  simp only [hsign]

end RoundedPlace

/-! ### Whole numbers of the format -/

/-- One is a power of two of units, with an exponent that is not evaluated. -/
theorem unitsPerOne_eq_two_pow : ∃ e, e = 1074 ∧ unitsPerOne = 2 ^ e :=
  ⟨1074, rfl, by decide +kernel⟩

theorem two_pow_mul_unitsPerOne (s : Nat) : 2 ^ s * unitsPerOne = 2 ^ (s + 1074) := by
  obtain ⟨e, he, hone⟩ := unitsPerOne_eq_two_pow
  rw [hone, ← Nat.pow_add, he]

/-- Whole numbers of at most 53 bits belong to the format. -/
theorem representable_mul_unitsPerOne {k : Nat} (h : k ≤ 2 ^ 53) :
    Representable (k * unitsPerOne) := by
  constructor
  · calc k * unitsPerOne ≤ 2 ^ 53 * unitsPerOne := Nat.mul_le_mul_right _ h
      _ < unitsLimit := by decide +kernel
  · obtain ⟨e, -, hone⟩ := unitsPerOne_eq_two_pow
    rw [hone]
    exact spacing_dvd_mul_two_pow e h

/-- A number of the format is a multiple of a power of two, or it has a smaller power in front. -/
theorem two_pow_dvd_or_lt {n : Nat} (h : spacing n ∣ n) (e : Nat) : 2 ^ e ∣ n ∨ n < 2 ^ (52 + e) := by
  rcases Nat.lt_or_ge n.log2 (52 + e) with hlt | hge
  · exact Or.inr (Nat.lt_of_lt_of_le Nat.lt_log2_self (Nat.pow_le_pow_right (by decide) hlt))
  · exact Or.inl (Nat.dvd_trans (Nat.pow_dvd_pow 2 (by omega)) h)

/-- A number of the format is whole, or it is below 2⁵². -/
theorem dvd_or_lt_of_spacing_dvd {n : Nat} (h : spacing n ∣ n) :
    unitsPerOne ∣ n ∨ n < 2 ^ 52 * unitsPerOne := by
  obtain ⟨e, -, hone⟩ := unitsPerOne_eq_two_pow
  rw [hone, ← Nat.pow_add]
  exact two_pow_dvd_or_lt h e

/-- The greatest magnitude of the format is one spacing below the limit. -/
theorem Representable.le_of_add_eq {k n : Nat} (hk : (k + 2 ^ 971) * unitsPerOne = unitsLimit)
    (h : Representable n) : n ≤ k * unitsPerOne := by
  have hlimit : unitsLimit = 2 ^ 53 * (2 ^ 971 * unitsPerOne) := by decide +kernel
  have hlt := h.1
  have hcases : 2 ^ 971 * unitsPerOne ∣ n ∨ n < 2 ^ 52 * (2 ^ 971 * unitsPerOne) := by
    obtain ⟨e, -, hone⟩ := unitsPerOne_eq_two_pow
    rw [hone, ← Nat.pow_add, ← Nat.pow_add]
    exact two_pow_dvd_or_lt h.2 (971 + e)
  rw [Nat.add_mul] at hk
  generalize 2 ^ 971 * unitsPerOne = w at *
  generalize k * unitsPerOne = g at *
  rcases hcases with ⟨m, rfl⟩ | hsmall
  · rw [hlimit, Nat.mul_comm w] at hlt
    have hm := Nat.mul_le_mul_right w (Nat.le_sub_one_of_lt (Nat.lt_of_mul_lt_mul_right hlt))
    rw [Nat.mul_comm w]
    omega
  · omega

/-- The whole part of a number of the format belongs to it. -/
theorem representable_floor {n : Nat} (h : Representable n) :
    Representable (n / unitsPerOne * unitsPerOne) := by
  rcases dvd_or_lt_of_spacing_dvd h.2 with hdvd | hlt
  · rwa [Nat.div_mul_cancel hdvd]
  · refine representable_mul_unitsPerOne ?_
    have := (Nat.div_lt_iff_lt_mul unitsPerOne_pos).2 hlt
    omega

/-- A number of the format, rounded up to a whole one, belongs to it. -/
theorem representable_ceil {n : Nat} (h : Representable n) :
    Representable ((n + (unitsPerOne - 1)) / unitsPerOne * unitsPerOne) := by
  have hpos := unitsPerOne_pos
  rcases dvd_or_lt_of_spacing_dvd h.2 with ⟨k, hk⟩ | hlt
  · have hdiv : (n + (unitsPerOne - 1)) / unitsPerOne = k := by
      rw [hk, Nat.mul_add_div hpos, Nat.div_eq_of_lt (by omega), Nat.add_zero]
    rwa [hdiv, Nat.mul_comm, ← hk]
  · refine representable_mul_unitsPerOne (Nat.le_of_lt_succ ?_)
    rw [Nat.div_lt_iff_lt_mul hpos]
    omega

namespace Binary64

variable {x y : Binary64} {p q : Int}

/-! ### Places -/

@[simp] theorem place?_finite (negative : Bool) (n : Nat) (h : Representable n) :
    (finite negative n h).place? = some (signed negative n) := by
  cases negative <;> rfl

@[simp] theorem place?_infinite (negative : Bool) :
    (infinite negative).place? = some (signed negative unitsLimit) := by
  cases negative <;> rfl

/-- Numbers are compared by their places. -/
theorem compare?_of_place? (hx : x.place? = some p) (hy : y.place? = some q) :
    x.compare? y = some (compare p q) := by
  rw [compare?, hx, hy]

theorem atMost_iff (hx : x.place? = some p) (hy : y.place? = some q) :
    x.atMost y = true ↔ p ≤ q := by
  rw [atMost, compare?_of_place? hx hy]
  simp only [Option.some.injEq, Bool.or_eq_true, decide_eq_true_eq, Int.compare_eq_lt,
    Int.compare_eq_eq]
  omega

theorem place?_ofUnitsQuotient (negative : Bool) (num den : Nat) :
    (ofUnitsQuotient negative num den).place? =
      some (signed negative (min (roundUnits num den) unitsLimit)) := by
  unfold ofUnitsQuotient
  split
  · rw [place?_finite, Nat.min_eq_left (by omega)]
  · rw [place?_infinite, Nat.min_eq_right (by omega)]

theorem place?_ofInt (i : Int) : (ofInt i).place? = some (roundedPlace (i * unitsPerOne) 1) := by
  have hsign : i * unitsPerOne < 0 ↔ i < 0 := by
    have hpos : (0 : Int) < unitsPerOne := Int.natCast_pos.2 unitsPerOne_pos
    exact ⟨fun h => by by_contra hn; nlinarith, fun h => by nlinarith⟩
  rw [ofInt, ofQuotient, place?_ofUnitsQuotient, roundedPlace, Int.natAbs_mul, Int.natAbs_natCast]
  simp only [hsign]

theorem ofNat_eq_ofInt (n : Nat) : ofNat n = ofInt n := by
  simp [ofNat, ofInt, show ¬ (n : Int) < 0 by omega]

/-- A whole number of at most 53 bits is exact. -/
theorem place?_ofInt_of_natAbs_le {i : Int} (h : i.natAbs ≤ 2 ^ 53) :
    (ofInt i).place? = some (i * unitsPerOne) := by
  have hrep : Representable (i * unitsPerOne).natAbs := by
    rw [Int.natAbs_mul, Int.natAbs_natCast]
    exact representable_mul_unitsPerOne h
  have hmul := roundedPlace_mul hrep Nat.one_pos
  rw [place?_ofInt]
  simpa using hmul

/-- Numbers on the line of units whose place is below the limit are finite. -/
theorem isFinite_iff_place? (x : Binary64) :
    x.isFinite = true ↔ ∃ p, x.place? = some p ∧ p.natAbs < unitsLimit := by
  cases x with
  | nan => simp [isFinite, place?]
  | infinite negative => cases negative <;> simp [isFinite, signed]
  | finite negative n h =>
    have := h.1
    cases negative <;> simp [isFinite, signed, this]

/-- The quotient by a positive number has the rounded place of the exact quotient. -/
theorem place?_div {n : Nat} {h : Representable n} (hx : x.isFinite) (hp : x.place? = some p)
    (hn : 0 < n) : (x.div (finite false n h)).place? = some (roundedPlace (p * unitsPerOne) n) := by
  cases x with
  | nan => simp [isFinite] at hx
  | infinite negative => simp [isFinite] at hx
  | finite negative m hm =>
    have hpos : (0 : Int) < unitsPerOne := Int.natCast_pos.2 unitsPerOne_pos
    rw [place?_finite, Option.some.injEq] at hp
    subst hp
    have habs : (signed negative m * unitsPerOne).natAbs = m * unitsPerOne := by
      rw [Int.natAbs_mul, Int.natAbs_natCast]
      cases negative <;> simp [signed]
    rw [div, if_neg (by omega), place?_ofUnitsQuotient, roundedPlace, habs]
    cases negative with
    | false =>
      have hsign : ¬ signed false m * (unitsPerOne : Int) < 0 := by
        have := Int.mul_nonneg (show (0 : Int) ≤ m by omega) (Int.le_of_lt hpos)
        simpa [signed] using this
      simp [hsign]
    | true =>
      -- A negative zero is rounded like a positive one.
      rcases Nat.eq_zero_or_pos m with rfl | hm0
      · simp [signed]
      · have hsign : signed true m * (unitsPerOne : Int) < 0 := by
          have := Int.mul_pos (show (0 : Int) < m by omega) hpos
          simp only [signed, if_true]
          nlinarith
        simp [hsign]

/-! ### Rounding to whole numbers -/

theorem floor_finite (negative : Bool) (n : Nat) (h : Representable n) :
    (finite negative n h).floor = ofQuotient negative
      (if negative then (n + (unitsPerOne - 1)) / unitsPerOne else n / unitsPerOne) 1 := rfl

theorem ceil_finite (negative : Bool) (n : Nat) (h : Representable n) :
    (finite negative n h).ceil = ofQuotient negative
      (if !negative then (n + (unitsPerOne - 1)) / unitsPerOne else n / unitsPerOne) 1 := rfl

/-- A whole number of units that belongs to the format keeps its place. -/
theorem place?_ofQuotient_whole (negative : Bool) {k : Nat}
    (h : Representable (k * unitsPerOne)) :
    (ofQuotient negative k 1).place? = some (signed negative (k * unitsPerOne)) := by
  have hround := roundUnits_mul_of_dvd h.2 Nat.one_pos
  rw [Nat.mul_one] at hround
  rw [ofQuotient, place?_ofUnitsQuotient, hround, Nat.min_eq_left (Nat.le_of_lt h.1)]

theorem place?_ofNat_of_representable {k : Nat} (h : Representable (k * unitsPerOne)) :
    (ofNat k).place? = some ((k * unitsPerOne : Nat) : Int) := by
  rw [ofNat, place?_ofQuotient_whole _ h, signed, if_neg (by simp)]

/-- No finite number lies beyond the greatest one. -/
theorem exists_place?_greatest :
    ∃ g : Nat, greatest.place? = some (g : Int) ∧ ∀ n, Representable n → n ≤ g := by
  obtain ⟨k, hk, hrep, hlimit⟩ : ∃ k, greatest = ofNat k ∧ Representable (k * unitsPerOne) ∧
      (k + 2 ^ 971) * unitsPerOne = unitsLimit := ⟨_, rfl, by decide +kernel, by decide +kernel⟩
  rw [hk]
  exact ⟨_, place?_ofNat_of_representable hrep, fun _ => Representable.le_of_add_eq hlimit⟩

theorem place?_neg (hx : x.place? = some p) : x.neg.place? = some (-p) := by
  cases x with
  | nan => simp [place?] at hx
  | infinite negative =>
    rw [place?_infinite, Option.some.injEq] at hx
    rw [neg, place?_infinite, ← hx]
    cases negative <;> simp [signed]
  | finite negative n h =>
    rw [place?_finite, Option.some.injEq] at hx
    rw [neg, place?_finite, ← hx]
    cases negative <;> simp [signed]

/-- Rounding down the negative of a number is rounding it up. -/
theorem neg_ediv_unitsPerOne (n : Nat) :
    -(n : Int) / unitsPerOne = -(((n + (unitsPerOne - 1)) / unitsPerOne : Nat) : Int) := by
  have hpos := unitsPerOne_pos
  have hmod := Nat.div_add_mod (n + (unitsPerOne - 1)) unitsPerOne
  have hlt := Nat.mod_lt (n + (unitsPerOne - 1)) hpos
  generalize (n + (unitsPerOne - 1)) / unitsPerOne = c at *
  generalize (n + (unitsPerOne - 1)) % unitsPerOne = r at *
  have hle : (n : Int) ≤ unitsPerOne * c := by exact_mod_cast show n ≤ unitsPerOne * c by omega
  have hgt : (unitsPerOne * c : Int) < n + unitsPerOne := by
    exact_mod_cast show unitsPerOne * c < n + unitsPerOne by omega
  refine Int.le_antisymm (Int.le_of_lt_add_one (Int.ediv_lt_of_lt_mul (by omega) ?_))
    (Int.le_ediv_of_mul_le (by omega) ?_)
  · linarith
  · linarith

/-- The place of the greatest whole number that is not above. -/
theorem place?_floor (hx : x.isFinite) (hp : x.place? = some p) :
    x.floor.place? = some (p / unitsPerOne * unitsPerOne) := by
  cases x with
  | nan => simp [isFinite] at hx
  | infinite negative => simp [isFinite] at hx
  | finite negative n h =>
    rw [place?_finite, Option.some.injEq] at hp
    subst hp
    rw [floor_finite]
    cases negative with
    | false =>
      rw [if_neg (by simp), place?_ofQuotient_whole _ (representable_floor h)]
      simp [signed]
    | true =>
      rw [if_pos rfl, place?_ofQuotient_whole _ (representable_ceil h)]
      simp only [signed, if_true, neg_ediv_unitsPerOne]
      push_cast
      rw [Int.neg_mul]

/-- The place of the least whole number that is not below. -/
theorem place?_ceil (hx : x.isFinite) (hp : x.place? = some p) :
    x.ceil.place? = some (-(-p / unitsPerOne) * unitsPerOne) := by
  cases x with
  | nan => simp [isFinite] at hx
  | infinite negative => simp [isFinite] at hx
  | finite negative n h =>
    rw [place?_finite, Option.some.injEq] at hp
    subst hp
    rw [ceil_finite]
    cases negative with
    | false =>
      rw [if_pos (by rfl), place?_ofQuotient_whole _ (representable_ceil h)]
      simp only [signed, Bool.false_eq_true, if_false, neg_ediv_unitsPerOne]
      push_cast
      rw [Int.neg_neg]
    | true =>
      rw [if_neg (by simp), place?_ofQuotient_whole _ (representable_floor h)]
      simp [signed]

end Binary64

end BucketPlanner
