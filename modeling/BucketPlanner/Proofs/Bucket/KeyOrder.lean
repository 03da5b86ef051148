import BucketPlanner.Bucket.Key
import BucketPlanner.Proofs.Number.WholeQuotient

/-!
# The order of keys

The key of a number is monotone in the number:

* `Key.ofInteger_mono`, `Key.atPlace_mono`: among integers, and among binary64 numbers, which are
  given by their places;
* `Key.ofInteger_eq_atPlace`: an integer of at most 53 bits has the key of the equal binary64 number;
* `Key.ofInteger_le_atPlace`, `Key.atPlace_le_ofInteger`: between an integer and a binary64 number,
  unless the integer has more than 53 bits and the binary64 number is of the same magnitude.
-/

namespace BucketPlanner

open Binary64

/-! ### Order and clamping -/

namespace Key

theorem le_iff {a b : Key} : a ≤ b ↔ a.val ≤ b.val := Iff.rfl

theorem lt_iff {a b : Key} : a < b ↔ a.val < b.val := Iff.rfl

theorem le_trans {a b c : Key} (h : a ≤ b) (h' : b ≤ c) : a ≤ c := Int.le_trans h h'

theorem le_antisymm {a b : Key} (h : a ≤ b) (h' : b ≤ a) : a = b := ext (Int.le_antisymm h h')

theorem clamp_mono {i j : Int} (h : i ≤ j) : clamp i ≤ clamp j := by
  simp only [le_iff, clamp]
  omega

/-- Clamping twice is clamping once. -/
theorem clamp_max_min (i : Int) : clamp (max (-2 ^ 127) (min (2 ^ 127 - 1) i)) = clamp i := by
  apply ext
  simp only [clamp]
  omega

theorem lt_of_le_of_ne {a b : Key} (h : a ≤ b) (hne : a ≠ b) : a < b := by
  by_contra hn
  exact hne (le_antisymm h (Int.not_lt.1 hn))

/-- A key with a greater one has a next one. -/
theorem exists_next?_of_lt {a b : Key} (h : a < b) : ∃ c, a.next? = some c ∧ c ≤ b := by
  have hlow := a.lower
  have hhigh := b.upper
  rw [lt_iff] at h
  exact ⟨⟨a.val + 1, by omega, by omega⟩, by rw [next?, ofInt?, dif_pos (by omega)],
    le_iff.2 (by simp only; omega)⟩

/-- A key with a smaller one has one before it. -/
theorem exists_prev?_of_lt {a b : Key} (h : a < b) : ∃ c, b.prev? = some c ∧ a ≤ c := by
  have hlow := a.lower
  have hhigh := b.upper
  rw [lt_iff] at h
  exact ⟨⟨b.val - 1, by omega, by omega⟩, by rw [prev?, ofInt?, dif_pos (by omega)],
    le_iff.2 (by simp only; omega)⟩

end Key

/-! ### Integer parts -/

/-- The integer part of a whole number, kept between two ends inside the format. -/
theorem Binary64.toIntWithin_whole {x : Binary64} {low high k : Int}
    (hx : x.place? = some (k * unitsPerOne)) (h : low ≤ high)
    (hlow : -(unitsLimit : Int) ≤ low * unitsPerOne) (hhigh : high * unitsPerOne ≤ unitsLimit) :
    x.toIntWithin low high = max low (min high k) := by
  have hU : (0 : Int) < unitsPerOne := Int.natCast_pos.2 unitsPerOne_pos
  cases x with
  | nan => simp [place?] at hx
  | infinite negative =>
    rw [place?_infinite, Option.some.injEq] at hx
    cases negative with
    | false =>
      have hk : high ≤ k := Int.le_of_mul_le_mul_right (by simpa [signed, ← hx] using hhigh) hU
      simp only [toIntWithin, Bool.false_eq_true, if_false]
      omega
    | true =>
      have hk : k ≤ low := Int.le_of_mul_le_mul_right (by simpa [signed, ← hx] using hlow) hU
      simp only [toIntWithin, if_true]
      omega
  | finite negative n hn =>
    rw [place?_finite, Option.some.injEq] at hx
    cases negative with
    | false =>
      have hdiv : (n : Int) / unitsPerOne = k := by
        rw [show (n : Int) = k * unitsPerOne from hx, Int.mul_ediv_cancel _ (by omega)]
      simp [toIntWithin, hdiv]
    | true =>
      have hdiv : (n : Int) / unitsPerOne = -k := by
        rw [show (n : Int) = -k * unitsPerOne by simp [signed] at hx; linarith,
          Int.mul_ediv_cancel _ (by omega)]
      simp [toIntWithin, hdiv]

namespace Key

theorem two_pow_mul_le_unitsLimit {i : Int} (h : i ≤ 2 ^ 127) : i * unitsPerOne ≤ unitsLimit := by
  have hlimit : (2 : Int) ^ 127 * unitsPerOne ≤ unitsLimit := by
    exact_mod_cast show 2 ^ 127 * unitsPerOne ≤ unitsLimit by decide +kernel
  exact Int.le_trans (Int.mul_le_mul_of_nonneg_right h (by omega)) hlimit

/-- **The key of a quotient is the floor of its place**, where keys are not left. -/
theorem ofFloor_eq {x : Binary64} {p : Int} (hp : x.place? = some p) :
    ofFloor x = clamp (p / unitsPerOne) := by
  have hlow : -(unitsLimit : Int) ≤ -2 ^ 127 * unitsPerOne := by
    have := two_pow_mul_le_unitsLimit (i := 2 ^ 127) (by decide)
    linarith
  have hhigh := two_pow_mul_le_unitsLimit (i := 2 ^ 127 - 1) (by decide)
  have hwhole : x.floor.place? = some (p / unitsPerOne * unitsPerOne) := by
    cases x with
    | nan => simp [place?] at hp
    | infinite negative =>
      -- The limit is a whole number.
      have hdvd : (unitsPerOne : Int) ∣ unitsLimit := by
        exact_mod_cast show unitsPerOne ∣ unitsLimit by decide +kernel
      rw [place?_infinite, Option.some.injEq] at hp
      subst hp
      rw [show (infinite negative).floor = infinite negative from rfl, place?_infinite,
        Int.ediv_mul_cancel]
      cases negative with
      | false => exact hdvd
      | true => exact (Int.dvd_neg).2 hdvd
    | finite negative n h => exact place?_floor rfl hp
  rw [ofFloor, toIntWithin_whole hwhole (by decide) hlow hhigh, clamp_max_min]

/-- A bucket size is a positive number of units. -/
theorem exists_units_of_isBucketSize {s : Binary64} (h : isBucketSize s) :
    ∃ n hn, s = finite false n hn ∧ 0 < n := by
  cases s with
  | nan => simp [isBucketSize, isFinite] at h
  | infinite negative => simp [isBucketSize, isFinite] at h
  | finite negative n hn =>
    simp only [isBucketSize, isFinite, isPositive, Bool.true_and, Bool.and_eq_true,
      Bool.not_eq_true', bne_iff_ne] at h
    obtain ⟨rfl, hn0⟩ := h
    exact ⟨n, hn, rfl, by omega⟩

/-- A bucket size by which integers are divided exactly is a whole number from one to 2⁶⁴. -/
theorem exists_whole_of_dividesExactly {n : Nat} {hn : Representable n} (hpos : 0 < n)
    (h : dividesExactly (finite false n hn)) :
    ∃ b : Nat, 0 < b ∧ b ≤ 2 ^ 64 ∧ n = b * unitsPerOne ∧
      (finite false n hn).toIntWithin 1 (2 ^ 64) = b := by
  have hU : (0 : Int) < unitsPerOne := Int.natCast_pos.2 unitsPerOne_pos
  simp only [dividesExactly, isWhole, Bool.and_eq_true, beq_iff_eq] at h
  obtain ⟨hwhole, hmost⟩ := h
  have hb := Nat.div_mul_cancel (Nat.dvd_of_mod_eq_zero hwhole)
  generalize n / unitsPerOne = b at hb
  have hpos' : 0 < b := Nat.pos_of_ne_zero fun h0 => by simp [h0] at hb; omega
  have hplace : (finite false n hn).place? = some ((b : Int) * unitsPerOne) := by
    rw [place?_finite, signed, if_neg (by simp), ← hb, Nat.cast_mul]
  have h64 : (ofNat (2 ^ 64)).place? = some ((2 : Int) ^ 64 * unitsPerOne) := by
    have hrep : Representable (2 ^ 64 * unitsPerOne) := by decide +kernel
    rw [ofNat, place?_ofQuotient_whole _ hrep]
    simp [signed]
  have hle : (b : Int) ≤ 2 ^ 64 := by
    exact Int.le_of_mul_le_mul_right ((atMost_iff hplace h64).1 hmost) hU
  refine ⟨b, hpos', by exact_mod_cast hle, hb.symm, ?_⟩
  rw [toIntWithin_whole hplace (by decide) (by nlinarith [Int.natCast_nonneg unitsLimit])
    (two_pow_mul_le_unitsLimit (by decide))]
  omega

/-! ### Keys of integers and of places -/

/-- The key of the number at a place, in buckets of `n` units. -/
def atPlace (n : Nat) (p : Int) : Key := clamp (roundedPlace (p * unitsPerOne) n / unitsPerOne)

variable {n : Nat} {hn : Representable n} {i j p q : Int}

theorem ofFloor_div {x : Binary64} (hx : x.isFinite) (hp : x.place? = some p) (hpos : 0 < n) :
    ofFloor (x.div (finite false n hn)) = atPlace n p := by
  rw [ofFloor_eq (place?_div hx hp hpos), atPlace]

theorem atPlace_mono (h : p ≤ q) (hpos : 0 < n) : atPlace n p ≤ atPlace n q := by
  have hU : (0 : Int) < unitsPerOne := Int.natCast_pos.2 unitsPerOne_pos
  have hmul : p * unitsPerOne ≤ q * unitsPerOne := Int.mul_le_mul_of_nonneg_right h (by omega)
  exact clamp_mono (Int.ediv_le_ediv hU (roundedPlace_mono hmul hpos))

/-- Integers of 64 bits, with or without sign. -/
theorem isFinite_ofInt (h : i.natAbs ≤ 2 ^ 64) : (ofInt i).isFinite := by
  have hround : roundUnits (i * unitsPerOne).natAbs 1 < unitsLimit := by
    have hrep : Representable (2 ^ 64 * unitsPerOne) := by decide +kernel
    have hmono : roundUnits (i.natAbs * unitsPerOne) 1 ≤ roundUnits (2 ^ 64 * unitsPerOne * 1) 1 :=
      roundUnits_mono (by rw [Nat.mul_one]; exact Nat.mul_le_mul_right _ h) Nat.one_pos
    rw [roundUnits_mul_of_dvd hrep.2 Nat.one_pos] at hmono
    rw [Int.natAbs_mul, Int.natAbs_natCast]
    exact Nat.lt_of_le_of_lt hmono hrep.1
  refine (isFinite_iff_place? _).2 ⟨_, place?_ofInt i, ?_⟩
  rw [roundedPlace, signed]
  split <;> omega

/-- **Keys of integers are exact** when the bucket size divides integers exactly, and otherwise they
are the keys of the nearest binary64 numbers. -/
theorem ofInteger_cases (hn : Representable n) (hpos : 0 < n) :
    (∃ b : Nat, 0 < b ∧ b ≤ 2 ^ 64 ∧ n = b * unitsPerOne ∧
      ∀ i, ofInteger i (finite false n hn) = clamp (i / b)) ∨
    ∀ i : Int, i.natAbs ≤ 2 ^ 64 →
      ofInteger i (finite false n hn) = atPlace n (roundedPlace (i * unitsPerOne) 1) := by
  by_cases h : dividesExactly (finite false n hn)
  · obtain ⟨b, hb, hb64, hnb, hwhole⟩ := exists_whole_of_dividesExactly hpos h
    exact Or.inl ⟨b, hb, hb64, hnb, fun i => by rw [ofInteger, if_pos h, hwhole]⟩
  · refine Or.inr fun i hi => ?_
    rw [ofInteger, if_neg h, ofFloor_div (isFinite_ofInt hi) (place?_ofInt i) hpos]

theorem ofInteger_mono (h : i ≤ j) (hi : i.natAbs ≤ 2 ^ 64) (hj : j.natAbs ≤ 2 ^ 64)
    (hpos : 0 < n) : ofInteger i (finite false n hn) ≤ ofInteger j (finite false n hn) := by
  rcases ofInteger_cases hn hpos with ⟨b, hb, -, -, hkey⟩ | hkey
  · rw [hkey, hkey]
    exact clamp_mono (Int.ediv_le_ediv (Int.natCast_pos.2 hb) h)
  · rw [hkey i hi, hkey j hj]
    have hmul : i * unitsPerOne ≤ j * unitsPerOne := Int.mul_le_mul_of_nonneg_right h (by omega)
    exact atPlace_mono (roundedPlace_mono hmul Nat.one_pos) hpos

/-- An integer of at most 53 bits has the key of the equal binary64 number. -/
theorem ofInteger_eq_atPlace (hi : i.natAbs ≤ 2 ^ 53) (hpos : 0 < n) :
    ofInteger i (finite false n hn) = atPlace n (i * unitsPerOne) := by
  rcases ofInteger_cases hn hpos with ⟨b, hb, hb64, hnb, hkey⟩ | hkey
  · rw [hkey, atPlace, hnb, roundedPlace_mul_mul _ _ unitsPerOne_pos,
      roundedPlace_whole_ediv hi hb hb64]
  · have hplace := place?_ofInt_of_natAbs_le hi
    rw [place?_ofInt, Option.some.injEq] at hplace
    rw [hkey i (by omega), hplace]

/-! ### Integers against binary64 numbers -/

/-- A quotient is not rounded to less than half of it. -/
theorem lt_roundUnits_mul {num den : Nat} (hden : 0 < den) (h : den ≤ num) :
    num < 2 * roundUnits num den * den := by
  have hq : num / den ≠ 0 := Nat.ne_of_gt (Nat.div_pos h hden)
  have hround := two_pow_log2_le_roundUnits hq
  have hlog : num / den < 2 ^ ((num / den).log2 + 1) := Nat.lt_log2_self
  rw [Nat.pow_succ] at hlog
  calc num < (num / den + 1) * den := (Nat.div_lt_iff_lt_mul hden).1 (Nat.lt_succ_self _)
    _ ≤ 2 * roundUnits num den * den := Nat.mul_le_mul_right _ (by omega)

/-- The places of integers of 64 bits are rounded to places of at most 2⁶⁴. -/
theorem natAbs_roundedPlace_le (hi : i.natAbs ≤ 2 ^ 64) :
    (roundedPlace (i * unitsPerOne) 1).natAbs ≤ 2 ^ 64 * unitsPerOne := by
  have hrep : Representable (2 ^ 64 * unitsPerOne) := by decide +kernel
  have hround : roundUnits (i.natAbs * unitsPerOne) 1 ≤ 2 ^ 64 * unitsPerOne := by
    calc roundUnits (i.natAbs * unitsPerOne) 1 ≤ roundUnits (2 ^ 64 * unitsPerOne * 1) 1 :=
          roundUnits_mono (by rw [Nat.mul_one]; exact Nat.mul_le_mul_right _ hi) Nat.one_pos
      _ = 2 ^ 64 * unitsPerOne := roundUnits_mul_of_dvd hrep.2 Nat.one_pos
  rw [roundedPlace, Int.natAbs_mul, Int.natAbs_natCast, signed]
  split <;> omega

/-- Far beyond the integers of 64 bits a whole bucket size leaves the quotient beyond theirs. -/
theorem lt_roundUnits_mul_of_far {p : Int} {b : Nat} (hb : 0 < b) (hb64 : b ≤ 2 ^ 64)
    (hp : 2 ^ 65 * unitsPerOne ≤ p.natAbs) :
    2 ^ 64 * unitsPerOne < roundUnits p.natAbs b * b := by
  have hU := unitsPerOne_pos
  have := lt_roundUnits_mul hb (show b ≤ p.natAbs by omega)
  rw [Nat.mul_assoc] at this
  omega

theorem ofInteger_le_atPlace_of_far (hi : i.natAbs ≤ 2 ^ 64) (hp : 2 ^ 65 * unitsPerOne ≤ p)
    (hpos : 0 < n) : ofInteger i (finite false n hn) ≤ atPlace n p := by
  have hU : (0 : Int) < unitsPerOne := Int.natCast_pos.2 unitsPerOne_pos
  rcases ofInteger_cases hn hpos with ⟨b, hb, hb64, hnb, hkey⟩ | hkey
  · have hfar := lt_roundUnits_mul_of_far (p := p) hb hb64 (by omega)
    have hquot : i / b * b ≤ i := Int.ediv_mul_le i (by omega)
    rw [hkey, atPlace, hnb, roundedPlace_mul_mul _ _ unitsPerOne_pos,
      roundedPlace_of_nonneg _ (by omega)]
    generalize i / (b : Int) = k at hquot ⊢
    have hsmall : k ≤ 2 ^ 64 := by
      by_contra hk
      have : k * 1 ≤ k * b := Int.mul_le_mul_of_nonneg_left (by omega) (by omega)
      omega
    have hround : k * unitsPerOne * b < roundUnits p.natAbs b * b := by
      have hmul : k * b * unitsPerOne ≤ 2 ^ 64 * unitsPerOne :=
        Int.mul_le_mul_of_nonneg_right (by omega) (by omega)
      zify at hfar
      linarith
    have hle := Int.le_of_lt (Int.lt_of_mul_lt_mul_right hround (by omega))
    exact clamp_mono ((Int.le_ediv_iff_mul_le hU).2
      (Int.le_min.2 ⟨hle, two_pow_mul_le_unitsLimit (by omega)⟩))
  · rw [hkey i hi]
    have := natAbs_roundedPlace_le hi
    exact atPlace_mono (by omega) hpos

theorem atPlace_le_ofInteger_of_far (hi : i.natAbs ≤ 2 ^ 64) (hp : p ≤ -(2 ^ 65 * unitsPerOne))
    (hpos : 0 < n) : atPlace n p ≤ ofInteger i (finite false n hn) := by
  have hU : (0 : Int) < unitsPerOne := Int.natCast_pos.2 unitsPerOne_pos
  rcases ofInteger_cases hn hpos with ⟨b, hb, hb64, hnb, hkey⟩ | hkey
  · have hfar := lt_roundUnits_mul_of_far (p := p) hb hb64 (by omega)
    have hquot : i < (i / b + 1) * b := Int.lt_ediv_add_one_mul_self i (Int.natCast_pos.2 hb)
    have hplace : roundedPlace p b = -min (roundUnits p.natAbs b : Int) unitsLimit := by
      have hneg := roundedPlace_of_nonneg b (show 0 ≤ -p by omega)
      rw [roundedPlace_neg, Int.natAbs_neg] at hneg
      omega
    rw [hkey, atPlace, hnb, roundedPlace_mul_mul _ _ unitsPerOne_pos, hplace]
    refine clamp_mono (Int.le_of_lt_add_one (Int.ediv_lt_of_lt_mul hU ?_))
    generalize i / (b : Int) + 1 = k at hquot ⊢
    have hsmall : -2 ^ 64 < k := by
      by_contra hk
      have : k * b ≤ k * 1 := Int.mul_le_mul_of_nonpos_left (by omega) (by omega)
      omega
    have hround : -k * unitsPerOne * b < roundUnits p.natAbs b * b := by
      have hmul : -(k * b) * unitsPerOne ≤ 2 ^ 64 * unitsPerOne :=
        Int.mul_le_mul_of_nonneg_right (by omega) (by omega)
      zify at hfar
      linarith
    have hlt := Int.lt_of_mul_lt_mul_right hround (by omega)
    have hlow : -k * unitsPerOne < 2 ^ 64 * unitsPerOne :=
      Int.mul_lt_mul_of_pos_right (by omega) hU
    have hlimit := two_pow_mul_le_unitsLimit (i := 2 ^ 64) (by decide)
    have hmin := lt_min hlt (Int.lt_of_lt_of_le hlow hlimit)
    linarith
  · rw [hkey i hi]
    have := natAbs_roundedPlace_le hi
    exact atPlace_mono (by omega) hpos

/-- An integer and the place of a binary64 number that rounding does not take for one another: the
integer has at most 53 bits, or the other number is of another magnitude. -/
def IsClear (i p : Int) : Prop :=
  i.natAbs ≤ 2 ^ 53 ∨ p.natAbs < 2 ^ 53 * unitsPerOne ∨ 2 ^ 65 * unitsPerOne ≤ p.natAbs

instance (i p : Int) : Decidable (IsClear i p) := inferInstanceAs (Decidable (_ ∨ _))

theorem place_of_natAbs_le (hi : i.natAbs ≤ 2 ^ 53) :
    roundedPlace (i * unitsPerOne) 1 = i * unitsPerOne := by
  have hplace := place?_ofInt_of_natAbs_le hi
  rwa [place?_ofInt, Option.some.injEq] at hplace

/-- An integer that is not above a binary64 number has no greater key. -/
theorem ofInteger_le_atPlace (hi : i.natAbs ≤ 2 ^ 64) (hclear : IsClear i p)
    (h : roundedPlace (i * unitsPerOne) 1 ≤ p) (hpos : 0 < n) :
    ofInteger i (finite false n hn) ≤ atPlace n p := by
  have hsmall : ∀ {i : Int}, i.natAbs ≤ 2 ^ 53 → roundedPlace (i * unitsPerOne) 1 ≤ p →
      ofInteger i (finite false n hn) ≤ atPlace n p := by
    intro i hi h
    rw [place_of_natAbs_le hi] at h
    rw [ofInteger_eq_atPlace hi hpos]
    exact atPlace_mono h hpos
  rcases hclear with hbits | hnear | hfar
  · exact hsmall hbits h
  · rcases Int.le_total i (-2 ^ 53) with hle | hge
    · have hend := place_of_natAbs_le (i := -2 ^ 53) (by decide)
      refine le_trans (ofInteger_mono hle hi (by decide) hpos) (hsmall (by decide) ?_)
      omega
    · rcases Int.le_total i (2 ^ 53) with hle' | hge'
      · exact hsmall (by omega) h
      · have hend := place_of_natAbs_le (i := 2 ^ 53) (by decide)
        have hmul : (2 : Int) ^ 53 * unitsPerOne ≤ i * unitsPerOne :=
          Int.mul_le_mul_of_nonneg_right hge' (by omega)
        have := roundedPlace_mono hmul Nat.one_pos
        omega
  · have hround := natAbs_roundedPlace_le hi
    have hU := unitsPerOne_pos
    exact ofInteger_le_atPlace_of_far hi (by omega) hpos

/-- An integer that is not below a binary64 number has no smaller key. -/
theorem atPlace_le_ofInteger (hi : i.natAbs ≤ 2 ^ 64) (hclear : IsClear i p)
    (h : p ≤ roundedPlace (i * unitsPerOne) 1) (hpos : 0 < n) :
    atPlace n p ≤ ofInteger i (finite false n hn) := by
  have hsmall : ∀ {i : Int}, i.natAbs ≤ 2 ^ 53 → p ≤ roundedPlace (i * unitsPerOne) 1 →
      atPlace n p ≤ ofInteger i (finite false n hn) := by
    intro i hi h
    rw [place_of_natAbs_le hi] at h
    rw [ofInteger_eq_atPlace hi hpos]
    exact atPlace_mono h hpos
  rcases hclear with hbits | hnear | hfar
  · exact hsmall hbits h
  · rcases Int.le_total (2 ^ 53) i with hge | hle
    · have hend := place_of_natAbs_le (i := 2 ^ 53) (by decide)
      refine le_trans (hsmall (by decide) ?_) (ofInteger_mono hge (by decide) hi hpos)
      omega
    · rcases Int.le_total (-2 ^ 53) i with hge' | hle'
      · exact hsmall (by omega) h
      · have hend := place_of_natAbs_le (i := -2 ^ 53) (by decide)
        have hmul : i * unitsPerOne ≤ -(2 : Int) ^ 53 * unitsPerOne :=
          Int.mul_le_mul_of_nonneg_right hle' (by omega)
        have := roundedPlace_mono hmul Nat.one_pos
        omega
  · have hround := natAbs_roundedPlace_le hi
    have hU := unitsPerOne_pos
    exact atPlace_le_ofInteger_of_far hi (by omega) hpos

end Key

end BucketPlanner
