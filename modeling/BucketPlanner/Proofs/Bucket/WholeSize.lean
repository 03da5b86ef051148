import BucketPlanner.Proofs.Value.Order

/-!
# Keys for whole bucket sizes

Buckets whose size is a whole number divide integers exactly, however large the size is. Binary64
numbers are divided by them with rounding, so their keys may leave the floor of the exact quotient:

* `Key.ofInteger_whole`: the key of an integer is the floor of the exact quotient;
* `Key.atPlace_le_of_le`, `Key.le_atPlace_of_le`: a binary64 number of at most 53 bits, or one that is
  not divided, has its key on the same side of the keys of integers as it has its place;
* `Value.exists_key?_of_integer?`, `Value.key?_float_whole`: so much for the keys of values, of which
  integers in buckets of one are a case (`Value.exists_key?_unit`);
* `Value.exists_key?_le`, `Value.exists_le_key?`: the key of an exactly keyed number against the keys of
  integers.
-/

namespace BucketPlanner

open Binary64

/-- The bucket size is a whole number. -/
def Key.IsWholeSize (bucketSize : Binary64) (b : Nat) : Prop :=
  Key.isBucketSize bucketSize ∧ bucketSize.place? = some ((b * unitsPerOne : Nat) : Int)

instance (bucketSize : Binary64) (b : Nat) : Decidable (Key.IsWholeSize bucketSize b) :=
  inferInstanceAs (Decidable (_ ∧ _))

/-! ### Quotients by large whole numbers -/

section Large

variable {b : Nat} {q : Int}

/-- A whole number of the format beyond 2⁶⁴ is at least the next one. -/
theorem le_of_representable (hb : 2 ^ 64 < b) (h : Representable (b * unitsPerOne)) :
    2 ^ 64 + 2 ^ 12 ≤ b := by
  have hlog : 64 ≤ b.log2 := (Nat.le_log2 (by omega)).2 (by omega)
  have hdvd : 2 ^ 12 * unitsPerOne ∣ b * unitsPerOne := by
    refine Nat.dvd_trans ?_ h.2
    rw [spacing, log2_mul_unitsPerOne (by omega)]
    obtain ⟨e, he, hone⟩ := unitsPerOne_eq_two_pow
    rw [hone, ← Nat.pow_add]
    exact Nat.pow_dvd_pow 2 (by omega)
  have := Nat.dvd_of_mul_dvd_mul_right unitsPerOne_pos hdvd
  omega

/-- The number of the format below one. -/
theorem exists_pred_one : ∃ d, unitsPerOne = 2 ^ 53 * d ∧ Representable ((2 ^ 53 - 1) * d) :=
  ⟨2 ^ 1021, by decide +kernel, by decide +kernel⟩

/-- The quotient of a number up to 2⁶⁴ by a larger whole number is rounded to less than one. -/
theorem roundedPlace_lt_one (hb : 2 ^ 64 < b) (h : Representable (b * unitsPerOne))
    (hq : q ≤ 2 ^ 64 * unitsPerOne) : roundedPlace q b < unitsPerOne := by
  have hle := le_of_representable hb h
  obtain ⟨d, hd, hpred⟩ := exists_pred_one
  have hU := unitsPerOne_pos
  have hquot : q ≤ ((2 ^ 53 - 1) * d : Nat) * b := by
    have hprod : 2 ^ 64 * (2 ^ 53 * d) ≤ (2 ^ 53 - 1) * d * b := by
      calc 2 ^ 64 * (2 ^ 53 * d) = 2 ^ 117 * d := by ring
        _ ≤ (2 ^ 53 - 1) * (2 ^ 64 + 2 ^ 12) * d := Nat.mul_le_mul_right _ (by decide)
        _ ≤ (2 ^ 53 - 1) * b * d := Nat.mul_le_mul_right _ (Nat.mul_le_mul_left _ hle)
        _ = (2 ^ 53 - 1) * d * b := by ring
    rw [← hd] at hprod
    exact Int.le_trans hq (by exact_mod_cast hprod)
  have hround := roundedPlace_mono hquot (show 0 < b by omega)
  rw [roundedPlace_mul (by rwa [Int.natAbs_natCast]) (by omega)] at hround
  omega

/-- A whole number of the format is far smaller than the number of units in one. -/
theorem le_unitsPerOne_of_representable (h : Representable (b * unitsPerOne)) :
    b ≤ unitsPerOne := by
  have hlimit : unitsLimit ≤ unitsPerOne * unitsPerOne := by decide +kernel
  exact Nat.le_of_mul_le_mul_right (Nat.le_trans (Nat.le_of_lt h.1) hlimit) unitsPerOne_pos

/-- The quotient of a negative whole number from -2⁶⁴ by a larger one is rounded to a number from
minus one to below zero. -/
theorem roundedPlace_of_negative (hb : 2 ^ 64 < b) (h : Representable (b * unitsPerOne))
    (hlow : -(2 ^ 64 * unitsPerOne) ≤ q) (hhigh : q ≤ -unitsPerOne) :
    -(unitsPerOne : Int) ≤ roundedPlace q b ∧ roundedPlace q b < 0 := by
  have hU := unitsPerOne_pos
  have hone : Representable (-(unitsPerOne : Int)).natAbs := by
    rw [Int.natAbs_neg, Int.natAbs_natCast]
    simpa using representable_mul_unitsPerOne (show 1 ≤ 2 ^ 53 by decide)
  have hunit : Representable (-1 : Int).natAbs := by decide +kernel
  constructor
  · have hquot : -(unitsPerOne : Int) * b ≤ q := by
      have hprod : 2 ^ 64 * unitsPerOne ≤ b * unitsPerOne := Nat.mul_le_mul_right _ (by omega)
      zify at hprod
      linarith
    have hround := roundedPlace_mono hquot (show 0 < b by omega)
    rwa [roundedPlace_mul hone (by omega)] at hround
  · have hquot : q ≤ -1 * b := by
      have := le_unitsPerOne_of_representable h
      omega
    have hround := roundedPlace_mono hquot (show 0 < b by omega)
    rw [roundedPlace_mul hunit (by omega)] at hround
    omega

end Large

/-! ### Keys of integers -/

namespace Key

variable {s : Binary64} {b : Nat} {i j p : Int}

theorem val_clamp_ediv (hi : i.natAbs ≤ 2 ^ 64) (b : Nat) : (clamp (i / b)).val = i / b := by
  have hquot := Int.natAbs_ediv_le_natAbs i b
  simp only [clamp]
  omega

theorem IsWholeSize.exists_units (hs : IsWholeSize s b) :
    ∃ h : Representable (b * unitsPerOne), s = finite false (b * unitsPerOne) h ∧ 0 < b := by
  obtain ⟨hsize, hplace⟩ := hs
  obtain ⟨n, hn, rfl, hpos⟩ := exists_units_of_isBucketSize hsize
  rw [place?_finite, Option.some.injEq, signed, if_neg (by simp), Int.natCast_inj] at hplace
  subst hplace
  exact ⟨hn, rfl, Nat.pos_of_mul_pos_right hpos⟩

theorem IsWholeSize.ediv_le_ediv (hs : IsWholeSize s b) (h : i ≤ j) : i / b ≤ j / b := by
  obtain ⟨-, -, hpos⟩ := hs.exists_units
  exact Int.ediv_le_ediv (Int.natCast_pos.2 hpos) h

/-- A whole bucket size that does not divide exactly is beyond 2⁶⁴. -/
theorem lt_of_not_dividesExactly {h : Representable (b * unitsPerOne)}
    (hdiv : ¬ dividesExactly (finite false (b * unitsPerOne) h)) : 2 ^ 64 < b := by
  have hU : (0 : Int) < unitsPerOne := Int.natCast_pos.2 unitsPerOne_pos
  have hrep : Representable (2 ^ 64 * unitsPerOne) := by decide +kernel
  have hwhole : (finite false (b * unitsPerOne) h).isWhole := by simp [isWhole]
  rw [dividesExactly, hwhole, Bool.true_and,
    atMost_iff (place?_finite ..) (place?_ofNat_of_representable hrep), signed,
    if_neg (by simp)] at hdiv
  push_cast at hdiv
  exact_mod_cast Int.lt_of_mul_lt_mul_right (not_le.1 hdiv) (Int.le_of_lt hU)

/-- Integers of 64 bits fall into the buckets before and after zero when the size is larger. -/
theorem roundedPlace_ediv_of_large (hb : 2 ^ 64 < b) (h : Representable (b * unitsPerOne))
    (hi : i.natAbs ≤ 2 ^ 64) :
    roundedPlace (roundedPlace (i * unitsPerOne) 1) b / unitsPerOne = i / b := by
  have hU : (0 : Int) < unitsPerOne := Int.natCast_pos.2 unitsPerOne_pos
  have hplace := natAbs_roundedPlace_le hi
  rcases lt_or_ge i 0 with hneg | hnonneg
  · have hquot : i / b = -1 :=
      Int.ediv_eq_iff_of_pos (by omega) |>.2 ⟨by omega, by omega⟩
    have hle : roundedPlace (i * unitsPerOne) 1 ≤ -unitsPerOne := by
      have hmono : i * unitsPerOne ≤ -1 * unitsPerOne :=
        Int.mul_le_mul_of_nonneg_right (by omega) (by omega)
      have hround := roundedPlace_mono hmono Nat.one_pos
      have hend := place_of_natAbs_le (i := -1) (by decide)
      rw [hend, Int.neg_one_mul] at hround
      exact hround
    obtain ⟨hlow, hhigh⟩ := roundedPlace_of_negative hb h (by omega) hle
    rw [hquot]
    exact Int.ediv_eq_iff_of_pos hU |>.2 ⟨by omega, by omega⟩
  · have hquot : i / b = 0 := Int.ediv_eq_zero_of_lt hnonneg (by omega)
    have hlow := roundedPlace_nonneg 1 (Int.mul_nonneg hnonneg (Int.le_of_lt hU))
    have hlow' := roundedPlace_nonneg b hlow
    have hhigh := roundedPlace_lt_one hb h (show roundedPlace (i * unitsPerOne) 1 ≤ _ by omega)
    rw [hquot]
    exact Int.ediv_eq_zero_of_lt hlow' hhigh

/-- **The key of an integer** is the floor of the exact quotient, for every whole bucket size. -/
theorem ofInteger_whole (hs : IsWholeSize s b) (hi : i.natAbs ≤ 2 ^ 64) :
    ofInteger i s = clamp (i / b) := by
  obtain ⟨h, rfl, hpos⟩ := hs.exists_units
  have hU := unitsPerOne_pos
  have hunits : 0 < b * unitsPerOne := Nat.mul_pos hpos hU
  by_cases hdiv : dividesExactly (finite false (b * unitsPerOne) h)
  · obtain ⟨b', -, -, hb', hwhole⟩ := exists_whole_of_dividesExactly hunits hdiv
    obtain rfl := Nat.eq_of_mul_eq_mul_right hU hb'
    rw [ofInteger, if_pos hdiv, hwhole]
  · rw [ofInteger, if_neg hdiv, ofFloor_div (isFinite_ofInt hi) (place?_ofInt i) hunits, atPlace,
      roundedPlace_mul_mul _ _ hU, roundedPlace_ediv_of_large (lt_of_not_dividesExactly hdiv) h hi]

/-! ### Keys of places -/

/-- The whole number at a place of at most 53 bits has the key of the exact quotient. -/
theorem atPlace_whole (hs : IsWholeSize s b) (hj : j.natAbs ≤ 2 ^ 53) :
    atPlace (b * unitsPerOne) (j * unitsPerOne) = clamp (j / b) := by
  rw [← ofInteger_whole hs (by omega)]
  obtain ⟨h, rfl, hpos⟩ := hs.exists_units
  exact (ofInteger_eq_atPlace hj (Nat.mul_pos hpos unitsPerOne_pos)).symm

/-- In buckets of one, numbers of the format are not divided. -/
theorem atPlace_one (hp : Representable p.natAbs) :
    atPlace (1 * unitsPerOne) p = clamp (p / unitsPerOne) := by
  rw [atPlace, Nat.one_mul, roundedPlace_mul hp unitsPerOne_pos]

/-- Dividing the number at a place by the bucket size does not carry it past an integer: it is not
divided, or it has at most 53 bits in front of the point. -/
def IsFine (b : Nat) (p : Int) : Prop := b = 1 ∨ p.natAbs ≤ 2 ^ 53 * unitsPerOne

instance (b : Nat) (p : Int) : Decidable (IsFine b p) := inferInstanceAs (Decidable (_ ∨ _))

/-- The whole part of a place of at most 53 bits. -/
theorem natAbs_ediv_unitsPerOne_le (h : p.natAbs ≤ 2 ^ 53 * unitsPerOne) :
    (p / unitsPerOne).natAbs ≤ 2 ^ 53 := by
  have hU : (0 : Int) < unitsPerOne := Int.natCast_pos.2 unitsPerOne_pos
  have hlow : -2 ^ 53 ≤ p / unitsPerOne := (Int.le_ediv_iff_mul_le hU).2 (by omega)
  have hhigh : p / unitsPerOne ≤ 2 ^ 53 := Int.ediv_le_of_le_mul hU (by omega)
  omega

/-- **The key of a number that is not above an integer** is not above the integer's. -/
theorem atPlace_le_of_le (hs : IsWholeSize s b) (hp : Representable p.natAbs) (hfine : IsFine b p)
    (hi : i.natAbs ≤ 2 ^ 64) (h : p ≤ i * unitsPerOne) :
    (atPlace (b * unitsPerOne) p).val ≤ i / b := by
  have hU : (0 : Int) < unitsPerOne := Int.natCast_pos.2 unitsPerOne_pos
  obtain ⟨-, -, hpos⟩ := hs.exists_units
  rw [← val_clamp_ediv hi b]
  rcases hfine with rfl | hsmall
  · rw [atPlace_one hp, Nat.cast_one, Int.ediv_one]
    refine clamp_mono (Int.le_of_lt_add_one (Int.ediv_lt_of_lt_mul hU ?_))
    linarith
  · -- The least whole number that is not below stands in between.
    have hji : -i ≤ -p / unitsPerOne := (Int.le_ediv_iff_mul_le hU).2 (by linarith)
    have hlow := Int.ediv_mul_le (-p) (show (unitsPerOne : Int) ≠ 0 by omega)
    have hj := natAbs_ediv_unitsPerOne_le (p := -p) (by rwa [Int.natAbs_neg])
    rw [← Int.natAbs_neg] at hj
    have hle : atPlace (b * unitsPerOne) p ≤
        atPlace (b * unitsPerOne) (-(-p / unitsPerOne) * unitsPerOne) :=
      atPlace_mono (by linarith) (Nat.mul_pos hpos unitsPerOne_pos)
    rw [atPlace_whole hs hj] at hle
    exact le_trans hle (clamp_mono (hs.ediv_le_ediv (by omega)))

/-- **The key of a number that is not below an integer** is not below the integer's. -/
theorem le_atPlace_of_le (hs : IsWholeSize s b) (hp : Representable p.natAbs) (hfine : IsFine b p)
    (hi : i.natAbs ≤ 2 ^ 64) (h : i * unitsPerOne ≤ p) :
    i / b ≤ (atPlace (b * unitsPerOne) p).val := by
  have hU : (0 : Int) < unitsPerOne := Int.natCast_pos.2 unitsPerOne_pos
  obtain ⟨-, -, hpos⟩ := hs.exists_units
  rw [← val_clamp_ediv hi b]
  have hij : i ≤ p / unitsPerOne := (Int.le_ediv_iff_mul_le hU).2 h
  rcases hfine with rfl | hsmall
  · rw [atPlace_one hp, Nat.cast_one, Int.ediv_one]
    exact clamp_mono hij
  · -- The greatest whole number that is not above stands in between.
    have hle : atPlace (b * unitsPerOne) (p / unitsPerOne * unitsPerOne) ≤
        atPlace (b * unitsPerOne) p :=
      atPlace_mono (Int.ediv_mul_le p (by omega)) (Nat.mul_pos hpos unitsPerOne_pos)
    rw [atPlace_whole hs (natAbs_ediv_unitsPerOne_le hsmall)] at hle
    exact le_trans (clamp_mono (hs.ediv_le_ediv hij)) hle

/-- In buckets of one, a number below an integer has a smaller key. -/
theorem atPlace_one_lt_of_lt (hp : Representable p.natAbs) (hi : i.natAbs ≤ 2 ^ 64)
    (h : p < i * unitsPerOne) : (atPlace (1 * unitsPerOne) p).val < i := by
  have hU : (0 : Int) < unitsPerOne := Int.natCast_pos.2 unitsPerOne_pos
  have hlt := Int.ediv_lt_of_lt_mul hU h
  rw [atPlace_one hp]
  simp only [clamp]
  omega

/-- In buckets of one, a whole number above an integer has a greater key. -/
theorem lt_atPlace_one_of_lt (hp : Representable p.natAbs) (hwhole : (unitsPerOne : Int) ∣ p)
    (hi : i.natAbs ≤ 2 ^ 64) (h : i * unitsPerOne < p) : i < (atPlace (1 * unitsPerOne) p).val := by
  have hU : (0 : Int) < unitsPerOne := Int.natCast_pos.2 unitsPerOne_pos
  rw [atPlace_one hp]
  obtain ⟨j, rfl⟩ := hwhole
  rw [Int.mul_comm] at h
  have hlt := Int.lt_of_mul_lt_mul_left h (Int.le_of_lt hU)
  rw [Int.mul_ediv_cancel_left _ (by omega)]
  simp only [clamp]
  omega

end Key

/-! ### Keys of values -/

theorem Binary64.representable_of_place? {x : Binary64} {p : Int} (hx : x.isFinite)
    (hp : x.place? = some p) : Representable p.natAbs := by
  cases x with
  | nan | infinite => simp [isFinite] at hx
  | finite negative n h =>
    rw [place?_finite, Option.some.injEq] at hp
    subst hp
    cases negative <;> simpa [signed] using h

namespace Value

variable {v w : Value} {s x : Binary64} {b : Nat} {i p q : Int}

/-- **The key of an integer value** is the floor of the exact quotient. -/
theorem exists_key?_of_integer? (hs : Key.IsWholeSize s b) (h : v.integer? = some i) :
    ∃ k, v.key? s = some k ∧ k.val = i / b := by
  have hi := natAbs_le_of_integer? h
  refine ⟨_, key?_of_integer? h hs.1, ?_⟩
  rw [Key.ofInteger_whole hs hi, Key.val_clamp_ediv hi]

/-- In buckets of one an integer is its own key. -/
theorem exists_key?_unit (h : v.integer? = some i) :
    ∃ k, v.key? (.ofNat 1) = some k ∧ k.val = i := by
  have hunit : Key.IsWholeSize (.ofNat 1) 1 := by decide +kernel
  simpa using exists_key?_of_integer? hunit h

/-- The key of a finite number is the floor of the rounded quotient. -/
theorem key?_float_whole (hs : Key.IsWholeSize s b) (hx : x.isFinite) (hp : x.place? = some p) :
    (float x).key? s = some (Key.atPlace (b * unitsPerOne) p) := by
  rw [key?_float hs.1, if_pos hx]
  obtain ⟨h, rfl, hpos⟩ := hs.exists_units
  rw [Key.ofFloor_div hx hp (Nat.mul_pos hpos unitsPerOne_pos)]

/-! ### Keys of numbers against integers -/

/-- The place of a number on the line of units; integers are not rounded. -/
def exactPlace? : Value → Option Int
  | .float x => x.place?
  | v => v.integer?.map (· * unitsPerOne)

/-- The key of the number stays on its side of the keys of integers: it is an integer itself, or a finite
number that is fine enough to be divided. -/
def IsKeyedExactly (v : Value) (b : Nat) : Prop :=
  match v with
  | .float x => x.isFinite ∧ ∀ p ∈ x.place?, Key.IsFine b p
  | _ => True

instance (v : Value) (b : Nat) : Decidable (v.IsKeyedExactly b) := by
  unfold IsKeyedExactly
  split <;> infer_instance

/-- Numbers are integers or binary64 numbers. -/
theorem exactPlace?_cases (h : v.exactPlace? = some q) :
    (∃ j, v.integer? = some j ∧ q = j * unitsPerOne) ∨ ∃ x, v = .float x ∧ x.place? = some q := by
  cases v with
  | float x => exact Or.inr ⟨x, rfl, h⟩
  | int | uint => exact Or.inl ⟨_, rfl, (Option.some.inj h).symm⟩
  | bool | text => simp [exactPlace?, integer?] at h

/-- A number that is keyed exactly and not above an integer has no greater key. -/
theorem exists_key?_le (hs : Key.IsWholeSize s b) (hw : w.IsKeyedExactly b)
    (hq : w.exactPlace? = some q) (hi : i.natAbs ≤ 2 ^ 64) (h : q ≤ i * unitsPerOne) :
    ∃ k ∈ w.key? s, k.val ≤ i / b := by
  have hU : (0 : Int) < unitsPerOne := Int.natCast_pos.2 unitsPerOne_pos
  rcases exactPlace?_cases hq with ⟨j, hj, rfl⟩ | ⟨x, rfl, hp⟩
  · obtain ⟨k, hk, hkj⟩ := exists_key?_of_integer? hs hj
    refine ⟨k, hk, ?_⟩
    rw [hkj]
    exact hs.ediv_le_ediv (Int.le_of_mul_le_mul_right h hU)
  · obtain ⟨hx, hfine⟩ := hw
    exact ⟨_, key?_float_whole hs hx hp,
      Key.atPlace_le_of_le hs (Binary64.representable_of_place? hx hp) (hfine q hp) hi h⟩

/-- A number that is keyed exactly and not below an integer has no smaller key. -/
theorem exists_le_key? (hs : Key.IsWholeSize s b) (hw : w.IsKeyedExactly b)
    (hq : w.exactPlace? = some q) (hi : i.natAbs ≤ 2 ^ 64) (h : i * unitsPerOne ≤ q) :
    ∃ k ∈ w.key? s, i / b ≤ k.val := by
  have hU : (0 : Int) < unitsPerOne := Int.natCast_pos.2 unitsPerOne_pos
  rcases exactPlace?_cases hq with ⟨j, hj, rfl⟩ | ⟨x, rfl, hp⟩
  · obtain ⟨k, hk, hkj⟩ := exists_key?_of_integer? hs hj
    refine ⟨k, hk, ?_⟩
    rw [hkj]
    exact hs.ediv_le_ediv (Int.le_of_mul_le_mul_right h hU)
  · obtain ⟨hx, hfine⟩ := hw
    exact ⟨_, key?_float_whole hs hx hp,
      Key.le_atPlace_of_le hs (Binary64.representable_of_place? hx hp) (hfine q hp) hi h⟩

/-- A finite number is keyed exactly when it has at most 53 bits in front of the point. -/
theorem isKeyedExactly_of_place? (hp : x.place? = some q) (hq : q.natAbs ≤ 2 ^ 53 * unitsPerOne) :
    (float x).IsKeyedExactly b := by
  have hlimit := (representable_mul_unitsPerOne (Nat.le_refl (2 ^ 53))).1
  refine ⟨(Binary64.isFinite_iff_place? x).2 ⟨q, hp, by omega⟩, fun p hp' => ?_⟩
  obtain rfl := Option.mem_unique hp' hp
  exact Or.inr hq

end Value

end BucketPlanner
