import BucketPlanner.Number.Rounding

/-!
# Binary floating-point numbers of 64 bits

Every finite number of the binary64 format is a whole number of units of 2⁻¹⁰⁷⁴, so a finite
number is kept here as a sign and a natural number of units. The numbers of units that the format
has are those of at most 53 significant bits below 2²⁰⁹⁸ (`Representable`). Arithmetic is done on
exact quotients of natural numbers and rounded once, to the nearest number of the format with ties
to even (`Binary64.ofQuotient`).
-/

namespace BucketPlanner

/-- The number of units of 2⁻¹⁰⁷⁴ that make one. -/
@[irreducible] def unitsPerOne : Nat := 2 ^ 1074

/-- The distance, in units, between neighbouring numbers of the format from `n` units upwards. -/
def spacing (n : Nat) : Nat := 2 ^ (n.log2 - 52)

/-- The first number of units that is too large for the format. -/
@[irreducible] def unitsLimit : Nat := 2 ^ 2098

theorem unitsLimit_pos : 0 < unitsLimit := by decide +kernel

/-- The magnitudes of the format: at most 53 significant bits, below 2²⁰⁹⁸ units. -/
def Representable (n : Nat) : Prop := n < unitsLimit ∧ spacing n ∣ n

instance (n : Nat) : Decidable (Representable n) := inferInstanceAs (Decidable (_ ∧ _))

theorem representable_zero : Representable 0 := ⟨unitsLimit_pos, Nat.dvd_zero _⟩

/-- The multiple of the spacing that is nearest to `num / den` units, ties to even. -/
def roundUnits (num den : Nat) : Nat :=
  roundHalfEven num (den * spacing (num / den)) * spacing (num / den)

theorem roundHalfEven_spacing_le (num den : Nat) :
    roundHalfEven num (den * spacing (num / den)) ≤ 2 ^ 53 := by
  refine Nat.le_trans (roundHalfEven_le _ _) ?_
  have h : num / (den * spacing (num / den)) < 2 ^ 53 := by
    rw [← Nat.div_div_eq_div_mul, spacing, Nat.div_lt_iff_lt_mul (Nat.two_pow_pos _), ← Nat.pow_add]
    refine Nat.lt_of_lt_of_le Nat.lt_log2_self (Nat.pow_le_pow_right (by decide) ?_)
    omega
  exact h

/-- At most 2⁵³ multiples of a power of two have at most 53 significant bits. -/
theorem spacing_dvd_mul_two_pow {k : Nat} (s : Nat) (h : k ≤ 2 ^ 53) :
    spacing (k * 2 ^ s) ∣ k * 2 ^ s := by
  rcases Nat.eq_zero_or_pos k with rfl | hk
  · simp
  rcases Nat.lt_or_eq_of_le h with h | rfl
  · have hpos : k * 2 ^ s ≠ 0 := Nat.ne_of_gt (Nat.mul_pos hk (Nat.two_pow_pos s))
    have hlog : (k * 2 ^ s).log2 < 53 + s := by
      rw [Nat.log2_lt hpos, Nat.pow_add]
      exact Nat.mul_lt_mul_of_pos_right h (Nat.two_pow_pos s)
    exact Nat.dvd_trans (Nat.pow_dvd_pow 2 (by omega)) (Nat.dvd_mul_left _ _)
  · rw [← Nat.pow_add, spacing, Nat.log2_two_pow]
    exact Nat.pow_dvd_pow 2 (by omega)

theorem representable_roundUnits {num den : Nat} (h : roundUnits num den < unitsLimit) :
    Representable (roundUnits num den) :=
  ⟨h, spacing_dvd_mul_two_pow _ (roundHalfEven_spacing_le num den)⟩

/-- A binary64 number: not a number, an infinity, or a sign and a magnitude in units of 2⁻¹⁰⁷⁴. -/
inductive Binary64
  | nan
  | infinite (negative : Bool)
  | finite (negative : Bool) (units : Nat) (representable : Representable units)
  deriving DecidableEq

namespace Binary64

/-- The number nearest to `num / den` units with the given sign; an infinity beyond the largest. -/
def ofUnitsQuotient (negative : Bool) (num den : Nat) : Binary64 :=
  if h : roundUnits num den < unitsLimit then
    finite negative (roundUnits num den) (representable_roundUnits h)
  else infinite negative

/-- The number nearest to the quotient `num / den` with the given sign. -/
def ofQuotient (negative : Bool) (num den : Nat) : Binary64 :=
  ofUnitsQuotient negative (num * unitsPerOne) den

/-- Zero with the given sign. -/
def zero (negative : Bool) : Binary64 := finite negative 0 representable_zero

/-- The number nearest to a natural number. -/
def ofNat (n : Nat) : Binary64 := ofQuotient false n 1

/-- The number nearest to an integer. -/
def ofInt (i : Int) : Binary64 := ofQuotient (i < 0) i.natAbs 1

instance : Inhabited Binary64 := ⟨zero false⟩

/-- The greatest finite number. -/
def greatest : Binary64 := ofNat ((2 ^ 53 - 1) * 2 ^ 971)

/-- The greatest finite number of the format of 32 bits. -/
def greatestSingle : Binary64 := ofNat ((2 ^ 24 - 1) * 2 ^ 104)

/-- Neither an infinity nor "not a number". -/
def isFinite : Binary64 → Bool
  | finite .. => true
  | _ => false

/-- The place on the extended line, in units; the infinities lie beyond every finite number. -/
def place? : Binary64 → Option Int
  | nan => none
  | infinite false => some unitsLimit
  | infinite true => some (-unitsLimit)
  | finite false n _ => some n
  | finite true n _ => some (-n)

/-- The numeric order. Both zeros are equal, and what is not a number is not compared. -/
def compare? (x y : Binary64) : Option Ordering :=
  match x.place?, y.place? with
  | some i, some j => some (compare i j)
  | _, _ => none

/-- Numeric equality: both zeros are equal and what is not a number equals nothing. -/
def equals (x y : Binary64) : Bool := x.compare? y = some .eq

/-- The numeric order as a test. -/
def atMost (x y : Binary64) : Bool := x.compare? y = some .lt || x.compare? y = some .eq

/-- Above zero. -/
def isPositive : Binary64 → Bool
  | infinite negative => !negative
  | finite negative n _ => !negative && n != 0
  | nan => false

/-- Finite and without a fractional part. -/
def isWhole : Binary64 → Bool
  | finite _ n _ => n % unitsPerOne == 0
  | _ => false

/-- The number with the other sign. -/
def neg : Binary64 → Binary64
  | nan => nan
  | infinite negative => infinite !negative
  | finite negative n h => finite (!negative) n h

/-- The product, rounded to the nearest. -/
def mul : Binary64 → Binary64 → Binary64
  | finite s m _, finite t n _ => ofUnitsQuotient (s != t) (m * n) unitsPerOne
  | infinite s, infinite t => infinite (s != t)
  | infinite s, finite t n _ => if n = 0 then nan else infinite (s != t)
  | finite s m _, infinite t => if m = 0 then nan else infinite (s != t)
  | _, _ => nan

/-- The quotient, rounded to the nearest; a zero divisor gives an infinity. -/
def div : Binary64 → Binary64 → Binary64
  | finite s m _, finite t n _ =>
    if n = 0 then if m = 0 then nan else infinite (s != t)
    else ofUnitsQuotient (s != t) (m * unitsPerOne) n
  | infinite s, finite t _ _ => infinite (s != t)
  | finite s _ _, infinite t => zero (s != t)
  | _, _ => nan

/-- The whole number made of the magnitude rounded down or up, with the sign kept. -/
private def toWhole (up negative : Bool) (n : Nat) : Binary64 :=
  ofQuotient negative (if up then (n + (unitsPerOne - 1)) / unitsPerOne else n / unitsPerOne) 1

/-- The greatest whole number that is not above. -/
def floor : Binary64 → Binary64
  | finite negative n _ => toWhole negative negative n
  | x => x

/-- The least whole number that is not below. -/
def ceil : Binary64 → Binary64
  | finite negative n _ => toWhole (!negative) negative n
  | x => x

/-- The integer part, kept between `low` and `high`; zero for what is not a number. -/
def toIntWithin (low high : Int) : Binary64 → Int
  | nan => 0
  | infinite negative => if negative then low else high
  | finite negative n _ =>
    let i : Int := n / unitsPerOne
    max low (min high (if negative then -i else i))

end Binary64

end BucketPlanner
