/-!
# Rounding a quotient of natural numbers

`roundHalfEven num den` is the natural number nearest to `num / den`, a half going to the even
neighbour. The lemmas say that it is the floor of the quotient or the number after it, and that a
quotient which is whole is not changed.
-/

-- Powers of numbers are the plain ones, also where those of monoids are known.
attribute [instance (high), default_instance (high + 1)] instPowNat

namespace BucketPlanner

/-- The natural number nearest to `num / den`; a half goes to the even neighbour. -/
def roundHalfEven (num den : Nat) : Nat :=
  if 2 * (num % den) < den ∨ 2 * (num % den) = den ∧ num / den % 2 = 0 then num / den
  else num / den + 1

theorem le_roundHalfEven (num den : Nat) : num / den ≤ roundHalfEven num den := by
  unfold roundHalfEven
  split <;> omega

theorem roundHalfEven_le (num den : Nat) : roundHalfEven num den ≤ num / den + 1 := by
  unfold roundHalfEven
  split <;> omega

/-- A whole quotient is not changed. -/
theorem roundHalfEven_mul (k : Nat) {den : Nat} (h : 0 < den) : roundHalfEven (k * den) den = k := by
  simp [roundHalfEven, Nat.mul_div_cancel k h, h]

end BucketPlanner
