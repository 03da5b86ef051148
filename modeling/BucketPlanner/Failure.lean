/-!
# Failures

A computation that adds up sizes ends without a result in one of two ways: with an error, which is
reported to the user, or because a sum does not fit into 64 bits, which ends the program at once.
-/

namespace BucketPlanner

/-- Why there is no result. -/
inductive Failure (ε : Type)
  /-- An error that is reported. -/
  | reported (e : ε)
  /-- A sum does not fit into 64 bits. -/
  | overflow

namespace Failure

/-- The failure with its error as one of a wider kind. -/
def map {ε ε' : Type} (f : ε → ε') : Failure ε → Failure ε'
  | reported e => reported (f e)
  | overflow => overflow

end Failure

/-- The sum of two sizes. -/
def addSizes {ε : Type} (a b : UInt64) : Except (Failure ε) UInt64 :=
  if a.toNat + b.toNat < UInt64.size then .ok (a + b) else .error .overflow

end BucketPlanner
