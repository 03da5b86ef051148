import BucketPlanner.Bucket.Key

/-!
# Key ranges

A key range holds the keys from `low` to `high`, both ends included. It is empty when the ends are
out of order, and `KeyRange.empty` is such a range that stays empty under intersection.
-/

namespace BucketPlanner

/-- The keys from `low` to `high`. -/
structure KeyRange where
  low : Key
  high : Key
  deriving DecidableEq, Inhabited

namespace KeyRange

instance : Membership Key KeyRange := ⟨fun r k => r.low ≤ k ∧ k ≤ r.high⟩

instance (k : Key) (r : KeyRange) : Decidable (k ∈ r) :=
  inferInstanceAs (Decidable (r.low ≤ k ∧ k ≤ r.high))

/-- The range of one key. -/
def point (k : Key) : KeyRange := ⟨k, k⟩

/-- A range without keys. -/
def empty : KeyRange := ⟨.greatest, .least⟩

/-- The ends are in order, so the range holds a key. -/
def isValid (r : KeyRange) : Bool := r.low ≤ r.high

/-- The keys that both ranges hold. -/
def intersect (r s : KeyRange) : KeyRange := ⟨max r.low s.low, min r.high s.high⟩

/-- The range as messages show it. -/
def render (r : KeyRange) : String := s!"[{r.low}, {r.high}]"

instance : ToString KeyRange := ⟨render⟩

/-- The range as a JSON object, with ends of any size as numbers. -/
def renderJson (r : KeyRange) : String := "\x7b\"low\":" ++ r.low.render ++ ",\"high\":" ++ r.high.render ++ "\x7d"

theorem mem_iff {k : Key} {r : KeyRange} : k ∈ r ↔ r.low.val ≤ k.val ∧ k.val ≤ r.high.val := Iff.rfl

end KeyRange

end BucketPlanner
