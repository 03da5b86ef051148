import BucketPlanner.Value.Basic

/-!
# Keys of values

A bucketized index knows a value by its key, the number of the bucket that it falls into: for a
bucket size `b`, the value `v` has the key `⌊v / b⌋`. Keys are integers of 128 bits, so that the
keys of all 64-bit integers have neighbours. Integers are divided exactly by a whole bucket size up
to 2⁶⁴; all other quotients are binary64 numbers.
-/

namespace BucketPlanner

/-- A key: an integer of 128 bits. -/
structure Key where
  val : Int
  lower : -2 ^ 127 ≤ val
  upper : val < 2 ^ 127
  deriving DecidableEq

namespace Key

theorem ext {a b : Key} (h : a.val = b.val) : a = b := by
  cases a; cases b; cases h; rfl

instance : LE Key := ⟨fun a b => a.val ≤ b.val⟩
instance : LT Key := ⟨fun a b => a.val < b.val⟩
instance : Ord Key := ⟨fun a b => compare a.val b.val⟩
instance (a b : Key) : Decidable (a ≤ b) := inferInstanceAs (Decidable (a.val ≤ b.val))
instance (a b : Key) : Decidable (a < b) := inferInstanceAs (Decidable (a.val < b.val))
instance : Max Key := ⟨fun a b => if a ≤ b then b else a⟩
instance : Min Key := ⟨fun a b => if a ≤ b then a else b⟩

/-- The key of an integer of 128 bits. -/
def ofInt? (i : Int) : Option Key :=
  if h : -2 ^ 127 ≤ i ∧ i < 2 ^ 127 then some ⟨i, h.1, h.2⟩ else none

/-- The key nearest to an integer. -/
def clamp (i : Int) : Key := ⟨max (-2 ^ 127) (min (2 ^ 127 - 1) i), by omega, by omega⟩

/-- The smallest key. -/
def least : Key := ⟨-2 ^ 127, by decide, by decide⟩

/-- The largest key. -/
def greatest : Key := ⟨2 ^ 127 - 1, by decide, by decide⟩

instance : Inhabited Key := ⟨clamp 0⟩

/-- The next key; none after the largest. -/
def next? (k : Key) : Option Key := ofInt? (k.val + 1)

/-- The key before; none before the smallest. -/
def prev? (k : Key) : Option Key := ofInt? (k.val - 1)

/-- The key in decimal digits. -/
def render (k : Key) : String := toString k.val

instance : ToString Key := ⟨render⟩

/-- The greatest key that is not above a number; the ends of the keys take in what is beyond. -/
def ofFloor (x : Binary64) : Key := clamp (x.floor.toIntWithin (-2 ^ 127) (2 ^ 127 - 1))

/-- A bucket size is positive and finite. -/
def isBucketSize (x : Binary64) : Bool := x.isFinite && x.isPositive

/-- Integers are divided exactly by bucket sizes that are whole and at most 2⁶⁴. -/
def dividesExactly (bucketSize : Binary64) : Bool :=
  bucketSize.isWhole && bucketSize.atMost (.ofNat (2 ^ 64))

/-- The key of an integer. -/
def ofInteger (i : Int) (bucketSize : Binary64) : Key :=
  if dividesExactly bucketSize then clamp (i / bucketSize.toIntWithin 1 (2 ^ 64))
  else ofFloor ((Binary64.ofInt i).div bucketSize)

end Key

/-- The key of a value for a bucket size. Booleans have the keys 0 and 1 whatever the size; strings,
infinities and what is not a number have none, and neither does any value when the size is not
positive and finite. -/
def Value.key? (v : Value) (bucketSize : Binary64) : Option Key :=
  if Key.isBucketSize bucketSize then
    match v with
    | .bool b => some (Key.clamp (if b then 1 else 0))
    | .int i => some (Key.ofInteger i.toInt bucketSize)
    | .uint n => some (Key.ofInteger n.toNat bucketSize)
    | .float x => if x.isFinite then some (Key.ofFloor (x.div bucketSize)) else none
    | .text _ => none
  else none

end BucketPlanner
