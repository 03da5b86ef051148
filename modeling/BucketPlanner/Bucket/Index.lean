import BucketPlanner.Ascending
import BucketPlanner.Bucket.Range

/-!
# Bucketized indexes

An index keeps, for every key, the offsets of the records whose value has that key. Keys and the
offsets under a key stand in ascending order, and an offset is kept once under a key. The index
answers how many entries lie in a range of keys.
-/

namespace BucketPlanner

/-- The place of a record in the log. -/
abbrev Offset := UInt64

/-- An index: the size of its buckets, and the offsets under each key. -/
structure BucketIndex where
  bucketSize : Binary64
  buckets : List (Key × List Offset)

namespace BucketIndex

/-- An index without entries. -/
def empty (bucketSize : Binary64) : BucketIndex := ⟨bucketSize, []⟩

/-- Puts an offset among ascending offsets, once. -/
def insertOffset (offset : Offset) : List Offset → List Offset
  | [] => [offset]
  | o :: rest =>
    if offset < o then offset :: o :: rest
    else if offset = o then o :: rest
    else o :: insertOffset offset rest

/-- Enters an offset under a key. -/
def insert (index : BucketIndex) (key : Key) (offset : Offset) : BucketIndex :=
  let offsets := (Ascending.find? key index.buckets).getD []
  { index with buckets := Ascending.put key (insertOffset offset offsets) index.buckets }

/-- Enters an offset under the key of a value, if the value has one. -/
def insertValue? (index : BucketIndex) (value : Value) (offset : Offset) : Option BucketIndex :=
  (value.key? index.bucketSize).map (index.insert · offset)

/-- The buckets with keys from `low` to `high`. It is asked for ends that are in order only. -/
def between (index : BucketIndex) (low high : Key) (_ : low ≤ high) : List (Key × List Offset) :=
  index.buckets.filter fun b => low ≤ b.1 && b.1 ≤ high

/-- How many entries have their key in a range; none when its ends are out of order. -/
def count (index : BucketIndex) (range : KeyRange) : Nat :=
  if h : range.high < range.low then 0
  else (index.between range.low range.high (Int.not_lt.1 h)).foldr (fun b n => b.2.length + n) 0

end BucketIndex

end BucketPlanner
