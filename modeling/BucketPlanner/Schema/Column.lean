import BucketPlanner.Bucket.Key
import BucketPlanner.Schema.Error

/-!
# Columns

A column is a field of every record: its place, name, type and domain, and the index that is kept
on it, if there is one.
-/

namespace BucketPlanner

/-- The name of an index: its place among the indexes, in 32 bits. -/
structure IndexId where
  val : UInt32
  deriving DecidableEq, Inhabited

namespace IndexId

instance : Ord IndexId := ⟨fun a b => compare a.val.toNat b.val.toNat⟩

/-- The place of the index among the indexes. -/
def position (id : IndexId) : Nat := id.val.toNat

/-- The place in decimal digits. -/
def render (id : IndexId) : String := toString id.position

instance : ToString IndexId := ⟨render⟩

/-- The identifier of the index at a place, when 32 bits can hold it. -/
def ofPosition? (n : Nat) : Option IndexId := if n < 2 ^ 32 then some ⟨.ofNat n⟩ else none

end IndexId

/-- What a column knows of the index on it. -/
structure ColumnIndex where
  id : IndexId
  bucketSize : Binary64
  deriving DecidableEq

/-- A column of a schema. -/
structure Column where
  /-- The place among the columns. -/
  position : Nat
  /-- The place in a record, in bytes. -/
  offset : UInt64
  name : String
  type : DataType
  /-- The least value of the domain. -/
  min : Value
  /-- The greatest value of the domain. -/
  max : Value
  /-- The index on the column. -/
  index : Option ColumnIndex
  deriving DecidableEq, Inhabited

namespace Column

/-- An index is kept on the column. -/
def isIndexed (c : Column) : Bool := c.index.isSome

/-- The identifier of the index on the column. -/
def indexId? (c : Column) : Option IndexId := c.index.map ColumnIndex.id

/-- The column with an index on it. Strings have no keys, a column has at most one index, and the
bucket size must be positive and finite. -/
def withIndex (c : Column) (id : IndexId) (bucketSize : Binary64) : Except SchemaError Column :=
  if !c.type.isIndexable then .error (.notIndexable c.name (.noKeys c.type))
  else if c.isIndexed then .error (.notIndexable c.name .alreadyIndexed)
  else if !Key.isBucketSize bucketSize then .error (.invalidBucket c.name bucketSize)
  else .ok { c with index := some ⟨id, bucketSize⟩ }

end Column

end BucketPlanner
