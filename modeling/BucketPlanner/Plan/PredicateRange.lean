import BucketPlanner.Bucket.Range
import BucketPlanner.Plan.Error

/-!
# Key ranges of predicates

A predicate on an indexed column is turned into a range of keys. With `k` the key of the literal
and the column's domain having the keys from `a` to `b`:

| relation | range       |
|----------|-------------|
| `==`     | `[k, k]`    |
| `>=`     | `[k, b]`    |
| `<=`     | `[a, k]`    |
| `>`      | `[k + 1, b]`|
| `<`      | `[a, k - 1]`|

The range is empty when the neighbour of `k` is no key. On an integer column a literal with a
fraction is first moved to the integer that gives an equivalent comparison.
-/

namespace BucketPlanner

/-- A comparison of integers with a literal, as one with a whole literal; none when no integer
satisfies it. -/
def wholeComparison? (c : Comparison) (v : Value) : Option (Comparison × Value) :=
  match v with
  | .float x =>
    if x.isFinite && !x.isWhole then
      match c with
      | .eq => none
      | .ge | .gt => some (.ge, .float x.ceil)
      | .le | .lt => some (.le, .float x.floor)
      | .neq => some (.neq, v)
    else some (c, v)
  | _ => some (c, v)

namespace Column

/-- The key of one end of the domain. -/
def boundKey (column : Column) (bound : Value) (bucketSize : Binary64) : Except PlanError Key :=
  match bound.key? bucketSize with
  | some k => .ok k
  | none => .error (.corruptColumnIndex column.position column.name (.boundWithoutKey bound))

/-- The keys of the column's values in a relation to a literal with key `k`. -/
def rangeFrom (column : Column) (bucketSize : Binary64) (c : Comparison) (k : Key) :
    Except PlanError KeyRange :=
  match c with
  | .eq => .ok (.point k)
  | .neq => .error (.nonRangeOperator column.position c.symbol)
  | .ge => (column.boundKey column.max bucketSize).map fun high => ⟨k, high⟩
  | .le => (column.boundKey column.min bucketSize).map fun low => ⟨low, k⟩
  | .gt =>
    match k.next? with
    | none => .ok .empty
    | some low => (column.boundKey column.max bucketSize).map fun high => ⟨low, high⟩
  | .lt =>
    match k.prev? with
    | none => .ok .empty
    | some high => (column.boundKey column.min bucketSize).map fun low => ⟨low, high⟩

end Column

/-- The keys that the values of an indexed column have when they satisfy the predicate. -/
def Predicate.keyRange (p : Predicate) (column : Column) : Except PlanError KeyRange :=
  if !p.comparison.isRange then .error (.nonRangeOperator p.field p.comparison.symbol)
  else match column.index with
  | none => .error (.corruptColumnIndex p.field column.name .notIndexed)
  | some ⟨_, bucketSize⟩ =>
    if !Key.isBucketSize bucketSize then
      .error (.corruptColumnIndex p.field column.name (.badBucketSize bucketSize))
    else if !column.type.accepts p.value then
      .error (.literalMismatch p.field column.name (.notComparable p.value column.type))
    else
      match (if column.type.isInteger then wholeComparison? p.comparison p.value
        else some (p.comparison, p.value)) with
      | none => .ok .empty
      | some (c, v) =>
        match v.key? bucketSize with
        | none => .error (.literalMismatch p.field column.name (.noKey v))
        | some k => column.rangeFrom bucketSize c k

end BucketPlanner
