import BucketPlanner.Failure
import BucketPlanner.Schema.Basic

/-!
# Building schemas

A schema is built column by column, behind the time stamp that it starts with. Names are trimmed
and kept in upper case. A declaration of the time stamp itself adds nothing. Only the sum of the sizes
is not checked beforehand: adding a column overflows when the record takes 2⁶⁴ bytes or more.
-/

namespace BucketPlanner

/-- A schema that is being built. -/
structure SchemaBuilder where
  columns : List Column
  /-- Where the next column starts in a record, in bytes. -/
  offset : UInt64
  /-- The time stamp was declared explicitly. -/
  declaresTimestamp : Bool
  deriving DecidableEq

namespace SchemaBuilder

/-- The time stamp alone. -/
def start : SchemaBuilder where
  columns := [{
    position := 0
    offset := 0
    name := Schema.timestampName
    type := .ulong
    min := DataType.ulong.least
    max := DataType.ulong.greatest
    index := none }]
  offset := DataType.ulong.size
  declaresTimestamp := false

/-- The form in which a declared name is kept. -/
def canonicalName (name : String) : String := upperCase (trim name)

/-- A domain of the type: both ends are of its form and they are in order. -/
def checkDomain (name : String) (type : DataType) (min max : Value) : Except SchemaError Unit :=
  if !type.accepts min || !type.accepts max then .error (.invalidBounds name (.wrongType type))
  else match min.compare? max with
    | some .lt | some .eq => .ok ()
    | _ => .error (.invalidBounds name (.inverted min max))

/-- Adds a column with a domain. -/
def addColumnWithin (b : SchemaBuilder) (type : DataType) (name : String) (min max : Value) :
    Except (Failure SchemaError) SchemaBuilder := do
  let name := canonicalName name
  if name = "" then throw (.reported (.invalidType "<unnamed>" .emptyName))
  if name = Schema.timestampName then
    if type ≠ .ulong then throw (.reported (.invalidType name .timestampNotUlong))
    return { b with declaresTimestamp := true }
  if b.columns.any (·.name == name) then throw (.reported (.duplicateColumn name))
  (checkDomain name type min max).mapError .reported
  let column : Column :=
    { position := b.columns.length, offset := b.offset, name, type, min, max, index := none }
  let offset ← addSizes b.offset type.size
  return { b with columns := b.columns ++ [column], offset }

/-- Adds a column with the whole domain of its type. -/
def addColumn (b : SchemaBuilder) (type : DataType) (name : String) :
    Except (Failure SchemaError) SchemaBuilder :=
  b.addColumnWithin type name type.least type.greatest

/-- The schema of the columns so far. -/
def build (b : SchemaBuilder) : Schema := ⟨b.columns, b.offset⟩

end SchemaBuilder

end BucketPlanner
