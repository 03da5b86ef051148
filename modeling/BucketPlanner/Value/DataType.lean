import BucketPlanner.Text.Blank
import BucketPlanner.Value.Basic

/-!
# Data types of columns

The types of a record's fixed-width fields, with their names, widths and domains.
`DataType.valueOfJson?` reads a literal of a type from JSON: integers must lie in the domain of
their type and strings must fit the declared width.
-/

namespace BucketPlanner

/-- The type of a column. -/
inductive DataType
  | bool
  /-- A signed integer of 8 bits. -/
  | char
  /-- A signed integer of 16 bits. -/
  | short
  /-- A signed integer of 32 bits. -/
  | int
  /-- A signed integer of 64 bits. -/
  | long
  /-- An unsigned integer of 64 bits. -/
  | ulong
  /-- A floating-point number of 32 bits. -/
  | float
  /-- A floating-point number of 64 bits. -/
  | double
  /-- A string of the given width in bytes. -/
  | string (size : UInt64)
  deriving DecidableEq, Inhabited

namespace DataType

/-- The type of a name, in letters of any case. Only a string takes the size into account, and it
needs one above zero. -/
def ofName? (name : String) (size : Option UInt64) : Option DataType :=
  match lowerCase name with
  | "bool" => some bool
  | "char" => some char
  | "short" => some short
  | "int" => some int
  | "long" => some long
  | "ulong" => some ulong
  | "float" => some float
  | "double" => some double
  | "string" => (size.filter (0 < ·)).map string
  | _ => none

/-- The name of the type. -/
def name : DataType → String
  | bool => "bool"
  | char => "char"
  | short => "short"
  | int => "int"
  | long => "long"
  | ulong => "ulong"
  | float => "float"
  | double => "double"
  | string _ => "string"

/-- The type as messages show it. -/
def render : DataType → String
  | string size => s!"string({size.toNat})"
  | t => t.name

instance : ToString DataType := ⟨render⟩

/-- The width of a field in bytes. -/
def size : DataType → UInt64
  | bool | char => 1
  | short => 2
  | int | float => 4
  | long | ulong | double => 8
  | string size => size

/-- An integer or floating-point type. -/
def isNumeric : DataType → Bool
  | bool | string _ => false
  | _ => true

/-- A signed or unsigned integer type. -/
def isInteger : DataType → Bool
  | char | short | int | long | ulong => true
  | _ => false

/-- A type whose values have keys. -/
def isIndexable : DataType → Bool
  | string _ => false
  | _ => true

/-- The least value of the type. -/
def least : DataType → Value
  | bool => .bool false
  | char => .int (-128)
  | short => .int (-32768)
  | int => .int (-2147483648)
  | long => .int Int64.minValue
  | ulong => .uint 0
  | float => .float Binary64.greatestSingle.neg
  | double => .float Binary64.greatest.neg
  | string _ => .text ""

/-- The greatest value of the type. -/
def greatest : DataType → Value
  | bool => .bool true
  | char => .int 127
  | short => .int 32767
  | int => .int 2147483647
  | long => .int Int64.maxValue
  | ulong => .uint 18446744073709551615
  | float => .float Binary64.greatestSingle
  | double => .float Binary64.greatest
  | string _ => .text ""

/-- A literal of this form can be compared with values of the type. -/
def accepts : DataType → Value → Bool
  | bool, .bool _ => true
  | string _, .text _ => true
  | t, .int _ | t, .uint _ | t, .float _ => t.isNumeric
  | _, _ => false

/-- The literal of the type that a JSON value stands for. -/
def valueOfJson? (t : DataType) (json : Json) : Option Value :=
  match t, json with
  | bool, .bool b => some (.bool b)
  | string size, .text s => if s.utf8ByteSize ≤ size.toNat then some (.text s) else none
  | ulong, .number n => n.toUInt64?.map .uint
  | float, .number n | double, .number n => some (.float n.toBinary64)
  | t, .number n =>
    match t.least, t.greatest, n.toInt64? with
    | .int low, .int high, some i => if low ≤ i ∧ i ≤ high then some (.int i) else none
    | _, _, _ => none
  | _, _ => none

end DataType

end BucketPlanner
