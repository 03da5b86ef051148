import BucketPlanner.Json.Printer
import BucketPlanner.Text.Quoted

/-!
# Values

A value is what a column holds and what a predicate compares with, in its widest form: integers of
any width are 64-bit integers with or without sign, and floating-point numbers are binary64.
`Value.compare?` orders values of one kind; integers compare exactly whatever their sign, and a
floating-point number makes the comparison one of binary64 numbers.
-/

namespace BucketPlanner

/-- A value of a column or a literal of a predicate. -/
inductive Value
  | bool (b : Bool)
  /-- An integer of a signed type. -/
  | int (i : Int64)
  /-- An integer of the unsigned type. -/
  | uint (n : UInt64)
  /-- A floating-point number. -/
  | float (x : Binary64)
  | text (s : String)
  deriving DecidableEq, Inhabited

namespace Value

/-- Numbers in messages are in plain notation, without a mark on whole numbers. A middle goes to the
greater digit. -/
def numberLayout : NumberLayout where
  tie := .upper
  isPlain _ := true
  wholeMark := ""

/-- The value as messages show it. -/
def render : Value → String
  | bool b => toString b
  | int i => toString i.toInt
  | uint n => toString n.toNat
  | float x => x.text numberLayout
  | text s => quoted s

instance : ToString Value := ⟨render⟩

/-- The JSON form of a value; a number that JSON does not have is `null`. -/
def toJson : Value → Json
  | bool b => .bool b
  | int i => .number (if i.toInt < 0 then .negative i else .natural i.toUInt64)
  | uint n => .number (.natural n)
  | float x => ((JsonNumber.ofBinary64? x).map .number).getD .null
  | text s => .text s

/-- The integer that a value is. -/
def integer? : Value → Option Int
  | int i => some i.toInt
  | uint n => some n.toNat
  | _ => none

/-- The binary64 number nearest to a numeric value. -/
def number? : Value → Option Binary64
  | int i => some (.ofInt i.toInt)
  | uint n => some (.ofNat n.toNat)
  | float x => some x
  | _ => none

/-- The order of two values of one kind; none between kinds, and none for what is not a number. -/
def compare? (a b : Value) : Option Ordering :=
  match a, b with
  | bool a, bool b => some (compare a b)
  | text a, text b => some (compare a b)
  | a, b =>
    match a.integer?, b.integer? with
    | some i, some j => some (compare i j)
    | _, _ =>
      match a.number?, b.number? with
      | some x, some y => x.compare? y
      | _, _ => none

/-- Equality of values of the same form, numeric for floating-point numbers: both zeros are equal,
and what is not a number equals nothing. -/
def equals : Value → Value → Bool
  | float x, float y => x.equals y
  | a, b => a = b

end Value

end BucketPlanner
