import BucketPlanner.Json.Basic
import BucketPlanner.Json.Document

/-!
# Reading JSON values

`Json.ofText?` reads a text as a JSON value. Integers of 64 bits are exact. Any other numeral gives
a binary64 number by a short computation that keeps a significand of 64 bits: it is scaled by a
power of ten, rounding at each step, and a result beyond the format is refused. Values nest at most
127 levels deep, and of members with one name the last one stands.
-/

namespace BucketPlanner

namespace Numeral

/-- The significand made of whole digits as long as it fits into 64 bits, and the number of digits
that are left over. -/
def takeWhole : List Nat → Nat → Nat × Nat
  | [], significand => (significand, 0)
  | d :: ds, significand =>
    if significand * 10 + d < 2 ^ 64 then takeWhole ds (significand * 10 + d)
    else (significand, ds.length + 1)

/-- The significand continued by fraction digits as long as it fits into 64 bits, and the number of
digits taken. -/
def takeFraction : List Nat → Nat → Nat × Nat
  | [], significand => (significand, 0)
  | d :: ds, significand =>
    if significand * 10 + d < 2 ^ 64 then
      let (s, taken) := takeFraction ds (significand * 10 + d)
      (s, taken + 1)
    else (significand, 0)

/-- The number divided by 10³⁰⁸ so many times, rounded each time; zero needs no further division. -/
def shrink : Nat → Binary64 → Binary64
  | 0, x => x
  | steps + 1, x =>
    if x = .zero false then x else shrink steps (x.div (.ofNat (10 ^ 308)))

/-- The number times ten to the given power; none beyond the format. A negative power is taken in
steps of at most 308 places, each of them rounded. -/
def scale? (x : Binary64) (exponent : Int) : Option Binary64 :=
  let places := exponent.natAbs
  if 0 ≤ exponent then
    if x = .zero false then some x
    else if places ≤ 308 then
      let y := x.mul (.ofNat (10 ^ places))
      if y.isFinite then some y else none
    else none
  else
    let steps := (places - 1) / 308
    some ((shrink steps x).div (.ofNat (10 ^ (places - 308 * steps))))

/-- The binary64 number that a numeral is read as. -/
def approximate? (n : Numeral) : Option Binary64 :=
  let (significand, leftOver) := takeWhole n.whole 0
  let (significand, taken) := takeFraction (n.fraction.getD []) significand
  (scale? (.ofNat significand) (n.exponent.getD 0 + leftOver - taken)).map fun x =>
    if n.negative then x.neg else x

/-- The JSON number that a numeral is read as. Integers that fit into 64 bits are kept; minus zero
and the integers below them are not among these. -/
def jsonNumber? (n : Numeral) : Option JsonNumber :=
  let size := ofDigits n.whole
  if n.isInteger ∧ size < 2 ^ 64 then
    if ¬ n.negative then some (.natural (.ofNat size))
    else if 0 < size ∧ size ≤ 2 ^ 63 then some (.negative (.ofInt (-(size : Int))))
    else JsonNumber.ofBinary64? (Binary64.ofNat size).neg
  else n.approximate?.bind JsonNumber.ofBinary64?

end Numeral

namespace Json

mutual

/-- The value of a document that nests at most `levels` deep. -/
def ofDocument? (levels : Nat) : Document → Option Json
  | .null => some .null
  | .bool b => some (.bool b)
  | .numeral n => n.jsonNumber?.map .number
  | .text s => s.map .text
  | .list items =>
    match levels with
    | 0 => none
    | levels + 1 => (ofItems? levels items).map .list
  | .object members =>
    match levels with
    | 0 => none
    | levels + 1 => (ofMembers? levels members []).map .object

/-- The values of the items of a list. -/
def ofItems? (levels : Nat) : List Document → Option (List Json)
  | [] => some []
  | d :: ds => do return (← ofDocument? levels d) :: (← ofItems? levels ds)

/-- The members of an object, put one after the other among those that are already there. -/
def ofMembers? (levels : Nat) :
    List (Option String × Document) → List (String × Json) → Option (List (String × Json))
  | [], members => some members
  | (name, d) :: ds, members => do
    ofMembers? levels ds (Ascending.put (← name) (← ofDocument? levels d) members)

end

/-- How deeply a text may nest. -/
def levelLimit : Nat := 127

/-- The value that a text is read as. -/
def ofText? (text : String) : Option Json :=
  (Document.ofText? text).bind (ofDocument? levelLimit)

end Json

end BucketPlanner
