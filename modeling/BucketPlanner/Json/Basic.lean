import BucketPlanner.Ascending
import BucketPlanner.Number.Layout

/-!
# JSON values

A JSON number is kept exactly when it is an integer of 64 bits, with or without sign, and as a
binary64 number otherwise. The members of an object stand in ascending order of their names.
-/

namespace BucketPlanner

/-- A JSON number. -/
inductive JsonNumber
  /-- An integer from zero on. -/
  | natural (n : UInt64)
  /-- An integer below zero. -/
  | negative (i : Int64)
  /-- Any other number, which is finite. -/
  | real (x : Binary64) (isFinite : x.isFinite)
  deriving DecidableEq

namespace JsonNumber

/-- The JSON number of a binary64 number; JSON has no infinities and nothing that is not a number. -/
def ofBinary64? (x : Binary64) : Option JsonNumber :=
  if h : x.isFinite then some (real x h) else none

/-- The number as an unsigned integer of 64 bits. -/
def toUInt64? : JsonNumber → Option UInt64
  | natural n => some n
  | _ => none

/-- The number as a signed integer of 64 bits. -/
def toInt64? : JsonNumber → Option Int64
  | natural n => if n.toNat < 2 ^ 63 then some (Int64.ofNat n.toNat) else none
  | negative i => some i
  | real .. => none

/-- The nearest binary64 number. -/
def toBinary64 : JsonNumber → Binary64
  | natural n => .ofNat n.toNat
  | negative i => .ofInt i.toInt
  | real x _ => x

end JsonNumber

/-- A JSON value. -/
inductive Json
  | null
  | bool (b : Bool)
  | number (n : JsonNumber)
  | text (s : String)
  | list (items : List Json)
  | object (members : List (String × Json))
  deriving Inhabited

namespace Json

/-- The JSON number of a natural number below 2⁶⁴. -/
def ofNat (n : Nat) : Json := number (.natural (.ofNat n))

/-- An object with the given members, in ascending order of their names. -/
def ofMembers (members : List (String × Json)) : Json :=
  object (members.foldl (fun ms m => Ascending.put m.1 m.2 ms) [])

/-- The JSON list of texts. -/
def ofTexts (texts : List String) : Json := list (texts.map text)

end Json

end BucketPlanner
