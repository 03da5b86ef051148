import BucketPlanner.Number.Numeral

/-!
# Written form of binary64 numbers

A finite number is written with the fewest decimal digits that read back as the same number, and of
those with the nearest (`Binary64.shortest`). What remains open is a matter of the format that is
written, and a `NumberLayout` says it: which of two equally near decimals is taken, which exponents
are written in plain notation, and what follows a whole number.
-/

namespace BucketPlanner

/-- Which of two decimals is taken when the number lies in the middle between them. -/
inductive TieRule
  | upper
  | even
  deriving DecidableEq

/-- A format for numbers. -/
structure NumberLayout where
  /-- Which of two equally near shortest decimals is written. -/
  tie : TieRule
  /-- Whether a number whose first digit has the given exponent of ten is written in plain notation. -/
  isPlain : Int → Bool
  /-- What follows the digits of a whole number in plain notation. -/
  wholeMark : String

namespace Decimal

/-- The same decimal without trailing zero digits. -/
def strip (d : Decimal) : Decimal :=
  let trailing := ((Nat.toDigits 10 d.digits).reverse.takeWhile (· = '0')).length
  ⟨d.digits / 10 ^ trailing, d.exponent + trailing⟩

end Decimal

namespace Binary64

/-- Decimal places that make room for 17 digits of the smallest number. -/
def decimalPlaces : Nat := 341

/-- The decimal of the form `n * step / 10 ^ 341` next below or above that reads back as `units`, if
one does; of two the nearer. -/
def decimalOnGrid? (tie : TieRule) (units step : Nat) : Option Nat :=
  let scaled := units * 10 ^ decimalPlaces
  let lower := scaled / (step * unitsPerOne)
  let upper := lower + 1
  let readsBack (n : Nat) : Bool :=
    roundUnits (n * step * unitsPerOne) (10 ^ decimalPlaces) = units
  let below := scaled - lower * step * unitsPerOne
  let above := upper * step * unitsPerOne - scaled
  let upperIsNearer : Bool :=
    above < below ∨ above = below ∧ (tie = .upper ∨ lower % 2 = 1)
  if readsBack lower ∧ ¬ (readsBack upper ∧ upperIsNearer) then some lower
  else if readsBack upper then some upper
  else none

/-- The decimal with the fewest digits that reads back as `units`. Seventeen digits always suffice,
and the exact decimal stands for the case that cannot arise. -/
def shortest (tie : TieRule) (units : Nat) : Decimal :=
  let size := digitCount (units * 10 ^ decimalPlaces / unitsPerOne)
  let found := (List.range' 1 17).findSome? fun count =>
    (decimalOnGrid? tie units (10 ^ (size - count))).map fun digits =>
      (⟨digits, (size - count : Nat) - (decimalPlaces : Int)⟩ : Decimal)
  (found.getD ⟨units * 5 ^ 1074, -1074⟩).strip

/-- The text of `count` zero digits. -/
private def zeros (count : Nat) : String := String.ofList (List.replicate count '0')

/-- Writes a nonzero decimal without trailing zeros in a given layout. -/
def layOut (layout : NumberLayout) (d : Decimal) : String :=
  let digits := Nat.toDigits 10 d.digits
  let point : Int := digits.length + d.exponent
  if layout.isPlain (point - 1) then
    if point ≤ 0 then "0." ++ zeros (-point).toNat ++ String.ofList digits
    else if digits.length ≤ point then
      String.ofList digits ++ zeros d.exponent.toNat ++ layout.wholeMark
    else String.ofList (digits.take point.toNat) ++ "." ++ String.ofList (digits.drop point.toNat)
  else
    let fraction := match digits with
      | [] | [_] => ""
      | _ :: ds => "." ++ String.ofList ds
    let sign := if point - 1 < 0 then "-" else "+"
    String.ofList (digits.take 1) ++ fraction ++ "e" ++ sign ++ toString (point - 1).natAbs

/-- Writes a number in a given layout. -/
def text (layout : NumberLayout) : Binary64 → String
  | nan => "NaN"
  | infinite negative => (if negative then "-" else "") ++ "inf"
  | finite negative units _ =>
    (if negative then "-" else "") ++
      (if units = 0 then "0" ++ layout.wholeMark else layOut layout (shortest layout.tie units))

end Binary64

end BucketPlanner
