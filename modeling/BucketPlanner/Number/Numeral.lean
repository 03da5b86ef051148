import BucketPlanner.Number.Binary64

/-!
# Decimal numerals

A numeral is a sign, whole digits, an optional fraction and an optional exponent, written without
leading zeros (`-12.50e-3`). `Numeral.ofChars?` reads exactly this form, and `Numeral.nearest` is
the binary64 number nearest to what a numeral denotes.
-/

namespace BucketPlanner

/-- The number that decimal digits denote, the first digit having the greatest weight. -/
def ofDigits (ds : List Nat) : Nat := ds.foldl (fun n d => n * 10 + d) 0

/-- How many decimal digits a number has. -/
def digitCount (n : Nat) : Nat := (Nat.toDigits 10 n).length

/-- A number `digits * 10 ^ exponent`. -/
structure Decimal where
  digits : Nat
  exponent : Int
  deriving DecidableEq

namespace Decimal

/-- The binary64 number nearest to a decimal, ties to even. From 10³⁰⁹ on it is an infinity, and
below 10⁻³²⁴ it is zero. -/
def nearest (negative : Bool) (d : Decimal) : Binary64 :=
  let top := digitCount d.digits + d.exponent
  if d.digits = 0 ∨ top < -323 then .zero negative
  else if 309 < top then .infinite negative
  else if 0 ≤ d.exponent then .ofQuotient negative (d.digits * 10 ^ d.exponent.toNat) 1
  else .ofQuotient negative d.digits (10 ^ (-d.exponent).toNat)

end Decimal

/-- A decimal numeral as it is written. -/
structure Numeral where
  /-- It opens with a minus sign. -/
  negative : Bool
  /-- The digits before the point. -/
  whole : List Nat
  /-- The digits after the point, if there is one. -/
  fraction : Option (List Nat)
  /-- The exponent of ten, if there is one. -/
  exponent : Option Int
  deriving DecidableEq

namespace Numeral

/-- The value of a digit character. -/
def digitOf (c : Char) : Nat := c.toNat - '0'.toNat

/-- The digits in front of a text and what follows them. -/
def spanDigits (cs : List Char) : List Nat × List Char :=
  ((cs.takeWhile Char.isDigit).map digitOf, cs.dropWhile Char.isDigit)

/-- The sign in front of a text and what follows it. -/
def spanMinus : List Char → Bool × List Char
  | '-' :: cs => (true, cs)
  | cs => (false, cs)

/-- Reads the exponent part, which ends the numeral. -/
def exponentOf? : List Char → Option (Option Int)
  | [] => some none
  | c :: cs =>
    if c = 'e' ∨ c = 'E' then
      let (negative, cs) := match cs with
        | '+' :: r => (false, r)
        | r => spanMinus r
      match spanDigits cs with
      | (d :: ds, []) =>
        let size : Int := ofDigits (d :: ds)
        some (some (if negative then -size else size))
      | _ => none
    else none

/-- Reads a whole text as a numeral. Whole digits have no leading zero, and a point or an exponent
mark is followed by at least one digit. -/
def ofChars? (cs : List Char) : Option Numeral :=
  let (negative, cs) := spanMinus cs
  let (whole, rest) := spanDigits cs
  if whole = [] ∨ (whole.head? = some 0 ∧ 1 < whole.length) then none
  else match rest with
    | '.' :: r =>
      let (fraction, r) := spanDigits r
      if fraction = [] then none
      else (exponentOf? r).map fun exponent => ⟨negative, whole, some fraction, exponent⟩
    | r => (exponentOf? r).map fun exponent => ⟨negative, whole, none, exponent⟩

/-- Written without a point and without an exponent. -/
def isInteger (n : Numeral) : Bool := n.fraction.isNone && n.exponent.isNone

/-- What a numeral denotes, its sign apart. -/
def magnitude (n : Numeral) : Decimal :=
  let fraction := n.fraction.getD []
  ⟨ofDigits (n.whole ++ fraction), n.exponent.getD 0 - fraction.length⟩

/-- The binary64 number nearest to a numeral. -/
def nearest (n : Numeral) : Binary64 := n.magnitude.nearest n.negative

end Numeral

/-- Reads `NaN`, `inf`, `-inf` or a numeral; a numeral gives the nearest number. -/
def Binary64.ofText? (text : String) : Option Binary64 :=
  if text = "NaN" then some .nan
  else if text = "inf" then some (.infinite false)
  else if text = "-inf" then some (.infinite true)
  else (Numeral.ofChars? text.toList).map Numeral.nearest

end BucketPlanner
