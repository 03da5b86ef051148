import BucketPlanner.Json.Printer
import BucketPlanner.Json.Reader
import Mathlib.Data.List.TakeWhile

/-!
# Written numbers

An integer is written in decimal digits, and these are a numeral that is read as the integer
(`JsonNumber.isReadBack_natural`, `JsonNumber.isReadBack_negative`). Whether a binary64 number is
read back depends on the number, since the reader does not always find the nearest one:
`JsonNumber.IsReadBack` says that it is.
-/

namespace BucketPlanner

namespace Numeral

/-! ### Characters of numerals -/

theorem isNumeralChar_of_isDigit {c : Char} (h : c.isDigit) : Json.Scanner.isNumeralChar c := by
  simp [Json.Scanner.isNumeralChar, h]

/-- Digits and what follows them are of the characters of numerals when the rest is. -/
theorem isNumeralChar_of_spanDigits {cs : List Char}
    (h : ∀ c ∈ (spanDigits cs).2, Json.Scanner.isNumeralChar c) :
    ∀ c ∈ cs, Json.Scanner.isNumeralChar c := by
  intro c hc
  rw [← List.takeWhile_append_dropWhile (p := Char.isDigit) (l := cs), List.mem_append] at hc
  rcases hc with hdigit | hrest
  · exact isNumeralChar_of_isDigit (List.mem_takeWhile_imp hdigit)
  · exact h c hrest

theorem isNumeralChar_of_spanMinus {cs : List Char}
    (h : ∀ c ∈ (spanMinus cs).2, Json.Scanner.isNumeralChar c) :
    ∀ c ∈ cs, Json.Scanner.isNumeralChar c := by
  unfold spanMinus at h
  split at h
  · exact List.forall_mem_cons.2 ⟨rfl, h⟩
  · exact h

theorem isNumeralChar_of_exponentOf? {cs : List Char} {exponent : Option Int}
    (h : exponentOf? cs = some exponent) : ∀ c ∈ cs, Json.Scanner.isNumeralChar c := by
  unfold exponentOf? at h
  split at h
  · simp
  next mark cs =>
    split at h
    case isFalse => simp at h
    case isTrue hmark =>
      have hmark' : Json.Scanner.isNumeralChar mark := by rcases hmark with rfl | rfl <;> rfl
      refine List.forall_mem_cons.2 ⟨hmark', ?_⟩
      split at h
      next negative digits hsign =>
        -- Behind the sign stand digits, and these end the numeral.
        have hdigits : ∀ c ∈ digits, Json.Scanner.isNumeralChar c := by
          split at h
          next hspan => exact isNumeralChar_of_spanDigits (by simp [hspan])
          next => simp at h
        split at hsign
        · obtain ⟨-, rfl⟩ := Prod.mk.inj hsign
          exact List.forall_mem_cons.2 ⟨rfl, hdigits⟩
        · refine isNumeralChar_of_spanMinus ?_
          rw [hsign]
          exact hdigits

/-- Behind its sign a numeral has digits, and characters of numerals behind these. -/
theorem spanDigits_of_ofChars? {cs : List Char} {n : Numeral} (h : ofChars? cs = some n) :
    (spanDigits (spanMinus cs).2).1 ≠ [] ∧
      ∀ c ∈ (spanDigits (spanMinus cs).2).2, Json.Scanner.isNumeralChar c := by
  simp only [ofChars?] at h
  split at h
  · simp at h
  next hwhole =>
    refine ⟨fun hnil => hwhole (Or.inl hnil), ?_⟩
    split at h
    next r hrest =>
      split at h
      · simp at h
      · obtain ⟨exponent, hexponent, -⟩ := Option.map_eq_some_iff.1 h
        rw [hrest]
        exact List.forall_mem_cons.2
          ⟨rfl, isNumeralChar_of_spanDigits (isNumeralChar_of_exponentOf? hexponent)⟩
    next =>
      obtain ⟨exponent, hexponent, -⟩ := Option.map_eq_some_iff.1 h
      exact isNumeralChar_of_exponentOf? hexponent

/-- **A numeral** is made of the characters of numerals. -/
theorem isNumeralChar_of_ofChars? {cs : List Char} {n : Numeral} (h : ofChars? cs = some n) :
    ∀ c ∈ cs, Json.Scanner.isNumeralChar c :=
  isNumeralChar_of_spanMinus (isNumeralChar_of_spanDigits (spanDigits_of_ofChars? h).2)

/-- **A numeral** opens with a digit or a minus sign. -/
theorem exists_cons_of_ofChars? {cs : List Char} {n : Numeral} (h : ofChars? cs = some n) :
    ∃ c rest, cs = c :: rest ∧ (c.isDigit || c == '-') := by
  have hwhole := (spanDigits_of_ofChars? h).1
  cases cs with
  | nil => exact absurd rfl hwhole
  | cons c rest =>
    refine ⟨c, rest, rfl, ?_⟩
    by_cases hc : c = '-'
    · simp [hc]
    · have hsign : spanMinus (c :: rest) = (false, c :: rest) := by simp [spanMinus, hc]
      by_contra hdigit
      rw [Bool.or_eq_true, not_or] at hdigit
      simp [hsign, spanDigits, List.takeWhile_cons_of_neg hdigit.1] at hwhole

/-! ### Decimal digits -/

theorem ofDigits_map_digitOf (cs : List Char) :
    ofDigits (cs.map digitOf) = Nat.ofDigitChars 10 cs 0 := by
  rw [ofDigits, Nat.ofDigitChars, List.foldl_map]
  congr 1
  funext n c
  rw [digitOf, Nat.mul_comm]

/-- The digits of a number denote it. -/
theorem ofDigits_toDigits (n : Nat) : ofDigits ((Nat.toDigits 10 n).map digitOf) = n := by
  rw [ofDigits_map_digitOf, Nat.ofDigitChars_toDigits (by decide) (by decide)]

theorem digitOf_digitChar {n : Nat} (h : n < 10) : digitOf (Nat.digitChar n) = n := by
  revert n
  decide

/-- Digits of numbers above zero do not start with zero. -/
theorem head?_toDigits_ne_zero {n : Nat} (h : 0 < n) :
    ((Nat.toDigits 10 n).map digitOf).head? ≠ some 0 := by
  induction n using Nat.strongRecOn with
  | ind n ih =>
    by_cases hlt : n < 10
    · rw [Nat.toDigits_of_lt_base hlt]
      simpa [digitOf_digitChar hlt] using h.ne'
    · have hfront := ih (n / 10) (by omega) (by omega)
      rw [Nat.toDigits_of_base_le (by decide) (by omega), List.map_append, List.head?_append]
      cases hdigits : Nat.toDigits 10 (n / 10) with
      | nil => exact absurd hdigits Nat.toDigits_ne_nil
      | cons d ds => simpa [hdigits] using hfront

theorem spanDigits_toDigits (n : Nat) :
    spanDigits (Nat.toDigits 10 n) = ((Nat.toDigits 10 n).map digitOf, []) := by
  have hall : ∀ c ∈ Nat.toDigits 10 n, c.isDigit := fun _ =>
    Nat.isDigit_of_mem_toDigits (by decide) (by decide)
  rw [spanDigits, List.takeWhile_eq_self_iff.2 hall, List.dropWhile_eq_nil_iff.2 hall]

theorem spanMinus_toDigits (n : Nat) :
    spanMinus (Nat.toDigits 10 n) = (false, Nat.toDigits 10 n) := by
  unfold spanMinus
  split
  next cs hdigits =>
    have hminus : '-' ∈ Nat.toDigits 10 n := by simp [hdigits]
    have hdigit := Nat.isDigit_of_mem_toDigits (by decide) (by decide) hminus
    simp at hdigit
  next => rfl

/-- **The digits of a number**, behind a sign or none, are a numeral. -/
theorem ofChars?_of_spanMinus {cs : List Char} {negative : Bool} {n : Nat}
    (h : spanMinus cs = (negative, Nat.toDigits 10 n)) :
    ofChars? cs = some ⟨negative, (Nat.toDigits 10 n).map digitOf, none, none⟩ := by
  have hwhole : ¬ ((Nat.toDigits 10 n).map digitOf = [] ∨
      ((Nat.toDigits 10 n).map digitOf).head? = some 0 ∧
        1 < ((Nat.toDigits 10 n).map digitOf).length) := by
    rintro (hnil | ⟨hzero, hlength⟩)
    · exact Nat.toDigits_ne_nil (List.map_eq_nil_iff.1 hnil)
    · rcases Nat.eq_zero_or_pos n with rfl | hpos
      · simp at hlength
      · exact head?_toDigits_ne_zero hpos hzero
  simp only [ofChars?, h, spanDigits_toDigits, if_neg hwhole, exponentOf?, Option.map_some]

end Numeral

namespace JsonNumber

/-- The number is not one of the integers that are kept exactly. -/
def isReal : JsonNumber → Bool
  | real .. => true
  | natural _ | negative _ => false

/-- The text of the number is a numeral that is read as the number. -/
def IsReadBack (n : JsonNumber) : Prop :=
  (Numeral.ofChars? n.text.toList).bind Numeral.jsonNumber? = some n

instance : DecidablePred IsReadBack := fun n =>
  inferInstanceAs (Decidable ((Numeral.ofChars? n.text.toList).bind Numeral.jsonNumber? = some n))

/-- The numeral that the text of the number is. -/
def numeral (n : JsonNumber) : Numeral :=
  (Numeral.ofChars? n.text.toList).getD ⟨false, [], none, none⟩

namespace IsReadBack

variable {n : JsonNumber} (h : n.IsReadBack)
include h

theorem ofChars?_text : Numeral.ofChars? n.text.toList = some n.numeral := by
  obtain ⟨m, hm, -⟩ := Option.bind_eq_some_iff.1 h
  rw [numeral, hm, Option.getD_some]

theorem jsonNumber?_numeral : n.numeral.jsonNumber? = some n := by
  have hread := h
  rwa [IsReadBack, h.ofChars?_text, Option.bind_some] at hread

end IsReadBack

theorem jsonNumber?_toDigits {n : Nat} (h : n < 2 ^ 64) :
    Numeral.jsonNumber? ⟨false, (Nat.toDigits 10 n).map Numeral.digitOf, none, none⟩ =
      some (.natural (.ofNat n)) := by
  simp [Numeral.jsonNumber?, Numeral.ofDigits_toDigits, Numeral.isInteger, h]

theorem jsonNumber?_minus_toDigits {n : Nat} (h : 0 < n) (h' : n ≤ 2 ^ 63) :
    Numeral.jsonNumber? ⟨true, (Nat.toDigits 10 n).map Numeral.digitOf, none, none⟩ =
      some (.negative (.ofInt (-(n : Int)))) := by
  have hlt : n < 2 ^ 64 := by omega
  simp [Numeral.jsonNumber?, Numeral.ofDigits_toDigits, Numeral.isInteger, h, h', hlt]

/-- **Integers from zero on** are read back. -/
theorem isReadBack_natural (n : UInt64) : (natural n).IsReadBack := by
  have htext : (natural n).text.toList = Nat.toDigits 10 n.toNat := Nat.toList_repr
  rw [IsReadBack, htext, Numeral.ofChars?_of_spanMinus (Numeral.spanMinus_toDigits _),
    Option.bind_some, jsonNumber?_toDigits n.toNat_lt, UInt64.ofNat_toNat]

/-- **Integers below zero** are read back. -/
theorem isReadBack_negative {i : Int64} (h : i < 0) : (negative i).IsReadBack := by
  obtain ⟨n, hn⟩ : ∃ n : Nat, i.toInt = Int.negSucc n := by
    have hneg : i.toInt < 0 := by simpa using Int64.lt_iff_toInt_lt.1 h
    exact Int.eq_negSucc_of_lt_zero hneg
  have htext : (negative i).text.toList = '-' :: Nat.toDigits 10 (n + 1) := by
    have hrepr : (negative i).text = "-" ++ (n + 1).repr := by
      rw [text, hn]
      rfl
    rw [hrepr, String.toList_append, Nat.toList_repr]
    rfl
  have hle : n + 1 ≤ 2 ^ 63 := by
    have := i.le_toInt
    omega
  have hi : Int64.ofInt (-((n + 1 : Nat) : Int)) = i := by
    rw [Int.natCast_succ, ← Int.negSucc_eq, ← hn, Int64.ofInt_toInt]
  rw [IsReadBack, htext, Numeral.ofChars?_of_spanMinus rfl, Option.bind_some,
    jsonNumber?_minus_toDigits (by omega) hle, hi]

/-- **Every number that is read** is real or read back. -/
theorem isReal_or_isReadBack_of_jsonNumber? {m : Numeral} {n : JsonNumber}
    (h : m.jsonNumber? = some n) : n.isReal ∨ n.IsReadBack := by
  have hreal : ∀ {x : Binary64}, ofBinary64? x = some n → n.isReal := by
    intro x hx
    unfold ofBinary64? at hx
    split at hx
    · rw [← Option.some.inj hx]
      rfl
    · simp at hx
  simp only [Numeral.jsonNumber?] at h
  split at h
  next hinteger =>
    split at h
    · rw [← Option.some.inj h]
      exact Or.inr (isReadBack_natural _)
    · split at h
      next hsize =>
        rw [← Option.some.inj h]
        refine Or.inr (isReadBack_negative (Int64.lt_iff_toInt_lt.2 ?_))
        rw [Int64.toInt_ofInt_of_le (by omega) (by omega), Int64.toInt_zero]
        omega
      · exact Or.inl (hreal h)
  · obtain ⟨x, -, hx⟩ := Option.bind_eq_some_iff.1 h
    exact Or.inl (hreal hx)

end JsonNumber

end BucketPlanner
