/-!
# Blank characters and letter case

A character is blank when it has the Unicode property White_Space. Letter case is that of the ASCII
letters alone; all other characters are left as they are.
-/

namespace BucketPlanner

/-- The character has the property White_Space. -/
def isBlank (c : Char) : Bool :=
  let n := c.toNat
  (9 ≤ n && n ≤ 13) || n == 0x20 || n == 0x85 || n == 0xa0 || n == 0x1680 ||
    (0x2000 ≤ n && n ≤ 0x200a) || n == 0x2028 || n == 0x2029 || n == 0x202f || n == 0x205f ||
    n == 0x3000

/-- Every blank of ASCII is blank. -/
theorem isBlank_of_isWhitespace {c : Char} (h : c.isWhitespace) : isBlank c := by
  simp only [Char.isWhitespace, Bool.or_eq_true, decide_eq_true_eq] at h
  rcases h with ((rfl | rfl) | rfl) | rfl <;> rfl

/-- The text without the blanks at its two ends. -/
def trim (text : String) : String :=
  String.ofList (((text.toList.dropWhile isBlank).reverse.dropWhile isBlank).reverse)

/-- The text with its ASCII letters in upper case. -/
def upperCase (text : String) : String := text.map Char.toUpper

/-- The text with its ASCII letters in lower case. -/
def lowerCase (text : String) : String := text.map Char.toLower

/-- Equal up to the case of ASCII letters. -/
def equalIgnoringCase (a b : String) : Bool := (upperCase a).toList == (upperCase b).toList

end BucketPlanner
