import BucketPlanner.Text.Printable

/-!
# Quoted text

A text in messages stands between double quotes. Quotes, backslashes and the common control
characters have an escape of two characters, and every other character that is not shown as itself
is written by its number.
-/

namespace BucketPlanner

/-- The written form of one character between quotes. -/
def quotedChar (c : Char) : List Char :=
  match c with
  | '\x00' => ['\\', '0']
  | '\t' => ['\\', 't']
  | '\r' => ['\\', 'r']
  | '\n' => ['\\', 'n']
  | '"' => ['\\', '"']
  | '\\' => ['\\', '\\']
  | c =>
    if isPrintable c then [c] else ['\\', 'u', '{'] ++ Nat.toDigits 16 c.toNat ++ ['}']

/-- The text between double quotes, with escapes. -/
def quoted (text : String) : String :=
  String.ofList (['"'] ++ text.toList.flatMap quotedChar ++ ['"'])

end BucketPlanner
