import BucketPlanner.Json.Basic

/-!
# Written form of JSON values

Values are written without blanks. In a text, the quote, the backslash and the control characters
below 32 are escaped and every other character stands for itself.
-/

namespace BucketPlanner

/-- Numbers in JSON keep a mark of being real: plain notation for exponents from -5 to 15 with `.0`
after a whole number, and an exponent otherwise. A middle goes to the even digit. -/
def Json.numberLayout : NumberLayout where
  tie := .even
  isPlain e := -5 ≤ e && e ≤ 15
  wholeMark := ".0"

/-- The text of a JSON number. -/
def JsonNumber.text : JsonNumber → String
  | natural n => toString n.toNat
  | negative i => toString i.toInt
  | real x _ => x.text Json.numberLayout

namespace Json

/-- The written form of one character in a text. -/
def escapedChar (c : Char) : List Char :=
  match c with
  | '"' => ['\\', '"']
  | '\\' => ['\\', '\\']
  | '\x08' => ['\\', 'b']
  | '\x0c' => ['\\', 'f']
  | '\n' => ['\\', 'n']
  | '\r' => ['\\', 'r']
  | '\t' => ['\\', 't']
  | c =>
    if c.toNat < 0x20 then
      ['\\', 'u', '0', '0', Nat.digitChar (c.toNat / 16), Nat.digitChar (c.toNat % 16)]
    else [c]

/-- The written form of a text, with its quotes. -/
def textChars (s : String) : List Char := '"' :: s.toList.flatMap escapedChar ++ ['"']

mutual

/-- The written form of a value. -/
def chars : Json → List Char
  | null => "null".toList
  | bool true => "true".toList
  | bool false => "false".toList
  | number n => n.text.toList
  | text s => textChars s
  | list items => '[' :: itemsChars items ++ [']']
  | object members => '{' :: membersChars members ++ ['}']

/-- The items of a list, with commas between them. -/
def itemsChars : List Json → List Char
  | [] => []
  | [j] => chars j
  | j :: k :: rest => chars j ++ ',' :: itemsChars (k :: rest)

/-- The members of an object, with commas between them. -/
def membersChars : List (String × Json) → List Char
  | [] => []
  | [(name, j)] => textChars name ++ ':' :: chars j
  | (name, j) :: m :: rest => textChars name ++ ':' :: chars j ++ ',' :: membersChars (m :: rest)

end

/-- The written form of a value. -/
def render (j : Json) : String := String.ofList j.chars

/-- The written form of a text. -/
def renderText (s : String) : String := String.ofList (textChars s)

end Json

end BucketPlanner
