import BucketPlanner.Number.Numeral

/-!
# Tokens of JSON text

A scanner (`Scanner.step`) takes JSON text apart one character at a time. Blanks separate tokens, a
run of letters is a literal word, and a run of digits, signs, points and exponent marks is a
numeral. A text between quotes may name surrogates by number; when they do not pair up, the text is
well-formed but denotes no string, and its token says so.
-/

namespace BucketPlanner.Json

/-- A token of JSON text. -/
inductive Token
  | listOpen
  | listClose
  | objectOpen
  | objectClose
  | comma
  | colon
  | null
  | bool (b : Bool)
  | numeral (n : Numeral)
  /-- A text between quotes; `none` when it holds a surrogate without its partner. -/
  | text (s : Option String)
  deriving DecidableEq

/-- A piece of a text between quotes: a character, or a UTF-16 unit given by number. -/
inductive Piece
  | char (c : Char)
  | unit (n : Nat)
  deriving DecidableEq

/-- The first unit of a surrogate pair. -/
def isHighSurrogate (n : Nat) : Bool := 0xd800 ≤ n && n < 0xdc00

/-- The second unit of a surrogate pair. -/
def isLowSurrogate (n : Nat) : Bool := 0xdc00 ≤ n && n < 0xe000

/-- The characters that pieces denote; none when a surrogate stands alone. -/
def charsOfPieces? : List Piece → Option (List Char)
  | [] => some []
  | .char c :: rest => (c :: ·) <$> charsOfPieces? rest
  | .unit high :: .unit low :: rest =>
    if isHighSurrogate high then
      if isLowSurrogate low then
        (Char.ofNat (0x10000 + (high - 0xd800) * 0x400 + (low - 0xdc00)) :: ·) <$> charsOfPieces? rest
      else none
    else if isLowSurrogate high then none
    else (Char.ofNat high :: ·) <$> charsOfPieces? (.unit low :: rest)
  | .unit n :: rest =>
    if isHighSurrogate n || isLowSurrogate n then none
    else (Char.ofNat n :: ·) <$> charsOfPieces? rest

/-- What the scanner is inside of. Pieces and characters are kept with the last one first. -/
inductive Mode
  /-- Between tokens. -/
  | between
  /-- In a run of letters. -/
  | word (letters : List Char)
  /-- In a run of numeral characters. -/
  | numeral (chars : List Char)
  /-- In a text between quotes. -/
  | text (pieces : List Piece)
  /-- After a backslash in a text. -/
  | escape (pieces : List Piece)
  /-- In the number of a unit, of which `missing` digits are to come. -/
  | unit (pieces : List Piece) (missing value : Nat)

/-- A scanner: what it is inside of, and the tokens before that, the last one first. -/
structure Scanner where
  mode : Mode
  tokens : List Token

namespace Scanner

/-- The blanks between tokens. -/
def isSeparator (c : Char) : Bool := c == ' ' || c == '\n' || c == '\t' || c == '\r'

/-- The characters that numerals are made of. -/
def isNumeralChar (c : Char) : Bool :=
  c.isDigit || c == '-' || c == '+' || c == '.' || c == 'e' || c == 'E'

/-- The token of a run of letters. -/
def wordToken? (letters : List Char) : Option Token :=
  if letters = "null".toList then some .null
  else if letters = "true".toList then some (.bool true)
  else if letters = "false".toList then some (.bool false)
  else none

/-- The character that stands for itself or a control character after a backslash. -/
def escaped? : Char → Option Char
  | '"' => some '"'
  | '\\' => some '\\'
  | '/' => some '/'
  | 'b' => some '\x08'
  | 'f' => some '\x0c'
  | 'n' => some '\n'
  | 'r' => some '\r'
  | 't' => some '\t'
  | _ => none

/-- The value of a hexadecimal digit. -/
def hexDigit? (c : Char) : Option Nat :=
  if c.isDigit then some (c.toNat - '0'.toNat)
  else if 'a' ≤ c ∧ c ≤ 'f' then some (c.toNat - 'a'.toNat + 10)
  else if 'A' ≤ c ∧ c ≤ 'F' then some (c.toNat - 'A'.toNat + 10)
  else none

/-- Takes a character between tokens. -/
def start (tokens : List Token) (c : Char) : Option Scanner :=
  if isSeparator c then some ⟨.between, tokens⟩
  else if c.isAlpha then some ⟨.word [c], tokens⟩
  else if c.isDigit || c == '-' then some ⟨.numeral [c], tokens⟩
  else match c with
    | '"' => some ⟨.text [], tokens⟩
    | '[' => some ⟨.between, .listOpen :: tokens⟩
    | ']' => some ⟨.between, .listClose :: tokens⟩
    | '{' => some ⟨.between, .objectOpen :: tokens⟩
    | '}' => some ⟨.between, .objectClose :: tokens⟩
    | ',' => some ⟨.between, .comma :: tokens⟩
    | ':' => some ⟨.between, .colon :: tokens⟩
    | _ => none

/-- The tokens when what the scanner is inside of ends here. -/
def close? (s : Scanner) : Option (List Token) :=
  match s.mode with
  | .between => some s.tokens
  | .word letters => (wordToken? letters.reverse).map (· :: s.tokens)
  | .numeral chars => (Numeral.ofChars? chars.reverse).map fun n => .numeral n :: s.tokens
  | _ => none

/-- Takes one character. -/
def step (s : Scanner) (c : Char) : Option Scanner :=
  match s.mode with
  | .between => start s.tokens c
  | .word letters =>
    if c.isAlpha then some { s with mode := .word (c :: letters) }
    else s.close?.bind (start · c)
  | .numeral chars =>
    if isNumeralChar c then some { s with mode := .numeral (c :: chars) }
    else s.close?.bind (start · c)
  | .text pieces =>
    if c = '"' then
      some ⟨.between, .text ((charsOfPieces? pieces.reverse).map String.ofList) :: s.tokens⟩
    else if c = '\\' then some { s with mode := .escape pieces }
    else if c.toNat < 0x20 then none
    else some { s with mode := .text (.char c :: pieces) }
  | .escape pieces =>
    if c = 'u' then some { s with mode := .unit pieces 4 0 }
    else (escaped? c).map fun c => { s with mode := .text (.char c :: pieces) }
  | .unit pieces missing value =>
    (hexDigit? c).map fun d =>
      if missing ≤ 1 then { s with mode := .text (.unit (value * 16 + d) :: pieces) }
      else { s with mode := .unit pieces (missing - 1) (value * 16 + d) }

end Scanner

/-- The tokens of a text, if it is made of tokens. -/
def tokens? (cs : List Char) : Option (List Token) :=
  ((cs.foldlM Scanner.step ⟨.between, []⟩).bind Scanner.close?).map List.reverse

end BucketPlanner.Json
