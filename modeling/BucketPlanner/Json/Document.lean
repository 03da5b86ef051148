import BucketPlanner.Json.Token

/-!
# JSON documents

A document is JSON text as it is written: members in their order, also when names repeat, numerals
with all their digits, and texts that denote no string. It is read from tokens by a stack machine
(`Builder.step`), which nests as deeply as the text does; limits on depth and on numbers are for
those who make a value of the document.
-/

namespace BucketPlanner.Json

/-- A JSON document. -/
inductive Document
  | null
  | bool (b : Bool)
  | numeral (n : Numeral)
  | text (s : Option String)
  | list (items : List Document)
  | object (members : List (Option String × Document))
  deriving Inhabited

/-- A list or object that is not closed yet, with what it holds, the last first. -/
inductive Frame
  | list (items : List Document)
  | object (members : List (Option String × Document))
  /-- An object after the name and colon of a member. -/
  | member (members : List (Option String × Document)) (name : Option String)

/-- What may come next. -/
inductive Expected
  /-- The value of the document, an item after a comma, or a member's value. -/
  | value
  /-- The first item of a list or its end. -/
  | valueOrClose
  /-- The first member of an object or its end. -/
  | nameOrClose
  /-- A member's name after a comma. -/
  | name
  /-- The colon after the name of a member. -/
  | colon
  /-- A comma or the end of what is open; the end of the text when nothing is open. -/
  | separator

/-- The machine's state: the open lists and objects, the innermost first, and what may come next.
When nothing is open, `root` holds the document read. -/
structure Builder where
  frames : List Frame
  expected : Expected
  root : Option Document

namespace Builder

/-- Puts a complete document where it belongs. -/
def place (frames : List Frame) (d : Document) : Option Builder :=
  match frames with
  | [] => some ⟨[], .separator, some d⟩
  | .list items :: rest => some ⟨.list (d :: items) :: rest, .separator, none⟩
  | .member members name :: rest => some ⟨.object ((name, d) :: members) :: rest, .separator, none⟩
  | .object _ :: _ => none

/-- Closes the innermost list. -/
def closeList : List Frame → Option Builder
  | .list items :: rest => place rest (.list items.reverse)
  | _ => none

/-- Closes the innermost object. -/
def closeObject : List Frame → Option Builder
  | .object members :: rest => place rest (.object members.reverse)
  | _ => none

/-- Opens or places a value. -/
def takeValue (frames : List Frame) : Token → Option Builder
  | .listOpen => some ⟨.list [] :: frames, .valueOrClose, none⟩
  | .objectOpen => some ⟨.object [] :: frames, .nameOrClose, none⟩
  | .null => place frames .null
  | .bool b => place frames (.bool b)
  | .numeral n => place frames (.numeral n)
  | .text s => place frames (.text s)
  | _ => none

/-- Takes the name of a member of the innermost object. -/
def takeName : List Frame → Token → Option Builder
  | .object members :: rest, .text s => some ⟨.member members s :: rest, .colon, none⟩
  | _, _ => none

/-- Takes one token. -/
def step (b : Builder) (t : Token) : Option Builder :=
  match b.expected with
  | .value => takeValue b.frames t
  | .valueOrClose => if t = .listClose then closeList b.frames else takeValue b.frames t
  | .nameOrClose => if t = .objectClose then closeObject b.frames else takeName b.frames t
  | .name => takeName b.frames t
  | .colon => if t = .colon then some { b with expected := .value } else none
  | .separator =>
    match b.frames, t with
    | .list _ :: _, .comma => some { b with expected := .value }
    | .list _ :: _, .listClose => closeList b.frames
    | .object _ :: _, .comma => some { b with expected := .name }
    | .object _ :: _, .objectClose => closeObject b.frames
    | _, _ => none

end Builder

/-- The document that tokens form, if they form one. -/
def Document.ofTokens? (tokens : List Token) : Option Document :=
  (tokens.foldlM Builder.step ⟨[], .value, none⟩).bind Builder.root

/-- The document that a text is. -/
def Document.ofText? (text : String) : Option Document :=
  (tokens? text.toList).bind Document.ofTokens?

end BucketPlanner.Json
