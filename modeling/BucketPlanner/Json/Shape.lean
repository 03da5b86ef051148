import BucketPlanner.Json.Reader

/-!
# Shapes of JSON documents

A `Shape α` says which documents stand for a value of `α`, below a given number of levels. A
structure is written as an object, with each of its fields at most once and other members ignored,
or as the list of its fields in order, where fields at the end may be left out. Members that are
ignored count for nothing: neither their depth nor their numbers are checked.
-/

namespace BucketPlanner.Json

/-- The values that documents of a shape stand for, when they nest at most so many levels deep. -/
abbrev Shape (α : Type) := Nat → Document → Option α

namespace Shape

/-- Any JSON value. -/
def any : Shape Json := ofDocument?

/-- A text. -/
def text : Shape String
  | _, .text s => s
  | _, _ => none

/-- An integer from zero on that fits into 64 bits. -/
def natural : Shape UInt64
  | _, .numeral n => n.jsonNumber?.bind JsonNumber.toUInt64?
  | _, _ => none

/-- A number of any kind. -/
def number : Shape Binary64
  | _, .numeral n => n.jsonNumber?.map JsonNumber.toBinary64
  | _, _ => none

/-- `null` stands for absence. -/
def optional (shape : Shape α) : Shape (Option α)
  | _, .null => some none
  | levels, d => (shape levels d).map some

/-- A list of values of one shape. -/
def list (shape : Shape α) : Shape (List α)
  | levels + 1, .list ds => ds.mapM (shape levels)
  | _, _ => none

/-- The fields of a structure as they are written; `none` for one that is left out. -/
def slots? (names : List String) : Document → Option (List (Option Document))
  | .list ds =>
    if ds.length ≤ names.length then
      some (ds.map some ++ List.replicate (names.length - ds.length) none)
    else none
  | .object members => do
    let members ← members.mapM fun (name, d) => name.map (·, d)
    names.mapM fun name =>
      match members.filter (·.1 = name) with
      | [] => some none
      | [(_, d)] => some (some d)
      | _ => none
  | _ => none

/-- A field that may not be left out. -/
def required (shape : Shape α) (levels : Nat) (slot : Option Document) : Option α :=
  slot.bind (shape levels)

/-- A field that has a value when it is left out. -/
def withDefault (shape : Shape α) (value : α) (levels : Nat) (slot : Option Document) : Option α :=
  match slot with
  | none => some value
  | some d => shape levels d

/-- A structure with the fields of the given names. -/
def fields (names : List String) (make : Nat → List (Option Document) → Option α) : Shape α
  | levels + 1, d => (slots? names d).bind (make levels)
  | _, _ => none

/-- The value that a text of this shape stands for. -/
def ofText? (shape : Shape α) (s : String) : Option α :=
  (Document.ofText? s).bind (shape levelLimit)

end Shape

end BucketPlanner.Json
