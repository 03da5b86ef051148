import BucketPlanner.Schema.Basic

/-!
# Filter expressions

A filter is a disjunction of minterms, each of them a conjunction of predicates. A predicate
compares the value of a column, given by its place, with a literal. A record satisfies an
expression when it satisfies all predicates of one of its minterms.
-/

namespace BucketPlanner

/-- A relation between the value of a column and a literal. -/
inductive Comparison
  | eq
  | neq
  | ge
  | le
  | gt
  | lt
  deriving DecidableEq, Inhabited

namespace Comparison

/-- The sign of a relation. -/
def symbol : Comparison → String
  | eq => "=="
  | neq => "!="
  | ge => ">="
  | le => "<="
  | gt => ">"
  | lt => "<"

/-- The name of a relation. -/
def name : Comparison → String
  | eq => "eq"
  | neq => "neq"
  | ge => "ge"
  | le => "le"
  | gt => "gt"
  | lt => "lt"

/-- The values in the relation to a literal are neighbours in the order. -/
def isRange : Comparison → Bool
  | neq => false
  | _ => true

/-- Whether the relation holds of two values in the given order. -/
def holds : Comparison → Ordering → Bool
  | eq, o => o = .eq
  | neq, o => o ≠ .eq
  | ge, o => o ≠ .lt
  | le, o => o ≠ .gt
  | gt, o => o = .gt
  | lt, o => o = .lt

/-- The relation of a sign or name, in letters of any case and with blanks around it. -/
def ofText? (text : String) : Option Comparison :=
  match lowerCase (trim text) with
  | "==" | "=" | "eq" => some eq
  | "!=" | "<>" | "neq" => some neq
  | ">=" | "ge" => some ge
  | "<=" | "le" => some le
  | ">" | "gt" => some gt
  | "<" | "lt" => some lt
  | _ => none

end Comparison

/-- A comparison of a column with a literal. -/
structure Predicate where
  /-- The place of the column in the schema. -/
  field : Nat
  comparison : Comparison
  value : Value
  deriving DecidableEq, Inhabited

namespace Predicate

/-- The predicate with the place of its column. -/
def render (p : Predicate) : String := s!"#{p.field} {p.comparison.symbol} {p.value}"

/-- The predicate with the name of its column. -/
def describe (p : Predicate) (schema : Schema) : String :=
  match schema.column? p.field with
  | some column => s!"{column.name} {p.comparison.symbol} {p.value}"
  | none => p.render

/-- Whether a record satisfies the predicate. Values that are not compared satisfy none. -/
def holds (p : Predicate) (record : List Value) : Bool :=
  match record[p.field]? with
  | none => false
  | some v =>
    match v.compare? p.value with
    | none => false
    | some o => p.comparison.holds o

/-- Equality up to the numeric equality of literals. -/
def equals (p q : Predicate) : Bool :=
  p.field = q.field && p.comparison = q.comparison && p.value.equals q.value

end Predicate

/-- A conjunction of predicates. -/
abbrev Minterm := List Predicate

namespace Minterm

/-- The predicates, joined by "and". -/
def render (m : Minterm) : String := String.intercalate " AND " (m.map Predicate.render)

/-- The predicates with the names of their columns; a minterm without predicates is true. -/
def describe (m : Minterm) (schema : Schema) : String :=
  if m.isEmpty then "TRUE"
  else String.intercalate " AND " (m.map fun p => p.describe schema)

/-- Whether a record satisfies all predicates. -/
def holds (m : Minterm) (record : List Value) : Bool := m.all fun p => p.holds record

/-- Equality up to the numeric equality of literals. -/
def equals : Minterm → Minterm → Bool
  | [], [] => true
  | p :: ps, q :: qs => p.equals q && equals ps qs
  | _, _ => false

end Minterm

/-- A disjunction of minterms. -/
abbrev Expression := List Minterm

namespace Expression

/-- The minterms in brackets, joined by "or". -/
def render (e : Expression) : String :=
  String.intercalate " OR " (e.map fun m => s!"({Minterm.render m})")

/-- Whether a record satisfies one of the minterms. -/
def holds (e : Expression) (record : List Value) : Bool := e.any fun m => Minterm.holds m record

/-- Equality up to the numeric equality of literals. -/
def equals : Expression → Expression → Bool
  | [], [] => true
  | m :: ms, n :: ns => Minterm.equals m n && equals ms ns
  | _, _ => false

end Expression

end BucketPlanner
