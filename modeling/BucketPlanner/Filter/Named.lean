import BucketPlanner.Plan.Error

/-!
# Named predicates

A request names columns and relations by text and gives literals in JSON. Binding finds the columns
in a schema, reads the relations, and reads each literal as one of its column's type.
-/

namespace BucketPlanner

/-- A predicate as a request gives it. -/
structure NamedPredicate where
  field : String
  op : String
  value : Json

/-- A disjunction of conjunctions of named predicates. -/
abbrev NamedExpression := List (List NamedPredicate)

/-- Binds a predicate to a schema. -/
def NamedPredicate.bind (p : NamedPredicate) (schema : Schema) : Except PlanError Predicate :=
  match schema.fieldIndex p.field with
  | .error _ => .error (.unknownFieldName p.field)
  | .ok field =>
    match Comparison.ofText? p.op with
    | none => .error (.unknownOperator p.op)
    | some comparison =>
      match schema.column? field with
      | none => .error (.unknownField field schema.size)
      | some column =>
        match column.type.valueOfJson? p.value with
        | none => .error (.literalMismatch field column.name (.notLiteral p.value column.type))
        | some value => .ok { field, comparison, value }

/-- Binds an expression to a schema; the first predicate that cannot be bound decides. -/
def NamedExpression.bind (e : NamedExpression) (schema : Schema) : Except PlanError Expression :=
  e.mapM fun m => m.mapM fun p => p.bind schema

end BucketPlanner
