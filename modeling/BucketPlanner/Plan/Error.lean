import BucketPlanner.Filter.Expression

/-!
# Errors of planning

An expression is refused when a predicate names no column or compares it with an unfit literal.
It is fatal when the schema and the indexes do not agree.
-/

namespace BucketPlanner

/-- What is wrong with the literal of a predicate. -/
inductive LiteralFault
  | notLiteral (json : Json) (type : DataType)
  | notComparable (value : Value) (type : DataType)
  | noKey (value : Value)

/-- The wording of a fault of a literal. -/
def LiteralFault.text : LiteralFault → String
  | notLiteral json type => s!"{json.render} is not a valid {type}"
  | notComparable value type => s!"{value} cannot be compared with {type}"
  | noKey value => s!"{value} has no key"

/-- What is wrong with what a column knows of its index. -/
inductive ColumnIndexFault
  | notIndexed
  | badBucketSize (bucketSize : Binary64)
  | boundWithoutKey (bound : Value)

/-- The wording of a fault of a column's index. -/
def ColumnIndexFault.text : ColumnIndexFault → String
  | notIndexed => "column is not indexed"
  | badBucketSize bucketSize =>
    s!"bucket size {(Value.float bucketSize).render} is not positive and finite"
  | boundWithoutKey bound => s!"domain bound {bound} has no key"

/-- An error of planning. -/
inductive PlanError
  | unknownField (field columns : Nat)
  | unknownFieldName (name : String)
  | unknownOperator (text : String)
  | nonRangeOperator (field : Nat) (symbol : String)
  | literalMismatch (field : Nat) (column : String) (fault : LiteralFault)
  | missingIndex (id : IndexId) (column : String)
  | corruptColumnIndex (field : Nat) (column : String) (fault : ColumnIndexFault)

namespace PlanError

/-- Refused expressions are rejections; the rest is fatal. -/
def severity : PlanError → ErrorSeverity
  | missingIndex .. | corruptColumnIndex .. => .fatal
  | _ => .reject

/-- The code of an error. -/
def code (e : PlanError) : String :=
  match e.severity with
  | .reject => "TIDE_PLAN_MALFORMED_PREDICATE"
  | .fatal => "TIDE_PLAN_INVARIANT_VIOLATION"

/-- The wording of an error. -/
def message : PlanError → String
  | unknownField field columns =>
    s!"Predicate references field {field} but schema has {columns} columns"
  | unknownFieldName name => s!"No such attribute '{name}'"
  | unknownOperator text => s!"Invalid operator in predicate: '{text}'"
  | nonRangeOperator field symbol => s!"Operator '{symbol}' on field {field} has no key range"
  | literalMismatch _ column fault => s!"Literal for '{column}': {fault.text}"
  | missingIndex id column => s!"Column '{column}' is indexed by {id} but no such index exists"
  | corruptColumnIndex _ column fault => s!"Column '{column}' index metadata: {fault.text}"

/-- The error as it is shown. -/
def render (e : PlanError) : String := e.severity.headline e.code e.message

end PlanError

end BucketPlanner
