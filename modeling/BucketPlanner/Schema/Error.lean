import BucketPlanner.ErrorSeverity
import BucketPlanner.Value.DataType

/-!
# Errors of schemas

What can be wrong with a column, with the definition of a schema or with a record, as causes. The
wording is in the functions `text` and `message`; `SchemaError.code` names the kind of error.
-/

namespace BucketPlanner

/-- Which end of a column's domain. -/
inductive Bound
  | min
  | max
  deriving DecidableEq

/-- The name of a bound. -/
def Bound.name : Bound → String
  | min => "min"
  | max => "max"

/-- What is wrong with the type or the name of a column. -/
inductive TypeFault
  | emptyName
  | timestampNotUlong
  | unknownType (name : String) (size : Option UInt64)

/-- The wording of a fault of type. -/
def TypeFault.text : TypeFault → String
  | emptyName => "column name is empty"
  | timestampNotUlong => "TIMESTAMP must be of ulong type"
  | unknownType name none => s!"unknown type '{name}' (size None)"
  | unknownType name (some size) => s!"unknown type '{name}' (size Some({size.toNat}))"

/-- What is wrong with the domain of a column. -/
inductive DomainFault
  | wrongType (type : DataType)
  | inverted (min max : Value)
  | notLiteral (bound : Bound) (json : Json) (type : DataType)

/-- The wording of a fault of domain. -/
def DomainFault.text : DomainFault → String
  | wrongType type => s!"bounds do not match type {type}"
  | inverted min max => s!"min {min} exceeds max {max}"
  | notLiteral bound json type => s!"{bound.name} {json.render} is not a valid {type}"

/-- Why a column cannot be indexed. -/
inductive IndexingFault
  | noKeys (type : DataType)
  | alreadyIndexed

/-- The wording of a fault of indexing. -/
def IndexingFault.text : IndexingFault → String
  | noKeys type => s!"type {type} has no key domain"
  | alreadyIndexed => "already indexed"

/-- Why a record does not fit a schema. -/
inductive RecordFault
  | notObject (json : Json)
  | undeclared (field : String)
  | wrongLiteral (column : String) (type : DataType) (json : Json)
  | missing (column : String)

/-- The wording of a fault of a record. -/
def RecordFault.text : RecordFault → String
  | notObject json => s!"Record is not an object: {json.render}"
  | undeclared field => s!"Record has undeclared field '{field}'"
  | wrongLiteral column type json => s!"Field '{column}': expected {type}, got {json.render}"
  | missing column => s!"Record is missing field '{column}'"

/-- An error of a schema. -/
inductive SchemaError
  | unknownColumn (name : String)
  | duplicateColumn (name : String)
  | invalidType (column : String) (fault : TypeFault)
  | invalidBounds (column : String) (fault : DomainFault)
  | notIndexable (column : String) (fault : IndexingFault)
  | invalidBucket (column : String) (bucketSize : Binary64)
  | recordMismatch (fault : RecordFault)
  | malformed (reason : String)

namespace SchemaError

/-- The code of an error. -/
def code : SchemaError → String
  | unknownColumn _ => "TIDE_SCHEMA_UNKNOWN_COLUMN"
  | duplicateColumn _ => "TIDE_SCHEMA_DUPLICATE_COLUMN"
  | invalidType .. => "TIDE_SCHEMA_INVALID_TYPE"
  | invalidBounds .. => "TIDE_SCHEMA_INVALID_BOUNDS"
  | notIndexable .. => "TIDE_SCHEMA_NOT_INDEXABLE"
  | invalidBucket .. => "TIDE_SCHEMA_INVALID_BUCKET"
  | recordMismatch _ => "TIDE_SCHEMA_RECORD_MISMATCH"
  | malformed _ => "TIDE_SCHEMA_MALFORMED"

/-- A definition that cannot be read is fatal. -/
def severity : SchemaError → ErrorSeverity
  | malformed _ => .fatal
  | _ => .reject

/-- The wording of an error. -/
def message : SchemaError → String
  | unknownColumn name => s!"No such attribute '{name}'"
  | duplicateColumn name => s!"Column '{name}' declared more than once"
  | invalidType column fault => s!"Column '{column}': {fault.text}"
  | invalidBounds column fault => s!"Column '{column}': {fault.text}"
  | notIndexable column fault => s!"Column '{column}' cannot be indexed: {fault.text}"
  | invalidBucket column bucketSize =>
    s!"Column '{column}': bucket size {(Value.float bucketSize).render} must be positive and finite"
  | recordMismatch fault => fault.text
  | malformed reason => reason

/-- The error as it is shown. -/
def render (e : SchemaError) : String := e.severity.headline e.code e.message

end SchemaError

end BucketPlanner
