import BucketPlanner.Bucket.Index
import BucketPlanner.Schema.Column

/-!
# Errors of indexes

Why an index cannot be built and why a record cannot be entered into the indexes. Every error is a
rejection.
-/

namespace BucketPlanner

/-- Why an index cannot be built or found. -/
inductive BuildFault
  /-- The schema refuses the index. -/
  | rejected (error : SchemaError)
  | idsExhausted
  | columnVanished (position : Nat)
  | unknownIndex (id : IndexId)

/-- The wording of a fault of building. -/
def BuildFault.text : BuildFault → String
  | rejected error => error.message
  | idsExhausted => "Index id space exhausted"
  | columnVanished position => s!"Column {position} vanished"
  | unknownIndex id => s!"Unknown index {id}"

/-- Why a record cannot be entered into the indexes. -/
inductive EntryFault
  | wrongSize (expected found : Nat)
  | noKey (value : Value) (column : String)

/-- The wording of a fault of entry. -/
def EntryFault.text : EntryFault → String
  | wrongSize expected found => s!"expected {expected} values, got {found}"
  | noKey value column => s!"value {value} of '{column}' has no key"

/-- An error of the indexes. -/
inductive IndexError
  | buildFailed (fault : BuildFault)
  | recordMismatch (offset : Offset) (fault : EntryFault)

namespace IndexError

/-- The code of an error. -/
def code : IndexError → String
  | buildFailed _ => "TIDE_INDEX_BUILD_FAILED"
  | recordMismatch .. => "TIDE_INDEX_RECORD_MISMATCH"

/-- The request is refused. -/
def severity (_ : IndexError) : ErrorSeverity := .reject

/-- The wording of an error. -/
def message : IndexError → String
  | buildFailed fault => fault.text
  | recordMismatch offset fault => s!"Record at offset {offset.toNat}: {fault.text}"

/-- The error as it is shown. -/
def render (e : IndexError) : String := e.severity.headline e.code e.message

end IndexError

end BucketPlanner
