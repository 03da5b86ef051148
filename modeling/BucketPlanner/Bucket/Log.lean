import BucketPlanner.Bucket.Error
import BucketPlanner.Schema.Record

/-!
# The log of indexes

The indexes of a store are numbered in the order in which they were added. Adding an index marks
its column in the schema. Entering a record goes through the indexed columns in order; a value
without a key ends it, and the entries made before that remain.
-/

namespace BucketPlanner

/-- The indexes of a store, in the order of their identifiers. -/
structure IndexLog where
  indexes : List BucketIndex

namespace IndexLog

/-- No indexes. -/
def empty : IndexLog := ⟨[]⟩

/-- How many indexes there are. -/
def size (log : IndexLog) : Nat := log.indexes.length

/-- The index of an identifier. -/
def index? (log : IndexLog) (id : IndexId) : Option BucketIndex := log.indexes[id.position]?

/-- What adding an index gives. -/
structure Added where
  id : IndexId
  schema : Schema
  log : IndexLog

/-- Adds an index on a column. -/
def addIndex (log : IndexLog) (schema : Schema) (column : String) (bucketSize : Binary64) :
    Except IndexError Added :=
  match schema.fieldIndex column with
  | .error e => .error (.buildFailed (.rejected e))
  | .ok position =>
    match IndexId.ofPosition? log.size with
    | none => .error (.buildFailed .idsExhausted)
    | some id =>
      match schema.column? position with
      | none => .error (.buildFailed (.columnVanished position))
      | some c =>
        match c.withIndex id bucketSize with
        | .error e => .error (.buildFailed (.rejected e))
        | .ok c =>
          .ok {
            id
            schema := schema.setColumn position c
            log := ⟨log.indexes ++ [BucketIndex.empty bucketSize]⟩ }

/-- What entering a record gives: the indexes afterwards, and the error that ended it. -/
structure Entered where
  log : IndexLog
  error : Option IndexError

/-- Enters the values of a record into the indexes of their columns, in order. -/
def enterFields (offset : Offset) : List (Column × Value) → IndexLog → Entered
  | [], log => ⟨log, none⟩
  | (column, value) :: rest, log =>
    match column.index with
    | none => enterFields offset rest log
    | some state =>
      match log.index? state.id with
      | none => ⟨log, some (.buildFailed (.unknownIndex state.id))⟩
      | some index =>
        match index.insertValue? value offset with
        | none => ⟨log, some (.recordMismatch offset (.noKey value column.name))⟩
        | some index => enterFields offset rest ⟨log.indexes.set state.id.position index⟩

/-- Enters a record, which must have a value for each column. -/
def enter (log : IndexLog) (schema : Schema) (record : Record) (offset : Offset) : Entered :=
  if record.length ≠ schema.size then
    ⟨log, some (.recordMismatch offset (.wrongSize schema.size record.length))⟩
  else enterFields offset (schema.columns.zip record) log

end IndexLog

/-- What is known of the indexes of a store when a scan is planned: for every index that there is,
how many entries it has in a range. -/
abbrev IndexCosts := IndexId → Option (KeyRange → Nat)

/-- The costs of the indexes in a log. -/
def IndexLog.costs (log : IndexLog) : IndexCosts := fun id => (log.index? id).map BucketIndex.count

end BucketPlanner
