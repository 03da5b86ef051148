import BucketPlanner.Schema.Column

/-!
# Schemas

A schema is the list of the columns of a record. Its first column is the time stamp. Columns are
found by name in letters of any case.
-/

namespace BucketPlanner

/-- The columns of a record, in order. -/
structure Schema where
  columns : List Column
  /-- The size of a record in bytes. -/
  recordSize : UInt64
  deriving DecidableEq, Inhabited

namespace Schema

/-- The name of the column that every schema starts with. -/
def timestampName : String := "TIMESTAMP"

/-- How many columns there are. -/
def size (s : Schema) : Nat := s.columns.length

/-- The column at a place. -/
def column? (s : Schema) (position : Nat) : Option Column := s.columns[position]?

/-- The place of the column with a name; columns have their names in upper case. -/
def fieldIndex (s : Schema) (name : String) : Except SchemaError Nat :=
  match s.columns.findIdx? (·.name == upperCase name) with
  | some position => .ok position
  | none => .error (.unknownColumn name)

/-- The columns that have an index, in order. -/
def indexedColumns (s : Schema) : List Column := s.columns.filter Column.isIndexed

/-- The column that an index is kept on. -/
def columnOfIndex? (s : Schema) (id : IndexId) : Option Column :=
  s.indexedColumns.find? (·.indexId? == some id)

/-- The schema with another column at a place. -/
def setColumn (s : Schema) (position : Nat) (column : Column) : Schema :=
  { s with columns := s.columns.set position column }

/-- The names and types of the columns, one to a line. -/
def render (s : Schema) : String :=
  "\x7b\n" ++ String.join (s.columns.map fun c => s!"\t{c.name}: {c.type},\n") ++ "\x7d"

end Schema

end BucketPlanner
