import BucketPlanner.Schema.Basic

/-!
# Records

A record is given as a JSON object with a member for every column, named in letters of any case.
`Schema.readRecord` reads its values in the order of the columns; a record without a time stamp is
given the present time.
-/

namespace BucketPlanner

/-- The values of a record, one for each column. -/
abbrev Record := List Value

namespace Schema

/-- The member of a record for a column: the first one whose name differs from the column's in the
case of letters only. -/
def memberFor? (members : List (String × Json)) (column : Column) : Option Json :=
  (members.find? fun m => equalIgnoringCase m.1 column.name).map Prod.snd

/-- Reads the value of a column from the members of a record. -/
def readField (now : UInt64) (members : List (String × Json)) (column : Column) :
    Except SchemaError Value :=
  match memberFor? members column with
  | some json =>
    match column.type.valueOfJson? json with
    | some v => .ok v
    | none => .error (.recordMismatch (.wrongLiteral column.name column.type json))
  | none =>
    if column.name = timestampName then .ok (.uint now)
    else .error (.recordMismatch (.missing column.name))

/-- Every member of a record is named after a column. -/
def checkDeclared (s : Schema) (members : List (String × Json)) : Except SchemaError Unit :=
  members.forM fun m =>
    match s.fieldIndex m.1 with
    | .ok _ => .ok ()
    | .error _ => .error (.recordMismatch (.undeclared m.1))

/-- Reads a record at the present time `now`. -/
def readRecord (s : Schema) (now : UInt64) (json : Json) : Except SchemaError Record :=
  match json with
  | .object members => do
    s.checkDeclared members
    s.columns.mapM (readField now members)
  | json => .error (.recordMismatch (.notObject json))

end Schema

end BucketPlanner
