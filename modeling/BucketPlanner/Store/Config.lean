import BucketPlanner.Report.Entry
import BucketPlanner.Schema.Definition
import BucketPlanner.Command.Error

/-!
# Configurations

A configuration is a JSON structure with the log level, the definition of the schema and the
records of the log, `{"log_level": "warn", "schema": {"columns": [...]}, "records": [...]}`. The
level may be left out, and so may the records. A configuration is valid when its level is known and
its schema has a column and can be built.
-/

namespace BucketPlanner

open Json (Shape)

/-- A configuration. -/
structure Config where
  /-- The log level as it is given. -/
  logLevel : String
  schema : SchemaDef
  /-- The records in the order of the log. -/
  records : List Json

namespace Config

/-- The JSON shape of a configuration. -/
def shape : Shape Config :=
  Shape.fields ["log_level", "schema", "records"] fun levels slots =>
    match slots with
    | [logLevel, schema, records] => do
      let logLevel ← Shape.withDefault Shape.text "warn" levels logLevel
      let schema ← Shape.required SchemaDef.shape levels schema
      let records ← Shape.withDefault (.list Shape.any) [] levels records
      return { logLevel, schema, records }
    | _ => none

/-- The log level of a configuration. -/
def level (c : Config) : Except CommandError LogLevel :=
  (LogLevel.ofText c.logLevel).mapError fun reason => .config (.badLogLevel reason)

/-- Refuses a configuration that is not valid. -/
def validate (c : Config) : Except (Failure CommandError) Unit := do
  let _ ← c.level.mapError .reported
  if c.schema.columns.isEmpty then throw (.reported (.config .noColumns))
  let _ ← c.schema.build.mapError (Failure.map .schema)

/-- Reads a valid configuration. -/
def ofText (s : String) : Except (Failure CommandError) Config := do
  match Shape.ofText? shape s with
  | none => throw (.reported (.config .malformed))
  | some c => c.validate; return c

end Config

end BucketPlanner
