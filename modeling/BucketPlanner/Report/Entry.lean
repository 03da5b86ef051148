import BucketPlanner.Json.Printer
import BucketPlanner.Report.LogLevel

/-!
# Log entries

An entry of the log has a level, the name of an event and named fields. It is written as one line
of JSON: the event, the level, and the fields in ascending order of their names, fields of one name
in the order in which they were given. `Event` lists the events of the program, each with its level.
-/

namespace BucketPlanner

/-- An entry of the log. -/
structure LogEntry where
  level : LogLevel
  event : String
  fields : List (String × String)
  deriving DecidableEq

namespace LogEntry

/-- The fields in ascending order of their names; the order of fields with one name is kept. -/
def sortedFields (e : LogEntry) : List (String × String) :=
  e.fields.mergeSort fun a b => (compare a.1 b.1).isLE

/-- A field as it stands in a line, with the comma in front of it. -/
def fieldText (field : String × String) : String :=
  "," ++ Json.renderText field.1 ++ ":" ++ Json.renderText field.2

/-- The line of an entry, without its end. -/
def line (e : LogEntry) : String :=
  "\x7b\"event\":" ++ Json.renderText e.event ++ ",\"severity\":\"" ++ e.level.name ++ "\"" ++
    String.join (e.sortedFields.map fieldText) ++ "\x7d"

/-- The line of an entry with its end, as it is written to the log. -/
def written (e : LogEntry) : String := e.line ++ "\n"

end LogEntry

/-- What the program reports. -/
inductive Event
  /-- A configuration was read and is valid. -/
  | configLoaded
  /-- An index was created on a column. -/
  | indexBuilt
  /-- A plan was made. -/
  | planComplete
  /-- No index serves a minterm, so the plan is a full scan. -/
  | planFullScanFallback
  /-- The predicates of a minterm contradict each other, so it was dropped. -/
  | planMintermUnsatisfiable
  /-- Planning ended with an error. -/
  | planFailed
  deriving DecidableEq

namespace Event

/-- The name of an event. -/
def name : Event → String
  | configLoaded => "CONFIG_LOADED"
  | indexBuilt => "INDEX_BUILT"
  | planComplete => "PLAN_COMPLETE"
  | planFullScanFallback => "PLAN_FULL_SCAN_FALLBACK"
  | planMintermUnsatisfiable => "PLAN_MINTERM_UNSATISFIABLE"
  | planFailed => "PLAN_FAILED"

/-- The level at which an event is reported. -/
def level : Event → LogLevel
  | configLoaded | indexBuilt | planFullScanFallback => .info
  | planComplete | planMintermUnsatisfiable => .trace
  | planFailed => .error

/-- The entry of an event. -/
def entry (e : Event) (fields : List (String × String)) : LogEntry := ⟨e.level, e.name, fields⟩

end Event

end BucketPlanner
