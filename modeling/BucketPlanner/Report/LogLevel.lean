import BucketPlanner.Text.Blank

/-!
# Log levels

Log lines have one of five levels. A threshold lets those lines through whose level is not below.
-/

namespace BucketPlanner

/-- The level of a log line. -/
inductive LogLevel
  | trace
  | info
  | warn
  | error
  | fatal
  deriving DecidableEq, Inhabited

namespace LogLevel

/-- All levels, from the least to the most severe. -/
def all : List LogLevel := [trace, info, warn, error, fatal]

/-- The level as it is shown. -/
def name : LogLevel → String
  | trace => "TRACE"
  | info => "INFO"
  | warn => "WARN"
  | error => "ERROR"
  | fatal => "FATAL"

/-- The place among the levels. -/
def rank : LogLevel → Nat
  | trace => 0
  | info => 1
  | warn => 2
  | error => 3
  | fatal => 4

/-- Lines of a level pass a threshold. -/
def passes (level threshold : LogLevel) : Bool := threshold.rank ≤ level.rank

/-- The level of a name in letters of any case, or what is wrong with the name. -/
def ofText (text : String) : Except String LogLevel :=
  match lowerCase text with
  | "trace" => .ok trace
  | "info" => .ok info
  | "warn" => .ok warn
  | "error" => .ok error
  | "fatal" => .ok fatal
  | other => .error s!"Unknown log level '{other}'"

end LogLevel

end BucketPlanner
