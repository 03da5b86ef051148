import BucketPlanner.Bucket.Error
import BucketPlanner.Filter.Request

/-!
# Failures of commands

A command fails when its configuration or its request cannot be read, or when one of the parts of
the program refuses what it is given; errors of the parts keep their own codes and messages.
-/

namespace BucketPlanner

/-- Why a file or the standard input could not be read as text. -/
inductive ReadFault
  | notFound
  | isDirectory
  /-- A file stands where the path needs a directory. -/
  | notDirectory
  /-- The path, or a name in it, is longer than the system allows. -/
  | nameTooLong
  | accessDenied
  | tooManyLinks
  | invalidEncoding
  /-- Any other reason, as the system states it. -/
  | stated (reason : String)

/-- The wording of a fault of reading. -/
def ReadFault.message : ReadFault → String
  | notFound => "No such file or directory (os error 2)"
  | isDirectory => "Is a directory (os error 21)"
  | notDirectory => "Not a directory (os error 20)"
  | nameTooLong => "File name too long (os error 36)"
  | accessDenied => "Permission denied (os error 13)"
  | tooManyLinks => "Too many levels of symbolic links (os error 40)"
  | invalidEncoding => "stream did not contain valid UTF-8"
  | stated reason => reason

/-- The fault that the system states by a number. -/
def ReadFault.ofSystemCode? : Nat → Option ReadFault
  | 2 => some notFound
  | 13 => some accessDenied
  | 20 => some notDirectory
  | 21 => some isDirectory
  | 36 => some nameTooLong
  | 40 => some tooManyLinks
  | _ => none

/-- What is wrong with a configuration. -/
inductive ConfigFault
  | unreadable (fault : ReadFault)
  | malformed
  | badLogLevel (reason : String)
  | noColumns

/-- The wording of a fault of a configuration. -/
def ConfigFault.message : ConfigFault → String
  | unreadable fault => s!"Failed to read config: {fault.message}"
  | malformed => "Invalid config JSON: not a configuration"
  | badLogLevel reason => s!"Invalid log_level: {reason}"
  | noColumns => "schema must declare at least one column"

/-- What is wrong with a request. -/
inductive RequestFault
  | empty
  | shape (fault : ShapeFault)

/-- The wording of a fault of a request. -/
def RequestFault.message : RequestFault → String
  | empty => "Empty input"
  | shape fault => fault.message

/-- Why a command fails. -/
inductive CommandError
  | config (fault : ConfigFault)
  | invalidRequest (fault : RequestFault)
  | unreadable (fault : ReadFault)
  /-- The request is not JSON. -/
  | malformedJson
  | schema (error : SchemaError)
  | index (error : IndexError)
  | plan (error : PlanError)

namespace CommandError

/-- The code of a failure. -/
def code : CommandError → String
  | config _ => "TIDE_CLI_CONFIG_ERROR"
  | invalidRequest _ => "TIDE_CLI_INVALID_REQUEST"
  | unreadable _ => "TIDE_CLI_IO_ERROR"
  | malformedJson => "TIDE_CLI_JSON_ERROR"
  | schema e => e.code
  | index e => e.code
  | plan e => e.code

/-- The wording of a failure. -/
def message : CommandError → String
  | config fault => fault.message
  | invalidRequest fault => fault.message
  | unreadable fault => fault.message
  | malformedJson => "not a JSON value"
  | schema e => e.message
  | index e => e.message
  | plan e => e.message

/-- The failure as it is shown. -/
def render : CommandError → String
  | config fault => s!"Config error: {fault.message}"
  | invalidRequest fault => s!"Invalid request: {fault.message}"
  | unreadable fault => s!"I/O error: {fault.message}"
  | malformedJson => s!"JSON error: {malformedJson.message}"
  | schema e => e.render
  | index e => e.render
  | plan e => e.render

end CommandError

end BucketPlanner
