/-!
# Severity of errors

Every error has a code, a message and a severity, which says whether only the request at hand is
lost. Errors are shown in one form, `[SEVERITY] CODE: message`.
-/

namespace BucketPlanner

/-- What an error means for those who receive it. -/
inductive ErrorSeverity
  /-- The request is refused. -/
  | reject
  /-- What the program relies on does not hold. -/
  | fatal
  deriving DecidableEq

namespace ErrorSeverity

/-- The severity as it is shown. -/
def name : ErrorSeverity → String
  | reject => "REJECT"
  | fatal => "FATAL"

/-- The form in which errors are shown. -/
def headline (severity : ErrorSeverity) (code message : String) : String :=
  s!"[{severity.name}] {code}: {message}"

end ErrorSeverity

end BucketPlanner
