import BucketPlanner.Command.Arguments
import BucketPlanner.Store.Basic

/-!
# Sessions

A session carries out one action: it opens the store of a configuration, reads a request and writes
one line of JSON, `{"data": ..., "status": "ok"}` or `{"code": ..., "message": ..., "status":
"error"}`. Log lines and the failure go to the standard error output. The level of the configuration
is the threshold of the log from the moment the configuration is read. An overflow ends a session
without an answer.
-/

namespace BucketPlanner.Session

/-- A session after the store was opened, or after that failed. -/
structure Opened where
  threshold : LogLevel
  entries : List LogEntry
  store : Except (Failure CommandError) Store

/-- What a session writes and how it ends. -/
structure Transcript where
  output : String
  errorOutput : String
  exitCode : UInt8

/-- The configuration of a file with its level. -/
def readConfig (content : Except ReadFault String) :
    Except (Failure CommandError) (Config × LogLevel) := do
  let text ← content.mapError fun fault => .reported (.config (.unreadable fault))
  let config ← Config.ofText text
  return (config, ← config.level.mapError .reported)

/-- Opens the store of the configuration that was read from a path, with the readings of the clock for
its records. -/
def openStore (path : String) (config : Except (Failure CommandError) (Config × LogLevel))
    (clock : Nat → UInt64) : Opened :=
  match config with
  | .error failure => ⟨.warn, [], .error failure⟩
  | .ok (config, level) =>
    let opened := Store.ofConfig config clock
    ⟨level, Event.configLoaded.entry [("path", path)] :: opened.entries, opened.result⟩

/-- Reads the request that was given as input. -/
def readRequest (input : Except ReadFault String) : Except CommandError Json :=
  match input with
  | .error fault => .error (.unreadable fault)
  | .ok text =>
    if trim text = "" then .error (.invalidRequest .empty)
    else match Json.ofText? text with
      | some json => .ok json
      | none => .error .malformedJson

/-- Carries out an action on a store. -/
def respond (action : Action) (store : Store) (input : Except ReadFault String) :
    Logged CommandError Json :=
  match readRequest input with
  | .error e => ⟨[], .error e⟩
  | .ok request =>
    match action with
    | .plan => store.planResponse request
    | .explain => store.explainResponse request

/-- The line that answers a request. -/
def envelope : Except CommandError Json → Json
  | .ok data => .ofMembers [("status", .text "ok"), ("data", data)]
  | .error e =>
    .ofMembers [("status", .text "error"), ("code", .text e.code), ("message", .text e.message)]

/-- The log lines of the entries that pass a threshold. -/
def logText (threshold : LogLevel) (entries : List LogEntry) : String :=
  String.join ((entries.filter fun e => e.level.passes threshold).map LogEntry.written)

/-- The transcript of a session with these log entries and this result. -/
def transcript (threshold : LogLevel) (entries : List LogEntry) (result : Except CommandError Json) :
    Transcript where
  output := (envelope result).render ++ "\n"
  errorOutput := logText threshold entries ++
    match result with
    | .ok _ => ""
    | .error e => e.render ++ "\n"
  exitCode := match result with
    | .ok _ => 0
    | .error _ => 1

/-- The transcript of a session that an overflow ends, without the notice of the language's runtime. -/
def aborted (threshold : LogLevel) (entries : List LogEntry) : Transcript where
  output := ""
  errorOutput := logText threshold entries
  exitCode := 101

/-- Ends an opened session with an action on an input. -/
def Opened.finish (opened : Opened) (action : Action) (input : Except ReadFault String) :
    Transcript :=
  match opened.store with
  | .error .overflow => aborted opened.threshold opened.entries
  | .error (.reported e) => transcript opened.threshold opened.entries (.error e)
  | .ok store =>
    let response := respond action store input
    transcript opened.threshold (opened.entries ++ response.entries) response.result

/-- The exit code of a command line that asks for help or is not understood. -/
def exitCodeOf : Invocation → UInt8
  | .misuse => 2
  | _ => 0

end BucketPlanner.Session
