/-!
# Command lines

A command line names an action and may name the configuration file:

    plan    [--config FILE]
    explain [--config FILE]
    help    [ACTION]

Arguments are taken from left to right; the first one that asks for help or for the version or that
is not understood decides.
-/

namespace BucketPlanner

/-- What is to be done with a request. -/
inductive Action
  | plan
  | explain
  deriving DecidableEq

/-- What a command line asks for. -/
inductive Invocation
  /-- An action on the store of a configuration file. -/
  | run (action : Action) (configPath : String)
  /-- Help or the version. -/
  | information
  /-- Nothing that is understood. -/
  | misuse
  deriving DecidableEq

namespace Invocation

/-- The configuration file when none is named. -/
def defaultConfigPath : String := "./tidelog.json"

/-- The words that may follow each other after `help`. -/
def isHelpTopic (words : List String) : Bool :=
  words = [] || words = ["plan"] || words = ["explain"] || words = ["help"]

/-- An option that is given by letters, the first of which is `letter`. -/
def hasLetter (letter : Char) (argument : String) : Bool :=
  argument.toList.take 2 = ['-', letter]

/-- A value that stands by itself: not empty, and not an option. -/
def isValue (argument : String) : Bool :=
  argument ≠ "" && (argument = "-" || !argument.startsWith "-")

/-- The options of an action, of which the configuration file may have been named already. -/
def ofOptions (action : Action) : Option String → List String → Invocation
  | path, [] => run action (path.getD defaultConfigPath)
  | path, argument :: rest =>
    if argument = "--help" || hasLetter 'h' argument then information
    else if argument = "--" then
      if rest.isEmpty then run action (path.getD defaultConfigPath) else misuse
    else if path.isSome then misuse
    else if argument = "--config" then
      match rest with
      | value :: rest => if isValue value then ofOptions action (some value) rest else misuse
      | [] => misuse
    else if argument.startsWith "--config=" then
      let value := (argument.drop "--config=".length).toString
      if value = "" then misuse else ofOptions action (some value) rest
    else misuse

/-- What a command line asks for. -/
def ofArguments : List String → Invocation
  | [] => misuse
  | argument :: rest =>
    if argument = "plan" then ofOptions .plan none rest
    else if argument = "explain" then ofOptions .explain none rest
    else if argument = "help" then if isHelpTopic rest then information else misuse
    else if argument = "--help" || argument = "--version" || hasLetter 'h' argument ||
      hasLetter 'V' argument then information
    else misuse

end Invocation

end BucketPlanner
