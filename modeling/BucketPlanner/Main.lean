import Std.Time.DateTime.Timestamp
import BucketPlanner.Command.Session

/-!
# The program

Reads the configuration file and the standard input, and writes the transcript of the session.
-/

namespace BucketPlanner

/-- What is shown to those who ask for help. -/
def usage : String :=
  "Usage: (plan | explain) [--config FILE]\n\n" ++
  "Reads a request from the standard input and writes its plan or explanation.\n"

/-- The number that the system gives an error; some numbers arrive negated, in 32 bits. -/
def systemCode? : IO.Error → Option Nat
  | .noFileOrDirectory _ code _ | .inappropriateType _ code _ | .invalidArgument _ code _
  | .permissionDenied _ code _ | .otherError code _ =>
    some (if code.toNat < 2 ^ 31 then code.toNat else 2 ^ 32 - code.toNat)
  | _ => none

/-- The fault behind an error of the system. -/
def ReadFault.ofError (e : IO.Error) : ReadFault :=
  ((systemCode? e).bind ReadFault.ofSystemCode?).getD (.stated (toString e))

/-- The text that bytes encode. -/
def textOf (bytes : ByteArray) : Except ReadFault String :=
  match String.fromUTF8? bytes with
  | some text => .ok text
  | none => .error .invalidEncoding

/-- Reads a file as text. -/
def readFile (path : String) : IO (Except ReadFault String) := do
  try return textOf (← IO.FS.readBinFile path)
  catch e => return .error (.ofError e)

/-- Reads the standard input to its end. -/
partial def readAll (stream : IO.FS.Stream) (read : ByteArray) : IO ByteArray := do
  let bytes ← stream.read 65536
  if bytes.isEmpty then return read else readAll stream (read ++ bytes)

/-- Reads the standard input as text. -/
def readInput : IO (Except ReadFault String) := do
  try return textOf (← readAll (← IO.getStdin) .empty)
  catch e => return .error (.ofError e)

/-- The present time in nanoseconds. -/
def presentTime : IO UInt64 := do
  let now ← Std.Time.Timestamp.now
  return .ofNat now.toNanosecondsSinceUnixEpoch.val.toNat

/-- A reading of the clock for each of so many records. -/
def readClock (records : Nat) : IO (Nat → UInt64) := do
  let mut readings := #[]
  for _ in [0:records] do
    readings := readings.push (← presentTime)
  let all := readings
  return fun n => all.getD n 0

end BucketPlanner

open BucketPlanner

/-- Carries out what the command line asks for. -/
def main (arguments : List String) : IO UInt32 := do
  match Invocation.ofArguments arguments with
  | .run action path =>
    let config := Session.readConfig (← readFile path)
    let clock ← readClock (config.toOption.elim 0 (·.1.records.length))
    let opened := Session.openStore path config clock
    let input ← if opened.store.isOk then readInput else pure (.ok "")
    let transcript := opened.finish action input
    IO.eprint transcript.errorOutput
    IO.print transcript.output
    return transcript.exitCode.toUInt32
  | .information =>
    IO.print usage
    return (Session.exitCodeOf .information).toUInt32
  | .misuse =>
    IO.eprint usage
    return (Session.exitCodeOf .misuse).toUInt32
