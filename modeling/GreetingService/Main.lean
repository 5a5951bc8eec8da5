import GreetingService.Program
import Std.Time.DateTime

/-!
# Command line

Reads the environment, the files and the input that a command line names, hands them to the program
and writes its report.
-/

namespace GreetingService.Main

open Std.Time

/-- The number of a system error, which some calls report below zero. -/
def systemNumber (code : UInt32) : Int :=
  if code < 0x80000000 then code.toNat else 0x100000000 - (code.toNat : Int)

/-- The failure behind an exception. -/
def failureOf (e : IO.Error) : Files.Failure :=
  match e with
  | .noFileOrDirectory _ code _ => .system (systemNumber code)
  | .inappropriateType _ code _ => .system (systemNumber code)
  | .permissionDenied _ code _ => .system (systemNumber code)
  | .invalidArgument _ code _ => .system (systemNumber code)
  | .resourceExhausted _ code _ => .system (systemNumber code)
  | .noSuchThing _ code _ => .system (systemNumber code)
  | .otherError code _ => .system (systemNumber code)
  | .hardwareFault code _ => .system (systemNumber code)
  | .resourceBusy code _ => .system (systemNumber code)
  | _ => .other (toString e)

/-- Reads a file. -/
def readFile (path : String) : IO (Except Files.Failure Files.Content) := do
  if path.contains '\x00' then return .error .nulInPath
  if path.isEmpty then return .error .notFound
  try
    let content ← IO.FS.readBinFile path
    return .ok content.toList
  catch e => return .error (failureOf e)

/-- Reads a stream to its end. -/
partial def readStream (stream : IO.FS.Stream) (seen : ByteArray) : IO ByteArray := do
  let chunk ← stream.read 65536
  if chunk.isEmpty then return seen else readStream stream (seen ++ chunk)

/-- The paths of the files that a call may read. -/
def pathsOf (call : CommandLine.Call) : List String :=
  let events := match call.task with
    | .invoke events _ => events.filter (· ≠ Replay.inputPath)
    | .showConfig => []
  call.configFile.toList ++ events

/-- Whether a call reads what is typed in. -/
def readsInput (call : CommandLine.Call) : Bool :=
  match call.task with
  | .invoke events _ => events.contains Replay.inputPath
  | .showConfig => false

/-- The surroundings that a call can see. -/
def surroundings (call : CommandLine.Call) : IO Surroundings := do
  let names := [Config.messageVariable, Config.policyVariable]
  let values ← names.filterMapM fun name => do
    return (← IO.getEnv name).map fun value => (name, value)
  let files ← (pathsOf call).mapM fun path => do return (path, ← readFile path)
  let input ← if readsInput call then
      do pure (← readStream (← IO.getStdin) ByteArray.empty).toList
    else pure []
  return ⟨fun name => values.lookup name, fun path => (files.lookup path).getD (.error .notFound), input⟩

/-- A number with two digits. -/
def twoDigits (n : Int) : String :=
  if n < 10 then "0" ++ toString n else toString n

/-- The present time to the second. -/
def time : IO String := do
  let now := DateTime.ofTimestampWithZone (← Timestamp.now) .UTC
  return toString now.year.toInt ++ "-" ++ twoDigits now.month.toInt ++ "-"
    ++ twoDigits now.day.toInt ++ "T" ++ twoDigits now.hour.toInt ++ ":"
    ++ twoDigits now.minute.toInt ++ ":" ++ twoDigits now.second.toInt ++ "Z"

/-- Writes a report. -/
def deliver (r : Report) : IO UInt32 := do
  let errors ← IO.getStderr
  let output ← IO.getStdout
  errors.putStr (r.errorText (← time))
  output.putStr r.output
  output.flush
  return r.status.toUInt32

/-- Runs the program on its arguments. -/
def runArguments (args : List String) : IO UInt32 := do
  match CommandLine.parse args with
  | .error e => deliver (.ofUsageError e)
  | .ok call => deliver (Program.run (← surroundings call) args)

end GreetingService.Main

/-- The entry point of the program. -/
def main (args : List String) : IO UInt32 :=
  GreetingService.Main.runArguments args
