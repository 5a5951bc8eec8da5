import GreetingService.CommandLine.Arguments
import GreetingService.Config.Loading
import GreetingService.Greeting.Replay
import GreetingService.Log.Filter
import GreetingService.Log.Layout

/-!
# The program

What the command line program does with its arguments, as a function of its surroundings: the
environment, the files and what is typed in. The configuration is loaded first. Nothing is written
to the output before everything that can fail has been done.
-/

namespace GreetingService

/-- The surroundings of the program. -/
structure Surroundings where
  environment : Environment
  files : Files.Source
  input : Files.Content

/-- What the program leaves behind: its status, its output, the diagnostics it shows with their
layout, and a complaint that follows them. -/
structure Report where
  status : Nat
  output : String
  layout : Log.Layout
  diagnostics : List Log.Diagnostic
  complaint : Option String

namespace Report

/-- The report of a command line that was not understood, or that asks for information. -/
def ofUsageError (e : CommandLine.UsageError) : Report :=
  if e.isInformation then ⟨e.status, e.message, .brief, [], none⟩
  else ⟨e.status, "", .brief, [], some e.message⟩

/-- The start of a cause's line; causes are numbered when there are several. -/
def causeMargin (number : Option Nat) : String :=
  match number with
  | some n => "    " ++ toString n ++ ": "
  | none => "    "

/-- The lines of a cause. -/
def causeLines (number : Option Nat) (message : String) : List String :=
  match message.splitOn "\n" with
  | [] => []
  | first :: rest =>
    (causeMargin number ++ first)
      :: rest.map ((if number.isSome then "       " else "    ") ++ ·)

/-- The text of a complaint: what went wrong, and its causes under it. -/
def complaintText : List String → String
  | [] => "Error: "
  | [message] => "Error: " ++ message
  | message :: causes =>
    let numbered := causes.zipIdx.map fun (cause, n) =>
      causeLines (if causes.length = 1 then none else some n) cause
    "\n".intercalate (["Error: " ++ message, "", "Caused by:"] ++ numbered.flatten)

/-- A text with a line break at its end. -/
def closed (s : String) : String :=
  if s.endsWith "\n" then s else s ++ "\n"

/-- The text that goes to the error output, with diagnostics shown at the given time. -/
def errorText (r : Report) (time : String) : String :=
  String.join (r.diagnostics.map fun d => r.layout.line time d ++ "\n")
    ++ (r.complaint.map closed).getD ""

end Report

namespace Program

/-- The configuration that a command line asks for. -/
def loadConfig (w : Surroundings) (call : CommandLine.Call) : Except ConfigError Config :=
  match call.configFile with
  | some path => Config.loadFile w.files path w.environment
  | none => Config.load w.environment

/-- The diagnostics of a run, as far as the threshold lets them through. -/
def shown (threshold : Log.Threshold) (ds : List Log.Diagnostic) : List Log.Diagnostic :=
  ds.filter fun d => (Log.Filter.uniform threshold).admits d.target d.level

/-- The report on a task under a configuration. -/
def perform (w : Surroundings) (c : Config) (threshold : Log.Threshold) :
    CommandLine.Task → Report
  | .showConfig =>
    ⟨0, c.write, .ofThreshold threshold,
      shown threshold [.started c.defaultMessage c.emptyField1], none⟩
  | .invoke events minimal =>
    let started : List Log.Diagnostic := [.started c.defaultMessage c.emptyField1]
    match Replay.run w.files w.input minimal (.cold c.emptyField1) ⟨c.defaultMessage⟩ events with
    | .error e =>
      ⟨1, "", .ofThreshold threshold, shown threshold started,
        some (Report.complaintText e.messages)⟩
    | .ok run =>
      ⟨0, String.join (run.responses.map fun r => r.write ++ "\n"), .ofThreshold threshold,
        shown threshold (started ++ run.diagnostics), none⟩

/-- The report on a command line. -/
def run (w : Surroundings) (args : List String) : Report :=
  match CommandLine.parse args with
  | .error e => .ofUsageError e
  | .ok call =>
    match loadConfig w call with
    | .error e => ⟨1, "", .brief, [], some (Report.complaintText [e.message])⟩
    | .ok c => perform w c (call.level.getD c.logLevel) call.task

end Program

end GreetingService
