import GreetingService.Files.Volume
import GreetingService.Greeting.Handler

/-!
# Replaying events

Events are read from files and served by one handler. A file holds one event or a list of events.
All files are read before any event is served, so that a file which cannot be used leaves no trace.
The path `-` stands for what is typed in, which can be read once; it is empty from then on.
-/

namespace GreetingService

/-- The reasons why events cannot be had. -/
inductive ReplayError where
  | noInput (failure : Files.Failure)
  | noFile (path : String) (failure : Files.Failure)
  | malformed (path : String) (error : Json.Error)

/-- The wording of a reason, the outermost part first. -/
def ReplayError.messages : ReplayError → List String
  | .noInput failure => ["Failed to read events from stdin", failure.message]
  | .noFile path failure => ["Failed to read event file " ++ path, failure.message]
  | .malformed path error => ["Invalid event in " ++ path, error.message]

namespace Replay

/-- The path of what is typed in. -/
abbrev inputPath : String := "-"

/-- The requests that a text of events describes. -/
def parseEvents (text : String) : Except Json.Error (List Request) := do
  match ← Json.Value.parse (Text.bytes text) with
  | .list items => (items.mapM Request.ofValue).mapError fun cause => ⟨cause, none⟩
  | value => ((Request.ofValue value).map fun r => [r]).mapError fun cause => ⟨cause, none⟩

/-- The text at a path. -/
def readText (files : Files.Source) (input : Files.Content) (path : String) :
    Except ReplayError String :=
  if path = inputPath then
    match Text.ofBytes? input with
    | some text => .ok text
    | none => .error (.noInput .notUtf8)
  else (files.readText path).mapError (.noFile path)

/-- The requests at a path. -/
def readEvents (files : Files.Source) (input : Files.Content) (path : String) :
    Except ReplayError (List Request) := do
  let text ← readText files input path
  (parseEvents text).mapError (.malformed path)

/-- The requests at all paths in order. -/
def readAll (files : Files.Source) : (input : Files.Content) → List String →
    Except ReplayError (List Request)
  | _, [] => .ok []
  | input, path :: paths => do
    let requests ← readEvents files input path
    let others ← readAll files (if path = inputPath then [] else input) paths
    return requests ++ others

/-- What serving a list of requests comes to. -/
structure Run where
  handler : Handler
  holder : Holder
  responses : List Response
  diagnostics : List Log.Diagnostic

/-- Has a handler serve requests in order. -/
def serve (handler : Handler) (holder : Holder) : List Request → Run
  | [] => ⟨handler, holder, [], []⟩
  | r :: rs =>
    let served := handler.invoke holder r
    let rest := serve served.handler served.holder rs
    { rest with
      responses := served.response :: rest.responses
      diagnostics := served.diagnostics ++ rest.diagnostics }

/-- Has the minimal handler serve requests in order; a handler and a holder beside it stay as they
are. -/
def serveMinimal (handler : Handler) (holder : Holder) (rs : List Request) : Run :=
  ⟨handler, holder, rs.map fun _ => minimalResponse, rs.flatMap minimalDiagnostics⟩

/-- Reads the events at all paths, and then serves them. -/
def run (files : Files.Source) (input : Files.Content) (minimal : Bool) (handler : Handler)
    (holder : Holder) (paths : List String) : Except ReplayError Run := do
  let requests ← readAll files input paths
  let served := if minimal then serveMinimal handler holder requests
    else serve handler holder requests
  return { served with diagnostics := .replay requests.length :: served.diagnostics }

end Replay

end GreetingService
