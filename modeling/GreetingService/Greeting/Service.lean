import GreetingService.Greeting.Replay

/-!
# Replays, effect by effect

A replay as the effects it has in order: what is typed in gets used up, diagnostics are reported,
and requests are served by a service, which has a state of its own. A part of a replay that fails
leaves everything as it is at that moment; nothing that was done before is taken back.
-/

namespace GreetingService

/-- Whatever serves requests: from its state and a request come its state afterwards, the response
and the diagnostics in order. -/
abbrev Service (σ : Type) := σ → Request → σ × Response × List Log.Diagnostic

namespace Service

/-- A handler and its holder. -/
def ofHandler : Service (Handler × Holder) := fun (handler, holder) r =>
  let served := handler.invoke holder r
  ((served.handler, served.holder), served.response, served.diagnostics)

/-- The minimal handler, beside something that stays as it is. -/
def ofMinimal {σ : Type} : Service σ := fun state r =>
  (state, minimalResponse, minimalDiagnostics r)

/-- The service that a replay is for. -/
def ofTask (minimal : Bool) : Service (Handler × Holder) :=
  if minimal then ofMinimal else ofHandler

end Service

namespace Replay

/-- Everything that a replay can change: the state of the service, what can still be typed in, and
the diagnostics reported so far. -/
structure Stage (σ : Type) where
  state : σ
  input : Files.Content
  diagnostics : List Log.Diagnostic

/-- A part of a replay. -/
abbrev Part (σ α : Type) := ExceptT ReplayError (StateM (Stage σ)) α

namespace Part

variable {σ : Type}

/-- Gives what can still be typed in. If the path stands for it, it is used up. -/
def takeInput (path : String) : Part σ Files.Content := do
  let stage ← get
  if path = inputPath then set { stage with input := [] }
  return stage.input

/-- Takes the requests from a path. -/
def takeEvents (files : Files.Source) (path : String) : Part σ (List Request) := do
  let input ← takeInput path
  match readEvents files input path with
  | .ok requests => return requests
  | .error e => throw e

/-- Takes the requests from all paths in order. -/
def takeAll (files : Files.Source) : List String → Part σ (List Request)
  | [] => return []
  | path :: paths => do
    let requests ← takeEvents files path
    let others ← takeAll files paths
    return requests ++ others

/-- Reports diagnostics. -/
def report (ds : List Log.Diagnostic) : Part σ Unit :=
  modify fun stage => { stage with diagnostics := stage.diagnostics ++ ds }

/-- Has a request served. -/
def serve (service : Service σ) (r : Request) : Part σ Response := do
  let stage ← get
  let (state, response, ds) := service stage.state r
  set { stage with state := state }
  report ds
  return response

/-- Has requests served in order. -/
def serveAll (service : Service σ) : List Request → Part σ (List Response)
  | [] => return []
  | r :: rs => do
    let response ← serve service r
    let others ← serveAll service rs
    return response :: others

/-- Takes the requests from all paths, and then has them served. -/
def conduct (service : Service σ) (files : Files.Source) (paths : List String) :
    Part σ (List Response) := do
  let requests ← takeAll files paths
  report [.replay requests.length]
  serveAll service requests

/-- What a part comes to on a stage: its result, and the stage it leaves. -/
def on {α : Type} (part : Part σ α) (stage : Stage σ) : Except ReplayError α × Stage σ :=
  part.run.run stage

end Part

end Replay

end GreetingService
