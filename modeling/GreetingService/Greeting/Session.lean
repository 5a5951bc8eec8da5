import GreetingService.Greeting.Handler

/-!
# Sessions

A session owns holders, components and handlers, which are numbered in the order of their creation.
A component is made from a configuration and brings a holder of its own; handlers are made for a
component or for any holder. Steps create these things, use the holders directly, or have requests
served. A step that names something which does not exist is refused.
-/

namespace GreetingService

/-- A component: its configuration and the number of its holder. -/
structure Component where
  config : Config
  holder : Nat
  deriving DecidableEq

/-- A handler together with the number of the holder that it serves from. -/
structure Attached where
  handler : Handler
  holder : Nat
  deriving DecidableEq

/-- The state of a session. -/
@[ext]
structure Session where
  holders : List Holder
  components : List Component
  handlers : List Attached
  deriving DecidableEq

namespace Session

/-- The ways to have a request served. An event comes with its context, by whichever of the
functions for events it is delivered. -/
inductive Entrance where
  | invoke
  | handle
  | event (requestId function : String)

/-- Who serves a request. -/
inductive Server where
  | handler (number : Nat)
  | minimal

/-- A step of a session. -/
inductive Step where
  | addHolder (message : Option String)
  | addComponent (config : Config)
  | addHandler (holder : Nat) (policy : Option Policy)
  | addHandlerOf (component : Nat)
  | message (holder : Nat)
  | setMessage (holder : Nat) (value : String)
  | update (holder : Nat) (value : Option String)
  | holderOfComponent (component : Nat)
  | holderOfHandler (handler : Nat)
  | isWarm (handler : Nat)
  | serve (server : Server) (entrance : Entrance) (request : Request)
  | serveAll (handler : Nat) (values : List String)

/-- What a step gives back. Of the requests of `serveAll` it is counted how many met a cold handler
and how many got their own greeting back. -/
inductive Result where
  | holder (number : Nat)
  | component (number : Nat) (component : Component)
  | handler (number : Nat)
  | message (message : String)
  | done
  | warm (warm : Bool)
  | served (warm : Bool) (response : Response)
  | servedAll (cold own : Nat) (last : String)

/-- What is left of a step: the session, its result and the diagnostics in order. -/
structure Outcome where
  session : Session
  result : Result
  diagnostics : List Log.Diagnostic

namespace Entrance

/-- The diagnostics of an entrance, which come before those of the handler. -/
def diagnostics : Entrance → List Log.Diagnostic
  | .event requestId function => [.invocation requestId function]
  | _ => []

end Entrance

/-- A session without anything in it. -/
def empty : Session := ⟨[], [], []⟩

/-- Adds a component together with its holder. -/
def addComponent (s : Session) (c : Config) : Session :=
  { s with
    holders := s.holders ++ [⟨c.defaultMessage⟩]
    components := s.components ++ [⟨c, s.holders.length⟩] }

/-- Adds a cold handler for a holder. -/
def addHandler (s : Session) (holder : Nat) (policy : Policy) : Session :=
  { s with handlers := s.handlers ++ [⟨.cold policy, holder⟩] }

/-- Puts another holder in the place of one. -/
def setHolder (s : Session) (number : Nat) (h : Holder) : Session :=
  { s with holders := s.holders.set number h }

/-- Has a handler serve a request. -/
def serve (s : Session) (number : Nat) (r : Request) : Option (Session × Invocation) := do
  let attached ← s.handlers[number]?
  let holder ← s.holders[attached.holder]?
  let served := attached.handler.invoke holder r
  return ({ s.setHolder attached.holder served.holder with
    handlers := s.handlers.set number { attached with handler := served.handler } }, served)

/-- Has a handler serve requests for the given greetings one after another. -/
def serveAll (s : Session) (number : Nat) : List String → Option (Session × List Invocation)
  | [] => some (s, [])
  | value :: values => do
    let (s, served) ← s.serve number ⟨some value, none, none⟩
    let (s, others) ← s.serveAll number values
    return (s, served :: others)

/-- Takes a step. -/
def step (s : Session) : Step → Option Outcome
  | .addHolder message =>
    let holder := (message.map Holder.mk).getD Holder.default
    some ⟨{ s with holders := s.holders ++ [holder] }, .holder s.holders.length, []⟩
  | .addComponent c =>
    some ⟨s.addComponent c, .component s.components.length ⟨c, s.holders.length⟩,
      [.started c.defaultMessage c.emptyField1]⟩
  | .addHandler holder policy => do
    let _ ← s.holders[holder]?
    return ⟨s.addHandler holder (policy.getD Policy.default), .handler s.handlers.length, []⟩
  | .addHandlerOf component => do
    let c ← s.components[component]?
    return ⟨s.addHandler c.holder c.config.emptyField1, .handler s.handlers.length, []⟩
  | .message holder => do
    let h ← s.holders[holder]?
    return ⟨s, .message h.message, []⟩
  | .setMessage holder value => do
    let _ ← s.holders[holder]?
    return ⟨s.setHolder holder ⟨value⟩, .done, []⟩
  | .update holder value => do
    let h ← s.holders[holder]?
    return ⟨s.setHolder holder (h.update value), .message (h.update value).message, []⟩
  | .holderOfComponent component => do
    let c ← s.components[component]?
    return ⟨s, .holder c.holder, []⟩
  | .holderOfHandler handler => do
    let a ← s.handlers[handler]?
    return ⟨s, .holder a.holder, []⟩
  | .isWarm handler => do
    let a ← s.handlers[handler]?
    return ⟨s, .warm a.handler.warm, []⟩
  | .serve (.handler number) entrance request => do
    let (s, served) ← s.serve number request
    return ⟨s, .served served.warm served.response, entrance.diagnostics ++ served.diagnostics⟩
  | .serve .minimal entrance request =>
    some ⟨s, .served false minimalResponse, entrance.diagnostics ++ minimalDiagnostics request⟩
  | .serveAll number values => do
    let (s, served) ← s.serveAll number values
    let cold := served.countP fun i => !i.warm
    let own := (served.zip values).countP fun (i, value) => i.response.message == value
    let attached ← s.handlers[number]?
    let holder ← s.holders[attached.holder]?
    return ⟨s, .servedAll cold own holder.message, served.flatMap Invocation.diagnostics⟩

end Session

end GreetingService
