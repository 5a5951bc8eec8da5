import GreetingService.Greeting.Handler

/-!
# Concurrent use of a holder

Clients use one holder at the same time: some have a request served by one of the handlers that
share it, others write or read it directly. An access to the holder is atomic, and so is the change
of a handler's mark; what lies between them is not. Serving a request therefore takes two moves, and
other clients may move in between. A schedule says whose move is next.
-/

namespace GreetingService

/-- What a client is about to do. -/
inductive Errand where
  | invoke (handler : Nat) (request : Request)
  | setMessage (value : String)
  | message
  deriving DecidableEq

/-- How far a client has come. Whoever has marked a handler knows whether it was warm before. -/
inductive Progress where
  | waiting
  | marked (warm : Bool)
  | served (warm : Bool) (response : Response)
  | written
  | told (message : String)
  deriving DecidableEq

/-- A client. -/
structure Client where
  errand : Errand
  progress : Progress
  deriving DecidableEq

/-- A holder, the handlers that share it, and the clients of all of them. -/
@[ext]
structure Shared where
  holder : Holder
  handlers : List Handler
  clients : List Client
  deriving DecidableEq

namespace Progress

/-- Whether the handler was warm, once it has been marked. -/
def warm? : Progress → Option Bool
  | .marked warm | .served warm _ => some warm
  | _ => none

/-- Whether there are no more moves to make. -/
def isFinished : Progress → Bool
  | .waiting | .marked _ => false
  | .served _ _ | .written | .told _ => true

end Progress

namespace Shared

/-- What a move does to the things that are shared. -/
inductive Event where
  | marked (client handler : Nat) (warm : Bool)
  | accessed (client : Nat)
  deriving DecidableEq

/-- Whose move it was. -/
def Event.client : Event → Nat
  | .marked client _ _ | .accessed client => client

/-- The state before any client has moved. -/
def start (holder : Holder) (handlers : List Handler) (errands : List Errand) : Shared :=
  ⟨holder, handlers, errands.map fun errand => ⟨errand, .waiting⟩⟩

/-- Lets a client know what has come of its move. -/
def settle (s : Shared) (number : Nat) (errand : Errand) (progress : Progress) : Shared :=
  { s with clients := s.clients.set number ⟨errand, progress⟩ }

/-- Makes the next move of a client, if it has one. -/
def move (s : Shared) (number : Nat) : Option (Shared × Event) := do
  let client ← s.clients[number]?
  match client.errand, client.progress with
  | .invoke k r, .waiting =>
    let handler ← s.handlers[k]?
    return ({ s with handlers := s.handlers.set k handler.warmed }.settle number (.invoke k r)
      (.marked handler.warm), .marked number k handler.warm)
  | .invoke k r, .marked warm =>
    let handler ← s.handlers[k]?
    let after := s.holder.update (handler.accepted r)
    return ({ s with holder := after }.settle number (.invoke k r)
      (.served warm ⟨after.message⟩), .accessed number)
  | .setMessage value, .waiting =>
    return ({ s with holder := ⟨value⟩ }.settle number (.setMessage value) .written,
      .accessed number)
  | .message, .waiting =>
    return (s.settle number .message (.told s.holder.message), .accessed number)
  | _, _ => none

/-- Has clients move in the order of a schedule. -/
def run (s : Shared) : List Nat → Option (Shared × List Event)
  | [] => some (s, [])
  | number :: schedule => do
    let (s, event) ← s.move number
    let (s, events) ← s.run schedule
    return (s, event :: events)

end Shared

end GreetingService
