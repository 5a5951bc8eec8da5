import GreetingService.Config.Basic
import GreetingService.Log.Diagnostic
import GreetingService.Response

/-!
# Serving requests

A handler answers every request with the greeting as it stands after the request. The greeting is
kept in a holder, which several handlers may share; a handler of its own has only its policy and
the mark of whether it has served before. The minimal handler has neither and always gives the same
greeting.
-/

namespace GreetingService

/-- A holder of the greeting. -/
@[ext]
structure Holder where
  message : String
  deriving DecidableEq

namespace Holder

/-- The holder where no greeting is given. -/
def default : Holder := ⟨helloWorld⟩

/-- The holder after an update, which may leave it alone. -/
def update (h : Holder) (value : Option String) : Holder :=
  ⟨value.getD h.message⟩

end Holder

/-- A handler: its policy, and whether it has served a request. -/
@[ext]
structure Handler where
  policy : Policy
  warm : Bool
  deriving DecidableEq

/-- What serving one request comes to: whether the handler was warm before, the response, the
handler and the holder afterwards, and the diagnostics in order. -/
structure Invocation where
  warm : Bool
  response : Response
  handler : Handler
  holder : Holder
  diagnostics : List Log.Diagnostic

namespace Handler

/-- A handler that has served nothing yet. -/
def cold (policy : Policy) : Handler := ⟨policy, false⟩

/-- The greeting that a request asks for, as far as the handler's policy accepts it. -/
def accepted (h : Handler) (r : Request) : Option String :=
  r.field1.filter h.policy.accepts

/-- Whether the request asks for a greeting that is not accepted. -/
def rejects (h : Handler) (r : Request) : Bool :=
  r.field1.isSome && (h.accepted r).isNone

/-- The diagnostics of serving a request. -/
def diagnostics (h : Handler) (r : Request) : List Log.Diagnostic :=
  .warmth h.warm :: Log.ofFields r ++ (if h.rejects r then [.emptyIgnored] else [])

/-- The handler once it has served a request. -/
def warmed (h : Handler) : Handler := { h with warm := true }

/-- Serves one request: marks the handler as warm, and then changes and reads the holder at once. -/
def invoke (h : Handler) (holder : Holder) (r : Request) : Invocation :=
  let after := holder.update (h.accepted r)
  { warm := h.warm
    response := ⟨after.message⟩
    handler := h.warmed
    holder := after
    diagnostics := h.diagnostics r }

end Handler

/-- The response of the minimal handler, to any request. -/
def minimalResponse : Response := ⟨helloWorld⟩

/-- The diagnostics of the minimal handler. -/
def minimalDiagnostics (r : Request) : List Log.Diagnostic :=
  Log.ofFields r

end GreetingService
