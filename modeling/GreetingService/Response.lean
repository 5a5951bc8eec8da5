import GreetingService.Json.Record

/-!
# Responses

A response carries the greeting as it stands when a request has been served. It is exchanged as a
record with the one key `message`, which has to be there.
-/

namespace GreetingService

/-- A response of the service. -/
@[ext]
structure Response where
  message : String
  deriving DecidableEq

namespace Response

/-- The field of a response. -/
inductive Field where
  | message
  deriving DecidableEq

/-- The name of the field. -/
def Field.name : Field → String
  | .message => "message"

/-- Responses as records. -/
def shape : Json.Shape Field where
  title := "Response"
  fields := [.message]
  name := Field.name
  ofKey? := fun key => if key = "message" then some .message else none
  optional := false

/-- The response with the given field. -/
def ofGiven (given : Json.Shape.Given Field) : Response :=
  ⟨(given.text? .message).getD ""⟩

/-- The response a document holds. -/
def parse (document : Json.Bytes) : Except Json.Error Response :=
  (shape.parse document).map ofGiven

/-- The written form of a response, which is a single line. -/
def write (r : Response) : String :=
  "\x7b\"message\":" ++ Json.quote r.message ++ "\x7d"

end Response

end GreetingService
