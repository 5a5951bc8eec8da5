import GreetingService.Json.Record

/-!
# Requests

A request has three texts, each of which may be absent. The first one replaces the greeting; the
others are only logged. A request is exchanged as a record with the keys `field1` to `field3`, or
with the older spellings `key1` to `key3`.
-/

namespace GreetingService

/-- A request to the service. -/
@[ext]
structure Request where
  field1 : Option String
  field2 : Option String
  field3 : Option String
  deriving DecidableEq

namespace Request

/-- The request in which every field is absent. -/
def empty : Request := ⟨none, none, none⟩

/-- The fields of a request. -/
inductive Field where
  | field1
  | field2
  | field3
  deriving DecidableEq

/-- The names of the fields. -/
def Field.name : Field → String
  | .field1 => "field1"
  | .field2 => "field2"
  | .field3 => "field3"

/-- The field of a key in either spelling. -/
def Field.ofKey? (key : String) : Option Field :=
  if key = "field1" ∨ key = "key1" then some .field1
  else if key = "field2" ∨ key = "key2" then some .field2
  else if key = "field3" ∨ key = "key3" then some .field3
  else none

/-- Requests as records. -/
def shape : Json.Shape Field where
  title := "Request"
  fields := [.field1, .field2, .field3]
  name := Field.name
  ofKey? := Field.ofKey?
  optional := true

/-- The request with the given fields. -/
def ofGiven (given : Json.Shape.Given Field) : Request :=
  ⟨given.text? .field1, given.text? .field2, given.text? .field3⟩

/-- The request a document holds, read in one pass. -/
def parse (document : Json.Bytes) : Except Json.Error Request :=
  (shape.parse document).map ofGiven

/-- The request a value stands for. -/
def ofValue (value : Json.Value) : Except Json.Cause Request :=
  (shape.ofValue value).map ofGiven

/-- The written form of a field's text. -/
def writeText : Option String → String
  | none => "null"
  | some s => Json.quote s

/-- The written form of a request. -/
def write (r : Request) : String :=
  "\x7b\"field1\":" ++ writeText r.field1 ++ ",\"field2\":" ++ writeText r.field2
    ++ ",\"field3\":" ++ writeText r.field3 ++ "\x7d"

end Request

end GreetingService
