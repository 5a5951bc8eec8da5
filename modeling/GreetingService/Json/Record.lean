import GreetingService.Json.Skim

/-!
# Records of texts

A record has a fixed set of fields, each of which holds a text. It is written as an object with the
fields' names as keys, or as a list of their values in order. It can be read straight from a
document, which passes members of other names without keeping them, or taken from a value that was
read before. A field may be given only once.
-/

namespace GreetingService.Json

/-- The shape of a record with fields `φ`. A key may be a field's name or another spelling of it.
When the fields are `optional`, a field may be missing or hold `null`, and has no text then. -/
structure Shape (φ : Type) where
  title : String
  fields : List φ
  name : φ → String
  ofKey? : String → Option φ
  optional : Bool

namespace Shape

variable {φ : Type}

/-- The fields given so far with their texts. -/
abbrev Given (φ : Type) := List (φ × Option String)

/-- The text of a field; a field that is not given has none. -/
def Given.text? [BEq φ] (given : Given φ) (field : φ) : Option String :=
  (given.lookup field).join

/-- The refusal of a record in which the given fields are not enough. -/
def missing? [BEq φ] (shape : Shape φ) (given : Given φ) : Option Cause :=
  if shape.optional then none
  else
    (shape.fields.find? fun field => (given.lookup field).isNone).map fun field =>
      .missingField (shape.name field)

/-- The refusal of a list of `count` items when these are not enough. -/
def tooFew? (shape : Shape φ) (count : Nat) : Option Cause :=
  if shape.optional ∨ shape.fields.length ≤ count then none
  else some (.tooFewElements count shape.title shape.fields.length)

/-! ## From a document -/

/-- Refuses the value that starts with `b`, naming what was found. A value with brackets is refused
before them, any other one behind it. -/
def refuseValue {α : Type} (wanted : Wanted) (b : UInt8) (rest : Bytes) : Except Fault α :=
  if b = Byte.openList then refuseBefore (b :: rest) (.mismatch .list wanted)
  else if b = Byte.openObject then refuseBefore (b :: rest) (.mismatch .object wanted)
  else
    match readScalar b rest with
    | .error fault => .error fault
    | .ok (value, rest) => refuseBefore rest (.mismatch value.found wanted)

/-- Reads the text of a field. -/
def readField (shape : Shape φ) (bs : Bytes) : Except Fault (Option String × Bytes) :=
  match skipBlanks bs with
  | [] => refuseAt [] .endOfValue
  | b :: rest =>
    if b = Byte.quote then (readText rest).map fun (s, rest) => (some s, rest)
    else if shape.optional ∧ b = Byte.lowerN then
      (readName nullTail rest).map fun rest => (none, rest)
    else refuseValue .text b rest

/-- A refusal inside the brackets of a record. One that concerns the record as a whole gets its
place only when its closing bracket has been looked for. -/
inductive Refusal where
  | placed (fault : Fault)
  | unplaced (cause : Cause) (rest : Bytes)

/-- Reads the items of a record written as a list, up to its last field or the closing bracket. -/
def readInOrder : List φ → (shape : Shape φ) → (given : Given φ) → Bytes →
    Except Refusal (Given φ × Bytes)
  | [], _, given, bs => .ok (given, bs)
  | field :: fields, shape, given, bs =>
    match nextItem given.isEmpty bs with
    | .error fault => .error (.placed fault)
    | .ok (false, rest) =>
      match shape.tooFew? given.length with
      | some cause => .error (.unplaced cause rest)
      | none => .ok (given, rest)
    | .ok (true, rest) =>
      match shape.readField rest with
      | .error fault => .error (.placed fault)
      | .ok (text, rest) => readInOrder fields shape (given ++ [(field, text)]) rest

/-- Reads one member of a record written as an object, behind the quote of its key. -/
def readMember [BEq φ] (shape : Shape φ) (given : Given φ) (bs : Bytes) :
    Except Refusal (Given φ × Bytes) :=
  match readText bs with
  | .error fault => .error (.placed fault)
  | .ok (key, rest) =>
    match shape.ofKey? key with
    | none =>
      match readColon rest >>= skimValue with
      | .error fault => .error (.placed fault)
      | .ok rest => .ok (given, rest)
    | some field =>
      if (given.lookup field).isSome then
        .error (.unplaced (.duplicateField (shape.name field)) rest)
      else
        match readColon rest >>= shape.readField with
        | .error fault => .error (.placed fault)
        | .ok (text, rest) => .ok (given ++ [(field, text)], rest)

/-- Reads the members of a record written as an object, up to its closing bracket. Each round passes
a byte, so that the document itself, as the first argument, bounds their number. -/
def readByKey [BEq φ] (shape : Shape φ) : (bound : Bytes) → (first : Bool) → (given : Given φ) →
    Bytes → Except Refusal (Given φ × Bytes)
  | [], _, _, _ => .error (.placed ⟨.endOfObject, 0⟩)
  | _ :: bound, first, given, bs =>
    match nextMember first bs with
    | .error fault => .error (.placed fault)
    | .ok (false, rest) =>
      match shape.missing? given with
      | some cause => .error (.unplaced cause rest)
      | none => .ok (given, rest)
    | .ok (true, rest) =>
      match shape.readMember given (rest.drop 1) with
      | .error refusal => .error refusal
      | .ok (given, rest) => readByKey shape bound false given rest

/-- Passes the closing bracket of a record, as far as it is there. -/
def passClose (bracket : Bracket) (bs : Bytes) : Bytes :=
  match skipBlanks bs with
  | [] => []
  | b :: rest =>
    if b = bracket.close then rest
    else if bracket = .list ∧ b = Byte.comma then skipBlanks rest
    else b :: rest

/-- Passes the closing bracket of a record, which must follow. Behind the fields of an object there
is nothing else. -/
def readClose (bracket : Bracket) (bs : Bytes) : Except Fault Bytes :=
  match skipBlanks bs with
  | [] => refuseAt [] bracket.atEnd
  | b :: rest =>
    if b = bracket.close then .ok rest
    else if bracket = .list ∧ b = Byte.comma then
      match skipBlanks rest with
      | c :: rest =>
        if c = Byte.closeList then refuseAt (c :: rest) .trailingComma
        else refuseAt (c :: rest) .trailingCharacters
      | [] => refuseAt [] .trailingCharacters
    else refuseAt (b :: rest) .trailingCharacters

/-- Reads the closing bracket behind the inside of a record, and gives refusals their place. -/
def close (bracket : Bracket) (inside : Except Refusal (Given φ × Bytes)) :
    Except Fault (Given φ × Bytes) :=
  match inside with
  | .ok (given, rest) => (readClose bracket rest).map fun rest => (given, rest)
  | .error (.placed fault) => .error fault
  | .error (.unplaced cause rest) => refuseBefore (passClose bracket rest) cause

/-- Reads a record. -/
def read [BEq φ] (shape : Shape φ) (bs : Bytes) : Except Fault (Given φ × Bytes) :=
  match skipBlanks bs with
  | [] => refuseAt [] .endOfValue
  | b :: rest =>
    if b = Byte.openList then close .list (readInOrder shape.fields shape [] rest)
    else if b = Byte.openObject then
      close .object (shape.readByKey rest true [] rest)
    else refuseValue (.record shape.title) b rest

/-- The record that a document holds. -/
def parse [BEq φ] (shape : Shape φ) (document : Bytes) : Except Error (Given φ) :=
  let reading := do
    let (given, rest) ← shape.read document
    finish rest
    return given
  reading.mapError (Fault.inDocument document)

/-! ## From a value -/

/-- The text of a field given by a value. -/
def fieldOf (shape : Shape φ) : Value → Except Cause (Option String)
  | .text s => .ok (some s)
  | .null => if shape.optional then .ok none else .error (.mismatch .null .text)
  | value => .error (.mismatch value.found .text)

/-- The fields given by the items of a list. -/
def ofItems (shape : Shape φ) : List φ → List Value → Except Cause (Given φ)
  | field :: fields, item :: items => do
    let text ← shape.fieldOf item
    let given ← shape.ofItems fields items
    return (field, text) :: given
  | _, _ => .ok []

/-- The fields given by the members of an object, taken in order; members of other names do not
count. -/
def ofMembers [BEq φ] (shape : Shape φ) (given : Given φ) :
    List (String × Value) → Except Cause (Given φ)
  | [] => .ok given
  | (key, value) :: members =>
    match shape.ofKey? key with
    | none => shape.ofMembers given members
    | some field =>
      if (given.lookup field).isSome then .error (.duplicateField (shape.name field))
      else do
        let text ← shape.fieldOf value
        shape.ofMembers (given ++ [(field, text)]) members

/-- The fields of a record given as a value. -/
def ofValue [BEq φ] (shape : Shape φ) : Value → Except Cause (Given φ)
  | .list items => do
    let given ← shape.ofItems shape.fields items
    match shape.tooFew? items.length with
    | some cause => .error cause
    | none =>
      if shape.fields.length < items.length then .error (.tooManyElements items.length)
      else return given
  | .object members => do
    let given ← shape.ofMembers [] members
    match shape.missing? given with
    | some cause => .error cause
    | none => return given
  | value => .error (.mismatch value.found (.record shape.title))

end Shape

end GreetingService.Json
