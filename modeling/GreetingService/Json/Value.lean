import GreetingService.Json.Numeral
import GreetingService.Json.Quote

/-!
# Values of documents

The value a document stands for. The members of an object are kept in the order of their keys, and
of two members with one key the later one counts. Reading a value goes down into at most 127 nested
brackets.
-/

namespace GreetingService.Json

/-- A value. The members of an object stand in increasing order of their keys. -/
inductive Value where
  | null
  | boolean (value : Bool)
  | number (value : Number)
  | text (value : String)
  | list (items : List Value)
  | object (members : List (String × Value))

namespace Value

/-- How a refusal names the value. -/
def found : Value → Found
  | .null => .null
  | .boolean b => .boolean b
  | .number n => .number n
  | .text s => .text s
  | .list _ => .list
  | .object _ => .object

/-- Adds a member to those of an object; it replaces an earlier one of its key. -/
def insert (key : String) (value : Value) : List (String × Value) → List (String × Value)
  | [] => [(key, value)]
  | (k, v) :: members =>
    if key < k then (key, value) :: (k, v) :: members
    else if key = k then (key, value) :: members
    else (k, v) :: insert key value members

/-- The member of an object with the given key. -/
def member? (key : String) : Value → Option Value
  | .object members => members.lookup key
  | _ => none

end Value

/-! ## The inside of brackets -/

/-- Looks for the next item of a list, behind its bracket when `first` holds and behind an item
otherwise. What is left starts with the item when there is one, and with the closing bracket when
there is none. -/
def nextItem (first : Bool) (bs : Bytes) : Except Fault (Bool × Bytes) :=
  match skipBlanks bs with
  | [] => refuseAt [] .endOfList
  | b :: rest =>
    if b = Byte.closeList then .ok (false, b :: rest)
    else if first then .ok (true, b :: rest)
    else if b = Byte.comma then
      match skipBlanks rest with
      | [] => refuseAt [] .endOfValue
      | c :: rest =>
        if c = Byte.closeList then refuseAt (c :: rest) .trailingComma else .ok (true, c :: rest)
    else refuseAt (b :: rest) .expectedListEnd

/-- Looks for the next member of an object, as `nextItem` does for a list. A member starts with the
quote of its key. -/
def nextMember (first : Bool) (bs : Bytes) : Except Fault (Bool × Bytes) :=
  match skipBlanks bs with
  | [] => refuseAt [] .endOfObject
  | b :: rest =>
    if b = Byte.closeObject then .ok (false, b :: rest)
    else if first then
      if b = Byte.quote then .ok (true, b :: rest) else refuseAt (b :: rest) .keyNotText
    else if b = Byte.comma then
      match skipBlanks rest with
      | [] => refuseAt [] .endOfValue
      | c :: rest =>
        if c = Byte.quote then .ok (true, c :: rest)
        else if c = Byte.closeObject then refuseAt (c :: rest) .trailingComma
        else refuseAt (c :: rest) .keyNotText
    else refuseAt (b :: rest) .expectedObjectEnd

/-- Passes the colon between a key and its value. -/
def readColon (bs : Bytes) : Except Fault Bytes :=
  match skipBlanks bs with
  | [] => refuseAt [] .endOfObject
  | b :: rest => if b = Byte.colon then .ok rest else refuseAt (b :: rest) .expectedColon

/-- Reads the items of a list up to its closing bracket, each by `readItem`. The items in `seen`
are those already read, the last one first. Each round passes a byte, so that the document itself,
as the first argument, bounds their number. -/
def readItems {α : Type} (readItem : Bytes → Except Fault (α × Bytes)) :
    (bound : Bytes) → (seen : List α) → Bytes → Except Fault (List α × Bytes)
  | [], _, _ => refuseAt [] .endOfList
  | _ :: bound, seen, bs =>
    match nextItem seen.isEmpty bs with
    | .error fault => .error fault
    | .ok (false, rest) => .ok (seen.reverse, rest.drop 1)
    | .ok (true, rest) =>
      match readItem rest with
      | .error fault => .error fault
      | .ok (item, rest) => readItems readItem bound (item :: seen) rest

/-- Reads the members of an object up to its closing bracket, their values by `readItem`. The keys
and values in `seen` are those already read, the last one first. -/
def readMembers {α : Type} (readItem : Bytes → Except Fault (α × Bytes)) :
    (bound : Bytes) → (seen : List (String × α)) → Bytes →
      Except Fault (List (String × α) × Bytes)
  | [], _, _ => refuseAt [] .endOfObject
  | _ :: bound, seen, bs =>
    match nextMember seen.isEmpty bs with
    | .error fault => .error fault
    | .ok (false, rest) => .ok (seen.reverse, rest.drop 1)
    | .ok (true, rest) =>
      let member : Except Fault ((String × α) × Bytes) := do
        let (key, rest) ← readText (rest.drop 1)
        let rest ← readColon rest
        let (item, rest) ← readItem rest
        .ok ((key, item), rest)
      match member with
      | .error fault => .error fault
      | .ok (member, rest) => readMembers readItem bound (member :: seen) rest

/-! ## Values -/

/-- Reads a value that has no brackets and starts with `b`. A value may start with no other byte
than those of the cases. -/
def readScalar (b : UInt8) (rest : Bytes) : Except Fault (Value × Bytes) :=
  if b = Byte.lowerN then (readName nullTail rest).map fun rest => (.null, rest)
  else if b = Byte.lowerT then (readName trueTail rest).map fun rest => (.boolean true, rest)
  else if b = Byte.lowerF then (readName falseTail rest).map fun rest => (.boolean false, rest)
  else if b = Byte.quote then (readText rest).map fun (s, rest) => (.text s, rest)
  else if b = Byte.minus ∨ Byte.isDigit b then
    (readNumber (b :: rest)).map fun (n, rest) => (.number n, rest)
  else refuseAt (b :: rest) .expectedValue

/-- Reads a value that may open fewer than `depth` brackets inside one another. -/
def readValue : (depth : Nat) → Bytes → Except Fault (Value × Bytes)
  | 0, bs => refuseAt (skipBlanks bs) .nestingLimit
  | depth + 1, bs =>
    match skipBlanks bs with
    | [] => refuseAt [] .endOfValue
    | b :: rest =>
      if b = Byte.openList then
        if depth = 0 then refuseAt (b :: rest) .nestingLimit
        else (readItems (readValue depth) rest [] rest).map fun (items, rest) =>
          (.list items, rest)
      else if b = Byte.openObject then
        if depth = 0 then refuseAt (b :: rest) .nestingLimit
        else (readMembers (readValue depth) rest [] rest).map fun (members, rest) =>
          (.object (members.foldl (fun all (key, value) => Value.insert key value all) []), rest)
      else readScalar b rest

/-- The depth at which a document opens one bracket too many. -/
def nestingLimit : Nat := 128

/-- The value of a document. -/
def Value.parse (document : Bytes) : Except Error Value :=
  let reading := do
    let (value, rest) ← readValue nestingLimit document
    finish rest
    return value
  reading.mapError (Fault.inDocument document)

end GreetingService.Json
