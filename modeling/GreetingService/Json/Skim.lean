import GreetingService.Json.Value

/-!
# Skimming

Passing a value without keeping it, as for the members of a record that nobody asked for. The
brackets still open are kept in a list, so that a skimmed value may be nested without limit. Texts
need not be well-formed UTF-8 here, and numbers may be out of range.
-/

namespace GreetingService.Json

/-- The two kinds of brackets. -/
inductive Bracket where
  | list
  | object
  deriving DecidableEq

/-- The byte that closes a bracket. -/
def Bracket.close : Bracket → UInt8
  | .list => Byte.closeList
  | .object => Byte.closeObject

/-- The refusal of a document that ends inside the bracket. -/
def Bracket.atEnd : Bracket → Cause
  | .list => .endOfList
  | .object => .endOfObject

/-- The refusal of anything but a comma or the closing bracket. -/
def Bracket.unfinished : Bracket → Cause
  | .list => .expectedListEnd
  | .object => .expectedObjectEnd

/-- Where skimming stands: before a value or behind one. -/
inductive Stand where
  | before
  | behind

/-- Passes what stands in a bracket in front of a value, which is a key in an object. -/
def skimKey (bracket : Bracket) (bs : Bytes) : Except Fault Bytes :=
  match bracket with
  | .list => .ok bs
  | .object =>
    match skipBlanks bs with
    | [] => refuseAt [] .endOfObject
    | b :: rest =>
      if b = Byte.quote then do readColon (← skimText rest)
      else refuseAt (b :: rest) .keyNotText

/-- Passes a value without brackets that starts with `b`. -/
def skimScalar (b : UInt8) (rest : Bytes) : Except Fault Bytes :=
  if b = Byte.lowerN then readName nullTail rest
  else if b = Byte.lowerT then readName trueTail rest
  else if b = Byte.lowerF then readName falseTail rest
  else if b = Byte.quote then skimText rest
  else if b = Byte.minus ∨ Byte.isDigit b then skimNumber (b :: rest)
  else refuseAt (b :: rest) .expectedValue

/-- Passes what stands behind a bracket that was just opened, up to its first value if it has one.
The brackets in `opened` are those around it, the innermost first. -/
def skimOpened (bracket : Bracket) (opened : List Bracket) (bs : Bytes) :
    Except Fault (List Bracket × Stand × Bytes) :=
  match skipBlanks bs with
  | [] => refuseAt [] bracket.atEnd
  | b :: rest =>
    if b = bracket.close then .ok (opened, .behind, rest)
    else (skimKey bracket (b :: rest)).map fun rest => (bracket :: opened, .before, rest)

/-- Passes a value without brackets, or an opening bracket. -/
def skimBefore (opened : List Bracket) (bs : Bytes) :
    Except Fault (List Bracket × Stand × Bytes) :=
  match skipBlanks bs with
  | [] => refuseAt [] .endOfValue
  | b :: rest =>
    if b = Byte.openList then skimOpened .list opened rest
    else if b = Byte.openObject then skimOpened .object opened rest
    else (skimScalar b rest).map fun rest => (opened, .behind, rest)

/-- Passes what stands behind a value in a bracket, up to the next value if there is one. -/
def skimBehind (bracket : Bracket) (opened : List Bracket) (bs : Bytes) :
    Except Fault (List Bracket × Stand × Bytes) :=
  match skipBlanks bs with
  | [] => refuseAt [] bracket.atEnd
  | b :: rest =>
    if b = bracket.close then .ok (opened, .behind, rest)
    else if b = Byte.comma then
      (skimKey bracket rest).map fun rest => (bracket :: opened, .before, rest)
    else refuseAt (b :: rest) bracket.unfinished

/-- Skims until no bracket is open behind a value. Each round passes a byte, so that the document
itself, as the first argument, bounds their number. -/
def skimFrom : (bound : Bytes) → List Bracket → Stand → Bytes → Except Fault Bytes
  | _, [], .behind, bs => .ok bs
  | [], bracket :: _, .behind, _ => refuseAt [] bracket.atEnd
  | [], _, .before, _ => refuseAt [] .endOfValue
  | _ :: bound, bracket :: opened, .behind, bs =>
    match skimBehind bracket opened bs with
    | .error fault => .error fault
    | .ok (opened, stand, bs) => skimFrom bound opened stand bs
  | _ :: bound, opened, .before, bs =>
    match skimBefore opened bs with
    | .error fault => .error fault
    | .ok (opened, stand, bs) => skimFrom bound opened stand bs

/-- Passes a value of any kind. -/
def skimValue (bs : Bytes) : Except Fault Bytes :=
  skimFrom bs [] .before bs

end GreetingService.Json
