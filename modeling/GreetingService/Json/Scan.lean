import GreetingService.Json.Error
import GreetingService.Text.Utf8

/-!
# Scanning a document

A document is a list of bytes, and a reader returns what it has read together with the bytes it
has left. A reader that refuses says how many bytes it had not passed, from which the place in the
whole document follows. This module has the parts of the grammar without nesting other than texts
and numbers: blanks, names and the places themselves.
-/

namespace GreetingService.Json

/-- The bytes of a document, or of what is left of one. -/
abbrev Bytes := List UInt8

namespace Byte

abbrev tab : UInt8 := 9
abbrev lineFeed : UInt8 := 10
abbrev carriageReturn : UInt8 := 13
abbrev space : UInt8 := 32
abbrev quote : UInt8 := 34
abbrev plus : UInt8 := 43
abbrev comma : UInt8 := 44
abbrev minus : UInt8 := 45
abbrev point : UInt8 := 46
abbrev slash : UInt8 := 47
abbrev zero : UInt8 := 48
abbrev nine : UInt8 := 57
abbrev colon : UInt8 := 58
abbrev upperE : UInt8 := 69
abbrev openList : UInt8 := 91
abbrev backslash : UInt8 := 92
abbrev closeList : UInt8 := 93
abbrev lowerB : UInt8 := 98
abbrev lowerE : UInt8 := 101
abbrev lowerF : UInt8 := 102
abbrev lowerN : UInt8 := 110
abbrev lowerR : UInt8 := 114
abbrev lowerT : UInt8 := 116
abbrev lowerU : UInt8 := 117
abbrev openObject : UInt8 := 123
abbrev closeObject : UInt8 := 125

/-- The blanks between the tokens of a document. -/
def isBlank (b : UInt8) : Bool :=
  b == space || b == lineFeed || b == tab || b == carriageReturn

/-- The decimal digits. -/
def isDigit (b : UInt8) : Bool :=
  zero ≤ b && b ≤ nine

end Byte

/-- A refusal while reading: its cause and the number of bytes behind its place. -/
structure Fault where
  cause : Cause
  left : Nat

/-- Refuses at the byte before `rest`, the last one passed. -/
def refuseBefore {α : Type} (rest : Bytes) (cause : Cause) : Except Fault α :=
  .error ⟨cause, rest.length⟩

/-- Refuses at the first byte of `rest`, or at the end of the document. -/
def refuseAt {α : Type} (rest : Bytes) (cause : Cause) : Except Fault α :=
  .error ⟨cause, rest.length - 1⟩

/-- The place behind `seen`: its line, and the number of bytes on that line. -/
def Position.behind (seen : Bytes) : Position where
  line := 1 + seen.count Byte.lineFeed
  column := (seen.reverse.takeWhile (· != Byte.lineFeed)).length

/-- The refusal as seen from the whole document. -/
def Fault.inDocument (document : Bytes) (fault : Fault) : Error where
  cause := fault.cause
  position := some (.behind (document.take (document.length - fault.left)))

/-- What is left behind the blanks. -/
def skipBlanks (bs : Bytes) : Bytes :=
  bs.dropWhile Byte.isBlank

/-- Reads the given bytes of a name such as `null`. -/
def readName : (name : Bytes) → Bytes → Except Fault Bytes
  | [], bs => .ok bs
  | _ :: _, [] => refuseBefore [] .endOfValue
  | n :: name, b :: bs => if n = b then readName name bs else refuseBefore bs .expectedName

/-- The bytes behind the first one of `null`, `true` and `false`. -/
def nullTail : Bytes := [117, 108, 108]

@[inherit_doc nullTail]
def trueTail : Bytes := [114, 117, 101]

@[inherit_doc nullTail]
def falseTail : Bytes := [97, 108, 115, 101]

/-- Nothing but blanks may follow a document's value. -/
def finish (bs : Bytes) : Except Fault Unit :=
  match skipBlanks bs with
  | [] => .ok ()
  | rest => refuseAt rest .trailingCharacters

end GreetingService.Json
