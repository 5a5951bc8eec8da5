import GreetingService.Decimal.Shortest
import GreetingService.Text.Quoted

/-!
# Errors of JSON documents

What can be wrong with a document, where, and how it is worded. A document is *malformed* when it
breaks the grammar, *truncated* when it ends too early, and *unfit* when it is well-formed but does
not describe the wanted record. Places count lines from one and columns in bytes.
-/

namespace GreetingService.Json

/-- A number is kept exactly while it is an integer of 64 bits, and as a binary number of double
precision otherwise. -/
inductive Number where
  | integer (value : Int)
  | real (value : Float)

/-- What was found where something else was wanted. -/
inductive Found where
  | null
  | boolean (value : Bool)
  | number (value : Number)
  | text (value : String)
  | list
  | object

/-- What was wanted. -/
inductive Wanted where
  | text
  | record (title : String)

/-- The ways in which a document is refused. -/
inductive Cause where
  | endOfList
  | endOfObject
  | endOfText
  | endOfValue
  | expectedColon
  | expectedListEnd
  | expectedObjectEnd
  | expectedName
  | expectedValue
  | invalidEscape
  | invalidNumber
  | numberOutOfRange
  | invalidCodePoint
  | controlCharacter
  | keyNotText
  | loneSurrogate
  | trailingComma
  | trailingCharacters
  | endOfHexEscape
  | nestingLimit
  | mismatch (found : Found) (wanted : Wanted)
  | duplicateField (name : String)
  | missingField (name : String)
  | tooFewElements (count : Nat) (title : String) (wanted : Nat)
  | tooManyElements (count : Nat)

/-- The three kinds of refusal. -/
inductive Category where
  | malformed
  | truncated
  | unfit
  deriving DecidableEq

/-- A place in a document. -/
structure Position where
  line : Nat
  column : Nat
  deriving DecidableEq

/-- A refusal; one that concerns an already parsed value has no place. -/
structure Error where
  cause : Cause
  position : Option Position

/-- The name of what was found. -/
def Found.message : Found → String
  | .null => "null"
  | .boolean b => "boolean `" ++ (if b then "true" else "false") ++ "`"
  | .number (.integer n) => "integer `" ++ toString n ++ "`"
  | .number (.real x) => "floating point `" ++ Decimal.shortestText x ++ "`"
  | .text s => "string " ++ Text.Quoted.text s
  | .list => "sequence"
  | .object => "map"

/-- The name of what was wanted. -/
def Wanted.message : Wanted → String
  | .text => "a string"
  | .record title => "struct " ++ title

/-- The wording of a cause. -/
def Cause.message : Cause → String
  | .endOfList => "EOF while parsing a list"
  | .endOfObject => "EOF while parsing an object"
  | .endOfText => "EOF while parsing a string"
  | .endOfValue => "EOF while parsing a value"
  | .expectedColon => "expected `:`"
  | .expectedListEnd => "expected `,` or `]`"
  | .expectedObjectEnd => "expected `,` or `\x7d`"
  | .expectedName => "expected ident"
  | .expectedValue => "expected value"
  | .invalidEscape => "invalid escape"
  | .invalidNumber => "invalid number"
  | .numberOutOfRange => "number out of range"
  | .invalidCodePoint => "invalid unicode code point"
  | .controlCharacter => "control character (\\u0000-\\u001F) found while parsing a string"
  | .keyNotText => "key must be a string"
  | .loneSurrogate => "lone leading surrogate in hex escape"
  | .trailingComma => "trailing comma"
  | .trailingCharacters => "trailing characters"
  | .endOfHexEscape => "unexpected end of hex escape"
  | .nestingLimit => "recursion limit exceeded"
  | .mismatch found wanted => "invalid type: " ++ found.message ++ ", expected " ++ wanted.message
  | .duplicateField name => "duplicate field `" ++ name ++ "`"
  | .missingField name => "missing field `" ++ name ++ "`"
  | .tooFewElements count title wanted =>
    "invalid length " ++ toString count ++ ", expected struct " ++ title ++ " with "
      ++ toString wanted ++ (if wanted = 1 then " element" else " elements")
  | .tooManyElements count =>
    "invalid length " ++ toString count ++ ", expected fewer elements in array"

/-- The kind of a cause. -/
def Cause.category : Cause → Category
  | .endOfList | .endOfObject | .endOfText | .endOfValue => .truncated
  | .mismatch _ _ | .duplicateField _ | .missingField _ | .tooFewElements _ _ _
  | .tooManyElements _ => .unfit
  | _ => .malformed

/-- The wording of a refusal, with its place when it has one. -/
def Error.message (e : Error) : String :=
  match e.position with
  | none => e.cause.message
  | some p =>
    e.cause.message ++ " at line " ++ toString p.line ++ " column " ++ toString p.column

end GreetingService.Json
