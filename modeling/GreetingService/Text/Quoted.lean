import GreetingService.Text.Hex
import GreetingService.Text.Unprintable
import GreetingService.Text.Extending

/-!
# Quoted texts

How diagnostics and error messages show a text or a single character: between quotes, with every
character that has no visible form of its own written as an escape. A quoted text therefore stays
on one line and can be read back.
-/

namespace GreetingService.Text.Quoted

/-- The form of one character inside the quotes `mark`. -/
def escape (mark c : Char) : List Char :=
  if c = '\x00' then ['\\', '0']
  else if c = '\t' then ['\\', 't']
  else if c = '\r' then ['\\', 'r']
  else if c = '\n' then ['\\', 'n']
  else if c = '\\' then ['\\', '\\']
  else if c = mark then ['\\', mark]
  else if isAttached c || isUnprintable c then ['\\', 'u', '\x7b'] ++ Hex.digits c.toNat ++ ['\x7d']
  else [c]

/-- A text between double quotes. -/
def text (s : String) : String :=
  String.ofList ('"' :: s.toList.flatMap (escape '"') ++ ['"'])

/-- A character between single quotes. -/
def char (c : Char) : String :=
  String.ofList ('\x27' :: escape '\x27' c ++ ['\x27'])

/-- A text that may be absent. -/
def optional : Option String → String
  | none => "None"
  | some s => "Some(" ++ text s ++ ")"

/-- A character that may be absent. -/
def optionalChar : Option Char → String
  | none => "None"
  | some c => "Some(" ++ char c ++ ")"

end GreetingService.Text.Quoted
