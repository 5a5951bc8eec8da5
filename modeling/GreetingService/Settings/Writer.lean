import GreetingService.Settings.Document
import GreetingService.Text.Hex

/-!
# Writing settings

A document is written section by section, with an empty line in front of every section that has
entries, except the first such one. Names, keys and values escape the backslash and the control
characters, so that each of them stays on its line.
-/

namespace GreetingService.Settings

/-- The written form of one character. -/
def escapeChar (c : Char) : List Char :=
  if c = '\\' then ['\\', '\\']
  else if c = '\x00' then ['\\', '0']
  else if c = '\x07' then ['\\', 'a']
  else if c = '\x08' then ['\\', 'b']
  else if c = '\t' then ['\\', 't']
  else if c = '\n' then ['\\', 'n']
  else if c = '\x0b' then ['\\', 'v']
  else if c = '\x0c' then ['\\', 'f']
  else if c = '\r' then ['\\', 'r']
  else if c.toNat < 32 ∨ c.toNat = 127 then ['\\', 'x'] ++ Text.Hex.padded 4 c.toNat
  else [c]

/-- The written form of a name, key or value. -/
def escapeText (s : String) : List Char :=
  s.toList.flatMap escapeChar

/-- The line of an entry. -/
def Entry.write (e : Entry) : List Char :=
  escapeText e.key ++ '=' :: escapeText e.value ++ ['\n']

/-- The lines of a section. -/
def Section.write (s : Section) : List Char :=
  let header := match s.name with
    | some name => '[' :: escapeText name ++ [']', '\n']
    | none => []
  header ++ s.entries.flatMap Entry.write

/-- The lines of sections, behind a section with entries when `apart` holds. -/
def Document.writeFrom (apart : Bool) : List Section → List Char
  | [] => []
  | s :: rest =>
    (if apart ∧ !s.entries.isEmpty then ['\n'] else []) ++ s.write
      ++ Document.writeFrom (apart || !s.entries.isEmpty) rest

/-- The written form of a document. -/
def Document.write (d : Document) : String :=
  String.ofList (Document.writeFrom false d)

end GreetingService.Settings
