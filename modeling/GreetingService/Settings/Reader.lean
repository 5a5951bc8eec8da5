import GreetingService.Settings.Document
import GreetingService.Text.Blank
import GreetingService.Text.Quoted

/-!
# Reading settings

The reader takes a text character by character. It stands between items, in a comment, in front of
a value, or inside a text, and passes on an item as soon as it is complete:

* a header stands in square brackets;
* a key reaches up to `=` or `:`, a value from there to the end of its line;
* a value that starts with a quote goes on up to the next such quote, across lines, and then to the
  end of that line;
* a comment starts with `;` or `#` at the start of a line;
* a backslash starts an escape in any of these texts.

Blanks at both ends of a text do not count. They are removed last, even if they were quoted or
written as escapes.
-/

namespace GreetingService.Settings

/-- A place in a text: the number of line breaks before it, and the number of characters since the
last of them. -/
structure Place where
  line : Nat
  column : Nat
  deriving DecidableEq

/-- The place of the character `c` when `p` is the place before it. -/
def Place.next (p : Place) (c : Char) : Place :=
  if c = '\n' then ⟨p.line + 1, 0⟩ else ⟨p.line, p.column + 1⟩

/-- The text that is being read. -/
inductive Scope where
  | header
  | key
  | value (key : String)
  | quoted (key : String) (mark : Char)

/-- How far an escape has been read; the digits of a hexadecimal one are kept last first. After a
backslash among these digits a line break has to come. -/
inductive Escape where
  | outside
  | begun
  | hex (digits : List Char)
  | hexBreak (digits : List Char)

/-- Where the reader stands. The text read so far is kept last character first. -/
inductive Mode where
  | between
  | comment
  | front (key : String)
  | inside (scope : Scope) (escape : Escape) (seen : List Char)

/-- What can be wrong with a text. -/
inductive SyntaxCause where
  | inlineComment
  | missingKey
  | unfinished (scope : Scope)
  | brokenEscape (found : Option Char)
  | notACharacter
  | other (text : String)

/-- A refusal with its place. -/
structure SyntaxError where
  cause : SyntaxCause
  place : Place

/-- The characters that may end a text; the end of the document is written as an absent one. -/
def Scope.ends : Scope → List (Option Char)
  | .header => [some ']']
  | .key => [some '=', some ':']
  | .value _ => [some '\n', some '\r', none]
  | .quoted _ mark => [some mark]

/-- The wording of what is wrong. -/
def SyntaxCause.message : SyntaxCause → String
  | .inlineComment => "doesn't support inline comment"
  | .missingKey => "missing key"
  | .unfinished scope =>
    "expecting \"[" ++ ", ".intercalate (scope.ends.map Text.Quoted.optionalChar)
      ++ "]\" but found EOF."
  | .brokenEscape found =>
    "expecting \"\\\\n\" but found \"" ++ Text.Quoted.optionalChar found ++ "\"."
  | .notACharacter => "unknown character in \\xHH form"
  | .other text => text

/-- The wording of a refusal, with its place. -/
def SyntaxError.message (e : SyntaxError) : String :=
  toString e.place.line ++ ":" ++ toString e.place.column ++ " " ++ e.cause.message

/-! ## Escapes -/

/-- What an escape of one letter stands for. A backslash at the end of a line joins it to the next
one, and before any other character it has no effect. -/
def letterEscape (c : Char) : List Char :=
  if c = '0' then ['\x00']
  else if c = 'a' then ['\x07']
  else if c = 'b' then ['\x08']
  else if c = 't' then ['\t']
  else if c = 'r' then ['\r']
  else if c = 'n' then ['\n']
  else if c = '\n' then []
  else [c]

/-- The character of four hexadecimal digits, the first of which may be a plus sign instead. -/
def hexChar? (digits : List Char) : Option Char :=
  let digits := if digits.head? = some '+' then digits.drop 1 else digits
  match Text.Hex.valueFrom? 0 digits with
  | some n => if n.isValidChar then some (Char.ofNat n) else none
  | none => none

/-- Takes a character of a hexadecimal escape; the fourth one completes it. -/
def hexNext (scope : Scope) (digits seen : List Char) (c : Char) : Except SyntaxCause Mode :=
  if digits.length < 3 then .ok (.inside scope (.hex (c :: digits)) seen)
  else
    match hexChar? (c :: digits).reverse with
    | some d => .ok (.inside scope .outside (d :: seen))
    | none => .error .notACharacter

/-! ## One character -/

/-- The text read so far as it counts. -/
def textOf (seen : List Char) : String :=
  String.ofList (Text.trim seen.reverse)

/-- Goes on when the text in `scope` has ended. Behind its closing quote, a quoted value goes on as a
plain one. -/
def endText (scope : Scope) (seen : List Char) : Except SyntaxCause (Mode × Option Item) :=
  match scope with
  | .header => .ok (.between, some (.header (textOf seen)))
  | .key => if textOf seen = "" then .error .missingKey else .ok (.front (textOf seen), none)
  | .value key => .ok (.between, some (.entry ⟨key, textOf seen⟩))
  | .quoted key _ => .ok (.inside (.value key) .outside seen, none)

/-- Takes a character inside a text. -/
def insideNext (scope : Scope) (escape : Escape) (seen : List Char) (c : Char) :
    Except SyntaxCause (Mode × Option Item) :=
  match escape with
  | .outside =>
    if some c ∈ scope.ends then endText scope seen
    else if c = '\\' then .ok (.inside scope .begun seen, none)
    else .ok (.inside scope .outside (c :: seen), none)
  | .begun =>
    if c = 'x' then .ok (.inside scope (.hex []) seen, none)
    else .ok (.inside scope .outside (letterEscape c ++ seen), none)
  | .hex digits =>
    if c = '\\' then .ok (.inside scope (.hexBreak digits) seen, none)
    else (hexNext scope digits seen c).map fun mode => (mode, none)
  | .hexBreak digits =>
    if c = '\n' then (hexNext scope digits seen c).map fun mode => (mode, none)
    else .error (.brokenEscape (some c))

/-- Takes the character `c`, which stands at `place`. -/
def Mode.next (mode : Mode) (place : Place) (c : Char) :
    Except SyntaxCause (Mode × Option Item) :=
  match mode with
  | .between =>
    if Text.isBlank c then .ok (.between, none)
    else if c = ';' ∨ c = '#' then
      if 1 < place.column then .error .inlineComment else .ok (.comment, none)
    else if c = '[' then .ok (.inside .header .outside [], none)
    else if c = '=' ∨ c = ':' then .error .missingKey
    else insideNext .key .outside [] c
  | .comment => .ok (if c = '\n' then .between else .comment, none)
  | .front key =>
    if Text.isBlank c ∧ c ≠ '\n' ∧ c ≠ '\r' then .ok (.front key, none)
    else if c = '"' ∨ c = '\x27' then .ok (.inside (.quoted key c) .outside [], none)
    else insideNext (.value key) .outside [] c
  | .inside scope escape seen => insideNext scope escape seen c

/-- What the end of the document completes. -/
def Mode.finish : Mode → Except SyntaxCause (Option Item)
  | .between => .ok none
  | .comment => .ok none
  | .front key => .ok (some (.entry ⟨key, ""⟩))
  | .inside (.value key) .outside seen => .ok (some (.entry ⟨key, textOf seen⟩))
  | .inside _ (.hexBreak _) _ => .error (.brokenEscape none)
  | .inside scope _ _ => .error (.unfinished scope)

/-! ## The whole text -/

/-- The reader in the middle of a text: the place of the last character and the items completed so
far, the last one first. -/
structure Reader where
  place : Place
  mode : Mode
  items : List Item

namespace Reader

/-- The reader in front of a text. -/
def start : Reader := ⟨⟨0, 0⟩, .between, []⟩

/-- The reader behind one more character. -/
def next (r : Reader) (c : Char) : Except SyntaxError Reader :=
  let place := r.place.next c
  match r.mode.next place c with
  | .ok (mode, item) => .ok ⟨place, mode, item.toList ++ r.items⟩
  | .error cause => .error ⟨cause, place⟩

/-- The items of the text that ends here. -/
def finish (r : Reader) : Except SyntaxError (List Item) :=
  match r.mode.finish with
  | .ok item => .ok (item.toList ++ r.items).reverse
  | .error cause => .error ⟨cause, r.place⟩

/-- The items of a text. -/
def read (cs : List Char) : Except SyntaxError (List Item) := do
  let r ← cs.foldlM next start
  r.finish

end Reader

/-- The document that a text describes. -/
def Document.parse (text : String) : Except SyntaxError Document :=
  (Reader.read text.toList).map Document.ofItems

end GreetingService.Settings
