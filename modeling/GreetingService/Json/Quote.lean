import GreetingService.Json.Scan
import GreetingService.Text.Hex

/-!
# Texts in documents

A text stands between double quotes; inside them the quote, the backslash and the characters below
the space are written as escapes. Reading undoes the escapes and checks that the bytes are UTF-8;
skimming only finds the end of a text, for members that nobody asked for.
-/

namespace GreetingService.Json

/-! ## Writing -/

/-- The written form of one character. -/
def escapeChar (c : Char) : List Char :=
  if c = '"' then ['\\', '"']
  else if c = '\\' then ['\\', '\\']
  else if c = '\x08' then ['\\', 'b']
  else if c = '\t' then ['\\', 't']
  else if c = '\n' then ['\\', 'n']
  else if c = '\x0c' then ['\\', 'f']
  else if c = '\r' then ['\\', 'r']
  else if c.toNat < 32 then ['\\', 'u'] ++ Text.Hex.padded 4 c.toNat
  else [c]

/-- The written form of a text, quotes included. -/
def quote (s : String) : String :=
  String.ofList ('"' :: s.toList.flatMap escapeChar ++ ['"'])

/-! ## Reading -/

/-- Reads the four hexadecimal digits of an escape; the four bytes are passed in any case. -/
def readHex : Bytes → Except Fault (Nat × Bytes)
  | a :: b :: c :: d :: rest =>
    match Text.Hex.valueFrom? 0 ([a, b, c, d].map fun x => Char.ofNat x.toNat) with
    | some n => .ok (n, rest)
    | none => refuseBefore rest .invalidEscape
  | _ => refuseBefore [] .endOfText

/-- Passes the byte `b`, which must follow the first half of a surrogate pair. -/
def readPairMark (b : UInt8) : Bytes → Except Fault Bytes
  | [] => refuseBefore [] .endOfText
  | x :: rest => if x = b then .ok rest else refuseBefore rest .endOfHexEscape

/-- Reads the character of an escape with hexadecimal digits, which takes two escapes above
`U+FFFF`. -/
def readCodePoint (bs : Bytes) : Except Fault (Char × Bytes) := do
  let (n, rest) ← readHex bs
  if 0xDC00 ≤ n ∧ n ≤ 0xDFFF then refuseBefore rest .loneSurrogate
  else if 0xD800 ≤ n ∧ n ≤ 0xDBFF then
    let rest ← readPairMark Byte.backslash rest
    let rest ← readPairMark Byte.lowerU rest
    let (m, rest) ← readHex rest
    if 0xDC00 ≤ m ∧ m ≤ 0xDFFF then
      .ok (Char.ofNat (0x10000 + (n - 0xD800) * 0x400 + (m - 0xDC00)), rest)
    else refuseBefore rest .loneSurrogate
  else .ok (Char.ofNat n, rest)

/-- The character of an escape of one letter. -/
def plainEscape? (b : UInt8) : Option Char :=
  if b = Byte.quote then some '"'
  else if b = Byte.backslash then some '\\'
  else if b = Byte.slash then some '/'
  else if b = Byte.lowerB then some '\x08'
  else if b = Byte.lowerF then some '\x0c'
  else if b = Byte.lowerN then some '\n'
  else if b = Byte.lowerR then some '\r'
  else if b = Byte.lowerT then some '\t'
  else none

/-- Reads the character of an escape, behind the backslash. -/
def readEscape : Bytes → Except Fault (Char × Bytes)
  | [] => refuseBefore [] .endOfText
  | b :: rest =>
    if b = Byte.lowerU then readCodePoint rest
    else
      match plainEscape? b with
      | some c => .ok (c, rest)
      | none => refuseBefore rest .invalidEscape

/-- Reads the bytes of a text up to its closing quote; `seen` has those already read, the last one
first. Each round passes a byte, so that the document itself, as the first argument, bounds their
number. -/
def readContent : (bound seen : Bytes) → Bytes → Except Fault (Bytes × Bytes)
  | [], _, _ => refuseBefore [] .endOfText
  | _ :: _, _, [] => refuseBefore [] .endOfText
  | _ :: bound, seen, b :: rest =>
    if b = Byte.quote then .ok (seen.reverse, rest)
    else if b = Byte.backslash then
      match readEscape rest with
      | .ok (c, rest) => readContent bound ((String.utf8EncodeChar c).reverse ++ seen) rest
      | .error fault => .error fault
    else if b < 32 then refuseBefore rest .controlCharacter
    else readContent bound (b :: seen) rest

/-- Reads a text behind its opening quote. A text that is not well-formed is refused as many bytes
before its end as it has from its first malformed byte on. They are counted with the escapes undone:
in a text without escapes that is the place of the malformed byte, else it lies behind it. -/
def readText (bs : Bytes) : Except Fault (String × Bytes) := do
  let (content, rest) ← readContent bs [] bs
  match Text.ofBytes? content with
  | some s => .ok (s, rest)
  | none =>
    .error ⟨.invalidCodePoint, (Text.fromMalformed content content).length + rest.length⟩

/-! ## Skimming -/

/-- Passes an escape, behind the backslash; lone surrogates pass. -/
def skimEscape : Bytes → Except Fault Bytes
  | [] => refuseBefore [] .endOfText
  | b :: rest =>
    if b = Byte.lowerU then (readHex rest).map (·.2)
    else if (plainEscape? b).isSome then .ok rest
    else refuseBefore rest .invalidEscape

/-- Passes a text up to its closing quote, as `readContent` does. -/
def skimContent : (bound : Bytes) → Bytes → Except Fault Bytes
  | [], _ => refuseBefore [] .endOfText
  | _ :: _, [] => refuseBefore [] .endOfText
  | _ :: bound, b :: rest =>
    if b = Byte.quote then .ok rest
    else if b = Byte.backslash then
      match skimEscape rest with
      | .ok rest => skimContent bound rest
      | .error fault => .error fault
    else if b < 32 then refuseBefore (b :: rest) .controlCharacter
    else skimContent bound rest

/-- Passes a text behind its opening quote. -/
def skimText (bs : Bytes) : Except Fault Bytes :=
  skimContent bs bs

end GreetingService.Json
