import GreetingService.Json.Scan

/-!
# Numerals in documents

A numeral is a whole part, perhaps a fraction and perhaps a power of ten. Its parts are found by
one scan, which also serves where the number itself is not wanted. The number keeps as many of the
digits as fit into 64 bits, and drops the rest; an integer that needed no dropping stays exact.
-/

namespace GreetingService.Json

/-- The parts of a numeral. The lists hold decimal digits; `whole` has at least one. -/
structure Numeral where
  negative : Bool
  whole : Bytes
  fraction : Option Bytes
  exponent : Option (Bool × Bytes)

namespace Numeral

/-! ## Scanning -/

/-- Splits off the digits a document starts with. -/
def spanDigits (bs : Bytes) : Bytes × Bytes :=
  (bs.takeWhile Byte.isDigit, bs.dropWhile Byte.isDigit)

/-- Scans the digits of the whole part. A zero stands alone. -/
def scanWhole (atEnd : Cause) : Bytes → Except Fault (Bytes × Bytes)
  | [] => refuseBefore [] atEnd
  | b :: rest =>
    if b = Byte.zero then
      match rest with
      | [] => .ok ([b], [])
      | d :: after =>
        if Byte.isDigit d then refuseAt (d :: after) .invalidNumber else .ok ([b], d :: after)
    else if Byte.isDigit b then .ok (b :: (spanDigits rest).1, (spanDigits rest).2)
    else refuseBefore rest .invalidNumber

/-- Scans the fraction, if there is one: a point and at least one digit. -/
def scanFraction (atEnd : Cause) : Bytes → Except Fault (Option Bytes × Bytes)
  | [] => .ok (none, [])
  | b :: rest =>
    if b = Byte.point then
      match spanDigits rest with
      | ([], []) => refuseAt [] atEnd
      | ([], after) => refuseAt after .invalidNumber
      | (digits, after) => .ok (some digits, after)
    else .ok (none, b :: rest)

/-- Scans a sign, which may be missing; the flag says whether it is a minus. -/
def scanSign : Bytes → Bool × Bytes
  | [] => (false, [])
  | b :: rest =>
    if b = Byte.minus then (true, rest)
    else if b = Byte.plus then (false, rest)
    else (false, b :: rest)

/-- Scans the power of ten, if there is one: its mark, a sign and at least one digit. -/
def scanExponent (atEnd : Cause) : Bytes → Except Fault (Option (Bool × Bytes) × Bytes)
  | [] => .ok (none, [])
  | b :: rest =>
    if b = Byte.lowerE ∨ b = Byte.upperE then
      match scanSign rest with
      | (_, []) => refuseBefore [] atEnd
      | (below, d :: after) =>
        if Byte.isDigit d then
          .ok (some (below, d :: (spanDigits after).1), (spanDigits after).2)
        else refuseBefore after .invalidNumber
    else .ok (none, b :: rest)

/-- Scans a numeral. A document that ends where a digit has to come is refused for `atEnd`. -/
def scan (atEnd : Cause) (bs : Bytes) : Except Fault (Numeral × Bytes) := do
  let negative := bs.head? == some Byte.minus
  let (whole, rest) ← scanWhole atEnd (if negative then bs.drop 1 else bs)
  let (fraction, rest) ← scanFraction atEnd rest
  let (exponent, rest) ← scanExponent atEnd rest
  .ok (⟨negative, whole, fraction, exponent⟩, rest)

/-! ## The number -/

/-- The value of a decimal digit. -/
def digitValue (b : UInt8) : Nat :=
  b.toNat - 48

/-- Appends digits to a significand while it fits into 64 bits; also counts the digits left over. -/
def absorb : (significand : Nat) → Bytes → Nat × Nat
  | m, [] => (m, 0)
  | m, d :: ds =>
    let next := 10 * m + digitValue d
    if next < Nat.pow 2 64 then absorb next ds else (m, ds.length + 1)

/-- A significand together with the power of ten by which it is to be multiplied. -/
structure Scaled where
  significand : Nat
  power : Int

/-- The digits in front of the power of ten. -/
def scaled (n : Numeral) : Scaled :=
  let (m, dropped) := absorb 0 n.whole
  match n.fraction with
  | none => ⟨m, dropped⟩
  | some digits =>
    let (m, ignored) := absorb m digits
    ⟨m, (dropped : Int) - (digits.length - ignored : Nat)⟩

/-- The integer of a numeral without fraction, power of ten and dropped digits, if it has the 64
bits that its sign allows. A negative zero is no integer. -/
def integer? (n : Numeral) : Option Int :=
  match n.fraction, n.exponent, absorb 0 n.whole with
  | none, none, (m, 0) =>
    if n.negative then (if 0 < m ∧ m ≤ Nat.pow 2 63 then some (-(m : Int)) else none)
    else some m
  | _, _, _ => none

/-- What the digits of a power of ten come to: a number, or, once it exceeds 31 bits, the count of
digits that were not looked at any more. -/
def exponentValue : (value : Nat) → Bytes → Except Nat Nat
  | v, [] => .ok v
  | v, d :: ds =>
    let next := 10 * v + digitValue d
    if next < Nat.pow 2 31 then exponentValue next ds else .error ds.length

/-- The power `10 ^ k` in double precision. -/
def tenTo (k : Nat) : Float :=
  Float.ofScientific 1 false k

/-- The largest power of ten of double precision. -/
def largestPower : Nat := 308

/-- Multiplies by a power of ten, in steps that double precision can hold; no step is taken once
the number has become zero. There is no result above the range. -/
def scale : (steps : Nat) → Float → Int → Option Float
  | 0, x, _ => some x
  | steps + 1, x, power =>
    if power.natAbs ≤ largestPower then
      if 0 ≤ power then
        let y := x * tenTo power.natAbs
        if y.isInf then none else some y
      else some (x / tenTo power.natAbs)
    else if x == 0 then some x
    else if 0 ≤ power then none
    else scale steps (x / tenTo largestPower) (power + largestPower)

/-- A significand of 64 bits reaches zero after two steps. -/
def scaleSteps : Nat := 4

/-- The magnitude of a numeral that is no exact integer. -/
def magnitude (n : Numeral) (rest : Bytes) : Except Fault Float :=
  let front := n.scaled
  let times := fun (power : Int) =>
    match scale scaleSteps (Float.ofNat front.significand) (front.power + power) with
    | some x => Except.ok x
    | none => refuseBefore rest .numberOutOfRange
  match n.exponent with
  | none => times 0
  | some (below, digits) =>
    match exponentValue 0 digits with
    | .ok v => times (if below then -(v : Int) else v)
    | .error behind =>
      if front.significand ≠ 0 ∧ !below then .error ⟨.numberOutOfRange, rest.length + behind⟩
      else .ok 0

/-- The number that a numeral with `rest` behind it denotes. -/
def number (n : Numeral) (rest : Bytes) : Except Fault Number :=
  match n.integer? with
  | some i => .ok (.integer i)
  | none => (n.magnitude rest).map fun x => .real (if n.negative then -x else x)

end Numeral

/-- Reads a number. -/
def readNumber (bs : Bytes) : Except Fault (Number × Bytes) := do
  let (n, rest) ← Numeral.scan .endOfValue bs
  let value ← n.number rest
  .ok (value, rest)

/-- Passes a numeral without asking for its number. -/
def skimNumber (bs : Bytes) : Except Fault Bytes :=
  (Numeral.scan .invalidNumber bs).map (·.2)

end GreetingService.Json
