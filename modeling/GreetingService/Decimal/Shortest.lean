/-!
# Shortest decimals

The shortest decimal that reads back as a given binary number, and the form in which messages show
it. A positive number is `m * 2 ^ q`; the decimals that read back as it are those between the
midpoints to its two neighbours, the midpoints included when `m` is even. Of the grids with
1, 2, … 17 significant digits the first that has a point in this interval is taken, and of its
points the one nearest to the number.
-/

namespace GreetingService.Decimal

/-- A positive binary number `m * 2 ^ q` with its distance to the next smaller one halved when
`low` holds, as below a power of two. -/
structure Dyadic where
  m : Nat
  q : Int
  low : Bool

/-- A decimal `digits * 10 ^ exponent`. -/
structure Digits where
  digits : Nat
  exponent : Int

namespace Dyadic

/-- Numerator and denominator of a quarter of the unit, times `10 ^ k`. -/
def quarter (d : Dyadic) (k : Int) : Nat × Nat :=
  let q := d.q - 2
  (Nat.pow 2 q.toNat * Nat.pow 10 k.toNat, Nat.pow 2 (-q).toNat * Nat.pow 10 (-k).toNat)

/-- The exponent of the leading decimal digit. -/
def magnitude (d : Dyadic) : Int :=
  let (num, den) := d.quarter 0
  let v := 4 * d.m * num
  if den ≤ v then ((Nat.toDigits 10 (v / den)).length : Int) - 1
  else
    let inverse := (Nat.toDigits 10 (den / v)).length
    if den ≤ v * Nat.pow 10 (inverse - 1) then 1 - (inverse : Int) else -(inverse : Int)

/-- The point nearest to the number among the neighbours on the grid of step `10 ^ (-k)` that read
back as the number. -/
def onGrid? (d : Dyadic) (k : Int) : Option Nat :=
  let (num, den) := d.quarter k
  let v := 4 * d.m * num
  let least := (if d.low then 4 * d.m - 1 else 4 * d.m - 2) * num
  let most := (4 * d.m + 2) * num
  let closed := d.m % 2 == 0
  let inside := fun (p : Nat) =>
    if closed then least ≤ p * den && p * den ≤ most else least < p * den && p * den < most
  let below := v / den
  let above := below + 1
  match inside below, inside above with
  | true, true =>
    let toBelow := v - below * den
    let toAbove := above * den - v
    if toBelow < toAbove then some below
    else if toAbove < toBelow then some above
    else if below % 2 == 0 then some below else some above
  | true, false => some below
  | false, true => some above
  | false, false => none

/-- The first grid from `count` digits on with a point that reads back. -/
def search (d : Dyadic) (lead : Int) : (fuel count : Nat) → Digits
  | 0, count => ⟨d.m, lead - count⟩
  | fuel + 1, count =>
    let k := (count : Int) - 1 - lead
    match d.onGrid? k with
    | some p => if p = 0 then d.search lead fuel (count + 1) else ⟨p, -k⟩
    | none => d.search lead fuel (count + 1)

/-- The shortest decimal that reads back. -/
def shortest (d : Dyadic) : Digits :=
  d.search d.magnitude 17 1

end Dyadic

namespace Digits

/-- Removes the zeros at the end of the digits. -/
def strip : (fuel : Nat) → Digits → Digits
  | 0, d => d
  | fuel + 1, d =>
    if d.digits % 10 == 0 && d.digits != 0 then strip fuel ⟨d.digits / 10, d.exponent + 1⟩ else d

/-- Messages write a number positionally, with at least one digit on each side of the point, while
its leading digit is between `10 ^ -5` and `10 ^ 15`; otherwise with one leading digit and a signed
power of ten. -/
def text (d : Digits) : String :=
  let ds := Nat.toDigits 10 d.digits
  let count := ds.length
  let lead := d.exponent + (count : Int) - 1
  if lead < -5 ∨ 15 < lead then
    let tail := if count = 1 then [] else '.' :: ds.drop 1
    let sign := if lead < 0 then "e-" else "e+"
    String.ofList (ds.take 1 ++ tail) ++ sign ++ toString lead.natAbs
  else if lead < 0 then
    String.ofList (['0', '.'] ++ List.replicate (lead.natAbs - 1) '0' ++ ds)
  else
    let whole := lead.toNat + 1
    let front := ds.take whole ++ List.replicate (whole - count) '0'
    let back := ds.drop whole
    String.ofList (front ++ '.' :: (if back.isEmpty then ['0'] else back))

end Digits

/-- The parts of a binary number of double precision other than its sign. -/
def ofBits (bits : Nat) : Dyadic :=
  let fraction : Nat := bits % Nat.pow 2 52
  let exponent : Nat := bits / Nat.pow 2 52 % Nat.pow 2 11
  if exponent = 0 then ⟨fraction, -1074, false⟩
  else ⟨Nat.pow 2 52 + fraction, (exponent : Int) - 1075, fraction == 0 && 1 < exponent⟩

/-- The shortest text of a finite number of double precision. -/
def shortestText (x : Float) : String :=
  let bits := x.toBits.toNat
  let sign := if bits / Nat.pow 2 63 % 2 = 1 then "-" else ""
  let magnitude : Nat := bits % Nat.pow 2 63
  if magnitude = 0 then sign ++ "0.0"
  else sign ++ ((ofBits magnitude).shortest.strip 20).text

end GreetingService.Decimal
