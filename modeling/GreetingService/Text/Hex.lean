/-!
# Hexadecimal digits

Numbers written in base sixteen with lower case letters, and the reading of single digits in
either case.
-/

namespace GreetingService.Text.Hex

/-- The digits of a number without leading zeros; zero is one digit. -/
def digits (n : Nat) : List Char :=
  Nat.toDigits 16 n

/-- The digits of a number, filled with zeros on the left up to `width`. -/
def padded (width n : Nat) : List Char :=
  let ds := digits n
  List.replicate (width - ds.length) '0' ++ ds

/-- The value of one digit. -/
def value? (c : Char) : Option Nat :=
  if '0' ≤ c ∧ c ≤ '9' then some (c.toNat - 48)
  else if 'a' ≤ c ∧ c ≤ 'f' then some (c.toNat - 87)
  else if 'A' ≤ c ∧ c ≤ 'F' then some (c.toNat - 55)
  else none

/-- The value of a run of digits, read from the left onto `start`. -/
def valueFrom? (start : Nat) : List Char → Option Nat
  | [] => some start
  | c :: cs =>
    match value? c with
    | some d => valueFrom? (16 * start + d) cs
    | none => none

end GreetingService.Text.Hex
