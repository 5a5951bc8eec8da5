/-!
# Similarity of words

How much a word looks like another one, by the measure of Jaro and Winkler: characters count as
common when they stand at about the same position, pairs of common characters in the wrong order
count against the words, and a common start counts for them. The measure is a fraction and is
compared without rounding.
-/

namespace GreetingService.Text

/-- How far apart the positions of a common character may be in words of the given lengths. -/
def reach (m n : Nat) : Nat :=
  max m n / 2 - 1

/-- The positions in `b` of the characters that it has in common with `a`, in the order of `a` from
position `i` on. A position in `used` is taken already. -/
def commonFrom (range : Nat) (b : List Char) : (i : Nat) → (used : List Nat) → List Char → List Nat
  | _, _, [] => []
  | i, used, c :: a =>
    let free := fun j =>
      decide (i ≤ j + range ∧ j ≤ i + range ∧ b[j]? = some c) && !used.contains j
    match (List.range b.length).find? free with
    | some j => j :: commonFrom range b (i + 1) (j :: used) a
    | none => commonFrom range b (i + 1) used a

/-- The positions in `b` of the characters that it has in common with `a`. -/
def common (a b : List Char) : List Nat :=
  commonFrom (reach a.length b.length) b 0 [] a

/-- The number of positions that are smaller than the one before. -/
def disorder (positions : List Nat) : Nat :=
  (positions.zip (positions.drop 1)).countP fun (i, j) => decide (j < i)

/-- The number of characters with which both words start. -/
def commonStart (a b : List Char) : Nat :=
  ((a.zip b).takeWhile fun (c, d) => c == d).length

/-- Whether the similarity of two words is above four fifths. With the share `n / d` of common
characters and `p` characters of common start it is `n / d + p / 10 * (1 - n / d)`. -/
def looksLike (a b : String) : Bool :=
  let a := a.toList
  let b := b.toList
  let positions := common a b
  let m := positions.length
  let n := m * m * (a.length + b.length) + (m - disorder positions) * a.length * b.length
  let d := 3 * a.length * b.length * m
  let p := commonStart a b
  8 * d < 10 * n + p * (d - n)

end GreetingService.Text
