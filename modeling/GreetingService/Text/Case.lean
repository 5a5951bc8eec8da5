/-!
# Letter case

Case folding of the letters `A` to `Z` alone; every other character stands for itself.
-/

namespace GreetingService.Text

/-- The text with the letters `A` to `Z` in lower case. -/
def lower (s : String) : String :=
  String.ofList (s.toList.map Char.toLower)

/-- Equality of two texts up to the case of the letters `A` to `Z`. -/
def sameLetters (s t : String) : Bool :=
  lower s == lower t

end GreetingService.Text
