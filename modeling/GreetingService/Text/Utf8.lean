/-!
# Texts as bytes

The UTF-8 form of a text and its inverse. The inverse is partial: a byte sequence that is not
well-formed UTF-8 denotes no text.
-/

namespace GreetingService.Text

/-- The UTF-8 form of a text. -/
def bytes (s : String) : List UInt8 :=
  s.toUTF8.data.toList

/-- The text of which `bs` is the UTF-8 form, if there is one. -/
def ofBytes? (bs : List UInt8) : Option String :=
  String.fromUTF8? bs.toByteArray

/-- The number of bytes that the first character of `bs` takes, if it is well-formed. -/
def firstLength? (bs : List UInt8) : Option Nat :=
  [1, 2, 3, 4].find? fun n => (bs.take n).length = n ∧ (ofBytes? (bs.take n)).isSome

/-- What is left from the first character on that is not well-formed. Each round passes a character,
so that `bs` itself, as the first argument, bounds their number. -/
def fromMalformed : (bound bs : List UInt8) → List UInt8
  | [], bs => bs
  | _ :: bound, bs =>
    match firstLength? bs with
    | some n => fromMalformed bound (bs.drop n)
    | none => bs

/-- Every text is recovered from its bytes. -/
theorem ofBytes?_bytes (s : String) : ofBytes? (bytes s) = some s := by
  have h : (bytes s).toByteArray = s.toByteArray := by
    apply ByteArray.ext
    simp [bytes]
  have hv := s.isValidUTF8
  simp only [ofBytes?, String.fromUTF8?, h, hv, dite_true, String.fromUTF8]

end GreetingService.Text
