import GreetingService.Text.Quoted
import Mathlib.Tactic

/-!
# Quoted texts are read back

The form of a character between quotes says where it ends: a backslash begins an escape, a closing
brace ends a number, and everything else stands for itself. A quoted text therefore ends at its own
closing quote, whatever follows, and no two texts have the same quoted form. None of these forms
holds a line break.
-/

namespace GreetingService.Text

/-! ## Digits -/

namespace Hex

theorem digits_of_lt {n : Nat} (h : n < 16) : digits n = [Nat.digitChar n] :=
  Nat.toDigits_of_lt_base h

theorem digits_of_le {n : Nat} (h : 16 ≤ n) :
    digits n = digits (n / 16) ++ [Nat.digitChar (n % 16)] := by
  have hlast : n % 16 < 16 := Nat.mod_lt n (by decide)
  calc
    digits n = Nat.toDigits 16 (16 * (n / 16) + n % 16) := by rw [Nat.div_add_mod, digits]
    _ = Nat.toDigits 16 (n / 16) ++ Nat.toDigits 16 (n % 16) :=
        (Nat.toDigits_append_toDigits (by decide) (by omega) hlast).symm
    _ = digits (n / 16) ++ [Nat.digitChar (n % 16)] := by
        rw [Nat.toDigits_of_lt_base hlast, digits]

theorem value?_digitChar : ∀ d < 16, value? (Nat.digitChar d) = some d := by decide

theorem valueFrom?_append (ds es : List Char) (start : Nat) :
    valueFrom? start (ds ++ es) = (valueFrom? start ds).bind fun n => valueFrom? n es := by
  induction ds generalizing start with
  | nil => rfl
  | cons c ds ih =>
      simp only [List.cons_append, valueFrom?]
      cases value? c with
      | none => rfl
      | some d => exact ih (16 * start + d)

/-- The digits of a number are read back as the number. -/
theorem valueFrom?_digits (n : Nat) : valueFrom? 0 (digits n) = some n := by
  induction n using Nat.strongRecOn with
  | ind n ih =>
      by_cases h : n < 16
      · simp [digits_of_lt h, valueFrom?, value?_digitChar n h]
      · -- all digits but the last one are those of a smaller number
        have hfront := ih (n / 16) (by omega)
        have hlast := value?_digitChar (n % 16) (by omega)
        simp [digits_of_le (Nat.le_of_not_lt h), valueFrom?_append, hfront, valueFrom?, hlast]
        omega

theorem mem_digits {n : Nat} {c : Char} (h : c ∈ digits n) : ∃ d < 16, c = Nat.digitChar d := by
  induction n using Nat.strongRecOn with
  | ind n ih =>
      by_cases hn : n < 16
      · exact ⟨n, hn, by simpa [digits_of_lt hn] using h⟩
      · have hcases : c ∈ digits (n / 16) ∨ c = Nat.digitChar (n % 16) := by
          simpa [digits_of_le (Nat.le_of_not_lt hn)] using h
        rcases hcases with hfront | hlast
        · exact ih (n / 16) (by omega) hfront
        · exact ⟨n % 16, by omega, hlast⟩

end Hex

/-! ## Line breaks -/

/-- Whether a character ends a line. -/
def IsBreak (c : Char) : Prop :=
  c = '\n' ∨ c = '\r'

instance : DecidablePred IsBreak :=
  fun c => inferInstanceAs (Decidable (c = '\n' ∨ c = '\r'))

/-- Characters with no line break among them. -/
def Unbroken (cs : List Char) : Prop :=
  ∀ c ∈ cs, ¬ IsBreak c

-- by the list: there are too many characters to go through all of them
instance : DecidablePred Unbroken :=
  fun cs => List.decidableBAll (fun c => ¬ IsBreak c) cs

/-- A text on one line. -/
def IsOneLine (s : String) : Prop :=
  Unbroken s.toList

instance : DecidablePred IsOneLine :=
  fun s => inferInstanceAs (Decidable (Unbroken s.toList))

theorem unbroken_append {cs ds : List Char} : Unbroken (cs ++ ds) ↔ Unbroken cs ∧ Unbroken ds := by
  simp [Unbroken, or_imp, forall_and]

theorem isOneLine_append {s t : String} : IsOneLine (s ++ t) ↔ IsOneLine s ∧ IsOneLine t := by
  simp [IsOneLine, unbroken_append]

namespace Quoted

theorem digitChar_not_isBreak : ∀ d < 16, ¬ IsBreak (Nat.digitChar d) := by decide

theorem digitChar_ne_brace : ∀ d < 16, (Nat.digitChar d != '\x7d') = true := by decide

theorem unbroken_digits (n : Nat) : Unbroken (Hex.digits n) := by
  intro c hc
  rcases Hex.mem_digits hc with ⟨d, hd, rfl⟩
  exact digitChar_not_isBreak d hd

theorem unbroken_escape (c : Char) : Unbroken (escape '"' c) := by
  unfold escape
  split_ifs with hnul htab hreturn hfeed hback hmark hhidden
  · decide
  · decide
  · decide
  · decide
  · decide
  · decide
  · have hfront : Unbroken (['\\', 'u', '\x7b'] ++ Hex.digits c.toNat) :=
      unbroken_append.2 ⟨by decide, unbroken_digits c.toNat⟩
    exact unbroken_append.2 ⟨hfront, by decide⟩
  · -- only a character that is no line break stands for itself
    intro d hd
    rw [List.mem_singleton.1 hd]
    exact fun hbreak => hbreak.elim hfeed hreturn

theorem isOneLine_text (s : String) : IsOneLine (text s) := by
  have hbody : Unbroken (s.toList.flatMap (escape '"')) := by
    intro d hd
    rcases List.mem_flatMap.1 hd with ⟨c, _, hc⟩
    exact unbroken_escape c d hc
  have hopened : Unbroken (['"'] ++ s.toList.flatMap (escape '"')) :=
    unbroken_append.2 ⟨by decide, hbody⟩
  have hquoted : Unbroken (['"'] ++ s.toList.flatMap (escape '"') ++ ['"']) :=
    unbroken_append.2 ⟨hopened, by decide⟩
  simpa [IsOneLine, text] using hquoted

/-- A quoted text stays on one line, and so does the word for an absent one. -/
theorem isOneLine_optional (value : Option String) : IsOneLine (optional value) := by
  cases value with
  | none => decide
  | some s =>
      have hopened : IsOneLine ("Some(" ++ text s) :=
        isOneLine_append.2 ⟨by decide, isOneLine_text s⟩
      exact isOneLine_append.2 ⟨hopened, by decide⟩

/-! ## Reading back -/

/-- The character whose number stands in front of a closing brace, and what follows the brace. -/
def readNumber (cs : List Char) : Option (Char × List Char) :=
  (Hex.valueFrom? 0 (cs.takeWhile (· != '\x7d'))).map fun n =>
    (Char.ofNat n, (cs.dropWhile (· != '\x7d')).tail)

/-- The character of an escape, behind the backslash, and what follows. -/
def readEscape : List Char → Option (Char × List Char)
  | '0' :: cs => some ('\x00', cs)
  | 't' :: cs => some ('\t', cs)
  | 'r' :: cs => some ('\r', cs)
  | 'n' :: cs => some ('\n', cs)
  | '\\' :: cs => some ('\\', cs)
  | '"' :: cs => some ('"', cs)
  | 'u' :: '\x7b' :: cs => readNumber cs
  | _ => none

/-- The next character of a text between double quotes, and what follows; there is none in front of
the closing quote. -/
def readChar : List Char → Option (Char × List Char)
  | [] => none
  | c :: cs =>
    if c = '\\' then readEscape cs
    else if c = '"' then none
    else some (c, cs)

theorem readChar_quote (tail : List Char) : readChar ('"' :: tail) = none := rfl

theorem readNumber_digits (c : Char) (tail : List Char) :
    readNumber (Hex.digits c.toNat ++ '\x7d' :: tail) = some (c, tail) := by
  have hdigits : ∀ d ∈ Hex.digits c.toNat, (d != '\x7d') = true := by
    intro d hd
    rcases Hex.mem_digits hd with ⟨digit, hlt, rfl⟩
    exact digitChar_ne_brace digit hlt
  have hfront : (Hex.digits c.toNat ++ '\x7d' :: tail).takeWhile (· != '\x7d')
      = Hex.digits c.toNat := by
    simp [List.takeWhile_append_of_pos hdigits]
  have hrest : (Hex.digits c.toNat ++ '\x7d' :: tail).dropWhile (· != '\x7d')
      = '\x7d' :: tail := by
    simp [List.dropWhile_append_of_pos hdigits]
  simp [readNumber, hfront, hrest, Hex.valueFrom?_digits]

/-- Each character is read back from its form. -/
theorem readChar_escape (c : Char) (tail : List Char) :
    readChar (escape '"' c ++ tail) = some (c, tail) := by
  unfold escape
  split_ifs with hnul htab hreturn hfeed hback hmark hhidden
  · simp [readChar, readEscape, hnul]
  · simp [readChar, readEscape, htab]
  · simp [readChar, readEscape, hreturn]
  · simp [readChar, readEscape, hfeed]
  · simp [readChar, readEscape, hback]
  · simp [readChar, readEscape, hmark]
  · simpa [readChar, readEscape] using readNumber_digits c tail
  · -- neither a backslash nor a quote
    simp [readChar, hback, hmark]

/-- What stands in front of the closing quote determines the text, and the text where it stands. -/
theorem flatMap_escape_inj {s t tail tail' : List Char}
    (h : s.flatMap (escape '"') ++ '"' :: tail = t.flatMap (escape '"') ++ '"' :: tail') :
    s = t ∧ tail = tail' := by
  -- both sides are read one character at a time, and only a closing quote is no character
  induction s generalizing t with
  | nil =>
      cases t with
      | nil => exact ⟨rfl, by simpa using h⟩
      | cons d t =>
          have hread := congrArg readChar h
          simp [readChar_escape, readChar_quote] at hread
  | cons c s ih =>
      cases t with
      | nil =>
          have hread := congrArg readChar h
          simp [readChar_escape, readChar_quote] at hread
      | cons d t =>
          have hread := congrArg readChar h
          simp only [List.flatMap_cons, List.append_assoc, readChar_escape, Option.some.injEq,
            Prod.mk.injEq] at hread
          rcases hread with ⟨rfl, hrest⟩
          rcases ih hrest with ⟨rfl, htail⟩
          exact ⟨rfl, htail⟩

theorem text_injective : Function.Injective text := by
  intro s t h
  have hlists : s.toList.flatMap (escape '"') ++ ['"'] = t.toList.flatMap (escape '"') ++ ['"'] := by
    simpa [text] using congrArg String.toList h
  exact String.toList_inj.1 (flatMap_escape_inj hlists).1

/-- An absent text differs from every text, and texts differ from each other. -/
theorem optional_injective : Function.Injective optional := by
  intro value value' h
  have hlists := congrArg String.toList h
  cases value with
  | none =>
      cases value' with
      | none => rfl
      | some t => simp [optional] at hlists
  | some s =>
      cases value' with
      | none => simp [optional] at hlists
      | some t =>
          have htext : text s = text t := by simpa [optional] using h
          rw [text_injective htext]

end Quoted

end GreetingService.Text
