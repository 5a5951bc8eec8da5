import GreetingService.Json.Skim
import GreetingService.Proofs.Results
import Mathlib.Tactic

/-!
# Skimming follows reading

Whatever can be read as a value can be skimmed, and skimming stops where reading does. Conversely a
value that can be skimmed is refused by the reader for five causes only: its brackets are nested too
deep, a number is out of range, a text has half a surrogate pair, or it is not well-formed.

The reader goes down into brackets by recursion, the skimmer keeps a list of those that are open.
To compare them, skimming is continued from where a reader has stopped.
-/

namespace GreetingService.Json

open Results

/-- The causes for which a value is refused although it can be skimmed. -/
inductive Cause.IsStrict : Cause → Prop where
  | nestingLimit : IsStrict .nestingLimit
  | numberOutOfRange : IsStrict .numberOutOfRange
  | loneSurrogate : IsStrict .loneSurrogate
  | endOfHexEscape : IsStrict .endOfHexEscape
  | invalidCodePoint : IsStrict .invalidCodePoint

/-- Skimming follows a reader: behind what was read it goes on with `next`. Where the reader refuses,
skimming does so too, sooner or later, unless the cause is a strict one. -/
def Follows {γ : Type} (skim : Except Fault Bytes) (next : γ → Except Fault Bytes) :
    Except Fault γ → Prop
  | .ok c => skim = next c
  | .error fault => fault.cause.IsStrict ∨ ∃ other, skim = .error other

section Follows

variable {γ δ : Type} {skim : Except Fault Bytes} {next : γ → Except Fault Bytes}
  {read : Except Fault γ}

theorem Follows.bind {mid : γ → Except Fault Bytes} {next : δ → Except Fault Bytes}
    {f : γ → Except Fault δ} (h : Follows skim mid read)
    (hf : ∀ c, read = .ok c → Follows (mid c) next (f c)) : Follows skim next (read >>= f) := by
  cases read with
  | error fault => exact h
  | ok c =>
      have hskim : skim = mid c := h
      rw [hskim]
      exact hf c rfl

theorem follows_map_iff {next : δ → Except Fault Bytes} {f : γ → δ} :
    Follows skim next (read.map f) ↔ Follows skim (fun c => next (f c)) read := by
  cases read <;> exact Iff.rfl

/-- What is skimmed afterwards goes on from the same place. -/
theorem Follows.continued (h : Follows skim next read) (k : Bytes → Except Fault Bytes) :
    Follows (skim >>= k) (fun c => next c >>= k) read := by
  cases read with
  | error fault =>
      rcases h with hstrict | ⟨other, hskim⟩
      · exact .inl hstrict
      · exact .inr ⟨other, by rw [hskim]; rfl⟩
  | ok c =>
      have hskim : skim = next c := h
      show (skim >>= k) = (next c >>= k)
      rw [hskim]

theorem follows_self (read : Except Fault Bytes) : Follows read .ok read := by
  cases read with
  | error fault => exact .inr ⟨fault, rfl⟩
  | ok rest => exact rfl

theorem Follows.of_strict {fault : Fault} (h : fault.cause.IsStrict) :
    Follows skim next (.error fault) :=
  .inl h

theorem Follows.of_error {fault other : Fault} (h : skim = .error other) :
    Follows skim next (.error fault) :=
  .inr ⟨other, h⟩

end Follows

/-! ## Texts -/

theorem length_le_of_readHex {bs rest : Bytes} {n : Nat} (h : readHex bs = .ok (n, rest)) :
    rest.length ≤ bs.length := by
  unfold readHex at h
  split at h
  · split at h
    · cases h
      simp only [List.length_cons]
      omega
    · cases h
  · cases h

theorem length_lt_of_readPairMark {b : UInt8} {bs rest : Bytes}
    (h : readPairMark b bs = .ok rest) : rest.length < bs.length := by
  cases bs with
  | nil => cases h
  | cons x bs =>
      rw [readPairMark] at h
      split at h
      · cases h
        simp
      · cases h

theorem length_le_of_readCodePoint {bs rest : Bytes} {c : Char}
    (h : readCodePoint bs = .ok (c, rest)) : rest.length ≤ bs.length := by
  unfold readCodePoint at h
  rcases bind_eq_ok_iff.1 h with ⟨⟨n, first⟩, hfirst, h⟩
  have hle := length_le_of_readHex hfirst
  dsimp only at h
  split at h
  · cases h
  · split at h
    · rcases bind_eq_ok_iff.1 h with ⟨second, hsecond, h⟩
      rcases bind_eq_ok_iff.1 h with ⟨third, hthird, h⟩
      rcases bind_eq_ok_iff.1 h with ⟨⟨m, fourth⟩, hfourth, h⟩
      have hsecond' := length_lt_of_readPairMark hsecond
      have hthird' := length_lt_of_readPairMark hthird
      have hfourth' := length_le_of_readHex hfourth
      dsimp only at h
      split at h
      · rw [← (Prod.mk.inj (Except.ok.inj h)).2]
        omega
      · cases h
    · cases h
      exact hle

theorem length_lt_of_readEscape {bs rest : Bytes} {c : Char}
    (h : readEscape bs = .ok (c, rest)) : rest.length < bs.length := by
  cases bs with
  | nil => cases h
  | cons b bs =>
      rw [readEscape] at h
      rw [List.length_cons, Nat.lt_succ_iff]
      split at h
      · exact length_le_of_readCodePoint h
      · split at h
        · cases h
          exact Nat.le_refl _
        · cases h

theorem length_lt_of_skimEscape {bs rest : Bytes} (h : skimEscape bs = .ok rest) :
    rest.length < bs.length := by
  cases bs with
  | nil => cases h
  | cons b bs =>
      rw [skimEscape] at h
      rw [List.length_cons, Nat.lt_succ_iff]
      split at h
      · rcases map_eq_ok_iff.1 h with ⟨⟨n, rest⟩, hhex, rfl⟩
        exact length_le_of_readHex hhex
      · split at h
        · cases h
          exact Nat.le_refl _
        · cases h

/-- Rounds that are not needed do not count. -/
theorem skimContent_eq_skimText {bound bs : Bytes} (h : bs.length ≤ bound.length) :
    skimContent bound bs = skimText bs := by
  suffices hbounds : ∀ {n : Nat} {bound bound' bs : Bytes}, bs.length ≤ n → n ≤ bound.length →
      n ≤ bound'.length → skimContent bound bs = skimContent bound' bs from
    hbounds (Nat.le_refl _) h (Nat.le_refl _)
  -- every round passes a byte, so both bounds outlast the bytes
  intro n
  induction n with
  | zero =>
      intro bound bound' bs hbs _ _
      rw [List.eq_nil_of_length_eq_zero (Nat.le_zero.1 hbs)]
      cases bound <;> cases bound' <;> rfl
  | succ n ih =>
      intro bound bound' bs hbs hbound hbound'
      match bound, bound', bs with
      | _ :: bound, _ :: bound', [] => rfl
      | _ :: bound, _ :: bound', b :: bs =>
          simp only [List.length_cons, Nat.add_le_add_iff_right] at hbs hbound hbound'
          rw [skimContent, skimContent]
          cases hescape : skimEscape bs with
          | error fault => rw [ih hbs hbound hbound']
          | ok rest =>
              have hrest := length_lt_of_skimEscape hescape
              rw [ih hbs hbound hbound']
              simp only [ih (by omega : rest.length ≤ n) hbound hbound']

theorem skimText_cons (b : UInt8) (bs : Bytes) :
    skimText (b :: bs) =
      if b = Byte.quote then .ok bs
      else if b = Byte.backslash then skimEscape bs >>= skimText
      else if b < 32 then refuseBefore (b :: bs) .controlCharacter
      else skimText bs := by
  rw [skimText, skimContent]
  cases hescape : skimEscape bs with
  | error fault =>
      rw [skimContent_eq_skimText (Nat.le_refl _)]
      rfl
  | ok rest =>
      have hrest := length_lt_of_skimEscape hescape
      rw [skimContent_eq_skimText (Nat.le_refl _)]
      simp only [skimContent_eq_skimText hrest.le]
      rfl

theorem length_lt_of_skimText {bs rest : Bytes} (h : skimText bs = .ok rest) :
    rest.length < bs.length := by
  induction hn : bs.length using Nat.strong_induction_on generalizing bs with
  | _ n ih =>
      subst hn
      cases bs with
      | nil => cases h
      | cons b bs =>
          rw [skimText_cons] at h
          rw [List.length_cons] at ih ⊢
          split at h
          · cases h
            omega
          · split at h
            · rcases bind_eq_ok_iff.1 h with ⟨mid, hescape, h⟩
              have hmid := length_lt_of_skimEscape hescape
              have hrest := ih mid.length (by omega) h rfl
              omega
            · split at h
              · cases h
              · have hrest := ih bs.length (by omega) h rfl
                omega

/-- The second half of a surrogate pair is an escape of its own to the skimmer. -/
theorem follows_readCodePoint (bs : Bytes) :
    Follows ((readHex bs).map (·.2) >>= skimText) (fun p => skimText p.2) (readCodePoint bs) := by
  have hhex : ∀ bs, Follows ((readHex bs).map (·.2) >>= skimText) (fun p => skimText p.2)
      (readHex bs) := by
    intro bs
    cases readHex bs with
    | error fault => exact .of_error rfl
    | ok p => exact rfl
  refine (hhex bs).bind ?_
  rintro ⟨n, rest⟩ _
  dsimp only
  split
  · exact .of_strict .loneSurrogate
  · split
    · -- the reader asks for the marks of a second escape, the skimmer finds out in its own time
      cases rest with
      | nil => exact .of_error rfl
      | cons x rest =>
          by_cases hx : x = Byte.backslash
          · subst hx
            rw [readPairMark, if_pos rfl, skimText_cons, if_neg (by decide), if_pos rfl]
            cases rest with
            | nil => exact .of_error rfl
            | cons y rest =>
                by_cases hy : y = Byte.lowerU
                · subst hy
                  rw [skimEscape, if_pos rfl]
                  refine (hhex rest).bind ?_
                  rintro ⟨m, rest⟩ _
                  dsimp only
                  split
                  · exact rfl
                  · exact .of_strict .loneSurrogate
                · have hmark : readPairMark Byte.lowerU (y :: rest)
                      = refuseBefore rest .endOfHexEscape := if_neg hy
                  simp only [Except.bind, bind, hmark]
                  exact .of_strict .endOfHexEscape
          · have hmark : readPairMark Byte.backslash (x :: rest)
                = refuseBefore rest .endOfHexEscape := if_neg hx
            rw [hmark]
            exact .of_strict .endOfHexEscape
    · exact rfl

theorem follows_readEscape (bs : Bytes) :
    Follows (skimEscape bs >>= skimText) (fun p => skimText p.2) (readEscape bs) := by
  cases bs with
  | nil => exact .of_error rfl
  | cons b bs =>
      rw [skimEscape, readEscape]
      by_cases hb : b = Byte.lowerU
      · rw [if_pos hb, if_pos hb]
        exact follows_readCodePoint bs
      · rw [if_neg hb, if_neg hb]
        cases plainEscape? b with
        | none => exact .of_error rfl
        | some c => exact rfl

theorem follows_readContent {bound bs : Bytes} (h : bs.length ≤ bound.length) (seen : Bytes) :
    Follows (skimText bs) (fun p => .ok p.2) (readContent bound seen bs) := by
  induction bound generalizing bs seen with
  | nil =>
      rw [List.eq_nil_of_length_eq_zero (Nat.le_zero.1 h)]
      exact .of_error rfl
  | cons x bound ih =>
      cases bs with
      | nil => exact .of_error rfl
      | cons b bs =>
          have hle : bs.length ≤ bound.length := by simpa using h
          rw [skimText_cons, readContent]
          split
          · exact rfl
          · split
            · -- one escape, and what is behind it
              have hescape := follows_readEscape bs
              cases hread : readEscape bs with
              | error fault =>
                  rw [hread] at hescape
                  exact hescape
              | ok p =>
                  rcases p with ⟨c, rest⟩
                  have hlt := length_lt_of_readEscape hread
                  rw [hread] at hescape
                  rw [show (skimEscape bs >>= skimText) = skimText rest from hescape]
                  exact ih (by omega) _
            · split
              · exact .of_error rfl
              · exact ih hle _

theorem follows_readText (bs : Bytes) :
    Follows (skimText bs) (fun p => .ok p.2) (readText bs) := by
  refine (follows_readContent (Nat.le_refl _) []).bind ?_
  rintro ⟨content, rest⟩ _
  dsimp only
  split
  · exact rfl
  · exact .of_strict .invalidCodePoint

/-! ## Numbers -/

namespace Numeral

/-! The cause of a refusal at the end of the document has no part in what is scanned. -/

theorem toOption_scanWhole (cause cause' : Cause) (bs : Bytes) :
    (scanWhole cause bs).toOption = (scanWhole cause' bs).toOption := by
  cases bs <;> rfl

theorem toOption_scanFraction (cause cause' : Cause) (bs : Bytes) :
    (scanFraction cause bs).toOption = (scanFraction cause' bs).toOption := by
  cases bs with
  | nil => rfl
  | cons b bs =>
      simp only [scanFraction]
      split
      · split <;> rfl
      · rfl

theorem toOption_scanExponent (cause cause' : Cause) (bs : Bytes) :
    (scanExponent cause bs).toOption = (scanExponent cause' bs).toOption := by
  cases bs with
  | nil => rfl
  | cons b bs =>
      simp only [scanExponent]
      split
      · split <;> rfl
      · rfl

theorem toOption_scan (cause cause' : Cause) (bs : Bytes) :
    (scan cause bs).toOption = (scan cause' bs).toOption := by
  unfold scan
  refine toOption_bind_congr (toOption_scanWhole cause cause' _) fun whole => ?_
  refine toOption_bind_congr (toOption_scanFraction cause cause' _) fun fraction => ?_
  exact toOption_bind_congr (toOption_scanExponent cause cause' _) fun exponent => rfl

theorem length_spanDigits_le (bs : Bytes) : (spanDigits bs).2.length ≤ bs.length :=
  (List.dropWhile_suffix _).length_le

theorem length_scanSign_le (bs : Bytes) : (scanSign bs).2.length ≤ bs.length := by
  unfold scanSign
  split
  · exact Nat.le_refl _
  · split
    · exact Nat.le_succ _
    · split
      · exact Nat.le_succ _
      · exact Nat.le_refl _

theorem length_lt_of_scanWhole {cause : Cause} {bs rest digits : Bytes}
    (h : scanWhole cause bs = .ok (digits, rest)) : rest.length < bs.length := by
  unfold scanWhole at h
  split at h
  · cases h
  · rename_i b bs
    split at h
    · split at h
      · cases h
        simp
      · split at h
        · cases h
        · cases h
          simp
    · split at h
      · cases h
        exact Nat.lt_succ_of_le (length_spanDigits_le bs)
      · cases h

theorem length_le_of_scanFraction {cause : Cause} {bs rest : Bytes} {digits : Option Bytes}
    (h : scanFraction cause bs = .ok (digits, rest)) : rest.length ≤ bs.length := by
  unfold scanFraction at h
  split at h
  · cases h
    exact Nat.le_refl _
  · rename_i b bs
    split at h
    · have hle := length_spanDigits_le bs
      split at h
      · cases h
      · cases h
      · rename_i hdigits
        rw [hdigits] at hle
        cases h
        exact Nat.le_succ_of_le hle
    · cases h
      exact Nat.le_refl _

theorem length_le_of_scanExponent {cause : Cause} {bs rest : Bytes}
    {exponent : Option (Bool × Bytes)} (h : scanExponent cause bs = .ok (exponent, rest)) :
    rest.length ≤ bs.length := by
  unfold scanExponent at h
  split at h
  · cases h
    exact Nat.le_refl _
  · rename_i b bs
    split at h
    · have hsign := length_scanSign_le bs
      split at h
      · cases h
      · rename_i below d after hafter
        rw [hafter] at hsign
        split at h
        · cases h
          have hspan := length_spanDigits_le after
          simp only [List.length_cons] at hsign ⊢
          omega
        · cases h
    · cases h
      exact Nat.le_refl _

theorem length_lt_of_scan {cause : Cause} {bs rest : Bytes} {n : Numeral}
    (h : scan cause bs = .ok (n, rest)) : rest.length < bs.length := by
  unfold scan at h
  rcases bind_eq_ok_iff.1 h with ⟨⟨whole, first⟩, hwhole, h⟩
  rcases bind_eq_ok_iff.1 h with ⟨⟨fraction, second⟩, hfraction, h⟩
  rcases bind_eq_ok_iff.1 h with ⟨⟨exponent, third⟩, hexponent, h⟩
  cases h
  -- at least one digit of the whole part is passed
  have hfirst := length_lt_of_scanWhole hwhole
  have hsecond := length_le_of_scanFraction hfraction
  have hthird := length_le_of_scanExponent hexponent
  have hbs : (if bs.head? == some Byte.minus then bs.drop 1 else bs).length ≤ bs.length := by
    split
    · exact (List.drop_suffix 1 bs).length_le
    · exact Nat.le_refl _
  omega

theorem isStrict_of_magnitude {n : Numeral} {rest : Bytes} {fault : Fault}
    (h : n.magnitude rest = .error fault) : fault.cause.IsStrict := by
  unfold magnitude at h
  dsimp only at h
  split at h
  · split at h
    · cases h
    · cases h
      exact .numberOutOfRange
  · split at h
    · split at h
      · cases h
      · cases h
        exact .numberOutOfRange
    · split at h
      · cases h
        exact .numberOutOfRange
      · cases h

theorem isStrict_of_number {n : Numeral} {rest : Bytes} {fault : Fault}
    (h : n.number rest = .error fault) : fault.cause.IsStrict := by
  unfold number at h
  split at h
  · cases h
  · cases hmagnitude : n.magnitude rest with
    | error fault' =>
        rw [hmagnitude] at h
        cases h
        exact isStrict_of_magnitude hmagnitude
    | ok x =>
        rw [hmagnitude] at h
        cases h

end Numeral

theorem follows_readNumber (bs : Bytes) :
    Follows (skimNumber bs) (fun p => .ok p.2) (readNumber bs) := by
  have hscan := Numeral.toOption_scan .endOfValue .invalidNumber bs
  unfold readNumber skimNumber
  cases hread : Numeral.scan .endOfValue bs with
  | error fault =>
      rw [hread] at hscan
      cases hskim : Numeral.scan .invalidNumber bs with
      | error other => exact .of_error rfl
      | ok p =>
          rw [hskim] at hscan
          cases hscan
  | ok p =>
      rcases p with ⟨n, rest⟩
      rw [hread] at hscan
      have hskim : Numeral.scan .invalidNumber bs = .ok (n, rest) :=
        toOption_eq_some_iff.1 hscan.symm
      rw [hskim]
      cases hnumber : n.number rest with
      | error fault =>
          simp only [bind, Except.bind, hnumber]
          exact .of_strict (Numeral.isStrict_of_number hnumber)
      | ok value =>
          simp only [bind, Except.bind, hnumber]
          exact rfl

/-! ## Values without brackets -/

theorem follows_readScalar (b : UInt8) (rest : Bytes) :
    Follows (skimScalar b rest) (fun p => .ok p.2) (readScalar b rest) := by
  unfold skimScalar readScalar
  split
  · exact follows_map_iff.2 (follows_self _)
  · split
    · exact follows_map_iff.2 (follows_self _)
    · split
      · exact follows_map_iff.2 (follows_self _)
      · split
        · exact follows_map_iff.2 (follows_readText rest)
        · split
          · exact follows_map_iff.2 (follows_readNumber (b :: rest))
          · exact .of_error rfl

theorem length_le_of_readName {name bs rest : Bytes} (h : readName name bs = .ok rest) :
    rest.length ≤ bs.length := by
  induction name generalizing bs with
  | nil =>
      cases h
      exact Nat.le_refl _
  | cons n name ih =>
      cases bs with
      | nil => cases h
      | cons b bs =>
          rw [readName] at h
          split at h
          · exact Nat.le_succ_of_le (ih h)
          · cases h

theorem length_le_of_skimScalar {b : UInt8} {bs rest : Bytes} (h : skimScalar b bs = .ok rest) :
    rest.length ≤ bs.length := by
  unfold skimScalar at h
  split at h
  · exact length_le_of_readName h
  · split at h
    · exact length_le_of_readName h
    · split at h
      · exact length_le_of_readName h
      · split at h
        · exact (length_lt_of_skimText h).le
        · split at h
          · rcases map_eq_ok_iff.1 h with ⟨⟨n, rest⟩, hscan, rfl⟩
            exact Nat.le_of_lt_succ (Numeral.length_lt_of_scan hscan)
          · cases h

end GreetingService.Json
