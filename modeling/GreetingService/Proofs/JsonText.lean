import GreetingService.Json.Value
import Mathlib.Tactic

/-!
# Written texts are read back

Inside a document a text is a sequence of UTF-8 bytes between quotes. The reader goes over them byte
by byte, while the writer works on characters; the two meet here. A character that is written as
itself has only bytes that stand for themselves, and an escape is undone in one round of the reader.
Hence a quoted text is read up to its own closing quote, whatever follows.
-/

namespace GreetingService.Text

/-- The UTF-8 form of a list of characters. -/
def encode (cs : List Char) : List UInt8 :=
  cs.flatMap String.utf8EncodeChar

@[simp]
theorem encode_nil : encode [] = [] := rfl

@[simp]
theorem encode_cons (c : Char) (cs : List Char) :
    encode (c :: cs) = String.utf8EncodeChar c ++ encode cs := by
  simp [encode]

@[simp]
theorem encode_append (cs ds : List Char) : encode (cs ++ ds) = encode cs ++ encode ds := by
  simp [encode]

theorem bytes_ofList (cs : List Char) : bytes (String.ofList cs) = encode cs := by
  simp [bytes, encode, List.utf8Encode]

theorem bytes_eq_encode (s : String) : bytes s = encode s.toList := by
  rw [← bytes_ofList, String.ofList_toList]

theorem bytes_append (s t : String) : bytes (s ++ t) = bytes s ++ bytes t := by
  simp [bytes_eq_encode]

theorem utf8EncodeChar_of_lt {c : Char} (h : c.toNat < 128) :
    String.utf8EncodeChar c = [UInt8.ofNat c.toNat] := by
  have hle : c.val.toNat ≤ 127 := Nat.le_of_lt_succ h
  rw [String.utf8EncodeChar, if_pos hle]
  rfl

/-- Characters outside ASCII take only bytes with the high bit set. -/
theorem le_of_mem_utf8EncodeChar {c : Char} (h : 128 ≤ c.toNat) {b : UInt8}
    (hb : b ∈ String.utf8EncodeChar c) : 128 ≤ b.toNat := by
  have hc : ¬ c.val.toNat ≤ 127 := Nat.not_le_of_lt h
  rw [String.utf8EncodeChar, if_neg hc] at hb
  split at hb
  · simp only [List.mem_cons, List.not_mem_nil, or_false] at hb
    rcases hb with rfl | rfl <;> simp <;> omega
  · split at hb
    · simp only [List.mem_cons, List.not_mem_nil, or_false] at hb
      rcases hb with rfl | rfl | rfl <;> simp <;> omega
    · simp only [List.mem_cons, List.not_mem_nil, or_false] at hb
      rcases hb with rfl | rfl | rfl | rfl <;> simp <;> omega

end GreetingService.Text

namespace GreetingService.Json

open Text (encode)

/-! ## Reading back what was quoted -/

/-- Bytes that stand for themselves inside a text. -/
def IsPlain (b : UInt8) : Prop :=
  b ≠ Byte.quote ∧ b ≠ Byte.backslash ∧ ¬ b < 32

theorem readContent_plain {bs : Bytes} (h : ∀ b ∈ bs, IsPlain b) :
    ∀ {bound : Bytes} (seen tail : Bytes), bs.length ≤ bound.length →
      readContent bound seen (bs ++ tail)
        = readContent (bound.drop bs.length) (bs.reverse ++ seen) tail := by
  induction bs with
  | nil =>
      intro bound seen tail _
      rfl
  | cons b bs ih =>
      intro bound seen tail hlen
      have hb : IsPlain b := h b (by simp)
      have hbs : ∀ x ∈ bs, IsPlain x := fun x hx => h x (by simp [hx])
      cases bound with
      | nil => simp at hlen
      | cons _ bound =>
          have hlen' : bs.length ≤ bound.length := by simpa using hlen
          simp only [List.cons_append, readContent, if_neg hb.1, if_neg hb.2.1, if_neg hb.2.2]
          simpa using ih hbs (b :: seen) tail hlen'

theorem readContent_escape {e tail : Bytes} {c : Char} (h : readEscape (e ++ tail) = .ok (c, tail))
    (x : UInt8) (bound seen : Bytes) :
    readContent (x :: bound) seen (Byte.backslash :: e ++ tail)
      = readContent bound ((String.utf8EncodeChar c).reverse ++ seen) tail := by
  rw [List.cons_append, readContent, if_neg (by decide), if_pos rfl, h]

theorem isPlain_of_mem_utf8EncodeChar {c : Char} (hquote : c ≠ '"') (hback : c ≠ '\\')
    (hcontrol : ¬ c.toNat < 32) {b : UInt8} (hb : b ∈ String.utf8EncodeChar c) : IsPlain b := by
  by_cases h : c.toNat < 128
  · -- the only byte is the character itself
    rw [Text.utf8EncodeChar_of_lt h, List.mem_singleton] at hb
    have hval : b.toNat = c.toNat := by
      rw [hb, UInt8.toNat_ofNat']
      omega
    refine ⟨?_, ?_, ?_⟩
    · rintro rfl
      exact hquote (Char.toNat_inj.1 hval.symm)
    · rintro rfl
      exact hback (Char.toNat_inj.1 hval.symm)
    · intro hlt
      rw [UInt8.lt_iff_toNat_lt, hval] at hlt
      exact hcontrol hlt
  · have hhigh : 128 ≤ b.toNat := Text.le_of_mem_utf8EncodeChar (by omega) hb
    refine ⟨?_, ?_, ?_⟩
    · rintro rfl
      exact absurd hhigh (by decide)
    · rintro rfl
      exact absurd hhigh (by decide)
    · intro hlt
      rw [UInt8.lt_iff_toNat_lt] at hlt
      exact absurd (Nat.lt_of_le_of_lt hhigh hlt) (by decide)

/-- The four digits of a control character are read as its number. -/
theorem valueFrom?_padded : ∀ n < 32,
    (encode (Text.Hex.padded 4 n)).length = 4 ∧
      Text.Hex.valueFrom? 0 ((encode (Text.Hex.padded 4 n)).map fun x => Char.ofNat x.toNat)
        = some n := by
  decide

theorem readHex_padded {n : Nat} (h : n < 32) (tail : Bytes) :
    readHex (encode (Text.Hex.padded 4 n) ++ tail) = .ok (n, tail) := by
  rcases valueFrom?_padded n h with ⟨hlen, hval⟩
  generalize encode (Text.Hex.padded 4 n) = ds at hlen hval
  match ds, hlen with
  | [a, b, c, d], _ =>
      simp only [List.cons_append, List.nil_append, readHex, hval]

theorem readEscape_padded {c : Char} (h : c.toNat < 32) (tail : Bytes) :
    readEscape (Byte.lowerU :: encode (Text.Hex.padded 4 c.toNat) ++ tail) = .ok (c, tail) := by
  have hlow : ¬ (0xDC00 ≤ c.toNat ∧ c.toNat ≤ 0xDFFF) := by omega
  have hhigh : ¬ (0xD800 ≤ c.toNat ∧ c.toNat ≤ 0xDBFF) := by omega
  rw [List.cons_append, readEscape, if_pos rfl, readCodePoint, readHex_padded h]
  simp [bind, Except.bind, hlow, hhigh]

/-- An escape takes one round, whatever its length. -/
theorem exists_readContent_escape {e tail : Bytes} {c : Char}
    (h : readEscape (e ++ tail) = .ok (c, tail)) {bound : Bytes} (seen : Bytes)
    (hlen : (Byte.backslash :: e).length ≤ bound.length) :
    ∃ bound' : Bytes,
      bound.length ≤ bound'.length + (Byte.backslash :: e).length ∧
        readContent bound seen (Byte.backslash :: e ++ tail)
          = readContent bound' ((String.utf8EncodeChar c).reverse ++ seen) tail := by
  cases bound with
  | nil => simp at hlen
  | cons x bound =>
      refine ⟨bound, ?_, readContent_escape h x bound seen⟩
      simp

/-- The written form of a character is read back as that character, in at most as many rounds as it
has bytes. -/
theorem exists_readContent_escapeChar (c : Char) {bound : Bytes} (seen tail : Bytes)
    (hlen : (encode (escapeChar c)).length ≤ bound.length) :
    ∃ bound' : Bytes,
      bound.length ≤ bound'.length + (encode (escapeChar c)).length ∧
        readContent bound seen (encode (escapeChar c) ++ tail)
          = readContent bound' ((String.utf8EncodeChar c).reverse ++ seen) tail := by
  -- an escape of one letter, an escape by number, or the bytes of the character itself
  by_cases hplain : c = '"' ∨ c = '\\' ∨ c = '\x08' ∨ c = '\t' ∨ c = '\n' ∨ c = '\x0c' ∨ c = '\r'
  · rcases hplain with rfl | rfl | rfl | rfl | rfl | rfl | rfl
    · exact exists_readContent_escape (e := [Byte.quote]) rfl seen hlen
    · exact exists_readContent_escape (e := [Byte.backslash]) rfl seen hlen
    · exact exists_readContent_escape (e := [Byte.lowerB]) rfl seen hlen
    · exact exists_readContent_escape (e := [Byte.lowerT]) rfl seen hlen
    · exact exists_readContent_escape (e := [Byte.lowerN]) rfl seen hlen
    · exact exists_readContent_escape (e := [Byte.lowerF]) rfl seen hlen
    · exact exists_readContent_escape (e := [Byte.lowerR]) rfl seen hlen
  · simp only [not_or] at hplain
    rcases hplain with ⟨hquote, hback, h8, h9, h10, h12, h13⟩
    by_cases hcontrol : c.toNat < 32
    · have he : encode (escapeChar c)
          = Byte.backslash :: Byte.lowerU :: encode (Text.Hex.padded 4 c.toNat) := by
        simp only [escapeChar, hquote, hback, h8, h9, h10, h12, h13, hcontrol, if_false, if_true]
        rw [Text.encode_append]
        rfl
      rw [he] at hlen ⊢
      exact exists_readContent_escape (readEscape_padded hcontrol tail) seen hlen
    · have he : encode (escapeChar c) = String.utf8EncodeChar c := by
        simp [escapeChar, hquote, hback, h8, h9, h10, h12, h13, hcontrol]
      rw [he] at hlen ⊢
      refine ⟨bound.drop (String.utf8EncodeChar c).length, ?_, ?_⟩
      · rw [List.length_drop]
        omega
      · have hbytes : ∀ b ∈ String.utf8EncodeChar c, IsPlain b := fun b hb =>
          isPlain_of_mem_utf8EncodeChar hquote hback hcontrol hb
        exact readContent_plain hbytes seen tail hlen

theorem readContent_written (cs : List Char) (rest : Bytes) :
    ∀ {bound : Bytes} (seen : Bytes), (encode (cs.flatMap escapeChar)).length < bound.length →
      readContent bound seen (encode (cs.flatMap escapeChar) ++ Byte.quote :: rest)
        = .ok (seen.reverse ++ encode cs, rest) := by
  -- every character leaves enough rounds for those behind it
  induction cs with
  | nil =>
      intro bound seen hlen
      cases bound with
      | nil => simp at hlen
      | cons _ bound => simp [readContent]
  | cons c cs ih =>
      intro bound seen hlen
      rw [List.flatMap_cons, Text.encode_append, List.length_append] at hlen
      rw [List.flatMap_cons, Text.encode_append, List.append_assoc]
      rcases exists_readContent_escapeChar c seen
          (encode (cs.flatMap escapeChar) ++ Byte.quote :: rest) (by omega : _ ≤ bound.length) with
        ⟨bound', hbound, hread⟩
      rw [hread, ih _ (by omega)]
      simp

/-- The bytes of a quoted text, without the quotes. -/
def quotedBytes (s : String) : Bytes :=
  encode (s.toList.flatMap escapeChar)

theorem bytes_quote (s : String) :
    Text.bytes (quote s) = Byte.quote :: quotedBytes s ++ [Byte.quote] := by
  rw [quote, Text.bytes_ofList, List.cons_append, Text.encode_cons, Text.encode_append]
  rfl

/-- What was quoted is read back up to its closing quote, whatever follows. -/
theorem readText_quoted (s : String) (rest : Bytes) :
    readText (quotedBytes s ++ Byte.quote :: rest) = .ok (s, rest) := by
  have hread : readContent (quotedBytes s ++ Byte.quote :: rest) []
      (quotedBytes s ++ Byte.quote :: rest) = .ok (Text.bytes s, rest) := by
    rw [Text.bytes_eq_encode]
    refine readContent_written s.toList rest [] ?_
    simp [quotedBytes]
  simp [readText, hread, bind, Except.bind, Text.ofBytes?_bytes]

theorem le_of_all {cs : List Char} (h : cs.all (fun c => 32 ≤ c.toNat) = true) {c : Char}
    (hc : c ∈ cs) : 32 ≤ c.toNat :=
  of_decide_eq_true (List.all_eq_true.1 h c hc)

theorem all_padded : ∀ n < 32,
    (Text.Hex.padded 4 n).all (fun c => 32 ≤ c.toNat) = true := by
  decide

theorem le_of_mem_escapeChar {c d : Char} (h : d ∈ escapeChar c) : 32 ≤ d.toNat := by
  by_cases hplain : c = '"' ∨ c = '\\' ∨ c = '\x08' ∨ c = '\t' ∨ c = '\n' ∨ c = '\x0c' ∨ c = '\r'
  · rcases hplain with rfl | rfl | rfl | rfl | rfl | rfl | rfl <;> exact le_of_all (by decide) h
  · simp only [not_or] at hplain
    rcases hplain with ⟨hquote, hback, h8, h9, h10, h12, h13⟩
    simp only [escapeChar, hquote, hback, h8, h9, h10, h12, h13, if_false] at h
    split at h
    · rename_i hcontrol
      rcases List.mem_append.1 h with hmark | hdigit
      · exact le_of_all (by decide) hmark
      · exact le_of_all (all_padded _ hcontrol) hdigit
    · rename_i hcontrol
      rw [List.mem_singleton] at h
      rw [h]
      omega

/-- A quoted text has no control characters, and so no line break. -/
theorem le_of_mem_quote {s : String} {c : Char} (h : c ∈ (quote s).toList) : 32 ≤ c.toNat := by
  rw [quote, String.toList_ofList] at h
  rcases List.mem_append.1 h with hfront | hend
  · rcases List.mem_cons.1 hfront with rfl | hbody
    · decide
    · rcases List.mem_flatMap.1 hbody with ⟨d, _, hd⟩
      exact le_of_mem_escapeChar hd
  · rw [List.mem_singleton] at hend
    rw [hend]
    decide

theorem readValue_quoted (s : String) (rest : Bytes) (depth : Nat) :
    readValue (depth + 1) (Byte.quote :: quotedBytes s ++ Byte.quote :: rest)
      = .ok (.text s, rest) := by
  have hskip : skipBlanks (Byte.quote :: (quotedBytes s ++ Byte.quote :: rest))
      = Byte.quote :: (quotedBytes s ++ Byte.quote :: rest) := rfl
  rw [List.cons_append, readValue, hskip]
  simp only [readScalar]
  rw [readText_quoted]
  rfl

end GreetingService.Json
