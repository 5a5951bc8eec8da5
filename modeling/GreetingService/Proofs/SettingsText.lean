import GreetingService.Proofs.TextParts
import GreetingService.Settings.Reader
import GreetingService.Settings.Writer

/-!
# Reading written texts

What the reader of settings makes of a name, a key or a value as the writer leaves it. Two of the
escapes are written but not read, blanks at the ends are lost, and a quote in front of a value takes
the reader to a scope that does not end with the line. `reread?` says what becomes of a value, and
that it comes to nothing only if such a quote is never closed.
-/

namespace GreetingService
namespace Settings

/-! ## Runs of the reader -/

/-- Wherever it stands, the reader comes from one mode to another through a text, and completes the
given items on its way. -/
def Mode.Leads (mode : Mode) (cs : List Char) (mode' : Mode) (items : List Item) : Prop :=
  ∀ place before, ∃ place', cs.foldlM Reader.next ⟨place, mode, before⟩
    = .ok ⟨place', mode', items.reverse ++ before⟩

namespace Mode.Leads

variable {mode mode' mode'' : Mode} {cs cs' : List Char} {items items' : List Item}

theorem nil (mode : Mode) : mode.Leads [] mode [] :=
  fun place _ => ⟨place, rfl⟩

theorem cons {c : Char} {item : Option Item} (h : ∀ place, mode.next place c = .ok (mode', item))
    (h' : mode'.Leads cs mode'' items) : mode.Leads (c :: cs) mode'' (item.toList ++ items) := by
  intro place before
  rcases h' (place.next c) (item.toList ++ before) with ⟨place', hcs⟩
  refine ⟨place', ?_⟩
  have hnext : Reader.next ⟨place, mode, before⟩ c
      = .ok ⟨place.next c, mode', item.toList ++ before⟩ := by
    simp only [Reader.next, h]
  -- items are kept last first, but there is at most one for each character
  have hitem : item.toList.reverse = item.toList := by cases item <;> rfl
  rw [List.foldlM_cons, hnext, List.reverse_append, hitem, List.append_assoc]
  exact hcs

theorem single {c : Char} {item : Option Item}
    (h : ∀ place, mode.next place c = .ok (mode', item)) : mode.Leads [c] mode' item.toList := by
  have hcons := cons h (nil mode')
  rw [List.append_nil] at hcons
  exact hcons

theorem append (h : mode.Leads cs mode' items) (h' : mode'.Leads cs' mode'' items') :
    mode.Leads (cs ++ cs') mode'' (items ++ items') := by
  intro place before
  rcases h place before with ⟨place', hcs⟩
  rcases h' place' (items.reverse ++ before) with ⟨place'', hcs'⟩
  refine ⟨place'', ?_⟩
  rw [List.foldlM_append, hcs, List.reverse_append, List.append_assoc]
  exact hcs'

/-- Two modes that take the first character alike lead to the same. -/
theorem of_next_eq {c : Char} (h : ∀ place, mode.next place c = mode'.next place c)
    (h' : mode'.Leads (c :: cs) mode'' items) : mode.Leads (c :: cs) mode'' items := by
  intro place before
  have hnext : Reader.next ⟨place, mode, before⟩ c = Reader.next ⟨place, mode', before⟩ c := by
    simp only [Reader.next, h]
  rw [List.foldlM_cons, hnext]
  exact h' place before

/-- What a text comes to through which the reader gets back to where it started. -/
theorem read (h : Mode.between.Leads cs .between items) : Reader.read cs = .ok items := by
  rcases h ⟨0, 0⟩ [] with ⟨place, hcs⟩
  rw [Reader.read, Reader.start, hcs]
  simp [bind, Except.bind, Reader.finish, Mode.finish]

/-- A text that ends inside a quoted value comes to nothing. -/
theorem read_quoted {key : String} {mark : Char} {seen : List Char}
    (h : Mode.between.Leads cs (.inside (.quoted key mark) .outside seen) items) :
    ∃ place, Reader.read cs = .error ⟨.unfinished (.quoted key mark), place⟩ := by
  rcases h ⟨0, 0⟩ [] with ⟨place, hcs⟩
  refine ⟨place, ?_⟩
  rw [Reader.read, Reader.start, hcs]
  rfl

end Mode.Leads

/-! ## Escapes -/

/-- What a character of a written text is read as. -/
def rereadChar (c : Char) : Char :=
  if c = '\x0b' then 'v' else if c = '\x0c' then 'f' else c

theorem hexChar?_padded : ∀ n < 128,
    (Text.Hex.padded 4 n).length = 4 ∧ '\\' ∉ Text.Hex.padded 4 n ∧
      hexChar? (Text.Hex.padded 4 n) = some (Char.ofNat n) := by
  decide +kernel

/-- The characters that are written as a backslash and a letter. -/
def lettered : List Char :=
  ['\\', '\x00', '\x07', '\x08', '\t', '\n', '\x0b', '\x0c', '\r']

theorem escapeChar_of_not_control {c : Char} (hletter : c ∉ lettered)
    (hcontrol : ¬ (c.toNat < 32 ∨ c.toNat = 127)) : escapeChar c = [c] := by
  simp only [lettered, List.mem_cons, List.not_mem_nil, or_false, not_or] at hletter
  simp [escapeChar, hletter, hcontrol]

/-- A character is written as it is, or as a backslash and a letter, or with its number. -/
theorem escapeChar_forms (c : Char) :
    (c ≠ '\\' ∧ escapeChar c = [c] ∧ rereadChar c = c) ∨
    (∃ l, escapeChar c = ['\\', l] ∧ l ≠ 'x' ∧ letterEscape l = [rereadChar c]) ∨
    (∃ ds, escapeChar c = '\\' :: 'x' :: ds ∧ ds.length = 4 ∧ '\\' ∉ ds ∧
      hexChar? ds = some (rereadChar c)) := by
  by_cases hletter : c ∈ lettered
  · right
    left
    simp only [lettered, List.mem_cons, List.not_mem_nil, or_false] at hletter
    rcases hletter with rfl | rfl | rfl | rfl | rfl | rfl | rfl | rfl | rfl <;>
      exact ⟨_, rfl, by decide, by decide⟩
  · by_cases hcontrol : c.toNat < 32 ∨ c.toNat = 127
    · right
      right
      rcases hexChar?_padded c.toNat (by omega) with ⟨hlen, hdigits, hvalue⟩
      simp only [lettered, List.mem_cons, List.not_mem_nil, or_false, not_or] at hletter
      refine ⟨Text.Hex.padded 4 c.toNat, ?_, hlen, hdigits, ?_⟩
      · simp [escapeChar, hletter, hcontrol]
      · rw [hvalue, Char.ofNat_toNat]
        simp [rereadChar, hletter]
    · left
      have hform := escapeChar_of_not_control hletter hcontrol
      simp only [lettered, List.mem_cons, not_or] at hletter
      exact ⟨hletter.1, hform, by simp [rereadChar, hletter]⟩

section Inside

variable {scope : Scope}

theorem leads_outside (seen : List Char) {c : Char} (hback : c ≠ '\\')
    (hend : some c ∉ scope.ends) :
    (Mode.inside scope .outside seen).Leads [c] (.inside scope .outside (c :: seen)) [] := by
  have hc : ∀ place, (Mode.inside scope .outside seen).next place c
      = .ok (.inside scope .outside (c :: seen), none) := by
    intro place
    simp only [Mode.next, insideNext, if_neg hend, if_neg hback]
  exact .single hc

theorem leads_escape {seen cs : List Char} {mode : Mode} {items : List Item}
    (hback : some '\\' ∉ scope.ends) (h : (Mode.inside scope .begun seen).Leads cs mode items) :
    (Mode.inside scope .outside seen).Leads ('\\' :: cs) mode items := by
  have hc : ∀ place, (Mode.inside scope .outside seen).next place '\\'
      = .ok (.inside scope .begun seen, none) := by
    intro place
    simp only [Mode.next, insideNext, if_neg hback, if_true]
  exact .cons hc h

theorem leads_letter (scope : Scope) (seen : List Char) {l : Char} (hl : l ≠ 'x') :
    (Mode.inside scope .begun seen).Leads [l]
      (.inside scope .outside (letterEscape l ++ seen)) [] := by
  have hc : ∀ place, (Mode.inside scope .begun seen).next place l
      = .ok (.inside scope .outside (letterEscape l ++ seen), none) := by
    intro place
    simp only [Mode.next, insideNext, if_neg hl]
  exact .single hc

theorem leads_digit (scope : Scope) (seen digits : List Char) {d : Char} (hback : d ≠ '\\')
    (hlen : digits.length < 3) :
    (Mode.inside scope (.hex digits) seen).Leads [d]
      (.inside scope (.hex (d :: digits)) seen) [] := by
  have hd : ∀ place, (Mode.inside scope (.hex digits) seen).next place d
      = .ok (.inside scope (.hex (d :: digits)) seen, none) := by
    intro place
    simp only [Mode.next, insideNext, if_neg hback, hexNext, if_pos hlen]
    rfl
  exact .single hd

theorem leads_hex (seen : List Char) {ds : List Char} {c : Char} (hlen : ds.length = 4)
    (hback : '\\' ∉ ds) (hc : hexChar? ds = some c) :
    (Mode.inside scope .begun seen).Leads ('x' :: ds) (.inside scope .outside (c :: seen)) [] := by
  match ds, hlen with
  | [d₁, d₂, d₃, d₄], _ =>
      have hne : ∀ d ∈ [d₁, d₂, d₃, d₄], d ≠ '\\' := fun d hd h => hback (h ▸ hd)
      simp only [List.forall_mem_cons] at hne
      rcases hne with ⟨h₁, h₂, h₃, h₄, _⟩
      have hx : ∀ place, (Mode.inside scope .begun seen).next place 'x'
          = .ok (.inside scope (.hex []) seen, none) := fun _ => rfl
      -- the digits are kept last first, and the fourth one completes the character
      have hlast : ∀ place, (Mode.inside scope (.hex [d₃, d₂, d₁]) seen).next place d₄
          = .ok (.inside scope .outside (c :: seen), none) := by
        intro place
        have hdigits : [d₄, d₃, d₂, d₁].reverse = [d₁, d₂, d₃, d₄] := rfl
        simp only [Mode.next, insideNext, if_neg h₄, hexNext, hdigits, hc]
        rfl
      have hfirst := leads_digit scope seen [] h₁ (by simp)
      have hsecond := leads_digit scope seen [d₁] h₂ (by simp)
      have hthird := leads_digit scope seen [d₂, d₁] h₃ (by simp)
      exact .cons hx (hfirst.append (hsecond.append (hthird.append (.single hlast))))

/-- A written character is read in one go, unless it ends the text that is being read. -/
theorem leads_escapeChar (seen : List Char) {c : Char} (hback : some '\\' ∉ scope.ends)
    (hc : escapeChar c = [c] → some c ∉ scope.ends) :
    (Mode.inside scope .outside seen).Leads (escapeChar c)
      (.inside scope .outside (rereadChar c :: seen)) [] := by
  rcases escapeChar_forms c with ⟨hne, hform, hreread⟩ | ⟨l, hform, hl, hletter⟩ |
    ⟨ds, hform, hlen, hdigits, hvalue⟩
  · rw [hform, hreread]
    exact leads_outside seen hne (hc hform)
  · rw [hform]
    have h := leads_letter scope seen hl
    rw [hletter] at h
    exact leads_escape hback h
  · rw [hform]
    exact leads_escape hback (leads_hex seen hlen hdigits hvalue)

theorem leads_escaped (seen : List Char) {cs : List Char} (hback : some '\\' ∉ scope.ends)
    (hcs : ∀ c ∈ cs, escapeChar c = [c] → some c ∉ scope.ends) :
    (Mode.inside scope .outside seen).Leads (cs.flatMap escapeChar)
      (.inside scope .outside ((cs.map rereadChar).reverse ++ seen)) [] := by
  induction cs generalizing seen with
  | nil => exact .nil _
  | cons c cs ih =>
      have hfirst := leads_escapeChar seen hback (hcs c List.mem_cons_self)
      have hrest := ih (rereadChar c :: seen) fun d hd => hcs d (List.mem_cons_of_mem _ hd)
      have htext : ((c :: cs).map rereadChar).reverse ++ seen
          = (cs.map rereadChar).reverse ++ rereadChar c :: seen := by simp
      rw [List.flatMap_cons, htext]
      exact hfirst.append hrest

theorem leads_plain (seen : List Char) {cs : List Char}
    (hcs : ∀ c ∈ cs, c ≠ '\\' ∧ some c ∉ scope.ends) :
    (Mode.inside scope .outside seen).Leads cs
      (.inside scope .outside (cs.reverse ++ seen)) [] := by
  induction cs generalizing seen with
  | nil => exact .nil _
  | cons c cs ih =>
      rcases hcs c List.mem_cons_self with ⟨hback, hend⟩
      have hfirst := leads_outside seen hback hend
      have hrest := ih (c :: seen) fun d hd => hcs d (List.mem_cons_of_mem _ hd)
      rw [List.reverse_cons, List.append_assoc]
      exact hfirst.append hrest

end Inside

/-! ## Words -/

/-- A character that neither the writer nor the reader treats in any special way. -/
structure IsOrdinary (c : Char) : Prop where
  escapeChar_eq : escapeChar c = [c]
  isBlank_eq : Text.isBlank c = false
  not_mark : c ∉ ['\\', ';', '#', '[', ']', '=', ':', '"', '\x27']

instance (c : Char) : Decidable (IsOrdinary c) :=
  decidable_of_iff (escapeChar c = [c] ∧ Text.isBlank c = false ∧
      c ∉ ['\\', ';', '#', '[', ']', '=', ':', '"', '\x27'])
    ⟨fun h => ⟨h.1, h.2.1, h.2.2⟩, fun h => ⟨h.escapeChar_eq, h.isBlank_eq, h.not_mark⟩⟩

theorem IsOrdinary.ne {c d : Char} (h : IsOrdinary c)
    (hd : d ∈ ['\\', ';', '#', '[', ']', '=', ':', '"', '\x27']) : c ≠ d := by
  rintro rfl
  exact h.not_mark hd

/-- A text made of such characters. -/
def IsWord (s : String) : Prop :=
  s ≠ "" ∧ ∀ c ∈ s.toList, IsOrdinary c

instance (s : String) : Decidable (IsWord s) :=
  decidable_of_iff (s ≠ "" ∧ s.toList.all (fun c => IsOrdinary c) = true) (by simp [IsWord])

theorem escapeText_of_isWord {s : String} (h : IsWord s) : escapeText s = s.toList := by
  have hcs : ∀ c ∈ s.toList, escapeChar c = [c] := fun c hc => (h.2 c hc).escapeChar_eq
  rw [escapeText, List.flatMap_congr hcs, List.flatMap_singleton']

theorem textOf_of_isWord {s : String} (h : IsWord s) : textOf (s.toList.reverse ++ []) = s := by
  have hblank : ∀ c ∈ s.toList, Text.isBlank c = false := fun c hc => (h.2 c hc).isBlank_eq
  have htrim : Text.trim s.toList = s.toList := by
    refine Text.trim_eq_self_iff.2 ⟨?_, ?_⟩
    · exact fun c hc => hblank c (List.mem_of_mem_head? hc)
    · exact fun c hc => hblank c (List.mem_of_getLast? hc)
  rw [textOf, List.append_nil, List.reverse_reverse, htrim, String.ofList_toList]

theorem leads_word {scope : Scope} {s : String} (h : IsWord s)
    (hends : ∀ c, IsOrdinary c → some c ∉ scope.ends) :
    (Mode.inside scope .outside []).Leads s.toList
      (.inside scope .outside (s.toList.reverse ++ [])) [] :=
  leads_plain [] fun c hc => ⟨(h.2 c hc).ne (by decide), hends c (h.2 c hc)⟩

theorem leads_header {name : String} (h : IsWord name) :
    Mode.between.Leads ('[' :: escapeText name ++ [']', '\n']) .between [.header name] := by
  have hopen : ∀ place, Mode.between.next place '['
      = .ok (.inside .header .outside [], none) := fun _ => rfl
  have hends : ∀ c, IsOrdinary c → some c ∉ Scope.header.ends := by
    intro c hc
    simp [Scope.ends, hc.ne]
  have hclose : ∀ place, (Mode.inside .header .outside (name.toList.reverse ++ [])).next place ']'
      = .ok (.between, some (.header name)) := by
    intro place
    have hmem : some ']' ∈ Scope.header.ends := by simp [Scope.ends]
    simp only [Mode.next, insideNext, if_pos hmem, endText, textOf_of_isWord h]
  have hbreak : ∀ place, Mode.between.next place '\n' = .ok (.between, none) := fun _ => rfl
  rw [escapeText_of_isWord h]
  exact .cons hopen ((leads_word h hends).append (.cons hclose (.single hbreak)))

theorem leads_key {key : String} (h : IsWord key) :
    Mode.between.Leads (escapeText key ++ ['=']) (.front key) [] := by
  have hends : ∀ c, IsOrdinary c → some c ∉ Scope.key.ends := by
    intro c hc
    simp [Scope.ends, hc.ne]
  have hend : ∀ place, (Mode.inside .key .outside (key.toList.reverse ++ [])).next place '='
      = .ok (.front key, none) := by
    intro place
    have hmem : some '=' ∈ Scope.key.ends := by simp [Scope.ends]
    simp only [Mode.next, insideNext, if_pos hmem, endText, textOf_of_isWord h, if_neg h.1]
  have hinside : (Mode.inside .key .outside []).Leads (key.toList ++ ['=']) (.front key) [] :=
    (leads_word h hends).append (.single hend)
  rw [escapeText_of_isWord h]
  -- the first character is the only one that is taken between items
  cases hcs : key.toList with
  | nil => exact absurd (String.toList_eq_nil_iff.1 hcs) h.1
  | cons c cs =>
      rw [hcs] at hinside
      refine .of_next_eq (fun place => ?_) hinside
      have hc : IsOrdinary c := h.2 c (by simp [hcs])
      simp [Mode.next, hc.isBlank_eq, hc.ne]

/-! ## Values -/

/-- The blanks that are lost in front of a value before the reader looks for a quote; the others are
written as escapes. -/
def isLeading (c : Char) : Bool :=
  Text.isBlank c && decide (c ∉ ['\t', '\n', '\x0b', '\x0c', '\r'])

/-- What a value comes back as when it has been written; nothing if it starts with a quote that is
never closed. -/
def reread? (cs : List Char) : Option (List Char) :=
  match cs.dropWhile isLeading with
  | [] => some []
  | c :: rest =>
    if c = '"' ∨ c = '\x27' then
      if c ∈ rest then some (Text.trim ((rest.erase c).map rereadChar)) else none
    else some (Text.trim ((c :: rest).map rereadChar))

theorem isLeading_of_escapeChar {c : Char} (hblank : Text.isBlank c = true)
    (hform : escapeChar c = [c]) : isLeading c = true := by
  have hc : c ∉ ['\t', '\n', '\x0b', '\x0c', '\r'] := by
    intro hmem
    simp only [List.mem_cons, List.not_mem_nil, or_false] at hmem
    rcases hmem with rfl | rfl | rfl | rfl | rfl <;> exact absurd hform (by decide)
  simp only [isLeading, hblank, hc, not_false_eq_true, decide_true, Bool.and_true]

theorem escapeChar_of_isLeading {c : Char} (h : isLeading c = true) : escapeChar c = [c] := by
  have hsmall : ∀ n < 128, isLeading (Char.ofNat n) = true →
      escapeChar (Char.ofNat n) = [Char.ofNat n] := by
    decide +kernel
  -- the writer escapes nothing outside ASCII
  by_cases hlt : c.toNat < 128
  · have hc := hsmall c.toNat hlt
    rw [Char.ofNat_toNat] at hc
    exact hc h
  · have hletter : lettered.all (fun d => d.toNat < 128) = true := by decide
    refine escapeChar_of_not_control (fun hc => hlt ?_) (by omega)
    exact of_decide_eq_true (List.all_eq_true.1 hletter c hc)

theorem leads_leading (key : String) {cs : List Char} (h : ∀ c ∈ cs, isLeading c = true) :
    (Mode.front key).Leads (cs.flatMap escapeChar) (.front key) [] := by
  induction cs with
  | nil => exact .nil _
  | cons c cs ih =>
      have hc := h c List.mem_cons_self
      have hskip : ∀ place, (Mode.front key).next place c = .ok (.front key, none) := by
        intro place
        have hblank : Text.isBlank c ∧ c ≠ '\n' ∧ c ≠ '\r' := by
          simp only [isLeading, Bool.and_eq_true, decide_eq_true_eq, List.mem_cons, not_or] at hc
          exact ⟨hc.1, hc.2.2.1, hc.2.2.2.2.2.1⟩
        rw [Mode.next, if_pos hblank]
      rw [List.flatMap_cons, escapeChar_of_isLeading hc]
      exact .cons hskip (ih fun d hd => h d (List.mem_cons_of_mem _ hd))

/-- What follows a value on its line belongs to the value, quotes included. -/
theorem leads_line (key : String) (seen cs : List Char) :
    (Mode.inside (.value key) .outside seen).Leads (cs.flatMap escapeChar ++ ['\n']) .between
      [.entry ⟨key, textOf ((cs.map rereadChar).reverse ++ seen)⟩] := by
  have hback : some '\\' ∉ (Scope.value key).ends := by simp [Scope.ends]
  have hcs : ∀ c ∈ cs, escapeChar c = [c] → some c ∉ (Scope.value key).ends := by
    intro c _ hform hmem
    have hbreak : c = '\n' ∨ c = '\r' := by simpa [Scope.ends] using hmem
    -- line breaks in the value are escaped, so none of them ends it
    rcases hbreak with rfl | rfl <;> exact absurd hform (by decide)
  have hend : ∀ seen place, (Mode.inside (.value key) .outside seen).next place '\n'
      = .ok (.between, some (.entry ⟨key, textOf seen⟩)) := by
    intro seen place
    have hmem : some '\n' ∈ (Scope.value key).ends := by simp [Scope.ends]
    simp only [Mode.next, insideNext, if_pos hmem, endText]
  exact (leads_escaped seen hback hcs).append (.cons (hend _) (.nil _))

/-- The first character of a written text is the first one of the text, or a backslash. -/
theorem exists_escapeChar_eq_cons (c : Char) :
    ∃ x xs, escapeChar c = x :: xs ∧ (escapeChar c = [c] ∧ x = c ∨ x = '\\') := by
  rcases escapeChar_forms c with ⟨_, hform, _⟩ | ⟨l, hform, _, _⟩ | ⟨ds, hform, _, _, _⟩
  · exact ⟨c, [], hform, .inl ⟨hform, rfl⟩⟩
  · exact ⟨'\\', [l], hform, .inr rfl⟩
  · exact ⟨'\\', 'x' :: ds, hform, .inr rfl⟩

/-- In front of a value, a character that is neither skipped nor a quote is its first one. -/
theorem front_next {c : Char} (hblank : Text.isBlank c = true → c = '\n')
    (hmark : ¬ (c = '"' ∨ c = '\x27')) (key : String) (place : Place) :
    (Mode.front key).next place c = (Mode.inside (.value key) .outside []).next place c := by
  have hskip : ¬ (Text.isBlank c = true ∧ c ≠ '\n' ∧ c ≠ '\r') := fun h => h.2.1 (hblank h.1)
  rw [Mode.next, if_neg hskip, if_neg hmark]
  rfl

theorem leads_unquoted (key : String) {cs : List Char}
    (hfirst : ∀ c ∈ cs.head?, isLeading c = false ∧ ¬ (c = '"' ∨ c = '\x27')) :
    (Mode.front key).Leads (cs.flatMap escapeChar ++ ['\n']) .between
      [.entry ⟨key, String.ofList (Text.trim (cs.map rereadChar))⟩] := by
  have hline := leads_line key [] cs
  rw [textOf, List.append_nil, List.reverse_reverse] at hline
  cases cs with
  | nil => exact .of_next_eq (front_next (fun _ => rfl) (by decide) key) hline
  | cons c cs =>
      -- an escape hides the blank that it stands for
      rcases hfirst c rfl with ⟨hleading, hmark⟩
      rcases exists_escapeChar_eq_cons c with ⟨x, xs, hform, hx⟩
      rw [List.flatMap_cons, hform] at hline ⊢
      refine .of_next_eq (front_next ?_ ?_ key) hline
      · intro hblank
        rcases hx with ⟨hself, rfl⟩ | rfl
        · rw [isLeading_of_escapeChar hblank hself] at hleading
          cases hleading
        · cases hblank
      · rcases hx with ⟨_, rfl⟩ | rfl
        · exact hmark
        · decide

/-- A quote in front of a value opens a scope that only such a quote ends. -/
theorem leads_quoted {mark : Char} (hmark : mark = '"' ∨ mark = '\x27') (key : String)
    {cs : List Char} (h : mark ∉ cs) :
    (Mode.front key).Leads (mark :: cs.flatMap escapeChar)
      (.inside (.quoted key mark) .outside (cs.map rereadChar).reverse) [] := by
  have hopen : ∀ place, (Mode.front key).next place mark
      = .ok (.inside (.quoted key mark) .outside [], none) := by
    rcases hmark with rfl | rfl <;> exact fun _ => rfl
  have hback : some '\\' ∉ (Scope.quoted key mark).ends := by
    rcases hmark with rfl | rfl <;> simp [Scope.ends]
  have hcs : ∀ c ∈ cs, escapeChar c = [c] → some c ∉ (Scope.quoted key mark).ends := by
    intro c hc _ hmem
    have heq : c = mark := by simpa [Scope.ends] using hmem
    exact h (heq ▸ hc)
  have hinside := leads_escaped [] hback hcs
  rw [List.append_nil] at hinside
  exact .cons hopen hinside

/-- Behind the closing quote the value goes on to the end of its line. -/
theorem leads_closed {mark : Char} (hmark : mark = '"' ∨ mark = '\x27') (key : String)
    {front : List Char} (h : mark ∉ front) (back : List Char) :
    (Mode.front key).Leads
      (mark :: (front.flatMap escapeChar ++ mark :: (back.flatMap escapeChar ++ ['\n']))) .between
      [.entry ⟨key, String.ofList (Text.trim ((front ++ back).map rereadChar))⟩] := by
  have hclose : ∀ place, (Mode.inside (.quoted key mark) .outside
      (front.map rereadChar).reverse).next place mark
        = .ok (.inside (.value key) .outside (front.map rereadChar).reverse, none) := by
    intro place
    have hmem : some mark ∈ (Scope.quoted key mark).ends := by simp [Scope.ends]
    simp only [Mode.next, insideNext, if_pos hmem, endText]
  have hline := leads_line key (front.map rereadChar).reverse back
  have htext : textOf ((back.map rereadChar).reverse ++ (front.map rereadChar).reverse)
      = String.ofList (Text.trim ((front ++ back).map rereadChar)) := by
    rw [textOf, ← List.reverse_append, List.reverse_reverse, List.map_append]
  rw [htext] at hline
  exact (leads_quoted hmark key h).append (.cons hclose hline)

theorem escapeChar_of_mark {mark : Char} (h : mark = '"' ∨ mark = '\x27') :
    escapeChar mark = [mark] := by
  rcases h with rfl | rfl <;> decide

/-- In front of a value, the blanks that are lost may be left out. -/
theorem leads_of_dropWhile {key : String} {cs later : List Char} {mode : Mode} {items : List Item}
    (h : (Mode.front key).Leads ((cs.dropWhile isLeading).flatMap escapeChar ++ later) mode items) :
    (Mode.front key).Leads (cs.flatMap escapeChar ++ later) mode items := by
  have hskip : ∀ c ∈ cs.takeWhile isLeading, isLeading c = true := fun _ => List.mem_takeWhile_imp
  -- they are written as they are, and skipped one by one
  have hsplit : cs.flatMap escapeChar ++ later = (cs.takeWhile isLeading).flatMap escapeChar
      ++ ((cs.dropWhile isLeading).flatMap escapeChar ++ later) := by
    rw [← List.append_assoc, ← List.flatMap_append, List.takeWhile_append_dropWhile]
  rw [hsplit]
  exact (leads_leading key hskip).append h

/-- A value comes back as `reread?` says. -/
theorem leads_value {value : String} {cs : List Char} (h : reread? value.toList = some cs)
    (key : String) :
    (Mode.front key).Leads (escapeText value ++ ['\n']) .between
      [.entry ⟨key, String.ofList cs⟩] := by
  refine leads_of_dropWhile ?_
  have hhead := List.head?_dropWhile_not isLeading value.toList
  rw [reread?] at h
  cases hrest : value.toList.dropWhile isLeading with
  | nil =>
      rw [hrest] at h
      cases h
      have hnone : ∀ c ∈ ([] : List Char).head?,
          isLeading c = false ∧ ¬ (c = '"' ∨ c = '\x27') := by
        simp
      exact leads_unquoted key hnone
  | cons c rest =>
      simp only [hrest, List.head?_cons] at h hhead
      by_cases hmark : c = '"' ∨ c = '\x27'
      · rw [if_pos hmark] at h
        by_cases hclosed : c ∈ rest
        · rw [if_pos hclosed] at h
          cases h
          -- the first such quote closes the scope, and it is the one that is lost
          rcases List.eq_append_cons_of_mem hclosed with ⟨front, back, rfl, hfront⟩
          have herase : (front ++ c :: back).erase c = front ++ back := by
            rw [List.erase_append_right _ hfront, List.erase_cons_head]
          have hvalue := leads_closed hmark key hfront back
          simpa [herase, escapeChar_of_mark hmark] using hvalue
        · rw [if_neg hclosed] at h
          cases h
      · rw [if_neg hmark] at h
        cases h
        refine leads_unquoted key ?_
        intro d hd
        cases hd
        exact ⟨by simpa using hhead, hmark⟩

example : reread? [' ', '"', 'a', '"', ';', '\\', ' '] = some ['a', ';', '\\'] := by decide

/-- Nothing comes back exactly if the first quote has no other of its kind behind it. -/
theorem reread?_eq_none_iff {cs : List Char} :
    reread? cs = none ↔ ∃ mark rest, cs.dropWhile isLeading = mark :: rest ∧
      (mark = '"' ∨ mark = '\x27') ∧ mark ∉ rest := by
  rw [reread?]
  cases cs.dropWhile isLeading with
  | nil => simp
  | cons c rest =>
      by_cases hmark : c = '"' ∨ c = '\x27'
      · by_cases hclosed : c ∈ rest <;> simp [hmark, hclosed]
      · simp [hmark]

theorem map_rereadChar_eq_self_iff {cs : List Char} :
    cs.map rereadChar = cs ↔ '\x0b' ∉ cs ∧ '\x0c' ∉ cs := by
  have hchar : ∀ c, rereadChar c = c ↔ '\x0b' ≠ c ∧ '\x0c' ≠ c := by
    intro c
    by_cases htab : c = '\x0b'
    · subst htab
      decide
    · by_cases hfeed : c = '\x0c'
      · subst hfeed
        decide
      · simp [rereadChar, htab, hfeed, Ne.symm htab, Ne.symm hfeed]
  induction cs with
  | nil => simp
  | cons c cs ih =>
      simp only [List.map_cons, List.cons_eq_cons, hchar, ih, List.mem_cons, not_or]
      exact and_and_and_comm

/-- A value comes back as it was exactly if it has no blanks at its ends, does not start with a
quote, and has none of the two characters whose escapes are not read. -/
theorem reread?_eq_self_iff {cs : List Char} :
    reread? cs = some cs ↔
      (∀ c ∈ cs.head?, Text.isBlank c = false) ∧ (∀ c ∈ cs.getLast?, Text.isBlank c = false) ∧
        (∀ c ∈ cs.head?, c ≠ '"' ∧ c ≠ '\x27') ∧ '\x0b' ∉ cs ∧ '\x0c' ∉ cs := by
  constructor
  · intro h
    have hsuffix := List.dropWhile_suffix isLeading (l := cs)
    rw [reread?] at h
    cases hrest : cs.dropWhile isLeading with
    | nil =>
        rw [hrest] at h
        cases h
        simp
    | cons c rest =>
        rw [hrest] at hsuffix
        simp only [hrest] at h
        -- nothing makes a value longer, so whatever drops a character is excluded
        by_cases hmark : c = '"' ∨ c = '\x27'
        · rw [if_pos hmark] at h
          by_cases hclosed : c ∈ rest
          · rw [if_pos hclosed, Option.some_inj] at h
            have hshort : cs.length < (c :: rest).length := by
              calc
                cs.length = (Text.trim ((rest.erase c).map rereadChar)).length := by rw [h]
                _ ≤ ((rest.erase c).map rereadChar).length := (Text.trim_sublist _).length_le
                _ = (rest.erase c).length := List.length_map _
                _ ≤ rest.length := List.erase_sublist.length_le
                _ < (c :: rest).length := Nat.lt_succ_self _
            exact absurd hsuffix.length_le (Nat.not_le_of_lt hshort)
          · rw [if_neg hclosed] at h
            cases h
        · rw [if_neg hmark, Option.some_inj] at h
          have hlong : cs.length ≤ (c :: rest).length := by
            calc
              cs.length = (Text.trim ((c :: rest).map rereadChar)).length := by rw [h]
              _ ≤ ((c :: rest).map rereadChar).length := (Text.trim_sublist _).length_le
              _ = (c :: rest).length := List.length_map _
          have hall : c :: rest = cs := hsuffix.eq_of_length_le hlong
          rw [hall] at h
          have htrim : Text.trim (cs.map rereadChar) = cs.map rereadChar :=
            (Text.trim_sublist _).eq_of_length_le (by rw [h, List.length_map])
          have hletters : cs.map rereadChar = cs := htrim.symm.trans h
          rw [hletters] at htrim
          rcases Text.trim_eq_self_iff.1 htrim with ⟨hfirst, hlast⟩
          refine ⟨hfirst, hlast, ?_, map_rereadChar_eq_self_iff.1 hletters⟩
          intro d hd
          rw [← hall] at hd
          cases hd
          exact not_or.1 hmark
  · rintro ⟨hfirst, hlast, hmark, hletters⟩
    have htrim : Text.trim cs = cs := Text.trim_eq_self_iff.2 ⟨hfirst, hlast⟩
    rw [reread?]
    cases cs with
    | nil => rfl
    | cons c rest =>
        have hleading : isLeading c ≠ true := by simp [isLeading, hfirst c rfl]
        have hquote : ¬ (c = '"' ∨ c = '\x27') := not_or.2 (hmark c rfl)
        simp only [List.dropWhile_cons_of_neg hleading, if_neg hquote]
        rw [map_rereadChar_eq_self_iff.2 hletters, htrim]

theorem reread?_of_isWord {s : String} (h : IsWord s) : reread? s.toList = some s.toList := by
  -- no character of a word is a blank, a quote, or one of the two that change
  have habsent : ∀ c, ¬ IsOrdinary c → c ∉ s.toList := fun c hc hmem => hc (h.2 c hmem)
  have hhead : ∀ c ∈ s.toList.head?, IsOrdinary c := fun c hc => h.2 c (List.mem_of_mem_head? hc)
  refine reread?_eq_self_iff.2 ⟨?_, ?_, ?_, habsent _ (by decide), habsent _ (by decide)⟩
  · exact fun c hc => (hhead c hc).isBlank_eq
  · exact fun c hc => (h.2 c (List.mem_of_getLast? hc)).isBlank_eq
  · exact fun c hc => ⟨(hhead c hc).ne (by decide), (hhead c hc).ne (by decide)⟩

/-- A quote that is not closed swallows whatever follows, up to the next quote of its kind. -/
theorem leads_unclosed {value : String} (h : reread? value.toList = none) (key : String)
    {later : List Char} (hlater : ∀ c ∈ later, c ≠ '\\' ∧ c ≠ '"' ∧ c ≠ '\x27') :
    ∃ mark seen, (Mode.front key).Leads (escapeText value ++ later)
      (.inside (.quoted key mark) .outside seen) [] := by
  rcases reread?_eq_none_iff.1 h with ⟨mark, rest, hrest, hmark, hopen⟩
  have hends : ∀ c ∈ later, c ≠ '\\' ∧ some c ∉ (Scope.quoted key mark).ends := by
    intro c hc
    rcases hmark with rfl | rfl <;> simp [Scope.ends, hlater c hc]
  -- the rest of the value does not end the scope, and neither does what follows it
  have hvalue := (leads_quoted hmark key hopen).append (leads_plain _ hends)
  refine ⟨mark, later.reverse ++ (rest.map rereadChar).reverse, leads_of_dropWhile ?_⟩
  simpa [hrest, escapeChar_of_mark hmark] using hvalue

/-- An entry with a word for its key. -/
theorem leads_entry {key value : String} (hkey : IsWord key) {cs : List Char}
    (hvalue : reread? value.toList = some cs) :
    Mode.between.Leads (Entry.write ⟨key, value⟩) .between [.entry ⟨key, String.ofList cs⟩] := by
  have hentry := (leads_key hkey).append (leads_value hvalue key)
  simpa [Entry.write] using hentry

theorem leads_entry_of_isWord {key value : String} (hkey : IsWord key) (hvalue : IsWord value) :
    Mode.between.Leads (Entry.write ⟨key, value⟩) .between [.entry ⟨key, value⟩] := by
  have hentry := leads_entry hkey (reread?_of_isWord hvalue)
  rw [String.ofList_toList] at hentry
  exact hentry

theorem IsWord.ne_of_mem {s : String} (h : IsWord s) :
    ∀ c ∈ escapeText s, c ≠ '\\' ∧ c ≠ '"' ∧ c ≠ '\x27' := by
  intro c hc
  rw [escapeText_of_isWord h] at hc
  exact ⟨(h.2 c hc).ne (by decide), (h.2 c hc).ne (by decide), (h.2 c hc).ne (by decide)⟩

end Settings
end GreetingService
