import GreetingService.Text.Blank
import Mathlib.Data.List.DropRight
import Mathlib.Data.String.Basic
import Mathlib.Tactic

/-!
# Parts of texts

A text that is split at a mark comes to pieces without the mark, which make up the text again with
the mark between them; there is one way to do this. A text that is trimmed loses the blanks at its
ends and nothing else.
-/

namespace GreetingService
namespace Text

open String

/-! ## Pieces of a text -/

/-- Splitting may be taken up at any place, with a part of the next piece already passed. -/
theorem splitOnAux_singleton (mark : Char) (before piece rest : List Char) (done : List String) :
    splitOnAux (ofList (before ++ piece ++ rest)) (ofList [mark]) ⟨utf8Len before⟩
        ⟨utf8Len before + utf8Len piece⟩ 0 done
      = done.reverse ++ (rest.splitOnPPrepend (· == mark) piece.reverse).map ofList := by
  -- each character either joins the piece or ends it, so that the places stay as they are written
  induction rest generalizing before piece done with
  | nil =>
      have hend : Pos.Raw.atEnd (ofList (before ++ piece ++ []))
          ⟨utf8Len before + utf8Len piece⟩ = true := by
        rw [← utf8Len_append]
        exact (atEnd_of_valid _ _).2 rfl
      rw [splitOnAux, if_pos hend, extract_of_valid, List.splitOnPPrepend_nil, List.reverse_reverse]
      exact List.reverse_cons
  | cons c rest ih =>
      have hend : ¬ Pos.Raw.atEnd (ofList (before ++ piece ++ c :: rest))
          ⟨utf8Len before + utf8Len piece⟩ = true := by
        rw [← utf8Len_append, atEnd_of_valid]
        exact List.cons_ne_nil c rest
      have hget : Pos.Raw.get (ofList (before ++ piece ++ c :: rest))
          ⟨utf8Len before + utf8Len piece⟩ = c := by
        rw [← utf8Len_append, get_of_valid, List.headD_cons]
      have hnext : Pos.Raw.next (ofList (before ++ piece ++ c :: rest))
          ⟨utf8Len before + utf8Len piece⟩ = ⟨utf8Len before + utf8Len piece + c.utf8Size⟩ := by
        rw [← utf8Len_append, next_of_valid]
      have hmark : Pos.Raw.get (ofList [mark]) 0 = mark := get_of_valid [] [mark]
      have hmarkNext : Pos.Raw.next (ofList [mark]) 0 = ⟨utf8Len [mark]⟩ := next_of_valid [] mark []
      have hmarkEnd : Pos.Raw.atEnd (ofList [mark]) ⟨utf8Len [mark]⟩ = true :=
        (atEnd_of_valid [mark] []).2 rfl
      rw [splitOnAux, if_neg hend, hget, hmark, List.splitOnPPrepend_cons_eq_if]
      split
      next hc =>
        -- the place before the mark is found by going back over the mark that was just read
        have hpiece : (⟨utf8Len before + utf8Len piece + c.utf8Size⟩ : Pos.Raw).unoffsetBy
            ⟨utf8Len [mark]⟩ = ⟨utf8Len before + utf8Len piece⟩ := by
          cases eq_of_beq hc
          ext
          simp
        have hrest := ih (before ++ piece ++ [c]) [] (ofList piece :: done)
        simp only [hnext, hmarkNext, hmarkEnd, hpiece, extract_of_valid, if_true]
        simpa [Nat.add_assoc] using hrest
      next hc =>
        have hpiece : (⟨utf8Len before + utf8Len piece⟩ : Pos.Raw).unoffsetBy 0
            = ⟨utf8Len before + utf8Len piece⟩ := by
          ext
          simp
        have hrest := ih before (piece ++ [c]) done
        rw [hpiece, hnext]
        simpa [Nat.add_assoc] using hrest

theorem splitOn_singleton (text : String) (mark : Char) :
    text.splitOn (ofList [mark]) = (text.toList.splitOn mark).map ofList := by
  have hne : (ofList [mark] == "") = false := by simp
  have haux := splitOnAux_singleton mark [] [] text.toList []
  rw [splitOn, hne]
  simpa [List.splitOn] using haux

theorem splitOn_ne_nil (text : String) (mark : Char) : text.splitOn (ofList [mark]) ≠ [] := by
  rw [splitOn_singleton, ne_eq, List.map_eq_nil_iff]
  exact List.splitOn_ne_nil mark text.toList

theorem notMem_of_mem_splitOn {mark : Char} {cs piece : List Char}
    (h : piece ∈ cs.splitOn mark) : mark ∉ piece := by
  induction cs generalizing piece with
  | nil =>
      rw [List.splitOn_nil, List.mem_singleton] at h
      rw [h]
      exact List.not_mem_nil
  | cons c cs ih =>
      rw [List.splitOn_cons_eq_if_modifyHead] at h
      split at h
      · rcases List.mem_cons.1 h with rfl | hpiece
        · exact List.not_mem_nil
        · exact ih hpiece
      · next hc =>
        cases hsplit : cs.splitOn mark with
        | nil => exact absurd hsplit (List.splitOn_ne_nil mark cs)
        | cons front pieces =>
            rw [hsplit, List.modifyHead_cons] at h
            rw [hsplit] at ih
            rcases List.mem_cons.1 h with rfl | hpiece
            · have hfront := ih List.mem_cons_self
              have hne : mark ≠ c := by
                rintro rfl
                simp at hc
              simp [hne, hfront]
            · exact ih (List.mem_cons_of_mem _ hpiece)

/-- The pieces of a text are what comes to it again with the mark between them, and none of them
holds the mark. -/
theorem splitOn_eq_iff {text : String} {mark : Char} {pieces : List String} (hne : pieces ≠ []) :
    text.splitOn (ofList [mark]) = pieces ↔
      text = (ofList [mark]).intercalate pieces ∧ ∀ piece ∈ pieces, mark ∉ piece.toList := by
  rw [splitOn_singleton]
  constructor
  · rintro rfl
    constructor
    · rw [← String.toList_inj, String.toList_intercalate, String.toList_ofList]
      simp [Function.comp_def]
    · simp only [List.forall_mem_map, String.toList_ofList]
      exact fun piece => notMem_of_mem_splitOn
  · rintro ⟨rfl, hmark⟩
    rw [String.toList_intercalate, String.toList_ofList, List.splitOn_intercalate]
    · simp [Function.comp_def]
    · simpa using hmark
    · simpa using hne

theorem splitOn_of_notMem {text : String} (mark : Char) (h : mark ∉ text.toList) :
    text.splitOn (ofList [mark]) = [text] :=
  (splitOn_eq_iff (by simp)).2 ⟨String.intercalate_singleton.symm, by simpa using h⟩

theorem splitOn_pair {front back : String} (mark : Char) (hfront : mark ∉ front.toList)
    (hback : mark ∉ back.toList) :
    (front ++ ofList [mark] ++ back).splitOn (ofList [mark]) = [front, back] := by
  refine (splitOn_eq_iff (by simp)).2 ⟨?_, by simp [hfront, hback]⟩
  rw [← String.toList_inj, String.toList_intercalate]
  simp

/-! ## Trimming -/

theorem trim_sublist (cs : List Char) : List.Sublist (trim cs) cs := by
  have hend : List.Sublist (trim cs) (trimStart cs) := (List.rdropWhile_prefix isBlank _).sublist
  exact hend.trans (List.dropWhile_sublist isBlank)

theorem trim_eq_nil_iff {cs : List Char} : trim cs = [] ↔ ∀ c ∈ cs, isBlank c = true := by
  have hstart : trimStart cs = [] ↔ ∀ c ∈ cs, isBlank c = true := List.dropWhile_eq_nil_iff
  rw [← hstart]
  constructor
  · intro h
    -- all that is left at the start is blank, but its first character would not be
    have hblank : ∀ c ∈ trimStart cs, isBlank c = true := List.rdropWhile_eq_nil_iff.1 h
    by_contra hne
    have hhead : isBlank ((trimStart cs).head hne) = false := List.head_dropWhile_not isBlank hne
    rw [hblank _ (List.head_mem hne)] at hhead
    cases hhead
  · intro h
    rw [trim, h]
    rfl

theorem isBlank_of_trim_eq_concat {cs front : List Char} {c : Char}
    (h : trim cs = front ++ [c]) : isBlank c = false := by
  have hend : (front ++ [c]).rdropWhile isBlank = front ++ [c] := by
    rw [← h]
    exact List.rdropWhile_idempotent isBlank (trimStart cs)
  simpa using List.rdropWhile_eq_self_iff.1 hend (by simp)

/-- Trimming leaves exactly those texts alone that have no blank at either end. -/
theorem trim_eq_self_iff {cs : List Char} :
    trim cs = cs ↔
      (∀ c ∈ cs.head?, isBlank c = false) ∧ ∀ c ∈ cs.getLast?, isBlank c = false := by
  constructor
  · intro h
    -- both steps only drop characters, so neither of them dropped any
    have hstart : trimStart cs = cs := by
      refine (List.dropWhile_suffix isBlank).eq_of_length_le ?_
      calc
        cs.length = (trim cs).length := by rw [h]
        _ ≤ (trimStart cs).length := (List.rdropWhile_prefix isBlank _).length_le
    constructor
    · intro c hc
      cases cs with
      | nil => cases hc
      | cons x xs =>
          cases hc
          simpa using List.dropWhile_eq_self_iff.1 hstart (Nat.zero_lt_succ _)
    · intro c hc
      rcases List.getLast?_eq_some_iff.1 hc with ⟨front, rfl⟩
      exact isBlank_of_trim_eq_concat h
  · rintro ⟨hhead, hlast⟩
    have hstart : trimStart cs = cs := by
      cases cs with
      | nil => rfl
      | cons x xs => exact List.dropWhile_cons_of_neg (by simp [hhead x rfl])
    have hend : cs.rdropWhile isBlank = cs := by
      rw [List.rdropWhile_eq_self_iff]
      intro hne
      simp [hlast _ (List.getLast?_eq_getLast_of_ne_nil hne)]
    rw [trim, hstart]
    exact hend

/-- A trimmed text does not end in blanks. -/
theorem eq_empty_of_trimmed {text front back : String} (h : trimmed text = front ++ back)
    (hback : trimmed back = "") : back = "" := by
  have hblank : ∀ c ∈ back.toList, isBlank c = true := by
    rw [← trim_eq_nil_iff, ← String.toList_ofList (l := trim back.toList)]
    exact congrArg String.toList hback
  cases back.toList.eq_nil_or_concat' with
  | inl hnil => exact String.toList_eq_nil_iff.1 hnil
  | inr hconcat =>
      rcases hconcat with ⟨cs, c, hcs⟩
      have htext : trim text.toList = (front.toList ++ cs) ++ [c] := by
        rw [List.append_assoc, ← hcs, ← String.toList_append, ← h, trimmed, String.toList_ofList]
      have hc : isBlank c = true := hblank c (by simp [hcs])
      rw [isBlank_of_trim_eq_concat htext] at hc
      cases hc

end Text
end GreetingService
