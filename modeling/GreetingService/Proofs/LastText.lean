import Mathlib.Data.List.Induction

/-!
# The last text written

A holder says the last text written into it, or else what it said in the beginning. How this goes on
when more is written, and when clients write one after another, some of them nothing.
-/

namespace GreetingService
namespace LastText

variable {α : Type}

theorem getLastD_append (ts ts' : List String) (m : String) :
    (ts ++ ts').getLastD m = ts'.getLastD (ts.getLastD m) := by
  simp only [List.getLastD_eq_getLast?, List.getLast?_append]
  cases ts'.getLast? <;> rfl

theorem getLastD_toList (text : Option String) (m : String) :
    text.toList.getLastD m = text.getD m := by
  cases text <;> rfl

theorem getLastD_filter_toList (p : String → Bool) (text : Option String) (m : String) :
    (text.toList.filter p).getLastD m = (text.filter p).getD m := by
  rw [← Option.toList_filter, getLastD_toList]

/-- Whoever comes first leaves its own text to the others, if it writes any. -/
theorem getLastD_filterMap_cons (text : α → Option String) (a : α) (as : List α) (m : String) :
    ((a :: as).filterMap text).getLastD m = (as.filterMap text).getLastD ((text a).getD m) := by
  rw [List.filterMap_cons]
  cases text a with
  | none => rfl
  | some t => rw [List.getLastD_cons]; rfl

/-- If anything was written, then it is a text that was written. -/
theorem getLastD_mem {ts : List String} (h : ts ≠ []) (m : String) : ts.getLastD m ∈ ts := by
  cases ts with
  | nil => exact absurd rfl h
  | cons t ts =>
      rw [List.getLastD_cons]
      exact List.getLastD_mem_cons

/-- A text is the last one if it was written last, or if nothing was written and it was there. -/
theorem getLastD_eq_iff {ts : List String} {m t : String} :
    ts.getLastD m = t ↔ ts.getLast? = some t ∨ ts = [] ∧ m = t := by
  cases ts using List.reverseRecOn with
  | nil => simp
  | append_singleton ts last => simp

/-- What holds of the first text and of all that are written holds of the last one. -/
theorem getLastD_of_forall (p : String → Prop) {ts : List String} {m : String}
    (hts : ∀ t ∈ ts, p t) (hm : p m) : p (ts.getLastD m) := by
  by_cases h : ts = []
  · subst h
    exact hm
  · exact hts _ (getLastD_mem h m)

end LastText
end GreetingService
