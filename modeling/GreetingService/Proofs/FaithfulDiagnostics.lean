import GreetingService.Greeting.Replay
import GreetingService.Proofs.QuotedText

/-!
# What an invocation reports

An invocation reports whether the handler was warm, then the three fields of the request, and then,
in one more line, a greeting that was asked for and not accepted. Whatever the fields hold, these
lines stay lines, and nothing else could have been reported in the same words: they determine the
mark of the handler and the whole request.
-/

namespace GreetingService
namespace Handler

open Log (Diagnostic)
open Text (IsOneLine)

/-- A request asks for a greeting that the policy of the handler does not accept. -/
def Refuses (h : Handler) (r : Request) : Prop :=
  ∃ value, r.field1 = some value ∧ h.policy.accepts value = false

theorem rejects_eq_true_iff {h : Handler} {r : Request} : h.rejects r = true ↔ h.Refuses r := by
  cases hfield : r.field1 with
  | none => simp [rejects, Refuses, hfield]
  | some value => simp [rejects, accepted, Refuses, hfield]

/-! ## The lines -/

/-- The diagnostics of an invocation in front of the last one, which is not always there. -/
theorem diagnostics_eq (h : Handler) (r : Request) :
    h.diagnostics r = [.warmth h.warm, .field .field1 r.field1, .field .field2 r.field2,
      .field .field3 r.field3] ++ (if h.rejects r then [.emptyIgnored] else []) :=
  rfl

theorem isOneLine_text_field (f : Request.Field) (value : Option String) :
    IsOneLine (Diagnostic.field f value).text := by
  have hname : IsOneLine (f.name ++ " = ") := by cases f <;> decide
  exact Text.isOneLine_append.2 ⟨hname, Text.Quoted.isOneLine_optional value⟩

theorem isOneLine_text_of_mem {h : Handler} {r : Request} {d : Diagnostic}
    (hd : d ∈ h.diagnostics r) : IsOneLine d.text := by
  rw [diagnostics_eq, List.mem_append] at hd
  rcases hd with hfront | hlast
  · simp only [List.mem_cons, List.not_mem_nil, or_false] at hfront
    rcases hfront with rfl | rfl | rfl | rfl
    · cases h.warm <;> decide
    · exact isOneLine_text_field .field1 r.field1
    · exact isOneLine_text_field .field2 r.field2
    · exact isOneLine_text_field .field3 r.field3
  · have hignored : d = .emptyIgnored := by
      cases hrejects : h.rejects r <;> simp_all
    subst hignored
    decide

/-! ## What the lines determine -/

theorem text_warmth_inj {warm warm' : Bool}
    (h : (Diagnostic.warmth warm).text = (Diagnostic.warmth warm').text) : warm = warm' := by
  revert h
  cases warm <;> cases warm' <;> decide

theorem text_field_inj {f : Request.Field} {value value' : Option String}
    (h : (Diagnostic.field f value).text = (Diagnostic.field f value').text) : value = value' := by
  have hline : f.name ++ " = " ++ Text.Quoted.optional value
      = f.name ++ " = " ++ Text.Quoted.optional value' := h
  exact Text.Quoted.optional_injective ((String.append_right_inj _).1 hline)

/-- Where lines begin with those of an invocation, these tell the mark and the request, and what
follows them is the refusal, if there was one, and the rest. -/
theorem front_of_lines_eq {h h' : Handler} {r r' : Request} {rest rest' : List String}
    (heq : (h.diagnostics r).map Diagnostic.text ++ rest
      = (h'.diagnostics r').map Diagnostic.text ++ rest') :
    h.warm = h'.warm ∧ r = r' ∧
      (if h.rejects r then [Diagnostic.emptyIgnored] else []).map Diagnostic.text ++ rest
        = (if h'.rejects r' then [Diagnostic.emptyIgnored] else []).map Diagnostic.text ++ rest' := by
  simp only [diagnostics_eq, List.cons_append, List.nil_append, List.map_cons,
    List.cons.injEq] at heq
  rcases heq with ⟨hwarm, hfield1, hfield2, hfield3, hlast⟩
  have hrequest : r = r' :=
    Request.ext (text_field_inj hfield1) (text_field_inj hfield2) (text_field_inj hfield3)
  exact ⟨text_warmth_inj hwarm, hrequest, hlast⟩

theorem map_text_diagnostics_eq_iff {h h' : Handler} {r r' : Request} :
    (h.diagnostics r).map Diagnostic.text = (h'.diagnostics r').map Diagnostic.text ↔
      h.warm = h'.warm ∧ r = r' ∧ (h.Refuses r ↔ h'.Refuses r') := by
  rw [← rejects_eq_true_iff, ← rejects_eq_true_iff]
  constructor
  · intro hlines
    have hfront : (h.diagnostics r).map Diagnostic.text ++ []
        = (h'.diagnostics r').map Diagnostic.text ++ [] := by rw [hlines]
    rcases front_of_lines_eq hfront with ⟨hwarm, hrequest, hlast⟩
    refine ⟨hwarm, hrequest, ?_⟩
    -- the last line is there in both or in neither
    cases hrejects : h.rejects r <;> cases hrejects' : h'.rejects r' <;> simp_all
  · rintro ⟨hwarm, rfl, hrefuses⟩
    have hlast : h.rejects r = h'.rejects r := Bool.eq_iff_iff.2 hrefuses
    rw [diagnostics_eq, diagnostics_eq, hwarm, hlast]

/-! ## Faithfulness -/

/-- An invocation reports the mark of the handler and the three fields in order, with texts quoted,
and then whether a greeting was refused. None of its diagnostics takes more than one line, and two
invocations have the same lines exactly if they found the same mark and the same request and refused
a greeting both or neither. -/
theorem diagnostics_faithful (h : Handler) (holder : Holder) (r : Request) :
    (∃ last, (h.invoke holder r).diagnostics.map (fun d => (d.level, d.text))
        = [(.info, "isWarm = " ++ toString h.warm),
            (.info, "field1 = " ++ Text.Quoted.optional r.field1),
            (.info, "field2 = " ++ Text.Quoted.optional r.field2),
            (.info, "field3 = " ++ Text.Quoted.optional r.field3)] ++ last ∧
        (h.Refuses r ∧ last = [(.debug, "Ignoring empty field1")] ∨
          ¬ h.Refuses r ∧ last = [])) ∧
    (∀ d ∈ (h.invoke holder r).diagnostics, '\n' ∉ d.text.toList ∧ '\r' ∉ d.text.toList) ∧
    ∀ (h' : Handler) (holder' : Holder) (r' : Request),
      (h.invoke holder r).diagnostics.map Diagnostic.text
          = (h'.invoke holder' r').diagnostics.map Diagnostic.text ↔
        (h.invoke holder r).warm = (h'.invoke holder' r').warm ∧ r = r' ∧
          (h.Refuses r ↔ h'.Refuses r') := by
  refine ⟨?_, ?_, ?_⟩
  · refine ⟨if h.rejects r then [(.debug, "Ignoring empty field1")] else [], ?_, ?_⟩
    · have hwarm : (Diagnostic.warmth h.warm).text = "isWarm = " ++ toString h.warm := by
        cases h.warm <;> rfl
      show (h.diagnostics r).map (fun d => (d.level, d.text)) = _
      rw [diagnostics_eq, ← hwarm, List.map_append]
      cases h.rejects r <;> rfl
    · rw [← rejects_eq_true_iff]
      cases h.rejects r <;> simp
  · intro d hd
    have hline : IsOneLine d.text := isOneLine_text_of_mem hd
    exact ⟨fun hfeed => hline _ hfeed (Or.inl rfl), fun hreturn => hline _ hreturn (Or.inr rfl)⟩
  · intro h' holder' r'
    exact map_text_diagnostics_eq_iff

/-- A request whose first field looks like the lines of another request. -/
def imitation : Request :=
  ⟨some "a\")\nfield2 = None\nfield3 = None\nisWarm = true\nfield1 = Some(\"b", none, none⟩

/-- The imitation stays on one line, and an absent field is not taken for the word for it. -/
theorem diagnostics_faithful_imitation :
    ('\n' ∉ (Diagnostic.field .field1 imitation.field1).text.toList ∧
      '\r' ∉ (Diagnostic.field .field1 imitation.field1).text.toList) ∧
    ((cold .ignore).invoke .default ⟨some "None", none, none⟩).diagnostics.map Diagnostic.text
      ≠ ((cold .ignore).invoke .default ⟨none, none, none⟩).diagnostics.map Diagnostic.text := by
  have hmem : Diagnostic.field .field1 imitation.field1
      ∈ ((cold .overwrite).invoke .default imitation).diagnostics := by
    simp [invoke, diagnostics_eq]
  rcases diagnostics_faithful (cold .overwrite) .default imitation with ⟨_, hlines, _⟩
  rcases diagnostics_faithful (cold .ignore) .default ⟨some "None", none, none⟩ with ⟨_, _, hsame⟩
  refine ⟨hlines _ hmem, ?_⟩
  intro heq
  have hrequest := ((hsame (cold .ignore) .default ⟨none, none, none⟩).1 heq).2.1
  exact absurd (congrArg Request.field1 hrequest) (by decide)

/-! ## Lines of a run -/

/-- Only the first line of an invocation can begin what is reported after another one. -/
theorem head?_lines_serve_ne (h : Handler) (holder : Holder) (rs : List Request) :
    ((Replay.serve h holder rs).diagnostics.map Diagnostic.text).head?
      ≠ some Diagnostic.emptyIgnored.text := by
  cases rs with
  | nil => simp [Replay.serve]
  | cons r rs =>
      have hfirst : (Diagnostic.warmth h.warm).text ≠ Diagnostic.emptyIgnored.text := by
        cases h.warm <;> decide
      exact fun heq => hfirst (Option.some.inj heq)

/-- The lines of a whole run tell where one invocation ends and the next begins, so that they
determine all its requests. -/
theorem requests_eq_of_lines_eq {h h' : Handler} {holder holder' : Holder} {rs rs' : List Request}
    (heq : (Replay.serve h holder rs).diagnostics.map Diagnostic.text
      = (Replay.serve h' holder' rs').diagnostics.map Diagnostic.text) : rs = rs' := by
  -- the handlers and holders may differ, and they go on from wherever the first request leaves them
  induction rs generalizing h h' holder holder' rs' with
  | nil =>
      cases rs' with
      | nil => rfl
      | cons r' rs' => cases heq
  | cons r rs ih =>
      cases rs' with
      | nil => cases heq
      | cons r' rs' =>
          simp only [Replay.serve, invoke, List.map_append] at heq
          rcases front_of_lines_eq heq with ⟨_, hr, hrest⟩
          -- a refusal in one of the runs alone would stand where the next invocation begins
          have hrs : rs = rs' := by
            cases hrejects : h.rejects r <;> cases hrejects' : h'.rejects r' <;>
              simp only [hrejects, hrejects', if_true, if_false, Bool.false_eq_true,
                List.map_cons, List.map_nil, List.nil_append, List.cons_append,
                List.cons.injEq, true_and] at hrest
            · exact ih hrest
            · exact absurd (congrArg List.head? hrest) (head?_lines_serve_ne _ _ _)
            · exact absurd (congrArg List.head? hrest.symm) (head?_lines_serve_ne _ _ _)
            · exact ih hrest
          rw [hr, hrs]

end Handler
end GreetingService
