import GreetingService.Proofs.EventReplay

/-!
# The minimal handler beside a full one

The minimal handler reports what any other handler reports, less the lines about a state that it
does not have. Its answers are those of a handler that begins with the same greeting for as long as
no other greeting is asked for, and again whenever the last one that was accepted is that greeting.
-/

namespace GreetingService

/-- Whether a diagnostic is about the state of a handler: its mark, or a greeting not accepted. -/
def Log.Diagnostic.isOfState : Log.Diagnostic → Bool
  | .warmth _ | .emptyIgnored => true
  | _ => false

namespace Replay

/-! ## Diagnostics -/

theorem filter_diagnostics (h : Handler) (r : Request) :
    (h.diagnostics r).filter (fun d => !d.isOfState) = minimalDiagnostics r := by
  unfold Handler.diagnostics
  cases h.rejects r with
  | false => rfl
  | true => rfl

theorem filter_diagnostics_serve (handler : Handler) (holder : Holder) (rs : List Request) :
    (serve handler holder rs).diagnostics.filter (fun d => !d.isOfState)
      = rs.flatMap minimalDiagnostics := by
  induction rs generalizing handler holder with
  | nil => rfl
  | cons r rs ih =>
      calc
        (serve handler holder (r :: rs)).diagnostics.filter (fun d => !d.isOfState)
            = (handler.diagnostics r).filter (fun d => !d.isOfState)
              ++ (serve handler.warmed (handler.invoke holder r).holder rs).diagnostics.filter
                (fun d => !d.isOfState) := List.filter_append _ _
        _ = minimalDiagnostics r ++ rs.flatMap minimalDiagnostics := by
            rw [filter_diagnostics, ih]
        _ = (r :: rs).flatMap minimalDiagnostics := List.flatMap_cons.symm

/-! ## Answers -/

/-- The answers of the minimal handler and of one that begins with its greeting are the same exactly
where the last greeting accepted so far is that one, or none has been accepted. The diagnostics of
the minimal handler are those of any other without the ones about its state. -/
theorem minimal_beside_full (policy : Policy) (rs : List Request) :
    (∀ (handler handler' : Handler) (holder holder' : Holder),
      (serveMinimal handler' holder' rs).diagnostics
        = (serve handler holder rs).diagnostics.filter fun d => !d.isOfState) ∧
    ∀ (warm : Bool) (handler' : Handler) (holder' : Holder) (k : Nat), k < rs.length →
      ∃ full minimal, (serve ⟨policy, warm⟩ .default rs).responses[k]? = some full ∧
        (serveMinimal handler' holder' rs).responses[k]? = some minimal ∧
        (full = minimal ↔
          (policy.acceptedTexts (rs.take (k + 1))).getLast? = some helloWorld ∨
            policy.acceptedTexts (rs.take (k + 1)) = []) := by
  constructor
  · intro handler handler' holder holder'
    exact (filter_diagnostics_serve handler holder rs).symm
  · intro warm handler' holder' k hk
    have hr : rs[k]? = some rs[k] := List.getElem?_eq_getElem hk
    refine ⟨⟨(policy.acceptedTexts (rs.take (k + 1))).getLastD helloWorld⟩, minimalResponse, ?_,
      ?_, ?_⟩
    · rw [getElem?_responses_serve, hr]
      rfl
    · simp only [serveMinimal, List.getElem?_map, hr, Option.map_some]
    · -- the full handler says the last accepted text, or else what it began with
      have hequal : ∀ m, (⟨m⟩ : Response) = minimalResponse ↔ m = helloWorld := by
        simp [minimalResponse]
      rw [hequal, LastText.getLastD_eq_iff]
      simp

/-- The greeting is left for another one, and an empty one that is not accepted does not bring it
back; asking for it does. -/
theorem minimal_beside_full_returning :
    ∃ full minimal,
      (serve (.cold .ignore) .default [⟨some "Hi", none, none⟩, ⟨some "", none, none⟩,
        ⟨some helloWorld, none, none⟩, .empty]).responses[3]? = some full ∧
      (serveMinimal (.cold .ignore) .default [⟨some "Hi", none, none⟩, ⟨some "", none, none⟩,
        ⟨some helloWorld, none, none⟩, .empty]).responses[3]? = some minimal ∧ full = minimal := by
  rcases minimal_beside_full .ignore [⟨some "Hi", none, none⟩, ⟨some "", none, none⟩,
    ⟨some helloWorld, none, none⟩, .empty] with ⟨_, hanswers⟩
  rcases hanswers false (.cold .ignore) .default 3 (by decide) with
    ⟨full, minimal, hfull, hminimal, hiff⟩
  exact ⟨full, minimal, hfull, hminimal, hiff.2 (Or.inl (by decide))⟩

end Replay
end GreetingService
