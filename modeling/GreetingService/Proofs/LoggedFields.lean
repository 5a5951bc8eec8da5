import GreetingService.Proofs.History

/-!
# Fields that are only logged

The second and the third field of a request are reported and have no other effect. Two servers that
begin alike and are sent requests with the same first fields, each delivered in the same way, give
the same results and stay alike after every request. Line by line they report the same, but for the
lines that show one of these fields.
-/

namespace GreetingService

/-- Two diagnostics are the same, or they show the same field, which is only logged. -/
inductive Log.Diagnostic.SameButLogged : Log.Diagnostic → Log.Diagnostic → Prop where
  | same (d : Log.Diagnostic) : SameButLogged d d
  | field2 (value value' : Option String) :
      SameButLogged (.field .field2 value) (.field .field2 value')
  | field3 (value value' : Option String) :
      SameButLogged (.field .field3 value) (.field .field3 value')

namespace Session

/-- A request, and how it is delivered. -/
structure Delivery where
  entrance : Entrance
  request : Request

/-- The step in which a server is sent a delivery. -/
def Delivery.step (server : Server) (d : Delivery) : Step :=
  .serve server d.entrance d.request

/-- Two deliveries differ at most in the fields that are only logged. -/
structure Delivery.SameButLogged (d d' : Delivery) : Prop where
  entrance : d.entrance = d'.entrance
  field1 : d.request.field1 = d'.request.field1

/-- The outcomes of steps taken one after another; there are none if one is refused. -/
def outcomes (s : Session) : List Step → Option (List Outcome)
  | [] => some []
  | st :: steps => do
    let out ← s.step st
    let others ← out.session.outcomes steps
    return out :: others

/-- Two servers in two sessions are minimal handlers, or they are handlers with the same policy and
the same mark whose holders say the same greeting. -/
inductive Alike (s s' : Session) : Server → Server → Prop where
  | minimal : Alike s s' .minimal .minimal
  | handler {k k' n n' : Nat} {h : Handler} {holder : Holder}
      (hattached : s.handlers[k]? = some ⟨h, n⟩) (hholder : s.holders[n]? = some holder)
      (hattached' : s'.handlers[k']? = some ⟨h, n'⟩) (hholder' : s'.holders[n']? = some holder) :
      Alike s s' (.handler k) (.handler k')

/-- Two outcomes have the same result, leave the servers alike, and report the same but for the
fields that are only logged. -/
structure Outcome.SameButLogged (server server' : Server) (out out' : Outcome) : Prop where
  result : out.result = out'.result
  alike : Alike out.session out'.session server server'
  diagnostics : List.Forall₂ Log.Diagnostic.SameButLogged out.diagnostics out'.diagnostics

/-! ## One request -/

theorem sameButLogged_refl (ds : List Log.Diagnostic) :
    List.Forall₂ Log.Diagnostic.SameButLogged ds ds :=
  List.forall₂_same.2 fun d _ => .same d

theorem ofFields_sameButLogged {r r' : Request} (h : r.field1 = r'.field1) :
    List.Forall₂ Log.Diagnostic.SameButLogged (Log.ofFields r) (Log.ofFields r') := by
  unfold Log.ofFields
  rw [h]
  exact .cons (.same _) (.cons (.field2 _ _) (.cons (.field3 _ _) .nil))

theorem diagnostics_sameButLogged (h : Handler) {r r' : Request} (hfield : r.field1 = r'.field1) :
    List.Forall₂ Log.Diagnostic.SameButLogged (h.diagnostics r) (h.diagnostics r') := by
  have hrejects : h.rejects r = h.rejects r' := by
    simp only [Handler.rejects, Handler.accepted, hfield]
  have hlast : List.Forall₂ Log.Diagnostic.SameButLogged
      (if h.rejects r then [.emptyIgnored] else []) (if h.rejects r' then [.emptyIgnored] else []) := by
    rw [hrejects]
    exact sameButLogged_refl _
  exact List.rel_append (.cons (.same _) (ofFields_sameButLogged hfield)) hlast

/-- One request, delivered to servers that are alike. -/
theorem step_sameButLogged {s s' : Session} {server server' : Server}
    (h : Alike s s' server server') {d d' : Delivery} (hd : d.SameButLogged d') :
    ∃ out out', s.step (d.step server) = some out ∧ s'.step (d'.step server') = some out' ∧
      Outcome.SameButLogged server server' out out' := by
  rcases d with ⟨entrance, r⟩
  rcases d' with ⟨entrance', r'⟩
  rcases hd with ⟨hentrance, hfield⟩
  simp only at hentrance hfield
  subst hentrance
  cases h with
  | minimal =>
      refine ⟨_, _, rfl, rfl, rfl, .minimal, ?_⟩
      exact List.rel_append (sameButLogged_refl _) (ofFields_sameButLogged hfield)
  | @handler k k' n n' h holder hattached hholder hattached' hholder' =>
      rcases serve_eq_some hattached hholder r with ⟨t, hserve, hhandler, hkept⟩
      rcases serve_eq_some hattached' hholder' r' with ⟨t', hserve', hhandler', hkept'⟩
      -- the greeting that is taken depends on the first field alone
      have haccepted : h.accepted r' = h.accepted r := by simp only [Handler.accepted, hfield]
      have hsame : (h.invoke holder r').holder = (h.invoke holder r).holder := by
        simp only [Handler.invoke, haccepted]
      rw [hsame] at hkept'
      refine ⟨⟨t, .served h.warm (h.invoke holder r).response,
          entrance.diagnostics ++ h.diagnostics r⟩,
        ⟨t', .served h.warm (h.invoke holder r').response,
          entrance.diagnostics ++ h.diagnostics r'⟩, ?_, ?_, ?_, ?_, ?_⟩
      · simp only [Delivery.step, step, hserve]
        rfl
      · simp only [Delivery.step, step, hserve']
        rfl
      · simp only [Handler.invoke, haccepted]
      · exact .handler hhandler hkept hhandler' hkept'
      · exact List.rel_append (sameButLogged_refl _) (diagnostics_sameButLogged h hfield)

/-! ## All requests -/

/-- Servers that are alike, sent requests which differ at most in the fields that are only logged
and are delivered in the same ways, give the same results, are alike after every request, and report
the same but for the lines that show these fields. -/
theorem outcomes_same_but_logged {s s' : Session} {server server' : Server}
    (halike : Alike s s' server server') {ds ds' : List Delivery}
    (hds : List.Forall₂ Delivery.SameButLogged ds ds') :
    ∃ outs outs', s.outcomes (ds.map (Delivery.step server)) = some outs ∧
      s'.outcomes (ds'.map (Delivery.step server')) = some outs' ∧
      outs.length = ds.length ∧ outs'.length = ds'.length ∧
      List.Forall₂ (Outcome.SameButLogged server server') outs outs' := by
  -- on both lists together: after each request the servers are alike again
  induction hds generalizing s s' with
  | nil => exact ⟨[], [], rfl, rfl, rfl, rfl, .nil⟩
  | @cons d d' ds ds' hd _ ih =>
      rcases step_sameButLogged halike hd with ⟨out, out', hout, hout', hsame⟩
      rcases ih hsame.alike with ⟨outs, outs', houts, houts', hlength, hlength', hrest⟩
      refine ⟨out :: outs, out' :: outs', ?_, ?_, ?_, ?_, .cons hsame hrest⟩
      · simp only [List.map_cons, outcomes, hout, houts, bind, Option.bind]
        rfl
      · simp only [List.map_cons, outcomes, hout', houts', bind, Option.bind]
        rfl
      · rw [List.length_cons, List.length_cons, hlength]
      · rw [List.length_cons, List.length_cons, hlength']

/-- A session with one handler. -/
def alone : Session := ⟨[⟨"a"⟩], [], [⟨.cold .ignore, 0⟩]⟩

/-- A session whose second handler is like the one that is alone. -/
def beside : Session := ⟨[⟨"b"⟩, ⟨"a"⟩], [], [⟨.cold .overwrite, 0⟩, ⟨.cold .ignore, 1⟩]⟩

/-- The second request asks for an empty greeting, and its third field imitates the first one. -/
theorem outcomes_same_but_logged_beside :
    Alike alone beside (.handler 0) (.handler 1) ∧
    ∃ outs outs',
      alone.outcomes [.serve (.handler 0) (.event "1" "f") ⟨some "c", none, none⟩,
        .serve (.handler 0) .invoke ⟨some "", some "d", none⟩] = some outs ∧
      beside.outcomes [.serve (.handler 1) (.event "1" "f") ⟨some "c", some "", none⟩,
        .serve (.handler 1) .invoke ⟨some "", none, some "field1"⟩] = some outs' ∧
      List.Forall₂ (Outcome.SameButLogged (.handler 0) (.handler 1)) outs outs' := by
  have halike : Alike alone beside (.handler 0) (.handler 1) :=
    Alike.handler rfl rfl rfl rfl
  have hfirst : Delivery.SameButLogged ⟨.event "1" "f", ⟨some "c", none, none⟩⟩
      ⟨.event "1" "f", ⟨some "c", some "", none⟩⟩ := ⟨rfl, rfl⟩
  have hsecond : Delivery.SameButLogged ⟨.invoke, ⟨some "", some "d", none⟩⟩
      ⟨.invoke, ⟨some "", none, some "field1"⟩⟩ := ⟨rfl, rfl⟩
  rcases outcomes_same_but_logged halike (.cons hfirst (.cons hsecond .nil)) with
    ⟨outs, outs', houts, houts', _, _, hsame⟩
  exact ⟨halike, outs, outs', houts, houts', hsame⟩

end Session
end GreetingService
