import GreetingService.Proofs.History
import GreetingService.Proofs.LastText

/-!
# Sessions follow their history

Every step leads from the session that the history expects to the one that the longer history
expects, and gives back what the history foretells. By induction on the steps this holds all along
every run, however many handlers share a holder and whenever they were made.
-/

namespace GreetingService
namespace Session

open LastText

/-! ## One step -/

/-- A step that creates nothing moves the message of a holder on by what it writes into it. -/
theorem message?_concat {steps : List Step} {st : Step}
    (hr : ((roster steps).enlist st).initials = (roster steps).initials) (n : Nat) :
    message? (steps ++ [st]) n
      = (message? steps n).map fun m => ((roster steps).writes n st).getLastD m := by
  rw [message?, roster_concat, hr, message?, Option.map_map]
  congr 1
  funext initial
  rw [written_concat, getLastD_append]
  rfl

section Step

variable {steps : List Step} {st : Step}

theorem holders_expected_concat
    (hr : ((roster steps).enlist st).initials = (roster steps).initials) {n : Nat}
    {texts : List String} (hw : ∀ m, (roster steps).writes m st = if n = m then texts else [])
    {old : Holder} (hold : (expected steps).holders[n]? = some old) :
    (expected (steps ++ [st])).holders
      = (expected steps).holders.set n ⟨texts.getLastD old.message⟩ := by
  apply List.ext_getElem?
  intro m
  rw [List.getElem?_set, getElem?_holders_expected, message?_concat hr, hw m]
  by_cases hnm : n = m
  · subst hnm
    have hlt : n < (expected steps).holders.length := (List.getElem?_eq_some_iff.1 hold).1
    rw [getElem?_holders_expected] at hold
    rcases Option.map_eq_some_iff.1 hold with ⟨message, hmessage, rfl⟩
    simp [hlt, hmessage]
  · -- the other holders get nothing
    rw [if_neg hnm, if_neg hnm, getElem?_holders_expected, Option.map_map]
    rfl

theorem holders_expected_concat_of_inert (steps : List Step) (st : Step)
    (hr : ((roster steps).enlist st).initials = (roster steps).initials)
    (hw : ∀ m, (roster steps).writes m st = []) :
    (expected (steps ++ [st])).holders = (expected steps).holders := by
  apply List.ext_getElem?
  intro m
  rw [getElem?_holders_expected, message?_concat hr, hw m, getElem?_holders_expected]
  cases message? steps m <;> rfl

theorem handlers_expected_concat_of_inert (steps : List Step) (st : Step)
    (hr : ((roster steps).enlist st).posts = (roster steps).posts)
    (hs : ∀ k, st.calls k = false) :
    (expected (steps ++ [st])).handlers = (expected steps).handlers := by
  apply List.ext_getElem?
  intro k
  rw [getElem?_handlers_expected, getElem?_handlers_expected, roster_concat, hr, hasServed_concat,
    hs k, Bool.or_false]

theorem components_expected_concat (steps : List Step) (st : Step) :
    (expected (steps ++ [st])).components = ((roster steps).enlist st).components := by
  rw [expected, roster_concat]

/-- A step that neither creates nor writes nor serves leaves the session as it is. -/
theorem expected_concat_of_inert (hr : (roster steps).enlist st = roster steps)
    (hw : ∀ m, (roster steps).writes m st = []) (hs : ∀ k, st.calls k = false) :
    expected (steps ++ [st]) = expected steps :=
  Session.ext (holders_expected_concat_of_inert steps st (congrArg Roster.initials hr) hw)
    ((components_expected_concat steps st).trans (congrArg Roster.components hr))
    (handlers_expected_concat_of_inert steps st (congrArg Roster.posts hr) hs)

/-- A step that writes into one holder and does nothing else. -/
theorem expected_concat_of_write (hr : (roster steps).enlist st = roster steps) {n : Nat}
    {texts : List String} (hw : ∀ m, (roster steps).writes m st = if n = m then texts else [])
    (hs : ∀ k, st.calls k = false) {old : Holder} (hold : (expected steps).holders[n]? = some old) :
    expected (steps ++ [st])
      = (expected steps).setHolder n ⟨texts.getLastD old.message⟩ :=
  Session.ext (holders_expected_concat (congrArg Roster.initials hr) hw hold)
    ((components_expected_concat steps st).trans (congrArg Roster.components hr))
    (handlers_expected_concat_of_inert steps st (congrArg Roster.posts hr) hs)

/-- Creating a holder. -/
theorem holders_expected_concat_of_create (h : Consistent steps) (st : Step) {initial : String}
    (hr : ((roster steps).enlist st).initials = (roster steps).initials ++ [initial])
    (hw : ∀ m, (roster steps).writes m st = []) :
    (expected (steps ++ [st])).holders = (expected steps).holders ++ [⟨initial⟩] := by
  have hwritten : ∀ n, written (steps ++ [st]) n = written steps n := by
    intro n
    rw [written_concat, hw n, List.append_nil]
  -- nothing has been written yet into what does not exist yet
  have hnew : written steps (roster steps).initials.length = [] :=
    h.written_nil _ (Nat.le_refl _)
  simp only [expected, roster_concat, hr, hwritten, List.mapIdx_append]
  simp [hnew]

/-- Creating a handler. -/
theorem handlers_expected_concat_of_create (h : Consistent steps) (st : Step) {post : Post}
    (hr : ((roster steps).enlist st).posts = (roster steps).posts ++ [post])
    (hs : ∀ k, st.calls k = false) :
    (expected (steps ++ [st])).handlers
      = (expected steps).handlers ++ [⟨.cold post.policy, post.holder⟩] := by
  have hserved : ∀ k, hasServed (steps ++ [st]) k = hasServed steps k := by
    intro k
    rw [hasServed_concat, hs k, Bool.or_false]
  have hnew : hasServed steps (roster steps).posts.length = false :=
    h.not_served _ (Nat.le_refl _)
  simp only [expected, roster_concat, hr, hserved, List.mapIdx_append]
  simp [hnew, Handler.cold]

end Step

/-! ## Serving -/

theorem accepted_of_post {r : Roster} {k : Nat} {post : Post} (hpost : r.posts[k]? = some post)
    (n : Nat) (texts : List String) :
    r.accepted n k texts
      = if post.holder = n then texts.filter post.policy.accepts else [] := by
  rw [Roster.accepted, hpost]

section Serving

variable {steps : List Step} {k : Nat} {post : Post} {m : String}

theorem handlers_expected_concat_of_serve (hpost : (roster steps).posts[k]? = some post)
    (entrance : Entrance) (request : Request) :
    (expected (steps ++ [.serve (.handler k) entrance request])).handlers
      = (expected steps).handlers.set k ⟨⟨post.policy, true⟩, post.holder⟩ := by
  apply List.ext_getElem?
  intro j
  rw [List.getElem?_set, getElem?_handlers_expected, getElem?_handlers_expected, roster_concat,
    hasServed_concat]
  have hlt : k < (expected steps).handlers.length := by
    rw [expected, List.length_mapIdx]
    exact (List.getElem?_eq_some_iff.1 hpost).1
  by_cases hkj : k = j
  · subst hkj
    simp [hlt, Roster.enlist, hpost, Step.calls]
  · have hne : (k == j) = false := beq_eq_false_iff_ne.2 hkj
    simp [hkj, hne, Roster.enlist, Step.calls]

/-- Having a request served does what the history says. -/
theorem serve_expected (hpost : (roster steps).posts[k]? = some post)
    (hm : message? steps post.holder = some m) (entrance : Entrance) (request : Request) :
    ∃ served : Invocation,
      (expected steps).serve k request
        = some (expected (steps ++ [.serve (.handler k) entrance request]), served) ∧
      served.warm = hasServed steps k ∧
      message? (steps ++ [.serve (.handler k) entrance request]) post.holder
        = some served.response.message := by
  have hr : ((roster steps).enlist (.serve (.handler k) entrance request)).initials
      = (roster steps).initials := rfl
  have hw : ∀ n, (roster steps).writes n (.serve (.handler k) entrance request)
      = if post.holder = n then request.field1.toList.filter post.policy.accepts else [] :=
    fun n => accepted_of_post hpost n _
  have hhandler : (expected steps).handlers[k]?
      = some ⟨⟨post.policy, hasServed steps k⟩, post.holder⟩ := by
    rw [getElem?_handlers_expected, hpost]
    rfl
  have hholder : (expected steps).holders[post.holder]? = some ⟨m⟩ := by
    rw [getElem?_holders_expected, hm]
    rfl
  refine ⟨Handler.invoke ⟨post.policy, hasServed steps k⟩ ⟨m⟩ request, ?_, rfl, ?_⟩
  · have hafter : expected (steps ++ [.serve (.handler k) entrance request])
        = { (expected steps).setHolder post.holder
              ⟨(request.field1.filter post.policy.accepts).getD m⟩ with
            handlers := (expected steps).handlers.set k ⟨⟨post.policy, true⟩, post.holder⟩ } := by
      refine Session.ext ?_ (components_expected_concat steps _)
        (handlers_expected_concat_of_serve hpost entrance request)
      rw [holders_expected_concat hr hw hholder, getLastD_filter_toList]
      rfl
    rw [hafter, serve, hhandler]
    simp only [bind, Option.bind, hholder]
    rfl
  · rw [message?_concat hr, hm, hw, if_pos rfl, Option.map_some, getLastD_filter_toList]
    rfl

end Serving

/-- Serving several greetings in one step comes to serving the first one and then the others. -/
theorem expected_serveAll_cons {steps : List Step} {k : Nat} (value : String)
    (values : List String) :
    expected (steps ++ [.serveAll k (value :: values)])
      = expected (steps ++ [.serve (.handler k) .invoke ⟨some value, none, none⟩]
          ++ [.serveAll k values]) := by
  have hroster : roster (steps ++ [.serveAll k (value :: values)])
      = roster (steps ++ [.serve (.handler k) .invoke ⟨some value, none, none⟩]
          ++ [.serveAll k values]) := by
    rw [roster_concat, roster_concat, roster_concat]
    rfl
  have hwritten : ∀ n, written (steps ++ [.serveAll k (value :: values)]) n
      = written (steps ++ [.serve (.handler k) .invoke ⟨some value, none, none⟩]
          ++ [.serveAll k values]) n := by
    intro n
    rw [written_concat, written_concat, written_concat, roster_concat, List.append_assoc]
    congr 1
    simp only [Roster.writes, Roster.enlist, Roster.accepted, Option.toList]
    cases (roster steps).posts[k]? with
    | none => rfl
    | some post =>
        by_cases hn : post.holder = n
        · simp only [if_pos hn, ← List.filter_append]
          rfl
        · simp only [if_neg hn, List.append_nil]
  have hserved : ∀ j, hasServed (steps ++ [.serveAll k (value :: values)]) j
      = hasServed (steps ++ [.serve (.handler k) .invoke ⟨some value, none, none⟩]
          ++ [.serveAll k values]) j := by
    intro j
    rw [hasServed_concat, hasServed_concat, hasServed_concat]
    simp only [Step.calls]
    cases hasServed steps j <;> cases (k == j) <;> simp
  -- the three parts of the history that the expected session is made of agree
  simp only [expected, hroster, hwritten, hserved]

theorem serveAll_expected {k : Nat} {post : Post} (values : List String) :
    ∀ {steps : List Step} {m : String}, (roster steps).posts[k]? = some post →
      message? steps post.holder = some m →
        ∃ served, (expected steps).serveAll k values
          = some (expected (steps ++ [.serveAll k values]), served) := by
  induction values with
  | nil =>
      intro steps m hpost _
      have hw : ∀ n, (roster steps).writes n (.serveAll k []) = [] := by
        intro n
        rw [Roster.writes, accepted_of_post hpost]
        split <;> rfl
      have hs : ∀ j, Step.calls j (.serveAll k []) = false := fun j => Bool.and_false _
      exact ⟨[], by rw [expected_concat_of_inert rfl hw hs]; rfl⟩
  | cons value values ih =>
      intro steps m hpost hm
      rcases serve_expected hpost hm .invoke ⟨some value, none, none⟩ with ⟨served, hserve, _, hm'⟩
      have hpost' : (roster (steps ++ [.serve (.handler k) .invoke
          ⟨some value, none, none⟩])).posts[k]? = some post := by
        rw [roster_concat]
        exact hpost
      rcases ih hpost' hm' with ⟨others, hothers⟩
      -- the others are served as if the first had been a step of its own
      refine ⟨served :: others, ?_⟩
      rw [expected_serveAll_cons, serveAll, hserve]
      simp only [bind, Option.bind, hothers]
      rfl

/-- A step that names only what exists is taken, does what the history says, and gives back what the
history foretells. -/
theorem step_expected {steps : List Step} (h : Consistent steps) {st : Step}
    (hk : (roster steps).knows st = true) :
    ∃ out, (expected steps).step st = some out ∧ out.session = expected (steps ++ [st]) ∧
      Foretold steps st out.result := by
  have hholder : ∀ n, n < (roster steps).initials.length →
      ∃ m, message? steps n = some m ∧ (expected steps).holders[n]? = some ⟨m⟩ :=
    fun n hn => exists_holder hn
  -- a handler that exists was made for a holder that exists
  have hhandler : ∀ k, k < (roster steps).posts.length → ∃ post m,
      (roster steps).posts[k]? = some post ∧ message? steps post.holder = some m := by
    intro k hlt
    have hpost := List.getElem?_eq_getElem hlt
    rcases hholder _ (h.post_lt _ (List.getElem_mem hlt)) with ⟨m, hm, _⟩
    exact ⟨_, m, hpost, hm⟩
  -- by the kind of step: what it creates, then what it writes, then what it serves
  cases st with
  | addHolder message =>
      have hholders := holders_expected_concat_of_create h (.addHolder message) rfl fun _ => rfl
      have hhandlers := handlers_expected_concat_of_inert steps (.addHolder message) rfl
        fun _ => rfl
      refine ⟨_, rfl, Session.ext ?_ ?_ ?_, trivial⟩
      · rw [hholders]
        cases message <;> rfl
      · exact (components_expected_concat steps (.addHolder message)).symm
      · exact hhandlers.symm
  | addComponent c =>
      have hholders := holders_expected_concat_of_create h (.addComponent c) rfl fun _ => rfl
      have hhandlers := handlers_expected_concat_of_inert steps (.addComponent c) rfl fun _ => rfl
      refine ⟨_, rfl, Session.ext ?_ ?_ ?_, trivial⟩
      · exact hholders.symm
      · rw [components_expected_concat]
        simp [addComponent, Roster.enlist, expected]
      · exact hhandlers.symm
  | addHandler holder policy =>
      rcases hholder holder (by simpa [Roster.knows] using hk) with ⟨m, _, hget⟩
      have hholders := holders_expected_concat_of_inert steps (.addHandler holder policy) rfl
        fun _ => rfl
      have hhandlers := handlers_expected_concat_of_create h (.addHandler holder policy) rfl
        fun _ => rfl
      refine ⟨_, by simp only [step, hget]; rfl, Session.ext ?_ ?_ ?_, trivial⟩
      · exact hholders.symm
      · exact (components_expected_concat steps (.addHandler holder policy)).symm
      · exact hhandlers.symm
  | addHandlerOf component =>
      have hlt : component < (roster steps).components.length := by simpa [Roster.knows] using hk
      have hget : (roster steps).components[component]?
          = some (roster steps).components[component] := List.getElem?_eq_getElem hlt
      have hr : (roster steps).enlist (.addHandlerOf component)
          = { roster steps with posts := (roster steps).posts ++
                [⟨(roster steps).components[component].config.emptyField1,
                  (roster steps).components[component].holder⟩] } := by
        rw [Roster.enlist, hget]
      have hholders := holders_expected_concat_of_inert steps (.addHandlerOf component) (by rw [hr])
        fun _ => rfl
      have hhandlers := handlers_expected_concat_of_create h (.addHandlerOf component) (by rw [hr])
        fun _ => rfl
      have hget' : (expected steps).components[component]?
          = some (roster steps).components[component] := hget
      refine ⟨_, by simp only [step, hget']; rfl, Session.ext ?_ ?_ ?_, trivial⟩
      · exact hholders.symm
      · rw [components_expected_concat, hr]
        rfl
      · exact hhandlers.symm
  | message n =>
      rcases hholder n (by simpa [Roster.knows] using hk) with ⟨m, hm, hget⟩
      refine ⟨_, by simp only [step, hget]; rfl, ?_, m, rfl, ?_⟩
      · exact (expected_concat_of_inert rfl (fun _ => rfl) fun _ => rfl).symm
      · rw [message?_concat rfl, hm]
        rfl
  | setMessage n value =>
      rcases hholder n (by simpa [Roster.knows] using hk) with ⟨m, hm, hget⟩
      have hw : ∀ j, (roster steps).writes j (.setMessage n value)
          = if n = j then [value] else [] := fun _ => rfl
      refine ⟨_, by simp only [step, hget]; rfl, ?_, trivial⟩
      exact (expected_concat_of_write rfl hw (fun _ => rfl) hget).symm
  | update n value =>
      rcases hholder n (by simpa [Roster.knows] using hk) with ⟨m, hm, hget⟩
      have hw : ∀ j, (roster steps).writes j (.update n value)
          = if n = j then value.toList else [] := fun _ => rfl
      refine ⟨_, by simp only [step, hget]; rfl, ?_, value.getD m, rfl, ?_⟩
      · rw [expected_concat_of_write rfl hw (fun _ => rfl) hget, getLastD_toList]
        rfl
      · rw [message?_concat rfl, hm, Roster.writes, if_pos rfl, Option.map_some, getLastD_toList]
  | holderOfComponent component =>
      have hlt : component < (roster steps).components.length := by simpa [Roster.knows] using hk
      have hget : (expected steps).components[component]?
          = some (roster steps).components[component] := List.getElem?_eq_getElem hlt
      refine ⟨_, by simp only [step, hget]; rfl, ?_, trivial⟩
      exact (expected_concat_of_inert rfl (fun _ => rfl) fun _ => rfl).symm
  | holderOfHandler k =>
      rcases hhandler k (by simpa [Roster.knows] using hk) with ⟨post, m, hpost, hm⟩
      have hget := getElem?_handlers_expected steps k
      rw [hpost] at hget
      refine ⟨_, by simp only [step, hget]; rfl, ?_, trivial⟩
      exact (expected_concat_of_inert rfl (fun _ => rfl) fun _ => rfl).symm
  | isWarm k =>
      rcases hhandler k (by simpa [Roster.knows] using hk) with ⟨post, m, hpost, hm⟩
      have hget := getElem?_handlers_expected steps k
      rw [hpost] at hget
      refine ⟨_, by simp only [step, hget]; rfl, ?_, _, rfl, List.any_eq_true⟩
      exact (expected_concat_of_inert rfl (fun _ => rfl) fun _ => rfl).symm
  | serve server entrance request =>
      cases server with
      | handler k =>
          rcases hhandler k (by simpa [Roster.knows] using hk) with ⟨post, m, hpost, hm⟩
          rcases serve_expected hpost hm entrance request with ⟨served, hserve, hwarm, hafter⟩
          refine ⟨_, by simp only [step, hserve]; rfl, rfl, ?_⟩
          refine ⟨served.warm, served.response.message, post, rfl, hpost, hafter, ?_⟩
          rw [hwarm]
          exact List.any_eq_true
      | minimal =>
          refine ⟨_, rfl, ?_, rfl⟩
          exact (expected_concat_of_inert rfl (fun _ => rfl) fun _ => rfl).symm
  | serveAll k values =>
      rcases hhandler k (by simpa [Roster.knows] using hk) with ⟨post, m, hpost, hm⟩
      rcases serveAll_expected values hpost hm with ⟨served, hserve⟩
      have hconcat := h.concat hk
      have hpost' : (roster (steps ++ [.serveAll k values])).posts[k]? = some post := by
        rw [roster_concat]
        exact hpost
      have hhandler' : (expected (steps ++ [.serveAll k values])).handlers[k]?
          = some ⟨⟨post.policy, hasServed (steps ++ [.serveAll k values]) k⟩, post.holder⟩ := by
        rw [getElem?_handlers_expected, hpost']
        rfl
      rcases exists_holder (hconcat.post_lt post (List.mem_of_getElem? hpost'))
        with ⟨last, hlast, hget⟩
      refine ⟨_, by simp only [step, hserve, bind, Option.bind, hhandler', hget]; rfl, rfl, ?_⟩
      exact ⟨_, _, last, post, rfl, hpost, hlast⟩

/-- A step that names something which does not exist is refused. -/
theorem step_expected_eq_none {steps : List Step} {st : Step}
    (hk : (roster steps).knows st = false) : (expected steps).step st = none := by
  have hholder : ∀ n, ¬ n < (roster steps).initials.length →
      (expected steps).holders[n]? = none := by
    intro n hn
    rw [List.getElem?_eq_none_iff, expected, List.length_mapIdx]
    omega
  have hcomponent : ∀ n, ¬ n < (roster steps).components.length →
      (expected steps).components[n]? = none := by
    intro n hn
    exact List.getElem?_eq_none_iff.2 (by simpa [expected] using hn)
  have hhandler : ∀ k, ¬ k < (roster steps).posts.length →
      (expected steps).handlers[k]? = none := by
    intro k hn
    rw [List.getElem?_eq_none_iff, expected, List.length_mapIdx]
    omega
  cases st with
  | addHolder message => cases hk
  | addComponent c => cases hk
  | addHandler holder policy =>
      simp only [step, hholder holder (of_decide_eq_false hk)]
      rfl
  | addHandlerOf component =>
      simp only [step, hcomponent component (of_decide_eq_false hk)]
      rfl
  | message n =>
      simp only [step, hholder n (of_decide_eq_false hk)]
      rfl
  | setMessage n value =>
      simp only [step, hholder n (of_decide_eq_false hk)]
      rfl
  | update n value =>
      simp only [step, hholder n (of_decide_eq_false hk)]
      rfl
  | holderOfComponent component =>
      simp only [step, hcomponent component (of_decide_eq_false hk)]
      rfl
  | holderOfHandler k =>
      simp only [step, hhandler k (of_decide_eq_false hk)]
      rfl
  | isWarm k =>
      simp only [step, hhandler k (of_decide_eq_false hk)]
      rfl
  | serve server entrance request =>
      cases server with
      | handler k =>
          simp only [step, serve, hhandler k (of_decide_eq_false hk)]
          rfl
      | minimal => cases hk
  | serveAll k values =>
      have hnone := hhandler k (of_decide_eq_false hk)
      cases values with
      | nil =>
          simp only [step, serveAll, bind, Option.bind, hnone]
      | cons value values =>
          simp only [step, serveAll, serve, bind, Option.bind, hnone]

/-! ## All steps -/

/-- A run leads to the session that its history has. -/
theorem after_eq_some {steps : List Step} {s : Session} (h : empty.after steps = some s) :
    Consistent steps ∧ s = expected steps := by
  -- induction at the end of the run, where the history grows
  induction steps using List.reverseRecOn generalizing s with
  | nil =>
      cases h
      exact ⟨consistent_nil, expected_nil.symm⟩
  | append_singleton steps st ih =>
      rw [after_append] at h
      rcases Option.bind_eq_some_iff.1 h with ⟨t, ht, hstep⟩
      rcases ih ht with ⟨hconsistent, rfl⟩
      rcases Option.bind_eq_some_iff.1 hstep with ⟨out, hout, hs⟩
      cases hs
      cases hk : (roster steps).knows st with
      | false =>
          rw [step_expected_eq_none hk] at hout
          cases hout
      | true =>
          rcases step_expected hconsistent hk with ⟨out', hout', hsession, _⟩
          rw [hout] at hout'
          cases hout'
          exact ⟨hconsistent.concat hk, hsession⟩

/-- After every part of a run, the message of each holder is the last text written into it, and the
next step gives back what the history foretells; it is refused only if it names something that does
not exist. -/
theorem history_law {steps : List Step} {t : Session} (h : empty.after steps = some t)
    {earlier : List Step} (hearlier : earlier <+: steps) :
    ∃ s, empty.after earlier = some s ∧
      (∀ n : Nat, s.holders[n]?.map Holder.message = message? earlier n) ∧
      ∀ st : Step, ((s.step st).isSome = (roster earlier).knows st) ∧
        ∀ out, s.step st = some out → Foretold earlier st out.result := by
  rcases hearlier with ⟨later, rfl⟩
  rw [after_append] at h
  rcases Option.bind_eq_some_iff.1 h with ⟨s, hs, _⟩
  rcases after_eq_some hs with ⟨hconsistent, rfl⟩
  refine ⟨_, hs, ?_, ?_⟩
  · intro n
    rw [getElem?_holders_expected, Option.map_map]
    cases message? earlier n <;> rfl
  · intro st
    cases hk : (roster earlier).knows st with
    | false => simp [step_expected_eq_none hk]
    | true =>
        rcases step_expected hconsistent hk with ⟨out, hout, _, hforetold⟩
        refine ⟨by rw [hout]; rfl, ?_⟩
        intro out' hout'
        rw [hout] at hout'
        cases hout'
        exact hforetold

/-- Two handlers of one holder, of which only the second one takes an empty greeting. -/
def sharedHolder : List Step :=
  [.addHolder (some "a"), .addHandler 0 (some .ignore), .addHandler 0 none,
    .serve (.handler 0) .handle ⟨some "", none, none⟩,
    .serve (.handler 1) .invoke ⟨some "", none, none⟩]

theorem history_law_shared_holder :
    (empty.after sharedHolder).isSome = true ∧ sharedHolder.take 4 <+: sharedHolder ∧
      ∃ s, empty.after (sharedHolder.take 4) = some s ∧
        s.holders[0]?.map Holder.message = some "a" ∧
          ∀ out, s.step (.serve (.handler 1) .invoke ⟨some "", none, none⟩) = some out →
            out.result = .served false ⟨""⟩ := by
  have hrun : (empty.after sharedHolder).isSome = true := by decide
  have hprefix : sharedHolder.take 4 <+: sharedHolder := List.take_prefix 4 sharedHolder
  rcases Option.isSome_iff_exists.1 hrun with ⟨t, ht⟩
  rcases history_law ht hprefix with ⟨s, hs, hmessages, hsteps⟩
  refine ⟨hrun, hprefix, s, hs, ?_, ?_⟩
  · rw [hmessages 0]
    decide
  · intro out hout
    rcases (hsteps _).2 out hout with ⟨warm, m, post, hresult, hpost, hm, hwarm⟩
    cases hpost
    have hempty : message? sharedHolder 0 = some "" := by decide
    have hmessage : m = "" := Option.some.inj (hm.symm.trans hempty)
    have hcold : warm = false := by
      cases warm with
      | false => rfl
      | true => exact absurd (List.any_eq_true.2 (hwarm.1 rfl)) (by decide)
    rw [hresult, hmessage, hcold]

end Session
end GreetingService
