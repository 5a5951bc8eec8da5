import GreetingService.Proofs.EventReplay
import GreetingService.Proofs.HistoryLaw

/-!
# Empty first fields

A handler that ignores empty greetings does what a handler that takes them does when they are left
out of the requests. It only reports more: the field as it was, and that it was ignored. Such a
handler never makes a greeting empty, and as long as nobody else writes into its holder it never
answers with an empty one.
-/

namespace GreetingService

/-- The request without its first field, where that is empty. -/
def Request.withoutEmpty (r : Request) : Request :=
  if r.field1 = some "" then { r with field1 := none } else r

/-- The invocations of a handler that serves requests one after another. -/
def Handler.invokeAll (h : Handler) (holder : Holder) : List Request → List Invocation
  | [] => []
  | r :: rs =>
    let served := h.invoke holder r
    served :: served.handler.invokeAll served.holder rs

/-! ## Invocations of a run -/

theorem Handler.length_invokeAll (h : Handler) (holder : Holder) (rs : List Request) :
    (h.invokeAll holder rs).length = rs.length := by
  induction rs generalizing h holder with
  | nil => rfl
  | cons r rs ih => simp [invokeAll, ih]

/-- A run is made of its invocations. -/
theorem Replay.serve_eq_invokeAll (h : Handler) (holder : Holder) (rs : List Request) :
    Replay.serve h holder rs =
      { handler := ((h.invokeAll holder rs).getLast?.map Invocation.handler).getD h
        holder := ((h.invokeAll holder rs).getLast?.map Invocation.holder).getD holder
        responses := (h.invokeAll holder rs).map Invocation.response
        diagnostics := (h.invokeAll holder rs).flatMap Invocation.diagnostics } := by
  induction rs generalizing h holder with
  | nil => rfl
  | cons r rs ih =>
      simp only [Replay.serve, ih, Handler.invokeAll, List.map_cons, List.flatMap_cons,
        List.getLast?_cons, Option.map_some, Option.getD_some]
      cases (Handler.invokeAll (h.invoke holder r).handler (h.invoke holder r).holder rs).getLast?
        <;> rfl

/-- Greetings that a session has served together are a run of their own. -/
theorem Session.serveAll_eq_some {s : Session} {k n : Nat} {h : Handler} {holder : Holder}
    (hattached : s.handlers[k]? = some ⟨h, n⟩) (hholder : s.holders[n]? = some holder)
    (values : List String) :
    ∃ t, s.serveAll k values
      = some (t, h.invokeAll holder (values.map fun value => ⟨some value, none, none⟩)) := by
  induction values generalizing s h holder with
  | nil => exact ⟨s, rfl⟩
  | cons value values ih =>
      rcases serve_eq_some hattached hholder ⟨some value, none, none⟩ with
        ⟨t, hserve, hhandler, hkept⟩
      rcases ih hhandler hkept with ⟨u, hrest⟩
      refine ⟨u, ?_⟩
      simp only [serveAll, hserve, hrest, bind, Option.bind]
      rfl

/-! ## Ignoring and leaving out -/

/-- An invocation that ignores empty greetings, beside one where they are left out. -/
structure Invocation.SameButIgnored (r : Request) (ignoring overwriting : Invocation) : Prop where
  warm : ignoring.warm = overwriting.warm
  response : ignoring.response = overwriting.response
  warmed : ignoring.handler.warm = overwriting.handler.warm
  holder : ignoring.holder = overwriting.holder
  same : r.field1 ≠ some "" → ignoring.diagnostics = overwriting.diagnostics
  ignored : r.field1 = some "" →
    overwriting.diagnostics = [.warmth overwriting.warm, .field .field1 none,
      .field .field2 r.field2, .field .field3 r.field3] ∧
    ignoring.diagnostics = [.warmth overwriting.warm, .field .field1 (some ""),
      .field .field2 r.field2, .field .field3 r.field3, .emptyIgnored]

theorem accepts_ignore_iff {value : String} : Policy.ignore.accepts value = true ↔ value ≠ "" := by
  simp [Policy.accepts]

/-- The greeting that is taken is the same. -/
theorem accepted_withoutEmpty (warm : Bool) (r : Request) :
    Handler.accepted ⟨.overwrite, warm⟩ r.withoutEmpty = Handler.accepted ⟨.ignore, warm⟩ r := by
  rcases r with ⟨field1, field2, field3⟩
  cases field1 with
  | none => rfl
  | some value =>
      -- an empty text is not taken by the one, and left out for the other
      by_cases hempty : value = ""
      · subst hempty
        rfl
      · have haccepts : Policy.ignore.accepts value = true := accepts_ignore_iff.2 hempty
        have hignore : (some value).filter Policy.ignore.accepts = some value := by
          simp [haccepts]
        have hoverwrite : (some value).filter Policy.overwrite.accepts = some value := rfl
        simp [Request.withoutEmpty, Handler.accepted, hempty, hignore, hoverwrite]

theorem rejects_ignore_iff {warm : Bool} {r : Request} :
    Handler.rejects ⟨.ignore, warm⟩ r = true ↔ r.field1 = some "" := by
  cases hfield : r.field1 with
  | none => simp [Handler.rejects, hfield]
  | some value => simp [Handler.rejects, Handler.accepted, Policy.accepts, hfield]

theorem rejects_overwrite (warm : Bool) (r : Request) :
    Handler.rejects ⟨.overwrite, warm⟩ r = false := by
  cases hfield : r.field1 with
  | none => simp [Handler.rejects, hfield]
  | some value => simp [Handler.rejects, Handler.accepted, Policy.accepts, hfield]

/-- One request, served from the same greeting. -/
theorem invoke_sameButIgnored (warm : Bool) (holder : Holder) (r : Request) :
    Invocation.SameButIgnored r (Handler.invoke ⟨.ignore, warm⟩ holder r)
      (Handler.invoke ⟨.overwrite, warm⟩ holder r.withoutEmpty) := by
  have hafter : (Handler.invoke ⟨.ignore, warm⟩ holder r).holder
      = (Handler.invoke ⟨.overwrite, warm⟩ holder r.withoutEmpty).holder := by
    simp only [Handler.invoke, accepted_withoutEmpty]
  have hresponse : (Handler.invoke ⟨.ignore, warm⟩ holder r).response
      = (Handler.invoke ⟨.overwrite, warm⟩ holder r.withoutEmpty).response :=
    congrArg (fun after : Holder => Response.mk after.message) hafter
  refine ⟨rfl, hresponse, rfl, hafter, ?_, ?_⟩
  · intro hfield
    have hsame : r.withoutEmpty = r := if_neg hfield
    have hrejects : Handler.rejects ⟨.ignore, warm⟩ r = false :=
      Bool.eq_false_iff.2 (mt rejects_ignore_iff.1 hfield)
    simp only [Handler.invoke, Handler.diagnostics, hsame, hrejects, rejects_overwrite]
  · intro hfield
    have herased : r.withoutEmpty = { r with field1 := none } := if_pos hfield
    have hrejects : Handler.rejects ⟨.ignore, warm⟩ r = true := rejects_ignore_iff.2 hfield
    simp [Handler.invoke, Handler.diagnostics, Log.ofFields, herased, hfield, hrejects,
      rejects_overwrite]

/-- All requests, served one after another. -/
theorem invokeAll_sameButIgnored (rs : List Request) (warm : Bool) (holder : Holder) :
    ∀ (i : Nat) (r : Request), rs[i]? = some r → ∃ ignoring overwriting,
      (Handler.invokeAll ⟨.ignore, warm⟩ holder rs)[i]? = some ignoring ∧
      (Handler.invokeAll ⟨.overwrite, warm⟩ holder (rs.map Request.withoutEmpty))[i]?
        = some overwriting ∧
      Invocation.SameButIgnored r ignoring overwriting := by
  induction rs generalizing warm holder with
  | nil => simp
  | cons first rs ih =>
      intro i r hr
      have hfirst := invoke_sameButIgnored warm holder first
      cases i with
      | zero =>
          have heq : first = r := by simpa using hr
          subst heq
          exact ⟨_, _, rfl, rfl, hfirst⟩
      | succ i =>
          -- both handlers are warm now and go on from the same greeting
          have hrest := ih true (Handler.invoke ⟨.overwrite, warm⟩ holder first.withoutEmpty).holder
            i r (by simpa using hr)
          rcases hrest with ⟨ignoring, overwriting, hignoring, hoverwriting, hsame⟩
          refine ⟨ignoring, overwriting, ?_, hoverwriting, hsame⟩
          rw [← hfirst.holder] at hignoring
          exact hignoring

/-- What two such invocations have in common, both runs have in common at each place. -/
theorem getElem?_map_invokeAll {β : Type} (f : Invocation → β)
    (hf : ∀ r ignoring overwriting, Invocation.SameButIgnored r ignoring overwriting →
      f ignoring = f overwriting) (warm : Bool) (holder : Holder) (rs : List Request) (i : Nat) :
    (Handler.invokeAll ⟨.ignore, warm⟩ holder rs)[i]?.map f
      = (Handler.invokeAll ⟨.overwrite, warm⟩ holder (rs.map Request.withoutEmpty))[i]?.map f := by
  cases hr : rs[i]? with
  | none =>
      have hlength : rs.length ≤ i := List.getElem?_eq_none_iff.1 hr
      have hignoring : (Handler.invokeAll ⟨.ignore, warm⟩ holder rs)[i]? = none :=
        List.getElem?_eq_none (by simpa [Handler.length_invokeAll] using hlength)
      have hoverwriting : (Handler.invokeAll ⟨.overwrite, warm⟩ holder
          (rs.map Request.withoutEmpty))[i]? = none :=
        List.getElem?_eq_none (by simpa [Handler.length_invokeAll] using hlength)
      rw [hignoring, hoverwriting]
  | some r =>
      rcases invokeAll_sameButIgnored rs warm holder i r hr with
        ⟨ignoring, overwriting, hignoring, hoverwriting, hsame⟩
      rw [hignoring, hoverwriting, Option.map_some, Option.map_some, hf r _ _ hsame]

/-- Both runs give the same responses and end with the same mark and the same greeting. -/
theorem serve_sameButIgnored (warm : Bool) (holder : Holder) (rs : List Request) :
    (Replay.serve ⟨.ignore, warm⟩ holder rs).responses
        = (Replay.serve ⟨.overwrite, warm⟩ holder (rs.map Request.withoutEmpty)).responses ∧
      (Replay.serve ⟨.ignore, warm⟩ holder rs).handler.warm
        = (Replay.serve ⟨.overwrite, warm⟩ holder (rs.map Request.withoutEmpty)).handler.warm ∧
      (Replay.serve ⟨.ignore, warm⟩ holder rs).holder
        = (Replay.serve ⟨.overwrite, warm⟩ holder (rs.map Request.withoutEmpty)).holder := by
  rw [Replay.serve_eq_invokeAll, Replay.serve_eq_invokeAll]
  -- the responses place by place, and what is left at the end by the last place
  refine ⟨?_, ?_, ?_⟩
  · apply List.ext_getElem?
    intro i
    simpa using getElem?_map_invokeAll Invocation.response (fun _ _ _ h => h.response) warm holder
      rs i
  · have hlast := getElem?_map_invokeAll (fun v => v.handler.warm) (fun _ _ _ h => h.warmed) warm
      holder rs (rs.length - 1)
    have hwarm : ∀ (v : Option Invocation) (h : Handler),
        ((v.map Invocation.handler).getD h).warm = (v.map fun v => v.handler.warm).getD h.warm := by
      intro v h
      cases v <;> rfl
    simp only [List.getLast?_eq_getElem?, Handler.length_invokeAll, List.length_map, hwarm, hlast]
  · have hlast := getElem?_map_invokeAll Invocation.holder (fun _ _ _ h => h.holder) warm
      holder rs (rs.length - 1)
    simp only [List.getLast?_eq_getElem?, Handler.length_invokeAll, List.length_map, hlast]

/-! ## Greetings that are never empty -/

theorem invoke_ne_empty (warm : Bool) {holder : Holder} (h : holder.message ≠ "") (r : Request) :
    (Handler.invoke ⟨.ignore, warm⟩ holder r).holder.message ≠ "" := by
  show (Handler.accepted ⟨.ignore, warm⟩ r).getD holder.message ≠ ""
  cases haccepted : Handler.accepted ⟨.ignore, warm⟩ r with
  | none => exact h
  | some value => exact accepts_ignore_iff.1 (Option.filter_eq_some_iff.1 haccepted).2

theorem invokeAll_ne_empty {rs : List Request} {warm : Bool} {holder : Holder}
    (h : holder.message ≠ "") : ∀ v ∈ Handler.invokeAll ⟨.ignore, warm⟩ holder rs,
      v.response.message ≠ "" ∧ v.holder.message ≠ "" := by
  induction rs generalizing warm holder with
  | nil => exact fun v hv => absurd hv List.not_mem_nil
  | cons r rs ih =>
      have hafter := invoke_ne_empty warm h r
      intro v hv
      rcases List.mem_cons.1 hv with rfl | hrest
      · exact ⟨hafter, hafter⟩
      · exact ih hafter v hrest

namespace Session

open LastText

/-- Apart from a handler, no step writes into a holder. -/
def OnlyWriter (handler holder : Nat) (steps : List Step) : Prop :=
  ∀ (i : Nat) (st : Step), steps[i]? = some st →
    (roster (steps.take i)).writes holder st ≠ [] → st.calls handler = true

theorem roster_grows {earlier steps : List Step} (h : earlier <+: steps) :
    (roster earlier).initials <+: (roster steps).initials ∧
      (roster earlier).posts <+: (roster steps).posts := by
  rcases h with ⟨later, rfl⟩
  induction later using List.reverseRecOn with
  | nil => simp
  | append_singleton later st ih =>
      rw [← List.append_assoc, roster_concat]
      exact ⟨ih.1.trans (Roster.initials_grow _ st), ih.2.trans (Roster.posts_grow _ st)⟩

/-- What is in a list is at the same place in every list that goes on from it. -/
theorem getElem?_of_prefix {α : Type} {l l' : List α} (h : l <+: l') {i : Nat} {a : α}
    (hget : l[i]? = some a) : l'[i]? = some a := by
  rcases List.getElem?_eq_some_iff.1 hget with ⟨hlt, rfl⟩
  exact List.prefix_iff_getElem?.1 h i hlt

/-- A handler that ignores empty greetings writes none. -/
theorem ne_empty_of_mem_writes {r : Roster} {handler holder : Nat} {st : Step} {text : String}
    (hpost : ∀ post, r.posts[handler]? = some post → post.policy = .ignore)
    (hcalls : st.calls handler = true) (htext : text ∈ r.writes holder st) : text ≠ "" := by
  have haccepted : ∀ texts, text ∈ r.accepted holder handler texts → text ≠ "" := by
    intro texts hmem
    rw [Roster.accepted] at hmem
    cases hget : r.posts[handler]? with
    | none => simp [hget] at hmem
    | some post =>
        simp only [hget, hpost post hget] at hmem
        split at hmem
        · exact accepts_ignore_iff.1 (List.mem_filter.1 hmem).2
        · cases hmem
  cases st with
  | serve server entrance request =>
      cases server with
      | handler number =>
          have hnumber : number = handler := by simpa [Step.calls] using hcalls
          subst hnumber
          exact haccepted _ htext
      | minimal => cases htext
  | serveAll number values =>
      have hnumber : number = handler := by
        simp only [Step.calls, Bool.and_eq_true, beq_iff_eq] at hcalls
        exact hcalls.1
      subst hnumber
      exact haccepted _ htext
  | _ => cases hcalls

section OnlyWriter

variable {steps earlier : List Step} {handler holder : Nat} {initial : String}
  (hpost : (roster steps).posts[handler]? = some ⟨.ignore, holder⟩)
  (honly : OnlyWriter handler holder steps) (hearlier : earlier <+: steps)

include hpost honly hearlier

/-- Only texts that are not empty get into a holder which such a handler alone writes into. -/
theorem ne_empty_of_mem_written : ∀ text ∈ written earlier holder, text ≠ "" := by
  induction earlier using List.reverseRecOn with
  | nil => simp [written, writtenFrom]
  | append_singleton earlier st ih =>
      have hbefore : earlier <+: steps := (List.prefix_append earlier [st]).trans hearlier
      intro text htext
      rw [written_concat, List.mem_append] at htext
      rcases htext with hold | hnew
      · exact ih hbefore text hold
      · rcases hearlier with ⟨later, rfl⟩
        have hcalls := honly earlier.length st (by simp) (by simpa using List.ne_nil_of_mem hnew)
        refine ne_empty_of_mem_writes ?_ hcalls hnew
        intro post hget
        -- the handler is the one that is there in the end
        have hlast := getElem?_of_prefix (roster_grows hbefore).2 hget
        rw [hpost] at hlast
        rw [← Option.some.inj hlast]

variable (hinitial : (roster steps).initials[holder]? = some initial) (hne : initial ≠ "")

include hinitial hne

/-- Such a holder, which was not empty in the beginning, never says an empty greeting. -/
theorem message?_ne_empty {m : String} (hm : message? earlier holder = some m) : m ≠ "" := by
  rcases Option.map_eq_some_iff.1 hm with ⟨first, hfirst, rfl⟩
  have hlast := getElem?_of_prefix (roster_grows hearlier).1 hfirst
  have hsame : first = initial := Option.some.inj (hlast.symm.trans hinitial)
  subst hsame
  exact getLastD_of_forall (· ≠ "") (ne_empty_of_mem_written hpost honly hearlier) hne

variable {s : Session} (hs : empty.after earlier = some s)

include hs

/-- What there is of such a handler and its holder at some time, once it has been created. -/
theorem exists_attached {attached : Attached} (hattached : s.handlers[handler]? = some attached) :
    ∃ warm m, attached = ⟨⟨.ignore, warm⟩, holder⟩ ∧ s.holders[holder]? = some ⟨m⟩ ∧ m ≠ "" := by
  rcases after_eq_some hs with ⟨hconsistent, rfl⟩
  rw [getElem?_handlers_expected] at hattached
  rcases Option.map_eq_some_iff.1 hattached with ⟨post, hget, rfl⟩
  have hlast := getElem?_of_prefix (roster_grows hearlier).2 hget
  have hsame : post = ⟨.ignore, holder⟩ := Option.some.inj (hlast.symm.trans hpost)
  subst hsame
  rcases exists_holder (hconsistent.post_lt _ (List.mem_of_getElem? hget)) with ⟨m, hm, hholder⟩
  exact ⟨hasServed earlier handler, m, rfl, hholder,
    message?_ne_empty hpost honly hearlier hinitial hne hm⟩

/-- The next answer of such a handler. -/
theorem served_ne_empty {entrance : Entrance} {request : Request} {out : Outcome}
    (hout : s.step (.serve (.handler handler) entrance request) = some out) :
    ∃ warm m, out.result = .served warm ⟨m⟩ ∧ m ≠ "" := by
  cases hattached : s.handlers[handler]? with
  | none => simp [step, serve, hattached] at hout
  | some attached =>
      rcases exists_attached hpost honly hearlier hinitial hne hs hattached with
        ⟨warm, m, rfl, hholder, hm⟩
      rcases serve_eq_some hattached hholder request with ⟨t, hserve, _, _⟩
      simp only [step, hserve, bind, Option.bind] at hout
      cases hout
      exact ⟨warm, _, rfl, invoke_ne_empty warm hm request⟩

/-- The next answers of such a handler, when it is asked for several greetings together. -/
theorem servedAll_ne_empty {values : List String} {u : Session} {served : List Invocation}
    (hserved : s.serveAll handler values = some (u, served)) :
    ∀ v ∈ served, v.response.message ≠ "" := by
  cases hattached : s.handlers[handler]? with
  | none =>
      cases values with
      | nil =>
          cases hserved
          exact fun v hv => absurd hv List.not_mem_nil
      | cons value values => simp [serveAll, serve, hattached] at hserved
  | some attached =>
      rcases exists_attached hpost honly hearlier hinitial hne hs hattached with
        ⟨warm, m, rfl, hholder, hm⟩
      rcases serveAll_eq_some hattached hholder values with ⟨t, hrun⟩
      rw [hrun] at hserved
      cases hserved
      exact fun v hv => (invokeAll_ne_empty hm v hv).1

end OnlyWriter

end Session

/-- Ignoring empty greetings is the same as overwriting when they are left out of the requests: each
invocation has the same record, mark and greeting, and reports the same but for the empty field and
a line about it. Unless it was empty in the beginning, neither an answer nor the greeting is ever
empty then, also in a session of many handlers, if only this one writes into the holder. -/
theorem ignoring_eq_leaving_out (warm : Bool) (holder : Holder) (rs : List Request) :
    (∀ (i : Nat) (r : Request), rs[i]? = some r → ∃ ignoring overwriting,
      (Handler.invokeAll ⟨.ignore, warm⟩ holder rs)[i]? = some ignoring ∧
      (Handler.invokeAll ⟨.overwrite, warm⟩ holder (rs.map Request.withoutEmpty))[i]?
        = some overwriting ∧
      Invocation.SameButIgnored r ignoring overwriting) ∧
    (Replay.serve ⟨.ignore, warm⟩ holder rs).responses
      = (Replay.serve ⟨.overwrite, warm⟩ holder (rs.map Request.withoutEmpty)).responses ∧
    (Replay.serve ⟨.ignore, warm⟩ holder rs).handler.warm
      = (Replay.serve ⟨.overwrite, warm⟩ holder (rs.map Request.withoutEmpty)).handler.warm ∧
    (Replay.serve ⟨.ignore, warm⟩ holder rs).holder
      = (Replay.serve ⟨.overwrite, warm⟩ holder (rs.map Request.withoutEmpty)).holder ∧
    (holder.message ≠ "" → ∀ v ∈ Handler.invokeAll ⟨.ignore, warm⟩ holder rs,
      v.response.message ≠ "" ∧ v.holder.message ≠ "") ∧
    ∀ (steps : List Session.Step) (t : Session) (handler number : Nat) (initial : String),
      Session.empty.after steps = some t →
      (Session.roster steps).posts[handler]? = some ⟨.ignore, number⟩ →
      (Session.roster steps).initials[number]? = some initial → initial ≠ "" →
      Session.OnlyWriter handler number steps →
      ∀ earlier, earlier <+: steps → ∃ s, Session.empty.after earlier = some s ∧
        (∀ kept, s.holders[number]? = some kept → kept.message ≠ "") ∧
        (∀ entrance request out,
          s.step (.serve (.handler handler) entrance request) = some out →
            ∃ warm m, out.result = .served warm ⟨m⟩ ∧ m ≠ "") ∧
        ∀ values u served, s.serveAll handler values = some (u, served) →
          ∀ v ∈ served, v.response.message ≠ "" := by
  rcases serve_sameButIgnored warm holder rs with ⟨hresponses, hwarm, hholder⟩
  refine ⟨invokeAll_sameButIgnored rs warm holder, hresponses, hwarm, hholder,
    invokeAll_ne_empty, ?_⟩
  intro steps t handler number initial ht hpost hinitial hne honly earlier hearlier
  have hafter : ∃ s, Session.empty.after earlier = some s := by
    rcases hearlier with ⟨later, rfl⟩
    rw [Session.after_append] at ht
    rcases Option.bind_eq_some_iff.1 ht with ⟨s, hs, _⟩
    exact ⟨s, hs⟩
  rcases hafter with ⟨s, hs⟩
  refine ⟨s, hs, ?_, ?_, ?_⟩
  · intro kept hkept
    rcases Session.after_eq_some hs with ⟨_, rfl⟩
    rw [Session.getElem?_holders_expected] at hkept
    rcases Option.map_eq_some_iff.1 hkept with ⟨m, hm, rfl⟩
    exact Session.message?_ne_empty hpost honly hearlier hinitial hne hm
  · intro entrance request out hout
    exact Session.served_ne_empty hpost honly hearlier hinitial hne hs hout
  · intro values u served hserved
    exact Session.servedAll_ne_empty hpost honly hearlier hinitial hne hs hserved

/-- Two handlers of one holder. Only the first one, which ignores empty greetings, is asked for
any. -/
def askedFirst : List Session.Step :=
  [.addHolder (some "a"), .addHandler 0 (some .ignore), .addHandler 0 none,
    .serve (.handler 0) .handle ⟨some "", none, none⟩, .serve (.handler 1) .handle .empty]

theorem onlyWriter_askedFirst : Session.OnlyWriter 0 0 askedFirst := by
  intro i st hst hwrites
  match i, hst with
  | 0, rfl => exact absurd rfl hwrites
  | 1, rfl => exact absurd rfl hwrites
  | 2, rfl => exact absurd rfl hwrites
  | 3, rfl => rfl
  | 4, rfl => exact absurd rfl hwrites

/-- An empty greeting behind another one, and in a session with a second handler. -/
theorem ignoring_eq_leaving_out_twice :
    (∃ ignoring overwriting,
      (Handler.invokeAll ⟨.ignore, false⟩ ⟨"a"⟩
        [⟨some "b", none, none⟩, ⟨some "", some "c", none⟩])[1]? = some ignoring ∧
      (Handler.invokeAll ⟨.overwrite, false⟩ ⟨"a"⟩
        [⟨some "b", none, none⟩, ⟨none, some "c", none⟩])[1]? = some overwriting ∧
      ignoring.warm = overwriting.warm ∧ ignoring.response = overwriting.response ∧
      ignoring.diagnostics = [.warmth overwriting.warm, .field .field1 (some ""),
        .field .field2 (some "c"), .field .field3 none, .emptyIgnored]) ∧
    (∀ v ∈ Handler.invokeAll ⟨.ignore, false⟩ ⟨"a"⟩
        [⟨some "b", none, none⟩, ⟨some "", some "c", none⟩], v.response.message ≠ "") ∧
    ∃ s out warm m, Session.empty.after (askedFirst.take 4) = some s ∧
      s.holders[0]? = some ⟨m⟩ ∧
      s.step (.serve (.handler 0) .invoke ⟨some "", none, none⟩) = some out ∧
      out.result = .served warm ⟨m⟩ ∧ m ≠ "" := by
  rcases ignoring_eq_leaving_out false ⟨"a"⟩ [⟨some "b", none, none⟩, ⟨some "", some "c", none⟩]
    with ⟨hinvocations, _, _, _, hne, hsession⟩
  refine ⟨?_, ?_, ?_⟩
  · rcases hinvocations 1 ⟨some "", some "c", none⟩ rfl with
      ⟨ignoring, overwriting, hignoring, hoverwriting, hsame⟩
    exact ⟨ignoring, overwriting, hignoring, hoverwriting, hsame.warm, hsame.response,
      (hsame.ignored rfl).2⟩
  · intro v hv
    exact (hne (by decide) v hv).1
  · have hrun : (Session.empty.after askedFirst).isSome = true := by decide
    rcases Option.isSome_iff_exists.1 hrun with ⟨t, ht⟩
    have hearlier : askedFirst.take 4 <+: askedFirst := List.take_prefix 4 askedFirst
    rcases hsession askedFirst t 0 0 "a" ht rfl rfl (by decide) onlyWriter_askedFirst _ hearlier
      with ⟨s, hs, hkept, hserved, _⟩
    cases hs
    rcases hserved .invoke ⟨some "", none, none⟩ _ rfl with ⟨warm, m, hresult, _⟩
    cases hresult
    exact ⟨_, _, _, _, rfl, rfl, rfl, rfl, hkept _ rfl⟩

end GreetingService
