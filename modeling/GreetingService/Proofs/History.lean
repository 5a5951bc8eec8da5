import GreetingService.Greeting.Session
import Mathlib.Tactic

/-!
# The history of a session

A run is a list of steps, none of which is refused. What its history has to say is told by the steps
alone, without the state of the session: which holders, components and handlers they create, which
texts they write into which holder, and which handlers they have called. The message of a holder is
then the last text written into it. `expected` puts these together into a session, and the histories
of runs are `Consistent`: nothing is used before it has been created.
-/

namespace GreetingService
namespace Session

/-! ## Runs -/

/-- The session that steps lead to, taken one after another; there is none if one is refused. -/
def after (s : Session) : List Step → Option Session
  | [] => some s
  | st :: steps => (s.step st).bind fun out => out.session.after steps

theorem after_append (s : Session) (earlier later : List Step) :
    s.after (earlier ++ later) = (s.after earlier).bind fun t => t.after later := by
  induction earlier generalizing s with
  | nil => rfl
  | cons st earlier ih =>
      simp only [List.cons_append, after]
      cases s.step st with
      | none => rfl
      | some out => exact ih out.session

/-! ## Serving -/

/-- What serving leaves of a handler and its holder. -/
theorem serve_eq_some {s : Session} {k n : Nat} {h : Handler} {holder : Holder}
    (hattached : s.handlers[k]? = some ⟨h, n⟩) (hholder : s.holders[n]? = some holder)
    (r : Request) :
    ∃ t, s.serve k r = some (t, h.invoke holder r) ∧ t.handlers[k]? = some ⟨h.warmed, n⟩ ∧
      t.holders[n]? = some (h.invoke holder r).holder := by
  have hk : k < s.handlers.length := (List.getElem?_eq_some_iff.1 hattached).1
  have hn : n < s.holders.length := (List.getElem?_eq_some_iff.1 hholder).1
  refine ⟨{ s.setHolder n (h.invoke holder r).holder with
    handlers := s.handlers.set k ⟨h.warmed, n⟩ }, ?_, ?_, ?_⟩
  · simp only [serve, hattached, bind, Option.bind, hholder]
    rfl
  · exact List.getElem?_set_self hk
  · exact List.getElem?_set_self hn

/-! ## History -/

/-- A handler as it was created: its policy and the number of its holder. -/
structure Post where
  policy : Policy
  holder : Nat

/-- What steps have created, whatever was done with it: the first message of each holder, the
components and the handlers. -/
structure Roster where
  initials : List String
  components : List Component
  posts : List Post

namespace Roster

/-- The roster with what a step creates. -/
def enlist (r : Roster) : Step → Roster
  | .addHolder message => { r with initials := r.initials ++ [message.getD helloWorld] }
  | .addComponent c =>
    { r with
      initials := r.initials ++ [c.defaultMessage]
      components := r.components ++ [⟨c, r.initials.length⟩] }
  | .addHandler holder policy =>
    { r with posts := r.posts ++ [⟨policy.getD Policy.default, holder⟩] }
  | .addHandlerOf component =>
    match r.components[component]? with
    | some c => { r with posts := r.posts ++ [⟨c.config.emptyField1, c.holder⟩] }
    | none => r
  | _ => r

/-- Whether all that a step names exists. -/
def knows (r : Roster) : Step → Bool
  | .addHandler holder _ | .message holder | .setMessage holder _ | .update holder _ =>
    holder < r.initials.length
  | .addHandlerOf component | .holderOfComponent component => component < r.components.length
  | .holderOfHandler handler | .isWarm handler | .serve (.handler handler) _ _
  | .serveAll handler _ => handler < r.posts.length
  | _ => true

/-- The texts that come into a holder when a handler is asked for them. -/
def accepted (r : Roster) (holder handler : Nat) (texts : List String) : List String :=
  match r.posts[handler]? with
  | some post => if post.holder = holder then texts.filter post.policy.accepts else []
  | none => []

/-- The texts that a step writes into a holder. -/
def writes (r : Roster) (holder : Nat) : Step → List String
  | .setMessage n value => if n = holder then [value] else []
  | .update n value => if n = holder then value.toList else []
  | .serve (.handler handler) _ request => r.accepted holder handler request.field1.toList
  | .serveAll handler values => r.accepted holder handler values
  | _ => []

end Roster

/-- Whether a step has the given handler serve a request. -/
def Step.calls (handler : Nat) : Step → Bool
  | .serve (.handler n) _ _ => n == handler
  | .serveAll n values => n == handler && !values.isEmpty
  | _ => false

/-- What steps have created. -/
def roster (steps : List Step) : Roster :=
  steps.foldl Roster.enlist ⟨[], [], []⟩

/-- The texts written into a holder by steps that start with the given roster. -/
def writtenFrom (r : Roster) (holder : Nat) : List Step → List String
  | [] => []
  | st :: steps => r.writes holder st ++ writtenFrom (r.enlist st) holder steps

/-- The texts that steps have written into a holder, in order. -/
def written (steps : List Step) (holder : Nat) : List String :=
  writtenFrom (roster []) holder steps

/-- The message of a holder as the history has it: the last text written, else the first message. -/
def message? (steps : List Step) (holder : Nat) : Option String :=
  (roster steps).initials[holder]?.map fun initial => (written steps holder).getLastD initial

/-- Whether a handler has served a request. -/
def hasServed (steps : List Step) (handler : Nat) : Bool :=
  steps.any (Step.calls handler)

theorem roster_concat (steps : List Step) (st : Step) :
    roster (steps ++ [st]) = (roster steps).enlist st := by
  simp [roster]

theorem writtenFrom_concat (r : Roster) (holder : Nat) (steps : List Step) (st : Step) :
    writtenFrom r holder (steps ++ [st])
      = writtenFrom r holder steps ++ (steps.foldl Roster.enlist r).writes holder st := by
  induction steps generalizing r with
  | nil => simp [writtenFrom]
  | cons first steps ih => simp [writtenFrom, ih]

theorem written_concat (steps : List Step) (st : Step) (holder : Nat) :
    written (steps ++ [st]) holder
      = written steps holder ++ (roster steps).writes holder st :=
  writtenFrom_concat _ holder steps st

theorem hasServed_concat (steps : List Step) (st : Step) (handler : Nat) :
    hasServed (steps ++ [st]) handler = (hasServed steps handler || st.calls handler) := by
  simp [hasServed]

/-- The session as the history has it. -/
def expected (steps : List Step) : Session where
  holders := (roster steps).initials.mapIdx fun n initial => ⟨(written steps n).getLastD initial⟩
  components := (roster steps).components
  handlers := (roster steps).posts.mapIdx fun k post =>
    ⟨⟨post.policy, hasServed steps k⟩, post.holder⟩

/-- What holds of the histories of runs: nothing is used before it has been created. -/
structure Consistent (steps : List Step) : Prop where
  component_lt : ∀ c ∈ (roster steps).components, c.holder < (roster steps).initials.length
  post_lt : ∀ p ∈ (roster steps).posts, p.holder < (roster steps).initials.length
  written_nil : ∀ n, (roster steps).initials.length ≤ n → written steps n = []
  not_served : ∀ k, (roster steps).posts.length ≤ k → hasServed steps k = false

/-- What a step that follows on others has to give back. -/
def Foretold (steps : List Step) (st : Step) (result : Result) : Prop :=
  match st with
  | .message holder | .update holder _ =>
    ∃ m, result = .message m ∧ message? (steps ++ [st]) holder = some m
  | .serve (.handler handler) _ _ =>
    ∃ warm m post, result = .served warm ⟨m⟩ ∧ (roster steps).posts[handler]? = some post ∧
      message? (steps ++ [st]) post.holder = some m ∧
        (warm = true ↔ ∃ earlier ∈ steps, earlier.calls handler = true)
  | .serve .minimal _ _ => result = .served false minimalResponse
  | .serveAll handler _ =>
    ∃ cold own m post, result = .servedAll cold own m ∧ (roster steps).posts[handler]? = some post ∧
      message? (steps ++ [st]) post.holder = some m
  | .isWarm handler =>
    ∃ warm, result = .warm warm ∧ (warm = true ↔ ∃ earlier ∈ steps, earlier.calls handler = true)
  | _ => True

theorem expected_nil : expected [] = empty := rfl

theorem consistent_nil : Consistent [] := by
  refine ⟨?_, ?_, ?_, ?_⟩
  · intro c hc
    cases hc
  · intro p hp
    cases hp
  · intro n _
    rfl
  · intro k _
    rfl

/-! ## What is in the expected session -/

theorem getElem?_holders_expected (steps : List Step) (n : Nat) :
    (expected steps).holders[n]? = (message? steps n).map Holder.mk := by
  rw [expected, List.getElem?_mapIdx, message?, Option.map_map]
  rfl

theorem getElem?_handlers_expected (steps : List Step) (k : Nat) :
    (expected steps).handlers[k]? = (roster steps).posts[k]?.map fun post =>
      ⟨⟨post.policy, hasServed steps k⟩, post.holder⟩ := by
  rw [expected, List.getElem?_mapIdx]

theorem exists_holder {steps : List Step} {n : Nat} (h : n < (roster steps).initials.length) :
    ∃ m, message? steps n = some m ∧ (expected steps).holders[n]? = some ⟨m⟩ := by
  have hsome : (message? steps n).isSome = true := by simp [message?, h]
  rcases Option.isSome_iff_exists.1 hsome with ⟨m, hm⟩
  refine ⟨m, hm, ?_⟩
  rw [getElem?_holders_expected, hm]
  rfl

namespace Roster

/-- No step takes a holder off the roster. -/
theorem initials_grow (r : Roster) (st : Step) : r.initials <+: (r.enlist st).initials := by
  cases st with
  | addHolder message => exact List.prefix_append _ _
  | addComponent c => exact List.prefix_append _ _
  | addHandlerOf component =>
      rw [enlist]
      cases r.components[component]? <;> exact List.prefix_refl _
  | _ => exact List.prefix_refl _

/-- No step takes a handler off the roster. -/
theorem posts_grow (r : Roster) (st : Step) : r.posts <+: (r.enlist st).posts := by
  cases st with
  | addHandler holder policy => exact List.prefix_append _ _
  | addHandlerOf component =>
      rw [enlist]
      cases r.components[component]? with
      | none => exact List.prefix_refl _
      | some c => exact List.prefix_append _ _
  | _ => exact List.prefix_refl _

theorem initials_le (r : Roster) (st : Step) :
    r.initials.length ≤ (r.enlist st).initials.length :=
  (r.initials_grow st).length_le

theorem posts_le (r : Roster) (st : Step) : r.posts.length ≤ (r.enlist st).posts.length :=
  (r.posts_grow st).length_le

theorem mem_components_enlist {r : Roster} {st : Step} {c : Component}
    (h : c ∈ (r.enlist st).components) :
    c ∈ r.components ∨ ∃ config, st = .addComponent config ∧ c.holder = r.initials.length := by
  cases st with
  | addComponent config =>
      rcases List.mem_append.1 h with hold | hnew
      · exact Or.inl hold
      · rw [List.mem_singleton] at hnew
        exact Or.inr ⟨config, rfl, by rw [hnew]⟩
  | addHandlerOf component =>
      rw [enlist] at h
      cases hc : r.components[component]? with
      | none => exact Or.inl (by simpa [hc] using h)
      | some _ => exact Or.inl (by simpa [hc] using h)
  | _ => exact Or.inl h

theorem mem_posts_enlist {r : Roster} {st : Step} {p : Post} (h : p ∈ (r.enlist st).posts) :
    p ∈ r.posts ∨ (∃ policy, st = .addHandler p.holder policy) ∨
      ∃ c ∈ r.components, p.holder = c.holder := by
  cases st with
  | addHandler holder policy =>
      rcases List.mem_append.1 h with hold | hnew
      · exact Or.inl hold
      · rw [List.mem_singleton] at hnew
        subst hnew
        exact Or.inr (Or.inl ⟨policy, rfl⟩)
  | addHandlerOf component =>
      rw [enlist] at h
      cases hc : r.components[component]? with
      | none => exact Or.inl (by simpa [hc] using h)
      | some c =>
          simp only [hc] at h
          rcases List.mem_append.1 h with hold | hnew
          · exact Or.inl hold
          · rw [List.mem_singleton] at hnew
            exact Or.inr (Or.inr ⟨c, List.mem_of_getElem? hc, by rw [hnew]⟩)
  | _ => exact Or.inl h

end Roster

namespace Consistent

variable {steps : List Step} {st : Step}

theorem writes_eq_nil (h : Consistent steps) (hk : (roster steps).knows st = true) {n : Nat}
    (hn : (roster steps).initials.length ≤ n) : (roster steps).writes n st = [] := by
  -- every handler serves a holder that exists
  have haccepted : ∀ handler texts, (roster steps).accepted n handler texts = [] := by
    intro handler texts
    rw [Roster.accepted]
    cases hpost : (roster steps).posts[handler]? with
    | none => rfl
    | some post =>
        have hlt := h.post_lt post (List.mem_of_getElem? hpost)
        exact if_neg (by omega)
  cases st with
  | setMessage m value =>
      have hm : m < (roster steps).initials.length := by simpa [Roster.knows] using hk
      exact if_neg (by omega)
  | update m value =>
      have hm : m < (roster steps).initials.length := by simpa [Roster.knows] using hk
      exact if_neg (by omega)
  | serve server entrance request =>
      cases server with
      | handler handler => exact haccepted handler _
      | minimal => rfl
  | serveAll handler values => exact haccepted handler values
  | _ => rfl

theorem calls_eq_false (hk : (roster steps).knows st = true) {k : Nat}
    (hn : (roster steps).posts.length ≤ k) : st.calls k = false := by
  cases st with
  | serve server entrance request =>
      cases server with
      | handler handler =>
          have hlt : handler < (roster steps).posts.length := by simpa [Roster.knows] using hk
          exact beq_eq_false_iff_ne.2 (by omega)
      | minimal => rfl
  | serveAll handler values =>
      have hlt : handler < (roster steps).posts.length := by simpa [Roster.knows] using hk
      have hne : (handler == k) = false := beq_eq_false_iff_ne.2 (by omega)
      simp [Step.calls, hne]
  | _ => rfl

/-- A step that names only what exists keeps the history consistent. -/
theorem concat (h : Consistent steps) (hk : (roster steps).knows st = true) :
    Consistent (steps ++ [st]) := by
  have hinitials := (roster steps).initials_le st
  have hposts := (roster steps).posts_le st
  refine ⟨?_, ?_, ?_, ?_⟩
  · -- a new component comes with a new holder
    intro c hc
    rw [roster_concat] at hc ⊢
    rcases Roster.mem_components_enlist hc with hold | ⟨config, rfl, hnew⟩
    · have hlt := h.component_lt c hold
      omega
    · rw [hnew, Roster.enlist, List.length_append]
      simp
  · -- a new handler serves the holder that the step names, or that of a component
    intro p hp
    rw [roster_concat] at hp ⊢
    rcases Roster.mem_posts_enlist hp with hold | ⟨policy, rfl⟩ | ⟨c, hc, hnew⟩
    · have hlt := h.post_lt p hold
      omega
    · have hlt : p.holder < (roster steps).initials.length := by simpa [Roster.knows] using hk
      exact hlt
    · have hlt := h.component_lt c hc
      omega
  · -- what does not exist even after the step cannot be named by it
    intro n hn
    rw [roster_concat] at hn
    rw [written_concat, h.written_nil n (by omega), h.writes_eq_nil hk (by omega)]
    rfl
  · intro k hn
    rw [roster_concat] at hn
    rw [hasServed_concat, h.not_served k (by omega), calls_eq_false hk (by omega)]
    rfl

end Consistent

end Session
end GreetingService
