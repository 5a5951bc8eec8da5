import GreetingService.Greeting.Shared
import Mathlib.Tactic

/-!
# What clients of one holder can rely on

The events of a run tell everything about the state it leads to: which handlers are warm, what the
holder says, and how far each client has come. Histories that can occur are `Legal`, and `expected`
puts the state together from a history. From this it follows that a cold handler is cold for one
client only, and that all clients together get what they would get one after another, in the order
in which they have accessed the holder.
-/

namespace GreetingService
namespace Shared

/-! ## Histories -/

/-- The clients that have accessed the holder, in order. -/
def accesses (es : List Event) : List Nat :=
  es.filterMap fun
    | .accessed client => some client
    | .marked _ _ _ => none

/-- The clients that have marked a handler, in order. -/
def markers (k : Nat) (es : List Event) : List Nat :=
  es.filterMap fun
    | .marked client handler _ => if handler = k then some client else none
    | .accessed _ => none

/-- What a client was told when it marked its handler. -/
def mark? (es : List Event) (c : Nat) : Option Bool :=
  es.findSome? fun
    | .marked client _ warm => if client = c then some warm else none
    | .accessed _ => none

/-- The text that a client writes into the holder. -/
def value? (s : Shared) (c : Nat) : Option String :=
  match s.clients[c]?.map Client.errand with
  | some (.invoke k r) => s.handlers[k]?.bind fun handler => handler.accepted r
  | some (.setMessage value) => some value
  | _ => none

/-- The holder once clients have accessed it one after another. -/
def serial (s : Shared) (order : List Nat) : Holder :=
  order.foldl (fun holder c => holder.update (s.value? c)) s.holder

/-- An order up to a client that stands in it. -/
def upTo (c : Nat) (order : List Nat) : List Nat :=
  order.take (order.idxOf c + 1)

/-- How far a client has come by a history. -/
def progressOf (s : Shared) (es : List Event) (c : Nat) : Errand → Progress
  | .invoke _ _ =>
    match mark? es c with
    | none => .waiting
    | some warm =>
      if c ∈ accesses es then .served warm ⟨(s.serial (upTo c (accesses es))).message⟩
      else .marked warm
  | .setMessage _ => if c ∈ accesses es then .written else .waiting
  | .message =>
    if c ∈ accesses es then .told (s.serial (upTo c (accesses es))).message else .waiting

/-- The state as a history has it. -/
def expected (s : Shared) (es : List Event) : Shared where
  holder := s.serial (accesses es)
  handlers := s.handlers.mapIdx fun k handler =>
    ⟨handler.policy, handler.warm || !(markers k es).isEmpty⟩
  clients := s.clients.mapIdx fun c client => ⟨client.errand, s.progressOf es c client.errand⟩

/-- The histories that can occur. Each client marks its handler at most once and accesses the holder
at most once, in this order. -/
inductive Legal (s : Shared) : List Event → Prop where
  | nil : Legal s []
  | marked {es : List Event} {c k : Nat} {r : Request} {p : Progress} {handler : Handler}
      (hes : Legal s es) (hclient : s.clients[c]? = some ⟨.invoke k r, p⟩)
      (hhandler : s.handlers[k]? = some handler) (hnew : mark? es c = none) :
      Legal s (es ++ [.marked c k (handler.warm || !(markers k es).isEmpty)])
  | accessed {es : List Event} {c : Nat} {client : Client} (hes : Legal s es)
      (hclient : s.clients[c]? = some client) (hnew : c ∉ accesses es)
      (hmarked : ∀ k r, client.errand = .invoke k r → ∃ w, mark? es c = some w) :
      Legal s (es ++ [.accessed c])

/-! ## One more event -/

section Concat

variable {s : Shared} {es : List Event} {c k : Nat} {w : Bool}

@[simp]
theorem accesses_concat_marked : accesses (es ++ [.marked c k w]) = accesses es := by
  simp [accesses]

@[simp]
theorem accesses_concat_accessed : accesses (es ++ [.accessed c]) = accesses es ++ [c] := by
  simp [accesses]

@[simp]
theorem markers_concat_accessed : markers k (es ++ [.accessed c]) = markers k es := by
  simp [markers]

theorem markers_concat_marked (k' : Nat) :
    markers k' (es ++ [.marked c k w]) = markers k' es ++ if k = k' then [c] else [] := by
  by_cases hk : k = k' <;> simp [markers, hk]

@[simp]
theorem mark?_concat_accessed (c' : Nat) : mark? (es ++ [.accessed c]) c' = mark? es c' := by
  simp [mark?]

theorem mark?_concat_marked (c' : Nat) :
    mark? (es ++ [.marked c k w]) c' = (mark? es c').or (if c = c' then some w else none) := by
  simp [mark?, List.findSome?_append]

@[simp]
theorem serial_concat (order : List Nat) :
    s.serial (order ++ [c]) = (s.serial order).update (s.value? c) := by
  simp [serial]

theorem upTo_concat_of_mem {order : List Nat} {c' : Nat} (h : c ∈ order) :
    upTo c (order ++ [c']) = upTo c order := by
  have hlt : order.idxOf c < order.length := List.idxOf_lt_length_iff.2 h
  rw [upTo, upTo, List.idxOf_append_of_mem h, List.take_append_of_le_length hlt]

theorem upTo_concat_self {order : List Nat} (h : c ∉ order) :
    upTo c (order ++ [c]) = order ++ [c] := by
  rw [upTo, List.idxOf_append_of_notMem h]
  simp

/-- Only the client that moves gets on. -/
theorem progressOf_concat_of_ne {e : Event} (h : e.client ≠ c) (errand : Errand) :
    s.progressOf (es ++ [e]) c errand = s.progressOf es c errand := by
  cases e with
  | marked c' k' w' =>
      have hne : c' ≠ c := h
      have hmark : mark? (es ++ [.marked c' k' w']) c = mark? es c := by
        rw [mark?_concat_marked, if_neg hne, Option.or_none]
      cases errand <;> simp only [progressOf, hmark, accesses_concat_marked]
  | accessed c' =>
      have hmem : c ∈ accesses es ++ [c'] ↔ c ∈ accesses es := by
        simpa using fun hc : c = c' => absurd hc.symm h
      by_cases hc : c ∈ accesses es
      · cases errand <;> simp only [progressOf, mark?_concat_accessed, accesses_concat_accessed,
          hmem, upTo_concat_of_mem hc]
      · cases errand <;> simp only [progressOf, mark?_concat_accessed, accesses_concat_accessed,
          hmem, hc, if_false]

theorem getElem?_clients_expected (s : Shared) (es : List Event) (c : Nat) :
    (s.expected es).clients[c]? = s.clients[c]?.map fun client =>
      ⟨client.errand, s.progressOf es c client.errand⟩ := by
  rw [expected, List.getElem?_mapIdx]

theorem getElem?_handlers_expected (s : Shared) (es : List Event) (k : Nat) :
    (s.expected es).handlers[k]? = s.handlers[k]?.map fun handler =>
      ⟨handler.policy, handler.warm || !(markers k es).isEmpty⟩ := by
  rw [expected, List.getElem?_mapIdx]

theorem errands_expected (s : Shared) (es : List Event) :
    (s.expected es).clients.map Client.errand = s.clients.map Client.errand := by
  apply List.ext_getElem?
  intro c
  rw [List.getElem?_map, List.getElem?_map, getElem?_clients_expected, Option.map_map]
  rfl

theorem clients_expected_concat {client : Client} (es : List Event) (e : Event)
    (hclient : s.clients[e.client]? = some client) :
    (s.expected (es ++ [e])).clients = (s.expected es).clients.set e.client
      ⟨client.errand, s.progressOf (es ++ [e]) e.client client.errand⟩ := by
  apply List.ext_getElem?
  intro c'
  rw [List.getElem?_set, getElem?_clients_expected, getElem?_clients_expected]
  by_cases hc : e.client = c'
  · have hlt : e.client < (s.expected es).clients.length := by
      rw [expected, List.length_mapIdx]
      exact (List.getElem?_eq_some_iff.1 hclient).1
    simp [← hc, hclient, hlt]
  · simp only [if_neg hc, progressOf_concat_of_ne hc]

theorem handlers_expected_concat_marked {handler : Handler}
    (hhandler : s.handlers[k]? = some handler) :
    (s.expected (es ++ [.marked c k w])).handlers
      = (s.expected es).handlers.set k ⟨handler.policy, true⟩ := by
  apply List.ext_getElem?
  intro k'
  rw [List.getElem?_set, getElem?_handlers_expected, getElem?_handlers_expected,
    markers_concat_marked]
  by_cases hk : k = k'
  · have hlt : k < (s.expected es).handlers.length := by
      rw [expected, List.length_mapIdx]
      exact (List.getElem?_eq_some_iff.1 hhandler).1
    subst hk
    simp [hhandler, hlt]
  · simp [hk]

end Concat

/-! ## One move -/

section Move

variable {s t : Shared} {es : List Event} {c k : Nat} {e : Event}

/-- A client marks its handler. -/
theorem settle_marked {r : Request} {p : Progress} {handler : Handler}
    (hclient : s.clients[c]? = some ⟨.invoke k r, p⟩) (hhandler : s.handlers[k]? = some handler)
    (hnew : mark? es c = none) (hnot : c ∉ accesses es) (w : Bool) :
    { s.expected es with handlers := (s.expected es).handlers.set k ⟨handler.policy, true⟩ }.settle c
        (.invoke k r) (.marked w) = s.expected (es ++ [.marked c k w]) := by
  have hprogress : s.progressOf (es ++ [.marked c k w]) c (.invoke k r) = .marked w := by
    simp [progressOf, mark?_concat_marked, hnew, hnot]
  have hclients := clients_expected_concat es (.marked c k w) hclient
  refine Shared.ext ?_ ?_ ?_
  · simp [settle, expected]
  · exact (handlers_expected_concat_marked hhandler).symm
  · rw [hclients]
    simp only [settle, Event.client, hprogress]

/-- A client accesses the holder. -/
theorem settle_accessed {errand : Errand} {p : Progress}
    (hclient : s.clients[c]? = some ⟨errand, p⟩) {holder : Holder} {progress : Progress}
    (hholder : holder = (s.serial (accesses es)).update (s.value? c))
    (hprogress : s.progressOf (es ++ [.accessed c]) c errand = progress) :
    { s.expected es with holder := holder }.settle c errand progress
      = s.expected (es ++ [.accessed c]) := by
  have hclients := clients_expected_concat es (.accessed c) hclient
  refine Shared.ext ?_ ?_ ?_
  · simp [settle, expected, hholder]
  · simp [settle, expected]
  · rw [hclients]
    simp only [settle, Event.client, hprogress]

theorem progressOf_concat_accessed (hnew : c ∉ accesses es) (errand : Errand) :
    s.progressOf (es ++ [.accessed c]) c errand =
      match errand with
      | .invoke _ _ =>
        match mark? es c with
        | none => .waiting
        | some warm => .served warm ⟨((s.serial (accesses es)).update (s.value? c)).message⟩
      | .setMessage _ => .written
      | .message => .told ((s.serial (accesses es)).update (s.value? c)).message := by
  cases errand <;> simp [progressOf, upTo_concat_self hnew]

/-- A request is served only after the mark. -/
theorem Legal.not_mem_accesses (hes : s.Legal es) {r : Request} {p : Progress}
    (hclient : s.clients[c]? = some ⟨.invoke k r, p⟩) (hnone : mark? es c = none) :
    c ∉ accesses es := by
  induction hes with
  | nil => simp [accesses]
  | marked hes _ _ _ ih =>
      rw [mark?_concat_marked, Option.or_eq_none_iff] at hnone
      simpa using ih hnone.1
  | accessed hes hclient' _ hmarked ih =>
      rw [mark?_concat_accessed] at hnone
      rw [accesses_concat_accessed, List.mem_append, List.mem_singleton]
      rintro (hold | rfl)
      · exact ih hnone hold
      · rw [hclient] at hclient'
        cases hclient'
        rcases hmarked k r rfl with ⟨w, hw⟩
        rw [hnone] at hw
        cases hw

theorem move_expected (hes : s.Legal es) (h : (s.expected es).move c = some (t, e)) :
    s.Legal (es ++ [e]) ∧ t = s.expected (es ++ [e]) ∧ e.client = c := by
  rw [move, getElem?_clients_expected] at h
  cases hclient : s.clients[c]? with
  | none => simp [hclient] at h
  | some client =>
      rcases client with ⟨errand, p⟩
      simp only [hclient, Option.map_some, Option.bind_eq_bind, Option.bind_some] at h
      cases errand with
      | invoke k r =>
          cases hmark : mark? es c with
          | none =>
              -- the first move of two
              have hnot := hes.not_mem_accesses hclient hmark
              simp only [progressOf, hmark, getElem?_handlers_expected] at h
              cases hhandler : s.handlers[k]? with
              | none => simp [hhandler] at h
              | some handler =>
                  simp only [hhandler, Option.map_some, Option.bind_some] at h
                  cases h
                  exact ⟨.marked hes hclient hhandler hmark,
                    settle_marked hclient hhandler hmark hnot _, rfl⟩
          | some w =>
              -- the second move, unless it has been made
              simp only [progressOf, hmark] at h
              by_cases hnew : c ∈ accesses es
              · simp [hnew] at h
              · simp only [hnew, if_false, getElem?_handlers_expected] at h
                cases hhandler : s.handlers[k]? with
                | none => simp [hhandler] at h
                | some handler =>
                    simp only [hhandler, Option.map_some, Option.bind_some] at h
                    cases h
                    have hvalue : s.value? c = handler.accepted r := by
                      simp [value?, hclient, hhandler]
                    refine ⟨.accessed hes hclient hnew fun _ _ _ => ⟨w, hmark⟩, ?_, rfl⟩
                    refine settle_accessed hclient (by rw [hvalue]; rfl) ?_
                    rw [progressOf_concat_accessed hnew]
                    simp only [hmark, hvalue]
                    rfl
      | setMessage value =>
          by_cases hnew : c ∈ accesses es
          · simp [progressOf, hnew] at h
          · simp only [progressOf, hnew, if_false] at h
            cases h
            have hvalue : s.value? c = some value := by simp [value?, hclient]
            refine ⟨.accessed hes hclient hnew (by simp), ?_, rfl⟩
            exact settle_accessed hclient (by rw [hvalue]; rfl) (progressOf_concat_accessed hnew _)
      | message =>
          by_cases hnew : c ∈ accesses es
          · simp [progressOf, hnew] at h
          · simp only [progressOf, hnew, if_false] at h
            cases h
            have hvalue : s.value? c = none := by simp [value?, hclient]
            refine ⟨.accessed hes hclient hnew (by simp), ?_, rfl⟩
            have hholder : s.serial (accesses es)
                = (s.serial (accesses es)).update (s.value? c) := by
              rw [hvalue]
              rfl
            refine settle_accessed hclient hholder ?_
            rw [progressOf_concat_accessed hnew, hvalue]
            rfl

/-! ## All moves -/

theorem run_expected {schedule : List Nat} {new : List Event} (hes : s.Legal es)
    (h : (s.expected es).run schedule = some (t, new)) :
    s.Legal (es ++ new) ∧ t = s.expected (es ++ new) ∧ new.map Event.client = schedule := by
  induction schedule generalizing es new with
  | nil =>
      cases h
      exact ⟨by simpa using hes, by simp, rfl⟩
  | cons c schedule ih =>
      rw [run] at h
      rcases Option.bind_eq_some_iff.1 h with ⟨⟨next, e⟩, hmove, hrest⟩
      rcases Option.bind_eq_some_iff.1 hrest with ⟨⟨last, others⟩, hothers, hpure⟩
      cases hpure
      rcases move_expected hes hmove with ⟨hlegal, rfl, hclient⟩
      rcases ih hlegal hothers with ⟨hlegal', ht, hclients⟩
      rw [List.append_assoc] at hlegal' ht
      exact ⟨hlegal', ht, by rw [List.map_cons, hclient, hclients]⟩

theorem expected_nil (holder : Holder) (handlers : List Handler) (errands : List Errand) :
    (start holder handlers errands).expected [] = start holder handlers errands := by
  refine Shared.ext rfl ?_ ?_
  · apply List.ext_getElem?
    intro k
    rw [getElem?_handlers_expected]
    cases (start holder handlers errands).handlers[k]? with
    | none => rfl
    | some handler => simp [markers]
  · apply List.ext_getElem?
    intro c
    rw [getElem?_clients_expected, start, List.getElem?_map]
    cases errands[c]? with
    | none => rfl
    | some errand => cases errand <;> rfl

end Move

/-! ## Marks -/

section Marks

variable {s : Shared} {es : List Event} {c k : Nat} {w : Bool}

/-- A client has marked a handler, which was warm or not before. -/
def Observes (s : Shared) (c k : Nat) (w : Bool) : Prop :=
  ∃ r p, s.clients[c]? = some ⟨.invoke k r, p⟩ ∧ p.warm? = some w

theorem Legal.mark?_eq_some_iff (hes : s.Legal es) :
    mark? es c = some w ↔ ∃ k, .marked c k w ∈ es := by
  induction hes with
  | nil => simp [mark?]
  | accessed hes _ _ _ ih => simpa using ih
  | @marked es c' k' r p handler hes _ _ hnew ih =>
      rw [mark?_concat_marked, Option.or_eq_some_iff, ih]
      by_cases hc : c' = c
      · -- this client had not marked anything before
        subst hc
        have hold : ¬ ∃ k, .marked c' k w ∈ es := by
          rw [← ih, hnew]
          simp
        simp only [not_exists] at hold
        simp [hnew, hold, eq_comm]
      · have hne : ∀ k, Event.marked c k w ≠ .marked c' k' (handler.warm || !(markers k' es).isEmpty) := by
          intro k heq
          cases heq
          exact hc rfl
        simp [hc, hne]

theorem mem_markers (h : .marked c k w ∈ es) : c ∈ markers k es := by
  rw [markers, List.mem_filterMap]
  exact ⟨_, h, if_pos rfl⟩

theorem exists_mem_of_mem_markers (h : c ∈ markers k es) : ∃ w, .marked c k w ∈ es := by
  rw [markers, List.mem_filterMap] at h
  rcases h with ⟨e, he, hc⟩
  cases e with
  | marked c' k' w =>
      simp only [Option.ite_none_right_eq_some, Option.some.injEq] at hc
      rcases hc with ⟨rfl, rfl⟩
      exact ⟨w, he⟩
  | accessed c' => cases hc

/-- What a client was told is right: its handler was cold if it was so from the start and nobody
else had come before. -/
theorem Legal.marked_mem (hes : s.Legal es) (h : .marked c k w ∈ es) :
    (∃ r p, s.clients[c]? = some ⟨.invoke k r, p⟩) ∧
      ∃ handler, s.handlers[k]? = some handler ∧
        (w = false ↔ handler.warm = false ∧ (markers k es).head? = some c) := by
  induction hes with
  | nil => cases h
  | accessed hes _ _ _ ih => simpa using ih (by simpa using h)
  | @marked es c' k' r p handler hes hclient hhandler hnew ih =>
      rw [List.mem_append, List.mem_singleton] at h
      rw [markers_concat_marked]
      rcases h with hold | hlast
      · -- those who came before are still the first
        rcases ih hold with ⟨hclient', handler', hhandler', hiff⟩
        have hne : markers k es ≠ [] := List.ne_nil_of_mem (mem_markers hold)
        exact ⟨hclient', handler', hhandler', by rw [List.head?_append_of_ne_nil _ hne, hiff]⟩
      · cases hlast
        refine ⟨⟨r, p, hclient⟩, handler, hhandler, ?_⟩
        rw [if_pos rfl]
        cases hmarkers : markers k es with
        | nil => simp
        | cons first others =>
            have hfirst : c ≠ first := by
              rintro rfl
              rcases exists_mem_of_mem_markers (by simp [hmarkers] : c ∈ markers k es) with ⟨w, hw⟩
              have hsome := hes.mark?_eq_some_iff.2 ⟨k, hw⟩
              rw [hnew] at hsome
              cases hsome
            simp [hfirst.symm]

theorem observes_expected_iff (hes : s.Legal es) :
    (s.expected es).Observes c k w ↔ .marked c k w ∈ es := by
  constructor
  · rintro ⟨r, p, hclient, hw⟩
    rw [getElem?_clients_expected, Option.map_eq_some_iff] at hclient
    rcases hclient with ⟨client, hclient, heq⟩
    rcases client with ⟨errand, p'⟩
    cases heq
    have hmark : mark? es c = some w := by
      rw [progressOf] at hw
      cases hmark : mark? es c with
      | none => simp [hmark, Progress.warm?] at hw
      | some w' =>
          simp only [hmark] at hw
          split at hw <;> exact hw
    rcases hes.mark?_eq_some_iff.1 hmark with ⟨k', hmem⟩
    rcases (hes.marked_mem hmem).1 with ⟨r', p'', hclient'⟩
    rw [hclient] at hclient'
    cases hclient'
    exact hmem
  · intro hmem
    rcases (hes.marked_mem hmem).1 with ⟨r, p, hclient⟩
    have hmark : mark? es c = some w := hes.mark?_eq_some_iff.2 ⟨k, hmem⟩
    refine ⟨r, s.progressOf es c (.invoke k r), by rw [getElem?_clients_expected, hclient]; rfl, ?_⟩
    rw [progressOf, hmark]
    dsimp only
    split <;> rfl

/-- Whoever has moved to serve a request has marked the handler. -/
theorem exists_observes {r : Request} {p : Progress}
    (hclient : (s.expected es).clients[c]? = some ⟨.invoke k r, p⟩) (hp : p ≠ .waiting) :
    ∃ w, (s.expected es).Observes c k w := by
  have hprogress : s.progressOf es c (.invoke k r) = p := by
    rw [getElem?_clients_expected, Option.map_eq_some_iff] at hclient
    rcases hclient with ⟨⟨errand, p'⟩, _, heq⟩
    cases heq
    rfl
  cases hmark : mark? es c with
  | none =>
      rw [progressOf, hmark] at hprogress
      exact absurd hprogress.symm hp
  | some w =>
      refine ⟨w, r, p, hclient, ?_⟩
      rw [← hprogress, progressOf, hmark]
      dsimp only
      split <;> rfl

/-- Nobody finds a handler cold that was warm from the start. -/
theorem not_observes_of_warm (hes : s.Legal es) {handler : Handler}
    (hhandler : s.handlers[k]? = some handler) (hwarm : handler.warm = true) (c : Nat) :
    ¬ (s.expected es).Observes c k false := by
  intro h
  rw [observes_expected_iff hes] at h
  rcases (hes.marked_mem h).2 with ⟨handler', hhandler', hiff⟩
  rw [hhandler] at hhandler'
  cases hhandler'
  have hcold := (hiff.1 rfl).1
  rw [hwarm] at hcold
  cases hcold

/-- Of the clients of a cold handler, the first one to mark it finds it cold, and no other. -/
theorem observes_cold_iff (hes : s.Legal es) {handler : Handler}
    (hhandler : s.handlers[k]? = some handler) (hcold : handler.warm = false)
    (h : (s.expected es).Observes c k w) :
    ∃ first, (markers k es).head? = some first ∧
      ∀ c', (s.expected es).Observes c' k false ↔ c' = first := by
  rw [observes_expected_iff hes] at h
  cases hmarkers : markers k es with
  | nil => exact absurd (mem_markers h) (by simp [hmarkers])
  | cons first others =>
      refine ⟨first, rfl, fun c' => ?_⟩
      rw [observes_expected_iff hes]
      constructor
      · intro hmem
        rcases (hes.marked_mem hmem).2 with ⟨handler', _, hiff⟩
        have hhead := (hiff.1 rfl).2
        rw [hmarkers] at hhead
        exact (Option.some.inj hhead).symm
      · rintro rfl
        rcases exists_mem_of_mem_markers (by simp [hmarkers] : c' ∈ markers k es) with ⟨w', hw'⟩
        rcases (hes.marked_mem hw').2 with ⟨handler', hhandler', hiff⟩
        rw [hhandler] at hhandler'
        cases hhandler'
        have hfalse : w' = false := hiff.2 ⟨hcold, by rw [hmarkers]; rfl⟩
        rw [← hfalse]
        exact hw'

end Marks

/-! ## Accesses -/

section Accesses

variable {s : Shared} {es : List Event} {c : Nat}

/-- One access after another leaves the last text written. -/
theorem serial_message (s : Shared) (order : List Nat) :
    (s.serial order).message = (order.filterMap s.value?).getLastD s.holder.message := by
  induction order using List.reverseRecOn with
  | nil => rfl
  | append_singleton order c ih =>
      rw [serial_concat, List.filterMap_append, Holder.update, ih]
      cases hvalue : s.value? c <;> simp [hvalue]

theorem Legal.nodup_accesses (hes : s.Legal es) : (accesses es).Nodup := by
  induction hes with
  | nil => exact List.nodup_nil
  | marked hes _ _ _ ih => simpa using ih
  | accessed hes _ hnew _ ih =>
      rw [accesses_concat_accessed]
      rw [← List.concat_eq_append]
      exact ih.concat hnew

theorem Legal.exists_client (hes : s.Legal es) (h : c ∈ accesses es) :
    ∃ client, s.clients[c]? = some client := by
  induction hes with
  | nil => simp [accesses] at h
  | marked hes _ _ _ ih => exact ih (by simpa using h)
  | accessed hes hclient _ _ ih =>
      rw [accesses_concat_accessed, List.mem_append, List.mem_singleton] at h
      rcases h with hold | rfl
      · exact ih hold
      · exact ⟨_, hclient⟩

theorem isFinished_progressOf_iff (hes : s.Legal es) {client : Client}
    (hclient : s.clients[c]? = some client) :
    (s.progressOf es c client.errand).isFinished = true ↔ c ∈ accesses es := by
  rcases client with ⟨errand, p⟩
  cases errand with
  | invoke k r =>
      cases hmark : mark? es c with
      | none =>
          have hnot := hes.not_mem_accesses hclient hmark
          simp [progressOf, hmark, hnot, Progress.isFinished]
      | some w => by_cases hc : c ∈ accesses es <;> simp [progressOf, hmark, hc, Progress.isFinished]
  | setMessage value => by_cases hc : c ∈ accesses es <;> simp [progressOf, hc, Progress.isFinished]
  | message => by_cases hc : c ∈ accesses es <;> simp [progressOf, hc, Progress.isFinished]

/-- The clients that have accessed the holder are those that have finished. -/
theorem Legal.mem_accesses_iff (hes : s.Legal es) :
    c ∈ accesses es ↔
      ∃ client, (s.expected es).clients[c]? = some client ∧ client.progress.isFinished = true := by
  simp only [getElem?_clients_expected, Option.map_eq_some_iff]
  constructor
  · intro h
    rcases hes.exists_client h with ⟨client, hclient⟩
    exact ⟨_, ⟨client, hclient, rfl⟩, (isFinished_progressOf_iff hes hclient).2 h⟩
  · rintro ⟨_, ⟨client, hclient, rfl⟩, hfinished⟩
    exact (isFinished_progressOf_iff hes hclient).1 hfinished

theorem upTo_eq {earlier later : List Nat} (h : (earlier ++ c :: later).Nodup) :
    upTo c (earlier ++ c :: later) = earlier ++ [c] := by
  have hnew : c ∉ earlier := by
    rw [List.nodup_middle, List.nodup_cons] at h
    exact fun hmem => h.1 (List.mem_append_left _ hmem)
  rw [upTo, List.idxOf_append_of_notMem hnew, List.idxOf_cons_self, Nat.add_zero,
    List.take_length_add_append]
  rfl

/-- How a client ends that has accessed the holder and left a message there. -/
def Ends (m : String) : Errand → Progress → Prop
  | .invoke _ _, progress => ∃ warm, progress = .served warm ⟨m⟩
  | .setMessage _, progress => progress = .written
  | .message, progress => progress = .told m

/-- A client is given the message as it stands behind its own access. -/
theorem ends_expected (hes : s.Legal es) {earlier later : List Nat}
    (h : accesses es = earlier ++ c :: later) :
    ∃ client, (s.expected es).clients[c]? = some client ∧
      Ends (s.serial (earlier ++ [c])).message client.errand client.progress := by
  have hmem : c ∈ accesses es := by simp [h]
  have hupTo : upTo c (accesses es) = earlier ++ [c] := by
    have hnodup := hes.nodup_accesses
    rw [h] at hnodup ⊢
    exact upTo_eq hnodup
  rcases hes.exists_client hmem with ⟨⟨errand, p⟩, hclient⟩
  refine ⟨_, by rw [getElem?_clients_expected, hclient]; rfl, ?_⟩
  cases errand with
  | invoke k r =>
      cases hmark : mark? es c with
      | none => exact absurd hmem (hes.not_mem_accesses hclient hmark)
      | some w => simp [Ends, progressOf, hmark, hmem, hupTo]
  | setMessage value => simp [Ends, progressOf, hmem]
  | message => simp [Ends, progressOf, hmem, hupTo]

/-- Behind an access the holder has the client's own text if it writes one, else the last one
written before. -/
theorem serial_concat_message (s : Shared) (earlier : List Nat) (c : Nat) :
    (s.serial (earlier ++ [c])).message
      = (s.value? c).getD ((earlier.filterMap s.value?).getLastD s.holder.message) := by
  rw [serial_concat, Holder.update, serial_message]

end Accesses

/-! ## Moves that can be made -/

section Left

variable {s : Shared} {es : List Event} {c : Nat}

/-- Nobody waits for anybody: a client that has not finished has a move. -/
theorem move_expected_isSome {client : Client}
    (hclient : (s.expected es).clients[c]? = some client)
    (hfinished : client.progress.isFinished = false)
    (hhandler : ∀ k r, client.errand = .invoke k r → k < s.handlers.length) :
    ((s.expected es).move c).isSome = true := by
  rw [move, hclient]
  rw [getElem?_clients_expected, Option.map_eq_some_iff] at hclient
  rcases hclient with ⟨⟨errand, p⟩, _, rfl⟩
  cases errand with
  | invoke k r =>
      have hget : (s.expected es).handlers[k]? ≠ none := by
        rw [getElem?_handlers_expected, List.getElem?_eq_getElem (hhandler k r rfl)]
        simp
      rcases Option.ne_none_iff_exists'.1 hget with ⟨handler, hget⟩
      cases hmark : mark? es c with
      | none => simp [progressOf, hmark, hget]
      | some w =>
          by_cases hc : c ∈ accesses es
          · simp [progressOf, hmark, hc, Progress.isFinished] at hfinished
          · simp [progressOf, hmark, hc, hget]
  | setMessage value =>
      by_cases hc : c ∈ accesses es
      · simp [progressOf, hc, Progress.isFinished] at hfinished
      · simp [progressOf, hc]
  | message =>
      by_cases hc : c ∈ accesses es
      · simp [progressOf, hc, Progress.isFinished] at hfinished
      · simp [progressOf, hc]

/-- Undisturbed, the two moves of a client come to `Handler.invoke`. -/
theorem run_undisturbed {k : Nat} {r : Request} {handler : Handler}
    (hclient : s.clients[c]? = some ⟨.invoke k r, .waiting⟩)
    (hhandler : s.handlers[k]? = some handler) :
    s.run [c, c] = some
      ({ s with
          holder := (handler.invoke s.holder r).holder
          handlers := s.handlers.set k (handler.invoke s.holder r).handler }.settle c
        (.invoke k r)
        (.served (handler.invoke s.holder r).warm (handler.invoke s.holder r).response),
      [.marked c k handler.warm, .accessed c]) := by
  have hc : c < s.clients.length := (List.getElem?_eq_some_iff.1 hclient).1
  have hk : k < s.handlers.length := (List.getElem?_eq_some_iff.1 hhandler).1
  -- the handler is marked, and the holder still as it was
  let between := { s with handlers := s.handlers.set k handler.warmed }.settle c (.invoke k r)
    (.marked handler.warm)
  have hmarked : s.move c = some (between, .marked c k handler.warm) := by
    simp [move, hclient, hhandler, between]
  have hserved : between.move c = some
      ({ s with
          holder := (handler.invoke s.holder r).holder
          handlers := s.handlers.set k (handler.invoke s.holder r).handler }.settle c
        (.invoke k r)
        (.served (handler.invoke s.holder r).warm (handler.invoke s.holder r).response),
      .accessed c) := by
    simp [between, move, settle, hc, hk, Handler.invoke, Handler.accepted, Handler.warmed]
  simp only [run, hmarked, hserved, Option.bind_eq_bind, Option.bind_some, Option.pure_def]

end Left

/-- What clients can rely on, from the start of a run to any state that it leads to. -/
structure Reliable (first now : Shared) (es : List Event) : Prop where
  /-- Everybody stays with what there was to do. -/
  errands : now.clients.map Client.errand = first.clients.map Client.errand
  /-- Nobody finds a handler cold that was warm from the start. Any other one is cold for exactly one
  client as soon as somebody serves by it: for the first that marks it. -/
  marks : ∀ k handler, first.handlers[k]? = some handler →
    (handler.warm = true → ∀ c, ¬ now.Observes c k false) ∧
      (handler.warm = false →
        (∃ (c : Nat) (r : Request) (p : Progress),
          now.clients[c]? = some ⟨.invoke k r, p⟩ ∧ p ≠ .waiting) →
          ∃ c', (markers k es).head? = some c' ∧ ∀ c, now.Observes c k false ↔ c = c')
  /-- Each client accesses the holder once, and has finished then. -/
  once : (accesses es).Nodup ∧ ∀ c, c ∈ accesses es ↔
    ∃ client, now.clients[c]? = some client ∧ client.progress.isFinished = true
  /-- The holder is what one access after another makes of it. -/
  holder : now.holder = first.serial (accesses es) ∧
    now.holder.message = ((accesses es).filterMap first.value?).getLastD first.holder.message
  /-- Each client is given what it would be given in its turn: its own text if it writes one, else
  the last one written before. -/
  messages : ∀ earlier c later, accesses es = earlier ++ c :: later →
    (∃ client, now.clients[c]? = some client ∧
      Ends (first.serial (earlier ++ [c])).message client.errand client.progress) ∧
    (first.serial (earlier ++ [c])).message
      = (first.value? c).getD ((earlier.filterMap first.value?).getLastD first.holder.message)
  /-- Nobody waits for anybody. -/
  left : ∀ c client, now.clients[c]? = some client → client.progress.isFinished = false →
    (∀ k r, client.errand = .invoke k r → k < first.handlers.length) → (now.move c).isSome = true

/-- However the moves of clients are ordered, they can rely on the holder and its handlers. -/
theorem reliable_run {holder : Holder} {handlers : List Handler} {errands : List Errand}
    {schedule : List Nat} {now : Shared} {es : List Event}
    (h : (start holder handlers errands).run schedule = some (now, es)) :
    es.map Event.client = schedule ∧ Reliable (start holder handlers errands) now es := by
  rw [← expected_nil] at h
  rcases run_expected .nil h with ⟨hes, rfl, hschedule⟩
  rw [List.nil_append] at hes ⊢
  refine ⟨hschedule, ?_⟩
  exact {
    errands := errands_expected _ _
    marks := fun k handler hhandler => ⟨not_observes_of_warm hes hhandler, by
      rintro hcold ⟨c, r, p, hclient, hp⟩
      rcases exists_observes hclient hp with ⟨w, hobserves⟩
      exact observes_cold_iff hes hhandler hcold hobserves⟩
    once := ⟨hes.nodup_accesses, fun c => hes.mem_accesses_iff⟩
    holder := ⟨rfl, serial_message _ _⟩
    messages := fun earlier c later horder =>
      ⟨ends_expected hes horder, serial_concat_message _ earlier c⟩
    left := fun c client hclient hfinished hhandler =>
      move_expected_isSome hclient hfinished hhandler }

/-- Two handlers of one holder, the second of which is warm and takes no empty text. -/
def busy : Shared :=
  start .default [.cold .overwrite, ⟨.ignore, true⟩]
    [.invoke 0 ⟨some "a", none, none⟩, .invoke 0 Request.empty, .invoke 1 ⟨some "", none, none⟩,
      .setMessage "m", .message]

/-- The second client marks the handler first, and gets to the holder only after two others. -/
def overtaken : List Nat := [1, 0, 0, 3, 1, 2, 2, 4]

theorem reliable_run_overtaken :
    ∃ now es, busy.run overtaken = some (now, es) ∧ now.Observes 1 0 false ∧ now.Observes 0 0 true ∧
      (∀ c, now.Observes c 0 false → c = 1) ∧ now.holder.message = "m" ∧ Reliable busy now es := by
  have hrun : busy.run overtaken = some
      (⟨⟨"m"⟩, [⟨.overwrite, true⟩, ⟨.ignore, true⟩],
        [⟨.invoke 0 ⟨some "a", none, none⟩, .served true ⟨"a"⟩⟩,
          ⟨.invoke 0 Request.empty, .served false ⟨"m"⟩⟩,
          ⟨.invoke 1 ⟨some "", none, none⟩, .served true ⟨"m"⟩⟩,
          ⟨.setMessage "m", .written⟩, ⟨.message, .told "m"⟩]⟩,
      [.marked 1 0 false, .marked 0 0 true, .accessed 0, .accessed 3, .accessed 1,
        .marked 2 1 true, .accessed 2, .accessed 4]) := by decide
  rcases reliable_run hrun with ⟨_, hreliable⟩
  have hserved := (hreliable.marks 0 (.cold .overwrite) rfl).2 rfl ⟨1, _, _, rfl, nofun⟩
  rcases hserved with ⟨first, hhead, honly⟩
  cases hhead
  exact ⟨_, _, hrun, ⟨_, _, rfl, rfl⟩, ⟨_, _, rfl, rfl⟩, fun c => (honly c).1, rfl, hreliable⟩

end Shared
end GreetingService
