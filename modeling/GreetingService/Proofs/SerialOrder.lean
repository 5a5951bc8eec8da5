import GreetingService.Proofs.LastText
import GreetingService.Proofs.SharedUse

/-!
# Whole invocations in one order

Clients of one handler mark it and then access the holder. The order of the marks explains who has
found the handler cold, and the order of the accesses explains all responses and the greeting in the
end, but these are two orders. One order explains both of them exactly if whoever has found the
handler cold may be taken to have been the first to access the holder.
-/

namespace GreetingService
namespace Shared

open LastText

/-- The clients of one handler, before any of them has moved. -/
def team (handler : Handler) (holder : Holder) (requests : List Request) : Shared :=
  start holder [handler] (requests.map (.invoke 0))

/-- The schedule in which clients are served one after another. -/
def inTurn (order : List Nat) : List Nat :=
  order.flatMap fun c => [c, c]

/-- A state that is also reached by serving all clients one after another. -/
def IsSerial (s now : Shared) : Prop :=
  ∃ order es, order.Perm (List.range s.clients.length) ∧ s.run (inTurn order) = some (now, es)

/-- A client has been served with a message. -/
def Gives (s : Shared) (c : Nat) (m : String) : Prop :=
  ∃ errand warm, s.clients[c]? = some ⟨errand, .served warm ⟨m⟩⟩

/-- A client that was given `m` may be taken for the first to access the holder. -/
structure MayBeFirst (s now : Shared) (c : Nat) (m : String) : Prop where
  /-- It was given what is given to the first. -/
  own : m = (s.value? c).getD s.holder.message
  /-- Nobody was given a text that stood in the holder only before. -/
  others : ∀ c' m', now.Gives c' m' → m' = m ∨ ∃ writer, writer ≠ c ∧ s.value? writer = some m'
  /-- If anybody else writes a text, then such a text is left in the end. -/
  last : (∃ writer, writer ≠ c ∧ (s.value? writer).isSome = true) →
    ∃ writer, writer ≠ c ∧ s.value? writer = some now.holder.message

/-! ## Orders that explain what clients were told -/

section Order

variable {text : Nat → Option String} {told : Nat → String} {m : String} {r : Nat}
  {order front back readers writers : List Nat}

/-- Accessing the holder in this order, from a message on, clients with the given texts are told the
given messages. -/
def Explains (text : Nat → Option String) (told : Nat → String) : String → List Nat → Prop
  | _, [] => True
  | m, c :: order => told c = (text c).getD m ∧ Explains text told (told c) order

theorem Explains.told_eq (h : Explains text told m order) {earlier later : List Nat} {c : Nat}
    (horder : order = earlier ++ c :: later) :
    told c = (text c).getD ((earlier.filterMap text).getLastD m) := by
  induction earlier generalizing order m with
  | nil =>
      subst horder
      exact h.1
  | cons d earlier ih =>
      subst horder
      rw [getLastD_filterMap_cons, ← h.1]
      exact ih h.2 rfl

/-- Nobody notices a client that only reads. -/
theorem Explains.insert (h : Explains text told m (front ++ back)) (hr : text r = none)
    (htold : told r = (front.filterMap text).getLastD m) :
    Explains text told m (front ++ r :: back) := by
  induction front generalizing m with
  | nil =>
      have hm : told r = m := htold
      refine ⟨by rw [hr, hm]; rfl, ?_⟩
      rw [hm]
      exact h
  | cons c front ih =>
      rw [getLastD_filterMap_cons, ← h.1] at htold
      exact ⟨h.1, ih h.2 htold⟩

/-- A client that only reads finds its place behind a client that has written what it was told. -/
theorem Explains.exists_insert (h : Explains text told m order) (hr : text r = none)
    (hfrom : told r = m ∨ ∃ writer ∈ order, text writer = some (told r)) :
    ∃ order', order'.Perm (r :: order) ∧ Explains text told m order' ∧
      order'.filterMap text = order.filterMap text := by
  have hsplit : ∃ front back, order = front ++ back ∧
      told r = (front.filterMap text).getLastD m := by
    rcases hfrom with hm | ⟨writer, hmem, hwriter⟩
    · exact ⟨[], order, rfl, hm⟩
    · rcases List.append_of_mem hmem with ⟨front, back, rfl⟩
      exact ⟨front ++ [writer], back, by simp, by simp [hwriter]⟩
  rcases hsplit with ⟨front, back, rfl, htold⟩
  -- since it writes nothing, whoever comes behind it is told what it was told before
  exact ⟨front ++ r :: back, List.perm_middle, h.insert hr htold, by simp [hr]⟩

theorem Explains.exists_insert_all (h : Explains text told m writers)
    (hreaders : ∀ r ∈ readers, text r = none ∧
      (told r = m ∨ ∃ writer ∈ writers, text writer = some (told r))) :
    ∃ order, order.Perm (readers ++ writers) ∧ Explains text told m order ∧
      order.filterMap text = writers.filterMap text := by
  induction readers with
  | nil => exact ⟨writers, .refl _, h, rfl⟩
  | cons r readers ih =>
      rw [List.forall_mem_cons] at hreaders
      rcases hreaders with ⟨⟨hr, hfrom⟩, hrest⟩
      rcases ih hrest with ⟨order, hperm, hexplains, htexts⟩
      have hfrom' : told r = m ∨ ∃ writer ∈ order, text writer = some (told r) := by
        refine hfrom.imp_right ?_
        rintro ⟨writer, hmem, hwriter⟩
        exact ⟨writer, hperm.mem_iff.2 (List.mem_append_right _ hmem), hwriter⟩
      rcases hexplains.exists_insert hr hfrom' with ⟨order', hperm', hexplains', htexts'⟩
      exact ⟨order', hperm'.trans (hperm.cons r), hexplains', htexts'.trans htexts⟩

/-- Clients that write are told their own texts, whatever their order. -/
theorem explains_of_writers (h : ∀ c ∈ writers, text c = some (told c)) (m : String) :
    Explains text told m writers := by
  induction writers generalizing m with
  | nil => exact trivial
  | cons c writers ih =>
      rw [List.forall_mem_cons] at h
      exact ⟨by rw [h.1]; rfl, ih h.2 _⟩

/-- Clients that write can be put into an order with any of their texts at its end. -/
theorem exists_perm_writers {last : String} {cs : List Nat}
    (hlast : (∃ writer ∈ cs, text writer = some last) ∨ cs = [] ∧ last = m) :
    ∃ order : List Nat, order.Perm cs ∧ (order.filterMap text).getLastD m = last := by
  rcases hlast with ⟨writer, hmem, htext⟩ | ⟨rfl, rfl⟩
  · refine ⟨cs.erase writer ++ [writer], ?_, by simp [htext]⟩
    exact (List.perm_append_singleton _ _).trans (List.perm_cons_erase hmem).symm
  · exact ⟨[], .refl _, rfl⟩

/-- Clients can be put into an order that explains what they were told, and what is left in the end,
if each of them was told its own text, or else a text that was there at some time, and if what is
left is a text that one of them has written, as far as any of them has. -/
theorem exists_explains {last : String} (cs : List Nat)
    (hwriters : ∀ c ∈ cs, ∀ t, text c = some t → told c = t)
    (hreaders : ∀ c ∈ cs, text c = none →
      told c = m ∨ ∃ writer ∈ cs, text writer = some (told c))
    (hlast : (∃ writer ∈ cs, text writer = some last) ∨
      (∀ writer ∈ cs, text writer = none) ∧ last = m) :
    ∃ order : List Nat, order.Perm cs ∧ Explains text told m order ∧
      (order.filterMap text).getLastD m = last := by
  -- first those who write, and then the others among them
  have hmem : ∀ {c t}, c ∈ cs → text c = some t → c ∈ cs.filter fun c => !(text c).isNone := by
    intro c t hc htext
    simp [List.mem_filter, hc, htext]
  have hlast' : (∃ writer ∈ cs.filter fun c => !(text c).isNone, text writer = some last) ∨
      cs.filter (fun c => !(text c).isNone) = [] ∧ last = m := by
    refine hlast.imp ?_ ?_
    · rintro ⟨writer, hwriter, htext⟩
      exact ⟨writer, hmem hwriter htext, htext⟩
    · rintro ⟨hnone, hm⟩
      exact ⟨List.filter_eq_nil_iff.2 fun c hc => by simp [hnone c hc], hm⟩
  rcases exists_perm_writers hlast' with ⟨writers, hperm, hleft⟩
  have hown : ∀ c ∈ writers, text c = some (told c) := by
    intro c hc
    have hc' : c ∈ cs ∧ (text c).isSome = true := by
      simpa [List.mem_filter] using hperm.mem_iff.1 hc
    rcases Option.isSome_iff_exists.1 hc'.2 with ⟨t, htext⟩
    rw [htext, hwriters c hc'.1 t htext]
  have hfrom : ∀ c ∈ cs.filter fun c => (text c).isNone, text c = none ∧
      (told c = m ∨ ∃ writer ∈ writers, text writer = some (told c)) := by
    intro c hc
    have hc' : c ∈ cs ∧ text c = none := by simpa [List.mem_filter] using hc
    refine ⟨hc'.2, (hreaders c hc'.1 hc'.2).imp_right ?_⟩
    rintro ⟨writer, hwriter, htext⟩
    exact ⟨writer, hperm.mem_iff.2 (hmem hwriter htext), htext⟩
  rcases (explains_of_writers hown m).exists_insert_all hfrom with
    ⟨order, horder, hexplains, htexts⟩
  refine ⟨order, ?_, hexplains, by rw [htexts, hleft]⟩
  calc
    order.Perm (cs.filter (fun c => (text c).isNone) ++ writers) := horder
    List.Perm _ (cs.filter (fun c => (text c).isNone) ++ cs.filter fun c => !(text c).isNone) :=
      hperm.append_left _
    List.Perm _ cs := List.filter_append_perm _ cs

end Order

/-! ## When all have been served -/

section Served

variable {handler : Handler} {holder : Holder} {requests : List Request} {es : List Event} {c : Nat}

/-- The state when all have been served: `order` is the order of the accesses, and `first` has
marked the handler first. -/
def served (handler : Handler) (holder : Holder) (requests : List Request) (order : List Nat)
    (first : Option Nat) : Shared where
  holder := (team handler holder requests).serial order
  handlers := [⟨handler.policy, handler.warm || !requests.isEmpty⟩]
  clients := requests.mapIdx fun c r => ⟨.invoke 0 r, .served (handler.warm || first != some c)
    ⟨((team handler holder requests).serial (upTo c order)).message⟩⟩

theorem getElem?_clients_team (handler : Handler) (holder : Holder) (requests : List Request)
    (c : Nat) : (team handler holder requests).clients[c]?
      = requests[c]?.map fun r => ⟨.invoke 0 r, .waiting⟩ := by
  rw [team, start, List.getElem?_map, List.getElem?_map, Option.map_map]
  rfl

theorem Legal.lt_of_mem_accesses (hes : (team handler holder requests).Legal es)
    (h : c ∈ accesses es) : c < requests.length := by
  rcases hes.exists_client h with ⟨client, hclient⟩
  rw [getElem?_clients_team, Option.map_eq_some_iff] at hclient
  rcases hclient with ⟨r, hr, _⟩
  exact (List.getElem?_eq_some_iff.1 hr).1

/-- Whoever has been served had marked the handler, and was told whether nobody had before. -/
theorem Legal.mark?_of_mem_accesses (hes : (team handler holder requests).Legal es)
    (h : c ∈ accesses es) :
    c ∈ markers 0 es ∧ mark? es c = some (handler.warm || (markers 0 es).head? != some c) := by
  have hlt := hes.lt_of_mem_accesses h
  have hclient : (team handler holder requests).clients[c]?
      = some ⟨.invoke 0 requests[c], .waiting⟩ := by
    rw [getElem?_clients_team, List.getElem?_eq_getElem hlt]
    rfl
  cases hmark : mark? es c with
  | none => exact absurd h (hes.not_mem_accesses hclient hmark)
  | some w =>
      -- the mark is on the one handler there is
      rcases hes.mark?_eq_some_iff.1 hmark with ⟨k, hmem⟩
      rcases hes.marked_mem hmem with ⟨⟨r, p, hclient'⟩, handler', hhandler, hcold⟩
      rw [hclient] at hclient'
      cases hclient'
      cases hhandler
      refine ⟨mem_markers hmem, congrArg some ?_⟩
      cases w with
      | false =>
          rcases hcold.1 rfl with ⟨hwarm, hhead⟩
          simp [hwarm, hhead]
      | true =>
          cases hwarm : handler.warm with
          | true => rfl
          | false =>
              have hhead : (markers 0 es).head? ≠ some c := fun hhead =>
                Bool.noConfusion (hcold.2 ⟨hwarm, hhead⟩)
              simp [hhead]

theorem expected_eq_served (hes : (team handler holder requests).Legal es)
    (hall : ∀ c < requests.length, c ∈ accesses es) :
    (team handler holder requests).expected es
      = served handler holder requests (accesses es) (markers 0 es).head? := by
  refine Shared.ext rfl ?_ ?_
  · -- there are marks if there are requests
    have hempty : (markers 0 es).isEmpty = requests.isEmpty := by
      cases requests with
      | nil =>
          rw [List.isEmpty_nil, List.isEmpty_iff, List.eq_nil_iff_forall_not_mem]
          intro c hc
          rcases exists_mem_of_mem_markers hc with ⟨w, hw⟩
          rcases (hes.marked_mem hw).1 with ⟨r, p, hclient⟩
          rw [getElem?_clients_team] at hclient
          cases hclient
      | cons r requests =>
          have hmem := (hes.mark?_of_mem_accesses (hall 0 (Nat.zero_lt_succ _))).1
          exact List.isEmpty_eq_false_iff_exists_mem.2 ⟨0, hmem⟩
    simp only [expected, served, ← hempty]
    rfl
  · -- client by client: each has marked the handler and accessed the holder
    apply List.ext_getElem?
    intro c
    rw [getElem?_clients_expected, getElem?_clients_team, served, List.getElem?_mapIdx,
      Option.map_map]
    cases hr : requests[c]? with
    | none => rfl
    | some r =>
        have hmem := hall c (List.getElem?_eq_some_iff.1 hr).1
        simp only [Option.map_some, Function.comp_apply, progressOf,
          (hes.mark?_of_mem_accesses hmem).2, if_pos hmem]

theorem gives_served_iff {order : List Nat} {first : Option Nat} {m : String} :
    (served handler holder requests order first).Gives c m ↔ c < requests.length ∧
      m = ((team handler holder requests).serial (upTo c order)).message := by
  rw [Gives, served, List.getElem?_mapIdx]
  constructor
  · rintro ⟨errand, warm, h⟩
    rcases Option.map_eq_some_iff.1 h with ⟨r, hr, heq⟩
    cases heq
    exact ⟨(List.getElem?_eq_some_iff.1 hr).1, rfl⟩
  · rintro ⟨hlt, rfl⟩
    exact ⟨_, _, Option.map_eq_some_iff.2 ⟨requests[c], List.getElem?_eq_getElem hlt, rfl⟩⟩

theorem observes_served_iff {order : List Nat} {first : Option Nat} {w : Bool} :
    (served handler holder requests order first).Observes c 0 w ↔ c < requests.length ∧
      (handler.warm || first != some c) = w := by
  rw [Observes, served, List.getElem?_mapIdx]
  constructor
  · rintro ⟨r, p, h, hw⟩
    rcases Option.map_eq_some_iff.1 h with ⟨r', hr, heq⟩
    cases heq
    exact ⟨(List.getElem?_eq_some_iff.1 hr).1, Option.some.inj hw⟩
  · rintro ⟨hlt, rfl⟩
    exact ⟨_, _, Option.map_eq_some_iff.2 ⟨requests[c], List.getElem?_eq_getElem hlt, rfl⟩, rfl⟩

/-- Two orders of accesses come to the same if they leave the same greeting and tell everybody the
same. -/
theorem served_congr {order order' : List Nat} (first : Option Nat)
    (hholder : (team handler holder requests).serial order
      = (team handler holder requests).serial order')
    (htold : ∀ c < requests.length, (team handler holder requests).serial (upTo c order)
      = (team handler holder requests).serial (upTo c order')) :
    served handler holder requests order first = served handler holder requests order' first := by
  refine Shared.ext hholder rfl ?_
  apply List.ext_getElem?
  intro c
  rw [served, served, List.getElem?_mapIdx, List.getElem?_mapIdx]
  cases hr : requests[c]? with
  | none => rfl
  | some r => rw [Option.map_some, Option.map_some, htold c (List.getElem?_eq_some_iff.1 hr).1]

/-- Of a handler that was warm from the start, nobody is the first client. -/
theorem served_warm (h : handler.warm = true) (order : List Nat) (first first' : Option Nat) :
    served handler holder requests order first = served handler holder requests order first' := by
  simp only [served, h, Bool.true_or]

end Served

/-! ## One after another -/

section Turn

variable {s t u : Shared} {es : List Event}

theorem run_append {earlier later : List Nat} {new : List Event}
    (h : s.run earlier = some (t, es)) (h' : t.run later = some (u, new)) :
    s.run (earlier ++ later) = some (u, es ++ new) := by
  induction earlier generalizing s es with
  | nil =>
      cases h
      exact h'
  | cons c earlier ih =>
      rw [run] at h
      rcases Option.bind_eq_some_iff.1 h with ⟨⟨next, e⟩, hmove, hrest⟩
      rcases Option.bind_eq_some_iff.1 hrest with ⟨⟨last, others⟩, hothers, hpure⟩
      cases hpure
      simp only [List.cons_append, run, hmove, ih hothers, Option.bind_eq_bind, Option.bind_some,
        Option.pure_def]

theorem accesses_turn (c k : Nat) (w : Bool) (new : List Event) :
    accesses ([.marked c k w, .accessed c] ++ new) = c :: accesses new := rfl

theorem markers_turn (c k : Nat) (w : Bool) (new : List Event) :
    markers k ([.marked c k w, .accessed c] ++ new) = c :: markers k new := by
  simp [markers]

/-- Clients that have not moved can be served one after another, in any order. -/
theorem exists_run_inTurn {handler : Handler} {holder : Holder} {requests : List Request}
    {order : List Nat} (hes : (team handler holder requests).Legal es) (hnodup : order.Nodup)
    (hnew : ∀ c ∈ order, c < requests.length ∧ mark? es c = none) :
    ∃ new, ((team handler holder requests).expected es).run (inTurn order)
        = some ((team handler holder requests).expected (es ++ new), new) ∧
      accesses new = order ∧ markers 0 new = order := by
  induction order generalizing es with
  | nil => exact ⟨[], by rw [List.append_nil]; rfl, rfl, rfl⟩
  | cons c order ih =>
      rw [List.nodup_cons] at hnodup
      rw [List.forall_mem_cons] at hnew
      rcases hnew with ⟨⟨hlt, hmark⟩, hothers⟩
      have hclient : ((team handler holder requests).expected es).clients[c]?
          = some ⟨.invoke 0 requests[c], .waiting⟩ := by
        rw [getElem?_clients_expected, getElem?_clients_team, List.getElem?_eq_getElem hlt]
        simp only [Option.map_some, progressOf, hmark]
      have hhandler : ((team handler holder requests).expected es).handlers[0]?
          = some ⟨handler.policy, handler.warm || !(markers 0 es).isEmpty⟩ := rfl
      -- both moves of the first client
      have hrun := run_undisturbed hclient hhandler
      rcases run_expected hes hrun with ⟨hlegal, ht, _⟩
      rw [ht] at hrun
      -- the others have still not moved
      have hnew' : ∀ d ∈ order, d < requests.length ∧
          mark? (es ++ [.marked c 0 (handler.warm || !(markers 0 es).isEmpty), .accessed c]) d
            = none := by
        intro d hd
        have hne : c ≠ d := fun h => hnodup.1 (h ▸ hd)
        refine ⟨(hothers d hd).1, ?_⟩
        rw [List.append_cons, mark?_concat_accessed, mark?_concat_marked, if_neg hne,
          (hothers d hd).2, Option.or_none]
      rcases ih hlegal hnodup.2 hnew' with ⟨new, hnewrun, haccesses, hmarkers⟩
      refine ⟨_, run_append hrun ?_, (accesses_turn c 0 _ new).trans (congrArg (c :: ·) haccesses),
        (markers_turn c 0 _ new).trans (congrArg (c :: ·) hmarkers)⟩
      rw [← List.append_assoc]
      exact hnewrun

/-- What comes of serving all clients one after another. -/
theorem run_inTurn (handler : Handler) (holder : Holder) {requests : List Request}
    {order : List Nat} (h : order.Perm (List.range requests.length)) :
    ∃ es, (team handler holder requests).run (inTurn order)
      = some (served handler holder requests order order.head?, es) := by
  have hnodup : order.Nodup := h.nodup_iff.2 List.nodup_range
  have hmem : ∀ c, c ∈ order ↔ c < requests.length := fun c => h.mem_iff.trans List.mem_range
  have hnew : ∀ c ∈ order, c < requests.length ∧ mark? [] c = none :=
    fun c hc => ⟨(hmem c).1 hc, rfl⟩
  have hnil : (team handler holder requests).Legal [] := .nil
  rcases exists_run_inTurn hnil hnodup hnew with ⟨es, hrun, haccesses, hmarkers⟩
  have hstart : (team handler holder requests).expected [] = team handler holder requests :=
    expected_nil _ _ _
  rw [List.nil_append, hstart] at hrun
  have hlegal : (team handler holder requests).Legal es := by
    have hrun' := hrun
    rw [← hstart] at hrun'
    simpa using (run_expected .nil hrun').1
  have hall : ∀ c < requests.length, c ∈ accesses es := by
    intro c hc
    rw [haccesses]
    exact (hmem c).2 hc
  -- here the order of the accesses and the order of the marks are one and the same
  rw [expected_eq_served hlegal hall, haccesses, hmarkers] at hrun
  exact ⟨es, hrun⟩

end Turn

/-! ## Who may have been the first -/

section First

variable {handler : Handler} {holder : Holder} {requests : List Request} {c : Nat} {m : String}
  {order : List Nat}

theorem Legal.nodup_markers {s : Shared} {es : List Event} (hes : s.Legal es) (k : Nat) :
    (markers k es).Nodup := by
  induction hes with
  | nil => exact List.nodup_nil
  | @marked es c' k' r p handler hes _ _ hnew ih =>
      rw [markers_concat_marked]
      split
      · -- this client had not marked anything before
        have hnot : c' ∉ markers k es := by
          intro hmem
          rcases exists_mem_of_mem_markers hmem with ⟨w, hw⟩
          have hsome := hes.mark?_eq_some_iff.2 ⟨k, hw⟩
          rw [hnew] at hsome
          cases hsome
        rw [← List.concat_eq_append]
        exact ih.concat hnot
      · rwa [List.append_nil]
  | accessed hes _ _ _ ih => simpa using ih

theorem serial_cons_message (s : Shared) (c : Nat) (order : List Nat) :
    (s.serial (c :: order)).message
      = (order.filterMap s.value?).getLastD ((s.value? c).getD s.holder.message) := by
  rw [serial_message, getLastD_filterMap_cons]

/-- An order that explains what clients were told is one in which they are told it. -/
theorem Explains.serial_upTo {s : Shared} {told : Nat → String}
    (h : Explains s.value? told s.holder.message order) (hnodup : order.Nodup) (hc : c ∈ order) :
    (s.serial (upTo c order)).message = told c := by
  rcases List.append_of_mem hc with ⟨earlier, later, rfl⟩
  rw [upTo_eq hnodup, serial_concat_message, h.told_eq rfl]

theorem lt_of_value?_team {text : String}
    (h : (team handler holder requests).value? c = some text) : c < requests.length := by
  by_contra hge
  rw [value?, getElem?_clients_team, List.getElem?_eq_none (Nat.le_of_not_lt hge)] at h
  cases h

/-- Whoever is served first of all may be taken for the first. -/
theorem mayBeFirst_of_head {first : Option Nat} (hnodup : (c :: order).Nodup)
    (hall : ∀ d, d ∈ c :: order ↔ d < requests.length)
    (hgives : (served handler holder requests (c :: order) first).Gives c m) :
    (team handler holder requests).MayBeFirst
      (served handler holder requests (c :: order) first) c m := by
  have hm : m = ((team handler holder requests).value? c).getD holder.message := by
    have hself : upTo c (c :: order) = [c] := by simp [upTo]
    rw [(gives_served_iff.1 hgives).2, hself, serial_cons_message]
    rfl
  have hne : ∀ d ∈ order, d ≠ c := fun d hd h => (List.nodup_cons.1 hnodup).1 (h ▸ hd)
  refine ⟨hm, ?_, ?_⟩
  · intro d m' hgives'
    rcases gives_served_iff.1 hgives' with ⟨hd, rfl⟩
    -- what has been told to a client is the first message, or else was written in between
    have hupTo : ∃ between, upTo d (c :: order) = c :: between ∧ ∀ x ∈ between, x ∈ order :=
      ⟨_, by rw [upTo, List.take_succ_cons], fun x hx => List.mem_of_mem_take hx⟩
    rcases hupTo with ⟨between, hbetween, hsub⟩
    rw [hbetween, serial_cons_message, hm]
    refine (List.mem_cons.1 List.getLastD_mem_cons).imp_right fun hmem => ?_
    rcases List.mem_filterMap.1 hmem with ⟨writer, hwriter, htext⟩
    exact ⟨writer, hne writer (hsub writer hwriter), htext⟩
  · -- what another client writes is written behind the first text, and so replaces it
    rintro ⟨writer, hwriter, hsome⟩
    rcases Option.isSome_iff_exists.1 hsome with ⟨text, htext⟩
    have hmem : writer ∈ order := by
      rcases List.mem_cons.1 ((hall writer).2 (lt_of_value?_team htext)) with rfl | hmem
      · exact absurd rfl hwriter
      · exact hmem
    have hnil : order.filterMap (team handler holder requests).value? ≠ [] :=
      List.ne_nil_of_mem (List.mem_filterMap.2 ⟨writer, hmem, htext⟩)
    have hlast := getLastD_mem hnil (((team handler holder requests).value? c).getD holder.message)
    rcases List.mem_filterMap.1 hlast with ⟨last, hlast, htext'⟩
    refine ⟨last, hne last hlast, ?_⟩
    rw [htext']
    exact congrArg some (serial_cons_message _ c order).symm

/-- If nobody but one client writes, then only its text can be left. -/
theorem serial_message_of_alone {s : Shared} (hc : c ∈ order)
    (h : ∀ d ∈ order.erase c, s.value? d = none) :
    (s.serial order).message = (s.value? c).getD s.holder.message := by
  have hperm : (order.filterMap s.value?).Perm ((c :: order.erase c).filterMap s.value?) :=
    (List.perm_cons_erase hc).filterMap _
  have hothers : (order.erase c).filterMap s.value? = [] := List.filterMap_eq_nil_iff.2 h
  rw [serial_message]
  rw [List.filterMap_cons, hothers] at hperm
  cases hvalue : s.value? c with
  | none =>
      rw [hvalue] at hperm
      rw [List.perm_nil.1 hperm]
      rfl
  | some text =>
      rw [hvalue] at hperm
      rw [List.perm_singleton.1 hperm]
      rfl

/-- Whoever may be taken for the first can be served first of all, and then the others in some order
without any difference. -/
theorem exists_order_of_mayBeFirst (hperm : order.Perm (List.range requests.length))
    {first : Option Nat} (hgives : (served handler holder requests order first).Gives c m)
    (h : (team handler holder requests).MayBeFirst (served handler holder requests order first) c m) :
    ∃ order' : List Nat, order'.Perm (List.range requests.length) ∧ order'.head? = some c ∧
      served handler holder requests order (some c)
        = served handler holder requests order' (some c) := by
  let s := team handler holder requests
  let told := fun d => (s.serial (upTo d order)).message
  have hnodup : order.Nodup := hperm.nodup_iff.2 List.nodup_range
  have hall : ∀ d, d ∈ order ↔ d < requests.length := fun d => hperm.mem_iff.trans List.mem_range
  rcases gives_served_iff.1 hgives with ⟨hlt, hm⟩
  have hc : c ∈ order := (hall c).2 hlt
  have hgives' : ∀ d ∈ order, (served handler holder requests order first).Gives d (told d) :=
    fun d hd => gives_served_iff.2 ⟨(hall d).1 hd, rfl⟩
  have hother : ∀ {writer text}, writer ≠ c → s.value? writer = some text →
      writer ∈ order.erase c := fun hne htext =>
    (List.mem_erase_of_ne hne).2 ((hall _).2 (lt_of_value?_team htext))
  -- the others, with the message that the first one leaves to them, are as the order has to have
  -- them: who writes was told its own text, and who only reads a text that is there at some time
  have hwriters : ∀ d ∈ order.erase c, ∀ text, s.value? d = some text → told d = text := by
    intro d hd text htext
    rcases List.append_of_mem (List.mem_of_mem_erase hd) with ⟨earlier, later, horder⟩
    have hnodup' := hnodup
    rw [horder] at hnodup'
    simp only [told, horder, upTo_eq hnodup', serial_concat_message, htext, Option.getD_some]
  have hreaders : ∀ d ∈ order.erase c, s.value? d = none →
      told d = m ∨ ∃ writer ∈ order.erase c, s.value? writer = some (told d) := by
    intro d hd _
    refine (h.others d (told d) (hgives' d (List.mem_of_mem_erase hd))).imp_right ?_
    rintro ⟨writer, hne, htext⟩
    exact ⟨writer, hother hne htext, htext⟩
  have hlast : (∃ writer ∈ order.erase c, s.value? writer = some (s.serial order).message) ∨
      (∀ writer ∈ order.erase c, s.value? writer = none) ∧ (s.serial order).message = m := by
    by_cases hsome : ∃ writer, writer ≠ c ∧ (s.value? writer).isSome = true
    · rcases h.last hsome with ⟨writer, hne, htext⟩
      exact .inl ⟨writer, hother hne htext, htext⟩
    · have hnone : ∀ writer ∈ order.erase c, s.value? writer = none := by
        intro writer hwriter
        have hne : writer ≠ c := (hnodup.mem_erase_iff.1 hwriter).1
        by_contra hvalue
        exact hsome ⟨writer, hne, Option.isSome_iff_ne_none.2 hvalue⟩
      exact .inr ⟨hnone, by rw [serial_message_of_alone hc hnone, h.own]⟩
  rcases exists_explains (order.erase c) hwriters hreaders hlast with
    ⟨others, hothers, hexplains, hleft⟩
  -- so they are served behind the first one, in an order of their own
  have horder : (c :: others).Perm order := (hothers.cons c).trans (List.perm_cons_erase hc).symm
  have hfirst : Explains s.value? told s.holder.message (c :: others) := by
    have htold : told c = m := hm.symm
    exact ⟨htold.trans h.own, htold ▸ hexplains⟩
  refine ⟨c :: others, horder.trans hperm, rfl, ?_⟩
  refine served_congr _ (Holder.ext ?_) fun d hd => Holder.ext ?_
  · rw [serial_cons_message, ← h.own]
    exact hleft.symm
  · exact (hfirst.serial_upTo (horder.nodup_iff.2 hnodup) (horder.mem_iff.2 ((hall d).2 hd))).symm

end First

/-! ## One order for marks and accesses -/

section Both

variable {handler : Handler} {holder : Holder} {requests : List Request} {es : List Event}

/-- Everybody who has been served has marked the handler once. -/
theorem Legal.perm_markers (hes : (team handler holder requests).Legal es)
    (hall : ∀ c < requests.length, c ∈ accesses es) :
    (markers 0 es).Perm (List.range requests.length) := by
  refine (List.perm_ext_iff_of_nodup (hes.nodup_markers 0) List.nodup_range).2 fun c => ?_
  rw [List.mem_range]
  constructor
  · intro hmem
    rcases exists_mem_of_mem_markers hmem with ⟨w, hw⟩
    rcases (hes.marked_mem hw).1 with ⟨r, p, hclient⟩
    rw [getElem?_clients_team, Option.map_eq_some_iff] at hclient
    rcases hclient with ⟨r', hr, _⟩
    exact (List.getElem?_eq_some_iff.1 hr).1
  · intro hlt
    exact (hes.mark?_of_mem_accesses (hall c hlt)).1

theorem Legal.perm_accesses (hes : (team handler holder requests).Legal es)
    (hall : ∀ c < requests.length, c ∈ accesses es) :
    (accesses es).Perm (List.range requests.length) := by
  refine (List.perm_ext_iff_of_nodup hes.nodup_accesses List.nodup_range).2 fun c => ?_
  rw [List.mem_range]
  exact ⟨hes.lt_of_mem_accesses, hall c⟩

theorem isSerial_iff {now : Shared} :
    (team handler holder requests).IsSerial now ↔ ∃ order : List Nat,
      order.Perm (List.range requests.length) ∧
        now = served handler holder requests order order.head? := by
  have hlen : (team handler holder requests).clients.length = requests.length := by
    rw [team, start, List.length_map, List.length_map]
  rw [IsSerial, hlen]
  constructor
  · rintro ⟨order, es, hperm, hrun⟩
    rcases run_inTurn handler holder hperm with ⟨es', hrun'⟩
    rw [hrun] at hrun'
    cases hrun'
    exact ⟨order, hperm, rfl⟩
  · rintro ⟨order, hperm, rfl⟩
    rcases run_inTurn handler holder hperm with ⟨es, hrun⟩
    exact ⟨order, es, hperm, hrun⟩

/-- One order explains a state in which all have been served exactly if whoever has found the handler
cold may be taken for the first. -/
theorem isSerial_served_iff {order marks : List Nat}
    (horder : order.Perm (List.range requests.length))
    (hmarks : marks.Perm (List.range requests.length)) :
    (team handler holder requests).IsSerial (served handler holder requests order marks.head?) ↔
      ∀ c m, (served handler holder requests order marks.head?).Observes c 0 false →
        (served handler holder requests order marks.head?).Gives c m →
          (team handler holder requests).MayBeFirst
            (served handler holder requests order marks.head?) c m := by
  rw [isSerial_iff]
  constructor
  · rintro ⟨order', horder', hsame⟩ c m hcold hgives
    rw [hsame] at hcold hgives ⊢
    -- in one order for both, whoever has found the handler cold is at its head
    have hhead : order'.head? = some c := by
      simpa using (Bool.or_eq_false_iff.1 (observes_served_iff.1 hcold).2).2
    rcases List.head?_eq_some_iff.1 hhead with ⟨others, rfl⟩
    exact mayBeFirst_of_head (horder'.nodup_iff.2 List.nodup_range)
      (fun d => horder'.mem_iff.trans List.mem_range) hgives
  · intro hmay
    cases hwarm : handler.warm with
    | true => exact ⟨order, horder, served_warm hwarm _ _ _⟩
    | false =>
        cases marks with
        | nil =>
            -- without marks there are no clients
            rw [List.nil_perm.1 hmarks, List.perm_nil] at horder
            subst horder
            exact ⟨[], hmarks, rfl⟩
        | cons c others =>
            have hlt : c < requests.length :=
              List.mem_range.1 (hmarks.mem_iff.1 List.mem_cons_self)
            have hcold : (served handler holder requests order (c :: others).head?).Observes c 0
                false := observes_served_iff.2 ⟨hlt, by simp [hwarm]⟩
            have hgives : (served handler holder requests order (c :: others).head?).Gives c _ :=
              gives_served_iff.2 ⟨hlt, rfl⟩
            rcases exists_order_of_mayBeFirst horder hgives (hmay c _ hcold hgives) with
              ⟨order', hperm, hhead, hsame⟩
            exact ⟨order', hperm, by rw [hhead]; exact hsame⟩

/-- Clients of one handler, however their moves are ordered: once all of them have been served, the
order of their accesses explains all messages and the greeting in the end, and the order of their
marks explains who has found the handler cold. One order explains all of this exactly if whoever has
found the handler cold may be taken for the first to access the holder. -/
theorem serial_order {schedule : List Nat} {now : Shared}
    (h : (team handler holder requests).run schedule = some (now, es))
    (hfinished : ∀ client ∈ now.clients, client.progress.isFinished = true) :
    ((accesses es).Perm (List.range requests.length) ∧ ∃ other es',
      (team handler holder requests).run (inTurn (accesses es)) = some (other, es') ∧
        other.holder = now.holder ∧ ∀ c m, other.Gives c m ↔ now.Gives c m) ∧
    ((markers 0 es).Perm (List.range requests.length) ∧ ∃ other es',
      (team handler holder requests).run (inTurn (markers 0 es)) = some (other, es') ∧
        ∀ c w, other.Observes c 0 w ↔ now.Observes c 0 w) ∧
    ((team handler holder requests).IsSerial now ↔
      ∀ c m, now.Observes c 0 false → now.Gives c m →
        (team handler holder requests).MayBeFirst now c m) := by
  have hstart : (team handler holder requests).expected [] = team handler holder requests :=
    expected_nil _ _ _
  rw [← hstart] at h
  rcases run_expected .nil h with ⟨hes, rfl, _⟩
  rw [List.nil_append] at hes hfinished ⊢
  have hall : ∀ c < requests.length, c ∈ accesses es := by
    intro c hc
    have hclient : ∃ client, ((team handler holder requests).expected es).clients[c]?
        = some client := by
      rw [getElem?_clients_expected, getElem?_clients_team, List.getElem?_eq_getElem hc]
      exact ⟨_, rfl⟩
    rcases hclient with ⟨client, hclient⟩
    exact hes.mem_accesses_iff.2 ⟨client, hclient, hfinished _ (List.mem_of_getElem? hclient)⟩
  have haccesses := hes.perm_accesses hall
  have hmarkers := hes.perm_markers hall
  -- the events matter only through these two orders
  rw [expected_eq_served hes hall]
  refine ⟨⟨haccesses, ?_⟩, ⟨hmarkers, ?_⟩, isSerial_served_iff haccesses hmarkers⟩
  · rcases run_inTurn handler holder haccesses with ⟨es', hrun⟩
    exact ⟨_, es', hrun, rfl, fun c m => by rw [gives_served_iff, gives_served_iff]⟩
  · rcases run_inTurn handler holder hmarkers with ⟨es', hrun⟩
    exact ⟨_, es', hrun, fun c w => by rw [observes_served_iff, observes_served_iff]⟩

end Both

/-- A request that asks for a greeting and has nothing else. -/
def asking (greeting : String) : Request := ⟨some greeting, none, none⟩

/-- The first client finds the handler cold and comes to the holder third. Its text is replaced
afterwards, so that it may have been the first to access the holder as well. -/
theorem serial_order_replaced :
    ∃ now es, (team (.cold .overwrite) .default [asking "a", asking "b", Request.empty,
        asking "c"]).run [0, 1, 1, 2, 2, 0, 3, 3] = some (now, es) ∧
      accesses es = [1, 2, 0, 3] ∧ now.Observes 0 0 false ∧
        (team (.cold .overwrite) .default [asking "a", asking "b", Request.empty,
          asking "c"]).IsSerial now := by
  have hrun : (team (.cold .overwrite) .default [asking "a", asking "b", Request.empty,
      asking "c"]).run [0, 1, 1, 2, 2, 0, 3, 3] = some
      (⟨⟨"c"⟩, [⟨.overwrite, true⟩], [⟨.invoke 0 (asking "a"), .served false ⟨"a"⟩⟩,
        ⟨.invoke 0 (asking "b"), .served true ⟨"b"⟩⟩,
        ⟨.invoke 0 Request.empty, .served true ⟨"b"⟩⟩,
        ⟨.invoke 0 (asking "c"), .served true ⟨"c"⟩⟩]⟩,
      [.marked 0 0 false, .marked 1 0 true, .accessed 1, .marked 2 0 true, .accessed 2,
        .accessed 0, .marked 3 0 true, .accessed 3]) := by decide
  refine ⟨_, _, hrun, rfl, ⟨_, _, rfl, rfl⟩, ?_⟩
  refine (serial_order hrun (by decide)).2.2.2 ?_
  -- only the first client has found the handler cold
  rintro c m ⟨r, p, hclient, hcold⟩ ⟨errand, warm, hgives⟩
  rw [hclient] at hgives
  match c, hclient with
  | 0, hclient =>
      cases hclient
      cases hgives
      refine ⟨rfl, ?_, fun _ => ⟨3, by decide, rfl⟩⟩
      rintro c' m' ⟨errand', warm', hgives'⟩
      match c', hgives' with
      | 0, hgives' => cases hgives'; exact .inl rfl
      | 1, hgives' => cases hgives'; exact .inr ⟨1, by decide, rfl⟩
      | 2, hgives' => cases hgives'; exact .inr ⟨1, by decide, rfl⟩
      | 3, hgives' => cases hgives'; exact .inr ⟨3, by decide, rfl⟩
  | 1, hclient => cases hclient; cases hgives; cases hcold
  | 2, hclient => cases hclient; cases hgives; cases hcold
  | 3, hclient => cases hclient; cases hgives; cases hcold

/-- Two clients cross each other: the first one to mark the handler is the last one to write. It has
to be served first because it has found the handler cold, and last because its text is left. -/
theorem crossed_not_isSerial :
    ∃ now es, (team (.cold .overwrite) .default [asking "a", asking "b"]).run [0, 1, 1, 0]
        = some (now, es) ∧
      (∀ client ∈ now.clients, client.progress.isFinished = true) ∧
        ¬ (team (.cold .overwrite) .default [asking "a", asking "b"]).IsSerial now := by
  have hrun : (team (.cold .overwrite) .default [asking "a", asking "b"]).run [0, 1, 1, 0] = some
      (⟨⟨"a"⟩, [⟨.overwrite, true⟩], [⟨.invoke 0 (asking "a"), .served false ⟨"a"⟩⟩,
        ⟨.invoke 0 (asking "b"), .served true ⟨"b"⟩⟩]⟩,
      [.marked 0 0 false, .marked 1 0 true, .accessed 1, .accessed 0]) := by decide
  refine ⟨_, _, hrun, by decide, ?_⟩
  rintro ⟨order, es, hperm, horder⟩
  have hnodup : order.Nodup := hperm.nodup_iff.2 List.nodup_range
  have hrange : ∀ c ∈ order, c ∈ [0, 1] := fun c hc => hperm.mem_iff.1 hc
  -- there are only two orders, and neither of them comes to this state
  have hboth : ∀ c ∈ [0, 1], ∀ d ∈ [0, 1], c ≠ d →
      ((team (.cold .overwrite) .default [asking "a", asking "b"]).run (inTurn [c, d])).map
        (fun result => (result.1.holder.message, result.1.clients.map Client.progress)) ≠
        some ("a", [.served false ⟨"a"⟩, .served true ⟨"b"⟩]) := by decide
  match order, hperm.length_eq with
  | [c, d], _ =>
      refine hboth c (hrange c (by simp)) d (hrange d (by simp)) (by simpa using hnodup) ?_
      rw [horder]
      rfl

end Shared
end GreetingService
