import GreetingService.Greeting.Replay
import GreetingService.Proofs.LastText
import GreetingService.Proofs.Results
import Mathlib.Tactic

/-!
# The events of a replay

Which requests a list of paths comes to, said path by path, and which answers they get. Every path
contributes the requests of its own file; what is typed in belongs to the first `-` alone. The
answer to a request depends on the requests up to it only through the last text that the policy
accepts.
-/

namespace GreetingService

open Results

/-- The texts that the policy accepts among the first fields of requests, in order. -/
def Policy.acceptedTexts (p : Policy) (rs : List Request) : List String :=
  rs.filterMap fun r => r.field1.filter p.accepts

namespace Replay

/-! ## Where events come from -/

/-- What can still be typed in behind the given paths; the first `-` takes all of it. -/
def inputAfter (input : Files.Content) (earlier : List String) : Files.Content :=
  if inputPath ∈ earlier then [] else input

/-- The bytes at a path that stands behind the given ones. -/
def contentAt (files : Files.Source) (input : Files.Content) (earlier : List String)
    (path : String) : Except Files.Failure Files.Content :=
  if path = inputPath then .ok (inputAfter input earlier) else files path

/-- The requests that a value stands for: those of its items if it is a list, else its own. -/
def RequestsOf : Json.Value → List Request → Prop
  | .list items, rs => List.Forall₂ (fun item r => Request.ofValue item = .ok r) items rs
  | value, rs => ∃ r, Request.ofValue value = .ok r ∧ rs = [r]

/-- The requests that a path behind the given ones contributes. -/
def Contributes (files : Files.Source) (input : Files.Content) (earlier : List String)
    (path : String) (rs : List Request) : Prop :=
  ∃ content text value, contentAt files input earlier path = .ok content ∧
    Text.ofBytes? content = some text ∧ Json.Value.parse (Text.bytes text) = .ok value ∧
      RequestsOf value rs

/-- The requests of paths behind the given ones: one list for each path, put together in order. -/
def Gathers (files : Files.Source) (input : Files.Content) (earlier paths : List String)
    (rs : List Request) : Prop :=
  ∃ groups : List (List Request), groups.length = paths.length ∧ rs = groups.flatten ∧
    ∀ (i : Nat) (path : String) (group : List Request), paths[i]? = some path →
      groups[i]? = some group → Contributes files input (earlier ++ paths.take i) path group

/-- A value that is no list stands for one request. -/
theorem single_eq_ok_iff {value : Json.Value} {rs : List Request} :
    ((Request.ofValue value).map fun r => [r]).mapError (fun cause => Json.Error.mk cause none)
        = .ok rs ↔ ∃ r, Request.ofValue value = .ok r ∧ rs = [r] := by
  rw [mapError_eq_ok_iff, map_eq_ok_iff]
  simp only [eq_comm]

theorem parseEvents_eq_ok_iff {text : String} {rs : List Request} :
    parseEvents text = .ok rs ↔
      ∃ value, Json.Value.parse (Text.bytes text) = .ok value ∧ RequestsOf value rs := by
  rw [parseEvents, bind_eq_ok_iff]
  refine exists_congr fun value => and_congr_right fun _ => ?_
  -- only a list is taken apart; a value of any other kind is a single request
  cases value with
  | list items => rw [mapError_eq_ok_iff, mapM_eq_ok_iff, RequestsOf]
  | null => exact single_eq_ok_iff
  | boolean _ => exact single_eq_ok_iff
  | number _ => exact single_eq_ok_iff
  | text _ => exact single_eq_ok_iff
  | object _ => exact single_eq_ok_iff

theorem readText_eq_ok_iff {files : Files.Source} {input : Files.Content} {earlier : List String}
    {path text : String} :
    readText files (inputAfter input earlier) path = .ok text ↔
      ∃ content, contentAt files input earlier path = .ok content ∧
        Text.ofBytes? content = some text := by
  unfold readText contentAt
  split
  · cases h : Text.ofBytes? (inputAfter input earlier) with
    | none => simp [h]
    | some text => simp [h]
  · -- any other path is a file, whatever stands before it
    rw [mapError_eq_ok_iff, Files.Source.readText, bind_eq_ok_iff]
    refine exists_congr fun content => and_congr_right fun _ => ?_
    cases h : Text.ofBytes? content with
    | none => simp
    | some text => simp

theorem readEvents_eq_ok_iff {files : Files.Source} {input : Files.Content}
    {earlier : List String} {path : String} {rs : List Request} :
    readEvents files (inputAfter input earlier) path = .ok rs ↔
      Contributes files input earlier path rs := by
  rw [readEvents, bind_eq_ok_iff]
  simp only [mapError_eq_ok_iff, parseEvents_eq_ok_iff, readText_eq_ok_iff]
  constructor
  · rintro ⟨text, ⟨content, hcontent, htext⟩, value, hvalue, hrs⟩
    exact ⟨content, text, value, hcontent, htext, hvalue, hrs⟩
  · rintro ⟨content, text, value, hcontent, htext, hvalue, hrs⟩
    exact ⟨text, ⟨content, hcontent, htext⟩, value, hvalue, hrs⟩

theorem inputAfter_append (input : Files.Content) (earlier : List String) (path : String) :
    inputAfter input (earlier ++ [path])
      = if path = inputPath then [] else inputAfter input earlier := by
  unfold inputAfter
  by_cases h : path = inputPath
  · simp [h]
  · simp [h, eq_comm]

theorem readAll_cons_eq_ok_iff {files : Files.Source} {input : Files.Content}
    {earlier paths : List String} {path : String} {rs : List Request} :
    readAll files (inputAfter input earlier) (path :: paths) = .ok rs ↔
      ∃ group others, Contributes files input earlier path group ∧
        readAll files (inputAfter input (earlier ++ [path])) paths = .ok others ∧
          rs = group ++ others := by
  rw [readAll, bind_eq_ok_iff, inputAfter_append]
  constructor
  · rintro ⟨group, hgroup, h⟩
    rcases bind_eq_ok_iff.1 h with ⟨others, hothers, hpure⟩
    exact ⟨group, others, readEvents_eq_ok_iff.1 hgroup, hothers, (Except.ok.inj hpure).symm⟩
  · rintro ⟨group, others, hgroup, hothers, rfl⟩
    exact ⟨group, readEvents_eq_ok_iff.2 hgroup, bind_eq_ok_iff.2 ⟨others, hothers, rfl⟩⟩

theorem gathers_cons {files : Files.Source} {input : Files.Content}
    {earlier paths : List String} {path : String} {rs : List Request} :
    Gathers files input earlier (path :: paths) rs ↔
      ∃ group others, Contributes files input earlier path group ∧
        Gathers files input (earlier ++ [path]) paths others ∧ rs = group ++ others := by
  constructor
  · rintro ⟨groups, hlen, rfl, hall⟩
    cases groups with
    | nil => simp at hlen
    | cons group groups =>
        refine ⟨group, groups.flatten, ?_, ⟨groups, by simpa using hlen, rfl, ?_⟩, rfl⟩
        · simpa using hall 0 path group rfl rfl
        · intro i other othergroup hpath hgroup
          simpa using hall (i + 1) other othergroup (by simpa using hpath) (by simpa using hgroup)
  · rintro ⟨group, others, hfirst, ⟨groups, hlen, rfl, hall⟩, rfl⟩
    refine ⟨group :: groups, by simp [hlen], rfl, ?_⟩
    intro i other othergroup hpath hgroup
    -- behind the first path every place has moved up by one
    cases i with
    | zero =>
        simp only [List.getElem?_cons_zero, Option.some.injEq] at hpath hgroup
        subst hpath hgroup
        simpa using hfirst
    | succ i =>
        simpa using hall i other othergroup (by simpa using hpath) (by simpa using hgroup)

theorem readAll_inputAfter_eq_ok_iff {files : Files.Source} {input : Files.Content}
    {earlier paths : List String} {rs : List Request} :
    readAll files (inputAfter input earlier) paths = .ok rs ↔
      Gathers files input earlier paths rs := by
  -- each path joins the earlier ones before the next is read
  induction paths generalizing earlier rs with
  | nil =>
      constructor
      · intro h
        exact ⟨[], rfl, (Except.ok.inj h).symm, by simp⟩
      · rintro ⟨groups, hlen, rfl, _⟩
        rw [List.length_nil, List.length_eq_zero_iff] at hlen
        rw [hlen]
        rfl
  | cons path paths ih => simp only [readAll_cons_eq_ok_iff, gathers_cons, ih]

/-- All paths can be read when each of them can. -/
theorem exists_gathers_iff {files : Files.Source} {input : Files.Content}
    {earlier paths : List String} :
    (∃ rs, Gathers files input earlier paths rs) ↔
      ∀ (i : Nat) (path : String), paths[i]? = some path →
        ∃ group, Contributes files input (earlier ++ paths.take i) path group := by
  induction paths generalizing earlier with
  | nil =>
      constructor
      · intro _ i path h
        simp at h
      · intro _
        exact ⟨[], [], rfl, rfl, by simp⟩
  | cons path paths ih =>
      simp only [gathers_cons]
      constructor
      · rintro ⟨_, group, others, hfirst, hothers, rfl⟩ i other hother
        cases i with
        | zero =>
            simp only [List.getElem?_cons_zero, Option.some.injEq] at hother
            subst hother
            exact ⟨group, by simpa using hfirst⟩
        | succ i =>
            rcases ih.1 ⟨others, hothers⟩ i other (by simpa using hother) with ⟨g, hg⟩
            exact ⟨g, by simpa using hg⟩
      · intro hall
        rcases hall 0 path rfl with ⟨group, hfirst⟩
        have hrest : ∀ (i : Nat) (other : String), paths[i]? = some other →
            ∃ g, Contributes files input ((earlier ++ [path]) ++ paths.take i) other g := by
          intro i other hother
          rcases hall (i + 1) other (by simpa using hother) with ⟨g, hg⟩
          exact ⟨g, by simpa using hg⟩
        rcases ih.2 hrest with ⟨others, hothers⟩
        exact ⟨group ++ others, group, others, by simpa using hfirst, hothers, rfl⟩

theorem readAll_eq_ok_iff {files : Files.Source} {input : Files.Content} {paths : List String}
    {rs : List Request} : readAll files input paths = .ok rs ↔ Gathers files input [] paths rs := by
  have hinput : inputAfter input [] = input := rfl
  rw [← readAll_inputAfter_eq_ok_iff, hinput]

/-- The empty text is no document. -/
theorem not_contributes_of_used {files : Files.Source} {input : Files.Content}
    {earlier : List String} (h : inputPath ∈ earlier) (rs : List Request) :
    ¬ Contributes files input earlier inputPath rs := by
  rintro ⟨content, text, value, hcontent, htext, hvalue, _⟩
  have hempty : content = [] := by
    rw [contentAt, if_pos rfl, inputAfter, if_pos h, Except.ok.injEq] at hcontent
    exact hcontent.symm
  have htext' : text = "" := by
    rw [hempty] at htext
    exact Option.some.inj (htext.symm.trans (Text.ofBytes?_bytes ""))
  rw [htext'] at hvalue
  cases hvalue

/-! ## What is answered -/

theorem getLastD_acceptedTexts_cons (p : Policy) (r : Request) (rs : List Request)
    (message : String) :
    (p.acceptedTexts (r :: rs)).getLastD message
      = (p.acceptedTexts rs).getLastD ((r.field1.filter p.accepts).getD message) :=
  LastText.getLastD_filterMap_cons _ r rs message

/-- The answer to each request is the last text accepted up to it. -/
theorem getElem?_responses_serve (handler : Handler) (holder : Holder) (rs : List Request) :
    ∀ i : Nat, (serve handler holder rs).responses[i]? = rs[i]?.map fun _ =>
      ⟨(handler.policy.acceptedTexts (rs.take (i + 1))).getLastD holder.message⟩ := by
  induction rs generalizing handler holder with
  | nil =>
      intro i
      rfl
  | cons r rs ih =>
      intro i
      -- the first request leaves the policy alone, and what it had accepted is in the holder
      have hholder : (handler.invoke holder r).holder.message
          = (r.field1.filter handler.policy.accepts).getD holder.message := rfl
      have hpolicy : (handler.invoke holder r).handler.policy = handler.policy := rfl
      cases i with
      | zero =>
          rw [List.take_succ_cons, List.take_zero, getLastD_acceptedTexts_cons]
          rfl
      | succ i =>
          rw [List.take_succ_cons, getLastD_acceptedTexts_cons, ← hholder, ← hpolicy]
          exact ih _ _ i

end Replay
end GreetingService
