import GreetingService.Greeting.Service
import GreetingService.Proofs.InvokeContract

/-!
# A replay happens as a whole or not at all

A replay fails when one of its paths does, and then for the first such path. All paths are read
before anything is reported or served, so that a failure leaves no trace: neither the requests of
earlier paths nor earlier requests at the same path have been served. The program complains about
its configuration first, and has written nothing whenever it fails.
-/

namespace GreetingService

open Results

namespace Replay

/-! ## What is wrong with a path -/

/-- The text at a path that stands behind the given ones. -/
def TextAt (files : Files.Source) (input : Files.Content) (earlier : List String)
    (path text : String) : Prop :=
  ∃ content, contentAt files input earlier path = .ok content ∧ Text.ofBytes? content = some text

/-- The events that a value holds. -/
def eventsOf : Json.Value → List Json.Value
  | .list items => items
  | value => [value]

/-- A text that describes no requests: it is no document, or one of its events is no request. -/
inductive Unusable (text : String) : Prop where
  | malformed {e : Json.Error} (h : Json.Value.parse (Text.bytes text) = .error e) : Unusable text
  | unfit {value event : Json.Value} {cause : Json.Cause}
      (hvalue : Json.Value.parse (Text.bytes text) = .ok value) (hevent : event ∈ eventsOf value)
      (h : Request.ofValue event = .error cause) : Unusable text

/-- What is said of a path that cannot be read. -/
def unreadableText (path : String) : String :=
  if path = inputPath then "Failed to read events from stdin"
  else "Failed to read event file " ++ path

/-- A path behind the given ones fails, and what is said of it then. -/
inductive Fails (files : Files.Source) (input : Files.Content) (earlier : List String)
    (path : String) : String → Prop where
  | unreadable (h : ∀ text, ¬ TextAt files input earlier path text) :
      Fails files input earlier path (unreadableText path)
  | unusable {text : String} (htext : TextAt files input earlier path text) (h : Unusable text) :
      Fails files input earlier path ("Invalid event in " ++ path)

/-- The requests of a value are those of its events. -/
theorem requestsOf_iff {value : Json.Value} {rs : List Request} :
    RequestsOf value rs ↔
      List.Forall₂ (fun event r => Request.ofValue event = .ok r) (eventsOf value) rs := by
  cases value with
  | list items => rfl
  | _ => simp [RequestsOf, eventsOf, List.forall₂_cons_left_iff]

theorem exists_requestsOf_iff {value : Json.Value} :
    (∃ rs, RequestsOf value rs) ↔ ∀ event ∈ eventsOf value, ∃ r, Request.ofValue event = .ok r := by
  simp only [requestsOf_iff]
  induction eventsOf value with
  | nil => simp
  | cons event events ih =>
      rw [List.forall_mem_cons, ← ih]
      constructor
      · rintro ⟨rs, hrs⟩
        rcases List.forall₂_cons_left_iff.1 hrs with ⟨r, rs', hr, hrs', rfl⟩
        exact ⟨⟨r, hr⟩, rs', hrs'⟩
      · rintro ⟨⟨r, hr⟩, rs', hrs'⟩
        exact ⟨r :: rs', .cons hr hrs'⟩

theorem unusable_iff {text : String} :
    Unusable text ↔ ¬ ∃ value, Json.Value.parse (Text.bytes text) = .ok value ∧
      ∃ rs, RequestsOf value rs := by
  simp only [exists_requestsOf_iff]
  constructor
  · rintro (⟨herror⟩ | ⟨hvalue, hevent, herror⟩) ⟨value, hok, hall⟩
    · rw [herror] at hok
      cases hok
    · rw [hvalue] at hok
      cases hok
      rcases hall _ hevent with ⟨r, hr⟩
      rw [herror] at hr
      cases hr
  · intro h
    cases hvalue : Json.Value.parse (Text.bytes text) with
    | error e => exact .malformed hvalue
    | ok value =>
        have hsome : ¬ ∀ event ∈ eventsOf value, ∃ r, Request.ofValue event = .ok r :=
          fun hall => h ⟨value, hvalue, hall⟩
        push Not at hsome
        rcases hsome with ⟨event, hevent, hnone⟩
        cases hcause : Request.ofValue event with
        | ok r => exact absurd hcause (hnone r)
        | error cause => exact .unfit hvalue hevent hcause

theorem contributes_iff {files : Files.Source} {input : Files.Content} {earlier : List String}
    {path : String} {rs : List Request} :
    Contributes files input earlier path rs ↔ ∃ text, TextAt files input earlier path text ∧
      ∃ value, Json.Value.parse (Text.bytes text) = .ok value ∧ RequestsOf value rs := by
  constructor
  · rintro ⟨content, text, value, hcontent, htext, hvalue, hrs⟩
    exact ⟨text, ⟨content, hcontent, htext⟩, value, hvalue, hrs⟩
  · rintro ⟨text, ⟨content, hcontent, htext⟩, value, hvalue, hrs⟩
    exact ⟨content, text, value, hcontent, htext, hvalue, hrs⟩

theorem TextAt.unique {files : Files.Source} {input : Files.Content} {earlier : List String}
    {path first second : String} (h : TextAt files input earlier path first)
    (h' : TextAt files input earlier path second) : first = second := by
  rcases h with ⟨content, hcontent, htext⟩
  rcases h' with ⟨content', hcontent', htext'⟩
  rw [hcontent] at hcontent'
  cases hcontent'
  exact Option.some.inj (htext.symm.trans htext')

/-- A path fails if it contributes no requests, not even an empty list of them. -/
theorem exists_fails_iff {files : Files.Source} {input : Files.Content} {earlier : List String}
    {path : String} :
    (∃ message, Fails files input earlier path message) ↔
      ¬ ∃ rs, Contributes files input earlier path rs := by
  simp only [contributes_iff]
  constructor
  · rintro ⟨_, hfails⟩ ⟨rs, text, htext, value, hvalue, hrs⟩
    cases hfails with
    | unreadable h => exact h text htext
    | unusable htext' h =>
        rw [htext'.unique htext] at h
        exact unusable_iff.1 h ⟨value, hvalue, rs, hrs⟩
  · intro h
    by_cases htext : ∃ text, TextAt files input earlier path text
    · rcases htext with ⟨text, htext⟩
      refine ⟨_, .unusable htext (unusable_iff.2 ?_)⟩
      rintro ⟨value, hvalue, rs, hrs⟩
      exact h ⟨rs, text, htext, value, hvalue, hrs⟩
    · exact ⟨_, .unreadable fun text h' => htext ⟨text, h'⟩⟩

/-! ## Reading -/

section Reading

variable {files : Files.Source} {input : Files.Content} {earlier : List String}

theorem readText_eq_error {path : String} {e : ReplayError}
    (h : readText files (inputAfter input earlier) path = .error e) :
    e.messages.head? = some (unreadableText path) := by
  unfold readText at h
  rw [unreadableText]
  split at h
  · cases htext : Text.ofBytes? (inputAfter input earlier) with
    | some text => simp [htext] at h
    | none =>
        simp only [htext] at h
        cases h
        rw [if_pos ‹_›]
        rfl
  · rw [if_neg ‹_›]
    cases htext : files.readText path with
    | ok text => simp [htext, Except.mapError] at h
    | error failure =>
        rw [htext] at h
        cases h
        rfl

/-- What is said of a path fits what is wrong with it. -/
theorem readEvents_eq_error {path : String} {e : ReplayError}
    (h : readEvents files (inputAfter input earlier) path = .error e) :
    ∃ message, e.messages.head? = some message ∧ Fails files input earlier path message := by
  rw [readEvents] at h
  cases htext : readText files (inputAfter input earlier) path with
  | error e' =>
      rw [htext] at h
      cases h
      refine ⟨_, readText_eq_error htext, .unreadable ?_⟩
      intro text htextAt
      rw [readText_eq_ok_iff.2 htextAt] at htext
      cases htext
  | ok text =>
      rw [htext] at h
      refine ⟨"Invalid event in " ++ path, ?_, .unusable (readText_eq_ok_iff.1 htext) ?_⟩
      · cases hparse : parseEvents text with
        | ok rs => simp [hparse, bind, Except.bind, Except.mapError] at h
        | error e' =>
            simp only [hparse, bind, Except.bind, Except.mapError] at h
            cases h
            rfl
      · rw [unusable_iff]
        rintro ⟨value, hvalue, rs, hrs⟩
        have hparse : parseEvents text = .ok rs := parseEvents_eq_ok_iff.2 ⟨value, hvalue, hrs⟩
        simp [hparse, bind, Except.bind, Except.mapError] at h

/-- The first path that fails is the one that is reported. -/
theorem readAll_eq_error {paths : List String} {e : ReplayError}
    (h : readAll files (inputAfter input earlier) paths = .error e) :
    ∃ (i : Nat) (path message : String), paths[i]? = some path ∧
      (∀ (j : Nat) (other : String), j < i → paths[j]? = some other →
        ∃ rs, Contributes files input (earlier ++ paths.take j) other rs) ∧
      Fails files input (earlier ++ paths.take i) path message ∧
        e.messages.head? = some message := by
  induction paths generalizing earlier with
  | nil => cases h
  | cons path paths ih =>
      rw [readAll] at h
      cases hfirst : readEvents files (inputAfter input earlier) path with
      | error e' =>
          rw [hfirst] at h
          cases h
          rcases readEvents_eq_error hfirst with ⟨message, hmessage, hfails⟩
          exact ⟨0, path, message, rfl, by simp, by simpa using hfails, hmessage⟩
      | ok group =>
          rw [hfirst, ← inputAfter_append] at h
          cases hrest : readAll files (inputAfter input (earlier ++ [path])) paths with
          | ok others => simp [hrest, bind, Except.bind, pure, Except.pure] at h
          | error e' =>
              simp only [hrest, bind, Except.bind] at h
              cases h
              rcases ih hrest with ⟨i, other, message, hother, hearlier, hfails, hmessage⟩
              refine ⟨i + 1, other, message, by simpa using hother, ?_, by simpa using hfails,
                hmessage⟩
              intro j before hj hbefore
              cases j with
              | zero =>
                  rw [List.getElem?_cons_zero, Option.some.injEq] at hbefore
                  subst hbefore
                  exact ⟨group, by simpa using readEvents_eq_ok_iff.1 hfirst⟩
              | succ j =>
                  simpa using hearlier j before (by omega) (by simpa using hbefore)

end Reading

/-! ## Effects -/

namespace Part

variable {σ α β : Type}

theorem on_bind (part : Part σ α) (next : α → Part σ β) (stage : Stage σ) :
    (part >>= next).on stage =
      match part.on stage with
      | (.ok a, after) => (next a).on after
      | (.error e, after) => (.error e, after) := by
  simp only [on, bind, ExceptT.bind, ExceptT.mk, ExceptT.run, StateT.run, StateT.bind,
    ExceptT.bindCont]
  rcases part stage with ⟨_ | _, _⟩ <;> rfl

theorem on_takeInput (path : String) (stage : Stage σ) :
    (takeInput path).on stage
      = (.ok stage.input, { stage with input := if path = inputPath then [] else stage.input }) := by
  unfold takeInput
  split <;> rfl

theorem on_takeEvents (files : Files.Source) (path : String) (stage : Stage σ) :
    (takeEvents files path).on stage = (readEvents files stage.input path,
      { stage with input := if path = inputPath then [] else stage.input }) := by
  rw [takeEvents, on_bind, on_takeInput]
  dsimp only
  cases readEvents files stage.input path <;> rfl

/-- Taking requests changes nothing but what can still be typed in, whether it fails or not. -/
theorem exists_on_takeAll (files : Files.Source) (paths : List String) (stage : Stage σ) :
    ∃ rest, (takeAll files paths).on stage
      = (readAll files stage.input paths, { stage with input := rest }) := by
  induction paths generalizing stage with
  | nil => exact ⟨stage.input, rfl⟩
  | cons path paths ih =>
      rw [takeAll, on_bind, on_takeEvents, readAll]
      cases readEvents files stage.input path with
      | error e => exact ⟨_, rfl⟩
      | ok requests =>
          rcases ih { stage with input := if path = inputPath then [] else stage.input } with
            ⟨rest, hrest⟩
          refine ⟨rest, ?_⟩
          dsimp only
          rw [on_bind, hrest]
          dsimp only [bind, Except.bind]
          cases readAll files (if path = inputPath then [] else stage.input) paths <;> rfl

/-- A replay fails exactly if its requests cannot be had, and then it has changed nothing but what
can still be typed in. -/
theorem exists_on_conduct (service : Service σ) (files : Files.Source) (paths : List String)
    (stage : Stage σ) :
    ∃ rest, (conduct service files paths).on stage =
      match readAll files stage.input paths with
      | .error e => (.error e, { stage with input := rest })
      | .ok requests => (serveAll service requests).on
          { stage with
            input := rest
            diagnostics := stage.diagnostics ++ [.replay requests.length] } := by
  rcases exists_on_takeAll files paths stage with ⟨rest, hrest⟩
  refine ⟨rest, ?_⟩
  rw [conduct, on_bind, hrest]
  cases readAll files stage.input paths with
  | error e => rfl
  | ok requests => rfl

/-- Serving does not fail. -/
theorem exists_on_serveAll (service : Service σ) (rs : List Request) (stage : Stage σ) :
    ∃ responses after, (serveAll service rs).on stage = (.ok responses, after) := by
  induction rs generalizing stage with
  | nil => exact ⟨[], stage, rfl⟩
  | cons r rs ih =>
      rcases hserve : (serve service r).on stage with ⟨_ | response, next⟩
      · cases hserve
      · rcases ih next with ⟨responses, after, hafter⟩
        refine ⟨response :: responses, after, ?_⟩
        simp only [serveAll, on_bind, hserve, hafter]
        rfl

theorem on_serveAll_ofHandler (rs : List Request) (handler : Handler) (holder : Holder)
    (input : Files.Content) (ds : List Log.Diagnostic) :
    (serveAll .ofHandler rs).on ⟨(handler, holder), input, ds⟩
      = (.ok (Replay.serve handler holder rs).responses,
        ⟨((Replay.serve handler holder rs).handler, (Replay.serve handler holder rs).holder), input,
          ds ++ (Replay.serve handler holder rs).diagnostics⟩) := by
  induction rs generalizing handler holder ds with
  | nil => simp [serveAll, Replay.serve]; rfl
  | cons r rs ih =>
      have hserve : (serve .ofHandler r).on ⟨(handler, holder), input, ds⟩
          = (.ok (handler.invoke holder r).response,
            ⟨((handler.invoke holder r).handler, (handler.invoke holder r).holder), input,
              ds ++ (handler.invoke holder r).diagnostics⟩) := rfl
      simp only [serveAll, on_bind, hserve, ih, Replay.serve, List.append_assoc]
      rfl

theorem on_serveAll_ofMinimal (rs : List Request) (stage : Stage σ) :
    (serveAll .ofMinimal rs).on stage
      = (.ok (rs.map fun _ => minimalResponse),
        { stage with diagnostics := stage.diagnostics ++ rs.flatMap minimalDiagnostics }) := by
  induction rs generalizing stage with
  | nil => simp [serveAll]; rfl
  | cons r rs ih =>
      have hserve : (serve .ofMinimal r).on stage
          = (.ok minimalResponse,
            { stage with diagnostics := stage.diagnostics ++ minimalDiagnostics r }) := rfl
      simp only [serveAll, on_bind, hserve, ih, List.flatMap_cons, List.append_assoc]
      rfl

/-- Effect by effect, a replay does what `Replay.run` says. -/
theorem exists_on_conduct_ofTask (minimal : Bool) (files : Files.Source) (paths : List String)
    (handler : Handler) (holder : Holder) (input : Files.Content) (ds : List Log.Diagnostic) :
    ∃ rest, (conduct (.ofTask minimal) files paths).on ⟨(handler, holder), input, ds⟩ =
      match Replay.run files input minimal handler holder paths with
      | .error e => (.error e, ⟨(handler, holder), rest, ds⟩)
      | .ok run => (.ok run.responses, ⟨(run.handler, run.holder), rest, ds ++ run.diagnostics⟩) := by
  rcases exists_on_conduct (.ofTask minimal) files paths ⟨(handler, holder), input, ds⟩ with
    ⟨rest, hrest⟩
  refine ⟨rest, ?_⟩
  rw [hrest, Replay.run]
  cases readAll files input paths with
  | error e => rfl
  | ok requests =>
      cases minimal with
      | true =>
          simp only [Service.ofTask, if_true, on_serveAll_ofMinimal, List.append_assoc]
          rfl
      | false =>
          simp only [Service.ofTask, Bool.false_eq_true, if_false, on_serveAll_ofHandler,
            List.append_assoc]
          rfl

end Part

end Replay

namespace Program

open Replay

/-- What is reported on a replay of the given events under a configuration. -/
def reportOn (w : Surroundings) (c : Config) (threshold : Log.Threshold) (minimal : Bool)
    (events : List String) : Report :=
  let stage : Stage (Handler × Holder) :=
    ⟨(.cold c.emptyField1, ⟨c.defaultMessage⟩), w.input,
      [.started c.defaultMessage c.emptyField1]⟩
  match (Part.conduct (.ofTask minimal) w.files events).on stage with
  | (.ok responses, after) =>
    ⟨0, String.join (responses.map fun r => r.write ++ "\n"), .ofThreshold threshold,
      shown threshold after.diagnostics, none⟩
  | (.error e, after) =>
    ⟨1, "", .ofThreshold threshold, shown threshold after.diagnostics,
      some (Report.complaintText e.messages)⟩

theorem perform_invoke_eq (w : Surroundings) (c : Config) (threshold : Log.Threshold)
    (minimal : Bool) (events : List String) :
    perform w c threshold (.invoke events minimal) = reportOn w c threshold minimal events := by
  rcases Part.exists_on_conduct_ofTask minimal w.files events (.cold c.emptyField1)
    ⟨c.defaultMessage⟩ w.input [.started c.defaultMessage c.emptyField1] with ⟨rest, hrest⟩
  rw [reportOn, hrest, perform]
  cases Replay.run w.files w.input minimal (.cold c.emptyField1) ⟨c.defaultMessage⟩ events with
  | error e => rfl
  | ok run => rfl

section

variable {σ : Type} {service : Service σ} {files : Files.Source} {paths : List String}
  {stage : Stage σ}

theorem exists_conduct_error_iff :
    (∃ e after, (Part.conduct service files paths).on stage = (.error e, after)) ↔
      ∃ (i : Nat) (path message : String), paths[i]? = some path ∧
        Fails files stage.input (paths.take i) path message := by
  rcases Part.exists_on_conduct service files paths stage with ⟨rest, hrest⟩
  rw [hrest]
  constructor
  · rintro ⟨e, after, h⟩
    cases hread : readAll files stage.input paths with
    | error e' =>
        have hinput : readAll files (inputAfter stage.input []) paths = .error e' := hread
        rcases readAll_eq_error hinput with ⟨i, path, message, hpath, _, hfails, _⟩
        exact ⟨i, path, message, hpath, hfails⟩
    | ok requests =>
        -- what has been read is served, and serving does not fail
        simp only [hread] at h
        rcases Part.exists_on_serveAll service requests _ with ⟨responses, after', hserve⟩
        rw [hserve] at h
        cases h
  · rintro ⟨i, path, message, hpath, hfails⟩
    cases hread : readAll files stage.input paths with
    | error e => exact ⟨e, _, rfl⟩
    | ok requests =>
        have hall := exists_gathers_iff.1 ⟨requests, readAll_eq_ok_iff.1 hread⟩ i path hpath
        exact absurd hall (exists_fails_iff.1 ⟨message, hfails⟩)

theorem conduct_error {e : ReplayError} {after : Stage σ}
    (h : (Part.conduct service files paths).on stage = (.error e, after)) :
    (∃ (i : Nat) (path message : String), paths[i]? = some path ∧
      Fails files stage.input (paths.take i) path message ∧ e.messages.head? = some message ∧
        ∀ (j : Nat) (other : String), j < i → paths[j]? = some other →
          ∃ rs, Contributes files stage.input (paths.take j) other rs) ∧
      after.state = stage.state ∧ after.diagnostics = stage.diagnostics := by
  rcases Part.exists_on_conduct service files paths stage with ⟨rest, hrest⟩
  rw [hrest] at h
  cases hread : readAll files stage.input paths with
  | error e' =>
      simp only [hread] at h
      cases h
      have hinput : readAll files (inputAfter stage.input []) paths = .error e := hread
      rcases readAll_eq_error hinput with
        ⟨i, path, message, hpath, hearlier, hfails, hmessage⟩
      exact ⟨⟨i, path, message, hpath, hfails, hmessage, hearlier⟩, rfl, rfl⟩
  | ok requests =>
      simp only [hread] at h
      rcases Part.exists_on_serveAll service requests _ with ⟨responses, after', hserve⟩
      rw [hserve] at h
      cases h

end

/-- A replay fails exactly if one of its paths does. It then reports the first such path, and has
served no request and reported no diagnostic, whatever serves its requests. The program replays its
events in this way once it has a configuration; without one it complains about that, whatever the
events are. When it fails it has written nothing. -/
theorem replay_all_or_nothing {σ : Type} (service : Service σ) (files : Files.Source)
    (paths : List String) (stage : Stage σ) (w : Surroundings) (args : List String) :
    ((∃ e after, (Part.conduct service files paths).on stage = (.error e, after)) ↔
      ∃ (i : Nat) (path message : String), paths[i]? = some path ∧
        Fails files stage.input (paths.take i) path message) ∧
    (∀ e after, (Part.conduct service files paths).on stage = (.error e, after) →
      (∃ (i : Nat) (path message : String), paths[i]? = some path ∧
        Fails files stage.input (paths.take i) path message ∧ e.messages.head? = some message ∧
          ∀ (j : Nat) (other : String), j < i → paths[j]? = some other →
            ∃ rs, Contributes files stage.input (paths.take j) other rs) ∧
        after.state = stage.state ∧ after.diagnostics = stage.diagnostics) ∧
    ∀ call events minimal, CommandLine.parse args = .ok call → call.task = .invoke events minimal →
      (∀ e, loadConfig w call = .error e →
        run w args = ⟨1, "", .brief, [], some (Report.complaintText [e.message])⟩) ∧
      (∀ c, loadConfig w call = .ok c →
        run w args = reportOn w c (call.level.getD c.logLevel) minimal events) ∧
      ((run w args).status = 1 → (run w args).output = "") := by
  refine ⟨exists_conduct_error_iff, fun e after h => conduct_error h, ?_⟩
  intro call events minimal hcall htask
  refine ⟨?_, ?_, ?_⟩
  · intro e he
    simp only [run, hcall, he]
  · intro c hc
    simp only [run, hcall, hc, htask, perform_invoke_eq]
  · intro hstatus
    have hnot : ¬ ((∃ c, loadConfig w call = .ok c) ∧
        ∃ rs, Replay.readAll w.files w.input events = .ok rs) := by
      intro hboth
      rw [(status_eq_zero_iff hcall htask).2 hboth] at hstatus
      cases hstatus
    exact (run_of_not_ok hcall htask hnot).2

/-- Surroundings in which the second event of the second file is no request. -/
def lateFailure : Surroundings where
  environment := fun _ => none
  files := fun path =>
    if path = "a" then .ok (Text.bytes "\x7b\"field1\":\"Hi\"\x7d")
    else if path = "b" then .ok (Text.bytes "[\x7b\x7d,\x7b\"field1\":[]\x7d]")
    else .error .notFound
  input := []

theorem replay_all_or_nothing_late_failure :
    (∃ e after, (Part.conduct .ofHandler lateFailure.files ["a", "b", "c"]).on
        ⟨(.cold .overwrite, .default), [], []⟩ = (.error e, after) ∧
      e.messages.head? = some "Invalid event in b" ∧
      after.state = (.cold .overwrite, .default) ∧ after.diagnostics = []) ∧
    CommandLine.parse ["invoke", "-e", "a", "-e", "b"] = .ok ⟨.invoke ["a", "b"] false, none, none⟩ ∧
      (run lateFailure ["invoke", "-e", "a", "-e", "b"]).status = 1 ∧
        (run lateFailure ["invoke", "-e", "a", "-e", "b"]).output = "" := by
  rcases replay_all_or_nothing .ofHandler lateFailure.files ["a", "b", "c"]
    ⟨(.cold .overwrite, .default), [], []⟩ lateFailure ["invoke", "-e", "a", "-e", "b"] with
    ⟨_, hfailure, hprogram⟩
  constructor
  · rcases hconduct : (Part.conduct .ofHandler lateFailure.files ["a", "b", "c"]).on
      ⟨(.cold .overwrite, .default), [], []⟩ with ⟨result, after⟩
    have hmessage : (match ((Part.conduct .ofHandler lateFailure.files ["a", "b", "c"]).on
        ⟨(.cold .overwrite, .default), [], []⟩).1 with
      | .error e => e.messages.head?
      | .ok _ => none) = some "Invalid event in b" := by
      decide +kernel
    rw [hconduct] at hmessage
    cases result with
    | ok responses => cases hmessage
    | error e =>
        rcases hfailure e after hconduct with ⟨_, hstate, hdiagnostics⟩
        exact ⟨e, after, rfl, hmessage, hstate, hdiagnostics⟩
  · have hcall : CommandLine.parse ["invoke", "-e", "a", "-e", "b"]
        = .ok ⟨.invoke ["a", "b"] false, none, none⟩ := by
      decide +kernel
    have hread : (Replay.readAll lateFailure.files [] ["a", "b"]).toOption.isSome = false := by
      decide +kernel
    have hstatus : (run lateFailure ["invoke", "-e", "a", "-e", "b"]).status = 1 := by
      refine (run_of_not_ok hcall rfl ?_).1
      rintro ⟨_, rs, hrs⟩
      rw [show lateFailure.input = [] from rfl] at hrs
      rw [hrs] at hread
      cases hread
    exact ⟨hcall, hstatus, (hprogram _ _ _ hcall rfl).2.2 hstatus⟩

end Program
end GreetingService
