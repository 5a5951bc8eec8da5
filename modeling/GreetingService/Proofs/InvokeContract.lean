import GreetingService.Program
import GreetingService.Proofs.EventReplay
import GreetingService.Proofs.RecordText

/-!
# What `invoke` does from end to end

The program succeeds when the configuration can be had and every path gives requests. It then
answers with one line for each request, in order, and each line is a document of its own.
-/

namespace GreetingService

open Results

/-! ## The configuration -/

namespace Config

/-- The document in a file of settings. -/
def FileHolds (files : Files.Source) (path : String) (d : Settings.Document) : Prop :=
  ∃ content text, files path = .ok content ∧ Text.ofBytes? (Files.withoutMark content) = some text ∧
    Settings.Document.parse text = .ok d

/-- The configuration that comes of the built-in settings, a file where one is given, and the
environment, in this order. -/
def Composed (files : Files.Source) (file : Option String) (env : Environment) (c : Config) :
    Prop :=
  ∃ first second, builtIn = .ok first ∧
    (match file with
      | none => second = first
      | some path => ∃ d, FileHolds files path d ∧ first.layer d = .ok second) ∧
      second.override env = .ok c

theorem toOption_builtIn : builtIn.toOption = some default := by
  -- evaluation is quick once the literal is a list of characters
  rw [builtIn, readDocument, Settings.Document.parse, builtInText, String.toList_ofList]
  decide +kernel

/-- The built-in settings are those that hold before any layer. -/
theorem builtIn_eq : builtIn = .ok default :=
  toOption_eq_some_iff.1 toOption_builtIn

theorem readFile_eq_ok_iff {files : Files.Source} {path : String} {d : Settings.Document} :
    readFile files path = .ok d ↔ FileHolds files path d := by
  rw [readFile, bind_eq_ok_iff]
  constructor
  · rintro ⟨content, hcontent, h⟩
    rw [mapError_eq_ok_iff] at hcontent
    cases htext : Text.ofBytes? (Files.withoutMark content) with
    | none => simp [htext] at h
    | some text =>
        simp only [htext] at h
        exact ⟨content, text, hcontent, htext, mapError_eq_ok_iff.1 h⟩
  · rintro ⟨content, text, hcontent, htext, hparse⟩
    refine ⟨content, mapError_eq_ok_iff.2 hcontent, ?_⟩
    simp only [htext]
    exact mapError_eq_ok_iff.2 hparse

theorem load_eq_ok_iff {files : Files.Source} {env : Environment} {c : Config} :
    load env = .ok c ↔ Composed files none env c := by
  rw [load, bind_eq_ok_iff]
  constructor
  · rintro ⟨first, hfirst, henv⟩
    exact ⟨first, first, hfirst, rfl, henv⟩
  · rintro ⟨first, second, hfirst, rfl, henv⟩
    exact ⟨second, hfirst, henv⟩

theorem loadFile_eq_ok_iff {files : Files.Source} {path : String} {env : Environment}
    {c : Config} : loadFile files path env = .ok c ↔ Composed files (some path) env c := by
  rw [loadFile, bind_eq_ok_iff]
  constructor
  · rintro ⟨d, hd, h⟩
    rcases bind_eq_ok_iff.1 h with ⟨first, hfirst, h⟩
    rcases bind_eq_ok_iff.1 h with ⟨second, hsecond, henv⟩
    exact ⟨first, second, hfirst, ⟨d, readFile_eq_ok_iff.1 hd, hsecond⟩, henv⟩
  · rintro ⟨first, second, hfirst, ⟨d, hd, hsecond⟩, henv⟩
    refine ⟨d, readFile_eq_ok_iff.2 hd, bind_eq_ok_iff.2 ⟨first, hfirst, ?_⟩⟩
    exact bind_eq_ok_iff.2 ⟨second, hsecond, henv⟩

end Config

namespace Program

theorem loadConfig_eq_ok_iff {w : Surroundings} {call : CommandLine.Call} {c : Config} :
    loadConfig w call = .ok c ↔ Config.Composed w.files call.configFile w.environment c := by
  unfold loadConfig
  cases call.configFile with
  | none => exact Config.load_eq_ok_iff
  | some path => exact Config.loadFile_eq_ok_iff

/-! ## The answers -/

/-- The message of the answer to the request in a given place of a list. -/
def answer (minimal : Bool) (c : Config) (rs : List Request) (i : Nat) : String :=
  if minimal then helloWorld
  else (c.emptyField1.acceptedTexts (rs.take (i + 1))).getLastD c.defaultMessage

/-- A line without breaks that is a document with nothing but the message in it. -/
def Tells (line message : String) : Prop :=
  '\n' ∉ line.toList ∧
    Json.Value.parse (Text.bytes line) = .ok (.object [("message", .text message)])

theorem tells_write (r : Response) : Tells r.write r.message := by
  refine ⟨?_, r.value_write⟩
  intro h
  have hle : 32 ≤ ('\n').toNat := Response.le_of_mem_write h
  exact absurd hle (by decide)

/-- The responses of a run, one for each request. -/
theorem responses_run {w : Surroundings} {c : Config} {minimal : Bool} {events : List String}
    {rs : List Request} {replay : Replay.Run}
    (hrs : Replay.readAll w.files w.input events = .ok rs)
    (hreplay : Replay.run w.files w.input minimal (.cold c.emptyField1) ⟨c.defaultMessage⟩ events
      = .ok replay) :
    replay.responses = rs.mapIdx fun i _ => ⟨answer minimal c rs i⟩ := by
  rw [Replay.run, hrs] at hreplay
  apply List.ext_getElem?
  intro i
  rw [List.getElem?_mapIdx]
  cases minimal with
  | true =>
      cases hreplay
      exact List.getElem?_map
  | false =>
      cases hreplay
      exact Replay.getElem?_responses_serve (.cold c.emptyField1) ⟨c.defaultMessage⟩ rs i

/-! ## The report -/

section Invoke

variable {w : Surroundings} {args : List String} {call : CommandLine.Call} {events : List String}
  {minimal : Bool}

/-- A run fails when one of its paths does. -/
theorem exists_run_iff {handler : Handler} {holder : Holder} :
    (∃ run, Replay.run w.files w.input minimal handler holder events = .ok run) ↔
      ∃ rs, Replay.readAll w.files w.input events = .ok rs := by
  constructor
  · rintro ⟨run, hrun⟩
    rcases bind_eq_ok_iff.1 hrun with ⟨rs, hrs, _⟩
    exact ⟨rs, hrs⟩
  · rintro ⟨rs, hrs⟩
    exact ⟨_, bind_eq_ok_iff.2 ⟨rs, hrs, rfl⟩⟩

/-- The report of a successful replay under a configuration. -/
theorem run_of_ok {c : Config} {rs : List Request} (hcall : CommandLine.parse args = .ok call)
    (htask : call.task = .invoke events minimal) (hconfig : loadConfig w call = .ok c)
    (hrs : Replay.readAll w.files w.input events = .ok rs) :
    (run w args).status = 0 ∧ ∃ lines : List String,
      (run w args).output = String.join (lines.map (· ++ "\n")) ∧ lines.length = rs.length ∧
        ∀ (i : Nat) (line : String), lines[i]? = some line → Tells line (answer minimal c rs i) := by
  have hrun : ∃ replay, Replay.run w.files w.input minimal (.cold c.emptyField1)
      ⟨c.defaultMessage⟩ events = .ok replay := exists_run_iff.2 ⟨rs, hrs⟩
  rcases hrun with ⟨replay, hreplay⟩
  have hresponses := responses_run hrs hreplay
  have hreport : (run w args).status = 0 ∧ (run w args).output
      = String.join (replay.responses.map fun r => r.write ++ "\n") := by
    simp only [run, hcall, hconfig, perform, htask, hreplay, and_self]
  refine ⟨hreport.1, replay.responses.map Response.write, ?_, ?_, ?_⟩
  · rw [hreport.2, List.map_map]
    rfl
  · rw [List.length_map, hresponses, List.length_mapIdx]
  · intro i line hline
    rw [hresponses, List.getElem?_map, List.getElem?_mapIdx, Option.map_map] at hline
    rcases Option.map_eq_some_iff.1 hline with ⟨_, _, rfl⟩
    exact tells_write ⟨answer minimal c rs i⟩

/-- The report when there is no configuration, or when the events cannot be had. -/
theorem run_of_not_ok (hcall : CommandLine.parse args = .ok call)
    (htask : call.task = .invoke events minimal)
    (h : ¬ ((∃ c, loadConfig w call = .ok c) ∧
      ∃ rs, Replay.readAll w.files w.input events = .ok rs)) :
    (run w args).status = 1 ∧ (run w args).output = "" := by
  -- the configuration comes first, so without one the events do not matter
  cases hconfig : loadConfig w call with
  | error e => simp only [run, hcall, hconfig, and_self]
  | ok c =>
      have hnone : ¬ ∃ rs, Replay.readAll w.files w.input events = .ok rs :=
        fun hrs => h ⟨⟨c, hconfig⟩, hrs⟩
      cases hreplay : Replay.run w.files w.input minimal (.cold c.emptyField1) ⟨c.defaultMessage⟩
          events with
      | error e => simp only [run, hcall, hconfig, perform, htask, hreplay, and_self]
      | ok replay => exact absurd (exists_run_iff.1 ⟨replay, hreplay⟩) hnone

/-- The program succeeds when the configuration can be had and every path gives requests. -/
theorem status_eq_zero_iff (hcall : CommandLine.parse args = .ok call)
    (htask : call.task = .invoke events minimal) :
    (run w args).status = 0 ↔
      (∃ c, loadConfig w call = .ok c) ∧ ∃ rs, Replay.readAll w.files w.input events = .ok rs := by
  constructor
  · intro hstatus
    by_contra h
    rw [(run_of_not_ok hcall htask h).1] at hstatus
    cases hstatus
  · rintro ⟨⟨c, hconfig⟩, rs, hrs⟩
    rcases run_of_ok hcall htask hconfig hrs with ⟨hstatus, _⟩
    exact hstatus

/-- What `invoke` does: it succeeds exactly when the configuration can be had and every path gives
requests, and then writes one line for each request, which tells the greeting after that request.
Otherwise it writes nothing. A second `-` has nothing left to read. -/
theorem invoke_contract (hcall : CommandLine.parse args = .ok call)
    (htask : call.task = .invoke events minimal) :
    ((run w args).status = 0 ↔
      (∃ c, Config.Composed w.files call.configFile w.environment c) ∧
        ∀ (i : Nat) (path : String), events[i]? = some path →
          ∃ rs, Replay.Contributes w.files w.input (events.take i) path rs) ∧
    ((run w args).status = 0 → ∃ (c : Config) (rs : List Request) (lines : List String),
      Config.Composed w.files call.configFile w.environment c ∧
      Replay.Gathers w.files w.input [] events rs ∧
      (run w args).output = String.join (lines.map (· ++ "\n")) ∧
      lines.length = rs.length ∧
      ∀ (i : Nat) (line : String), lines[i]? = some line → Tells line (answer minimal c rs i)) ∧
    ((run w args).status ≠ 0 → (run w args).status = 1 ∧ (run w args).output = "") ∧
    (∀ i j : Nat, i < j → events[i]? = some Replay.inputPath →
      events[j]? = some Replay.inputPath → (run w args).status ≠ 0) := by
  have hzero : (run w args).status = 0 ↔
      (∃ c, Config.Composed w.files call.configFile w.environment c) ∧
        ∀ (i : Nat) (path : String), events[i]? = some path →
          ∃ rs, Replay.Contributes w.files w.input (events.take i) path rs := by
    rw [status_eq_zero_iff hcall htask]
    refine and_congr (exists_congr fun c => loadConfig_eq_ok_iff) ?_
    simp only [Replay.readAll_eq_ok_iff, Replay.exists_gathers_iff, List.nil_append]
  refine ⟨hzero, ?_, ?_, ?_⟩
  · intro hstatus
    rcases (status_eq_zero_iff hcall htask).1 hstatus with ⟨⟨c, hconfig⟩, rs, hrs⟩
    rcases run_of_ok hcall htask hconfig hrs with ⟨_, lines, houtput, hlength, hlines⟩
    exact ⟨c, rs, lines, loadConfig_eq_ok_iff.1 hconfig, Replay.readAll_eq_ok_iff.1 hrs, houtput,
      hlength, hlines⟩
  · intro hstatus
    refine run_of_not_ok hcall htask ?_
    intro hboth
    exact hstatus ((status_eq_zero_iff hcall htask).2 hboth)
  · intro i j hij hi hj hstatus
    -- the first of the two has taken all the input
    rcases (hzero.1 hstatus).2 j _ hj with ⟨rs, hrs⟩
    have hused : Replay.inputPath ∈ events.take j :=
      List.mem_of_getElem? ((List.getElem?_take_of_lt hij).trans hi)
    exact Replay.not_contributes_of_used hused rs hrs

end Invoke

/-- Surroundings with one file of two events; the greeting of the first has a line break in it. -/
def twoEvents : Surroundings where
  environment := fun _ => none
  files := fun path =>
    if path = "a" then .ok (Text.bytes "[\x7b\"key1\":\"a\\nb\"\x7d,\x7b\x7d]")
    else .error .notFound
  input := []

theorem readAll_twoEvents :
    Replay.readAll twoEvents.files twoEvents.input ["a"]
      = .ok [⟨some "a\nb", none, none⟩, Request.empty] := by
  have h : (Replay.readAll twoEvents.files twoEvents.input ["a"]).toOption
      = some [⟨some "a\nb", none, none⟩, Request.empty] := by
    decide +kernel
  exact Results.toOption_eq_some_iff.1 h

/-- Both lines tell the greeting of the first event, and the break in it adds no line. -/
theorem invoke_contract_two_events :
    CommandLine.parse ["invoke", "-e", "a"] = .ok ⟨.invoke ["a"] false, none, none⟩ ∧
      (run twoEvents ["invoke", "-e", "a"]).status = 0 ∧
        ∃ first second : String, Tells first "a\nb" ∧ Tells second "a\nb" ∧
          (run twoEvents ["invoke", "-e", "a"]).output
            = String.join [first ++ "\n", second ++ "\n"] := by
  have hcall : CommandLine.parse ["invoke", "-e", "a"]
      = .ok ⟨.invoke ["a"] false, none, none⟩ := by
    decide +kernel
  rcases invoke_contract (w := twoEvents) hcall rfl with ⟨hzero, hlines, _, _⟩
  have hstatus : (run twoEvents ["invoke", "-e", "a"]).status = 0 := by
    refine hzero.2 ⟨⟨Config.default, _, _, Config.builtIn_eq, rfl, rfl⟩, ?_⟩
    exact Replay.exists_gathers_iff.1 ⟨_, Replay.readAll_eq_ok_iff.1 readAll_twoEvents⟩
  rcases hlines hstatus with ⟨c, rs, lines, _, hrs, houtput, hlength, htells⟩
  have hrs' : rs = [⟨some "a\nb", none, none⟩, Request.empty] := by
    have h := Replay.readAll_eq_ok_iff.2 hrs
    rw [readAll_twoEvents] at h
    exact (Except.ok.inj h).symm
  subst hrs'
  match lines, hlength with
  | [first, second], _ =>
      -- no policy refuses a text that is not empty, so the configuration need not be known
      have haccepts : c.emptyField1.accepts "a\nb" = true := by
        cases c.emptyField1 <;> decide
      have hanswer : ∀ i, i < 2 → answer false c [⟨some "a\nb", none, none⟩, Request.empty] i
          = "a\nb" := by
        intro i hi
        interval_cases i <;>
          simp [answer, Policy.acceptedTexts, Option.filter_some, Request.empty, haccepts]
      refine ⟨hcall, hstatus, first, second, ?_, ?_, houtput⟩
      · rw [← hanswer 0 (by decide)]
        exact htells 0 first rfl
      · rw [← hanswer 1 (by decide)]
        exact htells 1 second rfl

end Program
end GreetingService
