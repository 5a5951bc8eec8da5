import GreetingService.Proofs.InvokeContract
import GreetingService.Proofs.WrittenCommand

/-!
# Options on diagnostics change nothing else

Two command lines that differ only in their options on diagnostics end with the same status, the
same output and the same complaint, and read the same configuration. Of their diagnostics, the less
verbose one shows those of the other that its threshold lets through, in the same order.
-/

namespace GreetingService

namespace CommandLine

/-! ## Command lines without options on diagnostics -/

/-- The options on which diagnostics are shown. -/
def Opt.isLogging : Opt → Bool
  | .logLevel | .silent | .trace => true
  | _ => false

/-- Uses without those of options on diagnostics. -/
def withoutLogging (uses : List Use) : List Use :=
  uses.filter fun u => !u.option.isLogging

/-- Two command lines have the same command, and on each side of it the same options in the same
order, those on diagnostics aside. -/
def SameButLogging (args args' : List String) : Prop :=
  ∃ parts parts', HasParts args parts ∧ HasParts args' parts' ∧ parts.scope = parts'.scope ∧
    withoutLogging parts.outer = withoutLogging parts'.outer ∧
    withoutLogging parts.inner = withoutLogging parts'.inner

section WithoutLogging

variable {o : Opt}

theorem valueIn_withoutLogging (ho : o.isLogging = false) (uses : List Use) :
    valueIn (withoutLogging uses) o = valueIn uses o := by
  simp only [valueIn, withoutLogging, List.find?_filter]
  congr 2
  funext u
  by_cases hu : u.option = o <;> simp [hu, ho]

theorem isUsed_withoutLogging (ho : o.isLogging = false) (uses : List Use) :
    isUsed (withoutLogging uses) o = isUsed uses o := by
  simp only [isUsed, withoutLogging, List.any_filter]
  congr 1
  funext u
  by_cases hu : u.option = o <;> simp [hu, ho]

theorem eventsOf_withoutLogging (uses : List Use) :
    eventsOf (withoutLogging uses) = eventsOf uses := by
  simp only [eventsOf, withoutLogging, List.filterMap_filter]
  congr 1
  funext u
  by_cases hu : u.option = .event <;> simp [hu, Opt.isLogging]

theorem task_withoutLogging (s : Scope) (uses : List Use) :
    s.task (withoutLogging uses) = s.task uses := by
  cases s with
  | invoke => rw [Scope.task, Scope.task, eventsOf_withoutLogging, isUsed_withoutLogging rfl]
  | root => rfl
  | config => rfl

theorem valueOf_withoutLogging (ho : o.isLogging = false) (outer inner : List Use) :
    valueOf (withoutLogging outer) (withoutLogging inner) o = valueOf outer inner o := by
  simp only [valueOf_eq, valueIn_withoutLogging ho]

end WithoutLogging

/-- The calls of such command lines differ in their thresholds at most. -/
theorem SameButLogging.call_eq {args args' : List String} {call call' : Call}
    (h : SameButLogging args args') (hcall : parse args = .ok call)
    (hcall' : parse args' = .ok call') :
    call'.task = call.task ∧ call'.configFile = call.configFile := by
  rcases h with ⟨parts, parts', hparts, hparts', hscope, houter, hinner⟩
  rcases parse_eq_ok_iff.1 hcall with ⟨read, hread, _, rfl⟩
  rcases parse_eq_ok_iff.1 hcall' with ⟨read', hread', _, rfl⟩
  cases hread.unique hparts
  cases hread'.unique hparts'
  constructor
  · rw [Parts.call, Parts.call, ← task_withoutLogging, ← hinner, ← hscope, task_withoutLogging]
  · rw [Parts.call, Parts.call, ← valueOf_withoutLogging rfl, ← houter, ← hinner,
      valueOf_withoutLogging rfl]

end CommandLine

namespace Program

open CommandLine

/-! ## Runs with different thresholds -/

theorem admits_uniform (t : Log.Threshold) (target : String) (level : Log.Level) :
    (Log.Filter.uniform t).admits target level = t.admits level :=
  rfl

theorem shown_eq_filter (t : Log.Threshold) (ds : List Log.Diagnostic) :
    shown t ds = ds.filter fun d => t.admits d.level := by
  simp only [shown, admits_uniform]

/-- A less verbose threshold lets nothing through that the other one holds back. -/
theorem shown_eq_filter_shown {t t' : Log.Threshold} (h : t.rank ≤ t'.rank)
    (ds : List Log.Diagnostic) :
    shown t ds = (shown t' ds).filter fun d => t.admits d.level := by
  rw [shown_eq_filter, shown_eq_filter, List.filter_filter]
  congr 1
  funext d
  have hadmits : t.admits d.level = true → t'.admits d.level = true := by
    simp only [Log.Threshold.admits, decide_eq_true_eq]
    exact fun hle => hle.trans h
  cases hless : t.admits d.level with
  | false => rfl
  | true => rw [hadmits hless, Bool.and_self]

/-- A task under a configuration is performed in the same way at each threshold, which decides only
what is shown of its diagnostics, and how. -/
theorem exists_perform_eq (w : Surroundings) (c : Config) (task : Task) :
    ∃ status output ds complaint, ∀ t, perform w c t task
      = ⟨status, output, .ofThreshold t, shown t ds, complaint⟩ := by
  cases task with
  | showConfig => exact ⟨_, _, _, _, fun t => rfl⟩
  | invoke events minimal =>
      cases hreplay : Replay.run w.files w.input minimal (.cold c.emptyField1) ⟨c.defaultMessage⟩
          events with
      | error e =>
          have hperform : ∀ t, perform w c t (.invoke events minimal)
              = ⟨1, "", .ofThreshold t, shown t [.started c.defaultMessage c.emptyField1],
                some (Report.complaintText e.messages)⟩ := by
            intro t
            simp only [perform, hreplay]
          exact ⟨_, _, _, _, hperform⟩
      | ok replay =>
          have hperform : ∀ t, perform w c t (.invoke events minimal)
              = ⟨0, String.join (replay.responses.map fun r => r.write ++ "\n"), .ofThreshold t,
                shown t ([.started c.defaultMessage c.emptyField1] ++ replay.diagnostics),
                none⟩ := by
            intro t
            simp only [perform, hreplay]
          exact ⟨_, _, _, _, hperform⟩

/-- The threshold at which a call shows diagnostics under a configuration. -/
def effective (call : Call) (c : Config) : Log.Threshold :=
  call.level.getD c.logLevel

theorem run_eq_perform {w : Surroundings} {args : List String} {call : Call} {c : Config}
    (hcall : parse args = .ok call) (hconfig : loadConfig w call = .ok c) :
    run w args = perform w c (effective call c) call.task := by
  simp only [run, hcall, hconfig, effective]

theorem run_eq_refusal {w : Surroundings} {args : List String} {call : Call} {e : ConfigError}
    (hcall : parse args = .ok call) (hconfig : loadConfig w call = .error e) :
    run w args = ⟨1, "", .brief, [], some (Report.complaintText [e.message])⟩ := by
  simp only [run, hcall, hconfig]

/-- Options on diagnostics do not change how a run ends, what it writes or what it complains about.
Two runs that differ in them have the same configuration, if they have one. The less verbose of them
shows those diagnostics of the other that its own threshold lets through. -/
theorem run_same_but_logging {args args' : List String} {call call' : Call}
    (hcall : parse args = .ok call) (hcall' : parse args' = .ok call')
    (hsame : SameButLogging args args') (w : Surroundings) :
    (run w args).status = (run w args').status ∧
    (run w args).output = (run w args').output ∧
    (run w args).complaint = (run w args').complaint ∧
    (∀ c, loadConfig w call = .ok c → loadConfig w call' = .ok c ∧
      (call.task = .showConfig → (run w args).output = c.write) ∧
      ((effective call c).rank ≤ (effective call' c).rank →
        (run w args).diagnostics = (run w args').diagnostics.filter fun d =>
          (effective call c).admits d.level)) ∧
    (∀ e, loadConfig w call = .error e → loadConfig w call' = .error e ∧
      (run w args).diagnostics = [] ∧ (run w args').diagnostics = []) := by
  rcases hsame.call_eq hcall hcall' with ⟨htask, hfile⟩
  have hload : loadConfig w call' = loadConfig w call := by rw [loadConfig, hfile, loadConfig]
  cases hconfig : loadConfig w call with
  | error e =>
      rw [hconfig] at hload
      rw [run_eq_refusal hcall hconfig, run_eq_refusal hcall' hload]
      refine ⟨rfl, rfl, rfl, nofun, ?_⟩
      intro e' he'
      cases he'
      exact ⟨hload, rfl, rfl⟩
  | ok c =>
      rw [hconfig] at hload
      rcases exists_perform_eq w c call.task with ⟨status, output, ds, complaint, hperform⟩
      have hrun := run_eq_perform hcall hconfig
      have hrun' := run_eq_perform hcall' hload
      rw [htask] at hrun'
      have hshow : call.task = .showConfig → (run w args).output = c.write := by
        intro hshow
        rw [hrun, hshow]
        rfl
      rw [hperform] at hrun hrun'
      refine ⟨by rw [hrun, hrun'], by rw [hrun, hrun'], by rw [hrun, hrun'], ?_, nofun⟩
      intro c' hc'
      cases hc'
      refine ⟨hload, hshow, ?_⟩
      intro hle
      rw [hrun, hrun']
      exact shown_eq_filter_shown hle ds

/-- Surroundings in which an empty greeting is asked for and not accepted. -/
def emptyGreeting : Surroundings where
  environment := fun name => if name = Config.policyVariable then some "ignore" else none
  files := fun path =>
    if path = "a" then .ok (Text.bytes "\x7b\"field1\":\"\"\x7d") else .error .notFound
  input := []

/-- The configuration in these surroundings. -/
def ignoring : Config := ⟨helloWorld, .ignore, .upTo .info⟩

theorem override_emptyGreeting :
    Config.default.override emptyGreeting.environment = .ok ignoring :=
  Results.toOption_eq_some_iff.1 (by decide +kernel)

/-- The refusal of the empty greeting is only shown by the more verbose run, whose option for all
diagnostics stands behind the command and outdoes the one for none in front of it. -/
theorem run_same_but_logging_empty_greeting :
    SameButLogging ["-L", "info", "invoke", "-e", "a"]
      ["--silent", "invoke", "--trace", "-e", "a"] ∧
    (run emptyGreeting ["-L", "info", "invoke", "-e", "a"]).status
      = (run emptyGreeting ["--silent", "invoke", "--trace", "-e", "a"]).status ∧
    (run emptyGreeting ["-L", "info", "invoke", "-e", "a"]).output
      = (run emptyGreeting ["--silent", "invoke", "--trace", "-e", "a"]).output ∧
    (run emptyGreeting ["-L", "info", "invoke", "-e", "a"]).diagnostics
      = (run emptyGreeting ["--silent", "invoke", "--trace", "-e", "a"]).diagnostics.filter
          (fun d => (Log.Threshold.upTo .info).admits d.level) ∧
    .emptyIgnored ∈ (run emptyGreeting ["--silent", "invoke", "--trace", "-e", "a"]).diagnostics ∧
    .emptyIgnored ∉ (run emptyGreeting ["-L", "info", "invoke", "-e", "a"]).diagnostics := by
  have hcall : parse ["-L", "info", "invoke", "-e", "a"]
      = .ok ⟨.invoke ["a"] false, none, some (.upTo .info)⟩ := by
    decide +kernel
  have hcall' : parse ["--silent", "invoke", "--trace", "-e", "a"]
      = .ok ⟨.invoke ["a"] false, none, some (.upTo .trace)⟩ := by
    decide +kernel
  have hsame : SameButLogging ["-L", "info", "invoke", "-e", "a"]
      ["--silent", "invoke", "--trace", "-e", "a"] := by
    have hparts : HasParts ["-L", "info", "invoke", "-e", "a"]
        ⟨[⟨.logLevel, some "info"⟩], .invoke, [⟨.event, some "a"⟩]⟩ :=
      ⟨.invoke, _, _, _, _, rfl, rfl, rfl, rfl, rfl⟩
    have hparts' : HasParts ["--silent", "invoke", "--trace", "-e", "a"]
        ⟨[⟨.silent, none⟩], .invoke, [⟨.trace, none⟩, ⟨.event, some "a"⟩]⟩ :=
      ⟨.invoke, _, _, _, _, rfl, rfl, rfl, rfl, rfl⟩
    exact ⟨_, _, hparts, hparts', rfl, by decide, by decide⟩
  have hconfig : loadConfig emptyGreeting ⟨.invoke ["a"] false, none, some (.upTo .info)⟩
      = .ok ignoring :=
    loadConfig_eq_ok_iff.2 ⟨.default, .default, Config.builtIn_eq, rfl, override_emptyGreeting⟩
  rcases run_same_but_logging hcall hcall' hsame emptyGreeting with
    ⟨hstatus, houtput, _, hloaded, _⟩
  rcases hloaded _ hconfig with ⟨hconfig', _, hdiagnostics⟩
  have hfilter := hdiagnostics (by decide)
  refine ⟨hsame, hstatus, houtput, hfilter, ?_, ?_⟩
  · have hrun : run emptyGreeting ["--silent", "invoke", "--trace", "-e", "a"]
        = perform emptyGreeting ignoring (.upTo .trace) (.invoke ["a"] false) :=
      run_eq_perform hcall' hconfig'
    rw [hrun]
    decide +kernel
  · rw [hfilter]
    intro hmem
    exact absurd (List.mem_filter.1 hmem).2 (by decide)

end Program
end GreetingService
