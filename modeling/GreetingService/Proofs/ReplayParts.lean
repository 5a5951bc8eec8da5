import GreetingService.Proofs.AllOrNothing

/-!
# Replays in parts

A replay of two lists of paths one after the other is the replay of both together, apart from the
report of how many events there are, which then comes twice. A path with a list of events may be
replaced by paths with one of these events each.
-/

namespace GreetingService
namespace Replay

open Results

/-! ## Runs after one another -/

/-- A run and another one after it, taken together. -/
def Run.andThen (first second : Run) : Run :=
  ⟨second.handler, second.holder, first.responses ++ second.responses,
    first.diagnostics ++ second.diagnostics⟩

/-- The number of events that a diagnostic reports. -/
def count? : Log.Diagnostic → Option Nat
  | .replay count => some count
  | _ => none

/-- Runs that differ at most in how they report the number of events. -/
structure Run.SameButCounts (first second : Run) : Prop where
  handler : first.handler = second.handler
  holder : first.holder = second.holder
  responses : first.responses = second.responses
  others : first.diagnostics.filter (fun d => (count? d).isNone)
    = second.diagnostics.filter fun d => (count? d).isNone
  total : (first.diagnostics.filterMap count?).sum = (second.diagnostics.filterMap count?).sum

/-- Has the handler or the minimal one serve requests in order. -/
def serveAs (minimal : Bool) (handler : Handler) (holder : Holder) (rs : List Request) : Run :=
  if minimal then serveMinimal handler holder rs else serve handler holder rs

/-- A run with the report of how many events there are in front. -/
def Run.counted (run : Run) (count : Nat) : Run :=
  { run with diagnostics := .replay count :: run.diagnostics }

theorem serve_append (handler : Handler) (holder : Holder) (rs rs' : List Request) :
    serve handler holder (rs ++ rs') = (serve handler holder rs).andThen
      (serve (serve handler holder rs).handler (serve handler holder rs).holder rs') := by
  induction rs generalizing handler holder with
  | nil => rfl
  | cons r rs ih =>
      simp only [List.cons_append, serve, ih, Run.andThen, List.append_assoc]

theorem serveMinimal_append (handler : Handler) (holder : Holder) (rs rs' : List Request) :
    serveMinimal handler holder (rs ++ rs')
      = (serveMinimal handler holder rs).andThen (serveMinimal handler holder rs') := by
  simp only [serveMinimal, Run.andThen, List.map_append, List.flatMap_append]

theorem serveAs_append (minimal : Bool) (handler : Handler) (holder : Holder)
    (rs rs' : List Request) :
    serveAs minimal handler holder (rs ++ rs') = (serveAs minimal handler holder rs).andThen
      (serveAs minimal (serveAs minimal handler holder rs).handler
        (serveAs minimal handler holder rs).holder rs') := by
  cases minimal with
  | true => exact serveMinimal_append handler holder rs rs'
  | false => exact serve_append handler holder rs rs'

/-- Two reports in place of one add up to the same number. -/
theorem sameButCounts_counted (first second : Run) (count count' : Nat) :
    ((first.andThen second).counted (count + count')).SameButCounts
      ((first.counted count).andThen (second.counted count')) where
  handler := rfl
  holder := rfl
  responses := rfl
  others := by simp [Run.andThen, Run.counted, count?, List.filter_append]
  total := by
    simp only [Run.andThen, Run.counted, count?, List.filterMap_cons, List.filterMap_append,
      List.cons_append, List.sum_cons, List.sum_append]
    omega

/-! ## Paths after one another -/

section Reading

variable {files : Files.Source} {input : Files.Content}

/-- Every path gives requests when those before it have been read. -/
def Usable (files : Files.Source) (input : Files.Content) (paths : List String) : Prop :=
  ∀ (i : Nat) (path : String), paths[i]? = some path →
    ∃ rs, Contributes files input (paths.take i) path rs

theorem usable_iff {paths : List String} :
    Usable files input paths ↔ ∃ rs, readAll files input paths = .ok rs := by
  simp only [readAll_eq_ok_iff, exists_gathers_iff, List.nil_append, Usable]

theorem readAll_append_eq_ok_iff {earlier paths paths' : List String} {rs : List Request} :
    readAll files (inputAfter input earlier) (paths ++ paths') = .ok rs ↔
      ∃ group others, readAll files (inputAfter input earlier) paths = .ok group ∧
        readAll files (inputAfter input (earlier ++ paths)) paths' = .ok others ∧
          rs = group ++ others := by
  induction paths generalizing earlier rs with
  | nil =>
      rw [List.nil_append, List.append_nil]
      constructor
      · intro h
        exact ⟨[], rs, rfl, h, rfl⟩
      · rintro ⟨group, others, hgroup, hothers, rfl⟩
        cases hgroup
        exact hothers
  | cons path paths ih =>
      simp only [List.cons_append, readAll_cons_eq_ok_iff, ih, List.append_cons earlier path paths]
      constructor
      · rintro ⟨first, _, hfirst, ⟨group, others, hgroup, hothers, rfl⟩, rfl⟩
        exact ⟨first ++ group, others, ⟨first, group, hfirst, hgroup, rfl⟩, hothers,
          (List.append_assoc _ _ _).symm⟩
      · rintro ⟨_, others, ⟨first, group, hfirst, hgroup, rfl⟩, hothers, rfl⟩
        exact ⟨first, group ++ others, hfirst, ⟨group, others, hgroup, hothers, rfl⟩,
          List.append_assoc _ _ _⟩

/-- Without the path for what is typed in, it does not matter how much of that there is. -/
theorem inputAfter_append_of_notMem {earlier paths : List String} (h : inputPath ∉ paths) :
    inputAfter input (earlier ++ paths) = inputAfter input earlier := by
  simp [inputAfter, h]

theorem readAll_congr {paths : List String} (h : inputPath ∉ paths) (input input' : Files.Content) :
    readAll files input paths = readAll files input' paths := by
  induction paths generalizing input input' with
  | nil => rfl
  | cons path paths ih =>
      rw [List.mem_cons, not_or] at h
      have hne : ¬ path = inputPath := fun heq => h.1 heq.symm
      have htext : readText files input path = readText files input' path := by
        simp only [readText, if_neg hne]
      simp only [readAll, readEvents, htext, ih h.2 _ input']

/-- What has been typed in is read only once. -/
theorem notMem_of_readAll {earlier paths : List String} {rs : List Request}
    (h : readAll files (inputAfter input earlier) paths = .ok rs) (hused : inputPath ∈ earlier) :
    inputPath ∉ paths := by
  intro hmem
  rcases List.append_of_mem hmem with ⟨before, after, rfl⟩
  -- a second `-` would find the input empty, which is no document
  rcases readAll_append_eq_ok_iff.1 h with ⟨group, others, _, hothers, _⟩
  rcases readAll_cons_eq_ok_iff.1 hothers with ⟨first, _, hfirst, _⟩
  exact not_contributes_of_used (List.mem_append_left _ hused) first hfirst

/-! ## One path for each event -/

/-- The value in the text at a path that stands behind the given ones. -/
def Holds (files : Files.Source) (input : Files.Content) (earlier : List String) (path : String)
    (value : Json.Value) : Prop :=
  ∃ content text, contentAt files input earlier path = .ok content ∧
    Text.ofBytes? content = some text ∧ Json.Value.parse (Text.bytes text) = .ok value

theorem contributes_iff_of_holds {earlier : List String} {path : String} {value : Json.Value}
    (h : Holds files input earlier path value) {rs : List Request} :
    Contributes files input earlier path rs ↔
      List.Forall₂ (fun event r => Request.ofValue event = .ok r) (eventsOf value) rs := by
  rcases h with ⟨content, text, hcontent, htext, hvalue⟩
  rw [← requestsOf_iff]
  constructor
  · rintro ⟨content', text', value', hcontent', htext', hvalue', hrs⟩
    rw [hcontent] at hcontent'
    cases hcontent'
    rw [htext] at htext'
    cases htext'
    rw [hvalue] at hvalue'
    cases hvalue'
    exact hrs
  · intro hrs
    exact ⟨content, text, value, hcontent, htext, hvalue, hrs⟩

theorem eventsOf_of_not_list {value : Json.Value} (h : ∀ items, value ≠ .list items) :
    eventsOf value = [value] := by
  cases value with
  | list items => exact absurd rfl (h items)
  | _ => rfl

/-- A file with an event in it. -/
def HoldsEvent (files : Files.Source) (path : String) (event : Json.Value) : Prop :=
  path ≠ inputPath ∧ Holds files [] [] path event ∧ ∀ items, event ≠ .list items

theorem HoldsEvent.holds {path : String} {event : Json.Value} (h : HoldsEvent files path event)
    (input : Files.Content) (earlier : List String) : Holds files input earlier path event := by
  rcases h with ⟨hne, ⟨content, text, hcontent, htext, hvalue⟩, _⟩
  rw [contentAt, if_neg hne] at hcontent
  exact ⟨content, text, by rw [contentAt, if_neg hne, hcontent], htext, hvalue⟩

theorem readAll_of_holdsEvent {earlier singles : List String} {events : List Json.Value}
    {rs : List Request} (hsingles : List.Forall₂ (HoldsEvent files) singles events)
    (hrs : List.Forall₂ (fun event r => Request.ofValue event = .ok r) events rs) :
    readAll files (inputAfter input earlier) singles = .ok rs := by
  induction hsingles generalizing earlier rs with
  | nil =>
      cases hrs
      rfl
  | @cons single event singles events hsingle _ ih =>
      cases hrs with
      | @cons _ r _ rs hr hrs =>
          refine readAll_cons_eq_ok_iff.2 ⟨[r], rs, ?_, ih hrs, rfl⟩
          rw [contributes_iff_of_holds (hsingle.holds input earlier),
            eventsOf_of_not_list hsingle.2.2]
          exact .cons hr .nil

theorem notMem_of_holdsEvent {singles : List String} {events : List Json.Value}
    (h : List.Forall₂ (HoldsEvent files) singles events) : inputPath ∉ singles := by
  induction h with
  | nil => exact List.not_mem_nil
  | cons hsingle _ ih => exact List.not_mem_cons_of_ne_of_not_mem hsingle.1.symm ih

/-- A path with a list of events gives the same requests as paths with one of them each. -/
theorem readAll_spread {earlier later singles : List String} {path : String}
    {events : List Json.Value} {rs : List Request}
    (h : readAll files input (earlier ++ path :: later) = .ok rs)
    (hpath : Holds files input earlier path (.list events))
    (hsingles : List.Forall₂ (HoldsEvent files) singles events) :
    readAll files input (earlier ++ (singles ++ later)) = .ok rs := by
  have hinput : ∀ paths, readAll files input paths = readAll files (inputAfter input []) paths :=
    fun _ => rfl
  rw [hinput] at h ⊢
  -- the paths in front, the path itself, and those behind it
  rcases readAll_append_eq_ok_iff.1 h with ⟨first, _, hfirst, hrest, rfl⟩
  rw [List.nil_append] at hrest
  rcases readAll_cons_eq_ok_iff.1 hrest with ⟨group, last, hgroup, hlast, rfl⟩
  have hgroup' := (contributes_iff_of_holds hpath).1 hgroup
  have hlater : readAll files (inputAfter input (earlier ++ singles)) later = .ok last := by
    rw [inputAfter_append_of_notMem (notMem_of_holdsEvent hsingles), ← hlast]
    by_cases hpath' : path = inputPath
    · -- all that was typed in has been the list of events
      have hused : inputPath ∈ earlier ++ [path] := by simp [hpath']
      exact readAll_congr (notMem_of_readAll hlast hused) _ _
    · rw [inputAfter_append_of_notMem (by simpa [eq_comm] using hpath')]
  refine readAll_append_eq_ok_iff.2 ⟨first, group ++ last, hfirst, ?_, rfl⟩
  rw [List.nil_append]
  exact readAll_append_eq_ok_iff.2
    ⟨group, last, readAll_of_holdsEvent hsingles hgroup', hlater, rfl⟩

end Reading

/-! ## Replays after one another -/

theorem run_eq (files : Files.Source) (input : Files.Content) (minimal : Bool) (handler : Handler)
    (holder : Holder) (paths : List String) :
    run files input minimal handler holder paths = (readAll files input paths).map fun rs =>
      (serveAs minimal handler holder rs).counted rs.length := by
  rw [run]
  cases readAll files input paths <;> rfl

/-- A replay of two lists of usable paths is the replay of the first and then of the second, from
what the first leaves of the handler, its holder and what is typed in; only the number of events is
reported in two parts then. A path with a list of events, none of which is a list itself, may be
replaced by files with one of them each, without any difference. -/
theorem run_in_parts (files : Files.Source) (input : Files.Content) (minimal : Bool)
    (handler : Handler) (holder : Holder) :
    (∀ paths paths' : List String, Usable files input (paths ++ paths') →
      ∃ first second whole,
        run files input minimal handler holder paths = .ok first ∧
        run files (inputAfter input paths) minimal first.handler first.holder paths' = .ok second ∧
        run files input minimal handler holder (paths ++ paths') = .ok whole ∧
        whole.SameButCounts (first.andThen second)) ∧
    ∀ (earlier later singles : List String) (path : String) (events : List Json.Value),
      Usable files input (earlier ++ path :: later) →
      Holds files input earlier path (.list events) →
      List.Forall₂ (HoldsEvent files) singles events →
      ∃ whole, run files input minimal handler holder (earlier ++ path :: later) = .ok whole ∧
        run files input minimal handler holder (earlier ++ (singles ++ later)) = .ok whole := by
  constructor
  · intro paths paths' husable
    rcases usable_iff.1 husable with ⟨rs, hrs⟩
    have hinput : readAll files (inputAfter input []) (paths ++ paths') = .ok rs := hrs
    rcases readAll_append_eq_ok_iff.1 hinput with ⟨group, others, hgroup, hothers, rfl⟩
    -- both runs without the reports of how many events there are
    let first := serveAs minimal handler holder group
    let second := serveAs minimal first.handler first.holder others
    refine ⟨first.counted group.length, second.counted others.length,
      (first.andThen second).counted (group.length + others.length), ?_, ?_, ?_,
      sameButCounts_counted first second _ _⟩
    · have hgroup' : readAll files input paths = .ok group := hgroup
      rw [run_eq, hgroup']
      rfl
    · have hothers' : readAll files (inputAfter input paths) paths' = .ok others := hothers
      rw [run_eq, hothers']
      rfl
    · rw [run_eq, hrs, Except.map, serveAs_append, List.length_append]
  · intro earlier later singles path events husable hpath hsingles
    rcases usable_iff.1 husable with ⟨rs, hrs⟩
    refine ⟨(serveAs minimal handler holder rs).counted rs.length, ?_, ?_⟩
    · rw [run_eq, hrs]
      rfl
    · rw [run_eq, readAll_spread hrs hpath hsingles]
      rfl

/-- Files with a list of two events, and with these events one by one. -/
def spread : Files.Source := fun path =>
  if path = "list" then .ok (Text.bytes "[\x7b\"field1\":\"Hi\"\x7d,\x7b\x7d]")
  else if path = "first" then .ok (Text.bytes "\x7b\"field1\":\"Hi\"\x7d")
  else if path = "second" then .ok (Text.bytes "\x7b\x7d")
  else .error .notFound

/-- The list of events, one that is typed in, and the events of the list one by one. -/
theorem run_in_parts_spread :
    ∃ first second whole,
      run spread (Text.bytes "\x7b\x7d") false (.cold .overwrite) .default ["list"] = .ok first ∧
      run spread (Text.bytes "\x7b\x7d") false first.handler first.holder ["-"] = .ok second ∧
      run spread (Text.bytes "\x7b\x7d") false (.cold .overwrite) .default ["list", "-"]
        = .ok whole ∧
      whole.SameButCounts (first.andThen second) ∧ whole.responses = [⟨"Hi"⟩, ⟨"Hi"⟩, ⟨"Hi"⟩] ∧
      run spread (Text.bytes "\x7b\x7d") false (.cold .overwrite) .default
        ["first", "second", "-"] = .ok whole := by
  have husable : Usable spread (Text.bytes "\x7b\x7d") ["list", "-"] :=
    usable_iff.2 ⟨[⟨some "Hi", none, none⟩, Request.empty, Request.empty], rfl⟩
  have hlist : Holds spread (Text.bytes "\x7b\x7d") [] "list"
      (.list [.object [("field1", .text "Hi")], .object []]) :=
    ⟨_, _, rfl, Text.ofBytes?_bytes _, rfl⟩
  have hsingles : List.Forall₂ (HoldsEvent spread) ["first", "second"]
      [.object [("field1", .text "Hi")], .object []] :=
    .cons ⟨by decide, ⟨_, _, rfl, Text.ofBytes?_bytes _, rfl⟩, nofun⟩
      (.cons ⟨by decide, ⟨_, _, rfl, Text.ofBytes?_bytes _, rfl⟩, nofun⟩ .nil)
  rcases run_in_parts spread (Text.bytes "\x7b\x7d") false (.cold .overwrite) .default with
    ⟨happend, hspread⟩
  rcases happend ["list"] ["-"] husable with ⟨first, second, whole, hfirst, hsecond, hwhole, hsame⟩
  rcases hspread [] ["-"] ["first", "second"] "list" _ husable hlist hsingles with
    ⟨whole', hwhole', hone⟩
  have hresponses : (run spread (Text.bytes "\x7b\x7d") false (.cold .overwrite) .default
      ["list", "-"]).map Run.responses = .ok [⟨"Hi"⟩, ⟨"Hi"⟩, ⟨"Hi"⟩] := rfl
  have heq : whole' = whole := Except.ok.inj (hwhole'.symm.trans hwhole)
  subst heq
  refine ⟨first, second, whole', hfirst, hsecond, hwhole, hsame, ?_, hone⟩
  rw [List.singleton_append] at hwhole
  rw [hwhole] at hresponses
  exact Except.ok.inj hresponses

end Replay
end GreetingService
