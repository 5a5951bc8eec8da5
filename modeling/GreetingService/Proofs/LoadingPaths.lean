import GreetingService.Proofs.InvokeContract
import GreetingService.Proofs.RepeatedSections

/-!
# The ways to load a configuration

A configuration with a file is built over the built-in settings, and one of a document alone over
those that hold before any layer. Both come to the same, because the built-in text says the latter
again; its comments and empty lines do not matter. A file that cannot be read, or is malformed, is
reported whatever the environment holds, and a file that defines nothing may be left out.
-/

namespace GreetingService

open Results

namespace Settings

/-! ## Line by line -/

/-- The text of lines. -/
def ofLines (lines : List String) : String :=
  String.ofList (lines.flatMap fun line => line.toList ++ ['\n'])

/-- Whether there is anything to read in a line. -/
def isTold (line : String) : Bool :=
  line ≠ "" ∧ line.toList.head? ≠ some '#' ∧ line.toList.head? ≠ some ';'

theorem runs_comment {cs : List Char} (h : '\n' ∉ cs) (column : Nat) :
    ∃ column', Mode.comment.Runs column cs .comment column' [] := by
  induction cs generalizing column with
  | nil => exact ⟨column, .nil _ _⟩
  | cons c cs ih =>
      rw [List.mem_cons, not_or] at h
      rcases ih h.2 (nextColumn column c) with ⟨column', hruns⟩
      have hnext : ∀ line, Mode.comment.next ⟨line, nextColumn column c⟩ c
          = .ok (.comment, none) := fun _ => by rw [Mode.next, if_neg (Ne.symm h.1)]
      exact ⟨column', .cons hnext hruns⟩

/-- There is nothing in a comment or an empty line. -/
theorem read_of_not_isTold {line : String} (hbreak : '\n' ∉ line.toList) (h : isTold line = false) :
    Reader.read line.toList = .ok [] := by
  cases hline : line.toList with
  | nil => rfl
  | cons c cs =>
      have hne : line ≠ "" := by
        rintro rfl
        cases hline
      have hmark : c = '#' ∨ c = ';' := by
        by_contra hnot
        rw [not_or] at hnot
        have htold : isTold line = true := by simp [isTold, hline, hne, hnot]
        rw [h] at htold
        cases htold
      rw [hline, List.mem_cons, not_or] at hbreak
      rcases runs_comment hbreak.2 (nextColumn 0 c) with ⟨column, hruns⟩
      have hnext : ∀ line, Mode.between.next ⟨line, nextColumn 0 c⟩ c = .ok (.comment, none) := by
        rcases hmark with rfl | rfl <;> exact fun _ => rfl
      exact read_eq_ok_iff.2 ⟨.comment, column, [], none, .cons hnext hruns, rfl, rfl⟩

/-- Lines each of which is a text of settings may be read one by one. -/
theorem read_ofLines {lines : List String} {groups : List (List Item)}
    (h : List.Forall₂ (fun line items => Reader.read line.toList = .ok items) lines groups) :
    Reader.read (ofLines lines).toList = .ok groups.flatten := by
  rw [ofLines, String.toList_ofList]
  induction h with
  | nil => rfl
  | @cons line items lines groups hline _ ih =>
      have happend := read_append hline ih
      rw [List.flatMap_cons, List.append_assoc]
      exact happend

/-- Comments and empty lines may be left out. -/
theorem read_ofLines_filter {lines : List String} {groups : List (List Item)}
    (hbreak : ∀ line ∈ lines, '\n' ∉ line.toList)
    (h : List.Forall₂ (fun line items => Reader.read line.toList = .ok items)
      (lines.filter isTold) groups) :
    Reader.read (ofLines lines).toList = .ok groups.flatten := by
  -- the lines left out come back with no items each
  have hall : ∃ groups', groups'.flatten = groups.flatten ∧
      List.Forall₂ (fun line items => Reader.read line.toList = .ok items) lines groups' := by
    induction lines generalizing groups with
    | nil =>
        cases h
        exact ⟨[], rfl, .nil⟩
    | cons line lines ih =>
        rw [List.forall_mem_cons] at hbreak
        cases htold : isTold line with
        | false =>
            rw [List.filter_cons_of_neg (by simp [htold])] at h
            rcases ih hbreak.2 h with ⟨groups', hflatten, hgroups⟩
            exact ⟨[] :: groups', hflatten, .cons (read_of_not_isTold hbreak.1 htold) hgroups⟩
        | true =>
            rw [List.filter_cons_of_pos htold] at h
            cases h with
            | @cons _ items _ groups hline hrest =>
                rcases ih hbreak.2 hrest with ⟨groups', hflatten, hgroups⟩
                exact ⟨items :: groups', congrArg (items ++ ·) hflatten, .cons hline hgroups⟩
  rcases hall with ⟨groups', hflatten, hgroups⟩
  rw [← hflatten]
  exact read_ofLines hgroups

end Settings

namespace Config

open Settings

/-- The lines of the built-in settings, apart from comments and empty ones. -/
def builtInLines : List String :=
  ["[greeting]", "default_message = Hello World", "empty_field1 = overwrite", "[log]",
    "level = info"]

theorem readDocument_builtInLines {lines : List String}
    (hbreak : ∀ line ∈ lines, '\n' ∉ line.toList) (h : lines.filter isTold = builtInLines) :
    readDocument (ofLines lines) = .ok default.toDocument := by
  have hlines : List.Forall₂ (fun line items => Reader.read line.toList = .ok items)
      (lines.filter isTold) [[.header "greeting"], [.entry ⟨"default_message", "Hello World"⟩],
        [.entry ⟨"empty_field1", "overwrite"⟩], [.header "log"], [.entry ⟨"level", "info"⟩]] := by
    rw [h, builtInLines]
    exact .cons rfl (.cons rfl (.cons rfl (.cons rfl (.cons rfl .nil))))
  rw [readDocument, Document.parse, read_ofLines_filter hbreak hlines]
  rfl

/-- The built-in settings may be written with any comments. -/
theorem ofDocument_builtInLines {lines : List String}
    (hbreak : ∀ line ∈ lines, '\n' ∉ line.toList) (h : lines.filter isTold = builtInLines) :
    (readDocument (ofLines lines) >>= ofDocument) = builtIn := by
  have hdefault : ofDocument default.toDocument = .ok default := rfl
  rw [readDocument_builtInLines hbreak h, builtIn_eq]
  exact hdefault

/-- Documents come to the same over the built-in settings as over those before any layer. -/
theorem builtIn_layer (d : Document) : (builtIn >>= fun c => c.layer d) = ofDocument d := by
  rw [builtIn_eq]
  rfl

theorem loadFile_eq (files : Files.Source) (path : String) (env : Environment) :
    loadFile files path env
      = readFile files path >>= fun d => ofDocument d >>= fun c => c.override env := by
  simp only [loadFile, builtIn_eq]
  rfl

theorem load_eq (env : Environment) : load env = default.override env := by
  rw [load, builtIn_eq]
  rfl

/-- What comes of a file, of its document alone, and without it. -/
structure LoadsAlike (files : Files.Source) (path : String) (env : Environment) : Prop where
  /-- A file that cannot be read is reported. -/
  unreadable : ∀ failure, files path = .error failure →
    loadFile files path env = .error (.unreadable failure)
  /-- So is one that is no text. -/
  notText : ∀ content, files path = .ok content →
    Text.ofBytes? (Files.withoutMark content) = none →
      loadFile files path env = .error (.unreadable .notUtf8)
  /-- So is one whose text is no document. -/
  malformed : ∀ content text e, files path = .ok content →
    Text.ofBytes? (Files.withoutMark content) = some text → Document.parse text = .error e →
      loadFile files path env = .error (.malformed e)
  /-- Any other file comes to what its document and the environment come to. -/
  alone : ∀ d, FileHolds files path d →
    loadFile files path env = ofDocument d >>= fun c => c.override env
  /-- It may be left out if it defines nothing. -/
  idle : ∀ d, FileHolds files path d → Definitions.inDocument d = ⟨none, none, none⟩ →
    loadFile files path env = load env

/-- A configuration with a file is what its document and the environment come to by themselves, and
the same as without the file if that defines nothing. A file that cannot be read or is malformed is
reported whatever the environment holds. The reason is that the built-in settings, whatever their
comments are, are the same layer as none. -/
theorem loading_paths_agree (files : Files.Source) (path : String) (env : Environment) :
    LoadsAlike files path env ∧
    (∀ d, (builtIn >>= fun c => c.layer d) = ofDocument d) ∧
    ∀ lines : List String, (∀ line ∈ lines, '\n' ∉ line.toList) →
      lines.filter isTold = builtInLines → (readDocument (ofLines lines) >>= ofDocument) = builtIn := by
  have hholds : ∀ d, FileHolds files path d →
      loadFile files path env = ofDocument d >>= fun c => c.override env := by
    intro d hd
    rw [loadFile_eq, readFile_eq_ok_iff.2 hd]
    rfl
  refine ⟨?_, builtIn_layer, fun lines hbreak h => ofDocument_builtInLines hbreak h⟩
  exact {
    unreadable := by
      intro failure h
      rw [loadFile_eq, readFile, h]
      rfl
    notText := by
      intro content h htext
      simp only [loadFile_eq, readFile, h, Except.mapError, bind, Except.bind, htext]
    malformed := by
      intro content text e h htext herror
      simp only [loadFile_eq, readFile, h, Except.mapError, bind, Except.bind, htext,
        readDocument, herror]
    alone := hholds
    idle := by
      intro d hd hnothing
      -- a layer that defines nothing leaves the defaults, which are all that there is without it
      have hdefault : ofDocument d = .ok default := by
        rw [ofDocument, layer_eq_define, hnothing]
        rfl
      rw [hholds d hd, hdefault, load_eq]
      rfl }

/-- A file that defines nothing, and one that is malformed. -/
def idleFiles : Files.Source := fun path =>
  if path = "idle" then .ok (Text.bytes "level = loud\n[log]\n")
  else if path = "malformed" then .ok (Text.bytes "[log")
  else .error .notFound

/-- An environment with a policy that is none. -/
def badEnvironment : Environment := fun name => if name = policyVariable then some "never" else none

/-- The environment is complained about only where the file is all right. -/
theorem loading_paths_agree_bad_environment :
    loadFile idleFiles "missing" badEnvironment = .error (.unreadable .notFound) ∧
      (∃ e, loadFile idleFiles "malformed" badEnvironment = .error (.malformed e)) ∧
      loadFile idleFiles "idle" badEnvironment = load badEnvironment ∧
      load badEnvironment = .error (.invalid (.policy "never")) ∧
      (readDocument (ofLines ["[greeting]", "default_message = Hello World", "; [log]", "",
        "empty_field1 = overwrite", "[log]", "level = info", "# level = debug"]) >>= ofDocument)
        = builtIn := by
  rcases loading_paths_agree idleFiles "missing" badEnvironment with ⟨hmissing, _, hlines⟩
  rcases loading_paths_agree idleFiles "malformed" badEnvironment with ⟨hmalformed, _, _⟩
  rcases loading_paths_agree idleFiles "idle" badEnvironment with ⟨hidle, _, _⟩
  have hbroken : Text.ofBytes? (Files.withoutMark (Text.bytes "[log")) = some "[log" :=
    Text.ofBytes?_bytes "[log"
  have hnothing : Text.ofBytes? (Files.withoutMark (Text.bytes "level = loud\n[log]\n"))
      = some "level = loud\n[log]\n" := Text.ofBytes?_bytes "level = loud\n[log]\n"
  have hholds : FileHolds idleFiles "idle" [⟨none, [⟨"level", "loud"⟩]⟩, ⟨some "log", []⟩] :=
    ⟨_, _, rfl, hnothing, rfl⟩
  refine ⟨hmissing.unreadable _ rfl, ⟨_, hmalformed.malformed _ _ _ rfl hbroken rfl⟩,
    hidle.idle _ hholds rfl, ?_, hlines _ (by decide) rfl⟩
  rw [load_eq]
  rfl

end Config
end GreetingService
