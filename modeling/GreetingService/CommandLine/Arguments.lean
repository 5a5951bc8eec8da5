import GreetingService.CommandLine.UsageError
import GreetingService.Log.Level
import GreetingService.Text.Similarity

/-!
# Reading the command line

The arguments are read from the left. Those up to the command belong to the program, the others to
the command. Each part is read to its end before it is checked as a whole, and the command's part is
checked first. An option that takes a value has it either attached or as the next argument, unless
that one is an option itself; what a value has to be is checked when the next option is met or the
part ends.
-/

namespace GreetingService.CommandLine

/-- A use of an option; one that takes a value may have been left without. -/
structure Use where
  option : Opt
  value : Option String
  deriving DecidableEq

/-- What has been read of a part: the uses in order, the last use as long as it is not settled, and
whether `--` has been met, after which there are no options. -/
structure Progress where
  uses : List Use
  pending : Option Use
  plain : Bool

/-- What is to be done. -/
inductive Task where
  | invoke (events : List String) (minimal : Bool)
  | showConfig
  deriving DecidableEq

/-- A command line that was understood. -/
structure Call where
  task : Task
  configFile : Option String
  level : Option Log.Threshold
  deriving DecidableEq

namespace Use

/-- Checks the value of a use. -/
def check (u : Use) : Except UsageError Unit :=
  match u.option, u.value with
  | .logLevel, some value =>
    if (Log.Threshold.ofName? value).isSome then .ok () else .error (.invalidLevel value)
  | _, _ => .ok ()

end Use

namespace Progress

/-- Nothing has been read yet. -/
def start : Progress := ⟨[], none, false⟩

/-- The option that waits for its value. -/
def awaiting? (p : Progress) : Option Opt :=
  match p.pending with
  | some ⟨option, none⟩ => some option
  | _ => none

/-- Settles the last use. -/
def settle (p : Progress) : Except UsageError Progress :=
  match p.pending with
  | none => .ok p
  | some use => do
    use.check
    return { p with uses := p.uses ++ [use], pending := none }

/-- Takes an option together with its value, or one without value. -/
def takeUse (p : Progress) (use : Use) : Except UsageError Progress := do
  let p ← p.settle
  use.check
  return { p with uses := p.uses ++ [use] }

/-- Takes an option whose value has to follow. -/
def await (p : Progress) (option : Opt) : Except UsageError Progress := do
  let p ← p.settle
  return { p with pending := some ⟨option, none⟩ }

end Progress

namespace Scope

/-- What the help screen of a part is about. -/
def topic : Scope → Topic
  | .root => .program
  | .invoke => .command .invoke
  | .config => .command .config

/-- Takes an option without value. -/
def takeFlag (s : Scope) (p : Progress) (option : Opt) : Except UsageError Progress := do
  let p ← p.settle
  match option with
  | .help => .error (.help s.topic)
  | .version => .error .version
  | _ => return { p with uses := p.uses ++ [⟨option, none⟩] }

/-- Takes an option in its long form, perhaps with an attached value. -/
def takeLong (s : Scope) (p : Progress) (name : String) (value : Option String) :
    Except UsageError Progress :=
  match s.ofLong? name with
  | none => .error (.unknownArgument ("--" ++ name))
  | some option =>
    match option.value?, value with
    | none, none => s.takeFlag p option
    | none, some value => .error (.unexpectedValue value option)
    | some _, some value => p.takeUse ⟨option, some value⟩
    | some _, none => p.await option

/-- An attached value without the equals sign in front of it. -/
def attached : List Char → String
  | '=' :: value => String.ofList value
  | value => String.ofList value

/-- Takes the letters of an argument; what follows the letter of an option that takes a value is
that value. -/
def takeLetters (s : Scope) (p : Progress) : List Char → Except UsageError Progress
  | [] => .ok p
  | letter :: rest =>
    match s.ofShort? letter with
    | none => .error (.unknownArgument ("-" ++ String.singleton letter))
    | some option =>
      if option.value?.isNone then do
        let p ← s.takeFlag p option
        s.takeLetters p rest
      else if rest.isEmpty then p.await option
      else p.takeUse ⟨option, some (attached rest)⟩

/-- The command that an argument names in this part. -/
def command? (s : Scope) (arg : String) : Option Command :=
  if s = .root then Command.ofName? arg else none

/-- The refusal of an argument that is neither an option nor a value nor a command. -/
def refuse (s : Scope) (p : Progress) (arg : String) : UsageError :=
  if p.plain ∧ (s.command? arg).isSome then .unknownArgument arg
  else if s = .root ∧ Command.all.any fun c => Text.looksLike arg c.name then .similarCommand arg
  else .unknownArgument arg

end Scope

/-- Looks for the topic of help that the arguments name. -/
def helpOn (topic : Topic) : List String → UsageError
  | [] => .help topic
  | arg :: rest =>
    match topic, Command.ofName? arg with
    | .program, some c => helpOn (.command c) rest
    | _, _ => .unknownCommand arg

/-- The kinds of arguments. -/
inductive Argument where
  | dashes
  | long (name : String) (value : Option String)
  | letters (letters : List Char)
  | other
  deriving DecidableEq

namespace Argument

/-- The name in front of the first equals sign, and the value behind it. -/
def splitValue (cs : List Char) : Argument :=
  let name := String.ofList (cs.takeWhile (· != '='))
  match cs.dropWhile (· != '=') with
  | [] => .long name none
  | _ :: value => .long name (some (String.ofList value))

/-- The kind of an argument. A single dash is an ordinary one. -/
def ofText (arg : String) : Argument :=
  match arg.toList with
  | ['-', '-'] => .dashes
  | '-' :: '-' :: rest => splitValue rest
  | '-' :: letter :: rest => .letters (letter :: rest)
  | _ => .other

end Argument

/-- Takes an argument that is neither a command nor in front of one. -/
def Scope.take (s : Scope) (p : Progress) (arg : String) : Except UsageError Progress :=
  if p.plain then .error (s.refuse p arg)
  else
    match Argument.ofText arg with
    | .dashes => .ok { p with plain := true }
    | .long name value => s.takeLong p name value
    | .letters letters => s.takeLetters p letters
    | .other =>
      match p.awaiting? with
      | some option => .ok { p with pending := some ⟨option, some arg⟩ }
      | none => .error (s.refuse p arg)

/-- Reads a part up to its end or to a command; what is left then belongs to the command. -/
def Scope.read (s : Scope) (p : Progress) :
    List String → Except UsageError (Progress × Option (Command × List String))
  | [] => .ok (p, none)
  | arg :: rest =>
    match if p.plain ∨ p.awaiting?.isSome then none else s.command? arg with
    | some command => .ok (p, some (command, rest))
    | none => do
      let p ← s.take p arg
      s.read p rest

/-! ## Checking a part -/

/-- Whether a value was given for an option. -/
def hasValue (uses : List Use) (option : Opt) : Bool :=
  uses.any fun u => u.option == option && u.value.isSome

/-- Whether an option was used. -/
def isUsed (uses : List Use) (option : Opt) : Bool :=
  uses.any fun u => u.option == option

/-- Checks the uses of an option: a value must have been given where one is taken, and most options
may be used only once. -/
def checkOption (uses : List Use) (option : Opt) : Except UsageError Unit :=
  if option.value?.isSome ∧ !hasValue uses option then .error (.missingValue option)
  else if !option.repeats ∧ 1 < uses.countP fun u => u.option == option then
    .error (.repeated option)
  else .ok ()

/-- Settles the last use of a part; an option that waits for a value at the end must have been given
one before. -/
def Progress.finish (p : Progress) : Except UsageError (List Use) := do
  let waiting := p.awaiting?
  let p ← p.settle
  match waiting with
  | some option => if hasValue p.uses option then return p.uses else throw (.missingValue option)
  | none => return p.uses

/-- Checks all options in the order of their first use. -/
def checkOptions (uses : List Use) : Except UsageError Unit :=
  uses.forM fun u => checkOption uses u.option

/-! ## The whole command line -/

/-- The value of an option behind the command, or else in front of it. -/
def valueOf (outer inner : List Use) (option : Opt) : Option String :=
  let given := fun (uses : List Use) =>
    (uses.find? fun u => u.option == option && u.value.isSome).bind Use.value
  (given inner).or (given outer)

/-- The threshold that a command line asks for. -/
def levelOf (outer inner : List Use) : Option Log.Threshold :=
  if isUsed (outer ++ inner) .trace then some (.upTo .trace)
  else if isUsed (outer ++ inner) .silent then some .off
  else (valueOf outer inner .logLevel).bind Log.Threshold.ofName?

/-- The refusal of a command line without a command. -/
def withoutCommand (outer : Progress) : UsageError :=
  match outer.finish with
  | .error e => e
  | .ok [] => .nothingGiven
  | .ok _ => .missingCommand

/-- Understands the arguments behind a command together with what stood in front of it. -/
def finishCall (outer : Progress) (scope : Scope) (task : List Use → Task) (args : List String) :
    Except UsageError Call := do
  let (inner, _) ← scope.read .start args
  let inner ← inner.finish
  if scope = .invoke ∧ !isUsed inner .event then throw .missingEvents
  checkOptions inner
  let outer ← outer.finish
  checkOptions outer
  return ⟨task inner, valueOf outer inner .config, levelOf outer inner⟩

/-- The events that the uses name, in order. -/
def eventsOf (uses : List Use) : List String :=
  uses.filterMap fun u => if u.option = .event then u.value else none

/-- Understands a command line. -/
def parse (args : List String) : Except UsageError Call := do
  let (outer, command) ← Scope.root.read .start args
  match command with
  | none => throw (withoutCommand outer)
  | some (.help, rest) => throw (helpOn .program rest)
  | some (.config, rest) => finishCall outer .config (fun _ => .showConfig) rest
  | some (.invoke, rest) =>
    finishCall outer .invoke (fun uses => .invoke (eventsOf uses) (isUsed uses .minimal)) rest

end GreetingService.CommandLine
