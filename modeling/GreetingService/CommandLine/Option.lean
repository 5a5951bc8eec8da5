/-!
# Options of the command line

The commands of the program and the options each of them knows. The options on the configuration and
on diagnostics may stand in front of a command as well as behind it.
-/

namespace GreetingService.CommandLine

/-- The options. -/
inductive Opt where
  | config
  | event
  | help
  | logLevel
  | minimal
  | silent
  | trace
  | version
  deriving DecidableEq

namespace Opt

/-- The long name of an option. -/
def long : Opt → String
  | .config => "config"
  | .event => "event"
  | .help => "help"
  | .logLevel => "log-level"
  | .minimal => "minimal"
  | .silent => "silent"
  | .trace => "trace"
  | .version => "version"

/-- The letter of an option that has one. -/
def short? : Opt → Option Char
  | .config => some 'c'
  | .event => some 'e'
  | .help => some 'h'
  | .logLevel => some 'L'
  | .minimal => some 'm'
  | .silent => none
  | .trace => none
  | .version => some 'V'

/-- The kind of value that an option takes, if it takes one. -/
def value? : Opt → Option String
  | .config => some "FILE"
  | .event => some "FILE"
  | .logLevel => some "LEVEL"
  | _ => none

/-- Whether an option may be used more than once. -/
def repeats (o : Opt) : Bool :=
  o == .event

/-- How messages show an option. -/
def display (o : Opt) : String :=
  match o.value? with
  | some name => "--" ++ o.long ++ " <" ++ name ++ ">"
  | none => "--" ++ o.long

/-- What an option does. -/
def summary : Opt → String
  | .config => "Layers an INI file over the built-in settings"
  | .event => "Reads an event (or an array of events) from a JSON file, `-` for stdin"
  | .help => "Print help information"
  | .logLevel =>
    "One of off, error, warn, info, debug, trace [default: the [log] level setting]"
  | .minimal => "Invokes the minimal handler instead of the greeter handler"
  | .silent => "Same as --log-level off"
  | .trace => "Same as --log-level trace"
  | .version => "Print version information"

end Opt

/-- The part of a command line in which options stand: in front of the command, or behind one. -/
inductive Scope where
  | root
  | invoke
  | config
  deriving DecidableEq

namespace Scope

/-- The options that are known in a part, in the order of their letters. -/
def options : Scope → List Opt
  | .root => [.config, .help, .logLevel, .silent, .trace, .version]
  | .invoke => [.config, .event, .help, .logLevel, .minimal, .silent, .trace]
  | .config => [.config, .help, .logLevel, .silent, .trace]

/-- The option of a long name. -/
def ofLong? (s : Scope) (name : String) : Option Opt :=
  s.options.find? fun o => o.long == name

/-- The option of a letter. -/
def ofShort? (s : Scope) (letter : Char) : Option Opt :=
  s.options.find? fun o => o.short? == some letter

end Scope

/-- The commands. -/
inductive Command where
  | config
  | help
  | invoke
  deriving DecidableEq

namespace Command

/-- All commands, in the order of their names. -/
def all : List Command := [.config, .help, .invoke]

/-- The name of a command. -/
def name : Command → String
  | .config => "config"
  | .help => "help"
  | .invoke => "invoke"

/-- What a command does. -/
def summary : Command → String
  | .config => "Prints the effective configuration"
  | .help => "Print this message or the help of the given subcommand(s)"
  | .invoke => "Invokes the greeter function locally with JSON events"

/-- The command of a name. -/
def ofName? (name : String) : Option Command :=
  all.find? fun c => c.name == name

end Command

end GreetingService.CommandLine
