import GreetingService.CommandLine.Help
import GreetingService.Text.Quoted

/-!
# Refused command lines

Why a command line does not name anything to do. Asking for help or for the version is among these
reasons, since nothing else is done then.
-/

namespace GreetingService.CommandLine

/-- The reasons why nothing is done. -/
inductive UsageError where
  | help (topic : Topic)
  | version
  | nothingGiven
  | missingCommand
  | missingEvents
  | unknownArgument (shown : String)
  | unknownCommand (name : String)
  | similarCommand (name : String)
  | missingValue (option : Opt)
  | unexpectedValue (value : String) (option : Opt)
  | repeated (option : Opt)
  | invalidLevel (value : String)
  deriving DecidableEq

namespace UsageError

/-- Whether the reason is no mistake, but a wish for information. -/
def isInformation : UsageError → Bool
  | .help _ => true
  | .version => true
  | _ => false

/-- The status with which the program ends. -/
def status (e : UsageError) : Nat :=
  if e.isInformation then 0 else 2

/-- What is shown: a screen for information, and otherwise what is wrong. -/
def message : UsageError → String
  | .help topic => topic.screen
  | .version => versionLine ++ "\n"
  | .nothingGiven => Topic.program.screen
  | .missingCommand =>
    "error: '" ++ programName ++ "' requires a subcommand but one was not provided"
  | .missingEvents => "error: The following required arguments were not provided:"
  | .unknownArgument shown =>
    "error: Found argument '" ++ shown ++ "' which wasn't expected, or isn't valid in this context"
  | .unknownCommand name => "error: The subcommand '" ++ name ++ "' wasn't recognized"
  | .similarCommand name => "error: The subcommand '" ++ name ++ "' wasn't recognized"
  | .missingValue option =>
    "error: The argument '" ++ option.display ++ "' requires a value but none was supplied"
  | .unexpectedValue value option =>
    "error: The value '" ++ value ++ "' was provided to '" ++ option.display
      ++ "' but it wasn't expecting any more values"
  | .repeated option =>
    "error: The argument '" ++ option.display
      ++ "' was provided more than once, but cannot be used multiple times"
  | .invalidLevel value =>
    "error: Invalid value " ++ Text.Quoted.text value ++ " for '" ++ Opt.logLevel.display
      ++ "': unknown log level `" ++ value ++ "`"

end UsageError

end GreetingService.CommandLine
