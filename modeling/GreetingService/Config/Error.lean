import GreetingService.Config.Policy
import GreetingService.Files.Failure
import GreetingService.Settings.Reader

/-!
# Errors of the configuration

A configuration cannot be had when a file cannot be read, when its text is no settings document, or
when a setting has a value that means nothing.
-/

namespace GreetingService

/-- A setting with a value that means nothing. -/
inductive InvalidSetting where
  | policy (setting : String)
  | level (setting : String)
  | other (text : String)
  deriving DecidableEq

/-- The wording of an invalid setting. A policy is shown as it was compared, a level as it was
given. -/
def InvalidSetting.message : InvalidSetting → String
  | .policy setting =>
    "unknown empty_field1 policy `" ++ Policy.normal setting
      ++ "`, expected `overwrite` or `ignore`"
  | .level setting => "unknown log level `" ++ setting ++ "`"
  | .other text => text

/-- The reasons why there is no configuration. -/
inductive ConfigError where
  | unreadable (failure : Files.Failure)
  | malformed (error : Settings.SyntaxError)
  | invalid (setting : InvalidSetting)

/-- The wording of a reason. -/
def ConfigError.message : ConfigError → String
  | .unreadable failure => "IO error: " ++ failure.message
  | .malformed error => "INI error: " ++ error.message
  | .invalid setting => "Configuration error: " ++ setting.message

end GreetingService
