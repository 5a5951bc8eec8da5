import GreetingService.Config.Error
import GreetingService.Log.Level
import GreetingService.Settings.Document

/-!
# Configuration

The settings of the service: the first greeting, the policy on empty texts, and the threshold of
its diagnostics. A configuration is built up in layers, each of which replaces the settings that it
defines and leaves the others alone. The environment is the last layer, and defines the first two
settings at most. Every value that a layer defines has to be valid, even if a later layer replaces
it.
-/

namespace GreetingService

/-- A configuration. -/
@[ext]
structure Config where
  defaultMessage : String
  emptyField1 : Policy
  logLevel : Log.Threshold
  deriving DecidableEq

/-- The greeting where none is configured. -/
def helloWorld : String := "Hello World"

/-- Finds the value of an environment variable. -/
abbrev Environment := String → Option String

namespace Config

/-- The configuration before any layer. -/
def default : Config := ⟨helloWorld, Policy.default, .upTo .info⟩

/-! ## Names of settings -/

/-- The section of the greeting's settings. -/
abbrev greetingSection : String := "greeting"

/-- The section of the diagnostics' settings. -/
abbrev logSection : String := "log"

/-- The key of the first greeting. -/
abbrev messageKey : String := "default_message"

/-- The key of the policy. -/
abbrev policyKey : String := "empty_field1"

/-- The key of the threshold. -/
abbrev levelKey : String := "level"

/-- The environment variable of the first greeting. -/
abbrev messageVariable : String := "GREETER_DEFAULT_MESSAGE"

/-- The environment variable of the policy. -/
abbrev policyVariable : String := "GREETER_EMPTY_FIELD1"

/-! ## Single settings -/

/-- The policy after a setting that may be absent. -/
def policyAfter (before : Policy) : Option String → Except ConfigError Policy
  | none => .ok before
  | some setting =>
    match Policy.ofSetting? setting with
    | some policy => .ok policy
    | none => .error (.invalid (.policy setting))

/-- The threshold after a setting that may be absent. -/
def levelAfter (before : Log.Threshold) : Option String → Except ConfigError Log.Threshold
  | none => .ok before
  | some setting =>
    match Log.Threshold.ofName? (Text.trimmed setting) with
    | some level => .ok level
    | none => .error (.invalid (.level setting))

/-! ## Layers -/

/-- The configuration with a document layered over it. -/
def layer (c : Config) (d : Settings.Document) : Except ConfigError Config := do
  let message := (d.get? greetingSection messageKey).getD c.defaultMessage
  let policy ← policyAfter c.emptyField1 (d.get? greetingSection policyKey)
  let level ← levelAfter c.logLevel (d.get? logSection levelKey)
  return ⟨message, policy, level⟩

/-- The configuration with the environment layered over it. -/
def override (c : Config) (env : Environment) : Except ConfigError Config := do
  let message := (env messageVariable).getD c.defaultMessage
  let policy ← policyAfter c.emptyField1 (env policyVariable)
  return ⟨message, policy, c.logLevel⟩

/-- The configuration that a document describes by itself. -/
def ofDocument (d : Settings.Document) : Except ConfigError Config :=
  default.layer d

/-- The document that defines every setting of the configuration. -/
def toDocument (c : Config) : Settings.Document :=
  [⟨some greetingSection, [⟨messageKey, c.defaultMessage⟩, ⟨policyKey, c.emptyField1.name⟩]⟩,
    ⟨some logSection, [⟨levelKey, Text.lower c.logLevel.name⟩]⟩]

end Config

end GreetingService
