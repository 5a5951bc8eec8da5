import GreetingService.Config.Basic
import GreetingService.Files.Volume
import GreetingService.Settings.Writer

/-!
# Loading the configuration

The built-in settings come first, then a file where one is given, then the environment. A file is
read before anything is layered, so that a file which cannot be read or is malformed is reported
whatever the environment holds.
-/

namespace GreetingService.Config

/-- The text of the built-in settings. -/
def builtInText : String :=
"# Greeter settings. The file is INI-formatted and parsed with rust-ini.

[greeting]
# Greeting returned before any request has changed it.
default_message = Hello World
# What an empty `field1` does to the greeting:
#   overwrite - the empty string replaces the greeting.
#   ignore    - an empty string is treated like an absent field.
empty_field1 = overwrite

[log]
# Default log filter for the function binaries; `RUST_LOG` takes precedence.
level = info
"

/-- Reads a text as a document. -/
def readDocument (text : String) : Except ConfigError Settings.Document :=
  (Settings.Document.parse text).mapError .malformed

/-- The configuration with texts layered over it; each is read only when it is its turn. -/
def layerTexts (c : Config) (texts : List String) : Except ConfigError Config :=
  texts.foldlM (fun c text => do c.layer (← readDocument text)) c

/-- Reads a file as a document. A mark of byte order in front does not count. -/
def readFile (files : Files.Source) (path : String) : Except ConfigError Settings.Document := do
  let content ← (files path).mapError .unreadable
  match Text.ofBytes? (Files.withoutMark content) with
  | some text => readDocument text
  | none => .error (.unreadable .notUtf8)

/-- The built-in settings. -/
def builtIn : Except ConfigError Config := do
  ofDocument (← readDocument builtInText)

/-- The configuration of the built-in settings and the environment. -/
def load (env : Environment) : Except ConfigError Config := do
  (← builtIn).override env

/-- The configuration of the built-in settings, a file and the environment. -/
def loadFile (files : Files.Source) (path : String) (env : Environment) :
    Except ConfigError Config := do
  let document ← readFile files path
  let config ← (← builtIn).layer document
  config.override env

/-- The written form of a configuration. -/
def write (c : Config) : String :=
  c.toDocument.write

end GreetingService.Config
