import GreetingService.Config.Policy
import GreetingService.Log.Level
import GreetingService.Request
import GreetingService.Text.Quoted

/-!
# Diagnostics

What the service reports about its work. Texts from outside are quoted, so that a diagnostic stays
on one line and tells an absent field from every text.
-/

namespace GreetingService.Log

/-- A diagnostic. -/
inductive Diagnostic where
  | started (message : String) (policy : Policy)
  | invocation (requestId function : String)
  | warmth (warm : Bool)
  | field (field : Request.Field) (value : Option String)
  | emptyIgnored
  | replay (count : Nat)
  deriving DecidableEq

namespace Diagnostic

/-- The level of a diagnostic. -/
def level : Diagnostic → Level
  | .invocation _ _ => .debug
  | .emptyIgnored => .debug
  | _ => .info

/-- The part of the program that reports a diagnostic. -/
def target : Diagnostic → String
  | .started _ _ => "greeter::component"
  | .replay _ => "greeter_cli::invoke"
  | _ => "greeter::handler"

/-- The wording of a diagnostic. -/
def text : Diagnostic → String
  | .started message policy =>
    "Greeting holder starts with " ++ Text.Quoted.text message ++ ", empty field1 policy: "
      ++ policy.name
  | .invocation requestId function => "Invocation " ++ requestId ++ " of " ++ function
  | .warmth warm => "isWarm = " ++ (if warm then "true" else "false")
  | .field f value => f.name ++ " = " ++ Text.Quoted.optional value
  | .emptyIgnored => "Ignoring empty field1"
  | .replay count => "Invoking the handler with " ++ toString count ++ " event(s)."

/-- A diagnostic with the name of its level in front. -/
def summary (d : Diagnostic) : String :=
  Text.lower d.level.name ++ ": " ++ d.text

end Diagnostic

/-- The diagnostics of a request's fields, in order. -/
def ofFields (r : Request) : List Diagnostic :=
  [.field .field1 r.field1, .field .field2 r.field2, .field .field3 r.field3]

end GreetingService.Log
