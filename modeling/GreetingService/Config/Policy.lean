import GreetingService.Text.Blank
import GreetingService.Text.Case

/-!
# Policy on empty texts

Whether an empty first field of a request counts as a greeting like any other, or as an absent one.
-/

namespace GreetingService

/-- What an empty first field does. -/
inductive Policy where
  | overwrite
  | ignore
  deriving DecidableEq

namespace Policy

/-- The policy where none is configured. -/
def default : Policy := .overwrite

/-- Whether a text may become the greeting. -/
def accepts (p : Policy) (message : String) : Bool :=
  match p with
  | .overwrite => true
  | .ignore => !message.isEmpty

/-- The name of a policy. -/
def name : Policy → String
  | .overwrite => "overwrite"
  | .ignore => "ignore"

/-- How a setting is compared with the names: without blanks at its ends, in lower case. -/
def normal (setting : String) : String :=
  Text.lower (Text.trimmed setting)

/-- The policy that a setting names. -/
def ofSetting? (setting : String) : Option Policy :=
  if normal setting = name .overwrite then some .overwrite
  else if normal setting = name .ignore then some .ignore
  else none

end Policy

end GreetingService
