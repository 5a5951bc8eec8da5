import GreetingService.Log.Diagnostic

/-!
# Lines of diagnostics

How the command line shows diagnostics: briefly with the level alone, or in full with the time and
the part of the program.
-/

namespace GreetingService.Log

/-- The two ways to show diagnostics. -/
inductive Layout where
  | brief
  | full
  deriving DecidableEq

/-- At the most verbose threshold diagnostics are shown in full. -/
def Layout.ofThreshold (t : Threshold) : Layout :=
  if t = .upTo .trace then .full else .brief

/-- A name filled with blanks to the length of the longest level name. -/
def padded (name : String) : String :=
  String.ofList (name.toList.rightpad 5 ' ')

/-- The line of a diagnostic that is shown at the given time. -/
def Layout.line (layout : Layout) (time : String) (d : Diagnostic) : String :=
  match layout with
  | .brief => "[" ++ Text.lower d.level.name ++ "] " ++ d.text
  | .full =>
    "[" ++ time ++ " " ++ padded d.level.name ++ " " ++ d.target ++ "] " ++ d.text

end GreetingService.Log
