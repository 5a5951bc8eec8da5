import GreetingService.Log.Level
import GreetingService.Text.Blank

/-!
# Filters of diagnostics

A filter is a list of directives, each with a threshold for the targets whose names start with the
directive's own name; a directive without a name is for all targets. Of the directives for a target
the one with the longest name governs. There is at most one directive of each name.

A filter is described by a text such as `warn,greeter::handler=debug`. Parts of it that mean nothing
are left out.
-/

namespace GreetingService.Log

/-- A threshold for the targets that start with a name, or for all targets. -/
structure Directive where
  name : Option String
  threshold : Threshold
  deriving DecidableEq

/-- A list of directives with different names. -/
abbrev Filter := List Directive

namespace Directive

/-- Whether the directive is for a target. -/
def covers (d : Directive) (target : String) : Bool :=
  match d.name with
  | none => true
  | some name => name.toList.isPrefixOf target.toList

/-- How specific a directive is: the length of its name in bytes, above that of no name. -/
def weight (d : Directive) : Nat :=
  match d.name with
  | none => 0
  | some name => name.utf8ByteSize + 1

end Directive

/-! ## Reading a description -/

/-- The most verbose threshold, which a bare target has. -/
def Threshold.most : Threshold := .upTo .trace

/-- The directive that one part of a description gives, if it gives one. A part is a threshold, a
target, or both with an equals sign between them. -/
def Directive.ofPart? (part : String) : Option Directive :=
  match part.splitOn "=" with
  | [only] =>
    match Threshold.ofName? only with
    | some threshold => some ⟨none, threshold⟩
    | none => some ⟨some only, .most⟩
  | [name, setting] =>
    if Text.trimmed setting = "" then some ⟨some name, .most⟩
    else (Threshold.ofName? (Text.trimmed setting)).map fun threshold => ⟨some name, threshold⟩
  | _ => none

/-- The directives of a description. What follows a slash does not concern targets; a description
with two slashes means nothing. -/
def Directive.ofDescription (description : String) : List Directive :=
  match description.splitOn "/" with
  | targets :: rest =>
    if rest.length ≤ 1 then
      ((targets.splitOn ",").map Text.trimmed).filterMap fun part =>
        if part = "" then none else Directive.ofPart? part
    else []
  | [] => []

/-! ## Filters -/

namespace Filter

/-- The filter that has one threshold for all targets. -/
def uniform (threshold : Threshold) : Filter := [⟨none, threshold⟩]

/-- The filter with one more directive, which replaces an earlier one of its name. -/
def insert (f : Filter) (d : Directive) : Filter :=
  f.filter (fun other => other.name != d.name) ++ [d]

/-- The filter refined by the directives of a description. -/
def refine (f : Filter) (description : String) : Filter :=
  (Directive.ofDescription description).foldl insert f

/-- The more specific of a directive and one that may be absent. -/
def moreSpecific (best : Option Directive) (d : Directive) : Option Directive :=
  match best with
  | none => some d
  | some b => if b.weight < d.weight then some d else some b

/-- The directive that governs a target. -/
def governing? (f : Filter) (target : String) : Option Directive :=
  (f.filter fun d => d.covers target).foldl moreSpecific none

/-- Whether diagnostics of a level are let through for a target. -/
def admits (f : Filter) (target : String) (level : Level) : Bool :=
  match f.governing? target with
  | some d => d.threshold.admits level
  | none => false

/-- The most verbose threshold in a filter. -/
def most (f : Filter) : Threshold :=
  (f.map Directive.threshold).foldl Threshold.max .off

end Filter

/-- The filter of the service: the configured threshold, refined by a description where one is
given. -/
def serviceFilter (threshold : Threshold) (description : Option String) : Filter :=
  (description.map (Filter.uniform threshold).refine).getD (.uniform threshold)

end GreetingService.Log
