import GreetingService.Text.Case

/-!
# Levels of diagnostics

A diagnostic has a level, and a threshold says up to which level diagnostics are let through. Level
names are recognised in any letter case.
-/

namespace GreetingService.Log

/-- The level of a diagnostic, the gravest first. -/
inductive Level where
  | error
  | warn
  | info
  | debug
  | trace
  deriving DecidableEq

namespace Level

/-- All levels, the gravest first. -/
def all : List Level := [.error, .warn, .info, .debug, .trace]

/-- How verbose a level is. -/
def rank : Level → Nat
  | .error => 1
  | .warn => 2
  | .info => 3
  | .debug => 4
  | .trace => 5

/-- The name of a level in capitals. -/
def name : Level → String
  | .error => "ERROR"
  | .warn => "WARN"
  | .info => "INFO"
  | .debug => "DEBUG"
  | .trace => "TRACE"

end Level

/-- The bound on what is let through: nothing, or everything up to a level. -/
inductive Threshold where
  | off
  | upTo (level : Level)
  deriving DecidableEq

namespace Threshold

/-- All thresholds, the least verbose first. -/
def all : List Threshold := .off :: Level.all.map .upTo

/-- How verbose a threshold is. -/
def rank : Threshold → Nat
  | .off => 0
  | .upTo level => level.rank

/-- Whether diagnostics of a level are let through. -/
def admits (threshold : Threshold) (level : Level) : Bool :=
  level.rank ≤ threshold.rank

/-- The name of a threshold in capitals. -/
def name : Threshold → String
  | .off => "OFF"
  | .upTo level => level.name

/-- The threshold of a name in any letter case. -/
def ofName? (s : String) : Option Threshold :=
  all.find? fun t => Text.sameLetters t.name s

/-- No two thresholds have the same name. -/
theorem eq_of_sameLetters : ∀ s ∈ all, ∀ t ∈ all,
    Text.lower s.name = Text.lower t.name → s = t := by
  decide +kernel

theorem mem_all (t : Threshold) : t ∈ all := by
  cases t with
  | off => decide
  | upTo level => cases level <;> decide

theorem ofName?_eq_some_iff {s : String} {t : Threshold} :
    ofName? s = some t ↔ Text.sameLetters t.name s = true := by
  rw [ofName?]
  constructor
  · intro h
    have hnamed := List.find?_some h
    exact hnamed
  · intro h
    -- some threshold is found, and it has the name of this one
    cases hfound : all.find? fun t => Text.sameLetters t.name s with
    | none => exact absurd h (List.find?_eq_none.1 hfound t t.mem_all)
    | some t' =>
        have ht' := List.find?_some hfound
        rw [Text.sameLetters, beq_iff_eq] at ht' h
        rw [eq_of_sameLetters t' t'.mem_all t t.mem_all (ht'.trans h.symm)]

/-- The more verbose of two thresholds. -/
def max (s t : Threshold) : Threshold :=
  if s.rank < t.rank then t else s

end Threshold

end GreetingService.Log
