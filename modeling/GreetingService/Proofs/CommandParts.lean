import GreetingService.CommandLine.Arguments
import GreetingService.Proofs.Results

/-!
# The parts of a command line

A command line that is understood has two parts, one in front of its command and one behind it. The
options used in them decide everything: whether they may stand together, and what the call is.
-/

namespace GreetingService.CommandLine

open Results

/-- The part behind a command. Behind `help` stand no options. -/
def Command.scope? : Command → Option Scope
  | .config => some .config
  | .help => none
  | .invoke => some .invoke

/-- What a command is to do with the uses behind it. -/
def Scope.task : Scope → List Use → Task
  | .invoke, uses => .invoke (eventsOf uses) (isUsed uses .minimal)
  | _, _ => .showConfig

/-- The uses in front of a command, and those behind it. -/
structure Parts where
  outer : List Use
  scope : Scope
  inner : List Use

/-- The parts that are read from a command line. -/
def HasParts (args : List String) (parts : Parts) : Prop :=
  ∃ command p q rest next, Scope.root.read .start args = .ok (p, some (command, rest)) ∧
    command.scope? = some parts.scope ∧ p.finish = .ok parts.outer ∧
    parts.scope.read .start rest = .ok (q, next) ∧ q.finish = .ok parts.inner

namespace Parts

/-- Nothing is missing from the parts, and nothing is there too often. -/
def Complete (parts : Parts) : Prop :=
  (parts.scope = .invoke → isUsed parts.inner .event = true) ∧
    checkOptions parts.inner = .ok () ∧ checkOptions parts.outer = .ok ()

/-- The call that the parts come to. -/
def call (parts : Parts) : Call :=
  ⟨parts.scope.task parts.inner, valueOf parts.outer parts.inner .config,
    levelOf parts.outer parts.inner⟩

end Parts

/-- The value of an option in one part. -/
def valueIn (uses : List Use) (o : Opt) : Option String :=
  (uses.find? fun u => u.option == o && u.value.isSome).bind Use.value

theorem valueOf_eq (outer inner : List Use) (o : Opt) :
    valueOf outer inner o = (valueIn inner o).or (valueIn outer o) :=
  rfl

/-- The parts of a command line are read in one way only. -/
theorem HasParts.unique {args : List String} {parts parts' : Parts} (h : HasParts args parts)
    (h' : HasParts args parts') : parts = parts' := by
  rcases parts with ⟨outer, scope, inner⟩
  rcases parts' with ⟨outer', scope', inner'⟩
  rcases h with ⟨command, p, q, rest, next, hread, hscope, houter, hinside, hinner⟩
  rcases h' with ⟨command', p', q', rest', next', hread', hscope', houter', hinside', hinner'⟩
  cases hread.symm.trans hread'
  cases hscope.symm.trans hscope'
  cases houter.symm.trans houter'
  cases hinside.symm.trans hinside'
  cases hinner.symm.trans hinner'
  rfl

theorem finishCall_eq_ok_iff {outer : Progress} {scope : Scope} {args : List String} {call : Call} :
    finishCall outer scope scope.task args = .ok call ↔
      ∃ (parts : Parts) (q : Progress) (next : Option (Command × List String)),
        parts.scope = scope ∧ outer.finish = .ok parts.outer ∧
          scope.read .start args = .ok (q, next) ∧ q.finish = .ok parts.inner ∧
            parts.Complete ∧ call = parts.call := by
  unfold finishCall
  constructor
  · intro h
    rcases bind_eq_ok_iff.1 h with ⟨⟨q, next⟩, hread, h⟩
    rcases bind_eq_ok_iff.1 h with ⟨inner, hinner, h⟩
    dsimp only at h
    split at h
    · cases h
    · rename_i hevents
      rcases bind_eq_ok_iff.1 h with ⟨_, hchecked, h⟩
      rcases bind_eq_ok_iff.1 h with ⟨front, hfront, h⟩
      rcases bind_eq_ok_iff.1 h with ⟨_, hchecked', h⟩
      cases h
      refine ⟨⟨front, scope, inner⟩, q, next, rfl, hfront, hread, hinner, ⟨?_, hchecked, hchecked'⟩,
        rfl⟩
      intro hscope
      by_contra hmissing
      exact hevents ⟨hscope, by simpa using hmissing⟩
  · rintro ⟨⟨front, scope, inner⟩, q, next, rfl, hfront, hread, hinner,
      ⟨hevents, hchecked, hchecked'⟩, rfl⟩
    have hnone : ¬ (scope = .invoke ∧ (!isUsed inner .event) = true) := by
      rintro ⟨hscope, hmissing⟩
      simp [hevents hscope] at hmissing
    refine bind_eq_ok_iff.2 ⟨_, hread, bind_eq_ok_iff.2 ⟨_, hinner, ?_⟩⟩
    dsimp only
    rw [if_neg hnone]
    exact bind_eq_ok_iff.2 ⟨_, hchecked, bind_eq_ok_iff.2 ⟨_, hfront,
      bind_eq_ok_iff.2 ⟨_, hchecked', rfl⟩⟩⟩

/-- A command line is understood when its parts are complete. -/
theorem parse_eq_ok_iff {args : List String} {call : Call} :
    parse args = .ok call ↔ ∃ parts, HasParts args parts ∧ parts.Complete ∧ call = parts.call := by
  unfold parse
  constructor
  · intro h
    rcases bind_eq_ok_iff.1 h with ⟨⟨p, found⟩, hread, h⟩
    have hcommand : ∀ command rest scope, found = some (command, rest) →
        command.scope? = some scope → finishCall p scope scope.task rest = .ok call →
        ∃ parts, HasParts args parts ∧ parts.Complete ∧ call = parts.call := by
      rintro command rest scope rfl hscope hcall
      rcases finishCall_eq_ok_iff.1 hcall with
        ⟨parts, q, next, rfl, houter, hinside, hinner, hcomplete, rfl⟩
      exact ⟨parts, ⟨command, p, q, rest, next, hread, hscope, houter, hinside, hinner⟩, hcomplete,
        rfl⟩
    rcases found with _ | ⟨_ | _ | _, rest⟩
    · cases h
    · exact hcommand .config rest .config rfl rfl h
    · cases h
    · exact hcommand .invoke rest .invoke rfl rfl h
  · rintro ⟨parts, ⟨command, p, q, rest, next, hread, hscope, houter, hinside, hinner⟩, hcomplete,
      rfl⟩
    have hcall : finishCall p parts.scope parts.scope.task rest = .ok parts.call :=
      finishCall_eq_ok_iff.2 ⟨parts, q, next, rfl, houter, hinside, hinner, hcomplete, rfl⟩
    refine bind_eq_ok_iff.2 ⟨_, hread, ?_⟩
    cases command with
    | config =>
        cases hscope' : parts.scope <;> rw [hscope'] at hscope hcall <;> cases hscope
        exact hcall
    | help => cases hscope
    | invoke =>
        cases hscope' : parts.scope <;> rw [hscope'] at hscope hcall <;> cases hscope
        exact hcall

end GreetingService.CommandLine
