import GreetingService.CommandLine.Arguments
import GreetingService.Proofs.Results
import Mathlib.Tactic

/-!
# Options as they are written

An option can be written by its letter or by its name, and its value behind it or attached to the
name with an equals sign. Each use of an option is read as it is written, whatever comes behind it:
a value may look like a command, and an attached one like an option.
-/

namespace GreetingService.CommandLine

open Results

/-! ## Options and how they are written -/

/-- A value that can stand as an argument of its own: a dash may only stand in front of nothing. -/
def IsSeparate (value : String) : Prop :=
  value ≠ "" ∧ (value.toList.head? = some '-' → value = "-")

/-- The arguments that write a use of an option. -/
inductive Writes : Use → List String → Prop where
  | letter {o : Opt} {c : Char} :
      o.value? = none → o.short? = some c → Writes ⟨o, none⟩ [String.ofList ['-', c]]
  | name {o : Opt} :
      o.value? = none → Writes ⟨o, none⟩ ["--" ++ o.long]
  | letterValue {o : Opt} {c : Char} {value : String} :
      o.value?.isSome → o.short? = some c → IsSeparate value →
        Writes ⟨o, some value⟩ [String.ofList ['-', c], value]
  | nameValue {o : Opt} {value : String} :
      o.value?.isSome → IsSeparate value → Writes ⟨o, some value⟩ ["--" ++ o.long, value]
  | attached {o : Opt} {value : String} :
      o.value?.isSome → value ≠ "" → Writes ⟨o, some value⟩ ["--" ++ o.long ++ "=" ++ value]

/-- The arguments that write uses one after another. -/
inductive WritesAll : List Use → List String → Prop where
  | nil : WritesAll [] []
  | cons {u : Use} {us : List Use} {args rest : List String} :
      Writes u args → WritesAll us rest → WritesAll (u :: us) (args ++ rest)

/-- The options on the configuration and on diagnostics may stand in each part; those on events only
behind `invoke`. -/
def Scope.Admits : Scope → Opt → Prop
  | _, .config | _, .logLevel | _, .silent | _, .trace => True
  | .invoke, .event | .invoke, .minimal => True
  | _, _ => False

/-! ## Arguments -/

theorem Scope.ofLong?_long {s : Scope} {o : Opt} (h : s.Admits o) : s.ofLong? o.long = some o := by
  cases s <;> cases o <;> first | rfl | exact h.elim

theorem Scope.ofShort?_short {s : Scope} {o : Opt} {c : Char} (h : s.Admits o)
    (hc : o.short? = some c) : s.ofShort? c = some o := by
  cases o <;> cases hc <;> cases s <;> first | rfl | exact h.elim

theorem Argument.ofText_name (o : Opt) : ofText ("--" ++ o.long) = .long o.long none := by
  cases o <;> decide +kernel

theorem Argument.ofText_letter {o : Opt} {c : Char} (hc : o.short? = some c) :
    ofText (String.ofList ['-', c]) = .letters [c] := by
  cases o <;> cases hc <;> rfl

theorem Argument.splitValue_append {name : List Char} (h : '=' ∉ name) (value : List Char) :
    splitValue (name ++ '=' :: value)
      = .long (String.ofList name) (some (String.ofList value)) := by
  have hname : ∀ c ∈ name, (c != '=') = true := by
    intro c hc
    rw [bne_iff_ne]
    rintro rfl
    exact h hc
  rw [splitValue, List.takeWhile_append_of_pos hname, List.dropWhile_append_of_pos hname]
  simp

theorem Opt.notMem_long (o : Opt) : '=' ∉ o.long.toList := by
  cases o <;> decide +kernel

theorem Argument.ofText_dashes {arg : String} {rest : List Char}
    (h : arg.toList = '-' :: '-' :: rest) (hrest : rest ≠ []) : ofText arg = splitValue rest := by
  cases rest with
  | nil => exact absurd rfl hrest
  | cons c rest =>
      rw [ofText, h]
      rfl

theorem Argument.ofText_attached (o : Opt) (value : String) :
    ofText ("--" ++ o.long ++ "=" ++ value) = .long o.long (some value) := by
  have hchars : ("--" ++ o.long ++ "=" ++ value).toList
      = '-' :: '-' :: (o.long.toList ++ '=' :: value.toList) := by
    simp
  rw [ofText_dashes hchars (by simp), splitValue_append o.notMem_long, String.ofList_toList,
    String.ofList_toList]

theorem Argument.ofText_separate {value : String} (h : IsSeparate value) :
    ofText value = .other := by
  by_cases hdash : value.toList.head? = some '-'
  · rw [h.2 hdash]
    rfl
  · -- neither of the first two forms is one of a text that starts otherwise
    rw [ofText]
    split
    · rename_i heq
      simp [heq] at hdash
    · rename_i heq
      simp [heq] at hdash
    · rename_i heq
      simp [heq] at hdash
    · rfl

theorem Scope.command?_eq_none {s : Scope} {arg : String} (h : arg.toList.head? = some '-') :
    s.command? arg = none := by
  rw [command?]
  split
  · rw [Command.ofName?, List.find?_eq_none]
    intro c _ hc
    rw [beq_iff_eq] at hc
    rw [← hc] at h
    cases c <;> exact absurd h (by decide +kernel)
  · rfl

/-! ## Reading what is written -/

/-- What has been read so far gives the uses, and no option waits for its value. -/
structure Progress.Gives (p : Progress) (uses : List Use) : Prop where
  settle : p.settle = .ok ⟨uses, none, false⟩
  awaiting : p.awaiting? = none

theorem Progress.Gives.of_settled (uses : List Use) : Gives ⟨uses, none, false⟩ uses :=
  ⟨rfl, rfl⟩

theorem Progress.Gives.of_pending {uses : List Use} {u : Use} (hvalue : u.value.isSome)
    (hcheck : u.check = .ok ()) : Gives ⟨uses, some u, false⟩ (uses ++ [u]) := by
  rcases u with ⟨o, _ | value⟩
  · cases hvalue
  · refine ⟨?_, rfl⟩
    simp only [Progress.settle, hcheck, bind, Except.bind]
    rfl

theorem Progress.Gives.plain {p : Progress} {uses : List Use} (h : p.Gives uses) :
    p.plain = false := by
  rcases p with ⟨us, _ | u, plain⟩
  · have hsettle := h.settle
    cases hsettle
    rfl
  · rcases bind_eq_ok_iff.1 h.settle with ⟨_, _, hpure⟩
    cases hpure
    rfl

theorem Progress.Gives.finish {p : Progress} {uses : List Use} (h : p.Gives uses) :
    p.finish = .ok uses := by
  simp only [Progress.finish, h.settle, h.awaiting, bind, Except.bind]
  rfl

namespace Scope

variable {s : Scope} {p : Progress} {uses : List Use} {o : Opt}

theorem read_cons {arg : String} (h : p.awaiting?.isSome ∨ s.command? arg = none)
    (rest : List String) :
    s.read p (arg :: rest) = s.take p arg >>= fun p => s.read p rest := by
  have hcommand : (if p.plain ∨ p.awaiting?.isSome then none else s.command? arg) = none := by
    rcases h with hawaiting | hnone
    · rw [if_pos (.inr hawaiting)]
    · rw [hnone, ite_self]
  rw [read, hcommand]

theorem takeFlag_eq (hp : p.Gives uses) (h : s.Admits o) :
    s.takeFlag p o = .ok ⟨uses ++ [⟨o, none⟩], none, false⟩ := by
  simp only [takeFlag, hp.settle, bind, Except.bind]
  cases o with
  | help => cases s <;> exact h.elim
  | version => cases s <;> exact h.elim
  | _ => rfl

theorem await_eq (hp : p.Gives uses) : p.await o = .ok ⟨uses, some ⟨o, none⟩, false⟩ := by
  simp only [Progress.await, hp.settle, bind, Except.bind]
  rfl

theorem takeLong_flag (hp : p.Gives uses) (h : s.Admits o) (ho : o.value? = none) :
    s.takeLong p o.long none = .ok ⟨uses ++ [⟨o, none⟩], none, false⟩ := by
  simp only [takeLong, ofLong?_long h, ho]
  exact takeFlag_eq hp h

theorem takeLong_await (hp : p.Gives uses) (h : s.Admits o) (ho : o.value?.isSome) :
    s.takeLong p o.long none = .ok ⟨uses, some ⟨o, none⟩, false⟩ := by
  rcases Option.isSome_iff_exists.1 ho with ⟨kind, hkind⟩
  simp only [takeLong, ofLong?_long h, hkind]
  exact await_eq hp

theorem takeLong_attached {value : String} (hp : p.Gives uses) (h : s.Admits o)
    (ho : o.value?.isSome) (hcheck : Use.check ⟨o, some value⟩ = .ok ()) :
    s.takeLong p o.long (some value) = .ok ⟨uses ++ [⟨o, some value⟩], none, false⟩ := by
  rcases Option.isSome_iff_exists.1 ho with ⟨kind, hkind⟩
  simp only [takeLong, ofLong?_long h, hkind, Progress.takeUse, hp.settle, hcheck, bind,
    Except.bind]
  rfl

theorem takeLetters_flag {c : Char} (hp : p.Gives uses) (h : s.Admits o)
    (hc : o.short? = some c) (ho : o.value? = none) :
    s.takeLetters p [c] = .ok ⟨uses ++ [⟨o, none⟩], none, false⟩ := by
  simp only [takeLetters, ofShort?_short h hc, ho, Option.isNone_none, if_true, takeFlag_eq hp h,
    bind, Except.bind]

theorem takeLetters_await {c : Char} (hp : p.Gives uses) (h : s.Admits o)
    (hc : o.short? = some c) (ho : o.value?.isSome) :
    s.takeLetters p [c] = .ok ⟨uses, some ⟨o, none⟩, false⟩ := by
  rcases Option.isSome_iff_exists.1 ho with ⟨kind, hkind⟩
  simp only [takeLetters, ofShort?_short h hc, hkind, Option.isNone_some, Bool.false_eq_true,
    if_false, List.isEmpty_nil, if_true]
  exact await_eq hp

/-- The value of an option that waits for one. -/
theorem read_value {value : String} (hvalue : IsSeparate value) (rest : List String) :
    s.read ⟨uses, some ⟨o, none⟩, false⟩ (value :: rest)
      = s.read ⟨uses, some ⟨o, some value⟩, false⟩ rest := by
  have hawaiting : (Progress.awaiting? ⟨uses, some ⟨o, none⟩, false⟩) = some o := rfl
  rw [read_cons (.inl (by rw [hawaiting]; rfl)), take, Argument.ofText_separate hvalue]
  rfl

end Scope

/-- A use is read as it is written, whatever follows. -/
theorem Writes.read {s : Scope} {p : Progress} {uses : List Use} {u : Use} {args : List String}
    (h : Writes u args) (hp : p.Gives uses) (hadmits : s.Admits u.option)
    (hcheck : u.check = .ok ()) :
    ∃ p', p'.Gives (uses ++ [u]) ∧ ∀ rest, s.read p (args ++ rest) = s.read p' rest := by
  -- every form starts with a dash, so that its first argument is not taken for a command
  have hfirst : ∀ {arg : String} {p' : Progress} (rest : List String),
      arg.toList.head? = some '-' → s.take p arg = .ok p' →
        s.read p (arg :: rest) = s.read p' rest := by
    intro arg p' rest hdash htake
    rw [Scope.read_cons (.inr (Scope.command?_eq_none hdash)), htake]
    rfl
  cases h with
  | letter ho hc =>
      refine ⟨_, .of_settled _, fun rest => hfirst rest (by simp) ?_⟩
      rw [Scope.take, hp.plain, Argument.ofText_letter hc]
      exact Scope.takeLetters_flag hp hadmits hc ho
  | name ho =>
      refine ⟨_, .of_settled _, fun rest => hfirst rest (by simp) ?_⟩
      rw [Scope.take, hp.plain, Argument.ofText_name]
      exact Scope.takeLong_flag hp hadmits ho
  | letterValue ho hc hvalue =>
      -- the option waits, and its value settles it when the next argument comes
      refine ⟨_, .of_pending rfl hcheck, fun rest => ?_⟩
      rw [List.cons_append, List.singleton_append, ← Scope.read_value hvalue]
      refine hfirst _ (by simp) ?_
      rw [Scope.take, hp.plain, Argument.ofText_letter hc]
      exact Scope.takeLetters_await hp hadmits hc ho
  | nameValue ho hvalue =>
      refine ⟨_, .of_pending rfl hcheck, fun rest => ?_⟩
      rw [List.cons_append, List.singleton_append, ← Scope.read_value hvalue]
      refine hfirst _ (by simp) ?_
      rw [Scope.take, hp.plain, Argument.ofText_name]
      exact Scope.takeLong_await hp hadmits ho
  | attached ho hvalue =>
      refine ⟨_, .of_settled _, fun rest => hfirst rest (by simp) ?_⟩
      rw [Scope.take, hp.plain, Argument.ofText_attached]
      exact Scope.takeLong_attached hp hadmits ho hcheck

theorem WritesAll.read {s : Scope} {p : Progress} {before uses : List Use} {args : List String}
    (h : WritesAll uses args) (hp : p.Gives before) (hadmits : ∀ u ∈ uses, s.Admits u.option)
    (hcheck : ∀ u ∈ uses, u.check = .ok ()) :
    ∃ p', p'.Gives (before ++ uses) ∧ ∀ rest, s.read p (args ++ rest) = s.read p' rest := by
  -- on what is written, with the uses before it as what has been read so far
  induction h generalizing p before with
  | nil =>
      rw [List.append_nil]
      exact ⟨p, hp, fun rest => rfl⟩
  | @cons u us args rest hu _ ih =>
      rw [List.forall_mem_cons] at hadmits hcheck
      rcases hu.read hp hadmits.1 hcheck.1 with ⟨mid, hmid, hread⟩
      rcases ih hmid hadmits.2 hcheck.2 with ⟨p', hp', hreads⟩
      refine ⟨p', by rwa [List.append_cons], fun more => ?_⟩
      rw [List.append_assoc, hread, hreads]

theorem Writes.isSome_value {u : Use} {args : List String} (h : Writes u args) :
    u.value.isSome = u.option.value?.isSome := by
  cases h with
  | letter ho _ => rw [ho]
  | name ho => rw [ho]
  | letterValue ho _ _ => exact ho.symm
  | nameValue ho _ => exact ho.symm
  | attached ho _ => exact ho.symm

theorem WritesAll.isSome_value {uses : List Use} {args : List String} (h : WritesAll uses args) :
    ∀ u ∈ uses, u.value.isSome = u.option.value?.isSome := by
  induction h with
  | nil => simp
  | cons hu _ ih => exact List.forall_mem_cons.2 ⟨hu.isSome_value, ih⟩

end GreetingService.CommandLine
