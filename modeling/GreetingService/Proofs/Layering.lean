import GreetingService.Config.Basic
import GreetingService.Proofs.Results
import Mathlib.Tactic

/-!
# Layers of settings

A configuration is built from a base, any number of documents and the environment. Each of these
sources may define some of the settings, and each setting goes its own way through them: it keeps
what the last source that defines it says, or what it was in the base. The values of policies and
thresholds have to be names, also where a later source replaces them; the first one that is no name
is reported.
-/

namespace GreetingService

open Results

/-! ## Names in settings -/

/-- A setting names a policy, the blanks at its ends and the case of its letters aside. -/
def Policy.IsNamedBy (p : Policy) (setting : String) : Prop :=
  Text.sameLetters p.name (Text.trimmed setting) = true

/-- A setting names a threshold, the blanks at its ends and the case of its letters aside. -/
def Log.Threshold.IsNamedBy (t : Log.Threshold) (setting : String) : Prop :=
  Text.sameLetters t.name (Text.trimmed setting) = true

theorem Policy.lower_name (p : Policy) : Text.lower p.name = p.name := by
  cases p <;> decide +kernel

theorem Policy.ofSetting?_eq_some_iff {setting : String} {p : Policy} :
    ofSetting? setting = some p ↔ p.IsNamedBy setting := by
  have hne : Policy.name .overwrite ≠ Policy.name .ignore := by decide
  have hnamed : ∀ q : Policy, q.IsNamedBy setting ↔ normal setting = q.name := by
    intro q
    rw [IsNamedBy, Text.sameLetters, beq_iff_eq, lower_name, eq_comm, normal]
  rw [hnamed, ofSetting?]
  cases p with
  | overwrite => grind
  | ignore => grind

theorem Log.Threshold.ofName?_trimmed_eq_some_iff {setting : String} {t : Log.Threshold} :
    ofName? (Text.trimmed setting) = some t ↔ t.IsNamedBy setting :=
  ofName?_eq_some_iff

namespace Config

/-! ## Single settings -/

/-- What becomes of a setting when a definition may follow: it stays as it was without one, and is
what the definition says otherwise. -/
def Settles {α : Type} (names : α → String → Prop) (before : α) : Option String → α → Prop
  | none, now => now = before
  | some setting, now => names now setting

/-- A greeting is taken as it stands. -/
def IsVerbatim (message setting : String) : Prop :=
  message = setting

theorem settles_message_iff {before now : String} {definition : Option String} :
    Settles IsVerbatim before definition now ↔ now = definition.getD before := by
  cases definition <;> rfl

theorem policyAfter_eq_ok_iff {before now : Policy} {definition : Option String} :
    policyAfter before definition = .ok now ↔
      Settles Policy.IsNamedBy before definition now := by
  cases definition with
  | none => rw [policyAfter, Except.ok.injEq, Settles, eq_comm]
  | some setting =>
      rw [policyAfter, Settles, ← Policy.ofSetting?_eq_some_iff]
      cases Policy.ofSetting? setting <;> simp

theorem levelAfter_eq_ok_iff {before now : Log.Threshold} {definition : Option String} :
    levelAfter before definition = .ok now ↔
      Settles Log.Threshold.IsNamedBy before definition now := by
  cases definition with
  | none => rw [levelAfter, Except.ok.injEq, Settles, eq_comm]
  | some setting =>
      rw [levelAfter, Settles, ← Log.Threshold.ofName?_trimmed_eq_some_iff]
      cases Log.Threshold.ofName? (Text.trimmed setting) <;> simp

theorem policyAfter_eq_error {before : Policy} {definition : Option String} {e : ConfigError}
    (h : policyAfter before definition = .error e) :
    ∃ setting, definition = some setting ∧ (∀ p : Policy, ¬ p.IsNamedBy setting) ∧
      e = .invalid (.policy setting) := by
  cases definition with
  | none => cases h
  | some setting =>
      rw [policyAfter] at h
      cases hpolicy : Policy.ofSetting? setting with
      | some p => simp [hpolicy] at h
      | none =>
          rw [hpolicy] at h
          refine ⟨setting, rfl, ?_, (Except.error.inj h).symm⟩
          intro p hp
          rw [← Policy.ofSetting?_eq_some_iff, hpolicy] at hp
          cases hp

theorem levelAfter_eq_error {before : Log.Threshold} {definition : Option String}
    {e : ConfigError} (h : levelAfter before definition = .error e) :
    ∃ setting, definition = some setting ∧ (∀ t : Log.Threshold, ¬ t.IsNamedBy setting) ∧
      e = .invalid (.level setting) := by
  cases definition with
  | none => cases h
  | some setting =>
      rw [levelAfter] at h
      cases hlevel : Log.Threshold.ofName? (Text.trimmed setting) with
      | some t => simp [hlevel] at h
      | none =>
          rw [hlevel] at h
          refine ⟨setting, rfl, ?_, (Except.error.inj h).symm⟩
          intro t ht
          rw [← Log.Threshold.ofName?_trimmed_eq_some_iff, hlevel] at ht
          cases ht

/-! ## Sources -/

/-- What a source of settings defines. -/
structure Definitions where
  message? : Option String
  policy? : Option String
  level? : Option String

namespace Definitions

/-- What a document defines. -/
def inDocument (d : Settings.Document) : Definitions where
  message? := d.get? greetingSection messageKey
  policy? := d.get? greetingSection policyKey
  level? := d.get? logSection levelKey

/-- What the environment defines, which has no threshold. -/
def inEnvironment (env : Environment) : Definitions where
  message? := env messageVariable
  policy? := env policyVariable
  level? := none

/-- The policy and the threshold are names, as far as they are defined. -/
def Valid (d : Definitions) : Prop :=
  (∀ setting, d.policy? = some setting → ∃ p : Policy, p.IsNamedBy setting) ∧
    ∀ setting, d.level? = some setting → ∃ t : Log.Threshold, t.IsNamedBy setting

/-- The first thing that is wrong with a source; the policy comes before the threshold. -/
inductive Complains (d : Definitions) : InvalidSetting → Prop where
  | policy {setting : String} (hdefined : d.policy? = some setting)
      (hname : ∀ p : Policy, ¬ p.IsNamedBy setting) : Complains d (.policy setting)
  | level {setting : String}
      (hpolicy : ∀ other, d.policy? = some other → ∃ p : Policy, p.IsNamedBy other)
      (hdefined : d.level? = some setting)
      (hname : ∀ t : Log.Threshold, ¬ t.IsNamedBy setting) : Complains d (.level setting)

theorem Complains.not_valid {d : Definitions} {i : InvalidSetting} (h : d.Complains i) :
    ¬ d.Valid := by
  rintro ⟨hpolicy, hlevel⟩
  cases h with
  | policy hdefined hname =>
      rcases hpolicy _ hdefined with ⟨p, hp⟩
      exact hname p hp
  | level _ hdefined hname =>
      rcases hlevel _ hdefined with ⟨t, ht⟩
      exact hname t ht

/-- The last definition of a setting among those of several sources. -/
def last (setting : Definitions → Option String) (ds : List Definitions) : Option String :=
  (ds.filterMap setting).getLast?

/-- What several sources define together. -/
def together (ds : List Definitions) : Definitions where
  message? := last message? ds
  policy? := last policy? ds
  level? := last level? ds

theorem last_cons (setting : Definitions → Option String) (d : Definitions)
    (ds : List Definitions) : last setting (d :: ds) = (last setting ds).or (setting d) := by
  rw [last, last, List.filterMap_cons]
  cases setting d with
  | none => simp
  | some s => rw [List.getLast?_cons]; cases (ds.filterMap setting).getLast? <;> rfl

theorem last_concat (setting : Definitions → Option String) (ds : List Definitions)
    (d : Definitions) : last setting (ds ++ [d]) = (setting d).or (last setting ds) := by
  rw [last, last, List.filterMap_append, List.getLast?_append, List.filterMap_cons]
  cases setting d <;> rfl

end Definitions

open Definitions

/-- The configuration with the definitions of a source over it. -/
def define (c : Config) (d : Definitions) : Except ConfigError Config := do
  let policy ← policyAfter c.emptyField1 d.policy?
  let level ← levelAfter c.logLevel d.level?
  return ⟨d.message?.getD c.defaultMessage, policy, level⟩

theorem layer_eq_define (c : Config) (d : Settings.Document) :
    c.layer d = c.define (inDocument d) := rfl

theorem override_eq_define (c : Config) (env : Environment) :
    c.override env = c.define (inEnvironment env) := rfl

/-- What sources define, the documents in order and the environment behind them. -/
def sources (layers : List Settings.Document) (env : Environment) : List Definitions :=
  layers.map inDocument ++ [inEnvironment env]

theorem foldlM_layer_eq_foldlM_define (c : Config) (layers : List Settings.Document) :
    layers.foldlM layer c = (layers.map inDocument).foldlM define c := by
  rw [List.foldlM_map]
  simp only [← layer_eq_define]

theorem foldlM_layer_eq (c : Config) (layers : List Settings.Document) (env : Environment) :
    (layers.foldlM layer c >>= fun top => top.override env)
      = (sources layers env).foldlM define c := by
  rw [sources, List.foldlM_append, foldlM_layer_eq_foldlM_define]
  simp only [List.foldlM_cons, List.foldlM_nil, bind_pure, ← override_eq_define]

/-! ## Sources over one another -/

/-- Each setting of a configuration is what the definitions say, else what it was before. -/
structure Follows (before : Config) (d : Definitions) (now : Config) : Prop where
  message : Settles IsVerbatim before.defaultMessage d.message? now.defaultMessage
  policy : Settles Policy.IsNamedBy before.emptyField1 d.policy? now.emptyField1
  level : Settles Log.Threshold.IsNamedBy before.logLevel d.level? now.logLevel

/-- A setting can go through two definitions one after the other if the first is a name. -/
theorem exists_settles_iff {α : Type} {names : α → String → Prop} {before now : α}
    {later earlier : Option String} :
    (∃ mid, Settles names before earlier mid ∧ Settles names mid later now) ↔
      (∀ setting, earlier = some setting → ∃ a, names a setting) ∧
        Settles names before (later.or earlier) now := by
  cases earlier with
  | none => simp [Settles]
  | some setting =>
      cases later with
      | none =>
          simp only [Settles, exists_eq_right', Option.none_or, Option.some.injEq, forall_eq']
          exact ⟨fun h => ⟨⟨now, h⟩, h⟩, fun h => h.2⟩
      | some other => simp [Settles]

theorem define_eq_ok_iff {before now : Config} {d : Definitions} :
    before.define d = .ok now ↔ Follows before d now := by
  rw [define, bind_eq_ok_iff]
  constructor
  · rintro ⟨policy, hpolicy, h⟩
    rcases bind_eq_ok_iff.1 h with ⟨level, hlevel, hnow⟩
    cases hnow
    exact ⟨settles_message_iff.2 rfl, policyAfter_eq_ok_iff.1 hpolicy, levelAfter_eq_ok_iff.1 hlevel⟩
  · rintro ⟨hmessage, hpolicy, hlevel⟩
    refine ⟨_, policyAfter_eq_ok_iff.2 hpolicy,
      bind_eq_ok_iff.2 ⟨_, levelAfter_eq_ok_iff.2 hlevel, ?_⟩⟩
    rw [← settles_message_iff.1 hmessage]
    rfl

/-- A source that does not give a configuration complains. -/
theorem define_eq_error {before : Config} {d : Definitions} {e : ConfigError}
    (h : before.define d = .error e) : ∃ i, d.Complains i ∧ e = .invalid i := by
  rw [define] at h
  cases hpolicy : policyAfter before.emptyField1 d.policy? with
  | error e' =>
      rw [hpolicy] at h
      cases h
      rcases policyAfter_eq_error hpolicy with ⟨setting, hdefined, hname, rfl⟩
      exact ⟨_, .policy hdefined hname, rfl⟩
  | ok policy =>
      cases hlevel : levelAfter before.logLevel d.level? with
      | ok level => simp [hpolicy, hlevel, bind, Except.bind, pure, Except.pure] at h
      | error e' =>
          rw [hpolicy, hlevel] at h
          cases h
          rcases levelAfter_eq_error hlevel with ⟨setting, hdefined, hname, rfl⟩
          refine ⟨_, .level ?_ hdefined hname, rfl⟩
          -- the policy was passed
          intro other hother
          have hsettles := policyAfter_eq_ok_iff.1 hpolicy
          rw [hother] at hsettles
          exact ⟨policy, hsettles⟩

/-- Two sources, one after the other. -/
theorem exists_follows_iff {before now : Config} {d : Definitions} {ds : List Definitions} :
    (∃ mid, Follows before d mid ∧ Follows mid (together ds) now) ↔
      d.Valid ∧ Follows before (together (d :: ds)) now := by
  have hmessage : (∃ mid, Settles IsVerbatim before.defaultMessage d.message? mid ∧
      Settles IsVerbatim mid (last message? ds) now.defaultMessage) ↔ _ := exists_settles_iff
  have hpolicy : (∃ mid, Settles Policy.IsNamedBy before.emptyField1 d.policy? mid ∧
      Settles Policy.IsNamedBy mid (last policy? ds) now.emptyField1) ↔ _ := exists_settles_iff
  have hlevel : (∃ mid, Settles Log.Threshold.IsNamedBy before.logLevel d.level? mid ∧
      Settles Log.Threshold.IsNamedBy mid (last level? ds) now.logLevel) ↔ _ := exists_settles_iff
  rw [← last_cons] at hmessage hpolicy hlevel
  constructor
  · rintro ⟨mid, hmid, hnow⟩
    rcases hmessage.1 ⟨_, hmid.message, hnow.message⟩ with ⟨_, hmessage⟩
    rcases hpolicy.1 ⟨_, hmid.policy, hnow.policy⟩ with ⟨hvalidPolicy, hpolicy⟩
    rcases hlevel.1 ⟨_, hmid.level, hnow.level⟩ with ⟨hvalidLevel, hlevel⟩
    exact ⟨⟨hvalidPolicy, hvalidLevel⟩, hmessage, hpolicy, hlevel⟩
  · rintro ⟨hvalid, hnow⟩
    rcases hmessage.2 ⟨fun setting _ => ⟨setting, rfl⟩, hnow.message⟩ with ⟨m, hm, hm'⟩
    rcases hpolicy.2 ⟨hvalid.1, hnow.policy⟩ with ⟨p, hp, hp'⟩
    rcases hlevel.2 ⟨hvalid.2, hnow.level⟩ with ⟨l, hl, hl'⟩
    exact ⟨⟨m, p, l⟩, ⟨hm, hp, hl⟩, ⟨hm', hp', hl'⟩⟩

/-- Sources come to what they define together if each of them is valid. -/
theorem foldlM_define_eq_ok_iff {before now : Config} {ds : List Definitions} :
    ds.foldlM define before = .ok now ↔
      (∀ d ∈ ds, d.Valid) ∧ Follows before (together ds) now := by
  induction ds generalizing before with
  | nil =>
      rw [List.foldlM_nil]
      constructor
      · intro h
        cases h
        exact ⟨by simp, rfl, rfl, rfl⟩
      · rintro ⟨_, hmessage, hpolicy, hlevel⟩
        exact congrArg Except.ok (Config.ext hmessage.symm hpolicy.symm hlevel.symm)
  | cons d ds ih =>
      simp only [List.foldlM_cons, bind_eq_ok_iff, define_eq_ok_iff, ih, List.forall_mem_cons]
      rw [and_right_comm, ← exists_follows_iff]
      constructor
      · rintro ⟨mid, hmid, hvalid, hnow⟩
        exact ⟨⟨mid, hmid, hnow⟩, hvalid⟩
      · rintro ⟨⟨mid, hmid, hnow⟩, hvalid⟩
        exact ⟨mid, hmid, hvalid, hnow⟩

/-- The first source that is not valid is the one that complains. -/
theorem foldlM_define_eq_error {before : Config} {ds : List Definitions} {e : ConfigError}
    (h : ds.foldlM define before = .error e) :
    ∃ earlier d later i, ds = earlier ++ d :: later ∧ (∀ d' ∈ earlier, d'.Valid) ∧
      d.Complains i ∧ e = .invalid i := by
  induction ds generalizing before with
  | nil => cases h
  | cons d ds ih =>
      rw [List.foldlM_cons] at h
      cases hdefine : before.define d with
      | error e' =>
          rw [hdefine] at h
          cases h
          rcases define_eq_error hdefine with ⟨i, hi, rfl⟩
          exact ⟨[], d, ds, i, rfl, by simp, hi, rfl⟩
      | ok mid =>
          rw [hdefine] at h
          rcases ih h with ⟨earlier, d', later, i, rfl, hvalid, hi, he⟩
          have hd : d.Valid := by
            have hone : [d].foldlM define before = .ok mid := by
              rw [List.foldlM_cons, hdefine]
              rfl
            exact (foldlM_define_eq_ok_iff.1 hone).1 d (by simp)
          exact ⟨d :: earlier, d', later, i, rfl, List.forall_mem_cons.2 ⟨hd, hvalid⟩, hi, he⟩

/-- A configuration is built from its sources if and only if every policy and every threshold that
one of them defines is a name, the replaced ones included. Each setting is then what the last source
that defines it says, whatever becomes of the others. Else the first source that is not valid
complains about its policy, or about its threshold if the policy is a name. -/
theorem layering_law (base : Config) (layers : List Settings.Document) (env : Environment) :
    ((∃ c, (layers.foldlM layer base >>= fun top => top.override env) = .ok c) ↔
      ∀ d ∈ sources layers env, d.Valid) ∧
    (∀ c, (layers.foldlM layer base >>= fun top => top.override env) = .ok c →
      Follows base (together (sources layers env)) c) ∧
    ∀ e, (layers.foldlM layer base >>= fun top => top.override env) = .error e →
      ∃ earlier d later i, sources layers env = earlier ++ d :: later ∧
        (∀ d' ∈ earlier, d'.Valid) ∧ d.Complains i ∧ e = .invalid i := by
  rw [foldlM_layer_eq]
  refine ⟨⟨?_, ?_⟩, ?_, ?_⟩
  · rintro ⟨c, hc⟩
    exact (foldlM_define_eq_ok_iff.1 hc).1
  · intro hvalid
    cases hfold : (sources layers env).foldlM define base with
    | ok c => exact ⟨c, rfl⟩
    | error e =>
        rcases foldlM_define_eq_error hfold with ⟨earlier, d, later, i, hds, _, hi, _⟩
        have hd : d ∈ sources layers env := by simp [hds]
        exact absurd (hvalid d hd) hi.not_valid
  · intro c hc
    exact (foldlM_define_eq_ok_iff.1 hc).2
  · intro e he
    exact foldlM_define_eq_error he

/-- A document with one policy, and one that replaces it and empties the greeting. -/
def replacing (first second : String) : List Settings.Document :=
  [[⟨some greetingSection, [⟨policyKey, first⟩]⟩, ⟨some logSection, [⟨levelKey, " Debug"⟩]⟩],
    [⟨some greetingSection, [⟨messageKey, ""⟩, ⟨policyKey, second⟩]⟩]]

/-- The empty greeting counts as a definition, and a policy that is no name is reported although it
is replaced. -/
theorem layering_law_replacing :
    (∃ c, ((replacing "overwrite" "IGNORE ").foldlM layer default >>=
        fun top => top.override fun _ => none) = .ok c ∧
      c.defaultMessage = "" ∧ c.emptyField1.IsNamedBy "IGNORE " ∧ c.logLevel.IsNamedBy " Debug") ∧
    ∃ e, ((replacing "never" "ignore").foldlM layer default >>=
        fun top => top.override fun _ => none) = .error e ∧
      ∃ earlier d later i, sources (replacing "never" "ignore") (fun _ => none)
          = earlier ++ d :: later ∧ (∀ d' ∈ earlier, d'.Valid) ∧ d.Complains i ∧ e = .invalid i := by
  constructor
  · rcases layering_law default (replacing "overwrite" "IGNORE ") fun _ => none with ⟨_, hok, _⟩
    have hsome : ((replacing "overwrite" "IGNORE ").foldlM layer default >>=
        fun top => top.override fun _ => none).toOption.isSome = true := by
      decide +kernel
    rcases Option.isSome_iff_exists.1 hsome with ⟨c, hc⟩
    rcases hok c (toOption_eq_some_iff.1 hc) with ⟨hmessage, hpolicy, hlevel⟩
    exact ⟨c, toOption_eq_some_iff.1 hc, hmessage, hpolicy, hlevel⟩
  · rcases layering_law default (replacing "never" "ignore") fun _ => none with ⟨_, _, herror⟩
    have hnone : ((replacing "never" "ignore").foldlM layer default >>=
        fun top => top.override fun _ => none).toOption = none := by
      decide +kernel
    cases hfold : (replacing "never" "ignore").foldlM layer default >>=
        fun top => top.override fun _ => none with
    | ok c => simp [hfold, Except.toOption] at hnone
    | error e => exact ⟨e, rfl, herror e hfold⟩

end Config
end GreetingService
