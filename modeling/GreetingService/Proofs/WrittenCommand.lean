import GreetingService.Proofs.CommandParts
import GreetingService.Proofs.WrittenOptions

/-!
# Command lines as they are written

Options may come in any order, and those on the configuration and on diagnostics on both sides of
the command. A command line of such options is always understood, and its call depends on the options
alone: of a value that is given on both sides the one behind the command counts, and no level counts
beside the options for all diagnostics or for none.
-/

namespace GreetingService.CommandLine

open Results

/-! ## Options that stand together -/

/-- Uses that may stand together in a part. All but events are used at most once, levels are named
in any case of letters, and `invoke` has at least one event. -/
structure Scope.Accepts (s : Scope) (uses : List Use) : Prop where
  admits : ∀ u ∈ uses, s.Admits u.option
  once : ∀ o, o ≠ .event → uses.countP (fun u => u.option = o) ≤ 1
  levels : ∀ value, ⟨.logLevel, some value⟩ ∈ uses →
    ∃ t : Log.Threshold, Text.sameLetters t.name value = true
  events : s = .invoke → ∃ u ∈ uses, u.option = .event

/-! ## What options come to -/

/-- The value of an option is the one behind the command, or else the one in front of it. -/
inductive Selects (outer inner : List Use) (o : Opt) : Option String → Prop where
  | behind {value : String} : ⟨o, some value⟩ ∈ inner → Selects outer inner o (some value)
  | before {value : String} : (∀ u ∈ inner, u.option ≠ o) → ⟨o, some value⟩ ∈ outer →
      Selects outer inner o (some value)
  | nowhere : (∀ u ∈ outer ++ inner, u.option ≠ o) → Selects outer inner o none

/-- The threshold that options ask for. The one without limit comes first and silence second,
wherever they stand, and a level counts only without them. -/
inductive Asks (outer inner : List Use) : Option Log.Threshold → Prop where
  | trace : ⟨.trace, none⟩ ∈ outer ++ inner → Asks outer inner (some (.upTo .trace))
  | silent : (∀ u ∈ outer ++ inner, u.option ≠ .trace) → ⟨.silent, none⟩ ∈ outer ++ inner →
      Asks outer inner (some .off)
  | level {value : String} {t : Log.Threshold} :
      (∀ u ∈ outer ++ inner, u.option ≠ .trace ∧ u.option ≠ .silent) →
      Selects outer inner .logLevel (some value) → Text.sameLetters t.name value = true →
        Asks outer inner (some t)
  | nothing : (∀ u ∈ outer ++ inner, u.option ≠ .trace ∧ u.option ≠ .silent) →
      Selects outer inner .logLevel none → Asks outer inner none

/-- The same uses in another order; an option that is used only once may also stand on the other
side of the command. Events keep their order. -/
structure Rearranges (outer inner outer' inner' : List Use) : Prop where
  events : (inner'.filter fun u => u.option = .event) = inner.filter fun u => u.option = .event
  sides : (outer'.Perm outer ∧ inner'.Perm inner) ∨ ((outer' ++ inner').Perm (outer ++ inner) ∧
    ∀ o, o ≠ .event → (outer ++ inner).countP (fun u => u.option = o) ≤ 1)

/-! ## What is checked -/

theorem Use.check_eq_ok {u : Use}
    (h : ∀ value, u = ⟨.logLevel, some value⟩ →
      ∃ t : Log.Threshold, Text.sameLetters t.name value = true) : u.check = .ok () := by
  rcases u with ⟨o, value⟩
  cases o with
  | logLevel =>
      cases value with
      | none => rfl
      | some value =>
          rcases h value rfl with ⟨t, ht⟩
          simp only [check, Log.Threshold.ofName?_eq_some_iff.2 ht]
          rfl
  | _ => rfl

theorem checkOptions_eq_ok_iff {uses : List Use} :
    checkOptions uses = .ok () ↔ ∀ u ∈ uses, checkOption uses u.option = .ok () :=
  forM_eq_ok_iff

theorem checkOption_eq_ok {uses : List Use} {o : Opt}
    (hvalue : o.value?.isSome → hasValue uses o = true)
    (honce : o ≠ .event → uses.countP (fun u => u.option = o) ≤ 1) :
    checkOption uses o = .ok () := by
  have hmissing : ¬ (o.value?.isSome ∧ (!hasValue uses o) = true) := by
    rintro ⟨ho, hnone⟩
    simp [hvalue ho] at hnone
  have hrepeated : ¬ ((!o.repeats) = true ∧ 1 < uses.countP fun u => u.option == o) := by
    rintro ⟨hrepeats, htwice⟩
    have hne : o ≠ .event := by
      rintro rfl
      cases hrepeats
    have hle := honce hne
    simp only [beq_eq_decide] at htwice
    omega
  rw [checkOption, if_neg hmissing, if_neg hrepeated]

section Parts

variable {s : Scope} {uses : List Use} {args : List String}

theorem Scope.Accepts.check (h : s.Accepts uses) : ∀ u ∈ uses, u.check = .ok () := by
  intro u hu
  refine Use.check_eq_ok ?_
  rintro value rfl
  exact h.levels value hu

theorem Scope.Accepts.checkOptions (h : s.Accepts uses) (hwritten : WritesAll uses args) :
    checkOptions uses = .ok () := by
  refine checkOptions_eq_ok_iff.2 fun u hu => checkOption_eq_ok ?_ (h.once u.option)
  intro ho
  rw [hasValue, List.any_eq_true]
  exact ⟨u, hu, by rw [hwritten.isSome_value u hu, ho]; simp⟩

theorem Scope.Accepts.perm {uses' : List Use} (h : s.Accepts uses) (hperm : uses'.Perm uses) :
    s.Accepts uses' where
  admits u hu := h.admits u (hperm.mem_iff.1 hu)
  once o ho := (hperm.countP_eq _).trans_le (h.once o ho)
  levels value hvalue := h.levels value (hperm.mem_iff.1 hvalue)
  events hs := by
    rcases h.events hs with ⟨u, hu, hevent⟩
    exact ⟨u, hperm.mem_iff.2 hu, hevent⟩

/-- A use of an option that is used at most once is the only one. -/
theorem eq_of_mem_of_once {o : Opt} {u u' : Use}
    (honce : uses.countP (fun u => u.option = o) ≤ 1) (hu : u ∈ uses) (ho : u.option = o)
    (hu' : u' ∈ uses) (ho' : u'.option = o) : u = u' := by
  rw [List.countP_eq_length_filter] at honce
  have hmem : u ∈ uses.filter fun u => u.option = o := by simp [hu, ho]
  have hmem' : u' ∈ uses.filter fun u => u.option = o := by simp [hu', ho']
  rcases huses : uses.filter (fun u => u.option = o) with _ | ⟨x, _ | ⟨y, rest⟩⟩
  · rw [huses] at hmem
    cases hmem
  · rw [huses, List.mem_singleton] at hmem hmem'
    rw [hmem, hmem']
  · rw [huses, List.length_cons, List.length_cons] at honce
    omega

end Parts

/-! ## What is selected -/

/-- Uses of options that take a value have one. -/
def Valued (uses : List Use) : Prop :=
  ∀ u ∈ uses, u.value.isSome = u.option.value?.isSome

theorem mem_of_valueIn {uses : List Use} {o : Opt} {value : String}
    (h : valueIn uses o = some value) : ⟨o, some value⟩ ∈ uses := by
  rcases Option.bind_eq_some_iff.1 h with ⟨u, hfound, hvalue⟩
  have hoption := List.find?_some hfound
  rw [Bool.and_eq_true, beq_iff_eq] at hoption
  have hu : u = ⟨o, some value⟩ := by rw [← hoption.1, ← hvalue]
  rw [← hu]
  exact List.mem_of_find?_eq_some hfound

theorem ne_of_valueIn {uses : List Use} {o : Opt} (hvalued : Valued uses) (ho : o.value?.isSome)
    (h : valueIn uses o = none) : ∀ u ∈ uses, u.option ≠ o := by
  rintro u hu rfl
  have hvalue : u.value.isSome = true := by rw [hvalued u hu, ho]
  rw [valueIn] at h
  cases hfound : uses.find? fun u' => u'.option == u.option && u'.value.isSome with
  | none =>
      -- the use itself would have been found
      have hnot := List.find?_eq_none.1 hfound u hu
      simp [hvalue] at hnot
  | some u' =>
      have hu' := List.find?_some hfound
      rw [Bool.and_eq_true] at hu'
      rw [hfound, Option.bind_some] at h
      rw [h] at hu'
      exact absurd hu'.2 (by simp)

theorem isUsed_eq_true_iff {uses : List Use} {o : Opt} :
    isUsed uses o = true ↔ ∃ u ∈ uses, u.option = o := by
  simp [isUsed, List.any_eq_true]

theorem ne_of_isUsed {uses : List Use} {o : Opt} (h : ¬ isUsed uses o = true) :
    ∀ u ∈ uses, u.option ≠ o :=
  fun u hu heq => h (isUsed_eq_true_iff.2 ⟨u, hu, heq⟩)

theorem Valued.append {outer inner : List Use} (houter : Valued outer) (hinner : Valued inner) :
    Valued (outer ++ inner) := by
  intro u hu
  rcases List.mem_append.1 hu with hu | hu
  · exact houter u hu
  · exact hinner u hu

theorem Valued.mem_of_isUsed {uses : List Use} {o : Opt} (h : Valued uses) (ho : o.value? = none)
    (hused : isUsed uses o = true) : ⟨o, none⟩ ∈ uses := by
  rcases isUsed_eq_true_iff.1 hused with ⟨⟨o', value⟩, hu, rfl⟩
  have hvalue := h _ hu
  rw [ho] at hvalue
  cases value with
  | none => exact hu
  | some value => cases hvalue

/-- The events of a part are the values of its uses, none of them left out. -/
theorem map_value_eq {uses : List Use} (h : Valued uses) :
    (uses.filter fun u => u.option = .event).map Use.value = (eventsOf uses).map some := by
  induction uses with
  | nil => rfl
  | cons u uses ih =>
      rw [Valued, List.forall_mem_cons] at h
      rcases u with ⟨o, value⟩
      by_cases ho : o = .event
      · subst ho
        cases value with
        | none => cases h.1
        | some value => simpa [eventsOf] using ih h.2
      · simpa [eventsOf, ho] using ih h.2

section Selection

variable {outer inner outer' inner' : List Use} {o : Opt} {v v' : Option String}
  {level level' : Option Log.Threshold}

theorem selects_valueOf (ho : o.value?.isSome) (houter : Valued outer) (hinner : Valued inner) :
    Selects outer inner o (valueOf outer inner o) := by
  rw [valueOf_eq]
  cases hbehind : valueIn inner o with
  | some value => exact .behind (mem_of_valueIn hbehind)
  | none =>
      have hnot := ne_of_valueIn hinner ho hbehind
      cases hbefore : valueIn outer o with
      | some value => exact .before hnot (mem_of_valueIn hbefore)
      | none =>
          refine .nowhere fun u hu => ?_
          rcases List.mem_append.1 hu with hu | hu
          · exact ne_of_valueIn houter ho hbefore u hu
          · exact hnot u hu

theorem Selects.mem {value : String} (h : Selects outer inner o (some value)) :
    ⟨o, some value⟩ ∈ outer ++ inner := by
  cases h with
  | behind hmem => exact List.mem_append_right _ hmem
  | before _ hmem => exact List.mem_append_left _ hmem

theorem asks_levelOf (houter : Valued outer) (hinner : Valued inner)
    (hlevels : ∀ value, ⟨.logLevel, some value⟩ ∈ outer ++ inner →
      ∃ t : Log.Threshold, Text.sameLetters t.name value = true) :
    Asks outer inner (levelOf outer inner) := by
  have hvalued := houter.append hinner
  rw [levelOf]
  split
  · rename_i htrace
    exact .trace (hvalued.mem_of_isUsed rfl htrace)
  · rename_i htrace
    have hnot := ne_of_isUsed htrace
    split
    · rename_i hsilent
      exact .silent hnot (hvalued.mem_of_isUsed rfl hsilent)
    · rename_i hsilent
      have hneither : ∀ u ∈ outer ++ inner, u.option ≠ .trace ∧ u.option ≠ .silent :=
        fun u hu => ⟨hnot u hu, ne_of_isUsed hsilent u hu⟩
      have hselects : Selects outer inner .logLevel (valueOf outer inner .logLevel) :=
        selects_valueOf rfl houter hinner
      cases hvalue : valueOf outer inner .logLevel with
      | none =>
          rw [hvalue] at hselects
          exact .nothing hneither hselects
      | some value =>
          rw [hvalue] at hselects
          rcases hlevels value hselects.mem with ⟨t, ht⟩
          rw [Option.bind_some, Log.Threshold.ofName?_eq_some_iff.2 ht]
          exact .level hneither hselects ht

/-! The place of an option does not count, as long as it stays on its side of the command or is used
on one side only. -/

theorem Rearranges.mem_iff (h : Rearranges outer inner outer' inner') (u : Use) :
    u ∈ outer' ++ inner' ↔ u ∈ outer ++ inner := by
  rcases h.sides with ⟨houter, hinner⟩ | ⟨hall, _⟩
  · exact (houter.append hinner).mem_iff
  · exact hall.mem_iff

/-- An option that is used only once selects its value on either side. -/
theorem selects_of_once (honce : (outer ++ inner).countP (fun u => u.option = o) ≤ 1)
    {value : String} (h : ⟨o, some value⟩ ∈ outer ++ inner) :
    Selects outer inner o (some value) := by
  by_cases hbehind : ⟨o, some value⟩ ∈ inner
  · exact .behind hbehind
  · have hbefore : ⟨o, some value⟩ ∈ outer := (List.mem_append.1 h).resolve_right hbehind
    refine .before ?_ hbefore
    intro u hu ho
    have heq := eq_of_mem_of_once honce (List.mem_append_right _ hu) ho h rfl
    rw [heq] at hu
    exact hbehind hu

theorem Rearranges.selects (h : Rearranges outer inner outer' inner') (ho : o ≠ .event)
    (hselects : Selects outer inner o v) : Selects outer' inner' o v := by
  -- both sides keep their uses, or the option is used once and its side does not count
  rcases h.sides with ⟨houter, hinner⟩ | ⟨hall, honce⟩
  · cases hselects with
    | behind hmem => exact .behind (hinner.mem_iff.2 hmem)
    | before hnot hmem =>
        exact .before (fun u hu => hnot u (hinner.mem_iff.1 hu)) (houter.mem_iff.2 hmem)
    | nowhere hnot => exact .nowhere fun u hu => hnot u ((h.mem_iff u).1 hu)
  · cases v with
    | none =>
        rcases hselects with _ | _ | hnot
        exact .nowhere fun u hu => hnot u ((h.mem_iff u).1 hu)
    | some value =>
        refine selects_of_once ?_ ((h.mem_iff _).2 hselects.mem)
        rw [hall.countP_eq]
        exact honce o ho

theorem Selects.unique {s s' : Scope} (houter : s.Accepts outer) (hinner : s'.Accepts inner)
    (ho : o ≠ .event) (h : Selects outer inner o v) (h' : Selects outer inner o v') : v = v' := by
  -- two values of one side are the same, and no two cases apply at once
  have hvalue : ∀ {uses : List Use} {s : Scope} {value value' : String}, s.Accepts uses →
      ⟨o, some value⟩ ∈ uses → ⟨o, some value'⟩ ∈ uses → some value = some value' := by
    intro uses s value value' haccepts hmem hmem'
    have heq := eq_of_mem_of_once (haccepts.once o ho) hmem rfl hmem' rfl
    exact congrArg Use.value heq
  cases h with
  | behind hmem =>
      cases h' with
      | behind hmem' => exact hvalue hinner hmem hmem'
      | before hnot _ => exact absurd rfl (hnot _ hmem)
      | nowhere hnot => exact absurd rfl (hnot _ (List.mem_append_right _ hmem))
  | before hnot hmem =>
      cases h' with
      | behind hmem' => exact absurd rfl (hnot _ hmem')
      | before _ hmem' => exact hvalue houter hmem hmem'
      | nowhere hnone => exact absurd rfl (hnone _ (List.mem_append_left _ hmem))
  | nowhere hnot =>
      cases h' with
      | behind hmem' => exact absurd rfl (hnot _ (List.mem_append_right _ hmem'))
      | before _ hmem' => exact absurd rfl (hnot _ (List.mem_append_left _ hmem'))
      | nowhere _ => rfl

theorem Rearranges.isUsed_eq (h : Rearranges outer inner outer' inner') (o : Opt) :
    isUsed (outer' ++ inner') o = isUsed (outer ++ inner) o := by
  rw [Bool.eq_iff_iff, isUsed_eq_true_iff, isUsed_eq_true_iff]
  simp only [h.mem_iff]

theorem eventsOf_congr {uses uses' : List Use} (huses : Valued uses) (huses' : Valued uses')
    (h : (uses'.filter fun u => u.option = .event) = uses.filter fun u => u.option = .event) :
    eventsOf uses' = eventsOf uses := by
  have hvalues := congrArg (List.map Use.value) h
  rw [map_value_eq huses, map_value_eq huses'] at hvalues
  exact List.map_injective_iff.2 (Option.some_injective _) hvalues

/-- The minimal handler is asked for behind the command only. -/
theorem isUsed_append_minimal (h : Scope.root.Accepts outer) (inner : List Use) :
    isUsed (outer ++ inner) .minimal = isUsed inner .minimal := by
  have hnot : isUsed outer .minimal = false := by
    rw [Bool.eq_false_iff]
    intro hused
    rcases isUsed_eq_true_iff.1 hused with ⟨u, hu, ho⟩
    have hadmits := h.admits u hu
    rw [ho] at hadmits
    exact hadmits
  rw [isUsed, List.any_append]
  simp only [isUsed] at hnot
  rw [hnot, Bool.false_or]
  rfl

/-- Rearranged uses come to the same call. -/
theorem Rearranges.call_eq {s : Scope} (h : Rearranges outer inner outer' inner')
    (houter : Scope.root.Accepts outer) (houter' : Scope.root.Accepts outer')
    (hinner' : s.Accepts inner') (hvouter : Valued outer) (hvinner : Valued inner)
    (hvouter' : Valued outer') (hvinner' : Valued inner') :
    Parts.call ⟨outer', s, inner'⟩ = Parts.call ⟨outer, s, inner⟩ := by
  have hvalueOf : ∀ {o : Opt}, o ≠ .event → o.value?.isSome →
      valueOf outer' inner' o = valueOf outer inner o := by
    intro o ho hvalue
    have hselects := h.selects ho (selects_valueOf hvalue hvouter hvinner)
    exact (selects_valueOf hvalue hvouter' hvinner').unique houter' hinner' ho hselects
  have hlevel : levelOf outer' inner' = levelOf outer inner := by
    rw [levelOf, levelOf, h.isUsed_eq, h.isUsed_eq, hvalueOf (by decide) rfl]
  have htask : s.task inner' = s.task inner := by
    cases s with
    | invoke =>
        -- the minimal handler is the one option that only this side can have
        rw [Scope.task, Scope.task, eventsOf_congr hvinner hvinner' h.events,
          ← isUsed_append_minimal houter' inner', ← isUsed_append_minimal houter inner, h.isUsed_eq]
    | root => rfl
    | config => rfl
  rw [Parts.call, Parts.call, htask, hvalueOf (by decide) rfl, hlevel]

end Selection

/-! ## The whole command line -/

section Whole

variable {outer inner : List Use} {front back : List String} {s : Scope} {command : Command}

/-- A command is met where no option waits for its value. -/
theorem Scope.read_command {p : Progress} {uses : List Use} (hp : p.Gives uses) (command : Command)
    (rest : List String) :
    Scope.root.read p (command.name :: rest) = .ok (p, some (command, rest)) := by
  have hcommand : (if p.plain ∨ p.awaiting?.isSome then none else Scope.root.command? command.name)
      = some command := by
    rw [hp.plain, hp.awaiting]
    cases command <;> rfl
  rw [read, hcommand]

theorem hasParts_of_writes (hcommand : command.scope? = some s) (houter : Scope.root.Accepts outer)
    (hinner : s.Accepts inner) (hfront : WritesAll outer front) (hback : WritesAll inner back) :
    HasParts (front ++ command.name :: back) ⟨outer, s, inner⟩ := by
  have hstart : Progress.start.Gives [] := .of_settled []
  rcases hfront.read hstart houter.admits houter.check with ⟨p, hp, hread⟩
  rcases hback.read hstart hinner.admits hinner.check with ⟨q, hq, hread'⟩
  have hend : s.read .start back = .ok (q, none) := by
    rw [← List.append_nil back, hread']
    rfl
  refine ⟨command, p, q, back, none, ?_, hcommand, hp.finish, hend, hq.finish⟩
  rw [hread, Scope.read_command hp]

/-- What is written is understood. -/
theorem parse_of_writes (hcommand : command.scope? = some s) (houter : Scope.root.Accepts outer)
    (hinner : s.Accepts inner) (hfront : WritesAll outer front) (hback : WritesAll inner back) :
    parse (front ++ command.name :: back) = .ok (Parts.call ⟨outer, s, inner⟩) := by
  refine parse_eq_ok_iff.2 ⟨_, hasParts_of_writes hcommand houter hinner hfront hback, ?_, rfl⟩
  exact ⟨fun hs => isUsed_eq_true_iff.2 (hinner.events hs), hinner.checkOptions hback,
    houter.checkOptions hfront⟩

/-- What is written comes to a call that the options determine. -/
theorem parse_written (houter : Scope.root.Accepts outer) (hfront : WritesAll outer front)
    (hback : WritesAll inner back) :
    (Scope.invoke.Accepts inner → ∃ events minimal file level,
      parse (front ++ "invoke" :: back) = .ok ⟨.invoke events minimal, file, level⟩ ∧
        (inner.filter fun u => u.option = .event).map Use.value = events.map some ∧
        (minimal = true ↔ ∃ u ∈ inner, u.option = .minimal) ∧
        Selects outer inner .config file ∧ Asks outer inner level) ∧
    (Scope.config.Accepts inner → ∃ file level,
      parse (front ++ "config" :: back) = .ok ⟨.showConfig, file, level⟩ ∧
        Selects outer inner .config file ∧ Asks outer inner level) ∧
    ∀ outer' inner' front' back', Rearranges outer inner outer' inner' →
      Scope.root.Accepts outer' → WritesAll outer' front' → WritesAll inner' back' →
        (Scope.invoke.Accepts inner → Scope.invoke.Accepts inner' →
          parse (front' ++ "invoke" :: back') = parse (front ++ "invoke" :: back)) ∧
        (Scope.config.Accepts inner → Scope.config.Accepts inner' →
          parse (front' ++ "config" :: back') = parse (front ++ "config" :: back)) := by
  have hinvoke : Command.invoke.scope? = some .invoke := rfl
  have hconfig : Command.config.scope? = some .config := rfl
  have hvouter : Valued outer := hfront.isSome_value
  have hvinner : Valued inner := hback.isSome_value
  have hfile : Selects outer inner .config (valueOf outer inner .config) :=
    selects_valueOf rfl hvouter hvinner
  have hasks : ∀ {s : Scope}, s.Accepts inner → Asks outer inner (levelOf outer inner) := by
    intro s hinner
    refine asks_levelOf hvouter hvinner fun value hvalue => ?_
    rcases List.mem_append.1 hvalue with hmem | hmem
    · exact houter.levels value hmem
    · exact hinner.levels value hmem
  refine ⟨fun hinner => ?_, fun hinner => ?_, ?_⟩
  · exact ⟨eventsOf inner, isUsed inner .minimal, _, _,
      parse_of_writes hinvoke houter hinner hfront hback, map_value_eq hvinner,
      isUsed_eq_true_iff, hfile, hasks hinner⟩
  · exact ⟨_, _, parse_of_writes hconfig houter hinner hfront hback, hfile, hasks hinner⟩
  · intro outer' inner' front' back' hrearranged houter' hfront' hback'
    have hsame : ∀ {s : Scope} {command : Command}, command.scope? = some s → s.Accepts inner →
        s.Accepts inner' →
        parse (front' ++ command.name :: back') = parse (front ++ command.name :: back) := by
      intro s command hcommand hinner hinner'
      rw [parse_of_writes hcommand houter' hinner' hfront' hback',
        parse_of_writes hcommand houter hinner hfront hback,
        hrearranged.call_eq houter houter' hinner' hvouter hvinner hfront'.isSome_value
          hback'.isSome_value]
    exact ⟨hsame hinvoke, hsame hconfig⟩

end Whole

/-- Options in front of a command, with a file of its name. -/
def outerExample : List Use :=
  [⟨.config, some "invoke"⟩, ⟨.logLevel, some "WARN"⟩]

/-- Options behind the command, some of them given in front of it as well. -/
def innerExample : List Use :=
  [⟨.event, some "-x="⟩, ⟨.logLevel, some "dEBUG"⟩, ⟨.event, some "config"⟩, ⟨.minimal, none⟩,
    ⟨.config, some "-"⟩]

/-- The same options behind the command in another order. -/
def innerRearranged : List Use :=
  [⟨.config, some "-"⟩, ⟨.minimal, none⟩, ⟨.logLevel, some "dEBUG"⟩, ⟨.event, some "-x="⟩,
    ⟨.event, some "config"⟩]

theorem accepts_outerExample : Scope.root.Accepts outerExample where
  admits u hu := by
    simp only [outerExample, List.mem_cons, List.not_mem_nil, or_false] at hu
    rcases hu with rfl | rfl <;> trivial
  once o _ := by cases o <;> decide
  levels value hvalue := by
    simp only [outerExample, List.mem_cons, List.not_mem_nil, or_false] at hvalue
    rcases hvalue with heq | heq <;> cases heq
    exact ⟨.upTo .warn, by decide⟩
  events h := by cases h

theorem accepts_innerExample : Scope.invoke.Accepts innerExample where
  admits u hu := by
    simp only [innerExample, List.mem_cons, List.not_mem_nil, or_false] at hu
    rcases hu with rfl | rfl | rfl | rfl | rfl <;> trivial
  once o ho := by
    cases o with
    | event => exact absurd rfl ho
    | _ => decide
  levels value hvalue := by
    simp only [innerExample, List.mem_cons, List.not_mem_nil, or_false] at hvalue
    rcases hvalue with heq | heq | heq | heq | heq <;> cases heq
    exact ⟨.upTo .debug, by decide⟩
  events _ := ⟨⟨.event, some "-x="⟩, by simp [innerExample], rfl⟩

/-- The file and the level behind the command are selected, and values may look like commands or,
attached, like options. The same options in another order and spelling come to the same call. -/
theorem parse_written_both_sides :
    parse ["-c", "invoke", "--log-level=WARN", "invoke", "--event=-x=", "-L", "dEBUG", "-e",
        "config", "-m", "--config", "-"]
      = .ok ⟨.invoke ["-x=", "config"] true, some "-", some (.upTo .debug)⟩ ∧
    Selects outerExample innerExample .config (some "-") ∧
    Asks outerExample innerExample (some (.upTo .debug)) ∧
    parse ["--log-level", "WARN", "--config=invoke", "invoke", "--config=-", "--minimal",
        "--log-level=dEBUG", "--event=-x=", "--event", "config"]
      = .ok ⟨.invoke ["-x=", "config"] true, some "-", some (.upTo .debug)⟩ := by
  have hfront : WritesAll outerExample ["-c", "invoke", "--log-level=WARN"] := by
    refine .cons (.letterValue rfl rfl ?_) (.cons (.attached rfl (by decide)) .nil)
    exact ⟨by decide, by decide⟩
  have hback : WritesAll innerExample ["--event=-x=", "-L", "dEBUG", "-e", "config", "-m",
      "--config", "-"] := by
    refine .cons (.attached rfl (by decide)) (.cons (.letterValue rfl rfl ?_) (.cons
      (.letterValue rfl rfl ?_) (.cons (.letter rfl rfl) (.cons (.nameValue rfl ?_) .nil))))
    · exact ⟨by decide, by decide⟩
    · exact ⟨by decide, by decide⟩
    · exact ⟨by decide, by decide⟩
  rcases parse_written accepts_outerExample hfront hback with ⟨hinvoke, _, hother⟩
  rcases hinvoke accepts_innerExample with
    ⟨events, minimal, file, level, hparse, _, _, hfile, hlevel⟩
  have hcall : parse ["-c", "invoke", "--log-level=WARN", "invoke", "--event=-x=", "-L", "dEBUG",
      "-e", "config", "-m", "--config", "-"]
        = .ok ⟨.invoke ["-x=", "config"] true, some "-", some (.upTo .debug)⟩ := by
    decide +kernel
  rw [List.cons_append, List.cons_append, List.cons_append, List.nil_append, hcall] at hparse
  cases hparse
  -- the other line has the same options, except that their order differs on each side
  have houter : outerExample.reverse.Perm outerExample := List.reverse_perm _
  have hinner : innerRearranged.Perm innerExample := by decide
  have hfront' : WritesAll outerExample.reverse ["--log-level", "WARN", "--config=invoke"] :=
    .cons (.nameValue rfl ⟨by decide, by decide⟩) (.cons (.attached rfl (by decide)) .nil)
  have hback' : WritesAll innerRearranged ["--config=-", "--minimal", "--log-level=dEBUG",
      "--event=-x=", "--event", "config"] :=
    .cons (.attached rfl (by decide)) (.cons (.name rfl) (.cons (.attached rfl (by decide))
      (.cons (.attached rfl (by decide)) (.cons (.nameValue rfl ⟨by decide, by decide⟩) .nil))))
  rcases hother _ _ _ _ ⟨by decide, .inl ⟨houter, hinner⟩⟩ (accepts_outerExample.perm houter)
    hfront' hback' with ⟨hsame, _⟩
  have hcall' := hsame accepts_innerExample (accepts_innerExample.perm hinner)
  rw [List.cons_append, List.cons_append, List.cons_append, List.nil_append] at hcall'
  exact ⟨hcall, hfile, hlevel, hcall'.trans hcall⟩

end GreetingService.CommandLine
