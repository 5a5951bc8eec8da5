import GreetingService.Proofs.Outline
import GreetingService.Json.Record

/-!
# Fields of records written as objects

Which fields the members of an object give, and which texts these have. In one pass, members are
taken in the order of the text; a value has one member of each key, in the order of the keys. As long
as no field comes twice, this makes no difference to the text of any field.
-/

namespace GreetingService.Json

open Results

/-! ## Fields of members -/

namespace Shape

variable {φ α : Type} {shape : Shape φ}

/-- The members whose keys name fields, in order. -/
def recognized (shape : Shape φ) (members : List (String × α)) : List (φ × α) :=
  members.filterMap fun member => (shape.ofKey? member.1).map fun field => (field, member.2)

/-- The texts of fields that members give, in order. -/
def Tells (shape : Shape φ) (textOf : α → Option String → Prop) (members : List (String × α))
    (given : Given φ) : Prop :=
  List.Forall₂ (fun member text => member.1 = text.1 ∧ textOf member.2 text.2)
    (shape.recognized members) given

section Tells

variable {textOf : α → Option String → Prop} {members : List (String × α)} {key : String} {a : α}
  {field : φ} {given : Given φ}

theorem tells_cons_of_none (h : shape.ofKey? key = none) :
    shape.Tells textOf ((key, a) :: members) given ↔ shape.Tells textOf members given := by
  simp [Tells, recognized, h]

theorem tells_cons_of_some (h : shape.ofKey? key = some field) :
    shape.Tells textOf ((key, a) :: members) given ↔
      ∃ text others, textOf a text ∧ given = (field, text) :: others ∧
        shape.Tells textOf members others := by
  simp only [Tells, recognized, List.filterMap_cons, h, Option.map_some,
    List.forall₂_cons_left_iff]
  constructor
  · rintro ⟨⟨field', text⟩, others, ⟨hfield, htext⟩, hothers, rfl⟩
    cases hfield
    exact ⟨text, others, htext, rfl, hothers⟩
  · rintro ⟨text, others, htext, rfl, hothers⟩
    exact ⟨(field, text), others, ⟨rfl, htext⟩, hothers, rfl⟩

theorem Tells.fields (h : shape.Tells textOf members given) :
    given.map Prod.fst = (shape.recognized members).map Prod.fst := by
  rw [Tells] at h
  generalize shape.recognized members = told at h
  induction h with
  | nil => rfl
  | cons hhead _ ih => rw [List.map_cons, List.map_cons, ih, hhead.1]

theorem Tells.exists_text (h : shape.Tells textOf members given) (hmem : (key, a) ∈ members)
    (hof : shape.ofKey? key = some field) : ∃ text, textOf a text := by
  have hfield : (field, a) ∈ shape.recognized members :=
    List.mem_filterMap.2 ⟨_, hmem, by rw [hof]; rfl⟩
  rw [Tells] at h
  generalize shape.recognized members = told at h hfield
  induction h with
  | nil => cases hfield
  | cons hhead _ ih =>
      rcases List.mem_cons.1 hfield with rfl | hrest
      · exact ⟨_, hhead.2⟩
      · exact ih hrest

/-- Where members are read and their texts agree, so do those of the fields. -/
theorem tells_congr {β : Type} {textOf' : β → Option String → Prop} {members' : List (String × β)}
    (h : List.Forall₂ (fun member member' => member.1 = member'.1 ∧
      ∀ text, textOf member.2 text ↔ textOf' member'.2 text) members members') :
    shape.Tells textOf members given ↔ shape.Tells textOf' members' given := by
  induction h generalizing given with
  | nil => simp [Tells, recognized]
  | @cons member member' members members' hhead _ ih =>
      rcases member with ⟨key, a⟩
      rcases member' with ⟨key', b⟩
      rcases hhead with ⟨hkey, htext⟩
      cases hkey
      cases hof : shape.ofKey? key with
      | none => rw [tells_cons_of_none hof, tells_cons_of_none hof, ih]
      | some field => simp only [tells_cons_of_some hof, htext, ih]

theorem fields_recognized (members : List (String × α)) :
    (shape.recognized members).map Prod.fst = (members.map Prod.fst).filterMap shape.ofKey? := by
  simp [recognized, List.map_filterMap, List.filterMap_map, Function.comp_def]

end Tells

section Lookup

variable [BEq φ] [LawfulBEq φ] {given given' : Given φ} {field : φ} {text : Option String}

theorem lookup_eq_none_iff_notMem : given.lookup field = none ↔ field ∉ given.map Prod.fst := by
  rw [List.lookup_eq_none_iff]
  simp only [bne_iff_ne, List.mem_map, not_exists, not_and]
  constructor
  · rintro h p hp rfl
    exact h p hp rfl
  · rintro h p hp rfl
    exact h p hp rfl

theorem nodup_concat (hgiven : (given.map Prod.fst).Nodup) (h : given.lookup field = none) :
    ((given ++ [(field, text)]).map Prod.fst).Nodup := by
  rw [List.map_append, List.map_singleton, ← List.concat_eq_append]
  exact hgiven.concat (lookup_eq_none_iff_notMem.1 h)

omit [BEq φ] [LawfulBEq φ] in
theorem notMem_of_nodup {a : α} {front back : List (φ × α)}
    (h : ((front ++ (field, a) :: back).map Prod.fst).Nodup) : field ∉ front.map Prod.fst := by
  rw [List.map_append, List.map_cons, List.nodup_middle, List.nodup_cons] at h
  exact fun hmem => h.1 (List.mem_append_left _ hmem)

theorem lookup_of_nodup {others : Given φ}
    (h : ((given ++ (field, text) :: others).map Prod.fst).Nodup) : given.lookup field = none :=
  lookup_eq_none_iff_notMem.2 (notMem_of_nodup h)

theorem lookup_eq_some_iff_mem (h : (given.map Prod.fst).Nodup) :
    given.lookup field = some text ↔ (field, text) ∈ given := by
  rw [List.lookup_eq_some_iff]
  constructor
  · rintro ⟨front, back, rfl, _⟩
    simp
  · intro hmem
    rcases List.append_of_mem hmem with ⟨front, back, rfl⟩
    refine ⟨front, back, rfl, ?_⟩
    intro p hp
    rw [bne_iff_ne]
    rintro rfl
    exact notMem_of_nodup h (List.mem_map.2 ⟨p, hp, rfl⟩)

/-- The order of fields that are given once does not count. -/
theorem lookup_eq_of_perm (h : (given.map Prod.fst).Nodup) (hperm : given.Perm given') (field : φ) :
    given.lookup field = given'.lookup field := by
  have h' : (given'.map Prod.fst).Nodup := (hperm.map _).nodup_iff.1 h
  refine Option.ext fun text => ?_
  rw [lookup_eq_some_iff_mem h, lookup_eq_some_iff_mem h', hperm.mem_iff]

omit [LawfulBEq φ] in
theorem missing?_congr (h : ∀ field, given.lookup field = given'.lookup field) :
    shape.missing? given = shape.missing? given' := by
  simp only [missing?, h]

end Lookup

/-! ## One pass -/

section OnePass

variable {given given' : Given φ} {text : Option String}

theorem refuseValue_ne_ok {wanted : Wanted} {b : UInt8} {rest : Bytes} {a : α} :
    refuseValue wanted b rest ≠ .ok a := by
  intro h
  unfold refuseValue at h
  split at h
  · cases h
  · split at h
    · cases h
    · split at h <;> cases h

/-- The values without brackets. Only a text starts with a quote, and only nothing with the first
letter of its name. -/
theorem of_readScalar {b : UInt8} {bs rest : Bytes} {value : Value}
    (h : readScalar b bs = .ok (value, rest)) :
    (value = .null ∧ b = Byte.lowerN) ∨ (∃ x, value = .boolean x) ∨
      (∃ s, value = .text s ∧ b = Byte.quote) ∨ ∃ n, value = .number n := by
  unfold readScalar at h
  split at h
  · rename_i hb
    rcases map_eq_ok_iff.1 h with ⟨_, _, heq⟩
    cases heq
    exact .inl ⟨rfl, hb⟩
  · split at h
    · rcases map_eq_ok_iff.1 h with ⟨_, _, heq⟩
      cases heq
      exact .inr (.inl ⟨true, rfl⟩)
    · split at h
      · rcases map_eq_ok_iff.1 h with ⟨_, _, heq⟩
        cases heq
        exact .inr (.inl ⟨false, rfl⟩)
      · split at h
        · rename_i hb
          rcases map_eq_ok_iff.1 h with ⟨p, _, heq⟩
          cases heq
          exact .inr (.inr (.inl ⟨p.1, rfl, hb⟩))
        · split at h
          · rcases map_eq_ok_iff.1 h with ⟨p, _, heq⟩
            cases heq
            exact .inr (.inr (.inr ⟨p.1, rfl⟩))
          · cases h

/-- A field is read where the value of a text is, or perhaps that of nothing. -/
theorem readField_eq_ok_iff {bs rest : Bytes} (depth : Nat) :
    shape.readField bs = .ok (text, rest) ↔
      ∃ value, readValue (depth + 2) bs = .ok (value, rest) ∧ shape.fieldOf value = .ok text := by
  rcases hblanks : skipBlanks bs with _ | ⟨b, after⟩
  · simp [readField, readValue, hblanks, refuseAt]
  · by_cases hquote : b = Byte.quote
    · subst hquote
      rw [readValue_scalar hblanks (by decide) (by decide)]
      have hscalar : readScalar Byte.quote after = (readText after).map fun p => (.text p.1, p.2) := rfl
      rw [readField, hblanks, hscalar]
      simp only [if_true]
      constructor
      · intro h
        rcases map_eq_ok_iff.1 h with ⟨⟨s, rest'⟩, htext, heq⟩
        cases heq
        exact ⟨.text s, map_eq_ok_iff.2 ⟨_, htext, rfl⟩, rfl⟩
      · rintro ⟨value, hvalue, hfield⟩
        rcases map_eq_ok_iff.1 hvalue with ⟨⟨s, rest'⟩, htext, heq⟩
        cases heq
        cases hfield
        exact map_eq_ok_iff.2 ⟨_, htext, rfl⟩
    · by_cases hnull : shape.optional = true ∧ b = Byte.lowerN
      · rcases hnull with ⟨hoptional, rfl⟩
        rw [readValue_scalar hblanks (by decide) (by decide)]
        have hscalar : readScalar Byte.lowerN after
            = (readName nullTail after).map fun rest => (.null, rest) := rfl
        rw [readField, hblanks, hscalar]
        simp only [if_neg hquote, hoptional, and_self, if_true]
        constructor
        · intro h
          rcases map_eq_ok_iff.1 h with ⟨rest', hname, heq⟩
          cases heq
          refine ⟨.null, map_eq_ok_iff.2 ⟨_, hname, rfl⟩, ?_⟩
          rw [fieldOf, if_pos hoptional]
        · rintro ⟨value, hvalue, hfield⟩
          rcases map_eq_ok_iff.1 hvalue with ⟨rest', hname, heq⟩
          cases heq
          rw [fieldOf, if_pos hoptional] at hfield
          cases hfield
          exact map_eq_ok_iff.2 ⟨_, hname, rfl⟩
      · -- any other value is refused both ways
        rw [readField, hblanks]
        simp only [if_neg hquote, if_neg hnull]
        constructor
        · intro h
          exact absurd h refuseValue_ne_ok
        · rintro ⟨value, hvalue, hfield⟩
          exfalso
          by_cases hlist : b = Byte.openList
          · subst hlist
            rw [readValue_items hblanks] at hvalue
            rcases map_eq_ok_iff.1 hvalue with ⟨_, _, heq⟩
            cases heq
            cases hfield
          · by_cases hobject : b = Byte.openObject
            · subst hobject
              rw [readValue_members hblanks] at hvalue
              rcases map_eq_ok_iff.1 hvalue with ⟨_, _, heq⟩
              cases heq
              cases hfield
            · rw [readValue_scalar hblanks hlist hobject] at hvalue
              rcases of_readScalar hvalue with ⟨rfl, hb⟩ | ⟨x, rfl⟩ | ⟨s, rfl, hb⟩ | ⟨n, rfl⟩
              · rw [fieldOf] at hfield
                split at hfield
                · rename_i hoptional
                  exact hnull ⟨hoptional, hb⟩
                · cases hfield
              · cases hfield
              · exact hquote hb
              · cases hfield

/-- A field that is read is skimmed to the same place. -/
theorem skimValue_of_readField {bs rest : Bytes} (h : shape.readField bs = .ok (text, rest)) :
    skimValue bs = .ok rest := by
  rcases (readField_eq_ok_iff 0).1 h with ⟨value, hvalue, _⟩
  exact (skimmedAs_readValue 2).skimValue_eq hvalue

variable [BEq φ] [LawfulBEq φ]

/-- What one member of an object does to the fields given before it. -/
theorem readMember_eq_ok_iff {bs rest : Bytes} :
    shape.readMember given bs = .ok (given', rest) ↔
      ∃ key start, readKey bs = .ok (key, start) ∧ skimValue start = .ok rest ∧
        match shape.ofKey? key with
        | none => given' = given
        | some field => given.lookup field = none ∧
          ∃ text, shape.readField start = .ok (text, rest) ∧ given' = given ++ [(field, text)] := by
  unfold readMember readKey
  rcases readText bs with fault | ⟨key, mid⟩
  · simp [bind, Except.bind]
  · simp only [bind, Except.bind]
    rcases hcolon : readColon mid with fault | start
    · cases hkey : shape.ofKey? key with
      | none => simp
      | some field =>
          dsimp only
          split <;> simp
    · dsimp only
      cases hkey : shape.ofKey? key with
      | none =>
          dsimp only
          constructor
          · intro h
            split at h
            · cases h
            · rename_i hskim
              cases h
              exact ⟨key, start, rfl, hskim, by rw [hkey]⟩
          · rintro ⟨key', start', heq, hskim, hgiven⟩
            cases heq
            rw [hkey] at hgiven
            rw [hskim, hgiven]
      | some field =>
          dsimp only
          constructor
          · intro h
            split at h
            · cases h
            · rename_i hnew
              split at h
              · cases h
              · rename_i text rest' hfield
                cases h
                refine ⟨key, start, rfl, skimValue_of_readField hfield, ?_⟩
                rw [hkey]
                exact ⟨Option.not_isSome_iff_eq_none.1 hnew, text, hfield, rfl⟩
          · rintro ⟨key', start', heq, _, hgiven⟩
            cases heq
            rw [hkey] at hgiven
            rcases hgiven with ⟨hnew, text, hfield, rfl⟩
            simp only [hnew, Option.isSome_none, Bool.false_eq_true, if_false, hfield]

/-- A field may be read at a place. -/
def ReadsText (shape : Shape φ) (start : Bytes) (text : Option String) : Prop :=
  ∃ rest, shape.readField start = .ok (text, rest)

omit [LawfulBEq φ] in
/-- An object ends, or goes on with a member. -/
theorem readByKey_cons_iff {x : UInt8} {bound bs rest : Bytes} {first : Bool} :
    shape.readByKey (x :: bound) first given bs = .ok (given', rest) ↔
      (nextMember first bs = .ok (false, rest) ∧ given' = given ∧ shape.missing? given = none) ∨
      ∃ start given₁ mid, nextMember first bs = .ok (true, start) ∧
        shape.readMember given (start.drop 1) = .ok (given₁, mid) ∧
          shape.readByKey bound false given₁ mid = .ok (given', rest) := by
  rw [readByKey]
  constructor
  · intro h
    rcases hnext : nextMember first bs with fault | ⟨_ | _, start⟩
    · rw [hnext] at h
      cases h
    · rw [hnext] at h
      dsimp only at h
      split at h
      · cases h
      · rename_i hmissing
        cases h
        exact .inl ⟨rfl, rfl, hmissing⟩
    · rw [hnext] at h
      dsimp only at h
      split at h
      · cases h
      · rename_i given₁ mid hmember
        exact .inr ⟨start, given₁, mid, rfl, hmember, h⟩
  · rintro (⟨hnext, rfl, hmissing⟩ | ⟨start, given₁, mid, hnext, hmember, h⟩)
    · rw [hnext]
      simp only [hmissing]
    · rw [hnext]
      simp only [hmember]
      exact h

/-- The members of an object are read when it has an outline in which no field comes twice. -/
theorem readByKey_eq_ok_iff {bound bs rest : Bytes} {first : Bool}
    (hgiven : (given.map Prod.fst).Nodup) :
    shape.readByKey bound first given bs = .ok (given', rest) ↔
      ∃ places new after, membersFrom skimItem bound first bs = .ok (places, after) ∧
        rest = Byte.closeObject :: after ∧ given' = given ++ new ∧
          shape.Tells shape.ReadsText places new ∧ (given'.map Prod.fst).Nodup ∧
            shape.missing? given' = none := by
  induction bound generalizing first given bs with
  | nil =>
      constructor
      · intro h
        cases h
      · rintro ⟨places, new, after, h, _⟩
        cases h
  | cons x bound ih =>
      simp only [membersFrom_cons_iff]
      rw [readByKey_cons_iff]
      constructor
      · rintro (⟨hnext, rfl, hmissing⟩ | ⟨start, given₁, mid, hnext, hmember, h⟩)
        · rcases (of_nextMember hnext).2 rfl with ⟨after, rfl⟩
          exact ⟨[], [], after, .inl ⟨_, hnext, rfl, rfl⟩, rfl, by simp, .nil, hgiven, hmissing⟩
        · rcases readMember_eq_ok_iff.1 hmember with ⟨key, value, hkey, hskim, hfield⟩
          have hplace := memberFrom_skimItem_iff.2 ⟨hkey, hskim⟩
          cases hof : shape.ofKey? key with
          | none =>
              -- the value was skimmed, and nothing is given by it
              rw [hof] at hfield
              subst hfield
              rcases (ih hgiven).1 h with ⟨places, new, after, hplaces, hrest, heq, htells, hend⟩
              exact ⟨(key, value) :: places, new, after,
                .inr ⟨start, _, mid, places, hnext, hplace, hplaces, rfl⟩, hrest, heq,
                (tells_cons_of_none hof).2 htells, hend⟩
          | some field =>
              rw [hof] at hfield
              rcases hfield with ⟨hnew, text, hread, rfl⟩
              rcases (ih (nodup_concat hgiven hnew)).1 h with
                ⟨places, new, after, hplaces, hrest, heq, htells, hend⟩
              exact ⟨(key, value) :: places, (field, text) :: new, after,
                .inr ⟨start, _, mid, places, hnext, hplace, hplaces, rfl⟩, hrest,
                heq.trans (List.append_cons _ _ _).symm,
                (tells_cons_of_some hof).2 ⟨text, new, ⟨mid, hread⟩, rfl, htells⟩, hend⟩
      · rintro ⟨all, new, after,
          ⟨mid, hnext, rfl, rfl⟩ | ⟨start, ⟨key, value⟩, mid, places, hnext, hplace, hplaces, rfl⟩,
          hrest, heq, htells, hnodup, hmissing⟩
        · rcases (of_nextMember hnext).2 rfl with ⟨after, rfl⟩
          cases htells
          rw [List.append_nil] at heq
          subst heq
          subst hrest
          exact .inl ⟨hnext, rfl, hmissing⟩
        · rcases memberFrom_skimItem_iff.1 hplace with ⟨hkey, hskim⟩
          cases hof : shape.ofKey? key with
          | none =>
              have hmember : shape.readMember given (start.drop 1) = .ok (given, mid) :=
                readMember_eq_ok_iff.2 ⟨key, value, hkey, hskim, by rw [hof]⟩
              rw [tells_cons_of_none hof] at htells
              refine .inr ⟨start, given, mid, hnext, hmember, (ih hgiven).2 ?_⟩
              exact ⟨places, new, after, hplaces, hrest, heq, htells, hnodup, hmissing⟩
          | some field =>
              rcases (tells_cons_of_some hof).1 htells with
                ⟨text, others, ⟨rest', hread⟩, rfl, hothers⟩
              -- the field is read up to where the outline goes on
              have hskim' := skimValue_of_readField hread
              rw [hskim] at hskim'
              cases hskim'
              have hnew : given.lookup field = none := lookup_of_nodup (heq ▸ hnodup)
              have hmember : shape.readMember given (start.drop 1)
                  = .ok (given ++ [(field, text)], mid) :=
                readMember_eq_ok_iff.2
                  ⟨key, value, hkey, hskim, by rw [hof]; exact ⟨hnew, text, hread, rfl⟩⟩
              have heq' : given' = (given ++ [(field, text)]) ++ others :=
                heq.trans (List.append_cons _ _ _)
              refine .inr ⟨start, _, mid, hnext, hmember, (ih (nodup_concat hgiven hnew)).2 ?_⟩
              exact ⟨places, others, after, hplaces, hrest, heq', hothers, hnodup, hmissing⟩

end OnePass

/-! ## From a value -/

section FromValue

variable [BEq φ] [LawfulBEq φ] {given given' : Given φ} {members members' : List (String × Value)}

/-- The text of a field that a value gives. -/
def HasText (shape : Shape φ) (value : Value) (text : Option String) : Prop :=
  shape.fieldOf value = .ok text

theorem ofMembers_eq_ok_iff (hgiven : (given.map Prod.fst).Nodup) :
    shape.ofMembers given members = .ok given' ↔
      ∃ new, given' = given ++ new ∧ shape.Tells shape.HasText members new ∧
        (given'.map Prod.fst).Nodup := by
  induction members generalizing given with
  | nil =>
      constructor
      · intro h
        cases h
        exact ⟨[], by simp, .nil, hgiven⟩
      · rintro ⟨new, rfl, htells, _⟩
        cases htells
        rw [ofMembers, List.append_nil]
  | cons member members ih =>
      rcases member with ⟨key, value⟩
      rw [ofMembers]
      cases hof : shape.ofKey? key with
      | none =>
          simp only [tells_cons_of_none hof]
          exact ih hgiven
      | some field =>
          simp only [tells_cons_of_some hof]
          constructor
          · intro h
            split at h
            · cases h
            · rename_i hnew
              rw [Option.not_isSome_iff_eq_none] at hnew
              rcases bind_eq_ok_iff.1 h with ⟨text, hfield, h⟩
              rcases (ih (nodup_concat hgiven hnew)).1 h with ⟨new, rfl, htells, hnodup⟩
              exact ⟨(field, text) :: new, by simp, ⟨text, new, hfield, rfl, htells⟩, hnodup⟩
          · rintro ⟨_, heq, ⟨text, new, hfield, rfl, htells⟩, hnodup⟩
            rw [heq] at hnodup
            have hnew := lookup_of_nodup hnodup
            have heq' : given' = (given ++ [(field, text)]) ++ new :=
              heq.trans (List.append_cons _ _ _)
            simp only [hnew, Option.isSome_none, Bool.false_eq_true, if_false]
            refine bind_eq_ok_iff.2 ⟨text, hfield, (ih (nodup_concat hgiven hnew)).2 ?_⟩
            exact ⟨new, heq', htells, by rw [heq]; exact hnodup⟩

/-- The members of a whole object are taken when their texts are there and no field comes twice. -/
theorem ofMembers_nil_eq_ok_iff :
    shape.ofMembers [] members = .ok given ↔
      shape.Tells shape.HasText members given ∧ (given.map Prod.fst).Nodup := by
  have hnil : (([] : Given φ).map Prod.fst).Nodup := List.nodup_nil
  rw [ofMembers_eq_ok_iff hnil]
  constructor
  · rintro ⟨_, rfl, htells, hnodup⟩
    exact ⟨htells, hnodup⟩
  · rintro ⟨htells, hnodup⟩
    exact ⟨given, rfl, htells, hnodup⟩

/-- Objects with the same fields in another order give the same texts. -/
theorem ofMembers_of_perm (hperm : (shape.recognized members).Perm (shape.recognized members'))
    (h : shape.ofMembers [] members = .ok given) :
    ∃ given', shape.ofMembers [] members' = .ok given' ∧
      ∀ field, given'.lookup field = given.lookup field := by
  rcases ofMembers_nil_eq_ok_iff.1 h with ⟨htells, hnodup⟩
  rcases List.perm_comp_forall₂ hperm.symm htells with ⟨given', htells', hgiven⟩
  have hnodup' : (given'.map Prod.fst).Nodup := (hgiven.map _).nodup_iff.2 hnodup
  refine ⟨given', ofMembers_nil_eq_ok_iff.2 ⟨htells', hnodup'⟩, ?_⟩
  exact lookup_eq_of_perm hnodup' hgiven

variable {key : String}

omit [BEq φ] [LawfulBEq φ] in
theorem recognized_insert_of_none (h : shape.ofKey? key = none) (value : Value)
    (all : List (String × Value)) :
    shape.recognized (Value.insert key value all) = shape.recognized all := by
  induction all with
  | nil => simp [Value.insert, recognized, h]
  | cons member all ih =>
      rcases member with ⟨k, v⟩
      rw [Value.insert]
      split
      · simp [recognized, h]
      · split
        · -- what is replaced had the same key, and did not count either
          rename_i hk
          simp [recognized, ← hk, h]
        · have hcons : ∀ members : List (String × Value), shape.recognized ((k, v) :: members)
              = ((shape.ofKey? k).map fun field => (field, v)).toList ++ shape.recognized members := by
            intro members
            cases hof : shape.ofKey? k <;> simp [recognized, hof]
          rw [hcons, hcons, ih]

omit [BEq φ] [LawfulBEq φ] in
theorem recognized_insert_of_some {field : φ} (h : shape.ofKey? key = some field)
    (value : Value) {all : List (String × Value)} (hnew : field ∉ (shape.recognized all).map Prod.fst) :
    (shape.recognized (Value.insert key value all)).Perm ((field, value) :: shape.recognized all) := by
  induction all with
  | nil => simp [Value.insert, recognized, h]
  | cons member all ih =>
      rcases member with ⟨k, v⟩
      rw [Value.insert]
      split
      · simp [recognized, h]
      · split
        · rename_i hk
          subst hk
          simp [recognized, h] at hnew
        · cases hof : shape.ofKey? k with
          | none =>
              simp only [recognized, List.filterMap_cons, hof, Option.map_none] at ih hnew ⊢
              exact ih hnew
          | some field' =>
              simp only [recognized, List.filterMap_cons, hof, Option.map_some] at ih hnew ⊢
              rw [List.map_cons, List.mem_cons, not_or] at hnew
              exact ((ih hnew.2).cons _).trans (List.Perm.swap _ _ _)

omit [BEq φ] [LawfulBEq φ] in
/-- An object keeps the members whose keys name fields, if no field comes twice. -/
theorem recognized_foldl_insert {all : List (String × Value)}
    (h : ((shape.recognized all ++ shape.recognized members).map Prod.fst).Nodup) :
    (shape.recognized (members.foldl (fun all (key, value) => Value.insert key value all) all)).Perm
      (shape.recognized all ++ shape.recognized members) := by
  induction members generalizing all with
  | nil => simp [recognized]
  | cons member members ih =>
      rcases member with ⟨key, value⟩
      rw [List.foldl_cons]
      cases hof : shape.ofKey? key with
      | none =>
          have hcons : shape.recognized ((key, value) :: members) = shape.recognized members := by
            simp [recognized, hof]
          rw [hcons] at h ⊢
          rw [← recognized_insert_of_none hof value all] at h ⊢
          exact ih h
      | some field =>
          have hcons : shape.recognized ((key, value) :: members)
              = (field, value) :: shape.recognized members := by
            simp [recognized, hof]
          rw [hcons] at h ⊢
          -- the field is a new one, so the member replaces none that counts
          have hinsert := recognized_insert_of_some hof value (notMem_of_nodup h)
          have hmoved : (shape.recognized (Value.insert key value all)
              ++ shape.recognized members).Perm
              (shape.recognized all ++ (field, value) :: shape.recognized members) :=
            (hinsert.append_right _).trans List.perm_middle.symm
          exact (ih ((hmoved.map _).nodup_iff.2 h)).trans hmoved

omit [BEq φ] [LawfulBEq φ] in
theorem recognized_object (h : ((shape.recognized members).map Prod.fst).Nodup) :
    (shape.recognized (members.foldl (fun all (key, value) => Value.insert key value all) [])).Perm
      (shape.recognized members) :=
  recognized_foldl_insert h

end FromValue

end Shape

end GreetingService.Json
