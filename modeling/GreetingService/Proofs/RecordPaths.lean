import GreetingService.Proofs.RecordFields
import GreetingService.Request

/-!
# The two ways to a record

A record can be read from a document in one pass, or taken from the value of the document. The two
ways give the same record whenever both give one. They can differ only if the document is an object
that gives a field twice, or one in which a member that nobody asked for has a value that can be
skimmed but not be read.
-/

namespace GreetingService.Json

open Results

namespace Shape

variable {φ : Type} {shape : Shape φ}

/-! ## Records written as lists -/

section Lists

variable {given given' : Given φ}

theorem nextItem_eq_false_iff {first : Bool} {bs rest : Bytes} :
    nextItem first bs = .ok (false, rest) ↔
      ∃ after, rest = Byte.closeList :: after ∧ skipBlanks bs = rest := by
  constructor
  · intro h
    exact (of_nextItem h).2 rfl
  · rintro ⟨after, rfl, hblanks⟩
    rw [nextItem, hblanks]
    exact if_pos rfl

theorem readClose_list_eq_ok_iff {bs rest : Bytes} :
    readClose .list bs = .ok rest ↔ skipBlanks bs = Byte.closeList :: rest := by
  unfold readClose
  rcases skipBlanks bs with _ | ⟨b, after⟩
  · simp [refuseAt]
  · dsimp only
    constructor
    · intro h
      split at h
      · rename_i hclose
        cases h
        rw [hclose]
        rfl
      · split at h
        · split at h
          · split at h <;> cases h
          · cases h
        · cases h
    · intro heq
      cases heq
      exact if_pos rfl

theorem close_ok_eq_ok_iff {bs rest : Bytes} :
    close .list (.ok (given, bs)) = .ok (given', rest) ↔
      given' = given ∧ skipBlanks bs = Byte.closeList :: rest := by
  rw [close, map_eq_ok_iff, ← readClose_list_eq_ok_iff]
  constructor
  · rintro ⟨rest', hclose, heq⟩
    cases heq
    exact ⟨rfl, hclose⟩
  · rintro ⟨rfl, hclose⟩
    exact ⟨rest, hclose, rfl⟩

theorem close_error_ne_ok {bracket : Bracket} {refusal : Refusal} {p : Given φ × Bytes} :
    close bracket (.error refusal) ≠ .ok p := by
  cases refusal <;> exact nofun

theorem tooFew?_of_le {count : Nat} (h : shape.fields.length ≤ count) :
    shape.tooFew? count = none := by
  rw [tooFew?, if_pos (.inr h)]

/-- A list ends before the next field, or goes on with its text. -/
theorem close_readInOrder_cons_iff {field : φ} {fields : List φ} {bs rest : Bytes} :
    close .list (shape.readInOrder (field :: fields) given bs) = .ok (given', rest) ↔
      (∃ mid, nextItem given.isEmpty bs = .ok (false, mid) ∧ given' = given ∧ rest = mid.drop 1 ∧
        shape.tooFew? given.length = none) ∨
      ∃ start text mid, nextItem given.isEmpty bs = .ok (true, start) ∧
        shape.readField start = .ok (text, mid) ∧
          close .list (shape.readInOrder fields (given ++ [(field, text)]) mid)
            = .ok (given', rest) := by
  rw [readInOrder]
  constructor
  · intro h
    rcases hnext : nextItem given.isEmpty bs with fault | ⟨_ | _, start⟩
    · rw [hnext] at h
      exact absurd h close_error_ne_ok
    · rw [hnext] at h
      dsimp only at h
      split at h
      · exact absurd h close_error_ne_ok
      · rename_i hcount
        rcases nextItem_eq_false_iff.1 hnext with ⟨after, rfl, _⟩
        rcases close_ok_eq_ok_iff.1 h with ⟨rfl, hclose⟩
        cases hclose
        exact .inl ⟨_, rfl, rfl, rfl, hcount⟩
    · rw [hnext] at h
      dsimp only at h
      rcases hfield : shape.readField start with fault | ⟨text, mid⟩
      · rw [hfield] at h
        exact absurd h close_error_ne_ok
      · rw [hfield] at h
        exact .inr ⟨start, text, mid, rfl, hfield, h⟩
  · rintro (⟨mid, hnext, rfl, rfl, hcount⟩ | ⟨start, text, mid, hnext, hfield, h⟩)
    · rcases nextItem_eq_false_iff.1 hnext with ⟨after, rfl, _⟩
      rw [hnext]
      simp only [hcount]
      exact close_ok_eq_ok_iff.2 ⟨rfl, rfl⟩
    · rw [hnext]
      simp only [hfield]
      exact h

/-- The items of a list are read as fields when they are as many as that at most. -/
theorem close_readInOrder_iff (depth : Nat) {fields : List φ} {bound bs rest : Bytes}
    (hbound : bs.length ≤ bound.length)
    (hfields : given.length + fields.length = shape.fields.length) :
    close .list (shape.readInOrder fields given bs) = .ok (given', rest) ↔
      ∃ items new, itemsFrom (readValue (depth + 2)) bound given.isEmpty bs = .ok (items, rest) ∧
        shape.ofItems fields items = .ok new ∧ given' = given ++ new ∧
          items.length ≤ fields.length ∧ shape.tooFew? (given.length + items.length) = none := by
  induction fields generalizing given bound bs with
  | nil =>
      -- all fields have been read, and the list must end here
      rw [List.length_nil, Nat.add_zero] at hfields
      rw [readInOrder, close_ok_eq_ok_iff]
      cases bound with
      | nil =>
          rw [List.eq_nil_of_length_eq_zero (Nat.le_zero.1 hbound)]
          constructor
          · rintro ⟨_, hclose⟩
            cases hclose
          · rintro ⟨_, _, hitems, _⟩
            cases hitems
      | cons x bound =>
          simp only [itemsFrom_cons_iff]
          constructor
          · rintro ⟨rfl, hclose⟩
            refine ⟨[], [], .inl ⟨Byte.closeList :: rest, ?_, rfl, rfl⟩, rfl, by simp, Nat.le_refl _,
              tooFew?_of_le hfields.ge⟩
            exact nextItem_eq_false_iff.2 ⟨rest, rfl, hclose⟩
          · rintro ⟨items, new, ⟨mid, hnext, rfl, rfl⟩ | ⟨_, _, _, _, _, _, _, rfl⟩, hnew, rfl, hle, _⟩
            · rcases nextItem_eq_false_iff.1 hnext with ⟨after, rfl, hclose⟩
              cases hnew
              exact ⟨by simp, hclose⟩
            · cases hle
  | cons field fields ih =>
      rw [close_readInOrder_cons_iff]
      cases bound with
      | nil =>
          rw [List.eq_nil_of_length_eq_zero (Nat.le_zero.1 hbound)]
          constructor
          · rintro (⟨mid, hnext, _⟩ | ⟨start, text, mid, hnext, _⟩) <;> cases hnext
          · rintro ⟨_, _, hitems, _⟩
            cases hitems
      | cons x bound =>
          simp only [itemsFrom_cons_iff]
          -- what is left behind an item needs fewer rounds, and fewer fields are left for it
          have hmid : ∀ {start item mid}, nextItem given.isEmpty bs = .ok (true, start) →
              readValue (depth + 2) start = .ok (item, mid) → mid.length ≤ bound.length := by
            intro start item mid hnext hread
            have hstart := (of_nextItem hnext).1
            have hlt := (skimmedAs_readValue _).length_lt hread
            rw [List.length_cons] at hbound
            omega
          have hlength : ∀ text n, (given ++ [(field, text)]).length + n = given.length + (n + 1) := by
            intro text n
            rw [List.length_append, List.length_singleton]
            omega
          have hshift : ∀ text, (given ++ [(field, text)]).length + fields.length
              = shape.fields.length := fun text => (hlength text _).trans hfields
          have hfirst : ∀ text, (given ++ [(field, text)]).isEmpty = false := by
            intro text
            rw [List.isEmpty_eq_false_iff]
            simp
          constructor
          · rintro (⟨mid, hnext, rfl, rfl, hcount⟩ | ⟨start, text, mid, hnext, hfield, h⟩)
            · exact ⟨[], [], .inl ⟨mid, hnext, rfl, rfl⟩, rfl, by simp, Nat.zero_le _, hcount⟩
            · rcases (readField_eq_ok_iff depth).1 hfield with ⟨item, hread, htext⟩
              rcases (ih (hmid hnext hread) (hshift text)).1 h with
                ⟨items, new, hitems, hnew, heq, hle, hcount⟩
              rw [hfirst] at hitems
              rw [hlength] at hcount
              refine ⟨item :: items, (field, text) :: new,
                .inr ⟨start, item, mid, items, hnext, hread, hitems, rfl⟩, ?_, ?_,
                Nat.succ_le_succ hle, hcount⟩
              · exact bind_eq_ok_iff.2 ⟨text, htext, bind_eq_ok_iff.2 ⟨new, hnew, rfl⟩⟩
              · exact heq.trans (List.append_cons _ _ _).symm
          · rintro ⟨all, told,
              ⟨mid, hnext, rfl, rfl⟩ | ⟨start, item, mid, items, hnext, hread, hitems, rfl⟩,
              htold, heq, hle, hcount⟩
            · cases htold
              rw [List.append_nil] at heq
              exact .inl ⟨mid, hnext, heq, rfl, hcount⟩
            · rcases bind_eq_ok_iff.1 htold with ⟨text, htext, htold⟩
              rcases bind_eq_ok_iff.1 htold with ⟨new, hnew, hpure⟩
              cases hpure
              rw [← hfirst text] at hitems
              rw [List.length_cons, ← hlength text] at hcount
              have heq' : given' = (given ++ [(field, text)]) ++ new :=
                heq.trans (List.append_cons _ _ _)
              refine .inr ⟨start, text, mid, hnext, (readField_eq_ok_iff depth).2 ⟨item, hread, htext⟩,
                (ih (hmid hnext hread) (hshift text)).2 ?_⟩
              exact ⟨items, new, hitems, hnew, heq', Nat.le_of_succ_le_succ hle, hcount⟩

theorem ofValue_list_eq_ok_iff [BEq φ] {items : List Value} :
    shape.ofValue (.list items) = .ok given ↔
      shape.ofItems shape.fields items = .ok given ∧ items.length ≤ shape.fields.length ∧
        shape.tooFew? items.length = none := by
  rw [ofValue, bind_eq_ok_iff]
  constructor
  · rintro ⟨given', hitems, h⟩
    split at h
    · cases h
    · rename_i hcount
      split at h
      · cases h
      · rename_i hle
        cases h
        exact ⟨hitems, Nat.le_of_not_lt hle, hcount⟩
  · rintro ⟨hitems, hle, hcount⟩
    refine ⟨given, hitems, ?_⟩
    simp only [hcount, if_neg (Nat.not_lt_of_le hle)]
    rfl

/-- A list is read as a record when its value is one. -/
theorem read_list_eq_ok_iff [BEq φ] (depth : Nat) {bs after rest : Bytes}
    (h : skipBlanks bs = Byte.openList :: after) :
    shape.read bs = .ok (given, rest) ↔
      ∃ items, readValue (depth + 3) bs = .ok (.list items, rest) ∧
        shape.ofValue (.list items) = .ok given := by
  have hfields : ([] : Given φ).length + shape.fields.length = shape.fields.length := Nat.zero_add _
  have hread : shape.read bs = close .list (shape.readInOrder shape.fields [] after) := by
    rw [read, h]
    rfl
  rw [hread, close_readInOrder_iff depth (Nat.le_refl _) hfields, readValue_items h]
  constructor
  · rintro ⟨items, new, hitems, hnew, rfl, hle, hcount⟩
    rw [List.length_nil, Nat.zero_add] at hcount
    exact ⟨items, map_eq_ok_iff.2 ⟨_, hitems, rfl⟩, ofValue_list_eq_ok_iff.2 ⟨hnew, hle, hcount⟩⟩
  · rintro ⟨items, hvalue, hof⟩
    rcases map_eq_ok_iff.1 hvalue with ⟨p, hitems, heq⟩
    cases heq
    rcases ofValue_list_eq_ok_iff.1 hof with ⟨hnew, hle, hcount⟩
    refine ⟨p.1, given, hitems, hnew, rfl, hle, ?_⟩
    rw [List.length_nil, Nat.zero_add]
    exact hcount

end Lists

/-! ## Records written as objects -/

section Objects

variable {given given' : Given φ}

/-- The fields that the members of the object in a document name, in the order of the text. -/
def named (shape : Shape φ) (document : Bytes) : List φ :=
  ((outline document).map Prod.fst).filterMap shape.ofKey?

theorem readClose_object (rest : Bytes) :
    readClose .object (Byte.closeObject :: rest) = .ok rest :=
  rfl

theorem outline_eq {bs after rest : Bytes} {places : List (String × Bytes)}
    (h : skipBlanks bs = Byte.openObject :: after)
    (hplaces : membersFrom skimItem after true after = .ok (places, rest)) : outline bs = places := by
  rw [outline, h]
  simp only [if_true, readMembers_eq, List.isEmpty_nil, hplaces]
  rfl

theorem outline_eq_nil {b : UInt8} {bs after : Bytes} (h : skipBlanks bs = b :: after)
    (hne : b ≠ Byte.openObject) : outline bs = [] := by
  rw [outline, h]
  exact if_neg hne

/-- An object is read as a record by its outline. -/
theorem read_object_eq_ok_iff [BEq φ] [LawfulBEq φ] {bs after rest : Bytes}
    (h : skipBlanks bs = Byte.openObject :: after) :
    shape.read bs = .ok (given, rest) ↔
      ∃ places, membersFrom skimItem after true after = .ok (places, rest) ∧
        shape.Tells shape.ReadsText places given ∧ (given.map Prod.fst).Nodup ∧
          shape.missing? given = none := by
  have hnil : (([] : Given φ).map Prod.fst).Nodup := List.nodup_nil
  have hread : shape.read bs = close .object (shape.readByKey after true [] after) := by
    rw [read, h]
    rfl
  rw [hread]
  constructor
  · intro hclose
    rcases hinside : shape.readByKey after true [] after with refusal | ⟨given₁, mid⟩
    · rw [hinside] at hclose
      exact absurd hclose close_error_ne_ok
    · rcases (readByKey_eq_ok_iff hnil).1 hinside with
        ⟨places, new, after', hplaces, rfl, heq, htells, hnodup, hmissing⟩
      rw [hinside, close, readClose_object] at hclose
      cases hclose
      rw [List.nil_append] at heq
      rw [← heq] at htells
      exact ⟨places, hplaces, htells, hnodup, hmissing⟩
  · rintro ⟨places, hplaces, htells, hnodup, hmissing⟩
    have hinside : shape.readByKey after true [] after = .ok (given, Byte.closeObject :: rest) :=
      (readByKey_eq_ok_iff hnil).2
        ⟨places, given, rest, hplaces, rfl, rfl, htells, hnodup, hmissing⟩
    rw [hinside, close, readClose_object]
    rfl

theorem ofValue_object_eq_ok_iff [BEq φ] {members : List (String × Value)} :
    shape.ofValue (.object members) = .ok given ↔
      shape.ofMembers [] members = .ok given ∧ shape.missing? given = none := by
  rw [ofValue, bind_eq_ok_iff]
  constructor
  · rintro ⟨given', hmembers, h⟩
    split at h
    · cases h
    · rename_i hmissing
      cases h
      exact ⟨hmembers, hmissing⟩
  · rintro ⟨hmembers, hmissing⟩
    refine ⟨given, hmembers, ?_⟩
    simp only [hmissing]
    rfl

/-- Where the members of an object are read, the texts of its fields are those of their values. -/
theorem tells_of_isReadAs (depth : Nat) {places : List (String × Bytes)}
    {members : List (String × Value)}
    (h : List.Forall₂ (IsReadAs (readValue (depth + 2))) places members) :
    shape.Tells shape.ReadsText places given ↔ shape.Tells shape.HasText members given := by
  refine tells_congr (h.imp ?_)
  rintro ⟨key, start⟩ ⟨key', value⟩ ⟨hkey, rest, hread⟩
  refine ⟨hkey, fun text => ?_⟩
  constructor
  · rintro ⟨rest', hfield⟩
    rcases (readField_eq_ok_iff depth).1 hfield with ⟨value', hread', htext⟩
    rw [hread] at hread'
    cases hread'
    exact htext
  · intro htext
    exact ⟨rest, (readField_eq_ok_iff depth).2 ⟨value, hread, htext⟩⟩

end Objects

/-! ## Documents -/

section Documents

variable [BEq φ] [LawfulBEq φ] {given given' : Given φ}

omit [LawfulBEq φ] in
theorem ofValue_ne_ok_of_readScalar {b : UInt8} {bs rest : Bytes} {value : Value}
    (h : readScalar b bs = .ok (value, rest)) : shape.ofValue value ≠ .ok given := by
  rcases of_readScalar h with ⟨rfl, _⟩ | ⟨x, rfl⟩ | ⟨s, rfl, _⟩ | ⟨n, rfl⟩
  · exact nofun
  · exact nofun
  · exact nofun
  · exact nofun

omit [LawfulBEq φ] in
theorem read_ne_ok_of_scalar {b : UInt8} {bs after : Bytes} (h : skipBlanks bs = b :: after)
    (hlist : b ≠ Byte.openList) (hobject : b ≠ Byte.openObject) {p : Given φ × Bytes} :
    shape.read bs ≠ .ok p := by
  rw [read, h]
  simp only [if_neg hlist, if_neg hobject]
  exact refuseValue_ne_ok

/-- An object whose value is read is read as a record when its members are one and name no field
twice. -/
theorem read_object_iff_ofMembers (depth : Nat) {bs after rest : Bytes}
    {members : List (String × Value)} (h : skipBlanks bs = Byte.openObject :: after)
    (hmembers : membersFrom (readValue (depth + 2)) after true after = .ok (members, rest))
    {rest' : Bytes} :
    shape.read bs = .ok (given, rest') ↔
      rest' = rest ∧ shape.ofMembers [] members = .ok given ∧ shape.missing? given = none := by
  rcases (skimmedAs_readValue _).membersFrom_iff.1 hmembers with ⟨places, hplaces, hreads⟩
  rw [read_object_eq_ok_iff h, ofMembers_nil_eq_ok_iff]
  constructor
  · rintro ⟨places', hplaces', htells, hnodup, hmissing⟩
    rw [hplaces] at hplaces'
    cases hplaces'
    exact ⟨rfl, ⟨(tells_of_isReadAs depth hreads).1 htells, hnodup⟩, hmissing⟩
  · rintro ⟨rfl, ⟨htells, hnodup⟩, hmissing⟩
    exact ⟨places, hplaces, (tells_of_isReadAs depth hreads).2 htells, hnodup, hmissing⟩

omit [BEq φ] [LawfulBEq φ] in
/-- The keys in the outline are those of the members that are read. -/
theorem named_eq {depth : Nat} {bs after rest : Bytes} {members : List (String × Value)}
    (h : skipBlanks bs = Byte.openObject :: after)
    (hmembers : membersFrom (readValue (depth + 2)) after true after = .ok (members, rest)) :
    shape.named bs = (shape.recognized members).map Prod.fst := by
  rcases (skimmedAs_readValue _).membersFrom_iff.1 hmembers with ⟨places, hplaces, hreads⟩
  have hkeys : places.map Prod.fst = members.map Prod.fst := by
    clear hmembers hplaces
    induction hreads with
    | nil => rfl
    | cons hhead _ ih => rw [List.map_cons, List.map_cons, ih, hhead.1]
  rw [named, outline_eq h hplaces, hkeys, fields_recognized]

/-- Fields that are read in one pass are those of the value, and none of them is named twice. -/
theorem ofValue_of_read {depth : Nat} {bs rest rest' : Bytes} {value : Value}
    (hvalue : readValue (depth + 3) bs = .ok (value, rest))
    (hread : shape.read bs = .ok (given, rest')) :
    rest' = rest ∧ (shape.named bs).Nodup ∧
      ∃ given', shape.ofValue value = .ok given' ∧
        ∀ field, given'.lookup field = given.lookup field := by
  rcases hblanks : skipBlanks bs with _ | ⟨b, after⟩
  · rw [read, hblanks] at hread
    cases hread
  · by_cases hlist : b = Byte.openList
    · subst hlist
      rcases (read_list_eq_ok_iff depth hblanks).1 hread with ⟨items, hitems, hof⟩
      rw [hvalue] at hitems
      cases hitems
      refine ⟨rfl, ?_, given, hof, fun field => rfl⟩
      rw [named, outline_eq_nil hblanks (by decide)]
      exact List.nodup_nil
    · by_cases hobject : b = Byte.openObject
      · subst hobject
        rw [readValue_members hblanks] at hvalue
        rcases map_eq_ok_iff.1 hvalue with ⟨⟨members, rest⟩, hmembers, heq⟩
        cases heq
        -- the members in the order of the text, and then in the order of their keys
        rcases (read_object_iff_ofMembers depth hblanks hmembers).1 hread with ⟨rfl, hof, hmissing⟩
        rcases ofMembers_nil_eq_ok_iff.1 hof with ⟨htells, hnodup⟩
        have hfields : ((shape.recognized members).map Prod.fst).Nodup := by
          rw [← htells.fields]
          exact hnodup
        rcases ofMembers_of_perm (recognized_object hfields).symm hof with ⟨given', hof', hlookup⟩
        refine ⟨rfl, by rw [named_eq hblanks hmembers]; exact hfields, given', ?_, hlookup⟩
        refine ofValue_object_eq_ok_iff.2 ⟨hof', ?_⟩
        rw [missing?_congr hlookup]
        exact hmissing
      · exact absurd hread (read_ne_ok_of_scalar hblanks hlist hobject)

/-- Fields of a value are read in one pass, if none of them is named twice. -/
theorem read_of_ofValue {depth : Nat} {bs rest : Bytes} {value : Value}
    (hvalue : readValue (depth + 3) bs = .ok (value, rest)) (hnodup : (shape.named bs).Nodup)
    (hof : shape.ofValue value = .ok given') :
    ∃ given, shape.read bs = .ok (given, rest) ∧
      ∀ field, given'.lookup field = given.lookup field := by
  rcases hblanks : skipBlanks bs with _ | ⟨b, after⟩
  · rw [readValue, hblanks] at hvalue
    cases hvalue
  · by_cases hlist : b = Byte.openList
    · subst hlist
      have hitems := hvalue
      rw [readValue_items hblanks] at hitems
      rcases map_eq_ok_iff.1 hitems with ⟨p, _, heq⟩
      cases heq
      exact ⟨given', (read_list_eq_ok_iff depth hblanks).2 ⟨_, hvalue, hof⟩, fun field => rfl⟩
    · by_cases hobject : b = Byte.openObject
      · subst hobject
        rw [readValue_members hblanks] at hvalue
        rcases map_eq_ok_iff.1 hvalue with ⟨⟨members, rest⟩, hmembers, heq⟩
        cases heq
        rw [named_eq hblanks hmembers] at hnodup
        rcases ofValue_object_eq_ok_iff.1 hof with ⟨hof, hmissing⟩
        rcases ofMembers_of_perm (recognized_object hnodup) hof with ⟨given, hof', hlookup⟩
        refine ⟨given, ?_, fun field => (hlookup field).symm⟩
        refine (read_object_iff_ofMembers depth hblanks hmembers).2 ⟨rfl, hof', ?_⟩
        rw [missing?_congr hlookup]
        exact hmissing
      · rw [readValue_scalar hblanks hlist hobject] at hvalue
        exact absurd hof (ofValue_ne_ok_of_readScalar hvalue)

/-- Where a record is read but its value is not, the reason is a member that nobody asked for. -/
theorem exists_ignored_of_read {depth : Nat} {bs rest : Bytes} {fault : Fault}
    (hvalue : readValue (depth + 3) bs = .error fault)
    (hread : shape.read bs = .ok (given, rest)) :
    fault.cause.IsStrict ∧ ∃ key start, (key, start) ∈ outline bs ∧ shape.ofKey? key = none ∧
      readValue (depth + 2) start = .error fault := by
  rcases hblanks : skipBlanks bs with _ | ⟨b, after⟩
  · rw [read, hblanks] at hread
    cases hread
  · by_cases hlist : b = Byte.openList
    · -- a list has nothing but fields
      subst hlist
      rcases (read_list_eq_ok_iff depth hblanks).1 hread with ⟨items, hitems, _⟩
      rw [hvalue] at hitems
      cases hitems
    · by_cases hobject : b = Byte.openObject
      · subst hobject
        rcases (read_object_eq_ok_iff hblanks).1 hread with ⟨places, hplaces, htells, _, _⟩
        have hmembers : membersFrom (readValue (depth + 2)) after true after = .error fault := by
          rw [readValue_members hblanks] at hvalue
          rcases hinside : membersFrom (readValue (depth + 2)) after true after with fault' | p
          · rw [hinside] at hvalue
            cases hvalue
            rfl
          · rw [hinside] at hvalue
            cases hvalue
        rcases (skimmedAs_readValue _).exists_of_error hplaces hmembers with
          ⟨⟨key, start⟩, hmem, herror⟩
        rcases skimValue_of_mem hplaces hmem with ⟨rest', hskim⟩
        refine ⟨(skimmedAs_readValue _).isStrict hskim herror, key, start, ?_, ?_, herror⟩
        · rw [outline_eq hblanks hplaces]
          exact hmem
        · cases hof : shape.ofKey? key with
          | none => rfl
          | some field =>
              -- the value of a field is read, so it cannot be the one refused
              rcases htells.exists_text hmem hof with ⟨text, rest'', hfield⟩
              rcases (readField_eq_ok_iff depth).1 hfield with ⟨value, hread', _⟩
              rw [herror] at hread'
              cases hread'
      · exact absurd hread (read_ne_ok_of_scalar hblanks hlist hobject)

end Documents

end Shape

/-- A document has a value when one is read and nothing comes behind it. -/
theorem Value.parse_eq_ok_iff {document : Bytes} {value : Value} :
    Value.parse document = .ok value ↔
      ∃ rest, readValue nestingLimit document = .ok (value, rest) ∧ finish rest = .ok () := by
  unfold Value.parse
  rw [mapError_eq_ok_iff, bind_eq_ok_iff]
  constructor
  · rintro ⟨⟨value', rest⟩, hread, h⟩
    rcases bind_eq_ok_iff.1 h with ⟨_, hfinish, hpure⟩
    cases hpure
    exact ⟨rest, hread, hfinish⟩
  · rintro ⟨rest, hread, hfinish⟩
    exact ⟨_, hread, bind_eq_ok_iff.2 ⟨_, hfinish, rfl⟩⟩

theorem Shape.parse_eq_ok_iff {φ : Type} [BEq φ] {shape : Shape φ} {document : Bytes}
    {given : Shape.Given φ} :
    shape.parse document = .ok given ↔
      ∃ rest, shape.read document = .ok (given, rest) ∧ finish rest = .ok () := by
  unfold Shape.parse
  rw [mapError_eq_ok_iff, bind_eq_ok_iff]
  constructor
  · rintro ⟨⟨given', rest⟩, hread, h⟩
    rcases bind_eq_ok_iff.1 h with ⟨_, hfinish, hpure⟩
    cases hpure
    exact ⟨rest, hread, hfinish⟩
  · rintro ⟨rest, hread, hfinish⟩
    exact ⟨_, hread, bind_eq_ok_iff.2 ⟨_, hfinish, rfl⟩⟩

end GreetingService.Json

namespace GreetingService.Request

open Json Results

theorem ofGiven_congr {given given' : Shape.Given Field}
    (h : ∀ field, given.lookup field = given'.lookup field) : ofGiven given = ofGiven given' := by
  simp only [ofGiven, Shape.Given.text?, h]

/-- A request that is read in one pass is that of the document's value, if it has one. Conversely a
value's request is read in one pass if no field is named twice. Where a request is read although the
document has no value, there is a member of another name whose value is refused for a strict
cause. -/
theorem parse_agrees_with_ofValue (document : Bytes) :
    (∀ value, Value.parse document = .ok value → ∀ r,
      parse document = .ok r ↔ ofValue value = .ok r ∧ (shape.named document).Nodup) ∧
    (∀ r e, parse document = .ok r → Value.parse document = .error e →
      ∃ key start fault, (key, start) ∈ outline document ∧ Field.ofKey? key = none ∧
        readValue (nestingLimit - 1) start = .error fault ∧ fault.cause.IsStrict ∧
          e = fault.inDocument document) := by
  constructor
  · intro value hvalue r
    rcases Value.parse_eq_ok_iff.1 hvalue with ⟨rest, hread, hfinish⟩
    rw [parse, ofValue, map_eq_ok_iff, map_eq_ok_iff]
    constructor
    · rintro ⟨given, hparse, rfl⟩
      rcases Shape.parse_eq_ok_iff.1 hparse with ⟨rest', hrecord, _⟩
      rcases Shape.ofValue_of_read hread hrecord with ⟨_, hnodup, given', hof, hlookup⟩
      exact ⟨⟨given', hof, ofGiven_congr hlookup⟩, hnodup⟩
    · rintro ⟨⟨given', hof, rfl⟩, hnodup⟩
      rcases Shape.read_of_ofValue hread hnodup hof with ⟨given, hrecord, hlookup⟩
      exact ⟨given, Shape.parse_eq_ok_iff.2 ⟨rest, hrecord, hfinish⟩, (ofGiven_congr hlookup).symm⟩
  · intro r e hparse herror
    rcases map_eq_ok_iff.1 hparse with ⟨given, hparse, _⟩
    rcases Shape.parse_eq_ok_iff.1 hparse with ⟨rest, hrecord, hfinish⟩
    rcases hread : readValue nestingLimit document with fault | ⟨value, rest'⟩
    · rcases Shape.exists_ignored_of_read hread hrecord with ⟨hstrict, key, start, hmem, hof, hfault⟩
      refine ⟨key, start, fault, hmem, hof, hfault, hstrict, ?_⟩
      rw [Value.parse, hread] at herror
      cases herror
      rfl
    · -- with a value, there is nothing that could be refused
      rcases Shape.ofValue_of_read hread hrecord with ⟨rfl, _, _⟩
      have hvalue := Value.parse_eq_ok_iff.2 ⟨rest, hread, hfinish⟩
      rw [herror] at hvalue
      cases hvalue

/-- A request with an escape in a key, and with a member that nobody asked for. -/
def respelled : Bytes :=
  Text.bytes "\x7b\"\\u006bey1\":\"a\",\"x\":\x7b\"x\":[]\x7d,\"field2\":null\x7d"

/-- A request beside half a surrogate pair that nobody asked for. -/
def unpaired : Bytes :=
  Text.bytes "\x7b\"x\":\"\\ud800\",\"key1\":\"a\"\x7d"

theorem parse_agrees_with_ofValue_respelled :
    (∃ value, Value.parse respelled = .ok value ∧ ofValue value = .ok ⟨some "a", none, none⟩ ∧
      (shape.named respelled).Nodup) ∧
    ∃ e key start fault, Value.parse unpaired = .error e ∧ (key, start) ∈ outline unpaired ∧
      Field.ofKey? key = none ∧ readValue (nestingLimit - 1) start = .error fault ∧
        fault.cause.IsStrict ∧ e = fault.inDocument unpaired := by
  constructor
  · have hsome : (Value.parse respelled).toOption.isSome = true := by decide +kernel
    have hparse : (parse respelled).toOption = some ⟨some "a", none, none⟩ := by decide +kernel
    rw [toOption_eq_some_iff] at hparse
    rcases Option.isSome_iff_exists.1 hsome with ⟨value, hvalue⟩
    rw [toOption_eq_some_iff] at hvalue
    exact ⟨value, hvalue, ((parse_agrees_with_ofValue respelled).1 value hvalue _).1 hparse⟩
  · have hnone : (Value.parse unpaired).toOption.isSome = false := by decide +kernel
    have hparse : (parse unpaired).toOption = some ⟨some "a", none, none⟩ := by decide +kernel
    rw [toOption_eq_some_iff] at hparse
    rcases herror : Value.parse unpaired with e | value
    · rcases (parse_agrees_with_ofValue unpaired).2 _ e hparse herror with
        ⟨key, start, fault, hplace⟩
      exact ⟨e, key, start, fault, rfl, hplace⟩
    · rw [herror] at hnone
      cases hnone

end GreetingService.Request
