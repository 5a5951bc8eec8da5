import GreetingService.Proofs.RecordPaths

/-!
# Values that stand for requests

Exactly which values stand for a request, and for which one. An object does if it says at most one
thing of every field, in whichever spelling, and this is a text or `null`; a list does if it has no
more items than there are fields, each of them a text or `null`. Any other value is refused as
unfit.
-/

namespace GreetingService.Json

open Results

/-! ## Records of optional texts -/

/-- What can be said of an optional text: nothing, `null`, or a text. -/
inductive Says : List Value → Option String → Prop
  | nothing : Says [] none
  | null : Says [.null] none
  | text (s : String) : Says [.text s] (some s)

theorem Says.unique {values : List Value} {text text' : Option String} (h : Says values text)
    (h' : Says values text') : text = text' := by
  cases h <;> cases h' <;> rfl

/-- A value of an optional text. -/
def Value.IsOptionalText : Value → Prop
  | .text _ | .null => True
  | _ => False

theorem exists_says_iff {values : List Value} :
    (∃ text, Says values text) ↔
      values.length ≤ 1 ∧ ∀ value ∈ values, value.IsOptionalText := by
  constructor
  · rintro ⟨text, h⟩
    cases h <;> simp [Value.IsOptionalText]
  · rintro ⟨hlength, hvalues⟩
    match values, hlength with
    | [], _ => exact ⟨none, .nothing⟩
    | [value], _ =>
        have hvalue : value.IsOptionalText := hvalues value (List.mem_singleton_self value)
        cases value with
        | null => exact ⟨none, .null⟩
        | text s => exact ⟨some s, .text s⟩
        | boolean | number | list | object => exact hvalue.elim

namespace Shape

variable {φ α : Type} {shape : Shape φ}

section Optional

variable {value : Value} {text : Option String}

theorem says_of_hasText (h : shape.optional = true) (htext : shape.HasText value text) :
    Says [value] text := by
  rw [HasText] at htext
  cases value with
  | null =>
      rw [fieldOf, if_pos h] at htext
      cases htext
      exact .null
  | text s =>
      cases htext
      exact .text s
  | boolean | number | list | object => cases htext

theorem exists_hasText_iff (h : shape.optional = true) :
    (∃ text, shape.HasText value text) ↔ value.IsOptionalText := by
  constructor
  · rintro ⟨text, htext⟩
    exact (exists_says_iff.1 ⟨text, says_of_hasText h htext⟩).2 value (by simp)
  · intro hvalue
    cases value with
    | null => exact ⟨none, if_pos h⟩
    | text s => exact ⟨some s, rfl⟩
    | boolean | number | list | object => exact hvalue.elim

end Optional

/-! ### One field of an object -/

section Under

variable [BEq φ] [LawfulBEq φ] {textOf : α → Option String → Prop} {members : List (String × α)}
  {given : Given φ} {field : φ}

/-- What is told of one field, in order. -/
def under (field : φ) (told : List (φ × α)) : List α :=
  (told.filter fun p => field == p.1).map Prod.snd

omit [LawfulBEq φ] in
theorem under_cons (p : φ × α) (told : List (φ × α)) :
    under field (p :: told)
      = if field == p.1 then p.2 :: under field told else under field told := by
  cases h : field == p.1 <;> simp [under, h]

theorem nodup_iff_under {told : List (φ × α)} :
    (told.map Prod.fst).Nodup ↔ ∀ field, (under field told).length ≤ 1 := by
  rw [List.nodup_iff_count_le_one]
  refine forall_congr' fun field => ?_
  rw [under, List.length_map, ← List.countP_eq_length_filter, List.count, List.countP_map]
  simp only [Function.comp_def, BEq.comm]

omit [LawfulBEq φ] in
theorem lookup_eq_head? (given : Given φ) : given.lookup field = (under field given).head? := by
  induction given with
  | nil => rfl
  | cons p given ih =>
      rw [List.lookup_cons, under_cons, ih]
      cases field == p.1 <;> rfl

omit [LawfulBEq φ] in
theorem Tells.under (h : shape.Tells textOf members given) (field : φ) :
    List.Forall₂ textOf (under field (shape.recognized members)) (under field given) := by
  rw [Tells] at h
  generalize shape.recognized members = told at h
  induction h with
  | nil => exact .nil
  | @cons p q told given hhead _ ih =>
      rw [under_cons, under_cons, ← hhead.1]
      split
      · exact .cons hhead.2 ih
      · exact ih

omit [BEq φ] [LawfulBEq φ] in
theorem exists_tells_iff :
    (∃ given, shape.Tells textOf members given) ↔
      ∀ p ∈ shape.recognized members, ∃ text, textOf p.2 text := by
  simp only [Tells]
  generalize shape.recognized members = told
  induction told with
  | nil => simp
  | cons p told ih =>
      rw [List.forall_mem_cons, ← ih]
      constructor
      · rintro ⟨_, h⟩
        cases h with
        | cons hhead hrest => exact ⟨⟨_, hhead.2⟩, _, hrest⟩
      · rintro ⟨⟨text, htext⟩, given, hrest⟩
        exact ⟨(p.1, text) :: given, .cons ⟨rfl, htext⟩ hrest⟩

end Under

section Objects

variable [BEq φ] [LawfulBEq φ] {members : List (String × Value)} {given : Given φ}

/-- The text of a field is what the members say of it, if they are taken at all. -/
theorem says_of_ofMembers (h : shape.optional = true) (hof : shape.ofMembers [] members = .ok given)
    (field : φ) : Says (under field (shape.recognized members)) (given.text? field) := by
  rcases ofMembers_nil_eq_ok_iff.1 hof with ⟨htells, hnodup⟩
  -- what is told of the field and the texts that come of it are of one length, which is at most one
  have hall := htells.under field
  have hone := nodup_iff_under.1 hnodup field
  rw [Given.text?, lookup_eq_head?]
  generalize under field (shape.recognized members) = values at hall ⊢
  generalize under field given = texts at hall hone ⊢
  cases hall with
  | nil => exact .nothing
  | cons hhead hrest =>
      cases hrest with
      | nil => exact says_of_hasText h hhead
      | cons => simp at hone

theorem exists_ofMembers_iff (h : shape.optional = true) :
    (∃ given, shape.ofMembers [] members = .ok given) ↔
      ∀ field, ∃ text, Says (under field (shape.recognized members)) text := by
  constructor
  · rintro ⟨given, hof⟩ field
    exact ⟨_, says_of_ofMembers h hof field⟩
  · intro htold
    -- each value has a text, and together they are a record because no field comes twice
    have htexts : ∀ p ∈ shape.recognized members, ∃ text, shape.HasText p.2 text := by
      intro p hp
      rw [exists_hasText_iff h]
      refine (exists_says_iff.1 (htold p.1)).2 p.2 (List.mem_map.2 ⟨p, ?_, rfl⟩)
      exact List.mem_filter.2 ⟨hp, beq_self_eq_true p.1⟩
    rcases exists_tells_iff.2 htexts with ⟨given, htells⟩
    refine ⟨given, ofMembers_nil_eq_ok_iff.2 ⟨htells, ?_⟩⟩
    rw [htells.fields, nodup_iff_under]
    exact fun field => (exists_says_iff.1 (htold field)).1

omit [LawfulBEq φ] in
/-- Members of other names make no difference. -/
theorem ofMembers_filter (members : List (String × Value)) (given : Given φ) :
    shape.ofMembers given (members.filter fun member => (shape.ofKey? member.1).isSome)
      = shape.ofMembers given members := by
  induction members generalizing given with
  | nil => rfl
  | cons member members ih =>
      rcases member with ⟨key, value⟩
      cases hof : shape.ofKey? key with
      | none => simp [hof, ofMembers, ih]
      | some field => simp [hof, ofMembers, ih]

end Objects

/-! ### One field of a list -/

section Lists

variable {fields : List φ} {items : List Value} {given : Given φ} {field : φ} {item : Value}

theorem ofItems_cons_eq_ok_iff :
    shape.ofItems (field :: fields) (item :: items) = .ok given ↔
      ∃ text others, shape.HasText item text ∧ shape.ofItems fields items = .ok others ∧
        given = (field, text) :: others := by
  simp only [ofItems, bind_eq_ok_iff, HasText]
  constructor
  · rintro ⟨text, htext, others, hothers, h⟩
    cases h
    exact ⟨text, others, htext, hothers, rfl⟩
  · rintro ⟨text, others, htext, hothers, rfl⟩
    exact ⟨text, htext, others, hothers, rfl⟩

/-- The text of a field is what the item in its place says. -/
theorem says_of_ofItems [BEq φ] [LawfulBEq φ] (h : shape.optional = true) (hnodup : fields.Nodup)
    (hof : shape.ofItems fields items = .ok given) {i : Nat} (hi : fields[i]? = some field) :
    Says items[i]?.toList (given.text? field) := by
  -- on the fields, of which every item takes the first
  induction fields generalizing items given i with
  | nil => cases hi
  | cons first fields ih =>
      rw [List.nodup_cons] at hnodup
      cases items with
      | nil =>
          cases hof
          exact .nothing
      | cons item items =>
          rcases ofItems_cons_eq_ok_iff.1 hof with ⟨text, others, htext, hothers, rfl⟩
          cases i with
          | zero =>
              cases hi
              simpa [Given.text?] using says_of_hasText h htext
          | succ i =>
              -- a later field is another one
              have hne : (field == first) = false := by
                rw [beq_eq_false_iff_ne]
                rintro rfl
                exact hnodup.1 (List.mem_of_getElem? hi)
              simpa [Given.text?, List.lookup_cons, hne] using ih hnodup.2 hothers hi

theorem exists_ofItems_iff (h : shape.optional = true) :
    (∃ given, shape.ofItems fields items = .ok given) ↔
      ∀ item ∈ items.take fields.length, item.IsOptionalText := by
  induction fields generalizing items with
  | nil => simp [ofItems]
  | cons field fields ih =>
      cases items with
      | nil => simp [ofItems]
      | cons item items =>
          rw [List.length_cons, List.take_succ_cons, List.forall_mem_cons, ← ih,
            ← exists_hasText_iff h]
          simp only [ofItems_cons_eq_ok_iff]
          constructor
          · rintro ⟨_, text, others, htext, hothers, _⟩
            exact ⟨⟨text, htext⟩, others, hothers⟩
          · rintro ⟨⟨text, htext⟩, others, hothers⟩
            exact ⟨_, text, others, htext, hothers, rfl⟩

end Lists

/-! ### Refusals -/

section Refusals

variable {cause : Cause}

theorem unfit_of_fieldOf {value : Value} (h : shape.fieldOf value = .error cause) :
    cause.category = .unfit := by
  unfold fieldOf at h
  split at h
  · cases h
  · split at h <;> cases h
    rfl
  · cases h
    rfl

theorem unfit_of_ofItems {fields : List φ} {items : List Value}
    (h : shape.ofItems fields items = .error cause) : cause.category = .unfit := by
  induction fields generalizing items with
  | nil => cases h
  | cons field fields ih =>
      cases items with
      | nil => cases h
      | cons item items =>
          rcases bind_eq_error_iff.1 h with hfield | ⟨text, _, h⟩
          · exact unfit_of_fieldOf hfield
          · rcases bind_eq_error_iff.1 h with hothers | ⟨others, _, h⟩
            · exact ih hothers
            · cases h

theorem unfit_of_ofMembers [BEq φ] {members : List (String × Value)} {given : Given φ}
    (h : shape.ofMembers given members = .error cause) : cause.category = .unfit := by
  -- on the members, with whatever fields are given before them
  induction members generalizing given with
  | nil => cases h
  | cons member members ih =>
      rw [ofMembers] at h
      split at h
      · exact ih h
      · split at h
        · cases h
          rfl
        · rcases bind_eq_error_iff.1 h with hfield | ⟨text, _, h⟩
          · exact unfit_of_fieldOf hfield
          · exact ih h

theorem unfit_of_tooFew? {count : Nat} (h : shape.tooFew? count = some cause) :
    cause.category = .unfit := by
  rw [tooFew?] at h
  split at h <;> cases h
  rfl

theorem unfit_of_missing? [BEq φ] {given : Given φ} (h : shape.missing? given = some cause) :
    cause.category = .unfit := by
  rw [missing?] at h
  split at h
  · cases h
  · rcases Option.map_eq_some_iff.1 h with ⟨field, _, rfl⟩
    rfl

/-- A value is refused as unfit, never for its form. -/
theorem unfit_of_ofValue [BEq φ] {value : Value} (h : shape.ofValue value = .error cause) :
    cause.category = .unfit := by
  unfold ofValue at h
  split at h
  · rcases bind_eq_error_iff.1 h with hitems | ⟨given, _, h⟩
    · exact unfit_of_ofItems hitems
    · split at h
      · rename_i hcount
        cases h
        exact unfit_of_tooFew? hcount
      · split at h <;> cases h
        rfl
  · rcases bind_eq_error_iff.1 h with hmembers | ⟨given, _, h⟩
    · exact unfit_of_ofMembers hmembers
    · split at h
      · rename_i hmissing
        cases h
        exact unfit_of_missing? hmissing
      · cases h
  · cases h
    rfl

end Refusals

end Shape

end GreetingService.Json

namespace GreetingService.Request

open Json Results

/-! ## Requests -/

/-- The older spellings of the fields' names. -/
def Field.oldName : Field → String
  | .field1 => "key1"
  | .field2 => "key2"
  | .field3 => "key3"

/-- The spellings of a field. -/
def Field.IsKey (field : Field) (key : String) : Prop :=
  key = field.name ∨ key = field.oldName

instance (field : Field) (key : String) : Decidable (field.IsKey key) :=
  inferInstanceAs (Decidable (_ ∨ _))

theorem Field.ofKey?_eq_some_iff {field : Field} {key : String} :
    Field.ofKey? key = some field ↔ field.IsKey key := by
  constructor
  · intro h
    unfold Field.ofKey? at h
    split_ifs at h with h₁ h₂ h₃
    · cases h
      exact h₁
    · cases h
      exact h₂
    · cases h
      exact h₃
  · cases field <;> rintro (rfl | rfl) <;> rfl

/-- The text of a field. -/
def text (r : Request) : Field → Option String
  | .field1 => r.field1
  | .field2 => r.field2
  | .field3 => r.field3

theorem ext_text {r r' : Request} (h : ∀ field, r.text field = r'.text field) : r = r' :=
  Request.ext (h .field1) (h .field2) (h .field3)

theorem text_ofGiven (given : Shape.Given Field) (field : Field) :
    (ofGiven given).text field = given.text? field := by
  cases field <;> rfl

/-- The values of the members that are named after a field, in either spelling. -/
def said (field : Field) (members : List (String × Value)) : List Value :=
  (members.filter fun member => field.IsKey member.1).map Prod.snd

theorem said_eq (field : Field) (members : List (String × Value)) :
    said field members = Shape.under field (shape.recognized members) := by
  induction members with
  | nil => rfl
  | cons member members ih =>
      rcases member with ⟨key, value⟩
      have hkey : Field.ofKey? key = some field ↔ field.IsKey key := Field.ofKey?_eq_some_iff
      cases hof : Field.ofKey? key with
      | none =>
          have hother : ¬ field.IsKey key := by simp [← hkey, hof]
          have hrest : shape.recognized ((key, value) :: members) = shape.recognized members := by
            simp [Shape.recognized, shape, hof]
          rw [hrest, ← ih]
          simp [said, hother]
      | some named =>
          rw [hof, Option.some_inj] at hkey
          have hrest : shape.recognized ((key, value) :: members)
              = (named, value) :: shape.recognized members := by
            simp [Shape.recognized, shape, hof]
          rw [hrest, Shape.under_cons, ← ih]
          by_cases h : named = field
          · simp [said, hkey.1 h, h]
          · simp [said, mt hkey.2 h, Ne.symm h]

/-! ### Acceptance -/

variable {members members' : List (String × Value)} {items : List Value} {r : Request}

theorem exists_ofValue_object_iff :
    (∃ r, ofValue (.object members) = .ok r) ↔ ∀ field, ∃ text, Says (said field members) text := by
  simp only [said_eq]
  rw [← Shape.exists_ofMembers_iff rfl]
  simp only [ofValue, map_eq_ok_iff, Shape.ofValue_object_eq_ok_iff]
  constructor
  · rintro ⟨_, given, ⟨hof, _⟩, _⟩
    exact ⟨given, hof⟩
  · rintro ⟨given, hof⟩
    exact ⟨_, given, ⟨hof, rfl⟩, rfl⟩

/-- The request of an object has the texts that the object says. -/
theorem ofValue_object_iff :
    ofValue (.object members) = .ok r ↔ ∀ field, Says (said field members) (r.text field) := by
  have htold : ∀ {r}, ofValue (.object members) = .ok r →
      ∀ field, Says (said field members) (r.text field) := by
    intro r h field
    rcases map_eq_ok_iff.1 h with ⟨given, hgiven, rfl⟩
    rcases Shape.ofValue_object_eq_ok_iff.1 hgiven with ⟨hof, _⟩
    rw [said_eq, text_ofGiven]
    exact Shape.says_of_ofMembers rfl hof field
  refine ⟨htold, fun h => ?_⟩
  -- the object is accepted, and its texts can be no others
  rcases exists_ofValue_object_iff.2 fun field => ⟨_, h field⟩ with ⟨r', hr'⟩
  rw [ext_text fun field => (h field).unique (htold hr' field)]
  exact hr'

theorem exists_ofValue_list_iff :
    (∃ r, ofValue (.list items) = .ok r) ↔
      items.length ≤ 3 ∧ ∀ item ∈ items, item.IsOptionalText := by
  simp only [ofValue, map_eq_ok_iff, Shape.ofValue_list_eq_ok_iff]
  constructor
  · rintro ⟨_, given, ⟨hof, hle, _⟩, _⟩
    have htexts := (Shape.exists_ofItems_iff rfl).1 ⟨given, hof⟩
    -- no item is behind the last field
    rw [List.take_of_length_le hle] at htexts
    exact ⟨hle, htexts⟩
  · rintro ⟨hle, htexts⟩
    have htake : items.take shape.fields.length = items := List.take_of_length_le hle
    rw [← htake] at htexts
    have hoptional : shape.optional = true := rfl
    rcases (Shape.exists_ofItems_iff hoptional).2 htexts with ⟨given, hof⟩
    exact ⟨_, given, ⟨hof, hle, rfl⟩, rfl⟩

theorem exists_place (field : Field) : ∃ i : Nat, shape.fields[i]? = some field := by
  rw [← List.mem_iff_getElem?]
  cases field <;> decide

/-- The request of a list has the texts of its items, each in the place of its field. -/
theorem ofValue_list_iff :
    ofValue (.list items) = .ok r ↔ items.length ≤ 3 ∧ ∀ (i : Nat) field,
      shape.fields[i]? = some field → Says items[i]?.toList (r.text field) := by
  have htold : ∀ {r}, ofValue (.list items) = .ok r → ∀ (i : Nat) field,
      shape.fields[i]? = some field → Says items[i]?.toList (r.text field) := by
    intro r h i field hi
    rcases map_eq_ok_iff.1 h with ⟨given, hgiven, rfl⟩
    rcases Shape.ofValue_list_eq_ok_iff.1 hgiven with ⟨hof, _⟩
    rw [text_ofGiven]
    exact Shape.says_of_ofItems rfl (by decide) hof hi
  constructor
  · intro h
    exact ⟨(exists_ofValue_list_iff.1 ⟨r, h⟩).1, htold h⟩
  · rintro ⟨hle, h⟩
    have htexts : ∀ item ∈ items, item.IsOptionalText := by
      intro item hitem
      rcases List.mem_iff_getElem.1 hitem with ⟨i, hi, rfl⟩
      have hlt : i < shape.fields.length := hi.trans_le hle
      have hplace := h i _ (List.getElem?_eq_getElem hlt)
      rw [List.getElem?_eq_getElem hi] at hplace
      exact (exists_says_iff.1 ⟨_, hplace⟩).2 _ (by simp)
    rcases exists_ofValue_list_iff.2 ⟨hle, htexts⟩ with ⟨r', hr'⟩
    have heq : r = r' := by
      refine ext_text fun field => ?_
      rcases exists_place field with ⟨i, hi⟩
      exact (h i field hi).unique (htold hr' i field hi)
    rw [heq]
    exact hr'

theorem exists_ofValue_iff (value : Value) :
    (∃ r, ofValue value = .ok r) ↔
      (∃ members, value = .object members ∧ ∀ field, (said field members).length ≤ 1 ∧
        ∀ v ∈ said field members, v.IsOptionalText) ∨
      ∃ items, value = .list items ∧ items.length ≤ 3 ∧ ∀ item ∈ items, item.IsOptionalText := by
  cases value with
  | object members => simp [exists_ofValue_object_iff, exists_says_iff]
  | list items => simp [exists_ofValue_list_iff]
  | null | boolean | number | text =>
      constructor
      · rintro ⟨r, h⟩
        cases h
      · rintro (⟨_, h, _⟩ | ⟨_, h, _⟩) <;> cases h

/-! ### What makes no difference -/

/-- Whether a member is named after a field. -/
def IsNamed (member : String × Value) : Prop :=
  ∃ field : Field, field.IsKey member.1

theorem isNamed_iff (member : String × Value) :
    (Field.ofKey? member.1).isSome = true ↔ IsNamed member := by
  rw [Option.isSome_iff_exists]
  exact exists_congr fun field => Field.ofKey?_eq_some_iff

instance : DecidablePred IsNamed := fun member =>
  decidable_of_iff _ (isNamed_iff member)

/-- Members that are named after no field make no difference. -/
theorem ofValue_eq_of_filter (h : members.filter IsNamed = members'.filter IsNamed) :
    ofValue (.object members) = ofValue (.object members') := by
  have hfilter : ∀ members : List (String × Value),
      shape.ofMembers [] (members.filter IsNamed) = shape.ofMembers [] members := by
    intro members
    rw [← Shape.ofMembers_filter members]
    congr 2
    funext member
    exact Bool.eq_iff_iff.2 (decide_eq_true_iff.trans (isNamed_iff member).symm)
  simp only [ofValue, Shape.ofValue]
  rw [← hfilter members, ← hfilter members', h]

/-- Members with the same value, under the same key or under two spellings of one field. -/
def Respelled (member member' : String × Value) : Prop :=
  member.2 = member'.2 ∧
    (member.1 = member'.1 ∨ ∃ field : Field, field.IsKey member.1 ∧ field.IsKey member'.1)

theorem Respelled.isKey_iff {member member' : String × Value} (h : Respelled member member')
    (field : Field) : field.IsKey member.1 ↔ field.IsKey member'.1 := by
  rcases h.2 with heq | ⟨named, hkey, hkey'⟩
  · rw [heq]
  · rw [← Field.ofKey?_eq_some_iff, ← Field.ofKey?_eq_some_iff, Field.ofKey?_eq_some_iff.2 hkey,
      Field.ofKey?_eq_some_iff.2 hkey']

theorem said_eq_of_respelled (h : List.Forall₂ Respelled members members') (field : Field) :
    said field members = said field members' := by
  induction h with
  | nil => rfl
  | @cons member member' members members' hhead _ ih =>
      have hkey := hhead.isKey_iff field
      by_cases hfield : field.IsKey member.1
      · simpa [said, hfield, hkey.1 hfield, hhead.1] using ih
      · simpa [said, hfield, mt hkey.2 hfield] using ih

theorem says_of_perm {values values' : List Value} {text : Option String}
    (h : values.Perm values') (htold : Says values text) : Says values' text := by
  cases htold with
  | nothing =>
      rw [List.nil_perm.1 h]
      exact .nothing
  | null =>
      rw [← List.singleton_perm.1 h]
      exact .null
  | text s =>
      rw [← List.singleton_perm.1 h]
      exact .text s

/-- A field may be spelled in the other way, and its member may then stand elsewhere. -/
theorem ofValue_iff_of_respelled {renamed : List (String × Value)}
    (h : List.Forall₂ Respelled members renamed) (hperm : renamed.Perm members') :
    ofValue (.object members) = .ok r ↔ ofValue (.object members') = .ok r := by
  rw [ofValue_object_iff, ofValue_object_iff]
  refine forall_congr' fun field => ?_
  -- the member of a field has moved together with its value
  have hsaid : (said field members).Perm (said field members') := by
    rw [said_eq_of_respelled h]
    exact (hperm.filter _).map _
  exact ⟨says_of_perm hsaid, says_of_perm hsaid.symm⟩

/-! ### The whole of it -/

/-- A value stands for a request exactly if it is an object that says at most one thing of every
field, or a list of at most three items, and all that counts is a text or `null`. The request has
the texts that the object says, or those of the items in order. Members that are named after no
field make no difference, nor does the spelling of a field. Any other value is unfit. -/
theorem ofValue_exactly (value : Value) :
    ((∃ r, ofValue value = .ok r) ↔
      (∃ members, value = .object members ∧ ∀ field, (said field members).length ≤ 1 ∧
        ∀ v ∈ said field members, v.IsOptionalText) ∨
      ∃ items, value = .list items ∧ items.length ≤ 3 ∧ ∀ item ∈ items, item.IsOptionalText) ∧
    (∀ members r, ofValue (.object members) = .ok r ↔
      ∀ field, Says (said field members) (r.text field)) ∧
    (∀ items r, ofValue (.list items) = .ok r ↔ items.length ≤ 3 ∧ ∀ (i : Nat) field,
      shape.fields[i]? = some field → Says items[i]?.toList (r.text field)) ∧
    (∀ members members', members.filter IsNamed = members'.filter IsNamed →
      ofValue (.object members) = ofValue (.object members')) ∧
    (∀ members renamed members', List.Forall₂ Respelled members renamed → renamed.Perm members' →
      ∀ r, ofValue (.object members) = .ok r ↔ ofValue (.object members') = .ok r) ∧
    ∀ cause, ofValue value = .error cause → cause.category = .unfit := by
  refine ⟨exists_ofValue_iff value, fun _ _ => ofValue_object_iff, fun _ _ => ofValue_list_iff,
    fun _ _ => ofValue_eq_of_filter, fun _ _ _ h hperm _ => ofValue_iff_of_respelled h hperm, ?_⟩
  intro cause h
  exact Shape.unfit_of_ofValue (map_eq_error_iff.1 h)

/-- An object with an older spelling and a member that nobody asked for, the same one without them,
and one that gives a field in both spellings. -/
theorem ofValue_exactly_both_spellings :
    ofValue (.object [("extra", .list []), ("field2", .null), ("key1", .text "a")])
      = .ok ⟨some "a", none, none⟩ ∧
    ofValue (.object [("field1", .text "a"), ("field2", .null)]) = .ok ⟨some "a", none, none⟩ ∧
    ∃ cause, ofValue (.object [("field1", .null), ("key1", .text "a")]) = .error cause ∧
      cause.category = .unfit := by
  have hfirst : ofValue (.object [("extra", .list []), ("field2", .null), ("key1", .text "a")])
      = .ok ⟨some "a", none, none⟩ := by
    refine ((ofValue_exactly .null).2.1 _ _).2 fun field => ?_
    cases field with
    | field1 => exact .text "a"
    | field2 => exact .null
    | field3 => exact .nothing
  refine ⟨hfirst, ?_, ?_⟩
  · have hrespelled : List.Forall₂ Respelled [("field2", .null), ("key1", .text "a")]
        [("field2", .null), ("field1", .text "a")] :=
      .cons ⟨rfl, .inl rfl⟩ (.cons ⟨rfl, .inr ⟨.field1, by decide⟩⟩ .nil)
    have hfilter := (ofValue_exactly .null).2.2.2.1
      [("extra", .list []), ("field2", .null), ("key1", .text "a")]
      [("field2", .null), ("key1", .text "a")] rfl
    have hrenamed := (ofValue_exactly .null).2.2.2.2.1 _ _
      [("field1", .text "a"), ("field2", .null)] hrespelled (.swap _ _ _)
    rw [← hrenamed, ← hfilter]
    exact hfirst
  · have hexactly := ofValue_exactly (.object [("field1", .null), ("key1", .text "a")])
    rcases h : ofValue (.object [("field1", .null), ("key1", .text "a")]) with cause | r
    · exact ⟨cause, rfl, hexactly.2.2.2.2.2 cause h⟩
    · rcases hexactly.1.1 ⟨r, h⟩ with ⟨members, heq, hsaid⟩ | ⟨_, heq, _⟩
      · cases heq
        exact absurd (hsaid .field1).1 (by decide)
      · cases heq

end GreetingService.Request
