import GreetingService.Proofs.JsonText
import GreetingService.Proofs.RecordValues
import GreetingService.Response

/-!
# Written records

Requests and responses are written as objects on a single line, and what was written is read back,
in one pass and by the value of the text. The written form of a request is therefore a canonical
one: every document of the request comes to it, whatever its spelling.
-/

namespace GreetingService.Json

open Results

/-! ## Objects of optional texts

The bytes of an object with optional texts as its values, whatever its keys, and what is read from
them. Requests and responses are both written as such objects.
-/

/-- The value of an optional text. -/
def Value.ofText : Option String → Value
  | none => .null
  | some s => .text s

theorem says_ofText (text : Option String) : Says [Value.ofText text] text := by
  cases text with
  | none => exact .null
  | some s => exact .text s

/-- The bytes of an optional text. -/
def textBytes : Option String → Bytes
  | none => Byte.lowerN :: nullTail
  | some s => Byte.quote :: quotedBytes s ++ [Byte.quote]

/-- The bytes of a member with an optional text, behind the quote of its key. -/
def memberBytes (member : String × Option String) : Bytes :=
  quotedBytes member.1 ++ Byte.quote :: Byte.colon :: textBytes member.2

/-- The bytes of members behind another one, up to the closing bracket. -/
def othersBytes : List (String × Option String) → Bytes
  | [] => [Byte.closeObject]
  | member :: members => Byte.comma :: Byte.quote :: memberBytes member ++ othersBytes members

/-- The bytes of an object. -/
def objectBytes : List (String × Option String) → Bytes
  | [] => [Byte.openObject, Byte.closeObject]
  | member :: members =>
    Byte.openObject :: Byte.quote :: memberBytes member ++ othersBytes members

/-- The members of an object, as read. -/
def valuesOf (members : List (String × Option String)) : List (String × Value) :=
  members.map fun member => (member.1, .ofText member.2)

theorem readValue_textBytes (text : Option String) (rest : Bytes) (depth : Nat) :
    readValue (depth + 1) (textBytes text ++ rest) = .ok (.ofText text, rest) := by
  cases text with
  | none => rfl
  | some s =>
      have hbytes : textBytes (some s) ++ rest
          = Byte.quote :: quotedBytes s ++ Byte.quote :: rest := by
        simp [textBytes]
      rw [hbytes, readValue_quoted]
      rfl

theorem memberFrom_memberBytes (member : String × Option String) (rest : Bytes) (depth : Nat) :
    memberFrom (readValue (depth + 1)) (Byte.quote :: memberBytes member ++ rest)
      = .ok ((member.1, .ofText member.2), rest) := by
  have hkey : readKey ((Byte.quote :: memberBytes member ++ rest).drop 1)
      = .ok (member.1, textBytes member.2 ++ rest) := by
    have hbytes : (Byte.quote :: memberBytes member ++ rest).drop 1
        = quotedBytes member.1 ++ Byte.quote :: Byte.colon :: (textBytes member.2 ++ rest) := by
      simp [memberBytes]
    rw [hbytes, readKey, readText_quoted]
    rfl
  exact memberFrom_eq_ok_iff.2 ⟨_, hkey, readValue_textBytes member.2 rest depth⟩

/-- Written members are read back one by one. -/
theorem membersFrom_othersBytes (depth : Nat) (members : List (String × Option String))
    (rest : Bytes) {bound : Bytes} (hbound : (othersBytes members).length ≤ bound.length) :
    membersFrom (readValue (depth + 1)) bound false (othersBytes members ++ rest)
      = .ok (valuesOf members, rest) := by
  induction members generalizing bound with
  | nil =>
      cases bound with
      | nil => simp [othersBytes] at hbound
      | cons x bound => rfl
  | cons member members ih =>
      cases bound with
      | nil => simp [othersBytes] at hbound
      | cons x bound =>
          have hlen : (othersBytes members).length ≤ bound.length := by
            simp only [othersBytes, List.length_cons, List.length_append] at hbound
            omega
          have hbytes : othersBytes (member :: members) ++ rest
              = Byte.comma :: (Byte.quote :: memberBytes member
                  ++ (othersBytes members ++ rest)) := by
            simp [othersBytes]
          -- behind a comma there is a member, and what is left has the same form again
          rw [hbytes]
          exact membersFrom_cons_iff.2 (.inr ⟨_, (member.1, .ofText member.2), _, valuesOf members,
            rfl, memberFrom_memberBytes member _ depth, ih hlen, rfl⟩)

theorem membersFrom_objectBytes (depth : Nat) (members : List (String × Option String)) :
    membersFrom (readValue (depth + 1)) (objectBytes members).tail true (objectBytes members).tail
      = .ok (valuesOf members, []) := by
  cases members with
  | nil => rfl
  | cons member members =>
      have hlen : (othersBytes members).length
          ≤ (memberBytes member ++ othersBytes members).length := by
        simp
      have hothers := membersFrom_othersBytes depth members [] hlen
      rw [List.append_nil] at hothers
      exact membersFrom_cons_iff.2 (.inr ⟨_, (member.1, .ofText member.2), othersBytes members,
        valuesOf members, rfl, memberFrom_memberBytes member _ depth, hothers, rfl⟩)

/-- The value of an object with the given members, which it keeps in the order of their keys. -/
def Value.ofTexts (members : List (String × Option String)) : Value :=
  .object ((valuesOf members).foldl (fun all (key, value) => Value.insert key value all) [])

theorem insert_of_forall_lt {key : String} {value : Value} {members : List (String × Value)}
    (h : ∀ member ∈ members, member.1 < key) :
    Value.insert key value members = members ++ [(key, value)] := by
  induction members with
  | nil => rfl
  | cons member members ih =>
      rw [List.forall_mem_cons] at h
      have hne : ¬ key = member.1 := by
        rintro rfl
        exact String.lt_irrefl _ h.1
      rw [Value.insert, if_neg (String.lt_asymm h.1), if_neg hne, ih h.2, List.cons_append]

/-- Members that stand in the order of their keys stay where they are. -/
theorem foldl_insert_of_sorted {all members : List (String × Value)}
    (h : ((all ++ members).map Prod.fst).Pairwise (· < ·)) :
    members.foldl (fun all (key, value) => Value.insert key value all) all = all ++ members := by
  induction members generalizing all with
  | nil => simp
  | cons member members ih =>
      rcases member with ⟨key, value⟩
      have hbefore : ∀ earlier ∈ all, earlier.1 < key := by
        rw [List.map_append, List.pairwise_append] at h
        intro earlier hmem
        exact h.2.2 _ (List.mem_map_of_mem hmem) _ (by simp)
      rw [List.append_cons] at h ⊢
      rw [List.foldl_cons]
      dsimp only
      rw [insert_of_forall_lt hbefore]
      exact ih h

theorem skipBlanks_objectBytes (members : List (String × Option String)) :
    skipBlanks (objectBytes members) = Byte.openObject :: (objectBytes members).tail := by
  cases members <;> rfl

theorem readValue_objectBytes (depth : Nat) (members : List (String × Option String)) :
    readValue (depth + 2) (objectBytes members) = .ok (.ofTexts members, []) := by
  rw [readValue_members (skipBlanks_objectBytes members), membersFrom_objectBytes]
  rfl

theorem parse_objectBytes (members : List (String × Option String)) :
    Value.parse (objectBytes members) = .ok (.ofTexts members) :=
  Value.parse_eq_ok_iff.2 ⟨[], readValue_objectBytes 126 members, rfl⟩

/-- A record is read in one pass from what is written, if the value is one and no field comes
twice. -/
theorem Shape.parse_objectBytes {φ : Type} [BEq φ] [LawfulBEq φ] {shape : Shape φ}
    {members : List (String × Option String)} {given : Given φ}
    (hnodup : ((members.map Prod.fst).filterMap shape.ofKey?).Nodup)
    (hof : shape.ofValue (.ofTexts members) = .ok given) :
    ∃ given', shape.parse (objectBytes members) = .ok given' ∧
      ∀ field, given.lookup field = given'.lookup field := by
  have hkeys : (valuesOf members).map Prod.fst = members.map Prod.fst := by
    rw [valuesOf, List.map_map]
    rfl
  rw [← hkeys, ← fields_recognized, ← named_eq (skipBlanks_objectBytes members)
    (membersFrom_objectBytes 125 members)] at hnodup
  rcases read_of_ofValue (readValue_objectBytes 126 members) hnodup hof with
    ⟨given', hread, hlookup⟩
  exact ⟨given', Shape.parse_eq_ok_iff.2 ⟨[], hread, rfl⟩, hlookup⟩

end GreetingService.Json

namespace GreetingService.Request

open Json Results

/-! ## Requests -/

/-- The members of a written request. -/
def members (r : Request) : List (String × Option String) :=
  [("field1", r.field1), ("field2", r.field2), ("field3", r.field3)]

theorem bytes_writeText (text : Option String) : Text.bytes (writeText text) = textBytes text := by
  cases text with
  | none => decide
  | some s => exact bytes_quote s

theorem bytes_write (r : Request) : Text.bytes r.write = objectBytes r.members := by
  have hfirst : Text.bytes "\x7b\"field1\":"
      = Byte.openObject :: (Byte.quote :: quotedBytes "field1" ++ [Byte.quote, Byte.colon]) := by
    decide
  have hsecond : Text.bytes ",\"field2\":"
      = Byte.comma :: (Byte.quote :: quotedBytes "field2" ++ [Byte.quote, Byte.colon]) := by
    decide
  have hthird : Text.bytes ",\"field3\":"
      = Byte.comma :: (Byte.quote :: quotedBytes "field3" ++ [Byte.quote, Byte.colon]) := by
    decide
  have hend : Text.bytes "\x7d" = [Byte.closeObject] := by
    decide
  simp only [write, Text.bytes_append, hfirst, hsecond, hthird, hend, bytes_writeText]
  simp [members, objectBytes, othersBytes, memberBytes]

theorem ofTexts_members (r : Request) :
    Value.ofTexts r.members = .object (valuesOf r.members) := by
  have hsorted : ((valuesOf r.members).map Prod.fst).Pairwise (· < ·) := by
    change ["field1", "field2", "field3"].Pairwise (· < ·)
    decide
  rw [Value.ofTexts, foldl_insert_of_sorted hsorted, List.nil_append]

theorem ofValue_members (r : Request) : ofValue (.ofTexts r.members) = .ok r := by
  rw [ofTexts_members, ofValue_object_iff]
  intro field
  cases field <;> exact says_ofText _

theorem parse_write (r : Request) : parse (Text.bytes r.write) = .ok r := by
  have hnodup : ((r.members.map Prod.fst).filterMap shape.ofKey?).Nodup := by
    change (["field1", "field2", "field3"].filterMap shape.ofKey?).Nodup
    decide
  rcases map_eq_ok_iff.1 r.ofValue_members with ⟨given, hof, hgiven⟩
  rcases Shape.parse_objectBytes hnodup hof with ⟨given', hparse, hlookup⟩
  rw [bytes_write]
  refine map_eq_ok_iff.2 ⟨given', hparse, ?_⟩
  rw [← ofGiven_congr hlookup]
  exact hgiven

theorem exists_value_write (r : Request) :
    ∃ value, Value.parse (Text.bytes r.write) = .ok value ∧ ofValue value = .ok r := by
  rw [bytes_write]
  exact ⟨_, parse_objectBytes r.members, r.ofValue_members⟩

theorem le_of_mem_writeText {text : Option String} {c : Char} (h : c ∈ (writeText text).toList) :
    32 ≤ c.toNat := by
  cases text with
  | none => exact le_of_all (by decide) h
  | some s => exact le_of_mem_quote h

/-- The written form of a request is a single line. -/
theorem le_of_mem_write {r : Request} {c : Char} (h : c ∈ r.write.toList) : 32 ≤ c.toNat := by
  simp only [write, String.toList_append, List.mem_append] at h
  rcases h with (((((hfirst | htext₁) | hsecond) | htext₂) | hthird) | htext₃) | hend
  · exact le_of_all (by decide) hfirst
  · exact le_of_mem_writeText htext₁
  · exact le_of_all (by decide) hsecond
  · exact le_of_mem_writeText htext₂
  · exact le_of_all (by decide) hthird
  · exact le_of_mem_writeText htext₃
  · exact le_of_all (by decide) hend

/-- A document stands for a request if it is read as that one, in one pass or by its value. -/
def StandsFor (document : Bytes) (r : Request) : Prop :=
  parse document = .ok r ∨ ∃ value, Value.parse document = .ok value ∧ ofValue value = .ok r

theorem ofValue_of_parse {document : Bytes} {value : Value} {r : Request}
    (hparse : parse document = .ok r) (hvalue : Value.parse document = .ok value) :
    ofValue value = .ok r := by
  rcases map_eq_ok_iff.1 hparse with ⟨given, hgiven, rfl⟩
  rcases Shape.parse_eq_ok_iff.1 hgiven with ⟨rest, hrecord, _⟩
  rcases Value.parse_eq_ok_iff.1 hvalue with ⟨rest', hread, _⟩
  rcases Shape.ofValue_of_read hread hrecord with ⟨_, _, given', hof, hlookup⟩
  exact map_eq_ok_iff.2 ⟨given', hof, ofGiven_congr hlookup⟩

/-- The two ways never lead to different requests. -/
theorem StandsFor.unique {document : Bytes} {r r' : Request} (h : StandsFor document r)
    (h' : StandsFor document r') : r = r' := by
  have heq : ∀ {r r' : Request} {value : Value}, ofValue value = .ok r →
      ofValue value = .ok r' → r = r' := by
    intro r r' value hr hr'
    rw [hr] at hr'
    cases hr'
    rfl
  rcases h with hparse | ⟨value, hvalue, hof⟩
  · rcases h' with hparse' | ⟨value, hvalue, hof⟩
    · rw [hparse] at hparse'
      cases hparse'
      rfl
    · exact heq (ofValue_of_parse hparse hvalue) hof
  · rcases h' with hparse | ⟨value', hvalue', hof'⟩
    · exact heq hof (ofValue_of_parse hparse hvalue)
    · rw [hvalue] at hvalue'
      cases hvalue'
      exact heq hof hof'

/-- Requests with one written form are one. -/
theorem write_injective : Function.Injective write := by
  intro r r' h
  have hparse := r.parse_write
  rw [h, parse_write] at hparse
  cases hparse
  rfl

end GreetingService.Request

namespace GreetingService.Response

open Json Results

/-! ## Responses -/

/-- The members of a written response. -/
def members (p : Response) : List (String × Option String) :=
  [("message", some p.message)]

theorem bytes_write (p : Response) : Text.bytes p.write = objectBytes p.members := by
  have hfront : Text.bytes "\x7b\"message\":"
      = Byte.openObject :: (Byte.quote :: quotedBytes "message" ++ [Byte.quote, Byte.colon]) := by
    decide
  have hend : Text.bytes "\x7d" = [Byte.closeObject] := by
    decide
  rw [write, Text.bytes_append, Text.bytes_append, hfront, hend, bytes_quote]
  simp [members, objectBytes, othersBytes, memberBytes, textBytes]

/-- The written form of a response stands for an object with one member. -/
theorem value_write (p : Response) :
    Value.parse (Text.bytes p.write) = .ok (.object [("message", .text p.message)]) := by
  rw [bytes_write]
  exact parse_objectBytes p.members

theorem parse_write (p : Response) : parse (Text.bytes p.write) = .ok p := by
  have hnodup : ((p.members.map Prod.fst).filterMap shape.ofKey?).Nodup := by
    change (["message"].filterMap shape.ofKey?).Nodup
    decide
  have hof : shape.ofValue (.ofTexts p.members) = .ok [(.message, some p.message)] := rfl
  rcases Shape.parse_objectBytes hnodup hof with ⟨given', hparse, hlookup⟩
  rw [bytes_write]
  refine map_eq_ok_iff.2 ⟨given', hparse, ?_⟩
  rw [ofGiven, Shape.Given.text?, ← hlookup]
  rfl

/-- The written form of a response is a single line. -/
theorem le_of_mem_write {p : Response} {c : Char} (h : c ∈ p.write.toList) : 32 ≤ c.toNat := by
  rw [write, String.toList_append, String.toList_append] at h
  simp only [List.mem_append] at h
  rcases h with (hfront | hmessage) | hend
  · exact le_of_all (by decide) hfront
  · exact le_of_mem_quote hmessage
  · exact le_of_all (by decide) hend

end GreetingService.Response

namespace GreetingService

open Json

/-- What was written of a request is read back, in one pass and by its value, and so is what was
written of a response; neither has a line break or another control character. A document that stands
for a request can therefore be replaced by the written form of the request: it stands for the same
one, and documents of one request have one written form in common. -/
theorem written_records_read_back :
    (∀ r : Request, Request.parse (Text.bytes r.write) = .ok r ∧
      (∃ value, Value.parse (Text.bytes r.write) = .ok value ∧ Request.ofValue value = .ok r) ∧
      ∀ c ∈ r.write.toList, 32 ≤ c.toNat) ∧
    (∀ p : Response, Response.parse (Text.bytes p.write) = .ok p ∧
      ∀ c ∈ p.write.toList, 32 ≤ c.toNat) ∧
    ∀ document r, Request.StandsFor document r →
      (∀ r', Request.StandsFor (Text.bytes r.write) r' ↔ Request.StandsFor document r') ∧
      ∀ document' r', Request.StandsFor document' r' → (r'.write = r.write ↔ r' = r) := by
  refine ⟨fun r => ⟨r.parse_write, r.exists_value_write, fun c => Request.le_of_mem_write⟩,
    fun p => ⟨p.parse_write, fun c => Response.le_of_mem_write⟩, ?_⟩
  intro document r h
  refine ⟨fun r' => ?_, fun document' r' _ => Request.write_injective.eq_iff⟩
  have hwritten : Request.StandsFor (Text.bytes r.write) r := .inl r.parse_write
  constructor
  · intro h'
    rw [h'.unique hwritten]
    exact h
  · intro h'
    rw [h'.unique h]
    exact hwritten

/-- A document with an escape in an older key and a member that nobody asked for, and the written
form of its request. -/
theorem written_records_read_back_respelled :
    Request.StandsFor Request.respelled ⟨some "a", none, none⟩ ∧
    (⟨some "a", none, none⟩ : Request).write
      = "\x7b\"field1\":\"a\",\"field2\":null,\"field3\":null\x7d" ∧
    ∀ r, Request.StandsFor (Text.bytes
      "\x7b\"field1\":\"a\",\"field2\":null,\"field3\":null\x7d") r ↔
        Request.StandsFor Request.respelled r := by
  have hparse : (Request.parse Request.respelled).toOption = some ⟨some "a", none, none⟩ := by
    decide +kernel
  have hwrite : (⟨some "a", none, none⟩ : Request).write
      = "\x7b\"field1\":\"a\",\"field2\":null,\"field3\":null\x7d" := by
    decide
  have hstands : Request.StandsFor Request.respelled ⟨some "a", none, none⟩ :=
    .inl (Results.toOption_eq_some_iff.1 hparse)
  refine ⟨hstands, hwrite, ?_⟩
  rw [← hwrite]
  exact (written_records_read_back.2.2 _ _ hstands).1

end GreetingService
