import GreetingService.Proofs.SkimValue

/-!
# Outlines

The outline of a document says which members its object has, in the order of the text, and where
their values start. It is there as soon as the object can be skimmed. Members are read at the places
of the outline: all of them can be read, or there is one whose value can only be skimmed.
-/

namespace GreetingService.Json

open Results

/-- Passes a value and keeps the place where it starts. -/
def skimItem (bs : Bytes) : Except Fault (Bytes × Bytes) :=
  (skimValue bs).map fun rest => (bs, rest)

/-- The members of the object that a document holds, in the order of the text: their keys, and the
rest of the document from their values on. -/
def outline (document : Bytes) : List (String × Bytes) :=
  match skipBlanks document with
  | [] => []
  | b :: rest =>
    if b = Byte.openObject then
      match readMembers skimItem rest [] rest with
      | .ok (members, _) => members
      | .error _ => []
    else []

/-- The place of a member in an outline, and the member that is read there. -/
def IsReadAs {α : Type} (readItem : Bytes → Except Fault (α × Bytes)) (place : String × Bytes)
    (member : String × α) : Prop :=
  place.1 = member.1 ∧ ∃ rest, readItem place.2 = .ok (member.2, rest)

section Outline

variable {α : Type} {readItem : Bytes → Except Fault (α × Bytes)}

theorem skimItem_eq_ok_iff {bs start rest : Bytes} :
    skimItem bs = .ok (start, rest) ↔ start = bs ∧ skimValue bs = .ok rest := by
  rw [skimItem, map_eq_ok_iff]
  constructor
  · rintro ⟨rest', hskim, heq⟩
    cases heq
    exact ⟨rfl, hskim⟩
  · rintro ⟨rfl, hskim⟩
    exact ⟨rest, hskim, rfl⟩

theorem memberFrom_skimItem_iff {bs start rest : Bytes} {key : String} :
    memberFrom skimItem bs = .ok ((key, start), rest) ↔
      readKey (bs.drop 1) = .ok (key, start) ∧ skimValue start = .ok rest := by
  rw [memberFrom_eq_ok_iff]
  simp only [skimItem_eq_ok_iff]
  constructor
  · rintro ⟨_, hkey, rfl, hskim⟩
    exact ⟨hkey, hskim⟩
  · rintro ⟨hkey, hskim⟩
    exact ⟨start, hkey, rfl, hskim⟩

theorem SkimmedAs.memberFrom_iff (hitem : SkimmedAs readItem) {bs rest : Bytes}
    {member : String × α} :
    memberFrom readItem bs = .ok (member, rest) ↔
      ∃ place, memberFrom skimItem bs = .ok (place, rest) ∧ IsReadAs readItem place member := by
  rcases member with ⟨key, item⟩
  rw [memberFrom_eq_ok_iff]
  constructor
  · rintro ⟨start, hkey, hread⟩
    refine ⟨(key, start), memberFrom_skimItem_iff.2 ⟨hkey, hitem.skimValue_eq hread⟩, rfl, ?_⟩
    exact ⟨rest, hread⟩
  · rintro ⟨⟨key', start⟩, hplace, hkeys, rest', hread⟩
    rcases memberFrom_skimItem_iff.1 hplace with ⟨hkey, hskim⟩
    cases hkeys
    have hrest := hitem.skimValue_eq hread
    rw [hskim] at hrest
    cases hrest
    exact ⟨start, hkey, hread⟩

/-- Members are read at the places that the outline has for them. -/
theorem SkimmedAs.membersFrom_iff (hitem : SkimmedAs readItem) {bound bs rest : Bytes}
    {first : Bool} {members : List (String × α)} :
    membersFrom readItem bound first bs = .ok (members, rest) ↔
      ∃ places, membersFrom skimItem bound first bs = .ok (places, rest) ∧
        List.Forall₂ (IsReadAs readItem) places members := by
  induction bound generalizing first bs members with
  | nil =>
      constructor
      · intro h
        cases h
      · rintro ⟨places, h, _⟩
        cases h
  | cons x bound ih =>
      simp only [membersFrom_cons_iff]
      constructor
      · rintro (⟨mid, hnext, rfl, rfl⟩ | ⟨start, member, mid, others, hnext, hmember, hothers, rfl⟩)
        · exact ⟨[], .inl ⟨mid, hnext, rfl, rfl⟩, .nil⟩
        · rcases hitem.memberFrom_iff.1 hmember with ⟨place, hplace, hread⟩
          rcases ih.1 hothers with ⟨places, hplaces, hreads⟩
          exact ⟨place :: places, .inr ⟨start, place, mid, places, hnext, hplace, hplaces, rfl⟩,
            .cons hread hreads⟩
      · rintro ⟨all, ⟨mid, hnext, rfl, rfl⟩ | ⟨start, place, mid, places, hnext, hplace, hplaces, rfl⟩,
          hreads⟩
        · cases hreads
          exact .inl ⟨mid, hnext, rfl, rfl⟩
        · rcases hreads with _ | ⟨hread, hreads⟩
          exact .inr ⟨start, _, mid, _, hnext, hitem.memberFrom_iff.2 ⟨place, hplace, hread⟩,
            ih.2 ⟨places, hplaces, hreads⟩, rfl⟩

/-- Each place of an outline can be skimmed. -/
theorem skimValue_of_mem {bound bs rest : Bytes} {first : Bool} {places : List (String × Bytes)}
    (h : membersFrom skimItem bound first bs = .ok (places, rest)) {place : String × Bytes}
    (hplace : place ∈ places) : ∃ rest, skimValue place.2 = .ok rest := by
  induction bound generalizing first bs places with
  | nil => cases h
  | cons x bound ih =>
      rcases membersFrom_cons_iff.1 h with
        ⟨mid, _, rfl, _⟩ | ⟨start, ⟨key, value⟩, mid, others, _, hmember, hothers, rfl⟩
      · cases hplace
      · rcases List.mem_cons.1 hplace with rfl | hrest
        · exact ⟨mid, (memberFrom_skimItem_iff.1 hmember).2⟩
        · exact ih hothers hrest

/-- What can be skimmed is either read or refused for a strict cause. -/
theorem SkimmedAs.isStrict (hitem : SkimmedAs readItem) {bs rest : Bytes}
    (hskim : skimValue bs = .ok rest) {fault : Fault} (hfault : readItem bs = .error fault) :
    fault.cause.IsStrict := by
  have hfollows := hitem [] bs
  rw [hfault] at hfollows
  rcases hfollows with hstrict | ⟨other, herror⟩
  · exact hstrict
  · have hskim' : skimOn [] .before bs = .ok rest := hskim
    rw [herror] at hskim'
    cases hskim'

/-- Members that have an outline but are refused have a value that is refused. -/
theorem SkimmedAs.exists_of_error (hitem : SkimmedAs readItem) {bound bs rest : Bytes}
    {first : Bool} {places : List (String × Bytes)}
    (h : membersFrom skimItem bound first bs = .ok (places, rest)) {fault : Fault}
    (hfault : membersFrom readItem bound first bs = .error fault) :
    ∃ place ∈ places, readItem place.2 = .error fault := by
  induction bound generalizing first bs places with
  | nil => cases h
  | cons x bound ih =>
      rw [membersFrom] at hfault
      rcases membersFrom_cons_iff.1 h with
        ⟨mid, hnext, rfl, _⟩ | ⟨start, ⟨key, value⟩, mid, others, hnext, hplace, hothers, rfl⟩
      · rw [hnext] at hfault
        cases hfault
      · rcases memberFrom_skimItem_iff.1 hplace with ⟨hkey, hskim⟩
        simp only [hnext, bind, Except.bind, if_true] at hfault
        cases hread : readItem value with
        | error fault' =>
            have hmember : memberFrom readItem start = .error fault' := by
              rw [memberFrom, hkey]
              simp only [bind, Except.bind, hread]
            rw [hmember] at hfault
            cases hfault
            exact ⟨_, List.mem_cons_self, hread⟩
        | ok p =>
            rcases p with ⟨item, after⟩
            have hafter := hitem.skimValue_eq hread
            rw [hskim] at hafter
            cases hafter
            rw [memberFrom_eq_ok_iff.2 ⟨value, hkey, hread⟩] at hfault
            dsimp only at hfault
            rcases hrest : membersFrom readItem bound false mid with fault' | ⟨more, rest'⟩
            · rw [hrest] at hfault
              cases hfault
              rcases ih hothers hrest with ⟨place, hmem, herror⟩
              exact ⟨place, List.mem_cons_of_mem _ hmem, herror⟩
            · rw [hrest] at hfault
              cases hfault

/-! Values by the byte that they start with. -/

theorem readValue_items {bs rest : Bytes} (h : skipBlanks bs = Byte.openList :: rest)
    (depth : Nat) :
    readValue (depth + 2) bs
      = (itemsFrom (readValue (depth + 1)) rest true rest).map fun p => (.list p.1, p.2) := by
  rw [readValue, h]
  simp only [if_true, Nat.add_eq_zero_iff, one_ne_zero, and_false, if_false, readItems_eq,
    List.isEmpty_nil]
  rcases itemsFrom (readValue (depth + 1)) rest true rest with fault | ⟨items, rest'⟩ <;> rfl

theorem readValue_members {bs rest : Bytes} (h : skipBlanks bs = Byte.openObject :: rest)
    (depth : Nat) :
    readValue (depth + 2) bs
      = (membersFrom (readValue (depth + 1)) rest true rest).map fun p =>
          (.object (p.1.foldl (fun all (key, value) => Value.insert key value all) []), p.2) := by
  have hne : ¬ Byte.openObject = Byte.openList := by decide
  rw [readValue, h]
  simp only [if_neg hne, if_true, Nat.add_eq_zero_iff, one_ne_zero, and_false, if_false,
    readMembers_eq, List.isEmpty_nil]
  rcases membersFrom (readValue (depth + 1)) rest true rest with fault | ⟨members, rest'⟩ <;> rfl

theorem readValue_scalar {b : UInt8} {bs rest : Bytes} (h : skipBlanks bs = b :: rest)
    (hlist : b ≠ Byte.openList) (hobject : b ≠ Byte.openObject) (depth : Nat) :
    readValue (depth + 1) bs = readScalar b rest := by
  rw [readValue, h]
  simp only [if_neg hlist, if_neg hobject]

end Outline

end GreetingService.Json
