import GreetingService.Proofs.SkimToken

/-!
# Values are skimmed as they are read

The reader goes down into brackets by recursion, the skimmer keeps those that are open in a list. To
compare the two, the brackets around a value may be any: skimming in front of the value comes to
skimming on behind it. A list or an object is compared item by item, where the skimmer stands inside
its bracket all the time.
-/

namespace GreetingService.Json

open Results

/-! ## Skimming without a bound -/

/-- Skims from a place on, until no bracket is open. -/
def skimOn (opened : List Bracket) (stand : Stand) (bs : Bytes) : Except Fault Bytes :=
  skimFrom bs opened stand bs

/-- Skims on from where one round has come to. -/
def skimNext (place : List Bracket × Stand × Bytes) : Except Fault Bytes :=
  skimOn place.1 place.2.1 place.2.2

theorem skipBlanks_skipBlanks (bs : Bytes) : skipBlanks (skipBlanks bs) = skipBlanks bs := by
  induction bs with
  | nil => rfl
  | cons b bs ih =>
      by_cases hb : Byte.isBlank b = true
      · simpa [skipBlanks, List.dropWhile_cons, hb] using ih
      · simp [skipBlanks, hb]

theorem length_lt_of_skipBlanks {b : UInt8} {bs rest : Bytes} (h : skipBlanks bs = b :: rest) :
    rest.length < bs.length := by
  have hle : (skipBlanks bs).length ≤ bs.length := (List.dropWhile_suffix _).length_le
  rw [h] at hle
  exact hle

theorem length_lt_of_readColon {bs rest : Bytes} (h : readColon bs = .ok rest) :
    rest.length < bs.length := by
  unfold readColon at h
  split at h
  · cases h
  · rename_i hblanks
    split at h
    · cases h
      exact length_lt_of_skipBlanks hblanks
    · cases h

theorem length_le_of_skimKey {bracket : Bracket} {bs rest : Bytes}
    (h : skimKey bracket bs = .ok rest) : rest.length ≤ bs.length := by
  cases bracket with
  | list =>
      cases h
      exact Nat.le_refl _
  | object =>
      simp only [skimKey] at h
      split at h
      · cases h
      · rename_i hblanks
        split at h
        · rcases bind_eq_ok_iff.1 h with ⟨mid, htext, hcolon⟩
          have hfirst := length_lt_of_skipBlanks hblanks
          have hsecond := length_lt_of_skimText htext
          have hthird := length_lt_of_readColon hcolon
          omega
        · cases h

theorem length_le_of_skimOpened {bracket : Bracket} {opened opened' : List Bracket} {stand : Stand}
    {bs rest : Bytes} (h : skimOpened bracket opened bs = .ok (opened', stand, rest)) :
    rest.length ≤ bs.length := by
  unfold skimOpened at h
  split at h
  · cases h
  · rename_i hblanks
    have hlt := length_lt_of_skipBlanks hblanks
    split at h
    · cases h
      exact hlt.le
    · rcases map_eq_ok_iff.1 h with ⟨rest, hkey, heq⟩
      cases heq
      exact (length_le_of_skimKey hkey).trans hlt

theorem length_lt_of_skimBehind {bracket : Bracket} {opened opened' : List Bracket} {stand : Stand}
    {bs rest : Bytes} (h : skimBehind bracket opened bs = .ok (opened', stand, rest)) :
    rest.length < bs.length := by
  unfold skimBehind at h
  split at h
  · cases h
  · rename_i hblanks
    have hlt := length_lt_of_skipBlanks hblanks
    split at h
    · cases h
      exact hlt
    · split at h
      · rcases map_eq_ok_iff.1 h with ⟨rest, hkey, heq⟩
        cases heq
        exact (length_le_of_skimKey hkey).trans_lt hlt
      · cases h

theorem length_lt_of_skimBefore {opened opened' : List Bracket} {stand : Stand} {bs rest : Bytes}
    (h : skimBefore opened bs = .ok (opened', stand, rest)) : rest.length < bs.length := by
  unfold skimBefore at h
  split at h
  · cases h
  · rename_i hblanks
    have hlt := length_lt_of_skipBlanks hblanks
    split at h
    · exact (length_le_of_skimOpened h).trans_lt hlt
    · split at h
      · exact (length_le_of_skimOpened h).trans_lt hlt
      · rcases map_eq_ok_iff.1 h with ⟨rest, hscalar, heq⟩
        cases heq
        exact (length_le_of_skimScalar hscalar).trans_lt hlt

/-- Rounds that are not needed do not count. -/
theorem skimFrom_eq_skimOn {bound bs : Bytes} (h : bs.length ≤ bound.length)
    (opened : List Bracket) (stand : Stand) :
    skimFrom bound opened stand bs = skimOn opened stand bs := by
  suffices hbounds : ∀ {n : Nat} {bound bound' bs : Bytes} {opened : List Bracket} {stand : Stand},
      bs.length ≤ n → n ≤ bound.length → n ≤ bound'.length →
        skimFrom bound opened stand bs = skimFrom bound' opened stand bs from
    hbounds (Nat.le_refl _) h (Nat.le_refl _)
  -- every round passes a byte, so both bounds outlast the bytes
  intro n
  induction n with
  | zero =>
      intro bound bound' bs opened stand hbs _ _
      rw [List.eq_nil_of_length_eq_zero (Nat.le_zero.1 hbs)]
      cases opened <;> cases stand <;> cases bound <;> cases bound' <;> rfl
  | succ n ih =>
      intro bound bound' bs opened stand hbs hbound hbound'
      match bound, bound' with
      | _ :: bound, _ :: bound' =>
          simp only [List.length_cons, Nat.add_le_add_iff_right] at hbound hbound'
          match opened, stand with
          | [], .behind => rfl
          | bracket :: opened, .behind =>
              rw [skimFrom, skimFrom]
              cases hround : skimBehind bracket opened bs with
              | error fault => rfl
              | ok place =>
                  have hlt := length_lt_of_skimBehind hround
                  exact ih (by omega) hbound hbound'
          | opened, .before =>
              rw [skimFrom, skimFrom]
              cases hround : skimBefore opened bs with
              | error fault => rfl
              | ok place =>
                  have hlt := length_lt_of_skimBefore hround
                  exact ih (by omega) hbound hbound'

theorem skimOn_done (bs : Bytes) : skimOn [] .behind bs = .ok bs := by
  cases bs <;> rfl

theorem skimOn_behind (bracket : Bracket) (opened : List Bracket) (bs : Bytes) :
    skimOn (bracket :: opened) .behind bs = skimBehind bracket opened bs >>= skimNext := by
  cases bs with
  | nil => rfl
  | cons b bs =>
      rw [skimOn, skimFrom]
      cases hround : skimBehind bracket opened (b :: bs) with
      | error fault => rfl
      | ok place =>
          have hlt := length_lt_of_skimBehind hround
          exact skimFrom_eq_skimOn (Nat.le_of_lt_succ hlt) _ _

theorem skimOn_before (opened : List Bracket) (bs : Bytes) :
    skimOn opened .before bs = skimBefore opened bs >>= skimNext := by
  cases bs with
  | nil => cases opened <;> rfl
  | cons b bs =>
      rw [skimOn, skimFrom]
      cases hround : skimBefore opened (b :: bs) with
      | error fault => rfl
      | ok place =>
          have hlt := length_lt_of_skimBefore hround
          exact skimFrom_eq_skimOn (Nat.le_of_lt_succ hlt) _ _

theorem skimOn_skipBlanks (opened : List Bracket) (bs : Bytes) :
    skimOn opened .before (skipBlanks bs) = skimOn opened .before bs := by
  rw [skimOn_before, skimOn_before, skimBefore, skimBefore, skipBlanks_skipBlanks]

/-- Skimming always gets on, whatever is open. -/
theorem length_le_of_skimOn {opened : List Bracket} {stand : Stand} {bs rest : Bytes}
    (h : skimOn opened stand bs = .ok rest) : rest.length ≤ bs.length := by
  induction hn : bs.length using Nat.strong_induction_on generalizing opened stand bs with
  | _ n ih =>
      subst hn
      match opened, stand with
      | [], .behind =>
          rw [skimOn_done] at h
          cases h
          exact Nat.le_refl _
      | bracket :: opened, .behind =>
          rw [skimOn_behind] at h
          rcases bind_eq_ok_iff.1 h with ⟨⟨opened', stand, mid⟩, hround, h⟩
          have hlt := length_lt_of_skimBehind hround
          exact (ih _ hlt h rfl).trans hlt.le
      | opened, .before =>
          rw [skimOn_before] at h
          rcases bind_eq_ok_iff.1 h with ⟨⟨opened', stand, mid⟩, hround, h⟩
          have hlt := length_lt_of_skimBefore hround
          exact (ih _ hlt h rfl).trans hlt.le

theorem length_lt_of_skimValue {bs rest : Bytes} (h : skimValue bs = .ok rest) :
    rest.length < bs.length := by
  have hon : skimOn [] .before bs = .ok rest := h
  rw [skimOn_before] at hon
  rcases bind_eq_ok_iff.1 hon with ⟨⟨opened, stand, mid⟩, hround, hmid⟩
  exact (length_le_of_skimOn hmid).trans_lt (length_lt_of_skimBefore hround)

/-! ## Inside brackets -/

/-- Reads the items of a list without keeping those already read. -/
def itemsFrom {α : Type} (readItem : Bytes → Except Fault (α × Bytes)) :
    (bound : Bytes) → (first : Bool) → Bytes → Except Fault (List α × Bytes)
  | [], _, _ => refuseAt [] .endOfList
  | _ :: bound, first, bs => do
    let (more, rest) ← nextItem first bs
    if more then
      let (item, rest) ← readItem rest
      let (items, rest) ← itemsFrom readItem bound false rest
      .ok (item :: items, rest)
    else .ok ([], rest.drop 1)

/-- Reads the key of a member, behind its quote, and passes the colon. -/
def readKey (bs : Bytes) : Except Fault (String × Bytes) := do
  let (key, rest) ← readText bs
  let rest ← readColon rest
  .ok (key, rest)

/-- Reads one member of an object, from the quote of its key on. -/
def memberFrom {α : Type} (readItem : Bytes → Except Fault (α × Bytes)) (bs : Bytes) :
    Except Fault ((String × α) × Bytes) := do
  let (key, rest) ← readKey (bs.drop 1)
  let (item, rest) ← readItem rest
  .ok ((key, item), rest)

/-- Reads the members of an object without keeping those already read. -/
def membersFrom {α : Type} (readItem : Bytes → Except Fault (α × Bytes)) :
    (bound : Bytes) → (first : Bool) → Bytes → Except Fault (List (String × α) × Bytes)
  | [], _, _ => refuseAt [] .endOfObject
  | _ :: bound, first, bs => do
    let (more, rest) ← nextMember first bs
    if more then
      let (member, rest) ← memberFrom readItem rest
      let (members, rest) ← membersFrom readItem bound false rest
      .ok (member :: members, rest)
    else .ok ([], rest.drop 1)

section Inside

variable {α : Type} (readItem : Bytes → Except Fault (α × Bytes))

theorem readItems_eq (bound : Bytes) (seen : List α) (bs : Bytes) :
    readItems readItem bound seen bs
      = (itemsFrom readItem bound seen.isEmpty bs).map fun p => (seen.reverse ++ p.1, p.2) := by
  induction bound generalizing seen bs with
  | nil => rfl
  | cons x bound ih =>
      rw [readItems, itemsFrom]
      rcases nextItem seen.isEmpty bs with fault | ⟨_ | _, rest⟩
      · rfl
      · simp [bind, Except.bind, Except.map]
      · rcases hitem : readItem rest with fault | ⟨item, rest⟩
        · simp [bind, Except.bind, Except.map, hitem]
        · simp only [ih, List.isEmpty_cons, bind, Except.bind, hitem, if_true]
          cases itemsFrom readItem bound false rest <;> simp [Except.map]

theorem readMembers_eq (bound : Bytes) (seen : List (String × α)) (bs : Bytes) :
    readMembers readItem bound seen bs
      = (membersFrom readItem bound seen.isEmpty bs).map fun p => (seen.reverse ++ p.1, p.2) := by
  induction bound generalizing seen bs with
  | nil => rfl
  | cons x bound ih =>
      rw [readMembers, membersFrom]
      rcases nextMember seen.isEmpty bs with fault | ⟨_ | _, rest⟩
      · rfl
      · simp [bind, Except.bind, Except.map]
      · have hmember : (do
            let (key, rest) ← readText (rest.drop 1)
            let rest ← readColon rest
            let (item, rest) ← readItem rest
            Except.ok ((key, item), rest)) = memberFrom readItem rest := by
          rw [memberFrom, readKey]
          rcases readText (rest.drop 1) with fault | ⟨key, rest⟩
          · rfl
          · simp only [bind, Except.bind]
            cases readColon rest <;> rfl
        dsimp only
        rw [hmember]
        rcases hmember : memberFrom readItem rest with fault | ⟨member, rest⟩
        · simp [bind, Except.bind, Except.map, hmember]
        · simp only [ih, List.isEmpty_cons, bind, Except.bind, hmember, if_true]
          cases membersFrom readItem bound false rest <;> simp [Except.map]

variable {readItem}

/-- A list ends, or goes on with an item. -/
theorem itemsFrom_cons_iff {x : UInt8} {bound bs rest : Bytes} {first : Bool} {items : List α} :
    itemsFrom readItem (x :: bound) first bs = .ok (items, rest) ↔
      (∃ mid, nextItem first bs = .ok (false, mid) ∧ items = [] ∧ rest = mid.drop 1) ∨
        ∃ start item mid others, nextItem first bs = .ok (true, start) ∧
          readItem start = .ok (item, mid) ∧
            itemsFrom readItem bound false mid = .ok (others, rest) ∧ items = item :: others := by
  rw [itemsFrom, bind_eq_ok_iff]
  constructor
  · rintro ⟨⟨_ | _, start⟩, hnext, h⟩
    · cases h
      exact .inl ⟨start, hnext, rfl, rfl⟩
    · simp only [if_true] at h
      rcases bind_eq_ok_iff.1 h with ⟨⟨item, mid⟩, hitem, h⟩
      rcases bind_eq_ok_iff.1 h with ⟨⟨others, rest'⟩, hothers, h⟩
      cases h
      exact .inr ⟨start, item, mid, others, hnext, hitem, hothers, rfl⟩
  · rintro (⟨mid, hnext, rfl, rfl⟩ | ⟨start, item, mid, others, hnext, hitem, hothers, rfl⟩)
    · exact ⟨_, hnext, rfl⟩
    · refine ⟨_, hnext, ?_⟩
      simp only [if_true]
      exact bind_eq_ok_iff.2 ⟨_, hitem, bind_eq_ok_iff.2 ⟨_, hothers, rfl⟩⟩

/-- An object ends, or goes on with a member. -/
theorem membersFrom_cons_iff {x : UInt8} {bound bs rest : Bytes} {first : Bool}
    {members : List (String × α)} :
    membersFrom readItem (x :: bound) first bs = .ok (members, rest) ↔
      (∃ mid, nextMember first bs = .ok (false, mid) ∧ members = [] ∧ rest = mid.drop 1) ∨
        ∃ start member mid others, nextMember first bs = .ok (true, start) ∧
          memberFrom readItem start = .ok (member, mid) ∧
            membersFrom readItem bound false mid = .ok (others, rest) ∧
              members = member :: others := by
  rw [membersFrom, bind_eq_ok_iff]
  constructor
  · rintro ⟨⟨_ | _, start⟩, hnext, h⟩
    · cases h
      exact .inl ⟨start, hnext, rfl, rfl⟩
    · simp only [if_true] at h
      rcases bind_eq_ok_iff.1 h with ⟨⟨member, mid⟩, hmember, h⟩
      rcases bind_eq_ok_iff.1 h with ⟨⟨others, rest'⟩, hothers, h⟩
      cases h
      exact .inr ⟨start, member, mid, others, hnext, hmember, hothers, rfl⟩
  · rintro (⟨mid, hnext, rfl, rfl⟩ | ⟨start, member, mid, others, hnext, hmember, hothers, rfl⟩)
    · exact ⟨_, hnext, rfl⟩
    · refine ⟨_, hnext, ?_⟩
      simp only [if_true]
      exact bind_eq_ok_iff.2 ⟨_, hmember, bind_eq_ok_iff.2 ⟨_, hothers, rfl⟩⟩

end Inside

/-- Skims what is left inside a bracket, behind it when `first` holds and behind a value in it
otherwise, and goes on behind the bracket. -/
def skimInside (first : Bool) (bracket : Bracket) (opened : List Bracket) (bs : Bytes) :
    Except Fault Bytes :=
  (if first then skimOpened bracket opened bs else skimBehind bracket opened bs) >>= skimNext

theorem skimInside_false (bracket : Bracket) (opened : List Bracket) (bs : Bytes) :
    skimInside false bracket opened bs = skimOn (bracket :: opened) .behind bs :=
  (skimOn_behind bracket opened bs).symm

/-- Only where a value would have to come behind a comma does the skimmer look one round later than
the reader. -/
theorem follows_nextItem (first : Bool) (opened : List Bracket) (bs : Bytes) :
    Follows (skimInside first .list opened bs)
      (fun p => if p.1 then skimOn (.list :: opened) .before p.2
        else skimOn opened .behind (p.2.drop 1))
      (nextItem first bs) := by
  unfold nextItem skimInside skimOpened skimBehind
  rcases skipBlanks bs with _ | ⟨b, rest⟩
  · cases first <;> exact .of_error rfl
  · dsimp only
    by_cases hclose : b = Byte.closeList
    · rw [if_pos hclose]
      cases first <;> simp [hclose, Bracket.close, Follows, skimNext, bind, Except.bind]
    · have hclose' : ¬ b = Bracket.list.close := hclose
      rw [if_neg hclose]
      cases first with
      | true => simp [hclose', skimKey, Follows, skimNext, bind, Except.bind, Except.map]
      | false =>
          by_cases hcomma : b = Byte.comma
          · -- the skimmer is in front of a value already, where a closing bracket will not do
            have hskim : ((if b = Bracket.list.close then Except.ok (opened, Stand.behind, rest)
                else if b = Byte.comma then (skimKey .list rest).map fun rest =>
                  (Bracket.list :: opened, Stand.before, rest)
                else refuseAt (b :: rest) Bracket.list.unfinished) >>= skimNext)
                = skimOn (.list :: opened) .before (skipBlanks rest) := by
              rw [if_neg hclose', if_pos hcomma, skimOn_skipBlanks]
              rfl
            simp only [Bool.false_eq_true, if_false, if_pos hcomma] at hskim ⊢
            rw [hskim]
            rcases skipBlanks rest with _ | ⟨c, after⟩
            · exact .of_error rfl
            · dsimp only
              split
              · rename_i hc
                subst hc
                exact .of_error rfl
              · exact rfl
          · simp only [Bool.false_eq_true, if_false, if_neg hclose', if_neg hcomma]
            exact .of_error rfl

/-- What is skimmed from the quote of a key on, inside an object. -/
def skimMember (opened : List Bracket) (bs : Bytes) : Except Fault Bytes :=
  skimText (bs.drop 1) >>= fun rest => readColon rest >>= skimOn (.object :: opened) .before

theorem skimKey_next (opened : List Bracket) {bs rest : Bytes}
    (h : skipBlanks bs = Byte.quote :: rest) :
    ((skimKey .object bs).map fun rest => (Bracket.object :: opened, Stand.before, rest))
        >>= skimNext = skimMember opened (Byte.quote :: rest) := by
  simp only [skimKey, h, if_true, skimMember, List.drop_one, List.tail_cons]
  rcases skimText rest with fault | mid
  · rfl
  · show ((readColon mid).map _ >>= skimNext) = (readColon mid >>= _)
    cases readColon mid <;> rfl

theorem skimKey_next_of_ne {bs rest : Bytes} {b : UInt8} (h : skipBlanks bs = b :: rest)
    (hb : b ≠ Byte.quote) : ∃ fault, skimKey .object bs = .error fault := by
  simp only [skimKey, h, if_neg hb]
  exact ⟨_, rfl⟩

theorem follows_nextMember (first : Bool) (opened : List Bracket) (bs : Bytes) :
    Follows (skimInside first .object opened bs)
      (fun p => if p.1 then skimMember opened p.2 else skimOn opened .behind (p.2.drop 1))
      (nextMember first bs) := by
  unfold nextMember skimInside skimOpened skimBehind
  rcases hblanks : skipBlanks bs with _ | ⟨b, rest⟩
  · cases first <;> exact .of_error rfl
  · dsimp only
    by_cases hclose : b = Byte.closeObject
    · rw [if_pos hclose]
      cases first <;> simp [hclose, Bracket.close, Follows, skimNext, bind, Except.bind]
    · have hclose' : ¬ b = Bracket.object.close := hclose
      rw [if_neg hclose]
      cases first with
      | true =>
          have hskip : skipBlanks (b :: rest) = b :: rest := by
            rw [← hblanks, skipBlanks_skipBlanks]
          simp only [if_true, if_neg hclose']
          by_cases hquote : b = Byte.quote
          · subst hquote
            rw [if_pos rfl, skimKey_next opened hskip]
            exact rfl
          · rcases skimKey_next_of_ne hskip hquote with ⟨fault, hkey⟩
            rw [if_neg hquote, hkey]
            exact .of_error rfl
      | false =>
          simp only [Bool.false_eq_true, if_false, if_neg hclose']
          by_cases hcomma : b = Byte.comma
          · rw [if_pos hcomma, if_pos hcomma]
            rcases hblanks' : skipBlanks rest with _ | ⟨c, after⟩
            · simp only [skimKey, hblanks']
              exact .of_error rfl
            · dsimp only
              by_cases hquote : c = Byte.quote
              · subst hquote
                rw [if_pos rfl, skimKey_next opened hblanks']
                exact rfl
              · rcases skimKey_next_of_ne hblanks' hquote with ⟨fault, hkey⟩
                rw [if_neg hquote, hkey]
                split <;> exact .of_error rfl
          · rw [if_neg hcomma, if_neg hcomma]
            exact .of_error rfl

/-! ## Values -/

/-- An item reader that the skimmer follows, whatever brackets are open. -/
def SkimmedAs {α : Type} (readItem : Bytes → Except Fault (α × Bytes)) : Prop :=
  ∀ opened bs, Follows (skimOn opened .before bs) (fun p => skimOn opened .behind p.2) (readItem bs)

section Items

variable {α : Type} {readItem : Bytes → Except Fault (α × Bytes)}

theorem SkimmedAs.skimValue_eq (h : SkimmedAs readItem) {bs rest : Bytes} {item : α}
    (hitem : readItem bs = .ok (item, rest)) : skimValue bs = .ok rest := by
  have hfollows := h [] bs
  rw [hitem] at hfollows
  exact hfollows.trans (skimOn_done rest)

theorem SkimmedAs.length_lt (h : SkimmedAs readItem) {bs rest : Bytes} {item : α}
    (hitem : readItem bs = .ok (item, rest)) : rest.length < bs.length :=
  length_lt_of_skimValue (h.skimValue_eq hitem)

/-- What is left starts with the item, or else with the closing bracket, which stands right there. -/
theorem of_nextItem {first more : Bool} {bs rest : Bytes}
    (h : nextItem first bs = .ok (more, rest)) :
    rest.length ≤ bs.length ∧
      (more = false → ∃ after, rest = Byte.closeList :: after ∧ skipBlanks bs = rest) := by
  unfold nextItem at h
  split at h
  · cases h
  · rename_i b after hblanks
    have hlt := length_lt_of_skipBlanks hblanks
    split at h
    · rename_i hclose
      cases h
      exact ⟨hlt, fun _ => ⟨after, by rw [hclose], hblanks⟩⟩
    · split at h
      · cases h
        exact ⟨hlt, nofun⟩
      · split at h
        · split at h
          · cases h
          · rename_i hblanks'
            have hlt' := length_lt_of_skipBlanks hblanks'
            split at h
            · cases h
            · cases h
              exact ⟨hlt'.trans hlt, nofun⟩
        · cases h

/-- What is left starts with the quote of the member's key, or else with the closing bracket. -/
theorem of_nextMember {first more : Bool} {bs rest : Bytes}
    (h : nextMember first bs = .ok (more, rest)) :
    rest.length ≤ bs.length ∧ (more = false → ∃ after, rest = Byte.closeObject :: after) := by
  unfold nextMember at h
  split at h
  · cases h
  · rename_i b after hblanks
    have hlt := length_lt_of_skipBlanks hblanks
    split at h
    · rename_i hclose
      cases h
      exact ⟨hlt, fun _ => ⟨after, by rw [hclose]⟩⟩
    · split at h
      · split at h
        · cases h
          exact ⟨hlt, nofun⟩
        · cases h
      · split at h
        · split at h
          · cases h
          · rename_i hblanks'
            have hlt' := length_lt_of_skipBlanks hblanks'
            split at h
            · cases h
              exact ⟨hlt'.trans hlt, nofun⟩
            · split at h
              · cases h
              · cases h
        · cases h

theorem follows_itemsFrom (hitem : SkimmedAs readItem) (opened : List Bracket) {bound bs : Bytes}
    (h : bs.length ≤ bound.length) (first : Bool) :
    Follows (skimInside first .list opened bs) (fun p => skimOn opened .behind p.2)
      (itemsFrom readItem bound first bs) := by
  induction bound generalizing bs first with
  | nil =>
      rw [List.eq_nil_of_length_eq_zero (Nat.le_zero.1 h)]
      cases first <;> exact .of_error rfl
  | cons x bound ih =>
      refine (follows_nextItem first opened bs).bind ?_
      rintro ⟨more, rest⟩ hnext
      cases more with
      | false => exact rfl
      | true =>
          -- the item is inside the bracket, and what comes behind it too
          have hrest := (of_nextItem hnext).1
          refine (hitem (.list :: opened) rest).bind ?_
          rintro ⟨item, after⟩ hread
          have hafter := hitem.length_lt hread
          have hinside := ih (by rw [List.length_cons] at h; omega : after.length ≤ bound.length) false
          rw [skimInside_false] at hinside
          exact hinside.bind fun p _ => rfl

theorem follows_readKey (opened : List Bracket) (bs : Bytes) :
    Follows (skimMember opened bs) (fun p => skimOn (.object :: opened) .before p.2)
      (readKey (bs.drop 1)) := by
  refine ((follows_readText (bs.drop 1)).continued _).bind ?_
  rintro ⟨key, rest⟩ _
  refine ((follows_self (readColon rest)).continued _).bind ?_
  exact fun rest' _ => rfl

theorem length_lt_of_readKey {bs rest : Bytes} {key : String}
    (h : readKey bs = .ok (key, rest)) : rest.length < bs.length := by
  unfold readKey at h
  rcases bind_eq_ok_iff.1 h with ⟨⟨key, first⟩, htext, h⟩
  rcases bind_eq_ok_iff.1 h with ⟨second, hcolon, h⟩
  cases h
  have hfollows := follows_readText bs
  rw [htext] at hfollows
  exact (length_lt_of_readColon hcolon).trans (length_lt_of_skimText hfollows)

theorem memberFrom_eq_ok_iff {bs rest : Bytes} {key : String} {item : α} :
    memberFrom readItem bs = .ok ((key, item), rest) ↔
      ∃ start, readKey (bs.drop 1) = .ok (key, start) ∧ readItem start = .ok (item, rest) := by
  unfold memberFrom
  rw [bind_eq_ok_iff]
  constructor
  · rintro ⟨⟨key', start⟩, hkey, h⟩
    rcases bind_eq_ok_iff.1 h with ⟨⟨item', rest'⟩, hread, heq⟩
    cases heq
    exact ⟨start, hkey, hread⟩
  · rintro ⟨start, hkey, hread⟩
    exact ⟨_, hkey, bind_eq_ok_iff.2 ⟨_, hread, rfl⟩⟩

theorem follows_memberFrom (hitem : SkimmedAs readItem) (opened : List Bracket) (bs : Bytes) :
    Follows (skimMember opened bs) (fun p => skimOn (.object :: opened) .behind p.2)
      (memberFrom readItem bs) := by
  refine (follows_readKey opened bs).bind ?_
  rintro ⟨key, start⟩ _
  refine (hitem (.object :: opened) start).bind ?_
  exact fun p _ => rfl

theorem length_lt_of_memberFrom (hitem : SkimmedAs readItem) {bs rest : Bytes} {member : String × α}
    (h : memberFrom readItem bs = .ok (member, rest)) : rest.length < bs.length := by
  rcases memberFrom_eq_ok_iff.1 h with ⟨start, hkey, hread⟩
  have hdrop : (bs.drop 1).length ≤ bs.length := (List.drop_suffix 1 bs).length_le
  have hstart := length_lt_of_readKey hkey
  have hrest := hitem.length_lt hread
  omega

theorem follows_membersFrom (hitem : SkimmedAs readItem) (opened : List Bracket)
    {bound bs : Bytes} (h : bs.length ≤ bound.length) (first : Bool) :
    Follows (skimInside first .object opened bs) (fun p => skimOn opened .behind p.2)
      (membersFrom readItem bound first bs) := by
  induction bound generalizing bs first with
  | nil =>
      rw [List.eq_nil_of_length_eq_zero (Nat.le_zero.1 h)]
      cases first <;> exact .of_error rfl
  | cons x bound ih =>
      refine (follows_nextMember first opened bs).bind ?_
      rintro ⟨more, rest⟩ hnext
      cases more with
      | false => exact rfl
      | true =>
          have hrest := (of_nextMember hnext).1
          refine (follows_memberFrom hitem opened rest).bind ?_
          rintro ⟨member, after⟩ hread
          have hafter := length_lt_of_memberFrom hitem hread
          have hinside := ih (by rw [List.length_cons] at h; omega : after.length ≤ bound.length) false
          rw [skimInside_false] at hinside
          exact hinside.bind fun p _ => rfl

end Items

/-- Whatever can be read as a value can be skimmed to the same place; what cannot be read can be
skimmed only where the reader is strict. -/
theorem skimmedAs_readValue (depth : Nat) : SkimmedAs (readValue depth) := by
  induction depth with
  | zero =>
      intro opened bs
      exact .of_strict .nestingLimit
  | succ depth ih =>
      -- a bracket that the value opens comes on top of those around it
      intro opened bs
      rw [skimOn_before]
      unfold skimBefore readValue
      rcases skipBlanks bs with _ | ⟨b, rest⟩
      · exact .of_error rfl
      · dsimp only
        split
        · split
          · exact .of_strict .nestingLimit
          · rw [readItems_eq, follows_map_iff, follows_map_iff]
            exact follows_itemsFrom ih opened (Nat.le_refl _) true
        · split
          · split
            · exact .of_strict .nestingLimit
            · rw [readMembers_eq, follows_map_iff, follows_map_iff]
              exact follows_membersFrom ih opened (Nat.le_refl _) true
          · have hscalar := (follows_readScalar b rest).continued fun rest =>
              skimOn opened .behind rest
            rcases hskim : skimScalar b rest with fault | after
            · rw [hskim] at hscalar
              exact hscalar
            · rw [hskim] at hscalar
              exact hscalar

end GreetingService.Json
