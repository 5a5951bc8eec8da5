import GreetingService.Config.Loading
import GreetingService.Proofs.Layering

/-!
# Texts of settings after one another

At the end of a line, wherever a text of settings may end, the reader is back between items. A text
that starts with a header can therefore follow any other, and its sections come behind those of the
other. Since a look-up takes the first section of a name and the first entry in it, whatever repeats
an earlier section or key, or is not looked up at all, has no influence on a configuration.
-/

namespace GreetingService

open Results

namespace Settings

/-! ## The reader by columns -/

/-- The column of a character that comes behind another one. -/
def nextColumn (column : Nat) (c : Char) : Nat :=
  if c = '\n' then 0 else column + 1

/-- From a column on, the reader comes from one mode to another through a text, and completes the
given items on its way. -/
inductive Mode.Runs : Mode → Nat → List Char → Mode → Nat → List Item → Prop where
  | nil (mode : Mode) (column : Nat) : Runs mode column [] mode column []
  | cons {mode mode' mode'' : Mode} {column column' : Nat} {c : Char} {cs : List Char}
      {item : Option Item} {items : List Item}
      (hnext : ∀ line, mode.next ⟨line, nextColumn column c⟩ c = .ok (mode', item))
      (hruns : Runs mode' (nextColumn column c) cs mode'' column' items) :
      Runs mode column (c :: cs) mode'' column' (item.toList ++ items)

/-- What is read does not depend on the line. -/
theorem Mode.next_congr {p q : Place} (h : p.column = q.column) (mode : Mode) (c : Char) :
    mode.next p c = mode.next q c := by
  cases mode with
  | between => simp only [Mode.next, h]
  | comment => rfl
  | front key => rfl
  | inside scope escape seen => rfl

theorem Reader.next_eq_ok_iff {place : Place} {mode : Mode} {items : List Item} {c : Char}
    {r : Reader} :
    Reader.next ⟨place, mode, items⟩ c = .ok r ↔ ∃ mode' item,
      mode.next (place.next c) c = .ok (mode', item) ∧
        r = ⟨place.next c, mode', item.toList ++ items⟩ := by
  rw [Reader.next]
  cases mode.next (place.next c) c with
  | error cause => simp
  | ok result =>
      rcases result with ⟨mode', item⟩
      simp only [Except.ok.injEq, Prod.mk.injEq]
      constructor
      · rintro rfl
        exact ⟨mode', item, ⟨rfl, rfl⟩, rfl⟩
      · rintro ⟨_, _, ⟨rfl, rfl⟩, rfl⟩
        rfl

theorem column_next (place : Place) (c : Char) :
    (place.next c).column = nextColumn place.column c := by
  unfold Place.next nextColumn
  split <;> rfl

/-- There is at most one item at a time. -/
theorem reverse_toList (item : Option Item) : item.toList.reverse = item.toList := by
  cases item <;> rfl

/-- The relation is what the reader does. -/
theorem foldlM_next_eq_ok_iff {place : Place} {mode : Mode} {before : List Item} {cs : List Char}
    {r : Reader} :
    cs.foldlM Reader.next ⟨place, mode, before⟩ = .ok r ↔
      ∃ items column, mode.Runs place.column cs r.mode column items ∧
        r.items = items.reverse ++ before ∧ r.place = cs.foldl Place.next place := by
  -- the reader keeps its items last first, so every step puts its item in front of those before
  induction cs generalizing place mode before with
  | nil =>
      rw [List.foldlM_nil]
      constructor
      · intro h
        cases h
        exact ⟨[], _, .nil _ _, rfl, rfl⟩
      · rintro ⟨items, column, hruns, hitems, hplace⟩
        rcases r with ⟨place', mode', items'⟩
        cases hitems
        cases hplace
        cases hruns
        rfl
  | cons c cs ih =>
      rw [List.foldlM_cons, bind_eq_ok_iff]
      constructor
      · rintro ⟨next, hnext, hrest⟩
        rcases Reader.next_eq_ok_iff.1 hnext with ⟨mode', item, hmode, rfl⟩
        rcases ih.1 hrest with ⟨items, column, hruns, hitems, hplace⟩
        rw [column_next] at hruns
        refine ⟨item.toList ++ items, column, .cons (fun line => ?_) hruns, ?_, hplace⟩
        · rw [← hmode]
          exact Mode.next_congr (column_next place c).symm mode c
        · rw [hitems, List.reverse_append, reverse_toList, List.append_assoc]
      · rintro ⟨_, column, hruns, hitems, hplace⟩
        cases hruns with
        | @cons _ mode' _ _ _ _ _ item items hnext hruns =>
            refine ⟨_, Reader.next_eq_ok_iff.2 ⟨mode', item, ?_, rfl⟩,
              ih.2 ⟨items, column, ?_, ?_, hplace⟩⟩
            · rw [← hnext (place.next c).line]
              exact Mode.next_congr (column_next place c) mode c
            · rw [column_next]
              exact hruns
            · rw [hitems, List.reverse_append, reverse_toList, List.append_assoc]

theorem Mode.Runs.append {mode mode' mode'' : Mode} {column column' column'' : Nat}
    {cs cs' : List Char} {items items' : List Item} (h : mode.Runs column cs mode' column' items)
    (h' : mode'.Runs column' cs' mode'' column'' items') :
    mode.Runs column (cs ++ cs') mode'' column'' (items ++ items') := by
  induction h with
  | nil mode column => exact h'
  | cons hnext _ ih =>
      rw [List.append_assoc]
      exact .cons hnext (ih h')

theorem Reader.finish_eq_ok_iff {r : Reader} {items : List Item} :
    r.finish = .ok items ↔ ∃ item, r.mode.finish = .ok item ∧
      items = r.items.reverse ++ item.toList := by
  rw [Reader.finish]
  cases r.mode.finish with
  | error cause => simp
  | ok item =>
      simp only [Except.ok.injEq, List.reverse_append, reverse_toList, exists_eq_left']
      exact eq_comm

/-- The items of a text are those completed on the way, and the one that its end completes. -/
theorem read_eq_ok_iff {cs : List Char} {items : List Item} :
    Reader.read cs = .ok items ↔ ∃ mode column done item,
      Mode.between.Runs 0 cs mode column done ∧ mode.finish = .ok item ∧
        items = done ++ item.toList := by
  rw [Reader.read, Reader.start, bind_eq_ok_iff]
  simp only [foldlM_next_eq_ok_iff, Reader.finish_eq_ok_iff]
  constructor
  · -- where the reader is by then matters to the causes of errors alone
    rintro ⟨r, ⟨done, column, hruns, hdone, _⟩, item, hitem, rfl⟩
    refine ⟨r.mode, column, done, item, hruns, hitem, ?_⟩
    rw [hdone, List.append_nil, List.reverse_reverse]
  · rintro ⟨mode, column, done, item, hruns, hitem, rfl⟩
    refine ⟨⟨_, mode, done.reverse ++ []⟩, ⟨done, column, hruns, rfl, rfl⟩, item, hitem, ?_⟩
    rw [List.append_nil, List.reverse_reverse]

/-! ## The seam -/

/-- Wherever a text may end, a line break completes the same item. -/
theorem runs_break {mode : Mode} {item : Option Item} (h : mode.finish = .ok item) (column : Nat) :
    mode.Runs column ['\n'] .between 0 item.toList := by
  have hbreak : ∀ line, mode.next ⟨line, nextColumn column '\n'⟩ '\n' = .ok (.between, item) := by
    intro line
    cases mode with
    | between =>
        cases h
        rfl
    | comment =>
        cases h
        rfl
    | front key =>
        cases h
        rfl
    | inside scope escape seen =>
        -- only a value may end with its text
        cases scope with
        | value key =>
            cases escape with
            | outside =>
                cases h
                rfl
            | _ => cases h
        | _ => cases escape <;> cases h
  have hone := Mode.Runs.cons hbreak (.nil .between _)
  rwa [List.append_nil] at hone

/-- Texts after one another, each on lines of its own. -/
theorem read_append {cs cs' : List Char} {items items' : List Item}
    (h : Reader.read cs = .ok items) (h' : Reader.read cs' = .ok items') :
    Reader.read (cs ++ '\n' :: cs') = .ok (items ++ items') := by
  rcases read_eq_ok_iff.1 h with ⟨mode, column, done, item, hruns, hitem, rfl⟩
  rcases read_eq_ok_iff.1 h' with ⟨mode', column', done', item', hruns', hitem', rfl⟩
  refine read_eq_ok_iff.2 ⟨mode', column', done ++ item.toList ++ done', item', ?_, hitem',
    (List.append_assoc _ _ _).symm⟩
  -- what the end of the first text completes, the line break completes on the way
  have hseam := (hruns.append (runs_break hitem column)).append hruns'
  rwa [List.append_assoc, List.singleton_append] at hseam

/-! ## A header in front -/

/-- Inside a header, the reader stays there or completes it. -/
theorem header_next {escape : Escape} {seen : List Char} {c : Char} {mode : Mode}
    {item : Option Item} (h : insideNext .header escape seen c = .ok (mode, item)) :
    (∃ escape' seen', mode = .inside .header escape' seen' ∧ item = none) ∨
      ∃ name, item = some (.header name) := by
  -- digits of an escaped character, with or without a line break in front
  have hhex : ∀ {digits : List Char},
      (hexNext .header digits seen c).map (fun mode => (mode, (none : Option Item)))
        = .ok (mode, item) → ∃ escape' seen', mode = .inside .header escape' seen' ∧ item = none := by
    intro digits hdigits
    rcases map_eq_ok_iff.1 hdigits with ⟨mode', hmode, heq⟩
    cases heq
    unfold hexNext at hmode
    split at hmode
    · cases hmode
      exact ⟨_, _, rfl, rfl⟩
    · split at hmode
      · cases hmode
        exact ⟨_, _, rfl, rfl⟩
      · cases hmode
  cases escape with
  | outside =>
      simp only [insideNext] at h
      split at h
      · cases h
        exact .inr ⟨_, rfl⟩
      · split at h <;> cases h <;> exact .inl ⟨_, _, rfl, rfl⟩
  | begun =>
      simp only [insideNext] at h
      split at h <;> cases h <;> exact .inl ⟨_, _, rfl, rfl⟩
  | hex digits =>
      simp only [insideNext] at h
      split at h
      · cases h
        exact .inl ⟨_, _, rfl, rfl⟩
      · exact .inl (hhex h)
  | hexBreak digits =>
      simp only [insideNext] at h
      split at h
      · exact .inl (hhex h)
      · cases h

/-- A text that ends has completed the header it was in. -/
theorem exists_header_of_runs {escape : Escape} {seen cs : List Char} {mode : Mode}
    {column column' : Nat} {done : List Item} {item : Option Item}
    (h : (Mode.inside .header escape seen).Runs column cs mode column' done)
    (hitem : mode.finish = .ok item) : ∃ name others, done = .header name :: others := by
  induction cs generalizing escape seen column done with
  | nil =>
      -- a header may not end with the text
      cases h
      cases escape <;> cases hitem
  | cons c cs ih =>
      cases h with
      | @cons _ mode' _ _ _ _ _ next items hnext hruns =>
          rcases header_next (hnext 0) with ⟨escape', seen', rfl, rfl⟩ | ⟨name, rfl⟩
          · exact ih hruns
          · exact ⟨name, items, rfl⟩

theorem exists_header_of_runs_between {cs : List Char} {mode : Mode} {column column' : Nat}
    {done : List Item} {item : Option Item} (h : Mode.between.Runs column cs mode column' done)
    (hitem : mode.finish = .ok item) (hhead : (Text.trimStart cs).head? = some '[') :
    ∃ name others, done = .header name :: others := by
  induction cs generalizing column done with
  | nil => cases hhead
  | cons c cs ih =>
      cases h with
      | @cons _ mode' _ _ _ _ _ next items hnext hruns =>
          have hnext' := hnext 0
          -- blanks in front leave the reader between items, and behind them comes the bracket
          by_cases hblank : Text.isBlank c = true
          · rw [Text.trimStart, List.dropWhile_cons_of_pos hblank] at hhead
            rw [Mode.next, if_pos hblank] at hnext'
            cases hnext'
            exact ih hruns hhead
          · rw [Text.trimStart, List.dropWhile_cons_of_neg hblank] at hhead
            cases hhead
            cases hnext'
            exact exists_header_of_runs hruns hitem

theorem exists_header_of_read {cs : List Char} {items : List Item}
    (h : Reader.read cs = .ok items) (hhead : (Text.trimStart cs).head? = some '[') :
    ∃ name others, items = .header name :: others := by
  rcases read_eq_ok_iff.1 h with ⟨mode, column, done, item, hruns, hitem, rfl⟩
  rcases exists_header_of_runs_between hruns hitem hhead with ⟨name, others, rfl⟩
  exact ⟨name, others ++ item.toList, rfl⟩

/-! ## Documents -/

namespace Document

theorem leading_append_header (items : List Item) (name : String) (others : List Item) :
    leading (items ++ .header name :: others) = leading items := by
  induction items with
  | nil => rfl
  | cons item items ih =>
      cases item with
      | header other => rfl
      | entry e => exact congrArg (e :: ·) ih

theorem named_append_header (items : List Item) (name : String) (others : List Item) :
    named (items ++ .header name :: others) = named items ++ named (.header name :: others) := by
  induction items with
  | nil => rfl
  | cons item items ih =>
      cases item with
      | header other =>
          simp only [List.cons_append, named, leading_append_header, ih]
      | entry e => exact ih

theorem ofItems_append_header (items : List Item) (name : String) (others : List Item) :
    ofItems (items ++ .header name :: others) = ofItems items ++ ofItems (.header name :: others) := by
  have hheader : ofItems (.header name :: others) = named (.header name :: others) := rfl
  rw [hheader, ofItems, ofItems, leading_append_header, named_append_header]
  cases leading items with
  | nil => rfl
  | cons e entries => rfl

/-- A text that starts with a header may follow any other text of settings, and its sections come
behind those of the other. -/
theorem parse_append {t s : String} {d d' : Document} (ht : parse t = .ok d) (hs : parse s = .ok d')
    (hhead : (Text.trimStart s.toList).head? = some '[') :
    parse (t ++ "\n" ++ s) = .ok (d ++ d') := by
  rcases map_eq_ok_iff.1 ht with ⟨items, hitems, rfl⟩
  rcases map_eq_ok_iff.1 hs with ⟨items', hitems', rfl⟩
  rcases exists_header_of_read hitems' hhead with ⟨name, others, rfl⟩
  have htext : (t ++ "\n" ++ s).toList = t.toList ++ '\n' :: s.toList := by simp
  rw [parse, htext, read_append hitems hitems', ← ofItems_append_header]
  rfl

end Document

/-! ## Look-up -/

/-- The first section of a name in a document. -/
def Document.Opens (d : Document) (name : String) (s : Section) : Prop :=
  ∃ earlier later, d = earlier ++ s :: later ∧ s.name = some name ∧
    ∀ other ∈ earlier, other.name ≠ some name

/-- The section of a name that counts in two documents after one another: the first one of the first
document, else the first one of the second. -/
def Document.Chooses (d d' : Document) (name : String) (s : Section) : Prop :=
  d.Opens name s ∨ (∀ other ∈ d, other.name ≠ some name) ∧ d'.Opens name s

/-- The value of a key in a section is that of its first entry. -/
def Section.Gives (s : Section) (key value : String) : Prop :=
  ∃ earlier later, s.entries = earlier ++ ⟨key, value⟩ :: later ∧ ∀ e ∈ earlier, e.key ≠ key

theorem Section.get?_eq_some_iff {s : Section} {key value : String} :
    s.get? key = some value ↔ s.Gives key value := by
  simp only [Section.get?, Option.map_eq_some_iff, List.find?_eq_some_iff_append, beq_iff_eq,
    Bool.not_eq_true', beq_eq_false_iff_ne]
  constructor
  · rintro ⟨⟨key', value'⟩, ⟨rfl, earlier, later, hentries, hne⟩, rfl⟩
    exact ⟨earlier, later, hentries, hne⟩
  · rintro ⟨earlier, later, hentries, hne⟩
    exact ⟨⟨key, value⟩, ⟨rfl, earlier, later, hentries, hne⟩, rfl⟩

namespace Document

theorem find?_eq_some_iff {d : Document} {name : String} {s : Section} :
    d.find? (fun s => s.name == some name) = some s ↔ d.Opens name s := by
  simp only [List.find?_eq_some_iff_append, beq_iff_eq, Bool.not_eq_true', beq_eq_false_iff_ne,
    Opens]
  constructor
  · rintro ⟨hname, earlier, later, hd, hne⟩
    exact ⟨earlier, later, hd, hname, hne⟩
  · rintro ⟨earlier, later, hd, hname, hne⟩
    exact ⟨hname, earlier, later, hd, hne⟩

theorem get?_append_eq_some_iff {d d' : Document} {name key value : String} :
    (d ++ d').get? name key = some value ↔ ∃ s, Chooses d d' name s ∧ s.Gives key value := by
  have hnone : d.find? (fun s => s.name == some name) = none ↔
      ∀ other ∈ d, other.name ≠ some name := by
    simp [List.find?_eq_none]
  simp only [get?, List.find?_append, Option.bind_eq_some_iff, Option.or_eq_some_iff,
    find?_eq_some_iff, hnone, Section.get?_eq_some_iff, Chooses]

/-- The keys that are looked up, with their sections. -/
def IsLookedUp (name : Option String) (key : String) : Prop :=
  (name = some Config.greetingSection ∧ (key = Config.messageKey ∨ key = Config.policyKey)) ∨
    name = some Config.logSection ∧ key = Config.levelKey

/-- Something idle has been added to a document: a section that no look-up takes because of its name
or an earlier section of that name, or an entry that none takes because of its key or an earlier
entry of that key. -/
inductive AddsIdle : Document → Document → Prop where
  | unused {before after : Document} {s : Section}
      (h : s.name ≠ some Config.greetingSection ∧ s.name ≠ some Config.logSection) :
      AddsIdle (before ++ after) (before ++ s :: after)
  | repeated {before after : Document} {s : Section} (h : ∃ first ∈ before, first.name = s.name) :
      AddsIdle (before ++ after) (before ++ s :: after)
  | unusedKey {before after : Document} {name : Option String} {earlier later : List Entry}
      {e : Entry} (h : ¬ IsLookedUp name e.key) :
      AddsIdle (before ++ ⟨name, earlier ++ later⟩ :: after)
        (before ++ ⟨name, earlier ++ e :: later⟩ :: after)
  | repeatedKey {before after : Document} {name : Option String} {earlier later : List Entry}
      {e : Entry} (h : ∃ first ∈ earlier, first.key = e.key) :
      AddsIdle (before ++ ⟨name, earlier ++ later⟩ :: after)
        (before ++ ⟨name, earlier ++ e :: later⟩ :: after)

/-- A section that is not the first of its name makes no difference. -/
theorem get?_section {before after : Document} {s : Section} {name : String}
    (h : s.name ≠ some name ∨ ∃ first ∈ before, first.name = s.name) (key : String) :
    get? (before ++ s :: after) name key = get? (before ++ after) name key := by
  simp only [get?, List.find?_append, List.find?_cons]
  cases hfirst : before.find? (fun s => s.name == some name) with
  | some first => rfl
  | none =>
      -- nothing was found in front, so the section is not one of this name
      have hne : s.name ≠ some name := by
        refine h.elim id ?_
        rintro ⟨first, hmem, heq⟩ hname
        exact List.find?_eq_none.1 hfirst first hmem (by simp [heq, hname])
      rw [beq_eq_false_iff_ne.2 hne]

/-- An entry that is not the first one of its key makes no difference. -/
theorem get?_entry {before after : Document} {name : Option String} {earlier later : List Entry}
    {e : Entry} {name' key : String}
    (h : ¬ (name = some name' ∧ e.key = key) ∨ ∃ first ∈ earlier, first.key = e.key) :
    get? (before ++ ⟨name, earlier ++ e :: later⟩ :: after) name' key
      = get? (before ++ ⟨name, earlier ++ later⟩ :: after) name' key := by
  simp only [get?, List.find?_append, List.find?_cons]
  cases before.find? (fun s => s.name == some name') with
  | some first => rfl
  | none =>
      by_cases hname : name = some name'
      · simp only [hname, beq_self_eq_true, Option.none_or, Option.bind_some, Section.get?,
          List.find?_append, List.find?_cons]
        cases hfirst : earlier.find? (fun e => e.key == key) with
        | some first => rfl
        | none =>
            have hne : e.key ≠ key := by
              refine h.elim (fun hnot hkey => hnot ⟨hname, hkey⟩) ?_
              rintro ⟨first, hmem, heq⟩ hkey
              exact List.find?_eq_none.1 hfirst first hmem (by simp [heq, hkey])
            rw [beq_eq_false_iff_ne.2 hne]
      · rw [beq_eq_false_iff_ne.2 hname]

theorem AddsIdle.get?_eq {d d' : Document} (h : AddsIdle d d') {name key : String}
    (hkey : IsLookedUp (some name) key) : d'.get? name key = d.get? name key := by
  cases h with
  | unused h =>
      refine get?_section (.inl fun hname => ?_) key
      rcases hkey with ⟨hgreeting, _⟩ | ⟨hlog, _⟩
      · exact h.1 (hname.trans hgreeting)
      · exact h.2 (hname.trans hlog)
  | repeated h => exact get?_section (.inr h) key
  | unusedKey h =>
      refine get?_entry (.inl ?_)
      rintro ⟨rfl, rfl⟩
      exact h hkey
  | repeatedKey h => exact get?_entry (.inr h)

end Document

end Settings

namespace Config

open Settings

/-- The settings that two documents after one another define. -/
structure DefinedBy (d d' : Document) (defined : Definitions) : Prop where
  message : ∀ value, defined.message? = some value ↔
    ∃ s, d.Chooses d' greetingSection s ∧ s.Gives messageKey value
  policy : ∀ value, defined.policy? = some value ↔
    ∃ s, d.Chooses d' greetingSection s ∧ s.Gives policyKey value
  level : ∀ value, defined.level? = some value ↔
    ∃ s, d.Chooses d' logSection s ∧ s.Gives levelKey value

theorem layer_of_addsIdle {d d' : Document} (h : d.AddsIdle d') (c : Config) :
    c.layer d' = c.layer d := by
  have hmessage := h.get?_eq (.inl ⟨rfl, .inl rfl⟩)
  have hpolicy := h.get?_eq (.inl ⟨rfl, .inr rfl⟩)
  have hlevel := h.get?_eq (.inr ⟨rfl, rfl⟩)
  rw [layer, layer, hmessage, hpolicy, hlevel]

/-- A text that starts with a header may follow any other text of settings. Each kind of setting is
then taken from the first section of its name, which is in the first text if it has one, and in this
section from the first entry of its key. Whatever else there is has no influence: neither sections
of other names, the one without a name among them, nor other keys, nor later sections of a name, nor
later entries of a key can change a setting or make it invalid. -/
theorem layer_of_first_sections {t s : String} {d d' : Document} (ht : readDocument t = .ok d)
    (hs : readDocument s = .ok d') (hheader : (Text.trimStart s.toList).head? = some '[') :
    (∃ whole defined, readDocument (t ++ "\n" ++ s) = .ok whole ∧ DefinedBy d d' defined ∧
      ∀ c : Config, c.layer whole = c.define defined) ∧
    ∀ before after : Document, before.AddsIdle after → ∀ c : Config, c.layer after = c.layer before := by
  rw [readDocument, mapError_eq_ok_iff] at ht hs
  have hwhole := Document.parse_append ht hs hheader
  refine ⟨⟨d ++ d', Definitions.inDocument (d ++ d'), mapError_eq_ok_iff.2 hwhole, ?_, ?_⟩, ?_⟩
  · exact {
      message := fun _ => Document.get?_append_eq_some_iff
      policy := fun _ => Document.get?_append_eq_some_iff
      level := fun _ => Document.get?_append_eq_some_iff }
  · exact fun c => layer_eq_define c _
  · exact fun before after h c => layer_of_addsIdle h c

/-- A text with a key outside any section, a section that is not looked up, and a comment at its end
without a line break. -/
def earlierText : String :=
  "stray = 1\n[greeting]\nempty_field1 = ignore\n[Log]\nlevel = loud\n# end"

/-- A text that repeats a section and a key. -/
def laterText : String :=
  " [greeting]\nempty_field1 = never\n[log]\nlevel = warn\nlevel = loud"

/-- The policy is taken from the first text and the threshold from the second; nothing invalid is
taken. -/
theorem layer_of_first_sections_stray :
    ∃ whole defined, readDocument (earlierText ++ "\n" ++ laterText) = .ok whole ∧
      default.layer whole = default.define defined ∧
        defined.policy? = some "ignore" ∧ defined.level? = some "warn" := by
  have ht : readDocument earlierText = .ok [⟨none, [⟨"stray", "1"⟩]⟩,
      ⟨some "greeting", [⟨"empty_field1", "ignore"⟩]⟩, ⟨some "Log", [⟨"level", "loud"⟩]⟩] := rfl
  have hs : readDocument laterText = .ok [⟨some "greeting", [⟨"empty_field1", "never"⟩]⟩,
      ⟨some "log", [⟨"level", "warn"⟩, ⟨"level", "loud"⟩]⟩] := rfl
  rcases layer_of_first_sections ht hs rfl with ⟨⟨whole, defined, hwhole, hdefined, hlayer⟩, _⟩
  refine ⟨whole, defined, hwhole, hlayer default, (hdefined.policy _).2 ?_,
    (hdefined.level _).2 ?_⟩
  · exact ⟨_, .inl ⟨[_], [_], rfl, rfl, by simp⟩, [], [], rfl, by simp⟩
  · exact ⟨_, .inr ⟨by decide, [_], [], rfl, rfl, by decide⟩, [], [_], rfl, by simp⟩

end Config
end GreetingService
