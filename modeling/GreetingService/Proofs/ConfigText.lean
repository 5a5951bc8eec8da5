import GreetingService.Config.Loading
import GreetingService.Proofs.Results
import GreetingService.Proofs.SettingsText

/-!
# Configurations as texts

A configuration is written as a document that defines all of its settings. The policy and the
threshold always come back from the text; what becomes of the first greeting is `reread?`, and that
it comes back as it was depends on its ends, its first character and two control characters.
-/

namespace GreetingService

open Settings Results

theorem Policy.ofSetting?_name (p : Policy) : ofSetting? p.name = some p := by
  cases p <;> decide +kernel

theorem Policy.isWord_name (p : Policy) : IsWord p.name := by
  cases p <;> decide +kernel

theorem Log.Threshold.ofName?_trimmed_lower_name (t : Log.Threshold) :
    ofName? (Text.trimmed (Text.lower t.name)) = some t := by
  cases t with
  | off => decide +kernel
  | upTo level => cases level <;> decide +kernel

theorem Log.Threshold.isWord_lower_name (t : Log.Threshold) : IsWord (Text.lower t.name) := by
  cases t with
  | off => decide +kernel
  | upTo level => cases level <;> decide +kernel

namespace Config

/-! ## The document -/

theorem policyAfter_name (before policy : Policy) :
    policyAfter before (some policy.name) = .ok policy := by
  rw [policyAfter, Policy.ofSetting?_name]

theorem levelAfter_name (before level : Log.Threshold) :
    levelAfter before (some (Text.lower level.name)) = .ok level := by
  rw [levelAfter, Log.Threshold.ofName?_trimmed_lower_name]

/-- Layering the document of a configuration leaves nothing of what was there before. -/
theorem layer_toDocument (before c : Config) : before.layer c.toDocument = .ok c := by
  have hmessage : c.toDocument.get? greetingSection messageKey = some c.defaultMessage := rfl
  have hpolicy : c.toDocument.get? greetingSection policyKey = some c.emptyField1.name := rfl
  have hlevel : c.toDocument.get? logSection levelKey = some (Text.lower c.logLevel.name) := rfl
  rw [layer, hmessage, hpolicy, hlevel, policyAfter_name, levelAfter_name]
  rfl

/-! ## The text -/

theorem isWord_greetingSection : IsWord greetingSection := by decide +kernel

theorem isWord_messageKey : IsWord messageKey := by decide +kernel

theorem isWord_policyKey : IsWord policyKey := by decide +kernel

theorem isWord_logSection : IsWord logSection := by decide +kernel

theorem isWord_levelKey : IsWord levelKey := by decide +kernel

/-- The text in front of the first greeting. -/
def writtenFront : List Char :=
  '[' :: escapeText greetingSection ++ [']', '\n'] ++ (escapeText messageKey ++ ['='])

/-- The text behind the line of the first greeting. -/
def writtenRest (c : Config) : List Char :=
  Entry.write ⟨policyKey, c.emptyField1.name⟩ ++
    '\n' :: ('[' :: escapeText logSection ++ [']', '\n'] ++
      Entry.write ⟨levelKey, Text.lower c.logLevel.name⟩)

theorem toList_write (c : Config) :
    c.write.toList = writtenFront ++ (escapeText c.defaultMessage ++ '\n' :: c.writtenRest) := by
  rw [write, Document.write, String.toList_ofList]
  simp [Document.writeFrom, toDocument, Section.write, Entry.write, writtenFront, writtenRest]

theorem leads_writtenFront :
    Mode.between.Leads writtenFront (.front messageKey) [.header greetingSection] :=
  (leads_header isWord_greetingSection).append (leads_key isWord_messageKey)

theorem leads_writtenRest (c : Config) :
    Mode.between.Leads c.writtenRest .between
      [.entry ⟨policyKey, c.emptyField1.name⟩, .header logSection,
        .entry ⟨levelKey, Text.lower c.logLevel.name⟩] := by
  have hbreak : ∀ place, Mode.between.next place '\n' = .ok (.between, none) := fun _ => rfl
  have hpolicy := leads_entry_of_isWord isWord_policyKey c.emptyField1.isWord_name
  have hlevel := leads_entry_of_isWord isWord_levelKey c.logLevel.isWord_lower_name
  exact hpolicy.append (.cons hbreak ((leads_header isWord_logSection).append hlevel))

theorem ne_of_mem_writtenRest (c : Config) :
    ∀ d ∈ '\n' :: c.writtenRest, d ≠ '\\' ∧ d ≠ '"' ∧ d ≠ '\x27' := by
  have hpolicy := c.emptyField1.isWord_name.ne_of_mem
  have hlevel := c.logLevel.isWord_lower_name.ne_of_mem
  simp only [writtenRest, Entry.write, List.forall_mem_cons, List.forall_mem_append]
  refine ⟨by decide, ⟨⟨?_, by decide, hpolicy⟩, by decide, by simp⟩, by decide,
    ⟨⟨by decide, ?_⟩, by decide, by decide, by simp⟩, ⟨?_, by decide, hlevel⟩, by decide, by simp⟩
  · exact isWord_policyKey.ne_of_mem
  · exact isWord_logSection.ne_of_mem
  · exact isWord_levelKey.ne_of_mem

/-- The text describes the same settings again, apart from the first greeting. -/
theorem readDocument_write {c : Config} {cs : List Char}
    (h : reread? c.defaultMessage.toList = some cs) :
    readDocument c.write = .ok { c with defaultMessage := String.ofList cs }.toDocument := by
  have hmessage := leads_value h messageKey
  have htext : c.write.toList
      = writtenFront ++ (escapeText c.defaultMessage ++ ['\n']) ++ c.writtenRest := by
    rw [toList_write]
    simp
  -- behind the line of the first greeting the reader is back between items
  have hread := ((leads_writtenFront.append hmessage).append c.leads_writtenRest).read
  rw [readDocument, Document.parse, htext, hread]
  rfl

/-- The text is no document if a quote in front of the first greeting is never closed. -/
theorem readDocument_write_of_unclosed {c : Config} (h : reread? c.defaultMessage.toList = none) :
    ∃ mark place, readDocument c.write
      = .error (.malformed ⟨.unfinished (.quoted messageKey mark), place⟩) := by
  -- the quote runs on through the keys behind it, none of which has one
  rcases leads_unclosed h messageKey c.ne_of_mem_writtenRest with ⟨mark, seen, hmessage⟩
  rcases (leads_writtenFront.append hmessage).read_quoted with ⟨place, hread⟩
  refine ⟨mark, place, ?_⟩
  rw [readDocument, Document.parse, toList_write, hread]
  rfl

/-! ## Reading the text back -/

/-- A configuration comes back from its text exactly if its first greeting has no blank at either
end, does not start with a quote, and contains neither a vertical tab nor a form feed. -/
theorem read_write_eq_self_iff (c : Config) :
    (readDocument c.write >>= ofDocument) = .ok c ↔
      (∀ x ∈ c.defaultMessage.toList.head?, Text.isBlank x = false) ∧
        (∀ x ∈ c.defaultMessage.toList.getLast?, Text.isBlank x = false) ∧
          (∀ x ∈ c.defaultMessage.toList.head?, x ≠ '"' ∧ x ≠ '\x27') ∧
            '\x0b' ∉ c.defaultMessage.toList ∧ '\x0c' ∉ c.defaultMessage.toList := by
  rw [← reread?_eq_self_iff, bind_eq_ok_iff]
  constructor
  · rintro ⟨d, hd, hc⟩
    cases hreread : reread? c.defaultMessage.toList with
    | none =>
        rcases readDocument_write_of_unclosed hreread with ⟨mark, place, herror⟩
        rw [herror] at hd
        cases hd
    | some cs =>
        rw [readDocument_write hreread] at hd
        cases hd
        rw [ofDocument, layer_toDocument, Except.ok.injEq] at hc
        have hmessage : String.ofList cs = c.defaultMessage := congrArg defaultMessage hc
        rw [← hmessage, String.toList_ofList]
  · intro h
    refine ⟨c.toDocument, ?_, layer_toDocument default c⟩
    rw [readDocument_write h, String.ofList_toList]

/-- Whatever the first greeting is, it cannot reach beyond its own key: if the text can be read at
all, it defines the settings that were written, and no others. It cannot be read exactly if the
greeting starts, up to blanks that are not escaped, with a quote that is never closed. -/
theorem write_confines_message (c : Config) :
    (∀ d, readDocument c.write = .ok d →
      (∃ message, d = { c with defaultMessage := message }.toDocument) ∧
        ∃ read, ofDocument d = .ok read ∧ read.emptyField1 = c.emptyField1 ∧
          read.logLevel = c.logLevel) ∧
    ((∃ e, readDocument c.write = .error e) ↔
      ∃ mark rest, c.defaultMessage.toList.dropWhile isLeading = mark :: rest ∧
        (mark = '"' ∨ mark = '\x27') ∧ mark ∉ rest) ∧
    ∀ e, readDocument c.write = .error e →
      ∃ mark place, e = .malformed ⟨.unfinished (.quoted messageKey mark), place⟩ := by
  -- the value either comes back as some text, or its quote is never closed
  rw [← reread?_eq_none_iff]
  cases hreread : reread? c.defaultMessage.toList with
  | none =>
      rcases readDocument_write_of_unclosed hreread with ⟨mark, place, herror⟩
      refine ⟨?_, ?_, ?_⟩
      · intro d hd
        rw [herror] at hd
        cases hd
      · exact ⟨fun _ => rfl, fun _ => ⟨_, herror⟩⟩
      · intro e he
        rw [herror] at he
        cases he
        exact ⟨mark, place, rfl⟩
  | some cs =>
      have hread := readDocument_write hreread
      refine ⟨?_, ?_, ?_⟩
      · intro d hd
        rw [hread] at hd
        cases hd
        exact ⟨⟨_, rfl⟩, _, layer_toDocument default _, rfl, rfl⟩
      · constructor
        · rintro ⟨e, he⟩
          rw [hread] at he
          cases he
        · intro hnone
          cases hnone
      · intro e he
        rw [hread] at he
        cases he

end Config
end GreetingService
