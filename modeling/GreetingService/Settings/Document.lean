/-!
# Settings documents

A settings document is a sequence of sections, each of which is a sequence of keys with values.
What stands before the first header belongs to a section without a name. Sections of one name are
kept apart, and looking up a key takes the first section of the name and the first entry in it.
-/

namespace GreetingService.Settings

/-- A key with its value. -/
structure Entry where
  key : String
  value : String
  deriving DecidableEq

/-- A section; only the one before the first header has no name. -/
structure Section where
  name : Option String
  entries : List Entry
  deriving DecidableEq

/-- A document. -/
abbrev Document := List Section

/-- What a document is made of, in order of appearance. -/
inductive Item where
  | header (name : String)
  | entry (entry : Entry)
  deriving DecidableEq

namespace Section

/-- The value of the first entry of a key. -/
def get? (s : Section) (key : String) : Option String :=
  (s.entries.find? fun e => e.key == key).map Entry.value

end Section

namespace Document

/-- The value of a key in the first section of a name. -/
def get? (d : Document) (name key : String) : Option String :=
  (d.find? fun s => s.name == some name).bind fun s => s.get? key

/-- The entries that follow, up to the next header. -/
def leading : List Item → List Entry
  | .entry e :: items => e :: leading items
  | _ => []

/-- The sections that the headers among the items open. -/
def named : List Item → List Section
  | [] => []
  | .header name :: items => ⟨some name, leading items⟩ :: named items
  | .entry _ :: items => named items

/-- The document of the given items. There is a section without a name only if an entry precedes
the first header. -/
def ofItems (items : List Item) : Document :=
  match leading items with
  | [] => named items
  | entries => ⟨none, entries⟩ :: named items

end Document

end GreetingService.Settings
