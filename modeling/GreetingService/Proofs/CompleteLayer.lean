import GreetingService.Proofs.ConfigText
import GreetingService.Proofs.Layering

/-!
# The document of a configuration is a complete layer

The document of a configuration defines all of its settings, each by a value that names it again. It
leaves nothing of what it is layered over, so that the last document decides alone when it is one of
these. The layers below it can still be refused.
-/

namespace GreetingService.Config

open Definitions

/-! ## What the document defines -/

theorem inDocument_toDocument (c : Config) : inDocument c.toDocument
    = ⟨some c.defaultMessage, some c.emptyField1.name, some (Text.lower c.logLevel.name)⟩ := rfl

theorem follows_toDocument (before c : Config) : Follows before (inDocument c.toDocument) c :=
  define_eq_ok_iff.1 (layer_toDocument before c)

theorem valid_toDocument (c : Config) : (inDocument c.toDocument).Valid := by
  have hfollows := follows_toDocument default c
  constructor
  · rintro setting ⟨⟩
    exact ⟨c.emptyField1, hfollows.policy⟩
  · rintro setting ⟨⟩
    exact ⟨c.logLevel, hfollows.level⟩

/-! ## The document as the last layer -/

theorem together_concat_toDocument (ds : List Definitions) (c : Config) :
    together (ds ++ [inDocument c.toDocument]) = inDocument c.toDocument := by
  simp only [together, last_concat, inDocument_toDocument, Option.some_or]

/-- Whatever the layers below define, the configuration comes out if each of them is valid. -/
theorem foldlM_layer_toDocument_eq_ok_iff (before c : Config) (layers : List Settings.Document) :
    (layers ++ [c.toDocument]).foldlM layer before = .ok c ↔
      ∀ d ∈ layers, (inDocument d).Valid := by
  rw [foldlM_layer_eq_foldlM_define, List.map_append, List.map_singleton, foldlM_define_eq_ok_iff,
    together_concat_toDocument, and_iff_left (follows_toDocument before c),
    List.forall_mem_append, List.forall_mem_singleton, and_iff_left (valid_toDocument c),
    List.forall_mem_map]

/-- Documents in which every look-up is the same are layers of the same effect. -/
theorem layer_congr {d d' : Settings.Document} (h : ∀ name key, d.get? name key = d'.get? name key)
    (before : Config) : before.layer d = before.layer d' := by
  simp only [layer, h]

/-- The document of a configuration gives the configuration back over any other, and so by itself.
Different configurations can be told apart by a look-up in their documents. As the last of several
layers it gives the configuration back too, if and only if none of the others is refused. -/
theorem toDocument_complete (c : Config) :
    (∀ before : Config, before.layer c.toDocument = .ok c) ∧
    ofDocument c.toDocument = .ok c ∧
    (∀ c' : Config, c' ≠ c →
      ∃ name key, c'.toDocument.get? name key ≠ c.toDocument.get? name key) ∧
    ∀ (before : Config) (layers : List Settings.Document),
      (layers ++ [c.toDocument]).foldlM layer before = .ok c ↔
        ∀ d ∈ layers, (inDocument d).Valid := by
  refine ⟨fun before => layer_toDocument before c, layer_toDocument default c, ?_, ?_⟩
  · intro c' hne
    by_contra hsame
    push Not at hsame
    have hlayer := layer_congr hsame default
    rw [layer_toDocument, layer_toDocument] at hlayer
    exact hne (Except.ok.inj hlayer)
  · intro before layers
    exact foldlM_layer_toDocument_eq_ok_iff before c layers

/-- A configuration whose greeting does not come back from a text. -/
def unwritable : Config := ⟨" \"Hi\x0b ", .ignore, .off⟩

/-- A document that defines the policy alone. -/
def policyOnly (setting : String) : Settings.Document :=
  [⟨some greetingSection, [⟨policyKey, setting⟩]⟩]

/-- A policy below is replaced, whatever it is called, but it has to be one. -/
theorem toDocument_complete_unwritable :
    (⟨"", .overwrite, .upTo .trace⟩ : Config).layer unwritable.toDocument = .ok unwritable ∧
      [policyOnly " Overwrite", unwritable.toDocument].foldlM layer default = .ok unwritable ∧
      [policyOnly "never", unwritable.toDocument].foldlM layer default ≠ .ok unwritable ∧
      default ≠ unwritable ∧
      ∃ name key, default.toDocument.get? name key ≠ unwritable.toDocument.get? name key := by
  rcases toDocument_complete unwritable with ⟨hover, _, hapart, hlast⟩
  have hvalid : ∀ d ∈ [policyOnly " Overwrite"], (inDocument d).Valid := by
    rw [List.forall_mem_singleton]
    constructor
    · rintro setting ⟨⟩
      exact ⟨.overwrite, Policy.ofSetting?_eq_some_iff.1 (by decide +kernel)⟩
    · nofun
  have hinvalid : ¬ ∀ d ∈ [policyOnly "never"], (inDocument d).Valid := by
    rw [List.forall_mem_singleton]
    intro hd
    rcases hd.1 "never" rfl with ⟨p, hp⟩
    rw [← Policy.ofSetting?_eq_some_iff] at hp
    have hnone : Policy.ofSetting? "never" = none := by decide +kernel
    rw [hnone] at hp
    cases hp
  have hne : default ≠ unwritable := by decide
  exact ⟨hover _, (hlast default _).2 hvalid, fun h => hinvalid ((hlast default _).1 h), hne,
    hapart default hne⟩

end GreetingService.Config
