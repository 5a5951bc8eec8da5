import GreetingService.Log.Filter
import GreetingService.Proofs.Layering
import GreetingService.Proofs.TextParts

/-!
# Descriptions of filters

A description lists directives between commas. `Says` lays down what one piece of it means and
`Describes` which directives it has, in their order; the reader finds exactly these. A piece without
a meaning is passed over, whatever stands around it.
-/

namespace GreetingService.Log

/-! ## What a piece says -/

/-- The directive that a piece of a description says, blanks at its ends aside. A threshold alone is
for all targets; a target alone, with or without an equals sign behind it, lets everything through;
else there is a target with its threshold behind one equals sign. -/
inductive Says (piece : String) : Directive → Prop where
  | threshold {t : Threshold} (hname : t.IsNamedBy piece) : Says piece ⟨none, t⟩
  | target (hne : Text.trimmed piece ≠ "") (hmark : '=' ∉ (Text.trimmed piece).toList)
      (hname : ∀ t : Threshold, ¬ t.IsNamedBy piece) :
      Says piece ⟨some (Text.trimmed piece), .most⟩
  | unassigned {name : String} (htext : Text.trimmed piece = name ++ "=")
      (hname : '=' ∉ name.toList) : Says piece ⟨some name, .most⟩
  | assigned {name setting : String} {t : Threshold}
      (htext : Text.trimmed piece = name ++ "=" ++ setting) (hname : '=' ∉ name.toList)
      (hmark : '=' ∉ setting.toList) (hsetting : t.IsNamedBy setting) : Says piece ⟨some name, t⟩

theorem Threshold.not_isNamedBy_of_blank {t : Threshold} {setting : String}
    (h : Text.trimmed setting = "") : ¬ t.IsNamedBy setting := by
  rw [IsNamedBy, h]
  cases t with
  | off => decide +kernel
  | upTo level => cases level <;> decide +kernel

theorem Threshold.notMem_of_isNamedBy {t : Threshold} {setting : String}
    (h : t.IsNamedBy setting) : '=' ∉ (Text.trimmed setting).toList := by
  rw [IsNamedBy, Text.sameLetters, beq_iff_eq] at h
  intro hmark
  have hlower : '=' ∈ (Text.lower (Text.trimmed setting)).toList := by
    rw [Text.lower, String.toList_ofList]
    exact List.mem_map.2 ⟨'=', hmark, rfl⟩
  rw [← h] at hlower
  revert hlower
  cases t with
  | off => decide +kernel
  | upTo level => cases level <;> decide +kernel

theorem Threshold.ofName?_trimmed_eq_none_iff {setting : String} :
    ofName? (Text.trimmed setting) = none ↔ ∀ t : Threshold, ¬ t.IsNamedBy setting := by
  simp only [Option.eq_none_iff_forall_ne_some, ← ofName?_trimmed_eq_some_iff, ne_eq]

/-- Reads one piece of a description. -/
def readPiece? (piece : String) : Option Directive :=
  if Text.trimmed piece = "" then none else Directive.ofPart? (Text.trimmed piece)

theorem says_of_ofPart? {piece : String} {d : Directive} (hne : Text.trimmed piece ≠ "")
    (h : Directive.ofPart? (Text.trimmed piece) = some d) : Says piece d := by
  have hpieces : ∀ pieces, pieces ≠ [] → (Text.trimmed piece).splitOn "=" = pieces →
      Text.trimmed piece = "=".intercalate pieces ∧ ∀ p ∈ pieces, '=' ∉ p.toList :=
    fun _ hpieces => (Text.splitOn_eq_iff hpieces).1
  rw [Directive.ofPart?] at h
  split at h
  next only honly =>
    rcases hpieces _ (by simp) honly with ⟨htext, hmark⟩
    rw [String.intercalate_singleton] at htext
    subst htext
    split at h
    next t ht =>
      cases h
      exact .threshold (Threshold.ofName?_trimmed_eq_some_iff.1 ht)
    next hnone =>
      cases h
      exact .target hne (hmark _ (by simp)) (Threshold.ofName?_trimmed_eq_none_iff.1 hnone)
  next name setting hpair =>
    rcases hpieces _ (by simp) hpair with ⟨hjoin, hmark⟩
    have htext : Text.trimmed piece = name ++ "=" ++ setting := hjoin
    have hname : '=' ∉ name.toList := hmark _ (by simp)
    split at h
    next hblank =>
      have hempty : setting = "" := Text.eq_empty_of_trimmed htext hblank
      cases h
      rw [hempty, String.append_empty] at htext
      exact .unassigned htext hname
    · rcases Option.map_eq_some_iff.1 h with ⟨t, ht, rfl⟩
      exact .assigned htext hname (hmark _ (by simp)) (Threshold.ofName?_trimmed_eq_some_iff.1 ht)
  · cases h

theorem Says.ofPart?_eq {piece : String} {d : Directive} (h : Says piece d) :
    Directive.ofPart? (Text.trimmed piece) = some d := by
  cases h with
  | threshold hname =>
      have hsplit : (Text.trimmed piece).splitOn "=" = [Text.trimmed piece] :=
        Text.splitOn_of_notMem '=' (Threshold.notMem_of_isNamedBy hname)
      rw [Directive.ofPart?, hsplit]
      simp only [Threshold.ofName?_trimmed_eq_some_iff.2 hname]
  | target hne hmark hname =>
      have hsplit : (Text.trimmed piece).splitOn "=" = [Text.trimmed piece] :=
        Text.splitOn_of_notMem '=' hmark
      rw [Directive.ofPart?, hsplit]
      simp only [Threshold.ofName?_trimmed_eq_none_iff.2 hname]
  | @unassigned name htext hname =>
      have hsplit : (Text.trimmed piece).splitOn "=" = [name, ""] := by
        rw [htext, ← String.append_empty (s := name ++ "=")]
        exact Text.splitOn_pair '=' hname (by simp)
      rw [Directive.ofPart?, hsplit]
      rfl
  | @assigned name setting t htext hname hmark hsetting =>
      have hsplit : (Text.trimmed piece).splitOn "=" = [name, setting] := by
        rw [htext]
        exact Text.splitOn_pair '=' hname hmark
      have hblank : Text.trimmed setting ≠ "" :=
        fun h => Threshold.not_isNamedBy_of_blank h hsetting
      rw [Directive.ofPart?, hsplit]
      simp only [if_neg hblank, Threshold.ofName?_trimmed_eq_some_iff.2 hsetting, Option.map_some]

theorem Says.trimmed_ne {piece : String} {d : Directive} (h : Says piece d) :
    Text.trimmed piece ≠ "" := by
  intro hblank
  cases h with
  | threshold hname => exact Threshold.not_isNamedBy_of_blank hblank hname
  | target hne => exact hne hblank
  | unassigned htext => simp [hblank] at htext
  | assigned htext => simp [hblank] at htext

/-- What is read from a piece is what it says. -/
theorem readPiece?_eq_some_iff {piece : String} {d : Directive} :
    readPiece? piece = some d ↔ Says piece d := by
  rw [readPiece?]
  constructor
  · intro h
    split at h
    · cases h
    next hne => exact says_of_ofPart? hne h
  · intro h
    rw [if_neg h.trimmed_ne, h.ofPart?_eq]

/-! ## What a description says -/

/-- The directives of pieces, in order. A piece that says nothing is passed over. -/
inductive SayInOrder : List String → List Directive → Prop where
  | nil : SayInOrder [] []
  | directive {piece : String} {d : Directive} {pieces : List String} {ds : List Directive}
      (hpiece : Says piece d) (hrest : SayInOrder pieces ds) :
      SayInOrder (piece :: pieces) (d :: ds)
  | nothing {piece : String} {pieces : List String} {ds : List Directive}
      (hpiece : ∀ d, ¬ Says piece d) (hrest : SayInOrder pieces ds) :
      SayInOrder (piece :: pieces) ds

/-- The directives of a description are those of the pieces between its commas. -/
def Describes (description : String) (ds : List Directive) : Prop :=
  ∃ pieces, description = ",".intercalate pieces ∧ (∀ piece ∈ pieces, ',' ∉ piece.toList) ∧
    SayInOrder pieces ds

theorem sayInOrder_iff {pieces : List String} {ds : List Directive} :
    SayInOrder pieces ds ↔ pieces.filterMap readPiece? = ds := by
  constructor
  · intro h
    induction h with
    | nil => rfl
    | directive hpiece _ ih =>
        rw [List.filterMap_cons_some (readPiece?_eq_some_iff.2 hpiece), ih]
    | @nothing piece _ _ hpiece _ ih =>
        have hnone : readPiece? piece = none := by
          simp only [Option.eq_none_iff_forall_ne_some, ne_eq, readPiece?_eq_some_iff]
          exact hpiece
        rw [List.filterMap_cons_none hnone, ih]
  · rintro rfl
    induction pieces with
    | nil => exact .nil
    | cons piece pieces ih =>
        cases hpiece : readPiece? piece with
        | some d =>
            rw [List.filterMap_cons_some hpiece]
            exact .directive (readPiece?_eq_some_iff.1 hpiece) ih
        | none =>
            rw [List.filterMap_cons_none hpiece]
            refine .nothing ?_ ih
            intro d hd
            rw [readPiece?_eq_some_iff.2 hd] at hpiece
            cases hpiece

theorem ofDescription_eq {description : String} (h : '/' ∉ description.toList) :
    Directive.ofDescription description = (description.splitOn ",").filterMap readPiece? := by
  have hsplit : description.splitOn "/" = [description] := Text.splitOn_of_notMem '/' h
  rw [Directive.ofDescription, hsplit]
  exact List.filterMap_map

/-- The reader finds the directives of a description. -/
theorem describes_iff {description : String} {ds : List Directive}
    (h : '/' ∉ description.toList) :
    Describes description ds ↔ Directive.ofDescription description = ds := by
  rw [ofDescription_eq h]
  constructor
  · rintro ⟨pieces, htext, hmark, hds⟩
    by_cases hnil : pieces = []
    · -- the one piece of an empty text is empty
      have hsplit : description.splitOn "," = [""] := by
        rw [htext, hnil]
        exact Text.splitOn_of_notMem ',' (by simp)
      rw [hsplit]
      cases hnil
      cases hds
      rfl
    · have hsplit : description.splitOn "," = pieces :=
        (Text.splitOn_eq_iff hnil).2 ⟨htext, hmark⟩
      rw [hsplit]
      exact sayInOrder_iff.1 hds
  · intro hds
    have hne : description.splitOn "," ≠ [] := Text.splitOn_ne_nil description ','
    rcases (Text.splitOn_eq_iff hne).1 rfl with ⟨htext, hmark⟩
    exact ⟨_, htext, hmark, sayInOrder_iff.2 hds⟩

end GreetingService.Log
