import GreetingService.Proofs.FilterDescription

/-!
# The directive that governs a target

The filter of the service starts with the configured threshold and takes the directives of a
description one after the other, each of which replaces an earlier one of its name. Of those left,
the one whose name is the longest front of a target governs it. There is one, because the configured
threshold is for all targets unless the description has such a threshold itself.
-/

namespace GreetingService.Log

/-! ## Names of directives -/

namespace Directive

/-- What the targets of a directive start with. -/
def label (d : Directive) : String := d.name.getD ""

theorem covers_eq_true_iff {d : Directive} {target : String} :
    d.covers target = true ↔ d.label.toList <+: target.toList := by
  rw [covers, label]
  cases d.name with
  | none => simp
  | some name => exact List.isPrefixOf_iff_prefix

theorem name_eq_of_label_eq {d d' : Directive} (hd : d.name ≠ some "") (hd' : d'.name ≠ some "")
    (h : d.label = d'.label) : d.name = d'.name := by
  rw [label, label] at h
  cases hname : d.name with
  | none =>
      cases hname' : d'.name with
      | none => rfl
      | some name' => simp_all
  | some name =>
      cases hname' : d'.name with
      | none => simp_all
      | some name' => simp_all

theorem label_size_le_of_weight_le {d d' : Directive} (h : d.weight ≤ d'.weight) :
    d.label.utf8ByteSize ≤ d'.label.utf8ByteSize := by
  rw [weight, weight] at h
  rw [label, label]
  cases hname : d.name with
  | none => simp
  | some name =>
      cases hname' : d'.name with
      | none => simp [hname, hname'] at h
      | some name' => simpa [hname, hname'] using h

/-- Of two fronts of one target, one with no more bytes than the other has no more characters. -/
theorem label_length_le {d d' : Directive} {target : String}
    (hd : d.label.toList <+: target.toList) (hd' : d'.label.toList <+: target.toList)
    (h : d.label.utf8ByteSize ≤ d'.label.utf8ByteSize) : d.label.length ≤ d'.label.length := by
  rw [← String.length_toList, ← String.length_toList]
  rcases List.prefix_or_prefix_of_prefix hd hd' with hfront | hfront
  · exact hfront.length_le
  · -- the shorter of the two is not the one with fewer bytes, so that they are the same
    rcases hfront with ⟨rest, hrest⟩
    have hlabel : d.label = d'.label ++ String.ofList rest := by
      rw [← String.toList_inj, String.toList_append, String.toList_ofList, hrest]
    rw [hlabel, String.utf8ByteSize_append] at h
    have hempty : String.ofList rest = "" := by
      rw [← String.utf8ByteSize_eq_zero_iff]
      omega
    rw [hlabel, hempty, String.append_empty]

end Directive

/-! ## The directives that are left -/

/-- A directive is the last of its name in a list. -/
def LastOfName (ds : List Directive) (d : Directive) : Prop :=
  ∃ before after, ds = before ++ d :: after ∧ ∀ other ∈ after, other.name ≠ d.name

/-- The directives that are left of a list under a configured threshold: the last one of each name,
and the configured threshold unless the list has a threshold for all targets. -/
inductive Survives (configured : Threshold) (ds : List Directive) : Directive → Prop where
  | written {d : Directive} (hlast : LastOfName ds d) : Survives configured ds d
  | configured (hnamed : ∀ d ∈ ds, d.name ≠ none) : Survives configured ds ⟨none, configured⟩

theorem lastOfName_concat_iff {ds : List Directive} {d e : Directive} :
    LastOfName (ds ++ [e]) d ↔ d = e ∨ LastOfName ds d ∧ d.name ≠ e.name := by
  constructor
  · rintro ⟨before, after, hds, hafter⟩
    -- the new directive is the one itself, or the end of what stands behind it
    cases after.eq_nil_or_concat' with
    | inl hnil =>
        rw [hnil] at hds
        exact .inl (List.singleton_inj.1 (List.append_inj' hds rfl).2).symm
    | inr hconcat =>
        rcases hconcat with ⟨between, last, rfl⟩
        rw [← List.cons_append, ← List.append_assoc] at hds
        rcases List.append_inj' hds rfl with ⟨hds, hlast⟩
        rw [List.singleton_inj] at hlast
        rw [List.forall_mem_append, List.forall_mem_singleton, ← hlast] at hafter
        exact .inr ⟨⟨before, between, hds, hafter.1⟩, hafter.2.symm⟩
  · rintro (rfl | ⟨⟨before, after, hds, hafter⟩, hname⟩)
    · exact ⟨ds, [], rfl, by simp⟩
    · refine ⟨before, after ++ [e], by simp [hds], ?_⟩
      rw [List.forall_mem_append, List.forall_mem_singleton]
      exact ⟨hafter, hname.symm⟩

theorem LastOfName.mem {ds : List Directive} {d : Directive} (h : LastOfName ds d) : d ∈ ds := by
  rcases h with ⟨before, after, rfl, _⟩
  exact List.mem_append_cons_self

theorem LastOfName.unique {ds : List Directive} {d d' : Directive} (h : LastOfName ds d)
    (h' : LastOfName ds d') (hname : d.name = d'.name) : d = d' := by
  induction ds using List.reverseRecOn with
  | nil => cases h.mem
  | append_singleton ds e ih =>
      rcases lastOfName_concat_iff.1 h with rfl | ⟨hd, hne⟩
      · rcases lastOfName_concat_iff.1 h' with rfl | ⟨_, hne'⟩
        · rfl
        · exact absurd hname.symm hne'
      · rcases lastOfName_concat_iff.1 h' with rfl | ⟨hd', _⟩
        · exact absurd hname hne
        · exact ih hd hd'

/-- Every name in a list has a last directive. -/
theorem exists_lastOfName {ds : List Directive} {e : Directive} (h : e ∈ ds) :
    ∃ d, LastOfName ds d ∧ d.name = e.name := by
  induction ds using List.reverseRecOn with
  | nil => cases h
  | append_singleton ds last ih =>
      by_cases hlast : e.name = last.name
      · exact ⟨last, lastOfName_concat_iff.2 (.inl rfl), hlast.symm⟩
      · have hmem : e ∈ ds := by
          rcases List.mem_append.1 h with hmem | hmem
          · exact hmem
          · exact absurd (congrArg Directive.name (List.mem_singleton.1 hmem)) hlast
        rcases ih hmem with ⟨d, hd, hname⟩
        exact ⟨d, lastOfName_concat_iff.2 (.inr ⟨hd, hname.trans_ne hlast⟩), hname⟩

theorem Survives.unique {configured : Threshold} {ds : List Directive} {d d' : Directive}
    (h : Survives configured ds d) (h' : Survives configured ds d') (hname : d.name = d'.name) :
    d = d' := by
  cases h with
  | written hlast =>
      cases h' with
      | written hlast' => exact hlast.unique hlast' hname
      | configured hnamed => exact absurd hname (hnamed d hlast.mem)
  | configured hnamed =>
      cases h' with
      | written hlast' => exact absurd hname.symm (hnamed d' hlast'.mem)
      | configured _ => rfl

theorem Survives.name_ne {configured : Threshold} {ds : List Directive} {d : Directive}
    (hds : ∀ d ∈ ds, d.name ≠ some "") (h : Survives configured ds d) : d.name ≠ some "" := by
  cases h with
  | written hlast => exact hds d hlast.mem
  | configured _ => simp

/-- One of the directives that are left is for all targets. -/
theorem exists_survives_nameless (configured : Threshold) (ds : List Directive) :
    ∃ t, Survives configured ds ⟨none, t⟩ := by
  by_cases hnamed : ∀ d ∈ ds, d.name ≠ none
  · exact ⟨configured, .configured hnamed⟩
  · push Not at hnamed
    rcases hnamed with ⟨e, hmem, hnone⟩
    rcases exists_lastOfName hmem with ⟨⟨name, t⟩, hlast, hname⟩
    cases hname.trans hnone
    exact ⟨t, .written hlast⟩

/-! ## Refining a filter -/

theorem Filter.mem_insert_iff {f : Filter} {d e : Directive} :
    d ∈ f.insert e ↔ d = e ∨ d ∈ f ∧ d.name ≠ e.name := by
  rw [insert, List.mem_append, List.mem_filter, List.mem_singleton, bne_iff_ne, or_comm]

theorem Filter.mem_foldl_insert_iff {f : Filter} {ds : List Directive} {d : Directive} :
    d ∈ ds.foldl insert f ↔ LastOfName ds d ∨ d ∈ f ∧ ∀ e ∈ ds, e.name ≠ d.name := by
  induction ds using List.reverseRecOn with
  | nil => simp [LastOfName]
  | append_singleton ds e ih =>
      rw [List.foldl_concat, mem_insert_iff, ih, lastOfName_concat_iff]
      simp only [List.forall_mem_append, List.forall_mem_singleton]
      -- what remains only regroups the cases
      grind

/-- Once a directive is replaced, it does not matter any more what it was. -/
theorem Filter.foldl_insert_congr {f f' : Filter} {name : Option String} {ds : List Directive}
    (h : f.filter (fun d => d.name != name) = f'.filter fun d => d.name != name)
    (hreplaced : ∃ d ∈ ds, d.name = name) : ds.foldl insert f = ds.foldl insert f' := by
  -- until the directive is replaced, the filters agree on all others; from then on they are equal
  induction ds generalizing f f' with
  | nil => simp at hreplaced
  | cons d ds ih =>
      rw [List.foldl_cons, List.foldl_cons]
      by_cases hd : d.name = name
      · have hinsert : f.insert d = f'.insert d := by rw [insert, insert, hd, h]
        rw [hinsert]
      · refine ih ?_ (by simpa [hd] using hreplaced)
        rw [insert, insert, List.filter_append, List.filter_append, List.filter_comm, h,
          List.filter_comm]

/-- What a description that may be missing says. -/
def Lists (description : Option String) (ds : List Directive) : Prop :=
  match description with
  | none => ds = []
  | some text => Describes text ds

theorem serviceFilter_eq {configured : Threshold} {description : Option String}
    {ds : List Directive} (hslash : ∀ text ∈ description, '/' ∉ text.toList)
    (hds : Lists description ds) :
    serviceFilter configured description = ds.foldl Filter.insert (Filter.uniform configured) := by
  cases description with
  | none => rw [Lists] at hds; rw [hds]; rfl
  | some text =>
      rw [serviceFilter, Option.map_some, Option.getD_some, Filter.refine,
        (describes_iff (hslash text rfl)).1 hds]

/-- The filter of the service holds the directives that are left. -/
theorem mem_serviceFilter_iff {configured : Threshold} {description : Option String}
    {ds : List Directive} (hslash : ∀ text ∈ description, '/' ∉ text.toList)
    (hds : Lists description ds) {d : Directive} :
    d ∈ serviceFilter configured description ↔ Survives configured ds d := by
  rw [serviceFilter_eq hslash hds, Filter.mem_foldl_insert_iff, Filter.uniform, List.mem_singleton]
  constructor
  · rintro (hlast | ⟨rfl, hnamed⟩)
    · exact .written hlast
    · exact .configured hnamed
  · intro h
    cases h with
    | written hlast => exact .inl hlast
    | configured hnamed => exact .inr ⟨rfl, hnamed⟩

/-! ## The governing directive -/

/-- Of the directives that are left, the one with the longest name that a target starts with. -/
structure Governs (left : Directive → Prop) (target : String) (d : Directive) : Prop where
  isLeft : left d
  front : d.label.toList <+: target.toList
  longest : ∀ other, left other → other.label.toList <+: target.toList →
    other.label.length ≤ d.label.length

theorem Governs.unique {left : Directive → Prop} {target : String} {d d' : Directive}
    (hunique : ∀ e e', left e → left e' → e.name = e'.name → e = e')
    (hname : ∀ e, left e → e.name ≠ some "") (h : Governs left target d)
    (h' : Governs left target d') : d = d' := by
  -- two fronts of one target that are equally long are the same
  have hlength : d.label.toList.length = d'.label.toList.length :=
    Nat.le_antisymm (h'.longest d h.isLeft h.front) (h.longest d' h'.isLeft h'.front)
  have hlabel : d.label.toList = d'.label.toList :=
    (List.prefix_of_prefix_length_le h.front h'.front hlength.le).eq_of_length hlength
  exact hunique d d' h.isLeft h'.isLeft (Directive.name_eq_of_label_eq (hname d h.isLeft)
    (hname d' h'.isLeft) (String.toList_inj.1 hlabel))

/-- One of several things weighs as much as any of them. -/
def Heaviest {α : Type} (weight : α → Nat) (xs : List α) (x : α) : Prop :=
  x ∈ xs ∧ ∀ y ∈ xs, weight y ≤ weight x

theorem heaviest_singleton {α : Type} (weight : α → Nat) (x : α) : Heaviest weight [x] x := by
  simp [Heaviest]

/-- With one thing more, the heavier of it and the heaviest so far is the heaviest. -/
theorem Heaviest.concat {α : Type} {weight : α → Nat} {xs : List α} {best x y : α}
    (h : Heaviest weight xs best) (hone : y = best ∨ y = x) (hbest : weight best ≤ weight y)
    (hx : weight x ≤ weight y) : Heaviest weight (xs ++ [x]) y := by
  constructor
  · rcases hone with rfl | rfl
    · exact List.mem_append_left _ h.1
    · simp
  · rw [List.forall_mem_append, List.forall_mem_singleton]
    exact ⟨fun z hz => (h.2 z hz).trans hbest, hx⟩

namespace Filter

theorem exists_moreSpecific (best d : Directive) :
    ∃ e, moreSpecific (some best) d = some e ∧ (e = best ∨ e = d) ∧
      best.weight ≤ e.weight ∧ d.weight ≤ e.weight := by
  simp only [moreSpecific]
  split
  next hlt => exact ⟨d, rfl, .inr rfl, hlt.le, le_rfl⟩
  next hle => exact ⟨best, rfl, .inl rfl, le_rfl, not_lt.1 hle⟩

theorem exists_foldl_moreSpecific {ds : List Directive} (h : ds ≠ []) :
    ∃ d, ds.foldl moreSpecific none = some d ∧ Heaviest Directive.weight ds d := by
  induction ds using List.reverseRecOn with
  | nil => exact absurd rfl h
  | append_singleton ds last ih =>
      by_cases hnil : ds = []
      · subst hnil
        exact ⟨last, rfl, heaviest_singleton _ last⟩
      · rcases ih hnil with ⟨best, hbest, hheaviest⟩
        rcases exists_moreSpecific best last with ⟨d, hd, hone, hle, hlast⟩
        exact ⟨d, by rw [List.foldl_concat, hbest, hd], hheaviest.concat hone hle hlast⟩

/-- A filter with a threshold for all targets has a directive that governs a target. -/
theorem exists_governs {f : Filter} (target : String) {t : Threshold} (h : ⟨none, t⟩ ∈ f) :
    ∃ d, f.governing? target = some d ∧ Governs (· ∈ f) target d := by
  have hne : (f.filter fun d => d.covers target) ≠ [] :=
    List.ne_nil_of_mem (List.mem_filter.2 ⟨h, rfl⟩)
  rcases exists_foldl_moreSpecific hne with ⟨d, hd, hmem, hweight⟩
  simp only [List.mem_filter, Directive.covers_eq_true_iff] at hmem hweight
  refine ⟨d, hd, hmem.1, hmem.2, ?_⟩
  intro other hother hfront
  exact Directive.label_length_le hfront hmem.2
    (Directive.label_size_le_of_weight_le (hweight other ⟨hother, hfront⟩))

end Filter

/-! ## The most verbose threshold -/

theorem Threshold.max_off (t : Threshold) : max .off t = t := by
  cases t with
  | off => rfl
  | upTo level => cases level <;> rfl

theorem Threshold.max_spec (s t : Threshold) :
    (max s t = s ∨ max s t = t) ∧ s.rank ≤ (max s t).rank ∧ t.rank ≤ (max s t).rank := by
  rw [max]
  split
  next hlt => exact ⟨.inr rfl, hlt.le, le_rfl⟩
  next hle => exact ⟨.inl rfl, le_rfl, not_lt.1 hle⟩

theorem Threshold.heaviest_foldl_max {ts : List Threshold} (h : ts ≠ []) :
    Heaviest rank ts (ts.foldl max .off) := by
  induction ts using List.reverseRecOn with
  | nil => exact absurd rfl h
  | append_singleton ts last ih =>
      rw [List.foldl_concat]
      by_cases hnil : ts = []
      · subst hnil
        rw [List.foldl_nil, max_off]
        exact heaviest_singleton _ last
      · rcases max_spec (ts.foldl max .off) last with ⟨hone, hle, hlast⟩
        exact (ih hnil).concat hone hle hlast

/-- The most verbose threshold of a filter is that of one of its directives. -/
theorem Filter.heaviest_most {f : Filter} {d : Directive} (h : d ∈ f) :
    Heaviest Threshold.rank (f.map Directive.threshold) f.most :=
  Threshold.heaviest_foldl_max (List.ne_nil_of_mem (List.mem_map_of_mem h))

/-! ## The filter of the service -/

theorem exists_lists {description : Option String}
    (hslash : ∀ text ∈ description, '/' ∉ text.toList) : ∃ ds, Lists description ds := by
  cases description with
  | none => exact ⟨[], rfl⟩
  | some text => exact ⟨_, (describes_iff (hslash text rfl)).2 rfl⟩

section ServiceFilter

variable {description : Option String} {ds : List Directive}
  (hslash : ∀ text ∈ description, '/' ∉ text.toList) (hds : Lists description ds)
  (hname : ∀ d ∈ ds, d.name ≠ some "")

include hslash hds

theorem exists_governing_eq (configured : Threshold) (target : String) :
    ∃ d, (serviceFilter configured description).governing? target = some d ∧
      Governs (Survives configured ds) target d := by
  have hleft : (· ∈ serviceFilter configured description) = Survives configured ds :=
    funext fun d => propext (mem_serviceFilter_iff hslash hds)
  rcases exists_survives_nameless configured ds with ⟨t, ht⟩
  rw [← hleft] at ht ⊢
  exact Filter.exists_governs target ht

/-- With a threshold for all targets in the description, the configured one plays no part. -/
theorem serviceFilter_congr (hnameless : ∃ d ∈ ds, d.name = none)
    (configured configured' : Threshold) :
    serviceFilter configured description = serviceFilter configured' description := by
  rw [serviceFilter_eq hslash hds, serviceFilter_eq hslash hds]
  exact Filter.foldl_insert_congr rfl hnameless

theorem exists_survives_most (configured : Threshold) :
    ∃ d, Survives configured ds d ∧ d.threshold = (serviceFilter configured description).most := by
  rcases exists_survives_nameless configured ds with ⟨t, ht⟩
  have hmost := Filter.heaviest_most ((mem_serviceFilter_iff hslash hds).2 ht)
  rcases List.mem_map.1 hmost.1 with ⟨d, hd, hthreshold⟩
  exact ⟨d, (mem_serviceFilter_iff hslash hds).1 hd, hthreshold⟩

theorem Survives.rank_le_most {configured : Threshold} {d : Directive}
    (h : Survives configured ds d) :
    d.threshold.rank ≤ (serviceFilter configured description).most.rank := by
  have hmem := (mem_serviceFilter_iff hslash hds).2 h
  exact (Filter.heaviest_most hmem).2 _ (List.mem_map_of_mem hmem)

include hname

/-- A directive governs a target if and only if the filter finds it. -/
theorem governing?_eq_some_iff {configured : Threshold} {target : String} {d : Directive} :
    (serviceFilter configured description).governing? target = some d ↔
      Governs (Survives configured ds) target d := by
  rcases exists_governing_eq hslash hds configured target with ⟨found, hfound, hgoverns⟩
  rw [hfound, Option.some.injEq]
  constructor
  · rintro rfl
    exact hgoverns
  · intro h
    exact hgoverns.unique (fun _ _ he he' => he.unique he') (fun _ he => he.name_ne hname) h

theorem existsUnique_governs (configured : Threshold) (target : String) :
    ∃! d, Governs (Survives configured ds) target d := by
  rcases exists_governing_eq hslash hds configured target with ⟨d, hd, hgoverns⟩
  refine ⟨d, hgoverns, ?_⟩
  intro d' hgoverns'
  rw [← governing?_eq_some_iff hslash hds hname, hd] at hgoverns'
  exact (Option.some.inj hgoverns').symm

theorem admits_eq_true_iff {configured : Threshold} {target : String} {d : Directive}
    (h : Governs (Survives configured ds) target d) (level : Level) :
    (serviceFilter configured description).admits target level = true ↔
      level.rank ≤ d.threshold.rank := by
  rw [Filter.admits, (governing?_eq_some_iff hslash hds hname).2 h]
  exact decide_eq_true_iff

/-- The directives that are left may be kept in any order in which longer names come later: the
first one from the end that is for a target is the one that governs it. -/
theorem find?_reverse_eq_governing? {configured : Threshold} {ordered : List Directive}
    (hordered : ordered.Pairwise fun d d' => d.label.utf8ByteSize ≤ d'.label.utf8ByteSize)
    (hleft : ∀ d, d ∈ ordered ↔ Survives configured ds d) (target : String) :
    ordered.reverse.find? (fun d => d.covers target)
      = (serviceFilter configured description).governing? target := by
  cases hfind : ordered.reverse.find? fun d => d.covers target with
  | none =>
      rcases exists_survives_nameless configured ds with ⟨t, ht⟩
      rw [← hleft, ← List.mem_reverse] at ht
      exact absurd rfl (List.find?_eq_none.1 hfind _ ht)
  | some d =>
      rcases List.find?_eq_some_iff_append.1 hfind with ⟨hcovers, longer, shorter, hsplit, hlonger⟩
      rw [Directive.covers_eq_true_iff] at hcovers
      have hmem : d ∈ ordered := by
        rw [← List.mem_reverse, hsplit]
        simp
      rw [eq_comm, governing?_eq_some_iff hslash hds hname]
      refine ⟨(hleft d).1 hmem, hcovers, ?_⟩
      intro other hother hfront
      rw [← hleft, ← List.mem_reverse, hsplit, List.mem_append, List.mem_cons] at hother
      rw [← List.pairwise_reverse, hsplit, List.pairwise_append, List.pairwise_cons] at hordered
      -- those passed over on the way are not for the target, and the rest is shorter
      rcases hother with hlong | rfl | hshort
      · have hcovered := hlonger other hlong
        rw [Directive.covers_eq_true_iff.2 hfront] at hcovered
        cases hcovered
      · exact le_rfl
      · exact Directive.label_length_le hfront hcovers (hordered.2.1.1 other hshort)

end ServiceFilter

/-- Every target is governed by exactly one directive, the one with the longest name that the target
starts with among those left of the description, and the filter admits what its threshold admits.
The configured threshold is for the targets that no other directive is for, unless the description
has such a threshold itself; then it plays no part at all, and it is alone where the description
says nothing. The most verbose threshold of the filter is the greatest of those that are left, so
that nothing beyond it is ever admitted. -/
theorem filtering_law (configured : Threshold) {description : Option String}
    (hslash : ∀ text ∈ description, '/' ∉ text.toList) :
    (∃ ds, Lists description ds) ∧
    ∀ ds, Lists description ds → (∀ d ∈ ds, d.name ≠ some "") →
      (∀ target, ∃! d, Governs (Survives configured ds) target d) ∧
      (∀ target d, Governs (Survives configured ds) target d → ∀ level,
        (serviceFilter configured description).admits target level = true ↔
          level.rank ≤ d.threshold.rank) ∧
      ((∃ d ∈ ds, d.name = none) → ∀ configured',
        serviceFilter configured description = serviceFilter configured' description) ∧
      (ds = [] → ∀ target level,
        (serviceFilter configured description).admits target level = true ↔
          level.rank ≤ configured.rank) ∧
      ((∃ d, Survives configured ds d ∧
          d.threshold = (serviceFilter configured description).most) ∧
        ∀ d, Survives configured ds d →
          d.threshold.rank ≤ (serviceFilter configured description).most.rank) ∧
      ∀ target level, (serviceFilter configured description).admits target level = true →
        level.rank ≤ (serviceFilter configured description).most.rank := by
  refine ⟨exists_lists hslash, ?_⟩
  intro ds hds hname
  have hgoverned : ∀ target, ∃! d, Governs (Survives configured ds) target d :=
    existsUnique_governs hslash hds hname configured
  refine ⟨hgoverned, ?_, ?_, ?_, ⟨exists_survives_most hslash hds configured, ?_⟩, ?_⟩
  · intro target d hd level
    exact admits_eq_true_iff hslash hds hname hd level
  · intro hnameless
    exact serviceFilter_congr hslash hds hnameless configured
  · rintro rfl target level
    rw [serviceFilter_eq hslash hds]
    exact decide_eq_true_iff
  · intro d hd
    exact hd.rank_le_most hslash hds
  · intro target level hlevel
    rcases (hgoverned target).exists with ⟨d, hd⟩
    calc
      level.rank ≤ d.threshold.rank := (admits_eq_true_iff hslash hds hname hd level).1 hlevel
      _ ≤ (serviceFilter configured description).most.rank := hd.isLeft.rank_le_most hslash hds

/-- A description with two directives of one name, one that is for everything below a target, one
that means nothing, and a threshold for all targets. -/
def partlyMeant : String := "greeter=debug,greeter=error,greeter::handler=,loud=5, info "

/-- What it says. -/
def meant : List Directive :=
  [⟨some "greeter", .upTo .debug⟩, ⟨some "greeter", .upTo .error⟩,
    ⟨some "greeter::handler", .most⟩, ⟨none, .upTo .info⟩]

theorem describes_partlyMeant : Describes partlyMeant meant := by
  have hnamed : ∀ {t : Threshold} {setting : String},
      Threshold.ofName? (Text.trimmed setting) = some t → t.IsNamedBy setting :=
    Threshold.ofName?_trimmed_eq_some_iff.1
  have hdebug : Says "greeter=debug" ⟨some "greeter", .upTo .debug⟩ := by
    have htext : Text.trimmed "greeter=debug" = "greeter" ++ "=" ++ "debug" := by decide +kernel
    exact .assigned htext (by decide) (by decide) (hnamed (by decide +kernel))
  have herror : Says "greeter=error" ⟨some "greeter", .upTo .error⟩ := by
    have htext : Text.trimmed "greeter=error" = "greeter" ++ "=" ++ "error" := by decide +kernel
    exact .assigned htext (by decide) (by decide) (hnamed (by decide +kernel))
  have hhandler : Says "greeter::handler=" ⟨some "greeter::handler", .most⟩ := by
    have htext : Text.trimmed "greeter::handler=" = "greeter::handler" ++ "=" := by
      decide +kernel
    exact .unassigned htext (by decide)
  have hinfo : Says " info " ⟨none, .upTo .info⟩ := .threshold (hnamed (by decide +kernel))
  have hloud : ∀ d, ¬ Says "loud=5" d := by
    intro d hd
    have htext : Text.trimmed "loud=5" = "loud" ++ "=" ++ "5" := by decide +kernel
    have hsplit : (Text.trimmed "loud=5").splitOn "=" = ["loud", "5"] := by
      rw [htext]
      exact Text.splitOn_pair '=' (by decide) (by decide)
    have hread := hd.ofPart?_eq
    rw [Directive.ofPart?, hsplit] at hread
    cases hread
  refine ⟨["greeter=debug", "greeter=error", "greeter::handler=", "loud=5", " info "],
    by decide +kernel, by decide, ?_⟩
  exact .directive hdebug (.directive herror (.directive hhandler (.nothing hloud
    (.directive hinfo .nil))))

theorem governs_meant {target : String} {d : Directive} (hlast : LastOfName meant d)
    (hfront : d.label.toList <+: target.toList)
    (hlongest : ∀ other ∈ meant, other.label.toList <+: target.toList →
      other.label.length ≤ d.label.length) : Governs (Survives .off meant) target d := by
  refine ⟨.written hlast, hfront, ?_⟩
  intro other hother
  cases hother with
  | written hother => exact hlongest other hother.mem
  | configured hnamed => exact absurd rfl (hnamed ⟨none, .upTo .info⟩ (by decide))

/-- The longer name outdoes the shorter one, and the later directive the earlier one of its name.
The configured threshold lets nothing through, but it is replaced; without a description it is
alone. -/
theorem filtering_law_partlyMeant :
    '/' ∉ partlyMeant.toList ∧ Describes partlyMeant meant ∧
      (∀ d ∈ meant, d.name ≠ some "") ∧
      (serviceFilter .off (some partlyMeant)).admits "greeter::handlers" .trace = true ∧
      (serviceFilter .off (some partlyMeant)).admits "greeter::component" .warn = false ∧
      (serviceFilter .off (some partlyMeant)).admits "greet" .info = true ∧
      serviceFilter .off (some partlyMeant) = serviceFilter (.upTo .debug) (some partlyMeant) ∧
      (serviceFilter .off none).admits "greet" .error = false := by
  have hslash : '/' ∉ partlyMeant.toList := by decide
  have hname : ∀ d ∈ meant, d.name ≠ some "" := by decide
  have hgiven : ∀ text ∈ some partlyMeant, '/' ∉ text.toList := by
    rintro text ⟨⟩
    exact hslash
  have hmissing : ∀ text ∈ (none : Option String), '/' ∉ text.toList := nofun
  rcases (filtering_law .off hgiven).2 meant describes_partlyMeant hname with
    ⟨_, hadmits, hreplaced, _⟩
  rcases (filtering_law .off hmissing).2 [] rfl nofun with ⟨_, _, _, halone, _⟩
  have hhandler : Governs (Survives .off meant) "greeter::handlers"
      ⟨some "greeter::handler", .most⟩ :=
    governs_meant ⟨meant.take 2, meant.drop 3, rfl, by decide⟩ (by decide) (by decide +kernel)
  have hcomponent : Governs (Survives .off meant) "greeter::component"
      ⟨some "greeter", .upTo .error⟩ :=
    governs_meant ⟨meant.take 1, meant.drop 2, rfl, by decide⟩ (by decide) (by decide +kernel)
  have hothers : Governs (Survives .off meant) "greet" ⟨none, .upTo .info⟩ :=
    governs_meant ⟨meant.take 3, [], rfl, by decide⟩ (by decide) (by decide +kernel)
  have hnameless : ∃ d ∈ meant, d.name = none := ⟨⟨none, .upTo .info⟩, by decide, rfl⟩
  refine ⟨hslash, describes_partlyMeant, hname, (hadmits _ _ hhandler .trace).2 (by decide), ?_,
    (hadmits _ _ hothers .info).2 (by decide), hreplaced hnameless _, ?_⟩
  · rw [Bool.eq_false_iff, ne_eq, hadmits _ _ hcomponent]
    decide
  · rw [Bool.eq_false_iff, ne_eq, halone rfl]
    decide

end GreetingService.Log
