import OpenStrata.Extension.Resolve

/-!
# Resolution and its explanation

What a resolution resolves, and what the explanation gives reasons for: a provider of a requested
capability in either case, and a required extension in either case when the catalog has it. A
required extension the catalog lacks is left out without a word and explained nevertheless.

## Main definitions

* `ResolutionSound`: resolution and explanation agree, the resolution is closed, does not depend on
  the order of the capabilities, and its certified points cover what is enabled

## Main results

* `describes_resolve`: the resolution answers the requests of all its capabilities
* `resolutionSound_iff`: sound when the catalog has what the enabled features require
* `resolution_unsound`: an extension that is explained and not resolved
-/

namespace OpenStrata

open Std TreeMap

namespace ExtensionCatalog

variable (catalog : ExtensionCatalog) (capabilities : List String)

/-- The requests of the capabilities that some extension provides. -/
def requests : List (Extension × Option String) := capabilities.filterMap catalog.findProvider

/-- The edge of a capability. -/
def edge (capability : String) : ProviderEdge :=
  match catalog.findProvider capability with
  | some (ext, feature) => ⟨capability, some ext.id, feature⟩
  | none => ⟨capability, none, none⟩

/-- The resolved extensions, before their certified points are chosen. -/
def resolved : Resolved := (capabilities.foldl catalog.resolveStep ⟨∅, [], []⟩).acc

variable {catalog capabilities} {name capability : String} {ext : Extension}

theorem get_of_findProvider {feature : Option String}
    (h : catalog.findProvider capability = some (ext, feature)) :
    catalog.get ext.id = some ext := by
  obtain ⟨ext', hmem, hprovide⟩ := List.exists_of_findSome?_eq_some h
  obtain ⟨provide, -, heq⟩ := Option.map_eq_some_iff.mp hprovide
  cases heq
  obtain ⟨id, hget⟩ := mem_values.mp hmem
  rw [catalog.keyed id ext hget]
  exact hget

/-- After each capability the requests so far are answered and every edge is recorded. -/
theorem describes_foldl (capabilities : List String) :
    Answers catalog (catalog.requests capabilities) (catalog.resolved capabilities) ∧
      (capabilities.foldl catalog.resolveStep ⟨∅, [], []⟩).edges =
        capabilities.map catalog.edge := by
  induction capabilities using List.reverseRecOn with
  | nil => exact ⟨Answers.empty, rfl⟩
  | append_singleton before capability ih =>
    obtain ⟨hdescribes, hedges⟩ := ih
    unfold resolved requests at *
    rw [List.foldl_append, List.foldl_cons, List.foldl_nil, List.filterMap_append, List.map_append]
    cases hprovider : catalog.findProvider capability with
    | none =>
      simp only [resolveStep, hprovider, List.filterMap_cons, List.filterMap_nil, List.append_nil,
        hedges, List.map_cons, List.map_nil, edge, and_true]
      exact hdescribes
    | some provider =>
      obtain ⟨ext, feature⟩ := provider
      simp only [resolveStep, hprovider, List.filterMap_cons, List.filterMap_nil, hedges,
        List.map_cons, List.map_nil, edge, and_true]
      exact hdescribes.enable (get_of_findProvider hprovider) feature

theorem describes_resolve (capabilities : List String) :
    Answers catalog (catalog.requests capabilities) (catalog.resolved capabilities) :=
  (describes_foldl capabilities).1

theorem edges_resolve (capabilities : List String) :
    (catalog.resolve capabilities).edges = capabilities.map catalog.edge :=
  (describes_foldl capabilities).2

/-! ## The certified point -/

theorem certify_id (re : ResolvedExtension) : (catalog.certify re).id = re.id := by
  unfold certify
  split <;> rfl

theorem certify_features (re : ResolvedExtension) :
    (catalog.certify re).features = re.features := by
  unfold certify
  split <;> rfl

/-- A chosen point covers the enabled features. -/
theorem chooseCertified_covers {enabled : ExtTreeSet String} {point : Certified}
    (h : (chooseCertified ext enabled).1 = some point) : ∀ f ∈ enabled, f ∈ point.features := by
  unfold chooseCertified at h
  split_ifs at h
  split at h
  · next found hfind =>
    cases h
    have hall := List.find?_some hfind
    intro f hf
    simpa using List.all_eq_true.mp hall f (ExtTreeSet.mem_toList.mpr hf)
  · cases h

theorem covers_of_certify {re : ResolvedExtension} {point : Certified}
    (hre : re.certified = none) (h : (catalog.certify re).certified = some point) :
    ∀ f ∈ re.features, f ∈ point.features := by
  unfold certify at h
  split at h
  · rw [hre] at h
    cases h
  · exact chooseCertified_covers h

/-! ## What is resolved -/

theorem mem_extensions {e : ResolvedExtension} :
    e ∈ (catalog.resolve capabilities).extensions ↔
      ∃ (id : String) (re : ResolvedExtension),
        (catalog.resolved capabilities)[id]? = some re ∧ catalog.certify re = e := by
  simp only [resolve, mem_values, ExtTreeMap.getElem?_map, Option.map_eq_some_iff]
  rfl

/-- A resolved extension is one of the catalog, with the features that were requested of it. -/
theorem entry_of_mem {e : ResolvedExtension}
    (h : e ∈ (catalog.resolve capabilities).extensions) :
    ∃ ext, catalog.get e.id = some ext ∧
      ∀ f, f ∈ e.features ↔ (ext, some f) ∈ catalog.requests capabilities := by
  obtain ⟨id, re, hget, rfl⟩ := mem_extensions.mp h
  obtain ⟨ext, hext, hentry⟩ := (describes_resolve capabilities).entry id re hget
  have hid : re.id = id := hentry.id.trans (id_of_get hext)
  rw [certify_id, certify_features, hid]
  exact ⟨ext, hext, hentry.features⟩

end ExtensionCatalog

/-- The resolution contains the extension. -/
def Resolution.Resolves (resolution : Resolution) (name : String) : Prop :=
  ∃ e ∈ resolution.extensions, e.id = name

open ExtensionCatalog

variable {catalog : ExtensionCatalog} {capabilities : List String} {name : String}

/-- Resolved are the providers, and what the enabled features require as far as the catalog has
it. -/
theorem resolves_iff : (catalog.resolve capabilities).Resolves name ↔
    Provided (catalog.requests capabilities) name ∨
      (Pulled (catalog.requests capabilities) name ∧ (catalog.get name).isSome) := by
  have hdescribes : Answers catalog (catalog.requests capabilities)
      (catalog.resolved capabilities) := describes_resolve capabilities
  rw [← hdescribes.present, mem_iff_exists]
  constructor
  · rintro ⟨e, he, rfl⟩
    obtain ⟨id, re, hget, rfl⟩ := mem_extensions.mp he
    obtain ⟨ext, hext, hentry⟩ := hdescribes.entry id re hget
    rw [certify_id, hentry.id, id_of_get hext]
    exact ⟨re, hget⟩
  · rintro ⟨re, hget⟩
    obtain ⟨ext, hext, hentry⟩ := hdescribes.entry name re hget
    refine ⟨catalog.certify re, mem_extensions.mpr ⟨name, re, hget, rfl⟩, ?_⟩
    rw [certify_id, hentry.id, id_of_get hext]

/-! ## What is explained -/

/-- A direct reason is a provided capability. -/
theorem provided_iff_edge : Provided (catalog.requests capabilities) name ↔
    ∃ edge ∈ (catalog.resolve capabilities).edges, edge.extension = some name := by
  rw [edges_resolve]
  simp only [Provided, requests, List.mem_filterMap, List.mem_map]
  constructor
  · rintro ⟨ext, feature, ⟨capability, hmem, hprovider⟩, rfl⟩
    refine ⟨_, ⟨capability, hmem, rfl⟩, ?_⟩
    rw [edge, hprovider]
  · rintro ⟨_, ⟨capability, hmem, rfl⟩, hedge⟩
    unfold edge at hedge
    split at hedge
    · next ext feature hprovider =>
      exact ⟨ext, feature, ⟨capability, hmem, hprovider⟩, Option.some.inj hedge⟩
    · cases hedge

/-- An enabled feature of a resolved extension requires the other one. -/
def DependsOn (catalog : ExtensionCatalog) (resolution : Resolution) (source name : String) : Prop :=
  ∃ e ∈ resolution.extensions, e.id = source ∧ ∃ ext, catalog.get source = some ext ∧
    ∃ f ∈ e.features, ∃ spec, ext.feature f = some spec ∧ name ∈ spec.requiresExtensions

theorem pulled_of_requires {source : String}
    (h : DependsOn catalog (catalog.resolve capabilities) source name) :
    Pulled (catalog.requests capabilities) name := by
  obtain ⟨e, he, rfl, ext, hext, f, hf, spec, hspec, hname⟩ := h
  obtain ⟨ext', hext', hfeatures⟩ := entry_of_mem he
  cases hext.symm.trans hext'
  exact ⟨ext, f, spec, (hfeatures f).mp hf, hspec, hname⟩

/-- Explained are the providers and what the enabled features require. -/
theorem explained_iff : catalog.why (catalog.resolve capabilities) name ≠ [] ↔
    Provided (catalog.requests capabilities) name ∨
      Pulled (catalog.requests capabilities) name := by
  have hmem : catalog.why (catalog.resolve capabilities) name ≠ [] ↔
      (∃ edge ∈ (catalog.resolve capabilities).edges, edge.extension = some name) ∨
        ∃ e ∈ (catalog.resolve capabilities).extensions, e.id ≠ name ∧ ∃ ext,
          catalog.get e.id = some ext ∧ ∃ f ∈ e.features, ∃ spec, ext.feature f = some spec ∧
            name ∈ spec.requiresExtensions := by
    rw [ne_eq, List.eq_nil_iff_forall_not_mem, not_forall_not]
    simp only [why, List.mem_append, exists_or, List.mem_filterMap, List.mem_flatMap]
    refine or_congr ⟨?_, ?_⟩ ⟨?_, ?_⟩
    · rintro ⟨reason, edge, hedge, hreason⟩
      split_ifs at hreason with hname
      exact ⟨edge, hedge, hname⟩
    · rintro ⟨edge, hedge, hname⟩
      exact ⟨_, edge, hedge, if_pos hname⟩
    · rintro ⟨reason, e, he, hreason⟩
      split_ifs at hreason with hid
      · cases hreason
      · split at hreason
        · cases hreason
        · next ext hext =>
          obtain ⟨f, hf, hreason⟩ := List.mem_filterMap.mp hreason
          split at hreason
          · cases hreason
          · next spec hspec =>
            split_ifs at hreason with hname
            exact ⟨e, he, hid, ext, hext, f, ExtTreeSet.mem_toList.mp hf, spec, hspec, hname⟩
    · rintro ⟨e, he, hid, ext, hext, f, hf, spec, hspec, hname⟩
      refine ⟨.transitive e.id f (((catalog.resolve capabilities).edges.find? fun edge =>
        edge.extension = some e.id ∧ edge.feature = some f).map (·.capability)), e, he, ?_⟩
      rw [if_neg hid, hext]
      refine List.mem_filterMap.mpr ⟨f, ExtTreeSet.mem_toList.mpr hf, ?_⟩
      rw [hspec]
      exact if_pos hname
  rw [hmem, ← provided_iff_edge]
  constructor
  · rintro (hprovided | ⟨e, he, -, ext, hext, f, hf, spec, hspec, hname⟩)
    · exact .inl hprovided
    · exact .inr (pulled_of_requires ⟨e, he, rfl, ext, hext, f, hf, spec, hspec, hname⟩)
  · rintro (hprovided | ⟨ext, f, spec, hrequest, hspec, hname⟩)
    · exact .inl hprovided
    · -- the extension whose feature requires it is resolved with that feature
      obtain ⟨e, he, hid⟩ := resolves_iff.mpr (.inl ⟨ext, some f, hrequest, rfl⟩)
      obtain ⟨capability, -, hprovider⟩ := List.mem_filterMap.mp hrequest
      have hext := get_of_findProvider hprovider
      by_cases hself : ext.id = name
      · exact .inl ⟨ext, some f, hrequest, hself⟩
      · obtain ⟨ext', hext', hfeatures⟩ := entry_of_mem he
        rw [hid, hext] at hext'
        cases hext'
        refine .inr ⟨e, he, hid ▸ hself, ext, hid ▸ hext, f, (hfeatures f).mpr hrequest, spec,
          hspec, hname⟩

/-! ## Agreement -/

/-- Resolution and explanation agree, and the resolution is what it is meant to be. -/
structure ResolutionSound (catalog : ExtensionCatalog) (capabilities : List String) : Prop where
  /-- The explanation has a reason for what is resolved, and for nothing else. -/
  explained : ∀ name, (catalog.resolve capabilities).Resolves name ↔
    catalog.why (catalog.resolve capabilities) name ≠ []
  /-- What resolved extensions require, at any distance, is resolved. -/
  closed : ∀ source name, (catalog.resolve capabilities).Resolves source →
    Relation.ReflTransGen (DependsOn catalog (catalog.resolve capabilities)) source name →
    (catalog.resolve capabilities).Resolves name
  /-- The order of the capabilities does not matter. -/
  unordered : ∀ capabilities', capabilities'.Perm capabilities →
    (catalog.resolve capabilities').extensions = (catalog.resolve capabilities).extensions
  /-- A chosen certified point covers the enabled features. -/
  covered : ∀ e ∈ (catalog.resolve capabilities).extensions, ∀ point, e.certified = some point →
    ∀ f ∈ e.features, f ∈ point.features

theorem resolve_perm {capabilities' : List String} (h : capabilities'.Perm capabilities) :
    (catalog.resolve capabilities').extensions = (catalog.resolve capabilities).extensions := by
  have hmem (r : Extension × Option String) :
      r ∈ catalog.requests capabilities' ↔ r ∈ catalog.requests capabilities :=
    (h.filterMap _).mem_iff
  have hdescribes : Answers catalog (catalog.requests capabilities)
      (catalog.resolved capabilities') := by
    refine (describes_resolve capabilities').congr (fun id => ?_) fun ext f => hmem (ext, some f)
    simp only [Provided, hmem]
  have heq := hdescribes.unique (describes_resolve capabilities)
  unfold resolved at heq
  simp only [resolve, heq]

/-- Resolution is sound exactly when the catalog has every extension that a feature requires which
a requested capability enables. -/
theorem resolutionSound_iff (catalog : ExtensionCatalog) (capabilities : List String) :
    ResolutionSound catalog capabilities ↔
      ∀ capability ∈ capabilities, ∀ ext feature spec,
        catalog.findProvider capability = some (ext, some feature) →
        ext.feature feature = some spec →
        ∀ name ∈ spec.requiresExtensions, (catalog.get name).isSome := by
  have hpulled : (∀ capability ∈ capabilities, ∀ ext feature spec,
      catalog.findProvider capability = some (ext, some feature) →
      ext.feature feature = some spec →
      ∀ name ∈ spec.requiresExtensions, (catalog.get name).isSome) ↔
      ∀ name, Pulled (catalog.requests capabilities) name → (catalog.get name).isSome := by
    simp only [Pulled, requests, List.mem_filterMap]
    constructor
    · rintro h name ⟨ext, feature, spec, ⟨capability, hmem, hprovider⟩, hspec, hname⟩
      exact h capability hmem ext feature spec hprovider hspec name hname
    · intro h capability hmem ext feature spec hprovider hspec name hname
      exact h name ⟨ext, feature, spec, ⟨capability, hmem, hprovider⟩, hspec, hname⟩
  rw [hpulled]
  constructor
  · intro hsound name hname
    have hresolved := (hsound.explained name).mpr (explained_iff.mpr (.inr hname))
    rcases resolves_iff.mp hresolved with ⟨ext, feature, hmem, rfl⟩ | ⟨-, hsome⟩
    · obtain ⟨capability, -, hprovider⟩ := List.mem_filterMap.mp hmem
      rw [get_of_findProvider hprovider, Option.isSome_some]
    · exact hsome
  · intro hcatalogued
    constructor
    · intro name
      rw [resolves_iff, explained_iff]
      exact or_congr_right ⟨And.left, fun h => ⟨h, hcatalogued name h⟩⟩
    · intro source name hsource hrequires
      induction hrequires with
      | refl => exact hsource
      | tail _ hstep _ =>
        have hname := pulled_of_requires hstep
        exact resolves_iff.mpr (.inr ⟨hname, hcatalogued _ hname⟩)
    · exact fun capabilities' hperm => resolve_perm hperm
    · intro e he point hpoint f hf
      obtain ⟨id, re, hget, rfl⟩ := mem_extensions.mp he
      obtain ⟨ext, -, hentry⟩ := (describes_resolve capabilities).entry id re hget
      rw [certify_features] at hf
      exact covers_of_certify hentry.certified hpoint f hf

/-- A renderer whose shading feature requires an extension that is not installed. -/
def renderer : Extension where
  id := "renderer"
  version := "1.0.0"
  allowedRange := none
  provides := [("shading", ⟨some "shading"⟩)]
  features := [("shading", ⟨[], ["shader-library"]⟩)]
  certified := []

def rendererCatalog : ExtensionCatalog where
  extensions := (∅ : ExtTreeMap String Extension).insert "renderer" renderer
  keyed id ext hget := by
    rw [ExtTreeMap.getElem?_insert] at hget
    split at hget
    · next hid =>
      rw [← Option.some.inj hget]
      exact Std.compare_eq_iff_eq.mp hid
    · simp at hget

/-- The shader library is explained by the renderer's feature, and not resolved. -/
theorem resolution_unsound :
    ExtensionCatalog.load [("renderer.yaml", renderer)] = .ok rendererCatalog ∧
      ¬ ResolutionSound rendererCatalog ["shading"] := by
  have hprovider : rendererCatalog.findProvider "shading" = some (renderer, some "shading") := by
    decide
  have hmissing : rendererCatalog.get "shader-library" = none := by decide
  refine ⟨rfl, fun hsound => ?_⟩
  have hpulled : Pulled (rendererCatalog.requests ["shading"]) "shader-library" :=
    ⟨renderer, "shading", ⟨[], ["shader-library"]⟩,
      List.mem_filterMap.mpr ⟨"shading", by simp, hprovider⟩, rfl, by simp⟩
  have hresolved := (hsound.explained "shader-library").mpr (explained_iff.mpr (.inr hpulled))
  rcases resolves_iff.mp hresolved with ⟨ext, feature, hmem, hid⟩ | ⟨-, hsome⟩
  · obtain ⟨capability, -, hprovided⟩ := List.mem_filterMap.mp hmem
    have hext := get_of_findProvider hprovided
    rw [hid, hmissing] at hext
    cases hext
  · rw [hmissing] at hsome
    cases hsome

end OpenStrata
