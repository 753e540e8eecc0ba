import OpenStrata.Core.Error
import OpenStrata.Lib.TreeMap
import Mathlib.Logic.Relation
import Std.Data.ExtTreeSet

/-!
# Resolution of extensions

The capabilities a profile requests are looked up in a catalog of extensions. A provider is
resolved with the feature its capability needs; a feature pulls in other extensions. `why`
explains the outcome: by the capabilities an extension provides, and by the enabled features that
require it. Resolution passes over a required extension the catalog does not have.

## Main definitions

* `Extension`, `ExtensionCatalog`: extensions and the catalog keyed by their ids
* `ExtensionCatalog.resolve`, `ExtensionCatalog.why`: the resolution and its explanation
* `Answers`: what the resolved extensions are, for a list of requests

## Main results

* `Answers.enable`: one request is answered by what it names and what that requires
* `Answers.unique`: the set of the requests determines the resolved extensions
-/

namespace OpenStrata

open Std TreeMap

/-! ## Extensions -/

/-- How an extension provides a capability. -/
structure Provide where
  /-- The feature to enable for it. -/
  feature : Option String
  deriving DecidableEq, Repr

/-- What a feature requires. -/
structure Feature where
  requiresPackages : List String
  requiresExtensions : List String
  deriving DecidableEq, Repr

/-- A version and feature combination that was built and validated. -/
structure Certified where
  version : String
  features : List String
  validation : Option String
  deriving DecidableEq, Repr

/-- An extension definition. -/
structure Extension where
  id : String
  version : String
  allowedRange : Option String
  provides : List (String × Provide)
  features : List (String × Feature)
  certified : List Certified
  deriving DecidableEq, Repr

/-- What a feature of the extension requires, when it is defined. -/
def Extension.feature (ext : Extension) (name : String) : Option Feature :=
  ext.features.lookup name

/-- All known extensions, under their ids. -/
structure ExtensionCatalog where
  extensions : ExtTreeMap String Extension
  keyed : ∀ (id : String) (ext : Extension), extensions[id]? = some ext → ext.id = id

namespace ExtensionCatalog

def empty : ExtensionCatalog where
  extensions := ∅
  keyed := by simp

/-- `insert` of the loader: an extension without an id is refused, a later one replaces one of
its id. -/
def insert (catalog : ExtensionCatalog) (item : Extension) (label : String) :
    Result ExtensionCatalog :=
  if item.id.isEmpty then .error (.invalidManifest ("'" ++ label ++ "' is missing an 'id'"))
  else .ok {
    extensions := catalog.extensions.insert item.id item
    keyed := by
      intro id ext hget
      rw [ExtTreeMap.getElem?_insert] at hget
      split at hget
      · next hid =>
        rw [← Option.some.inj hget]
        exact Std.compare_eq_iff_eq.mp hid
      · exact catalog.keyed id ext hget }

/-- Load labelled extensions in order. -/
def load (items : List (String × Extension)) : Result ExtensionCatalog :=
  items.foldlM (fun catalog (label, item) => catalog.insert item label) empty

def get (catalog : ExtensionCatalog) (id : String) : Option Extension := catalog.extensions[id]?

end ExtensionCatalog

/-! ## Resolution -/

/-- An edge from a capability to its provider; none when the base runtime provides it. -/
structure ProviderEdge where
  capability : String
  extension : Option String
  feature : Option String
  deriving DecidableEq, Repr

/-- An extension as resolved. -/
structure ResolvedExtension where
  id : String
  version : String
  features : ExtTreeSet String
  packages : ExtTreeSet String
  allowedRange : Option String
  /-- The certified build point that covers the enabled features. -/
  certified : Option Certified
  /-- There are certified build points and none covers the enabled features. -/
  uncertified : Bool

/-- The extensions resolved so far, under their ids. -/
abbrev Resolved := ExtTreeMap String ResolvedExtension

structure Resolution where
  edges : List ProviderEdge
  extensions : List ResolvedExtension
  runtimeProvided : List String

/-- An extension at its first mention. -/
def Extension.fresh (ext : Extension) : ResolvedExtension where
  id := ext.id
  version := ext.version
  features := ∅
  packages := ∅
  allowedRange := ext.allowedRange
  certified := none
  uncertified := false

/-- `ensure`: the extension is present. -/
def ensure (acc : Resolved) (ext : Extension) : Resolved := acc.insertIfNew ext.id ext.fresh

/-- The first certified point that covers the enabled features, and whether there are points and
none does. -/
def chooseCertified (ext : Extension) (enabled : ExtTreeSet String) : Option Certified × Bool :=
  if ext.certified.isEmpty then (none, false)
  else
    match ext.certified.find? fun c => enabled.toList.all fun f => f ∈ c.features with
    | some point => (some point, false)
    | none => (none, true)

namespace ExtensionCatalog

variable (catalog : ExtensionCatalog)

/-- The first extension by id that provides a capability, with the feature it needs. -/
def findProvider (capability : String) : Option (Extension × Option String) :=
  (values catalog.extensions).findSome? fun ext =>
    (ext.provides.lookup capability).map fun provide => (ext, provide.feature)

/-- Resolve the extensions a feature requires, as far as the catalog has them. -/
def pull (acc : Resolved) (requires : List String) : Resolved :=
  requires.foldl (fun acc dep =>
    match catalog.get dep with
    | some dep => ensure acc dep
    | none => acc) acc

/-- Make an extension present, enable a feature of it and pull in what the feature requires. -/
def enable (acc : Resolved) (ext : Extension) (feature : Option String) : Resolved :=
  let acc := ensure acc ext
  match feature with
  | none => acc
  | some feature =>
    -- an enabled feature has been dealt with
    if acc[ext.id]?.all fun re => re.features.contains feature then acc
    else
      let acc := acc.modify ext.id fun re => { re with features := re.features.insert feature }
      match ext.feature feature with
      | none => acc
      | some spec =>
        catalog.pull (acc.modify ext.id fun re =>
          { re with packages := re.packages.insertMany spec.requiresPackages })
          spec.requiresExtensions

/-- What has been resolved on the way. -/
structure Progress where
  acc : Resolved
  edges : List ProviderEdge
  runtimeProvided : List String

/-- Resolve one capability. -/
def resolveStep (progress : Progress) (capability : String) : Progress :=
  match catalog.findProvider capability with
  | some (ext, feature) => {
      progress with
      edges := progress.edges ++ [⟨capability, some ext.id, feature⟩]
      acc := catalog.enable progress.acc ext feature }
  | none => {
      progress with
      edges := progress.edges ++ [⟨capability, none, none⟩]
      runtimeProvided := progress.runtimeProvided ++ [capability] }

/-- Choose the certified build point of a resolved extension. -/
def certify (re : ResolvedExtension) : ResolvedExtension :=
  match catalog.get re.id with
  | none => re
  | some ext =>
    let (certified, uncertified) := chooseCertified ext re.features
    { re with certified, uncertified }

/-- Resolve the requested capabilities. -/
def resolve (capabilities : List String) : Resolution :=
  let progress := capabilities.foldl catalog.resolveStep ⟨∅, [], []⟩
  { edges := progress.edges
    extensions := values (progress.acc.map fun _ => catalog.certify)
    runtimeProvided := progress.runtimeProvided }

end ExtensionCatalog

/-- Why an extension ends up in a resolution. -/
inductive RequirementReason
  | direct (capability : String) (feature : Option String)
  | transitive (extension feature : String) (capability : Option String)
  deriving DecidableEq, Repr

/-- Explain why an extension is part of a resolution. -/
def ExtensionCatalog.why (catalog : ExtensionCatalog) (resolution : Resolution) (name : String) :
    List RequirementReason :=
  let direct := resolution.edges.filterMap fun edge =>
    if edge.extension = some name then some (.direct edge.capability edge.feature) else none
  let transitive := resolution.extensions.flatMap fun ext =>
    if ext.id = name then []
    else
      match catalog.get ext.id with
      | none => []
      | some src => ext.features.toList.filterMap fun feature =>
        match src.feature feature with
        | none => none
        | some spec =>
          if name ∈ spec.requiresExtensions then
            let capability := (resolution.edges.find? fun e =>
              e.extension = some ext.id ∧ e.feature = some feature).map (·.capability)
            some (.transitive ext.id feature capability)
          else none
  direct ++ transitive

/-! ## What resolution does

A request is an extension of the catalog with the feature to enable. The resolved extensions
depend on the requests as a set. -/

section Requests

variable {catalog : ExtensionCatalog} {requests : List (Extension × Option String)}
  {acc : Resolved} {ext : Extension}

theorem ExtensionCatalog.id_of_get {id : String} (h : catalog.get id = some ext) : ext.id = id :=
  catalog.keyed id ext h

/-- Some request names the extension. -/
def Provided (requests : List (Extension × Option String)) (id : String) : Prop :=
  ∃ ext feature, (ext, feature) ∈ requests ∧ ext.id = id

/-- A feature that is to be enabled requires the extension. -/
def Pulled (requests : List (Extension × Option String)) (id : String) : Prop :=
  ∃ ext feature spec, (ext, some feature) ∈ requests ∧ ext.feature feature = some spec ∧
    id ∈ spec.requiresExtensions

/-- The entry of an extension has the requested features and the packages they require. -/
structure IsEntry (requests : List (Extension × Option String)) (ext : Extension)
    (re : ResolvedExtension) : Prop where
  id : re.id = ext.id
  version : re.version = ext.version
  allowedRange : re.allowedRange = ext.allowedRange
  features : ∀ f, f ∈ re.features ↔ (ext, some f) ∈ requests
  packages : ∀ p, p ∈ re.packages ↔ ∃ f spec, (ext, some f) ∈ requests ∧
    ext.feature f = some spec ∧ p ∈ spec.requiresPackages
  certified : re.certified = none
  uncertified : re.uncertified = false

/-- The resolved extensions are those requested and those pulled in that the catalog has. -/
structure Answers (catalog : ExtensionCatalog) (requests : List (Extension × Option String))
    (acc : Resolved) : Prop where
  present : ∀ id, id ∈ acc ↔
    Provided requests id ∨ (Pulled requests id ∧ (catalog.get id).isSome)
  entry : ∀ id re, acc[id]? = some re → ∃ ext, catalog.get id = some ext ∧ IsEntry requests ext re

theorem IsEntry.congr {requests' : List (Extension × Option String)} {re : ResolvedExtension}
    (hsome : ∀ f, (ext, some f) ∈ requests ↔ (ext, some f) ∈ requests')
    (h : IsEntry requests ext re) : IsEntry requests' ext re where
  id := h.id
  version := h.version
  allowedRange := h.allowedRange
  features f := (h.features f).trans (hsome f)
  packages p := by
    rw [h.packages]
    simp only [hsome]
  certified := h.certified
  uncertified := h.uncertified

/-- Only the set of the requests matters. -/
theorem Answers.congr {requests' : List (Extension × Option String)}
    (hprovided : ∀ id, Provided requests id ↔ Provided requests' id)
    (hsome : ∀ ext f, (ext, some f) ∈ requests ↔ (ext, some f) ∈ requests')
    (h : Answers catalog requests acc) : Answers catalog requests' acc where
  present id := by
    rw [h.present, hprovided]
    simp only [Pulled, hsome]
  entry id re hget := by
    obtain ⟨ext, hext, hentry⟩ := h.entry id re hget
    exact ⟨ext, hext, hentry.congr (hsome ext)⟩

/-- The set of the requests determines the resolved extensions. -/
theorem Answers.unique {acc' : Resolved} (h : Answers catalog requests acc)
    (h' : Answers catalog requests acc') : acc = acc' := by
  ext1 id
  cases hget : acc[id]? with
  | none =>
    cases hget' : acc'[id]? with
    | none => rfl
    | some re =>
      have hmem : id ∈ acc' := by simp [ExtTreeMap.mem_iff_isSome_getElem?, hget']
      have hmem : id ∈ acc := (h.present id).mpr ((h'.present id).mp hmem)
      simp [ExtTreeMap.mem_iff_isSome_getElem?, hget] at hmem
  | some re =>
    have hmem : id ∈ acc := by simp [ExtTreeMap.mem_iff_isSome_getElem?, hget]
    have hmem : id ∈ acc' := (h'.present id).mpr ((h.present id).mp hmem)
    rw [ExtTreeMap.mem_iff_isSome_getElem?, Option.isSome_iff_exists] at hmem
    obtain ⟨re', hget'⟩ := hmem
    obtain ⟨ext, hext, hentry⟩ := h.entry id re hget
    obtain ⟨ext', hext', hentry'⟩ := h'.entry id re' hget'
    cases hext.symm.trans hext'
    rw [hget', Option.some_inj]
    have hfeatures : re.features = re'.features := by
      ext f
      rw [hentry.features, hentry'.features]
    have hpackages : re.packages = re'.packages := by
      ext p
      rw [hentry.packages, hentry'.packages]
    cases re
    cases re'
    simp only [ResolvedExtension.mk.injEq]
    exact ⟨hentry.id.trans hentry'.id.symm, hentry.version.trans hentry'.version.symm, hfeatures,
      hpackages, hentry.allowedRange.trans hentry'.allowedRange.symm,
      hentry.certified.trans hentry'.certified.symm,
      hentry.uncertified.trans hentry'.uncertified.symm⟩

theorem Answers.empty : Answers catalog [] ∅ where
  present id := by simp [Provided, Pulled]
  entry id re hget := by simp at hget

theorem getElem?_ensure (acc : Resolved) (ext : Extension) (id : String) :
    (ensure acc ext)[id]? = acc[id]?.or (if ext.id = id then some ext.fresh else none) := by
  rw [ensure, ExtTreeMap.getElem?_insertIfNew]
  by_cases hid : ext.id = id
  · subst hid
    cases hget : acc[ext.id]? with
    | none => simp [ExtTreeMap.mem_iff_isSome_getElem?, hget]
    | some re => simp [ExtTreeMap.mem_iff_isSome_getElem?, hget]
  · simp [hid]

theorem getElem?_pull (acc : Resolved) (requires : List String) (id : String) :
    (catalog.pull acc requires)[id]? =
      acc[id]?.or (if id ∈ requires then (catalog.get id).map Extension.fresh else none) := by
  induction requires generalizing acc with
  | nil => simp [ExtensionCatalog.pull]
  | cons dep rest ih =>
    rw [ExtensionCatalog.pull, List.foldl_cons, ← ExtensionCatalog.pull, ih]
    cases hdep : catalog.get dep with
    | none =>
      by_cases hid : id = dep
      · subst hid
        simp [hdep]
      · simp [hid]
    | some ext =>
      have hext := ExtensionCatalog.id_of_get hdep
      rw [getElem?_ensure, hext, Option.or_assoc]
      by_cases hid : dep = id
      · subst hid
        simp [hdep]
      · simp [hid, Ne.symm hid]

/-- What the entry of an extension becomes when a feature with these requirements is enabled. -/
def ResolvedExtension.withFeature (re : ResolvedExtension) (feature : String)
    (packages : List String) : ResolvedExtension :=
  { re with
    features := re.features.insert feature
    packages := re.packages.insertMany packages }

/-- A feature that is not enabled yet changes the entry of its extension and adds what the
feature requires. -/
theorem getElem?_enable {re : ResolvedExtension} {feature : String}
    (hre : (ensure acc ext)[ext.id]? = some re) (hnew : feature ∉ re.features) (id : String) :
    (catalog.enable acc ext (some feature))[id]? =
      (if ext.id = id then
        some (re.withFeature feature (((ext.feature feature).map (·.requiresPackages)).getD []))
      else (ensure acc ext)[id]?).or
        (if id ∈ ((ext.feature feature).map (·.requiresExtensions)).getD [] then
          (catalog.get id).map Extension.fresh else none) := by
  have hcontains : re.features.contains feature = false :=
    Bool.eq_false_iff.mpr fun h => hnew (ExtTreeSet.contains_iff_mem.mp h)
  simp only [ExtensionCatalog.enable, hre, Option.all_some, hcontains, Bool.false_eq_true, if_false]
  cases hfeature : ext.feature feature with
  | none =>
    simp only [Option.map_none, Option.getD_none, List.not_mem_nil, if_false, Option.or_none]
    rw [ExtTreeMap.getElem?_modify]
    by_cases hid : ext.id = id
    · subst hid
      simp [hre, ResolvedExtension.withFeature]
    · simp [hid]
  | some spec =>
    simp only [Option.map_some, Option.getD_some, getElem?_pull]
    congr 1
    rw [ExtTreeMap.getElem?_modify, ExtTreeMap.getElem?_modify]
    by_cases hid : ext.id = id
    · subst hid
      simp [hre, ResolvedExtension.withFeature]
    · simp [hid, ExtTreeMap.getElem?_modify]

/-! ## One request -/

theorem mem_iff_exists {id : String} : id ∈ acc ↔ ∃ re, acc[id]? = some re := by
  rw [ExtTreeMap.mem_iff_isSome_getElem?, Option.isSome_iff_exists]

theorem provided_append {id : String} {feature : Option String} :
    Provided (requests ++ [(ext, feature)]) id ↔ Provided requests id ∨ ext.id = id := by
  constructor
  · rintro ⟨ext', f, hmem, hid⟩
    rcases List.mem_append.mp hmem with hmem | hmem
    · exact .inl ⟨ext', f, hmem, hid⟩
    · cases List.mem_singleton.mp hmem
      exact .inr hid
  · rintro (⟨ext', f, hmem, hid⟩ | hid)
    · exact ⟨ext', f, List.mem_append_left _ hmem, hid⟩
    · exact ⟨ext, feature, by simp, hid⟩

/-- An extension at its first mention has nothing enabled. -/
theorem isEntry_fresh (h : ∀ f, (ext, some f) ∉ requests) : IsEntry requests ext ext.fresh where
  id := rfl
  version := rfl
  allowedRange := rfl
  features f := by simp [Extension.fresh, h]
  packages p := by simp [Extension.fresh, h]
  certified := rfl
  uncertified := rfl

/-- What has no entry was not requested. -/
theorem Answers.not_requested (h : Answers catalog requests acc) (hget : acc[ext.id]? = none)
    (feature : Option String) : (ext, feature) ∉ requests := by
  intro hmem
  obtain ⟨re, hre⟩ := mem_iff_exists.mp ((h.present ext.id).mpr (.inl ⟨ext, feature, hmem, rfl⟩))
  rw [hget] at hre
  cases hre

/-- A capability without a feature makes its provider present. -/
theorem Answers.ensure (h : Answers catalog requests acc)
    (hext : catalog.get ext.id = some ext) :
    Answers catalog (requests ++ [(ext, none)]) (ensure acc ext) := by
  have hsome : ∀ ext' f, (ext', some f) ∈ requests ++ [(ext, none)] ↔ (ext', some f) ∈ requests := by
    simp
  constructor
  · intro id
    have hmem : id ∈ OpenStrata.ensure acc ext ↔ id ∈ acc ∨ ext.id = id := by
      simp only [mem_iff_exists, getElem?_ensure]
      by_cases hid : ext.id = id
      · simp [hid]
      · simp [hid]
    have hpulled : Pulled (requests ++ [(ext, none)]) id ↔ Pulled requests id := by
      simp only [Pulled, hsome]
    rw [hmem, h.present, provided_append, hpulled]
    exact or_right_comm
  · intro id re hget
    rw [getElem?_ensure, Option.or_eq_some_iff] at hget
    rcases hget with hget | ⟨hnone, hget⟩
    · obtain ⟨ext', hext', hentry⟩ := h.entry id re hget
      exact ⟨ext', hext', hentry.congr fun f => (hsome ext' f).symm⟩
    · split_ifs at hget with hid
      subst hid
      refine ⟨ext, hext, ?_⟩
      rw [← Option.some.inj hget]
      exact isEntry_fresh fun f hf => h.not_requested hnone (some f) ((hsome ext f).mp hf)

/-- A feature that is enabled for the first time is requested, and so is what it requires. -/
theorem Answers.enableNew {feature : String} {re : ResolvedExtension}
    (h : Answers catalog requests (OpenStrata.ensure acc ext))
    (hext : catalog.get ext.id = some ext)
    (hre : (OpenStrata.ensure acc ext)[ext.id]? = some re) (hnew : feature ∉ re.features) :
    Answers catalog (requests ++ [(ext, some feature)])
      (catalog.enable acc ext (some feature)) := by
  have hget (id : String) : (catalog.enable acc ext (some feature))[id]? = _ :=
    getElem?_enable hre hnew id
  have hpresent : ext.id ∈ OpenStrata.ensure acc ext := mem_iff_exists.mpr ⟨re, hre⟩
  have hrequires (id : String) :
      id ∈ ((ext.feature feature).map (·.requiresExtensions)).getD [] ↔
        ∃ spec, ext.feature feature = some spec ∧ id ∈ spec.requiresExtensions := by
    cases ext.feature feature <;> simp
  have hpackages (p : String) :
      p ∈ ((ext.feature feature).map (·.requiresPackages)).getD [] ↔
        ∃ spec, ext.feature feature = some spec ∧ p ∈ spec.requiresPackages := by
    cases ext.feature feature <;> simp
  have hsome (ext' : Extension) (f : String) :
      (ext', some f) ∈ requests ++ [(ext, some feature)] ↔
        (ext', some f) ∈ requests ∨ ext' = ext ∧ f = feature := by simp
  have hpulled (id : String) : Pulled (requests ++ [(ext, some feature)]) id ↔
      Pulled requests id ∨ ∃ spec, ext.feature feature = some spec ∧
        id ∈ spec.requiresExtensions := by
    simp only [Pulled, hsome]
    constructor
    · rintro ⟨ext', f, spec, hmem | ⟨rfl, rfl⟩, hspec⟩
      · exact .inl ⟨ext', f, spec, hmem, hspec⟩
      · exact .inr ⟨spec, hspec⟩
    · rintro (⟨ext', f, spec, hmem, hspec⟩ | ⟨spec, hspec⟩)
      · exact ⟨ext', f, spec, .inl hmem, hspec⟩
      · exact ⟨ext, feature, spec, .inr ⟨rfl, rfl⟩, hspec⟩
  constructor
  · intro id
    have hmem : id ∈ catalog.enable acc ext (some feature) ↔
        id ∈ OpenStrata.ensure acc ext ∨ (∃ spec, ext.feature feature = some spec ∧
          id ∈ spec.requiresExtensions) ∧ (catalog.get id).isSome := by
      rw [ExtTreeMap.mem_iff_isSome_getElem?, hget, Option.isSome_or, Bool.or_eq_true, ← hrequires]
      refine or_congr ?_ ?_
      · by_cases hid : ext.id = id
        · subst hid
          simp [hpresent]
        · rw [if_neg hid, ExtTreeMap.mem_iff_isSome_getElem?]
      · split_ifs with hin
        · simp [hin]
        · simp [hin]
    -- the extension itself is present already
    have hself : ext.id = id →
        Provided requests id ∨ Pulled requests id ∧ (catalog.get id).isSome = true := by
      rintro rfl
      exact (h.present _).mp hpresent
    rw [hmem, h.present, provided_append, hpulled]
    tauto
  · intro id re' hre'
    rw [hget, Option.or_eq_some_iff] at hre'
    rcases hre' with hre' | ⟨hnone, hfresh⟩
    · split_ifs at hre' with hid
      · subst hid
        obtain ⟨ext', hext', hentry⟩ := h.entry _ re hre
        cases hext.symm.trans hext'
        refine ⟨ext, hext, ?_⟩
        rw [← Option.some.inj hre']
        exact {
          id := hentry.id
          version := hentry.version
          allowedRange := hentry.allowedRange
          features := fun f => by
            rw [hsome, ← hentry.features]
            simp only [ResolvedExtension.withFeature, ExtTreeSet.mem_insert,
              Std.compare_eq_iff_eq, true_and]
            rw [or_comm, eq_comm]
          packages := fun p => by
            simp only [ResolvedExtension.withFeature, ExtTreeSet.mem_insertMany_list,
              List.contains_iff_mem, hpackages, hentry.packages, hsome]
            constructor
            · rintro (⟨f, spec, hf, hspec⟩ | ⟨spec, hspec⟩)
              · exact ⟨f, spec, .inl hf, hspec⟩
              · exact ⟨feature, spec, .inr ⟨trivial, rfl⟩, hspec⟩
            · rintro ⟨f, spec, hf | ⟨-, rfl⟩, hspec⟩
              · exact .inl ⟨f, spec, hf, hspec⟩
              · exact .inr ⟨spec, hspec⟩
          certified := hentry.certified
          uncertified := hentry.uncertified }
      · obtain ⟨ext', hext', hentry⟩ := h.entry id re' hre'
        have hne : ext' ≠ ext := by
          rintro rfl
          exact hid (ExtensionCatalog.id_of_get hext')
        exact ⟨ext', hext', hentry.congr fun f => by simp [hsome, hne]⟩
    · -- pulled in for the first time, so no request names it
      split_ifs at hnone hfresh with hid hin
      obtain ⟨ext', hext', rfl⟩ := Option.map_eq_some_iff.mp hfresh
      have hid' := ExtensionCatalog.id_of_get hext'
      have hne : ext' ≠ ext := by
        rintro rfl
        exact hid hid'
      refine ⟨ext', hext', isEntry_fresh fun f hf => ?_⟩
      rw [hsome] at hf
      subst hid'
      exact hf.elim (h.not_requested hnone (some f)) fun hf => hne hf.1

/-- One request is answered by what it names and what that requires. -/
theorem Answers.enable (h : Answers catalog requests acc)
    (hext : catalog.get ext.id = some ext) (feature : Option String) :
    Answers catalog (requests ++ [(ext, feature)]) (catalog.enable acc ext feature) := by
  have hensure := h.ensure hext
  cases feature with
  | none => exact hensure
  | some feature =>
    have hpresent : ext.id ∈ OpenStrata.ensure acc ext :=
      (hensure.present ext.id).mpr (.inl ⟨ext, none, by simp, rfl⟩)
    obtain ⟨re, hre⟩ := mem_iff_exists.mp hpresent
    by_cases hold : feature ∈ re.features
    · -- nothing changes, and the request was made before
      have hcontains := ExtTreeSet.contains_iff_mem.mpr hold
      obtain ⟨ext', hext', hentry⟩ := hensure.entry _ re hre
      cases hext.symm.trans hext'
      have hrequested : (ext, some feature) ∈ requests := by
        simpa using (hentry.features feature).mp hold
      have henable : catalog.enable acc ext (some feature) = OpenStrata.ensure acc ext := by
        simp [ExtensionCatalog.enable, hre, hcontains]
      rw [henable]
      refine hensure.congr (fun id => ?_) fun ext' f => ?_
      · rw [provided_append, provided_append]
      · simp only [List.mem_append, List.mem_singleton, Prod.mk.injEq, reduceCtorEq, and_false,
          or_false, Option.some_inj]
        constructor
        · exact .inl
        · rintro (hmem | ⟨rfl, rfl⟩)
          · exact hmem
          · exact hrequested
    · refine (hensure.enableNew hext hre hold).congr (fun id => ?_) fun ext' f => ?_
      · simp only [provided_append]
        tauto
      · simp

end Requests

end OpenStrata
