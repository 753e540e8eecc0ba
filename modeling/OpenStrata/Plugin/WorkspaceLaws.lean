import OpenStrata.Plugin.WorkspaceGraph

/-!
# The laws of a workspace that passes

A workspace that passes its validation has every id once, so that the edges of the report are
the dependencies its members declare on each other. Both graphs are then acyclic, and each
build order lists what its root needs.

## Main definitions

* `Report.Clean`: what a step of the validation adds unless it reports an issue
* `BundleDependsOn`, `LibraryDependsOn`, `RequiresLibrary`: the declared dependencies
* `WorkspaceLaws`: what holds of a workspace that passes

## Main results

* `validateWorkspaceWithMembers_laws`: a workspace that passes satisfies the laws
-/

namespace OpenStrata.Plugin

open Std (ExtTreeMap)
open Relation (ReflTransGen TransGen)
open DepthFirst (Acyclic Walk enter)
open SortBy (sortBy)

/-! ## Steps that report no issue -/

/-- The kind and id of a member, the id of a library it depends on and the scope. -/
abbrev LibraryLink := String × String × String × String

def libraryLinks (edges : List WorkspaceLibraryEdge) : List LibraryLink :=
  (edges.filter fun edge => !edge.external).map fun edge =>
    (edge.fromKind, edge.fromId, edge.toId, edge.scope)

theorem flatMap_nil_fun {δ γ : Type} (l : List δ) : (l.flatMap fun _ => ([] : List γ)) = [] :=
  List.flatMap_eq_nil_iff.mpr fun _ _ => rfl

/-- Unless issues are reported, none were before, and just these internal edges are new. -/
structure Report.Clean (edges : List (String × String)) (links : List LibraryLink)
    (report report' : Report) : Prop where
  issues : report'.issues = [] → report.issues = []
  edges : report'.issues = [] →
    internalEdges report'.edges = internalEdges report.edges ++ edges
  links : report'.issues = [] →
    libraryLinks report'.libraryEdges = libraryLinks report.libraryEdges ++ links

namespace Report.Clean

variable {report report₁ report₂ : Report} {edges edges' : List (String × String)}
  {links links' : List LibraryLink}

theorem refl (report : Report) : Report.Clean [] [] report report :=
  ⟨fun h => h, fun _ => by simp, fun _ => by simp⟩

theorem trans (h : Report.Clean edges links report report₁)
    (h' : Report.Clean edges' links' report₁ report₂) :
    Report.Clean (edges ++ edges') (links ++ links') report report₂ where
  issues := fun hnone => h.issues (h'.issues hnone)
  edges := fun hnone => by
    rw [h'.edges hnone, h.edges (h'.issues hnone), List.append_assoc]
  links := fun hnone => by
    rw [h'.links hnone, h.links (h'.issues hnone), List.append_assoc]

/-- Whoever reports an issue may add what it likes. -/
theorem raise (code bundle : String) (dependency : Option String) (message : String) :
    Report.Clean edges links report (report₁.raise code bundle dependency message) := by
  have hne : (report₁.raise code bundle dependency message).issues ≠ [] := by
    simp [Report.raise]
  exact ⟨fun h => (hne h).elim, fun h => (hne h).elim, fun h => (hne h).elim⟩

/-- Steps for the entries of a list, one after the other. -/
theorem foldl {ε : Type} {step : Report → ε → Report} {newEdges : ε → List (String × String)}
    {newLinks : ε → List LibraryLink}
    (hstep : ∀ report entry,
      Report.Clean (newEdges entry) (newLinks entry) report (step report entry))
    (entries : List ε) (report : Report) :
    Report.Clean (entries.flatMap newEdges) (entries.flatMap newLinks) report
      (entries.foldl step report) := by
  induction entries generalizing report with
  | nil => exact refl report
  | cons entry entries ih =>
    rw [List.flatMap_cons, List.flatMap_cons]
    exact (hstep report entry).trans (ih (step report entry))

/-- The loop that drops repeated ids: a repetition is reported. -/
theorem eachOnce {δ : Type} {id : δ → String} {duplicate check : Report → δ → Report}
    {newEdges : δ → List (String × String)} {newLinks : δ → List LibraryLink}
    (hduplicate : ∀ report dependency,
      Report.Clean (newEdges dependency) (newLinks dependency) report (duplicate report dependency))
    (hcheck : ∀ report dependency,
      Report.Clean (newEdges dependency) (newLinks dependency) report (check report dependency))
    (dependencies : List δ) (seen : List String) (report : Report) :
    Report.Clean (dependencies.flatMap newEdges) (dependencies.flatMap newLinks) report
      (eachOnce id duplicate check seen report dependencies) := by
  induction dependencies generalizing seen report with
  | nil => exact refl report
  | cons dependency dependencies ih =>
    rw [List.flatMap_cons, List.flatMap_cons, Plugin.eachOnce]
    split_ifs
    · exact (hduplicate report dependency).trans (ih seen _)
    · exact (hcheck report dependency).trans (ih _ _)

end Report.Clean

section Dependencies

variable {report : Report} {unique : ExtTreeMap String Bundle}
  {providers : ExtTreeMap String Library} {id consumerId consumerKind : String}

theorem clean_validateBundleVersion (id : String) (dependency : BundleDependency)
    (provider : Bundle) (report : Report) :
    Report.Clean [] [] report (validateBundleVersion id dependency provider report) := by
  unfold validateBundleVersion
  split_ifs
  · exact .raise ..
  · split
    · exact .refl report
    · exact .raise ..
    · exact .raise ..

theorem clean_validateContract (consumerId : String) (dependency : BundleDependency)
    (provider : Bundle) (report : Report) :
    Report.Clean [] [] report (validateContract consumerId dependency provider report) := by
  unfold validateContract
  split_ifs
  · exact .raise ..
  · split
    · exact .raise ..
    · exact .raise ..
    · split_ifs
      · exact .raise ..
      · exact .refl report
    · exact .refl report
    · exact .raise ..
    · exact .refl report

theorem clean_validateDirection (consumerId : String) (consumerKind : PluginKind)
    (provider : Bundle) (report : Report) :
    Report.Clean [] [] report (validateDirection consumerId consumerKind provider report) := by
  unfold validateDirection
  split_ifs
  · exact .raise ..
  · exact .refl report

/-- The internal edge of a bundle dependency, if its provider is in the workspace. -/
def bundleLink (unique : ExtTreeMap String Bundle) (id : String)
    (dependency : BundleDependency) : List (String × String) :=
  if unique.contains dependency.id then [(id, dependency.id)] else []

/-- A dependency with an artifact has no provider in the workspace, or is reported. -/
theorem clean_validateBundleArtifact (dependency : BundleDependency)
    (artifact : LibraryArtifactPin) (report : Report) :
    Report.Clean (bundleLink unique id dependency) [] report
      (validateBundleArtifact unique id dependency artifact report) := by
  unfold validateBundleArtifact
  dsimp only
  split
  · exact .raise ..
  · split
    · exact .raise ..
    · split
      · exact .raise ..
      · next hcontains =>
        have hlink : bundleLink unique id dependency = [] := if_neg hcontains
        rw [hlink]
        split
        · exact .raise ..
        · split
          · exact .raise ..
          · refine ⟨fun h => h, fun _ => ?_, fun _ => by simp⟩
            simp [internalEdges]

theorem clean_validateBundleDependency (bundle : Bundle) (report : Report)
    (dependency : BundleDependency) :
    Report.Clean (bundleLink unique id dependency) [] report
      (validateBundleDependency unique id bundle report dependency) := by
  unfold validateBundleDependency
  cases hartifact : dependency.artifact with
  | some artifact => exact clean_validateBundleArtifact dependency artifact report
  | none =>
    cases hprovider : unique[dependency.id]? with
    | none => exact .raise ..
    | some provider =>
      have hcontains : unique.contains dependency.id := by
        rw [ExtTreeMap.contains_eq_isSome_getElem?, hprovider]
        rfl
      have hedge : Report.Clean (bundleLink unique id dependency) [] report { report with
          edges := report.edges ++ [{
            fromId := id, toId := dependency.id, version := dependency.version
            contract := dependency.contract, external := false
            artifactDigest := none, artifactTargets := none }] } := by
        refine ⟨fun h => h, fun _ => ?_, fun _ => by simp⟩
        simp [internalEdges, bundleLink, hcontains]
      have hchecks := (hedge.trans (clean_validateBundleVersion id dependency provider _)).trans
        ((clean_validateContract id dependency provider _).trans
          (clean_validateDirection id bundle.manifest.kind provider _))
      simpa using hchecks

theorem clean_validateBundleDependencies (bundle : Bundle) (dependencies : List BundleDependency)
    (seen : List String) (report : Report) :
    Report.Clean (dependencies.flatMap (bundleLink unique id)) [] report
      (validateBundleDependencies unique id bundle seen report dependencies) := by
  induction dependencies generalizing seen report with
  | nil => exact .refl report
  | cons dependency dependencies ih =>
    have hreported : ∀ code message, Report.Clean (bundleLink unique id dependency) [] report
        (report.raise code id (some dependency.id) message) := fun code message => .raise ..
    rw [List.flatMap_cons, validateBundleDependencies]
    split_ifs
    · exact (hreported _ _).trans (ih seen _)
    · exact (hreported _ _).trans (ih seen _)
    · exact (clean_validateBundleDependency bundle report dependency).trans (ih _ _)

/-- The internal edge of a library dependency, if its provider is in the workspace. -/
def libraryLink (providers : ExtTreeMap String Library) (consumerId consumerKind : String)
    (dependency : LibraryDependency × String) : List LibraryLink :=
  if providers.contains dependency.1.id then
    [(consumerKind, consumerId, dependency.1.id, dependency.2)]
  else []

theorem clean_validateLibraryDependency (report : Report)
    (dependency : LibraryDependency × String) :
    Report.Clean [] (libraryLink providers consumerId consumerKind dependency) report
      (validateLibraryDependency consumerId consumerKind providers report dependency.1
        dependency.2) := by
  unfold validateLibraryDependency
  dsimp only
  split
  · exact .raise ..
  · split
    · split
      · exact .raise ..
      · split
        · exact .raise ..
        · next hcontains =>
          have hlink : libraryLink providers consumerId consumerKind dependency = [] :=
            if_neg hcontains
          rw [hlink]
          split
          · exact .raise ..
          · refine ⟨fun h => h, fun _ => by simp, fun _ => ?_⟩
            simp [libraryLinks]
    · split
      · exact .raise ..
      · next provider hprovider =>
        have hcontains : providers.contains dependency.1.id := by
          rw [ExtTreeMap.contains_eq_isSome_getElem?, hprovider]
          rfl
        split
        · exact .raise ..
        · split
          · refine ⟨fun h => h, fun _ => by simp, fun _ => ?_⟩
            simp [libraryLinks, libraryLink, hcontains]
          · exact .raise ..
          · exact .raise ..

theorem clean_validateLibraryDependencies (declares : String)
    (dependencies : List (LibraryDependency × String)) (report : Report) :
    Report.Clean [] (dependencies.flatMap (libraryLink providers consumerId consumerKind)) report
      (validateLibraryDependencies consumerId consumerKind declares providers report
        dependencies) := by
  have heach : Report.Clean (dependencies.flatMap fun _ => [])
      (dependencies.flatMap (libraryLink providers consumerId consumerKind)) report
      (validateLibraryDependencies consumerId consumerKind declares providers report
        dependencies) :=
    .eachOnce (fun _ _ => .raise ..) clean_validateLibraryDependency dependencies [] report
  simpa [flatMap_nil_fun] using heach

theorem clean_validateToolDependency (tools : List Tool) (report : Report)
    (dependency : ToolDependency) :
    Report.Clean [] [] report (validateToolDependency tools id report dependency) := by
  unfold validateToolDependency
  dsimp only
  split
  · exact .raise ..
  · split
    · exact .raise ..
    · split
      · exact .raise ..
      · exact ⟨fun h => h, fun _ => by simp, fun _ => by simp⟩

theorem clean_validateToolDependencies (tools : List Tool) (dependencies : List ToolDependency)
    (report : Report) :
    Report.Clean [] [] report (validateToolDependencies tools id report dependencies) := by
  have heach : Report.Clean (dependencies.flatMap fun _ => []) (dependencies.flatMap fun _ => [])
      report (validateToolDependencies tools id report dependencies) :=
    .eachOnce (fun _ _ => .raise ..) (clean_validateToolDependency tools) dependencies [] report
  simpa [flatMap_nil_fun] using heach

end Dependencies

/-! ## Steps for the members -/

section Members

variable {unique : ExtTreeMap String Bundle} {providers : ExtTreeMap String Library}

/-- The links of the library dependencies of a bundle. -/
def bundleLibraryLinks (providers : ExtTreeMap String Library) (entry : String × Bundle) :
    List LibraryLink :=
  (entry.2.manifest.requires.libraries.map fun dependency => (dependency, "runtime")).flatMap
    (libraryLink providers entry.1 "bundle")

def libraryLibraryLinks (providers : ExtTreeMap String Library) (entry : String × Library) :
    List LibraryLink :=
  entry.2.manifest.requires.scoped.flatMap (libraryLink providers entry.1 "library")

def toolLibraryLinks (providers : ExtTreeMap String Library) (entry : String × List Tool) :
    List LibraryLink :=
  (entry.2.flatMap fun tool => tool.manifest.requires.libraries.map fun dependency =>
    (dependency, "runtime")).flatMap (libraryLink providers entry.1 "tool")

theorem clean_validateBundle (tools : List Tool) (report : Report) (entry : String × Bundle) :
    Report.Clean (entry.2.manifest.requires.bundles.flatMap (bundleLink unique entry.1))
      (bundleLibraryLinks providers entry) report
      (validateBundle unique providers tools report entry) := by
  have hall : Report.Clean _ _ report (validateBundle unique providers tools report entry) :=
    ((clean_validateBundleDependencies entry.2 entry.2.manifest.requires.bundles [] report).trans
      (clean_validateLibraryDependencies "library dependency"
        (entry.2.manifest.requires.libraries.map fun dependency => (dependency, "runtime")) _)).trans
      (clean_validateToolDependencies tools entry.2.manifest.requires.tools _)
  simpa [bundleLibraryLinks] using hall

theorem clean_validateLibrary (report : Report) (entry : String × Library) :
    Report.Clean [] (libraryLibraryLinks providers entry) report
      (validateLibrary providers report entry) :=
  clean_validateLibraryDependencies "dependency" _ report

theorem clean_validateTool (report : Report) (entry : String × List Tool) :
    Report.Clean [] (toolLibraryLinks providers entry) report
      (validateTool providers report entry) := by
  unfold validateTool
  split
  · next tool htool =>
    have hlinks : toolLibraryLinks providers entry = (tool.manifest.requires.libraries.map
        fun dependency => (dependency, "runtime")).flatMap
        (libraryLink providers entry.1 "tool") := by
      simp [toolLibraryLinks, htool]
    rw [hlinks]
    exact clean_validateLibraryDependencies "library dependency" _ report
  · exact .raise ..

end Members

/-! ## Members with distinct ids -/

section Unique

variable {α : Type} {key : α → String} {l : List α}

theorem only_eq_some {l : List α} {a : α} : only l = some a ↔ l = [a] := by
  unfold only
  split
  · simp
  · next h =>
    constructor
    · intro heq
      cases heq
    · rintro rfl
      exact (h a rfl).elim

/-- The unique member of an id is the only one that has it. -/
theorem getElem?_uniqueOf {id : String} {a : α} :
    (uniqueOf (TreeMap.groupBy key l))[id]? = some a ↔ l.filter (key · = id) = [a] := by
  rw [uniqueOf, ExtTreeMap.getElem?_filterMap', TreeMap.getElem?_groupBy]
  by_cases hnil : l.filter (key · = id) = []
  · simp [hnil]
  · rw [if_neg hnil, Option.bind_some, only_eq_some]

/-- Every id that some member has is the id of just one. -/
def Distinct (key : α → String) (l : List α) : Prop :=
  ∀ entry ∈ (TreeMap.groupBy key l).toList, ∃ a, entry.2 = [a]

theorem Distinct.filter_eq (h : Distinct key l) {a : α} (ha : a ∈ l) :
    l.filter (key · = key a) = [a] := by
  have hmem : a ∈ l.filter (key · = key a) := List.mem_filter.mpr ⟨ha, by simp⟩
  have hgroup : (TreeMap.groupBy key l)[key a]? = some (l.filter (key · = key a)) := by
    rw [TreeMap.getElem?_groupBy, if_neg (List.ne_nil_of_mem hmem)]
  obtain ⟨b, hb⟩ := h (key a, l.filter (key · = key a))
    (ExtTreeMap.mem_toList_iff_getElem?_eq_some.mpr hgroup)
  dsimp only at hb
  rw [hb, List.mem_singleton] at hmem
  rw [hb, hmem]

/-- With distinct ids the unique members are the members. -/
theorem Distinct.getElem?_uniqueOf (h : Distinct key l) {id : String} {a : α} :
    (uniqueOf (TreeMap.groupBy key l))[id]? = some a ↔ a ∈ l ∧ key a = id := by
  rw [Plugin.getElem?_uniqueOf]
  constructor
  · intro heq
    have hmem : a ∈ l.filter (key · = id) := heq ▸ List.mem_singleton_self a
    simpa using hmem
  · rintro ⟨ha, rfl⟩
    exact h.filter_eq ha

theorem Distinct.mem_toList (h : Distinct key l) {entry : String × α} :
    entry ∈ (uniqueOf (TreeMap.groupBy key l)).toList ↔ entry.2 ∈ l ∧ key entry.2 = entry.1 := by
  rw [← h.getElem?_uniqueOf, ← ExtTreeMap.mem_toList_iff_getElem?_eq_some]

theorem Distinct.contains_uniqueOf (h : Distinct key l) {id : String} :
    (uniqueOf (TreeMap.groupBy key l)).contains id ↔ ∃ a ∈ l, key a = id := by
  rw [ExtTreeMap.contains_eq_isSome_getElem?, Option.isSome_iff_exists]
  constructor
  · rintro ⟨a, ha⟩
    exact ⟨a, h.getElem?_uniqueOf.mp ha⟩
  · rintro ⟨a, ha⟩
    exact ⟨a, h.getElem?_uniqueOf.mpr ha⟩

theorem Distinct.nodup_ids (h : Distinct key l) : (l.map key).Nodup := by
  refine List.nodup_iff_count_le_one.mpr fun id => ?_
  rw [List.count_eq_countP, List.countP_map, List.countP_eq_length_filter]
  by_cases hid : ∃ a ∈ l, key a = id
  · obtain ⟨a, ha, rfl⟩ := hid
    have hone := congrArg List.length (h.filter_eq ha)
    exact le_of_eq (Eq.trans (congrArg List.length (List.filter_congr fun b _ => rfl)) hone)
  · rw [List.filter_eq_nil_iff.mpr]
    · exact Nat.zero_le 1
    · intro a ha heq
      exact hid ⟨a, ha, by simpa [Function.comp] using heq⟩

/-- The ids of the unique members are the ids of the members, in another order. -/
theorem Distinct.perm_ids (h : Distinct key l) :
    ((uniqueOf (TreeMap.groupBy key l)).toList.map (·.1)).Perm (l.map key) := by
  refine (List.perm_ext_iff_of_nodup ?_ h.nodup_ids).mpr fun id => ?_
  · rw [ExtTreeMap.map_fst_toList_eq_keys]
    exact ExtTreeMap.nodup_keys
  · rw [ExtTreeMap.map_fst_toList_eq_keys, ExtTreeMap.mem_keys, ← ExtTreeMap.contains_iff_mem,
      h.contains_uniqueOf, List.mem_map]

end Unique

theorem distinct_of_bundleIssues {bundles : List Bundle}
    (h : (TreeMap.groupBy (·.manifest.name) bundles).toList.flatMap bundleIssues = []) :
    Distinct (·.manifest.name) bundles := by
  intro entry hentry
  have hnone := List.flatMap_eq_nil_iff.mp h entry hentry
  unfold bundleIssues at hnone
  split at hnone
  · next bundle hbundle => exact ⟨bundle, hbundle⟩
  · simp at hnone

theorem distinct_of_libraryIssues {libraries : List Library}
    (h : (TreeMap.groupBy Library.id libraries).toList.flatMap libraryIssues = []) :
    Distinct Library.id libraries := by
  intro entry hentry
  have hnone := List.flatMap_eq_nil_iff.mp h entry hentry
  unfold libraryIssues at hnone
  split at hnone
  · next library hlibrary => exact ⟨library, hlibrary⟩
  · simp at hnone

/-! ## Declared dependencies -/

/-- A bundle depends on a bundle of the workspace. -/
def BundleDependsOn (bundles : List Bundle) (a b : String) : Prop :=
  ∃ bundle ∈ bundles, bundle.manifest.name = a ∧
    ∃ dependency ∈ bundle.manifest.requires.bundles, dependency.id = b ∧
      ∃ provider ∈ bundles, provider.manifest.name = b

/-- A library depends, in a scope that is honoured, on a library of the workspace. -/
def LibraryDependsOn (libraries : List Library) (honoured : String → String → Prop)
    (a b : String) : Prop :=
  ∃ library ∈ libraries, library.id = a ∧
    ∃ dependency ∈ library.manifest.requires.scoped, honoured a dependency.2 ∧
      dependency.1.id = b ∧ ∃ provider ∈ libraries, provider.id = b

/-- A bundle requires a library of the workspace. -/
def RequiresLibrary (bundles : List Bundle) (libraries : List Library) (a b : String) : Prop :=
  ∃ bundle ∈ bundles, bundle.manifest.name = a ∧
    ∃ dependency ∈ bundle.manifest.requires.libraries, dependency.id = b ∧
      ∃ provider ∈ libraries, provider.id = b

/-- Every scope is honoured. -/
def AnyScope (_id _scope : String) : Prop := True

/-- Only runtime dependencies are honoured. -/
def RuntimeScope (_id scope : String) : Prop := scope = "runtime"

/-- Runtime dependencies are honoured, build dependencies unless the order is for an installed
consumer, and test dependencies of the root when its tests are built. -/
def BuildScope (root : String) (consumer tests : Bool) (id scope : String) : Prop :=
  scope = "runtime" ∨ (consumer = false ∧ scope = "build") ∨
    (tests = true ∧ id = root ∧ scope = "test")

theorem LibraryDependsOn.mono {libraries : List Library} {honoured honoured' : String → String → Prop}
    (h : ∀ id scope, honoured id scope → honoured' id scope) {a b : String}
    (hab : LibraryDependsOn libraries honoured a b) : LibraryDependsOn libraries honoured' a b := by
  obtain ⟨library, hlibrary, hid, dependency, hdependency, hscope, hrest⟩ := hab
  exact ⟨library, hlibrary, hid, dependency, hdependency, h _ _ hscope, hrest⟩

/-- The list of all that a root reaches over at least one step: each once, and after everything
it is related to. -/
structure ListsClosure (r : String → String → Prop) (root : String) (order : List String) :
    Prop where
  nodup : order.Nodup
  mem_iff : ∀ id, id ∈ order ↔ TransGen r root id
  root_not_mem : root ∉ order
  dependencies_first : ∀ before a after, order = before ++ a :: after → ∀ b, r a b → b ∈ before

/-- What is reached from the dependencies of a root is the closure of the root. -/
theorem ListsReached.closure {r : String → String → Prop} {root : String} {order : List String}
    (h : ListsReached r (r root) order) (hacyclic : Acyclic r) : ListsClosure r root order := by
  have hmem : ∀ id, id ∈ order ↔ TransGen r root id := by
    intro id
    rw [h.mem_iff, Relation.TransGen.head'_iff]
  exact ⟨h.nodup, hmem, fun hroot => hacyclic root ((hmem root).mp hroot), h.dependencies_first⟩

/-- What holds of a workspace that passes its validation. -/
structure WorkspaceLaws (bundles : List Bundle) (libraries : List Library)
    (v : WorkspaceValidation) : Prop where
  edges : ∀ a b, Linked (internalEdges v.edges) a b ↔ BundleDependsOn bundles a b
  library_edges : ∀ a b, Linked (internalLibraryEdges (fun _ => true) v.libraryEdges) a b ↔
    LibraryDependsOn libraries AnyScope a b
  bundles_acyclic : Acyclic (BundleDependsOn bundles)
  libraries_acyclic : Acyclic (LibraryDependsOn libraries AnyScope)
  topological_order : ∃ order, v.topologicalOrder = some order ∧
    order.Perm (bundles.map (·.manifest.name)) ∧
    ∀ before a after, order = before ++ a :: after →
      ∀ b, BundleDependsOn bundles a b → b ∈ before
  dependency_order : ∀ root ∈ bundles.map (·.manifest.name), ∃ order,
    v.dependencyOrder root = some order ∧ ListsClosure (BundleDependsOn bundles) root order
  library_dependency_order : ∀ root ∈ bundles.map (·.manifest.name), ∃ order,
    v.libraryDependencyOrder root = some order ∧
    ListsReached (LibraryDependsOn libraries RuntimeScope)
      (fun library => ∃ bundle, ReflTransGen (BundleDependsOn bundles) root bundle ∧
        RequiresLibrary bundles libraries bundle library) order
  library_order : ∀ root ∈ libraries.map Library.id, ∀ consumer tests, ∃ order,
    v.libraryOrder root consumer tests = some order ∧
    ListsClosure (LibraryDependsOn libraries (BuildScope root consumer tests)) root order

/-! ## The edges of a workspace that passes -/

section Edges

variable {bundles : List Bundle} {libraries : List Library}

theorem mem_libraryLink (hlibraries : Distinct Library.id libraries) {consumerId consumerKind : String}
    {dependency : LibraryDependency × String} {link : LibraryLink} :
    link ∈ libraryLink (uniqueLibraries libraries) consumerId consumerKind dependency ↔
      link = (consumerKind, consumerId, dependency.1.id, dependency.2) ∧
        ∃ provider ∈ libraries, provider.id = dependency.1.id := by
  rw [← hlibraries.contains_uniqueOf, libraryLink, uniqueLibraries]
  split_ifs with hcontains
  · simp [hcontains]
  · simp [hcontains]

/-- The links of the bundles, of the libraries and of the tools. -/
def allLinks (bundles : List Bundle) (libraries : List Library) (tools : List Tool) :
    List LibraryLink :=
  let providers := uniqueLibraries libraries
  (uniqueBundles bundles).toList.flatMap (bundleLibraryLinks providers) ++
    providers.toList.flatMap (libraryLibraryLinks providers) ++
    (TreeMap.groupBy Tool.id tools).toList.flatMap (toolLibraryLinks providers)

/-- The edges between bundles of the workspace. -/
def allBundleLinks (bundles : List Bundle) : List (String × String) :=
  (uniqueBundles bundles).toList.flatMap fun entry =>
    entry.2.manifest.requires.bundles.flatMap (bundleLink (uniqueBundles bundles) entry.1)

/-- Unless an issue is reported, the edges are those of the members. -/
theorem clean_memberReport (bundles : List Bundle) (libraries : List Library)
    (tools : List Tool) :
    Report.Clean (allBundleLinks bundles) (allLinks bundles libraries tools)
      (identityReport bundles libraries) (memberReport bundles libraries tools) := by
  have hall : Report.Clean _ _ (identityReport bundles libraries)
      (memberReport bundles libraries tools) :=
    ((Report.Clean.foldl (clean_validateBundle tools) _ _).trans
      (Report.Clean.foldl clean_validateLibrary _ _)).trans
      (Report.Clean.foldl clean_validateTool _ _)
  rw [flatMap_nil_fun, flatMap_nil_fun, List.append_nil, List.append_nil] at hall
  exact hall

theorem mem_bundleLinks (hbundles : Distinct (·.manifest.name) bundles) {a b : String} :
    (a, b) ∈ allBundleLinks bundles ↔ BundleDependsOn bundles a b := by
  rw [allBundleLinks, List.mem_flatMap]
  constructor
  · rintro ⟨entry, hentry, hlink⟩
    obtain ⟨hbundle, hname⟩ := hbundles.mem_toList.mp hentry
    obtain ⟨dependency, hdependency, hlink⟩ := List.mem_flatMap.mp hlink
    unfold bundleLink at hlink
    split_ifs at hlink with hcontains
    · obtain ⟨rfl, rfl⟩ := Prod.mk.inj (List.mem_singleton.mp hlink)
      exact ⟨entry.2, hbundle, hname, dependency, hdependency, rfl,
        hbundles.contains_uniqueOf.mp hcontains⟩
    · cases hlink
  · rintro ⟨bundle, hbundle, rfl, dependency, hdependency, rfl, hprovider⟩
    refine ⟨(bundle.manifest.name, bundle), hbundles.mem_toList.mpr ⟨hbundle, rfl⟩,
      List.mem_flatMap.mpr ⟨dependency, hdependency, ?_⟩⟩
    rw [bundleLink, uniqueBundles, if_pos (hbundles.contains_uniqueOf.mpr hprovider)]
    exact List.mem_singleton_self _

theorem kind_of_mem_toolLibraryLinks {providers : ExtTreeMap String Library}
    {entry : String × List Tool} {link : LibraryLink} (h : link ∈ toolLibraryLinks providers entry) :
    link.1 = "tool" := by
  obtain ⟨dependency, -, hlink⟩ := List.mem_flatMap.mp h
  unfold libraryLink at hlink
  split_ifs at hlink
  · rw [List.mem_singleton.mp hlink]
  · cases hlink

theorem mem_libraryLinks (hlibraries : Distinct Library.id libraries) (tools : List Tool) {a b scope : String} :
    ("library", a, b, scope) ∈ allLinks bundles libraries tools ↔
      LibraryDependsOn libraries (fun _ s => s = scope) a b := by
  rw [allLinks, List.mem_append, List.mem_append, List.mem_flatMap, List.mem_flatMap,
    List.mem_flatMap]
  constructor
  · rintro ((⟨entry, -, hlink⟩ | ⟨entry, hentry, hlink⟩) | ⟨entry, -, hlink⟩)
    · obtain ⟨dependency, -, hlink⟩ := List.mem_flatMap.mp hlink
      simpa using ((mem_libraryLink hlibraries).mp hlink).1
    · obtain ⟨hlibrary, hid⟩ := hlibraries.mem_toList.mp hentry
      obtain ⟨dependency, hdependency, hlink⟩ := List.mem_flatMap.mp hlink
      obtain ⟨heq, hprovider⟩ := (mem_libraryLink hlibraries).mp hlink
      simp only [Prod.mk.injEq, true_and] at heq
      obtain ⟨rfl, rfl, rfl⟩ := heq
      exact ⟨entry.2, hlibrary, hid, dependency, hdependency, rfl, rfl, hprovider⟩
    · exact absurd (kind_of_mem_toolLibraryLinks hlink) (by simp)
  · rintro ⟨library, hlibrary, rfl, dependency, hdependency, rfl, rfl, hprovider⟩
    exact .inl (.inr ⟨(library.id, library), hlibraries.mem_toList.mpr ⟨hlibrary, rfl⟩,
      List.mem_flatMap.mpr ⟨dependency, hdependency,
        (mem_libraryLink hlibraries).mpr ⟨rfl, hprovider⟩⟩⟩)

theorem mem_requiresLinks (hbundles : Distinct (·.manifest.name) bundles)
    (hlibraries : Distinct Library.id libraries) (tools : List Tool) {a b : String} :
    (∃ scope, ("bundle", a, b, scope) ∈ allLinks bundles libraries tools) ↔
      RequiresLibrary bundles libraries a b := by
  constructor
  · rintro ⟨scope, hlink⟩
    rw [allLinks, List.mem_append, List.mem_append, List.mem_flatMap, List.mem_flatMap,
      List.mem_flatMap] at hlink
    rcases hlink with (⟨entry, hentry, hlink⟩ | ⟨entry, -, hlink⟩) | ⟨entry, -, hlink⟩
    · obtain ⟨hbundle, hname⟩ := hbundles.mem_toList.mp hentry
      obtain ⟨_, hscoped, hlink⟩ := List.mem_flatMap.mp hlink
      obtain ⟨dependency, hdependency, rfl⟩ := List.mem_map.mp hscoped
      obtain ⟨heq, hprovider⟩ := (mem_libraryLink hlibraries).mp hlink
      simp only [Prod.mk.injEq, true_and] at heq
      obtain ⟨rfl, rfl, -⟩ := heq
      exact ⟨entry.2, hbundle, hname, dependency, hdependency, rfl, hprovider⟩
    · obtain ⟨dependency, -, hlink⟩ := List.mem_flatMap.mp hlink
      simpa using ((mem_libraryLink hlibraries).mp hlink).1
    · exact absurd (kind_of_mem_toolLibraryLinks hlink) (by simp)
  · rintro ⟨bundle, hbundle, rfl, dependency, hdependency, rfl, hprovider⟩
    refine ⟨"runtime", List.mem_append_left _ (List.mem_append_left _ (List.mem_flatMap.mpr
      ⟨(bundle.manifest.name, bundle), hbundles.mem_toList.mpr ⟨hbundle, rfl⟩,
        List.mem_flatMap.mpr ⟨(dependency, "runtime"), ?_, ?_⟩⟩))⟩
    · exact List.mem_map.mpr ⟨dependency, hdependency, rfl⟩
    · exact (mem_libraryLink hlibraries).mpr ⟨rfl, hprovider⟩

theorem linked_internalEdges {edges edges' : List WorkspaceEdge} (h : edges'.Perm edges)
    {a b : String} : Linked (internalEdges edges') a b ↔ Linked (internalEdges edges) a b :=
  ((h.filter _).map _).mem_iff

/-- The edges between libraries that an order honours are links of a scope it honours. -/
theorem linked_internalLibraryEdges {edges edges' : List WorkspaceLibraryEdge}
    (hperm : edges'.Perm edges) {keep : WorkspaceLibraryEdge → Bool}
    {honoured : String → String → Prop}
    (hkeep : ∀ edge, keep edge ↔ honoured edge.fromId edge.scope) {a b : String} :
    Linked (internalLibraryEdges keep edges') a b ↔
      ∃ scope, honoured a scope ∧ ("library", a, b, scope) ∈ libraryLinks edges := by
  rw [Linked, internalLibraryEdges, ((hperm.filter _).map _).mem_iff, List.mem_map]
  simp only [libraryLinks, List.mem_map, List.mem_filter, Bool.and_eq_true, beq_iff_eq,
    Prod.mk.injEq]
  constructor
  · rintro ⟨edge, ⟨hedge, ⟨hkind, hinternal⟩, hscope⟩, rfl, rfl⟩
    exact ⟨edge.scope, (hkeep edge).mp hscope, edge, ⟨hedge, hinternal⟩, hkind, rfl, rfl, rfl⟩
  · rintro ⟨_, hscope, edge, ⟨hedge, hinternal⟩, hkind, rfl, rfl, rfl⟩
    exact ⟨edge, ⟨hedge, ⟨hkind, hinternal⟩, (hkeep edge).mpr hscope⟩, rfl, rfl⟩

/-- What a report without issues knows of the edges of a workspace. -/
structure Resolved (bundles : List Bundle) (libraries : List Library)
    (v : WorkspaceValidation) : Prop where
  distinct : (bundles.map (·.manifest.name)).Nodup
  bundle_ids : (v.nodes.map (·.id)).Perm (bundles.map (·.manifest.name))
  library_ids : (v.libraries.map (·.id)).Perm (libraries.map Library.id)
  edges : ∀ a b, Linked (internalEdges v.edges) a b ↔ BundleDependsOn bundles a b
  library_edges : ∀ keep honoured,
    (∀ edge : WorkspaceLibraryEdge, keep edge ↔ honoured edge.fromId edge.scope) →
    ∀ a b, Linked (internalLibraryEdges keep v.libraryEdges) a b ↔
      LibraryDependsOn libraries honoured a b
  requires : ∀ a b, (∃ edge ∈ v.libraryEdges, edge.fromKind = "bundle" ∧ edge.external = false ∧
    edge.fromId = a ∧ edge.toId = b) ↔ RequiresLibrary bundles libraries a b

variable {tools : List Tool} {cycles libraryCycles : List (List String)}

theorem resolved_validation (hnone : (memberReport bundles libraries tools).issues = []) :
    Resolved bundles libraries ((memberReport bundles libraries tools).validation
      ((uniqueBundles bundles).toList.map bundleNode)
      ((uniqueLibraries libraries).toList.map libraryNode) cycles libraryCycles) := by
  have hclean := clean_memberReport bundles libraries tools
  -- nothing was reported of the identities, so they are distinct
  have hstart := hclean.issues hnone
  obtain ⟨hidentities, hlibraryIds⟩ := List.append_eq_nil_iff.mp hstart
  have hbundles : Distinct (·.manifest.name) bundles :=
    distinct_of_bundleIssues (List.append_eq_nil_iff.mp hidentities).2
  have hlibraries : Distinct Library.id libraries := distinct_of_libraryIssues hlibraryIds
  have hlinks : libraryLinks (memberReport bundles libraries tools).libraryEdges =
      allLinks bundles libraries tools := hclean.links hnone
  refine ⟨hbundles.nodup_ids, ?_, ?_, ?_, ?_, ?_⟩
  · show (((uniqueBundles bundles).toList.map bundleNode).map (·.id)).Perm _
    rw [List.map_map]
    exact hbundles.perm_ids
  · show (((uniqueLibraries libraries).toList.map libraryNode).map (·.id)).Perm _
    rw [List.map_map]
    exact hlibraries.perm_ids
  · intro a b
    dsimp only [Report.validation]
    rw [linked_internalEdges (SortBy.perm_sortBy _ _), Linked, hclean.edges hnone]
    exact mem_bundleLinks hbundles
  · intro keep honoured hkeep a b
    dsimp only [Report.validation]
    rw [linked_internalLibraryEdges (SortBy.perm_sortBy _ _) hkeep, hlinks]
    constructor
    · rintro ⟨scope, hscope, hlink⟩
      obtain ⟨library, hlibrary, hid, dependency, hdependency, rfl, hrest⟩ :=
        (mem_libraryLinks hlibraries tools).mp hlink
      exact ⟨library, hlibrary, hid, dependency, hdependency, hscope, hrest⟩
    · rintro ⟨library, hlibrary, hid, dependency, hdependency, hscope, hrest⟩
      exact ⟨dependency.2, hscope, (mem_libraryLinks hlibraries tools).mpr
        ⟨library, hlibrary, hid, dependency, hdependency, rfl, hrest⟩⟩
  · intro a b
    rw [← mem_requiresLinks hbundles hlibraries tools, ← hlinks]
    simp only [libraryLinks, List.mem_map, List.mem_filter, Prod.mk.injEq, Bool.not_eq_true']
    constructor
    · rintro ⟨edge, hedge, hkind, hinternal, rfl, rfl⟩
      exact ⟨edge.scope, edge, ⟨SortBy.mem_sortBy.mp hedge, hinternal⟩, hkind, rfl, rfl, rfl⟩
    · rintro ⟨_, edge, ⟨hedge, hinternal⟩, hkind, rfl, rfl, rfl⟩
      exact ⟨edge, SortBy.mem_sortBy.mpr hedge, hkind, hinternal, rfl, rfl⟩

/-- The validation finishes, and a workspace without issues is resolved and without cycles. -/
theorem validateWorkspaceWithMembers_resolved (bundles : List Bundle) (libraries : List Library)
    (tools : List Tool) : ∃ v, validateWorkspaceWithMembers bundles libraries tools = some v ∧
      (v.passed → Resolved bundles libraries v ∧ Acyclic (Linked (internalEdges v.edges)) ∧
        Acyclic (Linked (internalLibraryEdges (fun _ => true) v.libraryEdges))) := by
  let report := memberReport bundles libraries tools
  let nodes := (uniqueBundles bundles).toList.map bundleNode
  let libraryNodes := (uniqueLibraries libraries).toList.map libraryNode
  obtain ⟨cycles, hcycles, hacyclic⟩ := cyclesOf_acyclic (nodes.map (·.id))
    (internalEdges (sortBy WorkspaceEdge.key report.edges))
  obtain ⟨libraryCycles, hlibraryCycles, hlibraryAcyclic⟩ :=
    cyclesOf_acyclic (libraryNodes.map (·.id))
      (internalLibraryEdges (fun _ => true) (sortBy WorkspaceLibraryEdge.key report.libraryEdges))
  refine ⟨report.validation nodes libraryNodes cycles libraryCycles, ?_, fun hpassed => ?_⟩
  · have hfound : findCycles nodes (sortBy WorkspaceEdge.key report.edges) = some cycles := hcycles
    have hfoundLibraries : findLibraryCycles libraryNodes
        (sortBy WorkspaceLibraryEdge.key report.libraryEdges) = some libraryCycles := hlibraryCycles
    rw [validateWorkspaceWithMembers]
    dsimp only [report, nodes, libraryNodes] at hfound hfoundLibraries ⊢
    rw [hfound, Option.bind_eq_bind, Option.bind_some, hfoundLibraries, Option.bind_some]
    rfl
  · -- the issues were sorted, and none of the lists they come from has any
    have hnil : (report.validation nodes libraryNodes cycles libraryCycles).issues = [] :=
      List.isEmpty_iff.mp hpassed
    have hperm := SortBy.perm_sortBy WorkspaceIssue.key (report.issues ++
      cycles.map (cycleIssue "WORKSPACE_DEPENDENCY_CYCLE" "bundle dependency cycle: ") ++
      libraryCycles.map
        (cycleIssue "WORKSPACE_LIBRARY_DEPENDENCY_CYCLE" "library dependency cycle: "))
    rw [show sortBy _ _ = [] from hnil] at hperm
    have hnone := List.append_eq_nil_iff.mp (List.nil_perm.mp hperm)
    obtain ⟨hissues, hcyclesNil⟩ := List.append_eq_nil_iff.mp hnone.1
    exact ⟨resolved_validation hissues, hacyclic (List.map_eq_nil_iff.mp hcyclesNil),
      hlibraryAcyclic (List.map_eq_nil_iff.mp hnone.2)⟩

end Edges

/-! ## The laws -/

section Laws

variable {bundles : List Bundle} {libraries : List Library} {v : WorkspaceValidation}
  {root : String}

theorem Resolved.linked_eq (h : Resolved bundles libraries v) :
    Linked (internalEdges v.edges) = BundleDependsOn bundles := by
  ext a b
  exact h.edges a b

theorem Resolved.linked_libraries_eq (h : Resolved bundles libraries v)
    {keep : WorkspaceLibraryEdge → Bool} {honoured : String → String → Prop}
    (hkeep : ∀ edge, keep edge ↔ honoured edge.fromId edge.scope) :
    Linked (internalLibraryEdges keep v.libraryEdges) = LibraryDependsOn libraries honoured := by
  ext a b
  exact h.library_edges keep honoured hkeep a b

theorem acyclic_mono {r r' : String → String → Prop} (h : ∀ a b, r a b → r' a b)
    (hacyclic : Acyclic r') : Acyclic r :=
  fun a ha => hacyclic a (TransGen.mono h a a ha)

/-- A relation that reaches along edges between ids stays among them. -/
theorem BundleDependsOn.mem {a b : String} (h : BundleDependsOn bundles a b) :
    a ∈ bundles.map (·.manifest.name) ∧ b ∈ bundles.map (·.manifest.name) := by
  obtain ⟨bundle, hbundle, rfl, -, -, -, provider, hprovider, rfl⟩ := h
  exact ⟨List.mem_map_of_mem hbundle, List.mem_map_of_mem hprovider⟩

theorem topologicalOrder_ordered (h : Resolved bundles libraries v) (hpassed : v.passed)
    (hacyclic : Acyclic (BundleDependsOn bundles)) :
    ∃ order, v.topologicalOrder = some order ∧ order.Perm (bundles.map (·.manifest.name)) ∧
      ∀ before a after, order = before ++ a :: after →
        ∀ b, BundleDependsOn bundles a b → b ∈ before := by
  rw [← h.linked_eq] at hacyclic
  have hroots : ∀ id ∈ v.nodes.map (·.id),
      id ∈ verticesOf (v.nodes.map (·.id)) (internalEdges v.edges) := fun id hid =>
    mem_verticesOf_of_mem (mem_adjacencyOf.mpr (.inl hid))
  obtain ⟨w, hrun, hlists⟩ := foldlM_enter_adjacencyOf hacyclic hroots
  rw [h.linked_eq] at hlists
  refine ⟨w.ordered, ?_, ?_, hlists.dependencies_first⟩
  · rw [WorkspaceValidation.topologicalOrder, hpassed]
    exact congrArg (Option.map _) hrun
  · refine (List.perm_ext_iff_of_nodup hlists.nodup h.distinct).mpr fun id => ?_
    rw [hlists.mem_iff]
    constructor
    · rintro ⟨r, hr, hreach⟩
      rcases hreach.cases_tail with rfl | ⟨c, -, hedge⟩
      · exact h.bundle_ids.mem_iff.mp hr
      · exact hedge.mem.2
    · intro hid
      exact ⟨id, h.bundle_ids.mem_iff.mpr hid, .refl⟩

theorem dependencyOrder_laws (h : Resolved bundles libraries v) (hpassed : v.passed)
    (hacyclic : Acyclic (BundleDependsOn bundles)) (hroot : root ∈ bundles.map (·.manifest.name)) :
    ∃ order, v.dependencyOrder root = some order ∧
      ListsClosure (BundleDependsOn bundles) root order := by
  have hnode : v.nodes.any (·.id == root) := by
    rw [← h.bundle_ids.mem_iff] at hroot
    obtain ⟨node, hnode, rfl⟩ := List.mem_map.mp hroot
    exact List.any_eq_true.mpr ⟨node, hnode, beq_self_eq_true _⟩
  obtain ⟨w, hrun, hlists⟩ := visit_adjacencyOf (v.nodes.map (·.id)) (h.linked_eq ▸ hacyclic) root
  rw [h.linked_eq] at hlists
  refine ⟨w.ordered, ?_, hlists.closure hacyclic⟩
  rw [WorkspaceValidation.dependencyOrder, hpassed, hnode]
  exact congrArg (Option.map _) hrun

theorem libraryOrder_laws (h : Resolved bundles libraries v) (hpassed : v.passed)
    (hacyclic : Acyclic (LibraryDependsOn libraries AnyScope))
    (hroot : root ∈ libraries.map Library.id) (consumer tests : Bool) :
    ∃ order, v.libraryOrder root consumer tests = some order ∧
      ListsClosure (LibraryDependsOn libraries (BuildScope root consumer tests)) root order := by
  have hnode : v.libraries.any (·.id == root) := by
    rw [← h.library_ids.mem_iff] at hroot
    obtain ⟨node, hnode, rfl⟩ := List.mem_map.mp hroot
    exact List.any_eq_true.mpr ⟨node, hnode, beq_self_eq_true _⟩
  have hkeep : ∀ edge : WorkspaceLibraryEdge,
      WorkspaceValidation.scopedEdge root consumer tests edge ↔
        BuildScope root consumer tests edge.fromId edge.scope := by
    intro edge
    simp [WorkspaceValidation.scopedEdge, BuildScope, and_assoc, or_assoc]
  have hscoped : Acyclic (LibraryDependsOn libraries (BuildScope root consumer tests)) :=
    acyclic_mono (fun _ _ => LibraryDependsOn.mono fun _ _ _ => trivial) hacyclic
  obtain ⟨w, hrun, hlists⟩ := visit_adjacencyOf (v.libraries.map (·.id))
    (h.linked_libraries_eq hkeep ▸ hscoped) root
  rw [h.linked_libraries_eq hkeep] at hlists
  refine ⟨w.ordered, ?_, hlists.closure hscoped⟩
  rw [WorkspaceValidation.libraryOrder, hpassed, hnode]
  exact congrArg (Option.map _) hrun

theorem libraryDependencyOrder_laws (h : Resolved bundles libraries v) (hpassed : v.passed)
    (hbundles : Acyclic (BundleDependsOn bundles))
    (hlibraries : Acyclic (LibraryDependsOn libraries AnyScope))
    (hroot : root ∈ bundles.map (·.manifest.name)) :
    ∃ order, v.libraryDependencyOrder root = some order ∧
      ListsReached (LibraryDependsOn libraries RuntimeScope)
        (fun library => ∃ bundle, ReflTransGen (BundleDependsOn bundles) root bundle ∧
          RequiresLibrary bundles libraries bundle library) order := by
  obtain ⟨selected, hselected, hclosure⟩ := dependencyOrder_laws h hpassed hbundles hroot
  let roots := (sortBy id ((v.libraryEdges.filter fun edge => edge.fromKind == "bundle" &&
    !edge.external && (selected ++ [root]).contains edge.fromId).map (·.toId))).destutter (· ≠ ·)
  -- the selected bundles are those that the root reaches, itself included
  have hmem : ∀ bundle, bundle ∈ selected ++ [root] ↔
      ReflTransGen (BundleDependsOn bundles) root bundle := by
    intro bundle
    rw [List.mem_append, List.mem_singleton, hclosure.mem_iff,
      Relation.reflTransGen_iff_eq_or_transGen]
    tauto
  have hroots : ∀ library, library ∈ roots ↔
      ∃ bundle, ReflTransGen (BundleDependsOn bundles) root bundle ∧
        RequiresLibrary bundles libraries bundle library := by
    intro library
    simp only [roots, SortBy.mem_destutter, SortBy.mem_sortBy, List.mem_map, List.mem_filter,
      Bool.and_eq_true, beq_iff_eq, Bool.not_eq_true', List.contains_iff_mem, ← h.requires,
      ← hmem]
    constructor
    · rintro ⟨edge, ⟨hedge, ⟨hkind, hinternal⟩, hsel⟩, rfl⟩
      exact ⟨edge.fromId, hsel, edge, hedge, hkind, hinternal, rfl, rfl⟩
    · rintro ⟨_, hsel, edge, hedge, hkind, hinternal, rfl, rfl⟩
      exact ⟨edge, ⟨hedge, ⟨hkind, hinternal⟩, hsel⟩, rfl⟩
  have hkeep : ∀ edge : WorkspaceLibraryEdge,
      WorkspaceValidation.runtimeEdge edge ↔ RuntimeScope edge.fromId edge.scope := by
    intro edge
    simp [WorkspaceValidation.runtimeEdge, RuntimeScope]
  have hruntime : Acyclic (LibraryDependsOn libraries RuntimeScope) :=
    acyclic_mono (fun _ _ => LibraryDependsOn.mono fun _ _ _ => trivial) hlibraries
  have hvertices : ∀ library ∈ roots, library ∈ verticesOf (v.libraries.map (·.id))
      (internalLibraryEdges WorkspaceValidation.runtimeEdge v.libraryEdges) := by
    intro library hlibrary
    obtain ⟨bundle, -, -, -, -, -, -, -, provider, hprovider, rfl⟩ := (hroots library).mp hlibrary
    refine mem_verticesOf_of_mem (mem_adjacencyOf.mpr (.inl ?_))
    exact h.library_ids.mem_iff.mpr (List.mem_map_of_mem hprovider)
  obtain ⟨w, hrun, hlists⟩ := foldlM_enter_adjacencyOf
    (h.linked_libraries_eq hkeep ▸ hruntime) hvertices
  rw [h.linked_libraries_eq hkeep] at hlists
  refine ⟨w.ordered, ?_, hlists.nodup, fun id => ?_, hlists.dependencies_first⟩
  · rw [WorkspaceValidation.libraryDependencyOrder, hselected, Option.bind_eq_bind,
      Option.bind_some]
    exact congrArg (fun w => w.bind fun w => some w.ordered) hrun
  · rw [hlists.mem_iff]
    exact exists_congr fun library => and_congr_left fun _ => hroots library

/-- The validation of a workspace finishes. When it passes, both graphs are acyclic, and every
build order lists what its root needs, each member once and after its dependencies. -/
theorem validateWorkspaceWithMembers_laws (bundles : List Bundle) (libraries : List Library)
    (tools : List Tool) : ∃ v, validateWorkspaceWithMembers bundles libraries tools = some v ∧
      (v.passed → WorkspaceLaws bundles libraries v) := by
  obtain ⟨v, hrun, hpass⟩ := validateWorkspaceWithMembers_resolved bundles libraries tools
  refine ⟨v, hrun, fun hpassed => ?_⟩
  obtain ⟨hresolved, hbundles, hlibraries⟩ := hpass hpassed
  have hany : ∀ edge : WorkspaceLibraryEdge, true = true ↔ AnyScope edge.fromId edge.scope :=
    fun _ => ⟨fun _ => trivial, fun _ => rfl⟩
  rw [hresolved.linked_eq] at hbundles
  rw [hresolved.linked_libraries_eq hany] at hlibraries
  exact {
    edges := hresolved.edges
    library_edges := hresolved.library_edges _ _ hany
    bundles_acyclic := hbundles
    libraries_acyclic := hlibraries
    topological_order := topologicalOrder_ordered hresolved hpassed hbundles
    dependency_order := fun _ hroot => dependencyOrder_laws hresolved hpassed hbundles hroot
    library_dependency_order := fun _ hroot =>
      libraryDependencyOrder_laws hresolved hpassed hbundles hlibraries hroot
    library_order := fun _ hroot => libraryOrder_laws hresolved hpassed hlibraries hroot }

/-! ## A workspace that passes -/

/-- A dependency on any first release. -/
def sampleDependency (id : String) : LibraryDependency :=
  { id, version := ">=1.0,<2.0", artifact := none }

def sampleBundle (name : String) (bundles libraries : List String) : Bundle :=
  { manifest := {
      plugin := { name, version := "1.0", kind := .usdFileformat }
      provides := []
      requires := {
        bundles := bundles.map fun id => { id, version := ">=1.0", contract := none, artifact := none }
        libraries := libraries.map sampleDependency
        tools := [] }
      schema := none } }

def sampleLibrary (id : String) (runtime build test : List String) : Library :=
  { manifest := {
      library := { id, version := "1.0" }
      cmake := { package := id, target := id }
      requires := {
        libraries := runtime.map sampleDependency
        buildLibraries := build.map sampleDependency
        testLibraries := test.map sampleDependency } } }

/-- Three bundles in a diamond over a fourth. -/
def sampleBundles : List Bundle :=
  [sampleBundle "viewer" ["mesh", "volume"] ["scene"], sampleBundle "mesh" ["base"] [],
    sampleBundle "volume" ["base"] ["grid"], sampleBundle "base" [] []]

/-- Libraries with runtime, build and test dependencies. -/
def sampleLibraries : List Library :=
  [sampleLibrary "scene" ["math"] ["codegen"] [], sampleLibrary "grid" [] [] ["scene"],
    sampleLibrary "math" [] [] [], sampleLibrary "codegen" [] [] []]

theorem validateWorkspaceWithMembers_laws_sample :
    ∃ v, validateWorkspaceWithMembers sampleBundles sampleLibraries [] = some v ∧
      v.passed ∧ WorkspaceLaws sampleBundles sampleLibraries v := by
  obtain ⟨v, hrun, hlaws⟩ := validateWorkspaceWithMembers_laws sampleBundles sampleLibraries []
  have hpassed : (validateWorkspaceWithMembers sampleBundles sampleLibraries []).map (·.passed) =
      some true := by
    decide +kernel
  rw [hrun] at hpassed
  exact ⟨v, hrun, Option.some.inj hpassed, hlaws (Option.some.inj hpassed)⟩

end Laws

end OpenStrata.Plugin
