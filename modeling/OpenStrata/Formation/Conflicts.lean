import OpenStrata.Core.Segments
import OpenStrata.Formation.OrderIndependence

/-!
# Conflicts of an accepted composition

The checks after the worklist run over the selected components. What they let through has no
conflict between any two components, and the environment and the installation lose nothing of
what the components contribute. The OpenUSD check looks at the provider resolved for `usd`,
so it says nothing where no requirement names that capability.

## Main definitions

* `RuntimeComposition.contributionOf`, `RuntimeComposition.mappingOf`: what is rendered of a
  contribution and of a mapping
* `ResolvedRuntimeComposition.ConflictFree`: no two components are in conflict

## Main results

* `resolveRuntimeComposition_conflictFree`: every resolved composition is free of conflicts
* `resolveRuntimeComposition_openusd`: the resolved `usd` serves every component
-/

namespace OpenStrata

open Std (ExtTreeMap)

namespace RuntimeComposition

/-! ## The four checks -/

section Checks

theorem eq_of_length_le_one {α : Type} {l : List α} (h : l.length ≤ 1) {a b : α} (ha : a ∈ l)
    (hb : b ∈ l) : a = b := by
  match l, h with
  | [c], _ => rw [List.mem_singleton.mp ha, List.mem_singleton.mp hb]

variable {selected : List Candidate} {u : Unit}

/-- Every provision of every component, under its capability. -/
def provisions (selected : List Candidate) : List (String × Bool × String) :=
  selected.flatMap fun c => c.contract.provides.map fun p =>
    (p.capability, p.singleton, c.contract.id)

theorem mem_provisions {c : Candidate} (hc : c ∈ selected) {p : CapabilityProvision}
    (hp : p ∈ c.contract.provides) :
    (p.capability, p.singleton, c.contract.id) ∈
      (provisions selected).filter fun e => e.1 = p.capability :=
  List.mem_filter.mpr
    ⟨List.mem_flatMap.mpr ⟨c, hc, List.mem_map.mpr ⟨p, hp, rfl⟩⟩, by simp⟩

/-- A capability some component provides as a singleton is provided once. -/
theorem checkSingletons_length (h : checkSingletons selected = .ok u) {a : Candidate}
    (ha : a ∈ selected) {p : CapabilityProvision} (hp : p ∈ a.contract.provides)
    (hsingle : p.singleton) :
    ((provisions selected).filter fun e => e.1 = p.capability).length ≤ 1 := by
  have hgroup : (TreeMap.groupBy (fun e : String × Bool × String => e.1)
      (provisions selected))[p.capability]? = _ := TreeMap.getElem?_groupBy _ _
  rw [if_neg (List.ne_nil_of_mem (mem_provisions ha hp))] at hgroup
  have hsmall := Result.failIf_ok.mp
    (Result.forAll_ok.mp h _ (ExtTreeMap.mem_toList_iff_getElem?_eq_some.mpr hgroup))
  by_contra hlong
  exact hsmall
    ⟨List.any_eq_true.mpr ⟨_, mem_provisions ha hp, hsingle⟩, not_le.mp hlong⟩

theorem checkSingletons_ok (h : checkSingletons selected = .ok u) {a b : Candidate}
    (ha : a ∈ selected) (hb : b ∈ selected) {p q : CapabilityProvision}
    (hp : p ∈ a.contract.provides) (hq : q ∈ b.contract.provides) (hsingle : p.singleton)
    (hcap : q.capability = p.capability) : a.contract.id = b.contract.id := by
  have hqb := mem_provisions hb hq
  rw [hcap] at hqb
  have heq := eq_of_length_le_one (checkSingletons_length h ha hp hsingle)
    (mem_provisions ha hp) hqb
  exact congrArg (fun e : String × Bool × String => e.2.2) heq

/-- A component that provides a capability as a singleton provides it once. -/
theorem checkSingletons_once (h : checkSingletons selected = .ok u) {a : Candidate}
    (ha : a ∈ selected) {p q : CapabilityProvision} (hp : p ∈ a.contract.provides)
    (hq : q ∈ a.contract.provides) (hsingle : p.singleton)
    (hcap : q.capability = p.capability) : p = q := by
  have hsub : (a.contract.provides.map fun p => (p.capability, p.singleton, a.contract.id)).Sublist
      (provisions selected) := by
    rw [provisions, List.flatMap]
    exact List.sublist_flatten_of_mem (List.mem_map.mpr ⟨a, ha, rfl⟩)
  have hlength := (hsub.filter fun e => e.1 = p.capability).length_le.trans
    (checkSingletons_length h ha hp hsingle)
  rw [List.filter_map, List.length_map] at hlength
  exact eq_of_length_le_one hlength (List.mem_filter.mpr ⟨hp, by simp⟩)
    (List.mem_filter.mpr ⟨hq, by simpa using hcap⟩)

/-- All components that declare an ABI declare the same. -/
theorem checkAbi_ok (h : checkAbi selected = .ok u) {a b : Candidate} (ha : a ∈ selected)
    (hb : b ∈ selected) {x y : String} (hx : a.contract.compatibility.abi = some x)
    (hy : b.contract.compatibility.abi = some y) : x = y := by
  have hsize := Result.failIf_ok.mp h
  by_contra hne
  have hkey : ∀ c ∈ selected, ∀ abi, c.contract.compatibility.abi = some abi →
      abi ∈ TreeMap.groupBy (fun e : String × String => e.1) (selected.filterMap fun c =>
        c.contract.compatibility.abi.map fun abi => (abi, c.contract.id)) := by
    intro c hc abi habi
    rw [ExtTreeMap.mem_iff_isSome_getElem?, TreeMap.getElem?_groupBy, if_neg]
    · rfl
    · refine List.ne_nil_of_mem (a := (abi, c.contract.id)) (List.mem_filter.mpr ⟨?_, by simp⟩)
      exact List.mem_filterMap.mpr ⟨c, hc, by rw [habi]; rfl⟩
  exact hsize (TreeMap.one_lt_size (hkey a ha x hx) (hkey b hb y hy) hne)

/-- The version resolved for `usd` satisfies the range of every component. -/
theorem checkOpenusd_ok {providers : ExtTreeMap String (Candidate × String)}
    (h : checkOpenusd providers selected = .ok u) {provider : Candidate} {version : String}
    (hprovider : providers["usd"]? = some (provider, version)) {c : Candidate}
    (hc : c ∈ selected) {range : String}
    (hrange : c.contract.compatibility.openusd = some range) :
    Version.satisfies version range = .ok true := by
  simp only [checkOpenusd, hprovider] at h
  have hcheck := Result.forAll_ok.mp h c hc
  simp only [hrange, Result.bind_ok, Result.failIf_ok] at hcheck
  obtain ⟨b, hb, hsat⟩ := hcheck
  obtain rfl : b = true := not_not.mp hsat
  exact versionSatisfies_ok.mp hb

end Checks

/-! ## Environment -/

/-- What is rendered of a component's contribution to the environment. -/
def contributionOf (c : Candidate) (e : EnvironmentContribution) :
    ResolvedEnvironmentContribution where
  variableName := e.variableName
  operation := e.operation.asStr
  source := c.contract.id
  values := e.values

/-- The contributions of all components, each with its component. -/
def contributions (selected : List Candidate) : List (Candidate × EnvironmentContribution) :=
  selected.flatMap fun c => c.contract.environment.map fun e => (c, e)

theorem asStr_eq_set {operation : EnvironmentOperation} (h : operation.asStr = "set") :
    operation = .set := by
  cases operation <;> first | rfl | simp [EnvironmentOperation.asStr] at h

/-- An accepted variable keeps its contributions, and a setting stands beside settings of the
same value only. -/
theorem resolveVariable_ok {variableName : String}
    {group : List (String × EnvironmentContribution)}
    {resolved : List ResolvedEnvironmentContribution}
    (h : resolveVariable variableName group = .ok resolved) :
    resolved.Perm (group.map fun c => {
      variableName, operation := c.2.operation.asStr, source := c.1, values := c.2.values }) ∧
    ∀ a ∈ group, ∀ b ∈ group, a.2.operation = .set →
      b.2.operation = .set ∧ b.2.values = a.2.values := by
  simp only [resolveVariable, Result.bind_ok, Result.failIf_ok] at h
  obtain ⟨⟨⟩, hok, hret⟩ := h
  cases hret
  have hperm := SortBy.perm_sortBy (fun c : String × EnvironmentContribution => c.1) group
  refine ⟨hperm.map _, fun a ha b hb hset => ?_⟩
  set sorted := SortBy.sortBy (fun c : String × EnvironmentContribution => c.1) group
  have hmem : a ∈ sorted.filter (·.2.operation = .set) :=
    List.mem_filter.mpr ⟨hperm.mem_iff.mpr ha, by simpa using hset⟩
  rw [not_and, not_or, not_not, not_not] at hok
  obtain ⟨hall, hsame⟩ := hok (List.ne_nil_of_mem hmem)
  have hbset : b ∈ sorted.filter (·.2.operation = .set) := by
    rw [List.length_filter_eq_length_iff] at hall
    exact List.mem_filter.mpr ⟨hperm.mem_iff.mpr hb, hall b (hperm.mem_iff.mpr hb)⟩
  have hvalues : ∀ c ∈ sorted.filter (·.2.operation = .set), c.2.values ∈
      ((sorted.filter (·.2.operation = .set)).map (·.2.values)).dedup := fun c hc =>
    List.mem_dedup.mpr (List.mem_map_of_mem hc)
  refine ⟨by simpa using (List.mem_filter.mp hbset).2, ?_⟩
  exact eq_of_length_le_one hsame.le (hvalues b hbset) (hvalues a hmem)

/-- What is rendered of a contribution under the id of its component. -/
def renderedOf (e : String × EnvironmentContribution) : ResolvedEnvironmentContribution where
  variableName := e.2.variableName
  operation := e.2.operation.asStr
  source := e.1
  values := e.2.values

/-- The accepted variables keep their contributions, each variable on its own. -/
theorem resolveVariables_ok {groups : List (String × List (String × EnvironmentContribution))}
    {resolved : List ResolvedEnvironmentContribution}
    (hnames : ∀ g ∈ groups, ∀ e ∈ g.2, e.2.variableName = g.1)
    (h : resolveVariables groups = .ok resolved) :
    resolved.Perm ((groups.flatMap (·.2)).map renderedOf) ∧
      ∀ g ∈ groups, ∀ a ∈ g.2, ∀ b ∈ g.2, a.2.operation = .set →
        b.2.operation = .set ∧ b.2.values = a.2.values := by
  induction groups generalizing resolved with
  | nil =>
    cases h
    exact ⟨.nil, by simp⟩
  | cons g rest ih =>
    simp only [resolveVariables, Result.bind_ok] at h
    obtain ⟨first, hfirst, others, hothers, hret⟩ := h
    cases hret
    obtain ⟨hperm, hset⟩ := resolveVariable_ok hfirst
    obtain ⟨hperm', hset'⟩ := ih (fun g hg => hnames g (List.mem_cons_of_mem _ hg)) hothers
    refine ⟨?_, fun g' hg' => ?_⟩
    · rw [List.flatMap_cons, List.map_append]
      refine (hperm.append hperm').trans (List.Perm.of_eq ?_)
      congr 1
      refine List.map_congr_left fun e he => ?_
      simp only [renderedOf, hnames g List.mem_cons_self e he]
    · rcases List.mem_cons.mp hg' with rfl | hg'
      · exact hset
      · exact hset' g' hg'

/-- The environment is the contributions of all components. -/
theorem resolveEnvironment_ok {selected : List Candidate}
    {resolved : List ResolvedEnvironmentContribution}
    (h : resolveEnvironment selected = .ok resolved) :
    resolved.Perm ((contributions selected).map fun x => contributionOf x.1 x.2) ∧
    ∀ a ∈ contributions selected, ∀ b ∈ contributions selected,
      b.2.variableName = a.2.variableName → a.2.operation = .set →
        b.2.operation = .set ∧ b.2.values = a.2.values := by
  let listed := selected.flatMap fun c => c.contract.environment.map fun e => (c.contract.id, e)
  have hlisted : listed = (contributions selected).map fun x => (x.1.contract.id, x.2) := by
    simp only [listed, contributions, List.map_flatMap, List.map_map]
    rfl
  obtain ⟨hperm, hset⟩ := resolveVariables_ok
    (fun g hg e he => TreeMap.key_of_mem_toList_groupBy hg he) h
  refine ⟨hperm.trans (((TreeMap.perm_groupBy listed).map renderedOf).trans ?_), ?_⟩
  · rw [hlisted, List.map_map]
    exact .refl _
  · intro a ha b hb hname
    have hmem : ∀ x ∈ contributions selected, x.2.variableName = a.2.variableName →
        (x.1.contract.id, x.2) ∈ listed.filter fun e => e.2.variableName = a.2.variableName := by
      intro x hx heq
      refine List.mem_filter.mpr ⟨?_, by simpa using heq⟩
      rw [hlisted]
      exact List.mem_map.mpr ⟨x, hx, rfl⟩
    have hgroup : (TreeMap.groupBy (fun e : String × EnvironmentContribution => e.2.variableName)
        listed)[a.2.variableName]? = _ := TreeMap.getElem?_groupBy _ _
    rw [if_neg (List.ne_nil_of_mem (hmem a ha rfl))] at hgroup
    exact hset _ (ExtTreeMap.mem_toList_iff_getElem?_eq_some.mpr hgroup) _ (hmem a ha rfl) _
      (hmem b hb hname)

/-! ## Installation -/

/-- What is rendered of a component's install mapping. -/
def mappingOf (c : Candidate) (mapping : InstallMapping) : ResolvedInstallMapping where
  destination := normalizeRelativePath mapping.destination
  component := c.contract.id
  artifact := c.record.digest
  source := normalizeRelativePath mapping.source

/-- The mappings of all components, each with its component. -/
def mappings (selected : List Candidate) : List (Candidate × InstallMapping) :=
  selected.flatMap fun c => c.contract.install.map fun mapping => (c, mapping)

/-- Two destinations are the same when they differ in separators, ASCII case, and empty and dot
components only. -/
def destinationKey (destination : String) : String :=
  Text.toAsciiLowercase (normalizeRelativePath destination)

/-- A normalised path is normal. -/
theorem normalizeRelativePath_idem (path : String) :
    normalizeRelativePath (normalizeRelativePath path) = normalizeRelativePath path := by
  let isSeparator : Char → Bool := fun c => c == '/' || c == '\\'
  let keep : String → Bool := fun component => !component.isEmpty && component != "."
  let parts := (Text.split isSeparator path).filter keep
  have hparts : ∀ part ∈ parts, ∀ c ∈ part.toList, isSeparator c = false := fun part hpart =>
    Text.not_mem_of_mem_split (List.mem_filter.mp hpart).1
  show Text.join "/" ((Text.split isSeparator (Text.join "/" parts)).filter keep) =
    Text.join "/" parts
  rcases eq_or_ne parts [] with hnil | hne
  · rw [hnil]
    rfl
  · rw [Text.split_join rfl hne hparts, List.filter_filter]
    simp only [Bool.and_self]
    rfl

/-- The installation is the mappings of all components, to distinct destinations. -/
theorem resolveInstall_ok {selected : List Candidate} {resolved : List ResolvedInstallMapping}
    (h : resolveInstall selected = .ok resolved) :
    resolved.Perm ((mappings selected).map fun x => mappingOf x.1 x.2) ∧
      (resolved.map fun m => destinationKey m.destination).Nodup := by
  simp only [resolveInstall, Result.bind_ok, collectInstall_iff] at h
  obtain ⟨collected, ⟨-, hnodup, rfl⟩, hret⟩ := h
  cases hret
  have hperm : (SortBy.sortBy (fun m : ResolvedInstallMapping =>
      (toLex (m.destination, toLex (m.component, m.source)) : String ×ₗ String ×ₗ String))
      ((mappings selected).map fun x => mappingOf x.1 x.2)).Perm
      ((mappings selected).map fun x => mappingOf x.1 x.2) := SortBy.perm_sortBy _ _
  refine ⟨hperm, (hperm.map _).nodup_iff.mpr ?_⟩
  rw [List.map_map]
  refine (congrArg List.Nodup (List.map_congr_left fun x _ => ?_)).mp hnodup
  show installKey x.2 = destinationKey (normalizeRelativePath x.2.destination)
  rw [destinationKey, normalizeRelativePath_idem]
  rfl

/-! ## The selected components -/

section Finish

variable {codec : Codec} {declared : RuntimeCompositionManifest} {candidates : List Candidate}
  {s : Selection} {r : ResolvedRuntimeComposition}

/-- A finished composition passed every check on its components. -/
theorem finish_checks (h : finish codec declared s = .ok r) :
    checkSingletons (TreeMap.values s.selected) = .ok () ∧
      checkAbi (TreeMap.values s.selected) = .ok () ∧
      checkOpenusd s.selectedProvider (TreeMap.values s.selected) = .ok () ∧
      resolveEnvironment (TreeMap.values s.selected) = .ok r.environment ∧
      resolveInstall (TreeMap.values s.selected) = .ok r.install := by
  simp only [finish, topologicalOrder, Result.bind_ok, Result.okOr_ok] at h
  obtain ⟨⟨⟩, -, ⟨⟩, hsingletons, ⟨⟩, habi, ⟨⟩, hopenusd, ids, -, environment, henvironment,
    install, hinstall, hr⟩ := h
  cases hr
  exact ⟨hsingletons, habi, hopenusd, henvironment, hinstall⟩

/-- The components are rendered from the selected candidates, in some order. -/
theorem exists_chosen (hinv : Inv declared candidates s [])
    (h : finish codec declared s = .ok r) :
    ∃ chosen : List Candidate, chosen.Perm (TreeMap.values s.selected) ∧
      r.components = chosen.map fun c => ⟨c.contract.id, c.contract.kind.asStr,
        c.contract.version, c.record.digest, c.record.target⟩ := by
  obtain ⟨ids, hids, hcomponents, -⟩ := finish_ok h
  have hperm := Kahn.order_perm (nodup_keys _) hinv.edges_nodup hinv.edges_keys hids
  refine ⟨ids.filterMap fun id => s.selected[id]?, ?_, ?_⟩
  · refine (hperm.filterMap _).trans (List.Perm.of_eq ?_)
    rw [TreeMap.values, ← ExtTreeMap.map_fst_toList_eq_keys, List.filterMap_map,
      ← List.filterMap_eq_map]
    refine List.filterMap_congr fun e he => ?_
    exact ExtTreeMap.mem_toList_iff_getElem?_eq_some.mp he
  · rw [hcomponents, List.map_filterMap]
    refine List.filterMap_congr fun id _ => ?_
    cases hsel : s.selected[id]? with
    | none => simp [resolvedComponent, hsel]
    | some c =>
      obtain ⟨-, hid⟩ := hinv.selected_mem id c hsel
      simp [resolvedComponent, hsel, hid]

end Finish

end RuntimeComposition

open RuntimeComposition

namespace ResolvedRuntimeComposition

/-- No two components of a composition are in conflict, and its environment and installation
are all that the components contribute. -/
structure ConflictFree (records : List ArtifactRecord) (r : ResolvedRuntimeComposition) :
    Prop where
  /-- A capability one component provides as a singleton has no second provider. -/
  singletons : ∀ c ∈ r.components, ∀ c' ∈ r.components, ∀ a b, StandsFor records c a →
    StandsFor records c' b → ∀ p ∈ a.contract.provides, ∀ q ∈ b.contract.provides,
    p.singleton → q.capability = p.capability → c = c' ∧ p = q
  /-- The components that declare an ABI declare the same. -/
  abi : ∀ c ∈ r.components, ∀ c' ∈ r.components, ∀ a b, StandsFor records c a →
    StandsFor records c' b → ∀ x y, a.contract.compatibility.abi = some x →
    b.contract.compatibility.abi = some y → x = y
  /-- A variable with a setting has only settings, all of one value. -/
  settings : ∀ e ∈ r.environment, ∀ f ∈ r.environment, f.variableName = e.variableName →
    e.operation = "set" → f.operation = "set" ∧ f.values = e.values
  /-- No two mappings have one destination. -/
  destinations : (r.install.map fun m => destinationKey m.destination).Nodup
  /-- Every contribution and every mapping of every component is there exactly once. -/
  complete : ∃ chosen, List.Forall₂ (StandsFor records) r.components chosen ∧
    r.environment.Perm ((contributions chosen).map fun x => contributionOf x.1 x.2) ∧
    r.install.Perm ((mappings chosen).map fun x => mappingOf x.1 x.2)

end ResolvedRuntimeComposition

open ResolvedRuntimeComposition

section ConflictFree

variable {codec : Codec} {declared : RuntimeCompositionManifest} {records : List ArtifactRecord}
  {r : ResolvedRuntimeComposition}

/-- In every resolved composition no two components are in conflict, and nothing they
contribute is dropped. -/
theorem resolveRuntimeComposition_conflictFree
    (h : resolveRuntimeComposition codec declared ⟨records⟩ = .ok r) :
    r.ConflictFree records := by
  obtain ⟨candidates, s, hunique, hmem, hinv, hfinish⟩ := resolveRuntimeComposition_stages h
  obtain ⟨hsingletons, habi, -, henvironment, hinstall⟩ := finish_checks hfinish
  obtain ⟨chosen, hchosen, hcomponents⟩ := exists_chosen hinv hfinish
  have hselected : ∀ c ∈ r.components, ∀ a, StandsFor records c a →
      a ∈ TreeMap.values s.selected := fun c hc a hstands =>
    TreeMap.mem_values.mpr
      ⟨c.id, selected_of_standsFor hunique hmem hinv hfinish hc hstands⟩
  have hcandidate : ∀ a ∈ TreeMap.values s.selected, a ∈ candidates := by
    intro a ha
    obtain ⟨id, hid⟩ := TreeMap.mem_values.mp ha
    exact (hinv.selected_mem id a hid).1
  have hperm : ∀ {α : Type} (f : Candidate → List α),
      ((TreeMap.values s.selected).flatMap f).Perm (chosen.flatMap f) := fun f =>
    (hchosen.flatMap_right f).symm
  obtain ⟨henvPerm, hset⟩ := resolveEnvironment_ok henvironment
  obtain ⟨hinstallPerm, hnodup⟩ := resolveInstall_ok hinstall
  refine ⟨?_, ?_, ?_, hnodup, chosen, ?_, henvPerm.trans ((hperm _).map _),
    hinstallPerm.trans ((hperm _).map _)⟩
  · intro c hc c' hc' a b hca hcb p hp q hq hsingle hcap
    have ha := hselected c hc a hca
    have hb := hselected c' hc' b hcb
    have hid := checkSingletons_ok hsingletons ha hb hp hq hsingle hcap
    obtain rfl := hunique a (hcandidate a ha) b (hcandidate b hb) hid
    refine ⟨?_, checkSingletons_once hsingletons ha hp hq hsingle hcap⟩
    obtain ⟨id, hcomponent⟩ := (mem_components hinv hfinish).mp hc
    obtain ⟨id', hcomponent'⟩ := (mem_components hinv hfinish).mp hc'
    have heq : id = id' := by
      obtain ⟨x, -, rfl⟩ := resolvedComponent_eq_some.mp hcomponent
      obtain ⟨y, -, rfl⟩ := resolvedComponent_eq_some.mp hcomponent'
      exact hca.id_eq.symm.trans hcb.id_eq
    rw [heq, hcomponent'] at hcomponent
    exact (Option.some.inj hcomponent).symm
  · intro c hc c' hc' a b hca hcb x y hx hy
    exact checkAbi_ok habi (hselected c hc a hca) (hselected c' hc' b hcb) hx hy
  · intro e he f hf hname hoperation
    obtain ⟨a, ha, rfl⟩ := List.mem_map.mp (henvPerm.mem_iff.mp he)
    obtain ⟨b, hb, rfl⟩ := List.mem_map.mp (henvPerm.mem_iff.mp hf)
    obtain ⟨hb', hvalues⟩ := hset a ha b hb hname (asStr_eq_set hoperation)
    exact ⟨congrArg EnvironmentOperation.asStr hb', hvalues⟩
  · rw [hcomponents, List.forall₂_map_left_iff, List.forall₂_same]
    intro a ha
    obtain ⟨hrecord, hcomponent⟩ := (hmem a).mp (hcandidate a (hchosen.mem_iff.mp ha))
    exact ⟨hrecord, hcomponent, rfl, rfl⟩

/-- The version resolved for `usd` satisfies the OpenUSD range of every component; and where
some component provides `usd` as a singleton, no component provides it at another version. -/
theorem resolveRuntimeComposition_openusd
    (h : resolveRuntimeComposition codec declared ⟨records⟩ = .ok r) {p : ResolvedProvider}
    (hp : p ∈ r.providers) (hcap : p.capability = "usd") :
    (∀ c ∈ r.components, ∀ candidate, StandsFor records c candidate → ∀ range,
      candidate.contract.compatibility.openusd = some range →
        Version.satisfies p.version range = .ok true) ∧
    ∀ c ∈ r.components, ∀ a, StandsFor records c a → ∀ u ∈ a.contract.provides,
      u.capability = "usd" → u.singleton →
        ∀ c' ∈ r.components, ∀ b, StandsFor records c' b → ∀ v ∈ b.contract.provides,
          v.capability = "usd" → v.version = p.version := by
  obtain ⟨candidates, s, hunique, hmem, hinv, hfinish⟩ := resolveRuntimeComposition_stages h
  obtain ⟨-, -, hopenusd, -, -⟩ := finish_checks hfinish
  have hfree := resolveRuntimeComposition_conflictFree h
  obtain ⟨-, -, -, hproviders⟩ := finish_ok hfinish
  rw [hproviders] at hp
  obtain ⟨⟨capability, provider, version⟩, hentry, rfl⟩ := List.mem_map.mp hp
  obtain rfl : capability = "usd" := hcap
  have hprovider := ExtTreeMap.mem_toList_iff_getElem?_eq_some.mp hentry
  obtain ⟨hsel, -, provision, hprovision, hprovcap, hversion⟩ := hinv.provider_mem _ _ _ hprovider
  refine ⟨fun c hc candidate hstands range hrange => ?_,
    fun c hc a hca u hu hucap hsingle c' hc' b hcb v hv hvcap => ?_⟩
  · have hselected := selected_of_standsFor hunique hmem hinv hfinish hc hstands
    exact checkOpenusd_ok hopenusd hprovider (TreeMap.mem_values.mpr ⟨_, hselected⟩) hrange
  · obtain ⟨hrecord, hcomponent⟩ := (hmem provider).mp (hinv.selected_mem _ _ hsel).1
    have hresolved := (mem_components hinv hfinish).mpr
      ⟨_, resolvedComponent_eq_some.mpr ⟨provider, hsel, rfl⟩⟩
    obtain ⟨-, huv⟩ := hfree.singletons c hc c' hc' a b hca hcb u hu v hv hsingle
      (hvcap.trans hucap.symm)
    obtain ⟨-, hup⟩ := hfree.singletons c hc _ hresolved a provider hca
      ⟨hrecord, hcomponent, rfl, rfl⟩ u hu provision hprovision hsingle
      (hprovcap.trans hucap.symm)
    rw [← huv, hup]
    exact hversion

end ConflictFree

namespace RuntimeComposition.Sample

/-- The renderer of the sample with a range for OpenUSD itself. -/
def rangedRenderer : ComponentContract :=
  { renderer with compatibility := { ComponentCompatibility.default with openusd := some ">=24.11" } }

def rangedRecords : List ArtifactRecord := [record rangedRenderer artifactB, record usd artifactA]

theorem resolves_ranged :
    (resolveRuntimeComposition codec manifest ⟨rangedRecords⟩).toOption.map (·.providers) =
      some [⟨"python", "usd", "3.11", artifactA⟩, ⟨"render", "renderer", "2.0", artifactB⟩,
        ⟨"usd", "usd", "24.11", artifactA⟩] := by
  rw [rangedRecords, resolve_pair codec (by simp) (by simp) (by decide) validate_usd
    (by decide)]
  decide

/-- A renderer for a later OpenUSD that requires the Python of the component which provides
both. -/
def detachedRenderer : ComponentContract :=
  { contract "renderer" [⟨"render", "2.0", true⟩] [⟨"python", none, none⟩] with
    compatibility := { ComponentCompatibility.default with openusd := some ">=27" } }

def detachedRecords : List ArtifactRecord :=
  [record detachedRenderer artifactB, record usd artifactA]

/-- SHA-256 on the two texts that are digested for the detached renderer. -/
def detachedCodec : Codec where
  sha256 bytes := bytesOfHex <| String.toList <|
    if bytes.length = 343 then
      "ae9468692dddf046f941d95e731fbcc9f795763823850ffbddeb0055ee50b791"
    else "ab279d45b762a3116dbe6c81cd3b54dc5abe46ca6550258860d85ae58b2dc368"
  parse _ := none

theorem resolves_detached :
    (resolveRuntimeComposition detachedCodec manifest ⟨detachedRecords⟩).toOption.map
      (·.components) = some [⟨"usd", "library", "1.0", artifactA, "linux"⟩,
        ⟨"renderer", "library", "1.0", artifactB, "linux"⟩] := by
  rw [detachedRecords, resolve_pair detachedCodec (by simp) (by simp) (by decide)
    validate_usd (by decide)]
  decide

end RuntimeComposition.Sample

open RuntimeComposition.Sample

/-- The sample is free of conflicts. -/
theorem resolveRuntimeComposition_conflictFree_sample :
    ∃ r, resolveRuntimeComposition codec manifest ⟨records⟩ = .ok r ∧ r.ConflictFree records := by
  obtain ⟨r, hr⟩ := Result.exists_ok resolves
  exact ⟨r, hr, resolveRuntimeComposition_conflictFree hr⟩

/-- The resolved OpenUSD serves the renderer with a range. -/
theorem resolveRuntimeComposition_openusd_sample :
    ∃ r, resolveRuntimeComposition codec manifest ⟨rangedRecords⟩ = .ok r ∧
      ∃ p ∈ r.providers, p.capability = "usd" ∧
        ∀ c ∈ r.components, ∀ candidate, StandsFor rangedRecords c candidate → ∀ range,
          candidate.contract.compatibility.openusd = some range →
            Version.satisfies p.version range = .ok true := by
  obtain ⟨r, hr, hproviders⟩ := Result.exists_of_map_eq resolves_ranged
  have hp : (⟨"usd", "usd", "24.11", artifactA⟩ : ResolvedProvider) ∈ r.providers := by
    rw [hproviders]
    simp
  exact ⟨r, hr, _, hp, rfl, (resolveRuntimeComposition_openusd hr hp rfl).1⟩

/-- A component that provides OpenUSD can be selected for its Python alone, and then no range
is held against it. -/
theorem resolveRuntimeComposition_openusd_detached :
    ¬ ∀ (codec : Codec) (declared : RuntimeCompositionManifest) (records : List ArtifactRecord)
      (r : ResolvedRuntimeComposition),
      resolveRuntimeComposition codec declared ⟨records⟩ = .ok r →
      ∀ c ∈ r.components, ∀ a, StandsFor records c a → ∀ p ∈ a.contract.provides,
        p.capability = "usd" → ∀ c' ∈ r.components, ∀ b, StandsFor records c' b → ∀ range,
          b.contract.compatibility.openusd = some range →
            Version.satisfies p.version range = .ok true := by
  intro h
  obtain ⟨r, hr, hcomponents⟩ := Result.exists_of_map_eq resolves_detached
  have hc : ∀ c, c ∈ r.components ↔ c = ⟨"usd", "library", "1.0", artifactA, "linux"⟩ ∨
      c = ⟨"renderer", "library", "1.0", artifactB, "linux"⟩ := by
    intro c
    rw [hcomponents, List.mem_pair]
  have hsat := h detachedCodec manifest detachedRecords r hr _ ((hc _).mpr (.inl rfl))
    ⟨record usd artifactA, usd⟩ ⟨by simp [detachedRecords], rfl, rfl, rfl⟩
    ⟨"usd", "24.11", true⟩ (by simp [usd, contract]) rfl _ ((hc _).mpr (.inr rfl))
    ⟨record detachedRenderer artifactB, detachedRenderer⟩
    ⟨by simp [detachedRecords], rfl, rfl, rfl⟩ ">=27" rfl
  have hnot : Version.satisfies "24.11" ">=27" = .ok false := by decide
  rw [hnot] at hsat
  cases hsat

end OpenStrata
