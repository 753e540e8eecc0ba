import OpenStrata.Formation.Visit

/-!
# Closure of a resolved composition

The worklist keeps every requirement either queued or met by the provider chosen for its
capability. When the queue is empty every requirement is met, so the composition is closed;
and every component was selected for a requirement that was there before it, so nothing
unneeded is selected.

## Main definitions

* `RuntimeComposition.Demanded`, `RuntimeComposition.Met`: a requirement is raised, and is satisfied
* `RuntimeComposition.Inv`: the invariant of the worklist
* `ResolvedRuntimeComposition.Sound`: a composition is closed and has nothing unneeded

## Main results

* `RuntimeComposition.Inv.visit`: an iteration keeps the invariant
* `RuntimeComposition.inv_of_resolveSelection`: the invariant holds of every resolved selection
* `resolveRuntimeComposition_sound`: every resolved composition is sound
* `resolveRuntimeComposition_order`: providers come before their consumers
-/

namespace OpenStrata

open Std (ExtTreeMap)

namespace RuntimeComposition

/-! ## Candidates -/

section Candidates

variable {declared ids : List String} {records : List ArtifactRecord}
  {candidates : List Candidate}

theorem candidateOf_ok {record : ArtifactRecord} {c : Candidate}
    (h : candidateOf declared record = .ok c) :
    c.record = record ∧ record.component = some c.contract ∧ c.contract.validate = .ok () ∧
      c.contract.id = record.name ∧ c.contract.version = record.version := by
  simp only [candidateOf, Result.bind_ok, Result.failIf_ok, Result.okOr_ok, not_or,
    not_not] at h
  obtain ⟨⟨⟩, -, ⟨⟩, -, contract, hcontract, ⟨⟩, hvalid, ⟨⟩, ⟨hid, hversion⟩, hret⟩ := h
  cases hret
  exact ⟨rfl, hcontract, hvalid, hid, hversion⟩

/-- The candidates are the records with their contracts, no id occurring twice. -/
theorem collectCandidates_ok (h : collectCandidates declared ids records = .ok candidates) :
    candidates.map (·.record) = records ∧
      (∀ c ∈ candidates, candidateOf declared c.record = .ok c ∧ c.contract.id ∉ ids) ∧
      (candidates.map (·.contract.id)).Nodup := by
  induction records generalizing ids candidates with
  | nil =>
    cases h
    simp
  | cons record rest ih =>
    simp only [collectCandidates, Result.bind_ok, Result.failIf_ok] at h
    obtain ⟨c, hc, ⟨⟩, hnew, tail, htail, hret⟩ := h
    cases hret
    obtain ⟨hrecords, hall, hnodup⟩ := ih htail
    obtain ⟨hrecord, -⟩ := candidateOf_ok hc
    refine ⟨by simp [hrecord, hrecords], ?_, ?_⟩
    · intro d hd
      rcases List.mem_cons.mp hd with rfl | hd
      · exact ⟨hrecord ▸ hc, hnew⟩
      · exact ⟨(hall d hd).1, fun hmem => (hall d hd).2 (List.mem_cons_of_mem _ hmem)⟩
    · rw [List.map_cons, List.nodup_cons]
      refine ⟨fun hmem => ?_, hnodup⟩
      obtain ⟨d, hd, heq⟩ := List.mem_map.mp hmem
      exact (hall d hd).2 (heq ▸ List.mem_cons_self)

/-- No two candidates share an id. -/
def UniqueIds (candidates : List Candidate) : Prop :=
  ∀ a ∈ candidates, ∀ b ∈ candidates, a.contract.id = b.contract.id → a = b

theorem uniqueIds_of_nodup (h : (candidates.map (·.contract.id)).Nodup) :
    UniqueIds candidates := fun _ ha _ hb heq =>
  List.inj_on_of_nodup_map h ha hb heq

end Candidates

/-! ## The invariant -/

section Invariant

variable {declared : RuntimeCompositionManifest} {candidates : List Candidate}

/-- A requirement of the manifest, or of a selected component. -/
def Demanded (declared : RuntimeCompositionManifest) (s : Selection) (d : Demand) : Prop :=
  (d.1 = none ∧ d.2 ∈ declared.requirements) ∨
    ∃ id c, d.1 = some id ∧ s.selected[id]? = some c ∧ d.2 ∈ c.contract.requires

/-- A requirement is satisfied by the provider chosen for its capability. -/
def Met (declared : RuntimeCompositionManifest) (s : Selection) (d : Demand) : Prop :=
  ∃ c version, s.selectedProvider[d.2.capability]? = some (c, version) ∧
    Accepts declared d.2 c.contract.id version ∧
    ∀ consumer, d.1 = some consumer → (c.contract.id, consumer) ∈ s.edges

/-- What the worklist maintains. -/
structure Inv (declared : RuntimeCompositionManifest) (candidates : List Candidate)
    (s : Selection) (queue : List Demand) : Prop where
  /-- Selected components are candidates under their ids. -/
  selected_mem : ∀ id c, s.selected[id]? = some c → c ∈ candidates ∧ c.contract.id = id
  /-- A chosen provider is selected, serves the target and provides the capability. -/
  provider_mem : ∀ capability c version,
    s.selectedProvider[capability]? = some (c, version) →
      s.selected[c.contract.id]? = some c ∧ targetMatches declared.composition.target c ∧
        ∃ p ∈ c.contract.provides, p.capability = capability ∧ p.version = version
  queued_demanded : ∀ d ∈ queue, Demanded declared s d
  queued_or_met : ∀ d, Demanded declared s d → d ∈ queue ∨ Met declared s d
  /-- A selected component provides for a requirement that is not its own. -/
  needed : ∀ id c, s.selected[id]? = some c → ∃ d version, Demanded declared s d ∧
    d.1 ≠ some id ∧ s.selectedProvider[d.2.capability]? = some (c, version)
  edges_closed : ∀ e ∈ s.edges, (∃ c, s.selected[e.1]? = some c) ∧ ∃ c, s.selected[e.2]? = some c
  edges_nodup : s.edges.Nodup

/-- One selection extends another. -/
structure Extends (s s₁ : Selection) : Prop where
  selected : ∀ (id : String) (c : Candidate), s.selected[id]? = some c →
    s₁.selected[id]? = some c
  selectedProvider : ∀ (capability : String) (x : Candidate × String), s.selectedProvider[capability]? = some x →
    s₁.selectedProvider[capability]? = some x
  edges : ∀ e ∈ s.edges, e ∈ s₁.edges

theorem Demanded.extend {s s₁ : Selection} {d : Demand} (h : Demanded declared s d)
    (hs : Extends s s₁) : Demanded declared s₁ d := by
  rcases h with h | ⟨id, c, hid, hc, hreq⟩
  · exact Or.inl h
  · exact Or.inr ⟨id, c, hid, hs.selected id c hc, hreq⟩

theorem Met.extend {s s₁ : Selection} {d : Demand} (h : Met declared s d)
    (hs : Extends s s₁) : Met declared s₁ d := by
  obtain ⟨c, version, hprovider, haccepts, hedge⟩ := h
  exact ⟨c, version, hs.selectedProvider _ _ hprovider, haccepts, fun k hk =>
    hs.edges _ (hedge k hk)⟩

/-- Before the first iteration the manifest's own requirements are queued. -/
theorem Inv.initial : Inv declared candidates .empty (initialDemands declared) where
  selected_mem _ _ h := by simp [Selection.empty] at h
  provider_mem _ _ _ h := by simp [Selection.empty] at h
  queued_demanded d hd := by
    obtain ⟨q, hq, rfl⟩ := List.mem_map.mp (SortBy.mem_sortBy.mp hd)
    exact Or.inl ⟨rfl, hq⟩
  queued_or_met d hd := by
    obtain ⟨consumer, q⟩ := d
    rcases hd with ⟨rfl, hq⟩ | ⟨id, c, -, hc, -⟩
    · exact Or.inl (SortBy.mem_sortBy.mpr (List.mem_map_of_mem hq))
    · simp [Selection.empty] at hc
  needed _ _ h := by simp [Selection.empty] at h
  edges_closed _ h := by simp [Selection.empty] at h
  edges_nodup := List.nodup_nil

/-- The provider chosen before is confirmed: only an edge is added. -/
theorem Inv.confirm {s : Selection} {consumer : Option String} {q : CapabilityRequirement}
    {rest : List Demand} (h : Inv declared candidates s ((consumer, q) :: rest))
    {provider : Candidate} {version : String}
    (hprovider : s.selectedProvider[q.capability]? = some (provider, version))
    (haccepts : Accepts declared q provider.contract.id version) :
    Inv declared candidates (s.addEdge provider.contract.id consumer) rest := by
  have hext : Extends s (s.addEdge provider.contract.id consumer) :=
    ⟨by simp, by simp, fun e he => Selection.mem_addEdge.mpr (Or.inl he)⟩
  have hdemanded : ∀ d, Demanded declared (s.addEdge provider.contract.id consumer) d ↔
      Demanded declared s d := by simp [Demanded]
  refine ⟨by simpa using h.selected_mem, by simpa using h.provider_mem, ?_, ?_, ?_, ?_,
    Selection.nodup_addEdge h.edges_nodup⟩
  · intro d hd
    exact (h.queued_demanded d (List.mem_cons_of_mem _ hd)).extend hext
  · intro d hd
    rcases h.queued_or_met d ((hdemanded d).mp hd) with hqueue | hmet
    · rcases List.mem_cons.mp hqueue with rfl | hqueue
      · refine Or.inr ⟨provider, version, by simpa using hprovider, haccepts, fun k hk => ?_⟩
        exact Selection.mem_addEdge.mpr (Or.inr ⟨k, hk, rfl⟩)
      · exact Or.inl hqueue
    · exact Or.inr (hmet.extend hext)
  · intro id c hc
    obtain ⟨d, v, hd, hne, hp⟩ := h.needed id c (by simpa using hc)
    exact ⟨d, v, hd.extend hext, hne, by simpa using hp⟩
  · intro e he
    rw [Selection.addEdge_selected]
    rcases Selection.mem_addEdge.mp he with he | ⟨k, hk, rfl⟩
    · exact h.edges_closed e he
    · obtain ⟨hsel, -⟩ := h.provider_mem _ _ _ hprovider
      refine ⟨⟨provider, hsel⟩, ?_⟩
      rcases h.queued_demanded _ List.mem_cons_self with ⟨hnone, -⟩ | ⟨id, c, hid, hc, -⟩
      · simp [hk] at hnone
      · obtain rfl : id = k := by simpa [hk] using hid.symm
        exact ⟨c, hc⟩

/-- A provider is chosen for a capability that had none. -/
theorem Inv.choose (hunique : UniqueIds candidates) {s : Selection} {consumer : Option String}
    {q : CapabilityRequirement} {rest : List Demand}
    (h : Inv declared candidates s ((consumer, q) :: rest))
    (hnone : s.selectedProvider[q.capability]? = none) {provider : Candidate}
    (hmem : provider ∈ candidates) {provision : CapabilityProvision}
    (hprovides : provision ∈ provider.contract.provides)
    (hcapability : provision.capability = q.capability)
    (htarget : targetMatches declared.composition.target provider)
    (haccepts : Accepts declared q provider.contract.id provision.version)
    {s₁ : Selection} {pushed : List Demand}
    (hselect : (s₁, pushed) = select s consumer q.capability provider provision) :
    Inv declared candidates s₁ (rest ++ pushed) := by
  obtain ⟨rfl, rfl⟩ : s₁ = _ ∧ pushed = _ := by
    rw [Prod.ext_iff] at hselect
    exact hselect
  -- a component that was selected before is the same candidate, so nothing is overwritten
  have hsame : ∀ c, s.selected[provider.contract.id]? = some c → c = provider := fun c hc =>
    hunique c (h.selected_mem _ c hc).1 provider hmem (h.selected_mem _ c hc).2
  have hext : Extends s (select s consumer q.capability provider provision).1 := by
    refine ⟨fun id c hc => ?_, fun capability x hx => ?_, fun e he =>
      mem_select_edges.mpr (Or.inl he)⟩
    · rw [select_selected, ExtTreeMap.getElem?_insert]
      split_ifs with hid
      · obtain rfl : provider.contract.id = id := by simpa using hid
        rw [hsame c hc]
      · exact hc
    · rw [select_selectedProvider, TreeMap.getElem?_insert_of_ne]
      · exact hx
      · rintro rfl
        rw [hnone] at hx
        cases hx
  have hprovider : (select s consumer q.capability provider provision).1.selectedProvider[
      q.capability]? = some (provider, provision.version) := by simp
  have hselected : ∀ id c,
      (select s consumer q.capability provider provision).1.selected[id]? = some c →
        (id = provider.contract.id ∧ c = provider) ∨ s.selected[id]? = some c := by
    intro id c hc
    rw [select_selected, ExtTreeMap.getElem?_insert] at hc
    split_ifs at hc with hid
    · obtain rfl : provider.contract.id = id := by simpa using hid
      exact Or.inl ⟨rfl, (Option.some.inj hc).symm⟩
    · exact Or.inr hc
  have hfront : Demanded declared s (consumer, q) := h.queued_demanded _ List.mem_cons_self
  refine ⟨?_, ?_, ?_, ?_, ?_, ?_, Selection.nodup_addEdge h.edges_nodup⟩
  · intro id c hc
    rcases hselected id c hc with ⟨rfl, rfl⟩ | hc
    · exact ⟨hmem, rfl⟩
    · exact h.selected_mem id c hc
  · intro capability c version hc
    rw [select_selectedProvider, ExtTreeMap.getElem?_insert] at hc
    split_ifs at hc with hid
    · obtain rfl : q.capability = capability := by simpa using hid
      obtain ⟨rfl, rfl⟩ := Prod.ext_iff.mp (Option.some.inj hc)
      exact ⟨by simp, htarget, provision, hprovides, hcapability, rfl⟩
    · obtain ⟨hsel, ht, hp⟩ := h.provider_mem capability c version hc
      exact ⟨hext.selected _ _ hsel, ht, hp⟩
  · intro d hd
    rcases List.mem_append.mp hd with hd | hd
    · exact (h.queued_demanded d (List.mem_cons_of_mem _ hd)).extend hext
    · rw [select_pushed] at hd
      split_ifs at hd
      · obtain ⟨hid, hreq⟩ := mem_demandsOf.mp hd
        exact Or.inr ⟨provider.contract.id, provider, hid, by simp, hreq⟩
      · cases hd
  · intro d hd
    have hold : Demanded declared s d → d ∈ rest ++
        (select s consumer q.capability provider provision).2 ∨
          Met declared (select s consumer q.capability provider provision).1 d := by
      intro hd
      rcases h.queued_or_met d hd with hqueue | hmet
      · rcases List.mem_cons.mp hqueue with rfl | hqueue
        · exact Or.inr ⟨provider, provision.version, hprovider, haccepts, fun k hk =>
            mem_select_edges.mpr (Or.inr ⟨k, hk, rfl⟩)⟩
        · exact Or.inl (List.mem_append_left _ hqueue)
      · exact Or.inr (hmet.extend hext)
    rcases hd with hd | ⟨id, c, hid, hc, hreq⟩
    · exact hold (Or.inl hd)
    · rcases hselected id c hc with ⟨rfl, rfl⟩ | hc
      · cases hs : s.selected[c.contract.id]? with
        | some c' =>
          rw [hsame c' hs] at hs
          exact hold (Or.inr ⟨_, c, hid, hs, hreq⟩)
        | none =>
          refine Or.inl (List.mem_append_right _ ?_)
          rw [select_pushed, hs]
          exact mem_demandsOf.mpr ⟨hid, hreq⟩
      · exact hold (Or.inr ⟨id, c, hid, hc, hreq⟩)
  · intro id c hc
    cases hs : s.selected[id]? with
    | some c' =>
      obtain ⟨d, v, hd, hne, hp⟩ := h.needed id c' hs
      have hcc : c' = c := by
        have := hext.selected id c' hs
        rw [hc] at this
        exact (Option.some.inj this).symm
      exact ⟨d, v, hd.extend hext, hne, hext.selectedProvider _ _ (hcc ▸ hp)⟩
    | none =>
      rcases hselected id c hc with ⟨rfl, rfl⟩ | hc'
      · refine ⟨(consumer, q), provision.version, hfront.extend hext, ?_, hprovider⟩
        -- the consumer was selected before, the component was not
        rintro rfl
        rcases hfront with ⟨hnil, -⟩ | ⟨id', c', hid', hc', -⟩
        · cases hnil
        · cases hid'
          rw [hs] at hc'
          cases hc'
      · rw [hs] at hc'
        cases hc'
  · intro e he
    rcases mem_select_edges.mp he with he | ⟨k, hk, rfl⟩
    · obtain ⟨⟨a, ha⟩, b, hb⟩ := h.edges_closed e he
      exact ⟨⟨a, hext.selected _ _ ha⟩, b, hext.selected _ _ hb⟩
    · refine ⟨⟨provider, by simp⟩, ?_⟩
      rcases hfront with ⟨hnil, -⟩ | ⟨id, c, hid, hc, -⟩
      · simp [hk] at hnil
      · obtain rfl : id = k := by simpa [hk] using hid.symm
        exact ⟨c, hext.selected _ _ hc⟩

/-- An iteration keeps the invariant. -/
theorem Inv.visit (hunique : UniqueIds candidates) {s s₁ : Selection} {d : Demand}
    {rest pushed : List Demand} (h : Inv declared candidates s (d :: rest))
    (hvisit : visit declared candidates s d = .ok (s₁, pushed)) :
    Inv declared candidates s₁ (rest ++ pushed) := by
  obtain ⟨consumer, q⟩ := d
  obtain ⟨-, ⟨provider, version, hprovider, haccepts, rfl, rfl⟩ |
    ⟨hnone, provider, hmem, provision, hprovides, hcap, htarget, haccepts, hselect⟩⟩ :=
      visit_cases hvisit
  · simpa using h.confirm hprovider haccepts
  · exact h.choose hunique hnone hmem hprovides hcap htarget haccepts hselect

/-- The invariant holds of every resolved selection, with nothing left in the queue. -/
theorem inv_of_resolveSelection (hunique : UniqueIds candidates) {s : Selection}
    (h : resolveSelection declared candidates = .ok s) : Inv declared candidates s [] :=
  Worklist.Drained.invariant
    (fun _ _ _ _ _ (hinv : Inv declared candidates _ _) hvisit => hinv.visit hunique hvisit)
    (drained_of_resolveSelection h) Inv.initial

/-- Every requirement of a resolved selection is met. -/
theorem Inv.met {s : Selection} (h : Inv declared candidates s []) {d : Demand}
    (hd : Demanded declared s d) : Met declared s d :=
  (h.queued_or_met d hd).resolve_left List.not_mem_nil

end Invariant

/-! ## The rendered composition -/

section Render

variable {codec : Codec} {declared : RuntimeCompositionManifest} {candidates : List Candidate}
  {s : Selection} {r : ResolvedRuntimeComposition}

/-- A finished composition lists the selected components in a topological order, and the
provider of each capability. -/
theorem finish_ok (h : finish codec declared s = .ok r) :
    ∃ ids, Kahn.order s.selected.keys s.edges = some ids ∧
      r.components = ids.filterMap (resolvedComponent s.selected) ∧
      r.providers = s.selectedProvider.toList.map resolvedProvider := by
  simp only [finish, topologicalOrder, Result.bind_ok, Result.okOr_ok] at h
  obtain ⟨-, -, -, -, -, -, -, -, ids, hids, environment, -, install, -, hr⟩ := h
  cases hr
  exact ⟨ids, hids, rfl, rfl⟩

theorem nodup_keys (selected : ExtTreeMap String Candidate) : selected.keys.Nodup :=
  selected.nodup_keys

theorem Inv.edges_keys (h : Inv declared candidates s []) :
    ∀ e ∈ s.edges, e.1 ∈ s.selected.keys ∧ e.2 ∈ s.selected.keys := by
  intro e he
  obtain ⟨⟨a, ha⟩, b, hb⟩ := h.edges_closed e he
  simp only [ExtTreeMap.mem_keys, ExtTreeMap.mem_iff_isSome_getElem?, ha, hb,
    Option.isSome_some, and_self]

theorem resolvedComponent_eq_some {id : String} {c : ResolvedRuntimeComponent} :
    resolvedComponent s.selected id = some c ↔
      ∃ candidate, s.selected[id]? = some candidate ∧
        c = ⟨id, candidate.contract.kind.asStr, candidate.contract.version,
          candidate.record.digest, candidate.record.target⟩ := by
  simp [resolvedComponent, eq_comm]

/-- The components of a finished composition are the selected ones. -/
theorem mem_components (hinv : Inv declared candidates s [])
    (h : finish codec declared s = .ok r) {c : ResolvedRuntimeComponent} :
    c ∈ r.components ↔ ∃ id, resolvedComponent s.selected id = some c := by
  obtain ⟨ids, hids, hcomponents, -⟩ := finish_ok h
  have hperm := Kahn.order_perm (nodup_keys _) hinv.edges_nodup hinv.edges_keys hids
  rw [hcomponents, List.mem_filterMap]
  constructor
  · rintro ⟨id, -, hc⟩
    exact ⟨id, hc⟩
  · rintro ⟨id, hc⟩
    obtain ⟨candidate, hsel, -⟩ := resolvedComponent_eq_some.mp hc
    refine ⟨id, hperm.mem_iff.mpr ?_, hc⟩
    simp [ExtTreeMap.mem_iff_isSome_getElem?, hsel]

/-- A finished composition has one provider for a capability that has one. -/
theorem filter_providers (h : finish codec declared s = .ok r) {capability : String}
    {x : Candidate × String} (hx : s.selectedProvider[capability]? = some x) :
    (r.providers.filter fun p => p.capability = capability) =
      [resolvedProvider (capability, x)] := by
  obtain ⟨-, -, -, hproviders⟩ := finish_ok h
  rw [hproviders, List.filter_map]
  show ((s.selectedProvider.toList.filter fun e => e.1 = capability).map resolvedProvider) = _
  rw [TreeMap.filter_toList, hx]
  rfl

end Render

end RuntimeComposition

open RuntimeComposition

namespace ResolvedRuntimeComposition

/-- The supplied record and contract a resolved component stands for. -/
structure StandsFor (records : List ArtifactRecord) (c : ResolvedRuntimeComponent)
    (candidate : Candidate) : Prop where
  record_mem : candidate.record ∈ records
  component_eq : candidate.record.component = some candidate.contract
  id_eq : candidate.contract.id = c.id
  digest_eq : candidate.record.digest = c.digest

/-- What a composition has to provide: the requirements of the manifest, and those of the
contracts of its components. -/
inductive Requires (declared : RuntimeCompositionManifest) (records : List ArtifactRecord)
    (r : ResolvedRuntimeComposition) : Option String → CapabilityRequirement → Prop
  | manifest {q : CapabilityRequirement} (hq : q ∈ declared.requirements) :
      Requires declared records r none q
  | component {c : ResolvedRuntimeComponent} {candidate : Candidate} {q : CapabilityRequirement}
      (hc : c ∈ r.components) (hstands : StandsFor records c candidate)
      (hq : q ∈ candidate.contract.requires) : Requires declared records r (some c.id) q

/-- An entry of the providers meets a requirement: it is a component of the composition that
provides the capability at the recorded version for the target, and range and pins agree. -/
structure Provides (declared : RuntimeCompositionManifest) (records : List ArtifactRecord)
    (r : ResolvedRuntimeComposition) (q : CapabilityRequirement) (p : ResolvedProvider) :
    Prop where
  component : ∃ c ∈ r.components, ∃ candidate, StandsFor records c candidate ∧
    c.id = p.component ∧ c.digest = p.digest ∧
    targetMatches declared.composition.target candidate ∧
    ∃ provision ∈ candidate.contract.provides,
      provision.capability = q.capability ∧ provision.version = p.version
  accepts : Accepts declared q p.component p.version

/-- A composition is closed under its requirements and has no component that nothing else
requires. -/
structure Sound (declared : RuntimeCompositionManifest) (records : List ArtifactRecord)
    (r : ResolvedRuntimeComposition) : Prop where
  closed : ∀ consumer q, Requires declared records r consumer q →
    ∃ p, (r.providers.filter fun p => p.capability = q.capability) = [p] ∧
      Provides declared records r q p
  needed : ∀ c ∈ r.components, ∃ consumer q, Requires declared records r consumer q ∧
    consumer ≠ some c.id ∧
    ∃ p ∈ r.providers, p.capability = q.capability ∧ p.component = c.id

end ResolvedRuntimeComposition

open ResolvedRuntimeComposition

section Sound

variable {codec : Codec} {declared : RuntimeCompositionManifest} {records : List ArtifactRecord}
  {candidates : List Candidate} {s : Selection} {r : ResolvedRuntimeComposition}

/-- The stages of a successful resolution: the candidates are the records with their
contracts, the selection satisfies the invariant, and the result renders it. -/
theorem resolveRuntimeComposition_stages
    (h : resolveRuntimeComposition codec declared ⟨records⟩ = .ok r) :
    ∃ candidates s, UniqueIds candidates ∧
      (∀ c, c ∈ candidates ↔ c.record ∈ records ∧ c.record.component = some c.contract) ∧
      Inv declared candidates s [] ∧ finish codec declared s = .ok r := by
  simp only [resolveRuntimeComposition, Result.bind_ok] at h
  obtain ⟨-, -, -, -, collected, hcollect, s, hselect, hfinish⟩ := h
  obtain ⟨hrecords, hall, hnodup⟩ := collectCandidates_ok hcollect
  have hunique : UniqueIds (SortBy.sortBy candidateKey collected) := fun a ha b hb =>
    uniqueIds_of_nodup hnodup a (SortBy.mem_sortBy.mp ha) b (SortBy.mem_sortBy.mp hb)
  refine ⟨_, s, hunique, fun c => ?_, inv_of_resolveSelection hunique hselect, hfinish⟩
  rw [SortBy.mem_sortBy, ← hrecords, List.mem_map]
  constructor
  · intro hc
    exact ⟨⟨c, hc, rfl⟩, (candidateOf_ok (hall c hc).1).2.1⟩
  · rintro ⟨⟨d, hd, heq⟩, hcomponent⟩
    have hdc := (candidateOf_ok (hall d hd).1).2.1
    rw [heq, hcomponent] at hdc
    obtain ⟨record, contract⟩ := c
    obtain ⟨record', contract'⟩ := d
    cases heq
    cases hdc
    exact hd

/-- A component that stands for a candidate was selected as that candidate. -/
theorem selected_of_standsFor (hunique : UniqueIds candidates)
    (hmem : ∀ c, c ∈ candidates ↔ c.record ∈ records ∧ c.record.component = some c.contract)
    (hinv : Inv declared candidates s []) (hfinish : finish codec declared s = .ok r)
    {c : ResolvedRuntimeComponent} {candidate : Candidate} (hc : c ∈ r.components)
    (hstands : StandsFor records c candidate) : s.selected[c.id]? = some candidate := by
  obtain ⟨id, hid⟩ := (mem_components hinv hfinish).mp hc
  obtain ⟨chosen, hsel, rfl⟩ := resolvedComponent_eq_some.mp hid
  obtain ⟨hchosen, hcid⟩ := hinv.selected_mem id chosen hsel
  have hcandidate := (hmem candidate).mpr ⟨hstands.record_mem, hstands.component_eq⟩
  rw [← hunique chosen hchosen candidate hcandidate (hcid.trans hstands.id_eq.symm)]
  exact hsel

/-- What is required of a composition is demanded by its selection, and conversely. -/
theorem requires_iff (hunique : UniqueIds candidates)
    (hmem : ∀ c, c ∈ candidates ↔ c.record ∈ records ∧ c.record.component = some c.contract)
    (hinv : Inv declared candidates s []) (hfinish : finish codec declared s = .ok r)
    {consumer : Option String} {q : CapabilityRequirement} :
    Requires declared records r consumer q ↔ Demanded declared s (consumer, q) := by
  constructor
  · intro h
    cases h with
    | manifest hq => exact Or.inl ⟨rfl, hq⟩
    | component hc hstands hq =>
      exact Or.inr ⟨_, _, rfl, selected_of_standsFor hunique hmem hinv hfinish hc hstands, hq⟩
  · rintro (⟨hnone, hq⟩ | ⟨id, candidate, hid, hsel, hq⟩)
    · obtain rfl : consumer = none := hnone
      exact .manifest hq
    · obtain rfl : consumer = some id := hid
      obtain ⟨hcandidate, hcid⟩ := hinv.selected_mem id candidate hsel
      obtain ⟨hrecord, hcomponent⟩ := (hmem candidate).mp hcandidate
      have hc := (mem_components hinv hfinish).mpr
        ⟨id, resolvedComponent_eq_some.mpr ⟨candidate, hsel, rfl⟩⟩
      exact .component hc ⟨hrecord, hcomponent, hcid, rfl⟩ hq

/-- Every resolved composition is closed under its requirements, and every one of its
components provides for a requirement that is not its own. -/
theorem resolveRuntimeComposition_sound
    (h : resolveRuntimeComposition codec declared ⟨records⟩ = .ok r) :
    r.Sound declared records := by
  obtain ⟨candidates, s, hunique, hmem, hinv, hfinish⟩ := resolveRuntimeComposition_stages h
  refine ⟨fun consumer q hreq => ?_, fun c hc => ?_⟩
  · obtain ⟨provider, version, hprovider, haccepts, -⟩ :=
      hinv.met ((requires_iff hunique hmem hinv hfinish).mp hreq)
    obtain ⟨hsel, htarget, provision, hprovides, hcap, hversion⟩ :=
      hinv.provider_mem _ _ _ hprovider
    obtain ⟨hrecord, hcomponent⟩ := (hmem provider).mp (hinv.selected_mem _ _ hsel).1
    refine ⟨_, filter_providers hfinish hprovider, ⟨?_, haccepts⟩⟩
    refine ⟨_, (mem_components hinv hfinish).mpr
      ⟨_, resolvedComponent_eq_some.mpr ⟨provider, hsel, rfl⟩⟩, provider,
      ⟨hrecord, hcomponent, rfl, rfl⟩, rfl, rfl, htarget, provision, hprovides, hcap, hversion⟩
  · obtain ⟨id, hid⟩ := (mem_components hinv hfinish).mp hc
    obtain ⟨candidate, hsel, rfl⟩ := resolvedComponent_eq_some.mp hid
    obtain ⟨⟨consumer, q⟩, version, hdemanded, hne, hprovider⟩ := hinv.needed id candidate hsel
    refine ⟨consumer, q, (requires_iff hunique hmem hinv hfinish).mpr hdemanded, hne,
      resolvedProvider (q.capability, candidate, version), ?_, rfl,
      (hinv.selected_mem id candidate hsel).2⟩
    have := filter_providers hfinish hprovider
    exact List.mem_of_mem_filter (this ▸ List.mem_singleton_self _)

end Sound

/-! ## A sample composition -/

namespace RuntimeComposition.Sample

def artifactA : String := "sha256:" ++ String.ofList (List.replicate 64 'a')

def artifactB : String := "sha256:" ++ String.ofList (List.replicate 64 'b')

/-- A component with two environment contributions and two install mappings. -/
def contract (id : String) (provides : List CapabilityProvision)
    (requires : List CapabilityRequirement) : ComponentContract where
  schema := COMPONENT_SCHEMA
  id := id
  kind := .library
  version := "1.0"
  provides := provides
  requires := requires
  environment := [⟨"PATH", .prepend, ["bin"]⟩, ⟨"LIBPATH", .prepend, ["lib"]⟩]
  install := [⟨"bin", id ++ "/bin"⟩, ⟨"lib", id ++ "/lib"⟩]
  compatibility := .default
  descriptor := none
  descriptorSha256 := none
  cmake := none
  dependencies := none

def record (contract : ComponentContract) (digest : String) : ArtifactRecord where
  schema := RECORD_SCHEMA
  kind := .package
  name := contract.id
  version := contract.version
  target := "linux"
  profile := none
  digest := digest
  archive := contract.id ++ ".tar.zst"
  archiveSize := 1
  totalSize := 1
  fileCount := 1
  createdUnix := 0
  producer := none
  importedBy := "ost 0.23.19"
  source := .imported
  trust := .localOnly
  validation := "unknown"
  licenses := []
  sbom := none
  sbomDigest := none
  sbomSize := none
  provenance := none
  provenanceDigest := none
  provenanceSize := none
  runtimeId := none
  runtimeDigest := none
  openusdCompatibility := none
  openusdVerification := none
  sourceIdentity := none
  dependencyIdentities := []
  component := some contract

/-- A renderer that requires OpenUSD and Python, and a component that provides both. -/
def renderer : ComponentContract :=
  contract "renderer" [⟨"render", "2.0", true⟩] [⟨"usd", some ">=24", none⟩, ⟨"python", none, none⟩]

def usd : ComponentContract :=
  contract "usd" [⟨"usd", "24.11", true⟩, ⟨"python", "3.11", true⟩] []

def records : List ArtifactRecord := [record renderer artifactB, record usd artifactA]

def manifest : RuntimeCompositionManifest where
  schema := COMPOSITION_SCHEMA
  composition := ⟨"demo", "linux"⟩
  requirements := [⟨"render", none, none⟩]
  artifacts := [⟨artifactA, none⟩, ⟨artifactB, none⟩]
  providers := ∅

/-- SHA-256 on the two texts that are digested for the sample, told apart by their length. -/
def codec : Codec where
  sha256 bytes := bytesOfHex <| String.toList <|
    if bytes.length = 343 then
      "ae9468692dddf046f941d95e731fbcc9f795763823850ffbddeb0055ee50b791"
    else "e5639f4402ba424d3ae40b1951084b8765658885f1f01c9ac444b574e07336e6"
  parse _ := none

theorem validateFullDigest_replicate (field : String) {digit : Char}
    (h : Text.isLowerHexDigit digit) :
    validateFullDigest field ("sha256:" ++ String.ofList (List.replicate 64 digit)) = .ok () := by
  refine validateFullDigest_append field ?_ ?_
  · rw [String.length_ofList, List.length_replicate]
  · rw [Text.all, String.toList_ofList, List.all_replicate]
    simp [h]

theorem validateFullDigest_artifact (field : String) {digest : String}
    (h : digest ∈ [artifactA, artifactB]) : validateFullDigest field digest = .ok () := by
  rcases List.mem_pair.mp h with rfl | rfl
  · exact validateFullDigest_replicate field rfl
  · exact validateFullDigest_replicate field rfl

theorem validate_manifest : manifest.validate = .ok () := by
  have hdigest := fun digest h => @validateFullDigest_artifact "composition artifact" digest h
  have hartifacts : RuntimeCompositionManifest.validateArtifacts [] manifest.artifacts = .ok () := by
    simp only [manifest, RuntimeCompositionManifest.validateArtifacts,
      RuntimeCompositionManifest.validateArtifact, Result.bind_ok, Result.failIf_ok]
    exact ⟨(), ⟨(), hdigest _ (by simp), trivial⟩, (), by simp, (),
      ⟨(), hdigest _ (by simp), trivial⟩, (), by decide, trivial⟩
  simp only [RuntimeCompositionManifest.validate, Result.bind_ok, Result.failIf_ok]
  exact ⟨(), by decide, (), by decide, (), by decide, (), by simp [manifest], (),
    by simp [manifest], (), hartifacts, (), by decide, rfl⟩

theorem candidateOf_record {contract : ComponentContract} {digest : String}
    (hdigest : digest ∈ [artifactA, artifactB]) (hvalid : contract.validate = .ok ()) :
    candidateOf [artifactA, artifactB] (record contract digest) =
      .ok ⟨record contract digest, contract⟩ := by
  simp only [candidateOf, Result.bind_ok, Result.failIf_ok, Result.okOr_ok, not_not]
  refine ⟨(), hdigest, (), validateFullDigest_artifact _ hdigest, contract, rfl, (), hvalid, (), ?_,
    rfl⟩
  simp [record]

/-- Two components of the sample are resolved as their candidates are. -/
theorem resolve_pair (codec : Codec) {first second : ComponentContract} {x y : String}
    (hx : x ∈ [artifactA, artifactB]) (hy : y ∈ [artifactA, artifactB])
    (hfirst : first.validate = .ok ()) (hsecond : second.validate = .ok ())
    (hne : first.id ≠ second.id) :
    resolveRuntimeComposition codec manifest ⟨[record first x, record second y]⟩ =
      (do finish codec manifest (← resolveSelection manifest (SortBy.sortBy candidateKey
        [⟨record first x, first⟩, ⟨record second y, second⟩]))) := by
  have hcollect : collectCandidates [artifactA, artifactB] []
      [record first x, record second y] =
        .ok [⟨record first x, first⟩, ⟨record second y, second⟩] := by
    simp only [collectCandidates, Result.bind_ok, Result.failIf_ok]
    exact ⟨_, candidateOf_record hx hfirst, (), by simp, _,
      ⟨_, candidateOf_record hy hsecond, (), by simpa using hne.symm, [], rfl, rfl⟩, rfl⟩
  rw [resolveRuntimeComposition, validate_manifest]
  show (collectCandidates [artifactA, artifactB] [] [record first x, record second y] >>= _) = _
  rw [hcollect]
  rfl

theorem validate_renderer : renderer.validate = .ok () := by decide

theorem validate_usd : usd.validate = .ok () := by decide

theorem resolves :
    (resolveRuntimeComposition codec manifest ⟨records⟩).toOption.isSome := by
  rw [records, resolve_pair codec (by simp) (by simp) validate_renderer validate_usd (by decide)]
  decide

end RuntimeComposition.Sample

/-- The sample resolves, so its composition is sound. -/
theorem resolveRuntimeComposition_sound_sample :
    ∃ r, resolveRuntimeComposition Sample.codec Sample.manifest ⟨Sample.records⟩ = .ok r ∧
      r.Sound Sample.manifest Sample.records := by
  obtain ⟨r, hr⟩ := Result.exists_ok Sample.resolves
  exact ⟨r, hr, resolveRuntimeComposition_sound hr⟩

section Order

variable {codec : Codec} {declared : RuntimeCompositionManifest} {records : List ArtifactRecord}
  {r : ResolvedRuntimeComposition}

/-- Every component comes after the other components that provide what it requires. -/
def ResolvedRuntimeComposition.Ordered (declared : RuntimeCompositionManifest)
    (records : List ArtifactRecord) (r : ResolvedRuntimeComposition) : Prop :=
  ∀ pre c post, r.components = pre ++ c :: post →
    ∀ q, Requires declared records r (some c.id) q →
      ∀ p ∈ r.providers, p.capability = q.capability → p.component ≠ c.id →
        ∃ b ∈ pre, b.id = p.component

end Order

end OpenStrata
