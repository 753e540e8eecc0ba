import OpenStrata.Formation.Reordering

/-!
# Order independence of the resolver

No stage of the resolver tells a candidate from its canonical form, and the worklist does not
notice a requirement that is queued twice in a row. Reordered inputs therefore resolve to the
same composition, digests included.

## Main definitions

* `RuntimeComposition.Selection.canonical`: a selection of canonical candidates

## Main results

* `RuntimeComposition.visit_canonical`: an iteration does not distinguish canonical forms
* `RuntimeComposition.settles_initial`: a repeated requirement of the manifest changes nothing
* `RuntimeComposition.resolveSelection_reordered`: reordered inputs select alike
* `RuntimeComposition.finish_reordered`: and are rendered alike
* `resolveRuntimeComposition_reordered`: reordered inputs resolve to the same composition
-/

namespace OpenStrata

open Std (ExtTreeMap)
open SortBy (sortBy)

namespace RuntimeComposition

/-- A selection with its candidates in canonical form. -/
def Selection.canonical (s : Selection) : Selection where
  selected := s.selected.map fun _ => Candidate.canonical
  selectedProvider := s.selectedProvider.map fun _ x => (x.1.canonical, x.2)
  edges := s.edges

/-! ## The worklist -/

section Visit

variable {declared : RuntimeCompositionManifest} {candidates : List Candidate}

@[simp] theorem canonical_id (c : Candidate) : c.canonical.contract.id = c.contract.id := rfl

@[simp] theorem canonical_provides (c : Candidate) :
    c.canonical.contract.provides = c.contract.provides := rfl

@[simp] theorem candidateKey_canonical (c : Candidate) :
    candidateKey c.canonical = candidateKey c := rfl

@[simp] theorem targetMatches_canonical (target : String) (c : Candidate) :
    targetMatches target c.canonical = targetMatches target c := rfl

@[simp] theorem demandsOf_canonical (c : Candidate) : demandsOf c.canonical = demandsOf c := by
  simp [demandsOf, Candidate.canonical, ComponentContract.canonical]

/-- An offered provision with its candidate in canonical form. -/
def canonicalOffer (x : Candidate × CapabilityProvision) : Candidate × CapabilityProvision :=
  (x.1.canonical, x.2)

theorem byCapability_canonical (capability : String) :
    (byCapability (candidates.map Candidate.canonical))[capability]?.getD [] =
      ((byCapability candidates)[capability]?.getD []).map canonicalOffer := by
  have hgroup : ∀ cs : List Candidate, (byCapability cs)[capability]?.getD [] =
      cs.flatMap fun c => (c.contract.provides.filter fun p => p.capability = capability).map
        fun p => (c, p) := by
    intro cs
    have hfilter : ((cs.flatMap fun c => c.contract.provides.map fun p => (c, p)).filter
        fun x => x.2.capability = capability) =
        cs.flatMap fun c => (c.contract.provides.filter fun p => p.capability = capability).map
          fun p => (c, p) := by
      rw [List.filter_flatMap]
      simp only [List.filter_map]
      rfl
    rw [byCapability, TreeMap.getElem?_groupBy, hfilter]
    split_ifs with hnil
    · rw [hnil]
      rfl
    · rfl
  rw [hgroup, hgroup, List.flatMap_map, List.map_flatMap]
  simp only [List.map_map]
  rfl

theorem compatibleProviders_canonical (q : CapabilityRequirement) (pin : Option String)
    (offered : List (Candidate × CapabilityProvision)) :
    compatibleProviders q pin (offered.map canonicalOffer) =
      (compatibleProviders q pin offered).map (List.map canonicalOffer) := by
  induction offered with
  | nil => rfl
  | cons head rest ih =>
    obtain ⟨c, p⟩ := head
    show (if pin.any fun pin => pin ≠ c.contract.id then
        compatibleProviders q pin (rest.map canonicalOffer)
      else _) = _
    rw [compatibleProviders]
    split_ifs
    · exact ih
    · refine Result.bind_eq_map (g := id) (by cases acceptsVersion q p.version <;> rfl) fun b => ?_
      refine Result.bind_eq_map ih fun tail => ?_
      cases b <;> rfl

theorem targetCompatibleProviders_canonical (target : String) (q : CapabilityRequirement)
    (pin : Option String) (offered : List (Candidate × CapabilityProvision)) :
    targetCompatibleProviders target q pin (offered.map canonicalOffer) =
      (targetCompatibleProviders target q pin offered).map (List.map canonicalOffer) := by
  have hfilter : ((offered.map canonicalOffer).filter fun p => targetMatches target p.1) =
      (offered.filter fun p => targetMatches target p.1).map canonicalOffer := by
    rw [List.filter_map]
    rfl
  have hids : ∀ l : List (Candidate × CapabilityProvision),
      (l.map canonicalOffer).map (·.1.contract.id) = l.map (·.1.contract.id) := by
    intro l
    rw [List.map_map]
    rfl
  simp only [targetCompatibleProviders, hfilter, hids, List.map_eq_nil_iff, Result.failIf]
  split_ifs <;> rfl

theorem pickProvider_canonical (q : CapabilityRequirement) (pin : Option String)
    (compatible : List (Candidate × CapabilityProvision)) :
    pickProvider q pin (compatible.map canonicalOffer) =
      (pickProvider q pin compatible).map canonicalOffer := by
  cases compatible with
  | nil => rfl
  | cons first others =>
    have hsort : sortBy offerKey ((first :: others).map canonicalOffer) =
        (sortBy offerKey (first :: others)).map canonicalOffer :=
      (SortBy.map_sortBy canonicalOffer fun _ _ => rfl).symm
    have hhead : ((sortBy offerKey (first :: others)).map canonicalOffer).headD
        (canonicalOffer first) =
        canonicalOffer ((sortBy offerKey (first :: others)).headD first) := by
      cases sortBy offerKey (first :: others) <;> rfl
    have hids : ((first :: others).map canonicalOffer).map (·.1.contract.id) =
        (first :: others).map (·.1.contract.id) := by
      rw [List.map_map]
      rfl
    have hsingletons : ((first :: others).map canonicalOffer).map (·.2.singleton) =
        (first :: others).map (·.2.singleton) := by
      rw [List.map_map]
      rfl
    rw [List.map_cons] at hsort hids hsingletons ⊢
    simp only [pickProvider, hsort, hhead, hids, hsingletons, List.length_cons, List.length_map,
      Result.failIf]
    split_ifs <;> rfl

theorem chooseProvider_canonical (q : CapabilityRequirement) (pin : Option String) :
    chooseProvider declared (candidates.map Candidate.canonical) q pin =
      (chooseProvider declared candidates q pin).map canonicalOffer := by
  unfold chooseProvider
  simp only [byCapability_canonical]
  refine Result.bind_eq_map (targetCompatibleProviders_canonical _ _ _ _) fun matching => ?_
  exact Result.bind_eq_map (compatibleProviders_canonical _ _ _) fun compatible =>
    pickProvider_canonical _ _ _

/-- An iteration does not distinguish a candidate from its canonical form. -/
theorem visit_canonical (s : Selection) (d : Demand) :
    visit declared (candidates.map Candidate.canonical) s.canonical d =
      (visit declared candidates s d).map fun r => (r.1.canonical, r.2.map id) := by
  obtain ⟨consumer, q⟩ := d
  have hmap : ∀ {α : Type} (x : Result α), x = x.map id := fun x => by cases x <;> rfl
  refine Result.bind_eq_map (hmap _) fun _ => ?_
  refine Result.bind_eq_map (hmap _) fun pin => ?_
  have hprovider : s.canonical.selectedProvider[q.capability]? =
      s.selectedProvider[q.capability]?.map fun x => (x.1.canonical, x.2) := by
    simp [Selection.canonical]
  rw [hprovider]
  cases s.selectedProvider[q.capability]? with
  | some x =>
    refine Result.bind_eq_map (hmap _) fun _ => ?_
    cases consumer <;> rfl
  | none =>
    refine Result.bind_eq_map (chooseProvider_canonical q _) fun x => ?_
    obtain ⟨provider, provision⟩ := x
    have hselected : s.canonical.selected[provider.contract.id]?.isNone =
        s.selected[provider.contract.id]?.isNone := by
      simp [Selection.canonical]
    have hfirst : (select s.canonical consumer q.capability provider.canonical provision).1 =
        (select s consumer q.capability provider provision).1.canonical := by
      cases consumer <;> simp [select, Selection.canonical, Selection.addEdge]
    have hsecond : (select s.canonical consumer q.capability provider.canonical provision).2 =
        (select s consumer q.capability provider provision).2 := by
      rw [select_pushed, select_pushed, demandsOf_canonical, canonical_id, hselected]
    show Except.ok (select s.canonical consumer q.capability provider.canonical provision) =
      Except.ok _
    simp only [List.map_id, ← hfirst, ← hsecond]

/-- A requirement of the manifest that was just visited changes nothing when it is visited
again. -/
theorem settles_initial (q : CapabilityRequirement) :
    Worklist.Settles (visit declared candidates) (none, q) := by
  intro s s₁ pushed h
  have hcases := h
  simp only [visit, Result.bind_ok] at hcases ⊢
  obtain ⟨⟨⟩, hvalid, pin, hpin, hstep⟩ := hcases
  refine ⟨(), hvalid, pin, hpin, ?_⟩
  split at hstep
  · next provider version hsel =>
    simp only [Result.bind_ok] at hstep
    obtain ⟨⟨⟩, hcheck, hret⟩ := hstep
    cases hret
    rw [Selection.addEdge, hsel]
    exact Result.bind_ok.mpr ⟨(), hcheck, rfl⟩
  · next hsel =>
    simp only [Result.bind_ok] at hstep
    obtain ⟨⟨provider, provision⟩, hchoose, hret⟩ := hstep
    obtain ⟨-, -, -, -, heq, hversion⟩ := chooseProvider_ok hchoose
    have hs₁ : s₁.selectedProvider[q.capability]? = some (provider, provision.version) := by
      have := congrArg (·.1.selectedProvider) (Except.ok.inj hret)
      rw [← show _ = s₁.selectedProvider from this]
      simp
    rw [hs₁]
    exact Result.bind_ok.mpr ⟨(), checkSelected_ok.mpr ⟨heq, hversion⟩, rfl⟩

end Visit

section Selection

variable {declared declared' : RuntimeCompositionManifest} {candidates candidates' : List Candidate}
  {s : Selection}

theorem visit_congr (hcomposition : declared'.composition = declared.composition)
    (hproviders : declared'.providers = declared.providers) :
    visit declared' candidates = visit declared candidates := by
  funext s d
  simp only [visit, pinOf, chooseProvider, hcomposition, hproviders]

theorem pending_canonical (candidates : List Candidate) :
    pending (candidates.map Candidate.canonical) .empty = pending candidates .empty := by
  unfold pending
  rw [List.map_map]
  congr 1
  refine List.map_congr_left fun c _ => ?_
  simp [pendingOf, Candidate.canonical, ComponentContract.canonical]

/-- The resolver selects alike from candidates and from their canonical forms. -/
theorem resolveSelection_canonical :
    resolveSelection declared (candidates.map Candidate.canonical) =
      (resolveSelection declared candidates).map Selection.canonical := by
  unfold resolveSelection
  have hdrain := Worklist.drain_map (g := id) (@visit_canonical declared candidates)
    ((initialDemands declared).length + pending candidates .empty)
    ⟨initialDemands declared, .empty⟩
  have hempty : Selection.empty.canonical = Selection.empty := by
    simp [Selection.canonical, Selection.empty]
  rw [Worklist.Loop.map, List.map_id, hempty] at hdrain
  rw [pending_canonical]
  exact Result.bind_eq_map hdrain fun _ => rfl

/-- The selection depends on the manifest's requirements as a set. -/
theorem resolveSelection_congr (hcomposition : declared'.composition = declared.composition)
    (hproviders : declared'.providers = declared.providers)
    (hrequirements : ∀ q, q ∈ declared'.requirements ↔ q ∈ declared.requirements)
    (hinj : ∀ a ∈ declared.requirements, ∀ b ∈ declared.requirements,
      requirementKey a = requirementKey b → a = b)
    (h : resolveSelection declared candidates = .ok s) :
    resolveSelection declared' candidates = .ok s := by
  have hmem : ∀ d, d ∈ declared.requirements.map (fun q => ((none, q) : Demand)) ↔
      d ∈ declared'.requirements.map fun q => ((none, q) : Demand) := by
    intro d
    simp [hrequirements]
  have hkey : ∀ a ∈ declared.requirements.map (fun q => ((none, q) : Demand)),
      ∀ b ∈ declared.requirements.map (fun q => ((none, q) : Demand)),
        requirementKey a.2 = requirementKey b.2 → a = b := by
    intro a ha b hb hab
    obtain ⟨q, hq, rfl⟩ := List.mem_map.mp ha
    obtain ⟨q', hq', rfl⟩ := List.mem_map.mp hb
    rw [hinj q hq q' hq' hab]
  have hqueue : (initialDemands declared).destutter (· ≠ ·) =
      (initialDemands declared').destutter (· ≠ ·) :=
    SortBy.destutter_sortBy_eq hmem hkey
  have hsettles : ∀ m : RuntimeCompositionManifest, ∀ d ∈ initialDemands m,
      Worklist.Settles (visit declared candidates) d := by
    intro m d hd
    obtain ⟨q, -, rfl⟩ := List.mem_map.mp (SortBy.mem_sortBy.mp hd)
    exact settles_initial q
  have hdrained := drained_of_resolveSelection h
  rw [← Worklist.drained_destutter_iff (hsettles declared), hqueue,
    Worklist.drained_destutter_iff (hsettles declared')] at hdrained
  rw [resolveSelection, visit_congr hcomposition hproviders]
  exact Result.bind_ok.mpr ⟨_, hdrained.drain pending_visit le_rfl, rfl⟩

/-- Reordered manifests and candidates with the same canonical forms select alike. -/
theorem resolveSelection_reordered {u : Unit} (hm : declared.Reordered declared')
    (hvalid : declared.validate = .ok u)
    (hcandidates : candidates'.map Candidate.canonical = candidates.map Candidate.canonical)
    (h : resolveSelection declared candidates = .ok s) :
    ∃ s', resolveSelection declared' candidates' = .ok s' ∧ s'.canonical = s.canonical := by
  have hcanonical : resolveSelection declared (candidates.map Candidate.canonical) =
      .ok s.canonical := by
    rw [resolveSelection_canonical, h]
    rfl
  have hreordered := resolveSelection_congr hm.composition hm.providers hm.requirements
    (RuntimeCompositionManifest.requirementKey_inj_of_valid hvalid) hcanonical
  rw [← hcandidates, resolveSelection_canonical] at hreordered
  cases hs' : resolveSelection declared' candidates' with
  | error e =>
    rw [hs'] at hreordered
    cases hreordered
  | ok s' =>
    rw [hs'] at hreordered
    exact ⟨s', rfl, Except.ok.inj hreordered⟩

end Selection

/-! ## The stages after the worklist -/

section Finish

theorem checkSingletons_canonical (selected : List Candidate) :
    checkSingletons (selected.map Candidate.canonical) = checkSingletons selected := by
  simp only [checkSingletons, List.flatMap_map]
  rfl

theorem checkAbi_canonical (selected : List Candidate) :
    checkAbi (selected.map Candidate.canonical) = checkAbi selected := by
  simp only [checkAbi, List.filterMap_map]
  rfl

theorem forAll_map {α β : Type} (check : β → Result Unit) (f : α → β) (l : List α) :
    Result.forAll check (l.map f) = Result.forAll (fun a => check (f a)) l := by
  induction l with
  | nil => rfl
  | cons a l ih => rw [List.map_cons, Result.forAll, Result.forAll, ih]

theorem checkOpenusd_canonical (s : Selection) (selected : List Candidate) :
    checkOpenusd s.canonical.selectedProvider (selected.map Candidate.canonical) =
      checkOpenusd s.selectedProvider selected := by
  have hprovider : s.canonical.selectedProvider["usd"]? =
      s.selectedProvider["usd"]?.map fun x => (x.1.canonical, x.2) := by
    simp [Selection.canonical]
  unfold checkOpenusd
  rw [hprovider]
  cases s.selectedProvider["usd"]? with
  | none => rfl
  | some x => exact forAll_map _ _ _

theorem checkPins_canonical (declared : RuntimeCompositionManifest) (s : Selection) :
    checkPins declared s.canonical.selectedProvider = checkPins declared s.selectedProvider := by
  have hsome : ∀ capability : String, s.canonical.selectedProvider[capability]?.isNone =
      s.selectedProvider[capability]?.isNone := by
    intro capability
    simp [Selection.canonical]
  simp only [checkPins, hsome]

/-- The contributions to each variable keep their order in a canonical form. -/
theorem resolveEnvironment_canonical (selected : List Candidate) :
    resolveEnvironment (selected.map Candidate.canonical) = resolveEnvironment selected := by
  unfold resolveEnvironment
  rw [List.flatMap_map]
  refine congrArg (fun m : ExtTreeMap String (List (String × EnvironmentContribution)) =>
    resolveVariables m.toList) (TreeMap.groupBy_congr fun v => ?_)
  rw [List.filter_flatMap, List.filter_flatMap]
  congr 1
  funext c
  rw [List.filter_map, List.filter_map]
  exact congrArg _ (SortBy.filter_sortBy v c.contract.environment)

/-- Install mappings are collected when no two share a destination. -/
theorem collectInstall_iff {owners : ExtTreeMap String (String × String)}
    {mappings : List (Candidate × InstallMapping)} {resolved : List ResolvedInstallMapping} :
    collectInstall owners mappings = .ok resolved ↔
      (∀ x ∈ mappings, owners[installKey x.2]? = none) ∧
        (mappings.map fun x => installKey x.2).Nodup ∧
        resolved = mappings.map fun x =>
          { destination := normalizeRelativePath x.2.destination
            component := x.1.contract.id
            artifact := x.1.record.digest
            source := normalizeRelativePath x.2.source } := by
  induction mappings generalizing owners resolved with
  | nil => simp [collectInstall, eq_comm]
  | cons x rest ih =>
    obtain ⟨c, mapping⟩ := x
    rw [collectInstall]
    cases hown : owners[installKey mapping]? with
    | some owner =>
      constructor
      · intro h
        simp only at h
        cases h
      · rintro ⟨hnone, -⟩
        have := hnone _ List.mem_cons_self
        rw [hown] at this
        cases this
    | none =>
      simp only [Result.bind_ok, ih, List.map_cons, List.nodup_cons, List.mem_map]
      constructor
      · rintro ⟨tail, ⟨hnone, hnodup, rfl⟩, hret⟩
        cases hret
        have hne : ∀ x ∈ rest, installKey x.2 ≠ installKey mapping := by
          intro x hx heq
          have := hnone x hx
          rw [heq, ExtTreeMap.getElem?_insert_self] at this
          cases this
        refine ⟨?_, ⟨?_, hnodup⟩, rfl⟩
        · intro x hx
          rcases List.mem_cons.mp hx with rfl | hx
          · exact hown
          · rw [← TreeMap.getElem?_insert_of_ne (hne x hx).symm]
            exact hnone x hx
        · rintro ⟨x, hx, heq⟩
          exact hne x hx heq
      · rintro ⟨hnone, ⟨hnot, hnodup⟩, rfl⟩
        refine ⟨_, ⟨fun x hx => ?_, hnodup, rfl⟩, rfl⟩
        rw [TreeMap.getElem?_insert_of_ne fun heq => hnot ⟨x, hx, heq.symm⟩]
        exact hnone x (List.mem_cons_of_mem _ hx)

/-- The order of a component's install mappings does not matter. -/
theorem resolveInstall_reordered {selected selected' : List Candidate}
    (h : selected'.map Candidate.canonical = selected.map Candidate.canonical)
    {install : List ResolvedInstallMapping} (hok : resolveInstall selected = .ok install) :
    resolveInstall selected' = .ok install := by
  -- what is collected of a mapping, and that reordering permutes it
  let render (x : Candidate × InstallMapping) : String × ResolvedInstallMapping :=
    (installKey x.2,
      { destination := normalizeRelativePath x.2.destination
        component := x.1.contract.id
        artifact := x.1.record.digest
        source := normalizeRelativePath x.2.source })
  let mappings (l : List Candidate) := l.flatMap fun c => c.contract.install.map fun i => (c, i)
  have hcanonical : ∀ l : List Candidate,
      ((mappings (l.map Candidate.canonical)).map render).Perm ((mappings l).map render) := by
    intro l
    induction l with
    | nil => exact .nil
    | cons c l ih =>
      simp only [mappings, List.map_cons, List.flatMap_cons, List.map_append] at ih ⊢
      refine List.Perm.append ?_ ih
      rw [List.map_map, List.map_map]
      exact (SortBy.perm_sortBy InstallMapping.key c.contract.install).map _
  have hperm : ((mappings selected').map render).Perm ((mappings selected).map render) :=
    (hcanonical selected').symm.trans (h ▸ hcanonical selected)
  simp only [resolveInstall, Result.bind_ok, collectInstall_iff] at hok ⊢
  obtain ⟨resolved, ⟨-, hnodup, rfl⟩, hret⟩ := hok
  have hkeys : ∀ l : List Candidate, ((mappings l).map fun x => installKey x.2) =
      ((mappings l).map render).map (·.1) := fun l => by rw [List.map_map]; rfl
  have hvalues : ∀ l : List Candidate, ((mappings l).map fun x => (render x).2) =
      ((mappings l).map render).map (·.2) := fun l => by rw [List.map_map]; rfl
  have hnodup' : ((mappings selected').map fun x => installKey x.2).Nodup := by
    rw [hkeys, (hperm.map _).nodup_iff, ← hkeys]
    exact hnodup
  refine ⟨_, ⟨fun _ _ => ExtTreeMap.getElem?_empty, hnodup', rfl⟩, ?_⟩
  rw [← hret]
  refine congrArg Except.ok (SortBy.sortBy_eq_of_perm ?_ ?_)
  · show ((mappings selected').map fun x => (render x).2).Perm
      ((mappings selected).map fun x => (render x).2)
    rw [hvalues, hvalues]
    exact hperm.map _
  · -- distinct keys mean distinct destinations
    intro a ha b hb hab
    obtain ⟨x, hx, rfl⟩ := List.mem_map.mp ha
    obtain ⟨y, hy, rfl⟩ := List.mem_map.mp hb
    simp only [EmbeddingLike.apply_eq_iff_eq, Prod.mk.injEq] at hab
    have hxy : x = y := List.inj_on_of_nodup_map hnodup' hx hy (by
      simp only [installKey, hab.1])
    rw [hxy]

theorem resolvedComponent_canonical (s : Selection) (id : String) :
    resolvedComponent s.canonical.selected id = resolvedComponent s.selected id := by
  have hselected : s.canonical.selected[id]? = s.selected[id]?.map Candidate.canonical := by
    simp [Selection.canonical]
  unfold resolvedComponent
  rw [hselected]
  cases s.selected[id]? <;> rfl

theorem values_canonical (s : Selection) :
    TreeMap.values s.canonical.selected = (TreeMap.values s.selected).map Candidate.canonical :=
  TreeMap.values_map

theorem providers_canonical (s : Selection) :
    s.canonical.selectedProvider.toList.map resolvedProvider =
      s.selectedProvider.toList.map resolvedProvider := by
  simp only [Selection.canonical, ExtTreeMap.toList_map, List.map_map]
  rfl

variable {codec : Codec} {declared declared' : RuntimeCompositionManifest} {s s' : Selection}

/-- Selections with the same canonical form are rendered alike. -/
theorem finish_reordered {u : Unit} (hm : declared.Reordered declared')
    (hvalid : declared.validate = .ok u) (hs : s'.canonical = s.canonical)
    {r : ResolvedRuntimeComposition} (h : finish codec declared s = .ok r) :
    finish codec declared' s' = .ok r := by
  have hvalues : (TreeMap.values s'.selected).map Candidate.canonical =
      (TreeMap.values s.selected).map Candidate.canonical := by
    rw [← values_canonical, ← values_canonical, hs]
  have hpins : checkPins declared' s'.selectedProvider = checkPins declared s.selectedProvider := by
    rw [← checkPins_canonical, hs, checkPins_canonical]
    simp only [checkPins, hm.providers]
  have hsingletons : checkSingletons (TreeMap.values s'.selected) =
      checkSingletons (TreeMap.values s.selected) := by
    rw [← checkSingletons_canonical, hvalues, checkSingletons_canonical]
  have habi : checkAbi (TreeMap.values s'.selected) = checkAbi (TreeMap.values s.selected) := by
    rw [← checkAbi_canonical, hvalues, checkAbi_canonical]
  have hopenusd : checkOpenusd s'.selectedProvider (TreeMap.values s'.selected) =
      checkOpenusd s.selectedProvider (TreeMap.values s.selected) := by
    rw [← checkOpenusd_canonical, hvalues, hs, checkOpenusd_canonical]
  have horder : topologicalOrder s'.selected s'.edges = topologicalOrder s.selected s.edges := by
    have hkeys : s'.selected.keys = s.selected.keys := by
      have := congrArg (·.selected.keys) hs
      simpa [Selection.canonical] using this
    have hedges : s'.edges = s.edges := congrArg (·.edges) hs
    rw [topologicalOrder, topologicalOrder, hkeys, hedges]
  have henvironment : resolveEnvironment (TreeMap.values s'.selected) =
      resolveEnvironment (TreeMap.values s.selected) := by
    rw [← resolveEnvironment_canonical, hvalues, resolveEnvironment_canonical]
  have hcomponents : resolvedComponent s'.selected = resolvedComponent s.selected := by
    funext id
    rw [← resolvedComponent_canonical, hs, resolvedComponent_canonical]
  have hproviders : s'.selectedProvider.toList.map resolvedProvider =
      s.selectedProvider.toList.map resolvedProvider := by
    rw [← providers_canonical, hs, providers_canonical]
  have hdigest : declared'.digest codec = declared.digest codec := by
    unfold RuntimeCompositionManifest.digest
    rw [hm.canonical_eq hvalid]
  simp only [finish, Result.bind_ok, hpins, hsingletons, habi, hopenusd, horder, henvironment,
    hcomponents, hproviders, hdigest, hm.composition] at h ⊢
  obtain ⟨a₁, h₁, a₂, h₂, a₃, h₃, a₄, h₄, ids, hids, environment, henv, install, hinstall, hr⟩ := h
  exact ⟨a₁, h₁, a₂, h₂, a₃, h₃, a₄, h₄, ids, hids, environment, henv, install,
    resolveInstall_reordered hvalues hinstall, hr⟩

end Finish

end RuntimeComposition

open RuntimeComposition

/-- Reordered inputs resolve to the same composition, in every field. -/
theorem resolveRuntimeComposition_reordered {codec : Codec}
    {declared declared' : RuntimeCompositionManifest} {records records' : List ArtifactRecord}
    (hm : declared.Reordered declared') (hrecords : RecordsReordered records records')
    {r : ResolvedRuntimeComposition}
    (h : resolveRuntimeComposition codec declared ⟨records⟩ = .ok r) :
    resolveRuntimeComposition codec declared' ⟨records'⟩ = .ok r := by
  simp only [resolveRuntimeComposition, Result.bind_ok, Result.failIf_ok, not_not] at h ⊢
  obtain ⟨⟨⟩, hvalid, ⟨⟩, hlength, candidates, hcollect, s, hselect, hfinish⟩ := h
  have hdeclared : ∀ d, d ∈ declared'.artifacts.map (·.artifact) ↔
      d ∈ declared.artifacts.map (·.artifact) := fun d => hm.artifacts.mem_iff
  have hlength' : records'.length = declared'.artifacts.length := by
    obtain ⟨permuted, hperm, hrel⟩ := hrecords
    have := hm.artifacts.length_eq
    rw [List.length_map, List.length_map] at this
    rw [← hrel.length_eq, hperm.length_eq, hlength, this]
  obtain ⟨candidates', hcollect', hperm⟩ :=
    collectCandidates_reordered hdeclared hrecords hcollect
  obtain ⟨-, -, hnodup⟩ := collectCandidates_ok hcollect
  have hsorted : (sortBy candidateKey candidates').map Candidate.canonical =
      (sortBy candidateKey candidates).map Candidate.canonical := by
    rw [SortBy.map_sortBy Candidate.canonical fun c _ => candidateKey_canonical c,
      SortBy.map_sortBy Candidate.canonical fun c _ => candidateKey_canonical c]
    refine (SortBy.sortBy_eq_of_perm hperm.symm fun a ha b hb hab => ?_).symm
    obtain ⟨c, hc, rfl⟩ := List.mem_map.mp ha
    obtain ⟨d, hd, rfl⟩ := List.mem_map.mp hb
    have hid : c.contract.id = d.contract.id := by
      rw [candidateKey_canonical, candidateKey_canonical] at hab
      simp only [candidateKey, EmbeddingLike.apply_eq_iff_eq, Prod.mk.injEq] at hab
      exact hab.1
    rw [uniqueIds_of_nodup hnodup c hc d hd hid]
  obtain ⟨s', hselect', hcanonical⟩ := resolveSelection_reordered hm hvalid hsorted hselect
  exact ⟨(), hm.validate hvalid, (), hlength', candidates', hcollect', s', hselect',
    finish_reordered hm hvalid hcanonical hfinish⟩

namespace RuntimeComposition.Sample

/-- The renderer with its requirements, environment and install mappings in reverse. -/
def rendererReversed : ComponentContract :=
  { renderer with
    requires := renderer.requires.reverse
    environment := renderer.environment.reverse
    install := renderer.install.reverse }

def recordsReordered : List ArtifactRecord :=
  [record usd artifactA, record rendererReversed artifactB]

/-- The sample manifest with its artifacts swapped, a locator added and its requirement
repeated. -/
def manifestReordered : RuntimeCompositionManifest :=
  { manifest with
    requirements := [⟨"render", none, none⟩, ⟨"render", none, none⟩]
    artifacts := [⟨artifactB, some ("oci://ghcr.io/acme/renderer@" ++ artifactB)⟩,
      ⟨artifactA, none⟩] }

/-- The sample manifest with a locator that is not pinned. -/
def manifestMutable : RuntimeCompositionManifest :=
  { manifest with
    artifacts := [⟨artifactA, some "oci://ghcr.io/acme/usd:latest"⟩, ⟨artifactB, none⟩] }

theorem renderer_reordered : renderer.Reordered rendererReversed where
  requires := List.reverse_perm _
  environment := List.reverse_perm _
  environment_order v := by
    simp only [rendererReversed, renderer, contract, List.reverse_cons, List.reverse_nil,
      List.nil_append, List.cons_append, List.filter_cons, List.filter_nil]
    by_cases hpath : "PATH" = v
    · have hlib : ¬ "LIBPATH" = v := by rw [← hpath]; decide
      simp [hpath, hlib]
    · simp [hpath]
  install := List.reverse_perm _
  rest := rfl

theorem records_reordered : RecordsReordered records recordsReordered := by
  refine ⟨[record usd artifactA, record renderer artifactB], .swap _ _ _, ?_⟩
  have husd : usd.Reordered usd := ⟨.refl _, .refl _, fun _ => rfl, .refl _, rfl⟩
  exact .cons ⟨.some husd, rfl⟩ (.cons ⟨.some renderer_reordered, rfl⟩ .nil)

theorem manifest_reordered : manifest.Reordered manifestReordered where
  schema := rfl
  composition := rfl
  providers := rfl
  requirements q := by simp [manifestReordered, manifest]
  artifacts := .swap _ _ _
  sources a ha source hsource := by
    have hpinned : PinnedLocator ("oci://ghcr.io/acme/renderer@" ++ artifactB) :=
      ⟨.oci ⟨"ghcr.io", "acme/renderer", none, some artifactB⟩, by decide, rfl⟩
    have hmem : a.source = none ∨ a.source = some ("oci://ghcr.io/acme/renderer@" ++ artifactB) := by
      simp only [manifestReordered, List.mem_cons, List.not_mem_nil, or_false] at ha
      rcases ha with rfl | rfl
      · exact Or.inr rfl
      · exact Or.inl rfl
    rcases hmem with hnone | hsome
    · rw [hnone] at hsource
      cases hsource
    · rw [hsome] at hsource
      cases hsource
      exact hpinned

end RuntimeComposition.Sample

/-- The reordered sample resolves to the composition of the sample. -/
theorem resolveRuntimeComposition_reordered_sample :
    ∃ r, resolveRuntimeComposition Sample.codec Sample.manifest ⟨Sample.records⟩ = .ok r ∧
      resolveRuntimeComposition Sample.codec Sample.manifestReordered
        ⟨Sample.recordsReordered⟩ = .ok r := by
  obtain ⟨r, hr⟩ := Result.exists_ok Sample.resolves
  exact ⟨r, hr, resolveRuntimeComposition_reordered Sample.manifest_reordered
    Sample.records_reordered hr⟩

/-- A locator that is replaced by a mutable one stops the resolution. -/
theorem resolveRuntimeComposition_mutable_source :
    (resolveRuntimeComposition Sample.codec Sample.manifest ⟨Sample.records⟩).toOption.isSome ∧
      resolveRuntimeComposition Sample.codec Sample.manifestMutable ⟨Sample.records⟩ =
        .error (.ofCode "COMPOSITION_SOURCE_MUTABLE" .configuration
          "composition sources must be digest-pinned") := by
  have hvalidate : Sample.manifestMutable.validate =
      .error (.ofCode "COMPOSITION_SOURCE_MUTABLE" .configuration
        "composition sources must be digest-pinned") := by decide
  refine ⟨Sample.resolves, ?_⟩
  rw [resolveRuntimeComposition, hvalidate]
  rfl

end OpenStrata
