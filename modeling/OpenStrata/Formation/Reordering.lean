import OpenStrata.Formation.Closure

/-!
# Reordered inputs

The changes to a composition's inputs that are not to reach its result: the order and
repetition of set-like lists, and the locators of artifacts. Manifests, contracts and
candidates are put into canonical forms, and reordered inputs have the same ones.

## Main definitions

* `RuntimeCompositionManifest.Reordered`, `RecordsReordered`: the permitted changes
* `Candidate.canonical`: the canonical form of a candidate

## Main results

* `RuntimeCompositionManifest.Reordered.validate`: a reordered manifest is valid
* `RuntimeCompositionManifest.Reordered.canonical_eq`: it has the same canonical form
* `RuntimeComposition.collectCandidates_reordered`: reordered records give the same candidates
-/

namespace OpenStrata

open Std (ExtTreeMap)
open SortBy (sortBy)

/-! ## Permitted changes -/

/-- A contract with its requirements and install mappings permuted, and its environment
permuted so that the contributions to each variable keep their order. -/
structure ComponentContract.Reordered (c c' : ComponentContract) : Prop where
  requires : c'.requires.Perm c.requires
  environment : c'.environment.Perm c.environment
  environment_order : ∀ v, (c'.environment.filter fun e => e.variableName = v) =
    c.environment.filter fun e => e.variableName = v
  install : c'.install.Perm c.install
  rest : c' = { c with
    requires := c'.requires, environment := c'.environment, install := c'.install }

/-- A record with its contract reordered. -/
structure ArtifactRecord.Reordered (a a' : ArtifactRecord) : Prop where
  component : Option.Rel ComponentContract.Reordered a.component a'.component
  rest : a' = { a with component := a'.component }

/-- Records permuted, each with its contract reordered. -/
def RecordsReordered (records records' : List ArtifactRecord) : Prop :=
  ∃ permuted, permuted.Perm records ∧ List.Forall₂ ArtifactRecord.Reordered permuted records'

/-- A locator that a composition manifest admits. -/
def PinnedLocator (source : String) : Prop :=
  ∃ reference, RemoteReference.parse source = .ok reference ∧ reference.isPinned

/-- A manifest with its artifacts permuted, their locators replaced or removed, and its
requirements permuted and repeated. -/
structure RuntimeCompositionManifest.Reordered (m m' : RuntimeCompositionManifest) : Prop where
  schema : m'.schema = m.schema
  composition : m'.composition = m.composition
  providers : m'.providers = m.providers
  requirements : ∀ q, q ∈ m'.requirements ↔ q ∈ m.requirements
  artifacts : (m'.artifacts.map (·.artifact)).Perm (m.artifacts.map (·.artifact))
  sources : ∀ a ∈ m'.artifacts, ∀ source, a.source = some source → PinnedLocator source

/-! ## Manifests -/

namespace RuntimeCompositionManifest

variable {m m' : RuntimeCompositionManifest}

theorem validateArtifact_ok {a : CompositionArtifactRef} {u : Unit} :
    validateArtifact a = .ok u ↔
      validateFullDigest "composition artifact" a.artifact = .ok () ∧
        ∀ source, a.source = some source → PinnedLocator source := by
  simp only [validateArtifact, Result.bind_ok, PinnedLocator]
  cases a.source with
  | none =>
    constructor
    · rintro ⟨⟨⟩, hfull, -⟩
      exact ⟨hfull, by simp⟩
    · rintro ⟨hfull, -⟩
      exact ⟨(), hfull, rfl⟩
  | some source =>
    simp only [Result.bind_ok, Result.failIf_ok, not_not]
    constructor
    · rintro ⟨⟨⟩, hfull, reference, hparse, hpinned⟩
      refine ⟨hfull, ?_⟩
      rintro _ ⟨⟩
      exact ⟨reference, hparse, hpinned⟩
    · rintro ⟨hfull, hsource⟩
      obtain ⟨reference, hparse, hpinned⟩ := hsource source rfl
      exact ⟨(), hfull, reference, hparse, hpinned⟩

theorem validateArtifacts_ok {digests : List String} {artifacts : List CompositionArtifactRef}
    {u : Unit} :
    validateArtifacts digests artifacts = .ok u ↔
      (∀ a ∈ artifacts, validateArtifact a = .ok () ∧ a.artifact ∉ digests) ∧
        (artifacts.map (·.artifact)).Nodup := by
  induction artifacts generalizing digests with
  | nil => simp [validateArtifacts]
  | cons a rest ih =>
    simp only [validateArtifacts, Result.bind_ok, Result.failIf_ok, ih, List.map_cons,
      List.nodup_cons, List.mem_map]
    constructor
    · rintro ⟨⟨⟩, ha, ⟨⟩, hnew, hrest, hnodup⟩
      refine ⟨?_, ?_, hnodup⟩
      · intro b hb
        rcases List.mem_cons.mp hb with rfl | hb
        · exact ⟨ha, hnew⟩
        · exact ⟨(hrest b hb).1, fun h => (hrest b hb).2 (List.mem_cons_of_mem _ h)⟩
      · rintro ⟨b, hb, heq⟩
        exact (hrest b hb).2 (heq ▸ List.mem_cons_self)
    · rintro ⟨hall, hnot, hnodup⟩
      obtain ⟨ha, hnew⟩ := hall a List.mem_cons_self
      refine ⟨(), ha, (), hnew, fun b hb => ?_, hnodup⟩
      obtain ⟨hb', hbnew⟩ := hall b (List.mem_cons_of_mem _ hb)
      refine ⟨hb', fun h => ?_⟩
      rcases List.mem_cons.mp h with heq | h
      · exact hnot ⟨b, hb, heq⟩
      · exact hbnew h

theorem Reordered.validate (h : m.Reordered m') {u : Unit} (hvalid : m.validate = .ok u) :
    m'.validate = .ok () := by
  simp only [RuntimeCompositionManifest.validate, Result.bind_ok, Result.failIf_ok, not_not,
    Result.forAll_ok, validateArtifacts_ok, h.schema, h.composition, h.providers] at hvalid ⊢
  obtain ⟨⟨⟩, hschema, ⟨⟩, hname, ⟨⟩, htarget, ⟨⟩, hreqs, ⟨⟩, harts, ⟨⟩, ⟨hall, hnodup⟩, ⟨⟩,
    hrequirements, hproviders⟩ := hvalid
  refine ⟨(), hschema, (), hname, (), htarget, (), ?_, (), ?_, (), ⟨?_, ?_⟩, (), ?_,
    hproviders⟩
  · rintro hnil
    refine hreqs (List.eq_nil_iff_forall_not_mem.mpr fun q hq => ?_)
    rw [← h.requirements, hnil] at hq
    cases hq
  · rintro hnil
    have := h.artifacts.length_eq
    simp [hnil] at this
    exact harts (List.eq_nil_of_length_eq_zero this.symm)
  · intro a ha
    obtain ⟨b, hb, heq⟩ := List.mem_map.mp
      (h.artifacts.mem_iff.mp (List.mem_map_of_mem ha))
    have hfull := (validateArtifact_ok.mp (hall b hb).1).1
    exact ⟨validateArtifact_ok.mpr ⟨heq ▸ hfull, h.sources a ha⟩, List.not_mem_nil⟩
  · exact h.artifacts.nodup_iff.mpr hnodup
  · intro q hq
    exact hrequirements q ((h.requirements q).mp hq)

end RuntimeCompositionManifest

namespace RuntimeComposition

theorem validateRequirement_ok {q : CapabilityRequirement} {u : Unit}
    (h : validateRequirement q = .ok u) : q.version ≠ some "" ∧ q.provider ≠ some "" := by
  simp only [validateRequirement, Result.bind_ok] at h
  obtain ⟨⟨⟩, -, ⟨⟩, hprovider, hversion⟩ := h
  constructor
  · intro hv
    rw [hv] at hversion
    simp only [validateRange, Result.bind_ok, Result.failIf_ok] at hversion
    obtain ⟨⟨⟩, hempty, -⟩ := hversion
    exact hempty (by decide)
  · intro hp
    rw [hp] at hprovider
    simp only [validatePin, portableId, Result.failIf_ok, not_not] at hprovider
    exact absurd hprovider (by decide)

theorem requirementKey_inj {a b : CapabilityRequirement}
    (ha : a.version ≠ some "" ∧ a.provider ≠ some "")
    (hb : b.version ≠ some "" ∧ b.provider ≠ some "")
    (h : requirementKey a = requirementKey b) : a = b := by
  have hgetD : ∀ {x y : Option String}, x ≠ some "" → y ≠ some "" →
      x.getD "" = y.getD "" → x = y := by
    intro x y hx hy hxy
    cases x <;> cases y <;> simp_all
  obtain ⟨capability, version, provider⟩ := a
  obtain ⟨capability', version', provider'⟩ := b
  simp only [requirementKey, EmbeddingLike.apply_eq_iff_eq, Prod.mk.injEq] at h
  obtain ⟨rfl, hversion, hprovider⟩ := h
  obtain rfl : version = version' := hgetD ha.1 hb.1 hversion
  obtain rfl : provider = provider' := hgetD ha.2 hb.2 hprovider
  rfl

end RuntimeComposition

open RuntimeComposition

theorem RuntimeCompositionManifest.requirementKey_inj_of_valid {m : RuntimeCompositionManifest}
    {u : Unit} (h : m.validate = .ok u) :
    ∀ a ∈ m.requirements, ∀ b ∈ m.requirements, requirementKey a = requirementKey b → a = b := by
  simp only [RuntimeCompositionManifest.validate, Result.bind_ok, Result.forAll_ok] at h
  obtain ⟨-, -, -, -, -, -, -, -, -, -, -, -, -, hrequirements, -⟩ := h
  exact fun a ha b hb => requirementKey_inj (validateRequirement_ok (hrequirements a ha))
    (validateRequirement_ok (hrequirements b hb))

/-- Reordered manifests have one canonical form, and so one digest. -/
theorem RuntimeCompositionManifest.Reordered.canonical_eq {m m' : RuntimeCompositionManifest}
    (h : m.Reordered m') {u : Unit} (hvalid : m.validate = .ok u) :
    m'.canonical = m.canonical := by
  have hstrip : ∀ l : List CompositionArtifactRef,
      (l.map fun a => { a with source := none }) =
        (l.map (·.artifact)).map fun d => (⟨d, none⟩ : CompositionArtifactRef) := by
    intro l
    simp
  have hartifacts : sortBy (·.artifact) (m'.artifacts.map fun a => { a with source := none }) =
      sortBy (·.artifact) (m.artifacts.map fun a => { a with source := none }) := by
    rw [hstrip, hstrip]
    refine SortBy.sortBy_eq_of_perm (h.artifacts.map _) ?_
    intro a ha b hb heq
    obtain ⟨d, -, rfl⟩ := List.mem_map.mp ha
    obtain ⟨d', -, rfl⟩ := List.mem_map.mp hb
    exact congrArg (fun d => (⟨d, none⟩ : CompositionArtifactRef)) heq
  have hrequirements : (sortBy requirementKey m'.requirements).destutter (· ≠ ·) =
      (sortBy requirementKey m.requirements).destutter (· ≠ ·) :=
    (SortBy.destutter_sortBy_eq (fun q => (h.requirements q).symm)
      (requirementKey_inj_of_valid hvalid)).symm
  unfold RuntimeCompositionManifest.canonical
  rw [hartifacts, hrequirements, h.schema, h.composition, h.providers]

/-! ## Canonical candidates -/

/-- Install mappings by destination and source. -/
def InstallMapping.key (mapping : InstallMapping) : String ×ₗ String :=
  toLex (mapping.destination, mapping.source)

/-- A contract with its set-like lists in order. -/
def ComponentContract.canonical (c : ComponentContract) : ComponentContract :=
  { c with
    requires := sortBy requirementKey c.requires
    environment := sortBy (·.variableName) c.environment
    install := sortBy InstallMapping.key c.install }

/-- A candidate with its contract in canonical form; the record's own copy is dropped. -/
def Candidate.canonical (c : Candidate) : Candidate where
  record := { c.record with component := none }
  contract := c.contract.canonical

namespace ComponentContract

variable {c c' : ComponentContract}

theorem validateRequirement_key (q : CapabilityRequirement)
    (h : ComponentContract.validateRequirement q = .ok ()) :
    q.version ≠ some "" ∧ q.provider ≠ some "" := by
  obtain ⟨-, hversion, hprovider⟩ := validateRequirement_ok.mp h
  exact ⟨fun hv => absurd (hversion "" hv) (by decide),
    fun hp => absurd (hprovider "" hp) (by decide)⟩

theorem Reordered.validate (h : c.Reordered c') (hvalid : c.validate = .ok ()) :
    c'.validate = .ok () := by
  rw [h.rest]
  simp only [ComponentContract.validate, Result.bind_ok, Result.forAll_ok] at hvalid ⊢
  obtain ⟨a₁, h₁, a₂, h₂, a₃, h₃, a₄, h₄, a₅, h₅, a₆, h₆, h₇⟩ := hvalid
  exact ⟨a₁, h₁, a₂, h₂, a₃, h₃, a₄, h₄, a₅, fun q hq => h₅ q (h.requires.mem_iff.mp hq), a₆,
    fun e he => h₆ e (h.environment.mem_iff.mp he), fun i hi => h₇ i (h.install.mem_iff.mp hi)⟩

/-- Reordered contracts have one canonical form. -/
theorem Reordered.canonical_eq (h : c.Reordered c') (hvalid : c.validate = .ok ()) :
    c'.canonical = c.canonical := by
  obtain ⟨-, -, hrequires⟩ := validate_ok hvalid
  have h₁ : sortBy requirementKey c'.requires = sortBy requirementKey c.requires := by
    refine SortBy.sortBy_eq_of_perm h.requires fun a ha b hb => ?_
    exact requirementKey_inj
      (validateRequirement_key a (hrequires a (h.requires.mem_iff.mp ha)))
      (validateRequirement_key b (hrequires b (h.requires.mem_iff.mp hb)))
  have h₂ : sortBy (·.variableName) c'.environment = sortBy (·.variableName) c.environment :=
    SortBy.sortBy_eq_of_filter_eq h.environment_order
  have h₃ : sortBy InstallMapping.key c'.install = sortBy InstallMapping.key c.install := by
    refine SortBy.sortBy_eq_of_perm h.install fun a _ b _ hkey => ?_
    obtain ⟨source, destination⟩ := a
    obtain ⟨source', destination'⟩ := b
    simp only [InstallMapping.key, EmbeddingLike.apply_eq_iff_eq, Prod.mk.injEq] at hkey
    rw [hkey.1, hkey.2]
  unfold canonical
  rw [h₁, h₂, h₃, h.rest]

end ComponentContract

namespace RuntimeComposition

section Collect

variable {declared declared' ids : List String} {records records' : List ArtifactRecord}
  {candidates : List Candidate}

/-- The candidates are collected one by one, their ids being distinct. -/
theorem collectCandidates_iff :
    collectCandidates declared ids records = .ok candidates ↔
      List.Forall₂ (fun a c => candidateOf declared a = .ok c) records candidates ∧
        (∀ c ∈ candidates, c.contract.id ∉ ids) ∧
        (candidates.map (·.contract.id)).Nodup := by
  induction records generalizing ids candidates with
  | nil =>
    simp only [collectCandidates, Except.ok.injEq, List.forall₂_nil_left_iff]
    constructor
    · rintro rfl
      simp
    · rintro ⟨rfl, -⟩
      rfl
  | cons record rest ih =>
    simp only [collectCandidates, Result.bind_ok, Result.failIf_ok, ih]
    constructor
    · rintro ⟨c, hc, ⟨⟩, hnew, tail, ⟨hall, hnot, hnodup⟩, hret⟩
      cases hret
      refine ⟨.cons hc hall, ?_, ?_⟩
      · intro d hd
        rcases List.mem_cons.mp hd with rfl | hd
        · exact hnew
        · exact fun h => hnot d hd (List.mem_cons_of_mem _ h)
      · rw [List.map_cons, List.nodup_cons]
        refine ⟨fun hmem => ?_, hnodup⟩
        obtain ⟨d, hd, heq⟩ := List.mem_map.mp hmem
        exact hnot d hd (heq ▸ List.mem_cons_self)
    · rintro ⟨hall, hnot, hnodup⟩
      cases hall with
      | @cons _ c _ tail hc hall =>
        rw [List.map_cons, List.nodup_cons] at hnodup
        refine ⟨c, hc, (), hnot c List.mem_cons_self, tail, ⟨hall, fun d hd h => ?_, hnodup.2⟩,
          rfl⟩
        rcases List.mem_cons.mp h with heq | h
        · exact hnodup.1 (heq ▸ List.mem_map_of_mem hd)
        · exact hnot d (List.mem_cons_of_mem _ hd) h

theorem candidateOf_reordered (hdeclared : ∀ d, d ∈ declared' ↔ d ∈ declared)
    {a a' : ArtifactRecord} (h : a.Reordered a') {c : Candidate}
    (hc : candidateOf declared a = .ok c) :
    ∃ c', candidateOf declared' a' = .ok c' ∧ c'.canonical = c.canonical := by
  obtain ⟨hrecord, hcomponent, hvalid, -⟩ := candidateOf_ok hc
  have hrel := h.component
  rw [hcomponent] at hrel
  cases ha' : a'.component with
  | none =>
    rw [ha'] at hrel
    cases hrel
  | some contract' =>
    rw [ha'] at hrel
    cases hrel with
    | some hcontract =>
      have hdigest : a'.digest = a.digest := by rw [h.rest]
      have hname : a'.name = a.name := by rw [h.rest]
      have hversion : a'.version = a.version := by rw [h.rest]
      have hid : contract'.id = c.contract.id := by rw [hcontract.rest]
      have hcversion : contract'.version = c.contract.version := by rw [hcontract.rest]
      refine ⟨⟨a', contract'⟩, ?_, ?_⟩
      · simp only [candidateOf, Result.bind_ok, Result.failIf_ok, Result.okOr_ok] at hc ⊢
        obtain ⟨⟨⟩, hmem, ⟨⟩, hfull, contract, hcontract', ⟨⟩, -, ⟨⟩, hsame, hret⟩ := hc
        cases hret
        refine ⟨(), ?_, (), ?_, contract', ha', (), hcontract.validate hvalid, (), ?_, rfl⟩
        · rwa [hdigest, hdeclared]
        · rwa [hdigest]
        · rwa [hid, hcversion, hname, hversion]
      · unfold Candidate.canonical
        rw [hcontract.canonical_eq hvalid, h.rest, hrecord]

/-- Reordered records give the same canonical candidates, up to their order. -/
theorem collectCandidates_reordered (hdeclared : ∀ d, d ∈ declared' ↔ d ∈ declared)
    (h : RecordsReordered records records')
    (hc : collectCandidates declared [] records = .ok candidates) :
    ∃ candidates', collectCandidates declared' [] records' = .ok candidates' ∧
      (candidates'.map Candidate.canonical).Perm (candidates.map Candidate.canonical) := by
  obtain ⟨permuted, hperm, hrel⟩ := h
  obtain ⟨hall, -, hnodup⟩ := collectCandidates_iff.mp hc
  have hpointwise : ∀ {l l' : List ArtifactRecord} {cs : List Candidate},
      List.Forall₂ (fun a c => candidateOf declared a = .ok c) l cs →
      List.Forall₂ ArtifactRecord.Reordered l l' →
      ∃ cs', List.Forall₂ (fun a c => candidateOf declared' a = .ok c) l' cs' ∧
        cs'.map Candidate.canonical = cs.map Candidate.canonical := by
    intro l l' cs hl hl'
    induction hl generalizing l' with
    | nil =>
      cases hl'
      exact ⟨[], .nil, rfl⟩
    | cons hac _ ih =>
      cases hl' with
      | cons haa' hl' =>
        obtain ⟨c', hc', hcanon⟩ := candidateOf_reordered hdeclared haa' hac
        obtain ⟨cs', hcs', hcanons⟩ := ih hl'
        exact ⟨c' :: cs', .cons hc' hcs', by simp [hcanon, hcanons]⟩
  obtain ⟨cs, hcs, hcsPerm⟩ : ∃ cs, List.Forall₂
      (fun a c => candidateOf declared a = .ok c) permuted cs ∧ cs.Perm candidates := by
    obtain ⟨cs, hcs, hcsPerm⟩ := List.perm_comp_forall₂ hperm hall
    exact ⟨cs, hcs, hcsPerm⟩
  obtain ⟨cs', hcs', hcanons⟩ := hpointwise hcs hrel
  have hcanonPerm : (cs'.map Candidate.canonical).Perm (candidates.map Candidate.canonical) := by
    rw [hcanons]
    exact hcsPerm.map _
  refine ⟨cs', collectCandidates_iff.mpr ⟨hcs', fun _ _ => List.not_mem_nil, ?_⟩, hcanonPerm⟩
  have hids : ∀ l : List Candidate, (l.map Candidate.canonical).map (·.contract.id) =
      l.map (·.contract.id) := by
    intro l
    simp [Candidate.canonical, ComponentContract.canonical]
  rw [← hids, (hcanonPerm.map _).nodup_iff, hids]
  exact hnodup

end Collect

end RuntimeComposition

end OpenStrata
