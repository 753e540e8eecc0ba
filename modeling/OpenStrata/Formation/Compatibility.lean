import OpenStrata.Formation.Closure
import OpenStrata.Formation.Resolve

/-!
# The compatibility gate

What a resolved Formation has been held to: the facts that records, component contracts and
bundle manifests state about the runtime that they need. Resolution checks them all but three
facts of a component contract, its targets, its OpenUSD range and its capabilities, which are
checked where components are composed into a runtime and not here.

## Main definitions

* `RecordFits`, `ContractFits`, `BundleFits`: the stated facts hold for a runtime
* `Gate`: they hold for every component, and no bundle comes twice
* `Unchecked`: the facts of contracts that resolution does not look at

## Main results

* `gate_iff`: the gate holds for a resolved Formation exactly when the unchecked facts do
-/

namespace OpenStrata.Formation

open OpenStrata.Plugin (Compatible InRange LoadedBundle RuntimeContext firstFailure_eq_none)
open OpenStrata.Runtime (Layout RuntimeManifest)

/-! ## Facts -/

/-- What a record states about its runtime. -/
structure RecordFits (runtime : RuntimeManifest) (record : ArtifactRecord) : Prop where
  target : record.target ∈ runtimeTargets runtime
  runtimeId : ∀ id, record.runtimeId = some id → id = runtime.id
  runtimeDigest : ∀ digest, record.runtimeDigest = some digest → digest = runtime.digest
  profile : ∀ profile, record.profile = some profile → profile = runtime.profile

/-- The accepted targets, the OpenUSD range and the capabilities of a contract. -/
structure Unchecked (runtime : RuntimeManifest) (contract : ComponentContract) : Prop where
  targets : contract.compatibility.targets ≠ [] →
    ∃ target ∈ contract.compatibility.targets, target ∈ runtimeTargets runtime
  openusd : ∀ range version, contract.compatibility.openusd = some range →
    (runtimeContext runtime).openusdVersion = some version → InRange version range
  requires : ∀ requirement ∈ contract.requires, requirement.capability ∈ runtime.capabilities

/-- What a component contract states about its runtime. -/
structure ContractFits (runtime : RuntimeManifest) (contract : ComponentContract) : Prop
    extends Unchecked runtime contract where
  abi : ∀ abi, contract.compatibility.abi = some abi → (runtimeContext runtime).cxxAbi = some abi

/-- What a bundle manifest asks of the runtime. -/
structure BundleFits (runtime : RuntimeManifest) (context : RuntimeContext)
    (bundle : LoadedBundle) : Prop where
  capabilities : ∀ capability ∈ bundle.capabilities, capability ∈ runtime.capabilities
  compatible : Compatible bundle context

def bundleNames (components : List ComponentInput) : List String :=
  components.flatMap fun component => component.bundles.map fun bundle => bundle.plugin.name

/-- Every stated fact holds for the pinned runtime, and no plugin comes from two bundles. -/
structure Gate (input : ResolutionInput) : Prop where
  records : ∀ component ∈ input.components, RecordFits input.runtimeManifest component.record
  contracts : ∀ component ∈ input.components, ∀ contract,
    component.record.component = some contract → ContractFits input.runtimeManifest contract
  bundles : ∀ component ∈ input.components, ∀ bundle ∈ component.bundles,
    BundleFits input.runtimeManifest (bundleContext input) bundle
  plugins : (bundleNames input.components).Nodup

/-! ## What the checks establish -/

/-- What was checked of a component. -/
structure Checked (runtime : RuntimeManifest) (context : RuntimeContext)
    (component : ComponentInput) : Prop where
  record : RecordFits runtime component.record
  abi : ∀ contract abi, component.record.component = some contract →
    contract.compatibility.abi = some abi → (runtimeContext runtime).cxxAbi = some abi
  bundles : ∀ bundle ∈ component.bundles, BundleFits runtime context bundle

section Checks

variable {codec : Codec} {os : Os} {expected : ComponentRef} {component : ComponentInput}
  {runtime : RuntimeManifest} {context : RuntimeContext} {declared : FormationManifest}
  {input : ResolutionInput} {m : MaterializedFormation}

theorem elim_failIf {α : Type} {o : Option α} {bad : α → Prop} [DecidablePred bad]
    {error : α → Error} (h : (o.elim (.ok ()) fun a => Result.failIf (bad a) (error a)) = .ok ()) :
    ∀ a, o = some a → ¬ bad a := by
  rintro a rfl
  exact Result.failIf_ok.mp h

theorem elim_error {α : Type} {o : Option α} {error : α → Error}
    (h : (o.elim (.ok ()) fun a => (.error (error a) : Result Unit)) = .ok ()) : o = none := by
  cases o with
  | none => rfl
  | some a => cases h

theorem checkComponent_ok (h : checkComponent expected component runtime = .ok ()) :
    RecordFits runtime component.record ∧
      ∀ contract abi, component.record.component = some contract →
        contract.compatibility.abi = some abi →
          (runtimeContext runtime).cxxAbi = some abi := by
  simp only [checkComponent, validateTarget, validateComponentAbi, Result.bind_ok,
    Result.failIf_ok, not_not] at h
  obtain ⟨⟨⟩, -, ⟨⟩, -, ⟨⟩, -, ⟨⟩, -, ⟨⟩, htarget, ⟨⟩, habi, ⟨⟩, hid, ⟨⟩, hdigest, hprofile⟩ := h
  refine ⟨⟨htarget, fun id hsome => not_not.mp (elim_failIf hid id hsome),
    fun digest hsome => not_not.mp (elim_failIf hdigest digest hsome),
    fun profile hsome => not_not.mp (elim_failIf hprofile profile hsome)⟩, ?_⟩
  intro contract abi hcontract hsome
  exact not_not.mp (elim_failIf habi abi (by rw [hcontract]; exact hsome))

theorem validateBundleCompatibility_ok {id : String} {bundle : LoadedBundle}
    (hpulled : context.pulled)
    (h : validateBundleCompatibility id bundle context runtime = .ok ()) :
    BundleFits runtime context bundle := by
  obtain ⟨⟨⟩, hcapabilities, hfailure⟩ := Result.bind_ok.mp h
  refine ⟨fun capability hmem => ?_, (firstFailure_eq_none hpulled).mp (elim_error hfailure)⟩
  have := List.find?_eq_none.mp (elim_error hcapabilities) capability hmem
  simpa using this

theorem lookup_eq_none {versions : BundleVersions} {name : String}
    (h : versions.lookup name = none) : name ∉ versions.map Prod.fst := by
  intro hmem
  obtain ⟨entry, hentry, rfl⟩ := List.mem_map.mp hmem
  have := List.lookup_eq_none_iff.mp h entry hentry
  simp at this

/-- The bundles of a component are checked, and their names are new and distinct. -/
theorem resolveBundles_ok {id : String} (hpulled : context.pulled) {bundles : List LoadedBundle} :
    ∀ {versions versions' : BundleVersions} {resolved : List ResolvedBundle},
      resolveBundles id context runtime versions bundles = .ok (versions', resolved) →
        (∀ bundle ∈ bundles, BundleFits runtime context bundle) ∧
          ((bundles.map fun bundle => bundle.plugin.name).reverse ++
            versions.map Prod.fst = versions'.map Prod.fst) ∧
          ((versions.map Prod.fst).Nodup → (versions'.map Prod.fst).Nodup) := by
  induction bundles with
  | nil =>
    intro versions versions' resolved h
    cases h
    exact ⟨nofun, rfl, fun h => h⟩
  | cons bundle rest ih =>
    intro versions versions' resolved h
    simp only [resolveBundles, Result.bind_ok] at h
    obtain ⟨⟨⟩, hbundle, ⟨⟩, hfresh, ⟨versions₁, resolved₁⟩, hrest, heq⟩ := h
    cases heq
    obtain ⟨hall, hnames, hnodup⟩ := ih hrest
    have hnew := lookup_eq_none (elim_error (o := versions.lookup bundle.plugin.name) hfresh)
    refine ⟨List.forall_mem_cons.mpr ⟨validateBundleCompatibility_ok hpulled hbundle, hall⟩, ?_,
      fun h => hnodup (List.nodup_cons.mpr ⟨hnew, h⟩)⟩
    rw [← hnames]
    simp

/-- A step: the component is checked and its bundles are added. -/
theorem resolveComponent_ok (hpulled : context.pulled) {s s' : Composed}
    (h : resolveComponent os context runtime s expected component = .ok s') :
    Checked runtime context component ∧
      ((component.bundles.map fun bundle => bundle.plugin.name).reverse ++
        s.versions.map Prod.fst = s'.versions.map Prod.fst) ∧
      ((s.versions.map Prod.fst).Nodup → (s'.versions.map Prod.fst).Nodup) := by
  simp only [resolveComponent, Result.bind_ok] at h
  obtain ⟨⟨⟩, hcomponent, ⟨versions, resolved⟩, hbundles, ⟨vars, environment⟩, -, heq⟩ := h
  cases heq
  obtain ⟨hrecord, habi⟩ := checkComponent_ok hcomponent
  obtain ⟨hall, hnames, hnodup⟩ := resolveBundles_ok hpulled hbundles
  exact ⟨⟨hrecord, habi, hall⟩, hnames, hnodup⟩

/-- A run: every component is checked, and the names of all bundles are distinct. -/
theorem resolveComponents_ok (hpulled : context.pulled)
    {components : List (ComponentRef × ComponentInput)} : ∀ {s s' : Composed},
      resolveComponents os context runtime s components = .ok s' →
        (∀ entry ∈ components, Checked runtime context entry.2) ∧
          ((bundleNames (components.map Prod.snd)).reverse ++
            s.versions.map Prod.fst = s'.versions.map Prod.fst) ∧
          ((s.versions.map Prod.fst).Nodup → (s'.versions.map Prod.fst).Nodup) := by
  induction components with
  | nil =>
    intro s s' h
    rw [resolveComponents] at h
    obtain rfl := Except.ok.inj h
    refine ⟨fun entry hentry => ?_, by simp [bundleNames], fun h => h⟩
    cases hentry
  | cons entry rest ih =>
    intro s s' h
    obtain ⟨expected, component⟩ := entry
    obtain ⟨s₁, hstep, hrest⟩ := Result.bind_ok.mp h
    obtain ⟨hchecked, hnames, hnodup⟩ := resolveComponent_ok hpulled hstep
    obtain ⟨hall, hnames', hnodup'⟩ := ih hrest
    refine ⟨List.forall_mem_cons.mpr ⟨hchecked, hall⟩, ?_, hnodup' ∘ hnodup⟩
    rw [← hnames', ← hnames, List.map_cons, bundleNames, List.flatMap_cons, List.reverse_append]
    simp [bundleNames]

/-- What resolution established of the components. -/
theorem checked_of_resolve (h : resolve codec os declared input = .ok m) :
    (∀ component ∈ input.components,
        Checked input.runtimeManifest (bundleContext input) component) ∧
      (bundleNames input.components).Nodup := by
  simp only [resolve, Result.bind_ok, Result.failIf_ok, not_not] at h
  obtain ⟨⟨⟩, -, ⟨⟩, -, ⟨⟩, hlength, composed, hcomponents, -⟩ := h
  obtain ⟨hall, hnames, hnodup⟩ := resolveComponents_ok rfl hcomponents
  have hzip : (declared.components.zip input.components).map Prod.snd = input.components :=
    List.map_snd_zip hlength.le
  constructor
  · intro component hcomponent
    rw [← hzip] at hcomponent
    obtain ⟨entry, hentry, rfl⟩ := List.mem_map.mp hcomponent
    exact hall entry hentry
  · have hkeys := hnodup List.nodup_nil
    rw [← hnames, hzip] at hkeys
    exact List.nodup_reverse.mp (List.Nodup.of_append_left hkeys)

/-- The gate holds for a resolved Formation exactly when every component contract's targets,
OpenUSD range and capabilities hold for the runtime as well. -/
theorem gate_iff (h : resolve codec os declared input = .ok m) : Gate input ↔
    ∀ component ∈ input.components, ∀ contract, component.record.component = some contract →
      Unchecked input.runtimeManifest contract := by
  obtain ⟨hchecked, hplugins⟩ := checked_of_resolve h
  constructor
  · exact fun hgate component hcomponent contract hcontract =>
      (hgate.contracts component hcomponent contract hcontract).toUnchecked
  · intro hunchecked
    exact {
      records := fun component hcomponent => (hchecked component hcomponent).record
      contracts := fun component hcomponent contract hcontract =>
        ⟨hunchecked component hcomponent contract hcontract,
          fun abi habi => (hchecked component hcomponent).abi contract abi hcontract habi⟩
      bundles := fun component hcomponent => (hchecked component hcomponent).bundles
      plugins := hplugins }

end Checks

/-! ## A Formation that is resolved -/

section Runs

variable {codec : Codec} {os : Os} {declared : FormationManifest} {input : ResolutionInput}

/-- Once the manifest and the runtime are checked, resolution is that of the components. -/
theorem resolve_eq_map (hvalid : declared.validate = .ok ())
    (hruntime : checkRuntime codec declared input.runtimeRecord input.runtimeManifest = .ok ())
    (hlength : input.components.length = declared.components.length) :
    resolve codec os declared input =
      (resolveComponents os (bundleContext input) input.runtimeManifest (initial os input)
        (declared.components.zip input.components)).map fun composed => {
          resolved := {
            schema := RESOLVED_SCHEMA
            name := declared.formation.name
            manifestDigest := declared.digest codec
            target := legacyTarget input.runtimeManifest
            runtime := ResolvedArtifact.ofRecord input.runtimeRecord
            host := declared.host
            components := composed.components
            environment := composed.environment
            command := declared.command
            conflicts := [] }
          env := ⟨(runtimeEnv os input).sep, composed.vars⟩ } := by
  rw [resolve, hvalid, hruntime]
  simp only [bind, Except.bind, Result.failIf, hlength, ne_eq, not_true_eq_false, if_false]
  cases resolveComponents os (bundleContext input) input.runtimeManifest (initial os input)
    (declared.components.zip input.components) with
  | error e => rfl
  | ok composed => rfl

theorem isSome_resolve (hvalid : declared.validate = .ok ())
    (hruntime : checkRuntime codec declared input.runtimeRecord input.runtimeManifest = .ok ())
    (hlength : input.components.length = declared.components.length)
    (hcomponents : (resolveComponents os (bundleContext input) input.runtimeManifest
      (initial os input) (declared.components.zip input.components)).toOption.isSome) :
    (resolve codec os declared input).toOption.isSome := by
  obtain ⟨composed, hcomposed⟩ := Result.exists_ok hcomponents
  rw [resolve_eq_map hvalid hruntime hlength, hcomposed]
  rfl

end Runs

namespace Sample

/-- A reference made of one hexadecimal digit. -/
def reference (digit : Char) : String := "sha256:" ++ String.ofList (List.replicate 64 digit)

def runtimeManifest : RuntimeManifest where
  schema := 8
  id := "cy2026-linux-x86_64-py313-usd"
  platform := "cy2026"
  profile := "usd"
  variant := ⟨.linux, .x86_64, .glibc "2.28", "313"⟩
  python := "3.13.2"
  capabilities := ["usd-stage-read"]
  layout := ["bin", "lib"]
  extensions := [⟨"openusd", "26.05", []⟩]
  digest := "sha256:1c1918fe3c3c61ccf0455b2713fc80793456a50243272f045e1c9b4a85af17f8"
  validation := .passed
  hostRequirements := []
  openusdCompatibility := none
  openusdVerification := ⟨1, .notRun, .notRun, .notRun, .notRun, .notRun⟩
  buildSource := none
  buildDependencies := []

/-- SHA-256 on the two texts that are digested for the sample, told apart by their length. -/
def codec : Codec where
  sha256 bytes := bytesOfHex <| String.toList <|
    if bytes.length = 550 then
      "1c1918fe3c3c61ccf0455b2713fc80793456a50243272f045e1c9b4a85af17f8"
    else "2858d34d3d9020b490de385d63e336c54f947f246b6ce1854465b0ba4b69b361"
  parse _ := none

/-- A tree with the Python package under `lib/python`. -/
def layout : Layout where
  isDir path := path == "lib/python/pxr"
  isFile _ := false
  entries _ := []

/-- A record of the variant that was validated. -/
def record (kind : ArtifactKind) (name : String) (digit : Char)
    (component : Option ComponentContract) : ArtifactRecord :=
  { RuntimeComposition.Sample.record (RuntimeComposition.Sample.contract name [] [])
      (reference digit) with
    kind := kind
    target := "linux-x86_64-glibc228-py313"
    validation := "passed"
    component := component }

def componentRef : ComponentRef := ⟨"studio-renderer", .renderer, reference 'b'⟩

/-- A runtime and a renderer. -/
def declared : FormationManifest where
  schema := FORMATION_SCHEMA
  formation := ⟨"lookdev"⟩
  runtime := ⟨reference 'a'⟩
  host := none
  components := [componentRef]
  command := ⟨"usdview", ["scene.usda"]⟩

/-- The artifacts under a staging root, the renderer with a contract. -/
def input (root : String) (contract : Option ComponentContract) : ResolutionInput where
  runtimeRecord := record .runtime "cy2026" 'a' none
  runtimeManifest := runtimeManifest
  runtimeRoot := root ++ "/runtime"
  runtimeLayout := layout
  components := [{
    declared := componentRef
    record := record .package "studio-renderer" 'b' contract
    root := root ++ "/components/studio-renderer"
    bundles := []
    activation := ⟨[root ++ "/components/studio-renderer/plugin"], [], [], []⟩ }]

/-- A contract that asks for a newer OpenUSD than the runtime has. -/
def newerOpenusd : ComponentContract :=
  { RuntimeComposition.Sample.contract "studio-renderer" [⟨"render", "2.0", true⟩] [] with
    compatibility := { ComponentCompatibility.default with openusd := some ">=27" } }

theorem validateFullDigest_reference {digit : Char} (h : Text.isLowerHexDigit digit)
    (field : String) : validateFullDigest field (reference digit) = .ok () :=
  RuntimeComposition.Sample.validateFullDigest_replicate field h

theorem validate_declared : declared.validate = .ok () := by
  simp only [FormationManifest.validate, validateId, Result.bind_ok, Result.failIf_ok]
  refine ⟨(), by decide, (), by decide, (), validateFullDigest_reference rfl _, (), ?_, (),
    by decide, ?_⟩
  · rfl
  · simp only [declared, validateComponents, validateId, Result.bind_ok, Result.failIf_ok]
    exact ⟨(), by decide, (), validateFullDigest_reference rfl _, (), by simp, trivial⟩

theorem checkRuntime_record :
    checkRuntime codec declared (record .runtime "cy2026" 'a' none) runtimeManifest = .ok () := by
  simp only [checkRuntime, Result.bind_ok, Result.failIf_ok]
  exact ⟨(), validateFullDigest_reference rfl _, (), by decide, (), by decide, (),
    by decide, (), by decide, (), by decide +kernel, (), by decide +kernel, rfl⟩

/-- The sample resolves on every system and under every root where its components do. -/
theorem resolves_of {os : Os} {input : ResolutionInput}
    (hrecord : input.runtimeRecord = record .runtime "cy2026" 'a' none)
    (hmanifest : input.runtimeManifest = runtimeManifest) (hlength : input.components.length = 1)
    (hcomponents : (resolveComponents os (bundleContext input) input.runtimeManifest
      (initial os input) (declared.components.zip input.components)).toOption.isSome) :
    (resolve codec os declared input).toOption.isSome :=
  isSome_resolve validate_declared (hrecord ▸ hmanifest ▸ checkRuntime_record) hlength hcomponents

theorem resolves (contract : Option ComponentContract)
    (h : contract = none ∨ contract = some newerOpenusd) :
    (resolve codec .linux declared (input "/f" contract)).toOption.isSome := by
  refine resolves_of rfl rfl rfl ?_
  rcases h with rfl | rfl
  · decide
  · decide

end Sample

/-- The sample resolves without a contract, and passes the gate. -/
theorem gate_iff_sample : Gate (Sample.input "/f" none) ↔
    ∀ component ∈ (Sample.input "/f" none).components, ∀ contract,
      component.record.component = some contract →
        Unchecked Sample.runtimeManifest contract := by
  obtain ⟨m, hm⟩ := Result.exists_ok (Sample.resolves none (.inl rfl))
  exact gate_iff hm

/-- A renderer whose contract asks for OpenUSD 27 is resolved with a runtime of OpenUSD 26.05. -/
theorem gate_fails : ¬ ∀ (codec : Codec) (os : Os) (declared : FormationManifest)
    (input : ResolutionInput) (m : MaterializedFormation),
    resolve codec os declared input = .ok m → Gate input := by
  intro hall
  obtain ⟨m, hm⟩ := Result.exists_ok (Sample.resolves (some Sample.newerOpenusd) (.inr rfl))
  have hgate := hall _ _ _ _ m hm
  have hfits := hgate.contracts _ (List.mem_singleton_self _) Sample.newerOpenusd rfl
  have hrange : InRange "26.05" ">=27" := hfits.openusd ">=27" "26.05" rfl rfl
  exact absurd hrange (show ¬ Version.satisfies "26.05" ">=27" = .ok true by decide)

end OpenStrata.Formation
