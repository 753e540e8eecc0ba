import OpenStrata.Artifact.Record
import OpenStrata.Artifact.Reference
import OpenStrata.Lib.Kahn
import OpenStrata.Lib.SortBy
import OpenStrata.Lib.TreeMap
import OpenStrata.Lib.Worklist
import OpenStrata.Plugin.Version

/-!
# Runtime composition

The resolver that composes a runtime from independently published components. A worklist of
capability requirements starts from the manifest's own; the first requirement of a capability
fixes its provider, whose requirements are then appended, and later requirements of the
capability are checked against that choice.

## Main definitions

* `RuntimeCompositionManifest`: what is to be composed
* `visit`: one requirement of the worklist
* `resolveRuntimeComposition`: the resolver
* `ResolvedRuntimeComposition`: its result
-/

namespace OpenStrata

open Std (ExtTreeMap)
open SortBy (sortBy)

def COMPOSITION_SCHEMA : String := "openstrata.runtime-composition/v1alpha1"

def RESOLVED_COMPOSITION_SCHEMA : String := "openstrata.runtime-composition-resolved/v1alpha1"

structure CompositionHeader where
  name : String
  target : String
  deriving DecidableEq, Repr

/-- A candidate artifact, with an optional locator that is not part of its identity. -/
structure CompositionArtifactRef where
  artifact : String
  source : Option String
  deriving DecidableEq, Repr

structure RuntimeCompositionManifest where
  schema : String
  composition : CompositionHeader
  requirements : List CapabilityRequirement
  artifacts : List CompositionArtifactRef
  providers : ExtTreeMap String String

structure CompositionInput where
  records : List ArtifactRecord

structure ResolvedRuntimeComponent where
  id : String
  kind : String
  version : String
  digest : String
  target : String
  deriving DecidableEq, Repr

structure ResolvedProvider where
  capability : String
  component : String
  version : String
  digest : String
  deriving DecidableEq, Repr

structure ResolvedEnvironmentContribution where
  variableName : String
  operation : String
  source : String
  values : List String
  deriving DecidableEq, Repr

structure ResolvedInstallMapping where
  destination : String
  component : String
  artifact : String
  source : String
  deriving DecidableEq, Repr

structure CompositionConflict where
  code : String
  subject : String
  sources : List String
  reason : String
  deriving DecidableEq, Repr

structure ResolvedRuntimeComposition where
  schema : String
  name : String
  target : String
  manifestDigest : String
  compositionDigest : String
  components : List ResolvedRuntimeComponent
  providers : List ResolvedProvider
  environment : List ResolvedEnvironmentContribution
  install : List ResolvedInstallMapping
  conflicts : List CompositionConflict
  deriving DecidableEq, Repr

/-- A record with the contract it carries. -/
structure Candidate where
  record : ArtifactRecord
  contract : ComponentContract
  deriving DecidableEq

namespace RuntimeComposition

/-! ## Requirements -/

def portableId (field value : String) : Result Unit :=
  Result.failIf (¬ isPortableId value)
    (.config (field ++ " '" ++ value ++ "' is not a portable identifier"))

def portableCapability (field value : String) : Result Unit :=
  Result.failIf (¬ isCapability value)
    (.config (field ++ " '" ++ value ++ "' is not a portable capability"))

/-- The refusal of a version constraint that cannot be decided. -/
def invalidVersionConstraint (message : String) : Error :=
  .ofCode "COMPOSITION_INVALID_VERSION_CONSTRAINT" .configuration message

def versionSatisfies (version range : String) : Result Bool :=
  match Version.satisfies version range with
  | .ok b => .ok b
  | .error e => .error (invalidVersionConstraint e.render)

/-- The range is checked on its own, whatever the candidate's version. -/
def validateRange (capability : String) : Option String → Result Unit
  | none => .ok ()
  | some range => do
    Result.failIf (Text.trim range).isEmpty (invalidVersionConstraint
      ("requirement '" ++ capability ++ "' has an empty version constraint"))
    let _ ← versionSatisfies "0" range
    return ()

def validatePin : Option String → Result Unit
  | none => .ok ()
  | some provider => portableId "requirement provider" provider

def validateRequirement (requirement : CapabilityRequirement) : Result Unit := do
  portableCapability "requirement capability" requirement.capability
  validatePin requirement.provider
  validateRange requirement.capability requirement.version

abbrev RequirementKey := String ×ₗ String ×ₗ String

def requirementKey (requirement : CapabilityRequirement) : RequirementKey :=
  toLex (requirement.capability,
    toLex (requirement.version.getD "", requirement.provider.getD ""))

def candidateKey (candidate : Candidate) : String ×ₗ String ×ₗ String :=
  toLex (candidate.contract.id, toLex (candidate.contract.version, candidate.record.digest))

/-- Offered provisions are ordered by their candidates. -/
def offerKey (offer : Candidate × CapabilityProvision) : String ×ₗ String ×ₗ String :=
  candidateKey offer.1

end RuntimeComposition

open RuntimeComposition

namespace RuntimeCompositionManifest

def validateArtifact (artifact : CompositionArtifactRef) : Result Unit := do
  validateFullDigest "composition artifact" artifact.artifact
  match artifact.source with
  | some source => do
    let reference ← RemoteReference.parse source
    Result.failIf (¬ reference.isPinned)
      (.ofCode "COMPOSITION_SOURCE_MUTABLE" .configuration
        "composition sources must be digest-pinned")
  | none => .ok ()

/-- The candidate artifacts in order, none of a digest already seen. -/
def validateArtifacts : List String → List CompositionArtifactRef → Result Unit
  | _, [] => .ok ()
  | digests, artifact :: rest => do
    validateArtifact artifact
    Result.failIf (artifact.artifact ∈ digests)
      (.ofCode "COMPOSITION_DUPLICATE_ARTIFACT" .configuration
        ("artifact '" ++ artifact.artifact ++ "' is listed more than once"))
    validateArtifacts (artifact.artifact :: digests) rest

def validateProvider (pin : String × String) : Result Unit := do
  portableCapability "providers capability" pin.1
  portableId "providers component id" pin.2

def validate (m : RuntimeCompositionManifest) : Result Unit := do
  Result.failIf (m.schema ≠ COMPOSITION_SCHEMA)
    (.config ("unsupported runtime composition schema '" ++ m.schema ++ "' (expected '" ++
      COMPOSITION_SCHEMA ++ "')"))
  portableId "composition.name" m.composition.name
  Result.failIf (Text.trim m.composition.target).isEmpty
    (.config "composition.target must not be empty")
  Result.failIf (m.requirements = [])
    (.config "runtime composition must declare at least one requirement")
  Result.failIf (m.artifacts = [])
    (.config "runtime composition must declare at least one artifact candidate")
  validateArtifacts [] m.artifacts
  Result.forAll validateRequirement m.requirements
  Result.forAll validateProvider m.providers.toList

/-- Set-like inputs have one ordering; transport locations are not identity. -/
def canonical (m : RuntimeCompositionManifest) : RuntimeCompositionManifest :=
  { m with
    artifacts := sortBy (·.artifact) (m.artifacts.map fun a => { a with source := none })
    requirements := (sortBy requirementKey m.requirements).destutter (· ≠ ·) }

/-- A field that is left out when it is absent. -/
def optionalField (name : String) (value : Option String) : List (String × Json) :=
  (value.map fun s => (name, Json.str s)).toList

def requirementJson (r : CapabilityRequirement) : Json :=
  .obj (("capability", .str r.capability) ::
    (optionalField "version" r.version ++ optionalField "provider" r.provider))

def toJson (m : RuntimeCompositionManifest) : Json :=
  .obj [
    ("schema", .str m.schema),
    ("composition", .obj [
      ("name", .str m.composition.name), ("target", .str m.composition.target)]),
    ("requirements", .arr (m.requirements.map requirementJson)),
    ("artifacts", .arr (m.artifacts.map fun a =>
      .obj (("artifact", .str a.artifact) :: optionalField "source" a.source))),
    ("providers", .obj (m.providers.toList.map fun p => (p.1, .str p.2)))]

def digest (codec : Codec) (m : RuntimeCompositionManifest) : String :=
  sha256Hex codec (jsonBytes m.canonical.toJson)

end RuntimeCompositionManifest

namespace ResolvedRuntimeComposition

def strings (values : List String) : Json := .arr (values.map .str)

def toJson (r : ResolvedRuntimeComposition) : Json :=
  .obj [
    ("schema", .str r.schema),
    ("name", .str r.name),
    ("target", .str r.target),
    ("manifest_digest", .str r.manifestDigest),
    ("composition_digest", .str r.compositionDigest),
    ("components", .arr (r.components.map fun c => .obj [
      ("id", .str c.id), ("kind", .str c.kind), ("version", .str c.version),
      ("digest", .str c.digest), ("target", .str c.target)])),
    ("providers", .arr (r.providers.map fun p => .obj [
      ("capability", .str p.capability), ("component", .str p.component),
      ("version", .str p.version), ("digest", .str p.digest)])),
    ("environment", .arr (r.environment.map fun e => .obj [
      ("variable", .str e.variableName), ("operation", .str e.operation),
      ("source", .str e.source), ("values", strings e.values)])),
    ("install", .arr (r.install.map fun i => .obj [
      ("destination", .str i.destination), ("component", .str i.component),
      ("artifact", .str i.artifact), ("source", .str i.source)])),
    ("conflicts", .arr (r.conflicts.map fun c => .obj [
      ("code", .str c.code), ("subject", .str c.subject), ("sources", strings c.sources),
      ("reason", .str c.reason)]))]

end ResolvedRuntimeComposition

namespace RuntimeComposition

/-! ## Candidates -/

/-- The record of a declared artifact with its validated contract. -/
def candidateOf (declared : List String) (record : ArtifactRecord) : Result Candidate := do
  Result.failIf (record.digest ∉ declared)
    (.ofCode "COMPOSITION_ARTIFACT_SET_MISMATCH" .validation
      ("resolved artifact " ++ record.digest ++ " is not pinned by the composition manifest"))
  validateFullDigest "resolved component digest" record.digest
  let contract ← Result.okOr
    ((Error.ofCode "COMPOSITION_COMPONENT_CONTRACT_REQUIRED" .validation
      ("artifact " ++ record.shortDigest ++ " (" ++ record.name ++
        ") has no versioned component contract")).withHint
      "republish the artifact with OpenStrata v0.22.4 or newer")
    record.component
  contract.validate
  Result.failIf (contract.id ≠ record.name ∨ contract.version ≠ record.version)
    (.ofCode "COMPOSITION_COMPONENT_IDENTITY_MISMATCH" .validation
      ("artifact " ++ record.shortDigest ++ " records " ++ record.name ++ " " ++
        record.version ++ ", but its component contract declares " ++ contract.id ++ " " ++
        contract.version))
  return { record, contract }

/-- The candidates in record order, none of an id already seen. -/
def collectCandidates (declared : List String) :
    List String → List ArtifactRecord → Result (List Candidate)
  | _, [] => .ok []
  | ids, record :: rest => do
    let candidate ← candidateOf declared record
    Result.failIf (candidate.contract.id ∈ ids)
      (.ofCode "COMPOSITION_COMPONENT_ID_COLLISION" .validation
        ("component id '" ++ candidate.contract.id ++ "' is provided by multiple artifacts"))
    return candidate :: (← collectCandidates declared (candidate.contract.id :: ids) rest)

/-- The provisions of every capability, in candidate order. -/
def byCapability (candidates : List Candidate) :
    ExtTreeMap String (List (Candidate × CapabilityProvision)) :=
  TreeMap.groupBy (·.2.capability)
    (candidates.flatMap fun c => c.contract.provides.map fun p => (c, p))

def targetMatches (target : String) (candidate : Candidate) : Bool :=
  let targets := candidate.contract.compatibility.targets
  if targets = [] then candidate.record.target = target else targets.any (· = target)

def renderedConstraint (requirement : CapabilityRequirement) : String :=
  requirement.version.elim "" fun version => " version '" ++ version ++ "'"

/-! ## The worklist -/

/-- A requirement with the component that asks for it; the manifest's own have none. -/
abbrev Demand := Option String × CapabilityRequirement

/-- What the worklist has decided: the selected components, the provider of each capability
with the version it provides, and who is provided to whom. -/
structure Selection where
  selected : ExtTreeMap String Candidate
  selectedProvider : ExtTreeMap String (Candidate × String)
  edges : List (String × String)

namespace Selection

def empty : Selection := { selected := ∅, selectedProvider := ∅, edges := [] }

/-- Record an edge from a provider to its consumer, if there is one. -/
def addEdge (s : Selection) (provider : String) : Option String → Selection
  | some consumer => { s with edges := s.edges.insert (provider, consumer) }
  | none => s

end Selection

/-- The pin that applies to a requirement; two pins must agree. -/
def pinOf (declared : RuntimeCompositionManifest) (requirement : CapabilityRequirement) :
    Result (Option String) :=
  match requirement.provider, declared.providers[requirement.capability]? with
  | some localPin, some globalPin =>
    if localPin ≠ globalPin then
      .error (.ofCode "COMPOSITION_PROVIDER_PIN_CONFLICT" .configuration
        ("requirement '" ++ requirement.capability ++ "' pins '" ++ localPin ++
          "', but providers pins '" ++ globalPin ++ "'"))
    else .ok (some localPin)
  | localPin, globalPin => .ok (localPin.or globalPin)

def requireVersion (requirement : CapabilityRequirement) (version provider : String) :
    Result Unit :=
  match requirement.version with
  | none => .ok ()
  | some range => do
    let satisfied ← versionSatisfies version range
    Result.failIf (¬ satisfied)
      (.ofCode "COMPOSITION_VERSION_CONFLICT" .validation
        ("provider '" ++ provider ++ "' exposes " ++ requirement.capability ++ " " ++ version ++
          ", which does not satisfy '" ++ range ++ "'"))

/-- A later requirement of a capability agrees with the choice made. -/
def checkSelected (requirement : CapabilityRequirement) (pin : Option String)
    (provider : Candidate) (version : String) : Result Unit := do
  Result.failIf (pin.any fun pin => pin ≠ provider.contract.id)
    (.ofCode "COMPOSITION_PROVIDER_PIN_CONFLICT" .validation
      ("capability '" ++ requirement.capability ++ "' already resolves to '" ++
        provider.contract.id ++ "', not pinned '" ++ pin.getD provider.contract.id ++ "'"))
  requireVersion requirement version provider.contract.id

/-- A requirement without a range accepts every version. -/
def acceptsVersion (requirement : CapabilityRequirement) (version : String) : Result Bool :=
  match requirement.version with
  | some range => versionSatisfies version range
  | none => .ok true

/-- The provisions a requirement accepts, by pin and version. -/
def compatibleProviders (requirement : CapabilityRequirement) (pin : Option String) :
    List (Candidate × CapabilityProvision) → Result (List (Candidate × CapabilityProvision))
  | [] => .ok []
  | (candidate, provision) :: rest =>
    if pin.any fun pin => pin ≠ candidate.contract.id then
      compatibleProviders requirement pin rest
    else do
      let satisfied ← acceptsVersion requirement provision.version
      let rest ← compatibleProviders requirement pin rest
      return if satisfied then (candidate, provision) :: rest else rest

/-- The offers for the composition's target, among them the pinned one. -/
def targetCompatibleProviders (target : String) (requirement : CapabilityRequirement)
    (pin : Option String) (providers : List (Candidate × CapabilityProvision)) :
    Result (List (Candidate × CapabilityProvision)) := do
  Result.failIf (providers = [])
    (.ofCode "COMPOSITION_MISSING_PROVIDER" .validation
      ("no artifact provides capability '" ++ requirement.capability ++ "'"))
  let targetCompatible := providers.filter fun p => targetMatches target p.1
  Result.failIf (targetCompatible = [])
    (.ofCode "COMPOSITION_TARGET_CONFLICT" .validation
      ("providers for capability '" ++ requirement.capability ++
        "' do not support target '" ++ target ++ "'"))
  Result.failIf (pin.any fun pin => pin ∉ targetCompatible.map (·.1.contract.id))
    (.ofCode "COMPOSITION_PROVIDER_PIN_MISMATCH" .validation
      ("provider pin '" ++ pin.getD "" ++ "' does not name a target-compatible provider for '" ++
        requirement.capability ++ "'"))
  return targetCompatible

/-- The first of the compatible offers; several of a singleton capability need a pin. -/
def pickProvider (requirement : CapabilityRequirement) (pin : Option String) :
    List (Candidate × CapabilityProvision) → Result (Candidate × CapabilityProvision)
  | [] => .error (.ofCode "COMPOSITION_VERSION_CONFLICT" .validation
      (match pin with
        | some pin => "provider pin '" ++ pin ++ "' cannot satisfy capability '" ++
            requirement.capability ++ "'" ++ renderedConstraint requirement
        | none => "providers for capability '" ++ requirement.capability ++
            "' do not satisfy" ++ renderedConstraint requirement))
  | first :: others => do
    let compatible := first :: others
    Result.failIf
      (1 < compatible.length ∧ pin = none ∧ true ∈ compatible.map (·.2.singleton))
      ((Error.ofCode "COMPOSITION_SINGLETON_COLLISION" .validation
        ("singleton capability '" ++ requirement.capability ++
          "' has multiple compatible providers: " ++
          Text.join ", " (compatible.map (·.1.contract.id)))).withHint
        ("pin one provider in [providers], for example '" ++ requirement.capability ++ "' = '" ++
          first.1.contract.id ++ "'"))
    return (sortBy offerKey compatible).headD first

/-- The provider of a capability, at its first requirement. -/
def chooseProvider (declared : RuntimeCompositionManifest) (candidates : List Candidate)
    (requirement : CapabilityRequirement) (pin : Option String) :
    Result (Candidate × CapabilityProvision) := do
  let providers := (byCapability candidates)[requirement.capability]?.getD []
  let targetCompatible ←
    targetCompatibleProviders declared.composition.target requirement pin providers
  let compatible ← compatibleProviders requirement pin targetCompatible
  pickProvider requirement pin compatible

/-- The demands of a component, in requirement order. -/
def demandsOf (candidate : Candidate) : List Demand :=
  (sortBy requirementKey candidate.contract.requires).map fun dependency =>
    (some candidate.contract.id, dependency)

/-- Fix the provider of a capability; a component selected for the first time brings its own
demands. -/
def select (s : Selection) (consumer : Option String) (capability : String)
    (provider : Candidate) (provision : CapabilityProvision) : Selection × List Demand :=
  let id := provider.contract.id
  let s' := { s with
    selectedProvider := s.selectedProvider.insert capability (provider, provision.version)
    selected := s.selected.insert id provider }
  (s'.addEdge id consumer, if s.selected[id]?.isNone then demandsOf provider else [])

/-- One iteration of the resolver. -/
def visit (declared : RuntimeCompositionManifest) (candidates : List Candidate)
    (s : Selection) (demand : Demand) : Result (Selection × List Demand) := do
  let (consumer, requirement) := demand
  validateRequirement requirement
  let pin ← pinOf declared requirement
  match s.selectedProvider[requirement.capability]? with
  | some (provider, version) =>
    checkSelected requirement pin provider version
    return (s.addEdge provider.contract.id consumer, [])
  | none =>
    let (provider, provision) ← chooseProvider declared candidates requirement pin
    return select s consumer requirement.capability provider provision

/-! ## Checks on the selection -/

/-- Every pin of the manifest selected a provider. -/
def checkPins (declared : RuntimeCompositionManifest)
    (providers : ExtTreeMap String (Candidate × String)) : Result Unit :=
  Result.forAll (fun pin : String × String => Result.failIf (providers[pin.1]?.isNone)
    (.ofCode "COMPOSITION_UNUSED_PROVIDER_PIN" .configuration
      ("provider pin '" ++ pin.1 ++ "' = '" ++ pin.2 ++
        "' does not select a declared or transitive requirement"))) declared.providers.toList

def checkSingletons (selected : List Candidate) : Result Unit :=
  let provided := selected.flatMap fun c =>
    c.contract.provides.map fun p => (p.capability, p.singleton, c.contract.id)
  Result.forAll (fun entry : String × List (String × Bool × String) =>
    Result.failIf (entry.2.any (·.2.1) ∧ 1 < entry.2.length)
      (.ofCode "COMPOSITION_SINGLETON_COLLISION" .validation
        ("selected components " ++ Text.join ", " (entry.2.map (·.2.2)) ++
          " all provide singleton capability '" ++ entry.1 ++ "'")))
    (TreeMap.groupBy (·.1) provided).toList

def checkAbi (selected : List Candidate) : Result Unit :=
  let byAbi := TreeMap.groupBy (·.1) (selected.filterMap fun c =>
    c.contract.compatibility.abi.map fun abi => (abi, c.contract.id))
  Result.failIf (1 < byAbi.size)
    (.ofCode "COMPOSITION_ABI_CONFLICT" .validation
      ("selected components require incompatible ABIs: " ++ Text.join "; "
        (byAbi.toList.map fun entry =>
          entry.1 ++ " (" ++ Text.join ", " (entry.2.map (·.2)) ++ ")")))

def checkOpenusd (providers : ExtTreeMap String (Candidate × String))
    (selected : List Candidate) : Result Unit :=
  match providers["usd"]? with
  | none => .ok ()
  | some (_, version) =>
    Result.forAll (fun c : Candidate =>
      match c.contract.compatibility.openusd with
      | none => .ok ()
      | some range => do
        let satisfied ← versionSatisfies version range
        Result.failIf (¬ satisfied)
          (.ofCode "COMPOSITION_OPENUSD_CONFLICT" .validation
            ("component '" ++ c.contract.id ++ "' requires OpenUSD '" ++ range ++
              "', but selected provider is " ++ version))) selected

/-! ## Environment and installation -/

/-- The contributions to one variable: all are settings of one value, or none is a setting. -/
def resolveVariable (variableName : String)
    (contributions : List (String × EnvironmentContribution)) :
    Result (List ResolvedEnvironmentContribution) := do
  let contributions := sortBy (·.1) contributions
  let sets := contributions.filter (·.2.operation = .set)
  let distinct := (sets.map (·.2.values)).dedup
  Result.failIf (sets ≠ [] ∧ (sets.length ≠ contributions.length ∨ distinct.length ≠ 1))
    (.ofCode "COMPOSITION_ENVIRONMENT_CONFLICT" .validation
      ("environment variable '" ++ variableName ++
        "' has incompatible set/list contributions from " ++
        Text.join ", " (contributions.map (·.1))))
  return contributions.map fun c => {
    variableName
    operation := c.2.operation.asStr
    source := c.1
    values := c.2.values }

/-- The variables in order. -/
def resolveVariables : List (String × List (String × EnvironmentContribution)) →
    Result (List ResolvedEnvironmentContribution)
  | [] => .ok []
  | (variableName, contributions) :: rest => do
    let resolved ← resolveVariable variableName contributions
    return resolved ++ (← resolveVariables rest)

def resolveEnvironment (selected : List Candidate) :
    Result (List ResolvedEnvironmentContribution) :=
  resolveVariables (TreeMap.groupBy (·.2.variableName)
    (selected.flatMap fun c => c.contract.environment.map fun e => (c.contract.id, e))).toList

/-- The components of a relative path, without empty ones and dots. -/
def normalizeRelativePath (path : String) : String :=
  Text.join "/" ((Text.split (fun c => c == '/' || c == '\\') path).filter fun component =>
    !component.isEmpty && component != ".")

/-- Paths are compared without regard to ASCII case. -/
def installKey (mapping : InstallMapping) : String :=
  Text.toAsciiLowercase (normalizeRelativePath mapping.destination)

/-- The mappings in order, none of a destination already owned. -/
def collectInstall : ExtTreeMap String (String × String) → List (Candidate × InstallMapping) →
    Result (List ResolvedInstallMapping)
  | _, [] => .ok []
  | owners, (candidate, mapping) :: rest => do
    let key := installKey mapping
    match owners[key]? with
    | some (owner, destination) =>
      .error (.ofCode "COMPOSITION_INSTALL_PATH_COLLISION" .validation
        ("components '" ++ owner ++ "' and '" ++ candidate.contract.id ++ "' both install '" ++
          destination ++ "'/ '" ++ mapping.destination ++ "'"))
    | none =>
      let resolved : ResolvedInstallMapping := {
        destination := normalizeRelativePath mapping.destination
        component := candidate.contract.id
        artifact := candidate.record.digest
        source := normalizeRelativePath mapping.source }
      return resolved ::
        (← collectInstall (owners.insert key (candidate.contract.id, mapping.destination)) rest)

def resolveInstall (selected : List Candidate) : Result (List ResolvedInstallMapping) := do
  let resolved ← collectInstall ∅
    (selected.flatMap fun c => c.contract.install.map fun mapping => (c, mapping))
  return sortBy (fun m => (toLex (m.destination, toLex (m.component, m.source)) :
    String ×ₗ String ×ₗ String)) resolved

/-! ## The resolver -/

/-- The selected components, each after the components that provide to it. -/
def topologicalOrder (selected : ExtTreeMap String Candidate) (edges : List (String × String)) :
    Result (List String) :=
  Result.okOr
    (.ofCode "COMPOSITION_DEPENDENCY_CYCLE" .validation
      "selected component requirements contain a dependency cycle")
    (Kahn.order selected.keys edges)

/-- The demands the worklist starts from. -/
def initialDemands (declared : RuntimeCompositionManifest) : List Demand :=
  sortBy (fun demand => requirementKey demand.2)
    (declared.requirements.map fun requirement => (none, requirement))

/-- The requirements a candidate may still bring. -/
def pendingOf (s : Selection) (c : Candidate) : Nat :=
  if s.selected[c.contract.id]?.isNone then c.contract.requires.length else 0

/-- The requirements that the candidates which are not selected may still bring. -/
def pending (candidates : List Candidate) (s : Selection) : Nat :=
  (candidates.map (pendingOf s)).sum

/-- The worklist, run with fuel for every requirement there can be. -/
def resolveSelection (declared : RuntimeCompositionManifest) (candidates : List Candidate) :
    Result Selection := do
  let queue := initialDemands declared
  let loop ← Worklist.drain (visit declared candidates)
    (queue.length + pending candidates .empty) { queue, state := .empty }
  return loop.state

/-- The component of an id in the order; an id without a candidate is passed over. -/
def resolvedComponent (selected : ExtTreeMap String Candidate) (id : String) :
    Option ResolvedRuntimeComponent :=
  selected[id]?.map fun candidate => {
    id
    kind := candidate.contract.kind.asStr
    version := candidate.contract.version
    digest := candidate.record.digest
    target := candidate.record.target }

def resolvedProvider (entry : String × Candidate × String) : ResolvedProvider where
  capability := entry.1
  component := entry.2.1.contract.id
  version := entry.2.2
  digest := entry.2.1.record.digest

/-- Everything after the worklist: the checks on the selection and the rendering. -/
def finish (codec : Codec) (declared : RuntimeCompositionManifest) (s : Selection) :
    Result ResolvedRuntimeComposition := do
  checkPins declared s.selectedProvider
  let selected := TreeMap.values s.selected
  checkSingletons selected
  checkAbi selected
  checkOpenusd s.selectedProvider selected
  let orderedIds ← topologicalOrder s.selected s.edges
  let environment ← resolveEnvironment selected
  let install ← resolveInstall selected
  let resolved : ResolvedRuntimeComposition := {
    schema := RESOLVED_COMPOSITION_SCHEMA
    name := declared.composition.name
    target := declared.composition.target
    manifestDigest := declared.digest codec
    compositionDigest := ""
    components := orderedIds.filterMap (resolvedComponent s.selected)
    providers := s.selectedProvider.toList.map resolvedProvider
    environment, install
    conflicts := [] }
  return { resolved with compositionDigest := sha256Hex codec (jsonBytes resolved.toJson) }

end RuntimeComposition

/-- Compose a runtime from the records of the declared artifacts. -/
def resolveRuntimeComposition (codec : Codec) (declared : RuntimeCompositionManifest)
    (input : CompositionInput) : Result ResolvedRuntimeComposition := do
  declared.validate
  Result.failIf (input.records.length ≠ declared.artifacts.length)
    (.ofCode "COMPOSITION_ARTIFACT_SET_MISMATCH" .validation
      ("composition declares " ++ toString declared.artifacts.length ++
        " artifact candidate(s), but " ++ toString input.records.length ++
        " record(s) were supplied"))
  let candidates ← collectCandidates (declared.artifacts.map (·.artifact)) [] input.records
  let selection ← resolveSelection declared (sortBy candidateKey candidates)
  finish codec declared selection

end OpenStrata
