import OpenStrata.Formation.Manifest
import OpenStrata.Formation.Sdk
import OpenStrata.Plugin.Doctor
import OpenStrata.Runtime.Env
import OpenStrata.Runtime.Manifest

/-!
# Resolving a Formation

Resolution checks the pinned runtime and each component against it, and composes the environment
twice: as changes to variables with the paths of this machine, and as a portable report that goes
into the lock.

## Main definitions

* `ResolutionInput`: the artifacts a declaration resolved to
* `resolve`: the checks and the composed environment
* `appendHostEnvironment`: what a pinned host adds
* `FormationLock`: the lock
-/

namespace OpenStrata.Formation

open OpenStrata.Plugin (LoadedBundle RuntimeContext firstFailure)
open Path (slashed)
open OpenStrata.Runtime (EnvOp EnvSet EnvVar Layout RuntimeManifest loaderKey)
open Std (ExtTreeMap)

def RESOLVED_SCHEMA : String := "openstrata.formation-resolved/v1alpha1"

def LOCK_SCHEMA : String := "openstrata.formation-lock/v1alpha1"

/-! ## Input -/

/-- The absolute paths that a component activates. -/
structure ActivationInput where
  pluginPaths : List String
  libraryPaths : List String
  pythonPaths : List String
  binPaths : List String
  deriving DecidableEq, Repr

/-- An extracted component with the bundles that it contributes. -/
structure ComponentInput where
  declared : ComponentRef
  record : ArtifactRecord
  root : String
  bundles : List LoadedBundle
  activation : ActivationInput

structure ResolutionInput where
  runtimeRecord : ArtifactRecord
  runtimeManifest : RuntimeManifest
  runtimeRoot : String
  /-- The tree at the runtime's root. -/
  runtimeLayout : Layout
  components : List ComponentInput

/-! ## Output -/

structure ResolvedArtifact where
  kind : String
  name : String
  version : String
  digest : String
  target : String
  profile : Option String
  runtimeId : Option String
  runtimeDigest : Option String
  deriving DecidableEq, Repr

def ResolvedArtifact.ofRecord (record : ArtifactRecord) : ResolvedArtifact where
  kind := record.kind.asStr
  name := record.name
  version := record.version
  digest := record.digest
  target := record.target
  profile := record.profile
  runtimeId := record.runtimeId
  runtimeDigest := record.runtimeDigest

structure ResolvedBundle where
  name : String
  version : String
  kind : String
  deriving DecidableEq, Repr

structure ResolvedComponent where
  id : String
  declaredKind : ComponentKind
  artifact : ResolvedArtifact
  bundles : List ResolvedBundle
  deriving DecidableEq, Repr

structure FormationConflict where
  key : String
  sources : List String
  reason : String
  deriving DecidableEq, Repr

structure ResolvedFormation where
  schema : String
  name : String
  manifestDigest : String
  target : String
  runtime : ResolvedArtifact
  host : Option HostRef
  components : List ResolvedComponent
  environment : List EnvironmentContribution
  command : CommandSpec
  conflicts : List FormationConflict
  deriving DecidableEq, Repr

/-- A resolution with the environment of this machine. -/
structure MaterializedFormation where
  resolved : ResolvedFormation
  env : EnvSet
  deriving DecidableEq, Repr

structure FormationLock where
  schema : String
  resolution : ResolvedFormation
  deriving DecidableEq, Repr

def FormationLock.fromResolved (resolved : ResolvedFormation) : FormationLock :=
  ⟨LOCK_SCHEMA, resolved⟩

/-! ## Checks of a component -/

def compatibilityError (component reason : String) : Error :=
  (Error.ofCode "FORMATION_INCOMPATIBLE_COMPONENT" .validation
    ("component '" ++ component ++ "' is incompatible: " ++ reason)).withHint
    "select an artifact built and validated against the pinned runtime"

def kindMismatch (subject : String) (expected : ArtifactKind) (record : ArtifactRecord) : Error :=
  .ofCode "FORMATION_ARTIFACT_KIND_MISMATCH" .validation
    (subject ++ " needs a " ++ expected.asStr ++ " artifact, but " ++ record.shortDigest ++
      " is " ++ record.kind.asStr)

/-- The kinds of artifact that a declared kind accepts. -/
def acceptsRecord (component : ComponentRef) (record : ArtifactRecord) : Bool :=
  match component.kind with
  | .plugin => record.kind == .plugin || record.kind == .product
  | .renderer => record.kind == .plugin || record.kind == .product || record.kind == .package
  | .hostAddon => record.kind == .plugin &&
      record.component.any fun contract => contract.kind == .hostAddon

def validateComponentKind (component : ComponentRef) (record : ArtifactRecord) : Result Unit :=
  Result.failIf (¬ acceptsRecord component record)
    (.ofCode "FORMATION_ARTIFACT_KIND_MISMATCH" .validation
      ("component '" ++ component.id ++ "' is declared " ++ component.kind.asStr ++ ", but " ++
        record.shortDigest ++ " is a " ++ record.kind.asStr ++ " artifact"))

def packageTarget (runtime : RuntimeManifest) : String :=
  runtime.platform ++ "-" ++ runtime.variant.shortSlug ++ "-" ++ runtime.profile

def legacyTarget (runtime : RuntimeManifest) : String :=
  runtime.platform ++ "-" ++ runtime.variant.slug ++ "-" ++ runtime.profile

/-- The targets by which a record names the variant of a runtime. -/
def runtimeTargets (runtime : RuntimeManifest) : List String :=
  [runtime.variant.slug, packageTarget runtime, legacyTarget runtime]

def validateTarget (component : ComponentRef) (record : ArtifactRecord)
    (runtime : RuntimeManifest) : Result Unit :=
  Result.failIf (record.target ∉ runtimeTargets runtime)
    (compatibilityError component.id ("target '" ++ record.target ++
      "' does not match runtime platform '" ++ runtime.platform ++ "' and variant '" ++
      runtime.variant.slug ++ "'"))

def cxxAbi (variant : Runtime.Variant) : String :=
  match variant.os, variant.abi with
  | .linux, _ => "libstdcxx"
  | .macos, _ => "libcxx"
  | .windows, .msvc toolset => "msvc" ++ toolset
  | .windows, _ => "msvc"

/-- The facts of a runtime manifest; the last extension of an id counts. -/
def runtimeContext (runtime : RuntimeManifest) : RuntimeContext where
  targetOs := some runtime.variant.os
  pulled := true
  source := some "artifact"
  real := true
  reproducible := true
  openusdVersion :=
    (runtime.extensions.reverse.find? fun extension => extension.id == "openusd").map (·.version)
  cxxAbi := some (cxxAbi runtime.variant)
  pythonAbi := some runtime.variant.pythonAbi
  components := Overlay.putAll Prod.fst []
    (runtime.extensions.map fun extension => (extension.id, extension.version))
  imaging := false

/-- `{:?}` of an optional text; characters that need escaping are written as they are. -/
def debugText : Option String → String
  | some text => "Some(\"" ++ text ++ "\")"
  | none => "None"

def validateComponentAbi (component : ComponentRef) (record : ArtifactRecord)
    (runtime : RuntimeManifest) : Result Unit :=
  (record.component.bind fun contract => contract.compatibility.abi).elim (.ok ()) fun abi =>
    Result.failIf ((runtimeContext runtime).cxxAbi ≠ some abi)
      (compatibilityError component.id ("component ABI '" ++ abi ++
        "' does not match runtime ABI " ++ debugText (runtimeContext runtime).cxxAbi))

def validateBundleCompatibility (componentId : String) (bundle : LoadedBundle)
    (context : RuntimeContext) (runtime : RuntimeManifest) : Result Unit := do
  (bundle.capabilities.find? fun capability => capability ∉ runtime.capabilities).elim (.ok ())
    fun capability => .error (compatibilityError componentId
      ("requires runtime capability '" ++ capability ++ "'"))
  (firstFailure bundle context).elim (.ok ()) fun failure =>
    .error (compatibilityError componentId (failure.id ++ ": " ++ failure.observed))

/-! ## The environment -/

def contribution (key source : String) (paths : List String) : EnvironmentContribution :=
  ⟨key, "prepend", source, paths⟩

def portableRuntimeEnvironment (os : Os) : List EnvironmentContribution :=
  [contribution "PATH" "runtime" ["runtime/bin"],
    contribution (loaderKey os) "runtime" ["runtime/lib"],
    contribution "PYTHONPATH" "runtime" ["runtime/lib/python"],
    contribution "CMAKE_PREFIX_PATH" "runtime" ["runtime"],
    contribution "PXR_PLUGINPATH_NAME" "runtime" ["runtime/plugin/usd"]]

/-- The portable text of a path of a component. -/
def renderedPath (id relative : String) : String :=
  String.ofList (("components/" ++ id ++ "/" ++ relative).toList.rdropWhile (· == '/'))

/-- The paths of an activation under the variables they go to. -/
def activationGroups (os : Os) (activation : ActivationInput) : List (String × List String) :=
  [("PXR_PLUGINPATH_NAME", activation.pluginPaths), (loaderKey os, activation.libraryPaths),
    ("PYTHONPATH", activation.pythonPaths), ("PATH", activation.binPaths)]

/-- The changes of one group of paths: later changes come to stand in front, so the paths are
taken from the last. -/
def groupVars (key : String) (paths : List String) : List EnvVar :=
  paths.reverse.map fun path => ⟨key, .prepend (slashed path)⟩

def portablePath (os : Os) (component : ComponentRef) (root path : String) : Result String :=
  (Result.okOr (.ofCode "FORMATION_ACTIVATION_ESCAPE" .validation ("component '" ++ component.id ++
    "' activation path '" ++ path ++ "' escapes its artifact root"))
    (Path.stripPrefix os root path)).map (renderedPath component.id)

/-- The additions of one group, to the changes and to the report. -/
def appendGroup (os : Os) (component : ComponentRef) (root : String)
    (group : String × List String) : Result (List EnvVar × List EnvironmentContribution) :=
  if group.2.isEmpty then .ok ([], [])
  else do
    let portablePaths ← group.2.mapM (portablePath os component root)
    return (groupVars group.1 group.2, [contribution group.1 component.id portablePaths.eraseDups])

/-- The additions of an activation. -/
def appendActivation (os : Os) (component : ComponentRef) (root : String)
    (activation : ActivationInput) : Result (List EnvVar × List EnvironmentContribution) := do
  let groups ← (activationGroups os activation).mapM (appendGroup os component root)
  return (groups.flatMap Prod.fst, groups.flatMap Prod.snd)

/-! ## Resolution -/

def runtimeMismatch (message : String) : Error :=
  .ofCode "FORMATION_RUNTIME_IDENTITY_MISMATCH" .validation message

def runtimeUnvalidated (message : String) : Error :=
  .ofCode "FORMATION_RUNTIME_UNVALIDATED" .validation message

/-- The checks of the pinned runtime. -/
def checkRuntime (codec : Codec) (declared : FormationManifest) (record : ArtifactRecord)
    (manifest : RuntimeManifest) : Result Unit := do
  validateFullDigest "resolved runtime digest" record.digest
  Result.failIf (record.digest ≠ declared.runtime.artifact)
    (.validation ("runtime resolved to " ++ record.digest ++ ", but Formation pins " ++
      declared.runtime.artifact))
  Result.failIf (record.kind ≠ .runtime) (kindMismatch "runtime" .runtime record)
  Result.failIf (record.validation ≠ "passed") (runtimeUnvalidated ("runtime artifact " ++
    record.shortDigest ++ " records validation '" ++ record.validation ++ "' rather than passed"))
  Result.failIf (manifest.validation ≠ .passed) ((runtimeUnvalidated ("runtime '" ++ manifest.id ++
    "' is " ++ manifest.validation.asStr ++ " rather than passed")).withHint
    "use a runtime artifact exported from a passed runtime validation")
  Result.failIf (manifest.computeDigest codec ≠ manifest.digest) (runtimeMismatch ("runtime '" ++
    manifest.id ++ "' manifest digest does not match its canonical fields"))
  Result.failIf (record.target ≠ manifest.variant.slug) (runtimeMismatch
    ("runtime artifact target '" ++ record.target ++ "' != embedded runtime variant '" ++
      manifest.variant.slug ++ "'"))
  record.profile.elim (.ok ()) fun profile =>
    Result.failIf (profile ≠ manifest.profile) (runtimeMismatch ("runtime artifact profile '" ++
      profile ++ "' != embedded runtime profile '" ++ manifest.profile ++ "'"))

/-- The checks of a component before its bundles. -/
def checkComponent (expected : ComponentRef) (component : ComponentInput)
    (runtime : RuntimeManifest) : Result Unit := do
  Result.failIf (component.declared ≠ expected)
    (.validation ("component resolution order/identity mismatch at '" ++ expected.id ++ "'"))
  Result.failIf (component.record.digest ≠ expected.artifact)
    (.validation ("component '" ++ expected.id ++ "' resolved to " ++ component.record.digest ++
      ", but Formation pins " ++ expected.artifact))
  validateComponentKind expected component.record
  Result.failIf (component.record.validation ≠ "passed")
    (.ofCode "FORMATION_COMPONENT_UNVALIDATED" .validation ("component '" ++ expected.id ++
      "' artifact " ++ component.record.shortDigest ++ " records validation '" ++
      component.record.validation ++ "' rather than passed"))
  validateTarget expected component.record runtime
  validateComponentAbi expected component.record runtime
  component.record.runtimeId.elim (.ok ()) fun id => Result.failIf (id ≠ runtime.id)
    (compatibilityError expected.id
      ("runtime id '" ++ id ++ "' != selected '" ++ runtime.id ++ "'"))
  component.record.runtimeDigest.elim (.ok ()) fun digest => Result.failIf (digest ≠ runtime.digest)
    (compatibilityError expected.id
      ("runtime digest '" ++ digest ++ "' != selected '" ++ runtime.digest ++ "'"))
  component.record.profile.elim (.ok ()) fun profile => Result.failIf (profile ≠ runtime.profile)
    (compatibilityError expected.id
      ("profile '" ++ profile ++ "' != selected '" ++ runtime.profile ++ "'"))

/-- The bundles contributed so far: their versions and the components they came with. -/
abbrev BundleVersions := List (String × String × String)

def bundleConflict (name owner version id : String) (incoming : String) : Error :=
  (Error.ofCode "FORMATION_COMPONENT_CONFLICT" .validation ("bundle '" ++ name ++
    "' is contributed by both '" ++ owner ++ "' (version " ++ version ++ ") and '" ++ id ++
    "' (version " ++ incoming ++
    "); two discovery roots for one plugin identity are ambiguous")).withHint
    "remove the duplicate component or use one aggregate product artifact"

/-- The bundles of a component in order, none of a name that was contributed before. -/
def resolveBundles (id : String) (context : RuntimeContext) (runtime : RuntimeManifest) :
    BundleVersions → List LoadedBundle → Result (BundleVersions × List ResolvedBundle)
  | versions, [] => .ok (versions, [])
  | versions, bundle :: rest => do
    validateBundleCompatibility id bundle context runtime
    (versions.lookup bundle.plugin.name).elim (.ok ()) fun (version, owner) =>
      .error (bundleConflict bundle.plugin.name owner version id bundle.plugin.version)
    let (versions, resolved) ← resolveBundles id context runtime
      ((bundle.plugin.name, bundle.plugin.version, id) :: versions) rest
    return (versions, ⟨bundle.plugin.name, bundle.plugin.version, bundle.plugin.kind.asStr⟩ ::
      resolved)

/-- What the components have contributed so far. -/
structure Composed where
  versions : BundleVersions
  vars : List EnvVar
  environment : List EnvironmentContribution
  components : List ResolvedComponent

/-- One component. -/
def resolveComponent (os : Os) (context : RuntimeContext) (runtime : RuntimeManifest)
    (s : Composed) (expected : ComponentRef) (component : ComponentInput) : Result Composed := do
  checkComponent expected component runtime
  let (versions, bundles) ← resolveBundles expected.id context runtime s.versions component.bundles
  let (vars, environment) ← appendActivation os expected component.root component.activation
  return {
    versions := versions
    vars := s.vars ++ vars
    environment := s.environment ++ environment
    components := s.components ++
      [⟨expected.id, expected.kind, ResolvedArtifact.ofRecord component.record, bundles⟩] }

def resolveComponents (os : Os) (context : RuntimeContext) (runtime : RuntimeManifest) :
    Composed → List (ComponentRef × ComponentInput) → Result Composed
  | s, [] => .ok s
  | s, (expected, component) :: rest => do
    let s ← resolveComponent os context runtime s expected component
    resolveComponents os context runtime s rest

/-- The context that the bundles are checked against: the manifest, and the tree for imaging. -/
def bundleContext (input : ResolutionInput) : RuntimeContext :=
  { runtimeContext input.runtimeManifest with imaging := input.runtimeLayout.hasUsdImagingSdk }

def runtimeEnv (os : Os) (input : ResolutionInput) : EnvSet :=
  EnvSet.forUsdInstall os input.runtimeRoot input.runtimeLayout

/-- The state before the first component. -/
def initial (os : Os) (input : ResolutionInput) : Composed :=
  ⟨[], (runtimeEnv os input).vars, portableRuntimeEnvironment os, []⟩

/-- Resolution on a host. -/
def resolve (codec : Codec) (os : Os) (declared : FormationManifest) (input : ResolutionInput) :
    Result MaterializedFormation := do
  declared.validate
  checkRuntime codec declared input.runtimeRecord input.runtimeManifest
  Result.failIf (input.components.length ≠ declared.components.length)
    (.validation ("Formation declares " ++ toString declared.components.length ++
      " component(s), but resolution supplied " ++ toString input.components.length))
  let composed ← resolveComponents os (bundleContext input) input.runtimeManifest
    (initial os input) (declared.components.zip input.components)
  return {
    resolved := {
      schema := RESOLVED_SCHEMA
      name := declared.formation.name
      manifestDigest := declared.digest codec
      target := legacyTarget input.runtimeManifest
      runtime := ResolvedArtifact.ofRecord input.runtimeRecord
      host := declared.host
      components := composed.components
      environment := composed.environment
      command := declared.command
      conflicts := [] }
    env := ⟨(runtimeEnv os input).sep, composed.vars⟩ }

/-! ## Hosts -/

inductive HostFamily
  | maya
  | houdini
  deriving DecidableEq, Repr

/-- The variable that names the root of a host. -/
def HostFamily.variableName : HostFamily → String
  | .maya => "MAYA_LOCATION"
  | .houdini => "HFS"

/-- What resolution reads of the record of a discovered host. -/
structure HostRecord where
  id : String
  family : HostFamily
  root : String
  /-- Roles with the paths of executables, relative to the root and with forward slashes. -/
  executables : List (String × String)
  /-- The version of the embedded Python. -/
  python : Option String
  deriving DecidableEq, Repr

namespace HostRecord

/-- The directory of an executable. -/
def directory (path : String) : String := ((Text.rsplitOnce '/' path).map Prod.fst).getD ""

/-- The directories of the executables by their portable texts. -/
def directories (os : Os) (host : HostRecord) : ExtTreeMap String String :=
  host.executables.foldl (fun directories executable =>
    directories.insert ("host/" ++ slashed (directory executable.2))
      (slashed (Path.join os host.root (directory executable.2)))) ∅

/-- The changes: the sorted directories in front of the search path, then the root. -/
def vars (os : Os) (host : HostRecord) : List EnvVar :=
  ((host.directories os).toList.map Prod.snd).reverse.map (fun path => ⟨"PATH", .prepend path⟩) ++
    [⟨host.family.variableName, .set (slashed host.root)⟩]

def source (host : HostRecord) : String := "host:" ++ host.id

def environment (os : Os) (host : HostRecord) : List EnvironmentContribution :=
  [⟨"PATH", "prepend", host.source, (host.directories os).toList.map Prod.fst⟩,
    ⟨host.family.variableName, "set", host.source, ["host"]⟩]

end HostRecord

def appendHostEnvironment (os : Os) (materialized : MaterializedFormation) (host : HostRecord) :
    MaterializedFormation where
  resolved := { materialized.resolved with
    environment := materialized.resolved.environment ++ host.environment os }
  env := { materialized.env with vars := materialized.env.vars ++ host.vars os }

/-- The first two numbers of a version. -/
def majorMinor (version : String) : String :=
  Text.join "." ((Text.split (· == '.') version).take 2)

def checkHostPython (host : HostRecord) (manifest : RuntimeManifest) : Result Unit :=
  host.python.elim (.ok ()) fun version => Result.failIf (version ≠ majorMinor manifest.python)
    ((Error.ofCode "HOST_PYTHON_ABI_MISMATCH" .validation ("host '" ++ host.id ++
      "' embeds Python " ++ version ++ ", but the pinned runtime uses " ++
      manifest.python)).withHint "select a runtime artifact built for the host's Python ABI")

/-- Resolution with the pinned host, once the artifacts are extracted. -/
def resolveWithHost (codec : Codec) (os : Os) (declared : FormationManifest)
    (host : Option HostRecord) (input : ResolutionInput) : Result MaterializedFormation := do
  host.elim (.ok ()) fun host => checkHostPython host input.runtimeManifest
  let materialized ← resolve codec os declared input
  return host.elim materialized (appendHostEnvironment os materialized)

end OpenStrata.Formation
