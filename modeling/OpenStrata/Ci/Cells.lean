import OpenStrata.Ci.Validate
import OpenStrata.Platform.Requirement

/-!
# Validation of the cells

One check for each knob of a cell, in the order they are made, then the checks that see the
whole document.

## Main definitions

* `SupportMatrix.validateCell`: the checks of one cell
* `SupportMatrix.validate`: the checks of the document
-/

namespace OpenStrata.Ci

def validateRunner (name : String) (profile : RunnerProfile) : Result Unit := do
  Result.failIf (¬ isKebab name)
    (invalid ("runner profile name '" ++ name ++ "' is not kebab-case ([a-z0-9-])"))
  match profile.kind with
  | .githubHosted =>
    Result.failIf (profile.image.all fun image => !isCiAtom image)
      (invalid ("runner '" ++ name ++ "': github-hosted profiles require an image " ++
        "using [A-Za-z0-9._-] (e.g. ubuntu-24.04, windows-2022)"))
    Result.failIf (¬ profile.labels.isEmpty)
      (invalid ("runner '" ++ name ++ "': github-hosted profiles use a fixed image, not labels"))
  | .selfHosted =>
    Result.failIf profile.labels.isEmpty
      (invalid ("runner '" ++ name ++ "': self-hosted profiles require runs-on labels"))
    Result.failIf profile.image.isSome
      (invalid ("runner '" ++ name ++ "': self-hosted profiles use labels, not an image"))
    Result.failIf (profile.labels.any fun label => !isCiAtom label)
      (invalid ("runner '" ++ name ++ "': self-hosted labels must use [A-Za-z0-9._-]"))

/-- Features in order, none repeated. -/
def validateFeatures (name : String) : List String → List String → Result Unit
  | _, [] => .ok ()
  | seen, feature :: rest => do
    Result.failIf (feature ∈ seen)
      (cellInvalid name ("duplicate support feature '" ++ feature ++ "'"))
    validateFeatures name (feature :: seen) rest

def validateSupportClaim (name : String) (claim : SupportClaim) : Result Unit := do
  Result.failIf (¬ isCiAtom claim.platform)
    (cellInvalid name "support.platform must use [A-Za-z0-9._-]")
  Result.failIf (claim.features.any fun feature => !isCiAtom feature)
    (cellInvalid name "support.features must use [A-Za-z0-9._-]")
  Result.failIf claim.features.isEmpty
    (cellInvalid name "support.features must name at least one workload feature")
  validateFeatures name [] claim.features

/-- A runtime is pinned by a full digest; only a workspace cell may leave it out. -/
def validateRuntimeArtifact (cell : SupportCell) : Result Unit :=
  match cell.runtimeArtifact with
  | some runtime =>
    Result.failIf (¬ isSha256Ref runtime) (cellInvalid cell.name
      ("runtime_artifact '" ++ runtime ++ "' is not a full sha256:<64-hex> digest"))
  | none =>
    Result.failIf (¬ cell.isWorkspace) (cellInvalid cell.name
      ("runtime_artifact is required for bundle and support cells; " ++
        "only a source-lane kind 'workspace' cell may omit it"))

/-- What a cell without a runtime must not declare. -/
def validateRuntimeFree (cell : SupportCell) : Result Unit :=
  if cell.isRuntimeFree then do
    Result.failIf cell.runtimeRemote.isSome
      (cellInvalid cell.name "runtime_remote contradicts an omitted runtime_artifact")
    Result.failIf (cell.requireOpenusd.isSome ∨ cell.requireOpenusdVersion.isSome)
      (cellInvalid cell.name
        "require_openusd and require_openusd_version need a runtime_artifact")
    Result.failIf cell.hostPython.isSome
      (cellInvalid cell.name
        "host_python configures runtime schema tooling and needs a runtime_artifact")
    Result.failIf cell.requireEvidence.isSome
      (cellInvalid cell.name ("require_evidence gates artifact sidecars and cannot apply " ++
        "without a runtime_artifact"))
    Result.failIf (cell.trust ≠ .localOnly)
      (cellInvalid cell.name
        "trust gates an artifact and cannot apply without a runtime_artifact")
  else .ok ()

/-- The consumer cell a requirement selects is the one the cell builds on. -/
def validateOpenusdCell (m : SupportMatrix) (cell : SupportCell)
    (required : OpenUsdRequirement) : Result Unit := do
  Result.failIf (required.platform ≠ cell.platform)
    (cellInvalid cell.name ("require_openusd selects platform '" ++ required.platform ++
      "' but the cell builds platform '" ++ cell.platform ++ "'"))
  match m.resolvedOs cell with
  | some os =>
    Result.failIf (os.asStr ≠ required.os.asStr)
      (cellInvalid cell.name ("require_openusd selects OS '" ++ required.os.asStr ++
        "' but the runner resolves to '" ++ os.asStr ++ "'"))
  | none =>
    .error ((cellInvalid cell.name ("require_openusd selects OS '" ++ required.os.asStr ++
      "' but the runner OS cannot be resolved from its labels")).withHint
        "add a linux, windows, or macos label to the self-hosted runner profile")

def validateOpenusdSelector (catalog : Catalog) (m : SupportMatrix) (cell : SupportCell) :
    Result Unit :=
  match cell.requireOpenusd with
  | some selector =>
    match resolveOpenusdRequirement catalog selector with
    | .ok required => validateOpenusdCell m cell required
    | .error error => .error (cellInvalid cell.name
        ("require_openusd '" ++ selector ++ "' is invalid: " ++ error.message))
  | none =>
    Result.failIf cell.requireOpenusdVersion.isSome
      (cellInvalid cell.name
        "require_openusd_version needs a matching require_openusd consumer cell")

def validateOpenusd (catalog : Catalog) (m : SupportMatrix) (cell : SupportCell) :
    Result Unit := do
  validateOpenusdSelector catalog m cell
  Result.failIf (cell.requireOpenusdVersion.any fun version => !isMajorMinor version)
    (cellInvalid cell.name ("require_openusd_version '" ++ cell.requireOpenusdVersion.getD "" ++
      "' must be an exact major.minor release like '26.08'"))

def validatePluginArtifact (cell : SupportCell) : Result Unit :=
  match cell.pluginArtifact with
  | some value =>
    Result.failIf (¬ isSha256Ref value) (cellInvalid cell.name
      ("plugin_artifact '" ++ value ++ "' is not a full sha256:<64-hex> digest"))
  | none =>
    Result.failIf (¬ cell.lane.isSource) (cellInvalid cell.name
      ("plugin_artifact is required for the '" ++ cell.lane.asStr ++
        "' support lane (source lanes build the bundle instead)"))

/-- A bundle path stays inside the repository; its characters are not restricted. -/
def validateBundle (cell : SupportCell) : Result Unit :=
  Result.failIf (cell.bundle.any escapesRepository) (cellInvalid cell.name
    ("bundle '" ++ cell.bundle.getD "" ++ "' must be a repo-relative path without '..'"))

def validatePublish (m : SupportMatrix) (cell : SupportCell) : Result Unit := do
  Result.failIf (cell.publish ≠ .never ∧ cell.lane = .pullRequest)
    (cellInvalid cell.name "the pull_request lane must never publish (fork-PR safety)")
  Result.failIf (cell.publish ≠ .never ∧ cell.lane ≠ .main)
    (cellInvalid cell.name "publish candidates must use the 'main' source lane")
  Result.failIf (cell.publish ≠ .never ∧ cell.trust < m.trust.releaseMinTrust)
    (cellInvalid cell.name ("publish-capable target trust '" ++ cell.trust.asStr ++
      "' is below release_min_trust '" ++ m.trust.releaseMinTrust.asStr ++ "'"))

def validateTarget (cell : SupportCell) : Result Unit := do
  Result.failIf (¬ isCiAtom cell.platform ∨ ¬ isCiAtom cell.profile)
    (cellInvalid cell.name "platform and profile must use [A-Za-z0-9._-]")
  Result.failIf (cell.upTo.any fun upTo => MAX_LEVEL < upTo)
    (cellInvalid cell.name ("up_to " ++ toString (cell.upTo.getD 0) ++
      " exceeds the highest verification level " ++ toString MAX_LEVEL))

def WorkspaceVerify.runsPyramid (rung : WorkspaceVerify) : Bool :=
  rung == .pyramid || rung == .package

/-- The knobs that address one bundle contradict a workspace cell. -/
def validateWorkspace (cell : SupportCell) : Result Unit := do
  Result.failIf (¬ cell.lane.isSource)
    (cellInvalid cell.name ("kind 'workspace' applies only to source lanes " ++
      "(a support lane re-verifies a pinned plugin artifact and builds nothing)"))
  Result.failIf cell.bundle.isSome
    (cellInvalid cell.name ("kind 'workspace' builds every member, so it cannot " ++
      "also name a bundle — drop 'bundle', or use the default kind"))
  Result.failIf cell.pluginArtifact.isSome
    (cellInvalid cell.name
      "kind 'workspace' builds source members and cannot verify a pinned plugin_artifact")
  Result.failIf (cell.upTo.isSome ∧ ¬ cell.verifyRung.runsPyramid)
    (cellInvalid cell.name ("up_to applies to a kind 'workspace' cell only when " ++
      "verify is 'pyramid' or 'package'"))
  Result.failIf (cell.isRuntimeFree ∧ cell.verifyRung.runsPyramid)
    (cellInvalid cell.name ("verify '" ++ cell.verifyRung.asStr ++
      "' runs the OpenUSD plugin pyramid and requires a runtime_artifact — " ++
      "use graph, build, or test for a runtime-free workspace"))
  Result.failIf (cell.publish ≠ .never)
    (cellInvalid cell.name ("kind 'workspace' publishes nothing — a release " ++
      "candidate is a packaged bundle, so publish from a bundle cell"))
  cell.intent.elim (.ok ()) fun intent => do
    Result.failIf (cell.verifyRung = .graph)
      (cellInvalid cell.name
        "intent is unused by verify 'graph'; select build or test, or remove intent")
    Result.failIf (¬ isBuildIntentName intent)
      (cellInvalid cell.name ("intent '" ++ intent ++
        "' must name a non-default project build intent matching [A-Za-z0-9][A-Za-z0-9._-]*"))

def validateKind (cell : SupportCell) : Result Unit :=
  if cell.isWorkspace then validateWorkspace cell
  else do
    Result.failIf cell.verify.isSome
      (cellInvalid cell.name ("verify applies only to kind 'workspace' — a bundle cell's " ++
        "ladder is 'up_to'"))
    Result.failIf cell.intent.isSome
      (cellInvalid cell.name "intent applies only to kind 'workspace'")

def validateHostPython (cell : SupportCell) : Result Unit :=
  cell.hostPython.elim (.ok ()) fun py => do
    Result.failIf (¬ isMajorMinor py)
      (cellInvalid cell.name ("host_python '" ++ py ++
        "' must be a CPython major.minor version like '3.13'"))
    Result.failIf (¬ cell.lane.isSource)
      (cellInvalid cell.name ("host_python applies only to source lanes " ++
        "(a support lane re-verifies a pinned plugin and never builds)"))

/-- The first name an installer does not take. -/
def firstRefused (manager : HostPackageManager) (names : List String) : Option String :=
  names.find? fun name => !manager.acceptsName name

/-- The list that the runner's installer reads must have packages in it. -/
def validateInstaller (cell : SupportCell) (packages : HostPackages) : Option HostOs → Result Unit
  | some .windows =>
    .error (cellInvalid cell.name ("host_packages has no installer for a Windows runner — " ++
      "provision the dependency on the runner image instead"))
  | some .linux =>
    Result.failIf packages.apt.isEmpty
      (cellInvalid cell.name ("host_packages names nothing under 'apt', but this " ++
        "cell's runner resolves to Linux — a Linux runner installs from 'apt'"))
  | some .macos =>
    Result.failIf packages.brew.isEmpty
      (cellInvalid cell.name ("host_packages names nothing under 'brew', but this " ++
        "cell's runner resolves to macOS — a macOS runner installs from 'brew'"))
  | none => .ok ()

def validateHostPackages (m : SupportMatrix) (cell : SupportCell) : Result Unit :=
  cell.hostPackages.elim (.ok ()) fun packages => do
    Result.failIf packages.isEmpty
      (cellInvalid cell.name ("host_packages declares no packages — remove the key " ++
        "or name at least one under 'apt' or 'brew'"))
    Result.failIf (firstRefused .apt packages.apt).isSome
      (cellInvalid cell.name ("host_packages apt entry '" ++
        (firstRefused .apt packages.apt).getD "" ++ "' is not a package name " ++
        "(use one package-manager argument, no flags or shell metacharacters)"))
    Result.failIf (firstRefused .brew packages.brew).isSome
      (cellInvalid cell.name ("host_packages brew entry '" ++
        (firstRefused .brew packages.brew).getD "" ++ "' is not a formula name " ++
        "(use one package-manager argument, no flags or shell metacharacters)"))
    Result.failIf (¬ cell.lane.isSource)
      (cellInvalid cell.name ("host_packages applies only to source lanes " ++
        "(a support lane re-verifies a pinned plugin and never configures)"))
    validateInstaller cell packages (m.resolvedOs cell)

namespace SupportMatrix

def validateCellRunner (m : SupportMatrix) (cell : SupportCell) : Result Unit :=
  cell.runner.elim (.ok ()) fun runner => do
    Result.failIf (m.profile runner).isNone
      (cellInvalid cell.name ("unknown runner profile '" ++ runner ++
        "' (declare it under runners:)"))
    Result.failIf (¬ cell.host.labels.isEmpty)
      (cellInvalid cell.name ("declares both a runner profile and host.labels — " ++
        "the profile owns the runs-on mapping"))

/-- What lets a hosted source job run at all: a remote for its runtime and a pinned `ost`. -/
def validateHosted (m : SupportMatrix) (cell : SupportCell) : Result Unit :=
  if cell.lane.isSource ∧ m.isHosted cell then do
    Result.failIf (¬ cell.isRuntimeFree ∧ cell.runtimeRemote.isNone)
      (cellInvalid cell.name ("source cells on GitHub-hosted runners require a " ++
        "runtime_remote reference (uri: oci://…@sha256:<digest>) — " ++
        "nothing else can seed the runner's registry"))
    Result.failIf m.bootstrap.isNone
      (cellInvalid cell.name ("source cells on GitHub-hosted runners require the " ++
        "matrix-level bootstrap block (bootstrap.ost.version) so the " ++
        "generated workflow can install a pinned `ost`"))
  else .ok ()

/-- The checks of one cell after its name. -/
def validateCell (catalog : Catalog) (m : SupportMatrix) (cell : SupportCell) : Result Unit := do
  m.validateCellRunner cell
  cell.support.elim (.ok ()) (validateSupportClaim cell.name)
  Result.failIf (cell.host.labels.any fun label => !isCiAtom label)
    (cellInvalid cell.name "host.labels must use [A-Za-z0-9._-]")
  validateRuntimeArtifact cell
  validateRuntimeFree cell
  validateOpenusd catalog m cell
  validatePluginArtifact cell
  validateBundle cell
  validatePublish m cell
  validateTarget cell
  validateKind cell
  validateHostPython cell
  validateHostPackages m cell
  cell.runtimeRemote.elim (.ok ()) (validateRuntimeRemote cell.name)
  m.validateHosted cell

/-- Cells in order, each with a fresh kebab-case name. -/
def validateCells (catalog : Catalog) (m : SupportMatrix) :
    List String → List SupportCell → Result Unit
  | _, [] => .ok ()
  | seen, cell :: rest => do
    Result.failIf (¬ isKebab cell.name)
      (invalid ("cell name '" ++ cell.name ++ "' is not kebab-case ([a-z0-9-])"))
    Result.failIf (cell.name ∈ seen) (invalid ("duplicate cell name '" ++ cell.name ++ "'"))
    m.validateCell catalog cell
    validateCells catalog m (cell.name :: seen) rest

/-- Candidates and the release block come together. -/
def validateCandidates (m : SupportMatrix) : Result Unit := do
  Result.failIf (m.release.isNone ∧ ¬ m.candidateCells.isEmpty)
    (invalid "publish candidates require a matrix-level release block")
  Result.failIf (m.release.isSome ∧ m.candidateCells.isEmpty)
    (invalid "the release block declares no cells with publish: candidate")

/-- Whether the bootstrap pins exact bytes. -/
def hasExactPins (m : SupportMatrix) : Bool :=
  m.bootstrap.any fun bootstrap => !bootstrap.ost.sha256.isEmpty

/-- A hosted publisher needs exact pins. -/
def validatePublisherHost (m : SupportMatrix) (profile : RunnerProfile) : Result Unit :=
  if profile.isHosted then do
    Result.failIf m.bootstrap.isNone
      (invalid "a GitHub-hosted release publisher requires matrix-level bootstrap")
    Result.failIf (¬ m.hasExactPins)
      (invalid "a GitHub-hosted release publisher requires exact bootstrap.ost.sha256 pins")
  else .ok ()

/-- What publish mode needs: a known publisher and a destination. -/
def validatePublisher (m : SupportMatrix) (release : ReleaseLane) : Result Unit :=
  if release.mode = .publish then do
    let runner ← Result.okOr (invalid "release.mode publish requires release.publisher_runner")
      release.publisherRunner
    let profile ← Result.okOr (invalid ("release.publisher_runner references unknown runner " ++
      "profile '" ++ runner ++ "'")) (m.profile runner)
    Result.failIf release.destination.isNone
      (invalid "release.mode publish requires release.destination")
    m.validatePublisherHost profile
  else .ok ()

def validateReleaseContract (m : SupportMatrix) (release : ReleaseLane) : Result Unit := do
  Result.failIf m.trust.policy.isNone
    (invalid "release workflows require trust.policy for provenance and publisher identity")
  Result.failIf (m.trust.releaseMinTrust < .verified)
    (invalid ("release_min_trust '" ++ m.trust.releaseMinTrust.asStr ++
      "' is too weak for a generated release workflow (minimum verified)"))
  m.validatePublisher release
  Result.failIf (m.candidateCells.any m.isHosted ∧ ¬ m.hasExactPins)
    (invalid "GitHub-hosted release candidates require exact bootstrap.ost.sha256 pins")

/-- The cells of one external workflow, each known and none repeated. -/
def validateExternalCells (m : SupportMatrix) (path : String) :
    List String → List String → Result Unit
  | _, [] => .ok ()
  | seen, name :: rest => do
    Result.failIf (name ∈ seen)
      (invalid ("external workflow '" ++ path ++ "': duplicate cell '" ++ name ++ "'"))
    Result.failIf (¬ m.cells.any (·.name == name))
      (invalid ("external workflow '" ++ path ++ "': unknown matrix cell '" ++ name ++ "'"))
    validateExternalCells m path (name :: seen) rest

def validateExternals (m : SupportMatrix) : List String → List ExternalWorkflow → Result Unit
  | _, [] => .ok ()
  | seen, workflow :: rest => do
    validateRepoPath "external_workflows.path" workflow.path
    Result.failIf (workflow.path ∈ seen)
      (invalid ("duplicate external workflow path '" ++ workflow.path ++ "'"))
    Result.failIf workflow.cells.isEmpty
      (invalid ("external workflow '" ++ workflow.path ++
        "': cells must name at least one matrix cell"))
    m.validateExternalCells workflow.path [] workflow.cells
    validateExternals m (workflow.path :: seen) rest

/-- Structural validation of the document. -/
def validate (catalog : Catalog) (m : SupportMatrix) : Result Unit := do
  Result.failIf (m.schema ≠ MATRIX_SCHEMA)
    (invalid ("unsupported support-matrix schema " ++ toString m.schema ++
      " (this build reads " ++ toString MATRIX_SCHEMA ++ ")"))
  Result.failIf m.cells.isEmpty (invalid "the support matrix declares no cells")
  m.bootstrap.elim (.ok ()) validateBootstrap
  m.trust.policy.elim (.ok ()) (validateRepoPath "trust.policy")
  validateChecks "source_checks" m.sourceChecks
  m.release.elim (.ok ()) fun release => do
    validateRelease release
    validateChecks "release.checks" release.checks
  Result.forAll (fun entry : String × RunnerProfile => validateRunner entry.1 entry.2) m.runners
  m.validateCells catalog [] m.cells
  m.validateCandidates
  m.release.elim (.ok ()) m.validateReleaseContract
  m.validateExternals [] m.externalWorkflows

end SupportMatrix

end OpenStrata.Ci
