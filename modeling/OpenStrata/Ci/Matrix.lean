import OpenStrata.Artifact.Policy
import OpenStrata.Artifact.Reference

/-!
# The support matrix

The document that generated CI is rendered from: explicit support cells, each a claim about one
runtime artifact, one platform and one kind of host, with the named runner profiles, repository
checks and release contract they share. A `BTreeMap` is the list of its entries in key order.

## Main definitions

* `SupportCell`, `SupportMatrix`: cells and the document
* `SupportMatrix.runsOn`, `SupportMatrix.resolvedOs`, `SupportMatrix.isHosted`: where a cell runs
* `SupportMatrix.sourceCells`, `SupportMatrix.supportCells`, `SupportMatrix.candidateCells`: the
  cells of each workflow
* `SupportMatrix.minimumTrust`, `SupportMatrix.requireEvidence`: what a cell's gate demands
-/

namespace OpenStrata.Ci

/-- Schema version of the matrix document. -/
def MATRIX_SCHEMA : Nat := 1

/-- The highest verification level. -/
def MAX_LEVEL : Nat := 6

/-- The verification level of a bundle cell that declares none. -/
def DEFAULT_UP_TO : Nat := 5

/-! ## The document -/

inductive HostOs
  | linux
  | windows
  | macos
  deriving DecidableEq, Repr

namespace HostOs

def asStr : HostOs → String
  | .linux => "linux"
  | .windows => "windows"
  | .macos => "macos"

/-- The hosted runner of a cell without labels of its own. -/
def hostedRunner : HostOs → String
  | .linux => "ubuntu-latest"
  | .windows => "windows-latest"
  | .macos => "macos-latest"

end HostOs

/-- Where a cell runs: an operating system and runner labels. -/
structure HostSpec where
  os : HostOs
  labels : List String
  deriving DecidableEq, Repr

/-- Explicit labels win over the hosted runner. -/
def HostSpec.runsOn (host : HostSpec) : List String :=
  if host.labels.isEmpty then [host.os.hostedRunner] else host.labels

/-- When the job of a cell triggers. Source lanes build from the checkout; support lanes verify
pinned artifacts again. -/
inductive Lane
  | pullRequest
  | main
  | scheduled
  | workflowDispatch
  deriving DecidableEq, Repr

namespace Lane

def asStr : Lane → String
  | .pullRequest => "pull_request"
  | .main => "main"
  | .scheduled => "scheduled"
  | .workflowDispatch => "workflow_dispatch"

def isSource : Lane → Bool
  | .pullRequest | .main => true
  | .scheduled | .workflowDispatch => false

end Lane

inductive Publish
  | never
  | candidate
  deriving DecidableEq, Repr

inductive ReleaseMode
  | draft
  | publish
  deriving DecidableEq, Repr

/-- Evidence sidecars a verification gate demands. -/
inductive RequireEvidence
  | all
  | sbom
  | provenance
  | none
  deriving DecidableEq, Repr

namespace RequireEvidence

def requiresSbom : RequireEvidence → Bool
  | .all | .sbom => true
  | .provenance | .none => false

def requiresProvenance : RequireEvidence → Bool
  | .all | .provenance => true
  | .sbom | .none => false

def asStr : RequireEvidence → String
  | .all => "all"
  | .sbom => "sbom"
  | .provenance => "provenance"
  | .none => "none"

/-- The flags of `ost artifact verify` that a level renders into a gate. -/
def verifyFlags (level : RequireEvidence) : String :=
  Text.join " " ((if level.requiresSbom then ["--require-sbom"] else []) ++
    if level.requiresProvenance then ["--require-provenance"] else [])

end RequireEvidence

inductive RunnerKind
  | githubHosted
  | selfHosted
  deriving DecidableEq, Repr

/-- A named capability provider that cells reference instead of raw labels. -/
structure RunnerProfile where
  kind : RunnerKind
  image : Option String
  labels : List String
  deriving DecidableEq, Repr

namespace RunnerProfile

def runsOn (profile : RunnerProfile) : List String :=
  match profile.kind with
  | .githubHosted => [profile.image.getD ""]
  | .selfHosted => profile.labels

def isHosted (profile : RunnerProfile) : Bool := profile.kind == .githubHosted

end RunnerProfile

/-- The remote transport reference of a cell's runtime artifact. -/
structure RuntimeRemote where
  uri : String
  expectedOciDigest : Option String
  deriving DecidableEq, Repr

/-- The pinned `ost` release that hosted runners install. -/
structure OstBootstrap where
  version : String
  repository : String
  sha256 : List (String × String)
  deriving DecidableEq, Repr

structure Bootstrap where
  ost : OstBootstrap
  deriving DecidableEq, Repr

inductive CellKind
  | bundle
  | workspace
  deriving DecidableEq, Repr

/-- How far a workspace cell goes; every rung includes the rungs before it. -/
inductive WorkspaceVerify
  | graph
  | build
  | test
  | pyramid
  | package
  deriving DecidableEq, Repr

def WorkspaceVerify.asStr : WorkspaceVerify → String
  | .graph => "graph"
  | .build => "build"
  | .test => "test"
  | .pyramid => "pyramid"
  | .package => "package"

/-- Public platform and feature support claimed by a cell. -/
structure SupportClaim where
  platform : String
  features : List String
  deriving DecidableEq, Repr

/-- Packages a cell's runner installs before the build, by installer. -/
structure HostPackages where
  apt : List String
  brew : List String
  deriving DecidableEq, Repr

def HostPackages.isEmpty (packages : HostPackages) : Bool :=
  packages.apt.isEmpty && packages.brew.isEmpty

/-- One CI cell. -/
structure SupportCell where
  name : String
  lane : Lane
  runner : Option String
  support : Option SupportClaim
  runtimeArtifact : Option String
  requireOpenusd : Option String
  requireOpenusdVersion : Option String
  runtimeRemote : Option RuntimeRemote
  pluginArtifact : Option String
  kind : CellKind
  bundle : Option String
  verify : Option WorkspaceVerify
  intent : Option String
  platform : String
  profile : String
  upTo : Option Nat
  hostPython : Option String
  hostPackages : Option HostPackages
  publish : Publish
  trust : TrustLevel
  requireEvidence : Option RequireEvidence
  host : HostSpec
  deriving DecidableEq, Repr

namespace SupportCell

/-- The level a bundle cell's pyramid runs to. -/
def upToLevel (cell : SupportCell) : Nat := cell.upTo.getD DEFAULT_UP_TO

/-- How far a workspace cell goes. -/
def verifyRung (cell : SupportCell) : WorkspaceVerify := cell.verify.getD .test

def isWorkspace (cell : SupportCell) : Bool := cell.kind == .workspace

/-- A cell whose claim does not depend on a runtime. -/
def isRuntimeFree (cell : SupportCell) : Bool := cell.runtimeArtifact.isNone

end SupportCell

/-- A repository check, rendered as a step of its own. -/
structure SourceCheck where
  name : String
  run : String
  deriving DecidableEq, Repr

/-- A hand-written workflow that consumes cells of the matrix. -/
structure ExternalWorkflow where
  path : String
  cells : List String
  deriving DecidableEq, Repr

/-- The contract of the tag-triggered release workflow. -/
structure ReleaseLane where
  version : String
  mode : ReleaseMode
  destination : Option String
  publisherRunner : Option String
  environment : Option String
  reproducible : Bool
  reproducibleAcrossBuilds : Bool
  fromPackage : Bool
  checks : List SourceCheck
  deriving DecidableEq, Repr

/-- Trust floors of generated CI and the policy they are checked against. -/
structure TrustRequirements where
  policy : Option String
  prMinTrust : TrustLevel
  mainMinTrust : TrustLevel
  releaseMinTrust : TrustLevel
  deriving DecidableEq, Repr

/-- The support matrix document. -/
structure SupportMatrix where
  schema : Nat
  trust : TrustRequirements
  requireEvidence : RequireEvidence
  bootstrap : Option Bootstrap
  runners : List (String × RunnerProfile)
  sourceChecks : List SourceCheck
  release : Option ReleaseLane
  externalWorkflows : List ExternalWorkflow
  cells : List SupportCell
  deriving DecidableEq, Repr

/-! ## Where cells run and what they demand -/

/-- The operating system a runner token names. -/
def osOfToken (token : String) : Option HostOs :=
  let t := Text.toAsciiLowercase token
  if Text.startsWith "windows" t then some .windows
  else if Text.startsWith "macos" t ∨ Text.startsWith "mac-" t then some .macos
  else if Text.startsWith "ubuntu" t ∨ Text.startsWith "linux" t then some .linux
  else none

namespace SupportMatrix

/-- The profile registered under a name. -/
def profile (m : SupportMatrix) (name : String) : Option RunnerProfile := m.runners.lookup name

/-- The profile a cell's runner resolves to. -/
def cellProfile (m : SupportMatrix) (cell : SupportCell) : Option RunnerProfile :=
  cell.runner.bind m.profile

/-- The `runs-on` value of a cell: its profile wins, else its host. -/
def runsOn (m : SupportMatrix) (cell : SupportCell) : List String :=
  ((m.cellProfile cell).map RunnerProfile.runsOn).getD cell.host.runsOn

/-- The operating system a cell resolves to, when the matrix says enough to know. -/
def resolvedOs (m : SupportMatrix) (cell : SupportCell) : Option HostOs :=
  match m.cellProfile cell with
  | some profile => profile.runsOn.findSome? osOfToken
  | none =>
    if cell.host.labels.isEmpty then some cell.host.os
    else (cell.host.labels.findSome? osOfToken).or (some cell.host.os)

/-- Whether a cell resolves to hosted infrastructure. -/
def isHosted (m : SupportMatrix) (cell : SupportCell) : Bool :=
  match cell.runner with
  | some name => (m.profile name).any RunnerProfile.isHosted
  | none => cell.host.labels.isEmpty

def sourceCells (m : SupportMatrix) : List SupportCell := m.cells.filter (·.lane.isSource)

def supportCells (m : SupportMatrix) : List SupportCell := m.cells.filter (!·.lane.isSource)

/-- The source cells selected for the release workflow. -/
def candidateCells (m : SupportMatrix) : List SupportCell :=
  m.cells.filter (·.publish == .candidate)

/-- The stricter of a cell's own trust requirement and the floor of its lane. -/
def minimumTrust (m : SupportMatrix) (cell : SupportCell) : TrustLevel :=
  max cell.trust (match cell.lane with
    | .pullRequest => m.trust.prMinTrust
    | .main => m.trust.mainMinTrust
    | .scheduled | .workflowDispatch => .localOnly)

/-- The evidence a cell's gate demands: its own declaration, else the document's. -/
def cellEvidence (m : SupportMatrix) (cell : SupportCell) : RequireEvidence :=
  cell.requireEvidence.getD m.requireEvidence

def needsHostPython (m : SupportMatrix) : Bool :=
  m.sourceCells.any fun cell => cell.hostPython.isSome

def needsHostPackages (m : SupportMatrix) : Bool :=
  m.sourceCells.any fun cell => cell.hostPackages.any fun packages => !packages.isEmpty

end SupportMatrix

end OpenStrata.Ci
