import OpenStrata.Ci.Steps

/-!
# Source and support workflows

Cells render by lane: source lanes into jobs that build from the checkout, one job for each lane
and shape of cell; support lanes into jobs that verify pinned artifacts again. A job is a matrix
over its cells, each cell one `include` entry.

## Main definitions

* `includeEntry`: the entry of a cell
* `Job`, `Job.pieces`: a job and its text
* `jobShape`: the job a cell belongs in
* `supportJobs`, `generateSupport`: the support workflow
* `sourceJobs`, `generateSourceWithMode`: the source workflow
-/

namespace OpenStrata.Ci

/-! ## Entries -/

def openusdFlags (cell : SupportCell) : String :=
  cell.requireOpenusd.elim "" fun selector =>
    "--require-openusd " ++ selector ++ cell.requireOpenusdVersion.elim "" fun version =>
      " --require-openusd-version " ++ version

/-- The keys that describe a cell's runtime and its gate. -/
def runtimeKeys (m : SupportMatrix) (cell : SupportCell) : Entry :=
  cell.runtimeArtifact.elim [] fun runtime =>
    [⟨.runtimeArtifact, .plain runtime⟩,
      ⟨.requireOpenusd, .quoted (cell.requireOpenusd.getD "")⟩,
      ⟨.requireOpenusdVersion, .quoted (cell.requireOpenusdVersion.getD "")⟩,
      ⟨.openusdFlags, .quoted (openusdFlags cell)⟩,
      ⟨.targetTrust, .plain cell.trust.asStr⟩,
      ⟨.minimumTrust, .plain (m.minimumTrust cell).asStr⟩,
      ⟨.requireEvidence, .plain (m.cellEvidence cell).asStr⟩,
      ⟨.evidenceFlags, .quoted (m.cellEvidence cell).verifyFlags⟩]

def runnerProfileValue (cell : SupportCell) : EntryValue :=
  cell.runner.elim (.quoted "") .plain

/-- One `matrix.include` entry; `extra` appends the fields of its job. -/
def includeEntry (m : SupportMatrix) (cell : SupportCell) (extra : Entry) : Entry :=
  [⟨.name, .plain cell.name⟩, ⟨.lane, .plain cell.lane.asStr⟩] ++ runtimeKeys m cell ++
    [⟨.platform, .plain cell.platform⟩, ⟨.profile, .plain cell.profile⟩] ++
    (if cell.isWorkspace then [] else [⟨.upTo, .plain (toString cell.upToLevel)⟩]) ++
    [⟨.runsOn, .labels (m.runsOn cell)⟩, ⟨.hosted, .plain (toString (m.isHosted cell))⟩,
      ⟨.runnerProfile, runnerProfileValue cell⟩] ++ extra

def aptPackages (cell : SupportCell) : String :=
  cell.hostPackages.elim "" fun packages => Text.join " " packages.apt

def brewPackages (cell : SupportCell) : String :=
  cell.hostPackages.elim "" fun packages => Text.join " " packages.brew

/-- The per-cell inputs of the runtime fetch and the build prerequisites. -/
def prerequisiteIncludeKeys (cell : SupportCell) : Entry :=
  [⟨.runtimeRemote, .quoted (cell.runtimeRemote.elim "" RuntimeRemote.uri)⟩,
    ⟨.hostPython, .quoted (cell.hostPython.getD "")⟩,
    ⟨.hostPackagesApt, .quoted (aptPackages cell)⟩,
    ⟨.hostPackagesBrew, .quoted (brewPackages cell)⟩]

/-- The keys of every job that builds a bundle from source. -/
def sourceBuildIncludeKeys (cell : SupportCell) : Entry :=
  [⟨.bundle, .plain (cell.bundle.getD ".")⟩] ++ prerequisiteIncludeKeys cell

def intentFlags (cell : SupportCell) : String :=
  cell.intent.elim "" fun intent => "--intent " ++ intent

/-- The keys of a workspace cell. Every entry carries a level, which lower rungs never read. -/
def workspaceIncludeKeys (cell : SupportCell) : Entry :=
  [⟨.verify, .plain cell.verifyRung.asStr⟩, ⟨.intentFlags, .quoted (intentFlags cell)⟩,
    ⟨.upTo, .plain (toString cell.upToLevel)⟩] ++ prerequisiteIncludeKeys cell

def runtimeFreeWorkspaceIncludeKeys (cell : SupportCell) : Entry :=
  [⟨.verify, .plain cell.verifyRung.asStr⟩, ⟨.intentFlags, .quoted (intentFlags cell)⟩,
    ⟨.hostPackagesApt, .quoted (aptPackages cell)⟩,
    ⟨.hostPackagesBrew, .quoted (brewPackages cell)⟩]

def workspaceGraphIncludeKeys (cell : SupportCell) : Entry :=
  [⟨.verify, .plain cell.verifyRung.asStr⟩]

/-! ## Jobs -/

/-- When a job runs: under a condition on the event, or after another job. -/
inductive JobGate
  | onlyIf (condition : String)
  | needs (job : String)
  deriving DecidableEq, Repr

def JobGate.pieces : JobGate → Document
  | .onlyIf condition => lines [["    if: ", .text condition]]
  | .needs job => lines [["    needs: ", .text job]]

/-- A job over the cells of a matrix. -/
structure Job where
  id : String
  gate : JobGate
  title : Document
  env : Document
  strategy : Document
  cells : List SupportCell
  entry : SupportCell → Entry
  steps : Document

namespace Job

/-- The job's head, up to its entries. -/
def header (job : Job) : Document :=
  lines [["  ", .text job.id, ":"]] ++ job.gate.pieces ++
    lines [[.text "    name: "] ++ job.title, ["    runs-on: ", .ref .runsOn]] ++ job.env ++
    job.strategy

def entries (job : Job) : List Entry := job.cells.map job.entry

def pieces (job : Job) : Document :=
  job.header ++ job.entries.flatMap Entry.pieces ++ job.steps

/-- The matrix keys that the renderer's own parts of a job refer to. -/
def references (job : Job) : List MatrixKey :=
  job.header.references ++ job.steps.references

end Job

/-- The job-level exports. Every `ost` invocation of the job records which claim it proves. -/
def ciEnv (withPluginArtifact withRuntimeArtifact : Bool) : Document :=
  lines [
    ["    env:"],
    ["      OST_CI_CELL: ", .ref .name],
    ["      OST_CI_LANE: ", .ref .lane],
    ["      OST_CI_RUNNER_PROFILE: ", .ref .runnerProfile],
    ["      OST_CI_RUNS_ON: $\x7b\x7b join(", .key .runsOn, ", ',') \x7d\x7d"]] ++
  (if withRuntimeArtifact then lines [
    ["      OST_CI_RUNTIME_ARTIFACT: ", .ref .runtimeArtifact],
    ["      OST_CI_MINIMUM_TRUST: ", .ref .minimumTrust]] else []) ++
  (if withPluginArtifact then lines [
    ["      OST_CI_PLUGIN_ARTIFACT: ", .ref .pluginArtifact]] else [])

/-- A workspace-local home on hosted runners, so that the cached registry has one path. -/
def ostHome (m : SupportMatrix) (directory : String) : Document :=
  if m.bootstrap.isSome then lines [
    ["      OST_HOME: $\x7b\x7b ", .key .hosted, " && format('\x7b0\x7d/", .text directory,
     "', github.workspace) || '' \x7d\x7d"]] else []

def plainStrategy : Document :=
  lines [
    ["    strategy:"],
    ["      fail-fast: false"],
    ["      matrix:"],
    ["        include:"]]

/-! ## The support workflow -/

/-- One job for a support lane. Validated support cells carry a plugin artifact. -/
def supportJob (m : SupportMatrix) (id event : String) (cells : List SupportCell) : Job where
  id := id
  gate := .onlyIf ("github.event_name == '" ++ event ++ "'")
  title := [.ref .name]
  env := ciEnv true true
  strategy := lines [
    ["    strategy:"],
    ["      # One broken support line must not hide the state of the others."],
    ["      fail-fast: false"],
    ["      matrix:"],
    ["        include:"]]
  cells := cells
  entry := fun cell => includeEntry m cell
    [⟨.pluginArtifact, .plain (cell.pluginArtifact.getD "")⟩]
  steps := supportSteps m

def supportLane (m : SupportMatrix) (lane : Lane) : List SupportCell :=
  m.supportCells.filter (·.lane == lane)

/-- The jobs of the support workflow; a lane without cells has none. -/
def supportJobs (m : SupportMatrix) : List Job :=
  (if (supportLane m .scheduled).isEmpty then []
    else [supportJob m "scheduled" "schedule" (supportLane m .scheduled)]) ++
  (if (supportLane m .workflowDispatch).isEmpty then []
    else [supportJob m "dispatch" "workflow_dispatch" (supportLane m .workflowDispatch)])

def supportTriggers (m : SupportMatrix) : Document :=
  (if (supportLane m .workflowDispatch).isEmpty then [] else lines [["  workflow_dispatch:"]]) ++
  (if (supportLane m .scheduled).isEmpty then [] else lines [
    ["  schedule:"],
    ["    # Weekly; real-runtime cells are too heavy for per-PR CI (which should"],
    ["    # keep its cheap mock/static checks)."],
    ["    - cron: \"0 3 * * 1\""]])

/-- The support workflow, when a cell belongs in it. -/
def generateSupport (m : SupportMatrix) : Option Document :=
  if m.supportCells.isEmpty then none
  else some (
    lines [
      ["# Generated by `ost ci generate github` from openstrata.ci.yaml."],
      ["# Regenerate after editing the matrix; do not edit the jobs by hand."],
      ["#"],
      ["# Each job is one explicit support cell: a runtime artifact x a plugin"],
      ["# artifact, both pinned by full registry digest. The runner's local registry"],
      ["# (OST_HOME, default ~/.ost) must already hold those artifacts -- seed it with"],
      ["# `ost artifact import` (e.g. from an `ost artifact export` handoff) -- and"],
      ["# `ost` must be on PATH."],
      ["name: ost support matrix"],
      [],
      ["on:"]] ++
    supportTriggers m ++
    lines [
      [],
      ["permissions:"],
      ["  contents: read"],
      [],
      ["jobs:"]] ++
    (supportJobs m).flatMap Job.pieces)

/-! ## The source workflow -/

/-- How source CI is invoked. -/
inductive SourceWorkflowMode
  | direct
  | reusable
  deriving DecidableEq, Repr

/-- What a source job builds, which selects its keys and its steps. -/
inductive JobShape
  | bundle
  | workspace
  | workspaceRuntimeFree
  | workspaceGraph
  deriving DecidableEq, Repr

/-- The job a cell belongs in: its kind and, for a workspace cell, whether its rung needs a
runtime at all. -/
def jobShape (cell : SupportCell) : JobShape :=
  match cell.isWorkspace, cell.isRuntimeFree, cell.verifyRung with
  | false, _, _ => .bundle
  | true, _, .graph => .workspaceGraph
  | true, true, _ => .workspaceRuntimeFree
  | true, false, _ => .workspace

namespace JobShape

def includeKeys : JobShape → SupportCell → Entry
  | .bundle => sourceBuildIncludeKeys
  | .workspace => workspaceIncludeKeys
  | .workspaceRuntimeFree => runtimeFreeWorkspaceIncludeKeys
  | .workspaceGraph => workspaceGraphIncludeKeys

def steps (m : SupportMatrix) : JobShape → Document
  | .bundle => sourceSteps m
  | .workspace => workspaceSteps m
  | .workspaceRuntimeFree => runtimeFreeWorkspaceSteps m
  | .workspaceGraph => workspaceGraphSteps m

end JobShape

/-- One source job over the given cells. The runtime is exported when any of them has one. -/
def sourceJob (m : SupportMatrix) (id condition : String) (shape : JobShape)
    (cells : List SupportCell) : Job where
  id := id
  gate := .onlyIf condition
  title := [.ref .name]
  env := ciEnv false (cells.any fun cell => !cell.isRuntimeFree) ++ ostHome m ".ost-ci-home"
  strategy := plainStrategy
  cells := cells
  entry := fun cell => includeEntry m cell (shape.includeKeys cell)
  steps := shape.steps m

/-- The events a source lane accepts; support lanes have no source jobs. -/
def sourceCallerCondition : Lane → String
  | .pullRequest => "github.event_name == 'pull_request'"
  | .main => "(github.event_name == 'push' && github.ref == 'refs/heads/main')"
  | .scheduled | .workflowDispatch => ""

/-- The condition of a source lane's jobs. -/
def sourceCondition (mode : SourceWorkflowMode) (lane : Lane) (event : String) : String :=
  match mode with
  | .direct => "github.event_name == '" ++ event ++ "'"
  | .reusable => sourceCallerCondition lane ++ " || github.event_name == 'workflow_dispatch'"

/-- The suffixes of the job ids with their shapes, in the order the jobs are rendered. -/
def sourceShapes : List (String × JobShape) :=
  [("", .bundle), ("-workspace-graph", .workspaceGraph),
    ("-workspace-runtime-free", .workspaceRuntimeFree), ("-workspace", .workspace)]

/-- The source lanes with the prefix of their job ids and their event. -/
def sourceLanes : List (Lane × String × String) :=
  [(.pullRequest, "pr", "pull_request"), (.main, "mainline", "push")]

def laneCells (m : SupportMatrix) (lane : Lane) (shape : JobShape) : List SupportCell :=
  m.sourceCells.filter fun cell => cell.lane == lane && jobShape cell == shape

/-- The jobs of one source lane; a shape without cells has none. -/
def laneJobs (m : SupportMatrix) (mode : SourceWorkflowMode) (lane : Lane × String × String) :
    List Job :=
  sourceShapes.filterMap fun shape =>
    let cells := laneCells m lane.1 shape.2
    if cells.isEmpty then none
    else some (sourceJob m (lane.2.1 ++ shape.1) (sourceCondition mode lane.1 lane.2.2)
      shape.2 cells)

def sourceJobs (m : SupportMatrix) (mode : SourceWorkflowMode) : List Job :=
  sourceLanes.flatMap (laneJobs m mode)

def laneHasCells (m : SupportMatrix) (lane : Lane) : Bool :=
  sourceShapes.any fun shape => !(laneCells m lane shape.2).isEmpty

def sourceTriggers (m : SupportMatrix) (mode : SourceWorkflowMode) : Document :=
  match mode with
  | .reusable => lines [["  workflow_call:"]]
  | .direct =>
    (if laneHasCells m .pullRequest then lines [["  pull_request:"]] else []) ++
    (if laneHasCells m .main then lines [["  push:"], ["    branches: [main]"]] else [])

/-- The callers that some job of a reusable workflow accepts. -/
def supportedCallers (m : SupportMatrix) : List String :=
  "github.event_name == 'workflow_dispatch'" ::
    (sourceLanes.filter fun lane => laneHasCells m lane.1).map fun lane =>
      sourceCallerCondition lane.1

/-- The failing job of a reusable workflow: an unsupported call must not succeed with every other
job skipped. It reuses the runner of the first source cell. -/
def rejectUnsupportedCaller (m : SupportMatrix) (first : SupportCell) : Document :=
  lines [
    ["  reject-unsupported-caller:"],
    ["    if: $\x7b\x7b !(", .text (Text.join " || " (supportedCallers m)), ") \x7d\x7d"],
    [.text "    runs-on: ["] ++ labelPieces (m.runsOn first) ++ [.text "]"],
    ["    timeout-minutes: 5"],
    ["    steps:"],
    ["      - name: Reject a caller with no matching source lane"],
    ["        shell: bash"],
    ["        run: |"],
    ["          echo \"::error::Unsupported source CI caller. Use pull_request with ",
     "a PR lane, push to main with a main lane, or workflow_dispatch for all ",
     "source lanes.\" >&2"],
    ["          exit 1"]]

def regenerateNote : SourceWorkflowMode → String
  | .direct => "# Regenerate after editing the matrix; do not edit the jobs by hand."
  | .reusable => "# Regenerate with `ost ci generate github --reusable-source`; " ++
      "do not edit the jobs by hand."

/-- The source workflow, when a cell belongs in it. -/
def generateSourceWithMode (m : SupportMatrix) (mode : SourceWorkflowMode) : Option Document :=
  m.sourceCells.head?.map fun first =>
    lines [
      ["# Generated by `ost ci generate github` from openstrata.ci.yaml."],
      [.text (regenerateNote mode)],
      ["#"],
      ["# Source CI: each job checks out the repo, obtains a digest-pinned runtime"],
      ["# SDK artifact, and builds/tests/packages the bundle from source. On"],
      ["# GitHub-hosted runners the job bootstraps a pinned, checksum-verified `ost`"],
      ["# and pulls the runtime from the cell's remote (oci://) reference — an"],
      ["# actions/cache restore keyed by digest is a speed optimization, never a"],
      ["# correctness precondition. Self-hosted runners keep their operator-managed"],
      ["# `ost` and registry (air-gapped local import stays supported)."],
      ["#"],
      ["# Fork-PR safety: this workflow never publishes, never promotes, and uses no"],
      ["# secrets; keep it that way when editing the matrix."],
      ["name: ost source ci"],
      [],
      ["on:"]] ++
    sourceTriggers m mode ++
    lines [
      [],
      ["permissions:"],
      ["  contents: read"],
      [],
      ["jobs:"]] ++
    (sourceJobs m mode).flatMap Job.pieces ++
    (if mode = .reusable then rejectUnsupportedCaller m first else [])

end OpenStrata.Ci
