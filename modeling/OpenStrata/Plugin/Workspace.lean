import Mathlib.Data.List.MinMax
import Mathlib.Order.WithBot
import OpenStrata.Core.Digest
import OpenStrata.Lib.DepthFirst
import OpenStrata.Lib.SortBy
import OpenStrata.Lib.TreeMap
import OpenStrata.Plugin.Version

/-!
# Plugin workspaces

A workspace is a set of plugin bundles, plain libraries and tools. Validation resolves the
dependencies that its members declare, each to a member of the workspace or to a pinned
artifact, and reports what is missing, ambiguous, incompatible or cyclic.

## Main definitions

* `Bundle`, `Library`, `Tool`: the members of a workspace
* `WorkspaceValidation`: nodes, edges and issues of a workspace
* `validateWorkspaceWithMembers`: the validation
-/

namespace OpenStrata.Plugin

open Std (ExtTreeMap)
open SortBy (sortBy)
open DepthFirst (Walk Search enter search searchNew)

/-! ## Members -/

inductive PluginKind
  | usdFileformat
  | usdAssetResolver
  | usdPackageResolver
  | usdExec
  | usdImaging
  | usdSchema
  | usdviewPlugin
  deriving DecidableEq, Repr

def PluginKind.asStr : PluginKind → String
  | usdFileformat => "usd-fileformat"
  | usdAssetResolver => "usd-asset-resolver"
  | usdPackageResolver => "usd-package-resolver"
  | usdExec => "usd-exec"
  | usdImaging => "usd-imaging"
  | usdSchema => "usd-schema"
  | usdviewPlugin => "usdview-plugin"

/-- A pinned artifact, or one for each target, in the order of the targets. -/
structure LibraryArtifactPin where
  digest : String
  source : Option String
  targets : List (String × LibraryArtifactPin)
  deriving BEq, Repr

structure BundleDependency where
  id : String
  version : String
  contract : Option Nat
  artifact : Option LibraryArtifactPin
  deriving BEq, Repr

structure ToolDependency where
  id : String
  version : String
  artifact : LibraryArtifactPin
  deriving BEq, Repr

structure LibraryDependency where
  id : String
  version : String
  artifact : Option LibraryArtifactPin
  deriving BEq, Repr

structure PluginIdentity where
  name : String
  version : String
  kind : PluginKind

structure Requires where
  bundles : List BundleDependency
  libraries : List LibraryDependency
  tools : List ToolDependency

structure SchemaSection where
  contract : Option Nat

structure PluginManifest where
  plugin : PluginIdentity
  provides : List String
  requires : Requires
  schema : Option SchemaSection

def PluginManifest.name (m : PluginManifest) : String := m.plugin.name

def PluginManifest.kind (m : PluginManifest) : PluginKind := m.plugin.kind

/-- `schema.contract` of the manifest. -/
def PluginManifest.contract (m : PluginManifest) : Option Nat := m.schema.bind (·.contract)

structure Bundle where
  manifest : PluginManifest

structure LibraryIdentity where
  id : String
  version : String

structure LibraryCmake where
  package : String
  target : String

structure LibraryRequires where
  libraries : List LibraryDependency
  buildLibraries : List LibraryDependency
  testLibraries : List LibraryDependency

structure LibraryManifest where
  library : LibraryIdentity
  cmake : LibraryCmake
  requires : LibraryRequires

structure Library where
  manifest : LibraryManifest

def Library.id (library : Library) : String := library.manifest.library.id

def Library.version (library : Library) : String := library.manifest.library.version

structure ToolIdentity where
  id : String

structure ToolRequires where
  libraries : List LibraryDependency

structure ToolManifest where
  tool : ToolIdentity
  requires : ToolRequires

structure Tool where
  manifest : ToolManifest

def Tool.id (tool : Tool) : String := tool.manifest.tool.id

/-! ## The report -/

structure WorkspaceNode where
  id : String
  version : String
  kind : PluginKind
  contract : Option Nat

structure WorkspaceEdge where
  fromId : String
  toId : String
  version : String
  contract : Option Nat
  external : Bool
  artifactDigest : Option String
  artifactTargets : Option (List (String × String))
  deriving DecidableEq, Repr

structure WorkspaceLibraryNode where
  id : String
  version : String
  package : String
  target : String

structure WorkspaceLibraryEdge where
  fromId : String
  /-- `bundle`, `library` or `tool`. -/
  fromKind : String
  toId : String
  version : String
  /-- `runtime`, `build` or `test`. -/
  scope : String
  external : Bool
  artifactDigest : Option String
  artifactTargets : Option (List (String × String))
  deriving DecidableEq, Repr

structure WorkspaceIssue where
  code : String
  bundle : String
  dependency : Option String
  message : String
  deriving DecidableEq, Repr

structure WorkspaceValidation where
  passed : Bool
  nodes : List WorkspaceNode
  edges : List WorkspaceEdge
  libraries : List WorkspaceLibraryNode
  libraryEdges : List WorkspaceLibraryEdge
  issues : List WorkspaceIssue

/-- An absent value is less than any other. -/
def optionKey {α : Type} (value : Option α) : WithBot α := value

def targetsKey (targets : List (String × String)) : List (String ×ₗ String) :=
  targets.map fun target => toLex target

/-- The derived order of edges: field by field. -/
def WorkspaceEdge.key (e : WorkspaceEdge) : String ×ₗ String ×ₗ String ×ₗ WithBot Nat ×ₗ Bool ×ₗ
    WithBot String ×ₗ WithBot (List (String ×ₗ String)) :=
  toLex (e.fromId, toLex (e.toId, toLex (e.version, toLex (optionKey e.contract,
    toLex (e.external, toLex (optionKey e.artifactDigest,
      optionKey (e.artifactTargets.map targetsKey)))))))

def WorkspaceLibraryEdge.key (e : WorkspaceLibraryEdge) : String ×ₗ String ×ₗ String ×ₗ String ×ₗ
    String ×ₗ Bool ×ₗ WithBot String ×ₗ WithBot (List (String ×ₗ String)) :=
  toLex (e.fromId, toLex (e.fromKind, toLex (e.toId, toLex (e.version, toLex (e.scope,
    toLex (e.external, toLex (optionKey e.artifactDigest,
      optionKey (e.artifactTargets.map targetsKey))))))))

def WorkspaceIssue.key (i : WorkspaceIssue) : String ×ₗ String ×ₗ WithBot String ×ₗ String :=
  toLex (i.code, toLex (i.bundle, toLex (optionKey i.dependency, i.message)))

/-- What the loops of the validation add to. -/
structure Report where
  issues : List WorkspaceIssue
  edges : List WorkspaceEdge
  libraryEdges : List WorkspaceLibraryEdge
  externalBundlePins : ExtTreeMap String BundleDependency
  externalToolPins : ExtTreeMap String ToolDependency

def issue (code bundle : String) (dependency : Option String) (message : String) :
    WorkspaceIssue :=
  { code, bundle, dependency, message }

def Report.raise (report : Report) (code bundle : String) (dependency : Option String)
    (message : String) : Report :=
  { report with issues := report.issues ++ [issue code bundle dependency message] }

/-! ## Checks of a dependency -/

def isPortableId (id : String) : Bool :=
  (id.toList.head?.any Char.isAlpha) &&
    Text.all (fun c => c.isAlphanum || c == '-' || c == '_') id

/-- A pin of a single artifact or of one artifact for each target, each with a full digest. -/
def validArtifactPin (artifact : LibraryArtifactPin) : Bool :=
  let pins : List (Option String × LibraryArtifactPin) :=
    if artifact.targets.isEmpty then [(none, artifact)]
    else artifact.targets.map fun (target, pin) => (some target, pin)
  !pins.isEmpty &&
    (artifact.targets.isEmpty || (artifact.digest.isEmpty && artifact.source.isNone)) &&
    pins.all fun (target, pin) =>
      !(target.any fun target => (Text.trim target).isEmpty) && pin.targets.isEmpty &&
        isSha256Ref pin.digest && !(pin.source.any fun source => (Text.trim source).isEmpty)

/-- The digest of an edge to a pinned artifact, when there is one for all targets. -/
def edgeDigest (artifact : LibraryArtifactPin) : Option String :=
  if artifact.targets.isEmpty then some artifact.digest else none

def edgeTargets (artifact : LibraryArtifactPin) : Option (List (String × String)) :=
  if artifact.targets.isEmpty then none
  else some (artifact.targets.map fun (target, pin) => (target, pin.digest))

/-- A requirement that is empty or that no version can be held against. -/
def invalidRequirement (version : String) : Bool :=
  (Text.trim version).isEmpty || !(Version.satisfies "0.0.0" version).isOk

def validateContract (consumerId : String) (dependency : BundleDependency) (provider : Bundle)
    (report : Report) : Report :=
  if dependency.contract = some 0 then
    report.raise "WORKSPACE_SCHEMA_CONTRACT_INVALID" consumerId (some dependency.id)
      "required schema contract must be greater than zero"
  else
    match provider.manifest.kind, dependency.contract, provider.manifest.contract with
    | .usdSchema, none, some contract =>
      report.raise "WORKSPACE_SCHEMA_CONTRACT_REQUIRED" consumerId (some dependency.id)
        ("bundle '" ++ consumerId ++ "' must select schema contract " ++ toString contract ++
          " from '" ++ dependency.id ++ "'")
    | .usdSchema, some _, none =>
      report.raise "WORKSPACE_SCHEMA_CONTRACT_MISSING" consumerId (some dependency.id)
        ("schema bundle '" ++ dependency.id ++ "' does not provide schema.contract")
    | .usdSchema, some required, some actual =>
      if required ≠ actual then
        report.raise "WORKSPACE_SCHEMA_CONTRACT_MISMATCH" consumerId (some dependency.id)
          ("bundle '" ++ consumerId ++ "' requires schema contract " ++ toString required ++
            " from '" ++ dependency.id ++ "', but it provides " ++ toString actual)
      else report
    | .usdSchema, none, none => report
    | _, some _, _ =>
      report.raise "WORKSPACE_SCHEMA_CONTRACT_NOT_APPLICABLE" consumerId (some dependency.id)
        ("bundle '" ++ dependency.id ++ "' is not a usd-schema bundle")
    | _, none, _ => report

def validateDirection (consumerId : String) (consumerKind : PluginKind) (provider : Bundle)
    (report : Report) : Report :=
  if consumerKind = .usdSchema ∨
      ((consumerKind = .usdAssetResolver ∨ consumerKind = .usdPackageResolver) ∧
        provider.manifest.kind = .usdFileformat) then
    report.raise "WORKSPACE_DEPENDENCY_DIRECTION_FORBIDDEN" consumerId
      (some provider.manifest.name)
      ("dependency direction " ++ consumerKind.asStr ++ " -> " ++ provider.manifest.kind.asStr ++
        " is forbidden")
  else report

/-- The version of a bundle of the workspace lies in the range that is required of it. -/
def validateBundleVersion (id : String) (dependency : BundleDependency) (provider : Bundle)
    (report : Report) : Report :=
  if (Text.trim dependency.version).isEmpty then
    report.raise "WORKSPACE_DEPENDENCY_VERSION_INVALID" id (some dependency.id)
      ("bundle '" ++ id ++ "' declares an empty version requirement for '" ++ dependency.id ++ "'")
  else
    match Version.satisfies provider.manifest.plugin.version dependency.version with
    | .ok true => report
    | .ok false =>
      report.raise "WORKSPACE_DEPENDENCY_VERSION_MISMATCH" id (some dependency.id)
        ("bundle '" ++ id ++ "' requires '" ++ dependency.id ++ "' at " ++ dependency.version ++
          ", but the workspace has " ++ provider.manifest.plugin.version)
    | .error error =>
      report.raise "WORKSPACE_DEPENDENCY_VERSION_INVALID" id (some dependency.id)
        ("bundle '" ++ id ++ "' declares an invalid version requirement for '" ++ dependency.id ++
          "': " ++ error.render)

/-- A dependency on a pinned bundle; no bundle of the workspace may have its id. -/
def validateBundleArtifact (unique : ExtTreeMap String Bundle) (id : String)
    (dependency : BundleDependency) (artifact : LibraryArtifactPin) (report : Report) : Report :=
  let previous := report.externalBundlePins[dependency.id]?
  let report := { report with
    externalBundlePins := report.externalBundlePins.insert dependency.id dependency }
  if previous.any (· != dependency) then
    report.raise "WORKSPACE_BUNDLE_ARTIFACT_CONFLICT" id (some dependency.id)
      ("bundle '" ++ dependency.id ++ "' has conflicting external artifact pins")
  else if !validArtifactPin artifact then
    report.raise "WORKSPACE_BUNDLE_ARTIFACT_DIGEST_INVALID" id (some dependency.id)
      ("bundle '" ++ id ++ "' pins '" ++ dependency.id ++
        "' with an invalid sha256 artifact digest")
  else if unique.contains dependency.id then
    report.raise "WORKSPACE_BUNDLE_PROVIDER_AMBIGUOUS" id (some dependency.id)
      ("bundle '" ++ id ++ "' declares both a workspace provider and an artifact for '" ++
        dependency.id ++ "'")
  else if invalidRequirement dependency.version then
    report.raise "WORKSPACE_DEPENDENCY_VERSION_INVALID" id (some dependency.id)
      ("bundle '" ++ id ++ "' declares an invalid version requirement for '" ++ dependency.id ++
        "'")
  else if dependency.contract = some 0 then
    report.raise "WORKSPACE_SCHEMA_CONTRACT_INVALID" id (some dependency.id)
      "required schema contract must be greater than zero"
  else
    { report with edges := report.edges ++ [{
        fromId := id, toId := dependency.id, version := dependency.version
        contract := dependency.contract, external := true
        artifactDigest := edgeDigest artifact, artifactTargets := edgeTargets artifact }] }

/-- A dependency on another bundle, seen for the first time. -/
def validateBundleDependency (unique : ExtTreeMap String Bundle) (id : String) (bundle : Bundle)
    (report : Report) (dependency : BundleDependency) : Report :=
  match dependency.artifact with
  | some artifact => validateBundleArtifact unique id dependency artifact report
  | none =>
    match unique[dependency.id]? with
    | none =>
      report.raise "WORKSPACE_DEPENDENCY_MISSING" id (some dependency.id)
        ("bundle '" ++ id ++ "' requires missing bundle '" ++ dependency.id ++ "'")
    | some provider =>
      let report := { report with edges := report.edges ++ [{
        fromId := id, toId := dependency.id, version := dependency.version
        contract := dependency.contract, external := false
        artifactDigest := none, artifactTargets := none }] }
      let report := validateBundleVersion id dependency provider report
      let report := validateContract id dependency provider report
      validateDirection id bundle.manifest.kind provider report

/-- A dependency of a bundle, a library or a tool on a library, seen for the first time. -/
def validateLibraryDependency (consumerId consumerKind : String)
    (providers : ExtTreeMap String Library) (report : Report)
    (dependency : LibraryDependency) (scope : String) : Report :=
  let consumer := consumerKind ++ " '" ++ consumerId ++ "'"
  if !isPortableId dependency.id then
    report.raise "WORKSPACE_LIBRARY_DEPENDENCY_ID_INVALID" consumerId (some dependency.id)
      ("library dependency id '" ++ dependency.id ++ "' is not a portable identifier")
  else
    match dependency.artifact with
    | some artifact =>
      if !validArtifactPin artifact then
        report.raise "WORKSPACE_LIBRARY_ARTIFACT_DIGEST_INVALID" consumerId (some dependency.id)
          (consumer ++ " pins library '" ++ dependency.id ++
            "' with an invalid sha256 artifact digest")
      else if providers.contains dependency.id then
        report.raise "WORKSPACE_LIBRARY_PROVIDER_AMBIGUOUS" consumerId (some dependency.id)
          (consumer ++ " declares both a workspace provider and an artifact for library '" ++
            dependency.id ++ "'")
      else if invalidRequirement dependency.version then
        report.raise "WORKSPACE_LIBRARY_DEPENDENCY_VERSION_INVALID" consumerId
          (some dependency.id)
          (consumer ++ " declares an invalid version requirement for '" ++ dependency.id ++ "'")
      else
        { report with libraryEdges := report.libraryEdges ++ [{
            fromId := consumerId, fromKind := consumerKind, toId := dependency.id
            version := dependency.version, scope, external := true
            artifactDigest := edgeDigest artifact, artifactTargets := edgeTargets artifact }] }
    | none =>
      match providers[dependency.id]? with
      | none =>
        report.raise "WORKSPACE_LIBRARY_DEPENDENCY_MISSING" consumerId (some dependency.id)
          (consumer ++ " requires missing library '" ++ dependency.id ++ "'")
      | some provider =>
        let report := { report with libraryEdges := report.libraryEdges ++ [{
          fromId := consumerId, fromKind := consumerKind, toId := dependency.id
          version := dependency.version, scope, external := false
          artifactDigest := none, artifactTargets := none }] }
        if (Text.trim dependency.version).isEmpty then
          report.raise "WORKSPACE_LIBRARY_DEPENDENCY_VERSION_INVALID" consumerId
            (some dependency.id)
            (consumer ++ " declares an empty version requirement for '" ++ dependency.id ++ "'")
        else
          match Version.satisfies provider.version dependency.version with
          | .ok true => report
          | .ok false =>
            report.raise "WORKSPACE_LIBRARY_DEPENDENCY_VERSION_MISMATCH" consumerId
              (some dependency.id)
              (consumer ++ " requires library '" ++ dependency.id ++ "' at " ++
                dependency.version ++ ", but the workspace has " ++ provider.version)
          | .error error =>
            report.raise "WORKSPACE_LIBRARY_DEPENDENCY_VERSION_INVALID" consumerId
              (some dependency.id)
              (consumer ++ " declares an invalid version requirement for '" ++ dependency.id ++
                "': " ++ error.render)

/-- A published tool of a bundle's tests, seen for the first time. -/
def validateToolDependency (tools : List Tool) (id : String) (report : Report)
    (dependency : ToolDependency) : Report :=
  if !isPortableId dependency.id || invalidRequirement dependency.version ||
      !validArtifactPin dependency.artifact then
    report.raise "WORKSPACE_TOOL_ARTIFACT_INVALID" id (some dependency.id)
      ("bundle '" ++ id ++ "' has an invalid published tool dependency '" ++ dependency.id ++ "'")
  else
    let previous := report.externalToolPins[dependency.id]?
    let report := { report with
      externalToolPins := report.externalToolPins.insert dependency.id dependency }
    if previous.any (· != dependency) then
      report.raise "WORKSPACE_TOOL_ARTIFACT_CONFLICT" id (some dependency.id)
        ("tool '" ++ dependency.id ++ "' has conflicting external artifact pins")
    else if tools.any (·.id == dependency.id) then
      report.raise "WORKSPACE_TOOL_PROVIDER_AMBIGUOUS" id (some dependency.id)
        ("bundle '" ++ id ++ "' declares both a workspace tool and an artifact for '" ++
          dependency.id ++ "'")
    else report

/-! ## Dependencies of a member -/

/-- Check each dependency that has an id not seen before, and report the others. -/
def eachOnce {δ : Type} (id : δ → String) (duplicate check : Report → δ → Report) :
    List String → Report → List δ → Report
  | _, report, [] => report
  | seen, report, dependency :: rest =>
    if seen.contains (id dependency) then
      eachOnce id duplicate check seen (duplicate report dependency) rest
    else eachOnce id duplicate check (id dependency :: seen) (check report dependency) rest

/-- The bundle dependencies of a bundle; an id that is no identifier is not remembered. -/
def validateBundleDependencies (unique : ExtTreeMap String Bundle) (id : String)
    (bundle : Bundle) : List String → Report → List BundleDependency → Report
  | _, report, [] => report
  | seen, report, dependency :: rest =>
    if !isPortableId dependency.id then
      validateBundleDependencies unique id bundle seen
        (report.raise "WORKSPACE_DEPENDENCY_ID_INVALID" id (some dependency.id)
          ("dependency id '" ++ dependency.id ++ "' is not a portable identifier")) rest
    else if seen.contains dependency.id then
      validateBundleDependencies unique id bundle seen
        (report.raise "WORKSPACE_DUPLICATE_DEPENDENCY" id (some dependency.id)
          ("bundle '" ++ id ++ "' declares dependency '" ++ dependency.id ++
            "' more than once")) rest
    else
      validateBundleDependencies unique id bundle (dependency.id :: seen)
        (validateBundleDependency unique id bundle report dependency) rest

/-- The library dependencies of a member, each in its scope. -/
def validateLibraryDependencies (consumerId consumerKind declares : String)
    (providers : ExtTreeMap String Library) (report : Report)
    (dependencies : List (LibraryDependency × String)) : Report :=
  eachOnce (·.1.id)
    (fun report dependency => report.raise "WORKSPACE_DUPLICATE_LIBRARY_DEPENDENCY" consumerId
      (some dependency.1.id)
      (consumerKind ++ " '" ++ consumerId ++ "' declares " ++ declares ++ " '" ++
        dependency.1.id ++ "' more than once"))
    (fun report dependency =>
      validateLibraryDependency consumerId consumerKind providers report dependency.1
        dependency.2)
    [] report dependencies

def validateToolDependencies (tools : List Tool) (id : String) (report : Report)
    (dependencies : List ToolDependency) : Report :=
  eachOnce (·.id)
    (fun report dependency => report.raise "WORKSPACE_DUPLICATE_TOOL_DEPENDENCY" id
      (some dependency.id)
      ("bundle '" ++ id ++ "' declares tool dependency '" ++ dependency.id ++
        "' more than once"))
    (validateToolDependency tools id) [] report dependencies

def validateBundle (unique : ExtTreeMap String Bundle)
    (providers : ExtTreeMap String Library) (tools : List Tool) (report : Report)
    (entry : String × Bundle) : Report :=
  let (id, bundle) := entry
  let requires := bundle.manifest.requires
  let report := validateBundleDependencies unique id bundle [] report requires.bundles
  let report := validateLibraryDependencies id "bundle" "library dependency" providers
    report (requires.libraries.map fun dependency => (dependency, "runtime"))
  validateToolDependencies tools id report requires.tools

/-- The dependencies of a library, with the scope of each. -/
def LibraryRequires.scoped (requires : LibraryRequires) : List (LibraryDependency × String) :=
  requires.libraries.map (fun dependency => (dependency, "runtime")) ++
    requires.buildLibraries.map (fun dependency => (dependency, "build")) ++
    requires.testLibraries.map fun dependency => (dependency, "test")

def validateLibrary (providers : ExtTreeMap String Library) (report : Report)
    (entry : String × Library) : Report :=
  validateLibraryDependencies entry.1 "library" "dependency" providers report
    entry.2.manifest.requires.scoped

def validateTool (providers : ExtTreeMap String Library) (report : Report)
    (entry : String × List Tool) : Report :=
  match entry.2 with
  | [tool] =>
    validateLibraryDependencies entry.1 "tool" "library dependency" providers report
      (tool.manifest.requires.libraries.map fun dependency => (dependency, "runtime"))
  | declared =>
    report.raise "WORKSPACE_DUPLICATE_TOOL_ID" entry.1 none
      ("tool id '" ++ entry.1 ++ "' is declared " ++ toString declared.length ++ " times")

/-! ## Identities of the members -/

/-- The keys under which a bundle registers imaging adapters. -/
def imagingKeys (bundle : Bundle) : List String :=
  bundle.manifest.provides.filter fun key =>
    Text.startsWith "usd-imaging:" key || Text.startsWith "usd-imaging-prim:" key

/-- Imaging keys that several bundles register. -/
def imagingConflicts (bundles : List Bundle) : List String :=
  let owners := TreeMap.groupBy (·.1)
    (bundles.flatMap fun bundle => (imagingKeys bundle).map fun key => (key, bundle.manifest.name))
  owners.toList.filterMap fun (key, declared) =>
    let names := (sortBy id (declared.map (·.2))).destutter (· ≠ ·)
    if 1 < names.length then
      some ("multiple bundles provide '" ++ key ++ "': " ++ Text.join ", " names)
    else none

/-- The member of a group that has one. -/
def only {α : Type} : List α → Option α
  | [a] => some a
  | _ => none

/-- The members whose id no other member has. -/
def uniqueOf {α : Type} (byId : ExtTreeMap String (List α)) : ExtTreeMap String α :=
  byId.filterMap fun _ declared => only declared

def bundleIssues (entry : String × List Bundle) : List WorkspaceIssue :=
  match entry.2 with
  | [bundle] =>
    let id := entry.1
    let manifest := bundle.manifest
    (if isPortableId id then []
      else [issue "WORKSPACE_BUNDLE_ID_INVALID" id none
        ("bundle id '" ++ id ++ "' is not a portable identifier")]) ++
    (if manifest.kind = .usdSchema ∧ manifest.contract = some 0 then
        [issue "WORKSPACE_SCHEMA_CONTRACT_INVALID" id none
          "schema.contract must be greater than zero"]
      else []) ++
    (if manifest.kind ≠ .usdSchema ∧ manifest.contract.isSome then
        [issue "WORKSPACE_SCHEMA_CONTRACT_NOT_APPLICABLE" id none
          "schema.contract is only valid on a usd-schema bundle"]
      else [])
  | declared =>
    [issue "WORKSPACE_DUPLICATE_BUNDLE_ID" entry.1 none
      ("bundle id '" ++ entry.1 ++ "' is declared " ++ toString declared.length ++ " times")]

def libraryIssues (entry : String × List Library) : List WorkspaceIssue :=
  match entry.2 with
  | [_] => []
  | declared =>
    [issue "WORKSPACE_DUPLICATE_LIBRARY_ID" entry.1 none
      ("library id '" ++ entry.1 ++ "' is declared " ++ toString declared.length ++ " times")]

def bundleNode (entry : String × Bundle) : WorkspaceNode :=
  { id := entry.1, version := entry.2.manifest.plugin.version, kind := entry.2.manifest.kind
    contract := entry.2.manifest.contract }

def libraryNode (entry : String × Library) : WorkspaceLibraryNode :=
  { id := entry.1, version := entry.2.version, package := entry.2.manifest.cmake.package
    target := entry.2.manifest.cmake.target }

/-! ## Cycles -/

/-- The successors of each node in order, nodes without edges included. -/
def adjacencyOf (ids : List String) (edges : List (String × String)) :
    ExtTreeMap String (List String) :=
  let nodes : ExtTreeMap String (List String) := ids.foldl (fun m id => m.insert id []) ∅
  let linked := edges.foldl
    (fun m edge => m.alter edge.1 fun targets => some (targets.getD [] ++ [edge.2])) nodes
  linked.map fun _ targets => (sortBy id targets).destutter (· ≠ ·)

def dependenciesOf (adjacency : ExtTreeMap String (List String)) (id : String) : List String :=
  adjacency[id]?.getD []

/-- A cycle, from its least member on. -/
def rotateToLeast (cycle : List String) : List String :=
  match cycle.min? with
  | some least => cycle.rotate (cycle.idxOf least)
  | none => cycle

/-- The cycles that a depth-first search from each node in turn closes. -/
def cyclesOf (ids : List String) (edges : List (String × String)) : Option (List (List String)) := do
  let adjacency := adjacencyOf ids edges
  let start : Search String (List String) :=
    { states := adjacency.map fun _ _ => 0, stack := [], cycles := [] }
  let done ← adjacency.keys.foldlM
    (searchNew (dependenciesOf adjacency) rotateToLeast (adjacency.size + edges.length)) start
  return (sortBy id done.cycles).destutter (· ≠ ·)

def internalEdges (edges : List WorkspaceEdge) : List (String × String) :=
  (edges.filter fun edge => !edge.external).map fun edge => (edge.fromId, edge.toId)

def findCycles (nodes : List WorkspaceNode) (edges : List WorkspaceEdge) :
    Option (List (List String)) :=
  cyclesOf (nodes.map (·.id)) (internalEdges edges)

/-- The edges between libraries of the workspace whose scope is honoured. -/
def internalLibraryEdges (honoured : WorkspaceLibraryEdge → Bool)
    (edges : List WorkspaceLibraryEdge) : List (String × String) :=
  (edges.filter fun edge => edge.fromKind == "library" && !edge.external && honoured edge).map
    fun edge => (edge.fromId, edge.toId)

def findLibraryCycles (nodes : List WorkspaceLibraryNode) (edges : List WorkspaceLibraryEdge) :
    Option (List (List String)) :=
  cyclesOf (nodes.map (·.id)) (internalLibraryEdges (fun _ => true) edges)

def cycleIssue (code description : String) (cycle : List String) : WorkspaceIssue :=
  issue code (cycle.headD "") none
    (description ++ Text.join " -> " (cycle ++ cycle.head?.toList))

/-! ## Validation -/

/-- The bundles whose id no other bundle has. -/
def uniqueBundles (bundles : List Bundle) : ExtTreeMap String Bundle :=
  uniqueOf (TreeMap.groupBy (·.manifest.name) bundles)

def uniqueLibraries (libraries : List Library) : ExtTreeMap String Library :=
  uniqueOf (TreeMap.groupBy Library.id libraries)

/-- What is reported of the members before their dependencies. -/
def identityReport (bundles : List Bundle) (libraries : List Library) : Report :=
  { issues :=
      (imagingConflicts bundles).map (issue "WORKSPACE_IMAGING_CONFLICT" "workspace" none) ++
        (TreeMap.groupBy (·.manifest.name) bundles).toList.flatMap bundleIssues ++
        (TreeMap.groupBy Library.id libraries).toList.flatMap libraryIssues
    edges := [], libraryEdges := [], externalBundlePins := ∅, externalToolPins := ∅ }

/-- What is reported of the members and their dependencies. -/
def memberReport (bundles : List Bundle) (libraries : List Library) (tools : List Tool) :
    Report :=
  let providers := uniqueLibraries libraries
  let report := (uniqueBundles bundles).toList.foldl
    (validateBundle (uniqueBundles bundles) providers tools) (identityReport bundles libraries)
  let report := providers.toList.foldl (validateLibrary providers) report
  (TreeMap.groupBy Tool.id tools).toList.foldl (validateTool providers) report

/-- The validation that a report and the cycles in its edges amount to. -/
def Report.validation (report : Report) (nodes : List WorkspaceNode)
    (libraryNodes : List WorkspaceLibraryNode) (cycles libraryCycles : List (List String)) :
    WorkspaceValidation :=
  let issues := sortBy WorkspaceIssue.key (report.issues ++
    cycles.map (cycleIssue "WORKSPACE_DEPENDENCY_CYCLE" "bundle dependency cycle: ") ++
    libraryCycles.map
      (cycleIssue "WORKSPACE_LIBRARY_DEPENDENCY_CYCLE" "library dependency cycle: "))
  { passed := issues.isEmpty, nodes, edges := sortBy WorkspaceEdge.key report.edges
    libraries := libraryNodes
    libraryEdges := sortBy WorkspaceLibraryEdge.key report.libraryEdges, issues }

/-- `validate_workspace_with_members`; `none` stands for a search that runs out of fuel. -/
def validateWorkspaceWithMembers (bundles : List Bundle) (libraries : List Library)
    (tools : List Tool) : Option WorkspaceValidation := do
  let nodes := (uniqueBundles bundles).toList.map bundleNode
  let libraryNodes := (uniqueLibraries libraries).toList.map libraryNode
  let report := memberReport bundles libraries tools
  let cycles ← findCycles nodes (sortBy WorkspaceEdge.key report.edges)
  let libraryCycles ←
    findLibraryCycles libraryNodes (sortBy WorkspaceLibraryEdge.key report.libraryEdges)
  return report.validation nodes libraryNodes cycles libraryCycles

/-! ## Build orders -/

namespace WorkspaceValidation

/-- The depth to which a walk of a graph may go. -/
def fuel (adjacency : ExtTreeMap String (List String)) (edges : List (String × String)) : Nat :=
  adjacency.size + edges.length + 1

def bundleAdjacency (v : WorkspaceValidation) : ExtTreeMap String (List String) :=
  adjacencyOf (v.nodes.map (·.id)) (internalEdges v.edges)

/-- The `visit` of `dependency_order`: a dependency not visited before is marked, visited and
then listed, which is `enter`. -/
def visit (adjacency : ExtTreeMap String (List String)) (fuel : Nat) (w : Walk String)
    (id : String) : Option (Walk String) :=
  (dependenciesOf adjacency id).foldlM (enter (dependenciesOf adjacency) fuel) w

def dependencyOrder (v : WorkspaceValidation) (bundleId : String) : Option (List String) :=
  if !v.passed || !(v.nodes.any (·.id == bundleId)) then none
  else
    (visit v.bundleAdjacency (fuel v.bundleAdjacency (internalEdges v.edges)) .empty bundleId).map
      (·.ordered)

def topologicalOrder (v : WorkspaceValidation) : Option (List String) :=
  if !v.passed then none
  else
    -- here `visit` itself marks the node and lists it, which is `enter` again
    ((v.nodes.map (·.id)).foldlM (enter (dependenciesOf v.bundleAdjacency)
      (fuel v.bundleAdjacency (internalEdges v.edges))) .empty).map (·.ordered)

def libraryAdjacency (v : WorkspaceValidation) (honoured : WorkspaceLibraryEdge → Bool) :
    ExtTreeMap String (List String) :=
  adjacencyOf (v.libraries.map (·.id)) (internalLibraryEdges honoured v.libraryEdges)

def libraryFuel (v : WorkspaceValidation) (honoured : WorkspaceLibraryEdge → Bool) : Nat :=
  fuel (v.libraryAdjacency honoured) (internalLibraryEdges honoured v.libraryEdges)

/-- The edges that an installed consumer resolves. -/
def runtimeEdge (edge : WorkspaceLibraryEdge) : Bool := edge.scope == "runtime"

def libraryDependencyOrder (v : WorkspaceValidation) (bundleId : String) :
    Option (List String) := do
  let selectedBundles := (← v.dependencyOrder bundleId) ++ [bundleId]
  let roots := (v.libraryEdges.filter fun edge =>
    edge.fromKind == "bundle" && !edge.external && selectedBundles.contains edge.fromId).map (·.toId)
  let roots := (sortBy id roots).destutter (· ≠ ·)
  let w ← roots.foldlM (enter (dependenciesOf (v.libraryAdjacency runtimeEdge))
    (v.libraryFuel runtimeEdge)) Walk.empty
  return w.ordered

/-- Runtime edges; build edges unless for an installed consumer; test edges of the root only,
and only when its tests are built. -/
def scopedEdge (libraryId : String) (consumer tests : Bool) (edge : WorkspaceLibraryEdge) : Bool :=
  edge.scope == "runtime" || (!consumer && edge.scope == "build") ||
    (tests && edge.fromId == libraryId && edge.scope == "test")

def libraryOrder (v : WorkspaceValidation) (libraryId : String) (consumer tests : Bool) :
    Option (List String) :=
  if !v.passed || !(v.libraries.any (·.id == libraryId)) then none
  else
    let honoured := scopedEdge libraryId consumer tests
    (visit (v.libraryAdjacency honoured) (v.libraryFuel honoured) .empty libraryId).map (·.ordered)

def libraryPrerequisiteOrder (v : WorkspaceValidation) (libraryId : String) :
    Option (List String) :=
  v.libraryOrder libraryId false false

def libraryBuildOrder (v : WorkspaceValidation) (libraryId : String) (tests : Bool) :
    Option (List String) :=
  v.libraryOrder libraryId false tests

def libraryConsumerOrder (v : WorkspaceValidation) (libraryId : String) : Option (List String) :=
  v.libraryOrder libraryId true false

end WorkspaceValidation

end OpenStrata.Plugin
