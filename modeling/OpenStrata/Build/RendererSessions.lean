import OpenStrata.Build.Outputs
import OpenStrata.Manifest.Renderer

/-!
# Renderer reports of managed sessions

A managed operation remembers the renderer reports of its build directory before it runs. When the
operation has ended, each report that was created or rewritten is stamped with the producer session
of the operation, whatever the outcome was, and what was stamped is bound in a record: the
completion of a build, the completion of a test run, or the launch record of a viewport. A build
also keeps the bindings of the previous build of the same fingerprint whose reports nobody touched.

Builds and test runs hold the target lease; the child of a viewport run does not. Whoever does not
end leaves its reports as they are, stamped or not, and no record.

## Main definitions

* `snapshotManagedRendererReports`, `stampChangedManagedRendererReports`,
  `retainUnchangedRendererBindings`: what an operation does to the reports
* `RendererSessions.Event`, `State.apply`: the operations on one build directory, step by step
* `verifyManagedRendererBinding`, `rendererChecks`: what `ost validate` reports of the evidence
-/

namespace OpenStrata

def RENDERER_MANIFEST : String := "openstrata.renderer.yaml"

def RENDERER_REPORT_FILE : String := "renderer-report.json"

/-! ## Reports on disk -/

/-- `serde_json` on renderer reports. -/
structure ReportFormat where
  fromSlice : Bytes → Option RendererReport
  toStringPretty : RendererReport → Bytes

namespace RendererReport

def parse (format : ReportFormat) (source : Bytes) : Result RendererReport := do
  let report ← Result.okOr (.parse RENDERER_REPORT_FILE) (format.fromSlice source)
  Result.failIf (report.schema ≠ RENDERER_REPORT_SCHEMA)
    (.invalidManifest ("renderer report schema '" ++ report.schema ++
      "' is unsupported (expected '" ++ RENDERER_REPORT_SCHEMA ++ "')"))
  return report

/-- `write_renderer_report`. -/
def body (format : ReportFormat) (report : RendererReport) : Bytes :=
  format.toStringPretty report ++ [10]

end RendererReport

structure RendererReportFileState where
  bytes : Bytes
  modified : Option Nat
  deriving DecidableEq, Repr

/-- A file that stands in the build directory, and whether it does so itself or through a link. -/
structure DirectFile where
  regular : Bool
  state : RendererReportFileState
  deriving DecidableEq, Repr

/-- The files directly in a build directory, in name order. -/
structure BuildDir where
  entries : List (String × DirectFile)
  nodup : (entries.map Prod.fst).Nodup

namespace BuildDir

def read (dir : BuildDir) (name : String) : Option DirectFile := dir.entries.lookup name

/-- What the files of some names are replaced by. -/
def overwrite (dir : BuildDir) (written : List (String × DirectFile)) : BuildDir where
  entries := dir.entries.map fun entry => (entry.1, (written.lookup entry.1).getD entry.2)
  nodup := by
    rw [List.map_map]
    exact dir.nodup

def empty : BuildDir where
  entries := []
  nodup := List.nodup_nil

end BuildDir

/-- The states of the reports, by their names. -/
abbrev RendererReportSnapshot := List (String × RendererReportFileState)

def isRendererReportPath (name : String) : Bool :=
  let name := Text.toAsciiLowercase name
  Text.endsWith ".json" name && (Text.splitOnce "renderer" name).isSome &&
    (Text.splitOnce "report" name).isSome

def snapshotEntry (entry : String × DirectFile) : Option (String × RendererReportFileState) :=
  if entry.2.regular ∧ isRendererReportPath entry.1 then some (entry.1, entry.2.state) else none

/-- Without a renderer manifest there is nothing to remember. -/
def snapshotManagedRendererReports (manifest : Option (Result RendererManifest)) (dir : BuildDir) :
    RendererReportSnapshot :=
  if manifest.isSome then dir.entries.filterMap snapshotEntry else []

/-! ## Stamping -/

inductive ManagedReportValidation
  | none
  | overlay
  | complete
  deriving DecidableEq

/-- What a stamped report must satisfy. -/
def ManagedReportValidation.check (manifest : RendererManifest) (report : RendererReport) :
    ManagedReportValidation → Result Unit
  | .none => .ok ()
  | .overlay => report.validateOverlayAgainst manifest
  | .complete => report.validateAgainst manifest

section Stamping

variable (codec : Codec) (format : ReportFormat) (manifest : RendererManifest)

/-- The report with its new owner, written before it is validated. -/
def stampRendererReportAt (producer : ProducerSession) (modified : Option Nat)
    (validation : ManagedReportValidation) (state : RendererReportFileState) :
    Result (RendererReportFileState × Result Unit) := do
  let report ← RendererReport.parse format state.bytes
  let report ← report.attachProducer producer
  return ({ bytes := report.body format, modified }, validation.check manifest report)

/-- Stamp reports in order, stopping at the first that fails. The bindings are of the bytes that
were written. -/
def stampReports (producer : ProducerSession) (modified : Option Nat) (validatePrimary : Bool) :
    RendererReportSnapshot → RendererReportSnapshot × Result (List RendererEvidenceBinding)
  | [] => ([], .ok [])
  | (name, state) :: rest =>
    let validation := if ¬ validatePrimary then .none
      else if name = RENDERER_REPORT_FILE then .complete else .overlay
    match stampRendererReportAt format manifest producer modified validation state with
    | .error error => ([], .error error)
    | .ok (stamped, .error error) => ([(name, stamped)], .error error)
    | .ok (stamped, .ok ()) =>
      let others := stampReports producer modified validatePrimary rest
      ((name, stamped) :: others.1, others.2.map fun bindings =>
        { path := forwardSlashes name, session := producer.id,
          sha256 := sha256Hex codec stamped.bytes } :: bindings)

end Stamping

/-- The reports of a snapshot that are not in an earlier one as they are. -/
def changedReports (before after : RendererReportSnapshot) : RendererReportSnapshot :=
  after.filter fun entry => before.lookup entry.1 ≠ some entry.2

/-- Stamp every report that was created or rewritten since a snapshot: the directory that results,
and the bindings. -/
def stampChangedManagedRendererReports (codec : Codec) (format : ReportFormat)
    (manifest : Option (Result RendererManifest)) (before : RendererReportSnapshot)
    (producer : ProducerSession) (modified : Option Nat) (validatePrimary : Bool)
    (dir : BuildDir) : BuildDir × Result (List RendererEvidenceBinding) :=
  match manifest with
  | none => (dir, .ok [])
  | some (.error error) => (dir, .error error)
  | some (.ok loaded) =>
    let stamped := stampReports codec format loaded producer modified validatePrimary
      (changedReports before (snapshotManagedRendererReports manifest dir))
    (dir.overwrite (stamped.1.map fun entry => (entry.1, ⟨true, entry.2⟩)), stamped.2)

/-- Keep the previous bindings of reports that have their bytes since the snapshot. -/
def retainUnchangedRendererBindings (codec : Codec) (dir : BuildDir)
    (before : RendererReportSnapshot) (changed : List RendererEvidenceBinding) :
    List RendererEvidenceBinding → List RendererEvidenceBinding
  | [] => changed
  | binding :: previous =>
    let keeps := !changed.any (·.path == binding.path) &&
      (before.lookup binding.path).any fun state =>
        sha256Hex codec state.bytes == binding.sha256 &&
          ((dir.read binding.path).map (·.state)) == some state
    retainUnchangedRendererBindings codec dir before
      (if keeps then changed ++ [binding] else changed) previous

def managedProducerSession (kind target : String) (invocation : Option String)
    (freshSessionId : String) (startedUnix : Nat) (completedUnix : Option Nat)
    (outcome : SessionOutcome) : ProducerSession where
  id := (invocation.map fun invocation => kind ++ "-" ++ invocation).getD freshSessionId
  kind := kind
  target := target
  startedUnix := startedUnix
  completedUnix := completedUnix
  outcome := outcome

namespace RendererSessions

/-! ## Operations -/

/-- What may own a report: a build, a test run, or the child of a viewport run. -/
inductive Operation
  | build
  | test
  | viewport (child : Nat)
  deriving DecidableEq

/-- The kind of the producer sessions. -/
def Operation.kind : Operation → String
  | .build => "ost-build"
  | .test => "ost-test"
  | .viewport _ => "ost-renderer-viewport"

/-- The child that runs, if the operation does not hold the target lease itself. -/
def Operation.child : Operation → Option Nat
  | .build | .test => none
  | .viewport child => some child

/-- How an operation ended. -/
inductive Ending
  | build (outcome : SessionOutcome)
  /-- Whether CTest succeeded, unless it was interrupted, and the totals of the report it wrote. -/
  | test (ctest : Option (Bool × Option TestTotals))
  | viewport (exitCode : Option Int)

/-- `viewport_session_outcome`: with 77 a host says that it cannot present. -/
def viewportSessionOutcome (exitCode : Option Int) : SessionOutcome :=
  if exitCode = some 0 ∨ exitCode = some 77 then .success else .failure

/-- The totals that a test run can be recorded with. -/
def recordedTotals (totals : Option TestTotals) : Option TestTotals :=
  totals.filter fun totals => 0 < totals.total

def Ending.outcome : Ending → SessionOutcome
  | .build outcome => outcome
  | .test none => .incomplete
  | .test (some (success, totals)) =>
    match recordedTotals totals with
    | none => .failure
    | some totals => if success ∨ 0 < totals.failed then .success else .failure
  | .viewport exitCode => viewportSessionOutcome exitCode

/-- An operation that ended so publishes a record. -/
def Ending.publishes : Ending → Bool
  | .build outcome => outcome == .success
  | .test none => false
  | .test (some (_, totals)) => (recordedTotals totals).isSome
  | .viewport _ => true

def Ending.totals : Ending → Option TestTotals
  | .test (some (_, totals)) => recordedTotals totals
  | _ => none

/-- What a producer session records of its operation. -/
structure Identity where
  target : String
  invocation : Option String
  freshSessionId : String
  startedUnix : Nat
  endedUnix : Nat

/-- The session of an operation that has ended. -/
def producer (operation : Operation) (identity : Identity) (ending : Ending) : ProducerSession :=
  managedProducerSession operation.kind identity.target identity.invocation
    identity.freshSessionId identity.startedUnix
    (if ending.outcome = .incomplete then none else some identity.endedUnix) ending.outcome

/-- An operation under way: running, or about to publish what it has stamped. -/
inductive Session
  | running (operation : Operation) (before : RendererReportSnapshot)
      (previous : Option BuildCompletion)
  | stamped (operation : Operation) (before : RendererReportSnapshot)
      (previous : Option BuildCompletion) (ending : Ending)
      (bindings : List RendererEvidenceBinding)

/-- A build directory, the records that stand for it, and who is at work. -/
structure State where
  dir : BuildDir
  built : Option BuildCompletion
  tested : Option TestCompletion
  /-- The bindings of the viewport launch record. -/
  launched : Option (List RendererEvidenceBinding)
  /-- The holder of the target lease under `none`, the viewport children under their numbers. -/
  session : Option Nat → Option Session

inductive Event
  /-- Anybody writes, touches or removes reports: a harness, a merge, an editor. -/
  | edit (dir : BuildDir)
  | start (operation : Operation)
  /-- The operation has ended and stamps, writing at the given time. -/
  | stamp (operation : Operation) (identity : Identity) (ending : Ending) (modified : Option Nat)
  | publishBuild (run : RootBuild.Published) (outputs : List BuildOutput)
  /-- The build record is the one that the run found before it waited for the lease. -/
  | publishTest (build : BuildCompletion) (members : List (String × Nat))
      (invocation : Option String) (completedUnix : Nat)
  | publishViewport (child : Nat)
  /-- `invalidate_viewport_launch_record`, before the build that a viewport run starts with. -/
  | invalidateLaunch
  /-- `write_viewport_build_failure_record`, when that build fails. -/
  | recordLaunchFailure

/-- What ends or begins under a holder. -/
def Event.concerns (holder : Option Nat) : Event → Prop
  | .edit _ | .invalidateLaunch | .recordLaunchFailure => False
  | .start operation | .stamp operation _ _ _ => operation.child = holder
  | .publishBuild _ _ | .publishTest _ _ _ _ => none = holder
  | .publishViewport child => some child = holder

section

variable (codec : Codec) (format : ReportFormat) (manifest : Option (Result RendererManifest))
  (buildDir : String)

namespace State

def setSession (s : State) (holder : Option Nat) (session : Option Session) : State :=
  { s with session := Function.update s.session holder session }

def snapshot (s : State) : RendererReportSnapshot :=
  snapshotManagedRendererReports manifest s.dir

/-- What stamping at the end of an operation does. -/
def stamping (s : State) (operation : Operation) (identity : Identity) (ending : Ending)
    (modified : Option Nat) (before : RendererReportSnapshot) :
    BuildDir × Result (List RendererEvidenceBinding) :=
  stampChangedManagedRendererReports codec format manifest before
    (producer operation identity ending) modified (ending.outcome == .success) s.dir

/-- The record that the build about to publish writes. -/
def completion (s : State) (run : RootBuild.Published) (outputs : List BuildOutput) :
    Option BuildCompletion :=
  match s.session none with
  | some (.stamped .build before previous _ bindings) =>
    let kept := ((RootBuild.sameBuild codec run buildDir previous).map (·.rendererReports)).getD []
    let completion := run.completion buildDir
    let completion := (run.invocation.map completion.withInvocation).getD completion
    some ((completion.withRendererReports
      (retainUnchangedRendererBindings codec s.dir before bindings kept)).withOutputs outputs)
  | _ => none

/-- The record that the test run about to publish writes. -/
def testCompletion (s : State) (build : BuildCompletion) (members : List (String × Nat))
    (invocation : Option String) (completedUnix : Nat) : Option TestCompletion :=
  match s.session none with
  | some (.stamped .test _ _ ending bindings) => ending.totals.map fun totals =>
    let completion := ((TestCompletion.new codec build (Tested.configuration build) totals
      completedUnix).withMembers members).withRendererReports bindings
    (invocation.map completion.withInvocation).getD completion
  | _ => none

/-- The bindings of the launch record that a viewport run about to publish writes. -/
def launch (s : State) (child : Nat) : Option (List RendererEvidenceBinding) :=
  match s.session (some child) with
  | some (.stamped (.viewport _) _ _ _ bindings) => some bindings
  | _ => none

/-- An operation starts: it remembers the reports, and a build removes the completion record. -/
def start (s : State) (operation : Operation) : State :=
  let s' := s.setSession operation.child
    (some (.running operation (s.snapshot manifest) s.built))
  if operation = .build then { s' with built := none } else s'

/-- An operation that has ended stamps. It goes on to its record when that succeeds. -/
def stamp (s : State) (operation : Operation) (identity : Identity) (ending : Ending)
    (modified : Option Nat) : State :=
  match s.session operation.child with
  | some (.running operation' before previous) =>
    if operation' = operation then
      let stamped := s.stamping codec format manifest operation identity ending modified before
      let s' := { s with dir := stamped.1 }
      s'.setSession operation.child (stamped.2.toOption.bind fun bindings =>
        if ending.publishes then some (.stamped operation before previous ending bindings)
        else none)
    else s
  | _ => s

def apply (s : State) : Event → State
  | .edit dir => { s with dir }
  | .start operation => s.start manifest operation
  | .stamp operation identity ending modified =>
    s.stamp codec format manifest operation identity ending modified
  | .publishBuild run outputs =>
    match s.completion codec buildDir run outputs with
    | some record => { s.setSession none none with built := some record }
    | none => s
  | .publishTest build members invocation completedUnix =>
    match s.testCompletion codec build members invocation completedUnix with
    | some record => { s.setSession none none with tested := some record }
    | none => s
  | .publishViewport child =>
    match s.launch child with
    | some bindings => { s.setSession (some child) none with launched := some bindings }
    | none => s
  | .invalidateLaunch => { s with launched := none }
  | .recordLaunchFailure => { s with launched := some [] }

def run (s : State) (history : List Event) : State :=
  history.foldl (State.apply codec format manifest buildDir) s

/-- A directory without records in which nobody is at work. -/
def initial (dir : BuildDir) : State where
  dir := dir
  built := none
  tested := none
  launched := none
  session _ := none

end State

end

/-! ## Validation -/

/-- A line of the report that `ost validate` prints. -/
structure Check where
  name : String
  status : Tested.CheckStatus
  detail : Option String
  producerKind : Option String
  verificationClass : Option String
  deriving DecidableEq, Repr

namespace Check

def pass (name : String) : Check := ⟨name, .pass, none, none, none⟩

def fail (name detail : String) : Check := ⟨name, .fail, some detail, none, none⟩

def skip (name detail : String) : Check := ⟨name, .skip, some detail, none, none⟩

end Check

/-- What a validation looks at. -/
structure Validation where
  project : Tested.Project
  manifest : Option (Result RendererManifest)
  /-- The directory is given with `--build-dir`, so no completion is looked for. -/
  external : Bool
  strict : Bool
  manifestPath : String
  reportPath : String
  launchPath : String

namespace Validation

variable (codec : Codec) (format : ReportFormat) (v : Validation) (s : State)

/-- The build record that the `built` check accepts. -/
def builtCompletion : Option BuildCompletion :=
  if v.external then none
  else (Tested.builtCheck v.project "" { tree := [], built := s.built, tested := s.tested }).2

/-- The test record that the `tested` check accepts. -/
def testedCompletion : Option TestCompletion :=
  match v.builtCompletion s, s.tested with
  | some build, some tested =>
    if (tested.validateAgainst codec build).isOk then some tested else none
  | _, _ => none

def bindingsOf (kind id : String) : Except String (List RendererEvidenceBinding) :=
  if kind = "ost-build" then .ok (((v.builtCompletion s).map (·.rendererReports)).getD [])
  else if kind = "ost-test" then
    .ok (((v.testedCompletion codec s).map (·.rendererReports)).getD [])
  else if kind = "ost-renderer-viewport" then
    match s.launched with
    | some bindings => .ok bindings
    | none => .error ("managed producer '" ++ id ++ "' has no durable viewport record at " ++
        v.launchPath ++ " (No such file or directory (os error 2))")
  else .error ("managed renderer producer kind '" ++ kind ++
    "' has no supported completion binding")

/-- The report of a managed producer must be bound as it is. -/
def verifyManagedRendererBinding (bytes : Bytes) (report : RendererReport) : Except String Unit :=
  match report.producer with
  | none => .ok ()
  | some producer =>
    if ¬ Text.startsWith "ost-" producer.kind then .ok ()
    else do
      let bindings ← v.bindingsOf codec s producer.kind producer.id
      match bindings.find? fun binding =>
          binding.path == RENDERER_REPORT_FILE && binding.session == producer.id with
      | none => .error ("managed producer '" ++ producer.id ++ "' does not bind renderer report '" ++
          RENDERER_REPORT_FILE ++ "' in its completion evidence")
      | some binding =>
        refuseIf (sha256Hex codec bytes ≠ binding.sha256)
          ("renderer report '" ++ RENDERER_REPORT_FILE ++ "' digest " ++ sha256Hex codec bytes ++
            " does not match managed producer '" ++ producer.id ++ "' completion digest " ++
            binding.sha256)

end Validation

namespace Validation

variable (codec : Codec) (format : ReportFormat) (v : Validation) (s : State)

/-- The report that stands in the directory, if it is valid evidence. -/
def evidence (manifest : RendererManifest) (bytes : Bytes) : Result RendererReport := do
  let report ← RendererReport.parse format bytes
  report.validateAgainst manifest
  match v.verifyManagedRendererBinding codec s bytes report with
  | .error detail => .error (.validation detail)
  | .ok () => return report

end Validation

end RendererSessions

end OpenStrata
