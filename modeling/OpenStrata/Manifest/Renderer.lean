import OpenStrata.Core.Error
import OpenStrata.Core.Text
import Std.Data.ExtTreeMap

/-!
# Renderer evidence

The composition intent of a renderer and the reports that its validation runs leave behind. A
report lists checks; the producer session that stands behind it must have run to completion and
succeeded before a PASS counts. Independently produced reports are merged without hiding
conflicts.

## Main definitions

* `RendererManifest`, `RendererManifest.validate`: what is expected of a renderer
* `ProducerSession`: the invocation behind a report
* `RendererReport`, `RendererReport.validateReport`: checks and their validity
* `RendererReport.merge`: the merge of two reports
-/

namespace OpenStrata

open Std (ExtTreeMap)

def RENDERER_SCHEMA : String := "openstrata.renderer/v1alpha1"

def RENDERER_REPORT_SCHEMA : String := "openstrata.renderer-report/v1alpha1"

namespace Renderer

def invalid (message : String) : Error := .invalidManifest message

def isPortableIdChar (c : Char) : Bool := c.isAlphanum || c == '-' || c == '_'

def isPortableId (value : String) : Bool :=
  value.toList.head?.any Char.isAlpha && Text.all isPortableIdChar value

def validatePortableId (label value : String) : Result Unit :=
  Result.failIf (¬ isPortableId value)
    (invalid (label ++ " '" ++ value ++ "' is not a portable identifier"))

def isEvidenceChar (c : Char) : Bool := c.isLower || c.isDigit || c == '_' || c == '-'

def isEvidenceSegment (segment : String) : Bool :=
  segment.toList.head?.any Char.isLower && Text.all isEvidenceChar segment

/-- At least two segments, so that every evidence id carries a namespace. -/
def isEvidenceId (value : String) : Bool :=
  let segments := Text.split (· == '.') value
  2 ≤ segments.length && segments.all isEvidenceSegment

def validateEvidenceId (value : String) : Result Unit :=
  Result.failIf (¬ isEvidenceId value)
    (invalid ("evidence id '" ++ value ++
      "' must be at least two lowercase dot-separated portable segments"))

def validateLabelMapEntries (label : String) (values : ExtTreeMap String String) : Result Unit :=
  Result.forAll (fun entry : String × String => do
    validatePortableId label entry.1
    validatePortableId label entry.2) values.toList

def validateLabelMap (label : String) (values : ExtTreeMap String String) : Result Unit := do
  Result.failIf values.isEmpty (invalid (label ++ " must not be empty"))
  validateLabelMapEntries label values

/-- Identifiers in order, none already seen. -/
def validateUnique (validate : String → Result Unit) (label : String) :
    List String → List String → Result Unit
  | _, [] => .ok ()
  | unique, value :: rest => do
    validate value
    Result.failIf (value ∈ unique) (invalid (label ++ " repeats '" ++ value ++ "'"))
    validateUnique validate label (value :: unique) rest

def validateUniqueIds (label : String) (values : List String) : Result Unit := do
  Result.failIf (values = []) (invalid (label ++ " must not be empty"))
  validateUnique (validatePortableId label) label [] values

end Renderer

open Renderer

/-! ## The manifest -/

structure RendererIdentity where
  name : String
  deriving DecidableEq, Repr

structure RendererComposition where
  backend : String
  sceneInputs : List String
  units : ExtTreeMap String String
  adapters : ExtTreeMap String String

structure RenderProducts where
  required : List String

structure FrameContract where
  contexts : Nat
  completion : String

structure RendererValidation where
  gpuSmoke : Bool
  validationMessagesAreErrors : Bool
  assertions : List String

structure RendererManifest where
  schema : String
  renderer : RendererIdentity
  composition : RendererComposition
  renderProducts : RenderProducts
  frame : FrameContract
  validation : RendererValidation

def RendererManifest.validate (m : RendererManifest) : Result Unit := do
  Result.failIf (m.schema ≠ RENDERER_SCHEMA)
    (invalid ("renderer schema '" ++ m.schema ++ "' is unsupported (expected '" ++
      RENDERER_SCHEMA ++ "')"))
  validatePortableId "renderer.name" m.renderer.name
  validatePortableId "composition.backend" m.composition.backend
  validateUniqueIds "composition.scene_inputs" m.composition.sceneInputs
  validateLabelMap "composition.units" m.composition.units
  validateLabelMapEntries "composition.adapters" m.composition.adapters
  validateUniqueIds "render_products.required" m.renderProducts.required
  Result.failIf (m.frame.contexts = 0) (invalid "frame.contexts must be at least 1")
  Result.failIf (Text.trim m.frame.completion).isEmpty
    (invalid "frame.completion must not be empty")
  Result.failIf (m.validation.assertions = []) (invalid "validation.assertions must not be empty")
  validateUnique validateEvidenceId "validation.assertions" [] m.validation.assertions

/-! ## Sessions and reports -/

inductive RendererCheckStatus
  | pass
  | fail
  | skip
  deriving DecidableEq, Repr

def RendererCheckStatus.asStr : RendererCheckStatus → String
  | .pass => "pass"
  | .fail => "fail"
  | .skip => "skip"

/-- How a producer session ended, whatever the verdicts it reached. -/
inductive SessionOutcome
  | success
  | failure
  | incomplete
  deriving DecidableEq, Repr

structure ProducerSession where
  id : String
  kind : String
  target : String
  startedUnix : Nat
  /-- When the session concluded, if it did. -/
  completedUnix : Option Nat
  outcome : SessionOutcome
  deriving DecidableEq, Repr

namespace ProducerSession

/-- The session concluded, and concluded successfully. -/
def canAssertPass (session : ProducerSession) : Bool :=
  session.outcome == .success && session.completedUnix.isSome

def passRefusal (session : ProducerSession) : String :=
  match session.outcome, session.completedUnix with
  | .success, some _ => "completed successfully"
  | .success, none => "claims success but never recorded a completion time"
  | .failure, _ => "failed"
  | .incomplete, _ => "never completed"

def validate (session : ProducerSession) : Result Unit := do
  validatePortableId "renderer producer session id" session.id
  validatePortableId "renderer producer session kind" session.kind
  Result.failIf (session.kind = "managed" ∨ Text.startsWith "managed-" session.kind)
    (invalid ("renderer producer kind 'managed' is reserved; use renderer-harness or " ++
      "attach-session for external evidence"))
  Result.failIf (Text.trim session.target).isEmpty
    (invalid "renderer producer session target must not be empty")
  Result.failIf (session.completedUnix.any fun completed => completed < session.startedUnix)
    (invalid ("renderer producer session '" ++ session.id ++ "' completed before it started"))

end ProducerSession

structure RendererCheck where
  id : String
  status : RendererCheckStatus
  detail : Option String
  /-- Id of the producer session that contributed this check, stamped by merge. -/
  producer : Option String
  deriving DecidableEq, Repr

structure RendererDevice where
  backend : String
  name : String
  apiVersion : String
  driverVersion : String
  vendorId : Nat
  deviceId : Nat
  deriving DecidableEq, Repr

structure RendererReport where
  schema : String
  renderer : RendererIdentity
  device : Option RendererDevice
  producer : Option ProducerSession
  checks : List RendererCheck
  deriving DecidableEq, Repr

namespace RendererReport

/-- Bind every check of a report to the invocation that produced it. -/
def attachProducer (report : RendererReport) (producer : ProducerSession) :
    Result RendererReport := do
  producer.validate
  return { report with
    producer := some producer
    checks := report.checks.map fun check => { check with producer := some producer.id } }

/-- A completed, successful session stands behind the report. -/
def isOwned (report : RendererReport) : Bool :=
  report.producer.any ProducerSession.canAssertPass

def unownedReason : Option ProducerSession → String
  | some session => "its producer session '" ++ session.id ++ "' " ++ session.passRefusal
  | none => "it records no producer session in field 'producer' required for PASS by schema '" ++
      RENDERER_REPORT_SCHEMA ++ "'"

/-- Refuse the PASSes of a report that no completed, successful session stands behind. -/
def refuseUnownedPass (report : RendererReport) (action : String) : Result Unit :=
  if report.isOwned then .ok ()
  else match report.checks.find? (·.status = .pass) with
    | none => .ok ()
    | some check => .error (invalid ("renderer report cannot " ++ action ++ " PASS for '" ++
        check.id ++ "' because " ++ unownedReason report.producer ++
        "; a PASS requires a producer that ran to completion and succeeded"))

def validateDevice (device : RendererDevice) : Result Unit := do
  validatePortableId "renderer report device.backend" device.backend
  Result.failIf ((Text.trim device.name).isEmpty ∨ (Text.trim device.apiVersion).isEmpty ∨
      (Text.trim device.driverVersion).isEmpty)
    (invalid "renderer report device name/API/driver must not be empty")

def validateIfSome {α : Type} (validate : α → Result Unit) : Option α → Result Unit
  | none => .ok ()
  | some value => validate value

/-- A check that did not pass says why. -/
def isExplained (check : RendererCheck) : Bool :=
  check.status == .pass || check.detail.any fun detail => !(Text.trim detail).isEmpty

/-- The checks in order, none of an id already observed. -/
def validateChecks : List String → List RendererCheck → Result Unit
  | _, [] => .ok ()
  | observed, check :: rest => do
    validateEvidenceId check.id
    Result.failIf (check.id ∈ observed)
      (invalid ("renderer report repeats check '" ++ check.id ++ "'"))
    Result.failIf (¬ isExplained check)
      (invalid ("renderer report check '" ++ check.id ++ "' must explain " ++
        check.status.asStr))
    validateChecks (check.id :: observed) rest

def validateReport (report : RendererReport) (manifest : RendererManifest)
    (requireAll acceptEvidence : Bool) : Result Unit := do
  Result.failIf (report.renderer.name ≠ manifest.renderer.name)
    (invalid ("renderer report names '" ++ report.renderer.name ++ "', but the manifest names '" ++
      manifest.renderer.name ++ "'"))
  validateIfSome validateDevice report.device
  validateIfSome ProducerSession.validate report.producer
  if acceptEvidence then report.refuseUnownedPass "assert" else .ok ()
  validateChecks [] report.checks
  Result.forAll (fun required => Result.failIf (required ∉ report.checks.map (·.id))
    (invalid ("renderer report is missing required assertion '" ++ required ++ "'")))
    (if requireAll then manifest.validation.assertions else [])

def validateAgainst (report : RendererReport) (manifest : RendererManifest) : Result Unit :=
  report.validateReport manifest true true

/-- The validity of an overlay, which need not repeat every assertion. -/
def validateOverlayAgainst (report : RendererReport) (manifest : RendererManifest) : Result Unit :=
  report.validateReport manifest false true

/-- The identity and the fields of an overlay, its PASSes not accepted as evidence. -/
def validateOverlayStructureAgainst (report : RendererReport) (manifest : RendererManifest) :
    Result Unit :=
  report.validateReport manifest false false

def passed (report : RendererReport) : Bool :=
  !(report.checks.any fun check => check.status == .fail)

/-! ## Merging -/

/-- Sessions that describe the same build, the incoming one not superseded. -/
def checkSessions : Option ProducerSession → Option ProducerSession → Result Unit
  | some base, some incoming => do
    Result.failIf (base.target ≠ incoming.target)
      (invalid ("renderer producer session '" ++ incoming.id ++ "' wrote target '" ++
        incoming.target ++ "', but this report's session '" ++ base.id ++ "' wrote '" ++
        base.target ++ "' — these describe different builds"))
    Result.failIf (incoming.startedUnix < base.startedUnix)
      (invalid ("renderer producer session '" ++ incoming.id ++ "' is superseded by '" ++
        base.id ++ "', which started later"))
  | _, _ => .ok ()

def mergeDevice (name : String) :
    Option RendererDevice → Option RendererDevice → Result (Option RendererDevice)
  | some left, some right =>
    if left ≠ right then
      .error (invalid ("renderer report device/runtime context conflicts for '" ++ name ++ "'"))
    else .ok (some left)
  | some device, none => .ok (some device)
  | none, right => .ok right

/-- Stamp a check with the session of its report, unless it carries a producer already. -/
def stamp (session : Option ProducerSession) (check : RendererCheck) : RendererCheck :=
  { check with producer := check.producer.or (session.map (·.id)) }

/-- Merge one check into those before it, at the place of the first of its id. -/
def mergeCheck (replace : Bool) (incoming : RendererCheck) :
    List RendererCheck → Result (List RendererCheck)
  | [] => .ok [incoming]
  | check :: rest =>
    if check.id = incoming.id then do
      Result.failIf (¬ replace)
        (invalid ("renderer report repeats '" ++ incoming.id ++
          "' across inputs; pass an explicit replacement policy"))
      Result.failIf (check.status = .fail ∧ incoming.status ≠ .fail)
        (invalid ("renderer report cannot downgrade FAIL for '" ++ incoming.id ++ "' to " ++
          incoming.status.asStr))
      return incoming :: rest
    else return check :: (← mergeCheck replace incoming rest)

/-- Merge the checks of an overlay in order. -/
def mergeChecks (replace : Bool) (checks : List RendererCheck) :
    List RendererCheck → Result (List RendererCheck)
  | [] => .ok checks
  | incoming :: rest => do mergeChecks replace (← mergeCheck replace incoming checks) rest

/-- The session that owns a merged report. -/
def laterSession : Option ProducerSession → Option ProducerSession → Option ProducerSession
  | some base, some incoming =>
    some (if base.startedUnix ≤ incoming.startedUnix then incoming else base)
  | some session, none => some session
  | none, session => session

/-- Merge independently produced evidence. Existing ids need `replace`, and a recorded FAIL is
never downgraded. -/
def merge (base overlay : RendererReport) (replace : Bool) : Result RendererReport := do
  Result.failIf (base.renderer ≠ overlay.renderer)
    (invalid ("renderer report identity conflict: '" ++ base.renderer.name ++ "' != '" ++
      overlay.renderer.name ++ "'"))
  validateIfSome ProducerSession.validate overlay.producer
  validateIfSome ProducerSession.validate base.producer
  checkSessions base.producer overlay.producer
  base.refuseUnownedPass "carry"
  overlay.refuseUnownedPass "merge"
  let device ← mergeDevice base.renderer.name base.device overlay.device
  let checks ← mergeChecks replace (base.checks.map (stamp base.producer))
    (overlay.checks.map (stamp overlay.producer))
  return {
    schema := base.schema
    renderer := base.renderer
    device
    producer := laterSession base.producer overlay.producer
    checks }

/-- An overlay with its replacement policy. -/
abbrev Incoming := RendererReport × Bool

/-- Merge overlays into a base in order; every merge must succeed. -/
def mergeAll : RendererReport → List Incoming → Result RendererReport
  | base, [] => .ok base
  | base, (overlay, replace) :: rest => do mergeAll (← base.merge overlay replace) rest

/-- Merge overlays into a base in order; a merge that fails leaves the base in place. -/
def mergeSkipping : RendererReport → List Incoming → RendererReport
  | base, [] => base
  | base, (overlay, replace) :: rest =>
    match base.merge overlay replace with
    | .ok merged => mergeSkipping merged rest
    | .error _ => mergeSkipping base rest

end RendererReport

end OpenStrata
