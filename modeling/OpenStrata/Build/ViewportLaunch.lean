import OpenStrata.Build.ExternalBuild
import OpenStrata.Build.RendererSessions
import OpenStrata.Manifest.RendererMerge

/-!
# Viewport launches

A viewport run removes the launch record of its build directory, builds, launches the viewport and
writes a record of how that ended; validation takes its verdict from the record. A run that ends
between the removal and the record leaves none. Validation then falls back on the record that older
versions kept for the whole target, which no run removes: a success recorded there speaks for a run
that failed.

## Main definitions

* `viewport`: a run, stage by stage, on the record files and the files of the build directory
* `viewportLaunchCheck`: the verdict of validation
* `Vouches`: a record of a successful launch whose reports are as they were bound

## Main results

* `status_viewportLaunchCheck`: the verdict is a pass when the record that is found vouches
* `viewportLaunchCheck_last`: the verdict is that of the last launch, unless the record of the
  target vouches for the directory
-/

namespace OpenStrata

namespace RendererEvidenceBinding

def fields (binding : RendererEvidenceBinding) : List (String × Option Json) :=
  [("path", some (.str binding.path)), ("session", some (.str binding.session)),
    ("sha256", some (.str binding.sha256))]

def toValue (binding : RendererEvidenceBinding) : Json := Serde.object binding.fields

def fromJson (value : Json) : Option RendererEvidenceBinding := do
  let fields ← Serde.fields ["path", "session", "sha256"] value
  let path ← Serde.required fields "path" Serde.string
  let session ← Serde.required fields "session" Serde.string
  let sha256 ← Serde.required fields "sha256" Serde.string
  some { path, session, sha256 }

theorem fromJson_toValue (binding : RendererEvidenceBinding) :
    fromJson binding.toValue = some binding := by
  have hkeys : Serde.distinctKeys binding.fields := rfl
  refine Serde.bind_fields rfl ?_
  refine Serde.bind_required hkeys rfl rfl ?_
  refine Serde.bind_required hkeys rfl rfl ?_
  refine Serde.bind_required hkeys rfl rfl ?_
  rfl

end RendererEvidenceBinding

namespace ViewportLaunch

open BuildCompletion (optionalText)
open ExternalBuild (samePath samePath_refl)
open RendererSessions (Check viewportSessionOutcome Identity Ending)

/-! ## Records -/

/-- What reading a launch record gives. -/
inductive RecordFile
  | unreadable (error : String)
  | invalid (error : String)
  | json (value : Json)

/-- The files of a build directory: those that stand directly in it, and what reading any other path
below it gives. -/
structure Files where
  dir : BuildDir
  nested : String → Except String Bytes

/-- Read a file by its path below the directory. -/
def Files.read (files : Files) (path : String) : Except String Bytes :=
  match files.dir.read path with
  | some file => .ok file.state.bytes
  | none => files.nested path

/-- The record of the build directory, the record of the whole target that older versions wrote,
and the files of the build directory. -/
structure State where
  record : Option RecordFile
  legacy : Option RecordFile
  files : Files

/-- The target and the build directory that the runs and the validation are about. -/
structure Site where
  os : Os
  targetId : String
  intentName : String
  buildDir : String
  buildLog : String
  recordPath : String
  legacyPath : String

def RENDERER_LAUNCH_SCHEMA : String := "openstrata.renderer-launch/v1"

/-- Set a field of an object. -/
def setIndex (key : String) (value : Json) : Json → Json
  | .obj fields => .obj (KeyMap.insert key value fields)
  | other => other

/-! ## Runs -/

/-- What a run is asked for. -/
structure Request where
  adapter : String
  platform : String
  profile : String
  config : String
  configureTimeout : ℕ
  buildTimeout : ℕ
  args : List String
  /-- The cache entries of the intent. -/
  cache : List (String × CMakeCacheEntry)
  available : List String
  preflightOnly : Bool

/-- The viewport that was launched, and the files that it leaves. -/
structure Child where
  code : Option Int
  exitDetail : String
  stdout : String
  stderr : String
  files : Files

/-- A run: what it is asked for, and how each of its stages ends. -/
structure Run where
  request : Request
  /-- The selection, the manifest with its adapter, the plugins and the intent. -/
  loaded : Result Unit
  startedUnix : ℕ
  completedUnix : ℕ
  plugins : Json
  environment : Json
  /-- Whether the record of the build directory can be removed. -/
  removable : Bool
  /-- How the builds end, the cache entries of the intent they end with, and the files that they
  leave. -/
  build : Result Unit
  adopted : List (String × CMakeCacheEntry)
  built : Files
  /-- The cache, the executable and the reports before the launch. -/
  discovered : Result String
  /-- The viewport, unless it cannot be spawned. -/
  child : Option Child
  backend : String
  manifest : Option (Result RendererManifest)
  identity : Identity
  modified : Option ℕ
  /-- Whether a record can be written. -/
  writable : Bool

/-- `labeled_child_value`. -/
def labeledChildValue (output label : String) : Option String :=
  ((Text.lines output).findSome? fun line =>
    (Text.stripPrefix label (Text.trim line)).map Text.trim).filter (· ≠ "")

def outcomeText : SessionOutcome → String
  | .success => "success"
  | .failure => "failure"
  | .incomplete => "incomplete"

def viewportExitState (code : Option Int) : String :=
  if code = some 0 then "success"
  else if code = some 77 then "presentation-unavailable"
  else "child-failure"

section Viewport

variable (codec : Codec) (format : ReportFormat) (site : Site) (run : Run)

/-- The intent of the directory. -/
def intentValue (cache : List (String × CMakeCacheEntry)) : Json :=
  ({ name := site.intentName, cache } : BuildIntent).toValue

/-- An argument names a USD scene. -/
def isSceneArgument (arg : String) : Bool :=
  let lower := Text.toAsciiLowercase arg
  ["--usd", "--scene", "--stage"].contains lower ||
    ["--usd=", "--scene=", "--stage="].any (Text.startsWith · lower) ||
    [".usd", ".usda", ".usdc", ".usdz"].any (Text.endsWith · lower)

def viewportCapabilityPreflight : Result Json := do
  let usdScene := run.request.args.any isSceneArgument
  let requested := if usdScene then ["usd-stage-read"] else []
  let missing := requested.filter fun capability => !run.request.available.contains capability
  Result.failIf (missing ≠ []) ((Error.ofCode "RENDERER_VIEWPORT_CAPABILITY_MISSING" .precondition
    ("viewport scene workflow requests " ++ Text.join ", " missing ++ ", but profile '" ++
      run.request.profile ++ "' provides [" ++ Text.join ", " run.request.available ++
      "]")).withHint ("select a profile that provides " ++ Text.join ", " missing ++
        " (for the built-in catalog, pass \x60--profile usd\x60)"))
  pure (.obj [
    ("adapter", .str run.request.adapter),
    ("args", .arr (run.request.args.map .str)),
    ("capabilities", .obj [
      ("applied", .arr (requested.map .str)),
      ("requested", .arr (requested.map .str)),
      ("skipped", .arr (if usdScene then [] else [.obj [("capability", .str "usd-stage-read"),
        ("reason", .str "no USD scene argument was requested")]])),
      ("unrequested", .arr ((run.request.available.filter fun capability =>
        !requested.contains capability).map .str))]),
    ("intent", intentValue site run.request.cache),
    ("passed", .bool true),
    ("platform", .str run.request.platform),
    ("profile", .str run.request.profile),
    ("schema", .str "openstrata.renderer-preflight/v1alpha1"),
    ("target", .str site.targetId),
    ("workflow", .str (if usdScene then "usd-scene" else "standalone"))])

/-- The preflight with the plugins and the build directory. -/
def preflight : Result Json := do
  run.loaded
  let preflight ← viewportCapabilityPreflight site run
  pure (setIndex "build_dir" (.str site.buildDir) (setIndex "plugins" run.plugins preflight))

/-- The fields that both records share. -/
def launchRecord (preflight executable code backend device presentation : Json)
    (outcome deviceStatus : String) (reached : Bool) (reported : Json) (exitState : String)
    (bindings : List RendererEvidenceBinding) (stdout stderr : String) : Json := .obj [
  ("args", .arr (run.request.args.map .str)),
  ("backend", backend),
  ("build_dir", .str site.buildDir),
  ("completed_unix", .int run.completedUnix),
  ("config", .str run.request.config),
  ("device", device),
  ("device_status", .str deviceStatus),
  ("executable", executable),
  ("exit", .obj [("code", code), ("state", .str exitState)]),
  ("exit_code", code),
  ("intent", intentValue site run.adopted),
  ("kind", .str "renderer-viewport"),
  ("outcome", .str outcome),
  ("outputs", .obj [("build_log", .str site.buildLog), ("launch_record", .str site.recordPath)]),
  ("preflight", preflight),
  ("presentation", presentation),
  ("profile", .str run.request.profile),
  ("readiness", .obj [("reached", .bool reached), ("reported", reported)]),
  ("renderer_reports", .arr (bindings.map RendererEvidenceBinding.toValue)),
  ("schema", .str RENDERER_LAUNCH_SCHEMA),
  ("started_unix", .int run.startedUnix),
  ("stderr", .str stderr),
  ("stdout", .str stdout),
  ("target", .str run.request.platform),
  ("timeouts", .obj [("build_seconds", .int run.request.buildTimeout),
    ("configure_seconds", .int run.request.configureTimeout)])]

/-- The record of a build that failed. -/
def buildFailureRecord (preflight : Json) : Json :=
  launchRecord site run preflight .null .null .null .null .null "failure"
    "unavailable-before-launch" false .null "build-failure" [] "" ""

/-- The record of a launch. -/
def viewportLaunchRecord (preflight : Json) (executable : String) (child : Child)
    (bindings : List RendererEvidenceBinding) : Json :=
  let device := labeledChildValue child.stdout "Device:"
  let presentation := (labeledChildValue child.stdout "Presentation:").or
    (if run.request.args.any fun arg => Text.toAsciiLowercase arg == "--hidden" then some "hidden"
      else none)
  let record := launchRecord site run preflight (.str executable)
    ((child.code.map Json.int).getD .null)
    (.str ((labeledChildValue child.stdout "Selected backend:").getD run.backend))
    (optionalText device) (optionalText presentation)
    (outcomeText (viewportSessionOutcome child.code))
    (if device.isSome then "reported" else "unreported")
    (child.code = some 0 ∨ child.code = some 77)
    (optionalText (labeledChildValue child.stdout "Ready:")) (viewportExitState child.code)
    bindings child.stdout child.stderr
  setIndex "environment" run.environment (setIndex "plugins" run.plugins record)

/-- The reports that changed since the build are stamped and bound. -/
def stamping (child : Child) : BuildDir × Result (List RendererEvidenceBinding) :=
  stampChangedManagedRendererReports codec format run.manifest
    (snapshotManagedRendererReports run.manifest run.built.dir)
    (RendererSessions.producer (.viewport 0) run.identity (.viewport child.code)) run.modified
    (viewportSessionOutcome child.code == .success) child.files.dir

/-- What the viewport leaves, with its reports stamped. -/
def stampedFiles (child : Child) : Files :=
  { child.files with dir := (stamping codec format run child).1 }

/-- How a run ends by the exit of the viewport. -/
def exitResult (child : Child) : Result Unit :=
  if child.code = some 0 then .ok ()
  else if child.code = some 77 then
    .error ((Error.ofCode "PRESENTATION_UNAVAILABLE" .precondition
      "the viewport reported that this environment cannot present").withHint
        "run on a host with a display and a Vulkan 1.3 capable device")
  else .error (.ofCode "EXTERNAL_TOOL_FAILED" .externalTool
    ("the viewport exited unsuccessfully" ++ child.exitDetail))

/-- `write_launch_record`; one that cannot be written leaves nothing. -/
def writeLaunchRecord (record : Json) (result : Result Unit) (s : State) : State × Result Unit :=
  if run.writable then ({ s with record := some (.json record) }, result)
  else (s, .error (.io site.recordPath))

/-- From the launch on. -/
def launch (preflight : Json) (executable : String) (s : State) : State × Result Unit :=
  match run.child with
  | none => (s, .error (.io ("run " ++ executable)))
  | some child =>
    let s := { s with files := stampedFiles codec format run child }
    match (stamping codec format run child).2 with
    | .error error => (s, .error error)
    | .ok bindings =>
      writeLaunchRecord site run (viewportLaunchRecord site run preflight executable child bindings)
        (exitResult child) s

/-- A viewport run. -/
def viewport (s : State) : State × Result Unit :=
  match preflight site run with
  | .error error => (s, .error error)
  | .ok preflight =>
    if run.request.preflightOnly then (s, .ok ())
    else if ¬ run.removable then (s, .error (.io site.recordPath))
    else
      let s := { s with record := none, files := run.built }
      match run.build with
      | .error error =>
        writeLaunchRecord site run (buildFailureRecord site run preflight) (.error error) s
      | .ok () =>
        match run.discovered with
        | .error error => (s, .error error)
        | .ok executable => launch codec format site run preflight executable s

end Viewport

/-! ## The verdict -/

/-- Leave with a check. -/
def leaveIf (bad : Prop) [Decidable bad] (check : Check) : Except Check Unit :=
  if bad then .error check else .ok ()

def checkFail (detail : String) : Check := .fail "renderer-viewport" detail

def checkSkip (detail : String) : Check := .skip "renderer-viewport" detail

section Verdict

variable (codec : Codec) (site : Site) (build : Option BuildCompletion) (files : Files)

def checkBindings : List RendererEvidenceBinding → Except Check Unit
  | [] => .ok ()
  | binding :: bindings => do
    leaveIf (¬ isPortableRelative binding.path) (checkFail ("viewport renderer report path '" ++
      binding.path ++ "' is not build-directory-relative"))
    match files.read binding.path with
    | .error error => .error (checkFail ("bound viewport report '" ++ site.buildDir ++ "/" ++
        binding.path ++ "' is unavailable: " ++ error))
    | .ok bytes =>
      leaveIf (sha256Hex codec bytes ≠ binding.sha256) (checkFail ("bound viewport report '" ++
        binding.path ++ "' digest " ++ sha256Hex codec bytes ++ " != " ++ binding.sha256))
    checkBindings bindings

/-- The configuration of a completed build. -/
def expectedConfig (build : BuildCompletion) : String :=
  ((build.intent.cache.lookup "CMAKE_BUILD_TYPE").map (·.value)).getD "Release"

def rendererReports (value : Json) : Option (List RendererEvidenceBinding) :=
  Serde.list RendererEvidenceBinding.fromJson ((value.get? "renderer_reports").getD (.arr []))

/-- The end of the launch, as a record tells it. -/
def exitCheck (value : Json) : Check :=
  match (value.pointer? ["exit", "state"]).bind Json.asStr? with
  | some state =>
    if state = "success" ∧ value.index "outcome" = .str "success" ∧
        value.pointer? ["exit", "code"] = some (.int 0) ∧
        value.pointer? ["readiness", "reached"] = some (.bool true) then
      .pass "renderer-viewport"
    else if state = "presentation-unavailable" then
      checkSkip "viewport completed but this host cannot present"
    else if state = "build-failure" ∨ state = "child-failure" then
      checkFail ("last durable viewport launch ended in " ++ state)
    else checkFail ("viewport launch has unsupported exit state '" ++ state ++ "'")
  | none => checkFail "viewport launch has no exit state"

/-- The verdict of a record; `isLegacy` tells the one of the whole target. -/
def judge (isLegacy : Bool) (value : Json) : Except Check Check := do
  let path := if isLegacy then site.legacyPath else site.recordPath
  leaveIf (value.index "schema" ≠ .str RENDERER_LAUNCH_SCHEMA ∨
      value.index "kind" ≠ .str "renderer-viewport")
    (checkFail (path ++ " is not an openstrata.renderer-launch/v1 viewport record"))
  let recorded := value.getStr? "build_dir"
  leaveIf (recorded.any (fun recorded => !samePath site.os recorded site.buildDir) ∧ isLegacy)
    (checkSkip "legacy viewport launch belongs to another build directory")
  leaveIf (recorded.all fun recorded => !samePath site.os recorded site.buildDir)
    (checkFail "viewport launch describes a different build directory")
  leaveIf ((value.pointer? ["intent", "name"]).bind Json.asStr? ≠ some site.intentName)
    (checkFail "viewport launch describes a different build intent")
  leaveIf (build.any fun build => value.getStr? "config" ≠ some (expectedConfig build))
    (checkFail "viewport launch describes a different build configuration")
  leaveIf (value.pointer? ["preflight", "passed"] ≠ some (.bool true) ∨
      (value.pointer? ["preflight", "target"]).bind Json.asStr? ≠ some site.targetId)
    (checkFail "viewport launch preflight is absent, failed, or names another target")
  match rendererReports value with
  | none => .error (checkFail "viewport renderer report bindings are invalid")
  | some bindings => do
    checkBindings codec site files bindings
    pure (exitCheck value)

def judgeFile (isLegacy : Bool) : RecordFile → Check
  | .unreadable error => checkFail ("cannot read viewport launch record " ++
      (if isLegacy then site.legacyPath else site.recordPath) ++ ": " ++ error)
  | .invalid error => checkFail ((if isLegacy then site.legacyPath else site.recordPath) ++
      " is invalid: " ++ error)
  | .json value =>
    match judge codec site build files isLegacy value with
    | .ok check | .error check => check

/-- The record of the build directory, or else that of the target. -/
def viewportLaunchCheck (s : State) : Check :=
  match s.record, s.legacy with
  | some file, _ => judgeFile codec site build s.files false file
  | none, some file => judgeFile codec site build s.files true file
  | none, none => checkSkip "no durable viewport launch"

end Verdict

/-! ## What a record vouches for -/

/-- A report has the bytes it was bound with. -/
def Bound (codec : Codec) (files : Files) (binding : RendererEvidenceBinding) : Prop :=
  ∃ bytes, files.read binding.path = .ok bytes ∧ sha256Hex codec bytes = binding.sha256

/-- A record of a successful launch in the directory, whose reports are as they were bound. -/
structure Vouches (codec : Codec) (site : Site) (build : Option BuildCompletion) (files : Files)
    (value : Json) : Prop where
  schema : value.index "schema" = .str RENDERER_LAUNCH_SCHEMA
  kind : value.index "kind" = .str "renderer-viewport"
  buildDir : ∃ recorded, value.getStr? "build_dir" = some recorded ∧
    samePath site.os recorded site.buildDir
  intent : (value.pointer? ["intent", "name"]).bind Json.asStr? = some site.intentName
  config : ∀ completed, build = some completed →
    value.getStr? "config" = some (expectedConfig completed)
  passed : value.pointer? ["preflight", "passed"] = some (.bool true)
  target : (value.pointer? ["preflight", "target"]).bind Json.asStr? = some site.targetId
  reports : ∃ bindings, rendererReports value = some bindings ∧
    ∀ binding ∈ bindings, isPortableRelative binding.path ∧ Bound codec files binding
  state : (value.pointer? ["exit", "state"]).bind Json.asStr? = some "success"
  outcome : value.index "outcome" = .str "success"
  code : value.pointer? ["exit", "code"] = some (.int 0)
  reached : value.pointer? ["readiness", "reached"] = some (.bool true)

section Verdict

variable {codec : Codec} {site : Site} {build : Option BuildCompletion} {files : Files}
  {isLegacy : Bool} {value : Json} {α : Type}

/-- The check that is left with. -/
def checkOf : Except Check Check → Check
  | .ok check | .error check => check

@[simp] theorem status_checkFail (detail : String) : (checkFail detail).status = .fail := rfl

@[simp] theorem status_checkSkip (detail : String) : (checkSkip detail).status = .skip := rfl

/-- A gate that fails with its check lets the verdict pass when it does not fail. -/
theorem status_leaveIf {bad : Prop} [Decidable bad] {check : Check} {next : Except Check Check}
    (hcheck : check.status ≠ .pass) :
    (checkOf (leaveIf bad check >>= fun _ => next)).status = .pass ↔
      ¬ bad ∧ (checkOf next).status = .pass := by
  by_cases h : bad
  · rw [leaveIf, if_pos h]
    exact iff_of_false hcheck fun h' => h'.1 h
  · rw [leaveIf, if_neg h]
    exact (and_iff_right h).symm

theorem checkBindings_ok {bindings : List RendererEvidenceBinding} {next : Check} :
    (checkOf (checkBindings codec site files bindings >>= fun _ => pure next)).status = .pass ↔
      (∀ binding ∈ bindings, isPortableRelative binding.path ∧ Bound codec files binding) ∧
        next.status = .pass := by
  induction bindings with
  | nil => exact (and_iff_right fun _ h => absurd h List.not_mem_nil).symm
  | cons binding bindings ih =>
    rw [List.forall_mem_cons, checkBindings, bind_assoc, status_leaveIf (by simp), not_not]
    cases hread : files.read binding.path with
    | error error =>
      refine iff_of_false (fun h => ?_) fun h => ?_
      · cases h.2
      · obtain ⟨bytes, hbytes, -⟩ := h.1.1.2
        rw [hread] at hbytes
        cases hbytes
    | ok bytes =>
      have hbound : Bound codec files binding ↔ sha256Hex codec bytes = binding.sha256 := by
        constructor
        · rintro ⟨bytes', hbytes, hsha⟩
          rw [hread] at hbytes
          obtain rfl := Except.ok.inj hbytes
          exact hsha
        · exact fun hsha => ⟨bytes, hread, hsha⟩
      rw [bind_assoc, status_leaveIf (by simp), not_not, ih, hbound, and_assoc, and_assoc]

theorem status_exitCheck : (exitCheck value).status = .pass ↔
    (value.pointer? ["exit", "state"]).bind Json.asStr? = some "success" ∧
      value.index "outcome" = .str "success" ∧ value.pointer? ["exit", "code"] = some (.int 0) ∧
      value.pointer? ["readiness", "reached"] = some (.bool true) := by
  unfold exitCheck
  cases hstate : (value.pointer? ["exit", "state"]).bind Json.asStr? with
  | none => simp
  | some state =>
    dsimp only
    rw [Option.some.injEq]
    split_ifs with hsuccess hpresent hended
    · exact iff_of_true rfl hsuccess
    · exact iff_of_false (by simp) hsuccess
    · exact iff_of_false (by simp) hsuccess
    · exact iff_of_false (by simp) hsuccess

/-- The verdict of a record is a pass when the record vouches for the directory. -/
theorem status_judge :
    (checkOf (judge codec site build files isLegacy value)).status = .pass ↔
      Vouches codec site build files value := by
  rw [judge]
  dsimp only
  rw [status_leaveIf (by simp), status_leaveIf (by simp), status_leaveIf (by simp),
    status_leaveIf (by simp), status_leaveIf (by simp), status_leaveIf (by simp)]
  have hreports : (checkOf (match rendererReports value with
      | none => .error (checkFail "viewport renderer report bindings are invalid")
      | some bindings => do
        checkBindings codec site files bindings
        pure (exitCheck value))).status = .pass ↔
      (∃ bindings, rendererReports value = some bindings ∧
        ∀ binding ∈ bindings, isPortableRelative binding.path ∧ Bound codec files binding) ∧
      (exitCheck value).status = .pass := by
    cases rendererReports value with
    | none => simp [checkOf]
    | some bindings =>
      dsimp only
      rw [checkBindings_ok]
      simp
  rw [hreports, status_exitCheck]
  constructor
  · rintro ⟨hkind, -, hdir, hintent, hconfig, hpreflight, hbound, hstate, houtcome, hcode, hreached⟩
    rw [not_or, not_not, not_not] at hkind hpreflight
    rw [not_not] at hintent
    refine ⟨hkind.1, hkind.2, ?_, hintent, ?_, hpreflight.1, hpreflight.2, hbound, hstate, houtcome,
      hcode, hreached⟩
    · cases hrecorded : value.getStr? "build_dir" with
      | none => simp [hrecorded] at hdir
      | some recorded => exact ⟨recorded, rfl, by simpa [hrecorded] using hdir⟩
    · rintro completed rfl
      simpa using hconfig
  · intro h
    obtain ⟨recorded, hrecorded, hsame⟩ := h.buildDir
    refine ⟨?_, ?_, ?_, not_not.mpr h.intent, ?_, ?_, h.reports, h.state, h.outcome, h.code,
      h.reached⟩
    · rw [not_or, not_not, not_not]
      exact ⟨h.schema, h.kind⟩
    · simp [hrecorded, hsame]
    · simp [hrecorded, hsame]
    · cases hbuild : build with
      | none => simp
      | some completed => simp [h.config completed hbuild]
    · rw [not_or, not_not, not_not]
      exact ⟨h.passed, h.target⟩

theorem status_judgeFile {file : RecordFile} :
    (judgeFile codec site build files isLegacy file).status = .pass ↔
      ∃ value, file = .json value ∧ Vouches codec site build files value := by
  cases file with
  | unreadable error => simp [judgeFile]
  | invalid error => simp [judgeFile]
  | json value =>
    have hcheck : judgeFile codec site build files isLegacy (.json value) =
        checkOf (judge codec site build files isLegacy value) := by
      rw [judgeFile]
      cases judge codec site build files isLegacy value <;> rfl
    rw [hcheck, status_judge]
    simp

/-- The verdict is a pass when the record that is found vouches for the directory. -/
theorem status_viewportLaunchCheck {s : State} :
    (viewportLaunchCheck codec site build s).status = .pass ↔
      ∃ value, s.record.or s.legacy = some (.json value) ∧
        Vouches codec site build s.files value := by
  cases hrecord : s.record with
  | some file => simp [viewportLaunchCheck, hrecord, status_judgeFile]
  | none =>
    cases hlegacy : s.legacy with
    | some file => simp [viewportLaunchCheck, hrecord, hlegacy, status_judgeFile]
    | none => simp [viewportLaunchCheck, hrecord, hlegacy]

end Verdict

/-! ## What a run records -/

section Recorded

variable {codec : Codec} {format : ReportFormat} {site : Site} {run : Run} {s : State}
  {build : Option BuildCompletion} {files : Files} {p : Json}

theorem get?_setIndex_of_ne {key key' : String} {value record : Json} (h : key' ≠ key) :
    (setIndex key value record).get? key' = record.get? key' := by
  cases record with
  | obj fields => exact (KeyMap.lookup_insert).trans (if_neg h)
  | _ => rfl

theorem viewportCapabilityPreflight_ok (h : viewportCapabilityPreflight site run = .ok p) :
    p.get? "passed" = some (.bool true) ∧ p.get? "target" = some (.str site.targetId) := by
  obtain ⟨⟨⟩, -, h⟩ := Result.bind_ok.mp h
  have hp := Except.ok.inj h
  rw [← hp]
  exact ⟨rfl, rfl⟩

theorem preflight_ok (h : preflight site run = .ok p) :
    p.get? "passed" = some (.bool true) ∧ p.get? "target" = some (.str site.targetId) := by
  obtain ⟨⟨⟩, -, h⟩ := Result.bind_ok.mp h
  obtain ⟨q, hq, h⟩ := Result.bind_ok.mp h
  have hp := Except.ok.inj h
  rw [← hp, get?_setIndex_of_ne (by decide), get?_setIndex_of_ne (by decide),
    get?_setIndex_of_ne (by decide), get?_setIndex_of_ne (by decide)]
  exact viewportCapabilityPreflight_ok hq

theorem get?_name_intentValue (site : Site) (cache : List (String × CMakeCacheEntry)) :
    (intentValue site cache).get? "name" = some (.str site.intentName) :=
  Serde.lookup_entries rfl

/-- A record vouches for the directory when it tells a success and its reports are as bound. -/
theorem vouches_launchRecord {executable code backend device presentation reported record : Json}
    {outcome deviceStatus exitState stdout stderr : String} {reached : Bool}
    {bindings : List RendererEvidenceBinding} (hp : preflight site run = .ok p)
    (hrecord : ∀ key, key ≠ "plugins" → key ≠ "environment" → record.get? key =
      (launchRecord site run p executable code backend device presentation outcome deviceStatus
        reached reported exitState bindings stdout stderr).get? key) :
    Vouches codec site build files record ↔
      (∀ completed, build = some completed → run.request.config = expectedConfig completed) ∧
      (∀ binding ∈ bindings, isPortableRelative binding.path ∧ Bound codec files binding) ∧
      exitState = "success" ∧ outcome = "success" ∧ code = .int 0 ∧ reached = true := by
  obtain ⟨hpassed, htarget⟩ := preflight_ok hp
  have hfield {key : String} {value : Json} (hplugins : key ≠ "plugins")
      (henvironment : key ≠ "environment")
      (h : (launchRecord site run p executable code backend device presentation outcome deviceStatus
        reached reported exitState bindings stdout stderr).get? key = some value) :
      record.get? key = some value := (hrecord key hplugins henvironment).trans h
  have hschema : record.get? "schema" = some (.str RENDERER_LAUNCH_SCHEMA) :=
    hfield (by decide) (by decide) rfl
  have hkind : record.get? "kind" = some (.str "renderer-viewport") :=
    hfield (by decide) (by decide) rfl
  have hdir : record.get? "build_dir" = some (.str site.buildDir) :=
    hfield (by decide) (by decide) rfl
  have hintent : record.get? "intent" = some (intentValue site run.adopted) :=
    hfield (by decide) (by decide) rfl
  have hconfig : record.get? "config" = some (.str run.request.config) :=
    hfield (by decide) (by decide) rfl
  have hpreflight : record.get? "preflight" = some p := hfield (by decide) (by decide) rfl
  have hreports : record.get? "renderer_reports" =
      some (.arr (bindings.map RendererEvidenceBinding.toValue)) :=
    hfield (by decide) (by decide) rfl
  have hexit : record.get? "exit" = some (.obj [("code", code), ("state", .str exitState)]) :=
    hfield (by decide) (by decide) rfl
  have houtcome : record.get? "outcome" = some (.str outcome) :=
    hfield (by decide) (by decide) rfl
  have hreadiness : record.get? "readiness" =
      some (.obj [("reached", .bool reached), ("reported", reported)]) :=
    hfield (by decide) (by decide) rfl
  have hbindings : rendererReports record = some bindings := by
    rw [rendererReports, hreports]
    exact Serde.list_arr fun binding _ => binding.fromJson_toValue
  have hstate : record.pointer? ["exit", "state"] = some (.str exitState) := by
    rw [Json.pointer?, hexit]
    rfl
  have hcode : record.pointer? ["exit", "code"] = some code := by
    rw [Json.pointer?, hexit]
    rfl
  have hreached : record.pointer? ["readiness", "reached"] = some (.bool reached) := by
    rw [Json.pointer?, hreadiness]
    rfl
  constructor
  · intro h
    refine ⟨fun completed hbuild => ?_, ?_, ?_, ?_, ?_, ?_⟩
    · have := h.config completed hbuild
      rw [Json.getStr?, hconfig] at this
      exact Option.some.inj this
    · obtain ⟨bindings', hsome, hall⟩ := h.reports
      rw [hbindings] at hsome
      obtain rfl := Option.some.inj hsome
      exact hall
    · have := h.state
      rw [hstate] at this
      exact Option.some.inj this
    · have := h.outcome
      rw [Json.index, houtcome] at this
      exact Json.str.inj this
    · exact Option.some.inj (hcode.symm.trans h.code)
    · exact Json.bool.inj (Option.some.inj (hreached.symm.trans h.reached))
  · rintro ⟨hconfigured, hbound, rfl, rfl, rfl, rfl⟩
    refine ⟨?_, ?_, ⟨site.buildDir, ?_, samePath_refl _ _⟩, ?_, ?_, ?_, ?_,
      ⟨bindings, hbindings, hbound⟩, ?_, ?_, hcode, hreached⟩
    · rw [Json.index, hschema]
      rfl
    · rw [Json.index, hkind]
      rfl
    · rw [Json.getStr?, hdir]
      rfl
    · rw [Json.pointer?, hintent]
      show ((intentValue site run.adopted).pointer? ["name"]).bind Json.asStr? = _
      rw [Json.pointer?, get?_name_intentValue]
      rfl
    · intro completed hbuild
      rw [Json.getStr?, hconfig, ← hconfigured completed hbuild]
      rfl
    · rw [Json.pointer?, hpreflight]
      show p.pointer? ["passed"] = _
      rw [Json.pointer?, hpassed]
      rfl
    · rw [Json.pointer?, hpreflight]
      show (p.pointer? ["target"]).bind Json.asStr? = _
      rw [Json.pointer?, htarget]
      rfl
    · rw [hstate]
      rfl
    · rw [Json.index, houtcome]
      rfl

theorem viewportExitState_eq_success {code : Option Int} (h : viewportExitState code = "success") :
    code = some 0 := by
  unfold viewportExitState at h
  split_ifs at h with hzero hpresent
  · exact hzero
  · exact absurd h (by decide)
  · exact absurd h (by decide)

/-- The record of a launch vouches for the directory when the viewport exited with code 0. -/
theorem vouches_viewportLaunchRecord {executable : String} {child : Child}
    {bindings : List RendererEvidenceBinding} (hp : preflight site run = .ok p) :
    Vouches codec site build files (viewportLaunchRecord site run p executable child bindings) ↔
      (∀ completed, build = some completed → run.request.config = expectedConfig completed) ∧
      (∀ binding ∈ bindings, isPortableRelative binding.path ∧ Bound codec files binding) ∧
      child.code = some 0 := by
  rw [vouches_launchRecord hp fun key hplugins henvironment => by
    rw [viewportLaunchRecord, get?_setIndex_of_ne henvironment, get?_setIndex_of_ne hplugins]]
  refine and_congr_right fun _ => and_congr_right fun _ => ⟨fun h => ?_, fun h => ?_⟩
  · exact viewportExitState_eq_success h.1
  · rw [h]
    exact ⟨rfl, rfl, rfl, by simp⟩

/-- The run goes beyond its preflight. -/
def pastPreflight (site : Site) (run : Run) : Bool :=
  (preflight site run).toOption.isSome && !run.request.preflightOnly

/-- The viewport that the run launches, when it gets as far. -/
def Run.launched (run : Run) : Option Child :=
  match run.build, run.discovered with
  | .ok (), .ok _ => run.child
  | _, _ => none

/-- The run has launched a viewport that exited with code 0, and the reports it bound have the bytes
it bound. -/
def Succeeded (codec : Codec) (format : ReportFormat) (run : Run) (files : Files) : Prop :=
  ∃ child bindings, run.launched = some child ∧ child.code = some 0 ∧
    (stamping codec format run child).2 = .ok bindings ∧
    ∀ binding ∈ bindings, Bound codec files binding

/-- How a run may end, and what it leaves. -/
inductive Ends (codec : Codec) (format : ReportFormat) (site : Site) (run : Run) (s : State) :
    State × Result Unit → Prop
  | refused {error : Error} (h : preflight site run = .error error) :
    Ends _ _ _ _ _ (s, .error error)
  | checked (h : run.request.preflightOnly = true) : Ends _ _ _ _ _ (s, .ok ())
  | kept {error : Error} (hpast : pastPreflight site run = true) (h : run.removable = false) :
    Ends _ _ _ _ _ (s, .error error)
  | lost {error : Error} {files : Files} (hpast : pastPreflight site run = true)
    (h : run.removable = true) :
    Ends _ _ _ _ _ ({ record := none, legacy := s.legacy, files }, .error error)
  | unbuilt {p : Json} {error : Error} {files : Files} (hpast : pastPreflight site run = true)
    (h : run.removable = true) (hp : preflight site run = .ok p) :
    Ends _ _ _ _ _
      ({ record := some (.json (buildFailureRecord site run p)), legacy := s.legacy, files },
        .error error)
  | recorded {p : Json} {executable : String} {child : Child}
    {bindings : List RendererEvidenceBinding} (hpast : pastPreflight site run = true)
    (h : run.removable = true) (hp : preflight site run = .ok p)
    (hlaunched : run.launched = some child)
    (hbindings : (stamping codec format run child).2 = .ok bindings) :
    Ends _ _ _ _ _
      ({ record := some (.json (viewportLaunchRecord site run p executable child bindings))
         legacy := s.legacy
         files := stampedFiles codec format run child }, exitResult child)

theorem writeLaunchRecord_cases (site : Site) (run : Run) (record : Json) (result : Result Unit)
    (s : State) : writeLaunchRecord site run record result s =
        ({ s with record := some (.json record) }, result) ∨
      writeLaunchRecord site run record result s = (s, .error (.io site.recordPath)) := by
  unfold writeLaunchRecord
  split_ifs
  · exact .inl rfl
  · exact .inr rfl

theorem viewport_ends : Ends codec format site run s (viewport codec format site run s) := by
  unfold viewport
  cases hp : preflight site run with
  | error error => exact .refused hp
  | ok p =>
    dsimp only
    by_cases honly : run.request.preflightOnly = true
    · rw [if_pos honly]
      exact .checked honly
    have hpast : pastPreflight site run = true := by
      simp [pastPreflight, hp, honly, Except.toOption]
    rw [if_neg honly]
    by_cases hremovable : run.removable = true
    swap
    · rw [if_pos hremovable]
      exact .kept hpast (by simpa using hremovable)
    rw [if_neg (not_not.mpr hremovable)]
    cases hbuild : run.build with
    | error error =>
      dsimp only
      rcases writeLaunchRecord_cases site run (buildFailureRecord site run p) (.error error)
        { s with record := none, files := run.built } with hwrite | hwrite
      · rw [hwrite]
        exact .unbuilt hpast hremovable hp
      · rw [hwrite]
        exact .lost hpast hremovable
    | ok built =>
      dsimp only
      cases hdiscovered : run.discovered with
      | error error => exact .lost hpast hremovable
      | ok executable =>
        dsimp only
        unfold launch
        cases hchild : run.child with
        | none => exact .lost hpast hremovable
        | some child =>
          dsimp only
          cases hbindings : (stamping codec format run child).2 with
          | error error => exact .lost hpast hremovable
          | ok bindings =>
            dsimp only
            have hlaunched : run.launched = some child := by
              rw [Run.launched, hbuild, hdiscovered]
              exact hchild
            rcases writeLaunchRecord_cases site run
              (viewportLaunchRecord site run p executable child bindings) (exitResult child)
              ⟨none, s.legacy, stampedFiles codec format run child⟩ with hwrite | hwrite
            · rw [hwrite]
              exact .recorded hpast hremovable hp hlaunched hbindings
            · rw [hwrite]
              exact .lost hpast hremovable

/-- No run touches the record of the target. -/
theorem viewport_legacy : (viewport codec format site run s).1.legacy = s.legacy := by
  generalize hout : viewport codec format site run s = out
  have hends : Ends codec format site run s out := hout ▸ viewport_ends
  cases hends <;> rfl

/-- A run that does not go beyond its preflight leaves the records as they are. -/
theorem viewport_refused (h : pastPreflight site run = false) :
    (viewport codec format site run s).1 = s := by
  generalize hout : viewport codec format site run s = out
  have hends : Ends codec format site run s out := hout ▸ viewport_ends
  cases hends with
  | refused => rfl
  | checked => rfl
  | kept hpast => rfl
  | lost hpast => simp [h] at hpast
  | unbuilt hpast => simp [h] at hpast
  | recorded hpast => simp [h] at hpast

theorem exitResult_ok {child : Child} (h : exitResult child = .ok ()) : child.code = some 0 := by
  unfold exitResult at h
  split_ifs at h with hzero
  exact hzero

theorem child_of_launched {child : Child} (h : run.launched = some child) :
    run.child = some child := by
  unfold Run.launched at h
  split at h
  · exact h
  · cases h

/-- A run that has removed the old record leaves none, or one that vouches for nothing but its own
success. -/
theorem viewport_record (codec : Codec) (format : ReportFormat) (s : State)
    (hpast : pastPreflight site run = true) (hremovable : run.removable = true) :
    (viewport codec format site run s).1.record = none ∨
      ∃ value, (viewport codec format site run s).1.record = some (.json value) ∧
        ∀ build files, Vouches codec site build files value →
          Succeeded codec format run files := by
  generalize hout : viewport codec format site run s = out
  have hends : Ends codec format site run s out := hout ▸ viewport_ends
  cases hends with
  | refused h => simp [pastPreflight, h, Except.toOption] at hpast
  | checked h => simp [pastPreflight, h] at hpast
  | kept _ h => simp [h] at hremovable
  | lost => exact .inl rfl
  | unbuilt _ _ hp =>
    refine .inr ⟨_, rfl, fun build files h => ?_⟩
    obtain ⟨-, -, hstate, -⟩ := (vouches_launchRecord hp fun _ _ _ => rfl).mp h
    exact absurd hstate (by decide)
  | recorded _ _ hp hlaunched hbindings =>
    refine .inr ⟨_, rfl, fun build files h => ?_⟩
    obtain ⟨-, hbound, hcode⟩ := (vouches_viewportLaunchRecord hp).mp h
    exact ⟨_, _, hlaunched, hcode, hbindings, fun binding hbinding => (hbound binding hbinding).2⟩

end Recorded

/-! ## Stamped reports -/

section Stamped

variable {codec : Codec} {format : ReportFormat} {site : Site} {run : Run}

/-- A binding has the digest of the report that was written under its name. -/
theorem stampReports_ok {manifest : RendererManifest} {producer : ProducerSession}
    {modified : Option ℕ} {validatePrimary : Bool} {reports : RendererReportSnapshot}
    {bindings : List RendererEvidenceBinding} (hnodup : (reports.map Prod.fst).Nodup)
    (h : (stampReports codec format manifest producer modified validatePrimary reports).2 =
      .ok bindings) {binding : RendererEvidenceBinding} (hmem : binding ∈ bindings) :
    ∃ name state, name ∈ reports.map Prod.fst ∧
      (stampReports codec format manifest producer modified validatePrimary reports).1.lookup name =
        some state ∧
      binding.path = forwardSlashes name ∧ binding.sha256 = sha256Hex codec state.bytes := by
  induction reports generalizing bindings with
  | nil =>
    obtain rfl := Except.ok.inj h
    cases hmem
  | cons report rest ih =>
    obtain ⟨name, state⟩ := report
    obtain ⟨hfresh, hnodup⟩ := List.nodup_cons.mp hnodup
    simp only [stampReports] at h ⊢
    generalize (if ¬ validatePrimary = true then ManagedReportValidation.none
      else if name = RENDERER_REPORT_FILE then .complete else .overlay) = validation at h ⊢
    cases hstamp : stampRendererReportAt format manifest producer modified validation state with
    | error error => simp [hstamp] at h
    | ok stamped =>
      obtain ⟨stamped, checked⟩ := stamped
      cases checked with
      | error error => simp [hstamp] at h
      | ok checked =>
        simp only [hstamp] at h ⊢
        cases hrest :
          (stampReports codec format manifest producer modified validatePrimary rest).2 with
        | error error =>
          rw [hrest] at h
          cases h
        | ok others =>
          rw [hrest] at h
          obtain rfl := Except.ok.inj h
          rcases List.mem_cons.mp hmem with rfl | hmem
          · exact ⟨name, stamped, by simp, by simp, rfl, rfl⟩
          · obtain ⟨name', state', hname', hlookup, hpath, hsha⟩ := ih hnodup hrest hmem
            have hne : name' ≠ name := by
              rintro rfl
              exact hfresh hname'
            refine ⟨name', state', List.mem_cons_of_mem _ hname', ?_, hpath, hsha⟩
            rw [List.lookup_cons, beq_eq_false_iff_ne.mpr hne]
            exact hlookup

theorem read_overwrite {dir : BuildDir} {written : List (String × DirectFile)} {name : String}
    {file : DirectFile} (h : dir.read name = some file) :
    (dir.overwrite written).read name = some ((written.lookup name).getD file) := by
  have hread : (dir.overwrite written).read name =
      (dir.read name).map fun file => (written.lookup name).getD file :=
    KeyMap.lookup_map (f := fun name file => (written.lookup name).getD file)
  rw [hread, h]
  rfl

/-- The report names of a directory are portable. -/
def PortableReports (dir : BuildDir) : Prop :=
  ∀ name file, dir.read name = some file → isRendererReportPath name → isPortableRelative name

theorem mem_snapshot {manifest : Option (Result RendererManifest)} {dir : BuildDir}
    {before : RendererReportSnapshot} {name : String} (h : name ∈
      (changedReports before (snapshotManagedRendererReports manifest dir)).map Prod.fst) :
    isRendererReportPath name ∧ ∃ file, dir.read name = some file := by
  obtain ⟨report, hreport, rfl⟩ := List.mem_map.mp h
  have hmem := List.mem_of_mem_filter hreport
  unfold snapshotManagedRendererReports at hmem
  split_ifs at hmem with hmanifest
  · obtain ⟨entry, hentry, hsnapshot⟩ := List.mem_filterMap.mp hmem
    unfold snapshotEntry at hsnapshot
    split_ifs at hsnapshot with hmanaged
    obtain rfl := Option.some.inj hsnapshot
    refine ⟨hmanaged.2, entry.2, ?_⟩
    exact KeyMap.lookup_of_mem dir.nodup hentry
  · cases hmem

theorem nodup_snapshot (manifest : Option (Result RendererManifest)) (dir : BuildDir)
    (before : RendererReportSnapshot) :
    ((changedReports before (snapshotManagedRendererReports manifest dir)).map Prod.fst).Nodup := by
  have hsublist : ∀ entries : List (String × DirectFile),
      ((entries.filterMap snapshotEntry).map Prod.fst).Sublist (entries.map Prod.fst) := by
    intro entries
    induction entries with
    | nil => exact List.Sublist.slnil
    | cons entry entries ih =>
      rw [List.filterMap_cons]
      cases hentry : snapshotEntry entry with
      | none => exact ih.cons _
      | some report =>
        unfold snapshotEntry at hentry
        split_ifs at hentry
        obtain rfl := Option.some.inj hentry
        exact ih.cons_cons _
  refine (List.filter_sublist.map _).nodup ?_
  unfold snapshotManagedRendererReports
  split_ifs
  · exact (hsublist dir.entries).nodup dir.nodup
  · exact List.nodup_nil

theorem forwardSlashes_of_portable {name : String} (h : isPortableRelative name) :
    forwardSlashes name = name := by
  simp only [isPortableRelative, Bool.and_eq_true, Bool.not_eq_true'] at h
  refine Path.slashed_eq_self fun hmem => ?_
  rw [Text.containsChar, List.contains_iff_mem.mpr hmem] at h
  exact Bool.noConfusion h.1.2

/-- Directly after a run the bound reports have the bytes they were bound with. -/
theorem bound_of_stamping {child : Child} {bindings : List RendererEvidenceBinding}
    (hnames : PortableReports child.files.dir)
    (h : (stamping codec format run child).2 = .ok bindings) :
    ∀ binding ∈ bindings, isPortableRelative binding.path ∧
      Bound codec (stampedFiles codec format run child) binding := by
  intro binding hmem
  unfold stampedFiles
  unfold stamping stampChangedManagedRendererReports at *
  cases hmanifest : run.manifest with
  | none =>
    rw [hmanifest] at h
    obtain rfl := Except.ok.inj h
    cases hmem
  | some loaded =>
    rw [hmanifest] at h
    cases loaded with
    | error error => cases h
    | ok manifest =>
      obtain ⟨name, state, hname, hlookup, hpath, hsha⟩ :=
        stampReports_ok (nodup_snapshot _ _ _) h hmem
      obtain ⟨hmanaged, file, hfile⟩ := mem_snapshot hname
      have hportable := hnames name file hfile hmanaged
      rw [forwardSlashes_of_portable hportable] at hpath
      refine ⟨hpath ▸ hportable, state.bytes, ?_, hsha.symm⟩
      rw [hpath, Files.read]
      dsimp only
      rw [read_overwrite hfile,
        KeyMap.lookup_map (f := fun _ state => (⟨true, state⟩ : DirectFile)), hlookup]
      rfl

end Stamped

/-! ## The last launch -/

section History

variable (codec : Codec) (format : ReportFormat) (site : Site)

/-- The state after a history of runs. -/
def runs (history : List Run) (s : State) : State :=
  history.foldl (fun s run => (viewport codec format site run s).1) s

/-- The last run that went beyond its preflight. -/
def lastAttempt (history : List Run) : Option Run := history.reverse.find? (pastPreflight site)

variable {codec format site} {history : List Run} {run last : Run} {s : State}
  {build : Option BuildCompletion} {files : Files}

theorem runs_concat :
    runs codec format site (history ++ [run]) s =
      (viewport codec format site run (runs codec format site history s)).1 := by
  rw [runs, List.foldl_append]
  rfl

theorem runs_legacy : (runs codec format site history s).legacy = s.legacy := by
  induction history using List.reverseRecOn with
  | nil => rfl
  | append_singleton history run ih => rw [runs_concat, viewport_legacy, ih]

/-- The records are those that the last launch has left. -/
theorem runs_of_lastAttempt (codec : Codec) (format : ReportFormat) (s : State)
    (h : lastAttempt site history = some last) :
    pastPreflight site last = true ∧ ∃ t, (runs codec format site history s).record =
      (viewport codec format site last t).1.record := by
  induction history using List.reverseRecOn with
  | nil => cases h
  | append_singleton history run ih =>
    rw [lastAttempt, List.reverse_append, List.reverse_singleton, List.singleton_append,
      List.find?_cons] at h
    rw [runs_concat]
    cases hpast : pastPreflight site run with
    | true =>
      rw [hpast] at h
      obtain rfl := Option.some.inj h
      exact ⟨hpast, _, rfl⟩
    | false =>
      rw [hpast] at h
      rw [viewport_refused hpast]
      exact ih h

/-- A run that ends well has left a record that vouches for it. -/
theorem vouches_of_ok (h : (viewport codec format site run s).2 = .ok ())
    (hlaunch : run.request.preflightOnly = false)
    (hnames : ∀ child, run.child = some child → PortableReports child.files.dir)
    (hconfig : ∀ completed, build = some completed →
      run.request.config = expectedConfig completed) :
    ∃ value, (viewport codec format site run s).1.record = some (.json value) ∧
      Vouches codec site build (viewport codec format site run s).1.files value := by
  generalize hout : viewport codec format site run s = out at h
  have hends : Ends codec format site run s out := hout ▸ viewport_ends
  cases hends with
  | refused => cases h
  | checked honly => simp [hlaunch] at honly
  | kept => cases h
  | lost => cases h
  | unbuilt => cases h
  | @recorded p executable child bindings hpast hremovable hp hlaunched hbindings =>
    have hcode : child.code = some 0 := exitResult_ok h
    have hchild : run.child = some child := child_of_launched hlaunched
    exact ⟨_, rfl, (vouches_viewportLaunchRecord hp).mpr
      ⟨hconfig, bound_of_stamping (hnames child hchild) hbindings, hcode⟩⟩

/-- In every history whose last launch could remove the old record of the directory, and where the
record of the target does not vouch for the directory, a pass means that the last launch succeeded
and its reports are as it bound them. Directly after a run that ends well, validation passes. -/
theorem viewportLaunchCheck_last (codec : Codec) (format : ReportFormat) (site : Site) :
    (∀ history s last build files, lastAttempt site history = some last → last.removable = true →
      (∀ value, s.legacy = some (.json value) → ¬ Vouches codec site build files value) →
      (viewportLaunchCheck codec site build
        { runs codec format site history s with files }).status = .pass →
      Succeeded codec format last files) ∧
    ∀ history s run build,
      (viewport codec format site run (runs codec format site history s)).2 = .ok () →
      run.request.preflightOnly = false →
      (∀ child, run.child = some child → PortableReports child.files.dir) →
      (∀ completed, build = some completed → run.request.config = expectedConfig completed) →
      (viewportLaunchCheck codec site build
        (runs codec format site (history ++ [run]) s)).status = .pass := by
  constructor
  · intro history s last build files hlast hremovable hlegacy hpass
    obtain ⟨value, hvalue, hvouches⟩ := status_viewportLaunchCheck.mp hpass
    obtain ⟨hpast, t, hrecord⟩ := runs_of_lastAttempt codec format s hlast
    rw [hrecord, runs_legacy] at hvalue
    rcases viewport_record codec format t hpast hremovable with
      hnone | ⟨recorded, hsome, honly⟩
    · rw [hnone, Option.none_or] at hvalue
      exact absurd hvouches (hlegacy value hvalue)
    · rw [hsome, Option.some_or] at hvalue
      obtain rfl := RecordFile.json.inj (Option.some.inj hvalue)
      exact honly build files hvouches
  · intro history s run build hok hlaunch hnames hconfig
    rw [runs_concat, status_viewportLaunchCheck]
    obtain ⟨value, hvalue, hvouches⟩ := vouches_of_ok hok hlaunch hnames hconfig
    exact ⟨value, by rw [hvalue, Option.some_or], hvouches⟩

end History

/-! ## A record of the whole target -/

namespace Sample

def codec : Codec := ⟨id, fun _ => none⟩

def format : ReportFormat := ⟨fun _ => none, fun _ => []⟩

def site : Site where
  os := .linux
  targetId := "cy2026-linux-x86_64-py313-usd"
  intentName := "renderer-viewport"
  buildDir := "/work/build/cy2026-linux-x86_64-py313-usd--renderer-viewport"
  buildLog := "/work/.strata/targets/cy2026-linux-x86_64-py313-usd/build.log"
  recordPath :=
    "/work/.strata/renderer-viewport/cy2026-linux-x86_64-py313-usd/sha256-00/launch.json"
  legacyPath := "/work/.strata/renderer-viewport/cy2026-linux-x86_64-py313-usd/launch.json"

def files : Files := ⟨.empty, fun _ => .error "No such file or directory (os error 2)"⟩

def child : Child where
  code := some 0
  exitDetail := ""
  stdout := "Device: llvmpipe"
  stderr := ""
  files := files

def run : Run where
  request :=
    { adapter := "viewer", platform := "cy2026", profile := "usd", config := "Release",
      configureTimeout := 600, buildTimeout := 3600, args := [], cache := [],
      available := ["usd-stage-read"], preflightOnly := false }
  loaded := .ok ()
  startedUnix := 10
  completedUnix := 20
  plugins := .arr []
  environment := .arr []
  removable := true
  build := .ok ()
  adopted := []
  built := files
  discovered := .ok "/work/build/cy2026-linux-x86_64-py313-usd--renderer-viewport/viewer"
  child := some child
  backend := "storm"
  manifest := some (.ok RendererReport.sampleManifest)
  identity := ⟨site.targetId, none, "session", 10, 20⟩
  modified := none
  writable := true

/-- The same run when the build has not produced the viewport. -/
def failedRun : Run :=
  { run with discovered := .error (.ofCode "PRECONDITION_FAILED" .precondition
    "the managed build did not produce viewport executable 'viewer'") }

def preflightValue : Json := (preflight site run).toOption.getD .null

/-- What an older version recorded for the target after a successful launch. -/
def legacyRecord : Json :=
  viewportLaunchRecord site run preflightValue (site.buildDir ++ "/viewer") child []

theorem legacyRecord_vouches : Vouches codec site none files legacyRecord := by
  have hp : preflight site run = .ok preflightValue := rfl
  refine (vouches_viewportLaunchRecord hp).mpr ⟨nofun, fun binding hbinding => ?_, rfl⟩
  cases hbinding

end Sample

open Sample in
theorem viewportLaunchCheck_last_sample :
    (viewportLaunchCheck codec site none
        (runs codec format site [run] ⟨none, none, files⟩)).status = .pass ∧
      Succeeded codec format run files := by
  obtain ⟨hlast, hafter⟩ := viewportLaunchCheck_last codec format site
  have hpass := hafter [] ⟨none, none, files⟩ run none rfl rfl
    (fun child hchild name file hfile => by
      obtain rfl := Option.some.inj hchild
      cases hfile) nofun
  exact ⟨hpass, hlast [run] ⟨none, none, files⟩ run none files rfl rfl nofun hpass⟩

open Sample in
/-- The record of the target passes for a run whose viewport was not even found. -/
theorem legacy_record_passes :
    ¬ ∀ codec format site history s last build files, lastAttempt site history = some last →
      (viewportLaunchCheck codec site build
        { runs codec format site history s with files }).status = .pass →
      Succeeded codec format last files := by
  intro hall
  have hpass : (viewportLaunchCheck codec site none
      { runs codec format site [failedRun] ⟨none, some (.json legacyRecord), files⟩ with
        files }).status = .pass :=
    status_viewportLaunchCheck.mpr ⟨legacyRecord, rfl, legacyRecord_vouches⟩
  obtain ⟨child, bindings, hlaunched, -⟩ :=
    hall codec format site [failedRun] _ failedRun none files rfl hpass
  cases hlaunched

end ViewportLaunch

end OpenStrata
