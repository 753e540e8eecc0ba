import OpenStrata.Artifact.Archive
import OpenStrata.Core.Segments
import OpenStrata.Core.Serialize

/-!
# Completion records

A managed operation on a target that ran to its end leaves a record in the build directory: one
for the last build, one for the last test run. A build record names the configuration that was
built, the outputs attributed to the build and the renderer reports bound to it. Its fingerprint
covers the configuration only, so that building the same again keeps what was tested.

## Main definitions

* `BuildCompletion`, `TestCompletion`: the two records
* `BuildCompletion.fingerprint`: the digest of what was configured
* `BuildCompletion.validateAgainst`, `TestCompletion.validateAgainst`: whether a record still
  describes what is there
-/

namespace OpenStrata

def BUILD_COMPLETION_SCHEMA : String := "openstrata.build-completion/v1"

def TEST_COMPLETION_SCHEMA : String := "openstrata.test-completion/v1"

structure BuildProjectIdentity where
  name : String
  version : String
  deriving DecidableEq, Repr

structure LockRuntime where
  id : String
  digest : String
  deriving DecidableEq, Repr

structure LockCompiler where
  policy : String
  cc : Option String
  cxx : Option String
  ccVersion : Option String
  cxxVersion : Option String
  deriving DecidableEq, Repr

/-- The policy and the resolved paths; versions are informational. -/
def LockCompiler.fingerprint (compiler : LockCompiler) : String × Option String × Option String :=
  (compiler.policy, compiler.cc, compiler.cxx)

/-- What `target.lock.json` says of a configured target, as far as a completion is compared
with it. -/
structure TargetLock where
  target : String
  runtime : LockRuntime
  generator : String
  compiler : LockCompiler
  deriving DecidableEq, Repr

/-- The CMake cache entry types that a build intent may declare. -/
inductive CMakeCacheType
  | bool
  | string
  | path
  | filepath
  deriving DecidableEq, Repr

def CMakeCacheType.cmakeName : CMakeCacheType → String
  | .bool => "BOOL"
  | .string => "STRING"
  | .path => "PATH"
  | .filepath => "FILEPATH"

inductive CachePathPortability
  | portable
  | localOverride
  deriving DecidableEq, Repr

def CachePathPortability.asStr : CachePathPortability → String
  | .portable => "portable"
  | .localOverride => "local-override"

structure CMakeCacheEntry where
  kind : CMakeCacheType
  value : String
  portability : Option CachePathPortability
  deriving DecidableEq, Repr

def CMakeCacheEntry.toValue (entry : CMakeCacheEntry) : Json := Serde.object [
  ("type", some (.str entry.kind.cmakeName)), ("value", some (.str entry.value)),
  ("portability", entry.portability.map fun p => .str p.asStr)]

/-- A named selection of cache entries, in key order. -/
structure BuildIntent where
  name : String
  cache : List (String × CMakeCacheEntry)
  deriving DecidableEq, Repr

def BuildIntent.toValue (intent : BuildIntent) : Json := Serde.object [
  ("name", some (.str intent.name)),
  ("cache", Serde.skipIf intent.cache.isEmpty
    (.obj (intent.cache.map fun entry => (entry.1, entry.2.toValue))))]

/-- One package-relevant output: its path in the project, and the bytes it has. -/
structure BuildOutput where
  path : String
  sha256 : String
  size : Nat
  deriving DecidableEq, Repr

/-- The exact bytes of a renderer report that a managed operation published, and the producer
session stamped into them. The path is relative to the build directory. -/
structure RendererEvidenceBinding where
  path : String
  session : String
  sha256 : String
  deriving DecidableEq, Repr

structure BuildCompletion where
  schema : String
  target : String
  project : BuildProjectIdentity
  runtime : LockRuntime
  compiler : LockCompiler
  generator : String
  buildDir : String
  intent : BuildIntent
  /-- The invocation that held the target lease while the build ran. -/
  invocation : Option String
  outputs : List BuildOutput
  rendererReports : List RendererEvidenceBinding
  completedUnix : Nat
  deriving DecidableEq, Repr

/-! ## What a record may list -/

/-- Fail when `bad` holds, with a detail. -/
def refuseIf (bad : Prop) [Decidable bad] (detail : String) : Except String Unit :=
  if bad then .error detail else .ok ()

@[simp] theorem refuseIf_ok {bad : Prop} [Decidable bad] {detail : String} {u : Unit} :
    refuseIf bad detail = .ok u ↔ ¬ bad := by
  unfold refuseIf
  split <;> simp_all

theorem except_bind_ok {ε α β : Type} {x : Except ε α} {f : α → Except ε β} {b : β} :
    (x >>= f) = .ok b ↔ ∃ a, x = .ok a ∧ f a = .ok b := by
  cases x with
  | error e => simp [bind, Except.bind]
  | ok a => simp [bind, Except.bind]

/-- A relative path with forward slashes that does not lead upwards. -/
def isPortableRelative (path : String) : Bool :=
  !path.isEmpty && !Text.startsWith "/" path && !Text.startsWith "\\" path &&
    !hasDriveLetter path && !Text.containsChar '\\' path && !(Text.segments path).contains ".."

/-- `is_sha256`: with lowercase digits only. -/
def isSha256 (value : String) : Bool :=
  (Text.stripPrefix "sha256:" value).any fun hex =>
    hex.length == 64 && Text.all Text.isLowerHexDigit hex

def validateOutputs (seen : List String) : List BuildOutput → Except String Unit
  | [] => .ok ()
  | output :: rest => do
    refuseIf (¬ isPortableRelative output.path)
      ("completion output '" ++ output.path ++ "' is not a portable project-relative path")
    refuseIf (output.path ∈ seen) ("completion records duplicate output '" ++ output.path ++ "'")
    refuseIf (¬ isSha256 output.sha256)
      ("completion output '" ++ output.path ++ "' has an invalid SHA-256 digest")
    validateOutputs (output.path :: seen) rest

def validateRendererBindings (seen : List String) :
    List RendererEvidenceBinding → Except String Unit
  | [] => .ok ()
  | binding :: rest => do
    refuseIf (¬ isPortableRelative binding.path)
      ("renderer evidence path '" ++ binding.path ++ "' is not build-directory-relative")
    refuseIf (binding.path ∈ seen) ("renderer evidence repeats report '" ++ binding.path ++ "'")
    refuseIf (Text.trim binding.session = "")
      ("renderer evidence '" ++ binding.path ++ "' has an empty producer session")
    refuseIf (¬ isSha256 binding.sha256)
      ("renderer evidence '" ++ binding.path ++ "' has an invalid SHA-256 digest")
    validateRendererBindings (binding.path :: seen) rest

/-! ## Builds -/

namespace BuildCompletion

def fromLock (lock : TargetLock) (project : BuildProjectIdentity) (buildDir : String)
    (intent : BuildIntent) (completedUnix : Nat) : BuildCompletion where
  schema := BUILD_COMPLETION_SCHEMA
  target := lock.target
  project := project
  runtime := lock.runtime
  compiler := lock.compiler
  generator := lock.generator
  buildDir := forwardSlashes buildDir
  intent := intent
  invocation := none
  outputs := []
  rendererReports := []
  completedUnix := completedUnix

def withInvocation (completion : BuildCompletion) (invocation : String) : BuildCompletion :=
  { completion with invocation := some invocation }

def withOutputs (completion : BuildCompletion) (outputs : List BuildOutput) : BuildCompletion :=
  { completion with outputs }

def withRendererReports (completion : BuildCompletion) (reports : List RendererEvidenceBinding) :
    BuildCompletion :=
  { completion with rendererReports := reports }

def optionalText : Option String → Json
  | some text => .str text
  | none => .null

/-- What a fingerprint covers: everything that decides what is built. -/
def material (completion : BuildCompletion) : Json := Serde.object [
  ("target", some (.str completion.target)),
  ("project", some (Serde.object [("name", some (.str completion.project.name)),
    ("version", some (.str completion.project.version))])),
  ("runtime", some (Serde.object [("id", some (.str completion.runtime.id)),
    ("digest", some (.str completion.runtime.digest))])),
  ("compiler", some (.arr [.str completion.compiler.policy, optionalText completion.compiler.cc,
    optionalText completion.compiler.cxx])),
  ("generator", some (.str completion.generator)),
  ("build_dir", some (.str completion.buildDir)),
  ("intent", some completion.intent.toValue)]

/-- The digest of a configured build. When it completed and who ran it do not matter. -/
def fingerprint (codec : Codec) (completion : BuildCompletion) : String :=
  sha256Hex codec (jsonBytes completion.material)

variable {codec : Codec} {completion : BuildCompletion}

@[simp] theorem fingerprint_withInvocation (invocation : String) :
    (completion.withInvocation invocation).fingerprint codec = completion.fingerprint codec := rfl

@[simp] theorem fingerprint_withOutputs (outputs : List BuildOutput) :
    (completion.withOutputs outputs).fingerprint codec = completion.fingerprint codec := rfl

@[simp] theorem fingerprint_withRendererReports (reports : List RendererEvidenceBinding) :
    (completion.withRendererReports reports).fingerprint codec =
      completion.fingerprint codec := rfl

/-- Refuse a record that is stale, copied, or of another target, project or directory. -/
def validateAgainst (completion : BuildCompletion) (lock : TargetLock)
    (projectName projectVersion buildDir : String) : Except String Unit := do
  refuseIf (completion.schema ≠ BUILD_COMPLETION_SCHEMA)
    ("unsupported completion schema '" ++ completion.schema ++ "'")
  refuseIf (completion.target ≠ lock.target)
    ("completion target '" ++ completion.target ++ "' != configured target '" ++
      lock.target ++ "'")
  refuseIf (completion.project.name ≠ projectName ∨ completion.project.version ≠ projectVersion)
    ("completion project '" ++ completion.project.name ++ " " ++ completion.project.version ++
      "' != current project '" ++ projectName ++ " " ++ projectVersion ++ "'")
  refuseIf (completion.runtime ≠ lock.runtime ∧ completion.runtime.id = lock.runtime.id)
    ("completion runtime '" ++ completion.runtime.id ++ "' changed digest under the same " ++
      "runtime id: recorded digest '" ++ completion.runtime.digest ++ "' != current digest '" ++
      lock.runtime.digest ++ "'; this may be manifest-identity enrichment or replacement of " ++
      "the runtime payload, so rebuild the affected member before reusing managed evidence")
  refuseIf (completion.runtime ≠ lock.runtime)
    ("completion runtime '" ++ completion.runtime.id ++ "' was substituted by configured " ++
      "runtime '" ++ lock.runtime.id ++
      "'; rebuild the affected member before reusing managed evidence")
  refuseIf (completion.compiler.fingerprint ≠ lock.compiler.fingerprint)
    "completion compiler does not match target.lock.json"
  refuseIf (completion.generator ≠ lock.generator)
    ("completion generator '" ++ completion.generator ++ "' != configured generator '" ++
      lock.generator ++ "'")
  refuseIf (completion.buildDir ≠ forwardSlashes buildDir)
    ("completion build directory '" ++ completion.buildDir ++ "' != expected '" ++
      forwardSlashes buildDir ++ "'")
  refuseIf (Text.trim completion.intent.name = "") "completion build intent is empty"
  validateOutputs [] completion.outputs
  validateRendererBindings [] completion.rendererReports

end BuildCompletion

/-! ## Test runs -/

/-- What a test run observed. It is recorded also when tests failed. -/
structure TestTotals where
  total : Nat
  passed : Nat
  failed : Nat
  deriving DecidableEq, Repr

structure TestCompletion where
  schema : String
  target : String
  project : BuildProjectIdentity
  runtime : LockRuntime
  compiler : LockCompiler
  generator : String
  buildDir : String
  configuration : String
  /-- The fingerprint of the build that was tested. -/
  buildFingerprint : String
  totals : TestTotals
  /-- The tests attributed to each workspace member, in key order. -/
  members : List (String × Nat)
  invocation : Option String
  rendererReports : List RendererEvidenceBinding
  completedUnix : Nat
  deriving DecidableEq, Repr

/-- `checked_add` over the counts of the members. -/
def attributedTests (sum : Nat) : List (String × Nat) → Except String Nat
  | [] => .ok sum
  | (_, count) :: rest =>
    if sum + count < 2 ^ 32 then attributedTests (sum + count) rest
    else .error "workspace member test count overflow"

def validateMemberKeys : List (String × Nat) → Except String Unit
  | [] => .ok ()
  | (member, _) :: rest => do
    refuseIf (¬ isPortableRelative member)
      ("workspace member test key '" ++ member ++ "' is not project-relative")
    validateMemberKeys rest

def validateMemberTestCounts (members : List (String × Nat)) (total : Nat) :
    Except String Unit := do
  let attributed ← attributedTests 0 members
  refuseIf (total < attributed) ("workspace members attribute " ++ toString attributed ++
    " tests, more than the run total " ++ toString total)
  validateMemberKeys members

namespace TestCompletion

def new (codec : Codec) (build : BuildCompletion) (configuration : String) (totals : TestTotals)
    (completedUnix : Nat) : TestCompletion where
  schema := TEST_COMPLETION_SCHEMA
  target := build.target
  project := build.project
  runtime := build.runtime
  compiler := build.compiler
  generator := build.generator
  buildDir := build.buildDir
  configuration := configuration
  buildFingerprint := build.fingerprint codec
  totals := totals
  members := []
  invocation := none
  rendererReports := []
  completedUnix := completedUnix

def withInvocation (completion : TestCompletion) (invocation : String) : TestCompletion :=
  { completion with invocation := some invocation }

def withMembers (completion : TestCompletion) (members : List (String × Nat)) : TestCompletion :=
  { completion with members }

def withRendererReports (completion : TestCompletion) (reports : List RendererEvidenceBinding) :
    TestCompletion :=
  { completion with rendererReports := reports }

/-- Refuse a record that is stale, copied, or describes another build than the one at hand. -/
def validateAgainst (codec : Codec) (completion : TestCompletion) (build : BuildCompletion) :
    Except String Unit := do
  refuseIf (completion.schema ≠ TEST_COMPLETION_SCHEMA)
    ("unsupported test completion schema '" ++ completion.schema ++ "'")
  refuseIf (completion.target ≠ build.target)
    ("test completion target '" ++ completion.target ++ "' != built target '" ++
      build.target ++ "'")
  refuseIf (completion.buildFingerprint ≠ build.fingerprint codec)
    "test completion describes an earlier build of this target — re-run \x60ost test\x60"
  validateMemberTestCounts completion.members completion.totals.total
  refuseIf (0 < completion.totals.failed) (toString completion.totals.failed ++ " of " ++
    toString completion.totals.total ++ " tests failed")
  refuseIf (completion.totals.total = 0) "test completion records no tests"
  validateRendererBindings [] completion.rendererReports

end TestCompletion

end OpenStrata
