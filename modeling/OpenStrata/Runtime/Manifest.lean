import OpenStrata.Artifact.RecordJson
import OpenStrata.Ci.Validate
import OpenStrata.Core.Digest

/-!
# Runtime manifests

The identity record of a runtime: its platform, profile and variant, what it provides, and the
digest of its canonical fields.

## Main definitions

* `Variant`: operating system, architecture, ABI and Python of a build
* `RuntimeManifest`: the manifest of a runtime
* `RuntimeManifest.computeDigest`: the digest of its canonical fields
-/

namespace OpenStrata.Runtime

open Serde (struct withValue)

/-! ## Variants -/

/-- The C library or ABI flavor of a build. -/
inductive Abi
  | glibc (version : String)
  | msvc (toolset : String)
  | macos (version : String)
  | native
  deriving DecidableEq, Repr

namespace Abi

def withoutDots (version : String) : String :=
  String.ofList (version.toList.filter (· != '.'))

/-- The token of a variant slug, if any. -/
def token : Abi → Option String
  | .glibc version => some ("glibc" ++ withoutDots version)
  | .msvc toolset => some ("msvc" ++ toolset)
  | .macos version => some ("macos" ++ withoutDots version)
  | .native => none

def toValue : Abi → Json
  | .glibc version => struct [("glibc", some (struct [("version", some (.str version))]))]
  | .msvc toolset => struct [("msvc", some (struct [("toolset", some (.str toolset))]))]
  | .macos version => struct [("macos", some (struct [("version", some (.str version))]))]
  | .native => .str "native"

end Abi

structure Variant where
  os : Os
  arch : Arch
  abi : Abi
  /-- The Python ABI tag without its prefix, such as `313`. -/
  python : String
  deriving DecidableEq, Repr

namespace Variant

/-- The canonical slug, such as `linux-x86_64-glibc228-py313`. -/
def slug (v : Variant) : String :=
  Text.join "-" ([v.os.asStr, v.arch.asStr] ++ v.abi.token.toList ++ ["py" ++ v.python])

/-- The slug without the ABI token. -/
def shortSlug (v : Variant) : String := v.os.asStr ++ "-" ++ v.arch.asStr ++ "-py" ++ v.python

def osSuffix : Os → String
  | .linux => "linux-gnu"
  | .macos => "darwin"
  | .windows => "windows-msvc"

/-- The CPython ABI tag, such as `cpython-313-x86_64-linux-gnu`. -/
def pythonAbi (v : Variant) : String :=
  "cpython-" ++ v.python ++ "-" ++ v.arch.asStr ++ "-" ++ osSuffix v.os

def toValue (v : Variant) : Json :=
  struct [("os", some v.os.toValue), ("arch", some v.arch.toValue), ("abi", some v.abi.toValue),
    ("python", some (.str v.python))]

end Variant

/-! ## Manifests -/

/-- The outcome of a runtime's validation. -/
inductive Validation
  | passed
  | failed
  | pending
  deriving DecidableEq, Repr

def Validation.asStr : Validation → String
  | .passed => "passed"
  | .failed => "failed"
  | .pending => "pending"

/-- A resolved extension of a runtime. -/
structure ExtensionRecord where
  id : String
  version : String
  features : List String
  deriving DecidableEq, Repr

def ExtensionRecord.toValue (e : ExtensionRecord) : Json :=
  struct [("id", some (.str e.id)), ("version", some (.str e.version)),
    ("features", some (.arr (e.features.map .str)))]

/-- A package that the artifact leaves to the consuming host. -/
structure HostRequirement where
  manager : Ci.HostPackageManager
  name : String
  deriving DecidableEq, Repr

def managerName : Ci.HostPackageManager → String
  | .apt => "apt"
  | .brew => "brew"

def HostRequirement.toValue (r : HostRequirement) : Json :=
  struct [("manager", some (.str (managerName r.manager))), ("name", some (.str r.name))]

/-- A written runtime manifest. Its provenance fields are left out: nothing here reads them. -/
structure RuntimeManifest where
  schema : Nat
  id : String
  platform : String
  profile : String
  variant : Variant
  python : String
  capabilities : List String
  layout : List String
  extensions : List ExtensionRecord
  /-- `sha256:<hex>` over the canonical fields. -/
  digest : String
  validation : Validation
  hostRequirements : List HostRequirement
  openusdCompatibility : Option ResolvedOpenUsdCompatibility
  openusdVerification : OpenUsdVerification
  buildSource : Option ResolvedSourceIdentity
  buildDependencies : List ResolvedDependencyIdentity
  deriving DecidableEq, Repr

/-! ### The canonical fields -/

section Canonical

variable (c : ResolvedOpenUsdCompatibility)

def toolchainValue (t : ResolvedOpenUsdToolchain) : Json :=
  struct (withValue "runtime" (some (struct t.runtime.fields)) t.fields)

def macosValue (m : ResolvedOpenUsdMacos) : Json :=
  struct (withValue "sdk" (some (struct m.sdk.fields)) m.fields)

def compatibilityValue : Json :=
  struct (withValue "toolchain" (some (toolchainValue c.toolchain))
    (withValue "python" (some (struct c.python.fields))
      (withValue "tbb" (some (struct c.tbb.fields))
        (withValue "macos" (c.macos.map macosValue) c.fields))))

def dependencyValue (d : ResolvedDependencyIdentity) : Json :=
  struct (withValue "source" (some (struct d.source.fields)) d.fields)

end Canonical

namespace RuntimeManifest

/-- The canonical fields, in the order they are serialised. -/
def canonical (m : RuntimeManifest) : Json :=
  struct [("schema", some (.int m.schema)), ("id", some (.str m.id)),
    ("platform", some (.str m.platform)), ("profile", some (.str m.profile)),
    ("variant", some m.variant.toValue), ("python", some (.str m.python)),
    ("capabilities", some (.arr (m.capabilities.map .str))),
    ("layout", some (.arr (m.layout.map .str))),
    ("extensions", some (.arr (m.extensions.map ExtensionRecord.toValue))),
    ("host_requirements", some (.arr (m.hostRequirements.map HostRequirement.toValue))),
    ("openusd_compatibility", some (m.openusdCompatibility.elim .null compatibilityValue)),
    ("openusd_verification", some (struct m.openusdVerification.fields)),
    ("build_source", some (m.buildSource.elim .null fun source => struct source.fields)),
    ("build_dependencies", some (.arr (m.buildDependencies.map dependencyValue)))]

def computeDigest (codec : Codec) (m : RuntimeManifest) : String :=
  sha256Hex codec (jsonBytes m.canonical)

end RuntimeManifest

end OpenStrata.Runtime
