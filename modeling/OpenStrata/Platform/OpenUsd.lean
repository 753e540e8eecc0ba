import OpenStrata.Core.Serde
import OpenStrata.Core.Text

/-!
# OpenUSD identities

The normalised identities a runtime artifact carries: its compatibility cell, its
verification stages, and the exact source and dependency revisions that went into it.

## Main definitions

* `ResolvedOpenUsdCompatibility`: the compatibility cell of a runtime
* `OpenUsdVerification`: the verification stages a producer claims
* `ResolvedSourceIdentity`, `ResolvedDependencyIdentity`: source and dependency revisions
* `versionSatisfiesConstraint`: whether an observed version meets a constraint
* `ResolvedOpenUsdCompatibility.verificationFailure`: why a cell is not verified
-/

namespace OpenStrata

/-- Operating-system family. -/
inductive Os
  | linux
  | macos
  | windows
  deriving DecidableEq, Repr

/-- CPU architecture. -/
inductive Arch
  | x86_64
  | arm64
  deriving DecidableEq, Repr

def Os.asStr : Os → String
  | .linux => "linux"
  | .macos => "macos"
  | .windows => "windows"

def Arch.asStr : Arch → String
  | .x86_64 => "x86_64"
  | .arm64 => "arm64"

def Os.fromJson : Json → Option Os :=
  Serde.variant [("linux", .linux), ("macos", .macos), ("windows", .windows)]

def Arch.fromJson : Json → Option Arch :=
  Serde.variant [("x86_64", .x86_64), ("arm64", .arm64)]

/-- Graphics variants, with the two legacy spellings of schema 1. -/
inductive OpenUsdVariantId
  | core
  | gl
  | vulkan
  | metal
  | headless
  | standard
  deriving DecidableEq, Repr

namespace OpenUsdVariantId

def asStr : OpenUsdVariantId → String
  | .core => "core"
  | .gl => "gl"
  | .vulkan => "vulkan"
  | .metal => "metal"
  | .headless => "headless"
  | .standard => "standard"

/-- Normalise a legacy value with the capabilities recorded beside it. -/
def canonical (variant : OpenUsdVariantId) (capabilities : List String) :
    Option OpenUsdVariantId :=
  match variant with
  | .core | .gl | .vulkan | .metal => some variant
  | .standard => some .gl
  | .headless =>
    if capabilities.all fun c => c ∉ ["imaging", "opengl", "vulkan", "metal"] then
      some .core
    else none

def fromJson : Json → Option OpenUsdVariantId :=
  Serde.variant [("core", .core), ("gl", .gl), ("vulkan", .vulkan), ("metal", .metal),
    ("headless", .headless), ("standard", .standard)]

end OpenUsdVariantId

/-- Outcome of one verification stage. -/
inductive OpenUsdVerificationStatus
  | notRun
  | passed
  | failed
  deriving DecidableEq, Repr

def OpenUsdVerificationStatus.fromJson : Json → Option OpenUsdVerificationStatus :=
  Serde.variant [("not-run", .notRun), ("passed", .passed), ("failed", .failed)]

/-- Separately tracked verification stages of a produced runtime. -/
structure OpenUsdVerification where
  schema : Nat
  compile : OpenUsdVerificationStatus
  link : OpenUsdVerificationStatus
  loader : OpenUsdVerificationStatus
  physicalDevice : OpenUsdVerificationStatus
  render : OpenUsdVerificationStatus
  deriving DecidableEq, Repr

namespace OpenUsdVerification

def isSupported (v : OpenUsdVerification) : Bool := v.schema == 1

def fromJson (value : Json) : Option OpenUsdVerification := do
  let fs ← Serde.fields
    ["schema", "compile", "link", "loader", "physical_device", "render"] value
  let status := OpenUsdVerificationStatus.fromJson
  return {
    schema := ← Serde.required fs "schema" Serde.u32
    compile := ← Serde.required fs "compile" status
    link := ← Serde.required fs "link" status
    loader := ← Serde.required fs "loader" status
    physicalDevice := ← Serde.required fs "physical_device" status
    render := ← Serde.required fs "render" status }

end OpenUsdVerification

/-- A provider of one compatibility axis, with its observed version. -/
structure ResolvedOpenUsdProvider where
  family : String
  provider : String
  version : Option String
  versionConstraint : String
  deriving DecidableEq, Repr

def ResolvedOpenUsdProvider.fromJson (value : Json) : Option ResolvedOpenUsdProvider := do
  let fs ← Serde.fields ["family", "provider", "version", "version_constraint"] value
  return {
    family := ← Serde.required fs "family" Serde.string
    provider := ← Serde.required fs "provider" Serde.string
    version := ← Serde.optional fs "version" Serde.string
    versionConstraint := ← Serde.required fs "version_constraint" Serde.string }

/-- The compiler of a cell and the native runtime it links. -/
structure ResolvedOpenUsdToolchain where
  family : String
  provider : String
  version : Option String
  versionConstraint : String
  cxxStandard : String
  runtime : ResolvedOpenUsdProvider
  deriving DecidableEq, Repr

def ResolvedOpenUsdToolchain.fromJson (value : Json) : Option ResolvedOpenUsdToolchain := do
  let fs ← Serde.fields
    ["family", "provider", "version", "version_constraint", "cxx_standard", "runtime"] value
  return {
    family := ← Serde.required fs "family" Serde.string
    provider := ← Serde.required fs "provider" Serde.string
    version := ← Serde.optional fs "version" Serde.string
    versionConstraint := ← Serde.required fs "version_constraint" Serde.string
    cxxStandard := ← Serde.required fs "cxx_standard" Serde.string
    runtime := ← Serde.required fs "runtime" ResolvedOpenUsdProvider.fromJson }

/-- The macOS facts of a cell. -/
structure ResolvedOpenUsdMacos where
  sdk : ResolvedOpenUsdProvider
  deploymentTarget : String
  deriving DecidableEq, Repr

def ResolvedOpenUsdMacos.fromJson (value : Json) : Option ResolvedOpenUsdMacos := do
  let fs ← Serde.fields ["sdk", "deployment_target"] value
  return {
    sdk := ← Serde.required fs "sdk" ResolvedOpenUsdProvider.fromJson
    deploymentTarget := ← Serde.required fs "deployment_target" Serde.string }

/-- Exact, normalised compatibility selection stored in runtime identity. -/
structure ResolvedOpenUsdCompatibility where
  schema : Nat
  platform : String
  profile : Option String
  os : Os
  arch : Arch
  toolchain : ResolvedOpenUsdToolchain
  python : ResolvedOpenUsdProvider
  tbb : ResolvedOpenUsdProvider
  variant : OpenUsdVariantId
  capabilities : List String
  producerOpenusdVersion : Option String
  consumerOpenusdConstraint : Option String
  macos : Option ResolvedOpenUsdMacos
  deriving DecidableEq, Repr

def ResolvedOpenUsdCompatibility.fromJson (value : Json) :
    Option ResolvedOpenUsdCompatibility := do
  let fs ← Serde.fields
    ["schema", "platform", "profile", "os", "arch", "toolchain", "python", "tbb", "variant",
      "capabilities", "producer_openusd_version", "consumer_openusd_constraint", "macos"] value
  return {
    schema := ← Serde.required fs "schema" Serde.u32
    platform := ← Serde.required fs "platform" Serde.string
    profile := ← Serde.optional fs "profile" Serde.string
    os := ← Serde.required fs "os" Os.fromJson
    arch := ← Serde.required fs "arch" Arch.fromJson
    toolchain := ← Serde.required fs "toolchain" ResolvedOpenUsdToolchain.fromJson
    python := ← Serde.required fs "python" ResolvedOpenUsdProvider.fromJson
    tbb := ← Serde.required fs "tbb" ResolvedOpenUsdProvider.fromJson
    variant := ← Serde.required fs "variant" OpenUsdVariantId.fromJson
    capabilities := ← Serde.required fs "capabilities" (Serde.list Serde.string)
    producerOpenusdVersion := ← Serde.optional fs "producer_openusd_version" Serde.string
    consumerOpenusdConstraint := ← Serde.optional fs "consumer_openusd_constraint" Serde.string
    macos := ← Serde.optional fs "macos" ResolvedOpenUsdMacos.fromJson }

/-- An identity component that is present and whitespace-normalised. -/
def exactIdentityComponent (value : String) : Bool :=
  !value.isEmpty && value == Text.trim value

/-- Exact upstream source revision that contributed artifact bytes. -/
structure ResolvedSourceIdentity where
  repository : String
  revision : String
  deriving DecidableEq, Repr

def ResolvedSourceIdentity.isVerified (s : ResolvedSourceIdentity) : Bool :=
  exactIdentityComponent s.repository && exactIdentityComponent s.revision

def ResolvedSourceIdentity.fromJson (value : Json) : Option ResolvedSourceIdentity := do
  let fs ← Serde.fields ["repository", "revision"] value
  return {
    repository := ← Serde.required fs "repository" Serde.string
    revision := ← Serde.required fs "revision" Serde.string }

/-- `sha256:` and 64 lowercase hexadecimal digits. -/
def isCanonicalSha256 (value : String) : Bool :=
  match Text.stripPrefix "sha256:" value with
  | none => false
  | some hex => hex.length == 64 && Text.all Text.isLowerHexDigit hex

/-- One exact dependency selected by the artifact producer. -/
structure ResolvedDependencyIdentity where
  name : String
  version : String
  source : ResolvedSourceIdentity
  archiveDigest : Option String
  deriving DecidableEq, Repr

namespace ResolvedDependencyIdentity

def isVerified (d : ResolvedDependencyIdentity) : Bool :=
  exactIdentityComponent d.name && exactIdentityComponent d.version && d.source.isVerified &&
    d.archiveDigest.all isCanonicalSha256

def fromJson (value : Json) : Option ResolvedDependencyIdentity := do
  let fs ← Serde.fields ["name", "version", "source", "archive_digest"] value
  return {
    name := ← Serde.required fs "name" Serde.string
    version := ← Serde.required fs "version" Serde.string
    source := ← Serde.required fs "source" ResolvedSourceIdentity.fromJson
    archiveDigest := ← Serde.optional fs "archive_digest" Serde.string }

/-- The derived order of dependency identities: field by field, an absent digest first. -/
def le (a b : ResolvedDependencyIdentity) : Bool :=
  ((compare a.name b.name).then <| (compare a.version b.version).then <|
    (compare a.source.repository b.source.repository).then <|
    (compare a.source.revision b.source.revision).then <|
    compare a.archiveDigest.toList b.archiveDigest.toList).isLE

end ResolvedDependencyIdentity

/-! ## Version constraints -/

/-- The numeric components of a dotted version. -/
def numericVersion (value : String) : Option (List Nat) :=
  let value := Text.trim value
  if value.isEmpty then none
  else (Text.split (· == '.') value).mapM fun part =>
    if !part.isEmpty && Text.all Char.isDigit part then Text.parseU64 part else none

def isWildcard (part : String) : Bool := part == "x" || part == "X" || part == "*"

/-- The version a comparison is measured against, trailing wildcards dropped. -/
def comparisonFloorVersion (value : String) : Option (List Nat) :=
  numericVersion (Text.join "."
    ((Text.split (· == '.') (Text.trim value)).takeWhile fun part => !isWildcard part))

/-- Compare two numeric versions, the shorter one padded with zeros. -/
def compareNumericVersions : List Nat → List Nat → Ordering
  | [], right => right.foldr (fun y rest => (compare 0 y).then rest) .eq
  | x :: left, right =>
    (compare x (right.headD 0)).then (compareNumericVersions left right.tail)

/-- A plain dotted constraint against the observed components, with trailing wildcards. -/
def prefixMatches : List String → List Nat → Bool
  | [], _ => true
  | part :: parts, observed =>
    if isWildcard part then parts.all isWildcard
    else
      match Text.parseU64 part, observed with
      | some required, x :: xs => x == required && prefixMatches parts xs
      | _, _ => false

/-- Whether one observed numeric version satisfies a compatibility constraint. -/
def versionSatisfiesConstraint (observed constraint : String) : Bool :=
  match numericVersion observed with
  | none => false
  | some observed =>
    let constraint := Text.trim constraint
    if constraint.isEmpty then false
    else
      match [">=", "<=", ">", "<", "="].findSome? fun op =>
        (Text.stripPrefix op constraint).map fun rest => (op, rest) with
      | some (op, rest) =>
        match comparisonFloorVersion rest with
        | none => false
        | some required =>
          let ordering := compareNumericVersions observed required
          if op = ">=" then ordering != .lt
          else if op = "<=" then ordering != .gt
          else if op = ">" then ordering == .gt
          else if op = "<" then ordering == .lt
          else ordering == .eq
      | none => prefixMatches (Text.split (· == '.') constraint) observed

/-! ## Verification of a compatibility cell -/

/-- Why a provider fails verification, if it does. -/
def providerVerificationFailure (label : String) (provider : ResolvedOpenUsdProvider) :
    Option String :=
  let name := Text.trim provider.provider
  let named := if name.isEmpty then label else label ++ " provider '" ++ name ++ "'"
  if (Text.trim provider.family).isEmpty then
    some (named ++ " declares no family (unverified)")
  else if name.isEmpty then
    some (label ++ " declares no provider (unverified)")
  else if (Text.trim provider.versionConstraint).isEmpty then
    some (named ++ " declares no version constraint (unverified)")
  else
    match provider.version with
    | none =>
      some (named ++ " records no observed version to check against its constraint '" ++
        provider.versionConstraint ++ "' (unverified)")
    | some version =>
      if versionSatisfiesConstraint version provider.versionConstraint then none
      else some (named ++ " records version '" ++ version ++
        "', which does not satisfy its declared constraint '" ++
        provider.versionConstraint ++ "' (contradictory)")

namespace ResolvedOpenUsdCompatibility

/-- Why the provider facts shared by both schemas are refused, if they are. -/
def providersVerificationFailure (c : ResolvedOpenUsdCompatibility) : Option String :=
  if (Text.trim c.platform).isEmpty then
    some "the compatibility identity declares no platform (unverified)"
  else if (Text.trim c.toolchain.cxxStandard).isEmpty then
    some "the toolchain declares no C++ standard (unverified)"
  else
    let toolchain : ResolvedOpenUsdProvider := {
      family := c.toolchain.family
      provider := c.toolchain.provider
      version := c.toolchain.version
      versionConstraint := c.toolchain.versionConstraint }
    (providerVerificationFailure "toolchain" toolchain)
      |>.or (providerVerificationFailure "toolchain runtime" c.toolchain.runtime)
      |>.or (providerVerificationFailure "python" c.python)
      |>.or (providerVerificationFailure "tbb" c.tbb)

/-- The part of the verification that concerns the macOS block. -/
def macosVerificationFailure (c : ResolvedOpenUsdCompatibility) : Option String :=
  match c.macos, c.os with
  | some macos, .macos =>
    (providerVerificationFailure "macos sdk" macos.sdk).or
      (if (Text.trim macos.deploymentTarget).isEmpty then
        some "the macOS cell declares no deployment target (unverified)" else none)
  | none, .macos => some "a macOS cell carries no 'macos' identity block (unverified)"
  | none, _ => none
  | some _, os => some ("a '" ++ os.asStr ++
      "' cell carries a 'macos' identity block (contradictory)")

/-- Why the identity is refused, if it is. -/
def verificationFailure (c : ResolvedOpenUsdCompatibility) : Option String :=
  if c.profile ≠ some "usd" then
    some ("the compatibility identity declares profile '" ++ c.profile.getD "<missing>" ++
      "' rather than 'usd' (unverified)")
  else if c.producerOpenusdVersion.all fun version => (Text.trim version).isEmpty then
    some "the compatibility identity records no producer OpenUSD version (unverified)"
  else if c.consumerOpenusdConstraint.all fun constraint => (Text.trim constraint).isEmpty then
    some "the compatibility identity declares no consumer OpenUSD constraint (unverified)"
  else if (c.variant.canonical c.capabilities).isNone then
    some ("variant '" ++ c.variant.asStr ++
      "' is not canonical for the declared capabilities (contradictory)")
  else c.providersVerificationFailure.or c.macosVerificationFailure

end ResolvedOpenUsdCompatibility

end OpenStrata
