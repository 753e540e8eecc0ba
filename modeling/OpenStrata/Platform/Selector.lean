import Mathlib.Data.List.Destutter
import Mathlib.Data.List.Sort
import OpenStrata.Core.Digest
import OpenStrata.Platform.OpenUsd

/-!
# OpenUSD selectors

The OCI-tag-safe selector of a compatibility identity: a short readable prefix and the digest
of every compatibility-critical field, serialised in declaration order.

## Main definitions

* `ResolvedOpenUsdCompatibility.toJson`: the serialised identity
* `ResolvedOpenUsdCompatibility.isVerified`: every provider has an observed exact version
* `ResolvedOpenUsdCompatibility.selector`: the selector of an identity
-/

namespace OpenStrata

/-- A field left out when it is absent. -/
def optionalField (name : String) (value : Option String) : List (String × Json) :=
  (value.map fun v => (name, Json.str v)).toList

def ResolvedOpenUsdProvider.toJson (p : ResolvedOpenUsdProvider) : Json :=
  .obj ([("family", .str p.family), ("provider", .str p.provider)] ++
    optionalField "version" p.version ++ [("version_constraint", .str p.versionConstraint)])

def ResolvedOpenUsdToolchain.toJson (t : ResolvedOpenUsdToolchain) : Json :=
  .obj ([("family", .str t.family), ("provider", .str t.provider)] ++
    optionalField "version" t.version ++
    [("version_constraint", .str t.versionConstraint), ("cxx_standard", .str t.cxxStandard),
      ("runtime", t.runtime.toJson)])

def ResolvedOpenUsdMacos.toJson (m : ResolvedOpenUsdMacos) : Json :=
  .obj [("sdk", m.sdk.toJson), ("deployment_target", .str m.deploymentTarget)]

def ResolvedSourceIdentity.toJson (s : ResolvedSourceIdentity) : Json :=
  .obj [("repository", .str s.repository), ("revision", .str s.revision)]

def ResolvedDependencyIdentity.toJson (d : ResolvedDependencyIdentity) : Json :=
  .obj ([("name", .str d.name), ("version", .str d.version), ("source", d.source.toJson)] ++
    optionalField "archive_digest" d.archiveDigest)

/-- Every condition of a provider's verification. -/
def ResolvedOpenUsdProvider.isVerified (p : ResolvedOpenUsdProvider) : Bool :=
  !(Text.trim p.family).isEmpty && !(Text.trim p.provider).isEmpty &&
    !(Text.trim p.versionConstraint).isEmpty &&
    p.version.any fun version => versionSatisfiesConstraint version p.versionConstraint

/-- The readable part of a selector as tag characters, runs of separators collapsed. -/
def normalizeTag (previousSeparator : Bool) : List Char → List Char
  | [] => []
  | ch :: rest =>
    let normalized := if ch.isAlphanum || ch == '.' || ch == '_' || ch == '-' then ch.toLower
      else '-'
    if normalized == '-' && previousSeparator then normalizeTag previousSeparator rest
    else normalized :: normalizeTag (normalized == '-') rest

def isTagSeparator (c : Char) : Bool := c == '.' || c == '_' || c == '-'

/-- Separators at both ends removed. -/
def trimSeparators (cs : List Char) : List Char :=
  ((cs.dropWhile isTagSeparator).reverse.dropWhile isTagSeparator).reverse

/-- At most 63 tag characters; with the dash and the digest they fit OCI's 128. -/
def tagPrefix (readable : String) : String :=
  let body := trimSeparators (normalizeTag false readable.toList)
  let body := if body.isEmpty then "openusd".toList else body
  String.ofList ((body.take 63).reverse.dropWhile isTagSeparator).reverse

namespace ResolvedOpenUsdCompatibility

def providersAreVerified (c : ResolvedOpenUsdCompatibility) : Bool :=
  !(Text.trim c.platform).isEmpty && !(Text.trim c.toolchain.family).isEmpty &&
    !(Text.trim c.toolchain.provider).isEmpty &&
    !(Text.trim c.toolchain.versionConstraint).isEmpty &&
    !(Text.trim c.toolchain.cxxStandard).isEmpty &&
    (c.toolchain.version.any fun version =>
      versionSatisfiesConstraint version c.toolchain.versionConstraint) &&
    c.toolchain.runtime.isVerified && c.python.isVerified && c.tbb.isVerified

/-- Every compatibility-critical provider carries an observed version that satisfies its
constraint. -/
def isVerified (c : ResolvedOpenUsdCompatibility) : Bool :=
  !(Text.trim c.platform).isEmpty && c.profile == some "usd" &&
    (c.producerOpenusdVersion.any fun version => !(Text.trim version).isEmpty) &&
    (c.consumerOpenusdConstraint.any fun constraint => !(Text.trim constraint).isEmpty) &&
    (c.variant.canonical c.capabilities).isSome && c.providersAreVerified &&
    match c.macos, c.os with
    | some macos, .macos =>
      macos.sdk.isVerified && !(Text.trim macos.deploymentTarget).isEmpty
    | none, .macos => false
    | none, _ => true
    | some _, _ => false

def toJson (c : ResolvedOpenUsdCompatibility) : Json :=
  .obj ([("schema", .int c.schema), ("platform", .str c.platform)] ++
    optionalField "profile" c.profile ++
    [("os", .str c.os.asStr), ("arch", .str c.arch.asStr), ("toolchain", c.toolchain.toJson),
      ("python", c.python.toJson), ("tbb", c.tbb.toJson), ("variant", .str c.variant.asStr),
      ("capabilities", .arr (c.capabilities.map .str))] ++
    optionalField "producer_openusd_version" c.producerOpenusdVersion ++
    optionalField "consumer_openusd_constraint" c.consumerOpenusdConstraint ++
    (c.macos.map fun macos => ("macos", macos.toJson)).toList)

/-- The capabilities of an identity, sorted and without repetitions. -/
def sortedCapabilities (c : ResolvedOpenUsdCompatibility) : List String :=
  (c.capabilities.insertionSort (· ≤ ·)).destutter (· ≠ ·)

/-- The dependencies of an identity, sorted and without repetitions. -/
def sortedDependencies (dependencies : List ResolvedDependencyIdentity) : Json :=
  .arr (((dependencies.insertionSort (·.le ·)).destutter (· ≠ ·)).map
    ResolvedDependencyIdentity.toJson)

/-- The inputs of a selector that must be exact. -/
def selectorInputsVerified (artifactTarget openusdVersion : String)
    (source : Option ResolvedSourceIdentity)
    (dependencies : List ResolvedDependencyIdentity) : Bool :=
  !(Text.trim artifactTarget).isEmpty && !(Text.trim openusdVersion).isEmpty &&
    source.all ResolvedSourceIdentity.isVerified &&
    dependencies.all ResolvedDependencyIdentity.isVerified

/-- The readable part: platform, operating system, architecture and variant. -/
def readable (c : ResolvedOpenUsdCompatibility) (variant : OpenUsdVariantId) : String :=
  "openusd-" ++ c.platform ++ "-" ++ c.os.asStr ++ "-" ++ c.arch.asStr ++ "-" ++ variant.asStr

def selectorHash (codec : Codec) (identity : Json) : String :=
  renderHex (codec.sha256 (jsonBytes identity))

/-- The selector of schema 1. -/
def legacySelector (codec : Codec) (c : ResolvedOpenUsdCompatibility)
    (artifactTarget openusdVersion : String) (source : Option ResolvedSourceIdentity)
    (dependencies : List ResolvedDependencyIdentity) : Option String :=
  if ¬ c.providersAreVerified ∨
      ¬ selectorInputsVerified artifactTarget openusdVersion source dependencies then none
  else
    let identity := Json.obj [("schema", .int c.schema), ("platform", .str c.platform),
      ("os", .str c.os.asStr), ("arch", .str c.arch.asStr),
      ("artifact_target", .str artifactTarget), ("openusd_version", .str openusdVersion),
      ("source", (source.map ResolvedSourceIdentity.toJson).getD .null),
      ("dependencies", sortedDependencies dependencies), ("toolchain", c.toolchain.toJson),
      ("python", c.python.toJson), ("tbb", c.tbb.toJson), ("variant", .str c.variant.asStr),
      ("capabilities", .arr (c.sortedCapabilities.map .str))]
    some (c.readable c.variant ++ "-" ++ selectorHash codec identity)

/-- The deterministic selector of an exact compatibility identity. -/
def selector (codec : Codec) (c : ResolvedOpenUsdCompatibility)
    (artifactTarget openusdVersion : String) (source : Option ResolvedSourceIdentity)
    (dependencies : List ResolvedDependencyIdentity) : Option String :=
  if c.schema = 1 then c.legacySelector codec artifactTarget openusdVersion source dependencies
  else if ¬ c.isVerified ∨
      ¬ selectorInputsVerified artifactTarget openusdVersion source dependencies then none
  else do
    let variant ← c.variant.canonical c.capabilities
    let producerVersion ← c.producerOpenusdVersion
    if producerVersion ≠ openusdVersion then none
    else
      let identity := Json.obj [("schema", .int c.schema), ("platform", .str c.platform),
        ("os", .str c.os.asStr), ("arch", .str c.arch.asStr),
        ("artifact_target", .str artifactTarget), ("profile", .str (← c.profile)),
        ("producer_openusd_version", .str producerVersion),
        ("consumer_openusd_constraint", .str (← c.consumerOpenusdConstraint)),
        ("source", (source.map ResolvedSourceIdentity.toJson).getD .null),
        ("dependencies", sortedDependencies dependencies), ("toolchain", c.toolchain.toJson),
        ("python", c.python.toJson), ("tbb", c.tbb.toJson), ("variant", .str variant.asStr),
        ("macos", (c.macos.map ResolvedOpenUsdMacos.toJson).getD .null),
        ("capabilities", .arr (c.sortedCapabilities.map .str))]
      some (tagPrefix (c.readable variant) ++ "-" ++ selectorHash codec identity)

end ResolvedOpenUsdCompatibility

end OpenStrata
