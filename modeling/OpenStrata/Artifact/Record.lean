import Mathlib.Data.List.Sort
import OpenStrata.Artifact.Component
import OpenStrata.Artifact.Policy
import OpenStrata.Core.Digest
import OpenStrata.Platform.OpenUsd

/-!
# Artifact records

The identity record of an artifact and its derivation from a producer manifest.

## Main definitions

* `ArtifactRecord`: what an artifact is, its content digest and its provenance
* `ArtifactRecord.fromProducerManifest`: the record a producer manifest describes
* `manifestFiles`, `manifestDebugArchive`: the file list and the debug archive of a manifest
* `isPlainArchiveFilename`: the file names a manifest may give its archives

## Main results

* `ArtifactRecord.fromProducerManifest_ok`: what a derived record satisfies
* `manifestDebugArchive_ok`: what an accepted debug archive satisfies
-/

namespace OpenStrata

/-- Filename of the record in an object directory. -/
def RECORD_FILE : String := "record.json"

/-- Filename of the producer manifest, in a dist directory and in the store. -/
def MANIFEST_FILE : String := "manifest.json"

def RECORD_SCHEMA : Nat := 1

def PLUGIN_BUNDLE_KIND : String := "openstrata.plugin-bundle"
def PLUGIN_PRODUCT_KIND : String := "openstrata.plugin-product"
def TOOL_KIND : String := "openstrata.tool"
def RUNTIME_KIND : String := "openstrata.runtime"
def COMPOSED_RUNTIME_KIND : String := "openstrata.composed-runtime"

/-- The manifest field that selects the OpenUSD selector algorithm. -/
def OPENUSD_SELECTOR_SCHEMA_FIELD : String := "openusd_selector_schema"

def OPENUSD_SELECTOR_SCHEMA : Nat := 3

/-- What an artifact is. -/
inductive ArtifactKind
  | runtime
  | composedRuntime
  | plugin
  | product
  | package
  deriving DecidableEq, Repr

def ArtifactKind.asStr : ArtifactKind → String
  | .runtime => "runtime"
  | .composedRuntime => "composed-runtime"
  | .plugin => "plugin"
  | .product => "product"
  | .package => "package"

/-- How an artifact entered the registry. -/
inductive ArtifactSource
  | imported
  | published
  deriving DecidableEq, Repr

/-- The identity record of one artifact. -/
structure ArtifactRecord where
  schema : Nat
  kind : ArtifactKind
  name : String
  version : String
  target : String
  profile : Option String
  /-- `sha256:<hex>` of the archive: the content identity. -/
  digest : String
  archive : String
  archiveSize : Nat
  totalSize : Nat
  fileCount : Nat
  createdUnix : Nat
  /-- The tool that produced the artifact, as its manifest says. -/
  producer : Option String
  /-- The tool that created this registry entry. -/
  importedBy : String
  source : ArtifactSource
  trust : TrustLevel
  validation : String
  licenses : List String
  sbom : Option String
  sbomDigest : Option String
  sbomSize : Option Nat
  provenance : Option String
  provenanceDigest : Option String
  provenanceSize : Option Nat
  runtimeId : Option String
  runtimeDigest : Option String
  openusdCompatibility : Option ResolvedOpenUsdCompatibility
  openusdVerification : Option OpenUsdVerification
  sourceIdentity : Option ResolvedSourceIdentity
  dependencyIdentities : List ResolvedDependencyIdentity
  component : Option ComponentContract
  deriving DecidableEq, Repr

/-- One archived file as the manifest lists it. -/
structure ManifestFile where
  path : String
  sha256 : String
  size : Nat
  linkTarget : Option String
  executable : Bool
  deriving DecidableEq, Repr

def ManifestFile.fromJson (value : Json) : Option ManifestFile := do
  let fs ← Serde.openFields ["path", "sha256", "size", "link_target", "executable"] value
  return {
    path := ← Serde.required fs "path" Serde.string
    sha256 := ← Serde.required fs "sha256" Serde.string
    size := ← Serde.required fs "size" Serde.u64
    linkTarget := ← Serde.optional fs "link_target" Serde.string
    executable := ← Serde.withDefault fs "executable" false Serde.bool }

/-- The debug-symbol archive carried beside the primary one. -/
structure DebugArchive where
  archive : String
  digest : String
  archiveSize : Nat
  files : List ManifestFile
  deriving DecidableEq, Repr

/-! ## Reading a producer manifest -/

def requireObject (value : Json) (key : String) : Result Json :=
  Result.okOr (.invalidManifest ("producer manifest is missing the '" ++ key ++ "' object"))
    ((value.get? key).filter Json.isObject)

def requireStr (value : Json) (key : String) : Result String :=
  Result.okOr (.invalidManifest ("producer manifest is missing '" ++ key ++ "' (string)"))
    (value.getStr? key)

def requireU64 (value : Json) (key : String) : Result Nat :=
  Result.okOr (.invalidManifest ("producer manifest is missing '" ++ key ++ "' (integer)"))
    ((value.get? key).bind Json.asU64?)

/-- A filename that stays where it is joined: no separators, colons or control characters. -/
def isPlainArchiveFilename (name : String) : Bool :=
  !name.isEmpty && name != "." && name != ".." && !Text.containsChar '/' name &&
    !Text.containsChar '\\' name && !Text.containsChar ':' name && !Text.any Text.isControl name

def requireArchiveFilename (manifest : Json) : Result String := do
  let archive ← requireStr manifest "archive"
  Result.failIf (¬ isPlainArchiveFilename archive)
    (.invalidManifest ("producer manifest 'archive' must be a plain filename, got '" ++
      archive ++ "'"))
  return archive

/-- The per-file integrity list of a producer manifest. -/
def manifestFiles (manifest : Json) : Result (List ManifestFile) := do
  let files ← Result.okOr (.invalidManifest "producer manifest has no 'files' array")
    ((manifest.get? "files").bind Json.asArr?)
  Result.okOr (.invalidManifest "producer manifest 'files' entry is invalid")
    (files.mapM ManifestFile.fromJson)

/-- The optional debug archive of a producer manifest. -/
def manifestDebugArchive (manifest : Json) : Result (Option DebugArchive) :=
  match manifest.get? "debug" with
  | none => .ok none
  | some debug => do
    Result.failIf (¬ debug.isObject)
      (.invalidManifest "producer manifest 'debug' must be an object")
    let archive ← requireArchiveFilename debug
    let digest ← requireStr debug "archive_digest"
    Result.failIf (¬ isSha256Ref digest)
      (.invalidManifest ("producer manifest debug archive carries a malformed archive_digest '" ++
        digest ++ "' (expected sha256:<64 hex chars>)"))
    let archiveSize ← requireU64 debug "archive_size"
    let files ← manifestFiles debug
    Result.failIf (manifest.getStr? "archive" = some archive)
      (.invalidManifest "producer manifest debug archive must have a distinct filename")
    return some { archive, digest, archiveSize, files }

/-- The kind of a producer manifest; without a tag it is a project package. -/
def detectKind (manifest : Json) : Result ArtifactKind :=
  match manifest.getStr? "kind" with
  | none => .ok .package
  | some tag =>
    if tag = PLUGIN_BUNDLE_KIND then .ok .plugin
    else if tag = PLUGIN_PRODUCT_KIND then .ok .product
    else if tag = RUNTIME_KIND then .ok .runtime
    else if tag = COMPOSED_RUNTIME_KIND then .ok .composedRuntime
    else if tag = TOOL_KIND then .ok .package
    else .error (.invalidManifest ("unrecognized producer manifest kind '" ++ tag ++
      "' (expected " ++ PLUGIN_BUNDLE_KIND ++ ", " ++ PLUGIN_PRODUCT_KIND ++ ", " ++ TOOL_KIND ++
      ", " ++ RUNTIME_KIND ++ ", or a project package manifest)"))

/-- A composed runtime names its schema, its lock and its runtime identity. -/
def validateComposition (manifest : Json) (kind : ArtifactKind) : Result Unit :=
  if kind = .composedRuntime then do
    let composition ← Result.okOr
      (.invalidManifest "composed runtime requires composition metadata")
      (manifest.get? "composition")
    Result.failIf
      (composition.getStr? "schema" ≠ some "openstrata.composed-runtime/v1alpha1" ∨
        composition.getStr? "lock" ≠ some "metadata/composition.lock.json" ∨
        ¬ (composition.getStr? "runtime_digest").any isSha256Ref)
      (.invalidManifest "composed runtime has an invalid schema, identity or lock path")
  else .ok ()

def validateOpenusdSelectorSchema (manifest : Json) (kind : ArtifactKind) :
    Result Unit :=
  match manifest.get? OPENUSD_SELECTOR_SCHEMA_FIELD with
  | none => .ok ()
  | some value => do
    Result.failIf (kind ≠ .runtime)
      (.invalidManifest ("only runtime producer manifests may carry '" ++
        OPENUSD_SELECTOR_SCHEMA_FIELD ++ "'"))
    Result.failIf (value.asU64? ≠ some 2 ∧ value.asU64? ≠ some 3)
      (.invalidManifest ("producer manifest carries unsupported OpenUSD selector schema " ++
        value.render ++ " (expected 2 or " ++ toString OPENUSD_SELECTOR_SCHEMA ++ ")"))

/-- Name, version and licences, which each kind keeps in a place of its own. -/
def manifestIdentity (manifest : Json) (kind : ArtifactKind) :
    Result (String × String × List String) :=
  if kind = .plugin then do
    let plugin ← requireObject manifest "plugin"
    return (← requireStr plugin "name", ← requireStr plugin "version",
      (plugin.getStr? "license").toList)
  else if kind = .package ∧ manifest.getStr? "kind" = some TOOL_KIND then do
    let tool ← requireObject manifest "tool"
    return (← requireStr tool "id", ← requireStr tool "version",
      (tool.getStr? "license").toList)
  else do
    let licenses := (((manifest.get? "licenses").bind Json.asArr?).getD []).filterMap Json.asStr?
    return (← requireStr manifest "name", ← requireStr manifest "version", licenses)

/-- A copy a runtime manifest carries both at its top level and in the embedded runtime
manifest: absent from both, or equal in both. -/
def agreedCopy (manifest : Json) (field what state : String) : Result (Option Json) :=
  let present (value : Option Json) := value.filter fun v => !v.isNull
  let topLevel := present (manifest.get? field)
  let embedded := present (manifest.pointer? ["provenance", "runtime_manifest", field])
  match topLevel, embedded with
  | none, none => .ok none
  | some a, some b =>
    if a = b then .ok (some b)
    else .error (.invalidManifest ("producer manifest top-level '" ++ field ++
      "' does not match provenance.runtime_manifest." ++ field))
  | a, b => .error (.invalidManifest ("producer manifest OpenUSD " ++ what ++ " " ++ state ++
      " is incomplete (top-level present=" ++ toString a.isSome ++
      ", embedded runtime present=" ++ toString b.isSome ++ ")"))

def normalizeOpenusdVerification (manifest : Json) (kind : ArtifactKind) :
    Result (Option OpenUsdVerification) :=
  if kind ≠ .runtime then
    if ((manifest.get? "openusd_verification").filter fun v => !v.isNull).isSome then
      .error (.invalidManifest
        "only runtime producer manifests may carry 'openusd_verification'")
    else .ok none
  else do
    match ← agreedCopy manifest "openusd_verification" "verification" "state" with
    | none => return none
    | some value =>
      let verification ← Result.okOr
        (.invalidManifest "producer manifest 'openusd_verification' is invalid")
        (OpenUsdVerification.fromJson value)
      Result.failIf (¬ verification.isSupported)
        (.invalidManifest
          ("producer manifest carries unsupported OpenUSD verification schema " ++
            toString verification.schema ++ " (expected 1)"))
      return some verification

/-- A field of the build source that is exact and whitespace-normalised. -/
def exactSourceField (source : Json) (field : String) : Result String :=
  Result.okOr (.invalidManifest ("producer manifest build source is missing an exact, " ++
      "whitespace-normalized '" ++ field ++ "'"))
    ((source.getStr? field).filter exactIdentityComponent)

def normalizeSourceIdentity (manifest : Json) : Result (Option ResolvedSourceIdentity) :=
  match (manifest.get? "build").filter fun v => !v.isNull with
  | none => .ok none
  | some build => do
    let source ← Result.okOr
      (.invalidManifest "producer manifest build metadata is missing 'source'")
      (build.get? "source")
    return some {
      repository := ← exactSourceField source "repository"
      revision := ← exactSourceField source "revision" }

/-- The dependencies in order, each one exact. -/
def readDependencies : Nat → List Json → Result (List ResolvedDependencyIdentity)
  | _, [] => .ok []
  | index, value :: rest => do
    let dependency ← Result.okOr
      (.invalidManifest ("producer manifest build dependency " ++ toString index ++
        " is invalid"))
      (ResolvedDependencyIdentity.fromJson value)
    Result.failIf (¬ dependency.isVerified)
      (.invalidManifest ("producer manifest build dependency " ++ toString index ++
        " has a blank name, version, repository, or revision"))
    return dependency :: (← readDependencies (index + 1) rest)

/-- The first name two neighbours share. -/
def repeatedName : List ResolvedDependencyIdentity → Option String
  | a :: b :: rest => if a.name = b.name then some a.name else repeatedName (b :: rest)
  | _ => none

def normalizeDependencyIdentities (manifest : Json) :
    Result (List ResolvedDependencyIdentity) :=
  match (manifest.pointer? ["build", "dependencies"]).filter fun v => !v.isNull with
  | none => .ok []
  | some values => do
    let values ← Result.okOr
      (.invalidManifest "producer manifest build dependencies must be an array") values.asArr?
    let dependencies := (← readDependencies 0 values).insertionSort (·.le ·)
    match repeatedName dependencies with
    | some name => .error (.invalidManifest
        ("producer manifest build dependencies repeat name '" ++ name ++ "'"))
    | none => return dependencies

/-- The `py<major><minor>` token of a Python version. -/
def pythonAbiToken (version : String) : Option String :=
  match Text.split (· == '.') (Text.trim version) with
  | major :: minor :: _ =>
    if !major.isEmpty && !minor.isEmpty && Text.all Char.isDigit major &&
        Text.all Char.isDigit minor then
      some ("py" ++ major ++ minor)
    else none
  | _ => none

def normalizeOpenusdCompatibility (manifest : Json) (kind : ArtifactKind)
    (producerPlatform : Option String) (target : String) :
    Result (Option ResolvedOpenUsdCompatibility) :=
  if kind ≠ .runtime then
    if ((manifest.get? "openusd_compatibility").filter fun v => !v.isNull).isSome then
      .error (.invalidManifest
        "only runtime producer manifests may carry 'openusd_compatibility'")
    else .ok none
  else do
    match ← agreedCopy manifest "openusd_compatibility" "compatibility" "identity" with
    | none => return none
    | some value =>
      let compatibility ← Result.okOr
        (.invalidManifest "producer manifest 'openusd_compatibility' is invalid")
        (ResolvedOpenUsdCompatibility.fromJson value)
      Result.failIf (compatibility.schema ≠ 1 ∧ compatibility.schema ≠ 2)
        (.invalidManifest
          ("producer manifest carries unsupported OpenUSD compatibility schema " ++
            toString compatibility.schema ++ " (expected 1 or 2)"))
      let failure := if compatibility.schema = 1 then compatibility.providersVerificationFailure
        else compatibility.verificationFailure
      Result.failIf failure.isSome
        (.invalidManifest ("producer manifest OpenUSD compatibility identity is not verifiable: "
          ++ failure.getD ""))
      Result.failIf (producerPlatform ≠ some compatibility.platform)
        (.invalidManifest ("producer manifest OpenUSD platform '" ++ compatibility.platform ++
          "' does not match provenance platform '" ++ producerPlatform.getD "<missing>" ++ "'"))
      let osArch := compatibility.os.asStr ++ "-" ++ compatibility.arch.asStr
      Result.failIf (¬ Text.startsWith (osArch ++ "-") target)
        (.invalidManifest ("producer manifest OpenUSD target " ++ osArch ++
          " does not match artifact target '" ++ target ++ "'"))
      let pythonVersion ← Result.okOr
        (.invalidManifest ("producer manifest OpenUSD Python version cannot produce a " ++
          "major/minor ABI tag"))
        (compatibility.python.version.bind pythonAbiToken)
      Result.failIf (pythonVersion ∉ Text.split (· == '-') target)
        (.invalidManifest ("producer manifest OpenUSD Python ABI '" ++ pythonVersion ++
          "' does not match artifact target '" ++ target ++ "'"))
      return some compatibility

def normalizeComponent (manifest : Json) (artifactName artifactVersion : String) :
    Result (Option ComponentContract) :=
  match manifest.get? "component" with
  | none => .ok none
  | some value => do
    let contract ← Result.okOr
      (.invalidManifest "producer manifest 'component' contract is invalid")
      (ComponentContract.fromJson value)
    contract.validate
    Result.failIf (contract.id ≠ artifactName)
      (.invalidManifest ("component id '" ++ contract.id ++
        "' does not match artifact name '" ++ artifactName ++ "'"))
    Result.failIf (contract.version ≠ artifactVersion)
      (.invalidManifest ("component version '" ++ contract.version ++
        "' does not match artifact version '" ++ artifactVersion ++ "'"))
    return some contract

/-- The validation word of a manifest's provenance, whichever of its two shapes it has. -/
def validationWord (provenance : Option Json) : String :=
  match provenance.bind (·.get? "validation") with
  | some (.obj fs) =>
    match ((Json.obj fs).get? "passed").bind Json.asBool? with
    | some true => "passed"
    | some false => "failed"
    | none => "unknown"
  | some (.str s) => s
  | _ => "unknown"

namespace ArtifactRecord

/-- The bare hex of the digest. -/
def digestHex (r : ArtifactRecord) : String :=
  (Text.stripPrefix "sha256:" r.digest).getD r.digest

/-- A short human reference. -/
def shortDigest (r : ArtifactRecord) : String :=
  "sha256:" ++ String.ofList (r.digestHex.toList.take 12)

/-- Move the importing tool of an old record out of its `producer` field. -/
def migrateLegacyProducer (r : ArtifactRecord) : ArtifactRecord :=
  if r.importedBy.isEmpty then
    { r with importedBy := r.producer.getD "", producer := none }
  else r

/-- Derive a record from a producer manifest. -/
def fromProducerManifest (manifest : Json) (source : ArtifactSource)
    (createdUnix : Nat) (importedBy : String) : Result ArtifactRecord := do
  let kind ← detectKind manifest
  validateComposition manifest kind
  validateOpenusdSelectorSchema manifest kind
  let (name, version, licenses) ← manifestIdentity manifest kind
  let digest ← requireStr manifest "archive_digest"
  Result.failIf (¬ isSha256Ref digest)
    (.invalidManifest ("producer manifest carries a malformed archive_digest '" ++ digest ++
      "' (expected sha256:<64 hex chars>)"))
  let provenance := manifest.get? "provenance"
  let runtime := provenance.bind (·.get? "runtime")
  let target ← requireStr manifest "target"
  let openusdCompatibility ← normalizeOpenusdCompatibility manifest kind
    (provenance.bind (·.getStr? "platform")) target
  let openusdVerification ← normalizeOpenusdVerification manifest kind
  let sourceIdentity ← normalizeSourceIdentity manifest
  let dependencyIdentities ← normalizeDependencyIdentities manifest
  let component ← normalizeComponent manifest name version
  let archive ← requireArchiveFilename manifest
  return {
    schema := RECORD_SCHEMA
    kind, name, version, target
    profile := provenance.bind (·.getStr? "profile")
    digest, archive
    archiveSize := ← requireU64 manifest "archive_size"
    totalSize := ← requireU64 manifest "total_size"
    fileCount := (((manifest.get? "files").bind Json.asArr?).map (·.length)).getD 0
    createdUnix
    producer := (manifest.getStr? "producer").filter fun value => !value.isEmpty
    importedBy, source
    trust := match source with
      | .imported => .localOnly
      | .published => .unsigned
    validation := validationWord provenance
    licenses
    sbom := none, sbomDigest := none, sbomSize := none
    provenance := none, provenanceDigest := none, provenanceSize := none
    runtimeId := runtime.bind (·.getStr? "id")
    runtimeDigest := runtime.bind (·.getStr? "digest")
    openusdCompatibility, openusdVerification, sourceIdentity, dependencyIdentities,
    component }

end ArtifactRecord

/-! ## What an accepted manifest satisfies -/

theorem requireArchiveFilename_ok {manifest : Json} {archive : String} :
    requireArchiveFilename manifest = .ok archive ↔
      manifest.getStr? "archive" = some archive ∧ isPlainArchiveFilename archive := by
  simp only [requireArchiveFilename, requireStr, Result.bind_ok, Result.okOr_ok,
    Result.failIf_ok]
  constructor
  · rintro ⟨a, ha, ⟨⟩, hp, ⟨⟩⟩
    exact ⟨ha, by simpa using hp⟩
  · rintro ⟨ha, hp⟩
    exact ⟨archive, ha, (), by simpa using hp, rfl⟩

/-- An accepted debug archive has a plain filename other than the primary one's and a
well-formed digest. -/
theorem manifestDebugArchive_ok {manifest : Json} {debug : DebugArchive}
    (h : manifestDebugArchive manifest = .ok (some debug)) :
    isPlainArchiveFilename debug.archive ∧ isSha256Ref debug.digest ∧
      manifest.getStr? "archive" ≠ some debug.archive := by
  unfold manifestDebugArchive at h
  split at h
  · cases h
  · simp only [Result.bind_ok, Result.failIf_ok, requireArchiveFilename_ok] at h
    obtain ⟨⟨⟩, -, archive, ⟨-, hplain⟩, digest, -, ⟨⟩, hdigest, size, -, files, -, ⟨⟩, hne,
      hd⟩ := h
    cases hd
    exact ⟨hplain, by simpa using hdigest, hne⟩

namespace ArtifactRecord

/-- A derived record has the archive name and the digest of its manifest, both well formed,
carries the caller's source, and no evidence yet. -/
theorem fromProducerManifest_ok {manifest : Json} {source : ArtifactSource}
    {createdUnix : Nat} {importedBy : String} {r : ArtifactRecord}
    (h : fromProducerManifest manifest source createdUnix importedBy = .ok r) :
    manifest.getStr? "archive" = some r.archive ∧ isPlainArchiveFilename r.archive ∧
      manifest.getStr? "archive_digest" = some r.digest ∧ isSha256Ref r.digest ∧
      r.source = source ∧ r.sbom = none ∧ r.provenance = none := by
  simp only [fromProducerManifest, Result.bind_ok, Result.failIf_ok, requireStr,
    Result.okOr_ok, requireArchiveFilename_ok] at h
  obtain ⟨kind, -, ⟨⟩, -, ⟨⟩, -, ⟨name, version, licenses⟩, -, digest, hdigest, ⟨⟩, href,
    target, -, compatibility, -, verification, -, sourceIdentity, -, dependencies, -,
    component, -, archive, ⟨harchive, hplain⟩, archiveSize, -, totalSize, -, hr⟩ := h
  cases hr
  exact ⟨harchive, hplain, hdigest, by simpa using href, rfl, rfl, rfl⟩

/-- A derived record refers to no evidence, and names the tool that imported it. -/
theorem fromProducerManifest_fresh {manifest : Json} {source : ArtifactSource}
    {createdUnix : Nat} {importedBy : String} {r : ArtifactRecord}
    (h : fromProducerManifest manifest source createdUnix importedBy = .ok r) :
    r.importedBy = importedBy ∧ r.sbom = none ∧ r.sbomDigest = none ∧ r.sbomSize = none ∧
      r.provenance = none ∧ r.provenanceDigest = none ∧ r.provenanceSize = none := by
  simp only [fromProducerManifest, Result.bind_ok] at h
  obtain ⟨kind, -, ⟨⟩, -, ⟨⟩, -, ⟨name, version, licenses⟩, -, digest, -, ⟨⟩, -, target, -,
    compatibility, -, verification, -, sourceIdentity, -, dependencies, -, component, -,
    archive, -, archiveSize, -, totalSize, -, hr⟩ := h
  cases hr
  exact ⟨rfl, rfl, rfl, rfl, rfl, rfl, rfl⟩

/-- A derived record carries no assurance above the one its source stands for. -/
theorem fromProducerManifest_trust {manifest : Json} {createdUnix : Nat} {importedBy : String}
    {r : ArtifactRecord}
    (h : fromProducerManifest manifest .imported createdUnix importedBy = .ok r) :
    r.trust = .localOnly := by
  simp only [fromProducerManifest, Result.bind_ok] at h
  obtain ⟨kind, -, ⟨⟩, -, ⟨⟩, -, ⟨name, version, licenses⟩, -, digest, -, ⟨⟩, -, target, -,
    compatibility, -, verification, -, sourceIdentity, -, dependencies, -, component, -,
    archive, -, archiveSize, -, totalSize, -, hr⟩ := h
  cases hr
  rfl

end ArtifactRecord

end OpenStrata
