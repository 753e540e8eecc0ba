import OpenStrata.Artifact.Archive
import OpenStrata.Artifact.Evidence
import OpenStrata.Platform.Selector

/-!
# The pull-side verification chain

What is checked on a fetched dist directory before anything is imported: the manifest, the
OpenUSD selector and requirement, the archive and its files, the debug archive, kind and
target, the evidence sidecars, and the trust they add up to.

## Main definitions

* `PullPolicy`: what a pull must prove beyond integrity
* `verifyDist`: the chain
* `ChainOutcome`: its report

## Main results

* `verifyDist_ok`: a passed chain passed each of its steps
* `readFetchedManifest_ok`: the record of a chain is derived from the manifest it read
-/

namespace OpenStrata

/-- What a pull must prove beyond artifact integrity. -/
structure PullPolicy where
  expectedArtifactDigest : Option String
  requireKind : Option ArtifactKind
  requireTarget : Option String
  requireOpenusd : Option ResolvedOpenUsdCompatibility
  requireOpenusdVersion : Option String
  requireSbom : Bool
  requireProvenance : Bool
  minimumTrust : Option TrustLevel
  artifactPolicy : Option ArtifactPolicy
  deriving DecidableEq, Repr

/-- The ordered steps of a passed chain and the trust it derived. -/
structure ChainOutcome where
  steps : List (String × String)
  effectiveTrust : TrustLevel
  requiredTrust : TrustLevel
  matchedPublisher : Option String
  deriving DecidableEq, Repr

def validationError (code message : String) : Error := .ofCode code .validation message

/-! ## The OpenUSD requirement -/

/-- An observed version equals the exact one asked for, or else meets the constraint. -/
def versionMatches (selected exact : Option String) (constraint : String) : Bool :=
  match selected, exact with
  | none, _ => false
  | some selected, some exact => selected == exact
  | some selected, none => versionSatisfiesConstraint selected constraint

def providerMatches (selected required : ResolvedOpenUsdProvider) : Bool :=
  selected.family == required.family && selected.provider == required.provider &&
    versionMatches selected.version required.version required.versionConstraint

def macosMatches : Option ResolvedOpenUsdMacos → Option ResolvedOpenUsdMacos → Bool
  | none, none => true
  | some selected, some required =>
    providerMatches selected.sdk required.sdk &&
      selected.deploymentTarget == required.deploymentTarget
  | _, _ => false

def ArtifactRecord.openusdSelector (codec : Codec) (r : ArtifactRecord) : Option String :=
  r.openusdCompatibility.bind fun compatibility =>
    compatibility.selector codec r.target r.version r.sourceIdentity r.dependencyIdentities

/-- The selector from before source and dependencies were part of it. -/
def ArtifactRecord.legacyOpenusdSelector (codec : Codec) (r : ArtifactRecord) : Option String :=
  r.openusdCompatibility.bind fun compatibility =>
    compatibility.selector codec r.target r.version none []

/-- The error for one dimension of a requirement, with both sides as data. -/
def openusdMismatch (codec : Codec) (code dimension : String) (record : ArtifactRecord)
    (required : ResolvedOpenUsdCompatibility) (requiredVersion : Option String)
    (detail hint : String) : Error :=
  let optional (value : Option String) := (value.map Json.str).getD .null
  ((validationError code ("selected artifact " ++ record.shortDigest ++ " (" ++ record.name ++
      " " ++ record.version ++ ") " ++ detail)).withHint hint).withData
    (.obj [("dimension", .str dimension),
      ("requirement", .obj [
        ("arch", .str required.arch.asStr),
        ("capabilities", .arr (required.capabilities.map .str)),
        ("openusd_version", optional requiredVersion),
        ("os", .str required.os.asStr),
        ("platform", .str required.platform),
        ("python", required.python.toJson),
        ("tbb", required.tbb.toJson),
        ("toolchain", required.toolchain.toJson),
        ("variant", .str required.variant.asStr)]),
      ("selected_artifact", .obj [
        ("digest", .str record.digest),
        ("name", .str record.name),
        ("openusd", (record.openusdCompatibility.map (·.toJson)).getD .null),
        ("selector", optional (record.openusdSelector codec)),
        ("version", .str record.version)])])

def describeProvider (p : ResolvedOpenUsdProvider) (unresolved : String) : String :=
  p.family ++ "@" ++ p.provider ++ " " ++ p.version.getD unresolved

def describeMacos : Option ResolvedOpenUsdMacos → String
  | none => "none"
  | some macos => describeProvider macos.sdk macos.sdk.versionConstraint ++
      " with deployment target " ++ macos.deploymentTarget

def verifyProviderDimension (codec : Codec) (dimension code : String) (record : ArtifactRecord)
    (requiredCompatibility : ResolvedOpenUsdCompatibility) (requiredVersion : Option String)
    (selected required : ResolvedOpenUsdProvider) : Result Unit :=
  Result.failIf (¬ providerMatches selected required)
    (openusdMismatch codec code dimension record requiredCompatibility requiredVersion
      ("uses " ++ dimension ++ " " ++ describeProvider selected "unresolved" ++
        ", but the consumer requires " ++ describeProvider required required.versionConstraint)
      ("resolve an artifact whose " ++ dimension ++
        " provider and exact version satisfy the required cell"))

/-- The compiler and the native runtime of a required toolchain. -/
def toolchainMatches (selected required : ResolvedOpenUsdToolchain) : Bool :=
  selected.family == required.family && selected.provider == required.provider &&
    selected.cxxStandard == required.cxxStandard &&
    versionMatches selected.version required.version required.versionConstraint &&
    providerMatches selected.runtime required.runtime

def describeToolchain (t : ResolvedOpenUsdToolchain)
    (compilerDefault runtimeDefault : String) : String :=
  "compiler " ++ t.family ++ "@" ++ t.provider ++ " " ++ t.version.getD compilerDefault ++
    " (C++ " ++ t.cxxStandard ++ ") and native runtime " ++
    describeProvider t.runtime runtimeDefault

def verifyOpenusdRequirement (codec : Codec) (record : ArtifactRecord)
    (required : ResolvedOpenUsdCompatibility) (requiredVersion : Option String) :
    Result Unit := do
  let mismatch (code dimension detail hint : String) : Error :=
    openusdMismatch codec code dimension record required requiredVersion detail hint
  let selected ← Result.okOr
    (mismatch "ARTIFACT_OPENUSD_IDENTITY_MISSING" "identity"
      "has no verified normalized OpenUSD compatibility identity"
      "select a normalized OpenUSD runtime artifact published for the required cell")
    record.openusdCompatibility
  Result.failIf (requiredVersion.any fun version => record.version != version)
    (mismatch "ARTIFACT_OPENUSD_VERSION_MISMATCH" "openusd-version"
      ("provides OpenUSD " ++ record.version ++ ", but the consumer requires " ++
        requiredVersion.getD "")
      "resolve an artifact published for the required OpenUSD release")
  Result.failIf (selected.schema ≠ required.schema ∨ selected.platform ≠ required.platform ∨
      selected.os ≠ required.os ∨ selected.arch ≠ required.arch)
    (mismatch "ARTIFACT_OPENUSD_PLATFORM_MISMATCH" "platform"
      ("declares " ++ selected.platform ++ " " ++ selected.os.asStr ++ "/" ++
        selected.arch.asStr ++ " (schema " ++ toString selected.schema ++ "), not required " ++
        required.platform ++ " " ++ required.os.asStr ++ "/" ++ required.arch.asStr ++
        " (schema " ++ toString required.schema ++ ")")
      "resolve an artifact tag for the required platform and architecture")
  Result.failIf (¬ toolchainMatches selected.toolchain required.toolchain)
    (mismatch "ARTIFACT_OPENUSD_TOOLCHAIN_MISMATCH" "toolchain"
      ("uses " ++ describeToolchain selected.toolchain "unresolved" "unresolved" ++
        ", but the consumer requires " ++ describeToolchain required.toolchain
          required.toolchain.versionConstraint required.toolchain.runtime.versionConstraint)
      "resolve an artifact built with the required compiler and native runtime providers")
  verifyProviderDimension codec "python" "ARTIFACT_OPENUSD_PYTHON_MISMATCH" record required
    requiredVersion selected.python required.python
  verifyProviderDimension codec "tbb" "ARTIFACT_OPENUSD_TBB_MISMATCH" record required
    requiredVersion selected.tbb required.tbb
  Result.failIf (¬ macosMatches selected.macos required.macos)
    (mismatch "ARTIFACT_OPENUSD_MACOS_MISMATCH" "macos"
      ("uses macOS " ++ describeMacos selected.macos ++ ", but the consumer requires " ++
        describeMacos required.macos)
      "resolve an artifact built with the required macOS SDK and deployment target")
  let missing := required.capabilities.filter fun capability =>
    !selected.capabilities.contains capability
  Result.failIf (selected.variant ≠ required.variant ∨ missing ≠ [])
    (mismatch "ARTIFACT_OPENUSD_GRAPHICS_MISMATCH" "graphics"
      ("provides variant '" ++ selected.variant.asStr ++ "' with capabilities [" ++
        Text.join ", " selected.capabilities ++ "], but variant '" ++ required.variant.asStr ++
        "' with capabilities [" ++ Text.join ", " required.capabilities ++
        "] is required (missing: " ++
        (if missing = [] then "none" else Text.join ", " missing) ++ ")")
      ("resolve the compatibility tag for the required OpenUSD variant and graphics " ++
        "capabilities"))

/-! ## The chain -/

/-- A dist directory, or a path to the manifest in one. -/
inductive DistPath
  | directory (d : Directory)
  | file (path fileName : String) (parent : Option Directory)

/-- `locate_manifest`: the directory a producer manifest stands in. -/
def locateManifest : DistPath → Result Directory
  | .directory d =>
    if d.isFile MANIFEST_FILE then .ok d
    else .error (.precondition ("'" ++ d.path ++ "' has no " ++ MANIFEST_FILE ++
      " — point at a package output directory (e.g. dist/<library>/<version>/<target>/ for " ++
      "a library, or dist/plugins/<name>/<version>/<target>/ for a plugin)"))
  | .file path fileName parent =>
    if fileName = MANIFEST_FILE then
      Result.okOr (.usage ("'" ++ path ++ "' has no parent directory")) parent
    else .error (.usage ("'" ++ path ++ "' is neither a package output directory nor a " ++
      MANIFEST_FILE))

def manifestInvalid (message : String) (error : Error) : Error :=
  validationError "ARTIFACT_MANIFEST_INVALID" (message ++ ": " ++ error.message)

/-- A result with its error put in the chain's words. -/
def orManifestInvalid {α : Type} (message : String) (x : Result α) : Result α :=
  x.mapError (manifestInvalid message)

/-- The producer manifest and what it claims. -/
structure FetchedManifest where
  manifest : Json
  record : ArtifactRecord
  files : List ManifestFile
  debug : Option DebugArchive

/-- The manifest must parse, derive a record and list its files. -/
def readFetchedManifest (codec : Codec) (dist : Directory) : Result FetchedManifest := do
  let bytes ← dist.read MANIFEST_FILE
  let manifest ← Result.okOr
    (validationError "ARTIFACT_MANIFEST_INVALID" "fetched manifest.json is not valid JSON")
    (codec.parse bytes)
  let record ← orManifestInvalid "fetched manifest.json is not a producer manifest"
    (ArtifactRecord.fromProducerManifest manifest .imported 0 "verification")
  let files ← orManifestInvalid "fetched manifest.json has no usable file list"
    (manifestFiles manifest)
  let debug ← orManifestInvalid "fetched manifest.json has an invalid debug archive"
    (manifestDebugArchive manifest)
  return { manifest, record, files, debug }

/-- The selector the remote declares is the one its manifest resolves to. -/
def verifySelector (codec : Codec) (fetched : FetchedManifest) :
    Option String → Result (String × String)
  | none => .ok ("openusd_selector", "skipped")
  | some declared => do
    let computed ← Result.okOr
      ((validationError "ARTIFACT_OPENUSD_SELECTOR_MISMATCH"
        ("the resolved OCI manifest declares OpenUSD selector '" ++ declared ++
          "', but the producer manifest has no verified normalized OpenUSD identity")).withHint
        ("re-publish the runtime so its OCI annotation is derived from the same producer " ++
          "manifest carried by the artifact"))
      (fetched.record.openusdSelector codec)
    -- a manifest from before the selector schema may still carry the legacy selector
    let legacyMatches := (fetched.manifest.get? OPENUSD_SELECTOR_SCHEMA_FIELD).isNone &&
      fetched.record.legacyOpenusdSelector codec == some declared
    Result.failIf (declared ≠ computed ∧ ¬ legacyMatches)
      ((validationError "ARTIFACT_OPENUSD_SELECTOR_MISMATCH"
        ("the resolved OCI manifest declares OpenUSD selector '" ++ declared ++
          "', but the producer manifest resolves to '" ++ computed ++ "'")).withHint
        ("do not import this inconsistent bundle; resolve a correctly published " ++
          "compatibility tag or re-publish upstream"))
    return ("openusd_selector", "passed")

/-- A step that is only taken when it is asked for. -/
def optionalStep {α : Type} (name : String) (requirement : Option α)
    (check : α → Result Unit) : Result (String × String) :=
  match requirement with
  | none => .ok (name, "skipped")
  | some value => do
    check value
    return (name, "passed")

def archiveMismatch (what archive digest : String) (size : Nat) (actual : EvidenceDigest) :
    Error :=
  validationError "ARTIFACT_ARCHIVE_DIGEST_MISMATCH"
    ("fetched " ++ what ++ " '" ++ archive ++ "' hashes to " ++ actual.digest ++ " (" ++
      toString actual.size ++ " bytes) but its manifest records " ++ digest ++ " (" ++
      toString size ++ " bytes)")

/-- The primary archive is the one the manifest describes, and its entries are safe and
listed. -/
def verifyPrimaryArchive (codec : Codec) (untar : TarReader) (dist : Directory)
    (policy : PullPolicy) (fetched : FetchedManifest) : Result (String × String) := do
  let record := fetched.record
  let actual ← EvidenceDigest.fromFile codec dist record.archive
  Result.failIf (actual.digest ≠ record.digest ∨ actual.size ≠ record.archiveSize)
    ((archiveMismatch "archive" record.archive record.digest record.archiveSize actual).withHint
      "the remote bundle is inconsistent — do not trust it; re-publish upstream")
  let pinned ← optionalStep "pinned_artifact_digest" policy.expectedArtifactDigest
    fun expected => Result.failIf (expected ≠ record.digest)
      ((validationError "ARTIFACT_ARCHIVE_DIGEST_MISMATCH"
        ("pulled artifact digest " ++ record.digest ++ " does not match the pinned digest " ++
          expected)).withHint
        ("the remote reference points at a different artifact than the pin — update the pin " ++
          "deliberately or fix the reference"))
  let walk ← walkArchive codec untar dist record.archive
  Result.failIf (walk.unsafeEntries ≠ [])
    (validationError "ARTIFACT_ARCHIVE_UNSAFE"
      ("fetched archive '" ++ record.archive ++ "' contains " ++
        toString walk.unsafeEntries.length ++ " entr" ++
        (if walk.unsafeEntries.length = 1 then "y" else "ies") ++ " unsafe to extract: " ++
        Text.join "; " walk.unsafeEntries))
  let cmp := compareArchiveFiles walk.files fetched.files
  let part (name : String) (paths : List String) :=
    if paths = [] then [] else [name ++ ": " ++ Text.join ", " paths]
  Result.failIf (¬ cmp.passed)
    (validationError "ARTIFACT_FILE_DIGEST_MISMATCH"
      ("fetched archive contents do not match the manifest file list (" ++
        Text.join "; " (part "mismatched" cmp.mismatched ++ part "missing" cmp.missing ++
          part "extra" cmp.extra) ++ ")"))
  return pinned

/-- The debug archive is a promise of the manifest too. -/
def verifyDebugArchive (codec : Codec) (untar : TarReader) (dist : Directory) :
    Option DebugArchive → Result (List (String × String))
  | none => .ok []
  | some debug => do
    let actual ← EvidenceDigest.fromFile codec dist debug.archive
    Result.failIf (actual.digest ≠ debug.digest ∨ actual.size ≠ debug.archiveSize)
      (archiveMismatch "debug archive" debug.archive debug.digest debug.archiveSize actual)
    let walk ← walkArchive codec untar dist debug.archive
    Result.failIf (walk.unsafeEntries ≠ [])
      (validationError "ARTIFACT_ARCHIVE_UNSAFE"
        ("fetched debug archive '" ++ debug.archive ++ "' contains entries unsafe to extract: "
          ++ Text.join "; " walk.unsafeEntries))
    Result.failIf (¬ (compareArchiveFiles walk.files debug.files).passed)
      (validationError "ARTIFACT_FILE_DIGEST_MISMATCH"
        ("fetched debug archive '" ++ debug.archive ++
          "' does not match its manifest file list"))
    return [("debug_archive", "passed")]

/-- The sidecar of this name, if the directory carries it. -/
def evidenceInDist (codec : Codec) (dist : Directory) (name : String) :
    Result (Option EvidenceDigest) :=
  evidenceIn codec dist name ("fetched evidence '" ++ name ++ "' is not a regular file")

/-- The SBOM, verified whenever it is present. -/
def verifySbomStep (codec : Codec) (dist : Directory) (policy : PullPolicy)
    (record : ArtifactRecord) : Result (Option EvidenceDigest × String × String) := do
  match ← evidenceInDist codec dist SBOM_FILE with
  | some evidence =>
    verifyEvidenceDigest codec dist evidence
    verifySbom codec dist record.digest record.dependencyIdentities
    return (some evidence, "sbom", "passed")
  | none =>
    Result.failIf policy.requireSbom
      ((validationError "ARTIFACT_SBOM_REQUIRED" "pulled artifact has no SPDX SBOM").withHint
        "select or publish an artifact carrying subject-bound SBOM evidence")
    return (none, "sbom", "skipped")

/-- The stricter of the two trust floors. -/
def requiredTrust (policy : PullPolicy) : TrustLevel :=
  max (policy.minimumTrust.getD .localOnly)
    ((policy.artifactPolicy.map (·.minimumTrust)).getD .localOnly)

/-- The policy whose publishers are matched: only when provenance or more than attestation
is asked for. -/
def publisherPolicy (policy : PullPolicy) : Option ArtifactPolicy :=
  policy.artifactPolicy.filter fun _ =>
    policy.requireProvenance || decide (TrustLevel.attested < requiredTrust policy)

/-- The provenance, verified whenever it is present, and the publisher it matches. -/
def verifyProvenanceStep (codec : Codec) (dist : Directory) (policy : PullPolicy)
    (fetched : FetchedManifest) :
    Result (Option EvidenceDigest × Option String × String × String) := do
  match ← evidenceInDist codec dist PROVENANCE_FILE with
  | some evidence =>
    verifyEvidenceDigest codec dist evidence
    let publisher ← verifyProvenance codec dist fetched.manifest fetched.record.digest
      (publisherPolicy policy)
    return (some evidence, publisher, "provenance", "passed")
  | none =>
    Result.failIf policy.requireProvenance
      ((validationError "ARTIFACT_PROVENANCE_REQUIRED"
        "pulled artifact has no SLSA/in-toto provenance").withHint
        "select or publish an artifact carrying subject-bound provenance evidence")
    return (none, none, "provenance", "skipped")

/-- The assurance the verified evidence adds up to. -/
def effectiveTrust (policy : PullPolicy) (record : ArtifactRecord)
    (sbom provenance : Option EvidenceDigest) (matchedPublisher : Option String) : TrustLevel :=
  match matchedPublisher with
  | some publisher =>
    if sbom.isSome then
      (((publisherPolicy policy).bind (·.publisher publisher)).map fun p =>
        max TrustLevel.attested p.trust).getD .attested
    else .attested
  | none => if provenance.isSome then .attested else record.trust

/-- The trust floors are met. -/
def verifyTrustStep (policy : PullPolicy) (effective : TrustLevel)
    (sbom provenance : Option EvidenceDigest) (matchedPublisher : Option String) :
    Result (String × String) := do
  let required := requiredTrust policy
  Result.failIf (effective < required)
    (((validationError "ARTIFACT_POLICY_TRUST_INSUFFICIENT"
      ("pulled artifact trust '" ++ effective.asStr ++ "' is below required minimum '" ++
        required.asStr ++ "'")).withHint
      ("select an artifact with the required SBOM/provenance and allowed publisher evidence")
      ).withData (.obj [("effective_trust", .str effective.asStr),
        ("matched_publisher", (matchedPublisher.map Json.str).getD .null),
        ("provenance_present", .bool provenance.isSome),
        ("required_trust", .str required.asStr),
        ("sbom_present", .bool sbom.isSome)]))
  return ("trust_policy",
    if required > TrustLevel.localOnly ∨ policy.artifactPolicy.isSome ∨
      policy.minimumTrust.isSome then "passed" else "skipped")

/-- Verify a fetched dist directory against the pull policy. -/
def verifyDist (codec : Codec) (untar : TarReader) (path : DistPath) (policy : PullPolicy)
    (remoteOpenusdSelector : Option String) : Result ChainOutcome := do
  let dist ← locateManifest path
  let fetched ← readFetchedManifest codec dist
  let record := fetched.record
  let selectorStep ← verifySelector codec fetched remoteOpenusdSelector
  let requirementStep ← optionalStep "openusd_requirement" policy.requireOpenusd
    fun required =>
      verifyOpenusdRequirement codec record required policy.requireOpenusdVersion
  let pinnedStep ← verifyPrimaryArchive codec untar dist policy fetched
  let debugSteps ← verifyDebugArchive codec untar dist fetched.debug
  let kindStep ← optionalStep "kind_match" policy.requireKind fun kind =>
    Result.failIf (kind ≠ record.kind)
      (validationError "ARTIFACT_SUPPORT_LINE_MISMATCH"
        ("pulled artifact is a " ++ record.kind.asStr ++ " but the support line requires a " ++
          kind.asStr))
  let targetStep ← optionalStep "target_match" policy.requireTarget fun target =>
    Result.failIf (target ≠ record.target)
      (validationError "ARTIFACT_PLATFORM_MISMATCH"
        ("pulled artifact targets '" ++ record.target ++ "' but '" ++ target ++
          "' is required"))
  let (sbom, sbomStep) ← verifySbomStep codec dist policy record
  let (provenance, matchedPublisher, provenanceStep) ←
    verifyProvenanceStep codec dist policy fetched
  let effective := effectiveTrust policy record sbom provenance matchedPublisher
  let trustStep ← verifyTrustStep policy effective sbom provenance matchedPublisher
  return {
    steps := [("manifest_schema", "passed"), selectorStep, requirementStep,
      ("archive_digest", "passed"), pinnedStep, ("archive_safety", "passed"),
      ("file_digests", "passed")] ++ debugSteps ++
      [kindStep, targetStep, sbomStep, provenanceStep, trustStep]
    effectiveTrust := effective
    requiredTrust := requiredTrust policy
    matchedPublisher }

/-! ## What a passed chain has checked -/

variable {codec : Codec} {untar : TarReader} {dist : Directory} {path : DistPath}
  {policy : PullPolicy} {selector : Option String} {outcome : ChainOutcome}
  {fetched : FetchedManifest}

theorem optionalStep_ok {α : Type} {name : String} {requirement : Option α}
    {check : α → Result Unit} {step : String × String}
    (h : optionalStep name requirement check = .ok step) {value : α}
    (hvalue : requirement = some value) : check value = .ok () := by
  subst hvalue
  simp only [optionalStep, Result.bind_ok] at h
  obtain ⟨⟨⟩, hcheck, -⟩ := h
  exact hcheck

/-- What a pull policy asks of the record itself. -/
structure Requirements (codec : Codec) (policy : PullPolicy) (record : ArtifactRecord) :
    Prop where
  digest : ∀ expected, policy.expectedArtifactDigest = some expected → record.digest = expected
  kind : ∀ kind, policy.requireKind = some kind → record.kind = kind
  target : ∀ target, policy.requireTarget = some target → record.target = target
  openusd : ∀ required, policy.requireOpenusd = some required →
    verifyOpenusdRequirement codec record required policy.requireOpenusdVersion = .ok ()

theorem verifyPrimaryArchive_ok {step : String × String}
    (h : verifyPrimaryArchive codec untar dist policy fetched = .ok step) :
    (∀ expected, policy.expectedArtifactDigest = some expected →
      fetched.record.digest = expected) ∧
    ∃ content, dist.read fetched.record.archive = .ok content ∧
      sha256Hex codec content = fetched.record.digest := by
  simp only [verifyPrimaryArchive, Result.bind_ok, Result.failIf_ok,
    EvidenceDigest.fromFile] at h
  obtain ⟨actual, ⟨content, hcontent, hactual⟩, ⟨⟩, hsame, pinned, hpinned, -⟩ := h
  cases hactual
  refine ⟨fun expected hexpected => ?_, content, hcontent, ?_⟩
  · have hcheck := optionalStep_ok hpinned hexpected
    rw [Result.failIf_ok, not_not] at hcheck
    exact hcheck.symm
  · push Not at hsame
    exact hsame.1

/-- A passed chain passed each of its steps. -/
theorem verifyDist_ok (h : verifyDist codec untar path policy selector = .ok outcome) :
    ∃ dist fetched sbom sbomStep provenance provenanceStep trustStep,
      locateManifest path = .ok dist ∧ readFetchedManifest codec dist = .ok fetched ∧
      Requirements codec policy fetched.record ∧
      verifySbomStep codec dist policy fetched.record = .ok (sbom, sbomStep) ∧
      verifyProvenanceStep codec dist policy fetched =
        .ok (provenance, outcome.matchedPublisher, provenanceStep) ∧
      outcome.effectiveTrust =
        effectiveTrust policy fetched.record sbom provenance outcome.matchedPublisher ∧
      outcome.requiredTrust = requiredTrust policy ∧
      verifyTrustStep policy outcome.effectiveTrust sbom provenance outcome.matchedPublisher =
        .ok trustStep := by
  simp only [verifyDist, Result.bind_ok] at h
  obtain ⟨dist, hdist, fetched, hfetched, selectorStep, -, openusdStep, hopenusd, pinnedStep,
    harchive, debugSteps, -, kindStep, hkind, targetStep, htarget, ⟨sbom, sbomStep⟩, hsbom,
    ⟨provenance, publisher, provenanceStep⟩, hprovenance, trustStep, htrust, houtcome⟩ := h
  cases houtcome
  refine ⟨dist, fetched, sbom, sbomStep, provenance, provenanceStep, trustStep, hdist,
    hfetched, ?_, hsbom, hprovenance, rfl, rfl, htrust⟩
  exact {
    digest := (verifyPrimaryArchive_ok harchive).1
    kind := fun kind hvalue => by
      have hcheck := optionalStep_ok hkind hvalue
      rw [Result.failIf_ok, not_not] at hcheck
      exact hcheck.symm
    target := fun target hvalue => by
      have hcheck := optionalStep_ok htarget hvalue
      rw [Result.failIf_ok, not_not] at hcheck
      exact hcheck.symm
    openusd := fun required hvalue => optionalStep_ok hopenusd hvalue }

/-- The manifest a chain reads derives the record it checks. -/
theorem readFetchedManifest_ok (h : readFetchedManifest codec dist = .ok fetched) :
    ∃ bytes, dist.read MANIFEST_FILE = .ok bytes ∧ codec.parse bytes = some fetched.manifest ∧
      ArtifactRecord.fromProducerManifest fetched.manifest .imported 0 "verification" =
        .ok fetched.record := by
  simp only [readFetchedManifest, Result.bind_ok, Result.okOr_ok] at h
  obtain ⟨bytes, hbytes, manifest, hmanifest, record, hrecord, files, -, debug, -, hfetched⟩ := h
  cases hfetched
  refine ⟨bytes, hbytes, hmanifest, ?_⟩
  unfold orManifestInvalid at hrecord
  cases hr : ArtifactRecord.fromProducerManifest manifest .imported 0 "verification" with
  | error e => simp [hr, Except.mapError] at hrecord
  | ok r =>
    rw [hr] at hrecord
    exact hrecord

end OpenStrata
