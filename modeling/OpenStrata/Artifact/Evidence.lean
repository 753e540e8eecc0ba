import OpenStrata.Artifact.Record
import OpenStrata.Core.Directory
import OpenStrata.Core.Utf8

/-!
# Evidence sidecars

The SPDX document and the provenance statements carried beside an archive, and their checks
against the artifact they describe.

## Main definitions

* `EvidenceDigest`: name, digest and size of a sidecar
* `recordEvidence`: the sidecar a record refers to
* `verifySbom`, `verifyProvenance`: the checks of the two sidecars
* `SbomVerified`, `ProvenanceVerified`: what the checks establish

## Main results

* `checkSbom_ok`: an accepted document is an SPDX document about the artifact
* `checkProvenance_ok`: an accepted provenance has a statement about the artifact and its
  source, and its builder is the publisher reported
-/

namespace OpenStrata

def SBOM_FILE : String := "sbom.spdx.json"

def PROVENANCE_FILE : String := "provenance.intoto.jsonl"

/-- Name, digest and size of an evidence sidecar. -/
structure EvidenceDigest where
  path : String
  digest : String
  size : Nat
  deriving DecidableEq, Repr

namespace EvidenceDigest

def ofBytes (codec : Codec) (name : String) (bytes : Bytes) : EvidenceDigest :=
  { path := name, digest := sha256Hex codec bytes, size := bytes.length }

def fromFile (codec : Codec) (d : Directory) (name : String) : Result EvidenceDigest :=
  return ofBytes codec name (← d.read name)

end EvidenceDigest

/-- The sidecar a record's path, digest and size refer to: all three or none, under the fixed
name. -/
def recordEvidence (path digest : Option String) (size : Option Nat)
    (label expectedPath : String) : Result (Option EvidenceDigest) :=
  match path, digest, size with
  | none, none, none => .ok none
  | some path, some digest, some size =>
    if path = expectedPath then .ok (some { path, digest, size })
    else .error (.ofCode "ARTIFACT_EVIDENCE_INVALID" .validation
      ("artifact record " ++ label ++ " path must be '" ++ expectedPath ++ "', got '" ++ path ++
        "'"))
  | _, _, _ => .error (.ofCode "ARTIFACT_EVIDENCE_INVALID" .validation
      ("artifact record has incomplete " ++ label ++ " path/digest/size metadata"))

/-- Whether a content is the one a sidecar's digest describes. -/
def checkEvidence (codec : Codec) (evidence : EvidenceDigest) (content : Bytes) : Result Unit :=
  let actual := EvidenceDigest.ofBytes codec evidence.path content
  Result.failIf (actual.digest ≠ evidence.digest ∨ actual.size ≠ evidence.size)
    (.ofCode "ARTIFACT_EVIDENCE_DIGEST_MISMATCH" .validation
      ("evidence '" ++ evidence.path ++ "' hashes to " ++ actual.digest ++ " (" ++
        toString actual.size ++ " bytes), expected " ++ evidence.digest ++ " (" ++
        toString evidence.size ++ " bytes)"))

/-- The sidecar of this name, if a directory carries it; anything but a regular file under the
name is refused. -/
def evidenceIn (codec : Codec) (d : Directory) (name notAFile : String) :
    Result (Option EvidenceDigest) := do
  if d.exists? name then
    Result.failIf (¬ d.isFile name) (.ofCode "ARTIFACT_EVIDENCE_INVALID" .validation notAFile)
    return some (← EvidenceDigest.fromFile codec d name)
  else return none

def verifyEvidenceDigest (codec : Codec) (root : Directory) (evidence : EvidenceDigest) :
    Result Unit := do
  checkEvidence codec evidence (← root.read evidence.path)

/-- A digest without its algorithm. -/
def bareDigest (digest : String) : String := (Text.stripPrefix "sha256:" digest).getD digest

/-- The items of an array field; of anything else, none. -/
def itemsOf (value : Json) (key : String) : List Json :=
  ((value.get? key).bind Json.asArr?).getD []

/-! ## The SPDX document -/

/-- A package that lists this SHA-256 among its checksums. -/
def carriesSha256 (package : Json) (expected : String) : Bool :=
  (itemsOf package "checksums").any fun checksum =>
    checksum.getStr? "algorithm" == some "SHA256" &&
      checksum.getStr? "checksumValue" == some expected

/-- The packages of a document that stand for dependencies. -/
def dependencyPackages (document : Json) : List Json :=
  (itemsOf document "packages").filter fun package =>
    (package.getStr? "SPDXID").any (Text.startsWith "SPDXRef-Dependency-")

/-- A package that describes exactly this dependency. -/
def describesDependency (dependency : ResolvedDependencyIdentity) (package : Json) : Bool :=
  package.getStr? "name" == some dependency.name &&
    package.getStr? "versionInfo" == some dependency.version &&
    package.getStr? "downloadLocation" == some dependency.source.repository &&
    package.getStr? "sourceInfo" == some ("revision " ++ dependency.source.revision) &&
    dependency.archiveDigest.all fun digest => carriesSha256 package (bareDigest digest)

/-- The dependency packages of a document are the artifact's dependencies. -/
def dependenciesMatch (document : Json) (dependencies : List ResolvedDependencyIdentity) : Bool :=
  let declared := dependencyPackages document
  declared.length == dependencies.length &&
    dependencies.all fun dependency => declared.any (describesDependency dependency)

def checkSbom (codec : Codec) (artifactDigest : String)
    (dependencies : List ResolvedDependencyIdentity) (content : Bytes) : Result Unit := do
  let document ← Result.okOr
    (.ofCode "ARTIFACT_SBOM_INVALID" .validation (SBOM_FILE ++ " is not valid JSON"))
    (codec.parse content)
  Result.failIf (document.getStr? "spdxVersion" ≠ some "SPDX-2.3")
    (.ofCode "ARTIFACT_SBOM_INVALID" .validation
      (SBOM_FILE ++ " must be an SPDX-2.3 JSON document"))
  Result.failIf (¬ (itemsOf document "packages").any (carriesSha256 · (bareDigest artifactDigest)))
    (.ofCode "ARTIFACT_SBOM_SUBJECT_MISMATCH" .validation
      (SBOM_FILE ++ " does not identify artifact digest " ++ artifactDigest))
  Result.failIf (dependencies ≠ [] ∧ ¬ dependenciesMatch document dependencies)
    (.ofCode "ARTIFACT_SBOM_DEPENDENCY_MISMATCH" .validation
      (SBOM_FILE ++ " dependency packages do not match the artifact's " ++
        toString dependencies.length ++ " exact dependency identit" ++
        if dependencies.length = 1 then "y" else "ies"))

def verifySbom (codec : Codec) (dist : Directory) (artifactDigest : String)
    (dependencies : List ResolvedDependencyIdentity) : Result Unit := do
  checkSbom codec artifactDigest dependencies (← dist.read SBOM_FILE)

/-! ## The provenance statements -/

/-- The input artifacts a composed runtime's provenance lists. -/
def compositionMaterials (manifest : Json) : Json :=
  .arr ((((manifest.pointer? ["build", "dependencies"]).bind Json.asArr?).getD []).map
    fun dependency =>
      let digest := (dependency.getStr? "archive_digest").getD ""
      .obj [("digest", .obj [("sha256", .str ((Text.stripPrefix "sha256:" digest).getD ""))]),
        ("name", dependency.index "name"),
        ("uri", .str ("urn:openstrata:artifact:" ++ digest))])

/-- The statements of a JSONL text, blank lines skipped. -/
def parseStatements (codec : Codec) (content : Bytes) : Result (List Json) :=
  ((Utf8.lines content).filter fun line => !Utf8.isBlank line).mapM fun line =>
    Result.okOr (.ofCode "ARTIFACT_PROVENANCE_INVALID" .validation
      (PROVENANCE_FILE ++ " contains invalid JSONL")) (codec.parse line)

/-- A statement with a subject of this digest. -/
def hasSubject (expected : String) (statement : Json) : Bool :=
  (itemsOf statement "subject").any fun subject =>
    (subject.pointer? ["digest", "sha256"]).bind Json.asStr? == some expected

def requiredSource (document : Json) (path : List String) (description : String) :
    Result String :=
  Result.okOr (.ofCode "ARTIFACT_PROVENANCE_SOURCE_MISMATCH" .validation
    ("missing " ++ description))
    (((document.pointer? path).bind Json.asStr?).filter fun value => !value.isEmpty)

/-- The provenance of a composed runtime binds its identity and its exact inputs. -/
def bindsComposition (manifest statement : Json) : Bool :=
  statement.pointer? ["predicate", "buildDefinition", "resolvedDependencies"] ==
      some (compositionMaterials manifest) &&
    statement.pointer?
        ["predicate", "buildDefinition", "externalParameters", "runtime_digest"] ==
      manifest.pointer? ["composition", "runtime_digest"]

/-- The source a statement attests is the source the manifest was built from. -/
def checkSource (manifest statement : Json) : Result Unit := do
  let buildRepository ← requiredSource manifest ["build", "source", "repository"]
    "manifest build.source.repository"
  let buildRevision ← requiredSource manifest ["build", "source", "revision"]
    "manifest build.source.revision"
  let attestedRepository ← requiredSource statement
    ["predicate", "buildDefinition", "externalParameters", "source", "repository"]
    "provenance source repository"
  let attestedRevision ← requiredSource statement
    ["predicate", "buildDefinition", "externalParameters", "source", "revision"]
    "provenance source revision"
  Result.failIf (buildRepository ≠ attestedRepository ∨ buildRevision ≠ attestedRevision)
    (.ofCode "ARTIFACT_PROVENANCE_SOURCE_MISMATCH" .validation
      "provenance source repository/revision does not match manifest build metadata")

/-- The publisher identity of a statement's builder. -/
def builderIdentity (statement : Json) : Result PublisherIdentity := do
  let identity ← Result.okOr
    (.ofCode "ARTIFACT_PROVENANCE_BUILDER_UNTRUSTED" .validation
      "provenance builder carries no publisher identity")
    (statement.pointer? ["predicate", "runDetails", "builder", "identity"])
  Result.okOr (.ofCode "ARTIFACT_PROVENANCE_BUILDER_UNTRUSTED" .validation
    "provenance publisher identity is invalid") (PublisherIdentity.fromJson identity)

/-- The allowed publisher a statement's builder matches; without a policy, none is asked. -/
def matchPublisher (policy : Option ArtifactPolicy) (statement : Json) :
    Result (Option String) :=
  match policy with
  | none => .ok none
  | some policy => do
    let identity ← builderIdentity statement
    let matched ← Result.okOr
      (.ofCode "ARTIFACT_PROVENANCE_BUILDER_UNTRUSTED" .validation
        "provenance builder identity matches no allowed publisher policy")
      (policy.allowedPublishers.find? (·.matches identity))
    return some matched.id

def checkProvenance (codec : Codec) (manifest : Json) (artifactDigest : String)
    (policy : Option ArtifactPolicy) (content : Bytes) : Result (Option String) := do
  let statements ← parseStatements codec content
  Result.failIf (statements = []) (.ofCode "ARTIFACT_PROVENANCE_INVALID" .validation
    (PROVENANCE_FILE ++ " contains no statements"))
  let statement ← Result.okOr
    (.ofCode "ARTIFACT_PROVENANCE_SUBJECT_MISMATCH" .validation
      (PROVENANCE_FILE ++ " has no subject matching artifact digest " ++ artifactDigest))
    (statements.find? (hasSubject (bareDigest artifactDigest)))
  Result.failIf (manifest.getStr? "kind" = some COMPOSED_RUNTIME_KIND ∧
      ¬ bindsComposition manifest statement)
    (.ofCode "ARTIFACT_PROVENANCE_SOURCE_MISMATCH" .validation
      ("composition provenance does not bind the runtime identity and exact input artifacts"))
  checkSource manifest statement
  matchPublisher policy statement

def verifyProvenance (codec : Codec) (dist : Directory) (manifest : Json)
    (artifactDigest : String) (policy : Option ArtifactPolicy) : Result (Option String) := do
  let content ← dist.read PROVENANCE_FILE
  Result.failIf (¬ Utf8.valid content) (.io (dist.join PROVENANCE_FILE))
  checkProvenance codec manifest artifactDigest policy content

/-! ## What the checks establish -/

/-- A content is an SPDX document about an artifact and its exact dependencies. -/
structure SbomVerified (codec : Codec) (artifactDigest : String)
    (dependencies : List ResolvedDependencyIdentity) (content : Bytes) (document : Json) :
    Prop where
  parsed : codec.parse content = some document
  version : document.getStr? "spdxVersion" = some "SPDX-2.3"
  subject : ∃ package ∈ itemsOf document "packages",
    carriesSha256 package (bareDigest artifactDigest)
  dependencies_match : dependencies ≠ [] → dependenciesMatch document dependencies

/-- A statement of a provenance text is about an artifact and the source its manifest
records. -/
structure ProvenanceVerified (codec : Codec) (manifest : Json) (artifactDigest : String)
    (content : Bytes) (statement : Json) : Prop where
  listed : ∃ line ∈ Utf8.lines content, codec.parse line = some statement
  subject : hasSubject (bareDigest artifactDigest) statement
  composition : manifest.getStr? "kind" = some COMPOSED_RUNTIME_KIND →
    bindsComposition manifest statement
  repository : ∃ repository, repository ≠ "" ∧
    (manifest.pointer? ["build", "source", "repository"]).bind Json.asStr? = some repository ∧
    (statement.pointer?
      ["predicate", "buildDefinition", "externalParameters", "source", "repository"]).bind
        Json.asStr? = some repository
  revision : ∃ revision, revision ≠ "" ∧
    (manifest.pointer? ["build", "source", "revision"]).bind Json.asStr? = some revision ∧
    (statement.pointer?
      ["predicate", "buildDefinition", "externalParameters", "source", "revision"]).bind
        Json.asStr? = some revision

variable {codec : Codec} {manifest statement document : Json} {artifactDigest : String}
  {content : Bytes} {dependencies : List ResolvedDependencyIdentity}
  {policy : Option ArtifactPolicy} {publisher : Option String}

theorem checkEvidence_ok {evidence : EvidenceDigest} {u : Unit} :
    checkEvidence codec evidence content = .ok u ↔
      sha256Hex codec content = evidence.digest ∧ content.length = evidence.size := by
  simp [checkEvidence, EvidenceDigest.ofBytes]

/-- A sidecar that is found describes the content under its name. -/
theorem evidenceIn_some {d : Directory} {name notAFile : String} {evidence : EvidenceDigest}
    (h : evidenceIn codec d name notAFile = .ok (some evidence)) :
    ∃ content, d.read name = .ok content ∧ evidence = EvidenceDigest.ofBytes codec name content := by
  unfold evidenceIn at h
  split at h
  · simp only [Result.bind_ok, EvidenceDigest.fromFile] at h
    obtain ⟨⟨⟩, -, e, ⟨content, hcontent, he⟩, hevidence⟩ := h
    cases he
    cases hevidence
    exact ⟨content, hcontent, rfl⟩
  · cases h

/-- A sidecar that is not found is not there. -/
theorem evidenceIn_none {d : Directory} {name notAFile : String}
    (h : evidenceIn codec d name notAFile = .ok none) : d.exists? name = false := by
  unfold evidenceIn at h
  split at h
  · simp only [Result.bind_ok] at h
    obtain ⟨⟨⟩, -, e, -, hevidence⟩ := h
    cases hevidence
  · simpa using ‹¬ d.exists? name›

/-- An accepted document is an SPDX document about the artifact. -/
theorem checkSbom_ok {u : Unit} :
    checkSbom codec artifactDigest dependencies content = .ok u ↔
      ∃ document, SbomVerified codec artifactDigest dependencies content document := by
  simp only [checkSbom, Result.bind_ok, Result.okOr_ok, Result.failIf_ok, not_not, not_and]
  constructor
  · rintro ⟨document, hparse, ⟨⟩, hversion, ⟨⟩, hsubject, hdeps⟩
    exact ⟨document, hparse, hversion, List.any_eq_true.mp hsubject, hdeps⟩
  · rintro ⟨document, h⟩
    exact ⟨document, h.parsed, (), h.version, (), List.any_eq_true.mpr h.subject,
      h.dependencies_match⟩

theorem requiredSource_ok {path : List String} {description value : String} :
    requiredSource manifest path description = .ok value ↔
      value ≠ "" ∧ (manifest.pointer? path).bind Json.asStr? = some value := by
  rw [requiredSource, Result.okOr_ok, Option.filter_eq_some_iff]
  rw [and_comm]
  simp

/-- Parsed statements stand on lines of the text. -/
theorem mem_parseStatements {statements : List Json}
    (h : parseStatements codec content = .ok statements) (hs : statement ∈ statements) :
    ∃ line ∈ Utf8.lines content, codec.parse line = some statement := by
  unfold parseStatements at h
  generalize hlines : (Utf8.lines content).filter _ = lines at h
  have hsub : ∀ line ∈ lines, line ∈ Utf8.lines content := by
    intro line hline
    rw [← hlines] at hline
    exact (List.mem_filter.mp hline).1
  clear hlines
  induction lines generalizing statements with
  | nil =>
    cases h
    cases hs
  | cons line lines ih =>
    rw [List.mapM_cons] at h
    simp only [Result.bind_ok, Result.okOr_ok] at h
    obtain ⟨first, hfirst, rest, hrest, hstatements⟩ := h
    cases hstatements
    rcases List.mem_cons.mp hs with rfl | hs
    · exact ⟨line, hsub line List.mem_cons_self, hfirst⟩
    · exact ih hs hrest fun l hl => hsub l (List.mem_cons_of_mem _ hl)

theorem checkSource_ok {u : Unit} (h : checkSource manifest statement = .ok u) :
    (∃ repository, repository ≠ "" ∧
      (manifest.pointer? ["build", "source", "repository"]).bind Json.asStr? = some repository ∧
      (statement.pointer?
        ["predicate", "buildDefinition", "externalParameters", "source", "repository"]).bind
          Json.asStr? = some repository) ∧
    ∃ revision, revision ≠ "" ∧
      (manifest.pointer? ["build", "source", "revision"]).bind Json.asStr? = some revision ∧
      (statement.pointer?
        ["predicate", "buildDefinition", "externalParameters", "source", "revision"]).bind
          Json.asStr? = some revision := by
  simp only [checkSource, Result.bind_ok, Result.failIf_ok, requiredSource_ok] at h
  obtain ⟨repository, ⟨hne, hrepository⟩, revision, ⟨hne', hrevision⟩, attestedRepository,
    ⟨-, hattestedRepository⟩, attestedRevision, ⟨-, hattestedRevision⟩, hsame⟩ := h
  push Not at hsame
  obtain ⟨rfl, rfl⟩ := hsame
  exact ⟨⟨repository, hne, hrepository, hattestedRepository⟩,
    ⟨revision, hne', hrevision, hattestedRevision⟩⟩

/-- The publisher reported for a statement is an allowed one its builder matches. -/
theorem matchPublisher_ok {policy : ArtifactPolicy} {publisher : Option String}
    (h : matchPublisher (some policy) statement = .ok publisher) :
    ∃ identity, builderIdentity statement = .ok identity ∧
      ∃ p ∈ policy.allowedPublishers, p.matches identity ∧ publisher = some p.id := by
  simp only [matchPublisher, Result.bind_ok, Result.okOr_ok] at h
  obtain ⟨identity, hidentity, p, hp, hpublisher⟩ := h
  cases hpublisher
  exact ⟨identity, hidentity, p, List.mem_of_find?_eq_some hp,
    by simpa using List.find?_some hp, rfl⟩

/-- An accepted provenance has a statement about the artifact and its source, and reports the
publisher its builder matches. -/
theorem checkProvenance_ok
    (h : checkProvenance codec manifest artifactDigest policy content = .ok publisher) :
    ∃ statement, ProvenanceVerified codec manifest artifactDigest content statement ∧
      matchPublisher policy statement = .ok publisher := by
  simp only [checkProvenance, Result.bind_ok, Result.failIf_ok, Result.okOr_ok] at h
  obtain ⟨statements, hparse, ⟨⟩, -, statement, hfind, ⟨⟩, hcomposition, ⟨⟩, hsource,
    hpublisher⟩ := h
  obtain ⟨hrepository, hrevision⟩ := checkSource_ok hsource
  refine ⟨statement, ?_, hpublisher⟩
  exact {
    listed := mem_parseStatements hparse (List.mem_of_find?_eq_some hfind)
    subject := List.find?_some hfind
    composition := fun hkind => by
      by_contra hnot
      exact hcomposition ⟨hkind, hnot⟩
    repository := hrepository
    revision := hrevision }

end OpenStrata
