import OpenStrata.Artifact.Evidence
import OpenStrata.Core.Printing

/-!
# Evidence generation

The producer's side of the evidence: build metadata, the SPDX document and the provenance
statement written for a manifest. The generator reads the manifest's fields by name where the
record reads typed values, and the two readings meet in the main result.

## Main definitions

* `parseBuildMetadata`: the check of supplied build metadata
* `spdxDocument`, `provenanceStatement`: the two documents of a manifest
* `generateEvidence`: both, written into a directory

## Main results

* `generateEvidence_verifies_iff`: the evidence of a manifest verifies against the record of the
  same manifest exactly when every recorded dependency and its source are written as objects
-/

namespace OpenStrata

/-- The version the workspace's crates are built under. -/
def CARGO_PKG_VERSION : String := "0.23.19"

/-! ## Build metadata -/

/-- A variable of the environment that is set and not empty. -/
def nonemptyEnv (env : String → Option String) (key : String) : Option String :=
  (env key).filter fun value => !value.isEmpty

/-- The build metadata of a GitHub Actions environment, when all of it is there. -/
def githubBuildMetadata (env : String → Option String) : Option Json := do
  let repository ← nonemptyEnv env "GITHUB_REPOSITORY"
  let revision ← nonemptyEnv env "GITHUB_SHA"
  let workflowRef ← nonemptyEnv env "GITHUB_WORKFLOW_REF"
  let gitRef ← nonemptyEnv env "GITHUB_REF"
  let actor ← nonemptyEnv env "GITHUB_ACTOR"
  let event ← nonemptyEnv env "GITHUB_EVENT_NAME"
  let rest ← Text.stripPrefix (repository ++ "/") workflowRef
  let workflowPath ← (Text.split (· == '@') rest).head?
  if ¬ Text.startsWith ".github/workflows/" workflowPath then none
  return .obj [
    ("builder", .obj [
      ("id", .str ("https://github.com/" ++ workflowRef)),
      ("identity", .obj [
        ("actor", .str actor),
        ("event", .str event),
        ("git_ref", .str gitRef),
        ("repository", .str repository),
        ("workflow_path", .str workflowPath)])]),
    ("source", .obj [("repository", .str repository), ("revision", .str revision)])]

/-- A required text of the build metadata, non-empty and without surrounding white space. -/
def requireMetadata (value : Json) (parent child : String) : Result Unit :=
  Result.failIf (¬ ((value.get? parent).bind (·.getStr? child)).any exactIdentityComponent)
    (Error.withHint ("provenance names what produced an artifact; a document missing its " ++
        "source or builder cannot do that, and partial provenance is worse than none")
      (.ofCode "BUILD_METADATA_INCOMPLETE" .validation
        ("build metadata is missing a non-empty '" ++ parent ++ "." ++ child ++ "'")))

/-- An object with at least one field. -/
def isPopulated : Json → Bool
  | .obj fields => !fields.isEmpty
  | _ => false

/-- The dependencies in order, each one exact and none of a name already seen. -/
def validateBuildDependencies : List String → Nat → List Json → Result Unit
  | _, _, [] => .ok ()
  | names, index, value :: rest => do
    let dependency ← Result.okOr
      (.ofCode "BUILD_METADATA_DEPENDENCY_INVALID" .validation
        ("build metadata dependency " ++ toString index ++ " is invalid"))
      (ResolvedDependencyIdentity.fromJson value)
    Result.failIf (¬ dependency.isVerified)
      (.ofCode "BUILD_METADATA_DEPENDENCY_INVALID" .validation
        ("build metadata dependency " ++ toString index ++
          " has a blank name, version, repository, or revision"))
    Result.failIf (dependency.name ∈ names)
      (.ofCode "BUILD_METADATA_DEPENDENCY_INVALID" .validation
        ("build metadata dependencies repeat name '" ++ dependency.name ++ "'"))
    validateBuildDependencies (dependency.name :: names) (index + 1) rest

/-- Parse and validate build metadata supplied by a producer. -/
def parseBuildMetadata (codec : Codec) (text : String) : Result Json := do
  let value ← Result.okOr (.parse "build metadata") (codec.parse (utf8 text))
  requireMetadata value "source" "repository"
  requireMetadata value "source" "revision"
  requireMetadata value "builder" "id"
  Result.failIf (¬ ((value.get? "builder").bind (·.get? "identity")).any isPopulated)
    (Error.withHint ("describe the builder concretely — for a self-hosted producer that is " ++
        "typically its host, pipeline and triggering ref")
      (.ofCode "BUILD_METADATA_INCOMPLETE" .validation
        "build metadata is missing a non-empty 'builder.identity' object"))
  match value.pointer? ["dependencies"] with
  | none => return value
  | some dependencies =>
    let values ← Result.okOr
      (.ofCode "BUILD_METADATA_DEPENDENCY_INVALID" .validation
        "build metadata 'dependencies' must be an array") dependencies.asArr?
    validateBuildDependencies [] 0 values
    return value

/-! ## The SPDX document -/

def manifestStr (manifest : Json) (field : String) : Result String :=
  Result.okOr (.validation ("producer manifest is missing '" ++ field ++ "'"))
    (manifest.getStr? field)

/-- A number in at least six digits. -/
def sixDigits (n : Nat) : String :=
  String.ofList (List.replicate (6 - (toString n).length) '0') ++ toString n

/-- The field of the embedded plugin, or else the manifest's own. -/
def pluginOrOwn (manifest : Json) (field default : String) : String :=
  (((manifest.pointer? ["plugin", field]).or (manifest.get? field)).bind Json.asStr?).getD default

def declaredLicenses (manifest : Json) : String :=
  let own := ((manifest.get? "licenses").bind Json.asArr?).map fun values =>
    Text.join " AND " (values.filterMap Json.asStr?)
  ((((manifest.pointer? ["plugin", "license"]).bind Json.asStr?).or own).filter
    fun value => !value.isEmpty).getD "NOASSERTION"

/-- The checksum list of one SHA-256. -/
def sha256Checksums (hex : String) : Json :=
  .arr [.obj [("algorithm", .str "SHA256"), ("checksumValue", .str hex)]]

/-- The SPDX file of a manifest entry that names a path and a digest. -/
def spdxFile (index : Nat) (file : Json) : Option Json := do
  let path ← file.getStr? "path"
  let sha ← file.getStr? "sha256"
  return .obj [
    ("SPDXID", .str ("SPDXRef-File-" ++ sixDigits index)),
    ("checksums", sha256Checksums (bareDigest sha)),
    ("copyrightText", .str "NOASSERTION"),
    ("fileName", .str path),
    ("licenseConcluded", .str "NOASSERTION")]

/-- The relationship of the artifact to another element of the document. -/
def spdxRelationship (kind : String) (element : Json) : Option Json :=
  (element.getStr? "SPDXID").map fun id =>
    .obj [("relatedSpdxElement", .str id), ("relationshipType", .str kind),
      ("spdxElementId", .str "SPDXRef-Package")]

/-- The dependencies a manifest's build metadata lists. -/
def buildDependencies (manifest : Json) : List Json :=
  ((manifest.pointer? ["build", "dependencies"]).bind Json.asArr?).getD []

/-- The checksums of a dependency whose archive digest is recorded. -/
def dependencyChecksums (dependency : Json) : List (String × Json) :=
  match ((dependency.index "archive_digest").asStr?).bind (Text.stripPrefix "sha256:") with
  | some digest => [("checksums", sha256Checksums digest)]
  | none => []

/-- The SPDX package of a dependency, its fields read by name. -/
def dependencyPackage (index : Nat) (dependency : Json) : Json :=
  let source := dependency.index "source"
  .obj (("SPDXID", .str ("SPDXRef-Dependency-" ++ sixDigits index)) ::
    dependencyChecksums dependency ++ [
    ("copyrightText", .str "NOASSERTION"),
    ("downloadLocation", source.index "repository"),
    ("filesAnalyzed", .bool false),
    ("licenseConcluded", .str "NOASSERTION"),
    ("licenseDeclared", .str "NOASSERTION"),
    ("name", dependency.index "name"),
    ("sourceInfo", .str ("revision " ++ ((source.index "revision").asStr?).getD "unknown")),
    ("versionInfo", dependency.index "version")])

/-- The SPDX package of the artifact itself. -/
def artifactPackage (name version licenses digestHex : String) : Json :=
  .obj [
    ("SPDXID", .str "SPDXRef-Package"),
    ("checksums", sha256Checksums digestHex),
    ("copyrightText", .str "NOASSERTION"),
    ("downloadLocation", .str "NOASSERTION"),
    ("filesAnalyzed", .bool true),
    ("licenseConcluded", .str "NOASSERTION"),
    ("licenseDeclared", .str licenses),
    ("name", .str name),
    ("versionInfo", .str version)]

def spdxDocument (manifest : Json) : Result Json := do
  let digest ← manifestStr manifest "archive_digest"
  let digestHex := bareDigest digest
  let name := pluginOrOwn manifest "name" "openstrata-artifact"
  let version := pluginOrOwn manifest "version" "unknown"
  let files := (itemsOf manifest "files").zipIdx.filterMap fun (file, index) =>
    spdxFile index file
  let dependencies := (buildDependencies manifest).zipIdx.map fun (dependency, index) =>
    dependencyPackage index dependency
  return .obj [
    ("SPDXID", .str "SPDXRef-DOCUMENT"),
    ("creationInfo", .obj [
      ("comment", .str ("Timestamp is fixed for deterministic OpenStrata evidence; producer " ++
        "time remains in manifest.json.")),
      ("created", .str "1970-01-01T00:00:00Z"),
      ("creators", .arr [.str ("Tool: ost-" ++ CARGO_PKG_VERSION)])]),
    ("dataLicense", .str "CC0-1.0"),
    ("documentNamespace", .str ("https://openstrata.dev/spdx/" ++ digestHex)),
    ("files", .arr files),
    ("name", .str (name ++ "-" ++ version)),
    ("packages", .arr
      (artifactPackage name version (declaredLicenses manifest) digestHex :: dependencies)),
    ("relationships", .arr (files.filterMap (spdxRelationship "CONTAINS") ++
      dependencies.filterMap (spdxRelationship "DEPENDS_ON"))),
    ("spdxVersion", .str "SPDX-2.3")]

/-! ## The provenance statement -/

/-- The build definition of a statement; a composed runtime's names its identity and inputs. -/
def buildDefinition (manifest build : Json) : Json :=
  if manifest.getStr? "kind" = some COMPOSED_RUNTIME_KIND then
    .obj [
      ("buildType", .str "https://openstrata.dev/runtime/compose/v1"),
      ("externalParameters", .obj [
        ("runtime_digest", (manifest.index "composition").index "runtime_digest"),
        ("source", build.index "source")]),
      ("resolvedDependencies", compositionMaterials manifest)]
  else
    .obj [
      ("buildType", .str "https://openstrata.dev/build/v1"),
      ("externalParameters", .obj [("source", build.index "source")])]

def provenanceStatement (manifest : Json) : Result Json := do
  let archive ← manifestStr manifest "archive"
  let digest ← manifestStr manifest "archive_digest"
  let build ← Result.okOr (.validation "cannot generate provenance without build metadata")
    (manifest.get? "build")
  return .obj [
    ("_type", .str "https://in-toto.io/Statement/v1"),
    ("predicate", .obj [
      ("buildDefinition", buildDefinition manifest build),
      ("runDetails", .obj [("builder", build.index "builder")])]),
    ("predicateType", .str "https://slsa.dev/provenance/v1"),
    ("subject", .arr [.obj [
      ("digest", .obj [("sha256", .str (bareDigest digest))]),
      ("name", .str archive)]])]

/-! ## Writing the evidence -/

/-- The bytes of a pretty-printed document. -/
def prettyBytes (value : Json) : Bytes := utf8 (value.renderPretty 0 ++ "\n")

/-- The bytes of a statement on a line of its own. -/
def lineBytes (value : Json) : Bytes := utf8 (value.render ++ "\n")

namespace Directory

/-- The directory with another entry under one name. -/
def update (d : Directory) (name : String) (entry : Option Entry) : Directory :=
  { d with entries := fun other => if other = name then entry else d.entries other }

/-- `fs::write`: a name that stands for a directory cannot be written. -/
def write (d : Directory) (name : String) (content : Bytes) : Result Directory :=
  if d.entries name = some .directory then .error (.io (d.join name))
  else .ok (d.update name (some (.file content)))

/-- `fs::remove_file`, a missing file being no failure. -/
def removeFile (d : Directory) (name : String) : Result Directory :=
  if d.entries name = some .directory then .error (.io (d.join name))
  else .ok (d.update name none)

end Directory

/-- Insert or replace a field, in key order. -/
def insertField (key : String) (value : Json) : List (String × Json) → List (String × Json)
  | [] => [(key, value)]
  | (k, v) :: fields =>
    if k = key then (key, value) :: fields
    else if key < k then (key, value) :: (k, v) :: fields
    else (k, v) :: insertField key value fields

/-- The manifest with the metadata of its environment where it carries none of its own.
Assigning a field of anything but an object or `null` panics in the source; such a manifest is
left as it is. -/
def ambientBuild (env : String → Option String) (manifest : Json) : Json :=
  match manifest.get? "build", githubBuildMetadata env, manifest with
  | none, some build, .obj fields => .obj (insertField "build" build fields)
  | none, some build, .null => .obj [("build", build)]
  | _, _, _ => manifest

/-- Generate the SPDX document of a manifest and, when it carries build metadata, its
provenance: the sidecars, the manifest and the directory afterwards. -/
def generateEvidence (codec : Codec) (env : String → Option String) (dist : Directory)
    (manifest : Json) : Result (List EvidenceDigest × Json × Directory) := do
  let manifest := ambientBuild env manifest
  let sbom ← spdxDocument manifest
  let dist ← dist.write SBOM_FILE (prettyBytes sbom)
  let sbomEvidence ← EvidenceDigest.fromFile codec dist SBOM_FILE
  if (manifest.get? "build").isSome then
    let provenance ← provenanceStatement manifest
    let dist ← dist.write PROVENANCE_FILE (lineBytes provenance)
    let provenanceEvidence ← EvidenceDigest.fromFile codec dist PROVENANCE_FILE
    return ([sbomEvidence, provenanceEvidence], manifest, dist)
  else
    let dist ← dist.removeFile PROVENANCE_FILE
    return ([sbomEvidence], manifest, dist)

/-! ## Reading by name and reading by type -/

variable {codec : Codec} {value manifest build statement document : Json} {index : Nat}
  {dependency : ResolvedDependencyIdentity}

theorem get?_of_getStr? {key text : String} (h : value.getStr? key = some text) :
    value.get? key = some (.str text) := by
  obtain ⟨field, hfield, htext⟩ := Option.bind_eq_some_iff.mp h
  cases field with
  | str s => rw [hfield, ← Option.some.inj htext]
  | _ => cases htext

/-- A field that is a text or an object is a field of an object. -/
theorem isObject_of_index (key : String) (h : value.index key ≠ .null) : value.isObject := by
  cases value with
  | obj fields => rfl
  | _ => exact absurd rfl h

/-- A dependency written as an object, its source too. -/
def ByName (value : Json) : Prop := value.isObject ∧ (value.index "source").isObject

theorem lookup_of_required {fs : List (String × Json)} {name text : String}
    (h : Serde.required fs name Serde.string = some text) :
    fs.lookup name = some (.str text) := by
  obtain ⟨field, hfield, htext⟩ := Option.bind_eq_some_iff.mp h
  cases field with
  | str s => rw [hfield, ← Option.some.inj htext]
  | _ => cases htext

/-- The fields of a source written as an object. -/
theorem ResolvedSourceIdentity.index_of_fromJson {source : ResolvedSourceIdentity}
    (hobject : value.isObject) (h : ResolvedSourceIdentity.fromJson value = some source) :
    value.index "repository" = .str source.repository ∧
      value.index "revision" = .str source.revision := by
  cases value with
  | obj fs =>
    simp only [ResolvedSourceIdentity.fromJson, Serde.fields, Option.bind_eq_bind,
      Option.bind_eq_some_iff] at h
    obtain ⟨_, hfs, repository, hrepository, revision, hrevision, hsource⟩ := h
    split at hfs
    · cases hfs
      cases hsource
      simp only [Json.index, Json.get?]
      rw [lookup_of_required hrepository, lookup_of_required hrevision]
      exact ⟨rfl, rfl⟩
    · cases hfs
  | _ => cases hobject

/-- The fields of a dependency written as an object, its source too. -/
theorem ResolvedDependencyIdentity.index_of_fromJson (hname : ByName value)
    (h : ResolvedDependencyIdentity.fromJson value = some dependency) :
    value.index "name" = .str dependency.name ∧
      value.index "version" = .str dependency.version ∧
      (value.index "source").index "repository" = .str dependency.source.repository ∧
      (value.index "source").index "revision" = .str dependency.source.revision ∧
      (value.index "archive_digest").asStr? = dependency.archiveDigest := by
  obtain ⟨hobject, hsource⟩ := hname
  cases value with
  | obj fs =>
    simp only [ResolvedDependencyIdentity.fromJson, Serde.fields, Option.bind_eq_bind,
      Option.bind_eq_some_iff] at h
    obtain ⟨_, hfs, name, hname, version, hversion, source, hread, digest, hdigest, hd⟩ := h
    split at hfs
    · cases hfs
      cases hd
      obtain ⟨field, hfield, hread⟩ := Option.bind_eq_some_iff.mp hread
      have hindex : (Json.obj fs).index "source" = field := by
        rw [Json.index, Json.get?, hfield]
        rfl
      rw [hindex] at hsource ⊢
      obtain ⟨hrepository, hrevision⟩ :=
        ResolvedSourceIdentity.index_of_fromJson hsource hread
      refine ⟨?_, ?_, hrepository, hrevision, ?_⟩
      · rw [Json.index, Json.get?, lookup_of_required hname]
        rfl
      · rw [Json.index, Json.get?, lookup_of_required hversion]
        rfl
      · rw [Json.index, Json.get?]
        unfold Serde.optional at hdigest
        split at hdigest
        · cases hdigest
          rename_i hnone
          rw [hnone]
          rfl
        · cases hdigest
          rename_i hnull
          rw [hnull]
          rfl
        · rename_i text hne htext
          rw [htext]
          obtain ⟨s, hs, hsome⟩ := Option.map_eq_some_iff.mp hdigest
          exact hs.trans hsome
    · cases hfs
  | _ => cases hobject

/-! ## Dependency packages -/

section Package

theorem dependencyPackage_id :
    (dependencyPackage index value).getStr? "SPDXID" =
      some ("SPDXRef-Dependency-" ++ sixDigits index) := rfl

theorem dependencyPackage_name :
    (dependencyPackage index value).getStr? "name" = (value.index "name").asStr? := by
  unfold dependencyPackage dependencyChecksums
  split <;> rfl

theorem dependencyPackage_version :
    (dependencyPackage index value).getStr? "versionInfo" = (value.index "version").asStr? := by
  unfold dependencyPackage dependencyChecksums
  split <;> rfl

theorem dependencyPackage_repository :
    (dependencyPackage index value).getStr? "downloadLocation" =
      ((value.index "source").index "repository").asStr? := by
  unfold dependencyPackage dependencyChecksums
  split <;> rfl

theorem dependencyPackage_revision :
    (dependencyPackage index value).getStr? "sourceInfo" =
      some ("revision " ++
        (((value.index "source").index "revision").asStr?).getD "unknown") := by
  unfold dependencyPackage dependencyChecksums
  split <;> rfl

/-- The package of a dependency carries the digest the dependency records. -/
theorem dependencyPackage_checksum {digest hex : String}
    (hdigest : (value.index "archive_digest").asStr? = some digest)
    (hhex : Text.stripPrefix "sha256:" digest = some hex) :
    carriesSha256 (dependencyPackage index value) hex := by
  unfold dependencyPackage dependencyChecksums
  rw [hdigest, Option.bind_some, hhex]
  simp [carriesSha256, itemsOf, Json.get?, Json.asArr?, sha256Checksums, Json.getStr?,
    Json.asStr?, List.lookup_cons]

/-- The package of a dependency written by name describes the dependency. -/
theorem describesDependency_dependencyPackage (hname : ByName value)
    (h : ResolvedDependencyIdentity.fromJson value = some dependency)
    (hverified : dependency.isVerified) :
    describesDependency dependency (dependencyPackage index value) := by
  obtain ⟨hn, hv, hrepository, hrevision, hdigest⟩ :=
    ResolvedDependencyIdentity.index_of_fromJson hname h
  simp only [describesDependency, dependencyPackage_name, dependencyPackage_version,
    dependencyPackage_repository, dependencyPackage_revision, hn, hv, hrepository, hrevision,
    Json.asStr?, Option.getD_some, beq_self_eq_true, Bool.true_and, Option.all_eq_true]
  intro digest hsome
  simp only [ResolvedDependencyIdentity.isVerified, Bool.and_eq_true, hsome, Option.all_some,
    isCanonicalSha256] at hverified
  cases hhex : Text.stripPrefix "sha256:" digest with
  | none => simp [hhex] at hverified
  | some hex =>
    rw [bareDigest, hhex, Option.getD_some]
    exact dependencyPackage_checksum (hdigest.trans hsome) hhex

/-- A package that describes some dependency comes from one written by name, of that
dependency's name. -/
theorem byName_of_describesDependency
    (h : describesDependency dependency (dependencyPackage index value)) :
    ByName value ∧ value.index "name" = .str dependency.name := by
  simp only [describesDependency, dependencyPackage_name, dependencyPackage_repository,
    Bool.and_eq_true, beq_iff_eq] at h
  obtain ⟨⟨⟨⟨hname, -⟩, hrepository⟩, -⟩, -⟩ := h
  have hstr : ∀ {v : Json} {s : String}, v.asStr? = some s → v = .str s := by
    intro v s hv
    cases v with
    | str t => rw [← Option.some.inj hv]
    | _ => cases hv
  have hname := hstr hname
  have hrepository := hstr hrepository
  refine ⟨⟨isObject_of_index "name" ?_, isObject_of_index "repository" ?_⟩, hname⟩
  · intro hnull
    rw [hname] at hnull
    cases hnull
  · intro hnull
    rw [hrepository] at hnull
    cases hnull

end Package

/-! ## The dependencies of a document -/

/-- A value that reads as a dependency with an exact identity. -/
def ReadsAs (value : Json) (dependency : ResolvedDependencyIdentity) : Prop :=
  ResolvedDependencyIdentity.fromJson value = some dependency ∧ dependency.isVerified

/-- The name of the dependency a value reads as. -/
def dependencyName (value : Json) : Option String :=
  (ResolvedDependencyIdentity.fromJson value).map (·.name)

/-- Related lists have related elements, on either side. -/
theorem exists_of_forall₂ {α β : Type} {R : α → β → Prop} {as : List α} {bs : List β}
    (h : List.Forall₂ R as bs) :
    (∀ a ∈ as, ∃ b ∈ bs, R a b) ∧ ∀ b ∈ bs, ∃ a ∈ as, R a b := by
  induction h with
  | nil => simp
  | cons hab _ ih =>
    obtain ⟨ihleft, ihright⟩ := ih
    constructor
    · rintro a (_ | ⟨_, ha⟩)
      · exact ⟨_, List.mem_cons_self, hab⟩
      · obtain ⟨b, hb, hr⟩ := ihleft a ha
        exact ⟨b, List.mem_cons_of_mem _ hb, hr⟩
    · rintro b (_ | ⟨_, hb⟩)
      · exact ⟨_, List.mem_cons_self, hab⟩
      · obtain ⟨a, ha, hr⟩ := ihright b hb
        exact ⟨a, List.mem_cons_of_mem _ ha, hr⟩

theorem forall₂_of_readDependencies {values : List Json}
    {dependencies : List ResolvedDependencyIdentity}
    (h : readDependencies index values = .ok dependencies) :
    List.Forall₂ ReadsAs values dependencies := by
  induction values generalizing index dependencies with
  | nil =>
    cases h
    exact .nil
  | cons value rest ih =>
    simp only [readDependencies, Result.bind_ok, Result.okOr_ok, Result.failIf_ok,
      not_not] at h
    obtain ⟨dependency, hread, ⟨⟩, hverified, later, hlater, hdependencies⟩ := h
    cases hdependencies
    exact .cons ⟨hread, hverified⟩ (ih hlater)

/-- The dependencies of a record are those its manifest's build metadata lists, in another
order. -/
theorem perm_of_normalizeDependencyIdentities {dependencies : List ResolvedDependencyIdentity}
    (h : normalizeDependencyIdentities manifest = .ok dependencies) :
    ∃ read, List.Forall₂ ReadsAs (buildDependencies manifest) read ∧
      dependencies.Perm read := by
  unfold normalizeDependencyIdentities at h
  split at h
  · rename_i hnone
    cases h
    -- A missing list and `null` both read as no dependencies.
    have hempty : buildDependencies manifest = [] := by
      unfold buildDependencies
      cases hfield : manifest.pointer? ["build", "dependencies"] with
      | none => rfl
      | some field =>
        rw [hfield] at hnone
        cases field with
        | null => rfl
        | _ => cases hnone
    rw [hempty]
    exact ⟨[], .nil, .nil⟩
  · rename_i field hfield
    simp only [Result.bind_ok, Result.okOr_ok] at h
    obtain ⟨values, hvalues, read, hread, h⟩ := h
    split at h
    · cases h
    · cases h
      have hlist : buildDependencies manifest = values := by
        rw [buildDependencies, (Option.filter_eq_some_iff.mp hfield).1, Option.bind_some,
          hvalues, Option.getD_some]
      rw [hlist]
      exact ⟨read, forall₂_of_readDependencies hread, List.perm_insertionSort _ _⟩

/-- Accepted build dependencies have distinct names, none of them already seen. -/
theorem nodup_of_validateBuildDependencies {names : List String} {values : List Json}
    {u : Unit} (h : validateBuildDependencies names index values = .ok u) :
    (values.map dependencyName).Nodup ∧
      ∀ value ∈ values, ∃ name, dependencyName value = some name ∧ name ∉ names := by
  induction values generalizing names index with
  | nil => exact ⟨List.nodup_nil, fun _ hvalue => nomatch hvalue⟩
  | cons value rest ih =>
    simp only [validateBuildDependencies, Result.bind_ok, Result.okOr_ok, Result.failIf_ok] at h
    obtain ⟨dependency, hread, ⟨⟩, -, ⟨⟩, hnew, hrest⟩ := h
    obtain ⟨hnodup, hfresh⟩ := ih hrest
    have hname : dependencyName value = some dependency.name := by
      rw [dependencyName, hread]
      rfl
    constructor
    · rw [List.map_cons, List.nodup_cons]
      refine ⟨?_, hnodup⟩
      intro hmem
      obtain ⟨other, hother, heq⟩ := List.mem_map.mp hmem
      obtain ⟨name, hothername, hnot⟩ := hfresh other hother
      rw [hname, hothername] at heq
      exact hnot (by rw [Option.some.inj heq]; exact List.mem_cons_self)
    · intro other hother
      rcases List.mem_cons.mp hother with rfl | hother
      · exact ⟨dependency.name, hname, hnew⟩
      · obtain ⟨name, hothername, hnot⟩ := hfresh other hother
        exact ⟨name, hothername, fun hmem => hnot (List.mem_cons_of_mem _ hmem)⟩

/-- The packages of a generated document: the artifact's own and one for each build
dependency. -/
theorem packages_of_spdxDocument (h : spdxDocument manifest = .ok document) :
    document.getStr? "spdxVersion" = some "SPDX-2.3" ∧
      ∃ digest name version licenses, manifest.getStr? "archive_digest" = some digest ∧
        itemsOf document "packages" =
          artifactPackage name version licenses (bareDigest digest) ::
            (buildDependencies manifest).zipIdx.map
              fun (dependency, index) => dependencyPackage index dependency := by
  simp only [spdxDocument, manifestStr, Result.bind_ok, Result.okOr_ok] at h
  obtain ⟨digest, hdigest, hdocument⟩ := h
  cases hdocument
  exact ⟨rfl, digest, _, _, _, hdigest, rfl⟩

theorem dependencyPackages_of_spdxDocument (h : spdxDocument manifest = .ok document) :
    dependencyPackages document = (buildDependencies manifest).zipIdx.map
      fun (dependency, index) => dependencyPackage index dependency := by
  obtain ⟨-, digest, name, version, licenses, -, hitems⟩ := packages_of_spdxDocument h
  rw [dependencyPackages, hitems, List.filter_cons_of_neg, List.filter_eq_self.mpr]
  · intro package hpackage
    obtain ⟨⟨value, index⟩, -, rfl⟩ := List.mem_map.mp hpackage
    simp [dependencyPackage_id, Text.startsWith, String.toList_append]
  · show ¬ Text.startsWith "SPDXRef-Dependency-" "SPDXRef-Package" = true
    decide

/-- A generated document's dependency packages match the recorded dependencies exactly when
every build dependency is written by name. -/
theorem dependenciesMatch_iff {read dependencies : List ResolvedDependencyIdentity}
    (hdocument : spdxDocument manifest = .ok document)
    (hread : List.Forall₂ ReadsAs (buildDependencies manifest) read)
    (hperm : dependencies.Perm read)
    (hnodup : ((buildDependencies manifest).map dependencyName).Nodup) :
    dependenciesMatch document dependencies ↔
      ∀ value ∈ buildDependencies manifest, ByName value := by
  have hname : ∀ {value dependency}, ReadsAs value dependency →
      dependencyName value = some dependency.name := by
    intro value dependency h
    rw [dependencyName, h.1]
    rfl
  simp only [dependenciesMatch, dependencyPackages_of_spdxDocument hdocument, Bool.and_eq_true,
    beq_iff_eq, List.all_eq_true, List.any_eq_true, List.length_map, List.length_zipIdx]
  constructor
  · rintro ⟨-, hdescribed⟩ value hvalue
    obtain ⟨dependency, hdependency, hreads⟩ := (exists_of_forall₂ hread).1 value hvalue
    obtain ⟨package, hpackage, hdescribes⟩ :=
      hdescribed dependency (hperm.mem_iff.mpr hdependency)
    obtain ⟨⟨other, index⟩, hother, rfl⟩ := List.mem_map.mp hpackage
    obtain ⟨hbyname, hothername⟩ := byName_of_describesDependency hdescribes
    have hmem : other ∈ buildDependencies manifest :=
      List.mem_of_getElem? (List.mk_mem_zipIdx_iff_getElem?.mp hother)
    -- The package describes a dependency of the same name, and names do not repeat.
    obtain ⟨dependency', -, hreads'⟩ := (exists_of_forall₂ hread).1 other hmem
    have hsame : dependency'.name = dependency.name := by
      have := (ResolvedDependencyIdentity.index_of_fromJson hbyname hreads'.1).1
      rw [hothername] at this
      exact (Json.str.inj this).symm
    have heq : other = value := by
      apply List.inj_on_of_nodup_map hnodup hmem hvalue
      rw [hname hreads, hname hreads', hsame]
    exact heq ▸ hbyname
  · intro hall
    refine ⟨by rw [hread.length_eq, hperm.length_eq], fun dependency hdependency => ?_⟩
    obtain ⟨value, hvalue, hreads⟩ :=
      (exists_of_forall₂ hread).2 dependency (hperm.mem_iff.mp hdependency)
    obtain ⟨index, hindex⟩ := List.mem_iff_getElem?.mp hvalue
    exact ⟨_, List.mem_map.mpr ⟨(value, index), List.mk_mem_zipIdx_iff_getElem?.mpr hindex, rfl⟩,
      describesDependency_dependencyPackage (hall value hvalue) hreads.1 hreads.2⟩

/-! ## Accepted manifests and metadata -/

variable {source : ArtifactSource} {createdUnix : Nat} {importedBy : String}
  {record : ArtifactRecord}

/-- A record keeps its manifest's archive, digest and dependencies, and a composed runtime's
manifest names its identity. -/
theorem ArtifactRecord.fromProducerManifest_identity
    (h : ArtifactRecord.fromProducerManifest manifest source createdUnix importedBy =
      .ok record) :
    manifest.getStr? "archive" = some record.archive ∧
      manifest.getStr? "archive_digest" = some record.digest ∧
      normalizeDependencyIdentities manifest = .ok record.dependencyIdentities ∧
      (manifest.getStr? "kind" = some COMPOSED_RUNTIME_KIND →
        ∃ composition digest, manifest.get? "composition" = some composition ∧
          composition.get? "runtime_digest" = some (.str digest)) := by
  simp only [ArtifactRecord.fromProducerManifest, Result.bind_ok, Result.failIf_ok, requireStr,
    Result.okOr_ok, requireArchiveFilename_ok] at h
  obtain ⟨kind, hkind, ⟨⟩, hcomposition, ⟨⟩, -, ⟨name, version, licenses⟩, -, digest, hdigest,
    ⟨⟩, -, target, -, compatibility, -, verification, -, sourceIdentity, -, dependencies,
    hdependencies, component, -, archive, ⟨harchive, -⟩, archiveSize, -, totalSize, -, hr⟩ := h
  cases hr
  refine ⟨harchive, hdigest, hdependencies, fun htag => ?_⟩
  have hcomposed : kind = .composedRuntime := by
    rw [detectKind, htag] at hkind
    exact (Except.ok.inj hkind).symm
  simp only [validateComposition, if_pos hcomposed, Result.bind_ok, Result.okOr_ok,
    Result.failIf_ok, not_or, not_not] at hcomposition
  obtain ⟨composition, hfield, -, -, hany⟩ := hcomposition
  cases hruntime : composition.getStr? "runtime_digest" with
  | none => simp [hruntime] at hany
  | some digest => exact ⟨composition, digest, hfield, get?_of_getStr? hruntime⟩

theorem requireMetadata_ok {parent child : String} {u : Unit}
    (h : requireMetadata value parent child = .ok u) :
    ∃ text, text ≠ "" ∧ (value.index parent).getStr? child = some text := by
  simp only [requireMetadata, Result.failIf_ok, not_not] at h
  rw [Json.index]
  cases hparent : value.get? parent with
  | none => simp [hparent] at h
  | some field =>
    rw [hparent, Option.bind_some] at h
    cases hchild : field.getStr? child with
    | none => simp [hchild] at h
    | some text =>
      simp only [hchild, Option.any_some, exactIdentityComponent, Bool.and_eq_true] at h
      refine ⟨text, ?_, hchild⟩
      rintro rfl
      simp at h

/-- Accepted build metadata names its source, and lists dependencies of distinct names. -/
theorem parseBuildMetadata_ok {text : String} (h : parseBuildMetadata codec text = .ok build) :
    (∃ repository, repository ≠ "" ∧
      (build.index "source").getStr? "repository" = some repository) ∧
      (∃ revision, revision ≠ "" ∧
        (build.index "source").getStr? "revision" = some revision) ∧
      ((itemsOf build "dependencies").map dependencyName).Nodup := by
  simp only [parseBuildMetadata, Result.bind_ok, Result.okOr_ok, Result.failIf_ok] at h
  obtain ⟨value, -, ⟨⟩, hrepository, ⟨⟩, hrevision, ⟨⟩, -, ⟨⟩, -, hdependencies⟩ := h
  have hvalue : value = build ∧ ((itemsOf value "dependencies").map dependencyName).Nodup := by
    have hpointer : value.pointer? ["dependencies"] = value.get? "dependencies" := by
      show (value.get? "dependencies").bind some = _
      cases value.get? "dependencies" <;> rfl
    rw [hpointer] at hdependencies
    rw [itemsOf]
    split at hdependencies
    · rename_i hnone
      cases hdependencies
      rw [hnone]
      exact ⟨rfl, List.nodup_nil⟩
    · rename_i field hfield
      simp only [Result.bind_ok, Result.okOr_ok] at hdependencies
      obtain ⟨values, hvalues, ⟨⟩, hvalidated, hbuild⟩ := hdependencies
      cases hbuild
      rw [hfield, Option.bind_some, hvalues, Option.getD_some]
      exact ⟨rfl, (nodup_of_validateBuildDependencies hvalidated).1⟩
  obtain ⟨rfl, hnodup⟩ := hvalue
  exact ⟨requireMetadata_ok hrepository, requireMetadata_ok hrevision, hnodup⟩

/-! ## The generated statement -/

theorem numeric_buildDefinition (hm : manifest.Numeric) (hb : build.Numeric) :
    (buildDefinition manifest build).Numeric := by
  have hmaterials : (compositionMaterials manifest).Numeric := by
    refine Json.NumericItems.of_forall fun material hmaterial => ?_
    obtain ⟨dependency, hdependency, rfl⟩ := List.mem_map.mp hmaterial
    cases hlist : (manifest.pointer? ["build", "dependencies"]).bind Json.asArr? with
    | none =>
      rw [hlist] at hdependency
      cases hdependency
    | some items =>
      rw [hlist] at hdependency
      obtain ⟨list, hpointer, hitems⟩ := Option.bind_eq_some_iff.mp hlist
      have hnumeric := (hm.pointer? hpointer).of_mem_asArr? hitems hdependency
      exact ⟨⟨trivial, trivial⟩, hnumeric.index, trivial, trivial⟩
  unfold buildDefinition
  split
  · exact ⟨trivial, ⟨hm.index.index, hb.index, trivial⟩, hmaterials, trivial⟩
  · exact ⟨trivial, ⟨hb.index, trivial⟩, trivial⟩

/-- A generated statement prints on one line. -/
theorem numeric_provenanceStatement (h : provenanceStatement manifest = .ok statement)
    (hm : manifest.Numeric) : statement.Numeric := by
  simp only [provenanceStatement, Result.bind_ok, Result.okOr_ok] at h
  obtain ⟨archive, -, digest, -, build, hbuild, hstatement⟩ := h
  cases hstatement
  have hb := hm.get? hbuild
  exact ⟨trivial, ⟨numeric_buildDefinition hm hb, ⟨hb.index, trivial⟩, trivial⟩, trivial,
    ⟨⟨⟨trivial, trivial⟩, trivial, trivial⟩, trivial⟩, trivial⟩

/-- The file of a statement reads back as that statement alone. -/
theorem parseStatements_lineBytes (hnumeric : statement.Numeric) (hobject : statement.isObject)
    (hparse : codec.parse (jsonBytes statement) = some statement) :
    parseStatements codec (lineBytes statement) = .ok [statement] := by
  have hblank : Utf8.isBlank (utf8 statement.render) = false := by
    cases statement with
    | obj fields =>
      have hopen : utf8 "\x7b" = [0x7B] := by decide
      rw [Json.render, utf8_append, utf8_append, hopen]
      rfl
    | _ => cases hobject
  rw [parseStatements, lineBytes, Utf8.lines_utf8 (Json.printable_render hnumeric),
    List.filter_cons_of_pos (by simp [hblank]), List.filter_nil, List.mapM_cons]
  rw [jsonBytes] at hparse
  rw [hparse]
  rfl

/-- A path of at least one more field goes on from an indexed field. -/
theorem pointer?_index (key next : String) (path : List String) :
    value.pointer? (key :: next :: path) = (value.index key).pointer? (next :: path) := by
  rw [Json.pointer?, Json.index]
  cases value.get? key <;> rfl

theorem requiredSource_of_getStr? {key what text : String} {path : List String}
    (hpath : manifest.pointer? (path ++ [key]) = value.pointer? [key]) (hne : text ≠ "")
    (htext : value.getStr? key = some text) :
    requiredSource manifest (path ++ [key]) what = .ok text := by
  refine requiredSource_ok.mpr ⟨hne, ?_⟩
  rw [hpath, Json.pointer?, get?_of_getStr? htext]
  rfl

/-- What a generated statement says: the artifact it is about and its build definition. -/
theorem provenanceStatement_ok (hbuild : manifest.get? "build" = some build)
    (hdigest : manifest.getStr? "archive_digest" = some record.digest)
    (h : provenanceStatement manifest = .ok statement) :
    statement.isObject ∧ hasSubject (bareDigest record.digest) statement ∧
      ∀ path, statement.pointer? ("predicate" :: "buildDefinition" :: path) =
        (buildDefinition manifest build).pointer? path := by
  simp only [provenanceStatement, manifestStr, Result.bind_ok, Result.okOr_ok] at h
  obtain ⟨archive, -, digest, hfield, found, hfound, hs⟩ := h
  obtain rfl := Option.some.inj (hfield.symm.trans hdigest)
  obtain rfl := Option.some.inj (hfound.symm.trans hbuild)
  cases hs
  refine ⟨rfl, ?_, fun path => rfl⟩
  simp [hasSubject, itemsOf, Json.get?, Json.pointer?, Json.asArr?, Json.asStr?, List.lookup_cons]

theorem bindsComposition_of_provenanceStatement
    (hkind : manifest.getStr? "kind" = some COMPOSED_RUNTIME_KIND)
    (hcomposed : ∃ composition digest, manifest.get? "composition" = some composition ∧
      composition.get? "runtime_digest" = some (.str digest))
    (hdefinition : ∀ path, statement.pointer? ("predicate" :: "buildDefinition" :: path) =
      (buildDefinition manifest build).pointer? path) :
    bindsComposition manifest statement := by
  obtain ⟨composition, digest, hcomposition, hdigest⟩ := hcomposed
  rw [bindsComposition, Bool.and_eq_true, beq_iff_eq, beq_iff_eq, hdefinition, hdefinition,
    buildDefinition, if_pos hkind]
  refine ⟨rfl, ?_⟩
  have hmanifest : manifest.pointer? ["composition", "runtime_digest"] = some (.str digest) := by
    rw [Json.pointer?, hcomposition, Option.bind_some, Json.pointer?, hdigest]
    rfl
  have hindex : (manifest.index "composition").index "runtime_digest" = .str digest := by
    rw [Json.index, Json.index, hcomposition, Option.getD_some, hdigest, Option.getD_some]
  rw [hmanifest, hindex]
  rfl

/-- A generated statement is accepted for the manifest and its record; with a policy, its
builder still has to match an allowed publisher. -/
theorem checkProvenance_of_provenanceStatement {text : String} {policy : Option ArtifactPolicy}
    (hrecord : ArtifactRecord.fromProducerManifest manifest source createdUnix importedBy =
      .ok record)
    (hbuild : manifest.get? "build" = some build)
    (hmetadata : parseBuildMetadata codec text = .ok build)
    (hstatement : provenanceStatement manifest = .ok statement) (hm : manifest.Numeric)
    (hparse : codec.parse (jsonBytes statement) = some statement) :
    checkProvenance codec manifest record.digest policy (lineBytes statement) =
      matchPublisher policy statement := by
  obtain ⟨-, hdigest, -, hcomposed⟩ := ArtifactRecord.fromProducerManifest_identity hrecord
  obtain ⟨⟨repository, hrepository, hbuiltRepository⟩, ⟨revision, hrevision, hbuiltRevision⟩, -⟩ :=
    parseBuildMetadata_ok hmetadata
  have hnumeric := numeric_provenanceStatement hstatement hm
  obtain ⟨hobject, hsubject, hdefinition⟩ := provenanceStatement_ok hbuild hdigest hstatement
  have hmanifestPath : ∀ key, manifest.pointer? (["build", "source"] ++ [key]) =
      (build.index "source").pointer? [key] := by
    intro key
    rw [List.cons_append, Json.pointer?, hbuild, Option.bind_some]
    exact pointer?_index "source" key []
  have hstatementPath : ∀ key, statement.pointer?
      (["predicate", "buildDefinition", "externalParameters", "source"] ++ [key]) =
        (build.index "source").pointer? [key] := by
    intro key
    refine (hdefinition _).trans ?_
    unfold buildDefinition
    split <;> rfl
  have hsource : checkSource manifest statement = .ok () := by
    simp only [checkSource, Result.bind_ok, Result.failIf_ok]
    exact ⟨repository,
      requiredSource_of_getStr? (hmanifestPath "repository") hrepository hbuiltRepository,
      revision, requiredSource_of_getStr? (hmanifestPath "revision") hrevision hbuiltRevision,
      repository,
      requiredSource_of_getStr? (hstatementPath "repository") hrepository hbuiltRepository,
      revision, requiredSource_of_getStr? (hstatementPath "revision") hrevision hbuiltRevision,
      by simp⟩
  have hcomposition : ¬ (manifest.getStr? "kind" = some COMPOSED_RUNTIME_KIND ∧
      ¬ bindsComposition manifest statement = true) := by
    rintro ⟨hkind, hnot⟩
    exact hnot (bindsComposition_of_provenanceStatement hkind (hcomposed hkind) hdefinition)
  have hfind : [statement].find? (hasSubject (bareDigest record.digest)) = some statement :=
    List.find?_cons_of_pos hsubject
  rw [checkProvenance, parseStatements_lineBytes hnumeric hobject hparse]
  simp only [bind, Except.bind, Result.failIf, hfind, Result.okOr, hsource, if_neg hcomposition,
    List.cons_ne_nil, if_false]

/-! ## The written evidence -/

theorem read_update_self (d : Directory) (name : String) (content : Bytes) :
    (d.update name (some (.file content))).read name = .ok content := by
  rw [Directory.read_ok, Directory.update]
  exact if_pos rfl

theorem read_update_of_ne {d : Directory} {name other : String} {entry : Option Entry}
    (h : other ≠ name) : (d.update name entry).read other = d.read other := by
  rw [Directory.read, Directory.read, Directory.update]
  dsimp only
  rw [if_neg h]
  rfl

variable {dist dist' : Directory} {env : String → Option String} {manifest' : Json}
  {evidence : List EvidenceDigest}

/-- The sidecars generated for a manifest with build metadata of its own hold its two
documents. -/
theorem generateEvidence_ok (hbuild : manifest.get? "build" = some build)
    (h : generateEvidence codec env dist manifest = .ok (evidence, manifest', dist')) :
    manifest' = manifest ∧ ∃ document statement, spdxDocument manifest = .ok document ∧
      provenanceStatement manifest = .ok statement ∧
      dist'.read SBOM_FILE = .ok (prettyBytes document) ∧
      dist'.read PROVENANCE_FILE = .ok (lineBytes statement) := by
  have hown : ambientBuild env manifest = manifest := by
    simp only [ambientBuild, hbuild]
  simp only [generateEvidence, hown, hbuild, Option.isSome_some, if_true, Result.bind_ok] at h
  obtain ⟨document, hdocument, first, hfirst, _, -, statement, hstatement, second, hsecond, _,
    -, hresult⟩ := h
  cases hresult
  unfold Directory.write at hfirst hsecond
  split at hfirst
  · cases hfirst
  split at hsecond
  · cases hsecond
  cases hfirst
  cases hsecond
  refine ⟨rfl, document, statement, hdocument, hstatement, ?_, read_update_self _ _ _⟩
  rw [read_update_of_ne (by decide)]
  exact read_update_self _ _ _

theorem verifySbom_iff
    (hrecord : ArtifactRecord.fromProducerManifest manifest source createdUnix importedBy =
      .ok record)
    (hnodup : ((buildDependencies manifest).map dependencyName).Nodup)
    (hdocument : spdxDocument manifest = .ok document)
    (hread : dist.read SBOM_FILE = .ok (prettyBytes document))
    (hparse : codec.parse (prettyBytes document) = some document) :
    verifySbom codec dist record.digest record.dependencyIdentities = .ok () ↔
      ∀ value ∈ buildDependencies manifest, ByName value := by
  obtain ⟨-, hdigest, hdependencies, -⟩ := ArtifactRecord.fromProducerManifest_identity hrecord
  obtain ⟨read, hforall, hperm⟩ := perm_of_normalizeDependencyIdentities hdependencies
  have hmatch := dependenciesMatch_iff hdocument hforall hperm hnodup
  obtain ⟨hversion, digest, name, version, licenses, hfield, hitems⟩ :=
    packages_of_spdxDocument hdocument
  obtain rfl := Option.some.inj (hfield.symm.trans hdigest)
  have hsubject : ∃ package ∈ itemsOf document "packages",
      carriesSha256 package (bareDigest record.digest) := by
    rw [hitems]
    refine ⟨_, List.mem_cons_self, ?_⟩
    simp [carriesSha256, artifactPackage, sha256Checksums, itemsOf, Json.get?, Json.asArr?,
      Json.getStr?, Json.asStr?, List.lookup_cons]
  rw [verifySbom, hread]
  refine Iff.trans (checkSbom_ok (u := ())) ?_
  constructor
  · rintro ⟨found, hverified⟩
    obtain rfl := Option.some.inj (hparse.symm.trans hverified.parsed)
    by_cases hempty : record.dependencyIdentities = []
    · -- Nothing is compared for an artifact without dependencies, and nothing is listed.
      rw [hempty] at hperm
      rw [← hperm.nil_eq] at hforall
      rw [List.forall₂_nil_right_iff.mp hforall]
      exact fun _ hvalue => absurd hvalue List.not_mem_nil
    · exact hmatch.mp (hverified.dependencies_match hempty)
  · intro hall
    exact ⟨document, hparse, hversion, hsubject, fun _ => hmatch.mpr hall⟩

/-- **Generated evidence verifies against the record of the same manifest** exactly when every
dependency of the build metadata is written by name. -/
theorem generateEvidence_verifies_iff {text : String}
    (hrecord : ArtifactRecord.fromProducerManifest manifest source createdUnix importedBy =
      .ok record)
    (hbuild : manifest.get? "build" = some build)
    (hmetadata : parseBuildMetadata codec text = .ok build)
    (hgenerated : generateEvidence codec env dist manifest = .ok (evidence, manifest', dist'))
    (hnumeric : manifest.Numeric)
    (hsbom : ∀ document, spdxDocument manifest = .ok document →
      codec.parse (prettyBytes document) = some document)
    (hline : ∀ statement, provenanceStatement manifest = .ok statement →
      codec.parse (jsonBytes statement) = some statement) :
    (verifySbom codec dist' record.digest record.dependencyIdentities = .ok () ∧
      verifyProvenance codec dist' manifest' record.digest none = .ok none) ↔
      ∀ dependency ∈ buildDependencies manifest,
        dependency.isObject ∧ (dependency.index "source").isObject := by
  obtain ⟨rfl, document, statement, hdocument, hstatement, hreadSbom, hreadLine⟩ :=
    generateEvidence_ok hbuild hgenerated
  obtain ⟨-, -, hnodup⟩ := parseBuildMetadata_ok hmetadata
  have hdependencies : buildDependencies manifest' = itemsOf build "dependencies" := by
    rw [buildDependencies, itemsOf, Json.pointer?, hbuild, Option.bind_some, Json.pointer?]
    cases build.get? "dependencies" <;> rfl
  have hprovenance : verifyProvenance codec dist' manifest' record.digest none = .ok none := by
    rw [verifyProvenance, hreadLine]
    have hvalid : Utf8.valid (lineBytes statement) := Utf8.valid_utf8 _
    simp only [bind, Except.bind, Result.failIf, hvalid, not_true_eq_false, if_false]
    exact checkProvenance_of_provenanceStatement hrecord hbuild hmetadata hstatement hnumeric
      (hline statement hstatement)
  rw [← hdependencies] at hnodup
  rw [and_iff_left hprovenance]
  exact verifySbom_iff hrecord hnodup hdocument hreadSbom (hsbom document hdocument)

/-! ## Two manifests -/

/-- Build metadata with these dependencies. -/
def toyBuild (dependencies : List Json) : Json :=
  .obj [
    ("builder", .obj [("id", .str "release"), ("identity", .obj [("host", .str "builder-07")])]),
    ("dependencies", .arr dependencies),
    ("source", .obj [("repository", .str "a/b"), ("revision", .str "9f1c2a")])]

/-- A package manifest with these dependencies. -/
def toyManifest (dependencies : List Json) : Json :=
  .obj [
    ("archive", .str "toy.tar.zst"),
    ("archive_digest",
      .str "sha256:abababababababababababababababababababababababababababababababab"),
    ("archive_size", .int 3),
    ("build", toyBuild dependencies),
    ("files", .arr []),
    ("name", .str "toy"),
    ("target", .str "linux-x86_64"),
    ("total_size", .int 3),
    ("version", .str "1.0.0")]

/-- A parser that tells the two documents of a manifest and its metadata by their first
bytes. -/
def toyCodec (manifest build : Json) : Codec where
  sha256 _ := List.replicate 32 0
  parse
    | 0x7B :: 0x0A :: _ => (spdxDocument manifest).toOption
    | 0x7B :: 0x22 :: 0x5F :: _ => (provenanceStatement manifest).toOption
    | _ => some build

/-- A dependency by name, and the same one by position. -/
def toyDependency : Json :=
  .obj [
    ("name", .str "onetbb"),
    ("source", .obj [("repository", .str "oneTBB"), ("revision", .str "v2022")]),
    ("version", .str "2022.1.0")]

def positionalDependency : Json :=
  .arr [.str "onetbb", .str "2022.1.0", .arr [.str "oneTBB", .str "v2022"]]

/-- The manifest is accepted with its metadata, and the codec reads back its documents. -/
def toyAccepted (dependencies : List Json) : Bool :=
  let manifest := toyManifest dependencies
  let build := toyBuild dependencies
  let codec := toyCodec manifest build
  (ArtifactRecord.fromProducerManifest manifest .imported 0 "ost").toOption.isSome &&
    (parseBuildMetadata codec build.render).toOption == some build &&
    ((generateEvidence codec (fun _ => none) (.ofFiles "dist" []) manifest).toOption.map
      (·.2.1)) == some manifest &&
    (spdxDocument manifest).toOption.all (fun document =>
      codec.parse (prettyBytes document) == some document) &&
    (provenanceStatement manifest).toOption.all fun statement =>
      codec.parse (jsonBytes statement) == some statement

theorem numeric_toyManifest {dependencies : List Json}
    (h : ∀ dependency ∈ dependencies, dependency.Numeric) :
    (toyManifest dependencies).Numeric := by
  have hbuild : (toyBuild dependencies).Numeric :=
    ⟨⟨trivial, ⟨trivial, trivial⟩, trivial⟩, Json.NumericItems.of_forall h,
      ⟨trivial, trivial, trivial⟩, trivial⟩
  exact ⟨trivial, trivial, trivial, hbuild, trivial, trivial, trivial, trivial, trivial, trivial⟩

/-- What acceptance of a toy manifest comes to. -/
theorem toyAccepted_ok {dependencies : List Json} (h : toyAccepted dependencies) :
    (∃ record, ArtifactRecord.fromProducerManifest (toyManifest dependencies) .imported 0 "ost" =
      .ok record) ∧
    parseBuildMetadata (toyCodec (toyManifest dependencies) (toyBuild dependencies))
      (toyBuild dependencies).render = .ok (toyBuild dependencies) ∧
    (∃ evidence dist', generateEvidence
      (toyCodec (toyManifest dependencies) (toyBuild dependencies)) (fun _ => none)
      (.ofFiles "dist" []) (toyManifest dependencies) =
        .ok (evidence, toyManifest dependencies, dist')) ∧
    (∀ document, spdxDocument (toyManifest dependencies) = .ok document →
      (toyCodec (toyManifest dependencies) (toyBuild dependencies)).parse (prettyBytes document) =
        some document) ∧
    ∀ statement, provenanceStatement (toyManifest dependencies) = .ok statement →
      (toyCodec (toyManifest dependencies) (toyBuild dependencies)).parse (jsonBytes statement) =
        some statement := by
  have hok : ∀ {α : Type} {x : Result α} {a : α}, x.toOption = some a → x = .ok a := by
    intro α x a hx
    cases x with
    | error e => cases hx
    | ok b => rw [← Option.some.inj hx]
  simp only [toyAccepted, Bool.and_eq_true, beq_iff_eq] at h
  obtain ⟨⟨⟨⟨hrecord, hmetadata⟩, hgenerated⟩, hdocument⟩, hstatement⟩ := h
  refine ⟨Result.exists_ok hrecord, hok hmetadata, ?_, ?_, ?_⟩
  · obtain ⟨⟨evidence, manifest', dist'⟩, hsome, hmanifest⟩ := Option.map_eq_some_iff.mp hgenerated
    cases hmanifest
    exact ⟨evidence, dist', hok hsome⟩
  · intro document hd
    rw [hd] at hdocument
    exact beq_iff_eq.mp hdocument
  · intro statement hs
    rw [hs] at hstatement
    exact beq_iff_eq.mp hstatement

theorem toyAccepted_named : toyAccepted [toyDependency] := by decide +kernel

theorem toyAccepted_positional : toyAccepted [positionalDependency] := by decide +kernel

/-- The evidence of a manifest whose dependency is written by name verifies. -/
theorem generateEvidence_verifies_toy :
    ∃ record evidence dist',
      ArtifactRecord.fromProducerManifest (toyManifest [toyDependency]) .imported 0 "ost" =
        .ok record ∧
      generateEvidence (toyCodec (toyManifest [toyDependency]) (toyBuild [toyDependency]))
        (fun _ => none) (.ofFiles "dist" []) (toyManifest [toyDependency]) =
          .ok (evidence, toyManifest [toyDependency], dist') ∧
      verifySbom (toyCodec (toyManifest [toyDependency]) (toyBuild [toyDependency])) dist'
        record.digest record.dependencyIdentities = .ok () ∧
      verifyProvenance (toyCodec (toyManifest [toyDependency]) (toyBuild [toyDependency])) dist'
        (toyManifest [toyDependency]) record.digest none = .ok none := by
  obtain ⟨⟨record, hrecord⟩, hmetadata, ⟨evidence, dist', hgenerated⟩, hsbom, hline⟩ :=
    toyAccepted_ok toyAccepted_named
  have hnumeric : (toyManifest [toyDependency]).Numeric := by
    apply numeric_toyManifest
    intro dependency hdependency
    rw [List.mem_singleton.mp hdependency]
    exact ⟨trivial, ⟨trivial, trivial, trivial⟩, trivial, trivial⟩
  refine ⟨record, evidence, dist', hrecord, hgenerated, ?_⟩
  refine (generateEvidence_verifies_iff hrecord rfl hmetadata hgenerated hnumeric hsbom hline).mpr ?_
  intro dependency hdependency
  rw [List.mem_singleton.mp hdependency]
  exact ⟨rfl, rfl⟩

/-- The reader of records takes a dependency written by position; the generator does not, and the
document it writes for such a manifest fails its check. -/
theorem generateEvidence_unverifiable :
    ¬ ∀ (codec : Codec) (env : String → Option String) (dist dist' : Directory)
        (manifest manifest' build : Json) (source : ArtifactSource) (createdUnix : Nat)
        (importedBy text : String) (record : ArtifactRecord) (evidence : List EvidenceDigest),
      ArtifactRecord.fromProducerManifest manifest source createdUnix importedBy = .ok record →
      manifest.get? "build" = some build →
      parseBuildMetadata codec text = .ok build →
      generateEvidence codec env dist manifest = .ok (evidence, manifest', dist') →
      manifest.Numeric →
      (∀ document, spdxDocument manifest = .ok document →
        codec.parse (prettyBytes document) = some document) →
      (∀ statement, provenanceStatement manifest = .ok statement →
        codec.parse (jsonBytes statement) = some statement) →
      verifySbom codec dist' record.digest record.dependencyIdentities = .ok () ∧
        verifyProvenance codec dist' manifest' record.digest none = .ok none := by
  intro hclaim
  obtain ⟨⟨record, hrecord⟩, hmetadata, ⟨evidence, dist', hgenerated⟩, hsbom, hline⟩ :=
    toyAccepted_ok toyAccepted_positional
  have hnumeric : (toyManifest [positionalDependency]).Numeric := by
    apply numeric_toyManifest
    intro dependency hdependency
    rw [List.mem_singleton.mp hdependency]
    exact ⟨trivial, trivial, ⟨trivial, trivial, trivial⟩, trivial⟩
  obtain ⟨hverified, -⟩ := hclaim _ _ _ _ _ _ _ _ _ _ _ _ _ hrecord rfl hmetadata hgenerated
    hnumeric hsbom hline
  obtain ⟨-, document, statement, hdocument, -, hread, -⟩ := generateEvidence_ok rfl hgenerated
  have hnodup : ((buildDependencies (toyManifest [positionalDependency])).map
      dependencyName).Nodup := List.nodup_singleton _
  have hnamed := (verifySbom_iff hrecord hnodup hdocument hread (hsbom document hdocument)).mp
    hverified positionalDependency (List.mem_singleton.mpr rfl)
  exact absurd hnamed.1 (by decide)

end OpenStrata
