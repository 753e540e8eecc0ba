import OpenStrata.Artifact.SelectorTag
import OpenStrata.Artifact.Store

/-!
# OCI bundles

An artifact is pushed to a registry as an image manifest whose layers are its files, and pulled
by finding each file's layer again. A layer is found by its media type; a bundle pushed by
another tool may name its layers by their title instead.

## Main definitions

* `Layer`, `buildOciManifest`: the image manifest of a list of layers
* `OciManifest`, `parseOciManifest`, `OciManifest.findLayer`: what the pull side reads
* `PushPlan`, `planPush`: what the push side describes, after its checks
-/

namespace OpenStrata

def OCI_ARTIFACT_TYPE : String := "application/vnd.openstrata.artifact.v1"

def MEDIA_TYPE_ARCHIVE : String := "application/vnd.openstrata.artifact.archive.v1+tar+zstd"

def MEDIA_TYPE_DEBUG_ARCHIVE : String := "application/vnd.openstrata.artifact.debug.v1+tar+zstd"

def MEDIA_TYPE_PRODUCER_MANIFEST : String :=
  "application/vnd.openstrata.artifact.manifest.v1+json"

def MEDIA_TYPE_SBOM : String := "application/spdx+json"

def MEDIA_TYPE_PROVENANCE : String := "application/vnd.in-toto+json"

def OCI_IMAGE_MANIFEST_MEDIA_TYPE : String := "application/vnd.oci.image.manifest.v1+json"

def MEDIA_TYPE_EMPTY_CONFIG : String := "application/vnd.oci.empty.v1+json"

/-- The bytes of the empty config. -/
def EMPTY_CONFIG_BYTES : Bytes := [0x7b, 0x7d]

def TITLE_ANNOTATION : String := "org.opencontainers.image.title"

def OPENUSD_SELECTOR_ANNOTATION : String := "io.openstrata.openusd.selector"

/-- A layer, as push describes it and pull reads it. -/
structure Layer where
  mediaType : String
  digest : String
  size : Nat
  title : Option String
  deriving DecidableEq, Repr

/-! ## The image manifest -/

/-- An annotation, if there is one. -/
def annotationsField (name : String) (value : Option String) : List (String × Json) :=
  (value.map fun v => ("annotations", Json.obj [(name, .str v)])).toList

def Layer.toJson (l : Layer) : Json :=
  .obj (annotationsField TITLE_ANNOTATION l.title ++
    [("digest", .str l.digest), ("mediaType", .str l.mediaType), ("size", .int l.size)])

def buildOciManifest (layers : List Layer) (configDigest : String) (configSize : Nat)
    (openusdSelector : Option String) : Json :=
  .obj (annotationsField OPENUSD_SELECTOR_ANNOTATION openusdSelector ++
    [("artifactType", .str OCI_ARTIFACT_TYPE),
      ("config", .obj [("digest", .str configDigest), ("mediaType", .str MEDIA_TYPE_EMPTY_CONFIG),
        ("size", .int configSize)]),
      ("layers", .arr (layers.map Layer.toJson)),
      ("mediaType", .str OCI_IMAGE_MANIFEST_MEDIA_TYPE), ("schemaVersion", .int 2)])

/-- The slice of an image manifest that the pull path needs. -/
structure OciManifest where
  layers : List Layer
  openusdSelector : Option String
  deriving DecidableEq, Repr

/-- Find a layer by media type, falling back to its title annotation. -/
def OciManifest.findLayer (m : OciManifest) (mediaType : String)
    (titleMatches : String → Bool) : Option Layer :=
  (m.layers.find? fun l => l.mediaType == mediaType).or
    (m.layers.find? fun l => l.title.any titleMatches)

def ociManifestInvalid (locator why : String) : Error :=
  validationError "ARTIFACT_MANIFEST_INVALID"
    ("OCI manifest at '" ++ locator ++ "' is not an OpenStrata artifact bundle: " ++ why)

/-- A layer of an image manifest; one without a media type has an empty one. -/
def Layer.fromJson (locator : String) (l : Json) : Result Layer := do
  let digest ← Result.okOr (ociManifestInvalid locator "a layer carries no sha256 digest")
    ((l.getStr? "digest").filter isSha256Ref)
  let size ← Result.okOr (ociManifestInvalid locator "a layer carries no size")
    ((l.get? "size").bind Json.asU64?)
  return {
    digest, size
    mediaType := (l.getStr? "mediaType").getD ""
    title := (l.get? "annotations").bind (·.getStr? TITLE_ANNOTATION) }

/-- The selector annotation of an image manifest, if it has one. -/
def readSelector (locator : String) (manifest : Json) : Result (Option String) :=
  match (manifest.get? "annotations").bind (·.get? OPENUSD_SELECTOR_ANNOTATION) with
  | none => .ok none
  | some value => do
    let selector ← Result.okOr
      (ociManifestInvalid locator "the OpenUSD selector annotation is not a string") value.asStr?
    Result.failIf (¬ isValidOciTag selector)
      (ociManifestInvalid locator "the OpenUSD selector annotation is not a valid OCI tag")
    return some selector

def parseOciManifest (codec : Codec) (bytes : Bytes) (locator : String) : Result OciManifest := do
  let json ← Result.okOr (ociManifestInvalid locator "not valid JSON") (codec.parse bytes)
  let layers ← Result.okOr (ociManifestInvalid locator
      ("no layers array (a multi-arch index is not an artifact bundle — point at a platform " ++
        "manifest)"))
    ((json.get? "layers").bind Json.asArr?)
  return {
    layers := ← layers.mapM (Layer.fromJson locator)
    openusdSelector := ← readSelector locator json }

/-! ## The push side -/

/-- The files that a push describes, each with its name, digest and size. -/
structure PushPlan where
  archive : EvidenceDigest
  debug : Option DebugArchive
  sbom : Option EvidenceDigest
  provenance : Option EvidenceDigest
  producerManifest : EvidenceDigest
  openusdSelector : Option String

/-- The layer of a file. -/
def Layer.ofFile (mediaType : String) (file : EvidenceDigest) : Layer :=
  { mediaType, digest := file.digest, size := file.size, title := some file.path }

/-- The layer of a debug archive. -/
def Layer.ofDebug (debug : DebugArchive) : Layer :=
  { mediaType := MEDIA_TYPE_DEBUG_ARCHIVE, digest := debug.digest, size := debug.archiveSize
    title := some debug.archive }

namespace PushPlan

def layers (plan : PushPlan) : List Layer :=
  [.ofFile MEDIA_TYPE_ARCHIVE plan.archive] ++ plan.debug.toList.map .ofDebug ++
    plan.sbom.toList.map (.ofFile MEDIA_TYPE_SBOM) ++
    plan.provenance.toList.map (.ofFile MEDIA_TYPE_PROVENANCE) ++
    [.ofFile MEDIA_TYPE_PRODUCER_MANIFEST plan.producerManifest]

/-- The image manifest of a push. -/
def ociManifest (codec : Codec) (plan : PushPlan) : Json :=
  buildOciManifest plan.layers (sha256Hex codec EMPTY_CONFIG_BYTES) EMPTY_CONFIG_BYTES.length
    plan.openusdSelector

end PushPlan

/-- The producer manifest among an artifact's files, with its bytes. -/
def readProducerManifest (codec : Codec) (files : Directory) : Result (Bytes × Json) := do
  let bytes ← files.read MANIFEST_FILE
  return (bytes, ← Result.okOr (.parse (files.join MANIFEST_FILE)) (codec.parse bytes))

/-- What is proved about stored files before a single byte of them leaves the host. -/
def checkStored (codec : Codec) (record : ArtifactRecord) (files : Directory) : Result Unit := do
  let (_, manifest) ← readProducerManifest codec files
  let debug ← manifestDebugArchive manifest
  let actual ← EvidenceDigest.fromFile codec files record.archive
  Result.failIf (actual.digest ≠ record.digest ∨ actual.size ≠ record.archiveSize)
    ((validationError "ARTIFACT_DIGEST_MISMATCH"
      ("stored archive for " ++ record.shortDigest ++ " hashes to " ++ actual.digest ++ " (" ++
        toString actual.size ++ " bytes) — the local store is corrupted")).withHint
      "re-import the artifact from its original producer output")
  checkDebug codec files debug

/-- The files that a push of a stored artifact describes. -/
def planPush (codec : Codec) (record : ArtifactRecord) (files : Directory) :
    Result PushPlan := do
  checkStored codec record files
  let (bytes, manifest) ← readProducerManifest codec files
  let debug ← manifestDebugArchive manifest
  checkDebug codec files debug
  let sbom ← recordEvidence record.sbom record.sbomDigest record.sbomSize "SBOM" SBOM_FILE
  let provenance ← recordEvidence record.provenance record.provenanceDigest record.provenanceSize
    "provenance" PROVENANCE_FILE
  Result.forAll (verifyEvidenceDigest codec files) (sbom.toList ++ provenance.toList)
  whenPresent sbom (verifySbom codec files record.digest record.dependencyIdentities)
  whenPresent provenance do
    let _ ← verifyProvenance codec files manifest record.digest none
  return {
    archive := { path := record.archive, digest := record.digest, size := record.archiveSize }
    debug, sbom, provenance
    producerManifest := EvidenceDigest.ofBytes codec MANIFEST_FILE bytes
    openusdSelector := record.openusdSelector codec }

end OpenStrata
