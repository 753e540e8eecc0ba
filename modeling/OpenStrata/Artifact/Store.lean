import OpenStrata.Artifact.StoreOps
import OpenStrata.Lib.SortBy
import OpenStrata.Transport.Verify

/-!
# The artifact store

The programs of the local content-addressed store: import of a dist directory, removal,
resolution of a digest reference, and export. They are translated step by step, so that the
same text can be run alone, with faults, or interleaved with others.

## Main definitions

* `ArtifactStore`: a store root and the functions of third-party crates
* `readIncoming`: what an import checks before it touches the store
* `mergeIdentity`: what a second manifest may add to a stored record
* `ArtifactStore.importPresent`, `ArtifactStore.importFresh`, `ArtifactStore.importDist`
* `ArtifactStore.remove`, `ArtifactStore.resolve`, `ArtifactStore.export`
-/

namespace OpenStrata

def SHA256SUMS : String := "SHA256SUMS"

/-- The tool that creates registry entries. -/
def STORE_PRODUCER : String := "ost 0.23.19"

/-- A store: its root, and the hash, the parser and the record printer it uses. -/
structure ArtifactStore extends Codec where
  root : String
  /-- `serde_json::to_string_pretty` of a record and a newline. -/
  recordJson : ArtifactRecord → Bytes

/-- A program over the files of the store. -/
abbrev Action := Program StoreOp StoreOp.Reply Error

namespace Action

/-- Call one file-system operation. -/
def call (op : StoreOp) : Action op.Reply := Program.perform op

def ofResult {α : Type} (r : Result α) : Action α := .done r

/-- Turn the answer of an operation into an i/o error when it failed. -/
def orIo (path : String) (ok : Bool) : Action Unit :=
  ofResult (Result.failIf (ok = false) (.io path))

/-- A step that is only taken under a condition. -/
def when (condition : Bool) (step : Action Unit) : Action Unit :=
  if condition then step else pure ()

end Action

/-! ## What an import checks first -/

def checkArchiveClaim (codec : Codec) (debug : DebugArchive) (content : Bytes) : Result Unit :=
  let actual := EvidenceDigest.ofBytes codec debug.archive content
  Result.failIf (actual.digest ≠ debug.digest ∨ actual.size ≠ debug.archiveSize)
    ((validationError "ARTIFACT_DIGEST_MISMATCH"
      ("debug archive '" ++ debug.archive ++ "' hashes to " ++ actual.digest ++ " (" ++
        toString actual.size ++ " bytes) but its manifest records " ++ debug.digest ++ " (" ++
        toString debug.archiveSize ++ " bytes)")).withHint
      "re-run the package step to produce a consistent debug archive + manifest")

/-- The archive of a dist directory is the one its record describes. -/
def checkArchive (record : ArtifactRecord) (actual : EvidenceDigest) : Result Unit := do
  Result.failIf (actual.digest ≠ record.digest)
    ((validationError "ARTIFACT_DIGEST_MISMATCH"
      ("archive '" ++ record.archive ++ "' hashes to " ++ actual.digest ++
        " but its manifest records " ++ record.digest ++
        " — the artifact was modified after packaging")).withHint
      "re-run the package step to produce a consistent archive + manifest")
  Result.failIf (actual.size ≠ record.archiveSize)
    (validationError "ARTIFACT_DIGEST_MISMATCH"
      ("archive '" ++ record.archive ++ "' is " ++ toString actual.size ++
        " bytes but its manifest records " ++ toString record.archiveSize))

namespace ArtifactRecord

/-- Refer to an SBOM sidecar, if there is one. -/
def withSbom (r : ArtifactRecord) : Option EvidenceDigest → ArtifactRecord
  | none => r
  | some e => { r with sbom := some e.path, sbomDigest := some e.digest, sbomSize := some e.size }

/-- Refer to a provenance sidecar, if there is one. -/
def withProvenance (r : ArtifactRecord) : Option EvidenceDigest → ArtifactRecord
  | none => r
  | some e => { r with
      provenance := some e.path, provenanceDigest := some e.digest,
      provenanceSize := some e.size }

end ArtifactRecord

/-- A dist directory that passed the checks of an import. -/
structure Incoming where
  dist : Directory
  manifestBytes : Bytes
  manifest : Json
  record : ArtifactRecord
  debug : Option DebugArchive
  sbom : Option EvidenceDigest
  provenance : Option EvidenceDigest

/-- Some evidence comes with the directory. -/
def Incoming.hasEvidence (incoming : Incoming) : Bool :=
  incoming.sbom.isSome || incoming.provenance.isSome

/-- The sidecar of this name, if the directory carries it. -/
def importedEvidence (codec : Codec) (dist : Directory) (name : String) :
    Result (Option EvidenceDigest) :=
  evidenceIn codec dist name ("evidence path '" ++ dist.join name ++ "' is not a regular file")

/-- Check a sidecar that is there. -/
def whenPresent (evidence : Option EvidenceDigest) (check : Result Unit) : Result Unit :=
  if evidence.isSome then check else .ok ()

/-- Check the debug archive of a dist directory, if its manifest promises one. -/
def checkDebug (codec : Codec) (dist : Directory) : Option DebugArchive → Result Unit
  | none => .ok ()
  | some debug => do checkArchiveClaim codec debug (← dist.read debug.archive)

/-- Everything an import reads and checks before it touches the store. -/
def readIncoming (codec : Codec) (path : DistPath) (source : ArtifactSource)
    (createdUnix : Nat) : Result Incoming := do
  let dist ← locateManifest path
  let manifestBytes ← dist.read MANIFEST_FILE
  let manifest ← Result.okOr (.parse (dist.join MANIFEST_FILE)) (codec.parse manifestBytes)
  let record ← ArtifactRecord.fromProducerManifest manifest source createdUnix STORE_PRODUCER
  let debug ← manifestDebugArchive manifest
  let sbom ← importedEvidence codec dist SBOM_FILE
  whenPresent sbom (verifySbom codec dist record.digest record.dependencyIdentities)
  let provenance ← importedEvidence codec dist PROVENANCE_FILE
  whenPresent provenance do
    let _ ← verifyProvenance codec dist manifest record.digest none
  -- the manifest's digest is a claim, the bytes are the truth
  checkArchive record (← EvidenceDigest.fromFile codec dist record.archive)
  checkDebug codec dist debug
  return {
    dist, manifestBytes, manifest, debug, sbom, provenance
    record := (record.withSbom sbom).withProvenance provenance }

/-! ## Merging a second manifest -/

/-- A stored identity contradicts an incoming one, or evidence comes without one. -/
def optionConflict {α : Type} [DecidableEq α] (evidence : Bool) : Option α → Option α → Bool
  | some stored, some incoming => stored != incoming
  | some _, none => evidence
  | none, _ => false

def identityConflict (existing record : ArtifactRecord) (evidence : Bool) : Bool :=
  optionConflict evidence existing.sourceIdentity record.sourceIdentity ||
    (existing.dependencyIdentities != [] &&
      if record.dependencyIdentities = [] then evidence
      else existing.dependencyIdentities != record.dependencyIdentities) ||
    optionConflict evidence existing.openusdCompatibility record.openusdCompatibility ||
    optionConflict evidence existing.openusdVerification record.openusdVerification

/-- An identity that only the incoming record has. -/
def isEnrichment {α : Type} (stored incoming : Option α) : Bool :=
  stored.isNone && incoming.isSome

def dependencyEnrichment (existing record : ArtifactRecord) : Bool :=
  existing.dependencyIdentities == [] && record.dependencyIdentities != []

def enrichmentRequested (existing record : ArtifactRecord) : Bool :=
  isEnrichment existing.sourceIdentity record.sourceIdentity ||
    dependencyEnrichment existing record ||
    isEnrichment existing.openusdCompatibility record.openusdCompatibility ||
    isEnrichment existing.openusdVerification record.openusdVerification

/-- Provenance binds a source and an SBOM binds dependencies; nothing binds the rest. -/
def enrichmentBound (existing : ArtifactRecord) (incoming : Incoming) : Bool :=
  (!isEnrichment existing.sourceIdentity incoming.record.sourceIdentity ||
      incoming.provenance.isSome) &&
    (!dependencyEnrichment existing incoming.record || incoming.sbom.isSome) &&
    !isEnrichment existing.openusdCompatibility incoming.record.openusdCompatibility &&
    !isEnrichment existing.openusdVerification incoming.record.openusdVerification

/-- Take over the identities that only the incoming record has. -/
def enrichIdentity (existing record : ArtifactRecord) : ArtifactRecord :=
  { existing with
    sourceIdentity := existing.sourceIdentity.or record.sourceIdentity
    dependencyIdentities :=
      if existing.dependencyIdentities = [] then record.dependencyIdentities
      else existing.dependencyIdentities
    openusdCompatibility := existing.openusdCompatibility.or record.openusdCompatibility
    openusdVerification := existing.openusdVerification.or record.openusdVerification }

/-- The stored record with the identities the incoming one may add, and whether it added
any. -/
def mergeIdentity (existing : ArtifactRecord) (incoming : Incoming) (committed : Bool) :
    Result (ArtifactRecord × Bool) := do
  let record := incoming.record
  Result.failIf (identityConflict existing record incoming.hasEvidence)
    ((validationError "ARTIFACT_IDENTITY_CONFLICT"
      ("artifact " ++ existing.shortDigest ++ " is already stored with different source, " ++
        "dependency, OpenUSD compatibility, or verification identity")).withHint
      ("the same archive digest cannot carry two producer identities; verify the producer " ++
        "manifest and evidence"))
  let requested := enrichmentRequested existing record
  let bound := enrichmentBound existing incoming
  Result.failIf (!committed && incoming.hasEvidence && requested && !bound)
    ((validationError "ARTIFACT_IDENTITY_EVIDENCE_INCOMPLETE"
      ("artifact " ++ existing.shortDigest ++ " cannot enrich source, dependency, OpenUSD " ++
        "compatibility, or verification identity because the incoming evidence does not bind " ++
        "every new field")).withHint
      ("attach provenance for a new source identity and an SBOM for new dependency " ++
        "identities; OpenUSD compatibility and verification enrichment require the original " ++
        "producer manifest"))
  if committed || (requested && bound) then
    return (enrichIdentity existing record, requested)
  else return (existing, false)

/-- The lines of `SHA256SUMS`. -/
def checksumContents (record : ArtifactRecord) (debug : Option DebugArchive) : String :=
  let line (digest path : String) := bareDigest digest ++ "  " ++ path ++ "\n"
  let sidecar : Option String → Option String → String
    | some path, some digest => line digest path
    | _, _ => ""
  line record.digest record.archive ++
    ((debug.map fun d => line d.digest d.archive).getD "") ++
    sidecar record.sbom record.sbomDigest ++ sidecar record.provenance record.provenanceDigest

/-- The index after an upsert: the record replaces any of its digest, sorted by digest. -/
def upsertRecord (record : ArtifactRecord) (artifacts : List ArtifactRecord) :
    List ArtifactRecord :=
  SortBy.sortBy (·.digest) (artifacts.filter (·.digest ≠ record.digest) ++ [record])

/-- The index without the records of a digest. -/
def dropDigest (digest : String) (artifacts : List ArtifactRecord) : List ArtifactRecord :=
  SortBy.sortBy (·.digest) (artifacts.filter (·.digest ≠ digest))

/-- What a digest reference asks for: at least six hexadecimal digits. -/
def digestNeedle (digestRef : String) : Result String := do
  let needle := bareDigest digestRef
  Result.failIf (needle.length < 6 ∨ ¬ Text.all Text.isHexDigit needle)
    (.usage ("'" ++ digestRef ++ "' is not a digest reference (expected sha256:<hex> or a " ++
      "hex prefix of >= 6 chars)"))
  return Text.toAsciiLowercase needle

/-- The one record a digest reference stands for. -/
def resolveIn (digestRef : String) (artifacts : List ArtifactRecord) :
    Result ArtifactRecord := do
  let needle ← digestNeedle digestRef
  match artifacts.filter fun r => Text.startsWith needle r.digestHex with
  | [one] => return one
  | a :: b :: _ => .error (.usage ("digest prefix '" ++ digestRef ++
      "' is ambiguous (matches at least " ++ a.shortDigest ++ " and " ++ b.shortDigest ++ ")"))
  | [] => .error ((Error.ofCode "ARTIFACT_NOT_FOUND" .precondition
      ("no artifact matches '" ++ digestRef ++ "' in the local registry")).withHint
      "run `ost artifact list` to see what is stored")

/-- The temporary name under which a debug archive is copied. -/
def debugTemp (pid : Nat) (archive : String) : String :=
  ".tmp-debug-" ++ toString pid ++ "-" ++ archive

/-- The temporary name under which a sidecar is copied. -/
def evidenceTemp (pid : Nat) (path : String) : String :=
  ".tmp-evidence-" ++ toString pid ++ "-" ++ path

/-- The outcome of an import. -/
structure ImportOutcome where
  record : ArtifactRecord
  alreadyPresent : Bool
  evidenceAttached : List String
  evidenceSkipped : List String
  deriving DecidableEq, Repr

namespace ArtifactStore

variable (store : ArtifactStore)

def objectDir (object : String) : String := store.root ++ "/objects/sha256/" ++ object

def filePath (object name : String) : String := store.objectDir object ++ "/" ++ name

def indexPath : String := store.root ++ "/index.json"

/-- The bytes of a stored file. -/
def contentBytes : Content → Bytes
  | .bytes b => b
  | .record r => store.recordJson r

/-! ## Steps -/

def readContent (object name : String) : Action Bytes := do
  let content ← Action.call (.readFile object name)
  Action.ofResult
    (Result.okOr (.io (store.filePath object name)) (content.map store.contentBytes))

/-- Read the record of an object directory. The store writes nothing but a serialised record
under that name. -/
def readRecord (object : String) : Action ArtifactRecord := do
  match ← Action.call (.readFile object RECORD_FILE) with
  | none => Action.ofResult (.error (.io (store.filePath object RECORD_FILE)))
  | some (.bytes _) => Action.ofResult (.error (.parse (store.filePath object RECORD_FILE)))
  | some (.record r) => return r.migrateLegacyProducer

def writeFile (object name : String) (content : Content) : Action Unit := do
  Action.orIo (store.filePath object name)
    (← Action.call (.writeAtomic object name content))

/-- Copy a file of a dist directory into the store. -/
def copyFrom (dist : Directory) (source object name : String) : Action Unit := do
  let content ← Action.ofResult (dist.read source)
  Action.orIo (dist.join source) (← Action.call (.copyFile object name content))

/-- Rename a temporary file into place, and remove it when that fails. -/
def renameInto (object temp name : String) : Action Unit := do
  if ← Action.call (.renameFile object temp name) then pure ()
  else do
    let _ ← Action.call (.removeFile object temp)
    Action.ofResult (.error (.io (store.filePath object name)))

/-- Copy a file of a dist directory under a temporary name and rename it into place. -/
def replaceFrom (dist : Directory) (object temp name : String) : Action Unit := do
  copyFrom dist name object temp
  store.renameInto object temp name

def readIndex : Action (List ArtifactRecord) := do
  let artifacts ← Action.call .readIndex
  Action.ofResult (Result.okOr (.io store.indexPath)
    (artifacts.map fun rs => rs.map ArtifactRecord.migrateLegacyProducer))

def writeIndex (artifacts : List ArtifactRecord) : Action Unit := do
  Action.orIo store.indexPath (← Action.call (.writeIndex artifacts))

def indexUpsert (record : ArtifactRecord) : Action Unit := do
  store.writeIndex (upsertRecord record (← store.readIndex))

def verifyStoredEvidence (object : String) (evidence : EvidenceDigest) : Action Unit := do
  Action.ofResult (checkEvidence store.toCodec evidence (← store.readContent object evidence.path))

def verifyStoredClaim (object : String) (debug : DebugArchive) : Action Unit := do
  Action.ofResult (checkArchiveClaim store.toCodec debug (← store.readContent object debug.archive))

/-- Copy a promised debug archive into an object directory when it is missing, and verify
what is there. -/
def materializeDebugArchive (pid : Nat) (dist : Directory) (object : String)
    (debug : DebugArchive) : Action Unit := do
  let present ← Action.call (.probeFile object debug.archive)
  Action.when (!present)
    (store.replaceFrom dist object (debugTemp pid debug.archive) debug.archive)
  store.verifyStoredClaim object debug

/-- Materialise the debug archive of an incoming manifest, if it has one. -/
def materializeDebug (pid : Nat) (incoming : Incoming) (object : String) : Action Unit :=
  match incoming.debug with
  | none => pure ()
  | some debug => store.materializeDebugArchive pid incoming.dist object debug

def writeSums (object : String) (record : ArtifactRecord) (debug : Option DebugArchive) :
    Action Unit :=
  store.writeFile object SHA256SUMS (.bytes (utf8 (checksumContents record debug)))

/-- Whether a sidecar is stored and referred to already. -/
def probeBound (object : String) (storedDigest : Option String) (evidence : EvidenceDigest) :
    Action Bool :=
  if storedDigest = some evidence.digest then Action.call (.probeFile object evidence.path)
  else pure false

/-- Bind one incoming sidecar; whether it was attached. One that is bound already is only
verified. -/
def attachSidecar (pid : Nat) (dist : Directory) (object : String)
    (storedDigest : Option String) : Option EvidenceDigest → Action Bool
  | none => return false
  | some evidence => do
    let bound ← probeBound object storedDigest evidence
    Action.when (!bound)
      (store.replaceFrom dist object (evidenceTemp pid evidence.path) evidence.path)
    store.verifyStoredEvidence object evidence
    return !bound

/-- The debug archive that accompanies the manifest on disk. -/
def committedDebug (incoming : Incoming) (storedManifest : Bytes) (committed : Bool)
    (object : String) : Result (Option DebugArchive) :=
  if committed then .ok incoming.debug
  else do
    let stored ← Result.okOr (.parse (store.filePath object MANIFEST_FILE))
      (store.parse storedManifest)
    manifestDebugArchive stored

/-! ## Import -/

/-- Commit the incoming manifest over a stored one, with the debug archive it promises. -/
def commitManifest (pid : Nat) (incoming : Incoming) (object : String) : Action Unit := do
  store.materializeDebug pid incoming object
  store.writeFile object MANIFEST_FILE (.bytes incoming.manifestBytes)

/-- Write the merged record and the checksums that go with the manifest on disk. -/
def commitRecord (incoming : Incoming) (storedManifest : Bytes) (committed : Bool)
    (object : String) (record : ArtifactRecord) : Action Unit := do
  store.writeFile object RECORD_FILE (.record record)
  let debug ← Action.ofResult (store.committedDebug incoming storedManifest committed object)
  store.writeSums object record debug

/-- Repair the debug archive and the checksums of the manifest that is stored already. -/
def repairDebug (pid : Nat) (incoming : Incoming) (object : String)
    (existing : ArtifactRecord) : Action Unit := do
  store.materializeDebug pid incoming object
  store.writeSums object existing incoming.debug

/-- The names of the sidecars that an import attached, or found bound already. -/
def sidecarNames (incoming : Incoming) (sbom provenance : Bool) : List String :=
  (if sbom then incoming.sbom.toList.map (·.path) else []) ++
    (if provenance then incoming.provenance.toList.map (·.path) else [])

/-- Import over a digest that is already stored: keep the stored record, add what the
incoming directory may add. -/
def importPresent (pid : Nat) (incoming : Incoming) : Action ImportOutcome := do
  let object := incoming.record.digestHex
  let stored ← store.readRecord object
  let storedManifest ← store.readContent object MANIFEST_FILE
  let committed := storedManifest == incoming.manifestBytes
  let merged ← Action.ofResult (mergeIdentity stored incoming committed)
  let existing := merged.1
  let enriched := merged.2
  Action.when (committed && incoming.debug.isSome)
    (store.repairDebug pid incoming object existing)
  let sbom ← store.attachSidecar pid incoming.dist object existing.sbomDigest incoming.sbom
  let provenance ← store.attachSidecar pid incoming.dist object existing.provenanceDigest
    incoming.provenance
  -- provenance verifies against the manifest it came with, so that one is committed too
  let commits := (provenance || enriched) && !committed
  Action.when commits (store.commitManifest pid incoming object)
  let changed := sbom || provenance || enriched
  let record := if changed then
      (existing.withSbom incoming.sbom).withProvenance incoming.provenance
    else existing
  Action.when changed
    (store.commitRecord incoming storedManifest (committed || commits) object record)
  store.indexUpsert record
  return {
    record, alreadyPresent := true
    evidenceAttached := sidecarNames incoming sbom provenance
    evidenceSkipped := sidecarNames incoming (!sbom) (!provenance) }

/-- The staging directory of an import. -/
def stagingName (object : String) (pid : Nat) : String :=
  ".tmp-" ++ String.ofList (object.toList.take 12) ++ "-" ++ toString pid

/-- Copy a sidecar, if there is one. -/
def copySidecar (dist : Directory) (object : String) : Option EvidenceDigest → Action Unit
  | none => pure ()
  | some evidence => copyFrom dist evidence.path object evidence.path

/-- Copy the debug archive, if there is one. -/
def copyDebug (dist : Directory) (object : String) : Option DebugArchive → Action Unit
  | none => pure ()
  | some debug => copyFrom dist debug.archive object debug.archive

/-- Fill a staging directory. -/
def stage (incoming : Incoming) (staging : String) : Action Unit := do
  let record := incoming.record
  copyFrom incoming.dist record.archive staging record.archive
  store.writeFile staging MANIFEST_FILE (.bytes incoming.manifestBytes)
  copyDebug incoming.dist staging incoming.debug
  copySidecar incoming.dist staging incoming.sbom
  copySidecar incoming.dist staging incoming.provenance
  store.writeSums staging record incoming.debug
  store.writeFile staging RECORD_FILE (.record record)

/-- Remove what an earlier import of this process left in the staging directory. -/
def clearStaging (staging : String) : Action Unit := do
  if ← Action.call (.probeDir staging) then do
    let removal ← Action.call (.removeDir staging)
    Action.orIo (store.objectDir staging) (removal == .removed)
  else pure ()

/-- Rename a filled staging directory into place; losing a race against another import of the
digest is success. -/
def install (staging object : String) : Action Unit := do
  if ← Action.call (.renameDir staging object) then pure ()
  else do
    let _ ← Action.call (.removeDir staging)
    Action.orIo (store.objectDir object) (← Action.call (.probeFile object RECORD_FILE))

/-- Fill a fresh staging directory; on failure, remove it again. -/
def stageOrClear (incoming : Incoming) (staging : String) : Action Unit := do
  match ← (store.stage incoming staging).attempt with
  | .ok () => pure ()
  | .error e =>
    let _ ← Action.call (.removeDir staging)
    Action.ofResult (.error e)

/-- Import a digest that is not stored yet, through a staging directory. -/
def importFresh (pid : Nat) (incoming : Incoming) : Action ImportOutcome := do
  let object := incoming.record.digestHex
  let staging := stagingName object pid
  store.clearStaging staging
  Action.orIo (store.objectDir staging) (← Action.call (.createDir staging))
  store.stageOrClear incoming staging
  store.install staging object
  store.indexUpsert incoming.record
  return {
    record := incoming.record, alreadyPresent := false
    evidenceAttached := sidecarNames incoming true true
    evidenceSkipped := [] }

/-- `ArtifactStore::import`, by process `pid` at time `createdUnix`. -/
def importDist (pid createdUnix : Nat) (path : DistPath) (source : ArtifactSource) :
    Action ImportOutcome := do
  let incoming ← Action.ofResult (readIncoming store.toCodec path source createdUnix)
  if ← Action.call (.probeFile incoming.record.digestHex RECORD_FILE) then
    store.importPresent pid incoming
  else store.importFresh pid incoming

/-! ## Resolution, removal and export -/

def resolve (digestRef : String) : Action ArtifactRecord := do
  let _ ← Action.ofResult (digestNeedle digestRef)
  Action.ofResult (resolveIn digestRef (← store.readIndex))

/-- Drop an artifact: its index entry first, then its directory. -/
def remove (digestRef : String) : Action ArtifactRecord := do
  let record ← store.resolve digestRef
  store.writeIndex (dropDigest record.digest (← store.readIndex))
  match ← Action.call (.removeDir record.digestHex) with
  | .failed => Action.ofResult (.error (.io (store.objectDir record.digestHex)))
  | _ => return record

/-- The stored producer manifest of a record. -/
def producerManifest (record : ArtifactRecord) : Action Json := do
  let bytes ← store.readContent record.digestHex MANIFEST_FILE
  Action.ofResult (Result.okOr (.parse (store.filePath record.digestHex MANIFEST_FILE))
    (store.parse bytes))

/-- The sidecars a record refers to. -/
def evidence (record : ArtifactRecord) :
    Result (Option EvidenceDigest × Option EvidenceDigest) := do
  return (
    ← recordEvidence record.sbom record.sbomDigest record.sbomSize "SBOM" SBOM_FILE,
    ← recordEvidence record.provenance record.provenanceDigest record.provenanceSize
      "provenance" PROVENANCE_FILE)

/-- Copy the named files of an object directory, none over an existing one. -/
def exportFiles (dest : Directory) (object : String) :
    List String → List (String × Bytes) → Action (List (String × Bytes))
  | [], written => return written
  | name :: rest, written => do
    Action.ofResult (Result.failIf (dest.exists? name ∨ (written.lookup name).isSome)
      (.usage ("refusing to overwrite existing '" ++ dest.join name ++
        "' — export into an empty directory")))
    let content ← store.readContent object name
    exportFiles dest object rest (written ++ [(name, content)])

/-- Check the exported files against the record and the manifest. -/
def verifyExported (record : ArtifactRecord) (debug : Option DebugArchive)
    (sbom provenance : Option EvidenceDigest) (exported : Directory) : Result Unit := do
  let actual ← EvidenceDigest.fromFile store.toCodec exported record.archive
  Result.failIf (actual.digest ≠ record.digest)
    ((validationError "ARTIFACT_DIGEST_MISMATCH"
      ("stored archive for " ++ record.shortDigest ++ " hashes to " ++ actual.digest ++
        " — the local store is corrupted")).withHint
      "re-import the artifact from its original producer output")
  checkDebug store.toCodec exported debug
  Result.forAll (verifyEvidenceDigest store.toCodec exported)
    (sbom.toList ++ provenance.toList)

/-- Copy an artifact's files into a directory and verify them on the way out. -/
def «export» (digestRef : String) (dest : Directory) :
    Action (ArtifactRecord × List (String × Bytes)) := do
  let record ← store.resolve digestRef
  let manifest ← store.producerManifest record
  let debug ← Action.ofResult (manifestDebugArchive manifest)
  let (sbom, provenance) ← Action.ofResult (evidence record)
  let names := [record.archive] ++ debug.toList.map (·.archive) ++
    (sbom.toList ++ provenance.toList).map (·.path) ++ [MANIFEST_FILE, SHA256SUMS, RECORD_FILE]
  let written ← store.exportFiles dest record.digestHex names []
  Action.ofResult (store.verifyExported record debug sbom provenance
    { path := dest.path
      entries := fun name => ((written.lookup name).map .file).or (dest.entries name) })
  return (record, written)

end ArtifactStore

end OpenStrata
