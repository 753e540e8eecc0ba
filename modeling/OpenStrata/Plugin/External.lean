import OpenStrata.Artifact.Extraction
import OpenStrata.Core.Ascii
import OpenStrata.Plugin.Workspace

/-!
# External members

Libraries, bundles and tools of another repository, pinned by the digest of their archive. Each
is taken from the store, or pulled into it, and materialized under the project: into a directory
of its own when nothing stands there, and otherwise as what already stands there.

Both ways the directory is then checked by walking the manifest. A listed file is opened, which
follows links, and its digest is compared; that no other file stands there, that the file is no
link, and its execute bit are not looked at.

## Main definitions

* `ExternalHost`: the store and what belongs to third-party crates and remote sides
* `ExternalLibrary.materialize`, `ExternalMember.materialize`: the two functions
* `IsMaterialized`: the files of a directory are exactly those of a manifest

## Main results

* `materialize_isMaterialized_iff`: when a materialized directory is exact, and that both functions
  accept the same directories
-/

namespace OpenStrata.Plugin

open OpenStrata.Program (EndsWith Succeeds run run_bind_ok run_bind_of_run run_done_ok succeeds_bind
  succeeds_bind_of_run succeeds_done faultsWithin_quiet)
open OpenStrata.Version (satisfies)

/-- What stands where an artifact is to be materialized. -/
inductive Prior
  | absent
  /-- A link that leads nowhere: it does not exist, and no directory can be created there. -/
  | dangling
  | occupied (dir : Materialized)

structure ExternalHost where
  store : ArtifactStore
  untar : TarReader
  /-- `tar::Archive::unpack`. -/
  unpack : List TarEntry → Result Materialized
  /-- What a transport resolves and fetches. -/
  fetch : RemoteReference → Result (DistPath × Option String)
  pid : Nat
  createdUnix : Nat

/-- How one of the two functions speaks of its artifact, and where it puts it. -/
structure ExternalKind where
  label : String
  /-- What its error codes begin with. -/
  codes : String
  artifact : ArtifactKind
  directory : String
  malformed : String → Error
  unverified : String

namespace ExternalKind

def library : ExternalKind where
  label := "library"
  codes := "WORKSPACE_LIBRARY_ARTIFACT"
  artifact := .package
  directory := ".strata/external-libraries"
  malformed := .config
  unverified := "failed archive/file verification"

def bundle : ExternalKind where
  label := "bundle"
  codes := "WORKSPACE_MEMBER_ARTIFACT"
  artifact := .plugin
  directory := ".strata/external-bundles"
  malformed := .validation
  unverified := "failed verification"

def tool : ExternalKind where
  label := "tool"
  codes := "WORKSPACE_MEMBER_ARTIFACT"
  artifact := .package
  directory := ".strata/external-tools"
  malformed := .validation
  unverified := "failed verification"

variable (kind : ExternalKind)

def named (id : String) : String := kind.label ++ " '" ++ id ++ "'"

def coded (suffix : String) (category : Category) (message : String) : Error :=
  .ofCode (kind.codes ++ suffix) category message

/-- `project_root.join(..)` down to the directory of the digest. -/
def pfx (projectRoot target id hex : String) : String :=
  [kind.directory, target, id, hex].foldl (Path.join .linux) projectRoot

end ExternalKind

/-! ## The pin -/

/-- `LibraryArtifactPin::for_target`. -/
def LibraryArtifactPin.forTarget (pin : LibraryArtifactPin) (target : String) :
    Option LibraryArtifactPin :=
  if pin.targets.isEmpty then some pin else pin.targets.lookup target

/-- The digest pinned for a target, and where its artifact can be pulled from. -/
def selectPin (kind : ExternalKind) (id target : String) (artifact : LibraryArtifactPin) :
    Result (String × Option RemoteReference) := do
  let pin ← Result.okOr (kind.coded "_TARGET_MISSING" .validation
    (kind.named id ++ " has no artifact for target '" ++ target ++ "'")) (artifact.forTarget target)
  Result.failIf (¬ isSha256Ref pin.digest)
    (kind.malformed (kind.named id ++ " has an invalid artifact digest '" ++ pin.digest ++ "'"))
  let source ← pin.source.mapM RemoteReference.parse
  Result.failIf (source.any fun reference => !RemoteReference.isPinned reference)
    (kind.coded "_SOURCE_MUTABLE" .validation
      (kind.named id ++ " artifact source must pin a digest"))
  return (pin.digest, source)

/-! ## The stored artifact -/

def exactPolicy (digest : String) (kind : ArtifactKind) (target : String) : PullPolicy where
  expectedArtifactDigest := some digest
  requireKind := some kind
  requireTarget := some target
  requireOpenusd := none
  requireOpenusdVersion := none
  requireSbom := false
  requireProvenance := false
  minimumTrust := none
  artifactPolicy := none

namespace ExternalHost

variable (host : ExternalHost)

/-- The record of a digest, pulled when the store does not have it. -/
def acquire (kind : ExternalKind) (id target digest : String) (source : Option RemoteReference) :
    Action ArtifactRecord := do
  match ← (host.store.resolve digest).attempt with
  | .ok record => return record
  | .error error =>
    if error.code = "ARTIFACT_NOT_FOUND" then do
      let reference ← Action.ofResult (Result.okOr
        ((kind.coded "_MISSING" .precondition (kind.named id ++ " artifact " ++ digest ++
          " is absent from the local store")).withHint
          "pull the exact artifact digest or declare artifact.source") source)
      host.store.pull host.untar host.fetch host.pid host.createdUnix reference
        (exactPolicy digest kind.artifact target)
    else Action.ofResult (.error error)

/-- The acquired record, its archive verified against its manifest. -/
def obtain (kind : ExternalKind) (id target digest : String) (source : Option RemoteReference) :
    Action ArtifactRecord := do
  let record ← host.acquire kind id target digest source
  let report ← host.store.verify host.untar digest
  Action.ofResult (Result.failIf (¬ report.passed) (kind.coded "_INVALID" .validation
    (kind.named id ++ " artifact " ++ digest ++ " " ++ kind.unverified)))
  return record

/-! ## The directory -/

/-- What stands at the place of the artifact afterwards: nothing that was there is touched. -/
def place (digest dest : String) : Prior → Action Materialized
  | .occupied dir => return dir
  | .absent => do return (← host.store.extract host.untar host.unpack digest dest true).2
  | .dangling => do return (← host.store.extract host.untar host.unpack digest dest false).2

end ExternalHost

def isUnsafePath (path : String) : Bool := Text.startsWith "/" path || (partsOf path).contains ".."

/-- The digest and the size of what stands for a listed file. -/
def observeFile (codec : Codec) (kind : ExternalKind) (id dest : String) (dir : Materialized)
    (entry : ManifestFile) : Result (String × Nat) :=
  let path := Path.join .linux dest entry.path
  match entry.linkTarget with
  | some linkTarget => do
    let isLink ← Result.okOr (.io path) (dir.isLink entry.path)
    Result.failIf (isLink = false)
      (.validation (kind.named id ++ " expected symlink '" ++ entry.path ++ "'"))
    let observed ← Result.okOr (.io path) (dir.readLink entry.path)
    Result.failIf (forwardSlashes observed ≠ linkTarget)
      (.validation (kind.named id ++ " symlink '" ++ entry.path ++ "' changed target"))
    return (sha256Hex codec (utf8 linkTarget), (utf8 linkTarget).length)
  | none =>
    Result.okOr (.io path)
      ((dir.opened entry.path).map fun content => (sha256Hex codec content, content.length))

/-- A listed file is there with its digest and size. -/
def checkFile (codec : Codec) (kind : ExternalKind) (id dest : String) (dir : Materialized)
    (entry : ManifestFile) : Result Unit := do
  Result.failIf (isUnsafePath entry.path)
    (.validation (kind.named id ++ " artifact contains unsafe file path '" ++ entry.path ++ "'"))
  let observed ← observeFile codec kind id dest dir entry
  Result.failIf (observed.1 ≠ entry.sha256 ∨ observed.2 ≠ entry.size)
    (kind.coded "_INVALID" .validation
      (kind.named id ++ " materialized file '" ++ entry.path ++ "' differs from its manifest"))

/-- The listed files, the directory they stand in, and its place. -/
def ExternalHost.settle (host : ExternalHost) (kind : ExternalKind) (id digest dest : String)
    (record : ArtifactRecord) (prior : Prior) : Action (List ManifestFile × Materialized) := do
  let manifest ← host.store.producerManifest record
  let files ← Action.ofResult (manifestFiles manifest)
  let dir ← host.place digest dest prior
  Action.ofResult (Result.forAll (checkFile host.store.toCodec kind id dest dir) files)
  return (files, dir)

/-! ## Libraries -/

structure ExternalLibrary where
  id : String
  version : String
  digest : String
  pfx : String
  files : List String
  runtimeDirectories : List String
  cmakePackage : String
  cmakeTarget : String
  requiredLibraries : List (String × String)
  deriving DecidableEq, Repr

/-- The library that a capability requires, and the range of its version. -/
def requiredLibrary (id : String) (requirement : CapabilityRequirement) :
    Result (String × String) := do
  let required ← Result.okOr (.validation ("library '" ++ id ++
    "' artifact requires unsupported capability '" ++ requirement.capability ++ "'"))
    (Text.stripPrefix "library:" requirement.capability)
  let version ← Result.okOr (.validation ("library '" ++ id ++ "' artifact requires '" ++
    required ++ "' without a version")) requirement.version
  return (required, version)

/-- A text of the CMake contract that is not empty. -/
def cmakeText (id what key : String) (cmake : Json) : Result String :=
  Result.okOr (.validation ("library '" ++ id ++ "' artifact has no " ++ what))
    ((cmake.getStr? key).filter fun value => !value.isEmpty)

/-- What a library artifact says of itself. -/
structure LibraryContract where
  component : ComponentContract
  requiredLibraries : List (String × String)
  cmakePackage : String
  cmakeTarget : String

/-- The record is the pinned library, for this target and runtime. -/
def libraryContract (dependency : LibraryDependency) (digest target runtimeId runtimeDigest : String)
    (record : ArtifactRecord) : Result LibraryContract := do
  let kind := ExternalKind.library
  let id := dependency.id
  Result.failIf (record.digest ≠ digest ∨ record.kind ≠ .package ∨ record.target ≠ target)
    (kind.coded "_IDENTITY_MISMATCH" .validation (kind.named id ++
      " artifact does not match its digest, package kind or target '" ++ target ++ "'"))
  let component ← Result.okOr
    (.validation (kind.named id ++ " artifact has no component contract")) record.component
  Result.failIf (component.kind ≠ .library ∨ component.id ≠ id ∨ record.name ≠ id ∨
      component.version ≠ record.version ∨
      satisfies record.version dependency.version ≠ .ok true)
    (kind.coded "_IDENTITY_MISMATCH" .validation ("artifact " ++ digest ++
      " is not a compatible '" ++ id ++ "' library at " ++ dependency.version))
  Result.failIf (record.runtimeId ≠ some runtimeId ∨ record.runtimeDigest ≠ some runtimeDigest)
    ((kind.coded "_RUNTIME_MISMATCH" .validation (kind.named id ++ " artifact " ++ digest ++
      " was built against runtime '" ++ record.runtimeId.getD "<none recorded>" ++
      "'                  (" ++ record.runtimeDigest.getD "<none recorded>" ++
      "), and this target selects '" ++ runtimeId ++ "'                  (" ++ runtimeDigest ++
      ")")).withHint ("every package in this ecosystem is built against one exact OpenUSD" ++
      "              runtime; materialize the one the artifact names with \x60ost runtime" ++
      "              pull <platform> --profile <profile> --from-artifact <digest>\x60"))
  let requiredLibraries ← component.requires.mapM (requiredLibrary id)
  let cmake ← Result.okOr
    (.validation (kind.named id ++ " artifact has no CMake package contract")) component.cmake
  return {
    component, requiredLibraries
    cmakePackage := ← cmakeText id "CMake package name" "package" cmake
    cmakeTarget := ← cmakeText id "exported CMake target" "target" cmake }

/-- The directories below the prefix that the library contributes to the loader's search and
that hold one of its files. -/
def runtimeDirectoriesOf (id pfx : String) (files : List String) (component : ComponentContract) :
    Result (List String) := do
  let values := (component.environment.filter fun contribution =>
    contribution.variableName ∈ ["PATH", "LD_LIBRARY_PATH", "DYLD_LIBRARY_PATH"]).flatMap (·.values)
  Result.forAll (fun value => Result.failIf (isUnsafePath value)
    (.validation ("library '" ++ id ++ "' artifact has an unsafe runtime directory '" ++ value ++
      "'"))) values
  let held := values.filter fun value => files.any fun file =>
    (partsOf value).isPrefixOf (partsOf file)
  return (SortBy.sortBy partsOf (held.map (Path.join .linux pfx))).destutter
    fun a b => partsOf a ≠ partsOf b

/-- `external_library::materialize`: the library, and the directory it now stands in. -/
def ExternalLibrary.materialize (host : ExternalHost) (dependency : LibraryDependency)
    (target runtimeId runtimeDigest projectRoot : String) (prior : Prior) :
    Action (ExternalLibrary × Materialized) := do
  let kind := ExternalKind.library
  let selection ← Action.ofResult (Result.okOr
    (.config (kind.named dependency.id ++ " has no external artifact pin")) dependency.artifact)
  let (digest, source) ← Action.ofResult (selectPin kind dependency.id target selection)
  let record ← host.obtain kind dependency.id target digest source
  let contract ← Action.ofResult
    (libraryContract dependency digest target runtimeId runtimeDigest record)
  let pfx := kind.pfx projectRoot target dependency.id record.digestHex
  let (files, dir) ← host.settle kind dependency.id digest pfx record prior
  let installed := files.map (·.path)
  let runtimeDirectories ← Action.ofResult
    (runtimeDirectoriesOf dependency.id pfx installed contract.component)
  return ({
    id := dependency.id
    version := record.version
    digest := record.digest
    pfx
    files := installed
    runtimeDirectories
    cmakePackage := contract.cmakePackage
    cmakeTarget := contract.cmakeTarget
    requiredLibraries := contract.requiredLibraries }, dir)

/-! ## Bundles and tools -/

inductive MemberKind
  | bundle
  | tool
  deriving DecidableEq, Repr

def MemberKind.external : MemberKind → ExternalKind
  | .bundle => .bundle
  | .tool => .tool

/-- The component kinds that may stand for a member. -/
def MemberKind.components : MemberKind → List ComponentKind
  | .bundle => [.plugin, .hostAddon]
  | .tool => [.tool]

structure ExternalMember where
  pfx : String
  digest : String
  deriving DecidableEq, Repr

/-- The number of `Path::components`: a leading slash and a leading dot are components too. -/
def componentCount (path : String) : Nat :=
  (partsOf path).length + (if Text.startsWith "/" path then 1 else 0) +
    if (Text.segments path).head? = some "." then 1 else 0

/-- The record is the pinned member, for this target and runtime. -/
def memberContract (kind : ExternalKind) (components : List ComponentKind)
    (id version digest target runtimeId runtimeDigest : String) (record : ArtifactRecord) :
    Result Unit := do
  Result.failIf (record.digest ≠ digest ∨ record.kind ≠ kind.artifact ∨ record.target ≠ target ∨
      record.name ≠ id ∨ satisfies record.version version ≠ .ok true)
    (kind.coded "_IDENTITY_MISMATCH" .validation ("artifact " ++ digest ++
      " is not a compatible '" ++ id ++ "' " ++ kind.label ++ " at " ++ version ++
      " for target '" ++ target ++ "'"))
  let component ← Result.okOr
    (.validation (kind.named id ++ " artifact has no component contract")) record.component
  Result.failIf (component.kind ∉ components ∨ component.id ≠ id ∨
      component.version ≠ record.version)
    (kind.coded "_IDENTITY_MISMATCH" .validation
      (kind.named id ++ " artifact has an incompatible component contract"))
  Result.failIf (record.runtimeId ≠ some runtimeId ∨ record.runtimeDigest ≠ some runtimeDigest)
    (kind.coded "_RUNTIME_MISMATCH" .validation (kind.named id ++ " artifact " ++ digest ++
      " requires runtime '" ++ record.runtimeId.getD "<none>" ++ "@" ++
      record.runtimeDigest.getD "<none>" ++ "', selected '" ++ runtimeId ++ "@" ++
      runtimeDigest ++ "'"))

/-- `external_member::materialize_from_store`: the member, and the directory it now stands in. -/
def ExternalMember.materialize (host : ExternalHost) (id version : String)
    (artifact : LibraryArtifactPin) (member : MemberKind)
    (target runtimeId runtimeDigest projectRoot : String) (prior : Prior) :
    Action (ExternalMember × Materialized) := do
  let kind := member.external
  Action.ofResult (Result.failIf (componentCount id ≠ 1 ∨ id = "." ∨ id = "..")
    (.validation ("invalid external " ++ kind.label ++ " id '" ++ id ++ "'")))
  let (digest, source) ← Action.ofResult (selectPin kind id target artifact)
  let record ← host.obtain kind id target digest source
  Action.ofResult
    (memberContract kind member.components id version digest target runtimeId runtimeDigest record)
  let pfx := kind.pfx projectRoot target id record.digestHex
  let (_, dir) ← host.settle kind id digest pfx record prior
  return ({ pfx, digest := record.digest }, dir)

/-! ## Exactness -/

/-- A file of a directory is the one that a manifest lists: its digest, size, kind and execute
bit. -/
def Matches (codec : Codec) : FileNode → ManifestFile → Prop
  | .regular content executable, file =>
    file.linkTarget = none ∧ file.sha256 = sha256Hex codec content ∧
      file.size = content.length ∧ file.executable = executable
  | .link target, file =>
    file.linkTarget = some (forwardSlashes target) ∧
      file.sha256 = sha256Hex codec (utf8 (forwardSlashes target)) ∧
      file.size = (utf8 (forwardSlashes target)).length ∧ file.executable = false

/-- The files below a directory are exactly those of a manifest. -/
structure IsMaterialized (codec : Codec) (dir : Materialized) (files : List ManifestFile) :
    Prop where
  listed : ∀ name node, dir.files name = some node →
    ∃ file ∈ files, partsOf file.path = name ∧ Matches codec node file
  present : ∀ file ∈ files, ∃ node,
    dir.files (partsOf file.path) = some node ∧ Matches codec node file

/-- What the checks of a directory leave open: no file that is not listed stands in it, and where
a file is listed stands one, of its kind and with its execute bit. -/
structure Intact (dir : Materialized) (files : List ManifestFile) : Prop where
  listed : ∀ name, (dir.files name).isSome → ∃ file ∈ files, partsOf file.path = name
  kinds : ∀ file ∈ files, ∃ node, dir.files (partsOf file.path) = some node ∧
    node.isLink = file.linkTarget.isSome ∧ node.executable = file.executable

/-- A manifest and an archive that describe one directory: files that are listed for one place
are alike, none lies below another, and no entry is spelled with a backslash. -/
structure Unambiguous (files : List ManifestFile) (entries : List TarEntry) : Prop where
  alike : ∀ file ∈ files, ∀ file' ∈ files, partsOf file.path = partsOf file'.path →
    file' = { file with path := file'.path }
  leaves : ∀ file ∈ files, ∀ file' ∈ files, ∀ more, more ≠ [] →
    partsOf file'.path ≠ partsOf file.path ++ more
  plain : ∀ e ∈ entries, e.node.isSome → '\\' ∉ e.path.toList

/-- The condition on what stood at the place of an artifact before. -/
def Prior.Fits (files : List ManifestFile) (entries : List TarEntry) : Prior → Prop
  | .occupied dir => Intact dir files
  | .absent | .dangling => Unambiguous files entries

/-- What both functions observe of a listed file. -/
structure Observed (codec : Codec) (dir : Materialized) (file : ManifestFile) : Prop where
  safe : isUnsafePath file.path = false
  link : ∀ target, file.linkTarget = some target → dir.isLink file.path = some true ∧
    (∃ observed, dir.readLink file.path = some observed ∧ forwardSlashes observed = target) ∧
    sha256Hex codec (utf8 target) = file.sha256 ∧ (utf8 target).length = file.size
  regular : file.linkTarget = none → ∃ content, dir.opened file.path = some content ∧
    sha256Hex codec content = file.sha256 ∧ content.length = file.size

section Observed

variable {codec : Codec} {kind : ExternalKind} {id dest : String} {dir : Materialized}
  {file want : ManifestFile} {node : FileNode} {files : List ManifestFile}

theorem observeFile_ok {observed : String × Nat} :
    observeFile codec kind id dest dir file = .ok observed ↔
      (∀ target, file.linkTarget = some target → dir.isLink file.path = some true ∧
        (∃ read, dir.readLink file.path = some read ∧ forwardSlashes read = target) ∧
        observed = (sha256Hex codec (utf8 target), (utf8 target).length)) ∧
      (file.linkTarget = none → ∃ content, dir.opened file.path = some content ∧
        observed = (sha256Hex codec content, content.length)) := by
  unfold observeFile
  cases hlink : file.linkTarget with
  | none =>
    simp only [Result.okOr_ok, Option.map_eq_some_iff, reduceCtorEq, false_implies, implies_true,
      true_and, true_implies]
    constructor
    · rintro ⟨content, hcontent, rfl⟩
      exact ⟨content, hcontent, rfl⟩
    · rintro ⟨content, hcontent, rfl⟩
      exact ⟨content, hcontent, rfl⟩
  | some target =>
    simp only [Result.bind_ok, Result.okOr_ok, Result.failIf_ok, Option.some.injEq,
      forall_eq', reduceCtorEq, false_implies, and_true, Bool.not_eq_false, not_not]
    constructor
    · rintro ⟨isLink, hisLink, ⟨⟩, rfl, read, hread, ⟨⟩, hsame, h⟩
      exact ⟨hisLink, ⟨read, hread, hsame⟩, (Except.ok.inj h).symm⟩
    · rintro ⟨hisLink, ⟨read, hread, hsame⟩, rfl⟩
      exact ⟨true, hisLink, ⟨⟩, rfl, read, hread, ⟨⟩, hsame, rfl⟩

/-- A check passes on what it observes, whatever it is called. -/
theorem checkFile_ok {u : Unit} :
    checkFile codec kind id dest dir file = .ok u ↔ Observed codec dir file := by
  simp only [checkFile, Result.bind_ok, Result.failIf_ok, Bool.not_eq_true, not_or, not_not]
  constructor
  · rintro ⟨⟨⟩, hsafe, observed, hobserved, hdigest, hsize⟩
    obtain ⟨hlink, hregular⟩ := observeFile_ok.mp hobserved
    refine ⟨hsafe, fun target htarget => ?_, fun hnone => ?_⟩
    · obtain ⟨hisLink, hread, rfl⟩ := hlink target htarget
      exact ⟨hisLink, hread, hdigest, hsize⟩
    · obtain ⟨content, hcontent, rfl⟩ := hregular hnone
      exact ⟨content, hcontent, hdigest, hsize⟩
  · rintro ⟨hsafe, hlink, hregular⟩
    refine ⟨⟨⟩, hsafe, (file.sha256, file.size), observeFile_ok.mpr ⟨?_, ?_⟩, rfl, rfl⟩
    · intro target htarget
      obtain ⟨hisLink, hread, hdigest, hsize⟩ := hlink target htarget
      exact ⟨hisLink, hread, by rw [hdigest, hsize]⟩
    · intro hnone
      obtain ⟨content, hcontent, hdigest, hsize⟩ := hregular hnone
      exact ⟨content, hcontent, by rw [hdigest, hsize]⟩

theorem Observed.parts_ne_nil (h : Observed codec dir file) : partsOf file.path ≠ [] := by
  intro hroot
  cases hlink : file.linkTarget with
  | none =>
    obtain ⟨content, hcontent, -⟩ := h.regular hlink
    rw [dir.opened_root _ hroot] at hcontent
    cases hcontent
  | some target => exact dir.isLink_root _ hroot (h.link target hlink).1

/-- A file that stands where it is listed, of its kind and with its execute bit, is the listed
one. -/
theorem Observed.matches (h : Observed codec dir file)
    (hnode : dir.files (partsOf file.path) = some node)
    (hkind : node.isLink = file.linkTarget.isSome) (hexec : node.executable = file.executable) :
    Matches codec node file := by
  cases hlink : file.linkTarget with
  | none =>
    obtain ⟨content, hcontent, hdigest, hsize⟩ := h.regular hlink
    cases node with
    | link target =>
      rw [hlink] at hkind
      cases hkind
    | regular content' executable =>
      obtain rfl := dir.opened_of_regular _ _ _ _ hnode hcontent
      exact ⟨hlink, hdigest.symm, hsize.symm, hexec.symm⟩
  | some target =>
    obtain ⟨hisLink, ⟨read, hread, rfl⟩, hdigest, hsize⟩ := h.link target hlink
    obtain rfl := dir.readLink_of_file _ _ _ hnode hisLink hread
    exact ⟨hlink, hdigest.symm, hsize.symm, hexec.symm⟩

theorem Matches.isLink_eq (h : Matches codec node file) :
    node.isLink = file.linkTarget.isSome ∧ node.executable = file.executable := by
  cases node with
  | regular content executable =>
    obtain ⟨hlink, -, -, hexec⟩ := h
    rw [hlink]
    exact ⟨rfl, hexec.symm⟩
  | link target =>
    obtain ⟨hlink, -, -, hexec⟩ := h
    rw [hlink]
    exact ⟨rfl, hexec.symm⟩

theorem Matches.path (h : Matches codec node file) (path : String) :
    Matches codec node { file with path } := by
  cases node with
  | regular content executable => exact h
  | link target => exact h

/-- Listed files that one file matches are alike. -/
theorem Matches.alike (h : Matches codec node file) (h' : Matches codec node want) :
    want = { file with path := want.path } := by
  cases node with
  | regular content executable =>
    obtain ⟨hlink, hdigest, hsize, hexec⟩ := h
    obtain ⟨hlink', hdigest', hsize', hexec'⟩ := h'
    cases want
    simp_all
  | link target =>
    obtain ⟨hlink, hdigest, hsize, hexec⟩ := h
    obtain ⟨hlink', hdigest', hsize', hexec'⟩ := h'
    cases want
    simp_all

/-- A directory that was there is exact when the checks left nothing open. -/
theorem isMaterialized_iff_intact (hobserved : ∀ file ∈ files, Observed codec dir file) :
    IsMaterialized codec dir files ↔ Intact dir files := by
  constructor
  · intro h
    constructor
    · intro name hsome
      obtain ⟨node, hnode⟩ := Option.isSome_iff_exists.mp hsome
      obtain ⟨file, hfile, hname, -⟩ := h.listed name node hnode
      exact ⟨file, hfile, hname⟩
    · intro file hfile
      obtain ⟨node, hnode, hmatches⟩ := h.present file hfile
      exact ⟨node, hnode, hmatches.isLink_eq⟩
  · intro h
    constructor
    · intro name node hnode
      obtain ⟨file, hfile, rfl⟩ := h.listed name (by rw [hnode]; rfl)
      obtain ⟨node', hnode', hkind, hexec⟩ := h.kinds file hfile
      obtain rfl := Option.some.inj (hnode.symm.trans hnode')
      exact ⟨file, hfile, rfl, (hobserved file hfile).matches hnode hkind hexec⟩
    · intro file hfile
      obtain ⟨node, hnode, hkind, hexec⟩ := h.kinds file hfile
      exact ⟨node, hnode, (hobserved file hfile).matches hnode hkind hexec⟩

end Observed

/-! ## Extracted directories -/

section Extracted

variable {codec : Codec} {dir : Materialized} {files : List ManifestFile}
  {entries : List TarEntry} {landing : TarEntry → List String}

/-- What is listed like the file that a walk reports matches what its entry describes. -/
theorem matches_of_sameFile {e : TarEntry} {node : FileNode} {f : ArchiveFile} {want : ManifestFile}
    (hnode : e.node = some node) (hf : e.archived codec = some f) (hsame : sameFile f want) :
    Matches codec node want := by
  unfold TarEntry.node at hnode
  unfold TarEntry.archived at hf
  simp only [sameFile, Bool.and_eq_true, beq_iff_eq] at hsame
  obtain ⟨⟨⟨hdigest, hsize⟩, hlink⟩, hexec⟩ := hsame
  cases hclass : e.classify with
  | regular =>
    rw [hclass] at hnode hf
    obtain rfl := Option.some.inj hnode
    obtain rfl := Option.some.inj hf
    exact ⟨hlink.symm, hdigest.symm, hsize.symm, hexec.symm⟩
  | symlink target =>
    rw [hclass] at hnode hf
    obtain rfl := Option.some.inj hnode
    obtain rfl := Option.some.inj hf
    obtain rfl := TarEntry.classify_symlink hclass
    exact ⟨hlink.symm, hdigest.symm, hsize.symm, hexec.symm⟩
  | directory =>
    rw [hclass] at hf
    cases hf
  | unsafeEntry reason =>
    rw [hclass] at hf
    cases hf

/-- Every file that an entry describes is listed, under the path the gate judges. -/
theorem exists_listed (hsafe : scanEntries [] entries = []) (hagrees : Agrees codec files entries)
    {e : TarEntry} (he : e ∈ entries) {node : FileNode} (hnode : e.node = some node) :
    ∃ want ∈ files, want.path = e.gatePath ∧ Matches codec node want := by
  obtain ⟨f, hf, hpath⟩ : ∃ f, e.archived codec = some f ∧ f.path = e.gatePath :=
    TarEntry.archived_of_node hnode
  obtain ⟨want, hwant, hwantpath, hsame⟩ := (compareArchiveFiles_passed hagrees).2 f
    ((mem_walkEntries hsafe).mpr ⟨e, he, hf⟩)
  exact ⟨want, hwant, hwantpath.trans hpath, matches_of_sameFile hnode hf hsame⟩

/-- Every listed file is the one of an entry. -/
theorem exists_entry (hsafe : scanEntries [] entries = []) (hagrees : Agrees codec files entries)
    {want : ManifestFile} (hwant : want ∈ files) :
    ∃ e ∈ entries, ∃ node, e.node = some node ∧ want.path = e.gatePath ∧
      Matches codec node want := by
  obtain ⟨f, hf, hpath, hsame⟩ := (compareArchiveFiles_passed hagrees).1 want hwant
  obtain ⟨e, he, harchived⟩ := (mem_walkEntries hsafe).mp hf
  obtain ⟨hsome, hgate⟩ := TarEntry.node_of_archived harchived
  obtain ⟨node, hnode⟩ := Option.isSome_iff_exists.mp hsome
  exact ⟨e, he, node, hnode, hpath.symm.trans hgate, matches_of_sameFile hnode harchived hsame⟩

theorem parts_linux (path : String) : Path.parts .linux path = Text.segments path := by
  have hseparator : Path.isSeparator .linux = fun c => c == '/' := by
    funext c
    simp [Path.isSeparator]
  rw [Path.parts, hseparator, Text.segments]

/-- A backslash of a path stands in one of its components. -/
theorem exists_part_of_backslash {path : String} (h : '\\' ∈ path.toList) :
    ∃ part ∈ partsOf path, '\\' ∈ part.toList := by
  rw [← Text.join_segments path] at h
  rcases Text.mem_toList_join h with hslash | ⟨part, hpart, hmem⟩
  · cases hslash
  · refine ⟨part, List.mem_filter.mpr ⟨?_, ?_⟩, hmem⟩
    · rw [parts_linux]
      exact hpart
    · rw [Path.isComponent, Bool.and_eq_true, bne_iff_ne, bne_iff_ne]
      constructor
      · rintro rfl
        cases hmem
      · rintro rfl
        exact absurd hmem (by decide)

theorem backslash_not_mem_parts {path part : String} (h : '\\' ∉ path.toList)
    (hpart : part ∈ partsOf path) : '\\' ∉ part.toList := by
  obtain ⟨hmem, -⟩ := List.mem_filter.mp hpart
  rw [parts_linux] at hmem
  exact fun hback => h (Text.mem_of_mem_segment hmem hback)

/-- Without backslashes the gate judges the path itself. -/
theorem gatePath_eq {e : TarEntry} (h : '\\' ∉ e.path.toList) : e.gatePath = e.path :=
  Path.slashed_eq_self h

/-- A directory that was extracted is exact when the manifest and the archive describe one. -/
theorem isMaterialized_iff_unambiguous (hsafe : scanEntries [] entries = [])
    (hlands : Lands entries dir landing) (hagrees : Agrees codec files entries)
    (hobserved : ∀ file ∈ files, Observed codec dir file) :
    IsMaterialized codec dir files ↔ Unambiguous files entries := by
  constructor
  · intro h
    refine ⟨?_, ?_, ?_⟩
    · intro file hfile file' hfile' hparts
      obtain ⟨node, hnode, hmatches⟩ := h.present file hfile
      obtain ⟨node', hnode', hmatches'⟩ := h.present file' hfile'
      rw [← hparts] at hnode'
      obtain rfl := Option.some.inj (hnode.symm.trans hnode')
      exact hmatches.alike hmatches'
    · intro file hfile file' hfile' more hmore hparts
      obtain ⟨node, hnode, -⟩ := h.present file hfile
      obtain ⟨node', hnode', -⟩ := h.present file' hfile'
      rw [hparts, dir.leaf _ _ _ hmore hnode] at hnode'
      cases hnode'
    · intro e he hsome hback
      -- the component with the backslash stands in the directory, but nothing listed has one
      obtain ⟨part, hpart, hpartback⟩ := exists_part_of_backslash hback
      obtain ⟨l, hl, hlsome, hlparts, hlanding⟩ := hlands.within e he hsome part hpart
      obtain ⟨node, hnode⟩ := Option.isSome_iff_exists.mp (hlands.holds l hl hlsome hlparts)
      obtain ⟨want, hwant, hname, -⟩ := h.listed _ node hnode
      obtain ⟨e', -, node', -, hgate, -⟩ := exists_entry hsafe hagrees hwant
      refine backslash_not_mem_parts ?_ (hname ▸ hlanding) hpartback
      rw [hgate]
      exact Path.backslash_not_mem_slashed e'.path
  · intro h
    -- an entry lands at its own path
    have hdirect : ∀ e ∈ entries, e.node.isSome → landing e = partsOf e.gatePath := by
      intro e he hsome
      obtain ⟨node, hnode⟩ := Option.isSome_iff_exists.mp hsome
      obtain ⟨want, hwant, hgate, -⟩ := exists_listed hsafe hagrees he hnode
      rw [gatePath_eq (h.plain e he hsome)]
      refine hlands.direct e he hsome fun l hl target hlink more hmore hparts => ?_
      obtain ⟨want', hwant', hgate', -⟩ := exists_listed hsafe hagrees hl hlink
      rw [gatePath_eq (h.plain e he hsome)] at hgate
      rw [gatePath_eq (h.plain l hl (by rw [hlink]; rfl))] at hgate'
      rw [← hgate, ← hgate'] at hparts
      exact h.leaves want' hwant' want hwant more hmore hparts
    constructor
    · intro name node hnode
      obtain ⟨e, he, henode, rfl⟩ := hlands.only name node hnode
      obtain ⟨want, hwant, hgate, hmatches⟩ := exists_listed hsafe hagrees he henode
      refine ⟨want, hwant, ?_, hmatches⟩
      rw [hgate, hdirect e he (by rw [henode]; rfl)]
    · intro want hwant
      obtain ⟨e, he, node, henode, hgate, -⟩ := exists_entry hsafe hagrees hwant
      have hesome : e.node.isSome := by rw [henode]; rfl
      have hroot : partsOf e.path ≠ [] := by
        rw [← gatePath_eq (h.plain e he hesome), ← hgate]
        exact (hobserved want hwant).parts_ne_nil
      obtain ⟨node', hnode'⟩ := Option.isSome_iff_exists.mp (hlands.holds e he hesome hroot)
      -- whichever entry came to stand there is listed alike
      obtain ⟨e', he', henode', hlanding⟩ := hlands.only _ _ hnode'
      obtain ⟨want', hwant', hgate', hmatches'⟩ := exists_listed hsafe hagrees he' henode'
      rw [hdirect e he hesome, ← hgate] at hnode' hlanding
      rw [hdirect e' he' (by rw [henode']; rfl), ← hgate'] at hlanding
      refine ⟨node', hnode', ?_⟩
      rw [h.alike want' hwant' want hwant hlanding]
      exact hmatches'.path want.path

end Extracted

/-! ## What the two functions have established -/

/-- The manifest and the archive that a digest stands for in the store. -/
def ExternalHost.Pinned (host : ExternalHost) (s : World) (digest : String)
    (files : List ManifestFile) (entries : List TarEntry) : Prop :=
  ∃ record, resolveIn digest (indexed s) = .ok record ∧ record.digest = digest ∧
    Holds host.store host.untar s record files entries

/-- What stands at the place of an artifact once it is materialized. -/
def ExternalHost.Placed (host : ExternalHost) (entries : List TarEntry) (dir : Materialized) :
    Prior → Prop
  | .occupied prior => dir = prior
  | .absent => scanEntries [] entries = [] ∧ host.unpack entries = .ok dir
  | .dangling => False

section Established

variable {host : ExternalHost} {env : Environment StoreOp StoreOp.Reply StoreFault} {s : World}
  {kind : ExternalKind} {id target digest dest : String} {source : Option RemoteReference}
  {record : ArtifactRecord} {prior : Prior} {files : List ManifestFile} {entries : List TarEntry}

theorem holds_functional {store : ArtifactStore} {untar : TarReader} {files' : List ManifestFile}
    {entries' : List TarEntry} (h : Holds store untar s record files entries)
    (h' : Holds store untar s record files' entries') : files' = files ∧ entries' = entries := by
  obtain ⟨⟨c, manifest, hc, hparse, hfiles⟩, a, ha, -, hentries⟩ := h
  obtain ⟨⟨c', manifest', hc', hparse', hfiles'⟩, a', ha', -, hentries'⟩ := h'
  obtain rfl := Option.some.inj (hc.symm.trans hc')
  obtain rfl := Option.some.inj (hparse.symm.trans hparse')
  obtain rfl := Option.some.inj (ha.symm.trans ha')
  exact ⟨Except.ok.inj (hfiles'.symm.trans hfiles), Option.some.inj (hentries'.symm.trans hentries)⟩

theorem ExternalHost.Pinned.functional {files' : List ManifestFile} {entries' : List TarEntry}
    (h : host.Pinned s digest files entries) (h' : host.Pinned s digest files' entries') :
    files' = files ∧ entries' = entries := by
  obtain ⟨r, hresolve, -, hholds⟩ := h
  obtain ⟨r', hresolve', -, hholds'⟩ := h'
  obtain rfl := Except.ok.inj (hresolve.symm.trans hresolve')
  exact holds_functional hholds hholds'

theorem digestHex_congr {r r' : ArtifactRecord} (h : r.digest = r'.digest) :
    r.digestHex = r'.digestHex := by
  rw [ArtifactRecord.digestHex, ArtifactRecord.digestHex, h]

theorem toLower_of_isLowerHexDigit {c : Char} (h : Text.isLowerHexDigit c) : c.toLower = c := by
  refine Ascii.toLower_of_not fun hupper => ?_
  -- no such digit lies between A and Z
  simp only [Text.isLowerHexDigit, Char.isDigit, Bool.or_eq_true, Bool.and_eq_true,
    decide_eq_true_eq, ge_iff_le] at h
  have hlow : 65 ≤ c.val.toNat := UInt32.le_iff_toNat_le.mp hupper.1
  have hhigh : c.val.toNat ≤ 90 := UInt32.le_iff_toNat_le.mp hupper.2
  rcases h with h | h
  · have : c.val.toNat ≤ 57 := UInt32.le_iff_toNat_le.mp h.2
    omega
  · have : 97 ≤ c.val.toNat := UInt32.le_iff_toNat_le.mp h.1
    omega

theorem toAsciiLowercase_renderHex (bytes : Bytes) :
    Text.toAsciiLowercase (renderHex bytes) = renderHex bytes := by
  rw [← String.toList_inj, Text.toAsciiLowercase, String.toList_ofList]
  refine (List.map_congr_left fun c hc => ?_).trans (List.map_id _)
  exact toLower_of_isLowerHexDigit (List.all_eq_true.mp (all_lower_renderHex bytes) c hc)

/-- A reference to a hashed content stands for what is stored under it. -/
theorem digest_of_resolveIn {codec : Codec} {content : Bytes} {artifacts : List ArtifactRecord}
    {r : ArtifactRecord} (hr : r ∈ artifacts) (hdigest : r.digest = sha256Hex codec content)
    (h : resolveIn (sha256Hex codec content) artifacts = .ok record) :
    record.digest = sha256Hex codec content := by
  obtain ⟨needle, hneedle, h⟩ := Result.bind_ok.mp h
  obtain ⟨⟨⟩, -, hneedle⟩ := Result.bind_ok.mp hneedle
  obtain rfl := Except.ok.inj hneedle
  have hhex : r.digestHex = Text.toAsciiLowercase (bareDigest (sha256Hex codec content)) := by
    rw [ArtifactRecord.digestHex, hdigest, bareDigest, sha256Hex, Text.stripPrefix_append,
      Option.getD_some, toAsciiLowercase_renderHex]
  have hmem : r ∈ artifacts.filter fun r => Text.startsWith
      (Text.toAsciiLowercase (bareDigest (sha256Hex codec content))) r.digestHex := by
    refine List.mem_filter.mpr ⟨hr, ?_⟩
    rw [hhex]
    exact Text.startsWith_iff.mpr ⟨"", by simp⟩
  split at h
  · next one hone =>
    rw [hone, List.mem_singleton] at hmem
    cases h
    rw [← hmem]
    exact hdigest
  · cases h
  · cases h

/-- What the acquired digest stands for has the digest of the record. -/
theorem establishes_acquire :
    Establishes env (host.acquire kind id target digest source) s fun record s' =>
      record.digest = digest → ∀ r, resolveIn digest (indexed s') = .ok r → r.digest = digest := by
  apply Program.Spec.bind (R := fun resolved s' => ∀ record, resolved = .ok record →
    resolveIn digest (indexed s') = .ok record)
  · refine Program.Spec.attempt (G := fun _ => True)
      (ArtifactStore.spec_resolve (F := fun _ => True) True.intro) ?_ ?_
    · rintro record s' ⟨rfl, hresolve⟩ _ heq
      obtain rfl := Except.ok.inj heq
      exact hresolve
    · rintro e s' - _ ⟨⟩
  · rintro resolved s' hresolved
    cases resolved with
    | ok record =>
      refine Program.Spec.pure fun hdigest r hr => ?_
      rw [hresolved record rfl] at hr
      obtain rfl := Except.ok.inj hr
      exact hdigest
    | error e =>
      simp only
      split
      · apply Program.Spec.bind (Establishes.trivial _ _)
        rintro reference s' -
        apply Program.Spec.mono (establishes_pull rfl)
        · rintro record s' ⟨⟨r, hr, hrdigest⟩, content, rfl⟩ hdigest r' hr'
          exact digest_of_resolveIn hr (hrdigest.trans hdigest) hr'
        · exact fun _ h => h
      · exact Program.Spec.done_error True.intro

/-- An obtained record of the pinned digest is what the digest stands for, and its archive agrees
with its manifest. -/
theorem establishes_obtain :
    Establishes env (host.obtain kind id target digest source) s fun record s' =>
      record.digest = digest → ∃ files entries, host.Pinned s' digest files entries ∧
        Agrees host.store.toCodec files entries := by
  apply Program.Spec.bind establishes_acquire
  rintro record s' hacquired
  apply Program.Spec.bind establishes_verify
  rintro report s' ⟨rfl, hverified⟩
  apply Program.Spec.bind Establishes.ofResult
  rintro ⟨⟩ s' ⟨rfl, hpassed⟩
  refine Program.Spec.pure fun hdigest => ?_
  rw [Result.failIf_ok, not_not] at hpassed
  obtain ⟨r, files, entries, hresolve, hholds, hagrees⟩ := hverified hpassed
  exact ⟨files, entries, ⟨r, hresolve, hacquired hdigest r hresolve, hholds⟩, hagrees⟩

theorem establishes_place (hpinned : host.Pinned s digest files entries) :
    Establishes env (host.place digest dest prior) s fun dir s' =>
      s' = s ∧ host.Placed entries dir prior := by
  obtain ⟨record, hresolve, -, hholds⟩ := hpinned
  have hextract (creatable : Bool) : Establishes env
      (host.store.extract host.untar host.unpack digest dest creatable >>= fun extracted =>
        pure extracted.2) s fun dir s' =>
      s' = s ∧ creatable = true ∧ scanEntries [] entries = [] ∧ host.unpack entries = .ok dir := by
    apply Program.Spec.bind establishes_extract
    rintro ⟨r, dir⟩ s' ⟨rfl, hcreatable, c, entries', hr, hc, huntar, hsafe, hunpack⟩
    obtain rfl := Except.ok.inj (hresolve.symm.trans hr)
    obtain ⟨c', hc', -, huntar'⟩ := hholds.archive
    obtain rfl := Option.some.inj (hc.symm.trans hc')
    obtain rfl := Option.some.inj (huntar.symm.trans huntar')
    exact Program.Spec.pure ⟨rfl, hcreatable, hsafe, hunpack⟩
  cases prior with
  | occupied dir => exact Program.Spec.pure ⟨rfl, rfl⟩
  | absent => exact (hextract true).mono (fun dir s' h => ⟨h.1, h.2.2⟩) fun _ h => h
  | dangling => exact (hextract false).mono (fun dir s' h => by cases h.2.1) fun _ h => h

theorem establishes_settle (hpinned : host.Pinned s digest files entries)
    (hdigest : record.digest = digest) :
    Establishes env (host.settle kind id digest dest record prior) s fun settled s' =>
      s' = s ∧ settled.1 = files ∧ host.Placed entries settled.2 prior ∧
        ∀ file ∈ files, Observed host.store.toCodec settled.2 file := by
  obtain ⟨r, hresolve, hr, hholds⟩ := hpinned
  apply Program.Spec.bind establishes_producerManifest
  rintro manifest s' ⟨rfl, c, hc, hparse⟩
  apply Program.Spec.bind Establishes.ofResult
  rintro files' s' ⟨rfl, hfiles'⟩
  obtain rfl : files' = files := by
    obtain ⟨c', manifest', hc', hparse', hfiles⟩ := hholds.manifest
    rw [digestHex_congr (hdigest.trans hr.symm)] at hc
    obtain rfl := Option.some.inj (hc.symm.trans hc')
    obtain rfl := Option.some.inj (hparse.symm.trans hparse')
    exact Except.ok.inj (hfiles'.symm.trans hfiles)
  apply Program.Spec.bind (establishes_place ⟨r, hresolve, hr, hholds⟩)
  rintro dir s' ⟨rfl, hplaced⟩
  apply Program.Spec.bind Establishes.ofResult
  rintro ⟨⟩ s' ⟨rfl, hchecked⟩
  refine Program.Spec.pure ⟨rfl, rfl, hplaced, fun file hfile => ?_⟩
  exact checkFile_ok.mp (Result.forAll_ok.mp hchecked file hfile)

/-- Once an artifact is placed and its files observed, its directory is exact under the condition
on what stood there. -/
theorem isMaterialized_iff_fits (hunpack : Unpacks host.unpack) {dir : Materialized}
    (hagrees : Agrees host.store.toCodec files entries) (hplaced : host.Placed entries dir prior)
    (hobserved : ∀ file ∈ files, Observed host.store.toCodec dir file) :
    IsMaterialized host.store.toCodec dir files ↔ prior.Fits files entries := by
  cases prior with
  | occupied d =>
    obtain rfl : dir = d := hplaced
    exact isMaterialized_iff_intact hobserved
  | absent =>
    obtain ⟨hsafe, hdir⟩ := hplaced
    obtain ⟨landing, hlands⟩ := hunpack entries dir hsafe hdir
    exact isMaterialized_iff_unambiguous hsafe hlands hagrees hobserved
  | dangling => exact hplaced.elim

end Established

/-- What a materialized artifact has established: its digest stands for a manifest and an archive,
and its directory holds exactly the files of the manifest if and only if what stood there before
fits them. -/
def ExternalHost.ExactIff (host : ExternalHost) (s : World) (digest : String) (prior : Prior)
    (dir : Materialized) : Prop :=
  ∃ files entries, host.Pinned s digest files entries ∧
    (IsMaterialized host.store.toCodec dir files ↔ prior.Fits files entries)

section Materialize

variable {host : ExternalHost} {env : Environment StoreOp StoreOp.Reply StoreFault} {w : World}
  {target runtimeId runtimeDigest projectRoot : String} {prior : Prior}

theorem establishes_library (hunpack : Unpacks host.unpack) (dependency : LibraryDependency) :
    Establishes env (ExternalLibrary.materialize host dependency target runtimeId runtimeDigest
      projectRoot prior) w fun result s => host.ExactIff s result.1.digest prior result.2 := by
  apply Program.Spec.bind (Establishes.trivial _ _)
  rintro selection s -
  apply Program.Spec.bind (Establishes.trivial _ _)
  rintro ⟨digest, source⟩ s -
  apply Program.Spec.bind establishes_obtain
  rintro record s hobtained
  apply Program.Spec.bind Establishes.ofResult
  rintro contract s ⟨rfl, hcontract⟩
  have hdigest : record.digest = digest := by
    obtain ⟨⟨⟩, hidentity, -⟩ := Result.bind_ok.mp hcontract
    rw [Result.failIf_ok, not_or, not_not] at hidentity
    exact hidentity.1
  obtain ⟨files, entries, hpinned, hagrees⟩ := hobtained hdigest
  apply Program.Spec.bind (establishes_settle hpinned hdigest)
  rintro ⟨files', dir⟩ s ⟨rfl, rfl, hplaced, hobserved⟩
  apply Program.Spec.bind Establishes.ofResult
  rintro directories s ⟨rfl, -⟩
  apply Program.Spec.pure
  refine ⟨files', entries, ?_, isMaterialized_iff_fits hunpack hagrees hplaced hobserved⟩
  rw [hdigest]
  exact hpinned

theorem establishes_member (hunpack : Unpacks host.unpack) (id version : String)
    (artifact : LibraryArtifactPin) (member : MemberKind) :
    Establishes env (ExternalMember.materialize host id version artifact member target runtimeId
      runtimeDigest projectRoot prior) w fun result s =>
        host.ExactIff s result.1.digest prior result.2 := by
  apply Program.Spec.bind (Establishes.trivial _ _)
  rintro - s -
  apply Program.Spec.bind (Establishes.trivial _ _)
  rintro ⟨digest, source⟩ s -
  apply Program.Spec.bind establishes_obtain
  rintro record s hobtained
  apply Program.Spec.bind Establishes.ofResult
  rintro ⟨⟩ s ⟨rfl, hcontract⟩
  have hdigest : record.digest = digest := by
    obtain ⟨⟨⟩, hidentity, -⟩ := Result.bind_ok.mp hcontract
    rw [Result.failIf_ok, not_or, not_not] at hidentity
    exact hidentity.1
  obtain ⟨files, entries, hpinned, hagrees⟩ := hobtained hdigest
  apply Program.Spec.bind (establishes_settle hpinned hdigest)
  rintro ⟨files', dir⟩ s ⟨rfl, rfl, hplaced, hobserved⟩
  apply Program.Spec.pure
  refine ⟨files', entries, ?_, isMaterialized_iff_fits hunpack hagrees hplaced hobserved⟩
  rw [hdigest]
  exact hpinned

/-- Settling succeeds when some directory is placed whose files are observed. -/
theorem succeeds_settle {kind : ExternalKind} {id digest dest : String} {record : ArtifactRecord}
    {files : List ManifestFile} {entries : List TarEntry} {s : World} {α : Type}
    {next : List ManifestFile × Materialized → Action α} {past : List (Event StoreOp StoreOp.Reply)}
    (hpinned : host.Pinned s digest files entries) (hdigest : record.digest = digest) :
    Succeeds World.step (host.settle kind id digest dest record prior >>= next) past s ↔
      ∃ dir, (host.Placed entries dir prior ∧
        ∀ file ∈ files, Observed host.store.toCodec dir file) ∧
          Succeeds World.step (next (files, dir)) past s := by
  constructor
  · intro h
    obtain ⟨⟨files', dir⟩, past', s', hrun, hnext⟩ := succeeds_bind.mp h
    have hsettle : Establishes Environment.quiet
      (host.settle kind id digest dest record prior) s _ := establishes_settle hpinned hdigest
    obtain ⟨rfl, rfl, hplaced, hobserved⟩ := hsettle.of_ok (faultsWithin_quiet _ _ _) hrun
    exact ⟨dir, ⟨hplaced, hobserved⟩, hnext.of_past⟩
  · rintro ⟨dir, ⟨hplaced, hobserved⟩, hnext⟩
    obtain ⟨r, hresolve, hr, ⟨c, manifest, hc, hparse, hfiles⟩, a, ha, hsha, huntar⟩ := hpinned
    have hplace : EndsWith World.step (host.place digest dest prior) s (.ok dir) := by
      cases prior with
      | occupied d =>
        obtain rfl : dir = d := hplaced
        exact EndsWith.done _ _
      | absent =>
        obtain ⟨hsafe, hdir⟩ := hplaced
        apply EndsWith.bind_ok (endsWith_extract hresolve ha hsha huntar hsafe hdir)
        exact EndsWith.done _ _
      | dangling => exact hplaced.elim
    have hsettle : EndsWith World.step (host.settle kind id digest dest record prior) s
        (.ok (files, dir)) := by
      rw [← digestHex_congr (hdigest.trans hr.symm)] at hc
      apply EndsWith.bind_ok (endsWith_producerManifest hc hparse)
      apply EndsWith.bind_ok (a := files)
      · rw [hfiles]
        exact EndsWith.done _ _
      apply EndsWith.bind_ok hplace
      apply EndsWith.bind_ok (a := ())
      · rw [Result.forAll_ok.mpr fun file hfile => checkFile_ok.mpr (hobserved file hfile)]
        exact EndsWith.done _ _
      · exact EndsWith.done _ _
    obtain ⟨past', hrun⟩ := hsettle past
    exact succeeds_bind.mpr ⟨_, past', s, hrun, hnext.of_past⟩

/-- The states that a manifest and an archive let through. -/
def ExternalHost.Accepts (host : ExternalHost) (files : List ManifestFile)
    (entries : List TarEntry) (prior : Prior) : Prop :=
  ∃ dir, host.Placed entries dir prior ∧ ∀ file ∈ files, Observed host.store.toCodec dir file

theorem library_exactIff (hunpack : Unpacks host.unpack) {dependency : LibraryDependency}
    {library : ExternalLibrary} {dir : Materialized} {past past' : List (Event StoreOp StoreOp.Reply)}
    {s : World}
    (h : run World.step env (ExternalLibrary.materialize host dependency target runtimeId
      runtimeDigest projectRoot prior) past w = ⟨.ok (library, dir), past', s⟩) :
    host.ExactIff s library.digest prior dir := by
  have hexact := Establishes.of_run (establishes_library hunpack dependency) h
  exact hexact

theorem member_exactIff (hunpack : Unpacks host.unpack) {id version : String}
    {artifact : LibraryArtifactPin} {kind : MemberKind} {member : ExternalMember}
    {dir : Materialized} {past past' : List (Event StoreOp StoreOp.Reply)} {s : World}
    (h : run World.step env (ExternalMember.materialize host id version artifact kind target
      runtimeId runtimeDigest projectRoot prior) past w = ⟨.ok (member, dir), past', s⟩) :
    host.ExactIff s member.digest prior dir := by
  have hexact := Establishes.of_run (establishes_member hunpack id version artifact kind) h
  exact hexact

section Quiet

variable {past past₁ past₂ : List (Event StoreOp StoreOp.Reply)} {s s₁ s₂ : World}
  {files files' : List ManifestFile} {entries : List TarEntry} {dir : Materialized}

/-- Settling reads: the store is the one that the pinned artifact was found in. -/
theorem settle_run {kind : ExternalKind} {id digest dest : String} {source : Option RemoteReference}
    {record : ArtifactRecord}
    (hobtain : run World.step Environment.quiet (host.obtain kind id target digest source) past s =
      ⟨.ok record, past₁, s₁⟩) (hdigest : record.digest = digest)
    (hsettle : run World.step Environment.quiet (host.settle kind id digest dest record prior)
      past₁ s₁ = ⟨.ok (files', dir), past₂, s₂⟩)
    (hpinned : host.Pinned s₂ digest files entries) :
    files' = files ∧ host.Pinned s₁ digest files entries := by
  have hobtained : Establishes Environment.quiet (host.obtain kind id target digest source) s
      fun record s' => record.digest = digest → ∃ files entries,
        host.Pinned s' digest files entries ∧ Agrees host.store.toCodec files entries :=
    establishes_obtain
  obtain ⟨files₁, entries₁, hpinned₁, -⟩ :=
    hobtained.of_run hobtain hdigest
  have hsettled : Establishes Environment.quiet
    (host.settle kind id digest dest record prior) s₁ _ := establishes_settle hpinned₁ hdigest
  have hout := hsettled.of_run hsettle
  have hstate : s₂ = s₁ := hout.1
  have hfiles : files' = files₁ := hout.2.1
  subst hstate
  exact ⟨hfiles.trans (hpinned.functional hpinned₁).1, hpinned⟩

/-- A library that is materialized once is materialized from every accepted state, and from no
other. -/
theorem succeeds_library {dependency : LibraryDependency} {library : ExternalLibrary}
    (prior' : Prior)
    (h : run World.step Environment.quiet (ExternalLibrary.materialize host dependency target
      runtimeId runtimeDigest projectRoot prior) past w = ⟨.ok (library, dir), past₂, s⟩)
    (hpinned : host.Pinned s library.digest files entries) :
    Succeeds World.step (ExternalLibrary.materialize host dependency target runtimeId
      runtimeDigest projectRoot prior') past w ↔ host.Accepts files entries prior' := by
  obtain ⟨selection, _, _, hselection, h₁⟩ := run_bind_ok.mp h
  obtain ⟨⟨digest, source⟩, _, _, hpin, h₂⟩ := run_bind_ok.mp h₁
  obtain ⟨record, _, _, hobtain, h₃⟩ := run_bind_ok.mp h₂
  obtain ⟨contract, _, _, hcontract, h₄⟩ := run_bind_ok.mp h₃
  obtain ⟨hcontracted, rfl, rfl⟩ := run_done_ok.mp hcontract
  obtain ⟨⟨files', dir'⟩, _, _, hsettle, h₅⟩ := run_bind_ok.mp h₄
  obtain ⟨directories, _, _, hdirectories, h₆⟩ := run_bind_ok.mp h₅
  obtain ⟨hfound, rfl, rfl⟩ := run_done_ok.mp hdirectories
  obtain ⟨heq, rfl, rfl⟩ := run_done_ok.mp h₆
  obtain ⟨rfl, rfl⟩ := Prod.mk.inj (Except.ok.inj heq)
  have hdigest : record.digest = digest := by
    obtain ⟨⟨⟩, hidentity, -⟩ := Result.bind_ok.mp hcontracted
    rw [Result.failIf_ok, not_or, not_not] at hidentity
    exact hidentity.1
  simp only [hdigest] at hpinned
  obtain ⟨rfl, hpinned₁⟩ := settle_run hobtain hdigest hsettle hpinned
  rw [ExternalLibrary.materialize, succeeds_bind_of_run hselection, succeeds_bind_of_run hpin]
  simp only
  rw [succeeds_bind_of_run hobtain, succeeds_bind_of_run hcontract]
  rw [succeeds_settle hpinned₁ hdigest]
  constructor
  · rintro ⟨d, hd, -⟩
    exact ⟨d, hd⟩
  · rintro ⟨d, hd⟩
    refine ⟨d, hd, succeeds_bind.mpr ⟨directories, _, _, run_done_ok.mpr ⟨hfound, rfl, rfl⟩, ?_⟩⟩
    exact ⟨_, _, _, rfl⟩

theorem succeeds_member {id version : String} {artifact : LibraryArtifactPin}
    {kind : MemberKind} {member : ExternalMember} (prior' : Prior)
    (h : run World.step Environment.quiet (ExternalMember.materialize host id version artifact kind
      target runtimeId runtimeDigest projectRoot prior) past w = ⟨.ok (member, dir), past₂, s⟩)
    (hpinned : host.Pinned s member.digest files entries) :
    Succeeds World.step (ExternalMember.materialize host id version artifact kind target runtimeId
      runtimeDigest projectRoot prior') past w ↔ host.Accepts files entries prior' := by
  obtain ⟨⟨⟩, _, _, hid, h₁⟩ := run_bind_ok.mp h
  obtain ⟨⟨digest, source⟩, _, _, hpin, h₂⟩ := run_bind_ok.mp h₁
  obtain ⟨record, _, _, hobtain, h₃⟩ := run_bind_ok.mp h₂
  obtain ⟨⟨⟩, _, _, hcontract, h₄⟩ := run_bind_ok.mp h₃
  obtain ⟨hcontracted, rfl, rfl⟩ := run_done_ok.mp hcontract
  obtain ⟨⟨files', dir'⟩, _, _, hsettle, h₅⟩ := run_bind_ok.mp h₄
  obtain ⟨heq, rfl, rfl⟩ := run_done_ok.mp h₅
  obtain ⟨rfl, rfl⟩ := Prod.mk.inj (Except.ok.inj heq)
  have hdigest : record.digest = digest := by
    obtain ⟨⟨⟩, hidentity, -⟩ := Result.bind_ok.mp hcontracted
    rw [Result.failIf_ok, not_or, not_not] at hidentity
    exact hidentity.1
  simp only [hdigest] at hpinned
  obtain ⟨rfl, hpinned₁⟩ := settle_run hobtain hdigest hsettle hpinned
  rw [ExternalMember.materialize, succeeds_bind_of_run hid, succeeds_bind_of_run hpin]
  simp only
  rw [succeeds_bind_of_run hobtain, succeeds_bind_of_run hcontract]
  rw [succeeds_settle hpinned₁ hdigest]
  constructor
  · rintro ⟨d, hd, -⟩
    exact ⟨d, hd⟩
  · rintro ⟨d, hd⟩
    exact ⟨d, hd, _, _, _, rfl⟩

/-- Whatever stands at its place, a member is materialized from what its digest stands for. -/
theorem pinned_member {id version : String} {artifact : LibraryArtifactPin} {kind : MemberKind}
    {member member' : ExternalMember} {prior' : Prior} {dir' : Materialized}
    {past' : List (Event StoreOp StoreOp.Reply)} {s' : World}
    (h : run World.step Environment.quiet (ExternalMember.materialize host id version artifact kind
      target runtimeId runtimeDigest projectRoot prior) past w = ⟨.ok (member, dir), past₂, s⟩)
    (hpinned : host.Pinned s member.digest files entries)
    (h' : run World.step Environment.quiet (ExternalMember.materialize host id version artifact kind
      target runtimeId runtimeDigest projectRoot prior') past w = ⟨.ok (member', dir'), past', s'⟩) :
    host.Pinned s' member'.digest files entries := by
  obtain ⟨⟨⟩, _, _, hid, h₁⟩ := run_bind_ok.mp h
  obtain ⟨⟨digest, source⟩, _, _, hpin, h₂⟩ := run_bind_ok.mp h₁
  obtain ⟨record, _, _, hobtain, h₃⟩ := run_bind_ok.mp h₂
  obtain ⟨⟨⟩, _, _, hcontract, h₄⟩ := run_bind_ok.mp h₃
  obtain ⟨hcontracted, rfl, rfl⟩ := run_done_ok.mp hcontract
  obtain ⟨⟨files', dir₁⟩, _, _, hsettle, h₅⟩ := run_bind_ok.mp h₄
  obtain ⟨heq, rfl, rfl⟩ := run_done_ok.mp h₅
  obtain ⟨rfl, rfl⟩ := Prod.mk.inj (Except.ok.inj heq)
  have hdigest : record.digest = digest := by
    obtain ⟨⟨⟩, hidentity, -⟩ := Result.bind_ok.mp hcontracted
    rw [Result.failIf_ok, not_or, not_not] at hidentity
    exact hidentity.1
  simp only [hdigest] at hpinned
  obtain ⟨rfl, hpinned₁⟩ := settle_run hobtain hdigest hsettle hpinned
  -- up to the directory both runs are the same
  rw [ExternalMember.materialize, run_bind_of_run hid, run_bind_of_run hpin] at h'
  simp only at h'
  rw [run_bind_of_run hobtain, run_bind_of_run hcontract] at h'
  obtain ⟨⟨files'', dir''⟩, _, _, hsettle', h₅'⟩ := run_bind_ok.mp h'
  obtain ⟨heq', rfl, rfl⟩ := run_done_ok.mp h₅'
  obtain ⟨rfl, rfl⟩ := Prod.mk.inj (Except.ok.inj heq')
  have hsettled := Establishes.of_run (establishes_settle hpinned₁ hdigest) hsettle'
  have hstate := hsettled.1
  rw [hstate, hdigest]
  exact hpinned₁

end Quiet

end Materialize

/-- Whatever a materialized artifact stands in is exact if and only if what stood there before fits
its manifest, and both functions materialize into the same places: those that the manifest and the
archive let through. -/
theorem materialize_isMaterialized_iff {host : ExternalHost} (hunpack : Unpacks host.unpack) :
    (∀ dependency target runtimeId runtimeDigest projectRoot prior env past w library dir past' s,
      run World.step env (ExternalLibrary.materialize host dependency target runtimeId
        runtimeDigest projectRoot prior) past w = ⟨.ok (library, dir), past', s⟩ →
      host.ExactIff s library.digest prior dir) ∧
    (∀ id version artifact kind target runtimeId runtimeDigest projectRoot prior env past w member
        dir past' s,
      run World.step env (ExternalMember.materialize host id version artifact kind target
        runtimeId runtimeDigest projectRoot prior) past w = ⟨.ok (member, dir), past', s⟩ →
      host.ExactIff s member.digest prior dir) ∧
    (∀ dependency target runtimeId runtimeDigest projectRoot prior past w library dir past' s files
        entries,
      run World.step Environment.quiet (ExternalLibrary.materialize host dependency target runtimeId
        runtimeDigest projectRoot prior) past w = ⟨.ok (library, dir), past', s⟩ →
      host.Pinned s library.digest files entries →
      ∀ prior', Succeeds World.step (ExternalLibrary.materialize host dependency target runtimeId
        runtimeDigest projectRoot prior') past w ↔ host.Accepts files entries prior') ∧
    (∀ id version artifact kind target runtimeId runtimeDigest projectRoot prior past w member dir
        past' s files entries,
      run World.step Environment.quiet (ExternalMember.materialize host id version artifact kind
        target runtimeId runtimeDigest projectRoot prior) past w = ⟨.ok (member, dir), past', s⟩ →
      host.Pinned s member.digest files entries →
      ∀ prior', Succeeds World.step (ExternalMember.materialize host id version artifact kind
        target runtimeId runtimeDigest projectRoot prior') past w ↔
          host.Accepts files entries prior') := by
  refine ⟨?_, ?_, ?_, ?_⟩
  · intro dependency target runtimeId runtimeDigest projectRoot prior env past w library dir past' s h
    exact library_exactIff hunpack h
  · intro id version artifact kind target runtimeId runtimeDigest projectRoot prior env past w member
      dir past' s h
    exact member_exactIff hunpack h
  · intro dependency target runtimeId runtimeDigest projectRoot prior past w library dir past' s files
      entries h hpinned prior'
    exact succeeds_library prior' h hpinned
  · intro id version artifact kind target runtimeId runtimeDigest projectRoot prior past w member dir
      past' s files entries h hpinned prior'
    exact succeeds_member prior' h hpinned

/-! ## A tool, and a file left beside it -/

namespace External.Sample

/-- A `tar.zst` of the executable file `tool`. -/
def archive : Bytes :=
  [40, 181, 47, 253, 0, 88, 32, 0, 0, 116, 111, 111, 108, 2, 3, 0, 0, 192, 0, 0, 48, 48, 48, 48,
    55, 53, 53, 0, 48, 48, 48, 48, 48, 48, 48, 0, 48, 48, 48, 48, 48, 48, 48, 0, 82, 0, 0, 48, 16,
    0, 0, 49, 0, 90, 0, 0, 48, 80, 0, 0, 0, 48, 48, 54, 54, 51, 55, 0, 32, 48, 34, 3, 0, 0, 64, 0,
    0, 117, 115, 116, 97, 114, 0, 48, 48, 186, 7, 0, 0, 8, 0, 0, 120, 251, 47, 0, 0]

def archiveHex : String := "a4a471b68c78db93da2bff7aa1c5c0f7df2ea2688902ea8597010cff09cbcce4"

def toolHex : String := "2d711642b726b04401627ca9fbac32f5c8530fb1903cc4db02258717921a4881"

def digest : String := "sha256:" ++ archiveHex

def entry : TarEntry where
  path := "tool"
  entryType := .regular
  mode := 0o755
  linkName := none
  content := [120]

def file : ManifestFile where
  path := "tool"
  sha256 := "sha256:" ++ toolHex
  size := 1
  linkTarget := none
  executable := true

def manifest : Json := .obj
  [("archive", .str "tool-1.0.0.tar.zst"), ("archive_digest", .str digest),
    ("archive_size", .int 97), ("files", .arr [.obj [("executable", .bool true),
      ("path", .str "tool"), ("sha256", .str file.sha256), ("size", .int 1)]]),
    ("name", .str "tool"), ("target", .str "linux-x86_64"), ("total_size", .int 1),
    ("version", .str "1.0.0")]

def component : ComponentContract where
  schema := "openstrata.component/v1"
  id := "tool"
  kind := .tool
  version := "1.0.0"
  provides := []
  requires := []
  environment := []
  install := []
  compatibility := .default
  descriptor := none
  descriptorSha256 := none
  cmake := none
  dependencies := none

def record : ArtifactRecord where
  schema := 1
  kind := .package
  name := "tool"
  version := "1.0.0"
  target := "linux-x86_64"
  profile := none
  digest := digest
  archive := "tool-1.0.0.tar.zst"
  archiveSize := 97
  totalSize := 1
  fileCount := 1
  createdUnix := 0
  producer := none
  importedBy := "ost 0.1.0"
  source := .imported
  trust := .unsigned
  validation := "unvalidated"
  licenses := []
  sbom := none
  sbomDigest := none
  sbomSize := none
  provenance := none
  provenanceDigest := none
  provenanceSize := none
  runtimeId := some "usd"
  runtimeDigest := some digest
  openusdCompatibility := none
  openusdVerification := none
  sourceIdentity := none
  dependencyIdentities := []
  component := some component

def standing (stray : Bool) (name : List String) : Option FileNode :=
  if name = ["tool"] then some (.regular [120] true)
  else if stray = true ∧ name = ["notes"] then some (.regular [121] false)
  else none

theorem standing_eq_some {stray : Bool} {name : List String} {node : FileNode}
    (h : standing stray name = some node) : name = ["tool"] ∨ name = ["notes"] := by
  unfold standing at h
  split_ifs at h with htool hnotes
  · exact .inl htool
  · exact .inr hnotes.2

theorem standing_leaf (stray : Bool) (name more : List String) (node : FileNode) (hmore : more ≠ [])
    (h : standing stray name = some node) : standing stray (name ++ more) = none := by
  by_contra hsome
  obtain ⟨node', h'⟩ := Option.ne_none_iff_exists'.mp hsome
  have hlength : (name ++ more).length = 1 := by
    rcases standing_eq_some h' with h' | h' <;> rw [h'] <;> rfl
  have hname : name.length = 1 := by
    rcases standing_eq_some h with h | h <;> rw [h] <;> rfl
  rw [List.length_append, hname] at hlength
  exact hmore (List.length_eq_zero_iff.mp (by omega))

/-- The tool, and perhaps a stray file. -/
def dir (stray : Bool) : Materialized where
  files := standing stray
  isLink path := (standing stray (partsOf path)).map FileNode.isLink
  readLink _ := none
  opened path := (standing stray (partsOf path)).bind fun
    | .regular content _ => some content
    | .link _ => none
  leaf := standing_leaf stray
  opened_root := by
    intro path h
    simp [h, standing]
  isLink_root := by
    intro path h
    simp [h, standing]
  opened_of_regular := by
    intro path content executable content' h h'
    rw [h] at h'
    exact (Option.some.inj h').symm
  readLink_of_file := by
    intro path node target h hlink
    unfold standing at h hlink
    split_ifs at h hlink with htool hnotes
    · cases hlink
    · cases hlink

def unpack (entries : List TarEntry) : Result Materialized :=
  if entries = [entry] then .ok (dir false) else .error (.io "tool-1.0.0.tar.zst")

theorem unpacks_unpack : Unpacks unpack := by
  rintro entries d - h
  unfold unpack at h
  split_ifs at h with hentries
  obtain rfl := Except.ok.inj h
  subst hentries
  have hparts : partsOf entry.path = ["tool"] := by decide
  have hnode : entry.node = some (.regular [120] true) := by decide
  refine ⟨fun _ => ["tool"], ?_, ?_, ?_, ?_⟩
  · intro e he hsome hroot
    rfl
  · intro name node hname
    have htool : name = ["tool"] ∧ node = .regular [120] true := by
      simpa [dir, standing, eq_comm] using hname
    obtain ⟨rfl, rfl⟩ := htool
    exact ⟨entry, List.mem_singleton.mpr rfl, hnode, rfl⟩
  · intro e he hsome hlinks
    rw [List.mem_singleton.mp he, hparts]
  · intro e he hsome part hpart
    rw [List.mem_singleton.mp he, hparts] at hpart
    refine ⟨entry, List.mem_singleton.mpr rfl, by rw [hnode]; rfl, ?_, hpart⟩
    rw [hparts]
    exact List.cons_ne_nil _ _

def host : ExternalHost where
  store := Store.Sample.store [(97, archiveHex), (1, toolHex)]
    [((jsonBytes manifest).length, manifest)]
  untar bytes := if bytes = archive then some [entry] else none
  unpack := unpack
  fetch _ := .error (.io "offline")
  pid := 1
  createdUnix := 0

def world : World where
  index := some [record]
  objects object := if object = archiveHex then some fun name =>
      if name = MANIFEST_FILE then some (.bytes (jsonBytes manifest))
      else if name = "tool-1.0.0.tar.zst" then some (.bytes archive)
      else none
    else none

def pin : LibraryArtifactPin where
  digest := digest
  source := none
  targets := []

/-- The run that materializes the tool over what stands at its place. -/
def outcome (prior : Prior) :
    Program.Outcome StoreOp StoreOp.Reply World Error (ExternalMember × Materialized) :=
  run World.step Environment.quiet (ExternalMember.materialize host "tool" "1.0.0" pin .tool
    "linux-x86_64" "usd" digest "/work" prior) [] world

/-- What a run that succeeds leaves in the store, and whether the stray file stands. -/
def observe (prior : Prior) :
    Option (String × Result ArtifactRecord × Option Content × Option Content × Bool) :=
  match outcome prior with
  | ⟨.ok (member, dir), _, s⟩ =>
    some (member.digest, resolveIn digest (indexed s), s.file? record.digestHex MANIFEST_FILE,
      s.file? record.digestHex record.archive, (dir.files ["notes"]).isSome)
  | ⟨.error _, _, _⟩ => none

theorem observe_absent : observe .absent = some (digest, .ok record,
    some (.bytes (jsonBytes manifest)), some (.bytes archive), false) := by decide +kernel

theorem outcome_of_observe {prior : Prior} {stray : Bool} (h : observe prior = some (digest,
    .ok record, some (.bytes (jsonBytes manifest)), some (.bytes archive), stray)) :
    ∃ member d past s, outcome prior = ⟨.ok (member, d), past, s⟩ ∧ member.digest = digest ∧
      host.Pinned s digest [file] [entry] ∧ (d.files ["notes"]).isSome = stray := by
  unfold observe at h
  split at h
  · next member d past s houtcome =>
    simp only [Option.some.injEq, Prod.mk.injEq] at h
    obtain ⟨hdigest, hresolve, hmanifest, harchive, hstray⟩ := h
    refine ⟨member, d, past, s, houtcome, hdigest, ⟨record, hresolve, rfl, ?_, ?_⟩, hstray⟩
    · exact ⟨_, manifest, hmanifest, by decide +kernel, by decide +kernel⟩
    · exact ⟨_, harchive, by decide, by decide⟩
  · cases h

/-- The tool is accepted beside a stray file. -/
theorem accepts_occupied : host.Accepts [file] [entry] (.occupied (dir true)) := by
  refine ⟨dir true, rfl, fun f hf => ?_⟩
  rw [List.mem_singleton.mp hf]
  exact ⟨by decide, nofun, fun _ => ⟨[120], by decide, by decide, rfl⟩⟩

end External.Sample

open External.Sample in
theorem materialize_isMaterialized_iff_sample :
    (∃ member d past s, outcome .absent = ⟨.ok (member, d), past, s⟩ ∧
      IsMaterialized host.store.toCodec d [file]) ∧
    host.Accepts [file] [entry] (.occupied (dir true)) := by
  have hunpack : Unpacks host.unpack := unpacks_unpack
  obtain ⟨-, hmember, -, haccepts⟩ := materialize_isMaterialized_iff hunpack
  obtain ⟨member, d, past, s, h, hdigest, hpinned, -⟩ := outcome_of_observe observe_absent
  constructor
  · obtain ⟨files, entries, hpinned', hexact⟩ := hmember _ _ _ _ _ _ _ _ _ _ _ _ _ _ _ _ h
    rw [hdigest] at hpinned'
    obtain ⟨rfl, rfl⟩ := hpinned.functional hpinned'
    refine ⟨member, d, past, s, h, hexact.mpr ⟨?_, ?_, ?_⟩⟩
    · intro f hf f' hf' hparts
      rw [List.mem_singleton.mp hf, List.mem_singleton.mp hf']
    · intro f hf f' hf' more hmore hparts
      rw [List.mem_singleton.mp hf, List.mem_singleton.mp hf'] at hparts
      exact hmore (List.self_eq_append_right.mp hparts)
    · intro e he hsome
      rw [List.mem_singleton.mp he]
      decide
  · rw [← hdigest] at hpinned
    have hsucceeds := (haccepts _ _ _ _ _ _ _ _ _ _ _ _ _ _ _ _ _ h hpinned
      (.occupied (dir true))).mpr accepts_occupied
    exact (haccepts _ _ _ _ _ _ _ _ _ _ _ _ _ _ _ _ _ h hpinned _).mp hsucceeds

open External.Sample in
/-- A file that was left in the directory of a tool stays there. -/
theorem materialize_keeps_stray :
    ¬ ∀ (host : ExternalHost), Unpacks host.unpack →
      ∀ id version artifact kind target runtimeId runtimeDigest projectRoot prior past w member d
          past' s,
        run World.step Environment.quiet (ExternalMember.materialize host id version artifact kind
          target runtimeId runtimeDigest projectRoot prior) past w = ⟨.ok (member, d), past', s⟩ →
        ∃ files entries, host.Pinned s member.digest files entries ∧
          IsMaterialized host.store.toCodec d files := by
  intro hall
  obtain ⟨member, d, past, s, h, hdigest, hpinned, -⟩ := outcome_of_observe observe_absent
  rw [← hdigest] at hpinned
  obtain ⟨⟨member', d'⟩, past', s', hrun⟩ :=
    (succeeds_member (.occupied (dir true)) h hpinned).mpr accepts_occupied
  have hpinned₁ := pinned_member h hpinned hrun
  obtain ⟨files, entries, hpinned', hexact⟩ :=
    hall host unpacks_unpack _ _ _ _ _ _ _ _ _ _ _ _ _ _ _ hrun
  obtain ⟨files', entries', hpinned₂, hiff⟩ := member_exactIff unpacks_unpack hrun
  obtain ⟨rfl, rfl⟩ := hpinned₁.functional hpinned'
  obtain ⟨rfl, rfl⟩ := hpinned₁.functional hpinned₂
  have hfits : Intact (dir true) [file] := hiff.mp hexact
  obtain ⟨f, hf, hname⟩ := hfits.listed ["notes"] (by decide)
  rw [List.mem_singleton.mp hf] at hname
  exact absurd hname (by decide)

end OpenStrata.Plugin
