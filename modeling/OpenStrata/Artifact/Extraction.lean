import OpenStrata.Artifact.Reference
import OpenStrata.Artifact.StoreRuns
import OpenStrata.Core.Paths

/-!
# Extraction

The use edge of the store: a stored artifact is verified against its manifest, or extracted to a
directory. What a directory holds is told apart from what opening a path in it reads, since a
path may go through links. Paths are those of Unix, where files carry an execute bit.

## Main definitions

* `Materialized`: a directory with files and links below it
* `Unpacks`: what is relied on of `tar::Archive::unpack`
* `ArtifactStore.verify`, `ArtifactStore.extract`: the two programs of the store

## Main results

* `compareArchiveFiles_passed`: after a passed comparison the archive and the manifest list the
  same files
* `mem_walkEntries`: a walk over a safe archive finds the file of every entry
-/

namespace OpenStrata

/-! ## Directories -/

/-- A file below a directory, or a link. -/
inductive FileNode
  | regular (content : Bytes) (executable : Bool)
  | link (target : String)
  deriving DecidableEq, Repr

namespace FileNode

def isLink : FileNode → Bool
  | .regular _ _ => false
  | .link _ => true

def executable : FileNode → Bool
  | .regular _ executable => executable
  | .link _ => false

end FileNode

/-- The components of a path below a directory. -/
def partsOf (path : String) : List String := Path.components .linux path

/-- A directory, by paths relative to it. A path may lead through links, also out of the
directory, so that it can be opened although no file stands there. -/
structure Materialized where
  /-- The files and links that stand below the directory itself. -/
  files : List String → Option FileNode
  /-- `symlink_metadata`: whether the path is a link. -/
  isLink : String → Option Bool
  readLink : String → Option String
  /-- What opening a path reads. -/
  opened : String → Option Bytes
  leaf : ∀ name more node, more ≠ [] → files name = some node → files (name ++ more) = none
  opened_root : ∀ path, partsOf path = [] → opened path = none
  isLink_root : ∀ path, partsOf path = [] → isLink path ≠ some true
  opened_of_regular : ∀ path content executable content',
    files (partsOf path) = some (.regular content executable) → opened path = some content' →
      content' = content
  readLink_of_file : ∀ path node target, files (partsOf path) = some node →
    isLink path = some true → readLink path = some target → node = .link target

namespace TarEntry

/-- The file that an entry describes; a directory describes none. -/
def node (e : TarEntry) : Option FileNode :=
  match e.classify with
  | .regular => some (.regular e.content e.isExecutable)
  | .symlink _ => some (.link (e.linkName.getD ""))
  | _ => none

/-- The file that a walk reports for an entry. -/
def archived (codec : Codec) (e : TarEntry) : Option ArchiveFile :=
  match e.classify with
  | .regular => some {
      path := e.gatePath
      sha256 := sha256Hex codec e.content
      size := e.content.length
      linkTarget := none
      executable := e.isExecutable }
  | .symlink target => some {
      path := e.gatePath
      sha256 := sha256Hex codec (utf8 target)
      size := (utf8 target).length
      linkTarget := some target
      executable := false }
  | _ => none

end TarEntry

/-- Where the entries of a safe archive landed. An entry whose path leads through a link of the
archive lands where the link points. -/
structure Lands (entries : List TarEntry) (dir : Materialized) (landing : TarEntry → List String) :
    Prop where
  holds : ∀ e ∈ entries, e.node.isSome → partsOf e.path ≠ [] → (dir.files (landing e)).isSome
  only : ∀ name node, dir.files name = some node →
    ∃ e ∈ entries, e.node = some node ∧ landing e = name
  /-- Only links lead elsewhere. -/
  direct : ∀ e ∈ entries, e.node.isSome →
    (∀ l ∈ entries, ∀ target, l.node = some (.link target) →
      ∀ more, more ≠ [] → partsOf e.path ≠ partsOf l.path ++ more) →
    landing e = partsOf e.path
  /-- Every component of a path stands in the directory: it is a directory above some file, or
  a file or a link. -/
  within : ∀ e ∈ entries, e.node.isSome → ∀ part ∈ partsOf e.path,
    ∃ l ∈ entries, l.node.isSome ∧ partsOf l.path ≠ [] ∧ part ∈ landing l

/-- What is relied on of `tar::Archive::unpack` into an empty directory: it extracts each file of
a safe archive to the location that the path of its entry specifies. -/
def Unpacks (unpack : List TarEntry → Result Materialized) : Prop :=
  ∀ entries dir, scanEntries [] entries = [] → unpack entries = .ok dir →
    ∃ landing, Lands entries dir landing

/-! ## The programs of the store -/

structure VerifyReport where
  digest : String
  archiveDigestOk : Bool
  filesMatched : Nat
  filesMismatched : List String
  filesMissing : List String
  filesExtra : List String
  deriving DecidableEq, Repr

def VerifyReport.passed (report : VerifyReport) : Bool :=
  report.archiveDigestOk && report.filesMismatched == [] && report.filesMissing == [] &&
    report.filesExtra == []

/-- The entries of an archive that is about to be extracted to a vacant place, its digest
checked and every entry safe. -/
def checkedEntries (codec : Codec) (untar : TarReader) (archive : String) (content : Bytes)
    (expectedDigest dest : String) (creatable : Bool) : Result (List TarEntry) := do
  let actual := sha256Hex codec content
  Result.failIf (actual ≠ expectedDigest)
    ((Error.ofCode "ARTIFACT_DIGEST_MISMATCH" .validation
      ("archive '" ++ archive ++ "' hashes to " ++ actual ++ ", expected " ++
        expectedDigest)).withHint
      "the archive is corrupt or was modified after it was built — repackage it")
  Result.failIf (creatable = false) (.io dest)
  let entries ← Result.okOr (.io archive) (untar content)
  let unsafeEntries := scanEntries [] entries
  Result.failIf (unsafeEntries ≠ [])
    (.ofCode "ARTIFACT_UNSAFE_ENTRY" .validation
      ("archive '" ++ archive ++ "' contains " ++ toString unsafeEntries.length ++ " entr" ++
        (if unsafeEntries.length = 1 then "y" else "ies") ++ " unsafe to extract: " ++
        Text.join "; " unsafeEntries))
  return entries

namespace ArtifactStore

variable (store : ArtifactStore)

/-- What the archive of a record compares to its manifest, once its digest is right. -/
def compareStored (untar : TarReader) (record : ArtifactRecord) (content : Bytes) :
    Action VerifyReport := do
  let manifest ← store.producerManifest record
  let expected ← Action.ofResult (manifestFiles manifest)
  let entries ← Action.ofResult
    (Result.okOr (.io (store.filePath record.digestHex record.archive)) (untar content))
  let comparison := compareArchiveFiles (walkEntries store.toCodec [] entries).files expected
  return {
    digest := record.digest, archiveDigestOk := true
    filesMatched := comparison.matched
    filesMismatched := comparison.mismatched
    filesMissing := comparison.missing
    filesExtra := comparison.extra }

/-- `ArtifactStore::verify`. The files of an archive whose digest is wrong are not compared. -/
def verify (untar : TarReader) (digestRef : String) : Action VerifyReport := do
  let record ← store.resolve digestRef
  let content ← store.readContent record.digestHex record.archive
  if sha256Hex store.toCodec content = record.digest then store.compareStored untar record content
  else return {
    digest := record.digest, archiveDigestOk := false, filesMatched := 0
    filesMismatched := [], filesMissing := [], filesExtra := [] }

/-- `ArtifactStore::extract` to a place where nothing is. -/
def extract (untar : TarReader) (unpack : List TarEntry → Result Materialized)
    (digestRef dest : String) (creatable : Bool) : Action (ArtifactRecord × Materialized) := do
  let record ← store.resolve digestRef
  let content ← store.readContent record.digestHex record.archive
  let entries ← Action.ofResult (checkedEntries store.toCodec untar
    (store.filePath record.digestHex record.archive) content record.digest dest creatable)
  let dir ← Action.ofResult (unpack entries)
  return (record, dir)

/-- `pull`: fetch a dist directory, verify it against the policy and import it. What a transport
resolves and fetches is up to the remote side: a directory and the selector it advertises. -/
def pull (untar : TarReader) (fetch : RemoteReference → Result (DistPath × Option String))
    (pid createdUnix : Nat) (reference : RemoteReference) (policy : PullPolicy) :
    Action ArtifactRecord := do
  Action.ofResult (Result.failIf (¬ reference.isPinned)
    ((Error.ofCode "ARTIFACT_REFERENCE_MUTABLE" .usage ("'" ++ reference.locator ++
      "' pins no digest — tags are convenience, digests are the contract")).withHint
      ("resolve the tag first: \x60ost artifact resolve <reference>\x60 and pull the " ++
        "@sha256:<digest> form it prints")))
  Action.ofResult (Result.failIf (policy.expectedArtifactDigest.any fun e => !isSha256Ref e)
    (.usage ("expected artifact digest '" ++ policy.expectedArtifactDigest.getD "" ++
      "' is not sha256:<64 hex chars>")))
  Action.ofResult (Result.failIf
    (policy.requireOpenusdVersion.isSome ∧ policy.requireOpenusd.isNone)
    (.usage "an OpenUSD version requirement needs a matching OpenUSD consumer cell"))
  Action.ofResult (Result.failIf
    (policy.requireOpenusdVersion.any fun version => (Text.trim version).isEmpty)
    (.usage "the required OpenUSD version cannot be empty"))
  let fetched ← Action.ofResult (fetch reference)
  let _ ← Action.ofResult (verifyDist store.toCodec untar fetched.1 policy fetched.2)
  let outcome ← store.importDist pid createdUnix fetched.1 .imported
  return outcome.record

end ArtifactStore

/-! ## Comparing an archive with its manifest -/

section Compare

variable {codec : Codec} {actual : List ArchiveFile} {expected : List ManifestFile}
  {seen : List String} {entries : List TarEntry}

theorem compareExpected_passed (hmismatched : (compareExpected actual seen expected).mismatched = [])
    (hmissing : (compareExpected actual seen expected).missing = []) :
    ∀ want ∈ expected, ∃ f, actual.find? (·.path == want.path) = some f ∧ sameFile f want := by
  induction expected generalizing seen with
  | nil => exact fun want hwant => absurd hwant List.not_mem_nil
  | cons want rest ih =>
    rw [compareExpected] at hmismatched hmissing
    by_cases hseen : want.path ∈ seen
    · rw [if_pos hseen] at hmismatched
      cases hmismatched
    · rw [if_neg hseen] at hmismatched hmissing
      cases hfind : actual.find? (·.path == want.path) with
      | none =>
        rw [hfind] at hmissing
        cases hmissing
      | some f =>
        simp only [hfind] at hmismatched hmissing
        split at hmismatched
        · next hsame =>
          rw [if_pos hsame] at hmissing
          exact List.forall_mem_cons.mpr ⟨⟨f, hfind, hsame⟩, ih hmismatched hmissing⟩
        · cases hmismatched

theorem extraFiles_nil (h : extraFiles expected seen actual = []) :
    (∀ f ∈ actual, f.path ∉ seen ∧ ∃ want ∈ expected, want.path = f.path) ∧
      actual.Pairwise fun f f' => f.path ≠ f'.path := by
  induction actual generalizing seen with
  | nil => exact ⟨fun f hf => absurd hf List.not_mem_nil, .nil⟩
  | cons f rest ih =>
    rw [extraFiles] at h
    split_ifs at h with hextra
    rw [not_or, not_not] at hextra
    obtain ⟨hseen, hlisted⟩ := hextra
    obtain ⟨hall, hpairwise⟩ := ih h
    constructor
    · refine List.forall_mem_cons.mpr ⟨⟨hseen, ?_⟩, fun f' hf' => ?_⟩
      · obtain ⟨want, hwant, hpath⟩ := List.any_eq_true.mp hlisted
        exact ⟨want, hwant, by simpa using hpath⟩
      · obtain ⟨hnot, hwant⟩ := hall f' hf'
        exact ⟨fun hmem => hnot (List.mem_cons_of_mem _ hmem), hwant⟩
    · refine List.pairwise_cons.mpr ⟨fun f' hf' heq => ?_, hpairwise⟩
      exact (hall f' hf').1 (heq ▸ List.mem_cons_self)

/-- After a passed comparison, the archive and the manifest list the same files. -/
theorem compareArchiveFiles_passed (h : (compareArchiveFiles actual expected).passed) :
    (∀ want ∈ expected, ∃ f ∈ actual, f.path = want.path ∧ sameFile f want) ∧
      ∀ f ∈ actual, ∃ want ∈ expected, want.path = f.path ∧ sameFile f want := by
  simp only [FileComparison.passed, compareArchiveFiles, Bool.and_eq_true, beq_iff_eq] at h
  obtain ⟨⟨hmismatched, hmissing⟩, hextra⟩ := h
  have hexpected := compareExpected_passed hmismatched hmissing
  obtain ⟨hall, hpairwise⟩ := extraFiles_nil hextra
  constructor
  · intro want hwant
    obtain ⟨f, hfind, hsame⟩ := hexpected want hwant
    exact ⟨f, List.mem_of_find?_eq_some hfind, by simpa using List.find?_some hfind, hsame⟩
  · intro f hf
    obtain ⟨-, want, hwant, hpath⟩ := hall f hf
    obtain ⟨f', hfind, hsame⟩ := hexpected want hwant
    have hpath' : f'.path = want.path := by simpa using List.find?_some hfind
    -- no two archived files share a path
    have heq : f' = f := List.inj_on_of_nodup_map (List.pairwise_map.mpr hpairwise)
      (List.mem_of_find?_eq_some hfind) hf (hpath'.trans hpath)
    exact ⟨want, hwant, hpath, heq ▸ hsame⟩

/-- A walk over a safe archive finds the file of every entry. -/
theorem mem_walkEntries (h : scanEntries seen entries = []) {f : ArchiveFile} :
    f ∈ (walkEntries codec seen entries).files ↔ ∃ e ∈ entries, e.archived codec = some f := by
  induction entries generalizing seen with
  | nil => simp [walkEntries]
  | cons entry rest ih =>
    rw [scanEntries] at h
    rw [walkEntries]
    simp only [List.mem_cons, exists_eq_or_imp]
    cases hclass : entry.classify with
    | unsafeEntry reason =>
      simp only [hclass] at h
      cases h
    | directory =>
      simp only [hclass] at h ⊢
      simp [ih h, TarEntry.archived, hclass]
    | regular =>
      simp only [hclass] at h ⊢
      split_ifs at h with hseen
      simp only [if_neg hseen, List.mem_cons, ih h, TarEntry.archived, hclass, Option.some.injEq]
      exact or_congr_left eq_comm
    | symlink target =>
      simp only [hclass] at h ⊢
      split_ifs at h with hseen
      simp only [if_neg hseen, List.mem_cons, ih h, TarEntry.archived, hclass, Option.some.injEq]
      exact or_congr_left eq_comm

/-- The file of an entry is the one its walk reports, under the path the gate judges. -/
theorem TarEntry.archived_of_node {e : TarEntry} {node : FileNode} (h : e.node = some node) :
    ∃ f, e.archived codec = some f ∧ f.path = e.gatePath := by
  unfold TarEntry.node at h
  unfold TarEntry.archived
  cases hclass : e.classify with
  | regular => exact ⟨_, rfl, rfl⟩
  | symlink target => exact ⟨_, rfl, rfl⟩
  | directory =>
    rw [hclass] at h
    cases h
  | unsafeEntry reason =>
    rw [hclass] at h
    cases h

theorem TarEntry.node_of_archived {e : TarEntry} {f : ArchiveFile}
    (h : e.archived codec = some f) : e.node.isSome ∧ f.path = e.gatePath := by
  unfold TarEntry.archived at h
  unfold TarEntry.node
  cases hclass : e.classify with
  | regular =>
    rw [hclass] at h
    obtain rfl := Option.some.inj h
    exact ⟨rfl, rfl⟩
  | symlink target =>
    rw [hclass] at h
    obtain rfl := Option.some.inj h
    exact ⟨rfl, rfl⟩
  | directory =>
    rw [hclass] at h
    cases h
  | unsafeEntry reason =>
    rw [hclass] at h
    cases h

/-- A safe link keeps its target, with forward slashes. -/
theorem TarEntry.classify_symlink {e : TarEntry} {target : String}
    (h : e.classify = .symlink target) : target = forwardSlashes (e.linkName.getD "") := by
  unfold TarEntry.classify classifyEntry at h
  split at h
  · cases h
  · cases htype : e.entryType with
    | regular => simp [htype] at h
    | directory => simp [htype] at h
    | other name => simp [htype] at h
    | symlink =>
      simp only [htype, TarEntry.gateTarget, if_true, Option.getD_some] at h
      split at h
      · cases h
      · exact (EntryClass.symlink.inj h).symm

end Compare

/-! ## What the programs have read -/

/-- What a program of the store has established when it succeeds, whatever faults it met. -/
abbrev Establishes {α : Type} (env : Environment StoreOp StoreOp.Reply StoreFault) (p : Action α)
    (s : World) (Q : α → World → Prop) : Prop :=
  Program.Spec World.step env (fun _ => True) (fun _ => True) p s Q

/-- The archive and the manifest that a record of the store stands for. -/
structure Holds (store : ArtifactStore) (untar : TarReader) (s : World) (record : ArtifactRecord)
    (files : List ManifestFile) (entries : List TarEntry) : Prop where
  manifest : ∃ c manifest, s.file? record.digestHex MANIFEST_FILE = some c ∧
    store.parse (store.contentBytes c) = some manifest ∧ manifestFiles manifest = .ok files
  archive : ∃ c, s.file? record.digestHex record.archive = some c ∧
    sha256Hex store.toCodec (store.contentBytes c) = record.digest ∧
    untar (store.contentBytes c) = some entries

/-- The archive of a record and its manifest list the same files. -/
def Agrees (codec : Codec) (files : List ManifestFile) (entries : List TarEntry) : Prop :=
  (compareArchiveFiles (walkEntries codec [] entries).files files).passed

section Programs

variable {store : ArtifactStore} {env : Environment StoreOp StoreOp.Reply StoreFault} {s : World}
  {untar : TarReader} {digestRef : String} {record : ArtifactRecord}

/-- A chain that pins a digest has hashed the archive to it. -/
theorem verifyDist_pinned {codec : Codec} {path : DistPath} {policy : PullPolicy}
    {selector : Option String} {outcome : ChainOutcome} {pinned : String}
    (h : verifyDist codec untar path policy selector = .ok outcome)
    (hpinned : policy.expectedArtifactDigest = some pinned) :
    ∃ content, sha256Hex codec content = pinned := by
  simp only [verifyDist, Result.bind_ok] at h
  obtain ⟨dist, -, fetched, -, selectorStep, -, openusdStep, -, pinnedStep, harchive, -⟩ := h
  obtain ⟨hdigest, content, -, hcontent⟩ := verifyPrimaryArchive_ok harchive
  exact ⟨content, hcontent.trans (hdigest pinned hpinned)⟩

theorem Establishes.trivial {α : Type} (p : Action α) (s : World) :
    Establishes env p s fun _ _ => True := by
  refine ⟨fun past _ => ?_⟩
  rcases Program.run World.step env p past s with ⟨r, past', s'⟩
  cases r with
  | ok a => exact True.intro
  | error e => exact True.intro

theorem Establishes.of_run {α : Type} {p : Action α} {Q : α → World → Prop}
    (h : Establishes env p s Q) {past past' : List (Event StoreOp StoreOp.Reply)} {a : α}
    {s' : World} (hrun : Program.run World.step env p past s = ⟨.ok a, past', s'⟩) : Q a s' :=
  Program.Spec.of_ok h (Program.faultsWithin_of_forall (fun _ => True.intro) _ _ _) hrun

theorem Establishes.ofResult {α : Type} {r : Result α} :
    Establishes env (Action.ofResult r) s fun a s' => s' = s ∧ r = .ok a := by
  cases r with
  | ok a => exact Program.Spec.done_ok ⟨rfl, rfl⟩
  | error e => exact Program.Spec.done_error True.intro

theorem establishes_readContent {object name : String} :
    Establishes env (store.readContent object name) s fun content s' => s' = s ∧
      ∃ c, s.file? object name = some c ∧ store.contentBytes c = content := by
  apply Program.Spec.bind (R := fun reply s' => s' = s ∧
    ∀ c, reply = some c → s.file? object name = some c)
  · refine Program.Spec.perform fun fault _ => ⟨rfl, fun c hc => ?_⟩
    simp only [World.step_readFile] at hc
    split_ifs at hc
    exact hc
  · rintro reply s' ⟨rfl, hreply⟩
    apply Program.Spec.mono Establishes.ofResult
    · rintro content s' ⟨rfl, hcontent⟩
      obtain ⟨c, rfl, rfl⟩ := Option.map_eq_some_iff.mp (Result.okOr_ok.mp hcontent)
      exact ⟨rfl, c, hreply c rfl, rfl⟩
    · exact fun _ h => h

theorem establishes_producerManifest :
    Establishes env (store.producerManifest record) s fun manifest s' => s' = s ∧
      ∃ c, s.file? record.digestHex MANIFEST_FILE = some c ∧
        store.parse (store.contentBytes c) = some manifest := by
  apply Program.Spec.bind establishes_readContent
  rintro content s' ⟨rfl, c, hc, rfl⟩
  apply Program.Spec.mono Establishes.ofResult
  · rintro manifest s' ⟨rfl, hparse⟩
    exact ⟨rfl, c, hc, Result.okOr_ok.mp hparse⟩
  · exact fun _ h => h

/-- A passed verification has compared the archive with the manifest. -/
theorem establishes_verify :
    Establishes env (store.verify untar digestRef) s fun report s' => s' = s ∧
      (report.passed → ∃ record files entries, resolveIn digestRef (indexed s) = .ok record ∧
        Holds store untar s record files entries ∧ Agrees store.toCodec files entries) := by
  apply Program.Spec.bind (ArtifactStore.spec_resolve True.intro)
  rintro record s' ⟨rfl, hresolve⟩
  apply Program.Spec.bind establishes_readContent
  rintro content s' ⟨rfl, c, hc, rfl⟩
  split
  · next hdigest =>
    apply Program.Spec.bind establishes_producerManifest
    rintro manifest s' ⟨rfl, cm, hcm, hparse⟩
    apply Program.Spec.bind Establishes.ofResult
    rintro files s' ⟨rfl, hfiles⟩
    apply Program.Spec.bind Establishes.ofResult
    rintro entries s' ⟨rfl, hentries⟩
    apply Program.Spec.pure
    refine ⟨rfl, fun hpassed => ⟨record, files, entries, hresolve, ?_, ?_⟩⟩
    · exact ⟨⟨cm, manifest, hcm, hparse, hfiles⟩, c, hc, hdigest, Result.okOr_ok.mp hentries⟩
    · simpa [Agrees, VerifyReport.passed, FileComparison.passed] using hpassed
  · apply Program.Spec.pure
    exact ⟨rfl, fun hpassed => by simp [VerifyReport.passed] at hpassed⟩

theorem checkedEntries_ok {codec : Codec} {archive dest : String} {content : Bytes}
    {creatable : Bool} {entries : List TarEntry} :
    checkedEntries codec untar archive content digestRef dest creatable = .ok entries ↔
      creatable = true ∧ untar content = some entries ∧ scanEntries [] entries = [] ∧
        sha256Hex codec content = digestRef := by
  simp only [checkedEntries, Result.bind_ok, Result.failIf_ok, Result.okOr_ok, not_not,
    Bool.not_eq_false]
  constructor
  · rintro ⟨⟨⟩, hdigest, ⟨⟩, hcreatable, entries', hread, ⟨⟩, hsafe, h⟩
    obtain rfl := Except.ok.inj h
    exact ⟨hcreatable, hread, hsafe, hdigest⟩
  · rintro ⟨hcreatable, hread, hsafe, hdigest⟩
    exact ⟨⟨⟩, hdigest, ⟨⟩, hcreatable, entries, hread, ⟨⟩, hsafe, rfl⟩

/-- An extraction has unpacked the safe entries of the archive that its digest stands for. -/
theorem establishes_extract {unpack : List TarEntry → Result Materialized} {dest : String}
    {creatable : Bool} :
    Establishes env (store.extract untar unpack digestRef dest creatable) s fun extracted s' =>
      s' = s ∧ creatable = true ∧ ∃ c entries, resolveIn digestRef (indexed s) = .ok extracted.1 ∧
        s.file? extracted.1.digestHex extracted.1.archive = some c ∧
        untar (store.contentBytes c) = some entries ∧ scanEntries [] entries = [] ∧
        unpack entries = .ok extracted.2 := by
  apply Program.Spec.bind (ArtifactStore.spec_resolve True.intro)
  rintro record s' ⟨rfl, hresolve⟩
  apply Program.Spec.bind establishes_readContent
  rintro content s' ⟨rfl, c, hc, rfl⟩
  apply Program.Spec.bind Establishes.ofResult
  rintro entries s' ⟨rfl, hentries⟩
  apply Program.Spec.bind Establishes.ofResult
  rintro dir s' ⟨rfl, hdir⟩
  apply Program.Spec.pure
  obtain ⟨hcreatable, hread, hsafe, -⟩ := checkedEntries_ok.mp hentries
  exact ⟨rfl, hcreatable, c, entries, hresolve, hc, hread, hsafe, hdir⟩

/-- An index that was just upserted lists the digest of the record. -/
theorem establishes_indexUpsert :
    Establishes env (store.indexUpsert record) s fun _ s' =>
      ∃ r ∈ indexed s', r.digest = record.digest := by
  apply Program.Spec.mono (ArtifactStore.spec_indexUpsert (w := s) (fun h => h) rfl)
  · rintro - s' rfl
    refine ⟨record.migrateLegacyProducer, ?_, ?_⟩
    · exact List.mem_map.mpr ⟨record, mem_upsertRecord.mpr (.inl rfl), rfl⟩
    · rw [ArtifactRecord.migrateLegacyProducer]
      split <;> rfl
  · exact fun _ h => h

theorem establishes_importPresent {pid : Nat} {incoming : Incoming} :
    Establishes env (store.importPresent pid incoming) s fun outcome s' =>
      ∃ r ∈ indexed s', r.digest = outcome.record.digest := by
  unfold ArtifactStore.importPresent
  iterate 8
    apply Program.Spec.bind (Establishes.trivial _ _)
    rintro _ _ -
  apply Program.Spec.bind establishes_indexUpsert
  rintro - s' hindexed
  exact Program.Spec.pure hindexed

theorem establishes_importFresh {pid : Nat} {incoming : Incoming} :
    Establishes env (store.importFresh pid incoming) s fun outcome s' =>
      ∃ r ∈ indexed s', r.digest = outcome.record.digest := by
  unfold ArtifactStore.importFresh
  iterate 5
    apply Program.Spec.bind (Establishes.trivial _ _)
    rintro _ _ -
  apply Program.Spec.bind establishes_indexUpsert
  rintro - s'' hindexed
  exact Program.Spec.pure hindexed

/-- A pulled artifact is indexed under the digest its policy pins. -/
theorem establishes_pull {fetch : RemoteReference → Result (DistPath × Option String)}
    {pid createdUnix : Nat} {reference : RemoteReference} {policy : PullPolicy} {pinned : String}
    (hpinned : policy.expectedArtifactDigest = some pinned) :
    Establishes env (store.pull untar fetch pid createdUnix reference policy) s fun record s' =>
      (∃ r ∈ indexed s', r.digest = record.digest) ∧
        ∃ content, sha256Hex store.toCodec content = pinned := by
  unfold ArtifactStore.pull
  iterate 4
    apply Program.Spec.bind (Establishes.trivial _ _)
    rintro _ _ -
  apply Program.Spec.bind (Establishes.trivial _ _)
  rintro fetched s' -
  apply Program.Spec.bind Establishes.ofResult
  rintro outcome s' ⟨rfl, hverified⟩
  have hdigest := verifyDist_pinned hverified hpinned
  apply Program.Spec.bind (R := fun outcome s' => ∃ r ∈ indexed s', r.digest = outcome.record.digest)
  · apply Program.Spec.bind (Establishes.trivial _ _)
    rintro incoming s' -
    apply Program.Spec.bind (Establishes.trivial _ _)
    rintro present s' -
    split
    · exact establishes_importPresent
    · exact establishes_importFresh
  · intro imported s' hindexed
    exact Program.Spec.pure ⟨hindexed, hdigest⟩

/-! ### Runs without faults -/

theorem endsWith_resolve (h : resolveIn digestRef (indexed s) = .ok record) :
    Program.EndsWith World.step (store.resolve digestRef) s (.ok record) := by
  obtain ⟨needle, hneedle, -⟩ := Result.bind_ok.mp h
  apply Program.EndsWith.bind_ok (a := needle)
  · rw [hneedle]
    exact Program.EndsWith.done _ _
  apply Program.EndsWith.bind_ok (a := indexed s)
  · apply Program.EndsWith.bind_ok (Program.EndsWith.perform rfl)
    exact Program.EndsWith.done _ _
  · rw [h]
    exact Program.EndsWith.done _ _

theorem endsWith_readContent {object name : String} {c : Content}
    (h : s.file? object name = some c) :
    Program.EndsWith World.step (store.readContent object name) s
      (.ok (store.contentBytes c)) := by
  apply Program.EndsWith.bind_ok (a := some c)
  · apply Program.EndsWith.perform
    simp [World.step_readFile, h]
  · exact Program.EndsWith.done _ _

theorem endsWith_producerManifest {c : Content} {manifest : Json}
    (h : s.file? record.digestHex MANIFEST_FILE = some c)
    (hparse : store.parse (store.contentBytes c) = some manifest) :
    Program.EndsWith World.step (store.producerManifest record) s (.ok manifest) := by
  apply Program.EndsWith.bind_ok (endsWith_readContent h)
  rw [hparse]
  exact Program.EndsWith.done _ _

theorem endsWith_extract {unpack : List TarEntry → Result Materialized} {dest : String}
    {c : Content} {entries : List TarEntry} {dir : Materialized}
    (hresolve : resolveIn digestRef (indexed s) = .ok record)
    (hc : s.file? record.digestHex record.archive = some c)
    (hdigest : sha256Hex store.toCodec (store.contentBytes c) = record.digest)
    (huntar : untar (store.contentBytes c) = some entries) (hsafe : scanEntries [] entries = [])
    (hunpack : unpack entries = .ok dir) :
    Program.EndsWith World.step (store.extract untar unpack digestRef dest true) s
      (.ok (record, dir)) := by
  apply Program.EndsWith.bind_ok (endsWith_resolve hresolve)
  apply Program.EndsWith.bind_ok (endsWith_readContent hc)
  apply Program.EndsWith.bind_ok (a := entries)
  · rw [checkedEntries_ok.mpr ⟨rfl, huntar, hsafe, hdigest⟩]
    exact Program.EndsWith.done _ _
  apply Program.EndsWith.bind_ok (a := dir)
  · rw [hunpack]
    exact Program.EndsWith.done _ _
  · exact Program.EndsWith.done _ _

end Programs

end OpenStrata
