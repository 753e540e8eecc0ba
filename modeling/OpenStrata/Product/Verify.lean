import OpenStrata.Artifact.Archive
import OpenStrata.Artifact.Evidence
import OpenStrata.Product.Contract

/-!
# Verification of a product

A product is an archive of archives: each member comes with its own archive, the manifest that
its packaging wrote, a list of checksums and evidence. Verification extracts the product, then
each member, and compares what is listed with what is there.

What the comparisons leave open is the other direction: a file of a member that its manifest
does not list is extracted and installed like the others, and evidence only has to exist.

## Main definitions

* `Tree`: an extracted archive
* `verifyPluginProduct`: the verification of a product
* `Exact`: the files of a member are those listed, and its evidence has checksums

## Main results

* `verifyMemberManifestFiles_ok`: every listed file is there with its digest and size
* `exact_iff`: when the verification of a member is exact
-/

namespace OpenStrata.Product

/-! ## Extracted trees -/

/-- What stands where an archive is to be extracted. -/
inductive Place
  /-- Nothing, or an empty directory. -/
  | vacant
  | occupied
  | notDirectory
  deriving DecidableEq, Repr

/-- An extracted archive, by paths relative to its root. A path that goes through a link may be
opened although no regular file stands there. -/
structure Tree where
  path : String
  /-- The regular files. -/
  regular : String → Option Bytes
  /-- What opening a path reads. -/
  opened : String → Option Bytes
  place : String → Place
  opened_of_regular : ∀ name content, regular name = some content → opened name = some content

namespace Tree

variable (tree : Tree) (codec : Codec) (name : String)

def join : String := tree.path ++ "/" ++ name

def isFile : Bool := (tree.opened name).isSome

/-- `fs::read_to_string`. -/
def readText : Result String :=
  Result.okOr (.io (tree.join name)) ((tree.opened name).bind Utf8.text)

def readJson : Result Json := do
  let source ← tree.readText name
  Result.okOr (.parse (tree.join name)) (codec.parse (utf8 source))

/-- `digest_file`: the digest and the size. -/
def digestFile : Result (String × Nat) :=
  Result.okOr (.io (tree.join name))
    ((tree.opened name).map fun content => (sha256Hex codec content, content.length))

end Tree

/-! ## The host -/

structure ToolIdentity where
  id : String
  version : String
  deriving DecidableEq, Repr

/-- What verification uses of its surroundings: the hash function and the parsers, the `tar`
crate, the loaders of bundles and tools, and the lock of the project that it is run in. -/
structure Host where
  codec : Codec
  untar : TarReader
  /-- `tar::Archive::unpack` to a directory. -/
  unpack : String → List TarEntry → Result Tree
  loadBundle : Tree → Result BundleIdentity
  loadTool : Tree → Result ToolIdentity
  /-- The executables of a tool are found, under their names on Windows or elsewhere. -/
  locateExecutables : Tree → Bool → Result Unit
  /-- The id, digest and source of a runtime agree with the project's lock, if there is one. -/
  validateRuntime : Option String → Option String → Option String → Result Unit

/-- `extract_archive` to a directory that is absent or empty. -/
def extractArchive (host : Host) (archive : String) (content : Bytes) (expectedDigest dest : String)
    (place : Place) : Result Tree := do
  let actual := sha256Hex host.codec content
  Result.failIf (actual ≠ expectedDigest)
    ((Error.ofCode "ARTIFACT_DIGEST_MISMATCH" .validation
      ("archive '" ++ archive ++ "' hashes to " ++ actual ++ ", expected " ++
        expectedDigest)).withHint
      "the archive is corrupt or was modified after it was built — repackage it")
  Result.failIf (place = .notDirectory)
    (.usage ("extract destination '" ++ dest ++ "' exists but is not a directory"))
  Result.failIf (place = .occupied)
    (.usage ("refusing to extract into non-empty directory '" ++ dest ++ "'"))
  let entries ← Result.okOr (.io archive) (host.untar content)
  let unsafeEntries := scanEntries [] entries
  Result.failIf (unsafeEntries ≠ [])
    (.ofCode "ARTIFACT_UNSAFE_ENTRY" .validation
      ("archive '" ++ archive ++ "' contains " ++ toString unsafeEntries.length ++ " entr" ++
        (if unsafeEntries.length = 1 then "y" else "ies") ++ " unsafe to extract: " ++
        Text.join "; " unsafeEntries))
  host.unpack dest entries

/-! ## The manifest of a member -/

def fileName (path : String) : String := (Text.segments path).getLastD ""

def parentOf (path : String) : String := Text.join "/" (Text.segments path).dropLast

/-- The fields of a manifest that the product repeats: name, value, and expected value. -/
def memberManifestChecks (productTarget : String) (member : PluginProductMember)
    (manifest : Json) : List (String × Option String × Option String) :=
  let text (path : List String) : Option String := (manifest.pointer? path).bind Json.asStr?
  let tool := member.isTool
  let identity := if tool then "tool" else "plugin"
  [("kind", manifest.getStr? "kind", some (if tool then TOOL_KIND else PLUGIN_BUNDLE_KIND)),
    (if tool then "tool.id" else "plugin.name", text [identity, if tool then "id" else "name"],
      some member.name),
    ("version", text [identity, "version"], some member.version),
    ("kind detail", if tool then some "tool" else text ["plugin", "kind"], some member.kind),
    ("target", manifest.getStr? "target", some productTarget),
    ("archive", manifest.getStr? "archive", some (fileName member.archive)),
    ("archive_digest", manifest.getStr? "archive_digest", some member.archiveDigest)]

def verifyProductMemberManifest (productTarget : String) (member : PluginProductMember)
    (manifest : Json) : Result Unit := do
  Result.forAll (fun (field, actual, expected) => Result.failIf (actual ≠ expected)
      (.validation ("product member '" ++ member.id ++ "' manifest " ++ field ++ " is " ++
        debugText actual ++ ", expected " ++ debugText expected)))
    (memberManifestChecks productTarget member manifest)
  Result.failIf (manifest.get? "dependencies" ≠ some member.dependencies ∧
      ¬ (manifest.get? "dependencies" = none ∧ member.dependencies = .null))
    (.validation ("product member '" ++ member.id ++
      "' dependencies differ from its package manifest"))

/-! ## Checksums -/

/-- The lines of a text without their ends, as `str::lines` gives them. -/
def textLines (text : String) : List String :=
  let parts := Text.split (· == '\n') text
  let strip (line : String) : String := (Text.stripSuffix "\r" line).getD line
  parts.dropLast.map strip ++ parts.getLast?.toList.filter (· ≠ "")

/-- The paths of the lines with their digests, each checked against the file below a directory;
`number` counts the lines, from one. -/
def checksumLines (codec : Codec) (tree : Tree) (root checksums : String) : Nat → List String →
    List String → Result (List (String × String))
  | _, _, [] => .ok []
  | number, paths, line :: rest =>
    if (Text.trim line).isEmpty then checksumLines codec tree root checksums (number + 1) paths rest
    else do
      let (expected, relative) ← Result.okOr (.validation ("'" ++ checksums ++ "' line " ++
        toString number ++ " is not '<sha256>  <path>'")) (Text.splitOnce "  " line)
      Result.failIf (expected.length ≠ 64 ∨ ¬ Text.all Text.isHexDigit expected)
        (.validation ("'" ++ checksums ++ "' line " ++ toString number ++
          " has an invalid SHA-256"))
      Result.failIf (relative ∈ paths)
        (.validation ("'" ++ checksums ++ "' repeats path '" ++ relative ++ "'"))
      let relative ← safeProductJoin relative "member checksum path"
      let (actual, _) ← tree.digestFile codec (root ++ "/" ++ relative)
      Result.failIf (bareDigest actual ≠ expected)
        (.ofCode "PLUGIN_PRODUCT_MEMBER_CHECKSUM_MISMATCH" .validation
          ("member file '" ++ relative ++ "' hashes to " ++ bareDigest actual ++
            ", expected sha256:" ++ expected))
      let others ← checksumLines codec tree root checksums (number + 1) (relative :: paths) rest
      return (relative, expected) :: others

/-- The checksums of a member with the directory that they are about. -/
def memberChecksums (codec : Codec) (tree : Tree) (member : PluginProductMember) :
    Result (List (String × String)) := do
  let source ← tree.readText member.checksums
  checksumLines codec tree (parentOf member.checksums) (tree.join member.checksums) 1 []
    (textLines source)

def verifyMemberChecksums (codec : Codec) (tree : Tree) (member : PluginProductMember) :
    Result Unit := do
  let paths ← memberChecksums codec tree member
  Result.failIf (fileName member.archive ∉ paths.map Prod.fst)
    (.validation ("'" ++ tree.join member.checksums ++ "' does not cover member archive '" ++
      fileName member.archive ++ "'"))

/-! ## Files -/

def manifestFiles (manifest : Json) : Result (List Json) :=
  Result.okOr (.validation "product member manifest is missing array field 'leaking")
    (manifest.index "files").asArr?

def verifyMemberFile (codec : Codec) (tree : Tree) (entry : Json) : Result Unit := do
  let relative ← Result.okOr
    (.validation "product member manifest file entry is missing string 'path'")
    (entry.getStr? "path")
  let expected ← Result.okOr (.validation ("product member manifest entry '" ++ relative ++
    "' is missing string 'sha256'")) (entry.getStr? "sha256")
  validateSha256Digest expected "product member file sha256"
  let expectedSize ← Result.okOr (.validation ("product member manifest entry '" ++ relative ++
    "' is missing integer 'size'")) (entry.index "size").asU64?
  let relative ← safeProductJoin relative "product member file"
  let (actual, size) ← tree.digestFile codec relative
  Result.failIf (actual ≠ expected ∨ size ≠ expectedSize)
    (.ofCode "PLUGIN_PRODUCT_MEMBER_FILE_MISMATCH" .validation
      ("installed member file '" ++ relative ++ "' is " ++ actual ++ " (" ++ toString size ++
        " bytes), expected " ++ expected ++ " (" ++ toString expectedSize ++ " bytes)"))

def verifyMemberManifestFiles (codec : Codec) (tree : Tree) (manifest : Json) : Result Unit := do
  Result.forAll (verifyMemberFile codec tree) (← manifestFiles manifest)

def libraryFileMissing (message : String) : Error :=
  .ofCode "PLUGIN_PRODUCT_LIBRARY_FILE_MISSING" .validation message

def verifyLibraryFile (tree : Tree) (id : String) (packaged : List String) (entry : Json) :
    Result Unit := do
  let relative ← Result.okOr (.validation ("product member library '" ++ id ++
    "' has a non-string file")) entry.asStr?
  Result.failIf (¬ Text.startsWith ("runtime/libraries/" ++ id ++ "/") relative ∨
      relative ∉ packaged)
    (libraryFileMissing ("product member library '" ++ id ++ "' has no packaged file '" ++
      relative ++ "'"))
  let relative ← safeProductJoin relative "product member library file"
  Result.failIf (¬ tree.isFile relative)
    (libraryFileMissing ("product member library '" ++ id ++ "' is missing file '" ++ relative ++
      "'"))

def verifyRequiredFile (id : String) (recorded : List Json) (entry : Json) : Result Unit := do
  let relative ← Result.okOr (.validation ("product member library '" ++ id ++
    "' has a non-string required file")) entry.asStr?
  Result.failIf (¬ recorded.any fun file => file.asStr? == some relative)
    (libraryFileMissing ("product member library '" ++ id ++
      "' is missing declared runtime file '" ++ relative ++ "'"))

def verifyLibrary (tree : Tree) (packaged : List String) (library : Json) : Result Unit :=
  match library.get? "files" with
  | none => Result.failIf (library.get? "required_files").isSome
      (.validation "product member library has required_files but no file inventory")
  | some recorded => do
    let id ← Result.okOr (.validation "product member library closure is missing string 'id'")
      (library.getStr? "id")
    let recorded ← Result.okOr (.validation ("product member library '" ++ id ++
      "' has no recorded files")) (recorded.asArr?.filter fun files => !files.isEmpty)
    Result.forAll (verifyLibraryFile tree id packaged) recorded
    (library.get? "required_files").elim (.ok ()) fun required => do
      let required ← Result.okOr (.validation ("product member library '" ++ id ++
        "' required_files is not an array")) required.asArr?
      Result.forAll (verifyRequiredFile id recorded) required

/-- The library closure and the file inventory describe the same payload. -/
def verifyMemberLibraryFiles (tree : Tree) (manifest : Json) : Result Unit :=
  (manifest.pointer? ["dependencies", "libraries"]).elim (.ok ()) fun libraries => do
    let libraries ← Result.okOr (.validation "product member library closure is not an array")
      libraries.asArr?
    let files ← manifestFiles manifest
    Result.forAll (verifyLibrary tree (files.filterMap (Json.getStr? "path"))) libraries

/-! ## Members -/

def digestMismatch (member : PluginProductMember) (what actual expected : String)
    (size expectedSize : Nat) : Error :=
  .ofCode "PLUGIN_PRODUCT_MEMBER_DIGEST_MISMATCH" .validation
    ("product member '" ++ member.id ++ "' " ++ what ++ " is " ++ actual ++ " (" ++
      toString size ++ " bytes), expected " ++ expected ++ " (" ++ toString expectedSize ++
      " bytes)")

def memberPrefix (member : PluginProductMember) : String := "members/" ++ member.id ++ "/"

def stayUnder (member : PluginProductMember) (field path : String) : Result Unit :=
  Result.failIf (¬ Text.startsWith (memberPrefix member) path)
    (.validation ("product member '" ++ member.id ++ "' " ++ field ++ " must stay under '" ++
      memberPrefix member ++ "'"))

/-- A file of the product has the digest and the size that the contract pins. -/
def verifyPinned (codec : Codec) (tree : Tree) (member : PluginProductMember)
    (what path digest : String) (size : Nat) : Result Unit := do
  let path ← safeProductJoin path ("product member " ++ what)
  let (actual, actualSize) ← tree.digestFile codec path
  Result.failIf (actual ≠ digest ∨ actualSize ≠ size)
    (digestMismatch member what actual digest actualSize size)

def verifyEvidence (tree : Tree) (member : PluginProductMember) (evidence : String) :
    Result Unit := do
  stayUnder member "evidence path" evidence
  let evidence ← safeProductJoin evidence "product member evidence"
  Result.failIf (¬ tree.isFile evidence)
    (.validation ("product member '" ++ member.id ++ "' is missing evidence '" ++ evidence ++ "'"))

def verifyDebug (codec : Codec) (tree : Tree) (member : PluginProductMember)
    (debug : PluginProductDebug) : Result Unit := do
  stayUnder member "debug archive" debug.archive
  verifyPinned codec tree member "debug archive" debug.archive debug.archiveDigest
    debug.archiveSize

/-- The manifest of a member in its product. -/
def memberManifest (codec : Codec) (tree : Tree) (member : PluginProductMember) : Result Json := do
  let path ← safeProductJoin member.manifest "product member manifest"
  tree.readJson codec path

/-- What the extracted tree of a member claims to be. -/
def verifyMemberIdentity (host : Host) (productTarget : String) (member : PluginProductMember)
    (tree : Tree) : Result Unit :=
  if member.isTool then do
    let tool ← (host.loadTool tree).mapError fun error => .validation ("installed product member '" ++
      member.id ++ "' is not a valid workspace tool: " ++ error.message)
    Result.failIf (tool.id ≠ member.id ∨ tool.version ≠ member.version)
      (.ofCode "PLUGIN_PRODUCT_MEMBER_IDENTITY_MISMATCH" .validation
        ("product member '" ++ member.id ++ "' is " ++ member.kind ++ " " ++ member.version ++
          ", but its packaged tool is " ++ tool.id ++ " " ++ tool.version))
    (host.locateExecutables tree
      (Text.splitOnce "-windows-" productTarget).isSome).mapError fun error =>
        .validation ("installed product member '" ++ member.id ++
          "' is missing a declared executable: " ++ error.message)
  else do
    let bundle ← (host.loadBundle tree).mapError fun error => .validation
      ("installed product member '" ++ member.id ++ "' is not a valid plugin bundle: " ++
        error.message)
    Result.failIf (bundle.name ≠ member.id ∨ bundle.version ≠ member.version ∨
        bundle.kind ≠ member.kind)
      (.ofCode "PLUGIN_PRODUCT_MEMBER_IDENTITY_MISMATCH" .validation
        ("product member '" ++ member.id ++ "' is " ++ member.kind ++ " " ++ member.version ++
          ", but its packaged bundle is '" ++ bundle.name ++ "' " ++ bundle.kind ++ " " ++
          bundle.version))

/-- The tree that a member is extracted to, in the directory of its id. -/
def expandMember (host : Host) (tree : Tree) (member : PluginProductMember) : Result Tree := do
  let content ← Result.okOr (.io (tree.join member.archive)) (tree.opened member.archive)
  let expanded := "expanded/" ++ member.id
  extractArchive host (tree.join member.archive) content member.archiveDigest (tree.join expanded)
    (tree.place expanded)

/-- The verification of a member gives the tree that it is extracted to. -/
def verifyProductMember (host : Host) (tree : Tree) (productTarget : String)
    (member : PluginProductMember) : Result Tree := do
  stayUnder member "archive" member.archive
  stayUnder member "manifest" member.manifest
  stayUnder member "checksums" member.checksums
  verifyPinned host.codec tree member "archive" member.archive member.archiveDigest
    member.archiveSize
  let manifest ← memberManifest host.codec tree member
  verifyProductMemberManifest productTarget member manifest
  let runtime (field : String) : Option String :=
    (manifest.pointer? ["provenance", "runtime", field]).bind Json.asStr?
  host.validateRuntime (runtime "id") (runtime "digest") (runtime "source")
  let _ ← safeProductJoin member.checksums "product member checksums"
  verifyMemberChecksums host.codec tree member
  Result.forAll (verifyEvidence tree member) member.evidence
  member.debug.elim (.ok ()) (verifyDebug host.codec tree member)
  let expanded ← expandMember host tree member
  verifyMemberManifestFiles host.codec expanded manifest
  verifyMemberLibraryFiles expanded manifest
  verifyMemberIdentity host productTarget member expanded
  return expanded

/-! ## Products -/

def verifyProductDataFile (codec : Codec) (tree : Tree) (file : PluginProductDataFile) :
    Result Unit := do
  let source ← safeProductJoin file.source "product data source"
  let (digest, size) ← tree.digestFile codec source
  Result.failIf (digest ≠ file.sha256 ∨ size ≠ file.size)
    (.ofCode "PRODUCT_DATA_DIGEST_MISMATCH" .validation
      ("product data '" ++ file.source ++ "' is " ++ digest ++ " (" ++ toString size ++
        " bytes), expected " ++ file.sha256 ++ " (" ++ toString file.size ++ " bytes)"))

/-- A verified product, each member with the tree that it is extracted to. -/
structure VerifiedPluginProduct where
  tree : Tree
  contract : PluginProductContract
  members : List (PluginProductMember × Tree)

/-- The bundle in the directory of a member's id. -/
def loadExpanded (host : Host) (members : List (PluginProductMember × Tree))
    (member : PluginProductMember) : Result BundleIdentity :=
  match members.find? fun entry => entry.1.id == member.id with
  | some (_, tree) => host.loadBundle tree
  | none => .error (.io ("expanded/" ++ member.id))

/-- The verification of a product archive, extracted to an empty directory. -/
def verifyPluginProduct (host : Host) (archive : String) (content : Bytes) (digest root : String) :
    Result VerifiedPluginProduct := do
  let tree ← extractArchive host archive content digest root .vacant
  let value ← tree.readJson host.codec "openstrata.product.json"
  let contract ← Result.okOr (.parse (tree.join "openstrata.product.json"))
    (PluginProductContract.fromJson value)
  validateProductContract contract
  let expanded ← contract.members.mapM (verifyProductMember host tree contract.target)
  let members := contract.members.zip expanded
  let _ ← internalProductBundleDependencies contract (loadExpanded host members)
  Result.forAll (verifyProductDataFile host.codec tree) contract.data
  return { tree, contract, members }

/-- A file below the destination of a member after the installation: copying refuses links and
takes every regular file of the extracted tree. -/
def VerifiedPluginProduct.Installs (verified : VerifiedPluginProduct) (path : String)
    (content : Bytes) : Prop :=
  ∃ entry ∈ verified.members, ∃ name, path = entry.1.destination ++ "/" ++ name ∧
    entry.2.regular name = some content

/-! ## Exactness -/

section Exactness

variable (codec : Codec) (product : Tree) (member : PluginProductMember) (tree : Tree)

/-- A manifest lists a file with its digest and size. -/
def ListsFile (manifest : Json) (name digest : String) (size : Nat) : Prop :=
  ∃ files, (manifest.index "files").asArr? = some files ∧ ∃ entry ∈ files,
    entry.getStr? "path" = some name ∧ entry.getStr? "sha256" = some digest ∧
      (entry.index "size").asU64? = some size

/-- The checksums of a member list a file of the product, with the digest of its content. -/
def BoundBy (evidence : String) : Prop :=
  ∃ lines, memberChecksums codec product member = .ok lines ∧ ∃ line ∈ lines,
    parentOf member.checksums ++ "/" ++ line.1 = evidence ∧
      ∃ content, product.opened evidence = some content ∧
        bareDigest (sha256Hex codec content) = line.2

/-- The regular files of a member are those that its manifest lists, and its evidence is bound by
its checksums. -/
structure Exact : Prop where
  files : ∀ manifest, memberManifest codec product member = .ok manifest → ∀ name digest size,
    (∃ content, tree.regular name = some content ∧ sha256Hex codec content = digest ∧
      content.length = size) ↔ ListsFile manifest name digest size
  evidence : ∀ evidence ∈ member.evidence, BoundBy codec product member evidence

/-- No regular file of a member is missing from its manifest, no entry of the manifest is a link,
and the checksums have a line for each evidence file. -/
structure Covered : Prop where
  unlisted : ∀ manifest, memberManifest codec product member = .ok manifest →
    ∀ name, (tree.regular name).isSome → ∃ digest size, ListsFile manifest name digest size
  links : ∀ manifest, memberManifest codec product member = .ok manifest →
    ∀ name digest size, ListsFile manifest name digest size → (tree.regular name).isSome
  evidence : ∀ evidence ∈ member.evidence, ∃ lines, memberChecksums codec product member = .ok lines ∧
    ∃ line ∈ lines, parentOf member.checksums ++ "/" ++ line.1 = evidence

end Exactness

/-- A product is verified exactly: each member is, and what is installed has a checked digest. -/
structure VerifiedPluginProduct.IsExact (codec : Codec) (verified : VerifiedPluginProduct) :
    Prop where
  members : ∀ entry ∈ verified.members, Exact codec verified.tree entry.1 entry.2
  installed : ∀ path content, verified.Installs path content → ∃ entry ∈ verified.members,
    ∃ manifest, memberManifest codec verified.tree entry.1 = .ok manifest ∧ ∃ name,
      path = entry.1.destination ++ "/" ++ name ∧
        ListsFile manifest name (sha256Hex codec content) content.length

/-! ## What the checks establish -/

section Checks

variable {host : Host} {codec : Codec} {product tree : Tree} {member : PluginProductMember}
  {manifest : Json} {name digest : String} {size : Nat} {content : Bytes}

theorem digestFile_ok : tree.digestFile codec name = .ok (digest, size) ↔
    ∃ content, tree.opened name = some content ∧ sha256Hex codec content = digest ∧
      content.length = size := by
  simp [Tree.digestFile]

/-- Every listed file opens with its digest and size. -/
theorem verifyMemberManifestFiles_ok
    (h : verifyMemberManifestFiles codec tree manifest = .ok ())
    (hlists : ListsFile manifest name digest size) :
    ∃ content, tree.opened name = some content ∧ sha256Hex codec content = digest ∧
      content.length = size := by
  obtain ⟨files, hfiles, entry, hentry, hname, hdigest, hsize⟩ := hlists
  simp only [verifyMemberManifestFiles, manifestFiles, Result.bind_ok, Result.okOr_ok,
    Result.forAll_ok] at h
  obtain ⟨leaking, hleaking, hall⟩ := h
  obtain rfl := Option.some.inj (hfiles.symm.trans hleaking)
  have hcheck := hall entry hentry
  simp only [verifyMemberFile, Result.bind_ok, Result.okOr_ok, safeProductJoin_ok, hname, hdigest,
    hsize, Option.some.injEq, Result.failIf_ok, not_or, not_not] at hcheck
  obtain ⟨_, rfl, _, rfl, ⟨⟩, -, _, rfl, _, ⟨-, rfl⟩, ⟨actual, size'⟩, hactual, rfl, rfl⟩ := hcheck
  exact digestFile_ok.mp hactual

/-- Every line of the checksums is about a file with its digest. -/
theorem checksumLines_ok {root checksums : String} {lines : List String} :
    ∀ {number : Nat} {paths : List String} {checked : List (String × String)},
      checksumLines codec product root checksums number paths lines = .ok checked →
        ∀ line ∈ checked, ∃ content, product.opened (root ++ "/" ++ line.1) = some content ∧
          bareDigest (sha256Hex codec content) = line.2 := by
  induction lines with
  | nil =>
    intro number paths checked h
    obtain rfl := Except.ok.inj h
    exact fun line hline => absurd hline List.not_mem_nil
  | cons text rest ih =>
    intro number paths checked h
    unfold checksumLines at h
    by_cases hblank : (Text.trim text).isEmpty
    · rw [if_pos hblank] at h
      exact ih h
    · rw [if_neg hblank] at h
      simp only [Result.bind_ok, Result.okOr_ok, Result.failIf_ok, safeProductJoin_ok,
        not_not] at h
      obtain ⟨⟨expected, relative⟩, -, ⟨⟩, -, ⟨⟩, -, _, ⟨-, rfl⟩, ⟨actual, size⟩, hactual, ⟨⟩,
        hexpected, others, hothers, heq⟩ := h
      obtain rfl := Except.ok.inj heq
      refine List.forall_mem_cons.mpr ⟨?_, ih hothers⟩
      obtain ⟨content, hcontent, rfl, -⟩ := digestFile_ok.mp hactual
      exact ⟨content, hcontent, hexpected⟩

/-- What the verification of a member has checked. -/
theorem verifyProductMember_ok {productTarget : String}
    (h : verifyProductMember host product productTarget member = .ok tree) :
    ∃ manifest, memberManifest host.codec product member = .ok manifest ∧
      verifyMemberManifestFiles host.codec tree manifest = .ok () ∧
      ∃ lines, memberChecksums host.codec product member = .ok lines := by
  simp only [verifyProductMember, Result.bind_ok] at h
  obtain ⟨⟨⟩, -, ⟨⟩, -, ⟨⟩, -, ⟨⟩, -, manifest, hmanifest, ⟨⟩, -, ⟨⟩, -, _, -, ⟨⟩, hchecksums, ⟨⟩, -,
    ⟨⟩, -, expanded, -, ⟨⟩, hfiles, ⟨⟩, -, ⟨⟩, -, heq⟩ := h
  obtain rfl := Except.ok.inj heq
  obtain ⟨lines, hlines, -⟩ := Result.bind_ok.mp hchecksums
  exact ⟨manifest, hmanifest, hfiles, lines, hlines⟩

/-- A verified member is exact exactly when nothing of it falls between the comparisons. -/
theorem exact_iff_covered {productTarget : String}
    (h : verifyProductMember host product productTarget member = .ok tree) :
    Exact host.codec product member tree ↔ Covered host.codec product member tree := by
  obtain ⟨manifest, hmanifest, hfiles, lines, hlines⟩ := verifyProductMember_ok h
  constructor
  · rintro ⟨hexact, hevidence⟩
    refine ⟨fun m hm name hregular => ?_, fun m hm name digest size hlists => ?_,
      fun evidence hmem => ?_⟩
    · obtain ⟨content, hcontent⟩ := Option.isSome_iff_exists.mp hregular
      exact ⟨_, _, (hexact m hm name _ _).mp ⟨content, hcontent, rfl, rfl⟩⟩
    · obtain ⟨content, hcontent, -⟩ := (hexact m hm name digest size).mpr hlists
      exact Option.isSome_iff_exists.mpr ⟨content, hcontent⟩
    · obtain ⟨lines', hlines', line, hline, hpath, -⟩ := hevidence evidence hmem
      exact ⟨lines', hlines', line, hline, hpath⟩
  · rintro ⟨hunlisted, hlinks, hevidence⟩
    refine ⟨fun m hm name digest size => ⟨?_, fun hlists => ?_⟩, fun evidence hmem => ?_⟩
    · rintro ⟨content, hcontent, rfl, rfl⟩
      obtain rfl := Except.ok.inj (hmanifest.symm.trans hm)
      -- the entry of the manifest is about the same content
      obtain ⟨digest, size, hlists⟩ :=
        hunlisted manifest hmanifest name (Option.isSome_iff_exists.mpr ⟨content, hcontent⟩)
      obtain ⟨content', hopened, rfl, rfl⟩ := verifyMemberManifestFiles_ok hfiles hlists
      rw [tree.opened_of_regular name content hcontent] at hopened
      obtain rfl := Option.some.inj hopened
      exact hlists
    · obtain rfl := Except.ok.inj (hmanifest.symm.trans hm)
      obtain ⟨content, hcontent⟩ :=
        Option.isSome_iff_exists.mp (hlinks manifest hmanifest name digest size hlists)
      obtain ⟨content', hopened, hdigest, hsize⟩ := verifyMemberManifestFiles_ok hfiles hlists
      rw [tree.opened_of_regular name content hcontent] at hopened
      obtain rfl := Option.some.inj hopened
      exact ⟨content, hcontent, hdigest, hsize⟩
    · obtain ⟨lines', hlines', line, hline, hpath⟩ := hevidence evidence hmem
      obtain ⟨source, -, hchecked⟩ := Result.bind_ok.mp hlines'
      obtain ⟨content, hcontent, hdigest⟩ := checksumLines_ok hchecked line hline
      exact ⟨lines', hlines', line, hline, hpath, content, hpath ▸ hcontent, hdigest⟩

/-- The members of a verified product are verified. -/
theorem verifyPluginProduct_ok {archive root : String} {verified : VerifiedPluginProduct}
    (h : verifyPluginProduct host archive content digest root = .ok verified) :
    validateProductContract verified.contract = .ok () ∧ ∀ entry ∈ verified.members,
      entry.1 ∈ verified.contract.members ∧
      verifyProductMember host verified.tree verified.contract.target entry.1 = .ok entry.2 := by
  simp only [verifyPluginProduct, Result.bind_ok] at h
  obtain ⟨tree, -, value, -, contract, -, ⟨⟩, hvalid, expanded, hexpanded, _, -, ⟨⟩, -, heq⟩ := h
  obtain rfl := Except.ok.inj heq
  exact ⟨hvalid, (Result.zip_mapM hexpanded).1⟩

/-- The verification of a product is exact exactly when the archive of each member holds no file
that its manifest does not list, the manifest lists no link, and the checksums have a line for each
evidence file. -/
theorem isExact_iff {archive root : String} {verified : VerifiedPluginProduct}
    (h : verifyPluginProduct host archive content digest root = .ok verified) :
    verified.IsExact host.codec ↔ ∀ entry ∈ verified.members,
      Covered host.codec verified.tree entry.1 entry.2 := by
  obtain ⟨-, hmembers⟩ := verifyPluginProduct_ok h
  constructor
  · intro hexact entry hentry
    exact (exact_iff_covered (hmembers entry hentry).2).mp (hexact.members entry hentry)
  · intro hcovered
    have hexact : ∀ entry ∈ verified.members, Exact host.codec verified.tree entry.1 entry.2 :=
      fun entry hentry => (exact_iff_covered (hmembers entry hentry).2).mpr (hcovered entry hentry)
    refine ⟨hexact, ?_⟩
    rintro path content ⟨entry, hentry, name, rfl, hregular⟩
    obtain ⟨manifest, hmanifest, -⟩ := verifyProductMember_ok (hmembers entry hentry).2
    exact ⟨entry, hentry, manifest, hmanifest, name, rfl,
      ((hexact entry hentry).files manifest hmanifest name _ _).mp ⟨content, hregular, rfl, rfl⟩⟩

end Checks

namespace Sample

/-- A tree of regular files. -/
def files (path : String) (contents : List (String × Bytes)) : Tree where
  path := path
  regular name := contents.lookup name
  opened name := contents.lookup name
  place name :=
    if contents.any fun file => Text.startsWith (name ++ "/") file.1 then .occupied else .vacant
  opened_of_regular _ _ h := h

def pluginYaml : Bytes := utf8 "plugin: \x7b\x7d\n"

/-- SHA-256 on the texts that are hashed for the sample, told apart by their length. -/
def sha256 (bytes : Bytes) : Bytes :=
  if bytes.length = 7 then
    [0xa8, 0x79, 0x21, 0x57, 0xcb, 0x4f, 0x27, 0xfb, 0x94, 0x9c, 0x03, 0x5f,
      0x45, 0x51, 0x8c, 0x61, 0xe8, 0x84, 0xbb, 0x86, 0xe6, 0xf4, 0x20, 0x20, 0x43, 0x79,
      0xc2, 0xba, 0xa8, 0xbe, 0xb6, 0x6e]
  else if bytes.length = 6 then
    [0xe3, 0x1a, 0xb6, 0x43, 0xc4, 0x4f, 0x7a, 0x0e, 0xc8, 0x24, 0xb5, 0x9d,
      0x11, 0x94, 0xd6, 0x0d, 0xac, 0x33, 0x42, 0x00, 0xd8, 0x45, 0xe6, 0x1d, 0x2d, 0x28,
      0x9d, 0xaa, 0x0f, 0x08, 0x7e, 0xa4]
  else
    [0x45, 0x0b, 0x18, 0xd7, 0x6c, 0x2e, 0x61, 0x93, 0xa5, 0xe5, 0x28, 0x06,
      0x11, 0x11, 0xd0, 0x2e, 0xe4, 0x6f, 0x85, 0xbb, 0x0d, 0x0d, 0x44, 0x3b, 0x6c, 0xe6,
      0x17, 0x85, 0x97, 0x5e, 0x0d, 0xdc]

def memberDigest : String := "sha256:e31ab643c44f7a0ec824b59d1194d60dac334200d845e61d2d289daa0f087ea4"

def manifest : Json :=
  .obj [("archive", .str "toy.tzst"), ("archive_digest", .str memberDigest),
    ("dependencies", .null),
    ("files", .arr [.obj [("path", .str "openstrata.plugin.yaml"),
      ("sha256", .str "sha256:450b18d76c2e6193a5e528061111d02ee46f85bb0d0d443b6ce61785975e0ddc"),
      ("size", .int 11)]]),
    ("kind", .str PLUGIN_BUNDLE_KIND),
    ("plugin", .obj [("kind", .str "usd-fileformat"), ("name", .str "toy"),
      ("version", .str "1.0.0")]),
    ("target", .str "linux-x86_64")]

def contract : Json :=
  .obj [("schema", .str PRODUCT_SCHEMA), ("name", .str "studio"), ("version", .str "1.0.0"),
    ("target", .str "linux-x86_64"),
    ("install", .obj [("layout", .str "members/<member-id>/"), ("order", .arr [.str "toy"]),
      ("contract", .str "studio")]),
    ("members", .arr [.obj [("id", .str "toy"), ("position", .int 0), ("name", .str "toy"),
      ("version", .str "1.0.0"), ("kind", .str "usd-fileformat"),
      ("archive", .str "members/toy/toy.tzst"), ("archive_digest", .str memberDigest),
      ("archive_size", .int 6), ("manifest", .str "members/toy/manifest.json"),
      ("checksums", .str "members/toy/SHA256SUMS"),
      ("evidence", .arr [.str "members/toy/sbom.spdx.json"]), ("debug", .null),
      ("dependencies", .null)]])]

/-- A product of one bundle. -/
def product : List (String × Bytes) :=
  [("openstrata.product.json", jsonBytes contract), ("members/toy/toy.tzst", utf8 "member"),
    ("members/toy/manifest.json", jsonBytes manifest),
    ("members/toy/SHA256SUMS", utf8 (bareDigest memberDigest ++ "  toy.tzst\n")),
    ("members/toy/sbom.spdx.json", utf8 "\x7b\x7d")]

def entry (file : String × Bytes) : TarEntry := ⟨file.1, .regular, 420, none, file.2⟩

/-- A host whose archives of the product and of its member have these files. -/
def host (member : List (String × Bytes)) : Host where
  codec := {
    sha256 := sha256
    -- the two texts that are parsed are told apart by their first field
    parse := fun bytes => some (if bytes[2]? = some 0x73 then contract else manifest) }
  untar content := some ((if content.length = 7 then product else member).map entry)
  unpack path entries := .ok (files path (entries.map fun e => (e.path, e.content)))
  loadBundle _ := .ok ⟨"toy", "1.0.0", "usd-fileformat", none⟩
  loadTool tree := .error (.io tree.path)
  locateExecutables _ _ := .ok ()
  validateRuntime _ _ _ := .ok ()

def verify (member : List (String × Bytes)) : Result VerifiedPluginProduct :=
  verifyPluginProduct (host member) "studio.tar.zst" (utf8 "product")
    "sha256:a8792157cb4f27fb949c035f45518c61e884bb86e6f420204379c2baa8beb66e" "/tmp/verify"

/-- The files of the member's archive: a library comes with them that its manifest does not list. -/
def leaking : List (String × Bytes) :=
  [("openstrata.plugin.yaml", pluginYaml), ("plugin/extra.so", [])]

/-- A member holds the library although its manifest does not list it. -/
def leaks (verified : VerifiedPluginProduct) : Bool :=
  verified.members.any fun entry =>
    entry.2.regular "plugin/extra.so" == some [] &&
      (memberManifest (host leaking).codec verified.tree entry.1).toOption.any fun value =>
        ((value.index "files").asArr?.getD []).all fun file =>
          file.getStr? "path" != some "plugin/extra.so"

theorem leaks_verify : (verify leaking).toOption.any leaks := by decide +kernel

end Sample

theorem isExact_iff_sample : ∃ verified, Sample.verify Sample.leaking = .ok verified ∧
    (verified.IsExact (Sample.host Sample.leaking).codec ↔ ∀ entry ∈ verified.members,
      Covered (Sample.host Sample.leaking).codec verified.tree entry.1 entry.2) := by
  obtain ⟨verified, hok, -⟩ := Result.exists_of_any Sample.leaks_verify
  exact ⟨verified, hok, isExact_iff hok⟩

/-- The product with the library is accepted. -/
theorem isExact_fails : ∃ verified, Sample.verify Sample.leaking = .ok verified ∧
    ¬ verified.IsExact (Sample.host Sample.leaking).codec := by
  obtain ⟨verified, hok, hleaks⟩ := Result.exists_of_any Sample.leaks_verify
  refine ⟨verified, hok, fun hexact => ?_⟩
  obtain ⟨entry, hentry, hleak⟩ := List.any_eq_true.mp hleaks
  rw [Bool.and_eq_true, beq_iff_eq] at hleak
  obtain ⟨hregular, hmanifest⟩ := hleak
  obtain ⟨manifest, hread, hunlisted⟩ := Result.exists_of_any hmanifest
  obtain ⟨files, hfiles, file, hfile, hpath, -⟩ :=
    ((hexact.members entry hentry).files manifest hread "plugin/extra.so" _ _).mp
      ⟨[], hregular, rfl, rfl⟩
  rw [hfiles] at hunlisted
  have hne := List.all_eq_true.mp hunlisted file hfile
  rw [hpath] at hne
  exact absurd hne (by decide)

end OpenStrata.Product
