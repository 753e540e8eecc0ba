import OpenStrata.Artifact.Record
import OpenStrata.Core.Directory

/-!
# Archives

The entries of a `tar.zst` archive, the gate that refuses unsafe ones, and the comparison of
an archive with the file list of its manifest. Decompression and the tar format belong to
third-party crates: a reader turns the bytes into entries, or fails.

## Main definitions

* `TarEntry`, `TarReader`: decoded entries
* `classifyEntry`: the safety classification of one entry
* `scanUnsafeEntries`, `walkArchive`: the two passes over an archive
* `compareArchiveFiles`: the comparison with a manifest
-/

namespace OpenStrata

/-- The type of a tar entry, as far as the gate distinguishes it. -/
inductive EntryType
  | regular
  | directory
  | symlink
  | other (name : String)
  deriving DecidableEq, Repr

/-- One decoded tar entry. -/
structure TarEntry where
  path : String
  entryType : EntryType
  mode : Nat
  linkName : Option String
  content : Bytes
  deriving DecidableEq, Repr

/-- Decompress and decode an archive, or fail on a malformed one. -/
abbrev TarReader := Bytes → Option (List TarEntry)

/-- One hashed file of an archive. -/
structure ArchiveFile where
  path : String
  sha256 : String
  size : Nat
  /-- The target of a symlink; digest and size then cover it. -/
  linkTarget : Option String
  executable : Bool
  deriving DecidableEq, Repr

/-- The safety classification of an entry. -/
inductive EntryClass
  | regular
  | directory
  | symlink (target : String)
  | unsafeEntry (reason : String)
  deriving DecidableEq, Repr

/-! ## The gate -/

def forwardSlashes (path : String) : String := Text.replaceChar '\\' '/' path

/-- Two characters such as `c:` at the start. -/
def hasDriveLetter (path : String) : Bool :=
  match path.toList with
  | c :: ':' :: _ => c.isAlpha
  | _ => false

/-- Why an archived path must not be extracted, if it must not. -/
def unsafeEntryPath (path : String) : Option String :=
  if path.isEmpty then some "empty path"
  else if Text.startsWith "/" path then some "absolute path"
  else if hasDriveLetter path then some "drive-letter path"
  else if ".." ∈ Text.split (· == '/') path then some "parent traversal"
  else if Text.any Text.isControl path then some "control character in path"
  else none

/-- The components of a path, empty ones left out. -/
def pathComponents (path : String) : List String :=
  (Text.split (· == '/') path).filter (· ≠ "")

/-- Follow a relative target lexically from a directory, given innermost component first;
`none` when it climbs past the root. -/
def resolveLexically : List String → List String → Option (List String)
  | stack, [] => some stack
  | stack, "." :: rest => resolveLexically stack rest
  | [], ".." :: _ => none
  | _ :: stack, ".." :: rest => resolveLexically stack rest
  | stack, name :: rest => resolveLexically (name :: stack) rest

/-- Why the target of a symlink makes it unsafe, if it does. -/
def unsafeSymlinkTarget (entryPath target : String) : Option String :=
  if target.isEmpty then some "symlink with an empty target"
  else if Text.any Text.isControl target then
    some "symlink with a control character in its target"
  else if Text.startsWith "/" target then some "symlink with an absolute target"
  else if hasDriveLetter target then some "symlink with a drive-letter target"
  else
    -- the link's own name goes; its target starts from its directory
    match resolveLexically (pathComponents entryPath).reverse.tail (pathComponents target) with
    | none => some "symlink whose target escapes the archive root"
    | some _ => none

def EntryType.render : EntryType → String
  | .regular => "Regular"
  | .directory => "Directory"
  | .symlink => "Symlink"
  | .other name => name

/-- The classification of an entry by its path, type and link target. -/
def classifyEntry (path : String) (entryType : EntryType) (linkTarget : Option String) :
    EntryClass :=
  match unsafeEntryPath path with
  | some why => .unsafeEntry (why ++ ": " ++ path)
  | none =>
    match entryType with
    | .regular => .regular
    | .directory => .directory
    | .symlink =>
      let target := linkTarget.getD ""
      match unsafeSymlinkTarget path target with
      | some why => .unsafeEntry (why ++ ": " ++ path)
      | none => .symlink target
    | other => .unsafeEntry ("unsupported entry type " ++ other.render ++ ": " ++ path)

namespace TarEntry

/-- The path the gate judges. -/
def gatePath (entry : TarEntry) : String := forwardSlashes entry.path

/-- The link target the gate judges; only a symlink has one. -/
def gateTarget (entry : TarEntry) : Option String :=
  if entry.entryType = .symlink then some (forwardSlashes (entry.linkName.getD "")) else none

def classify (entry : TarEntry) : EntryClass :=
  classifyEntry entry.gatePath entry.entryType entry.gateTarget

/-- The mode carries an execute bit. -/
def isExecutable (entry : TarEntry) : Bool := entry.mode.land 0o111 != 0

end TarEntry

/-- The reasons against extracting the entries, given the file paths already seen. -/
def scanEntries : List String → List TarEntry → List String
  | _, [] => []
  | seen, entry :: rest =>
    match entry.classify with
    | .unsafeEntry reason => reason :: scanEntries seen rest
    | .directory => scanEntries seen rest
    | .regular | .symlink _ =>
      if entry.gatePath ∈ seen then
        ("duplicate file path: " ++ entry.gatePath) :: scanEntries seen rest
      else scanEntries (entry.gatePath :: seen) rest

/-- The result of hashing every entry. -/
structure ArchiveWalk where
  files : List ArchiveFile
  unsafeEntries : List String
  deriving DecidableEq, Repr

/-- Hash the entries, given the file paths already seen. -/
def walkEntries (codec : Codec) : List String → List TarEntry → ArchiveWalk
  | _, [] => ⟨[], []⟩
  | seen, entry :: rest =>
    let path := entry.gatePath
    let keep (file : ArchiveFile) : ArchiveWalk :=
      if path ∈ seen then
        let walk := walkEntries codec seen rest
        { walk with unsafeEntries := ("duplicate file path: " ++ path) :: walk.unsafeEntries }
      else
        let walk := walkEntries codec (path :: seen) rest
        { walk with files := file :: walk.files }
    match entry.classify with
    | .unsafeEntry reason =>
      let walk := walkEntries codec seen rest
      { walk with unsafeEntries := reason :: walk.unsafeEntries }
    | .directory => walkEntries codec seen rest
    | .regular => keep {
        path
        sha256 := sha256Hex codec entry.content
        size := entry.content.length
        linkTarget := none
        executable := entry.isExecutable }
    | .symlink target => keep {
        path
        sha256 := sha256Hex codec (utf8 target)
        size := (utf8 target).length
        linkTarget := some target
        executable := false }

/-- `scan_unsafe_entries` of an archive's content. -/
def scanUnsafeEntries (untar : TarReader) (path : String) (content : Bytes) :
    Result (List String) :=
  return scanEntries [] (← Result.okOr (.io path) (untar content))

def walkArchive (codec : Codec) (untar : TarReader) (d : Directory) (name : String) :
    Result ArchiveWalk := do
  let content ← d.read name
  return walkEntries codec [] (← Result.okOr (.io (d.join name)) (untar content))

/-! ## Comparison with a manifest -/

/-- How the files of an archive compare with a manifest. -/
structure FileComparison where
  matched : Nat
  mismatched : List String
  missing : List String
  extra : List String
  deriving DecidableEq, Repr

def FileComparison.passed (cmp : FileComparison) : Bool :=
  cmp.mismatched == [] && cmp.missing == [] && cmp.extra == []

/-- An archived file is the one the manifest lists. -/
def sameFile (f : ArchiveFile) (want : ManifestFile) : Bool :=
  f.sha256 == want.sha256 && f.size == want.size && f.linkTarget == want.linkTarget &&
    f.executable == want.executable

/-- The manifest's files in order, none of a path already seen. -/
def compareExpected (actual : List ArchiveFile) : List String → List ManifestFile → FileComparison
  | _, [] => ⟨0, [], [], []⟩
  | seen, want :: rest =>
    if want.path ∈ seen then
      let cmp := compareExpected actual seen rest
      { cmp with mismatched := want.path :: cmp.mismatched }
    else
      let cmp := compareExpected actual (want.path :: seen) rest
      match actual.find? (·.path == want.path) with
      | some f =>
        if sameFile f want then { cmp with matched := cmp.matched + 1 }
        else { cmp with mismatched := want.path :: cmp.mismatched }
      | none => { cmp with missing := want.path :: cmp.missing }

/-- The archived files the manifest does not list, or lists once but are archived twice. -/
def extraFiles (expected : List ManifestFile) : List String → List ArchiveFile → List String
  | _, [] => []
  | seen, f :: rest =>
    if f.path ∈ seen ∨ ¬ expected.any (·.path == f.path) then
      f.path :: extraFiles expected (f.path :: seen) rest
    else extraFiles expected (f.path :: seen) rest

def compareArchiveFiles (actual : List ArchiveFile) (expected : List ManifestFile) :
    FileComparison :=
  { compareExpected actual [] expected with extra := extraFiles expected [] actual }

end OpenStrata
