import OpenStrata.Artifact.ArchiveExact
import OpenStrata.Artifact.Extraction
import OpenStrata.Build.Wheel
import OpenStrata.Core.Serialize

/-!
# Packing a staged tree

The producer's side of an archive. Every staged file becomes one entry and one line of the
manifest; a symlink is kept only when its target stays below the staging area. The store judges
the archive again, by the texts that it finds in it, with a resolver of its own.

The two resolvers agree on every link. What the producer never looks at are the names of the files
and what the archive format makes of names and targets: there the two sides part.

## Main definitions

* `validateSymlink`: the targets that the packer accepts
* `packDirWithOverrides`: the archive of a staged tree, with its list of files
* `Storable`: what the archive keeps as it is, and the store lets pass

## Main results

* `validateSymlink_iff`: both sides accept the same links
* `packDirWithOverrides_accepted_iff`: when the store accepts what was packed
-/

namespace OpenStrata.Package

open Wheel (IoError)

/-- What `symlink_metadata` tells of a path. -/
structure Metadata where
  isSymlink : Bool
  mode : ℕ

/-- The file system that the packer reads. A link target that is not UTF-8 is `none`. -/
structure Host where
  os : Os
  metadata : String → Option Metadata
  readLink : String → Option (Option String)
  read : String → Option Bytes

structure PackOptions where
  level : ℤ := 19
  workers : ℕ := 0
  mtime : ℕ := 0
  identityDigest : Option String := none
  executablePaths : List String := []

/-- The `tar` crate, and the compressor around it. What a name is once it was written and read
again is up to the format; it refuses some names. -/
structure Tar where
  setPath : String → Option String
  setLinkName : String → Option String
  build : PackOptions → List TarEntry → Bytes

structure FileEntry where
  path : String
  sha256 : String
  size : ℕ
  linkTarget : Option String
  executable : Bool
deriving DecidableEq, Repr

/-- The line of the manifest, as the store reads it. -/
def FileEntry.manifestFile (entry : FileEntry) : ManifestFile :=
  { path := entry.path, sha256 := entry.sha256, size := entry.size,
    linkTarget := entry.linkTarget, executable := entry.executable }

/-- The object of the manifest. A flag that is not set and a target that is not there are left
out. -/
def FileEntry.fields (entry : FileEntry) : List (String × Option Json) :=
  [("path", some (.str entry.path)), ("sha256", some (.str entry.sha256)),
    ("size", some (.int entry.size)), ("link_target", entry.linkTarget.map .str),
    ("executable", if entry.executable then some (.bool true) else none)]

def FileEntry.manifestJson (entry : FileEntry) : Json := Serde.object entry.fields

/-- The store reads the line of the manifest that the packer wrote. -/
theorem FileEntry.fromJson_manifestJson (entry : FileEntry) (h : entry.size < 2 ^ 64) :
    ManifestFile.fromJson entry.manifestJson = some entry.manifestFile := by
  have hkeys : Serde.distinctKeys entry.fields := rfl
  unfold ManifestFile.fromJson manifestJson
  refine Serde.bind_openFields ?_
  refine Serde.bind_required hkeys rfl rfl ?_
  refine Serde.bind_required hkeys rfl rfl ?_
  refine Serde.bind_required hkeys rfl (Serde.u64_int h) ?_
  refine Serde.bind_optional hkeys rfl
    (Serde.readOptional_map (fun _ _ => rfl) fun _ _ => by simp) ?_
  refine Serde.bind_withDefault (a := entry.executable) hkeys rfl ?_ rfl
  by_cases hexecutable : entry.executable = true
  · rw [hexecutable]
    rfl
  · rw [Bool.not_eq_true] at hexecutable
    rw [hexecutable]
    rfl

structure PackResult where
  files : List FileEntry
  archiveDigest : String
  totalSize : ℕ
  archiveSize : ℕ
deriving DecidableEq, Repr

/-- A finished archive: its members, its bytes, and what is reported about it. -/
structure Packed where
  members : List TarEntry
  archive : Bytes
  result : PackResult

/-! ## The packer -/

section Packer

variable (codec : Codec) (host : Host) (tar : Tar) (stage : String) (opts : PackOptions)
  (overrides : String → Option Bytes)

/-- `Utf8Path::strip_prefix`, joined again by the separator of the host. -/
def relativeTo (path : String) : Option String :=
  if Path.isRooted host.os path = Path.isRooted host.os stage then
    (Path.stripParts (Path.parts host.os path) (Path.components host.os stage)).map
      (Text.join (Path.separator host.os))
  else none

/-- The path within the archive. -/
def archivePath (path : String) : String :=
  match relativeTo host stage path with
  | some relative => Path.slashed relative
  | none => path

def unsupportedEntry (kind path : String) : IoError :=
  ⟨.invalidData, kind ++ " is not allowed in the package staging area: " ++ path⟩

/-- The components between slashes of both kinds. -/
def hostComponents (path : String) : List String :=
  (Text.split (fun c => c == '/' || c == '\\') path).filter (· ≠ "")

/-- Follow a target lexically from a directory, given outermost component first; `none` when it
climbs past the staging area. -/
def followTarget : List String → List String → Option (List String)
  | stack, [] => some stack
  | stack, comp :: rest =>
    if comp = "." then followTarget stack rest
    else if comp = ".." then
      if stack = [] then none else followTarget stack.dropLast rest
    else followTarget (stack ++ [comp]) rest

/-- The target of a link as the archive is to carry it. -/
def validateSymlink (link : String) : Except IoError String :=
  match host.readLink link with
  | none => .error ⟨.other, link⟩
  | some none => .error (unsupportedEntry "symlink with a non-UTF-8 target" link)
  | some (some raw) =>
    let target := Path.slashed raw
    if target.isEmpty then .error (unsupportedEntry "symlink with an empty target" link)
    else if Text.any Text.isControl target then
      .error (unsupportedEntry "symlink with a control character in its target" link)
    else if Text.startsWith "/" target || hasDriveLetter target then
      .error (unsupportedEntry "symlink with an absolute target (escapes the staging area)" link)
    else match relativeTo host stage link with
      | none => .error (unsupportedEntry "symlink resolved outside the staging area" link)
      | some relative =>
        -- the link's own name goes; its directory stays
        match followTarget (hostComponents relative).dropLast (pathComponents target) with
        | none => .error (unsupportedEntry "symlink whose target escapes the staging area" link)
        | some _ => .ok target

/-- On Windows no file carries an execute bit. -/
def isExecutable (metadata : Metadata) : Bool :=
  match host.os with
  | .windows => false
  | .linux | .macos => metadata.mode.land 0o111 != 0

/-- The entry of a link: its target, never what it leads to. -/
def packSymlink (path target : String) : Except IoError (TarEntry × FileEntry) :=
  match tar.setPath path, tar.setLinkName target with
  | some stored, some storedTarget =>
    .ok (⟨stored, .symlink, 0o777, some storedTarget, []⟩, {
      path
      sha256 := sha256Hex codec (utf8 target)
      size := (utf8 target).length
      linkTarget := some target
      executable := false })
  | _, _ => .error ⟨.other, path⟩

/-- The entry of a regular file. -/
def packRegular (path : String) (data : Bytes) (executable : Bool) :
    Except IoError (TarEntry × FileEntry) :=
  match tar.setPath path with
  | some stored =>
    .ok (⟨stored, .regular, if executable then 0o755 else 0o644, none, data⟩, {
      path
      sha256 := sha256Hex codec data
      size := data.length
      linkTarget := none
      executable })
  | none => .error ⟨.other, path⟩

/-- One file of the staging area, judged by itself and never by what it points at. -/
def packEntry (file : String) : Except IoError (TarEntry × FileEntry) :=
  let path := archivePath host stage file
  match host.metadata file with
  | none => .error ⟨.other, file⟩
  | some metadata =>
    if metadata.isSymlink then
      match validateSymlink host stage file with
      | .error e => .error e
      | .ok target => packSymlink codec tar path target
    else
      match (overrides path).or (host.read file) with
      | none => .error ⟨.other, file⟩
      | some data =>
        packRegular codec tar path data
          (isExecutable host metadata || decide (path ∈ opts.executablePaths))

/-- An identity is `sha256:` with 64 lowercase hexadecimal digits. -/
def isIdentity (identity : String) : Bool :=
  let hex := (Text.stripPrefix "sha256:" identity).getD ""
  (utf8 hex).length == 64 && Text.all Text.isLowerHexDigit hex

def packDirWithOverrides (files : List String) : Except IoError Packed :=
  if opts.identityDigest.any fun identity => !isIdentity identity then
    .error ⟨.invalidInput, "archive identity must be sha256:<64 lowercase hex>"⟩
  else
    match files.mapM (packEntry codec host tar stage opts overrides) with
    | .error e => .error e
    | .ok packed =>
      let archive := tar.build opts (packed.map Prod.fst)
      .ok ⟨packed.map Prod.fst, archive, {
        files := packed.map Prod.snd
        archiveDigest := sha256Hex codec archive
        totalSize := (packed.map fun entry => entry.2.size).sum
        archiveSize := archive.length }⟩

end Packer

/-- What reading an archive gives back: its members. An identity is announced ahead of the first
member, and an announcement without a member is an error. -/
def readBack (opts : PackOptions) (members : List TarEntry) : Option (List TarEntry) :=
  if opts.identityDigest.isSome ∧ members = [] then none else some members

/-! ## Both sides accept the same links -/

/-- Splitting at slashes of both kinds, or turning them into one kind first. -/
theorem split_slashed (path : String) :
    Text.split (fun c => c == '/' || c == '\\') path =
      Text.split (· == '/') (Path.slashed path) := by
  rw [Text.split, Text.split, Path.toList_slashed]
  congr 1
  induction path.toList with
  | nil => rfl
  | cons c cs ih =>
    rw [List.map_cons, List.splitOnP_cons_eq_if_modifyHead, List.splitOnP_cons_eq_if_modifyHead, ih]
    by_cases hc : c = '\\'
    · simp [hc]
    · simp [hc]

theorem hostComponents_eq (path : String) :
    hostComponents path = pathComponents (Path.slashed path) := by
  rw [hostComponents, pathComponents, split_slashed]

/-- A stack that grows at its end follows a target as one that grows at its front. -/
theorem followTarget_eq (stack comps : List String) :
    followTarget stack comps = (resolveLexically stack.reverse comps).map List.reverse := by
  induction comps generalizing stack with
  | nil => simp [followTarget, resolveLexically]
  | cons comp rest ih =>
    rw [followTarget]
    by_cases hdot : comp = "."
    · subst hdot
      rw [if_pos rfl, resolveLexically, ih]
    · rw [if_neg hdot]
      by_cases hup : comp = ".."
      · subst hup
        rw [if_pos rfl]
        rcases List.eq_nil_or_concat stack with rfl | ⟨init, name, rfl⟩
        · rw [if_pos rfl, List.reverse_nil, resolveLexically]
          rfl
        · rw [if_neg (by simp), List.concat_eq_append, List.dropLast_concat, List.reverse_concat,
            resolveLexically, ih]
      · rw [if_neg hup, ih, List.reverse_concat, resolveLexically]
        · exact fun h => hdot h
        · exact fun _ h => hup h
        · exact fun _ _ _ h => hup h

section Links

variable {host : Host} {stage link raw relative target : String}

/-- A readable link below the staging area is packed when the store lets its entry pass, and the
entry carries its target with forward slashes. -/
theorem validateSymlink_iff (hread : host.readLink link = some (some raw))
    (hrelative : relativeTo host stage link = some relative) :
    validateSymlink host stage link = .ok target ↔
      Path.slashed raw = target ∧
        unsafeSymlinkTarget (Path.slashed relative) (Path.slashed raw) = none := by
  have hfollow : followTarget (hostComponents relative).dropLast (pathComponents (Path.slashed raw)) =
      (resolveLexically (pathComponents (Path.slashed relative)).reverse.tail
        (pathComponents (Path.slashed raw))).map List.reverse := by
    rw [followTarget_eq, hostComponents_eq, List.tail_reverse]
  simp only [validateSymlink, hread, hrelative, unsafeSymlinkTarget, hfollow]
  -- the checks come in the same order; the packer takes two of them together
  by_cases hempty : (Path.slashed raw).isEmpty = true
  · simp [hempty]
  by_cases hcontrol : Text.any Text.isControl (Path.slashed raw) = true
  · simp [hempty, hcontrol]
  by_cases hslash : Text.startsWith "/" (Path.slashed raw) = true
  · simp [hempty, hcontrol, hslash]
  by_cases hdrive : hasDriveLetter (Path.slashed raw) = true
  · simp [hempty, hcontrol, hslash, hdrive]
  simp only [hempty, hcontrol, hslash, hdrive, Bool.false_eq_true, if_false, Bool.or_false]
  cases resolveLexically (pathComponents (Path.slashed relative)).reverse.tail
      (pathComponents (Path.slashed raw)) with
  | none => simp
  | some stack => simp

/-- A packed link was read, stands below the staging area and passes the store. -/
theorem validateSymlink_ok (h : validateSymlink host stage link = .ok target) :
    ∃ raw relative, host.readLink link = some (some raw) ∧
      relativeTo host stage link = some relative ∧ Path.slashed raw = target ∧
      unsafeSymlinkTarget (Path.slashed relative) target = none := by
  have hvalid := h
  unfold validateSymlink at h
  cases hread : host.readLink link with
  | none =>
    rw [hread] at h
    cases h
  | some text =>
    cases text with
    | none =>
      rw [hread] at h
      cases h
    | some raw =>
      cases hrelative : relativeTo host stage link with
      | none =>
        simp only [hread, hrelative] at h
        split_ifs at h
      | some relative =>
        obtain ⟨heq, hsafe⟩ := (validateSymlink_iff hread hrelative).mp hvalid
        exact ⟨raw, relative, rfl, rfl, heq, heq ▸ hsafe⟩

end Links

/-! ## The store's verdict on members -/

section Members

variable {codec : Codec} {entry : TarEntry} {entries : List TarEntry} {seen : List String}

/-- An entry that the packer writes: a file or a link. -/
def IsMember (entry : TarEntry) : Prop :=
  entry.entryType = .regular ∨ entry.entryType = .symlink

/-- The gate lets an entry pass. -/
def Passes (entry : TarEntry) : Prop :=
  unsafeEntryPath entry.gatePath = none ∧
    ∀ target, entry.gateTarget = some target → unsafeSymlinkTarget entry.gatePath target = none

/-- The file that an entry stands for, whether or not the gate lets it pass. -/
def fileOf (codec : Codec) (entry : TarEntry) : ArchiveFile :=
  match entry.gateTarget with
  | none => {
      path := entry.gatePath
      sha256 := sha256Hex codec entry.content
      size := entry.content.length
      linkTarget := none
      executable := entry.isExecutable }
  | some target => {
      path := entry.gatePath
      sha256 := sha256Hex codec (utf8 target)
      size := (utf8 target).length
      linkTarget := some target
      executable := false }

theorem fileOf_path (codec : Codec) (entry : TarEntry) :
    (fileOf codec entry).path = entry.gatePath := by
  unfold fileOf
  cases entry.gateTarget with
  | none => rfl
  | some target => rfl

/-- A member is refused, or kept as its file. -/
theorem classify_member (codec : Codec) (hmember : IsMember entry) :
    (¬ Passes entry ∧ ∃ reason, entry.classify = .unsafeEntry reason) ∨
      (Passes entry ∧ entry.archived codec = some (fileOf codec entry) ∧
        (entry.classify = .regular ∨ ∃ target, entry.classify = .symlink target)) := by
  unfold Passes TarEntry.archived fileOf TarEntry.classify classifyEntry
  cases hpath : unsafeEntryPath entry.gatePath with
  | some why => exact .inl ⟨fun h => (nomatch h.1), _, rfl⟩
  | none =>
    rcases hmember with htype | htype
    · right
      simp [htype, TarEntry.gateTarget]
    · simp only [htype, TarEntry.gateTarget, if_true, Option.getD_some]
      cases htarget : unsafeSymlinkTarget entry.gatePath
          (forwardSlashes (entry.linkName.getD "")) with
      | some why =>
        left
        refine ⟨fun h => ?_, _, rfl⟩
        have := h.2 _ rfl
        rw [htarget] at this
        cases this
      | none =>
        exact .inr ⟨⟨trivial, fun target h => Option.some.inj h ▸ htarget⟩, rfl, .inr ⟨_, rfl⟩⟩

/-- Of an entry that is kept, only the path can still be refused. -/
theorem scanEntries_kept (h : entry.classify = .regular ∨ ∃ target, entry.classify = .symlink target) :
    scanEntries seen (entry :: entries) =
      if entry.gatePath ∈ seen then
        ("duplicate file path: " ++ entry.gatePath) :: scanEntries seen entries
      else scanEntries (entry.gatePath :: seen) entries := by
  rcases h with h | ⟨target, h⟩
  · rw [scanEntries, h]
  · rw [scanEntries, h]

/-- The gate finds nothing when every member passes and no path repeats. -/
theorem scanEntries_eq_nil (hmembers : ∀ entry ∈ entries, IsMember entry) :
    scanEntries seen entries = [] ↔
      (∀ entry ∈ entries, Passes entry) ∧ (entries.map (·.gatePath)).Nodup ∧
        ∀ entry ∈ entries, entry.gatePath ∉ seen := by
  induction entries generalizing seen with
  | nil => simp [scanEntries]
  | cons entry rest ih =>
    obtain ⟨hmember, hrest⟩ := List.forall_mem_cons.mp hmembers
    have hfresh : ∀ seen : List String, (∀ e ∈ rest, e.gatePath ∉ entry.gatePath :: seen) ↔
        entry.gatePath ∉ rest.map (·.gatePath) ∧ ∀ e ∈ rest, e.gatePath ∉ seen := by
      intro seen
      simp only [List.mem_cons, not_or, List.mem_map, not_exists, not_and]
      exact forall₂_and
    rw [List.forall_mem_cons, List.forall_mem_cons, List.map_cons, List.nodup_cons]
    rcases classify_member ⟨fun _ => [], fun _ => none⟩ hmember with
      ⟨hnot, reason, hclass⟩ | ⟨hpasses, -, hclass⟩
    · simp [scanEntries, hclass, hnot]
    · rw [scanEntries_kept hclass]
      by_cases hseen : entry.gatePath ∈ seen
      · simp [hseen]
      · rw [if_neg hseen, ih hrest, hfresh]
        tauto

/-- A walk over safe members keeps them all, in their order. -/
theorem walkEntries_files (hmembers : ∀ entry ∈ entries, IsMember entry)
    (hscan : scanEntries seen entries = []) :
    (walkEntries codec seen entries).files = entries.map (fileOf codec) := by
  induction entries generalizing seen with
  | nil => rfl
  | cons entry rest ih =>
    obtain ⟨hmember, hrest⟩ := List.forall_mem_cons.mp hmembers
    rw [scanEntries] at hscan
    rw [walkEntries, List.map_cons]
    rcases classify_member codec hmember with
      ⟨-, reason, hclass⟩ | ⟨-, harchived, hclass | ⟨target, hclass⟩⟩
    · simp [hclass] at hscan
    · simp only [TarEntry.archived, hclass, Option.some.injEq] at harchived
      simp only [hclass] at hscan ⊢
      split_ifs at hscan with hseen
      rw [if_neg hseen]
      simp only [ih hrest hscan, harchived]
    · simp only [TarEntry.archived, hclass, Option.some.injEq] at harchived
      simp only [hclass] at hscan ⊢
      split_ifs at hscan with hseen
      rw [if_neg hseen]
      simp only [ih hrest hscan, harchived]

end Members

/-! ## What the packer writes -/

/-- What is relied on of the names of the `tar` crate: it keeps forward slashes, and a name that it
made is a name that it keeps. -/
def Tar.Normalizes (tar : Tar) : Prop :=
  ∀ name stored, '\\' ∉ name.toList → tar.setPath name = some stored →
    '\\' ∉ stored.toList ∧ tar.setPath stored = some stored

/-- The name that the store finds for a name that was written. -/
def Tar.readPath (tar : Tar) (path : String) : Option String :=
  (tar.setPath path).map Path.slashed

def Tar.readLinkName (tar : Tar) (target : String) : Option String :=
  (tar.setLinkName target).map Path.slashed

/-- A staged file whose name the store lets pass, and whose name and target the archive keeps as
they are. -/
structure Storable (host : Host) (tar : Tar) (stage file : String) : Prop where
  safe : unsafeEntryPath (archivePath host stage file) = none
  path : tar.readPath (archivePath host stage file) = some (archivePath host stage file)
  target : ∀ metadata raw, host.metadata file = some metadata → metadata.isSymlink = true →
    host.readLink file = some (some raw) →
      tar.readLinkName (Path.slashed raw) = some (Path.slashed raw)

section Written

variable {codec : Codec} {host : Host} {tar : Tar} {stage : String} {opts : PackOptions}
  {overrides : String → Option Bytes} {file path target : String} {data : Bytes}
  {executable : Bool} {packed : TarEntry × FileEntry}

theorem gatePath_eq (entry : TarEntry) : entry.gatePath = Path.slashed entry.path := rfl

theorem listing_fileOf_path (codec : Codec) (entry : TarEntry) :
    (fileOf codec entry).listing.path = entry.gatePath := by
  rw [ArchiveFile.listing_path, fileOf_path]

/-- The bits of the two canonical modes. -/
theorem land_mode (executable : Bool) :
    ((if executable then 0o755 else 0o644 : ℕ).land 0o111 != 0) = executable := by
  cases executable <;> decide

/-- A regular file is read back as it was listed when its name is. -/
theorem packRegular_ok (h : packRegular codec tar path data executable = .ok packed) :
    IsMember packed.1 ∧ packed.2.path = path ∧ tar.setPath path = some packed.1.path ∧
      packed.1.gateTarget = none ∧
      ((fileOf codec packed.1).listing = packed.2.manifestFile ↔ packed.1.gatePath = path) := by
  unfold packRegular at h
  cases hstored : tar.setPath path with
  | none =>
    rw [hstored] at h
    cases h
  | some stored =>
    rw [hstored] at h
    obtain rfl := Except.ok.inj h
    refine ⟨.inl rfl, rfl, rfl, rfl, ?_⟩
    simp only [fileOf, TarEntry.gateTarget, reduceCtorEq, if_false, ArchiveFile.listing,
      FileEntry.manifestFile, ManifestFile.mk.injEq, TarEntry.isExecutable, land_mode, and_true]

/-- A link is read back as it was listed when its name and its target are. -/
theorem packSymlink_ok (h : packSymlink codec tar path target = .ok packed) :
    IsMember packed.1 ∧ packed.2.path = path ∧ tar.setPath path = some packed.1.path ∧
      ∃ stored, tar.setLinkName target = some stored ∧
        packed.1.gateTarget = some (Path.slashed stored) ∧
        ((fileOf codec packed.1).listing = packed.2.manifestFile ↔
          packed.1.gatePath = path ∧ Path.slashed stored = target) := by
  unfold packSymlink at h
  cases hpath : tar.setPath path with
  | none =>
    rw [hpath] at h
    cases h
  | some storedPath =>
    cases htarget : tar.setLinkName target with
    | none =>
      rw [hpath, htarget] at h
      cases h
    | some stored =>
      rw [hpath, htarget] at h
      obtain rfl := Except.ok.inj h
      refine ⟨.inr rfl, rfl, rfl, stored, rfl, rfl, ?_⟩
      simp only [fileOf, TarEntry.gateTarget, if_true, Option.getD_some, ArchiveFile.listing,
        FileEntry.manifestFile, ManifestFile.mk.injEq, Option.some.injEq, and_true]
      constructor
      · exact fun h => ⟨h.1, h.2.2.2⟩
      · rintro ⟨hgate, rfl⟩
        exact ⟨hgate, rfl, rfl, rfl⟩

/-- What was packed is listed under its path in the archive, and passes the store as it was listed
when it is storable. -/
theorem packEntry_ok (h : packEntry codec host tar stage opts overrides file = .ok packed) :
    IsMember packed.1 ∧ packed.2.path = archivePath host stage file ∧
      tar.setPath (archivePath host stage file) = some packed.1.path ∧
      (Passes packed.1 ∧ (fileOf codec packed.1).listing = packed.2.manifestFile ↔
        Storable host tar stage file) := by
  have hread : ∀ {path stored : String}, tar.setPath path = some stored →
      tar.readPath path = some (Path.slashed stored) := fun hstored => by
    rw [Tar.readPath, hstored]
    rfl
  unfold packEntry at h
  cases hmetadata : host.metadata file with
  | none =>
    rw [hmetadata] at h
    cases h
  | some metadata =>
    simp only [hmetadata] at h
    by_cases hlink : metadata.isSymlink = true
    · rw [if_pos hlink] at h
      cases hvalid : validateSymlink host stage file with
      | error e =>
        rw [hvalid] at h
        cases h
      | ok target =>
        rw [hvalid] at h
        obtain ⟨hmember, hpath, hstored, stored, hname, hgate, hlisted⟩ := packSymlink_ok h
        obtain ⟨raw, relative, hraw, hrelative, rfl, hsafe⟩ := validateSymlink_ok hvalid
        refine ⟨hmember, hpath, hstored, ?_⟩
        rw [hlisted]
        constructor
        · rintro ⟨hpasses, hsame, htarget⟩
          refine ⟨hsame ▸ hpasses.1, ?_, fun _ raw' _ _ hraw' => ?_⟩
          · rw [hread hstored, ← gatePath_eq, hsame]
          · obtain rfl : raw = raw' := by simpa [hraw] using hraw'
            rw [Tar.readLinkName, hname, Option.map_some, htarget]
        · intro hstorable
          have hsame : packed.1.gatePath = archivePath host stage file := by
            have := hstorable.path
            rw [hread hstored] at this
            exact Option.some.inj this
          have htarget : Path.slashed stored = Path.slashed raw := by
            have := hstorable.target metadata raw hmetadata hlink hraw
            rw [Tar.readLinkName, hname] at this
            exact Option.some.inj this
          refine ⟨⟨hsame ▸ hstorable.safe, fun t ht => ?_⟩, hsame, htarget⟩
          rw [hgate, htarget] at ht
          obtain rfl := Option.some.inj ht
          rw [hsame, archivePath, hrelative]
          exact hsafe
    · rw [if_neg hlink] at h
      cases hdata : (overrides (archivePath host stage file)).or (host.read file) with
      | none =>
        rw [hdata] at h
        cases h
      | some data =>
        rw [hdata] at h
        obtain ⟨hmember, hpath, hstored, hgate, hlisted⟩ := packRegular_ok h
        refine ⟨hmember, hpath, hstored, ?_⟩
        rw [hlisted]
        constructor
        · rintro ⟨hpasses, hsame⟩
          refine ⟨hsame ▸ hpasses.1, ?_, fun metadata' raw hmeta' hlink' _ => ?_⟩
          · rw [hread hstored, ← gatePath_eq, hsame]
          · obtain rfl : metadata = metadata' := by simpa [hmetadata] using hmeta'
            exact absurd hlink' hlink
        · intro hstorable
          have hsame : packed.1.gatePath = archivePath host stage file := by
            have := hstorable.path
            rw [hread hstored] at this
            exact Option.some.inj this
          refine ⟨⟨hsame ▸ hstorable.safe, fun t ht => ?_⟩, hsame⟩
          rw [hgate] at ht
          cases ht

/-- Where the names are kept apart, an archive with the listed files has each under its own
name. -/
theorem listing_of_same {pairs : List (TarEntry × FileEntry)} (htar : tar.Normalizes)
    (hstored : ∀ p ∈ pairs, tar.setPath p.2.path = some p.1.path)
    (hgate : (pairs.map fun p => p.1.gatePath).Nodup)
    (hlisted : ∀ p ∈ pairs, p.2.manifestFile ∈ pairs.map fun p => (fileOf codec p.1).listing) :
    ∀ p ∈ pairs, (fileOf codec p.1).listing = p.2.manifestFile := by
  have hpath : ∀ p ∈ pairs, ∃ q ∈ pairs, (fileOf codec q.1).listing = p.2.manifestFile ∧
      q.1.gatePath = p.2.path := by
    intro p hp
    obtain ⟨q, hq, heq⟩ := List.mem_map.mp (hlisted p hp)
    refine ⟨q, hq, heq, ?_⟩
    rw [← listing_fileOf_path codec, heq]
    rfl
  have hslash : ∀ p ∈ pairs, '\\' ∉ p.2.path.toList := by
    intro p hp
    obtain ⟨q, -, -, hq⟩ := hpath p hp
    rw [← hq]
    exact Path.backslash_not_mem_slashed q.1.path
  intro p hp
  obtain ⟨q, hq, heq, hgateq⟩ := hpath p hp
  -- the name of `p` is one that the format made, so that the format keeps it
  obtain ⟨hno, hkept⟩ := htar _ _ (hslash q hq) (hstored q hq)
  have hq' : q.1.path = p.2.path := by
    rw [← hgateq, gatePath_eq, Path.slashed_eq_self hno]
  have hsame : p.1.path = q.1.path := by
    have := hstored p hp
    rw [← hq', hkept] at this
    exact (Option.some.inj this).symm
  obtain rfl : p = q := List.inj_on_of_nodup_map hgate hp hq (by rw [gatePath_eq, gatePath_eq, hsame])
  exact heq

end Written

/-! ## The store's verdict on a packed archive -/

/-- A mapped list, element by element. -/
theorem forall₂_of_mapM {α β ε : Type} {f : α → Except ε β} {as : List α} {bs : List β}
    (h : as.mapM f = .ok bs) : List.Forall₂ (fun a b => f a = .ok b) as bs := by
  induction as generalizing bs with
  | nil =>
    obtain rfl := Except.ok.inj h
    exact .nil
  | cons a rest ih =>
    rw [List.mapM_cons] at h
    cases ha : f a with
    | error e =>
      rw [ha] at h
      cases h
    | ok b =>
      rw [ha] at h
      cases hrest : rest.mapM f with
      | error e =>
        simp only [hrest] at h
        cases h
      | ok others =>
        simp only [hrest] at h
        obtain rfl := Except.ok.inj h
        exact .cons ha (ih hrest)

section Accepted

variable {codec : Codec} {host : Host} {tar : Tar} {stage : String} {opts : PackOptions}
  {overrides : String → Option Bytes} {files : List String} {packed : Packed}

/-- The store accepts an archive: no entry is unsafe, and the walk finds the files of the
manifest. -/
def Accepted (codec : Codec) (untar : TarReader) (dist : Directory) (name : String)
    (packed : Packed) : Prop :=
  scanUnsafeEntries untar (dist.join name) packed.archive = .ok [] ∧
    ∃ walk, walkArchive codec untar dist name = .ok walk ∧
      (compareArchiveFiles walk.files
        (packed.result.files.map FileEntry.manifestFile)).passed = true

/-- The members of an archive with the files that are listed for them. -/
theorem packDirWithOverrides_ok
    (h : packDirWithOverrides codec host tar stage opts overrides files = .ok packed) :
    ∃ pairs, files.mapM (packEntry codec host tar stage opts overrides) = .ok pairs ∧
      packed.members = pairs.map Prod.fst ∧ packed.result.files = pairs.map Prod.snd := by
  unfold packDirWithOverrides at h
  split_ifs at h
  cases hpairs : files.mapM (packEntry codec host tar stage opts overrides) with
  | error e =>
    rw [hpairs] at h
    cases h
  | ok pairs =>
    rw [hpairs] at h
    obtain rfl := Except.ok.inj h
    exact ⟨pairs, rfl, rfl, rfl⟩

/-- Members that were packed for the files of a staged tree. -/
structure PackedFor (codec : Codec) (host : Host) (tar : Tar) (stage : String)
    (files : List String) (pairs : List (TarEntry × FileEntry)) : Prop where
  paths : pairs.map (fun p => p.2.path) = files.map (archivePath host stage)
  members : ∀ p ∈ pairs, IsMember p.1
  stored : ∀ p ∈ pairs, tar.setPath p.2.path = some p.1.path
  storable : (∀ p ∈ pairs, Passes p.1 ∧ (fileOf codec p.1).listing = p.2.manifestFile) ↔
    ∀ file ∈ files, Storable host tar stage file

theorem packedFor {pairs : List (TarEntry × FileEntry)}
    (h : files.mapM (packEntry codec host tar stage opts overrides) = .ok pairs) :
    PackedFor codec host tar stage files pairs := by
  have hall := forall₂_of_mapM h
  clear h
  induction hall with
  | nil => exact ⟨rfl, by simp, by simp, by simp⟩
  | cons hfirst _ ih =>
    obtain ⟨hmember, hpath, hstored, hstorable⟩ := packEntry_ok hfirst
    refine ⟨?_, List.forall_mem_cons.mpr ⟨hmember, ih.members⟩,
      List.forall_mem_cons.mpr ⟨hpath ▸ hstored, ih.stored⟩, ?_⟩
    · rw [List.map_cons, List.map_cons, ih.paths, hpath]
    · rw [List.forall_mem_cons, List.forall_mem_cons, hstorable, ih.storable]

/-- The comparison of safe members with the files that are listed for them. -/
theorem comparison_iff {pairs : List (TarEntry × FileEntry)}
    (hpairs : PackedFor codec host tar stage files pairs) (htar : tar.Normalizes) :
    (scanEntries [] (pairs.map Prod.fst) = [] ∧
      (compareArchiveFiles (walkEntries codec [] (pairs.map Prod.fst)).files
        ((pairs.map Prod.snd).map FileEntry.manifestFile)).passed = true) ↔
      (files.map (archivePath host stage)).Nodup ∧
        ∀ file ∈ files, Storable host tar stage file := by
  have hmembers : ∀ entry ∈ pairs.map Prod.fst, IsMember entry := by
    intro entry hentry
    obtain ⟨p, hp, rfl⟩ := List.mem_map.mp hentry
    exact hpairs.members p hp
  have hactual : ((pairs.map Prod.fst).map (fileOf codec)).map ArchiveFile.listing =
      pairs.map fun p => (fileOf codec p.1).listing := by
    simp only [List.map_map, Function.comp_def]
  have hgates : ((pairs.map Prod.fst).map (fileOf codec)).map (·.path) =
      pairs.map fun p => p.1.gatePath := by
    simp only [List.map_map, Function.comp_def, fileOf_path]
  have hlisted : (pairs.map Prod.snd).map FileEntry.manifestFile =
      pairs.map fun p => p.2.manifestFile := List.map_map
  have hpaths : ((pairs.map Prod.snd).map FileEntry.manifestFile).map (·.path) =
      files.map (archivePath host stage) := by
    rw [← hpairs.paths]
    simp only [List.map_map, Function.comp_def]
    rfl
  rw [← hpairs.storable]
  constructor
  · rintro ⟨hscan, hpassed⟩
    rw [walkEntries_files hmembers hscan, passed_iff, hgates, hpaths, hactual, hlisted] at hpassed
    obtain ⟨hgate, hnodup, hsame⟩ := hpassed
    refine ⟨hnodup, fun p hp => ⟨?_, ?_⟩⟩
    · exact ((scanEntries_eq_nil hmembers).mp hscan).1 p.1 (List.mem_map_of_mem hp)
    · exact listing_of_same htar hpairs.stored hgate
        (fun p hp => (hsame _).mpr (List.mem_map_of_mem hp)) p hp
  · rintro ⟨hnodup, hall⟩
    have hsame : pairs.map (fun p => (fileOf codec p.1).listing) =
        pairs.map fun p => p.2.manifestFile := List.map_congr_left fun p hp => (hall p hp).2
    have hgate : pairs.map (fun p => p.1.gatePath) = files.map (archivePath host stage) := by
      rw [← hpairs.paths]
      refine List.map_congr_left fun p hp => ?_
      rw [← listing_fileOf_path codec, (hall p hp).2]
      rfl
    have hscan : scanEntries [] (pairs.map Prod.fst) = [] := by
      refine (scanEntries_eq_nil hmembers).mpr ⟨fun entry hentry => ?_, ?_, by simp⟩
      · obtain ⟨p, hp, rfl⟩ := List.mem_map.mp hentry
        exact (hall p hp).1
      · rw [List.map_map, Function.comp_def, hgate]
        exact hnodup
    refine ⟨hscan, ?_⟩
    rw [walkEntries_files hmembers hscan, passed_iff, hgates, hpaths, hactual, hlisted, hgate, hsame]
    exact ⟨hnodup, hnodup, fun _ => Iff.rfl⟩

/-- **Producer and consumer.** Both sides accept the same links. An archive is accepted as it was
packed when it is not an identity without a file, when no two files share a path in the archive,
and when each file is storable. -/
theorem packDirWithOverrides_accepted_iff (codec : Codec) (host : Host) (tar : Tar)
    (stage : String) (htar : tar.Normalizes) :
    (∀ link raw relative, host.readLink link = some (some raw) →
      relativeTo host stage link = some relative →
        ((∃ target, validateSymlink host stage link = .ok target) ↔
          unsafeSymlinkTarget (Path.slashed relative) (Path.slashed raw) = none)) ∧
    ∀ opts overrides files packed untar dist name,
      packDirWithOverrides codec host tar stage opts overrides files = .ok packed →
      untar packed.archive = readBack opts packed.members →
      dist.read name = .ok packed.archive →
        (Accepted codec untar dist name packed ↔
          (opts.identityDigest = none ∨ files ≠ []) ∧
            (files.map (archivePath host stage)).Nodup ∧
            ∀ file ∈ files, Storable host tar stage file) := by
  refine ⟨fun link raw relative hread hrelative => ?_, ?_⟩
  · constructor
    · rintro ⟨target, h⟩
      exact ((validateSymlink_iff hread hrelative).mp h).2
    · exact fun h => ⟨_, (validateSymlink_iff hread hrelative).mpr ⟨rfl, h⟩⟩
  · intro opts overrides files packed untar dist name hpacked huntar hdist
    obtain ⟨pairs, hmap, hmembers, hfiles⟩ := packDirWithOverrides_ok hpacked
    have hpairs := packedFor hmap
    have hempty : packed.members = [] ↔ files = [] := by
      rw [hmembers, List.map_eq_nil_iff, ← List.map_eq_nil_iff (f := fun p : TarEntry × FileEntry => p.2.path),
        hpairs.paths, List.map_eq_nil_iff]
    rw [← comparison_iff hpairs htar, ← hmembers, ← hfiles]
    unfold Accepted
    by_cases hnone : opts.identityDigest.isSome ∧ packed.members = []
    · have hnot : ¬ (opts.identityDigest = none ∨ files ≠ []) := by
        rw [not_or, not_not, ← ne_eq, Option.ne_none_iff_isSome, ← hempty]
        exact hnone
      simp only [hnot, false_and, iff_false, not_and]
      intro h
      rw [scanUnsafeEntries, huntar, readBack, if_pos hnone] at h
      cases h
    · have hsome : opts.identityDigest = none ∨ files ≠ [] := by
        by_contra h
        rw [not_or, not_not, ← ne_eq, Option.ne_none_iff_isSome, ← hempty] at h
        exact hnone h
      rw [readBack, if_neg hnone] at huntar
      have hscan : scanUnsafeEntries untar (dist.join name) packed.archive =
          .ok (scanEntries [] packed.members) := by
        rw [scanUnsafeEntries, huntar]
        rfl
      have hwalk : walkArchive codec untar dist name =
          .ok (walkEntries codec [] packed.members) := by
        rw [walkArchive, Result.bind_ok]
        exact ⟨packed.archive, hdist, by rw [huntar]; rfl⟩
      simp only [hsome, true_and, hscan, hwalk, Except.ok.injEq, exists_eq_left']

end Accepted

/-! ## Two staged trees -/

/-- A file system with regular files and links under their paths. -/
def toyHost (files links : List (String × String)) : Host where
  os := .linux
  metadata path :=
    if (links.lookup path).isSome then some ⟨true, 0o777⟩
    else (files.lookup path).map fun _ => ⟨false, 0o644⟩
  readLink path := (links.lookup path).map some
  read path := (files.lookup path).map utf8

/-- A format that keeps every name. -/
def toyTar : Tar where
  setPath := some
  setLinkName := some
  build _ _ := []

theorem toyTar_normalizes : toyTar.Normalizes := by
  rintro name stored hname h
  obtain rfl := Option.some.inj h
  exact ⟨hname, rfl⟩

def toyCodec : Codec := ⟨fun _ => [], fun _ => none⟩

def toyDist : Directory := .ofFiles "d" [("a", [])]

/-- What was packed, if anything was. -/
def toyPacked (host : Host) (files : List String) : Packed :=
  match packDirWithOverrides toyCodec host toyTar "/s" {} (fun _ => none) files with
  | .ok packed => packed
  | .error _ => ⟨[], [], ⟨[], "", 0, 0⟩⟩

/-- A library and the link to it. -/
def linkedTree : Host := toyHost [("/s/l/v", "")] [("/s/l/u", "v")]

theorem linkedTree_storable (file : String) (h : file ∈ ["/s/l/u", "/s/l/v"]) :
    Storable linkedTree toyTar "/s" file := by
  rcases List.mem_cons.mp h with rfl | h
  · refine ⟨by decide, rfl, fun metadata raw _ _ hraw => ?_⟩
    obtain rfl : "v" = raw := Option.some.inj (Option.some.inj hraw)
    decide
  · obtain rfl := List.mem_singleton.mp h
    exact ⟨by decide, rfl, fun metadata raw _ _ hraw => nomatch hraw⟩

theorem packDirWithOverrides_accepted_sample :
    Accepted toyCodec (fun _ => some (toyPacked linkedTree ["/s/l/u", "/s/l/v"]).members)
      toyDist "a" (toyPacked linkedTree ["/s/l/u", "/s/l/v"]) :=
  ((packDirWithOverrides_accepted_iff toyCodec linkedTree toyTar "/s" toyTar_normalizes).2
    {} (fun _ => none) ["/s/l/u", "/s/l/v"] _ _ toyDist "a" rfl rfl rfl).mpr
      ⟨.inl rfl, by decide, linkedTree_storable⟩

/-- A line break in a file name is packed and then refused. -/
theorem line_break_refused :
    ¬ ∀ codec host tar stage opts overrides files packed untar dist name,
      Tar.Normalizes tar →
      packDirWithOverrides codec host tar stage opts overrides files = .ok packed →
      untar packed.archive = readBack opts packed.members →
      dist.read name = .ok packed.archive → Accepted codec untar dist name packed := by
  intro h
  have haccepted := h toyCodec (toyHost [("/s/a\nb", "")] []) toyTar "/s" {} (fun _ => none)
    ["/s/a\nb"] (toyPacked (toyHost [("/s/a\nb", "")] []) ["/s/a\nb"])
    (fun _ => some (toyPacked (toyHost [("/s/a\nb", "")] []) ["/s/a\nb"]).members) toyDist "a"
    toyTar_normalizes rfl rfl rfl
  have hscan : scanUnsafeEntries
      (fun _ => some (toyPacked (toyHost [("/s/a\nb", "")] []) ["/s/a\nb"]).members)
      (toyDist.join "a") (toyPacked (toyHost [("/s/a\nb", "")] []) ["/s/a\nb"]).archive =
      .ok ["control character in path: a\nb"] := rfl
  have hnone := haccepted.1
  rw [hscan] at hnone
  cases hnone

end OpenStrata.Package
