import OpenStrata.Core.Segments
import OpenStrata.Core.Digest
import OpenStrata.Lib.SortBy
import OpenStrata.Lib.Zip

/-!
# Wheels

A Python wheel is a ZIP archive whose entries are stored, with fixed times and in the order of
their paths. Sizes, offsets and counts that do not fit their fields are written in the ZIP64 form,
each header choosing for itself. What is written is an archive whose entries lie where its
directory says, so that the reader of the ZIP format gives the entries back.

## Main definitions

* `sortedEntries`: the entries in the order of their paths, which must be distinct
* `packWheel`: the archive, and what is reported about it

## Main results

* `writeEntries_placed`: each entry lies at the offset that is kept for the directory
* `read_packWheel`: the archive is read back as the sorted entries
-/

namespace OpenStrata.Wheel

open Endian

/-! ## The writer -/

inductive ErrorKind where
  | invalidInput
  | invalidData
  | fileTooLarge
  | other
deriving DecidableEq, Repr

structure IoError where
  kind : ErrorKind
  message : String
deriving DecidableEq, Repr

/-- A regular file on disk, and its portable path inside the archive. -/
structure ConsumerArchiveEntry where
  source : String
  path : String
deriving DecidableEq, Repr

structure ConsumerArchiveResult where
  archiveDigest : String
  archiveSize : ℕ
  files : ℕ
deriving DecidableEq, Repr

def validateArchivePath (path : String) : Except IoError Unit :=
  if path = "" ∨ Text.startsWith "/" path ∨ Text.containsChar (Char.ofNat 0) path ∨
      (Text.segments path).any (fun part => part = "" ∨ part = "." ∨ part = "..") then
    .error ⟨.invalidInput, "unsafe consumer archive path: " ++ path⟩
  else .ok ()

/-- Two neighbouring elements are alike. -/
def hasRepeated : List String → Bool
  | a :: b :: rest => a == b || hasRepeated (b :: rest)
  | _ => false

def sortedEntries (entries : List ConsumerArchiveEntry) :
    Except IoError (List ConsumerArchiveEntry) :=
  let sorted := SortBy.sortBy ConsumerArchiveEntry.path entries
  if hasRepeated (sorted.map ConsumerArchiveEntry.path) then
    .error ⟨.invalidInput, "consumer archive contains duplicate paths"⟩
  else .ok sorted

structure ZipEntry where
  path : String
  crc32 : ℕ
  size : ℕ
  offset : ℕ

def needsZip64U32 (value : ℕ) : Bool := value ≥ 0xffffffff

def needsZip64Count (value : ℕ) : Bool := value ≥ 0xffff

def zip64Extra (size : ℕ) (offset : Option ℕ) : Bytes :=
  le 2 1 ++ (le 2 (if offset.isSome then 24 else 16) ++ (le 8 size ++ (le 8 size ++
    (match offset with
    | some offset => le 8 offset
    | none => []))))

def zip64CentralExtra (size : ℕ) (size64 : Bool) (offset : ℕ) (offset64 : Bool) : Bytes :=
  let bodyLen := size64.toNat * 16 + offset64.toNat * 8
  le 2 1 ++ (le 2 bodyLen ++ ((if size64 then le 8 size ++ le 8 size else []) ++
    (if offset64 then le 8 offset else [])))

/-- What stands in front of an entry's data. -/
def localHeader (name : Bytes) (crc32 size : ℕ) : Bytes :=
  let zip64 := needsZip64U32 size
  let extra := if zip64 then zip64Extra size none else []
  le 4 0x04034b50 ++ (le 2 (if zip64 then 45 else 20) ++ (le 2 0x0800 ++ (le 2 0 ++ (le 2 0 ++
    (le 2 0x21 ++ (le 4 crc32 ++ (le 4 (if zip64 then 0xffffffff else size) ++
      (le 4 (if zip64 then 0xffffffff else size) ++ (le 2 name.length ++ (le 2 extra.length ++
        (name ++ extra)))))))))))

/-- The directory entry. -/
def centralHeader (entry : ZipEntry) : Bytes :=
  let name := utf8 entry.path
  let size64 := needsZip64U32 entry.size
  let offset64 := needsZip64U32 entry.offset
  let extra :=
    if size64 || offset64 then zip64CentralExtra entry.size size64 entry.offset offset64 else []
  le 4 0x02014b50 ++ (le 2 0x031e ++ (le 2 (if size64 || offset64 then 45 else 20) ++
    (le 2 0x0800 ++ (le 2 0 ++ (le 2 0 ++ (le 2 0x21 ++ (le 4 entry.crc32 ++
      (le 4 (if size64 then 0xffffffff else entry.size) ++
        (le 4 (if size64 then 0xffffffff else entry.size) ++ (le 2 name.length ++
          (le 2 extra.length ++ (le 2 0 ++ (le 2 0 ++ (le 2 0 ++ (le 4 (0o100644 <<< 16) ++
            (le 4 (if offset64 then 0xffffffff else entry.offset) ++ (name ++ extra)))))))))))))))))

section Writer

variable (files : String → Except IoError Bytes) (crc : Bytes → UInt32)

/-- The body of the loop over the entries: the bytes written so far, and the directory. The content
of a source does not change between its two readings. -/
def writeEntry (written : Bytes × List ZipEntry) (entry : ConsumerArchiveEntry) :
    Except IoError (Bytes × List ZipEntry) := do
  let (writer, central) := written
  let name := utf8 entry.path
  if name.length > 0xffff then
    .error ⟨.invalidInput, "ZIP entry name is too long"⟩
  else
    let content ← files entry.source
    let crc32 := (crc content).toNat
    let offset := writer.length
    pure (writer ++ (localHeader name crc32 content.length ++ content),
      central ++ [⟨entry.path, crc32, content.length, offset⟩])

def writeEntries (entries : List ConsumerArchiveEntry) : Except IoError (Bytes × List ZipEntry) :=
  entries.foldlM (writeEntry files crc) ([], [])

/-- The ZIP64 end record and its locator. -/
def zip64End (count centralSize centralOffset zip64Offset : ℕ) : Bytes :=
  le 4 0x06064b50 ++ (le 8 44 ++ (le 2 0x031e ++ (le 2 45 ++ (le 4 0 ++ (le 4 0 ++ (le 8 count ++
    (le 8 count ++ (le 8 centralSize ++ (le 8 centralOffset ++ (le 4 0x07064b50 ++ (le 4 0 ++
      (le 8 zip64Offset ++ le 4 1))))))))))))

/-- `try_from(value).unwrap_or(MAX)` for a field whose greatest value is `max`. -/
def saturated (max value : ℕ) : ℕ := if value ≤ max then value else max

def endRecord (count centralSize centralOffset : ℕ) : Bytes :=
  le 4 0x06054b50 ++ (le 2 0 ++ (le 2 0 ++ (le 2 (saturated 0xffff count) ++
    (le 2 (saturated 0xffff count) ++ (le 4 (saturated 0xffffffff centralSize) ++
      (le 4 (saturated 0xffffffff centralOffset) ++ le 2 0))))))

/-- What is written behind the entries. -/
def writeDirectory (writer : Bytes) (central : List ZipEntry) : Bytes :=
  let centralOffset := writer.length
  let writer := writer ++ central.flatMap centralHeader
  let centralSize := writer.length - centralOffset
  let zip64 := needsZip64Count central.length || needsZip64U32 centralOffset ||
    needsZip64U32 centralSize ||
      central.any fun entry => needsZip64U32 entry.size || needsZip64U32 entry.offset
  let writer :=
    if zip64 then writer ++ zip64End central.length centralSize centralOffset writer.length
    else writer
  writer ++ endRecord central.length centralSize centralOffset

/-- The archive of the entries. A position in a file is a signed 64-bit number, so that a longer
archive cannot be written. -/
def packWheel (codec : Codec) (entries : List ConsumerArchiveEntry) :
    Except IoError (Bytes × ConsumerArchiveResult) := do
  let entries ← sortedEntries entries
  let (writer, central) ← writeEntries files crc entries
  let archive := writeDirectory writer central
  if archive.length ≥ 2 ^ 63 then .error ⟨.fileTooLarge, "file too large"⟩
  else pure (archive, ⟨sha256Hex codec archive, archive.length, central.length⟩)

end Writer

/-! ## The archive -/

/-- The versions, times and attributes that are written. -/
def style : Zip.Style where
  madeBy := 0x031e
  localVersion := fun size => if needsZip64U32 size then 45 else 20
  centralVersion := fun size offset =>
    if needsZip64U32 size || needsZip64U32 offset then 45 else 20
  endVersion := 45
  flags := 0x0800
  time := 0
  date := 0x21
  external := 0o100644 <<< 16
  localVersion_le := fun size => by split <;> omega
  centralVersion_le := fun size offset => by split <;> omega
  endVersion_le := le_refl 45
  flags_readable := rfl
  flags_lt := by decide

section Texts

variable {size offset : ℕ}

theorem narrow_eq (n : ℕ) : (if needsZip64U32 n then 0xffffffff else n) = Zip.narrow n := by
  rw [Zip.narrow, needsZip64U32]
  simp only [decide_eq_true_eq]

theorem saturated_eq_narrow (n : ℕ) : saturated 0xffffffff n = Zip.narrow n := by
  rw [Zip.narrow, saturated]
  split <;> split <;> omega

theorem saturated_eq_narrowCount (n : ℕ) : saturated 0xffff n = Zip.narrowCount n := by
  rw [Zip.narrowCount, saturated]
  split <;> split <;> omega

theorem wideBytes_eq (n : ℕ) : Zip.wideBytes n = if needsZip64U32 n then le 8 n else [] := by
  rw [Zip.wideBytes, needsZip64U32]
  simp only [decide_eq_true_eq]

/-- The field in a local header, which is there when the size needs it. -/
theorem zip64Extra_eq (size : ℕ) : (if needsZip64U32 size then zip64Extra size none else []) =
    Zip.extraText (Zip.wideBytes size ++ Zip.wideBytes size) := by
  rw [wideBytes_eq]
  cases needsZip64U32 size with
  | false => rfl
  | true => simp [zip64Extra, Zip.extraText, le]

theorem zip64CentralExtra_eq (size offset : ℕ) :
    (if needsZip64U32 size || needsZip64U32 offset then
      zip64CentralExtra size (needsZip64U32 size) offset (needsZip64U32 offset) else []) =
    Zip.extraText (Zip.wideBytes size ++ (Zip.wideBytes size ++ Zip.wideBytes offset)) := by
  rw [wideBytes_eq, wideBytes_eq]
  cases needsZip64U32 size with
  | false =>
    cases needsZip64U32 offset with
    | false => rfl
    | true => simp [zip64CentralExtra, Zip.extraText, le]
  | true =>
    cases needsZip64U32 offset with
    | false => simp [zip64CentralExtra, Zip.extraText, le]
    | true => simp [zip64CentralExtra, Zip.extraText, le]

theorem localHeader_eq (name : Bytes) (crc32 size : ℕ) : localHeader name crc32 size =
    Zip.localText (style.localVersion size) style.flags style.time style.date crc32 size name := by
  rw [localHeader, zip64Extra_eq, narrow_eq]
  rfl

theorem centralHeader_eq (e : ZipEntry) : centralHeader e =
    Zip.centralText style.madeBy (style.centralVersion e.size e.offset) style.flags style.time
      style.date e.crc32 e.size style.external e.offset (utf8 e.path) := by
  rw [centralHeader, zip64CentralExtra_eq, narrow_eq, narrow_eq]
  rfl

theorem endRecord_eq (count size offset : ℕ) : endRecord count size offset =
    Zip.endText (Zip.narrowCount count) (Zip.narrow size) (Zip.narrow offset) := by
  rw [endRecord, saturated_eq_narrow, saturated_eq_narrow, saturated_eq_narrowCount]
  rfl

theorem zip64End_eq (count size offset start : ℕ) : zip64End count size offset start =
    Zip.zip64EndText style.madeBy style.endVersion count size offset ++
      Zip.zip64LocatorText start := by
  simp only [zip64End, Zip.zip64EndText, Zip.zip64LocatorText, List.append_assoc]
  rfl

end Texts

/-- A list in order without repetitions among neighbours is strictly in order. -/
theorem isChain_lt_of_hasRepeated {l : List String} (horder : l.Pairwise (· ≤ ·))
    (h : hasRepeated l = false) : l.IsChain (· < ·) := by
  induction l with
  | nil => exact List.isChain_nil
  | cons a l ih =>
    cases l with
    | nil => exact List.isChain_singleton a
    | cons b l =>
      obtain ⟨hle, horder⟩ := List.pairwise_cons.mp horder
      rw [hasRepeated, Bool.or_eq_false_iff, beq_eq_false_iff_ne] at h
      exact List.isChain_cons_cons.mpr
        ⟨lt_of_le_of_ne (hle b List.mem_cons_self) h.1, ih horder h.2⟩

/-- The sorted entries are the entries in the order of their paths, which are distinct. -/
theorem sortedEntries_ok {entries sorted : List ConsumerArchiveEntry}
    (h : sortedEntries entries = .ok sorted) :
    sorted.Perm entries ∧ sorted.Pairwise fun a b => a.path < b.path := by
  rw [sortedEntries] at h
  split at h
  · cases h
  · next hdistinct =>
    cases h
    have horder := List.pairwise_map.mpr (SortBy.pairwise_sortBy ConsumerArchiveEntry.path entries)
    have hchain := isChain_lt_of_hasRepeated horder (Bool.not_eq_true _ ▸ hdistinct)
    exact ⟨SortBy.perm_sortBy _ _, List.pairwise_map.mp (List.isChain_iff_pairwise.mp hchain)⟩

/-- An entry with the content that is packed, and its offset. -/
structure Part where
  entry : ConsumerArchiveEntry
  content : Bytes
  crc32 : UInt32
  offset : ℕ

def Part.zipEntry (p : Part) : ZipEntry :=
  ⟨p.entry.path, p.crc32.toNat, p.content.length, p.offset⟩

def Part.stored (p : Part) : Zip.Stored :=
  ⟨p.crc32.toNat, p.offset, utf8 p.entry.path, p.content⟩

theorem centralHeader_zipEntry (p : Part) : centralHeader p.zipEntry = p.stored.entry style :=
  centralHeader_eq p.zipEntry

theorem record_stored (p : Part) : localHeader (utf8 p.entry.path) p.crc32.toNat p.content.length ++
    p.content = p.stored.record style := by
  rw [localHeader_eq]
  rfl

section Reading

variable {files : String → Except IoError Bytes} {crc : Bytes → UInt32}

/-- The part holds the entry's source, and lies where it says. -/
structure Part.In (files : String → Except IoError Bytes) (crc : Bytes → UInt32) (writer : Bytes)
    (p : Part) : Prop where
  source : files p.entry.source = .ok p.content
  checksum : p.crc32 = crc p.content
  stored : p.stored.In style writer

theorem Part.In.append {writer : Bytes} {p : Part} (h : p.In files crc writer) (more : Bytes) :
    p.In files crc (writer ++ more) :=
  ⟨h.source, h.checksum, h.stored.append more⟩

/-- One entry is written: it lies at the end of what was written before. -/
theorem writeEntry_placed {writer writer' : Bytes} {central central' : List ZipEntry}
    {entry : ConsumerArchiveEntry}
    (h : writeEntry files crc (writer, central) entry = .ok (writer', central')) :
    ∃ p : Part, p.entry = entry ∧ p.In files crc writer' ∧ central' = central ++ [p.zipEntry] ∧
      writer <+: writer' := by
  rw [writeEntry] at h
  by_cases hname : (utf8 entry.path).length > 0xffff
  · rw [if_pos hname] at h
    cases h
  · rw [if_neg hname] at h
    cases hsource : files entry.source with
    | error e =>
      rw [hsource] at h
      cases h
    | ok content =>
      rw [hsource] at h
      cases h
      let p : Part := ⟨entry, content, crc content, writer.length⟩
      have hrecord := record_stored p
      refine ⟨p, rfl, ⟨hsource, rfl, (crc content).toNat_lt, ?_, ?_⟩, rfl, List.prefix_append _ _⟩
      · show (utf8 entry.path).length < 256 ^ 2
        omega
      · refine ⟨writer, [], ?_, rfl⟩
        rw [List.append_nil, ← hrecord]

/-- All entries are written, each at the offset that is kept for the directory. -/
theorem foldlM_placed {entries : List ConsumerArchiveEntry} {writer writer' : Bytes}
    {central central' : List ZipEntry}
    (h : entries.foldlM (writeEntry files crc) (writer, central) = .ok (writer', central')) :
    ∃ parts : List Part, parts.map Part.entry = entries ∧
      central' = central ++ parts.map Part.zipEntry ∧ (∀ p ∈ parts, p.In files crc writer') ∧
      writer <+: writer' := by
  induction entries generalizing writer central with
  | nil =>
    cases h
    exact ⟨[], rfl, (List.append_nil _).symm, by simp, List.prefix_rfl⟩
  | cons entry entries ih =>
    rw [List.foldlM_cons] at h
    cases hfirst : writeEntry files crc (writer, central) entry with
    | error e =>
      rw [hfirst] at h
      cases h
    | ok next =>
      rw [hfirst] at h
      obtain ⟨p, hentry, hp, hcentral, hgrows⟩ := writeEntry_placed hfirst
      obtain ⟨parts, hentries, hrest, hparts, hgrows'⟩ := ih h
      obtain ⟨more, hmore⟩ := hgrows'
      refine ⟨p :: parts, by rw [List.map_cons, hentry, hentries], ?_, ?_,
        hgrows.trans ⟨more, hmore⟩⟩
      · rw [hrest, hcentral, List.append_assoc]
        rfl
      · rintro q (_ | ⟨_, hq⟩)
        · rw [← hmore]
          exact hp.append more
        · exact hparts q hq

/-- What is written behind the entries is the end of an archive in the ZIP format. -/
theorem writeDirectory_eq (writer : Bytes) (parts : List Part) : ∃ wide,
    (parts.length ≥ 0xffff ∨ (Zip.directoryText style (parts.map Part.stored)).length ≥ 0xffffffff ∨
      writer.length ≥ 0xffffffff → wide = true) ∧
    writeDirectory writer (parts.map Part.zipEntry) =
      writer ++ Zip.closing style wide (parts.map Part.stored) writer.length := by
  set directory := Zip.directoryText style (parts.map Part.stored) with hdirectory
  have hcentral : (parts.map Part.zipEntry).flatMap centralHeader = directory := by
    rw [hdirectory, Zip.directoryText, List.flatMap_map, List.flatMap_map]
    exact List.flatMap_congr fun p _ => centralHeader_zipEntry p
  have hsize : (writer ++ directory).length - writer.length = directory.length := by
    rw [List.length_append, Nat.add_sub_cancel_left]
  set wide := needsZip64Count (parts.map Part.zipEntry).length || needsZip64U32 writer.length ||
    needsZip64U32 directory.length ||
      (parts.map Part.zipEntry).any fun entry =>
        needsZip64U32 entry.size || needsZip64U32 entry.offset with hwide
  refine ⟨wide, fun hneed => ?_, ?_⟩
  · rw [hwide, List.length_map, needsZip64Count, needsZip64U32, needsZip64U32]
    simp only [Bool.or_eq_true, decide_eq_true_eq]
    rcases hneed with h | h | h
    · exact Or.inl (Or.inl (Or.inl h))
    · exact Or.inl (Or.inr h)
    · exact Or.inl (Or.inl (Or.inr h))
  · rw [writeDirectory, hcentral, hsize, ← hwide, endRecord_eq, zip64End_eq, Zip.closing,
      Zip.trailer, ← hdirectory, List.length_map, List.length_map, List.length_append]
    cases wide with
    | true => simp only [if_true, List.append_assoc]
    | false => simp only [Bool.false_eq_true, if_false, List.nil_append, List.append_assoc]

/-- What the reader gives back for an entry: its name, and the size, the checksum and the content
of its source. -/
def IsMember (files : String → Except IoError Bytes) (crc : Bytes → UInt32)
    (entry : ConsumerArchiveEntry) (member : Zip.Member) : Prop :=
  ∃ content, files entry.source = .ok content ∧
    member = ⟨utf8 entry.path, true, (crc content).toNat, content.length, content⟩

/-- The archive is read back as the sorted entries. -/
theorem read_packWheel {codec : Codec} {entries : List ConsumerArchiveEntry} {archive : Bytes}
    {result : ConsumerArchiveResult}
    (h : packWheel files crc codec entries = .ok (archive, result)) :
    ∃ sorted members, sortedEntries entries = .ok sorted ∧ Zip.read archive = some members ∧
      List.Forall₂ (IsMember files crc) sorted members := by
  rw [packWheel] at h
  cases hsorted : sortedEntries entries with
  | error e =>
    rw [hsorted] at h
    cases h
  | ok sorted =>
    rw [hsorted] at h
    cases hwritten : writeEntries files crc sorted with
    | error e =>
      change (writeEntries files crc sorted >>= _) = _ at h
      rw [hwritten] at h
      cases h
    | ok written =>
      obtain ⟨writer, central⟩ := written
      change (writeEntries files crc sorted >>= _) = _ at h
      rw [hwritten] at h
      obtain ⟨parts, hentries, hcentral, hparts, -⟩ := foldlM_placed hwritten
      rw [List.nil_append] at hcentral
      obtain ⟨wide, hwide, hdirectory⟩ := writeDirectory_eq writer parts
      change (if (writeDirectory writer central).length ≥ 2 ^ 63 then _ else _) = _ at h
      rw [hcentral, hdirectory] at h
      split at h
      · cases h
      · next hlength =>
        cases h
        have hread := @Zip.read_eq _ (parts.map Part.stored) _ wide (by
          intro e he
          obtain ⟨p, hp, rfl⟩ := List.mem_map.mp he
          exact (hparts p hp).stored) (by rwa [List.length_map]) (by omega)
        refine ⟨sorted, _, rfl, hread, ?_⟩
        rw [← hentries, List.map_map, List.forall₂_map_left_iff, List.forall₂_map_right_iff,
          List.forall₂_same]
        intro p hp
        refine ⟨p.content, (hparts p hp).source, ?_⟩
        rw [← (hparts p hp).checksum]
        rfl

end Reading

end OpenStrata.Wheel
