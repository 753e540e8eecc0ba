import OpenStrata.Lib.Wire

/-!
# Reading ZIP archives

An archive is read from its end: the end record leads to the central directory, and each entry of
the directory leads to the local header in front of the entry's data. A field of all ones refers to
the ZIP64 form of the field, which has eight bytes. Entries are stored, on a single disk.

## Main definitions

* `localHeader`, `centralHeader`, `endRecord`, `zip64Locator`, `zip64EndRecord`: the records
* `directoryOf`: the central directory that the end records describe
* `read`: the members of an archive

## Main results

* `reads_localHeader`, `reads_centralHeader` and so on: the text of each record
* `read_eq`: the members of an archive whose records are known
-/

namespace Zip

open Wire Endian

/-- A member of an archive. -/
structure Member where
  name : List UInt8
  /-- The name is encoded in UTF-8. -/
  utf8 : Bool
  crc : ℕ
  size : ℕ
  content : List UInt8
deriving DecidableEq

structure LocalHeader where
  flags : ℕ
  crc : ℕ
  compressed : ℕ
  size : ℕ
  name : List UInt8

structure CentralHeader where
  flags : ℕ
  crc : ℕ
  compressed : ℕ
  size : ℕ
  name : List UInt8
  offset : ℕ

/-- What the end records say about the central directory. -/
structure Directory where
  count : ℕ
  size : ℕ
  offset : ℕ

/-! ## Fields of eight bytes -/

/-- The first extra field of a kind. -/
def findExtra (kind : ℕ) : ℕ → List UInt8 → Option (List UInt8)
  | 0, _ => none
  | fuel + 1, bytes =>
    match (do
      let id ← number 2
      let size ← number 2
      let data ← block size
      pure (id, data) : Reader (ℕ × List UInt8)) bytes with
    | none => none
    | some ((id, data), rest) => if id = kind then some data else findExtra kind fuel rest

/-- The ZIP64 field, or nothing. -/
def zip64Field (extra : List UInt8) : List UInt8 := (findExtra 1 extra.length extra).getD []

/-- A field of all ones is replaced by the next eight bytes. -/
def widen (field : ℕ) : Reader ℕ := if field = 0xffffffff then number 8 else pure field

/-- Stored entries, neither encrypted nor with their sizes behind the data, in a version that is
understood. -/
def isReadable (version flags method : ℕ) : Prop := version ≤ 45 ∧ flags &&& 9 = 0 ∧ method = 0

instance (version flags method : ℕ) : Decidable (isReadable version flags method) :=
  inferInstanceAs (Decidable (_ ∧ _ ∧ _))

/-! ## Records -/

def localHeader : Reader LocalHeader := do
  let signature ← number 4
  check (signature = 0x04034b50)
  let version ← number 2
  let flags ← number 2
  let method ← number 2
  check (isReadable version flags method)
  let _time ← number 2
  let _date ← number 2
  let crc ← number 4
  let compressed ← number 4
  let size ← number 4
  let nameLength ← number 2
  let extraLength ← number 2
  let name ← block nameLength
  let extra ← block extraLength
  within (do
    let size ← widen size
    let compressed ← widen compressed
    pure ⟨flags, crc, compressed, size, name⟩) (zip64Field extra)

def centralHeader : Reader CentralHeader := do
  let signature ← number 4
  check (signature = 0x02014b50)
  let _madeBy ← number 2
  let version ← number 2
  let flags ← number 2
  let method ← number 2
  check (isReadable version flags method)
  let _time ← number 2
  let _date ← number 2
  let crc ← number 4
  let compressed ← number 4
  let size ← number 4
  let nameLength ← number 2
  let extraLength ← number 2
  let commentLength ← number 2
  let disk ← number 2
  check (disk = 0)
  let _internal ← number 2
  let _external ← number 4
  let offset ← number 4
  let name ← block nameLength
  let extra ← block extraLength
  let _comment ← block commentLength
  within (do
    let size ← widen size
    let compressed ← widen compressed
    let offset ← widen offset
    pure ⟨flags, crc, compressed, size, name, offset⟩) (zip64Field extra)

def endRecord : Reader Directory := do
  let signature ← number 4
  check (signature = 0x06054b50)
  let disk ← number 2
  let directoryDisk ← number 2
  check (disk = 0 ∧ directoryDisk = 0)
  let onDisk ← number 2
  let count ← number 2
  check (onDisk = count)
  let size ← number 4
  let offset ← number 4
  let commentLength ← number 2
  let _comment ← block commentLength
  pure ⟨count, size, offset⟩

/-- The offset of the ZIP64 end record. -/
def zip64Locator : Reader ℕ := do
  let signature ← number 4
  check (signature = 0x07064b50)
  let disk ← number 4
  check (disk = 0)
  let offset ← number 8
  let disks ← number 4
  check (disks = 1)
  pure offset

def zip64EndRecord : Reader Directory := do
  let signature ← number 4
  check (signature = 0x06064b50)
  let length ← number 8
  check (44 ≤ length)
  let _madeBy ← number 2
  let version ← number 2
  check (version ≤ 45)
  let disk ← number 4
  let directoryDisk ← number 4
  check (disk = 0 ∧ directoryDisk = 0)
  let onDisk ← number 8
  let count ← number 8
  check (onDisk = count)
  let size ← number 8
  let offset ← number 8
  pure ⟨count, size, offset⟩

/-! ## Archives -/

/-- An end record at a position, whose comment ends with the archive. -/
def isEnd (bytes : List UInt8) (comment : ℕ) : Bool :=
  22 + comment ≤ bytes.length &&
    readLe 4 bytes (bytes.length - (22 + comment)) = some 0x06054b50 &&
      readLe 2 bytes (bytes.length - (22 + comment) + 20) = some comment

/-- The end record is looked for from the end of the archive on. -/
def searchEnd (bytes : List UInt8) : ℕ → ℕ → Option ℕ
  | 0, _ => none
  | left + 1, comment =>
    if isEnd bytes comment then some (bytes.length - (22 + comment))
    else searchEnd bytes left (comment + 1)

/-- The central directory, with the fields of all ones from the ZIP64 end record. -/
def directoryOf (bytes : List UInt8) : Option Directory := do
  let position ← searchEnd bytes 65536 0
  let (found, _) ← endRecord (bytes.drop position)
  if found.count = 0xffff ∨ found.size = 0xffffffff ∨ found.offset = 0xffffffff then
    if position < 20 then none
    else
      let (offset, _) ← zip64Locator (bytes.drop (position - 20))
      let (wide, _) ← zip64EndRecord (bytes.drop offset)
      pure {
        count := if found.count = 0xffff then wide.count else found.count
        size := if found.size = 0xffffffff then wide.size else found.size
        offset := if found.offset = 0xffffffff then wide.offset else found.offset }
  else pure found

/-- The member that a directory entry leads to, whose local header agrees with it. -/
def readMember (bytes : List UInt8) (entry : CentralHeader) : Option Member := do
  let (header, data) ← localHeader (bytes.drop entry.offset)
  if header.name = entry.name ∧ header.flags = entry.flags ∧ header.crc = entry.crc ∧
      header.size = entry.size ∧ header.compressed = entry.compressed ∧
      entry.compressed = entry.size ∧ entry.size ≤ data.length then
    pure {
      name := entry.name
      utf8 := entry.flags &&& 0x0800 ≠ 0
      crc := entry.crc
      size := entry.size
      content := data.take entry.size }
  else none

/-- The members of an archive, in the order of its directory. -/
def read (bytes : List UInt8) : Option (List Member) := do
  let directory ← directoryOf bytes
  let (entries, rest) ← many centralHeader directory.count (bytes.drop directory.offset)
  if directory.offset + directory.size + rest.length = bytes.length then
    entries.mapM (readMember bytes)
  else none

/-! ## The text of a record -/

/-- A number as a field of four bytes, of all ones when it is too large. -/
def narrow (n : ℕ) : ℕ := if n ≥ 0xffffffff then 0xffffffff else n

/-- The eight bytes of a number that is too large for its field. -/
def wideBytes (n : ℕ) : List UInt8 := if n ≥ 0xffffffff then le 8 n else []

/-- The ZIP64 field with the given data, unless there is nothing to say. -/
def extraText (data : List UInt8) : List UInt8 :=
  if data = [] then [] else le 2 1 ++ (le 2 data.length ++ data)

/-- The local header of a stored entry. -/
def localText (version flags time date crc size : ℕ) (name : List UInt8) : List UInt8 :=
  let extra := extraText (wideBytes size ++ wideBytes size)
  le 4 0x04034b50 ++ (le 2 version ++ (le 2 flags ++ (le 2 0 ++ (le 2 time ++ (le 2 date ++
    (le 4 crc ++ (le 4 (narrow size) ++ (le 4 (narrow size) ++ (le 2 name.length ++
      (le 2 extra.length ++ (name ++ extra)))))))))))

/-- The directory entry of a stored entry without a comment. -/
def centralText (madeBy version flags time date crc size external offset : ℕ)
    (name : List UInt8) : List UInt8 :=
  let extra := extraText (wideBytes size ++ (wideBytes size ++ wideBytes offset))
  le 4 0x02014b50 ++ (le 2 madeBy ++ (le 2 version ++ (le 2 flags ++ (le 2 0 ++ (le 2 time ++
    (le 2 date ++ (le 4 crc ++ (le 4 (narrow size) ++ (le 4 (narrow size) ++ (le 2 name.length ++
      (le 2 extra.length ++ (le 2 0 ++ (le 2 0 ++ (le 2 0 ++ (le 4 external ++
        (le 4 (narrow offset) ++ (name ++ extra)))))))))))))))))

/-- The end record without a comment. -/
def endText (count size offset : ℕ) : List UInt8 :=
  le 4 0x06054b50 ++ (le 2 0 ++ (le 2 0 ++ (le 2 count ++ (le 2 count ++ (le 4 size ++
    (le 4 offset ++ le 2 0))))))

def zip64LocatorText (offset : ℕ) : List UInt8 :=
  le 4 0x07064b50 ++ (le 4 0 ++ (le 8 offset ++ le 4 1))

def zip64EndText (madeBy version count size offset : ℕ) : List UInt8 :=
  le 4 0x06064b50 ++ (le 8 44 ++ (le 2 madeBy ++ (le 2 version ++ (le 4 0 ++ (le 4 0 ++
    (le 8 count ++ (le 8 count ++ (le 8 size ++ le 8 offset))))))))

section Reading

variable {version flags time date crc size madeBy external offset count n : ℕ}
  {name data : List UInt8}

theorem narrow_lt (n : ℕ) : narrow n < 256 ^ 4 := by
  rw [narrow]
  split <;> omega

theorem reads_widen (h : n < 256 ^ 8) : Reads (widen (narrow n)) (wideBytes n) n := by
  rw [narrow, wideBytes, widen]
  by_cases hwide : n ≥ 0xffffffff
  · rw [if_pos hwide, if_pos hwide, if_pos rfl]
    exact Reads.number h
  · rw [if_neg hwide, if_neg hwide, if_neg (by omega)]
    exact Reads.pure n

theorem length_wideBytes_le (n : ℕ) : (wideBytes n).length ≤ 8 := by
  rw [wideBytes]
  split <;> simp

/-- The ZIP64 field is found again. -/
theorem zip64Field_extraText (h : data.length < 256 ^ 2) : zip64Field (extraText data) = data := by
  by_cases hdata : data = []
  · subst hdata
    rfl
  · have hblock : Reads (do
        let id ← number 2
        let size ← number 2
        let data ← block size
        pure (id, data) : Reader (ℕ × List UInt8)) (extraText data) (1, data) := by
      rw [extraText, if_neg hdata]
      refine (Reads.number (by decide)).bind ((Reads.number h).bind ?_)
      exact (Reads.block rfl).bind_nil (Reads.pure _)
    have hlen : (extraText data).length = data.length + 3 + 1 := by
      rw [extraText, if_neg hdata, List.length_append, List.length_append, length_le, length_le]
      omega
    rw [zip64Field, hlen, findExtra, hblock.eq_some (List.append_nil _).symm]
    rfl

theorem length_extraText_lt (h : data.length ≤ 24) : (extraText data).length < 256 ^ 2 := by
  rw [extraText]
  split
  · simp
  · simp only [List.length_append, length_le]
    omega

/-- The local header of a stored entry is read, whatever its size. -/
theorem reads_localHeader (time date : ℕ) (hversion : version ≤ 45) (hflags : flags &&& 9 = 0)
    (hflags' : flags < 256 ^ 2) (hcrc : crc < 256 ^ 4) (hname : name.length < 256 ^ 2)
    (hsize : size < 256 ^ 8) :
    Reads localHeader (localText version flags time date crc size name)
      ⟨flags, crc, size, size, name⟩ := by
  have hdata : (wideBytes size ++ wideBytes size).length ≤ 24 := by
    have := length_wideBytes_le size
    rw [List.length_append]
    omega
  have hsizes : Reads (within (do
      let wide ← widen (narrow size)
      let compressed ← widen (narrow size)
      pure ⟨flags, crc, compressed, wide, name⟩)
      (zip64Field (extraText (wideBytes size ++ wideBytes size)))) []
      (⟨flags, crc, size, size, name⟩ : LocalHeader) := by
    rw [zip64Field_extraText (by omega), ← List.append_nil (_ ++ _)]
    exact Reads.within ((reads_widen hsize).bind ((reads_widen hsize).bind_nil (Reads.pure _)))
  refine (Reads.number (by decide)).bind (Reads.check rfl ?_)
  refine (Reads.number (by omega)).bind ((Reads.number hflags').bind ?_)
  refine (Reads.number (by decide)).bind (Reads.check ⟨hversion, hflags, rfl⟩ ?_)
  refine (Reads.number_mod 2 time).bind ((Reads.number_mod 2 date).bind ?_)
  refine (Reads.number hcrc).bind ((Reads.number (narrow_lt size)).bind ?_)
  refine (Reads.number (narrow_lt size)).bind ((Reads.number hname).bind ?_)
  refine (Reads.number (length_extraText_lt hdata)).bind ((Reads.block rfl).bind ?_)
  exact (Reads.block rfl).bind_nil hsizes

theorem reads_centralHeader (hversion : version ≤ 45) (hflags : flags &&& 9 = 0)
    (hflags' : flags < 256 ^ 2) (hcrc : crc < 256 ^ 4) (hname : name.length < 256 ^ 2)
    (hsize : size < 256 ^ 8) (hoffset : offset < 256 ^ 8) :
    Reads centralHeader (centralText madeBy version flags time date crc size external offset name)
      ⟨flags, crc, size, size, name, offset⟩ := by
  have hdata : (wideBytes size ++ (wideBytes size ++ wideBytes offset)).length ≤ 24 := by
    have := length_wideBytes_le size
    have := length_wideBytes_le offset
    simp only [List.length_append]
    omega
  have hfields : Reads (within (do
      let wide ← widen (narrow size)
      let compressed ← widen (narrow size)
      let start ← widen (narrow offset)
      pure ⟨flags, crc, compressed, wide, name, start⟩)
      (zip64Field (extraText (wideBytes size ++ (wideBytes size ++ wideBytes offset))))) []
      (⟨flags, crc, size, size, name, offset⟩ : CentralHeader) := by
    rw [zip64Field_extraText (by omega), ← List.append_nil (_ ++ _)]
    exact Reads.within ((reads_widen hsize).bind ((reads_widen hsize).bind
      ((reads_widen hoffset).bind_nil (Reads.pure _))))
  refine (Reads.number (by decide)).bind (Reads.check rfl ?_)
  refine (Reads.number_mod 2 madeBy).bind ((Reads.number (by omega)).bind ?_)
  refine (Reads.number hflags').bind ((Reads.number (by decide)).bind ?_)
  refine Reads.check ⟨hversion, hflags, rfl⟩ ?_
  refine (Reads.number_mod 2 time).bind ((Reads.number_mod 2 date).bind ?_)
  refine (Reads.number hcrc).bind ((Reads.number (narrow_lt size)).bind ?_)
  refine (Reads.number (narrow_lt size)).bind ((Reads.number hname).bind ?_)
  refine (Reads.number (length_extraText_lt hdata)).bind ((Reads.number (by decide)).bind ?_)
  refine (Reads.number (by decide)).bind (Reads.check rfl ?_)
  refine (Reads.number_mod 2 0).bind ((Reads.number_mod 4 external).bind ?_)
  refine (Reads.number (narrow_lt offset)).bind ((Reads.block rfl).bind ?_)
  refine (Reads.block rfl).bind_nil ?_
  exact (@Reads.block [] _ rfl).bind_nil hfields

theorem reads_endRecord (hcount : count < 256 ^ 2) (hsize : size < 256 ^ 4)
    (hoffset : offset < 256 ^ 4) :
    Reads endRecord (endText count size offset) ⟨count, size, offset⟩ := by
  refine (Reads.number (by decide)).bind (Reads.check rfl ?_)
  refine (Reads.number (by decide)).bind ((Reads.number (by decide)).bind ?_)
  refine Reads.check ⟨rfl, rfl⟩ ((Reads.number hcount).bind ((Reads.number hcount).bind ?_))
  refine Reads.check rfl ((Reads.number hsize).bind ((Reads.number hoffset).bind ?_))
  refine (Reads.number (by decide)).bind_nil ?_
  exact (@Reads.block [] _ rfl).bind_nil (Reads.pure _)

theorem reads_zip64Locator (hoffset : offset < 256 ^ 8) :
    Reads zip64Locator (zip64LocatorText offset) offset := by
  refine (Reads.number (by decide)).bind (Reads.check rfl ?_)
  refine (Reads.number (by decide)).bind (Reads.check rfl ?_)
  refine (Reads.number hoffset).bind ((Reads.number (by decide)).bind_nil ?_)
  exact Reads.check rfl (Reads.pure _)

theorem reads_zip64EndRecord (madeBy : ℕ) (hversion : version ≤ 45) (hcount : count < 256 ^ 8)
    (hsize : size < 256 ^ 8) (hoffset : offset < 256 ^ 8) :
    Reads zip64EndRecord (zip64EndText madeBy version count size offset)
      ⟨count, size, offset⟩ := by
  refine (Reads.number (by decide)).bind (Reads.check rfl ?_)
  refine (Reads.number (by decide)).bind (Reads.check (le_refl 44) ?_)
  refine (Reads.number_mod 2 madeBy).bind ((Reads.number (by omega)).bind ?_)
  refine Reads.check hversion ((Reads.number (by decide)).bind ((Reads.number (by decide)).bind ?_))
  refine Reads.check ⟨rfl, rfl⟩ ((Reads.number hcount).bind ((Reads.number hcount).bind ?_))
  refine Reads.check rfl ((Reads.number hsize).bind ((Reads.number hoffset).bind_nil ?_))
  exact Reads.pure _

/-! ## The end of an archive -/

/-- The end of an archive that ends with an end record without a comment. -/
theorem searchEnd_endText (front : List UInt8) (left : ℕ) :
    searchEnd (front ++ endText count size offset) (left + 1) 0 = some front.length := by
  have hlen : (endText count size offset).length = 22 := by
    simp only [endText, List.length_append, length_le]
  have hposition : (front ++ endText count size offset).length - (22 + 0) = front.length := by
    rw [List.length_append, hlen]
    omega
  have hsignature : readLe 4 (front ++ endText count size offset) front.length =
      some 0x06054b50 := readLe_append rfl (by decide)
  have hcomment : readLe 2 (front ++ endText count size offset) (front.length + 20) = some 0 := by
    have hsplit : front ++ endText count size offset =
        (front ++ (le 4 0x06054b50 ++ (le 2 0 ++ (le 2 0 ++ (le 2 count ++ (le 2 count ++
          (le 4 size ++ le 4 offset))))))) ++ (le 2 0 ++ []) := by
      simp [endText]
    rw [hsplit]
    refine readLe_append ?_ (by decide)
    simp only [List.length_append, length_le]
  have hend : isEnd (front ++ endText count size offset) 0 = true := by
    rw [isEnd, hposition, hsignature, hcomment, List.length_append, hlen]
    simp
  rw [searchEnd, if_pos hend, hposition]

/-- The fields of the end record that hold the number of entries, or all ones. -/
def narrowCount (n : ℕ) : ℕ := if n ≥ 0xffff then 0xffff else n

theorem narrowCount_lt (n : ℕ) : narrowCount n < 256 ^ 2 := by
  rw [narrowCount]
  split <;> omega

/-- The end records of an archive whose directory needs no field of eight bytes, or that has the
ZIP64 records. -/
def trailer (wide : Bool) (madeBy version count size offset : ℕ) : List UInt8 :=
  (if wide then zip64EndText madeBy version count size offset ++ zip64LocatorText (offset + size)
    else []) ++ endText (narrowCount count) (narrow size) (narrow offset)

theorem narrow_eq_or (n : ℕ) : n ≥ 0xffffffff ∧ narrow n = 0xffffffff ∨
    narrow n ≠ 0xffffffff ∧ narrow n = n := by
  rw [narrow]
  split <;> omega

theorem narrowCount_eq_or (n : ℕ) : n ≥ 0xffff ∧ narrowCount n = 0xffff ∨
    narrowCount n ≠ 0xffff ∧ narrowCount n = n := by
  rw [narrowCount]
  split <;> omega

/-- What the end record and the ZIP64 end record say together. -/
theorem resolve_narrow (n : ℕ) : (if narrow n = 0xffffffff then n else narrow n) = n := by
  rcases narrow_eq_or n with ⟨-, h⟩ | ⟨hne, h⟩
  · rw [if_pos h]
  · rw [if_neg hne, h]

theorem resolve_narrowCount (n : ℕ) :
    (if narrowCount n = 0xffff then n else narrowCount n) = n := by
  rcases narrowCount_eq_or n with ⟨-, h⟩ | ⟨hne, h⟩
  · rw [if_pos h]
  · rw [if_neg hne, h]

/-- The directory is found, when the ZIP64 records are there if a field needs them. -/
theorem directoryOf_trailer {wide : Bool} {front : List UInt8} (hversion : version ≤ 45)
    (hcount : count < 256 ^ 8) (hfront : front.length = offset + size)
    (hlength : offset + size < 256 ^ 8)
    (hwide : count ≥ 0xffff ∨ size ≥ 0xffffffff ∨ offset ≥ 0xffffffff → wide = true) :
    directoryOf (front ++ trailer wide madeBy version count size offset) =
      some ⟨count, size, offset⟩ := by
  set last := endText (narrowCount count) (narrow size) (narrow offset) with hlast
  have hend : endRecord last = some (⟨narrowCount count, narrow size, narrow offset⟩, []) :=
    (reads_endRecord (narrowCount_lt count) (narrow_lt size) (narrow_lt offset)).eq_some
      (List.append_nil _).symm
  -- whatever stands in front of the end record, the end record is found
  have hfound : ∀ before : List UInt8, searchEnd (before ++ last) 65536 0 = some before.length ∧
      (before ++ last).drop before.length = last :=
    fun before => ⟨searchEnd_endText before 65535, List.drop_left⟩
  by_cases hneed : narrowCount count = 0xffff ∨ narrow size = 0xffffffff ∨
      narrow offset = 0xffffffff
  · have hneed' : wide = true := by
      refine hwide ?_
      have := narrowCount_eq_or count
      have := narrow_eq_or size
      have := narrow_eq_or offset
      omega
    subst hneed'
    set wideEnd := zip64EndText madeBy version count size offset
    set locator := zip64LocatorText (offset + size) with hlocator
    have harchive : front ++ trailer true madeBy version count size offset =
        ((front ++ wideEnd) ++ locator) ++ last := by
      rw [trailer, if_pos rfl, List.append_assoc, List.append_assoc, List.append_assoc]
    have hlen : locator.length = 20 := by
      simp only [hlocator, zip64LocatorText, List.length_append, length_le]
    have hposition : ((front ++ wideEnd) ++ locator).length - 20 = (front ++ wideEnd).length := by
      rw [List.length_append, hlen, Nat.add_sub_cancel]
    have hread := (reads_zip64Locator hlength).eq_some
      (@List.drop_left _ (front ++ wideEnd) (locator ++ last))
    have hreadEnd := (reads_zip64EndRecord madeBy hversion hcount
      (lt_of_le_of_lt (Nat.le_add_left size offset) hlength)
      (lt_of_le_of_lt (Nat.le_add_right offset size) hlength)).eq_some
      (@List.drop_left _ front (wideEnd ++ (locator ++ last)))
    obtain ⟨hsearch, hdrop⟩ := hfound ((front ++ wideEnd) ++ locator)
    rw [List.append_assoc (front ++ wideEnd)] at harchive hsearch hdrop
    have hnot : ¬ ((front ++ wideEnd) ++ locator).length < 20 := by
      rw [List.length_append, hlen]
      omega
    rw [← List.append_assoc front, hfront] at hreadEnd
    simp only [directoryOf, harchive, hsearch, hdrop, hend, Option.bind_eq_bind, Option.bind_some,
      if_pos hneed, if_neg hnot, hposition, hread, hreadEnd, resolve_narrow, resolve_narrowCount]
    rfl
  · rw [not_or, not_or] at hneed
    obtain ⟨hcount', hsize', hoffset'⟩ := hneed
    have hsame : narrowCount count = count ∧ narrow size = size ∧ narrow offset = offset :=
      ⟨((narrowCount_eq_or count).resolve_left fun h => hcount' h.2).2,
        ((narrow_eq_or size).resolve_left fun h => hsize' h.2).2,
        ((narrow_eq_or offset).resolve_left fun h => hoffset' h.2).2⟩
    have harchive : front ++ trailer wide madeBy version count size offset =
        (front ++ if wide then zip64EndText madeBy version count size offset ++
          zip64LocatorText (offset + size) else []) ++ last := by
      rw [trailer, List.append_assoc]
    obtain ⟨hsearch, hdrop⟩ := hfound (front ++ if wide then
      zip64EndText madeBy version count size offset ++ zip64LocatorText (offset + size) else [])
    rw [harchive, directoryOf, hsearch]
    simp only [Option.bind_eq_bind, Option.bind_some, hdrop, hend, hsame]
    rw [hsame.1] at hcount'
    rw [hsame.2.1] at hsize'
    rw [hsame.2.2] at hoffset'
    rw [if_neg (not_or.mpr ⟨hcount', not_or.mpr ⟨hsize', hoffset'⟩⟩)]
    rfl

end Reading

/-! ## Stored entries -/

/-- A stored entry: what its two headers say, and where its data lies. -/
structure Stored where
  crc : ℕ
  offset : ℕ
  name : List UInt8
  content : List UInt8

/-- The fields that the reading of an archive does not depend on. -/
structure Style where
  madeBy : ℕ
  localVersion : ℕ → ℕ
  centralVersion : ℕ → ℕ → ℕ
  endVersion : ℕ
  flags : ℕ
  time : ℕ
  date : ℕ
  external : ℕ
  localVersion_le : ∀ size, localVersion size ≤ 45
  centralVersion_le : ∀ size offset, centralVersion size offset ≤ 45
  endVersion_le : endVersion ≤ 45
  flags_readable : flags &&& 9 = 0
  flags_lt : flags < 256 ^ 2

namespace Stored

variable (style : Style) (e : Stored)

/-- The local header and the data. -/
def record : List UInt8 :=
  localText (style.localVersion e.content.length) style.flags style.time style.date e.crc
    e.content.length e.name ++ e.content

def entry : List UInt8 :=
  centralText style.madeBy (style.centralVersion e.content.length e.offset) style.flags style.time
    style.date e.crc e.content.length style.external e.offset e.name

def central : CentralHeader :=
  ⟨style.flags, e.crc, e.content.length, e.content.length, e.name, e.offset⟩

def member : Member :=
  ⟨e.name, style.flags &&& 0x0800 ≠ 0, e.crc, e.content.length, e.content⟩

/-- The widths of the fields, and the place of the record. -/
structure In (archive : List UInt8) : Prop where
  crc_lt : e.crc < 256 ^ 4
  name_lt : e.name.length < 256 ^ 2
  placed : ∃ before after, archive = before ++ (e.record style ++ after) ∧
    before.length = e.offset

variable {style e} {archive : List UInt8}

theorem In.offset_le (h : e.In style archive) :
    e.offset ≤ archive.length ∧ e.content.length ≤ archive.length := by
  obtain ⟨before, after, rfl, hbefore⟩ := h.placed
  simp only [List.length_append, record]
  omega

theorem In.append (h : e.In style archive) (more : List UInt8) : e.In style (archive ++ more) := by
  obtain ⟨before, after, rfl, hbefore⟩ := h.placed
  exact ⟨h.crc_lt, h.name_lt, before, after ++ more, by simp, hbefore⟩

theorem reads_entry (h : e.In style archive) (hlength : archive.length < 256 ^ 8) :
    Reads centralHeader (e.entry style) (e.central style) := by
  have := h.offset_le
  exact reads_centralHeader (style.centralVersion_le _ _) style.flags_readable style.flags_lt
    h.crc_lt h.name_lt (by omega) (by omega)

/-- The member is read from where the directory says. -/
theorem readMember_central (h : e.In style archive) (hlength : archive.length < 256 ^ 8) :
    readMember archive (e.central style) = some (e.member style) := by
  have hle := h.offset_le
  obtain ⟨before, after, harchive, hbefore⟩ := h.placed
  have hdrop : archive.drop e.offset = localText (style.localVersion e.content.length) style.flags
      style.time style.date e.crc e.content.length e.name ++ (e.content ++ after) := by
    rw [harchive, ← hbefore, List.drop_left, record, List.append_assoc]
  have hread := (reads_localHeader style.time style.date
    (style.localVersion_le e.content.length) style.flags_readable style.flags_lt h.crc_lt h.name_lt
    (by omega)).eq_some hdrop
  have hin : e.content.length ≤ (e.content ++ after).length := by
    rw [List.length_append]
    omega
  show (localHeader (archive.drop e.offset)).bind _ = _
  rw [hread]
  refine (if_pos ⟨rfl, rfl, rfl, rfl, rfl, rfl, hin⟩).trans ?_
  show some _ = some _
  rw [member, central, List.take_left]

end Stored

variable {style : Style} {entries : List Stored} {front : List UInt8} {wide : Bool}

/-- The central directory. -/
def directoryText (style : Style) (entries : List Stored) : List UInt8 :=
  entries.flatMap (Stored.entry style)

/-- What stands behind the records of the entries, which take `offset` bytes. -/
def closing (style : Style) (wide : Bool) (entries : List Stored) (offset : ℕ) : List UInt8 :=
  directoryText style entries ++ trailer wide style.madeBy style.endVersion entries.length
    (directoryText style entries).length offset

theorem length_le_directoryText (style : Style) (entries : List Stored) :
    entries.length ≤ (directoryText style entries).length := by
  induction entries with
  | nil => exact Nat.zero_le _
  | cons e entries ih =>
    have hentry : 1 ≤ (e.entry style).length := by
      simp only [Stored.entry, centralText, List.length_append, length_le]
      omega
    rw [directoryText] at ih ⊢
    rw [List.flatMap_cons, List.length_append, List.length_cons]
    omega

theorem mapM_map_eq_some {α β γ : Type} {f : β → Option γ} {g : α → β} {k : α → γ} {l : List α}
    (h : ∀ a ∈ l, f (g a) = some (k a)) : (l.map g).mapM f = some (l.map k) := by
  induction l with
  | nil => rfl
  | cons a l ih =>
    rw [List.map_cons, List.mapM_cons, h a List.mem_cons_self,
      ih fun b hb => h b (List.mem_cons_of_mem a hb)]
    rfl

/-- An archive whose entries lie where its directory says is read back, entry by entry. -/
theorem read_eq (hentries : ∀ e ∈ entries, e.In style front)
    (hwide : entries.length ≥ 0xffff ∨ (directoryText style entries).length ≥ 0xffffffff ∨
      front.length ≥ 0xffffffff → wide = true)
    (hlength : (front ++ closing style wide entries front.length).length < 256 ^ 8) :
    read (front ++ closing style wide entries front.length) =
      some (entries.map (Stored.member style)) := by
  set archive := front ++ closing style wide entries front.length with harchive
  set tail := trailer wide style.madeBy style.endVersion entries.length
    (directoryText style entries).length front.length with htail
  have hsplit : archive = (front ++ directoryText style entries) ++ tail := by
    rw [harchive, closing, List.append_assoc]
  have hplaced : ∀ e ∈ entries, e.In style archive := fun e he => (hentries e he).append _
  have hfit : front.length + (directoryText style entries).length < 256 ^ 8 := by
    rw [hsplit, List.length_append, List.length_append] at hlength
    omega
  have hdirectory : directoryOf archive =
      some ⟨entries.length, (directoryText style entries).length, front.length⟩ := by
    have := length_le_directoryText style entries
    rw [hsplit]
    exact directoryOf_trailer style.endVersion_le (by omega) List.length_append hfit hwide
  have hdrop : archive.drop front.length = directoryText style entries ++ tail := by
    rw [hsplit, List.append_assoc, List.drop_left]
  have hread : many centralHeader entries.length (archive.drop front.length) =
      some (entries.map (Stored.central style), tail) :=
    (Reads.many fun e he => Stored.reads_entry (hplaced e he) hlength).eq_some hdrop
  have hlast : front.length + (directoryText style entries).length + tail.length =
      archive.length := by
    rw [hsplit, List.length_append, List.length_append]
  rw [read, hdirectory]
  show (many centralHeader entries.length (archive.drop front.length)).bind _ = _
  rw [hread]
  exact (if_pos hlast).trans (mapM_map_eq_some fun e he =>
    Stored.readMember_central (hplaced e he) hlength)

end Zip
