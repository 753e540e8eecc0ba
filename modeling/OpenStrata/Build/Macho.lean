import OpenStrata.Build.Glibc
import OpenStrata.Lib.Endian

/-!
# The macOS floor of a runtime

Every Mach-O image records the oldest system it was built for and the SDK it was built against in
its load commands. The floor of a runtime is the highest of each over all images, and over the
slices of universal files. A file is not read whole: the load commands are looked for in the first
mebibyte of each image.

## Main definitions

* `scanThin`, `scanImage`: the scan of an image that is held whole
* `scanFile`, `maxMacosFloor`: the scan of a file through its windows, and of all files
* `ThinImage`, `UniversalFile`: what a well-formed file consists of

## Main results

* `scanThin_total`, `length_visited_le`: the scan of arbitrary bytes never leaves them or
  overflows, and visits a command for eight bytes at most
* `scanThin_image`: the scan of an image keeps the highest versions of its commands
* `scanFile_reports`: what the scan of a file reports, and that it is what the scan of the whole
  content reports
-/

namespace OpenStrata.Macho

open Greatest Glibc

/-! ## Checked arithmetic -/

/-- What stops a computation that leaves its range. -/
inductive Panic where
  | overflow
  | outOfBounds
deriving DecidableEq

abbrev Checked := Except Panic

/-- The addition of addresses, which have 64 bits. -/
def add (a b : ℕ) : Checked ℕ := if a + b < 2 ^ 64 then .ok (a + b) else .error .overflow

def mul (a b : ℕ) : Checked ℕ := if a * b < 2 ^ 64 then .ok (a * b) else .error .overflow

/-- The bytes from an offset on. -/
def sliceFrom (bytes : Bytes) (offset : ℕ) : Checked Bytes :=
  if offset ≤ bytes.length then .ok (bytes.drop offset) else .error .outOfBounds

theorem add_ok {a b : ℕ} (h : a + b < 2 ^ 64) : add a b = .ok (a + b) := if_pos h

theorem mul_ok {a b : ℕ} (h : a * b < 2 ^ 64) : mul a b = .ok (a * b) := if_pos h

def readU32Le (bytes : Bytes) (offset : ℕ) : Checked (Option ℕ) := do
  let _ ← add offset 4
  pure (Endian.readLe 4 bytes offset)

def readU32Be (bytes : Bytes) (offset : ℕ) : Checked (Option ℕ) := do
  let _ ← add offset 4
  pure (Endian.readBe 4 bytes offset)

def readU64Be (bytes : Bytes) (offset : ℕ) : Checked (Option ℕ) := do
  let _ ← add offset 8
  pure (Endian.readBe 8 bytes offset)

/-! ## Versions and floors -/

structure MacosVersion where
  major : ℕ
  minor : ℕ
deriving DecidableEq, Repr

/-- Releases are ordered by their major, then by their minor number. -/
instance : LinearOrder MacosVersion :=
  LinearOrder.lift' (fun v => toLex (v.major, v.minor)) fun a b h => by
    have hpair : (a.major, a.minor) = (b.major, b.minor) := toLex_inj.mp h
    obtain ⟨major, minor⟩ := a
    obtain ⟨hmajor, hminor⟩ := Prod.mk.inj hpair
    subst hmajor hminor
    rfl

/-- Decode the packed `xxxx.yy.zz` version word. -/
def MacosVersion.fromPacked (packed : ℕ) : Option MacosVersion :=
  let major := packed >>> 16
  let minor := (packed >>> 8) &&& 0xff
  if major > 0 then some ⟨major, minor⟩ else none

structure MacosFloor where
  deploymentTarget : Option MacosVersion := none
  sdk : Option MacosVersion := none
deriving DecidableEq, Repr

def maxOption : Option MacosVersion → Option MacosVersion → Option MacosVersion
  | some a, some b => some (max a b)
  | kept, none => kept
  | none, kept => kept

def MacosFloor.absorb (floor other : MacosFloor) : MacosFloor :=
  { deploymentTarget := maxOption floor.deploymentTarget other.deploymentTarget
    sdk := maxOption floor.sdk other.sdk }

/-! ## The scan of an image -/

def MACHO_MAGIC_64 : ℕ := 0xfeedfacf
def FAT_MAGIC : ℕ := 0xcafebabe
def FAT_MAGIC_64 : ℕ := 0xcafebabf
def MAX_FAT_SLICES : ℕ := 64
def LC_VERSION_MIN_MACOSX : ℕ := 0x24
def LC_BUILD_VERSION : ℕ := 0x32
def PLATFORM_MACOS : ℕ := 1
def MAX_LOAD_COMMANDS : ℕ := 0x100000

/-- The body of the loop over the load commands: the command at an offset is taken into account. -/
def absorbCommand (bytes : Bytes) (offset cmd : ℕ) (floor : MacosFloor) : Checked MacosFloor := do
  if cmd = LC_BUILD_VERSION then
    let platform ← readU32Le bytes (← add offset 8)
    if platform = some PLATFORM_MACOS then
      let minos ← readU32Le bytes (← add offset 12)
      let sdk ← readU32Le bytes (← add offset 16)
      pure (floor.absorb ⟨minos.bind MacosVersion.fromPacked, sdk.bind MacosVersion.fromPacked⟩)
    else pure floor
  else if cmd = LC_VERSION_MIN_MACOSX then
    let version ← readU32Le bytes (← add offset 8)
    let sdk ← readU32Le bytes (← add offset 12)
    pure (floor.absorb ⟨version.bind MacosVersion.fromPacked, sdk.bind MacosVersion.fromPacked⟩)
  else pure floor

/-- The loop of `scanThin` over the load commands. -/
def scanCommands (bytes : Bytes) : ℕ → ℕ → MacosFloor → Checked MacosFloor
  | 0, _, floor => pure floor
  | ncmds + 1, offset, floor => do
    let cmd ← readU32Le bytes offset
    let size ← readU32Le bytes (← add offset 4)
    match cmd, size with
    | some cmd, some size =>
      if size < 8 then pure floor
      else if (← add offset size) > bytes.length then pure floor
      else
        let floor ← absorbCommand bytes offset cmd floor
        scanCommands bytes ncmds (← add offset size) floor
    | _, _ => pure floor

/-- Scan one image that is not universal. -/
def scanThin (bytes : Bytes) : Checked MacosFloor := do
  let magic ← readU32Le bytes 0
  if magic ≠ some MACHO_MAGIC_64 then pure {}
  else
    match ← readU32Le bytes 16 with
    | none => pure {}
    | some ncmds => scanCommands bytes ncmds 32 {}

/-- The offset in a table entry. -/
def entryOffset (bytes : Bytes) (wide : Bool) (entry : ℕ) : Checked (Option ℕ) :=
  if wide then do readU64Be bytes (← add entry 8) else do readU32Be bytes (← add entry 8)

/-- The loop of `fatSliceOffsets` over the table, of which `left` entries are to be read. -/
def sliceOffsets (bytes : Bytes) (entrySize : ℕ) (wide : Bool) :
    ℕ → ℕ → List ℕ → Checked (List ℕ)
  | 0, _, offsets => pure offsets
  | left + 1, index, offsets => do
    match ← entryOffset bytes wide (← add 8 (← mul index entrySize)) with
    | some offset => sliceOffsets bytes entrySize wide left (index + 1) (offsets ++ [offset])
    | none => pure offsets

/-- The offset of every slice of a universal file. -/
def fatSliceOffsets (bytes : Bytes) : Checked (Option (List ℕ)) := do
  match ← readU32Be bytes 0 with
  | none => pure none
  | some magic =>
    if magic = FAT_MAGIC ∨ magic = FAT_MAGIC_64 then
      let wide := magic = FAT_MAGIC_64
      match ← readU32Be bytes 4 with
      | none => pure none
      | some count =>
        let offsets ←
          sliceOffsets bytes (if wide then 32 else 20) wide (min count MAX_FAT_SLICES) 0 []
        pure (some offsets)
    else pure none

/-- Scan an image that is held whole. -/
def scanImage (bytes : Bytes) : Checked MacosFloor := do
  match ← fatSliceOffsets bytes with
  | none => scanThin bytes
  | some offsets =>
    offsets.foldlM (fun floor offset => do
      if offset < bytes.length then
        pure (floor.absorb (← scanThin (← sliceFrom bytes offset)))
      else pure floor) {}

/-! ## The scan of files -/

/-- `scanFile` behind the opening of the file. A position that does not fit in a signed 64-bit
number cannot be sought, and behind the end there is nothing to read. -/
def scanContent (content : Bytes) : Checked MacosFloor := do
  let head := content.take MAX_LOAD_COMMANDS
  match ← fatSliceOffsets head with
  | none => scanImage head
  | some offsets =>
    offsets.foldlM (fun floor offset => do
      if offset < 2 ^ 63 then
        pure (floor.absorb (← scanThin ((content.drop offset).take MAX_LOAD_COMMANDS)))
      else pure floor) {}

def scanFile : Node → Checked (Except String MacosFloor)
  | .missing => pure (.ok {})
  | .directory => pure (.ok {})
  | .unreadable error => pure (.error error)
  | .file content => do pure (.ok (← scanContent content))

/-- The body of the loop over the files, which ends at the first error. -/
def absorbFile (measured : Except String MacosFloor) (path : Node) :
    Checked (Except String MacosFloor) :=
  match measured with
  | .error e => pure (.error e)
  | .ok floor => do
    match ← scanFile path with
    | .error e => pure (.error e)
    | .ok other => pure (.ok (floor.absorb other))

/-- The floor of the files: the highest versions over all of them. -/
def maxMacosFloor (files : List Node) : Checked (Except String MacosFloor) :=
  files.foldlM absorbFile (.ok {})

/-! ## Arbitrary bytes -/

section Total

variable {bytes : Bytes} {offset ncmds cmd : ℕ} {floor : MacosFloor}

theorem readU32Le_ok (h : offset + 4 < 2 ^ 64) :
    readU32Le bytes offset = .ok (Endian.readLe 4 bytes offset) := by
  rw [readU32Le, add_ok h]
  rfl

theorem readU32Be_ok (h : offset + 4 < 2 ^ 64) :
    readU32Be bytes offset = .ok (Endian.readBe 4 bytes offset) := by
  rw [readU32Be, add_ok h]
  rfl

theorem readU64Be_ok (h : offset + 8 < 2 ^ 64) :
    readU64Be bytes offset = .ok (Endian.readBe 8 bytes offset) := by
  rw [readU64Be, add_ok h]
  rfl

@[simp] theorem maxOption_none (kept : Option MacosVersion) : maxOption kept none = kept := by
  cases kept <;> rfl

@[simp] theorem absorb_empty (floor : MacosFloor) : floor.absorb {} = floor := by
  simp [MacosFloor.absorb]

@[simp] theorem empty_absorb (floor : MacosFloor) : MacosFloor.absorb {} floor = floor := by
  obtain ⟨target, sdk⟩ := floor
  cases target <;> cases sdk <;> rfl

/-- What the command at an offset says. -/
def commandFloor (bytes : Bytes) (offset cmd : ℕ) : MacosFloor :=
  let version := fun at_ => (Endian.readLe 4 bytes (offset + at_)).bind MacosVersion.fromPacked
  if cmd = LC_BUILD_VERSION then
    if Endian.readLe 4 bytes (offset + 8) = some PLATFORM_MACOS then ⟨version 12, version 16⟩
    else {}
  else if cmd = LC_VERSION_MIN_MACOSX then ⟨version 8, version 12⟩
  else {}

theorem absorbCommand_ok (h : offset + 20 < 2 ^ 64) :
    absorbCommand bytes offset cmd floor = .ok (floor.absorb (commandFloor bytes offset cmd)) := by
  have hread : ∀ n, n ≤ 16 → readU32Le bytes (offset + n) =
      .ok (Endian.readLe 4 bytes (offset + n)) := fun n hn => readU32Le_ok (by omega)
  have hadd : ∀ n, n ≤ 16 → add offset n = .ok (offset + n) := fun n hn => add_ok (by omega)
  rw [absorbCommand, commandFloor, hadd 8 (by omega), hadd 12 (by omega), hadd 16 (by omega)]
  simp only [bind, Except.bind, pure, Except.pure, hread 8 (by omega), hread 12 (by omega),
    hread 16 (by omega)]
  by_cases hbuild : cmd = LC_BUILD_VERSION
  · rw [if_pos hbuild, if_pos hbuild]
    split
    · rfl
    · rw [absorb_empty]
  · rw [if_neg hbuild, if_neg hbuild]
    split
    · rfl
    · rw [absorb_empty]

/-- One round of the loop, where no address overflows. -/
theorem scanCommands_succ (h : offset + 2 ^ 33 < 2 ^ 64) :
    scanCommands bytes (ncmds + 1) offset floor =
      match Endian.readLe 4 bytes offset, Endian.readLe 4 bytes (offset + 4) with
      | some cmd, some size =>
        if size < 8 ∨ bytes.length < offset + size then .ok floor
        else scanCommands bytes ncmds (offset + size)
          (floor.absorb (commandFloor bytes offset cmd))
      | _, _ => .ok floor := by
  rw [scanCommands, readU32Le_ok (by omega), add_ok (by omega)]
  show (readU32Le bytes (offset + 4) >>= _) = _
  rw [readU32Le_ok (by omega)]
  cases hcmd : Endian.readLe 4 bytes offset with
  | none => rfl
  | some cmd =>
    cases hsize : Endian.readLe 4 bytes (offset + 4) with
    | none => rfl
    | some size =>
      have hlt : size < 256 ^ 4 := Endian.readLe_lt hsize
      show (if size < 8 then _ else add offset size >>= _) = _
      rw [add_ok (by omega)]
      by_cases hsmall : size < 8
      · rw [if_pos hsmall]
        exact (if_pos (Or.inl hsmall)).symm
      · rw [if_neg hsmall]
        by_cases hlong : offset + size > bytes.length
        · refine Eq.trans ?_ (if_pos (Or.inr hlong)).symm
          exact if_pos hlong
        · refine Eq.trans ?_ (if_neg (not_or.mpr ⟨hsmall, hlong⟩)).symm
          refine (if_neg hlong).trans ?_
          rw [absorbCommand_ok (by omega)]
          rfl

/-- The offsets of the commands that the loop takes into account, and their kinds. -/
def visited (bytes : Bytes) : ℕ → ℕ → List (ℕ × ℕ)
  | 0, _ => []
  | ncmds + 1, offset =>
    match Endian.readLe 4 bytes offset, Endian.readLe 4 bytes (offset + 4) with
    | some cmd, some size =>
      if size < 8 ∨ bytes.length < offset + size then []
      else (offset, cmd) :: visited bytes ncmds (offset + size)
    | _, _ => []

/-- Each command that is taken into account has eight bytes of its own. -/
theorem length_visited_le (bytes : Bytes) (ncmds offset : ℕ) :
    8 * (visited bytes ncmds offset).length ≤ bytes.length - offset := by
  induction ncmds generalizing offset with
  | zero => exact Nat.zero_le _
  | succ ncmds ih =>
    rw [visited]
    split
    · next cmd size hcmd hsize =>
      split
      · exact Nat.zero_le _
      · next hin =>
        have hrest := ih (offset + size)
        rw [List.length_cons]
        omega
    · exact Nat.zero_le _

/-- What a list of commands says. -/
def absorbAll (bytes : Bytes) (floor : MacosFloor) (commands : List (ℕ × ℕ)) : MacosFloor :=
  commands.foldl (fun floor c => floor.absorb (commandFloor bytes c.1 c.2)) floor

theorem scanCommands_eq (hbytes : bytes.length < 2 ^ 63) (hoffset : offset ≤ bytes.length + 32) :
    scanCommands bytes ncmds offset floor =
      .ok (absorbAll bytes floor (visited bytes ncmds offset)) := by
  induction ncmds generalizing offset floor with
  | zero => rfl
  | succ ncmds ih =>
    rw [scanCommands_succ (by omega), visited]
    split
    · split
      · rfl
      · next hin =>
        rw [ih (by omega)]
        rfl
    · rfl

/-- The commands that the scan of an image takes into account. -/
def commandsOf (bytes : Bytes) : List (ℕ × ℕ) :=
  if Endian.readLe 4 bytes 0 = some MACHO_MAGIC_64 then
    match Endian.readLe 4 bytes 16 with
    | none => []
    | some ncmds => visited bytes ncmds 32
  else []

/-- The scan of arbitrary bytes is the fold over its commands: nothing is read out of bounds, and
no address overflows. -/
theorem scanThin_total (hbytes : bytes.length < 2 ^ 63) :
    scanThin bytes = .ok (absorbAll bytes {} (commandsOf bytes)) := by
  rw [scanThin, readU32Le_ok (by omega), readU32Le_ok (by omega), commandsOf]
  by_cases hmagic : Endian.readLe 4 bytes 0 = some MACHO_MAGIC_64
  · rw [if_pos hmagic]
    refine (if_neg (not_not_intro hmagic)).trans ?_
    cases hcount : Endian.readLe 4 bytes 16 with
    | none => rfl
    | some ncmds => exact scanCommands_eq hbytes (by omega)
  · rw [if_neg hmagic]
    exact if_pos hmagic

theorem length_commandsOf_le (bytes : Bytes) : 8 * (commandsOf bytes).length ≤ bytes.length := by
  rw [commandsOf]
  split
  · split
    · exact Nat.zero_le _
    · next ncmds _ =>
      have := length_visited_le bytes ncmds 32
      omega
  · exact Nat.zero_le _

theorem entryOffset_ok {wide : Bool} {entry : ℕ} (h : entry + 16 < 2 ^ 64) :
    entryOffset bytes wide entry =
      .ok (Endian.readBe (if wide then 8 else 4) bytes (entry + 8)) := by
  cases wide with
  | true =>
    show (add entry 8 >>= readU64Be bytes) = _
    rw [add_ok (by omega)]
    exact readU64Be_ok (by omega)
  | false =>
    show (add entry 8 >>= readU32Be bytes) = _
    rw [add_ok (by omega)]
    exact readU32Be_ok (by omega)

section Table

variable {entrySize left index : ℕ} {wide : Bool} {offsets : List ℕ}

/-- One round over the table, which has at most sixty-four entries. -/
theorem sliceOffsets_succ (hentry : entrySize ≤ 32) (hindex : index < MAX_FAT_SLICES) :
    sliceOffsets bytes entrySize wide (left + 1) index offsets =
      match Endian.readBe (if wide then 8 else 4) bytes (8 + index * entrySize + 8) with
      | some offset => sliceOffsets bytes entrySize wide left (index + 1) (offsets ++ [offset])
      | none => .ok offsets := by
  have hmax : MAX_FAT_SLICES = 64 := rfl
  have hmul : index * entrySize ≤ 64 * 32 := Nat.mul_le_mul (by omega) hentry
  rw [sliceOffsets, mul_ok (by omega)]
  show (add 8 (index * entrySize) >>= fun entry => entryOffset bytes wide entry >>= _) = _
  rw [add_ok (by omega)]
  show (entryOffset bytes wide (8 + index * entrySize) >>= _) = _
  rw [entryOffset_ok (by omega)]
  cases Endian.readBe (if wide then 8 else 4) bytes (8 + index * entrySize + 8) with
  | none => rfl
  | some offset => rfl

theorem sliceOffsets_total (hentry : entrySize ≤ 32) (hindex : index + left ≤ MAX_FAT_SLICES) :
    ∃ all, sliceOffsets bytes entrySize wide left index offsets = .ok all ∧
      all.length ≤ offsets.length + left := by
  induction left generalizing index offsets with
  | zero => exact ⟨offsets, rfl, le_rfl⟩
  | succ left ih =>
    rw [sliceOffsets_succ hentry (by omega)]
    split
    · next offset hfound =>
      obtain ⟨all, hall, hlen⟩ :=
        @ih (index + 1) (offsets ++ [offset]) (by omega)
      refine ⟨all, hall, ?_⟩
      rw [List.length_append, List.length_singleton] at hlen
      omega
    · exact ⟨offsets, rfl, by omega⟩

end Table

/-- The table of a file that begins with one of the magic numbers is walked. -/
theorem fatSliceOffsets_fat {magic count : ℕ} (hmagic : Endian.readBe 4 bytes 0 = some magic)
    (hfat : magic = FAT_MAGIC ∨ magic = FAT_MAGIC_64)
    (hcount : Endian.readBe 4 bytes 4 = some count) :
    fatSliceOffsets bytes =
      (sliceOffsets bytes (if magic = FAT_MAGIC_64 then 32 else 20) (magic = FAT_MAGIC_64)
        (min count MAX_FAT_SLICES) 0 []).map some := by
  rw [fatSliceOffsets, readU32Be_ok (by omega), readU32Be_ok (by omega), hmagic, hcount]
  refine (if_pos hfat).trans ?_
  show (sliceOffsets bytes (if magic = FAT_MAGIC_64 then 32 else 20) (magic = FAT_MAGIC_64)
    (min count MAX_FAT_SLICES) 0 [] >>= fun offsets => pure (some offsets)) = _
  cases sliceOffsets bytes (if magic = FAT_MAGIC_64 then 32 else 20) (magic = FAT_MAGIC_64)
    (min count MAX_FAT_SLICES) 0 [] with
  | ok offsets => rfl
  | error e => rfl

theorem fatSliceOffsets_not_fat {magic : Option ℕ} (hmagic : Endian.readBe 4 bytes 0 = magic)
    (hfat : magic ≠ some FAT_MAGIC ∧ magic ≠ some FAT_MAGIC_64) :
    fatSliceOffsets bytes = .ok none := by
  subst hmagic
  rw [fatSliceOffsets, readU32Be_ok (by omega)]
  cases hmagic : Endian.readBe 4 bytes 0 with
  | none => rfl
  | some magic =>
    rw [hmagic] at hfat
    have hnot : ¬ (magic = FAT_MAGIC ∨ magic = FAT_MAGIC_64) := by
      rintro (rfl | rfl)
      · exact hfat.1 rfl
      · exact hfat.2 rfl
    exact if_neg hnot

theorem fatSliceOffsets_total (bytes : Bytes) : ∃ found, fatSliceOffsets bytes = .ok found ∧
    ∀ offsets, found = some offsets → offsets.length ≤ MAX_FAT_SLICES := by
  by_cases hfat : Endian.readBe 4 bytes 0 = some FAT_MAGIC ∨
      Endian.readBe 4 bytes 0 = some FAT_MAGIC_64
  · obtain ⟨magic, hmagic, hkind⟩ : ∃ magic, Endian.readBe 4 bytes 0 = some magic ∧
        (magic = FAT_MAGIC ∨ magic = FAT_MAGIC_64) := by
      rcases hfat with h | h
      · exact ⟨_, h, Or.inl rfl⟩
      · exact ⟨_, h, Or.inr rfl⟩
    cases hcount : Endian.readBe 4 bytes 4 with
    | none =>
      refine ⟨none, ?_, by rintro _ ⟨⟩⟩
      rw [fatSliceOffsets, readU32Be_ok (by omega), readU32Be_ok (by omega), hmagic, hcount]
      exact if_pos hkind
    | some count =>
      obtain ⟨all, hall, hlen⟩ := @sliceOffsets_total bytes
        (if magic = FAT_MAGIC_64 then 32 else 20) (min count MAX_FAT_SLICES) 0
        (magic = FAT_MAGIC_64) [] (by split <;> omega) (by omega)
      refine ⟨some all, by rw [fatSliceOffsets_fat hmagic hkind hcount, hall]; rfl, ?_⟩
      rintro _ ⟨⟩
      rw [List.length_nil] at hlen
      omega
  · rw [not_or] at hfat
    exact ⟨none, fatSliceOffsets_not_fat rfl hfat, by rintro _ ⟨⟩⟩

/-- What the windows of a file say. -/
def absorbWindows (windows : List Bytes) : MacosFloor :=
  windows.foldl (fun floor w => floor.absorb (absorbAll w {} (commandsOf w))) {}

/-- What a file shows of itself from an offset on. -/
def windowAt (content : Bytes) (offset : ℕ) : Bytes :=
  (content.drop offset).take MAX_LOAD_COMMANDS

theorem length_windowAt_le (content : Bytes) (offset : ℕ) :
    (windowAt content offset).length ≤ MAX_LOAD_COMMANDS :=
  List.length_take_le _ _

theorem scanThin_window (content : Bytes) (offset : ℕ) : scanThin (windowAt content offset) =
    .ok (absorbAll (windowAt content offset) {} (commandsOf (windowAt content offset))) := by
  have hmax : MAX_LOAD_COMMANDS = 0x100000 := rfl
  have := length_windowAt_le content offset
  exact scanThin_total (by omega)

theorem scanContent_fat {content : Bytes} {offsets : List ℕ}
    (h : fatSliceOffsets (content.take MAX_LOAD_COMMANDS) = .ok (some offsets)) :
    scanContent content =
      .ok (absorbWindows ((offsets.filter (· < 2 ^ 63)).map (windowAt content))) := by
  have hfold : ∀ (l : List ℕ) (floor : MacosFloor),
      l.foldlM (fun floor offset => do
        if offset < 2 ^ 63 then
          pure (floor.absorb (← scanThin ((content.drop offset).take MAX_LOAD_COMMANDS)))
        else pure floor) floor = Except.ok (ε := Panic)
      (((l.filter (· < 2 ^ 63)).map (windowAt content)).foldl
        (fun floor w => floor.absorb (absorbAll w {} (commandsOf w))) floor) := by
    intro l
    induction l with
    | nil => exact fun floor => rfl
    | cons offset l ih =>
      intro floor
      rw [List.foldlM_cons]
      by_cases hsmall : offset < 2 ^ 63
      · rw [if_pos hsmall, List.filter_cons_of_pos (by simpa using hsmall)]
        show ((scanThin (windowAt content offset) >>= _) >>= _) = _
        rw [scanThin_window]
        exact ih _
      · rw [if_neg hsmall, List.filter_cons_of_neg (by simpa using hsmall)]
        exact ih floor
  rw [scanContent, h]
  exact hfold offsets {}

theorem scanImage_fat {content : Bytes} {offsets : List ℕ} (hlen : content.length < 2 ^ 63)
    (h : fatSliceOffsets content = .ok (some offsets)) : scanImage content =
      .ok (absorbWindows ((offsets.filter (· < content.length)).map content.drop)) := by
  have hfold : ∀ (l : List ℕ) (floor : MacosFloor),
      l.foldlM (fun floor offset => do
        if offset < content.length then
          pure (floor.absorb (← scanThin (← sliceFrom content offset)))
        else pure floor) floor = Except.ok (ε := Panic)
      (((l.filter (· < content.length)).map content.drop).foldl
        (fun floor w => floor.absorb (absorbAll w {} (commandsOf w))) floor) := by
    intro l
    induction l with
    | nil => exact fun floor => rfl
    | cons offset l ih =>
      intro floor
      rw [List.foldlM_cons]
      by_cases hin : offset < content.length
      · rw [if_pos hin, List.filter_cons_of_pos (by simpa using hin), sliceFrom, if_pos hin.le]
        have hdrop : (content.drop offset).length < 2 ^ 63 := by
          rw [List.length_drop]
          omega
        show ((scanThin (content.drop offset) >>= _) >>= _) = _
        rw [scanThin_total hdrop]
        exact ih _
      · rw [if_neg hin, List.filter_cons_of_neg (by simpa using hin)]
        exact ih floor
  rw [scanImage, h]
  exact hfold offsets {}

theorem scanImage_thin (h : fatSliceOffsets bytes = .ok none) :
    scanImage bytes = scanThin bytes := by
  rw [scanImage, h]
  rfl

theorem scanContent_thin {content : Bytes}
    (h : fatSliceOffsets (content.take MAX_LOAD_COMMANDS) = .ok none) :
    scanContent content = scanThin (content.take MAX_LOAD_COMMANDS) := by
  rw [← scanImage_thin h, scanContent, h]
  rfl

/-- The scan of a file of arbitrary content ends without leaving its range: it is the fold over at
most sixty-four windows, each of at most a mebibyte of the content. -/
theorem scanContent_total (content : Bytes) : ∃ windows : List Bytes,
    scanContent content = .ok (absorbWindows windows) ∧ windows.length ≤ MAX_FAT_SLICES ∧
      ∀ w ∈ windows, w <:+: content ∧ w.length ≤ MAX_LOAD_COMMANDS ∧
        8 * (commandsOf w).length ≤ w.length := by
  have hwindow : ∀ offset, windowAt content offset <:+: content ∧
      (windowAt content offset).length ≤ MAX_LOAD_COMMANDS ∧
      8 * (commandsOf (windowAt content offset)).length ≤ (windowAt content offset).length :=
    fun offset => ⟨(List.take_prefix _ _).isInfix.trans (List.drop_suffix _ _).isInfix,
      length_windowAt_le content offset, length_commandsOf_le _⟩
  obtain ⟨found, hfound, hlen⟩ := fatSliceOffsets_total (content.take MAX_LOAD_COMMANDS)
  cases found with
  | none =>
    have hone : scanContent content = .ok (absorbWindows [windowAt content 0]) := by
      rw [scanContent_thin hfound, absorbWindows, List.foldl_cons, List.foldl_nil, empty_absorb]
      exact scanThin_window content 0
    refine ⟨_, hone, Nat.le_of_ble_eq_true rfl, ?_⟩
    rintro w (_ | ⟨_, ⟨⟩⟩)
    exact hwindow 0
  | some offsets =>
    refine ⟨_, scanContent_fat hfound, ?_, ?_⟩
    · rw [List.length_map]
      exact (List.length_filter_le _ _).trans (hlen offsets rfl)
    · intro w hw
      obtain ⟨offset, -, rfl⟩ := List.mem_map.mp hw
      exact hwindow offset

end Total

/-! ## Well-formed files -/

/-- The number at an offset of a command's body. -/
def word (body : Bytes) (offset : ℕ) : ℕ := Endian.leValue ((body.drop offset).take 4)

/-- A load command, whose fields stand in its own bytes. -/
structure LoadCommand where
  cmd : ℕ
  body : Bytes
  cmd_lt : cmd < 2 ^ 32
  size_lt : 8 + body.length < 2 ^ 32
  build : cmd = LC_BUILD_VERSION → 16 ≤ body.length
  versionMin : cmd = LC_VERSION_MIN_MACOSX → 8 ≤ body.length

namespace LoadCommand

def size (c : LoadCommand) : ℕ := 8 + c.body.length

def bytes (c : LoadCommand) : Bytes := Endian.le 4 c.cmd ++ (Endian.le 4 c.size ++ c.body)

/-- The versions that a command records for macOS. -/
def floor (c : LoadCommand) : MacosFloor :=
  let version := fun at_ => MacosVersion.fromPacked (word c.body at_)
  if c.cmd = LC_BUILD_VERSION then
    if word c.body 0 = PLATFORM_MACOS then ⟨version 4, version 8⟩ else {}
  else if c.cmd = LC_VERSION_MIN_MACOSX then ⟨version 0, version 4⟩
  else {}

variable (c : LoadCommand) (front rest : Bytes)

@[simp] theorem length_bytes : c.bytes.length = c.size := by
  simp only [bytes, size, List.length_append, Endian.length_le]
  omega

theorem readLe_cmd :
    Endian.readLe 4 (front ++ (c.bytes ++ rest)) front.length = some c.cmd := by
  rw [bytes, List.append_assoc]
  exact Endian.readLe_append rfl c.cmd_lt

theorem readLe_size :
    Endian.readLe 4 (front ++ (c.bytes ++ rest)) (front.length + 4) = some c.size := by
  have hsplit : front ++ (c.bytes ++ rest) =
      (front ++ Endian.le 4 c.cmd) ++ (Endian.le 4 c.size ++ (c.body ++ rest)) := by
    simp [bytes]
  rw [hsplit]
  refine Endian.readLe_append ?_ c.size_lt
  rw [List.length_append, Endian.length_le]

theorem readLe_body (offset : ℕ) (h : offset + 4 ≤ c.body.length) :
    Endian.readLe 4 (front ++ (c.bytes ++ rest)) (front.length + (8 + offset)) =
      some (word c.body offset) := by
  have hsplit : front ++ (c.bytes ++ rest) =
      (front ++ (Endian.le 4 c.cmd ++ Endian.le 4 c.size)) ++ (c.body ++ rest) := by
    simp [bytes]
  have hlen : front.length + (8 + offset) =
      (front ++ (Endian.le 4 c.cmd ++ Endian.le 4 c.size)).length + offset := by
    simp only [List.length_append, Endian.length_le]
    omega
  rw [hsplit, hlen, Endian.readLe_append_add, Endian.readLe_append_left h]
  rfl

/-- What the scan takes from a command is what the command records. -/
theorem commandFloor_bytes :
    commandFloor (front ++ (c.bytes ++ rest)) front.length c.cmd = c.floor := by
  rw [commandFloor, floor]
  by_cases hbuild : c.cmd = LC_BUILD_VERSION
  · have hlen := c.build hbuild
    have hplatform := c.readLe_body front rest 0 (by omega)
    have hminos := c.readLe_body front rest 4 (by omega)
    have hsdk := c.readLe_body front rest 8 (by omega)
    rw [if_pos hbuild, if_pos hbuild]
    simp only [Nat.reduceAdd, Nat.add_zero] at hplatform hminos hsdk
    simp only [hplatform, hminos, hsdk, Option.some.injEq, Option.bind_some]
  · rw [if_neg hbuild, if_neg hbuild]
    by_cases hmin : c.cmd = LC_VERSION_MIN_MACOSX
    · have hlen := c.versionMin hmin
      have hversion := c.readLe_body front rest 0 (by omega)
      have hsdk := c.readLe_body front rest 4 (by omega)
      rw [if_pos hmin, if_pos hmin]
      simp only [Nat.reduceAdd, Nat.add_zero] at hversion hsdk
      simp only [hversion, hsdk, Option.bind_some]
    · rw [if_neg hmin, if_neg hmin]

end LoadCommand

/-- The floor over a list of commands. -/
def floorOf (commands : List LoadCommand) : MacosFloor :=
  commands.foldl (fun floor c => floor.absorb c.floor) {}

/-- The bytes that a list of commands takes. -/
def commandBytes (commands : List LoadCommand) : Bytes := commands.flatMap LoadCommand.bytes

theorem scanCommands_commands (commands : List LoadCommand) (front rest : Bytes)
    (floor : MacosFloor) (h : front.length + (commandBytes commands).length < 2 ^ 63) :
    scanCommands (front ++ (commandBytes commands ++ rest)) commands.length front.length floor =
      .ok (commands.foldl (fun floor c => floor.absorb c.floor) floor) := by
  induction commands generalizing front floor with
  | nil => rfl
  | cons c commands ih =>
    have hbytes : commandBytes (c :: commands) = c.bytes ++ commandBytes commands := rfl
    rw [hbytes, List.length_append, c.length_bytes] at h
    rw [hbytes, List.append_assoc, List.length_cons, scanCommands_succ (by omega),
      c.readLe_cmd, c.readLe_size]
    have hin : ¬ (c.size < 8 ∨ (front ++ (c.bytes ++ (commandBytes commands ++ rest))).length <
        front.length + c.size) := by
      have hsize : c.size = 8 + c.body.length := rfl
      simp only [List.length_append, c.length_bytes]
      omega
    refine (if_neg hin).trans ?_
    rw [c.commandFloor_bytes]
    have hnext := ih (front ++ c.bytes) (floor.absorb c.floor) (by
      rw [List.length_append, c.length_bytes]
      omega)
    rw [List.append_assoc, List.length_append, c.length_bytes] at hnext
    exact hnext

/-- A 64-bit image that is not universal: the header, the load commands, and what follows them. The
fields of the header that the scan does not read are arbitrary. -/
structure ThinImage where
  arch : Bytes
  commands : List LoadCommand
  flags : Bytes
  rest : Bytes
  arch_length : arch.length = 12
  flags_length : flags.length = 12
  count_lt : commands.length < 2 ^ 32

namespace ThinImage

variable (image : ThinImage)

def header : Bytes :=
  Endian.le 4 MACHO_MAGIC_64 ++ (image.arch ++ (Endian.le 4 image.commands.length ++ image.flags))

def bytes : Bytes := image.header ++ (commandBytes image.commands ++ image.rest)

/-- The length up to the end of the load commands. -/
def headLength : ℕ := 32 + (commandBytes image.commands).length

theorem length_header : image.header.length = 32 := by
  simp only [header, List.length_append, Endian.length_le, image.arch_length, image.flags_length]

theorem readLe_magic : Endian.readLe 4 image.bytes 0 = some MACHO_MAGIC_64 := by
  have h := @Endian.readLe_append []
    (image.arch ++ (Endian.le 4 image.commands.length ++ image.flags) ++
      (commandBytes image.commands ++ image.rest)) 4 MACHO_MAGIC_64 0 rfl (by decide)
  rw [bytes, header, List.append_assoc]
  exact h

theorem readLe_count : Endian.readLe 4 image.bytes 16 = some image.commands.length := by
  have hsplit : image.bytes = (Endian.le 4 MACHO_MAGIC_64 ++ image.arch) ++
      (Endian.le 4 image.commands.length ++
        (image.flags ++ (commandBytes image.commands ++ image.rest))) := by
    simp [bytes, header]
  rw [hsplit]
  refine Endian.readLe_append ?_ image.count_lt
  rw [List.length_append, Endian.length_le, image.arch_length]

theorem scanThin_image (h : image.headLength < 2 ^ 63) :
    scanThin image.bytes = .ok (floorOf image.commands) := by
  have hcommands := scanCommands_commands image.commands image.header image.rest {} (by
    rw [length_header]
    exact h)
  rw [length_header] at hcommands
  rw [scanThin, readU32Le_ok (by omega), readU32Le_ok (by omega), readLe_magic, readLe_count]
  exact hcommands

/-- A window that holds the load commands is the beginning of an image with the same commands. -/
theorem exists_take {n : ℕ} (h : image.headLength ≤ n) : ∃ shown : ThinImage,
    shown.commands = image.commands ∧ shown.bytes = image.bytes.take n := by
  refine ⟨{ image with rest := image.rest.take (n - image.headLength) }, rfl, ?_⟩
  have hhead : (image.header ++ commandBytes image.commands).length = image.headLength := by
    rw [List.length_append, length_header]
    rfl
  show image.header ++ (commandBytes image.commands ++ image.rest.take (n - image.headLength)) = _
  rw [bytes, ← List.append_assoc, ← List.append_assoc, List.take_append, hhead,
    List.take_of_length_le (hhead.le.trans h)]

end ThinImage

/-- What stands at the offset of a slice: an image, or something that the scan does not take for
one, such as a 32-bit image. -/
inductive Slice where
  | image (image : ThinImage)
  | other (bytes : Bytes) (magic : Endian.readLe 4 bytes 0 ≠ some MACHO_MAGIC_64)

namespace Slice

def bytes : Slice → Bytes
  | .image thin => thin.bytes
  | .other bytes _ => bytes

def commands : Slice → List LoadCommand
  | .image thin => thin.commands
  | .other _ _ => []

/-- The load commands lie within the first `n` bytes. -/
def Within (n : ℕ) : Slice → Prop
  | .image thin => thin.headLength ≤ n
  | .other _ _ => True

theorem Within.mono {m n : ℕ} {slice : Slice} (h : slice.Within m) (hle : m ≤ n) :
    slice.Within n := by
  cases slice with
  | image thin => exact le_trans h hle
  | other bytes magic => exact trivial

theorem scanThin_other {bytes : Bytes} (h : Endian.readLe 4 bytes 0 ≠ some MACHO_MAGIC_64) :
    scanThin bytes = .ok {} := by
  rw [scanThin, readU32Le_ok (by omega)]
  exact if_pos h

variable {slice : Slice}

theorem scanThin_bytes (h : slice.Within (2 ^ 62)) :
    scanThin slice.bytes = .ok (floorOf slice.commands) := by
  cases slice with
  | image thin =>
    have h : thin.headLength ≤ 2 ^ 62 := h
    exact thin.scanThin_image (by omega)
  | other bytes magic => exact scanThin_other magic

/-- The scan of a window that holds the load commands. -/
theorem scanThin_take (h : slice.Within MAX_LOAD_COMMANDS) :
    scanThin (slice.bytes.take MAX_LOAD_COMMANDS) = .ok (floorOf slice.commands) := by
  have hmax : MAX_LOAD_COMMANDS = 0x100000 := rfl
  cases slice with
  | image thin =>
    have h : thin.headLength ≤ MAX_LOAD_COMMANDS := h
    obtain ⟨shown, hcommands, hbytes⟩ := thin.exists_take h
    show scanThin (thin.bytes.take _) = .ok (floorOf thin.commands)
    rw [← hbytes, ← hcommands]
    refine shown.scanThin_image ?_
    rw [ThinImage.headLength, hcommands]
    exact lt_of_le_of_lt h (by omega)
  | other bytes magic =>
    refine scanThin_other ?_
    show Endian.readLe 4 (bytes.take MAX_LOAD_COMMANDS) 0 ≠ _
    rw [Endian.readLe_take (by omega)]
    exact magic

end Slice

/-- An entry of the table of a universal file, with what stands at its offset. -/
structure FatArch (wide : Bool) where
  cpu : Bytes
  offset : ℕ
  tail : Bytes
  slice : Slice
  cpu_length : cpu.length = 8
  offset_lt : offset < 256 ^ (if wide then 8 else 4)
  tail_length : tail.length = if wide then 16 else 8

/-- The entry's bytes: the processor, the offset, and the size with what follows it. -/
def FatArch.bytes {wide : Bool} (a : FatArch wide) : Bytes :=
  a.cpu ++ (Endian.be (if wide then 8 else 4) a.offset ++ a.tail)

theorem FatArch.length_bytes {wide : Bool} (a : FatArch wide) :
    a.bytes.length = if wide then 32 else 20 := by
  simp only [bytes, List.length_append, Endian.length_be, a.cpu_length, a.tail_length]
  cases wide <;> rfl

/-- The bytes of a table. -/
def tableBytes {wide : Bool} (archs : List (FatArch wide)) : Bytes := archs.flatMap FatArch.bytes

def fatMagic (wide : Bool) : ℕ := if wide then FAT_MAGIC_64 else FAT_MAGIC

/-- A universal file: the header, the table, and the slices at the offsets that the table names. The
length of a file fits in a signed 64-bit number. -/
structure UniversalFile where
  wide : Bool
  archs : List (FatArch wide)
  rest : Bytes
  count_lt : archs.length < 2 ^ 32
  content : Bytes
  content_eq : content =
    Endian.be 4 (fatMagic wide) ++ (Endian.be 4 archs.length ++ (tableBytes archs ++ rest))
  slice_eq : ∀ a ∈ archs, content.drop a.offset = a.slice.bytes
  length_lt : content.length < 2 ^ 63

/-- The table is read entry by entry, as far as it is walked. -/
theorem sliceOffsets_table {wide : Bool} (archs : List (FatArch wide)) (front rest : Bytes)
    (left index : ℕ) (offsets : List ℕ) (hleft : left ≤ archs.length)
    (hindex : index + left ≤ MAX_FAT_SLICES)
    (hfront : front.length = 8 + index * (if wide then 32 else 20)) :
    sliceOffsets (front ++ (tableBytes archs ++ rest)) (if wide then 32 else 20) wide left index
        offsets = .ok (offsets ++ (archs.take left).map FatArch.offset) := by
  induction left generalizing archs front index offsets with
  | zero => simp [sliceOffsets, pure, Except.pure]
  | succ left ih =>
    cases archs with
    | nil => exact absurd hleft (by simp)
    | cons a archs =>
      have hbytes : tableBytes (a :: archs) = a.bytes ++ tableBytes archs := rfl
      have hread : Endian.readBe (if wide then 8 else 4)
          (front ++ (tableBytes (a :: archs) ++ rest))
          (8 + index * (if wide then 32 else 20) + 8) = some a.offset := by
        have hsplit : front ++ (tableBytes (a :: archs) ++ rest) = (front ++ a.cpu) ++
            (Endian.be (if wide then 8 else 4) a.offset ++
              (a.tail ++ (tableBytes archs ++ rest))) := by
          simp [hbytes, FatArch.bytes]
        rw [hsplit]
        refine Endian.readBe_append ?_ a.offset_lt
        rw [List.length_append, hfront, a.cpu_length]
      rw [sliceOffsets_succ (by split <;> omega) (by omega), hread, hbytes, List.append_assoc,
        ← List.append_assoc front, List.take_succ_cons, List.map_cons]
      refine (ih archs (front ++ a.bytes) (index + 1) (offsets ++ [a.offset])
        (by rw [List.length_cons] at hleft; omega) (by omega) ?_).trans ?_
      · rw [List.length_append, hfront, a.length_bytes, Nat.add_mul, Nat.one_mul, Nat.add_assoc]
      · rw [List.append_assoc, List.singleton_append]

theorem readBe_fatMagic (wide : Bool) (rest : Bytes) :
    Endian.readBe 4 (Endian.be 4 (fatMagic wide) ++ rest) 0 = some (fatMagic wide) :=
  @Endian.readBe_append [] _ _ _ _ rfl (by cases wide <;> decide)

/-- The offsets that are followed are those of the first sixty-four entries. -/
theorem fatSliceOffsets_table {wide : Bool} (archs : List (FatArch wide)) (rest : Bytes) {n : ℕ}
    (hcount : n < 2 ^ 32) (harchs : min n MAX_FAT_SLICES ≤ archs.length) :
    fatSliceOffsets
        (Endian.be 4 (fatMagic wide) ++ (Endian.be 4 n ++ (tableBytes archs ++ rest))) =
      .ok (some ((archs.take (min n MAX_FAT_SLICES)).map FatArch.offset)) := by
  have hkind : fatMagic wide = FAT_MAGIC ∨ fatMagic wide = FAT_MAGIC_64 := by
    cases wide
    · exact Or.inl rfl
    · exact Or.inr rfl
  have hcount' := @Endian.readBe_append (Endian.be 4 (fatMagic wide))
    (tableBytes archs ++ rest) 4 n _ (Endian.length_be 4 _) hcount
  have htable := sliceOffsets_table archs
    (Endian.be 4 (fatMagic wide) ++ Endian.be 4 n) rest (min n MAX_FAT_SLICES) 0 [] harchs
    (by omega) (by simp)
  have hwide : decide (fatMagic wide = FAT_MAGIC_64) = wide := by cases wide <;> rfl
  have hsize : (if fatMagic wide = FAT_MAGIC_64 then 32 else 20) = if wide then 32 else 20 := by
    cases wide <;> rfl
  rw [fatSliceOffsets_fat (readBe_fatMagic wide _) hkind hcount', hwide, hsize,
    ← List.append_assoc (Endian.be 4 (fatMagic wide)), htable]
  rfl

theorem length_tableBytes {wide : Bool} (archs : List (FatArch wide)) :
    (tableBytes archs).length = archs.length * if wide then 32 else 20 := by
  induction archs with
  | nil => simp [tableBytes]
  | cons a archs ih =>
    have hbytes : tableBytes (a :: archs) = a.bytes ++ tableBytes archs := rfl
    rw [hbytes, List.length_append, a.length_bytes, ih, List.length_cons, Nat.add_mul,
      Nat.one_mul, Nat.add_comm]

namespace UniversalFile

variable (file : UniversalFile)

/-- The entries that are followed. -/
def followed : List (FatArch file.wide) := file.archs.take MAX_FAT_SLICES

/-- The table is found both in the content and in its first window. -/
theorem fatSliceOffsets_shown {shown : Bytes}
    (h : shown = file.content ∨ shown = file.content.take MAX_LOAD_COMMANDS) :
    fatSliceOffsets shown = .ok (some (file.followed.map FatArch.offset)) := by
  have hmax : MAX_LOAD_COMMANDS = 0x100000 := rfl
  have hslices : MAX_FAT_SLICES = 64 := rfl
  have hlen : file.followed.length = min MAX_FAT_SLICES file.archs.length := List.length_take
  have htake : file.followed.take (min file.archs.length MAX_FAT_SLICES) = file.followed :=
    List.take_of_length_le (by omega)
  have hread := fun rest => fatSliceOffsets_table file.followed rest file.count_lt (by omega)
  rw [htake] at hread
  -- only the entries that are followed need to be in front
  have hsplit : file.content = (Endian.be 4 (fatMagic file.wide) ++
      (Endian.be 4 file.archs.length ++ tableBytes file.followed)) ++
        (tableBytes (file.archs.drop MAX_FAT_SLICES) ++ file.rest) := by
    have harchs : tableBytes file.archs =
        tableBytes file.followed ++ tableBytes (file.archs.drop MAX_FAT_SLICES) := by
      rw [followed, tableBytes, tableBytes, tableBytes, ← List.flatMap_append,
        List.take_append_drop]
    rw [file.content_eq, harchs]
    simp
  have hhead : (Endian.be 4 (fatMagic file.wide) ++
      (Endian.be 4 file.archs.length ++ tableBytes file.followed)).length ≤ MAX_LOAD_COMMANDS := by
    have htable : (tableBytes file.followed).length ≤ 64 * 32 := by
      rw [length_tableBytes]
      exact Nat.mul_le_mul (by omega) (by split <;> omega)
    simp only [List.length_append, Endian.length_be]
    omega
  rcases h with rfl | rfl
  · rw [hsplit, List.append_assoc, List.append_assoc]
    exact hread _
  · rw [hsplit, List.take_append, List.take_of_length_le hhead, List.append_assoc,
      List.append_assoc]
    exact hread _

end UniversalFile

/-! ## What is reported -/

section Reports

theorem isMax_maxOption {kept other : Option MacosVersion} {s t : Set MacosVersion}
    (hkept : IsMax kept s) (hother : IsMax other t) : IsMax (maxOption kept other) (t ∪ s) := by
  cases other with
  | none =>
    rw [isMax_none] at hother
    rw [hother, Set.empty_union, maxOption_none]
    exact hkept
  | some v =>
    cases kept with
    | none =>
      rw [isMax_none] at hkept
      rw [hkept, Set.union_empty]
      exact hother
    | some m =>
      refine ⟨?_, ?_⟩
      · show max m v ∈ t ∪ s
        rcases max_choice m v with h | h
        · rw [h]
          exact Or.inr hkept.mem
        · rw [h]
          exact Or.inl hother.mem
      · rintro w (hw | hw)
        · exact (hother.2 hw).trans (le_max_right m v)
        · exact (hkept.2 hw).trans (le_max_left m v)

/-- The two components of a floor are the highest of what was recorded. -/
structure Highest (floor : MacosFloor) (commands : List LoadCommand) : Prop where
  deploymentTarget :
    IsMax floor.deploymentTarget {v | ∃ c ∈ commands, c.floor.deploymentTarget = some v}
  sdk : IsMax floor.sdk {v | ∃ c ∈ commands, c.floor.sdk = some v}

theorem highest_nil : Highest {} [] :=
  ⟨isMax_none.mpr (by simp), isMax_none.mpr (by simp)⟩

theorem isMax_component (kept : Option MacosVersion) : IsMax kept {v | kept = some v} := by
  cases kept with
  | none => exact isMax_none.mpr (by simp)
  | some v =>
    have hone : {w | some v = some w} = ({v} : Set MacosVersion) := by
      ext w
      simp [eq_comm]
    rw [hone]
    exact isGreatest_singleton

/-- What was recorded before and what is recorded by further commands is absorbed. -/
theorem Highest.absorb {floor other : MacosFloor} {commands more : List LoadCommand}
    (h : Highest floor commands) (hmore : Highest other more) :
    Highest (floor.absorb other) (commands ++ more) := by
  have hsplit : ∀ f : LoadCommand → Option MacosVersion,
      {v | ∃ c ∈ commands ++ more, f c = some v} =
        {v | ∃ c ∈ more, f c = some v} ∪ {v | ∃ c ∈ commands, f c = some v} := by
    intro f
    ext v
    simp only [List.mem_append, or_and_right, exists_or, Set.mem_union, Set.mem_ofPred_eq]
    exact or_comm
  constructor
  · rw [hsplit]
    exact isMax_maxOption h.deploymentTarget hmore.deploymentTarget
  · rw [hsplit]
    exact isMax_maxOption h.sdk hmore.sdk

theorem highest_single (c : LoadCommand) : Highest c.floor [c] := by
  constructor
  · simpa using isMax_component c.floor.deploymentTarget
  · simpa using isMax_component c.floor.sdk

/-- A run over a list whose steps absorb what its elements record. -/
theorem highest_foldl {ι : Type*} {floorAt : ι → MacosFloor} {recorded : ι → List LoadCommand}
    (hat : ∀ i, Highest (floorAt i) (recorded i)) (l : List ι) {floor : MacosFloor}
    {commands : List LoadCommand} (h : Highest floor commands) :
    Highest (l.foldl (fun floor i => floor.absorb (floorAt i)) floor)
      (commands ++ l.flatMap recorded) := by
  induction l generalizing floor commands with
  | nil => simpa using h
  | cons i l ih =>
    have hrun := ih (h.absorb (hat i))
    rwa [List.append_assoc] at hrun

theorem highest_floorOf (commands : List LoadCommand) : Highest (floorOf commands) commands := by
  have h := highest_foldl highest_single commands highest_nil
  rwa [List.nil_append, List.flatMap_singleton'] at h

/-- The scan of a file reports the highest versions of the commands, and the scan of its whole
content reports the same. -/
def Reports (content : Bytes) (commands : List LoadCommand) : Prop :=
  ∃ floor, scanFile (.file content) = .ok (.ok floor) ∧ scanImage content = .ok floor ∧
    Highest floor commands

theorem scanFile_file (content : Bytes) :
    scanFile (.file content) = (scanContent content).map Except.ok := by
  rw [scanFile]
  cases scanContent content <;> rfl

/-- The first bytes of an image are no table's. -/
theorem ThinImage.readBe_bytes (image : ThinImage) :
    Endian.readBe 4 image.bytes 0 = some 0xcffaedfe := by
  have hfield := @Endian.fieldAt_append [] _
    (image.arch ++ (Endian.le 4 image.commands.length ++ image.flags) ++
      (commandBytes image.commands ++ image.rest)) _ 0 rfl (Endian.length_le 4 MACHO_MAGIC_64)
  rw [List.nil_append] at hfield
  rw [bytes, header, List.append_assoc, Endian.readBe, hfield]
  rfl

theorem ThinImage.fatSliceOffsets_bytes (image : ThinImage) :
    fatSliceOffsets image.bytes = .ok none :=
  fatSliceOffsets_not_fat image.readBe_bytes (by decide)

theorem ThinImage.reports (image : ThinImage) (h : image.headLength ≤ MAX_LOAD_COMMANDS) :
    Reports image.bytes image.commands := by
  have hmax : MAX_LOAD_COMMANDS = 0x100000 := rfl
  obtain ⟨shown, hcommands, hbytes⟩ := image.exists_take h
  have hshown : shown.headLength < 2 ^ 63 := by
    have hle : shown.headLength ≤ MAX_LOAD_COMMANDS := by
      rw [headLength, hcommands]
      exact h
    omega
  refine ⟨floorOf image.commands, ?_, ?_, highest_floorOf _⟩
  · have htable := shown.fatSliceOffsets_bytes
    rw [hbytes] at htable
    rw [scanFile_file, scanContent_thin htable, ← hbytes, shown.scanThin_image hshown, hcommands]
    rfl
  · rw [scanImage_thin image.fatSliceOffsets_bytes]
    exact image.scanThin_image (by omega)

/-- Nothing is recorded where a file has nothing. -/
theorem Slice.commands_eq_nil {slice : Slice} (h : slice.bytes = []) : slice.commands = [] := by
  cases slice with
  | image thin =>
    have hlen := congrArg List.length h
    have hbytes : (Slice.image thin).bytes =
        thin.header ++ (commandBytes thin.commands ++ thin.rest) := rfl
    rw [hbytes, List.length_append, thin.length_header] at hlen
    exact absurd hlen (by simp)
  | other bytes magic => rfl

/-- The windows that are read say what the slices record, and the slices that are passed over
record nothing. -/
theorem absorbWindows_slices {wide : Bool} {read : ℕ → Bool} {window : ℕ → Bytes}
    (archs : List (FatArch wide))
    (hread : ∀ a ∈ archs, read a.offset →
      scanThin (window a.offset) = .ok (floorOf a.slice.commands) ∧
        (window a.offset).length < 2 ^ 63)
    (hskip : ∀ a ∈ archs, ¬ read a.offset → a.slice.commands = []) :
    absorbWindows (((archs.map FatArch.offset).filter read).map window) =
      archs.foldl (fun floor a => floor.absorb (floorOf a.slice.commands)) {} := by
  suffices hfold : ∀ floor : MacosFloor,
      (((archs.map FatArch.offset).filter read).map window).foldl
        (fun floor w => floor.absorb (absorbAll w {} (commandsOf w))) floor =
      archs.foldl (fun floor a => floor.absorb (floorOf a.slice.commands)) floor from hfold {}
  induction archs with
  | nil => exact fun floor => rfl
  | cons a archs ih =>
    intro floor
    have hrest := ih (fun b hb => hread b (List.mem_cons_of_mem a hb))
      (fun b hb => hskip b (List.mem_cons_of_mem a hb))
    rw [List.map_cons]
    by_cases ha : read a.offset
    · obtain ⟨hscan, hlen⟩ := hread a List.mem_cons_self ha
      rw [scanThin_total hlen, Except.ok.injEq] at hscan
      rw [List.filter_cons_of_pos ha, List.map_cons, List.foldl_cons, List.foldl_cons, hscan]
      exact hrest _
    · rw [List.filter_cons_of_neg ha, List.foldl_cons, hskip a List.mem_cons_self ha]
      show _ = List.foldl _ (floor.absorb {}) archs
      rw [absorb_empty]
      exact hrest _

theorem UniversalFile.reports (file : UniversalFile)
    (h : ∀ a ∈ file.followed, a.slice.Within MAX_LOAD_COMMANDS) :
    Reports file.content (file.followed.flatMap fun a => a.slice.commands) := by
  have hmax : MAX_LOAD_COMMANDS = 0x100000 := rfl
  have hlen := file.length_lt
  have hslice : ∀ a ∈ file.followed, file.content.drop a.offset = a.slice.bytes :=
    fun a ha => file.slice_eq a (List.mem_of_mem_take ha)
  -- a slice that is not read lies behind the end of the file
  have hbehind : ∀ a ∈ file.followed, file.content.length ≤ a.offset → a.slice.commands = [] := by
    intro a ha hle
    refine Slice.commands_eq_nil ?_
    rw [← hslice a ha, List.drop_of_length_le hle]
  refine ⟨file.followed.foldl (fun floor a => floor.absorb (floorOf a.slice.commands)) {}, ?_, ?_,
    ?_⟩
  · rw [scanFile_file, scanContent_fat (file.fatSliceOffsets_shown (Or.inr rfl)),
      absorbWindows_slices]
    · rfl
    · intro a ha _
      have hle := length_windowAt_le file.content a.offset
      refine ⟨?_, by omega⟩
      rw [windowAt, hslice a ha]
      exact Slice.scanThin_take (h a ha)
    · intro a ha hnot
      refine hbehind a ha ?_
      rw [decide_eq_true_eq] at hnot
      omega
  · rw [scanImage_fat hlen (file.fatSliceOffsets_shown (Or.inl rfl)), absorbWindows_slices]
    · intro a ha _
      have hle : (file.content.drop a.offset).length ≤ file.content.length :=
        (List.drop_sublist _ _).length_le
      refine ⟨?_, by omega⟩
      rw [hslice a ha]
      exact Slice.scanThin_bytes ((h a ha).mono (by omega))
    · intro a ha hnot
      refine hbehind a ha ?_
      rw [decide_eq_true_eq] at hnot
      omega
  · exact highest_foldl (fun a : FatArch file.wide => highest_floorOf a.slice.commands)
      file.followed highest_nil

/-! ### What is left out -/

/-- A window that ends inside the first command shows nothing. -/
theorem ThinImage.scanThin_cut (image : ThinImage) {c : LoadCommand} {commands : List LoadCommand}
    (hcommands : image.commands = c :: commands) {n : ℕ} (hhead : 40 ≤ n) (hcut : n < 32 + c.size)
    (hn : n < 2 ^ 63) : scanThin (image.bytes.take n) = .ok {} := by
  have hbytes : image.bytes =
      image.header ++ (c.bytes ++ (commandBytes commands ++ image.rest)) := by
    rw [bytes, hcommands, commandBytes, List.flatMap_cons, List.append_assoc]
    rfl
  have hcmd := c.readLe_cmd image.header (commandBytes commands ++ image.rest)
  have hsize := c.readLe_size image.header (commandBytes commands ++ image.rest)
  rw [← hbytes, image.length_header] at hcmd hsize
  have hlen : (image.bytes.take n).length ≤ n := List.length_take_le _ _
  rw [scanThin, readU32Le_ok (by omega), readU32Le_ok (by omega), Endian.readLe_take (by omega),
    Endian.readLe_take (by omega), image.readLe_magic, image.readLe_count, hcommands]
  show scanCommands (image.bytes.take n) (commands.length + 1) 32 {} = _
  rw [scanCommands_succ (by omega), Endian.readLe_take (by omega), Endian.readLe_take (by omega),
    hcmd, hsize]
  exact if_pos (Or.inr (by omega))

/-- A command that records a deployment target and an SDK for macOS. -/
def buildVersion (minos sdk : ℕ) : LoadCommand where
  cmd := LC_BUILD_VERSION
  body := Endian.le 4 PLATFORM_MACOS ++ (Endian.le 4 minos ++ (Endian.le 4 sdk ++ Endian.le 4 0))
  cmd_lt := by decide
  size_lt := by simp
  build := fun _ => by simp
  versionMin := fun h => absurd h (by decide)

/-- A search path of a mebibyte. -/
def longPath : LoadCommand where
  cmd := 0x8000001c
  body := List.replicate 0xffff8 0x2f
  cmd_lt := by decide
  size_lt := by rw [List.length_replicate]; omega
  build := fun h => absurd h (by decide)
  versionMin := fun h => absurd h (by decide)

def imageOf (commands : List LoadCommand) (rest : Bytes) (h : commands.length < 2 ^ 32) :
    ThinImage where
  arch := List.replicate 12 0
  commands := commands
  flags := List.replicate 12 0
  rest := rest
  arch_length := List.length_replicate
  flags_length := List.length_replicate
  count_lt := h

/-- An image whose version is recorded behind another command. -/
def late (c : LoadCommand) : ThinImage :=
  imageOf [c, buildVersion 0x0e0500 0x0f0200] []
    (Nat.lt_of_lt_of_le (by decide : 2 < 3) (by decide))

theorem scanImage_late {c : LoadCommand} (h : c.floor = {}) :
    scanImage (late c).bytes = .ok ⟨some ⟨14, 5⟩, some ⟨15, 2⟩⟩ := by
  have hlen : (late c).headLength < 2 ^ 63 := by
    have hcommands : commandBytes (late c).commands =
        c.bytes ++ ((buildVersion 0x0e0500 0x0f0200).bytes ++ []) := rfl
    have hsize : c.size < 2 ^ 32 := c.size_lt
    have hbuild : (buildVersion 0x0e0500 0x0f0200).size = 24 := rfl
    rw [ThinImage.headLength, hcommands, List.length_append, List.length_append,
      LoadCommand.length_bytes, LoadCommand.length_bytes, List.length_nil]
    omega
  have hfloor : floorOf (late c).commands =
      (MacosFloor.absorb {} c.floor).absorb (buildVersion 0x0e0500 0x0f0200).floor := rfl
  rw [scanImage_thin (late c).fatSliceOffsets_bytes, (late c).scanThin_image hlen, hfloor, h]
  rfl

/-- The file is read up to a mebibyte, so that what stands behind a command of that size is not. -/
theorem scanFile_late {c : LoadCommand} (h : MAX_LOAD_COMMANDS ≤ c.size) :
    scanFile (.file (late c).bytes) = .ok (.ok {}) := by
  have hmax : MAX_LOAD_COMMANDS = 0x100000 := rfl
  have hmagic : Endian.readBe 4 ((late c).bytes.take MAX_LOAD_COMMANDS) 0 = some 0xcffaedfe := by
    rw [Endian.readBe_take (by omega)]
    exact (late c).readBe_bytes
  have htable := fatSliceOffsets_not_fat hmagic (by decide)
  rw [scanFile_file, scanContent_thin htable,
    (late c).scanThin_cut (c := c) rfl (by omega) (by omega) (by omega)]
  rfl

theorem length_longPath : longPath.body.length = 0xffff8 := List.length_replicate

theorem size_longPath : longPath.size = MAX_LOAD_COMMANDS := by
  rw [LoadCommand.size, length_longPath]
  rfl

/-- An image for macOS 11.0, and one for macOS 14.5 behind it. -/
def newer : ThinImage := imageOf [buildVersion 0x0e0500 0x0f0200] [] (by decide)

def older : ThinImage := imageOf [buildVersion 0x0b0000 0x0b0000] newer.bytes (by decide)

def archAt (offset : ℕ) (thin : ThinImage) (h : offset < 256 ^ 4) : FatArch false where
  cpu := List.replicate 8 0
  offset := offset
  tail := List.replicate 8 0
  slice := .image thin
  cpu_length := List.length_replicate
  offset_lt := h
  tail_length := List.length_replicate

/-- Sixty-four slices of the older image, and one of the newer. -/
def crowdedArchs : List (FatArch false) :=
  List.replicate 64 (archAt 1308 older (by decide)) ++ [archAt 1364 newer (by decide)]

def crowdedHead : Bytes :=
  Endian.be 4 (fatMagic false) ++ (Endian.be 4 crowdedArchs.length ++ tableBytes crowdedArchs)

theorem length_crowdedHead : crowdedHead.length = 1308 := by
  simp only [crowdedHead, List.length_append, Endian.length_be, length_tableBytes, crowdedArchs,
    List.length_replicate, List.length_singleton]
  rfl

def crowded : UniversalFile where
  wide := false
  archs := crowdedArchs
  rest := older.bytes
  count_lt := by simp [crowdedArchs]
  content := crowdedHead ++ older.bytes
  content_eq := by rw [crowdedHead, List.append_assoc, List.append_assoc]
  slice_eq := by
    intro a ha
    rcases List.mem_append.mp ha with ha | ha
    · rw [List.eq_of_mem_replicate ha]
      exact List.drop_left' length_crowdedHead
    · rw [List.mem_singleton.mp ha]
      show (crowdedHead ++ older.bytes).drop 1364 = newer.bytes
      have hsplit : (1364 : ℕ) = crowdedHead.length + 56 := by rw [length_crowdedHead]
      rw [hsplit, ← List.drop_drop, List.drop_left]
      rfl
  length_lt := by
    rw [List.length_append, length_crowdedHead]
    have : older.bytes.length = 112 := by rfl
    omega

theorem crowded_followed :
    crowded.followed = List.replicate 64 (archAt 1308 older (by decide)) :=
  List.take_left' List.length_replicate

theorem crowded_reported : ∃ floor, scanFile (.file crowded.content) = .ok (.ok floor) ∧
    ¬ Highest floor (crowded.archs.flatMap fun a => a.slice.commands) := by
  have hwithin : ∀ a ∈ crowded.followed, a.slice.Within MAX_LOAD_COMMANDS := by
    intro a ha
    rw [crowded_followed] at ha
    rw [List.eq_of_mem_replicate ha]
    show older.headLength ≤ MAX_LOAD_COMMANDS
    decide
  obtain ⟨floor, hscan, -, hhighest⟩ := crowded.reports hwithin
  refine ⟨floor, hscan, fun hall => ?_⟩
  have hnewer : (⟨14, 5⟩ : MacosVersion) ∈ {v | ∃ c ∈
      crowded.archs.flatMap (fun a => a.slice.commands), c.floor.deploymentTarget = some v} := by
    refine ⟨buildVersion 0x0e0500 0x0f0200, List.mem_flatMap.mpr
      ⟨archAt 1364 newer (by decide), List.mem_append_right _ (List.mem_singleton_self _),
        List.mem_singleton_self _⟩, rfl⟩
  obtain ⟨v, hv, hle⟩ := hall.deploymentTarget.exists_le hnewer
  have hmem := hhighest.deploymentTarget
  rw [hv, crowded_followed] at hmem
  obtain ⟨c, hc, hfloor⟩ := hmem.mem
  obtain ⟨a, ha, hca⟩ := List.mem_flatMap.mp hc
  rw [List.eq_of_mem_replicate ha] at hca
  rw [List.mem_singleton.mp hca] at hfloor
  have hfloor : some (⟨11, 0⟩ : MacosVersion) = some v := hfloor
  rw [← Option.some.inj hfloor] at hle
  exact absurd hle (by decide)

/-- The scan of a file reports the highest versions that the load commands of an image record, or
those of the first sixty-four slices of a universal file, and so does the scan of the whole
content, when the load commands of each image lie within its first mebibyte. The scan of arbitrary
content ends within its range, and visits a command for each eight bytes of a window at most. -/
theorem scanFile_reports :
    (∀ image : ThinImage, image.headLength ≤ MAX_LOAD_COMMANDS →
      Reports image.bytes image.commands) ∧
    (∀ file : UniversalFile, (∀ a ∈ file.followed, a.slice.Within MAX_LOAD_COMMANDS) →
      Reports file.content (file.followed.flatMap fun a => a.slice.commands)) ∧
    ∀ content : Bytes, ∃ windows : List Bytes,
      scanFile (.file content) = .ok (.ok (absorbWindows windows)) ∧
      windows.length ≤ MAX_FAT_SLICES ∧ ∀ w ∈ windows, w <:+: content ∧
        w.length ≤ MAX_LOAD_COMMANDS ∧ 8 * (commandsOf w).length ≤ w.length := by
  refine ⟨ThinImage.reports, UniversalFile.reports, fun content => ?_⟩
  obtain ⟨windows, hscan, hwindows⟩ := scanContent_total content
  refine ⟨windows, ?_, hwindows⟩
  rw [scanFile_file, hscan]
  rfl


theorem scanFile_reports_sample : Reports newer.bytes newer.commands ∧
    Reports crowded.content (crowded.followed.flatMap fun a => a.slice.commands) :=
  ⟨scanFile_reports.1 newer (by decide), scanFile_reports.2.1 crowded (by
    intro a ha
    rw [crowded_followed] at ha
    rw [List.eq_of_mem_replicate ha]
    show older.headLength ≤ MAX_LOAD_COMMANDS
    decide)⟩

/-- A command behind the first mebibyte is missed by the scan of the file, though not by the scan
of its content, and so are the commands of the sixty-fifth slice. -/
theorem windows_limited :
    (scanFile (.file (late longPath).bytes) = .ok (.ok {}) ∧
      scanImage (late longPath).bytes = .ok ⟨some ⟨14, 5⟩, some ⟨15, 2⟩⟩) ∧
    ∃ floor, scanFile (.file crowded.content) = .ok (.ok floor) ∧
      ¬ Highest floor (crowded.archs.flatMap fun a => a.slice.commands) :=
  ⟨⟨scanFile_late size_longPath.ge, scanImage_late rfl⟩, crowded_reported⟩

end Reports

end OpenStrata.Macho
