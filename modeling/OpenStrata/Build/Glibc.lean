import Mathlib.Data.Prod.Lex
import OpenStrata.Core.Digest
import OpenStrata.Lib.Greatest
import OpenStrata.Lib.Windows

/-!
# The glibc floor of a runtime

The floor is the highest `GLIBC_<major>.<minor>` that the binaries of a runtime name. A binary is
read in chunks, and the last bytes of each window are kept in front of the next chunk. A name that
lies across a boundary is seen whole in the next window, and its first part is seen as well.

## Main definitions

* `scanWindow`: the names in a text that is held whole
* `scanFile`, `maxGlibcFloor`: the scan of a file, and of all files
* `versions`: the versions a text names

## Main results

* `isMax_scanWindow`, `isMax_scanChunks`: what the two scans keep
* `mem_windowVersions_iff`: the windows show the versions the text names, and those that the end
  of a chunk cuts out of a longer run of digits
* `streaming_exact_iff`: the two scans agree exactly when nothing that is cut out exceeds what the
  text names
-/

namespace OpenStrata.Glibc

/-! ## Versions -/

/-- A glibc release. -/
structure GlibcVersion where
  major : ℕ
  minor : ℕ
deriving DecidableEq, Repr

/-- Releases are ordered by their major, then by their minor number. -/
instance : LinearOrder GlibcVersion :=
  LinearOrder.lift' (fun v => toLex (v.major, v.minor)) fun a b h => by
    have hpair : (a.major, a.minor) = (b.major, b.minor) := toLex_inj.mp h
    obtain ⟨major, minor⟩ := a
    obtain ⟨hmajor, hminor⟩ := Prod.mk.inj hpair
    subst hmajor hminor
    rfl

theorem GlibcVersion.le_of_minor_le {major m n : ℕ} (h : m ≤ n) :
    (⟨major, m⟩ : GlibcVersion) ≤ ⟨major, n⟩ :=
  Prod.Lex.toLex_le_toLex.mpr (Or.inr ⟨rfl, h⟩)

/-! ## The scan of a text -/

def ELF_MAGIC : Bytes := [0x7f, 0x45, 0x4c, 0x46]

/-- `GLIBC_`. -/
def GLIBC_PREFIX : Bytes := [0x47, 0x4c, 0x49, 0x42, 0x43, 0x5f]

def CHUNK : ℕ := 64 * 1024

def CARRY : ℕ := 32

def isAsciiDigit (b : UInt8) : Bool := 0x30 ≤ b && b ≤ 0x39

/-- Take a run of ASCII digits from the front. -/
def takeNumber (bytes : Bytes) : Option (ℕ × Bytes) :=
  let stop := bytes.findIdx fun b => !isAsciiDigit b
  if stop = 0 then none
  else if stop > 6 then none
  else
    let value := (bytes.take stop).foldl (fun value b => value * 10 + (b - 0x30).toNat) 0
    some (value, bytes.drop stop)

/-- Parse `<major>.<minor>` from the front; what follows it is ignored. -/
def parseVersion (bytes : Bytes) : Option GlibcVersion :=
  match takeNumber bytes with
  | none => none
  | some (major, rest) =>
    match rest with
    | [] => none
    | b :: rest =>
      if b = 0x2e then (takeNumber rest).map fun taken => ⟨major, taken.1⟩ else none

/-- First index at which `needle` stands in the bytes. -/
def position (needle : Bytes) : Bytes → Option ℕ
  | [] => none
  | b :: rest =>
    if needle.isPrefixOf (b :: rest) then some 0 else (position needle rest).map (· + 1)

def find (haystack needle : Bytes) : Option ℕ :=
  if needle = [] ∨ haystack.length < needle.length then none else position needle haystack

theorem length_drop_find {bytes : Bytes} {rel : ℕ} (h : find bytes GLIBC_PREFIX = some rel) :
    (bytes.drop (rel + GLIBC_PREFIX.length)).length < bytes.length := by
  rw [find] at h
  split at h
  · cases h
  · next hlong =>
    push Not at hlong
    have hsix : GLIBC_PREFIX.length = 6 := rfl
    rw [List.length_drop]
    omega

/-- Fold the greatest `GLIBC_<major>.<minor>` of the bytes into `greatest`. -/
def scanWindow (bytes : Bytes) (greatest : Option GlibcVersion) : Option GlibcVersion :=
  match _ : find bytes GLIBC_PREFIX with
  | none => greatest
  | some rel =>
    let rest := bytes.drop (rel + GLIBC_PREFIX.length)
    scanWindow rest
      (match parseVersion rest with
      | some v => some (greatest.elim v (max · v))
      | none => greatest)
termination_by bytes.length
decreasing_by exact length_drop_find ‹_›

/-! ## The scan of files -/

/-- The loop of `scanFile`: `rest` is what has not been read yet. -/
def scanChunks (window rest : Bytes) (greatest : Option GlibcVersion) : Option GlibcVersion :=
  let buf := rest.take CHUNK
  let window := window ++ buf
  let greatest := scanWindow window greatest
  if _ : rest.take CHUNK = [] then greatest
  else
    let window :=
      if window.length > CARRY then window.drop (window.length - CARRY) else window
    scanChunks window (rest.drop CHUNK) greatest
termination_by rest.length
decreasing_by
  have hpos : 0 < (rest.take CHUNK).length := List.length_pos_iff.mpr ‹_›
  rw [List.length_take] at hpos
  rw [List.length_drop]
  omega

/-- What is found at a path. -/
inductive Node where
  | missing
  | directory
  /-- The metadata, the opening or the reading fails. -/
  | unreadable (error : String)
  | file (content : Bytes)

def scanFile : Node → Except String (Option GlibcVersion)
  | .missing => .ok none
  | .directory => .ok none
  | .unreadable error => .error error
  | .file content =>
    let magic := content.take 4
    if magic.length < 4 then .ok none
    else if magic ≠ ELF_MAGIC then .ok none
    else .ok (scanChunks magic (content.drop 4) none)

/-- The value of a run of digits. -/
def value (digits : Bytes) : ℕ := digits.foldl (fun value b => value * 10 + (b - 0x30).toNat) 0

/-- A run of one to six digits. -/
structure IsNumber (digits : Bytes) : Prop where
  ne_nil : digits ≠ []
  length_le : digits.length ≤ 6
  digit : ∀ b ∈ digits, isAsciiDigit b

/-- The bytes start with something else than a digit, or are empty. -/
def NoDigit (bytes : Bytes) : Prop := bytes.takeWhile isAsciiDigit = []

/-- The bytes begin with the version, both of whose runs of digits end where they are said to. -/
def Names (bytes : Bytes) (v : GlibcVersion) : Prop :=
  ∃ major minor rest, bytes = major ++ 0x2e :: (minor ++ rest) ∧ IsNumber major ∧ IsNumber minor ∧
    NoDigit rest ∧ v = ⟨value major, value minor⟩

/-- The versions that a text names. -/
def versions (bytes : Bytes) : Set GlibcVersion :=
  {v | ∃ before after, bytes = before ++ (GLIBC_PREFIX ++ after) ∧ Names after v}

section Numbers

variable {bytes digits rest : Bytes} {n : ℕ} {v : GlibcVersion}

theorem findIdx_digit (bytes : Bytes) :
    bytes.findIdx (fun b => !isAsciiDigit b) = (bytes.takeWhile isAsciiDigit).length := by
  induction bytes with
  | nil => rfl
  | cons b bytes ih =>
    by_cases hb : isAsciiDigit b
    · rw [List.takeWhile_cons_of_pos hb, List.findIdx_cons, hb, List.length_cons, ← ih]
      rfl
    · rw [List.takeWhile_cons_of_neg hb, List.findIdx_cons]
      simp [hb]

/-- The bytes are a run of digits and something that starts with none. -/
theorem exists_run (bytes : Bytes) : ∃ digits rest, bytes = digits ++ rest ∧
    (∀ b ∈ digits, isAsciiDigit b) ∧ NoDigit rest := by
  induction bytes with
  | nil => exact ⟨[], [], rfl, by simp, rfl⟩
  | cons b bytes ih =>
    by_cases hb : isAsciiDigit b
    · obtain ⟨digits, rest, rfl, hdigits, hrest⟩ := ih
      refine ⟨b :: digits, rest, rfl, ?_, hrest⟩
      rintro c (_ | ⟨_, hc⟩)
      · exact hb
      · exact hdigits c hc
    · exact ⟨[], b :: bytes, rfl, by simp, List.takeWhile_cons_of_neg hb⟩

theorem takeNumber_append (hdigits : ∀ b ∈ digits, isAsciiDigit b) (hrest : NoDigit rest) :
    takeNumber (digits ++ rest) =
      if digits.length = 0 then none
      else if digits.length > 6 then none else some (value digits, rest) := by
  have hrun : (digits ++ rest).takeWhile isAsciiDigit = digits := by
    rw [List.takeWhile_append_of_pos hdigits, hrest, List.append_nil]
  rw [takeNumber, findIdx_digit, hrun, List.take_left, List.drop_left]
  rfl

theorem takeNumber_number (hnumber : IsNumber digits) (hrest : NoDigit rest) :
    takeNumber (digits ++ rest) = some (value digits, rest) := by
  have hpos := List.length_pos_iff.mpr hnumber.ne_nil
  have hle := hnumber.length_le
  rw [takeNumber_append hnumber.digit hrest, if_neg (by omega), if_neg (by omega)]

theorem takeNumber_eq_some_iff : takeNumber bytes = some (n, rest) ↔
    ∃ digits, bytes = digits ++ rest ∧ IsNumber digits ∧ NoDigit rest ∧ n = value digits := by
  constructor
  · intro h
    obtain ⟨digits, after, rfl, hdigits, hafter⟩ := exists_run bytes
    rw [takeNumber_append hdigits hafter] at h
    split at h
    · cases h
    · next hne =>
      split at h
      · cases h
      · next hle =>
        cases h
        exact ⟨digits, rfl, ⟨fun hnil => hne (by rw [hnil]; rfl), by omega, hdigits⟩, hafter, rfl⟩
  · rintro ⟨digits, rfl, hnumber, hrest, rfl⟩
    exact takeNumber_number hnumber hrest

theorem noDigit_dot (rest : Bytes) : NoDigit (0x2e :: rest) := rfl

theorem parseVersion_eq_some_iff : parseVersion bytes = some v ↔ Names bytes v := by
  constructor
  · intro h
    rw [parseVersion] at h
    split at h
    · cases h
    · next major rest hmajor =>
      obtain ⟨major, rfl, hnumber, -, rfl⟩ := takeNumber_eq_some_iff.mp hmajor
      split at h
      · cases h
      · next b rest =>
        split at h
        · next hb =>
          subst hb
          obtain ⟨⟨minor, after⟩, hminor, rfl⟩ := Option.map_eq_some_iff.mp h
          obtain ⟨minor, rfl, hsecond, hafter, rfl⟩ := takeNumber_eq_some_iff.mp hminor
          exact ⟨major, minor, after, rfl, hnumber, hsecond, hafter, rfl⟩
        · cases h
  · rintro ⟨major, minor, rest, rfl, hmajor, hminor, hrest, rfl⟩
    rw [parseVersion, takeNumber_number hmajor (noDigit_dot _)]
    show (if (0x2e : UInt8) = 0x2e then _ else _) = _
    rw [if_pos rfl, takeNumber_number hminor hrest]
    rfl

theorem value_append (digits more : Bytes) :
    value (digits ++ more) = more.foldl (fun n b => n * 10 + (b - 0x30).toNat) (value digits) := by
  rw [value, List.foldl_append]
  rfl

/-- Further digits do not make a number smaller. -/
theorem value_le_value_append (digits more : Bytes) : value digits ≤ value (digits ++ more) := by
  rw [value_append]
  generalize value digits = n
  induction more generalizing n with
  | nil => exact le_rfl
  | cons b more ih =>
    rw [List.foldl_cons]
    exact le_trans (by omega) (ih (n * 10 + (b - 0x30).toNat))

end Numbers

/-! ## What one scan keeps -/

section Scan

open Greatest

variable {bytes rest : Bytes} {b : UInt8} {rel : ℕ} {v : GlibcVersion}
  {greatest : Option GlibcVersion} {s : Set GlibcVersion}

theorem versions_nil : versions [] = ∅ := by
  ext v
  simp [versions, GLIBC_PREFIX]

theorem mem_versions_cons : v ∈ versions (b :: bytes) ↔
    (∃ rest, b :: bytes = GLIBC_PREFIX ++ rest ∧ Names rest v) ∨ v ∈ versions bytes := by
  constructor
  · rintro ⟨before, after, heq, hnames⟩
    cases before with
    | nil => exact Or.inl ⟨after, heq, hnames⟩
    | cons c before =>
      injection heq with _ heq
      exact Or.inr ⟨before, after, heq, hnames⟩
  · rintro (⟨rest, heq, hnames⟩ | ⟨before, after, rfl, hnames⟩)
    · exact ⟨[], rest, heq, hnames⟩
    · exact ⟨b :: before, after, rfl, hnames⟩

/-- A byte that no name starts at is passed over. -/
theorem versions_cons (h : ¬ GLIBC_PREFIX <+: b :: bytes) :
    versions (b :: bytes) = versions bytes := by
  ext v
  rw [mem_versions_cons]
  constructor
  · rintro (⟨rest, heq, -⟩ | hv)
    · exact absurd ⟨rest, heq.symm⟩ h
    · exact hv
  · exact Or.inr

theorem versions_cons_of_ne (h : b ≠ 0x47) : versions (b :: bytes) = versions bytes := by
  refine versions_cons fun ⟨rest, hrest⟩ => ?_
  injection hrest with hb
  exact h hb.symm

theorem versions_append_of_notMem {before : Bytes} (h : 0x47 ∉ before) (bytes : Bytes) :
    versions (before ++ bytes) = versions bytes := by
  induction before with
  | nil => rfl
  | cons b before ih =>
    rw [List.mem_cons, not_or] at h
    rw [List.cons_append, versions_cons_of_ne (Ne.symm h.1), ih h.2]

/-- The names start at a prefix, or behind it: two prefixes do not overlap. -/
theorem versions_occurrence (rest : Bytes) :
    versions (GLIBC_PREFIX ++ rest) = {v | Names rest v} ∪ versions rest := by
  have hinner : versions ([0x4c, 0x49, 0x42, 0x43, 0x5f] ++ rest) = versions rest :=
    versions_append_of_notMem (by decide) rest
  ext v
  rw [show GLIBC_PREFIX ++ rest = 0x47 :: ([0x4c, 0x49, 0x42, 0x43, 0x5f] ++ rest) from rfl,
    mem_versions_cons, hinner, Set.mem_union]
  refine or_congr_left ⟨?_, fun h => ⟨rest, rfl, h⟩⟩
  rintro ⟨after, heq, hnames⟩
  have hafter : rest = after := @List.append_cancel_left _ GLIBC_PREFIX _ _ heq
  exact hafter ▸ hnames

theorem position_le {needle : Bytes} (h : position needle bytes = some rel) :
    rel + needle.length ≤ bytes.length := by
  induction bytes generalizing rel with
  | nil => cases h
  | cons b bytes ih =>
    rw [position] at h
    split at h
    · next hpfx =>
      cases h
      have := (List.isPrefixOf_iff_prefix.mp hpfx).length_le
      omega
    · obtain ⟨i, hi, rfl⟩ := Option.map_eq_some_iff.mp h
      have := ih hi
      rw [List.length_cons]
      omega

theorem find_eq_position (bytes : Bytes) :
    find bytes GLIBC_PREFIX = position GLIBC_PREFIX bytes := by
  rw [find]
  split
  · next h =>
    have hshort : bytes.length < GLIBC_PREFIX.length := h.resolve_left (by decide)
    cases hpos : position GLIBC_PREFIX bytes with
    | none => rfl
    | some rel =>
      have := position_le hpos
      omega
  · rfl

theorem versions_of_find_none (h : find bytes GLIBC_PREFIX = none) : versions bytes = ∅ := by
  rw [find_eq_position] at h
  induction bytes with
  | nil => exact versions_nil
  | cons b bytes ih =>
    rw [position] at h
    split at h
    · cases h
    · next hpfx =>
      rw [versions_cons fun hp => hpfx (List.isPrefixOf_iff_prefix.mpr hp)]
      exact ih (Option.map_eq_none_iff.mp h)

theorem versions_of_find_some (h : find bytes GLIBC_PREFIX = some rel) :
    versions bytes = {v | Names (bytes.drop (rel + GLIBC_PREFIX.length)) v} ∪
      versions (bytes.drop (rel + GLIBC_PREFIX.length)) := by
  rw [find_eq_position] at h
  induction bytes generalizing rel with
  | nil => cases h
  | cons b bytes ih =>
    rw [position] at h
    split at h
    · next hpfx =>
      cases h
      obtain ⟨rest, hrest⟩ := List.isPrefixOf_iff_prefix.mp hpfx
      rw [← hrest, Nat.zero_add, List.drop_left, versions_occurrence]
    · next hpfx =>
      obtain ⟨i, hi, rfl⟩ := Option.map_eq_some_iff.mp h
      rw [versions_cons fun hp => hpfx (List.isPrefixOf_iff_prefix.mpr hp), ih hi,
        Nat.add_right_comm, List.drop_succ_cons]

/-- One more name is taken into account. -/
theorem isMax_names (h : IsMax greatest s) :
    IsMax (match parseVersion rest with
      | some v => some (greatest.elim v (max · v))
      | none => greatest) ({v | Names rest v} ∪ s) := by
  cases hparse : parseVersion rest with
  | none =>
    have hnone : {v | Names rest v} = ∅ := by
      ext v
      simp [← parseVersion_eq_some_iff, hparse]
    rwa [hnone, Set.empty_union]
  | some v =>
    have hone : {v | Names rest v} = {v} := by
      ext w
      simp [← parseVersion_eq_some_iff, hparse, eq_comm]
    rw [hone]
    exact h.absorb v

/-- The scan of a text that is held whole keeps the greatest version that the text names. -/
theorem isMax_scanWindow (h : IsMax greatest s) :
    IsMax (scanWindow bytes greatest) (versions bytes ∪ s) := by
  induction bytes, greatest using scanWindow.induct generalizing s with
  | case1 bytes greatest hfind =>
    rw [scanWindow]
    split
    · rwa [versions_of_find_none hfind, Set.empty_union]
    · next rel hsome => rw [hfind] at hsome; cases hsome
  | case2 bytes greatest rel hfind rest =>
    rename_i ih
    rw [scanWindow]
    split
    · next hnone => rw [hfind] at hnone; cases hnone
    · next rel' hsome =>
      rw [hfind] at hsome
      cases hsome
      have hrest := ih (isMax_names h)
      rwa [← Set.union_assoc, Set.union_comm (versions _), ← versions_of_find_some hfind] at hrest

/-- The versions that the windows of a text show. -/
def windowVersions (window rest : Bytes) : Set GlibcVersion :=
  {v | ∃ w ∈ Windows.windows CHUNK CARRY window rest, v ∈ versions w}

theorem scanChunks_eq_foldl (window rest : Bytes) (greatest : Option GlibcVersion) :
    scanChunks window rest greatest =
      (Windows.windows CHUNK CARRY window rest).foldl
        (fun greatest w => scanWindow w greatest) greatest := by
  induction window, rest, greatest using scanChunks.induct with
  | case1 window rest greatest hnil =>
    rw [scanChunks, dif_pos hnil, Windows.windows_of_take_eq_nil hnil, hnil, List.append_nil]
    rfl
  | case2 window rest greatest buf joined greatest' hne window' ih =>
    have hkept : window' = joined.drop (joined.length - CARRY) := by
      by_cases hlong : joined.length > CARRY
      · exact if_pos hlong
      · rw [Nat.sub_eq_zero_of_le (by omega), List.drop_zero]
        exact if_neg hlong
    rw [scanChunks, dif_neg hne, Windows.windows_of_take_ne_nil hne, List.foldl_cons]
    show scanChunks window' (rest.drop CHUNK) greatest' = _
    rw [ih, hkept]

/-- The scan in chunks keeps the greatest version that its windows show. -/
theorem isMax_scanChunks (window rest : Bytes) :
    IsMax (scanChunks window rest none) (windowVersions window rest) := by
  have hstep : ∀ kept s w, IsMax kept s → IsMax (scanWindow w kept) (versions w ∪ s) :=
    fun _ _ _ h => isMax_scanWindow h
  have hrun := IsMax.foldl hstep (isMax_none.mpr rfl)
    (Windows.windows CHUNK CARRY window rest)
  rw [Set.union_empty] at hrun
  rw [scanChunks_eq_foldl]
  exact hrun

end Scan

/-! ## What the windows show -/

section Streaming

variable {bytes after : Bytes} {v : GlibcVersion}

/-- A version whose last run of digits is cut by the end of a chunk: the digits that follow make
the run longer than six, so that the text itself names nothing there. -/
def CutOut (magic body : Bytes) (v : GlibcVersion) : Prop :=
  ∃ k before major minor after, 1 ≤ k ∧
    magic ++ body = before ++ (GLIBC_PREFIX ++ (major ++ 0x2e :: (minor ++ after))) ∧
    (before ++ (GLIBC_PREFIX ++ (major ++ 0x2e :: minor))).length = magic.length + CHUNK * k ∧
    IsNumber major ∧ IsNumber minor ∧ 6 < (minor ++ after.takeWhile isAsciiDigit).length ∧
    v = ⟨value major, value minor⟩

theorem NoDigit.of_isPrefix {seen : Bytes} (h : NoDigit bytes) (hseen : seen <+: bytes) :
    NoDigit seen := by
  obtain ⟨rest, rfl⟩ := hseen
  cases seen with
  | nil => rfl
  | cons b seen =>
    by_cases hb : isAsciiDigit b
    · rw [NoDigit, List.cons_append, List.takeWhile_cons_of_pos hb] at h
      cases h
    · exact List.takeWhile_cons_of_neg hb

/-- What a text names is told from its first thirteen bytes. -/
theorem Names.of_isPrefix (h : Names bytes v) {seen : Bytes} (hseen : seen <+: bytes)
    (hlen : 13 ≤ seen.length) : Names seen v := by
  obtain ⟨major, minor, rest, rfl, hmajor, hminor, hrest, rfl⟩ := h
  have hlong : (major ++ 0x2e :: minor).length ≤ seen.length := by
    have := hmajor.length_le
    have := hminor.length_le
    rw [List.length_append, List.length_cons]
    omega
  have hall : major ++ 0x2e :: (minor ++ rest) = (major ++ 0x2e :: minor) ++ rest := by simp
  rw [hall] at hseen
  obtain ⟨seen, rfl⟩ := List.prefix_of_prefix_length_le (List.prefix_append _ rest) hseen hlong
  have hrest' := hrest.of_isPrefix ((List.prefix_append_right_inj _).mp hseen)
  exact ⟨major, minor, seen, by simp, hmajor, hminor, hrest', rfl⟩

/-- What is read at the end of a window is bounded by what the text names there, unless the run
of digits goes on behind the window until it is too long. -/
theorem Names.append (h : Names bytes v) (after : Bytes) :
    (∃ u, v ≤ u ∧ Names (bytes ++ after) u) ∨
    (∃ major minor, bytes = major ++ 0x2e :: minor ∧ IsNumber major ∧ IsNumber minor ∧
      6 < (minor ++ after.takeWhile isAsciiDigit).length ∧ v = ⟨value major, value minor⟩) := by
  obtain ⟨major, minor, rest, rfl, hmajor, hminor, hrest, rfl⟩ := h
  cases rest with
  | cons b rest =>
    -- the run ends inside the window
    refine Or.inl ⟨_, le_rfl, major, minor, b :: rest ++ after, by simp, hmajor, hminor, ?_, rfl⟩
    by_cases hb : isAsciiDigit b
    · rw [NoDigit, List.takeWhile_cons_of_pos hb] at hrest
      cases hrest
    · exact List.takeWhile_cons_of_neg hb
  | nil =>
    rw [List.append_nil]
    by_cases hrun : 6 < (minor ++ after.takeWhile isAsciiDigit).length
    · exact Or.inr ⟨major, minor, rfl, hmajor, hminor, hrun, rfl⟩
    · left
      obtain ⟨digits, behind, rfl, hdigits, hbehind⟩ := exists_run after
      rw [List.takeWhile_append_of_pos hdigits, hbehind, List.append_nil] at hrun
      refine ⟨⟨value major, value (minor ++ digits)⟩,
        GlibcVersion.le_of_minor_le (value_le_value_append minor digits),
        major, minor ++ digits, behind, by simp, hmajor, ⟨?_, by omega, ?_⟩, hbehind, rfl⟩
      · exact fun hnil => hminor.ne_nil (List.append_eq_nil_iff.mp hnil).1
      · intro b hb
        rcases List.mem_append.mp hb with hb | hb
        · exact hminor.digit b hb
        · exact hdigits b hb

theorem isPrefix_or_of_cut {x y : Bytes} (hy : y <+: x) (hend : y = x ∨ CARRY < y.length)
    (h : x = GLIBC_PREFIX ++ after) (hv : Names after v) :
    ∃ seen, y = GLIBC_PREFIX ++ seen ∧ Names seen v := by
  subst h
  rcases hend with rfl | hlong
  · exact ⟨after, rfl, hv⟩
  · have hcarry : CARRY = 32 := rfl
    have hsix : GLIBC_PREFIX.length = 6 := rfl
    obtain ⟨seen, rfl⟩ := List.prefix_of_prefix_length_le (List.prefix_append _ after) hy (by omega)
    rw [List.length_append] at hlong
    exact ⟨seen, rfl, hv.of_isPrefix ((List.prefix_append_right_inj _).mp hy) (by omega)⟩

/-- Each version that the text names is shown by a window. -/
theorem versions_subset_windowVersions (magic body : Bytes) :
    versions (magic ++ body) ⊆ windowVersions magic body := by
  rintro v ⟨before, after, heq, hnames⟩
  obtain ⟨w, hw, y, ⟨front, rfl⟩, hyx, hend⟩ :=
    @Windows.exists_mem_suffix _ CHUNK CARRY _ _ _ (by decide)
      (⟨before, heq.symm⟩ : GLIBC_PREFIX ++ after <:+ magic ++ body)
  obtain ⟨seen, rfl, hseen⟩ := isPrefix_or_of_cut hyx hend rfl hnames
  exact ⟨_, hw, front, seen, rfl, hseen⟩

/-- What a window shows is bounded by what the text names, or is cut out by its end. -/
theorem exists_le_or_cutOut {magic body : Bytes} (h : v ∈ windowVersions magic body) :
    (∃ u ∈ versions (magic ++ body), v ≤ u) ∨ CutOut magic body v := by
  obtain ⟨w, hw, before, seen, rfl, hnames⟩ := h
  obtain ⟨k, hk, front, hfront⟩ := Windows.suffix_of_mem hw
  have hall : magic ++ body =
      (front ++ before) ++ (GLIBC_PREFIX ++ (seen ++ body.drop (CHUNK * k))) := by
    conv_lhs => rw [← List.take_append_drop (CHUNK * k) body, ← List.append_assoc, ← hfront]
    simp
  rcases hnames.append (body.drop (CHUNK * k)) with
    ⟨u, hle, hu⟩ | ⟨major, minor, rfl, hmajor, hminor, hrun, rfl⟩
  · exact Or.inl ⟨u, ⟨_, _, hall, hu⟩, hle⟩
  · refine Or.inr ⟨k, front ++ before, major, minor, body.drop (CHUNK * k), hk, ?_, ?_, hmajor,
      hminor, hrun, rfl⟩
    · rw [hall]
      simp
    · -- something follows, so that the chunks in front of it are whole
      have hlen := congrArg List.length hfront
      have hmore : (body.drop (CHUNK * k)).length ≠ 0 := by
        intro hnil
        rw [List.length_eq_zero_iff.mp hnil, List.takeWhile_nil, List.append_nil] at hrun
        have := hminor.length_le
        omega
      rw [List.length_drop] at hmore
      simp only [List.length_append, List.length_take] at hlen ⊢
      omega

/-- What the end of a chunk cuts out is shown by the window that ends there. -/
theorem CutOut.mem_windowVersions {magic body : Bytes} (h : CutOut magic body v) :
    v ∈ windowVersions magic body := by
  obtain ⟨k, before, major, minor, after, hk, heq, hlen, hmajor, hminor, hrun, rfl⟩ := h
  let shown := GLIBC_PREFIX ++ (major ++ 0x2e :: minor)
  have hsplit : magic ++ body = (before ++ shown) ++ after := by
    rw [heq]
    simp [shown]
  have hbody : CHUNK * k ≤ body.length := by
    have := congrArg List.length hsplit
    simp only [shown, List.length_append] at this hlen
    omega
  have htake : magic ++ body.take (CHUNK * k) = before ++ shown := by
    have htake := congrArg (List.take (magic.length + CHUNK * k)) hsplit
    rw [List.take_length_add_append, ← hlen, List.take_left] at htake
    exact htake
  have hshort : shown.length ≤ CHUNK := by
    have hsix : GLIBC_PREFIX.length = 6 := rfl
    have hchunk : CHUNK = 65536 := rfl
    have := hmajor.length_le
    have := hminor.length_le
    simp only [shown, List.length_append, List.length_cons]
    omega
  obtain ⟨w, hw, front, rfl⟩ := @Windows.exists_mem_cut _ _ CARRY _ _ _ _ (by decide) hk hbody
    ⟨before, htake.symm⟩ hshort
  exact ⟨_, hw, front, _, rfl, major, minor, [], by simp, hmajor, hminor, rfl, rfl⟩

/-- Each version the windows show is bounded by one that the text names exactly when this holds
of each that is cut out. -/
theorem windowVersions_bounded_iff (magic body : Bytes) :
    (∀ v ∈ windowVersions magic body, ∃ u ∈ versions (magic ++ body), v ≤ u) ↔
      ∀ v, CutOut magic body v → ∃ u ∈ versions (magic ++ body), v ≤ u := by
  constructor
  · exact fun h v hv => h v hv.mem_windowVersions
  · intro h v hv
    rcases exists_le_or_cutOut hv with hu | hcut
    · exact hu
    · exact h v hcut

end Streaming

/-! ## The two scans -/

open Greatest in
theorem isMax_whole (content : Bytes) : IsMax (scanWindow content none) (versions content) := by
  have h := @isMax_scanWindow content _ _ (isMax_none.mpr rfl)
  rwa [Set.union_empty] at h

theorem scanFile_elf (body : Bytes) :
    scanFile (.file (ELF_MAGIC ++ body)) = .ok (scanChunks ELF_MAGIC body none) := by
  have htake : (ELF_MAGIC ++ body).take 4 = ELF_MAGIC := List.take_left' rfl
  have hdrop : (ELF_MAGIC ++ body).drop 4 = body := List.drop_left' rfl
  rw [scanFile, htake, hdrop]
  rfl

/-- The file read in chunks has the floor of its content scanned at once exactly when no version
that the end of a chunk cuts out of a run of more than six digits exceeds what the content
names. -/
theorem streaming_exact_iff (body : Bytes) :
    scanFile (.file (ELF_MAGIC ++ body)) = .ok (scanWindow (ELF_MAGIC ++ body) none) ↔
      ∀ v, CutOut ELF_MAGIC body v → ∃ u ∈ versions (ELF_MAGIC ++ body), v ≤ u := by
  rw [scanFile_elf, Except.ok.injEq, ← windowVersions_bounded_iff]
  exact (isMax_whole _).eq_iff_of_subset (isMax_scanChunks _ _)
    (versions_subset_windowVersions _ _)

/-- A file whose only name is cut by the end of its first chunk. -/
def overlong : Bytes :=
  List.replicate (CHUNK - 14) 0 ++ (GLIBC_PREFIX ++
    ([0x32] ++ 0x2e :: ([0x31, 0x32, 0x33, 0x34, 0x35, 0x36] ++ [0x37])))

theorem isNumber_of_all {digits : Bytes} (h : digits ≠ [] ∧ digits.length ≤ 6 ∧
    digits.all isAsciiDigit) : IsNumber digits :=
  ⟨h.1, h.2.1, List.all_eq_true.mp h.2.2⟩

theorem cutOut_overlong : CutOut ELF_MAGIC overlong ⟨2, 123456⟩ := by
  refine ⟨1, ELF_MAGIC ++ List.replicate (CHUNK - 14) 0, [0x32],
    [0x31, 0x32, 0x33, 0x34, 0x35, 0x36], [0x37], le_rfl, ?_, ?_, isNumber_of_all (by decide),
    isNumber_of_all (by decide), by decide, rfl⟩
  · rw [overlong, List.append_assoc]
  · simp only [List.length_append, List.length_replicate]
    rfl

/-- The content names no version: the only run of digits behind a prefix is too long. -/
theorem versions_overlong : versions (ELF_MAGIC ++ overlong) = ∅ := by
  have hfront : (0x47 : UInt8) ∉ ELF_MAGIC ++ List.replicate (CHUNK - 14) 0 := by
    rw [List.mem_append, List.mem_replicate]
    decide
  rw [overlong, ← List.append_assoc, versions_append_of_notMem hfront]
  rw [versions_occurrence]
  have htail : (0x47 : UInt8) ∉ [(0x32 : UInt8)] ++ 0x2e ::
      ([0x31, 0x32, 0x33, 0x34, 0x35, 0x36] ++ [0x37]) := by decide
  have hrest := versions_append_of_notMem htail []
  rw [List.append_nil, versions_nil] at hrest
  rw [hrest, Set.union_empty]
  ext v
  rw [Set.mem_ofPred_eq, ← parseVersion_eq_some_iff]
  simp only [Set.mem_empty_iff_false, iff_false]
  have hparse : parseVersion ([(0x32 : UInt8)] ++ 0x2e ::
      ([0x31, 0x32, 0x33, 0x34, 0x35, 0x36] ++ [0x37])) = none := by decide
  rw [hparse]
  rintro ⟨⟩

/-- The first chunk shows a version that the content, scanned at once, does not name. -/
theorem overlong_run_reported :
    scanFile (.file (ELF_MAGIC ++ overlong)) ≠ .ok (scanWindow (ELF_MAGIC ++ overlong) none) := by
  have hwhole := isMax_whole (ELF_MAGIC ++ overlong)
  rw [versions_overlong] at hwhole
  have hnone : scanWindow (ELF_MAGIC ++ overlong) none = none :=
    hwhole.unique (Greatest.isMax_none.mpr rfl)
  obtain ⟨u, hu, -⟩ := (isMax_scanChunks ELF_MAGIC overlong).exists_le
    cutOut_overlong.mem_windowVersions
  rw [scanFile_elf, hnone, hu]
  intro h
  cases h

end OpenStrata.Glibc
