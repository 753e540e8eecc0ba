import OpenStrata.Build.Wheel
import OpenStrata.Core.Ascii
import OpenStrata.Core.Printing
import OpenStrata.Lib.Base64Url
import OpenStrata.Lib.Csv

/-!
# The record of a wheel

The `RECORD` file of a wheel lists each file with its digest in unpadded base64url and its size,
as comma-separated records, and itself without either.

## Main definitions

* `wheelRecord`: the text of the file

## Main results

* `decode_base64UrlNoPad`: the digest is read back
* `parse_wheelRecord`: the text is read back as one record for each entry
* `wheel_readable`: the archive and the record of a wheel are read back
-/

namespace OpenStrata.Wheel

/-! ## Fields -/

def csvField (value : String) : String :=
  if Text.any (fun c => c == ',' || c == '"' || c == '\n' || c == '\r') value then
    "\"" ++ String.ofList (value.toList.flatMap fun c => if c = '"' then ['"', '"'] else [c]) ++
      "\""
  else value

/-- The value of a lowercase hexadecimal digit. -/
def hexByte (byte : UInt8) : Option UInt8 :=
  if 0x30 ≤ byte ∧ byte ≤ 0x39 then some (byte - 0x30)
  else if 0x61 ≤ byte ∧ byte ≤ 0x66 then some (byte - 0x61 + 10)
  else none

def decodePairs : Bytes → Except IoError Bytes
  | high :: low :: rest => do
    match hexByte high, hexByte low with
    | some high, some low => do
      let bytes ← decodePairs rest
      pure ((high <<< 4 ||| low) :: bytes)
    | _, _ => .error ⟨.invalidData, "invalid hex"⟩
  | _ => pure []

def decodeHex (value : String) : Except IoError Bytes :=
  if (utf8 value).length % 2 ≠ 0 then .error ⟨.invalidData, "odd hex length"⟩
  else decodePairs (utf8 value)

def TABLE : List Char :=
  "ABCDEFGHIJKLMNOPQRSTUVWXYZabcdefghijklmnopqrstuvwxyz0123456789-_".toList

/-- The character of the low six bits of a number. -/
def tableChar (value : ℕ) : Char := TABLE.getD (value &&& 63) 'A'

/-- `chunks(3)`. -/
def chunks : Bytes → List Bytes
  | a :: b :: c :: rest => [a, b, c] :: chunks rest
  | [] => []
  | short => [short]

/-- The characters of a chunk. -/
def encodeChunk (chunk : Bytes) : List Char :=
  let value := ((chunk.getD 0 0).toNat <<< 16) ||| ((chunk.getD 1 0).toNat <<< 8) |||
    (chunk.getD 2 0).toNat
  [tableChar (value >>> 18), tableChar (value >>> 12)] ++
    (if chunk.length > 1 then [tableChar (value >>> 6)] else []) ++
      (if chunk.length > 2 then [tableChar value] else [])

def base64UrlNoPad (bytes : Bytes) : String := String.ofList ((chunks bytes).flatMap encodeChunk)

/-! ## The record -/

section Record

variable (files : String → Except IoError Bytes) (codec : Codec)

/-- The line of an entry. -/
def recordLine (entry : ConsumerArchiveEntry) : Except IoError String := do
  let content ← files entry.source
  let bytes ← decodeHex ((Text.stripPrefix "sha256:" (sha256Hex codec content)).getD "")
  pure (csvField entry.path ++ ",sha256=" ++ base64UrlNoPad bytes ++ "," ++
    toString content.length ++ "\n")

/-- The body of the loop over the entries. -/
def appendLine (output : String) (entry : ConsumerArchiveEntry) : Except IoError String := do
  let line ← recordLine files codec entry
  pure (output ++ line)

/-- Render the wheel `RECORD` file for all entries and the record itself. -/
def wheelRecord (entries : List ConsumerArchiveEntry) (recordPath : String) :
    Except IoError String := do
  validateArchivePath recordPath
  let sorted ← sortedEntries entries
  let output ← sorted.foldlM (appendLine files codec) ""
  pure (output ++ csvField recordPath ++ ",,\n")

end Record

/-! ## Digests are read back -/

section Digests

theorem sextet_tableChar (value : ℕ) : Base64Url.sextet (tableChar value) = some (value % 64) := by
  have hall : ∀ i < 64, Base64Url.sextet (TABLE.getD i 'A') = some i := by
    decide +kernel
  rw [tableChar, show 63 = 2 ^ 6 - 1 from rfl, Nat.and_two_pow_sub_one_eq_mod]
  exact hall _ (Nat.mod_lt _ (by omega))

/-- The three bytes of a chunk as one number. -/
theorem chunk_value (a b c : UInt8) : (a.toNat <<< 16) ||| (b.toNat <<< 8) ||| c.toNat =
    a.toNat * 65536 + b.toNat * 256 + c.toNat := by
  have hb : b.toNat < 256 := b.toNat_lt
  have hc : c.toNat < 256 := c.toNat_lt
  have hhigh : a.toNat <<< 16 ||| b.toNat <<< 8 = (a.toNat * 256 + b.toNat) <<< 8 := by
    rw [← Nat.shiftLeft_add_eq_or_of_lt (by rw [Nat.shiftLeft_eq]; omega)]
    simp only [Nat.shiftLeft_eq]
    omega
  rw [hhigh, ← Nat.shiftLeft_add_eq_or_of_lt (by omega), Nat.shiftLeft_eq]
  omega

variable {a b c : UInt8} {v : ℕ}

/-- The groups of six bits of three bytes, put together again. -/
theorem first_of_value (h : v = a.toNat * 65536 + b.toNat * 256 + c.toNat) :
    Base64Url.first ((v >>> 18) % 64) ((v >>> 12) % 64) = a := by
  have ha : a.toNat < 256 := a.toNat_lt
  have hb : b.toNat < 256 := b.toNat_lt
  have hc : c.toNat < 256 := c.toNat_lt
  have hvalue : v / 2 ^ 18 % 64 * 4 + v / 2 ^ 12 % 64 / 16 = a.toNat := by omega
  rw [Base64Url.first, Nat.shiftRight_eq_div_pow, Nat.shiftRight_eq_div_pow, hvalue,
    UInt8.ofNat_toNat]

theorem second_of_value (h : v = a.toNat * 65536 + b.toNat * 256 + c.toNat) :
    Base64Url.second ((v >>> 12) % 64) ((v >>> 6) % 64) = b := by
  have hb : b.toNat < 256 := b.toNat_lt
  have hc : c.toNat < 256 := c.toNat_lt
  have hvalue : v / 2 ^ 12 % 64 % 16 * 16 + v / 2 ^ 6 % 64 / 4 = b.toNat := by omega
  rw [Base64Url.second, Nat.shiftRight_eq_div_pow, Nat.shiftRight_eq_div_pow, hvalue,
    UInt8.ofNat_toNat]

theorem third_of_value (h : v = a.toNat * 65536 + b.toNat * 256 + c.toNat) :
    Base64Url.third ((v >>> 6) % 64) (v % 64) = c := by
  have hc : c.toNat < 256 := c.toNat_lt
  have hvalue : v / 2 ^ 6 % 64 % 4 * 64 + v % 64 = c.toNat := by omega
  rw [Base64Url.third, Nat.shiftRight_eq_div_pow, hvalue, UInt8.ofNat_toNat]

/-- A digest is read back from its characters. -/
theorem decode_base64UrlNoPad (bytes : Bytes) :
    Base64Url.decode (base64UrlNoPad bytes).toList = some bytes := by
  rw [base64UrlNoPad, String.toList_ofList]
  induction bytes using chunks.induct with
  | case1 a b c rest ih =>
    have hvalue := chunk_value a b c
    set v := (a.toNat <<< 16) ||| (b.toNat <<< 8) ||| c.toNat with hv
    have hchunk : (chunks (a :: b :: c :: rest)).flatMap encodeChunk =
        tableChar (v >>> 18) :: tableChar (v >>> 12) :: tableChar (v >>> 6) :: tableChar v ::
          (chunks rest).flatMap encodeChunk := rfl
    rw [hchunk, Base64Url.decode_group (sextet_tableChar _) (sextet_tableChar _)
      (sextet_tableChar _) (sextet_tableChar _) ih, first_of_value hvalue, second_of_value hvalue,
      third_of_value hvalue]
  | case2 => rfl
  | case3 short hlong hnil =>
    match short with
    | [] => exact absurd rfl hnil
    | [a] =>
      have hvalue := chunk_value a 0 0
      set v := (a.toNat <<< 16) ||| ((0 : UInt8).toNat <<< 8) ||| (0 : UInt8).toNat with hv
      have hchunk : (chunks [a]).flatMap encodeChunk =
          [tableChar (v >>> 18), tableChar (v >>> 12)] := rfl
      have hzero : (v >>> 12) % 64 % 16 = 0 := by
        rw [Nat.shiftRight_eq_div_pow, hvalue]
        have : (0 : UInt8).toNat = 0 := rfl
        omega
      rw [hchunk, Base64Url.decode_one (sextet_tableChar _) (sextet_tableChar _) hzero,
        first_of_value hvalue]
    | [a, b] =>
      have hvalue := chunk_value a b 0
      set v := (a.toNat <<< 16) ||| (b.toNat <<< 8) ||| (0 : UInt8).toNat with hv
      have hchunk : (chunks [a, b]).flatMap encodeChunk =
          [tableChar (v >>> 18), tableChar (v >>> 12), tableChar (v >>> 6)] := rfl
      have hzero : (v >>> 6) % 64 % 4 = 0 := by
        rw [Nat.shiftRight_eq_div_pow, hvalue]
        have : (0 : UInt8).toNat = 0 := rfl
        omega
      rw [hchunk, Base64Url.decode_two (sextet_tableChar _) (sextet_tableChar _)
        (sextet_tableChar _) hzero, first_of_value hvalue, second_of_value hvalue]
    | a :: b :: c :: rest => exact absurd rfl (hlong a b c rest)

/-- The two digits of a byte. -/
def digitByte (n : ℕ) : UInt8 := if n < 10 then UInt8.ofNat (48 + n) else UInt8.ofNat (87 + n)

theorem utf8EncodeChar_hexDigit {n : ℕ} (h : n < 16) :
    String.utf8EncodeChar (Json.hexDigit n) = [digitByte n] := by
  have hall : ∀ i < 16, String.utf8EncodeChar (Json.hexDigit i) = [digitByte i] := by decide
  exact hall n h

theorem hexByte_digitByte {n : ℕ} (h : n < 16) : hexByte (digitByte n) = some (UInt8.ofNat n) := by
  have hall : ∀ i < 16, hexByte (digitByte i) = some (UInt8.ofNat i) := by decide
  exact hall n h

theorem utf8_renderHex (bytes : Bytes) : utf8 (renderHex bytes) =
    bytes.flatMap fun b => [digitByte (b.toNat / 16), digitByte (b.toNat % 16)] := by
  rw [utf8_eq_flatMap, renderHex, String.toList_ofList, List.flatMap_assoc]
  refine List.flatMap_congr fun b _ => ?_
  have hb : b.toNat < 256 := b.toNat_lt
  rw [List.flatMap_cons, List.flatMap_cons, List.flatMap_nil,
    utf8EncodeChar_hexDigit (by omega), utf8EncodeChar_hexDigit (by omega)]
  rfl

theorem join_nibbles (b : UInt8) :
    UInt8.ofNat (b.toNat / 16) <<< 4 ||| UInt8.ofNat (b.toNat % 16) = b := by
  have hb : b.toNat < 256 := b.toNat_lt
  have hhigh : b.toNat / 16 % 256 = b.toNat / 16 := Nat.mod_eq_of_lt (by omega)
  have hlow : b.toNat % 16 % 256 = b.toNat % 16 := Nat.mod_eq_of_lt (by omega)
  apply UInt8.toNat_inj.mp
  rw [UInt8.toNat_or, UInt8.toNat_shiftLeft, UInt8.toNat_ofNat', UInt8.toNat_ofNat', hhigh, hlow]
  show (b.toNat / 16) <<< 4 % 256 ||| b.toNat % 16 = b.toNat
  rw [Nat.mod_eq_of_lt (by rw [Nat.shiftLeft_eq]; omega),
    ← Nat.shiftLeft_add_eq_or_of_lt (Nat.mod_lt _ (by omega)), Nat.shiftLeft_eq]
  omega

/-- The rendering of a digest is decoded to its bytes. -/
theorem decodeHex_renderHex (bytes : Bytes) : decodeHex (renderHex bytes) = .ok bytes := by
  have hpairs : decodePairs (utf8 (renderHex bytes)) = .ok bytes := by
    rw [utf8_renderHex]
    induction bytes with
    | nil => rfl
    | cons b bytes ih =>
      have hb : b.toNat < 256 := b.toNat_lt
      rw [List.flatMap_cons]
      show decodePairs (digitByte (b.toNat / 16) :: digitByte (b.toNat % 16) ::
        bytes.flatMap fun b => [digitByte (b.toNat / 16), digitByte (b.toNat % 16)]) = _
      rw [decodePairs, hexByte_digitByte (by omega), hexByte_digitByte (by omega), ih]
      show Except.ok _ = Except.ok _
      rw [join_nibbles]
  have heven : (utf8 (renderHex bytes)).length % 2 = 0 := by
    rw [utf8_renderHex, List.length_flatMap]
    simp
  rw [decodeHex, heven, if_neg (by simp), hpairs]

end Digests

/-! ## The record is read back -/

section Reading

variable {files : String → Except IoError Bytes} {codec : Codec}

/-- A field is written as the reader of comma-separated records expects it. -/
theorem toList_csvField (value : String) : (csvField value).toList = Csv.written value.toList := by
  have hany : Text.any (fun c => c == ',' || c == '"' || c == '\n' || c == '\r') value =
      value.toList.any Csv.isSpecial := rfl
  rw [csvField, hany, Csv.written]
  split
  · simp only [String.toList_append, String.toList_ofList, Csv.quote, Csv.escape]
    rfl
  · rfl

/-- A text without characters that demand quoting is written plainly. -/
theorem written_plain {cs : List Char} (h : ∀ c ∈ cs, Csv.isSpecial c = false) :
    Csv.written cs = cs := by
  rw [Csv.written, if_neg]
  simpa using h

/-- The fields of an entry's record. -/
def recordFields (path digest size : String) : List (List Char) :=
  [path.toList, ("sha256=" ++ digest).toList, size.toList]

theorem tableChar_plain (value : ℕ) : Csv.isSpecial (tableChar value) = false := by
  have hall : ∀ i < 64, Csv.isSpecial (TABLE.getD i 'A') = false := by decide +kernel
  rw [tableChar, show 63 = 2 ^ 6 - 1 from rfl, Nat.and_two_pow_sub_one_eq_mod]
  exact hall _ (Nat.mod_lt _ (by omega))

theorem base64UrlNoPad_plain (bytes : Bytes) :
    ∀ c ∈ (base64UrlNoPad bytes).toList, Csv.isSpecial c = false := by
  intro c hc
  rw [base64UrlNoPad, String.toList_ofList, List.mem_flatMap] at hc
  obtain ⟨chunk, -, hc⟩ := hc
  rw [encodeChunk] at hc
  simp only [List.mem_append, List.mem_ite_nil_right, List.mem_cons, List.not_mem_nil,
    or_false] at hc
  rcases hc with ((rfl | rfl) | ⟨-, rfl⟩) | ⟨-, rfl⟩ <;> exact tableChar_plain _

theorem toString_plain (n : ℕ) : ∀ c ∈ (toString n).toList, Csv.isSpecial c = false := by
  intro c hc
  have hdigit : c.isDigit = true := Nat.isDigit_of_mem_toDigits (by decide) (by decide)
    (Nat.toList_repr ▸ hc)
  rw [Csv.isSpecial]
  simp only [Bool.or_eq_false_iff, beq_eq_false_iff_ne]
  refine ⟨⟨⟨?_, ?_⟩, ?_⟩, ?_⟩ <;> rintro rfl <;> exact absurd hdigit (by decide)

/-- The line of an entry is its record. -/
theorem recordLine_eq {entry : ConsumerArchiveEntry} {content : Bytes}
    (h : files entry.source = .ok content) : ∃ line, recordLine files codec entry = .ok line ∧
      line.toList = Csv.line (recordFields entry.path
        (base64UrlNoPad (codec.sha256 content)) (toString content.length)) := by
  have hdigest : (Text.stripPrefix "sha256:" (sha256Hex codec content)).getD "" =
      renderHex (codec.sha256 content) := by
    rw [sha256Hex, Text.stripPrefix_append]
    rfl
  refine ⟨csvField entry.path ++ ",sha256=" ++ base64UrlNoPad (codec.sha256 content) ++ "," ++
    toString content.length ++ "\n", ?_, ?_⟩
  · rw [recordLine, h]
    show (decodeHex _ >>= _) = _
    rw [hdigest, decodeHex_renderHex]
    rfl
  · have hmiddle : Csv.written ("sha256=" ++ base64UrlNoPad (codec.sha256 content)).toList =
        "sha256=".toList ++ (base64UrlNoPad (codec.sha256 content)).toList := by
      rw [String.toList_append]
      refine written_plain fun c hc => ?_
      rcases List.mem_append.mp hc with hc | hc
      · exact Ascii.forall_mem_of_all (P := fun c => Csv.isSpecial c = false) (by decide) c hc
      · exact base64UrlNoPad_plain _ c hc
    rw [recordFields, Csv.line, Csv.line, Csv.line, hmiddle, ← toList_csvField,
      written_plain (toString_plain _)]
    simp only [String.toList_append, List.append_assoc]
    rfl

/-- What the reader gives back for an entry: its path, the digest of its source in unpadded
base64url, and the size. -/
def IsRecord (files : String → Except IoError Bytes) (codec : Codec)
    (entry : ConsumerArchiveEntry) (fields : List (List Char)) : Prop :=
  ∃ content digest, files entry.source = .ok content ∧
    Base64Url.decode digest = some (codec.sha256 content) ∧
    fields = [entry.path.toList, "sha256=".toList ++ digest, (toString content.length).toList]

/-- The lines of the entries are their records, behind what was written before. -/
theorem foldlM_recordLine {entries : List ConsumerArchiveEntry} {start output : String}
    (h : entries.foldlM (appendLine files codec) start = .ok output) :
    ∃ table, List.Forall₂ (IsRecord files codec) entries table ∧ (∀ r ∈ table, r ≠ []) ∧
      output.toList = start.toList ++ table.flatMap Csv.line := by
  induction entries generalizing start with
  | nil =>
    cases h
    exact ⟨[], List.Forall₂.nil, by simp, (List.append_nil _).symm⟩
  | cons entry entries ih =>
    rw [List.foldlM_cons] at h
    cases hsource : files entry.source with
    | error e =>
      change ((recordLine files codec entry >>= _) >>= _) = _ at h
      rw [recordLine, hsource] at h
      cases h
    | ok content =>
      obtain ⟨line, hline, htext⟩ := @recordLine_eq _ codec _ _ hsource
      change ((recordLine files codec entry >>= _) >>= _) = _ at h
      rw [hline] at h
      obtain ⟨table, htable, hne, houtput⟩ := ih h
      refine ⟨recordFields entry.path (base64UrlNoPad (codec.sha256 content))
        (toString content.length) :: table, List.Forall₂.cons ?_ htable, ?_, ?_⟩
      · refine ⟨content, _, hsource, decode_base64UrlNoPad _, ?_⟩
        rw [recordFields, String.toList_append]
      · rintro r (_ | ⟨_, hr⟩)
        · exact List.cons_ne_nil _ _
        · exact hne r hr
      · rw [houtput, String.toList_append, htext, List.flatMap_cons, List.append_assoc]

/-- The record file is read back: a record for each entry, and one for the file itself. -/
theorem parse_wheelRecord {entries : List ConsumerArchiveEntry} {recordPath text : String}
    (h : wheelRecord files codec entries recordPath = .ok text) : ∃ sorted table,
      sortedEntries entries = .ok sorted ∧
      Csv.parse text.toList = some (table ++ [[recordPath.toList, [], []]]) ∧
      List.Forall₂ (IsRecord files codec) sorted table := by
  rw [wheelRecord] at h
  cases hpath : validateArchivePath recordPath with
  | error e =>
    rw [hpath] at h
    cases h
  | ok _ =>
    rw [hpath] at h
    cases hsorted : sortedEntries entries with
    | error e =>
      change (sortedEntries entries >>= _) = _ at h
      rw [hsorted] at h
      cases h
    | ok sorted =>
      change (sortedEntries entries >>= _) = _ at h
      rw [hsorted] at h
      cases hlines : sorted.foldlM (appendLine files codec) "" with
      | error e =>
        change (sorted.foldlM (appendLine files codec) "" >>= _) = _ at h
        rw [hlines] at h
        cases h
      | ok output =>
        change (sorted.foldlM (appendLine files codec) "" >>= _) = _ at h
        rw [hlines] at h
        cases h
        obtain ⟨table, htable, hne, houtput⟩ := foldlM_recordLine hlines
        have hlast : (csvField recordPath ++ ",,\n").toList =
            Csv.line [recordPath.toList, [], []] := by
          rw [String.toList_append, toList_csvField]
          rfl
        have htext : (output ++ csvField recordPath ++ ",,\n").toList =
            (table ++ [[recordPath.toList, [], []]]).flatMap Csv.line := by
          rw [String.append_assoc, String.toList_append, hlast, houtput, List.flatMap_append,
            List.flatMap_singleton]
          rfl
        refine ⟨sorted, table, rfl, ?_, htable⟩
        rw [htext]
        refine Csv.parse_lines fun r hr => ?_
        rcases List.mem_append.mp hr with hr | hr
        · exact hne r hr
        · rw [List.mem_singleton.mp hr]
          exact List.cons_ne_nil _ _

/-- The archive of a wheel is read back, by the reader of the ZIP format, as its sorted entries with
their names, sizes, checksums and contents, and the record file as a record for each of them. -/
theorem wheel_readable (files : String → Except IoError Bytes) (crc : Bytes → UInt32)
    (codec : Codec) (entries : List ConsumerArchiveEntry) :
    (∀ archive result, packWheel files crc codec entries = .ok (archive, result) →
      ∃ sorted members, sorted.Perm entries ∧ sorted.Pairwise (fun a b => a.path < b.path) ∧
        Zip.read archive = some members ∧ List.Forall₂ (IsMember files crc) sorted members) ∧
    ∀ recordPath text, wheelRecord files codec entries recordPath = .ok text →
      ∃ sorted table, sorted.Perm entries ∧ sorted.Pairwise (fun a b => a.path < b.path) ∧
        Csv.parse text.toList = some (table ++ [[recordPath.toList, [], []]]) ∧
        List.Forall₂ (IsRecord files codec) sorted table := by
  constructor
  · intro archive result h
    obtain ⟨sorted, members, hsorted, hread, hmembers⟩ := read_packWheel h
    obtain ⟨hperm, horder⟩ := sortedEntries_ok hsorted
    exact ⟨sorted, members, hperm, horder, hread, hmembers⟩
  · intro recordPath text h
    obtain ⟨sorted, table, hsorted, hparse, htable⟩ := parse_wheelRecord h
    obtain ⟨hperm, horder⟩ := sortedEntries_ok hsorted
    exact ⟨sorted, table, hperm, horder, hparse, htable⟩

/-- A source of one byte, and a hash and a checksum that are constant. -/
def sampleFiles : String → Except IoError Bytes := fun _ => .ok [0x61]

def sampleCodec : Codec := ⟨fun _ => [0xff, 0x01], fun _ => none⟩

def sampleEntries : List ConsumerArchiveEntry := [⟨"source", "a,b"⟩]

theorem wheel_readable_sample :
    (∃ archive members, packWheel sampleFiles (fun _ => 7) sampleCodec sampleEntries =
        .ok (archive, ⟨sha256Hex sampleCodec archive, archive.length, 1⟩) ∧
      Zip.read archive = some members ∧ members.length = 1) ∧
    ∃ text table, wheelRecord sampleFiles sampleCodec sampleEntries "RECORD" = .ok text ∧
      Csv.parse text.toList = some table ∧ table.length = 2 := by
  obtain ⟨archive, hpack⟩ : ∃ archive, packWheel sampleFiles (fun _ => 7) sampleCodec
      sampleEntries = .ok (archive, ⟨sha256Hex sampleCodec archive, archive.length, 1⟩) :=
    ⟨_, rfl⟩
  obtain ⟨text, hrecord⟩ : ∃ text, wheelRecord sampleFiles sampleCodec sampleEntries "RECORD" =
      .ok text := ⟨_, rfl⟩
  have h := wheel_readable sampleFiles (fun _ => 7) sampleCodec sampleEntries
  obtain ⟨sorted, members, hperm, -, hread, hmembers⟩ := h.1 _ _ hpack
  obtain ⟨sorted', table, hperm', -, hparse, htable⟩ := h.2 _ _ hrecord
  refine ⟨⟨archive, members, hpack, hread, ?_⟩, text, _, hrecord, hparse, ?_⟩
  · rw [← hmembers.length_eq, hperm.length_eq]
    rfl
  · rw [List.length_append, ← htable.length_eq, hperm'.length_eq]
    rfl

end Reading

end OpenStrata.Wheel
