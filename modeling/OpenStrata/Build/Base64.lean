import OpenStrata.Build.WheelRecord

/-!
# Signed payloads in base64url

The policy reads the claims of an identity token with a base64url decoder of its own, which shifts
the bits of the characters through an accumulator. It accepts what the encoder of the wheel record
writes and nothing else, so that a payload has one spelling.

## Main definitions

* `decodeBase64url`: the decoder

## Main results

* `decodeBase64url_eq`: the decoder reads groups of four characters
* `decodeBase64url_iff`: the accepted texts are the encoded ones
-/

namespace OpenStrata.Base64

open Base64Url (sextet first second third decode induction_groups)
open Wheel (tableChar base64UrlNoPad chunks encodeChunk)

/-! ## The decoder -/

/-- The six bits that a byte stands for. -/
def sextetOf (byte : UInt8) : Option ℕ :=
  if 0x41 ≤ byte ∧ byte ≤ 0x5A then some (byte - 0x41).toNat
  else if 0x61 ≤ byte ∧ byte ≤ 0x7A then some (byte - 0x61 + 26).toNat
  else if 0x30 ≤ byte ∧ byte ≤ 0x39 then some (byte - 0x30 + 52).toNat
  else if byte = 0x2D then some 62
  else if byte = 0x5F then some 63
  else none

/-- The loop over the bytes. The accumulator holds fewer than eight bits, so that it has room for
six more. -/
def decodeFrom (accumulator bits : ℕ) : Bytes → Option Bytes
  | [] => if accumulator ≠ 0 then none else some []
  | byte :: rest => do
    let decoded ← sextetOf byte
    let accumulator := accumulator <<< 6 ||| decoded
    if 8 ≤ bits + 6 then
      let bits := bits + 6 - 8
      let output ← decodeFrom (accumulator &&& ((1 <<< bits) - 1)) bits rest
      some (UInt8.ofNat (accumulator >>> bits) :: output)
    else decodeFrom accumulator (bits + 6) rest

def decodeBase64url (value : String) : Option Bytes :=
  if (utf8 value).length % 4 = 1 then none else decodeFrom 0 0 (utf8 value)

/-! ## The accumulator -/

section Accumulator

variable {byte a b c d : UInt8} {v w x y z acc k : ℕ} {rest : Bytes}

theorem shift_or (hv : v < 64) : acc <<< 6 ||| v = acc * 64 + v := by
  rw [← Nat.shiftLeft_add_eq_or_of_lt (show v < 2 ^ 6 by omega), Nat.shiftLeft_eq]

/-- Six bits are taken in. -/
theorem decodeFrom_wait (h : sextetOf byte = some v) (hv : v < 64) :
    decodeFrom acc 0 (byte :: rest) = decodeFrom (acc * 64 + v) 6 rest := by
  rw [decodeFrom, h]
  exact congrArg (fun acc => decodeFrom acc 6 rest) (shift_or hv)

/-- Eight bits go out, and so many stay. -/
theorem decodeFrom_emit (h : sextetOf byte = some v) (hv : v < 64) :
    decodeFrom acc (k + 2) (byte :: rest) = (decodeFrom ((acc * 64 + v) % 2 ^ k) k rest).map
      (UInt8.ofNat ((acc * 64 + v) / 2 ^ k) :: ·) := by
  have hmask : 1 <<< k - 1 = 2 ^ k - 1 := by rw [Nat.one_shiftLeft]
  have hpush : decodeFrom acc (k + 2) (byte :: rest) =
      (decodeFrom ((acc <<< 6 ||| v) &&& (1 <<< k - 1)) k rest).bind fun output =>
        some (UInt8.ofNat ((acc <<< 6 ||| v) >>> k) :: output) := by
    rw [decodeFrom, h]
    simp
  rw [hpush, shift_or hv, hmask, Nat.and_two_pow_sub_one_eq_mod, Nat.shiftRight_eq_div_pow]
  exact (Option.map_eq_bind).symm

variable (ha : sextetOf a = some w) (hw : w < 64) (hb : sextetOf b = some x) (hx : x < 64)
  (hc : sextetOf c = some y) (hy : y < 64) (hd : sextetOf d = some z) (hz : z < 64)

include ha hw hb hx

theorem decodeFrom_pair : decodeFrom 0 0 (a :: b :: rest) =
    (decodeFrom (x % 16) 4 rest).map (first w x :: ·) := by
  have hbyte : (w * 64 + x) / 2 ^ 4 = w * 4 + x / 16 := by omega
  have hleft : (w * 64 + x) % 2 ^ 4 = x % 16 := by omega
  rw [decodeFrom_wait ha hw, decodeFrom_emit (k := 4) hb hx, Nat.zero_mul, Nat.zero_add, hbyte,
    hleft]
  rfl

include hc hy

theorem decodeFrom_triple : decodeFrom 0 0 (a :: b :: c :: rest) =
    (decodeFrom (y % 4) 2 rest).map fun output => first w x :: second x y :: output := by
  have hbyte : (x % 16 * 64 + y) / 2 ^ 2 = x % 16 * 16 + y / 4 := by omega
  have hleft : (x % 16 * 64 + y) % 2 ^ 2 = y % 4 := by omega
  rw [decodeFrom_pair ha hw hb hx, decodeFrom_emit (k := 2) hc hy, hbyte, hleft, Option.map_map]
  rfl

include hd hz

theorem decodeFrom_group : decodeFrom 0 0 (a :: b :: c :: d :: rest) =
    (decodeFrom 0 0 rest).map fun output => first w x :: second x y :: third y z :: output := by
  have hbyte : (y % 4 * 64 + z) / 2 ^ 0 = y % 4 * 64 + z := by omega
  have hleft : (y % 4 * 64 + z) % 2 ^ 0 = 0 := Nat.mod_one _
  rw [decodeFrom_triple ha hw hb hx hc hy, decodeFrom_emit (k := 0) hd hz, hbyte, hleft,
    Option.map_map]
  rfl

end Accumulator

/-! ## Bytes and characters -/

section Characters

variable {ch : Char} {v : ℕ}

/-- The byte of an ASCII character. -/
def byteOf (ch : Char) : UInt8 := UInt8.ofNat ch.toNat

theorem utf8EncodeChar_ascii (h : ch.toNat < 128) : String.utf8EncodeChar ch = [byteOf ch] := by
  have hle : ch.val.toNat ≤ 0x7f := Nat.le_of_lt_succ h
  unfold String.utf8EncodeChar
  dsimp only
  rw [if_pos hle]
  rfl

/-- On ASCII characters the decoder and the alphabet agree. -/
theorem sextetOf_byteOf (h : ch.toNat < 128) : sextetOf (byteOf ch) = sextet ch := by
  have hall : ∀ n < 128, sextetOf (UInt8.ofNat n) = sextet (Char.ofNat n) := by decide +kernel
  have := hall ch.toNat h
  rwa [Char.ofNat_toNat] at this

theorem sextetOf_eq_none {byte : UInt8} (h : 0x80 ≤ byte.toNat) : sextetOf byte = none := by
  have hne : ∀ b : UInt8, b.toNat < 0x80 → byte ≠ b := by
    rintro b hb rfl
    omega
  have hle : ∀ b : UInt8, b.toNat < 0x80 → ¬ byte ≤ b := by
    intro b hb hle
    have := UInt8.le_iff_toNat_le.mp hle
    omega
  rw [sextetOf, if_neg fun h => hle _ (by decide) h.2, if_neg fun h => hle _ (by decide) h.2,
    if_neg fun h => hle _ (by decide) h.2, if_neg (hne _ (by decide)), if_neg (hne _ (by decide))]

theorem lt_of_sextet (h : sextet ch = some v) : ch.toNat < 128 := by
  have hle : ∀ c : Char, c.toNat < 128 → ch ≤ c → ch.toNat < 128 := fun c hc hle =>
    lt_of_le_of_lt (UInt32.le_iff_toNat_le.mp hle) hc
  unfold sextet at h
  split_ifs at h with hupper hlower hdigit hminus hline
  · exact hle 'Z' (by decide) hupper.2
  · exact hle 'z' (by decide) hlower.2
  · exact hle '9' (by decide) hdigit.2
  · rw [hminus]
    decide
  · rw [hline]
    decide

/-- A character of the alphabet is the one that the table has for its value. -/
theorem tableChar_of_sextet (h : sextet ch = some v) : v < 64 ∧ tableChar v = ch := by
  have hall : ∀ n < 128, ∀ v ∈ sextet (Char.ofNat n), v < 64 ∧ tableChar v = Char.ofNat n := by
    decide +kernel
  have := hall ch.toNat (lt_of_sextet h)
  rw [Char.ofNat_toNat] at this
  exact this v h

/-- A character outside of the alphabet has a byte outside of it. -/
theorem exists_sextetOf_eq_none (h : sextet ch = none) :
    ∃ byte ∈ String.utf8EncodeChar ch, sextetOf byte = none := by
  by_cases hascii : ch.toNat < 128
  · rw [utf8EncodeChar_ascii hascii]
    exact ⟨byteOf ch, List.mem_singleton_self _, (sextetOf_byteOf hascii).trans h⟩
  · obtain ⟨byte, hbyte⟩ := List.exists_mem_of_ne_nil _ (String.utf8EncodeChar_ne_nil (c := ch))
    exact ⟨byte, hbyte, sextetOf_eq_none
      (Utf8.le_of_mem_utf8EncodeChar le_rfl (Nat.le_of_not_lt hascii) hbyte)⟩

end Characters

/-! ## The groups of four -/

section Groups

variable {bytes : Bytes} {cs : List Char}

theorem decodeFrom_eq_none {byte : UInt8} (h : sextetOf byte = none) :
    ∀ {bytes : Bytes} {acc bits : ℕ}, byte ∈ bytes → decodeFrom acc bits bytes = none
  | other :: rest, acc, bits, hmem => by
    rw [decodeFrom]
    rcases List.mem_cons.mp hmem with rfl | hmem
    · rw [h]
      rfl
    · cases sextetOf other with
      | none => rfl
      | some v =>
        simp only [Option.bind_eq_bind, Option.bind_some]
        split_ifs
        · rw [decodeFrom_eq_none h hmem]
          rfl
        · exact decodeFrom_eq_none h hmem

theorem decode_eq_none {ch : Char} (h : sextet ch = none) : ch ∈ cs → decode cs = none := by
  induction cs using induction_groups with
  | nil => simp
  | one => simp [decode]
  | two a b =>
    intro hmem
    rcases List.mem_pair.mp hmem with rfl | rfl <;> simp [decode, h]
  | three a b c =>
    intro hmem
    simp only [List.mem_cons, List.not_mem_nil, or_false] at hmem
    rcases hmem with rfl | rfl | rfl <;> simp [decode, h]
  | group a b c d rest ih =>
    intro hmem
    simp only [List.mem_cons] at hmem
    rcases hmem with rfl | rfl | rfl | rfl | hmem
    · simp [decode, h]
    · simp [decode, h]
    · simp [decode, h]
    · simp [decode, h]
    · simp [decode, ih hmem]

theorem decode_eq_none_of_length (h : cs.length % 4 = 1) : decode cs = none := by
  induction cs using induction_groups with
  | nil => cases h
  | one => rfl
  | two a b => cases h
  | three a b c => cases h
  | group a b c d rest ih =>
    simp only [List.length_cons] at h
    simp [decode, ih (by omega)]

/-- The value of the byte of a character. -/
theorem sextetOf_of_sextet {ch : Char} {v : ℕ} (h : sextet ch = some v) :
    sextetOf (byteOf ch) = some v ∧ v < 64 :=
  ⟨(sextetOf_byteOf (lt_of_sextet h)).trans h, (tableChar_of_sextet h).1⟩

/-- The decoder reads groups of four characters. -/
theorem decodeFrom_map (h : ∀ ch ∈ cs, ∃ v, sextet ch = some v) (hlength : cs.length % 4 ≠ 1) :
    decodeFrom 0 0 (cs.map byteOf) = decode cs := by
  induction cs using induction_groups with
  | nil => rfl
  | one => exact absurd rfl hlength
  | two a b =>
    obtain ⟨w, ha⟩ := h a (by simp)
    obtain ⟨x, hb⟩ := h b (by simp)
    obtain ⟨ha', hw⟩ := sextetOf_of_sextet ha
    obtain ⟨hb', hx⟩ := sextetOf_of_sextet hb
    rw [List.map_cons, List.map_cons, decodeFrom_pair ha' hw hb' hx]
    -- the four bits that are left over have to be zero
    by_cases hzero : x % 16 = 0 <;> simp [decode, decodeFrom, ha, hb, hzero]
  | three a b c =>
    obtain ⟨w, ha⟩ := h a (by simp)
    obtain ⟨x, hb⟩ := h b (by simp)
    obtain ⟨y, hc⟩ := h c (by simp)
    obtain ⟨ha', hw⟩ := sextetOf_of_sextet ha
    obtain ⟨hb', hx⟩ := sextetOf_of_sextet hb
    obtain ⟨hc', hy⟩ := sextetOf_of_sextet hc
    rw [List.map_cons, List.map_cons, List.map_cons, decodeFrom_triple ha' hw hb' hx hc' hy]
    by_cases hzero : y % 4 = 0 <;> simp [decode, decodeFrom, ha, hb, hc, hzero]
  | group a b c d rest ih =>
    obtain ⟨w, ha⟩ := h a (by simp)
    obtain ⟨x, hb⟩ := h b (by simp)
    obtain ⟨y, hc⟩ := h c (by simp)
    obtain ⟨z, hd⟩ := h d (by simp)
    obtain ⟨ha', hw⟩ := sextetOf_of_sextet ha
    obtain ⟨hb', hx⟩ := sextetOf_of_sextet hb
    obtain ⟨hc', hy⟩ := sextetOf_of_sextet hc
    obtain ⟨hd', hz⟩ := sextetOf_of_sextet hd
    have hrest : decodeFrom 0 0 (rest.map byteOf) = decode rest := by
      refine ih (fun ch hch => h ch (by simp [hch])) ?_
      simp only [List.length_cons] at hlength
      omega
    rw [List.map_cons, List.map_cons, List.map_cons, List.map_cons,
      decodeFrom_group ha' hw hb' hx hc' hy hd' hz, hrest]
    cases hdecode : decode rest <;> simp [decode, ha, hb, hc, hd, hdecode]

theorem utf8_eq_map {value : String} (h : ∀ ch ∈ value.toList, ∃ v, sextet ch = some v) :
    utf8 value = value.toList.map byteOf := by
  rw [utf8_eq_flatMap]
  generalize value.toList = cs at h
  induction cs with
  | nil => rfl
  | cons ch cs ih =>
    obtain ⟨v, hv⟩ := h ch List.mem_cons_self
    rw [List.flatMap_cons, utf8EncodeChar_ascii (lt_of_sextet hv),
      ih fun ch' hch' => h ch' (List.mem_cons_of_mem _ hch')]
    rfl

theorem decodeBase64url_eq (value : String) : decodeBase64url value = decode value.toList := by
  rw [decodeBase64url]
  by_cases hall : ∀ ch ∈ value.toList, ∃ v, sextet ch = some v
  · rw [utf8_eq_map hall, List.length_map]
    by_cases hlength : value.toList.length % 4 = 1
    · rw [if_pos hlength, decode_eq_none_of_length hlength]
    · rw [if_neg hlength, decodeFrom_map hall hlength]
  · push Not at hall
    obtain ⟨ch, hch, hnone⟩ := hall
    have hsextet : sextet ch = none := Option.eq_none_iff_forall_ne_some.mpr hnone
    obtain ⟨byte, hbyte, hoff⟩ := exists_sextetOf_eq_none hsextet
    have hmem : byte ∈ utf8 value := by
      rw [utf8_eq_flatMap]
      exact List.mem_flatMap.mpr ⟨ch, hch, hbyte⟩
    rw [decodeFrom_eq_none hoff hmem, ite_self, decode_eq_none hsextet hch]

end Groups

/-! ## One spelling -/

section Spelling

variable {w x y z : ℕ} (hw : w < 64) (hx : x < 64) (hy : y < 64) (hz : z < 64)

/-- The table is read at the last six bits. -/
theorem tableChar_congr {m n : ℕ} (h : m % 64 = n % 64) : tableChar m = tableChar n := by
  have hmask : ∀ k, k &&& 63 = k % 64 := fun k => Nat.and_two_pow_sub_one_eq_mod k 6
  rw [tableChar, tableChar, hmask, hmask, h]

include hx hy hz

theorem tableChar_of_group :
    tableChar ((w * 262144 + x * 4096 + y * 64 + z) >>> 18) = tableChar w ∧
      tableChar ((w * 262144 + x * 4096 + y * 64 + z) >>> 12) = tableChar x ∧
      tableChar ((w * 262144 + x * 4096 + y * 64 + z) >>> 6) = tableChar y ∧
      tableChar (w * 262144 + x * 4096 + y * 64 + z) = tableChar z := by
  simp only [Nat.shiftRight_eq_div_pow]
  exact ⟨tableChar_congr (by omega), tableChar_congr (by omega), tableChar_congr (by omega),
    tableChar_congr (by omega)⟩

include hw

/-- The bytes of a group hold its values. -/
theorem value_of_group :
    ((first w x).toNat <<< 16) ||| ((second x y).toNat <<< 8) ||| (third y z).toNat =
      w * 262144 + x * 4096 + y * 64 + z := by
  rw [Wheel.chunk_value, first, second, third, Utf8.toNat_ofNat_of_lt (by omega),
    Utf8.toNat_ofNat_of_lt (by omega), Utf8.toNat_ofNat_of_lt (by omega)]
  omega

theorem encodeChunk_group : encodeChunk [first w x, second x y, third y z] =
    [tableChar w, tableChar x, tableChar y, tableChar z] := by
  obtain ⟨hfirst, hsecond, hthird, hfourth⟩ := tableChar_of_group hx hy hz
  have hvalue := value_of_group hw hx hy hz
  simp only [encodeChunk, List.getD_cons_zero, List.getD_cons_succ]
  rw [hvalue, hfirst, hsecond, hthird, hfourth]
  rfl

omit hz in
theorem encodeChunk_two (hzero : y % 4 = 0) : encodeChunk [first w x, second x y] =
    [tableChar w, tableChar x, tableChar y] := by
  have hthird : third y 0 = 0 := by rw [third, hzero]; rfl
  obtain ⟨hfirst, hsecond, hlast, -⟩ := tableChar_of_group hx hy (show 0 < 64 by omega)
  have hvalue := value_of_group hw hx hy (show 0 < 64 by omega)
  rw [hthird] at hvalue
  simp only [encodeChunk, List.getD_cons_zero, List.getD_cons_succ, List.getD_nil]
  rw [hvalue, hfirst, hsecond, hlast]
  rfl

omit hy hz in
theorem encodeChunk_one (hzero : x % 16 = 0) :
    encodeChunk [first w x] = [tableChar w, tableChar x] := by
  have hsecond : second x 0 = 0 := by rw [second, hzero]; rfl
  have hthird : third 0 0 = 0 := rfl
  obtain ⟨hfirst, hlast, -, -⟩ :=
    tableChar_of_group hx (show 0 < 64 by omega) (show 0 < 64 by omega)
  have hvalue := value_of_group hw hx (show 0 < 64 by omega) (show 0 < 64 by omega)
  rw [hsecond, hthird] at hvalue
  simp only [encodeChunk, List.getD_cons_zero, List.getD_cons_succ, List.getD_nil]
  rw [hvalue, hfirst, hlast]
  rfl

end Spelling

/-- A text is the encoding of what it is read as. -/
theorem encode_of_decode {cs : List Char} {bytes : Bytes} (h : decode cs = some bytes) :
    (chunks bytes).flatMap encodeChunk = cs := by
  induction cs using induction_groups generalizing bytes with
  | nil =>
    obtain rfl := Option.some.inj h
    rfl
  | one => cases h
  | two a b =>
    simp only [decode, Option.bind_eq_bind, Option.bind_eq_some_iff] at h
    obtain ⟨w, ha, x, hb, h⟩ := h
    obtain ⟨hw, hwa⟩ := tableChar_of_sextet ha
    obtain ⟨hx, hxb⟩ := tableChar_of_sextet hb
    split_ifs at h with hzero
    obtain rfl := Option.some.inj h
    show encodeChunk [first w x] ++ [] = _
    rw [encodeChunk_one hw hx hzero, hwa, hxb, List.append_nil]
  | three a b c =>
    simp only [decode, Option.bind_eq_bind, Option.bind_eq_some_iff] at h
    obtain ⟨w, ha, x, hb, y, hc, h⟩ := h
    obtain ⟨hw, hwa⟩ := tableChar_of_sextet ha
    obtain ⟨hx, hxb⟩ := tableChar_of_sextet hb
    obtain ⟨hy, hyc⟩ := tableChar_of_sextet hc
    split_ifs at h with hzero
    obtain rfl := Option.some.inj h
    show encodeChunk [first w x, second x y] ++ [] = _
    rw [encodeChunk_two hw hx hy hzero, hwa, hxb, hyc, List.append_nil]
  | group a b c d rest ih =>
    simp only [decode, Option.bind_eq_bind, Option.bind_eq_some_iff] at h
    obtain ⟨w, ha, x, hb, y, hc, z, hd, bytes', hrest, h⟩ := h
    obtain ⟨hw, hwa⟩ := tableChar_of_sextet ha
    obtain ⟨hx, hxb⟩ := tableChar_of_sextet hb
    obtain ⟨hy, hyc⟩ := tableChar_of_sextet hc
    obtain ⟨hz, hzd⟩ := tableChar_of_sextet hd
    obtain rfl := Option.some.inj h
    show encodeChunk [first w x, second x y, third y z] ++ (chunks bytes').flatMap encodeChunk = _
    rw [encodeChunk_group hw hx hy hz, hwa, hxb, hyc, hzd, ih hrest]
    rfl

/-- The accepted texts are the encoded ones: every byte string is read back, and from no other
text. -/
theorem decodeBase64url_iff (value : String) (bytes : Bytes) :
    decodeBase64url value = some bytes ↔ base64UrlNoPad bytes = value := by
  rw [decodeBase64url_eq]
  constructor
  · intro h
    rw [base64UrlNoPad, encode_of_decode h, String.ofList_toList]
  · rintro rfl
    exact Wheel.decode_base64UrlNoPad bytes

end OpenStrata.Base64
