import Mathlib.Tactic.IntervalCases
import OpenStrata.Core.Error
import OpenStrata.Core.Text

/-!
# Content digests

Artifacts, manifests and compositions are identified by `sha256:<hex>`. The hash function and
the JSON parser belong to third-party crates and are parameters here; the rendering of a
digest is the program's own.

## Main definitions

* `Bytes`: file contents
* `Codec`: the hash function and the JSON parser
* `sha256Hex`: a rendered digest
* `isSha256Ref`, `validateFullDigest`: the two well-formedness checks of a rendered digest

## Main results

* `isSha256Ref_sha256Hex`: a rendered digest of 32 bytes is well formed
* `validateFullDigest_append`: 64 lowercase digits behind the algorithm are a canonical digest
-/

namespace OpenStrata

/-- The content of a file. -/
abbrev Bytes := List UInt8

/-- The functions of the `sha2` and `serde_json` crates. -/
structure Codec where
  /-- SHA-256, as its digest bytes. -/
  sha256 : Bytes → Bytes
  /-- `serde_json::from_slice`. -/
  parse : Bytes → Option Json

/-- Two hexadecimal digits per byte. -/
def renderHex (bytes : Bytes) : String :=
  String.ofList (bytes.flatMap fun b => [Json.hexDigit (b.toNat / 16), Json.hexDigit (b.toNat % 16)])

/-- The value of a hexadecimal digit. -/
def hexValue (c : Char) : Nat :=
  if c.isDigit then c.toNat - '0'.toNat else c.toNat - 'a'.toNat + 10

/-- The bytes that pairs of hexadecimal digits stand for. -/
def bytesOfHex : List Char → Bytes
  | a :: b :: rest => UInt8.ofNat (16 * hexValue a + hexValue b) :: bytesOfHex rest
  | _ => []

/-- The bytes of a text. -/
def utf8 (s : String) : Bytes := s.toUTF8.data.toList

/-- `serde_json::to_vec`. -/
def jsonBytes (value : Json) : Bytes := utf8 value.render

/-- `digest::sha256_hex`: the rendered digest of a content. -/
def sha256Hex (codec : Codec) (bytes : Bytes) : String :=
  "sha256:" ++ renderHex (codec.sha256 bytes)

/-- A well-formed `sha256:<64 hex>` reference; uppercase digits are accepted. -/
def isSha256Ref (s : String) : Bool :=
  match Text.stripPrefix "sha256:" s with
  | some hex => hex.length == 64 && Text.all Text.isHexDigit hex
  | none => false

/-- `validate_full_digest`: a canonical digest, with lowercase digits only. -/
def validateFullDigest (field value : String) : Result Unit := do
  let hex ← Result.okOr
    (.config (field ++ " must be a full sha256:<64-hex> artifact identity"))
    (Text.stripPrefix "sha256:" value)
  Result.failIf (hex.length ≠ 64 ∨ ¬ Text.all Text.isLowerHexDigit hex)
    (.config (field ++ " must be a full sha256:<64-hex> artifact identity"))

theorem isLowerHexDigit_hexDigit {n : Nat} (h : n < 16) :
    Text.isLowerHexDigit (Json.hexDigit n) := by
  interval_cases n <;> decide

theorem length_renderHex (bytes : Bytes) : (renderHex bytes).length = 2 * bytes.length := by
  rw [renderHex, String.length_ofList, List.length_flatMap]
  induction bytes with
  | nil => rfl
  | cons b bs ih =>
    simp only [List.map_cons, List.sum_cons, List.length_cons, List.length_nil] at ih ⊢
    omega

/-- A rendering has lowercase digits only. -/
theorem all_lower_renderHex (bytes : Bytes) :
    Text.all Text.isLowerHexDigit (renderHex bytes) := by
  rw [Text.all, renderHex, String.toList_ofList, List.all_eq_true]
  intro c hc
  obtain ⟨b, -, hb⟩ := List.mem_flatMap.mp hc
  have hlt : b.toNat < 256 := b.toNat_lt
  simp only [List.mem_cons, List.not_mem_nil, or_false] at hb
  rcases hb with rfl | rfl
  · exact isLowerHexDigit_hexDigit (by omega)
  · exact isLowerHexDigit_hexDigit (by omega)

theorem all_renderHex (bytes : Bytes) : Text.all Text.isHexDigit (renderHex bytes) :=
  Text.all_imp (fun _ => Text.isHexDigit_of_lower) (all_lower_renderHex bytes)

theorem isSha256Ref_append {hex : String} (hlength : hex.length = 64)
    (hhex : Text.all Text.isHexDigit hex) : isSha256Ref ("sha256:" ++ hex) := by
  rw [isSha256Ref, Text.stripPrefix_append]
  simp [hlength, hhex]

theorem validateFullDigest_append {hex : String} (field : String) (hlength : hex.length = 64)
    (hlower : Text.all Text.isLowerHexDigit hex) :
    validateFullDigest field ("sha256:" ++ hex) = .ok () := by
  rw [validateFullDigest, Text.stripPrefix_append]
  exact Result.bind_ok.mpr ⟨hex, rfl, Result.failIf_ok.mpr (by simp [hlength, hlower])⟩

/-- The rendered digest of a content is well formed when the hash has 32 bytes. -/
theorem isSha256Ref_sha256Hex {codec : Codec} {bytes : Bytes}
    (h : (codec.sha256 bytes).length = 32) : isSha256Ref (sha256Hex codec bytes) := by
  exact isSha256Ref_append (by rw [length_renderHex, h]) (all_renderHex _)

end OpenStrata
