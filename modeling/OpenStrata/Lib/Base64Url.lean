import Mathlib.Data.Nat.Bitwise
import Mathlib.Data.List.Basic

/-!
# Base64 with the URL alphabet

The reader of unpadded base64url of RFC 4648: four characters for three bytes, and two or three
characters for one or two last bytes, whose unused bits are zero.

## Main results

* `decode_group`, `decode_two`, `decode_one`: the groups of characters
* `induction_groups`: induction over groups of four characters
-/

namespace Base64Url

/-- The value of a character of the alphabet. -/
def sextet (c : Char) : Option ℕ :=
  if 'A' ≤ c ∧ c ≤ 'Z' then some (c.toNat - 'A'.toNat)
  else if 'a' ≤ c ∧ c ≤ 'z' then some (c.toNat - 'a'.toNat + 26)
  else if '0' ≤ c ∧ c ≤ '9' then some (c.toNat - '0'.toNat + 52)
  else if c = '-' then some 62
  else if c = '_' then some 63
  else none

/-- The first byte of a group, from its first two characters. -/
def first (w x : ℕ) : UInt8 := UInt8.ofNat (w * 4 + x / 16)

def second (x y : ℕ) : UInt8 := UInt8.ofNat (x % 16 * 16 + y / 4)

def third (y z : ℕ) : UInt8 := UInt8.ofNat (y % 4 * 64 + z)

/-- The bytes that a text without padding stands for. -/
def decode : List Char → Option (List UInt8)
  | [] => some []
  | [_] => none
  | [a, b] => do
    let w ← sextet a
    let x ← sextet b
    if x % 16 = 0 then some [first w x] else none
  | [a, b, c] => do
    let w ← sextet a
    let x ← sextet b
    let y ← sextet c
    if y % 4 = 0 then some [first w x, second x y] else none
  | a :: b :: c :: d :: rest => do
    let w ← sextet a
    let x ← sextet b
    let y ← sextet c
    let z ← sextet d
    let bytes ← decode rest
    some (first w x :: second x y :: third y z :: bytes)

/-- Induction over groups of four characters. -/
@[elab_as_elim]
theorem induction_groups {motive : List Char → Prop} (nil : motive []) (one : ∀ a, motive [a])
    (two : ∀ a b, motive [a, b]) (three : ∀ a b c, motive [a, b, c])
    (group : ∀ a b c d rest, motive rest → motive (a :: b :: c :: d :: rest)) :
    ∀ cs, motive cs
  | [] => nil
  | [a] => one a
  | [a, b] => two a b
  | [a, b, c] => three a b c
  | a :: b :: c :: d :: rest =>
    group a b c d rest (induction_groups nil one two three group rest)

section Groups

variable {a b c d : Char} {w x y z : ℕ} {rest : List Char} {bytes : List UInt8}

theorem decode_one (ha : sextet a = some w) (hb : sextet b = some x) (hx : x % 16 = 0) :
    decode [a, b] = some [first w x] := by
  simp [decode, ha, hb, hx]

theorem decode_two (ha : sextet a = some w) (hb : sextet b = some x) (hc : sextet c = some y)
    (hy : y % 4 = 0) : decode [a, b, c] = some [first w x, second x y] := by
  simp [decode, ha, hb, hc, hy]

theorem decode_group (ha : sextet a = some w) (hb : sextet b = some x) (hc : sextet c = some y)
    (hd : sextet d = some z) (hrest : decode rest = some bytes) :
    decode (a :: b :: c :: d :: rest) =
      some (first w x :: second x y :: third y z :: bytes) := by
  simp [decode, ha, hb, hc, hd, hrest]

end Groups

end Base64Url
